/-
Module: Smelly.Proofs.ShellWords
Purpose: A command line made of quoted words is split into these words.
Trusted boundary: none
-/
import Smelly.Core.Shlex
import Smelly.Lib.Utf8
import Smelly.Proofs.RuneDecoding

namespace Smelly

namespace Shlex

open Utf8 Readline

/-! ### Quoted words -/

/-- `'` -/
def apostrophe : Char := Char.ofNat 0x27

/-- `"` -/
def doubleQuote : Char := Char.ofNat 0x22

/-- What stands for a character between apostrophes. -/
def quotedChar (c : Char) : List Char :=
  if c = apostrophe then [apostrophe, doubleQuote, apostrophe, doubleQuote, apostrophe] else [c]

/-- A quoted word. -/
def quotedWord (word : List Char) : List Char :=
  apostrophe :: (word.flatMap quotedChar ++ [apostrophe])

theorem utf8EncodeChar_apostrophe : String.utf8EncodeChar apostrophe = [0x27] := by decide

/-- Quoting, byte for byte. -/
theorem quoteStringForSH_eq (x : Bytes) :
    quoteStringForSH x =
      0x27 :: (x.flatMap (fun b => if b = 0x27 then [0x27, 0x22, 0x27, 0x22, 0x27] else [b]) ++
        [0x27]) := by
  unfold quoteStringForSH
  induction x with
  | nil => rfl
  | cons b x ih =>
    have pieces := List.splitOn_ne_nil (0x27 : UInt8) x
    by_cases quote : b = 0x27
    · rw [List.splitOn_cons_eq_if_modifyHead, if_pos (by simp [quote]), List.map_cons,
        List.intercalate_cons_of_ne_nil (by simp), ih, List.flatMap_cons,
        if_pos quote]
      rfl
    · cases split : x.splitOn (0x27 : UInt8) with
      | nil => exact absurd split pieces
      | cons piece more =>
        rw [split] at ih
        rw [List.splitOn_cons_eq_if_modifyHead, if_neg (by simpa using quote), split,
          List.flatMap_cons, if_neg quote]
        cases more with
        | nil =>
          simp only [List.modifyHead, List.map_cons, List.map_nil,
            List.intercalate_singleton, List.cons_append, List.nil_append,
            List.cons.injEq, true_and] at ih ⊢
          exact ih
        | cons next more =>
          simp only [List.modifyHead, List.map_cons] at ih ⊢
          rw [List.intercalate_cons_of_ne_nil (by simp)] at ih ⊢
          simp only [List.cons_append, List.nil_append, List.cons.injEq, true_and] at ih ⊢
          exact ih

/-- Only an apostrophe has the byte of one. -/
theorem quotedChar_bytes (c : Char) :
    (String.utf8EncodeChar c).flatMap
        (fun b => if b = 0x27 then [0x27, 0x22, 0x27, 0x22, 0x27] else [b]) =
      utf8 (quotedChar c) := by
  unfold quotedChar
  by_cases quote : c = apostrophe
  · rw [if_pos quote, quote]
    decide
  · have plain : ∀ b ∈ String.utf8EncodeChar c, b ≠ 0x27 := by
      intro b mem same
      have code := toNat_of_mem_utf8EncodeChar mem (by rw [same]; decide)
      apply quote
      rw [same] at code
      apply Char.ext
      exact UInt32.toNat_inj.1 code
    rw [if_neg quote]
    simp only [utf8_cons]
    show _ = String.utf8EncodeChar c ++ []
    rw [List.append_nil]
    generalize String.utf8EncodeChar c = bytes at plain
    induction bytes with
    | nil => rfl
    | cons b bytes ih =>
      rw [List.flatMap_cons, if_neg (plain b List.mem_cons_self),
        ih fun other mem => plain other (List.mem_cons_of_mem b mem)]
      rfl

/-- A word is quoted character for character. -/
theorem quoteStringForSH_utf8 (word : List Char) :
    quoteStringForSH (utf8 word) = utf8 (quotedWord word) := by
  rw [quoteStringForSH_eq]
  unfold quotedWord
  rw [utf8_cons, utf8_append, utf8EncodeChar_apostrophe]
  have body : (utf8 word).flatMap
      (fun b => if b = 0x27 then [0x27, 0x22, 0x27, 0x22, 0x27] else [b]) =
        utf8 (word.flatMap quotedChar) := by
    induction word with
    | nil => rfl
    | cons c word ih =>
      rw [utf8_cons, List.flatMap_append, quotedChar_bytes, ih, List.flatMap_cons, utf8_append]
  rw [body]
  rfl

/-! ### Reading -/

/-- What a tokenizer has before it: its input, and before that a byte that was given back. -/
structure Ahead (t : Tokenizer) (text : Bytes) (pos : Nat) : Prop where
  at_ : t.pos = pos
  ahead : (t.redoRune.sz = 0 ∧ t.input = text) ∨
    ∃ b : UInt8, b < 0x80 ∧ text = b :: t.input ∧
      t.redoRune = { char := b.toUInt32, sz := 1, runeType := classifyRune b.toUInt32 }

theorem Ahead.length {t : Tokenizer} {text : Bytes} {pos : Nat} (h : Ahead t text pos) :
    text.length ≤ t.input.length + 1 := by
  rcases h.ahead with ⟨-, same⟩ | ⟨b, -, same, -⟩
  · rw [same]
    omega
  · rw [same]
    exact Nat.le_refl _

/-- A character as the tokenizer reads it. -/
def runeOf (c : Char) : RedoRune :=
  { char := c.val, sz := (String.utf8EncodeChar c).length, runeType := classifyRune c.val }

/-- An ASCII byte starts a character only if it is that character. -/
theorem utf8EncodeChar_head {c : Char} {b : UInt8} {rest rest' : Bytes} (ascii : b < 0x80)
    (same : String.utf8EncodeChar c ++ rest = b :: rest') :
    String.utf8EncodeChar c = [b] ∧ c.val = b.toUInt32 ∧ rest = rest' := by
  have small : b.toNat < 0x80 := UInt8.lt_iff_toNat_lt.1 ascii
  have code : c.val.toNat = b.toNat := by
    cases bytes : String.utf8EncodeChar c with
    | nil =>
      have some_ := @String.length_utf8EncodeChar c
      rw [bytes] at some_
      have pos := c.utf8Size_pos
      rw [List.length_nil] at some_
      omega
    | cons first more =>
      rw [bytes, List.cons_append] at same
      obtain ⟨rfl, -⟩ := List.cons.inj same
      exact toNat_of_mem_utf8EncodeChar (by rw [bytes]; exact List.mem_cons_self) small
  have single : String.utf8EncodeChar c = [b] := by
    rw [utf8EncodeChar_of_ascii (by omega), code, UInt8.ofNat_toNat]
  refine ⟨single, ?_, ?_⟩
  · apply UInt32.toNat_inj.1
    rw [code, UInt8.toNat_toUInt32]
  · rw [single] at same
    exact (List.cons.inj same).2

/-- Reading a character. -/
theorem Ahead.read {t : Tokenizer} {c : Char} {rest : Bytes} {pos : Nat}
    (h : Ahead t (String.utf8EncodeChar c ++ rest) pos) :
    ∃ t', t.nextRune = (runeOf c, t') ∧
      Ahead t' rest (pos + (String.utf8EncodeChar c).length) ∧ t'.redoRune.sz = 0 ∧
      t'.input = rest := by
  rcases h.ahead with ⟨fresh, same⟩ | ⟨b, ascii, same, redo⟩
  · have filled : t.input ≠ [] := by
      rw [same]
      have some_ := @String.length_utf8EncodeChar c
      have size := c.utf8Size_pos
      intro none_
      have := congrArg List.length none_
      rw [List.length_append, List.length_nil] at this
      omega
    unfold Tokenizer.nextRune
    rw [if_neg (by omega), if_neg filled, same, decodeRune_utf8EncodeChar]
    refine ⟨_, rfl, ⟨?_, Or.inl ⟨fresh, ?_⟩⟩, fresh, ?_⟩
    · dsimp only
      rw [h.at_, Int.natCast_add]
    · exact List.drop_left
    · exact List.drop_left
  · obtain ⟨single, code, rfl⟩ := utf8EncodeChar_head ascii same
    unfold Tokenizer.nextRune
    have given : t.redoRune = runeOf c := by
      rw [redo]
      unfold runeOf
      rw [single, code]
      rfl
    have one : t.redoRune.sz = 1 := by rw [redo]
    rw [if_pos (by omega), given]
    refine ⟨_, rfl, ⟨?_, Or.inl ⟨rfl, rfl⟩⟩, rfl, rfl⟩
    dsimp only
    rw [h.at_, ← given, one, single]
    rfl

/-- Reading at the end. -/
theorem Ahead.readEnd {t : Tokenizer} {pos : Nat} (h : Ahead t [] pos) :
    t.nextRune = ({ runeType := .eofRuneClass }, t) := by
  rcases h.ahead with ⟨fresh, same⟩ | ⟨b, -, same, -⟩
  · unfold Tokenizer.nextRune
    rw [if_neg (by omega), if_pos same]
  · cases same

/-- A character that is given back is ahead again. -/
theorem Ahead.unread {t : Tokenizer} {c : Char} {rest : Bytes} {pos : Nat} {b : UInt8}
    (single : String.utf8EncodeChar c = [b]) (ascii : b < 0x80)
    (h : Ahead t rest (pos + 1)) (input : t.input = rest) :
    Ahead (t.unreadRune (runeOf c)) (b :: rest) pos := by
  have code : c.val = b.toUInt32 := by
    exact (@utf8EncodeChar_head c b [] [] ascii (by rw [single]; rfl)).2.1
  have one : (runeOf c).sz = 1 := by
    unfold runeOf
    rw [single]
    rfl
  constructor
  · show t.pos - (runeOf c).sz = pos
    rw [h.at_, one]
    omega
  · refine Or.inr ⟨b, ascii, ?_, ?_⟩
    · show b :: rest = b :: t.input
      rw [input]
    · show runeOf c = _
      unfold runeOf
      rw [single, code]
      rfl

theorem writeRune_val (value : Bytes) (c : Char) :
    writeRune value c.val = value ++ String.utf8EncodeChar c := by
  unfold writeRune
  rw [dif_pos c.valid]

/-! ### Rounds of the scanner -/

/-- So many rounds lead from one state to another. -/
def Leads (start : Int) (n : Nat) (s s' : Scan) : Prop :=
  ∀ rounds, scanLoop start (rounds + n) s = scanLoop start rounds s'

theorem Leads.refl (start : Int) (s : Scan) : Leads start 0 s s := fun _ => rfl

theorem Leads.trans {start : Int} {n m : Nat} {s t u : Scan} (first : Leads start n s t)
    (second : Leads start m t u) : Leads start (n + m) s u := by
  intro rounds
  rw [Nat.add_comm n m, ← Nat.add_assoc, first, second]

theorem Leads.round {start : Int} {s s' : Scan} (h : scanRound start s = .next s') :
    Leads start 1 s s' := by
  intro rounds
  rw [scanLoop, h]

/-- The only character that ends a quotation in apostrophes. -/
theorem classifyRune_nonEscaping {c : Char} (h : c ≠ apostrophe) :
    classifyRune c.val ≠ .nonEscapingQuoteRuneClass ∧ classifyRune c.val ≠ .eofRuneClass := by
  have other : c.val ≠ 0x27 := by
    intro same
    exact h (Char.ext same)
  unfold classifyRune
  rw [if_neg other]
  constructor <;> split_ifs <;> simp

/-- Between apostrophes, a character is taken as it is. -/
theorem leads_plain {start : Int} {s : Scan} {c : Char} {rest : Bytes} {pos : Nat}
    (quoting : s.state = .quotingState) (plain : c ≠ apostrophe)
    (h : Ahead s.t (String.utf8EncodeChar c ++ rest) pos) :
    ∃ t', Leads start 1 s { s with t := t', value := s.value ++ String.utf8EncodeChar c } ∧
      Ahead t' rest (pos + (String.utf8EncodeChar c).length) := by
  obtain ⟨t', read, ahead, -⟩ := h.read
  refine ⟨t', ?_, ahead⟩
  apply Leads.round
  obtain ⟨noQuote, noEnd⟩ := classifyRune_nonEscaping plain
  have type : (runeOf c).runeType = classifyRune c.val := rfl
  have char : (runeOf c).char = c.val := rfl
  unfold scanRound
  rw [read]
  dsimp only
  rw [quoting, type, char, writeRune_val]
  cases kind : classifyRune c.val with
  | eofRuneClass => exact absurd kind noEnd
  | nonEscapingQuoteRuneClass => exact absurd kind noQuote
  | _ => rfl

/-- A round on a character of a known class. -/
theorem leads_rune (start : Int) (s : Scan) (c : Char) (rest : Bytes) (next : Tokenizer → Scan)
    (round : ∀ t', s.t.nextRune = (runeOf c, t') → scanRound start s = .next (next t')) {pos : Nat}
    (h : Ahead s.t (String.utf8EncodeChar c ++ rest) pos) :
    ∃ t', Leads start 1 s (next t') ∧
      Ahead t' rest (pos + (String.utf8EncodeChar c).length) := by
  obtain ⟨t', read, ahead, -⟩ := h.read
  exact ⟨t', Leads.round (round t' read), ahead⟩

/-- An apostrophe of the word: the quotation is closed, and another one around it opened. -/
theorem leads_apostrophe (start : Int) (type : TokenType) (value : Bytes) {t : Tokenizer}
    {rest : Bytes} {pos : Nat} (h : Ahead t (utf8 (quotedChar apostrophe) ++ rest) pos) :
    ∃ t', Leads start 5 ⟨t, .quotingState, type, value⟩
        ⟨t', .quotingState, type, value ++ String.utf8EncodeChar apostrophe⟩ ∧
      Ahead t' rest (pos + 5) := by
  obtain ⟨t1, closes, h1⟩ := leads_rune start ⟨t, .quotingState, type, value⟩ apostrophe _
    (fun t => ⟨t, .inWordState, type, value⟩) (by
      intro t' read
      unfold scanRound
      rw [read]
      rfl) h
  obtain ⟨t2, opens, h2⟩ := leads_rune start ⟨t1, .inWordState, type, value⟩ doubleQuote _
    (fun t => ⟨t, .quotingEscapingState, type, value⟩) (by
      intro t' read
      unfold scanRound
      rw [read]
      rfl) h1
  obtain ⟨t3, takes, h3⟩ := leads_rune start ⟨t2, .quotingEscapingState, type, value⟩ apostrophe _
    (fun t => ⟨t, .quotingEscapingState, type, value ++ String.utf8EncodeChar apostrophe⟩) (by
      intro t' read
      unfold scanRound
      rw [read, ← writeRune_val]
      rfl) h2
  generalize value ++ String.utf8EncodeChar apostrophe = value' at takes ⊢
  obtain ⟨t4, closes', h4⟩ := leads_rune start ⟨t3, .quotingEscapingState, type, value'⟩
    doubleQuote _ (fun t => ⟨t, .inWordState, type, value'⟩) (by
      intro t' read
      unfold scanRound
      rw [read]
      rfl) h3
  obtain ⟨t5, opens', h5⟩ := leads_rune start ⟨t4, .inWordState, type, value'⟩ apostrophe _
    (fun t => ⟨t, .quotingState, type, value'⟩) (by
      intro t' read
      unfold scanRound
      rw [read]
      rfl) h4
  exact ⟨t5, (((closes.trans opens).trans takes).trans closes').trans opens', h5⟩

/-- The quoted characters of a word are taken as they are. -/
theorem leads_body (start : Int) (type : TokenType) (word : List Char) :
    ∀ (value : Bytes) {t : Tokenizer} {rest : Bytes} {pos : Nat},
      Ahead t (utf8 (word.flatMap quotedChar) ++ rest) pos →
      ∃ n t', n ≤ (utf8 (word.flatMap quotedChar)).length ∧
        Leads start n ⟨t, .quotingState, type, value⟩
          ⟨t', .quotingState, type, value ++ utf8 word⟩ ∧
        Ahead t' rest (pos + (utf8 (word.flatMap quotedChar)).length) := by
  induction word with
  | nil =>
    intro value t rest pos h
    refine ⟨0, t, Nat.le_refl _, ?_, h⟩
    show Leads start 0 _ ⟨t, .quotingState, type, value ++ []⟩
    rw [List.append_nil]
    exact Leads.refl start _
  | cons c word ih =>
    intro value t rest pos h
    rw [List.flatMap_cons, utf8_append, List.append_assoc] at h
    have one : ∃ n t', n ≤ (utf8 (quotedChar c)).length ∧
        Leads start n ⟨t, .quotingState, type, value⟩
          ⟨t', .quotingState, type, value ++ String.utf8EncodeChar c⟩ ∧
        Ahead t' (utf8 (word.flatMap quotedChar) ++ rest)
          (pos + (utf8 (quotedChar c)).length) := by
      by_cases quote : c = apostrophe
      · rw [quote] at h ⊢
        obtain ⟨t', leads, ahead⟩ := leads_apostrophe start type value h
        exact ⟨5, t', by decide, leads, ahead⟩
      · have single : utf8 (quotedChar c) = String.utf8EncodeChar c := by
          unfold quotedChar
          rw [if_neg quote]
          exact List.append_nil _
        rw [single] at h ⊢
        obtain ⟨t', leads, ahead⟩ :=
          @leads_plain start ⟨t, .quotingState, type, value⟩ c _ pos rfl quote h
        refine ⟨1, t', ?_, leads, ahead⟩
        rw [String.length_utf8EncodeChar]
        exact c.utf8Size_pos
    obtain ⟨n, t1, few, first, h1⟩ := one
    obtain ⟨m, t2, few', later, h2⟩ := ih (value ++ String.utf8EncodeChar c) h1
    refine ⟨n + m, t2, ?_, ?_, ?_⟩
    · rw [List.flatMap_cons, utf8_append, List.length_append]
      omega
    · rw [utf8_cons, ← List.append_assoc]
      exact first.trans later
    · rw [List.flatMap_cons, utf8_append, List.length_append, ← Nat.add_assoc]
      exact h2

/-- What stands behind a word: nothing, or a space. -/
def Ends (rest : Bytes) : Prop := rest = [] ∨ ∃ more, rest = 0x20 :: more

/-- A quoted word is one token. -/
theorem scanStream_word (word : List Char) {t : Tokenizer} {rest : Bytes} {pos : Nat}
    (ends : Ends rest) (h : Ahead t (utf8 (quotedWord word) ++ rest) pos) :
    ∃ t', scanStream t =
        (some { type := .WordToken, value := utf8 word, pos }, none, t') ∧
      Ahead t' rest (pos + (utf8 (quotedWord word)).length) := by
  have long := h.length
  have at_ := h.at_
  unfold quotedWord at h long ⊢
  rw [utf8_cons, utf8_append, List.append_assoc, List.append_assoc] at h
  obtain ⟨t1, opens, h1⟩ := leads_rune t.pos { t } apostrophe _
    (fun t => ⟨t, .quotingState, .WordToken, []⟩) (by
      intro t' read
      unfold scanRound
      rw [read]
      rfl) h
  obtain ⟨n, t2, few, body, h2⟩ := leads_body t.pos .WordToken word [] h1
  obtain ⟨t3, closes, h3⟩ := leads_rune t.pos ⟨t2, .quotingState, .WordToken, [] ++ utf8 word⟩
    apostrophe _ (fun t => ⟨t, .inWordState, .WordToken, utf8 word⟩) (by
      intro t' read
      unfold scanRound
      rw [read]
      rfl) h2
  have leads := (opens.trans body).trans closes
  have total : (utf8 (apostrophe :: (word.flatMap quotedChar ++ [apostrophe]))).length =
      1 + (utf8 (word.flatMap quotedChar)).length + 1 := by
    rw [utf8_cons, utf8_append, List.length_append, List.length_append, utf8EncodeChar_apostrophe]
    exact (Nat.add_assoc _ _ _).symm
  have enough : ∃ rounds, t.input.length + 3 = rounds + 1 + (1 + n + 1) := by
    rw [List.length_append, total] at long
    exact ⟨t.input.length - n, by omega⟩
  obtain ⟨rounds, enough⟩ := enough
  have ahead : Ahead t3 rest
      (pos + (utf8 (apostrophe :: (word.flatMap quotedChar ++ [apostrophe]))).length) := by
    rw [total, ← Nat.add_assoc, ← Nat.add_assoc]
    exact h3
  unfold scanStream
  rw [enough, leads, scanLoop, at_]
  rcases ends with rfl | ⟨more, rfl⟩
  · refine ⟨t3, ?_, ahead⟩
    unfold scanRound
    rw [ahead.readEnd]
  · have space : String.utf8EncodeChar ' ' = [0x20] := by decide
    obtain ⟨t4, read, ahead', -, input⟩ := @Ahead.read t3 ' ' more _ ahead
    refine ⟨t4.unreadRune (runeOf ' '), ?_, Ahead.unread space (by decide) ahead' input⟩
    unfold scanRound
    rw [read]
    rfl

/-- A space between two words is a token. -/
theorem scanStream_space (word : List Char) {t : Tokenizer} {rest : Bytes} {pos : Nat}
    (h : Ahead t (0x20 :: (utf8 (quotedWord word) ++ rest)) pos) :
    ∃ t', scanStream t = (some { type := .SpaceToken, value := [0x20], pos }, none, t') ∧
      Ahead t' (utf8 (quotedWord word) ++ rest) (pos + 1) := by
  have at_ := h.at_
  obtain ⟨t1, takes, h1⟩ := leads_rune t.pos { t } ' ' (utf8 (quotedWord word) ++ rest)
    (fun t => ⟨t, .inSpaceState, .SpaceToken, [0x20]⟩) (by
      intro t' read
      unfold scanRound
      rw [read]
      rfl) h
  unfold quotedWord at h1 ⊢
  rw [utf8_cons, List.append_assoc] at h1
  obtain ⟨t2, read, h2, -, input⟩ := h1.read
  refine ⟨t2.unreadRune (runeOf apostrophe), ?_, ?_⟩
  · unfold scanStream
    rw [show t.input.length + 3 = t.input.length + 1 + 1 + 1 from rfl, takes, scanLoop, at_]
    unfold scanRound
    rw [read]
    rfl
  · have ahead := Ahead.unread utf8EncodeChar_apostrophe (by decide) h2 input
    rw [utf8_cons, List.append_assoc]
    exact ahead

theorem scanStream_end {t : Tokenizer} {pos : Nat} (h : Ahead t [] pos) :
    scanStream t = (none, some .EOF, t) := by
  unfold scanStream
  rw [scanLoop]
  unfold scanRound
  rw [h.readEnd]

/-! ### Splitting -/

/-- Quoted words that follow another one. -/
def more (words : List (List Char)) : Bytes :=
  words.flatMap fun word => 0x20 :: utf8 (quotedWord word)

@[simp] theorem more_cons (word : List Char) (words : List (List Char)) :
    more (word :: words) = 0x20 :: (utf8 (quotedWord word) ++ more words) := rfl

theorem ends_more (words : List (List Char)) : Ends (more words) := by
  cases words with
  | nil => exact Or.inl rfl
  | cons word words => exact Or.inr ⟨_, rfl⟩

theorem lexerNext_word {bound : Nat} (word : List Char) {t : Tokenizer} {rest : Bytes} {pos : Nat}
    (ends : Ends rest) (h : Ahead t (utf8 (quotedWord word) ++ rest) pos) :
    ∃ t', lexerNext (bound + 1) t = (.ok (utf8 word), t') ∧
      Ahead t' rest (pos + (utf8 (quotedWord word)).length) := by
  obtain ⟨t', scans, ahead⟩ := scanStream_word word ends h
  refine ⟨t', ?_, ahead⟩
  rw [lexerNext, scans]

theorem lexerNext_more {bound : Nat} (word : List Char) {t : Tokenizer} {rest : Bytes} {pos : Nat}
    (ends : Ends rest) (h : Ahead t (0x20 :: (utf8 (quotedWord word) ++ rest)) pos) :
    ∃ t', lexerNext (bound + 2) t = (.ok (utf8 word), t') ∧
      Ahead t' rest (pos + 1 + (utf8 (quotedWord word)).length) := by
  obtain ⟨t1, scans, h1⟩ := scanStream_space word h
  obtain ⟨t2, next, h2⟩ := @lexerNext_word bound word t1 rest (pos + 1) ends h1
  refine ⟨t2, ?_, h2⟩
  rw [lexerNext, scans]
  exact next

/-- The words behind a word are all found. -/
theorem splitLoop_more (words : List (List Char)) :
    ∀ {bound : Nat} {t : Tokenizer} {pos : Nat} (subStrings : List Bytes), words.length < bound →
      Ahead t (more words) pos →
      splitLoop bound t subStrings = (subStrings ++ words.map utf8, none) := by
  induction words with
  | nil =>
    intro bound t pos subStrings enough h
    obtain ⟨bound, rfl⟩ := Nat.exists_eq_add_of_lt enough
    rw [splitLoop, lexerNext, scanStream_end h]
    simp
  | cons word words ih =>
    intro bound t pos subStrings enough h
    rw [List.length_cons] at enough
    obtain ⟨bound, rfl⟩ : ∃ less, bound = less + 1 := ⟨bound - 1, by omega⟩
    obtain ⟨t', next, ahead⟩ := @lexerNext_more (t.input.length + 1) word
      t _ pos (ends_more words) h
    rw [splitLoop, next]
    dsimp only
    rw [ih (subStrings ++ [utf8 word]) (by omega) ahead]
    simp

/-- The words behind a word are all found, and where the last one of them starts. -/
theorem completionLoop_more (words : List (List Char)) :
    ∀ {bound : Nat} {t : Tokenizer} {pos : Nat} (argv : List Bytes) (token : Token),
      2 * words.length < bound → token.type = .WordToken → Ahead t (more words) pos →
      completionLoop bound t argv token =
        (argv ++ words.map utf8,
          match words.getLast? with
          | none => token.pos
          | some word => (pos + (more words).length : Nat) - (utf8 (quotedWord word)).length) := by
  induction words with
  | nil =>
    intro bound t pos argv token enough type h
    obtain ⟨bound, rfl⟩ := Nat.exists_eq_add_of_lt enough
    rw [completionLoop, scanStream_end h]
    simp [type]
  | cons word words ih =>
    intro bound t pos argv token enough type h
    rw [List.length_cons] at enough
    obtain ⟨bound, rfl⟩ : ∃ less, bound = less + 2 := ⟨bound - 2, by omega⟩
    obtain ⟨t1, space, h1⟩ := scanStream_space word h
    obtain ⟨t2, scans, h2⟩ := scanStream_word word (ends_more words) h1
    rw [completionLoop, space]
    dsimp only
    rw [completionLoop, scans]
    dsimp only
    rw [ih _ _ (by omega) rfl h2, List.map_cons, List.append_assoc, List.singleton_append]
    congr 1
    rw [more_cons, List.length_cons, List.length_append]
    cases words with
    | nil =>
      simp only [List.getLast?_nil, List.getLast?_singleton]
      have none_ : (more []).length = 0 := rfl
      rw [none_]
      omega
    | cons next words =>
      rw [List.getLast?_cons_cons]
      cases last : (next :: words).getLast? with
      | none => simp at last
      | some final =>
        dsimp only
        omega

/-- A command line: the words quoted, with spaces between them. -/
def commandLine (words : List (List Char)) : Bytes :=
  [0x20].intercalate (words.map fun word => quoteStringForSH (utf8 word))

theorem commandLine_cons (word : List Char) (words : List (List Char)) :
    commandLine (word :: words) = utf8 (quotedWord word) ++ more words := by
  unfold commandLine
  induction words generalizing word with
  | nil =>
    rw [List.map_singleton, List.intercalate_singleton, quoteStringForSH_utf8]
    exact (List.append_nil _).symm
  | cons next words ih =>
    rw [List.map_cons, List.intercalate_cons_of_ne_nil (by simp), ih, quoteStringForSH_utf8,
      more_cons]
    simp

theorem length_quotedWord (word : List Char) : 2 ≤ (utf8 (quotedWord word)).length := by
  unfold quotedWord
  rw [utf8_cons, utf8_append, List.length_append, List.length_append, utf8EncodeChar_apostrophe]
  show 2 ≤ 1 + (_ + 1)
  omega

theorem length_more (words : List (List Char)) : 3 * words.length ≤ (more words).length := by
  induction words with
  | nil => exact Nat.le_refl _
  | cons word words ih =>
    have two := length_quotedWord word
    simp only [more_cons, List.length_cons, List.length_append]
    omega

/-- The words of a command line are found again. -/
theorem split_commandLine {words : List (List Char)} (nonempty : words ≠ []) :
    split (commandLine words) = (words.map utf8, none) := by
  cases words with
  | nil => exact absurd rfl nonempty
  | cons word words =>
    have fresh : Ahead { input := commandLine (word :: words) }
        (utf8 (quotedWord word) ++ more words) 0 :=
      ⟨rfl, Or.inl ⟨rfl, commandLine_cons word words⟩⟩
    obtain ⟨t', next, ahead⟩ := @lexerNext_word ((commandLine (word :: words)).length + 2) word
      _ _ 0 (ends_more words) fresh
    have enough : words.length < (commandLine (word :: words)).length := by
      have two := length_quotedWord word
      have rest := length_more words
      rw [commandLine_cons, List.length_append]
      omega
    unfold split
    rw [splitLoop, next]
    exact splitLoop_more words [utf8 word] enough ahead

/-- The words of a command line are found, and where the last one starts. -/
theorem splitForCompletion_commandLine (front : List (List Char)) (last : List Char) :
    splitForCompletion (commandLine (front ++ [last])) =
      ((front ++ [last]).map utf8,
        ((commandLine (front ++ [last])).length : Int) - (utf8 (quotedWord last)).length) := by
  obtain ⟨word, words, same⟩ : ∃ word words, front ++ [last] = word :: words := by
    cases front with
    | nil => exact ⟨last, [], rfl⟩
    | cons word front => exact ⟨word, front ++ [last], rfl⟩
  have final : (word :: words).getLast? = some last := by rw [← same]; simp
  rw [same]
  have fresh : Ahead { input := commandLine (word :: words) }
      (utf8 (quotedWord word) ++ more words) 0 := ⟨rfl, Or.inl ⟨rfl, commandLine_cons word words⟩⟩
  obtain ⟨t', scans, ahead⟩ := scanStream_word word (ends_more words) fresh
  have enough : 2 * words.length < (commandLine (word :: words)).length + 1 := by
    have rest := length_more words
    rw [commandLine_cons, List.length_append]
    omega
  unfold splitForCompletion
  rw [completionLoop, scans]
  dsimp only
  rw [completionLoop_more words _ _ enough rfl ahead, List.map_cons]
  congr 1
  rw [commandLine_cons, List.length_append]
  cases words with
  | nil =>
    cases final
    simp [more]
  | cons next words =>
    rw [List.getLast?_cons_cons] at final
    rw [final]
    dsimp only
    omega

/-- Splitting undoes quoting: the words of a command line are found again, and the position of the
last one is the number of bytes before its quoted form. -/
theorem shellWordsRoundTrip (front : List (List Char)) (last : List Char) :
    split (commandLine (front ++ [last])) = ((front ++ [last]).map utf8, none) ∧
      ∃ before, commandLine (front ++ [last]) = before ++ quoteStringForSH (utf8 last) ∧
        splitForCompletion (commandLine (front ++ [last])) =
          ((front ++ [last]).map utf8, (before.length : Int)) := by
  refine ⟨split_commandLine (by simp), ?_⟩
  obtain ⟨before, parts⟩ : ∃ before,
      commandLine (front ++ [last]) = before ++ quoteStringForSH (utf8 last) := by
    unfold commandLine
    induction front with
    | nil => exact ⟨[], by simp⟩
    | cons word front ih =>
      obtain ⟨before, parts⟩ := ih
      refine ⟨quoteStringForSH (utf8 word) ++ [0x20] ++ before, ?_⟩
      rw [List.cons_append, List.map_cons, List.intercalate_cons_of_ne_nil (by simp), parts]
      simp
  refine ⟨before, parts, ?_⟩
  rw [splitForCompletion_commandLine, parts, quoteStringForSH_utf8, List.length_append]
  congr 1
  omega

end Shlex

end Smelly
