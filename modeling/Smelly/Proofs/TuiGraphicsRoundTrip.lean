/-
Module: Smelly.Proofs.TuiGraphicsRoundTrip
Purpose: A graphics command that is written with its payload and parsed again.
Trusted boundary: none
-/
import Smelly.Core.Charsets
import Smelly.Core.TuiGraphics
import Mathlib.Algebra.Ring.Int.Defs

namespace Smelly.TuiGraphics

/-! ### Enumerations -/

theorem GrtA.fromString_toText (v : GrtA) : GrtA.fromString v.toText = some v := by
  cases v <;> rfl

theorem GrtQ.fromString_toText (v : GrtQ) : GrtQ.fromString v.toText = some v := by
  cases v <;> rfl

theorem GrtF.fromString_toText (v : GrtF) : GrtF.fromString v.toText = some v := by
  cases v <;> rfl

theorem GrtT.fromString_toText (v : GrtT) : GrtT.fromString v.toText = some v := by
  cases v <;> rfl

theorem GrtO.fromString_toText (v : GrtO) : GrtO.fromString v.toText = some v := by
  cases v <;> rfl

theorem GrtM.fromString_toText (v : GrtM) : GrtM.fromString v.toText = some v := by
  cases v <;> rfl

theorem GrtC.fromString_toText (v : GrtC) : GrtC.fromString v.toText = some v := by
  cases v <;> rfl

theorem GrtD.fromString_toText (v : GrtD) : GrtD.fromString v.toText = some v := by
  cases v <;> rfl

/-! ### Numbers -/

theorem isDigit_uintText {n : Nat} {c : Char} (h : c ∈ uintText n) : c.isDigit = true :=
  Nat.isDigit_of_mem_toDigits (by decide) (by decide) h

theorem parseUint_uintText {n bitSize : Nat} (range : n < 2 ^ bitSize) :
    parseUint (uintText n) bitSize = some n := by
  have digits : (uintText n).all Char.isDigit = true :=
    List.all_eq_true.2 fun _ => isDigit_uintText
  have value : Nat.ofDigitChars 10 (uintText n) 0 = n := Nat.ofDigitChars_toDigits (by decide) (by decide)
  unfold parseUint
  rw [if_neg (by simp only [digits, not_true, or_false]; exact Nat.toDigits_ne_nil), value]
  exact if_pos range

theorem setUval_uintText (n : UInt64) : setUval (uintText n.toNat) = some n := by
  rw [setUval, parseUint_uintText n.toNat_lt, Option.map_some, UInt64.ofNat_toNat]

theorem setU32val_uintText (n : UInt32) : setU32val (uintText n.toNat) = some n := by
  rw [setU32val, parseUint_uintText n.toNat_lt, Option.map_some, UInt32.ofNat_toNat]

theorem parseInt_intText {n : Int} (low : -2 ^ 31 ≤ n) (high : n < 2 ^ 31) :
    parseInt (intText n) 32 = some n := by
  have unsigned : parseUint (uintText n.natAbs) 32 = some n.natAbs :=
    parseUint_uintText (by omega)
  by_cases negative : n < 0
  · rw [intText, if_pos negative, parseInt, unsigned]
    simp only [Option.bind_eq_bind, Option.bind_some]
    rw [if_pos (by omega)]
    congr 1
    omega
  · rw [intText, if_neg negative]
    unfold parseInt
    split
    · next digits same =>
        have sign : '-'.isDigit = true := isDigit_uintText (n := n.natAbs) (by simp [same])
        cases sign
    · next digits same =>
        have sign : '+'.isDigit = true := isDigit_uintText (n := n.natAbs) (by simp [same])
        cases sign
    · rw [unsigned]
      simp only [Option.bind_eq_bind, Option.bind_some]
      rw [if_pos (by omega)]
      congr 1
      omega

theorem setI32val_intText (n : Int32) : setI32val (intText n.toInt) = some n := by
  rw [setI32val, parseInt_intText n.le_toInt n.toInt_lt, Option.map_some, Int32.ofInt_toInt]

/-! ### Fields -/

/-- A key and its text as the parser stores it. -/
def setItem (gc : GraphicsCommand) (item : Char × List Char) : GraphicsCommand :=
  (gc.setString item.1 item.2).getD gc

/-- Storing a field that was printed if it is not the default. -/
theorem foldl_writeKey {β : Type} [DecidableEq β] {text : β → List Char} (k : Char)
    {val defval : β} {gc : GraphicsCommand} (set : β → GraphicsCommand → GraphicsCommand)
    (sets : ∀ v g, GraphicsCommand.setString g k (text v) = some (set v g))
    (same : set defval gc = gc) :
    (writeKey text k val defval).foldl setItem gc = set val gc := by
  apply Fields.foldl_written set ?_ same
  rw [setItem, sets]
  rfl

theorem foldl_nonDefaultFields (gc : GraphicsCommand) :
    gc.nonDefaultFields.foldl setItem {} = { gc with responseMessage := [] } := by
  unfold GraphicsCommand.nonDefaultFields
  simp only [List.foldl_append]
  rw [foldl_writeKey 'a' (fun v g => { g with a := v })
    (fun v _ => by simp [GraphicsCommand.setString, GrtA.fromString_toText])]
  rw [foldl_writeKey 'q' (fun v g => { g with q := v })
    (fun v _ => by simp [GraphicsCommand.setString, GrtQ.fromString_toText])]
  rw [foldl_writeKey 'f' (fun v g => { g with f := v })
    (fun v _ => by simp [GraphicsCommand.setString, GrtF.fromString_toText])]
  rw [foldl_writeKey 't' (fun v g => { g with t := v })
    (fun v _ => by simp [GraphicsCommand.setString, GrtT.fromString_toText])]
  rw [foldl_writeKey 'o' (fun v g => { g with o := v })
    (fun v _ => by simp [GraphicsCommand.setString, GrtO.fromString_toText])]
  rw [foldl_writeKey 'm' (fun v g => { g with m := v })
    (fun v _ => by simp [GraphicsCommand.setString, GrtM.fromString_toText])]
  rw [foldl_writeKey 'C' (fun v g => { g with C := v })
    (fun v _ => by simp [GraphicsCommand.setString, GrtC.fromString_toText])]
  rw [foldl_writeKey 'd' (fun v g => { g with d := v })
    (fun v _ => by simp [GraphicsCommand.setString, GrtD.fromString_toText])]
  rw [foldl_writeKey 's' (fun v g => { g with s := v })
    (fun v _ => by simp [GraphicsCommand.setString, setUval_uintText])]
  rw [foldl_writeKey 'v' (fun v g => { g with v := v })
    (fun v _ => by simp [GraphicsCommand.setString, setUval_uintText])]
  rw [foldl_writeKey 'S' (fun v g => { g with S := v })
    (fun v _ => by simp [GraphicsCommand.setString, setUval_uintText])]
  rw [foldl_writeKey 'O' (fun v g => { g with O := v })
    (fun v _ => by simp [GraphicsCommand.setString, setUval_uintText])]
  rw [foldl_writeKey 'x' (fun v g => { g with x := v })
    (fun v _ => by simp [GraphicsCommand.setString, setUval_uintText])]
  rw [foldl_writeKey 'y' (fun v g => { g with y := v })
    (fun v _ => by simp [GraphicsCommand.setString, setUval_uintText])]
  rw [foldl_writeKey 'w' (fun v g => { g with w := v })
    (fun v _ => by simp [GraphicsCommand.setString, setUval_uintText])]
  rw [foldl_writeKey 'h' (fun v g => { g with h := v })
    (fun v _ => by simp [GraphicsCommand.setString, setUval_uintText])]
  rw [foldl_writeKey 'X' (fun v g => { g with X := v })
    (fun v _ => by simp [GraphicsCommand.setString, setUval_uintText])]
  rw [foldl_writeKey 'Y' (fun v g => { g with Y := v })
    (fun v _ => by simp [GraphicsCommand.setString, setUval_uintText])]
  rw [foldl_writeKey 'c' (fun v g => { g with c := v })
    (fun v _ => by simp [GraphicsCommand.setString, setUval_uintText])]
  rw [foldl_writeKey 'r' (fun v g => { g with r := v })
    (fun v _ => by simp [GraphicsCommand.setString, setUval_uintText])]
  rw [foldl_writeKey 'i' (fun v g => { g with i := v })
    (fun v _ => by simp [GraphicsCommand.setString, setU32val_uintText])]
  rw [foldl_writeKey 'I' (fun v g => { g with I := v })
    (fun v _ => by simp [GraphicsCommand.setString, setU32val_uintText])]
  rw [foldl_writeKey 'p' (fun v g => { g with p := v })
    (fun v _ => by simp [GraphicsCommand.setString, setU32val_uintText])]
  rw [foldl_writeKey 'z' (fun v g => { g with z := v })
    (fun v _ => by simp [GraphicsCommand.setString, setI32val_intText])]
  all_goals rfl

/-! ### Parsing -/

/-- A key and a text without the characters that separate fields. -/
def PlainItem (item : Char × List Char) : Prop :=
  item.1 ≠ ';' ∧ ∀ c ∈ item.2, c ≠ ',' ∧ c ≠ ';'

/-- The text behind the fields. -/
def payloadText (chunk : List Char) : List Char := if chunk.length > 0 then ';' :: chunk else []

/-- A command with its payload. -/
def withPayload (gc : GraphicsCommand) (chunk : List Char) : GraphicsCommand :=
  if chunk.length > 0 then { gc with responseMessage := chunk } else gc

namespace ApcParser

variable {raw : List Char} {p : ApcParser}

theorem loop_value (inValue : p.state = .expectingValue) {value : List Char}
    (plain : ∀ c ∈ value, c ≠ ',' ∧ c ≠ ';') (pos : Nat) (rest : List Char) :
    p.loop raw pos (value ++ rest) = p.loop raw (pos + value.length) rest := by
  induction value generalizing pos with
  | nil => rfl
  | cons c value ih =>
    obtain ⟨notComma, notSemicolon⟩ := plain c List.mem_cons_self
    rw [List.cons_append, loop, if_neg notSemicolon]
    simp only [inValue, notComma, if_false]
    rw [ih (fun d mem => plain d (List.mem_cons_of_mem c mem)), List.length_cons]
    congr 1
    omega

/-- From the start of an item to the end of its text. -/
theorem loop_item (atKey : p.state = .expectingKey) {item : Char × List Char}
    (plain : PlainItem item) (pos : Nat) (rest : List Char) :
    p.loop raw pos (item.1 :: '=' :: (item.2 ++ rest)) =
      { p with
        currentKey := item.1
        state := .expectingValue
        valueStartAt := pos + 2 : ApcParser }.loop raw (pos + 2 + item.2.length) rest := by
  rw [loop, if_neg plain.1]
  simp only [atKey]
  exact loop_value rfl plain.2 (pos + 2) rest

theorem addKey_item {before : List Char} {item : Char × List Char} {rest : List Char}
    (split : raw = before ++ item.1 :: '=' :: (item.2 ++ rest)) (key : p.currentKey = item.1)
    (start : p.valueStartAt = before.length + 2) :
    p.addKey raw (before.length + 2 + item.2.length) = setItem p.gc item := by
  have value : (raw.drop (before.length + 2)).take item.2.length = item.2 := by
    rw [split]
    simp
  rw [addKey, key, start, Nat.add_sub_cancel_left, value]
  rfl

/-- The last item, and the payload. -/
theorem finish_value (inValue : p.state = .expectingValue) (none_ : p.payloadStartAt = none)
    {before chunk : List Char} (split : raw = before ++ payloadText chunk) :
    (p.loop raw before.length (payloadText chunk)).finish raw =
      withPayload (p.addKey raw before.length) chunk := by
  unfold payloadText at split ⊢
  unfold withPayload
  by_cases some_ : chunk.length > 0
  · rw [if_pos some_] at split
    rw [if_pos some_, loop]
    have payload : raw.drop (before.length + 1) = chunk := by
      rw [split, ← List.drop_drop, List.drop_left]
      rfl
    simp [finish, inValue, payload, some_]
  · rw [if_neg some_, List.append_nil] at split
    rw [if_neg some_, if_neg some_, loop, finish, inValue, if_pos rfl, none_, split]

theorem finish_items {items : List (Char × List Char)} (some_ : items ≠ [])
    (plain : ∀ item ∈ items, PlainItem item) (atKey : p.state = .expectingKey)
    (none_ : p.payloadStartAt = none) {before chunk : List Char}
    (split : raw = before ++ ([','].intercalate (items.map fun (k, val) => k :: '=' :: val) ++
      payloadText chunk)) :
    (p.loop raw before.length ([','].intercalate (items.map fun (k, val) => k :: '=' :: val) ++
      payloadText chunk)).finish raw = withPayload (items.foldl setItem p.gc) chunk := by
  induction items generalizing p before with
  | nil => exact absurd rfl some_
  | cons item items ih =>
    have itemPlain := plain item List.mem_cons_self
    cases items with
    | nil =>
      simp only [List.map_cons, List.map_nil, List.intercalate_singleton, List.cons_append]
        at split ⊢
      rw [loop_item atKey itemPlain]
      have whole : raw = (before ++ item.1 :: '=' :: item.2) ++ payloadText chunk := by
        rw [split]
        simp
      have last := finish_value (p := { p with
        currentKey := item.1
        state := .expectingValue
        valueStartAt := before.length + 2 }) rfl none_ whole
      have length : (before ++ item.1 :: '=' :: item.2).length =
          before.length + 2 + item.2.length := by
        simp only [List.length_append, List.length_cons]
        omega
      rw [length] at last
      rw [last, addKey_item split rfl rfl]
      rfl
    | cons next items =>
      simp only [List.map_cons, List.intercalate_cons_cons, List.cons_append,
        List.append_assoc] at split ⊢
      rw [loop_item atKey itemPlain, loop]
      have stored := addKey_item (p := { p with
        currentKey := item.1
        state := .expectingValue
        valueStartAt := before.length + 2 }) split rfl rfl
      rw [stored]
      have length : (before ++ item.1 :: '=' :: item.2 ++ [',']).length =
          before.length + 2 + item.2.length + 1 := by
        simp only [List.length_append, List.length_cons, List.length_nil]
        omega
      have whole : raw = before ++ item.1 :: '=' :: item.2 ++ [','] ++
          ([','].intercalate ((next :: items).map fun (k, val) => k :: '=' :: val) ++
            payloadText chunk) := by
        rw [split]
        simp
      have rest := ih (p := { p with
        currentKey := item.1
        state := .expectingKey
        valueStartAt := before.length + 2
        gc := setItem p.gc item }) (List.cons_ne_nil _ _)
        (fun other mem => plain other (List.mem_cons_of_mem item mem)) rfl none_ whole
      rw [length] at rest
      exact rest

end ApcParser

/-- A text of fields and a payload is parsed field by field. -/
theorem parsePayload_items {items : List (Char × List Char)} (plain : ∀ item ∈ items, PlainItem item)
    (chunk : List Char) :
    graphicsCommandFromAPCPayload
      ([','].intercalate (items.map fun (k, val) => k :: '=' :: val) ++ payloadText chunk) =
      withPayload (items.foldl setItem {}) chunk := by
  cases items with
  | nil =>
    unfold graphicsCommandFromAPCPayload payloadText withPayload
    by_cases some_ : chunk.length > 0
    · simp [some_, ApcParser.loop, ApcParser.finish]
    · simp [some_, ApcParser.loop, ApcParser.finish]
  | cons item items =>
    have whole : ∀ text : List Char, text = [] ++ text := fun _ => rfl
    exact ApcParser.finish_items (List.cons_ne_nil _ _) plain rfl rfl (whole _)

/-! ### Serializing -/

/-- A character of the text of a field. -/
def FieldChar (c : Char) : Prop := c.isAlphanum = true ∨ c = '-'

instance (c : Char) : Decidable (FieldChar c) := inferInstanceAs (Decidable (_ ∨ _))

theorem GrtA.toText_chars (v : GrtA) : ∀ c ∈ v.toText, FieldChar c := by
  cases v <;> exact forall_mem_of_all (by decide)

theorem GrtQ.toText_chars (v : GrtQ) : ∀ c ∈ v.toText, FieldChar c := by
  cases v <;> exact forall_mem_of_all (by decide)

theorem GrtF.toText_chars (v : GrtF) : ∀ c ∈ v.toText, FieldChar c := by
  cases v <;> exact forall_mem_of_all (by decide)

theorem GrtT.toText_chars (v : GrtT) : ∀ c ∈ v.toText, FieldChar c := by
  cases v <;> exact forall_mem_of_all (by decide)

theorem GrtO.toText_chars (v : GrtO) : ∀ c ∈ v.toText, FieldChar c := by
  cases v <;> exact forall_mem_of_all (by decide)

theorem GrtM.toText_chars (v : GrtM) : ∀ c ∈ v.toText, FieldChar c := by
  cases v <;> exact forall_mem_of_all (by decide)

theorem GrtC.toText_chars (v : GrtC) : ∀ c ∈ v.toText, FieldChar c := by
  cases v <;> exact forall_mem_of_all (by decide)

theorem GrtD.toText_chars (v : GrtD) : ∀ c ∈ v.toText, FieldChar c := by
  cases v <;> exact forall_mem_of_all (by decide)

theorem uintText_chars (n : Nat) : ∀ c ∈ uintText n, FieldChar c := by
  intro c mem
  have digit := isDigit_uintText mem
  exact .inl (by simp [Char.isAlphanum, digit])

theorem intText_chars (n : Int) : ∀ c ∈ intText n, FieldChar c := by
  intro c mem
  unfold intText at mem
  split at mem
  · rcases List.mem_cons.1 mem with rfl | digit
    · exact .inr rfl
    · exact uintText_chars _ c digit
  · exact uintText_chars _ c mem

theorem writeKey_chars {β : Type} [DecidableEq β] {text : β → List Char} {k : Char}
    {val defval : β} (key : FieldChar k) (texts : ∀ c ∈ text val, FieldChar c) :
    ∀ item ∈ writeKey text k val defval, ∀ c ∈ item.1 :: item.2, FieldChar c :=
  Fields.forall_mem_written fun _ => List.forall_mem_cons.2 ⟨key, texts⟩

/-- The keys and texts of the fields hold letters, digits and minus signs only. -/
theorem nonDefaultFields_chars (gc : GraphicsCommand) :
    ∀ item ∈ gc.nonDefaultFields, ∀ c ∈ item.1 :: item.2, FieldChar c := by
  unfold GraphicsCommand.nonDefaultFields
  simp only [List.forall_mem_append]
  and_intros
  · exact writeKey_chars (by decide) gc.a.toText_chars
  · exact writeKey_chars (by decide) gc.q.toText_chars
  · exact writeKey_chars (by decide) gc.f.toText_chars
  · exact writeKey_chars (by decide) gc.t.toText_chars
  · exact writeKey_chars (by decide) gc.o.toText_chars
  · exact writeKey_chars (by decide) gc.m.toText_chars
  · exact writeKey_chars (by decide) gc.C.toText_chars
  · exact writeKey_chars (by decide) gc.d.toText_chars
  all_goals first
    | exact writeKey_chars (by decide) (uintText_chars _)
    | exact writeKey_chars (by decide) (intText_chars _)

theorem plainItem_of_chars {item : Char × List Char} (chars : ∀ c ∈ item.1 :: item.2, FieldChar c) :
    PlainItem item := by
  have separates : ∀ c ∈ item.1 :: item.2, c ≠ ',' ∧ c ≠ ';' := by
    intro c mem
    have fieldChar := chars c mem
    constructor
    · rintro rfl
      exact absurd fieldChar (by decide)
    · rintro rfl
      exact absurd fieldChar (by decide)
  exact ⟨(separates _ List.mem_cons_self).2, fun c mem => separates c (List.mem_cons_of_mem _ mem)⟩

/-! ### APC codes -/

/-- What a reader of the terminal's input gets: the commands of the APC codes. -/
def readCommands (text : List Char) : List (Option GraphicsCommand) :=
  (apcCodes text).map graphicsCommandFromAPC

theorem apcCodesFrom_body {body : List Char} (plain : ∀ c ∈ body, c ≠ '\x1b') (code rest : List Char) :
    apcCodesFrom (some code) (body ++ '\x1b' :: '\\' :: rest) =
      (code ++ body) :: apcCodesFrom none rest := by
  induction body generalizing code with
  | nil => simp [apcCodesFrom]
  | cons c body ih =>
    have notEsc := plain c List.mem_cons_self
    have later := ih (fun d mem => plain d (List.mem_cons_of_mem c mem)) (code ++ [c])
    rw [List.cons_append, apcCodesFrom, later]
    · simp
    · exact fun _ same => absurd same notEsc

/-- The text of a field or of base64 has no escape character. -/
theorem metadata_plain (gc : GraphicsCommand) : ∀ c ∈ gc.metadata, c ≠ '\x1b' := by
  have items : ∀ text ∈ gc.serializeNonDefaultFields, ∀ c ∈ text, c ≠ '\x1b' := by
    intro text mem c inText
    obtain ⟨item, itemMem, rfl⟩ := List.mem_map.1 mem
    have chars := nonDefaultFields_chars gc item itemMem
    rintro rfl
    have escape : ¬FieldChar '\x1b' := by decide
    simp only [List.mem_cons] at inText
    rcases inText with key | sign | value
    · exact escape (chars _ (List.mem_cons.2 (.inl key)))
    · cases sign
    · exact escape (chars _ (List.mem_cons_of_mem _ value))
  unfold GraphicsCommand.metadata
  generalize gc.serializeNonDefaultFields = texts at items
  induction texts with
  | nil => simp
  | cons text texts ih =>
    intro c mem
    cases texts with
    | nil => exact items text List.mem_cons_self c (by simpa using mem)
    | cons next texts =>
      rw [List.intercalate_cons_cons] at mem
      rcases List.mem_append.1 mem with before | after
      · rcases List.mem_append.1 before with inText | comma
        · exact items text List.mem_cons_self c inText
        · rw [List.mem_singleton.1 comma]
          decide
      · exact ih (fun other otherMem => items other (List.mem_cons_of_mem text otherMem)) c after

/-- A command that is written is read again, with its chunk as the payload. -/
theorem readCommands_serializeTo (gc : GraphicsCommand) {chunk : List Char}
    (plain : ∀ c ∈ chunk, c ≠ '\x1b') (rest : List Char) :
    readCommands (gc.serializeTo chunk ++ rest) =
      some { gc with responseMessage := chunk } :: readCommands rest := by
  have body : ∀ c ∈ 'G' :: (gc.metadata ++ payloadText chunk), c ≠ '\x1b' := by
    intro c mem
    rcases List.mem_cons.1 mem with rfl | later
    · decide
    · rcases List.mem_append.1 later with inFields | inPayload
      · exact metadata_plain gc c inFields
      · unfold payloadText at inPayload
        split at inPayload
        · rcases List.mem_cons.1 inPayload with rfl | inChunk
          · decide
          · exact plain c inChunk
        · cases inPayload
  have text : gc.serializeTo chunk ++ rest = '\x1b' :: '_' ::
      ('G' :: (gc.metadata ++ payloadText chunk) ++ '\x1b' :: '\\' :: rest) := by
    simp [GraphicsCommand.serializeTo, payloadText]
  have items : ∀ item ∈ gc.nonDefaultFields, PlainItem item := fun item mem =>
    plainItem_of_chars (nonDefaultFields_chars gc item mem)
  have parsed : graphicsCommandFromAPCPayload (gc.metadata ++ payloadText chunk) =
      { gc with responseMessage := chunk } := by
    rw [GraphicsCommand.metadata, GraphicsCommand.serializeNonDefaultFields,
      parsePayload_items items, foldl_nonDefaultFields, withPayload]
    by_cases some_ : chunk.length > 0
    · rw [if_pos some_]
    · rw [if_neg some_, List.eq_nil_of_length_eq_zero (Nat.eq_zero_of_not_pos some_)]
  rw [readCommands, apcCodes, text, apcCodesFrom, apcCodesFrom_body body, List.nil_append,
    List.map_cons, graphicsCommandFromAPC, parsed]
  rfl

/-! ### Chunks -/

/-- Commands that carry data in chunks: all but the last have the more flag. -/
structure Chunked (data : List Char) (commands : List GraphicsCommand) : Prop where
  payload : commands.flatMap (·.responseMessage) = data
  short : ∀ c ∈ commands, c.responseMessage.length ≤ 4096
  more : ∀ c ∈ commands.dropLast, c.m = .more
  last : ∀ c ∈ commands.getLast?, c.m = .nomore

/-- One more chunk in front. -/
theorem Chunked.cons {data chunk : List Char} {commands : List GraphicsCommand}
    (h : Chunked data commands) (some_ : commands ≠ []) {c : GraphicsCommand} (more : c.m = .more)
    (carries : c.responseMessage = chunk) (short : chunk.length ≤ 4096) :
    Chunked (chunk ++ data) (c :: commands) := by
  refine ⟨?_, ?_, ?_, ?_⟩
  · rw [List.flatMap_cons, carries, h.payload]
  · exact List.forall_mem_cons.2 ⟨carries ▸ short, h.short⟩
  · rw [List.dropLast_cons_of_ne_nil some_]
    exact List.forall_mem_cons.2 ⟨more, h.more⟩
  · intro last isLast
    rw [List.getLast?_cons_of_ne_nil some_] at isLast
    exact h.last last isLast

theorem readCommands_writeChunks (self gc : GraphicsCommand) (data : List Char)
    (some_ : data ≠ []) (plain : ∀ c ∈ data, c ≠ '\x1b') :
    ∃ first later, readCommands (self.writeChunks gc data) = (first :: later).map some ∧
      first = { gc with m := first.m, responseMessage := first.responseMessage } ∧
      (∀ c ∈ later,
        c = { a := self.a, q := self.q, m := c.m, responseMessage := c.responseMessage }) ∧
      Chunked data (first :: later) := by
  induction length : data.length using Nat.strongRecOn generalizing gc data with
  | ind n ih =>
    have positive : data.length > 0 := List.length_pos_of_ne_nil some_
    by_cases long : data.length > 4096
    · have restLength : (data.drop 4096).length > 0 := by
        rw [List.length_drop]
        omega
      have written : self.writeChunks gc data =
          { gc with m := .more }.serializeTo (data.take 4096) ++
            self.writeChunks { q := self.q, a := self.a } (data.drop 4096) := by
        rw [GraphicsCommand.writeChunks, if_pos positive]
        simp only [long, if_true, restLength]
      obtain ⟨next, later, readEq, nextEq, laterEq, chunked⟩ := ih (data.drop 4096).length
        (by rw [List.length_drop]; omega) { q := self.q, a := self.a } (data.drop 4096)
        (List.ne_nil_of_length_pos restLength)
        (fun c mem => plain c (List.mem_of_mem_drop mem)) rfl
      refine ⟨{ gc with m := .more, responseMessage := data.take 4096 }, next :: later, ?_, rfl,
        List.forall_mem_cons.2 ⟨nextEq, laterEq⟩, ?_⟩
      · rw [written, readCommands_serializeTo _ fun c mem => plain c (List.mem_of_mem_take mem),
          readEq]
        rfl
      · have whole := chunked.cons (List.cons_ne_nil next later)
          (c := { gc with m := .more, responseMessage := data.take 4096 }) rfl rfl
          (List.length_take_le 4096 data)
        rwa [List.take_append_drop] at whole
    · have written : self.writeChunks gc data = { gc with m := .nomore }.serializeTo data := by
        have nothing : self.writeChunks { q := self.q, a := self.a } [] = [] := by
          rw [GraphicsCommand.writeChunks]
          rfl
        rw [GraphicsCommand.writeChunks, if_pos positive]
        simp [long, nothing]
      refine ⟨{ gc with m := .nomore, responseMessage := data }, [], ?_, rfl,
        fun _ mem => absurd mem List.not_mem_nil, ⟨?_, ?_, ?_, ?_⟩⟩
      · rw [written, ← List.append_nil (GraphicsCommand.serializeTo _ _),
          readCommands_serializeTo _ plain]
        rfl
      · simp
      · intro c mem
        rw [List.mem_singleton.1 mem]
        exact Nat.le_of_not_lt long
      · exact fun c mem => absurd mem List.not_mem_nil
      · intro c isLast
        cases isLast
        rfl

/-! ### The round trip -/

/-- `WriteWithPayloadTo` compresses the payload. -/
def compresses (compressWithZlib : List UInt8 → List UInt8) (gc : GraphicsCommand)
    (payload : List UInt8) : Bool :=
  2048 < payload.length ∧ gc.f ≠ .png ∧ (compressWithZlib payload).length < payload.length

/-- The payload as it is encoded. -/
def sentPayload (compressWithZlib : List UInt8 → List UInt8) (gc : GraphicsCommand)
    (payload : List UInt8) : List UInt8 :=
  if compresses compressWithZlib gc payload then compressWithZlib payload else payload

theorem encode_plain (data : List UInt8) : ∀ c ∈ Base64.encode data, c ≠ '\x1b' := fun _ mem =>
  Base64.ne_of_mem_encode mem (by decide) (by decide)

/-- A command that is written with a payload is read as a command with its fields, of which the
compression flag is set if the payload was compressed, and further commands that carry the rest of the
payload in chunks; the chunks together decode to the payload. -/
theorem graphicsCommandRoundTrip (compressWithZlib : List UInt8 → List UInt8)
    (decompressWithZlib : List UInt8 → Option (List UInt8))
    (inverted : ∀ data, decompressWithZlib (compressWithZlib data) = some data)
    (headed : ∀ data, compressWithZlib data ≠ []) (gc : GraphicsCommand) (payload : List UInt8) :
    ∃ first later, readCommands (gc.writeWithPayloadTo compressWithZlib payload) =
        (first :: later).map some ∧
      first = { gc with
        o := if compresses compressWithZlib gc payload then .zlib else gc.o
        m := first.m
        responseMessage := first.responseMessage } ∧
      (∀ c ∈ later,
        c = { a := gc.a, q := gc.q, m := c.m, responseMessage := c.responseMessage }) ∧
      (payload.length ≤ 2048 → first.m = gc.m ∧ later = []) ∧
      (2048 < payload.length → (∀ c ∈ (first :: later).dropLast, c.m = .more) ∧
        ∀ c ∈ (first :: later).getLast?, c.m = .nomore) ∧
      (∀ c ∈ first :: later, c.responseMessage.length ≤ 4096) ∧
      Base64.decode ((first :: later).flatMap (·.responseMessage)) =
        some (sentPayload compressWithZlib gc payload) ∧
      (compresses compressWithZlib gc payload = true →
        decompressWithZlib (sentPayload compressWithZlib gc payload) = some payload) := by
  have decompressed : compresses compressWithZlib gc payload = true →
      decompressWithZlib (sentPayload compressWithZlib gc payload) = some payload := by
    intro compressed
    rw [sentPayload, if_pos compressed]
    exact inverted payload
  by_cases short : payload.length ≤ 2048
  · have uncompressed : compresses compressWithZlib gc payload = false := by
      simp [compresses, Nat.not_lt.2 short]
    have written : gc.writeWithPayloadTo compressWithZlib payload =
        gc.serializeTo (Base64.encode payload) := by
      unfold GraphicsCommand.writeWithPayloadTo
      split
      · next nothing =>
          rw [List.eq_nil_of_length_eq_zero nothing]
          rfl
      · rfl
    refine ⟨{ gc with responseMessage := Base64.encode payload }, [], ?_, ?_,
      fun _ mem => absurd mem List.not_mem_nil, fun _ => ⟨rfl, rfl⟩,
      fun long => absurd short (Nat.not_le.2 long), ?_, ?_, decompressed⟩
    · rw [written, ← List.append_nil (GraphicsCommand.serializeTo _ _),
        readCommands_serializeTo _ (encode_plain payload)]
      rfl
    · rw [uncompressed]
      rfl
    · intro c mem
      rw [List.mem_singleton.1 mem]
      have length := Base64.length_encode payload
      show (Base64.encode payload).length ≤ 4096
      omega
    · rw [sentPayload, uncompressed]
      simpa using Base64.decode_encode payload
  · have long : 2048 < payload.length := Nat.lt_of_not_le short
    have written : gc.writeWithPayloadTo compressWithZlib payload =
        gc.writeChunks { gc with
          o := if compresses compressWithZlib gc payload then .zlib else gc.o }
          (Base64.encode (sentPayload compressWithZlib gc payload)) := by
      unfold GraphicsCommand.writeWithPayloadTo sentPayload compresses
      rw [if_neg (by omega), if_neg short]
      by_cases compressed : gc.f ≠ .png ∧ (compressWithZlib payload).length < payload.length
      · simp [compressed, long]
      · simp [compressed]
    have some_ : Base64.encode (sentPayload compressWithZlib gc payload) ≠ [] := by
      rw [ne_eq, Base64.encode_eq_nil, sentPayload]
      split
      · exact headed payload
      · exact List.ne_nil_of_length_pos (by omega)
    obtain ⟨first, later, readEq, firstEq, laterEq, chunked⟩ :=
      readCommands_writeChunks gc _ _ some_ (encode_plain _)
    refine ⟨first, later, by rw [written, readEq], firstEq, laterEq,
      fun few => absurd few short, fun _ => ⟨chunked.more, chunked.last⟩, chunked.short, ?_,
      decompressed⟩
    rw [chunked.payload, Base64.decode_encode]

/-- A PNG image of 4000 bytes. -/
theorem graphicsCommandRoundTrip_png :
    ∃ first later, readCommands (GraphicsCommand.writeWithPayloadTo (fun data => 0x78 :: data)
        { a := .transmitAndDisplay, f := .png, i := 7 } (List.replicate 4000 0)) =
        (first :: later).map some ∧
      first.a = .transmitAndDisplay ∧ first.i = 7 ∧ (∀ c ∈ later, c.a = .transmitAndDisplay) ∧
      (∀ c ∈ (first :: later).dropLast, c.m = .more) ∧
      Base64.decode ((first :: later).flatMap (·.responseMessage)) =
        some (List.replicate 4000 0) := by
  obtain ⟨first, later, readEq, firstEq, laterEq, -, chunked, -, decoded, -⟩ :=
    graphicsCommandRoundTrip (fun data => 0x78 :: data) (fun data => some data.tail)
      (fun _ => rfl) (fun data => List.cons_ne_nil 0x78 data)
      { a := .transmitAndDisplay, f := .png, i := 7 } (List.replicate 4000 0)
  have long : 2048 < (List.replicate 4000 (0 : UInt8)).length := by
    rw [List.length_replicate]
    decide
  refine ⟨first, later, readEq, congrArg GraphicsCommand.a firstEq,
    congrArg GraphicsCommand.i firstEq, fun c mem => congrArg GraphicsCommand.a (laterEq c mem),
    (chunked long).1, ?_⟩
  rw [decoded, sentPayload, if_neg fun compressed => (of_decide_eq_true compressed).2.1 rfl]

/-- The compression flag of a command whose payload is not compressed when it is written stays set if
it was set before. -/
theorem graphicsCommand_flag_stays :
    ¬∀ (compressWithZlib : List UInt8 → List UInt8)
        (decompressWithZlib : List UInt8 → Option (List UInt8)),
      (∀ data, decompressWithZlib (compressWithZlib data) = some data) →
      (∀ data, compressWithZlib data ≠ []) →
      ∀ (gc : GraphicsCommand) (payload : List UInt8) (first : GraphicsCommand)
        (later : List GraphicsCommand),
        readCommands (gc.writeWithPayloadTo compressWithZlib payload) =
          (first :: later).map some →
        (first.o = .zlib ↔ compresses compressWithZlib gc payload = true) := by
  intro exactly
  have set := exactly (fun data => 0x78 :: data) (fun data => some data.tail) (fun _ => rfl)
    (fun data => List.cons_ne_nil 0x78 data) { o := .zlib } [97]
    { o := .zlib, responseMessage := ['Y', 'Q', '=', '='] } [] (by decide)
  exact absurd (set.1 rfl) (by decide)

end Smelly.TuiGraphics
