/-
Module: Smelly.Proofs.TextTruncation
Purpose: When a text with escape codes is cut to the longest front that fits a number of columns.
Trusted boundary: none
-/
import Smelly.Core.TruncateText
import Smelly.Proofs.WidthAgreement

namespace Smelly

namespace Wcswidth

open Utf8 EscapeCodeParser StreamItem

variable {t : WidthTables}

/-- What the tables say of the emoji presentation bases: they are characters with columns. -/
def WidthTables.EmojiBases (t : WidthTables) : Prop :=
  ∀ ch, t.isEmojiPresentationBase ch = true → ch ≠ 0xfe0f ∧ ch ≠ 0xfe0e ∧ columns t ch ≠ 0

/-! ### The columns of a text -/

/-- The characters among the pieces. -/
def runesOf : List StreamItem → List UInt32
  | [] => []
  | .text ch :: items => ch.val :: runesOf items
  | .csi .. :: items => runesOf items
  | .string .. :: items => runesOf items
  | .twoChar _ :: items => runesOf items

/-- The counts behind the pieces. -/
def countsBehind (t : WidthTables) (g : WidthState) (items : List StreamItem) : WidthState :=
  (runesOf items).foldl (handleRune t) g

/-- The columns of the pieces. -/
def columnsOf (t : WidthTables) (items : List StreamItem) : Int :=
  (countsBehind t {} items).currentWidth

/-- The bytes of the pieces. -/
def bytesOf (items : List StreamItem) : Bytes := items.flatMap StreamItem.bytes

/-- A code that repeats the last character. -/
def IsRep : StreamItem → Prop
  | .csi _ _ intermediates final => intermediates = [] ∧ final = 0x62
  | _ => False

/-- A piece that is no character. -/
def IsCode : StreamItem → Prop
  | .text _ => False
  | _ => True

theorem runesOf_append (first second : List StreamItem) :
    runesOf (first ++ second) = runesOf first ++ runesOf second := by
  induction first with
  | nil => rfl
  | cons item first ih =>
    cases item with
    | text ch => exact congrArg (ch.val :: ·) ih
    | csi sevenBit params intermediates final => exact ih
    | string kind sevenBit payload terminator => exact ih
    | twoChar code => exact ih

theorem countsBehind_append (g : WidthState) (first second : List StreamItem) :
    countsBehind t g (first ++ second) = countsBehind t (countsBehind t g first) second := by
  rw [countsBehind, runesOf_append, List.foldl_append]
  rfl

theorem runesOf_codes {codes : List StreamItem} (areCodes : ∀ code ∈ codes, IsCode code) :
    runesOf codes = [] := by
  induction codes with
  | nil => rfl
  | cons code codes ih =>
    have first := areCodes code (List.mem_cons_self ..)
    have later := ih fun other mem => areCodes other (List.mem_cons_of_mem code mem)
    cases code with
    | text ch => exact first.elim
    | csi sevenBit params intermediates final => exact later
    | string kind sevenBit payload terminator => exact later
    | twoChar code => exact later

theorem countsBehind_codes {codes : List StreamItem} (areCodes : ∀ code ∈ codes, IsCode code)
    (g : WidthState) : countsBehind t g codes = g := by
  rw [countsBehind, runesOf_codes areCodes]
  rfl

/-! ### A CSI code that is no REP -/

/-- A number does not end in an intermediate byte. -/
theorem atoi_intermediate (front : Bytes) {b : UInt8} (range : 0x20 ≤ b ∧ b ≤ 0x2f) :
    atoi (front ++ [b]) = none := by
  have noDigit : ¬(0x30 ≤ b ∧ b ≤ 0x39) := fun digit =>
    absurd (UInt8.le_trans digit.1 range.2) (by decide)
  have noNumber : ∀ digits : Bytes, b ∈ digits ∨ digits = [] →
      ¬(digits ≠ [] ∧ digits.all (fun b => 0x30 ≤ b ∧ b ≤ 0x39) = true) := by
    rintro digits (mem | empty) ⟨some_, all⟩
    · exact noDigit (of_decide_eq_true (List.all_eq_true.1 all b mem))
    · exact some_ empty
  have tail : ∀ first rest, front ++ [b] = first :: rest → b ∈ rest ∨ rest = [] := by
    intro first rest same
    cases front with
    | nil =>
      cases same
      exact Or.inr rfl
    | cons other front =>
      obtain ⟨-, rfl⟩ := List.cons.inj same
      exact Or.inl (List.mem_append_right _ (List.mem_singleton_self b))
  unfold atoi
  split
  rename_i negative digits hmatch
  have last : b ∈ digits ∨ digits = [] := by
    split at hmatch
    · rename_i rest same
      cases hmatch
      exact tail _ _ same
    · rename_i rest same
      cases hmatch
      exact tail _ _ same
    · cases hmatch
      exact Or.inl (List.mem_append_right _ (List.mem_singleton_self b))
  rw [if_neg (noNumber digits last)]

/-- Only REP repeats a character. -/
theorem repeats_zero {sevenBit : Bool} {params intermediates : Bytes} {final : UInt8}
    (wf : (StreamItem.csi sevenBit params intermediates final).WellFormed)
    (other : ¬IsRep (.csi sevenBit params intermediates final)) :
    TruncateIterator.repeats (params ++ intermediates ++ [final]) = 0 := by
  rw [TruncateIterator.repeats, List.getLast?_concat, List.dropLast_concat]
  by_cases rep : (params ++ intermediates ++ [final]).length > 1 ∧ some final = some 0x62
  · rw [if_pos rep]
    have final_ : final = 0x62 := Option.some.inj rep.2
    obtain ⟨front, b, rfl⟩ : ∃ front b, intermediates = front ++ [b] := by
      rcases List.eq_nil_or_concat intermediates with none_ | ⟨front, b, same⟩
      · exact absurd ⟨none_, final_⟩ other
      · exact ⟨front, b, same.trans List.concat_eq_append⟩
    have range := wf.2.1 b (List.mem_append_right _ (List.mem_singleton_self b))
    rw [← List.append_assoc, atoi_intermediate _ range]
    rfl
  · rw [if_neg rep]

theorem handleCsi_other {sevenBit : Bool} {params intermediates : Bytes} {final : UInt8}
    (wf : (StreamItem.csi sevenBit params intermediates final).WellFormed)
    (other : ¬IsRep (.csi sevenBit params intermediates final)) (g : WidthState) :
    handleCsi t g (params ++ intermediates ++ [final]) = g := by
  have none_ := repeats_zero wf other
  rw [TruncateIterator.repeats] at none_
  rw [handleCsi]
  split
  · rename_i rep
    rw [if_pos rep] at none_
    split
    · rename_i n found
      rw [found] at none_
      have few : ¬ n > 0 := by
        simp only [Option.getD_some] at none_
        omega
      rw [if_neg few]
    · rfl
  · rfl

/-! ### Streams -/

/-- The front of a stream is one, unless a code of two characters ends it. -/
theorem WellFormedStream.front {front back : List StreamItem}
    (wf : WellFormedStream (front ++ back))
    (last : ∀ code, front.getLast? ≠ some (.twoChar code)) : WellFormedStream front := by
  induction front with
  | nil => trivial
  | cons item front ih =>
    obtain ⟨own, follows, later⟩ := wf
    cases front with
    | nil =>
      refine ⟨own, ?_, trivial⟩
      rintro code rfl
      exact absurd rfl (last code)
    | cons next front =>
      have last' : ∀ code, (next :: front).getLast? ≠ some (.twoChar code) := by
        intro code
        exact last code
      refine ⟨own, ?_, ih later last'⟩
      intro code same
      obtain ⟨other, rest, parts, ok⟩ := follows code same
      cases parts
      exact ⟨next, front, rfl, ok⟩

theorem WellFormedStream.back {front back : List StreamItem}
    (wf : WellFormedStream (front ++ back)) : WellFormedStream back := by
  induction front with
  | nil => exact wf
  | cons item front ih => exact ih wf.2.2

theorem counts_stream {items : List StreamItem} (wf : WellFormedStream items)
    (noRep : ∀ item ∈ items, ¬IsRep item) (g : WidthState) :
    (items.flatMap StreamItem.calls).foldl (widthEffect t) g = countsBehind t g items := by
  induction items generalizing g with
  | nil => rfl
  | cons item items ih =>
    have later := ih wf.2.2 fun other mem => noRep other (List.mem_cons_of_mem item mem)
    rw [List.flatMap_cons, List.foldl_append]
    cases item with
    | text ch => exact later _
    | csi sevenBit params intermediates final =>
      have same := handleCsi_other (t := t) wf.1 (noRep _ (List.mem_cons_self ..)) g
      have own : (StreamItem.csi sevenBit params intermediates final).calls.foldl
          (widthEffect t) g = g := same
      rw [own]
      exact later g
    | string kind sevenBit payload terminator =>
      have own : (StreamItem.string kind sevenBit payload terminator).calls.foldl
          (widthEffect t) g = g := by
        cases kind with
        | csi => exact absurd rfl wf.1.1
        | osc | dcs | pm | sos | apc => rfl
      rw [own]
      exact later g
    | twoChar code => exact later g

/-- The width of complete pieces. -/
theorem stringwidth_stream {items : List StreamItem} (wf : WellFormedStream items)
    (noRep : ∀ item ∈ items, ¬IsRep item) : stringwidth t (bytesOf items) = columnsOf t items := by
  obtain ⟨q, parsed, -⟩ := parse_stream (widthCallbacks_acts t) wf
    (.inl ⟨rfl, rfl, rfl, rfl⟩ : Ready {} items) {}
  rw [counts_stream wf noRep] at parsed
  exact congrArg (fun it => it.counts.currentWidth)
    (@parseBytes_of_parse t {} (bytesOf items) q _ parsed)

/-! ### The iterator -/

/-- What the handlers count for a piece. -/
def advance : StreamItem → Nat
  | .text ch => (String.utf8EncodeChar ch).length
  | .csi _ params intermediates final => (params ++ intermediates ++ [final]).length + 2
  | .string _ _ payload _ => (utf8 (collapse payload)).length + 4
  | .twoChar _ => 0

/-- What the handlers count for pieces. -/
def advances (items : List StreamItem) : Nat := (items.map advance).sum

theorem advances_append (first second : List StreamItem) :
    advances (first ++ second) = advances first + advances second := by
  rw [advances, List.map_append, List.sum_append]
  rfl

theorem runeLength_char (ch : Char) : runeLength ch.val = (String.utf8EncodeChar ch).length := by
  have small : ch.val ≤ 0x10ffff := by
    rw [UInt32.le_iff_toNat_le]
    have scalar := ch.valid
    have number : (0x10ffff : UInt32).toNat = 0x10ffff := rfl
    omega
  have lt_iff : ∀ n : UInt32, ch.val < n ↔ ch.val.toNat < n.toNat := fun n => UInt32.lt_iff_toNat_lt
  have numbers : (0x80 : UInt32).toNat = 0x80 ∧ (0x800 : UInt32).toNat = 0x800 ∧
      (0x10000 : UInt32).toNat = 0x10000 := ⟨rfl, rfl, rfl⟩
  obtain ⟨one, two, three⟩ := numbers
  unfold runeLength String.utf8EncodeChar
  simp only [lt_iff, one, two, three, if_pos small]
  by_cases short : ch.val.toNat ≤ 0x7f
  · rw [if_pos (Nat.lt_succ_of_le short), if_pos short]
    rfl
  · rw [if_neg (by omega), if_neg short]
    by_cases middle : ch.val.toNat ≤ 0x7ff
    · rw [if_pos (Nat.lt_succ_of_le middle), if_pos middle]
      rfl
    · rw [if_neg (by omega), if_neg middle]
      by_cases long : ch.val.toNat ≤ 0xffff
      · rw [if_pos (Nat.lt_succ_of_le long), if_pos long]
        rfl
      · rw [if_neg (by omega), if_neg long]
        rfl

/-- The iterator behind a code. -/
theorem call_code {code : StreamItem} (isCode : IsCode code) (wf : code.WellFormed)
    (noRep : ¬IsRep code) (s : TruncateIterator) :
    code.call (TruncateIterator.callbacks t) s =
      ({ s with pos := s.pos + advance code }, none) := by
  cases code with
  | text ch => exact isCode.elim
  | csi sevenBit params intermediates final =>
    have none_ := repeats_zero wf noRep
    change TruncateIterator.handleCsi t (params ++ intermediates ++ [final]) s = _
    rw [TruncateIterator.handleCsi, none_]
    rfl
  | string kind sevenBit payload terminator =>
    cases kind with
    | csi => exact absurd rfl wf.1
    | osc | dcs | pm | sos | apc => rfl
  | twoChar code => rfl

/-- The iterator behind a character that fits. -/
theorem call_fits {ch : Char} {s : TruncateIterator} (within : s.limitExceededAt = none)
    (fits : (handleRune t s.w ch.val).currentWidth ≤ s.limit) :
    (StreamItem.text ch).call (TruncateIterator.callbacks t) s =
      ({ s with w := handleRune t s.w ch.val, pos := s.pos + advance (.text ch) }, none) := by
  change TruncateIterator.handleRune t ch.val s = _
  have few : ¬ (handleRune t s.w ch.val).currentWidth > s.limit := Int.not_lt.2 fits
  unfold TruncateIterator.handleRune
  simp only [within, if_neg few]
  rw [advance, runeLength_char]

/-- The iterator behind the first character that does not fit. -/
theorem call_overruns {ch : Char} {s : TruncateIterator} (within : s.limitExceededAt = none)
    (wide : s.limit < (handleRune t s.w ch.val).currentWidth) :
    (StreamItem.text ch).call (TruncateIterator.callbacks t) s =
      ({ s with
          w := handleRune t s.w ch.val
          pos := s.pos + advance (.text ch)
          limitExceededAt := some { pos := s.pos, width := s.w.currentWidth } }, none) := by
  change TruncateIterator.handleRune t ch.val s = _
  unfold TruncateIterator.handleRune
  simp only [within, if_pos wide]
  rw [advance, runeLength_char]

/-- The next character ends the parsing. -/
theorem call_stops {ch : Char} {s : TruncateIterator} {err : TruncateError}
    (exceeded : s.limitExceededAt = some err) :
    (StreamItem.text ch).call (TruncateIterator.callbacks t) s =
      ({ s with w := handleRune t s.w ch.val },
        some (if (handleRune t s.w ch.val).currentWidth ≤ s.limit then
          { pos := s.pos + advance (.text ch)
            width := (handleRune t s.w ch.val).currentWidth } else err)) := by
  change TruncateIterator.handleRune t ch.val s = _
  unfold TruncateIterator.handleRune
  simp only [exceeded]
  rw [runeLength_char]
  split
  · rfl
  · rfl

/-! ### The pieces in front of the cut -/

/-- The pieces fit behind these counts, as every front of them does. -/
def FitsBehind (t : WidthTables) (limit : Int) (g : WidthState) (items : List StreamItem) : Prop :=
  ∀ front, front <+: items → (countsBehind t g front).currentWidth ≤ limit

theorem FitsBehind.tail {limit : Int} {g : WidthState} {item : StreamItem} {items : List StreamItem}
    (h : FitsBehind t limit g (item :: items)) :
    FitsBehind t limit (countsBehind t g [item]) items := by
  intro front isPrefix
  have whole := h (item :: front) (List.cons_prefix_cons.2 ⟨rfl, isPrefix⟩)
  rwa [← List.singleton_append, countsBehind_append] at whole

theorem countsBehind_code {code : StreamItem} (isCode : IsCode code) (g : WidthState) :
    countsBehind t g [code] = g := by
  apply countsBehind_codes
  intro other mem
  rw [List.mem_singleton.1 mem]
  exact isCode

theorem isCode_or_text (item : StreamItem) : IsCode item ∨ ∃ ch, item = .text ch := by
  cases item with
  | text ch => exact Or.inr ⟨ch, rfl⟩
  | csi sevenBit params intermediates final => exact Or.inl trivial
  | string kind sevenBit payload terminator => exact Or.inl trivial
  | twoChar code => exact Or.inl trivial

/-- Pieces that fit are counted. -/
theorem parse_fits {front back : List StreamItem} (wf : WellFormedStream (front ++ back))
    (noRep : ∀ item ∈ front, ¬IsRep item) {p : EscapeCodeParser} (ready : Ready p (front ++ back))
    {s : TruncateIterator} (within : s.limitExceededAt = none)
    (fits : FitsBehind t s.limit s.w front) :
    ∃ q, p.parse (TruncateIterator.callbacks t) (bytesOf front) s =
        (q, { s with w := countsBehind t s.w front, pos := s.pos + advances front }, none) ∧
      Ready q back := by
  induction front generalizing p s with
  | nil => exact ⟨p, rfl, ready⟩
  | cons item front ih =>
    have called : item.call (TruncateIterator.callbacks t) s =
        ({ s with w := countsBehind t s.w [item], pos := s.pos + advance item }, none) := by
      rcases isCode_or_text item with isCode | ⟨ch, rfl⟩
      · rw [countsBehind_code isCode]
        exact call_code isCode wf.1 (noRep item (List.mem_cons_self ..)) s
      · exact call_fits within (fits [.text ch] ⟨front, rfl⟩)
    obtain ⟨mid, parsed, midReady⟩ := parse_next wf ready called
    obtain ⟨q, later, qReady⟩ := @ih wf.2.2
      (fun other mem => noRep other (List.mem_cons_of_mem item mem)) mid midReady
      { s with w := countsBehind t s.w [item], pos := s.pos + advance item } within fits.tail
    refine ⟨q, ?_, qReady⟩
    rw [bytesOf, List.flatMap_cons, parse_append parsed]
    rw [← countsBehind_append, Nat.add_assoc] at later
    exact later

/-- Codes are counted, whether the limit is exceeded or not. -/
theorem parse_codes {codes back : List StreamItem} (wf : WellFormedStream (codes ++ back))
    (areCodes : ∀ code ∈ codes, IsCode code) (noRep : ∀ item ∈ codes, ¬IsRep item)
    {p : EscapeCodeParser} (ready : Ready p (codes ++ back)) (s : TruncateIterator) :
    ∃ q, p.parse (TruncateIterator.callbacks t) (bytesOf codes) s =
        (q, { s with pos := s.pos + advances codes }, none) ∧ Ready q back := by
  induction codes generalizing p s with
  | nil => exact ⟨p, rfl, ready⟩
  | cons code codes ih =>
    have called := call_code (t := t) (areCodes code (List.mem_cons_self ..)) wf.1
      (noRep code (List.mem_cons_self ..)) s
    obtain ⟨mid, parsed, midReady⟩ := parse_next wf ready called
    obtain ⟨q, later, qReady⟩ := @ih wf.2.2
      (fun other mem => areCodes other (List.mem_cons_of_mem code mem))
      (fun other mem => noRep other (List.mem_cons_of_mem code mem)) mid midReady
      { s with pos := s.pos + advance code }
    refine ⟨q, ?_, qReady⟩
    rw [bytesOf, List.flatMap_cons, parse_append parsed]
    rw [Nat.add_assoc] at later
    exact later

/-- A text fits, or a first character makes it too wide. -/
theorem fits_or_overruns (t : WidthTables) (limit : Int) {g : WidthState}
    (start : g.currentWidth ≤ limit) (items : List StreamItem) :
    FitsBehind t limit g items ∨ ∃ front ch back, items = front ++ .text ch :: back ∧
      FitsBehind t limit g front ∧
      limit < (handleRune t (countsBehind t g front) ch.val).currentWidth := by
  induction items generalizing g with
  | nil =>
    left
    intro front isPrefix
    rw [List.prefix_nil.1 isPrefix]
    exact start
  | cons item items ih =>
    by_cases next : (countsBehind t g [item]).currentWidth ≤ limit
    · have cons : ∀ front, FitsBehind t limit (countsBehind t g [item]) front →
          FitsBehind t limit g (item :: front) := by
        intro front fits pre isPrefix
        cases pre with
        | nil => exact start
        | cons other pre =>
          obtain ⟨rfl, rest⟩ := List.cons_prefix_cons.1 isPrefix
          rw [← List.singleton_append, countsBehind_append]
          exact fits pre rest
      rcases ih next with fits | ⟨front, ch, back, rfl, fits, wide⟩
      · exact Or.inl (cons items fits)
      · right
        rw [← countsBehind_append] at wide
        exact ⟨item :: front, ch, back, rfl, cons front fits, wide⟩
    · right
      rcases isCode_or_text item with isCode | ⟨ch, rfl⟩
      · rw [countsBehind_code isCode] at next
        exact absurd start next
      · refine ⟨[], ch, items, rfl, ?_, Int.not_le.1 next⟩
        intro front isPrefix
        rw [List.prefix_nil.1 isPrefix]
        exact start

/-- Behind a piece there are codes alone, or codes and a character. -/
theorem codes_or_text (items : List StreamItem) :
    (∀ code ∈ items, IsCode code) ∨ ∃ codes ch back, items = codes ++ .text ch :: back ∧
      ∀ code ∈ codes, IsCode code := by
  induction items with
  | nil => exact Or.inl fun _ mem => nomatch mem
  | cons item items ih =>
    rcases isCode_or_text item with isCode | ⟨ch, rfl⟩
    · have cons : ∀ codes, (∀ code ∈ codes, IsCode code) → ∀ code ∈ item :: codes, IsCode code :=
        fun codes areCodes => List.forall_mem_cons.2 ⟨isCode, areCodes⟩
      rcases ih with areCodes | ⟨codes, ch, back, rfl, areCodes⟩
      · exact Or.inl (cons items areCodes)
      · exact Or.inr ⟨item :: codes, ch, back, rfl, cons codes areCodes⟩
    · exact Or.inr ⟨[], ch, items, rfl, fun _ mem => nomatch mem⟩

/-! ### The cut -/

/-- The iterator behind the first character that does not fit, and the codes behind it. -/
theorem parse_overrun {limit : Int} {front codes back : List StreamItem} {ch : Char}
    (wf : WellFormedStream (front ++ .text ch :: (codes ++ back)))
    (noRep : ∀ item ∈ front ++ .text ch :: (codes ++ back), ¬IsRep item)
    (areCodes : ∀ code ∈ codes, IsCode code) (fits : FitsBehind t limit {} front)
    (wide : limit < (handleRune t (countsBehind t {} front) ch.val).currentWidth) :
    ∃ q, ({} : EscapeCodeParser).parse (TruncateIterator.callbacks t)
          (bytesOf (front ++ .text ch :: codes)) { limit := limit } =
        (q, { w := handleRune t (countsBehind t {} front) ch.val
              pos := advances (front ++ .text ch :: codes)
              limit := limit
              limitExceededAt := some { pos := advances front, width := columnsOf t front } },
          none) ∧ Ready q back := by
  have idle : Ready {} (front ++ .text ch :: (codes ++ back)) := Or.inl ⟨rfl, rfl, rfl, rfl⟩
  obtain ⟨p, counted, ready⟩ := @parse_fits t front _ wf
    (fun item mem => noRep item (List.mem_append_left _ mem)) {} idle { limit := limit } rfl fits
  have wf' := wf.back
  have exceeds := @call_overruns t ch
    { limit := limit, w := countsBehind t {} front, pos := 0 + advances front } rfl wide
  obtain ⟨mid, overran, midReady⟩ := parse_next wf' ready exceeds
  obtain ⟨q, parsed, qReady⟩ := @parse_codes t codes back wf'.2.2 areCodes
    (fun item mem => noRep item (List.mem_append_right _ (List.mem_cons_of_mem _
      (List.mem_append_left _ mem)))) mid midReady
    { limit := limit
      w := handleRune t (countsBehind t {} front) ch.val
      pos := 0 + advances front + advance (.text ch)
      limitExceededAt := some { pos := 0 + advances front, width := columnsOf t front } }
  refine ⟨q, ?_, qReady⟩
  rw [bytesOf, List.flatMap_append]
  refine (parse_append counted).trans ((parse_append overran).trans ?_)
  have pos : 0 + advances front + advance (.text ch) + advances codes =
      advances (front ++ .text ch :: codes) := by
    rw [Nat.zero_add, Nat.add_assoc, advances_append]
    rfl
  simp only [pos] at parsed
  simp only [Nat.zero_add] at parsed ⊢
  exact parsed

/-- With codes alone behind it, the text is cut in front of that character. -/
theorem parse_cutBeforeCodes {limit : Int} {front codes : List StreamItem} {ch : Char}
    (wf : WellFormedStream (front ++ .text ch :: codes))
    (noRep : ∀ item ∈ front ++ .text ch :: codes, ¬IsRep item)
    (areCodes : ∀ code ∈ codes, IsCode code) (fits : FitsBehind t limit {} front)
    (wide : limit < (handleRune t (countsBehind t {} front) ch.val).currentWidth) :
    ({ limit := limit } : TruncateIterator).parse t (bytesOf (front ++ .text ch :: codes)) =
      (advances front, columnsOf t front) := by
  rw [← List.append_nil codes] at wf noRep
  obtain ⟨q, parsed, -⟩ := parse_overrun wf noRep areCodes fits wide
  rw [TruncateIterator.parse, parsed]

/-- The next character decides whether the text is cut behind it or in front of the one that does
not fit. -/
theorem parse_cutAtText {limit : Int} {front codes rest : List StreamItem} {ch next : Char}
    (wf : WellFormedStream (front ++ .text ch :: (codes ++ .text next :: rest)))
    (noRep : ∀ item ∈ front ++ .text ch :: (codes ++ .text next :: rest), ¬IsRep item)
    (areCodes : ∀ code ∈ codes, IsCode code) (fits : FitsBehind t limit {} front)
    (wide : limit < (handleRune t (countsBehind t {} front) ch.val).currentWidth) :
    ({ limit := limit } : TruncateIterator).parse t
        (bytesOf (front ++ .text ch :: (codes ++ .text next :: rest))) =
      if columnsOf t (front ++ .text ch :: (codes ++ [.text next])) ≤ limit then
        (advances (front ++ .text ch :: (codes ++ [.text next])),
          columnsOf t (front ++ .text ch :: (codes ++ [.text next])))
      else (advances front, columnsOf t front) := by
  obtain ⟨q, parsed, ready⟩ := parse_overrun wf noRep areCodes fits wide
  have stream : WellFormedStream (.text next :: rest) := by
    have behind : WellFormedStream (codes ++ .text next :: rest) := wf.back.2.2
    exact behind.back
  have counts : handleRune t (handleRune t (countsBehind t {} front) ch.val) next.val =
      countsBehind t {} (front ++ .text ch :: (codes ++ [.text next])) := by
    rw [countsBehind_append, ← List.singleton_append, countsBehind_append, countsBehind_append,
      countsBehind_codes areCodes]
    rfl
  obtain ⟨last, stopped⟩ := parse_next_error stream ready (@call_stops t next
    { w := handleRune t (countsBehind t {} front) ch.val
      pos := advances (front ++ .text ch :: codes)
      limit := limit
      limitExceededAt := some { pos := advances front, width := columnsOf t front } } _ rfl)
  have bytes : bytesOf (front ++ .text ch :: (codes ++ .text next :: rest)) =
      bytesOf (front ++ .text ch :: codes) ++ ((StreamItem.text next).bytes ++ bytesOf rest) := by
    simp [bytesOf]
  have whole : advances (front ++ .text ch :: (codes ++ [.text next])) =
      advances (front ++ .text ch :: codes) + advance (.text next) := by
    have split : front ++ .text ch :: (codes ++ [.text next]) =
        (front ++ .text ch :: codes) ++ [.text next] := by
      rw [List.append_assoc, List.cons_append]
    rw [split, advances_append]
    rfl
  rw [TruncateIterator.parse, bytes, parse_append parsed, parse_append_error stopped]
  obtain ⟨decided, hdecided⟩ : ∃ decided, decided =
      columnsOf t (front ++ .text ch :: (codes ++ [.text next])) := ⟨_, rfl⟩
  have width : (countsBehind t {} (front ++ .text ch :: (codes ++ [.text next]))).currentWidth =
      decided := hdecided.symm
  simp only [counts, width]
  rw [← hdecided, whole]
  split
  · rfl
  · rfl

/-- A text that fits is not cut. -/
theorem parse_whole {limit : Int} {items : List StreamItem} (wf : WellFormedStream items)
    (noRep : ∀ item ∈ items, ¬IsRep item) (fits : FitsBehind t limit {} items) :
    ({ limit := limit } : TruncateIterator).parse t (bytesOf items) =
      ((bytesOf items).length, columnsOf t items) := by
  rw [← List.append_nil items] at wf
  have idle : Ready {} (items ++ []) := Or.inl ⟨rfl, rfl, rfl, rfl⟩
  obtain ⟨p, counted, -⟩ := @parse_fits t items [] wf noRep {} idle { limit := limit } rfl fits
  rw [TruncateIterator.parse, counted]
  rfl

/-! ### Marks and bases -/

/-- Behind a mark: no selector takes a column back, and no flag is open. -/
structure AfterMark (t : WidthTables) (least : Int) (g : WidthState) : Prop where
  state : g.state = .normal
  prevWidth : 0 ≤ g.prevWidth
  prevCh : t.isEmojiPresentationBase g.prevCh = false
  currentWidth : least ≤ g.currentWidth

/-- Every mark leaves such counts. -/
theorem handleRune_mark (standard : t.Standard) (bases : t.EmojiBases) {g : WidthState}
    (nonneg : 0 ≤ g.prevWidth) {ch : Char} (mark : IsMark t ch) :
    AfterMark t (handleRune t g ch.val).currentWidth (handleRune t g ch.val) := by
  have noBase : t.isEmojiPresentationBase ch.val = false := by
    cases based : t.isEmojiPresentationBase ch.val with
    | false => rfl
    | true =>
      obtain ⟨emoji, text, wide⟩ := bases ch.val based
      rcases mark with same | same | same
      · exact absurd same emoji
      · exact absurd same text
      · exact absurd same wide
  rw [handleRune_between]
  split
  · exact ⟨rfl, nonneg, noBase, Int.le_refl _⟩
  · rw [runeNormal_text rfl]
    split
    · split
      · exact ⟨rfl, show (0 : Int) ≤ 2 by decide, noBase, Int.le_refl _⟩
      · exact ⟨rfl, Int.le_refl 0, noBase, Int.le_refl _⟩
    · split
      · split
        · exact ⟨rfl, show (0 : Int) ≤ 1 by decide, noBase, Int.le_refl _⟩
        · exact ⟨rfl, Int.le_refl 0, noBase, Int.le_refl _⟩
      · rename_i emoji text
        have own : columns t ch.val = 0 := (mark.resolve_left emoji).resolve_left text
        have noFlag : ¬isFlagCodepoint ch.val = true := by
          intro flag
          rw [columns, standard.flag ch.val flag] at own
          exact absurd own (by decide)
        refine ⟨if_neg noFlag, ?_, noBase, Int.le_refl _⟩
        split
        · exact nonneg
        · exact columns_nonneg t ch.val

/-- The character behind a mark as the case `normal` counts it. -/
theorem AfterMark.handleRune_eq {least : Int} {g : WidthState} (h : AfterMark t least g)
    (ch : UInt32) :
    handleRune t g ch =
      { runeNormal t { g with runeCount := g.runeCount + 1, state := .normal } ch with
        prevCh := ch } := by
  have noFlag : ¬(g.state = .flagPairStarted ∧ isFlagPair g.prevCh ch = true) := by
    rw [h.state]
    exact fun pair => nomatch pair.1
  rw [handleRune_between, if_neg noFlag]

/-- Marks take no columns back. -/
theorem AfterMark.mark (standard : t.Standard) (bases : t.EmojiBases) {least : Int}
    {g : WidthState} (h : AfterMark t least g) {ch : Char} (mark : IsMark t ch) :
    AfterMark t least (handleRune t g ch.val) := by
  obtain ⟨state, prevWidth, prevCh, -⟩ := handleRune_mark standard bases h.prevWidth mark
  refine ⟨state, prevWidth, prevCh, ?_⟩
  have noBase : ¬t.isEmojiPresentationBase g.prevCh = true := by
    rw [h.prevCh]
    exact Bool.false_ne_true
  have nonneg := h.prevWidth
  have own := columns_nonneg t ch.val
  have start := h.currentWidth
  rw [h.handleRune_eq, runeNormal_text rfl]
  split
  · rw [if_neg fun widens => noBase widens.1]
    exact start
  · split
    · rw [if_neg fun narrows => noBase narrows.1]
      exact start
    · apply Int.le_trans start
      apply Int.le_add_of_nonneg_right
      split
      · exact nonneg
      · exact own

/-- A base adds a column that no selector takes back. -/
theorem AfterMark.base {least : Int} {g : WidthState} (h : AfterMark t least g) {ch : Char}
    (base : ¬IsMark t ch) : Gains (least + 1) (handleRune t g ch.val) := by
  rw [IsMark, not_or, not_or] at base
  obtain ⟨emoji, text, wide⟩ := base
  have start := h.currentWidth
  have own := columns_nonneg t ch.val
  have known : ¬t.wcwidthStd ch.val = -1 := by
    intro none_
    exact wide (if_pos (Or.inl none_))
  rw [h.handleRune_eq, runeNormal_text rfl, if_neg emoji, if_neg text, if_neg known]
  refine ⟨own, ?_⟩
  show least + 1 ≤ g.currentWidth + columns t ch.val - if columns t ch.val = 2 then 1 else 0
  split
  · omega
  · omega

theorem foldl_gains {least : Int} {g : WidthState} (h : Gains least g) (runes : List UInt32) :
    Gains least (runes.foldl (handleRune t) g) := by
  induction runes generalizing g with
  | nil => exact h
  | cons ch runes ih => exact ih (handleRune_gains h ch)

theorem countsBehind_gains {least : Int} {g : WidthState} (h : Gains least g)
    (items : List StreamItem) : Gains least (countsBehind t g items) :=
  foldl_gains h (runesOf items)

theorem prevWidth_nonneg (items : List StreamItem) : 0 ≤ (countsBehind t {} items).prevWidth := by
  have start : Gains 0 ({} : WidthState) := ⟨Int.le_refl 0, by decide⟩
  exact (countsBehind_gains start items).prevWidth

/-- Marks and codes keep the columns. -/
theorem AfterMark.marks (standard : t.Standard) (bases : t.EmojiBases) {least : Int}
    {g : WidthState} (h : AfterMark t least g) {items : List StreamItem}
    (marks : ∀ ch, .text ch ∈ items → IsMark t ch) :
    AfterMark t least (countsBehind t g items) := by
  induction items generalizing g with
  | nil => exact h
  | cons item items ih =>
    have later : ∀ ch, .text ch ∈ items → IsMark t ch :=
      fun ch mem => marks ch (List.mem_cons_of_mem _ mem)
    rw [← List.singleton_append, countsBehind_append]
    rcases isCode_or_text item with isCode | ⟨ch, rfl⟩
    · rw [countsBehind_code isCode]
      exact ih h later
    · exact ih (h.mark standard bases (marks ch (List.mem_cons_self ..))) later

/-- Behind a mark, the next base makes the text wider, whatever follows it. -/
theorem AfterMark.wider (standard : t.Standard) (bases : t.EmojiBases) {least : Int}
    {g : WidthState} (h : AfterMark t least g) {others : List StreamItem}
    (marks : ∀ ch, .text ch ∈ others → IsMark t ch) {ch : Char} (base : ¬IsMark t ch)
    (behind : List StreamItem) :
    least < (countsBehind t g (others ++ .text ch :: behind)).currentWidth := by
  have counted := countsBehind_gains (t := t) ((h.marks standard bases marks).base base) behind
  have least_ := counted.currentWidth
  rw [countsBehind_append]
  have same : countsBehind t (countsBehind t g others) (.text ch :: behind) =
      countsBehind t (handleRune t (countsBehind t g others) ch.val) behind := rfl
  rw [same]
  split at least_
  · omega
  · omega

/-- A character takes at most one column back, and only the text presentation selector does. -/
theorem handleRune_narrower {g : WidthState} (nonneg : 0 ≤ g.prevWidth) {ch : UInt32}
    (narrower : (handleRune t g ch).currentWidth < g.currentWidth) :
    ch = 0xfe0e ∧ g.currentWidth - 1 ≤ (handleRune t g ch).currentWidth := by
  have own := columns_nonneg t ch
  rw [handleRune_between] at narrower ⊢
  split at narrower
  · exact absurd narrower (Int.lt_irrefl _)
  · rename_i noFlag
    rw [if_neg noFlag]
    rw [runeNormal_text rfl] at narrower ⊢
    by_cases emoji : ch = 0xfe0f
    · rw [if_pos emoji] at narrower
      split at narrower
      · exact absurd narrower (Int.not_lt.2 (Int.le_add_of_nonneg_right (by decide)))
      · exact absurd narrower (Int.lt_irrefl _)
    · by_cases text : ch = 0xfe0e
      · refine ⟨text, ?_⟩
        rw [if_neg emoji, if_pos text]
        split
        · exact Int.le_refl _
        · exact Int.sub_le_self _ (by decide)
      · rw [if_neg emoji, if_neg text] at narrower
        refine absurd narrower (Int.not_lt.2 (Int.le_add_of_nonneg_right ?_))
        split
        · exact nonneg
        · exact own

/-- Behind a character that does not fit, and one that does not bring the text back to the limit,
the text stays too wide. -/
theorem wider_before (standard : t.Standard) (bases : t.EmojiBases) {limit : Int}
    {front back others behind : List StreamItem} {ch base : Char} {selectors : List Char}
    (wide : limit < (handleRune t (countsBehind t {} front) ch.val).currentWidth)
    (stays : ∀ codes next rest, back = codes ++ .text next :: rest →
      (∀ code ∈ codes, IsCode code) →
        limit <
          (handleRune t (handleRune t (countsBehind t {} front) ch.val) next.val).currentWidth)
    (same : .text ch :: back = others ++ .text base :: (selectors.map .text ++ behind))
    (marks : ∀ ch, .text ch ∈ others → IsMark t ch) (isBase : ¬IsMark t base)
    (areMarks : ∀ ch ∈ selectors, IsMark t ch) :
    limit < columnsOf t (front ++ others ++ .text base :: selectors.map .text) := by
  have nonneg := prevWidth_nonneg (t := t) front
  rw [columnsOf, List.append_assoc, countsBehind_append]
  obtain ⟨g, hg⟩ : ∃ g, g = countsBehind t {} front := ⟨_, rfl⟩
  rw [← hg] at wide stays nonneg ⊢
  cases others with
  | cons other others =>
    obtain ⟨rfl, -⟩ := List.cons.inj same
    have counted := handleRune_mark standard bases nonneg (marks ch (List.mem_cons_self ..))
    exact Int.lt_trans wide (counted.wider standard bases
      (fun ch mem => marks ch (List.mem_cons_of_mem _ mem)) isBase (selectors.map .text))
  | nil =>
    obtain ⟨hch, rfl⟩ := List.cons.inj same
    cases hch
    cases selectors with
    | nil => exact wide
    | cons next selectors =>
      have wide' := stays [] next (selectors.map .text ++ behind) rfl fun _ mem => nomatch mem
      have nonneg' : 0 ≤ (handleRune t g ch.val).prevWidth := by
        rw [hg]
        have counted := prevWidth_nonneg (t := t) (front ++ [.text ch])
        rwa [countsBehind_append] at counted
      have counted := handleRune_mark standard bases nonneg' (areMarks next (List.mem_cons_self ..))
      have later : ∀ ch, StreamItem.text ch ∈ selectors.map .text → IsMark t ch := by
        intro ch mem
        obtain ⟨other, mem, same⟩ := List.mem_map.1 mem
        cases same
        exact areMarks _ (List.mem_cons_of_mem _ mem)
      have kept := counted.marks standard bases later
      exact Int.lt_of_lt_of_le wide' kept.currentWidth

/-- Behind the selector that brought the text back to the limit, the next base makes it too wide. -/
theorem wider_behind (standard : t.Standard) (bases : t.EmojiBases) {limit : Int}
    {front codes others behind : List StreamItem} {ch next base : Char}
    (wide : limit < (handleRune t (countsBehind t {} front) ch.val).currentWidth)
    (areCodes : ∀ code ∈ codes, IsCode code)
    (narrow : columnsOf t (front ++ .text ch :: (codes ++ [.text next])) ≤ limit)
    (marks : ∀ ch, .text ch ∈ others → IsMark t ch) (isBase : ¬IsMark t base) :
    limit < columnsOf t (front ++ .text ch :: (codes ++ [.text next]) ++ others ++
      .text base :: behind) := by
  obtain ⟨g, hg⟩ : ∃ g, g = countsBehind t {} (front ++ .text ch :: codes) := ⟨_, rfl⟩
  have overrun : g = handleRune t (countsBehind t {} front) ch.val := by
    rw [hg, countsBehind_append]
    exact countsBehind_codes areCodes _
  have split : front ++ .text ch :: (codes ++ [.text next]) =
      (front ++ .text ch :: codes) ++ [.text next] := by
    rw [List.append_assoc, List.cons_append]
  have counts : countsBehind t {} (front ++ .text ch :: (codes ++ [.text next])) =
      handleRune t g next.val := by
    rw [split, countsBehind_append, ← hg]
    rfl
  have nonneg : 0 ≤ g.prevWidth := by
    rw [hg]
    exact prevWidth_nonneg _
  rw [columnsOf, counts] at narrow
  rw [← overrun] at wide
  obtain ⟨selector, atMost⟩ := handleRune_narrower nonneg (Int.lt_of_le_of_lt narrow wide)
  have counted := handleRune_mark standard bases nonneg (Or.inr (Or.inl selector))
  have wider := counted.wider standard bases marks isBase behind
  rw [columnsOf, List.append_assoc, countsBehind_append, counts]
  omega

/-! ### Exact codes -/

/-- The handlers count the bytes of the piece. -/
def Exact : StreamItem → Prop
  | .text _ => True
  | .csi .. => True
  | .string _ _ payload terminator => terminator ≠ .bel ∧ collapse payload = payload
  | .twoChar _ => False

theorem introBytes_length (kind : CodeKind) (sevenBit : Bool) :
    (introBytes kind sevenBit).length = 2 := by
  cases kind <;> cases sevenBit <;> rfl

theorem advance_exact {item : StreamItem} (exact_ : Exact item) :
    advance item = item.bytes.length := by
  cases item with
  | text ch => rfl
  | csi sevenBit params intermediates final =>
    have parts : (introBytes .csi sevenBit ++ (params ++ intermediates ++ [final])).length =
        (introBytes .csi sevenBit).length + (params ++ intermediates ++ [final]).length :=
      List.length_append
    rw [introBytes_length] at parts
    exact (Nat.add_comm _ 2).trans parts.symm
  | string kind sevenBit payload terminator =>
    obtain ⟨noBel, same⟩ := exact_
    have two : terminator.bytes.length = 2 := by
      cases terminator with
      | st => rfl
      | c1St => rfl
      | bel => exact absurd rfl noBel
    rw [advance, StreamItem.bytes, List.length_append, List.length_append, introBytes_length, same]
    omega
  | twoChar code => exact exact_.elim

theorem advances_exact {items : List StreamItem} (exact_ : ∀ item ∈ items, Exact item) :
    advances items = (bytesOf items).length := by
  induction items with
  | nil => rfl
  | cons item items ih =>
    have later := ih fun other mem => exact_ other (List.mem_cons_of_mem item mem)
    rw [bytesOf, List.flatMap_cons, List.length_append,
      ← advance_exact (exact_ item (List.mem_cons_self ..))]
    exact congrArg (advance item + ·) later

/-- Exact pieces are a stream of their own. -/
theorem WellFormedStream.exactFront {front back : List StreamItem}
    (wf : WellFormedStream (front ++ back)) (exact_ : ∀ item ∈ front, Exact item) :
    WellFormedStream front := by
  apply wf.front
  intro code last
  exact exact_ _ (List.mem_of_getLast? last)

/-! ### The longest front that fits -/

/-- The codes in front of the cut are exact.  The cut is in front of the first character that does
not fit, or behind the next character, where that one brings the text back to the limit. -/
def CutExact (t : WidthTables) (items : List StreamItem) (limit : Int) : Prop :=
  ∀ front ch back, items = front ++ .text ch :: back → FitsBehind t limit {} front →
    limit < columnsOf t (front ++ [.text ch]) →
      (∀ item ∈ front, Exact item) ∧
        ∀ codes next rest, back = codes ++ .text next :: rest → (∀ code ∈ codes, IsCode code) →
          columnsOf t (front ++ .text ch :: (codes ++ [.text next])) ≤ limit →
            ∀ item ∈ codes, Exact item

theorem cutExact_of_exact {items : List StreamItem} (exact_ : ∀ item ∈ items, Exact item)
    (limit : Int) : CutExact t items limit := by
  rintro front ch back rfl - -
  constructor
  · intro item mem
    exact exact_ item (List.mem_append_left _ mem)
  · rintro codes next rest rfl - - item mem
    apply exact_ item
    exact List.mem_append_right _ (List.mem_cons_of_mem _ (List.mem_append_left _ mem))

/-- The text is cut between two pieces, the width of its front is returned and fits, and the front
with the next base and its selectors is too wide. -/
def Truncates (t : WidthTables) (items : List StreamItem) (limit : Int) : Prop :=
  ∃ front back, items = front ++ back ∧
    truncateToVisualLengthWithWidth t (bytesOf items) limit =
      some (bytesOf front, stringwidth t (bytesOf front)) ∧
    stringwidth t (bytesOf front) ≤ limit ∧
    ∀ others base (selectors : List Char) behind,
      back = others ++ .text base :: (selectors.map .text ++ behind) →
        (∀ ch, .text ch ∈ others → IsMark t ch) → ¬IsMark t base →
        (∀ ch ∈ selectors, IsMark t ch) →
          limit < stringwidth t (bytesOf (front ++ others ++ .text base :: selectors.map .text))

theorem truncate_of_parse {limit : Int} (positive : 1 ≤ limit) {front back : List StreamItem}
    {width : Int} (parsed : ({ limit := limit } : TruncateIterator).parse t
      (bytesOf (front ++ back)) = ((bytesOf front).length, width)) :
    truncateToVisualLengthWithWidth t (bytesOf (front ++ back)) limit =
      some (bytesOf front, width) := by
  have split : bytesOf (front ++ back) = bytesOf front ++ bytesOf back := List.flatMap_append
  have within : (bytesOf front).length ≤ (bytesOf (front ++ back)).length := by
    rw [split, List.length_append]
    exact Nat.le_add_right _ _
  rw [truncateToVisualLengthWithWidth, if_neg (Int.not_lt.2 positive), parsed]
  simp only [if_pos within]
  rw [split, List.take_left]

/-- The front up to a base and its selectors is a stream. -/
theorem WellFormedStream.frontWithBase {front behind : List StreamItem} {base : Char}
    {selectors : List Char}
    (wf : WellFormedStream (front ++ .text base :: (selectors.map .text ++ behind))) :
    WellFormedStream (front ++ .text base :: selectors.map .text) := by
  have split : front ++ .text base :: (selectors.map .text ++ behind) =
      (front ++ .text base :: selectors.map .text) ++ behind := by
    rw [List.append_assoc, List.cons_append]
  rw [split] at wf
  apply wf.front
  intro code last
  rw [List.getLast?_append_cons] at last
  rcases List.mem_cons.1 (List.mem_of_getLast? last) with same | mem
  · cases same
  · obtain ⟨other, -, same⟩ := List.mem_map.1 mem
    cases same

/-- The text is cut between these two.  With room for any character, the front is not empty. -/
structure CutAt (t : WidthTables) (limit : Int) (front back : List StreamItem) : Prop where
  truncated : truncateToVisualLengthWithWidth t (bytesOf (front ++ back)) limit =
    some (bytesOf front, stringwidth t (bytesOf front))
  fits : stringwidth t (bytesOf front) ≤ limit
  wider : ∀ others base (selectors : List Char) behind,
    back = others ++ .text base :: (selectors.map .text ++ behind) →
      (∀ ch, .text ch ∈ others → IsMark t ch) → ¬IsMark t base →
      (∀ ch ∈ selectors, IsMark t ch) →
        limit < stringwidth t (bytesOf (front ++ others ++ .text base :: selectors.map .text))
  progress : 2 ≤ limit → front ++ back ≠ [] → front ≠ []

/-- A first character has at most two columns. -/
theorem handleRune_first (ch : UInt32) : (handleRune t {} ch).currentWidth ≤ 2 := by
  have noFlag : ¬(({} : WidthState).state = .flagPairStarted ∧
      isFlagPair ({} : WidthState).prevCh ch = true) := fun pair => nomatch pair.1
  have own : columns t ch ≤ 2 := by
    rw [columns]
    split
    · decide
    · split
      · exact Int.le_refl 2
      · decide
  rw [handleRune_between, if_neg noFlag, runeNormal_text rfl]
  split
  · rw [if_neg fun widens => absurd widens.2 (by decide)]
    exact show (0 : Int) ≤ 2 by decide
  · split
    · rw [if_neg fun narrows => absurd narrows.2 (by decide)]
      exact show (0 : Int) ≤ 2 by decide
    · show 0 + (if t.wcwidthStd ch = -1 then 0 else columns t ch) ≤ 2
      rw [Int.zero_add]
      split
      · decide
      · exact own

/-- The width of the front up to a base and its selectors. -/
theorem stringwidth_withBase {items front behind : List StreamItem} {base : Char}
    {selectors : List Char} (wf : WellFormedStream items) (noRep : ∀ item ∈ items, ¬IsRep item)
    (same : items = front ++ .text base :: (selectors.map .text ++ behind)) :
    stringwidth t (bytesOf (front ++ .text base :: selectors.map .text)) =
      columnsOf t (front ++ .text base :: selectors.map .text) := by
  rw [same] at wf noRep
  apply stringwidth_stream wf.frontWithBase
  intro item mem
  apply noRep item
  have split : front ++ .text base :: (selectors.map .text ++ behind) =
      (front ++ .text base :: selectors.map .text) ++ behind := by
    rw [List.append_assoc, List.cons_append]
  rw [split]
  exact List.mem_append_left _ mem

/-- A text that is cut between exact pieces and another text. -/
theorem cutAt_of_parse {limit : Int} (positive : 1 ≤ limit) {front back : List StreamItem}
    (wf : WellFormedStream (front ++ back)) (noRep : ∀ item ∈ front ++ back, ¬IsRep item)
    (exact_ : ∀ item ∈ front, Exact item)
    (parsed : ({ limit := limit } : TruncateIterator).parse t (bytesOf (front ++ back)) =
      (advances front, columnsOf t front))
    (fits : columnsOf t front ≤ limit)
    (wider : ∀ others base (selectors : List Char) behind,
      back = others ++ .text base :: (selectors.map .text ++ behind) →
        (∀ ch, .text ch ∈ others → IsMark t ch) → ¬IsMark t base →
        (∀ ch ∈ selectors, IsMark t ch) →
          limit < columnsOf t (front ++ others ++ .text base :: selectors.map .text))
    (progress : 2 ≤ limit → front ++ back ≠ [] → front ≠ []) :
    CutAt t limit front back := by
  have width := stringwidth_stream (t := t) (wf.exactFront exact_)
    fun item mem => noRep item (List.mem_append_left _ mem)
  rw [advances_exact exact_] at parsed
  refine ⟨?_, ?_, ?_, progress⟩
  · rw [width]
    exact truncate_of_parse positive parsed
  · rw [width]
    exact fits
  · intro others base selectors behind same marks isBase areMarks
    have whole : front ++ back =
        front ++ others ++ .text base :: (selectors.map .text ++ behind) := by
      rw [same, List.append_assoc]
    rw [stringwidth_withBase wf noRep whole]
    exact wider others base selectors behind same marks isBase areMarks

/-- A text that is not cut. -/
theorem cutAt_whole {limit : Int} (positive : 1 ≤ limit) {items : List StreamItem}
    (wf : WellFormedStream items) (noRep : ∀ item ∈ items, ¬IsRep item)
    (fits : FitsBehind t limit {} items) : CutAt t limit items [] := by
  have width := stringwidth_stream (t := t) wf noRep
  have parsed : ({ limit := limit } : TruncateIterator).parse t (bytesOf (items ++ [])) =
      ((bytesOf items).length, columnsOf t items) := by
    rw [List.append_nil]
    exact parse_whole wf noRep fits
  refine ⟨?_, ?_, ?_, ?_⟩
  · rw [width]
    exact truncate_of_parse positive parsed
  · rw [width]
    exact fits items (List.prefix_refl _)
  · intro others base selectors behind same
    cases others with
    | nil => cases same
    | cons other others => cases same
  · intro _ some_
    rwa [List.append_nil] at some_

/-- A text that is cut behind the selector that brings it back to the limit. -/
theorem cutAt_behind (standard : t.Standard) (bases : t.EmojiBases) {limit : Int}
    (positive : 1 ≤ limit) {front codes rest : List StreamItem} {ch next : Char}
    (wf : WellFormedStream (front ++ .text ch :: (codes ++ .text next :: rest)))
    (noRep : ∀ item ∈ front ++ .text ch :: (codes ++ .text next :: rest), ¬IsRep item)
    (areCodes : ∀ code ∈ codes, IsCode code) (fits : FitsBehind t limit {} front)
    (wide : limit < (handleRune t (countsBehind t {} front) ch.val).currentWidth)
    (narrow : columnsOf t (front ++ .text ch :: (codes ++ [.text next])) ≤ limit)
    (exactFront : ∀ item ∈ front, Exact item) (exactCodes : ∀ item ∈ codes, Exact item) :
    CutAt t limit (front ++ .text ch :: (codes ++ [.text next])) rest := by
  have parsed := parse_cutAtText wf noRep areCodes fits wide
  rw [if_pos narrow] at parsed
  have exactPre : ∀ item ∈ front ++ .text ch :: (codes ++ [.text next]), Exact item := by
    intro item mem
    rcases List.mem_append.1 mem with mem | mem
    · exact exactFront item mem
    · rcases List.mem_cons.1 mem with rfl | mem
      · trivial
      · rcases List.mem_append.1 mem with mem | mem
        · exact exactCodes item mem
        · rw [List.mem_singleton.1 mem]
          trivial
  have split : front ++ .text ch :: (codes ++ .text next :: rest) =
      (front ++ .text ch :: (codes ++ [.text next])) ++ rest := by
    simp
  rw [split] at wf noRep parsed
  apply cutAt_of_parse positive wf noRep exactPre parsed narrow
  · intro others base selectors behind _ marks isBase _
    exact wider_behind standard bases wide areCodes narrow marks isBase
  · exact fun _ _ => List.append_ne_nil_of_right_ne_nil _ (List.cons_ne_nil _ _)

/-- A text that is cut in front of the first character that does not fit. -/
theorem cutAt_before (standard : t.Standard) (bases : t.EmojiBases) {limit : Int}
    (positive : 1 ≤ limit) {front back : List StreamItem} {ch : Char}
    (wf : WellFormedStream (front ++ .text ch :: back))
    (noRep : ∀ item ∈ front ++ .text ch :: back, ¬IsRep item)
    (fits : FitsBehind t limit {} front)
    (wide : limit < (handleRune t (countsBehind t {} front) ch.val).currentWidth)
    (exactFront : ∀ item ∈ front, Exact item)
    (parsed : ({ limit := limit } : TruncateIterator).parse t
      (bytesOf (front ++ .text ch :: back)) = (advances front, columnsOf t front))
    (stays : ∀ codes next rest, back = codes ++ .text next :: rest →
      (∀ code ∈ codes, IsCode code) → limit <
        (handleRune t (handleRune t (countsBehind t {} front) ch.val) next.val).currentWidth) :
    CutAt t limit front (.text ch :: back) := by
  apply cutAt_of_parse positive wf noRep exactFront parsed (fits front (List.prefix_refl _))
  · intro others base selectors behind same marks isBase areMarks
    exact wider_before standard bases wide stays same marks isBase areMarks
  · rintro room - rfl
    have first := handleRune_first (t := t) ch.val
    exact absurd (Int.le_trans first room) (Int.not_le.2 wide)

/-- Where the codes in front of the cut are exact, there is a cut. -/
theorem truncateToVisualLength_cut (standard : t.Standard) (bases : t.EmojiBases)
    {items : List StreamItem} (wf : WellFormedStream items) (noRep : ∀ item ∈ items, ¬IsRep item)
    {limit : Int} (positive : 1 ≤ limit) (exact_ : CutExact t items limit) :
    ∃ front back, items = front ++ back ∧ CutAt t limit front back := by
  have start : ({} : WidthState).currentWidth ≤ limit := Int.le_trans (by decide) positive
  rcases fits_or_overruns t limit start items with fits | ⟨front, ch, back, rfl, fits, wide⟩
  · exact ⟨items, [], (List.append_nil items).symm, cutAt_whole positive wf noRep fits⟩
  · have overruns : limit < columnsOf t (front ++ [.text ch]) := by
      rw [columnsOf, countsBehind_append]
      exact wide
    obtain ⟨exactFront, exactCodes⟩ := exact_ front ch back rfl fits overruns
    rcases codes_or_text back with areCodes | ⟨codes, next, rest, rfl, areCodes⟩
    · refine ⟨front, .text ch :: back, rfl, cutAt_before standard bases positive wf noRep fits wide
        exactFront (parse_cutBeforeCodes wf noRep areCodes fits wide) ?_⟩
      intro codes next rest same
      have isText : IsCode (.text next) := by
        apply areCodes
        rw [same]
        exact List.mem_append_right _ (List.mem_cons_self ..)
      exact isText.elim
    · by_cases narrow : columnsOf t (front ++ .text ch :: (codes ++ [.text next])) ≤ limit
      · refine ⟨front ++ .text ch :: (codes ++ [.text next]), rest, ?_,
          cutAt_behind standard bases positive wf noRep areCodes fits wide narrow exactFront
            (exactCodes codes next rest rfl areCodes narrow)⟩
        simp
      · have parsed := parse_cutAtText wf noRep areCodes fits wide
        rw [if_neg narrow] at parsed
        refine ⟨front, .text ch :: (codes ++ .text next :: rest), rfl,
          cutAt_before standard bases positive wf noRep fits wide exactFront parsed ?_⟩
        intro codes' next' rest' same areCodes'
        have counts : (handleRune t (handleRune t (countsBehind t {} front) ch.val)
            next.val).currentWidth =
              columnsOf t (front ++ .text ch :: (codes ++ [.text next])) := by
          rw [columnsOf, countsBehind_append, ← List.singleton_append, countsBehind_append,
            countsBehind_append, countsBehind_codes areCodes]
          rfl
        have sameNext : next = next' := by
          have runes := congrArg runesOf same
          rw [runesOf_append, runesOf_append, runesOf_codes areCodes,
            runesOf_codes areCodes'] at runes
          exact Char.ext (List.cons.inj runes).1
        rw [← sameNext, counts]
        exact Int.not_le.1 narrow

theorem smallTables_emojiBases : smallTables.EmojiBases := by
  intro ch based
  have same : ch = 0x23 := of_decide_eq_true based
  rw [same]
  exact ⟨by decide, by decide, by decide⟩

end Wcswidth

end Smelly
