/-
Module: Smelly.Proofs.AnsiCExpansion
Purpose: The scanner of backslash escapes against the grammar of its escapes: what it writes is what
  they stand for, but for an octal escape at the end of the text and for escapes without digits.
Trusted boundary: none
-/
import Smelly.Core.AnsiCEscapes
import Mathlib.Data.List.TakeWhile

namespace Smelly

/-! ### The grammar -/

/-- The parts of a `$'...'` string. -/
inductive AnsiCItem where
  /-- A character that begins no escape. -/
  | plain (ch : UInt32)
  /-- A backslash before a character that is no escape. -/
  | other (ch : UInt32)
  /-- A backslash, `c` and a character. -/
  | control (ch : UInt32)
  /-- A backslash before a character that stands for `value`. -/
  | simple (ch value : UInt32)
  /-- A backslash, one of `x`, `u` and `U`, and digits. -/
  | hex (letter : UInt32) (digits : List UInt32)
  /-- A backslash before octal digits. -/
  | oct (digits : List UInt32)
deriving DecidableEq, Repr

/-- The characters of an item. -/
def AnsiCItem.text : AnsiCItem → List UInt32
  | plain ch => [ch]
  | other ch => [backslash, ch]
  | control ch => [backslash, 'c'.val, ch]
  | simple ch _ => [backslash, ch]
  | hex letter digits => backslash :: letter :: digits
  | oct digits => backslash :: digits

/-- What an item stands for.  A letter without digits is no escape. -/
def AnsiCItem.denotes : AnsiCItem → List UInt32
  | plain ch => [ch]
  | other ch => [backslash, ch]
  | control ch => [ch &&& 0x1f]
  | simple _ value => [value]
  | hex letter [] => [backslash, letter]
  | hex _ (digit :: digits) => [UInt32.ofNat (strtol 16 (digit :: digits))]
  | oct digits => [UInt32.ofNat (strtol 8 digits)]

/-- The digits at the front of a text, at most `count` of them. -/
def digitsAt (isDigit : UInt32 → Bool) (count : Nat) (text : List UInt32) : List UInt32 :=
  (text.take count).takeWhile isDigit

/-- The item at the front of a text, and what is behind it. -/
def nextItem (ch : UInt32) (rest : List UInt32) : AnsiCItem × List UInt32 :=
  if ch ≠ backslash then (.plain ch, rest)
  else match rest with
    | [] => (.plain ch, [])
    | escaped :: more =>
      if escaped = 'c'.val then
        match more with
        | [] => (.other escaped, [])
        | controlled :: more => (.control controlled, more)
      else match simpleEscape escaped with
        | some value => (.simple escaped value, more)
        | none =>
          match hexEscapeDigits escaped with
          | some count =>
            (.hex escaped (digitsAt isHexDigit count more),
              more.drop (digitsAt isHexDigit count more).length)
          | none =>
            if isOctDigit escaped then
              (.oct (escaped :: digitsAt isOctDigit 2 more),
                more.drop (digitsAt isOctDigit 2 more).length)
            else (.other escaped, more)

theorem digitsAt_append (isDigit : UInt32 → Bool) (count : Nat) (text : List UInt32) :
    digitsAt isDigit count text ++ text.drop (digitsAt isDigit count text).length = text := by
  apply List.prefix_iff_eq_append.1
  exact (List.takeWhile_prefix isDigit).trans (List.take_prefix count text)

/-- The text of an item comes before what is behind it. -/
theorem nextItem_text (ch : UInt32) (rest : List UInt32) :
    (nextItem ch rest).1.text ++ (nextItem ch rest).2 = ch :: rest := by
  unfold nextItem
  by_cases escape : ch ≠ backslash
  · rw [if_pos escape]
    rfl
  rw [if_neg escape]
  obtain rfl : ch = backslash := not_not.1 escape
  cases rest with
  | nil => rfl
  | cons escaped more =>
    dsimp only
    by_cases control : escaped = 'c'.val
    · rw [if_pos control, control]
      cases more with
      | nil => rfl
      | cons controlled more => rfl
    rw [if_neg control]
    cases simpleEscape escaped with
    | some value => rfl
    | none =>
      cases hexEscapeDigits escaped with
      | some count =>
        dsimp only [AnsiCItem.text]
        rw [List.cons_append, List.cons_append, digitsAt_append]
      | none =>
        dsimp only
        by_cases octal : isOctDigit escaped = true
        · rw [if_pos octal]
          dsimp only [AnsiCItem.text]
          rw [List.cons_append, List.cons_append, digitsAt_append]
        · rw [if_neg octal]
          rfl

theorem AnsiCItem.text_ne_nil (item : AnsiCItem) : item.text ≠ [] := by
  cases item <;> exact List.cons_ne_nil _ _

theorem nextItem_length (ch : UInt32) (rest : List UInt32) :
    (nextItem ch rest).2.length < (ch :: rest).length := by
  have whole := congrArg List.length (nextItem_text ch rest)
  have positive := List.length_pos_iff.2 (nextItem ch rest).1.text_ne_nil
  rw [List.length_append] at whole
  omega

/-- The items of a text. -/
def ansiCItems : List UInt32 → List AnsiCItem
  | [] => []
  | ch :: rest => (nextItem ch rest).1 :: ansiCItems (nextItem ch rest).2
termination_by text => text.length
decreasing_by exact nextItem_length ch rest

theorem ansiCItems_eq_nil {text : List UInt32} : ansiCItems text = [] ↔ text = [] := by
  cases text with
  | nil => simp [ansiCItems]
  | cons ch rest => simp [ansiCItems]

/-! ### What the scanner writes -/

/-- What the scanner writes for an item, at the end of the text and elsewhere. -/
def AnsiCItem.written (atEnd : Bool) : AnsiCItem → List UInt32
  | hex _ [] => []
  | oct digits =>
    if atEnd then
      if digits.length = 1 then [] else [UInt32.ofNat (strtol 16 digits)]
    else [UInt32.ofNat (strtol 8 digits)]
  | item => item.denotes

/-- What the scanner writes for a text. -/
def writtenText : List AnsiCItem → List UInt32
  | [] => []
  | item :: rest => item.written rest.isEmpty ++ writtenText rest

/-- The scanner between two items. -/
structure Expander.Between (s : Expander) : Prop where
  normal : s.state = .normal
  noDigits : s.hexDigits = []

@[simp] theorem expandFrom_nil (s : Expander) : expandFrom s [] = s := by rw [expandFrom]

theorem expandFrom_step {s : Expander} {ch : UInt32} {rest : List UInt32} {next : Expander}
    (step : expandChar s rest.isEmpty ch = (next, false)) :
    expandFrom s (ch :: rest) = expandFrom next rest := by
  rw [expandFrom, dif_neg (by rw [step]; exact Bool.false_ne_true), step]

theorem expandFrom_again {s : Expander} {ch : UInt32} {rest : List UInt32} {next : Expander}
    (step : expandChar s rest.isEmpty ch = (next, true)) :
    expandFrom s (ch :: rest) = expandFrom next (ch :: rest) := by
  rw [expandFrom, dif_pos (by rw [step]), step]

/-- What is written when the digits are complete. -/
def valueOf (base : Nat) (digits : List UInt32) : List UInt32 :=
  if digits = [] then [] else [UInt32.ofNat (strtol base digits)]

theorem writeDigits_eq (s : Expander) (base : Nat) :
    s.writeDigits base =
      { s with state := .normal, hexDigits := [], dest := s.dest ++ valueOf base s.hexDigits } := by
  unfold Expander.writeDigits valueOf Expander.w
  by_cases none : s.hexDigits = []
  · rw [if_neg (not_not_intro none), if_pos none, List.append_nil]
  · rw [if_pos none, if_neg none]

/-- Collecting digits: those at the front of the text complete the escape. -/
theorem expandFrom_digits {s : Expander} {isDigit : UInt32 → Bool} {endBase base : Nat}
    (digitState : ∀ (s' : Expander) (atEnd : Bool) (ch : UInt32), s'.state = s.state →
      expandChar s' atEnd ch = expandDigit s' isDigit endBase base atEnd ch)
    (text : List UInt32) (nonempty : text ≠ []) (fits : s.hexDigits.length ≤ s.maxNumHexDigits) :
    ∃ next : Expander, next.Between ∧
      expandFrom s text = expandFrom next
        (text.drop (digitsAt isDigit (s.maxNumHexDigits - s.hexDigits.length) text).length) ∧
      next.dest = s.dest ++ valueOf
        (if text.drop (digitsAt isDigit (s.maxNumHexDigits - s.hexDigits.length) text).length = []
          then endBase else base)
        (s.hexDigits ++ digitsAt isDigit (s.maxNumHexDigits - s.hexDigits.length) text) := by
  induction text generalizing s with
  | nil => exact absurd rfl nonempty
  | cons ch rest ih =>
    by_cases digit : s.hexDigits.length < s.maxNumHexDigits ∧ isDigit ch = true
    · obtain ⟨room, digit⟩ := digit
      obtain ⟨left, left_eq⟩ : ∃ left, s.maxNumHexDigits - s.hexDigits.length = left + 1 :=
        ⟨s.maxNumHexDigits - s.hexDigits.length - 1, by omega⟩
      have digits : digitsAt isDigit (left + 1) (ch :: rest) =
          ch :: digitsAt isDigit left rest := by
        rw [digitsAt, List.take_succ_cons, List.takeWhile_cons_of_pos digit]
        rfl
      rw [left_eq, digits, List.length_cons, List.drop_succ_cons]
      have added : expandChar s rest.isEmpty ch =
          (s.addDigit endBase rest.isEmpty ch, false) := by
        rw [digitState s _ _ rfl, expandDigit, if_pos ⟨room, digit⟩]
      rw [expandFrom_step added, Expander.addDigit]
      cases rest with
      | nil =>
        rw [if_pos List.isEmpty_nil, writeDigits_eq]
        have none : digitsAt isDigit left [] = [] := by rw [digitsAt, List.take_nil]; rfl
        rw [none, List.length_nil, List.drop_zero, if_pos rfl]
        exact ⟨_, ⟨rfl, rfl⟩, rfl, rfl⟩
      | cons ch' rest =>
        rw [if_neg (by rw [List.isEmpty_cons]; exact nofun)]
        have count : (s.hexDigits ++ [ch]).length = s.hexDigits.length + 1 := by
          rw [List.length_append, List.length_singleton]
        obtain ⟨next, between, run, dest⟩ :=
          ih (s := { s with hexDigits := s.hexDigits ++ [ch] }) digitState
            (List.cons_ne_nil _ _) (by simp only [count]; omega)
        have fewer : s.maxNumHexDigits - (s.hexDigits ++ [ch]).length = left := by omega
        simp only [fewer] at run dest
        rw [List.append_assoc] at dest
        exact ⟨next, between, run, dest⟩
    · have none :
          digitsAt isDigit (s.maxNumHexDigits - s.hexDigits.length) (ch :: rest) = [] := by
        rw [digitsAt]
        cases left : s.maxNumHexDigits - s.hexDigits.length with
        | zero => rfl
        | succ left =>
          have other : ¬ isDigit ch = true := fun h => digit ⟨by omega, h⟩
          rw [List.take_succ_cons, List.takeWhile_cons_of_neg other]
      have step : expandChar s rest.isEmpty ch = (s.writeDigits base, true) := by
        rw [digitState s _ _ rfl, expandDigit, if_neg digit]
      rw [none, expandFrom_again step, writeDigits_eq]
      refine ⟨_, ⟨rfl, rfl⟩, rfl, ?_⟩
      rw [List.length_nil, List.drop_zero, if_neg (List.cons_ne_nil ch rest), List.append_nil]

theorem written_hex (atEnd : Bool) (letter : UInt32) (digits : List UInt32) :
    (AnsiCItem.hex letter digits).written atEnd = valueOf 16 digits := by
  cases digits with
  | nil => rfl
  | cons digit digits => rfl

/-- The scanner behind a backslash and the letter of a hexadecimal escape. -/
theorem expandFrom_hex {s : Expander} (state : s.state = .hexDigit) (noDigits : s.hexDigits = [])
    (more : List UInt32) :
    ∃ next : Expander, next.Between ∧
      (expandFrom s more).dest = (expandFrom next
        (more.drop (digitsAt isHexDigit s.maxNumHexDigits more).length)).dest ∧
      next.dest = s.dest ++ valueOf 16 (digitsAt isHexDigit s.maxNumHexDigits more) := by
  by_cases nonempty : more = []
  · subst nonempty
    have none : digitsAt isHexDigit s.maxNumHexDigits [] = [] := by
      rw [digitsAt, List.take_nil]
      rfl
    rw [none, List.length_nil, List.drop_zero, expandFrom_nil]
    refine ⟨{ s with state := .normal }, ⟨rfl, noDigits⟩, ?_, (List.append_nil _).symm⟩
    rw [expandFrom_nil]
  · have digitState : ∀ (s' : Expander) (atEnd : Bool) (ch : UInt32), s'.state = s.state →
        expandChar s' atEnd ch = expandDigit s' isHexDigit 16 16 atEnd ch := by
      intro s' atEnd ch same
      unfold expandChar
      rw [same, state]
    obtain ⟨next, between, run, dest⟩ :=
      expandFrom_digits digitState more nonempty (by rw [noDigits]; exact Nat.zero_le _)
    rw [noDigits, List.length_nil, Nat.sub_zero] at run dest
    rw [ite_self, List.nil_append] at dest
    exact ⟨next, between, congrArg Expander.dest run, dest⟩

/-- The scanner behind a backslash and the first digit of an octal escape. -/
theorem expandFrom_oct {s : Expander} (state : s.state = .octDigit) {first : UInt32}
    (digits : s.hexDigits = [first]) (three : s.maxNumHexDigits = 3) (more : List UInt32) :
    ∃ next : Expander, next.Between ∧
      (expandFrom s more).dest = (expandFrom next
        (more.drop (digitsAt isOctDigit 2 more).length)).dest ∧
      next.dest = s.dest ++ (AnsiCItem.oct (first :: digitsAt isOctDigit 2 more)).written
        (more.drop (digitsAt isOctDigit 2 more).length).isEmpty := by
  by_cases nonempty : more = []
  · subst nonempty
    have none : digitsAt isOctDigit 2 [] = [] := by
      rw [digitsAt, List.take_nil]
      rfl
    rw [none, List.length_nil, List.drop_zero, expandFrom_nil]
    refine ⟨{ s with state := .normal, hexDigits := [] }, ⟨rfl, rfl⟩, ?_, (List.append_nil _).symm⟩
    rw [expandFrom_nil]
  · have digitState : ∀ (s' : Expander) (atEnd : Bool) (ch : UInt32), s'.state = s.state →
        expandChar s' atEnd ch = expandDigit s' isOctDigit 16 8 atEnd ch := by
      intro s' atEnd ch same
      unfold expandChar
      rw [same, state]
    obtain ⟨next, between, run, dest⟩ :=
      expandFrom_digits digitState more nonempty (by rw [digits, three]; exact Nat.le_add_left 1 2)
    rw [digits, three] at run dest
    simp only [List.length_singleton, Nat.reduceSub, List.singleton_append] at run dest
    refine ⟨next, between, congrArg Expander.dest run, ?_⟩
    rw [dest, AnsiCItem.written, valueOf, if_neg (List.cons_ne_nil _ _)]
    by_cases last : more.drop (digitsAt isOctDigit 2 more).length = []
    · -- the digits are all of the text, so there is another one
      have whole := digitsAt_append isOctDigit 2 more
      rw [last, List.append_nil] at whole
      have several : ¬ (first :: digitsAt isOctDigit 2 more).length = 1 := by
        rw [whole, List.length_cons]
        have positive := List.length_pos_iff.2 nonempty
        omega
      rw [if_pos last, if_pos (List.isEmpty_iff.2 last), if_neg several]
    · rw [if_neg last, if_neg (fun empty => last (List.isEmpty_iff.1 empty))]

/-- The scanner at one item. -/
theorem expandFrom_item {s : Expander} (between : s.Between) (ch : UInt32) (rest : List UInt32) :
    ∃ next : Expander, next.Between ∧
      (expandFrom s (ch :: rest)).dest = (expandFrom next (nextItem ch rest).2).dest ∧
      next.dest = s.dest ++ (nextItem ch rest).1.written (nextItem ch rest).2.isEmpty := by
  obtain ⟨normal, noDigits⟩ := between
  have first : ∀ atEnd, expandChar s atEnd ch =
      (if ch = backslash ∧ ¬ atEnd = true then { s with state := .prevEsc } else s.w ch,
        false) := by
    intro atEnd
    unfold expandChar
    rw [normal]
  unfold nextItem
  by_cases escape : ch ≠ backslash
  · have step : expandChar s rest.isEmpty ch = (s.w ch, false) := by
      rw [first, if_neg (fun both => escape both.1)]
    rw [if_pos escape, expandFrom_step step]
    exact ⟨s.w ch, ⟨normal, noDigits⟩, rfl, rfl⟩
  rw [if_neg escape]
  obtain rfl : ch = backslash := not_not.1 escape
  cases rest with
  | nil =>
    have step : expandChar s ([] : List UInt32).isEmpty backslash = (s.w backslash, false) := by
      rw [first, if_neg (fun both => both.2 rfl)]
    rw [expandFrom_step step]
    exact ⟨s.w backslash, ⟨normal, noDigits⟩, rfl, rfl⟩
  | cons escaped more =>
    obtain ⟨esc, esc_eq⟩ : ∃ esc : Expander, esc = { s with state := .prevEsc } := ⟨_, rfl⟩
    have step : expandChar s (escaped :: more).isEmpty backslash = (esc, false) := by
      rw [first, if_pos ⟨rfl, nofun⟩, esc_eq]
    have second : expandChar esc more.isEmpty escaped =
        (expandPrevEsc esc more.isEmpty escaped, false) := by
      unfold expandChar
      rw [esc_eq]
    rw [expandFrom_step step, expandFrom_step second]
    unfold expandPrevEsc
    dsimp only
    have dest : esc.dest = s.dest := by rw [esc_eq]
    have none : esc.hexDigits = [] := by rw [esc_eq]; exact noDigits
    by_cases control : escaped = 'c'.val
    · rw [if_pos control, if_pos control]
      cases more with
      | nil =>
        rw [if_pos List.isEmpty_nil]
        refine ⟨(({ esc with state := .normal } : Expander).w backslash).w escaped,
          ⟨rfl, none⟩, rfl, ?_⟩
        show esc.dest ++ [backslash] ++ [escaped] = _
        rw [dest, List.append_assoc]
        rfl
      | cons controlled more =>
        rw [if_neg nofun]
        have third : expandChar { esc with state := .controlChar } more.isEmpty controlled =
            ({ esc with state := .normal, dest := esc.dest ++ [controlled &&& 0x1f] }, false) :=
          rfl
        rw [expandFrom_step third]
        refine ⟨{ esc with state := .normal, dest := esc.dest ++ [controlled &&& 0x1f] },
          ⟨rfl, none⟩, rfl, ?_⟩
        rw [dest]
        rfl
    rw [if_neg control, if_neg control]
    cases simpleEscape escaped with
    | some value =>
      refine ⟨({ esc with state := .normal } : Expander).w value, ⟨rfl, none⟩, rfl, ?_⟩
      show esc.dest ++ [value] = _
      rw [dest]
      rfl
    | none =>
      cases hexEscapeDigits escaped with
      | some count =>
        obtain ⟨next, between, run, written⟩ := expandFrom_hex
          (s := { esc with state := .hexDigit, maxNumHexDigits := count, hexDigits := [] })
          rfl rfl more
        refine ⟨next, between, run, ?_⟩
        rw [written, written_hex, ← dest]
      | none =>
        dsimp only
        by_cases octal : isOctDigit escaped = true
        · rw [if_pos octal, if_pos octal]
          obtain ⟨next, between, run, written⟩ := expandFrom_oct
            (s := { esc with
              state := .octDigit, maxNumHexDigits := 3, hexDigits := [escaped] })
            rfl rfl rfl more
          refine ⟨next, between, run, ?_⟩
          rw [written, ← dest]
        · rw [if_neg octal, if_neg octal]
          refine ⟨(({ esc with state := .normal } : Expander).w backslash).w escaped,
            ⟨rfl, none⟩, rfl, ?_⟩
          show esc.dest ++ [backslash] ++ [escaped] = _
          rw [dest, List.append_assoc]
          rfl

/-- The scanner writes its items one after the other. -/
theorem expandFrom_items {s : Expander} (between : s.Between) (text : List UInt32) :
    (expandFrom s text).dest = s.dest ++ writtenText (ansiCItems text) := by
  induction text using ansiCItems.induct generalizing s with
  | case1 => rw [expandFrom_nil, ansiCItems, writtenText, List.append_nil]
  | case2 ch rest ih =>
    obtain ⟨next, nextBetween, run, dest⟩ := expandFrom_item between ch rest
    have last : (ansiCItems (nextItem ch rest).2).isEmpty = (nextItem ch rest).2.isEmpty := by
      rw [Bool.eq_iff_iff, List.isEmpty_iff, List.isEmpty_iff, ansiCItems_eq_nil]
    rw [run, ih nextBetween, dest, ansiCItems, writtenText, last, List.append_assoc]

theorem expandAnsiCEscapes_items (src : List UInt32) :
    expandAnsiCEscapes src = writtenText (ansiCItems src) :=
  expandFrom_items ⟨rfl, rfl⟩ src

/-! ### Where the scanner follows the grammar -/

/-- The digits of an octal escape: one to three of them. -/
def AnsiCItem.Valid : AnsiCItem → Prop
  | oct digits => (∀ d ∈ digits, isOctDigit d = true) ∧ 1 ≤ digits.length ∧ digits.length ≤ 3
  | _ => True

theorem nextItem_valid (ch : UInt32) (rest : List UInt32) : (nextItem ch rest).1.Valid := by
  unfold nextItem
  split
  · trivial
  cases rest with
  | nil => trivial
  | cons escaped more =>
    dsimp only
    split
    · cases more <;> trivial
    · cases simpleEscape escaped with
      | some value => trivial
      | none =>
        cases hexEscapeDigits escaped with
        | some count => trivial
        | none =>
          dsimp only
          split
          · rename_i octal
            refine ⟨?_, Nat.le_add_left 1 _, ?_⟩
            · intro d mem
              rcases List.mem_cons.1 mem with rfl | later
              · exact octal
              · exact List.mem_takeWhile_imp later
            · rw [List.length_cons]
              have few : (digitsAt isOctDigit 2 more).length ≤ 2 :=
                Nat.le_trans (List.takeWhile_prefix isOctDigit).length_le
                  (List.length_take_le 2 more)
              omega
          · trivial

theorem ansiCItems_valid (text : List UInt32) : ∀ item ∈ ansiCItems text, item.Valid := by
  induction text using ansiCItems.induct with
  | case1 =>
    rw [ansiCItems]
    exact fun item mem => absurd mem List.not_mem_nil
  | case2 ch rest ih =>
    rw [ansiCItems]
    exact List.forall_mem_cons.2 ⟨nextItem_valid ch rest, ih⟩

/-- The item has digits where it needs them. -/
def AnsiCItem.HasDigits (item : AnsiCItem) : Prop := ∀ letter, item ≠ hex letter []

/-- At the end of the text an octal escape has a second digit, and zeros before its last one. -/
def AnsiCItem.EndsWell (item : AnsiCItem) : Prop :=
  ∀ digits, item = oct digits → 2 ≤ digits.length ∧ ∀ d ∈ digits.dropLast, d = '0'.val

theorem hexDigitValue_oct {d : UInt32} (octal : isOctDigit d = true) :
    hexDigitValue d < 8 ∧ (hexDigitValue d = 0 ↔ d = '0'.val) := by
  have bounds : '0'.val ≤ d ∧ d ≤ '7'.val := of_decide_eq_true octal
  have low : 48 ≤ d.toNat := bounds.1
  have high : d.toNat ≤ 55 := bounds.2
  have value : hexDigitValue d = d.toNat - 48 := if_pos (Nat.le_trans high (by decide))
  rw [value]
  refine ⟨by omega, fun zero => ?_, fun zero => ?_⟩
  · apply UInt32.toNat_inj.1
    show d.toNat = 48
    omega
  · rw [zero]
    rfl

/-- An octal escape read in base 16. -/
theorem strtol_oct {digits : List UInt32} (valid : (AnsiCItem.oct digits).Valid)
    (several : 2 ≤ digits.length) :
    UInt32.ofNat (strtol 16 digits) = UInt32.ofNat (strtol 8 digits) ↔
      ∀ d ∈ digits.dropLast, d = '0'.val := by
  obtain ⟨octal, -, few⟩ := valid
  have same : ∀ m n, m < 2 ^ 32 → n < 2 ^ 32 → (UInt32.ofNat m = UInt32.ofNat n ↔ m = n) := by
    intro m n hm hn
    rw [← UInt32.toNat_inj, UInt32.toNat_ofNat', UInt32.toNat_ofNat', Nat.mod_eq_of_lt hm,
      Nat.mod_eq_of_lt hn]
  match digits, several, few, octal with
  | [a, b], _, _, octal =>
    obtain ⟨smallA, zeroA⟩ := hexDigitValue_oct (octal a (by simp))
    obtain ⟨smallB, -⟩ := hexDigitValue_oct (octal b (by simp))
    simp only [strtol, List.foldl_cons, List.foldl_nil, List.dropLast_cons_cons,
      List.dropLast_singleton, List.forall_mem_singleton, ← zeroA]
    rw [same _ _ (by omega) (by omega)]
    omega
  | [a, b, c], _, _, octal =>
    obtain ⟨smallA, zeroA⟩ := hexDigitValue_oct (octal a (by simp))
    obtain ⟨smallB, zeroB⟩ := hexDigitValue_oct (octal b (by simp))
    obtain ⟨smallC, -⟩ := hexDigitValue_oct (octal c (by simp))
    simp only [strtol, List.foldl_cons, List.foldl_nil, List.dropLast_cons_cons,
      List.dropLast_singleton, List.forall_mem_cons, List.not_mem_nil, ← zeroA, ← zeroB,
      false_imp_iff, implies_true, and_true]
    rw [same _ _ (by omega) (by omega)]
    omega

/-- What is written for an item is no longer than what it stands for. -/
theorem written_length_le (atEnd : Bool) (item : AnsiCItem) :
    (item.written atEnd).length ≤ item.denotes.length := by
  cases item with
  | plain ch => exact Nat.le_refl _
  | other ch => exact Nat.le_refl _
  | control ch => exact Nat.le_refl _
  | simple ch value => exact Nat.le_refl _
  | hex letter digits =>
    cases digits with
    | nil => exact Nat.zero_le _
    | cons digit digits => exact Nat.le_refl _
  | oct digits =>
    rw [AnsiCItem.written, AnsiCItem.denotes]
    split
    · split
      · exact Nat.zero_le _
      · exact Nat.le_refl _
    · exact Nat.le_refl _

/-- When what is written for an item is what it stands for. -/
theorem written_eq_iff {item : AnsiCItem} (valid : item.Valid) (atEnd : Bool) :
    item.written atEnd = item.denotes ↔ item.HasDigits ∧ (atEnd = true → item.EndsWell) := by
  have whole : ∀ item : AnsiCItem, item.HasDigits → (∀ digits, item ≠ .oct digits) →
      (True ↔ item.HasDigits ∧ (atEnd = true → item.EndsWell)) := by
    intro item digits other
    exact iff_of_true trivial ⟨digits, fun _ found same => absurd same (other found)⟩
  cases item with
  | plain ch => exact (iff_of_eq (eq_self _)).trans (whole (.plain ch) nofun nofun)
  | other ch => exact (iff_of_eq (eq_self _)).trans (whole (.other ch) nofun nofun)
  | control ch => exact (iff_of_eq (eq_self _)).trans (whole (.control ch) nofun nofun)
  | simple ch value => exact (iff_of_eq (eq_self _)).trans (whole (.simple ch value) nofun nofun)
  | hex letter digits =>
    cases digits with
    | nil => exact iff_of_false nofun (fun both => both.1 letter rfl)
    | cons digit digits =>
      exact (iff_of_eq (eq_self _)).trans (whole (.hex letter (digit :: digits)) nofun nofun)
  | oct digits =>
    rw [AnsiCItem.written, AnsiCItem.denotes]
    cases atEnd with
    | false => exact iff_of_true rfl ⟨nofun, nofun⟩
    | true =>
      rw [if_pos rfl]
      obtain ⟨octal, one, three⟩ := valid
      by_cases single : digits.length = 1
      · rw [if_pos single]
        refine iff_of_false nofun (fun both => ?_)
        have several := (both.2 rfl digits rfl).1
        omega
      · have several : 2 ≤ digits.length := by omega
        rw [if_neg single, List.cons.injEq, strtol_oct ⟨octal, one, three⟩ several]
        constructor
        · rintro ⟨zeros, -⟩
          exact ⟨nofun, fun _ found same => by cases same; exact ⟨several, zeros⟩⟩
        · intro both
          exact ⟨(both.2 rfl digits rfl).2, rfl⟩

theorem writtenText_length_le (items : List AnsiCItem) :
    (writtenText items).length ≤ (items.flatMap AnsiCItem.denotes).length := by
  induction items with
  | nil => exact Nat.le_refl _
  | cons item rest ih =>
    rw [writtenText, List.flatMap_cons, List.length_append, List.length_append]
    exact Nat.add_le_add (written_length_le _ item) ih

/-- When what is written for a text is what its items stand for. -/
theorem writtenText_eq_iff {items : List AnsiCItem} (valid : ∀ item ∈ items, item.Valid) :
    writtenText items = items.flatMap AnsiCItem.denotes ↔
      (∀ item ∈ items, item.HasDigits) ∧ ∀ item, items.getLast? = some item → item.EndsWell := by
  induction items with
  | nil => exact iff_of_true rfl ⟨fun item mem => absurd mem List.not_mem_nil, nofun⟩
  | cons item rest ih =>
    have apart : writtenText (item :: rest) = (item :: rest).flatMap AnsiCItem.denotes ↔
        item.written rest.isEmpty = item.denotes ∧
          writtenText rest = rest.flatMap AnsiCItem.denotes := by
      rw [writtenText, List.flatMap_cons]
      constructor
      · intro same
        have lengths := congrArg List.length same
        rw [List.length_append, List.length_append] at lengths
        have front := written_length_le rest.isEmpty item
        have behind := writtenText_length_le rest
        exact List.append_inj same (by omega)
      · rintro ⟨front, behind⟩
        rw [front, behind]
    rw [apart, written_eq_iff (valid item List.mem_cons_self),
      ih (fun i mem => valid i (List.mem_cons_of_mem _ mem)), List.forall_mem_cons]
    cases rest with
    | nil =>
      constructor
      · rintro ⟨⟨digits, ends⟩, -⟩
        refine ⟨⟨digits, fun i mem => absurd mem List.not_mem_nil⟩, fun i last => ?_⟩
        obtain rfl : item = i := Option.some.inj last
        exact ends rfl
      · rintro ⟨⟨digits, -⟩, ends⟩
        exact ⟨⟨digits, fun _ => ends item rfl⟩,
          ⟨fun i mem => absurd mem List.not_mem_nil, nofun⟩⟩
    | cons next rest =>
      rw [List.getLast?_cons_cons]
      constructor
      · rintro ⟨⟨digits, -⟩, later, ends⟩
        exact ⟨⟨digits, later⟩, ends⟩
      · rintro ⟨⟨digits, later⟩, ends⟩
        exact ⟨⟨digits, nofun⟩, later, ends⟩

/-- The text the escapes of `src` stand for. -/
def ansiCText (src : List UInt32) : List UInt32 := (ansiCItems src).flatMap AnsiCItem.denotes

/-- Every `x`, `u` and `U` behind a backslash has a digit, and an octal escape at the end of the
text has several, of which all but the last are zero. -/
structure ReadWhole (src : List UInt32) : Prop where
  digits : ∀ item ∈ ansiCItems src, item.HasDigits
  ends : ∀ item, (ansiCItems src).getLast? = some item → item.EndsWell

/-- The scanner gives the text the escapes stand for exactly under that condition. -/
theorem expandAnsiCEscapes_iff (src : List UInt32) :
    expandAnsiCEscapes src = ansiCText src ↔ ReadWhole src := by
  rw [expandAnsiCEscapes_items, ansiCText, writtenText_eq_iff (ansiCItems_valid src)]
  exact ⟨fun both => ⟨both.1, both.2⟩, fun whole => ⟨whole.digits, whole.ends⟩⟩

/-- A line feed in octal is another character at the end of the text. -/
theorem expandAnsiCEscapes_octal :
    ¬ (∀ src, expandAnsiCEscapes src = ansiCText src) ∧
      expandAnsiCEscapes (chars "\\12") = [0x12] ∧ ansiCText (chars "\\12") = [10] ∧
      expandAnsiCEscapes (chars "\\1") = [] ∧ ansiCText (chars "\\1") = [1] := by
  have two : ansiCItems (chars "\\12") = [.oct (chars "12")] := by
    have first : nextItem backslash (chars "12") = (.oct (chars "12"), []) := by decide
    rw [show chars "\\12" = backslash :: chars "12" from rfl, ansiCItems, first, ansiCItems]
  have one : ansiCItems (chars "\\1") = [.oct (chars "1")] := by
    have first : nextItem backslash (chars "1") = (.oct (chars "1"), []) := by decide
    rw [show chars "\\1" = backslash :: chars "1" from rfl, ansiCItems, first, ansiCItems]
  have written : expandAnsiCEscapes (chars "\\12") = [0x12] := by
    rw [expandAnsiCEscapes_items, two]
    decide
  have text : ansiCText (chars "\\12") = [10] := by
    rw [ansiCText, two]
    decide
  refine ⟨fun all => ?_, written, text, ?_, ?_⟩
  · have same := all (chars "\\12")
    rw [written, text] at same
    exact absurd same (by decide)
  · rw [expandAnsiCEscapes_items, one]
    decide
  · rw [ansiCText, one]
    decide

end Smelly
