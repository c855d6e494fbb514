/-
Module: Smelly.Proofs.SgrStateRoundTrip
Purpose: Which renditions the SGR parameters printed for them give back, and what a sequence of
  parameters leaves alone.
Trusted boundary: none
-/
import Smelly.Core.SgrState
import Smelly.Proofs.KeyEventRoundTrip
import Mathlib.Tactic.IntervalCases

namespace Smelly

namespace Style

/-! ### Parameters -/

/-- The text of a parameter that consists of numbers. -/
def partText (numbers : List Nat) : Text := sectionText (numbers.map some)

/-- What a list of parameters does to a rendition. -/
def SgrState.run (self : SgrState) (parts : List (List Nat)) : Option SgrState :=
  parts.foldlM (fun self numbers => self.applyNumbers (numbers.map Int.ofNat)) self

@[simp] theorem SgrState.run_nil (self : SgrState) : self.run [] = some self := rfl

@[simp] theorem SgrState.run_single (self : SgrState) (numbers : List Nat) :
    self.run [numbers] = self.applyNumbers (numbers.map Int.ofNat) := by
  unfold SgrState.run
  simp

theorem SgrState.run_append (self : SgrState) (front back : List (List Nat)) :
    self.run (front ++ back) = (self.run front).bind fun self => self.run back :=
  List.foldlM_append

/-- The numbers of a parameter read back. -/
theorem numbersOf_partText {numbers : List Nat} (nonempty : numbers ≠ [])
    (range : ∀ n ∈ numbers, n < 2 ^ 63) :
    numbersOf (partText numbers) = numbers.map Int.ofNat := by
  unfold numbersOf partText
  rw [splitOn_sectionText (by simpa using nonempty), List.map_map]
  clear nonempty
  induction numbers with
  | nil => rfl
  | cons n numbers ih =>
    have first : GoKeys.atoi (fieldText (some n)) = some (n : Int) :=
      atoi_decimalText (range n List.mem_cons_self)
    rw [List.map_cons, List.filterMap_cons]
    simp only [Function.comp_apply, first]
    rw [ih fun m mem => range m (List.mem_cons_of_mem n mem)]
    rfl

/-- The parameters of a sequence, as numbers. -/
theorem csiParts_map_partText {parts : List (List Nat)} (nonempty : parts ≠ [])
    (full : ∀ numbers ∈ parts, numbers ≠ []) :
    csiParts ([ord ';'].intercalate (parts.map partText)) = parts.map partText := by
  have joined : [ord ';'].intercalate (parts.map partText) = csiText (parts.map (·.map some)) := by
    unfold csiText
    rw [List.map_map]
    rfl
  have printed : [ord ';'].intercalate (parts.map partText) ≠ [] := by
    cases parts with
    | nil => exact absurd rfl nonempty
    | cons numbers parts =>
      have some_ : partText numbers ≠ [] := by
        cases numbers with
        | nil => exact absurd rfl (full [] List.mem_cons_self)
        | cons n numbers =>
          have digits := decimalText_ne_nil n
          unfold partText
          rw [List.map_cons]
          cases numbers with
          | nil => simpa [fieldText] using digits
          | cons m numbers =>
            rw [sectionText_cons _ (by simp)]
            simp
      cases parts with
      | nil => simpa using some_
      | cons other parts =>
        simp
  unfold csiParts
  rw [if_neg printed, joined, splitOn_csiText (by simpa using nonempty), List.map_map]
  rfl

/-- A sequence that is made of parameters does what the parameters do. -/
theorem applyCsi_parts (self : SgrState) {parts : List (List Nat)} (nonempty : parts ≠ [])
    (full : ∀ numbers ∈ parts, numbers ≠ [])
    (range : ∀ numbers ∈ parts, ∀ n ∈ numbers, n < 2 ^ 63) :
    self.applyCsi ([ord ';'].intercalate (parts.map partText) ++ [ord 'm']) = self.run parts := by
  unfold SgrState.applyCsi
  rw [if_neg (by simp), List.dropLast_concat, csiParts_map_partText nonempty full]
  clear nonempty
  induction parts generalizing self with
  | nil => rfl
  | cons numbers parts ih =>
    rw [List.map_cons, List.foldlM_cons,
      numbersOf_partText (full numbers List.mem_cons_self) (range numbers List.mem_cons_self)]
    apply bind_congr
    intro next
    exact ih next (fun other mem => full other (List.mem_cons_of_mem numbers mem))
      (fun other mem => range other (List.mem_cons_of_mem numbers mem))

/-! ### What is printed -/

/-- The numbers of the parameter of a colour. -/
def SgrColor.parts (self : SgrColor) (base : Nat) : List (List Nat) :=
  if self.number = 0 then []
  else if self.number > 0 then
    let n := (self.number - 1).toNat
    if n ≤ 15 ∧ (base = 30 ∨ base = 40) then
      if n ≤ 7 then [[base + n]] else [[base + 60 + n - 7]]
    else [[base + 8, 5, n]]
  else [[base + 8, 2, self.color.red.toNat, self.color.green.toNat, self.color.blue.toNat]]

/-- The numbers of the parameters of a rendition. -/
def SgrState.parts (self : SgrState) : List (List Nat) :=
  (if self.bold then [[1]] else []) ++
  (if self.dim then [[2]] else []) ++
  (if self.italic then [[3]] else []) ++
  (if self.reverse then [[7]] else []) ++
  (if self.strikethrough then [[9]] else []) ++
  (if self.underlineStyle.isDrawn then [[4, self.underlineStyle.toNat]] else []) ++
  self.fg.parts 30 ++ self.bg.parts 40 ++ self.uc.parts 50

theorem itoa_natCast (n : Nat) : itoa n = decimalText n := by
  unfold itoa
  rw [if_neg (by omega), Int.natAbs_natCast]

theorem partText_single (n : Nat) : partText [n] = decimalText n := by
  simp [partText, fieldText]

theorem partText_cons (n : Nat) {numbers : List Nat} (more : numbers ≠ []) :
    partText (n :: numbers) = decimalText n ++ chars ":" ++ partText numbers := by
  unfold partText
  rw [List.map_cons, sectionText_cons _ (by simpa using more)]
  simp [fieldText, chars, ord]

/-- The parameter of a colour is the one of its numbers. -/
theorem sgrParts_color (self : SgrColor) (base : Nat) :
    self.sgrParts base = (self.parts base).map partText := by
  unfold SgrColor.sgrParts SgrColor.asSgr SgrColor.parts
  by_cases none_ : self.number = 0
  · simp [none_]
  · simp only [none_, if_false]
    have offset : (base : Int) + 8 = ((base + 8 : Nat) : Int) := by omega
    by_cases positive : self.number > 0
    · have index : self.number - 1 = ((self.number - 1).toNat : Int) := by omega
      simp only [positive]
      generalize (self.number - 1).toNat = n at index
      rw [index]
      by_cases simple : n ≤ 15 ∧ (base = 30 ∨ base = 40)
      · have simple' : (n : Int) ≤ 15 ∧ ((base : Int) = 30 ∨ (base : Int) = 40) := by omega
        rw [if_pos simple, if_pos simple']
        by_cases dark : n ≤ 7
        · have dark' : (n : Int) ≤ 7 := by omega
          simp only [dark, dark']
          rw [← Int.natCast_add, itoa_natCast]
          simp [decimalText_ne_nil, partText_single]
        · have bright : (base : Int) + 60 + n - 7 = ((base + 60 + n - 7 : Nat) : Int) := by omega
          have dark' : ¬(n : Int) ≤ 7 := by omega
          simp only [dark, dark']
          rw [bright, itoa_natCast]
          simp [decimalText_ne_nil, partText_single]
      · have simple' : ¬((n : Int) ≤ 15 ∧ ((base : Int) = 30 ∨ (base : Int) = 40)) := by omega
        have colons : chars ":5:" = chars ":" ++ decimalText 5 ++ chars ":" := by decide
        rw [if_neg simple, if_neg simple', offset, itoa_natCast, itoa_natCast, colons]
        simp [decimalText_ne_nil, partText_single, partText_cons]
    · have colons : chars ":2:" = chars ":" ++ decimalText 2 ++ chars ":" := by decide
      simp only [positive]
      rw [offset, itoa_natCast, itoa_natCast, itoa_natCast, itoa_natCast, colons]
      simp [decimalText_ne_nil, partText_single, partText_cons]

/-- The parameters of a rendition are those of its numbers. -/
theorem sgrParts_eq (self : SgrState) :
    self.sgrParts false = self.parts.map partText := by
  have flag : ∀ (b : Bool) (n : Nat), partText [n] = decimalText n →
      (if b then [decimalText n] else []) = (if b then [[n]] else []).map partText := by
    intro b n single
    cases b with
    | false => rfl
    | true => simp [single]
  have style : (if self.underlineStyle.isDrawn then
        [chars "4:" ++ itoa self.underlineStyle.toNat] else []) =
      (if self.underlineStyle.isDrawn then [[4, self.underlineStyle.toNat]] else []).map
        partText := by
    cases self.underlineStyle.isDrawn with
    | false => rfl
    | true =>
      have four : chars "4:" = decimalText 4 ++ chars ":" := by decide
      simp [partText_cons, partText_single, itoa_natCast, four]
  unfold SgrState.sgrParts SgrState.parts
  rw [if_neg Bool.false_ne_true]
  simp only [List.map_append]
  rw [← flag _ 1 (partText_single 1), ← flag _ 2 (partText_single 2),
    ← flag _ 3 (partText_single 3), ← flag _ 7 (partText_single 7),
    ← flag _ 9 (partText_single 9), style]
  have digits : chars "1" = decimalText 1 ∧ chars "2" = decimalText 2 ∧ chars "3" = decimalText 3 ∧
      chars "7" = decimalText 7 ∧ chars "9" = decimalText 9 := by decide
  obtain ⟨one, two, three, seven, nine⟩ := digits
  rw [one, two, three, seven, nine]
  have fg := sgrParts_color self.fg 30
  have bg := sgrParts_color self.bg 40
  have uc := sgrParts_color self.uc 50
  norm_cast at fg bg uc
  rw [fg, bg, uc]

/-! ### What reads back -/

/-- What a colour reads back as: the code of a bright colour is the one of the next colour, and the
last one has the code of none. -/
def SgrColor.readBack (self : SgrColor) (base : Nat) : SgrColor :=
  if self.number = 0 then {}
  else if self.number > 0 then
    if (base = 30 ∨ base = 40) ∧ 9 ≤ self.number ∧ self.number ≤ 16 then
      if self.number = 16 then {} else { number := self.number + 1 }
    else { number := self.number }
  else { number := -1, color := self.color }

theorem fromExtended_index {n : Nat} (range : n + 1 < 2 ^ 63) :
    ({} : SgrColor).fromExtended [5, (n : Int)] = some ({ number := (n : Int) + 1 }, true) := by
  have inside : (1 + (n : Int)).bmod (2 ^ 64) = (n : Int) + 1 := by
    rw [Int.bmod_eq_of_le] <;> omega
  unfold SgrColor.fromExtended
  dsimp only
  rw [if_pos rfl, inside]

theorem fromExtended_rgb (color : RGBA) :
    ({} : SgrColor).fromExtended [2, color.red.toNat, color.green.toNat, color.blue.toNat] =
      some ({ number := -1, color }, true) := by
  have byte : ∀ b : UInt8, UInt8.ofInt (b.toNat : Int) = b := by
    intro b
    have small : ((b.toNat : Int) % 2 ^ 8).toNat = b.toNat := by
      have := b.toNat_lt
      omega
    rw [UInt8.ofInt, small, UInt8.ofNat_toNat]
  unfold SgrColor.fromExtended
  dsimp only
  rw [if_neg (by decide), if_pos rfl]
  simp only [byte]

/-- The colours with codes of their own, in the foreground. -/
theorem applyNumbers_simpleForeground (self : SgrState) {n : Nat} (simple : n ≤ 15) :
    self.applyNumbers [((if n ≤ 7 then 30 + n else 30 + 60 + n - 7 : Nat) : Int)] =
      some (if n = 15 then self else
        { self with fg := { self.fg with number := if n ≤ 7 then (n : Int) + 1 else n + 2 } }) := by
  interval_cases n <;> rfl

/-- The colours with codes of their own, in the background. -/
theorem applyNumbers_simpleBackground (self : SgrState) {n : Nat} (simple : n ≤ 15) :
    self.applyNumbers [((if n ≤ 7 then 40 + n else 40 + 60 + n - 7 : Nat) : Int)] =
      some (if n = 15 then self else
        { self with bg := { self.bg with number := if n ≤ 7 then (n : Int) + 1 else n + 2 } }) := by
  interval_cases n <;> rfl

/-- The kinds of colours that `as_sgr` tells apart. -/
theorem parts_cases (self : SgrColor) (base : Nat) (range : self.number < 2 ^ 63) :
    (self.number = 0 ∧ self.parts base = [] ∧ self.readBack base = {}) ∨
    (∃ n : Nat, n ≤ 15 ∧ (base = 30 ∨ base = 40) ∧
      self.parts base = [[if n ≤ 7 then base + n else base + 60 + n - 7]] ∧
      self.readBack base =
        if n = 15 then {} else { number := if n ≤ 7 then (n : Int) + 1 else n + 2 }) ∨
    (∃ n : Nat, n + 1 < 2 ^ 63 ∧ self.parts base = [[base + 8, 5, n]] ∧
      self.readBack base = { number := (n : Int) + 1 }) ∨
    (∃ color : RGBA,
      self.parts base =
        [[base + 8, 2, color.red.toNat, color.green.toNat, color.blue.toNat]] ∧
      self.readBack base = { number := -1, color }) := by
  unfold SgrColor.parts SgrColor.readBack
  by_cases none_ : self.number = 0
  · exact Or.inl (by simp [none_])
  · simp only [none_, if_false, false_and, false_or]
    by_cases positive : self.number > 0
    · simp only [positive, if_true]
      obtain ⟨n, index⟩ : ∃ n : Nat, self.number = (n : Int) + 1 :=
        ⟨(self.number - 1).toNat, by omega⟩
      have back : (self.number - 1).toNat = n := by omega
      rw [back, index]
      by_cases simple : n ≤ 15 ∧ (base = 30 ∨ base = 40)
      · apply Or.inl
        refine ⟨n, simple.1, simple.2, ?_, ?_⟩
        · rw [if_pos simple]
          split <;> rfl
        · by_cases dark : n ≤ 7
          · rw [if_neg (by omega), if_neg (by omega), if_pos dark]
          · by_cases last : n = 15
            · rw [if_pos (by omega), if_pos (by omega), if_pos last]
            · rw [if_pos (by omega), if_neg (by omega), if_neg last, if_neg dark]
              congr 1
      · apply Or.inr
        apply Or.inl
        refine ⟨n, by omega, ?_, ?_⟩
        · rw [if_neg simple]
        · rw [if_neg (by omega)]
    · simp only [positive, if_false]
      exact Or.inr (Or.inr ⟨self.color, rfl, rfl⟩)

/-- The foreground reads back as what its parameter says. -/
theorem run_foreground {self : SgrState} (unset : self.fg = {}) {color : SgrColor}
    (range : color.number < 2 ^ 63) :
    self.run (color.parts 30) = some { self with fg := color.readBack 30 } := by
  rcases parts_cases color 30 range with
    ⟨-, printed, read⟩ | ⟨n, simple, -, printed, read⟩ | ⟨n, small, printed, read⟩ |
      ⟨rgb, printed, read⟩
  · rw [printed, read, SgrState.run_nil, ← unset]
  · rw [printed, read, SgrState.run_single, List.map_singleton, Int.ofNat_eq_natCast,
      applyNumbers_simpleForeground self simple, unset]
    split
    · rw [← unset]
    · rfl
  · rw [printed, read, SgrState.run_single]
    show (self.fg.fromExtended [5, (n : Int)]).map (fun fg => { self with fg := fg.1 }) = _
    rw [unset, fromExtended_index small]
    rfl
  · rw [printed, read, SgrState.run_single]
    show (self.fg.fromExtended [2, rgb.red.toNat, rgb.green.toNat, rgb.blue.toNat]).map
      (fun fg => { self with fg := fg.1 }) = _
    rw [unset, fromExtended_rgb]
    rfl

/-- The background reads back as what its parameter says. -/
theorem run_background {self : SgrState} (unset : self.bg = {}) {color : SgrColor}
    (range : color.number < 2 ^ 63) :
    self.run (color.parts 40) = some { self with bg := color.readBack 40 } := by
  rcases parts_cases color 40 range with
    ⟨-, printed, read⟩ | ⟨n, simple, -, printed, read⟩ | ⟨n, small, printed, read⟩ |
      ⟨rgb, printed, read⟩
  · rw [printed, read, SgrState.run_nil, ← unset]
  · rw [printed, read, SgrState.run_single, List.map_singleton, Int.ofNat_eq_natCast,
      applyNumbers_simpleBackground self simple, unset]
    split
    · rw [← unset]
    · rfl
  · rw [printed, read, SgrState.run_single]
    show (self.bg.fromExtended [5, (n : Int)]).map (fun bg => { self with bg := bg.1 }) = _
    rw [unset, fromExtended_index small]
    rfl
  · rw [printed, read, SgrState.run_single]
    show (self.bg.fromExtended [2, rgb.red.toNat, rgb.green.toNat, rgb.blue.toNat]).map
      (fun bg => { self with bg := bg.1 }) = _
    rw [unset, fromExtended_rgb]
    rfl

/-- The colour of the underline reads back as what its parameter says. -/
theorem run_underlineColor {self : SgrState} (unset : self.uc = {}) {color : SgrColor}
    (range : color.number < 2 ^ 63) :
    self.run (color.parts 50) = some { self with uc := color.readBack 50 } := by
  rcases parts_cases color 50 range with
    ⟨-, printed, read⟩ | ⟨n, simple, base, printed, read⟩ | ⟨n, small, printed, read⟩ |
      ⟨rgb, printed, read⟩
  · rw [printed, read, SgrState.run_nil, ← unset]
  · exact absurd base (by decide)
  · rw [printed, read, SgrState.run_single]
    show (self.uc.fromExtended [5, (n : Int)]).map (fun uc => { self with uc := uc.1 }) = _
    rw [unset, fromExtended_index small]
    rfl
  · rw [printed, read, SgrState.run_single]
    show (self.uc.fromExtended [2, rgb.red.toNat, rgb.green.toNat, rgb.blue.toNat]).map
      (fun uc => { self with uc := uc.1 }) = _
    rw [unset, fromExtended_rgb]
    rfl

/-- A parameter that is only there if a flag is set. -/
theorem run_flag (b : Bool) (set : Bool → SgrState) {numbers : List Nat}
    (sets : (set false).applyNumbers (numbers.map Int.ofNat) = some (set true)) :
    (set false).run (if b then [numbers] else []) = some (set b) := by
  cases b with
  | false => rfl
  | true => rw [if_pos rfl, SgrState.run_single, sets]

/-- The rendition that a rendition reads back as. -/
def SgrState.readBack (self : SgrState) : SgrState :=
  { self with
    fg := self.fg.readBack 30
    bg := self.bg.readBack 40
    uc := self.uc.readBack 50 }

/-- What holds of the renditions that SGR sequences make. -/
structure SgrState.Sound (state : SgrState) : Prop where
  apart : ¬(state.bold = true ∧ state.dim = true)
  styled : state.underlineStyle ≠ .nilUnderline
  fgRange : state.fg.number < 2 ^ 63
  bgRange : state.bg.number < 2 ^ 63
  ucRange : state.uc.number < 2 ^ 63

theorem run_parts {self : SgrState} (sound : self.Sound) :
    ({} : SgrState).run self.parts = some self.readBack := by
  obtain ⟨apart, styled, fgRange, bgRange, ucRange⟩ := sound
  obtain ⟨italic, reverse, bold, dim, strikethrough, style, fg, bg, uc⟩ := self
  have bolds : ({} : SgrState).run (if bold then [[1]] else []) = some { bold } :=
    run_flag bold (fun bold => { bold }) rfl
  have dims : ({ bold } : SgrState).run (if dim then [[2]] else []) = some { bold, dim } := by
    cases dim with
    | false => rfl
    | true =>
      have thin : bold = false := by simpa using apart
      rw [thin]
      rfl
  have italics : ({ bold, dim } : SgrState).run (if italic then [[3]] else []) =
      some { bold, dim, italic } := run_flag italic (fun italic => { bold, dim, italic }) rfl
  have reverses : ({ bold, dim, italic } : SgrState).run (if reverse then [[7]] else []) =
      some { bold, dim, italic, reverse } :=
    run_flag reverse (fun reverse => { bold, dim, italic, reverse }) rfl
  have strikes : ({ bold, dim, italic, reverse } : SgrState).run
      (if strikethrough then [[9]] else []) = some { bold, dim, italic, reverse, strikethrough } :=
    run_flag strikethrough (fun strikethrough => { bold, dim, italic, reverse, strikethrough }) rfl
  have underlines : ({ bold, dim, italic, reverse, strikethrough } : SgrState).run
      (if style.isDrawn then [[4, style.toNat]] else []) =
        some { bold, dim, italic, reverse, strikethrough, underlineStyle := style } := by
    cases style with
    | nilUnderline => exact absurd rfl styled
    | _ => rfl
  unfold SgrState.parts
  simp only [SgrState.run_append, bolds, dims, italics, reverses, strikes, underlines,
    Option.bind_some]
  rw [run_foreground rfl fgRange, Option.bind_some, run_background rfl bgRange, Option.bind_some,
    run_underlineColor rfl ucRange]
  rfl

/-- The parameter of a colour consists of numbers that fit into an `int`. -/
theorem mem_colorParts {color : SgrColor} {base : Nat} (range : color.number < 2 ^ 63)
    (low : base ≤ 50) {numbers : List Nat} (mem : numbers ∈ color.parts base) :
    numbers ≠ [] ∧ ∀ n ∈ numbers, n < 2 ^ 63 := by
  rcases parts_cases color base range with
    ⟨-, printed, -⟩ | ⟨n, simple, -, printed, -⟩ | ⟨n, small, printed, -⟩ | ⟨rgb, printed, -⟩
  · rw [printed] at mem
    exact absurd mem List.not_mem_nil
  · rw [printed, List.mem_singleton] at mem
    rw [mem]
    constructor
    · simp
    · intro m which
      rw [List.mem_singleton] at which
      split at which <;> omega
  · rw [printed, List.mem_singleton] at mem
    rw [mem]
    constructor
    · simp
    · intro m which
      simp only [List.mem_cons, List.not_mem_nil, or_false] at which
      omega
  · rw [printed, List.mem_singleton] at mem
    rw [mem]
    have red := rgb.red.toNat_lt
    have green := rgb.green.toNat_lt
    have blue := rgb.blue.toNat_lt
    constructor
    · simp
    · intro m which
      simp only [List.mem_cons, List.not_mem_nil, or_false] at which
      omega

theorem mem_parts {self : SgrState} (sound : self.Sound) {numbers : List Nat}
    (mem : numbers ∈ self.parts) : numbers ≠ [] ∧ ∀ n ∈ numbers, n < 2 ^ 63 := by
  have flag : ∀ (b : Bool) (n : Nat), n < 10 → numbers ∈ (if b then [[n]] else []) →
      numbers ≠ [] ∧ ∀ m ∈ numbers, m < 2 ^ 63 := by
    intro b n small mem
    cases b with
    | false => exact absurd mem List.not_mem_nil
    | true =>
      rw [if_pos rfl, List.mem_singleton] at mem
      rw [mem]
      simp
      omega
  unfold SgrState.parts at mem
  simp only [List.mem_append] at mem
  rcases mem with (((((((bold | dim) | italic) | reverse) | strike) | style) | fg) | bg) | uc
  · exact flag _ 1 (by decide) bold
  · exact flag _ 2 (by decide) dim
  · exact flag _ 3 (by decide) italic
  · exact flag _ 7 (by decide) reverse
  · exact flag _ 9 (by decide) strike
  · cases drawn : self.underlineStyle.isDrawn with
    | false =>
      rw [drawn] at style
      exact absurd style List.not_mem_nil
    | true =>
      rw [drawn, if_pos rfl, List.mem_singleton] at style
      rw [style]
      cases self.underlineStyle <;> simp [UnderlineStyle.toNat]
  · exact mem_colorParts sound.fgRange (by decide) fg
  · exact mem_colorParts sound.bgRange (by decide) bg
  · exact mem_colorParts sound.ucRange (by decide) uc

/-- The parameters of a rendition, applied to the empty one. -/
theorem applyCsi_asSgr {self : SgrState} (sound : self.Sound) :
    ({} : SgrState).applyCsi (self.asSgr false ++ [ord 'm']) = some self.readBack := by
  rw [← run_parts sound, SgrState.asSgr, sgrParts_eq]
  by_cases empty : self.parts = []
  · rw [empty]
    rfl
  · exact applyCsi_parts {} empty (fun _ mem => (mem_parts sound mem).1)
      (fun _ mem => (mem_parts sound mem).2)

/-! ### What parameters name -/

/-- What a rendition is made of; bold and dim are two intensities. -/
inductive Component where
  | intensity
  | italic
  | reverse
  | strikethrough
  | underline
  | foreground
  | background
  | underlineColor
deriving DecidableEq, Repr

/-- The first numbers of the parameters that name a component. -/
def Component.NamedBy (first : Int) : Component → Prop
  | .intensity => first = 0 ∨ first = 1 ∨ first = 2 ∨ first = 22
  | .italic => first = 0 ∨ first = 3 ∨ first = 23
  | .reverse => first = 0 ∨ first = 7 ∨ first = 27
  | .strikethrough => first = 0 ∨ first = 9 ∨ first = 29
  | .underline => first = 0 ∨ first = 4 ∨ first = 24
  | .foreground => first = 0 ∨ (30 ≤ first ∧ first ≤ 39) ∨ (90 ≤ first ∧ first ≤ 97)
  | .background => first = 0 ∨ (40 ≤ first ∧ first ≤ 49) ∨ (100 ≤ first ∧ first ≤ 107)
  | .underlineColor => first = 0 ∨ first = 58 ∨ first = 59

/-- Some parameter names the component. -/
def Component.NamedIn (params : Text) (component : Component) : Prop :=
  ∃ part ∈ csiParts params, ∃ first more, numbersOf part = first :: more ∧
    component.NamedBy first

/-- Two renditions have a component in common. -/
def Component.Same (s t : SgrState) : Component → Prop
  | .intensity => s.bold = t.bold ∧ s.dim = t.dim
  | .italic => s.italic = t.italic
  | .reverse => s.reverse = t.reverse
  | .strikethrough => s.strikethrough = t.strikethrough
  | .underline => s.underlineStyle = t.underlineStyle
  | .foreground => s.fg = t.fg
  | .background => s.bg = t.bg
  | .underlineColor => s.uc = t.uc

theorem Component.Same.refl (s : SgrState) (component : Component) : component.Same s s := by
  cases component <;> simp [Component.Same]

theorem Component.Same.trans {s t u : SgrState} {component : Component}
    (first : component.Same s t) (second : component.Same t u) : component.Same s u := by
  cases component with
  | intensity => exact ⟨first.1.trans second.1, first.2.trans second.2⟩
  | _ => exact Eq.trans first second

/-- What a parameter may do to a colour: the number stays an `int`. -/
def Fits (old new : SgrColor) : Prop := old.number < 2 ^ 63 → new.number < 2 ^ 63

theorem fromExtended_fits {color : SgrColor} {values : List Int} {new : SgrColor × Bool}
    (h : color.fromExtended values = some new) : Fits color new.1 := by
  unfold SgrColor.fromExtended at h
  intro range
  cases values with
  | nil => cases h
  | cons kind values =>
    dsimp only at h
    split at h
    · cases values with
      | nil =>
        rw [← Option.some.inj h]
        exact range
      | cons index values =>
        rw [← Option.some.inj h]
        have below : (1 + index).bmod (2 ^ 64) < (2 ^ 64 + 1) / 2 := Int.bmod_lt (by decide)
        exact below
    · split at h
      · split at h
        · rw [← Option.some.inj h]
          show (-1 : Int) < 2 ^ 63
          decide
        · rw [← Option.some.inj h]
          exact range
      · rw [← Option.some.inj h]
        exact range

theorem fromExtended_eq_none {color : SgrColor} {values : List Int}
    (h : color.fromExtended values = none) : values = [] := by
  cases values with
  | nil => rfl
  | cons kind values =>
    unfold SgrColor.fromExtended at h
    dsimp only at h
    split at h
    · split at h <;> cases h
    · split at h
      · split at h <;> cases h
      · cases h

/-- Everything that a parameter can do. -/
inductive Applies (first : Int) (self : SgrState) : SgrState → Prop where
  | reset (zero : first = 0) : Applies first self {}
  | intensity (bold dim : Bool) (apart : ¬(bold = true ∧ dim = true))
      (named : Component.intensity.NamedBy first) : Applies first self { self with bold, dim }
  | italic (italic : Bool) (named : Component.italic.NamedBy first) :
      Applies first self { self with italic }
  | reverse (reverse : Bool) (named : Component.reverse.NamedBy first) :
      Applies first self { self with reverse }
  | strikethrough (strikethrough : Bool) (named : Component.strikethrough.NamedBy first) :
      Applies first self { self with strikethrough }
  | underline (style : UnderlineStyle) (drawn : style ≠ .nilUnderline)
      (named : Component.underline.NamedBy first) :
      Applies first self { self with underlineStyle := style }
  | foreground (fg : SgrColor) (fits : Fits self.fg fg)
      (named : Component.foreground.NamedBy first) : Applies first self { self with fg }
  | background (bg : SgrColor) (fits : Fits self.bg bg)
      (named : Component.background.NamedBy first) : Applies first self { self with bg }
  | underlineColor (uc : SgrColor) (fits : Fits self.uc uc)
      (named : Component.underlineColor.NamedBy first) : Applies first self { self with uc }
  | nothing : Applies first self self

theorem setUnderline_applies {first : Int} (self : SgrState)
    (named : Component.underline.NamedBy first) (us : Int) :
    Applies first self (self.setUnderline us) := by
  unfold SgrState.setUnderline
  split_ifs
  · exact .underline .noUnderline (by decide) named
  · exact .underline .straightUnderline (by decide) named
  · exact .underline .doubleUnderline (by decide) named
  · exact .underline .curlyUnderline (by decide) named
  · exact .underline .dottedUnderline (by decide) named
  · exact .underline .dashedUnderline (by decide) named
  · exact .nothing

/-- What may come of a parameter: one of these things, or a panic for want of a further number. -/
def Outcome (first : Int) (more : List Int) (self : SgrState) : Option SgrState → Prop
  | some next => Applies first self next
  | none => more = [] ∧ (first = 38 ∨ first = 48 ∨ first = 58)

theorem applyNumbers_outcome (self : SgrState) (first : Int) (more : List Int) :
    Outcome first more self (self.applyNumbers (first :: more)) := by
  have extends_ : ∀ (color : SgrColor) (set : SgrColor × Bool → SgrState),
      (first = 38 ∨ first = 48 ∨ first = 58) →
      (∀ new, Fits color new → Applies first self (set (new, true))) →
      (∀ new, set (new, false) = set (new, true)) →
      Outcome first more self ((color.fromExtended more).map set) := by
    intro color set which sets same
    cases extended : color.fromExtended more with
    | none =>
      exact ⟨fromExtended_eq_none extended, which⟩
    | some new =>
      have applies := sets new.1 (fromExtended_fits extended)
      obtain ⟨new, full⟩ := new
      cases full with
      | true => exact applies
      | false =>
        show Applies first self (set (new, false))
        rw [same]
        exact applies
  unfold SgrState.applyNumbers
  dsimp only
  by_cases h0 : first = 0
  · rw [if_pos h0]
    exact Applies.reset h0
  rw [if_neg h0]
  by_cases h1 : first = 1
  · rw [if_pos h1]
    exact Applies.intensity true false (by decide) (Or.inr (Or.inl h1))
  rw [if_neg h1]
  by_cases h2 : first = 2
  · rw [if_pos h2]
    exact Applies.intensity false true (by decide) (Or.inr (Or.inr (Or.inl h2)))
  rw [if_neg h2]
  by_cases h22 : first = 22
  · rw [if_pos h22]
    exact Applies.intensity false false (by decide) (Or.inr (Or.inr (Or.inr h22)))
  rw [if_neg h22]
  by_cases h3 : first = 3
  · rw [if_pos h3]
    exact Applies.italic true (Or.inr (Or.inl h3))
  rw [if_neg h3]
  by_cases h23 : first = 23
  · rw [if_pos h23]
    exact Applies.italic false (Or.inr (Or.inr h23))
  rw [if_neg h23]
  by_cases h7 : first = 7
  · rw [if_pos h7]
    exact Applies.reverse true (Or.inr (Or.inl h7))
  rw [if_neg h7]
  by_cases h27 : first = 27
  · rw [if_pos h27]
    exact Applies.reverse false (Or.inr (Or.inr h27))
  rw [if_neg h27]
  by_cases h9 : first = 9
  · rw [if_pos h9]
    exact Applies.strikethrough true (Or.inr (Or.inl h9))
  rw [if_neg h9]
  by_cases h29 : first = 29
  · rw [if_pos h29]
    exact Applies.strikethrough false (Or.inr (Or.inr h29))
  rw [if_neg h29]
  by_cases h24 : first = 24
  · rw [if_pos h24]
    exact Applies.underline .noUnderline (by decide) (Or.inr (Or.inr h24))
  rw [if_neg h24]
  by_cases h4 : first = 4
  · rw [if_pos h4]
    exact setUnderline_applies self (Or.inr (Or.inl h4)) _
  rw [if_neg h4]
  by_cases h30 : 30 ≤ first ∧ first ≤ 37
  · rw [if_pos h30]
    apply Applies.foreground
    · intro _
      dsimp only
      omega
    · exact Or.inr (Or.inl (by omega))
  rw [if_neg h30]
  by_cases h90 : 90 ≤ first ∧ first ≤ 97
  · rw [if_pos h90]
    apply Applies.foreground
    · intro _
      dsimp only
      omega
    · exact Or.inr (Or.inr (by omega))
  rw [if_neg h90]
  by_cases h38 : first = 38
  · rw [if_pos h38]
    apply extends_ self.fg (fun fg => { self with fg := fg.1 }) (Or.inl h38)
    · intro new fits
      apply Applies.foreground new fits
      exact Or.inr (Or.inl ⟨by omega, by omega⟩)
    · intro new
      rfl
  rw [if_neg h38]
  by_cases h39 : first = 39
  · rw [if_pos h39]
    apply Applies.foreground
    · intro _
      dsimp only
      omega
    · exact Or.inr (Or.inl (by omega))
  rw [if_neg h39]
  by_cases h40 : 40 ≤ first ∧ first ≤ 47
  · rw [if_pos h40]
    apply Applies.background
    · intro _
      dsimp only
      omega
    · exact Or.inr (Or.inl (by omega))
  rw [if_neg h40]
  by_cases h100 : 100 ≤ first ∧ first ≤ 107
  · rw [if_pos h100]
    apply Applies.background
    · intro _
      dsimp only
      omega
    · exact Or.inr (Or.inr (by omega))
  rw [if_neg h100]
  by_cases h48 : first = 48
  · rw [if_pos h48]
    apply extends_ self.bg (fun bg => { self with bg := bg.1 }) (Or.inr (Or.inl h48))
    · intro new fits
      apply Applies.background new fits
      exact Or.inr (Or.inl ⟨by omega, by omega⟩)
    · intro new
      rfl
  rw [if_neg h48]
  by_cases h49 : first = 49
  · rw [if_pos h49]
    apply Applies.background
    · intro _
      dsimp only
      omega
    · exact Or.inr (Or.inl (by omega))
  rw [if_neg h49]
  by_cases h58 : first = 58
  · rw [if_pos h58]
    apply extends_ self.uc (fun uc => { self with uc := uc.1 }) (Or.inr (Or.inr h58))
    · intro new fits
      apply Applies.underlineColor new fits
      exact Or.inr (Or.inl h58)
    · intro new
      rfl
  rw [if_neg h58]
  by_cases h59 : first = 59
  · rw [if_pos h59]
    apply Applies.underlineColor
    · intro _
      dsimp only
      omega
    · exact Or.inr (Or.inr (by omega))
  rw [if_neg h59]
  exact Applies.nothing

/-- A component that the parameter does not name stays as it is. -/
theorem Applies.keeps {first : Int} {self next : SgrState} (applies : Applies first self next)
    {component : Component} (unnamed : ¬component.NamedBy first) : component.Same self next := by
  cases applies with
  | reset zero =>
    apply absurd _ unnamed
    cases component <;> exact Or.inl zero
  | nothing => exact Component.Same.refl self component
  | intensity _ _ _ named =>
    cases component with
    | intensity => exact absurd named unnamed
    | _ => simp [Component.Same]
  | italic _ named =>
    cases component with
    | italic => exact absurd named unnamed
    | _ => simp [Component.Same]
  | reverse _ named =>
    cases component with
    | reverse => exact absurd named unnamed
    | _ => simp [Component.Same]
  | strikethrough _ named =>
    cases component with
    | strikethrough => exact absurd named unnamed
    | _ => simp [Component.Same]
  | underline _ _ named =>
    cases component with
    | underline => exact absurd named unnamed
    | _ => simp [Component.Same]
  | foreground _ _ named =>
    cases component with
    | foreground => exact absurd named unnamed
    | _ => simp [Component.Same]
  | background _ _ named =>
    cases component with
    | background => exact absurd named unnamed
    | _ => simp [Component.Same]
  | underlineColor _ _ named =>
    cases component with
    | underlineColor => exact absurd named unnamed
    | _ => simp [Component.Same]

theorem Applies.sound {first : Int} {self next : SgrState} (applies : Applies first self next)
    (sound : self.Sound) : next.Sound := by
  obtain ⟨apart, styled, fgRange, bgRange, ucRange⟩ := sound
  cases applies with
  | reset => exact ⟨by simp, by simp, by simp, by simp, by simp⟩
  | intensity _ _ apart => exact ⟨apart, styled, fgRange, bgRange, ucRange⟩
  | underline _ drawn => exact ⟨apart, drawn, fgRange, bgRange, ucRange⟩
  | foreground _ fits => exact ⟨apart, styled, fits fgRange, bgRange, ucRange⟩
  | background _ fits => exact ⟨apart, styled, fgRange, fits bgRange, ucRange⟩
  | underlineColor _ fits => exact ⟨apart, styled, fgRange, bgRange, fits ucRange⟩
  | _ => exact ⟨apart, styled, fgRange, bgRange, ucRange⟩

/-- A parameter panics exactly if it asks for an extended colour without a further number. -/
theorem applyNumbers_eq_none_iff {self : SgrState} {numbers : List Int} :
    self.applyNumbers numbers = none ↔ numbers = [38] ∨ numbers = [48] ∨ numbers = [58] := by
  constructor
  · intro h
    cases numbers with
    | nil => cases h
    | cons first more =>
      have outcome := applyNumbers_outcome self first more
      rw [h] at outcome
      obtain ⟨rfl, rfl | rfl | rfl⟩ := outcome
      · exact Or.inl rfl
      · exact Or.inr (Or.inl rfl)
      · exact Or.inr (Or.inr rfl)
  · rintro (rfl | rfl | rfl) <;> rfl

/-! ### Runs over the parameters of a sequence -/

/-- What `apply_csi` does with the parameters of a sequence. -/
def SgrState.applyParts (self : SgrState) (parts : List Text) : Option SgrState :=
  parts.foldlM (fun self part => self.applyNumbers (numbersOf part)) self

theorem SgrState.applyParts_cons (self : SgrState) (part : Text) (parts : List Text) :
    self.applyParts (part :: parts) =
      (self.applyNumbers (numbersOf part)).bind fun next => next.applyParts parts :=
  List.foldlM_cons

theorem applyCsi_concat (self : SgrState) (params : Text) :
    self.applyCsi (params ++ [ord 'm']) = self.applyParts (csiParts params) := by
  unfold SgrState.applyCsi SgrState.applyParts
  rw [if_neg (by simp), List.dropLast_concat]

/-- No parameter asks for an extended colour without a further number. -/
def Complete (parts : List Text) : Prop :=
  ∀ part ∈ parts, numbersOf part ≠ [38] ∧ numbersOf part ≠ [48] ∧ numbersOf part ≠ [58]

/-- The parameters of a sequence panic exactly if one of them does. -/
theorem applyParts_isSome_iff (self : SgrState) (parts : List Text) :
    (∃ next, self.applyParts parts = some next) ↔ Complete parts := by
  induction parts generalizing self with
  | nil => exact iff_of_true ⟨self, rfl⟩ fun part mem => absurd mem List.not_mem_nil
  | cons part parts ih =>
    rw [SgrState.applyParts_cons]
    cases applied : self.applyNumbers (numbersOf part) with
    | none =>
      apply iff_of_false
      · rintro ⟨next, h⟩
        cases h
      · intro complete
        obtain ⟨h38, h48, h58⟩ := complete part List.mem_cons_self
        rcases applyNumbers_eq_none_iff.1 applied with lone | lone | lone
        · exact h38 lone
        · exact h48 lone
        · exact h58 lone
    | some next =>
      have fine : ¬(numbersOf part = [38] ∨ numbersOf part = [48] ∨ numbersOf part = [58]) := by
        intro lone
        rw [applyNumbers_eq_none_iff.2 lone] at applied
        cases applied
      rw [Option.bind_some, ih next]
      unfold Complete
      rw [List.forall_mem_cons]
      constructor
      · intro rest
        exact ⟨by simpa using fine, rest⟩
      · intro all
        exact all.2

theorem applyNumbers_sound {self next : SgrState} {numbers : List Int}
    (h : self.applyNumbers numbers = some next) (sound : self.Sound) : next.Sound := by
  cases numbers with
  | nil =>
    rw [← Option.some.inj h]
    exact sound
  | cons first more =>
    have outcome := applyNumbers_outcome self first more
    rw [h] at outcome
    exact Applies.sound outcome sound

theorem applyParts_sound {self next : SgrState} {parts : List Text}
    (h : self.applyParts parts = some next) (sound : self.Sound) : next.Sound := by
  induction parts generalizing self with
  | nil =>
    rw [← Option.some.inj h]
    exact sound
  | cons part parts ih =>
    obtain ⟨middle, first, rest⟩ := Option.bind_eq_some_iff.1 h
    exact ih rest (applyNumbers_sound first sound)

/-- The components that no parameter names stay as they are. -/
theorem applyParts_keeps {self next : SgrState} {parts : List Text}
    (h : self.applyParts parts = some next) {component : Component}
    (unnamed : ∀ part ∈ parts, ∀ first more, numbersOf part = first :: more →
      ¬component.NamedBy first) : component.Same self next := by
  induction parts generalizing self with
  | nil =>
    rw [← Option.some.inj h]
    exact Component.Same.refl self component
  | cons part parts ih =>
    rw [SgrState.applyParts_cons] at h
    obtain ⟨middle, first, rest⟩ := Option.bind_eq_some_iff.1 h
    have later := ih rest fun other mem => unnamed other (List.mem_cons_of_mem part mem)
    apply Component.Same.trans _ later
    have here := unnamed part List.mem_cons_self
    cases numbers : numbersOf part with
    | nil =>
      rw [numbers] at first
      rw [← Option.some.inj first]
      exact Component.Same.refl self component
    | cons number more =>
      have outcome := applyNumbers_outcome self number more
      rw [← numbers, first] at outcome
      exact Applies.keeps outcome (here number more numbers)

/-! ### Round trips -/

/-- The renditions that SGR sequences make, from the empty one on. -/
inductive Reachable : SgrState → Prop where
  | empty : Reachable {}
  | apply {self next : SgrState} (reachable : Reachable self) (raw : Text)
      (applied : self.applyCsi raw = some next) : Reachable next

theorem Reachable.sound {self : SgrState} (reachable : Reachable self) : self.Sound := by
  induction reachable with
  | empty => exact ⟨by simp, by simp, by simp, by simp, by simp⟩
  | apply _ raw applied ih =>
    unfold SgrState.applyCsi at applied
    split at applied
    · rw [← Option.some.inj applied]
      exact ih
    · exact applyParts_sound applied ih

/-- The two ways to have no underline are one. -/
def SgrState.plain (self : SgrState) : SgrState :=
  if self.underlineStyle = .nilUnderline then { self with underlineStyle := .noUnderline } else self

/-- What `as_sgr` reads of a colour: the components only of a colour that is its own. -/
def SgrColor.shown (self : SgrColor) : SgrColor :=
  if self.number < 0 then self else { number := self.number }

/-- What `as_sgr` reads of a rendition. -/
def SgrState.shown (self : SgrState) : SgrState :=
  { self.plain with fg := self.fg.shown, bg := self.bg.shown, uc := self.uc.shown }

/-- The parameters of a rendition give it back. -/
def RoundTrips (self : SgrState) : Prop :=
  ∃ back, ({} : SgrState).applyCsi (self.asSgr false ++ [ord 'm']) = some back ∧
    back.plain = self.plain

/-- The parameters of a rendition give back what it shows. -/
def ShownRoundTrips (self : SgrState) : Prop :=
  ∃ back, ({} : SgrState).applyCsi (self.asSgr false ++ [ord 'm']) = some back ∧
    back.shown = self.shown

/-- A sequence does not panic, and changes nothing that it does not name. -/
def Respects (self : SgrState) (params : Text) : Prop :=
  ∃ next, self.applyCsi (params ++ [ord 'm']) = some next ∧
    ∀ component : Component, ¬component.NamedIn params → component.Same self next

/-- A colour is none of the bright ones where these have codes of their own, and it has no index
below the palette. -/
def SgrColor.Printable (self : SgrColor) (base : Nat) : Prop :=
  -1 ≤ self.number ∧ ((base = 30 ∨ base = 40) → ¬(9 ≤ self.number ∧ self.number ≤ 16))

/-- No components are left over from an earlier colour. -/
def SgrColor.Clear (self : SgrColor) : Prop := 0 ≤ self.number → self.color = {}

/-- A colour of a palette is given back if its code is its own. -/
theorem SgrColor.readBack_number_iff (self : SgrColor) (base : Nat) :
    (self.readBack base).number = self.number ↔ self.Printable base := by
  unfold SgrColor.readBack SgrColor.Printable
  split_ifs with zero positive bright last
  · simp [zero]
  · simp only [last]
    omega
  · dsimp only
    omega
  · constructor
    · intro _
      exact ⟨by omega, fun base inside => bright ⟨base, inside⟩⟩
    · intro _
      rfl
  · dsimp only
    omega

/-- The components are given back for a colour of its own, and are cleared for the others. -/
theorem SgrColor.readBack_color (self : SgrColor) (base : Nat) :
    (self.readBack base).color = if self.number < 0 then self.color else {} := by
  unfold SgrColor.readBack
  split_ifs with zero _ _ _ negative negative negative negative <;> first | rfl | omega

theorem SgrColor.readBack_shown_iff (self : SgrColor) (base : Nat) :
    (self.readBack base).shown = self.shown ↔ self.Printable base := by
  rw [← SgrColor.readBack_number_iff]
  have number : ∀ color : SgrColor, color.shown.number = color.number := by
    intro color
    unfold SgrColor.shown
    split <;> rfl
  constructor
  · intro same
    rw [← number, same, number]
  · intro same
    unfold SgrColor.shown
    rw [same]
    split
    · rename_i negative
      apply SgrColor.ext same
      rw [self.readBack_color base, if_pos negative]
    · rfl

theorem SgrColor.readBack_eq_iff (self : SgrColor) (base : Nat) :
    self.readBack base = self ↔ self.Printable base ∧ self.Clear := by
  rw [← SgrColor.readBack_number_iff]
  have color := self.readBack_color base
  constructor
  · intro same
    rw [same] at color ⊢
    refine ⟨rfl, fun shown => ?_⟩
    rw [color, if_neg (by omega)]
  · rintro ⟨number, clear⟩
    have same : (self.readBack base).color = self.color := by
      rw [color]
      split
      · rfl
      · exact (clear (by omega)).symm
    exact SgrColor.ext number same

theorem plain_of_sound {self : SgrState} (sound : self.Sound) : self.plain = self :=
  if_neg sound.styled

theorem plain_readBack {self : SgrState} (sound : self.Sound) :
    self.readBack.plain = self.readBack := if_neg sound.styled

/-- The whole rendition is given back exactly if its colours are. -/
theorem roundTrips_iff {self : SgrState} (sound : self.Sound) :
    RoundTrips self ↔ (self.fg.Printable 30 ∧ self.fg.Clear) ∧
      (self.bg.Printable 40 ∧ self.bg.Clear) ∧ (self.uc.Printable 50 ∧ self.uc.Clear) := by
  rw [← SgrColor.readBack_eq_iff, ← SgrColor.readBack_eq_iff, ← SgrColor.readBack_eq_iff]
  unfold RoundTrips
  rw [applyCsi_asSgr sound, plain_of_sound sound]
  constructor
  · rintro ⟨back, read, same⟩
    rw [← Option.some.inj read, plain_readBack sound] at same
    exact ⟨congrArg SgrState.fg same, congrArg SgrState.bg same, congrArg SgrState.uc same⟩
  · rintro ⟨fg, bg, uc⟩
    refine ⟨_, rfl, ?_⟩
    rw [plain_readBack sound]
    unfold SgrState.readBack
    rw [fg, bg, uc]

/-- What a rendition shows is given back exactly if its colours are. -/
theorem shownRoundTrips_iff {self : SgrState} (sound : self.Sound) :
    ShownRoundTrips self ↔
      self.fg.Printable 30 ∧ self.bg.Printable 40 ∧ self.uc.Printable 50 := by
  rw [← SgrColor.readBack_shown_iff, ← SgrColor.readBack_shown_iff, ← SgrColor.readBack_shown_iff]
  unfold ShownRoundTrips SgrState.shown
  rw [applyCsi_asSgr sound, plain_of_sound sound]
  constructor
  · rintro ⟨back, read, same⟩
    rw [← Option.some.inj read] at same
    exact ⟨congrArg SgrState.fg same, congrArg SgrState.bg same, congrArg SgrState.uc same⟩
  · rintro ⟨fg, bg, uc⟩
    refine ⟨_, rfl, ?_⟩
    rw [plain_readBack sound]
    unfold SgrState.readBack
    rw [fg, bg, uc]

/-- A sequence is respectful exactly if it does not panic. -/
theorem respects_iff (self : SgrState) (params : Text) :
    Respects self params ↔ Complete (csiParts params) := by
  rw [← applyParts_isSome_iff self]
  unfold Respects
  rw [applyCsi_concat]
  constructor
  · rintro ⟨next, applied, -⟩
    exact ⟨next, applied⟩
  · rintro ⟨next, applied⟩
    refine ⟨next, applied, fun component unnamed => ?_⟩
    apply applyParts_keeps applied
    intro part mem first more numbers named
    exact unnamed ⟨part, mem, first, more, numbers, named⟩

/-- A rendition that SGR sequences make is given back by its own parameters exactly if none of its
colours is a bright one with a code of its own or lies below the palette, and, of what it does not
show, if no components are left over; a sequence panics exactly if it asks for an extended colour
without a further number, and else changes only what it names. -/
theorem sgrStateRoundTrip (self : SgrState) :
    (Reachable self →
      (RoundTrips self ↔ (self.fg.Printable 30 ∧ self.fg.Clear) ∧
        (self.bg.Printable 40 ∧ self.bg.Clear) ∧ (self.uc.Printable 50 ∧ self.uc.Clear)) ∧
      (ShownRoundTrips self ↔
        self.fg.Printable 30 ∧ self.bg.Printable 40 ∧ self.uc.Printable 50)) ∧
    ∀ params : Text, Respects self params ↔ Complete (csiParts params) :=
  ⟨fun reachable => ⟨roundTrips_iff reachable.sound, shownRoundTrips_iff reachable.sound⟩,
    respects_iff self⟩

/-- A curly underline and a colour of each form. -/
def decorated : SgrState :=
  { bold := true, underlineStyle := .curlyUnderline
    fg := { number := 2 }
    bg := { number := 201 }
    uc := { number := -1, color := { red := 1, green := 2, blue := 3 } } }

theorem decorated_reachable : Reachable decorated :=
  .apply .empty (chars "1;4:3;31;48:5:200;58:2:1:2:3m") (by decide +kernel)

/-- It is given back. -/
theorem sgrStateRoundTrip_decorated : RoundTrips decorated :=
  ((sgrStateRoundTrip decorated).1 decorated_reachable).1.2
    ⟨⟨⟨by decide, by decide⟩, by intro; rfl⟩, ⟨⟨by decide, by decide⟩, by intro; rfl⟩,
      ⟨by decide, by decide⟩, by intro shown; exact absurd shown (by decide)⟩

/-- The second bright colour becomes the third, and a lone 38 panics. -/
theorem sgrState_bright :
    (∃ self, Reachable self ∧ ¬RoundTrips self) ∧ ¬Respects {} (chars "38;5;1") := by
  constructor
  · refine ⟨{ fg := { number := 10 } }, .apply .empty (chars "91m") (by decide +kernel), ?_⟩
    rintro ⟨back, read, same⟩
    rw [← Option.some.inj read] at same
    exact absurd same (by decide)
  · rintro ⟨next, applied, -⟩
    cases applied

end Style

end Smelly
