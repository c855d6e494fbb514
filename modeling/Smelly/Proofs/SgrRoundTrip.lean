/-
Module: Smelly.Proofs.SgrRoundTrip
Purpose: Printing the difference of two renditions and applying it.  The printed text is a list of
  items, and each of them sets one part of the rendition.
Trusted boundary: none
-/
import Mathlib.Tactic.IntervalCases
import Smelly.Proofs.SgrGrammar

namespace Smelly

/-! ### Colours -/

/-- A true colour, as `parse_color` stores it. -/
def rgbColor (r g b : Nat) : UInt32 :=
  (UInt32.ofNat r <<< 24) ||| (UInt32.ofNat g <<< 16) ||| (UInt32.ofNat b <<< 8) ||| 2

/-- The colours an SGR sequence can set. -/
inductive SgrColor : UInt32 → Prop
  | reset : SgrColor 0
  | palette {index : Nat} (h : index < 256) : SgrColor (paletteColor index)
  | rgb {r g b : Nat} (hr : r < 256) (hg : g < 256) (hb : b < 256) : SgrColor (rgbColor r g b)

/-- The bytes of a true colour do not overlap. -/
theorem rgbColor_toNat {r g b : Nat} (hr : r < 256) (hg : g < 256) (hb : b < 256) :
    (rgbColor r g b).toNat = 2 ^ 24 * r + (2 ^ 16 * g + (2 ^ 8 * b + 2)) := by
  have shifted : ∀ {n k : Nat}, n < 256 → k ≤ 24 →
      (UInt32.ofNat n <<< UInt32.ofNat k).toNat = 2 ^ k * n := by
    intro n k hn hk
    have small : n < 2 ^ 32 := by omega
    have power : 2 ^ k ≤ 2 ^ 24 := Nat.pow_le_pow_right (by decide) hk
    have fits : 2 ^ k * n < 2 ^ 32 := by
      calc 2 ^ k * n ≤ 2 ^ 24 * n := Nat.mul_le_mul_right n power
        _ < 2 ^ 32 := by omega
    rw [UInt32.toNat_shiftLeft, UInt32.toNat_ofNat', UInt32.toNat_ofNat',
      Nat.mod_eq_of_lt small, Nat.mod_eq_of_lt (by omega : k < 2 ^ 32),
      Nat.mod_eq_of_lt (by omega : k < 32), Nat.shiftLeft_eq, Nat.mul_comm n,
      Nat.mod_eq_of_lt fits]
  have hr' := shifted (k := 24) hr (by decide)
  have hg' := shifted (k := 16) hg (by decide)
  have hb' := shifted (k := 8) hb (by decide)
  change ((UInt32.ofNat r <<< UInt32.ofNat 24).toNat ||| (UInt32.ofNat g <<< UInt32.ofNat 16).toNat |||
    (UInt32.ofNat b <<< UInt32.ofNat 8).toNat ||| 2) = _
  rw [hr', hg', hb', Nat.or_assoc, Nat.or_assoc,
    ← Nat.two_pow_add_eq_or_of_lt (by omega : 2 < 2 ^ 8) b,
    ← Nat.two_pow_add_eq_or_of_lt (by omega : 2 ^ 8 * b + 2 < 2 ^ 16) g,
    ← Nat.two_pow_add_eq_or_of_lt (by omega : 2 ^ 16 * g + (2 ^ 8 * b + 2) < 2 ^ 24) r]

/-- A byte of a colour. -/
theorem colorByte_toNat (val : UInt32) {k : Nat} (hk : k < 32) :
    ((val >>> UInt32.ofNat k) &&& 0xff).toNat = val.toNat / 2 ^ k % 256 := by
  rw [UInt32.toNat_and, UInt32.toNat_shiftRight, UInt32.toNat_ofNat',
    Nat.mod_eq_of_lt (by omega : k < 2 ^ 32), Nat.mod_eq_of_lt hk, Nat.shiftRight_eq_div_pow]
  exact Nat.and_two_pow_sub_one_eq_mod _ 8

/-- The item `color_as_sgr` prints. -/
def colorItem (val : UInt32) (simpleCode aixCode complexCode : Nat) : List Nat :=
  if val &&& 0xff = 1 then
    let val := val >>> 8
    if val < 16 ∧ simpleCode ≠ 0 then
      [if val < 8 then simpleCode + val.toNat else aixCode + (val - 8).toNat]
    else [complexCode, 5, val.toNat]
  else if val &&& 0xff = 2 then
    [complexCode, 2, ((val >>> 24) &&& 0xff).toNat, ((val >>> 16) &&& 0xff).toNat,
      ((val >>> 8) &&& 0xff).toNat]
  else [complexCode + 1]

theorem colorAsSgr_eq_itemText (val : UInt32) (simpleCode aixCode complexCode : Nat) :
    colorAsSgr val simpleCode aixCode complexCode =
      itemText (colorItem val simpleCode aixCode complexCode) ++ [ord ';'] := by
  have five : chars ":5:" = ord ':' :: (decimalText 5 ++ [ord ':']) := by decide
  have two : chars ":2:" = ord ':' :: (decimalText 2 ++ [ord ':']) := by decide
  have colon : chars ":" = [ord ':'] := by decide
  have semicolon : chars ";" = [ord ';'] := by decide
  unfold colorAsSgr colorItem
  dsimp only
  split
  · split
    · rfl
    · simp [itemText, five, semicolon]
  · split
    · simp [itemText, two, colon, semicolon]
    · rfl

theorem paletteColor_spec : ∀ index < 256, paletteColor (index : Nat) &&& 0xff = 1 ∧
    (paletteColor (index : Nat) >>> 8).toNat = index := by
  decide +kernel

theorem rgbColor_spec {r g b : Nat} (hr : r < 256) (hg : g < 256) (hb : b < 256) :
    rgbColor r g b &&& 0xff = 2 ∧ ((rgbColor r g b >>> 24) &&& 0xff).toNat = r ∧
      ((rgbColor r g b >>> 16) &&& 0xff).toNat = g ∧
      ((rgbColor r g b >>> 8) &&& 0xff).toNat = b := by
  have value := rgbColor_toNat hr hg hb
  refine ⟨UInt32.toNat_inj.1 ?_, ?_, ?_, ?_⟩
  · rw [UInt32.toNat_and, value]
    change _ &&& 2 ^ 8 - 1 = 2
    rw [Nat.and_two_pow_sub_one_eq_mod]
    omega
  · exact (colorByte_toNat _ (k := 24) (by decide)).trans (by rw [value]; omega)
  · exact (colorByte_toNat _ (k := 16) (by decide)).trans (by rw [value]; omega)
  · exact (colorByte_toNat _ (k := 8) (by decide)).trans (by rw [value]; omega)

/-- What `color_as_sgr` prints for the colours that can be set. -/
inductive PrintedColor (simpleCode aixCode complexCode : Nat) : UInt32 → List Nat → Prop
  | reset : PrintedColor simpleCode aixCode complexCode 0 [complexCode + 1]
  | simple {index : Nat} (h : index < 8) (has : simpleCode ≠ 0) :
      PrintedColor simpleCode aixCode complexCode (paletteColor index) [simpleCode + index]
  | aix {index : Nat} (h : index < 8) (has : simpleCode ≠ 0) :
      PrintedColor simpleCode aixCode complexCode (paletteColor (index + 8 : Nat)) [aixCode + index]
  | palette {index : Nat} (h : index < 256) :
      PrintedColor simpleCode aixCode complexCode (paletteColor index) [complexCode, 5, index]
  | rgb {r g b : Nat} (hr : r < 256) (hg : g < 256) (hb : b < 256) :
      PrintedColor simpleCode aixCode complexCode (rgbColor r g b) [complexCode, 2, r, g, b]

theorem colorItem_printed {val : UInt32} (h : SgrColor val) (simpleCode aixCode complexCode : Nat) :
    PrintedColor simpleCode aixCode complexCode val
      (colorItem val simpleCode aixCode complexCode) := by
  cases h with
  | reset => exact .reset
  | @palette index h =>
    obtain ⟨kind, value⟩ := paletteColor_spec index h
    have below : ∀ n : Nat, n < 2 ^ 32 →
        (paletteColor index >>> 8 < UInt32.ofNat n ↔ index < n) := by
      intro n hn
      rw [UInt32.lt_iff_toNat_lt, value, UInt32.toNat_ofNat', Nat.mod_eq_of_lt hn]
    have lt16 := below 16 (by decide)
    have lt8 := below 8 (by decide)
    change _ < (8 : UInt32) ↔ _ at lt8
    unfold colorItem
    rw [if_pos kind]
    by_cases named : index < 16 ∧ simpleCode ≠ 0
    · rw [if_pos ⟨lt16.2 named.1, named.2⟩]
      by_cases low : index < 8
      · rw [if_pos (lt8.2 low), value]
        exact .simple low named.2
      · rw [if_neg fun h => low (lt8.1 h)]
        obtain ⟨k, rfl⟩ := Nat.exists_eq_add_of_le' (Nat.not_lt.1 low)
        have rest : (paletteColor (k + 8 : Nat) >>> 8 - 8).toNat = k := by
          rw [UInt32.toNat_sub_of_le _ _ (UInt32.not_lt.1 fun h => low (lt8.1 h)), value]
          exact Nat.add_sub_cancel k 8
        rw [rest]
        exact .aix (by omega) named.2
    · rw [if_neg fun h => named ⟨lt16.1 h.1, h.2⟩, value]
      exact .palette h
  | @rgb r g b hr hg hb =>
    obtain ⟨kind, red, green, blue⟩ := rgbColor_spec hr hg hb
    unfold colorItem
    rw [if_neg (by rw [kind]; decide), if_pos kind, red, green, blue]
    exact .rgb hr hg hb

/-! ### Which renditions are reached -/

/-! ### What is printed -/

/-- The items for bold and dim. -/
def intensityItems (cell prev : CellAttrs) : List (List Nat) :=
  if cell.bold ≠ prev.bold ∨ cell.dim ≠ prev.dim then
    if ¬ cell.bold ∧ ¬ cell.dim then [[22]]
    else (if cell.bold then [[1]] else []) ++ (if cell.dim then [[2]] else [])
  else []

/-- The item for an attribute that has a code to set it and one to clear it. -/
def switchItems (cell prev : Bool) (set clear : Nat) : List (List Nat) :=
  if cell ≠ prev then [[if cell then set else clear]] else []

/-- The item for a colour. -/
def colorItems (cell prev : UInt32) (simpleCode aixCode complexCode : Nat) : List (List Nat) :=
  if cell ≠ prev then [colorItem cell simpleCode aixCode complexCode] else []

/-- The item `decoration_as_sgr` prints. -/
def decorationItem (decoration : Nat) : List Nat :=
  match decoration with
  | 1 => [4]
  | 2 => [4, 2]
  | 3 => [4, 3]
  | _ => [24]

/-- The item for the decoration. -/
def decorationItems (cell prev : Nat) : List (List Nat) :=
  if cell ≠ prev then [decorationItem cell] else []

/-- The items `cell_as_sgr` prints. -/
def sgrItems (cell prev : GPUCell) : List (List Nat) :=
  intensityItems cell.attrs prev.attrs ++
    switchItems cell.attrs.italic prev.attrs.italic 3 23 ++
    switchItems cell.attrs.reverse prev.attrs.reverse 7 27 ++
    switchItems cell.attrs.strike prev.attrs.strike 9 29 ++
    colorItems cell.fg prev.fg 30 90 38 ++
    colorItems cell.bg prev.bg 40 100 48 ++
    colorItems cell.decorationFg prev.decorationFg 0 0 DECORATION_FG_CODE ++
    decorationItems cell.attrs.decoration prev.attrs.decoration

/-- The renditions SGR sequences can give a cell. -/
structure GPUCell.SgrReachable (cell : GPUCell) : Prop where
  decoration : cell.attrs.decoration < 8
  fg : SgrColor cell.fg
  bg : SgrColor cell.bg
  decorationFg : SgrColor cell.decorationFg

/-- The buffer holds the items and not more than `k` characters. -/
structure Printed (k : Nat) (items : List (List Nat)) (buf : Text) : Prop where
  text : buf = itemsText items
  short : buf.length ≤ k

theorem itemsText_append (first second : List (List Nat)) :
    itemsText (first ++ second) = itemsText first ++ itemsText second := List.flatMap_append

variable {k m : Nat} {items more : List (List Nat)} {buf : Text}

theorem Printed.append (h : Printed k items buf) (hm : (itemsText more).length ≤ m) :
    Printed (k + m) (items ++ more) (buf ++ itemsText more) where
  text := by rw [itemsText_append, ← h.text]
  short := by
    rw [List.length_append]
    exact Nat.add_le_add h.short hm

theorem Printed.skip (h : Printed k items buf) (m : Nat) : Printed (k + m) (items ++ []) buf := by
  rw [List.append_nil]
  exact ⟨h.text, Nat.le_add_right_of_le h.short⟩

theorem Printed.appendText (h : Printed k items buf) {text : Text} (htext : text = itemsText more)
    (hm : text.length ≤ m) (fits : k + m < 126) :
    Printed (k + m) (items ++ more) (appendText buf text) := by
  have short := h.short
  have room : text.length < sgrSpace buf := by
    unfold sgrSpace
    omega
  unfold Smelly.appendText
  rw [if_pos room, htext]
  exact h.append (htext ▸ hm)

theorem Printed.appendPrinted (h : Printed k items buf) {text : Text}
    (htext : text = itemsText more) (hm : text.length ≤ m) (fits : k + m < 126) :
    ∃ next, appendPrinted buf text = some next ∧ Printed (k + m) (items ++ more) next := by
  have short := h.short
  have room : text.length < sgrSpace buf := by
    unfold sgrSpace
    omega
  unfold Smelly.appendPrinted
  rw [if_pos room, htext]
  exact ⟨_, rfl, h.append (htext ▸ hm)⟩

theorem printed_intensity (cell prev : CellAttrs) :
    Printed 4 (intensityItems cell prev) (appendIntensity [] cell prev) := by
  unfold intensityItems appendIntensity
  split
  · split
    · exact ⟨by decide, by decide⟩
    · cases cell.bold <;> cases cell.dim <;> exact ⟨by decide, by decide⟩
  · exact ⟨rfl, by decide⟩

theorem Printed.switch (h : Printed k items buf) (fits : k + 3 < 126) (cell prev : Bool)
    (set clear : Nat) (setText clearText : Text)
    (hset : setText = itemsText [[set]] ∧ setText.length ≤ 3)
    (hclear : clearText = itemsText [[clear]] ∧ clearText.length ≤ 3) :
    Printed (k + 3) (items ++ switchItems cell prev set clear)
      (appendSwitch buf cell prev setText clearText) := by
  unfold switchItems appendSwitch
  split
  · cases cell with
    | true => exact h.appendText hset.1 hset.2 fits
    | false => exact h.appendText hclear.1 hclear.2 fits
  · exact h.skip 3

theorem colorItem_short {val : UInt32} {item : List Nat} {simpleCode aixCode complexCode : Nat}
    (h : PrintedColor simpleCode aixCode complexCode val item) (hs : simpleCode ≤ 40)
    (ha : aixCode ≤ 100) (hc : complexCode ≤ 58) :
    (itemsText [item]).length ≤ 20 ∧ ∀ n ∈ item, n < 256 := by
  have digits : ∀ n < 256, (decimalText n).length ≤ 3 := fun n hn => (decimalText_spec n hn).2.2.2
  cases h with
  | reset =>
    have := digits (complexCode + 1) (by omega)
    simp [itemsText, itemText]
    omega
  | @simple index h has =>
    have := digits (simpleCode + index) (by omega)
    simp [itemsText, itemText]
    omega
  | @aix index h has =>
    have := digits (aixCode + index) (by omega)
    simp [itemsText, itemText]
    omega
  | @palette index h =>
    have d1 := digits complexCode (by omega)
    have d2 := digits 5 (by omega)
    have d3 := digits index h
    simp [itemsText, itemText]
    omega
  | @rgb r g b hr hg hb =>
    have d1 := digits complexCode (by omega)
    have d2 := digits 2 (by omega)
    have d3 := digits r hr
    have d4 := digits g hg
    have d5 := digits b hb
    simp [itemsText, itemText]
    omega

theorem Printed.color (h : Printed k items buf) (fits : k + 20 < 126) {cell : UInt32}
    (reachable : SgrColor cell) (prev : UInt32) {simpleCode aixCode complexCode : Nat}
    (hs : simpleCode ≤ 40) (ha : aixCode ≤ 100) (hc : complexCode ≤ 58) :
    ∃ next, appendColor buf cell prev simpleCode aixCode complexCode = some next ∧
      Printed (k + 20) (items ++ colorItems cell prev simpleCode aixCode complexCode) next := by
  have printed := colorItem_printed reachable simpleCode aixCode complexCode
  unfold colorItems appendColor
  split
  · have text := colorAsSgr_eq_itemText cell simpleCode aixCode complexCode
    have listed : colorAsSgr cell simpleCode aixCode complexCode =
        itemsText [colorItem cell simpleCode aixCode complexCode] := by
      rw [text]
      simp [itemsText]
    have short := (colorItem_short printed hs ha hc).1
    rw [← listed] at short
    exact h.appendPrinted listed short fits
  · exact ⟨buf, rfl, h.skip 20⟩

theorem decorationAsSgr_eq_itemsText (decoration : Nat) :
    decorationAsSgr decoration = itemsText [decorationItem decoration] ∧
      (decorationAsSgr decoration).length ≤ 4 := by
  match decoration with
  | 0 | 1 | 2 | 3 => decide
  | n + 4 => exact ⟨(by decide : chars "24;" = itemsText [[24]]), (by decide : 3 ≤ 4)⟩

theorem Printed.decoration (h : Printed k items buf) (fits : k + 4 < 126) (cell prev : Nat) :
    Printed (k + 4) (items ++ decorationItems cell prev) (appendDecoration buf cell prev) := by
  obtain ⟨text, short⟩ := decorationAsSgr_eq_itemsText cell
  unfold decorationItems appendDecoration
  split
  · exact h.appendText text short fits
  · exact h.skip 4

/-- `cell_as_sgr` prints the items, and they fit into its buffer. -/
theorem cellAsSgr_eq_itemsText {cell : GPUCell} (reachable : cell.SgrReachable) (prev : GPUCell) :
    cellAsSgr cell prev = some (itemsText (sgrItems cell prev)).dropLast := by
  have intensity := printed_intensity cell.attrs prev.attrs
  have italic := intensity.switch (by decide) cell.attrs.italic prev.attrs.italic 3 23
    (chars "3;") (chars "23;") (by decide) (by decide)
  have reverse := italic.switch (by decide) cell.attrs.reverse prev.attrs.reverse 7 27
    (chars "7;") (chars "27;") (by decide) (by decide)
  have strike := reverse.switch (by decide) cell.attrs.strike prev.attrs.strike 9 29
    (chars "9;") (chars "29;") (by decide) (by decide)
  obtain ⟨b1, fgEq, fg⟩ := strike.color (by decide) reachable.fg prev.fg
    (by decide : 30 ≤ 40) (by decide : 90 ≤ 100) (by decide : 38 ≤ 58)
  obtain ⟨b2, bgEq, bg⟩ := fg.color (by decide) reachable.bg prev.bg
    (by decide : 40 ≤ 40) (by decide : 100 ≤ 100) (by decide : 48 ≤ 58)
  obtain ⟨b3, decorationFgEq, decorationFg⟩ := bg.color (by decide) reachable.decorationFg
    prev.decorationFg (by decide : 0 ≤ 40) (by decide : 0 ≤ 100)
    (by decide : DECORATION_FG_CODE ≤ 58)
  have final := decorationFg.decoration (by decide) cell.attrs.decoration prev.attrs.decoration
  unfold cellAsSgr
  dsimp only
  rw [fgEq]
  dsimp only [Option.bind_eq_bind, Option.bind_some]
  rw [bgEq]
  dsimp only [Option.bind_some]
  rw [decorationFgEq]
  dsimp only [Option.bind_some]
  rw [final.text]
  rfl

theorem plainItem_color {val : UInt32} (reachable : SgrColor val)
    {simpleCode aixCode complexCode : Nat} (hs : 0 < simpleCode → simpleCode = 30 ∨ simpleCode = 40)
    (ha : 0 < simpleCode → aixCode = 90 ∨ aixCode = 100) (ha' : aixCode ≤ 100)
    (hc : complexCode = 38 ∨ complexCode = 48 ∨ complexCode = 58) :
    PlainItem (colorItem val simpleCode aixCode complexCode) := by
  have printed := colorItem_printed reachable simpleCode aixCode complexCode
  have small := (colorItem_short printed (by omega) ha' (by omega)).2
  generalize colorItem val simpleCode aixCode complexCode = item at printed small
  refine ⟨?_, ?_, small, ?_⟩
  · cases printed <;> simp
  · cases printed <;> simp
  · cases printed <;> simp <;> omega

theorem plainItem_sgrItems {cell : GPUCell} (reachable : cell.SgrReachable) (prev : GPUCell) :
    ∀ item ∈ sgrItems cell prev, PlainItem item := by
  have single : ∀ n ∈ [1, 2, 22, 3, 23, 7, 27, 9, 29], PlainItem [n] := by
    have listed : ∀ n ∈ [1, 2, 22, 3, 23, 7, 27, 9, 29],
        n < 256 ∧ [n] ≠ [38] ∧ [n] ≠ [48] ∧ [n] ≠ [58] := by decide
    intro n hn
    obtain ⟨small, complete⟩ := listed n hn
    exact ⟨by simp, by simp, fun m hm => List.mem_singleton.1 hm ▸ small, complete⟩
  have switch : ∀ {cell prev : Bool} {set clear : Nat}, PlainItem [set] → PlainItem [clear] →
      ∀ item ∈ switchItems cell prev set clear, PlainItem item := by
    intro cell prev set clear hset hclear item hitem
    unfold switchItems at hitem
    split at hitem
    · obtain rfl := List.mem_singleton.1 hitem
      cases cell
      · exact hclear
      · exact hset
    · cases hitem
  have color : ∀ {cell prev : UInt32} {simpleCode aixCode complexCode : Nat},
      PlainItem (colorItem cell simpleCode aixCode complexCode) →
      ∀ item ∈ colorItems cell prev simpleCode aixCode complexCode, PlainItem item := by
    intro cell prev simpleCode aixCode complexCode plain item hitem
    unfold colorItems at hitem
    split at hitem
    · obtain rfl := List.mem_singleton.1 hitem
      exact plain
    · cases hitem
  intro item hitem
  unfold sgrItems at hitem
  simp only [List.mem_append] at hitem
  rcases hitem with ((((((hitem | hitem) | hitem) | hitem) | hitem) | hitem) | hitem) | hitem
  · unfold intensityItems at hitem
    split at hitem
    · split at hitem
      · exact List.mem_singleton.1 hitem ▸ single 22 (by decide)
      · rcases List.mem_append.1 hitem with bold | dim
        · split at bold
          · exact List.mem_singleton.1 bold ▸ single 1 (by decide)
          · cases bold
        · split at dim
          · exact List.mem_singleton.1 dim ▸ single 2 (by decide)
          · cases dim
    · cases hitem
  · exact switch (single 3 (by decide)) (single 23 (by decide)) item hitem
  · exact switch (single 7 (by decide)) (single 27 (by decide)) item hitem
  · exact switch (single 9 (by decide)) (single 29 (by decide)) item hitem
  · exact color (plainItem_color reachable.fg (by decide) (by decide) (by decide) (by decide))
      item hitem
  · exact color (plainItem_color reachable.bg (by decide) (by decide) (by decide) (by decide))
      item hitem
  · exact color (plainItem_color reachable.decorationFg (by decide) (by decide) (by decide)
      (by decide)) item hitem
  · unfold decorationItems at hitem
    split at hitem
    · obtain rfl := List.mem_singleton.1 hitem
      unfold decorationItem
      split <;> exact ⟨by decide, by decide, by decide, by decide⟩
    · cases hitem

/-! ### What the items do -/

/-- The items applied one after the other. -/
def applyItems (c : Cursor) (items : List (List Nat)) : Cursor :=
  items.foldl (fun c item => cursorFromSgr c (item.map Int.ofNat)) c

theorem applyItems_append (c : Cursor) (first second : List (List Nat)) :
    applyItems c (first ++ second) = applyItems (applyItems c first) second := List.foldl_append

theorem applySgr_itemCommands (c : Cursor) (items : List (List Nat)) :
    applySgr c (items.map itemCommand) = applyItems c items := by
  induction items generalizing c with
  | nil => rfl
  | cons item rest ih => exact ih _

/-- The round trip of the whole text, on the items. -/
theorem replaySgr_itemsText (c : Cursor) {items : List (List Nat)}
    (plain : ∀ item ∈ items, PlainItem item) :
    replaySgr c (itemsText items).dropLast = applyItems c items := by
  unfold replaySgr
  by_cases none_ : items = []
  · subst none_
    rfl
  · have digital := itemsText_digital none_ plain
    rw [if_neg digital.nonempty, csiSequenceCommands_digital digital,
      parseSgr_itemsText none_ plain, applySgr_itemCommands]

theorem lowByte_ofNat {n : Nat} (h : n < 256) : lowByte (Int.ofNat n) = UInt32.ofNat n := by
  have small : ((n : Int).emod 256).toNat = n := by
    change ((n : Int) % 256).toNat = n
    omega
  unfold lowByte
  rw [Int.ofNat_eq_natCast, small]

theorem parseColor_rgb (result : UInt32) {r g b : Nat} (hr : r < 256) (hg : g < 256)
    (hb : b < 256) :
    parseColor result ([2, r, g, b].map Int.ofNat) = (rgbColor r g b, []) := by
  change ((lowByte (Int.ofNat r) <<< 24) ||| (lowByte (Int.ofNat g) <<< 16) |||
    (lowByte (Int.ofNat b) <<< 8) ||| 2, []) = _
  rw [lowByte_ofNat hr, lowByte_ofNat hg, lowByte_ofNat hb]
  rfl

theorem cursorFromSgr_fg (c : Cursor) {val : UInt32} {item : List Nat}
    (h : PrintedColor 30 90 38 val item) :
    cursorFromSgr c (item.map Int.ofNat) = { c with fg := val } := by
  cases h with
  | reset => rfl
  | @simple index h => interval_cases index <;> rfl
  | @aix index h => interval_cases index <;> rfl
  | palette h => rfl
  | @rgb r g b hr hg hb =>
    have parsed := parseColor_rgb c.fg hr hg hb
    change sgrAttributes 4 { c with fg := (parseColor c.fg ([2, r, g, b].map Int.ofNat)).1 }
      (parseColor c.fg ([2, r, g, b].map Int.ofNat)).2 = _
    rw [parsed]
    rfl

theorem cursorFromSgr_bg (c : Cursor) {val : UInt32} {item : List Nat}
    (h : PrintedColor 40 100 48 val item) :
    cursorFromSgr c (item.map Int.ofNat) = { c with bg := val } := by
  cases h with
  | reset => rfl
  | @simple index h => interval_cases index <;> rfl
  | @aix index h => interval_cases index <;> rfl
  | palette h => rfl
  | @rgb r g b hr hg hb =>
    have parsed := parseColor_rgb c.bg hr hg hb
    change sgrAttributes 4 { c with bg := (parseColor c.bg ([2, r, g, b].map Int.ofNat)).1 }
      (parseColor c.bg ([2, r, g, b].map Int.ofNat)).2 = _
    rw [parsed]
    rfl

theorem cursorFromSgr_decorationFg (c : Cursor) {val : UInt32} {item : List Nat}
    (h : PrintedColor 0 0 DECORATION_FG_CODE val item) :
    cursorFromSgr c (item.map Int.ofNat) = { c with decorationFg := val } := by
  cases h with
  | reset => rfl
  | simple _ has => exact absurd rfl has
  | aix _ has => exact absurd rfl has
  | palette h => rfl
  | @rgb r g b hr hg hb =>
    have parsed := parseColor_rgb c.decorationFg hr hg hb
    change sgrAttributes 4
      { c with decorationFg := (parseColor c.decorationFg ([2, r, g, b].map Int.ofNat)).1 }
      (parseColor c.decorationFg ([2, r, g, b].map Int.ofNat)).2 = _
    rw [parsed]
    rfl

theorem applyItems_intensity (c : Cursor) (cell prev : CellAttrs) :
    applyItems c (intensityItems cell prev) = { c with
      bold :=
        if cell.bold ≠ prev.bold ∨ cell.dim ≠ prev.dim then
          (cell.bold || cell.dim) && (cell.bold || c.bold)
        else c.bold
      dim :=
        if cell.bold ≠ prev.bold ∨ cell.dim ≠ prev.dim then
          (cell.bold || cell.dim) && (cell.dim || c.dim)
        else c.dim } := by
  unfold intensityItems
  by_cases differs : cell.bold ≠ prev.bold ∨ cell.dim ≠ prev.dim
  · rw [if_pos differs, if_pos differs, if_pos differs]
    cases cell.bold <;> cases cell.dim <;> rfl
  · rw [if_neg differs, if_neg differs, if_neg differs]
    rfl

theorem applyItems_fg {cell : UInt32} (reachable : SgrColor cell) (prev : UInt32) (c : Cursor) :
    applyItems c (colorItems cell prev 30 90 38) =
      { c with fg := if cell ≠ prev then cell else c.fg } := by
  unfold colorItems
  split
  · exact cursorFromSgr_fg c (colorItem_printed reachable 30 90 38)
  · rfl

theorem applyItems_bg {cell : UInt32} (reachable : SgrColor cell) (prev : UInt32) (c : Cursor) :
    applyItems c (colorItems cell prev 40 100 48) =
      { c with bg := if cell ≠ prev then cell else c.bg } := by
  unfold colorItems
  split
  · exact cursorFromSgr_bg c (colorItem_printed reachable 40 100 48)
  · rfl

theorem applyItems_decorationFg {cell : UInt32} (reachable : SgrColor cell) (prev : UInt32)
    (c : Cursor) :
    applyItems c (colorItems cell prev 0 0 DECORATION_FG_CODE) =
      { c with decorationFg := if cell ≠ prev then cell else c.decorationFg } := by
  unfold colorItems
  split
  · exact cursorFromSgr_decorationFg c (colorItem_printed reachable 0 0 DECORATION_FG_CODE)
  · rfl

/-- The decoration that `decoration_as_sgr` prints. -/
def printedDecoration (decoration : Nat) : UInt8 :=
  match decoration with
  | 1 => 1
  | 2 => 2
  | 3 => 3
  | _ => 0

theorem applyItems_decoration (c : Cursor) (cell prev : Nat) :
    applyItems c (decorationItems cell prev) =
      { c with decoration := if cell ≠ prev then printedDecoration cell else c.decoration } := by
  unfold decorationItems
  split
  · match cell with
    | 0 | 1 | 2 | 3 => rfl
    | n + 4 => rfl
  · rfl

theorem applyItems_italic (c : Cursor) (cell prev : Bool) :
    applyItems c (switchItems cell prev 3 23) =
      { c with italic := if cell ≠ prev then cell else c.italic } := by
  unfold switchItems
  split
  · cases cell <;> rfl
  · rfl

theorem applyItems_reverse (c : Cursor) (cell prev : Bool) :
    applyItems c (switchItems cell prev 7 27) =
      { c with reverse := if cell ≠ prev then cell else c.reverse } := by
  unfold switchItems
  split
  · cases cell <;> rfl
  · rfl

theorem applyItems_strike (c : Cursor) (cell prev : Bool) :
    applyItems c (switchItems cell prev 9 29) =
      { c with strikethrough := if cell ≠ prev then cell else c.strikethrough } := by
  unfold switchItems
  split
  · cases cell <;> rfl
  · rfl

/-- The rendition of the cursor behind a printed difference. -/
theorem applyItems_sgrItems {cell : GPUCell} (reachable : cell.SgrReachable) (prev : GPUCell)
    (c : Cursor) :
    applyItems c (sgrItems cell prev) = { c with
      bold :=
        if cell.attrs.bold ≠ prev.attrs.bold ∨ cell.attrs.dim ≠ prev.attrs.dim then
          (cell.attrs.bold || cell.attrs.dim) && (cell.attrs.bold || c.bold)
        else c.bold
      dim :=
        if cell.attrs.bold ≠ prev.attrs.bold ∨ cell.attrs.dim ≠ prev.attrs.dim then
          (cell.attrs.bold || cell.attrs.dim) && (cell.attrs.dim || c.dim)
        else c.dim
      italic := if cell.attrs.italic ≠ prev.attrs.italic then cell.attrs.italic else c.italic
      reverse := if cell.attrs.reverse ≠ prev.attrs.reverse then cell.attrs.reverse else c.reverse
      strikethrough :=
        if cell.attrs.strike ≠ prev.attrs.strike then cell.attrs.strike else c.strikethrough
      fg := if cell.fg ≠ prev.fg then cell.fg else c.fg
      bg := if cell.bg ≠ prev.bg then cell.bg else c.bg
      decorationFg :=
        if cell.decorationFg ≠ prev.decorationFg then cell.decorationFg else c.decorationFg
      decoration :=
        if cell.attrs.decoration ≠ prev.attrs.decoration then
          printedDecoration cell.attrs.decoration
        else c.decoration } := by
  unfold sgrItems
  rw [applyItems_append, applyItems_append, applyItems_append, applyItems_append,
    applyItems_append, applyItems_append, applyItems_append, applyItems_intensity,
    applyItems_italic, applyItems_reverse, applyItems_strike, applyItems_fg reachable.fg,
    applyItems_bg reachable.bg, applyItems_decorationFg reachable.decorationFg,
    applyItems_decoration]

/-- The cursor has the rendition of the cell. -/
structure Cursor.Shows (c : Cursor) (cell : GPUCell) : Prop where
  bold : c.bold = cell.attrs.bold
  dim : c.dim = cell.attrs.dim
  italic : c.italic = cell.attrs.italic
  reverse : c.reverse = cell.attrs.reverse
  strike : c.strikethrough = cell.attrs.strike
  decoration : (cursorToAttrs c 1).decoration = cell.attrs.decoration
  fg : c.fg = cell.fg
  bg : c.bg = cell.bg
  decorationFg : c.decorationFg = cell.decorationFg

/-- A decoration comes back exactly if it is one of those `decoration_as_sgr` knows. -/
theorem printedDecoration_iff (decoration : Nat) :
    (printedDecoration decoration).toNat % 8 = decoration ↔ decoration ≤ 3 := by
  match decoration with
  | 0 | 1 | 2 | 3 => decide
  | n + 4 =>
    change 0 = n + 4 ↔ n + 4 ≤ 3
    omega

/-- Bold and dim come back exactly if neither has to be cleared while the other one is set. -/
theorem intensity_iff (cellBold cellDim prevBold prevDim : Bool) :
    ((if cellBold ≠ prevBold ∨ cellDim ≠ prevDim then
          (cellBold || cellDim) && (cellBold || prevBold)
        else prevBold) = cellBold ∧
      (if cellBold ≠ prevBold ∨ cellDim ≠ prevDim then
          (cellBold || cellDim) && (cellDim || prevDim)
        else prevDim) = cellDim) ↔
      (cellBold = true ∨ cellDim = true →
        (prevBold = true → cellBold = true) ∧ (prevDim = true → cellDim = true)) := by
  revert cellBold cellDim prevBold prevDim
  decide

/-- The printed difference, parsed and applied to a cursor with the old rendition, gives the new
one exactly if bold or dim need not be cleared alone, and a new decoration is at most a curly
underline. -/
theorem cellAsSgr_roundTrip_iff {cell prev : GPUCell} (reachable : cell.SgrReachable) {c : Cursor}
    (shows : c.Shows prev) :
    (∃ sgr, cellAsSgr cell prev = some sgr ∧ (replaySgr c sgr).Shows cell) ↔
      (cell.attrs.bold = true ∨ cell.attrs.dim = true →
          (prev.attrs.bold = true → cell.attrs.bold = true) ∧
          (prev.attrs.dim = true → cell.attrs.dim = true)) ∧
        (cell.attrs.decoration = prev.attrs.decoration ∨ cell.attrs.decoration ≤ 3) := by
  have printed := cellAsSgr_eq_itemsText reachable prev
  have replayed : replaySgr c (itemsText (sgrItems cell prev)).dropLast =
      applyItems c (sgrItems cell prev) := replaySgr_itemsText c (plainItem_sgrItems reachable prev)
  rw [applyItems_sgrItems reachable] at replayed
  have intensity := intensity_iff cell.attrs.bold cell.attrs.dim prev.attrs.bold prev.attrs.dim
  have decoration := printedDecoration_iff cell.attrs.decoration
  have kept : ∀ {α : Type} [DecidableEq α] (a b : α), (if a ≠ b then a else b) = a := by
    intro α _ a b
    by_cases h : a = b
    · simp [h]
    · simp [h]
  constructor
  · rintro ⟨sgr, hsgr, shown⟩
    rw [printed] at hsgr
    obtain rfl := Option.some.inj hsgr
    rw [replayed] at shown
    have hbold := shown.bold
    have hdim := shown.dim
    have hdecoration := shown.decoration
    rw [shows.bold] at hbold
    rw [shows.dim] at hdim
    refine ⟨intensity.1 ⟨hbold, hdim⟩, ?_⟩
    by_cases same : cell.attrs.decoration = prev.attrs.decoration
    · exact Or.inl same
    · rw [if_pos same] at hdecoration
      exact Or.inr (decoration.1 hdecoration)
  · rintro ⟨hintensity, hdecoration⟩
    obtain ⟨bold, dim⟩ := intensity.2 hintensity
    refine ⟨_, printed, ?_⟩
    rw [replayed]
    refine ⟨?_, ?_, ?_, ?_, ?_, ?_, ?_, ?_, ?_⟩
    · rw [shows.bold]
      exact bold
    · rw [shows.dim]
      exact dim
    · rw [shows.italic]
      exact kept _ _
    · rw [shows.reverse]
      exact kept _ _
    · rw [shows.strike]
      exact kept _ _
    · by_cases same : cell.attrs.decoration = prev.attrs.decoration
      · rw [if_neg (not_not.2 same), same]
        exact shows.decoration
      · rw [if_pos same]
        exact decoration.2 (hdecoration.resolve_left same)
    · rw [shows.fg]
      exact kept _ _
    · rw [shows.bg]
      exact kept _ _
    · rw [shows.decorationFg]
      exact kept _ _

/-- From bold to a curly underline on a true colour. -/
theorem cellAsSgr_roundTrip_curly :
    let cell : GPUCell := { bg := rgbColor 1 2 3, attrs := { decoration := 3 } }
    let prev : GPUCell := { fg := paletteColor 9, attrs := { bold := true, decoration := 5 } }
    (∃ sgr, cellAsSgr cell prev = some sgr ∧
      (replaySgr { fg := paletteColor 9, bold := true, decoration := 5 } sgr).Shows cell) ↔
      (cell.attrs.bold = true ∨ cell.attrs.dim = true →
          (prev.attrs.bold = true → cell.attrs.bold = true) ∧
          (prev.attrs.dim = true → cell.attrs.dim = true)) ∧
        (cell.attrs.decoration = prev.attrs.decoration ∨ cell.attrs.decoration ≤ 3) :=
  cellAsSgr_roundTrip_iff
    ⟨by decide, .reset, .rgb (by decide) (by decide) (by decide), .reset⟩
    ⟨rfl, rfl, rfl, rfl, rfl, rfl, rfl, rfl, rfl⟩

/-- From bold and dim to dim alone: the printed text sets dim again and clears nothing. -/
theorem cellAsSgr_keeps_bold :
    let cell : GPUCell := { attrs := { dim := true } }
    let prev : GPUCell := { attrs := { bold := true, dim := true } }
    let c : Cursor := { bold := true, dim := true }
    cell.SgrReachable ∧ prev.SgrReachable ∧ c.Shows prev ∧
      ¬ ∃ sgr, cellAsSgr cell prev = some sgr ∧ (replaySgr c sgr).Shows cell := by
  refine ⟨⟨by decide, .reset, .reset, .reset⟩, ⟨by decide, .reset, .reset, .reset⟩,
    ⟨rfl, rfl, rfl, rfl, rfl, rfl, rfl, rfl, rfl⟩, ?_⟩
  rintro ⟨sgr, printed, shown⟩
  obtain rfl := Option.some.inj printed
  exact absurd shown.bold (by decide)

end Smelly
