/-
Module: Smelly.Proofs.GraphicsComposeClipping
Purpose: Which pixels `compose` writes where one layer lies partly outside the other, that copying
  whole rows writes the same ones, and for which sizes of layers all of this holds.
Trusted boundary: none
-/
import Mathlib.Data.Nat.ModEq
import Mathlib.Tactic.Ring
import Smelly.Proofs.GraphicsComposeBounds

namespace Smelly

open Checked

/-! ### Bytes of a buffer -/

/-- So many bytes of a buffer from an offset on. -/
def bytesAt (data : Bytes) (offset count : Nat) : Bytes := (data.drop offset).take count

theorem getElem?_bytesAt (data : Bytes) (offset : Nat) {count i : Nat} (inside : i < count) :
    (bytesAt data offset count)[i]? = data[offset + i]? := by
  rw [bytesAt, List.getElem?_take_of_lt inside, List.getElem?_drop]

theorem bytesAt_length {data : Bytes} {offset count : Nat} (inside : offset + count ≤ data.length) :
    (bytesAt data offset count).length = count := by
  rw [bytesAt, List.length_take, List.length_drop]
  omega

/-- Bytes that are the same one by one. -/
theorem bytesAt_congr {data data' : Bytes} {offset offset' count : Nat}
    (same : ∀ i < count, data[offset + i]? = data'[offset' + i]?) :
    bytesAt data offset count = bytesAt data' offset' count := by
  apply List.ext_getElem?
  intro i
  by_cases inside : i < count
  · rw [getElem?_bytesAt data offset inside, getElem?_bytesAt data' offset' inside]
    exact same i inside
  · have short : ∀ (bytes : Bytes) (from_ : Nat), (bytesAt bytes from_ count)[i]? = none := by
      intro bytes from_
      apply List.getElem?_eq_none
      rw [bytesAt, List.length_take]
      omega
    rw [short, short]

theorem readBytes_inside {data : Bytes} {offset count : Nat}
    (inside : offset + count ≤ data.length) :
    readBytes data offset count = some (bytesAt data offset count) := by
  rw [readBytes, if_pos (Or.inr inside)]
  rfl

/-- What a write leaves: the bytes where they were written, and the others as they were. -/
structure BytesWritten (data : Bytes) (offset : Nat) (bytes next : Bytes) : Prop where
  length : next.length = data.length
  inside : ∀ i < bytes.length, next[offset + i]? = bytes[i]?
  outside : ∀ i, i < offset ∨ offset + bytes.length ≤ i → next[i]? = data[i]?

theorem writeBytes_inside {data bytes : Bytes} {offset : Nat}
    (fits : offset + bytes.length ≤ data.length) :
    ∃ next, writeBytes data offset bytes = some next ∧ BytesWritten data offset bytes next := by
  unfold writeBytes
  by_cases empty : bytes = []
  · rw [if_pos empty, empty]
    exact ⟨data, rfl, rfl, fun i inside => absurd inside (Nat.not_lt_zero i), fun _ _ => rfl⟩
  · rw [if_neg empty, if_pos fits]
    have front : (data.take offset).length = offset := by
      rw [List.length_take]
      omega
    refine ⟨_, rfl, ?_, ?_, ?_⟩
    · simp only [List.length_append, front, List.length_drop]
      omega
    · intro i inside
      rw [List.append_assoc, List.getElem?_append_right (by omega), front,
        Nat.add_sub_cancel_left, List.getElem?_append_left inside]
    · rintro i (before | behind)
      · rw [List.append_assoc, List.getElem?_append_left (by omega),
          List.getElem?_take_of_lt before]
      · rw [List.getElem?_append_right (by rw [List.length_append, front]; exact behind),
          List.getElem?_drop, List.length_append, front, Nat.add_sub_cancel' behind]

/-! ### Rows -/

variable {b : Blending} {d : ComposeData}

/-- What composing a row leaves: every pixel of the row composed with the one above it, and the
other bytes as they were. -/
structure RowComposed (b : Blending) (d : ComposeData) (overlay : Bytes)
    (overRow underRow width : Nat) (under next : Bytes) : Prop where
  length : next.length = under.length
  outside : ∀ i, i < underRow ∨ underRow + d.underPxSz * width ≤ i → next[i]? = under[i]?
  pixels : ∀ x < width, bytesAt next (underRow + d.underPxSz * x) d.underPxSz =
    composePixel b d (bytesAt under (underRow + d.underPxSz * x) d.underPxSz)
      (bytesAt overlay (overRow + d.overPxSz * x) d.overPxSz)

/-- A row lies in both buffers, and 32 bits can address its pixels. -/
structure RowFits (d : ComposeData) (overlay : Bytes) (overRow underRow width : Nat)
    (under : Bytes) : Prop where
  overlay : overRow + d.overPxSz * width ≤ overlay.length
  under : underRow + d.underPxSz * width ≤ under.length
  overSmall : d.overPxSz * (width - 1) < 2 ^ 32
  underSmall : d.underPxSz * (width - 1) < 2 ^ 32

/-- One round composes one pixel more. -/
theorem pixelRound_composed (proper : d.Proper) {overlay under s : Bytes}
    {overRow underRow width x : Nat} (fits : RowFits d overlay overRow underRow width under)
    (inRow : x < width) (before : RowComposed b d overlay overRow underRow x under s) :
    ∃ next, pixelRound b d overlay overRow underRow x s = some next ∧
      RowComposed b d overlay overRow underRow (x + 1) under next := by
  have overEnd : d.overPxSz * x + d.overPxSz ≤ d.overPxSz * width := by
    exact Nat.mul_le_mul_left _ inRow
  have underEnd : d.underPxSz * x + d.underPxSz ≤ d.underPxSz * width := by
    exact Nat.mul_le_mul_left _ inRow
  have overInside := fits.overlay
  have underInside := fits.under
  have overSmall : d.overPxSz * x < 2 ^ 32 :=
    Nat.lt_of_le_of_lt (Nat.mul_le_mul_left _ (Nat.le_sub_one_of_lt inRow)) fits.overSmall
  have underSmall : d.underPxSz * x < 2 ^ 32 :=
    Nat.lt_of_le_of_lt (Nat.mul_le_mul_left _ (Nat.le_sub_one_of_lt inRow)) fits.underSmall
  have same := before.length
  have overOffset : u32 (d.overPxSz * x) = d.overPxSz * x := Nat.mod_eq_of_lt overSmall
  have underOffset : u32 (d.underPxSz * x) = d.underPxSz * x := Nat.mod_eq_of_lt underSmall
  have overRead := @readBytes_inside overlay (overRow + d.overPxSz * x) d.overPxSz (by omega)
  have underRead := @readBytes_inside s (underRow + d.underPxSz * x) d.underPxSz (by omega)
  have untouched : bytesAt s (underRow + d.underPxSz * x) d.underPxSz =
      bytesAt under (underRow + d.underPxSz * x) d.underPxSz :=
    bytesAt_congr fun i _ => before.outside _ (by omega)
  have pixelLength := @composePixel_length b d proper
    (bytesAt under (underRow + d.underPxSz * x) d.underPxSz)
    (bytesAt overlay (overRow + d.overPxSz * x) d.overPxSz)
    (bytesAt_length (by omega)) (bytesAt_length (by omega))
  obtain ⟨next, writes, written⟩ := @writeBytes_inside s
    (composePixel b d (bytesAt under (underRow + d.underPxSz * x) d.underPxSz)
      (bytesAt overlay (overRow + d.overPxSz * x) d.overPxSz))
    (underRow + d.underPxSz * x) (by omega)
  refine ⟨next, ?_, written.length.trans same, ?_, ?_⟩
  · unfold pixelRound
    rw [overOffset, underOffset, overRead, underRead, untouched]
    exact writes
  · intro i apart
    rw [Nat.mul_succ] at apart
    rw [written.outside i (by omega), before.outside i (by omega)]
  · intro x' inside
    rcases Nat.lt_succ_iff_lt_or_eq.1 inside with earlier | rfl
    · have step : d.underPxSz * x' + d.underPxSz ≤ d.underPxSz * x := by
        exact Nat.mul_le_mul_left _ earlier
      rw [← before.pixels x' earlier]
      exact bytesAt_congr fun i _ => written.outside _ (by omega)
    · have whole : bytesAt next (underRow + d.underPxSz * x') d.underPxSz =
          bytesAt (composePixel b d (bytesAt under (underRow + d.underPxSz * x') d.underPxSz)
            (bytesAt overlay (overRow + d.overPxSz * x') d.overPxSz)) 0 d.underPxSz := by
        apply bytesAt_congr
        intro i inPixel
        rw [written.inside i (by omega), Nat.zero_add]
      rw [whole, bytesAt, List.drop_zero, List.take_of_length_le (Nat.le_of_eq pixelLength)]

/-- The pixel loop composes a row. -/
theorem pixelLoop_composed (proper : d.Proper) {overlay under : Bytes}
    {overRow underRow width : Nat} (fits : RowFits d overlay overRow underRow width under) :
    ∃ next, forUp 0 width (pixelRound b d overlay overRow underRow) under = some next ∧
      RowComposed b d overlay overRow underRow width under next := by
  have start : RowComposed b d overlay overRow underRow 0 under under :=
    ⟨rfl, fun _ _ => rfl, fun x inside => absurd inside (Nat.not_lt_zero x)⟩
  obtain ⟨next, loop, composed⟩ := @forUp_invariant _ (pixelRound b d overlay overRow underRow)
    (fun x s => RowComposed b d overlay overRow underRow x under s) 0 width under start
    (fun x s _ inRow before => pixelRound_composed proper fits (by omega) before)
  rw [Nat.zero_add] at composed
  exact ⟨next, loop, composed⟩

/-- Without blending, a pixel of the same size is copied. -/
theorem composePixel_copy (proper : d.Proper) (whole : ¬ d.needsBlending ∧ d.overPxSz = d.underPxSz)
    (under : Bytes) {overlay : Bytes} (size : overlay.length = d.overPxSz) :
    composePixel b d under overlay = overlay := by
  unfold composePixel
  rw [if_neg whole.1]
  rcases proper.under with three | four
  · rw [if_neg (by omega), List.take_of_length_le (by omega)]
  · rw [if_pos four, if_pos (by omega)]

/-- So does copying it whole, where that is done. -/
theorem rowCopy_composed (proper : d.Proper) {overlay under : Bytes} {overRow underRow width : Nat}
    (fits : RowFits d overlay overRow underRow width under)
    (whole : ¬ d.needsBlending ∧ d.overPxSz = d.underPxSz) :
    ∃ next, composeRow b d overlay overRow underRow width under = some next ∧
      RowComposed b d overlay overRow underRow width under next := by
  have overInside := fits.overlay
  have underInside := fits.under
  have rowLength := bytesAt_length overInside
  obtain ⟨next, writes, written⟩ := @writeBytes_inside under
    (bytesAt overlay overRow (d.overPxSz * width)) underRow
    (by rw [rowLength, whole.2]; exact underInside)
  have outside := written.outside
  have inside := written.inside
  rw [rowLength, whole.2] at outside
  refine ⟨next, ?_, written.length, outside, ?_⟩
  · unfold composeRow
    rw [if_pos whole, readBytes_inside overInside]
    exact writes
  · intro x inRow
    have last : d.overPxSz * x + d.overPxSz ≤ d.overPxSz * width := by
      exact Nat.mul_le_mul_left _ inRow
    rw [composePixel_copy proper whole _ (bytesAt_length (by omega)), ← whole.2]
    apply bytesAt_congr
    intro i inPixel
    rw [Nat.add_assoc, inside _ (by omega), getElem?_bytesAt _ _ (by omega), Nat.add_assoc]

/-- There is one way to compose a row. -/
theorem RowComposed.unique (proper : d.Proper) {overlay under next next' : Bytes}
    {overRow underRow width : Nat} (h : RowComposed b d overlay overRow underRow width under next)
    (h' : RowComposed b d overlay overRow underRow width under next') : next = next' := by
  have size : 0 < d.underPxSz := by rcases proper.under with size | size <;> omega
  apply List.ext_getElem?
  intro i
  by_cases apart : i < underRow ∨ underRow + d.underPxSz * width ≤ i
  · rw [h.outside i apart, h'.outside i apart]
  · have inRow : (i - underRow) / d.underPxSz < width := by
      rw [Nat.div_lt_iff_lt_mul size, Nat.mul_comm]
      omega
    have inPixel := Nat.mod_lt (i - underRow) size
    have pixels := (h.pixels _ inRow).trans (h'.pixels _ inRow).symm
    have bytes := congrArg (fun pixel : Bytes => pixel[(i - underRow) % d.underPxSz]?) pixels
    have position : underRow + d.underPxSz * ((i - underRow) / d.underPxSz) +
        (i - underRow) % d.underPxSz = i := by
      rw [Nat.add_assoc, Nat.div_add_mod]
      omega
    simp only [getElem?_bytesAt _ _ inPixel, position] at bytes
    exact bytes

/-- Copying whole rows does what the loop over the pixels does. -/
theorem composeRow_eq (proper : d.Proper) {overlay under : Bytes} {overRow underRow width : Nat}
    (fits : width ≠ 0 → RowFits d overlay overRow underRow width under) :
    composeRow b d overlay overRow underRow width under =
      forUp 0 width (pixelRound b d overlay overRow underRow) under := by
  by_cases whole : ¬ d.needsBlending ∧ d.overPxSz = d.underPxSz
  · by_cases none_ : width = 0
    · unfold composeRow
      rw [if_pos whole, none_]
      rfl
    · obtain ⟨next, copies, composed⟩ := @rowCopy_composed b d proper _ _ _ _ _ (fits none_) whole
      obtain ⟨next', loops, composed'⟩ := @pixelLoop_composed b d proper _ _ _ _ _ (fits none_)
      rw [copies, loops, composed.unique proper composed']
  · unfold composeRow
    rw [if_neg whole]
    rfl

/-- A row of any width is composed. -/
theorem composeRow_composed (proper : d.Proper) {overlay under : Bytes}
    {overRow underRow width : Nat}
    (fits : width ≠ 0 → RowFits d overlay overRow underRow width under) :
    ∃ next, composeRow b d overlay overRow underRow width under = some next ∧
      RowComposed b d overlay overRow underRow width under next := by
  rw [composeRow_eq proper fits]
  by_cases none_ : width = 0
  · rw [none_]
    exact ⟨under, rfl, rfl, fun _ _ => rfl, fun x inside => absurd inside (Nat.not_lt_zero x)⟩
  · exact pixelLoop_composed proper (fits none_)

/-! ### Whole layers -/

/-- A pixel of a layer. -/
def pixelAt (data : Bytes) (pxSz width x y : Nat) : Bytes :=
  bytesAt data (pxSz * (y * width + x)) pxSz

/-- The upper layer lies on this pixel of the lower one. -/
def ComposeData.Covers (d : ComposeData) (x y : Nat) : Prop :=
  d.overOffsetX ≤ x ∧ x - d.overOffsetX < d.overWidth ∧
    d.overOffsetY ≤ y ∧ y - d.overOffsetY < d.overHeight

instance (d : ComposeData) (x y : Nat) : Decidable (d.Covers x y) := by
  unfold ComposeData.Covers
  infer_instance

/-- The layers have as many bytes as their sizes say. -/
structure ComposeData.Sized (d : ComposeData) (under overlay : Bytes) : Prop where
  under : under.length = d.underPxSz * (d.underWidth * d.underHeight)
  overlay : overlay.length = d.overPxSz * (d.overWidth * d.overHeight)

/-- What is left where the rows above `rows` of the upper layer are composed. -/
structure RowsComposed (b : Blending) (d : ComposeData) (overlay : Bytes) (rows : Nat)
    (under next : Bytes) : Prop where
  length : next.length = under.length
  pixels : ∀ x y, x < d.underWidth → y < d.underHeight →
    pixelAt next d.underPxSz d.underWidth x y =
      if d.Covers x y ∧ y - d.overOffsetY < rows then
        composePixel b d (pixelAt under d.underPxSz d.underWidth x y)
          (pixelAt overlay d.overPxSz d.overWidth (x - d.overOffsetX) (y - d.overOffsetY))
      else pixelAt under d.underPxSz d.underWidth x y

/-- The rows and the pixels of a row that are composed. -/
def ComposeData.rows (d : ComposeData) : Nat := min (d.underHeight - d.overOffsetY) d.overHeight

def ComposeData.columns (d : ComposeData) : Nat := min (d.underWidth - d.overOffsetX) d.overWidth

/-- The offsets of the last pixel that is composed fit in 32 bits: that of its row, that of the
first column and that of the pixel in its row. -/
structure ComposeData.OffsetsFit (d : ComposeData) : Prop where
  underRow : d.underPxSz * ((d.rows - 1 + d.overOffsetY) * d.underWidth) < 2 ^ 32
  underColumn : d.underPxSz * d.overOffsetX < 2 ^ 32
  underPixel : d.underPxSz * (d.columns - 1) < 2 ^ 32
  overRow : d.overPxSz * ((d.rows - 1) * d.overWidth) < 2 ^ 32
  overPixel : d.overPxSz * (d.columns - 1) < 2 ^ 32

/-- Where a row starts whose offsets fit in 32 bits. -/
theorem rowStart_eq {px width offsetX offsetY y : Nat} (size : 0 < px) (positive : 0 < width)
    (rowFits : px * ((y + offsetY) * width) < 2 ^ 32) (columnFits : px * offsetX < 2 ^ 32) :
    rowStart px width offsetX offsetY y = px * ((y + offsetY) * width + offsetX) := by
  have whole : (y + offsetY) * px ≤ px * ((y + offsetY) * width) := by
    rw [Nat.mul_comm px, Nat.mul_right_comm]
    exact Nat.le_mul_of_pos_right _ positive
  have first : y + offsetY ≤ (y + offsetY) * px := Nat.le_mul_of_pos_right _ size
  have product : (y + offsetY) * px * width = px * ((y + offsetY) * width) := by
    rw [Nat.mul_comm (y + offsetY), Nat.mul_assoc]
  unfold rowStart u32
  rw [@Nat.mod_eq_of_lt (y + offsetY) _ (by omega),
    @Nat.mod_eq_of_lt ((y + offsetY) * px) _ (by omega), product, Nat.mod_eq_of_lt rowFits,
    Nat.mul_comm offsetX, Nat.mod_eq_of_lt columnFits, Nat.mul_add]

/-- A row of a rectangle ends inside a layer. -/
theorem row_end {px width height offset y count : Nat} (row : y < height)
    (inRow : offset + count ≤ width) :
    px * (y * width + offset) + px * count ≤ px * (width * height) := by
  rw [← Nat.mul_add]
  apply Nat.mul_le_mul_left
  calc y * width + offset + count ≤ y * width + width := by omega
    _ = (y + 1) * width := (Nat.succ_mul y width).symm
    _ ≤ height * width := Nat.mul_le_mul_right _ row
    _ = width * height := Nat.mul_comm _ _

/-- The rows that are composed fit. -/
theorem rowFits (proper : d.Proper) (small : d.OffsetsFit) {under overlay : Bytes}
    (sized : d.Sized under overlay) {y : Nat} (row : y < d.rows) (some_ : d.columns ≠ 0) :
    RowFits d overlay (rowStart d.overPxSz d.overWidth 0 0 y)
        (rowStart d.underPxSz d.underWidth d.overOffsetX d.overOffsetY y) d.columns under ∧
      rowStart d.overPxSz d.overWidth 0 0 y = d.overPxSz * (y * d.overWidth) ∧
      rowStart d.underPxSz d.underWidth d.overOffsetX d.overOffsetY y =
        d.underPxSz * ((y + d.overOffsetY) * d.underWidth + d.overOffsetX) := by
  have overSize : 0 < d.overPxSz := by rcases proper.overlay with size | size <;> omega
  have underSize : 0 < d.underPxSz := by rcases proper.under with size | size <;> omega
  have lastRow := Nat.le_sub_one_of_lt row
  have overRow : d.overPxSz * (y * d.overWidth) < 2 ^ 32 :=
    Nat.lt_of_le_of_lt (Nat.mul_le_mul_left _ (Nat.mul_le_mul_right _ lastRow)) small.overRow
  have underRow : d.underPxSz * ((y + d.overOffsetY) * d.underWidth) < 2 ^ 32 :=
    Nat.lt_of_le_of_lt (Nat.mul_le_mul_left _ (Nat.mul_le_mul_right _
      (Nat.add_le_add_right lastRow _))) small.underRow
  have inside : y < min (d.underHeight - d.overOffsetY) d.overHeight := row
  have narrow : d.columns = min (d.underWidth - d.overOffsetX) d.overWidth := rfl
  have overStart := @rowStart_eq d.overPxSz d.overWidth 0 0 y overSize (by omega) overRow
    (by rw [Nat.mul_zero]; decide)
  have underStart := @rowStart_eq d.underPxSz d.underWidth d.overOffsetX d.overOffsetY y underSize
    (by omega) underRow small.underColumn
  have overEnd := @row_end d.overPxSz d.overWidth d.overHeight 0 y d.columns (by omega) (by omega)
  have underEnd := @row_end d.underPxSz d.underWidth d.underHeight d.overOffsetX
    (y + d.overOffsetY) d.columns (by omega) (by omega)
  refine ⟨⟨?_, ?_, small.overPixel, small.underPixel⟩, overStart, underStart⟩
  · rw [overStart, sized.overlay]
    exact overEnd
  · rw [underStart, sized.under]
    exact underEnd

/-- A pixel outside a row keeps its bytes. -/
theorem pixelAt_outside {overlay under next : Bytes} {overRow row offset width count x y : Nat}
    (composed : RowComposed b d overlay overRow (d.underPxSz * (row * width + offset)) count
      under next)
    (apart : y * width + x < row * width + offset ∨ row * width + offset + count ≤ y * width + x) :
    pixelAt next d.underPxSz width x y = pixelAt under d.underPxSz width x y := by
  apply bytesAt_congr
  intro i inPixel
  apply composed.outside
  rcases apart with before | behind
  · have step := Nat.mul_le_mul_left d.underPxSz before
    rw [Nat.mul_succ] at step
    omega
  · have step := Nat.mul_le_mul_left d.underPxSz behind
    rw [Nat.mul_add] at step
    omega

/-- Two pixels of different rows, or of one row, in the order of the bytes. -/
theorem pixel_apart {width row offset count x y : Nat} (inRow : offset + count ≤ width)
    (column : x < width) (apart : ¬(y = row ∧ offset ≤ x ∧ x - offset < count)) :
    y * width + x < row * width + offset ∨ row * width + offset + count ≤ y * width + x := by
  rcases Nat.lt_trichotomy y row with above | rfl | below
  · have step := Nat.mul_le_mul_right width (show y + 1 ≤ row from above)
    rw [Nat.succ_mul] at step
    omega
  · omega
  · have step := Nat.mul_le_mul_right width (show row + 1 ≤ y from below)
    rw [Nat.succ_mul] at step
    omega

/-- Composing one row more. -/
theorem composeRow_rows (proper : d.Proper) (small : d.columns ≠ 0 → d.OffsetsFit)
    {under overlay s : Bytes} (sized : d.Sized under overlay) {y : Nat} (row : y < d.rows)
    (before : RowsComposed b d overlay y under s) :
    ∃ next, composeRow b d overlay (rowStart d.overPxSz d.overWidth 0 0 y)
        (rowStart d.underPxSz d.underWidth d.overOffsetX d.overOffsetY y) d.columns s = some next ∧
      RowsComposed b d overlay (y + 1) under next := by
  have sizedNow : d.Sized s overlay := ⟨before.length.trans sized.under, sized.overlay⟩
  obtain ⟨next, composes, composed⟩ := @composeRow_composed b d proper overlay s
    (rowStart d.overPxSz d.overWidth 0 0 y)
    (rowStart d.underPxSz d.underWidth d.overOffsetX d.overOffsetY y) d.columns
    (fun some_ => (rowFits proper (small some_) sizedNow row some_).1)
  refine ⟨next, composes, composed.length.trans before.length, ?_⟩
  intro X Y columnX rowY
  have inRows : y < min (d.underHeight - d.overOffsetY) d.overHeight := row
  by_cases none_ : d.columns = 0
  · have same : next = s := by
      apply List.ext_getElem?
      intro i
      rw [none_] at composed
      exact composed.outside i (by omega)
    have uncovered : ¬ d.Covers X Y := by
      rintro ⟨left, right, -, -⟩
      unfold ComposeData.columns at none_
      omega
    rw [same, before.pixels X Y columnX rowY, if_neg fun h => uncovered h.1,
      if_neg fun h => uncovered h.1]
  · obtain ⟨-, overStart, underStart⟩ := rowFits proper (small none_) sizedNow row none_
    rw [overStart, underStart] at composed
    have rightEdge : d.overOffsetX + d.columns ≤ d.underWidth := by
      unfold ComposeData.columns at none_ ⊢
      omega
    by_cases here : Y = y + d.overOffsetY ∧ d.overOffsetX ≤ X ∧ X - d.overOffsetX < d.columns
    · obtain ⟨rfl, left, right⟩ := here
      have narrow : d.columns ≤ d.overWidth := Nat.min_le_right _ _
      have covered : d.Covers X (y + d.overOffsetY) := by
        refine ⟨left, by omega, by omega, by omega⟩
      have pixel := composed.pixels (X - d.overOffsetX) right
      have underPosition : d.underPxSz * ((y + d.overOffsetY) * d.underWidth + d.overOffsetX) +
          d.underPxSz * (X - d.overOffsetX) =
            d.underPxSz * ((y + d.overOffsetY) * d.underWidth + X) := by
        rw [← Nat.mul_add, Nat.add_assoc, Nat.add_sub_cancel' left]
      rw [underPosition, ← Nat.mul_add] at pixel
      have unseen := before.pixels X (y + d.overOffsetY) columnX rowY
      rw [if_neg (by omega)] at unseen
      rw [if_pos ⟨covered, by omega⟩, ← unseen, Nat.add_sub_cancel]
      exact pixel
    · have apart := pixel_apart rightEdge columnX here
      rw [pixelAt_outside composed apart, before.pixels X Y columnX rowY]
      have same : (d.Covers X Y ∧ Y - d.overOffsetY < y) ↔
          (d.Covers X Y ∧ Y - d.overOffsetY < y + 1) := by
        constructor
        · exact fun h => ⟨h.1, Nat.lt_succ_of_lt h.2⟩
        · rintro ⟨covered, inside⟩
          refine ⟨covered, Classical.byContradiction fun later => here ?_⟩
          obtain ⟨left, right, top, bottom⟩ := covered
          unfold ComposeData.columns
          omega
      simp only [same]

/-- `compose` with every row composed pixel by pixel. -/
def composeByPixels (b : Blending) (d : ComposeData) (under overlay : Bytes) : Option Bytes :=
  forUp 0 d.rows (fun y s =>
    forUp 0 d.columns (pixelRound b d overlay (rowStart d.overPxSz d.overWidth 0 0 y)
      (rowStart d.underPxSz d.underWidth d.overOffsetX d.overOffsetY y)) s) under

/-- The upper layer composed with the pixels that it covers, and the other pixels as they were. -/
structure Clipped (b : Blending) (d : ComposeData) (under overlay next : Bytes) : Prop where
  length : next.length = under.length
  pixels : ∀ x y, x < d.underWidth → y < d.underHeight →
    pixelAt next d.underPxSz d.underWidth x y =
      if d.Covers x y then
        composePixel b d (pixelAt under d.underPxSz d.underWidth x y)
          (pixelAt overlay d.overPxSz d.overWidth (x - d.overOffsetX) (y - d.overOffsetY))
      else pixelAt under d.underPxSz d.underWidth x y

/-- Neither layer is left, the result is the clipped one, and copying whole rows does what composing
their pixels does. -/
def ComposesClipped (b : Blending) (d : ComposeData) (under overlay : Bytes) : Prop :=
  ∃ next, compose b d under overlay = some next ∧ Clipped b d under overlay next ∧
    composeByPixels b d under overlay = some next

/-- Where the offsets fit, `compose` clips the upper layer. -/
theorem compose_clipped (b : Blending) {d : ComposeData} (proper : d.Proper)
    (small : d.rows ≠ 0 → d.columns ≠ 0 → d.OffsetsFit) {under overlay : Bytes}
    (sized : d.Sized under overlay) : ComposesClipped b d under overlay := by
  have start : RowsComposed b d overlay 0 under under := by
    refine ⟨rfl, fun x y _ _ => ?_⟩
    rw [if_neg fun h => absurd h.2 (Nat.not_lt_zero _)]
  have someRow : ∀ {y : Nat}, y < 0 + d.rows → d.columns ≠ 0 → d.OffsetsFit :=
    fun row => small (by omega)
  obtain ⟨next, composes, composed⟩ := forUp_invariant
    (fun y s => RowsComposed b d overlay y under s) start
    (fun y s _ row before =>
      composeRow_rows proper (someRow row) sized (by simpa using row) before)
  rw [Nat.zero_add] at composed
  have same : compose b d under overlay = composeByPixels b d under overlay := by
    have fits : ∀ (y : Nat) (s : Bytes), y < 0 + d.rows → s.length = under.length →
        d.columns ≠ 0 →
          RowFits d overlay (rowStart d.overPxSz d.overWidth 0 0 y)
            (rowStart d.underPxSz d.underWidth d.overOffsetX d.overOffsetY y) d.columns s := by
      intro y s row same some_
      exact (rowFits proper (someRow row some_) ⟨same.trans sized.under, sized.overlay⟩ (by omega)
        some_).1
    apply forUp_congr fun s : Bytes => s.length = under.length
    · intro y s s' _ row same composes
      obtain ⟨next, composes', composed⟩ := composeRow_composed proper (fits y s row same)
      rw [← Option.some.inj (composes'.symm.trans composes)]
      exact composed.length.trans same
    · intro y s _ row same
      exact composeRow_eq proper (fits y s row same)
    · rfl
  refine ⟨next, composes, ⟨composed.length, fun x y columnX rowY => ?_⟩, same.symm.trans composes⟩
  have inRows : d.Covers x y → y - d.overOffsetY < d.rows := by
    rintro ⟨-, -, top, bottom⟩
    unfold ComposeData.rows
    omega
  have covered : (d.Covers x y ∧ y - d.overOffsetY < d.rows) ↔ d.Covers x y :=
    ⟨fun h => h.1, fun covered => ⟨covered, inRows covered⟩⟩
  rw [composed.pixels x y columnX rowY]
  simp only [covered]

/-! ### The last pixel -/

theorem u32_modEq (n : Nat) : u32 n ≡ n [MOD 2 ^ 32] := Nat.mod_modEq n _

/-- The offset that is computed for a pixel differs from the right one by a multiple of 4 GiB. -/
theorem position_modEq (px width offsetX offsetY y x : Nat) :
    rowStart px width offsetX offsetY y + u32 (px * x) ≡
      px * ((y + offsetY) * width + (offsetX + x)) [MOD 2 ^ 32] := by
  have row : u32 (u32 (u32 (y + offsetY) * px) * width) ≡ px * ((y + offsetY) * width)
      [MOD 2 ^ 32] := by
    have inner : u32 (u32 (y + offsetY) * px) ≡ (y + offsetY) * px [MOD 2 ^ 32] :=
      (u32_modEq _).trans ((u32_modEq _).mul_right px)
    have whole := (u32_modEq (u32 (u32 (y + offsetY) * px) * width)).trans (inner.mul_right width)
    rwa [show (y + offsetY) * px * width = px * ((y + offsetY) * width) by ring] at whole
  have column : u32 (offsetX * px) ≡ px * offsetX [MOD 2 ^ 32] := by
    rw [Nat.mul_comm px]
    exact u32_modEq _
  have sum := (row.add column).add (u32_modEq (px * x))
  rwa [show px * ((y + offsetY) * width) + px * offsetX + px * x =
    px * ((y + offsetY) * width + (offsetX + x)) by ring] at sum

/-- It is not behind the right one, and is it only if nothing wraps. -/
theorem position_le (px width offsetX offsetY y x : Nat) :
    rowStart px width offsetX offsetY y + u32 (px * x) ≤
        px * ((y + offsetY) * width + (offsetX + x)) ∧
      (rowStart px width offsetX offsetY y + u32 (px * x) =
          px * ((y + offsetY) * width + (offsetX + x)) →
        px * ((y + offsetY) * width) < 2 ^ 32 ∧ px * offsetX < 2 ^ 32 ∧ px * x < 2 ^ 32) := by
  have row : u32 (u32 (u32 (y + offsetY) * px) * width) ≤ px * ((y + offsetY) * width) := by
    calc u32 (u32 (u32 (y + offsetY) * px) * width) ≤ u32 (u32 (y + offsetY) * px) * width :=
          u32_le _
      _ ≤ (y + offsetY) * px * width :=
          Nat.mul_le_mul_right _ ((u32_le _).trans (Nat.mul_le_mul_right _ (u32_le _)))
      _ = px * ((y + offsetY) * width) := by ring
  have column : u32 (offsetX * px) ≤ px * offsetX := by
    rw [Nat.mul_comm px]
    exact u32_le _
  have pixel : u32 (px * x) ≤ px * x := u32_le _
  have small : ∀ n, u32 n < 2 ^ 32 := fun n => Nat.mod_lt n (by decide)
  have rowSmall := small (u32 (u32 (y + offsetY) * px) * width)
  have columnSmall := small (offsetX * px)
  have pixelSmall := small (px * x)
  have sum : px * ((y + offsetY) * width + (offsetX + x)) =
      px * ((y + offsetY) * width) + px * offsetX + px * x := by ring
  unfold rowStart
  omega

/-- Either it is the right one, or a whole pixel lies between. -/
theorem position_cases {px width offsetX offsetY y x : Nat} (size : px ≤ 4) :
    rowStart px width offsetX offsetY y + u32 (px * x) =
        px * ((y + offsetY) * width + (offsetX + x)) ∨
      rowStart px width offsetX offsetY y + u32 (px * x) + px ≤
        px * ((y + offsetY) * width + (offsetX + x)) := by
  have below := (position_le px width offsetX offsetY y x).1
  have wraps := position_modEq px width offsetX offsetY y x
  rcases Nat.eq_or_lt_of_le below with same | less
  · exact Or.inl same
  · have gap := Nat.le_of_dvd (Nat.sub_pos_of_lt less) ((Nat.modEq_iff_dvd' below).1 wraps)
    omega

/-- What a write that succeeds leaves. -/
theorem writeBytes_written {data bytes next : Bytes} {offset : Nat}
    (writes : writeBytes data offset bytes = some next) : BytesWritten data offset bytes next := by
  by_cases empty : bytes = []
  · rw [writeBytes, if_pos empty] at writes
    rw [← Option.some.inj writes, empty]
    exact ⟨rfl, fun i inside => absurd inside (Nat.not_lt_zero i), fun _ _ => rfl⟩
  · have fits := (writeBytes_eq_some writes).1 (List.length_pos_iff.2 empty)
    obtain ⟨next', writes', written⟩ := writeBytes_inside fits
    rwa [← Option.some.inj (writes'.symm.trans writes)]

/-- A round that succeeds writes the pixel it composes. -/
theorem pixelRound_written {overlay s next : Bytes} {overRow underRow x : Nat}
    (h : pixelRound b d overlay overRow underRow x s = some next) :
    BytesWritten s (underRow + u32 (d.underPxSz * x))
      (composePixel b d (bytesAt s (underRow + u32 (d.underPxSz * x)) d.underPxSz)
        (bytesAt overlay (overRow + u32 (d.overPxSz * x)) d.overPxSz)) next := by
  have read : ∀ {data bytes : Bytes} {offset count : Nat},
      readBytes data offset count = some bytes → bytes = bytesAt data offset count := by
    intro data bytes offset count reads
    unfold readBytes at reads
    split at reads
    · exact (Option.some.inj reads).symm
    · cases reads
  obtain ⟨overPx, overEq, h⟩ := Option.bind_eq_some_iff.1 h
  obtain ⟨underPx, underEq, h⟩ := Option.bind_eq_some_iff.1 h
  rw [read overEq, read underEq] at h
  exact writeBytes_written h

/-- The bytes from an offset on are as they were. -/
def TailKept (offset : Nat) (under s : Bytes) : Prop := ∀ i, offset ≤ i → s[i]? = under[i]?

/-- A pixel that is composed in front of an offset keeps what is behind it. -/
theorem pixelRound_tail (proper : d.Proper) {overlay under s next : Bytes}
    {overRow underRow x offset : Nat} (kept : TailKept offset under s)
    (before : underRow + u32 (d.underPxSz * x) + d.underPxSz ≤ offset)
    (h : pixelRound b d overlay overRow underRow x s = some next) : TailKept offset under next := by
  have written := pixelRound_written h
  obtain ⟨overInside, underInside, same⟩ := pixelRound_eq_some proper h
  have size := @composePixel_length b d proper _ _
    (@bytesAt_length s (underRow + u32 (d.underPxSz * x)) d.underPxSz (by omega))
    (@bytesAt_length overlay (overRow + u32 (d.overPxSz * x)) d.overPxSz (by omega))
  intro i behind
  rw [written.outside i (by omega), kept i behind]

/-- Where the last pixel that is composed stands in the lower layer, and the offset that is computed
for it in either layer. -/
def ComposeData.lastOffset (d : ComposeData) : Nat :=
  d.underPxSz * ((d.rows - 1 + d.overOffsetY) * d.underWidth + (d.overOffsetX + (d.columns - 1)))

def ComposeData.underPosition (d : ComposeData) : Nat :=
  rowStart d.underPxSz d.underWidth d.overOffsetX d.overOffsetY (d.rows - 1) +
    u32 (d.underPxSz * (d.columns - 1))

def ComposeData.overPosition (d : ComposeData) : Nat :=
  rowStart d.overPxSz d.overWidth 0 0 (d.rows - 1) + u32 (d.overPxSz * (d.columns - 1))

/-- Every pixel before the last one is composed in front of it. -/
theorem earlier_position {y x : Nat} (inRow : x < d.columns)
    (earlier : y < d.rows - 1 ∨ y = d.rows - 1 ∧ x < d.columns - 1) :
    rowStart d.underPxSz d.underWidth d.overOffsetX d.overOffsetY y + u32 (d.underPxSz * x) +
      d.underPxSz ≤ d.lastOffset := by
  have below := (position_le d.underPxSz d.underWidth d.overOffsetX d.overOffsetY y x).1
  have narrow : d.columns ≤ d.underWidth - d.overOffsetX := Nat.min_le_left _ _
  have index : (y + d.overOffsetY) * d.underWidth + (d.overOffsetX + x) + 1 ≤
      (d.rows - 1 + d.overOffsetY) * d.underWidth + (d.overOffsetX + (d.columns - 1)) := by
    rcases earlier with above | ⟨rfl, left⟩
    · have step := Nat.mul_le_mul_right d.underWidth
        (show y + d.overOffsetY + 1 ≤ d.rows - 1 + d.overOffsetY by omega)
      rw [Nat.succ_mul] at step
      omega
    · omega
  have bytes := Nat.mul_le_mul_left d.underPxSz index
  rw [Nat.mul_succ] at bytes
  unfold ComposeData.lastOffset
  omega

/-- What stands at the last pixel in the end: its composed pixel if the offset in the lower layer is
right, and what was there if not. -/
theorem composeByPixels_last (proper : d.Proper) {under overlay next : Bytes}
    (someRow : d.rows ≠ 0) (someColumn : d.columns ≠ 0)
    (composes : composeByPixels b d under overlay = some next) :
    (d.underPosition = d.lastOffset →
        bytesAt next d.lastOffset d.underPxSz =
          composePixel b d (bytesAt under d.lastOffset d.underPxSz)
            (bytesAt overlay d.overPosition d.overPxSz)) ∧
      (d.underPosition ≠ d.lastOffset →
        bytesAt next d.lastOffset d.underPxSz = bytesAt under d.lastOffset d.underPxSz) := by
  have underSize : 0 < d.underPxSz ∧ d.underPxSz ≤ 4 := by
    rcases proper.under with size | size <;> omega
  obtain ⟨rows, rowsEq⟩ := Nat.exists_eq_succ_of_ne_zero someRow
  obtain ⟨columns, columnsEq⟩ := Nat.exists_eq_succ_of_ne_zero someColumn
  have rounds : ∀ {y n : Nat} {s s' : Bytes}, n ≤ d.columns →
      (∀ x, x < n → y < d.rows - 1 ∨ y = d.rows - 1 ∧ x < d.columns - 1) →
      TailKept d.lastOffset under s →
      forUp 0 n (pixelRound b d overlay (rowStart d.overPxSz d.overWidth 0 0 y)
        (rowStart d.underPxSz d.underWidth d.overOffsetX d.overOffsetY y)) s = some s' →
      TailKept d.lastOffset under s' := by
    intro y n s s' inside earlier kept loop
    refine forUp_carries (fun _ s => TailKept d.lastOffset under s) ?_ kept loop
    intro x s s' _ inRow kept composes
    exact pixelRound_tail proper kept
      (earlier_position (by omega) (earlier x (by omega))) composes
  unfold composeByPixels at composes
  rw [rowsEq, forUp_snoc, Nat.zero_add] at composes
  obtain ⟨s, allRows, lastRow⟩ := Option.bind_eq_some_iff.1 composes
  rw [columnsEq, forUp_snoc, Nat.zero_add] at lastRow
  obtain ⟨s', allPixels, lastPixel⟩ := Option.bind_eq_some_iff.1 lastRow
  have keptRows : TailKept d.lastOffset under s := by
    refine forUp_carries (fun _ s => TailKept d.lastOffset under s) ?_ (fun _ _ => rfl) allRows
    intro y s s' _ row kept loop
    exact rounds (Nat.le_refl _) (fun x _ => Or.inl (by omega)) kept loop
  have keptPixels : TailKept d.lastOffset under s' :=
    rounds (by omega) (fun x left => Or.inr ⟨by omega, by omega⟩) keptRows allPixels
  have written := pixelRound_written lastPixel
  have same : bytesAt s' d.lastOffset d.underPxSz = bytesAt under d.lastOffset d.underPxSz :=
    bytesAt_congr fun i _ => keptPixels _ (Nat.le_add_right _ _)
  have underPosition : rowStart d.underPxSz d.underWidth d.overOffsetX d.overOffsetY rows +
      u32 (d.underPxSz * columns) = d.underPosition := by
    unfold ComposeData.underPosition
    rw [rowsEq, columnsEq]
    rfl
  have overPosition : rowStart d.overPxSz d.overWidth 0 0 rows + u32 (d.overPxSz * columns) =
      d.overPosition := by
    unfold ComposeData.overPosition
    rw [rowsEq, columnsEq]
    rfl
  constructor
  · intro right
    obtain ⟨overInside, underInside, -⟩ := pixelRound_eq_some proper lastPixel
    have size := @composePixel_length b d proper _ _
      (@bytesAt_length s' d.underPosition d.underPxSz (by omega))
      (@bytesAt_length overlay d.overPosition d.overPxSz (by omega))
    rw [underPosition, overPosition, right, same] at written
    rw [right, same] at size
    have whole : bytesAt next d.lastOffset d.underPxSz =
        bytesAt (composePixel b d (bytesAt under d.lastOffset d.underPxSz)
          (bytesAt overlay d.overPosition d.overPxSz)) 0 d.underPxSz := by
      apply bytesAt_congr
      intro i inPixel
      rw [written.inside i (by omega), Nat.zero_add]
    rw [whole, bytesAt, List.drop_zero, List.take_of_length_le (Nat.le_of_eq size)]
  · intro wrong
    have before : d.underPosition + d.underPxSz ≤ d.lastOffset :=
      (position_cases underSize.2).resolve_left wrong
    have kept := pixelRound_tail proper keptPixels (by rw [underPosition]; exact before) lastPixel
    exact bytesAt_congr fun i _ => kept _ (Nat.le_add_right _ _)

/-! ### Exactly the layers that are composed right -/

/-- An opaque pixel replaces the one below it. -/
structure Blending.Replaces (b : Blending) : Prop where
  onOpaque : ∀ under overlay, b.onOpaque under overlay 255 = overlay
  alpha : ∀ destAlpha, b.alpha destAlpha 255 = 255
  onAlpha : ∀ dest destAlpha src, b.onAlpha dest destAlpha src 255 = src

/-- The first byte of a composed pixel is that of the upper one, if that is opaque. -/
theorem composePixel_first (replaces : b.Replaces) (proper : d.Proper) {under overlay : Bytes}
    (underSize : under.length = d.underPxSz) (overSize : overlay.length = d.overPxSz)
    (alpha : d.overPxSz = 4 → overlay[3]? = some 255) :
    (composePixel b d under overlay)[0]? = overlay[0]? := by
  obtain ⟨u, under', rfl⟩ := List.exists_cons_of_length_pos (show 0 < under.length by
    rcases proper.under with size | size <;> omega)
  obtain ⟨o, overlay', rfl⟩ := List.exists_cons_of_length_pos (show 0 < overlay.length by
    rcases proper.overlay with size | size <;> omega)
  unfold composePixel
  by_cases blends : d.needsBlending = true
  · have srcAlpha : (o :: overlay').getD 3 0 = 255 := by
      rw [List.getD_eq_getElem?_getD, alpha (proper.blending blends), Option.getD_some]
    rw [if_pos blends]
    split
    · unfold blendOnOpaque
      rw [srcAlpha]
      simp [replaces.onOpaque]
    · unfold alphaBlend
      simp only [srcAlpha, replaces.alpha]
      simp [replaces.onAlpha]
  · rw [if_neg blends]
    split
    · split <;> rfl
    · rfl

/-- An upper layer of white pixels with a black one at an offset. -/
def markedLayer (size position : Nat) : Bytes :=
  (List.range size).map fun i =>
    if position ≤ i ∧ i < position + 3 then 0 else 255

theorem markedLayer_get {size position i : Nat} (inside : i < size) :
    (markedLayer size position)[i]? =
      some (if position ≤ i ∧ i < position + 3 then 0 else 255) := by
  rw [markedLayer, List.getElem?_map, List.getElem?_range inside]
  rfl

/-- A pixel in front of the black one is white, and the black one is black; both are opaque. -/
theorem markedLayer_pixels {size position px offset : Nat} (three : 3 ≤ px) (four : px ≤ 4)
    (inside : position + px ≤ size) (before : offset = position ∨ offset + px ≤ position) :
    (bytesAt (markedLayer size position) offset px).length = px ∧
      (bytesAt (markedLayer size position) offset px)[0]? =
        some (if offset = position then 0 else 255) ∧
      (px = 4 → (bytesAt (markedLayer size position) offset px)[3]? = some 255) := by
  have length : (markedLayer size position).length = size := by simp [markedLayer]
  refine ⟨bytesAt_length (by omega), ?_, ?_⟩
  · rw [getElem?_bytesAt _ _ (by omega), markedLayer_get (by omega), Nat.add_zero]
    rcases before with rfl | front
    · rw [if_pos ⟨Nat.le_refl _, by omega⟩, if_pos rfl]
    · rw [if_neg (by omega), if_neg (by omega)]
  · intro alpha
    rw [getElem?_bytesAt _ _ (by omega), markedLayer_get (by omega), if_neg (by omega)]

/-- If all layers of these sizes are composed right, then the offsets fit. -/
theorem offsetsFit_of_clipped (replaces : b.Replaces) (proper : d.Proper)
    (clipped : ∀ under overlay, d.Sized under overlay → ComposesClipped b d under overlay)
    (someRow : d.rows ≠ 0) (someColumn : d.columns ≠ 0) : d.OffsetsFit := by
  have underSize : 3 ≤ d.underPxSz ∧ d.underPxSz ≤ 4 := by
    rcases proper.under with size | size <;> omega
  have overSize : 3 ≤ d.overPxSz ∧ d.overPxSz ≤ 4 := by
    rcases proper.overlay with size | size <;> omega
  have rows : d.rows = min (d.underHeight - d.overOffsetY) d.overHeight := rfl
  have columns : d.columns = min (d.underWidth - d.overOffsetX) d.overWidth := rfl
  -- grey below, and above a black pixel among white ones where the last pixel is read
  have overEnd := @row_end d.overPxSz d.overWidth d.overHeight (d.columns - 1) (d.rows - 1) 1
    (by omega) (by omega)
  have underEnd := @row_end d.underPxSz d.underWidth d.underHeight
    (d.overOffsetX + (d.columns - 1)) (d.rows - 1 + d.overOffsetY) 1 (by omega) (by omega)
  rw [Nat.mul_one] at overEnd underEnd
  let under : Bytes := List.replicate (d.underPxSz * (d.underWidth * d.underHeight)) 9
  let position := d.overPxSz * ((d.rows - 1) * d.overWidth + (d.columns - 1))
  let overlay := markedLayer (d.overPxSz * (d.overWidth * d.overHeight)) position
  have underLength : under.length = d.underPxSz * (d.underWidth * d.underHeight) :=
    List.length_replicate
  obtain ⟨next, -, result, composes⟩ := clipped under overlay
    ⟨underLength, by simp [overlay, markedLayer]⟩
  obtain ⟨right, wrong⟩ := composeByPixels_last proper someRow someColumn composes
  have greyLength : (bytesAt under d.lastOffset d.underPxSz).length = d.underPxSz :=
    bytesAt_length (by rw [underLength]; exact underEnd)
  have grey : (bytesAt under d.lastOffset d.underPxSz)[0]? = some 9 := by
    rw [getElem?_bytesAt _ _ (by omega), List.getElem?_replicate, if_pos]
    have inside : d.lastOffset + d.underPxSz ≤ d.underPxSz * (d.underWidth * d.underHeight) :=
      underEnd
    omega
  have covered : d.Covers (d.overOffsetX + (d.columns - 1)) (d.rows - 1 + d.overOffsetY) := by
    refine ⟨Nat.le_add_right _ _, by omega, Nat.le_add_left _ _, by omega⟩
  have pixel := result.pixels (d.overOffsetX + (d.columns - 1)) (d.rows - 1 + d.overOffsetY)
    (by omega) (by omega)
  rw [if_pos covered, Nat.add_sub_cancel_left, Nat.add_sub_cancel] at pixel
  have expected : bytesAt next d.lastOffset d.underPxSz =
      composePixel b d (bytesAt under d.lastOffset d.underPxSz)
        (bytesAt overlay position d.overPxSz) := pixel
  have first : ∀ {offset : Nat}, offset = position ∨ offset + d.overPxSz ≤ position →
      (composePixel b d (bytesAt under d.lastOffset d.underPxSz)
        (bytesAt overlay offset d.overPxSz))[0]? =
          some (if offset = position then 0 else 255) := by
    intro offset before
    obtain ⟨length, head, alpha⟩ :=
      @markedLayer_pixels _ position d.overPxSz offset overSize.1 overSize.2 overEnd before
    rw [composePixel_first replaces proper greyLength length alpha]
    exact head
  have black := first (Or.inl rfl)
  have underRight : d.underPosition = d.lastOffset := by
    by_contra other
    have kept := congrArg (fun bytes : Bytes => bytes[0]?) (expected.symm.trans (wrong other))
    simp only [black, grey] at kept
    exact absurd kept (by decide)
  have overCases :=
    @position_cases d.overPxSz d.overWidth 0 0 (d.rows - 1) (d.columns - 1) overSize.2
  have overFits := (position_le d.overPxSz d.overWidth 0 0 (d.rows - 1) (d.columns - 1)).2
  rw [Nat.zero_add] at overCases overFits
  have overRight : d.overPosition = position := by
    by_contra other
    have front : d.overPosition + d.overPxSz ≤ position := overCases.resolve_left other
    have white := first (Or.inr front)
    have same := congrArg (fun bytes : Bytes => bytes[0]?)
      (expected.symm.trans (right underRight))
    rw [if_neg other] at white
    simp only [black, white] at same
    exact absurd same (by decide)
  obtain ⟨underRow, underColumn, underPixel⟩ := (position_le d.underPxSz d.underWidth d.overOffsetX
    d.overOffsetY (d.rows - 1) (d.columns - 1)).2 underRight
  obtain ⟨overRow, -, overPixel⟩ := overFits overRight
  exact ⟨underRow, underColumn, underPixel, overRow, overPixel⟩

/-- All layers of the given sizes are composed right exactly where the offsets of the last pixel
that is composed fit in 32 bits. -/
theorem clippedComposition {b : Blending} (replaces : b.Replaces) {d : ComposeData}
    (proper : d.Proper) :
    (∀ under overlay, d.Sized under overlay → ComposesClipped b d under overlay) ↔
      (d.rows ≠ 0 → d.columns ≠ 0 → d.OffsetsFit) :=
  ⟨offsetsFit_of_clipped replaces proper,
    fun small _ _ sized => compose_clipped b proper small sized⟩

/-- Blending that takes the upper layer. -/
def overlayBlending : Blending where
  onOpaque _ o _ := o
  alpha _ a := a
  onAlpha _ _ s _ := s

theorem overlayBlending_replaces : overlayBlending.Replaces :=
  ⟨fun _ _ => rfl, fun _ => rfl, fun _ _ _ => rfl⟩

/-- A layer with an alpha channel that reaches beyond an opaque one. -/
def cornerData : ComposeData where
  needsBlending := true
  overPxSz := 4
  underPxSz := 3
  overWidth := 2
  overHeight := 1
  underWidth := 2
  underHeight := 2
  overOffsetX := 1
  overOffsetY := 1

theorem clippedComposition_corner :
    ComposesClipped overlayBlending cornerData (List.replicate 12 0) (List.replicate 8 9) :=
  (clippedComposition overlayBlending_replaces
    ⟨Or.inr rfl, Or.inl rfl, fun _ => rfl⟩).2
      (fun _ _ => ⟨by decide, by decide, by decide, by decide, by decide⟩)
      (List.replicate 12 0) (List.replicate 8 9) ⟨rfl, rfl⟩

/-- One pixel below the first 16384 rows of a layer of 65536 columns. -/
def tallData : ComposeData where
  overPxSz := 4
  underPxSz := 4
  overWidth := 1
  overHeight := 1
  underWidth := 65536
  underHeight := 16385
  overOffsetX := 0
  overOffsetY := 16384

theorem tallData_proper : tallData.Proper :=
  ⟨Or.inr rfl, Or.inr rfl, fun blends => Bool.noConfusion blends⟩

/-- The offset of a row that starts behind 4 GiB wraps: the pixel is written to the first row. -/
theorem compose_wraps {under : Bytes} (size : under.length = 4 * (65536 * 16385))
    (blank : bytesAt under (4 * (16384 * 65536)) 4 = List.replicate 4 0) :
    ∃ next, compose overlayBlending tallData under (List.replicate 4 1) = some next ∧
      pixelAt next 4 65536 0 0 = List.replicate 4 1 ∧
      pixelAt next 4 65536 0 16384 = List.replicate 4 0 := by
  obtain ⟨written, writes, changed⟩ := @writeBytes_inside under (List.replicate 4 1) 0 (by
    rw [size]
    decide)
  have row : composeRow overlayBlending tallData (List.replicate 4 1) 0 0 1 under =
      some written := by
    exact writes
  have start : rowStart 4 65536 0 16384 0 = 0 := by decide
  have loop : compose overlayBlending tallData under (List.replicate 4 1) =
      composeRow overlayBlending tallData (List.replicate 4 1) (rowStart 4 1 0 0 0)
        (rowStart 4 65536 0 16384 0) 1 under >>= some := rfl
  refine ⟨written, ?_, ?_, ?_⟩
  · rw [loop, start, show rowStart 4 1 0 0 0 = 0 from rfl, row]
    rfl
  · have same : pixelAt written 4 65536 0 0 = bytesAt (List.replicate 4 1) 0 4 :=
      bytesAt_congr fun i inPixel => by
        rw [changed.inside i inPixel, Nat.zero_add]
    rw [same]
    rfl
  · rw [← blank]
    apply bytesAt_congr
    intro i _
    apply changed.outside
    right
    exact Nat.le_trans (by decide) (Nat.le_add_right _ _)

/-- A transparent layer of that size. -/
def tallLayer : Bytes := List.replicate (4 * (65536 * 16385)) 0

theorem tallLayer_length : tallLayer.length = 4 * (65536 * 16385) := by
  exact List.length_replicate

theorem clippedComposition_tall :
    tallData.Proper ∧ tallData.Sized tallLayer (List.replicate 4 1) ∧
      ¬ ComposesClipped overlayBlending tallData tallLayer (List.replicate 4 1) := by
  have blank : bytesAt tallLayer (4 * (16384 * 65536)) 4 = List.replicate 4 0 := by
    unfold tallLayer
    rw [bytesAt, List.drop_replicate, List.take_replicate, Nat.min_eq_left (by decide)]
  refine ⟨tallData_proper, ⟨tallLayer_length, rfl⟩, ?_⟩
  rintro ⟨next, composes, clipped, -⟩
  obtain ⟨wrapped, composes', -, missed⟩ := compose_wraps tallLayer_length blank
  obtain rfl : wrapped = next := Option.some.inj (composes'.symm.trans composes)
  have pixel := clipped.pixels 0 16384 (by decide) (by decide)
  have below : pixelAt wrapped tallData.underPxSz tallData.underWidth 0 16384 =
      List.replicate 4 0 := missed
  rw [below] at pixel
  exact absurd pixel (by decide)

end Smelly
