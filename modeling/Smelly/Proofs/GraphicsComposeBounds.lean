/-
Module: Smelly.Proofs.GraphicsComposeBounds
Purpose: Which compose commands stay inside the pixels of the two frames.
Trusted boundary: none
-/
import Smelly.Core.GraphicsAnimation

namespace Smelly

open Checked

theorem u32_le (n : Nat) : u32 n ≤ n := Nat.mod_le _ _

/-! ### Single accesses -/

theorem readBytes_of_le (data : Bytes) (offset count : Nat) (h : offset + count ≤ data.length) :
    ∃ bytes, readBytes data offset count = some bytes ∧ bytes.length = count := by
  refine ⟨(data.drop offset).take count, by simp [readBytes, h], ?_⟩
  rw [List.length_take, List.length_drop]
  omega

theorem readBytes_eq_some {data bytes : Bytes} {offset count : Nat} (positive : 0 < count)
    (h : readBytes data offset count = some bytes) :
    offset + count ≤ data.length ∧ bytes.length = count := by
  unfold readBytes at h
  split at h
  · rename_i inside
    have reaches := inside.resolve_left (Nat.pos_iff_ne_zero.1 positive)
    refine ⟨reaches, ?_⟩
    rw [← Option.some.inj h, List.length_take, List.length_drop]
    omega
  · simp at h

theorem writeBytes_of_le (data bytes : Bytes) (offset : Nat)
    (h : offset + bytes.length ≤ data.length) :
    ∃ written, writeBytes data offset bytes = some written ∧ written.length = data.length := by
  unfold writeBytes
  by_cases empty : bytes = []
  · exact ⟨data, if_pos empty, rfl⟩
  · rw [if_neg empty, if_pos h]
    refine ⟨_, rfl, ?_⟩
    simp only [List.length_append, List.length_take, List.length_drop]
    omega

theorem writeBytes_eq_some {data bytes written : Bytes} {offset : Nat}
    (h : writeBytes data offset bytes = some written) :
    (0 < bytes.length → offset + bytes.length ≤ data.length) ∧ written.length = data.length := by
  unfold writeBytes at h
  split at h
  · rename_i empty
    rw [← Option.some.inj h, empty]
    exact ⟨fun positive => absurd positive (Nat.lt_irrefl 0), rfl⟩
  · split at h
    · rename_i inside
      refine ⟨fun _ => inside, ?_⟩
      rw [← Option.some.inj h]
      simp only [List.length_append, List.length_take, List.length_drop]
      omega
    · simp at h

/-- The pixel sizes that occur, where blending needs an upper layer with an alpha channel. -/
structure ComposeData.Proper (d : ComposeData) : Prop where
  overlay : d.overPxSz = 3 ∨ d.overPxSz = 4
  under : d.underPxSz = 3 ∨ d.underPxSz = 4
  blending : d.needsBlending = true → d.overPxSz = 4

variable {b : Blending} {d : ComposeData}

/-- A composed pixel is as large as the one below it. -/
theorem composePixel_length (proper : d.Proper) {under overlay : Bytes}
    (hunder : under.length = d.underPxSz) (hover : overlay.length = d.overPxSz) :
    (composePixel b d under overlay).length = d.underPxSz := by
  unfold composePixel
  split
  · rename_i blends
    have overSize := proper.blending blends
    split
    · rename_i three
      simp only [blendOnOpaque, List.length_map, List.length_zip]
      omega
    · rename_i notThree
      have four : d.underPxSz = 4 := proper.under.resolve_left notThree
      unfold alphaBlend
      dsimp only
      split
      · exact hunder
      · split
        · simp [four]
        · simp only [List.length_append, List.length_map, List.length_zip, List.length_take,
            List.length_singleton]
          omega
  · rcases proper.under with three | four
    · have over3 := proper.overlay
      rw [if_neg (by omega), List.length_take]
      omega
    · rw [if_pos four]
      split
      · omega
      · rename_i notFour
        have three : d.overPxSz = 3 := proper.overlay.resolve_right notFour
        rw [List.length_append, List.length_singleton]
        omega

/-! ### Rows -/

/-- One round of the pixel loop. -/
def pixelRound (b : Blending) (d : ComposeData) (overlay : Bytes) (overRow underRow x : Nat)
    (under : Bytes) : Option Bytes := do
  let overPx ← readBytes overlay (overRow + u32 (d.overPxSz * x)) d.overPxSz
  let underPx ← readBytes under (underRow + u32 (d.underPxSz * x)) d.underPxSz
  writeBytes under (underRow + u32 (d.underPxSz * x)) (composePixel b d underPx overPx)

theorem pixelRound_of_le (proper : d.Proper) (overlay under : Bytes) (overRow underRow x : Nat)
    (hover : overRow + d.overPxSz * (x + 1) ≤ overlay.length)
    (hunder : underRow + d.underPxSz * (x + 1) ≤ under.length) :
    ∃ next, pixelRound b d overlay overRow underRow x under = some next ∧
      next.length = under.length := by
  have overSmall := u32_le (d.overPxSz * x)
  have underSmall := u32_le (d.underPxSz * x)
  rw [Nat.mul_succ] at hover hunder
  obtain ⟨overPx, overEq, overLength⟩ := readBytes_of_le overlay
    (overRow + u32 (d.overPxSz * x)) d.overPxSz (by omega)
  obtain ⟨underPx, underEq, underLength⟩ := readBytes_of_le under
    (underRow + u32 (d.underPxSz * x)) d.underPxSz (by omega)
  have size := composePixel_length (b := b) proper underLength overLength
  obtain ⟨next, nextEq, nextLength⟩ := writeBytes_of_le under (composePixel b d underPx overPx)
    (underRow + u32 (d.underPxSz * x)) (by omega)
  exact ⟨next, by simp [pixelRound, overEq, underEq, nextEq], nextLength⟩

theorem pixelRound_eq_some (proper : d.Proper) {overlay under next : Bytes}
    {overRow underRow x : Nat}
    (h : pixelRound b d overlay overRow underRow x under = some next) :
    overRow + u32 (d.overPxSz * x) + d.overPxSz ≤ overlay.length ∧
      underRow + u32 (d.underPxSz * x) + d.underPxSz ≤ under.length ∧
      next.length = under.length := by
  obtain ⟨overPx, overEq, h⟩ := Option.bind_eq_some_iff.1 h
  obtain ⟨underPx, underEq, h⟩ := Option.bind_eq_some_iff.1 h
  have overSize : 0 < d.overPxSz := by rcases proper.overlay with size | size <;> omega
  have underSize : 0 < d.underPxSz := by rcases proper.under with size | size <;> omega
  exact ⟨(readBytes_eq_some overSize overEq).1, (readBytes_eq_some underSize underEq).1,
    (writeBytes_eq_some h).2⟩

/-- A row whose ends lie inside both buffers. -/
theorem composeRow_inside (proper : d.Proper) (overlay under : Bytes) (overRow underRow width : Nat)
    (hover : overRow + d.overPxSz * width ≤ overlay.length)
    (hunder : underRow + d.underPxSz * width ≤ under.length) :
    ∃ next, composeRow b d overlay overRow underRow width under = some next ∧
      next.length = under.length := by
  unfold composeRow
  split
  · rename_i whole
    obtain ⟨row, rowEq, rowLength⟩ := readBytes_of_le overlay overRow _ hover
    obtain ⟨next, nextEq, nextLength⟩ := writeBytes_of_le under row underRow
      (by rw [rowLength, whole.2]; exact hunder)
    exact ⟨next, by simp [rowEq, nextEq], nextLength⟩
  · have round : ∀ (x : Nat) (next : Bytes), 0 ≤ x → x < 0 + width → next.length = under.length →
        ∃ after, pixelRound b d overlay overRow underRow x next = some after ∧
          after.length = under.length := by
      intro x next _ inRow same
      have overEnd := Nat.mul_le_mul_left d.overPxSz (show x + 1 ≤ width by omega)
      have underEnd := Nat.mul_le_mul_left d.underPxSz (show x + 1 ≤ width by omega)
      obtain ⟨after, afterEq, afterLength⟩ := pixelRound_of_le (b := b) proper overlay next overRow
        underRow x (by omega) (by omega)
      exact ⟨after, afterEq, afterLength.trans same⟩
    exact forUp_invariant (fun _ (next : Bytes) => next.length = under.length) rfl round

/-- Among the pixels of a row there is one whose end lies as far from the start as the row is long,
or at the first offset that does not fit in 32 bits. -/
theorem exists_far_pixel {px width : Nat} (hpx : 3 ≤ px ∧ px ≤ 4) (hwidth : 0 < width) :
    ∃ x, x < width ∧ min (px * width) (2 ^ 32) ≤ u32 (px * x) + px := by
  rcases Nat.lt_or_ge (px * (width - 1)) (2 ^ 32) with small | large
  · refine ⟨width - 1, by omega, ?_⟩
    rw [u32, Nat.mod_eq_of_lt small, ← Nat.mul_succ, show (width - 1).succ = width by omega]
    exact Nat.min_le_left _ _
  · have position := Nat.mul_div_le (2 ^ 32 - 1) px
    have next := Nat.lt_mul_div_succ (2 ^ 32 - 1) (show 0 < px by omega)
    rw [Nat.mul_succ] at next
    have below : (2 ^ 32 - 1) / px < width := by
      by_contra outside
      have := Nat.mul_le_mul_left px (show width ≤ (2 ^ 32 - 1) / px by omega)
      have := Nat.mul_le_mul_left px (show width - 1 ≤ width by omega)
      omega
    refine ⟨(2 ^ 32 - 1) / px, below, ?_⟩
    rw [u32, Nat.mod_eq_of_lt (by omega)]
    have := Nat.min_le_right (px * width) (2 ^ 32)
    omega

/-- A row that is composed reaches as far as it is long in both buffers, unless its offsets wrap,
when it reaches past everything that 32 bits can address. -/
theorem composeRow_reaches (proper : d.Proper) {overlay under next : Bytes}
    {overRow underRow width : Nat} (hwidth : 0 < width)
    (h : composeRow b d overlay overRow underRow width under = some next) :
    next.length = under.length ∧
      overRow + min (d.overPxSz * width) (2 ^ 32) ≤ overlay.length ∧
      underRow + min (d.underPxSz * width) (2 ^ 32) ≤ under.length := by
  have overSize : 3 ≤ d.overPxSz ∧ d.overPxSz ≤ 4 := by
    have := proper.overlay
    omega
  have underSize : 3 ≤ d.underPxSz ∧ d.underPxSz ≤ 4 := by
    have := proper.under
    omega
  unfold composeRow at h
  split at h
  · rename_i whole
    obtain ⟨row, rowEq, h⟩ := Option.bind_eq_some_iff.1 h
    have size : 0 < d.overPxSz * width := Nat.mul_pos (by omega) hwidth
    obtain ⟨overInside, rowLength⟩ := readBytes_eq_some size rowEq
    obtain ⟨reaches, same⟩ := writeBytes_eq_some h
    have underInside := reaches (by rw [rowLength]; exact size)
    rw [rowLength, whole.2] at underInside
    have := Nat.min_le_left (d.overPxSz * width) (2 ^ 32)
    have := Nat.min_le_left (d.underPxSz * width) (2 ^ 32)
    exact ⟨same, by omega, by omega⟩
  · have keeps : ∀ (x : Nat) (s s' : Bytes), s.length = under.length →
        pixelRound b d overlay overRow underRow x s = some s' → s'.length = under.length :=
      fun x s s' same stepEq => (pixelRound_eq_some proper stepEq).2.2.trans same
    have far : ∀ x, x < width → overRow + u32 (d.overPxSz * x) + d.overPxSz ≤ overlay.length ∧
        underRow + u32 (d.underPxSz * x) + d.underPxSz ≤ under.length := by
      intro x inRow
      obtain ⟨s, s', same, stepEq⟩ := forUp_round (fun s : Bytes => s.length = under.length)
        keeps rfl h (Nat.zero_le x) (by omega)
      obtain ⟨overInside, underInside, -⟩ := pixelRound_eq_some proper stepEq
      exact ⟨overInside, same ▸ underInside⟩
    have lengths : next.length = under.length :=
      forUp_keeps (fun s : Bytes => s.length = under.length) keeps rfl h
    obtain ⟨x, xLt, overFar⟩ := exists_far_pixel overSize hwidth
    obtain ⟨x', xLt', underFar⟩ := exists_far_pixel underSize hwidth
    have overInside := (far x xLt).1
    have underInside := (far x' xLt').2
    exact ⟨lengths, by omega, by omega⟩

/-! ### Rectangles -/

/-- The rectangle lies in the image, without any 32 bit number wrapping. -/
structure ComposeData.Fits (d : ComposeData) (width height : Nat) : Prop where
  stride : d.stride = width
  overX : d.overOffsetX + d.overWidth ≤ width
  overY : d.overOffsetY + d.overHeight ≤ height
  underX : d.underOffsetX + d.underWidth ≤ width
  underY : d.underOffsetY + d.underHeight ≤ height

theorem rowStart_le (px width height offsetX offsetY y rowWidth : Nat)
    (hx : offsetX + rowWidth ≤ width) (hy : y + offsetY < height) :
    rowStart px width offsetX offsetY y + px * rowWidth ≤ px * (width * height) := by
  have first : u32 (u32 (u32 (y + offsetY) * px) * width) ≤ (y + offsetY) * px * width :=
    (u32_le _).trans (Nat.mul_le_mul_right _ ((u32_le _).trans (Nat.mul_le_mul_right _ (u32_le _))))
  have second : u32 (offsetX * px) ≤ offsetX * px := u32_le _
  have row : px * (offsetX + rowWidth) ≤ px * width := Nat.mul_le_mul_left px hx
  have rows : px * width * (y + offsetY + 1) ≤ px * width * height := Nat.mul_le_mul_left _ hy
  rw [Nat.mul_succ, Nat.mul_comm (px * width), ← Nat.mul_assoc] at rows
  rw [Nat.mul_add, Nat.mul_comm px offsetX] at row
  rw [← Nat.mul_assoc]
  unfold rowStart
  omega

/-- A rectangle that fits is composed without leaving the pixels of either frame. -/
theorem composeRectangles_inside (proper : d.Proper) {width height : Nat}
    (fits : d.Fits width height) {under overlay : Bytes}
    (hunder : under.length = d.underPxSz * (width * height))
    (hover : overlay.length = d.overPxSz * (width * height)) :
    ∃ next, composeRectangles b d under overlay = some next ∧ next.length = under.length := by
  have round : ∀ (y : Nat) (next : Bytes), 0 ≤ y → y < 0 + min d.underHeight d.overHeight →
      next.length = under.length →
      ∃ after, composeRow b d overlay (rowStart d.overPxSz d.stride d.overOffsetX d.overOffsetY y)
        (rowStart d.underPxSz d.stride d.underOffsetX d.underOffsetY y)
        (min d.underWidth d.overWidth) next = some after ∧ after.length = under.length := by
    intro y next _ inside same
    have overX := fits.overX
    have overY := fits.overY
    have underX := fits.underX
    have underY := fits.underY
    have overRow := rowStart_le d.overPxSz width height d.overOffsetX d.overOffsetY y
      (min d.underWidth d.overWidth) (by omega) (by omega)
    have underRow := rowStart_le d.underPxSz width height d.underOffsetX d.underOffsetY y
      (min d.underWidth d.overWidth) (by omega) (by omega)
    rw [fits.stride]
    obtain ⟨after, afterEq, afterLength⟩ := composeRow_inside (b := b) proper overlay next _ _ _
      (by rw [hover]; exact overRow) (by rw [same, hunder]; exact underRow)
    exact ⟨after, afterEq, afterLength.trans same⟩
  exact forUp_invariant (fun _ (next : Bytes) => next.length = under.length) rfl round

/-- If all rows of a rectangle lie in a buffer that 32 bits can address, with a row to spare, then
the sums of its offsets and its size fit in 32 bits. -/
theorem sums_fit_of_rows {px width height offsetX offsetY rowWidth rows : Nat}
    (hpx : 3 ≤ px ∧ px ≤ 4) (hwidth : 0 < width) (hrow : 0 < rowWidth)
    (hrows : 0 < rows) (hx : offsetX < 2 ^ 32) (hy : offsetY < 2 ^ 32)
    (small : px * width * (height + 1) ≤ 2 ^ 32)
    (inside : ∀ y, y < rows → rowStart px width offsetX offsetY y + min (px * rowWidth) (2 ^ 32) ≤
      px * (width * height)) :
    offsetX + rowWidth < 2 ^ 32 ∧ offsetY + rows < 2 ^ 32 := by
  rw [Nat.mul_succ] at small
  rw [← Nat.mul_assoc] at inside
  have positive : 0 < px * width := Nat.mul_pos (by omega) hwidth
  constructor
  · by_contra wraps
    have first := inside 0 hrows
    unfold rowStart at first
    have product : px * 2 ^ 32 ≤ px * (offsetX + rowWidth) :=
      Nat.mul_le_mul_left px (show 2 ^ 32 ≤ offsetX + rowWidth by omega)
    rw [Nat.mul_add, Nat.mul_comm px offsetX] at product
    have quotient : offsetX * px / 2 ^ 32 < px := by
      rw [Nat.div_lt_iff_lt_mul (by decide), Nat.mul_comm]
      exact (Nat.mul_lt_mul_left (show 0 < px by omega)).2 hx
    have division := Nat.div_add_mod (offsetX * px) (2 ^ 32)
    have quotient' : 2 ^ 32 * (offsetX * px / 2 ^ 32) ≤ 2 ^ 32 * (px - 1) :=
      Nat.mul_le_mul_left _ (by omega)
    unfold u32 at first
    omega
  · by_contra wraps
    have last := inside (2 ^ 32 - 1 - offsetY) (by omega)
    have start : u32 (u32 (u32 (2 ^ 32 - 1 - offsetY + offsetY) * px) * width) =
        2 ^ 32 - px * width := by
      have bottom : u32 (2 ^ 32 - 1 - offsetY + offsetY) = 2 ^ 32 - 1 := by
        rw [Nat.sub_add_cancel (by omega)]
        rfl
      have scaled : u32 ((2 ^ 32 - 1) * px) = 2 ^ 32 - px := by
        unfold u32
        omega
      have expanded : (2 ^ 32 - px) * width = (2 ^ 32 - px * width) + 2 ^ 32 * (width - 1) := by
        rw [Nat.sub_mul, Nat.mul_sub, Nat.mul_one]
        have := Nat.mul_le_mul_left (2 ^ 32) hwidth
        omega
      rw [bottom, scaled, expanded, u32, Nat.add_mul_mod_self_left]
      exact Nat.mod_eq_of_lt (by omega)
    unfold rowStart at last
    rw [start] at last
    have := Nat.mul_pos (show 0 < px by omega) hrow
    omega

/-! ### Compose commands -/

/-- If the checks pass, then both rectangles are composed without leaving the pixels of the image,
whichever of the frames are opaque. -/
def ComposesInside (b : Blending) (g : GraphicsCommand) (img : Image) : Prop :=
  ∀ d, composeRectanglesFor g img = .ok d → ∀ srcOpaque destOpaque under overlay,
    under.length = pixelSize destOpaque * (img.width * img.height) →
    overlay.length = pixelSize srcOpaque * (img.width * img.height) →
    (composeRectangles b (d srcOpaque destOpaque) under overlay).isSome = true

/-- The width and the height of the rectangles. -/
def composeWidth (g : GraphicsCommand) (img : Image) : Nat :=
  if g.width = 0 then img.width else g.width

def composeHeight (g : GraphicsCommand) (img : Image) : Nat :=
  if g.height = 0 then img.height else g.height

/-- None of the sums that the checks compute needs more than 32 bits. -/
structure SumsFit (g : GraphicsCommand) (img : Image) : Prop where
  destX : g.xOffset + composeWidth g img < 2 ^ 32
  destY : g.yOffset + composeHeight g img < 2 ^ 32
  srcX : g.cellXOffset + composeWidth g img < 2 ^ 32
  srcY : g.cellYOffset + composeHeight g img < 2 ^ 32

/-- The offsets of a command, and an image whose pixels 32 bits can address with a row to spare. -/
structure SmallCompose (g : GraphicsCommand) (img : Image) : Prop where
  xOffset : g.xOffset < 2 ^ 32
  yOffset : g.yOffset < 2 ^ 32
  cellXOffset : g.cellXOffset < 2 ^ 32
  cellYOffset : g.cellYOffset < 2 ^ 32
  width : 0 < img.width
  height : 0 < img.height
  addressable : 4 * img.width * (img.height + 1) ≤ 2 ^ 32

/-- The rectangles of a compose command. -/
def rectanglesOf (g : GraphicsCommand) (img : Image) (srcOpaque destOpaque : Bool) : ComposeData :=
  { overPxSz := pixelSize srcOpaque
    underPxSz := pixelSize destOpaque
    needsBlending := g.composeMode = 0 && !srcOpaque
    overOffsetX := g.cellXOffset
    overOffsetY := g.cellYOffset
    underOffsetX := g.xOffset
    underOffsetY := g.yOffset
    overWidth := composeWidth g img
    overHeight := composeHeight g img
    underWidth := composeWidth g img
    underHeight := composeHeight g img
    stride := img.width }

/-- What `handle_compose_command` composes when its checks pass. -/
theorem composeRectanglesFor_ok {g : GraphicsCommand} {img : Image} {d : Bool → Bool → ComposeData}
    (h : composeRectanglesFor g img = .ok d) :
    u32 (g.xOffset + composeWidth g img) ≤ img.width ∧
      u32 (g.yOffset + composeHeight g img) ≤ img.height ∧
      u32 (g.cellXOffset + composeWidth g img) ≤ img.width ∧
      u32 (g.cellYOffset + composeHeight g img) ≤ img.height ∧ d = rectanglesOf g img := by
  by_cases dest : img.width < u32 (g.xOffset + composeWidth g img) ∨
      img.height < u32 (g.yOffset + composeHeight g img)
  · exact nomatch (if_pos dest).symm.trans h
  have h := (if_neg dest).symm.trans h
  by_cases src : img.width < u32 (g.cellXOffset + composeWidth g img) ∨
      img.height < u32 (g.cellYOffset + composeHeight g img)
  · exact nomatch (if_pos src).symm.trans h
  have h := (if_neg src).symm.trans h
  by_cases overlap : g.frameNumber = g.otherFrameNumber ∧
      max g.cellXOffset g.xOffset < u32 (min g.cellXOffset g.xOffset + composeWidth g img) ∧
      max g.cellYOffset g.yOffset < u32 (min g.cellYOffset g.yOffset + composeHeight g img)
  · exact nomatch (if_pos overlap).symm.trans h
  have h := (if_neg overlap).symm.trans h
  have destFits := not_or.1 dest
  have srcFits := not_or.1 src
  exact ⟨Nat.le_of_not_lt destFits.1, Nat.le_of_not_lt destFits.2,
    Nat.le_of_not_lt srcFits.1, Nat.le_of_not_lt srcFits.2, (Except.ok.inj h).symm⟩

theorem rectanglesOf_proper (g : GraphicsCommand) (img : Image) (srcOpaque destOpaque : Bool) :
    (rectanglesOf g img srcOpaque destOpaque).Proper where
  overlay := by cases srcOpaque <;> simp [rectanglesOf, pixelSize]
  under := by cases destOpaque <;> simp [rectanglesOf, pixelSize]
  blending := by cases srcOpaque <;> simp [rectanglesOf, pixelSize]

/-- Compose commands stay inside the pixels of both frames if no sum in the checks that pass wraps;
and for images of ordinary size only then. -/
theorem composeRectangles_inside_iff (b : Blending) (g : GraphicsCommand) (img : Image) :
    ((∀ d, composeRectanglesFor g img = .ok d → SumsFit g img) → ComposesInside b g img) ∧
      (SmallCompose g img →
        (ComposesInside b g img ↔ ∀ d, composeRectanglesFor g img = .ok d → SumsFit g img)) := by
  have enough : (∀ d, composeRectanglesFor g img = .ok d → SumsFit g img) →
      ComposesInside b g img := by
    intro fit d accepted srcOpaque destOpaque under overlay hunder hover
    have sums := fit d accepted
    obtain ⟨destX, destY, srcX, srcY, rfl⟩ := composeRectanglesFor_ok accepted
    rw [u32, Nat.mod_eq_of_lt sums.destX] at destX
    rw [u32, Nat.mod_eq_of_lt sums.destY] at destY
    rw [u32, Nat.mod_eq_of_lt sums.srcX] at srcX
    rw [u32, Nat.mod_eq_of_lt sums.srcY] at srcY
    obtain ⟨next, nextEq, -⟩ := composeRectangles_inside (b := b)
      (rectanglesOf_proper g img srcOpaque destOpaque) ⟨rfl, srcX, srcY, destX, destY⟩ hunder hover
    rw [nextEq]
    rfl
  refine ⟨enough, fun small => ⟨fun inside d accepted => ?_, enough⟩⟩
  -- two opaque frames show how far the rows reach
  have proper := rectanglesOf_proper g img true true
  have composed := inside d accepted true true
    (List.replicate (3 * (img.width * img.height)) 0)
    (List.replicate (3 * (img.width * img.height)) 0) List.length_replicate List.length_replicate
  obtain ⟨next, nextEq⟩ := Option.isSome_iff_exists.1 composed
  obtain ⟨-, -, -, -, rfl⟩ := composeRectanglesFor_ok accepted
  have width : 0 < composeWidth g img := by
    have := small.width
    unfold composeWidth
    split <;> omega
  have height : 0 < composeHeight g img := by
    have := small.height
    unfold composeHeight
    split <;> omega
  have rows : ∀ y, y < composeHeight g img →
      rowStart 3 img.width g.cellXOffset g.cellYOffset y + min (3 * composeWidth g img) (2 ^ 32) ≤
          3 * (img.width * img.height) ∧
        rowStart 3 img.width g.xOffset g.yOffset y + min (3 * composeWidth g img) (2 ^ 32) ≤
          3 * (img.width * img.height) := by
    intro y below
    have rowWidth : min (rectanglesOf g img true true).underWidth
        (rectanglesOf g img true true).overWidth = composeWidth g img := Nat.min_self _
    obtain ⟨s, s', same, stepEq⟩ := forUp_round
      (fun s : Bytes => s.length = 3 * (img.width * img.height))
      (fun i s s' same stepEq => (composeRow_reaches proper
        (by rw [rowWidth]; exact width) stepEq).1.trans same)
      List.length_replicate nextEq (Nat.zero_le y)
      (by rw [Nat.zero_add]; exact Nat.lt_min.2 ⟨below, below⟩)
    obtain ⟨-, overReach, underReach⟩ := composeRow_reaches proper
      (by rw [rowWidth]; exact width) stepEq
    rw [rowWidth, List.length_replicate] at overReach
    rw [rowWidth, same] at underReach
    exact ⟨overReach, underReach⟩
  have addressable : 3 * img.width * (img.height + 1) ≤ 2 ^ 32 :=
    (Nat.mul_le_mul_right _ (Nat.mul_le_mul_right _ (by decide))).trans small.addressable
  have src := sums_fit_of_rows (by decide) small.width width height small.cellXOffset
    small.cellYOffset addressable fun y below => (rows y below).1
  have dest := sums_fit_of_rows (by decide) small.width width height small.xOffset
    small.yOffset addressable fun y below => (rows y below).2
  exact ⟨dest.1, dest.2, src.1, src.2⟩

/-- A pixel of a small image is composed onto another one. -/
theorem composeRectangles_inside_onePixel :
    ComposesInside { onOpaque := fun _ o _ => o, alpha := fun _ a => a, onAlpha := fun _ _ s _ => s }
        { xOffset := 1, width := 1, height := 1, numLines := 1, numCells := 2 }
        { width := 2, height := 2 } ↔
      ∀ d, composeRectanglesFor { xOffset := 1, width := 1, height := 1, numLines := 1, numCells := 2 }
          { width := 2, height := 2 } = .ok d →
        SumsFit { xOffset := 1, width := 1, height := 1, numLines := 1, numCells := 2 }
          { width := 2, height := 2 } :=
  (composeRectangles_inside_iff _ _ _).2
    ⟨by decide, by decide, by decide, by decide, by decide, by decide, by decide⟩

/-- A rectangle of one pixel at the column `2^32 - 1` passes the checks. -/
theorem composeRectangles_wraps :
    ¬ ComposesInside { onOpaque := fun _ o _ => o, alpha := fun _ a => a, onAlpha := fun _ _ s _ => s }
      { xOffset := 2 ^ 32 - 1, width := 1, height := 1, numLines := 1, numCells := 2 }
      { width := 2, height := 2 } := by
  intro inside
  have composed := inside _ rfl true true (List.replicate 12 0) (List.replicate 12 0) rfl rfl
  revert composed
  decide

end Smelly
