/-
Module: Smelly.Proofs.CharacterShifts
Purpose: What inserting and deleting characters makes of the cursor's line: every cell is moved as
  it is, but for the one that comes to lie on the edge, which the code looks at after the move.
Trusted boundary: none
-/
import Smelly.Core.ScreenEditing
import Smelly.Proofs.LineBufRows

namespace Smelly

open Checked

/-! ### What a shift should do -/

/-- The two halves of a wide character stand at `k` and `k + 1`. -/
def WideAt (row : Row) (k : Nat) : Prop :=
  (∃ left, row[k]? = some left ∧ left.gpu.attrs.width = 2) ∧
    ∃ right, row[k + 1]? = some right ∧ right.gpu.attrs.width = 0

/-- The cell belongs to a wide character of which exactly one half is lost. -/
def HalfLost (lost : Nat → Prop) (row : Row) (j : Nat) : Prop :=
  ∃ k, WideAt row k ∧ (j = k ∨ j = k + 1) ∧ ¬ (lost k ↔ lost (k + 1))

/-- Nothing is left of a character. -/
def Erased (cell : Cell) : Prop := cell.cpu.ch = blankChar ∧ cell.gpu.attrs.width = 0

/-- The blank `line_apply_cursor` leaves, whatever was there before. -/
def cursorBlank (cursor : Cursor) : Cell := applyCursorCell cursor Cell.zero

/-- The columns a shift of `num` cells at `x` is about: the cells from `source` on move to
`target`, and the blanks start at `gap`. -/
structure ShiftPlan where
  x : Nat
  num : Nat
  source : Nat
  target : Nat
  gap : Nat
  lost : Nat → Prop

def deletePlan (columns x num : Nat) : ShiftPlan where
  x := x
  num := num
  source := x + num
  target := x
  gap := columns - num
  lost j := x ≤ j ∧ j < x + num

def insertPlan (columns x num : Nat) : ShiftPlan where
  x := x
  num := num
  source := x
  target := x + num
  gap := x
  lost j := columns - num ≤ j ∧ j < columns

/-- The cells are shifted as planned, and a wide character is erased only when exactly one of its
halves is lost. -/
structure ShiftsCharacters (plan : ShiftPlan) (cursor : Cursor) (row row' : Row) : Prop where
  length : row'.length = row.length
  before : ∀ j < plan.x, row'[j]? = row[j]?
  moved : ∀ i, plan.x + plan.num + i < row.length →
    row'[plan.target + i]? = row[plan.source + i]? ∨
      HalfLost plan.lost row (plan.source + i) ∧
        ∃ cell, row'[plan.target + i]? = some cell ∧ Erased cell
  whole : ∀ i, plan.x + plan.num + i + 1 < row.length → WideAt row (plan.source + i) →
    row'[plan.target + i]? = row[plan.source + i]? ∧
      row'[plan.target + i + 1]? = row[plan.source + i + 1]?
  blanked : ∀ i < plan.num, row'[plan.gap + i]? = some (cursorBlank cursor)

/-- A blank cell without attributes, hyperlink or sprite. -/
structure PlainBlank (cell : Cell) : Prop where
  ch : cell.cpu.ch = blankChar
  hyperlink : cell.cpu.hyperlinkId = 0
  attrs : cell.gpu.attrs = {}
  spriteX : cell.gpu.spriteX = 0
  spriteY : cell.gpu.spriteY = 0
  spriteZ : cell.gpu.spriteZ = 0

/-- The cell that comes to lie on the edge is a narrow character, a blank without attributes, or
the half of a wide character whose other half is lost. -/
def EdgeFits (lost : Nat → Prop) (row : Row) (k : Nat) : Prop :=
  ∀ cell, row[k]? = some cell →
    cell.gpu.attrs.width = 1 ∨ PlainBlank cell ∨ HalfLost lost row k

/-! ### What a shift does -/

/-- What the check after the move makes of the cell on the edge. -/
def edgeCell (cell : Cell) : Cell :=
  if cell.gpu.attrs.width ≠ 1 then splitWideCell cell else cell

/-- The cells are shifted as planned, and the one that was at `landing` is looked at again. -/
structure ShiftOutcome (plan : ShiftPlan) (landing : Nat) (cursor : Cursor) (row row' : Row) :
    Prop where
  length : row'.length = row.length
  before : ∀ j < plan.x, row'[j]? = row[j]?
  moved : ∀ i, plan.x + plan.num + i < row.length → row'[plan.target + i]? =
    if i = landing then (row[plan.source + i]?).map edgeCell else row[plan.source + i]?
  blanked : ∀ i < plan.num, row'[plan.gap + i]? = some (cursorBlank cursor)

theorem splitWideCell_erased (cell : Cell) : Erased (splitWideCell cell) := ⟨rfl, rfl⟩

theorem splitWideCell_eq_iff (cell : Cell) : splitWideCell cell = cell ↔ PlainBlank cell := by
  constructor
  · intro h
    have cpu : (splitWideCell cell).cpu = cell.cpu := congrArg Cell.cpu h
    have gpu : (splitWideCell cell).gpu = cell.gpu := congrArg Cell.gpu h
    exact
      { ch := (congrArg CPUCell.ch cpu).symm
        hyperlink := (congrArg CPUCell.hyperlinkId cpu).symm
        attrs := (congrArg GPUCell.attrs gpu).symm
        spriteX := (congrArg GPUCell.spriteX gpu).symm
        spriteY := (congrArg GPUCell.spriteY gpu).symm
        spriteZ := (congrArg GPUCell.spriteZ gpu).symm }
  · intro h
    obtain ⟨⟨ch, hyperlinkId, ccIdx⟩, ⟨fg, bg, decorationFg, spriteX, spriteY, spriteZ, attrs⟩⟩ :=
      cell
    obtain ⟨rfl, rfl, rfl, rfl, rfl, rfl⟩ := h
    rfl

theorem edgeCell_narrow {cell : Cell} (h : cell.gpu.attrs.width = 1) : edgeCell cell = cell :=
  if_neg (not_not_intro h)

theorem edgeCell_other {cell : Cell} (h : cell.gpu.attrs.width ≠ 1) :
    edgeCell cell = splitWideCell cell :=
  if_pos h

/-- Both halves of a wide character survive, so neither cell is half of a lost one. -/
theorem not_halfLost_of_whole {lost : Nat → Prop} {row : Row} {k : Nat} (wide : WideAt row k)
    (left : ¬ lost k) (right : ¬ lost (k + 1)) :
    ¬ HalfLost lost row k ∧ ¬ HalfLost lost row (k + 1) := by
  obtain ⟨⟨leftCell, leftEq, leftWidth⟩, rightCell, rightEq, rightWidth⟩ := wide
  constructor
  · rintro ⟨m, ⟨⟨mLeft, mLeftEq, mLeftWidth⟩, mRight, mRightEq, mRightWidth⟩, rfl | rfl, split⟩
    · exact split (iff_of_false left right)
    · rw [mRightEq] at leftEq
      rw [Option.some.inj leftEq, leftWidth] at mRightWidth
      exact absurd mRightWidth (by decide)
  · rintro ⟨m, ⟨⟨mLeft, mLeftEq, mLeftWidth⟩, mRight, mRightEq, mRightWidth⟩, h | h, split⟩
    · rw [← h, rightEq] at mLeftEq
      rw [← Option.some.inj mLeftEq, rightWidth] at mLeftWidth
      exact absurd mLeftWidth (by decide)
    · rw [← Nat.succ.inj h] at split
      exact split (iff_of_false left right)

section Plan

variable {plan : ShiftPlan} {landing : Nat} {cursor : Cursor} {row row' : Row}

/-- The shift is the one that is asked for exactly when the cell on the edge fits. -/
theorem ShiftOutcome.shifts_iff (outcome : ShiftOutcome plan landing cursor row row')
    (survive : ∀ i, plan.x + plan.num + i < row.length → ¬ plan.lost (plan.source + i)) :
    ShiftsCharacters plan cursor row row' ↔
      (plan.x + plan.num + landing < row.length →
        EdgeFits plan.lost row (plan.source + landing)) := by
  obtain ⟨length, before, moved, blanked⟩ := outcome
  constructor
  · intro shifts inside cell cellEq
    by_cases narrow : cell.gpu.attrs.width = 1
    · exact Or.inl narrow
    · right
      have landed := moved landing inside
      rw [if_pos rfl, cellEq, Option.map_some, edgeCell_other narrow] at landed
      cases shifts.moved landing inside with
      | inl same =>
        rw [landed, cellEq] at same
        exact Or.inl ((splitWideCell_eq_iff cell).1 (Option.some.inj same))
      | inr erased => exact Or.inr erased.1
  · intro fits
    have movedTo : ∀ i, plan.x + plan.num + i < row.length →
        row'[plan.target + i]? = row[plan.source + i]? ∨
          HalfLost plan.lost row (plan.source + i) ∧
            ∃ cell, row'[plan.target + i]? = some cell ∧ Erased cell := by
      intro i inside
      have landed := moved i inside
      by_cases edge : i = landing
      · subst edge
        rw [if_pos rfl] at landed
        cases cellEq : row[plan.source + i]? with
        | none =>
          rw [cellEq] at landed
          exact Or.inl landed
        | some cell =>
          rw [cellEq, Option.map_some] at landed
          by_cases narrow : cell.gpu.attrs.width = 1
          · rw [edgeCell_narrow narrow] at landed
            exact Or.inl landed
          · rw [edgeCell_other narrow] at landed
            rcases fits inside cell cellEq with h | h | h
            · exact absurd h narrow
            · rw [(splitWideCell_eq_iff cell).2 h] at landed
              exact Or.inl landed
            · exact Or.inr ⟨h, splitWideCell cell, landed, splitWideCell_erased cell⟩
      · rw [if_neg edge] at landed
        exact Or.inl landed
    refine ⟨length, before, movedTo, ?_, blanked⟩
    intro i inside wide
    obtain ⟨notLeft, notRight⟩ := not_halfLost_of_whole wide (survive i (by omega))
      (survive (i + 1) (by omega))
    constructor
    · cases movedTo i (by omega) with
      | inl same => exact same
      | inr erased => exact absurd erased.1 notLeft
    · cases movedTo (i + 1) (by omega) with
      | inl same => exact same
      | inr erased => exact absurd erased.1 notRight

end Plan

/-! ### The line operations -/

theorem lineApplyCursor_spec (row : Row) (cursor : Cursor) (at_ num : Nat)
    (within : at_ + num ≤ row.length) :
    ∃ row', lineApplyCursor row cursor at_ num = some row' ∧ row'.length = row.length ∧
      (∀ i < num, row'[at_ + i]? = some (cursorBlank cursor)) ∧
      ∀ j, j < at_ ∨ at_ + num ≤ j → row'[j]? = row[j]? := by
  have rounds : min row.length (at_ + num) - at_ = num := by omega
  have run := forUp_modifyAt row at_ num (applyCursorCell cursor) within
  refine ⟨_, (congrArg (fun n => forUp at_ n _ row) rounds).trans run, ?_, ?_, ?_⟩
  · simp only [List.length_append, List.length_take, List.length_map, List.length_drop]
    omega
  · intro i inside
    have cellEq : row[at_ + i]? = some row[at_ + i] := List.getElem?_eq_getElem (by omega)
    have block : (((row.drop at_).take num).map (applyCursorCell cursor)).length = num := by
      simp only [List.length_map, List.length_take, List.length_drop]
      omega
    rw [List.append_assoc, List.getElem?_append_right (by rw [List.length_take]; omega),
      List.length_take, Nat.min_eq_left (by omega), Nat.add_sub_cancel_left,
      List.getElem?_append_left (by omega), List.getElem?_map, List.getElem?_take_of_lt inside,
      List.getElem?_drop, cellEq]
    rfl
  · intro j outside
    cases outside with
    | inl below =>
      rw [List.append_assoc, List.getElem?_append_left (by rw [List.length_take]; omega),
        List.getElem?_take_of_lt below]
    | inr above =>
      have front : (row.take at_ ++
          ((row.drop at_).take num).map (applyCursorCell cursor)).length = at_ + num := by
        simp only [List.length_append, List.length_take, List.length_map, List.length_drop]
        omega
      rw [List.getElem?_append_right (by omega), front, List.getElem?_drop]
      congr 1
      omega

/-- The check at the edge of a shifted row. -/
theorem edgeCheck_spec (shifted : Row) (k : Nat) (inside : k < shifted.length) :
    ∃ row', (do
        let cell ← shifted[k]?
        if cell.gpu.attrs.width ≠ 1 then modifyAt shifted k splitWideCell else some shifted) =
          some row' ∧ row'.length = shifted.length ∧ row'[k]? = shifted[k]?.map edgeCell ∧
      ∀ j, j ≠ k → row'[j]? = shifted[j]? := by
  have cellEq : shifted[k]? = some shifted[k] := List.getElem?_eq_getElem inside
  rw [cellEq, Option.bind_eq_bind, Option.bind_some, Option.map_some]
  by_cases narrow : shifted[k].gpu.attrs.width = 1
  · rw [if_neg (not_not_intro narrow), edgeCell_narrow narrow]
    exact ⟨shifted, rfl, rfl, cellEq, fun j _ => rfl⟩
  · rw [if_pos narrow, modifyAt_of_lt inside, edgeCell_other narrow]
    refine ⟨_, rfl, List.length_set, List.getElem?_set_self inside, ?_⟩
    intro j other
    exact List.getElem?_set_ne (Ne.symm other)

theorem leftShiftLine_spec {row : Row} {x num : Nat} (hx : x < row.length)
    (within : x + num ≤ row.length) :
    ∃ row', leftShiftLine row x num = some row' ∧ row'.length = row.length ∧
      (∀ j < x, row'[j]? = row[j]?) ∧
      ∀ i, x + num + i < row.length → row'[x + i]? =
        if i = 0 then (row[x + num + i]?).map edgeCell else row[x + num + i]? := by
  have move := forUp_moveAt row x (row.length - num - x) num (by omega)
  generalize shiftedEq : row.take x ++ (row.drop (x + num)).take (row.length - num - x) ++
    row.drop (x + (row.length - num - x)) = shifted at move
  have length : shifted.length = row.length := by
    subst shifted
    simp only [List.length_append, List.length_take, List.length_drop]
    omega
  have before : ∀ j < x, shifted[j]? = row[j]? := by
    intro j below
    subst shifted
    rw [List.append_assoc, List.getElem?_append_left (by rw [List.length_take]; omega),
      List.getElem?_take_of_lt below]
  have moved : ∀ i, x + num + i < row.length → shifted[x + i]? = row[x + num + i]? := by
    intro i inside
    subst shifted
    rw [List.append_assoc, List.getElem?_append_right (by rw [List.length_take]; omega),
      List.length_take, Nat.min_eq_left (by omega), Nat.add_sub_cancel_left,
      List.getElem?_append_left (by simp only [List.length_take, List.length_drop]; omega),
      List.getElem?_take_of_lt (by omega), List.getElem?_drop]
  obtain ⟨row', checkEq, checkLength, atEdge, elsewhere⟩ :=
    edgeCheck_spec shifted x (by omega)
  refine ⟨row', ?_, checkLength.trans length, ?_, ?_⟩
  · unfold leftShiftLine
    rw [move, Option.bind_eq_bind, Option.bind_some, if_pos hx]
    exact checkEq
  · intro j below
    exact (elsewhere j (Nat.ne_of_lt below)).trans (before j below)
  · intro i inside
    by_cases edge : i = 0
    · subst edge
      rw [if_pos rfl, ← moved 0 inside]
      exact atEdge
    · rw [if_neg edge, ← moved i inside]
      exact elsewhere (x + i) (by omega)

theorem lineRightShift_spec {row : Row} {x num : Nat} (hx : x < row.length)
    (within : x + num ≤ row.length) :
    ∃ row', lineRightShift row x num = some row' ∧ row'.length = row.length ∧
      (∀ j < x, j ≠ row.length - 1 → row'[j]? = row[j]?) ∧
      ∀ i, x + num + i < row.length → row'[x + num + i]? =
        if i = row.length - 1 - num - x then (row[x + i]?).map edgeCell else row[x + i]? := by
  have move := forDown_moveAt row (x + num) (row.length - (x + num)) num (by omega) (by omega)
  generalize shiftedEq : row.take (x + num) ++
    (row.drop (x + num - num)).take (row.length - (x + num)) ++
      row.drop (x + num + (row.length - (x + num))) = shifted at move
  have length : shifted.length = row.length := by
    subst shifted
    simp only [List.length_append, List.length_take, List.length_drop]
    omega
  have before : ∀ j < x, shifted[j]? = row[j]? := by
    intro j below
    subst shifted
    rw [List.append_assoc, List.getElem?_append_left (by rw [List.length_take]; omega),
      List.getElem?_take_of_lt (by omega)]
  have moved : ∀ i, x + num + i < row.length → shifted[x + num + i]? = row[x + i]? := by
    intro i inside
    subst shifted
    rw [List.append_assoc, List.getElem?_append_right (by rw [List.length_take]; omega),
      List.length_take, Nat.min_eq_left (by omega), Nat.add_sub_cancel_left,
      List.getElem?_append_left (by simp only [List.length_take, List.length_drop]; omega),
      List.getElem?_take_of_lt (by omega), List.getElem?_drop, Nat.add_sub_cancel]
  obtain ⟨row', checkEq, checkLength, atEdge, elsewhere⟩ :=
    edgeCheck_spec shifted (row.length - 1) (by omega)
  refine ⟨row', ?_, checkLength.trans length, ?_, ?_⟩
  · unfold lineRightShift
    rw [move, Option.bind_eq_bind, Option.bind_some]
    exact checkEq
  · intro j below notLast
    exact (elsewhere j notLast).trans (before j below)
  · intro i inside
    by_cases edge : i = row.length - 1 - num - x
    · rw [if_pos edge, ← moved i inside, show x + num + i = row.length - 1 by omega]
      exact atEdge
    · rw [if_neg edge, ← moved i inside]
      exact elsewhere (x + num + i) (by omega)

/-- `screen_delete_characters` on the cursor's row. -/
theorem deletedRow_outcome {row : Row} {x num : Nat} (cursor : Cursor) (hx : x < row.length)
    (within : x + num ≤ row.length) :
    ∃ row', (do
        let shifted ← leftShiftLine row x num
        lineApplyCursor shifted cursor (row.length - num) num) = some row' ∧
      ShiftOutcome (deletePlan row.length x num) 0 cursor row row' := by
  obtain ⟨shifted, shiftEq, shiftedLength, before, moved⟩ := leftShiftLine_spec hx within
  obtain ⟨row', applyEq, applyLength, blanked, elsewhere⟩ :=
    lineApplyCursor_spec shifted cursor (row.length - num) num (by omega)
  refine ⟨row', ?_, applyLength.trans shiftedLength, ?_, ?_, blanked⟩
  · rw [shiftEq]
    exact applyEq
  · intro j (below : j < x)
    exact (elsewhere j (Or.inl (by omega))).trans (before j below)
  · intro i (inside : x + num + i < row.length)
    exact (elsewhere (x + i) (Or.inl (by omega))).trans (moved i inside)

/-- `screen_insert_characters` on the cursor's row. -/
theorem insertedRow_outcome {row : Row} {x num : Nat} (cursor : Cursor) (hx : x < row.length)
    (within : x + num ≤ row.length) :
    ∃ row', (do
        let shifted ← lineRightShift row x num
        lineApplyCursor shifted cursor x num) = some row' ∧
      ShiftOutcome (insertPlan row.length x num) (row.length - 1 - num - x) cursor row row' := by
  obtain ⟨shifted, shiftEq, shiftedLength, before, moved⟩ := lineRightShift_spec hx within
  obtain ⟨row', applyEq, applyLength, blanked, elsewhere⟩ :=
    lineApplyCursor_spec shifted cursor x num (by omega)
  refine ⟨row', ?_, applyLength.trans shiftedLength, ?_, ?_, blanked⟩
  · rw [shiftEq]
    exact applyEq
  · intro j (below : j < x)
    exact (elsewhere j (Or.inl below)).trans (before j below (by omega))
  · intro i (inside : x + num + i < row.length)
    exact (elsewhere (x + num + i) (Or.inr (by omega))).trans (moved i inside)

/-! ### The two operations on the screen -/

/-- The cursor stands on this row of the buffer that is shown. -/
structure OnLine (screen : Screen) (row : Row) : Prop where
  wellFormed : screen.linebuf.WellFormed
  xnum : screen.linebuf.xnum = screen.columns
  ynum : screen.linebuf.ynum = screen.lines
  cursorRow : screen.linebuf.rows[screen.cursor.y]? = some row
  column : screen.cursor.x < screen.columns

/-- The operation does not fail, and changes the cursor's row only, as described. -/
def CursorRowBecomes (self : Screen) (Q : Row → Prop) (after : Option Screen) : Prop :=
  ∃ self' row', after = some self' ∧ self' = self.setLinebuf self'.linebuf ∧
    self'.linebuf.rows = self.linebuf.rows.set self.cursor.y row' ∧ Q row'

section Screen

variable {self : Screen} {row : Row}

@[simp] theorem linebuf_setLinebuf (self : Screen) (linebuf : LineBuf) :
    (self.setLinebuf linebuf).linebuf = linebuf := by
  unfold Screen.setLinebuf Screen.linebuf
  by_cases onMain : self.onMain
  · simp only [onMain, if_true]
  · simp only [onMain, if_false, Bool.false_eq_true]

theorem OnLine.length (on : OnLine self row) : row.length = self.columns :=
  (on.wellFormed.rowsRowLength (List.mem_of_getElem? on.cursorRow)).trans on.xnum

theorem OnLine.inside (on : OnLine self row) : self.cursor.y < self.lines := by
  have h := (List.getElem?_eq_some_iff.1 on.cursorRow).1
  rwa [on.wellFormed.rowsLength, on.ynum] at h

theorem linebufMarkLineDirty_rows {lb : LineBuf} {y : Nat} (h : y < lb.lineAttrs.length) :
    ∃ lb', linebufMarkLineDirty lb y = some lb' ∧ lb'.rows = lb.rows := by
  unfold linebufMarkLineDirty
  rw [modifyAt_of_lt h]
  exact ⟨_, rfl, setLineAttrs_rows List.length_set⟩

/-- Only one row can be the outcome, so what holds of it is what holds of the operation. -/
theorem onCursorLine_becomes_iff (on : OnLine self row) {operation : Row → Option Row}
    {row' : Row} (runs : operation row = some row') (length : row'.length = row.length)
    (Q : Row → Prop) :
    CursorRowBecomes self Q (onCursorLine self operation) ↔ Q row' := by
  have inside : self.cursor.y < self.linebuf.ynum := by
    rw [on.ynum]
    exact on.inside
  obtain ⟨changed, changeEq, changedWf, size, rows, attrs⟩ :=
    onRow_spec on.wellFormed inside on.cursorRow operation runs length
  have dirtyInside : self.cursor.y < changed.lineAttrs.length := by
    rw [attrs, on.wellFormed.attrsLength]
    exact inside
  obtain ⟨marked, markEq, markedRows⟩ := linebufMarkLineDirty_rows dirtyInside
  have run : onCursorLine self operation = some (self.setLinebuf marked) := by
    unfold onCursorLine
    rw [changeEq, Option.bind_eq_bind, Option.bind_some, markEq]
    rfl
  have rowsEq : (self.setLinebuf marked).linebuf.rows =
      self.linebuf.rows.set self.cursor.y row' := by
    rw [linebuf_setLinebuf, markedRows, rows]
  constructor
  · rintro ⟨self', other, afterEq, -, otherRows, holds⟩
    rw [run] at afterEq
    rw [← Option.some.inj afterEq, rowsEq] at otherRows
    have shown := congrArg (·[self.cursor.y]?) otherRows
    have bound := (List.getElem?_eq_some_iff.1 on.cursorRow).1
    simp only [List.getElem?_set_self bound] at shown
    rw [Option.some.inj shown]
    exact holds
  · intro holds
    exact ⟨self.setLinebuf marked, row', run, by rw [linebuf_setLinebuf], rowsEq, holds⟩

theorem OnLine.shifted_within (on : OnLine self row) (count : Nat) :
    self.cursor.x + shiftedCharacters self count ≤ row.length := by
  have column := on.column
  rw [on.length]
  unfold shiftedCharacters
  omega

/-- Deleting shifts the line as it should exactly when the cell that comes to lie at the cursor
fits there. -/
theorem deletesCharacters_iff (on : OnLine self row) (count : Nat) :
    let num := shiftedCharacters self count
    let plan := deletePlan self.columns self.cursor.x num
    CursorRowBecomes self (ShiftsCharacters plan self.cursor row)
        (screenDeleteCharacters self count) ↔
      (self.cursor.x + num < self.columns → EdgeFits plan.lost row (self.cursor.x + num)) := by
  intro num plan
  have onScreen : self.cursor.y ≤ self.lines - 1 := Nat.le_sub_one_of_lt on.inside
  have column : self.cursor.x < row.length := by
    rw [on.length]
    exact on.column
  have within : self.cursor.x + num ≤ row.length := on.shifted_within count
  obtain ⟨row', runs, outcome⟩ := deletedRow_outcome self.cursor column within
  rw [on.length] at runs outcome
  have survive : ∀ i, self.cursor.x + num + i < row.length →
      ¬ plan.lost (self.cursor.x + num + i) := by
    intro i _ (lost : _ ∧ self.cursor.x + num + i < self.cursor.x + num)
    omega
  have shifts := outcome.shifts_iff survive
  rw [on.length] at shifts
  unfold screenDeleteCharacters
  rw [if_pos onScreen, onCursorLine_becomes_iff on runs outcome.length]
  exact shifts

/-- Inserting shifts the line as it should exactly when the cell that comes to lie in the last
column fits there. -/
theorem insertsCharacters_iff (on : OnLine self row) (count : Nat) :
    let num := shiftedCharacters self count
    let plan := insertPlan self.columns self.cursor.x num
    CursorRowBecomes self (ShiftsCharacters plan self.cursor row)
        (screenInsertCharacters self count) ↔
      (self.cursor.x + num < self.columns →
        EdgeFits plan.lost row (self.columns - 1 - num)) := by
  intro num plan
  have onScreen : self.cursor.y ≤ self.lines - 1 := Nat.le_sub_one_of_lt on.inside
  have column : self.cursor.x < row.length := by
    rw [on.length]
    exact on.column
  have within : self.cursor.x + num ≤ row.length := on.shifted_within count
  obtain ⟨row', runs, outcome⟩ := insertedRow_outcome self.cursor column within
  have survive : ∀ i, self.cursor.x + num + i < row.length →
      ¬ (insertPlan row.length self.cursor.x num).lost (self.cursor.x + i) := by
    intro i inside (lost : row.length - num ≤ self.cursor.x + i ∧ _)
    omega
  have shifts := outcome.shifts_iff survive
  rw [on.length] at outcome shifts
  unfold screenInsertCharacters
  rw [if_pos onScreen, onCursorLine_becomes_iff on runs outcome.length, shifts]
  have edge : self.cursor.x + num < self.columns →
      self.cursor.x + (self.columns - 1 - num - self.cursor.x) = self.columns - 1 - num := by
    omega
  have room : self.cursor.x + num + (self.columns - 1 - num - self.cursor.x) < self.columns ↔
      self.cursor.x + num < self.columns := by
    omega
  constructor
  · intro fits moves
    rw [← edge moves]
    exact fits (room.2 moves)
  · intro fits moves
    have fit := fits (room.1 moves)
    rw [← edge (room.1 moves)] at fit
    exact fit

/-- Deleting and inserting characters shift the line as they should exactly when the cell that
comes to lie at the cursor, or in the last column, fits there. -/
theorem shiftedCharacters_iff (on : OnLine self row) (count : Nat) :
    let num := shiftedCharacters self count
    let deletes := deletePlan self.columns self.cursor.x num
    let inserts := insertPlan self.columns self.cursor.x num
    (CursorRowBecomes self (ShiftsCharacters deletes self.cursor row)
        (screenDeleteCharacters self count) ↔
      (self.cursor.x + num < self.columns →
        EdgeFits deletes.lost row (self.cursor.x + num))) ∧
    (CursorRowBecomes self (ShiftsCharacters inserts self.cursor row)
        (screenInsertCharacters self count) ↔
      (self.cursor.x + num < self.columns →
        EdgeFits inserts.lost row (self.columns - 1 - num))) :=
  ⟨deletesCharacters_iff on count, insertsCharacters_iff on count⟩

end Screen

/-! ### A wide character that lands whole -/

/-- A letter, the two halves of a wide character, and a letter. -/
def wideBetween : Row :=
  [{ cpu := { ch := 0x61 }, gpu := { attrs := { width := 1 } } },
    { cpu := { ch := 0x4e2d }, gpu := { attrs := { width := 2 } } },
    { cpu := { ch := 0 }, gpu := { attrs := { width := 0 } } },
    { cpu := { ch := 0x62 }, gpu := { attrs := { width := 1 } } }]

/-- The cursor stands on the first letter. -/
def wideBetweenScreen : Screen :=
  { newScreen 1 4 0 0 with mainLinebuf := { allocLinebuf 1 4 with cells := [wideBetween] } }

theorem wideBetweenScreen_onLine : OnLine wideBetweenScreen wideBetween where
  wellFormed := (allocLinebuf_wellFormed 1 4).setCells 0 wideBetween rfl
  xnum := rfl
  ynum := rfl
  cursorRow := rfl
  column := by decide

/-- Inserting two blanks pushes the right half of the wide character out of the line. -/
theorem shiftedCharacters_iff_inserted :
    CursorRowBecomes wideBetweenScreen (ShiftsCharacters (insertPlan 4 0 2) {} wideBetween)
      (screenInsertCharacters wideBetweenScreen 2) := by
  apply (shiftedCharacters_iff wideBetweenScreen_onLine 2).2.2
  intro _ cell _
  right
  right
  refine ⟨1, ⟨⟨_, rfl, rfl⟩, _, rfl, rfl⟩, Or.inl rfl, ?_⟩
  show ¬ ((4 - 2 ≤ 1 ∧ 1 < 4) ↔ (4 - 2 ≤ 2 ∧ 2 < 4))
  decide

/-- Deleting the letter before a wide character erases the wide character, no half of which is
lost. -/
theorem deletesCharacters_wide :
    ¬ CursorRowBecomes wideBetweenScreen (ShiftsCharacters (deletePlan 4 0 1) {} wideBetween)
      (screenDeleteCharacters wideBetweenScreen 1) := by
  intro becomes
  have fits := (deletesCharacters_iff wideBetweenScreen_onLine 1).1 becomes (by decide)
  rcases fits _ rfl with narrow | plain | ⟨k, wide, isHalf | isHalf, split⟩
  · exact absurd narrow (by decide)
  · exact absurd plain.ch (by decide)
  · subst isHalf
    apply split
    show (0 ≤ 1 ∧ 1 < 0 + 1) ↔ (0 ≤ 2 ∧ 2 < 0 + 1)
    decide
  · have first : k = 0 := by
      have h : 1 = k + 1 := isHalf
      omega
    subst first
    obtain ⟨⟨left, leftEq, leftWidth⟩, -⟩ := wide
    rw [← Option.some.inj leftEq] at leftWidth
    exact absurd leftWidth (by decide)

end Smelly
