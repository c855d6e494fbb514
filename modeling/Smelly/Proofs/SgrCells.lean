/-
Module: Smelly.Proofs.SgrCells
Purpose: The two tables of SGR codes agree: cells that show the rendition of a cursor go on
  showing it when the parameters are applied to them and to the cursor.
Trusted boundary: none
-/
import Smelly.Core.Sgr

namespace Smelly

/-- The cell with the rendition of a cursor, as `cursor_to_attrs` and the colours are written to
it; its width, its mark and its wrap flag are its own. -/
def showCursor (cursor : Cursor) (cell : GPUCell) : GPUCell :=
  { cell with
    attrs := { cell.attrs with
      decoration := cursor.decoration.toNat % 8
      bold := cursor.bold
      italic := cursor.italic
      reverse := cursor.reverse
      strike := cursor.strikethrough
      dim := cursor.dim }
    fg := cursor.fg
    bg := cursor.bg
    decorationFg := cursor.decorationFg }

/-- A colour that was read is not zero, so that zero says that none was. -/
theorem parseColor_agrees (result : UInt32) (rest : List Int) :
    (parseColor result rest).2 = (parseColor 0 rest).2 ∧
      (parseColor result rest).1 =
        if (parseColor 0 rest).1 ≠ 0 then (parseColor 0 rest).1 else result := by
  cases rest with
  | nil => simp [parseColor]
  | cons attr rest =>
    by_cases indexed : attr = 5
    · cases rest with
      | nil => simp [parseColor, indexed]
      | cons index rest => simp [parseColor, indexed, UInt32.or_eq_zero_iff]
    · by_cases rgb : attr = 2
      · by_cases long : 2 < rest.length
        · subst rgb
          simp only [parseColor, if_neg indexed, if_true, if_pos long]
          -- the components are the first three of what is left
          generalize (if 3 < rest.length then rest.tail else rest) = components
          rcases components with _ | ⟨r, _ | ⟨g, _ | ⟨b, rest⟩⟩⟩ <;> simp [UInt32.or_eq_zero_iff]
        · simp [parseColor, rgb, long]
      · simp [parseColor, indexed, rgb]

/-- The cell goes on showing the cursor, and the same parameters are left. -/
structure RoundAgrees (cursor : Cursor) (onCell : (GPUCell → GPUCell) × List Int)
    (onCursor : Cursor × List Int) : Prop where
  rest : onCell.2 = onCursor.2
  shows : ∀ cell, onCell.1 (showCursor cursor cell) = showCursor onCursor.1 cell

namespace RoundAgrees

variable {cursor : Cursor}

/-- Both tables test for the same code. -/
theorem ite {code : Prop} [Decidable code] {onCell onCell' : (GPUCell → GPUCell) × List Int}
    {onCursor onCursor' : Cursor × List Int} (same : RoundAgrees cursor onCell onCursor)
    (others : RoundAgrees cursor onCell' onCursor') :
    RoundAgrees cursor (if code then onCell else onCell')
      (if code then onCursor else onCursor') := by
  by_cases holds : code
  · simpa only [if_pos holds] using same
  · simpa only [if_neg holds] using others

/-- A code that changes the attributes or a colour of the cell as it changes the cursor. -/
theorem change {onCell : GPUCell → GPUCell} {changed : Cursor} {rest : List Int}
    (shows : ∀ cell, onCell (showCursor cursor cell) = showCursor changed cell) :
    RoundAgrees cursor (onCell, rest) (changed, rest) := ⟨rfl, shows⟩

/-- Underlining, with or without a style behind the code. -/
theorem underline (rest : List Int) :
    RoundAgrees cursor
      (let (val, rest) : UInt8 × List Int :=
        match rest with
        | [] => (1, [])
        | style :: rest => (UInt8.ofInt (min 5 style), rest)
      (fun cell => { cell with attrs := { cell.attrs with decoration := val.toNat % 8 } }, rest))
      (match rest with
        | [] => ({ cursor with decoration := 1 }, [])
        | style :: rest => ({ cursor with decoration := UInt8.ofInt (min 5 style) }, rest)) := by
  cases rest with
  | nil => exact .change fun _ => rfl
  | cons style rest => exact .change fun _ => rfl

/-- A colour that is read with what follows its code. -/
theorem color (setCell : UInt32 → GPUCell → GPUCell) (setCursor : UInt32 → Cursor)
    {result : UInt32} {rest : List Int} (kept : setCursor result = cursor)
    (shows : ∀ value cell, setCell value (showCursor cursor cell) =
      showCursor (setCursor value) cell) :
    RoundAgrees cursor
      (let (value, rest) := parseColor 0 rest
      (fun cell => if value ≠ 0 then setCell value cell else cell, rest))
      (let (value, rest) := parseColor result rest
      (setCursor value, rest)) := by
  have agrees := parseColor_agrees result rest
  constructor
  · exact agrees.1.symm
  · intro cell
    show (if (parseColor 0 rest).1 ≠ 0 then setCell (parseColor 0 rest).1 (showCursor cursor cell)
      else showCursor cursor cell) = showCursor (setCursor (parseColor result rest).1) cell
    rw [agrees.2]
    by_cases read : (parseColor 0 rest).1 ≠ 0
    · rw [if_pos read, if_pos read, shows]
    · rw [if_neg read, if_neg read, kept]

end RoundAgrees

/-- One round of the two loops, code by code. -/
theorem sgrCellAttribute_agrees (cursor : Cursor) (attr : Int) (rest : List Int) :
    RoundAgrees cursor (sgrCellAttribute attr rest) (sgrAttribute cursor attr rest) := by
  dsimp only [sgrCellAttribute, sgrAttribute]
  -- the reset, bold, dim and italic
  apply RoundAgrees.ite (.change fun _ => rfl)
  apply RoundAgrees.ite (.change fun _ => rfl)
  apply RoundAgrees.ite (.change fun _ => rfl)
  apply RoundAgrees.ite (.change fun _ => rfl)
  apply RoundAgrees.ite (.underline rest)
  -- reverse and strike, the double underline, and the codes that clear an attribute
  apply RoundAgrees.ite (.change fun _ => rfl)
  apply RoundAgrees.ite (.change fun _ => rfl)
  apply RoundAgrees.ite (.change fun _ => rfl)
  apply RoundAgrees.ite (.change fun _ => rfl)
  apply RoundAgrees.ite (.change fun _ => rfl)
  apply RoundAgrees.ite (.change fun _ => rfl)
  apply RoundAgrees.ite (.change fun _ => rfl)
  apply RoundAgrees.ite (.change fun _ => rfl)
  -- the foreground
  apply RoundAgrees.ite (.change fun _ => rfl)
  apply RoundAgrees.ite (.color (fun value cell => { cell with fg := value })
    (fun value => { cursor with fg := value }) rfl fun _ _ => rfl)
  apply RoundAgrees.ite (.change fun _ => rfl)
  -- the background
  apply RoundAgrees.ite (.change fun _ => rfl)
  apply RoundAgrees.ite (.color (fun value cell => { cell with bg := value })
    (fun value => { cursor with bg := value }) rfl fun _ _ => rfl)
  apply RoundAgrees.ite (.change fun _ => rfl)
  -- the bright colours
  apply RoundAgrees.ite (.change fun _ => rfl)
  apply RoundAgrees.ite (.change fun _ => rfl)
  -- the colour of the decoration, and the codes neither table knows
  apply RoundAgrees.ite (.color (fun value cell => { cell with decorationFg := value })
    (fun value => { cursor with decorationFg := value }) rfl fun _ _ => rfl)
  apply RoundAgrees.ite (.change fun _ => rfl)
  exact .change fun _ => rfl

/-- The two loops, on any number of cells. -/
theorem sgrCellAttributes_agrees (fuel : Nat) (cursor : Cursor) (cells : List GPUCell)
    (params : List Int) :
    sgrCellAttributes fuel (cells.map (showCursor cursor)) params =
      cells.map (showCursor (sgrAttributes fuel cursor params)) := by
  induction fuel generalizing cursor params with
  | zero => rfl
  | succ fuel ih =>
    cases params with
    | nil => rfl
    | cons attr rest =>
      have round := sgrCellAttribute_agrees cursor attr rest
      have shown : (cells.map (showCursor cursor)).map (sgrCellAttribute attr rest).1 =
          cells.map (showCursor (sgrAttribute cursor attr rest).1) := by
        rw [List.map_map]
        exact List.map_congr_left fun cell _ => round.shows cell
      calc sgrCellAttributes (fuel + 1) (cells.map (showCursor cursor)) (attr :: rest)
          = sgrCellAttributes fuel
              ((cells.map (showCursor cursor)).map (sgrCellAttribute attr rest).1)
              (sgrCellAttribute attr rest).2 := rfl
        _ = sgrCellAttributes fuel
              (cells.map (showCursor (sgrAttribute cursor attr rest).1))
              (sgrAttribute cursor attr rest).2 := by rw [shown, round.rest]
        _ = cells.map (showCursor (sgrAttributes (fuel + 1) cursor (attr :: rest))) :=
            ih (sgrAttribute cursor attr rest).1 (sgrAttribute cursor attr rest).2

/-- For every list of parameters, applying them to cells that show a cursor gives the cells that
show the cursor they were applied to. -/
theorem applySgrToCells_agrees (cursor : Cursor) (cells : List GPUCell) (params : List Int) :
    applySgrToCells (cells.map (showCursor cursor)) params =
      cells.map (showCursor (cursorFromSgr cursor params)) :=
  sgrCellAttributes_agrees _ cursor cells _

end Smelly
