/-
Module: Smelly.Core.LineUnicode
Purpose: A line as plain text, as it is copied: `unicode_in_range` and `line_as_unicode`.
Trusted boundary: human-reviewed model of smelly/line.c; `codepoint_for_mark` reads a generated
  table and is a parameter
-/
import Smelly.Core.LineAnsi

namespace Smelly

/-- `arraysz(buf)` of `unicode_in_range`. -/
def unicodeBufSz : Nat := 4096

/-- What `n` stays below: a cell takes the character and up to three marks, and there is room for
two more. -/
def unicodeLimit : Nat := unicodeBufSz - 2 - 3

section

variable (codepointForMark : UInt16 → UInt32)

/-- `cell_as_unicode`. -/
def cellAsUnicode (cell : CPUCell) (includeCc : Bool) (zeroChar : UInt32) : List UInt32 :=
  (if cell.ch = 0 then zeroChar else cell.ch) ::
    (if includeCc then markCodepoints codepointForMark cell else [])

/-- The loop of `unicode_in_range` over the cells that are left, with `n` characters written; `skip`
is `num_cells_to_skip_for_tab`, whose inner loop does not look at `n`. -/
def unicodeCells (includeCc skipZeroCells : Bool) :
    (n previousWidth skip : Nat) → List Cell → List UInt32
  | _, _, _, [] => []
  | n, previousWidth, skip, cell :: rest =>
    if 0 < skip ∧ cell.ch = ord ' ' then
      unicodeCells includeCc skipZeroCells n cell.attrs.width (skip - 1) rest
    else if unicodeLimit ≤ n then []
    else if cell.ch = 0 ∧ previousWidth = 2 then
      unicodeCells includeCc skipZeroCells n 0 0 rest
    else if cell.ch = 0 ∧ skipZeroCells then
      unicodeCells includeCc skipZeroCells n previousWidth 0 rest
    else if cell.ch = Ctl.HT then
      Ctl.HT :: unicodeCells includeCc skipZeroCells (n + 1) cell.attrs.width
        (getElem cell.cpu.ccIdx 0 firstSlot).toNat rest
    else
      let text := cellAsUnicode codepointForMark cell.cpu includeCc (ord ' ')
      text ++ unicodeCells includeCc skipZeroCells (n + text.length) cell.attrs.width 0 rest

/-- `unicode_in_range`. -/
def unicodeInRange (self : Row) (start limit : Nat)
    (includeCc addTrailingNewline skipZeroCells : Bool) : Option (List UInt32) :=
  if limit ≤ self.length then do
    let text := unicodeCells codepointForMark includeCc skipZeroCells 0 0 0
      ((self.drop start).take (limit - start))
    let last ← self[self.length - 1]?
    some (if addTrailingNewline ∧ ¬ last.attrs.nextCharWasWrapped ∧ text.length < unicodeBufSz then
      text ++ [Ctl.LF] else text)
  else none

/-- `line_as_unicode`. -/
def lineAsUnicode (self : Row) (skipZeroCells : Bool) : Option (List UInt32) := do
  let limit ← xlimitForLine self
  unicodeInRange codepointForMark self 0 limit true false skipZeroCells

end

end Smelly
