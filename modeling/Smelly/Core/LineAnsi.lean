/-
Module: Smelly.Core.LineAnsi
Purpose: A line as text with escape codes, `line_as_ansi`, and the export of the scrollback that is
  made of it.
Trusted boundary: human-reviewed model of smelly/line.c, smelly/lineops.h and smelly/history.c for
  whole lines without a hyperlink pool, as the export of the scrollback has them;
  `codepoint_for_mark` reads a generated table and is a parameter
-/
import Smelly.Core.Rewrap
import Smelly.Core.Sgr

namespace Smelly

/-- `xlimit_for_line`. -/
def xlimitForLine (row : Row) : Option Nat := do
  let xlimit ← trimmedLimit row row.length
  if xlimit < row.length then
    let cell ← row[if 0 < xlimit then xlimit - 1 else xlimit]?
    some (if cell.attrs.width = 2 then xlimit + 1 else xlimit)
  else some xlimit

/-- `write_sgr`. -/
def writeSgr (val : Text) : Text := Ctl.ESC :: chars "[" ++ val.take 122 ++ chars "m"

/-- `write_mark`. -/
def writeMark (mark : Text) : Text :=
  Ctl.ESC :: chars "]133;" ++ mark.take 32 ++ Ctl.ESC :: chars "\\"

/-- The mark of a line that starts a prompt or an output. -/
def promptMark : PromptKind → Text
  | .unknownPromptKind => []
  | .promptStart => writeMark (chars "A")
  | .secondaryPrompt => writeMark (chars "A;k=s")
  | .outputStart => writeMark (chars "C")

/-- `CMP_ATTRS` and the comparisons of the colours, negated. -/
def sameRendition (cell prev : GPUCell) : Bool :=
  cell.attrs.decoration = prev.attrs.decoration ∧ cell.attrs.bold = prev.attrs.bold ∧
    cell.attrs.italic = prev.attrs.italic ∧ cell.attrs.reverse = prev.attrs.reverse ∧
    cell.attrs.strike = prev.attrs.strike ∧ cell.attrs.dim = prev.attrs.dim ∧
    cell.fg = prev.fg ∧ cell.bg = prev.bg ∧ cell.decorationFg = prev.decorationFg

section

variable (codepointForMark : UInt16 → UInt32)

/-- The combining characters of a cell, up to the first free slot. -/
def markCodepoints (cell : CPUCell) : Text :=
  (cell.ccIdx.toList.takeWhile (· ≠ 0)).map codepointForMark

/-- The loop of `line_as_ansi` over the cells up to the limit: the text, and the cell whose
rendition is current behind it.  `skip` is `num_cells_to_skip_for_tab`. -/
def cellsAsAnsi (prev : GPUCell) (previousWidth skip : Nat) : List Cell → Option (Text × GPUCell)
  | [] => some ([], prev)
  | cell :: rest => do
      if 0 < skip ∧ cell.ch = ord ' ' then cellsAsAnsi prev previousWidth (skip - 1) rest
      else if cell.ch = 0 ∧ previousWidth = 2 then cellsAsAnsi prev 0 0 rest
      else
        let ch := if cell.ch = 0 then ord ' ' else cell.ch
        let sgr ← if sameRendition cell.gpu prev then some [] else cellAsSgr cell.gpu prev
        let skip := if ch = Ctl.HT then (getElem cell.cpu.ccIdx 0 firstSlot).toNat else 0
        let marks := if ch = Ctl.HT then [] else markCodepoints codepointForMark cell.cpu
        let (text, last) ← cellsAsAnsi cell.gpu cell.attrs.width skip rest
        some ((if sgr = [] then [] else writeSgr sgr) ++ ch :: marks ++ text, last)

/-- `line_as_ansi` from the first column to the last.  `prev` is `*prev_cell`, blank where it is
`NULL`. -/
def lineAsAnsi (self : Line) (prev : GPUCell) : Option (Text × GPUCell) := do
  let limit ← xlimitForLine self.cells
  let (text, prev) ← cellsAsAnsi codepointForMark prev 0 0 (self.cells.take limit)
  some (promptMark self.attrs.promptKind ++ text, prev)

/-- The texts of `as_ansi` for one line after the other, each with a newline unless its last cell
says that the next line continues it. -/
def ansiOfLines (prev : GPUCell) : List Line → Option (List Text)
  | [] => some []
  | l :: rest => do
      let (output, prev) ← lineAsAnsi codepointForMark l prev
      let last ← l.cells.getLast?
      let output := if last.attrs.nextCharWasWrapped then output else output ++ [Ctl.LF]
      let more ← ansiOfLines prev rest
      some (output :: more)

/-- `as_ansi` of `history.c`: the texts the callback is called with.  The loop passes its counter
to `init_line`. -/
def historybufAsAnsi (self : HistoryBuf) : Option (List Text) := do
  let lines ← (List.range self.count).mapM (historybufInitSlot self)
  ansiOfLines codepointForMark {} lines

end

end Smelly
