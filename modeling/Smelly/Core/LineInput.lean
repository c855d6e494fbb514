/-
Module: Smelly.Core.LineInput
Purpose: The text of the line editor of the command line tools: its lines and its cursor, the text
  before and behind the cursor, and how text is inserted and erased.
Trusted boundary: human-reviewed model of the functions of tools/tui/readline/actions.go and
  api.go that only touch `input_state`, and of Splitlines (tools/utils/strings.go) with what
  bufio.Scanner does for it.  A string is its bytes; `none` is a panic
-/
import Smelly.Core.Charsets

namespace Smelly

namespace Readline

/-! ### Slices -/

/-- `l[i]`. -/
def elementAt {α : Type} (l : List α) (i : Int) : Option α := if 0 ≤ i then l[i.toNat]? else none

/-- `l[:i]`. -/
def sliceTo {α : Type} (l : List α) (i : Int) : Option (List α) :=
  if 0 ≤ i ∧ i ≤ l.length then some (l.take i.toNat) else none

/-- `l[i:]`. -/
def sliceFrom {α : Type} (l : List α) (i : Int) : Option (List α) :=
  if 0 ≤ i ∧ i ≤ l.length then some (l.drop i.toNat) else none

/-- `l[i:j]`. -/
def slice {α : Type} (l : List α) (i j : Int) : Option (List α) := do
  let front ← sliceTo l j
  sliceFrom front i

/-- `\n`. -/
def newline : UInt8 := 0x0a

/-! ### Splitlines -/

/-- `bufio.MaxScanTokenSize`. -/
def maxScanTokenSize : Nat := 64 * 1024

/-- `dropCR` of the package bufio. -/
def dropCR (data : Bytes) : Bytes := if data.getLast? = some 0x0d then data.dropLast else data

/-- `Splitlines`: what is behind the last line break is a line if it is not empty.  The scanner
stops at a line that does not fit in its buffer. -/
def splitlines (x : Bytes) : List Bytes :=
  let lines := x.splitOn newline
  let lines := if lines.getLast? = some [] then lines.dropLast else lines
  (lines.takeWhile fun line => line.length < maxScanTokenSize).map dropCR

/-! ### The text and the cursor -/

/-- `Position`. -/
structure Position where
  x : Int
  y : Int
deriving DecidableEq, Repr

/-- `Less`. -/
def Position.less (self other : Position) : Bool :=
  self.y < other.y ∨ (self.y = other.y ∧ self.x < other.x)

/-- `InputState`. -/
structure InputState where
  lines : List Bytes
  cursor : Position
deriving DecidableEq, Repr

namespace InputState

/-- `all_text`. -/
def allText (self : InputState) : Bytes := [newline].intercalate self.lines

/-- The loop of `text_upto_cursor_pos` from the line with the number `i` on. -/
def textUptoLoop (cursor : Position) (i : Nat) : List Bytes → Option Bytes
  | [] => some []
  | line :: rest =>
    if i = cursor.y then sliceTo line (min line.length cursor.x)
    else (textUptoLoop cursor (i + 1) rest).map fun later => line ++ newline :: later

/-- `text_upto_cursor_pos`. -/
def textUptoCursorPos (self : InputState) : Option Bytes := textUptoLoop self.cursor 0 self.lines

/-- The loop of `text_after_cursor_pos` from the line with the number `i` on. -/
def textAfterLoop (cursor : Position) (i : Nat) : List Bytes → Option Bytes
  | [] => some []
  | line :: rest => do
      let later ← textAfterLoop cursor (i + 1) rest
      if i = cursor.y then
        (sliceFrom line (min line.length cursor.x)).map fun tail => tail ++ newline :: later
      else if i > cursor.y then some (line ++ newline :: later)
      else some later

/-- `text_after_cursor_pos`. -/
def textAfterCursorPos (self : InputState) : Option Bytes :=
  (textAfterLoop self.cursor 0 self.lines).map List.dropLast

/-! ### add_text -/

/-- The `add_line_break` of `add_text`. -/
def addLineBreak (state : InputState) (line : Bytes) : InputState :=
  { lines := state.lines ++ [line], cursor := { x := line.length, y := state.cursor.y + 1 } }

/-- The first line of the inserted text. -/
def addFirstLine (beforeFirstLine : Bytes) (state : InputState) (line : Bytes) : InputState :=
  let line := beforeFirstLine ++ line
  { lines := state.lines ++ [line], cursor := { state.cursor with x := line.length } }

/-- The loop of `add_text` over the lines of the inserted text. -/
def addLines (beforeFirstLine : Bytes) (state : InputState) : List Bytes → InputState
  | [] => state
  | line :: rest => rest.foldl addLineBreak (addFirstLine beforeFirstLine state line)

/-- What was behind the cursor in its line goes to the end of the last new line. -/
def addAfterFirstLine (afterFirstLine : Bytes) (newLines : List Bytes) : List Bytes :=
  if afterFirstLine ≠ [] then
    let newLines := if newLines = [] then [[]] else newLines
    newLines.modify (newLines.length - 1) fun line => line ++ afterFirstLine
  else newLines

/-- `add_text`. -/
def addText (self : InputState) (text : Bytes) : Option InputState := do
  let newLines ← sliceTo self.lines self.cursor.y
  let linesAfter := self.lines.drop (self.cursor.y.toNat + 1)
  let cline ← elementAt self.lines self.cursor.y
  let beforeFirstLine ← sliceTo cline self.cursor.x
  let afterFirstLine := cline.drop self.cursor.x.toNat
  let state := addLines beforeFirstLine { self with lines := newLines } (splitlines text)
  let state := if text.getLast? = some newline then addLineBreak state [] else state
  some { state with lines := addAfterFirstLine afterFirstLine state.lines ++ linesAfter }

/-! ### erase_between -/

/-- The cursor behind an erased text that ends in its line. -/
def cursorAfterErased (start end_ : Position) (cursor : Position) : Int :=
  if cursor.x < end_.x then start.x else cursor.x - (end_.x - start.x)

/-- `erase_between` in one line. -/
def eraseInLine (self : InputState) (start end_ : Position) : Option (InputState × Bytes) := do
  let line ← elementAt self.lines start.y
  let erased ← slice line start.x end_.x
  let front ← sliceTo line start.x
  let back ← sliceFrom line end_.x
  let cursor :=
    if self.cursor.y = start.y ∧ self.cursor.x ≥ start.x then
      { self.cursor with x := cursorAfterErased start end_ self.cursor }
    else self.cursor
  some ({ lines := self.lines.set start.y.toNat (front ++ back), cursor }, erased)

/-- One round of the loop of `erase_between` over all lines: the lines that are left and the cursor,
and the erased text. -/
def eraseRound (start end_ : Position) (state : InputState × Bytes) (numbered : Bytes × Nat) :
    Option (InputState × Bytes) :=
  let (self, buf) := state
  let (line, i) := numbered
  if i < start.y ∨ i > end_.y then some ({ self with lines := self.lines ++ [line] }, buf)
  else if i = start.y then do
    let front ← sliceTo line start.x
    let erased ← sliceFrom line start.x
    let cursor :=
      if self.cursor.y = i ∧ self.cursor.x > start.x then { self.cursor with x := start.x }
      else self.cursor
    some ({ lines := self.lines ++ [front], cursor }, buf ++ erased)
  else if i = end_.y then do
    let back ← sliceFrom line end_.x
    let erased ← sliceTo line end_.x
    let last ← self.lines.getLast?
    let cursor :=
      if i = self.cursor.y then { x := cursorAfterErased start end_ self.cursor, y := start.y }
      else self.cursor
    some ({ lines := self.lines.dropLast ++ [last ++ back], cursor }, buf ++ erased)
  else
    some ({ self with cursor := if i = self.cursor.y then start else self.cursor },
      buf ++ line ++ [newline])

/-- `erase_between`: what is left, and the erased text. -/
def eraseBetween (self : InputState) (start end_ : Position) : Option (InputState × Bytes) :=
  let (start, end_) := if end_.less start then (end_, start) else (start, end_)
  if start.y = end_.y then self.eraseInLine start end_
  else self.lines.zipIdx.foldlM (eraseRound start end_) ({ self with lines := [] }, [])

end InputState

end Readline

end Smelly
