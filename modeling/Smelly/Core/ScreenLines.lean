/-
Module: Smelly.Core.ScreenLines
Purpose: The rows in which the line editor of the command line tools shows its lines.
Trusted boundary: human-reviewed model of `get_screen_lines` of tools/tui/readline/draw.go.  The
  lines and the cursor are what `apply_syntax_highlighting` returns (without a highlighter the lines
  of the input state and its cursor), and the prompts are what `prompt_for_line_number` returns.
  `none` is a panic or a loop that does not end
-/
import Smelly.Core.LineInput
import Smelly.Core.TruncateText

namespace Smelly

namespace Readline

open Wcswidth

/-- `Prompt`. -/
structure Prompt where
  text : Bytes := []
  length : Int := 0
deriving DecidableEq, Repr

/-- `ScreenLine`. -/
structure ScreenLine where
  parentLineNumber : Nat
  offsetInParentLine : Nat
  prompt : Prompt := {}
  textLengthInCells : Int := 0
  cursorCell : Int := 0
  cursorTextPos : Int := 0
  text : Bytes := []
  afterLineBreak : Bool := false
deriving DecidableEq, Repr

/-- The variables of `get_screen_lines`. -/
structure Layout where
  ans : List ScreenLine := []
  foundCursor : Bool := false
  cursorAtStartOfNextLine : Bool := false
deriving DecidableEq, Repr

/-- One round of the loop over the rows of a line: what it leaves, and the length of the row. -/
def layRound (t : WidthTables) (screenWidth : Int) (numLines : Nat) (cursor : Position) (i : Nat)
    (line : Bytes) (prompt : Prompt) (isFirst : Bool) (offset : Nat) (state : Layout) :
    Option (Layout × Nat) := do
  let (l, width) ← truncateToVisualLengthWithWidth t (line.drop offset)
    (screenWidth - prompt.length)
  let sl : ScreenLine :=
    { parentLineNumber := i, offsetInParentLine := offset, prompt, textLengthInCells := width
      cursorCell := -1, text := l, cursorTextPos := -1, afterLineBreak := isFirst }
  if state.cursorAtStartOfNextLine then
    let sl := { sl with cursorCell := prompt.length, cursorTextPos := 0 }
    some ({ ans := state.ans ++ [sl], foundCursor := true, cursorAtStartOfNextLine := false },
      l.length)
  else if i = cursor.y ∧ state.foundCursor = false ∧ offset ≤ cursor.x ∧
      cursor.x ≤ offset + l.length then
    let ctpos := cursor.x - offset
    let ccell := prompt.length + stringwidth t (l.take ctpos.toNat)
    if ccell ≥ screenWidth then
      if offset + l.length < line.length ∨ i + 1 < numLines then
        some ({ ans := state.ans ++ [sl], foundCursor := true, cursorAtStartOfNextLine := true },
          l.length)
      else
        let last : ScreenLine := { parentLineNumber := i, offsetInParentLine := line.length }
        some ({ state with ans := state.ans ++ [sl, last], foundCursor := true }, l.length)
    else
      let sl := { sl with cursorTextPos := ctpos, cursorCell := ccell }
      some ({ state with ans := state.ans ++ [sl], foundCursor := true }, l.length)
  else some ({ state with ans := state.ans ++ [sl] }, l.length)

/-- The loop over the rows of a line.  Behind its first row every round that ends goes on in the
line, so a loop that ends does so within this many rounds. -/
def layLine (t : WidthTables) (screenWidth : Int) (numLines : Nat) (cursor : Position) (i : Nat)
    (line : Bytes) (prompt : Prompt) (isFirst : Bool) (offset : Nat) (state : Layout) :
    Nat → Option Layout
  | 0 => none
  | rounds + 1 =>
    if isFirst ∨ offset < line.length then do
      let (state, length) ←
        layRound t screenWidth numLines cursor i line prompt isFirst offset state
      layLine t screenWidth numLines cursor i line {} false (offset + length) state rounds
    else some state

/-- The loop over the lines, from the line with the number `i` on. -/
def layLines (t : WidthTables) (screenWidth : Int) (promptForLineNumber : Nat → Prompt)
    (numLines : Nat) (cursor : Position) (i : Nat) (state : Layout) : List Bytes → Option Layout
  | [] => some state
  | line :: lines => do
    let state ← layLine t screenWidth numLines cursor i line (promptForLineNumber i) true 0 state
      (line.length + 2)
    layLines t screenWidth promptForLineNumber numLines cursor (i + 1) state lines

/-- `get_screen_lines`. -/
def getScreenLines (t : WidthTables) (screenWidth : Int) (promptForLineNumber : Nat → Prompt)
    (lines : List Bytes) (cursor : Position) : Option (List ScreenLine) :=
  (layLines t screenWidth promptForLineNumber lines.length cursor 0 {} lines).map Layout.ans

end Readline

end Smelly
