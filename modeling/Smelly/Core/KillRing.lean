/-
Module: Smelly.Core.KillRing
Purpose: The actions of the line editor that kill text and that yank it back.
Trusted boundary: human-reviewed model of the `kill_*` functions and `yank` of
  tools/tui/readline/actions.go and of `kill_ring` of api.go.  The actions are in the order of
  gen-go-code.py; `none` is a panic
-/
import Smelly.Core.WordMotion

namespace Smelly

namespace Readline

open Wcswidth

/-- `Action`. -/
inductive Action where
  | nil
  | backspace
  | delete
  | moveToStartOfLine
  | moveToEndOfLine
  | moveToStartOfDocument
  | moveToEndOfDocument
  | moveToEndOfWord
  | moveToStartOfWord
  | cursorLeft
  | cursorRight
  | endInput
  | acceptInput
  | cursorUp
  | historyPreviousOrCursorUp
  | cursorDown
  | historyNextOrCursorDown
  | historyNext
  | historyPrevious
  | historyFirst
  | historyLast
  | historyIncrementalSearchBackwards
  | historyIncrementalSearchForwards
  | terminateHistorySearchAndApply
  | terminateHistorySearchAndRestore
  | clearScreen
  | addText
  | abortCurrentLine
  | startKillActions
  | killToEndOfLine
  | killToStartOfLine
  | killNextWord
  | killPreviousWord
  | killPreviousSpaceDelimitedWord
  | endKillActions
  | yank
  | popYank
  | numericArgumentDigit0
  | numericArgumentDigit1
  | numericArgumentDigit2
  | numericArgumentDigit3
  | numericArgumentDigit4
  | numericArgumentDigit5
  | numericArgumentDigit6
  | numericArgumentDigit7
  | numericArgumentDigit8
  | numericArgumentDigit9
  | numericArgumentDigitMinus
  | completeForward
  | completeBackward
deriving DecidableEq, Repr

/-- The test of `kill_text` on the last action. -/
def Action.isKill (ac : Action) : Bool :=
  Action.startKillActions.ctorIdx < ac.ctorIdx ∧ ac.ctorIdx < Action.endKillActions.ctorIdx

/-! ### The kill ring -/

/-- `kill_ring`, the newest text first. -/
structure KillRing where
  items : List Bytes := []
deriving DecidableEq, Repr

namespace KillRing

/-- `add_new_item`. -/
def addNewItem (self : KillRing) (text : Bytes) : KillRing :=
  if text ≠ [] then { items := text :: self.items } else self

/-- `append_to_existing_item`.  With an empty ring it uses an item that is nil. -/
def appendToExistingItem (self : KillRing) (text : Bytes) : Option KillRing :=
  match self.items with
  | [] => none
  | item :: items => some { items := (item ++ text) :: items }

/-- `yank`. -/
def yank (self : KillRing) : Bytes := self.items.headD []

/-- `pop_yank`: the newest text goes to the back. -/
def popYank (self : KillRing) : KillRing × Bytes :=
  match self.items with
  | [] => (self, [])
  | item :: items =>
    let self : KillRing := { items := items ++ [item] }
    (self, self.yank)

end KillRing

/-! ### Killing and yanking -/

/-- The fields of `Readline` that killing and yanking use. -/
structure Editor where
  inputState : InputState
  killRing : KillRing := {}
  lastAction : Action := .nil
  lastYankStart : Position := { x := 0, y := 0 }
  lastYankEnd : Position := { x := 0, y := 0 }
deriving DecidableEq, Repr

/-- The actions that kill text. -/
inductive KillAction where
  | killToEndOfLine
  | killToStartOfLine
  | killNextWord
  | killPreviousWord
  | killPreviousSpaceDelimitedWord
deriving DecidableEq, Repr

def KillAction.action : KillAction → Action
  | killToEndOfLine => .killToEndOfLine
  | killToStartOfLine => .killToStartOfLine
  | killNextWord => .killNextWord
  | killPreviousWord => .killPreviousWord
  | killPreviousSpaceDelimitedWord => .killPreviousSpaceDelimitedWord

namespace Editor

/-- `kill_text`. -/
def killText (self : Editor) (text : Bytes) : Option Editor := do
  if self.lastAction.isKill then
    let killRing ← self.killRing.appendToExistingItem text
    some { self with killRing }
  else some { self with killRing := self.killRing.addNewItem text }

/-- `kill_to_end_of_line`. -/
def killToEndOfLine (self : Editor) : Option (Editor × Bool) := do
  let state := self.inputState
  let line ← elementAt state.lines state.cursor.y
  if state.cursor.x ≥ line.length then some (self, false)
  else
    let front ← sliceTo line state.cursor.x
    let back ← sliceFrom line state.cursor.x
    let self :=
      { self with inputState := { state with lines := state.lines.set state.cursor.y.toNat front } }
    let self ← self.killText back
    some (self, true)

/-- `kill_to_start_of_line`. -/
def killToStartOfLine (self : Editor) : Option (Editor × Bool) := do
  let state := self.inputState
  let line ← elementAt state.lines state.cursor.y
  if state.cursor.x ≤ 0 then some (self, false)
  else
    let front ← sliceTo line state.cursor.x
    let back ← sliceFrom line state.cursor.x
    let lines := state.lines.set state.cursor.y.toNat back
    let self ← killText { self with inputState := { state with lines } } front
    some ({ self with
        inputState := { self.inputState with cursor := { self.inputState.cursor with x := 0 } } },
      true)

/-- What the functions that kill words do behind the motion: the text between the two positions is
killed if words were moved over. -/
def killMoved (self : Editor) (moved : InputState × Nat) (start end_ : Position) :
    Option (Editor × Bool) := do
  let (state, numKilled) := moved
  if numKilled > 0 then
    let (state, erased) ← state.eraseBetween start end_
    let self ← killText { self with inputState := state } erased
    some (self, true)
  else some ({ self with inputState := state }, false)

/-- `kill_next_word`. -/
def killNextWord (t : WidthTables) (u : UnicodeClasses) (self : Editor) (amt : Nat)
    (traverseLineBreaks : Bool) : Option (Editor × Bool) := do
  let before := self.inputState.cursor
  let moved ← self.inputState.moveToEndOfWord t amt traverseLineBreaks (hasWordChars u)
  self.killMoved moved before moved.1.cursor

/-- `kill_previous_word`. -/
def killPreviousWord (t : WidthTables) (u : UnicodeClasses) (self : Editor) (amt : Nat)
    (traverseLineBreaks : Bool) : Option (Editor × Bool) := do
  let before := self.inputState.cursor
  let moved ← self.inputState.moveToStartOfWord t u amt traverseLineBreaks (hasWordChars u)
  self.killMoved moved moved.1.cursor before

/-- `kill_previous_space_delimited_word`. -/
def killPreviousSpaceDelimitedWord (t : WidthTables) (u : UnicodeClasses) (self : Editor)
    (amt : Nat) (traverseLineBreaks : Bool) : Option (Editor × Bool) := do
  let before := self.inputState.cursor
  let moved ← self.inputState.moveToStartOfWord t u amt traverseLineBreaks (hasNoSpaceChars u)
  self.killMoved moved moved.1.cursor before

/-- The kill actions of `_perform_action`. -/
def performKill (t : WidthTables) (u : UnicodeClasses) (self : Editor) (ac : KillAction)
    (repeatCount : Nat) : Option (Editor × Bool) :=
  match ac with
  | .killToEndOfLine => self.killToEndOfLine
  | .killToStartOfLine => self.killToStartOfLine
  | .killNextWord => self.killNextWord t u repeatCount true
  | .killPreviousWord => self.killPreviousWord t u repeatCount true
  | .killPreviousSpaceDelimitedWord => self.killPreviousSpaceDelimitedWord t u repeatCount true

/-- `perform_action` for a kill action. -/
def kill (t : WidthTables) (u : UnicodeClasses) (self : Editor) (ac : KillAction)
    (repeatCount : Nat) : Option (Editor × Bool) := do
  let (self, performed) ← self.performKill t u ac repeatCount
  if performed then some ({ self with lastAction := ac.action }, true) else some (self, false)

/-- `ensure_position_in_bounds`. -/
def ensurePositionInBounds (self : InputState) (pos : Position) : Option Position := do
  let y := max 0 (min pos.y (self.lines.length - 1))
  let line ← elementAt self.lines y
  some { x := max 0 (min pos.x line.length), y }

/-- `yank`. -/
def yank (self : Editor) (pop : Bool) : Option (Editor × Bool) := do
  if pop ∧ self.lastAction ≠ .yank ∧ self.lastAction ≠ .popYank then some (self, false)
  else
    let (killRing, text) :=
      if pop then self.killRing.popYank else (self.killRing, self.killRing.yank)
    let self := { self with killRing }
    if text = [] then some (self, false)
    else
      let self ←
        if pop then do
          let start ← ensurePositionInBounds self.inputState self.lastYankStart
          let end_ ← ensurePositionInBounds self.inputState self.lastYankEnd
          let (state, _) ← self.inputState.eraseBetween start end_
          some { self with
            inputState := { state with cursor := start }
            lastYankStart := start
            lastYankEnd := end_ }
        else some self
      let before := self.inputState.cursor
      let state ← self.inputState.addText text
      some ({ self with inputState := state, lastYankStart := before, lastYankEnd := state.cursor },
        true)

/-- `perform_action` for `ActionYank`. -/
def performYank (self : Editor) : Option (Editor × Bool) := do
  let (self, performed) ← self.yank false
  if performed then some ({ self with lastAction := .yank }, true) else some (self, false)

end Editor

end Readline

end Smelly
