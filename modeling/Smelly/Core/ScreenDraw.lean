/-
Module: Smelly.Core.ScreenDraw
Purpose: What `screen.c` does with a character of the input: drawing it, combining it with the
  character in front of it, and moving to a tab stop; and the calls of the parser, each with the
  operation of the screen it stands for.
Trusted boundary: human-reviewed model of smelly/screen.c and of the two helpers of
  smelly/parser.c that call it; the generated tables are a parameter; callbacks are left out
-/
import Mathlib.Logic.Function.Iterate
import Smelly.Core.ScreenState
import Smelly.Core.WcsWidth

namespace Smelly

open Checked Wcswidth

/-- The generated tables `draw_codepoint` reads. -/
structure UnicodeTables extends WidthTables where
  isCombiningChar : UInt32 → Bool
  isIgnoredChar : UInt32 → Bool
  markForCodepoint : UInt32 → UInt16

/-- What the screen uses of the rest of the program. -/
structure ScreenEnv where
  tables : UnicodeTables
  lineAsAnsi : LineAsAnsi
  scrollbackFillEnlargedWindow : Bool
  allowHyperlinks : Bool

/-- `VS15`, the mark of the text variation selector. -/
def VS15 : UInt16 := 1364

/-- `VS16`, the mark of the emoji variation selector. -/
def VS16 : UInt16 := 1365

/-! ### Combining characters -/

/-- `linebuf_init_line` on line `y`, the operations on it, and `linebuf_mark_line_dirty`. -/
def onScreenLine (self : Screen) (y : Nat) (operation : Row → Option Row) : Option Screen := do
  let changed ← self.linebuf.onRow y operation
  let marked ← linebufMarkLineDirty changed y
  some (self.setLinebuf marked)

/-- `draw_second_flag_codepoint`; the inner `none` stands for `false`. -/
def drawSecondFlagCodepoint (t : UnicodeTables) (self : Screen) (ch : UInt32) :
    Option (Option Screen) :=
  let found :=
    if 1 < self.cursor.x then some (self.cursor.x - 2, self.cursor.y)
    else if 0 < self.cursor.y ∧ 1 < self.columns then some (self.columns - 2, self.cursor.y - 1)
    else none
  match found with
  | none => some none
  | some (xpos, ypos) => do
      let row ← self.linebuf.row ypos
      let cell ← row[xpos]?
      if ¬ isFlagPair cell.ch ch ∨ getElem cell.cpu.ccIdx 0 firstSlot ≠ 0 then some none
      else do
        let drawn ← onScreenLine self ypos fun row =>
          lineAddCombiningChar row (t.markForCodepoint ch) xpos
        some (some drawn)

/-- The place of the character in front of the cursor. -/
def previousCell (self : Screen) : Option (Nat × Nat) :=
  if 0 < self.cursor.x then some (self.cursor.x - 1, self.cursor.y)
  else if 0 < self.cursor.y then some (self.columns - 1, self.cursor.y - 1)
  else none

/-- `move_widened_char`: the cell at `xpos`, widened already, moves to where it has room. -/
def moveWidenedChar (env : ScreenEnv) (self : ScreenState) (cell : Cell) (xpos ypos : Nat) :
    Option ScreenState :=
  self.onScreen fun screen => do
    let screen := { screen with cursor := { screen.cursor with x := xpos, y := ypos } }
    let cleared ← screen.linebuf.onRow ypos fun row => lineClearText row xpos 1 blankChar
    if self.modes.mDECAWM then do
      let continued ← linebufSetLastCharAsContinuation cleared ypos true
      let fed ← screenLinefeed env.lineAsAnsi (screenCarriageReturn (screen.setLinebuf continued))
        self.modes.mLNM
      let moved := { fed with cursor := { fed.cursor with x := min 2 fed.columns } }
      onScreenLine moved moved.cursor.y fun row => setAt row 0 cell
    else do
      let stored ←
        if 0 < xpos then cleared.onRow ypos fun row => setAt row (xpos - 1) cell else none
      let screen := screen.setLinebuf stored
      some { screen with cursor := { screen.cursor with x := screen.columns } }

/-- The part of `draw_combining_char` for the emoji variation selector, with the mark added at
`xpos` on line `ypos`. -/
def presentAsEmoji (env : ScreenEnv) (self : ScreenState) (xpos ypos : Nat) :
    Option ScreenState := do
  let screen := self.screen
  let row ← screen.linebuf.row ypos
  let cell ← row[xpos]?
  if cell.attrs.width ≠ 2 ∧ getElem cell.cpu.ccIdx 0 firstSlot = VS16 ∧
      env.tables.isEmojiPresentationBase cell.ch then do
    let linebuf ← screen.linebuf.onRow ypos fun row => do
      let row ←
        if screen.cursor.x ≤ screen.columns - 1 then
          lineSetChar row screen.cursor.x 0 0 screen.cursor self.activeHyperlinkId
        else some row
      modifyAt row xpos fun cell => cell.setWidth 2
    let widened := { self with screen := screen.setLinebuf linebuf }
    if xpos = screen.columns - 1 then do
      let row ← linebuf.row ypos
      let cell ← row[xpos]?
      moveWidenedChar env widened cell xpos ypos
    else
      some (widened.mapScreen fun screen =>
        { screen with cursor := { screen.cursor with x := screen.cursor.x + 1 } })
  else some self

/-- The part of `draw_combining_char` for the text variation selector. -/
def presentAsText (env : ScreenEnv) (self : Screen) (xpos ypos : Nat) : Option Screen := do
  let row ← self.linebuf.row ypos
  let cell ← row[xpos]?
  let behind : Bool := cell.attrs.width = 0 ∧ cell.ch = 0 ∧ 0 < xpos
  let xpos := if behind then xpos - 1 else xpos
  let self :=
    if behind then { self with cursor := { self.cursor with x := self.cursor.x - 1 } } else self
  let cell ← row[xpos]?
  if cell.attrs.width = 2 ∧ getElem cell.cpu.ccIdx 0 firstSlot = VS15 ∧
      env.tables.isEmojiPresentationBase cell.ch then do
    let linebuf ← self.linebuf.onRow ypos fun row => modifyAt row xpos fun cell => cell.setWidth 1
    some (self.setLinebuf linebuf)
  else some self

/-- `draw_combining_char`. -/
def drawCombiningChar (env : ScreenEnv) (self : ScreenState) (ch : UInt32) :
    Option ScreenState :=
  match previousCell self.screen with
  | none => some self
  | some (xpos, ypos) => do
      let marked ← self.onScreen fun screen => onScreenLine screen ypos fun row =>
        lineAddCombiningChar row (env.tables.markForCodepoint ch) xpos
      if ch = 0xfe0f then presentAsEmoji env marked xpos ypos
      else if ch = 0xfe0e then marked.onScreen fun screen => presentAsText env screen xpos ypos
      else some marked

/-! ### Other characters -/

/-- The part of `draw_codepoint` that makes room for a character of that width. -/
def makeRoomForChar (env : ScreenEnv) (modes : ScreenModes) (charWidth : Nat) (self : Screen) :
    Option Screen :=
  if self.columns - self.cursor.x < charWidth then
    if modes.mDECAWM then do
      let continued ← linebufSetLastCharAsContinuation self.linebuf self.cursor.y true
      screenLinefeed env.lineAsAnsi (screenCarriageReturn (self.setLinebuf continued)) modes.mLNM
    else if charWidth ≤ self.columns then
      some { self with cursor := { self.cursor with x := self.columns - charWidth } }
    else none
  else some self

/-- The part of `draw_codepoint` that stores the character at the cursor and moves on. -/
def storeAtCursor (modes : ScreenModes) (hyperlinkId : UInt16) (ch : UInt32) (charWidth : Nat)
    (self : Screen) : Option Screen := do
  let x := self.cursor.x
  let drawn ← onCursorLine self fun row => do
    let row ← if modes.mIRM then lineRightShift row x charWidth else some row
    let row ← lineSetChar row x ch charWidth self.cursor hyperlinkId
    if charWidth = 2 then lineSetChar row (x + 1) 0 0 self.cursor hyperlinkId else some row
  some { drawn with cursor := { drawn.cursor with x := x + if charWidth = 2 then 2 else 1 } }

/-- The part of `draw_codepoint` behind the combining characters. -/
def drawSpacingChar (env : ScreenEnv) (self : ScreenState) (ch : UInt32) (fromInputStream : Bool) :
    Option ScreenState :=
  let width := env.tables.wcwidthStd ch
  if width = 0 then some self
  else
    let charWidth := if width < 1 then 1 else width.toNat
    let self := if fromInputStream then { self with lastGraphicChar := ch } else self
    self.onScreen fun screen => do
      let screen ← makeRoomForChar env self.modes charWidth screen
      storeAtCursor self.modes self.activeHyperlinkId ch charWidth screen

/-- `draw_codepoint`. -/
def drawCodepoint (env : ScreenEnv) (self : ScreenState) (och : UInt32) (fromInputStream : Bool) :
    Option ScreenState :=
  if env.tables.isIgnoredChar och then some self
  else
    let ch := if och < 256 then self.charsets.gCharset.translate och else och
    if env.tables.isCombiningChar ch then
      if isFlagCodepoint ch then do
        match ← drawSecondFlagCodepoint env.tables self.screen ch with
        | some screen => some { self with screen := screen }
        | none => drawSpacingChar env self ch fromInputStream
      else drawCombiningChar env self ch
    else drawSpacingChar env self ch fromInputStream

/-- `CSI_REP_MAX_REPETITIONS`. -/
def CSI_REP_MAX_REPETITIONS : Nat := 65535

/-- `screen_repeat_character`. -/
def screenRepeatCharacter (env : ScreenEnv) (self : ScreenState) (count : Nat) :
    Option ScreenState :=
  if self.lastGraphicChar ≠ 0 then
    forUp 0 (min (if count = 0 then 1 else count) CSI_REP_MAX_REPETITIONS)
      (fun _ s => drawCodepoint env s s.lastGraphicChar false) self
  else some self

/-! ### Tabs -/

/-- The first tab stop behind column `x`, or the last column. -/
def nextTabstop (tabstops : List Bool) (columns x : Nat) : Nat :=
  ((List.range' (x + 1) (columns - (x + 1))).find? fun i => tabstops.getD i false).getD
    (columns - 1)

/-- The part of `screen_tab` that stores the tab: its cell says how many cells it covers, unless
one of these holds a character. -/
def coverWithTab (row : Row) (x distance : Nat) : Option Row :=
  let diff := distance % 2 ^ 16
  if ((row.drop x).take diff).all fun cell => cell.ch = ord ' ' ∨ cell.ch = 0 then do
    let spaced ← forUp x diff (fun i r => modifyAt r i fun cell =>
      { cell with cpu := { cell.cpu with ch := ord ' ', ccIdx := Vector.replicate 3 0 } }) row
    modifyAt spaced x fun cell =>
      { cell with cpu := { cell.cpu with
          ch := Ctl.HT
          ccIdx := cell.cpu.ccIdx.set 0 (UInt16.ofNat diff) firstSlot } }
  else some row

/-- `screen_tab`. -/
def screenTab (self : ScreenState) : Option ScreenState :=
  self.onScreen fun screen =>
    let x := screen.cursor.x
    let found := nextTabstop self.tabstops screen.columns x
    if found ≠ x then do
      let linebuf ←
        if x < screen.columns then
          screen.linebuf.onRow screen.cursor.y fun row => coverWithTab row x (found - x)
        else some screen.linebuf
      some { screen.setLinebuf linebuf with cursor := { screen.cursor with x := found } }
    else some screen

/-- `screen_tabn` of the parser. -/
def screenTabn (self : ScreenState) (count : Nat) : Option ScreenState :=
  forUp 0 (max 1 count) (fun _ s => screenTab s) self

/-- One round of the outer loop of `screen_backtab`. -/
def previousTabstop (tabstops : List Bool) (x : Nat) : Nat :=
  ((List.range x).reverse.find? fun i => tabstops.getD i false).getD 0

/-- `screen_backtab`; rounds at the first column change nothing. -/
def screenBacktab (self : ScreenState) (count : Nat) : ScreenState :=
  self.mapScreen fun screen =>
    { screen with cursor := { screen.cursor with
        x := Nat.iterate (previousTabstop self.tabstops) (if count = 0 then 1 else count)
          screen.cursor.x } }

/-- `screen_clear_tab_stop`. -/
def screenClearTabStop (self : ScreenState) (how : Nat) : Option ScreenState :=
  let x := self.screen.cursor.x
  if how = 0 ∧ x < self.screen.columns then do
    let tabstops ← setAt self.tabstops x false
    some (self.setTabstops tabstops)
  else if how = 3 then some (self.setTabstops (self.tabstops.map fun _ => false))
  else some self

/-- `screen_set_tab_stop`. -/
def screenSetTabStop (self : ScreenState) : Option ScreenState :=
  let x := self.screen.cursor.x
  if x < self.screen.columns then do
    let tabstops ← setAt self.tabstops x true
    some (self.setTabstops tabstops)
  else some self

/-! ### The calls of the parser -/

/-- `shell_prompt_marking`. -/
def shellPromptMarking (self : ScreenState) (text : Text) : Option ScreenState :=
  let y := self.screen.cursor.y
  let mark (kind : PromptKind) (self : ScreenState) : Option ScreenState :=
    self.onScreen fun screen => do
      let lineAttrs ← modifyAt screen.linebuf.lineAttrs y fun attrs =>
        { attrs with promptKind := kind }
      some (screen.setLinebuf { screen.linebuf with lineAttrs := lineAttrs })
  if y < self.screen.lines then
    match text with
    | [] => some self
    | ch :: _ =>
      if ch = ord 'A' then
        let parts := text.splitOn (ord ';')
        mark (if chars "k=s" ∈ parts then .secondaryPrompt else .promptStart)
          { self with redrawsPromptsAtAll := chars "redraw=0" ∉ parts }
      else if ch = ord 'C' then mark .outputStart self
      else some self
  else some self

/-- What other parts of the program answer during a call: where the graphics manager leaves the
cursor, and the number the hyperlink pool has for a link. -/
structure CallAnswers where
  graphicsCursor : Nat × Nat := (0, 0)
  hyperlinkId : UInt16 := 0
deriving DecidableEq, Repr, Inhabited

/-- What a call of the parser does to the screen.  Calls that are not listed report something, or
change what is not part of this state. -/
def performOnScreen (env : ScreenEnv) (answers : CallAnswers) (self : ScreenState) :
    Command → Option ScreenState
  | .draw ch => drawCodepoint env self ch true
  | .backspace => some (self.mapScreen fun screen => screenCursorBack screen 1 false)
  | .tab => screenTab self
  | .nel => self.onScreen fun screen =>
    screenLinefeed env.lineAsAnsi (screenCarriageReturn screen) self.modes.mLNM
  | .linefeed => self.onScreen fun screen => screenLinefeed env.lineAsAnsi screen self.modes.mLNM
  | .carriageReturn => some (self.mapScreen screenCarriageReturn)
  | .changeCharset which => some { self with charsets := screenChangeCharset self.charsets which }
  | .index => self.onScreen (screenIndex env.lineAsAnsi)
  | .reverseIndex => self.onScreen screenReverseIndex
  | .setTabStop => screenSetTabStop self
  | .reset => some (screenReset self)
  | .saveCursor => some (screenSaveCursor self)
  | .restoreCursor => some (screenRestoreCursor self)
  | .useLatin1 on => some { self with charsets := screenUseLatin1 self.charsets on }
  | .align => some (self.mapScreen screenAlign)
  | .designateCharset which as_ =>
    some { self with charsets := screenDesignateCharset self.charsets which as_ }
  | .set8bitControls yes => some (screenSet8bitControls self yes)
  | .setActiveHyperlink _ url =>
    if env.allowHyperlinks then
      some { self with
        activeHyperlinkId := if url.getD [] = [] then 0 else answers.hyperlinkId }
    else some self
  | .shellPromptMarking text => shellPromptMarking self text
  | .selectGraphicRendition params region =>
    self.onScreen fun screen => changeRendition screen self.modes.mDECSACE params region
  | .insertCharacters count => self.onScreen fun screen => screenInsertCharacters screen count
  | .repeatCharacter count => screenRepeatCharacter env self count
  | .cursorUp2 count => some (self.mapScreen fun screen => screenCursorUp screen count false false)
  | .cursorDown count => some (self.mapScreen fun screen => screenCursorDown screen count)
  | .cursorForward count => some (self.mapScreen fun screen => screenCursorBack screen count true)
  | .cursorBack1 count => some (self.mapScreen fun screen => screenCursorBack screen count false)
  | .cursorDown1 count => some (self.mapScreen fun screen => screenCursorUp screen count true true)
  | .cursorUp1 count => some (self.mapScreen fun screen => screenCursorUp screen count true false)
  | .cursorToColumn column => some (self.mapScreen fun screen => screenCursorToColumn screen column)
  | .cursorToLine line => some (self.mapScreen fun screen => screenCursorToLine screen line)
  | .backtab count => some (screenBacktab self count)
  | .tabn count => screenTabn self count
  | .cursorPosition line column =>
    some (self.mapScreen fun screen => screenCursorPosition screen line column)
  | .eraseInDisplay how private_ =>
    self.onScreen fun screen => screenEraseInDisplay screen how private_
  | .eraseInLine how private_ => self.onScreen fun screen => screenEraseInLine screen how private_
  | .insertLines count => self.onScreen fun screen => screenInsertLines screen count
  | .deleteLines count => self.onScreen fun screen => screenDeleteLines screen count
  | .deleteCharacters count => self.onScreen fun screen => screenDeleteCharacters screen count
  | .eraseCharacters count => self.onScreen fun screen => screenEraseCharacters screen count
  | .clearTabStop how => screenClearTabStop self how
  | .setMode mode => self.setModeFromConst mode true
  | .resetMode mode => self.setModeFromConst mode false
  | .saveMode mode => some (screenSaveMode self mode)
  | .restoreMode mode => screenRestoreMode self mode
  | .saveModes => some (screenSaveModes self)
  | .restoreModes => some (screenRestoreModes self)
  | .setMargins top bottom => some (self.mapScreen fun screen => screenSetMargins screen top bottom)
  | .decsace val => some (screenDecsace self val)
  | .setCursor mode secondary =>
    some (self.mapScreen fun screen => screenSetCursor screen mode secondary)
  | .scroll count => self.onScreen fun screen => screenScroll env.lineAsAnsi screen count
  | .reverseScroll count => self.onScreen fun screen => screenReverseScroll screen count
  | .reverseScrollAndFillFromScrollback count =>
    self.onScreen fun screen => screenReverseScrollAndFillFromScrollback screen count
  | .handleGraphicsCommand _ _ => self.onScreen fun screen =>
    moveCursorBehindImage env.lineAsAnsi screen answers.graphicsCursor.1 answers.graphicsCursor.2
  | _ => some self

end Smelly
