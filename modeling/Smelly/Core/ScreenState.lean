/-
Module: Smelly.Core.ScreenState
Purpose: The rest of the screen of `screen.c` around its buffers: the modes, the character sets,
  the two savepoints and the tab stops, with the operations that move the cursor, change modes,
  save and restore the cursor, switch the buffers, reset and resize.
Trusted boundary: human-reviewed model of smelly/screen.c and smelly/modes.h; the input method
  overlay, the selections, the images, the prompt that was visited last, the key encoding flags,
  the colours and the redraw flag are left out; a resize takes what the pager history holds behind
  it as an argument
-/
import Smelly.Core.Rewrap
import Smelly.Core.ScreenEditing

namespace Smelly

open Checked

/-! ### The fields -/

inductive MouseTrackingMode where
  | noTracking
  | buttonMode
  | motionMode
  | anyMode
deriving DecidableEq, Repr, Inhabited

inductive MouseTrackingProtocol where
  | normalProtocol
  | utf8Protocol
  | sgrProtocol
  | urxvtProtocol
  | sgrPixelProtocol
deriving DecidableEq, Repr, Inhabited

/-- `ScreenModes` without `mDECOM`, which is with the cursor it constrains in `Screen`; the default
is `empty_modes`. -/
structure ScreenModes where
  mLNM : Bool := false
  mIRM : Bool := false
  mDECTCEM : Bool := true
  mDECSCNM : Bool := false
  mDECAWM : Bool := true
  mDECCOLM : Bool := false
  mDECARM : Bool := true
  mDECCKM : Bool := false
  mBRACKETED_PASTE : Bool := false
  mFOCUS_TRACKING : Bool := false
  mDECSACE : Bool := false
  mHANDLE_TERMIOS_SIGNALS : Bool := false
  mouseTrackingMode : MouseTrackingMode := .noTracking
  mouseTrackingProtocol : MouseTrackingProtocol := .normalProtocol
  eightBitControls : Bool := false
deriving DecidableEq, Repr, Inhabited

/-- The fields `COPY_CHARSETS` copies; the default is `RESET_CHARSETS`. -/
structure CharsetBlock extends Decoder where
  g0Charset : Charset := .latin1
  g1Charset : Charset := .latin1
  currentCharset : Nat := 0
deriving DecidableEq, Repr, Inhabited

/-- The character sets of `Screen`; `gCharset` is the one in use. -/
structure Charsets extends CharsetBlock where
  gCharset : Charset := .latin1
deriving DecidableEq, Repr, Inhabited

structure Savepoint where
  charsets : CharsetBlock := {}
  cursor : Cursor := {}
  mDECOM : Bool := false
  mDECAWM : Bool := false
  mDECSCNM : Bool := false
  isValid : Bool := false
deriving DecidableEq, Repr, Inhabited

/-- `Screen` with the fields the buffers do not need.  `tabstopsOnMain` says which tab stops
`tabstops` points to; `savedDECOM` is the `mDECOM` of `saved_modes`. -/
structure ScreenState where
  screen : Screen
  modes : ScreenModes := {}
  savedModes : ScreenModes := {}
  savedDECOM : Bool := false
  charsets : Charsets := {}
  mainSavepoint : Savepoint := {}
  altSavepoint : Savepoint := {}
  mainTabstops : List Bool
  altTabstops : List Bool
  tabstopsOnMain : Bool := true
  activeHyperlinkId : UInt16 := 0
  lastGraphicChar : UInt32 := 0
  redrawsPromptsAtAll : Bool := false
deriving DecidableEq, Repr

/-- `init_tabstops`. -/
def initTabstops (count : Nat) : List Bool := (List.range count).map fun t => t % 8 = 0

/-- `new`. -/
def newScreenState (lines columns scrollback pagerhistSz : Nat) : ScreenState :=
  { screen := newScreen lines columns scrollback pagerhistSz
    mainTabstops := initTabstops columns
    altTabstops := initTabstops columns }

/-- `self->tabstops`. -/
def ScreenState.tabstops (self : ScreenState) : List Bool :=
  if self.tabstopsOnMain then self.mainTabstops else self.altTabstops

/-- Store what an operation made of the array `self->tabstops` points to. -/
def ScreenState.setTabstops (self : ScreenState) (tabstops : List Bool) : ScreenState :=
  if self.tabstopsOnMain then { self with mainTabstops := tabstops }
  else { self with altTabstops := tabstops }

/-- An operation on the buffers, the cursor and the margins. -/
def ScreenState.onScreen (self : ScreenState) (operation : Screen → Option Screen) :
    Option ScreenState := do
  let screen ← operation self.screen
  some { self with screen := screen }

/-- An operation on these fields that cannot fail. -/
def ScreenState.mapScreen (self : ScreenState) (operation : Screen → Screen) : ScreenState :=
  { self with screen := operation self.screen }

/-! ### The cursor -/

/-- `screen_cursor_back`; `forward` stands for a positive `move_direction`. -/
def screenCursorBack (self : Screen) (count : Nat) (forward : Bool) : Screen :=
  let count := if count = 0 then 1 else count
  let x := if forward then (self.cursor.x + count) % 2 ^ 32 else self.cursor.x - count
  screenEnsureBounds { self with cursor := { self.cursor with x := x } } false
    (cursorWithinMargins self)

/-- `screen_cursor_to_column`. -/
def screenCursorToColumn (self : Screen) (column : Nat) : Screen :=
  let x := max column 1 - 1
  if x ≠ self.cursor.x then
    screenEnsureBounds { self with cursor := { self.cursor with x := x } } false
      (cursorWithinMargins self)
  else self

/-- `screen_cursor_to_line`. -/
def screenCursorToLine (self : Screen) (line : Nat) : Screen :=
  screenCursorPosition self line (self.cursor.x + 1)

/-- `screen_set_margins`. -/
def screenSetMargins (self : Screen) (top bottom : Nat) : Screen :=
  let top := min self.lines (if top = 0 then 1 else top) - 1
  let bottom := min self.lines (if bottom = 0 then self.lines else bottom) - 1
  if top < bottom then
    screenCursorPosition { self with marginTop := top, marginBottom := bottom } 1 1
  else self

/-- The shape and the blinking `DECSCUSR` asks for. -/
def cursorStyle (mode : Nat) : CursorShape × Bool :=
  if mode = 0 then (.noCursorShape, true)
  else
    (if mode < 3 then .block else if mode < 5 then .underline else if mode < 7 then .beam
      else .noCursorShape, mode % 2 = 1)

/-- `screen_set_cursor`. -/
def screenSetCursor (self : Screen) (mode : Nat) (secondary : UInt32) : Screen :=
  if secondary = ord ' ' then
    let (shape, blink) := cursorStyle mode
    { self with cursor := { self.cursor with shape := shape, nonBlinking := !blink } }
  else self

/-- `cursor_reset`. -/
def cursorReset (cursor : Cursor) : Cursor :=
  { cursorResetDisplayAttrs cursor with
    x := 0, y := 0, shape := .noCursorShape, nonBlinking := false }

/-- `screen_linefeed`; `newLine` is `mLNM`. -/
def screenLinefeed (lineAsAnsi : LineAsAnsi) (self : Screen) (newLine : Bool) : Option Screen := do
  let inMargins := cursorWithinMargins self
  let indexed ← screenIndex lineAsAnsi self
  let returned := if newLine then screenCarriageReturn indexed else indexed
  some (screenEnsureBounds returned false inMargins)

/-- The part of `screen_handle_graphics_command` behind the graphics manager, which has left the
cursor at `x` and `y`. -/
def moveCursorBehindImage (lineAsAnsi : LineAsAnsi) (self : Screen) (x y : Nat) : Option Screen :=
  if x ≠ self.cursor.x ∨ y ≠ self.cursor.y then do
    let moved := { self with cursor := { self.cursor with x := x, y := y } }
    let inMargins := cursorWithinMargins moved
    let moved :=
      if moved.columns ≤ x then { moved with cursor := { moved.cursor with x := 0, y := y + 1 } }
      else moved
    let scrolled ←
      if moved.marginBottom < moved.cursor.y then
        screenScroll lineAsAnsi moved (moved.cursor.y - moved.marginBottom)
      else some moved
    some (screenEnsureBounds scrolled false inMargins)
  else some self

/-! ### The character sets -/

/-- `screen_change_charset`. -/
def screenChangeCharset (self : Charsets) (which : Nat) : Charsets :=
  if which = 0 then { self with currentCharset := 0, gCharset := self.g0Charset }
  else if which = 1 then { self with currentCharset := 1, gCharset := self.g1Charset }
  else self

/-- `screen_designate_charset`. -/
def screenDesignateCharset (self : Charsets) (which : Nat) (as_ : UInt32) : Charsets :=
  if which = 0 then
    { self with
      g0Charset := translationTable as_
      gCharset := if self.currentCharset = 0 then translationTable as_ else self.gCharset }
  else if which = 1 then
    { self with
      g1Charset := translationTable as_
      gCharset := if self.currentCharset = 1 then translationTable as_ else self.gCharset }
  else self

/-- `screen_use_latin1`. -/
def screenUseLatin1 (self : Charsets) (on : Bool) : Charsets :=
  { self with utf8State := utf8Accept, utf8Codepoint := 0, useLatin1 := on }

/-! ### Saving and restoring the cursor -/

/-- The savepoint of the buffer in use. -/
def ScreenState.savepoint (self : ScreenState) : Savepoint :=
  if self.screen.onMain then self.mainSavepoint else self.altSavepoint

/-- Store the savepoint of the buffer in use. -/
def ScreenState.setSavepoint (self : ScreenState) (savepoint : Savepoint) : ScreenState :=
  if self.screen.onMain then { self with mainSavepoint := savepoint }
  else { self with altSavepoint := savepoint }

/-- `screen_save_cursor`. -/
def screenSaveCursor (self : ScreenState) : ScreenState :=
  self.setSavepoint
    { charsets := self.charsets.toCharsetBlock
      cursor := self.screen.cursor
      mDECOM := self.screen.mDECOM
      mDECAWM := self.modes.mDECAWM
      mDECSCNM := self.modes.mDECSCNM
      isValid := true }

/-- The case `DECOM` of `set_mode_from_const`. -/
def setOriginMode (self : ScreenState) (val : Bool) : ScreenState :=
  self.mapScreen fun screen => screenCursorPosition { screen with mDECOM := val } 1 1

/-- `screen_restore_cursor`. -/
def screenRestoreCursor (self : ScreenState) : ScreenState :=
  let sp := self.savepoint
  if sp.isValid then
    let charsets : Charsets :=
      { toCharsetBlock := sp.charsets
        gCharset :=
          if sp.charsets.currentCharset ≠ 0 then sp.charsets.g1Charset
          else sp.charsets.g0Charset }
    let moded := setOriginMode { self with charsets := charsets } sp.mDECOM
    let moded := { moded with
      modes := { moded.modes with mDECAWM := sp.mDECAWM, mDECSCNM := sp.mDECSCNM } }
    moded.mapScreen fun screen => screenEnsureBounds { screen with cursor := sp.cursor } false false
  else
    let homed := setOriginMode (self.mapScreen fun screen => screenCursorPosition screen 1 1) false
    { homed with charsets := {}, modes := { homed.modes with mDECSCNM := false } }

/-! ### The modes -/

def LNM : Nat := 20
def IRM : Nat := 4
def DECCKM : Nat := 1 <<< 5
def DECCOLM : Nat := 3 <<< 5
def DECSCLM : Nat := 4 <<< 5
def DECSCNM : Nat := 5 <<< 5
def DECOM : Nat := 6 <<< 5
def DECAWM : Nat := 7 <<< 5
def DECARM : Nat := 8 <<< 5
def CONTROL_CURSOR_BLINK : Nat := 12 <<< 5
def DECTCEM : Nat := 25 <<< 5
def DECNRCM : Nat := 42 <<< 5
def MOUSE_BUTTON_TRACKING : Nat := 1000 <<< 5
def MOUSE_MOTION_TRACKING : Nat := 1002 <<< 5
def MOUSE_MOVE_TRACKING : Nat := 1003 <<< 5
def FOCUS_TRACKING : Nat := 1004 <<< 5
def MOUSE_UTF8_MODE : Nat := 1005 <<< 5
def MOUSE_SGR_MODE : Nat := 1006 <<< 5
def MOUSE_URXVT_MODE : Nat := 1015 <<< 5
def MOUSE_SGR_PIXEL_MODE : Nat := 1016 <<< 5
def BRACKETED_PASTE : Nat := 2004 <<< 5
def HANDLE_TERMIOS_SIGNALS : Nat := 19997 <<< 5

/-- The cases of `set_mode_from_const` that do no more than store a field of the modes; modes that
are not known change nothing. -/
def storeMode (modes : ScreenModes) (mode : Nat) (val : Bool) : ScreenModes :=
  if mode = LNM then { modes with mLNM := val }
  else if mode = IRM then { modes with mIRM := val }
  else if mode = DECARM then { modes with mDECARM := val }
  else if mode = BRACKETED_PASTE then { modes with mBRACKETED_PASTE := val }
  else if mode = FOCUS_TRACKING then { modes with mFOCUS_TRACKING := val }
  else if mode = HANDLE_TERMIOS_SIGNALS then { modes with mHANDLE_TERMIOS_SIGNALS := val }
  else if mode = MOUSE_BUTTON_TRACKING then
    { modes with mouseTrackingMode := if val then .buttonMode else .noTracking }
  else if mode = MOUSE_MOTION_TRACKING then
    { modes with mouseTrackingMode := if val then .motionMode else .noTracking }
  else if mode = MOUSE_MOVE_TRACKING then
    { modes with mouseTrackingMode := if val then .anyMode else .noTracking }
  else if mode = MOUSE_UTF8_MODE then
    { modes with mouseTrackingProtocol := if val then .utf8Protocol else .normalProtocol }
  else if mode = MOUSE_SGR_MODE then
    { modes with mouseTrackingProtocol := if val then .sgrProtocol else .normalProtocol }
  else if mode = MOUSE_SGR_PIXEL_MODE then
    { modes with mouseTrackingProtocol := if val then .sgrPixelProtocol else .normalProtocol }
  else if mode = MOUSE_URXVT_MODE then
    { modes with mouseTrackingProtocol := if val then .urxvtProtocol else .normalProtocol }
  else if mode = DECCKM then { modes with mDECCKM := val }
  else if mode = DECTCEM then { modes with mDECTCEM := val }
  else if mode = DECSCNM then { modes with mDECSCNM := val }
  else if mode = DECAWM then { modes with mDECAWM := val }
  else modes

/-- `screen_toggle_screen_buffer`. -/
def screenToggleScreenBuffer (self : ScreenState) (saveCursor clearAltScreen : Bool) :
    ScreenState :=
  let self := { self with activeHyperlinkId := 0 }
  if self.screen.onMain then
    let cleared :=
      if clearAltScreen then
        self.mapScreen fun screen =>
          { screen with altLinebuf := linebufClear screen.altLinebuf blankChar }
      else self
    let saved := if saveCursor then screenSaveCursor cleared else cleared
    { saved with tabstopsOnMain := false }.mapScreen fun screen =>
      let homed := screenCursorPosition { screen with onMain := false } 1 1
      { homed with cursor := cursorReset homed.cursor }
  else
    let back := { self with tabstopsOnMain := true }.mapScreen fun screen =>
      { screen with onMain := true }
    if saveCursor then screenRestoreCursor back else back

/-- The case `DECCOLM` of `set_mode_from_const`. -/
def setColumnMode (self : ScreenState) (val : Bool) : Option ScreenState :=
  let stored := { self with modes := { self.modes with mDECCOLM := val } }
  if val then
    stored.onScreen fun screen => do
      let erased ← screenEraseInDisplay screen 2 false
      some (screenCursorPosition erased 1 1)
  else some stored

/-- `set_mode_from_const`. -/
def ScreenState.setModeFromConst (self : ScreenState) (mode : Nat) (val : Bool) :
    Option ScreenState :=
  if mode = DECOM then some (setOriginMode self val)
  else if mode = DECCOLM then setColumnMode self val
  else if mode = CONTROL_CURSOR_BLINK then
    some (self.mapScreen fun screen =>
      { screen with cursor := { screen.cursor with nonBlinking := !val } })
  else if mode = ParseScreen.SAVE_CURSOR then some (screenSaveCursor self)
  else if mode = ParseScreen.TOGGLE_ALT_SCREEN_1 ∨ mode = ParseScreen.TOGGLE_ALT_SCREEN_2 ∨
      mode = ParseScreen.ALTERNATE_SCREEN then
    let alternate : Bool := mode = ParseScreen.ALTERNATE_SCREEN
    some (if val = self.screen.onMain then screenToggleScreenBuffer self alternate alternate
      else self)
  else some { self with modes := storeMode self.modes mode val }

/-- The cases of `copy_specific_mode` without a side effect.  The pixel mode of the mouse is not
among them. -/
def copySpecificMode (mode : Nat) (src dest : ScreenModes) : ScreenModes :=
  if mode = LNM then { dest with mLNM := src.mLNM }
  else if mode = IRM then { dest with mIRM := src.mIRM }
  else if mode = DECARM then { dest with mDECARM := src.mDECARM }
  else if mode = BRACKETED_PASTE then { dest with mBRACKETED_PASTE := src.mBRACKETED_PASTE }
  else if mode = FOCUS_TRACKING then { dest with mFOCUS_TRACKING := src.mFOCUS_TRACKING }
  else if mode = DECCKM then { dest with mDECCKM := src.mDECCKM }
  else if mode = DECTCEM then { dest with mDECTCEM := src.mDECTCEM }
  else if mode = DECAWM then { dest with mDECAWM := src.mDECAWM }
  else if mode = MOUSE_BUTTON_TRACKING ∨ mode = MOUSE_MOTION_TRACKING ∨
      mode = MOUSE_MOVE_TRACKING then
    { dest with mouseTrackingMode := src.mouseTrackingMode }
  else if mode = MOUSE_UTF8_MODE ∨ mode = MOUSE_SGR_MODE ∨ mode = MOUSE_URXVT_MODE then
    { dest with mouseTrackingProtocol := src.mouseTrackingProtocol }
  else if mode = DECSCNM then { dest with mDECSCNM := src.mDECSCNM }
  else if mode = DECCOLM then { dest with mDECCOLM := src.mDECCOLM }
  else dest

/-- `screen_save_mode`. -/
def screenSaveMode (self : ScreenState) (mode : Nat) : ScreenState :=
  if mode = DECOM then { self with savedDECOM := self.screen.mDECOM }
  else { self with savedModes := copySpecificMode mode self.modes self.savedModes }

/-- `screen_restore_mode`: setting these two modes does more than to store them. -/
def screenRestoreMode (self : ScreenState) (mode : Nat) : Option ScreenState :=
  if mode = DECOM then self.setModeFromConst DECOM self.savedDECOM
  else if mode = DECCOLM then self.setModeFromConst DECCOLM self.savedModes.mDECCOLM
  else some { self with modes := copySpecificMode mode self.savedModes self.modes }

/-- `copy_specific_modes`. -/
def copySpecificModes (src dest : ScreenModes) : ScreenModes :=
  [LNM, IRM, DECARM, BRACKETED_PASTE, FOCUS_TRACKING, DECCKM, DECTCEM, DECAWM,
    MOUSE_BUTTON_TRACKING, MOUSE_UTF8_MODE, DECSCNM].foldl
    (fun dest mode => copySpecificMode mode src dest) dest

/-- `screen_save_modes`. -/
def screenSaveModes (self : ScreenState) : ScreenState :=
  { self with savedModes := copySpecificModes self.modes self.savedModes }

/-- `screen_restore_modes`. -/
def screenRestoreModes (self : ScreenState) : ScreenState :=
  { self with modes := copySpecificModes self.savedModes self.modes }

/-- `screen_decsace`. -/
def screenDecsace (self : ScreenState) (val : Nat) : ScreenState :=
  { self with modes := { self.modes with mDECSACE := val = 2 } }

/-- `screen_set_8bit_controls`. -/
def screenSet8bitControls (self : ScreenState) (yes : Bool) : ScreenState :=
  { self with modes := { self.modes with eightBitControls := yes } }

/-! ### Reset and resize -/

/-- `historybuf_clear` with a pager history, and the rest of what `screen_reset` does to the
buffers. -/
def clearBuffers (self : Screen) : Screen :=
  screenClearScrollback (self.setLinebuf (linebufClear self.linebuf blankChar))

/-- `screen_reset`. -/
def screenReset (self : ScreenState) : ScreenState :=
  let self := if self.screen.onMain then self else screenToggleScreenBuffer self true true
  let cleared := clearBuffers self.screen
  { self with
    screen := screenCursorPosition
      { cleared with
        mDECOM := false
        marginTop := 0
        marginBottom := cleared.lines - 1
        cursor := cursorReset cleared.cursor } 1 1
    modes := {}
    savedModes := {}
    savedDECOM := false
    charsets := {}
    mainSavepoint := { self.mainSavepoint with isValid := false }
    altSavepoint := { self.altSavepoint with isValid := false }
    mainTabstops := initTabstops cleared.columns
    altTabstops := initTabstops cleared.columns
    activeHyperlinkId := 0
    lastGraphicChar := 0
    redrawsPromptsAtAll := false }

end Smelly
