/-
Module: Smelly.Core.ScreenCommand
Purpose: The calls the parser makes on a screen, and what they do to the fields of `Screen` that
  the parser itself reads: its own state, the decoder, the savepoints and the pending mode.
Trusted boundary: human-reviewed model of the parser-visible part of smelly/screen.c
-/
import Smelly.Core.Charsets

namespace Smelly

/-! ### The calls -/

/-- `GraphicsCommand`, apart from the payload; the fields that share storage have the name of the
key that sets them. -/
structure GraphicsCommand where
  action : UInt8 := 0
  transmissionType : UInt8 := 0
  compressed : UInt8 := 0
  deleteAction : UInt8 := 0
  format : Nat := 0
  more : Nat := 0
  id : Nat := 0
  imageNumber : Nat := 0
  dataSz : Nat := 0
  dataOffset : Nat := 0
  placementId : Nat := 0
  quiet : Nat := 0
  width : Nat := 0
  height : Nat := 0
  xOffset : Nat := 0
  yOffset : Nat := 0
  cursorMovement : Nat := 0
  cellXOffset : Nat := 0
  cellYOffset : Nat := 0
  dataWidth : Nat := 0
  dataHeight : Nat := 0
  numLines : Nat := 0
  numCells : Nat := 0
  zIndex : Int := 0
deriving DecidableEq, Repr, Inhabited

/-- `Region`. -/
structure Region where
  top : Nat := 0
  left : Nat := 0
  bottom : Nat := 0
  right : Nat := 0
deriving DecidableEq, Repr, Inhabited

/-- The text of an escape code as the parser hands it on. -/
abbrev Text := List UInt32

/-- A call of a screen function by the parser. -/
inductive Command where
  | draw (ch : UInt32)
  | bell
  | backspace
  | tab
  | nel
  | linefeed
  | carriageReturn
  | changeCharset (which : Nat)
  | index
  | reverseIndex
  | setTabStop
  | reset
  | saveCursor
  | restoreCursor
  | normalKeypadMode
  | alternateKeypadMode
  | useLatin1 (on : Bool)
  | align
  | designateCharset (which : Nat) (as_ : UInt32)
  | set8bitControls (yes : Bool)
  | setTitle (text : Text)
  | setIcon (text : Text)
  | setColorTableColor (code : Int) (text : Text)
  | processCwdNotification (code : Int) (text : Text)
  | setActiveHyperlink (id url : Option Text)
  | desktopNotify (code : Int) (text : Text)
  | setDynamicColor (code : Int) (text : Text)
  | clipboardControl (code : Int) (text : Text)
  | shellPromptMarking (text : Text)
  | fileTransmission (text : Text)
  | pushColors (idx : Nat)
  | popColors (idx : Nat)
  | reportColorStack
  | selectGraphicRendition (params : List Int) (region : Option Region)
  | insertCharacters (count : Nat)
  | repeatCharacter (count : Nat)
  | cursorUp2 (count : Nat)
  | cursorDown (count : Nat)
  | cursorForward (count : Nat)
  | cursorBack1 (count : Nat)
  | cursorDown1 (count : Nat)
  | cursorUp1 (count : Nat)
  | cursorToColumn (column : Nat)
  | cursorToLine (line : Nat)
  | backtab (count : Nat)
  | tabn (count : Nat)
  | cursorPosition (line column : Nat)
  | eraseInDisplay (how : Nat) (private_ : Bool)
  | eraseInLine (how : Nat) (private_ : Bool)
  | insertLines (count : Nat)
  | deleteLines (count : Nat)
  | deleteCharacters (count : Nat)
  | eraseCharacters (count : Nat)
  | reportDeviceAttributes (mode : Nat) (startModifier : UInt32)
  | clearTabStop (how : Nat)
  | setMode (mode : Nat)
  | resetMode (mode : Nat)
  | saveMode (mode : Nat)
  | restoreMode (mode : Nat)
  | saveModes
  | restoreModes
  | reportDeviceStatus (which : Nat) (private_ : Bool)
  | reportSize (which : Nat)
  | manipulateTitleStack (op which : Nat)
  | reportKeyEncodingFlags
  | setKeyEncodingFlags (val how : Nat)
  | pushKeyEncodingFlags (val : Nat)
  | popKeyEncodingFlags (num : Nat)
  | setMargins (top bottom : Nat)
  | decsace (val : Nat)
  | setCursor (mode : Nat) (secondary : UInt32)
  | xtversion (mode : Nat)
  | scroll (count : Nat)
  | reverseScroll (count : Nat)
  | reverseScrollAndFillFromScrollback (count : Nat)
  | reportModeStatus (which : Nat) (private_ : Bool)
  | requestCapabilities (c : UInt32) (text : Text)
  | startPendingMode
  | handleCmd (text : Text)
  | handleSmellyDcs (func : String) (text : Text)
  | handleGraphicsCommand (command : GraphicsCommand) (payload : Bytes)
deriving DecidableEq, Repr

/-! ### The fields of the screen that the parser reads -/

/-- `parser_state`: the source stores the introducing control character, or zero. -/
inductive ParserState where
  | normal
  | esc
  | csi
  | osc
  | dcs
  | apc
  | pm
deriving DecidableEq, Repr, Inhabited

/-- The value of `parser_state` in the source. -/
def ParserState.code : ParserState → UInt32
  | normal => 0
  | esc => 0x1b
  | csi => 0x9b
  | osc => 0x9d
  | dcs => 0x90
  | apc => 0x9f
  | pm => 0x9e

/-- `PARSER_BUF_SZ`. -/
def parserBufSz : Nat := 8 * 1024

/-- `READ_BUF_SZ`. -/
def readBufSz : Nat := 1024 * 1024

/-- `utf8_state`, `utf8_codepoint` and `use_latin1`; the default is `RESET_CHARSETS`. -/
structure Decoder where
  utf8State : Nat := utf8Accept
  utf8Codepoint : UInt32 := 0
  useLatin1 : Bool := false
deriving DecidableEq, Repr, Inhabited

/-- `pending_mode`; `buf` holds the `used` bytes.  `activated_at` is zero outside pending mode. -/
structure PendingMode where
  buf : Bytes := []
  activatedAt : Nat := 0
  waitTime : Nat := 2000000000
  stopEscapeCodeType : ParserState := .normal
deriving DecidableEq, Repr, Inhabited

/-- The parser and what it shares with the screen.  `parserBuf` holds the cells of `parser_buf`
written since the last `SET_STATE`; `dispatched` logs the calls made so far; `clock` holds what
`monotonic()` is going to answer. -/
structure ParseScreen where
  parserState : ParserState := .normal
  parserBuf : List UInt32 := []
  parserBufPos : Nat := 0
  decoder : Decoder := {}
  mainSavepoint : Option Decoder := none
  altSavepoint : Option Decoder := none
  onAlt : Bool := false
  pending : PendingMode := {}
  clock : List Nat := []
  dispatched : List Command := []
deriving DecidableEq, Repr, Inhabited

namespace ParseScreen

/-- `SET_STATE`. -/
def setState (s : ParseScreen) (state : ParserState) : ParseScreen :=
  { s with parserState := state, parserBuf := [], parserBufPos := 0 }

/-- `screen_use_latin1`. -/
def useLatin1 (s : ParseScreen) (on : Bool) : ParseScreen :=
  { s with decoder := { useLatin1 := on } }

/-- `screen_save_cursor`. -/
def saveCursor (s : ParseScreen) : ParseScreen :=
  if s.onAlt then { s with altSavepoint := some s.decoder }
  else { s with mainSavepoint := some s.decoder }

/-- `screen_restore_cursor`: without a valid savepoint the charsets are reset. -/
def restoreCursor (s : ParseScreen) : ParseScreen :=
  { s with decoder := ((if s.onAlt then s.altSavepoint else s.mainSavepoint).getD {}) }

/-- `screen_toggle_screen_buffer`. -/
def toggleScreenBuffer (s : ParseScreen) (saveCursor_ : Bool) : ParseScreen :=
  if s.onAlt then
    let s := { s with onAlt := false }
    if saveCursor_ then s.restoreCursor else s
  else
    let s := if saveCursor_ then s.saveCursor else s
    { s with onAlt := true }

/-- `screen_reset`. -/
def reset (s : ParseScreen) : ParseScreen :=
  let s := if s.onAlt then s.toggleScreenBuffer true else s
  { s with
    mainSavepoint := none
    altSavepoint := none
    decoder := {}
    parserState := .normal
    parserBufPos := 0 }

/-- The modes whose setting the parser can see. -/
def SAVE_CURSOR : Nat := 1048 <<< 5
def TOGGLE_ALT_SCREEN_1 : Nat := 47 <<< 5
def TOGGLE_ALT_SCREEN_2 : Nat := 1047 <<< 5
def ALTERNATE_SCREEN : Nat := 1049 <<< 5
def PENDING_UPDATE : Nat := 2026 <<< 5

/-- `pending_mode.activated_at = monotonic()`. -/
def activatePending (s : ParseScreen) : ParseScreen :=
  { s with pending := { s.pending with activatedAt := s.clock.headD 1 }, clock := s.clock.tail }

/-- `pending_mode.activated_at = 0`. -/
def deactivatePending (s : ParseScreen) : ParseScreen :=
  { s with pending := { s.pending with activatedAt := 0 } }

/-- `set_mode_from_const`. -/
def setModeFromConst (s : ParseScreen) (mode : Nat) (val : Bool) : ParseScreen :=
  if mode = SAVE_CURSOR then s.saveCursor
  else if mode = TOGGLE_ALT_SCREEN_1 ∨ mode = TOGGLE_ALT_SCREEN_2 ∨ mode = ALTERNATE_SCREEN then
    if val ≠ s.onAlt then s.toggleScreenBuffer (mode = ALTERNATE_SCREEN) else s
  else if mode = PENDING_UPDATE then if val then s.activatePending else s.deactivatePending
  else s

/-- What a call does to the fields the parser reads. -/
def perform (s : ParseScreen) : Command → ParseScreen
  | .useLatin1 on => s.useLatin1 on
  | .saveCursor => s.saveCursor
  | .restoreCursor => s.restoreCursor
  | .reset => s.reset
  | .setMode mode => s.setModeFromConst mode true
  | .resetMode mode => s.setModeFromConst mode false
  | .startPendingMode => s.activatePending
  | _ => s

/-- Make a call: log it and perform it. -/
def emit (s : ParseScreen) (command : Command) : ParseScreen :=
  perform { s with dispatched := s.dispatched ++ [command] } command

/-- Make several calls. -/
def emitAll (s : ParseScreen) (commands : List Command) : ParseScreen := commands.foldl emit s

end ParseScreen

end Smelly
