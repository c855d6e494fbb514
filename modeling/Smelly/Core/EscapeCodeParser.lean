/-
Module: Smelly.Core.EscapeCodeParser
Purpose: The escape code parser of the command line tools: bytes in, runes and escape codes out, with
  the handlers it calls.
Trusted boundary: human-reviewed model of tools/wcswidth/escape-code-parser.go; `DecodeUtf8` is the
  decoder of smelly/charsets.c, table for table.  A handler does not call the parser back
-/
import Smelly.Core.Charsets

namespace Smelly

namespace Wcswidth

/-- `parser_state`. -/
inductive ParserState where
  | normal
  | esc
  | csi
  | st
  | stOrBel
  | escSt
  | c1St
  | bracketedPaste
deriving DecidableEq, Repr

/-- `csi_state`. -/
inductive CsiState where
  | parameter
  | intermediate
deriving DecidableEq, Repr

/-- `csi_char_type`. -/
inductive CsiCharType where
  | unknownCsiChar
  | parameterCsiChar
  | intermediateCsiChar
  | finalCsiChar
deriving DecidableEq, Repr

/-- The kinds of escape codes that have a handler. -/
inductive CodeKind where
  | csi
  | osc
  | dcs
  | pm
  | sos
  | apc
deriving DecidableEq, Repr

/-- The callbacks, on a state of their own and with an error.  One that is not set is `none`. -/
structure Callbacks (σ ε : Type) where
  handleRune : Option (UInt32 → σ → σ × Option ε) := none
  handleEndOfBracketedPaste : Option (σ → σ) := none
  handleCSI : Option (Bytes → σ → σ × Option ε) := none
  handleOSC : Option (Bytes → σ → σ × Option ε) := none
  handleDCS : Option (Bytes → σ → σ × Option ε) := none
  handlePM : Option (Bytes → σ → σ × Option ε) := none
  handleSOS : Option (Bytes → σ → σ × Option ε) := none
  handleAPC : Option (Bytes → σ → σ × Option ε) := none

/-- `EscapeCodeParser`.  `current_callback` is the kind of the code whose handler it is. -/
structure EscapeCodeParser where
  state : ParserState := .normal
  utf8State : Nat := utf8Accept
  utf8Codep : UInt32 := 0
  csiState : CsiState := .parameter
  currentBuffer : Bytes := []
  bracketedPasteBuffer : List UInt32 := []
  currentCallback : Option CodeKind := none
  replaceInvalidUtf8Bytes : Bool := false
deriving DecidableEq, Repr

variable {σ ε : Type}

/-- The handler of a kind of escape code. -/
def Callbacks.handler (cb : Callbacks σ ε) : CodeKind → Option (Bytes → σ → σ × Option ε)
  | .csi => cb.handleCSI
  | .osc => cb.handleOSC
  | .dcs => cb.handleDCS
  | .pm => cb.handlePM
  | .sos => cb.handleSOS
  | .apc => cb.handleAPC

/-- `self.current_callback(self.current_buffer)`, where there is one. -/
def Callbacks.call (cb : Callbacks σ ε) (kind : CodeKind) (payload : Bytes) (s : σ) :
    σ × Option ε :=
  match cb.handler kind with
  | some handle => handle payload s
  | none => (s, none)

/-- `dispatch_rune`. -/
def Callbacks.dispatchRune (cb : Callbacks σ ε) (ch : UInt32) (s : σ) : σ × Option ε :=
  match cb.handleRune with
  | some handle => handle ch s
  | none => (s, none)

/-- `dispatch_rune` for one character after the other, up to an error. -/
def Callbacks.dispatchRunes (cb : Callbacks σ ε) : List UInt32 → σ → σ × Option ε
  | [], s => (s, none)
  | ch :: rest, s =>
    match cb.dispatchRune ch s with
    | (s, some err) => (s, some err)
    | (s, none) => cb.dispatchRunes rest s

/-- `bracketed_paste_start`: `200~`. -/
def bracketedPasteStart : Bytes := [0x32, 0x30, 0x30, 0x7e]

/-- `csi_type`. -/
def csiType (ch : UInt8) : CsiCharType :=
  if 0x30 ≤ ch ∧ ch ≤ 0x3f then .parameterCsiChar
  else if 0x40 ≤ ch ∧ ch ≤ 0x7e then .finalCsiChar
  else if 0x20 ≤ ch ∧ ch ≤ 0x2f then .intermediateCsiChar
  else .unknownCsiChar

/-- The bytes of the case after an ESC that does nothing. -/
def escCodes : Bytes :=
  "DEHMNOZ6789=>Fclmno|\x7d~".toList.map fun c => c.val.toUInt8

namespace EscapeCodeParser

/-- `reset_state`. -/
def resetState (self : EscapeCodeParser) : EscapeCodeParser :=
  { self with
    currentBuffer := []
    bracketedPasteBuffer := []
    state := .normal
    utf8State := utf8Accept
    utf8Codep := 0
    currentCallback := none
    csiState := .parameter }

/-- `write_ch`. -/
def writeCh (self : EscapeCodeParser) (ch : UInt8) : EscapeCodeParser :=
  { self with currentBuffer := self.currentBuffer ++ [ch] }

/-- `dispatch_esc_code`. -/
def dispatchEscCode (cb : Callbacks σ ε) (self : EscapeCodeParser) (s : σ) :
    EscapeCodeParser × σ × Option ε :=
  if self.state = .csi ∧ self.currentBuffer = bracketedPasteStart then
    ({ self.resetState with state := .bracketedPaste }, s, none)
  else
    let (s, err) :=
      match self.currentCallback with
      | some kind => cb.call kind self.currentBuffer s
      | none => (s, none)
    (self.resetState, s, err)

/-- The `dispatch` of `dispatch_char`: the characters held back, then this one. -/
def dispatchHeld (cb : Callbacks σ ε) (self : EscapeCodeParser) (ch : UInt32) (s : σ) :
    EscapeCodeParser × σ × Option ε :=
  match cb.dispatchRunes self.bracketedPasteBuffer s with
  | (s, some err) => (self, s, some err)
  | (s, none) =>
    let (s, err) := cb.dispatchRune ch s
    ({ self with bracketedPasteBuffer := [] }, s, err)

/-- The `handle_ch` of `dispatch_char`. -/
def handleCh (cb : Callbacks σ ε) (self : EscapeCodeParser) (ch : UInt32) (expected : List UInt32)
    (s : σ) : EscapeCodeParser × σ × Option ε :=
  if self.bracketedPasteBuffer = expected then
    if ch = 0x7e then
      match cb.handleEndOfBracketedPaste with
      | some handle => (self.resetState, handle s, none)
      | none => (self.resetState, s, none)
    else ({ self with bracketedPasteBuffer := self.bracketedPasteBuffer ++ [ch] }, s, none)
  else self.dispatchHeld cb ch s

/-- `dispatch_char`. -/
def dispatchChar (cb : Callbacks σ ε) (self : EscapeCodeParser) (ch : UInt32) (s : σ) :
    EscapeCodeParser × σ × Option ε :=
  if self.state = .bracketedPaste then
    if ch = 0x1b then self.handleCh cb ch [] s
    else if ch = 0x5b then self.handleCh cb ch [0x1b] s
    else if ch = 0x32 then self.handleCh cb ch [0x1b, 0x5b] s
    else if ch = 0x30 then self.handleCh cb ch [0x1b, 0x5b, 0x32] s
    else if ch = 0x31 then self.handleCh cb ch [0x1b, 0x5b, 0x32, 0x30] s
    else if ch = 0x7e then self.handleCh cb ch [0x1b, 0x5b, 0x32, 0x30, 0x31] s
    else self.dispatchHeld cb ch s
  else if ch = 0x1b then ({ self with state := .esc }, s, none)
  else if ch = 0x90 then ({ self with state := .st, currentCallback := some .dcs }, s, none)
  else if ch = 0x9b then ({ self with state := .csi, currentCallback := some .csi }, s, none)
  else if ch = 0x9d then ({ self with state := .stOrBel, currentCallback := some .osc }, s, none)
  else if ch = 0x98 then ({ self with state := .st, currentCallback := some .sos }, s, none)
  else if ch = 0x9e then ({ self with state := .st, currentCallback := some .pm }, s, none)
  else if ch = 0x9f then ({ self with state := .st, currentCallback := some .apc }, s, none)
  else
    let (s, err) := cb.dispatchRune ch s
    (self, s, err)

/-- `ParseByte` in the states `normal` and `bracketed_paste`, for a byte that is not parsed once
more. -/
def parseCharByte (cb : Callbacks σ ε) (self : EscapeCodeParser) (b : UInt8) (s : σ) :
    EscapeCodeParser × σ × Option ε :=
  let (state, codep) := decodeUtf8 self.utf8State self.utf8Codep b
  let self := { self with utf8State := state, utf8Codep := codep }
  if state = utf8Accept then
    match self.dispatchChar cb codep s with
    | (self, s, some err) => (self.resetState, s, some err)
    | (self, s, none) => (self, s, none)
  else if state = utf8Reject then
    let self := { self with utf8State := utf8Accept }
    if self.replaceInvalidUtf8Bytes then self.dispatchChar cb 0xfffd s
    else (self, s, none)
  else (self, s, none)

/-- `ParseByte` in the states `normal` and `bracketed_paste`.  A byte that ends a character too early
is parsed once more, now as the first of a character. -/
def parseChar (cb : Callbacks σ ε) (self : EscapeCodeParser) (b : UInt8) (s : σ) :
    EscapeCodeParser × σ × Option ε :=
  let (state, codep) := decodeUtf8 self.utf8State self.utf8Codep b
  if state = utf8Reject ∧ self.utf8State ≠ utf8Accept then
    { self with utf8State := utf8Accept, utf8Codep := codep }.parseCharByte cb b s
  else self.parseCharByte cb b s

/-- The state `esc` of `dispatch_byte`. -/
def dispatchByteEsc (cb : Callbacks σ ε) (self : EscapeCodeParser) (ch : UInt8) (s : σ) :
    EscapeCodeParser × σ × Option ε :=
  if ch = 0x50 then ({ self with state := .st, currentCallback := some .dcs }, s, none)
  else if ch = 0x5b then
    ({ self with state := .csi, csiState := .parameter, currentCallback := some .csi }, s, none)
  else if ch = 0x5d then ({ self with state := .stOrBel, currentCallback := some .osc }, s, none)
  else if ch = 0x5e then ({ self with state := .st, currentCallback := some .pm }, s, none)
  else if ch = 0x5f then ({ self with state := .st, currentCallback := some .apc }, s, none)
  else if ch ∈ escCodes then (self, s, none)
  else self.resetState.parseChar cb ch s

/-- The state `csi` of `dispatch_byte`. -/
def dispatchByteCsi (cb : Callbacks σ ε) (self : EscapeCodeParser) (ch : UInt8) (s : σ) :
    EscapeCodeParser × σ × Option ε :=
  let self := self.writeCh ch
  match self.csiState, csiType ch with
  | .parameter, .intermediateCsiChar => ({ self with csiState := .intermediate }, s, none)
  | .parameter, .parameterCsiChar => (self, s, none)
  | .intermediate, .intermediateCsiChar => (self, s, none)
  | .intermediate, .parameterCsiChar => (self.resetState, s, none)
  | _, .finalCsiChar => self.dispatchEscCode cb s
  | _, .unknownCsiChar => (self.resetState, s, none)

/-- The state `st` of `dispatch_byte`, and `st_or_bel` for the other bytes than BEL. -/
def dispatchByteSt (self : EscapeCodeParser) (ch : UInt8) : EscapeCodeParser :=
  if ch = 0x1b then { self with state := .escSt }
  else if ch = 0xc2 then { self with state := .c1St }
  else self.writeCh ch

/-- `dispatch_byte`; in the two states of `ParseByte` nothing happens. -/
def dispatchByte (cb : Callbacks σ ε) (self : EscapeCodeParser) (ch : UInt8) (s : σ) :
    EscapeCodeParser × σ × Option ε :=
  match self.state with
  | .normal | .bracketedPaste => (self, s, none)
  | .esc => self.dispatchByteEsc cb ch s
  | .csi => self.dispatchByteCsi cb ch s
  | .stOrBel =>
    if ch = 0x07 then self.dispatchEscCode cb s else (self.dispatchByteSt ch, s, none)
  | .st => (self.dispatchByteSt ch, s, none)
  | .escSt =>
    if ch = 0x5c then self.dispatchEscCode cb s
    else
      let self := { self with state := .st }.writeCh 0x1b
      (if ch ≠ 0x1b then self.writeCh ch else self, s, none)
  | .c1St =>
    if ch = 0x9c then self.dispatchEscCode cb s
    else (({ self with state := .st }.writeCh 0xc2).writeCh ch, s, none)

/-- `ParseByte`. -/
def parseByte (cb : Callbacks σ ε) (self : EscapeCodeParser) (b : UInt8) (s : σ) :
    EscapeCodeParser × σ × Option ε :=
  if self.state = .normal ∨ self.state = .bracketedPaste then self.parseChar cb b s
  else
    match self.dispatchByte cb b s with
    | (self, s, some err) => (self.resetState, s, some err)
    | (self, s, none) => (self, s, none)

/-- `Parse`. -/
def parse (cb : Callbacks σ ε) (self : EscapeCodeParser) :
    Bytes → σ → EscapeCodeParser × σ × Option ε
  | [], s => (self, s, none)
  | b :: data, s =>
    match self.parseByte cb b s with
    | (self, s, some err) => (self, s, some err)
    | (self, s, none) => self.parse cb data s

/-- `Parse` for one piece of data after the other, up to an error. -/
def parseChunks (cb : Callbacks σ ε) (self : EscapeCodeParser) :
    List Bytes → σ → EscapeCodeParser × σ × Option ε
  | [], s => (self, s, none)
  | data :: chunks, s =>
    match self.parse cb data s with
    | (self, s, some err) => (self, s, some err)
    | (self, s, none) => self.parseChunks cb chunks s

end EscapeCodeParser

end Wcswidth

end Smelly
