/-
Module: Smelly.Core.ParserDispatch
Purpose: The dispatchers of `parser.c` for control characters, escape, OSC, DCS, APC, PM and CSI
  sequences.  A read of a cell of `parser_buf` that was not written is `none`.
Trusted boundary: human-reviewed model of smelly/parser.c and smelly/parse-graphics-command.h;
  messages for the log are left out
-/
import Smelly.Core.ScreenCommand
import Mathlib.Algebra.Ring.Int.Defs
import Mathlib.Algebra.Ring.Nat

namespace Smelly

/-! ### Control characters -/

namespace Ctl

abbrev NUL : UInt32 := 0
abbrev BEL : UInt32 := 0x07
abbrev BS : UInt32 := 0x08
abbrev HT : UInt32 := 0x09
abbrev LF : UInt32 := 10
abbrev VT : UInt32 := 0x0b
abbrev FF : UInt32 := 0x0c
abbrev CR : UInt32 := 13
abbrev SO : UInt32 := 0x0e
abbrev SI : UInt32 := 0x0f
abbrev ESC : UInt32 := 0x1b
abbrev DEL : UInt32 := 0x7f
abbrev IND : UInt32 := 0x84
abbrev NEL : UInt32 := 0x85
abbrev HTS : UInt32 := 0x88
abbrev RI : UInt32 := 0x8d
abbrev DCS : UInt32 := 0x90
abbrev CSI : UInt32 := 0x9b
abbrev ST : UInt32 := 0x9c
abbrev OSC : UInt32 := 0x9d
abbrev PM : UInt32 := 0x9e
abbrev APC : UInt32 := 0x9f

end Ctl

/-- The code point of an ASCII character. -/
abbrev ord (c : Char) : UInt32 := c.val

/-- `IS_DIGIT`. -/
def isDigit (ch : UInt32) : Bool := 48 ≤ ch ∧ ch ≤ 57

/-! ### Numbers -/

/-- The digits of a number, most significant first; a character below `0` wraps around. -/
def decimal (digits : List UInt32) : Nat :=
  digits.foldl (fun ans ch => ans * 10 + (ch - 48).toNat) 0

/-- `utoi`: numbers of more than ten digits are zero. -/
def utoi (buf : List UInt32) : Int :=
  let negative := buf.head? = some (ord '-')
  let digits := (if negative then buf.tail else buf).dropWhile (· = ord '0')
  let ans : Int := if digits.length < 11 then decimal digits else 0
  if negative then -ans else ans

/-- The assignment of an `int64_t` to an `int`. -/
def toInt (n : Int) : Int := n.bmod (2 ^ 32)

/-- The conversion to `unsigned int`. -/
def toUnsigned (n : Int) : Nat := (n.emod (2 ^ 32)).toNat

/-! ### Reading the parser buffer -/

namespace ParseScreen

/-- `parser_buf[i]`. -/
def read (s : ParseScreen) (i : Nat) : Option UInt32 := s.parserBuf[i]?

/-- The cells `parser_buf[lo .. parser_buf_pos)`. -/
def readFrom (s : ParseScreen) (lo : Nat) : Option (List UInt32) :=
  if lo ≤ s.parserBufPos ∧ s.parserBufPos ≤ s.parserBuf.length then
    some ((s.parserBuf.take s.parserBufPos).drop lo)
  else none

/-- `parser_buf[i] = ch`. -/
def write (s : ParseScreen) (i : Nat) (ch : UInt32) : Option ParseScreen :=
  if i < parserBufSz ∧ i ≤ s.parserBuf.length then
    some { s with parserBuf := s.parserBuf.take i ++ ch :: s.parserBuf.drop (i + 1) }
  else none

/-- `parser_buf[parser_buf_pos++] = ch`. -/
def push (s : ParseScreen) (ch : UInt32) : Option ParseScreen := do
  let s ← s.write s.parserBufPos ch
  some { s with parserBufPos := s.parserBufPos + 1 }

end ParseScreen

/-! ### Normal mode -/

/-- The state a control character that starts an escape code leads to. -/
def ParserState.ofControl (ch : UInt32) : Option ParserState :=
  if ch = Ctl.ESC then some .esc
  else if ch = Ctl.CSI then some .csi
  else if ch = Ctl.OSC then some .osc
  else if ch = Ctl.DCS then some .dcs
  else if ch = Ctl.APC then some .apc
  else if ch = Ctl.PM then some .pm
  else none

/-- The call a character of normal mode that starts no escape code stands for. -/
def normalModeCommand (ch : UInt32) : Option Command :=
  if ch = Ctl.BEL then some .bell
  else if ch = Ctl.BS then some .backspace
  else if ch = Ctl.HT then some .tab
  else if ch = Ctl.NEL then some .nel
  else if ch = Ctl.LF ∨ ch = Ctl.VT ∨ ch = Ctl.FF then some .linefeed
  else if ch = Ctl.CR then some .carriageReturn
  else if ch = Ctl.SI then some (.changeCharset 0)
  else if ch = Ctl.SO then some (.changeCharset 1)
  else if ch = Ctl.IND then some .index
  else if ch = Ctl.RI then some .reverseIndex
  else if ch = Ctl.HTS then some .setTabStop
  else if ch = Ctl.NUL ∨ ch = Ctl.DEL then none
  else some (.draw ch)

/-- `dispatch_normal_mode_char`. -/
def dispatchNormalModeChar (s : ParseScreen) (ch : UInt32) : ParseScreen :=
  match ParserState.ofControl ch with
  | some state => s.setState state
  | none => s.emitAll (normalModeCommand ch).toList

/-! ### Escape mode -/

/-- The state a character after ESC leads to. -/
def ParserState.ofEscape (ch : UInt32) : Option ParserState :=
  if ch = ord 'P' then some .dcs
  else if ch = ord ']' then some .osc
  else if ch = ord '[' then some .csi
  else if ch = ord '_' then some .apc
  else if ch = ord '^' then some .pm
  else none

/-- The call an escape code of one character stands for. -/
def escModeCommand (ch : UInt32) : Option Command :=
  if ch = ord 'c' then some .reset
  else if ch = ord 'D' then some .index
  else if ch = ord 'E' then some .nel
  else if ch = ord 'M' then some .reverseIndex
  else if ch = ord 'H' then some .setTabStop
  else if ch = ord '7' then some .saveCursor
  else if ch = ord '8' then some .restoreCursor
  else if ch = ord '>' then some .normalKeypadMode
  else if ch = ord '=' then some .alternateKeypadMode
  else none

/-- The characters after ESC that take one more character. -/
def isEscIntermediate (ch : UInt32) : Bool := ch ∈ chars "%()*+-./ #"

/-- The call an escape code of two characters stands for. -/
def escModeCommand2 (first ch : UInt32) : Option Command :=
  if first = ord '%' then
    if ch = ord '@' then some (.useLatin1 true)
    else if ch = ord 'G' then some (.useLatin1 false)
    else none
  else if first = ord '#' then if ch = ord '8' then some .align else none
  else if first = ord '(' ∨ first = ord ')' then
    if ch ∈ chars "AB0UV" then some (.designateCharset (first - ord '(').toNat ch) else none
  else if first = ord ' ' then
    if ch ∈ chars "FG" then some (.set8bitControls (ch = ord 'G')) else none
  else none

/-- `dispatch_esc_mode_char`. -/
def dispatchEscModeChar (s : ParseScreen) (ch : UInt32) : Option ParseScreen :=
  if s.parserBufPos = 0 then
    match ParserState.ofEscape ch with
    | some state => some (s.setState state)
    | none =>
      if isEscIntermediate ch then s.push ch
      else some ((s.emitAll (escModeCommand ch).toList).setState .normal)
  else do
    let first ← s.read 0
    some ((s.emitAll (escModeCommand2 first ch).toList).setState .normal)

/-! ### OSC -/

/-- Split at a character and drop empty parts, as `strtok_r` does. -/
def tokens (separator : UInt32) (text : Text) : List Text :=
  (text.splitOn separator).filter (· ≠ [])

/-- `parse_osc_8`: the id and the URL, or nothing without a semi-colon. -/
def parseOsc8 (text : Text) : Option (Option Text × Option Text) :=
  if ord ';' ∈ text then
    let params := text.takeWhile (· ≠ ord ';')
    let url := text.drop (params.length + 1)
    let token := (tokens (ord ':') params).find? fun token =>
      token.length > 3 ∧ token.take 3 = chars "id="
    some (token.map (·.drop 3), if url = [] then none else some url)
  else none

/-- The bytes `dispatch_hyperlink` copies: anything but printable ASCII becomes an underscore. -/
def printableAscii (ch : UInt32) : UInt32 :=
  let low := ch &&& 0x7f
  if low < 32 ∨ 126 < low then ord '_' else low

/-- `dispatch_hyperlink`. -/
def dispatchHyperlink (text : Text) : List Command :=
  if text = [] then []
  else match parseOsc8 (text.map printableAscii) with
    | some (id, url) => [.setActiveHyperlink id url]
    | none => []

/-- `EXTENDED_OSC_SENTINEL`. -/
abbrev extendedOscSentinel : UInt32 := 0x1b

/-- `FILE_TRANSFER_CODE`. -/
def fileTransferCode : Int := 5113

/-- The call `dispatch_osc` makes for a code and the text behind it. -/
def oscCommands (code : Int) (text : Text) : List Command :=
  if code = 0 then [.setTitle text, .setIcon text]
  else if code = 1 then [.setIcon text]
  else if code = 2 then [.setTitle text]
  else if code ∈ [4, 104] then [.setColorTableColor code text]
  else if code ∈ [6, 7] then [.processCwdNotification code text]
  else if code = 8 then dispatchHyperlink text
  else if code ∈ [9, 99, 777] then [.desktopNotify code text]
  else if code ∈ [10, 11, 12, 17, 19, 110, 111, 112, 117, 119] then [.setDynamicColor code text]
  else if code ∈ [52, -52, 5522] then [.clipboardControl code text]
  else if code = 133 then [.shellPromptMarking text]
  else if code = fileTransferCode then [.fileTransmission text]
  else if code = 30001 then [.pushColors 0]
  else if code = 30101 then [.popColors 0]
  else []

/-- `is_extended_osc`. -/
def isExtendedOsc (payload : Text) : Bool :=
  2 < payload.length ∧ payload.take 3 = [extendedOscSentinel, 1, ord ';']

/-- The code of an OSC sequence and the text behind it. -/
def oscParts (payload : Text) : Int × Text :=
  let digits := (payload.take 5).takeWhile isDigit
  if 0 < digits.length then
    let rest := payload.drop digits.length
    (toInt (utoi digits), if rest.head? = some (ord ';') then rest.tail else rest)
  else if isExtendedOsc payload then (-52, payload.drop 3)
  else (0, payload)

/-- `continue_osc_52`. -/
def continueOsc52 (s : ParseScreen) : Option ParseScreen := do
  let s ← s.write 0 (ord '5')
  let s ← s.write 1 (ord '2')
  let s ← s.write 2 (ord ';')
  let s ← s.write 3 (ord ';')
  some { s with parserBufPos := 4 }

/-- `dispatch_osc`. -/
def dispatchOsc (s : ParseScreen) : Option ParseScreen := do
  let payload ← s.readFrom 0
  let (code, text) := oscParts payload
  let s := s.emitAll (oscCommands code text)
  if code = -52 then continueOsc52 s else some s

/-! ### DCS -/

/-- `startswith` on the cells from `lo` on; the comparison stops at the first mismatch. -/
def startsWith (s : ParseScreen) (lo : Nat) (sz : Int) (pfx : Text) : Option Bool :=
  if sz < pfx.length then some false else compare lo pfx
where
  compare (lo : Nat) : Text → Option Bool
    | [] => some true
    | ch :: rest => do
        let cell ← s.read lo
        if cell ≠ ch then some false else compare (lo + 1) rest

/-- The prefixes `dispatch_dcs` passes to `screen_handle_smelly_dcs`. -/
def simplePrefixes : List (String × String) :=
  [("overlay-ready|", "handle_overlay_ready"), ("kitten-result|", "handle_kitten_result"),
    ("print|", "handle_remote_print"), ("echo|", "handle_remote_echo"),
    ("ssh|", "handle_remote_ssh"), ("ask|", "handle_remote_askpass"),
    ("clone|", "handle_remote_clone"), ("edit|", "handle_remote_edit")]

/-- The chain of `IF_SIMPLE_PREFIX` tests.  `sizeof` counts the terminating zero. -/
def simplePrefixCommand (s : ParseScreen) : List (String × String) → Option (List Command)
  | [] => some []
  | (pfx, func) :: rest => do
      if ← startsWith s 7 ((s.parserBufPos : Int) - 1) (chars pfx) then
        let msg ← s.readFrom (7 + (pfx.length + 1))
        some [.handleSmellyDcs func msg]
      else simplePrefixCommand s rest

/-- The call `dispatch_dcs` makes. -/
def dcsCommands (s : ParseScreen) : Option (List Command) := do
  if s.parserBufPos < 2 then return []
  let first ← s.read 0
  let second ← s.read 1
  if first = ord '+' ∨ first = ord '$' then
    if second = ord 'q' then
      let text ← s.readFrom 2
      return [.requestCapabilities first text]
    else return []
  else if first = ord '=' then
    if 2 < s.parserBufPos ∧ (second = ord '1' ∨ second = ord '2') then
      let third ← s.read 2
      -- a stop code outside of pending mode is only reported
      return if third = ord 's' ∧ second = ord '1' then [.startPendingMode] else []
    else return []
  else if first = ord '@' then
    if ← startsWith s 1 ((s.parserBufPos : Int) - 2) (chars "smelly-") then
      if ← startsWith s 7 ((s.parserBufPos : Int) - 2) (chars "cmd\x7b") then
        let cmd ← s.readFrom 10
        return [.handleCmd cmd]
      else simplePrefixCommand s simplePrefixes
    else return []
  else return []

/-- `dispatch_dcs`. -/
def dispatchDcs (s : ParseScreen) : Option ParseScreen := do
  let commands ← dcsCommands s
  some (s.emitAll commands)

/-! ### APC -/

/-- The states of `parse_graphics_code` before the payload. -/
inductive GraphicsState where
  | key
  | equal
  | uint
  | int
  | flag
  | afterValue
  | payload
deriving DecidableEq, Repr

/-- The kind of value a key takes; `none` for an unknown key. -/
def graphicsValueState (key : UInt32) : Option GraphicsState :=
  if key ∈ chars "adto" then some .flag
  else if key ∈ chars "fmiIpqwhxyvsSOcrXYC" then some .uint
  else if key = ord 'z' then some .int
  else none

/-- `case FLAG`: the low byte of the value if the key admits it. -/
def setGraphicsFlag (g : GraphicsCommand) (key ch : UInt32) : Option GraphicsCommand :=
  let value := ch &&& 0xff
  if key = ord 'a' then
    if value ∈ chars "Tacdfpqt" then some { g with action := value.toUInt8 } else none
  else if key = ord 'd' then
    if value ∈ chars "ACFINPQXYZacfinpqxyz" then some { g with deleteAction := value.toUInt8 }
    else none
  else if key = ord 't' then
    if value ∈ chars "dfst" then some { g with transmissionType := value.toUInt8 } else none
  else if key = ord 'o' then
    if value = ord 'z' then some { g with compressed := value.toUInt8 } else none
  else some g

/-- `case UINT`. -/
def setGraphicsUint (g : GraphicsCommand) (key : UInt32) (value : Nat) : GraphicsCommand :=
  if key = ord 'f' then { g with format := value }
  else if key = ord 'm' then { g with more := value }
  else if key = ord 'i' then { g with id := value }
  else if key = ord 'I' then { g with imageNumber := value }
  else if key = ord 'p' then { g with placementId := value }
  else if key = ord 'q' then { g with quiet := value }
  else if key = ord 'w' then { g with width := value }
  else if key = ord 'h' then { g with height := value }
  else if key = ord 'x' then { g with xOffset := value }
  else if key = ord 'y' then { g with yOffset := value }
  else if key = ord 'v' then { g with dataHeight := value }
  else if key = ord 's' then { g with dataWidth := value }
  else if key = ord 'S' then { g with dataSz := value }
  else if key = ord 'O' then { g with dataOffset := value }
  else if key = ord 'c' then { g with numCells := value }
  else if key = ord 'r' then { g with numLines := value }
  else if key = ord 'X' then { g with cellXOffset := value }
  else if key = ord 'Y' then { g with cellYOffset := value }
  else if key = ord 'C' then { g with cursorMovement := value }
  else g

/-- `READ_UINT`: at most ten digits, whose value must fit in 32 bits. -/
def readGraphicsUint (rest : List UInt32) : Option (Nat × List UInt32) :=
  let digits := (rest.take 10).takeWhile isDigit
  if digits = [] then none
  else
    let lcode := (utoi digits).toNat
    if lcode < 2 ^ 32 then some (lcode, rest.drop digits.length) else none

/-- The loop of `parse_graphics_code` over the cells that are left.  Every round takes at least
one cell, so `fuel` is their number at the start. -/
def graphicsLoop (fuel : Nat) (g : GraphicsCommand) (payload : Bytes) (state : GraphicsState)
    (key : UInt32) (valueState : GraphicsState) (rest : List UInt32) :
    Option (GraphicsCommand × Bytes × GraphicsState) :=
  match fuel, rest with
  | 0, _ => some (g, payload, state)
  | _, [] => some (g, payload, state)
  | fuel + 1, ch :: tail =>
    match state with
    | .key => do
        let valueState ← graphicsValueState ch
        graphicsLoop fuel g payload .equal ch valueState tail
    | .equal =>
      if ch ≠ ord '=' then none else graphicsLoop fuel g payload valueState key valueState tail
    | .flag => do
        let g ← setGraphicsFlag g key ch
        graphicsLoop fuel g payload .afterValue key valueState tail
    | .int => do
        let negative := ch = ord '-'
        let (value, rest) ← readGraphicsUint (if negative then tail else ch :: tail)
        let z := toInt (if negative then -(toInt value) else value)
        let g := if key = ord 'z' then { g with zIndex := z } else g
        graphicsLoop fuel g payload .afterValue key valueState rest
    | .uint => do
        let (value, rest) ← readGraphicsUint (ch :: tail)
        graphicsLoop fuel (setGraphicsUint g key value) payload .afterValue key valueState rest
    | .afterValue =>
      if ch = ord ',' then graphicsLoop fuel g payload .key key valueState tail
      else if ch = ord ';' then graphicsLoop fuel g payload .payload key valueState tail
      else none
    | .payload =>
      match base64Decode (ch :: tail) 4096 with
      | .ok bytes => some (g, bytes, .payload)
      | .error _ => none

/-- `parse_graphics_code` on the cells behind the `G`; malformed codes make no call. -/
def parseGraphicsCode (cells : List UInt32) : List Command :=
  let state : GraphicsState := if cells.head? = some (ord ';') then .afterValue else .key
  match graphicsLoop cells.length {} [] state (ord 'a') .flag cells with
  | none => []
  | some (g, payload, state) =>
    match state with
    | .equal | .int | .uint | .flag => []
    | _ => [.handleGraphicsCommand g payload]

/-- `dispatch_apc`. -/
def dispatchApc (s : ParseScreen) : Option ParseScreen := do
  if s.parserBufPos < 2 then return s
  let first ← s.read 0
  if first = ord 'G' then
    let cells ← s.readFrom 1
    return s.emitAll (parseGraphicsCode cells)
  else return s

/-- `dispatch_pm`, which only reports an error. -/
def dispatchPm (s : ParseScreen) : Option ParseScreen := do
  if s.parserBufPos < 2 then return s
  let _ ← s.read 0
  return s

/-! ### CSI -/

/-- `MAX_PARAMS`. -/
def maxParams : Nat := 256

/-- `CSI_SECONDARY`. -/
def isCsiSecondary (ch : UInt32) : Bool := ch ∈ chars " !\"#$%&'()*+,-./"

inductive SgrState where
  | start
  | normal
  | multiple
  | color
  | color1
  | color3
deriving DecidableEq, Repr

/-- The variables of `parse_sgr`: the state, the parameters read, the cells since `num_start`, and
the calls made so far. -/
structure SgrParser where
  state : SgrState := .start
  params : List Int := []
  number : List UInt32 := []
  commands : List Command := []
deriving DecidableEq, Repr

namespace SgrParser

/-- `READ_PARAM`. -/
def readParam (p : SgrParser) : SgrParser := { p with params := p.params ++ [toInt (utoi p.number)] }

/-- `SEND_SGR`. -/
def send (region : Option Region) (p : SgrParser) : SgrParser :=
  { p with
    commands := p.commands ++ [.selectGraphicRendition p.params region]
    state := .start
    params := [] }

/-- Read a parameter and go on with the next number. -/
def next (p : SgrParser) (state : SgrState) : SgrParser :=
  { p.readParam with state := state, number := [] }

end SgrParser

/-- One round of the loop of `parse_sgr`; the second component is set when it returns early. -/
def sgrStep (region : Option Region) (p : SgrParser) (ch : UInt32) : SgrParser × Bool :=
  if isDigit ch then
    match p.state with
    | .start => ({ p with state := .normal, params := [], number := [ch] }, false)
    | _ => ({ p with number := p.number ++ [ch] }, false)
  else if ch = ord ';' then
    match p.state with
    | .start => (({ p with params := p.params ++ [0] }).send region, false)
    | .normal =>
      let read := p.readParam
      if read.params.head? ∈ [some 38, some 48, some 58] then
        ({ read with state := .color, number := [] }, false)
      else (read.send region, false)
    | .multiple => (p.readParam.send region, false)
    | .color =>
      let read := p.readParam
      if read.params[1]? = some 2 then ({ read with state := .color3, number := [] }, false)
      else if read.params[1]? = some 5 then ({ read with state := .color1, number := [] }, false)
      else (read, true)
    | .color1 => (p.readParam.send region, false)
    | .color3 =>
      let read := p.readParam
      if read.params.length = 5 then (read.send region, false)
      else ({ read with number := [] }, false)
  else if ch = ord ':' then
    match p.state with
    | .start => (p, true)
    | .normal | .multiple => (p.next .multiple, false)
    | _ => (p, true)
  else (p, true)

/-- The loop of `parse_sgr`; `none` when it returns early. -/
def sgrLoop (region : Option Region) (p : SgrParser) : List UInt32 → SgrParser × Bool
  | [] => (p, false)
  | ch :: rest =>
    if p.params.length < maxParams then
      match sgrStep region p ch with
      | (p, true) => (p, true)
      | (p, false) => sgrLoop region p rest
    else (p, false)

/-- The code after the loop of `parse_sgr`. -/
def sgrFinish (region : Option Region) (p : SgrParser) : SgrParser :=
  let read := if p.number ≠ [] ∧ p.params.length < maxParams then p.readParam else p
  match p.state with
  | .start =>
    (if p.params.length < maxParams then { p with params := p.params ++ [0] } else p).send region
  | .color1 | .normal | .multiple => if read.params ≠ [] then read.send region else read
  | .color => p
  | .color3 => if read.params.length = 5 then read.send region else read

/-- `parse_sgr`. -/
def parseSgr (buf : List UInt32) (region : Option Region) : List Command :=
  match sgrLoop region {} buf with
  | (p, true) => p.commands
  | (p, false) => (sgrFinish region p).commands

/-- `REPORT_ERROR` behind the loop of `parse_sgr`. -/
def sgrFinishReports (p : SgrParser) : Bool :=
  let read := if p.number ≠ [] ∧ p.params.length < maxParams then p.readParam else p
  match p.state with
  | .start => false
  | .color1 | .normal | .multiple => read.params = []
  | .color => true
  | .color3 => read.params.length ≠ 5

/-- Whether `parse_sgr` calls `REPORT_ERROR`, as it does wherever its loop returns early. -/
def parseSgrReports (buf : List UInt32) (region : Option Region) : Bool :=
  match sgrLoop region {} buf with
  | (_, true) => true
  | (p, false) => sgrFinishReports p

/-- The loop of `parse_region`: at most four numbers, and the cells left over. -/
def regionLoop (params : List Int) (number : List UInt32) : List UInt32 → List Int × List UInt32
  | [] => (params, [])
  | ch :: rest =>
    if params.length < 4 then
      if isDigit ch then regionLoop params (number ++ [ch]) rest
      else if number ≠ [] then regionLoop (params ++ [toInt (utoi number)]) [] rest
      else if ch = ord ';' then regionLoop (params ++ [0]) [] rest
      else regionLoop params [] rest
    else (params, ch :: rest)

/-- `parse_region`: the region, and the cells it has not consumed. -/
def parseRegion (buf : List UInt32) : Region × List UInt32 :=
  let (params, rest) := regionLoop [] [] buf
  let param (i : Nat) : Nat := toUnsigned (params.getD i 0)
  ({ top := param 0, left := param 1, bottom := param 2, right := param 3 }, rest)

/-- The parameter loop of `dispatch_csi`; `none` when it returns early. -/
def csiParamsLoop (params : List Int) (number : List UInt32) : List UInt32 → Option (List Int)
  | [] => some (if number ≠ [] then params ++ [toInt (utoi number)] else params)
  | ch :: rest =>
    if isDigit ch then csiParamsLoop params (number ++ [ch]) rest
    else if ch = ord '-' then
      if number ≠ [] then none else csiParamsLoop params (number ++ [ch]) rest
    else
      let params :=
        if number ≠ [] then params ++ [toInt (utoi number)]
        else if ch = ord ';' then params ++ [0]
        else params
      if maxParams ≤ params.length then some params else csiParamsLoop params [] rest

/-- `CALL_CSI_HANDLER1` and its variants. -/
def csiHandler1 (params : List Int) (defval : Int) (handler : Nat → Command) : List Command :=
  let p1 := params.head?.getD defval
  if 1 < params.length ∨ p1 < 0 then [] else [handler p1.toNat]

/-- `CALL_CSI_HANDLER2`. -/
def csiHandler2 (params : List Int) (defval1 defval2 : Int) (handler : Nat → Nat → Command) :
    List Command :=
  let p1 := params.head?.getD defval1
  let p2 := params[1]?.getD defval2
  if 2 < params.length ∨ p1 < 0 ∨ p2 < 0 then [] else [handler p1.toNat p2.toNat]

/-- `SET_MODE`: private modes are shifted by five bits. -/
def csiSetMode (private_ : Bool) (params : List Int) (handler : Nat → Command) : List Command :=
  (params.takeWhile (0 ≤ ·)).map fun p => handler (toUnsigned (if private_ then p * 32 else p))

/-- The calls `dispatch_csi` makes for a final character, its modifiers (zero when absent) and
its parameters. -/
def csiCommands (code startModifier endModifier : UInt32) (params : List Int) : List Command :=
  let plain := startModifier = 0 ∧ endModifier = 0
  let private_ : Bool := startModifier = ord '?'
  if code = ord '@' then if plain then csiHandler1 params 1 .insertCharacters else []
  else if code = ord 'b' then csiHandler1 params 1 .repeatCharacter
  else if code = ord 'A' then if plain then csiHandler1 params 1 .cursorUp2 else []
  else if code = ord 'B' ∨ code = ord 'e' then csiHandler1 params 1 .cursorDown
  else if code = ord 'C' ∨ code = ord 'a' then csiHandler1 params 1 .cursorForward
  else if code = ord 'D' then csiHandler1 params 1 .cursorBack1
  else if code = ord 'E' then csiHandler1 params 1 .cursorDown1
  else if code = ord 'F' then csiHandler1 params 1 .cursorUp1
  else if code = ord 'G' ∨ code = ord '\x60' then csiHandler1 params 1 .cursorToColumn
  else if code = ord 'd' then csiHandler1 params 1 .cursorToLine
  else if code = ord 'Z' then csiHandler1 params 1 .backtab
  else if code = ord 'I' then csiHandler1 params 1 .tabn
  else if code = ord 'H' ∨ code = ord 'f' then csiHandler2 params 1 1 .cursorPosition
  else if code = ord 'J' then csiHandler1 params 0 fun p => .eraseInDisplay p private_
  else if code = ord 'K' then csiHandler1 params 0 fun p => .eraseInLine p private_
  else if code = ord 'L' then csiHandler1 params 1 .insertLines
  else if code = ord 'M' then csiHandler1 params 1 .deleteLines
  else if code = ord 'P' then
    if endModifier = ord '#' ∧ startModifier = 0 then csiHandler1 params 0 .pushColors
    else csiHandler1 params 1 .deleteCharacters
  else if code = ord 'Q' then
    if endModifier = ord '#' ∧ startModifier = 0 then csiHandler1 params 0 .popColors else []
  else if code = ord 'R' then
    if endModifier = ord '#' ∧ startModifier = 0 then [.reportColorStack] else []
  else if code = ord 'X' then csiHandler1 params 1 .eraseCharacters
  else if code = ord 'c' then csiHandler1 params 0 fun p => .reportDeviceAttributes p startModifier
  else if code = ord 'g' then csiHandler1 params 0 .clearTabStop
  else if code = ord 'h' then csiSetMode private_ params .setMode
  else if code = ord 'l' then csiSetMode private_ params .resetMode
  else if code = ord 'n' then csiHandler1 params 0 fun p => .reportDeviceStatus p private_
  else if code = ord 's' then
    if plain ∧ params = [] then [.saveCursor]
    else if startModifier = ord '?' ∧ endModifier = 0 then
      if params = [] then [.saveModes] else csiSetMode private_ params .saveMode
    else []
  else if code = ord 't' then
    if ¬ plain then []
    else match params with
      | [] => []
      | first :: _ =>
        if first ∈ [14, 16, 18] then csiHandler1 params 0 .reportSize
        else if first ∈ [22, 23] then
          -- an extra third zero, generated by weechat or ncurses, is ignored
          let params := if params.length = 3 ∧ params[2]? = some 0 then params.take 2 else params
          csiHandler2 params 22 0 .manipulateTitleStack
        else []
  else if code = ord 'u' then
    if plain ∧ params = [] then [.restoreCursor]
    else if endModifier ≠ 0 then []
    else if startModifier = ord '?' then [.reportKeyEncodingFlags]
    else if startModifier = ord '=' then csiHandler2 params 0 1 .setKeyEncodingFlags
    else if startModifier = ord '>' then csiHandler1 params 0 .pushKeyEncodingFlags
    else if startModifier = ord '<' then csiHandler1 params 1 .popKeyEncodingFlags
    else []
  else if code = ord 'r' then
    if plain then csiHandler2 params 0 0 .setMargins
    else if startModifier = ord '?' ∧ endModifier = 0 then
      if params = [] then [.restoreModes] else csiSetMode private_ params .restoreMode
    else []
  else if code = ord 'x' then
    if startModifier = 0 ∧ endModifier = ord '*' then csiHandler1 params 0 .decsace else []
  else if code = ord 'q' then
    if startModifier = 0 ∧ endModifier = ord ' ' then
      csiHandler1 params 1 fun p => .setCursor p endModifier
    else if startModifier = ord '>' ∧ endModifier = 0 then csiHandler1 params 0 .xtversion
    else []
  else if code = ord 'S' then if plain then csiHandler1 params 1 .scroll else []
  else if code = ord 'T' then
    if startModifier = 0 ∧ endModifier = ord '+' then
      csiHandler1 params 1 .reverseScrollAndFillFromScrollback
    else if plain then csiHandler1 params 1 .reverseScroll
    else []
  else if code = ord 'p' then
    if endModifier = ord '$' then csiHandler1 params 0 fun p => .reportModeStatus p private_ else []
  else []

/-- The calls for the parameter cells and the final character of a CSI sequence. -/
def csiSequenceCommands (cells : List UInt32) (code : UInt32) : List Command :=
  let startModifier : UInt32 :=
    match cells with
    | first :: _ => if first ∈ chars "><?!=" then first else 0
    | [] => 0
  let buf := if startModifier = 0 then cells else cells.tail
  let endModifier : UInt32 :=
    match buf.getLast? with
    | some last => if isCsiSecondary last then last else 0
    | none => 0
  let buf := if endModifier = 0 then buf else buf.dropLast
  if code = ord 'm' ∧ startModifier = 0 ∧ endModifier = 0 then parseSgr buf none
  else if code = ord 'r' ∧ startModifier = 0 ∧ endModifier = ord '$' then
    let (region, rest) := parseRegion buf
    parseSgr rest (some region)
  else match csiParamsLoop [] [] buf with
    | none => []
    | some params => csiCommands code startModifier endModifier params

/-- `dispatch_csi`: the final character stands behind the parameters. -/
def dispatchCsi (s : ParseScreen) : Option ParseScreen := do
  let code ← s.read s.parserBufPos
  let cells ← s.readFrom 0
  some (s.emitAll (csiSequenceCommands cells code))

end Smelly
