/-
Module: Smelly.Core.ParserLoop
Purpose: The accumulators and the decoding loop of `parser.c`, the scanner of pending mode that
  shares them, and the driver `do_parse_bytes`.
Trusted boundary: human-reviewed model of smelly/parser.c; messages for the log and the capacity
  of the pending buffer are left out
-/
import Smelly.Core.ParserDispatch

namespace Smelly

/-! ### Accumulating an escape code -/

/-- `handle_extended_osc_code`. -/
def handleExtendedOscCode (s : ParseScreen) : Option (ParseScreen × Bool) := do
  let b0 ← s.read 0
  if b0 ≠ ord '5' then some (s, false)
  else do
    let b1 ← s.read 1
    if b1 ≠ ord '2' then some (s, false)
    else do
      let b2 ← s.read 2
      if b2 ≠ ord ';' then some (s, false)
      else do
        let s ← s.write 0 extendedOscSentinel
        let s ← s.write 1 1
        some (s, true)

/-- The cell in front of `parser_buf_pos` is ESC. -/
def afterEsc (s : ParseScreen) : Option Bool :=
  if s.parserBufPos = 0 then some false
  else do
    let last ← s.read (s.parserBufPos - 1)
    some (last = Ctl.ESC)

/-- The test of `case ESC_ST`: a backslash behind an ESC. -/
def closesString (s : ParseScreen) (ch : UInt32) : Option Bool :=
  if ch = ord '\\' then afterEsc s else some false

/-- `parser_buf_pos--`, which takes the ESC of the terminator back. -/
def dropEsc (s : ParseScreen) : ParseScreen := { s with parserBufPos := s.parserBufPos - 1 }

/-- `accumulate_osc`: whether the string ends here, and whether it is an extended OSC code. -/
def accumulateOsc (s : ParseScreen) (ch : UInt32) : Option (ParseScreen × Bool × Bool) :=
  if ch = Ctl.ST ∨ ch = Ctl.BEL then some (s, true, false)
  else if ch = Ctl.NUL ∨ ch = Ctl.DEL then some (s, false, false)
  else do
    let closes ← closesString s ch
    if closes then some (dropEsc s, true, false)
    else if parserBufSz - 1 ≤ s.parserBufPos then do
      let (s, extended) ← handleExtendedOscCode s
      some (s, true, extended)
    else do
      let s ← s.push ch
      some (s, false, false)

/-- `accumulate_dcs`. -/
def accumulateDcs (s : ParseScreen) (ch : UInt32) : Option (ParseScreen × Bool) :=
  if ch = Ctl.ST then some (s, true)
  else if ch = Ctl.NUL ∨ ch = Ctl.DEL then some (s, false)
  else if ch = Ctl.ESC ∨ (32 ≤ ch ∧ ch ≤ 126) then do
    let escaped ← afterEsc s
    if escaped then
      if ch = ord '\\' then some (dropEsc s, true) else some (s.setState .esc, false)
    else if parserBufSz - 1 ≤ s.parserBufPos then some (s, true)
    else do
      let s ← s.push ch
      some (s, false)
  else some (s, false)

/-- `accumulate_oth`. -/
def accumulateOth (s : ParseScreen) (ch : UInt32) : Option (ParseScreen × Bool) :=
  if ch = Ctl.ST then some (s, true)
  else if ch = Ctl.DEL ∨ ch = Ctl.NUL then some (s, false)
  else do
    let closes ← closesString s ch
    if closes then some (dropEsc s, true)
    else if parserBufSz - 1 ≤ s.parserBufPos then some (s, true)
    else do
      let s ← s.push ch
      some (s, false)

/-- The characters that end a CSI sequence. -/
def isCsiFinal (ch : UInt32) : Bool :=
  (97 ≤ ch ∧ ch ≤ 122) ∨ (65 ≤ ch ∧ ch ≤ 90) ∨ ch ∈ chars "@\x60\x7b|\x7d~"

/-- The control characters that are executed inside a CSI sequence. -/
def isCsiControl (ch : UInt32) : Bool :=
  ch ∈ [Ctl.BEL, Ctl.BS, Ctl.HT, Ctl.LF, Ctl.VT, Ctl.FF, Ctl.NEL, Ctl.CR, Ctl.SO, Ctl.SI, Ctl.IND,
    Ctl.RI, Ctl.HTS]

/-- `ENSURE_SPACE` and the store behind it. -/
def csiPush (s : ParseScreen) (ch : UInt32) : Option ParseScreen :=
  if parserBufSz - 1 < s.parserBufPos then some (s.setState .normal) else s.push ch

/-- The characters `accumulate_csi` stores at any position. -/
def isCsiParam (ch : UInt32) : Bool := isDigit ch ∨ isCsiSecondary ch ∨ ch = ord ':' ∨ ch = ord ';'

/-- `accumulate_csi`.  The final character is stored at `parser_buf_pos` without a check. -/
def accumulateCsi (s : ParseScreen) (ch : UInt32) : Option (ParseScreen × Bool) :=
  if isCsiParam ch then do
    let s ← csiPush s ch
    some (s, false)
  else if ch ∈ chars "?><=" then
    if s.parserBufPos ≠ 0 then some (s.setState .normal, false)
    else do
      let s ← csiPush s ch
      some (s, false)
  else if isCsiFinal ch then do
    let s ← s.write s.parserBufPos ch
    some (s, true)
  else if isCsiControl ch then some (dispatchNormalModeChar s ch, false)
  else some (s.setState .normal, false)

/-! ### The decoding loop -/

/-- What the macros take as `dispatch` and `watch_for_pending`. -/
structure Handlers where
  normal : ParseScreen → UInt32 → ParseScreen
  esc : ParseScreen → UInt32 → Option ParseScreen
  csi : ParseScreen → Option ParseScreen
  osc : ParseScreen → Option ParseScreen
  dcs : ParseScreen → Option ParseScreen
  apc : ParseScreen → Option ParseScreen
  pm : ParseScreen → Option ParseScreen
  /-- When to leave the loop after a CSI or DCS sequence. -/
  watch : ParseScreen → Bool

/-- A string has ended: dispatch it and return to normal mode. -/
def dispatchString (handler : ParseScreen → Option ParseScreen) (s : ParseScreen) :
    Option ParseScreen := do
  let s ← handler s
  some (s.setState .normal)

/-- `case CSI` of `dispatch_unicode_char`. -/
def dispatchCsiChar (h : Handlers) (s : ParseScreen) (ch : UInt32) :
    Option (ParseScreen × Bool) := do
  let (s, done) ← accumulateCsi s ch
  if done then do
    let s ← dispatchString h.csi s
    some (s, h.watch s)
  else some (s, false)

/-- `case OSC` of `dispatch_unicode_char`. -/
def dispatchOscChar (h : Handlers) (s : ParseScreen) (ch : UInt32) : Option ParseScreen := do
  let (s, done, extended) ← accumulateOsc s ch
  if done then
    if extended then do
      -- the character that did not fit starts the rest of the OSC 52 code
      let s ← h.osc s
      let (s, done, _) ← accumulateOsc s ch
      if done then dispatchString h.osc s else some s
    else dispatchString h.osc s
  else some s

/-- `case APC` and `case PM` of `dispatch_unicode_char`. -/
def dispatchOthChar (handler : ParseScreen → Option ParseScreen) (s : ParseScreen) (ch : UInt32) :
    Option ParseScreen := do
  let (s, done) ← accumulateOth s ch
  if done then dispatchString handler s else some s

/-- `case DCS` of `dispatch_unicode_char`. -/
def dispatchDcsChar (h : Handlers) (s : ParseScreen) (ch : UInt32) :
    Option (ParseScreen × Bool) := do
  let (s, done) ← accumulateDcs s ch
  if done then do
    let s ← dispatchString h.dcs s
    some (s, h.watch s)
  else if s.parserState = .esc then do
    let s ← h.esc s ch
    some (s, false)
  else some (s, false)

/-- `dispatch_unicode_char`, and whether `watch_for_pending` leaves the loop. -/
def dispatchUnicodeChar (h : Handlers) (s : ParseScreen) (ch : UInt32) :
    Option (ParseScreen × Bool) :=
  match s.parserState with
  | .esc => (h.esc s ch).map (·, false)
  | .csi => dispatchCsiChar h s ch
  | .osc => (dispatchOscChar h s ch).map (·, false)
  | .apc => (dispatchOthChar h.apc s ch).map (·, false)
  | .pm => (dispatchOthChar h.pm s ch).map (·, false)
  | .dcs => dispatchDcsChar h s ch
  | .normal => some (h.normal s ch, false)

/-- How `decode_loop` goes on: with the next byte, with the same byte (`i--`), or at `end`. -/
inductive NextByte where
  | advance
  | again
  | stop
deriving DecidableEq, Repr

/-- One round of `decode_loop`, with the new value of `prev`. -/
def decodeRound (h : Handlers) (prev : Nat) (s : ParseScreen) (ch : UInt8) :
    Option (ParseScreen × Nat × NextByte) :=
  if s.decoder.useLatin1 then do
    let (s, stop) ← dispatchUnicodeChar h s (latin1Charset ch)
    some (s, prev, if stop then .stop else .advance)
  else
    let (state, codep) := decodeUtf8 s.decoder.utf8State s.decoder.utf8Codepoint ch
    let s := { s with decoder := { s.decoder with utf8State := state, utf8Codepoint := codep } }
    if state = utf8Accept then do
      let (s, stop) ← dispatchUnicodeChar h s codep
      some (s, s.decoder.utf8State, if stop then .stop else .advance)
    else if state = utf8Reject then
      some ({ s with decoder := { s.decoder with utf8State := utf8Accept } }, utf8Accept,
        if prev ≠ utf8Accept then .again else .advance)
    else some (s, state, .advance)

/-- `decode_loop`: the screen and the bytes not consumed, or the screen at the access outside of
`parser_buf`.  A byte is read again at most once, since `prev` is `UTF8_ACCEPT` then. -/
def decodeLoop (h : Handlers) (prev : Nat) (s : ParseScreen) :
    Bytes → Except ParseScreen (ParseScreen × Bytes)
  | [] => .ok (s, [])
  | ch :: rest =>
    match decodeRound h prev s ch with
    | none => .error s
    | some (s, prev, .advance) => decodeLoop h prev s rest
    | some (s, _, .stop) => .ok (s, rest)
    | some (s, prev, .again) =>
      match decodeRound h prev s ch with
      | none => .error s
      | some (s, _, .stop) => .ok (s, rest)
      | some (s, prev, _) => decodeLoop h prev s rest

/-- The handlers of `_parse_bytes`. -/
def dispatchHandlers : Handlers where
  normal := dispatchNormalModeChar
  esc := dispatchEscModeChar
  csi := dispatchCsi
  osc := dispatchOsc
  dcs := dispatchDcs
  apc := dispatchApc
  pm := dispatchPm
  watch := fun _ => false

/-- `_parse_bytes`. -/
def parseBytes (s : ParseScreen) (buf : Bytes) : Except ParseScreen (ParseScreen × Bytes) :=
  decodeLoop dispatchHandlers s.decoder.utf8State s buf

/-- `_parse_bytes_watching_for_pending`. -/
def parseBytesWatchingForPending (s : ParseScreen) (buf : Bytes) :
    Except ParseScreen (ParseScreen × Bytes) :=
  decodeLoop { dispatchHandlers with watch := fun s => s.pending.activatedAt ≠ 0 }
    s.decoder.utf8State s buf

/-! ### Pending mode -/

/-- `write_pending_char`. -/
def writePendingChar (s : ParseScreen) (ch : UInt32) : ParseScreen :=
  { s with pending := { s.pending with buf := s.pending.buf ++ encodeUtf8 ch } }

/-- `write_pending_char` for several characters. -/
def writePendingChars (s : ParseScreen) (text : Text) : ParseScreen :=
  text.foldl writePendingChar s

/-- `pending_normal_mode_char`. -/
def pendingNormalModeChar (s : ParseScreen) (ch : UInt32) : ParseScreen :=
  match ParserState.ofControl ch with
  | some state => s.setState state
  | none => writePendingChar s ch

/-- `pending_esc_mode_char`. -/
def pendingEscModeChar (s : ParseScreen) (ch : UInt32) : Option ParseScreen :=
  if 0 < s.parserBufPos then do
    let last ← s.read (s.parserBufPos - 1)
    some ((writePendingChars s [Ctl.ESC, last, ch]).setState .normal)
  else match ParserState.ofEscape ch with
    | some state => some (s.setState state)
    | none =>
      if isEscIntermediate ch then s.push ch
      else some ((writePendingChars s [Ctl.ESC, ch]).setState .normal)

/-- `pending_escape_code`. -/
def pendingEscapeCode (s : ParseScreen) (startCh endCh : UInt32) : Option ParseScreen := do
  let cells ← s.readFrom 0
  some (writePendingChars s (startCh :: cells ++ [endCh]))

/-- `pending_osc`. -/
def pendingOsc (s : ParseScreen) : Option ParseScreen := do
  let cells ← s.readFrom 0
  let s ← pendingEscapeCode s Ctl.OSC Ctl.ST
  if isExtendedOsc cells then continueOsc52 s else some s

/-- `pending_dcs`. -/
def pendingDcs (s : ParseScreen) : Option ParseScreen := do
  let cells ← s.readFrom 0
  if cells.take 3 = chars "=1s" then some s.activatePending.activatePending
  else if cells.take 3 = chars "=2s" then
    let s := s.deactivatePending
    some { s with pending := { s.pending with stopEscapeCodeType := .dcs } }
  else pendingEscapeCode s Ctl.DCS Ctl.ST

/-- `pending_csi`. -/
def pendingCsi (s : ParseScreen) : Option ParseScreen := do
  let code ← s.read s.parserBufPos
  let cells ← s.readFrom 0
  if cells = chars "?2026" ∧ code = ord 'h' then some s.activatePending
  else if cells = chars "?2026" ∧ code = ord 'l' then
    let s := s.deactivatePending
    some { s with pending := { s.pending with stopEscapeCodeType := .csi } }
  else pendingEscapeCode s Ctl.CSI code

/-- The handlers of `queue_pending_bytes`. -/
def pendingHandlers : Handlers where
  normal := pendingNormalModeChar
  esc := pendingEscModeChar
  csi := pendingCsi
  osc := pendingOsc
  dcs := pendingDcs
  apc := fun s => pendingEscapeCode s Ctl.APC Ctl.ST
  pm := fun s => pendingEscapeCode s Ctl.PM Ctl.ST
  watch := fun s => s.pending.activatedAt = 0

/-- `queue_pending_bytes`. -/
def queuePendingBytes (s : ParseScreen) (buf : Bytes) : Except ParseScreen (ParseScreen × Bytes) :=
  decodeLoop pendingHandlers s.decoder.utf8State s buf

/-- `dump_partial_escape_code_to_pending`. -/
def dumpPartialEscapeCodeToPending (s : ParseScreen) : Option ParseScreen :=
  if s.parserBufPos = 0 then some s
  else do
    let cells ← s.readFrom 0
    some (writePendingChars s (s.parserState.code :: cells))

/-! ### The driver -/

/-- The states of `do_parse_bytes`. -/
inductive DriverState where
  | start
  | parsePending
  | parseReadBuf
  | queuePending
deriving DecidableEq, Repr

/-- The variables of `do_parse_bytes`; `readBuf` holds the bytes from `read_buf_pos` on. -/
structure Driver where
  screen : ParseScreen
  readBuf : Bytes
  state : DriverState := .start
  parserStateAtStartOfPending : ParserState := .normal
deriving DecidableEq, Repr

/-- `dump_partial_escape_code_to_pending` and `activated_at = 0`. -/
def leavePending (s : ParseScreen) : Option ParseScreen := do
  let s ← dumpPartialEscapeCodeToPending s
  some s.deactivatePending

/-- One round of the loop of `do_parse_bytes`. -/
def driverRound (now : Nat) (d : Driver) : Except ParseScreen Driver :=
  let s := d.screen
  match d.state with
  | .start =>
    if s.pending.activatedAt ≠ 0 then
      if s.pending.activatedAt + s.pending.waitTime < now then
        match leavePending s with
        | none => .error s
        | some s => .ok { d with screen := s, state := .start }
      else .ok { d with state := .queuePending }
    else .ok { d with state := if s.pending.buf ≠ [] then .parsePending else .parseReadBuf }
  | .parsePending => do
      let (s, _) ← parseBytes { s with parserState := d.parserStateAtStartOfPending } s.pending.buf
      .ok { d with
        screen := { s with pending :=
          { s.pending with buf := [], activatedAt := 0, stopEscapeCodeType := .normal } }
        state := .start
        parserStateAtStartOfPending := .normal }
  | .parseReadBuf => do
      let (s, rest) ← parseBytesWatchingForPending s.deactivatePending d.readBuf
      .ok { d with screen := s, readBuf := rest, state := .start }
  | .queuePending =>
    let s := { s with pending := { s.pending with stopEscapeCodeType := .normal } }
    if readBufSz ≤ s.pending.buf.length then
      match leavePending s with
      | none => .error s
      | some s => .ok { d with screen := s, state := .start }
    else do
      let saved :=
        if s.pending.buf = [] then s.parserState else d.parserStateAtStartOfPending
      let (s, rest) ← queuePendingBytes s d.readBuf
      .ok { d with
        screen := s
        readBuf := rest
        state := .start
        parserStateAtStartOfPending := saved }

/-- The condition of the `do … while` loop. -/
def Driver.continues (d : Driver) : Bool :=
  d.readBuf ≠ [] ∨ (d.screen.pending.activatedAt = 0 ∧ d.screen.pending.buf ≠ [])

/-- The loop of `do_parse_bytes`; `none` when the rounds do not suffice. -/
def driverLoop (now : Nat) : (rounds : Nat) → Driver → Option (Except ParseScreen ParseScreen)
  | 0, _ => none
  | rounds + 1, d =>
    match driverRound now d with
    | .error s => some (.error s)
    | .ok d => if d.continues then driverLoop now rounds d else some (.ok d.screen)

/-- `do_parse_bytes`.  Six rounds for each byte are more than it makes. -/
def doParseBytes (s : ParseScreen) (readBuf : Bytes) (now : Nat) :
    Option (Except ParseScreen ParseScreen) :=
  driverLoop now (6 * readBuf.length + 8) { screen := s, readBuf := readBuf }

/-- Consecutive calls of `do_parse_bytes`, each with its chunk and its time, up to the first
access outside of `parser_buf`. -/
def feed (s : ParseScreen) : List (Bytes × Nat) → Option (Except ParseScreen ParseScreen)
  | [] => some (.ok s)
  | (chunk, now) :: rest =>
    match doParseBytes s chunk now with
    | some (.ok s) => feed s rest
    | other => other

end Smelly
