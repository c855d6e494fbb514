/-
Module: Smelly.Core.Clipboard
Purpose: How the programs in a window write to the clipboard: base64 data that arrives in pieces is
  decoded into one temporary file for all MIME types of a request, and the request is carried from
  one escape code to the next until it is committed.
Trusted boundary: human-reviewed model of Tempfile, WriteRequest and the write commands of
  ClipboardRequestManager in smelly/clipboard.py; files can be written, a float of the options is a
  rational number, and the responses to the program are left out.  Reading moves the position of
  the file, which is not modelled: nothing is written to a request that has been read
-/
import Smelly.Core.FileTransmission
import Smelly.Lib.Base64
import Smelly.Lib.FileBytes
import Mathlib.Algebra.Order.Ring.Rat

namespace Smelly

namespace Clipboard

open FileTransmission (setItem)

/-! ### Decoding -/

/-- The loop of `binascii.a2b_base64`, from `quad_pos`, `leftchar` and `pads` on. -/
def a2bLoop (quadPos leftchar pads : Nat) : List UInt8 → Option (List UInt8)
  | [] => if quadPos = 0 then some [] else none
  | b :: rest =>
    if b = 0x3d then
      if 2 ≤ quadPos then
        if 4 ≤ quadPos + (pads + 1) then some [] else a2bLoop quadPos leftchar (pads + 1) rest
      else a2bLoop quadPos leftchar pads rest
    else
      match Base64.value (Char.ofNat b.toNat) with
      | none => a2bLoop quadPos leftchar pads rest
      | some v =>
        match quadPos with
        | 0 => a2bLoop 1 v 0 rest
        | 1 => (a2bLoop 2 (v % 16) 0 rest).map (UInt8.ofNat (leftchar * 4 + v / 16) :: ·)
        | 2 => (a2bLoop 3 (v % 4) 0 rest).map (UInt8.ofNat (leftchar * 16 + v / 4) :: ·)
        | _ => (a2bLoop 0 0 0 rest).map (UInt8.ofNat (leftchar * 64 + v) :: ·)

/-- `standard_b64decode`: `binascii.a2b_base64` without the strict mode. -/
def a2bBase64 (data : List UInt8) : Option (List UInt8) :=
  a2bLoop 0 0 0 data

/-- The data of a piece: `str` or `bytes`. -/
inductive Payload where
  | str (text : List Char)
  | bytes (data : List UInt8)
deriving DecidableEq, Repr

/-- `data.encode('ascii')` for a `str`. -/
def Payload.encode : Payload → Option (List UInt8)
  | .str text =>
    if text.all (·.toNat < 128) then some (text.map fun c => UInt8.ofNat c.toNat) else none
  | .bytes data => some data

/-! ### The temporary file -/

/-- `Tempfile`; `rolled` once the data are in a real file. -/
structure Tempfile where
  maxSize : Nat
  content : List UInt8 := []
  position : Nat := 0
  rolled : Bool := false
deriving DecidableEq, Repr

/-- `rollover_if_needed`. -/
def Tempfile.rolloverIfNeeded (self : Tempfile) (sz : Nat) : Tempfile :=
  if !self.rolled ∧ self.maxSize < self.position + sz then
    { self with rolled := true, position := self.content.length }
  else self

/-- `write`. -/
def Tempfile.write (self : Tempfile) (data : List UInt8) : Tempfile :=
  let self := self.rolloverIfNeeded data.length
  { self with
    content := FileBytes.write 0 self.content self.position data
    position := self.position + data.length }

/-- `tell`. -/
def Tempfile.tell (self : Tempfile) : Nat := self.position

/-- The bytes that `read` returns; all that follow for a negative size. -/
def Tempfile.read (self : Tempfile) (offset : Nat) (size : Int) : List UInt8 :=
  if size < 0 then self.content.drop offset else FileBytes.read self.content offset size.toNat

/-- What the chunks of `create_chunker` join to, from `pos` on, with the chunks still possible.  A
chunk has at most `io.DEFAULT_BUFFER_SIZE` bytes, and an empty one is the last. -/
def Tempfile.chunks (self : Tempfile) : Nat → Nat → Int → List UInt8
  | 0, _, _ => []
  | rounds + 1, pos, limit =>
    if limit ≤ pos then []
    else
      match self.read pos (min 8192 (limit - pos)) with
      | [] => []
      | b :: more => b :: more ++ self.chunks rounds (pos + (more.length + 1)) limit

/-- What `create_chunker` gives. -/
def Tempfile.createChunker (self : Tempfile) (offset : Nat) (size : Int) : List UInt8 :=
  self.chunks size.toNat offset (offset + size)

/-! ### Write requests -/

/-- `MimePos`. -/
structure MimePos where
  start : Nat
  size : Int
deriving DecidableEq, Repr

/-- `ProtocolType`. -/
inductive ProtocolType where
  | osc52
  | osc5522
deriving DecidableEq, Repr

/-- The options that are read. -/
structure Options where
  clipboardMaxSize : ℚ
  clipboardControl : List String

/-- `WriteRequest`. -/
structure WriteRequest where
  id : String
  isPrimarySelection : Bool
  protocolType : ProtocolType
  maxSizeExceeded : Bool := false
  tempfile : Tempfile
  mimeMap : List (String × MimePos) := []
  currentlyWritingMime : String := ""
  currentLeftoverBytes : List UInt8 := []
  maxSize : ℚ
  aliases : List (String × String) := []
  commited : Bool := false
deriving DecidableEq

/-- `WriteRequest(is_primary_selection, protocol_type, id, rollover_size, max_size)`. -/
def WriteRequest.make (options : Options) (isPrimarySelection : Bool)
    (protocolType : ProtocolType) (id : String) (rolloverSize : Nat) (maxSize : ℚ) :
    WriteRequest where
  id := id
  isPrimarySelection := isPrimarySelection
  protocolType := protocolType
  tempfile := { maxSize := rolloverSize }
  maxSize := if maxSize < 0 then options.clipboardMaxSize * 1024 * 1024 else maxSize

/-- Go on with `next` unless there was an exception: the second part says whether the call
returns. -/
def andThen (result : WriteRequest × Bool) (next : WriteRequest → WriteRequest × Bool) :
    WriteRequest × Bool :=
  if result.2 then next result.1 else result

/-- `write_base64_data`. -/
def WriteRequest.writeBase64Data (self : WriteRequest) (b : List UInt8) : WriteRequest × Bool :=
  if self.maxSizeExceeded then (self, true)
  else
    match a2bBase64 b with
    | none => (self, false)
    | some d =>
      let self := { self with tempfile := self.tempfile.write d }
      if 0 < self.maxSize ∧ self.maxSize * 1024 * 1024 < (self.tempfile.tell : ℚ) then
        ({ self with maxSizeExceeded := true }, true)
      else (self, true)

/-- The assignments at the end of `flush_base64_data`. -/
def WriteRequest.endMime (self : WriteRequest) : WriteRequest :=
  let start := ((self.mimeMap.lookup self.currentlyWritingMime).map (·.start)).getD 0
  { self with
    mimeMap := setItem self.mimeMap self.currentlyWritingMime
      { start, size := (self.tempfile.tell : Int) - start }
    currentlyWritingMime := ""
    currentLeftoverBytes := [] }

/-- `flush_base64_data`. -/
def WriteRequest.flushBase64Data (self : WriteRequest) : WriteRequest × Bool :=
  if self.currentlyWritingMime = "" then (self, true)
  else
    let b := self.currentLeftoverBytes
    let padding := 4 - b.length
    andThen
      (if padding = 1 ∨ padding = 2 then
        self.writeBase64Data (b ++ List.replicate padding 0x3d)
      else (self, true))
      fun self => (self.endMime, true)

/-- `write_saving_leftover_bytes`. -/
def WriteRequest.writeSavingLeftoverBytes (self : WriteRequest) (data : List UInt8) :
    WriteRequest × Bool :=
  if data.length = 0 then (self, true)
  else
    let extra := data.length % 4
    if 0 < extra then
      let self := { self with currentLeftoverBytes := data.drop (data.length - extra) }
      let mv := data.take (data.length - extra)
      if 0 < mv.length then self.writeBase64Data mv else (self, true)
    else self.writeBase64Data data

/-- The MIME type that a piece is for becomes the current one. -/
def WriteRequest.startMime (self : WriteRequest) (mime : String) : WriteRequest × Bool :=
  andThen
    (if self.currentlyWritingMime ≠ "" ∧ self.currentlyWritingMime ≠ mime then
      self.flushBase64Data
    else (self, true))
    fun self =>
      if self.currentlyWritingMime = "" then
        ({ self with
          mimeMap := setItem self.mimeMap mime { start := self.tempfile.tell, size := -1 }
          currentlyWritingMime := mime }, true)
      else (self, true)

/-- The data of a piece behind what is left over of the last one. -/
def WriteRequest.addBytes (self : WriteRequest) (data : List UInt8) : WriteRequest × Bool :=
  if 0 < self.currentLeftoverBytes.length then
    let extra := 4 - self.currentLeftoverBytes.length
    if extra ≤ data.length then
      andThen (self.writeBase64Data (self.currentLeftoverBytes ++ data.take extra)) fun self =>
        { self with currentLeftoverBytes := [] }.writeSavingLeftoverBytes (data.drop extra)
    else ({ self with currentLeftoverBytes := self.currentLeftoverBytes ++ data }, true)
  else self.writeSavingLeftoverBytes data

/-- `add_base64_data`. -/
def WriteRequest.addBase64Data (self : WriteRequest) (data : Payload) (mime : String) :
    WriteRequest × Bool :=
  match data.encode with
  | none => (self, false)
  | some data => andThen (self.startMime mime) fun self => self.addBytes data

/-- `data_for`, for all of the data; nothing for a `KeyError`. -/
def WriteRequest.dataFor (self : WriteRequest) (mime : String) : Option (List UInt8) :=
  (self.mimeMap.lookup mime).map fun pos => self.tempfile.read pos.start pos.size

/-- The MIME types of `commit`: an alias has the place of the type it is for. -/
def WriteRequest.committedMap (self : WriteRequest) : List (String × MimePos) :=
  self.aliases.foldl (fun mimeMap item =>
    match mimeMap.lookup item.2 with
    | none => mimeMap
    | some pos => setItem mimeMap item.1 pos) self.mimeMap

/-- What `commit` sets the clipboard to. -/
def WriteRequest.committedData (self : WriteRequest) : List (String × List UInt8) :=
  self.committedMap.map fun item =>
    (item.1, self.tempfile.createChunker item.2.start item.2.size)

/-! ### Escape codes -/

/-- What a program can find of the surroundings: whether its window is still there, and which
clipboards are enabled. -/
structure Boss where
  options : Options
  hasWindow : Bool
  supportsPrimarySelection : Bool

/-- The request in flight of `ClipboardRequestManager`, and the data of the two clipboards. -/
structure ClipboardRequestManager where
  inFlightWriteRequest : Option WriteRequest := none
  clipboard : List (String × List UInt8) := []
  primarySelection : List (String × List UInt8) := []
deriving DecidableEq

/-- `cp.enabled`. -/
def Boss.enabled (boss : Boss) (isPrimarySelection : Bool) : Bool :=
  !isPrimarySelection || boss.supportsPrimarySelection

/-- The data of a clipboard. -/
def ClipboardRequestManager.dataOf (self : ClipboardRequestManager) (isPrimarySelection : Bool) :
    List (String × List UInt8) :=
  if isPrimarySelection then self.primarySelection else self.clipboard

/-- `cp.set_mime`. -/
def ClipboardRequestManager.setMime (self : ClipboardRequestManager) (isPrimarySelection : Bool)
    (data : List (String × List UInt8)) : ClipboardRequestManager :=
  if isPrimarySelection then { self with primarySelection := data }
  else { self with clipboard := data }

/-- `commit`. -/
def ClipboardRequestManager.commit (boss : Boss) (self : ClipboardRequestManager)
    (wr : WriteRequest) : ClipboardRequestManager :=
  if wr.commited then self
  else if boss.enabled wr.isPrimarySelection then
    self.setMime wr.isPrimarySelection wr.committedData
  else self

/-- The option that allows a request. -/
def WriteRequest.permission (self : WriteRequest) : String :=
  if self.isPrimarySelection then "write-primary" else "write-clipboard"

/-- `fulfill_write_request`. -/
def ClipboardRequestManager.fulfillWriteRequest (boss : Boss) (self : ClipboardRequestManager)
    (wr : WriteRequest) (allowed : Bool) : ClipboardRequestManager :=
  match wr.protocolType with
  | .osc52 =>
    if boss.hasWindow && boss.enabled wr.isPrimarySelection && allowed then self.commit boss wr
    else self
  | .osc5522 =>
    if !allowed || !boss.enabled wr.isPrimarySelection then
      { self with inFlightWriteRequest := none }
    else self

/-- `handle_write_request`. -/
def ClipboardRequestManager.handleWriteRequest (boss : Boss) (self : ClipboardRequestManager)
    (wr : WriteRequest) : ClipboardRequestManager × Bool :=
  match wr.flushBase64Data with
  | (_, false) => (self, false)
  | (wr, true) =>
    (self.fulfillWriteRequest boss wr
      (boss.options.clipboardControl.contains wr.permission), true)

/-- `ClipboardType.from_osc52_where_field`, as whether it is the primary selection. -/
def isPrimaryWhere (field : List Char) : Bool :=
  let field := if field = [] then ['s', '0'] else field
  !(field.contains 'c' || field.contains 's')

/-- `parse_osc_52` for the two fields of the code.  A read request leaves the writes alone. -/
def ClipboardRequestManager.parseOsc52 (boss : Boss) (self : ClipboardRequestManager)
    (field text : List Char) (isPartial : Bool) : ClipboardRequestManager × Bool :=
  if text = ['?'] then (self, true)
  else
    let wr := self.inFlightWriteRequest.getD
      (WriteRequest.make boss.options (isPrimaryWhere field) .osc52 "" (16 * 1024 * 1024) (-1))
    match wr.addBase64Data (.str text) "text/plain" with
    | (wr, false) => ({ self with inFlightWriteRequest := some wr }, false)
    | (wr, true) =>
      if isPartial then ({ self with inFlightWriteRequest := some wr }, true)
      else { self with inFlightWriteRequest := none }.handleWriteRequest boss wr

/-- The branch of `parse_osc_5522` for `wdata`: a request with an error is dropped. -/
def ClipboardRequestManager.wdata (boss : Boss) (self : ClipboardRequestManager) (mime : String)
    (epayload : List Char) : ClipboardRequestManager × Bool :=
  match self.inFlightWriteRequest with
  | none => (self, true)
  | some wr =>
    if mime ≠ "" then
      match wr.addBase64Data (.str epayload) mime with
      | (wr, true) => ({ self with inFlightWriteRequest := some wr }, true)
      | (_, false) => ({ self with inFlightWriteRequest := none }, false)
    else
      match wr.flushBase64Data with
      | (wr, false) => ({ self with inFlightWriteRequest := some wr }, false)
      | (wr, true) => ({ self with inFlightWriteRequest := none }.commit boss wr, true)

end Clipboard

end Smelly
