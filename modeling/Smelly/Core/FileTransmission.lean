/-
Module: Smelly.Core.FileTransmission
Purpose: The data of the file transmission protocol, the two kinds of transfer sessions, and the way
  responses take to the child: direct writes, the deque of parked responses with its timer, and
  the chunks of a send session that wait for room in the write buffer.
Trusted boundary: human-reviewed model of FileTransmission in smelly/file_transmission.py.  The
  operating system, the clock, the write buffer of the child and the hash are a `World` that is
  asked with a growing count of questions, so that two answers can always differ.  The
  histories of the state (what was produced and what reached the child, which files were touched
  for which transfer, which transfers were approved) are not read by any function
-/
import Mathlib.Data.List.Basic

namespace Smelly

namespace FileTransmission

/-- `Action`. -/
inductive Action where
  | send
  | file
  | data
  | endData
  | receive
  | invalid
  | cancel
  | status
  | finish
deriving DecidableEq, Repr

/-- `Compression`. -/
inductive Compression where
  | zlib
  | none
deriving DecidableEq, Repr

/-- `FileType`. -/
inductive FileType where
  | regular
  | directory
  | symlink
  | link
deriving DecidableEq, Repr

/-- `TransmissionType`. -/
inductive TransmissionType where
  | simple
  | rsync
deriving DecidableEq, Repr

/-- `FileTransmissionCommand`. -/
structure Command where
  action : Action := .invalid
  compression : Compression := .none
  ftype : FileType := .regular
  ttype : TransmissionType := .simple
  id : String := ""
  fileId : String := ""
  bypass : String := ""
  quiet : Int := 0
  mtime : Int := -1
  permissions : Int := -1
  size : Int := -1
  name : String := ""
  status : String := ""
  parent : String := ""
  data : List UInt8 := []
deriving DecidableEq, Repr

/-- `TransmissionError`. -/
structure TransmissionError where
  code : String := "EINVAL"
  msg : String := "Generic error"
  transmit : Bool := true
  fileId : String := ""
  name : String := ""
  size : Int := -1
  ttype : TransmissionType := .simple
deriving DecidableEq, Repr

/-- `TransmissionError.as_ftc`. -/
def TransmissionError.asFtc (self : TransmissionError) (requestId : String) : Command :=
  { action := .status, id := requestId, fileId := self.fileId
    status := if self.msg = "" then self.code else self.code ++ ":" ++ self.msg
    name := self.name, size := self.size, ttype := self.ttype }

/-- `split_for_transfer`, with the rounds still possible. -/
def splitRounds (sessionId fileId : String) (markLast : Bool) : Nat → List UInt8 → List Command
  | 0, _ => []
  | rounds + 1, data =>
    if data = [] then []
    else
      { action := if markLast ∧ data.length ≤ 4096 then .endData else .data
        id := sessionId, fileId := fileId, data := data.take 4096 } ::
        splitRounds sessionId fileId markLast rounds (data.drop 4096)

/-- `split_for_transfer`. -/
def splitForTransfer (data : List UInt8) (sessionId fileId : String) (markLast : Bool) :
    List Command :=
  splitRounds sessionId fileId markLast data.length data

/-! ### Sessions -/

/-- `DestFile`; `opened` says that `actual_file` is set, and `existingSize` is the size in
`existing_stat`. -/
structure DestFile where
  name : String
  fileId : String
  ftype : FileType
  ttype : TransmissionType
  existingSize : Option Int := none
  closed : Bool := false
  opened : Bool := false
  failed : Bool := false
  bytesWritten : Nat := 0
deriving DecidableEq, Repr

/-- `SourceFile`; `usesRsync` says that `signature_loader` is set. -/
structure SourceFile where
  fileId : String
  path : String
  usesRsync : Bool := false
  waitingForSignature : Bool := false
  transmitted : Bool := false
deriving DecidableEq, Repr

/-- `ready_to_transmit`. -/
def SourceFile.readyToTransmit (self : SourceFile) : Bool :=
  !self.transmitted && !self.waitingForSignature

/-- `ActiveReceive`; `serial` tells the objects apart. -/
structure ActiveReceive where
  id : String
  serial : Nat
  accepted : Bool := false
  bypassOk : Option Bool := none
  files : List (String × DestFile) := []
  sendAcknowledgements : Bool := true
  sendErrors : Bool := true
deriving DecidableEq, Repr

/-- `ActiveSend`; `serial` tells the objects apart. -/
structure ActiveSend where
  id : String
  serial : Nat
  expectedNumOfArgs : Int
  accepted : Bool := false
  bypassOk : Option Bool := none
  sendAcknowledgements : Bool := true
  sendErrors : Bool := true
  fileSpecs : List (String × String) := []
  queuedFilesMap : List (String × SourceFile) := []
  activeFile : Option SourceFile := none
  pendingChunks : List Command := []
  metadataSent : Bool := false
deriving DecidableEq, Repr

/-- `spec_complete`. -/
def ActiveSend.specComplete (self : ActiveSend) : Bool :=
  decide (self.expectedNumOfArgs ≤ self.fileSpecs.length)

/-- `d[key] = value` for a dict in insertion order. -/
def setItem {α : Type} (items : List (String × α)) (key : String) (value : α) :
    List (String × α) :=
  if items.any (·.1 = key) then items.map fun item => if item.1 = key then (key, value) else item
  else items ++ [(key, value)]

/-- A signature that is being transmitted: the arguments of `transmit_rsync_signature`, and the
transfer whose file command opened the file. -/
structure SignatureJob where
  path : String
  receiveId : String
  fileId : String
  serial : Nat
  pending : List Command := []
deriving DecidableEq, Repr

/-- A callback that waits in the event loop. -/
inductive Timer where
  | tryPending
  | pumpSends
  | signature (job : SignatureJob)
deriving DecidableEq, Repr

/-- Which kind of session a prompt is for. -/
inductive Direction where
  | receive
  | send
deriving DecidableEq, Repr

/-- An open prompt: the callback knows `id` only; `serial` is the transfer it was raised for. -/
structure Prompt where
  direction : Direction
  id : String
  serial : Nat
deriving DecidableEq, Repr

/-- What is done to files on behalf of a transfer. -/
inductive Effect where
  | stat (path : String)
  | makedirs (path : String)
  | write (path : String)
  | close (path : String)
  | applyMetadata
  | readSignature (path : String)
  | reportMetadata (spec : String)
  | openSource (path : String)
  | readSource (path : String)
deriving DecidableEq, Repr

/-! ### The world -/

/-- What becomes of a write: `noWindow` when the window is gone. -/
inductive Answer where
  | queued
  | full
  | noWindow
deriving DecidableEq, Repr

/-- An exception out of a file operation. -/
inductive Failure where
  | transmission (err : TransmissionError)
  | os (errname : String)
  | other (msg : String)
deriving DecidableEq, Repr

/-- Everything the code asks of its surroundings; the first argument of each question is the count of
the questions before it. -/
structure World where
  answer : Nat → Answer
  confirms : Nat → Bool
  expired : Nat → Nat → Bool
  confirmationBypass : Nat → String
  encodeBypass : String → String → String
  homePath : Nat → String
  destFile : Nat → Command → Except String DestFile
  makedirs : Nat → String → Option String
  signatureOfFile : Nat → String → Option String
  nextSignature : Nat → String → Except String (Option (List UInt8))
  writeData : Nat → List (String × DestFile) → DestFile → Command → Except Failure DestFile
  commit : Nat → List (String × DestFile) → Option Failure
  iterFileMetadata : Nat → List (String × String) → List (Command ⊕ TransmissionError)
  sourceFile : Nat → Command → Except Failure SourceFile
  addSignature : Nat → SourceFile → Command → Except String SourceFile
  readChunk : Nat → SourceFile → Except String (List UInt8 × Bool)
  rounds : Nat → Nat

end FileTransmission

open FileTransmission in
/-- `FileTransmission`, with the callbacks and prompts that are open; `transfers` counts the sessions
so far and `clock` the questions to the world. -/
structure FileTransmission where
  activeReceives : List ActiveReceive := []
  activeSends : List ActiveSend := []
  pendingReceiveResponses : List Command := []
  pendingTimer : Bool := false
  timers : List Timer := []
  prompts : List Prompt := []
  transfers : Nat := 0
  clock : Nat := 0
  produced : List Command := []
  reached : List Command := []
  effects : List (Nat × Effect) := []
  bypassed : List Nat := []
  approved : List Nat := []
deriving DecidableEq

namespace FileTransmission

variable (world : World)

/-- `active_receives.get`. -/
def receive? (self : FileTransmission) (id : String) : Option ActiveReceive :=
  self.activeReceives.find? (·.id = id)

/-- `active_sends.get`. -/
def send? (self : FileTransmission) (id : String) : Option ActiveSend :=
  self.activeSends.find? (·.id = id)

/-- Change the object `ar`. -/
def setReceive (self : FileTransmission) (ar : ActiveReceive) : FileTransmission :=
  { self with activeReceives := self.activeReceives.map fun other =>
      if other.serial = ar.serial then ar else other }

/-- Change the object `asd`. -/
def setSend (self : FileTransmission) (asd : ActiveSend) : FileTransmission :=
  { self with activeSends := self.activeSends.map fun other =>
      if other.serial = asd.serial then asd else other }

/-- One more question has been asked. -/
def tick (self : FileTransmission) : FileTransmission := { self with clock := self.clock + 1 }

/-- Note what is done to files for a transfer. -/
def touch (self : FileTransmission) (serial : Nat) (effect : Effect) : FileTransmission :=
  { self with effects := self.effects ++ [(serial, effect)] }

/-- `callback_after`. -/
def callbackAfter (self : FileTransmission) (timer : Timer) : FileTransmission :=
  { self with timers := self.timers ++ [timer] }

/-- `drop_receive`; closing a file that is open can write it. -/
def dropReceive (self : FileTransmission) (receiveId : String) : FileTransmission :=
  match self.receive? receiveId with
  | none => self
  | some ar =>
    { self with
      activeReceives := self.activeReceives.filter (·.id ≠ receiveId)
      effects := self.effects ++ (ar.files.filter fun item =>
        !item.2.closed && item.2.opened).map fun item => (ar.serial, .close item.2.name) }

/-- `drop_send`. -/
def dropSend (self : FileTransmission) (sendId : String) : FileTransmission :=
  { self with activeSends := self.activeSends.filter (·.id ≠ sendId) }

/-- `prune_expired`. -/
def pruneExpired (self : FileTransmission) : FileTransmission :=
  let self := (self.activeReceives.map (·.id)).foldl (fun self k =>
    match self.receive? k with
    | some ar => if world.expired self.clock ar.serial then self.dropReceive k else self
    | none => self) self
  let self := (self.activeSends.map (·.id)).foldl (fun self k =>
    match self.send? k with
    | some asd => if world.expired self.clock asd.serial then self.dropSend k else self
    | none => self) self
  self.tick

/-! ### Responses -/

/-- `start_pending_timer`. -/
def startPendingTimer (self : FileTransmission) : FileTransmission :=
  if self.pendingTimer then self
  else { self with pendingTimer := true, timers := self.timers ++ [.tryPending] }

/-- `write_ftc_to_child`, and whether the child took the payload. -/
def writeFtcToChild (self : FileTransmission) (payload : Command) (appendleft usePending : Bool) :
    FileTransmission × Bool :=
  match world.answer self.clock with
  | .noWindow => (self.tick, false)
  | .queued => ({ self.tick with reached := self.reached ++ [payload] }, true)
  | .full =>
    if usePending then
      (startPendingTimer { self.tick with pendingReceiveResponses :=
        if appendleft then payload :: self.pendingReceiveResponses
        else self.pendingReceiveResponses ++ [payload] }, false)
    else (self.tick, false)

/-- New responses, before they are written. -/
def produce (self : FileTransmission) (payloads : List Command) : FileTransmission :=
  { self with produced := self.produced ++ payloads }

/-- A new response, as `write_ftc_to_child(payload)` writes it. -/
def respond (self : FileTransmission) (payload : Command) : FileTransmission :=
  ((self.produce [payload]).writeFtcToChild world payload false true).1

/-- `send_status_response`. -/
def sendStatusResponse (self : FileTransmission) (requestId : String) (err : TransmissionError) :
    FileTransmission :=
  self.respond world (err.asFtc requestId)

/-- `send_transmission_error`. -/
def sendTransmissionError (self : FileTransmission) (requestId : String)
    (err : TransmissionError) : FileTransmission :=
  if err.transmit then self.respond world (err.asFtc requestId) else self

/-- `send_fail_on_os_error`. -/
def sendFailOnOsError (self : FileTransmission) (errname msg : String) (sendErrors : Bool)
    (requestId fileId : String) : FileTransmission :=
  if sendErrors then
    self.sendStatusResponse world requestId { code := errname, msg, fileId }
  else self

/-- One round of the loop of `try_pending`, and whether the loop goes on. -/
def retry (self : FileTransmission) : FileTransmission × Bool :=
  match self.pendingReceiveResponses with
  | [] => (self, false)
  | payload :: rest =>
    let self := { self with pendingReceiveResponses := rest }
    match self.receive? payload.id with
    | none => (self, true)
    | some _ => self.writeFtcToChild world payload true true

/-- The loop of `try_pending`, with the rounds still possible. -/
def retryAll : Nat → FileTransmission → FileTransmission
  | 0, self => self
  | rounds + 1, self =>
    match self.retry world with
    | (self, true) => retryAll rounds self
    | (self, false) => self

/-- `try_pending`. -/
def tryPending (self : FileTransmission) : FileTransmission :=
  pruneExpired world (retryAll world self.pendingReceiveResponses.length
    { self with pendingTimer := false })

/-! ### Chunks of a send session -/

/-- The loop of `ActiveSend.next_chunk` over the reads of the active file, with the rounds still
possible: what the next chunk is, or the name of the error. -/
def readFile (af : SourceFile) (asd : ActiveSend) :
    Nat → FileTransmission → FileTransmission × ActiveSend × Except String (Option Command)
  | 0, self => (self, { asd with activeFile := some af }, .ok none)
  | rounds + 1, self =>
    let next := self.tick.touch asd.serial (.readSource af.path)
    match world.readChunk self.clock af with
    | .error errname => (next, { asd with activeFile := some af }, .error errname)
    | .ok (chunk, transmitted) =>
      let asd := { asd with
        activeFile := if transmitted then none else some { af with transmitted } }
      match splitForTransfer chunk "" af.fileId transmitted with
      | first :: rest =>
        (next.produce ((first :: rest).map fun ftc => { ftc with id := asd.id }),
          { asd with pendingChunks := rest }, .ok (some first))
      | [] =>
        if transmitted then
          (next.produce [{ action := .endData, fileId := af.fileId, id := asd.id }], asd,
            .ok (some { action := .endData, fileId := af.fileId }))
        else readFile af asd rounds next

/-- `ActiveSend.next_chunk`. -/
def nextChunk (self : FileTransmission) (asd : ActiveSend) :
    FileTransmission × ActiveSend × Except String (Option Command) :=
  match asd.pendingChunks with
  | first :: rest => (self, { asd with pendingChunks := rest }, .ok (some first))
  | [] =>
    match asd.activeFile with
    | some af => readFile world af asd (world.rounds self.clock) self
    | none =>
      match asd.queuedFilesMap.find? (·.2.readyToTransmit) with
      | none => (self, asd, .ok none)
      | some (key, af) =>
        readFile world af
          { asd with queuedFilesMap := asd.queuedFilesMap.filter (·.1 ≠ key) }
          (world.rounds self.clock) self

/-- Write the chunk that `next_chunk` gave, or return it; the flag says whether the loop goes on. -/
def writeChunk (self : FileTransmission) (asd : ActiveSend) (ftc : Command) :
    FileTransmission × Bool :=
  let ftc := { ftc with id := asd.id }
  match self.writeFtcToChild world ftc false false with
  | (self, true) => (self, true)
  | (self, false) =>
    ((self.setSend { asd with pendingChunks := ftc :: asd.pendingChunks }).callbackAfter
      .pumpSends, false)

/-- One round of the loop of `pump_send_chunks`, and whether the loop goes on. -/
def pumpRound (self : FileTransmission) (asd : ActiveSend) : FileTransmission × Bool :=
  match self.nextChunk world asd with
  | (self, asd, .error errname) =>
    let fileId := match asd.activeFile with
      | some af => af.fileId
      | none => ""
    (((self.setSend asd).sendFailOnOsError world errname "Failed to read data from file"
      asd.sendErrors asd.id fileId).dropSend asd.id, false)
  | (self, asd, .ok none) => (self.setSend asd, false)
  | (self, asd, .ok (some ftc)) => (self.setSend asd).writeChunk world asd ftc

/-- `pump_send_chunks`, with the rounds still possible. -/
def pumpSendChunks (sendId : String) : Nat → FileTransmission → FileTransmission
  | 0, self => self
  | rounds + 1, self =>
    match self.send? sendId with
    | none => self
    | some asd =>
      match self.pumpRound world asd with
      | (self, true) => pumpSendChunks sendId rounds self
      | (self, false) => self

/-- `pump_sends` over the keys of `active_sends`: the loop fails when the dict changes its size. -/
def pumpSends : List String → FileTransmission → FileTransmission
  | [], self => self
  | id :: rest, self =>
    match self.send? id with
    | none => self
    | some asd =>
      if asd.metadataSent then
        let next := pumpSendChunks world id (world.rounds self.clock) self
        if next.activeSends.length = self.activeSends.length then pumpSends rest next
        else next
      else pumpSends rest self

/-! ### Signatures -/

/-- Write chunks until one is refused: what is left. -/
def writeUntilFull : List Command → FileTransmission → FileTransmission × List Command
  | [], self => (self, [])
  | ftc :: rest, self =>
    match self.writeFtcToChild world ftc false false with
    | (self, true) => writeUntilFull rest self
    | (self, false) => (self, ftc :: rest)

/-- `transmit_rsync_signature`. -/
def transmitRsyncSignature (self : FileTransmission) (job : SignatureJob) : FileTransmission :=
  match self.receive? job.receiveId with
  | none => self
  | some ar =>
    match writeUntilFull world job.pending self with
    | (self, first :: rest) => self.callbackAfter (.signature { job with pending := first :: rest })
    | (self, []) =>
      let next := self.tick.touch job.serial (.readSignature job.path)
      let last : Command := { action := .endData, id := job.receiveId, fileId := job.fileId }
      match world.nextSignature self.clock job.path with
      | .error errname =>
        next.sendFailOnOsError world errname "Failed to read signature" ar.sendErrors ar.id
          job.fileId
      | .ok none => next.respond world last
      | .ok (some []) => next.respond world last
      | .ok (some chunk) =>
        let chunks := splitForTransfer chunk job.receiveId job.fileId false
        let written := writeUntilFull world chunks (next.produce chunks)
        written.1.callbackAfter (.signature { job with pending := written.2 })

end FileTransmission

end Smelly
