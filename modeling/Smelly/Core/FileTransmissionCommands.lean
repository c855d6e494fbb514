/-
Module: Smelly.Core.FileTransmissionCommands
Purpose: What the commands of the child, the answers to permission prompts and the timers do to the
  transfer sessions: one step of the file transmission machine.
Trusted boundary: human-reviewed model of FileTransmission in smelly/file_transmission.py.  Log
  messages and the times of last activity are left out; whether a session has expired is asked of the
  world
-/
import Smelly.Core.FileTransmission

namespace Smelly

namespace FileTransmission

variable (world : World)

/-- The `bypass_ok` of a new session. -/
def bypassOk (clock : Nat) (requestId bypass : String) : Option Bool :=
  if bypass = "" then none
  else
    let byp := world.confirmationBypass clock
    some (byp ≠ "" && world.encodeBypass requestId byp == bypass)

/-! ### Permission -/

/-- `handle_send_confirmation`: permission for a receive session. -/
def handleSendConfirmation (self : FileTransmission) (confirmed : Bool) (cmdId : String) :
    FileTransmission :=
  match self.receive? cmdId with
  | none => self
  | some ar =>
    let accepted := confirmed || ar.accepted
    let self := if confirmed then self.setReceive { ar with accepted := true }
      else self.dropReceive ar.id
    if accepted then
      if ar.sendAcknowledgements then
        self.sendStatusResponse world ar.id { code := "OK", msg := "" }
      else self
    else if ar.sendErrors then
      self.sendStatusResponse world ar.id { code := "EPERM", msg := "User refused the transfer" }
    else self

/-- The loop of `send_metadata_for_send_transfer`. -/
def sendMetadata (asd : ActiveSend) :
    List (Command ⊕ TransmissionError) → FileTransmission → FileTransmission
  | [], self => self
  | .inl ftc :: rest, self => sendMetadata asd rest (self.respond world { ftc with id := asd.id })
  | .inr err :: rest, self =>
    sendMetadata asd rest
      (if asd.sendErrors then self.sendTransmissionError world asd.id err else self)

/-- `send_metadata_for_send_transfer`. -/
def sendMetadataForSendTransfer (self : FileTransmission) (asd : ActiveSend) : FileTransmission :=
  let items := world.iterFileMetadata self.clock asd.fileSpecs
  let self := { self.tick with
    effects := self.effects ++
      asd.fileSpecs.map fun spec => (asd.serial, .reportMetadata spec.2) }
  let self := sendMetadata world asd items self
  if items ≠ [] then
    (self.sendStatusResponse world asd.id
      { code := "OK", msg := "", name := world.homePath self.clock }).setSend
        { asd with metadataSent := true }
  else
    (self.sendStatusResponse world asd.id
      { code := "ENOENT", msg := "No files found" }).dropSend asd.id

/-- `handle_receive_confirmation`: permission for a send session. -/
def handleReceiveConfirmation (self : FileTransmission) (confirmed : Bool) (cmdId : String) :
    FileTransmission :=
  match self.send? cmdId with
  | none => self
  | some asd =>
    let asd := { asd with accepted := confirmed || asd.accepted }
    let self := if confirmed then self.setSend asd else self.dropSend asd.id
    if asd.accepted then
      let self := if asd.sendAcknowledgements then
        self.sendStatusResponse world asd.id { code := "OK", msg := "" } else self
      if asd.specComplete then self.sendMetadataForSendTransfer world asd else self
    else if asd.sendErrors then
      self.sendStatusResponse world asd.id { code := "EPERM", msg := "User refused the transfer" }
    else self

/-- `start_receive`. -/
def startReceive (self : FileTransmission) (ar : ActiveReceive) : FileTransmission :=
  match ar.bypassOk with
  | some ok =>
    handleSendConfirmation world
      { self with bypassed := if ok then self.bypassed ++ [ar.serial] else self.bypassed } ok ar.id
  | none =>
    if world.confirms self.clock then
      { self with prompts := self.prompts ++
        [{ direction := .receive, id := ar.id, serial := ar.serial }] }
    else self

/-- `start_send`. -/
def startSend (self : FileTransmission) (asd : ActiveSend) : FileTransmission :=
  match asd.bypassOk with
  | some ok =>
    handleReceiveConfirmation world
      { self with bypassed := if ok then self.bypassed ++ [asd.serial] else self.bypassed } ok
      asd.id
  | none =>
    if world.confirms self.clock then
      { self with prompts := self.prompts ++
        [{ direction := .send, id := asd.id, serial := asd.serial }] }
    else self

/-! ### Commands for a receive session -/

/-- The errors of a receive session that are reported. -/
def reportError (self : FileTransmission) (sendErrors : Bool) (requestId : String)
    (err : TransmissionError) : FileTransmission :=
  if sendErrors then self.sendTransmissionError world requestId err else self

/-- The error that a failure is reported as. -/
def Failure.asError (fileId : String) : Failure → TransmissionError
  | .transmission err => err
  | .os errname => { fileId, msg := errname }
  | .other msg => { fileId, msg }

/-- A file that is no directory is started: `file` of `handle_receive_cmd`, where an acknowledgement
is wanted. -/
def startedFile (self : FileTransmission) (ar : ActiveReceive) (df : DestFile) :
    FileTransmission :=
  let sz := df.existingSize.getD (-1)
  let ttype := if sz > -1 ∧ df.ttype = .rsync ∧ df.ftype = .regular then
    TransmissionType.rsync else .simple
  let self := self.sendStatusResponse world ar.id
    { code := "STARTED", msg := "", fileId := df.fileId, name := df.name, size := sz, ttype }
  let self := self.setReceive
    { ar with files := setItem ar.files df.fileId { df with ttype := ttype } }
  if ttype = .rsync then
    let next := self.tick.touch ar.serial (.readSignature df.name)
    match world.signatureOfFile self.clock df.name with
    | some errname =>
      next.sendFailOnOsError world errname "Failed to open file to read signature" ar.sendErrors
        ar.id df.fileId
    | none =>
      next.callbackAfter (.signature
        { path := df.name, receiveId := ar.id, fileId := df.fileId, serial := ar.serial })
  else self

/-- `file` of `handle_receive_cmd`. -/
def receiveFile (self : FileTransmission) (ar : ActiveReceive) (cmd : Command) :
    FileTransmission :=
  if ar.files.any (·.1 = cmd.fileId) then
    self.reportError world ar.sendErrors ar.id
      { msg := "The file_id " ++ cmd.fileId ++ " already exists", fileId := cmd.fileId }
  else
    let next := self.tick.touch ar.serial (.stat cmd.name)
    match world.destFile self.clock cmd with
    | .error msg => next.reportError world ar.sendErrors ar.id { fileId := cmd.fileId, msg }
    | .ok df =>
      let ar := { ar with files := setItem ar.files cmd.fileId df }
      let self := next.setReceive ar
      if df.ftype = .directory then
        let next := self.tick.touch ar.serial (.makedirs df.name)
        match world.makedirs self.clock df.name with
        | some errname =>
          next.sendFailOnOsError world errname "Failed to create directory" ar.sendErrors ar.id
            df.fileId
        | none =>
          next.sendStatusResponse world ar.id
            { code := "OK", msg := "", fileId := df.fileId, name := df.name }
      else if ar.sendAcknowledgements then self.startedFile world ar df
      else self

/-- `DestFile.write_data`. -/
def writeData (self : FileTransmission) (ar : ActiveReceive) (df : DestFile) (cmd : Command) :
    FileTransmission × Except Failure DestFile :=
  if df.ftype = .directory then
    (self, .error (.transmission
      { code := "EISDIR", fileId := df.fileId, msg := "Cannot write data to a directory entry" }))
  else if df.closed then
    (self, .error (.transmission { fileId := df.fileId, msg := "Cannot write to a closed file" }))
  else
    (self.tick.touch ar.serial (.write df.name), world.writeData self.clock ar.files df cmd)

/-- `data` and `end_data` of `handle_receive_cmd`. -/
def receiveData (self : FileTransmission) (ar : ActiveReceive) (cmd : Command) :
    FileTransmission :=
  match ar.files.lookup cmd.fileId with
  | none =>
    self.reportError world ar.sendErrors ar.id
      { fileId := cmd.fileId, msg := "Cannot write to a file without first starting it" }
  | some df =>
    if df.failed then self
    else
      match self.writeData world ar df cmd with
      | (self, .error failure) =>
        let closing := !df.closed && df.opened
        let self := self.setReceive { ar with
          files := setItem ar.files cmd.fileId { df with failed := true, closed := true } }
        let self := if closing then self.touch ar.serial (.close df.name) else self
        self.reportError world ar.sendErrors ar.id (failure.asError cmd.fileId)
      | (self, .ok written) =>
        let self := self.setReceive { ar with files := setItem ar.files cmd.fileId written }
        if ar.sendAcknowledgements then
          if written.closed then
            self.sendStatusResponse world ar.id
              { code := "OK", msg := "", fileId := written.fileId, name := written.name
                size := written.bytesWritten }
          else if written.bytesWritten > df.bytesWritten then
            self.sendStatusResponse world ar.id
              { code := "PROGRESS", msg := "", fileId := written.fileId
                size := written.bytesWritten }
          else self
        else self

/-- `finish` of `handle_receive_cmd`. -/
def receiveFinish (self : FileTransmission) (ar : ActiveReceive) : FileTransmission :=
  let next := self.tick.touch ar.serial .applyMetadata
  match world.commit self.clock ar.files with
  | some failure =>
    (next.reportError world ar.sendErrors ar.id (failure.asError "")).dropReceive ar.id
  | none => next.dropReceive ar.id

/-- `handle_receive_cmd`. -/
def handleReceiveCmd (self : FileTransmission) (cmd : Command) : FileTransmission :=
  match self.receive? cmd.id with
  | none =>
    if cmd.action ≠ .send then self
    else if self.activeReceives.length ≥ 10 then self
    else
      let ar : ActiveReceive :=
        { id := cmd.id, serial := self.transfers
          bypassOk := bypassOk world self.clock cmd.id cmd.bypass
          sendAcknowledgements := cmd.quiet < 1, sendErrors := cmd.quiet < 2 }
      startReceive world { self.tick with
        activeReceives := self.activeReceives ++ [ar], transfers := self.transfers + 1 } ar
  | some ar =>
    if cmd.action = .send then self.dropReceive cmd.id
    else if !ar.accepted then self.dropReceive cmd.id
    else
      match cmd.action with
      | .cancel =>
        let self := self.dropReceive ar.id
        if ar.sendAcknowledgements then
          self.sendStatusResponse world ar.id { code := "CANCELED", msg := "" }
        else self
      | .file => self.receiveFile world ar cmd
      | .data => self.receiveData world ar cmd
      | .endData => self.receiveData world ar cmd
      | .finish => self.receiveFinish world ar
      | _ => self

/-! ### Commands for a send session -/

/-- `add_send_file` of an accepted session and what follows it. -/
def addSendFile (self : FileTransmission) (asd : ActiveSend) (cmd : Command) : FileTransmission :=
  if asd.queuedFilesMap.length > 32768 then
    (self.dropSend asd.id).reportError world asd.sendErrors asd.id
      { code := "EINVAL", msg := "Too many queued files" }
  else
    let next := self.tick.touch asd.serial (.openSource cmd.name)
    match world.sourceFile self.clock cmd with
    | .error (.os errname) =>
      (next.sendFailOnOsError world errname "Failed to add send file" asd.sendErrors asd.id
        cmd.fileId).dropSend asd.id
    | .error (.transmission err) =>
      (next.dropSend asd.id).reportError world asd.sendErrors asd.id err
    | .error (.other _) => next
    | .ok file =>
      pumpSendChunks world asd.id (world.rounds self.clock)
        (next.setSend
          { asd with queuedFilesMap := setItem asd.queuedFilesMap cmd.fileId file })

/-- `add_file_spec` of a session whose metadata is not sent, and what follows it. -/
def addFileSpec (self : FileTransmission) (asd : ActiveSend) (cmd : Command) : FileTransmission :=
  if asd.fileSpecs.length > 8192 ∨ asd.specComplete then
    (self.dropSend asd.id).reportError world asd.sendErrors asd.id
      { code := "EINVAL", msg := "Too many file specs" }
  else
    let asd := { asd with fileSpecs := asd.fileSpecs ++ [(cmd.fileId, cmd.name)] }
    let self := self.setSend asd
    if asd.specComplete ∧ asd.accepted then self.sendMetadataForSendTransfer world asd else self

/-- `data` and `end_data` of `handle_send_cmd`; the flag says that an exception leaves the handler. -/
def addSignatureData (self : FileTransmission) (asd : ActiveSend) (cmd : Command) :
    FileTransmission × Bool :=
  match asd.queuedFilesMap.lookup cmd.fileId with
  | none =>
    ((self.dropSend asd.id).reportError world asd.sendErrors asd.id
      { code := "EINVAL", msg := "Signature data for unknown file_id: " ++ cmd.fileId }, false)
  | some file =>
    if !file.usesRsync then
      ((self.dropSend asd.id).reportError world asd.sendErrors asd.id
        { code := "EINVAL"
          msg := "Signature data for file that is not using rsync: " ++ cmd.fileId }, false)
    else
      let next := if cmd.action = .endData then
        self.tick.touch asd.serial (.readSource file.path) else self.tick
      match world.addSignature self.clock file cmd with
      | .error _ => (next, true)
      | .ok file =>
        (pumpSendChunks world asd.id (world.rounds self.clock) (next.setSend
          { asd with queuedFilesMap := setItem asd.queuedFilesMap cmd.fileId file }), false)

/-- `handle_send_cmd`. -/
def handleSendCmd (self : FileTransmission) (cmd : Command) : FileTransmission :=
  match self.send? cmd.id with
  | none =>
    if cmd.action ≠ .receive then self
    else if self.activeSends.length ≥ 10 then self
    else
      let asd : ActiveSend :=
        { id := cmd.id, serial := self.transfers, expectedNumOfArgs := cmd.size
          bypassOk := bypassOk world self.clock cmd.id cmd.bypass
          sendAcknowledgements := cmd.quiet < 1, sendErrors := cmd.quiet < 2 }
      startSend world { self.tick with
        activeSends := self.activeSends ++ [asd], transfers := self.transfers + 1 } asd
  | some asd =>
    match cmd.action with
    | .receive => self.dropSend cmd.id
    | .file =>
      if asd.metadataSent then self.addSendFile world asd cmd
      else self.addFileSpec world asd cmd
    | .data | .endData =>
      match self.addSignatureData world asd cmd with
      | (self, true) => self
      | (self, false) => if !asd.accepted then self.dropSend cmd.id else self
    | .status | .finish => self.dropSend asd.id
    | .cancel =>
      if !asd.accepted then self.dropSend cmd.id
      else
        let self := self.dropSend asd.id
        if asd.sendAcknowledgements then
          self.sendStatusResponse world asd.id { code := "CANCELED", msg := "" }
        else self
    | .send | .invalid => if !asd.accepted then self.dropSend cmd.id else self

/-! ### The machine -/

/-- `handle_serialized_command`, once the command is parsed; a command without an action does not
parse. -/
def handleSerializedCommand (self : FileTransmission) (cmd : Command) : FileTransmission :=
  if cmd.action = .invalid ∨ cmd.id = "" then self
  else if cmd.action = .cancel ∧ (self.receive? cmd.id).isSome then self.handleReceiveCmd world cmd
  else if cmd.action = .cancel ∧ (self.send? cmd.id).isSome then self.handleSendCmd world cmd
  else
    let self := self.pruneExpired world
    let self := if (self.receive? cmd.id).isSome ∨ cmd.action = .send then
      self.handleReceiveCmd world cmd else self
    if (self.send? cmd.id).isSome ∨ cmd.action = .receive then
      self.handleSendCmd world cmd else self

/-- What happens to the machine: a command of the child, the answer to the `i`-th open prompt, or the
`i`-th waiting callback. -/
inductive Event where
  | command (cmd : Command)
  | answer (i : Nat) (confirmed : Bool)
  | timer (i : Nat)
deriving DecidableEq, Repr

/-- The user answers a prompt. -/
def answerPrompt (self : FileTransmission) (prompt : Prompt) (confirmed : Bool) :
    FileTransmission :=
  let self := { self with
    approved := if confirmed then self.approved ++ [prompt.serial] else self.approved }
  match prompt.direction with
  | .receive => self.handleSendConfirmation world confirmed prompt.id
  | .send => self.handleReceiveConfirmation world confirmed prompt.id

/-- A callback runs. -/
def runTimer (self : FileTransmission) : Timer → FileTransmission
  | .tryPending => self.tryPending world
  | .pumpSends => self.pumpSends world (self.activeSends.map (·.id))
  | .signature job => self.transmitRsyncSignature world job

/-- One step: `none` for the answer to a prompt that is not open and for a callback that does not
wait. -/
def step (self : FileTransmission) : Event → Option FileTransmission
  | .command cmd => some (self.tick.handleSerializedCommand world cmd)
  | .answer i confirmed => do
      let prompt ← self.prompts[i]?
      return answerPrompt world { self.tick with prompts := self.prompts.eraseIdx i } prompt
        confirmed
  | .timer i => do
      let timer ← self.timers[i]?
      return runTimer world { self.tick with timers := self.timers.eraseIdx i } timer

end FileTransmission

end Smelly
