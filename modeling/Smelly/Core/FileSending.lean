/-
Module: Smelly.Core.FileSending
Purpose: How the contents of files become the data commands of a send session: the reads of one
  file and its compressor, the queue of files, the chunks cut from what was read, and the pump that
  writes them to the child.
Trusted boundary: human-reviewed model of SourceFile, ActiveSend and pump_send_chunks in
  smelly/file_transmission.py and of the compressors in welly/transfer/utils.py, for a session whose
  metadata has been sent.  The compression object of zlib is a parameter; files do not change while
  they are sent, and a file that could be opened can be read.  The sessions of a connection, their
  timers and the signatures of rsync are the subject of Smelly.Core.FileTransmission
-/
import Smelly.Core.FileTransmission

namespace Smelly

namespace FileSending

open FileTransmission (Command Failure splitForTransfer setItem)

/-- What `zlib.compressobj` gives: its first state and what its methods do. -/
structure Zlib (σ : Type) where
  compressobj : σ
  compress : σ → List UInt8 → σ × List UInt8
  flush : σ → List UInt8

/-- `IdentityCompressor` and `ZlibCompressor`, the second with the state of its object. -/
inductive Compressor (σ : Type) where
  | identity
  | zlib (c : σ)
deriving DecidableEq, Repr

variable {σ : Type} (z : Zlib σ)

/-- `compress`. -/
def Compressor.compress : Compressor σ → List UInt8 → Compressor σ × List UInt8
  | .identity, data => (.identity, data)
  | .zlib c, data => (.zlib (z.compress c data).1, (z.compress c data).2)

/-- `flush`, which `next_chunk` leaves out for the identity. -/
def Compressor.flush : Compressor σ → List UInt8
  | .identity => []
  | .zlib c => z.flush c

/-! ### One file -/

/-- What `os.stat` finds at a path. -/
inductive Inode where
  | absent (errname : String)
  | directory
  | symlink (target : List UInt8)
  | regular (content : List UInt8)
deriving DecidableEq, Repr

/-- `SourceFile`; `position` is what `open_file.tell()` answers, `size` is `stat.st_size`, and
`deltaLoader` is what the iterator still yields. -/
structure SourceFile (σ : Type) where
  fileId : String
  path : String
  waitingForSignature : Bool := false
  transmitted : Bool := false
  size : Nat := 0
  compressor : Compressor σ := .identity
  target : List UInt8 := []
  openFile : Option (List UInt8) := none
  position : Nat := 0
  deltaLoader : Option (List (List UInt8)) := none
deriving DecidableEq, Repr

/-- `SourceFile(ftc)`. -/
def SourceFile.make (ftc : Command) : Inode → Except Failure (SourceFile σ)
  | .absent errname => .error (.os errname)
  | .directory =>
    .error (.transmission { msg := "Cannot send a directory", fileId := ftc.fileId })
  | .symlink target =>
    .ok { fileId := ftc.fileId, path := ftc.name
          waitingForSignature := decide (ftc.ttype = .rsync), target }
  | .regular content =>
    .ok { fileId := ftc.fileId, path := ftc.name
          waitingForSignature := decide (ftc.ttype = .rsync), size := content.length
          openFile := some content
          compressor := if ftc.compression = .zlib then .zlib z.compressobj else .identity }

/-- `ready_to_transmit`. -/
def SourceFile.readyToTransmit (self : SourceFile σ) : Bool :=
  !self.transmitted && !self.waitingForSignature

/-- `close`. -/
def SourceFile.close (self : SourceFile σ) : SourceFile σ :=
  { self with openFile := none, deltaLoader := none }

/-- The branches of `next_chunk` that fetch `data`. -/
def SourceFile.fetch (self : SourceFile σ) (sz : Nat) : SourceFile σ × List UInt8 :=
  if self.target ≠ [] then ({ self with transmitted := true }, self.target)
  else
    match self.openFile, self.deltaLoader with
    | none, _ => ({ self with transmitted := true }, [])
    | some content, none =>
      let data := (content.drop self.position).take sz
      let tell := self.position + data.length
      ({ self with position := tell
                   transmitted := self.transmitted || decide (data = [] ∨ self.size ≤ tell) },
        data)
    | some _, some (data :: more) => ({ self with deltaLoader := some more }, data)
    | some _, some [] => ({ self with transmitted := true }, [])

/-- `SourceFile.next_chunk`, without the count of bytes that its caller ignores. -/
def SourceFile.nextChunk (self : SourceFile σ) (sz : Nat) : SourceFile σ × List UInt8 :=
  let (self, data) := self.fetch sz
  let (compressor, cchunk) := self.compressor.compress z data
  let self := { self with compressor }
  if self.transmitted then (self.close, cchunk ++ compressor.flush z) else (self, cchunk)

/-! ### The session -/

/-- `ActiveSend`, as far as the transfer of data reads it. -/
structure ActiveSend (σ : Type) where
  id : String
  queuedFilesMap : List (String × SourceFile σ) := []
  activeFile : Option (SourceFile σ) := none
  pendingChunks : List Command := []
deriving DecidableEq, Repr

/-- `add_send_file`. -/
def ActiveSend.addSendFile (self : ActiveSend σ) (cmd : Command) (inode : Inode) :
    Except Failure (ActiveSend σ) :=
  if 32768 < self.queuedFilesMap.length then
    .error (.transmission { msg := "Too many queued files" })
  else do
    let file ← SourceFile.make z cmd inode
    return { self with queuedFilesMap := setItem self.queuedFilesMap cmd.fileId file }

/-- The file that `next_chunk` reads: the active one, or the first of the queue that is ready. -/
def ActiveSend.chooseFile (self : ActiveSend σ) : Option (ActiveSend σ × SourceFile σ) :=
  match self.activeFile with
  | some af => some (self, af)
  | none =>
    match (self.queuedFilesMap.map (·.2)).find? (·.readyToTransmit) with
    | none => none
    | some af =>
      some ({ self with
        activeFile := some af
        queuedFilesMap := self.queuedFilesMap.filter (·.1 ≠ af.fileId) }, af)

/-- The reads that a file can still take. -/
def SourceFile.reads (self : SourceFile σ) : Nat :=
  match self.deltaLoader with
  | none => self.size - self.position + 1
  | some chunks => chunks.length + 1

/-- The loop of `ActiveSend.next_chunk`: reads until there is a chunk or the file has come to its
end, with the rounds still possible. -/
def SourceFile.readChunk : Nat → SourceFile σ → SourceFile σ × List UInt8
  | 0, af => (af, [])
  | rounds + 1, af =>
    let (af, chunk) := af.nextChunk z 1048576
    if af.transmitted then (af, chunk)
    else if chunk ≠ [] then (af, chunk)
    else SourceFile.readChunk rounds af

/-- `ActiveSend.next_chunk`. -/
def ActiveSend.nextChunk (self : ActiveSend σ) : ActiveSend σ × Option Command :=
  match self.pendingChunks with
  | ftc :: rest => ({ self with pendingChunks := rest }, some ftc)
  | [] =>
    match self.chooseFile with
    | none => (self, none)
    | some (self, af) =>
      let (af, chunk) := af.readChunk z af.reads
      let self := { self with activeFile := if af.transmitted then none else some af }
      match splitForTransfer chunk "" af.fileId af.transmitted with
      | ftc :: rest => ({ self with pendingChunks := self.pendingChunks ++ rest }, some ftc)
      | [] =>
        if af.transmitted then (self, some { action := .endData, fileId := af.fileId })
        else (self, none)

/-- `return_chunk`. -/
def ActiveSend.returnChunk (self : ActiveSend σ) (ftc : Command) : ActiveSend σ :=
  { self with pendingChunks := ftc :: self.pendingChunks }

/-! ### The pump -/

/-- A session and the writes that were tried for it, with their answers; `dropped` once an error has
ended it. -/
structure Sending (σ : Type) where
  asd : ActiveSend σ
  attempts : List (Command × Bool) := []
  dropped : Bool := false
deriving DecidableEq, Repr

/-- The commands that the child was given. -/
def Sending.emitted (self : Sending σ) : List Command :=
  (self.attempts.filter (·.2)).map (·.1)

/-- One round of the loop of `pump_send_chunks`, with the answer of `write_ftc_to_child`, and
whether the loop goes on. -/
def Sending.pumpRound (self : Sending σ) (accepted : Bool) : Sending σ × Bool :=
  match self.asd.nextChunk z with
  | (asd, none) => ({ self with asd }, false)
  | (asd, some ftc) =>
    let ftc := { ftc with id := asd.id }
    let attempts := self.attempts ++ [(ftc, accepted)]
    if accepted then ({ self with asd, attempts }, true)
    else ({ self with asd := asd.returnChunk ftc, attempts }, false)

/-- `pump_send_chunks`, with the answers to its writes; a write beyond them is refused. -/
def Sending.pumpSendChunks : List Bool → Sending σ → Sending σ
  | [], self => (self.pumpRound z false).1
  | accepted :: answers, self =>
    match self.pumpRound z accepted with
    | (self, true) => Sending.pumpSendChunks answers self
    | (self, false) => self

/-- What reaches a session: a `file` command, with what is found at its path, and the timer.  Both
pump. -/
inductive Event where
  | file (cmd : Command) (inode : Inode) (answers : List Bool)
  | timer (answers : List Bool)
deriving DecidableEq, Repr

/-- The branch of `handle_send_cmd` for `file` commands, and `pump_sends`. -/
def Sending.handle (self : Sending σ) (event : Event) : Sending σ :=
  if self.dropped then self
  else
    match event with
    | .timer answers => self.pumpSendChunks z answers
    | .file cmd inode answers =>
      match self.asd.addSendFile z cmd inode with
      | .error _ => { self with dropped := true }
      | .ok asd => Sending.pumpSendChunks z answers { self with asd }

/-- A session over the events that reach it. -/
def Sending.run (id : String) (events : List Event) : Sending σ :=
  events.foldl (Sending.handle z) { asd := { id } }

end FileSending

end Smelly
