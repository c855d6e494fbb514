/-
Module: Smelly.Core.ChildMonitor
Purpose: The two outgoing queues of `child-monitor.c`: the write buffer of a child, filled by
  `schedule_write_to_child` and drained by `write_to_child`, and the write buffer of a remote
  control peer, filled by `send_response_to_peer` and drained by `write_to_peer`.
Trusted boundary: human-reviewed model of the named functions.  The mutexes make each call one
  step.  Sizes are `Nat`: the bytes written lie in memory, so that no sum of them wraps.
-/
import Smelly.Core.Charsets
import Smelly.Lib.MemoryBlock
import Mathlib.Algebra.Ring.Nat

namespace Smelly

open MemoryBlock

/-! ### Writing to a child -/

/-- The fields `write_buf`, `write_buf_sz` and `write_buf_used` of `Screen`. -/
structure WriteBuf where
  writeBuf : Bytes
  writeBufSz : Nat
  writeBufUsed : Nat
deriving DecidableEq, Repr

/-- What `new` in `screen.c` allocates. -/
def WriteBuf.new (bufsiz : Nat) : WriteBuf where
  writeBuf := List.replicate bufsiz 0
  writeBufSz := bufsiz
  writeBufUsed := 0

/-- The bytes that wait to be written. -/
def WriteBuf.pending (self : WriteBuf) : Bytes := self.writeBuf.take self.writeBufUsed

/-- Set `write_buf_sz` and `PyMem_RawRealloc` the buffer to it. -/
def WriteBuf.realloc (self : WriteBuf) (size : Nat) : WriteBuf :=
  { self with writeBuf := resize 0 self.writeBuf size, writeBufSz := size }

/-- The loop that copies the pieces behind what the buffer holds. -/
def WriteBuf.append (self : WriteBuf) : List Bytes → Option WriteBuf
  | [] => some self
  | data :: rest => do
      let writeBuf ← copyIn self.writeBuf self.writeBufUsed data
      WriteBuf.append { self with writeBuf, writeBufUsed := self.writeBufUsed + data.length } rest

/-- More than this many bytes are not kept for a child. -/
def writeLimit : Nat := 100 * 1024 * 1024

/-- What `schedule_write_to_child_generic` does to the screen it finds, and whether it sets
`found`.  `BUFSIZ` is the C library's. -/
def WriteBuf.schedule (bufsiz : Nat) (self : WriteBuf) (pieces : List Bytes) :
    Option (Bool × WriteBuf) :=
  let sz := (pieces.map List.length).sum
  let spaceLeft := self.writeBufSz - self.writeBufUsed
  if spaceLeft < sz ∧ self.writeBufUsed + sz > writeLimit then
    some (false, self)
  else do
    let filled ← WriteBuf.append
      (if spaceLeft < sz then self.realloc (self.writeBufUsed + sz) else self) pieces
    some (true,
      if filled.writeBufSz > bufsiz ∧ filled.writeBufUsed < bufsiz then filled.realloc bufsiz
      else filled)

structure Child where
  id : Nat
  screen : WriteBuf
deriving DecidableEq, Repr

/-- `schedule_write_to_child_generic`. -/
def scheduleWriteToChild (bufsiz id : Nat) (pieces : List Bytes) :
    List Child → Option (Bool × List Child)
  | [] => some (false, [])
  | child :: rest =>
    if child.id = id then do
      let (found, screen) ← child.screen.schedule bufsiz pieces
      some (found, { child with screen } :: rest)
    else do
      let (found, rest) ← scheduleWriteToChild bufsiz id pieces rest
      some (found, child :: rest)

/-- What one call of `write` on the child's descriptor answers. -/
inductive WriteAnswer where
  /-- Takes the first `n` of the bytes offered, or all of them when they are fewer. -/
  | wrote (n : Nat)
  | eintr
  | eagain
  /-- Any other `errno`. -/
  | failed
deriving DecidableEq, Repr

/-- The loop of `write_to_child`: `written`, and the bytes the child has got.  When the answers
end, the next call of `write` would block. -/
def WriteBuf.writeLoop (self : WriteBuf) :
    (written : Nat) → (handed : Bytes) → List WriteAnswer → Nat × Bytes
  | written, handed, [] => (written, handed)
  | written, handed, answer :: rest =>
    if written < self.writeBufUsed then
      match answer with
      | .wrote n =>
        let taken := ((self.writeBuf.drop written).take (self.writeBufUsed - written)).take n
        -- `ret == 0` could mean anything: the loop ends
        if taken = [] then (written, handed)
        else WriteBuf.writeLoop self (written + taken.length) (handed ++ taken) rest
      | .eintr => WriteBuf.writeLoop self written handed rest
      | .eagain => (written, handed)
      -- the data is discarded
      | .failed => WriteBuf.writeLoop self self.writeBufUsed handed rest
    else (written, handed)

/-- `write_to_child`: the bytes handed to the child, and the buffer afterwards. -/
def writeToChild (self : WriteBuf) (answers : List WriteAnswer) : Option (Bytes × WriteBuf) :=
  let (written, handed) := self.writeLoop 0 [] answers
  if written = 0 then some (handed, self)
  else
    let writeBufUsed := self.writeBufUsed - written
    if writeBufUsed = 0 then some (handed, { self with writeBufUsed })
    else do
      let writeBuf ← move self.writeBuf 0 written writeBufUsed
      some (handed, { self with writeBuf, writeBufUsed })

/-! ### Answering a peer -/

/-- The `write` member of `Peer`. -/
structure PeerWrite where
  data : Bytes := []
  capacity : Nat := 0
  used : Nat := 0
  failed : Bool := false
deriving DecidableEq, Repr

/-- The fields of `Peer` that answering it uses. -/
structure Peer where
  id : Nat
  numOfUnrespondedMessagesSentToMainThread : Nat := 0
  write : PeerWrite := {}
deriving DecidableEq, Repr

/-- The bytes that wait to be sent. -/
def PeerWrite.pending (self : PeerWrite) : Bytes := self.data.take self.used

/-- Make room for a message of `msgSz` bytes. -/
def PeerWrite.reserve (self : PeerWrite) (msgSz : Nat) : PeerWrite :=
  if self.capacity - self.used < msgSz then
    { self with
      data := resize 0 self.data (self.capacity + msgSz)
      capacity := self.capacity + msgSz }
  else self

/-- What `send_response_to_peer` does to the peer it finds.  An absent message is an empty one. -/
def Peer.respond (self : Peer) (msg : Bytes) : Option Peer := do
  let answered := { self with
    numOfUnrespondedMessagesSentToMainThread := self.numOfUnrespondedMessagesSentToMainThread - 1 }
  if self.write.failed then some answered
  else
    let roomy := self.write.reserve msg.length
    let data ← copyIn roomy.data roomy.used msg
    some { answered with write := { roomy with data, used := roomy.used + msg.length } }

/-- `send_response_to_peer`. -/
def sendResponseToPeer (peerId : Nat) (msg : Bytes) : List Peer → Option (List Peer)
  | [] => some []
  | peer :: rest =>
    if peer.id = peerId then do
      let peer ← peer.respond msg
      some (peer :: rest)
    else do
      let rest ← sendResponseToPeer peerId msg rest
      some (peer :: rest)

/-- What the call of `send` in `write_to_peer` answers. -/
inductive SendAnswer where
  /-- Takes the first `n` of the bytes offered, or all of them when they are fewer. -/
  | sent (n : Nat)
  | eintr
  /-- Any other `errno`. -/
  | failed
deriving DecidableEq, Repr

/-- `write_to_peer`: the bytes the peer has got, and its write buffer afterwards. -/
def writeToPeer (self : PeerWrite) : SendAnswer → Option (Bytes × PeerWrite)
  | .sent offered =>
    let n := min offered self.used
    if n = 0 then some ([], { self with used := 0, failed := true })
    else do
      let data ← if n > self.used then move self.data 0 n (self.used - n) else some self.data
      some (self.data.take n, { self with data, used := self.used - n })
  | .eintr => some ([], self)
  | .failed => some ([], { self with used := 0, failed := true })

end Smelly
