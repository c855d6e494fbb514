/-
Module: Smelly.Core.PeerCommands
Purpose: What a remote control peer sends: the bytes that are read into the buffer of the peer, and
  the commands that are queued for the main thread.
Trusted boundary: human-reviewed model of the reading of peers in smelly/child-monitor.c; there is
  memory for the buffer and the messages, and what `recv` answers is an input
-/
import Smelly.Core.ChildMonitor
import Smelly.Lib.Framing

namespace Smelly

/-- `smelly_CMD_PREFIX`: `ESC P @smelly-cmd{`. -/
def smellyCmdPrefix : Bytes := 0x1b :: "P@smelly-cmd\x7b".toList.map fun c => c.toUInt8

/-- The `read` member of `Peer`; `data` is the part of the buffer that is in use. -/
structure PeerRead where
  data : Bytes := []
  capacity : Nat := 0
  finished : Bool := false
deriving DecidableEq, Repr

/-- `Message`. -/
structure PeerMessage where
  data : Bytes
  peerId : Nat
deriving DecidableEq, Repr

/-- A peer that is read from, and the messages of the monitor. -/
structure ReadPeer where
  id : Nat
  read : PeerRead := {}
  numOfUnrespondedMessagesSentToMainThread : Nat := 0
  messages : List PeerMessage := []
deriving DecidableEq, Repr

/-- `queue_peer_message`, for the first `used` bytes of the buffer. -/
def queuePeerMessage (self : ReadPeer) (data : Bytes) : ReadPeer :=
  { self with
    messages := self.messages ++ [{ data, peerId := self.id }]
    numOfUnrespondedMessagesSentToMainThread := self.numOfUnrespondedMessagesSentToMainThread + 1 }

/-- The loop of `has_complete_peer_command` from index `i` on: the index behind the terminator. -/
def terminatorEnd (i : Nat) : Bytes → Option Nat
  | esc :: backslash :: rest =>
    if esc = 0x1b ∧ backslash = 0x5c then some (i + 2)
    else terminatorEnd (i + 1) (backslash :: rest)
  | _ => none

/-- `has_complete_peer_command`: `command_end`, if it is not zero.  `sizeof` counts the NUL byte of
the prefix. -/
def commandEnd (data : Bytes) : Option Nat :=
  if smellyCmdPrefix.length + 1 < data.length ∧
      data.take smellyCmdPrefix.length = smellyCmdPrefix then
    terminatorEnd smellyCmdPrefix.length (data.drop smellyCmdPrefix.length)
  else none

/-- The command at the front of the buffer and the bytes that `dispatch_peer_command` moves to its
front. -/
def splitCommand (data : Bytes) : Option (Bytes × Bytes) :=
  (commandEnd data).map fun commandEnd => (data.take commandEnd, data.drop commandEnd)

/-- `while (has_complete_peer_command(peer)) dispatch_peer_command(self, peer)`; each round takes at
least one byte off the buffer. -/
def dispatchPeerCommands (self : ReadPeer) : ReadPeer :=
  let (commands, data) := Framing.takeAll splitCommand self.read.data.length self.read.data
  commands.foldl queuePeerMessage { self with read := { self.read with data } }

/-- What `recv` answers: some bytes, the end of the stream, or an error. -/
inductive RecvAnswer where
  | data (bytes : Bytes)
  | closed
  | interrupted
  | failed
deriving DecidableEq, Repr

/-- The buffer that `read_from_peer` reads into; `none` if the message is too large. -/
def PeerRead.grown (self : PeerRead) : Option PeerRead :=
  if self.capacity ≤ self.data.length then
    if 64 * 1024 ≤ self.capacity then none
    else some { self with capacity := max 8192 (self.capacity * 2) }
  else some self

/-- `read_from_peer`. -/
def readFromPeer (self : ReadPeer) (answer : RecvAnswer) : ReadPeer :=
  match self.read.grown with
  | none => { self with read := { self.read with finished := true } }
  | some read =>
    let self := { self with read }
    match answer with
    | .closed =>
      let self := { self with read := { self.read with finished := true } }
      let dispatched := dispatchPeerCommands self
      { queuePeerMessage dispatched dispatched.read.data with
        read := { data := [], capacity := 0, finished := true } }
    | .interrupted => self
    | .failed => { self with read := { self.read with finished := true } }
    | .data bytes =>
      dispatchPeerCommands { self with read := { self.read with data := self.read.data ++ bytes } }

end Smelly
