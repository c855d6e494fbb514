/-
Module: Smelly.Proofs.PeerFraming
Purpose: The commands of a remote control peer: however the stream is cut into the answers of
  `recv`, the complete commands are queued in order, each once, and the incomplete one waits.
Trusted boundary: none
-/
import Smelly.Core.PeerCommands

namespace Smelly

open Framing

/-- A command: the prefix, a payload without the terminator, and the terminator `ESC \`; it stays
below the limit on the size of messages. -/
def IsCommand (frame : Bytes) : Prop :=
  ∃ payload, frame = smellyCmdPrefix ++ (payload ++ [0x1b, 0x5c]) ∧
    ¬[0x1b, 0x5c] <:+: payload ∧ frame.length ≤ 64 * 1024

/-- No terminator begins at the first byte of the payload. -/
theorem not_terminator {a b : UInt8} {payload behind read : Bytes}
    (clean : ¬[0x1b, 0x5c] <:+: a :: payload) (next : payload ++ 0x1b :: behind = b :: read) :
    ¬(a = 0x1b ∧ b = 0x5c) := by
  rintro ⟨rfl, rfl⟩
  cases payload with
  | nil => cases next
  | cons c payload =>
    cases next
    exact clean ⟨[], payload, rfl⟩

theorem terminatorEnd_whole (payload : Bytes) (behind : Bytes) :
    ∀ i, ¬[0x1b, 0x5c] <:+: payload →
      terminatorEnd i (payload ++ 0x1b :: 0x5c :: behind) = some (i + payload.length + 2) := by
  induction payload with
  | nil => exact fun i _ => if_pos ⟨rfl, rfl⟩
  | cons a payload ih =>
    intro i clean
    obtain ⟨b, read, next⟩ := List.exists_cons_of_ne_nil
      (show payload ++ 0x1b :: 0x5c :: behind ≠ [] by simp)
    have later := ih (i + 1) fun inside => clean (inside.trans (List.suffix_cons a payload).isInfix)
    rw [next] at later
    rw [List.cons_append, next, terminatorEnd, if_neg (not_terminator clean next), later,
      List.length_cons]
    congr 1
    omega

theorem terminatorEnd_part (payload : Bytes) :
    ∀ (i : Nat) (read : Bytes), ¬[0x1b, 0x5c] <:+: payload → read <+: payload ++ [0x1b, 0x5c] →
      read.length < payload.length + 2 → terminatorEnd i read = none := by
  induction payload with
  | nil =>
    intro i read _ front short
    cases read with
    | nil => rfl
    | cons a read =>
      have alone : read = [] := List.length_eq_zero_iff.1 (by
        rw [List.length_cons, List.length_nil] at short
        omega)
      rw [alone]
      rfl
  | cons a payload ih =>
    intro i read clean front short
    cases read with
    | nil => rfl
    | cons c read =>
      obtain ⟨rfl, more⟩ := List.cons_prefix_cons.1 front
      cases read with
      | nil => rfl
      | cons b read =>
        obtain ⟨behind, next⟩ := more
        rw [terminatorEnd, if_neg (not_terminator clean next.symm)]
        apply ih (i + 1) (b :: read) (fun inside =>
          clean (inside.trans (List.suffix_cons c payload).isInfix)) ⟨behind, next⟩
        simp only [List.length_cons] at short ⊢
        omega

/-- The commands are the frames of the stream. -/
theorem splitCommand_delimits : Delimits splitCommand IsCommand where
  positive := by
    rintro frame ⟨payload, rfl, -, -⟩
    exact Nat.succ_pos _
  whole := by
    rintro frame behind ⟨payload, rfl, clean, -⟩
    have shape : smellyCmdPrefix ++ (payload ++ [0x1b, 0x5c]) ++ behind =
        smellyCmdPrefix ++ (payload ++ 0x1b :: 0x5c :: behind) := by
      rw [List.append_assoc, List.append_assoc]
      rfl
    have size : (smellyCmdPrefix ++ (payload ++ [0x1b, 0x5c])).length =
        smellyCmdPrefix.length + payload.length + 2 := by
      rw [List.length_append, List.length_append]
      rfl
    have found : commandEnd (smellyCmdPrefix ++ (payload ++ [0x1b, 0x5c]) ++ behind) =
        some (smellyCmdPrefix.length + payload.length + 2) := by
      rw [commandEnd, if_pos, shape, List.drop_left, terminatorEnd_whole payload behind _ clean]
      constructor
      · rw [List.length_append, size]
        omega
      · rw [shape, List.take_left]
    rw [splitCommand, found, ← size]
    simp only [Option.map_some, List.take_left, List.drop_left]
  part := by
    rintro read ⟨frame, ⟨payload, rfl, clean, -⟩, front, short⟩
    rw [splitCommand, Option.map_eq_none_iff, commandEnd]
    split
    · rename_i begun
      obtain ⟨behind, whole⟩ := front
      have enough := Nat.le_of_lt (Nat.lt_of_succ_lt begun.1)
      apply terminatorEnd_part payload _ _ clean
      · refine ⟨behind, ?_⟩
        rw [← List.drop_append_of_le_length enough, whole, List.drop_left]
      · rw [List.length_append, List.length_append] at short
        rw [List.length_drop]
        exact Nat.sub_lt_left_of_lt_add enough short
    · rfl

/-- A command that waits leaves room below the limit. -/
theorem waiting_length {read : Bytes} (waits : Unfinished IsCommand read) :
    read.length < 64 * 1024 := by
  obtain ⟨frame, ⟨_, _, _, size⟩, _, less⟩ := waits
  exact Nat.lt_of_lt_of_le less size

/-! ### Runs -/

/-- An answer of `recv` while the peer sends: some bytes, as many as there is room for at most, or
an interruption. -/
def RecvAnswers (self : ReadPeer) : RecvAnswer → Prop
  | .data bytes => bytes ≠ [] ∧
      ∀ read, self.read.grown = some read → bytes.length ≤ read.capacity - read.data.length
  | .interrupted => True
  | _ => False

/-- The answers while the peer sends, one after the other. -/
def Cut : ReadPeer → List RecvAnswer → Prop
  | _, [] => True
  | self, answer :: rest => RecvAnswers self answer ∧ Cut (readFromPeer self answer) rest

/-- The bytes that were received. -/
def received (answers : List RecvAnswer) : Bytes :=
  answers.flatMap fun
    | .data bytes => bytes
    | _ => []

theorem foldl_queuePeerMessage (commands : List Bytes) (self : ReadPeer) :
    (commands.foldl queuePeerMessage self).messages =
        self.messages ++ commands.map (fun data => { data, peerId := self.id }) ∧
      (commands.foldl queuePeerMessage self).read = self.read ∧
      (commands.foldl queuePeerMessage self).id = self.id := by
  induction commands generalizing self with
  | nil => exact ⟨(List.append_nil _).symm, rfl, rfl⟩
  | cons command commands ih =>
    obtain ⟨messages, read, id⟩ := ih (queuePeerMessage self command)
    refine ⟨?_, read, id⟩
    rw [List.foldl_cons, messages]
    exact List.append_assoc _ _ _

/-- Below the limit the buffer can grow. -/
theorem grown_of_waiting {self : PeerRead} (waits : Unfinished IsCommand self.data) :
    ∃ capacity, self.grown = some { self with capacity } := by
  have below := waiting_length waits
  unfold PeerRead.grown
  split
  · rw [if_neg (by omega)]
    exact ⟨_, rfl⟩
  · exact ⟨_, rfl⟩

/-- One answer: the commands that are complete with it are queued, and the rest waits. -/
theorem readFromPeer_data {self : ReadPeer} (waits : Unfinished IsCommand self.read.data)
    (bytes : Bytes) {more rest : Bytes} {commands : List Bytes}
    (all : ∀ command ∈ commands, IsCommand command) (unfinished : Unfinished IsCommand rest)
    (stream : self.read.data ++ (bytes ++ more) = commands.flatten ++ rest) :
    ∃ done left wait, commands = done ++ left ∧
      (readFromPeer self (.data bytes)).messages =
        self.messages ++ done.map (fun data => { data, peerId := self.id }) ∧
      (readFromPeer self (.data bytes)).read.data = wait ∧
      (readFromPeer self (.data bytes)).read.finished = self.read.finished ∧
      (readFromPeer self (.data bytes)).id = self.id ∧
      Unfinished IsCommand wait ∧ wait ++ more = left.flatten ++ rest := by
  obtain ⟨capacity, grown⟩ := grown_of_waiting waits
  rw [← List.append_assoc] at stream
  obtain ⟨done, left, wait, split, taken, still, later⟩ :=
    takeAll_cut splitCommand_delimits unfinished commands _ _ all (Nat.le_refl _) stream
  refine ⟨done, left, wait, split, ?_, ?_, ?_, ?_, still, later⟩ <;>
    simp only [readFromPeer, grown, dispatchPeerCommands, taken, foldl_queuePeerMessage]

/-- However the stream is cut, the messages are the complete commands. -/
theorem readFromPeer_run (answers : List RecvAnswer) {rest : Bytes}
    (unfinished : Unfinished IsCommand rest) :
    ∀ (self : ReadPeer) (commands : List Bytes), (∀ command ∈ commands, IsCommand command) →
      Unfinished IsCommand self.read.data → Cut self answers →
      self.read.data ++ received answers = commands.flatten ++ rest →
        (answers.foldl readFromPeer self).messages =
            self.messages ++ commands.map (fun data => { data, peerId := self.id }) ∧
          (answers.foldl readFromPeer self).read.data = rest ∧
          (answers.foldl readFromPeer self).read.finished = self.read.finished := by
  induction answers with
  | nil =>
    intro self commands all waits _ stream
    rw [received, List.flatMap_nil, List.append_nil] at stream
    cases commands with
    | nil => exact ⟨(List.append_nil _).symm, stream, rfl⟩
    | cons command commands =>
      have part := splitCommand_delimits.part _ waits
      rw [stream, List.flatten_cons, List.append_assoc,
        splitCommand_delimits.whole command _ (all command List.mem_cons_self)] at part
      cases part
  | cons answer answers ih =>
    intro self commands all waits cut stream
    obtain ⟨possible, cut⟩ := cut
    rw [List.foldl_cons]
    cases answer with
    | data bytes =>
      obtain ⟨done, left, wait, rfl, messages, data, finished, id, still, later⟩ :=
        readFromPeer_data waits bytes all unfinished stream
      subst data
      obtain ⟨queued, kept, open_⟩ := ih _ left
        (fun command mem => all command (List.mem_append_right _ mem)) still cut later
      refine ⟨?_, kept, open_.trans finished⟩
      rw [queued, messages, id, List.map_append, List.append_assoc]
    | interrupted =>
      obtain ⟨capacity, grown⟩ := grown_of_waiting waits
      have same : readFromPeer self .interrupted =
          { self with read := { self.read with capacity } } := by
        simp only [readFromPeer, grown]
      rw [same] at cut ⊢
      exact ih _ commands all waits cut stream
    | closed => exact possible.elim
    | failed => exact possible.elim

/-- A stream of commands, with an incomplete one behind them, in any cuts: exactly the commands are
queued, in order, and the incomplete one is kept. -/
theorem readFromPeer_queuesCommands (id : Nat) (commands : List Bytes) (rest : Bytes)
    (answers : List RecvAnswer) (all : ∀ command ∈ commands, IsCommand command)
    (unfinished : Unfinished IsCommand rest) (cut : Cut { id } answers)
    (stream : received answers = commands.flatten ++ rest) :
    (answers.foldl readFromPeer { id }).messages =
        commands.map (fun data => { data, peerId := id }) ∧
      (answers.foldl readFromPeer { id }).read.data = rest ∧
      (answers.foldl readFromPeer { id }).read.finished = false := by
  have waits : Unfinished IsCommand [] := unfinished.shorter List.nil_prefix
  exact readFromPeer_run answers unfinished { id } commands all waits cut stream

/-- Two commands and the beginning of a third, cut inside a terminator. -/
theorem readFromPeer_queuesCommands_cut :
    (([.data (smellyCmdPrefix ++ [0x61, 0x1b]), .interrupted,
        .data (0x5c :: smellyCmdPrefix ++ [0x1b, 0x5c, 0x1b])] :
          List RecvAnswer).foldl readFromPeer { id := 7 }).messages =
        [smellyCmdPrefix ++ ([0x61] ++ [0x1b, 0x5c]), smellyCmdPrefix ++ ([] ++ [0x1b, 0x5c])].map
          (fun data => { data, peerId := 7 }) ∧
      (([.data (smellyCmdPrefix ++ [0x61, 0x1b]), .interrupted,
        .data (0x5c :: smellyCmdPrefix ++ [0x1b, 0x5c, 0x1b])] :
          List RecvAnswer).foldl readFromPeer { id := 7 }).read.data = [0x1b] ∧
      (([.data (smellyCmdPrefix ++ [0x61, 0x1b]), .interrupted,
        .data (0x5c :: smellyCmdPrefix ++ [0x1b, 0x5c, 0x1b])] :
          List RecvAnswer).foldl readFromPeer { id := 7 }).read.finished = false := by
  have clean : IsCommand (smellyCmdPrefix ++ ([] ++ [0x1b, 0x5c])) :=
    ⟨[], rfl, by decide, by decide⟩
  apply readFromPeer_queuesCommands
  · intro command mem
    rcases List.mem_cons.1 mem with rfl | mem
    · exact ⟨[0x61], rfl, by decide, by decide⟩
    · rw [List.mem_singleton.1 mem]
      exact clean
  · exact ⟨_, clean, by decide, by decide⟩
  · refine ⟨⟨by decide, ?_⟩, trivial, ⟨by decide, ?_⟩, trivial⟩
    · intro read grown
      cases grown
      decide
    · intro read grown
      cases grown
      decide
  · decide

end Smelly
