/-
Module: Smelly.Proofs.PeerResponses
Purpose: Remote control responses under short sends: when what a peer has got, followed by what its
  write buffer holds, is what was queued for it.
Trusted boundary: none
-/
import Smelly.Core.ChildMonitor
import Smelly.Lib.Run

namespace Smelly

open MemoryBlock Run

/-- The buffer has its recorded capacity, no more is in use, and no send has failed. -/
structure PeerWrite.Sound (w : PeerWrite) : Prop where
  length : w.data.length = w.capacity
  used : w.used ≤ w.capacity
  alive : w.failed = false

theorem PeerWrite.Sound.length_pending {w : PeerWrite} (sound : w.Sound) :
    w.pending.length = w.used := by
  have length := sound.length
  have used := sound.used
  rw [pending, List.length_take]
  omega

/-! ### One call -/

theorem PeerWrite.reserve_spec {w : PeerWrite} (sound : w.Sound) (msgSz : Nat) :
    (w.reserve msgSz).Sound ∧ (w.reserve msgSz).pending = w.pending ∧
      (w.reserve msgSz).used + msgSz ≤ (w.reserve msgSz).capacity := by
  have length := sound.length
  have used := sound.used
  unfold reserve
  by_cases full : w.capacity - w.used < msgSz
  · rw [if_pos full]
    exact ⟨⟨length_resize .., Nat.le_add_right_of_le used, sound.alive⟩,
      take_resize 0 (length ▸ used) (Nat.le_add_right_of_le used),
      Nat.add_le_add_right used _⟩
  · rw [if_neg full]
    exact ⟨sound, rfl, by omega⟩

/-- A response is queued behind what is pending. -/
theorem Peer.respond_spec {p : Peer} (sound : p.write.Sound) (msg : Bytes) :
    ∃ next, p.respond msg = some next ∧ next.write.Sound ∧
      next.write.pending = p.write.pending ++ msg := by
  obtain ⟨roomySound, roomyPending, room⟩ := PeerWrite.reserve_spec sound msg.length
  obtain ⟨data, copied, sameLength, taken⟩ := exists_copyIn
    (p.write.reserve msg.length).data (p.write.reserve msg.length).used msg (by rw [roomySound.length]; exact room)
  have stepEq : p.respond msg = some { p with
      numOfUnrespondedMessagesSentToMainThread := p.numOfUnrespondedMessagesSentToMainThread - 1
      write := { p.write.reserve msg.length with
        data := data, used := (p.write.reserve msg.length).used + msg.length } } := by
    simp only [Peer.respond, sound.alive, copied]
    rfl
  exact ⟨_, stepEq, ⟨sameLength.trans roomySound.length, room, roomySound.alive⟩,
    taken.trans (congrArg (· ++ msg) roomyPending)⟩

/-- A send that takes bytes shortens what is pending at its end, not at its front. -/
theorem writeToPeer_sent {w : PeerWrite} (sound : w.Sound) (offered : Nat)
    (some : 0 < min offered w.used) :
    ∃ next, writeToPeer w (.sent offered) = .some (w.pending.take (min offered w.used), next) ∧
      next.Sound ∧ next.pending = w.pending.take (w.used - min offered w.used) := by
  have atMost : min offered w.used ≤ w.used := Nat.min_le_right ..
  have used := sound.used
  refine ⟨{ w with used := w.used - min offered w.used }, ?_,
    ⟨sound.length, by dsimp only; omega, sound.alive⟩, ?_⟩
  · have front : w.data.take (min offered w.used) = w.pending.take (min offered w.used) := by
      rw [PeerWrite.pending, List.take_take, Nat.min_eq_left atMost]
    simp only [writeToPeer, if_neg (Nat.ne_of_gt some), if_neg (Nat.not_lt.2 atMost), front]
    rfl
  · rw [PeerWrite.pending, PeerWrite.pending, List.take_take, Nat.min_eq_left (Nat.sub_le ..)]

theorem sendResponseToPeer_spec (peerId : Nat) (msg : Bytes) {peers : List Peer}
    (sound : ∀ peer ∈ peers, peer.write.Sound) :
    ∃ next, sendResponseToPeer peerId msg peers = some next ∧ next.length = peers.length ∧
      ∀ position before after, peers[position]? = some before → next[position]? = some after →
        after.write.Sound ∧ after.write.pending =
          if position = peers.findIdx (·.id = peerId) then before.write.pending ++ msg
          else before.write.pending := by
  induction peers with
  | nil => exact ⟨[], rfl, rfl, by simp⟩
  | cons peer rest ih =>
    rw [sendResponseToPeer]
    by_cases this : peer.id = peerId
    · obtain ⟨answered, responded, nextSound, pending⟩ :=
        Peer.respond_spec (sound peer (by simp)) msg
      refine ⟨answered :: rest, by rw [if_pos this, responded]; rfl, rfl, ?_⟩
      intro position before after beforeAt afterAt
      rw [List.findIdx_cons, decide_eq_true this, cond_true]
      cases position with
      | zero =>
        obtain rfl : peer = before := by simpa using beforeAt
        obtain rfl : answered = after := by simpa using afterAt
        exact ⟨nextSound, pending⟩
      | succ position =>
        obtain rfl : before = after := Option.some.inj (beforeAt.symm.trans afterAt)
        exact ⟨sound before (List.mem_cons_of_mem _ (List.mem_of_getElem? beforeAt)), by simp⟩
    · obtain ⟨next, responded, length, each⟩ :=
        ih fun p inRest => sound p (List.mem_cons_of_mem _ inRest)
      refine ⟨peer :: next, by rw [if_neg this, responded]; rfl, by simp [length], ?_⟩
      intro position before after beforeAt afterAt
      rw [List.findIdx_cons, decide_eq_false this, cond_false]
      cases position with
      | zero =>
        obtain rfl : peer = before := by simpa using beforeAt
        obtain rfl : peer = after := by simpa using afterAt
        exact ⟨sound peer (by simp), by simp⟩
      | succ position => simpa using each position before after beforeAt afterAt

/-! ### Interleavings -/

/-- What happens to the peers: a response to the peer with an id, or a call of `write_to_peer` for
the peer at a position, in which `send` takes `more + 1` bytes or is interrupted. -/
inductive PeerEvent where
  | response (peerId : Nat) (msg : Bytes)
  | accepted (position more : Nat)
  | interrupted (position : Nat)
deriving DecidableEq, Repr

/-- The peers, and beside them what each has got and what was queued for it, by position. -/
structure PeerTraffic where
  peers : List Peer
  sent : Nat → Bytes
  queued : Nat → List Bytes

def PeerTraffic.start (ids : List Nat) : PeerTraffic where
  peers := ids.map fun id => { id }
  sent := fun _ => []
  queued := fun _ => []

/-- `talk_loop` calls `write_to_peer` when bytes are pending. -/
def PeerTraffic.write (t : PeerTraffic) (position : Nat) (answer : SendAnswer) :
    Option PeerTraffic :=
  match t.peers[position]? with
  | none => some t
  | some peer =>
    if peer.write.used = 0 then some t
    else do
      let (sent, write) ← writeToPeer peer.write answer
      some { t with
        peers := t.peers.set position { peer with write }
        sent := Function.update t.sent position (t.sent position ++ sent) }

/-- One call, and its effect on the records beside the peers. -/
def talkStep (t : PeerTraffic) : PeerEvent → Option PeerTraffic
  | .response peerId msg => do
      let peers ← sendResponseToPeer peerId msg t.peers
      let position := t.peers.findIdx (·.id = peerId)
      some { t with
        peers
        queued := Function.update t.queued position (t.queued position ++ [msg]) }
  | .accepted position more => t.write position (.sent (more + 1))
  | .interrupted position => t.write position .eintr

/-- What each peer has got, followed by what is pending, is what was queued for it. -/
def PeerTraffic.Intact (t : PeerTraffic) : Prop :=
  ∀ position peer, t.peers[position]? = some peer →
    t.sent position ++ peer.write.pending = (t.queued position).flatten

/-- A send leaves the tail pending that was not sent. -/
def LeavesTail (t : PeerTraffic) (event : PeerEvent) (next : PeerTraffic) : Prop :=
  ∀ position more, event = .accepted position more →
    ∀ before after, t.peers[position]? = some before → next.peers[position]? = some after →
      after.write.pending = before.write.pending.drop (more + 1)

/-- A send takes all that is pending, or what is pending repeats with the length of what is sent as
its period. -/
def TakesAllOrPeriodic (t : PeerTraffic) : PeerEvent → Prop
  | .accepted position more => ∀ peer, t.peers[position]? = some peer →
      ∀ i, i + (more + 1) < peer.write.used →
        peer.write.pending[i]? = peer.write.pending[i + (more + 1)]?
  | _ => True

/-- Dropping the end instead of the front is right exactly for a list with that period. -/
theorem take_eq_drop_iff {α : Type} (list : List α) (n : Nat) :
    list.take (list.length - n) = list.drop n ↔
      ∀ i, i + n < list.length → list[i]? = list[i + n]? := by
  rw [List.ext_getElem?_iff]
  refine forall_congr' fun i => ?_
  rw [List.getElem?_take, List.getElem?_drop, Nat.add_comm n i]
  by_cases inside : i + n < list.length
  · rw [if_pos (by omega)]
    exact ⟨fun h _ => h, fun h => h inside⟩
  · rw [if_neg (by omega), List.getElem?_eq_none (Nat.le_of_not_lt inside)]
    exact ⟨fun _ h => absurd h inside, fun _ => rfl⟩

def PeerTraffic.Sound (t : PeerTraffic) : Prop := ∀ peer ∈ t.peers, peer.write.Sound

theorem PeerTraffic.Sound.at {t : PeerTraffic} (sound : t.Sound) {position : Nat} {peer : Peer}
    (peerAt : t.peers[position]? = some peer) : peer.write.Sound :=
  sound peer (List.mem_of_getElem? peerAt)

theorem PeerTraffic.start_sound (ids : List Nat) : (PeerTraffic.start ids).Sound := by
  intro peer member
  obtain ⟨id, -, rfl⟩ := List.mem_map.1 member
  exact ⟨rfl, Nat.le_refl _, rfl⟩

theorem PeerTraffic.start_intact (ids : List Nat) : (PeerTraffic.start ids).Intact := by
  intro position peer peerAt
  obtain ⟨id, -, rfl⟩ := List.mem_map.1 (List.mem_of_getElem? peerAt)
  rfl

/-- Queueing a response. -/
theorem talkStep_response {t : PeerTraffic} (sound : t.Sound) (peerId : Nat) (msg : Bytes) :
    ∃ next, talkStep t (.response peerId msg) = some next ∧ next.Sound ∧
      (t.Intact → next.Intact) := by
  obtain ⟨peers, responded, length, each⟩ := sendResponseToPeer_spec peerId msg sound
  have stepEq : talkStep t (.response peerId msg) = some { t with
      peers
      queued := Function.update t.queued (t.peers.findIdx (·.id = peerId))
        (t.queued (t.peers.findIdx (·.id = peerId)) ++ [msg]) } := by
    simp only [talkStep, responded]
    rfl
  have before : ∀ {position : Nat} {after : Peer}, peers[position]? = some after →
      ∃ before, t.peers[position]? = some before := by
    intro position after afterAt
    have inside : position < t.peers.length := by
      rw [← length]
      exact (List.getElem?_eq_some_iff.1 afterAt).1
    exact ⟨_, List.getElem?_eq_getElem inside⟩
  refine ⟨_, stepEq, ?_, ?_⟩
  · intro after member
    obtain ⟨position, afterAt⟩ := List.mem_iff_getElem?.1 member
    obtain ⟨_, beforeAt⟩ := before afterAt
    exact (each position _ after beforeAt afterAt).1
  · intro intact position after afterAt
    obtain ⟨peer, beforeAt⟩ := before afterAt
    have here := intact position peer beforeAt
    dsimp only
    rw [(each position peer after beforeAt afterAt).2]
    by_cases this : position = t.peers.findIdx (·.id = peerId)
    · rw [if_pos this, ← this, Function.update_self, List.flatten_append, ← here,
        List.flatten_singleton, List.append_assoc]
    · rw [if_neg this, Function.update_of_ne this, here]

/-- A step that changes the peer at one position and hands it some bytes. -/
theorem write_intact {t : PeerTraffic} {position : Nat} {peer : Peer} {handed : Bytes}
    {write : PeerWrite} (peerAt : t.peers[position]? = some peer) (intact : t.Intact) :
    PeerTraffic.Intact { t with
        peers := t.peers.set position { peer with write }
        sent := Function.update t.sent position (t.sent position ++ handed) } ↔
      handed ++ write.pending = peer.write.pending := by
  have inside := (List.getElem?_eq_some_iff.1 peerAt).1
  have here := intact position peer peerAt
  constructor
  · intro next
    have there := next position _ (List.getElem?_set_self inside)
    dsimp only at there
    rw [Function.update_self, ← here, List.append_assoc] at there
    exact List.append_cancel_left there
  · intro moved other after afterAt
    dsimp only at afterAt ⊢
    by_cases this : other = position
    · subst this
      rw [List.getElem?_set_self inside] at afterAt
      obtain rfl := Option.some.inj afterAt
      rw [Function.update_self, List.append_assoc, moved, here]
    · rw [List.getElem?_set_ne (Ne.symm this)] at afterAt
      rw [Function.update_of_ne this]
      exact intact other after afterAt

theorem write_sound {t : PeerTraffic} {position : Nat} {peer : Peer} {write : PeerWrite}
    (sound : t.Sound) (next : write.Sound) (sent : Nat → Bytes) :
    PeerTraffic.Sound { t with peers := t.peers.set position { peer with write }, sent } := by
  intro after member
  rcases List.mem_or_eq_of_mem_set member with old | rfl
  · exact sound after old
  · exact next

theorem talkStep_interrupted (t : PeerTraffic) (position : Nat) :
    ∃ next, talkStep t (.interrupted position) = some next ∧ next.peers = t.peers ∧
      (t.Intact → next.Intact) := by
  rw [talkStep, PeerTraffic.write]
  cases peerAt : t.peers[position]? with
  | none => exact ⟨t, rfl, rfl, id⟩
  | some peer =>
    by_cases idle : peer.write.used = 0
    · exact ⟨t, by simp only [if_pos idle], rfl, id⟩
    · refine ⟨_, by simp only [if_neg idle, writeToPeer]; rfl, ?_, ?_⟩
      · obtain ⟨inside, rfl⟩ := List.getElem?_eq_some_iff.1 peerAt
        exact List.set_getElem_self inside
      · exact fun intact => (write_intact peerAt intact).2 rfl

/-- A send leaves the unsent tail exactly when it takes all, or the pending bytes are periodic. -/
theorem talkStep_accepted {t : PeerTraffic} (sound : t.Sound) (position more : Nat) :
    ∃ next, talkStep t (.accepted position more) = some next ∧ next.Sound ∧
      (LeavesTail t (.accepted position more) next ↔
        TakesAllOrPeriodic t (.accepted position more)) ∧
      (t.Intact → (next.Intact ↔ TakesAllOrPeriodic t (.accepted position more))) := by
  rw [talkStep, PeerTraffic.write]
  cases peerAt : t.peers[position]? with
  | none =>
    have periodic : TakesAllOrPeriodic t (.accepted position more) := fun peer there =>
      absurd (peerAt.symm.trans there) (by simp)
    refine ⟨t, rfl, sound, iff_of_true ?_ periodic, fun intact => iff_of_true intact periodic⟩
    rintro _ _ ⟨⟩ before _ beforeAt _
    exact absurd (peerAt.symm.trans beforeAt) (by simp)
  | some peer =>
    have condition : TakesAllOrPeriodic t (.accepted position more) ↔
        ∀ i, i + (more + 1) < peer.write.used →
          peer.write.pending[i]? = peer.write.pending[i + (more + 1)]? := by
      constructor
      · exact fun h => h peer peerAt
      · intro h other otherAt
        obtain rfl := Option.some.inj (peerAt.symm.trans otherAt)
        exact h
    have length := (sound.at peerAt).length_pending
    rw [condition, ← length, ← take_eq_drop_iff]
    by_cases idle : peer.write.used = 0
    · have empty : peer.write.pending = [] := List.eq_nil_of_length_eq_zero (length.trans idle)
      refine ⟨t, by simp only [if_pos idle], sound, ?_, ?_⟩
      · refine iff_of_true ?_ (by rw [empty, List.take_nil, List.drop_nil])
        rintro _ _ ⟨⟩ before after beforeAt afterAt
        obtain rfl := Option.some.inj (peerAt.symm.trans beforeAt)
        obtain rfl := Option.some.inj (peerAt.symm.trans afterAt)
        rw [empty, List.drop_nil]
      · exact fun intact => iff_of_true intact (by rw [empty, List.take_nil, List.drop_nil])
    · obtain ⟨write, written, nextSound, pending⟩ :=
        writeToPeer_sent (sound.at peerAt) (more + 1) (by omega)
      have kept : write.pending =
          peer.write.pending.take (peer.write.pending.length - (more + 1)) := by
        rw [pending, length]
        congr 1
        omega
      refine ⟨_, by simp only [if_neg idle, written]; rfl, write_sound sound nextSound _, ?_, ?_⟩
      · rw [← kept]
        have inside := (List.getElem?_eq_some_iff.1 peerAt).1
        constructor
        · exact fun leaves => leaves position more rfl peer _ peerAt
            (List.getElem?_set_self inside)
        · rintro tail _ _ ⟨⟩ before after beforeAt afterAt
          obtain rfl := Option.some.inj (peerAt.symm.trans beforeAt)
          rw [List.getElem?_set_self inside] at afterAt
          obtain rfl := Option.some.inj afterAt
          exact tail
      · intro intact
        have split := List.take_append_drop (min (more + 1) peer.write.used) peer.write.pending
        have tail : peer.write.pending.drop (min (more + 1) peer.write.used) =
            peer.write.pending.drop (more + 1) := by
          rw [List.drop_eq_drop_iff, length]
          omega
        rw [write_intact peerAt intact, ← kept, ← tail]
        constructor
        · exact fun moved => List.append_cancel_left (moved.trans split.symm)
        · exact fun same => same ▸ split

/-- In a run of responses and short sends every peer gets, or has pending, exactly what was queued
for it, and every send leaves the unsent tail pending, exactly when every send takes all that is
pending or hits a period of it. -/
theorem peerResponses (ids : List Nat) (events : List PeerEvent) :
    (∃ final, run talkStep (.start ids) events = some final) ∧
    (((∀ t, Visits talkStep (.start ids) events t → t.Intact) ∧
        ∀ t event, Takes talkStep (.start ids) events t event →
          ∀ next, talkStep t event = some next → LeavesTail t event next) ↔
      ∀ t event, Takes talkStep (.start ids) events t event → TakesAllOrPeriodic t event) := by
  have total : ∀ t event, t.Sound → ∃ next, talkStep t event = some next ∧ next.Sound ∧
      (LeavesTail t event next ↔ TakesAllOrPeriodic t event) ∧
      (t.Intact → (next.Intact ↔ TakesAllOrPeriodic t event)) := by
    intro t event sound
    cases event with
    | response peerId msg =>
      obtain ⟨next, stepEq, nextSound, intact⟩ := talkStep_response sound peerId msg
      exact ⟨next, stepEq, nextSound, iff_of_true (by rintro _ _ ⟨⟩) trivial,
        fun here => iff_of_true (intact here) trivial⟩
    | accepted position more => exact talkStep_accepted sound position more
    | interrupted position =>
      obtain ⟨next, stepEq, same, intact⟩ := talkStep_interrupted t position
      exact ⟨next, stepEq, fun peer member => sound peer (same ▸ member),
        iff_of_true (by rintro _ _ ⟨⟩) trivial, fun here => iff_of_true (intact here) trivial⟩
  have preserves : ∀ t event next, t.Sound → talkStep t event = some next → next.Sound := by
    intro t event next sound stepEq
    obtain ⟨_, totalEq, nextSound, -⟩ := total t event sound
    exact Option.some.inj (totalEq.symm.trans stepEq) ▸ nextSound
  refine ⟨?_, ?_⟩
  · obtain ⟨final, runEq, -⟩ := run_total (fun _ => True) PeerTraffic.Sound
      (fun t event sound _ =>
        let ⟨next, stepEq, nextSound, _⟩ := total t event sound
        ⟨next, stepEq, nextSound⟩)
      (PeerTraffic.start_sound ids) events (fun _ _ => trivial)
    exact ⟨final, runEq⟩
  · rw [visits_iff_takes PeerTraffic.Sound PeerTraffic.Intact TakesAllOrPeriodic preserves
      (fun t event next sound intact stepEq => by
        obtain ⟨_, totalEq, -, -, exactly⟩ := total t event sound
        exact Option.some.inj (totalEq.symm.trans stepEq) ▸ exactly intact)
      (PeerTraffic.start_sound ids) (PeerTraffic.start_intact ids) events]
    refine and_iff_left_of_imp fun condition t event taken next stepEq => ?_
    obtain ⟨before, -, -, runEq, -⟩ := id taken
    obtain ⟨_, totalEq, -, leaves, -⟩ :=
      total t event (run_invariant _ preserves (PeerTraffic.start_sound ids) runEq)
    obtain rfl := Option.some.inj (totalEq.symm.trans stepEq)
    exact leaves.2 (condition t event taken)

/-- A response of two bytes of which the first is sent: the peer never gets the second one, and the
first is still pending. -/
theorem peerResponses_short_send :
    ¬ ∀ t, Visits talkStep (.start [1]) [.response 1 [65, 66], .accepted 0 0] t → t.Intact := by
  intro intact
  have visited := intact _ ⟨_, List.prefix_rfl, rfl⟩ 0 _ rfl
  exact absurd visited (by decide)

end Smelly
