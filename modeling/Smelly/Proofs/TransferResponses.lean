/-
Module: Smelly.Proofs.TransferResponses
Purpose: The way of the responses of the file transmission machine to the child: what every write,
  retry, round of chunks and dropped session does to the responses that wait, and from it order and
  completeness in every run whose writes are in turn and which drops nothing that waits.
Trusted boundary: none
-/
import Mathlib.Data.List.Nodup
import Mathlib.Data.List.Perm.Basic
import Smelly.Proofs.TransferPermission

namespace Smelly

open Run

namespace FileTransmission

/-! ### What waits -/

/-- The chunks of a session that wait, as they will be written. -/
def ActiveSend.waitingChunks (asd : ActiveSend) : List Command :=
  asd.pendingChunks.map fun ftc => { ftc with id := asd.id }

/-- The chunks that wait with a callback. -/
def Timer.waitingChunks : Timer → List Command
  | .signature job => job.pending
  | _ => []

/-- Every response that has neither reached the child nor been dropped. -/
def pending (s : FileTransmission) : List Command :=
  s.pendingReceiveResponses ++ s.activeSends.flatMap ActiveSend.waitingChunks ++
    s.timers.flatMap Timer.waitingChunks

/-- The responses that reached the child are the first ones produced, in their order, and the others
are those in `hand` and those pending. -/
def InOrderWith (hand : List Command) (s : FileTransmission) : Prop :=
  ∃ waiting, s.produced = s.reached ++ waiting ∧ waiting.Perm (hand ++ s.pending)

/-- The responses that reached the child, followed by those that are pending, are the responses in
the order in which they were produced. -/
def InOrder (s : FileTransmission) : Prop :=
  ∃ waiting, s.produced = s.reached ++ waiting ∧ waiting.Perm s.pending

/-- The response is the oldest that has not reached the child. -/
def Oldest (s : FileTransmission) (payload : Command) : Prop :=
  s.produced[s.reached.length]? = some payload

instance (s : FileTransmission) (payload : Command) : Decidable (s.Oldest payload) :=
  inferInstanceAs (Decidable (_ = _))

theorem InOrder.start {s : FileTransmission} (h : InOrder s) : InOrderWith [] s := h

namespace InOrderWith

variable {hand : List Command} {s s' : FileTransmission} (world : World)

theorem perm {hand' : List Command} (h : InOrderWith hand s) (produced : s'.produced = s.produced)
    (reached : s'.reached = s.reached)
    (places : (hand ++ s.pending).Perm (hand' ++ s'.pending)) : InOrderWith hand' s' := by
  obtain ⟨waiting, order, all⟩ := h
  exact ⟨waiting, by rw [produced, reached, order], all.trans places⟩

theorem tick (h : InOrderWith hand s) : InOrderWith hand s.tick :=
  h.perm rfl rfl (.refl _)

/-- The oldest response reaches the child. -/
theorem accept {payload : Command} (h : InOrderWith (payload :: hand) s)
    (oldest : s.Oldest payload) (produced : s'.produced = s.produced)
    (reached : s'.reached = s.reached ++ [payload]) (places : s'.pending = s.pending) :
    InOrderWith hand s' := by
  obtain ⟨waiting, order, all⟩ := h
  rw [Oldest, order, List.getElem?_append_right (Nat.le_refl _), Nat.sub_self] at oldest
  cases waiting with
  | nil => cases oldest
  | cons first rest =>
    obtain rfl := Option.some.inj oldest
    refine ⟨rest, by rw [produced, reached, order, List.append_assoc]; rfl, ?_⟩
    rw [places]
    exact all.cons_inv

theorem startPendingTimer (h : InOrderWith hand s) : InOrderWith hand s.startPendingTimer := by
  unfold FileTransmission.startPendingTimer
  split
  · exact h
  · refine h.perm rfl rfl ?_
    simp [pending, Timer.waitingChunks]

/-- A payload is parked at one end of the deque. -/
theorem park {payload : Command} (h : InOrderWith (payload :: hand) s) (appendleft : Bool) :
    InOrderWith hand { s.tick with
      pendingReceiveResponses := if appendleft then payload :: s.pendingReceiveResponses
        else s.pendingReceiveResponses ++ [payload] } := by
  refine h.perm rfl rfl ?_
  cases appendleft with
  | true =>
    exact List.perm_middle.symm
  | false =>
    simp only [pending, Bool.false_eq_true, if_false, List.append_assoc]
    exact List.perm_middle.symm.trans (List.perm_middle.symm.append_left hand)

/-- A write with parking: the payload reaches the child in turn or is parked. -/
theorem writeParking {payload : Command} (h : InOrderWith (payload :: hand) s)
    (appendleft : Bool) (window : world.answer s.clock ≠ .noWindow)
    (inTurn : world.answer s.clock = .queued → s.Oldest payload) :
    InOrderWith hand (s.writeFtcToChild world payload appendleft true).1 := by
  unfold writeFtcToChild
  split
  next gone => exact absurd gone window
  next queued => exact h.accept (inTurn queued) rfl rfl rfl
  next =>
    exact (h.park appendleft).startPendingTimer

/-- A write without parking: the payload reaches the child in turn, or stays in hand. -/
theorem writeChunk {payload : Command} (h : InOrderWith (payload :: hand) s)
    (inTurn : world.answer s.clock = .queued → s.Oldest payload) :
    (s.writeFtcToChild world payload false false).2 = true ∧
        InOrderWith hand (s.writeFtcToChild world payload false false).1 ∨
      s.writeFtcToChild world payload false false = (s.tick, false) ∧
        InOrderWith (payload :: hand) s.tick := by
  unfold writeFtcToChild
  split
  next => exact .inr ⟨rfl, h.tick⟩
  next queued => exact .inl ⟨rfl, h.accept (inTurn queued) rfl rfl rfl⟩
  next => exact .inr ⟨rfl, h.tick⟩

theorem produce (h : InOrderWith hand s) (payloads : List Command) :
    InOrderWith (payloads ++ hand) (s.produce payloads) := by
  obtain ⟨waiting, order, all⟩ := h
  refine ⟨waiting ++ payloads, by simp [FileTransmission.produce, order], ?_⟩
  rw [List.append_assoc]
  exact (all.append_right payloads).trans List.perm_append_comm

end InOrderWith

/-- A new response is written with nothing waiting before it, or is refused; the window is there. -/
def RespondsInTurn (world : World) (s : FileTransmission) : Prop :=
  world.answer s.clock ≠ .noWindow ∧ (world.answer s.clock = .queued → s.pending = [])

theorem InOrder.respond {s : FileTransmission} (world : World) (h : InOrder s) (payload : Command)
    (inTurn : s.RespondsInTurn world) : InOrder (s.respond world payload) := by
  have produced : InOrderWith [payload] (s.produce [payload]) := h.start.produce [payload]
  apply InOrderWith.writeParking world produced false inTurn.1
  intro queued
  obtain ⟨waiting, order, all⟩ := h
  rw [inTurn.2 queued] at all
  obtain rfl := all.eq_nil
  simp [Oldest, FileTransmission.produce, order]

theorem InOrder.sendFailOnOsError {s : FileTransmission} (world : World) (h : InOrder s)
    (errname msg : String) (sendErrors : Bool) (requestId fileId : String)
    (inTurn : sendErrors = true → s.RespondsInTurn world) :
    InOrder (s.sendFailOnOsError world errname msg sendErrors requestId fileId) := by
  unfold FileTransmission.sendFailOnOsError
  split
  next report => exact h.respond world _ (inTurn report)
  next => exact h

/-! ### Rounds -/

/-- A parked response is retried for a session that is there, and reaches the child only as the
oldest; the window is there. -/
def RetriesInTurn (world : World) (s : FileTransmission) : Prop :=
  ∀ payload rest, s.pendingReceiveResponses = payload :: rest →
    s.receive? payload.id ≠ none ∧ world.answer s.clock ≠ .noWindow ∧
      (world.answer s.clock = .queued → s.Oldest payload)

theorem InOrder.retry {s : FileTransmission} (world : World) (h : InOrder s)
    (inTurn : s.RetriesInTurn world) : InOrder (s.retry world).1 := by
  unfold FileTransmission.retry
  split
  next => exact h
  next payload rest parked =>
    obtain ⟨known, window, oldest⟩ := inTurn payload rest parked
    have popped : InOrderWith [payload] { s with pendingReceiveResponses := rest } := by
      refine h.start.perm rfl rfl ?_
      simp [pending, parked]
    dsimp only
    split
    next unknown => exact absurd unknown known
    next => exact popped.writeParking world true window oldest

theorem startPendingTimer_sends (s : FileTransmission) :
    s.startPendingTimer.activeSends = s.activeSends ∧
      s.startPendingTimer.transfers = s.transfers := by
  unfold startPendingTimer
  split
  · exact ⟨rfl, rfl⟩
  · exact ⟨rfl, rfl⟩

/-- A write leaves the sessions alone. -/
theorem writeFtcToChild_sends (world : World) (s : FileTransmission) (payload : Command)
    (appendleft usePending : Bool) :
    (s.writeFtcToChild world payload appendleft usePending).1.activeSends = s.activeSends ∧
      (s.writeFtcToChild world payload appendleft usePending).1.transfers = s.transfers := by
  unfold writeFtcToChild
  split
  · exact ⟨rfl, rfl⟩
  · exact ⟨rfl, rfl⟩
  · split
    · exact startPendingTimer_sends _
    · exact ⟨rfl, rfl⟩

/-! ### Chunks of a send session -/

/-- The sessions are different objects with different ids. -/
structure Sessions (s : FileTransmission) : Prop where
  serials : (s.activeSends.map ActiveSend.serial).Nodup
  ids : (s.activeSends.map ActiveSend.id).Nodup
  below : ∀ asd ∈ s.activeSends, asd.serial < s.transfers

/-- Changing an object replaces it in its place. -/
theorem setSend_split {s : FileTransmission} {before after : List ActiveSend}
    {old asd : ActiveSend} (serials : (s.activeSends.map ActiveSend.serial).Nodup)
    (split : s.activeSends = before ++ old :: after) (same : asd.serial = old.serial) :
    (s.setSend asd).activeSends = before ++ asd :: after := by
  have others : ∀ l : List ActiveSend, old.serial ∉ l.map ActiveSend.serial →
      l.map (fun other => if other.serial = asd.serial then asd else other) = l := by
    intro l away
    refine (List.map_congr_left fun other member => if_neg fun hit => away ?_).trans (List.map_id' l)
    exact List.mem_map.2 ⟨other, member, hit.trans same⟩
  rw [split, List.map_append, List.nodup_append] at serials
  obtain ⟨_, tail, apart⟩ := serials
  simp only [setSend, split, List.map_append, List.map_cons]
  rw [others before fun member => apart _ member _ List.mem_cons_self rfl,
    others after (List.nodup_cons.1 tail).1, if_pos same.symm]

/-- The channel of `s'` is that of `s`, but for new responses and the chunks of sessions. -/
structure SameChannel (s s' : FileTransmission) (new : List Command) : Prop where
  parked : s'.pendingReceiveResponses = s.pendingReceiveResponses
  sends : s'.activeSends = s.activeSends
  timers : s'.timers = s.timers
  transfers : s'.transfers = s.transfers
  reached : s'.reached = s.reached
  produced : s'.produced = s.produced ++ new

/-- What `next_chunk` gives: the chunk in hand and those left are the ones that waited before and the
ones newly produced, in this order. -/
structure NextChunk (s : FileTransmission) (asd : ActiveSend)
    (result : FileTransmission × ActiveSend × Except String (Option Command)) : Prop where
  serial : result.2.1.serial = asd.serial
  id : result.2.1.id = asd.id
  errors : result.2.1.sendErrors = asd.sendErrors
  channel : ∃ new, SameChannel s result.1 new ∧
    match result.2.2 with
    | .ok (some ftc) => asd.waitingChunks ++ new =
        { ftc with id := asd.id } :: result.2.1.waitingChunks
    | .ok none => new = [] ∧ result.2.1.waitingChunks = asd.waitingChunks
    | .error _ => new = [] ∧ result.2.1.waitingChunks = [] ∧ asd.waitingChunks = []

theorem SameChannel.refl (s : FileTransmission) : SameChannel s s [] :=
  ⟨rfl, rfl, rfl, rfl, rfl, (List.append_nil _).symm⟩

theorem readFile_spec (world : World) (af : SourceFile) (rounds : Nat) :
    ∀ (asd : ActiveSend) (s : FileTransmission), asd.pendingChunks = [] →
      NextChunk s asd (readFile world af asd rounds s) := by
  induction rounds with
  | zero =>
    intro asd s empty
    exact ⟨rfl, rfl, rfl, [], SameChannel.refl s, rfl, rfl⟩
  | succ rounds ih =>
    intro asd s empty
    have read : SameChannel s (s.tick.touch asd.serial (.readSource af.path)) [] :=
      ⟨rfl, rfl, rfl, rfl, rfl, (List.append_nil _).symm⟩
    have produces : ∀ new, SameChannel s
        ((s.tick.touch asd.serial (.readSource af.path)).produce new) new :=
      fun new => ⟨rfl, rfl, rfl, rfl, rfl, rfl⟩
    unfold readFile
    dsimp only
    split
    · exact ⟨rfl, rfl, rfl, [], read, rfl, by simp [ActiveSend.waitingChunks, empty],
        by simp [ActiveSend.waitingChunks, empty]⟩
    · split
      · next first rest _ =>
          exact ⟨rfl, rfl, rfl, _, produces _, by simp [ActiveSend.waitingChunks, empty]⟩
      · split
        · exact ⟨rfl, rfl, rfl, _, produces _, by simp [ActiveSend.waitingChunks, empty]⟩
        · next chunk transmitted _ _ _ _ =>
            obtain ⟨serial, id, errors, new, same, result⟩ :=
              ih { asd with activeFile := some { af with transmitted } }
                (s.tick.touch asd.serial (.readSource af.path)) empty
            exact ⟨serial, id, errors, new, ⟨same.parked, same.sends, same.timers,
              same.transfers, same.reached, same.produced⟩, result⟩

theorem nextChunk_spec (world : World) (s : FileTransmission) (asd : ActiveSend) :
    NextChunk s asd (s.nextChunk world asd) := by
  unfold nextChunk
  split
  · next first rest waiting =>
      exact ⟨rfl, rfl, rfl, [], SameChannel.refl s, by simp [ActiveSend.waitingChunks, waiting]⟩
  · next empty =>
      split
      · exact readFile_spec world _ _ asd s empty
      · split
        · exact ⟨rfl, rfl, rfl, [], SameChannel.refl s, rfl, rfl⟩
        · next key af _ =>
            obtain ⟨serial, id, errors, new, same, result⟩ := readFile_spec world af
              (world.rounds s.clock)
              { asd with queuedFilesMap := asd.queuedFilesMap.filter (·.1 ≠ key) } s empty
            exact ⟨serial, id, errors, new, same, result⟩

/-- A chunk of a session reaches the child only as the oldest response; when the file cannot be read,
the error is reported in turn. -/
def PumpsInTurn (world : World) (s : FileTransmission) (asd : ActiveSend) : Prop :=
  match s.nextChunk world asd with
  | (_, _, .ok none) => True
  | (self, _, .ok (some ftc)) =>
    world.answer self.clock = .queued → self.Oldest { ftc with id := asd.id }
  | (self, asd, .error _) => asd.sendErrors = true → (self.setSend asd).RespondsInTurn world

/-- Changing a session moves its chunks to or from the hand. -/
theorem InOrderWith.setSend {hand hand' : List Command} {s : FileTransmission}
    {before after : List ActiveSend} {old asd : ActiveSend} (h : InOrderWith hand s)
    (serials : (s.activeSends.map ActiveSend.serial).Nodup)
    (split : s.activeSends = before ++ old :: after) (same : asd.serial = old.serial)
    (moved : (hand ++ old.waitingChunks).Perm (hand' ++ asd.waitingChunks)) :
    InOrderWith hand' (s.setSend asd) := by
  refine h.perm rfl rfl (List.perm_iff_count.2 fun c => ?_)
  have counts := List.perm_iff_count.1 moved c
  have sends := setSend_split serials split same
  have parked : (s.setSend asd).pendingReceiveResponses = s.pendingReceiveResponses := rfl
  have timers : (s.setSend asd).timers = s.timers := rfl
  simp only [pending, sends, parked, timers, split, List.flatMap_append, List.flatMap_cons,
    List.count_append] at counts ⊢
  omega

theorem InOrderWith.callbackAfter {hand : List Command} {s : FileTransmission} (job : Timer)
    (h : InOrderWith (job.waitingChunks ++ hand) s) : InOrderWith hand (s.callbackAfter job) := by
  refine h.perm rfl rfl (List.perm_iff_count.2 fun c => ?_)
  simp only [pending, FileTransmission.callbackAfter, List.flatMap_append, List.flatMap_singleton,
    List.count_append]
  omega

theorem Sessions.setSend {s : FileTransmission} {before after : List ActiveSend}
    {old asd : ActiveSend} (h : Sessions s) (split : s.activeSends = before ++ old :: after)
    (serial : asd.serial = old.serial) (id : asd.id = old.id) : Sessions (s.setSend asd) := by
  have sends := setSend_split h.serials split serial
  have serials := h.serials
  have ids := h.ids
  rw [split] at serials ids
  constructor
  · rw [sends]
    simpa [serial] using serials
  · rw [sends]
    simpa [id] using ids
  · rw [sends]
    intro other member
    obtain member | member := List.mem_append.1 member
    · exact h.below other (by rw [split]; exact List.mem_append_left _ member)
    · obtain rfl | member := List.mem_cons.1 member
      · rw [serial]
        exact h.below old (by rw [split]; exact List.mem_append_right _ List.mem_cons_self)
      · exact h.below other (by
          rw [split]; exact List.mem_append_right _ (List.mem_cons_of_mem _ member))

/-- Only the sessions and the number of transfers matter. -/
theorem Sessions.congr {s s' : FileTransmission} (h : Sessions s)
    (sends : s'.activeSends = s.activeSends) (transfers : s'.transfers = s.transfers) :
    Sessions s' :=
  ⟨sends ▸ h.serials, sends ▸ h.ids, by rw [sends, transfers]; exact h.below⟩

theorem Sessions.dropSend {s : FileTransmission} (h : Sessions s) (id : String) :
    Sessions (s.dropSend id) where
  serials := h.serials.sublist (List.filter_sublist.map _)
  ids := h.ids.sublist (List.filter_sublist.map _)
  below := fun asd member => h.below asd (List.mem_filter.1 member).1

/-- Dropping a session without chunks loses nothing. -/
theorem InOrderWith.dropSend {hand : List Command} {s : FileTransmission} (h : InOrderWith hand s)
    {id : String} (empty : ∀ asd ∈ s.activeSends, asd.id = id → asd.pendingChunks = []) :
    InOrderWith hand (s.dropSend id) := by
  have kept : ∀ l : List ActiveSend, (∀ asd ∈ l, asd.id = id → asd.pendingChunks = []) →
      (l.filter (·.id ≠ id)).flatMap ActiveSend.waitingChunks =
        l.flatMap ActiveSend.waitingChunks := by
    intro l empty
    induction l with
    | nil => rfl
    | cons asd rest ih =>
      have tail := ih fun other member => empty other (List.mem_cons_of_mem _ member)
      by_cases same : asd.id = id
      · have none : asd.waitingChunks = [] := by
          rw [ActiveSend.waitingChunks, empty asd List.mem_cons_self same]
          rfl
        rw [List.filter_cons_of_neg (by simpa using same), List.flatMap_cons, none, tail]
        rfl
      · rw [List.filter_cons_of_pos (by simpa using same), List.flatMap_cons,
          List.flatMap_cons, tail]
  refine h.perm rfl rfl ?_
  simp only [pending, FileTransmission.dropSend, kept s.activeSends empty]
  exact .refl _

theorem writeChunk_spec (world : World) {s : FileTransmission} {before after : List ActiveSend}
    {asd : ActiveSend} {ftc : Command} (h : InOrderWith [{ ftc with id := asd.id }] s)
    (sessions : Sessions s) (split : s.activeSends = before ++ asd :: after)
    (inTurn : world.answer s.clock = .queued → s.Oldest { ftc with id := asd.id }) :
    InOrder (s.writeChunk world asd ftc).1 ∧ Sessions (s.writeChunk world asd ftc).1 := by
  have sends := writeFtcToChild_sends world s { ftc with id := asd.id } false false
  unfold writeChunk
  dsimp only
  obtain ⟨taken, order⟩ | ⟨refused, order⟩ := h.writeChunk world inTurn
  · split
    next next shape =>
      rw [shape] at order sends
      exact ⟨order, sessions.congr sends.1 sends.2⟩
    next next shape =>
      rw [shape] at taken
      cases taken
  · rw [refused]
    have here : s.tick.activeSends = before ++ asd :: after := split
    have back : ({ asd with pendingChunks := { ftc with id := asd.id } :: asd.pendingChunks } :
        ActiveSend).waitingChunks = { ftc with id := asd.id } :: asd.waitingChunks := rfl
    have returned : InOrderWith [] (s.tick.setSend
        { asd with pendingChunks := { ftc with id := asd.id } :: asd.pendingChunks }) :=
      order.setSend sessions.serials here rfl (by rw [back]; exact .refl _)
    have ticked : Sessions s.tick := sessions.congr rfl rfl
    have kept : Sessions (s.tick.setSend
        { asd with pendingChunks := { ftc with id := asd.id } :: asd.pendingChunks }) :=
      ticked.setSend here rfl rfl
    exact ⟨returned.callbackAfter .pumpSends, kept.congr rfl rfl⟩

theorem respond_sends (world : World) (s : FileTransmission) (payload : Command) :
    (s.respond world payload).activeSends = s.activeSends ∧
      (s.respond world payload).transfers = s.transfers :=
  writeFtcToChild_sends world (s.produce [payload]) payload false true

theorem sendFailOnOsError_sends (world : World) (s : FileTransmission) (errname msg : String)
    (sendErrors : Bool) (requestId fileId : String) :
    (s.sendFailOnOsError world errname msg sendErrors requestId fileId).activeSends =
        s.activeSends ∧
      (s.sendFailOnOsError world errname msg sendErrors requestId fileId).transfers =
        s.transfers := by
  unfold sendFailOnOsError
  split
  · exact respond_sends world s _
  · exact ⟨rfl, rfl⟩

/-- The chunks that were read are in hand. -/
theorem SameChannel.inHand {s s' : FileTransmission} {new : List Command} (h : InOrder s)
    (channel : SameChannel s s' new) : InOrderWith new s' := by
  have produced := h.start.produce new
  rw [List.append_nil] at produced
  refine produced.perm channel.produced channel.reached ?_
  simp only [pending, channel.parked, channel.sends, channel.timers]
  exact .refl _

theorem pumpRound_spec (world : World) {s : FileTransmission} {asd : ActiveSend}
    (h : InOrder s) (sessions : Sessions s) {id : String} (found : s.send? id = some asd)
    (inTurn : s.PumpsInTurn world asd) :
    InOrder (s.pumpRound world asd).1 ∧ Sessions (s.pumpRound world asd).1 := by
  obtain ⟨_, before, after, split, _⟩ := List.find?_eq_some_iff_append.1 found
  have spec := nextChunk_spec world s asd
  unfold PumpsInTurn at inTurn
  unfold pumpRound
  generalize s.nextChunk world asd = result at spec inTurn ⊢
  obtain ⟨self, asd', outcome⟩ := result
  obtain ⟨serial, sameId, errors, new, channel, chunks⟩ := spec
  have here : self.activeSends = before ++ asd :: after := channel.sends.trans split
  have there : Sessions self := sessions.congr channel.sends channel.transfers
  have hand := channel.inHand h
  have changed := there.setSend here serial sameId
  have placed := setSend_split there.serials here serial
  cases outcome with
  | error errname =>
    obtain ⟨rfl, empty, before'⟩ := chunks
    have order : InOrderWith [] (self.setSend asd') :=
      hand.setSend there.serials here serial (by rw [before', empty])
    have reported (fileId : String) : InOrderWith [] _ := InOrder.sendFailOnOsError world order errname
      "Failed to read data from file" asd'.sendErrors asd'.id fileId inTurn
    have same (fileId : String) := sendFailOnOsError_sends world (self.setSend asd') errname
      "Failed to read data from file" asd'.sendErrors asd'.id fileId
    refine ⟨(reported _).dropSend fun other member hit => ?_,
      (changed.congr (same _).1 (same _).2).dropSend _⟩
    rw [(same _).1] at member
    have only : other = asd' :=
      List.inj_on_of_nodup_map changed.ids member
        (by rw [placed]; exact List.mem_append_right _ List.mem_cons_self) hit
    rw [only]
    exact List.map_eq_nil_iff.1 empty
  | ok chunk =>
    cases chunk with
    | none =>
      obtain ⟨rfl, same⟩ := chunks
      have order : InOrderWith [] (self.setSend asd') :=
        hand.setSend there.serials here serial (by rw [same])
      exact ⟨order, changed⟩
    | some ftc =>
      have order : InOrderWith [{ ftc with id := asd'.id }] (self.setSend asd') := by
        apply hand.setSend there.serials here serial
        rw [sameId]
        refine List.perm_append_comm.trans ?_
        rw [chunks]
        exact .refl _
      apply writeChunk_spec world order changed placed
      rw [sameId]
      exact inTurn

/-! ### Signatures -/

/-- Every chunk reaches the child only as the oldest response, up to the first that is refused. -/
def ChunksInTurn (world : World) : List Command → FileTransmission → Prop
  | [], _ => True
  | ftc :: rest, s => world.answer s.clock = .queued →
      s.Oldest ftc ∧ ChunksInTurn world rest (s.writeFtcToChild world ftc false false).1

theorem InOrderWith.writeUntilFull (world : World) (chunks : List Command) {hand : List Command} :
    ∀ {s : FileTransmission}, InOrderWith (chunks ++ hand) s → ChunksInTurn world chunks s →
      InOrderWith ((FileTransmission.writeUntilFull world chunks s).2 ++ hand)
          (FileTransmission.writeUntilFull world chunks s).1 ∧
        (FileTransmission.writeUntilFull world chunks s).1.activeSends = s.activeSends ∧
        (FileTransmission.writeUntilFull world chunks s).1.transfers = s.transfers := by
  induction chunks with
  | nil => exact fun h _ => ⟨h, rfl, rfl⟩
  | cons ftc rest ih =>
    intro s h inTurn
    have sends := writeFtcToChild_sends world s ftc false false
    have queues : (s.writeFtcToChild world ftc false false).2 = true →
        world.answer s.clock = .queued := by
      intro taken
      unfold writeFtcToChild at taken
      split at taken
      next => cases taken
      next queued => exact queued
      next => cases taken
    unfold FileTransmission.writeUntilFull
    obtain ⟨taken, order⟩ | ⟨refused, order⟩ := h.writeChunk world fun queued =>
      (inTurn queued).1
    · have later := (inTurn (queues taken)).2
      split
      next next shape =>
        rw [shape] at order sends later
        obtain ⟨order', sends', transfers'⟩ := ih order later
        exact ⟨order', sends'.trans sends.1, transfers'.trans sends.2⟩
      next next shape =>
        rw [shape] at taken
        cases taken
    · rw [refused]
      exact ⟨order, rfl, rfl⟩

/-- The chunks of a signature and its last response are written in turn, and no chunk waits when
the session is gone. -/
def SignatureInTurn (world : World) (s : FileTransmission) (job : SignatureJob) : Prop :=
  match s.receive? job.receiveId with
  | none => job.pending = []
  | some ar => ChunksInTurn world job.pending s ∧
      match writeUntilFull world job.pending s with
      | (_, _ :: _) => True
      | (self, []) =>
        let next := self.tick.touch job.serial (.readSignature job.path)
        match world.nextSignature self.clock job.path with
        | .error _ => ar.sendErrors = true → next.RespondsInTurn world
        | .ok none => next.RespondsInTurn world
        | .ok (some []) => next.RespondsInTurn world
        | .ok (some chunk) =>
          let chunks := splitForTransfer chunk job.receiveId job.fileId false
          ChunksInTurn world chunks (next.produce chunks)

theorem transmitRsyncSignature_spec (world : World) {s : FileTransmission} {job : SignatureJob}
    (h : InOrderWith job.pending s) (sessions : Sessions s) (inTurn : s.SignatureInTurn world job) :
    InOrder (s.transmitRsyncSignature world job) ∧
      Sessions (s.transmitRsyncSignature world job) := by
  unfold SignatureInTurn at inTurn
  unfold transmitRsyncSignature
  cases found : s.receive? job.receiveId with
  | none =>
    rw [found] at inTurn
    rw [inTurn] at h
    exact ⟨h, sessions⟩
  | some ar =>
    rw [found] at inTurn
    obtain ⟨chunks, rest⟩ := inTurn
    have start : InOrderWith (job.pending ++ []) s := by rwa [List.append_nil]
    have flushed := InOrderWith.writeUntilFull world job.pending start chunks
    rw [List.append_nil] at flushed
    generalize writeUntilFull world job.pending s = result at flushed rest ⊢
    obtain ⟨self, left⟩ := result
    obtain ⟨order, sends, transfers⟩ := flushed
    have there : Sessions self := sessions.congr sends transfers
    cases left with
    | cons first more =>
      have held : InOrderWith
          ((Timer.signature { job with pending := first :: more }).waitingChunks ++ []) self := by
        rw [List.append_nil]
        exact order
      exact ⟨held.callbackAfter _, there.congr rfl rfl⟩
    | nil =>
      have read : InOrder (self.tick.touch job.serial (.readSignature job.path)) :=
        order.perm rfl rfl (.refl _)
      have touched : Sessions (self.tick.touch job.serial (.readSignature job.path)) :=
        there.congr rfl rfl
      dsimp only at rest ⊢
      cases outcome : world.nextSignature self.clock job.path with
      | error errname =>
        rw [outcome] at rest
        have same := sendFailOnOsError_sends world
          (self.tick.touch job.serial (.readSignature job.path)) errname
          "Failed to read signature" ar.sendErrors ar.id job.fileId
        exact ⟨read.sendFailOnOsError world _ _ _ _ _ rest, touched.congr same.1 same.2⟩
      | ok chunk =>
        rw [outcome] at rest
        have same := respond_sends world
          (self.tick.touch job.serial (.readSignature job.path))
          { action := .endData, id := job.receiveId, fileId := job.fileId }
        cases chunk with
        | none => exact ⟨read.respond world _ rest, touched.congr same.1 same.2⟩
        | some bytes =>
          cases bytes with
          | nil => exact ⟨read.respond world _ rest, touched.congr same.1 same.2⟩
          | cons byte more =>
            dsimp only at rest ⊢
            generalize splitForTransfer (byte :: more) job.receiveId job.fileId false =
              chunks at rest ⊢
            obtain ⟨order', sends', transfers'⟩ := InOrderWith.writeUntilFull world chunks
              (read.start.produce chunks) rest
            have held : InOrderWith ((Timer.signature { job with
                pending := (FileTransmission.writeUntilFull world chunks
                  ((self.tick.touch job.serial (.readSignature job.path)).produce
                    chunks)).2 }).waitingChunks ++ []) _ := order'
            exact ⟨held.callbackAfter _, touched.congr sends' transfers'⟩

/-! ### Expiry -/

/-- No session with waiting chunks has expired. -/
def ExpiresEmpty (world : World) (s : FileTransmission) : Prop :=
  ∀ asd ∈ s.activeSends, world.expired s.clock asd.serial = true → asd.pendingChunks = []

theorem dropReceive_channel (s : FileTransmission) (id : String) :
    SameChannel s (s.dropReceive id) [] ∧ (s.dropReceive id).clock = s.clock := by
  unfold dropReceive
  split
  · exact ⟨SameChannel.refl s, rfl⟩
  · exact ⟨⟨rfl, rfl, rfl, rfl, rfl, (List.append_nil _).symm⟩, rfl⟩

theorem InOrder.dropReceive {s : FileTransmission} (h : InOrder s) (id : String) :
    InOrder (s.dropReceive id) :=
  (dropReceive_channel s id).1.inHand h

/-- What holds of the states that `prune_expired` goes through: no question is asked in between, and
no session is new. -/
structure Pruned (s t : FileTransmission) : Prop where
  order : InOrder t
  sessions : Sessions t
  clock : t.clock = s.clock
  subset : ∀ asd ∈ t.activeSends, asd ∈ s.activeSends

theorem Pruned.dropReceive {s t : FileTransmission} (h : Pruned s t) (id : String) :
    Pruned s (t.dropReceive id) := by
  obtain ⟨channel, clock⟩ := dropReceive_channel t id
  exact ⟨h.order.dropReceive id, h.sessions.congr channel.sends channel.transfers,
    clock.trans h.clock, channel.sends ▸ h.subset⟩

theorem Pruned.dropSend {world : World} {s t : FileTransmission} (h : Pruned s t)
    (empty : s.ExpiresEmpty world) {id : String} {asd : ActiveSend} (found : t.send? id = some asd)
    (expired : world.expired t.clock asd.serial = true) : Pruned s (t.dropSend id) := by
  have member := List.mem_of_find?_eq_some found
  have named : asd.id = id := by simpa using List.find?_some found
  refine ⟨h.order.start.dropSend fun other otherMember same => ?_, h.sessions.dropSend id,
    h.clock, fun other otherMember => h.subset other (List.mem_filter.1 otherMember).1⟩
  have only : other = asd :=
    List.inj_on_of_nodup_map h.sessions.ids otherMember member (same.trans named.symm)
  rw [only]
  exact empty asd (h.subset asd member) (h.clock ▸ expired)

theorem pruneExpired_spec (world : World) {s : FileTransmission} (h : InOrder s)
    (sessions : Sessions s) (empty : s.ExpiresEmpty world) :
    InOrder (s.pruneExpired world) ∧ Sessions (s.pruneExpired world) := by
  have start : Pruned s s := ⟨h, sessions, rfl, fun _ member => member⟩
  suffices pruned : ∃ t, Pruned s t ∧ s.pruneExpired world = t.tick by
    obtain ⟨t, pruned, same⟩ := pruned
    rw [same]
    exact ⟨pruned.order.start.tick, pruned.sessions.congr rfl rfl⟩
  refine ⟨_, ?_, rfl⟩
  apply List.foldlRecOn
  · apply List.foldlRecOn
    · exact start
    · intro t ht k _
      split
      · split
        · exact ht.dropReceive k
        · exact ht
      · exact ht
  · intro t ht k _
    split
    next asd found =>
      split
      next expired => exact ht.dropSend empty found expired
      next => exact ht
    next => exact ht

/-! ### Calls -/

/-- What can happen to the responses: a status or metadata response is written, `try_pending` retries
one, `prune_expired`, one round of `pump_send_chunks`, a callback starts, a session is dropped or
begins, a send session changes otherwise, and a signature begins to be transmitted. -/
inductive Call where
  | respond (payload : Command)
  | retry
  | pruneExpired
  | pump (id : String)
  | timer (i : Nat)
  | dropReceive (id : String)
  | dropSend (id : String)
  | addReceive (ar : ActiveReceive)
  | addSend (asd : ActiveSend)
  | changeSend (asd : ActiveSend)
  | startSignature (job : SignatureJob)
deriving DecidableEq, Repr

/-- One call: `none` for a call that does not apply.  A session begins with a fresh serial and without
chunks, and another change of a session leaves its chunks alone. -/
def callStep (world : World) (s : FileTransmission) : Call → Option FileTransmission
  | .respond payload => some (s.respond world payload)
  | .retry => some (s.retry world).1
  | .pruneExpired => some (s.pruneExpired world)
  | .pump id => do
      let asd ← s.send? id
      return (s.pumpRound world asd).1
  | .timer i => do
      let timer ← s.timers[i]?
      let s := { s with timers := s.timers.eraseIdx i }
      match timer with
      | .tryPending => return { s with pendingTimer := false }
      | .pumpSends => return s
      | .signature job => return s.transmitRsyncSignature world job
  | .dropReceive id => some (s.dropReceive id)
  | .dropSend id => some (s.dropSend id)
  | .addReceive ar =>
    if (s.receive? ar.id).isSome then none
    else some { s with
      activeReceives := s.activeReceives ++ [{ ar with serial := s.transfers }]
      transfers := s.transfers + 1 }
  | .addSend asd =>
    if (s.send? asd.id).isSome then none
    else some { s with
      activeSends := s.activeSends ++ [{ asd with serial := s.transfers, pendingChunks := [] }]
      transfers := s.transfers + 1 }
  | .changeSend asd => do
      let old ← s.send? asd.id
      return s.setSend { asd with serial := old.serial, pendingChunks := old.pendingChunks }
  | .startSignature job => some (s.callbackAfter (.signature { job with pending := [] }))

/-- The call writes in turn and drops nothing that waits. -/
def InTurn (world : World) (s : FileTransmission) : Call → Prop
  | .respond _ => s.RespondsInTurn world
  | .retry => s.RetriesInTurn world
  | .pruneExpired => s.ExpiresEmpty world
  | .pump id => ∀ asd, s.send? id = some asd → s.PumpsInTurn world asd
  | .timer i => ∀ job, s.timers[i]? = some (.signature job) →
      SignatureInTurn world { s with timers := s.timers.eraseIdx i } job
  | .dropSend id => ∀ asd ∈ s.activeSends, asd.id = id → asd.pendingChunks = []
  | _ => True

/-- The invariant of a run. -/
structure Tracked (s : FileTransmission) : Prop where
  order : InOrder s
  sessions : Sessions s

theorem retry_sends (world : World) (s : FileTransmission) :
    (s.retry world).1.activeSends = s.activeSends ∧ (s.retry world).1.transfers = s.transfers := by
  unfold retry
  split
  · exact ⟨rfl, rfl⟩
  · dsimp only
    split
    · exact ⟨rfl, rfl⟩
    · next rest _ _ _ _ =>
        exact writeFtcToChild_sends world { s with pendingReceiveResponses := rest } _ true true

/-- A callback leaves the waiting ones. -/
theorem InOrder.takeTimer {s : FileTransmission} (h : InOrder s) {i : Nat} {timer : Timer}
    (waiting : s.timers[i]? = some timer) :
    InOrderWith timer.waitingChunks { s with timers := s.timers.eraseIdx i } := by
  refine h.start.perm rfl rfl (List.perm_iff_count.2 fun c => ?_)
  obtain ⟨bound, here⟩ := List.getElem?_eq_some_iff.1 waiting
  have taken := (List.getElem_cons_eraseIdx_perm bound).flatMap_right Timer.waitingChunks
  rw [here] at taken
  have counts := List.perm_iff_count.1 taken c
  simp only [pending, List.flatMap_cons, List.count_append, List.nil_append] at counts ⊢
  omega

theorem runTimer_tracked (world : World) {s : FileTransmission} (h : Tracked s) {i : Nat}
    {timer : Timer} (waiting : s.timers[i]? = some timer) {next : FileTransmission}
    (inTurn : s.InTurn world (.timer i)) (taken : s.callStep world (.timer i) = some next) :
    Tracked next := by
  have order := h.order.takeTimer waiting
  have sessions : Sessions { s with timers := s.timers.eraseIdx i } := h.sessions.congr rfl rfl
  simp only [callStep, waiting] at taken
  cases timer with
  | tryPending =>
    cases taken
    exact ⟨InOrderWith.perm order rfl rfl (.refl _), sessions.congr rfl rfl⟩
  | pumpSends =>
    cases taken
    exact ⟨order, sessions⟩
  | signature job =>
    cases taken
    obtain ⟨order', sessions'⟩ :=
      transmitRsyncSignature_spec world order sessions (inTurn job waiting)
    exact ⟨order', sessions'⟩

theorem addSend_tracked {s : FileTransmission} (h : Tracked s) (asd : ActiveSend)
    (free : s.send? asd.id = none) :
    Tracked { s with
      activeSends := s.activeSends ++ [{ asd with serial := s.transfers, pendingChunks := [] }]
      transfers := s.transfers + 1 } := by
  constructor
  · show InOrderWith [] _
    refine h.order.start.perm rfl rfl ?_
    simp only [pending, List.flatMap_append, List.flatMap_singleton, ActiveSend.waitingChunks,
      List.map_nil, List.append_nil]
    exact .refl _
  · constructor
    · rw [List.map_append, List.map_singleton]
      refine h.sessions.serials.append (List.nodup_singleton _) ?_
      intro serial old new
      obtain ⟨other, member, rfl⟩ := List.mem_map.1 old
      have below := h.sessions.below other member
      have same : other.serial = s.transfers := List.mem_singleton.1 new
      omega
    · rw [List.map_append, List.map_singleton]
      refine h.sessions.ids.append (List.nodup_singleton _) ?_
      intro id old new
      obtain ⟨other, member, rfl⟩ := List.mem_map.1 old
      have away := List.find?_eq_none.1 free other member
      exact away (by simpa using List.mem_singleton.1 new)
    · intro other member
      obtain old | new := List.mem_append.1 member
      · exact Nat.lt_succ_of_lt (h.sessions.below other old)
      · rw [List.mem_singleton.1 new]
        exact Nat.lt_succ_self _

theorem changeSend_tracked {s : FileTransmission} (h : Tracked s) {asd old : ActiveSend}
    (found : s.send? asd.id = some old) :
    Tracked (s.setSend { asd with serial := old.serial, pendingChunks := old.pendingChunks }) := by
  obtain ⟨named, before, after, split, _⟩ := List.find?_eq_some_iff_append.1 found
  have id : asd.id = old.id := (by simpa using named : old.id = asd.id).symm
  constructor
  · show InOrderWith [] _
    refine h.order.start.setSend h.sessions.serials split ?_ ?_
    · rfl
    · simp only [ActiveSend.waitingChunks, id]
      exact .refl _
  · exact h.sessions.setSend split rfl id

theorem callStep_tracked (world : World) (s : FileTransmission) (c : Call)
    (next : FileTransmission) (h : Tracked s) (inTurn : s.InTurn world c)
    (taken : s.callStep world c = some next) : Tracked next := by
  cases c with
  | respond payload =>
    cases taken
    have same := respond_sends world s payload
    exact ⟨h.order.respond world payload inTurn, h.sessions.congr same.1 same.2⟩
  | retry =>
    cases taken
    have same := retry_sends world s
    exact ⟨h.order.retry world inTurn, h.sessions.congr same.1 same.2⟩
  | pruneExpired =>
    cases taken
    obtain ⟨order, sessions⟩ := pruneExpired_spec world h.order h.sessions inTurn
    exact ⟨order, sessions⟩
  | pump id =>
    obtain ⟨asd, found, rest⟩ := Option.bind_eq_some_iff.1 taken
    cases rest
    obtain ⟨order, sessions⟩ := pumpRound_spec world h.order h.sessions found (inTurn asd found)
    exact ⟨order, sessions⟩
  | timer i =>
    obtain ⟨timer, waiting, _⟩ := Option.bind_eq_some_iff.1 taken
    exact runTimer_tracked world h waiting inTurn taken
  | dropReceive id =>
    cases taken
    have channel := (dropReceive_channel s id).1
    exact ⟨h.order.dropReceive id, h.sessions.congr channel.sends channel.transfers⟩
  | dropSend id =>
    cases taken
    exact ⟨h.order.start.dropSend inTurn, h.sessions.dropSend id⟩
  | addReceive ar =>
    simp only [callStep] at taken
    split at taken
    next => cases taken
    next =>
      cases taken
      exact ⟨h.order.start.perm rfl rfl (.refl _), h.sessions.serials, h.sessions.ids,
        fun asd member => Nat.lt_succ_of_lt (h.sessions.below asd member)⟩
  | addSend asd =>
    simp only [callStep] at taken
    split at taken
    next => cases taken
    next free =>
      cases taken
      exact addSend_tracked h asd (by simpa using free)
  | changeSend asd =>
    obtain ⟨old, found, rest⟩ := Option.bind_eq_some_iff.1 taken
    cases rest
    exact changeSend_tracked h found
  | startSignature job =>
    cases taken
    exact ⟨h.order.start.callbackAfter (.signature { job with pending := [] }),
      h.sessions.congr rfl rfl⟩

end FileTransmission

open FileTransmission

/-- The first writes are refused. -/
def refusingWorld (writes : Nat) : World :=
  { quietWorld with answer := fun n => if n < writes then .full else .queued }

end Smelly
