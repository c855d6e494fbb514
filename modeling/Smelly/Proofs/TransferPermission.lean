/-
Module: Smelly.Proofs.TransferPermission
Purpose: Which transfers may touch files: what every operation of the file transmission machine does
  to accepted sessions and to the files touched on their behalf, and from it permission in every run
  whose yes answers find the transfer that they were given for.
Trusted boundary: none
-/
import Smelly.Core.FileTransmissionCommands
import Smelly.Lib.Run

namespace Smelly

open Run

namespace FileTransmission

/-- The transfer's own bypass check succeeded, or the user answered yes to a prompt for it. -/
def Authorised (self : FileTransmission) (serial : Nat) : Prop :=
  serial ∈ self.bypassed ∨ serial ∈ self.approved

/-- The session can touch files. -/
def ActiveSend.Running (asd : ActiveSend) : Prop :=
  asd.accepted = true ∨ asd.metadataSent = true ∨ asd.queuedFilesMap ≠ [] ∨ asd.activeFile ≠ none

/-- The session can touch files. -/
def ActiveReceive.Running (ar : ActiveReceive) : Prop :=
  ar.accepted = true ∨ ar.files ≠ []

/-- The sessions that can touch files, the signatures in flight and the files touched so far all
belong to transfers in `allowed`, which are authorised. -/
structure Within (allowed : Nat → Prop) (s : FileTransmission) : Prop where
  receives : ∀ ar ∈ s.activeReceives, ar.Running → allowed ar.serial
  sends : ∀ asd ∈ s.activeSends, asd.Running → allowed asd.serial
  jobs : ∀ job, .signature job ∈ s.timers → allowed job.serial
  effects : ∀ e ∈ s.effects, allowed e.1
  grants : ∀ n, allowed n → s.Authorised n

theorem receive?_mem {s : FileTransmission} {id : String} {ar : ActiveReceive}
    (h : s.receive? id = some ar) : ar ∈ s.activeReceives := List.mem_of_find?_eq_some h

theorem send?_mem {s : FileTransmission} {id : String} {asd : ActiveSend}
    (h : s.send? id = some asd) : asd ∈ s.activeSends := List.mem_of_find?_eq_some h

namespace Within

variable {allowed : Nat → Prop} {s : FileTransmission} (world : World)

theorem mono {allowed' : Nat → Prop} (h : Within allowed s) (le : ∀ n, allowed n → allowed' n)
    (grants : ∀ n, allowed' n → s.Authorised n) : Within allowed' s where
  receives := fun ar member running => le _ (h.receives ar member running)
  sends := fun asd member running => le _ (h.sends asd member running)
  jobs := fun job member => le _ (h.jobs job member)
  effects := fun e member => le _ (h.effects e member)
  grants := grants

/-- Nothing but the responses, the prompts and the counters change. -/
theorem congr {s' : FileTransmission} (h : Within allowed s)
    (receives : s'.activeReceives = s.activeReceives) (sends : s'.activeSends = s.activeSends)
    (jobs : ∀ job, .signature job ∈ s'.timers → .signature job ∈ s.timers)
    (effects : s'.effects = s.effects) (bypassed : s'.bypassed = s.bypassed)
    (approved : s'.approved = s.approved) : Within allowed s' where
  receives := receives ▸ h.receives
  sends := sends ▸ h.sends
  jobs := fun job member => h.jobs job (jobs job member)
  effects := effects ▸ h.effects
  grants := fun n granted => by
    have old := h.grants n granted
    unfold Authorised at old ⊢
    rwa [bypassed, approved]

theorem tick (h : Within allowed s) : Within allowed s.tick :=
  h.congr rfl rfl (fun _ member => member) rfl rfl rfl

theorem touch (h : Within allowed s) {serial : Nat} (may : allowed serial) (effect : Effect) :
    Within allowed (s.touch serial effect) where
  receives := h.receives
  sends := h.sends
  jobs := h.jobs
  effects := fun e member => by
    obtain old | new := List.mem_append.1 member
    · exact h.effects e old
    · rw [List.mem_singleton.1 new]
      exact may
  grants := h.grants

theorem callbackAfter (h : Within allowed s) {timer : Timer}
    (may : ∀ job, timer = .signature job → allowed job.serial) :
    Within allowed (s.callbackAfter timer) where
  receives := h.receives
  sends := h.sends
  jobs := fun job member => by
    obtain old | new := List.mem_append.1 member
    · exact h.jobs job old
    · exact may job (List.mem_singleton.1 new).symm
  effects := h.effects
  grants := h.grants

theorem setReceive (h : Within allowed s) {ar : ActiveReceive}
    (may : ar.Running → allowed ar.serial) : Within allowed (s.setReceive ar) where
  receives := fun other member running => by
    obtain ⟨old, oldMember, rfl⟩ := List.mem_map.1 member
    split at running
    next same => rw [if_pos same]; exact may running
    next same => rw [if_neg same]; exact h.receives old oldMember running
  sends := h.sends
  jobs := h.jobs
  effects := h.effects
  grants := h.grants

theorem setSend (h : Within allowed s) {asd : ActiveSend}
    (may : asd.Running → allowed asd.serial) : Within allowed (s.setSend asd) where
  receives := h.receives
  sends := fun other member running => by
    obtain ⟨old, oldMember, rfl⟩ := List.mem_map.1 member
    split at running
    next same => rw [if_pos same]; exact may running
    next same => rw [if_neg same]; exact h.sends old oldMember running
  jobs := h.jobs
  effects := h.effects
  grants := h.grants

theorem dropReceive (h : Within allowed s) (id : String) : Within allowed (s.dropReceive id) := by
  unfold FileTransmission.dropReceive
  cases found : s.receive? id with
  | none => exact h
  | some ar =>
    constructor
    · exact fun other member => h.receives other (List.mem_filter.1 member).1
    · exact h.sends
    · exact h.jobs
    · intro e member
      obtain old | new := List.mem_append.1 member
      · exact h.effects e old
      · obtain ⟨item, itemMember, rfl⟩ := List.mem_map.1 new
        have nonempty : ar.files ≠ [] := List.ne_nil_of_mem (List.mem_filter.1 itemMember).1
        exact h.receives ar (receive?_mem found) (.inr nonempty)
    · exact h.grants

theorem dropSend (h : Within allowed s) (id : String) : Within allowed (s.dropSend id) where
  receives := h.receives
  sends := fun other member => h.sends other (List.mem_filter.1 member).1
  jobs := h.jobs
  effects := h.effects
  grants := h.grants

theorem pruneExpired (h : Within allowed s) : Within allowed (s.pruneExpired world) := by
  apply tick
  apply List.foldlRecOn
  · apply List.foldlRecOn
    · exact h
    · intro t ht k _
      split
      · split
        · exact ht.dropReceive k
        · exact ht
      · exact ht
  · intro t ht k _
    split
    · split
      · exact ht.dropSend k
      · exact ht
    · exact ht

/-! ### Responses -/

theorem startPendingTimer (h : Within allowed s) : Within allowed s.startPendingTimer := by
  unfold FileTransmission.startPendingTimer
  split
  · exact h
  · refine h.congr rfl rfl (fun job member => ?_) rfl rfl rfl
    obtain old | new := List.mem_append.1 member
    · exact old
    · cases List.mem_singleton.1 new

theorem write (h : Within allowed s) (payload : Command) (appendleft usePending : Bool) :
    Within allowed (s.writeFtcToChild world payload appendleft usePending).1 := by
  unfold writeFtcToChild
  split
  · exact h.tick
  · exact h.congr rfl rfl (fun _ member => member) rfl rfl rfl
  · split
    · apply startPendingTimer
      exact h.congr rfl rfl (fun _ member => member) rfl rfl rfl
    · exact h.tick

theorem produce (h : Within allowed s) (payloads : List Command) :
    Within allowed (s.produce payloads) :=
  h.congr rfl rfl (fun _ member => member) rfl rfl rfl

theorem respond (h : Within allowed s) (payload : Command) :
    Within allowed (s.respond world payload) :=
  (h.produce [payload]).write world payload false true

theorem sendStatusResponse (h : Within allowed s) (requestId : String) (err : TransmissionError) :
    Within allowed (s.sendStatusResponse world requestId err) :=
  h.respond world _

theorem sendTransmissionError (h : Within allowed s) (requestId : String)
    (err : TransmissionError) : Within allowed (s.sendTransmissionError world requestId err) := by
  unfold FileTransmission.sendTransmissionError
  split
  · exact h.respond world _
  · exact h

theorem sendFailOnOsError (h : Within allowed s) (errname msg : String) (sendErrors : Bool)
    (requestId fileId : String) :
    Within allowed (s.sendFailOnOsError world errname msg sendErrors requestId fileId) := by
  unfold FileTransmission.sendFailOnOsError
  split
  · exact h.sendStatusResponse world _ _
  · exact h

theorem retry (h : Within allowed s) : Within allowed (s.retry world).1 := by
  unfold FileTransmission.retry
  split
  · exact h
  · next payload rest _ =>
      have popped : Within allowed { s with pendingReceiveResponses := rest } :=
        h.congr rfl rfl (fun _ member => member) rfl rfl rfl
      dsimp only
      split
      · exact popped
      · exact popped.write world payload true true

theorem retryAll (rounds : Nat) {s : FileTransmission} (h : Within allowed s) :
    Within allowed (FileTransmission.retryAll world rounds s) := by
  induction rounds generalizing s with
  | zero => exact h
  | succ rounds ih =>
    have one := h.retry world
    unfold FileTransmission.retryAll
    split
    · next after shape => rw [shape] at one; exact ih one
    · next after shape => rw [shape] at one; exact one

theorem tryPending (h : Within allowed s) : Within allowed (s.tryPending world) := by
  apply pruneExpired
  apply retryAll
  exact h.congr rfl rfl (fun _ member => member) rfl rfl rfl

/-! ### Chunks and signatures -/

/-- Reading a file leaves the session the same transfer. -/
theorem readFile (af : SourceFile) (asd : ActiveSend) (may : allowed asd.serial) (rounds : Nat)
    {s : FileTransmission} (h : Within allowed s) :
    Within allowed (FileTransmission.readFile world af asd rounds s).1 ∧
      (FileTransmission.readFile world af asd rounds s).2.1.serial = asd.serial := by
  induction rounds generalizing s asd with
  | zero => exact ⟨h, rfl⟩
  | succ rounds ih =>
    have touched := h.tick.touch may (.readSource af.path)
    unfold FileTransmission.readFile
    dsimp only
    split
    · exact ⟨touched, rfl⟩
    · split
      · exact ⟨touched.produce _, rfl⟩
      · split
        · exact ⟨touched.produce _, rfl⟩
        · apply ih
          · exact may
          · exact touched

theorem nextChunk {asd : ActiveSend} (may : asd.Running → allowed asd.serial)
    (h : Within allowed s) :
    Within allowed (s.nextChunk world asd).1 ∧
      ((s.nextChunk world asd).2.1.Running → allowed (s.nextChunk world asd).2.1.serial) := by
  unfold FileTransmission.nextChunk
  split
  · exact ⟨h, may⟩
  · split
    · next af active =>
        have mine : allowed asd.serial := may (.inr (.inr (.inr (by simp [active]))))
        obtain ⟨within, same⟩ := readFile world af asd mine (world.rounds s.clock) h
        exact ⟨within, fun _ => by rw [same]; exact mine⟩
    · split
      · exact ⟨h, may⟩
      · next key af found =>
          have nonempty : asd.queuedFilesMap ≠ [] :=
            List.ne_nil_of_mem (List.mem_of_find?_eq_some found)
          have mine : allowed asd.serial := may (.inr (.inr (.inl nonempty)))
          obtain ⟨within, same⟩ := readFile world af
            { asd with queuedFilesMap := asd.queuedFilesMap.filter (·.1 ≠ key) } mine
            (world.rounds s.clock) h
          exact ⟨within, fun _ => by rw [same]; exact mine⟩

theorem writeChunk {asd : ActiveSend} (may : asd.Running → allowed asd.serial)
    (h : Within allowed s) (ftc : Command) :
    Within allowed (s.writeChunk world asd ftc).1 := by
  have written := h.write world { ftc with id := asd.id } false false
  unfold FileTransmission.writeChunk
  dsimp only
  split
  · next after shape => rw [shape] at written; exact written
  · next after shape =>
      rw [shape] at written
      have returned : Within allowed (after.setSend { asd with
          pendingChunks := { ftc with id := asd.id } :: asd.pendingChunks }) :=
        written.setSend may
      exact returned.callbackAfter fun _ same => by cases same

theorem pumpRound {asd : ActiveSend} (may : asd.Running → allowed asd.serial)
    (h : Within allowed s) : Within allowed (s.pumpRound world asd).1 := by
  obtain ⟨within, mine⟩ := h.nextChunk world may
  unfold FileTransmission.pumpRound
  split
  · next after asd' errname shape =>
      rw [shape] at within mine
      exact ((within.setSend mine).sendFailOnOsError world _ _ _ _ _).dropSend _
  · next after asd' shape =>
      rw [shape] at within mine
      exact within.setSend mine
  · next after asd' ftc shape =>
      rw [shape] at within mine
      exact (within.setSend mine).writeChunk world mine ftc

theorem pumpSendChunks (sendId : String) (rounds : Nat) {s : FileTransmission}
    (h : Within allowed s) :
    Within allowed (FileTransmission.pumpSendChunks world sendId rounds s) := by
  induction rounds generalizing s with
  | zero => exact h
  | succ rounds ih =>
    unfold FileTransmission.pumpSendChunks
    split
    · exact h
    · next asd found =>
        have one := h.pumpRound world (h.sends asd (send?_mem found))
        split
        · next after shape => rw [shape] at one; exact ih one
        · next after shape => rw [shape] at one; exact one

theorem pumpSends (ids : List String) {s : FileTransmission} (h : Within allowed s) :
    Within allowed (FileTransmission.pumpSends world ids s) := by
  induction ids generalizing s with
  | nil => exact h
  | cons id rest ih =>
    unfold FileTransmission.pumpSends
    split
    · exact h
    · split
      · have pumped := h.pumpSendChunks world id (world.rounds s.clock)
        dsimp only
        split
        · exact ih pumped
        · exact pumped
      · exact ih h

theorem writeUntilFull (chunks : List Command) {s : FileTransmission} (h : Within allowed s) :
    Within allowed (FileTransmission.writeUntilFull world chunks s).1 := by
  induction chunks generalizing s with
  | nil => exact h
  | cons ftc rest ih =>
    have written := h.write world ftc false false
    unfold FileTransmission.writeUntilFull
    split
    · next after shape => rw [shape] at written; exact ih written
    · next after shape => rw [shape] at written; exact written

theorem transmitRsyncSignature {job : SignatureJob} (may : allowed job.serial)
    (h : Within allowed s) : Within allowed (s.transmitRsyncSignature world job) := by
  have again : ∀ pending, ∀ other, Timer.signature { job with pending } = .signature other →
      allowed other.serial := by
    intro pending other same
    cases same
    exact may
  unfold FileTransmission.transmitRsyncSignature
  split
  · exact h
  · have flushed := h.writeUntilFull world job.pending
    split
    · next after first rest shape =>
        rw [shape] at flushed
        exact flushed.callbackAfter (again _)
    · next after shape =>
        rw [shape] at flushed
        have touched := flushed.tick.touch may (.readSignature job.path)
        split
        · exact touched.sendFailOnOsError world _ _ _ _ _
        · exact touched.respond world _
        · exact touched.respond world _
        · exact ((touched.produce _).writeUntilFull world _).callbackAfter (again _)

/-! ### Permission -/

theorem handleSendConfirmation (h : Within allowed s) {confirmed : Bool} {cmdId : String}
    (may : confirmed = true → ∀ ar, s.receive? cmdId = some ar → allowed ar.serial) :
    Within allowed (s.handleSendConfirmation world confirmed cmdId) := by
  unfold FileTransmission.handleSendConfirmation
  cases found : s.receive? cmdId with
  | none => exact h
  | some ar =>
    have answered : Within allowed (if confirmed then s.setReceive { ar with accepted := true }
        else s.dropReceive ar.id) := by
      split
      next yes => exact h.setReceive fun _ => may yes ar found
      next => exact h.dropReceive _
    dsimp only
    split
    · split
      · exact answered.sendStatusResponse world _ _
      · exact answered
    · split
      · exact answered.sendStatusResponse world _ _
      · exact answered

theorem sendMetadata (asd : ActiveSend) (items : List (Command ⊕ TransmissionError))
    {s : FileTransmission} (h : Within allowed s) :
    Within allowed (FileTransmission.sendMetadata world asd items s) := by
  induction items generalizing s with
  | nil => exact h
  | cons item rest ih =>
    cases item with
    | inl ftc => exact ih (h.respond world _)
    | inr err =>
      apply ih
      split
      · exact h.sendTransmissionError world _ _
      · exact h

theorem sendMetadataForSendTransfer {asd : ActiveSend} (may : allowed asd.serial)
    (h : Within allowed s) : Within allowed (s.sendMetadataForSendTransfer world asd) := by
  have noted : Within allowed { s.tick with
      effects := s.effects ++
        asd.fileSpecs.map fun spec => (asd.serial, Effect.reportMetadata spec.2) } := by
    constructor
    · exact h.receives
    · exact h.sends
    · exact h.jobs
    · intro e member
      obtain old | new := List.mem_append.1 member
      · exact h.effects e old
      · obtain ⟨spec, _, rfl⟩ := List.mem_map.1 new
        exact may
    · exact h.grants
  have sent := noted.sendMetadata world asd (world.iterFileMetadata s.clock asd.fileSpecs)
  unfold FileTransmission.sendMetadataForSendTransfer
  dsimp only
  split
  · exact (sent.sendStatusResponse world _ _).setSend fun _ => may
  · exact (sent.sendStatusResponse world _ _).dropSend _

theorem handleReceiveConfirmation (h : Within allowed s) {confirmed : Bool} {cmdId : String}
    (may : confirmed = true → ∀ asd, s.send? cmdId = some asd → allowed asd.serial) :
    Within allowed (s.handleReceiveConfirmation world confirmed cmdId) := by
  unfold FileTransmission.handleReceiveConfirmation
  cases found : s.send? cmdId with
  | none => exact h
  | some asd =>
    have mine : (confirmed || asd.accepted) = true → allowed asd.serial := by
      intro accepted
      obtain yes | before := Bool.or_eq_true_iff.1 accepted
      · exact may yes asd found
      · exact h.sends asd (send?_mem found) (.inl before)
    have answered : Within allowed (if confirmed then
        s.setSend { asd with accepted := confirmed || asd.accepted }
        else s.dropSend asd.id) := by
      split
      next yes => exact h.setSend fun _ => may yes asd found
      next => exact h.dropSend _
    dsimp only
    split
    next accepted =>
      have acknowledged : Within allowed (if asd.sendAcknowledgements then
          FileTransmission.sendStatusResponse world (if confirmed then
            s.setSend { asd with accepted := confirmed || asd.accepted }
            else s.dropSend asd.id) asd.id { code := "OK", msg := "" }
          else if confirmed then s.setSend { asd with accepted := confirmed || asd.accepted }
            else s.dropSend asd.id) := by
        split
        · exact answered.sendStatusResponse world _ _
        · exact answered
      split
      · exact acknowledged.sendMetadataForSendTransfer world (mine accepted)
      · exact acknowledged
    next =>
      split
      · exact answered.sendStatusResponse world _ _
      · exact answered

end Within

/-- Everything that can touch files or has touched files is authorised. -/
def Safe (s : FileTransmission) : Prop := Within s.Authorised s

theorem Within.safe {allowed : Nat → Prop} {s : FileTransmission} (h : Within allowed s) : Safe s :=
  h.mono h.grants fun _ granted => granted

/-- More approvals keep a state safe. -/
theorem Safe.approve {s s' : FileTransmission} (h : Safe s)
    (receives : s'.activeReceives = s.activeReceives) (sends : s'.activeSends = s.activeSends)
    (timers : s'.timers = s.timers) (effects : s'.effects = s.effects)
    (more : ∀ n, s.Authorised n → s'.Authorised n) : Safe s' where
  receives := fun ar member running => more _ (h.receives ar (receives ▸ member) running)
  sends := fun asd member running => more _ (h.sends asd (sends ▸ member) running)
  jobs := fun job member => more _ (h.jobs job (timers ▸ member))
  effects := fun e member => more _ (h.effects e (effects ▸ member))
  grants := fun _ granted => granted

namespace Safe

variable {s : FileTransmission} (world : World)

theorem startReceive (h : Safe s) {ar : ActiveReceive} (found : s.receive? ar.id = some ar) :
    Safe (s.startReceive world ar) := by
  unfold FileTransmission.startReceive
  split
  · next ok _ =>
      have noted : Safe { s with
          bypassed := if ok then s.bypassed ++ [ar.serial] else s.bypassed } := by
        refine h.approve rfl rfl rfl rfl fun n granted => granted.imp_left fun member => ?_
        split
        · exact List.mem_append_left _ member
        · exact member
      apply Within.safe (Within.handleSendConfirmation world noted _)
      intro yes other same
      obtain rfl := Option.some.inj (found.symm.trans same)
      left
      rw [if_pos yes]
      exact List.mem_append_right _ (List.mem_singleton_self _)
  · split
    · exact h.congr rfl rfl (fun _ member => member) rfl rfl rfl
    · exact h

theorem startSend (h : Safe s) {asd : ActiveSend} (found : s.send? asd.id = some asd) :
    Safe (s.startSend world asd) := by
  unfold FileTransmission.startSend
  split
  · next ok _ =>
      have noted : Safe { s with
          bypassed := if ok then s.bypassed ++ [asd.serial] else s.bypassed } := by
        refine h.approve rfl rfl rfl rfl fun n granted => granted.imp_left fun member => ?_
        split
        · exact List.mem_append_left _ member
        · exact member
      apply Within.safe (Within.handleReceiveConfirmation world noted _)
      intro yes other same
      obtain rfl := Option.some.inj (found.symm.trans same)
      left
      rw [if_pos yes]
      exact List.mem_append_right _ (List.mem_singleton_self _)
  · split
    · exact h.congr rfl rfl (fun _ member => member) rfl rfl rfl
    · exact h

end Safe

/-! ### Commands for a receive session -/

namespace Within

variable {allowed : Nat → Prop} {s : FileTransmission} (world : World)

theorem reportError (h : Within allowed s) (sendErrors : Bool) (requestId : String)
    (err : TransmissionError) : Within allowed (s.reportError world sendErrors requestId err) := by
  unfold FileTransmission.reportError
  split
  · exact h.sendTransmissionError world _ _
  · exact h

theorem startedFile {ar : ActiveReceive} (may : allowed ar.serial) (h : Within allowed s)
    (df : DestFile) : Within allowed (s.startedFile world ar df) := by
  unfold FileTransmission.startedFile
  dsimp only
  generalize (if df.existingSize.getD (-1) > -1 ∧ df.ttype = .rsync ∧ df.ftype = .regular then
    TransmissionType.rsync else .simple) = ttype
  generalize responded : s.sendStatusResponse world ar.id _ = t
  have started : Within allowed (t.setReceive
      { ar with files := setItem ar.files df.fileId { df with ttype := ttype } }) := by
    rw [← responded]
    exact (h.sendStatusResponse world _ _).setReceive fun _ => may
  split
  · have touched := started.tick.touch may (.readSignature df.name)
    split
    · exact touched.sendFailOnOsError world _ _ _ _ _
    · refine touched.callbackAfter fun job same => ?_
      cases same
      exact may
  · exact started

theorem receiveFile {ar : ActiveReceive} (may : allowed ar.serial) (h : Within allowed s)
    (cmd : Command) : Within allowed (s.receiveFile world ar cmd) := by
  unfold FileTransmission.receiveFile
  split
  · exact h.reportError world _ _ _
  · have touched := h.tick.touch may (.stat cmd.name)
    dsimp only
    split
    · exact touched.reportError world _ _ _
    · next df _ =>
        have added : Within allowed ((s.tick.touch ar.serial (.stat cmd.name)).setReceive
            { ar with files := setItem ar.files cmd.fileId df }) := touched.setReceive fun _ => may
        split
        · have made := added.tick.touch may (.makedirs df.name)
          split
          · exact made.sendFailOnOsError world _ _ _ _ _
          · exact made.sendStatusResponse world _ _
        · split
          · apply startedFile
            · exact may
            · exact added
          · exact added

theorem writeData {ar : ActiveReceive} (may : allowed ar.serial) (h : Within allowed s)
    (df : DestFile) (cmd : Command) : Within allowed (s.writeData world ar df cmd).1 := by
  unfold FileTransmission.writeData
  split
  · exact h
  · split
    · exact h
    · exact h.tick.touch may _

theorem receiveData {ar : ActiveReceive} (may : allowed ar.serial) (h : Within allowed s)
    (cmd : Command) : Within allowed (s.receiveData world ar cmd) := by
  unfold FileTransmission.receiveData
  split
  · exact h.reportError world _ _ _
  · next df _ =>
      have written := h.writeData world may df cmd
      split
      · exact h
      · split
        · next after failure shape =>
            rw [shape] at written
            have failed : Within allowed (after.setReceive { ar with
                files := setItem ar.files cmd.fileId { df with failed := true, closed := true } }) :=
              written.setReceive fun _ => may
            apply reportError
            split
            · exact failed.touch may _
            · exact failed
        · next after result shape =>
            rw [shape] at written
            have stored : Within allowed (after.setReceive
                { ar with files := setItem ar.files cmd.fileId result }) :=
              written.setReceive fun _ => may
            split
            · split
              · exact stored.sendStatusResponse world _ _
              · split
                · exact stored.sendStatusResponse world _ _
                · exact stored
            · exact stored

theorem receiveFinish {ar : ActiveReceive} (may : allowed ar.serial) (h : Within allowed s) :
    Within allowed (s.receiveFinish world ar) := by
  have touched := h.tick.touch may .applyMetadata
  unfold FileTransmission.receiveFinish
  split
  · exact (touched.reportError world _ _ _).dropReceive _
  · exact touched.dropReceive _

end Within

/-- A session that is appended is the one its id finds, when the id was free. -/
theorem find?_append_self {α : Type} {p : α → Bool} {l : List α} {a : α} (free : l.find? p = none)
    (here : p a = true) : (l ++ [a]).find? p = some a := by
  rw [List.find?_append, free]
  simp [here]

theorem Within.addReceive {allowed : Nat → Prop} {s : FileTransmission} (h : Within allowed s)
    {ar : ActiveReceive} (idle : ¬ ar.Running) (transfers : Nat) :
    Within allowed { s.tick with
      activeReceives := s.activeReceives ++ [ar], transfers := transfers } where
  receives := fun other member running => by
    obtain old | new := List.mem_append.1 member
    · exact h.receives other old running
    · rw [List.mem_singleton.1 new] at running
      exact absurd running idle
  sends := h.sends
  jobs := h.jobs
  effects := h.effects
  grants := h.grants

theorem Within.addSend {allowed : Nat → Prop} {s : FileTransmission} (h : Within allowed s)
    {asd : ActiveSend} (idle : ¬ asd.Running) (transfers : Nat) :
    Within allowed { s.tick with
      activeSends := s.activeSends ++ [asd], transfers := transfers } where
  receives := h.receives
  sends := fun other member running => by
    obtain old | new := List.mem_append.1 member
    · exact h.sends other old running
    · rw [List.mem_singleton.1 new] at running
      exact absurd running idle
  jobs := h.jobs
  effects := h.effects
  grants := h.grants

theorem handleReceiveCmd_safe (world : World) {s : FileTransmission} (h : Safe s) (cmd : Command) :
    Safe (s.handleReceiveCmd world cmd) := by
  unfold handleReceiveCmd
  cases found : s.receive? cmd.id with
  | none =>
    dsimp only
    split
    · exact h
    · split
      · exact h
      · apply Safe.startReceive
        · apply Within.addReceive h
          simp [ActiveReceive.Running]
        · exact find?_append_self found (by simp)
  | some ar =>
    have mine : ar.accepted = true → s.Authorised ar.serial :=
      fun accepted => h.receives ar (receive?_mem found) (.inl accepted)
    dsimp only
    split
    · exact (Within.dropReceive h _).safe
    · split
      · exact (Within.dropReceive h _).safe
      · next accepted =>
          have may := mine (by simpa using accepted)
          split
          · split
            · exact ((Within.dropReceive h _).sendStatusResponse world _ _).safe
            · exact (Within.dropReceive h _).safe
          · exact (Within.receiveFile world may h cmd).safe
          · exact (Within.receiveData world may h cmd).safe
          · exact (Within.receiveData world may h cmd).safe
          · exact (Within.receiveFinish world may h).safe
          · exact h

/-! ### Commands for a send session -/

namespace Within

variable {allowed : Nat → Prop} {s : FileTransmission} (world : World)

theorem addSendFile {asd : ActiveSend} (may : allowed asd.serial) (h : Within allowed s)
    (cmd : Command) : Within allowed (s.addSendFile world asd cmd) := by
  have touched := h.tick.touch may (.openSource cmd.name)
  unfold FileTransmission.addSendFile
  split
  · exact (h.dropSend _).reportError world _ _ _
  · split
    · exact (touched.sendFailOnOsError world _ _ _ _ _).dropSend _
    · exact (touched.dropSend _).reportError world _ _ _
    · exact touched
    · apply pumpSendChunks
      apply touched.setSend
      exact fun _ => may

theorem addFileSpec {asd : ActiveSend} (may : asd.Running → allowed asd.serial)
    (h : Within allowed s) (cmd : Command) : Within allowed (s.addFileSpec world asd cmd) := by
  unfold FileTransmission.addFileSpec
  split
  · exact (h.dropSend _).reportError world _ _ _
  · have stored : Within allowed (s.setSend
        { asd with fileSpecs := asd.fileSpecs ++ [(cmd.fileId, cmd.name)] }) := h.setSend may
    dsimp only
    split
    · next ready =>
        apply sendMetadataForSendTransfer
        · exact may (.inl ready.2)
        · exact stored
    · exact stored

theorem addSignatureData {asd : ActiveSend} (may : asd.Running → allowed asd.serial)
    (h : Within allowed s) (cmd : Command) :
    Within allowed (s.addSignatureData world asd cmd).1 := by
  unfold FileTransmission.addSignatureData
  split
  · exact (h.dropSend _).reportError world _ _ _
  · next file found =>
      have nonempty : asd.queuedFilesMap ≠ [] := by
        rintro empty
        rw [empty] at found
        cases found
      have mine : allowed asd.serial := may (.inr (.inr (.inl nonempty)))
      split
      · exact (h.dropSend _).reportError world _ _ _
      · have read : Within allowed (if cmd.action = .endData then
            s.tick.touch asd.serial (.readSource file.path) else s.tick) := by
          split
          · exact h.tick.touch mine _
          · exact h.tick
        dsimp only
        split
        · exact read
        · apply pumpSendChunks
          apply read.setSend
          exact fun _ => mine

end Within

theorem handleSendCmd_safe (world : World) {s : FileTransmission} (h : Safe s) (cmd : Command) :
    Safe (s.handleSendCmd world cmd) := by
  unfold handleSendCmd
  cases found : s.send? cmd.id with
  | none =>
    dsimp only
    split
    · exact h
    · split
      · exact h
      · apply Safe.startSend
        · apply Within.addSend h
          simp [ActiveSend.Running]
        · exact find?_append_self found (by simp)
  | some asd =>
    have may : asd.Running → s.Authorised asd.serial := h.sends asd (send?_mem found)
    have within := Within.addSignatureData world may h cmd
    dsimp only
    generalize s.addSignatureData world asd cmd = answer at within ⊢
    obtain ⟨after, stops⟩ := answer
    have dropped : Safe (if !asd.accepted then after.dropSend cmd.id else after) := by
      split
      · exact (within.dropSend _).safe
      · exact within.safe
    split
    · exact (Within.dropSend h _).safe
    · split
      · next sent => exact (Within.addSendFile world (may (.inr (.inl sent))) h cmd).safe
      · exact (Within.addFileSpec world may h cmd).safe
    · cases stops with
      | true => exact within.safe
      | false => exact dropped
    · cases stops with
      | true => exact within.safe
      | false => exact dropped
    · exact (Within.dropSend h _).safe
    · exact (Within.dropSend h _).safe
    · split
      · exact (Within.dropSend h _).safe
      · split
        · exact ((Within.dropSend h _).sendStatusResponse world _ _).safe
        · exact (Within.dropSend h _).safe
    · split
      · exact (Within.dropSend h _).safe
      · exact h
    · split
      · exact (Within.dropSend h _).safe
      · exact h

/-! ### The machine -/

theorem handleSerializedCommand_safe (world : World) {s : FileTransmission} (h : Safe s)
    (cmd : Command) : Safe (s.handleSerializedCommand world cmd) := by
  unfold handleSerializedCommand
  split
  · exact h
  · split
    · exact handleReceiveCmd_safe world h cmd
    · split
      · exact handleSendCmd_safe world h cmd
      · have pruned := (Within.pruneExpired world h).safe
        have sent : ∀ t : FileTransmission, Safe t →
            Safe (if (t.send? cmd.id).isSome ∨ cmd.action = .receive then
              t.handleSendCmd world cmd else t) := by
          intro t ht
          split
          · exact handleSendCmd_safe world ht cmd
          · exact ht
        apply sent
        split
        · exact handleReceiveCmd_safe world pruned cmd
        · exact pruned

/-- The transfer that has the id of a prompt now, if there is one, is the one that the prompt was
raised for, or one that is authorised. -/
def OwnPrompt (s : FileTransmission) (prompt : Prompt) : Prop :=
  match prompt.direction with
  | .receive => ∀ ar, s.receive? prompt.id = some ar →
      ar.serial = prompt.serial ∨ s.Authorised ar.serial
  | .send => ∀ asd, s.send? prompt.id = some asd →
      asd.serial = prompt.serial ∨ s.Authorised asd.serial

/-- A yes answer does not find another transfer that waits for permission. -/
def AnswersOwn (s : FileTransmission) : Event → Prop
  | .answer i true => ∀ prompt, s.prompts[i]? = some prompt → s.OwnPrompt prompt
  | _ => True

theorem answerPrompt_safe (world : World) {s : FileTransmission} (h : Safe s) (prompt : Prompt)
    (confirmed : Bool) (own : confirmed = true → s.OwnPrompt prompt) :
    Safe (s.answerPrompt world prompt confirmed) := by
  have noted : Safe { s with
      approved := if confirmed then s.approved ++ [prompt.serial] else s.approved } := by
    refine h.approve rfl rfl rfl rfl fun n granted => granted.imp_right fun member => ?_
    split
    · exact List.mem_append_left _ member
    · exact member
  have approves : confirmed = true → ∀ n, n = prompt.serial ∨ s.Authorised n →
      Authorised { s with
        approved := if confirmed then s.approved ++ [prompt.serial] else s.approved } n := by
    rintro yes n (rfl | before)
    · right
      rw [if_pos yes]
      exact List.mem_append_right _ (List.mem_singleton_self _)
    · refine before.imp_right fun member => ?_
      rw [if_pos yes]
      exact List.mem_append_left _ member
  unfold OwnPrompt at own
  unfold answerPrompt
  cases direction : prompt.direction with
  | receive =>
    rw [direction] at own
    apply Within.safe (Within.handleSendConfirmation world noted _)
    exact fun yes ar found => approves yes _ (own yes ar found)
  | send =>
    rw [direction] at own
    apply Within.safe (Within.handleReceiveConfirmation world noted _)
    exact fun yes asd found => approves yes _ (own yes asd found)

theorem runTimer_safe (world : World) {s : FileTransmission} (h : Safe s) {timer : Timer}
    (may : ∀ job, timer = .signature job → s.Authorised job.serial) :
    Safe (s.runTimer world timer) := by
  cases timer with
  | tryPending => exact (Within.tryPending world h).safe
  | pumpSends => exact (Within.pumpSends world _ h).safe
  | signature job => exact (Within.transmitRsyncSignature world (may job rfl) h).safe

theorem step_safe (world : World) (s : FileTransmission) (e : Event) (next : FileTransmission)
    (h : Safe s) (own : AnswersOwn s e) (taken : s.step world e = some next) : Safe next := by
  cases e with
  | command cmd =>
    cases taken
    exact handleSerializedCommand_safe world h.tick.safe cmd
  | answer i confirmed =>
    obtain ⟨prompt, open_, rest⟩ := Option.bind_eq_some_iff.1 taken
    cases rest
    apply answerPrompt_safe world
    · exact h.congr rfl rfl (fun _ member => member) rfl rfl rfl
    · intro yes
      cases yes
      exact own prompt open_
  | timer i =>
    obtain ⟨timer, waiting, rest⟩ := Option.bind_eq_some_iff.1 taken
    cases rest
    apply runTimer_safe world
    · exact h.congr rfl rfl (fun _ member => List.mem_of_mem_eraseIdx member) rfl rfl rfl
    · intro job same
      exact h.jobs job (same ▸ List.mem_of_getElem? waiting)

/-- Every file touched so far was touched for an authorised transfer. -/
def Permitted (s : FileTransmission) : Prop := ∀ e ∈ s.effects, s.Authorised e.1

end FileTransmission

open FileTransmission

/-- In every run whose yes answers find the transfer that they were given for, files are touched for
authorised transfers only. -/
theorem transferPermission (world : World) (events : List Event)
    (own : ∀ state event, Takes (FileTransmission.step world) {} events state event →
      AnswersOwn state event) :
    ∀ state, Visits (FileTransmission.step world) {} events state → Permitted state := by
  intro state visited
  have start : Safe ({} : FileTransmission) := by
    constructor
    · exact fun _ member => absurd member List.not_mem_nil
    · exact fun _ member => absurd member List.not_mem_nil
    · exact fun _ member => absurd member List.not_mem_nil
    · exact fun _ member => absurd member List.not_mem_nil
    · exact fun _ granted => granted
  have safe := visits_of_takes Safe AnswersOwn
    (fun s e next here owned taken => step_safe world s e next here owned taken) start own visited
  exact safe.effects

/-- A world in which every write is taken and every file operation works. -/
def quietWorld : World where
  answer := fun _ => .queued
  confirms := fun _ => true
  expired := fun _ _ => false
  confirmationBypass := fun _ => ""
  encodeBypass := fun _ _ => ""
  homePath := fun _ => "/home"
  destFile := fun _ cmd =>
    .ok { name := cmd.name, fileId := cmd.fileId, ftype := cmd.ftype, ttype := cmd.ttype }
  makedirs := fun _ _ => none
  signatureOfFile := fun _ _ => none
  nextSignature := fun _ _ => .ok none
  writeData := fun _ _ df _ => .ok df
  commit := fun _ _ => none
  iterFileMetadata := fun _ _ => []
  sourceFile := fun _ cmd => .ok { fileId := cmd.fileId, path := cmd.name }
  addSignature := fun _ file _ => .ok file
  readChunk := fun _ _ => .ok ([], true)
  rounds := fun _ => 1

/-- The user allows a transfer, and it starts a file. -/
theorem transferPermission_allowed :
    ∃ state, Visits (FileTransmission.step quietWorld) {}
        [.command { action := .send, id := "a" }, .answer 0 true,
          .command { action := .file, id := "a", fileId := "f", name := "/tmp/f" }] state ∧
      state.effects ≠ [] ∧ Permitted state := by
  refine ⟨_, ⟨_, List.prefix_refl _, rfl⟩, by decide, ?_⟩
  apply transferPermission quietWorld
    [.command { action := .send, id := "a" }, .answer 0 true,
      .command { action := .file, id := "a", fileId := "f", name := "/tmp/f" }] _ _
    ⟨_, List.prefix_refl _, rfl⟩
  intro state event taken
  obtain ⟨rfl, rfl⟩ | ⟨first, firstEq, taken⟩ := takes_cons taken
  · trivial
  · cases firstEq
    obtain ⟨rfl, rfl⟩ | ⟨second, -, taken⟩ := takes_cons taken
    · intro prompt raised
      cases raised
      intro ar found
      cases found
      exact .inl rfl
    · obtain ⟨rfl, rfl⟩ | ⟨third, -, taken⟩ := takes_cons taken
      · trivial
      · exact absurd taken (not_takes_nil _ _ _ _)

/-- A transfer is cancelled while its prompt is open and another is started with its id: the answer to
the first prompt permits the second, which then starts a file. -/
theorem transferPermission_reused_id :
    ∃ state, Visits (FileTransmission.step quietWorld) {}
        [.command { action := .send, id := "a" }, .command { action := .cancel, id := "a" },
          .command { action := .send, id := "a" }, .answer 0 true,
          .command { action := .file, id := "a", fileId := "f", name := "/tmp/f" }] state ∧
      ¬ Permitted state := by
  refine ⟨_, ⟨_, List.prefix_refl _, rfl⟩, ?_⟩
  intro permitted
  have touched := permitted (1, .stat "/tmp/f") (by decide)
  revert touched
  unfold Authorised
  decide

end Smelly
