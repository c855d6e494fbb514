/-
Module: Smelly.Proofs.ChildWriteQueue
Purpose: Writes to children under back-pressure: what a child has got, followed by what its write
  buffer holds, is what was accepted for it, in every interleaving of requests and writer steps.
Trusted boundary: none
-/
import Smelly.Core.ChildMonitor
import Smelly.Lib.Run

namespace Smelly

open MemoryBlock Run

/-- The buffer has its recorded size, and no more is in use. -/
structure WriteBuf.Sound (b : WriteBuf) : Prop where
  length : b.writeBuf.length = b.writeBufSz
  used : b.writeBufUsed ≤ b.writeBufSz

theorem WriteBuf.new_sound (bufsiz : Nat) : (WriteBuf.new bufsiz).Sound :=
  ⟨List.length_replicate, Nat.zero_le _⟩

@[simp] theorem WriteBuf.new_pending (bufsiz : Nat) : (WriteBuf.new bufsiz).pending = [] :=
  List.take_zero

theorem WriteBuf.Sound.length_pending {b : WriteBuf} (sound : b.Sound) :
    b.pending.length = b.writeBufUsed := by
  have length := sound.length
  have used := sound.used
  rw [pending, List.length_take]
  omega

/-! ### Requests -/

theorem WriteBuf.Sound.realloc {b : WriteBuf} {size : Nat} (enough : b.writeBufUsed ≤ size) :
    (b.realloc size).Sound :=
  ⟨length_resize 0 b.writeBuf size, enough⟩

theorem WriteBuf.Sound.pending_realloc {b : WriteBuf} (sound : b.Sound) {size : Nat}
    (enough : b.writeBufUsed ≤ size) : (b.realloc size).pending = b.pending :=
  take_resize 0 (by rw [sound.length]; exact sound.used) enough

theorem WriteBuf.append_spec {b : WriteBuf} (sound : b.Sound) (pieces : List Bytes)
    (room : b.writeBufUsed + (pieces.map List.length).sum ≤ b.writeBufSz) :
    ∃ filled, b.append pieces = some filled ∧ filled.Sound ∧
      filled.pending = b.pending ++ pieces.flatten := by
  induction pieces generalizing b with
  | nil => exact ⟨b, rfl, sound, by simp⟩
  | cons data rest ih =>
    simp only [List.map_cons, List.sum_cons] at room
    have length := sound.length
    obtain ⟨writeBuf, copied, sameLength, taken⟩ :=
      exists_copyIn b.writeBuf b.writeBufUsed data (by omega)
    have nextSound : WriteBuf.Sound { b with
        writeBuf := writeBuf, writeBufUsed := b.writeBufUsed + data.length } :=
      ⟨sameLength.trans length, by dsimp only; omega⟩
    obtain ⟨filled, appended, filledSound, pending⟩ := ih nextSound (by dsimp only; omega)
    refine ⟨filled, ?_, filledSound, ?_⟩
    · rw [WriteBuf.append, copied]
      exact appended
    · rw [pending, WriteBuf.pending, taken, List.flatten_cons, List.append_assoc,
        WriteBuf.pending]

/-- A request is accepted whole or not at all. -/
theorem WriteBuf.schedule_spec (bufsiz : Nat) {b : WriteBuf} (sound : b.Sound)
    (pieces : List Bytes) :
    ∃ found next, b.schedule bufsiz pieces = some (found, next) ∧ next.Sound ∧
      next.pending = if found then b.pending ++ pieces.flatten else b.pending := by
  unfold WriteBuf.schedule
  by_cases rejected : b.writeBufSz - b.writeBufUsed < (pieces.map List.length).sum ∧
      b.writeBufUsed + (pieces.map List.length).sum > writeLimit
  · exact ⟨false, b, if_pos rejected, sound, rfl⟩
  · have grown : ∃ roomy : WriteBuf, roomy.Sound ∧ roomy.pending = b.pending ∧
        roomy.writeBufUsed + (pieces.map List.length).sum ≤ roomy.writeBufSz ∧
        (if b.writeBufSz - b.writeBufUsed < (pieces.map List.length).sum then
          b.realloc (b.writeBufUsed + (pieces.map List.length).sum) else b) = roomy := by
      by_cases full : b.writeBufSz - b.writeBufUsed < (pieces.map List.length).sum
      · have enough : b.writeBufUsed ≤ b.writeBufUsed + (pieces.map List.length).sum := by omega
        exact ⟨_, .realloc enough, sound.pending_realloc enough, Nat.le_refl _, if_pos full⟩
      · have used := sound.used
        exact ⟨b, sound, rfl, by omega, if_neg full⟩
    obtain ⟨roomy, roomySound, roomyPending, room, roomyEq⟩ := grown
    obtain ⟨filled, appended, filledSound, filledPending⟩ := append_spec roomySound pieces room
    rw [if_neg rejected, roomyEq, appended, Option.bind_eq_bind, Option.bind_some, ← roomyPending]
    by_cases shrunk : filled.writeBufSz > bufsiz ∧ filled.writeBufUsed < bufsiz
    · have enough : filled.writeBufUsed ≤ bufsiz := by omega
      exact ⟨true, filled.realloc bufsiz, by rw [if_pos shrunk], .realloc enough,
        (filledSound.pending_realloc enough).trans filledPending⟩
    · exact ⟨true, filled, by rw [if_neg shrunk], filledSound, filledPending⟩

/-- The request goes to the first child with the id, and leaves the other children as they are. -/
theorem scheduleWriteToChild_spec (bufsiz id : Nat) (pieces : List Bytes) (children : List Child)
    (sound : ∀ child ∈ children, child.screen.Sound) :
    ∃ found next, scheduleWriteToChild bufsiz id pieces children = some (found, next) ∧
      next.length = children.length ∧
      ∀ position before after, children[position]? = some before → next[position]? = some after →
        after.screen.Sound ∧ after.screen.pending =
          if found ∧ position = children.findIdx (·.id = id) then
            before.screen.pending ++ pieces.flatten
          else before.screen.pending := by
  induction children with
  | nil => exact ⟨false, [], rfl, rfl, by simp⟩
  | cons child rest ih =>
    rw [scheduleWriteToChild]
    by_cases this : child.id = id
    · obtain ⟨found, screen, scheduled, nextSound, pending⟩ :=
        WriteBuf.schedule_spec bufsiz (sound child (by simp)) pieces
      refine ⟨found, { child with screen } :: rest, ?_, rfl, ?_⟩
      · rw [if_pos this, scheduled]
        rfl
      · intro position before after beforeAt afterAt
        rw [List.findIdx_cons, decide_eq_true this, cond_true]
        cases position with
        | zero =>
          obtain rfl : child = before := by simpa using beforeAt
          obtain rfl : { child with screen } = after := by simpa using afterAt
          exact ⟨nextSound, by simpa using pending⟩
        | succ position =>
          obtain rfl : before = after := Option.some.inj (beforeAt.symm.trans afterAt)
          exact ⟨sound before (List.mem_cons_of_mem _ (List.mem_of_getElem? beforeAt)), by simp⟩
    · obtain ⟨found, next, scheduled, length, each⟩ :=
        ih (fun c inRest => sound c (List.mem_cons_of_mem _ inRest))
      refine ⟨found, child :: next, ?_, by simp [length], ?_⟩
      · rw [if_neg this, scheduled]
        rfl
      · intro position before after beforeAt afterAt
        rw [List.findIdx_cons, decide_eq_false this, cond_false]
        cases position with
        | zero =>
          obtain rfl : child = before := by simpa using beforeAt
          obtain rfl : child = after := by simpa using afterAt
          exact ⟨sound child (by simp), by simp⟩
        | succ position => simpa using each position before after beforeAt afterAt

/-! ### Writer steps -/

/-- The bytes the loop of `write_to_child` offers. -/
theorem WriteBuf.offered_eq (b : WriteBuf) (written : Nat) :
    (b.writeBuf.drop written).take (b.writeBufUsed - written) = b.pending.drop written := by
  rw [pending, List.drop_take]

/-- What the loop of `write_to_child` has handed over is the start of what was pending, unless
`write` has failed. -/
theorem WriteBuf.writeLoop_spec {b : WriteBuf} (sound : b.Sound) (answers : List WriteAnswer)
    (noError : WriteAnswer.failed ∉ answers) {written : Nat} (inUse : written ≤ b.writeBufUsed) :
    ∃ total, b.writeLoop written (b.pending.take written) answers = (total, b.pending.take total) ∧
      total ≤ b.writeBufUsed := by
  induction answers generalizing written with
  | nil => exact ⟨written, rfl, inUse⟩
  | cons answer rest ih =>
    have restNoError : WriteAnswer.failed ∉ rest := fun h => noError (List.mem_cons_of_mem _ h)
    unfold WriteBuf.writeLoop
    by_cases more : written < b.writeBufUsed
    · rw [if_pos more]
      cases answer with
      | wrote n =>
        have length : ((b.pending.drop written).take n).length =
            min n (b.writeBufUsed - written) := by
          rw [List.length_take, List.length_drop, sound.length_pending]
        have handed : b.pending.take written ++ (b.pending.drop written).take n =
            b.pending.take (written + ((b.pending.drop written).take n).length) := by
          rw [List.take_add, List.append_cancel_left_eq, List.take_eq_take_iff,
            List.length_take]
          omega
        simp only [b.offered_eq]
        by_cases nothing : (b.pending.drop written).take n = []
        · rw [if_pos nothing]
          exact ⟨written, rfl, inUse⟩
        · rw [if_neg nothing, handed]
          exact ih restNoError (by omega)
      | eintr => exact ih restNoError inUse
      | eagain => exact ⟨written, rfl, inUse⟩
      | failed => exact absurd List.mem_cons_self noError
    · rw [if_neg more]
      exact ⟨written, rfl, inUse⟩

/-- A writer step moves the start of what was pending to the child. -/
theorem writeToChild_spec {b : WriteBuf} (sound : b.Sound) (answers : List WriteAnswer)
    (noError : WriteAnswer.failed ∉ answers) :
    ∃ handed next, writeToChild b answers = some (handed, next) ∧ next.Sound ∧
      handed ++ next.pending = b.pending := by
  obtain ⟨written, loopEq, inUse⟩ := b.writeLoop_spec sound answers noError (Nat.zero_le _)
  rw [List.take_zero] at loopEq
  have split := List.take_append_drop written b.pending
  have rest : b.pending.drop written =
      (b.writeBuf.drop written).take (b.writeBufUsed - written) := (b.offered_eq written).symm
  have length := sound.length
  have used := sound.used
  rw [writeToChild, loopEq]
  by_cases none : written = 0
  · subst none
    exact ⟨_, b, if_pos rfl, sound, rfl⟩
  by_cases all : b.writeBufUsed - written = 0
  · refine ⟨b.pending.take written, { b with writeBufUsed := 0 }, ?_,
      ⟨length, Nat.zero_le _⟩, ?_⟩
    · simp only [if_neg none, all, if_true]
    · rw [all, List.take_zero] at rest
      rw [rest] at split
      exact split
  · obtain ⟨writeBuf, moved, sameLength, taken⟩ := 
      exists_move_front b.writeBuf written (b.writeBufUsed - written) (by omega)
    refine ⟨b.pending.take written,
      { b with writeBuf := writeBuf, writeBufUsed := b.writeBufUsed - written }, ?_,
      ⟨sameLength.trans length, by dsimp only; omega⟩, ?_⟩
    · simp only [if_neg none, if_neg all, moved]
      rfl
    · exact (congrArg (b.pending.take written ++ ·) (taken.trans rest.symm)).trans split

/-! ### Interleavings -/

/-- What happens to the children: a request for the child with an id, or a writer step for the
child at a position with the answers of `write`. -/
inductive MonitorEvent where
  | request (id : Nat) (pieces : List Bytes)
  | writer (position : Nat) (answers : List WriteAnswer)
deriving DecidableEq, Repr

/-- No call of `write` fails in another way than `EINTR` or `EAGAIN`. -/
def MonitorEvent.NoError : MonitorEvent → Prop
  | request _ _ => True
  | writer _ answers => WriteAnswer.failed ∉ answers

/-- The children, and beside them what each has got and what was accepted for it, by position. -/
structure ChildTraffic where
  children : List Child
  handed : Nat → Bytes
  accepted : Nat → List Bytes

def ChildTraffic.start (bufsiz : Nat) (ids : List Nat) : ChildTraffic where
  children := ids.map fun id => ⟨id, WriteBuf.new bufsiz⟩
  handed := fun _ => []
  accepted := fun _ => []

/-- One call, and its effect on the records beside the children. -/
def monitorStep (bufsiz : Nat) (t : ChildTraffic) : MonitorEvent → Option ChildTraffic
  | .request id pieces => do
      let (found, children) ← scheduleWriteToChild bufsiz id pieces t.children
      let position := t.children.findIdx (·.id = id)
      some { t with
        children
        accepted := if found then
            Function.update t.accepted position (t.accepted position ++ [pieces.flatten])
          else t.accepted }
  | .writer position answers =>
    match t.children[position]? with
    | none => some t
    | some child => do
        let (handed, screen) ← writeToChild child.screen answers
        some { t with
          children := t.children.set position { child with screen }
          handed := Function.update t.handed position (t.handed position ++ handed) }

/-- What each child has got, followed by what its buffer holds, is what was accepted for it. -/
def ChildTraffic.Conserved (t : ChildTraffic) : Prop :=
  ∀ position child, t.children[position]? = some child →
    child.screen.Sound ∧
      t.handed position ++ child.screen.pending = (t.accepted position).flatten

theorem conserved_start (bufsiz : Nat) (ids : List Nat) :
    (ChildTraffic.start bufsiz ids).Conserved := by
  intro position child childAt
  obtain ⟨id, -, rfl⟩ := List.mem_map.1 (List.mem_of_getElem? childAt)
  exact ⟨WriteBuf.new_sound bufsiz, WriteBuf.new_pending bufsiz⟩

theorem monitorStep_conserved (bufsiz : Nat) {t : ChildTraffic} (conserved : t.Conserved)
    {event : MonitorEvent} (noError : event.NoError) :
    ∃ next, monitorStep bufsiz t event = some next ∧ next.Conserved := by
  cases event with
  | request id pieces =>
    obtain ⟨found, children, scheduled, length, each⟩ :=
      scheduleWriteToChild_spec bufsiz id pieces t.children fun child member =>
        let ⟨position, childAt⟩ := List.mem_iff_getElem?.1 member
        (conserved position child childAt).1
    have stepEq : monitorStep bufsiz t (.request id pieces) = some { t with
        children
        accepted := if found then
            Function.update t.accepted (t.children.findIdx (·.id = id))
              (t.accepted (t.children.findIdx (·.id = id)) ++ [pieces.flatten])
          else t.accepted } := by
      simp only [monitorStep, scheduled]
      rfl
    refine ⟨_, stepEq, ?_⟩
    intro position after afterAt
    dsimp only at afterAt ⊢
    have inside : position < t.children.length := by
      rw [← length]
      exact (List.getElem?_eq_some_iff.1 afterAt).1
    have beforeAt := List.getElem?_eq_getElem inside
    obtain ⟨sound, pending⟩ := each position _ after beforeAt afterAt
    have before := (conserved position _ beforeAt).2
    refine ⟨sound, ?_⟩
    rw [pending]
    by_cases this : found ∧ position = t.children.findIdx (·.id = id)
    · rw [if_pos this, if_pos this.1, ← this.2, Function.update_self, List.flatten_append,
        ← before, List.flatten_singleton, List.append_assoc]
    · rw [if_neg this, before]
      cases found with
      | false => rfl
      | true => rw [if_pos rfl, Function.update_of_ne fun same => this ⟨rfl, same⟩]
  | writer position answers =>
    cases childAt : t.children[position]? with
    | none => exact ⟨t, by simp only [monitorStep, childAt], conserved⟩
    | some child =>
      obtain ⟨sound, before⟩ := conserved position child childAt
      obtain ⟨handed, screen, written, nextSound, moved⟩ :=
        writeToChild_spec sound answers noError
      have stepEq : monitorStep bufsiz t (.writer position answers) = some { t with
          children := t.children.set position { child with screen }
          handed := Function.update t.handed position (t.handed position ++ handed) } := by
        simp only [monitorStep, childAt, written]
        rfl
      refine ⟨_, stepEq, ?_⟩
      intro other after afterAt
      dsimp only at afterAt ⊢
      by_cases this : other = position
      · subst this
        rw [List.getElem?_set_self (List.getElem?_eq_some_iff.1 childAt).1] at afterAt
        obtain rfl := Option.some.inj afterAt
        exact ⟨nextSound, by
          rw [Function.update_self, List.append_assoc, moved, before]⟩
      · rw [List.getElem?_set_ne (Ne.symm this)] at afterAt
        rw [Function.update_of_ne this]
        exact conserved other after afterAt

/-- In every interleaving of requests and writer steps, what a child has got, followed by the bytes
in use in its write buffer, is the concatenation of the payloads accepted for it. -/
theorem childWriteQueue (bufsiz : Nat) (ids : List Nat) (events : List MonitorEvent)
    (noError : ∀ event ∈ events, event.NoError) :
    ∃ final, run (monitorStep bufsiz) (.start bufsiz ids) events = some final ∧
      ∀ position child, final.children[position]? = some child →
        final.handed position ++ child.screen.writeBuf.take child.screen.writeBufUsed =
            (final.accepted position).flatten ∧
          child.screen.writeBufUsed ≤ child.screen.writeBufSz := by
  obtain ⟨final, runEq, conserved⟩ := run_total MonitorEvent.NoError
    ChildTraffic.Conserved (fun _ _ here allowed => monitorStep_conserved bufsiz here allowed)
    (conserved_start bufsiz ids) events noError
  exact ⟨final, runEq, fun position child childAt =>
    ⟨(conserved position child childAt).2, (conserved position child childAt).1.used⟩⟩

/-- A buffer of four bytes that is outgrown, written in part, and shrunk again. -/
theorem childWriteQueue_outgrown :
    ∃ final, run (monitorStep 4) (.start 4 [7, 8])
        [.request 8 [[1, 2], [3, 4, 5]], .writer 1 [.wrote 2, .eintr, .wrote 1, .eagain],
          .request 8 [[6]], .request 9 [[7]], .writer 1 [.wrote 0]] = some final ∧
      ∀ position child, final.children[position]? = some child →
        final.handed position ++ child.screen.writeBuf.take child.screen.writeBufUsed =
            (final.accepted position).flatten ∧
          child.screen.writeBufUsed ≤ child.screen.writeBufSz :=
  childWriteQueue 4 [7, 8]
    [.request 8 [[1, 2], [3, 4, 5]], .writer 1 [.wrote 2, .eintr, .wrote 1, .eagain],
      .request 8 [[6]], .request 9 [[7]], .writer 1 [.wrote 0]]
    (by simp [MonitorEvent.NoError])

end Smelly
