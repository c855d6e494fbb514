/-
Module: Smelly.Proofs.PagerRing
Purpose: The pager history in its byte ring behaves, over every run, as the list of its bytes does,
  and keeps the newest bytes.
Trusted boundary: none
-/
import Smelly.Proofs.PagerReflow
import Smelly.Proofs.RingbufRefinement
import Smelly.Lib.Run

namespace Smelly

open Run

/-- The ring holds the bytes of the list, and has its capacity. -/
structure RingPagerHistory.Holds (real : RingPagerHistory) (ph : PagerHistoryBuf) : Prop where
  sound : real.ringbuf.Sound
  maximumSize : real.maximumSize = ph.maximumSize
  capacity : real.ringbuf.capacity = ph.capacity
  contents : real.ringbuf.contents = ph.ringbuf

namespace RingPagerHistory

variable (fresh : Nat → UInt8) {real : RingPagerHistory} {ph : PagerHistoryBuf}

theorem Holds.used (holds : real.Holds ph) : real.ringbuf.bytesUsed = ph.ringbuf.length := by
  rw [← holds.contents, holds.sound.length_contents]

theorem holds_new (maximumSize capacity : Nat) :
    Holds { maximumSize, ringbuf := .new fresh capacity } { maximumSize, capacity } where
  sound := Ringbuf.new_sound fresh capacity
  maximumSize := rfl
  capacity := rfl
  contents := Ringbuf.contents_new fresh capacity

/-! ### The single functions -/

theorem extend_refines (holds : real.Holds ph) (minsz : Nat) :
    ∃ next, real.extend fresh minsz = some next ∧ next.Holds (pagerhistExtend ph minsz) := by
  rw [extend, pagerhistExtend, holds.capacity, holds.maximumSize]
  by_cases done : ph.maximumSize ≤ ph.capacity
  · rw [if_pos done, if_pos done]
    exact ⟨real, rfl, holds⟩
  · rw [if_neg done, if_neg done]
    have few := holds.sound.used.2
    rw [holds.used, holds.capacity] at few
    generalize hsize : min ph.maximumSize (ph.capacity + max (1024 * 1024) minsz) = newsz
    have empty := @holds_new fresh ph.maximumSize newsz
    obtain ⟨written, after, copied, appended, -⟩ := Ringbuf.copy_spec empty.sound holds.sound
      (Nat.le_refl real.ringbuf.bytesUsed)
    have kept : written.contents = ph.ringbuf := by
      have fits : ph.ringbuf.length - newsz = 0 := by omega
      rw [appended.contents, holds.used, holds.contents, List.take_length, ringbufMemcpyInto,
        empty.contents, List.nil_append]
      show ph.ringbuf.drop (ph.ringbuf.length - newsz) = _
      rw [fits, List.drop_zero]
    by_cases some_ : real.ringbuf.bytesUsed ≠ 0
    · refine ⟨{ maximumSize := ph.maximumSize, ringbuf := written }, ?_, appended.sound, rfl,
        congrArg (· - 1) appended.size, kept⟩
      dsimp only
      rw [if_pos some_, copied]
      rfl
    · refine ⟨{ maximumSize := ph.maximumSize, ringbuf := .new fresh newsz }, ?_, empty.sound, rfl,
        rfl, ?_⟩
      · dsimp only
        rw [if_neg some_]
        rfl
      · rw [not_not, holds.used, List.length_eq_zero_iff] at some_
        rw [Ringbuf.contents_new, some_]

theorem writeBytes_refines (holds : real.Holds ph) (buf : Bytes) :
    ∃ next, real.writeBytes fresh buf = some (next, (pagerhistWriteBytes ph buf).2) ∧
      next.Holds (pagerhistWriteBytes ph buf).1 := by
  rw [writeBytes, pagerhistWriteBytes, holds.maximumSize]
  by_cases large : ph.maximumSize < buf.length
  · rw [if_pos large, if_pos large]
    exact ⟨real, rfl, holds⟩
  · rw [if_neg large, if_neg large]
    by_cases empty : buf.isEmpty
    · rw [if_pos empty, if_pos empty]
      exact ⟨real, rfl, holds⟩
    · rw [if_neg empty, if_neg empty]
      have space : real.ringbuf.bytesFree < buf.length ↔
          ph.capacity - ph.ringbuf.length < buf.length := by
        rw [Ringbuf.bytesFree_lt_iff holds.sound, holds.used, holds.capacity]
        have few := holds.sound.used.2
        rw [holds.used, holds.capacity] at few
        omega
      have grown : ∃ next,
          (if real.ringbuf.bytesFree < buf.length then real.extend fresh buf.length
            else some real) = some next ∧
          next.Holds (if ph.capacity - ph.ringbuf.length < buf.length then
            pagerhistExtend ph buf.length else ph) := by
        by_cases short : real.ringbuf.bytesFree < buf.length
        · rw [if_pos short, if_pos (space.1 short)]
          exact extend_refines fresh holds buf.length
        · rw [if_neg short, if_neg (mt space.2 short)]
          exact ⟨real, rfl, holds⟩
      obtain ⟨next, nextEq, held⟩ := grown
      obtain ⟨ringbuf, copied, appended⟩ := Ringbuf.memcpyInto_spec held.sound buf
      refine ⟨{ next with ringbuf := ringbuf }, ?_, appended.sound, held.maximumSize,
        (congrArg (· - 1) appended.size).trans held.capacity, ?_⟩
      · dsimp only
        rw [nextEq, Option.bind_eq_bind, Option.bind_some, copied]
        rfl
      · rw [appended.contents, held.capacity, held.contents]

theorem lastRejectAtFrom_le (bytes : Bytes) : ∀ (state : Nat) (codep : UInt32) {count last : Nat},
    last ≤ count → lastRejectAtFrom state codep count last bytes ≤ count + bytes.length := by
  induction bytes with
  | nil => exact fun _ _ _ _ before => before
  | cons byte rest ih =>
    intro state codep count last before
    rw [lastRejectAtFrom, List.length_cons]
    dsimp only
    split
    · omega
    · split
      · have later := ih utf8Accept (decodeUtf8 state codep byte).2 (Nat.le_refl (count + 1))
        omega
      · have later := ih (decodeUtf8 state codep byte).1 (decodeUtf8 state codep byte).2
          (show last ≤ count + 1 by omega)
        omega

theorem ensureStartIsValidUtf8_refines (holds : real.Holds ph) :
    ∃ next, real.ensureStartIsValidUtf8 = some (next, (pagerhistEnsureStartIsValidUtf8 ph).2) ∧
      next.Holds (pagerhistEnsureStartIsValidUtf8 ph).1 := by
  rw [ensureStartIsValidUtf8, pagerhistEnsureStartIsValidUtf8, Ringbuf.memcpyFrom_eq holds.sound,
    holds.contents]
  have few := lastRejectAtFrom_le (ph.ringbuf.take 8) utf8Accept 0 (Nat.le_refl 0)
  rw [List.length_take] at few
  simp only [Option.bind_eq_bind, Option.bind_some]
  generalize lastRejectAtFrom utf8Accept 0 0 0 (ph.ringbuf.take 8) = lastRejectAt at few ⊢
  by_cases rejected : lastRejectAt ≠ 0
  · rw [if_pos rejected, if_pos rejected]
    obtain ⟨after, moved, taken⟩ := @Ringbuf.memmoveFrom_spec real.ringbuf lastRejectAt holds.sound
      (by rw [holds.used]; omega)
    refine ⟨{ real with ringbuf := after }, ?_, taken.sound, holds.maximumSize,
      (congrArg (· - 1) taken.size).trans holds.capacity, ?_⟩
    · rw [moved]
      rfl
    · rw [taken.contents, holds.contents]
  · rw [if_neg rejected, if_neg rejected]
    exact ⟨real, rfl, holds⟩

theorem continues_eq (holds : real.Holds ph) :
    real.continues = some (!ph.ringbuf.isEmpty && ph.ringbuf.getLast? != some 10) := by
  rw [continues, holds.used]
  cases shape : ph.ringbuf using List.reverseRecOn with
  | nil => rfl
  | append_singleton front last =>
    have used := holds.used
    have contents := holds.contents
    rw [shape] at used contents
    rw [List.length_append, List.length_singleton] at used ⊢
    rw [if_pos (Nat.succ_pos _), Nat.add_sub_cancel, Ringbuf.findchr_eq holds.sound 10 (by omega)
      (by omega), contents, List.drop_left, List.getLast?_concat, Option.bind_eq_bind,
      Option.bind_some]
    by_cases newline : last = 10
    · simp [newline]
    · simp [newline]

theorem bytes_eq (holds : real.Holds ph) : real.bytes = some ph.ringbuf := by
  rw [bytes, Ringbuf.memcpyFrom_eq holds.sound, holds.used, holds.contents, List.take_length]

/-! ### Runs -/

/-- One event on the ring gives what it gives on the list. -/
theorem step_refines (holds : real.Holds ph) (event : PagerEvent) :
    ∃ next, real.step fresh event = some (next, (ph.step event).2) ∧
      next.Holds (ph.step event).1 := by
  cases event with
  | write buf =>
    obtain ⟨next, wrote, held⟩ := writeBytes_refines fresh holds buf
    refine ⟨next, ?_, held⟩
    rw [step, wrote]
    rfl
  | ensureStart =>
    obtain ⟨next, ensured, held⟩ := ensureStartIsValidUtf8_refines holds
    refine ⟨next, ?_, held⟩
    rw [step, ensured]
    rfl
  | clear =>
    exact ⟨real.clear fresh, rfl, Ringbuf.new_sound .., holds.maximumSize,
      congrArg initialPagerhistRingbufSz holds.maximumSize, Ringbuf.contents_new ..⟩
  | continues =>
    refine ⟨real, ?_, holds⟩
    rw [step, continues_eq holds]
    rfl
  | bytes =>
    refine ⟨real, ?_, holds⟩
    rw [step, bytes_eq holds]
    rfl

/-- The same ring as the list, and the same answers. -/
def Agrees (real : RingPagerHistory × List PagerAnswer)
    (list : PagerHistoryBuf × List PagerAnswer) : Prop :=
  real.1.Holds list.1 ∧ real.2 = list.2

/-- Over every run of writes, trimmings, clearings and questions, the ring of a new pager history
gives the answers of the list of its bytes, and never touches memory that it does not own. -/
theorem pagerRing_refines (pagerhistSz : Nat) (events : List PagerEvent) :
    ∃ real, run (stepAnswering fresh) (alloc fresh pagerhistSz, []) events = some real ∧
      Agrees real (events.foldl PagerHistoryBuf.stepAnswering
        ({ maximumSize := pagerhistSz
           capacity := initialPagerhistRingbufSz pagerhistSz }, [])) := by
  refine run_simulates (fun _ => True) Agrees PagerHistoryBuf.stepAnswering ?_
    ⟨holds_new fresh pagerhistSz (initialPagerhistRingbufSz pagerhistSz), rfl⟩ events
    fun _ _ => trivial
  intro real list event agrees _
  obtain ⟨next, stepped, held⟩ := step_refines fresh agrees.1 event
  refine ⟨(next, real.2 ++ [(list.1.step event).2]), ?_, held, congrArg (· ++ _) agrees.2⟩
  rw [stepAnswering, stepped]
  rfl

/-! ### What is kept -/

/-- Writing some bytes, or clearing. -/
def change : Option Bytes → PagerEvent
  | some buf => .write buf
  | none => .clear

/-- What has been written since the last clearing, without what was refused. -/
def accepted (maximum : Nat) (written : Bytes) : Option Bytes → Bytes
  | some buf => if maximum < buf.length then written else written ++ buf
  | none => []

theorem change_keepsEnd {state : PagerHistoryBuf × List PagerAnswer} {maximum : Nat}
    {written : Bytes} (holds : KeepsEnd state.1 maximum written) (buf : Option Bytes) :
    KeepsEnd (PagerHistoryBuf.stepAnswering state (change buf)).1 maximum
      (accepted maximum written buf) := by
  cases buf with
  | none =>
    exact ⟨holds.maximumEq, List.drop_nil.symm, Nat.zero_le _, Nat.min_le_right ..⟩
  | some buf =>
    show KeepsEnd (pagerhistWriteBytes state.1 buf).1 maximum (accepted maximum written (some buf))
    rw [accepted]
    by_cases large : maximum < buf.length
    · rw [if_pos large, pagerhistWriteBytes, if_pos (holds.maximumEq ▸ large)]
      exact holds
    · rw [if_neg large]
      exact holds.write (Nat.le_of_not_lt large)

/-- Growing in steps cannot be seen: after any writes and clearings, the ring holds the newest bytes
written since the last clearing, as many as the maximum size allows. -/
theorem ringKeepsNewest (pagerhistSz : Nat) (changes : List (Option Bytes)) :
    ∃ real, run (stepAnswering fresh) (alloc fresh pagerhistSz, []) (changes.map change) =
        some real ∧
      real.1.bytes = some ((changes.foldl (accepted pagerhistSz) []).drop
        ((changes.foldl (accepted pagerhistSz) []).length - pagerhistSz)) := by
  obtain ⟨real, ran, agrees⟩ := pagerRing_refines fresh pagerhistSz (changes.map change)
  refine ⟨real, ran, ?_⟩
  have kept : ∀ (changes : List (Option Bytes)) (state : PagerHistoryBuf × List PagerAnswer)
      (written : Bytes), KeepsEnd state.1 pagerhistSz written →
      KeepsEnd ((changes.map change).foldl PagerHistoryBuf.stepAnswering state).1 pagerhistSz
        (changes.foldl (accepted pagerhistSz) written) := by
    intro changes
    induction changes with
    | nil => exact fun _ _ holds => holds
    | cons buf rest ih => exact fun _ _ holds => ih _ _ (change_keepsEnd holds buf)
  rw [bytes_eq agrees.1,
    (kept changes _ [] ⟨rfl, List.drop_nil.symm, Nat.zero_le _, Nat.min_le_right ..⟩).ringEq]

end RingPagerHistory

end Smelly
