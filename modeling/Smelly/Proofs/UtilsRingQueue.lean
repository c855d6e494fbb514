/-
Module: Smelly.Proofs.UtilsRingQueue
Purpose: The ring buffer of the tools as a bounded queue: which runs of its operations are runs of
  the queue, with the same results.
Trusted boundary: none
-/
import Smelly.Core.UtilsRing
import Smelly.Lib.Run
import Mathlib.Data.List.Rotate

namespace Smelly

open Run

namespace Utils

variable {α : Type}

/-! ### The queue -/

/-- A queue that holds at most `capacity` items, the oldest first. -/
structure BoundedQueue (α : Type) where
  items : List α := []
  capacity : Nat
deriving DecidableEq, Repr

/-- What each operation does to the queue, and gives back. -/
def BoundedQueue.apply (q : BoundedQueue α) : RingOp α → BoundedQueue α × RingResult α
  | .writeTillFull p =>
    let n := min p.length (q.capacity - q.items.length)
    ({ q with items := q.items ++ p.take n }, { count := n })
  | .writeAllAndDiscardOld p =>
    ({ q with items := (q.items ++ p).drop ((q.items ++ p).length - q.capacity) }, {})
  | .readTillEmpty p =>
    let n := min p.length q.items.length
    ({ q with items := q.items.drop n }, { count := n, items := q.items.take n ++ p.drop n })
  | .clear => ({ q with items := [] }, {})
  | .grow newSize => ({ q with capacity := max q.capacity newSize }, {})

/-- One operation on the queue; the results are logged. -/
def queueStep (state : BoundedQueue α × List (RingResult α)) (op : RingOp α) :
    BoundedQueue α × List (RingResult α) :=
  ((state.1.apply op).1, state.2 ++ [(state.1.apply op).2])

/-! ### The items of the ring -/

namespace RingBuffer

/-- The positions of a ring lie in its slice. -/
structure WellFormed (r : RingBuffer α) : Prop where
  readPos : r.readPos < r.capacity
  useCount : r.useCount ≤ r.capacity

/-- The items in use, from the oldest on. -/
def items (r : RingBuffer α) : List α := (r.buffer.rotate r.readPos).take r.useCount

theorem items_length {r : RingBuffer α} (wf : r.WellFormed) : r.items.length = r.useCount := by
  rw [items, List.length_take, List.length_rotate]
  exact Nat.min_eq_left wf.useCount

/-- The slots in the order in which they are read. -/
theorem rotate_readPos {r : RingBuffer α} (wf : r.WellFormed) :
    r.buffer.rotate r.readPos = r.buffer.drop r.readPos ++ r.buffer.take r.readPos :=
  List.rotate_eq_drop_append_take (Nat.le_of_lt wf.readPos)

theorem slice_of_le {p : List α} {lo hi : Nat} (ordered : lo ≤ hi) (inside : hi ≤ p.length) :
    slice p lo hi = some ((p.take hi).drop lo) := if_pos ⟨ordered, inside⟩

/-- `slices_to_read` gives the oldest items and takes them out. -/
theorem slicesToRead_spec {r : RingBuffer α} (wf : r.WellFormed) (sz : Nat) :
    ∃ a b after, r.slicesToRead sz = some (a, b, after) ∧ a ++ b = r.items.take sz ∧
      after.WellFormed ∧ after.items = r.items.drop sz ∧ after.capacity = r.capacity := by
  obtain ⟨hpos, hcount⟩ := wf
  have positive : 0 < r.capacity := Nat.zero_lt_of_lt hpos
  obtain ⟨n, hn⟩ : ∃ n, n = min sz r.useCount := ⟨_, rfl⟩
  have slots := rotate_readPos ⟨hpos, hcount⟩
  have taken : r.items.take sz = (r.buffer.rotate r.readPos).take n := by
    rw [items, List.take_take, hn]
  have after_items : ∀ after : RingBuffer α, after.buffer = r.buffer →
      after.readPos = (r.readPos + n) % r.capacity → after.useCount = r.useCount - n →
      after.items = r.items.drop sz := by
    intro after buffer pos count
    have turned : r.buffer.rotate ((r.readPos + n) % r.capacity) =
        (r.buffer.rotate r.readPos).drop n ++ (r.buffer.rotate r.readPos).take n := by
      rw [capacity, List.rotate_mod, ← List.rotate_rotate, List.rotate_eq_drop_append_take]
      rw [List.length_rotate]
      exact Nat.le_trans (hn ▸ Nat.min_le_right _ _) hcount
    have rest : ((r.buffer.rotate r.readPos).drop n).length = r.capacity - n := by
      rw [List.length_drop, List.length_rotate, capacity]
    rw [items, items, buffer, pos, count, turned, List.take_append_of_le_length (by omega),
      List.drop_take]
    rcases Nat.le_total sz r.useCount with small | large
    · rw [hn, Nat.min_eq_left small]
    · rw [hn, Nat.min_eq_right large, Nat.sub_self, Nat.sub_eq_zero_of_le large, List.take_zero,
        List.take_zero]
  obtain ⟨after, hafter⟩ : ∃ after : RingBuffer α, after =
      { r with useCount := r.useCount - n, readPos := (r.readPos + n) % r.capacity } := ⟨_, rfl⟩
  have kept : after.WellFormed := by
    rw [hafter]
    exact ⟨Nat.mod_lt _ positive, Nat.le_trans (Nat.sub_le _ _) hcount⟩
  have rest := after_items after (by rw [hafter]) (by rw [hafter]) (by rw [hafter])
  unfold slicesToRead
  simp only [← hn, ← hafter]
  split
  · rename_i straight
    have inside : (r.readPos + n) % r.capacity = r.readPos + n := by
      rcases straight with beyond | none_
      · apply Nat.mod_eq_of_lt
        by_contra around
        rw [Nat.mod_eq_sub_mod (Nat.not_lt.1 around), Nat.mod_eq_of_lt (by omega)] at beyond
        omega
      · rw [none_, Nat.add_zero, Nat.mod_eq_of_lt hpos]
    have fits : r.readPos + n ≤ r.buffer.length := by
      have := Nat.mod_lt (r.readPos + n) positive
      rw [inside] at this
      exact Nat.le_of_lt this
    rw [inside, slice_of_le (Nat.le_add_right _ _) fits]
    refine ⟨_, [], after, rfl, ?_, kept, rest, by rw [hafter]; rfl⟩
    rw [taken, slots, List.append_nil, List.take_append_of_le_length
      (by rw [List.length_drop]; omega), List.drop_take, Nat.add_sub_cancel_left]
  · rename_i wraps
    have around : r.capacity ≤ r.readPos + n := by
      by_contra inside
      rw [Nat.mod_eq_of_lt (Nat.not_le.1 inside)] at wraps
      omega
    have short : n - (r.capacity - r.readPos) ≤ r.readPos := by omega
    have whole : r.buffer.length = r.capacity := rfl
    have head : r.readPos + (r.capacity - r.readPos) = r.buffer.length := by omega
    rw [head, slice_of_le (by omega) (Nat.le_refl _), slice_of_le (Nat.zero_le _) (by omega)]
    refine ⟨_, _, after, rfl, ?_, kept, rest, by rw [hafter]; rfl⟩
    have front : (r.buffer.drop r.readPos).length = r.capacity - r.readPos := List.length_drop
    have all : (r.buffer.drop r.readPos).take n = r.buffer.drop r.readPos :=
      List.take_of_length_le (by omega)
    rw [taken, slots, List.take_append, front, all, List.take_take, Nat.min_eq_left short,
      List.take_length, List.drop_zero]

/-- The slots after a copy that ends before the last slot. -/
theorem slots_straight {slots q : List α} {start used : Nat}
    (inside : start + used + q.length ≤ slots.length) :
    (slots.take (start + used) ++ q ++ slots.drop (start + used + q.length)).drop start ++
        (slots.take (start + used) ++ q ++ slots.drop (start + used + q.length)).take start =
      (slots.drop start ++ slots.take start).take used ++ q ++
        (slots.drop start ++ slots.take start).drop (used + q.length) := by
  apply List.ext_getElem?
  simp only [List.getElem?_append, List.getElem?_drop, List.length_drop]
  grind

/-- The slots after a copy in front of the oldest item. -/
theorem slots_before {slots q : List α} {start used : Nat} (hstart : start < slots.length)
    (around : slots.length ≤ start + used) (room : used + q.length ≤ slots.length) :
    (slots.take (start + used - slots.length) ++ q ++
          slots.drop (start + used - slots.length + q.length)).drop start ++
        (slots.take (start + used - slots.length) ++ q ++
          slots.drop (start + used - slots.length + q.length)).take start =
      (slots.drop start ++ slots.take start).take used ++ q ++
        (slots.drop start ++ slots.take start).drop (used + q.length) := by
  apply List.ext_getElem?
  simp only [List.getElem?_append, List.getElem?_drop, List.getElem?_take, List.length_drop]
  grind

/-- The slots after a copy in two pieces. -/
theorem slots_around {slots q : List α} {start used first : Nat} (hstart : start < slots.length)
    (hfirst : start + used + first = slots.length) (reaches : first ≤ q.length)
    (room : used + q.length ≤ slots.length) :
    (q.drop first ++ (slots.take (start + used) ++ q.take first).drop (q.length - first)).drop
          start ++
        (q.drop first ++ (slots.take (start + used) ++ q.take first).drop (q.length - first)).take
          start =
      (slots.drop start ++ slots.take start).take used ++ q ++
        (slots.drop start ++ slots.take start).drop (used + q.length) := by
  apply List.ext_getElem?
  simp only [List.getElem?_append, List.getElem?_drop, List.getElem?_take, List.length_drop]
  grind

/-- The step that loses items: a write that fills an empty ring whose next slot is not the first. -/
def FillsFromInside (r : RingBuffer α) (p : List α) : Prop :=
  r.useCount = 0 ∧ r.readPos ≠ 0 ∧ r.capacity ≤ p.length

/-- A copy into a slice keeps its length. -/
theorem exists_copySlice {dst : List α} {start : Nat} (inside : start ≤ dst.length)
    (src : List α) :
    ∃ after, copySlice dst start src = some after ∧ after.length = dst.length := by
  refine ⟨_, if_pos inside, ?_⟩
  simp only [List.length_append, List.length_take, List.length_drop]
  omega

/-- A copy that fits. -/
theorem copySlice_of_fits {dst src : List α} {start : Nat}
    (fits : start + src.length ≤ dst.length) :
    copySlice dst start src =
      some (dst.take start ++ src ++ dst.drop (start + src.length)) := by
  rw [copySlice, if_pos (by omega), List.take_of_length_le (by omega : src.length ≤ _)]

/-- The buffer behind the items that were written. -/
theorem items_written {r after : RingBuffer α} (wf : r.WellFormed) {q : List α}
    (length : after.buffer.length = r.buffer.length) (readPos : after.readPos = r.readPos)
    (useCount : after.useCount = r.useCount + q.length)
    (slots : after.buffer.drop r.readPos ++ after.buffer.take r.readPos =
      (r.buffer.drop r.readPos ++ r.buffer.take r.readPos).take r.useCount ++ q ++
        (r.buffer.drop r.readPos ++ r.buffer.take r.readPos).drop (r.useCount + q.length)) :
    after.items = r.items ++ q := by
  have inside : r.readPos ≤ after.buffer.length := length ▸ Nat.le_of_lt wf.readPos
  have front : (r.items ++ q).length = r.useCount + q.length := by
    rw [List.length_append, items_length wf]
  rw [items, readPos, useCount, List.rotate_eq_drop_append_take inside, slots,
    ← rotate_readPos wf, ← items, ← front, List.take_left]

/-- Writing behind the items, in one piece or in two. -/
theorem writeTillFull_spec {r : RingBuffer α} (wf : r.WellFormed) (p : List α) :
    ∃ after, r.writeTillFull p = some (min p.length (r.capacity - r.useCount), after) ∧
      after.WellFormed ∧ after.capacity = r.capacity ∧
      after.useCount = r.useCount + min p.length (r.capacity - r.useCount) ∧
      (¬ r.FillsFromInside p →
        after.items = r.items ++ p.take (r.capacity - r.useCount)) := by
  obtain ⟨hpos, hcount⟩ := wf
  obtain ⟨n, hn⟩ : ∃ n, n = min p.length (r.capacity - r.useCount) := ⟨_, rfl⟩
  have whole : r.buffer.length = r.capacity := rfl
  unfold writeTillFull
  simp only [← hn]
  by_cases nothing : n = 0
  · rw [if_pos nothing]
    refine ⟨r, by rw [nothing], ⟨hpos, hcount⟩, rfl, nothing.symm ▸ rfl, fun _ => ?_⟩
    have empty : p.take (r.capacity - r.useCount) = [] := by
      apply List.eq_nil_of_length_eq_zero
      rw [List.length_take]
      omega
    rw [empty, List.append_nil]
  · rw [if_neg nothing]
    obtain ⟨q, hq⟩ : ∃ q, q = p.take n := ⟨_, rfl⟩
    have qlength : q.length = n := by
      rw [hq, List.length_take]
      omega
    have written : p.take (r.capacity - r.useCount) = q := by
      rw [hq, hn, Nat.min_comm, ← List.take_eq_take_min]
    have part : slice p 0 n = some q := by
      rw [slice_of_le (Nat.zero_le _) (by omega), hq, List.drop_zero]
    have result : ∀ buffer : List α, buffer.length = r.buffer.length →
        (¬ r.FillsFromInside p →
          buffer.drop r.readPos ++ buffer.take r.readPos =
            (r.buffer.drop r.readPos ++ r.buffer.take r.readPos).take r.useCount ++ q ++
              (r.buffer.drop r.readPos ++ r.buffer.take r.readPos).drop
                (r.useCount + q.length)) →
        ∃ after, some (n, { r with buffer := buffer, useCount := r.useCount + n }) =
            some (n, after) ∧
          after.WellFormed ∧ after.capacity = r.capacity ∧ after.useCount = r.useCount + n ∧
          (¬ r.FillsFromInside p → after.items = r.items ++ p.take (r.capacity - r.useCount)) := by
      intro buffer length slots
      refine ⟨_, rfl, ⟨?_, ?_⟩, length, rfl, fun usual => ?_⟩
      · exact Nat.lt_of_lt_of_eq hpos length.symm
      · exact Nat.le_trans (by omega : r.useCount + n ≤ r.capacity) (Nat.le_of_eq length.symm)
      · rw [written]
        exact items_written ⟨hpos, hcount⟩ length rfl (by rw [qlength]) (slots usual)
    rw [part]
    simp only [Option.bind_eq_bind, Option.bind_some]
    rcases Nat.lt_or_ge (r.readPos + r.useCount) r.capacity with below | behind
    · rw [Nat.mod_eq_of_lt below]
      rcases Nat.lt_or_ge (r.readPos + r.useCount + n) r.capacity with inside | beyond
      · have fits : r.readPos + r.useCount + q.length ≤ r.buffer.length := by omega
        rw [Nat.mod_eq_of_lt inside, if_pos (Nat.le_add_right _ _), copySlice_of_fits fits]
        apply result
        · simp only [List.length_append, List.length_take, List.length_drop]
          omega
        · exact fun _ => slots_straight fits
      · have turn : (r.readPos + r.useCount + n) % r.capacity =
            r.readPos + r.useCount + n - r.capacity := by
          rw [Nat.mod_eq_sub_mod beyond, Nat.mod_eq_of_lt (by omega)]
        rw [turn]
        by_cases whole_ : r.readPos + r.useCount ≤ r.readPos + r.useCount + n - r.capacity
        · rw [if_pos whole_]
          by_cases first : r.readPos = 0
          · have fits : r.readPos + r.useCount + q.length ≤ r.buffer.length := by omega
            rw [copySlice_of_fits fits]
            apply result
            · simp only [List.length_append, List.length_take, List.length_drop]
              omega
            · exact fun _ => slots_straight fits
          · have inside : r.readPos + r.useCount ≤ r.buffer.length := by omega
            obtain ⟨buffer, copied, length⟩ := exists_copySlice inside q
            rw [copied]
            exact result buffer length fun usual => absurd ⟨by omega, first, by omega⟩ usual
        · have room : r.readPos + r.useCount + (q.take (r.capacity -
              (r.readPos + r.useCount))).length ≤ r.buffer.length := by
            rw [List.length_take]
            omega
          have firstLength : (q.take (r.capacity - (r.readPos + r.useCount))).length =
              r.capacity - (r.readPos + r.useCount) := by
            rw [List.length_take]
            omega
          rw [if_neg whole_, slice_of_le (Nat.zero_le _) (by omega),
            slice_of_le (by omega) (Nat.le_refl _)]
          simp only [Option.bind_some, List.drop_zero, List.take_length]
          rw [copySlice_of_fits room, Option.bind_some, firstLength, Nat.add_sub_cancel'
            (Nat.le_of_lt below), List.drop_eq_nil_of_le (Nat.le_of_eq whole), List.append_nil]
          rw [copySlice_of_fits (by
            simp only [List.length_append, List.length_take, List.length_drop]
            omega)]
          simp only [List.nil_append, Nat.zero_add, List.length_drop]
          apply result
          · simp only [List.length_append, List.length_take, List.length_drop]
            omega
          · exact fun _ => slots_around hpos (by omega) (by omega) (by omega)
    · have turn : (r.readPos + r.useCount) % r.capacity = r.readPos + r.useCount - r.capacity := by
        rw [Nat.mod_eq_sub_mod behind, Nat.mod_eq_of_lt (by omega)]
      have turn' : (r.readPos + r.useCount + n) % r.capacity =
          r.readPos + r.useCount - r.capacity + n := by
        rw [Nat.mod_eq_sub_mod (by omega), Nat.mod_eq_of_lt (by omega)]
        omega
      have fits : r.readPos + r.useCount - r.buffer.length + q.length ≤ r.buffer.length := by omega
      rw [turn, turn', if_pos (Nat.le_add_right _ _), ← whole, copySlice_of_fits fits]
      apply result
      · simp only [List.length_append, List.length_take, List.length_drop]
        omega
      · exact fun _ => slots_before hpos behind (by omega)

/-- Reading takes the oldest items into the front of the slice. -/
theorem readTillEmpty_spec {r : RingBuffer α} (wf : r.WellFormed) (p : List α) :
    ∃ after, r.readTillEmpty p = some (min p.length r.items.length,
        r.items.take (min p.length r.items.length) ++ p.drop (min p.length r.items.length), after) ∧
      after.WellFormed ∧ after.items = r.items.drop (min p.length r.items.length) ∧
      after.capacity = r.capacity := by
  obtain ⟨a, b, after, read, taken, kept, items, capacity⟩ := slicesToRead_spec wf p.length
  have count : a.length + b.length = min p.length r.items.length := by
    rw [← List.length_append, taken, List.length_take]
  have firstFits : 0 + a.length ≤ p.length := by omega
  have first : copySlice p 0 a = some (a ++ p.drop a.length) := by
    rw [copySlice_of_fits firstFits]
    simp
  have secondFits : a.length + b.length ≤ (a ++ p.drop a.length).length := by
    rw [List.length_append, List.length_drop]
    omega
  have second : copySlice (a ++ p.drop a.length) a.length b =
      some (a ++ b ++ p.drop (a.length + b.length)) := by
    rw [copySlice_of_fits secondFits, List.take_left, List.drop_append, List.drop_eq_nil_of_le
      (Nat.le_add_right _ _), Nat.add_sub_cancel_left, List.drop_drop, List.nil_append]
  have front : r.items.take p.length = r.items.take (min p.length r.items.length) :=
    List.take_eq_take_min
  have behind : r.items.drop p.length = r.items.drop (min p.length r.items.length) := by
    rcases Nat.le_total p.length r.items.length with fewer | more
    · rw [Nat.min_eq_left fewer]
    · rw [Nat.min_eq_right more, List.drop_length, List.drop_eq_nil_of_le more]
  unfold readTillEmpty
  simp only [read, Option.bind_eq_bind, Option.bind_some, first, second, count, taken]
  exact ⟨after, by rw [front], kept, items.trans behind, capacity⟩

/-- Growing keeps the items only where there is nothing to do or nothing to keep. -/
theorem grow_spec [Inhabited α] {r : RingBuffer α} (wf : r.WellFormed) (newSize : Nat) :
    ∃ after, r.grow newSize = some after ∧ after.WellFormed ∧
      after.capacity = max r.capacity newSize ∧
      (newSize ≤ r.capacity ∨ r.useCount = 0 → after.items = r.items) := by
  unfold grow
  by_cases larger : newSize ≤ r.capacity
  · rw [if_pos larger]
    exact ⟨r, rfl, wf, (Nat.max_eq_left larger).symm, fun _ => rfl⟩
  · rw [if_neg larger]
    have capacity : max r.capacity newSize = newSize := by omega
    have positive : 0 < newSize := by omega
    by_cases used : r.useCount > 0
    · simp only [if_pos used]
      obtain ⟨after, read, kept, items, -⟩ :=
        readTillEmpty_spec wf (List.replicate newSize default)
      have small := wf.useCount
      have emptied : after.useCount = 0 := by
        rw [← items_length kept, items, List.length_drop, items_length wf, List.length_replicate]
        omega
      obtain ⟨buf, hbuf⟩ : ∃ buf : List α, buf =
          r.items.take (min (List.replicate newSize (default : α)).length r.items.length) ++
            (List.replicate newSize default).drop
              (min (List.replicate newSize (default : α)).length r.items.length) := ⟨_, rfl⟩
      have length : buf.length = newSize := by
        rw [hbuf, List.length_append, List.length_take, List.length_drop, List.length_replicate]
        omega
      rw [read, ← hbuf]
      refine ⟨_, rfl, ⟨?_, ?_⟩, ?_, ?_⟩
      · exact Nat.lt_of_lt_of_eq positive length.symm
      · rw [emptied]
        exact Nat.zero_le _
      · exact length.trans capacity.symm
      · rintro (small | none_)
        · exact absurd small larger
        · omega
    · have none_ : r.useCount = 0 := Nat.eq_zero_of_not_pos used
      simp only [if_neg used]
      have length : (List.replicate newSize (default : α)).length = newSize :=
        List.length_replicate
      refine ⟨_, rfl, ⟨?_, ?_⟩, ?_, fun _ => ?_⟩
      · exact Nat.lt_of_lt_of_eq positive length.symm
      · rw [none_]
        exact Nat.zero_le _
      · exact length.trans capacity.symm
      · simp [items, none_]

/-- The loop of `WriteAllAndDiscardOld` ends in its second round. -/
theorem discardLoop_spec {r : RingBuffer α} (wf : r.WellFormed) {p : List α}
    (fewer : p.length < r.capacity) (rounds : Nat) :
    ∃ after, discardLoop (rounds + 2) r p = some after ∧ after.WellFormed ∧
      after.capacity = r.capacity ∧
      after.items = (r.items ++ p).drop ((r.items ++ p).length - r.capacity) := by
  have never : ∀ (s : RingBuffer α) (q : List α), q.length < s.capacity →
      ¬ s.FillsFromInside q := fun s q short fills => absurd fills.2.2 (Nat.not_le.2 short)
  obtain ⟨n, hn⟩ : ∃ n, n = min p.length (r.capacity - r.useCount) := ⟨_, rfl⟩
  obtain ⟨first, wrote, firstWf, firstCapacity, firstCount, firstItems⟩ := writeTillFull_spec wf p
  have written := firstItems (never r p fewer)
  have used := items_length wf
  have bound := wf.useCount
  obtain ⟨rest, hrest⟩ : ∃ rest, rest = p.drop n := ⟨_, rfl⟩
  have restLength : rest.length = p.length - n := by rw [hrest, List.length_drop]
  have left : slice p n p.length = some rest := by
    rw [slice_of_le (by omega) (Nat.le_refl _), List.take_length, hrest]
  rw [← hn] at wrote firstCount
  rw [discardLoop]
  simp only [Option.bind_eq_bind, wrote, Option.bind_some, left]
  by_cases done : rest.length = 0
  · rw [if_pos done]
    have all : p.take (r.capacity - r.useCount) = p := List.take_of_length_le (by omega)
    have few : (r.items ++ p).length - r.capacity = 0 := by
      rw [List.length_append]
      omega
    refine ⟨first, rfl, firstWf, firstCapacity, ?_⟩
    rw [written, all, few, List.drop_zero]
  · rw [if_neg done]
    obtain ⟨a, b, room, read, -, roomWf, roomItems, roomCapacity⟩ :=
      slicesToRead_spec firstWf rest.length
    have fits : rest.length < room.capacity := by omega
    obtain ⟨last, wroteRest, lastWf, lastCapacity, -, lastItems⟩ :=
      writeTillFull_spec roomWf rest
    have appended := lastItems (never room rest fits)
    have firstLength : first.items.length = r.capacity := by
      rw [items_length firstWf]
      omega
    have roomCount : room.useCount = r.capacity - rest.length := by
      rw [← items_length roomWf, roomItems, List.length_drop, firstLength]
    have whole : min rest.length (room.capacity - room.useCount) = rest.length := by omega
    have nothing : slice rest rest.length rest.length = some [] := by
      rw [slice_of_le (Nat.le_refl _) (Nat.le_refl _), List.take_length, List.drop_length]
    rw [whole] at wroteRest
    rw [read, Option.bind_some, discardLoop]
    simp only [Option.bind_eq_bind, wroteRest, Option.bind_some, nothing]
    have taken : p.take (r.capacity - r.useCount) = p.take n := by
      rw [hn, Nat.min_comm, ← List.take_eq_take_min]
    have split : r.items ++ p = first.items ++ rest := by
      rw [written, taken, hrest, List.append_assoc, List.take_append_drop]
    have all : rest.take (room.capacity - room.useCount) = rest :=
      List.take_of_length_le (by omega)
    have dropped : (first.items ++ rest).length - r.capacity = rest.length := by
      rw [List.length_append, firstLength, Nat.add_sub_cancel_left]
    refine ⟨last, rfl, lastWf, by omega, ?_⟩
    rw [appended, roomItems, split, all, dropped, List.drop_append_of_le_length (by omega)]

/-- `WriteAllAndDiscardOld` keeps the newest items. -/
theorem writeAllAndDiscardOld_spec {r : RingBuffer α} (wf : r.WellFormed) (p : List α) :
    ∃ after, r.writeAllAndDiscardOld p = some after ∧ after.WellFormed ∧
      after.capacity = r.capacity ∧
      after.items = (r.items ++ p).drop ((r.items ++ p).length - r.capacity) := by
  unfold writeAllAndDiscardOld
  by_cases many : p.length ≥ r.capacity
  · have newest : slice p (p.length - r.capacity) p.length =
        some (p.drop (p.length - r.capacity)) := by
      rw [slice_of_le (Nat.sub_le _ _) (Nat.le_refl _), List.take_length]
    obtain ⟨kept, hkept⟩ : ∃ kept, kept = p.drop (p.length - r.capacity) := ⟨_, rfl⟩
    have length : kept.length = r.buffer.length := by
      rw [hkept, List.length_drop, ← capacity]
      omega
    have copied : copySlice r.buffer 0 kept = some kept := by
      have behind : r.buffer.drop (0 + kept.length) = [] :=
        List.drop_eq_nil_of_le (by omega)
      rw [copySlice_of_fits (by omega), List.take_zero, List.nil_append, behind, List.append_nil]
    have positive : 0 < r.capacity := Nat.zero_lt_of_lt wf.readPos
    rw [← hkept] at newest
    simp only [if_pos many, newest, Option.bind_eq_bind, Option.bind_some, copied]
    refine ⟨_, rfl, ⟨?_, ?_⟩, length, ?_⟩
    · exact Nat.lt_of_lt_of_eq positive length.symm
    · exact Nat.le_of_eq length.symm
    · have older : (r.items ++ p).length - r.capacity =
          r.items.length + (p.length - r.capacity) := by
        rw [List.length_append]
        omega
      rw [older, List.drop_append, List.drop_eq_nil_of_le (Nat.le_add_right _ _),
        Nat.add_sub_cancel_left, ← hkept, items, List.rotate_zero]
      exact List.take_of_length_le (Nat.le_of_eq length)
  · simp only [if_neg many]
    exact discardLoop_spec wf (Nat.not_le.1 many) p.length

/-- The steps that keep the items: no write fills an empty ring whose next slot is not the first, and
no ring grows while it holds items. -/
def KeepsItems (r : RingBuffer α) : RingOp α → Prop
  | .writeTillFull p => ¬ r.FillsFromInside p
  | .grow newSize => newSize ≤ r.capacity ∨ r.useCount = 0
  | _ => True

end RingBuffer

open RingBuffer

/-- The ring stands for the queue, and gave the same results. -/
structure Represents (ring : RingBuffer α × List (RingResult α))
    (queue : BoundedQueue α × List (RingResult α)) : Prop where
  wellFormed : ring.1.WellFormed
  items : ring.1.items = queue.1.items
  capacity : ring.1.capacity = queue.1.capacity
  results : ring.2 = queue.2

/-- Every operation on a well formed ring ends without an index out of range. -/
theorem ringStep_total [Inhabited α] {r : RingBuffer α} {log : List (RingResult α)}
    (wf : r.WellFormed) (op : RingOp α) :
    ∃ next, ringStep (r, log) op = some next ∧ next.1.WellFormed := by
  cases op with
  | writeTillFull p =>
    obtain ⟨after, wrote, kept, -⟩ := writeTillFull_spec wf p
    exact ⟨_, by rw [ringStep, wrote]; rfl, kept⟩
  | writeAllAndDiscardOld p =>
    obtain ⟨after, wrote, kept, -⟩ := writeAllAndDiscardOld_spec wf p
    exact ⟨_, by rw [ringStep, wrote]; rfl, kept⟩
  | readTillEmpty p =>
    obtain ⟨after, read, kept, -⟩ := readTillEmpty_spec wf p
    exact ⟨_, by rw [ringStep, read]; rfl, kept⟩
  | clear => exact ⟨_, rfl, Nat.zero_lt_of_lt wf.readPos, Nat.zero_le _⟩
  | grow newSize =>
    obtain ⟨after, grown, kept, -⟩ := grow_spec wf newSize
    exact ⟨_, by rw [ringStep, grown]; rfl, kept⟩

/-- A step that keeps the items is the step of the queue. -/
theorem ringStep_represents [Inhabited α] {ring next : RingBuffer α × List (RingResult α)}
    {queue : BoundedQueue α × List (RingResult α)} {op : RingOp α} (h : Represents ring queue)
    (keeps : ring.1.KeepsItems op) (stepped : ringStep ring op = some next) :
    Represents next (queueStep queue op) := by
  obtain ⟨r, log⟩ := ring
  obtain ⟨wf, items, capacity, results⟩ := h
  simp only at wf items capacity results
  have used : queue.1.items.length = r.useCount := by rw [← items, items_length wf]
  cases op with
  | writeTillFull p =>
    obtain ⟨after, wrote, kept, size, -, written⟩ := writeTillFull_spec wf p
    rw [ringStep, wrote] at stepped
    cases stepped
    refine ⟨kept, ?_, size.trans capacity, ?_⟩
    · simp only [queueStep, BoundedQueue.apply, written keeps, items, used, ← capacity]
      rw [Nat.min_comm, ← List.take_eq_take_min]
    · simp [queueStep, BoundedQueue.apply, results, used, ← capacity]
  | writeAllAndDiscardOld p =>
    obtain ⟨after, wrote, kept, size, written⟩ := writeAllAndDiscardOld_spec wf p
    rw [ringStep, wrote] at stepped
    cases stepped
    refine ⟨kept, ?_, size.trans capacity, ?_⟩
    · simp [queueStep, BoundedQueue.apply, written, items, ← capacity]
    · simp [queueStep, BoundedQueue.apply, results]
  | readTillEmpty p =>
    obtain ⟨after, read, kept, left, size⟩ := readTillEmpty_spec wf p
    rw [ringStep, read] at stepped
    cases stepped
    refine ⟨kept, ?_, size.trans capacity, ?_⟩
    · simp [queueStep, BoundedQueue.apply, left, items]
    · simp [queueStep, BoundedQueue.apply, results, items]
  | clear =>
    cases stepped
    refine ⟨⟨Nat.zero_lt_of_lt wf.readPos, Nat.zero_le _⟩, ?_, capacity, ?_⟩
    · simp [queueStep, BoundedQueue.apply, RingBuffer.items, clear]
    · simp [queueStep, BoundedQueue.apply, results]
  | grow newSize =>
    obtain ⟨after, grown, kept, size, same⟩ := grow_spec wf newSize
    rw [ringStep, grown] at stepped
    cases stepped
    refine ⟨kept, ?_, ?_, ?_⟩
    · simp [queueStep, BoundedQueue.apply, same keeps, items]
    · simp [queueStep, BoundedQueue.apply, size, capacity]
    · simp [queueStep, BoundedQueue.apply, results]

theorem new_wellFormed [Inhabited α] {size : Nat} (positive : 0 < size) :
    (RingBuffer.new size : RingBuffer α).WellFormed := by
  constructor
  · simpa [RingBuffer.new, RingBuffer.capacity] using positive
  · simp [RingBuffer.new]

theorem new_represents [Inhabited α] {size : Nat} (positive : 0 < size) :
    Represents ((RingBuffer.new size : RingBuffer α), []) ({ capacity := size }, []) := by
  refine ⟨new_wellFormed positive, ?_, ?_, rfl⟩
  · simp [RingBuffer.new, RingBuffer.items]
  · simp [RingBuffer.new, RingBuffer.capacity]

/-- A run of operations that keep the items is the run of the queue: the same results, the same items
at the end, and their number as the length. -/
theorem ringQueue [Inhabited α] {size : Nat} (positive : 0 < size) (ops : List (RingOp α))
    (keeps : ∀ ring op, Takes ringStep (RingBuffer.new size, []) ops ring op →
      ring.1.KeepsItems op) :
    ∃ r results, run ringStep (RingBuffer.new size, []) ops = some (r, results) ∧
      let (queue, expected) := ops.foldl queueStep ({ capacity := size }, [])
      results = expected ∧ r.items = queue.items ∧ r.capacity = queue.capacity ∧
        r.len = queue.items.length := by
  have start : (((RingBuffer.new size, []) :
      RingBuffer α × List (RingResult α))).1.WellFormed := new_wellFormed positive
  obtain ⟨⟨r, results⟩, ran, -⟩ := run_total (fun _ => True)
    (fun ring : RingBuffer α × List (RingResult α) => ring.1.WellFormed)
    (fun ring op wf _ => ringStep_total wf op) start ops fun _ _ => trivial
  have same := run_follows Represents queueStep (fun ring op => ring.1.KeepsItems op)
    (fun _ _ _ _ h meets stepped => ringStep_represents h meets stepped) (new_represents positive)
    keeps ran
  refine ⟨r, results, ran, same.results, same.items, same.capacity, ?_⟩
  rw [← same.items, items_length same.wellFormed]
  rfl

/-- Five items through a ring of three slots. -/
theorem ringQueue_wrapped :
    ∃ r results, run ringStep (RingBuffer.new 3, [])
        [.writeTillFull [1, 2], .readTillEmpty [0], .writeTillFull [3, 4, 5],
          .writeAllAndDiscardOld [6], .readTillEmpty [0, 0, 0, 0]] = some (r, results) ∧
      results = [{ count := 2 }, { count := 1, items := [1] }, { count := 2 }, {},
        { count := 3, items := [3, 4, 6, 0] }] := by
  have keeps : ∀ ring op, Takes ringStep ((RingBuffer.new 3 : RingBuffer Nat), [])
      [.writeTillFull [1, 2], .readTillEmpty [0], .writeTillFull [3, 4, 5],
        .writeAllAndDiscardOld [6], .readTillEmpty [0, 0, 0, 0]] ring op →
      ring.1.KeepsItems op := by
    intro ring op taken
    obtain ⟨rfl, rfl⟩ | ⟨first, firstEq, taken⟩ := takes_cons taken
    · exact fun fills => absurd rfl fills.2.1
    · obtain ⟨rfl, rfl⟩ | ⟨second, secondEq, taken⟩ := takes_cons taken
      · trivial
      · cases firstEq
        cases secondEq
        obtain ⟨rfl, rfl⟩ | ⟨third, -, taken⟩ := takes_cons taken
        · exact fun fills => absurd fills.1 (by decide)
        · obtain ⟨rfl, rfl⟩ | ⟨fourth, -, taken⟩ := takes_cons taken
          · trivial
          · obtain ⟨rfl, rfl⟩ | ⟨fifth, -, taken⟩ := takes_cons taken
            · trivial
            · exact absurd taken (not_takes_nil _ _ _ _)
  obtain ⟨r, results, ran, same, -⟩ := ringQueue (by decide) _ keeps
  exact ⟨r, results, ran, same.trans (by decide)⟩

/-- Filling an empty ring of two slots from the second one loses an item; growing a ring loses all
of them. -/
theorem ringQueue_filled :
    (∃ r results, run ringStep (RingBuffer.new 2, [])
        [.writeTillFull [1], .readTillEmpty [0], .writeTillFull [2, 3], .readTillEmpty [0, 0]] =
          some (r, results) ∧
      results ≠ (([.writeTillFull [1], .readTillEmpty [0], .writeTillFull [2, 3],
        .readTillEmpty [0, 0]] : List (RingOp Nat)).foldl queueStep ({ capacity := 2 }, [])).2) ∧
    ∃ r results, run ringStep (RingBuffer.new 2, []) [.writeTillFull [1], .grow 3] =
          some (r, results) ∧
      r.items ≠ (([.writeTillFull [1], .grow 3] : List (RingOp Nat)).foldl queueStep
        ({ capacity := 2 }, [])).1.items := by
  refine ⟨⟨_, _, rfl, by decide⟩, _, _, rfl, by decide⟩

end Utils

end Smelly
