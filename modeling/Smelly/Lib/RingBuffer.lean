/-
Module: Smelly.Lib.RingBuffer
Purpose: Slots used in a circle: the slots read from the oldest on, and rows that are written
  over what an older row left in their slot.
Trusted boundary: none
-/
import Mathlib.Data.List.Rotate
import Mathlib.Data.Nat.ModEq
import Mathlib.Tactic.Common

namespace RingBuffer

variable {α β : Type}

/-! ### Slots read from the oldest on -/

theorem getElem?_rotate_lt (slots : List β) (start : Nat) {i : Nat} (h : i < slots.length) :
    (slots.rotate start)[i]? = slots[(start + i) % slots.length]? := by
  rw [List.getElem?_rotate h, Nat.add_comm]

/-- Writing the slot `i` places after the oldest. -/
theorem rotate_set (slots : List β) (start i : Nat) (value : β) (h : i < slots.length) :
    (slots.set ((start + i) % slots.length) value).rotate start =
      (slots.rotate start).set i value := by
  apply List.ext_getElem?
  intro j
  rcases Nat.lt_or_ge j slots.length with hj | hj
  · rw [getElem?_rotate_lt _ _ (by simpa using hj), List.getElem?_set, List.getElem?_set,
      getElem?_rotate_lt _ _ hj, List.length_set, List.length_rotate]
    have hmod : (start + i) % slots.length < slots.length := Nat.mod_lt _ (by omega)
    by_cases same : i = j
    · subst same
      simp [h, hmod]
    · have distinct : (start + i) % slots.length ≠ (start + j) % slots.length := by
        intro heq
        have congruent : i % slots.length = j % slots.length :=
          Nat.ModEq.add_left_cancel' start heq
        rw [Nat.mod_eq_of_lt h, Nat.mod_eq_of_lt hj] at congruent
        exact same congruent
      simp [same, distinct]
  · rw [List.getElem?_eq_none (by simpa using hj), List.getElem?_eq_none (by simpa using hj)]

/-- What the row after `laid` finds in its slot: a fresh row, or the row `capacity` places before
it. -/
def base (capacity : Nat) (fresh : β) (laid : List β) : β :=
  if laid.length < capacity then fresh else laid[laid.length - capacity]?.getD fresh

/-- The slots, from the oldest on, when `laid` are all rows ever stored in them. -/
def slotsOf (capacity : Nat) (fresh : β) (laid : List β) : List β :=
  (laid ++ List.replicate (capacity - laid.length) fresh).drop (laid.length - capacity)

@[simp] theorem slotsOf_length (capacity : Nat) (fresh : β) (laid : List β) :
    (slotsOf capacity fresh laid).length = capacity := by
  simp only [slotsOf, List.length_drop, List.length_append, List.length_replicate]
  omega

@[simp] theorem slotsOf_nil (capacity : Nat) (fresh : β) :
    slotsOf capacity fresh [] = List.replicate capacity fresh := by
  simp [slotsOf]

theorem base_map (capacity : Nat) (f : α → β) (fresh : α) (laid : List α) :
    base capacity (f fresh) (laid.map f) = f (base capacity fresh laid) := by
  unfold base
  rw [List.length_map]
  split
  · rfl
  · rw [List.getElem?_map]
    cases laid[laid.length - capacity]? <;> rfl

/-- The rows that are still stored. -/
theorem slotsOf_take (capacity : Nat) (fresh : β) (laid : List β) :
    (slotsOf capacity fresh laid).take (min laid.length capacity) =
      laid.drop (laid.length - capacity) := by
  rw [slotsOf, List.drop_append_of_le_length (by omega),
    List.take_append_of_le_length (by simp only [List.length_drop]; omega)]
  exact List.take_of_length_le (by simp only [List.length_drop]; omega)

/-- Where the newest row is. -/
theorem slotsOf_newest {capacity : Nat} (hcapacity : 0 < capacity) (fresh : β) (laid : List β)
    (row : β) :
    (slotsOf capacity fresh (laid ++ [row]))[min (laid.length + 1) capacity - 1]? = some row := by
  simp only [slotsOf, List.length_append, List.length_singleton, List.getElem?_drop]
  rw [show laid.length + 1 - capacity + (min (laid.length + 1) capacity - 1) = laid.length by omega]
  simp

theorem slotsOf_set_newest {capacity : Nat} (hcapacity : 0 < capacity) (fresh : β) (laid : List β)
    (row row' : β) :
    (slotsOf capacity fresh (laid ++ [row])).set (min (laid.length + 1) capacity - 1) row' =
      slotsOf capacity fresh (laid ++ [row']) := by
  apply List.ext_getElem?
  intro j
  simp only [slotsOf, List.getElem?_set, List.getElem?_drop, List.length_drop, List.length_append,
    List.length_singleton, List.length_replicate, List.getElem?_append, List.getElem?_replicate]
  grind

/-- While there is room, the next row gets a slot that was never used. -/
theorem slotsOf_room {capacity : Nat} (fresh : β) {laid : List β} (h : laid.length < capacity) :
    slotsOf capacity fresh laid = slotsOf capacity fresh (laid ++ [base capacity fresh laid]) := by
  obtain ⟨room, hroom⟩ : ∃ room, capacity - laid.length = room + 1 :=
    ⟨capacity - laid.length - 1, by omega⟩
  rw [base, if_pos h, slotsOf, slotsOf, hroom, List.length_append, List.length_singleton,
    show capacity - (laid.length + 1) = room by omega, List.replicate_succ, List.append_assoc,
    show laid.length - capacity = 0 by omega, show laid.length + 1 - capacity = 0 by omega]
  rfl

/-- In a full ring, the next row gets the slot of the oldest one. -/
theorem slotsOf_full {capacity : Nat} (hcapacity : 0 < capacity) (fresh : β) {laid : List β}
    (h : capacity ≤ laid.length) :
    (slotsOf capacity fresh laid).rotate 1 =
      slotsOf capacity fresh (laid ++ [base capacity fresh laid]) := by
  have hlt : laid.length - capacity < laid.length := by omega
  rw [base, if_neg (by omega), List.getElem?_eq_getElem hlt, Option.getD_some, slotsOf, slotsOf,
    List.length_append, List.length_singleton, show capacity - laid.length = 0 by omega,
    show capacity - (laid.length + 1) = 0 by omega, List.replicate_zero, List.append_nil,
    List.append_nil, List.drop_eq_getElem_cons hlt, List.rotate_cons_succ, List.rotate_zero,
    show laid.length + 1 - capacity = laid.length - capacity + 1 by omega,
    List.drop_append_of_le_length (by omega)]

/-! ### Rows written over the rest of an older row -/

/-- Rows written one after the other, each over what its slot held before. -/
def layOver (capacity : Nat) (fresh : List α) (written : List (List α)) : List (List α) :=
  written.foldl (fun laid cells => laid ++ [cells ++ (base capacity fresh laid).drop cells.length])
    []

theorem layOver_concat (capacity : Nat) (fresh : List α) (written : List (List α))
    (cells : List α) :
    layOver capacity fresh (written ++ [cells]) =
      layOver capacity fresh written ++
        [cells ++ (base capacity fresh (layOver capacity fresh written)).drop cells.length] := by
  simp [layOver]

@[simp] theorem layOver_length (capacity : Nat) (fresh : List α) (written : List (List α)) :
    (layOver capacity fresh written).length = written.length := by
  induction written using List.reverseRecOn with
  | nil => rfl
  | append_singleton written cells ih => rw [layOver_concat]; simp [ih]

/-- Later rows do not change the rows laid before. -/
theorem layOver_take (capacity : Nat) (fresh : List α) (written : List (List α)) (k : Nat) :
    (layOver capacity fresh written).take k = layOver capacity fresh (written.take k) := by
  induction written using List.reverseRecOn with
  | nil => simp [layOver]
  | append_singleton written cells ih =>
    rcases Nat.lt_or_ge written.length k with all | some
    · rw [List.take_of_length_le (by simp; omega), List.take_of_length_le (by simp; omega)]
    · rw [layOver_concat, List.take_append_of_le_length (by simpa using some), ih,
        List.take_append_of_le_length some]

/-- Row `k` is what was written into it and then what the row `capacity` places before it left. -/
theorem layOver_row (capacity : Nat) (fresh : List α) {written : List (List α)} {k : Nat}
    {cells : List α} (h : written[k]? = some cells) :
    (layOver capacity fresh written)[k]? = some (cells ++
      (base capacity fresh ((layOver capacity fresh written).take k)).drop cells.length) := by
  obtain ⟨hk, hcells⟩ := List.getElem?_eq_some_iff.1 h
  have upTo : (layOver capacity fresh written)[k]? =
      ((layOver capacity fresh written).take (k + 1))[k]? := by
    rw [List.getElem?_take_of_lt (Nat.lt_succ_self k)]
  have front : (layOver capacity fresh (written.take k)).length = k := by
    simp only [layOver_length, List.length_take]
    omega
  rw [upTo, layOver_take, List.take_succ_eq_append_getElem hk, hcells, layOver_concat,
    List.getElem?_append_right front.le, front, Nat.sub_self, List.getElem?_cons_zero, layOver_take]

/-- What row `k` finds is fresh in the first round, and later the row one round before. -/
theorem base_take (capacity : Nat) (fresh : β) {laid : List β} {k : Nat} (hk : k ≤ laid.length) :
    base capacity fresh (laid.take k) =
      if k < capacity then fresh
      else if 0 < capacity then laid[k - capacity]?.getD fresh else fresh := by
  have length : (laid.take k).length = k := by
    simp only [List.length_take]
    omega
  unfold base
  rw [length]
  split
  · rfl
  · split
    · rw [List.getElem?_take_of_lt (by omega)]
    · rw [List.getElem?_eq_none (by simp only [List.length_take]; omega)]
      rfl

/-- A cell with content at column `j` of the slot of row `k`: some row of that slot wrote it, and
no later one up to row `k` reached the column. -/
def Standing (blank : α → Bool) (capacity : Nat) (written : List (List α)) (k j : Nat) : Prop :=
  ∃ i ≤ k, i % capacity = k % capacity ∧
    (∃ cells cell, written[i]? = some cells ∧ cells[j]? = some cell ∧ blank cell = false) ∧
    ∀ i', i < i' → i' ≤ k → i' % capacity = k % capacity →
      ∀ cells, written[i']? = some cells → cells.length ≤ j

/-- In none of the newest `capacity` rows does a cell of an older row stand behind what was
written. -/
def CleanSlots (blank : α → Bool) (capacity : Nat) (written : List (List α)) : Prop :=
  ∀ k cells, written[k]? = some cells → written.length ≤ k + capacity →
    ∀ j, cells.length ≤ j → ¬ Standing blank capacity written k j

variable {blank : α → Bool} {capacity : Nat} {written : List (List α)}

/-- In a column that row `k` writes, what stands is what it wrote. -/
theorem standing_written {k j : Nat} {cells : List α} (hcells : written[k]? = some cells)
    (hj : j < cells.length) :
    Standing blank capacity written k j ↔ ∃ cell, cells[j]? = some cell ∧ blank cell = false := by
  constructor
  · rintro ⟨i, hi, slot, ⟨cells', cell, hcells', hcell, content⟩, later⟩
    rcases Nat.lt_or_ge i k with before | here
    · have := later k before (Nat.le_refl k) rfl cells hcells
      omega
    · obtain rfl : i = k := by omega
      obtain rfl : cells = cells' := by simpa [hcells] using hcells'
      exact ⟨cell, hcell, content⟩
  · rintro ⟨cell, hcell, content⟩
    exact ⟨k, Nat.le_refl k, rfl, ⟨cells, cell, hcells, hcell, content⟩, fun i' h h' => by omega⟩

/-- In a column that row `k` does not write, nothing stands in the first round of the ring. -/
theorem not_standing_first {k j : Nat} {cells : List α} (hcells : written[k]? = some cells)
    (hj : cells.length ≤ j) (hk : k < capacity) : ¬ Standing blank capacity written k j := by
  rintro ⟨i, hi, slot, ⟨cells', cell, hcells', hcell, -⟩, -⟩
  rw [Nat.mod_eq_of_lt hk, Nat.mod_eq_of_lt (by omega)] at slot
  subst slot
  obtain rfl : cells = cells' := by simpa [hcells] using hcells'
  rw [List.getElem?_eq_none hj] at hcell
  simp at hcell

/-- In a column that row `k` does not write, what stands is what stood in its slot one round
before. -/
theorem standing_previous {k j : Nat} {cells : List α} (hcells : written[k]? = some cells)
    (hj : cells.length ≤ j) (hk : capacity ≤ k) (hcapacity : 0 < capacity) :
    Standing blank capacity written k j ↔ Standing blank capacity written (k - capacity) j := by
  have slotEq : (k - capacity) % capacity = k % capacity := by
    rw [Nat.mod_eq_sub_mod hk]
  constructor
  · rintro ⟨i, hi, slot, ⟨cells', cell, hcells', hcell, content⟩, later⟩
    have notHere : i ≠ k := by
      rintro rfl
      obtain rfl : cells = cells' := by simpa [hcells] using hcells'
      rw [List.getElem?_eq_none hj] at hcell
      simp at hcell
    have before : i + capacity ≤ k := by
      by_contra close
      have apart : k - i < capacity := by omega
      have divides : capacity ∣ k - i := (Nat.modEq_iff_dvd' hi).1 slot
      have := Nat.le_of_dvd (by omega) divides
      omega
    refine ⟨i, by omega, slot.trans slotEq.symm, ⟨cells', cell, hcells', hcell, content⟩, ?_⟩
    intro i' h h' slot'
    exact later i' h (by omega) (slot'.trans slotEq)
  · rintro ⟨i, hi, slot, content, later⟩
    refine ⟨i, by omega, slot.trans slotEq, content, ?_⟩
    intro i' h h' slot' cells' hcells'
    rcases Nat.lt_or_ge (k - capacity) i' with late | early
    · -- the only row of the slot after the previous round is row `k`
      have divides : capacity ∣ k - i' := (Nat.modEq_iff_dvd' h').1 slot'
      have here : k - i' = 0 := Nat.eq_zero_of_dvd_of_lt divides (by omega)
      obtain rfl : i' = k := by omega
      obtain rfl : cells = cells' := by simpa [hcells] using hcells'
      exact hj
    · exact later i' h early (slot'.trans slotEq.symm) cells' hcells'

/-- The content of the laid rows: the induction goes back from a row to the one that used its
slot before. -/
theorem standing_iff {fresh : List α} (hfresh : ∀ cell ∈ fresh, blank cell = true)
    (hcapacity : 0 < capacity) {k : Nat} (hk : k < written.length) (j : Nat) :
    (∃ row cell, (layOver capacity fresh written)[k]? = some row ∧ row[j]? = some cell ∧
        blank cell = false) ↔ Standing blank capacity written k j := by
  induction k using Nat.strong_induction_on with
  | _ k ih =>
    have hcells : written[k]? = some written[k] := List.getElem?_eq_getElem hk
    generalize written[k] = cells at hcells
    have hrow := layOver_row capacity fresh hcells
    rw [base_take capacity fresh (by simpa using hk.le)] at hrow
    simp only [hrow, Option.some.injEq, ↓existsAndEq, true_and]
    rcases Nat.lt_or_ge j cells.length with inside | behind
    · rw [List.getElem?_append_left inside]
      exact (standing_written hcells inside).symm
    · rw [List.getElem?_append_right behind, List.getElem?_drop,
        show cells.length + (j - cells.length) = j by omega]
      rcases Nat.lt_or_ge k capacity with first | later
      · rw [if_pos first]
        refine iff_of_false ?_ (not_standing_first hcells behind first)
        rintro ⟨cell, hcell, content⟩
        rw [hfresh cell (List.mem_of_getElem? hcell)] at content
        simp at content
      · rw [if_neg (by omega), if_pos hcapacity, standing_previous hcells behind later hcapacity,
          ← ih (k - capacity) (by omega) (by omega)]
        obtain ⟨before, hbefore⟩ : ∃ before,
            (layOver capacity fresh written)[k - capacity]? = some before :=
          ⟨_, List.getElem?_eq_getElem (by simp only [layOver_length]; omega)⟩
        simp [hbefore]

/-- What lies behind the written cells of a row is blank exactly when nothing stands there. -/
theorem behind_blank_iff {fresh : List α} (hfresh : ∀ cell ∈ fresh, blank cell = true)
    (hcapacity : 0 < capacity) {k : Nat} {cells : List α} (hcells : written[k]? = some cells) :
    (∀ cell ∈ (base capacity fresh ((layOver capacity fresh written).take k)).drop cells.length,
        blank cell = true) ↔
      ∀ j, cells.length ≤ j → ¬ Standing blank capacity written k j := by
  have hk : k < written.length := (List.getElem?_eq_some_iff.1 hcells).1
  have hrow := layOver_row capacity fresh hcells
  constructor
  · intro allBlank j hj standing
    obtain ⟨row, cell, rowEq, hcell, content⟩ := (standing_iff hfresh hcapacity hk j).2 standing
    obtain rfl := Option.some.inj (hrow.symm.trans rowEq)
    rw [List.getElem?_append_right hj] at hcell
    rw [allBlank cell (List.mem_of_getElem? hcell)] at content
    simp at content
  · intro clean cell hcell
    obtain ⟨j, hj⟩ := List.mem_iff_getElem?.1 hcell
    by_contra marked
    refine clean (cells.length + j) (by omega) ((standing_iff hfresh hcapacity hk _).1 ?_)
    refine ⟨_, cell, hrow, ?_, by simpa using marked⟩
    rw [List.getElem?_append_right (by omega),
      show cells.length + j - cells.length = j by omega]
    exact hj

/-- Rows laid over full rows are full. -/
theorem layOver_full (capacity : Nat) {width : Nat} {fresh : List α} (hfresh : fresh.length = width)
    (hwritten : ∀ cells ∈ written, cells.length ≤ width) :
    ∀ row ∈ layOver capacity fresh written, row.length = width := by
  induction written using List.reverseRecOn with
  | nil => simp [layOver]
  | append_singleton written cells ih =>
    have before := ih fun c hc => hwritten c (List.mem_append_left _ hc)
    have baseLength : (base capacity fresh (layOver capacity fresh written)).length = width := by
      unfold base
      split
      · exact hfresh
      · cases hrow : (layOver capacity fresh written)[
            (layOver capacity fresh written).length - capacity]? with
        | none => exact hfresh
        | some row => exact before row (List.mem_of_getElem? hrow)
    intro row hrow
    rw [layOver_concat] at hrow
    rcases List.mem_append.1 hrow with old | new
    · exact before row old
    · have short := hwritten cells (by simp)
      rw [List.mem_singleton.1 new, List.length_append, List.length_drop, baseLength]
      omega

end RingBuffer
