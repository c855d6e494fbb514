/-
Module: Smelly.Proofs.HistoryContinuation
Purpose: Which lines of the scrollback continue the line before them: what `init_line` answers, by
  slot, against the order of the lines in the ring.
Trusted boundary: none
-/
import Smelly.Lib.Run
import Smelly.Proofs.ScrollConservation

namespace Smelly

open Checked Run

/-! ### The ring stays well-formed -/

theorem copyLine_length (src dest : Row) : (copyLine src dest).length = dest.length := by
  simp only [copyLine, List.length_append, List.length_take, List.length_drop]
  omega

theorem historybufAddLine_wellFormed {self : HistoryBuf} (wf : self.WellFormed) (line : Line) :
    ∃ hb, historybufAddLine self line = some hb ∧ hb.WellFormed := by
  obtain ⟨pushed, idx, pushEq, pushedWf, -, -, pushedCount, idxEq, -⟩ := historybufPush_spec wf
  have positive := pushedWf.ynumPositive
  obtain ⟨old, hold⟩ : ∃ old, pushed.ring[pushed.count - 1]? = some old :=
    ⟨_, List.getElem?_eq_getElem (by
      rw [pushedWf.ringLength]
      have fits := pushedWf.countLe
      omega)⟩
  obtain ⟨stored, storeEq, storedWf, storedShape, -⟩ := onSlot_spec pushedWf hold
    (fun row => some (copyLine line.cells row)) rfl (copyLine_length ..)
  obtain ⟨final, attrsEq, finalWf, -, -⟩ := setAttrs_spec storedWf idx
    (by rw [idxEq, storedShape.ynum]; exact pushedWf.slot_lt _) line.attrs
  refine ⟨final, ?_, finalWf⟩
  rw [historybufAddLine, pushEq]
  simp only [idxEq, storeEq, Option.bind_eq_bind, Option.bind_some]
  rw [← idxEq]
  exact attrsEq

/-- Whether the pager history ends without a newline. -/
def PagedHistory.pagerOpen (self : PagedHistory) : Bool :=
  match self.pagerhist with
  | none => false
  | some ph => !ph.ringbuf.isEmpty && ph.ringbuf.getLast? != some 10

/-- What `init_line` answers for a slot. -/
theorem initSlot_isContinued {self : PagedHistory} (wf : self.ring.WellFormed) {num : Nat}
    (inside : num < self.ring.ynum) :
    ∃ line, self.initSlot num = some line ∧
      if num = 0 then line.attrs.isContinued = self.pagerOpen
      else self.ring.lastCellWrapped (num - 1) = some line.attrs.isContinued := by
  obtain ⟨row, rowEq⟩ : ∃ row, self.ring.cells[num]? = some row :=
    ⟨_, List.getElem?_eq_getElem (by rw [wf.cellsLength]; exact inside)⟩
  obtain ⟨attrs, attrsEq⟩ : ∃ attrs, self.ring.lineAttrs[num]? = some attrs :=
    ⟨_, List.getElem?_eq_getElem (by rw [wf.attrsLength]; exact inside)⟩
  obtain ⟨wrapped, wrappedEq⟩ := lastCellWrapped_isSome wf (num - 1) (by omega)
  have plain : historybufInitSlot self.ring num = some
      { cells := row, attrs := { attrs with
        isContinued := if 0 < num then wrapped else false } } := by
    simp only [historybufInitSlot, rowEq, attrsEq, wrappedEq, Option.bind_eq_bind,
      Option.bind_some]
    split <;> rfl
  cases pager : self.pagerhist with
  | none =>
    refine ⟨_, by rw [PagedHistory.initSlot, pager]; exact plain, ?_⟩
    rw [PagedHistory.pagerOpen, pager]
    by_cases first : num = 0
    · simp [first]
    · simp [first, wrappedEq, Nat.pos_of_ne_zero first]
  | some ph =>
    rw [PagedHistory.initSlot, PagedHistory.pagerOpen, pager]
    simp only [pagedInitSlot, plain, Option.bind_eq_bind, Option.bind_some]
    by_cases first : num = 0
    · simp [first]
    · simp [first, wrappedEq, Nat.pos_of_ne_zero first]

/-! ### Runs -/

theorem createPagedHistory_wellFormed {lines columns pagerhistSz : Nat} {init : PagedHistory}
    (created : createPagedHistory lines columns pagerhistSz = some init) :
    init.ring.WellFormed := by
  obtain ⟨ring, ringEq, rest⟩ := Option.bind_eq_some_iff.1 created
  obtain rfl := Option.some.inj rest
  unfold createHistorybuf at ringEq
  split at ringEq
  · cases ringEq
  · obtain rfl := Option.some.inj ringEq
    exact blankHistorybuf_wellFormed (by omega) (by omega)

theorem historyStep_wellFormed (lineAsAnsi : LineAsAnsi) {self : PagedHistory}
    (wf : self.ring.WellFormed) (event : HistoryEvent) :
    ∃ next, historyStep lineAsAnsi self event = some next ∧ next.ring.WellFormed := by
  cases event with
  | addLine line =>
    obtain ⟨ring, added, ringWf⟩ := historybufAddLine_wellFormed wf line
    by_cases full : self.ring.count = self.ring.ynum
    · obtain ⟨oldest, hold⟩ : ∃ oldest, self.ring.ring[0]? = some oldest :=
        ⟨_, List.getElem?_eq_getElem (by rw [wf.ringLength]; exact wf.ynumPositive)⟩
      obtain ⟨paged, pageEq, pagedRing, -⟩ := pageOut_spec lineAsAnsi wf hold
      refine ⟨{ paged with ring := ring }, ?_, ringWf⟩
      simp [historyStep, pagedHistorybufAddLine, full, pageEq, pagedRing, added]
    · refine ⟨{ self with ring := ring }, ?_, ringWf⟩
      simp [historyStep, pagedHistorybufAddLine, full, added]
  | popLine =>
    by_cases empty : self.ring.count = 0
    · exact ⟨self, by simp [historyStep, pagedHistorybufPopLine, empty], wf⟩
    · obtain ⟨line, lineEq, -⟩ := initSlot_isContinued wf
        (Nat.mod_lt (self.ring.startOfData + self.ring.count - 1) wf.ynumPositive)
      refine ⟨{ self with ring := { self.ring with count := self.ring.count - 1 } }, ?_,
        { wf with countLe := (Nat.sub_le ..).trans wf.countLe }⟩
      simp [historyStep, pagedHistorybufPopLine, empty, lineEq]

/-! ### Slots and line numbers -/

/-- The slot before a slot, in the ring. -/
def HistoryBuf.slotBefore (self : HistoryBuf) (num : Nat) : Nat :=
  (num + self.ynum - 1) % self.ynum

/-- The next older line stands in the slot before. -/
theorem indexOf_succ {self : HistoryBuf} (wf : self.WellFormed) {lnum : Nat}
    (older : lnum + 1 < self.count) :
    indexOf self (lnum + 1) = self.slotBefore (indexOf self lnum) := by
  have positive := wf.ynumPositive
  have place : self.count - 1 - min (self.count - 1) lnum =
      (self.count - 1 - min (self.count - 1) (lnum + 1)) + 1 := by omega
  unfold HistoryBuf.slotBefore indexOf
  rw [if_neg (by omega), if_neg (by omega), place, Nat.add_sub_assoc positive, Nat.mod_add_mod]
  rw [show ∀ p, self.startOfData + (p + 1) + (self.ynum - 1) = self.startOfData + p + self.ynum by
    omega, Nat.add_mod_right]

theorem slotBefore_pos {self : HistoryBuf} {num : Nat} (inside : num < self.ynum)
    (positive : 0 < num) : self.slotBefore num = num - 1 := by
  rw [HistoryBuf.slotBefore, show num + self.ynum - 1 = num - 1 + self.ynum by omega,
    Nat.add_mod_right, Nat.mod_eq_of_lt (by omega)]

/-- Line `lnum` is marked as a continuation when the next older line is wrapped, and the oldest line
when the pager history ends without a newline. -/
def ContinuationAsStored (self : PagedHistory) (lnum : Nat) : Prop :=
  ∃ line, self.initLine lnum = some line ∧
    if lnum + 1 < self.ring.count then
      self.ring.lastCellWrapped (indexOf self.ring (lnum + 1)) = some line.attrs.isContinued
    else line.attrs.isContinued = self.pagerOpen

/-- The first slot holds the line, and the line is the oldest one, or neither; or the slot before it
answers what the pager history does. -/
def OrderOfSlots (self : PagedHistory) (lnum : Nat) : Prop :=
  (indexOf self.ring lnum = 0 ↔ lnum + 1 = self.ring.count) ∨
    self.ring.lastCellWrapped (self.ring.slotBefore (indexOf self.ring lnum)) =
      some self.pagerOpen

theorem continuationAsStored_iff {self : PagedHistory} (wf : self.ring.WellFormed) {lnum : Nat}
    (inside : lnum < self.ring.count) :
    ContinuationAsStored self lnum ↔ OrderOfSlots self lnum := by
  have slot := indexOf_lt wf lnum
  obtain ⟨line, lineEq, answer⟩ := initSlot_isContinued wf slot
  have unique : ContinuationAsStored self lnum ↔
      if lnum + 1 < self.ring.count then
        self.ring.lastCellWrapped (indexOf self.ring (lnum + 1)) = some line.attrs.isContinued
      else line.attrs.isContinued = self.pagerOpen := by
    constructor
    · rintro ⟨other, otherEq, holds⟩
      obtain rfl := Option.some.inj (lineEq.symm.trans otherEq)
      exact holds
    · exact fun holds => ⟨line, lineEq, holds⟩
  rw [unique, OrderOfSlots]
  by_cases older : lnum + 1 < self.ring.count
  · rw [if_pos older, indexOf_succ wf older]
    by_cases first : indexOf self.ring lnum = 0
    · rw [if_pos first] at answer
      rw [answer]
      simp only [first, true_iff, Nat.ne_of_lt older, false_or]
    · rw [if_neg first] at answer
      rw [slotBefore_pos slot (Nat.pos_of_ne_zero first), answer]
      simp [first, Nat.ne_of_lt older]
  · have oldest : lnum + 1 = self.ring.count := by omega
    rw [if_neg older]
    by_cases first : indexOf self.ring lnum = 0
    · rw [if_pos first] at answer
      simp [first, oldest, answer]
    · rw [if_neg first] at answer
      rw [slotBefore_pos slot (Nat.pos_of_ne_zero first), answer]
      simp [first, oldest]

/-- In every scrollback reached by adding and popping lines, `init_line` marks a line as it should
exactly when the line is in the first slot just if it is the oldest, or the slot before it answers
what the pager history does. -/
theorem historyContinuation (lineAsAnsi : LineAsAnsi) {lines columns pagerhistSz : Nat}
    {init : PagedHistory} (created : createPagedHistory lines columns pagerhistSz = some init)
    (events : List HistoryEvent) :
    ∃ self, run (historyStep lineAsAnsi) init events = some self ∧
      ∀ lnum, lnum < self.ring.count →
        (ContinuationAsStored self lnum ↔ OrderOfSlots self lnum) := by
  obtain ⟨self, runEq, wf⟩ := run_total (fun _ => True)
    (fun self : PagedHistory => self.ring.WellFormed)
    (fun self event wf _ => historyStep_wellFormed lineAsAnsi wf event)
    (createPagedHistory_wellFormed created) events (fun _ _ => trivial)
  exact ⟨self, runEq, fun lnum inside => continuationAsStored_iff wf inside⟩

/-- Two lines without wrapping in a ring of two, then a wrapped one. -/
def wrappedRing : List HistoryEvent :=
  [.addLine { cells := [Cell.zero] }, .addLine { cells := [Cell.zero] },
    .addLine { cells := [Cell.zero.setWrapped true] }]

theorem historyContinuation_ring_of_two :
    ∃ self, run (historyStep fun _ id => ([], id)) { ring := blankHistorybuf 2 1 }
        wrappedRing = some self ∧
      ∀ lnum, lnum < self.ring.count →
        (ContinuationAsStored self lnum ↔ OrderOfSlots self lnum) :=
  historyContinuation (fun _ id => ([], id)) (rfl : createPagedHistory 2 1 0 = _) wrappedRing

/-- The oldest line is then marked as a continuation, though there is no pager history. -/
theorem historyContinuation_oldest_wrong :
    ∃ init self, createPagedHistory 2 1 0 = some init ∧
      run (historyStep fun _ id => ([], id)) init wrappedRing = some self ∧
      1 < self.ring.count ∧ ¬ ContinuationAsStored self 1 := by
  refine ⟨_, _, rfl, rfl, by decide, ?_⟩
  rintro ⟨line, lineEq, oldest⟩
  obtain rfl := Option.some.inj lineEq
  exact absurd oldest (by decide)

end Smelly
