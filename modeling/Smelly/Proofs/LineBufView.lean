/-
Module: Smelly.Proofs.LineBufView
Purpose: The well-formedness invariant of a line buffer, the rows an observer sees through
  `line_map`, and one specification lemma for each operation of `line-buf.c` in terms of that
  view.
Trusted boundary: none
-/
import Smelly.Core.LineBuf
import Smelly.Lib.Segment

namespace Smelly

open Checked

/-- The arrays of a line buffer have the sizes they were allocated with, and `line_map` is a
permutation of the physical rows. -/
structure LineBuf.WellFormed (lb : LineBuf) : Prop where
  cellsLength : lb.cells.length = lb.ynum
  rowLength : ∀ row ∈ lb.cells, row.length = lb.xnum
  mapPerm : lb.lineMap.Perm (List.range lb.ynum)
  attrsLength : lb.lineAttrs.length = lb.ynum
  scratchLength : lb.scratch.length = lb.ynum

/-- The rows and row attributes an index array selects. -/
def viewOf (cells : List Row) (map : List Nat) (attrs : List LineAttrs) :
    List (Row × LineAttrs) :=
  List.zipWith (fun physical attrs => (cells[physical]?.getD [], attrs)) map attrs

/-- The sequence of rows and row attributes seen through `line_map`, top line first. -/
def LineBuf.view (self : LineBuf) : List (Row × LineAttrs) :=
  viewOf self.cells self.lineMap self.lineAttrs

/-- A blank line of the view: blank cells and `line_attrs[i].val = 0`. -/
def blankLine (xnum : Nat) : Row × LineAttrs := (blankRow xnum, {})

namespace LineBuf.WellFormed

variable {self : LineBuf}

theorem mapLength (wf : self.WellFormed) : self.lineMap.length = self.ynum := by
  simpa using wf.mapPerm.length_eq

theorem mapNodup (wf : self.WellFormed) : self.lineMap.Nodup :=
  wf.mapPerm.nodup_iff.2 List.nodup_range

theorem mapLt (wf : self.WellFormed) {physical : Nat} (h : physical ∈ self.lineMap) :
    physical < self.ynum := by
  simpa using wf.mapPerm.mem_iff.1 h

theorem viewLength (wf : self.WellFormed) : self.view.length = self.ynum := by
  simp [LineBuf.view, viewOf, wf.mapLength, wf.attrsLength]

/-- Every screen line has a physical row. -/
theorem exists_physical (wf : self.WellFormed) {y : Nat} (h : y < self.ynum) :
    ∃ physical, self.lineMap[y]? = some physical ∧ physical < self.ynum := by
  have hy : y < self.lineMap.length := by
    rw [wf.mapLength]
    exact h
  exact ⟨self.lineMap[y], List.getElem?_eq_getElem hy, wf.mapLt (List.getElem_mem hy)⟩

theorem exists_attrs (wf : self.WellFormed) {y : Nat} (h : y < self.ynum) :
    ∃ attrs, self.lineAttrs[y]? = some attrs := by
  have hy : y < self.lineAttrs.length := by
    rw [wf.attrsLength]
    exact h
  exact ⟨self.lineAttrs[y], List.getElem?_eq_getElem hy⟩

theorem exists_row (wf : self.WellFormed) {y : Nat} (h : y < self.ynum) :
    ∃ row, self.row y = some row ∧ row.length = self.xnum := by
  obtain ⟨physical, mapEq, physicalLt⟩ := wf.exists_physical h
  have hcells : physical < self.cells.length := by
    rw [wf.cellsLength]
    exact physicalLt
  refine ⟨self.cells[physical], ?_, wf.rowLength _ (List.getElem_mem hcells)⟩
  simp [LineBuf.row, mapEq]

end LineBuf.WellFormed

theorem allocLinebuf_wellFormed (lines columns : Nat) :
    (allocLinebuf lines columns).WellFormed where
  cellsLength := by simp [allocLinebuf]
  rowLength := by
    intro row hrow
    rw [List.eq_of_mem_replicate hrow]
    simp [blankRow, allocLinebuf]
  mapPerm := List.Perm.refl _
  attrsLength := by simp [allocLinebuf]
  scratchLength := by simp [allocLinebuf]

theorem linebufClear_wellFormed {self : LineBuf} (wf : self.WellFormed) (ch : UInt32) :
    (linebufClear self ch).WellFormed where
  cellsLength := by simp [linebufClear]
  rowLength := by
    intro row hrow
    rw [List.eq_of_mem_replicate hrow]
    unfold clearCharsInLine
    split <;> simp [blankRow, linebufClear]
  mapPerm := List.Perm.refl _
  attrsLength := by simp [linebufClear]
  scratchLength := wf.scratchLength

/-! ### Changing one physical row -/

/-- Replacing the cells of one physical row by a row of the same width keeps the buffer
well-formed. -/
theorem LineBuf.WellFormed.setCells {self : LineBuf} (wf : self.WellFormed)
    (physical : Nat) (row : Row) (h : row.length = self.xnum) :
    LineBuf.WellFormed { self with cells := self.cells.set physical row } where
  cellsLength := by simpa using wf.cellsLength
  rowLength := by
    intro r hr
    rcases List.mem_or_eq_of_mem_set hr with old | new
    · exact wf.rowLength r old
    · rw [new]
      exact h
  mapPerm := wf.mapPerm
  attrsLength := wf.attrsLength
  scratchLength := wf.scratchLength

theorem LineBuf.WellFormed.setAttrs {self : LineBuf} (wf : self.WellFormed)
    (attrs : List LineAttrs) (h : attrs.length = self.lineAttrs.length) :
    LineBuf.WellFormed { self with lineAttrs := attrs } where
  cellsLength := wf.cellsLength
  rowLength := wf.rowLength
  mapPerm := wf.mapPerm
  attrsLength := h.trans wf.attrsLength
  scratchLength := wf.scratchLength

/-- Seen through a duplicate-free `line_map`, writing the physical row behind line `y` changes
line `y` only. -/
theorem zipWith_cells_set {cells : List Row} {map : List Nat} {attrs : List LineAttrs}
    (nodup : map.Nodup) {y physical : Nat} (hmap : map[y]? = some physical)
    (hcells : physical < cells.length) (row : Row) (hattrs : map.length = attrs.length) :
    List.zipWith (fun m a => ((cells.set physical row)[m]?.getD [], a)) map attrs =
      (List.zipWith (fun m a => (cells[m]?.getD [], a)) map attrs).modify y
        (fun line => (row, line.2)) := by
  apply List.ext_getElem?
  intro j
  obtain ⟨hy, hphysical⟩ := List.getElem?_eq_some_iff.1 hmap
  simp only [List.getElem?_zipWith, List.getElem?_modify]
  rcases Nat.lt_or_ge j map.length with hj | hj
  · have hj' : j < attrs.length := hattrs ▸ hj
    rw [List.getElem?_eq_getElem hj, List.getElem?_eq_getElem hj']
    by_cases same : y = j
    · subst same
      simp [hphysical, hcells]
    · have distinct : physical ≠ map[j] := by
        intro heq
        exact same ((List.Nodup.getElem_inj_iff nodup).1 (hphysical.trans heq))
      simp [same, List.getElem?_set_ne distinct]
  · simp [List.getElem?_eq_none hj]

/-- What `linebuf_clear_line` does to one line of the view. -/
theorem linebufClearLine_spec {self : LineBuf} (wf : self.WellFormed) {y : Nat}
    (h : y < self.ynum) (clearAttrs : Bool) :
    ∃ lb, linebufClearLine self y clearAttrs = some lb ∧ lb.WellFormed ∧ lb.xnum = self.xnum ∧
      lb.ynum = self.ynum ∧ lb.lineMap = self.lineMap ∧
      lb.view = self.view.modify y
        (fun line => (blankRow self.xnum, if clearAttrs then {} else line.2)) := by
  obtain ⟨physical, mapEq, physicalLt⟩ := wf.exists_physical h
  have hcells : physical < self.cells.length := by
    rw [wf.cellsLength]
    exact physicalLt
  have hattrs : y < self.lineAttrs.length := by
    rw [wf.attrsLength]
    exact h
  have hlengths : self.lineMap.length = self.lineAttrs.length := by
    rw [wf.mapLength, wf.attrsLength]
  have cleared : self.onRow y (fun _ => some (blankRow self.xnum)) =
      some { self with cells := self.cells.set physical (blankRow self.xnum) } := by
    simp [LineBuf.onRow, LineBuf.row, LineBuf.setRow, mapEq, hcells, setAt]
  have clearedWf := wf.setCells physical (blankRow self.xnum) (by simp [blankRow])
  have clearedView := zipWith_cells_set wf.mapNodup mapEq hcells (blankRow self.xnum) hlengths
  cases clearAttrs with
  | false =>
    refine ⟨_, by simp [linebufClearLine, cleared], clearedWf, rfl, rfl, rfl, ?_⟩
    simpa [LineBuf.view, viewOf] using clearedView
  | true =>
    refine ⟨_, by simp [linebufClearLine, cleared, setAt, hattrs],
      clearedWf.setAttrs (self.lineAttrs.set y {}) (by simp), rfl, rfl, rfl, ?_⟩
    apply List.ext_getElem?
    intro j
    have atJ := congrArg (fun lines => lines[j]?) clearedView
    simp only [LineBuf.view, viewOf, List.getElem?_zipWith, List.getElem?_modify] at atJ ⊢
    by_cases same : y = j
    · subst same
      simp [mapEq, hattrs, hcells]
    · simpa [same] using atJ

theorem linebufClear_view (self : LineBuf) (ch : UInt32) :
    (linebufClear self ch).view =
      List.replicate self.ynum (clearCharsInLine (blankRow self.xnum) ch,
        if ch = 0 then {} else { hasDirtyText := true }) := by
  apply List.ext_getElem?
  intro j
  simp only [LineBuf.view, viewOf, linebufClear]
  by_cases h : j < self.ynum
  · simp [h]
  · simp [h]

/-! ### Moving lines -/

/-- A loop of `moveLine` moves both arrays. -/
theorem moveLines_up (self : LineBuf) {lo n k : Nat} {map : List Nat} {attrs : List LineAttrs}
    (hmap : forUp lo n (fun i s => moveAt s i (i + k)) self.lineMap = some map)
    (hattrs : forUp lo n (fun i s => moveAt s i (i + k)) self.lineAttrs = some attrs) :
    forUp lo n (fun i lb => lb.moveLine i (i + k)) self =
      some { self with lineMap := map, lineAttrs := attrs } := by
  refine forUp_pair (fun m a => { self with lineMap := m, lineAttrs := a }) ?_ hmap hattrs
  intro i s t s' t' hs ht
  simp [LineBuf.moveLine, hs, ht]

theorem moveLines_down (self : LineBuf) {lo n k : Nat} {map : List Nat} {attrs : List LineAttrs}
    (hmap : forDown lo n (fun i s => moveAt s i (i - k)) self.lineMap = some map)
    (hattrs : forDown lo n (fun i s => moveAt s i (i - k)) self.lineAttrs = some attrs) :
    forDown lo n (fun i lb => lb.moveLine i (i - k)) self =
      some { self with lineMap := map, lineAttrs := attrs } := by
  refine forDown_pair (fun m a => { self with lineMap := m, lineAttrs := a }) ?_ hmap hattrs
  intro i s t s' t' hs ht
  simp [LineBuf.moveLine, hs, ht]

/-- Rearranging both arrays inside one segment keeps the buffer well-formed. -/
theorem LineBuf.WellFormed.setSlots {self : LineBuf} (wf : self.WellFormed)
    {map scratch : List Nat} {attrs : List LineAttrs} (hmap : map.Perm self.lineMap)
    (hattrs : attrs.length = self.ynum) (hscratch : scratch.length = self.ynum) :
    LineBuf.WellFormed
      { self with lineMap := map, scratch := scratch, lineAttrs := attrs } where
  cellsLength := wf.cellsLength
  rowLength := wf.rowLength
  mapPerm := hmap.trans wf.mapPerm
  attrsLength := hattrs
  scratchLength := hscratch

/-- `linebuf_index` scrolls the segment `[top, bottom]` up by one, wrapping around. -/
theorem linebufIndex_spec {self : LineBuf} (wf : self.WellFormed) {top bottom : Nat}
    (h : top ≤ bottom) (hb : bottom < self.ynum) :
    ∃ lb, linebufIndex self top bottom = some lb ∧ lb.WellFormed ∧ lb.xnum = self.xnum ∧
      lb.ynum = self.ynum ∧ lb.view = Segment.on top (bottom + 1) (·.rotate 1) self.view := by
  by_cases single : bottom = top
  · subst single
    refine ⟨self, by simp [linebufIndex], wf, rfl, rfl, ?_⟩
    exact (Segment.on_singleton bottom _ self.view fun s hs => by
      rcases Nat.le_one_iff_eq_zero_or_eq_one.1 hs with h0 | h1
      · rw [List.eq_nil_of_length_eq_zero h0, List.rotate_nil]
      · obtain ⟨a, rfl⟩ := List.length_eq_one_iff.1 h1
        simp).symm
  · have hmapLength : bottom < self.lineMap.length := by
      rw [wf.mapLength]
      exact hb
    have hattrsLength : bottom < self.lineAttrs.length := by
      rw [wf.attrsLength]
      exact hb
    obtain ⟨physical, mapEq, -⟩ := wf.exists_physical (y := top) (by omega)
    obtain ⟨attrs, attrsEq⟩ := wf.exists_attrs (y := top) (by omega)
    obtain ⟨map, mapLoop, -, mapFinal⟩ := Segment.scrollUp_loop self.lineMap top bottom h
      hmapLength mapEq
    obtain ⟨moved, attrsLoop, -, attrsFinal⟩ := Segment.scrollUp_loop self.lineAttrs top bottom h
      hattrsLength attrsEq
    refine ⟨_, ?_, wf.setSlots
      (Segment.on_perm top (bottom + 1) (·.rotate 1) self.lineMap
        (fun s => List.rotate_perm s 1) (by omega))
      ((Segment.on_length top (bottom + 1) (·.rotate 1) self.lineAttrs
        (fun s => List.length_rotate s _) (by omega)).trans wf.attrsLength) wf.scratchLength,
      rfl, rfl, ?_⟩
    · rw [linebufIndex, if_neg (by omega)]
      simp [mapEq, attrsEq, moveLines_up self mapLoop attrsLoop, LineBuf.placeLine, mapFinal,
        attrsFinal]
    · refine Segment.zipWith_on _ top (bottom + 1) (·.rotate 1) (·.rotate 1) (·.rotate 1)
        (fun s => List.length_rotate s _) (fun s => List.length_rotate s _)
        (fun s t hst => (List.zipWith_rotate_distrib _ s t 1 hst).symm) _ _ ?_
      rw [wf.mapLength, wf.attrsLength]

/-- `linebuf_reverse_index` scrolls the segment `[top, bottom]` down by one, wrapping around. -/
theorem linebufReverseIndex_spec {self : LineBuf} (wf : self.WellFormed) {top bottom : Nat}
    (h : top ≤ bottom) (hb : bottom < self.ynum) :
    ∃ lb, linebufReverseIndex self top bottom = some lb ∧ lb.WellFormed ∧ lb.xnum = self.xnum ∧
      lb.ynum = self.ynum ∧
      lb.view = Segment.on top (bottom + 1) (fun s => s.rotate (s.length - 1)) self.view := by
  by_cases single : bottom = top
  · subst single
    refine ⟨self, by simp [linebufReverseIndex], wf, rfl, rfl, ?_⟩
    exact (Segment.on_singleton bottom _ self.view fun s hs => by
      rw [show s.length - 1 = 0 by omega, List.rotate_zero]).symm
  · have hmapLength : bottom < self.lineMap.length := by
      rw [wf.mapLength]
      exact hb
    have hattrsLength : bottom < self.lineAttrs.length := by
      rw [wf.attrsLength]
      exact hb
    obtain ⟨physical, mapEq, -⟩ := wf.exists_physical (y := bottom) hb
    obtain ⟨attrs, attrsEq⟩ := wf.exists_attrs (y := bottom) hb
    obtain ⟨map, mapLoop, -, mapFinal⟩ := Segment.scrollDown_loop self.lineMap top bottom h
      hmapLength mapEq
    obtain ⟨moved, attrsLoop, -, attrsFinal⟩ := Segment.scrollDown_loop self.lineAttrs top bottom
      h hattrsLength attrsEq
    refine ⟨_, ?_, wf.setSlots
      (Segment.on_perm top (bottom + 1) (fun s => s.rotate (s.length - 1)) self.lineMap
        (fun s => List.rotate_perm s _) (by omega))
      ((Segment.on_length top (bottom + 1) (fun s => s.rotate (s.length - 1)) self.lineAttrs
        (fun s => List.length_rotate s _) (by omega)).trans wf.attrsLength) wf.scratchLength,
      rfl, rfl, ?_⟩
    · rw [linebufReverseIndex, if_neg (by omega)]
      simp [mapEq, attrsEq, moveLines_down self mapLoop attrsLoop, LineBuf.placeLine, mapFinal,
        attrsFinal]
    · refine Segment.zipWith_on _ top (bottom + 1) (fun s => s.rotate (s.length - 1))
        (fun s => s.rotate (s.length - 1)) (fun s => s.rotate (s.length - 1))
        (fun s => List.length_rotate s _) (fun s => List.length_rotate s _) ?_ _ _ ?_
      · intro s t hst
        rw [← hst, ← List.zipWith_rotate_distrib _ s t _ hst, List.length_zipWith, ← hst,
          Nat.min_self]
      · rw [wf.mapLength, wf.attrsLength]

/-! ### Opening and closing a gap -/

/-- Invariant of the loop that blanks the lines from `lo` on, when it has reached `i`. -/
def BlankedUpTo (self : LineBuf) (lo i : Nat) (lb : LineBuf) : Prop :=
  lb.WellFormed ∧ lb.xnum = self.xnum ∧ lb.ynum = self.ynum ∧
    lb.view = self.view.take lo ++ List.replicate (i - lo) (blankLine self.xnum) ++
      self.view.drop i

theorem blankedUpTo_succ {self lb : LineBuf} (wf : self.WellFormed) {lo i : Nat} (hlo : lo ≤ i)
    (hi : i < self.ynum) (h : BlankedUpTo self lo i lb) :
    ∃ next, lb.blankLine i = some next ∧ BlankedUpTo self lo (i + 1) next := by
  obtain ⟨lbWf, hx, hy, hview⟩ := h
  obtain ⟨next, nextEq, nextWf, nextX, nextY, -, nextView⟩ :=
    linebufClearLine_spec lbWf (hy ▸ hi) true
  refine ⟨next, nextEq, nextWf, nextX.trans hx, nextY.trans hy, ?_⟩
  have hlength := wf.viewLength
  rw [nextView, hview]
  apply List.ext_getElem?
  simp only [List.getElem?_modify, List.getElem?_append, blankLine]
  grind

/-- The final loop of `linebuf_insert_lines` and `linebuf_delete_lines`: the lines
`lo, …, lo + n - 1` become blank lines without attributes. -/
theorem blankLines_spec {self : LineBuf} (wf : self.WellFormed) (lo n : Nat)
    (h : lo + n ≤ self.ynum) :
    ∃ lb, forUp lo n (fun i lb => lb.blankLine i) self = some lb ∧ lb.WellFormed ∧
      lb.xnum = self.xnum ∧ lb.ynum = self.ynum ∧
      lb.view = self.view.take lo ++ List.replicate n (blankLine self.xnum) ++
        self.view.drop (lo + n) := by
  have start : BlankedUpTo self lo lo self := ⟨wf, rfl, rfl, by simp⟩
  obtain ⟨lb, loopEq, lbWf, hx, hy, hview⟩ := forUp_invariant (BlankedUpTo self lo) (n := n) start
    (fun i lb hlo hhi inv => blankedUpTo_succ wf hlo (by omega) inv)
  refine ⟨lb, loopEq, lbWf, hx, hy, ?_⟩
  rw [hview, Nat.add_sub_cancel_left]

/-- Saving a block of `line_map` in `scratch`. -/
theorem saveScratch_loop {self : LineBuf} (wf : self.WellFormed) (lo n : Nat)
    (h : lo + n ≤ self.ynum) :
    forUp lo n (fun i lb => lb.saveScratch i) self =
      some { self with scratch := self.scratch.take lo ++ (self.lineMap.drop lo).take n ++
        self.scratch.drop (lo + n) } := by
  have copied := forUp_copy self.lineMap 0 0
    (fun i s => self.lineMap[i]? >>= fun physical => setAt s i physical)
    (by intro i s; simp) lo n self.scratch
    (by rw [wf.mapLength]; omega) (by rw [wf.scratchLength]; omega)
  have lifted := forUp_component (fun i lb => LineBuf.saveScratch lb i)
    (fun i s => self.lineMap[i]? >>= fun physical => setAt s i physical)
    (fun s => { self with scratch := s })
    (by
      intro i s
      simp only [LineBuf.saveScratch]
      cases self.lineMap[i]? with
      | none => rfl
      | some physical => cases hset : setAt s i physical <;> simp [hset]) lo n self.scratch
  refine Eq.trans lifted ?_
  rw [copied]
  simp

/-- Loading a block of `scratch` into `line_map`. -/
theorem loadScratch_loop (self : LineBuf) (hmap : self.lineMap.length = self.ynum)
    (hscratch : self.scratch.length = self.ynum) (target source n : Nat)
    (ht : target + n ≤ self.ynum) (hs : source + n ≤ self.ynum) :
    forUp 0 n (fun i lb => lb.loadScratch (target + i) (source + i)) self =
      some { self with lineMap := self.lineMap.take target ++ (self.scratch.drop source).take n ++
        self.lineMap.drop (target + n) } := by
  have copied := forUp_copy self.scratch source target
    (fun i s => self.scratch[source + i]? >>= fun physical => setAt s (target + i) physical)
    (fun i s => rfl) 0 n self.lineMap (by omega) (by omega)
  have lifted := forUp_component
    (fun i lb => LineBuf.loadScratch lb (target + i) (source + i))
    (fun i s => self.scratch[source + i]? >>= fun physical => setAt s (target + i) physical)
    (fun m => { self with lineMap := m })
    (by
      intro i s
      simp only [LineBuf.loadScratch]
      cases self.scratch[source + i]? with
      | none => rfl
      | some physical => cases hset : setAt s (target + i) physical <;> simp [hset]) 0 n self.lineMap
  refine Eq.trans lifted ?_
  rw [copied]
  simp

theorem viewOf_take (cells : List Row) (map : List Nat) (attrs : List LineAttrs) (n : Nat) :
    (viewOf cells map attrs).take n = viewOf cells (map.take n) (attrs.take n) :=
  List.take_zipWith

theorem viewOf_drop (cells : List Row) (map : List Nat) (attrs : List LineAttrs) (n : Nat) :
    (viewOf cells map attrs).drop n = viewOf cells (map.drop n) (attrs.drop n) :=
  List.drop_zipWith

theorem viewOf_append (cells : List Row) {map map' : List Nat} {attrs attrs' : List LineAttrs}
    (h : map.length = attrs.length) :
    viewOf cells (map ++ map') (attrs ++ attrs') =
      viewOf cells map attrs ++ viewOf cells map' attrs' :=
  List.zipWith_append h

/-- The arrays after the copying loop of `linebuf_insert_lines`: what is in front of the gap
and behind it. -/
theorem movedUp_take {α : Type} (cells : List α) (y n bottom : Nat) (h : y + n ≤ cells.length) :
    (cells.take (y + n) ++ (cells.drop y).take (bottom + 1 - (y + n)) ++
      cells.drop (bottom + 1)).take y = cells.take y := by
  rw [List.append_assoc, List.take_append_of_le_length (by simp only [List.length_take]; omega),
    List.take_take]
  congr 1
  omega

theorem movedUp_drop {α : Type} (cells : List α) (y n bottom : Nat) (h : y + n ≤ cells.length) :
    (cells.take (y + n) ++ (cells.drop y).take (bottom + 1 - (y + n)) ++
      cells.drop (bottom + 1)).drop (y + n) =
      (cells.drop y).take (bottom + 1 - (y + n)) ++ cells.drop (bottom + 1) := by
  rw [List.append_assoc, List.drop_left' (by simp only [List.length_take]; omega)]

theorem movedUp_length {α : Type} (cells : List α) (y n bottom : Nat) (h : y + n ≤ bottom + 1)
    (hb : bottom + 1 ≤ cells.length) :
    (cells.take (y + n) ++ (cells.drop y).take (bottom + 1 - (y + n)) ++
      cells.drop (bottom + 1)).length = cells.length := by
  simp only [List.length_append, List.length_take, List.length_drop]
  omega

/-- Saving a block keeps the length of `scratch` and puts the block where it came from. -/
theorem saved_block {α : Type} (cells scratch : List α) {p n : Nat} (h : p + n ≤ cells.length)
    (hlength : scratch.length = cells.length) :
    (scratch.take p ++ (cells.drop p).take n ++ scratch.drop (p + n)).length = cells.length ∧
      ((scratch.take p ++ (cells.drop p).take n ++ scratch.drop (p + n)).drop p).take n =
        (cells.drop p).take n := by
  constructor
  · simp only [List.length_append, List.length_take, List.length_drop]
    omega
  · refine Segment.middle_block ?_ ?_
    · simp only [List.length_take]
      omega
    · simp only [List.length_take, List.length_drop]
      omega

/-- The lines of `linebuf_insert_lines` before its blanking loop: the `n` physical rows that
fell off the bottom wait at `y`. -/
theorem insertLines_moved {self : LineBuf} (wf : self.WellFormed) {y bottom n : Nat}
    (h : y + n ≤ bottom + 1) (hb : bottom < self.ynum) :
    ∃ lb : LineBuf,
      (do
        let lb ← forUp (bottom + 1 - n) n (fun i lb => LineBuf.saveScratch lb i) self
        let lb ← forDown (y + n) (bottom + 1 - (y + n)) (fun i lb => lb.moveLine i (i - n)) lb
        forUp 0 n (fun i lb => lb.loadScratch (y + i) (bottom + 1 - n + i)) lb) = some lb ∧
      lb.WellFormed ∧ lb.xnum = self.xnum ∧ lb.ynum = self.ynum ∧
      lb.view.take y = self.view.take y ∧
      lb.view.drop (y + n) =
        (self.view.drop y).take (bottom + 1 - (y + n)) ++ self.view.drop (bottom + 1) := by
  have hmap := wf.mapLength
  have hattrs := wf.attrsLength
  have hscratch := wf.scratchLength
  have saved := saveScratch_loop wf (bottom + 1 - n) n (by omega)
  have moveMap := forDown_moveAt self.lineMap (y + n) (bottom + 1 - (y + n)) n (by omega)
    (by omega)
  have moveAttrs := forDown_moveAt self.lineAttrs (y + n) (bottom + 1 - (y + n)) n (by omega)
    (by omega)
  rw [show y + n - n = y by omega, show y + n + (bottom + 1 - (y + n)) = bottom + 1 by omega]
    at moveMap moveAttrs
  obtain ⟨lengthS, blockS⟩ := saved_block self.lineMap self.scratch (p := bottom + 1 - n) (n := n)
    (by omega) (by omega)
  have takeM := movedUp_take self.lineMap y n bottom (by omega)
  have takeA := movedUp_take self.lineAttrs y n bottom (by omega)
  have dropM := movedUp_drop self.lineMap y n bottom (by omega)
  have dropA := movedUp_drop self.lineAttrs y n bottom (by omega)
  have lengthM := movedUp_length self.lineMap y n bottom (by omega)
    (by omega)
  have lengthA := movedUp_length self.lineAttrs y n bottom (by omega)
    (by omega)
  have rotated := Segment.openGap_cells self.lineMap y (bottom + 1) n (by omega) (by omega) rfl
  generalize self.lineMap.take (y + n) ++
    (self.lineMap.drop y).take (bottom + 1 - (y + n)) ++ self.lineMap.drop (bottom + 1) = M at *
  generalize self.lineAttrs.take (y + n) ++
    (self.lineAttrs.drop y).take (bottom + 1 - (y + n)) ++ self.lineAttrs.drop (bottom + 1) = A
    at *
  generalize self.scratch.take (bottom + 1 - n) ++ (self.lineMap.drop (bottom + 1 - n)).take n ++
    self.scratch.drop (bottom + 1 - n + n) = S at *
  have moved := moveLines_down { self with scratch := S } moveMap moveAttrs
  have loaded := loadScratch_loop
    { self with lineMap := M, scratch := S, lineAttrs := A } (lengthM.trans hmap)
    (lengthS.trans hmap) y (bottom + 1 - n) n (by simp; omega)
    (by simp; omega)
  simp only [blockS] at loaded
  have block : (M.take y).length = y := by
    simp only [List.length_take]
    omega
  have gap : (M.take y).length + ((self.lineMap.drop (bottom + 1 - n)).take n).length = y + n := by
    simp only [List.length_take, List.length_drop]
    omega
  have permuted : (M.take y ++ (self.lineMap.drop (bottom + 1 - n)).take n ++
      M.drop (y + n)).Perm self.lineMap := by
    rw [rotated]
    exact Segment.on_perm _ _ _ _ (Segment.lastToFront_perm n) (by omega)
  have finalWf := wf.setSlots permuted (lengthA.trans hattrs) (lengthS.trans hmap)
  refine ⟨_, ?_, finalWf, rfl, rfl, ?_, ?_⟩
  · rw [saved]
    simp only [Option.bind_eq_bind, Option.bind_some]
    rw [moved]
    exact loaded
  · simp only [LineBuf.view, viewOf_take]
    rw [Segment.take_block block, takeM, takeA]
  · simp only [LineBuf.view, viewOf_drop, viewOf_take]
    rw [Segment.drop_block gap, dropM, dropA, viewOf_append]
    simp only [List.length_take, List.length_drop]
    omega

/-- `linebuf_insert_lines` opens a gap of `min num (bottom + 1 - y)` blank lines at `y`. -/
theorem linebufInsertLines_spec {self : LineBuf} (wf : self.WellFormed) (num : Nat)
    {y bottom : Nat} (h : y ≤ bottom) (hb : bottom < self.ynum) :
    ∃ lb, linebufInsertLines self num y bottom = some lb ∧ lb.WellFormed ∧ lb.xnum = self.xnum ∧
      lb.ynum = self.ynum ∧
      lb.view = Segment.on y (bottom + 1) (Segment.openGap num (blankLine self.xnum)) self.view := by
  by_cases hnum : num = 0
  · subst hnum
    refine ⟨self, ?_, wf, rfl, rfl, (Segment.on_openGap_zero _ _ _ _ (by omega)).symm⟩
    simp [linebufInsertLines]
  · obtain ⟨n, hn⟩ : ∃ n, n = min (bottom + 1 - y) num := ⟨_, rfl⟩
    have hview := wf.viewLength
    obtain ⟨moved, movedEq, movedWf, movedX, movedY, movedTake, movedDrop⟩ :=
      insertLines_moved wf (y := y) (n := n) (by omega) hb
    obtain ⟨lb, blankEq, lbWf, lbX, lbY, lbView⟩ :=
      blankLines_spec movedWf y n (by omega)
    refine ⟨lb, ?_, lbWf, lbX.trans movedX, lbY.trans movedY, ?_⟩
    · have insertEq : linebufInsertLines self num y bottom =
          (do
            let lb ← forUp (bottom + 1 - n) n (fun i lb => LineBuf.saveScratch lb i) self
            let lb ← forDown (y + n) (bottom + 1 - (y + n)) (fun i lb => lb.moveLine i (i - n)) lb
            forUp 0 n (fun i lb => lb.loadScratch (y + i) (bottom + 1 - n + i)) lb) >>=
          fun lb => forUp y n (fun i lb => lb.blankLine i) lb := by
        unfold linebufInsertLines
        rw [if_neg (by omega)]
        simp only [← hn]
        rw [if_pos (by omega)]
        simp only [bind_assoc]
      rw [insertEq, movedEq]
      exact blankEq
    · rw [lbView, movedTake, movedDrop, movedX]
      exact (Segment.on_openGap y (bottom + 1) num n _ _ (by omega) (by omega) hn).symm

/-- The arrays after the copying loop of `linebuf_delete_lines`, which may run past the
segment: what is in front of the hole and behind it. -/
theorem movedDown_take {α : Type} (cells : List α) (y n limit count : Nat)
    (hcount : limit - (y + n) ≤ count) (hfit : y + n + count ≤ cells.length) (h : y + n ≤ limit) :
    (cells.take y ++ (cells.drop (y + n)).take count ++ cells.drop (y + count)).take (limit - n) =
      cells.take y ++ (cells.drop (y + n)).take (limit - (y + n)) := by
  have front : (cells.take y).length = y := by
    simp only [List.length_take]
    omega
  rw [List.append_assoc, List.take_append, List.take_of_length_le (by omega),
    List.take_append_of_le_length (by simp only [List.length_take, List.length_drop]; omega),
    List.take_take]
  congr 2
  omega

theorem movedDown_drop {α : Type} (cells : List α) (y n limit count : Nat)
    (hcount : y + count ≤ limit) (hfit : y + n + count ≤ cells.length) :
    (cells.take y ++ (cells.drop (y + n)).take count ++ cells.drop (y + count)).drop limit =
      cells.drop limit := by
  have front : (cells.take y ++ (cells.drop (y + n)).take count).length = y + count := by
    simp only [List.length_append, List.length_take, List.length_drop]
    omega
  rw [List.drop_append, List.drop_eq_nil_of_le (by omega), List.drop_drop, List.nil_append]
  congr 1
  omega

theorem movedDown_length {α : Type} (cells : List α) (y n count : Nat)
    (hfit : y + n + count ≤ cells.length) :
    (cells.take y ++ (cells.drop (y + n)).take count ++ cells.drop (y + count)).length =
      cells.length := by
  simp only [List.length_append, List.length_take, List.length_drop]
  omega

/-- The lines of `linebuf_delete_lines` before its blanking loop: the `n` physical rows of the
deleted lines wait at the end of the segment. -/
theorem deleteLines_moved {self : LineBuf} (wf : self.WellFormed) {y bottom n : Nat}
    (h : y + n ≤ bottom + 1) (hb : bottom < self.ynum) :
    ∃ lb : LineBuf,
      (do
        let lb ← forUp y n (fun i lb => LineBuf.saveScratch lb i) self
        let lb ← forUp y (min (bottom + 1) (self.ynum - n) - y)
          (fun i lb => lb.moveLine i (i + n)) lb
        forUp 0 n (fun i lb => lb.loadScratch (bottom + 1 - n + i) (y + i)) lb) = some lb ∧
      lb.WellFormed ∧ lb.xnum = self.xnum ∧ lb.ynum = self.ynum ∧
      lb.view.take (bottom + 1 - n) =
        self.view.take y ++ (self.view.drop (y + n)).take (bottom + 1 - (y + n)) ∧
      lb.view.drop (bottom + 1) = self.view.drop (bottom + 1) := by
  have hmap := wf.mapLength
  have hattrs := wf.attrsLength
  have hscratch := wf.scratchLength
  obtain ⟨count, hcount⟩ : ∃ count, count = min (bottom + 1) (self.ynum - n) - y := ⟨_, rfl⟩
  have saved := saveScratch_loop wf y n (by omega)
  have moveMap := forUp_moveAt self.lineMap y count n (by omega)
  have moveAttrs := forUp_moveAt self.lineAttrs y count n (by omega)
  obtain ⟨lengthS, blockS⟩ := saved_block self.lineMap self.scratch (p := y) (n := n)
    (by omega) (by omega)
  have takeM := movedDown_take self.lineMap y n (bottom + 1) count
    (by omega) (by omega) h
  have takeA := movedDown_take self.lineAttrs y n (bottom + 1) count
    (by omega) (by omega) h
  have dropM := movedDown_drop self.lineMap y n (bottom + 1) count
    (by omega) (by omega)
  have dropA := movedDown_drop self.lineAttrs y n (bottom + 1) count
    (by omega) (by omega)
  have lengthM := movedDown_length self.lineMap y n count (by omega)
  have lengthA := movedDown_length self.lineAttrs y n count (by omega)
  have rotated := Segment.closeGap_cells self.lineMap y (bottom + 1) n count h (by omega)
    (by omega) (by omega) (by omega) rfl
  generalize self.lineMap.take y ++ (self.lineMap.drop (y + n)).take count ++
    self.lineMap.drop (y + count) = M at *
  generalize self.lineAttrs.take y ++ (self.lineAttrs.drop (y + n)).take count ++
    self.lineAttrs.drop (y + count) = A at *
  generalize self.scratch.take y ++ (self.lineMap.drop y).take n ++ self.scratch.drop (y + n) = S
    at *
  have moved := moveLines_up { self with scratch := S } moveMap moveAttrs
  have loaded := loadScratch_loop
    { self with lineMap := M, scratch := S, lineAttrs := A } (lengthM.trans hmap)
    (lengthS.trans hmap) (bottom + 1 - n) y n (by simp; omega)
    (by simp; omega)
  rw [show bottom + 1 - n + n = bottom + 1 by omega] at loaded
  simp only [blockS] at loaded
  have block : (M.take (bottom + 1 - n)).length = bottom + 1 - n := by
    simp only [List.length_take]
    omega
  have hole : (M.take (bottom + 1 - n)).length + ((self.lineMap.drop y).take n).length =
      bottom + 1 := by
    simp only [List.length_take, List.length_drop]
    omega
  have permuted : (M.take (bottom + 1 - n) ++ (self.lineMap.drop y).take n ++
      M.drop (bottom + 1)).Perm self.lineMap := by
    rw [rotated]
    exact Segment.on_perm _ _ _ _ (Segment.firstToBack_perm n) (by omega)
  have finalWf := wf.setSlots permuted (lengthA.trans hattrs) (lengthS.trans hmap)
  refine ⟨_, ?_, finalWf, rfl, rfl, ?_, ?_⟩
  · rw [saved, ← hcount]
    simp only [Option.bind_eq_bind, Option.bind_some]
    rw [moved]
    exact loaded
  · simp only [LineBuf.view, viewOf_take, viewOf_drop]
    rw [Segment.take_block block, takeM, takeA, viewOf_append]
    simp only [List.length_take]
    omega
  · simp only [LineBuf.view, viewOf_drop]
    rw [Segment.drop_block hole, dropM, dropA]

/-- `linebuf_delete_lines` removes `min num (bottom + 1 - y)` lines at `y` and appends blank
lines at the end of the segment. -/
theorem linebufDeleteLines_spec {self : LineBuf} (wf : self.WellFormed) (num : Nat)
    {y bottom : Nat} (h : y ≤ bottom) (hb : bottom < self.ynum) :
    ∃ lb, linebufDeleteLines self num y bottom = some lb ∧ lb.WellFormed ∧ lb.xnum = self.xnum ∧
      lb.ynum = self.ynum ∧
      lb.view = Segment.on y (bottom + 1) (Segment.closeGap num (blankLine self.xnum)) self.view := by
  by_cases hnum : num = 0
  · subst hnum
    refine ⟨self, ?_, wf, rfl, rfl, (Segment.on_closeGap_zero _ _ _ _ (by omega)).symm⟩
    simp [linebufDeleteLines]
  · obtain ⟨n, hn⟩ : ∃ n, n = min (bottom + 1 - y) num := ⟨_, rfl⟩
    have hview := wf.viewLength
    obtain ⟨moved, movedEq, movedWf, movedX, movedY, movedTake, movedDrop⟩ :=
      deleteLines_moved wf (y := y) (n := n) (by omega) hb
    obtain ⟨lb, blankEq, lbWf, lbX, lbY, lbView⟩ :=
      blankLines_spec movedWf (bottom + 1 - n) n (by omega)
    refine ⟨lb, ?_, lbWf, lbX.trans movedX, lbY.trans movedY, ?_⟩
    · have deleteEq : linebufDeleteLines self num y bottom =
          (do
            let lb ← forUp y n (fun i lb => LineBuf.saveScratch lb i) self
            let lb ← forUp y (min (bottom + 1) (self.ynum - n) - y)
              (fun i lb => lb.moveLine i (i + n)) lb
            forUp 0 n (fun i lb => lb.loadScratch (bottom + 1 - n + i) (y + i)) lb) >>=
          fun lb => forUp (bottom + 1 - n) n (fun i lb => lb.blankLine i) lb := by
        unfold linebufDeleteLines
        simp only [← hn]
        rw [if_neg (by omega)]
        simp only [bind_assoc]
      rw [deleteEq, movedEq]
      exact blankEq
    · rw [lbView, show bottom + 1 - n + n = bottom + 1 by omega, movedTake, movedDrop, movedX,
        List.append_assoc]
      exact (Segment.on_closeGap y (bottom + 1) num n _ _ (by omega) (by omega) hn).symm

end Smelly
