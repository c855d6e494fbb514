/-
Module: Smelly.Proofs.ScrollbackReflow
Purpose: What `historybuf_rewrap` leaves in a fresh ring, and exactly when that is the newest
  rows of the reflowed lines.
Trusted boundary: none
-/
import Smelly.Proofs.HistoryBufView
import Smelly.Proofs.RewrapWriter

namespace Smelly

open Checked Reflow RingBuffer

/-- The rows of a ring as text, oldest first. -/
def HistoryBuf.textRows (self : HistoryBuf) : List (List Cell × Bool) := self.rows.map rowText

/-! ### The source -/

/-- The rows of the source from row `y` on are those it had at the start. -/
structure ReadsRing (xnum count : Nat) (rows : List Row) (src : HistoryBuf) (y : Nat) : Prop where
  wellFormed : src.WellFormed
  xnumEq : src.xnum = xnum
  countEq : src.count = count
  later : ∀ y', y ≤ y' → y' < count → src.ring[y']? = rows[y']?

theorem historybuf_srcLaws {self : HistoryBuf} (wf : self.WellFormed) :
    SrcLaws historybufMacros self.xnum self.rows (ReadsRing self.xnum self.count self.rows) where
  positive := wf.xnumPositive
  lengths := fun _ hrow => wf.rowsRowLength hrow
  xnumEq := fun reads => reads.xnumEq
  next := fun reads =>
    ⟨reads.wellFormed, reads.xnumEq, reads.countEq, fun y' hy => reads.later y' (by omega)⟩
  init := by
    intro src y row reads hrow
    have inside : y < self.count := by
      rw [← wf.rowsLength]
      exact (List.getElem?_eq_some_iff.1 hrow).1
    exact historybufInitSlot_spec reads.wellFormed
      ((reads.later y (Nat.le_refl y) inside).trans hrow)
  clear := by
    intro src y row reads hrow
    have inside : y < self.count := by
      rw [← wf.rowsLength]
      exact (List.getElem?_eq_some_iff.1 hrow).1
    have rowLength : row.length = src.xnum :=
      (wf.rowsRowLength (List.mem_of_getElem? hrow)).trans reads.xnumEq.symm
    obtain ⟨row', markEq, length, -, -⟩ :=
      markRow_spec rowLength reads.wellFormed.xnumPositive false
    obtain ⟨src', clearEq, wf', shape, ring⟩ := onSlot_spec reads.wellFormed
      ((reads.later y (Nat.le_refl y) inside).trans hrow)
      (fun row => modifyAt row (src.xnum - 1) (·.setWrapped false)) markEq length
    refine ⟨src', clearEq, wf', shape.xnum.trans reads.xnumEq, shape.count.trans reads.countEq, ?_⟩
    intro y' hy hcount
    rw [ring, List.getElem?_set_ne (by omega)]
    exact reads.later y' (by omega) hcount

/-! ### The destination -/

/-- The ring holds the rows of the writer: the finished ones in `before`, each over what its slot
held, and the current one in the newest slot. -/
structure RingHolds (xnum ynum : Nat) (d : HistoryBufDest) (s : Writer Cell) (before : List Row)
    (current : Row) : Prop where
  wellFormed : d.dest.WellFormed
  xnumEq : d.dest.xnum = xnum
  ynumEq : d.dest.ynum = ynum
  slot : d.slot = (d.dest.startOfData + (d.dest.count - 1)) % d.dest.ynum
  ring : d.dest.ring = slotsOf ynum (blankRow xnum) (before ++ [current])
  count : d.dest.count = min (before.length + 1) ynum
  cells : before.map cellsText = layOver ynum (blankRow xnum) (s.finished.map Prod.fst)
  currentCells : cellsText current =
    s.current ++ (base ynum (blankRow xnum) (before.map cellsText)).drop s.current.length
  flags : before.map rowWrapped = s.finished.map Prod.snd

/-- Starting a line: its slot is the next one of the ring. -/
theorem pushLine_spec {xnum ynum : Nat} {dest : HistoryBuf} {laid : List Row}
    (wf : dest.WellFormed) (hxnum : dest.xnum = xnum) (hynum : dest.ynum = ynum)
    (ring : dest.ring = slotsOf ynum (blankRow xnum) laid) (count : dest.count = min laid.length ynum)
    (attrs : LineAttrs) :
    ∃ pushed hb, historybufPush dest = pushed ∧ pushed.1.setAttrs pushed.2 attrs = some hb ∧
      hb.WellFormed ∧ hb.xnum = xnum ∧ hb.ynum = ynum ∧
      pushed.2 = (hb.startOfData + (hb.count - 1)) % hb.ynum ∧
      hb.ring = slotsOf ynum (blankRow xnum) (laid ++ [base ynum (blankRow xnum) laid]) ∧
      hb.count = min (laid.length + 1) ynum := by
  obtain ⟨pushed, idx, pushEq, pushedWf, pushedX, pushedY, pushedCount, idxEq, pushedRing⟩ :=
    historybufPush_spec wf
  obtain ⟨hb, attrsEq, hbWf, shape, hbRing⟩ := setAttrs_spec pushedWf idx
    (by rw [idxEq]; exact pushedWf.slot_lt _) attrs
  have positive := wf.ynumPositive
  refine ⟨(pushed, idx), hb, pushEq, attrsEq, hbWf, shape.xnum.trans (pushedX.trans hxnum),
    shape.ynum.trans (pushedY.trans hynum), ?_, ?_, ?_⟩
  · rw [shape.start, shape.count, shape.ynum]
    exact idxEq
  · rw [hbRing, pushedRing, ring, count, hynum]
    by_cases full : ynum ≤ laid.length
    · rw [if_pos (by omega)]
      exact slotsOf_full (by omega) _ full
    · rw [if_neg (by omega)]
      exact slotsOf_room _ (by omega)
  · rw [shape.count, pushedCount, count, hynum]
    omega

theorem historybuf_destLaws {lines columns : Nat} (hlines : 0 < lines) (hcolumns : 0 < columns) :
    DestLaws historybufMacros columns { dest := blankHistorybuf lines columns }
      (fun d s => ∃ before current, RingHolds columns lines d s before current) where
  positive := hcolumns
  xnumEq := by
    rintro dest s ⟨before, current, holds⟩
    exact holds.xnumEq
  first := by
    intro attrs
    have wf := blankHistorybuf_wellFormed hlines hcolumns
    obtain ⟨pushed, hb, rfl, attrsEq, hbWf, hx, hy, slot, ring, count⟩ := pushLine_spec wf rfl rfl
      (blankHistorybuf_ring lines columns) (by simp [blankHistorybuf]) attrs
    refine ⟨{ dest := hb, slot := (historybufPush (blankHistorybuf lines columns)).2 }, attrs, ?_,
      [], base lines (blankRow columns) [], hbWf, hx, hy, slot, ring, count, rfl, ?_, rfl⟩
    · have skip : historyBufSetLastCharAsContinuation (blankHistorybuf lines columns) 0 false =
          some (blankHistorybuf lines columns) := if_neg (Nat.lt_irrefl 0)
      change HistoryBufDest.nextLine _ false attrs = _
      simp only [HistoryBufDest.nextLine, skip, Option.bind_eq_bind, Option.bind_some, attrsEq]
    · simp [base, hlines, cellsText_blankRow]
  next := by
    rintro dest s continued attrs ⟨before, current, holds⟩ fits -
    have wf := holds.wellFormed
    have countPos : 0 < dest.dest.count := by
      have := holds.count
      omega
    have newest := slotsOf_newest hlines (blankRow columns) before current
    rw [← holds.ring, ← holds.count] at newest
    obtain ⟨marked, markEq, markedLength, markedText, markedFlag⟩ := markRow_spec
      (wf.ringRowLength (List.mem_of_getElem? newest)) wf.xnumPositive continued
    obtain ⟨set, setEq, setWf, shape, setRing⟩ := onSlot_spec wf newest
      (fun row => modifyAt row (dest.dest.xnum - 1) (·.setWrapped continued)) markEq markedLength
    rw [holds.ring, holds.count, slotsOf_set_newest hlines] at setRing
    obtain ⟨pushed, hb, rfl, attrsEq, hbWf, hx, hy, slot, ring, count⟩ := pushLine_spec setWf
      (shape.xnum.trans holds.xnumEq) (shape.ynum.trans holds.ynumEq) setRing
      (by rw [shape.count, holds.count, List.length_append, List.length_singleton]) attrs
    have texts : (before ++ [marked]).map cellsText =
        layOver lines (blankRow columns) ((s.breakRow continued).finished.map Prod.fst) := by
      rw [List.map_append, List.map_singleton, markedText, holds.currentCells, holds.cells]
      simp only [Writer.breakRow, List.map_append, List.map_cons, List.map_nil]
      rw [layOver_concat]
    refine ⟨{ dest := hb, slot := (historybufPush set).2 }, attrs, ?_, before ++ [marked],
      base lines (blankRow columns) (before ++ [marked]), hbWf, hx, hy, slot, ring, count, texts,
      ?_, ?_⟩
    · have here : indexOf dest.dest 0 =
          (dest.dest.startOfData + (dest.dest.count - 1)) % dest.dest.ynum := by
        rw [indexOf, if_neg (by omega), Nat.min_zero, Nat.sub_zero]
      change HistoryBufDest.nextLine dest continued attrs = _
      unfold HistoryBufDest.nextLine historyBufSetLastCharAsContinuation
      rw [if_pos countPos, here, setEq]
      simp only [Option.bind_eq_bind, Option.bind_some, attrsEq]
    · have moved := base_map lines cellsText (blankRow columns) (before ++ [marked])
      rw [cellsText_blankRow] at moved
      exact moved.symm
    · rw [List.map_append, holds.flags]
      simp [Writer.breakRow, markedFlag]
  copy := by
    rintro dest s cells srcAt num ⟨before, current, holds⟩ hsrc hdest
    have wf := holds.wellFormed
    have newest := slotsOf_newest hlines (blankRow columns) before current
    rw [← holds.ring, ← holds.count] at newest
    obtain ⟨row', copyEq, length, text⟩ := copyRange_spec holds.currentCells hsrc (by
      rw [wf.ringRowLength (List.mem_of_getElem? newest), holds.xnumEq]
      exact hdest)
    obtain ⟨hb, setEq, hbWf, shape, ring⟩ := onSlot_spec wf newest
      (fun row => copyRange cells srcAt row s.current.length num) copyEq length
    rw [holds.ring, holds.count, slotsOf_set_newest hlines] at ring
    refine ⟨{ dest with dest := hb }, ?_, before, row', hbWf, shape.xnum.trans holds.xnumEq,
      shape.ynum.trans holds.ynumEq, ?_, ring, shape.count.trans holds.count, holds.cells, ?_,
      holds.flags⟩
    · change (dest.dest.onSlot dest.slot _ >>= _) = _
      rw [holds.slot, setEq]
      rfl
    · rw [shape.start, shape.count, shape.ynum]
      exact holds.slot
    · rw [text, List.drop_drop]
      simp only [Writer.extend, List.length_append, List.length_take, List.length_drop,
        cellsText_length, show min num (cells.length - srcAt) = num by omega]

/-! ### The reflowed ring -/

/-- The ring shows the newest rows of the source's lines wrapped at its own width.  Blanks at the
ends of lines do not count, and the last row ends its line. -/
def ShowsReflow (self out : HistoryBuf) : Prop :=
  (closeLast out.textRows).map (trimRow isBlankCell) =
    let wrapped := wrapLines out.xnum (hardLines isBlankCell self.textRows)
    (wrapped.map (trimRow isBlankCell)).drop (wrapped.length - out.ynum)

instance (self out : HistoryBuf) : Decidable (ShowsReflow self out) := by
  unfold ShowsReflow
  infer_instance

/-- A ring of the same size is copied as it is, so no blank row may continue a wrapped one.  In
any other ring no character of an older row may stand behind what a newer row writes into its
slot. -/
def CleanReflow (self : HistoryBuf) (lines columns : Nat) : Prop :=
  if columns = self.xnum ∧ lines = self.ynum then NoBlankTail isBlankCell self.textRows
  else CleanSlots isBlankCell lines
    ((writeRows columns isBlankCell self.textRows {}).rows.map Prod.fst)

/-- Marking lines dirty changes no cell. -/
theorem markDirty_loop {self : HistoryBuf} (wf : self.WellFormed) (n : Nat) :
    ∃ hb, forUp 0 n (fun i hb => hb.markDirty i) self = some hb ∧ hb.WellFormed ∧
      self.SameShape hb ∧ hb.cells = self.cells := by
  have round : ∀ i (hb : HistoryBuf), 0 ≤ i → i < 0 + n →
      (hb.WellFormed ∧ self.SameShape hb ∧ hb.cells = self.cells) →
      ∃ hb', hb.markDirty i = some hb' ∧
        hb'.WellFormed ∧ self.SameShape hb' ∧ hb'.cells = self.cells := by
    rintro i hb - - ⟨hbWf, shape, cells⟩
    have inside : (hb.startOfData + i) % hb.ynum < hb.lineAttrs.length := by
      rw [hbWf.attrsLength]
      exact hbWf.slot_lt i
    obtain ⟨marked, markEq, length⟩ : ∃ marked, modifyAt hb.lineAttrs
        ((hb.startOfData + i) % hb.ynum) (fun attrs => { attrs with hasDirtyText := true }) =
          some marked ∧ marked.length = hb.lineAttrs.length :=
      ⟨_, modifyAt_of_lt inside _, List.length_set⟩
    refine ⟨{ hb with lineAttrs := marked }, ?_, hbWf.setLineAttrs length,
      shape.trans ⟨rfl, rfl, rfl, rfl⟩, cells⟩
    rw [HistoryBuf.markDirty, markEq]
    rfl
  exact forUp_invariant (fun _ hb => hb.WellFormed ∧ self.SameShape hb ∧ hb.cells = self.cells)
    ⟨wf, ⟨rfl, rfl, rfl, rfl⟩, rfl⟩ round

/-- The rows that the reflow loop leaves in a fresh ring: each as the writer wrote it, over what
its slot held. -/
theorem historybufRewrap_rows {self : HistoryBuf} (wf : self.WellFormed) {lines columns : Nat}
    (hlines : 0 < lines) (hcolumns : 0 < columns)
    (resized : ¬ (columns = self.xnum ∧ lines = self.ynum)) (hcount : 0 < self.count) :
    ∃ out before current,
      historybufRewrap self (blankHistorybuf lines columns) = some out ∧
      out.xnum = columns ∧ out.ynum = lines ∧
      out.rows = (before ++ [current]).drop (before.length + 1 - lines) ∧
      (before ++ [current]).map cellsText = layOver lines (blankRow columns)
        ((writeRows columns isBlankCell self.textRows {}).rows.map Prod.fst) ∧
      before.map rowWrapped =
        (writeRows columns isBlankCell self.textRows {}).finished.map Prod.snd := by
  have rowsLength : 0 < self.rows.length := by
    rw [wf.rowsLength]
    exact hcount
  obtain ⟨st, innerEq, before, current, holds⟩ := rewrapInner_spec (historybuf_srcLaws wf)
    (historybuf_destLaws hlines hcolumns) rowsLength
    (⟨wf, rfl, rfl, fun y' _ hy => (List.getElem?_take_of_lt hy).symm⟩ :
      ReadsRing self.xnum self.count self.rows self 0) []
  obtain ⟨out, markEq, outWf, shape, cells⟩ := markDirty_loop holds.wellFormed st.dest.dest.count
  refine ⟨out, before, current, ?_, shape.xnum.trans holds.xnumEq, shape.ynum.trans holds.ynumEq,
    ?_, ?_, holds.flags⟩
  · rw [wf.rowsLength] at innerEq
    refine (if_neg resized).trans ((if_pos hcount).trans ?_)
    exact (congrArg (· >>= _) innerEq).trans markEq
  · have ringEq : out.ring = st.dest.dest.ring := by
      rw [HistoryBuf.ring, HistoryBuf.ring, cells, shape.start]
    have kept := slotsOf_take lines (blankRow columns) (before ++ [current])
    rw [List.length_append, List.length_singleton] at kept
    rw [HistoryBuf.rows, ringEq, shape.count, holds.ring, holds.count, kept]
  · rw [List.map_append, List.map_singleton, holds.currentCells, holds.cells, Writer.rows,
      List.map_append, List.map_singleton, layOver_concat]
    rfl

/-- The last row ends its line, whatever was dropped in front of it. -/
theorem closeLast_drop {α : Type} (rows : List (List α × Bool)) (row : List α × Bool) (n : Nat)
    (h : n ≤ rows.length) :
    closeLast ((rows ++ [row]).drop n) = (rows ++ [(row.1, false)]).drop n := by
  have concat : ∀ rows : List (List α × Bool),
      closeLast (rows ++ [row]) = rows ++ [(row.1, false)] := by
    intro rows
    induction rows with
    | nil => rfl
    | cons first rest ih =>
      cases rest with
      | nil => rfl
      | cons next rest =>
        rw [List.cons_append, List.cons_append, closeLast, ← List.cons_append, ih]
        rfl
  rw [List.drop_append_of_le_length h, concat, List.drop_append_of_le_length h]

/-- Row by row: what is laid over an older row shows the wrapped row exactly when no character of
an older row stands behind it. -/
theorem laidRow_shows {columns lines : Nat} (hlines : 0 < lines) {s : Writer Cell}
    (fits : s.Fits columns) {k : Nat} {cells text laid : List Cell} {continued : Bool}
    (hrow : s.rows[k]? = some (cells, continued))
    (hlaid : (layOver lines (blankRow columns) (s.rows.map Prod.fst))[k]? = some laid)
    (pads : Pads isBlankCell (cells, continued) (text, continued)) :
    trimRow isBlankCell (laid, continued) = trimRow isBlankCell (text, continued) ↔
      ∀ j, cells.length ≤ j →
        ¬ Standing isBlankCell lines (s.rows.map Prod.fst) k j := by
  have hcells : (s.rows.map Prod.fst)[k]? = some cells := by
    rw [List.getElem?_map, hrow]
    rfl
  have fresh : ∀ cell ∈ blankRow columns, isBlankCell cell = true := by
    intro cell hcell
    rw [List.eq_of_mem_replicate hcell]
    rfl
  have short : ∀ row ∈ s.rows.map Prod.fst, row.length ≤ columns := by
    intro row hmem
    obtain ⟨whole, hwhole, rfl⟩ := List.mem_map.1 hmem
    rcases List.mem_append.1 hwhole with old | new
    · exact (fits.finished whole old).1
    · rw [List.mem_singleton.1 new]
      exact fits.current
  have laidEq := layOver_row lines (blankRow columns) hcells
  obtain rfl := Option.some.inj (hlaid.symm.trans laidEq)
  rw [← behind_blank_iff fresh hlines hcells]
  refine trimRow_append_iff isBlankCell pads fun wraps => ?_
  -- a row that goes on was written to its end
  have full : cells.length = columns := by
    rcases List.mem_append.1 (List.mem_of_getElem? hrow) with old | new
    · exact (fits.finished _ old).2 wraps
    · rw [List.mem_singleton, Prod.mk.injEq] at new
      rw [new.2] at wraps
      cases wraps
  have laidLength := layOver_full lines (by simp [blankRow]) short _
    (List.mem_of_getElem? hlaid)
  rw [List.length_append, full] at laidLength
  exact List.eq_nil_of_length_eq_zero (by rw [full]; omega)

theorem drop_eq_drop_iff {α : Type} (rows rows' : List α) (n : Nat) :
    rows.drop n = rows'.drop n ↔ ∀ k, n ≤ k → rows[k]? = rows'[k]? := by
  constructor
  · intro same k hk
    have here := congrArg (fun rows => rows[k - n]?) same
    simpa only [List.getElem?_drop, show n + (k - n) = k by omega] using here
  · intro same
    apply List.ext_getElem?
    intro i
    rw [List.getElem?_drop, List.getElem?_drop]
    exact same (n + i) (by omega)

/-- The newest rows of the ring are those of the wrapped lines exactly when the slots are clean. -/
theorem newestRows_iff {columns lines : Nat} (hlines : 0 < lines) {s : Writer Cell}
    (fits : s.Fits columns) {wrapped : List (List Cell × Bool)}
    (pads : List.Forall₂ (Pads isBlankCell) s.rows wrapped) :
    ((((layOver lines (blankRow columns) (s.rows.map Prod.fst)).zip (s.rows.map Prod.snd)).drop
          (wrapped.length - lines)).map (trimRow isBlankCell) =
        (wrapped.map (trimRow isBlankCell)).drop (wrapped.length - lines)) ↔
      CleanSlots isBlankCell lines (s.rows.map Prod.fst) := by
  obtain ⟨sameLength, padsAt⟩ := List.forall₂_iff_get.1 pads
  rw [List.map_drop, drop_eq_drop_iff]
  -- row `k` of both sides, for one of the newest rows
  have atRow : ∀ k cells continued, s.rows[k]? = some (cells, continued) →
      ((((layOver lines (blankRow columns) (s.rows.map Prod.fst)).zip (s.rows.map Prod.snd)).map
          (trimRow isBlankCell))[k]? = (wrapped.map (trimRow isBlankCell))[k]? ↔
        ∀ j, cells.length ≤ j →
          ¬ Standing isBlankCell lines (s.rows.map Prod.fst) k j) := by
    intro k cells continued hrow
    obtain ⟨hk, hget⟩ := List.getElem?_eq_some_iff.1 hrow
    have hk' : k < wrapped.length := sameLength ▸ hk
    have hlaid : k < (layOver lines (blankRow columns) (s.rows.map Prod.fst)).length := by
      simpa using hk
    have here := padsAt k hk hk'
    simp only [List.get_eq_getElem, hget] at here
    obtain ⟨text, flag⟩ : ∃ text, wrapped[k] = (text, continued) := by
      obtain ⟨extra, -, -, flagEq, -⟩ := here
      exact ⟨wrapped[k].1, Prod.ext rfl flagEq.symm⟩
    rw [flag] at here
    rw [← laidRow_shows hlines fits hrow (List.getElem?_eq_getElem hlaid) here]
    have left : ((layOver lines (blankRow columns) (s.rows.map Prod.fst)).zip
        (s.rows.map Prod.snd))[k]? =
          some ((layOver lines (blankRow columns) (s.rows.map Prod.fst))[k], continued) := by
      rw [List.getElem?_zip_eq_some]
      exact ⟨List.getElem?_eq_getElem hlaid, by rw [List.getElem?_map, hrow]; rfl⟩
    rw [List.getElem?_map, left, List.getElem?_map, List.getElem?_eq_getElem hk', flag]
    simp only [Option.map_some, Option.some.injEq]
  constructor
  · intro same k cells hcells newest
    rw [List.getElem?_map] at hcells
    obtain ⟨⟨cells', continued⟩, hrow, rfl⟩ := Option.map_eq_some_iff.1 hcells
    rw [List.length_map, sameLength] at newest
    exact (atRow k cells' continued hrow).1 (same k (by omega))
  · intro clean k newest
    rcases Nat.lt_or_ge k s.rows.length with hk | hk
    · have hrow : s.rows[k]? = some s.rows[k] := List.getElem?_eq_getElem hk
      refine (atRow k _ _ hrow).2 (clean k _ (by rw [List.getElem?_map, hrow]; rfl) ?_)
      rw [List.length_map, sameLength]
      omega
    · rw [List.getElem?_eq_none (by simpa using hk),
        List.getElem?_eq_none (by simpa [← sameLength] using hk)]

theorem rowText_zip (rows : List Row) :
    rows.map rowText = (rows.map cellsText).zip (rows.map rowWrapped) := by
  rw [List.zip_map']
  rfl

/-- A ring of the same size is copied row for row. -/
theorem historybufRewrap_same {self : HistoryBuf} (wf : self.WellFormed) :
    ∃ out, historybufRewrap self (blankHistorybuf self.ynum self.xnum) = some out ∧
      (ShowsReflow self out ↔ NoBlankTail isBlankCell self.textRows) := by
  refine ⟨self, if_pos ⟨rfl, rfl⟩, ?_⟩
  have rowsLength : ∀ row ∈ self.textRows, row.1.length = self.xnum := by
    intro row hrow
    obtain ⟨r, hr, rfl⟩ := List.mem_map.1 hrow
    exact (cellsText_length r).trans (wf.rowsRowLength hr)
  have textLength : self.textRows.length ≤ self.ynum := by
    rw [HistoryBuf.textRows, List.length_map, wf.rowsLength]
    exact wf.countLe
  obtain ⟨le, lt⟩ := wrapLines_length_le isBlankCell wf.xnumPositive rowsLength
  have all : (wrapLines self.xnum (hardLines isBlankCell self.textRows)).length - self.ynum = 0 := by
    omega
  unfold ShowsReflow
  dsimp only
  rw [all, List.drop_zero]
  constructor
  · intro same
    by_contra tail
    have lengths := congrArg List.length same
    rw [List.length_map, List.length_map, closeLast_length] at lengths
    have := lt tail
    omega
  · intro chain
    rw [wrapLines_same_width isBlankCell wf.xnumPositive rowsLength chain, map_trimRow_closeLast]

/-- After a reflow to another size, the ring shows the newest rows of the wrapped lines exactly
when its slots are clean. -/
theorem historybufRewrap_resized {self : HistoryBuf} (wf : self.WellFormed) {lines columns : Nat}
    (hlines : 0 < lines) (hcolumns : 0 < columns)
    (resized : ¬ (columns = self.xnum ∧ lines = self.ynum)) (hcount : 0 < self.count) :
    ∃ out, historybufRewrap self (blankHistorybuf lines columns) = some out ∧
      (ShowsReflow self out ↔ CleanSlots isBlankCell lines
        ((writeRows columns isBlankCell self.textRows {}).rows.map Prod.fst)) := by
  obtain ⟨out, before, current, runEq, hx, hy, rows, cells, flags⟩ :=
    historybufRewrap_rows wf hlines hcolumns resized hcount
  refine ⟨out, runEq, ?_⟩
  have nonempty : self.textRows ≠ [] := by
    apply List.ne_nil_of_length_pos
    rw [HistoryBuf.textRows, List.length_map, wf.rowsLength]
    exact hcount
  have fits : (writeRows columns isBlankCell self.textRows {}).Fits columns :=
    (Writer.Fits.empty columns).writeRows hcolumns self.textRows
  have pads := writeRows_pads columns isBlankCell nonempty
  generalize writeRows columns isBlankCell self.textRows {} = s at *
  have sameLength := pads.length_eq
  have beforeLength : before.length = s.finished.length := by
    have := congrArg List.length flags
    simpa using this
  have wrappedLength :
      (wrapLines columns (hardLines isBlankCell self.textRows)).length = before.length + 1 := by
    rw [← sameLength, Writer.rows, List.length_append, List.length_singleton, beforeLength]
  have texts : closeLast out.textRows =
      ((layOver lines (blankRow columns) (s.rows.map Prod.fst)).zip (s.rows.map Prod.snd)).drop
        (before.length + 1 - lines) := by
    have whole : (layOver lines (blankRow columns) (s.rows.map Prod.fst)).zip
        (s.rows.map Prod.snd) = before.map rowText ++ [(cellsText current, false)] := by
      rw [← cells, Writer.rows, List.map_append, List.map_append, ← flags,
        List.zip_append (by simp), rowText_zip]
      rfl
    rw [whole, HistoryBuf.textRows, rows, List.map_drop, List.map_append, List.map_singleton,
      closeLast_drop _ _ _ (by rw [List.length_map]; omega)]
    rfl
  rw [ShowsReflow, hx, hy]
  dsimp only
  rw [texts, ← wrappedLength]
  exact newestRows_iff hlines fits pads

/-- `historybuf_rewrap` into a fresh ring of any size always succeeds, and it leaves the newest
rows of the reflowed lines exactly when the reflow is clean. -/
theorem historybufRewrap_iff {self : HistoryBuf} (wf : self.WellFormed) {lines columns : Nat}
    (hlines : 0 < lines) (hcolumns : 0 < columns) :
    ∃ out, historybufRewrap self (blankHistorybuf lines columns) = some out ∧
      (ShowsReflow self out ↔ CleanReflow self lines columns) := by
  unfold CleanReflow
  split
  · rename_i same
    obtain ⟨rfl, rfl⟩ := same
    exact historybufRewrap_same wf
  · rename_i resized
    rcases Nat.eq_zero_or_pos self.count with empty | content
    · -- nothing is written into an empty ring
      have noRows : self.textRows = [] := by
        rw [HistoryBuf.textRows, List.eq_nil_of_length_eq_zero (wf.rowsLength.trans empty)]
        rfl
      have noRows' : (blankHistorybuf lines columns).textRows = [] := by
        simp [HistoryBuf.textRows, HistoryBuf.rows, blankHistorybuf]
      refine ⟨blankHistorybuf lines columns, (if_neg resized).trans (if_neg (by omega)), ?_⟩
      refine iff_of_true ?_ ?_
      · simp [ShowsReflow, noRows, noRows', closeLast, wrapLines]
      · rintro k cells - - j - ⟨i, -, -, ⟨cells', cell, hcells', hcell, -⟩, -⟩
        have written : cells' ∈ [([] : List Cell)] := by
          have := List.mem_of_getElem? hcells'
          simpa [noRows, writeRows, Writer.rows] using this
        rw [List.mem_singleton.1 written] at hcell
        simp at hcell
    · exact historybufRewrap_resized wf hlines hcolumns resized content

/-- A cell that shows the character `ch`. -/
def textCell (ch : UInt32) : Cell := { cpu := { ch := ch }, gpu := { attrs := { width := 1 } } }

/-- A ring of two lines of four columns with the line `abcd` in it. -/
def fourLetters : HistoryBuf :=
  { xnum := 4
    ynum := 2
    cells := [[textCell 97, textCell 98, textCell 99, textCell 100], blankRow 4]
    lineAttrs := [{}, {}]
    count := 1 }

theorem fourLetters_wellFormed : fourLetters.WellFormed where
  xnumPositive := by decide
  ynumPositive := by decide
  cellsLength := rfl
  rowLength := by decide
  attrsLength := rfl
  startLt := by decide
  countLe := by decide

/-- Reflowed into three columns and two lines, `abcd` becomes `abc` and `d`. -/
theorem historybufRewrap_fourLetters :
    ∃ out, historybufRewrap fourLetters (blankHistorybuf 2 3) = some out ∧
      (ShowsReflow fourLetters out ↔ CleanReflow fourLetters 2 3) :=
  historybufRewrap_iff fourLetters_wellFormed (by decide) (by decide)

/-- Reflowed into three columns and one line, the last row `d` of `abcd` is written over `abc` and
the ring shows `dbc`. -/
theorem historybufRewrap_leavesCells :
    ∃ out, historybufRewrap fourLetters (blankHistorybuf 1 3) = some out ∧
      out.rows.map (List.map Cell.ch) = [[100, 98, 99]] ∧ ¬ ShowsReflow fourLetters out :=
  ⟨_, rfl, by decide, by decide⟩

end Smelly
