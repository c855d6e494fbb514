/-
Module: Smelly.Proofs.RewrapWriter
Purpose: `rewrap_inner` for any pair of buffers whose macros keep their promises: the copying
  loop never leaves a line, terminates, and writes the rows of the source as the row writer of
  `Reflow` does.
Trusted boundary: none
-/
import Smelly.Core.Rewrap
import Smelly.Lib.Reflow

namespace Smelly

open Checked Reflow

/-- A cell without a character. -/
def isBlankCell (cell : Cell) : Bool := cell.ch == blankChar

/-- The cells of a row, apart from the marks that say where it was wrapped. -/
def cellsText (row : Row) : List Cell := row.map (·.setWrapped false)

/-- Whether the last cell of a row carries the wrap mark. -/
def rowWrapped (row : Row) : Bool :=
  match row.getLast? with
  | some cell => cell.gpu.attrs.nextCharWasWrapped
  | none => false

/-- A row as text: its cells, and whether its line goes on in the next row. -/
def rowText (row : Row) : List Cell × Bool := (cellsText row, rowWrapped row)

@[simp] theorem cellsText_length (row : Row) : (cellsText row).length = row.length := by
  simp [cellsText]

theorem cellsText_append (first second : Row) :
    cellsText (first ++ second) = cellsText first ++ cellsText second := List.map_append

theorem cellsText_take (row : Row) (n : Nat) : cellsText (row.take n) = (cellsText row).take n :=
  List.map_take

theorem cellsText_drop (row : Row) (n : Nat) : cellsText (row.drop n) = (cellsText row).drop n :=
  List.map_drop

/-- Setting a wrap mark does not change the text. -/
theorem cellsText_set (row : Row) {i : Nat} {cell : Cell} (h : row[i]? = some cell)
    (wrapped : Bool) : cellsText (row.set i (cell.setWrapped wrapped)) = cellsText row := by
  obtain ⟨hi, rfl⟩ := List.getElem?_eq_some_iff.1 h
  apply List.ext_getElem?
  intro j
  simp only [cellsText, List.getElem?_map, List.getElem?_set]
  by_cases same : i = j
  · subst same
    simp [hi]
  · simp [same]

theorem rowWrapped_of_last {row : Row} {cell : Cell} (h : row[row.length - 1]? = some cell) :
    rowWrapped row = cell.gpu.attrs.nextCharWasWrapped := by
  rw [rowWrapped, List.getLast?_eq_getElem?, h]

/-- Marking the last cell of a row. -/
theorem markRow_spec {row : Row} {xnum : Nat} (hlength : row.length = xnum) (hxnum : 0 < xnum)
    (wrapped : Bool) :
    ∃ row', modifyAt row (xnum - 1) (·.setWrapped wrapped) = some row' ∧
      row'.length = row.length ∧ cellsText row' = cellsText row ∧ rowWrapped row' = wrapped := by
  have last : xnum - 1 < row.length := by omega
  refine ⟨row.set (xnum - 1) (row[xnum - 1].setWrapped wrapped), modifyAt_of_lt last _,
    List.length_set, cellsText_set row (List.getElem?_eq_getElem last) wrapped, ?_⟩
  have marked : (row.set (xnum - 1) (row[xnum - 1].setWrapped wrapped))[
      (row.set (xnum - 1) (row[xnum - 1].setWrapped wrapped)).length - 1]? =
        some (row[xnum - 1].setWrapped wrapped) := by
    rw [List.length_set, hlength]
    exact List.getElem?_set_self last
  exact rowWrapped_of_last marked

/-- Copying a range behind the text of a row. -/
theorem copyRange_spec {cells row : Row} {srcAt num : Nat} {text : List Cell} {behind : List Cell}
    (hrow : cellsText row = text ++ behind) (hsrc : srcAt + num ≤ cells.length)
    (hdest : text.length + num ≤ row.length) :
    ∃ row', copyRange cells srcAt row text.length num = some row' ∧ row'.length = row.length ∧
      cellsText row' =
        text ++ ((cellsText cells).drop srcAt).take num ++ behind.drop num := by
  refine ⟨_, if_pos ⟨hsrc, hdest⟩, ?_, ?_⟩
  · simp only [List.length_append, List.length_take, List.length_drop]
    omega
  · have rest : (text ++ behind).drop (text.length + num) = behind.drop num := by
      rw [List.drop_append, List.drop_eq_nil_of_le (by omega), List.nil_append,
        Nat.add_sub_cancel_left]
    rw [cellsText_append, cellsText_append, cellsText_take, cellsText_take, cellsText_drop,
      cellsText_drop, hrow, List.take_left, rest]

theorem cellsText_blankRow (xnum : Nat) : cellsText (blankRow xnum) = blankRow xnum := by
  simp [cellsText, blankRow, Cell.setWrapped]

/-! ### The laws of the macros -/

variable {Src Dest : Type}

/-- The source shows `rows`: from line `y` on they are as they were when the reflow began. -/
structure SrcLaws (m : RewrapMacros Src Dest) (xnum : Nat) (rows : List Row)
    (Reads : Src → Nat → Prop) : Prop where
  positive : 0 < xnum
  lengths : ∀ row ∈ rows, row.length = xnum
  xnumEq : ∀ {src y}, Reads src y → m.srcXnum src = xnum
  next : ∀ {src y}, Reads src y → Reads src (y + 1)
  init : ∀ {src y} {row : Row}, Reads src y → rows[y]? = some row →
    ∃ attrs, m.initSrcLine src y = some { cells := row, attrs := attrs }
  clear : ∀ {src y} {row : Row}, Reads src y → rows[y]? = some row →
    ∃ src', m.clearSrcWrapped src y = some src' ∧ Reads src' (y + 1)

/-- The destination holds what a row writer has written. -/
structure DestLaws (m : RewrapMacros Src Dest) (width : Nat) (start : Dest)
    (Holds : Dest → Writer Cell → Prop) : Prop where
  positive : 0 < width
  xnumEq : ∀ {dest s}, Holds dest s → m.destXnum dest = width
  first : ∀ attrs, ∃ dest attrs', m.firstDestLine start attrs = some (dest, attrs') ∧
    Holds dest {}
  next : ∀ {dest s} (continued : Bool) (attrs : LineAttrs), Holds dest s → s.Fits width →
    (continued = true → s.current.length = width) →
    ∃ dest' attrs', m.nextDestLine dest continued attrs = some (dest', attrs') ∧
      Holds dest' (s.breakRow continued)
  copy : ∀ {dest s} (cells : Row) (srcAt num : Nat), Holds dest s →
    srcAt + num ≤ cells.length → s.current.length + num ≤ width →
    ∃ dest', m.onDestLine dest (fun row => copyRange cells srcAt row s.current.length num) =
        some dest' ∧
      Holds dest' (s.extend (((cellsText cells).drop srcAt).take num))

variable {m : RewrapMacros Src Dest} {xnum width : Nat} {rows : List Row}
  {Reads : Src → Nat → Prop} {start : Dest} {Holds : Dest → Writer Cell → Prop}

/-- The writer a destination holds, and `dest_x` at its current row. -/
structure WritesTo (Holds : Dest → Writer Cell → Prop) (width : Nat) (st : RewrapState Src Dest)
    (s : Writer Cell) : Prop where
  holds : Holds st.dest s
  destX : st.destX = s.current.length
  fits : s.Fits width

/-- What the copying loop leaves alone. -/
structure SameSource (st st' : RewrapState Src Dest) : Prop where
  src : st'.src = st.src
  cells : st'.srcLine.cells = st.srcLine.cells
  first : st'.isFirstLine = st.isFirstLine

theorem startLine_spec (laws : DestLaws m width start Holds) {st : RewrapState Src Dest}
    {s : Writer Cell} (writes : WritesTo Holds width st s) (continued : Bool)
    (full : continued = true → s.current.length = width) :
    ∃ st', m.startLine st continued = some st' ∧ SameSource st st' ∧
      WritesTo Holds width st' (s.breakRow continued) := by
  obtain ⟨dest, attrs, nextEq, holds⟩ :=
    laws.next continued st.srcLine.attrs writes.holds writes.fits full
  refine ⟨{ st with dest := dest, destX := 0, srcLine := { st.srcLine with attrs := attrs } }, ?_,
    ⟨rfl, rfl, rfl⟩, ⟨holds, rfl, writes.fits.breakRow full⟩⟩
  simp [RewrapMacros.startLine, nextEq]

/-- Before a block is copied there is room in the current row. -/
theorem wrapDest_spec (laws : DestLaws m width start Holds) {st : RewrapState Src Dest}
    {s : Writer Cell} (writes : WritesTo Holds width st s) :
    ∃ st' s', m.wrapDest st = some st' ∧ SameSource st st' ∧ WritesTo Holds width st' s' ∧
      s'.current.length < width ∧
      (s' = s ∨ width ≤ s.current.length ∧ s' = s.breakRow true) := by
  unfold RewrapMacros.wrapDest
  rw [laws.xnumEq writes.holds, writes.destX]
  split
  · rename_i full
    have exactly : s.current.length = width := Nat.le_antisymm writes.fits.current full
    obtain ⟨st', startEq, same, writes'⟩ := startLine_spec laws writes true
      (fun _ => exactly)
    exact ⟨st', _, startEq, same, writes', laws.positive, .inr ⟨full, rfl⟩⟩
  · rename_i room
    exact ⟨st, s, rfl, ⟨rfl, rfl, rfl⟩, writes, by omega, .inl rfl⟩

/-- The copying loop ends and writes the cells from `srcX` up to the limit. -/
theorem copyCells_spec (laws : DestLaws m width start Holds) {limit : Nat} (hlimit : limit ≤ xnum)
    (fuel srcX : Nat) (hfuel : limit ≤ srcX + fuel) {st : RewrapState Src Dest} {s : Writer Cell}
    (hxnum : m.srcXnum st.src = xnum) (hcells : st.srcLine.cells.length = xnum)
    (writes : WritesTo Holds width st s) :
    ∃ st', m.copyCells limit fuel srcX st = some st' ∧ SameSource st st' ∧
      WritesTo Holds width st'
        (if srcX < limit then
          writeUpTo width s ((cellsText st.srcLine.cells).drop srcX) (limit - srcX)
        else s) := by
  induction fuel generalizing srcX st s with
  | zero =>
    have done : ¬ srcX < limit := by omega
    exact ⟨st, by simp [RewrapMacros.copyCells, done], ⟨rfl, rfl, rfl⟩, by simpa [done] using writes⟩
  | succ fuel ih =>
    by_cases more : srcX < limit
    · obtain ⟨st1, s1, wrapEq, same1, writes1, room, s1Eq⟩ := wrapDest_spec laws writes
      have texts : writeUpTo width s ((cellsText st.srcLine.cells).drop srcX) (limit - srcX) =
          writeUpTo width s1 ((cellsText st.srcLine.cells).drop srcX) (limit - srcX) := by
        rcases s1Eq with rfl | ⟨full, rfl⟩
        · rfl
        · exact writeUpTo_full s laws.positive full (by omega) (by simp [hcells]; omega)
      obtain ⟨num, hnum⟩ : ∃ num, num = min (xnum - srcX) (width - s1.current.length) := ⟨_, rfl⟩
      obtain ⟨dest, copyEq, holds⟩ := laws.copy st.srcLine.cells srcX num
        writes1.holds (by omega) (by omega)
      have block := writeUpTo_block s1 ((cellsText st.srcLine.cells).drop srcX) (limit - srcX)
        room (by omega) (by simp [hcells]; omega) (n := num) (by simpa [hcells] using hnum)
      have writes2 : WritesTo Holds width
          { st1 with
            dest := dest
            destX := st1.destX + num
            track := st1.track.map
              (TrackCursor.follow srcX num st1.destX (m.destY st1.dest)) }
          (s1.extend (((cellsText st.srcLine.cells).drop srcX).take num)) :=
        ⟨holds, by
          simp only [Writer.extend, List.length_append, List.length_take, List.length_drop,
            cellsText_length, hcells, writes1.destX]
          omega, writes1.fits.extend (by
          simp only [List.length_take, List.length_drop, cellsText_length, hcells]
          omega)⟩
      obtain ⟨st', loopEq, same', writes'⟩ := ih (srcX + num) (by omega)
        (by simpa [same1.src] using hxnum) (by simpa [same1.cells] using hcells) writes2
      refine ⟨st', ?_, ?_, ?_⟩
      · rw [RewrapMacros.copyCells, if_pos more, wrapEq]
        simp only [Option.bind_eq_bind, Option.bind_some]
        rw [same1.src, hxnum, laws.xnumEq writes1.holds, writes1.destX, ← hnum, same1.cells,
          copyEq]
        simpa [writes1.destX, same1.src] using loopEq
      · exact ⟨same'.src.trans same1.src, same'.cells.trans same1.cells,
          same'.first.trans same1.first⟩
      · rw [if_pos more, texts, block]
        simp only [same1.cells, List.drop_drop] at writes' ⊢
        rw [show limit - srcX - num = limit - (srcX + num) by omega]
        by_cases again : srcX + num < limit
        · rw [if_pos (by omega)]
          rwa [if_pos again] at writes'
        · rw [if_neg (by omega)]
          rwa [if_neg again] at writes'
    · exact ⟨st, by simp [RewrapMacros.copyCells, more], ⟨rfl, rfl, rfl⟩,
        by simpa [more] using writes⟩

/-! ### One source row -/

/-- The text limit of a row is found from its end. -/
theorem trimmedLimit_spec (row : Row) (limit : Nat) (h : limit ≤ row.length) :
    trimmedLimit row limit =
      some (((cellsText row).take limit).rdropWhile isBlankCell).length := by
  induction limit with
  | zero => simp [trimmedLimit]
  | succ limit ih =>
    have hlt : limit < row.length := h
    have hget : (cellsText row)[limit]? = some (row[limit].setWrapped false) := by
      simp [cellsText, List.getElem?_eq_getElem hlt]
    rw [trimmedLimit, List.getElem?_eq_getElem hlt, Option.bind_eq_bind, Option.bind_some,
      List.take_add_one, hget, Option.toList_some]
    by_cases blank : row[limit].ch = blankChar
    · rw [if_pos blank, List.rdropWhile_concat_pos _ _ _ (by simpa [isBlankCell] using blank)]
      exact ih (by omega)
    · rw [if_neg blank, List.rdropWhile_concat_neg _ _ _ (by simpa [isBlankCell] using blank)]
      simp only [List.length_append, List.length_take, cellsText_length, List.length_singleton,
        Option.some.injEq]
      omega

theorem openSrcLine_spec (src : SrcLaws m xnum rows Reads) (st : RewrapState Src Dest) {y : Nat}
    {row : Row} (reads : Reads st.src y) (hrow : rows[y]? = some row) :
    ∃ st', m.openSrcLine st y =
        some (st', rowWrapped row, rowLimit isBlankCell (rowText row)) ∧
      Reads st'.src (y + 1) ∧ st'.srcLine.cells.length = xnum ∧
      cellsText st'.srcLine.cells = cellsText row ∧ st'.dest = st.dest ∧
      st'.destX = st.destX ∧ st'.isFirstLine = st.isFirstLine := by
  have length : row.length = xnum := src.lengths row (List.mem_of_getElem? hrow)
  have positive := src.positive
  obtain ⟨attrs, initEq⟩ := src.init reads hrow
  obtain ⟨last, lastEq⟩ : ∃ last, row[xnum - 1]? = some last :=
    ⟨_, List.getElem?_eq_getElem (by omega)⟩
  have wrapped : rowWrapped row = last.gpu.attrs.nextCharWasWrapped :=
    rowWrapped_of_last (by rw [length, lastEq])
  unfold RewrapMacros.openSrcLine
  simp only [initEq, src.xnumEq reads, lastEq, Option.bind_eq_bind, Option.bind_some, ← wrapped]
  cases flag : rowWrapped row with
  | true =>
    obtain ⟨src', clearEq, reads'⟩ := src.clear reads hrow
    refine ⟨{ st with
        src := src'
        srcLine := { cells := row.set (xnum - 1) (last.setWrapped false), attrs := attrs } },
      ?_, reads', by simpa using length, cellsText_set row lastEq false, rfl, rfl, rfl⟩
    have inside : xnum - 1 < row.length := by omega
    simp [clearEq, setAt_of_lt inside, length, rowLimit, rowText, trimRow, flag]
  | false =>
    refine ⟨{ st with srcLine := { cells := row, attrs := attrs } }, ?_, src.next reads, length,
      rfl, rfl, rfl, rfl⟩
    have limit := trimmedLimit_spec row xnum length.ge
    rw [List.take_of_length_le (by simp [length])] at limit
    simp [limit, rowLimit, rowText, trimRow, flag]

/-- Where the outer loop stands before source row `y`: what is still to be written completes what
the writer of all rows writes. -/
structure Progress (Reads : Src → Nat → Prop) (Holds : Dest → Writer Cell → Prop) (width : Nat)
    (rows : List Row) (start : Dest) (y : Nat) (st : RewrapState Src Dest) (s : Writer Cell) :
    Prop where
  reads : Reads st.src y
  dest : if st.isFirstLine then st.dest = start ∧ st.destX = 0 ∧ s = {}
    else WritesTo Holds width st s
  rest : writeRows width isBlankCell ((rows.map rowText).drop y) s =
    writeRows width isBlankCell (rows.map rowText) {}

/-- The first source row opens the first destination row. -/
theorem startDest_spec (laws : DestLaws m width start Holds) (st : RewrapState Src Dest)
    {s : Writer Cell}
    (dest : if st.isFirstLine then st.dest = start ∧ st.destX = 0 ∧ s = {}
      else WritesTo Holds width st s) :
    ∃ st', m.startDest st = some st' ∧ st'.src = st.src ∧
      st'.srcLine.cells = st.srcLine.cells ∧ st'.isFirstLine = false ∧
      WritesTo Holds width st' s := by
  unfold RewrapMacros.startDest
  cases first : st.isFirstLine with
  | true =>
    rw [first, if_pos rfl] at dest
    obtain ⟨destEq, destX, rfl⟩ := dest
    obtain ⟨dest', attrs', firstEq, holds⟩ := laws.first st.srcLine.attrs
    refine ⟨{ st with
        dest := dest'
        srcLine := { st.srcLine with attrs := attrs' }
        isFirstLine := false }, ?_, rfl, rfl, rfl, ⟨holds, destX, Writer.Fits.empty width⟩⟩
    simp [destEq, firstEq]
  | false =>
    rw [first, if_neg (by simp)] at dest
    exact ⟨st, by simp, rfl, rfl, first, dest⟩

theorem rewrapLine_spec (src : SrcLaws m xnum rows Reads) (laws : DestLaws m width start Holds)
    {y : Nat} (hy : y < rows.length) {st : RewrapState Src Dest} {s : Writer Cell}
    (progress : Progress Reads Holds width rows start y st s) :
    ∃ st' s', m.rewrapLine rows.length y st = some st' ∧ st'.isFirstLine = false ∧
      Progress Reads Holds width rows start (y + 1) st' s' := by
  obtain ⟨row, hrow⟩ : ∃ row, rows[y]? = some row := ⟨_, List.getElem?_eq_getElem hy⟩
  obtain ⟨st1, openEq, reads1, length1, cells1, dest1, destX1, first1⟩ :=
    openSrcLine_spec src
      { st with track := st.track.map fun t => { t with isTrackedLine := y = t.y } }
      progress.reads hrow
  have dest : if st1.isFirstLine then st1.dest = start ∧ st1.destX = 0 ∧ s = {}
      else WritesTo Holds width { st1 with
        track := st1.track.map (TrackCursor.clamp (rowLimit isBlankCell (rowText row))) } s := by
    have here := progress.dest
    simp only [dest1, destX1, first1]
    split
    · rwa [if_pos ‹_›] at here
    · rw [if_neg ‹_›] at here
      exact ⟨here.holds, here.destX, here.fits⟩
  obtain ⟨st2, startEq, src2, cells2, first2, writes2⟩ := startDest_spec laws
    { st1 with track := st1.track.map (TrackCursor.clamp (rowLimit isBlankCell (rowText row))) }
    dest
  have limitLe : rowLimit isBlankCell (rowText row) ≤ xnum := by
    have := rowLimit_le isBlankCell (rowText row)
    rwa [show (rowText row).1 = cellsText row from rfl, cellsText_length,
      src.lengths row (List.mem_of_getElem? hrow)] at this
  obtain ⟨st3, copyEq, same3, writes3⟩ := copyCells_spec laws limitLe
    (rowLimit isBlankCell (rowText row)) 0 (by omega)
    ((congrArg _ src2).trans (src.xnumEq reads1)) ((congrArg _ cells2).trans length1) writes2
  have text : (if 0 < rowLimit isBlankCell (rowText row) then
      writeUpTo width s ((cellsText st2.srcLine.cells).drop 0)
        (rowLimit isBlankCell (rowText row) - 0)
      else s) = writeUpTo width s (rowText row).1 (rowLimit isBlankCell (rowText row)) := by
    rw [cells2, List.drop_zero, Nat.sub_zero, cells1]
    split
    · rfl
    · rename_i none
      have zero : rowLimit isBlankCell (rowText row) = 0 := by omega
      simp [writeUpTo, zero]
  rw [text] at writes3
  have reads3 : Reads st3.src (y + 1) := by
    rw [same3.src, src2]
    exact reads1
  have rest : writeRows width isBlankCell ((rows.map rowText).drop y) s =
      writeRows width isBlankCell ((rows.map rowText).drop (y + 1))
        (if rowWrapped row = false ∧ (rows.map rowText).drop (y + 1) ≠ [] then
          (writeUpTo width s (rowText row).1 (rowLimit isBlankCell (rowText row))).breakRow false
        else writeUpTo width s (rowText row).1 (rowLimit isBlankCell (rowText row))) := by
    have split : (rows.map rowText).drop y = rowText row :: (rows.map rowText).drop (y + 1) := by
      rw [List.drop_eq_getElem?_toList_append]
      simp [hrow]
    rw [split, writeRows_cons]
    rfl
  have more : (rows.map rowText).drop (y + 1) ≠ [] ↔ y + 1 < rows.length := by
    simp
  have line : m.rewrapLine rows.length y st = m.closeSrcLine rows.length y (rowWrapped row) st3 := by
    unfold RewrapMacros.rewrapLine
    simp only [openEq, startEq, copyEq, Option.bind_eq_bind, Option.bind_some]
  rw [line]
  unfold RewrapMacros.closeSrcLine
  by_cases hard : rowWrapped row = false ∧ y + 1 < rows.length
  · rw [if_pos hard]
    obtain ⟨attrs, initEq⟩ := src.init reads3 (List.getElem?_eq_getElem hard.2)
    have writesNext : WritesTo Holds width
        { st3 with srcLine := { cells := rows[y + 1], attrs := attrs } }
        (writeUpTo width s (rowText row).1 (rowLimit isBlankCell (rowText row))) :=
      ⟨writes3.holds, writes3.destX, writes3.fits⟩
    obtain ⟨st4, lineEq, same4, writes4⟩ := startLine_spec laws writesNext false (by simp)
    have first4 : st4.isFirstLine = false := same4.first.trans (same3.first.trans first2)
    refine ⟨st4, (writeUpTo width s (rowText row).1
      (rowLimit isBlankCell (rowText row))).breakRow false, by simp [initEq, lineEq], first4,
      ?_, ?_, ?_⟩
    · rw [same4.src]
      exact reads3
    · rw [first4, if_neg (by simp)]
      exact writes4
    · rw [← progress.rest, rest, if_pos ⟨hard.1, more.2 hard.2⟩]
  · rw [if_neg hard]
    have first3 : st3.isFirstLine = false := same3.first.trans first2
    refine ⟨st3, writeUpTo width s (rowText row).1 (rowLimit isBlankCell (rowText row)), rfl,
      first3, reads3, ?_, ?_⟩
    · rw [first3, if_neg (by simp)]
      exact writes3
    · rw [← progress.rest, rest, if_neg (fun h => hard ⟨h.1, more.1 h.2⟩)]

/-- The outer loop has reached source row `y`. -/
def Reached (Reads : Src → Nat → Prop) (Holds : Dest → Writer Cell → Prop) (width : Nat)
    (rows : List Row) (start : Dest) (y : Nat) (st : RewrapState Src Dest) : Prop :=
  ∃ s, (0 < y → st.isFirstLine = false) ∧ Progress Reads Holds width rows start y st s

/-- `rewrap_inner` writes what the row writer writes. -/
theorem rewrapInner_spec (src : SrcLaws m xnum rows Reads) (laws : DestLaws m width start Holds)
    (hrows : 0 < rows.length) {source : Src} (reads : Reads source 0) (track : List TrackCursor) :
    ∃ st, m.rewrapInner source start rows.length track = some st ∧
      Holds st.dest (writeRows width isBlankCell (rows.map rowText) {}) := by
  have count : max 1 rows.length = rows.length := by omega
  have round : ∀ y st, 0 ≤ y → y < 0 + rows.length →
      Reached Reads Holds width rows start y st →
      ∃ st', m.rewrapLine rows.length y st = some st' ∧
        Reached Reads Holds width rows start (y + 1) st' := by
    rintro y st - hy ⟨s, -, progress⟩
    obtain ⟨st', s', lineEq, first, next⟩ := rewrapLine_spec src laws (by omega) progress
    exact ⟨st', lineEq, s', fun _ => first, next⟩
  have begin : Reached Reads Holds width rows start 0
      { src := source, dest := start, track := track } :=
    ⟨{}, by simp, reads, by simp, by simp⟩
  obtain ⟨st, loopEq, s, last, progress⟩ := forUp_invariant _ begin round
  refine ⟨st, by rw [RewrapMacros.rewrapInner, count]; exact loopEq, ?_⟩
  have written := progress.dest
  rw [last (by omega), if_neg (by simp)] at written
  have done := progress.rest
  rw [List.drop_of_length_le (by simp)] at done
  rw [← done]
  exact written.holds

end Smelly
