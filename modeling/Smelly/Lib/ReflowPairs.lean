/-
Module: Smelly.Lib.ReflowPairs
Purpose: Cells that belong together: a wide cell and the half behind it.  When the row writer of
  `Reflow` keeps them in one row, and when it leaves a wide cell at the end of a full row.
Trusted boundary: none
-/
import Mathlib.Data.Nat.ModEq
import Smelly.Lib.Reflow

namespace Reflow

variable {α : Type} {wide half : α → Bool}

/-- Every wide cell has its half right behind it. -/
def Whole (wide half : α → Bool) (cells : List α) : Prop :=
  ∀ i a, cells[i]? = some a → wide a = true → ∃ b, cells[i + 1]? = some b ∧ half b = true

theorem whole_nil : Whole wide half ([] : List α) := by
  intro i a h
  simp at h

theorem Whole.append {xs ys : List α} (hx : Whole wide half xs) (hy : Whole wide half ys) :
    Whole wide half (xs ++ ys) := by
  intro i a h isWide
  rcases Nat.lt_or_ge i xs.length with front | behind
  · rw [List.getElem?_append_left front] at h
    obtain ⟨b, next, isHalf⟩ := hx i a h isWide
    have inside : i + 1 < xs.length := (List.getElem?_eq_some_iff.1 next).1
    exact ⟨b, by rw [List.getElem?_append_left inside, next], isHalf⟩
  · rw [List.getElem?_append_right behind] at h
    obtain ⟨b, next, isHalf⟩ := hy _ a h isWide
    refine ⟨b, ?_, isHalf⟩
    rw [List.getElem?_append_right (by omega), Nat.sub_add_comm behind, next]

theorem Whole.drop {cells : List α} (h : Whole wide half cells) (n : Nat) :
    Whole wide half (cells.drop n) := by
  intro i a here isWide
  rw [List.getElem?_drop] at here
  obtain ⟨b, next, isHalf⟩ := h _ a here isWide
  exact ⟨b, by rw [List.getElem?_drop, ← Nat.add_assoc, next], isHalf⟩

/-- A prefix is whole unless its last cell is wide. -/
theorem Whole.take {cells : List α} (h : Whole wide half cells) {n : Nat}
    (last : ∀ a, 0 < n → cells[n - 1]? = some a → wide a = false) :
    Whole wide half (cells.take n) := by
  intro i a here isWide
  have inside : i < n := by
    have := (List.getElem?_eq_some_iff.1 here).1
    rw [List.length_take] at this
    omega
  rw [List.getElem?_take_of_lt inside] at here
  obtain ⟨b, next, isHalf⟩ := h i a here isWide
  by_cases more : i + 1 < n
  · exact ⟨b, by rw [List.getElem?_take_of_lt more, next], isHalf⟩
  · have final : n - 1 = i := by omega
    have narrow := last a (by omega) (final ▸ here)
    rw [narrow] at isWide
    cases isWide

/-- Nothing may be wide at the end. -/
theorem not_whole_of_last {cells : List α} {a : α} (last : cells[cells.length - 1]? = some a)
    (isWide : wide a = true) : ¬ Whole wide half cells := by
  intro whole
  obtain ⟨b, next, -⟩ := whole _ a last isWide
  have inside := (List.getElem?_eq_some_iff.1 last).1
  have beyond := (List.getElem?_eq_some_iff.1 next).1
  omega

/-- A full row with a wide cell in its last column. -/
def TornRow (wide : α → Bool) (width : Nat) (cells : List α) : Prop :=
  cells.length = width ∧ ∃ a, cells[width - 1]? = some a ∧ wide a = true

theorem TornRow.not_whole {width : Nat} {cells : List α} (torn : TornRow wide width cells) :
    ¬ Whole wide half cells := by
  obtain ⟨length, a, last, isWide⟩ := torn
  exact not_whole_of_last (length ▸ last) isWide

/-! ### One source row -/

/-- Among the cells of a row that starts at the given offset of its line, a wide one comes to stand
in the last column.  Of the cells from `limit` on those are written that still fit in the last
row. -/
def TearsRow (wide : α → Bool) (width offset limit : Nat) (cells : List α) : Prop :=
  ∃ i a, cells[i]? = some a ∧ wide a = true ∧ width ∣ offset + i + 1 ∧
    0 < limit ∧ i + 1 < limit + width

/-- Only the column matters. -/
theorem tearsRow_congr {width offset offset' limit : Nat} {cells : List α}
    (h : offset ≡ offset' [MOD width]) :
    TearsRow wide width offset limit cells ↔ TearsRow wide width offset' limit cells := by
  have same (i : Nat) : width ∣ offset + i + 1 ↔ width ∣ offset' + i + 1 :=
    ((h.add_right i).add_right 1).dvd_iff dvd_rfl
  unfold TearsRow
  simp only [same]

namespace Writer

variable {width : Nat}

/-- The rows of the writer are whole. -/
def AllWhole (wide half : α → Bool) (s : Writer α) : Prop :=
  ∀ row ∈ s.rows, Whole wide half row.1

theorem AllWhole.current {s : Writer α} (h : s.AllWhole wide half) :
    Whole wide half s.current :=
  h (s.current, false) (List.mem_append_right _ (List.mem_singleton_self _))

theorem AllWhole.breakRow {s : Writer α} (h : s.AllWhole wide half) (continued : Bool) :
    (s.breakRow continued).AllWhole wide half := by
  intro row hrow
  rcases List.mem_append.1 hrow with old | new
  · rcases List.mem_append.1 old with older | last
    · exact h row (List.mem_append_left _ older)
    · rw [List.mem_singleton.1 last]
      exact h.current
  · rw [List.mem_singleton.1 new]
    exact whole_nil

theorem AllWhole.extend {s : Writer α} (h : s.AllWhole wide half) {cells : List α}
    (whole : Whole wide half cells) : (s.extend cells).AllWhole wide half := by
  intro row hrow
  rcases List.mem_append.1 hrow with old | new
  · exact h row (List.mem_append_left _ old)
  · rw [List.mem_singleton.1 new]
    exact h.current.append whole

/-- Starting a new row keeps the cells of all others. -/
theorem exists_rows_breakRow {s : Writer α} {row : List α × Bool} (h : row ∈ s.rows)
    (continued : Bool) : ∃ row' ∈ (s.breakRow continued).rows, row'.1 = row.1 := by
  rcases List.mem_append.1 h with old | new
  · exact ⟨row, List.mem_append_left _ (List.mem_append_left _ old), rfl⟩
  · refine ⟨(row.1, continued), List.mem_append_left _ (List.mem_append_right _ ?_), rfl⟩
    rw [List.mem_singleton.1 new]
    exact List.mem_singleton_self _

theorem finished_put (s : Writer α) (cell : α) :
    s.finished <+: (put width s cell).finished := by
  unfold put
  split
  · exact List.prefix_rfl
  · exact List.prefix_append _ _

theorem finished_write (s : Writer α) (cells : List α) :
    s.finished <+: (s.write width cells).finished := by
  induction cells generalizing s with
  | nil => exact List.prefix_rfl
  | cons cell rest ih => exact (finished_put s cell).trans (ih (put width s cell))

/-- The column in which the cells end. -/
theorem length_write (hwidth : 0 < width) (s : Writer α) (cells : List α)
    (fits : s.current.length ≤ width) :
    (s.write width cells).current.length ≡ s.current.length + cells.length [MOD width] := by
  induction cells generalizing s with
  | nil => rfl
  | cons cell rest ih =>
    have step : (put width s cell).current.length ≡ s.current.length + 1 [MOD width] ∧
        (put width s cell).current.length ≤ width := by
      unfold put
      split
      · rename_i room
        simp only [Writer.extend, List.length_append, List.length_singleton]
        exact ⟨rfl, room⟩
      · rename_i full
        have exactly : s.current.length = width := by omega
        rw [exactly]
        exact ⟨Nat.add_modEq_left.symm, hwidth⟩
    have later := ih (put width s cell) step.2
    refine later.trans ?_
    rw [List.length_cons, Nat.add_comm rest.length, ← Nat.add_assoc]
    exact step.1.add_right rest.length

end Writer

theorem finished_writeUpTo (width : Nat) (s : Writer α) (cells : List α) (limit : Nat) :
    s.finished <+: (writeUpTo width s cells limit).finished := by
  unfold writeUpTo
  split
  · exact Writer.finished_write s _
  · exact Writer.finished_write s _

/-- Where no wide cell comes to stand in the last column, the rows stay whole.  The induction is
on the blocks that fill a row each. -/
theorem writeUpTo_whole {width : Nat} (hwidth : 0 < width) {s : Writer α} {cells : List α}
    {limit : Nat} (hlimit : limit ≤ cells.length) (fits : s.current.length ≤ width)
    (before : s.AllWhole wide half) (whole : Whole wide half cells)
    (kept : ¬ TearsRow wide width s.current.length limit cells) :
    (writeUpTo width s cells limit).AllWhole wide half := by
  induction hlength : cells.length using Nat.strongRecOn generalizing s cells limit with
  | ind length ih =>
    rcases Nat.eq_zero_or_pos limit with rfl | some_
    · rwa [writeUpTo, if_pos rfl, List.take_zero, Writer.write_nil]
    · -- a row with room in it, a new one if need be
      obtain ⟨t, textEq, room, tWhole, tKept⟩ : ∃ t : Writer α,
          writeUpTo width s cells limit = writeUpTo width t cells limit ∧
            t.current.length < width ∧ t.AllWhole wide half ∧
            ¬ TearsRow wide width t.current.length limit cells := by
        rcases Nat.lt_or_ge s.current.length width with room | full
        · exact ⟨s, rfl, room, before, kept⟩
        · refine ⟨s.breakRow true, writeUpTo_full s hwidth full some_ hlimit, hwidth,
            before.breakRow true, fun tears => kept ?_⟩
          have exactly : s.current.length = width := by omega
          refine (tearsRow_congr ?_).1 tears
          rw [exactly]
          exact (Nat.modEq_zero_iff_dvd.2 dvd_rfl).symm
      obtain ⟨n, hn⟩ : ∃ n, n = min cells.length (width - t.current.length) := ⟨_, rfl⟩
      have block : (t.extend (cells.take n)).AllWhole wide half := by
        apply tWhole.extend
        apply whole.take
        intro a positive last
        by_contra isWide
        rw [Bool.not_eq_false] at isWide
        obtain ⟨b, next, -⟩ := whole _ a last isWide
        have more := (List.getElem?_eq_some_iff.1 next).1
        refine tKept ⟨n - 1, a, last, isWide, ?_, some_, by omega⟩
        rw [show t.current.length + (n - 1) + 1 = width by omega]
      rw [textEq, writeUpTo_block t cells limit room some_ hlimit hn]
      split
      · rename_i short
        have full : (t.extend (cells.take n)).current.length = width := by
          simp only [Writer.extend, List.length_append, List.length_take]
          omega
        refine ih (cells.drop n).length ?_ ?_ full.le block (whole.drop n) ?_ rfl
        · rw [List.length_drop]
          omega
        · rw [List.length_drop]
          omega
        · rintro ⟨i, a, here, isWide, column, -, near⟩
          rw [List.getElem?_drop] at here
          refine tKept ⟨n + i, a, here, isWide, ?_, some_, by omega⟩
          rw [full] at column
          rwa [show t.current.length + (n + i) + 1 = width + i + 1 by omega]
      · exact block

/-- A row that is full is among the rows in the end. -/
theorem writeUpTo_keeps {width : Nat} (hwidth : 0 < width) {s : Writer α} {cells : List α}
    {limit : Nat} (hlimit : limit ≤ cells.length) (full : width ≤ s.current.length) :
    ∃ row ∈ (writeUpTo width s cells limit).rows, row.1 = s.current := by
  rcases Nat.eq_zero_or_pos limit with rfl | some_
  · rw [writeUpTo, if_pos rfl, List.take_zero, Writer.write_nil]
    exact ⟨(s.current, false), List.mem_append_right _ (List.mem_singleton_self _), rfl⟩
  · rw [writeUpTo_full s hwidth full some_ hlimit]
    have kept := finished_writeUpTo width (s.breakRow true) cells limit
    refine ⟨(s.current, true), List.mem_append_left _ (kept.subset ?_), rfl⟩
    exact List.mem_append_right _ (List.mem_singleton_self _)

/-- A wide cell that comes to stand in the last column ends a full row. -/
theorem writeUpTo_torn {width : Nat} (hwidth : 0 < width) {s : Writer α} {cells : List α}
    {limit : Nat} (hlimit : limit ≤ cells.length) (fits : s.current.length ≤ width)
    (tears : TearsRow wide width s.current.length limit cells) :
    ∃ row ∈ (writeUpTo width s cells limit).rows, TornRow wide width row.1 := by
  induction hlength : cells.length using Nat.strongRecOn generalizing s cells limit with
  | ind length ih =>
    have some_ : 0 < limit := by
      obtain ⟨i, a, -, -, -, some_, -⟩ := tears
      exact some_
    obtain ⟨t, textEq, room, tTears⟩ : ∃ t : Writer α,
        writeUpTo width s cells limit = writeUpTo width t cells limit ∧
          t.current.length < width ∧ TearsRow wide width t.current.length limit cells := by
      rcases Nat.lt_or_ge s.current.length width with room | full
      · exact ⟨s, rfl, room, tears⟩
      · refine ⟨s.breakRow true, writeUpTo_full s hwidth full some_ hlimit, hwidth, ?_⟩
        have exactly : s.current.length = width := by omega
        refine (tearsRow_congr ?_).1 tears
        rw [exactly]
        exact Nat.modEq_zero_iff_dvd.2 dvd_rfl
    obtain ⟨n, hn⟩ : ∃ n, n = min cells.length (width - t.current.length) := ⟨_, rfl⟩
    obtain ⟨i, a, here, isWide, column, -, near⟩ := tTears
    have inside := (List.getElem?_eq_some_iff.1 here).1
    rw [textEq, writeUpTo_block t cells limit room some_ hlimit hn]
    rcases Nat.lt_or_ge i n with first | later
    · -- the cell ends the block
      have ends : t.current.length + i + 1 = width := by
        have reach := Nat.le_of_dvd (Nat.succ_pos _) column
        omega
      have torn : TornRow wide width (t.extend (cells.take n)).current := by
        refine ⟨?_, a, ?_, isWide⟩
        · simp only [Writer.extend, List.length_append, List.length_take]
          omega
        · simp only [Writer.extend]
          rw [List.getElem?_append_right (by omega),
            show width - 1 - t.current.length = i by omega, List.getElem?_take_of_lt first, here]
      split
      · have inRest : limit - n ≤ (cells.drop n).length := by
          rw [List.length_drop]
          omega
        obtain ⟨row, hrow, rowEq⟩ := writeUpTo_keeps hwidth inRest torn.1.ge
        exact ⟨row, hrow, rowEq ▸ torn⟩
      · exact ⟨_, List.mem_append_right _ (List.mem_singleton_self _), torn⟩
    · -- the cell stands in a later row
      have beyond : width ≤ t.current.length + i + 1 - width := by
        have rest := Nat.dvd_sub column (dvd_refl width)
        exact Nat.le_of_dvd (by omega) rest
      have short : n < limit := by omega
      have full : (t.extend (cells.take n)).current.length = width := by
        simp only [Writer.extend, List.length_append, List.length_take]
        omega
      rw [if_pos short]
      refine ih (cells.drop n).length ?_ ?_ full.le ?_ rfl
      · rw [List.length_drop]
        omega
      · rw [List.length_drop]
        omega
      · refine ⟨i - n, a, ?_, isWide, ?_, by omega, by omega⟩
        · rw [List.getElem?_drop, show n + (i - n) = i by omega, here]
        · rw [full, show width + (i - n) + 1 = t.current.length + i + 1 by omega]
          exact column

/-! ### All rows -/

/-- Some source row has a wide cell that comes to stand in the last column of a row.  The offset is
that of the first row in its line. -/
def Tears (wide blank : α → Bool) (width : Nat) : Nat → List (List α × Bool) → Prop
  | _, [] => False
  | offset, row :: rest =>
    TearsRow wide width offset (rowLimit blank row) row.1 ∨
      Tears wide blank width (if row.2 then offset + row.1.length else 0) rest

/-- The column behind a row that goes on. -/
theorem length_writeUpTo_wrapped {width : Nat} (hwidth : 0 < width) {blank : α → Bool}
    {s : Writer α} (fits : s.current.length ≤ width) {row : List α × Bool}
    (wrapped : row.2 = true) :
    (writeUpTo width s row.1 (rowLimit blank row)).current.length ≡
      s.current.length + row.1.length [MOD width] := by
  obtain ⟨extra, textEq, -, none_⟩ := writeUpTo_eq width blank s row
  have all : (trimRow blank row).1 = row.1 := by
    rcases row with ⟨cells, flag⟩
    cases wrapped
    rfl
  rw [textEq, none_ wrapped, all, Writer.extend, List.append_nil]
  exact Writer.length_write hwidth s row.1 fits

/-- What the writer has after a source row, when another one follows. -/
theorem writeRows_column {width : Nat} (hwidth : 0 < width) (blank : α → Bool) {s : Writer α}
    {offset : Nat} (fits : s.Fits width) (column : offset ≡ s.current.length [MOD width])
    (row : List α × Bool) {rest : List (List α × Bool)} (more : rest ≠ []) :
    (if row.2 then offset + row.1.length else 0) ≡
      (if row.2 = false ∧ rest ≠ [] then
          (writeUpTo width s row.1 (rowLimit blank row)).breakRow false
        else writeUpTo width s row.1 (rowLimit blank row)).current.length [MOD width] := by
  cases wrapped : row.2 with
  | false => rw [if_neg (by simp), if_pos ⟨rfl, more⟩]; rfl
  | true =>
    rw [if_pos rfl, if_neg (by simp)]
    exact (column.add_right _).trans (length_writeUpTo_wrapped hwidth fits.current wrapped).symm

theorem fits_writeRow {width : Nat} (hwidth : 0 < width) (blank : α → Bool) {s : Writer α}
    (fits : s.Fits width) (row : List α × Bool) (rest : List (List α × Bool)) :
    (if row.2 = false ∧ rest ≠ [] then
        (writeUpTo width s row.1 (rowLimit blank row)).breakRow false
      else writeUpTo width s row.1 (rowLimit blank row)).Fits width := by
  have written := fits.writeUpTo hwidth row.1 (rowLimit blank row)
  split
  · exact written.breakRow (by simp)
  · exact written

/-- Where no wide cell comes to stand in the last column, the written rows are whole. -/
theorem writeRows_whole {width : Nat} (hwidth : 0 < width) (blank : α → Bool)
    {rows : List (List α × Bool)} (whole : ∀ row ∈ rows, Whole wide half row.1) {s : Writer α}
    {offset : Nat} (fits : s.Fits width) (column : offset ≡ s.current.length [MOD width])
    (before : s.AllWhole wide half) (kept : ¬ Tears wide blank width offset rows) :
    (writeRows width blank rows s).AllWhole wide half := by
  induction rows generalizing s offset with
  | nil => exact before
  | cons row rest ih =>
    have here : ¬ TearsRow wide width s.current.length (rowLimit blank row) row.1 :=
      fun tears => kept (.inl ((tearsRow_congr column).2 tears))
    have written := writeUpTo_whole hwidth (rowLimit_le blank row) fits.current before
      (whole row List.mem_cons_self) here
    rw [writeRows_cons]
    by_cases more : rest = []
    · subst more
      simpa [writeRows] using written
    · apply ih (fun r hr => whole r (List.mem_cons_of_mem _ hr))
        (fits_writeRow hwidth blank fits row rest)
        (writeRows_column hwidth blank fits column row more)
      · split
        · exact written.breakRow false
        · exact written
      · exact fun tears => kept (.inr tears)

/-- Rows that are finished, or full, stay. -/
theorem writeRows_keeps {width : Nat} (hwidth : 0 < width) (blank : α → Bool)
    (rows : List (List α × Bool)) {s : Writer α} {cells : List α}
    (h : ∃ row ∈ s.rows, row.1 = cells) (full : cells.length = width) :
    ∃ row ∈ (writeRows width blank rows s).rows, row.1 = cells := by
  induction rows generalizing s with
  | nil => exact h
  | cons row rest ih =>
    rw [writeRows_cons]
    have written : ∃ r ∈ (writeUpTo width s row.1 (rowLimit blank row)).rows, r.1 = cells := by
      obtain ⟨r, hr, rfl⟩ := h
      rcases List.mem_append.1 hr with old | new
      · exact ⟨r, List.mem_append_left _
          ((finished_writeUpTo width s _ _).subset old), rfl⟩
      · rw [List.mem_singleton.1 new] at full ⊢
        exact writeUpTo_keeps hwidth (rowLimit_le blank row) full.ge
    apply ih
    split
    · obtain ⟨r, hr, rEq⟩ := written
      obtain ⟨r', hr', same⟩ := Writer.exists_rows_breakRow hr false
      exact ⟨r', hr', same.trans rEq⟩
    · exact written

/-- A wide cell that comes to stand in the last column ends one of the written rows. -/
theorem writeRows_torn {width : Nat} (hwidth : 0 < width) (blank : α → Bool)
    {rows : List (List α × Bool)} {s : Writer α} {offset : Nat} (fits : s.Fits width)
    (column : offset ≡ s.current.length [MOD width])
    (tears : Tears wide blank width offset rows) :
    ∃ row ∈ (writeRows width blank rows s).rows, TornRow wide width row.1 := by
  induction rows generalizing s offset with
  | nil => exact tears.elim
  | cons row rest ih =>
    rw [writeRows_cons]
    rcases tears with here | later
    · obtain ⟨r, hr, torn⟩ := writeUpTo_torn hwidth (rowLimit_le blank row) fits.current
        ((tearsRow_congr column).1 here)
      have kept : ∃ r' ∈ (if row.2 = false ∧ rest ≠ [] then
          (writeUpTo width s row.1 (rowLimit blank row)).breakRow false
        else writeUpTo width s row.1 (rowLimit blank row)).rows, r'.1 = r.1 := by
        split
        · exact Writer.exists_rows_breakRow hr false
        · exact ⟨r, hr, rfl⟩
      obtain ⟨r', hr', rEq⟩ := writeRows_keeps hwidth blank rest kept torn.1
      exact ⟨r', hr', rEq ▸ torn⟩
    · have more : rest ≠ [] := by
        rintro rfl
        exact later
      exact ih (fits_writeRow hwidth blank fits row rest)
        (writeRows_column hwidth blank fits column row more) later

end Reflow
