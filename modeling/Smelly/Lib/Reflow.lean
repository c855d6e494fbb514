/-
Module: Smelly.Lib.Reflow
Purpose: Text in rows of a fixed width: rows joined into logical lines by a continuation flag,
  logical lines wrapped into rows, and a writer that fills rows from the rows of another width
  and leaves trailing blanks behind.
Trusted boundary: none
-/
import Mathlib.Data.List.Chain
import Mathlib.Data.List.DropRight
import Mathlib.Data.List.Forall2
import Mathlib.Tactic.Common

namespace Reflow

variable {α : Type}

/-! ### Logical lines -/

/-- Put cells in front of the first of the lines. -/
def prepend (cells : List α) : List (List α) → List (List α)
  | [] => [cells]
  | line :: lines => (cells ++ line) :: lines

/-- The lines that rows form when a row with the flag goes on in the next row. -/
def joinRows : List (List α × Bool) → List (List α)
  | [] => []
  | (cells, false) :: rest => cells :: joinRows rest
  | (cells, true) :: rest => prepend cells (joinRows rest)

/-- A row that ends a line, without its trailing blanks. -/
def trimRow (blank : α → Bool) : List α × Bool → List α × Bool
  | (cells, true) => (cells, true)
  | (cells, false) => (cells.rdropWhile blank, false)

/-- The lines of the rows, without the trailing blanks of the rows that end one. -/
def hardLines (blank : α → Bool) (rows : List (List α × Bool)) : List (List α) :=
  joinRows (rows.map (trimRow blank))

/-- The rows up to the last one with content. -/
def contentRows (blank : α → Bool) (rows : List (List α × Bool)) : List (List α × Bool) :=
  rows.rdropWhile fun row => row.1.all blank

/-- The lines up to the last row with content, without trailing blanks. -/
def logicalLines (blank : α → Bool) (rows : List (List α × Bool)) : List (List α) :=
  (joinRows (contentRows blank rows)).map (List.rdropWhile blank)

/-- The last row ends its line whatever its flag says. -/
def closeLast : List (List α × Bool) → List (List α × Bool)
  | [] => []
  | [(cells, _)] => [(cells, false)]
  | row :: next :: rest => row :: closeLast (next :: rest)

theorem closeLast_length (rows : List (List α × Bool)) :
    (closeLast rows).length = rows.length := by
  induction rows with
  | nil => rfl
  | cons row rest ih =>
    cases rest with
    | nil => rfl
    | cons next rest => rw [closeLast, List.length_cons, ih, ← List.length_cons]

/-- Trimming twice is trimming once, also when the last row is made to end its line. -/
theorem map_trimRow_closeLast (blank : α → Bool) (rows : List (List α × Bool)) :
    (closeLast (rows.map (trimRow blank))).map (trimRow blank) =
      (closeLast rows).map (trimRow blank) := by
  induction rows with
  | nil => rfl
  | cons row rest ih =>
    have twice : trimRow blank (trimRow blank row) = trimRow blank row := by
      rcases row with ⟨cells, _ | _⟩
      · exact Prod.ext (List.rdropWhile_idempotent blank cells) rfl
      · rfl
    cases rest with
    | nil =>
      rcases row with ⟨cells, _ | _⟩
      · exact congrArg (fun r => [r]) twice
      · rfl
    | cons next rest =>
      simp only [List.map_cons, closeLast, twice] at ih ⊢
      rw [ih]

/-! ### Writing cells into rows -/

/-- The rows written so far and the row that is being written. -/
structure Writer (α : Type) where
  finished : List (List α × Bool) := []
  current : List α := []

namespace Writer

/-- All rows; the current row is the last. -/
def rows (s : Writer α) : List (List α × Bool) := s.finished ++ [(s.current, false)]

/-- Start a new row. -/
def breakRow (s : Writer α) (continued : Bool) : Writer α :=
  { finished := s.finished ++ [(s.current, continued)] }

/-- Add cells to the current row. -/
def extend (s : Writer α) (cells : List α) : Writer α := { s with current := s.current ++ cells }

/-- Write one cell, into a new row when the current one is full. -/
def put (width : Nat) (s : Writer α) (cell : α) : Writer α :=
  if s.current.length < width then s.extend [cell] else (s.breakRow true).extend [cell]

/-- Write cells one after the other. -/
def write (width : Nat) (s : Writer α) (cells : List α) : Writer α := cells.foldl (put width) s

end Writer

/-- A line wrapped into rows of `width` cells. -/
def wrapLine (width : Nat) (line : List α) : List (List α × Bool) :=
  (Writer.write width {} line).rows

/-- Lines wrapped into rows of `width` cells, each from a row of its own on. -/
def wrapLines (width : Nat) (lines : List (List α)) : List (List α × Bool) :=
  lines.flatMap (wrapLine width)

/-- How many cells of a row belong to its line. -/
def rowLimit (blank : α → Bool) (row : List α × Bool) : Nat := (trimRow blank row).1.length

/-- Write the first `limit` cells of a row, and of the others those that still fit in the
current row. -/
def writeUpTo (width : Nat) (s : Writer α) (cells : List α) (limit : Nat) : Writer α :=
  let text := s.write width (cells.take limit)
  if limit = 0 then text
  else text.extend ((cells.drop limit).take (width - text.current.length))

/-- Write rows of another width, each line from a row of its own on. -/
def writeRows (width : Nat) (blank : α → Bool) : List (List α × Bool) → Writer α → Writer α
  | [], s => s
  | row :: rest, s =>
    let written := writeUpTo width s row.1 (rowLimit blank row)
    writeRows width blank rest
      (if row.2 = false ∧ rest ≠ [] then written.breakRow false else written)

@[simp] theorem hardLines_nil (blank : α → Bool) : hardLines blank [] = [] := rfl

@[simp] theorem hardLines_wrapped (blank : α → Bool) (cells : List α)
    (rest : List (List α × Bool)) :
    hardLines blank ((cells, true) :: rest) = prepend cells (hardLines blank rest) := rfl

@[simp] theorem hardLines_hard (blank : α → Bool) (cells : List α)
    (rest : List (List α × Bool)) :
    hardLines blank ((cells, false) :: rest) =
      cells.rdropWhile blank :: hardLines blank rest := rfl

theorem wrapLines_cons (width : Nat) (line : List α) (lines : List (List α)) :
    wrapLines width (line :: lines) = wrapLine width line ++ wrapLines width lines := rfl

theorem writeRows_cons (width : Nat) (blank : α → Bool) (row : List α × Bool)
    (rest : List (List α × Bool)) (s : Writer α) :
    writeRows width blank (row :: rest) s =
      writeRows width blank rest
        (if row.2 = false ∧ rest ≠ [] then
          (writeUpTo width s row.1 (rowLimit blank row)).breakRow false
        else writeUpTo width s row.1 (rowLimit blank row)) := rfl

/-! ### Rows as the writer leaves them -/

namespace Writer

variable {width : Nat}

@[simp] theorem write_nil (s : Writer α) : s.write width [] = s := rfl

theorem write_append (s : Writer α) (first second : List α) :
    s.write width (first ++ second) = (s.write width first).write width second :=
  List.foldl_append

/-- What was finished before does not matter to what is written now. -/
theorem write_finished (width : Nat) (s : Writer α) (before : List (List α × Bool)) (cells : List α) :
    write width { s with finished := before ++ s.finished } cells =
      { s.write width cells with finished := before ++ (s.write width cells).finished } := by
  induction cells generalizing s with
  | nil => rfl
  | cons cell rest ih =>
    have step : put width { s with finished := before ++ s.finished } cell =
        { put width s cell with finished := before ++ (put width s cell).finished } := by
      unfold put
      split <;> simp [extend, breakRow]
    change write width (put width _ cell) rest = _
    rw [step, ih]
    rfl

/-- Cells that fit go into the current row. -/
theorem write_fits (s : Writer α) (cells : List α) (h : s.current.length + cells.length ≤ width) :
    s.write width cells = s.extend cells := by
  induction cells generalizing s with
  | nil => simp [extend]
  | cons cell rest ih =>
    rw [List.length_cons] at h
    have step : put width s cell = s.extend [cell] := by
      unfold put
      rw [if_pos (by omega)]
    change write width (put width s cell) rest = _
    rw [step, ih _ (by simp only [extend, List.length_append, List.length_singleton]; omega)]
    simp [extend]

/-- Cells written after a full row go into a new one. -/
theorem write_full (s : Writer α) {cells : List α} (hcells : cells ≠ []) (hwidth : 0 < width)
    (h : width ≤ s.current.length) :
    s.write width cells = (s.breakRow true).write width cells := by
  cases cells with
  | nil => exact absurd rfl hcells
  | cons cell rest =>
    have full : put width s cell = (s.breakRow true).extend [cell] := by
      unfold put
      rw [if_neg (by omega)]
    have fresh : put width (s.breakRow true) cell = (s.breakRow true).extend [cell] := by
      unfold put
      rw [if_pos (by simpa [breakRow] using hwidth)]
    change write width (put width s cell) rest = write width (put width _ cell) rest
    rw [full, fresh]

/-- No row is longer than the width, and a row that goes on is full. -/
structure Fits (width : Nat) (s : Writer α) : Prop where
  current : s.current.length ≤ width
  finished : ∀ row ∈ s.finished, row.1.length ≤ width ∧ (row.2 = true → row.1.length = width)

theorem Fits.empty (width : Nat) : Fits width ({} : Writer α) :=
  ⟨Nat.zero_le _, by simp⟩

theorem Fits.extend {s : Writer α} (fits : s.Fits width) {cells : List α}
    (h : s.current.length + cells.length ≤ width) : (s.extend cells).Fits width where
  current := by simpa [Writer.extend] using h
  finished := fits.finished

theorem Fits.breakRow {s : Writer α} (fits : s.Fits width) {continued : Bool}
    (h : continued = true → s.current.length = width) : (s.breakRow continued).Fits width where
  current := Nat.zero_le _
  finished := by
    intro row hrow
    rcases List.mem_append.1 hrow with old | new
    · exact fits.finished row old
    · rw [List.mem_singleton.1 new]
      exact ⟨fits.current, h⟩

theorem Fits.write {s : Writer α} (fits : s.Fits width) (hwidth : 0 < width) (cells : List α) :
    (s.write width cells).Fits width := by
  induction cells generalizing s with
  | nil => exact fits
  | cons cell rest ih =>
    refine ih (s := put width s cell) ?_
    unfold put
    split
    · exact fits.extend (by simp only [List.length_singleton]; omega)
    · have full : s.current.length = width := by
        have := fits.current
        omega
      exact (fits.breakRow fun _ => full).extend (by
        simpa [Writer.breakRow] using Nat.succ_le_of_lt hwidth)

theorem Fits.writeUpTo {s : Writer α} (fits : s.Fits width) (hwidth : 0 < width)
    (cells : List α) (limit : Nat) : (Reflow.writeUpTo width s cells limit).Fits width := by
  have text := fits.write hwidth (cells.take limit)
  unfold Reflow.writeUpTo
  split
  · exact text
  · refine text.extend ?_
    have := text.current
    simp only [List.length_take]
    omega

theorem Fits.writeRows {blank : α → Bool} (hwidth : 0 < width) (rows : List (List α × Bool))
    {s : Writer α} (fits : s.Fits width) : (Reflow.writeRows width blank rows s).Fits width := by
  induction rows generalizing s with
  | nil => exact fits
  | cons row rest ih =>
    have written := fits.writeUpTo hwidth row.1 (rowLimit blank row)
    refine ih ?_
    split
    · exact written.breakRow (by simp)
    · exact written

end Writer

theorem rowLimit_le (blank : α → Bool) (row : List α × Bool) :
    rowLimit blank row ≤ row.1.length := by
  rcases row with ⟨cells, continued⟩
  cases continued with
  | true => exact Nat.le_refl _
  | false => exact (List.rdropWhile_prefix blank cells).length_le

/-- The cells of a row that belong to its line are a prefix of it. -/
theorem take_rowLimit (blank : α → Bool) (row : List α × Bool) :
    row.1.take (rowLimit blank row) = (trimRow blank row).1 := by
  rcases row with ⟨cells, continued⟩
  cases continued with
  | true => exact List.take_length
  | false => exact (List.prefix_iff_eq_take.1 (List.rdropWhile_prefix blank cells)).symm

theorem drop_rowLimit_blank (blank : α → Bool) (row : List α × Bool) :
    ∀ cell ∈ row.1.drop (rowLimit blank row), blank cell = true := by
  rcases row with ⟨cells, continued⟩
  cases continued with
  | true => simp [rowLimit, trimRow]
  | false =>
    intro cell hcell
    have split : cells.drop (rowLimit blank (cells, false)) = cells.rtakeWhile blank := by
      have whole := List.rdropWhile_append_rtakeWhile (p := blank) (l := cells)
      calc cells.drop (rowLimit blank (cells, false))
          = (cells.rdropWhile blank ++ cells.rtakeWhile blank).drop
              (cells.rdropWhile blank).length := by rw [whole]; rfl
        _ = cells.rtakeWhile blank := List.drop_left
    rw [split] at hcell
    exact List.mem_rtakeWhile_imp hcell

/-- A row that is full is left before anything is written up to a limit. -/
theorem writeUpTo_full {width limit : Nat} (s : Writer α) {cells : List α} (hwidth : 0 < width)
    (hfull : width ≤ s.current.length) (hlimit : 0 < limit) (hle : limit ≤ cells.length) :
    writeUpTo width s cells limit = writeUpTo width (s.breakRow true) cells limit := by
  have nonempty : cells.take limit ≠ [] := by
    apply List.ne_nil_of_length_pos
    simp only [List.length_take]
    omega
  unfold writeUpTo
  rw [Writer.write_full s nonempty hwidth hfull]

/-- Writing up to a limit, one block after the other: a block fills the current row or takes all
cells there are. -/
theorem writeUpTo_block {width : Nat} (s : Writer α) (cells : List α) (limit : Nat)
    (hroom : s.current.length < width) (hlimit : 0 < limit) (hle : limit ≤ cells.length) {n : Nat}
    (hn : n = min cells.length (width - s.current.length)) :
    writeUpTo width s cells limit =
      if n < limit then writeUpTo width (s.extend (cells.take n)) (cells.drop n) (limit - n)
      else s.extend (cells.take n) := by
  split
  · have split : cells.take limit = cells.take n ++ (cells.drop n).take (limit - n) := by
      rw [← List.take_add, show n + (limit - n) = limit by omega]
    have block : s.write width (cells.take n) = s.extend (cells.take n) :=
      Writer.write_fits s _ (by simp only [List.length_take]; omega)
    unfold writeUpTo
    rw [if_neg (by omega), if_neg (by omega), split, Writer.write_append, block, List.drop_drop,
      show n + (limit - n) = limit by omega]
  · have text : s.write width (cells.take limit) = s.extend (cells.take limit) :=
      Writer.write_fits s _ (by simp only [List.length_take]; omega)
    have rest : (cells.drop limit).take (width - (s.current.length + min limit cells.length)) =
        (cells.drop limit).take (n - limit) := by
      rw [List.take_eq_take_iff, List.length_drop]
      omega
    unfold writeUpTo
    rw [if_neg (by omega), text]
    simp only [Writer.extend, List.length_append, List.length_take, rest, List.append_assoc]
    rw [← List.take_add, show limit + (n - limit) = n by omega]

/-! ### The writer against the wrapped lines -/

/-- A row that holds the written cells and, when it ends its line, blanks after them. -/
def Pads (blank : α → Bool) (laid written : List α × Bool) : Prop :=
  ∃ extra, laid.1 = written.1 ++ extra ∧ (∀ cell ∈ extra, blank cell = true) ∧
    laid.2 = written.2 ∧ (laid.2 = true → extra = [])

theorem Pads.refl (blank : α → Bool) (row : List α × Bool) : Pads blank row row :=
  ⟨[], by simp⟩

theorem forall₂_pads_refl (blank : α → Bool) (rows : List (List α × Bool)) :
    List.Forall₂ (Pads blank) rows rows :=
  List.forall₂_same.2 fun row _ => Pads.refl blank row

/-- Writing up to the limit of a row is writing its part of the line and some blanks. -/
theorem writeUpTo_eq (width : Nat) (blank : α → Bool) (s : Writer α) (row : List α × Bool) :
    ∃ extra, writeUpTo width s row.1 (rowLimit blank row) =
        (s.write width (trimRow blank row).1).extend extra ∧
      (∀ cell ∈ extra, blank cell = true) ∧ (row.2 = true → extra = []) := by
  unfold writeUpTo
  rw [take_rowLimit]
  split
  · exact ⟨[], by simp [Writer.extend], by simp, fun _ => rfl⟩
  · refine ⟨_, rfl, fun cell hcell => ?_, fun continued => ?_⟩
    · exact drop_rowLimit_blank blank row cell (List.mem_of_mem_take hcell)
    · rcases row with ⟨cells, flag⟩
      cases continued
      simp [rowLimit, trimRow]

theorem prepend_append (first second : List α) (lines : List (List α)) :
    prepend first (prepend second lines) = prepend (first ++ second) lines := by
  cases lines <;> simp [prepend]

theorem prepend_nil {lines : List (List α)} (h : lines ≠ []) : prepend [] lines = lines := by
  cases lines with
  | nil => exact absurd rfl h
  | cons line lines => rfl

theorem joinRows_ne_nil {rows : List (List α × Bool)} (h : rows ≠ []) : joinRows rows ≠ [] := by
  rcases rows with _ | ⟨⟨cells, continued⟩, rest⟩
  · exact absurd rfl h
  · cases continued with
    | false => simp [joinRows]
    | true => cases hrest : joinRows rest <;> simp [joinRows, prepend, hrest]

theorem hardLines_ne_nil (blank : α → Bool) {rows : List (List α × Bool)} (h : rows ≠ []) :
    hardLines blank rows ≠ [] :=
  joinRows_ne_nil (by simpa using h)

/-- Writing the rows after a partly written line `line`: the rows are those of the wrapped lines,
up to blanks at the ends of lines.  The induction is on the source rows. -/
theorem writeRows_pads_from (width : Nat) (blank : α → Bool) (rows : List (List α × Bool))
    {laid wrapped : List (List α × Bool)} (before : List.Forall₂ (Pads blank) laid wrapped)
    (line : List α) :
    List.Forall₂ (Pads blank)
      (writeRows width blank rows
        (Writer.write width { finished := laid } line)).rows
      (wrapped ++ wrapLines width (prepend line (hardLines blank rows))) := by
  induction rows generalizing laid wrapped line with
  | nil =>
    have moved := Writer.write_finished width ({} : Writer α) laid line
    rw [List.append_nil] at moved
    rw [writeRows, moved, hardLines_nil, prepend, wrapLines, List.flatMap_singleton]
    simp only [Writer.rows, List.append_assoc]
    exact List.rel_append before (forall₂_pads_refl blank _)
  | cons row rest ih =>
    obtain ⟨extra, writtenEq, extraBlank, extraNil⟩ :=
      writeUpTo_eq width blank (Writer.write width { finished := laid } line) row
    rw [← Writer.write_append] at writtenEq
    rw [writeRows_cons, writtenEq]
    rcases row with ⟨cells, continued⟩
    cases continued with
    | true =>
      rw [extraNil rfl, hardLines_wrapped, prepend_append]
      simpa [trimRow, Writer.extend] using ih before (line ++ cells)
    | false =>
      -- the row ends `line`, whose rows stand after those laid before
      have moved := Writer.write_finished width ({} : Writer α) laid
      rw [List.append_nil] at moved
      have here : List.Forall₂ (Pads blank)
          ((Writer.write width { finished := laid }
            (line ++ cells.rdropWhile blank)).extend extra).rows
          (wrapped ++ wrapLine width (line ++ cells.rdropWhile blank)) := by
        rw [moved]
        simp only [Writer.rows, Writer.extend, List.append_assoc]
        refine List.rel_append before (List.rel_append (forall₂_pads_refl blank _) ?_)
        exact List.Forall₂.cons ⟨extra, rfl, extraBlank, rfl, by simp⟩ .nil
      rw [hardLines_hard, prepend, wrapLines_cons]
      by_cases last : rest = []
      · subst last
        simpa [writeRows, trimRow, wrapLines] using here
      · have later := ih here []
        rw [prepend_nil (hardLines_ne_nil blank last)] at later
        simpa [last, trimRow, Writer.breakRow, Writer.rows] using later

/-- The rows the writer leaves are the wrapped lines, up to blanks at the ends of lines. -/
theorem writeRows_pads (width : Nat) (blank : α → Bool) {rows : List (List α × Bool)}
    (h : rows ≠ []) :
    List.Forall₂ (Pads blank) (writeRows width blank rows {}).rows
      (wrapLines width (hardLines blank rows)) := by
  have all := writeRows_pads_from width blank rows .nil []
  rwa [prepend_nil (hardLines_ne_nil blank h), List.nil_append] at all

/-! ### Reading the lines back -/

/-- Blanks at the end do not matter to a trimmed line. -/
theorem rdropWhile_append_blank (blank : α → Bool) (cells extra : List α)
    (h : ∀ cell ∈ extra, blank cell = true) :
    (cells ++ extra).rdropWhile blank = cells.rdropWhile blank := by
  induction extra using List.reverseRecOn with
  | nil => rw [List.append_nil]
  | append_singleton extra cell ih =>
    rw [← List.append_assoc, List.rdropWhile_concat_pos blank _ _ (h cell (by simp))]
    exact ih fun c hc => h c (by simp [hc])

/-- Trimming the end first does not matter to a trimmed line. -/
theorem rdropWhile_append_rdropWhile (blank : α → Bool) (first second : List α) :
    (first ++ second.rdropWhile blank).rdropWhile blank = (first ++ second).rdropWhile blank := by
  have whole := List.rdropWhile_append_rtakeWhile (p := blank) (l := second)
  have rest := rdropWhile_append_blank blank (first ++ second.rdropWhile blank)
    (second.rtakeWhile blank) fun cell hcell => List.mem_rtakeWhile_imp hcell
  rw [List.append_assoc, whole] at rest
  exact rest.symm

/-- Trimmed lines only depend on the trimmed first line when cells are put in front. -/
theorem map_trim_prepend (blank : α → Bool) (cells : List α) {lines lines' : List (List α)}
    (h : lines.map (List.rdropWhile blank) = lines'.map (List.rdropWhile blank)) :
    (prepend cells lines).map (List.rdropWhile blank) =
      (prepend cells lines').map (List.rdropWhile blank) := by
  rcases lines with _ | ⟨line, lines⟩ <;> rcases lines' with _ | ⟨line', lines'⟩
  · rfl
  · simp at h
  · simp at h
  · rw [List.map_cons, List.map_cons, List.cons.injEq] at h
    simp only [prepend, List.map_cons, h.2, and_true]
    rw [← rdropWhile_append_rdropWhile, h.1, rdropWhile_append_rdropWhile]

/-- Rows that differ by blanks at the ends of lines have the same trimmed lines. -/
theorem map_trim_joinRows (blank : α → Bool) {laid written : List (List α × Bool)}
    (h : List.Forall₂ (Pads blank) laid written) :
    (joinRows laid).map (List.rdropWhile blank) =
      (joinRows written).map (List.rdropWhile blank) := by
  induction h with
  | nil => rfl
  | @cons row row' rest rest' pads _ ih =>
    obtain ⟨extra, cellsEq, extraBlank, flagEq, extraNil⟩ := pads
    rcases row with ⟨cells, continued⟩
    rcases row' with ⟨cells', continued'⟩
    simp only at cellsEq flagEq
    subst flagEq cellsEq
    cases continued with
    | false =>
      simp [joinRows, ih, rdropWhile_append_blank blank cells' _ extraBlank]
    | true =>
      rw [extraNil rfl, List.append_nil]
      exact map_trim_prepend blank cells' ih

theorem map_trim_hardLines (blank : α → Bool) (rows : List (List α × Bool)) :
    (hardLines blank rows).map (List.rdropWhile blank) =
      (joinRows rows).map (List.rdropWhile blank) := by
  induction rows with
  | nil => rfl
  | cons row rest ih =>
    rcases row with ⟨cells, continued⟩
    cases continued with
    | false => simp only [hardLines_hard, joinRows, List.map_cons, ih, List.rdropWhile_idempotent]
    | true => exact map_trim_prepend blank cells ih

/-- A wrapped line, read back, is the line. -/
theorem joinRows_wrapped (finished rest : List (List α × Bool)) (current : List α)
    (h : ∀ row ∈ finished, row.2 = true) :
    joinRows (finished ++ (current, false) :: rest) =
      ((finished.map Prod.fst).flatten ++ current) :: joinRows rest := by
  induction finished with
  | nil => rfl
  | cons row finished ih =>
    rcases row with ⟨cells, continued⟩
    obtain rfl : continued = true := h (cells, continued) (by simp)
    rw [List.cons_append, joinRows, ih fun r hr => h r (List.mem_cons_of_mem _ hr)]
    simp [prepend]

namespace Writer

/-- Everything written is in the rows, in order, and the rows that were filled go on. -/
theorem write_cells (width : Nat) (cells : List α) (s : Writer α)
    (h : ∀ row ∈ s.finished, row.2 = true) :
    (∀ row ∈ (s.write width cells).finished, row.2 = true) ∧
      ((s.write width cells).finished.map Prod.fst).flatten ++ (s.write width cells).current =
        (s.finished.map Prod.fst).flatten ++ s.current ++ cells := by
  induction cells generalizing s with
  | nil => exact ⟨h, by simp⟩
  | cons cell rest ih =>
    have flags : ∀ row ∈ (put width s cell).finished, row.2 = true := by
      unfold put
      split
      · exact h
      · intro row hrow
        rcases List.mem_append.1 hrow with old | new
        · exact h row old
        · rw [List.mem_singleton.1 new]
    obtain ⟨later, cellsEq⟩ := ih (put width s cell) flags
    refine ⟨later, cellsEq.trans ?_⟩
    unfold put
    split <;> simp [extend, breakRow]

end Writer

theorem joinRows_wrapLines (width : Nat) (lines : List (List α)) :
    joinRows (wrapLines width lines) = lines := by
  induction lines with
  | nil => rfl
  | cons line lines ih =>
    obtain ⟨flags, cellsEq⟩ := Writer.write_cells width line {} (by simp)
    rw [wrapLines_cons, wrapLine, Writer.rows, List.append_assoc, List.singleton_append,
      joinRows_wrapped _ _ _ flags, ih, cellsEq]
    simp

/-- A row at the very end ends its line whatever its flag says. -/
theorem joinRows_concat (rows : List (List α × Bool)) (cells : List α) (continued : Bool) :
    joinRows (rows ++ [(cells, continued)]) = joinRows (rows ++ [(cells, false)]) := by
  induction rows with
  | nil => cases continued <;> rfl
  | cons row rest ih =>
    rcases row with ⟨first, flag⟩
    cases flag <;> simp only [List.cons_append, joinRows, ih]

theorem prepend_append_right (cells : List α) {lines : List (List α)} (h : lines ≠ [])
    (more : List (List α)) : prepend cells (lines ++ more) = prepend cells lines ++ more := by
  cases lines with
  | nil => exact absurd rfl h
  | cons line lines => rfl

/-- A hard end separates the lines before it from those after it. -/
theorem joinRows_hard (rows rest : List (List α × Bool)) (cells : List α) :
    joinRows (rows ++ (cells, false) :: rest) =
      joinRows (rows ++ [(cells, false)]) ++ joinRows rest := by
  induction rows with
  | nil => rfl
  | cons row rows ih =>
    rcases row with ⟨first, flag⟩
    cases flag with
    | false => simp only [List.cons_append, joinRows, ih]
    | true =>
      rw [List.cons_append, joinRows, ih]
      exact prepend_append_right first (joinRows_ne_nil (by simp)) _

/-- The row after a row that goes on belongs to the same line. -/
theorem joinRows_continued (rows : List (List α × Bool)) (first second : List α) :
    joinRows (rows ++ [(first, true), (second, false)]) =
      joinRows (rows ++ [(first ++ second, false)]) := by
  induction rows with
  | nil => rfl
  | cons row rows ih =>
    rcases row with ⟨cells, flag⟩
    cases flag <;> simp only [List.cons_append, joinRows, ih]

theorem joinRows_last (rows : List (List α × Bool)) (cells : List α) :
    ∃ lines before, joinRows (rows ++ [(cells, false)]) = lines ++ [before ++ cells] := by
  induction rows with
  | nil => exact ⟨[], [], rfl⟩
  | cons row rows ih =>
    obtain ⟨lines, before, linesEq⟩ := ih
    rcases row with ⟨first, flag⟩
    cases flag with
    | false => exact ⟨first :: lines, before, by rw [List.cons_append, joinRows, linesEq]; rfl⟩
    | true =>
      rw [List.cons_append, joinRows, linesEq]
      cases lines with
      | nil => exact ⟨[], first ++ before, by simp [prepend]⟩
      | cons line lines => exact ⟨(first ++ line) :: lines, before, rfl⟩

/-- When the last line has content, the blank rows after the content change no trimmed line.  The
induction is on the rows from the last one back; a blank last row can only continue the row
before it. -/
theorem map_trim_contentRows (blank : α → Bool) (rows : List (List α × Bool))
    {lines : List (List α)} {line : List α} (hline : line ≠ [])
    (h : (joinRows rows).map (List.rdropWhile blank) = lines ++ [line]) :
    (joinRows (contentRows blank rows)).map (List.rdropWhile blank) = lines ++ [line] := by
  induction rows using List.reverseRecOn with
  | nil => simpa [contentRows] using h
  | append_singleton rows row ih =>
    rcases row with ⟨cells, continued⟩
    by_cases content : cells.all blank = true
    · have dropped : contentRows blank (rows ++ [(cells, continued)]) = contentRows blank rows :=
        List.rdropWhile_concat_pos _ rows _ content
      rw [dropped]
      refine ih ?_
      rw [joinRows_concat] at h
      have cellsBlank : ∀ cell ∈ cells, blank cell = true := by simpa using content
      have trimmed : cells.rdropWhile blank = [] := List.rdropWhile_eq_nil_iff.2 cellsBlank
      rcases List.eq_nil_or_concat rows with rfl | ⟨before, ⟨last, flag⟩, rfl⟩
      · have single := congrArg List.getLast? h
        simp [joinRows, trimmed] at single
        exact (hline single).elim
      · rw [List.concat_eq_append] at h ⊢
        cases flag with
        | false =>
          rw [List.append_assoc, List.singleton_append, joinRows_hard] at h
          have final := congrArg List.getLast? h
          simp [joinRows, trimmed] at final
          exact (hline final).elim
        | true =>
          rw [List.append_assoc, List.singleton_append, joinRows_continued] at h
          rw [joinRows_concat, ← h]
          refine (map_trim_joinRows blank ?_).symm
          refine List.rel_append (forall₂_pads_refl blank before) ?_
          exact .cons ⟨cells, rfl, cellsBlank, rfl, by simp⟩ .nil
    · have kept : contentRows blank (rows ++ [(cells, continued)]) =
          rows ++ [(cells, continued)] := List.rdropWhile_concat_neg _ rows _ content
      rw [kept]
      exact h

/-- What the writer laid down has the logical lines of the rows it was given, when the last of
these has content. -/
theorem logicalLines_of_pads (width : Nat) (blank : α → Bool) {rows : List (List α × Bool)}
    {last : List α × Bool} (content : last.1.all blank = false)
    {laid written : List (List α × Bool)} {cells : List α} (flag : Bool)
    (h : List.Forall₂ (Pads blank) (laid ++ [(cells, false)]) written)
    (hwritten : List.Forall₂ (Pads blank) written
      (wrapLines width (hardLines blank (rows ++ [last])))) :
    logicalLines blank (laid ++ [(cells, flag)]) = logicalLines blank (rows ++ [last]) := by
  have same : (joinRows (laid ++ [(cells, flag)])).map (List.rdropWhile blank) =
      (joinRows (rows ++ [last])).map (List.rdropWhile blank) := by
    rw [joinRows_concat, map_trim_joinRows blank h, map_trim_joinRows blank hwritten,
      joinRows_wrapLines, map_trim_hardLines]
  obtain ⟨lines, before, linesEq⟩ := joinRows_last rows last.1
  have endsEq : (joinRows (rows ++ [last])).map (List.rdropWhile blank) =
      lines.map (List.rdropWhile blank) ++ [(before ++ last.1).rdropWhile blank] := by
    rw [joinRows_concat rows last.1 last.2, linesEq]
    simp
  have nonempty : (before ++ last.1).rdropWhile blank ≠ [] := by
    intro empty
    rw [List.rdropWhile_eq_nil_iff] at empty
    have all : last.1.all blank = true := by
      simpa using fun cell hcell => empty cell (List.mem_append_right before hcell)
    simp [all] at content
  unfold logicalLines
  rw [map_trim_contentRows blank _ nonempty endsEq,
    map_trim_contentRows blank _ nonempty (same.trans endsEq)]

/-! ### Wrapping rows at the width they have -/

theorem wrapLine_short {width : Nat} {line : List α} (h : line.length ≤ width) :
    wrapLine width line = [(line, false)] := by
  rw [wrapLine, Writer.write_fits _ _ (by simpa using h)]
  simp [Writer.rows, Writer.extend]

/-- A full row in front of a line becomes a row of its own. -/
theorem wrapLine_full {width : Nat} (hwidth : 0 < width) {cells line : List α}
    (hcells : cells.length = width) (hline : line ≠ []) :
    wrapLine width (cells ++ line) = (cells, true) :: wrapLine width line := by
  have first : ({} : Writer α).write width cells = { current := cells } :=
    Writer.write_fits {} cells (by simp [hcells])
  have moved := Writer.write_finished width ({} : Writer α) [(cells, true)] line
  rw [List.append_nil] at moved
  rw [wrapLine, Writer.write_append, first, Writer.write_full _ hline hwidth hcells.ge]
  change (Writer.write width { finished := [(cells, true)] } line).rows = _
  rw [moved]
  rfl

theorem wrapLines_prepend {width : Nat} (hwidth : 0 < width) {cells line : List α}
    (hcells : cells.length = width) (hline : line ≠ []) (lines : List (List α)) :
    wrapLines width (prepend cells (line :: lines)) =
      (cells, true) :: wrapLines width (line :: lines) := by
  rw [prepend, wrapLines_cons, wrapLine_full hwidth hcells hline]
  rfl

theorem wrapLines_prepend_nil {width : Nat} {cells : List α} (hcells : cells.length = width)
    (lines : List (List α)) :
    wrapLines width (prepend cells ([] :: lines)) = (cells, false) :: wrapLines width lines := by
  rw [prepend, wrapLines_cons, List.append_nil, wrapLine_short hcells.le]
  rfl

/-- No row that goes on is followed by a blank row that ends the line. -/
def NoBlankTail (blank : α → Bool) (rows : List (List α × Bool)) : Prop :=
  rows.IsChain fun row next => ¬ (row.2 = true ∧ next.2 = false ∧ next.1.all blank = true)

instance (blank : α → Bool) [DecidableEq α] : DecidablePred (NoBlankTail blank) := by
  intro rows
  unfold NoBlankTail
  infer_instance

/-- The first line of some rows is empty only when the first row is blank and ends it. -/
theorem hardLines_head (blank : α → Bool) {width : Nat} (hwidth : 0 < width)
    {row : List α × Bool} (hrow : row.1.length = width) (rest : List (List α × Bool)) :
    ∃ line lines, hardLines blank (row :: rest) = line :: lines ∧
      (line = [] ↔ row.2 = false ∧ row.1.all blank = true) := by
  rcases row with ⟨cells, continued⟩
  cases continued with
  | false => exact ⟨_, _, rfl, by simp [List.rdropWhile_eq_nil_iff]⟩
  | true =>
    have nonempty : cells ≠ [] := List.ne_nil_of_length_pos (by
      rw [hrow]
      exact hwidth)
    cases hrest : hardLines blank rest with
    | nil => exact ⟨cells, [], by simp [prepend, hrest], by simp [nonempty]⟩
    | cons line lines => exact ⟨cells ++ line, lines, by simp [prepend, hrest], by simp [nonempty]⟩

/-- Rows of the width at which they are wrapped again come out as they are, when no blank row
continues another. -/
theorem wrapLines_same_width (blank : α → Bool) {width : Nat} (hwidth : 0 < width)
    {rows : List (List α × Bool)} (hrows : ∀ row ∈ rows, row.1.length = width)
    (chain : NoBlankTail blank rows) :
    wrapLines width (hardLines blank rows) = closeLast (rows.map (trimRow blank)) := by
  induction rows with
  | nil => rfl
  | cons row rest ih =>
    have later := ih (fun r hr => hrows r (List.mem_cons_of_mem _ hr)) chain.tail
    have hrow := hrows row (by simp)
    rcases row with ⟨cells, continued⟩
    cases continued with
    | false =>
      rw [hardLines_hard, wrapLines_cons, later,
        wrapLine_short ((List.rdropWhile_prefix blank cells).length_le.trans hrow.le)]
      cases rest <;> rfl
    | true =>
      cases rest with
      | nil =>
        rw [hardLines_wrapped, hardLines_nil, prepend, wrapLines, List.flatMap_singleton,
          wrapLine_short hrow.le]
        rfl
      | cons next rest =>
        obtain ⟨line, lines, linesEq, empty⟩ :=
          hardLines_head blank hwidth (hrows next (by simp)) rest
        have nonempty : line ≠ [] := fun h =>
          (List.isChain_cons_cons.1 chain).1 ⟨rfl, empty.1 h⟩
        rw [hardLines_wrapped, linesEq, wrapLines_prepend hwidth hrow nonempty, ← linesEq,
          later]
        rfl

/-- Wrapping again at the same width never makes more rows, and fewer when a blank row continues
another. -/
theorem wrapLines_length_le (blank : α → Bool) {width : Nat} (hwidth : 0 < width)
    {rows : List (List α × Bool)} (hrows : ∀ row ∈ rows, row.1.length = width) :
    (wrapLines width (hardLines blank rows)).length ≤ rows.length ∧
      (¬ NoBlankTail blank rows →
        (wrapLines width (hardLines blank rows)).length < rows.length) := by
  induction rows with
  | nil => exact ⟨Nat.le_refl _, fun h => absurd (by simp [NoBlankTail]) h⟩
  | cons row rest ih =>
    obtain ⟨le, lt⟩ := ih fun r hr => hrows r (List.mem_cons_of_mem _ hr)
    have hrow := hrows row (by simp)
    rcases row with ⟨cells, continued⟩
    cases continued with
    | false =>
      have lengthEq : (wrapLines width (hardLines blank ((cells, false) :: rest))).length =
          (wrapLines width (hardLines blank rest)).length + 1 := by
        rw [hardLines_hard, wrapLines_cons,
          wrapLine_short ((List.rdropWhile_prefix blank cells).length_le.trans hrow.le)]
        simp
      rw [lengthEq, List.length_cons]
      refine ⟨by omega, fun h => Nat.succ_lt_succ (lt fun chain => h ?_)⟩
      cases rest with
      | nil => simp [NoBlankTail]
      | cons next rest => exact List.isChain_cons_cons.2 ⟨by simp, chain⟩
    | true =>
      cases rest with
      | nil =>
        rw [hardLines_wrapped, hardLines_nil, prepend, wrapLines, List.flatMap_singleton,
          wrapLine_short hrow.le]
        exact ⟨Nat.le_refl _, fun h => absurd (by simp [NoBlankTail]) h⟩
      | cons next rest =>
        obtain ⟨line, lines, linesEq, empty⟩ :=
          hardLines_head blank hwidth (hrows next (by simp)) rest
        rw [linesEq] at le lt
        rw [hardLines_wrapped, linesEq]
        by_cases hline : line = []
        · subst hline
          rw [wrapLines_prepend_nil hrow]
          rw [wrapLines_cons, List.length_append, wrapLine_short (Nat.zero_le _)] at le
          simp only [List.length_cons] at le ⊢
          exact ⟨by omega, fun _ => by omega⟩
        · rw [wrapLines_prepend hwidth hrow hline, List.length_cons, List.length_cons]
          refine ⟨by omega, fun h => Nat.succ_lt_succ (lt fun chain => h ?_)⟩
          refine List.isChain_cons_cons.2 ⟨fun tail => hline (empty.2 tail.2), chain⟩

/-! ### Rows with something left behind them -/

/-- A padded row with more cells behind it shows its text exactly when these are blank. -/
theorem trimRow_append_iff (blank : α → Bool) {cells written : List α} {continued : Bool}
    (pads : Pads blank (cells, continued) (written, continued)) {behind : List α}
    (hbehind : continued = true → behind = []) :
    trimRow blank (cells ++ behind, continued) = trimRow blank (written, continued) ↔
      ∀ cell ∈ behind, blank cell = true := by
  obtain ⟨extra, cellsEq, extraBlank, -, extraNil⟩ := pads
  simp only at cellsEq
  cases continued with
  | true => simp [hbehind rfl, extraNil rfl, cellsEq, trimRow]
  | false =>
    simp only [trimRow, Prod.mk.injEq, and_true]
    constructor
    · intro same cell hcell
      by_contra marked
      -- a cell with content behind the text would be part of the trimmed row
      have kept := List.rdropWhile_append_rtakeWhile (p := blank) (l := cells ++ behind)
      rw [same] at kept
      have short := (List.rdropWhile_prefix blank written).length_le
      have reach : ∀ c ∈ (cells ++ behind).rtakeWhile blank, blank c = true :=
        fun c hc => List.mem_rtakeWhile_imp hc
      have inTail : cell ∈ (cells ++ behind).rtakeWhile blank := by
        have suffix : behind <:+ (cells ++ behind).rtakeWhile blank := by
          refine List.suffix_of_suffix_length_le (List.suffix_append cells behind)
            (List.rtakeWhile_suffix blank _) ?_
          have total := congrArg List.length kept
          simp only [List.length_append, cellsEq] at total short ⊢
          omega
        exact suffix.subset hcell
      exact marked (reach cell inTail)
    · intro allBlank
      rw [rdropWhile_append_blank blank cells _ allBlank, cellsEq,
        rdropWhile_append_blank blank written _ extraBlank]

end Reflow
