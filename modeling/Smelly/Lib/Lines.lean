/-
Module: Smelly.Lib.Lines
Purpose: Lines and the text they make up, with a separator between them or behind each of them.
Trusted boundary: none
-/
import Mathlib.Data.List.Basic
import Mathlib.Algebra.BigOperators.Group.List.Basic

namespace Smelly

namespace Lines

variable {α : Type*} {sep : α} {lines more : List (List α)}

/-- The lines with the separator behind each of them. -/
def terminated (sep : α) (lines : List (List α)) : List α := lines.flatMap fun line => line ++ [sep]

@[simp] theorem terminated_nil : terminated sep [] = [] := rfl

@[simp] theorem terminated_cons (line : List α) :
    terminated sep (line :: lines) = line ++ sep :: terminated sep lines := by
  rw [terminated, terminated, List.flatMap_cons, List.append_assoc]
  rfl

@[simp] theorem terminated_append :
    terminated sep (lines ++ more) = terminated sep lines ++ terminated sep more :=
  List.flatMap_append

/-- With one more separator behind them, lines with separators between them are terminated. -/
theorem intercalate_append_sep (filled : lines ≠ []) :
    [sep].intercalate lines ++ [sep] = terminated sep lines := by
  induction lines with
  | nil => exact absurd rfl filled
  | cons line rest ih =>
    cases rest with
    | nil =>
      rw [List.intercalate_singleton, terminated_cons]
      rfl
    | cons next rest =>
      have later := ih (List.cons_ne_nil next rest)
      rw [List.intercalate_cons_cons, terminated_cons, ← later, List.append_assoc,
        List.append_assoc]
      rfl

theorem terminated_splitOn [BEq α] [LawfulBEq α] (text : List α) :
    terminated sep (text.splitOn sep) = text ++ [sep] := by
  rw [← intercalate_append_sep (List.splitOn_ne_nil sep text), List.intercalate_splitOn]

/-- A line that is started before the others. -/
theorem terminated_front (front line : List α) :
    terminated sep ((front ++ line) :: lines) = front ++ terminated sep (line :: lines) := by
  rw [terminated_cons, terminated_cons, List.append_assoc]

end Lines

end Smelly
