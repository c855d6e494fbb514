/-
Module: Smelly.Lib.Sums
Purpose: What a change to one entry of a list, or its removal, does to a sum over the list.
Trusted boundary: none
-/
import Mathlib.Algebra.BigOperators.Group.List.Basic
import Mathlib.Tactic.Abel

namespace Sums

variable {α M : Type} [AddCommMonoid M] (value : α → M)

/-- A sum after one entry has been changed. -/
theorem sum_map_modify (change : α → α) {list : List α} {i : Nat} {a : α}
    (found : list[i]? = some a) :
    ((list.modify i change).map value).sum + value a =
      (list.map value).sum + value (change a) := by
  induction list generalizing i with
  | nil => exact nomatch found
  | cons b rest ih =>
    cases i with
    | zero =>
      obtain rfl : b = a := Option.some.inj found
      simp only [List.modify_zero_cons, List.map_cons, List.sum_cons]
      abel
    | succ i =>
      have later := ih found
      simp only [List.modify_succ_cons, List.map_cons, List.sum_cons]
      rw [add_assoc, later, add_assoc]

/-- A sum after one entry has been removed. -/
theorem sum_map_eraseIdx {list : List α} {i : Nat} {a : α} (found : list[i]? = some a) :
    ((list.eraseIdx i).map value).sum + value a = (list.map value).sum := by
  induction list generalizing i with
  | nil => exact nomatch found
  | cons b rest ih =>
    cases i with
    | zero =>
      obtain rfl : b = a := Option.some.inj found
      simp only [List.eraseIdx_cons_zero, List.map_cons, List.sum_cons]
      abel
    | succ i =>
      have later := ih found
      simp only [List.eraseIdx_cons_succ, List.map_cons, List.sum_cons]
      rw [add_assoc, later]

end Sums
