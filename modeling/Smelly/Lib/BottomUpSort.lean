/-
Module: Smelly.Lib.BottomUpSort
Purpose: The bottom-up merge sort of linked lists: passes that merge adjacent runs of doubling
  size.  The comparison need not be an order; the result is then only a rearrangement.  Where it
  compares keys of a linear order, the result is sorted by them.
Trusted boundary: none
-/
import Mathlib.Data.List.Basic
import Mathlib.Data.List.Sort
import Mathlib.Order.Defs.LinearOrder
import Mathlib.Algebra.Ring.Nat

namespace BottomUpSort

variable {α : Type} (le : α → α → Bool)

/-- Take cells from the second list until `first` does not compare above the next one; then go on
with `mergeRest`. -/
def mergeFrom (first : α) (mergeRest : List α → List α) : List α → List α
  | [] => first :: mergeRest []
  | y :: ys =>
    if le first y then first :: mergeRest (y :: ys) else y :: mergeFrom first mergeRest ys

/-- Merge two runs, taking from the first one where the comparison allows it. -/
def merge : List α → List α → List α
  | [], ys => ys
  | x :: xs, ys => mergeFrom le x (merge xs) ys

/-- Merge adjacent runs of `size` cells pairwise; `fuel` bounds the number of merges. -/
def pass (size : Nat) : (fuel : Nat) → List α → List α
  | 0, cells => cells
  | fuel + 1, cells =>
    if cells = [] then []
    else merge le (cells.take size) ((cells.drop size).take size) ++
      pass size fuel (cells.drop (2 * size))

/-- Passes with doubling run size, until one pass needs a single merge. -/
def passes : (fuel size : Nat) → List α → List α
  | 0, _, cells => cells
  | fuel + 1, size, cells =>
    let merged := pass le size cells.length cells
    if cells.length ≤ 2 * size then merged else passes fuel (2 * size) merged

/-- The whole sort, starting with runs of one cell. -/
def sort (cells : List α) : List α := passes le cells.length 1 cells

variable {le}

/-- Unlike the merge of the library, this one is evaluated by structural recursion. -/
theorem merge_eq (xs ys : List α) : merge le xs ys = xs.merge ys le := by
  induction xs generalizing ys with
  | nil => simp [merge]
  | cons x xs ihx =>
    induction ys with
    | nil => simp [merge, mergeFrom, ihx]
    | cons y ys ihy =>
      have second : merge le (x :: xs) ys = mergeFrom le x (merge le xs) ys := rfl
      rw [List.cons_merge_cons, ← ihx, ← ihy, second]
      rfl

theorem merge_perm (xs ys : List α) : (merge le xs ys).Perm (xs ++ ys) := by
  rw [merge_eq]
  exact List.merge_perm_append le

theorem pass_perm (size fuel : Nat) (cells : List α) : (pass le size fuel cells).Perm cells := by
  induction fuel generalizing cells with
  | zero => exact List.Perm.refl _
  | succ fuel ih =>
    unfold pass
    split
    · rename_i hnil
      rw [hnil]
    · have merged : (merge le (cells.take size) ((cells.drop size).take size)).Perm
          (cells.take size ++ (cells.drop size).take size) := merge_perm _ _
      have rest := ih (cells.drop (2 * size))
      refine (merged.append rest).trans (List.Perm.of_eq ?_)
      rw [List.append_assoc, Nat.two_mul, ← List.drop_drop, List.take_append_drop,
        List.take_append_drop]

theorem passes_perm (fuel size : Nat) (cells : List α) : (passes le fuel size cells).Perm cells := by
  induction fuel generalizing size cells with
  | zero => exact List.Perm.refl _
  | succ fuel ih =>
    have onePass : (pass le size cells.length cells).Perm cells := pass_perm _ _ _
    simp only [passes]
    split
    · exact onePass
    · exact (ih _ _).trans onePass

/-- Whatever the comparison answers, sorting rearranges the cells. -/
theorem sort_perm (cells : List α) : (sort le cells).Perm cells := passes_perm _ _ _

/-! ### Sortedness -/

variable {κ : Type} [LinearOrder κ] {key : α → κ}

/-- On these cells the comparison is the one of their keys. -/
def ComparesKeys (le : α → α → Bool) (key : α → κ) (cells : List α) : Prop :=
  ∀ a ∈ cells, ∀ b ∈ cells, le a b = decide (key a ≤ key b)

/-- The keys do not decrease along the cells. -/
def Sorted (key : α → κ) (cells : List α) : Prop := cells.Pairwise fun a b => key a ≤ key b

theorem ComparesKeys.subset {cells other : List α} (h : ComparesKeys le key cells)
    (sub : other ⊆ cells) : ComparesKeys le key other :=
  fun a ha b hb => h a (sub ha) b (sub hb)

theorem merge_congr {le' : α → α → Bool} {xs ys : List α}
    (same : ∀ a ∈ xs, ∀ b ∈ ys, le a b = le' a b) : xs.merge ys le = xs.merge ys le' := by
  induction xs generalizing ys with
  | nil => simp
  | cons x xs ihx =>
    induction ys with
    | nil => simp
    | cons y ys ihy =>
      have left : xs.merge (y :: ys) le = xs.merge (y :: ys) le' := ihx fun a ha b hb =>
        same a (List.mem_cons_of_mem _ ha) b hb
      have right := ihy fun a ha b hb => same a ha b (List.mem_cons_of_mem _ hb)
      rw [List.cons_merge_cons, List.cons_merge_cons, left, right, same x (by simp) y (by simp)]

theorem merge_sorted {xs ys : List α} (compares : ComparesKeys le key (xs ++ ys))
    (first : Sorted key xs) (second : Sorted key ys) : Sorted key (merge le xs ys) := by
  have byKeys : xs.merge ys le = xs.merge ys (fun a b => decide (key a ≤ key b)) :=
    merge_congr fun a ha b hb =>
      compares a (List.mem_append_left _ ha) b (List.mem_append_right _ hb)
  have merged : (xs.merge ys fun a b => decide (key a ≤ key b)).Pairwise
      fun a b => decide (key a ≤ key b) = true := List.pairwise_merge
    (fun a b c hab hbc => by
      simp only [decide_eq_true_eq] at hab hbc ⊢
      exact le_trans hab hbc)
    (fun a b => by simpa using le_total (key a) (key b)) xs ys
    (first.imp fun h => by simpa using h) (second.imp fun h => by simpa using h)
  rw [merge_eq, byKeys]
  exact merged.imp fun h => by simpa using h

/-- Every run of `size` cells is sorted. -/
def SortedRuns (key : α → κ) (size : Nat) (cells : List α) : Prop :=
  ∀ i, Sorted key ((cells.drop (i * size)).take size)

theorem SortedRuns.drop {size : Nat} {cells : List α} (h : SortedRuns key size cells) (n : Nat) :
    SortedRuns key size (cells.drop (n * size)) := by
  intro i
  have run := h (n + i)
  rwa [Nat.add_mul, ← List.drop_drop] at run

/-- A pass doubles the size of the sorted runs. -/
theorem pass_sortedRuns {size fuel : Nat} {cells : List α} (compares : ComparesKeys le key cells)
    (runs : SortedRuns key size cells) (positive : 0 < size) (enough : cells.length ≤ fuel) :
    SortedRuns key (2 * size) (pass le size fuel cells) := by
  induction fuel generalizing cells with
  | zero =>
    have empty : cells = [] := List.length_eq_zero_iff.1 (by omega)
    intro i
    simp [pass, empty, Sorted]
  | succ fuel ih =>
    unfold pass
    split
    · intro i
      simp [Sorted]
    · rename_i nonempty
      have some : 0 < cells.length := List.length_pos_iff.2 nonempty
      have later : SortedRuns key (2 * size) (pass le size fuel (cells.drop (2 * size))) :=
        ih (compares.subset (List.drop_subset _ _)) (runs.drop 2)
          (by rw [List.length_drop]; omega)
      have firstRun : Sorted key (cells.take size) := by simpa using runs 0
      have secondRun : Sorted key ((cells.drop size).take size) := by simpa using runs 1
      have within : cells.take size ++ (cells.drop size).take size ⊆ cells := by
        intro a ha
        rcases List.mem_append.1 ha with h | h
        · exact List.mem_of_mem_take h
        · exact List.mem_of_mem_drop (List.mem_of_mem_take h)
      have merged := merge_sorted (compares.subset within) firstRun secondRun
      have mergedLength : (merge le (cells.take size) ((cells.drop size).take size)).length =
          min (2 * size) cells.length := by
        rw [(merge_perm _ _).length_eq, List.length_append, List.length_take, List.length_take,
          List.length_drop]
        omega
      intro i
      cases i with
      | zero =>
        rw [Nat.zero_mul, List.drop_zero, List.take_append]
        by_cases long : 2 * size ≤ cells.length
        · rw [List.take_of_length_le (by omega), mergedLength, Nat.min_eq_left long,
            Nat.sub_self, List.take_zero, List.append_nil]
          exact merged
        · have rest : pass le size fuel (cells.drop (2 * size)) = [] :=
            List.length_eq_zero_iff.1 (by
              rw [(pass_perm size fuel _).length_eq, List.length_drop]
              omega)
          rw [rest, List.take_nil, List.append_nil, List.take_of_length_le (by omega)]
          exact merged
      | succ i =>
        by_cases long : 2 * size ≤ cells.length
        · have skip : (i + 1) * (2 * size) =
              (merge le (cells.take size) ((cells.drop size).take size)).length +
                i * (2 * size) := by
            rw [mergedLength, Nat.min_eq_left long, Nat.add_mul, Nat.one_mul, Nat.add_comm]
          rw [skip, List.drop_length_add_append]
          exact later i
        · have short : (merge le (cells.take size) ((cells.drop size).take size) ++
              pass le size fuel (cells.drop (2 * size))).length ≤ (i + 1) * (2 * size) := by
            rw [List.length_append, mergedLength, (pass_perm size fuel _).length_eq,
              List.length_drop, Nat.add_mul]
            omega
          rw [List.drop_of_length_le short]
          simp [Sorted]

theorem passes_sorted {fuel size : Nat} {cells : List α} (compares : ComparesKeys le key cells)
    (runs : SortedRuns key size cells) (positive : 0 < size)
    (enough : cells.length ≤ 2 ^ fuel * size) : Sorted key (passes le fuel size cells) := by
  induction fuel generalizing size cells with
  | zero =>
    have whole := runs 0
    rwa [Nat.zero_mul, List.drop_zero, List.take_of_length_le (by simpa using enough)] at whole
  | succ fuel ih =>
    have merged : SortedRuns key (2 * size) (pass le size cells.length cells) :=
      pass_sortedRuns compares runs positive (le_refl _)
    have sameLength : (pass le size cells.length cells).length = cells.length :=
      (pass_perm size _ _).length_eq
    simp only [passes]
    split
    · rename_i short
      have whole := merged 0
      rwa [Nat.zero_mul, List.drop_zero, List.take_of_length_le (by omega)] at whole
    · refine ih (compares.subset (pass_perm size _ _).subset) merged (by omega) ?_
      rw [sameLength, ← Nat.mul_assoc]
      rwa [Nat.pow_succ] at enough

/-- Where the comparison is the one of the keys, the cells end up sorted by them. -/
theorem sort_sorted {cells : List α} (compares : ComparesKeys le key cells) :
    Sorted key (sort le cells) := by
  refine passes_sorted compares (fun i => ?_) Nat.one_pos ?_
  · have short : ((cells.drop (i * 1)).take 1).length ≤ 1 := List.length_take_le _ _
    generalize (cells.drop (i * 1)).take 1 = run at short
    match run, short with
    | [], _ => exact List.Pairwise.nil
    | [_], _ => exact List.pairwise_singleton _ _
  · rw [Nat.mul_one]
    exact Nat.le_of_lt Nat.lt_two_pow_self

end BottomUpSort
