/-
Module: Smelly.Lib.Segment
Purpose: Operations on a contiguous segment of a list, and the in-place loops that implement
  them: scrolling a segment by one, and opening or closing a gap of `n` cells in it.
Trusted boundary: none
-/
import Mathlib.Data.List.Rotate
import Smelly.Lib.Checked

namespace Segment

open Checked

variable {α β γ : Type}

/-- Apply `change` to the cells `lo, …, hi - 1` and keep the others. -/
def on (lo hi : Nat) (change : List α → List α) (cells : List α) : List α :=
  cells.take lo ++ change ((cells.drop lo).take (hi - lo)) ++ cells.drop hi

/-- Insert `n` fresh cells at the front and drop what no longer fits. -/
def openGap (n : Nat) (fresh : α) (cells : List α) : List α :=
  List.replicate (min n cells.length) fresh ++ cells.take (cells.length - n)

/-- Drop `n` cells at the front and fill up with fresh cells. -/
def closeGap (n : Nat) (fresh : α) (cells : List α) : List α :=
  cells.drop n ++ List.replicate (min n cells.length) fresh

/-! ### Splitting a list at a segment -/

theorem exists_split (cells : List α) (lo n : Nat) (h : lo + n ≤ cells.length) :
    ∃ before middle after, cells = before ++ (middle ++ after) ∧ before.length = lo ∧
      middle.length = n := by
  refine ⟨cells.take lo, (cells.drop lo).take n, (cells.drop lo).drop n, ?_, ?_, ?_⟩
  · rw [List.take_append_drop, List.take_append_drop]
  · simp only [List.length_take]
    omega
  · simp only [List.length_take, List.length_drop]
    omega

theorem on_append (before middle after : List α) (change : List α → List α) :
    on before.length (before.length + middle.length) change (before ++ (middle ++ after)) =
      before ++ (change middle ++ after) := by
  simp [on]

/-- A segment that is all of the cells. -/
theorem on_whole (cells : List α) (change : List α → List α) {n : Nat} (h : cells.length ≤ n) :
    on 0 n change cells = change cells := by
  rw [on, List.take_zero, List.drop_zero, List.nil_append, Nat.sub_zero,
    List.take_of_length_le h, List.drop_of_length_le h, List.append_nil]

/-- A segment at the front. -/
theorem on_front (front after : List α) (change : List α → List α) {n : Nat}
    (h : front.length = n) : on 0 n change (front ++ after) = change front ++ after := by
  rw [on, List.take_zero, List.drop_zero, List.nil_append, Nat.sub_zero, List.take_left' h,
    List.drop_left' h]

theorem on_length (lo hi : Nat) (change : List α → List α) (cells : List α)
    (h : ∀ s : List α, (change s).length = s.length) (hle : lo ≤ hi) :
    (on lo hi change cells).length = cells.length := by
  simp only [on, List.length_append, h, List.length_take, List.length_drop]
  omega

/-- A segment and what surrounds it. -/
theorem split_at (cells : List α) {lo hi : Nat} (hle : lo ≤ hi) :
    cells.take lo ++ (cells.drop lo).take (hi - lo) ++ cells.drop hi = cells := by
  have tail : cells.drop hi = (cells.drop lo).drop (hi - lo) := by
    rw [List.drop_drop]
    congr 1
    omega
  rw [tail, List.append_assoc, List.take_append_drop, List.take_append_drop]

theorem on_perm (lo hi : Nat) (change : List α → List α) (cells : List α)
    (h : ∀ s : List α, (change s).Perm s) (hle : lo ≤ hi) : (on lo hi change cells).Perm cells := by
  have middle := ((h ((cells.drop lo).take (hi - lo))).append_left (cells.take lo)).append_right
    (cells.drop hi)
  rwa [split_at cells hle] at middle

/-- A change that fixes lists of length one fixes a segment of length one. -/
theorem on_singleton (lo : Nat) (change : List α → List α) (cells : List α)
    (h : ∀ s : List α, s.length ≤ 1 → change s = s) : on lo (lo + 1) change cells = cells := by
  unfold on
  rw [h _ (by simp only [List.length_take]; omega), split_at cells (Nat.le_succ lo)]

theorem on_openGap_zero (lo hi : Nat) (fresh : α) (cells : List α) (hle : lo ≤ hi) :
    on lo hi (openGap 0 fresh) cells = cells := by
  simp only [on, openGap, Nat.zero_min, List.replicate_zero, List.nil_append, Nat.sub_zero,
    List.take_length]
  exact split_at cells hle

theorem on_closeGap_zero (lo hi : Nat) (fresh : α) (cells : List α) (hle : lo ≤ hi) :
    on lo hi (closeGap 0 fresh) cells = cells := by
  simp only [on, closeGap, Nat.zero_min, List.replicate_zero, List.append_nil, List.drop_zero]
  exact split_at cells hle

/-- `openGap` on a segment in terms of the whole list. -/
theorem on_openGap (lo hi num n : Nat) (fresh : α) (cells : List α) (hle : lo ≤ hi)
    (hhi : hi ≤ cells.length) (hn : n = min (hi - lo) num) :
    on lo hi (openGap num fresh) cells =
      cells.take lo ++ List.replicate n fresh ++
        ((cells.drop lo).take (hi - (lo + n)) ++ cells.drop hi) := by
  have length : ((cells.drop lo).take (hi - lo)).length = hi - lo := by
    simp only [List.length_take, List.length_drop]
    omega
  have kept : ((cells.drop lo).take (hi - lo)).take (hi - lo - num) =
      (cells.drop lo).take (hi - (lo + n)) := by
    rw [List.take_take]
    congr 1
    omega
  unfold on openGap
  rw [length, kept, Nat.min_comm num, ← hn]
  simp

/-- `closeGap` on a segment in terms of the whole list. -/
theorem on_closeGap (lo hi num n : Nat) (fresh : α) (cells : List α) (hle : lo ≤ hi)
    (hhi : hi ≤ cells.length) (hn : n = min (hi - lo) num) :
    on lo hi (closeGap num fresh) cells =
      cells.take lo ++ (cells.drop (lo + n)).take (hi - (lo + n)) ++
        (List.replicate n fresh ++ cells.drop hi) := by
  have length : ((cells.drop lo).take (hi - lo)).length = hi - lo := by
    simp only [List.length_take, List.length_drop]
    omega
  have kept : ((cells.drop lo).take (hi - lo)).drop num =
      (cells.drop (lo + n)).take (hi - (lo + n)) := by
    rcases Nat.le_total num (hi - lo) with h | h
    · rw [List.drop_take, List.drop_drop]
      congr 1
      · omega
      · congr 1
        omega
    · rw [List.drop_eq_nil_of_le (by omega), show hi - (lo + n) = 0 by omega, List.take_zero]
  unfold on closeGap
  rw [length, kept, Nat.min_comm num, ← hn]
  simp

/-- What lies inside and around a block of known size. -/
theorem take_block {before block after : List α} {lo : Nat} (h : before.length = lo) :
    (before ++ block ++ after).take lo = before := by
  rw [List.append_assoc, List.take_left' h]

theorem drop_block {before block after : List α} {lo : Nat}
    (h : before.length + block.length = lo) : (before ++ block ++ after).drop lo = after := by
  rw [List.drop_left' (by simpa using h)]

theorem middle_block {before block after : List α} {lo n : Nat} (h : before.length = lo)
    (h' : block.length = n) : ((before ++ block ++ after).drop lo).take n = block := by
  rw [List.append_assoc, List.drop_left' h, List.take_left' h']

/-! ### Segments of images and of zipped lists -/

theorem map_on (f : α → β) (lo hi : Nat) (change : List α → List α) (change' : List β → List β)
    (natural : ∀ s : List α, (change s).map f = change' (s.map f)) (cells : List α) :
    (on lo hi change cells).map f = on lo hi change' (cells.map f) := by
  simp [on, natural, List.map_take, List.map_drop]

theorem zipWith_on (f : α → β → γ) (lo hi : Nat) (left : List α → List α)
    (right : List β → List β) (both : List γ → List γ)
    (leftLength : ∀ s : List α, (left s).length = s.length)
    (rightLength : ∀ s : List β, (right s).length = s.length)
    (natural : ∀ (s : List α) (t : List β), s.length = t.length →
      List.zipWith f (left s) (right t) = both (List.zipWith f s t))
    (xs : List α) (ys : List β) (h : xs.length = ys.length) :
    List.zipWith f (on lo hi left xs) (on lo hi right ys) =
      on lo hi both (List.zipWith f xs ys) := by
  have segmentLength : ((xs.drop lo).take (hi - lo)).length = ((ys.drop lo).take (hi - lo)).length := by
    simp [h]
  unfold on
  rw [List.zipWith_append, List.zipWith_append, natural _ _ segmentLength]
  · simp [List.take_zipWith, List.drop_zipWith]
  · simp [h]
  · rw [List.length_append, List.length_append, leftLength, rightLength, segmentLength]
    simp [h]

/-! ### The loops -/

/-- Move the cells above `lo` down by one and put the old `lo` at `hi`. -/
theorem scrollUp_loop (cells : List α) (lo hi : Nat) (h : lo ≤ hi) (hhi : hi < cells.length)
    {value : α} (hvalue : cells[lo]? = some value) :
    ∃ moved, forUp lo (hi - lo) (fun i s => moveAt s i (i + 1)) cells = some moved ∧
      moved.length = cells.length ∧
      setAt moved hi value = some (on lo (hi + 1) (·.rotate 1) cells) := by
  refine ⟨_, forUp_moveAt cells lo (hi - lo) 1 (by omega), ?_, ?_⟩
  · simp only [List.length_append, List.length_take, List.length_drop]
    omega
  · obtain ⟨before, middle, after, rfl, rfl, hmiddle⟩ :=
      exists_split cells lo (hi + 1 - lo) (by omega)
    obtain ⟨first, rest, rfl⟩ : ∃ first rest, middle = first :: rest :=
      List.exists_cons_of_length_pos (by omega)
    simp only [List.length_cons] at hmiddle
    have hhi' : hi = before.length + rest.length := by omega
    have hsegment : hi + 1 = before.length + (first :: rest).length := by
      simp only [List.length_cons]
      omega
    have hfirst : first = value := by simpa using hvalue
    subst hfirst
    rw [hsegment, on_append, setAt, if_pos]
    · congr 1
      apply List.ext_getElem?
      intro j
      simp only [List.rotate_cons_succ, List.rotate_zero, List.getElem?_set, List.getElem?_append,
        List.getElem?_take, List.getElem?_drop, List.length_append, List.length_take,
        List.length_drop, List.length_cons, List.getElem?_cons, hhi']
      grind
    · simp only [List.length_append, List.length_take, List.length_drop, List.length_cons]
      omega

/-- Move the cells below `hi` up by one and put the old `hi` at `lo`. -/
theorem scrollDown_loop (cells : List α) (lo hi : Nat) (h : lo ≤ hi) (hhi : hi < cells.length)
    {value : α} (hvalue : cells[hi]? = some value) :
    ∃ moved, forDown (lo + 1) (hi - lo) (fun i s => moveAt s i (i - 1)) cells = some moved ∧
      moved.length = cells.length ∧
      setAt moved lo value =
        some (on lo (hi + 1) (fun s => s.rotate (s.length - 1)) cells) := by
  refine ⟨_, forDown_moveAt cells (lo + 1) (hi - lo) 1 (by omega) (by omega), ?_, ?_⟩
  · simp only [List.length_append, List.length_take, List.length_drop]
    omega
  · obtain ⟨before, middle, after, rfl, rfl, hmiddle⟩ :=
      exists_split cells lo (hi + 1 - lo) (by omega)
    obtain ⟨rest, last, rfl⟩ : ∃ rest last, middle = rest ++ [last] := by
      have hne : middle ≠ [] := by
        intro hnil
        simp [hnil] at hmiddle
        omega
      exact ⟨middle.dropLast, middle.getLast hne, (List.dropLast_append_getLast hne).symm⟩
    simp only [List.length_append, List.length_cons, List.length_nil] at hmiddle
    have hhi' : hi = before.length + rest.length := by omega
    have hsegment : hi + 1 = before.length + (rest ++ [last]).length := by
      simp only [List.length_append, List.length_cons, List.length_nil]
      omega
    have hlast : last = value := by simpa [hhi'] using hvalue
    have hrotate : (rest ++ [last]).rotate ((rest ++ [last]).length - 1) = last :: rest := by
      simp [List.rotate_append_length_eq]
    subst hlast
    rw [hsegment, on_append, hrotate, setAt, if_pos]
    · congr 1
      apply List.ext_getElem?
      intro j
      simp only [List.getElem?_set, List.getElem?_append, List.getElem?_take, List.getElem?_drop,
        List.length_append, List.length_take, List.length_drop, List.length_cons, List.length_nil,
        List.getElem?_cons, hhi']
      grind
    · simp only [List.length_append, List.length_take, List.length_drop, List.length_cons,
        List.length_nil]
      omega

/-- Bring the last `n` cells to the front. -/
def lastToFront (n : Nat) (cells : List α) : List α :=
  cells.drop (cells.length - n) ++ cells.take (cells.length - n)

/-- Bring the first `n` cells to the back. -/
def firstToBack (n : Nat) (cells : List α) : List α :=
  cells.drop n ++ cells.take n

theorem lastToFront_perm (n : Nat) (cells : List α) : (lastToFront n cells).Perm cells := by
  have swap : (lastToFront n cells).Perm
      (cells.take (cells.length - n) ++ cells.drop (cells.length - n)) := List.perm_append_comm
  rwa [List.take_append_drop] at swap

theorem firstToBack_perm (n : Nat) (cells : List α) : (firstToBack n cells).Perm cells := by
  have swap : (firstToBack n cells).Perm (cells.take n ++ cells.drop n) := List.perm_append_comm
  rwa [List.take_append_drop] at swap

/-- Moving a segment up by `n` and storing its saved last `n` cells in the gap rotates the
segment. -/
theorem openGap_cells (cells : List α) (lo hi n : Nat) (h : lo + n ≤ hi)
    (hhi : hi ≤ cells.length) {moved : List α}
    (hmoved : moved = cells.take (lo + n) ++ (cells.drop lo).take (hi - (lo + n)) ++
      cells.drop hi) :
    moved.take lo ++ (cells.drop (hi - n)).take n ++ moved.drop (lo + n) =
      on lo hi (lastToFront n) cells := by
  subst hmoved
  have front : min (lo + n) cells.length = lo + n := by omega
  have block : min (hi - (lo + n)) (cells.length - lo) = hi - (lo + n) := by omega
  have outer : min lo (lo + n + (hi - (lo + n) + (cells.length - hi))) = lo := by omega
  have gap : min n (cells.length - (hi - n)) = n := by omega
  have before : min lo cells.length = lo := by omega
  have segment : min (hi - lo) (cells.length - lo) = hi - lo := by omega
  apply List.ext_getElem?
  intro j
  simp only [on, lastToFront, List.append_assoc, List.getElem?_append, List.length_take,
    List.length_drop, List.length_append, List.getElem?_take, List.getElem?_drop, front, block,
    outer, gap, before, segment]
  grind

/-- Moving a segment down by `n` and storing its saved first `n` cells behind it rotates the
segment; what the move left beyond `hi - n` is overwritten. -/
theorem closeGap_cells (cells : List α) (lo hi n count : Nat) (h : lo + n ≤ hi)
    (hhi : hi ≤ cells.length) (hcount : hi - (lo + n) ≤ count) (hcount' : lo + count ≤ hi)
    (hfit : lo + n + count ≤ cells.length) {moved : List α}
    (hmoved : moved = cells.take lo ++ (cells.drop (lo + n)).take count ++
      cells.drop (lo + count)) :
    moved.take (hi - n) ++ (cells.drop lo).take n ++ moved.drop hi =
      on lo hi (firstToBack n) cells := by
  subst hmoved
  have block : min count (cells.length - (lo + n)) = count := by omega
  have outer : min (hi - n) (lo + (count + (cells.length - (lo + count)))) = hi - n := by omega
  have gap : min n (cells.length - lo) = n := by omega
  have inner : min n (hi - lo) = n := by omega
  have before : min lo cells.length = lo := by omega
  have segment : min (hi - lo) (cells.length - lo) = hi - lo := by omega
  apply List.ext_getElem?
  intro j
  simp only [on, firstToBack, List.append_assoc, List.getElem?_append, List.length_take,
    List.length_drop, List.length_append, List.getElem?_take, List.getElem?_drop, block,
    outer, gap, inner, before, segment]
  by_cases hj : j < hi
  · grind
  · rw [if_neg (by omega), if_neg (by omega), if_neg (by omega), if_neg (by omega),
      if_neg (by omega), if_neg (by omega), if_neg (by omega)]
    congr 1
    omega

end Segment
