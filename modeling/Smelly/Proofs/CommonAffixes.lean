/-
Module: Smelly.Proofs.CommonAffixes
Purpose: For which lists of strings the tools find the longest common prefix and suffix.
Trusted boundary: none
-/
import Smelly.Core.LongestCommon
import Smelly.Lib.Prefixes

namespace Smelly

namespace Utils

open Prefixes

/-! ### The property and the condition -/

/-- `ans` is in this relation to every item, and no longer string is. -/
structure IsLongest (affix : Bytes → Bytes → Prop) (strs : List Bytes) (ans : Bytes) : Prop where
  common : ∀ s ∈ strs, affix ans s
  longest : ∀ p, (∀ s ∈ strs, affix p s) → p.length ≤ ans.length

/-- The strings differ at a byte with an index of at most `m` that both have. -/
def DiffersBy (m : Nat) (first r : Bytes) : Prop :=
  ∃ i x y, i ≤ m ∧ first[i]? = some x ∧ r[i]? = some y ∧ x ≠ y

/-- There is an item, and no item cuts the first one off alone: one item is empty, or where an item
is only the start of the first, another differs from the first in these bytes or the next. -/
def Narrows : List Bytes → Prop
  | [] => False
  | first :: rest =>
    [] ∈ first :: rest ∨
      ∀ q ∈ rest, q <+: first → q ≠ first → ∃ r ∈ rest, DiffersBy q.length first r

/-! ### One round -/

theorem firstDifference_eq_some {maxLen i : Nat} {differ : Nat → Bool}
    (h : firstDifference maxLen differ = some i) :
    i < maxLen ∧ differ i = true ∧ ∀ j < i, differ j = false := by
  obtain ⟨found, mem, before⟩ := List.find?_range_eq_some.1 h
  refine ⟨List.mem_range.1 mem, found, fun j hj => ?_⟩
  have same := before j hj
  rwa [Bool.not_eq_true'] at same

theorem firstDifference_eq_none {maxLen : Nat} {differ : Nat → Bool}
    (h : firstDifference maxLen differ = none) {j : Nat} (hj : j < maxLen) : differ j = false := by
  have all := List.find?_eq_none.1 h j (List.mem_range.2 hj)
  rwa [Bool.not_eq_true] at all

/-- A round keeps the greatest start of the candidate that is comparable to the item. -/
theorem narrowPrefix_greatest (xfix q : Bytes) : Greatest xfix [q] (narrowPrefix xfix q) := by
  rw [narrowPrefix]
  cases found : firstDifference (min q.length xfix.length) fun i => xfix[i]? ≠ q[i]? with
  | none =>
    constructor
    · exact List.prefix_refl xfix
    · intro other mem
      rw [List.mem_singleton.1 mem]
      apply comparable_iff.2
      intro i x y hx hy
      obtain ⟨inFirst, -⟩ := List.getElem?_eq_some_iff.1 hx
      obtain ⟨inSecond, -⟩ := List.getElem?_eq_some_iff.1 hy
      have same := firstDifference_eq_none found (Nat.lt_min.2 ⟨inSecond, inFirst⟩)
      have equal : xfix[i]? = q[i]? := by simpa using same
      rw [hx, hy] at equal
      exact Option.some.inj equal
    · exact fun r front _ => front
  | some i =>
    obtain ⟨small, differs, before⟩ := firstDifference_eq_some found
    obtain ⟨inSecond, inFirst⟩ := Nat.lt_min.1 small
    constructor
    · exact List.take_prefix i xfix
    · intro other mem
      rw [List.mem_singleton.1 mem]
      apply comparable_iff.2
      intro j x y hx hy
      obtain ⟨inTake, -⟩ := List.getElem?_eq_some_iff.1 hx
      have early : j < i := Nat.lt_of_lt_of_le inTake (List.length_take_le i xfix)
      have equal : xfix[j]? = q[j]? := by simpa using before j early
      rw [List.getElem?_take_of_lt early, equal, hy] at hx
      exact (Option.some.inj hx).symm
    · intro r front all
      have comparable := all q List.mem_cons_self
      have short : r.length ≤ i := by
        by_contra long
        have inR : i < r.length := Nat.lt_of_not_le long
        have read := List.prefix_iff_getElem?.1 front i inR
        have same := comparable_iff.1 comparable i r[i] q[i] (List.getElem?_eq_getElem inR)
          (List.getElem?_eq_getElem inSecond)
        have equal : xfix[i]? = q[i]? := by
          rw [read, List.getElem?_eq_getElem inSecond, same]
        exact absurd equal (by simpa using differs)
      apply List.prefix_of_prefix_length_le front (List.take_prefix i xfix)
      rw [List.length_take]
      exact Nat.le_min.2 ⟨short, front.length_le⟩

/-- A round for a suffix is the round for a prefix, read from the other end. -/
theorem narrowSuffix_reverse (xfix q : Bytes) :
    narrowSuffix xfix q = (narrowPrefix xfix.reverse q.reverse).reverse := by
  have differ : ∀ i, i < min q.length xfix.length →
      (decide (xfix[xfix.length - i - 1]? ≠ q[q.length - i - 1]?)) =
        decide (xfix.reverse[i]? ≠ q.reverse[i]?) := by
    intro i small
    obtain ⟨inSecond, inFirst⟩ := Nat.lt_min.1 small
    rw [List.getElem?_reverse inFirst, List.getElem?_reverse inSecond]
    have reorder : ∀ n : Nat, n - i - 1 = n - 1 - i := fun n => Nat.sub_right_comm n i 1
    rw [reorder, reorder]
  have same : firstDifference (min q.length xfix.length)
        (fun i => xfix[xfix.length - i - 1]? ≠ q[q.length - i - 1]?) =
      firstDifference (min q.length xfix.length) fun i => xfix.reverse[i]? ≠ q.reverse[i]? := by
    rw [firstDifference, firstDifference, ← List.head?_filter, ← List.head?_filter]
    apply congrArg List.head?
    apply List.filter_congr
    intro i mem
    exact differ i (List.mem_range.1 mem)
  rw [narrowSuffix, narrowPrefix, List.length_reverse, List.length_reverse]
  simp only [same]
  cases found : firstDifference (min q.length xfix.length)
      fun i => xfix.reverse[i]? ≠ q.reverse[i]? with
  | none => exact (List.reverse_reverse xfix).symm
  | some i =>
    obtain ⟨small, -⟩ := firstDifference_eq_some found
    have inFirst := (Nat.lt_min.1 small).2
    have rest : xfix.length - i - 1 + 1 = xfix.length - i := by omega
    simp only [rest, List.take_reverse, List.reverse_reverse]

/-! ### All rounds -/

/-- Without an empty item the loop keeps the greatest start that is comparable to all items. -/
theorem longestCommonLoop_greatest {rest : List Bytes} (xfix : Bytes) (filled : [] ∉ rest) :
    Greatest xfix rest (longestCommonLoop true xfix rest) := by
  induction rest generalizing xfix with
  | nil =>
    exact ⟨List.prefix_refl xfix, fun q mem => absurd mem List.not_mem_nil,
      fun r front _ => front⟩
  | cons q rest ih =>
    obtain ⟨notEmpty, later⟩ := not_or.1 (mt List.mem_cons.2 filled)
    have first := narrowPrefix_greatest xfix q
    by_cases stop : min q.length xfix.length = 0
    · have qPos : 0 < q.length := List.length_pos_iff.2 (Ne.symm notEmpty)
      have empty : xfix = [] := List.length_eq_zero_iff.1 (by omega)
      rw [longestCommonLoop, if_pos stop]
      constructor
      · exact List.nil_prefix
      · exact fun other _ => comparable_nil other
      · intro r front _
        rwa [empty] at front
    · rw [longestCommonLoop, if_neg stop, if_pos rfl]
      exact first.cons (ih (narrowPrefix xfix q) later)

/-- An empty item leaves nothing. -/
theorem longestCommonLoop_empty {rest : List Bytes} (xfix : Bytes) (empty : [] ∈ rest) :
    longestCommonLoop true xfix rest = [] := by
  induction rest generalizing xfix with
  | nil => exact absurd empty List.not_mem_nil
  | cons q rest ih =>
    by_cases stop : min q.length xfix.length = 0
    · rw [longestCommonLoop, if_pos stop]
    · rw [longestCommonLoop, if_neg stop]
      cases List.mem_cons.1 empty with
      | inl same =>
        rw [← same] at stop
        exact absurd (Nat.zero_min _) stop
      | inr later => exact ih _ later

/-- The suffix is the prefix of the reversed items, reversed. -/
theorem longestCommonLoop_reverse (xfix : Bytes) (rest : List Bytes) :
    longestCommonLoop false xfix rest =
      (longestCommonLoop true xfix.reverse (rest.map List.reverse)).reverse := by
  induction rest generalizing xfix with
  | nil => exact (List.reverse_reverse xfix).symm
  | cons q rest ih =>
    rw [List.map_cons, longestCommonLoop, longestCommonLoop, List.length_reverse,
      List.length_reverse]
    split
    · rfl
    · rw [if_neg (fun h => nomatch h), if_pos rfl, ih, narrowSuffix_reverse,
        List.reverse_reverse]

theorem commonSuffix_reverse (strs : List Bytes) :
    commonSuffix strs = (commonPrefix (strs.map List.reverse)).reverse := by
  cases strs with
  | nil => rfl
  | cons xfix rest =>
    rw [commonSuffix, commonPrefix, List.map_cons, longestCommon, longestCommon]
    by_cases empty : xfix = []
    · rw [if_pos empty, if_pos (List.reverse_eq_nil_iff.2 empty)]
      rfl
    · rw [if_neg empty, if_neg (mt List.reverse_eq_nil_iff.1 empty)]
      exact longestCommonLoop_reverse xfix rest

/-! ### The longest prefix and suffix -/

/-- With an empty item the answer is empty, and right. -/
theorem commonPrefix_empty {strs : List Bytes} (empty : [] ∈ strs) :
    IsLongest (· <+: ·) strs (commonPrefix strs) := by
  have nothing : commonPrefix strs = [] := by
    cases strs with
    | nil => rfl
    | cons first rest =>
      rw [commonPrefix, longestCommon]
      split
      · rfl
      · rename_i filled
        cases List.mem_cons.1 empty with
        | inl same => exact absurd same.symm filled
        | inr later => exact longestCommonLoop_empty first later
  rw [nothing]
  constructor
  · exact fun s _ => List.nil_prefix
  · exact fun p all => (all [] empty).length_le

/-- Without an empty item the answer is the greatest start of the first item that is comparable to
the others. -/
theorem commonPrefix_greatest {first : Bytes} {rest : List Bytes} (filled : [] ∉ first :: rest) :
    Greatest first rest (commonPrefix (first :: rest)) := by
  obtain ⟨notEmpty, later⟩ := not_or.1 (mt List.mem_cons.2 filled)
  rw [commonPrefix, longestCommon, if_neg (Ne.symm notEmpty)]
  exact longestCommonLoop_greatest first later

/-- A string that is not comparable to a start of the first item differs from it there. -/
theorem differsBy_of_blocked {first s : Bytes} {n m : Nat}
    (blocked : ¬Comparable (first.take (n + 1)) s) (sized : n ≤ m) : DiffersBy m first s := by
  rw [comparable_iff] at blocked
  push Not at blocked
  obtain ⟨i, x, y, hx, hy, ne⟩ := blocked
  obtain ⟨inTake, -⟩ := List.getElem?_eq_some_iff.1 hx
  have early : i < n + 1 := Nat.lt_of_lt_of_le inTake (List.length_take_le _ first)
  rw [List.getElem?_take_of_lt early] at hx
  exact ⟨i, x, y, by omega, hx, hy, ne⟩

/-- The prefix is right if and only if the condition holds. -/
theorem commonPrefix_iff (strs : List Bytes) :
    IsLongest (· <+: ·) strs (commonPrefix strs) ↔ Narrows strs := by
  cases strs with
  | nil =>
    constructor
    · intro h
      have long := h.longest [0] fun s mem => absurd mem List.not_mem_nil
      exact absurd long (by decide)
    · exact fun h => h.elim
  | cons first rest =>
    by_cases empty : [] ∈ first :: rest
    · exact ⟨fun _ => Or.inl empty, fun _ => commonPrefix_empty empty⟩
    have greatest := commonPrefix_greatest empty
    obtain ⟨ans, hans⟩ : ∃ ans, ans = commonPrefix (first :: rest) := ⟨_, rfl⟩
    rw [← hans] at greatest ⊢
    constructor
    · intro h
      refine Or.inr fun q mem front proper => ?_
      have ansQ : ans <+: q := h.common q (List.mem_cons_of_mem _ mem)
      have short : ans.length < first.length :=
        Nat.lt_of_le_of_lt ansQ.length_le
          (Nat.lt_of_le_of_ne front.length_le fun same => proper (front.eq_of_length same))
      -- the start with one byte more is not comparable to some item
      have blocked : ∃ s ∈ rest, ¬Comparable (first.take (ans.length + 1)) s := by
        by_contra none_
        push Not at none_
        have sub := greatest.most (first.take (ans.length + 1)) (List.take_prefix _ first) none_
        have long := sub.length_le
        rw [List.length_take] at long
        omega
      obtain ⟨s, inRest, apart⟩ := blocked
      exact ⟨s, inRest, differsBy_of_blocked apart ansQ.length_le⟩
    · rintro (mem | narrows)
      · exact absurd mem empty
      have common : ∀ s ∈ rest, ans <+: s := by
        intro s mem
        cases greatest.comparable s mem with
        | inl front => exact front
        | inr back =>
          by_cases same : s = first
          · rw [same]
            exact greatest.front
          obtain ⟨r, inRest, i, x, y, small, hx, hy, ne⟩ :=
            narrows s mem (back.trans greatest.front) same
          by_cases equal : s.length = ans.length
          · rw [back.eq_of_length equal]
          have inAns : i < ans.length := by
            have := back.length_le
            omega
          have read := List.prefix_iff_getElem?.1 greatest.front i inAns
          rw [hx] at read
          exact absurd (comparable_iff.1 (greatest.comparable r inRest) i x y
            ((List.getElem?_eq_getElem inAns).trans read.symm) hy) ne
      constructor
      · intro s mem
        cases List.mem_cons.1 mem with
        | inl same =>
          rw [same]
          exact greatest.front
        | inr later => exact common s later
      · intro p all
        have front := all first List.mem_cons_self
        exact (greatest.most p front fun q mem =>
          Or.inl (all q (List.mem_cons_of_mem _ mem))).length_le

theorem isLongest_reverse {strs : List Bytes} {ans : Bytes} :
    IsLongest (· <:+ ·) strs ans.reverse ↔ IsLongest (· <+: ·) (strs.map List.reverse) ans := by
  constructor
  · intro h
    constructor
    · intro s mem
      obtain ⟨u, inStrs, rfl⟩ := List.mem_map.1 mem
      have back := List.reverse_prefix.2 (h.common u inStrs)
      rwa [List.reverse_reverse] at back
    · intro p all
      have long := h.longest p.reverse fun s mem => by
        apply List.reverse_prefix.1
        rw [List.reverse_reverse]
        exact all s.reverse (List.mem_map_of_mem mem)
      rwa [List.length_reverse, List.length_reverse] at long
  · intro h
    constructor
    · intro s mem
      apply List.reverse_prefix.1
      rw [List.reverse_reverse]
      exact h.common s.reverse (List.mem_map_of_mem mem)
    · intro p all
      have long := h.longest p.reverse fun s mem => by
        obtain ⟨u, inStrs, rfl⟩ := List.mem_map.1 mem
        exact List.reverse_prefix.2 (all u inStrs)
      rw [List.length_reverse] at long
      rwa [List.length_reverse]

/-- The prefix function finds the longest common prefix if and only if the items narrow the first
one, and the suffix function the longest common suffix if and only if the reversed items do. -/
theorem longestCommonAffixes (strs : List Bytes) :
    (IsLongest (· <+: ·) strs (commonPrefix strs) ↔ Narrows strs) ∧
      (IsLongest (· <:+ ·) strs (commonSuffix strs) ↔ Narrows (strs.map List.reverse)) := by
  constructor
  · exact commonPrefix_iff strs
  · rw [commonSuffix_reverse, isLongest_reverse]
    exact commonPrefix_iff (strs.map List.reverse)

/-- `abcd` and `abc`: the answer is `abcd`, although the second item is shorter; likewise `abcd` and
`bcd` for the suffix. -/
theorem longestCommonAffixes_shorter :
    ¬IsLongest (· <+: ·) [[0x61, 0x62, 0x63, 0x64], [0x61, 0x62, 0x63]]
        (commonPrefix [[0x61, 0x62, 0x63, 0x64], [0x61, 0x62, 0x63]]) ∧
      ¬IsLongest (· <:+ ·) [[0x61, 0x62, 0x63, 0x64], [0x62, 0x63, 0x64]]
        (commonSuffix [[0x61, 0x62, 0x63, 0x64], [0x62, 0x63, 0x64]]) := by
  constructor
  · intro h
    have front := h.common [0x61, 0x62, 0x63] (by decide)
    exact absurd front.length_le (by decide)
  · intro h
    have back := h.common [0x62, 0x63, 0x64] (by decide)
    exact absurd back.length_le (by decide)

end Utils

end Smelly
