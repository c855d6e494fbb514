/-
Module: Smelly.Proofs.SplitsCollapse
Purpose: What the removal of windows and the collapse of redundant pairs leave of a tree of pairs:
  the other windows in order, and when every pair below the root holds something on both sides.
Trusted boundary: none
-/
import Smelly.Proofs.SplitsTree

namespace Smelly

namespace Side

variable (removed : List ℕ+)

/-- Every pair of the side holds something on both sides. -/
def Full : Side → Prop
  | .pair _ one two => one ≠ .none ∧ two ≠ .none ∧ one.Full ∧ two.Full
  | _ => True

/-- Every pair below the one that the side holds is full. -/
def FullBelow : Side → Prop
  | .pair _ one two => one.Full ∧ two.Full
  | _ => True

/-- All windows of the side are removed. -/
def Wiped (side : Side) : Prop := ∀ id ∈ side.allWindowIds, id ∈ removed

/-- Nothing stays of the side: it is empty, a removed window, or a pair with one of these on one
side and a side that vanishes on the other. -/
def Vanishes : Side → Prop
  | .none => True
  | .window id => id ∈ removed
  | .pair _ one two =>
    (one.Gone removed ∧ two.Vanishes) ∨ (two.Gone removed ∧ one.Vanishes)

/-- A pair with an empty side or a removed window goes.  In every other pair, neither side has all
its windows removed. -/
def Solid : Side → Prop
  | .pair _ one two =>
    if one.Gone removed then two.Solid
    else if two.Gone removed then one.Solid
    else ¬ one.Wiped removed ∧ ¬ two.Wiped removed ∧ one.Solid ∧ two.Solid
  | _ => True

/-- The pairs below the first one that stays are solid. -/
def SolidBelow : Side → Prop
  | .pair _ one two =>
    if one.Gone removed then two.SolidBelow
    else if two.Gone removed then one.SolidBelow
    else one.Solid removed ∧ two.Solid removed
  | _ => True

/-- A side that is full and holds something has a window. -/
theorem Full.allWindowIds_ne_nil {side : Side} (full : side.Full) (some : side ≠ .none) :
    side.allWindowIds ≠ [] := by
  induction side with
  | none => exact absurd rfl some
  | window id => exact List.cons_ne_nil _ _
  | pair info one two ihOne _ =>
    obtain ⟨hasOne, -, fullOne, -⟩ := full
    exact fun none => ihOne fullOne hasOne (List.append_eq_nil_iff.1 none).1

/-- A side that is left full is empty exactly when all its windows were removed. -/
theorem Full.collapse_eq_none_iff {side : Side}
    (full : (side.removeWindows removed).collapse.Full) :
    (side.removeWindows removed).collapse = .none ↔ side.Wiped removed := by
  have ids : (side.removeWindows removed).collapse.allWindowIds =
      side.allWindowIds.filter (· ∉ removed) := by
    rw [allWindowIds_collapse, allWindowIds_removeWindows]
  constructor
  · intro empty id member
    by_contra kept
    have left : id ∈ side.allWindowIds.filter (· ∉ removed) :=
      List.mem_filter.2 ⟨member, decide_eq_true kept⟩
    rw [← ids, empty] at left
    exact absurd left List.not_mem_nil
  · intro wiped
    by_contra some
    refine full.allWindowIds_ne_nil some ?_
    rw [ids, List.filter_eq_nil_iff]
    intro id member kept
    exact of_decide_eq_true kept (wiped id member)

/-! ### One pair -/

/-- The three shapes of a pair after the removal: the side that is left where the other is gone, or
a pair of both. -/
theorem collapse_removeWindows_pair (info : PairInfo) (one two : Side) :
    ((Side.pair info one two).removeWindows removed).collapse =
      if one.Gone removed then (two.removeWindows removed).collapse
      else if two.Gone removed then (one.removeWindows removed).collapse
      else
        .pair info (one.removeWindows removed).collapse (two.removeWindows removed).collapse := by
  simp only [removeWindows]
  by_cases goneOne : one.Gone removed
  · rw [if_pos goneOne, (removeWindows_eq_none_iff removed one).2 goneOne, settle_of_one_none,
      collapse_two_none]
  · have hasOne : one.removeWindows removed ≠ .none := fun empty =>
      goneOne ((removeWindows_eq_none_iff removed one).1 empty)
    rw [if_neg goneOne, settle_of_one info hasOne]
    by_cases goneTwo : two.Gone removed
    · rw [if_pos goneTwo, (removeWindows_eq_none_iff removed two).2 goneTwo, collapse_two_none]
    · have hasTwo : two.removeWindows removed ≠ .none := fun empty =>
        goneTwo ((removeWindows_eq_none_iff removed two).1 empty)
      rw [if_neg goneTwo, collapse_both info hasOne hasTwo]

theorem collapse_eq_none_iff (side : Side) :
    (side.removeWindows removed).collapse = .none ↔ side.Vanishes removed := by
  induction side with
  | none => exact iff_of_true rfl trivial
  | window id =>
    by_cases listed : id ∈ removed
    · simp [removeWindows, collapse, Vanishes, listed]
    · simp [removeWindows, collapse, Vanishes, listed]
  | pair info one two ihOne ihTwo =>
    have goneVanishes : ∀ side : Side, side.Gone removed → side.Vanishes removed := by
      intro side gone
      cases side with
      | none => trivial
      | window id => exact gone
      | pair info one two => exact gone.elim
    rw [collapse_removeWindows_pair, Vanishes]
    by_cases goneOne : one.Gone removed
    · rw [if_pos goneOne, ihTwo]
      constructor
      · exact fun vanishes => .inl ⟨goneOne, vanishes⟩
      · rintro (⟨-, vanishes⟩ | ⟨goneTwo, -⟩)
        · exact vanishes
        · exact goneVanishes two goneTwo
    · rw [if_neg goneOne]
      by_cases goneTwo : two.Gone removed
      · rw [if_pos goneTwo, ihOne]
        constructor
        · exact fun vanishes => .inr ⟨goneTwo, vanishes⟩
        · rintro (⟨gone, -⟩ | ⟨-, vanishes⟩)
          · exact absurd gone goneOne
          · exact vanishes
      · rw [if_neg goneTwo]
        refine iff_of_false Side.noConfusion ?_
        rintro (⟨gone, -⟩ | ⟨gone, -⟩)
        · exact goneOne gone
        · exact goneTwo gone

/-- The pairs that are left hold something on both sides exactly when the side is solid. -/
theorem collapse_full_iff (side : Side) :
    (side.removeWindows removed).collapse.Full ↔ side.Solid removed := by
  induction side with
  | none => exact Iff.rfl
  | window id =>
    refine iff_of_true ?_ trivial
    rw [removeWindows]
    split <;> trivial
  | pair info one two ihOne ihTwo =>
    rw [collapse_removeWindows_pair, Solid]
    by_cases goneOne : one.Gone removed
    · rw [if_pos goneOne, if_pos goneOne]
      exact ihTwo
    · rw [if_neg goneOne, if_neg goneOne]
      by_cases goneTwo : two.Gone removed
      · rw [if_pos goneTwo, if_pos goneTwo]
        exact ihOne
      · rw [if_neg goneTwo, if_neg goneTwo, ← ihOne, ← ihTwo]
        constructor
        · rintro ⟨hasOne, hasTwo, fullOne, fullTwo⟩
          refine ⟨fun wiped => hasOne ?_, fun wiped => hasTwo ?_, fullOne, fullTwo⟩
          · exact (fullOne.collapse_eq_none_iff removed).2 wiped
          · exact (fullTwo.collapse_eq_none_iff removed).2 wiped
        · rintro ⟨keptOne, keptTwo, fullOne, fullTwo⟩
          refine ⟨fun empty => keptOne ?_, fun empty => keptTwo ?_, fullOne, fullTwo⟩
          · exact (fullOne.collapse_eq_none_iff removed).1 empty
          · exact (fullTwo.collapse_eq_none_iff removed).1 empty

theorem collapse_fullBelow_iff (side : Side) :
    (side.removeWindows removed).collapse.FullBelow ↔ side.SolidBelow removed := by
  induction side with
  | none => exact Iff.rfl
  | window id =>
    refine iff_of_true ?_ trivial
    rw [removeWindows]
    split <;> trivial
  | pair info one two ihOne ihTwo =>
    rw [collapse_removeWindows_pair, SolidBelow]
    by_cases goneOne : one.Gone removed
    · rw [if_pos goneOne, if_pos goneOne]
      exact ihTwo
    · rw [if_neg goneOne, if_neg goneOne]
      by_cases goneTwo : two.Gone removed
      · rw [if_pos goneTwo, if_pos goneTwo]
        exact ihOne
      · rw [if_neg goneTwo, if_neg goneTwo]
        exact and_congr (collapse_full_iff removed one) (collapse_full_iff removed two)

end Side

namespace Splits

open Side

/-! ### The root -/

theorem rootPair_allWindowIds (root : Pair) :
    (rootPair root).allWindowIds = root.allWindowIds := by
  obtain ⟨info, one, two⟩ := root
  unfold rootPair
  dsimp only
  split
  · rfl
  · exact (List.append_nil _).symm
  · rfl

/-- Below the new root every pair is full: a lone pair under the root takes its place. -/
theorem rootPair_full_iff (root : Pair) :
    ((rootPair root).one.Full ∧ (rootPair root).two.Full) ↔
      if root.one = .none then root.two.FullBelow
      else if root.two = .none then root.one.FullBelow
      else root.one.Full ∧ root.two.Full := by
  obtain ⟨info, one, two⟩ := root
  unfold rootPair
  cases one with
  | none => cases two with
    | none => simp [Full, FullBelow]
    | window id => simp [Full, FullBelow]
    | pair infoTwo two two' => simp [FullBelow]
  | window id => cases two with
    | none => simp [Full, FullBelow]
    | window id' => simp
    | pair infoTwo two two' => simp
  | pair infoOne one one' => cases two with
    | none => simp [FullBelow]
    | window id => simp
    | pair infoTwo two two' => simp

/-- The removal leaves no pair below the root with an empty side: where one side of the root
vanishes, the first pair that stays on the other becomes the root. -/
def RemovesCleanly (removed : List ℕ+) (root : Pair) : Prop :=
  (root.one.Vanishes removed → root.two.SolidBelow removed) ∧
    (¬ root.one.Vanishes removed → root.two.Vanishes removed → root.one.SolidBelow removed) ∧
    (¬ root.one.Vanishes removed → ¬ root.two.Vanishes removed →
      root.one.Solid removed ∧ root.two.Solid removed)

/-- What is expected of the tree after the removal. -/
structure WindowsRemoved (removed : List ℕ+) (root root' : Pair) : Prop where
  order : root'.allWindowIds = root.allWindowIds.filter (· ∉ removed)
  full : root'.one.Full ∧ root'.two.Full

theorem removeWindows_order (removed : List ℕ+) (root : Pair) :
    (rootPair (removeWindows root removed).1).allWindowIds =
      root.allWindowIds.filter (· ∉ removed) := by
  have settled := allWindowIds_settle root.info (root.one.removeWindows removed)
    (root.two.removeWindows removed)
  rw [allWindowIds_removeWindows, allWindowIds_removeWindows] at settled
  rw [rootPair_allWindowIds, removeWindows, Pair.allWindowIds, Pair.side,
    Pair.collapseRedundantPairs, Pair.removeWindows, Side.allWindowIds, allWindowIds_collapse,
    allWindowIds_collapse, settled, ← List.filter_append]
  rfl

theorem removeWindows_full_iff (removed : List ℕ+) (root : Pair) :
    ((rootPair (removeWindows root removed).1).one.Full ∧
        (rootPair (removeWindows root removed).1).two.Full) ↔ RemovesCleanly removed root := by
  rw [rootPair_full_iff, removeWindows, Pair.collapseRedundantPairs, Pair.removeWindows,
    RemovesCleanly]
  by_cases goneOne : root.one.Gone removed
  · have empty := (removeWindows_eq_none_iff removed root.one).2 goneOne
    have vanishes : root.one.Vanishes removed := by
      rw [← collapse_eq_none_iff, empty]
      rfl
    simp only [empty, settle_of_one_none, vanishes, not_true_eq_false, false_implies, and_true,
      true_implies]
    rw [← collapse_fullBelow_iff]
    by_cases none : (root.two.removeWindows removed).collapse = .none
    · rw [if_pos none, none]
      exact Iff.rfl
    · rw [if_neg none]
      exact Iff.rfl
  · have hasOne : root.one.removeWindows removed ≠ .none := fun empty =>
      goneOne ((removeWindows_eq_none_iff removed root.one).1 empty)
    rw [settle_of_one root.info hasOne]
    dsimp only
    by_cases goesOne : root.one.Vanishes removed
    · rw [if_pos ((collapse_eq_none_iff removed _).2 goesOne), collapse_fullBelow_iff]
      simp only [goesOne, not_true_eq_false, false_implies, and_true, true_implies]
    · rw [if_neg fun empty => goesOne ((collapse_eq_none_iff removed _).1 empty)]
      by_cases goesTwo : root.two.Vanishes removed
      · rw [if_pos ((collapse_eq_none_iff removed _).2 goesTwo), collapse_fullBelow_iff]
        simp only [goesOne, goesTwo, not_true_eq_false, false_implies, and_true, true_implies,
          not_false_eq_true, true_and]
      · rw [if_neg fun empty => goesTwo ((collapse_eq_none_iff removed _).1 empty),
          collapse_full_iff, collapse_full_iff]
        simp only [goesOne, goesTwo, not_false_eq_true, false_implies, true_implies, true_and]

end Splits

/-- For every tree and all windows to remove, the other windows stay in order; no pair below the
root is left with an empty side exactly when the removal is clean. -/
theorem removeWindows_collapses (root : Pair) (removed : List ℕ+) :
    (Splits.rootPair (Splits.removeWindows root removed).1).allWindowIds =
        root.allWindowIds.filter (· ∉ removed) ∧
      (Splits.WindowsRemoved removed root (Splits.rootPair (Splits.removeWindows root removed).1) ↔
        Splits.RemovesCleanly removed root) := by
  have order := Splits.removeWindows_order removed root
  refine ⟨order, ?_⟩
  rw [← Splits.removeWindows_full_iff]
  exact ⟨fun h => h.full, fun full => ⟨order, full⟩⟩

/-- Window 1 beside a pair of window 4 and the pair of windows 2 and 3. -/
def nestedPair : Pair :=
  { info := { address := 0 }
    one := .window 1
    two := .pair { address := 1 } (.pair { address := 2 } (.window 2) (.window 3)) (.window 4) }

/-- When windows 2 and 3 go at once, the pair around them is left with window 4 alone. -/
theorem removeWindows_collapses_nested :
    (Splits.rootPair (Splits.removeWindows nestedPair [2, 3]).1).two =
        .pair { address := 1 } .none (.window 4) ∧
      ¬ Splits.WindowsRemoved [2, 3] nestedPair
        (Splits.rootPair (Splits.removeWindows nestedPair [2, 3]).1) := by
  have two : (Splits.rootPair (Splits.removeWindows nestedPair [2, 3]).1).two =
      .pair { address := 1 } .none (.window 4) := rfl
  refine ⟨two, fun removed => ?_⟩
  have full := removed.full.2
  rw [two] at full
  exact full.1 rfl

end Smelly
