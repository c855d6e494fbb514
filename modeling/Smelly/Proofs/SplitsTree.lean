/-
Module: Smelly.Proofs.SplitsTree
Purpose: What the operations of a tree of pairs do to its window ids and to its pair objects:
  removal keeps the other windows in order, the collapse keeps them all, the balanced insertion
  adds one, and the layout pass visits each.
Trusted boundary: none
-/
import Mathlib.Data.List.Perm.Basic
import Smelly.Core.SplitsLayout

namespace Smelly

namespace Side

/-! ### Window ids -/

@[simp] theorem allWindowIds_settle (info : PairInfo) (one two : Side) :
    (settle info one two).one.allWindowIds ++ (settle info one two).two.allWindowIds =
      one.allWindowIds ++ two.allWindowIds := by
  cases one <;> simp [settle, allWindowIds]

theorem allWindowIds_removeWindows (windowIds : List ℕ+) (side : Side) :
    (side.removeWindows windowIds).allWindowIds =
      side.allWindowIds.filter (· ∉ windowIds) := by
  induction side with
  | none => rfl
  | window id =>
    by_cases removed : id ∈ windowIds
    · simp [removeWindows, allWindowIds, removed]
    · simp [removeWindows, allWindowIds, removed]
  | pair info one two ihOne ihTwo =>
    simp only [removeWindows, allWindowIds, allWindowIds_settle, ihOne, ihTwo,
      List.filter_append]

theorem allWindowIds_collapse (side : Side) : side.collapse.allWindowIds = side.allWindowIds := by
  induction side with
  | none => rfl
  | window id => rfl
  | pair info one two ihOne ihTwo =>
    cases one with
    | none => simpa [collapse, allWindowIds] using ihTwo
    | window id =>
      cases two with
      | none => simp [collapse, allWindowIds]
      | window id' => simp [collapse, allWindowIds]
      | pair info' one' two' => simp only [collapse, allWindowIds] at ihTwo ⊢; rw [ihTwo]
    | pair infoOne one one' =>
      cases two with
      | none => simpa [collapse, allWindowIds] using ihOne
      | window id => simp only [collapse, allWindowIds] at ihOne ⊢; rw [ihOne]
      | pair info' two two' =>
        simp only [collapse, allWindowIds] at ihOne ihTwo ⊢
        rw [ihOne, ihTwo]

theorem allWindowIds_fill (info : PairInfo) (windowId : ℕ+) (one two : Side)
    (room : one = .none ∨ two = .none) :
    (fill info windowId one two).allWindowIds =
      one.allWindowIds ++ two.allWindowIds ++ [windowId] := by
  obtain rfl | rfl := room
  · cases two <;> simp [fill, allWindowIds]
  · cases one <;> simp [fill, allWindowIds]

/-- The balanced insertion adds one id and keeps the object that it starts at. -/
theorem balancedAdd_spec (windowId : ℕ+) (address : Nat) (side : Side) :
    ∀ info one two, side = .pair info one two → ∃ one' two',
      side.balancedAdd windowId address = .pair info one' two' ∧
        (one'.allWindowIds ++ two'.allWindowIds).Perm (windowId :: side.allWindowIds) := by
  induction side with
  | none => intro info one two shape; cases shape
  | window id => intro info one two shape; cases shape
  | pair info one two ihOne ihTwo =>
    intro _ _ _ shape
    cases shape
    cases one with
    | none =>
      cases two with
      | none => exact ⟨_, _, rfl, by simp [allWindowIds]⟩
      | window id => exact ⟨_, _, rfl, by simpa [allWindowIds] using List.Perm.swap _ _ _⟩
      | pair infoTwo two two' =>
        refine ⟨_, _, rfl, ?_⟩
        simpa [allWindowIds] using List.perm_append_singleton windowId
          (two.allWindowIds ++ two'.allWindowIds)
    | window id =>
      cases two with
      | none => exact ⟨_, _, rfl, by simpa [allWindowIds] using List.Perm.swap _ _ _⟩
      | window id' =>
        refine ⟨_, _, rfl, ?_⟩
        simpa [allWindowIds] using List.perm_append_singleton windowId [id, id']
      | pair infoTwo two two' =>
        refine ⟨_, _, rfl, ?_⟩
        simpa [allWindowIds] using List.Perm.swap _ _ _
    | pair infoOne one one' =>
      cases two with
      | none =>
        refine ⟨_, _, rfl, ?_⟩
        simpa [allWindowIds] using List.perm_append_singleton windowId
          (one.allWindowIds ++ one'.allWindowIds)
      | window id =>
        refine ⟨_, _, rfl, ?_⟩
        simpa [allWindowIds] using List.perm_append_singleton windowId
          (one.allWindowIds ++ one'.allWindowIds ++ [id])
      | pair infoTwo two two' =>
        simp only [balancedAdd]
        split
        · obtain ⟨first, second, shape, perm⟩ := ihOne _ _ _ rfl
          refine ⟨_, _, rfl, ?_⟩
          rw [shape]
          exact perm.append_right _
        · obtain ⟨first, second, shape, perm⟩ := ihTwo _ _ _ rfl
          refine ⟨_, _, rfl, ?_⟩
          rw [shape]
          exact (perm.append_left _).trans List.perm_middle

/-! ### What the collapse leaves of a side -/

/-- The three things a side can hold. -/
inductive Remnant where
  | nothing
  | window
  | pair
deriving DecidableEq, Repr

/-- What a side holds now. -/
def kind : Side → Remnant
  | .none => .nothing
  | .window _ => .window
  | .pair _ _ _ => .pair

theorem kind_eq_nothing_iff {side : Side} : side.kind = .nothing ↔ side = .none := by
  cases side <;> simp [kind]

theorem kind_eq_pair_iff {side : Side} :
    side.kind = .pair ↔ ∃ info one two, side = .pair info one two := by
  cases side <;> simp [kind]

/-- The side is empty once the windows of `removed` are taken out. -/
def Gone (removed : List ℕ+) : Side → Prop
  | .none => True
  | .window id => id ∈ removed
  | .pair _ _ _ => False

instance (removed : List ℕ+) : DecidablePred (Gone removed)
  | .none => .isTrue trivial
  | .window id => inferInstanceAs (Decidable (id ∈ removed))
  | .pair _ _ _ => .isFalse id

/-- What is left of a side once the windows of `removed` are taken out and the pairs that hold at
most one side are replaced by it, from the top down. -/
def remnant (removed : List ℕ+) : Side → Remnant
  | .none => .nothing
  | .window id => if id ∈ removed then .nothing else .window
  | .pair _ one two =>
    if one.Gone removed then two.remnant removed
    else if two.Gone removed then one.remnant removed
    else .pair

theorem collapse_one_none (info : PairInfo) (two : Side) :
    (Side.pair info .none two).collapse = two.collapse := rfl

theorem collapse_two_none (info : PairInfo) (one : Side) :
    (Side.pair info one .none).collapse = one.collapse := by
  cases one <;> rfl

theorem collapse_both (info : PairInfo) {one two : Side} (hasOne : one ≠ .none)
    (hasTwo : two ≠ .none) :
    (Side.pair info one two).collapse = .pair info one.collapse two.collapse := by
  cases one with
  | none => exact absurd rfl hasOne
  | window id => cases two with
    | none => exact absurd rfl hasTwo
    | window id' => rfl
    | pair info' one' two' => rfl
  | pair info' one' two' => cases two with
    | none => exact absurd rfl hasTwo
    | window id => rfl
    | pair info'' one'' two'' => rfl

theorem removeWindows_eq_none_iff (removed : List ℕ+) (side : Side) :
    side.removeWindows removed = .none ↔ side.Gone removed := by
  cases side with
  | none => simp [removeWindows, Gone]
  | window id => simp [removeWindows, Gone]
  | pair info one two => simp [removeWindows, Gone]

theorem settle_of_one_none (info : PairInfo) (two : Side) :
    settle info .none two = { info, one := two, two := .none } := by
  cases two <;> rfl

theorem settle_of_one (info : PairInfo) {one : Side} (hasOne : one ≠ .none) (two : Side) :
    settle info one two = { info, one, two } := by
  cases one with
  | none => exact absurd rfl hasOne
  | window id => rfl
  | pair info' one' two' => rfl

theorem remnant_collapse (removed : List ℕ+) (side : Side) :
    (side.removeWindows removed).collapse.kind = side.remnant removed := by
  induction side with
  | none => rfl
  | window id =>
    by_cases listed : id ∈ removed
    · simp [removeWindows, collapse, kind, remnant, listed]
    · simp [removeWindows, collapse, kind, remnant, listed]
  | pair info one two ihOne ihTwo =>
    simp only [removeWindows, remnant]
    by_cases goneOne : one.Gone removed
    · rw [if_pos goneOne, (removeWindows_eq_none_iff removed one).2 goneOne,
        settle_of_one_none, collapse_two_none, ihTwo]
    · have hasOne : one.removeWindows removed ≠ .none := fun empty =>
        goneOne ((removeWindows_eq_none_iff removed one).1 empty)
      rw [if_neg goneOne, settle_of_one info hasOne]
      by_cases goneTwo : two.Gone removed
      · rw [if_pos goneTwo, (removeWindows_eq_none_iff removed two).2 goneTwo,
          collapse_two_none, ihOne]
      · have hasTwo : two.removeWindows removed ≠ .none := fun empty =>
          goneTwo ((removeWindows_eq_none_iff removed two).1 empty)
        rw [if_neg goneTwo, collapse_both info hasOne hasTwo]
        rfl

/-! ### Pair objects -/

theorem addresses_removeWindows (removed : List ℕ+) (side : Side) :
    (side.removeWindows removed).addresses = side.addresses := by
  induction side with
  | none => rfl
  | window id =>
    by_cases listed : id ∈ removed
    · simp [removeWindows, addresses, listed]
    · simp [removeWindows, addresses, listed]
  | pair info one two ihOne ihTwo =>
    by_cases gone : one.Gone removed
    · have empty := (removeWindows_eq_none_iff removed one).2 gone
      have noAddresses : one.addresses = [] := by rw [← ihOne, empty]; rfl
      simp only [removeWindows, empty, settle_of_one_none, addresses, ihTwo, noAddresses]
      simp
    · have hasOne : one.removeWindows removed ≠ .none := fun empty =>
        gone ((removeWindows_eq_none_iff removed one).1 empty)
      simp only [removeWindows, settle_of_one info hasOne, addresses, ihOne, ihTwo]

theorem addresses_collapse (side : Side) :
    side.collapse.addresses.Sublist side.addresses := by
  induction side with
  | none => exact List.Sublist.refl _
  | window id => exact List.Sublist.refl _
  | pair info one two ihOne ihTwo =>
    by_cases emptyOne : one = .none
    · subst emptyOne
      rw [collapse_one_none]
      exact ihTwo.trans (List.sublist_cons_self _ _)
    · by_cases emptyTwo : two = .none
      · subst emptyTwo
        rw [collapse_two_none]
        exact ihOne.trans ((List.sublist_append_left _ _).cons _)
      · rw [collapse_both info emptyOne emptyTwo]
        exact (ihOne.append ihTwo).cons_cons _

/-! ### The layout pass -/

theorem idWindowMap_mem {groups : List LayoutGroup} {id : ℕ+}
    (known : id ∈ groups.map LayoutGroup.id) :
    ∃ wg, idWindowMap groups id = some wg ∧ wg.id = id := by
  obtain ⟨wg, member, rfl⟩ := List.mem_map.1 known
  cases found : idWindowMap groups wg.id with
  | none =>
    have := List.find?_eq_none.1 found wg member
    simp at this
  | some other => exact ⟨other, rfl, by simpa using List.find?_some found⟩

theorem borderWidth_known (lgd : LayoutGlobalData) {groups : List LayoutGroup} {ids : List ℕ+}
    (known : ∀ id ∈ ids, id ∈ groups.map LayoutGroup.id) :
    ∃ bw, borderWidth lgd groups ids = some bw := by
  unfold borderWidth
  split
  · cases ids with
    | nil => exact ⟨0, rfl⟩
    | cons wid rest =>
      obtain ⟨wg, found, _⟩ := idWindowMap_mem (known wid List.mem_cons_self)
      exact ⟨wg.effectiveBorder, by simp [effectiveBorder, found]⟩
  · exact ⟨0, rfl⟩

theorem layOut_one_none (lgd : LayoutGlobalData) (groups : List LayoutGroup) (info : PairInfo)
    (two : Side) (area : Area) :
    (Side.pair info .none two).layOut lgd groups area =
      (borderWidth lgd groups two.allWindowIds).bind fun _ => two.layOut lgd groups area := rfl

theorem layOut_two_none (lgd : LayoutGlobalData) (groups : List LayoutGroup) (info : PairInfo)
    (one : Side) (area : Area) :
    (Side.pair info one .none).layOut lgd groups area =
      (borderWidth lgd groups (one.allWindowIds ++ [])).bind fun _ =>
        one.layOut lgd groups area := by
  cases one <;> rfl

theorem layOut_both (lgd : LayoutGlobalData) (groups : List LayoutGroup) (info : PairInfo)
    {one two : Side} (hasOne : one ≠ .none) (hasTwo : two ≠ .none) (area : Area) :
    (Side.pair info one two).layOut lgd groups area =
      (borderWidth lgd groups (one.allWindowIds ++ two.allWindowIds)).bind fun bw =>
        (one.layOut lgd groups (areas lgd info bw area).1).bind fun placedOne =>
          (two.layOut lgd groups (areas lgd info bw area).2).bind fun placedTwo =>
            some (placedOne ++ placedTwo) := by
  cases one with
  | none => exact absurd rfl hasOne
  | window id => cases two with
    | none => exact absurd rfl hasTwo
    | window id' => rfl
    | pair info' one' two' => rfl
  | pair info' one' two' => cases two with
    | none => exact absurd rfl hasTwo
    | window id => rfl
    | pair info'' one'' two'' => rfl

/-- When every window below a side has a group, the pass gives each its geometry, in order. -/
theorem layOut_spec (lgd : LayoutGlobalData) (groups : List LayoutGroup) (side : Side) :
    ∀ area, (∀ id ∈ side.allWindowIds, id ∈ groups.map LayoutGroup.id) →
      ∃ placements, side.layOut lgd groups area = some placements ∧
        placements.map Placement.id = side.allWindowIds := by
  induction side with
  | none => exact fun area known => ⟨[], rfl, rfl⟩
  | window id =>
    intro area known
    obtain ⟨wg, found, same⟩ := idWindowMap_mem (known id (by simp [allWindowIds]))
    exact ⟨[{ id := wg.id, area }], by simp [layOut, applyWindowGeometry, found],
      by simp [allWindowIds, same]⟩
  | pair info one two ihOne ihTwo =>
    intro area known
    have knownOne : ∀ id ∈ one.allWindowIds, id ∈ groups.map LayoutGroup.id :=
      fun id member => known id (List.mem_append_left _ member)
    have knownTwo : ∀ id ∈ two.allWindowIds, id ∈ groups.map LayoutGroup.id :=
      fun id member => known id (List.mem_append_right _ member)
    obtain ⟨bw, border⟩ := borderWidth_known lgd known
    simp only [allWindowIds] at border
    by_cases emptyOne : one = .none
    · subst emptyOne
      obtain ⟨placements, laid, ids⟩ := ihTwo area knownTwo
      refine ⟨placements, ?_, by simpa [allWindowIds] using ids⟩
      rw [layOut_one_none, show two.allWindowIds = [] ++ two.allWindowIds from rfl]
      rw [show borderWidth lgd groups ([] ++ two.allWindowIds) = some bw from border]
      exact laid
    · by_cases emptyTwo : two = .none
      · subst emptyTwo
        obtain ⟨placements, laid, ids⟩ := ihOne area knownOne
        refine ⟨placements, ?_, by simpa [allWindowIds] using ids⟩
        rw [layOut_two_none, show borderWidth lgd groups (one.allWindowIds ++ []) = some bw from
          border]
        exact laid
      · obtain ⟨first, laidOne, idsOne⟩ := ihOne (areas lgd info bw area).1 knownOne
        obtain ⟨second, laidTwo, idsTwo⟩ := ihTwo (areas lgd info bw area).2 knownTwo
        refine ⟨first ++ second, ?_, by simp [allWindowIds, idsOne, idsTwo]⟩
        rw [layOut_both lgd groups info emptyOne emptyTwo, border, Option.bind_some, laidOne,
          Option.bind_some, laidTwo, Option.bind_some]

end Side

end Smelly
