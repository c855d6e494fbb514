/-
Module: Smelly.Proofs.WindowListFocus
Purpose: When the removal of a window that is not in the active group leaves the same group active.
Trusted boundary: none
-/
import Smelly.Proofs.WindowListStructure

namespace Smelly

open Run

namespace WindowList

/-- If a group is emptied, it stands after the active one, or the active one is the last. -/
def StaysInPlace (l : WindowList) (q : Window) : Prop :=
  ∀ k, l.groups.findIdx? (emptiedBy q) = some k →
    l.activeGroupIdx < k ∨ l.activeGroupIdx = l.groups.length - 1

theorem pyIndex_natCast {α : Type} (items : List α) (i : Nat) :
    pyIndex items (i : Int) = items[i]? := by
  rw [pyIndex, if_pos (Int.natCast_nonneg i), Int.toNat_natCast]

theorem pyIndex_neg_one {α : Type} (items : List α) : pyIndex items (-1) = items.getLast? := by
  unfold pyIndex
  cases items with
  | nil => rfl
  | cons first rest =>
    rw [if_neg (by decide), if_pos (by rw [List.length_cons]; omega),
      List.getLast?_eq_getElem?]
    congr 1
    simp only [List.length_cons]
    omega

theorem removeWindow_of_not_mem {q : Window} {g : WindowGroup} (absent : q ∉ g.windows) :
    g.removeWindow q = g := by
  unfold WindowGroup.removeWindow
  rw [List.erase_of_not_mem absent]

theorem pyIndex_map {α β : Type} (f : α → β) (items : List α) (i : Int) :
    pyIndex (items.map f) i = (pyIndex items i).map f := by
  unfold pyIndex
  rw [List.length_map]
  split
  · exact List.getElem?_map ..
  · split
    · exact List.getElem?_map ..
    · rfl

/-- The groups of a list keep their places but for the one at `k`. -/
theorem left_getElem? (q : Window) {groups : List WindowGroup} {k : Nat}
    (inside : k < groups.length) (i : Nat) :
    ((groups.take k).map (·.removeWindow q) ++ groups.drop (k + 1))[i]? =
      if i < k then groups[i]?.map (·.removeWindow q) else groups[i + 1]? := by
  have front : ((groups.take k).map (·.removeWindow q)).length = k := by
    rw [List.length_map, List.length_take]
    omega
  by_cases before : i < k
  · rw [if_pos before, List.getElem?_append_left (by omega), List.getElem?_map,
      List.getElem?_take_of_lt before]
  · rw [if_neg before, List.getElem?_append_right (by omega), front, List.getElem?_drop]
    congr 1
    omega

/-- The same group is active after the removal exactly when the active group stays in place. -/
theorem removeWindow_activeGroup_iff {l : WindowList} (start : l.Grouped) {x : WindowOrId}
    {q : Window} (resolved : l.resolve x = some q)
    (background : ∀ g, l.activeGroup = some g → q ∉ g.windows) :
    (l.removeWindow x).activeGroup = l.activeGroup ↔ l.StaysInPlace q := by
  have untouched : l.activeGroup.map (·.removeWindow q) = l.activeGroup := by
    cases active : l.activeGroup with
    | none => rfl
    | some g => exact congrArg some (removeWindow_of_not_mem (background g active))
  rw [removeWindow_eq resolved, StaysInPlace]
  cases found : l.groups.findIdx? (emptiedBy q) with
  | none => exact iff_of_true ((pyIndex_map _ _ _).trans untouched) (by simp)
  | some k =>
    obtain ⟨inside, emptied, -⟩ := List.findIdx?_eq_some_iff_getElem.1 found
    have deleted := deleteGroup_deleted { l.forget q with groups := emptiedAt q k l.groups } k
    dsimp only at deleted ⊢
    generalize deleteGroup { l.forget q with groups := emptiedAt q k l.groups } k = l' at deleted ⊢
    have left : l'.groups =
        (l.groups.take k).map (·.removeWindow q) ++ l.groups.drop (k + 1) :=
      deleted.groups.trans (eraseIdx_emptiedAt q inside)
    have length : l'.groups.length + 1 = l.groups.length := by
      rw [left, List.length_append, List.length_map, List.length_take, List.length_drop]
      omega
    have alone : l.groups[k].windows = [q] :=
      (emptiedBy_iff (start.nonempty _ (List.getElem_mem inside))).1 emptied
    have notActive : l.activeGroup ≠ l.groups[k]? := fun same =>
      background l.groups[k] (same.trans (List.getElem?_eq_getElem inside)) (by simp [alone])
    have lower := start.lower
    have upper := start.upper
    have place := left_getElem? q inside
    rw [← left] at place
    have whole : (∀ j, some k = some j →
        l.activeGroupIdx < j ∨ l.activeGroupIdx = l.groups.length - 1) ↔
        (l.activeGroupIdx < k ∨ l.activeGroupIdx = l.groups.length - 1) := by
      simp
    rw [whole]
    have moved := deleted.other
    rw [← deleted.groups] at moved
    by_cases last : l.activeGroupIdx = -1
    · -- Python reads index -1 as the last group
      have active : l.activeGroup = l.groups[l.groups.length - 1]? := by
        rw [activeGroup, last, pyIndex_neg_one, List.getLast?_eq_getElem?]
      have later : k ≠ l.groups.length - 1 := fun same => notActive (same ▸ active)
      have some : l'.groups ≠ [] := List.length_pos_iff.1 (by omega)
      have idx : l'.activeGroupIdx = -1 := by
        have kept := moved some (by dsimp only [forget]; omega)
        dsimp only [forget] at kept
        omega
      refine iff_of_true ?_ (by omega)
      rw [active, activeGroup, idx, pyIndex_neg_one, List.getLast?_eq_getElem?, place,
        if_neg (by omega)]
      congr 1
      omega
    · obtain ⟨a, aEq⟩ := Int.eq_ofNat_of_zero_le (show 0 ≤ l.activeGroupIdx by omega)
      have active : l.activeGroup = l.groups[a]? := by
        rw [activeGroup, aEq]
        exact pyIndex_natCast _ a
      have other : a ≠ k := fun same => notActive (same ▸ active)
      have some : l'.groups ≠ [] := List.length_pos_iff.1 (by omega)
      have kept := moved some (by dsimp only [forget]; omega)
      dsimp only [forget] at kept
      rcases kept with ⟨beyond, idx⟩ | ⟨within, idx⟩
      · -- the last group is active, and the index follows it
        refine iff_of_true ?_ (by omega)
        rw [active, activeGroup, idx, show l.activeGroupIdx - 1 = ((a - 1 : Nat) : Int) by omega,
          pyIndex_natCast, place, if_neg (by omega)]
        congr 1
        omega
      · rw [active, activeGroup, idx, aEq, pyIndex_natCast, place]
        by_cases before : a < k
        · refine iff_of_true ?_ (by omega)
          rw [if_pos before, ← active]
          exact untouched
        · -- the index now denotes the group after the active one
          refine iff_of_false ?_ (by omega)
          rw [if_neg before]
          intro same
          have sameId := congrArg (Option.map WindowGroup.id) same
          rw [← List.getElem?_map, ← List.getElem?_map] at sameId
          have equal :=
            (List.getElem?_inj (by rw [List.length_map]; omega) start.distinct).1 sameId
          omega

theorem start_grouped (counter : Nat) : Grouped { groupIdCounter := counter } :=
  (start_consistent counter).groups

end WindowList

open WindowList

/-- In every window list that any operations lead to, removing a window that is not in the active
group leaves the same group active exactly when the removal empties no group, or one after the
active group, or the active group is the last one. -/
theorem removeBackgroundWindow (counter : Nat) (events : List WindowEvent) {l : WindowList}
    (reached : run windowStep { groupIdCounter := counter } events = some l) {x : WindowOrId}
    {q : Window} (resolved : l.resolve x = some q)
    (background : ∀ g, l.activeGroup = some g → q ∉ g.windows) :
    (l.removeWindow x).activeGroup = l.activeGroup ↔ l.StaysInPlace q :=
  removeWindow_activeGroup_iff
    (run_invariant Grouped (fun _ _ _ start stepEq => windowStep_grouped start stepEq)
      (start_grouped counter) reached) resolved background

/-- Three windows in groups of their own, the second one active. -/
def threeGroups : List WindowEvent :=
  [.addWindow ⟨1⟩ none none false true false, .addWindow ⟨2⟩ none none false true false,
    .addWindow ⟨3⟩ none none false true false, .setActiveGroupIdx 1]

/-- The removal of the first window makes the third one active. -/
theorem removeBackgroundWindow_first :
    ∃ l, run windowStep {} threeGroups = some l ∧
      (∀ g, l.activeGroup = some g → ⟨1⟩ ∉ g.windows) ∧
      (l.removeWindow (.window ⟨1⟩)).activeGroup ≠ l.activeGroup := by
  refine ⟨_, rfl, ?_, by decide⟩
  intro g active
  obtain rfl := Option.some.inj active
  decide

/-- The removal of the last one leaves the second one active. -/
theorem removeBackgroundWindow_last :
    ∃ l, run windowStep { groupIdCounter := 1 } threeGroups = some l ∧
      ((l.removeWindow (.window ⟨3⟩)).activeGroup = l.activeGroup ↔ l.StaysInPlace ⟨3⟩) := by
  refine ⟨_, rfl, removeBackgroundWindow 1 threeGroups rfl rfl ?_⟩
  intro g active
  obtain rfl := Option.some.inj active
  decide

end Smelly
