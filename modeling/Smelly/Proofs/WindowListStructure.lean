/-
Module: Smelly.Proofs.WindowListStructure
Purpose: The parallel representations of a window list agree: what each operation does to the groups
  and to the index of the active one, and from it the structure of the list in every run.
Trusted boundary: none
-/
import Mathlib.Data.List.Perm.Lattice
import Mathlib.Data.List.Nodup
import Smelly.Core.WindowList
import Smelly.Lib.Run

namespace Smelly

open Run

namespace WindowList

/-! ### Groups and the active index -/

/-- What holds of the groups in every run: none is empty, their ids are distinct and below the
counter, and the active index is -1 or that of a group. -/
structure Grouped (l : WindowList) : Prop where
  nonempty : ∀ g ∈ l.groups, g.windows ≠ []
  distinct : (l.groups.map WindowGroup.id).Nodup
  below : ∀ g ∈ l.groups, g.id < l.groupIdCounter
  lower : -1 ≤ l.activeGroupIdx
  upper : l.activeGroupIdx < l.groups.length

/-- The windows in groups, in layout order. -/
def grouped (l : WindowList) : List Window := l.groups.flatMap WindowGroup.windows

/-- The groups are permuted and rearranged inside, and the active index is kept or valid. -/
structure Regrouped (l l' : WindowList) : Prop where
  allWindows : l'.allWindows = l.allWindows
  idMap : l'.idMap = l.idMap
  counter : l.groupIdCounter ≤ l'.groupIdCounter
  ids : (l'.groups.map WindowGroup.id).Perm (l.groups.map WindowGroup.id)
  grouped : l'.grouped.Perm l.grouped
  nonempty : (∀ g ∈ l.groups, g.windows ≠ []) → ∀ g ∈ l'.groups, g.windows ≠ []
  active : l'.activeGroupIdx = l.activeGroupIdx ∨
    0 ≤ l'.activeGroupIdx ∧ l'.activeGroupIdx < l'.groups.length

theorem Regrouped.refl (l : WindowList) : Regrouped l l :=
  ⟨rfl, rfl, Nat.le_refl _, .refl _, .refl _, id, .inl rfl⟩

theorem Regrouped.length_eq {l l' : WindowList} (h : Regrouped l l') :
    l'.groups.length = l.groups.length := by
  simpa using h.ids.length_eq

theorem Regrouped.trans {first second third : WindowList} (h : Regrouped first second)
    (h' : Regrouped second third) : Regrouped first third where
  allWindows := h'.allWindows.trans h.allWindows
  idMap := h'.idMap.trans h.idMap
  counter := Nat.le_trans h.counter h'.counter
  ids := h'.ids.trans h.ids
  grouped := h'.grouped.trans h.grouped
  nonempty := fun start => h'.nonempty (h.nonempty start)
  active := by
    rcases h'.active with same | valid
    · rw [same, h'.length_eq]
      exact h.active
    · exact .inr valid

theorem Regrouped.keeps {l l' : WindowList} (h : Regrouped l l') (grouped : l.Grouped) :
    l'.Grouped where
  nonempty := h.nonempty grouped.nonempty
  distinct := h.ids.nodup_iff.2 grouped.distinct
  below := by
    intro g member
    obtain ⟨old, oldMember, same⟩ :=
      List.mem_map.1 (h.ids.mem_iff.1 (List.mem_map_of_mem member))
    rw [← same]
    exact Nat.lt_of_lt_of_le (grouped.below old oldMember) h.counter
  lower := by
    have lower := grouped.lower
    rcases h.active with same | valid <;> omega
  upper := by
    have upper := grouped.upper
    have length := h.length_eq
    rcases h.active with same | valid <;> omega

/-! ### Operations that change the active group -/

theorem setActiveGroupIdx_regrouped (l : WindowList) (i : Int) :
    Regrouped l (l.setActiveGroupIdx i).1 := by
  unfold setActiveGroupIdx
  split
  · rename_i valid
    exact ⟨rfl, rfl, Nat.le_refl _, .refl _, .refl _, id, .inr valid.2⟩
  · exact .refl l

theorem setActiveGroupIdx_groups (l : WindowList) (i : Int) :
    (l.setActiveGroupIdx i).1.groups = l.groups := by
  unfold setActiveGroupIdx
  split <;> rfl

theorem setActiveGroupIdx_idx (l : WindowList) {i : Int} (lower : 0 ≤ i)
    (upper : i < l.groups.length) : (l.setActiveGroupIdx i).1.activeGroupIdx = i := by
  unfold setActiveGroupIdx
  split
  · rfl
  · rename_i refused
    by_contra other
    exact refused ⟨fun same => other same.symm, lower, upper⟩

theorem setActiveGroup_regrouped (l : WindowList) (groupId : Nat) :
    Regrouped l (l.setActiveGroup groupId).1 := by
  unfold setActiveGroup
  split
  · exact setActiveGroupIdx_regrouped l _
  · exact .refl l

theorem setActiveWindowGroupFor_regrouped (l : WindowList) (x : WindowOrId)
    (forKeepFocus : Option Window) : Regrouped l (l.setActiveWindowGroupFor x forKeepFocus) := by
  unfold setActiveWindowGroupFor
  split
  · exact .refl l
  · split
    · exact .refl l
    · rename_i i _
      have set := setActiveGroupIdx_regrouped l i
      dsimp only
      split
      · exact set
      · split
        · exact ⟨set.allWindows, set.idMap, set.counter, set.ids, set.grouped, set.nonempty,
            set.active⟩
        · exact set

theorem previousGroup_lt {groups : List WindowGroup} {history : List Nat} {which : Int} {x : Nat}
    (found : previousGroup groups history which = some x) : x < groups.length := by
  induction history generalizing which with
  | nil => cases found
  | cons gid rest ih =>
    unfold previousGroup at found
    split at found
    · rename_i index indexEq
      split at found
      · obtain rfl := Option.some.inj found
        exact (List.findIdx?_eq_some_iff_getElem.1 indexEq).1
      · exact ih found
    · exact ih found

/-- The group that becomes active is one of the groups there are. -/
theorem makePreviousGroupActive_spec (l : WindowList) (which : Int) :
    ∃ i : Int, l.makePreviousGroupActive which = (l.setActiveGroupIdx i).1 ∧
      (l.groups ≠ [] → 0 ≤ i ∧ i < l.groups.length) := by
  unfold makePreviousGroupActive
  split
  · rename_i x found
    have inside := previousGroup_lt found
    exact ⟨x, rfl, fun _ => by omega⟩
  · refine ⟨_, rfl, fun nonempty => ?_⟩
    have positive := List.length_pos_iff.2 nonempty
    omega

theorem makePreviousGroupActive_regrouped (l : WindowList) (which : Int) :
    Regrouped l (l.makePreviousGroupActive which) := by
  obtain ⟨i, equation, -⟩ := makePreviousGroupActive_spec l which
  rw [equation]
  exact setActiveGroupIdx_regrouped l i

theorem activateNextWindowGroup_regrouped (l : WindowList) (delta : Int) :
    Regrouped l (l.activateNextWindowGroup delta) := by
  unfold activateNextWindowGroup
  split
  · exact .refl l
  · exact setActiveGroupIdx_regrouped l _

/-! ### Operations that move windows and groups -/

/-- A group is rearranged inside. -/
theorem regrouped_set {l : WindowList} {i : Nat} {g g' : WindowGroup}
    (groupAt : l.groups[i]? = some g) (sameId : g'.id = g.id)
    (rearranged : g'.windows.Perm g.windows) :
    Regrouped l { l with groups := l.groups.set i g' } := by
  obtain ⟨inside, rfl⟩ := List.getElem?_eq_some_iff.1 groupAt
  obtain ⟨front, back, groupsEq, -, setEq⟩ := @List.exists_of_set _ i g' l.groups inside
  refine ⟨rfl, rfl, Nat.le_refl _, ?_, ?_, ?_, .inl rfl⟩
  · rw [setEq, List.map_append, List.map_cons, sameId, ← List.map_cons, ← List.map_append,
      ← groupsEq]
  · unfold grouped
    rw [setEq, List.flatMap_append]
    conv => rhs; rw [groupsEq, List.flatMap_append, List.flatMap_cons]
    exact (rearranged.append_right _).append_left _
  · intro start g member
    rcases List.mem_or_eq_of_mem_set member with old | rfl
    · exact start g old
    · intro empty
      rw [empty] at rearranged
      exact start _ (List.getElem_mem inside) rearranged.nil_eq.symm

theorem moveWindowToTopOfGroup_regrouped (l : WindowList) (window : Window) :
    Regrouped l (l.moveWindowToTopOfGroup window).1 := by
  unfold moveWindowToTopOfGroup
  split
  · exact .refl l
  · split
    · exact .refl l
    · rename_i g groupAt
      unfold WindowGroup.moveWindowToTopOfGroup
      cases found : g.windows.findIdx? (· = window) with
      | none => exact .refl l
      | some idx =>
        by_cases last : idx + 1 = g.windows.length
        · simp only [if_pos last]
          exact .refl l
        · simp only [if_neg last, if_true]
          obtain ⟨inside, here, -⟩ := List.findIdx?_eq_some_iff_getElem.1 found
          refine regrouped_set groupAt rfl ?_
          have same : g.windows[idx] = window := by simpa using here
          rw [← same]
          have taken := (List.erase_getElem inside).symm.cons g.windows[idx]
          exact (List.perm_append_singleton _ _).trans
            (taken.trans (List.perm_cons_erase (List.getElem_mem inside)).symm)

theorem swapGroups_regrouped (l : WindowList) (i j : Nat) : Regrouped l (l.swapGroups i j) := by
  unfold swapGroups
  split
  · rename_i g h first second
    obtain ⟨firstInside, rfl⟩ := List.getElem?_eq_some_iff.1 first
    obtain ⟨secondInside, rfl⟩ := List.getElem?_eq_some_iff.1 second
    have swapped := List.set_set_perm firstInside secondInside
    exact ⟨rfl, rfl, Nat.le_refl _, swapped.map _, swapped.flatMap_right _,
      fun start g member => start g (swapped.mem_iff.1 member), .inl rfl⟩
  · exact .refl l

theorem moveWindowGroup_regrouped (l : WindowList) (by_ : Option Int) (toGroup : Option Nat) :
    Regrouped l (l.moveWindowGroup by_ toGroup).1 := by
  unfold moveWindowGroup
  split
  · exact .refl l
  · have moved : ∀ target : Int, Regrouped l
        (if target > -1 then
          if target = l.activeGroupIdx then (l, false)
          else (((l.swapGroups l.activeGroupIdx.toNat target.toNat).setActiveGroupIdx target).1,
            true)
        else (l, false)).1 := by
      intro target
      split
      · split
        · exact .refl l
        · exact (swapGroups_regrouped l _ _).trans (setActiveGroupIdx_regrouped _ _)
      · exact .refl l
    exact moved _

/-! ### Adding a window -/

theorem lookupGroup_lt {l : WindowList} {x : Option WindowOrId} {i : Nat}
    (found : l.lookupGroup x = some (some i)) : i < l.groups.length := by
  cases x with
  | none => cases found
  | some x =>
    obtain ⟨q, -, here⟩ := Option.map_eq_some_iff.1 found
    exact (List.findIdx?_eq_some_iff_getElem.1 here).1

/-- The group that is added to is there already, or a new one. -/
theorem targetGroup_spec {l next : WindowList} {groupOf nextTo : Option WindowOrId} {before : Bool}
    {i : Nat} (found : l.targetGroup groupOf nextTo before = some (next, i)) :
    (next = l ∧ i < l.groups.length) ∨ (next = l.insertGroup i ∧ i ≤ l.groups.length) := by
  obtain ⟨inGroup, inGroupEq, rest⟩ := Option.bind_eq_some_iff.1 found
  cases inGroup with
  | some target =>
    obtain ⟨rfl, rfl⟩ := Prod.mk.inj (Option.some.inj rest)
    exact .inl ⟨rfl, lookupGroup_lt inGroupEq⟩
  | none =>
    obtain ⟨beside, besideEq, rest⟩ := Option.bind_eq_some_iff.1 rest
    obtain ⟨rfl, rfl⟩ := Prod.mk.inj (Option.some.inj rest)
    refine .inr ⟨rfl, ?_⟩
    cases beside with
    | none =>
      dsimp only
      split <;> omega
    | some pos =>
      have inside := lookupGroup_lt besideEq
      dsimp only
      split <;> omega

/-- What a successful addition does: the window is registered and joins a group, or is a new one. -/
structure Joined (l : WindowList) (window : Window) (l' : WindowList) : Prop where
  allWindows : l'.allWindows = l.allWindows ++ [window]
  idMap : l'.idMap = Function.update l.idMap window.id (some window)
  grouped : l'.grouped.Perm (window :: l.grouped)
  nonempty : l'.groups ≠ []
  keeps : l.Grouped → l'.Grouped
  active : l'.activeGroupIdx = l.activeGroupIdx ∨
    0 ≤ l'.activeGroupIdx ∧ l'.activeGroupIdx < l'.groups.length

theorem WindowGroup.addWindow_perm (g : WindowGroup) (window : Window) (headOfGroup : Bool) :
    (g.addWindow window headOfGroup).windows.Perm (window :: g.windows) := by
  cases headOfGroup with
  | true => exact .refl _
  | false => exact List.perm_append_singleton window g.windows

/-- The window joins a group that is there. -/
theorem joined_modify {l : WindowList} {i : Nat} (inside : i < l.groups.length) (window : Window)
    (headOfGroup : Bool) :
    Joined l window { l.register window with
      groups := l.groups.modify i (·.addWindow window headOfGroup) } := by
  obtain ⟨front, g, back, groupsEq, -, modifyEq⟩ :=
    List.exists_of_modify (·.addWindow window headOfGroup) inside
  have sameIds : (l.groups.modify i (·.addWindow window headOfGroup)).map WindowGroup.id =
      l.groups.map WindowGroup.id := by
    rw [modifyEq, groupsEq, List.map_append, List.map_append]
    rfl
  refine ⟨rfl, rfl, ?_, ?_, ?_, .inl rfl⟩
  · unfold WindowList.grouped
    rw [modifyEq, groupsEq, List.flatMap_append, List.flatMap_append]
    refine (((WindowGroup.addWindow_perm g window headOfGroup).append_right _).append_left _).trans
      ?_
    exact List.perm_middle
  · simpa using List.ne_nil_of_length_pos (Nat.zero_lt_of_lt inside)
  · intro start
    refine ⟨?_, sameIds ▸ start.distinct, ?_, start.lower, ?_⟩
    · intro g' member
      rw [modifyEq] at member
      rcases List.mem_append.1 member with old | new
      · exact start.nonempty g' (groupsEq ▸ List.mem_append_left _ old)
      · rcases List.mem_cons.1 new with rfl | old
        · exact fun empty => by
            simpa [empty] using WindowGroup.addWindow_perm g window headOfGroup
        · exact start.nonempty g' (groupsEq ▸ List.mem_append_right _ (List.mem_cons_of_mem _ old))
    · intro g' member
      obtain ⟨old, oldMember, same⟩ :=
        List.mem_map.1 (sameIds ▸ List.mem_map_of_mem (f := WindowGroup.id) member)
      exact same ▸ start.below old oldMember
    · rw [List.length_modify]
      exact start.upper

theorem modify_insertIdx {α : Type} (items : List α) {i : Nat} (inside : i ≤ items.length) (a : α)
    (f : α → α) : (items.insertIdx i a).modify i f = items.insertIdx i (f a) := by
  refine List.ext_getElem? fun j => ?_
  rw [List.getElem?_modify, List.getElem?_insertIdx, List.getElem?_insertIdx]
  rcases Nat.lt_trichotomy j i with below | rfl | above
  · simp [below, Nat.ne_of_gt below]
  · simp
  · simp [Nat.ne_of_lt above, Nat.ne_of_gt above]

/-- The window gets a group of its own. -/
theorem joined_insert {l : WindowList} {i : Nat} (inside : i ≤ l.groups.length) (window : Window)
    (headOfGroup : Bool) :
    Joined l window { (l.register window).insertGroup i with
      groups := ((l.register window).insertGroup i).groups.modify i
        (·.addWindow window headOfGroup) } := by
  have alone : ({ id := l.groupIdCounter } : WindowGroup).addWindow window headOfGroup =
      { id := l.groupIdCounter, windows := [window] } := by
    cases headOfGroup <;> rfl
  have groupsEq : ((l.register window).insertGroup i).groups.modify i
      (·.addWindow window headOfGroup) =
        l.groups.insertIdx i { id := l.groupIdCounter, windows := [window] } := by
    rw [← alone]
    exact modify_insertIdx l.groups inside _ _
  have perm := List.perm_insertIdx
    ({ id := l.groupIdCounter, windows := [window] } : WindowGroup) l.groups inside
  rw [← groupsEq] at perm
  refine ⟨rfl, rfl, ?_, ?_, ?_, .inl rfl⟩
  · exact perm.flatMap_right WindowGroup.windows
  · refine List.ne_nil_of_length_pos ?_
    have length := perm.length_eq
    rw [length]
    exact Nat.succ_pos _
  · intro start
    have length := perm.length_eq
    have lower := start.lower
    have upper := start.upper
    rw [List.length_cons] at length
    refine ⟨?_, ?_, ?_, lower, ?_⟩
    · intro g member
      rcases List.mem_cons.1 (perm.mem_iff.1 member) with rfl | old
      · simp
      · exact start.nonempty g old
    · refine (perm.map WindowGroup.id).nodup_iff.2 (List.nodup_cons.2 ⟨?_, start.distinct⟩)
      intro member
      obtain ⟨g, old, same⟩ := List.mem_map.1 member
      exact Nat.lt_irrefl _ (same ▸ start.below g old)
    · intro g member
      rcases List.mem_cons.1 (perm.mem_iff.1 member) with rfl | old
      · exact Nat.lt_succ_self _
      · exact Nat.lt_succ_of_lt (start.below g old)
    · change l.activeGroupIdx < _
      dsimp only
      omega

theorem Joined.trans {l middle last : WindowList} {window : Window} (h : Joined l window middle)
    (h' : Regrouped middle last) : Joined l window last where
  allWindows := h'.allWindows.trans h.allWindows
  idMap := h'.idMap.trans h.idMap
  grouped := h'.grouped.trans h.grouped
  nonempty := by
    have length := h'.length_eq
    have positive := List.length_pos_iff.2 h.nonempty
    exact List.length_pos_iff.1 (by omega)
  keeps := fun start => h'.keeps (h.keeps start)
  active := by
    rcases h'.active with same | valid
    · rw [same, h'.length_eq]
      exact h.active
    · exact .inr valid

theorem addWindow_joined {l next : WindowList} {window : Window}
    {groupOf nextTo : Option WindowOrId} {before : Bool} {i : Nat}
    (found : (l.register window).targetGroup groupOf nextTo before = some (next, i))
    (makeActive headOfGroup : Bool) :
    Joined l window (l.addWindow window groupOf nextTo before makeActive headOfGroup) ∧
      (makeActive = true →
        0 ≤ (l.addWindow window groupOf nextTo before makeActive headOfGroup).activeGroupIdx) := by
  have joined : Joined l window
        { next with groups := next.groups.modify i (·.addWindow window headOfGroup) } ∧
      i < (next.groups.modify i (·.addWindow window headOfGroup)).length := by
    rcases targetGroup_spec found with ⟨rfl, inside⟩ | ⟨rfl, inside⟩
    · exact ⟨joined_modify (l := l) inside window headOfGroup, by simpa using inside⟩
    · refine ⟨joined_insert (l := l) inside window headOfGroup, ?_⟩
      have inside' : i ≤ l.groups.length := inside
      simp only [insertGroup, register, List.length_modify, List.length_insertIdx, if_pos inside']
      omega
  unfold addWindow
  simp only [found]
  cases makeActive with
  | false => exact ⟨joined.1, fun h => by cases h⟩
  | true =>
    refine ⟨joined.1.trans (setActiveGroupIdx_regrouped _ _), fun _ => ?_⟩
    rw [if_pos rfl, setActiveGroupIdx_idx _ (by omega) (by exact_mod_cast joined.2)]
    omega

/-! ### Removing a window -/

/-- The group holds nothing but the window, or nothing. -/
def emptiedBy (q : Window) (g : WindowGroup) : Bool := decide ((g.removeWindow q).windows = [])

/-- The groups of the list when the group at `k` has just lost its last window. -/
def emptiedAt (q : Window) (k : Nat) (groups : List WindowGroup) : List WindowGroup :=
  (groups.take (k + 1)).map (·.removeWindow q) ++ groups.drop (k + 1)

theorem removeFromGroups_eq (q : Window) (front rest : List WindowGroup) (l : WindowList)
    (groupsEq : l.groups = front ++ rest) :
    removeFromGroups q front.length rest l =
      match rest.findIdx? (emptiedBy q) with
      | none => { l with groups := front ++ rest.map (·.removeWindow q) }
      | some k => deleteGroup { l with groups := front ++ emptiedAt q k rest } (front.length + k) := by
  induction rest generalizing front l with
  | nil =>
    simp [removeFromGroups, ← groupsEq]
  | cons g rest ih =>
    have stored : l.groups.set front.length (g.removeWindow q) =
        front ++ g.removeWindow q :: rest := by
      simp [groupsEq]
    rw [removeFromGroups, List.findIdx?_cons]
    by_cases empty : (g.removeWindow q).windows = []
    · have here : emptiedBy q g = true := decide_eq_true empty
      simp only [if_pos empty, here, stored]
      simp [emptiedAt]
    · have here : emptiedBy q g = false := decide_eq_false empty
      have next := ih (front ++ [g.removeWindow q])
        { l with groups := l.groups.set front.length (g.removeWindow q) } (by simp [stored])
      rw [List.length_append, List.length_singleton] at next
      simp only [if_neg empty, here, next]
      cases rest.findIdx? (emptiedBy q) with
      | none => simp
      | some k => simp [emptiedAt, Nat.add_assoc, Nat.add_comm 1 k]

/-- The list without the window, but with its groups as they were. -/
def forget (l : WindowList) (q : Window) : WindowList :=
  { l with
    allWindows := l.allWindows.erase q
    idMap := Function.update l.idMap q.id none }

/-- `remove_window` takes the window out of the groups up to the first one it empties, and deletes
that one. -/
theorem removeWindow_eq {l : WindowList} {x : WindowOrId} {q : Window}
    (resolved : l.resolve x = some q) :
    l.removeWindow x =
      match l.groups.findIdx? (emptiedBy q) with
      | none => { l.forget q with groups := l.groups.map (·.removeWindow q) }
      | some k => deleteGroup { l.forget q with groups := emptiedAt q k l.groups } k := by
  have loop := removeFromGroups_eq q [] l.groups (l.forget q) rfl
  simp only [removeWindow, resolved]
  refine Eq.trans loop ?_
  cases l.groups.findIdx? (emptiedBy q) with
  | none => rfl
  | some k => simp only [List.length_nil, Nat.zero_add, List.nil_append]

theorem eraseIdx_emptiedAt (q : Window) {k : Nat} {groups : List WindowGroup}
    (inside : k < groups.length) :
    (emptiedAt q k groups).eraseIdx k =
      (groups.take k).map (·.removeWindow q) ++ groups.drop (k + 1) := by
  have front : ((groups.take k).map (·.removeWindow q)).length = k := by
    rw [List.length_map, List.length_take]
    omega
  rw [emptiedAt, List.take_succ_eq_append_getElem inside, List.map_append, List.append_assoc,
    List.eraseIdx_append_of_length_le (by omega), front, Nat.sub_self]
  rfl

/-- What deleting a group leaves, and which index is active then. -/
structure Deleted (l : WindowList) (i : Nat) (l' : WindowList) : Prop where
  allWindows : l'.allWindows = l.allWindows
  idMap : l'.idMap = l.idMap
  counter : l.groupIdCounter ≤ l'.groupIdCounter
  groups : l'.groups = l.groups.eraseIdx i
  last : l.groups.eraseIdx i = [] → l'.activeGroupIdx = -1
  this : l.groups.eraseIdx i ≠ [] → l.activeGroupIdx = i →
    0 ≤ l'.activeGroupIdx ∧ l'.activeGroupIdx < (l.groups.eraseIdx i).length
  other : l.groups.eraseIdx i ≠ [] → l.activeGroupIdx ≠ i →
    (l.groups.eraseIdx i).length ≤ l.activeGroupIdx ∧
        l'.activeGroupIdx = l.activeGroupIdx - 1 ∨
      l.activeGroupIdx < (l.groups.eraseIdx i).length ∧ l'.activeGroupIdx = l.activeGroupIdx

theorem deleteGroup_deleted (l : WindowList) (i : Nat) : Deleted l i (l.deleteGroup i) := by
  unfold deleteGroup
  by_cases some : l.groups.eraseIdx i ≠ []
  · rw [if_pos some]
    by_cases this : l.activeGroupIdx = (i : Int)
    · rw [if_pos this]
      obtain ⟨x, madeEq, valid⟩ :=
        makePreviousGroupActive_spec { l with groups := l.groups.eraseIdx i } 1
      obtain ⟨lower, upper⟩ := valid some
      have set := setActiveGroupIdx_regrouped { l with groups := l.groups.eraseIdx i } x
      rw [madeEq]
      exact ⟨set.allWindows, set.idMap, set.counter, setActiveGroupIdx_groups _ x,
        fun none => absurd none some,
        fun _ _ => by rw [setActiveGroupIdx_idx _ lower upper]; exact ⟨lower, upper⟩,
        fun _ other => absurd this other⟩
    · rw [if_neg this]
      by_cases beyond : ((l.groups.eraseIdx i).length : Int) ≤ l.activeGroupIdx
      · rw [if_pos beyond]
        exact ⟨rfl, rfl, Nat.le_refl _, rfl, fun none => absurd none some,
          fun _ same => absurd same this, fun _ _ => .inl ⟨beyond, rfl⟩⟩
      · rw [if_neg beyond]
        exact ⟨rfl, rfl, Nat.le_refl _, rfl, fun none => absurd none some,
          fun _ same => absurd same this, fun _ _ => .inr ⟨Int.not_le.1 beyond, rfl⟩⟩
  · rw [if_neg some]
    exact ⟨rfl, rfl, Nat.le_refl _, rfl, fun _ => rfl, fun h => absurd h some,
      fun h => absurd h some⟩

/-- What removing a window does to the list. -/
structure Removed (l : WindowList) (q : Window) (l' : WindowList) : Prop where
  allWindows : l'.allWindows = l.allWindows.erase q
  idMap : l'.idMap = Function.update l.idMap q.id none
  keeps : l.Grouped → l'.Grouped
  grouped : l.Grouped → l.grouped.Nodup → l'.grouped = l.grouped.filter (· ≠ q)
  active : 0 ≤ l.activeGroupIdx → l'.groups ≠ [] → 0 ≤ l'.activeGroupIdx

theorem emptiedBy_iff {q : Window} {g : WindowGroup} (nonempty : g.windows ≠ []) :
    emptiedBy q g = true ↔ g.windows = [q] := by
  simp [emptiedBy, WindowGroup.removeWindow, nonempty]

/-- Taking the window out of some groups that hold each window once. -/
theorem flatMap_removeWindow (q : Window) (groups : List WindowGroup)
    (once : ∀ g ∈ groups, g.windows.Nodup) :
    (groups.map (·.removeWindow q)).flatMap WindowGroup.windows =
      (groups.flatMap WindowGroup.windows).filter (· ≠ q) := by
  induction groups with
  | nil => rfl
  | cons g rest ih =>
    have here : (g.removeWindow q).windows = g.windows.filter (· ≠ q) := by
      have erased := (once g (by simp)).erase_eq_filter q
      simpa [WindowGroup.removeWindow, bne, beq_eq_decide] using erased
    rw [List.map_cons, List.flatMap_cons, List.flatMap_cons, List.filter_append, here,
      ih fun g member => once g (List.mem_cons_of_mem _ member)]

theorem removeWindow_map_ids (q : Window) (groups : List WindowGroup) :
    (groups.map (·.removeWindow q)).map WindowGroup.id = groups.map WindowGroup.id := by
  rw [List.map_map]
  rfl

theorem removeWindow_removed {l : WindowList} {x : WindowOrId} {q : Window}
    (resolved : l.resolve x = some q) : Removed l q (l.removeWindow x) := by
  rw [removeWindow_eq resolved]
  cases found : l.groups.findIdx? (emptiedBy q) with
  | none =>
    have kept := List.findIdx?_eq_none_iff.1 found
    refine ⟨rfl, rfl, fun start => ?_, fun _ once => ?_, fun lower _ => lower⟩
    · refine ⟨?_, ?_, ?_, start.lower, ?_⟩
      · intro g member
        obtain ⟨old, oldMember, rfl⟩ := List.mem_map.1 member
        exact of_decide_eq_false (kept old oldMember)
      · exact (removeWindow_map_ids q l.groups).symm ▸ start.distinct
      · intro g member
        obtain ⟨old, oldMember, rfl⟩ := List.mem_map.1 member
        exact start.below old oldMember
      · rw [List.length_map]
        exact start.upper
    · exact flatMap_removeWindow q l.groups (List.nodup_flatMap.1 once).1
  | some k =>
    obtain ⟨inside, emptied, first⟩ := List.findIdx?_eq_some_iff_getElem.1 found
    have deleted := deleteGroup_deleted { l.forget q with groups := emptiedAt q k l.groups } k
    have left : (emptiedAt q k l.groups).eraseIdx k =
        (l.groups.take k).map (·.removeWindow q) ++ l.groups.drop (k + 1) :=
      eraseIdx_emptiedAt q inside
    have split : l.groups.take k ++ l.groups[k] :: l.groups.drop (k + 1) = l.groups := by
      rw [List.getElem_cons_drop, List.take_append_drop]
    have leftLength : ((emptiedAt q k l.groups).eraseIdx k).length + 1 = l.groups.length := by
      rw [left, List.length_append, List.length_map, List.length_take, List.length_drop]
      omega
    have leftIds : ((emptiedAt q k l.groups).eraseIdx k).map WindowGroup.id =
        (l.groups.eraseIdx k).map WindowGroup.id := by
      rw [left, List.map_append, removeWindow_map_ids, ← List.map_append,
        ← List.eraseIdx_eq_take_drop_succ]
    dsimp only
    generalize deleteGroup { l.forget q with groups := emptiedAt q k l.groups } k = l' at deleted ⊢
    refine ⟨deleted.allWindows, deleted.idMap, fun start => ?_,
      fun start once => ?_, fun lower some => ?_⟩
    · have upper := start.upper
      have lower := start.lower
      refine ⟨?_, ?_, ?_, ?_, ?_⟩
      · intro g member
        rw [deleted.groups, left] at member
        rcases List.mem_append.1 member with taken | dropped
        · obtain ⟨old, oldMember, rfl⟩ := List.mem_map.1 taken
          obtain ⟨j, below, rfl⟩ := List.mem_take_iff_getElem.1 oldMember
          exact fun empty => first j (by omega) (decide_eq_true empty)
        · exact start.nonempty g (List.mem_of_mem_drop dropped)
      · rw [deleted.groups, leftIds]
        exact start.distinct.sublist ((List.eraseIdx_sublist ..).map _)
      · intro g member
        rw [deleted.groups] at member
        have inIds := List.mem_map_of_mem (f := WindowGroup.id) member
        rw [leftIds] at inIds
        obtain ⟨old, oldMember, same⟩ := List.mem_map.1 inIds
        rw [← same]
        exact Nat.lt_of_lt_of_le (start.below old (List.mem_of_mem_eraseIdx oldMember))
          deleted.counter
      · by_cases none : (emptiedAt q k l.groups).eraseIdx k = []
        · exact Int.le_of_eq (deleted.last none).symm
        · by_cases this : l.activeGroupIdx = k
          · have valid := deleted.this none this
            omega
          · have moved := deleted.other none this
            dsimp only [forget] at moved
            omega
      · rw [deleted.groups]
        by_cases none : (emptiedAt q k l.groups).eraseIdx k = []
        · rw [deleted.last none]
          omega
        · by_cases this : l.activeGroupIdx = k
          · exact (deleted.this none this).2
          · have moved := deleted.other none this
            dsimp only [forget] at moved ⊢
            omega
    · have here : l.groups[k].windows = [q] :=
        (emptiedBy_iff (start.nonempty _ (List.getElem_mem inside))).1 emptied
      unfold WindowList.grouped at once ⊢
      rw [deleted.groups, left]
      rw [← split] at once
      conv => rhs; rw [← split]
      rw [List.flatMap_append, List.flatMap_cons, here] at once
      have onceFront := (List.nodup_append.1 once).1
      have elsewhere : q ∉ (l.groups.drop (k + 1)).flatMap WindowGroup.windows :=
        (List.nodup_cons.1 (List.nodup_append.1 once).2.1).1
      have dropped : ((l.groups.drop (k + 1)).flatMap WindowGroup.windows).filter (· ≠ q) =
          (l.groups.drop (k + 1)).flatMap WindowGroup.windows :=
        List.filter_eq_self.2 fun w member =>
          decide_eq_true fun same => elsewhere (same ▸ member)
      rw [List.flatMap_append, List.flatMap_append, List.flatMap_cons, here, List.filter_append,
        List.filter_append, dropped, flatMap_removeWindow q _ (List.nodup_flatMap.1 onceFront).1]
      simp
    · rw [deleted.groups] at some
      have positive := List.length_pos_iff.2 some
      by_cases this : l.activeGroupIdx = k
      · exact (deleted.this some this).1
      · have moved := deleted.other some this
        dsimp only [forget] at moved positive
        omega

/-! ### The four representations -/

/-- Every window is in exactly one group, no group is empty, the id map and the list have the same
windows, and the active index is -1 or valid. -/
structure WellStructured (l : WindowList) : Prop where
  oneGroup : ∀ w ∈ l.allWindows, ∃! i : Nat, ∃ g, l.groups[i]? = some g ∧ w ∈ g.windows
  nonempty : ∀ g ∈ l.groups, g.windows ≠ []
  idMap : ∀ id w, l.idMap id = some w ↔ w ∈ l.allWindows ∧ w.id = id
  noGroups : l.groups = [] → l.activeGroupIdx = -1
  valid : l.groups ≠ [] → 0 ≤ l.activeGroupIdx ∧ l.activeGroupIdx < l.groups.length

/-- The invariant behind it: the groups partition the windows. -/
structure Consistent (l : WindowList) : Prop where
  groups : l.Grouped
  partition : l.grouped.Perm l.allWindows
  distinct : l.allWindows.Nodup
  idMap : ∀ id w, l.idMap id = some w ↔ w ∈ l.allWindows ∧ w.id = id
  active : l.groups ≠ [] → 0 ≤ l.activeGroupIdx

theorem Consistent.wellStructured {l : WindowList} (h : l.Consistent) : l.WellStructured where
  oneGroup := by
    intro w member
    obtain ⟨g, groupMember, inGroup⟩ := List.mem_flatMap.1 (h.partition.mem_iff.2 member)
    obtain ⟨i, groupAt⟩ := List.mem_iff_getElem?.1 groupMember
    refine ⟨i, ⟨g, groupAt, inGroup⟩, ?_⟩
    rintro j ⟨other, otherAt, inOther⟩
    by_contra distinct
    have apart := (List.nodup_flatMap.1 (h.partition.nodup_iff.2 h.distinct)).2
    obtain ⟨inside, rfl⟩ := List.getElem?_eq_some_iff.1 groupAt
    obtain ⟨otherInside, rfl⟩ := List.getElem?_eq_some_iff.1 otherAt
    rcases Nat.lt_or_gt_of_ne distinct with before | after
    · exact List.pairwise_iff_getElem.1 apart j i otherInside inside before inOther inGroup
    · exact List.pairwise_iff_getElem.1 apart i j inside otherInside after inGroup inOther
  nonempty := h.groups.nonempty
  idMap := h.idMap
  noGroups := by
    intro none
    have lower := h.groups.lower
    have upper := h.groups.upper
    rw [none, List.length_nil] at upper
    omega
  valid := fun some => ⟨h.active some, h.groups.upper⟩

theorem Regrouped.consistent {l l' : WindowList} (h : Regrouped l l') (start : l.Consistent) :
    l'.Consistent where
  groups := h.keeps start.groups
  partition := by
    rw [h.allWindows]
    exact h.grouped.trans start.partition
  distinct := h.allWindows ▸ start.distinct
  idMap := by
    rw [h.idMap, h.allWindows]
    exact start.idMap
  active := by
    intro some
    have positive := List.length_pos_iff.2 some
    have before := start.active (List.length_pos_iff.1 (h.length_eq ▸ positive))
    rcases h.active with same | valid <;> omega

theorem Joined.consistent {l l' : WindowList} {window : Window} (h : Joined l window l')
    (start : l.Consistent) (fresh : window ∉ l.allWindows) (active : 0 ≤ l'.activeGroupIdx) :
    l'.Consistent where
  groups := h.keeps start.groups
  partition := by
    rw [h.allWindows]
    exact h.grouped.trans ((start.partition.cons window).trans
      (List.perm_append_singleton window l.allWindows).symm)
  distinct := by
    rw [h.allWindows]
    exact (List.perm_append_singleton window l.allWindows).nodup_iff.2
      (List.nodup_cons.2 ⟨fresh, start.distinct⟩)
  idMap := by
    intro id w
    rw [h.idMap, h.allWindows, List.mem_append, List.mem_singleton]
    by_cases this : id = window.id
    · subst this
      rw [Function.update_self, Option.some.injEq]
      constructor
      · rintro rfl
        exact ⟨.inr rfl, rfl⟩
      · rintro ⟨-, sameId⟩
        exact (congrArg Window.mk sameId).symm
    · rw [Function.update_of_ne this, start.idMap]
      constructor
      · exact fun ⟨member, sameId⟩ => ⟨.inl member, sameId⟩
      · rintro ⟨member | rfl, sameId⟩
        · exact ⟨member, sameId⟩
        · exact absurd sameId.symm this
  active := fun _ => active

theorem Removed.consistent {l l' : WindowList} {q : Window} (h : Removed l q l')
    (start : l.Consistent) : l'.Consistent where
  groups := h.keeps start.groups
  partition := by
    rw [h.allWindows, h.grouped start.groups (start.partition.nodup_iff.2 start.distinct),
      start.distinct.erase_eq_filter q]
    simpa [bne, beq_eq_decide] using start.partition.filter (· ≠ q)
  distinct := h.allWindows ▸ start.distinct.erase q
  idMap := by
    intro id w
    rw [h.idMap, h.allWindows, start.distinct.mem_erase_iff]
    by_cases this : id = q.id
    · subst this
      rw [Function.update_self]
      constructor
      · rintro ⟨⟩
      · rintro ⟨⟨other, -⟩, sameId⟩
        exact absurd (congrArg Window.mk sameId) other
    · rw [Function.update_of_ne this, start.idMap]
      constructor
      · exact fun ⟨member, sameId⟩ =>
          ⟨⟨fun same => this (sameId.symm.trans (congrArg Window.id same)), member⟩, sameId⟩
      · exact fun ⟨⟨_, member⟩, sameId⟩ => ⟨member, sameId⟩
  active := by
    intro some
    refine h.active (start.active ?_) some
    intro none
    have empty := h.grouped start.groups (start.partition.nodup_iff.2 start.distinct)
    rw [WindowList.grouped, WindowList.grouped, none, List.flatMap_nil, List.filter_nil,
      List.flatMap_eq_nil_iff] at empty
    obtain ⟨g, member⟩ := List.exists_mem_of_ne_nil _ some
    exact (h.keeps start.groups).nonempty g member (empty g member)

/-! ### Runs -/

/-- A window that is added is not in the list yet. -/
def Fresh (l : WindowList) : WindowEvent → Prop
  | .addWindow window _ _ _ _ _ => window ∉ l.allWindows
  | _ => True

/-- A window is added without a `KeyError` for an id that names no window, and it is made active if
it is the first one. -/
def AddsInOrder (l : WindowList) : WindowEvent → Prop
  | .addWindow window groupOf nextTo before makeActive _ =>
    ((l.register window).targetGroup groupOf nextTo before).isSome ∧
      (makeActive = true ∨ l.groups ≠ [])
  | _ => True

/-- Every operation adds a window, removes one, or rearranges the list. -/
theorem windowStep_cases {l next : WindowList} {event : WindowEvent}
    (stepEq : windowStep l event = some next) :
    (∃ window groupOf nextTo before makeActive headOfGroup,
        event = .addWindow window groupOf nextTo before makeActive headOfGroup ∧
        next = l.addWindow window groupOf nextTo before makeActive headOfGroup) ∨
      (∃ q, Removed l q next) ∨ Regrouped l next := by
  cases event with
  | addWindow window groupOf nextTo before makeActive headOfGroup =>
    exact .inl ⟨_, _, _, _, _, _, rfl, (Option.some.inj stepEq).symm⟩
  | removeWindow x =>
    obtain rfl := Option.some.inj stepEq
    cases resolved : l.resolve x with
    | none =>
      have unchanged : l.removeWindow x = l := by simp only [removeWindow, resolved]
      rw [unchanged]
      exact .inr (.inr (.refl l))
    | some q => exact .inr (.inl ⟨q, removeWindow_removed resolved⟩)
  | setActiveGroupIdx i =>
    exact .inr (.inr (Option.some.inj stepEq ▸ setActiveGroupIdx_regrouped l i))
  | setActiveGroup groupId =>
    exact .inr (.inr (Option.some.inj stepEq ▸ setActiveGroup_regrouped l groupId))
  | setActiveWindowGroupFor x forKeepFocus =>
    exact .inr (.inr (Option.some.inj stepEq ▸ setActiveWindowGroupFor_regrouped l x forKeepFocus))
  | makePreviousGroupActive which =>
    exact .inr (.inr (Option.some.inj stepEq ▸ makePreviousGroupActive_regrouped l which))
  | activateNextWindowGroup delta =>
    exact .inr (.inr (Option.some.inj stepEq ▸ activateNextWindowGroup_regrouped l delta))
  | moveWindowToTopOfGroup window =>
    exact .inr (.inr (Option.some.inj stepEq ▸ moveWindowToTopOfGroup_regrouped l window))
  | moveWindowGroup by_ toGroup =>
    exact .inr (.inr (Option.some.inj stepEq ▸ moveWindowGroup_regrouped l by_ toGroup))
  | groupElsewhere =>
    obtain rfl := Option.some.inj stepEq
    exact .inr (.inr ⟨rfl, rfl, Nat.le_succ _, .refl _, .refl _, id, .inl rfl⟩)

theorem windowStep_consistent {l next : WindowList} {event : WindowEvent} (start : l.Consistent)
    (fresh : l.Fresh event) (inOrder : l.AddsInOrder event)
    (stepEq : windowStep l event = some next) : next.Consistent := by
  rcases windowStep_cases stepEq with
    ⟨window, groupOf, nextTo, before, makeActive, headOfGroup, rfl, rfl⟩ | ⟨q, removed⟩ |
    regrouped
  · obtain ⟨found, first⟩ := inOrder
    obtain ⟨target, found⟩ := Option.isSome_iff_exists.1 found
    obtain ⟨joined, made⟩ := addWindow_joined found makeActive headOfGroup
    refine joined.consistent start fresh ?_
    rcases first with active | some
    · exact made active
    · have before := start.active some
      rcases joined.active with same | valid <;> omega
  · exact removed.consistent start
  · exact regrouped.consistent start

/-- What holds of the groups survives every operation, also one that raises. -/
theorem windowStep_grouped {l next : WindowList} {event : WindowEvent} (start : l.Grouped)
    (stepEq : windowStep l event = some next) : next.Grouped := by
  rcases windowStep_cases stepEq with
    ⟨window, groupOf, nextTo, before, makeActive, headOfGroup, rfl, rfl⟩ | ⟨q, removed⟩ |
    regrouped
  · cases found : (l.register window).targetGroup groupOf nextTo before with
    | none =>
      have registered : l.addWindow window groupOf nextTo before makeActive headOfGroup =
          l.register window := by simp only [addWindow, found]
      rw [registered]
      exact { start with }
    | some target => exact (addWindow_joined found makeActive headOfGroup).1.keeps start
  · exact removed.keeps start
  · exact regrouped.keeps start

/-- An addition that raises, or that leaves the first window inactive, breaks the structure. -/
theorem windowStep_breaks {l next : WindowList} {event : WindowEvent} (start : l.Consistent)
    (fresh : l.Fresh event) (disorder : ¬ l.AddsInOrder event)
    (stepEq : windowStep l event = some next) : ¬ next.WellStructured := by
  cases event with
  | addWindow window groupOf nextTo before makeActive headOfGroup =>
    obtain rfl := Option.some.inj stepEq
    intro structured
    cases found : (l.register window).targetGroup groupOf nextTo before with
    | none =>
      have registered : l.addWindow window groupOf nextTo before makeActive headOfGroup =
          l.register window := by simp only [addWindow, found]
      rw [registered] at structured
      obtain ⟨i, ⟨g, groupAt, inGroup⟩, -⟩ :=
        structured.oneGroup window (List.mem_append_right _ (by simp))
      refine fresh (start.partition.mem_iff.1 ?_)
      exact List.mem_flatMap.2 ⟨g, List.mem_of_getElem? groupAt, inGroup⟩
    | some target =>
      obtain ⟨joined, -⟩ := addWindow_joined found makeActive headOfGroup
      have inactive : makeActive = false ∧ l.groups = [] := by
        by_contra other
        refine disorder ⟨Option.isSome_iff_exists.2 ⟨_, found⟩, ?_⟩
        cases makeActive with
        | true => exact .inl rfl
        | false => exact .inr fun none => other ⟨rfl, none⟩
      obtain ⟨rfl, none⟩ := inactive
      have lower := (structured.valid joined.nonempty).1
      have upper := start.groups.upper
      have untouched : (l.addWindow window groupOf nextTo before false
          headOfGroup).activeGroupIdx = l.activeGroupIdx := by
        obtain ⟨grouped, i⟩ := target
        simp only [addWindow, found]
        rcases targetGroup_spec found with ⟨rfl, -⟩ | ⟨rfl, -⟩ <;> rfl
      rw [none, List.length_nil] at upper
      omega
  | removeWindow | setActiveGroupIdx | setActiveGroup | setActiveWindowGroupFor
  | makePreviousGroupActive | activateNextWindowGroup | moveWindowToTopOfGroup | moveWindowGroup
  | groupElsewhere => exact absurd trivial disorder

theorem start_consistent (counter : Nat) : Consistent { groupIdCounter := counter } where
  groups := ⟨by simp, List.nodup_nil, by simp, Int.le_refl _, by simp⟩
  partition := .refl _
  distinct := List.nodup_nil
  idMap := by simp
  active := fun some => absurd rfl some

end WindowList

open WindowList

/-- In a run that adds windows that are not in the list, the list is well structured in every state
exactly when no addition names an id that is unknown, and none leaves the first window inactive. -/
theorem windowListStructure (counter : Nat) (events : List WindowEvent)
    (fresh : ∀ l event, Takes windowStep { groupIdCounter := counter } events l event →
      l.Fresh event) :
    (∀ l, Visits windowStep { groupIdCounter := counter } events l → l.WellStructured) ↔
      ∀ l event, Takes windowStep { groupIdCounter := counter } events l event →
        l.AddsInOrder event :=
  visits_iff_takes_of_stronger (fun _ => Consistent.wellStructured)
    (fun _ _ _ start allowed inOrder stepEq => windowStep_consistent start allowed inOrder stepEq)
    (fun _ _ _ start allowed disorder stepEq => windowStep_breaks start allowed disorder stepEq)
    (start_consistent counter) fresh

/-- A window added first without being made active: there is a group, and none is active. -/
theorem windowListStructure_first_inactive :
    ∃ l, run windowStep {} [.addWindow ⟨1⟩ none none false false false] = some l ∧
      ¬ l.WellStructured := by
  refine ⟨_, rfl, fun structured => ?_⟩
  exact absurd (structured.valid (List.cons_ne_nil _ _)).1 (by decide)

/-- A window, an overlay over it, and its removal. -/
theorem windowListStructure_overlay :
    (∀ l, Visits windowStep { groupIdCounter := 1 }
        [.addWindow ⟨1⟩ none none false true false,
          .addWindow ⟨2⟩ (some (.id 1)) none false true false, .removeWindow (.id 1)] l →
        l.WellStructured) ↔
      ∀ l event, Takes windowStep { groupIdCounter := 1 }
        [.addWindow ⟨1⟩ none none false true false,
          .addWindow ⟨2⟩ (some (.id 1)) none false true false, .removeWindow (.id 1)] l event →
        l.AddsInOrder event := by
  refine windowListStructure 1
    [.addWindow ⟨1⟩ none none false true false,
      .addWindow ⟨2⟩ (some (.id 1)) none false true false, .removeWindow (.id 1)] ?_
  intro l event taken
  rcases takes_cons taken with ⟨rfl, rfl⟩ | ⟨_, stepEq, taken⟩
  · exact List.not_mem_nil
  obtain rfl := Option.some.inj stepEq
  rcases takes_cons taken with ⟨rfl, rfl⟩ | ⟨_, stepEq, taken⟩
  · exact of_decide_eq_false rfl
  rcases takes_cons taken with ⟨rfl, rfl⟩ | ⟨_, _, taken⟩
  · trivial
  · exact absurd taken (not_takes_nil _ _ _ _)

end Smelly
