/-
Module: Smelly.Proofs.WindowListReturn
Purpose: When a window that is added as the active one and removed again gives the focus back to the
  group that was active before.
Trusted boundary: none
-/
import Mathlib.Data.List.InsertIdx
import Smelly.Proofs.WindowListFocus

namespace Smelly

open Run

namespace WindowList

/-! ### The history of active groups -/

/-- What holds of the history in every run: its ids have been given out, and while no group is
active it names none of the groups there are. -/
structure Remembers (l : WindowList) : Prop where
  groups : ∀ g ∈ l.groups, g.id < l.groupIdCounter
  history : ∀ id ∈ l.activeGroupHistory, id < l.groupIdCounter
  idle : l.activeGroupIdx = -1 → ∀ g ∈ l.groups, g.id ∉ l.activeGroupHistory

/-- Groups and history entries may go; a group may only become inactive when all groups go. -/
theorem Remembers.shrink {l l' : WindowList} (start : l.Remembers)
    (groups : ∀ g ∈ l'.groups, ∃ old ∈ l.groups, old.id = g.id)
    (history : ∀ id ∈ l'.activeGroupHistory, id ∈ l.activeGroupHistory)
    (counter : l.groupIdCounter ≤ l'.groupIdCounter)
    (active : l'.activeGroupIdx = -1 → l'.groups = [] ∨ l.activeGroupIdx = -1) :
    l'.Remembers where
  groups := by
    intro g member
    obtain ⟨old, oldMember, same⟩ := groups g member
    exact same ▸ Nat.lt_of_lt_of_le (start.groups old oldMember) counter
  history := fun id member => Nat.lt_of_lt_of_le (start.history id (history id member)) counter
  idle := by
    intro inactive g member remembered
    obtain ⟨old, oldMember, same⟩ := groups g member
    rcases active inactive with none | before
    · rw [none] at member
      cases member
    · exact start.idle before old oldMember (same ▸ history g.id remembered)

theorem recordHistory_mem {history : List Nat} {groupId id : Nat}
    (member : id ∈ recordHistory history groupId) : id ∈ history ∨ id = groupId := by
  rcases List.mem_append.1 (List.mem_of_mem_drop member) with old | new
  · exact .inl (List.mem_of_mem_erase old)
  · exact .inr (List.mem_singleton.1 new)

theorem pyIndex_mem {α : Type} {items : List α} {i : Int} {a : α}
    (found : pyIndex items i = some a) : a ∈ items := by
  unfold pyIndex at found
  split at found
  · exact List.mem_of_getElem? found
  · split at found
    · exact List.mem_of_getElem? found
    · cases found

theorem setActiveGroupIdx_remembers {l : WindowList} (start : l.Remembers) (i : Int) :
    (l.setActiveGroupIdx i).1.Remembers := by
  unfold setActiveGroupIdx
  split
  · refine ⟨start.groups, ?_, fun inactive => ?_⟩
    · cases active : l.activeGroup with
      | none => exact start.history
      | some g =>
        intro id member
        rcases recordHistory_mem member with old | rfl
        · exact start.history id old
        · exact start.groups g (pyIndex_mem active)
    · have none : i = -1 := inactive
      omega
  · exact start

theorem setActiveGroup_remembers {l : WindowList} (start : l.Remembers) (groupId : Nat) :
    (l.setActiveGroup groupId).1.Remembers := by
  unfold setActiveGroup
  split
  · exact setActiveGroupIdx_remembers start _
  · exact start

theorem makePreviousGroupActive_remembers {l : WindowList} (start : l.Remembers) (which : Int) :
    (l.makePreviousGroupActive which).Remembers := by
  obtain ⟨i, equation, -⟩ := makePreviousGroupActive_spec l which
  rw [equation]
  exact setActiveGroupIdx_remembers start i

theorem setActiveWindowGroupFor_remembers {l : WindowList} (start : l.Remembers) (x : WindowOrId)
    (forKeepFocus : Option Window) : (l.setActiveWindowGroupFor x forKeepFocus).Remembers := by
  unfold setActiveWindowGroupFor
  split
  · exact start
  · split
    · exact start
    · rename_i i _
      have set := setActiveGroupIdx_remembers start i
      dsimp only
      split
      · exact set
      · split
        · refine set.shrink (fun g member => ⟨g, member, rfl⟩) ?_ (Nat.le_refl _) .inr
          intro id member
          exact (List.dropLast_sublist _).subset ((List.dropLast_sublist _).subset member)
        · exact set

/-- Rearranging the groups leaves the history alone. -/
theorem Regrouped.remembers {l l' : WindowList} (h : Regrouped l l') (start : l.Remembers)
    (history : l'.activeGroupHistory = l.activeGroupHistory)
    (active : l'.activeGroupIdx = l.activeGroupIdx) : l'.Remembers := by
  refine start.shrink ?_ (fun id member => history ▸ member) h.counter
    fun inactive => .inr (active ▸ inactive)
  intro g member
  obtain ⟨old, oldMember, same⟩ := List.mem_map.1 (h.ids.mem_iff.1 (List.mem_map_of_mem member))
  exact ⟨old, oldMember, same⟩

theorem moveWindowToTopOfGroup_remembers {l : WindowList} (start : l.Remembers)
    (window : Window) : (l.moveWindowToTopOfGroup window).1.Remembers := by
  refine (moveWindowToTopOfGroup_regrouped l window).remembers start ?_ ?_
  all_goals
    unfold moveWindowToTopOfGroup
    split
    · rfl
    · split
      · rfl
      · dsimp only
        split <;> rfl

theorem moveWindowGroup_remembers {l : WindowList} (start : l.Remembers) (by_ : Option Int)
    (toGroup : Option Nat) : (l.moveWindowGroup by_ toGroup).1.Remembers := by
  have swapped : ∀ i j, (l.swapGroups i j).Remembers := by
    intro i j
    refine (swapGroups_regrouped l i j).remembers start ?_ ?_
    all_goals
      unfold swapGroups
      split <;> rfl
  unfold moveWindowGroup
  split
  · exact start
  · have moved : ∀ target : Int, Remembers
        (if target > -1 then
          if target = l.activeGroupIdx then (l, false)
          else (((l.swapGroups l.activeGroupIdx.toNat target.toNat).setActiveGroupIdx target).1,
            true)
        else (l, false)).1 := by
      intro target
      split
      · split
        · exact start
        · exact setActiveGroupIdx_remembers (swapped _ _) _
      · exact start
    exact moved _

theorem deleteGroup_remembers {l : WindowList} (start : l.Remembers) (i : Nat) :
    (l.deleteGroup i).Remembers := by
  have erased : ∀ g ∈ l.groups.eraseIdx i, ∃ old ∈ l.groups, old.id = g.id :=
    fun g member => ⟨g, List.mem_of_mem_eraseIdx member, rfl⟩
  unfold deleteGroup
  dsimp only
  by_cases some : l.groups.eraseIdx i ≠ []
  · rw [if_pos some]
    split
    · refine makePreviousGroupActive_remembers ?_ 1
      exact start.shrink erased (fun _ => id) (Nat.le_refl _) .inr
    · have positive := List.length_pos_iff.2 some
      split
      · refine start.shrink erased (fun _ => id) (Nat.le_refl _) fun inactive => ?_
        dsimp only at inactive
        omega
      · exact start.shrink erased (fun _ => id) (Nat.le_refl _) .inr
  · rw [if_neg some]
    exact start.shrink erased (fun _ => id) (Nat.le_refl _) fun _ => .inl (not_not.1 some)

theorem removeWindow_remembers {l : WindowList} (start : l.Remembers) (x : WindowOrId) :
    (l.removeWindow x).Remembers := by
  have taken : ∀ (q : Window) (groups : List WindowGroup),
      ∀ g ∈ groups.map (·.removeWindow q), ∃ old ∈ groups, old.id = g.id := by
    intro q groups g member
    obtain ⟨old, oldMember, rfl⟩ := List.mem_map.1 member
    exact ⟨old, oldMember, rfl⟩
  cases resolved : l.resolve x with
  | none =>
    rw [show l.removeWindow x = l by simp only [removeWindow, resolved]]
    exact start
  | some q =>
    rw [removeWindow_eq resolved]
    split
    · exact start.shrink (taken q l.groups) (fun _ => id) (Nat.le_refl _) .inr
    · rename_i k _
      refine deleteGroup_remembers ?_ k
      refine start.shrink (fun g member => ?_) (fun _ => id) (Nat.le_refl _) .inr
      rcases List.mem_append.1 member with before | after
      · obtain ⟨old, oldMember, same⟩ := taken q _ g before
        exact ⟨old, List.mem_of_mem_take oldMember, same⟩
      · exact ⟨g, List.mem_of_mem_drop after, rfl⟩

/-- The id of a new group has not been given out. -/
theorem insertGroup_remembers {l : WindowList} (start : l.Remembers) (pos : Nat) :
    (l.insertGroup pos).Remembers := by
  have member : ∀ g ∈ (l.insertGroup pos).groups, g.id = l.groupIdCounter ∨ g ∈ l.groups := by
    intro g member
    rcases List.eq_or_mem_of_mem_insertIdx member with rfl | old
    · exact .inl rfl
    · exact .inr old
  refine ⟨?_, fun id remembered => Nat.lt_succ_of_lt (start.history id remembered), ?_⟩
  · intro g inGroups
    rcases member g inGroups with new | old
    · exact new ▸ Nat.lt_succ_self _
    · exact Nat.lt_succ_of_lt (start.groups g old)
  · intro inactive g inGroups remembered
    rcases member g inGroups with new | old
    · exact Nat.lt_irrefl _ (new ▸ start.history g.id remembered)
    · exact start.idle inactive g old remembered

theorem addWindow_remembers {l : WindowList} (start : l.Remembers) (window : Window)
    (groupOf nextTo : Option WindowOrId) (before makeActive headOfGroup : Bool) :
    (l.addWindow window groupOf nextTo before makeActive headOfGroup).Remembers := by
  have registered : (l.register window).Remembers :=
    start.shrink (fun g member => ⟨g, member, rfl⟩) (fun _ => id) (Nat.le_refl _) .inr
  unfold addWindow
  dsimp only
  split
  · exact registered
  · rename_i next i found
    have target : next.Remembers := by
      rcases targetGroup_spec found with ⟨rfl, -⟩ | ⟨rfl, -⟩
      · exact registered
      · exact insertGroup_remembers registered i
    have joined : Remembers
        { next with groups := next.groups.modify i (·.addWindow window headOfGroup) } := by
      refine target.shrink (fun g member => ?_) (fun _ => id) (Nat.le_refl _) .inr
      obtain ⟨j, here⟩ := List.mem_iff_getElem?.1 member
      rw [List.getElem?_modify] at here
      obtain ⟨old, oldAt, rfl⟩ := Option.map_eq_some_iff.1 here
      refine ⟨old, List.mem_of_getElem? oldAt, ?_⟩
      split <;> rfl
    split
    · exact setActiveGroupIdx_remembers joined _
    · exact joined

theorem windowStep_remembers {l next : WindowList} {event : WindowEvent} (start : l.Remembers)
    (stepEq : windowStep l event = some next) : next.Remembers := by
  cases event with
  | addWindow window groupOf nextTo before makeActive headOfGroup =>
    exact Option.some.inj stepEq ▸
      addWindow_remembers start window groupOf nextTo before makeActive headOfGroup
  | removeWindow x => exact Option.some.inj stepEq ▸ removeWindow_remembers start x
  | setActiveGroupIdx i => exact Option.some.inj stepEq ▸ setActiveGroupIdx_remembers start i
  | setActiveGroup groupId => exact Option.some.inj stepEq ▸ setActiveGroup_remembers start groupId
  | setActiveWindowGroupFor x forKeepFocus =>
    exact Option.some.inj stepEq ▸ setActiveWindowGroupFor_remembers start x forKeepFocus
  | makePreviousGroupActive which =>
    exact Option.some.inj stepEq ▸ makePreviousGroupActive_remembers start which
  | activateNextWindowGroup delta =>
    obtain rfl := Option.some.inj stepEq
    unfold activateNextWindowGroup
    split
    · exact start
    · exact setActiveGroupIdx_remembers start _
  | moveWindowToTopOfGroup window =>
    exact Option.some.inj stepEq ▸ moveWindowToTopOfGroup_remembers start window
  | moveWindowGroup by_ toGroup =>
    exact Option.some.inj stepEq ▸ moveWindowGroup_remembers start by_ toGroup
  | groupElsewhere =>
    obtain rfl := Option.some.inj stepEq
    exact start.shrink (fun g member => ⟨g, member, rfl⟩) (fun _ => id) (Nat.le_succ _) .inr

theorem start_remembers (counter : Nat) : Remembers { groupIdCounter := counter } :=
  ⟨by simp, by simp, by simp⟩

/-! ### The group that the history makes active -/

/-- The position of the active group: Python reads index -1 as the last one. -/
def activePlace (l : WindowList) : Nat :=
  if l.activeGroupIdx = -1 then l.groups.length - 1 else l.activeGroupIdx.toNat

/-- The position of the group that `make_previous_group_active` makes active. -/
def previousPlace (l : WindowList) : Nat :=
  (previousGroup l.groups l.activeGroupHistory.reverse 1).getD (l.groups.length - 1)

theorem activeGroup_eq {l : WindowList} (start : l.Grouped) :
    l.activeGroup = l.groups[l.activePlace]? := by
  have lower := start.lower
  unfold activeGroup activePlace
  split
  · rename_i none
    rw [none, pyIndex_neg_one, List.getLast?_eq_getElem?]
  · rw [← pyIndex_natCast]
    congr 1
    omega

theorem previousPlace_lt {l : WindowList} (some : l.groups ≠ []) :
    l.previousPlace < l.groups.length := by
  have positive := List.length_pos_iff.2 some
  unfold previousPlace
  cases found : previousGroup l.groups l.activeGroupHistory.reverse 1 with
  | none =>
    rw [Option.getD_none]
    omega
  | some x => exact previousGroup_lt found

/-- Two positions of groups with distinct ids hold the same group only if they are equal. -/
theorem place_inj {groups : List WindowGroup} (distinct : (groups.map WindowGroup.id).Nodup)
    {i j : Nat} (inside : i < groups.length) : groups[i]? = groups[j]? ↔ i = j := by
  constructor
  · intro same
    have sameId := congrArg (Option.map WindowGroup.id) same
    rw [← List.getElem?_map, ← List.getElem?_map] at sameId
    exact (List.getElem?_inj (by rwa [List.length_map]) distinct).1 sameId
  · exact fun same => same ▸ rfl

theorem makePreviousGroupActive_activeGroup {l : WindowList} (some : l.groups ≠ []) :
    (l.makePreviousGroupActive 1).activeGroup = l.groups[l.previousPlace]? := by
  have inside := previousPlace_lt some
  have made : l.makePreviousGroupActive 1 = (l.setActiveGroupIdx (l.previousPlace : Nat)).1 := by
    unfold makePreviousGroupActive previousPlace
    rw [show max 1 (1 : Int) = 1 from rfl]
    cases previousGroup l.groups l.activeGroupHistory.reverse 1 with
    | none =>
      dsimp only [Option.getD_none]
      congr 2
      omega
    | some x => rfl
  rw [made, activeGroup, setActiveGroupIdx_groups, setActiveGroupIdx_idx l (by omega) (by omega),
    pyIndex_natCast]

/-- The newest entry of the history decides if it names a group. -/
theorem previousGroup_recorded {groups : List WindowGroup} (history : List Nat) {x : Nat}
    {groupId : Nat} (found : groups.findIdx? (·.id = groupId) = some x) :
    previousGroup groups (recordHistory history groupId).reverse 1 = some x := by
  obtain ⟨rest, newest⟩ : ∃ rest, (recordHistory history groupId).reverse = groupId :: rest := by
    unfold recordHistory
    rw [List.drop_append_of_le_length (by rw [List.length_append, List.length_singleton]; omega),
      List.reverse_append]
    exact ⟨_, rfl⟩
  rw [newest, previousGroup, found]
  rfl

theorem previousGroup_none {groups : List WindowGroup} {history : List Nat}
    (gone : ∀ g ∈ groups, g.id ∉ history) (which : Int) :
    previousGroup groups history which = none := by
  induction history generalizing which with
  | nil => rfl
  | cons gid rest ih =>
    have unknown : groups.findIdx? (·.id = gid) = none := by
      refine List.findIdx?_eq_none_iff.2 fun g member => decide_eq_false ?_
      rintro rfl
      exact gone g member (List.mem_cons_self ..)
    rw [previousGroup, unknown]
    exact ih (fun g member remembered => gone g member (List.mem_cons_of_mem _ remembered)) which

theorem findIdx?_place {groups : List WindowGroup}
    (distinct : (groups.map WindowGroup.id).Nodup) {i : Nat} {g : WindowGroup}
    (groupAt : groups[i]? = some g) : groups.findIdx? (·.id = g.id) = some i := by
  obtain ⟨inside, rfl⟩ := List.getElem?_eq_some_iff.1 groupAt
  refine List.findIdx?_eq_some_iff_getElem.2 ⟨inside, decide_eq_true rfl, fun j before => ?_⟩
  intro same
  have sameId : (groups.map WindowGroup.id)[j]? = (groups.map WindowGroup.id)[i]? := by
    rw [List.getElem?_map, List.getElem?_map, List.getElem?_eq_getElem (by omega), groupAt]
    exact congrArg some (of_decide_eq_true same)
  have equal := (List.getElem?_inj (by rw [List.length_map]; omega) distinct).1 sameId
  omega

/-! ### Adding a window and removing it -/

/-- For a group of its own that is inserted at `pos`: there were no groups, or the position is
behind the active group, or it is just that of the active group and the history, which does not
change then, names it last. -/
def ReturnsFrom (l : WindowList) (pos : Nat) : Prop :=
  l.groups = [] ∨ l.activeGroupIdx < pos ∨
    l.activeGroupIdx = pos ∧ l.previousPlace = l.activePlace

/-- The condition on the place where a new window is added, by what `add_window` makes of its
arguments: nothing if it raises, an existing group, or a position for a new one. -/
def FocusReturns (l : WindowList) (window : Window) (groupOf nextTo : Option WindowOrId)
    (before : Bool) : Prop :=
  match (l.register window).lookupGroup groupOf with
  | some (some i) => i = l.activePlace
  | _ =>
    match (l.register window).targetGroup groupOf nextTo before with
    | some (_, pos) => l.ReturnsFrom pos
    | none => True

theorem removeWindow_addWindow_self {g : WindowGroup} {window : Window} (fresh : window ∉ g.windows)
    (headOfGroup : Bool) : (g.addWindow window headOfGroup).removeWindow window = g := by
  unfold WindowGroup.addWindow WindowGroup.removeWindow
  cases headOfGroup with
  | true =>
    rw [if_pos rfl, List.erase_cons_head]
  | false =>
    rw [if_neg (by decide), List.erase_append_right _ fresh]
    simp

theorem map_removeWindow {groups : List WindowGroup} {window : Window}
    (fresh : ∀ g ∈ groups, window ∉ g.windows) : groups.map (·.removeWindow window) = groups := by
  conv => rhs; rw [← List.map_id groups]
  exact List.map_congr_left fun g member => removeWindow_of_not_mem (fresh g member)

theorem map_removeWindow_modify {groups : List WindowGroup} {window : Window}
    (fresh : ∀ g ∈ groups, window ∉ g.windows) (i : Nat) (headOfGroup : Bool) :
    (groups.modify i (·.addWindow window headOfGroup)).map (·.removeWindow window) = groups := by
  refine List.ext_getElem? fun j => ?_
  rw [List.getElem?_map, List.getElem?_modify]
  cases groupAt : groups[j]? with
  | none => rfl
  | some g =>
    have absent := fresh g (List.mem_of_getElem? groupAt)
    by_cases here : i = j
    · simp only [here, if_true]
      exact congrArg some (removeWindow_addWindow_self absent headOfGroup)
    · simp only [here, if_false]
      exact congrArg some (removeWindow_of_not_mem absent)

/-- A removal that leaves the groups as they once were, none of them empty, deletes no group. -/
theorem removeWindow_kept {l m : WindowList} {x : WindowOrId} {window : Window} (start : l.Grouped)
    (resolved : m.resolve x = some window)
    (back : m.groups.map (·.removeWindow window) = l.groups) :
    (m.removeWindow x).groups = l.groups ∧
      (m.removeWindow x).activeGroupIdx = m.activeGroupIdx := by
  have kept : m.groups.findIdx? (emptiedBy window) = none := by
    refine List.findIdx?_eq_none_iff.2 fun g member => decide_eq_false fun empty => ?_
    have old : g.removeWindow window ∈ l.groups := back ▸ List.mem_map_of_mem member
    exact start.nonempty _ old empty
  rw [removeWindow_eq resolved, kept]
  exact ⟨back, rfl⟩

/-- The active group after removing the window when it got a group of its own at `pos` and was made
active: the one that the history names. -/
theorem removeWindow_inserted {l m : WindowList} {x : WindowOrId} {window : Window} {pos : Nat}
    {groupId : Nat} (start : l.Grouped) (fresh : ∀ g ∈ l.groups, window ∉ g.windows)
    (resolved : m.resolve x = some window) (inside : pos ≤ l.groups.length)
    (groups : m.groups = l.groups.insertIdx pos { id := groupId, windows := [window] })
    (active : m.activeGroupIdx = pos) :
    (m.removeWindow x).activeGroup =
      if l.groups = [] then none
      else l.groups[({ m with groups := l.groups } : WindowList).previousPlace]? := by
  have length : pos < m.groups.length := by
    rw [groups, List.length_insertIdx, if_pos inside]
    omega
  have groupAt : m.groups[pos] = { id := groupId, windows := [window] } := by
    simp only [groups, List.getElem_insertIdx_self]
  have take : m.groups.take pos = l.groups.take pos := by
    rw [groups, List.take_insertIdx_eq_take_of_le _ _ _ _ (Nat.le_refl _)]
  have drop : m.groups.drop (pos + 1) = l.groups.drop pos := by
    refine List.ext_getElem? fun j => ?_
    rw [groups, List.getElem?_drop, List.getElem?_drop, List.getElem?_insertIdx,
      if_neg (by omega), if_neg (by omega)]
    congr 1
    omega
  have found : m.groups.findIdx? (emptiedBy window) = some pos := by
    refine List.findIdx?_eq_some_iff_getElem.2 ⟨length, ?_, fun j before empty => ?_⟩
    · rw [groupAt]
      simp [emptiedBy, WindowGroup.removeWindow]
    · have old : m.groups[j] ∈ l.groups := by
        have taken : m.groups[j] ∈ m.groups.take pos :=
          List.mem_take_iff_getElem.2 ⟨j, by omega, rfl⟩
        exact List.mem_of_mem_take (take ▸ taken)
      have kept := removeWindow_of_not_mem (fresh _ old)
      exact start.nonempty _ old (kept ▸ of_decide_eq_true empty)
  have left : (emptiedAt window pos m.groups).eraseIdx pos = l.groups := by
    rw [eraseIdx_emptiedAt window length, take, drop,
      map_removeWindow fun g member => fresh g (List.mem_of_mem_take member),
      List.take_append_drop]
  rw [removeWindow_eq resolved, found]
  unfold deleteGroup
  dsimp only
  rw [left]
  by_cases none : l.groups = []
  · rw [if_pos none, if_neg (not_not.2 none)]
    rw [activeGroup, pyIndex_neg_one]
    exact congrArg List.getLast? none
  · rw [if_neg none, if_pos none, if_pos (show (m.forget window).activeGroupIdx = (pos : Int) from active)]
    exact makePreviousGroupActive_activeGroup none

theorem previousPlace_eq {l : WindowList} {history : List Nat} {groupId x : Nat}
    (recorded : l.activeGroupHistory = recordHistory history groupId)
    (found : l.groups.findIdx? (·.id = groupId) = some x) : l.previousPlace = x := by
  rw [previousPlace, recorded, previousGroup_recorded history found]
  rfl

/-- What the history names after the new group at `pos` was made active.  The group that is recorded
is the one that Python reads at the old active index when the new one is already there. -/
theorem previousPlace_inserted {l m : WindowList} {pos : Nat} {new : WindowGroup}
    (start : l.Grouped) (remembers : l.Remembers) (some : l.groups ≠ [])
    (inside : pos ≤ l.groups.length) (newId : new.id = l.groupIdCounter)
    (groups : m.groups = l.groups.insertIdx pos new) (idx : m.activeGroupIdx = l.activeGroupIdx)
    (history : m.activeGroupHistory = l.activeGroupHistory) :
    ({ (m.setActiveGroupIdx pos).1 with groups := l.groups } : WindowList).previousPlace =
        l.activePlace ↔ l.ReturnsFrom pos := by
  have lower := start.lower
  have upper := start.upper
  have mLength : m.groups.length = l.groups.length + 1 := by
    rw [groups, List.length_insertIdx, if_pos inside]
  have recorded : ∀ g x, l.activeGroupIdx ≠ pos → m.activeGroup = .some g →
      l.groups[x]? = .some g →
      ({ (m.setActiveGroupIdx pos).1 with groups := l.groups } : WindowList).previousPlace = x := by
    intro g x moves active groupAt
    refine @previousPlace_eq _ l.activeGroupHistory g.id x ?_ (findIdx?_place start.distinct groupAt)
    unfold setActiveGroupIdx
    rw [if_pos ⟨by omega, by omega, by omega⟩]
    rw [active, history]
  unfold ReturnsFrom activePlace
  by_cases here : l.activeGroupIdx = pos
  · have unchanged : (m.setActiveGroupIdx pos).1 = m := by
      unfold setActiveGroupIdx
      rw [if_neg fun changes => changes.1 (idx.trans here).symm]
    have same : ({ m with groups := l.groups } : WindowList).previousPlace = l.previousPlace := by
      unfold previousPlace
      rw [history]
    rw [unchanged, same]
    constructor
    · exact fun equal => .inr (.inr ⟨here, equal⟩)
    · rintro (none | behind | ⟨-, equal⟩)
      · exact absurd none some
      · omega
      · exact equal
  · have mAt : ∀ j, m.groups[j]? =
        if j < pos then l.groups[j]? else if j = pos then .some new else l.groups[j - 1]? := by
      intro j
      rw [groups, List.getElem?_insertIdx]
      split
      · rfl
      · split
        · rename_i same
          exact if_pos (same ▸ inside)
        · rfl
    by_cases none : l.activeGroupIdx = -1
    · have active : m.activeGroup = m.groups[l.groups.length]? := by
        rw [activeGroup, idx, none, pyIndex_neg_one, List.getLast?_eq_getElem?, mLength]
        rfl
      rw [if_pos none]
      refine iff_of_true ?_ (.inr (.inl (by omega)))
      by_cases last : pos = l.groups.length
      · rw [mAt, if_neg (by omega), if_pos last.symm] at active
        have gone : ∀ g ∈ l.groups,
            g.id ∉ (recordHistory l.activeGroupHistory new.id).reverse := by
          intro g member remembered
          rcases recordHistory_mem (List.mem_reverse.1 remembered) with old | recent
          · exact remembers.idle none g member old
          · exact absurd (remembers.groups g member) (by omega)
        unfold previousPlace setActiveGroupIdx
        rw [if_pos ⟨by omega, by omega, by omega⟩]
        rw [active, history]
        rw [previousGroup_none gone]
        rfl
      · rw [mAt, if_neg (by omega), if_neg (by omega),
          List.getElem?_eq_getElem (by omega)] at active
        exact recorded _ _ here active (List.getElem?_eq_getElem (by omega))
    · obtain ⟨a, aEq⟩ := Int.eq_ofNat_of_zero_le (show 0 ≤ l.activeGroupIdx by omega)
      have active : m.activeGroup = m.groups[a]? := by
        rw [activeGroup, idx, aEq]
        exact pyIndex_natCast _ a
      rw [if_neg none]
      by_cases behind : a < pos
      · rw [mAt, if_pos behind, List.getElem?_eq_getElem (by omega)] at active
        refine iff_of_true ?_ (.inr (.inl (by omega)))
        rw [recorded _ a here active (List.getElem?_eq_getElem (by omega)), aEq]
        rfl
      · rw [mAt, if_neg behind, if_neg (by omega), List.getElem?_eq_getElem (by omega)] at active
        refine iff_of_false ?_ ?_
        · rw [recorded _ (a - 1) here active (List.getElem?_eq_getElem (by omega)), aEq]
          exact fun equal => by
            omega
        · rintro (none | behind | ⟨equal, -⟩)
          · exact absurd none some
          · omega
          · omega

/-! ### The three outcomes of an addition -/

section Outcomes

variable {l : WindowList} {window : Window} {groupOf nextTo : Option WindowOrId} {before : Bool}
  {x : WindowOrId} (start : l.Grouped) (fresh : ∀ g ∈ l.groups, window ∉ g.windows)
  (this : x = .window window ∨ x = .id window.id)
include start fresh this

omit start fresh in
theorem resolve_added {m : WindowList}
    (idMap : m.idMap = Function.update l.idMap window.id (some window)) :
    m.resolve x = some window := by
  rcases this with rfl | rfl
  · rfl
  · rw [resolve, idMap, Function.update_self]

/-- The addition raises. -/
theorem removeWindow_raised (headOfGroup : Bool)
    (found : (l.register window).targetGroup groupOf nextTo before = none) :
    ((l.addWindow window groupOf nextTo before true headOfGroup).removeWindow x).activeGroup =
      l.activeGroup := by
  have registered : l.addWindow window groupOf nextTo before true headOfGroup =
      l.register window := by simp only [addWindow, found]
  obtain ⟨groups, idx⟩ := removeWindow_kept start
    (resolve_added (l := l) (m := l.register window) this rfl) (map_removeWindow fresh)
  rw [registered, activeGroup, groups, idx]
  rfl

/-- The window joins a group. -/
theorem removeWindow_joined (headOfGroup : Bool) {i : Nat} (inside : i < l.groups.length)
    (found : (l.register window).targetGroup groupOf nextTo before =
      some (l.register window, i)) :
    ((l.addWindow window groupOf nextTo before true headOfGroup).removeWindow x).activeGroup =
      l.activeGroup ↔ i = l.activePlace := by
  obtain ⟨added, addedEq⟩ : ∃ m : WindowList, m = { l.register window with
      groups := l.groups.modify i (·.addWindow window headOfGroup) } := ⟨_, rfl⟩
  have made : l.addWindow window groupOf nextTo before true headOfGroup =
      (added.setActiveGroupIdx i).1 := by
    simp only [addWindow, found, addedEq]
    rfl
  have addedGroups : added.groups = l.groups.modify i (·.addWindow window headOfGroup) := by
    rw [addedEq]
  have addedIdMap : added.idMap = Function.update l.idMap window.id (some window) := by
    rw [addedEq]
    rfl
  have set := setActiveGroupIdx_regrouped added i
  have back : (added.setActiveGroupIdx i).1.groups.map (·.removeWindow window) = l.groups := by
    rw [setActiveGroupIdx_groups, addedGroups]
    exact map_removeWindow_modify fresh i headOfGroup
  obtain ⟨groups, idx⟩ := removeWindow_kept start
    (resolve_added this (set.idMap.trans addedIdMap)) back
  rw [made, activeGroup, groups, idx,
    setActiveGroupIdx_idx added (by omega) (by rw [addedGroups, List.length_modify]; omega),
    activeGroup_eq start]
  exact place_inj start.distinct inside

/-- The window gets a group of its own. -/
theorem removeWindow_separate (remembers : l.Remembers) (headOfGroup : Bool) {pos : Nat}
    (inside : pos ≤ l.groups.length)
    (found : (l.register window).targetGroup groupOf nextTo before =
      some ((l.register window).insertGroup pos, pos)) :
    ((l.addWindow window groupOf nextTo before true headOfGroup).removeWindow x).activeGroup =
      l.activeGroup ↔ l.ReturnsFrom pos := by
  obtain ⟨new, newEq⟩ : ∃ g : WindowGroup,
      g = { id := l.groupIdCounter, windows := [window] } := ⟨_, rfl⟩
  obtain ⟨added, addedEq⟩ : ∃ m : WindowList, m = { (l.register window).insertGroup pos with
      groups := l.groups.insertIdx pos new } := ⟨_, rfl⟩
  have made : l.addWindow window groupOf nextTo before true headOfGroup =
      (added.setActiveGroupIdx pos).1 := by
    have filled : (l.groups.insertIdx pos { id := l.groupIdCounter }).modify pos
        (·.addWindow window headOfGroup) = l.groups.insertIdx pos new := by
      rw [modify_insertIdx l.groups inside, newEq]
      cases headOfGroup <;> rfl
    simp only [addWindow, found, addedEq, ← filled]
    rfl
  have addedGroups : added.groups = l.groups.insertIdx pos new := by rw [addedEq]
  have addedIdMap : added.idMap = Function.update l.idMap window.id (some window) := by
    rw [addedEq]
    rfl
  have addedLength : pos < added.groups.length := by
    rw [addedGroups, List.length_insertIdx, if_pos inside]
    omega
  have set := setActiveGroupIdx_regrouped added pos
  rw [made, removeWindow_inserted start fresh
    (resolve_added this (set.idMap.trans addedIdMap)) inside
    ((setActiveGroupIdx_groups added pos).trans (addedGroups.trans (by rw [newEq])))
    (setActiveGroupIdx_idx added (by omega) (by omega))]
  by_cases none : l.groups = []
  · rw [if_pos none, activeGroup_eq start]
    exact iff_of_true (by rw [none]; rfl) (.inl none)
  · rw [if_neg none, activeGroup_eq start]
    refine (place_inj start.distinct ?_).trans ?_
    · exact @previousPlace_lt { (added.setActiveGroupIdx pos).1 with groups := l.groups } none
    exact previousPlace_inserted start remembers none inside (by rw [newEq]) addedGroups
      (by rw [addedEq]; rfl) (by rw [addedEq]; rfl)

end Outcomes

/-- Adding a window as the active one and removing it again. -/
theorem removeWindow_addWindow {l : WindowList} (start : l.Grouped) (remembers : l.Remembers)
    {window : Window} (fresh : ∀ g ∈ l.groups, window ∉ g.windows)
    (groupOf nextTo : Option WindowOrId) (before headOfGroup : Bool) {x : WindowOrId}
    (this : x = .window window ∨ x = .id window.id) :
    ((l.addWindow window groupOf nextTo before true headOfGroup).removeWindow x).activeGroup =
        l.activeGroup ↔ l.FocusReturns window groupOf nextTo before := by
  unfold FocusReturns
  cases inGroup : (l.register window).lookupGroup groupOf with
  | none =>
    have found : (l.register window).targetGroup groupOf nextTo before = none := by
      rw [targetGroup, inGroup]
      rfl
    rw [found]
    exact iff_of_true (removeWindow_raised start fresh this headOfGroup found) trivial
  | some target =>
    cases target with
    | some i =>
      refine removeWindow_joined start fresh this headOfGroup (lookupGroup_lt (l := l.register window) inGroup) ?_
      rw [targetGroup, inGroup]
      rfl
    | none =>
      cases found : (l.register window).targetGroup groupOf nextTo before with
      | none => exact iff_of_true (removeWindow_raised start fresh this headOfGroup found) trivial
      | some target =>
        obtain ⟨next, pos⟩ := target
        obtain ⟨target, targetEq, rest⟩ := Option.bind_eq_some_iff.1 found
        obtain rfl := Option.some.inj (inGroup.symm.trans targetEq)
        obtain ⟨beside, -, nextEq⟩ := Option.bind_eq_some_iff.1 rest
        obtain ⟨rfl, posEq⟩ := Prod.mk.inj (Option.some.inj nextEq)
        rw [posEq] at found
        rcases targetGroup_spec found with ⟨same, -⟩ | ⟨-, inside⟩
        · exact absurd (congrArg groupIdCounter same) (Nat.succ_ne_self _)
        · exact removeWindow_separate start fresh this remembers headOfGroup inside found

end WindowList

open WindowList

/-- In every window list that any operations lead to, adding a new window as the active one and
removing it again makes the group that was active before active again exactly when the window was
added to that group, or gets a group of its own behind it, or at its position while the history
names it last. -/
theorem addedWindowReturnsFocus (counter : Nat) (events : List WindowEvent) {l : WindowList}
    (reached : run windowStep { groupIdCounter := counter } events = some l) {window : Window}
    (new : ∀ g ∈ l.groups, window ∉ g.windows) (groupOf nextTo : Option WindowOrId)
    (before headOfGroup : Bool) {x : WindowOrId} (this : x = .window window ∨ x = .id window.id) :
    ((l.addWindow window groupOf nextTo before true headOfGroup).removeWindow x).activeGroup =
        l.activeGroup ↔ l.FocusReturns window groupOf nextTo before :=
  removeWindow_addWindow
    (run_invariant Grouped (fun _ _ _ start stepEq => windowStep_grouped start stepEq)
      (start_grouped counter) reached)
    (run_invariant Remembers (fun _ _ _ start stepEq => windowStep_remembers start stepEq)
      (start_remembers counter) reached)
    new groupOf nextTo before headOfGroup this

/-- Two windows in groups of their own, the second one active. -/
def twoGroups : List WindowEvent :=
  [.addWindow ⟨1⟩ none none false true false, .addWindow ⟨2⟩ none none false true false]

/-- A third one that is added first and removed again leaves the first one active. -/
theorem addedWindowReturnsFocus_first :
    ∃ l, run windowStep {} twoGroups = some l ∧ (∀ g ∈ l.groups, ⟨3⟩ ∉ g.windows) ∧
      l.activeWindow = some ⟨2⟩ ∧
      ((l.addWindow ⟨3⟩ none none true true false).removeWindow (.window ⟨3⟩)).activeWindow =
        some ⟨1⟩ ∧
      ((l.addWindow ⟨3⟩ none none true true false).removeWindow (.window ⟨3⟩)).activeGroup ≠
        l.activeGroup := by
  refine ⟨_, rfl, ?_, ?_, ?_, ?_⟩ <;> decide

/-- One that is added last gives the focus back. -/
theorem addedWindowReturnsFocus_last :
    ∃ l, run windowStep { groupIdCounter := 1 } twoGroups = some l ∧
      (((l.addWindow ⟨3⟩ none none false true false).removeWindow (.id 3)).activeGroup =
        l.activeGroup ↔ l.FocusReturns ⟨3⟩ none none false) := by
  refine ⟨_, rfl, addedWindowReturnsFocus 1 twoGroups rfl ?_ none none false false (.inr rfl)⟩
  decide

end Smelly
