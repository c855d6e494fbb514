/-
Module: Smelly.Proofs.SplitsCoverage
Purpose: What a pass of the Splits layout makes of the tree: the window groups at the leaves, each
  once, and a geometry for each group.  The windows are added to the object that was the root before
  the removal, so the pass is right exactly when it does not both replace that object and add.
Trusted boundary: none
-/
import Mathlib.Data.List.Nodup
import Smelly.Proofs.SplitsTree

namespace Smelly

/-! ### Additions -/

namespace Pair

theorem side_balancedAdd (self : Pair) (windowId : ℕ+) (address : Nat) :
    (self.balancedAdd windowId address).side = self.side.balancedAdd windowId address := by
  obtain ⟨one, two, shape, _⟩ :=
    Side.balancedAdd_spec windowId address self.side self.info self.one self.two rfl
  simp only [balancedAdd, shape]
  rfl

theorem balancedAdd_info (self : Pair) (windowId : ℕ+) (address : Nat) :
    (self.balancedAdd windowId address).info = self.info := by
  obtain ⟨one, two, shape, _⟩ :=
    Side.balancedAdd_spec windowId address self.side self.info self.one self.two rfl
  simp only [balancedAdd, shape]

theorem balancedAdd_perm (self : Pair) (windowId : ℕ+) (address : Nat) :
    (self.balancedAdd windowId address).allWindowIds.Perm (windowId :: self.allWindowIds) := by
  obtain ⟨one, two, shape, perm⟩ :=
    Side.balancedAdd_spec windowId address self.side self.info self.one self.two rfl
  rw [allWindowIds, side_balancedAdd, shape]
  exact perm

/-- A root that holds a pair first and something second keeps that pair object first, and its second
side keeps its windows. -/
theorem balancedAdd_aside {self : Pair} {info : PairInfo} {one two : Side} (windowId : ℕ+)
    (address : Nat) (first : self.one = .pair info one two) (second : self.two ≠ .none) :
    ∃ one' two', (self.balancedAdd windowId address).one = .pair info one' two' ∧
      (self.balancedAdd windowId address).two ≠ .none ∧
      ∀ id ∈ self.two.allWindowIds, id ∈ (self.balancedAdd windowId address).two.allWindowIds := by
  obtain ⟨rootInfo, rootOne, rootTwo⟩ := self
  simp only at first second
  subst first
  cases rootTwo with
  | none => exact absurd rfl second
  | window id =>
    refine ⟨one, two, rfl, by simp [balancedAdd, side, Side.balancedAdd], ?_⟩
    intro id' member
    simp only [balancedAdd, side, Side.balancedAdd, Side.allWindowIds] at member ⊢
    exact List.mem_append_left _ member
  | pair infoTwo one' two' =>
    simp only [balancedAdd, side, Side.balancedAdd]
    by_cases smaller : (Side.pair info one two).allWindowIds.length <
        (Side.pair infoTwo one' two').allWindowIds.length
    · obtain ⟨one'', two'', shape, _⟩ :=
        Side.balancedAdd_spec windowId address (.pair info one two) info one two rfl
      rw [if_pos smaller]
      exact ⟨one'', two'', shape, Side.noConfusion, fun id member => member⟩
    · obtain ⟨one'', two'', shape, perm⟩ :=
        Side.balancedAdd_spec windowId address (.pair infoTwo one' two') infoTwo one' two' rfl
      rw [if_neg smaller]
      simp only [shape]
      exact ⟨one, two, rfl, Side.noConfusion,
        fun id member => perm.mem_iff.2 (List.mem_cons_of_mem _ member)⟩

end Pair

namespace Splits

theorem addWindows_perm (windowIds : List ℕ+) : ∀ (root : Pair) (next : Nat),
    (addWindows root next windowIds).1.allWindowIds.Perm (windowIds ++ root.allWindowIds) := by
  induction windowIds with
  | nil => exact fun root next => .refl _
  | cons wid rest ih =>
    intro root next
    have step := root.balancedAdd_perm wid next
    exact (ih (root.balancedAdd wid next) (next + 1)).trans
      ((step.append_left rest).trans List.perm_middle)

theorem addWindows_info (windowIds : List ℕ+) : ∀ (root : Pair) (next : Nat),
    (addWindows root next windowIds).1.info = root.info := by
  induction windowIds with
  | nil => exact fun root next => rfl
  | cons wid rest ih =>
    intro root next
    exact (ih _ _).trans (root.balancedAdd_info wid next)

theorem addWindows_aside (windowIds : List ℕ+) : ∀ (root : Pair) (next : Nat) (info : PairInfo)
    (one two : Side), root.one = .pair info one two → root.two ≠ .none →
    ∃ one' two', (addWindows root next windowIds).1.one = .pair info one' two' ∧
      ∀ id ∈ root.two.allWindowIds,
        id ∈ (addWindows root next windowIds).1.two.allWindowIds := by
  induction windowIds with
  | nil => exact fun root next info one two first second => ⟨one, two, first, fun id member => member⟩
  | cons wid rest ih =>
    intro root next info one two first second
    obtain ⟨one', two', first', second', kept⟩ := Pair.balancedAdd_aside wid next first second
    obtain ⟨one'', two'', first'', kept'⟩ := ih _ (next + 1) info one' two' first' second'
    exact ⟨one'', two'', first'', fun id member => kept' id (kept id member)⟩

/-! ### Removal -/

/-- Taking out the placed windows without a group leaves one side of the root empty and a pair at
the other. -/
def ReplacesRoot (root : Pair) (groups : List LayoutGroup) : Prop :=
  windowsToRemove root groups ≠ [] ∧
    (root.one.remnant (windowsToRemove root groups) = .nothing ∧
        root.two.remnant (windowsToRemove root groups) = .pair ∨
      root.one.remnant (windowsToRemove root groups) = .pair ∧
        root.two.remnant (windowsToRemove root groups) = .nothing)

instance (root : Pair) (groups : List LayoutGroup) : Decidable (ReplacesRoot root groups) :=
  inferInstanceAs (Decidable (_ ∧ _))

/-- The sides of the root after the removal and the collapse. -/
theorem kinds_after_removal (root : Pair) (removed : List ℕ+) :
    let after := (root.removeWindows removed).collapseRedundantPairs
    after.one.kind = root.one.remnant removed ∧ after.two.kind = root.two.remnant removed ∨
      after.one.kind = root.two.remnant removed ∧ after.two.kind = root.one.remnant removed := by
  intro after
  by_cases gone : root.one.Gone removed
  · right
    have empty := (Side.removeWindows_eq_none_iff removed root.one).2 gone
    have one := Side.remnant_collapse removed root.one
    have two := Side.remnant_collapse removed root.two
    simp only [after, Pair.collapseRedundantPairs, Pair.removeWindows, empty,
      Side.settle_of_one_none] at one ⊢
    exact ⟨two, one⟩
  · left
    have held : root.one.removeWindows removed ≠ .none := fun empty =>
      gone ((Side.removeWindows_eq_none_iff removed root.one).1 empty)
    have one := Side.remnant_collapse removed root.one
    have two := Side.remnant_collapse removed root.two
    simp only [after, Pair.collapseRedundantPairs, Pair.removeWindows,
      Side.settle_of_one root.info held]
    exact ⟨one, two⟩

theorem allWindowIds_removeWindows (root : Pair) (removed : List ℕ+) :
    (removeWindows root removed).1.allWindowIds = root.allWindowIds.filter (· ∉ removed) := by
  have settled := Side.allWindowIds_settle root.info (root.one.removeWindows removed)
    (root.two.removeWindows removed)
  simp only [removeWindows, Pair.allWindowIds, Pair.side, Side.allWindowIds, Pair.collapseRedundantPairs,
    Pair.removeWindows, Side.allWindowIds_collapse, List.filter_append]
  rw [settled, Side.allWindowIds_removeWindows, Side.allWindowIds_removeWindows]

theorem removeWindows_info (root : Pair) (removed : List ℕ+) :
    (removeWindows root removed).1.info = root.info := by
  simp only [removeWindows, Pair.collapseRedundantPairs, Pair.removeWindows]
  cases root.one.removeWindows removed <;> rfl

theorem addresses_removeWindows (root : Pair) (removed : List ℕ+) :
    (removeWindows root removed).1.side.addresses.Sublist root.side.addresses := by
  have sides := Side.addresses_removeWindows removed root.side
  rw [← sides]
  simp only [removeWindows, Pair.side, Side.addresses, Side.removeWindows, Pair.collapseRedundantPairs,
    Pair.removeWindows]
  exact ((Side.addresses_collapse _).append (Side.addresses_collapse _)).cons_cons _

/-- The removal keeps the windows with a group, in order. -/
theorem allWindowIds_removal (root : Pair) (groups : List LayoutGroup) :
    (removal root groups).1.allWindowIds =
      root.allWindowIds.filter (· ∈ groups.map LayoutGroup.id) := by
  unfold removal
  split
  next =>
    rw [allWindowIds_removeWindows]
    apply List.filter_congr
    intro id placed
    simp [windowsToRemove, placed]
  next all =>
    refine (List.filter_eq_self.2 fun id placed => ?_).symm
    have kept := List.filter_eq_nil_iff.1 (not_not.1 all) id placed
    simpa using kept

theorem removal_info (root : Pair) (groups : List LayoutGroup) :
    (removal root groups).1.info = root.info := by
  unfold removal
  split
  · exact removeWindows_info root _
  · rfl

theorem addresses_removal (root : Pair) (groups : List LayoutGroup) :
    (removal root groups).1.side.addresses.Sublist root.side.addresses := by
  unfold removal
  split
  · exact addresses_removeWindows root _
  · exact List.Sublist.refl _

/-- A pair is alone when it holds nothing but another pair. -/
def Alone (root : Pair) : Prop :=
  root.one.kind = .nothing ∧ root.two.kind = .pair ∨
    root.one.kind = .pair ∧ root.two.kind = .nothing

theorem rootAddress_of_not_alone {root : Pair} (kept : ¬ Alone root) :
    rootAddress root = root.info.address := by
  obtain ⟨info, one, two⟩ := root
  cases one with
  | none => cases two with
    | none => rfl
    | window id => rfl
    | pair info' one' two' => exact absurd (.inl ⟨rfl, rfl⟩) kept
  | window id => rfl
  | pair info' one' two' => cases two with
    | none => exact absurd (.inr ⟨rfl, rfl⟩) kept
    | window id => rfl
    | pair info'' one'' two'' => rfl

theorem alone_cases {root : Pair} (alone : Alone root) :
    ∃ info one two, rootAddress root = info.address ∧
      (root.one = .none ∧ root.two = .pair info one two ∨
        root.one = .pair info one two ∧ root.two = .none) := by
  obtain ⟨rootInfo, rootOne, rootTwo⟩ := root
  obtain ⟨one, two⟩ | ⟨one, two⟩ := alone
  · obtain rfl := Side.kind_eq_nothing_iff.1 one
    obtain ⟨info, one', two', rfl⟩ := Side.kind_eq_pair_iff.1 two
    exact ⟨info, one', two', rfl, .inl ⟨rfl, rfl⟩⟩
  · obtain ⟨info, one', two', rfl⟩ := Side.kind_eq_pair_iff.1 one
    obtain rfl := Side.kind_eq_nothing_iff.1 two
    exact ⟨info, one', two', rfl, .inr ⟨rfl, rfl⟩⟩

theorem alone_after_removal (root : Pair) (groups : List LayoutGroup)
    (some : windowsToRemove root groups ≠ []) :
    Alone ((root.removeWindows (windowsToRemove root groups)).collapseRedundantPairs) ↔
      ReplacesRoot root groups := by
  unfold Alone ReplacesRoot
  obtain ⟨one, two⟩ | ⟨one, two⟩ := kinds_after_removal root (windowsToRemove root groups)
  · rw [one, two]
    exact (and_iff_right some).symm
  · rw [one, two]
    tauto

/-- The root stays the root, unless its replacement is what the groups ask for. -/
theorem removal_kept {root : Pair} {groups : List LayoutGroup}
    (kept : ¬ ReplacesRoot root groups) : (removal root groups).2 = root.info.address := by
  unfold removal
  split
  next some =>
    have info := removeWindows_info root (windowsToRemove root groups)
    rw [← info]
    exact rootAddress_of_not_alone (mt (alone_after_removal root groups some).1 kept)
  next => rfl

theorem removal_replaced {root : Pair} {groups : List LayoutGroup}
    (replaced : ReplacesRoot root groups) :
    ∃ info one two, (removal root groups).2 = info.address ∧
      ((removal root groups).1.one = .none ∧ (removal root groups).1.two = .pair info one two ∨
        (removal root groups).1.one = .pair info one two ∧
          (removal root groups).1.two = .none) := by
  unfold removal
  rw [if_pos replaced.1]
  exact alone_cases ((alone_after_removal root groups replaced.1).2 replaced)

/-! ### The pass -/

/-- Pair objects have distinct addresses, below the next one. -/
structure Objects (splits : Splits) : Prop where
  distinct : splits.pairsRoot.side.addresses.Nodup
  fresh : ∀ root, splits.root = some root → ∀ a ∈ root.side.addresses, a < splits.nextAddress

/-- The windows at the leaves of `self.pairs_root` are those of the groups, each once, and every
group has a geometry. -/
def Covers (self : Splits) (lgd : LayoutGlobalData) (groups : List LayoutGroup) : Prop :=
  ∃ next placements, self.doLayout lgd groups = some (next, placements) ∧
    next.pairsRoot.allWindowIds.Perm (groups.map LayoutGroup.id) ∧
    ∀ wg ∈ groups, wg.id ∈ placements.map Placement.id

/-- The address of the first pair object that the additions make. -/
def firstAddress (self : Splits) : Nat :=
  if self.root.isSome then self.nextAddress else self.nextAddress + 1

/-- The object that was the root, once the pass has removed and added windows. -/
def laidOut (self : Splits) (groups : List LayoutGroup) : Pair × Nat :=
  addWindows (removal self.pairsRoot groups).1 self.firstAddress
    (windowsToAdd self.pairsRoot groups)

theorem laidOut_perm (self : Splits) (groups : List LayoutGroup) :
    (self.laidOut groups).1.allWindowIds.Perm (windowsToAdd self.pairsRoot groups ++
      self.pairsRoot.allWindowIds.filter (· ∈ groups.map LayoutGroup.id)) := by
  rw [← allWindowIds_removal]
  exact addWindows_perm _ _ _

theorem mem_laidOut (self : Splits) (groups : List LayoutGroup) (id : ℕ+) :
    id ∈ (self.laidOut groups).1.allWindowIds ↔ id ∈ groups.map LayoutGroup.id := by
  rw [(self.laidOut_perm groups).mem_iff]
  simp only [windowsToAdd, List.mem_append, List.mem_filter, decide_eq_true_eq]
  tauto

theorem layOutGroups_spec (lgd : LayoutGlobalData) {root : Pair} {groups : List LayoutGroup}
    (present : ∀ id, id ∈ root.allWindowIds ↔ id ∈ groups.map LayoutGroup.id) :
    ∃ placements, layOutGroups root lgd groups = some placements ∧
      ∀ wg ∈ groups, wg.id ∈ placements.map Placement.id := by
  obtain ⟨placements, laid, ids⟩ := Side.layOut_spec lgd groups root.side lgd.central
    fun id member => (present id).1 member
  unfold layOutGroups
  split
  next wg => exact ⟨[{ id := wg.id, area := lgd.central }], rfl, by simp⟩
  next =>
    refine ⟨placements, laid, fun wg member => ?_⟩
    rw [ids]
    exact (present wg.id).2 (List.mem_map_of_mem member)

/-- The pass raises no error and gives every group its geometry. -/
theorem doLayout_spec (self : Splits) (lgd : LayoutGlobalData) (groups : List LayoutGroup) :
    ∃ placements, self.doLayout lgd groups = some
        ({ self with
            root := (self.laidOut groups).1.side.find? (removal self.pairsRoot groups).2
            nextAddress := (self.laidOut groups).2 }, placements) ∧
      ∀ wg ∈ groups, wg.id ∈ placements.map Placement.id := by
  obtain ⟨placements, laid, covered⟩ := layOutGroups_spec lgd (self.mem_laidOut groups)
  refine ⟨placements, ?_, covered⟩
  simp only [laidOut, firstAddress] at laid
  simp only [doLayout, laidOut, firstAddress, laid]
  rfl

theorem covers_iff {self : Splits} {lgd : LayoutGlobalData} {groups : List LayoutGroup} {root : Pair}
    (found : (self.laidOut groups).1.side.find? (removal self.pairsRoot groups).2 = some root) :
    self.Covers lgd groups ↔ root.allWindowIds.Perm (groups.map LayoutGroup.id) := by
  obtain ⟨placements, laid, covered⟩ := self.doLayout_spec lgd groups
  rw [found] at laid
  constructor
  · rintro ⟨next, placements', laid', perm, _⟩
    rw [laid] at laid'
    cases laid'
    exact perm
  · exact fun perm => ⟨_, placements, laid, perm, covered⟩

theorem laidOut_info (self : Splits) (groups : List LayoutGroup) :
    (self.laidOut groups).1.info = self.pairsRoot.info :=
  (addWindows_info _ _ _).trans (removal_info _ groups)

/-- A root that stays is the tree with everything in it. -/
theorem covers_of_kept (self : Splits) (lgd : LayoutGlobalData) (given : LayoutGroups)
    (kept : ¬ ReplacesRoot self.pairsRoot given.groups) :
    self.Covers lgd given.groups ↔
      (self.pairsRoot.allWindowIds.filter (· ∈ given.groups.map LayoutGroup.id)).Nodup := by
  have found : (self.laidOut given.groups).1.side.find? (removal self.pairsRoot given.groups).2 =
      some (self.laidOut given.groups).1 := by
    rw [removal_kept kept, ← self.laidOut_info given.groups]
    exact if_pos rfl
  rw [covers_iff found]
  have perm := self.laidOut_perm given.groups
  have distinct := given.distinct
  constructor
  · intro all
    have both := (perm.symm.trans all).nodup_iff.2 distinct
    exact (List.nodup_append.1 both).2.1
  · intro once
    apply (List.perm_ext_iff_of_nodup (perm.nodup_iff.2 ?_) distinct).2
    · exact self.mem_laidOut given.groups
    · refine (distinct.filter _).append once fun id added placed => ?_
      have fresh := (List.mem_filter.1 added).2
      have old := (List.mem_filter.1 placed).1
      simp [old] at fresh

/-- The address of the root is not that of an object below it. -/
theorem Objects.root_ne {self : Splits} (objects : self.Objects) (groups : List LayoutGroup)
    {info : PairInfo} {one two : Side}
    (held : (removal self.pairsRoot groups).1.one = .pair info one two ∨
      (removal self.pairsRoot groups).1.two = .pair info one two) :
    self.pairsRoot.info.address ≠ info.address := by
  have distinct := objects.distinct.sublist (addresses_removal self.pairsRoot groups)
  have top := removal_info self.pairsRoot groups
  intro same
  apply (List.nodup_cons.1 distinct).1
  rw [top, same]
  obtain held | held := held
  · rw [held]
    exact List.mem_append_left _ List.mem_cons_self
  · rw [held]
    exact List.mem_append_right _ List.mem_cons_self

theorem find?_below {root : Pair} {info : PairInfo} {one two : Side}
    (other : root.info.address ≠ info.address)
    (held : root.one = .pair info one two ∨
      root.one = .none ∧ root.two = .pair info one two) :
    root.side.find? info.address = some { info, one, two } := by
  obtain ⟨rootInfo, rootOne, rootTwo⟩ := root
  simp only at other held
  obtain rfl | ⟨rfl, rfl⟩ := held
  · simp [Pair.side, Side.find?, other]
  · simp [Pair.side, Side.find?, other]

theorem balancedAdd_alone {root : Pair} {info : PairInfo} {one two : Side} (wid : ℕ+)
    (address : Nat)
    (alone : root.one = .none ∧ root.two = .pair info one two ∨
      root.one = .pair info one two ∧ root.two = .none) :
    (root.balancedAdd wid address).one = .pair info one two ∧
      (root.balancedAdd wid address).two = .window wid := by
  obtain ⟨rootInfo, rootOne, rootTwo⟩ := root
  simp only at alone
  obtain ⟨rfl, rfl⟩ | ⟨rfl, rfl⟩ := alone
  · exact ⟨rfl, rfl⟩
  · exact ⟨rfl, rfl⟩

/-- Nothing is added: the new root has everything that the old one has. -/
theorem covers_of_replaced_nil {self : Splits} (objects : self.Objects) (lgd : LayoutGlobalData)
    {groups : List LayoutGroup} (replaced : ReplacesRoot self.pairsRoot groups)
    (nothing : windowsToAdd self.pairsRoot groups = []) :
    self.Covers lgd groups ↔ (self.pairsRoot.allWindowIds.filter
      (· ∈ groups.map LayoutGroup.id)).Perm (groups.map LayoutGroup.id) := by
  obtain ⟨info, one, two, address, alone⟩ := removal_replaced replaced
  have tree : (self.laidOut groups).1 = (removal self.pairsRoot groups).1 := by
    rw [laidOut, nothing]
    rfl
  have other := objects.root_ne groups (alone.symm.imp And.left And.right)
  rw [← self.laidOut_info groups, tree] at other
  have found := find?_below other (alone.symm.imp And.left id)
  rw [← address, ← tree] at found
  rw [covers_iff found, ← allWindowIds_removal]
  suffices same : (removal self.pairsRoot groups).1.allWindowIds =
      one.allWindowIds ++ two.allWindowIds by rw [same]; rfl
  obtain ⟨first, second⟩ | ⟨first, second⟩ := alone
  · simp [Pair.allWindowIds, Pair.side, Side.allWindowIds, first, second]
  · simp [Pair.allWindowIds, Pair.side, Side.allWindowIds, first, second]

/-- Something is added: the first addition stays outside the new root. -/
theorem not_covers_of_replaced {self : Splits} (objects : self.Objects) (lgd : LayoutGlobalData)
    (given : LayoutGroups) (replaced : ReplacesRoot self.pairsRoot given.groups)
    (some : windowsToAdd self.pairsRoot given.groups ≠ []) :
    ¬ self.Covers lgd given.groups := by
  obtain ⟨info, one, two, address, alone⟩ := removal_replaced replaced
  obtain ⟨wid, rest, added⟩ := List.exists_cons_of_ne_nil some
  obtain ⟨first, second⟩ := balancedAdd_alone wid self.firstAddress alone
  obtain ⟨one', two', first', kept⟩ := addWindows_aside rest _ (self.firstAddress + 1) info one two
    first (by rw [second]; exact Side.noConfusion)
  have tree : (self.laidOut given.groups).1 =
      (addWindows ((removal self.pairsRoot given.groups).1.balancedAdd wid self.firstAddress)
        (self.firstAddress + 1) rest).1 := by
    rw [laidOut, added]
    rfl
  rw [← tree] at first' kept
  have outside : wid ∈ (self.laidOut given.groups).1.two.allWindowIds :=
    kept wid (by rw [second]; exact List.mem_singleton_self wid)
  have other := objects.root_ne given.groups (alone.symm.imp And.left And.right)
  rw [← self.laidOut_info given.groups] at other
  have found := find?_below other (.inl first')
  rw [← address] at found
  rw [covers_iff found]
  intro all
  -- the id is placed once in the whole tree, and outside of the new root
  have asked : wid ∈ given.groups.map LayoutGroup.id := by
    have member : wid ∈ windowsToAdd self.pairsRoot given.groups := by
      rw [added]
      exact List.mem_cons_self
    exact (List.mem_filter.1 member).1
  have inside : wid ∈ (self.laidOut given.groups).1.one.allWindowIds := by
    rw [first']
    exact all.mem_iff.2 asked
  have twice : 2 ≤ (self.laidOut given.groups).1.allWindowIds.count wid := by
    have one := List.count_pos_iff.2 inside
    have two := List.count_pos_iff.2 outside
    simp only [Pair.allWindowIds, Pair.side, Side.allWindowIds, List.count_append]
    omega
  rw [(self.laidOut_perm given.groups).count_eq, List.count_append] at twice
  have once := List.nodup_iff_count_le_one.1
    (given.distinct.filter (· ∉ self.pairsRoot.allWindowIds)) wid
  have fresh : (self.pairsRoot.allWindowIds.filter
      (· ∈ given.groups.map LayoutGroup.id)).count wid = 0 := by
    rw [List.count_eq_zero]
    intro placed
    have member : wid ∈ windowsToAdd self.pairsRoot given.groups := by
      rw [added]
      exact List.mem_cons_self
    have unplaced := (List.mem_filter.1 member).2
    simp [(List.mem_filter.1 placed).1] at unplaced
  unfold windowsToAdd at twice
  omega

/-- Without additions, the windows that stay are those of the groups when none is placed twice. -/
theorem perm_iff_nodup_of_placed {root : Pair} (given : LayoutGroups)
    (nothing : windowsToAdd root given.groups = []) :
    (root.allWindowIds.filter (· ∈ given.groups.map LayoutGroup.id)).Perm
        (given.groups.map LayoutGroup.id) ↔
      (root.allWindowIds.filter (· ∈ given.groups.map LayoutGroup.id)).Nodup := by
  constructor
  · exact fun perm => perm.nodup_iff.2 given.distinct
  · intro once
    apply (List.perm_ext_iff_of_nodup once given.distinct).2
    intro id
    simp only [List.mem_filter, decide_eq_true_eq, and_iff_right_iff_imp]
    intro asked
    by_contra unplaced
    have added : id ∈ windowsToAdd root given.groups :=
      List.mem_filter.2 ⟨asked, by simpa using unplaced⟩
    rw [nothing] at added
    cases added

/-! ### Pair objects over a pass -/

end Splits

/-- A layout together with the distinctness of its pair objects. -/
structure PlacedSplits extends Splits where
  objects : toSplits.Objects

/-- Three windows, of which the first stands beside a pair of the others. -/
def threeWindows : Splits where
  root := some
    { info := { address := 0 }
      one := .window (Nat.succPNat 0)
      two := .pair { address := 1 } (.window (Nat.succPNat 1)) (.window (Nat.succPNat 2)) }
  nextAddress := 2

end Smelly
