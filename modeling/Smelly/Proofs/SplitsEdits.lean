/-
Module: Smelly.Proofs.SplitsEdits
Purpose: What the edits of a tree of pairs do to its windows: each adds its window in its place, or
  moves those it names, and keeps all others in order.
Trusted boundary: none
-/
import Mathlib.Data.List.Nodup
import Mathlib.Logic.Equiv.Basic
import Smelly.Core.SplitsActions
import Smelly.Proofs.SplitsCollapse

namespace Smelly

namespace Side

/-! ### Pair objects by address -/

theorem pairs_addresses (side : Side) :
    side.pairs.map (fun pair => pair.info.address) = side.addresses := by
  induction side with
  | none => rfl
  | window id => rfl
  | pair info one two ihOne ihTwo =>
    rw [pairs, addresses, List.map_cons, List.map_append, ihOne, ihTwo]

/-- A pair object of a tree of distinct objects is the one with its address. -/
theorem pair_of_address {side : Side} (objects : side.addresses.Nodup) {p q : Pair}
    (memberP : p ∈ side.pairs) (memberQ : q ∈ side.pairs)
    (same : p.info.address = q.info.address) : p = q := by
  rw [← pairs_addresses] at objects
  exact List.inj_on_of_nodup_map objects memberP memberQ same

theorem modifyPair_absent {side : Side} {address : Nat} (absent : address ∉ side.addresses)
    (change : Pair → Pair) : side.modifyPair address change = side := by
  induction side with
  | none => rfl
  | window id => rfl
  | pair info one two ihOne ihTwo =>
    simp only [addresses, List.mem_cons, List.mem_append, not_or] at absent
    obtain ⟨other, absentOne, absentTwo⟩ := absent
    rw [modifyPair, if_neg (Ne.symm other), ihOne absentOne, ihTwo absentTwo]
    rfl

/-- The windows of one pair object are a part of those of the tree, and only that part changes. -/
theorem modifyPair_around {side : Side} (objects : side.addresses.Nodup) {p : Pair}
    (member : p ∈ side.pairs) :
    ∃ front back, side.allWindowIds = front ++ p.allWindowIds ++ back ∧
      ∀ change, (side.modifyPair p.info.address change).allWindowIds =
        front ++ (change p).allWindowIds ++ back := by
  induction side with
  | none => cases member
  | window id => cases member
  | pair info one two ihOne ihTwo =>
    simp only [addresses, List.nodup_cons, List.mem_append, not_or] at objects
    obtain ⟨⟨notOne, notTwo⟩, objects⟩ := objects
    have addressIn : ∀ side : Side, p ∈ side.pairs → p.info.address ∈ side.addresses := by
      intro side inside
      rw [← pairs_addresses]
      exact List.mem_map_of_mem inside
    rcases List.mem_cons.1 member with rfl | below
    · refine ⟨[], [], by simp [Pair.allWindowIds, Pair.side], fun change => ?_⟩
      rw [modifyPair, modifyPair_absent notOne, modifyPair_absent notTwo]
      simp [Pair.allWindowIds]
    · rcases List.mem_append.1 below with inOne | inTwo
      · have here := addressIn one inOne
        obtain ⟨front, back, ids, changed⟩ := ihOne (List.nodup_append.1 objects).1 inOne
        have notHere : info.address ≠ p.info.address := fun same => notOne (same ▸ here)
        have absent : p.info.address ∉ two.addresses := fun there =>
          (List.nodup_append.1 objects).2.2 _ here _ there rfl
        refine ⟨front, back ++ two.allWindowIds, ?_, fun change => ?_⟩
        · rw [allWindowIds, ids]
          simp only [List.append_assoc]
        · rw [modifyPair, if_neg notHere, modifyPair_absent absent, Pair.side, allWindowIds,
            changed]
          simp only [List.append_assoc]
      · have here := addressIn two inTwo
        obtain ⟨front, back, ids, changed⟩ := ihTwo (List.nodup_append.1 objects).2.1 inTwo
        have notHere : info.address ≠ p.info.address := fun same => notTwo (same ▸ here)
        have absent : p.info.address ∉ one.addresses := fun there =>
          (List.nodup_append.1 objects).2.2 _ there _ here rfl
        refine ⟨one.allWindowIds ++ front, back, ?_, fun change => ?_⟩
        · rw [allWindowIds, ids]
          simp only [List.append_assoc]
        · rw [modifyPair, if_neg notHere, modifyPair_absent absent, Pair.side, allWindowIds,
            changed]
          simp only [List.append_assoc]

/-- Two changes of one object, the first of its attributes alone. -/
theorem modifyPair_modifyPair {h : PairInfo → PairInfo}
    (sameAddress : ∀ info, (h info).address = info.address) (g : Pair → Pair) (address : Nat)
    (side : Side) :
    (side.modifyPair address fun p => { p with info := h p.info }).modifyPair address g =
      side.modifyPair address fun p => g { p with info := h p.info } := by
  induction side with
  | none => rfl
  | window id => rfl
  | pair info one two ihOne ihTwo =>
    simp only [modifyPair]
    by_cases here : info.address = address
    · rw [if_pos here, if_pos here, Pair.side, modifyPair, if_pos ((sameAddress _).trans here),
        ihOne, ihTwo]
    · rw [if_neg here, if_neg here, Pair.side, modifyPair, if_neg here, ihOne, ihTwo]

/-! ### The pair of a window -/

/-- One of the two slots of a pair. -/
def slot (pair : Pair) (first : Bool) : Side := if first then pair.one else pair.two

theorem pairForWindow_spec {side : Side} {windowId : ℕ+} {p : Pair}
    (found : side.pairForWindow windowId = some p) :
    p ∈ side.pairs ∧ (p.one = .window windowId ∨ p.two = .window windowId) := by
  induction side with
  | none => cases found
  | window id => cases found
  | pair info one two ihOne ihTwo =>
    rw [pairForWindow] at found
    split at found
    · rename_i here
      cases found
      exact ⟨List.mem_cons_self .., here⟩
    · cases inOne : one.pairForWindow windowId with
      | some q =>
        rw [inOne] at found
        cases found
        obtain ⟨member, holds⟩ := ihOne inOne
        exact ⟨List.mem_cons_of_mem _ (List.mem_append_left _ member), holds⟩
      | none =>
        rw [inOne] at found
        obtain ⟨member, holds⟩ := ihTwo found
        exact ⟨List.mem_cons_of_mem _ (List.mem_append_right _ member), holds⟩

/-- Below a pair, every window has a pair. -/
theorem pairForWindow_isSome {side : Side} {windowId : ℕ+} (member : windowId ∈ side.allWindowIds)
    (notWindow : side ≠ .window windowId) : (side.pairForWindow windowId).isSome := by
  induction side with
  | none => cases member
  | window id =>
    obtain rfl := List.mem_singleton.1 member
    exact absurd rfl notWindow
  | pair info one two ihOne ihTwo =>
    rw [pairForWindow]
    split
    · rfl
    · rename_i elsewhere
      rw [not_or] at elsewhere
      rw [Option.isSome_or]
      rcases List.mem_append.1 member with inOne | inTwo
      · rw [ihOne inOne elsewhere.1]
        rfl
      · rw [ihTwo inTwo elsewhere.2, Bool.or_true]

theorem slot_mem {side : Side} {p : Pair} (member : p ∈ side.pairs) {first : Bool} {windowId : ℕ+}
    (holds : slot p first = .window windowId) : windowId ∈ side.allWindowIds := by
  induction side with
  | none => cases member
  | window id => cases member
  | pair info one two ihOne ihTwo =>
    rcases List.mem_cons.1 member with rfl | below
    · cases first with
      | true =>
        have here : one = .window windowId := holds
        exact List.mem_append_left _ (here ▸ List.mem_singleton_self _)
      | false =>
        have here : two = .window windowId := holds
        exact List.mem_append_right _ (here ▸ List.mem_singleton_self _)
    · rcases List.mem_append.1 below with inOne | inTwo
      · exact List.mem_append_left _ (ihOne inOne)
      · exact List.mem_append_right _ (ihTwo inTwo)

/-- Where every window occurs once, its slot is the only one that holds it. -/
theorem slot_unique {side : Side} (once : side.allWindowIds.Nodup) {p q : Pair}
    (memberP : p ∈ side.pairs) (memberQ : q ∈ side.pairs) {s t : Bool} {windowId : ℕ+}
    (holdsP : slot p s = .window windowId) (holdsQ : slot q t = .window windowId) :
    p = q ∧ s = t := by
  induction side with
  | none => cases memberP
  | window id => cases memberP
  | pair info one two ihOne ihTwo =>
    obtain ⟨onceOne, onceTwo, apart⟩ := List.nodup_append.1 once
    have both : windowId ∈ one.allWindowIds → windowId ∈ two.allWindowIds → False :=
      fun inOne inTwo => apart _ inOne _ inTwo rfl
    -- the window of a slot of the pair itself is in one side, and is that side
    have self : ∀ {r : Pair} {first second : Bool}, r ∈ one.pairs ++ two.pairs →
        slot { info, one, two } first = .window windowId → slot r second = .window windowId →
        False := by
      intro r first second below holds holdsBelow
      cases first with
      | true =>
        have here : one = .window windowId := holds
        rcases List.mem_append.1 below with inOne | inTwo
        · rw [here] at inOne
          cases inOne
        · exact both (here ▸ List.mem_singleton_self _) (slot_mem inTwo holdsBelow)
      | false =>
        have here : two = .window windowId := holds
        rcases List.mem_append.1 below with inOne | inTwo
        · exact both (slot_mem inOne holdsBelow) (here ▸ List.mem_singleton_self _)
        · rw [here] at inTwo
          cases inTwo
    rcases List.mem_cons.1 memberP with rfl | belowP
    · rcases List.mem_cons.1 memberQ with rfl | belowQ
      · refine ⟨rfl, ?_⟩
        cases s with
        | true =>
          cases t with
          | true => rfl
          | false =>
            have first : one = .window windowId := holdsP
            have second : two = .window windowId := holdsQ
            exact (both (first ▸ List.mem_singleton_self _)
              (second ▸ List.mem_singleton_self _)).elim
        | false =>
          cases t with
          | false => rfl
          | true =>
            have first : one = .window windowId := holdsQ
            have second : two = .window windowId := holdsP
            exact (both (first ▸ List.mem_singleton_self _)
              (second ▸ List.mem_singleton_self _)).elim
      · exact (self belowQ holdsP holdsQ).elim
    · rcases List.mem_cons.1 memberQ with rfl | belowQ
      · exact (self belowP holdsQ holdsP).elim
      · rcases List.mem_append.1 belowP with pOne | pTwo
        · rcases List.mem_append.1 belowQ with qOne | qTwo
          · exact ihOne onceOne pOne qOne
          · exact (both (slot_mem pOne holdsP) (slot_mem qTwo holdsQ)).elim
        · rcases List.mem_append.1 belowQ with qOne | qTwo
          · exact (both (slot_mem qOne holdsQ) (slot_mem pTwo holdsP)).elim
          · exact ihTwo onceTwo pTwo qTwo

/-! ### Swapping two windows -/

/-- The tree with its windows renamed. -/
def mapWindows (f : ℕ+ → ℕ+) : Side → Side
  | .none => .none
  | .window id => .window (f id)
  | .pair info one two => .pair info (one.mapWindows f) (two.mapWindows f)

theorem allWindowIds_mapWindows (f : ℕ+ → ℕ+) (side : Side) :
    (side.mapWindows f).allWindowIds = side.allWindowIds.map f := by
  induction side with
  | none => rfl
  | window id => rfl
  | pair info one two ihOne ihTwo =>
    rw [mapWindows, allWindowIds, allWindowIds, ihOne, ihTwo, List.map_append]

/-- Assign to one slot of a pair. -/
def setSlot (first : Bool) (value : Side) (pair : Pair) : Pair :=
  if first then { pair with one := value } else { pair with two := value }

theorem modifyPair_setSlot (info : PairInfo) (one two : Side) (address : Nat) (first : Bool)
    (value : Side) :
    (Side.pair info one two).modifyPair address (setSlot first value) =
      .pair info
        (if info.address = address ∧ first = true then value
          else one.modifyPair address (setSlot first value))
        (if info.address = address ∧ first = false then value
          else two.modifyPair address (setSlot first value)) := by
  rw [modifyPair]
  by_cases here : info.address = address
  · cases first with
    | true => simp [here, setSlot, Pair.side]
    | false => simp [here, setSlot, Pair.side]
  · simp [here, Pair.side]

/-- Writing each of two windows into the slot of the other renames them. -/
theorem swap_renames {side : Side} {x y : Nat} {s t : Bool} {a b : ℕ+}
    (slots : ∀ q ∈ side.pairs, ∀ first,
      ((q.info.address = x ∧ s = first) ↔ slot q first = .window a) ∧
        ((q.info.address = y ∧ t = first) ↔ slot q first = .window b))
    (notA : side ≠ .window a) (notB : side ≠ .window b) :
    (side.modifyPair x (setSlot s (.window b))).modifyPair y (setSlot t (.window a)) =
      side.mapWindows (Equiv.swap a b) := by
  induction side with
  | none => rfl
  | window id =>
    have other : Equiv.swap a b id = id :=
      Equiv.swap_apply_of_ne_of_ne (fun same => notA (same ▸ rfl)) (fun same => notB (same ▸ rfl))
    rw [mapWindows, other]
    rfl
  | pair info one two ihOne ihTwo =>
    have here := slots { info, one, two } (List.mem_cons_self ..)
    -- what a slot holds in the end
    have written : ∀ (first : Bool) (child : Side), slot { info, one, two } first = child →
        (child ≠ .window a → child ≠ .window b →
          (child.modifyPair x (setSlot s (.window b))).modifyPair y (setSlot t (.window a)) =
            child.mapWindows (Equiv.swap a b)) →
        (if info.address = y ∧ t = first then .window a
          else (if info.address = x ∧ s = first then .window b
            else child.modifyPair x (setSlot s (.window b))).modifyPair y
              (setSlot t (.window a))) = child.mapWindows (Equiv.swap a b) := by
      intro first child slotEq ih
      obtain ⟨holdsA, holdsB⟩ := here first
      rw [slotEq] at holdsA holdsB
      by_cases isB : child = .window b
      · rw [if_pos (holdsB.2 isB), isB, mapWindows, Equiv.swap_apply_right]
      · rw [if_neg fun writes => isB (holdsB.1 writes)]
        by_cases isA : child = .window a
        · rw [if_pos (holdsA.2 isA), isA, mapWindows, Equiv.swap_apply_left]
          rfl
        · rw [if_neg fun writes => isA (holdsA.1 writes)]
          exact ih isA isB
    rw [modifyPair_setSlot, modifyPair_setSlot, mapWindows]
    have inOne : ∀ q ∈ one.pairs, q ∈ (Side.pair info one two).pairs :=
      fun q member => List.mem_cons_of_mem _ (List.mem_append_left _ member)
    have inTwo : ∀ q ∈ two.pairs, q ∈ (Side.pair info one two).pairs :=
      fun q member => List.mem_cons_of_mem _ (List.mem_append_right _ member)
    rw [written true one rfl (ihOne fun q member => slots q (inOne q member)),
      written false two rfl (ihTwo fun q member => slots q (inTwo q member))]

/-! ### The balanced insertion -/

/-- The balanced insertion puts the window somewhere between the others. -/
theorem balancedAdd_inserts (windowId : ℕ+) (address : Nat) {side : Side}
    (notLeaf : side.kind = .pair) :
    ∃ front back, side.allWindowIds = front ++ back ∧
      (side.balancedAdd windowId address).allWindowIds = front ++ windowId :: back := by
  induction side with
  | none => cases notLeaf
  | window id => cases notLeaf
  | pair info one two ihOne ihTwo =>
    by_cases room : one = .none ∨ two = .none
    · refine ⟨one.allWindowIds ++ two.allWindowIds, [], (List.append_nil _).symm, ?_⟩
      have filled : (Side.pair info one two).balancedAdd windowId address =
          fill info windowId one two := by
        rcases room with rfl | rfl
        · rfl
        · cases one <;> rfl
      rw [filled, allWindowIds_fill info windowId one two room]
    · obtain ⟨hasOne, hasTwo⟩ := not_or.1 room
      cases one with
      | none => exact absurd rfl hasOne
      | window id =>
        cases two with
        | none => exact absurd rfl hasTwo
        | window id' => exact ⟨[id, id'], [], rfl, rfl⟩
        | pair infoTwo two two' => exact ⟨[id], _, rfl, rfl⟩
      | pair infoOne one one' =>
        cases two with
        | none => exact absurd rfl hasTwo
        | window id =>
          refine ⟨(one.allWindowIds ++ one'.allWindowIds) ++ [id], [], ?_, ?_⟩
          · simp [allWindowIds]
          · simp [balancedAdd, allWindowIds]
        | pair infoTwo two two' =>
          rw [balancedAdd]
          split
          · obtain ⟨front, back, ids, added⟩ := ihOne rfl
            refine ⟨front, back ++ (Side.pair infoTwo two two').allWindowIds, ?_, ?_⟩
            · rw [allWindowIds, ids, List.append_assoc]
            · rw [allWindowIds, added, List.append_assoc, List.cons_append]
          · obtain ⟨front, back, ids, added⟩ := ihTwo rfl
            refine ⟨(Side.pair infoOne one one').allWindowIds ++ front, back, ?_, ?_⟩
            · rw [allWindowIds, ids, List.append_assoc]
            · rw [allWindowIds, added, List.append_assoc]

end Side

open Side

/-! ### The edits of a root -/

theorem Pair.balancedAdd_side (self : Pair) (windowId : ℕ+) (address : Nat) :
    (self.balancedAdd windowId address).side = self.side.balancedAdd windowId address := by
  obtain ⟨one', two', shape, -⟩ := balancedAdd_spec windowId address self.side _ _ _ rfl
  unfold Pair.balancedAdd
  rw [shape]
  rfl

/-- The windows of a tree, each of them once. -/
structure Pair.Contains (tree : Pair) (ids : List ℕ+) : Prop where
  same : tree.allWindowIds.Perm ids
  once : tree.allWindowIds.Nodup

theorem Pair.contains_of_perm {tree : Pair} {ids : List ℕ+} (same : tree.allWindowIds.Perm ids)
    (once : ids.Nodup) : tree.Contains ids :=
  ⟨same, same.nodup_iff.2 once⟩

namespace Splits

variable {root : Pair}

/-- The pair of an existing window is given the new one beside it. -/
theorem splitAndAdd_windows {pair : Pair} {existing : ℕ+} (new : ℕ+)
    (holds : pair.one = .window existing ∨ pair.two = .window existing)
    (horizontal after : Bool) (address : Nat) :
    ∃ front back, pair.allWindowIds = front ++ existing :: back ∧
      (pair.splitAndAdd existing new horizontal after address).allWindowIds =
        front ++ (if after then [existing, new] else [new, existing]) ++ back := by
  obtain ⟨info, one, two⟩ := pair
  unfold Pair.splitAndAdd
  dsimp only at holds ⊢
  by_cases redundant : one = .none ∨ two = .none
  · have alone : (Pair.mk info one two).isRedundant = true := decide_eq_true redundant
    rw [if_pos alone]
    refine ⟨[], [], ?_, ?_⟩
    · rcases holds with rfl | rfl
      · have none : two = .none := redundant.resolve_left (fun empty => nomatch empty)
        rw [none]
        rfl
      · have none : one = .none := redundant.resolve_right (fun empty => nomatch empty)
        rw [none]
        rfl
    · cases after <;> rfl
  · have both : (Pair.mk info one two).isRedundant = false := decide_eq_false redundant
    rw [both]
    by_cases first : one = .window existing
    · rw [if_pos first, first]
      refine ⟨[], two.allWindowIds, rfl, ?_⟩
      cases after <;> rfl
    · rw [if_neg first]
      obtain rfl := holds.resolve_left first
      refine ⟨one.allWindowIds, [], rfl, ?_⟩
      rw [List.append_nil]
      cases after <;> rfl

theorem modifyPair_pair_around (objects : root.side.addresses.Nodup) {p : Pair}
    (member : p ∈ root.side.pairs) :
    ∃ front back, root.allWindowIds = front ++ p.allWindowIds ++ back ∧
      ∀ change, (root.modifyPair p.info.address change).allWindowIds =
        front ++ (change p).allWindowIds ++ back :=
  modifyPair_around objects member

theorem splitWindow_windows (objects : root.side.addresses.Nodup) {existing : ℕ+} (new : ℕ+)
    (known : existing ∈ root.allWindowIds) (horizontal after : Bool) (address : Nat) :
    ∃ front back, root.allWindowIds = front ++ existing :: back ∧
      (splitWindow root existing new horizontal after address).allWindowIds =
        front ++ (if after then [existing, new] else [new, existing]) ++ back := by
  obtain ⟨pair, found⟩ := Option.isSome_iff_exists.1
    (@pairForWindow_isSome root.side existing known (fun leaf => nomatch leaf))
  obtain ⟨member, holds⟩ := pairForWindow_spec found
  obtain ⟨front, back, ids, changed⟩ := modifyPair_pair_around objects member
  obtain ⟨inner, inner', pairIds, split⟩ :=
    splitAndAdd_windows new holds horizontal after address
  refine ⟨front ++ inner, inner' ++ back, ?_, ?_⟩
  · rw [ids, pairIds]
    simp only [List.append_assoc, List.cons_append]
  · have split' : splitWindow root existing new horizontal after address =
        root.modifyPair pair.info.address
          (·.splitAndAdd existing new horizontal after address) := by
      rw [splitWindow, Pair.pairForWindow, found]
    rw [split', changed, split]
    simp only [List.append_assoc]

theorem swapWindows_windows (objects : root.side.addresses.Nodup)
    (once : root.allWindowIds.Nodup) (a b : ℕ+) :
    (swapWindows root a b).allWindowIds =
      if a ∈ root.allWindowIds ∧ b ∈ root.allWindowIds then
        root.allWindowIds.map (Equiv.swap a b)
      else root.allWindowIds := by
  have known : ∀ id, id ∈ root.allWindowIds ↔ (root.pairForWindow id).isSome := by
    intro id
    constructor
    · exact fun member => @pairForWindow_isSome root.side id member fun leaf => nomatch leaf
    · intro some
      obtain ⟨pair, found⟩ := Option.isSome_iff_exists.1 some
      obtain ⟨member, holds⟩ := pairForWindow_spec found
      rcases holds with first | second
      · exact @slot_mem root.side pair member true id first
      · exact @slot_mem root.side pair member false id second
  simp only [known]
  unfold swapWindows
  cases foundA : root.pairForWindow a with
  | none => simp
  | some pa =>
    cases foundB : root.pairForWindow b with
    | none => simp
    | some pb =>
      obtain ⟨memberA, holdsA⟩ := pairForWindow_spec foundA
      obtain ⟨memberB, holdsB⟩ := pairForWindow_spec foundB
      have swapped : ∀ s t, slot pa s = .window a → slot pb t = .window b →
          ((root.modifyPair pa.info.address (setSlot s (slot pb t))).modifyPair
            pb.info.address (setSlot t (slot pa s))).allWindowIds =
              root.allWindowIds.map (Equiv.swap a b) := by
        intro s t slotA slotB
        have slots : ∀ q ∈ root.side.pairs, ∀ first,
            ((q.info.address = pa.info.address ∧ s = first) ↔ slot q first = .window a) ∧
              ((q.info.address = pb.info.address ∧ t = first) ↔
                slot q first = .window b) := by
          intro q memberQ first
          constructor
          · constructor
            · rintro ⟨sameAddress, rfl⟩
              rw [pair_of_address objects memberQ memberA sameAddress]
              exact slotA
            · intro holds
              obtain ⟨rfl, rfl⟩ := slot_unique once memberQ memberA holds slotA
              exact ⟨rfl, rfl⟩
          · constructor
            · rintro ⟨sameAddress, rfl⟩
              rw [pair_of_address objects memberQ memberB sameAddress]
              exact slotB
            · intro holds
              obtain ⟨rfl, rfl⟩ := slot_unique once memberQ memberB holds slotB
              exact ⟨rfl, rfl⟩
        rw [slotA, slotB]
        exact (congrArg Side.allWindowIds (@swap_renames root.side _ _ _ _ a b slots
          (fun leaf => nomatch leaf) (fun leaf => nomatch leaf))).trans
            (allWindowIds_mapWindows _ root.side)
      dsimp only
      by_cases firstA : pa.one = .window a
      · rw [if_pos firstA]
        by_cases firstB : pb.one = .window b
        · rw [if_pos firstB]
          exact swapped true true firstA firstB
        · rw [if_neg firstB]
          exact swapped true false firstA (holdsB.resolve_left firstB)
      · rw [if_neg firstA]
        by_cases firstB : pb.one = .window b
        · rw [if_pos firstB]
          exact swapped false true (holdsA.resolve_left firstA) firstB
        · rw [if_neg firstB]
          exact swapped false false (holdsA.resolve_left firstA) (holdsB.resolve_left firstB)

/-- A rotation exchanges the windows of the two sides of one pair, or moves none. -/
theorem rotate_windows (objects : root.side.addresses.Nodup) (wid : ℕ+) (arg : Int) :
    (rotate root wid arg).allWindowIds = root.allWindowIds ∨
      ∃ pair front back, root.pairForWindow wid = some pair ∧
        root.allWindowIds =
          front ++ (pair.one.allWindowIds ++ pair.two.allWindowIds) ++ back ∧
        (rotate root wid arg).allWindowIds =
          front ++ (pair.two.allWindowIds ++ pair.one.allWindowIds) ++ back := by
  unfold rotate
  generalize (if arg = 90 ∨ arg = 180 ∨ arg = 270 then arg else 90) = amt
  cases found : root.pairForWindow wid with
  | none => exact .inl rfl
  | some pair =>
    obtain ⟨member, -⟩ := pairForWindow_spec found
    obtain ⟨front, back, ids, changed⟩ := modifyPair_pair_around objects member
    have turned : (root.modifyPair pair.info.address fun pair =>
        { pair with
          info := { pair.info with horizontal := !pair.info.horizontal } }).allWindowIds =
            root.allWindowIds := by
      rw [changed, ids]
      rfl
    have exchanged : (root.modifyPair pair.info.address fun pair =>
        { pair with one := pair.two, two := pair.one }).allWindowIds =
          front ++ (pair.two.allWindowIds ++ pair.one.allWindowIds) ++ back := changed _
    have turnedExchanged : ((root.modifyPair pair.info.address fun pair =>
        { pair with info := { pair.info with horizontal := !pair.info.horizontal } }).modifyPair
          pair.info.address fun pair => { pair with one := pair.two, two := pair.one }).side =
        (root.modifyPair pair.info.address fun pair =>
          { info := { pair.info with horizontal := !pair.info.horizontal }
            one := pair.two, two := pair.one }).side :=
      @modifyPair_modifyPair (fun info => { info with horizontal := !info.horizontal })
        (fun _ => rfl) _ _ root.side
    dsimp only
    by_cases redundant : pair.isRedundant
    · exact .inl (by rw [if_pos redundant])
    · rw [if_neg redundant]
      by_cases swap : amt = 180 ∨ amt = 270
      · refine .inr ⟨pair, front, back, rfl, ids, ?_⟩
        rw [if_pos swap]
        by_cases turn : amt = 90 ∨ amt = 270
        · rw [if_pos turn, Pair.allWindowIds, turnedExchanged]
          exact changed _
        · rw [if_neg turn]
          exact exchanged
      · refine .inl ?_
        rw [if_neg swap]
        by_cases turn : amt = 90 ∨ amt = 270
        · rw [if_pos turn]
          exact turned
        · rw [if_neg turn]

theorem moveToScreenEdge_windows (root : Pair) (wid : ℕ+) (which : ScreenEdge) (address : Nat) :
    (moveToScreenEdge root wid which address).allWindowIds =
      if which = .left ∨ which = .top then wid :: root.allWindowIds.filter (· ≠ wid)
      else root.allWindowIds.filter (· ≠ wid) ++ [wid] := by
  have left : (rootPair (removeWindows root [wid]).1).side.allWindowIds =
      root.allWindowIds.filter (· ≠ wid) := by
    refine (removeWindows_order [wid] root).trans (List.filter_congr fun id _ => ?_)
    simp
  unfold moveToScreenEdge
  split
  · rw [Pair.allWindowIds, Pair.side, allWindowIds, left]
    rfl
  · rw [Pair.allWindowIds, Pair.side, allWindowIds, left]
    rfl

/-- What the five edits of a tree do to its windows. -/
structure EditsConserve (root : Pair) : Prop where
  /-- The window is added, and the others stay in order. -/
  balancedAdd : ∀ id ∉ root.allWindowIds, ∀ address,
    (root.balancedAdd id address).Contains (id :: root.allWindowIds) ∧
      (root.balancedAdd id address).allWindowIds.filter (· ≠ id) = root.allWindowIds
  /-- The new window is just before or behind the existing one. -/
  splitAndAdd : ∀ existing ∈ root.allWindowIds, ∀ new ∉ root.allWindowIds,
    ∀ horizontal after address,
      (splitWindow root existing new horizontal after address).Contains
          (new :: root.allWindowIds) ∧
        ∃ front back, root.allWindowIds = front ++ existing :: back ∧
          (splitWindow root existing new horizontal after address).allWindowIds =
            front ++ (if after then [existing, new] else [new, existing]) ++ back
  /-- The two windows change places, if both are there. -/
  swapWindows : ∀ a b, (swapWindows root a b).Contains root.allWindowIds ∧
    (swapWindows root a b).allWindowIds =
      if a ∈ root.allWindowIds ∧ b ∈ root.allWindowIds then
        root.allWindowIds.map (Equiv.swap a b)
      else root.allWindowIds
  /-- The sides of the pair of the window change places, or nothing moves. -/
  rotate : ∀ wid arg, (rotate root wid arg).Contains root.allWindowIds ∧
    ((rotate root wid arg).allWindowIds = root.allWindowIds ∨
      ∃ pair front back, root.pairForWindow wid = some pair ∧
        root.allWindowIds =
          front ++ (pair.one.allWindowIds ++ pair.two.allWindowIds) ++ back ∧
        (rotate root wid arg).allWindowIds =
          front ++ (pair.two.allWindowIds ++ pair.one.allWindowIds) ++ back)
  /-- The window is the first or the last one, and the others stay in order. -/
  moveToScreenEdge : ∀ wid which address,
    (moveToScreenEdge root wid which address).Contains (root.allWindowIds.insert wid) ∧
      (moveToScreenEdge root wid which address).allWindowIds =
        if which = .left ∨ which = .top then wid :: root.allWindowIds.filter (· ≠ wid)
        else root.allWindowIds.filter (· ≠ wid) ++ [wid]

theorem swapWindows_contains (objects : root.side.addresses.Nodup)
    (once : root.allWindowIds.Nodup) (a b : ℕ+) :
    (swapWindows root a b).Contains root.allWindowIds := by
  refine Pair.contains_of_perm ?_ once
  rw [swapWindows_windows objects once]
  split
  · rename_i both
    refine (List.perm_ext_iff_of_nodup (once.map (Equiv.swap a b).injective) once).2 fun id => ?_
    rw [List.mem_map]
    have closed : ∀ id, id ∈ root.allWindowIds → Equiv.swap a b id ∈ root.allWindowIds := by
      intro id member
      rw [Equiv.swap_apply_def]
      split
      · exact both.2
      · split
        · exact both.1
        · exact member
    constructor
    · rintro ⟨old, member, rfl⟩
      exact closed old member
    · exact fun member => ⟨_, closed id member, Equiv.swap_apply_self a b id⟩
  · exact .refl _

end Splits

/-- For every tree of distinct pairs that contains each window once, every edit yields a tree that
contains the expected windows once, in the expected order. -/
theorem splitsEdits (root : Pair) (objects : root.side.addresses.Nodup)
    (once : root.allWindowIds.Nodup) : Splits.EditsConserve root where
  balancedAdd := by
    intro id new address
    obtain ⟨front, back, ids, added⟩ := @balancedAdd_inserts id address root.side rfl
    rw [← Pair.balancedAdd_side] at added
    have old : root.allWindowIds = front ++ back := ids
    have others : ∀ part : List ℕ+, (∀ x ∈ part, x ∈ root.allWindowIds) →
        part.filter (· ≠ id) = part := by
      intro part below
      refine List.filter_eq_self.2 fun x member => decide_eq_true ?_
      rintro rfl
      exact new (below x member)
    constructor
    · refine Pair.contains_of_perm ?_ (List.nodup_cons.2 ⟨new, once⟩)
      rw [Pair.allWindowIds, added, old]
      exact List.perm_middle
    · rw [Pair.allWindowIds, added, List.filter_append, List.filter_cons_of_neg (by simp),
        others front fun x member => old ▸ List.mem_append_left _ member,
        others back fun x member => old ▸ List.mem_append_right _ member, ← old]
  splitAndAdd := by
    intro existing known new absent horizontal after address
    obtain ⟨front, back, ids, split⟩ :=
      Splits.splitWindow_windows objects new known horizontal after address
    refine ⟨Pair.contains_of_perm ?_ (List.nodup_cons.2 ⟨absent, once⟩), front, back, ids, split⟩
    rw [split, ids]
    cases after with
    | true =>
      have moved : (front ++ [existing, new] ++ back).Perm (front ++ [new, existing] ++ back) :=
        ((List.Perm.swap ..).append_left front).append_right back
      refine moved.trans ?_
      rw [List.append_assoc]
      exact List.perm_middle
    | false =>
      rw [List.append_assoc]
      exact List.perm_middle
  swapWindows := fun a b =>
    ⟨Splits.swapWindows_contains objects once a b, Splits.swapWindows_windows objects once a b⟩
  rotate := by
    intro wid arg
    have moved := Splits.rotate_windows objects wid arg
    refine ⟨Pair.contains_of_perm ?_ once, moved⟩
    rcases moved with same | ⟨pair, front, back, -, ids, exchanged⟩
    · rw [same]
    · rw [exchanged, ids]
      exact (List.perm_append_comm.append_left front).append_right back
  moveToScreenEdge := by
    intro wid which address
    have moved := Splits.moveToScreenEdge_windows root wid which address
    refine ⟨Pair.contains_of_perm ?_ (once.insert), moved⟩
    have inserted : (wid :: root.allWindowIds.filter (· ≠ wid)).Perm
        (root.allWindowIds.insert wid) := by
      have erased : root.allWindowIds.filter (· ≠ wid) = root.allWindowIds.erase wid := by
        rw [once.erase_eq_filter wid]
        exact List.filter_congr fun id _ => by simp [bne, beq_eq_decide]
      rw [erased]
      by_cases known : wid ∈ root.allWindowIds
      · rw [List.insert_of_mem known]
        exact (List.perm_cons_erase known).symm
      · rw [List.insert_of_not_mem known, List.erase_of_not_mem known]
    rw [moved]
    split
    · exact inserted
    · exact (List.perm_append_singleton _ _).trans inserted

/-- Three windows, the second and the third in a pair of their own. -/
def editedTree : Pair :=
  { info := { address := 0 }
    one := .window (Nat.succPNat 0)
    two := .pair { address := 1, horizontal := false } (.window (Nat.succPNat 1))
      (.window (Nat.succPNat 2)) }

/-- The five edits of a tree of three windows. -/
theorem splitsEdits_threeWindows : Splits.EditsConserve editedTree :=
  splitsEdits editedTree (by decide) (by decide)

end Smelly
