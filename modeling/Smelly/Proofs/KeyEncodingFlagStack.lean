/-
Module: Smelly.Proofs.KeyEncodingFlagStack
Purpose: The two arrays of key encoding flags are two bounded stacks of capacity 8.
Trusted boundary: none
-/
import Mathlib.Tactic.IntervalCases
import Smelly.Core.KeyEncodingFlags
import Smelly.Lib.BoundedStack
import Smelly.Lib.Run

namespace Smelly

open Checked MemoryBlock BoundedStack Run

/-! ### The high bit -/

theorem mark_in_use (entry : UInt8) : (entry ||| 0x80) &&& 0x80 ≠ 0 := by
  have high : (entry ||| 0x80) &&& 0x80 = 0x80 := by
    apply UInt8.toBitVec_inj.1
    ext i bound
    interval_cases i <;> simp
  rw [high]
  decide

theorem flags_mark (entry : UInt8) : (entry ||| 0x80) &&& 0x7f = entry &&& 0x7f := by
  apply UInt8.toBitVec_inj.1
  ext i bound
  interval_cases i <;> simp

theorem flags_flags (entry : UInt8) : entry &&& 0x7f &&& 0x7f = entry &&& 0x7f := by
  apply UInt8.toBitVec_inj.1
  ext i bound
  interval_cases i <;> simp

/-- The high bit takes no part in what `how` does. -/
theorem flags_applyHow (how : UInt32) (q entry : UInt8) :
    applyHow how (q &&& 0x7f) entry &&& 0x7f = applyHow how (q &&& 0x7f) (entry &&& 0x7f) := by
  unfold applyHow
  split_ifs <;>
    (apply UInt8.toBitVec_inj.1
     ext i bound
     interval_cases i <;> simp)

/-! ### The array -/

/-- The array holds the entries of `stack`, marked, and zeros behind them. -/
structure StackLayout (flags : List UInt8) (stack : List UInt8) : Prop where
  length : flags.length = keyEncodingFlagsSz
  entries : ∃ marked free, flags = marked ++ List.replicate free 0 ∧
    (∀ entry ∈ marked, entry &&& 0x80 ≠ 0) ∧ marked.map (· &&& 0x7f) = stack

theorem StackLayout.empty : StackLayout (List.replicate keyEncodingFlagsSz 0) [] :=
  ⟨List.length_replicate, [], keyEncodingFlagsSz, rfl, by simp, rfl⟩

theorem getD_zeros (marked : List UInt8) {free i : Nat} (inside : i < free) :
    (marked ++ List.replicate free (0 : UInt8)).getD (marked.length + i) 0 = 0 := by
  rw [List.getD_eq_getElem?_getD, List.getElem?_append_right (Nat.le_add_right ..),
    Nat.add_sub_cancel_left, List.getElem?_replicate, if_pos inside]
  rfl

theorem lastInUse_zeros (marked : List UInt8) (free : Nat) {i : Nat} (inside : i ≤ free) :
    lastInUse (marked ++ List.replicate free 0) (marked.length + i) =
      lastInUse (marked ++ List.replicate free 0) marked.length := by
  induction i with
  | zero => rfl
  | succ i ih =>
    rw [← Nat.add_assoc, lastInUse, getD_zeros marked (by omega), if_neg (by decide)]
    exact ih (by omega)

theorem lastInUse_layout {marked : List UInt8} {free : Nat}
    (full : marked.length + free = keyEncodingFlagsSz)
    (inUse : ∀ entry ∈ marked, entry &&& 0x80 ≠ 0) :
    lastInUse (marked ++ List.replicate free 0) keyEncodingFlagsSz =
      if marked = [] then none else some (marked.length - 1) := by
  rw [← full, lastInUse_zeros marked free (Nat.le_refl _)]
  rcases List.eq_nil_or_concat' marked with rfl | ⟨front, last, rfl⟩
  · rfl
  · have entry : ((front ++ [last]) ++ List.replicate free (0 : UInt8)).getD front.length 0 =
        last := by
      simp
    rw [List.length_append, List.length_singleton, lastInUse, entry,
      if_pos (inUse last (by simp)), if_neg (by simp), Nat.add_sub_cancel]

/-- The last entry in use holds the current flags. -/
theorem current_of_layout {flags stack : List UInt8} (layout : StackLayout flags stack) :
    currentKeyEncodingFlags flags = top 0 stack := by
  obtain ⟨length, marked, free, rfl, inUse, rfl⟩ := layout
  rw [List.length_append, List.length_replicate] at length
  rw [currentKeyEncodingFlags, lastInUse_layout length inUse]
  rcases List.eq_nil_or_concat' marked with rfl | ⟨front, last, rfl⟩
  · rfl
  · simp [top]

theorem setAt_middle {α : Type} (front rest : List α) (old value : α) :
    setAt (front ++ old :: rest) front.length value = some (front ++ value :: rest) := by
  rw [setAt, if_pos (by simp)]
  simp

theorem modifyAt_middle {α : Type} (front rest : List α) (old : α) (change : α → α) :
    modifyAt (front ++ old :: rest) front.length change = some (front ++ change old :: rest) := by
  have here : (front ++ old :: rest)[front.length]? = some old := by simp
  rw [modifyAt, here]
  exact setAt_middle front rest old (change old)

/-- An array with one more marked entry. -/
theorem StackLayout.concat (front : List UInt8) {last : UInt8} (free : Nat)
    (full : front.length + 1 + free = keyEncodingFlagsSz)
    (inUse : ∀ entry ∈ front, entry &&& 0x80 ≠ 0) (lastInUse : last &&& 0x80 ≠ 0) :
    StackLayout (front ++ last :: List.replicate free 0)
      (front.map (· &&& 0x7f) ++ [last &&& 0x7f]) := by
  refine ⟨?_, front ++ [last], free, by simp, ?_, by simp⟩
  · simp only [List.length_append, List.length_cons, List.length_replicate]
    omega
  · simpa [or_imp, forall_and] using And.intro inUse lastInUse

theorem set_spec {flags stack : List UInt8} (layout : StackLayout flags stack) (val how : UInt32) :
    ∃ next, setKeyEncodingFlags flags val how = some next ∧
      StackLayout next (modifyTop 0 (applyHow how (val.toUInt8 &&& 0x7f)) stack) := by
  obtain ⟨length, marked, free, rfl, inUse, rfl⟩ := layout
  rw [List.length_append, List.length_replicate] at length
  rw [setKeyEncodingFlags, lastInUse_layout length inUse]
  rcases List.eq_nil_or_concat' marked with rfl | ⟨front, last, rfl⟩
  · cases free with
    | zero => exact absurd length (by decide)
    | succ free =>
      refine ⟨_, modifyAt_middle [] _ _ _, ?_⟩
      have next := StackLayout.concat [] free (by simp only [List.length_nil] at length ⊢; omega) (by simp)
        (mark_in_use (applyHow how (val.toUInt8 &&& 0x7f) 0))
      rwa [flags_mark, flags_applyHow] at next
  · rw [if_neg (by simp), Option.getD_some, List.length_append, List.length_singleton,
      Nat.add_sub_cancel, List.append_assoc, List.singleton_append, List.map_append,
      List.map_singleton, modifyTop, top_concat, List.dropLast_concat]
    refine ⟨_, modifyAt_middle front _ last _, ?_⟩
    have next := StackLayout.concat front free (by simpa using length)
      (fun entry member => inUse entry (by simp [member]))
      (mark_in_use (applyHow how (val.toUInt8 &&& 0x7f) last))
    rwa [flags_mark, flags_applyHow] at next

/-- The `memmove` of a full array. -/
theorem move_full {α : Type} {first last : α} {front : List α} {size : Nat}
    (full : front.length + 2 = size) :
    move (first :: front ++ [last]) 0 1 (size - 1) = some (front ++ [last] ++ [last]) := by
  have shifted : ((first :: front ++ [last]).drop 1).take (size - 1) = front ++ [last] := by
    rw [List.cons_append, List.drop_one, List.tail_cons]
    exact List.take_of_length_le (by simp; omega)
  have kept : (first :: front ++ [last]).drop (size - 1) = [last] := by
    obtain rfl : size = (first :: front).length + 1 := by simp; omega
    exact List.drop_left
  rw [move, if_pos (by simp; omega), shifted, copyIn, if_pos (by simp), List.take_zero,
    List.nil_append, Nat.zero_add, List.length_append, List.length_singleton,
    show front.length + 1 = size - 1 by omega, kept]

theorem push_mark_in_use (q : UInt8) : (0x80 ||| q) &&& 0x80 ≠ 0 := by
  rw [UInt8.or_comm]
  exact mark_in_use q

theorem flags_push_mark (q : UInt8) : (0x80 ||| (q &&& 0x7f)) &&& 0x7f = q &&& 0x7f := by
  rw [UInt8.or_comm, flags_mark, flags_flags]

/-- A push makes the base entry explicit, and shifts the array when it is full. -/
theorem push_spec {flags stack : List UInt8} (layout : StackLayout flags stack) (val : UInt32) :
    ∃ next, pushKeyEncodingFlags flags val = some next ∧
      StackLayout next
        (push keyEncodingFlagsSz (val.toUInt8 &&& 0x7f) (withBase 0 stack)) := by
  obtain ⟨length, marked, free, rfl, inUse, rfl⟩ := layout
  rw [List.length_append, List.length_replicate] at length
  rcases List.eq_nil_or_concat' marked with rfl | ⟨front, last, rfl⟩
  · -- the entry at index 0 is marked and reads 0
    obtain rfl : free = 8 := by simpa [keyEncodingFlagsSz] using length
    have next := StackLayout.concat [0x80] 6 rfl (by simp)
      (push_mark_in_use (val.toUInt8 &&& 0x7f))
    rw [flags_push_mark] at next
    exact ⟨_, rfl, next⟩
  have frontInUse : ∀ entry ∈ front, entry &&& 0x80 ≠ 0 :=
    fun entry member => inUse entry (by simp [member])
  have current : (lastInUse (front ++ [last] ++ List.replicate free 0) keyEncodingFlagsSz).getD 0 =
      front.length := by
    rw [lastInUse_layout length inUse, if_neg (by simp)]
    simp
  rw [List.length_append, List.length_singleton] at length
  rw [pushKeyEncodingFlags, current, withBase,
    if_neg (show ¬ List.map (· &&& 0x7f) (front ++ [last]) = [] by simp)]
  cases free with
  | zero =>
    rw [if_pos (show front.length = keyEncodingFlagsSz - 1 by omega),
      push_of_full (by simpa using length) (by simp)]
    cases front with
    | nil => exact absurd length (by decide)
    | cons first front =>
      have next := StackLayout.concat (front ++ [last]) 0
        (by simpa using length) (fun entry member => inUse entry (by
          rw [List.cons_append]
          exact List.mem_cons_of_mem _ member))
        (push_mark_in_use (val.toUInt8 &&& 0x7f))
      rw [flags_push_mark] at next
      have stored := setAt_middle (front ++ [last]) [] last
        (0x80 ||| (val.toUInt8 &&& 0x7f))
      rw [List.length_append, List.length_singleton] at stored
      rw [List.replicate_zero, List.append_nil, move_full (by simpa using length)]
      exact ⟨_, stored, next⟩
  | succ free =>
    have next := StackLayout.concat (front ++ [last ||| 0x80]) free
      (by simp; omega)
      (by simpa [or_imp, forall_and] using And.intro frontInUse (mark_in_use last))
      (push_mark_in_use (val.toUInt8 &&& 0x7f))
    rw [flags_push_mark, List.map_append, List.map_singleton, flags_mark] at next
    have marked := modifyAt_middle front (0 :: List.replicate free 0) last (· ||| 0x80)
    have stored := setAt_middle (front ++ [last ||| 0x80]) (List.replicate free 0) 0
      (0x80 ||| (val.toUInt8 &&& 0x7f))
    rw [List.length_append, List.length_singleton, List.append_assoc, List.singleton_append]
      at stored
    rw [if_neg (show ¬ front.length = keyEncodingFlagsSz - 1 by omega),
      push_of_room (by simp; omega), List.replicate_succ, List.append_assoc,
      List.singleton_append, marked, List.map_append, List.map_singleton]
    exact ⟨_, stored, by simpa using next⟩

/-! ### Popping -/

theorem popFrom_none (flags : List UInt8) (i : Nat) : popFrom flags i 0 = some flags := by
  cases i with
  | zero => rfl
  | succ i => exact if_pos rfl

theorem popFrom_zeros (marked : List UInt8) (free num : Nat) {i : Nat} (inside : i ≤ free) :
    popFrom (marked ++ List.replicate free 0) (marked.length + i) num =
      popFrom (marked ++ List.replicate free 0) marked.length num := by
  induction i with
  | zero => rfl
  | succ i ih =>
    rw [← Nat.add_assoc, popFrom]
    by_cases none : num = 0
    · rw [if_pos none, none, popFrom_none]
    · rw [if_neg none, getD_zeros marked (by omega), if_neg (by decide)]
      exact ih (by omega)

theorem popFrom_marked (marked : List UInt8) (inUse : ∀ entry ∈ marked, entry &&& 0x80 ≠ 0)
    (free num : Nat) :
    popFrom (marked ++ List.replicate free 0) marked.length num =
      some (marked.take (marked.length - num) ++
        List.replicate (free + min num marked.length) 0) := by
  induction marked using List.reverseRecOn generalizing free num with
  | nil => simp [popFrom]
  | append_singleton front last ih =>
    rw [List.length_append, List.length_singleton]
    cases num with
    | zero =>
      rw [popFrom_none, Nat.sub_zero, Nat.zero_min, Nat.add_zero,
        List.take_of_length_le (by simp)]
      rfl
    | succ num =>
      have entry : (front ++ [last] ++ List.replicate free (0 : UInt8)).getD front.length 0 =
          last := by
        simp
      have cleared := setAt_middle front (List.replicate free (0 : UInt8)) last 0
      rw [popFrom, if_neg (by omega), entry, if_pos (inUse last (by simp)), List.append_assoc,
        List.singleton_append, cleared, Option.bind_eq_bind, Option.bind_some,
        ← List.replicate_succ, Nat.add_sub_cancel,
        ih (fun entry member => inUse entry (by simp [member])), Nat.add_sub_add_right,
        List.take_append_of_le_length (Nat.sub_le ..), Nat.add_min_add_right, Nat.add_assoc,
        Nat.add_comm 1]

theorem pop_spec {flags stack : List UInt8} (layout : StackLayout flags stack) (num : UInt32) :
    ∃ next, popKeyEncodingFlags flags num = some next ∧
      StackLayout next (pop num.toNat stack) := by
  obtain ⟨length, marked, free, rfl, inUse, rfl⟩ := layout
  have sizes := length
  rw [List.length_append, List.length_replicate] at sizes
  refine ⟨marked.take (marked.length - num.toNat) ++
    List.replicate (free + min num.toNat marked.length) 0, ?_, ?_, _, _, rfl, ?_, ?_⟩
  · rw [popKeyEncodingFlags, ← sizes, popFrom_zeros marked free _ (Nat.le_refl _),
      popFrom_marked marked inUse]
  · simp only [List.length_append, List.length_take, List.length_replicate]
    omega
  · exact fun entry member => inUse entry (List.mem_of_mem_take member)
  · rw [pop, List.map_take, List.length_map]

/-! ### The two screens -/

@[simp] theorem array_store (self : KeyEncodingFlags) (flags : List UInt8) :
    (self.store flags).array self.keyEncodingFlags = flags := by
  unfold KeyEncodingFlags.store
  split <;> simp_all [KeyEncodingFlags.array]

theorem array_store_other (self : KeyEncodingFlags) (flags : List UInt8) {buffer : ScreenBuffer}
    (other : buffer ≠ self.keyEncodingFlags) :
    (self.store flags).array buffer = self.array buffer := by
  unfold KeyEncodingFlags.store
  cases buffer <;> split <;> simp_all [KeyEncodingFlags.array]

@[simp] theorem keyEncodingFlags_store (self : KeyEncodingFlags) (flags : List UInt8) :
    (self.store flags).keyEncodingFlags = self.keyEncodingFlags := by
  unfold KeyEncodingFlags.store
  split <;> rfl

/-- The entries in use, without their marks. -/
def entriesInUse (flags : List UInt8) : List UInt8 :=
  (flags.filter (· &&& 0x80 ≠ 0)).map (· &&& 0x7f)

theorem StackLayout.entriesInUse_eq {flags stack : List UInt8} (layout : StackLayout flags stack) :
    entriesInUse flags = stack := by
  obtain ⟨-, marked, free, rfl, inUse, rfl⟩ := layout
  have kept : marked.filter (· &&& 0x80 ≠ 0) = marked :=
    List.filter_eq_self.2 fun entry member => decide_eq_true (inUse entry member)
  have dropped : (List.replicate free (0 : UInt8)).filter (· &&& 0x80 ≠ 0) = [] :=
    List.filter_eq_nil_iff.2 fun entry member => by
      rw [(List.mem_replicate.1 member).2]
      decide
  rw [entriesInUse, List.filter_append, kept, dropped, List.append_nil]

/-- The reference: a bounded stack for each screen, and the screen that is shown. -/
structure FlagStacks where
  stack : ScreenBuffer → List UInt8 := fun _ => []
  shown : ScreenBuffer := .main

/-- Change the stack of the screen that is shown. -/
def FlagStacks.change (self : FlagStacks) (change : List UInt8 → List UInt8) : FlagStacks :=
  { self with stack := Function.update self.stack self.shown (change (self.stack self.shown)) }

def FlagStacks.step (self : FlagStacks) : FlagEvent → FlagStacks
  | .set val how => self.change (modifyTop 0 (applyHow how (val.toUInt8 &&& 0x7f)))
  | .push val => self.change (push 8 (val.toUInt8 &&& 0x7f))
  | .pop num => self.change (pop num.toNat)
  | .toggleScreenBuffer => { self with shown := self.shown.other }

/-- Each array holds the stack of its screen, up to the entry that the first push makes. -/
structure HoldsStacks (k : KeyEncodingFlags) (spec : FlagStacks) : Prop where
  shown : k.keyEncodingFlags = spec.shown
  layouts : ∀ buffer, ∃ stack, StackLayout (k.array buffer) stack ∧
    BasedStack keyEncodingFlagsSz 0 stack (spec.stack buffer)

theorem holdsStacks_start : HoldsStacks {} {} where
  shown := rfl
  layouts := by
    intro buffer
    cases buffer <;> exact ⟨[], .empty, Nat.zero_le _, .inl rfl⟩

/-- A store that follows a change of the stack of the screen that is shown. -/
theorem HoldsStacks.store {self : KeyEncodingFlags} {spec : FlagStacks} (h : HoldsStacks self spec)
    {flags stack : List UInt8} {change : List UInt8 → List UInt8} (layout : StackLayout flags stack)
    (based : BasedStack keyEncodingFlagsSz 0 stack (change (spec.stack spec.shown))) :
    HoldsStacks (self.store flags) (spec.change change) where
  shown := (keyEncodingFlags_store self flags).trans h.shown
  layouts := by
    intro buffer
    by_cases this : buffer = self.keyEncodingFlags
    · have changed : (spec.change change).stack buffer = change (spec.stack spec.shown) := by
        rw [this, h.shown]
        exact Function.update_self ..
      rw [changed, this, array_store]
      exact ⟨stack, layout, based⟩
    · have kept : (spec.change change).stack buffer = spec.stack buffer :=
        Function.update_of_ne (h.shown ▸ this) ..
      rw [kept, array_store_other self flags this]
      exact h.layouts buffer

theorem flagStep_spec {self : KeyEncodingFlags} {spec : FlagStacks} (h : HoldsStacks self spec)
    (event : FlagEvent) :
    ∃ next, flagStep self event = some next ∧ HoldsStacks next (spec.step event) := by
  obtain ⟨stack, layout, based⟩ := h.layouts self.keyEncodingFlags
  rw [h.shown] at based
  cases event with
  | set val how =>
    obtain ⟨flags, stored, next⟩ := set_spec layout val how
    exact ⟨self.store flags, by rw [flagStep, stored]; rfl,
      h.store next (based.modifyTop (by decide))⟩
  | push val =>
    obtain ⟨flags, stored, next⟩ := push_spec layout val
    exact ⟨self.store flags, by rw [flagStep, stored]; rfl, h.store next (based.push (by decide))⟩
  | pop num =>
    obtain ⟨flags, stored, next⟩ := pop_spec layout num
    exact ⟨self.store flags, by rw [flagStep, stored]; rfl, h.store next based.pop⟩
  | toggleScreenBuffer =>
    exact ⟨_, rfl, congrArg ScreenBuffer.other h.shown, h.layouts⟩

theorem HoldsStacks.current_eq {self : KeyEncodingFlags} {spec : FlagStacks} (h : HoldsStacks self spec)
    (buffer : ScreenBuffer) :
    currentKeyEncodingFlags (self.array buffer) = top 0 (spec.stack buffer) := by
  obtain ⟨stack, layout, based⟩ := h.layouts buffer
  rw [current_of_layout layout, based.top_eq]

/-- Every step leaves the array of the hidden screen as it is. -/
theorem flagStep_other {self next : KeyEncodingFlags} {event : FlagEvent} {buffer : ScreenBuffer}
    (other : buffer ≠ self.keyEncodingFlags) (stepEq : flagStep self event = some next) :
    next.array buffer = self.array buffer := by
  cases event with
  | set | push | pop =>
    obtain ⟨flags, -, stored⟩ := Option.bind_eq_some_iff.1 stepEq
    obtain rfl := Option.some.inj stored
    exact array_store_other self flags other
  | toggleScreenBuffer =>
    obtain rfl := Option.some.inj stepEq
    rfl

/-- After any sequence of set, push, pop and screen switches the current flags of each screen are
those of its reference stack; a further set changes the top entry only, a push and a pop restore the
current flags, a step leaves the array of the hidden screen as it is, and a switch leaves both. -/
theorem keyEncodingFlagStack (events : List FlagEvent) :
    ∃ self, run flagStep {} events = some self ∧
      (∀ buffer, currentKeyEncodingFlags (self.array buffer) =
        top 0 ((events.foldl FlagStacks.step {}).stack buffer)) ∧
      (∀ val how, ∃ next, flagStep self (.set val how) = some next ∧
        entriesInUse (next.array self.keyEncodingFlags) =
          modifyTop 0 (applyHow how (val.toUInt8 &&& 0x7f))
            (entriesInUse (self.array self.keyEncodingFlags))) ∧
      (∀ val, ∃ next, run flagStep self [.push val, .pop 1] = some next ∧
        currentKeyEncodingFlags (next.array self.keyEncodingFlags) =
          currentKeyEncodingFlags (self.array self.keyEncodingFlags)) ∧
      (∀ event next buffer, flagStep self event = some next →
        buffer ≠ self.keyEncodingFlags ∨ event = .toggleScreenBuffer →
        next.array buffer = self.array buffer) := by
  obtain ⟨self, runEq, h⟩ := run_simulates (fun _ => True) HoldsStacks FlagStacks.step
    (fun _ _ event here _ => flagStep_spec here event) holdsStacks_start events (fun _ _ => trivial)
  refine ⟨self, runEq, h.current_eq, ?_, ?_, ?_⟩
  · intro val how
    obtain ⟨stack, layout, -⟩ := h.layouts self.keyEncodingFlags
    obtain ⟨flags, stored, next⟩ := set_spec layout val how
    refine ⟨self.store flags, by rw [flagStep, stored]; rfl, ?_⟩
    rw [array_store, next.entriesInUse_eq, layout.entriesInUse_eq]
  · intro val
    obtain ⟨stack, layout, based⟩ := h.layouts self.keyEncodingFlags
    obtain ⟨next, runEq, there⟩ := run_simulates (fun _ => True) HoldsStacks FlagStacks.step
      (fun _ _ event here _ => flagStep_spec here event) h [.push val, .pop 1]
      (fun _ _ => trivial)
    refine ⟨next, runEq, ?_⟩
    have bounded : ((events.foldl FlagStacks.step {}).stack self.keyEncodingFlags).length ≤
        keyEncodingFlagsSz := based.length_le
    rw [there.current_eq, h.current_eq]
    rw [h.shown] at bounded ⊢
    have restored := top_pop_push 8 0 (val.toUInt8 &&& 0x7f) (by decide) bounded
    simpa [FlagStacks.step, FlagStacks.change] using restored
  · rintro event next buffer stepEq (other | rfl)
    · exact flagStep_other other stepEq
    · obtain rfl := Option.some.inj stepEq
      rfl

end Smelly
