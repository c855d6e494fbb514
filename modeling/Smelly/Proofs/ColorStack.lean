/-
Module: Smelly.Proofs.ColorStack
Purpose: The saved colours of a profile are a stack of ten entries that drops its oldest one, and a
  pop gives back what the push before it saved.
Trusted boundary: none
-/
import Smelly.Core.Charsets
import Smelly.Core.ColorProfile
import Smelly.Lib.BoundedStack
import Smelly.Lib.Run

namespace Smelly

open Checked MemoryBlock BoundedStack Run

/-! ### The stack on its own -/

/-- `arraysz` of the colour stack: no entry has a higher index. -/
def colorStackCapacity : Nat := 10

/-- The stack lies in its array, and the array does not outgrow the capacity. -/
structure StackOk (profile : ColorProfile) : Prop where
  within : profile.colorStackIdx ≤ profile.colorStack.length
  bounded : profile.colorStack.length ≤ colorStackCapacity

/-- What a profile is about: its colours, and the stack of saved colours with the slots above. -/
structure ColorModel where
  colors : Palette
  saved : SlotStack ColorStackEntry

def ColorProfile.model (self : ColorProfile) : ColorModel where
  colors := self.toPalette
  saved := .ofSlots self.colorStack self.colorStackIdx

/-- Index 0 stands for the top of the stack, the index `n + 1` for slot `n`. -/
def modelStep (m : ColorModel) : ColorEvent → ColorModel
  | .push idx =>
    if idx = 0 then { m with saved := m.saved.push colorStackCapacity m.colors.entry }
    else if idx.toNat ≤ colorStackCapacity then
      { m with saved := m.saved.store default (idx.toNat - 1) m.colors.entry }
    else m
  | .pop idx =>
    if idx = 0 then
      match m.saved.stack.getLast? with
      | some entry => { colors := m.colors.restore entry, saved := m.saved.pop default }
      | none => m
    else
      match m.saved.slots[idx.toNat - 1]? with
      | some entry => { m with colors := m.colors.restore entry }
      | none => m
  | .change what => { m with colors := m.colors.apply what }

/-! ### The code against the stack -/

theorem newCp_stackOk : StackOk newCp where
  within := Nat.zero_le _
  bounded := Nat.zero_le _

theorem ensureColorStack_eq (self : ColorProfile) (sz : Nat) :
    ensureColorStack self sz =
      { self with colorStack := SlotStack.grow default sz self.colorStack } := by
  unfold ensureColorStack
  by_cases short : self.colorStack.length < sz
  · rw [if_pos short, resize, List.take_of_length_le (Nat.le_of_lt short)]
    rfl
  · rw [if_neg short, SlotStack.grow_of_le (Nat.le_of_not_lt short)]

theorem pushOntoColorStackAt_eq {self : ColorProfile} {i : Nat}
    (inside : i < self.colorStack.length) :
    pushOntoColorStackAt self i =
      some { self with colorStack := self.colorStack.set i self.entry } := by
  rw [pushOntoColorStackAt, setAt_of_lt inside]
  rfl

/-- A push on the top. -/
theorem pushColors_top {self : ColorProfile} (ok : StackOk self) :
    ∃ after, pushColors self 0 = some (after, true) ∧ StackOk after ∧
      after.model = modelStep self.model (.push 0) := by
  obtain ⟨within, bounded⟩ := ok
  have grown := SlotStack.length_grow (default : ColorStackEntry)
    (min 10 (self.colorStackIdx + 1)) self.colorStack
  have step : modelStep self.model (.push 0) =
      { self.model with saved := self.model.saved.push colorStackCapacity self.entry } := rfl
  rw [step]
  have small : ¬ (10 : UInt32) < 0 := by decide
  have top : ¬ (0 : UInt32) ≠ 0 := fun other => other rfl
  rw [pushColors, if_neg small, if_neg top]
  dsimp only
  rw [ensureColorStack_eq]
  dsimp only
  rw [if_pos (Eq.refl (0 : UInt32))]
  unfold colorStackCapacity at bounded
  rcases Nat.lt_or_ge self.colorStackIdx 10 with room | full
  · have size : min 10 (self.colorStackIdx + 1) = self.colorStackIdx + 1 := Nat.min_eq_right room
    rw [size] at grown ⊢
    rw [if_neg (by omega), pushOntoColorStackAt_eq (by simp only; omega)]
    refine ⟨_, rfl, ⟨?_, ?_⟩, ?_⟩
    · simp only [List.length_set]
      omega
    · simp only [List.length_set, colorStackCapacity]
      omega
    · exact congrArg (ColorModel.mk self.toPalette) (SlotStack.push_of_room within room).symm
  · have all : self.colorStack.length = 10 := by omega
    have counted : self.colorStackIdx = 10 := by omega
    have same : SlotStack.grow default (min 10 (self.colorStackIdx + 1)) self.colorStack =
        self.colorStack := SlotStack.grow_of_le (by omega)
    rw [same, if_pos (by omega), all]
    obtain ⟨moved, move_eq, length, front⟩ := exists_move_front self.colorStack 1 9 (by omega)
    have rest : self.colorStack.tail.length = 9 := by rw [List.length_tail, all]
    rw [List.drop_one, List.take_of_length_le (Nat.le_of_eq rest)] at front
    rw [move_eq]
    dsimp only [Option.bind_eq_bind, Option.bind_some]
    rw [pushOntoColorStackAt_eq (by simp only; omega)]
    have stored : moved.set 9 self.entry = self.colorStack.tail ++ [self.entry] := by
      rw [← front, List.set_eq_take_cons_drop _ (by omega), List.drop_of_length_le (by omega)]
    refine ⟨_, rfl, ⟨?_, ?_⟩, ?_⟩
    · simp only [List.length_set]
      omega
    · simp only [List.length_set, colorStackCapacity]
      omega
    · have nonempty : self.colorStack ≠ [] := List.ne_nil_of_length_pos (by omega)
      have pushed : (SlotStack.ofSlots self.colorStack 10).push 10 self.entry =
          .ofSlots (moved.set 9 self.entry) 10 := by
        rw [stored, SlotStack.push_of_full all nonempty]
      rw [ColorProfile.model, ColorProfile.model, counted]
      exact congrArg (ColorModel.mk self.toPalette) pushed.symm

/-- A push to a slot by its index; a bad index is refused. -/
theorem pushColors_index {self : ColorProfile} (ok : StackOk self) {idx : UInt32}
    (index : idx ≠ 0) :
    ∃ after, pushColors self idx = some (after, decide (idx.toNat ≤ colorStackCapacity)) ∧
      StackOk after ∧ after.model = modelStep self.model (.push idx) := by
  obtain ⟨within, bounded⟩ := ok
  have positive : 0 < idx.toNat := by
    rw [Nat.pos_iff_ne_zero]
    exact fun zero => index (UInt32.toNat_inj.1 zero)
  unfold colorStackCapacity at *
  by_cases high : 10 < idx
  · have above : 10 < idx.toNat := high
    refine ⟨self, ?_, ⟨within, bounded⟩, ?_⟩
    · rw [pushColors, if_pos high, decide_eq_false (by omega)]
    · rw [modelStep, if_neg index, if_neg (by unfold colorStackCapacity; omega)]
  · have low : idx.toNat ≤ 10 := Nat.le_of_not_lt high
    have grown := SlotStack.length_grow (default : ColorStackEntry) idx.toNat self.colorStack
    have size : idx.toNat - 1 + 1 = idx.toNat := Nat.sub_add_cancel positive
    have step : modelStep self.model (.push idx) =
        { self.model with saved := self.model.saved.store default (idx.toNat - 1) self.entry } := by
      rw [modelStep, if_neg index, if_pos (show idx.toNat ≤ colorStackCapacity from low)]
      rfl
    rw [step, pushColors, if_neg high, if_pos index]
    dsimp only
    rw [Nat.min_eq_right low, ensureColorStack_eq]
    dsimp only
    rw [if_neg index, if_pos (by omega), pushOntoColorStackAt_eq (by simp only; omega),
      decide_eq_true low]
    refine ⟨_, rfl, ⟨?_, ?_⟩, ?_⟩
    · simp only [List.length_set]
      omega
    · simp only [List.length_set, colorStackCapacity]
      omega
    · have stored : self.model.saved.store default (idx.toNat - 1) self.entry =
          .ofSlots
            ((SlotStack.grow default idx.toNat self.colorStack).set (idx.toNat - 1) self.entry)
            self.colorStackIdx := by
        rw [ColorProfile.model, SlotStack.store_eq within, size]
      exact congrArg (ColorModel.mk self.toPalette) stored.symm

/-- A pop of the top. -/
theorem popColors_top {self : ColorProfile} (ok : StackOk self) :
    ∃ after, popColors self 0 = some (after, decide (self.colorStackIdx ≠ 0)) ∧ StackOk after ∧
      after.model = modelStep self.model (.pop 0) := by
  obtain ⟨within, bounded⟩ := ok
  cases count : self.colorStackIdx with
  | zero =>
    refine ⟨self, ?_, ⟨within, bounded⟩, ?_⟩
    · rw [popColors, if_pos rfl, if_pos count]
      rfl
    · rw [modelStep, if_pos rfl, ColorProfile.model, count]
      rfl
  | succ n =>
    have inside : n < self.colorStack.length := by omega
    have top : (self.colorStack.take (n + 1)).getLast? = some (self.colorStack[n]) := by
      rw [List.getLast?_take, if_neg (by omega), Nat.add_sub_cancel,
        List.getElem?_eq_getElem inside]
      rfl
    have step : modelStep self.model (.pop 0) =
        { colors := self.restore self.colorStack[n], saved := self.model.saved.pop default } := by
      rw [modelStep, if_pos rfl, ColorProfile.model, count]
      dsimp only [SlotStack.ofSlots]
      rw [top]
    rw [step, popColors, if_pos rfl, if_neg (by omega), count, copyFromColorStackAt]
    dsimp only
    rw [Nat.add_sub_cancel, List.getElem?_eq_getElem inside]
    dsimp only [Option.bind_eq_bind, Option.bind_some]
    rw [setAt_of_lt inside]
    refine ⟨_, rfl, ⟨?_, ?_⟩, ?_⟩
    · simp only [List.length_set]
      omega
    · simp only [List.length_set]
      exact bounded
    · have popped : self.model.saved.pop default =
          .ofSlots (self.colorStack.set n default) n := by
        rw [ColorProfile.model, count, SlotStack.pop_eq inside]
      exact congrArg (ColorModel.mk (self.restore self.colorStack[n])) popped.symm

/-- A pop from a slot by its index. -/
theorem popColors_index {self : ColorProfile} (ok : StackOk self) {idx : UInt32} (index : idx ≠ 0) :
    ∃ after, popColors self idx = some (after, decide (idx.toNat - 1 < self.colorStack.length)) ∧
      StackOk after ∧ after.model = modelStep self.model (.pop idx) := by
  have step : modelStep self.model (.pop idx) =
      match self.colorStack[idx.toNat - 1]? with
      | some entry => { self.model with colors := self.restore entry }
      | none => self.model := by
    rw [modelStep, if_neg index, ColorProfile.model, SlotStack.slots_ofSlots]
  rw [step, popColors, if_neg index]
  by_cases inside : idx.toNat - 1 < self.colorStack.length
  · rw [if_pos inside, copyFromColorStackAt, List.getElem?_eq_getElem inside, decide_eq_true inside]
    exact ⟨_, rfl, ⟨ok.within, ok.bounded⟩, rfl⟩
  · rw [if_neg inside, List.getElem?_eq_none (Nat.le_of_not_lt inside), decide_eq_false inside]
    exact ⟨self, rfl, ok, rfl⟩

/-! ### Runs -/

/-- One event in the code is one event of the stack. -/
theorem colorStep_follows {self : ColorProfile} (ok : StackOk self) (event : ColorEvent) :
    ∃ after, colorStep self event = some after ∧ StackOk after ∧
      after.model = modelStep self.model event := by
  cases event with
  | push idx =>
    by_cases index : idx = 0
    · subst index
      obtain ⟨after, pushed, rest⟩ := pushColors_top ok
      exact ⟨after, by rw [colorStep, pushed, Option.map_some], rest⟩
    · obtain ⟨after, pushed, rest⟩ := pushColors_index ok index
      exact ⟨after, by rw [colorStep, pushed, Option.map_some], rest⟩
  | pop idx =>
    by_cases index : idx = 0
    · subst index
      obtain ⟨after, popped, rest⟩ := popColors_top ok
      exact ⟨after, by rw [colorStep, popped, Option.map_some], rest⟩
    · obtain ⟨after, popped, rest⟩ := popColors_index ok index
      exact ⟨after, by rw [colorStep, popped, Option.map_some], rest⟩
  | change what => exact ⟨_, rfl, ⟨ok.within, ok.bounded⟩, rfl⟩

theorem colorRun_follows {self : ColorProfile} (ok : StackOk self) (events : List ColorEvent) :
    ∃ final, run colorStep self events = some final ∧ StackOk final ∧
      final.model = events.foldl modelStep self.model := by
  obtain ⟨final, runEq, finalOk, same⟩ := run_simulates (fun _ => True)
    (fun profile m => StackOk profile ∧ profile.model = m) modelStep
    (fun profile m event related _ => by
      obtain ⟨after, stepEq, afterOk, same⟩ := colorStep_follows related.1 event
      exact ⟨after, stepEq, afterOk, related.2 ▸ same⟩)
    ⟨ok, rfl⟩ events (fun _ _ => trivial)
  exact ⟨final, runEq, finalOk, same⟩

/-- The event changes the colours, and the stack not at all. -/
def ColorEvent.KeepsStack : ColorEvent → Prop
  | .push _ => False
  | .pop idx => idx ≠ 0
  | .change _ => True

instance : DecidablePred ColorEvent.KeepsStack
  | .push _ => inferInstanceAs (Decidable False)
  | .pop idx => inferInstanceAs (Decidable (idx ≠ 0))
  | .change _ => inferInstanceAs (Decidable True)

theorem modelStep_keepsStack {event : ColorEvent} (keeps : event.KeepsStack) (m : ColorModel) :
    (modelStep m event).saved = m.saved := by
  cases event with
  | push idx => exact absurd keeps id
  | pop idx =>
    rw [modelStep, if_neg keeps]
    cases m.saved.slots[idx.toNat - 1]? with
    | none => rfl
    | some entry => rfl
  | change what => rfl

theorem modelRun_keepsStack {events : List ColorEvent} (keeps : ∀ e ∈ events, e.KeepsStack)
    (m : ColorModel) : (events.foldl modelStep m).saved = m.saved := by
  induction events generalizing m with
  | nil => rfl
  | cons event rest ih =>
    rw [List.foldl_cons, ih (fun e mem => keeps e (List.mem_cons_of_mem _ mem)),
      modelStep_keepsStack (keeps event List.mem_cons_self)]

/-- A pop after a push, with changes of the colours in between. -/
theorem modelRun_push_pop {changes : List ColorEvent} (keeps : ∀ e ∈ changes, e.KeepsStack)
    {m : ColorModel} (bounded : m.saved.stack.length ≤ colorStackCapacity) :
    let after := (.push 0 :: (changes ++ [.pop 0])).foldl modelStep m
    after.colors.entry = m.colors.entry ∧
      after.saved.stack = if m.saved.stack.length < colorStackCapacity then m.saved.stack
        else m.saved.stack.tail := by
  have positive : 0 < colorStackCapacity := by decide
  obtain ⟨changed, changed_eq⟩ : ∃ changed, changed = changes.foldl modelStep
      { m with saved := m.saved.push colorStackCapacity m.colors.entry } := ⟨_, rfl⟩
  have saved : changed.saved = m.saved.push colorStackCapacity m.colors.entry := by
    rw [changed_eq, modelRun_keepsStack keeps]
  have top : changed.saved.stack.getLast? = some m.colors.entry := by
    rw [saved, SlotStack.push, getLast?_push positive]
  have popped : modelStep changed (.pop 0) =
      { colors := changed.colors.restore m.colors.entry, saved := changed.saved.pop default } := by
    rw [modelStep, if_pos rfl, top]
  have whole : (.push 0 :: (changes ++ [.pop 0])).foldl modelStep m =
      modelStep changed (.pop 0) := by
    rw [List.foldl_cons, List.foldl_append, changed_eq]
    rfl
  rw [whole, popped]
  refine ⟨rfl, ?_⟩
  rw [SlotStack.pop, saved, SlotStack.push, pop_push positive bounded]

/-- Whatever is done to a profile, the saved colours are those of a stack of ten entries, and a
push and a pop around changes of the colours leave the colours as they were. -/
theorem colorStack_bounded {profile : ColorProfile} (ok : StackOk profile)
    (events : List ColorEvent) :
    ∃ final, run colorStep profile events = some final ∧ StackOk final ∧
      final.model = events.foldl modelStep profile.model ∧
      ∀ changes : List ColorEvent, (∀ e ∈ changes, e.KeepsStack) →
        ∃ restored, run colorStep final (.push 0 :: (changes ++ [.pop 0])) = some restored ∧
          restored.overridden = final.overridden ∧ restored.colorTable = final.colorTable ∧
          restored.model.saved.stack =
            if final.colorStackIdx < colorStackCapacity then final.model.saved.stack
            else final.model.saved.stack.tail := by
  obtain ⟨final, runEq, finalOk, same⟩ := colorRun_follows ok events
  refine ⟨final, runEq, finalOk, same, fun changes keeps => ?_⟩
  obtain ⟨restored, restoredEq, -, restoredSame⟩ :=
    colorRun_follows finalOk (.push 0 :: (changes ++ [.pop 0]))
  have count : final.model.saved.stack.length = final.colorStackIdx :=
    SlotStack.length_stack_ofSlots finalOk.within
  have bounded : final.model.saved.stack.length ≤ colorStackCapacity := by
    rw [count]
    exact Nat.le_trans finalOk.within finalOk.bounded
  have colors := modelRun_push_pop keeps bounded
  rw [← restoredSame, count] at colors
  obtain ⟨entry, stack⟩ := colors
  exact ⟨restored, restoredEq, congrArg ColorStackEntry.dynamicColors entry,
    congrArg ColorStackEntry.colorTable entry, stack⟩

/-- A colour that is set between a push and a pop on a new profile. -/
theorem colorStack_bounded_new :
    ∃ restored, run colorStep newCp
        [.push 0, .change (.setColor 1 0xffffff), .pop 3, .pop 0] = some restored ∧
      restored.overridden = newCp.overridden ∧ restored.colorTable = newCp.colorTable := by
  obtain ⟨final, runEq, -, -, back⟩ := colorStack_bounded newCp_stackOk []
  obtain rfl : newCp = final := Option.some.inj runEq
  obtain ⟨restored, restoredEq, dynamic, table, -⟩ :=
    back [.change (.setColor 1 0xffffff), .pop 3] (forall_mem_of_all (by decide))
  exact ⟨restored, restoredEq, dynamic, table⟩

end Smelly
