/-
Module: Smelly.Lib.BoundedStack
Purpose: A stack of bounded capacity that drops its oldest entry on overflow and has a default top
  when it is empty, an implementation of it that makes the default entry explicit before the first
  push, and a stack in an array whose slots can also be set by their index.
Trusted boundary: none
-/
import Mathlib.Data.List.Basic
import Mathlib.Data.List.Induction

namespace BoundedStack

variable {α β : Type}

/-- Stacks are listed from the oldest entry to the top. -/
def push (capacity : Nat) (entry : α) (stack : List α) : List α :=
  (stack ++ [entry]).drop (stack.length + 1 - capacity)

def pop (count : Nat) (stack : List α) : List α := stack.take (stack.length - count)

def top (default : α) (stack : List α) : α := stack.getLastD default

/-- Change the top entry; the default is changed into an entry of its own. -/
def modifyTop (default : α) (change : α → α) (stack : List α) : List α :=
  stack.dropLast ++ [change (top default stack)]

variable {capacity count : Nat} {default entry : α} {stack : List α} {change : α → α}

@[simp] theorem top_concat (default entry : α) (stack : List α) :
    top default (stack ++ [entry]) = entry := by
  simp [top]

@[simp] theorem top_nil (default : α) : top default [] = default := rfl

theorem push_of_room (room : stack.length < capacity) :
    push capacity entry stack = stack ++ [entry] := by
  rw [push, Nat.sub_eq_zero_of_le room, List.drop_zero]

theorem push_of_full (full : stack.length = capacity) (nonempty : stack ≠ []) :
    push capacity entry stack = stack.tail ++ [entry] := by
  rw [push, full, Nat.add_sub_cancel_left, List.drop_append_of_le_length, List.drop_one]
  exact List.length_pos_iff.2 nonempty

theorem getLast?_push (positive : 0 < capacity) :
    (push capacity entry stack).getLast? = some entry := by
  rw [push, List.getLast?_drop, if_neg, List.getLast?_concat]
  rw [List.length_append, List.length_singleton]
  omega

/-- A pop undoes the push before it, but for the entry that has been dropped. -/
theorem pop_push (positive : 0 < capacity) (bounded : stack.length ≤ capacity) :
    pop 1 (push capacity entry stack) =
      if stack.length < capacity then stack else stack.tail := by
  by_cases room : stack.length < capacity
  · rw [if_pos room, push_of_room room, pop, List.length_append, List.length_singleton,
      Nat.add_sub_cancel, List.take_left]
  · have full : stack.length = capacity := Nat.le_antisymm bounded (Nat.le_of_not_lt room)
    have nonempty : stack ≠ [] := List.ne_nil_of_length_pos (by omega)
    rw [if_neg room, push_of_full full nonempty, pop, List.length_append, List.length_singleton,
      Nat.add_sub_cancel, List.take_left]

theorem length_push_le (bounded : stack.length ≤ capacity) :
    (push capacity entry stack).length ≤ capacity := by
  simp only [push, List.length_drop, List.length_append, List.length_singleton]
  omega

@[simp] theorem length_modifyTop (nonempty : stack ≠ []) :
    (modifyTop default change stack).length = stack.length := by
  have positive := List.length_pos_iff.2 nonempty
  simp only [modifyTop, List.length_append, List.length_dropLast, List.length_singleton]
  omega

/-- The top after a push and a pop is the old one, unless there is room for one entry only. -/
theorem top_pop_push (capacity : Nat) (default entry : α) (roomy : 2 ≤ capacity)
    (bounded : stack.length ≤ capacity) :
    top default (pop 1 (push capacity entry stack)) = top default stack := by
  rcases List.eq_nil_or_concat' stack with rfl | ⟨front, last, rfl⟩
  · rw [push_of_room (by simp; omega)]
    rfl
  · rcases Nat.lt_or_eq_of_le bounded with room | full
    · rw [push_of_room room, pop, List.length_append, List.length_singleton, Nat.add_sub_cancel,
        List.take_left]
    · rw [push_of_full full (by simp)]
      cases front with
      | nil =>
        simp only [List.nil_append, List.length_singleton] at full
        omega
      | cons first front =>
        rw [List.cons_append, List.tail_cons, pop, List.length_append, List.length_singleton,
          Nat.add_sub_cancel, List.take_left, top_concat, ← List.cons_append, top_concat]

/-! ### A base entry made on demand -/

/-- `implementation` is `stack`, or `stack` on an entry that holds the default. -/
def BasedStack (capacity : Nat) (default : α) (implementation stack : List α) : Prop :=
  implementation.length ≤ capacity ∧
    (implementation = stack ∨ implementation = default :: stack)

/-- What is pushed on: an empty stack gets its base entry first. -/
def withBase (default : α) (implementation : List α) : List α :=
  if implementation = [] then [default] else implementation

variable {implementation : List α}

theorem BasedStack.length_le (h : BasedStack capacity default implementation stack) :
    stack.length ≤ capacity := by
  obtain ⟨bounded, rfl | rfl⟩ := h
  · exact bounded
  · exact Nat.le_of_succ_le bounded

theorem BasedStack.top_eq (h : BasedStack capacity default implementation stack) :
    top default implementation = top default stack := by
  obtain ⟨-, rfl | rfl⟩ := h
  · rfl
  · cases stack with
    | nil => rfl
    | cons first rest => simp [top]

theorem BasedStack.push (roomy : 2 ≤ capacity)
    (h : BasedStack capacity default implementation stack) :
    BasedStack capacity default (push capacity entry (withBase default implementation))
      (push capacity entry stack) := by
  obtain ⟨bounded, rfl | rfl⟩ := h
  · cases implementation with
    | nil =>
      rw [withBase, if_pos rfl, push_of_room (by simp; omega), push_of_room (by simp; omega)]
      exact ⟨roomy, .inr rfl⟩
    | cons first rest =>
      rw [withBase, if_neg (by simp)]
      exact ⟨length_push_le bounded, .inl rfl⟩
  · have room : stack.length < capacity := bounded
    rw [withBase, if_neg (by simp), push_of_room room]
    rcases Nat.lt_or_eq_of_le bounded with roomAbove | full
    · rw [push_of_room roomAbove]
      refine ⟨?_, .inr rfl⟩
      simp only [List.length_cons, List.length_append, List.length_nil] at roomAbove ⊢
      omega
    · rw [push_of_full full (by simp), List.tail_cons]
      refine ⟨?_, .inl rfl⟩
      simp only [List.length_cons, List.length_append, List.length_nil] at full ⊢
      omega

theorem BasedStack.modifyTop (positive : 0 < capacity)
    (h : BasedStack capacity default implementation stack) :
    BasedStack capacity default (modifyTop default change implementation)
      (modifyTop default change stack) := by
  have sameTop := h.top_eq
  obtain ⟨bounded, rfl | rfl⟩ := h
  · refine ⟨?_, .inl rfl⟩
    simp only [BoundedStack.modifyTop, List.length_append, List.length_dropLast,
      List.length_singleton]
    omega
  · refine ⟨by rwa [length_modifyTop (by simp)], ?_⟩
    rw [BoundedStack.modifyTop, BoundedStack.modifyTop, sameTop]
    cases stack with
    | nil => exact .inl rfl
    | cons first rest => exact .inr rfl

theorem BasedStack.pop (h : BasedStack capacity default implementation stack) :
    BasedStack capacity default (pop count implementation) (pop count stack) := by
  obtain ⟨bounded, rfl | rfl⟩ := h
  · exact ⟨by rw [BoundedStack.pop, List.length_take]; omega, .inl rfl⟩
  · refine ⟨by rw [BoundedStack.pop, List.length_take]; omega, ?_⟩
    simp only [BoundedStack.pop, List.length_cons]
    by_cases kept : count ≤ stack.length
    · rw [Nat.succ_sub kept, List.take_succ_cons]
      exact .inr rfl
    · rw [Nat.sub_eq_zero_of_le (by omega), Nat.sub_eq_zero_of_le (by omega)]
      exact .inl rfl

/-! ### A stack in an array of slots -/

/-- The stack and the slots above its top, from the top on. -/
structure SlotStack (α : Type) where
  stack : List α
  above : List α := []

namespace SlotStack

/-- The slots of the array whose first `count` are the stack. -/
def ofSlots (slots : List α) (count : Nat) : SlotStack α where
  stack := slots.take count
  above := slots.drop count

def slots (self : SlotStack α) : List α := self.stack ++ self.above

/-- The slot above the top becomes the top; in a full stack all slots move down by one. -/
def push (capacity : Nat) (entry : α) (self : SlotStack α) : SlotStack α where
  stack := BoundedStack.push capacity entry self.stack
  above := self.above.tail

/-- The slot of the top is left `blank`. -/
def pop (blank : α) (self : SlotStack α) : SlotStack α where
  stack := BoundedStack.pop 1 self.stack
  above := blank :: self.above

/-- At least `size` slots: new ones are `blank`. -/
def grow (blank : α) (size : Nat) (slots : List α) : List α :=
  slots ++ List.replicate (size - slots.length) blank

/-- Set a slot by its index, whether it is in the stack or not. -/
def store (blank : α) (slot : Nat) (entry : α) (self : SlotStack α) : SlotStack α :=
  ofSlots ((grow blank (slot + 1) self.slots).set slot entry) self.stack.length

@[simp] theorem slots_ofSlots (slots : List α) (count : Nat) :
    (ofSlots slots count).slots = slots := List.take_append_drop count slots

theorem length_stack_ofSlots {slots : List α} {count : Nat} (within : count ≤ slots.length) :
    (ofSlots slots count).stack.length = count := List.length_take_of_le within

theorem grow_of_le {blank : α} {size : Nat} {slots : List α} (enough : size ≤ slots.length) :
    grow blank size slots = slots := by
  rw [grow, Nat.sub_eq_zero_of_le enough, List.replicate_zero, List.append_nil]

theorem length_grow (blank : α) (size : Nat) (slots : List α) :
    (grow blank size slots).length = max size slots.length := by
  rw [grow, List.length_append, List.length_replicate]
  omega

/-- A push with room is the slot above the top set, and counted. -/
theorem push_of_room {slots : List α} {count : Nat} {blank : α} (within : count ≤ slots.length)
    (room : count < capacity) :
    (ofSlots slots count).push capacity entry =
      ofSlots ((grow blank (count + 1) slots).set count entry) (count + 1) := by
  have counted : (slots.take count).length = count := List.length_take_of_le within
  have same : grow blank (count + 1) slots =
      slots.take count ++ (slots.drop count).headD blank :: (slots.drop count).tail := by
    rcases Nat.lt_or_ge count slots.length with inside | outside
    · rw [grow_of_le inside, List.drop_eq_getElem_cons inside, List.headD_cons, List.tail_cons,
        ← List.drop_eq_getElem_cons inside, List.take_append_drop]
    · have all : count = slots.length := Nat.le_antisymm within outside
      rw [grow, all, Nat.add_sub_cancel_left, List.take_length, List.drop_length]
      rfl
  have stored : (grow blank (count + 1) slots).set count entry =
      slots.take count ++ entry :: (slots.drop count).tail := by
    rw [same, List.set_append_right _ _ (Nat.le_of_eq counted), counted, Nat.sub_self]
    rfl
  have stackEq : (slots.take count ++ [entry]).length = count + 1 := by
    rw [List.length_append, counted, List.length_singleton]
  rw [stored, List.append_cons, push, ofSlots, ofSlots,
    BoundedStack.push_of_room (by rwa [counted]), ← stackEq, List.take_left, List.drop_left]

/-- A push on a full array moves the slots down. -/
theorem push_of_full {slots : List α} (full : slots.length = capacity) (nonempty : slots ≠ []) :
    (ofSlots slots capacity).push capacity entry = ofSlots (slots.tail ++ [entry]) capacity := by
  have counted : (slots.tail ++ [entry]).length = capacity := by
    have positive := List.length_pos_iff.2 nonempty
    simp only [List.length_append, List.length_tail, List.length_singleton]
    omega
  rw [push, ofSlots, ofSlots, ← full, List.take_length, List.drop_length, full,
    BoundedStack.push_of_full full nonempty, ← counted, List.take_length, List.drop_length]
  rfl

/-- A pop is one entry less, and its slot blank. -/
theorem pop_eq {slots : List α} {count : Nat} {blank : α} (within : count < slots.length) :
    (ofSlots slots (count + 1)).pop blank = ofSlots (slots.set count blank) count := by
  have counted : (slots.take (count + 1)).length = count + 1 := List.length_take_of_le within
  rw [pop, ofSlots, ofSlots, BoundedStack.pop, counted, Nat.add_sub_cancel, List.take_take,
    Nat.min_eq_left (Nat.le_succ count), List.take_set_of_le (Nat.le_refl count),
    List.drop_set, if_neg (Nat.lt_irrefl count), Nat.sub_self, List.drop_eq_getElem_cons within]
  rfl

/-- A slot set by its index is set in the array. -/
theorem store_eq {slots : List α} {count slot : Nat} {blank : α} (within : count ≤ slots.length) :
    (ofSlots slots count).store blank slot entry =
      ofSlots ((grow blank (slot + 1) slots).set slot entry) count := by
  rw [store, slots_ofSlots, length_stack_ofSlots within]

end SlotStack

end BoundedStack
