/-
Module: Smelly.Lib.Checked
Purpose: Arrays with checked access and counted loops over them.  A read or a write outside the
  array is `none`, so a program that returns `some` has touched only cells it owns.
Trusted boundary: none
-/
import Mathlib.Data.List.Basic
import Mathlib.Tactic.Common

namespace Checked

variable {α β σ τ ρ : Type}

/-- Write one cell. -/
def setAt (cells : List α) (index : Nat) (value : α) : Option (List α) :=
  if index < cells.length then some (cells.set index value) else none

/-- Read one cell and write its image back. -/
def modifyAt (cells : List α) (index : Nat) (change : α → α) : Option (List α) := do
  let value ← cells[index]?
  setAt cells index (change value)

/-- Copy one cell over another cell of the same array. -/
def moveAt (cells : List α) (target source : Nat) : Option (List α) := do
  let value ← cells[source]?
  setAt cells target value

/-- `for (i = lo; i < lo + n; i++) body(i)`. -/
def forUp (lo : Nat) : (n : Nat) → (Nat → σ → Option σ) → σ → Option σ
  | 0, _, state => some state
  | n + 1, body, state => body lo state >>= forUp (lo + 1) n body

/-- `for (i = lo + n - 1; i >= lo; i--) body(i)`. -/
def forDown (lo : Nat) : (n : Nat) → (Nat → σ → Option σ) → σ → Option σ
  | 0, _, state => some state
  | n + 1, body, state => body (lo + n) state >>= forDown lo n body

/-! ### Computations that succeed -/

/-- The computation succeeds, and its result has the property. -/
def Succeeds (Q : α → Prop) : Option α → Prop
  | none => False
  | some a => Q a

theorem Succeeds.exists {Q : α → Prop} {x : Option α} (h : Succeeds Q x) :
    ∃ a, x = some a ∧ Q a := by
  cases x with
  | none => exact h.elim
  | some a => exact ⟨a, rfl, h⟩

theorem Succeeds.mono {Q R : α → Prop} {x : Option α} (h : Succeeds Q x)
    (weaker : ∀ a, Q a → R a) : Succeeds R x := by
  cases x with
  | none => exact h
  | some a => exact weaker a h

theorem Succeeds.bind {Q : α → Prop} {R : β → Prop} {x : Option α} {next : α → Option β}
    (h : Succeeds Q x) (hnext : ∀ a, Q a → Succeeds R (next a)) : Succeeds R (x >>= next) := by
  cases x with
  | none => exact h
  | some a => exact hnext a h

theorem Succeeds.map {Q : α → Prop} {R : β → Prop} {x : Option α} {f : α → β}
    (h : Succeeds Q x) (hf : ∀ a, Q a → R (f a)) : Succeeds R (x.map f) := by
  cases x with
  | none => exact h
  | some a => exact hf a h

/-! ### Computations that may fail -/

/-! ### Single accesses -/

theorem setAt_of_lt {cells : List α} {index : Nat} (h : index < cells.length) (value : α) :
    setAt cells index value = some (cells.set index value) := by
  simp [setAt, h]

theorem modifyAt_of_lt {cells : List α} {index : Nat} (h : index < cells.length)
    (change : α → α) :
    modifyAt cells index change = some (cells.set index (change cells[index])) := by
  simp [modifyAt, setAt, h]

theorem moveAt_of_lt {cells : List α} {target source : Nat} (ht : target < cells.length)
    (hs : source < cells.length) :
    moveAt cells target source = some (cells.set target cells[source]) := by
  simp [moveAt, setAt, ht, hs]

/-! ### Loops -/

@[simp] theorem forUp_zero (lo : Nat) (body : Nat → σ → Option σ) (state : σ) :
    forUp lo 0 body state = some state := rfl

theorem forUp_succ (lo n : Nat) (body : Nat → σ → Option σ) (state : σ) :
    forUp lo (n + 1) body state = body lo state >>= forUp (lo + 1) n body := rfl

/-- The last round of a loop. -/
theorem forUp_snoc (lo n : Nat) (body : Nat → σ → Option σ) (state : σ) :
    forUp lo (n + 1) body state = forUp lo n body state >>= body (lo + n) := by
  induction n generalizing lo state with
  | zero =>
    rw [forUp_succ, forUp_zero]
    cases stepEq : body lo state with
    | none => exact stepEq.symm
    | some next => exact stepEq.symm
  | succ n ih =>
    rw [forUp_succ, @forUp_succ _ lo n body state]
    cases stepEq : body lo state with
    | none => rfl
    | some next =>
      have later := ih (lo + 1) next
      rw [show lo + 1 + n = lo + (n + 1) by omega] at later
      exact later

@[simp] theorem forDown_zero (lo : Nat) (body : Nat → σ → Option σ) (state : σ) :
    forDown lo 0 body state = some state := rfl

theorem forDown_succ (lo n : Nat) (body : Nat → σ → Option σ) (state : σ) :
    forDown lo (n + 1) body state = body (lo + n) state >>= forDown lo n body := rfl

/-- Invariant rule for an ascending loop: an invariant indexed by the loop counter that each
round carries one step further holds at the end, and the loop does not fail. -/
theorem forUp_invariant {body : Nat → σ → Option σ} (invariant : Nat → σ → Prop) {lo n : Nat}
    {state : σ} (start : invariant lo state)
    (round : ∀ i s, lo ≤ i → i < lo + n → invariant i s →
      ∃ s', body i s = some s' ∧ invariant (i + 1) s') :
    ∃ s', forUp lo n body state = some s' ∧ invariant (lo + n) s' := by
  induction n generalizing lo state with
  | zero => exact ⟨state, rfl, start⟩
  | succ n ih =>
    obtain ⟨next, stepEq, nextInv⟩ := round lo state (Nat.le_refl lo) (by omega) start
    obtain ⟨final, loopEq, finalInv⟩ := ih nextInv
      (fun i s hlo hhi hi => round i s (by omega) (by omega) hi)
    refine ⟨final, ?_, ?_⟩
    · rw [forUp_succ, stepEq]
      exact loopEq
    · rw [show lo + (n + 1) = lo + 1 + n by omega]
      exact finalInv

/-- Two bodies that do the same where the invariant holds make the same loop. -/
theorem forUp_congr {body body' : Nat → σ → Option σ} (invariant : σ → Prop) {lo n : Nat}
    (keeps : ∀ i s s', lo ≤ i → i < lo + n → invariant s → body i s = some s' → invariant s')
    (same : ∀ i s, lo ≤ i → i < lo + n → invariant s → body i s = body' i s)
    {state : σ} (start : invariant state) :
    forUp lo n body state = forUp lo n body' state := by
  induction n generalizing lo state with
  | zero => rfl
  | succ n ih =>
    rw [forUp_succ, forUp_succ, ← same lo state (Nat.le_refl lo) (by omega) start]
    cases stepEq : body lo state with
    | none => rfl
    | some next =>
      exact ih (fun i s s' first last => keeps i s s' (by omega) (by omega))
        (fun i s first last => same i s (by omega) (by omega))
        (keeps lo state next (Nat.le_refl lo) (by omega) start stepEq)

/-- What every round keeps holds when the loop comes to an end. -/
theorem forUp_keeps {body : Nat → σ → Option σ} (invariant : σ → Prop)
    (keeps : ∀ i s s', invariant s → body i s = some s' → invariant s') {lo n : Nat}
    {state final : σ} (start : invariant state) (h : forUp lo n body state = some final) :
    invariant final := by
  induction n generalizing lo state with
  | zero => exact Option.some.inj h ▸ start
  | succ n ih =>
    obtain ⟨next, stepEq, rest⟩ := Option.bind_eq_some_iff.1
      ((forUp_succ lo n body state).symm.trans h)
    exact ih (keeps lo state next start stepEq) rest

/-- The same for an invariant that depends on the loop counter. -/
theorem forUp_carries {body : Nat → σ → Option σ} (invariant : Nat → σ → Prop) {lo n : Nat}
    (carries : ∀ i s s', lo ≤ i → i < lo + n → invariant i s → body i s = some s' →
      invariant (i + 1) s')
    {state final : σ} (start : invariant lo state) (h : forUp lo n body state = some final) :
    invariant (lo + n) final := by
  induction n generalizing lo state with
  | zero => exact Option.some.inj h ▸ start
  | succ n ih =>
    obtain ⟨next, stepEq, rest⟩ := Option.bind_eq_some_iff.1
      ((forUp_succ lo n body state).symm.trans h)
    have done := ih (fun i s s' first last => carries i s s' (by omega) (by omega))
      (carries lo state next (Nat.le_refl lo) (by omega) start stepEq) rest
    rwa [show lo + (n + 1) = lo + 1 + n by omega]

/-- Simulation rule for an ascending loop: what every round preserves relates the ends. -/
theorem forUp_follows {τ : Type} {related : σ → τ → Prop} {body : Nat → σ → Option σ}
    {body' : Nat → τ → Option τ}
    (round : ∀ i {s s' t}, related s t → body i s = some s' →
      ∃ t', body' i t = some t' ∧ related s' t') {lo n : Nat}
    {state final : σ} {other : τ} (start : related state other)
    (h : forUp lo n body state = some final) :
    ∃ final', forUp lo n body' other = some final' ∧ related final final' := by
  induction n generalizing lo state other with
  | zero =>
    cases h
    exact ⟨other, rfl, start⟩
  | succ n ih =>
    obtain ⟨next, stepEq, rest⟩ := Option.bind_eq_some_iff.1
      ((forUp_succ lo n body state).symm.trans h)
    obtain ⟨next', stepEq', kept⟩ := round lo start stepEq
    obtain ⟨final', loopEq, atEnd⟩ := ih kept rest
    refine ⟨final', ?_, atEnd⟩
    rw [forUp_succ, stepEq']
    exact loopEq

/-- A loop that comes to an end has been through every round. -/
theorem forUp_round {body : Nat → σ → Option σ} (invariant : σ → Prop)
    (keeps : ∀ i s s', invariant s → body i s = some s' → invariant s') {lo n i : Nat}
    {state final : σ} (start : invariant state) (h : forUp lo n body state = some final)
    (first : lo ≤ i) (last : i < lo + n) :
    ∃ s s', invariant s ∧ body i s = some s' := by
  induction n generalizing lo state with
  | zero => omega
  | succ n ih =>
    obtain ⟨next, stepEq, rest⟩ := Option.bind_eq_some_iff.1
      ((forUp_succ lo n body state).symm.trans h)
    rcases Nat.eq_or_lt_of_le first with here | later
    · subst here
      exact ⟨state, next, start, stepEq⟩
    · exact ih (keeps lo state next start stepEq) rest later (by omega)

/-- A loop whose body acts on two components independently is two loops. -/
theorem forUp_pair {body : Nat → ρ → Option ρ} {first : Nat → σ → Option σ}
    {second : Nat → τ → Option τ} (join : σ → τ → ρ)
    (acts : ∀ i s t s' t', first i s = some s' → second i t = some t' →
      body i (join s t) = some (join s' t'))
    {lo n : Nat} {s s' : σ} {t t' : τ} (left : forUp lo n first s = some s')
    (right : forUp lo n second t = some t') :
    forUp lo n body (join s t) = some (join s' t') := by
  induction n generalizing lo s t with
  | zero =>
    simp only [forUp_zero, Option.some.injEq] at left right ⊢
    rw [left, right]
  | succ n ih =>
    rw [forUp_succ] at left right ⊢
    obtain ⟨s1, hs1, hs⟩ := Option.bind_eq_some_iff.1 left
    obtain ⟨t1, ht1, ht⟩ := Option.bind_eq_some_iff.1 right
    exact Option.bind_eq_some_iff.2 ⟨_, acts lo s t s1 t1 hs1 ht1, ih hs ht⟩

/-- The descending form of `forUp_pair`. -/
theorem forDown_pair {body : Nat → ρ → Option ρ} {first : Nat → σ → Option σ}
    {second : Nat → τ → Option τ} (join : σ → τ → ρ)
    (acts : ∀ i s t s' t', first i s = some s' → second i t = some t' →
      body i (join s t) = some (join s' t'))
    {lo n : Nat} {s s' : σ} {t t' : τ} (left : forDown lo n first s = some s')
    (right : forDown lo n second t = some t') :
    forDown lo n body (join s t) = some (join s' t') := by
  induction n generalizing s t with
  | zero =>
    simp only [forDown_zero, Option.some.injEq] at left right ⊢
    rw [left, right]
  | succ n ih =>
    rw [forDown_succ] at left right ⊢
    obtain ⟨s1, hs1, hs⟩ := Option.bind_eq_some_iff.1 left
    obtain ⟨t1, ht1, ht⟩ := Option.bind_eq_some_iff.1 right
    exact Option.bind_eq_some_iff.2 ⟨_, acts (lo + n) s t s1 t1 hs1 ht1, ih hs ht⟩

/-- A loop whose body acts on one component is a loop on that component. -/
theorem forUp_component (body : Nat → ρ → Option ρ) (part : Nat → σ → Option σ) (join : σ → ρ)
    (acts : ∀ i s, body i (join s) = (part i s).map join) (lo n : Nat) (s : σ) :
    forUp lo n body (join s) = (forUp lo n part s).map join := by
  induction n generalizing lo s with
  | zero => rfl
  | succ n ih =>
    rw [forUp_succ, forUp_succ, acts]
    cases part lo s with
    | none => rfl
    | some next => exact ih (lo + 1) next

/-! ### Moving a block of cells -/

/-- `for (i = lo; i < lo + n; i++) cells[i] = cells[i + k]` moves the block that starts at
`lo + k` down to `lo`. -/
theorem forUp_moveAt (cells : List α) (lo n k : Nat) (h : lo + n + k ≤ cells.length) :
    forUp lo n (fun i s => moveAt s i (i + k)) cells =
      some (cells.take lo ++ (cells.drop (lo + k)).take n ++ cells.drop (lo + n)) := by
  induction n generalizing lo cells with
  | zero => simp
  | succ n ih =>
    rw [forUp_succ, moveAt_of_lt (by omega) (by omega), Option.bind_eq_bind, Option.bind_some,
      ih _ _ (by simp only [List.length_set]; omega)]
    congr 1
    apply List.ext_getElem?
    intro j
    simp only [List.append_assoc, List.getElem?_append, List.length_take, List.length_drop,
      List.length_set, List.getElem?_take, List.getElem?_drop, List.getElem?_set]
    grind

/-- `for (i = lo + n - 1; i >= lo; i--) cells[i] = cells[i - k]` moves the block that starts at
`lo - k` up to `lo`. -/
theorem forDown_moveAt (cells : List α) (lo n k : Nat) (hk : k ≤ lo) (h : lo + n ≤ cells.length) :
    forDown lo n (fun i s => moveAt s i (i - k)) cells =
      some (cells.take lo ++ (cells.drop (lo - k)).take n ++ cells.drop (lo + n)) := by
  induction n generalizing cells with
  | zero => simp
  | succ n ih =>
    rw [forDown_succ, moveAt_of_lt (by omega) (by omega), Option.bind_eq_bind, Option.bind_some,
      ih _ (by simp only [List.length_set]; omega)]
    congr 1
    apply List.ext_getElem?
    intro j
    simp only [List.append_assoc, List.getElem?_append, List.length_take, List.length_drop,
      List.length_set, List.getElem?_take, List.getElem?_drop, List.getElem?_set]
    grind

/-- `for (i = lo; i < lo + n; i++) change(s[i])` changes a block. -/
theorem forUp_modifyAt (cells : List α) (lo n : Nat) (change : α → α)
    (h : lo + n ≤ cells.length) :
    forUp lo n (fun i s => modifyAt s i change) cells =
      some (cells.take lo ++ ((cells.drop lo).take n).map change ++ cells.drop (lo + n)) := by
  induction n generalizing lo cells with
  | zero => simp
  | succ n ih =>
    rw [forUp_succ, modifyAt_of_lt (by omega), Option.bind_eq_bind, Option.bind_some,
      ih _ _ (by simp only [List.length_set]; omega)]
    congr 1
    apply List.ext_getElem?
    intro j
    simp only [List.append_assoc, List.getElem?_append, List.length_take, List.length_drop,
      List.length_set, List.length_map, List.getElem?_map, List.getElem?_take,
      List.getElem?_drop, List.getElem?_set]
    grind

/-- `for (i = lo; i < lo + n; i++) target[q + i] = source[p + i]` copies a block between two
arrays. -/
theorem forUp_copy (source : List α) (p q : Nat) (body : Nat → List α → Option (List α))
    (hbody : ∀ i s, body i s = source[p + i]? >>= fun value => setAt s (q + i) value)
    (lo n : Nat) (target : List α) (hs : p + lo + n ≤ source.length)
    (ht : q + lo + n ≤ target.length) :
    forUp lo n body target =
      some (target.take (q + lo) ++ (source.drop (p + lo)).take n ++
        target.drop (q + lo + n)) := by
  induction n generalizing lo target with
  | zero => simp
  | succ n ih =>
    rw [forUp_succ, hbody, List.getElem?_eq_getElem (by omega), Option.bind_eq_bind,
      Option.bind_eq_bind, Option.bind_some, setAt_of_lt (by omega), Option.bind_some,
      ih (lo + 1) _ (by omega) (by simp only [List.length_set]; omega)]
    congr 1
    apply List.ext_getElem?
    intro j
    simp only [List.append_assoc, List.getElem?_append, List.length_take, List.length_drop,
      List.length_set, List.getElem?_take, List.getElem?_drop, List.getElem?_set]
    grind

end Checked
