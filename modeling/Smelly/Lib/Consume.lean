/-
Module: Smelly.Lib.Consume
Purpose: Loops that take one input after the other, can fail, and can be left early; what a
  split of the inputs does to them, and which steps they take.
Trusted boundary: none
-/
import Mathlib.Data.List.Basic

namespace Consume

variable {σ β ε : Type}

/-- Feed the inputs to `step` until it fails or asks to leave the loop; the result holds the
inputs that were not taken. -/
def consume (step : σ → β → Except ε (σ × Bool)) : σ → List β → Except ε (σ × List β)
  | state, [] => .ok (state, [])
  | state, input :: rest =>
    match step state input with
    | .error e => .error e
    | .ok (next, true) => .ok (next, rest)
    | .ok (next, false) => consume step next rest

@[simp] theorem consume_nil (step : σ → β → Except ε (σ × Bool)) (state : σ) :
    consume step state [] = .ok (state, []) := rfl

theorem consume_cons (step : σ → β → Except ε (σ × Bool)) (state : σ) (input : β)
    (rest : List β) :
    consume step state (input :: rest) =
      match step state input with
      | .error e => .error e
      | .ok (next, true) => .ok (next, rest)
      | .ok (next, false) => consume step next rest := rfl

/-- The step never asks to leave the loop. -/
def NeverStops (step : σ → β → Except ε (σ × Bool)) : Prop :=
  ∀ state input next, step state input ≠ .ok (next, true)

/-- Splitting the inputs of a loop that is not left early splits the loop. -/
theorem consume_append {step : σ → β → Except ε (σ × Bool)} (never : NeverStops step) (state : σ)
    (first second : List β) :
    consume step state (first ++ second) =
      consume step state first >>= fun result => consume step result.1 second := by
  induction first generalizing state with
  | nil => rfl
  | cons input first ih =>
    rw [List.cons_append, consume_cons, consume_cons]
    cases hstep : step state input with
    | error e => rfl
    | ok result =>
      obtain ⟨next, stop⟩ := result
      cases stop with
      | true => exact absurd hstep (never _ _ _)
      | false => exact ih next

/-- A loop that left inputs behind was left in a state that asked for it. -/
theorem consume_left {step : σ → β → Except ε (σ × Bool)} (asks : σ → Prop)
    (hasks : ∀ {state input next}, step state input = .ok (next, true) → asks next)
    {state final : σ} {inputs rest : List β} (h : consume step state inputs = .ok (final, rest)) :
    rest = [] ∨ asks final := by
  induction inputs generalizing state with
  | nil =>
    obtain ⟨-, rfl⟩ := Prod.mk.inj (Except.ok.inj h)
    exact Or.inl rfl
  | cons input inputs ih =>
    rw [consume_cons] at h
    split at h
    · cases h
    · rename_i next hstep
      obtain ⟨rfl, -⟩ := Prod.mk.inj (Except.ok.inj h)
      exact Or.inr (hasks hstep)
    · exact ih h

/-- The loop that is never left goes on where the loop with the same steps was left. -/
theorem consume_forget {step step' : σ → β → Except ε (σ × Bool)}
    (same : ∀ state input, step' state input =
      (step state input).map fun result => (result.1, false)) (state : σ) (inputs : List β) :
    consume step' state inputs =
      consume step state inputs >>= fun result => consume step' result.1 result.2 := by
  induction inputs generalizing state with
  | nil => rfl
  | cons input inputs ih =>
    rw [consume_cons, consume_cons, same]
    cases step state input with
    | error e => rfl
    | ok result =>
      obtain ⟨next, stop⟩ := result
      cases stop with
      | true => rfl
      | false => exact ih next

end Consume
