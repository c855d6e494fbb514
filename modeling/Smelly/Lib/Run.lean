/-
Module: Smelly.Lib.Run
Purpose: Runs of a partial step function over a list of inputs, with the rules that lift a step
  lemma to a run: invariants, simulation of a total reference step, and runs under a condition
  on each step.
Trusted boundary: none
-/
import Mathlib.Data.List.Basic
import Mathlib.Data.List.Induction

namespace Run

variable {σ ι τ : Type}

/-- Feed the inputs one after the other; `none` as soon as one step fails. -/
def run (step : σ → ι → Option σ) : σ → List ι → Option σ
  | state, [] => some state
  | state, input :: rest => step state input >>= fun next => run step next rest

@[simp] theorem run_nil (step : σ → ι → Option σ) (state : σ) : run step state [] = some state :=
  rfl

theorem run_cons (step : σ → ι → Option σ) (state : σ) (input : ι) (rest : List ι) :
    run step state (input :: rest) = step state input >>= fun next => run step next rest := rfl

theorem run_append (step : σ → ι → Option σ) (state : σ) (first second : List ι) :
    run step state (first ++ second) = run step state first >>= fun next => run step next second := by
  induction first generalizing state with
  | nil => rfl
  | cons input rest ih =>
    rw [List.cons_append, run_cons, run_cons]
    cases step state input with
    | none => rfl
    | some next => exact ih next

/-- A step that succeeds on every allowed input and follows a total reference step does so over
every run of allowed inputs. -/
theorem run_simulates {step : σ → ι → Option σ} (allowed : ι → Prop) (rel : σ → τ → Prop)
    (reference : τ → ι → τ)
    (follows : ∀ s t input, rel s t → allowed input →
      ∃ next, step s input = some next ∧ rel next (reference t input))
    {state : σ} {spec : τ} (start : rel state spec) (inputs : List ι)
    (all : ∀ input ∈ inputs, allowed input) :
    ∃ final, run step state inputs = some final ∧ rel final (inputs.foldl reference spec) := by
  induction inputs generalizing state spec with
  | nil => exact ⟨state, rfl, start⟩
  | cons input rest ih =>
    obtain ⟨next, stepEq, nextRel⟩ := follows state spec input start (all input (by simp))
    obtain ⟨final, runEq, finalRel⟩ := ih nextRel (fun i hi => all i (List.mem_cons_of_mem _ hi))
    refine ⟨final, ?_, finalRel⟩
    rw [run_cons, stepEq]
    exact runEq

/-- A step that succeeds on every allowed input, from the states of an invariant and into them, does
so over every run of allowed inputs. -/
theorem run_total {step : σ → ι → Option σ} (allowed : ι → Prop) (invariant : σ → Prop)
    (succeeds : ∀ s input, invariant s → allowed input →
      ∃ next, step s input = some next ∧ invariant next)
    {state : σ} (start : invariant state) (inputs : List ι)
    (all : ∀ input ∈ inputs, allowed input) :
    ∃ final, run step state inputs = some final ∧ invariant final :=
  @run_simulates σ ι Unit step allowed (fun s _ => invariant s) (fun spec _ => spec)
    (fun s _ input => succeeds s input) state () start inputs all

/-! ### The states and the steps of a run -/

/-- `state` is reached by some prefix of the inputs. -/
def Visits (step : σ → ι → Option σ) (init : σ) (inputs : List ι) (state : σ) : Prop :=
  ∃ before, before <+: inputs ∧ run step init before = some state

/-- Some prefix of the inputs reaches `state`, and the step on the next input succeeds there. -/
def Takes (step : σ → ι → Option σ) (init : σ) (inputs : List ι) (state : σ) (input : ι) : Prop :=
  ∃ before next, before ++ [input] <+: inputs ∧ run step init before = some state ∧
    step state input = some next

theorem not_takes_nil (step : σ → ι → Option σ) (init state : σ) (input : ι) :
    ¬ Takes step init [] state input := by
  rintro ⟨before, next, isPrefix, -⟩
  simp at isPrefix

/-- A step of a run is its first step, or a step of the rest. -/
theorem takes_cons {step : σ → ι → Option σ} {init state : σ} {first input : ι} {rest : List ι}
    (h : Takes step init (first :: rest) state input) :
    (state = init ∧ input = first) ∨
      ∃ next, step init first = some next ∧ Takes step next rest state input := by
  obtain ⟨before, next, isPrefix, runEq, stepEq⟩ := h
  cases before with
  | nil => exact .inl ⟨(Option.some.inj runEq).symm, (List.cons_prefix_cons.1 isPrefix).1⟩
  | cons head tail =>
    obtain ⟨rfl, tailPrefix⟩ := List.cons_prefix_cons.1 isPrefix
    obtain ⟨middle, middleEq, runEq⟩ := Option.bind_eq_some_iff.1 runEq
    exact .inr ⟨middle, middleEq, tail, next, tailPrefix, runEq, stepEq⟩

theorem run_snoc {step : σ → ι → Option σ} {init final : σ} {before : List ι} {input : ι}
    (h : run step init (before ++ [input]) = some final) :
    ∃ state, run step init before = some state ∧ step state input = some final := by
  rw [run_append] at h
  obtain ⟨state, runEq, rest⟩ := Option.bind_eq_some_iff.1 h
  obtain ⟨next, stepEq, last⟩ := Option.bind_eq_some_iff.1 rest
  exact ⟨state, runEq, stepEq.trans last⟩

/-- What every step preserves holds in every state of a run. -/
theorem run_invariant {step : σ → ι → Option σ} (invariant : σ → Prop)
    (preserves : ∀ s input next, invariant s → step s input = some next → invariant next)
    {init : σ} (start : invariant init) {inputs : List ι} {state : σ}
    (h : run step init inputs = some state) : invariant state := by
  induction inputs using List.reverseRecOn generalizing state with
  | nil => exact Option.some.inj h ▸ start
  | append_singleton before input ih =>
    obtain ⟨middle, runEq, stepEq⟩ := run_snoc h
    exact preserves middle input state (ih runEq) stepEq

/-- What every step under a condition preserves holds in every state of a run whose steps all meet
the condition. -/
theorem visits_of_takes {step : σ → ι → Option σ} (invariant : σ → Prop)
    (condition : σ → ι → Prop)
    (preserves : ∀ s input next, invariant s → condition s input → step s input = some next →
      invariant next)
    {init : σ} (start : invariant init) {inputs : List ι}
    (taken : ∀ state input, Takes step init inputs state input → condition state input)
    {state : σ} (visited : Visits step init inputs state) : invariant state := by
  obtain ⟨before, hprefix, runEq⟩ := visited
  induction before using List.reverseRecOn generalizing state with
  | nil => exact Option.some.inj runEq ▸ start
  | append_singleton before input ih =>
    obtain ⟨middle, middleEq, stepEq⟩ := run_snoc runEq
    exact preserves middle input state (ih ((List.prefix_append _ _).trans hprefix) middleEq)
      (taken middle input ⟨before, state, hprefix, middleEq, stepEq⟩) stepEq

/-- A step that follows a reference step under a condition follows it over every run whose steps all
meet the condition. -/
theorem run_follows {step : σ → ι → Option σ} (rel : σ → τ → Prop) (reference : τ → ι → τ)
    (condition : σ → ι → Prop)
    (follows : ∀ s t input next, rel s t → condition s input → step s input = some next →
      rel next (reference t input))
    {init : σ} {spec : τ} (start : rel init spec) {inputs : List ι}
    (taken : ∀ state input, Takes step init inputs state input → condition state input)
    {final : σ} (h : run step init inputs = some final) :
    rel final (inputs.foldl reference spec) := by
  induction inputs using List.reverseRecOn generalizing final with
  | nil => exact Option.some.inj h ▸ start
  | append_singleton before input ih =>
    obtain ⟨middle, runEq, stepEq⟩ := run_snoc h
    have earlier : ∀ state other, Takes step init before state other → condition state other := by
      rintro state other ⟨front, next, isPrefix, reached, stepped⟩
      exact taken state other
        ⟨front, next, isPrefix.trans (List.prefix_append _ _), reached, stepped⟩
    rw [List.foldl_append]
    exact follows middle _ input final (ih earlier runEq)
      (taken middle input ⟨before, final, List.prefix_refl _, runEq, stepEq⟩) stepEq

/-- If, from the states of an invariant, a step keeps a property exactly under a condition, then
the property holds in every state of a run exactly when every step of it meets the condition. -/
theorem visits_iff_takes {step : σ → ι → Option σ} (invariant property : σ → Prop)
    (condition : σ → ι → Prop)
    (preserves : ∀ s input next, invariant s → step s input = some next → invariant next)
    (exactly : ∀ s input next, invariant s → property s → step s input = some next →
      (property next ↔ condition s input))
    {init : σ} (start : invariant init) (holds : property init) (inputs : List ι) :
    (∀ state, Visits step init inputs state → property state) ↔
      ∀ state input, Takes step init inputs state input → condition state input := by
  constructor
  · rintro visited state input ⟨before, next, hprefix, runEq, stepEq⟩
    have here := visited state ⟨before, (List.prefix_append _ _).trans hprefix, runEq⟩
    have there := visited next ⟨before ++ [input], hprefix, by
      rw [run_append, runEq, Option.bind_eq_bind, Option.bind_some, run_cons, stepEq]
      rfl⟩
    exact (exactly state input next (run_invariant invariant preserves start runEq) here
      stepEq).1 there
  · rintro taken state ⟨before, hprefix, runEq⟩
    induction before using List.reverseRecOn generalizing state with
    | nil => exact Option.some.inj runEq ▸ holds
    | append_singleton before input ih =>
      obtain ⟨middle, middleEq, stepEq⟩ := run_snoc runEq
      have here := ih middle ((List.prefix_append _ _).trans hprefix) middleEq
      exact (exactly middle input state (run_invariant invariant preserves start middleEq) here
        stepEq).2 (taken middle input ⟨before, state, hprefix, middleEq, stepEq⟩)

/-- If, from the states of a strong property and under a condition, a step keeps the strong property,
and without the condition it breaks a property the strong one implies, then the weaker property holds
in every state of a run exactly when every step of it meets the condition. -/
theorem visits_iff_takes_of_stronger {step : σ → ι → Option σ} {strong property : σ → Prop}
    {allowed condition : σ → ι → Prop} (weaken : ∀ s, strong s → property s)
    (keeps : ∀ s input next, strong s → allowed s input → condition s input →
      step s input = some next → strong next)
    (breaks : ∀ s input next, strong s → allowed s input → ¬ condition s input →
      step s input = some next → ¬ property next)
    {init : σ} (start : strong init) {inputs : List ι}
    (all : ∀ state input, Takes step init inputs state input → allowed state input) :
    (∀ state, Visits step init inputs state → property state) ↔
      ∀ state input, Takes step init inputs state input → condition state input := by
  constructor
  · intro visited
    have meets : ∀ state, Visits step init inputs state → strong state → ∀ input,
        Takes step init inputs state input → condition state input := by
      rintro state - here input ⟨before, next, isPrefix, runEq, stepEq⟩
      by_contra fails
      refine breaks state input next here
        (all state input ⟨before, next, isPrefix, runEq, stepEq⟩) fails stepEq
        (visited next ⟨before ++ [input], isPrefix, ?_⟩)
      rw [run_append, runEq, Option.bind_eq_bind, Option.bind_some, run_cons, stepEq]
      rfl
    have strengthened : ∀ before state, before <+: inputs → run step init before = some state →
        strong state := by
      intro before
      induction before using List.reverseRecOn with
      | nil => exact fun _ _ runEq => Option.some.inj runEq ▸ start
      | append_singleton before input ih =>
        intro state isPrefix runEq
        obtain ⟨middle, middleEq, stepEq⟩ := run_snoc runEq
        have earlier := (List.prefix_append before [input]).trans isPrefix
        have here := ih middle earlier middleEq
        have taken : Takes step init inputs middle input :=
          ⟨before, state, isPrefix, middleEq, stepEq⟩
        exact keeps middle input state here (all middle input taken)
          (meets middle ⟨before, earlier, middleEq⟩ here input taken) stepEq
    rintro state input ⟨before, next, isPrefix, runEq, stepEq⟩
    have earlier := (List.prefix_append before [input]).trans isPrefix
    exact meets state ⟨before, earlier, runEq⟩ (strengthened before state earlier runEq) input
      ⟨before, next, isPrefix, runEq, stepEq⟩
  · intro taken state visited
    exact weaken state (visits_of_takes strong (fun s input => allowed s input ∧ condition s input)
      (fun s input next here both => keeps s input next here both.1 both.2) start
      (fun s input step => ⟨all s input step, taken s input step⟩) visited)

end Run
