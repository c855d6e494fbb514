/-
Module: Smelly.Lib.HeldPrefix
Purpose: Looking for a marker in a text by holding back what may be its beginning, where a mismatch
  gives up all that was held, the item of the mismatch included.
Trusted boundary: none
-/
import Mathlib.Algebra.Group.Nat.Even
import Mathlib.Data.List.Infix

namespace Smelly

namespace HeldPrefix

variable {α : Type*} [DecidableEq α] {marker held text m : List α}

/-- What is held back after one more item. -/
def hold (marker held : List α) (a : α) : List α :=
  if held ++ [a] <+: marker then held ++ [a] else []

/-- What is held back after a text. -/
def run (marker held text : List α) : List α := text.foldl (hold marker) held

/-- A beginning of the marker, neither empty nor all of it. -/
def Beginning (marker m : List α) : Prop := m ≠ [] ∧ m <+: marker ∧ m ≠ marker

/-- The text ends in an even number of beginnings of the marker, one directly after the other; none
stands before them. -/
def PairedBeginnings (marker text : List α) : Prop :=
  ∃ (front : List α) (ms : List (List α)), text = front ++ ms.flatten ∧
    (∀ m ∈ ms, Beginning marker m) ∧ (∀ m, Beginning marker m → ¬m <:+ front) ∧ Even ms.length

theorem run_append (held first second : List α) :
    run marker held (first ++ second) = run marker (run marker held first) second :=
  List.foldl_append

/-- What is held back is a beginning of the marker. -/
theorem run_prefix (h : held <+: marker) (text : List α) : run marker held text <+: marker := by
  induction text generalizing held with
  | nil => exact h
  | cons a text ih =>
    apply ih
    rw [hold]
    split
    · assumption
    · exact List.nil_prefix

/-- What is held back is the end of what was read. -/
theorem run_suffix (held text : List α) : run marker held text <:+ held ++ text := by
  induction text generalizing held with
  | nil =>
    rw [List.append_nil]
    exact List.suffix_refl held
  | cons a text ih =>
    have rest := ih (hold marker held a)
    have whole : hold marker held a ++ text <:+ held ++ a :: text := by
      rw [hold]
      split
      · rw [List.append_assoc]
        exact List.suffix_refl _
      · rw [List.nil_append]
        exact (List.suffix_cons a text).trans (List.suffix_append held (a :: text))
    exact rest.trans whole

/-- A beginning is held back as long as it goes on. -/
theorem run_goesOn (h : held ++ m <+: marker) : run marker held m = held ++ m := by
  induction m generalizing held with
  | nil => exact (List.append_nil held).symm
  | cons a m ih =>
    have whole : held ++ a :: m = held ++ [a] ++ m := by rw [List.append_assoc]; rfl
    have first : held ++ [a] <+: marker := by
      rw [whole] at h
      exact (List.prefix_append _ m).trans h
    have next : hold marker held a = held ++ [a] := if_pos first
    rw [whole] at h
    have rest := ih h
    rw [whole, ← rest, ← next]
    rfl

section Lead

variable {lead : α} {tail : List α}

/-- Nothing is held back of a text without the first item of the marker. -/
theorem run_without (absent : lead ∉ text) : run (lead :: tail) [] text = [] := by
  induction text with
  | nil => rfl
  | cons a text ih =>
    obtain ⟨ne, later⟩ := not_or.1 (mt List.mem_cons.2 absent)
    have next : hold (lead :: tail) [] a = [] := by
      apply if_neg
      intro front
      exact ne (List.cons_prefix_cons.1 front).1.symm
    exact (congrArg (run (lead :: tail) · text) next).trans (ih later)

omit [DecidableEq α] in
theorem Beginning.shape (h : Beginning (lead :: tail) m) :
    ∃ rest, m = lead :: rest ∧ rest <+: tail := by
  obtain ⟨filled, front, -⟩ := h
  cases m with
  | nil => exact absurd rfl filled
  | cons a rest =>
    obtain ⟨rfl, inner⟩ := List.cons_prefix_cons.1 front
    exact ⟨rest, rfl, inner⟩

/-- The first item of the marker behind a beginning gives up both. -/
theorem run_again (once : lead ∉ tail) (first : Beginning (lead :: tail) held)
    (absent : lead ∉ text) : run (lead :: tail) held (lead :: text) = [] := by
  obtain ⟨u, rfl, -⟩ := first.shape
  have next : hold (lead :: tail) (lead :: u) lead = [] := by
    apply if_neg
    intro front
    have inTail := (List.cons_prefix_cons.1 front).2
    exact once (inTail.subset (List.mem_append_right u List.mem_cons_self))
  exact (congrArg (run (lead :: tail) · text) next).trans (run_without absent)

/-- A beginning behind another gives up both. -/
theorem run_beginning (once : lead ∉ tail) (first : Beginning (lead :: tail) held)
    (second : Beginning (lead :: tail) m) : run (lead :: tail) held m = [] := by
  obtain ⟨rest, rfl, inner⟩ := second.shape
  exact run_again once first fun mem => once (inner.subset mem)

/-- Beginnings one after the other are held back in turn. -/
theorem run_flatten (once : lead ∉ tail) {ms : List (List α)}
    (all : ∀ m ∈ ms, Beginning (lead :: tail) m) (h : held = [] ∨ Beginning (lead :: tail) held) :
    run (lead :: tail) held ms.flatten = [] ↔ (held = [] ↔ Even ms.length) := by
  induction ms generalizing held with
  | nil =>
    constructor
    · intro same
      exact ⟨fun _ => Even.zero, fun _ => same⟩
    · exact fun same => same.2 Even.zero
  | cons m ms ih =>
    have first := all m List.mem_cons_self
    have later := fun n mem => all n (List.mem_cons_of_mem m mem)
    rw [List.flatten_cons, run_append, List.length_cons, Nat.even_add_one]
    cases h with
    | inl empty =>
      have next : run (lead :: tail) held m = m := by
        rw [empty]
        exact run_goesOn first.2.1
      rw [next, ih later (Or.inr first)]
      simp [first.1, empty]
    | inr held_ =>
      have next := run_beginning once held_ first
      rw [next, ih later (Or.inl rfl)]
      simp [held_.1]

omit [DecidableEq α] in
theorem exists_beginnings (text : List α) :
    ∃ (front : List α) (ms : List (List α)), text = front ++ ms.flatten ∧
      (∀ m ∈ ms, Beginning marker m) ∧ ∀ m, Beginning marker m → ¬m <:+ front := by
  induction hlen : text.length using Nat.strongRecOn generalizing text with
  | ind n ih =>
    by_cases ends : ∃ m, Beginning marker m ∧ m <:+ text
    · obtain ⟨m, begins, pre, rfl⟩ := ends
      have pos := List.length_pos_iff.2 begins.1
      have less : pre.length < n := by
        rw [← hlen, List.length_append]
        omega
      obtain ⟨front, ms, shape, all, none_⟩ := ih pre.length less pre rfl
      refine ⟨front, ms ++ [m], ?_, ?_, none_⟩
      · rw [shape, List.flatten_append, List.append_assoc, List.flatten_singleton]
      · intro other mem
        cases List.mem_append.1 mem with
        | inl before => exact all other before
        | inr last =>
          rw [List.mem_singleton.1 last]
          exact begins
    · refine ⟨text, [], (List.append_nil text).symm, fun m mem => absurd mem List.not_mem_nil, ?_⟩
      exact fun m begins suffix_ => ends ⟨m, begins, suffix_⟩

/-- Behind a text without the marker nothing is held back if and only if the text ends in an even
number of beginnings of the marker. -/
theorem run_eq_nil_iff (once : lead ∉ tail) (free : ¬lead :: tail <:+: text) :
    run (lead :: tail) [] text = [] ↔ PairedBeginnings (lead :: tail) text := by
  have parity : ∀ {front : List α} {ms : List (List α)}, text = front ++ ms.flatten →
      (∀ m ∈ ms, Beginning (lead :: tail) m) →
      (∀ m, Beginning (lead :: tail) m → ¬m <:+ front) →
      (run (lead :: tail) [] text = [] ↔ Even ms.length) := by
    intro front ms shape all none_
    have before : run (lead :: tail) [] front = [] := by
      by_contra filled
      have suffix_ := @run_suffix α _ (lead :: tail) [] front
      refine none_ _ ⟨filled, run_prefix List.nil_prefix front, fun whole => free ?_⟩ suffix_
      rw [whole] at suffix_
      rw [shape]
      exact suffix_.isInfix.trans (List.prefix_append front ms.flatten).isInfix
    have flat := run_flatten once all (Or.inl rfl)
    rw [shape, run_append, before, flat]
    exact ⟨fun same => same.1 rfl, fun even => ⟨fun _ => even, fun _ => rfl⟩⟩
  constructor
  · intro nothing
    obtain ⟨front, ms, shape, all, none_⟩ := @exists_beginnings α (lead :: tail) text
    exact ⟨front, ms, shape, all, none_, (parity shape all none_).1 nothing⟩
  · rintro ⟨front, ms, shape, all, none_, even⟩
    exact (parity shape all none_).2 even

end Lead

end HeldPrefix

end Smelly
