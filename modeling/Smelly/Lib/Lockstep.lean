/-
Module: Smelly.Lib.Lockstep
Purpose: Two machines that read the same items and add up numbers: their sums agree on every prefix
  just where each step keeps them in step.
Trusted boundary: none
-/
import Mathlib.Data.List.Infix

namespace Lockstep

variable {C S T I : Type}

/-- What a machine adds up over the items. -/
def total (step : S → I → S × Int) (s : S) : List I → Int
  | [] => 0
  | i :: items => (step s i).2 + total step (step s i).1 items

/-- Every item meets the condition in the context that the items before it leave. -/
def Along (next : C → I → C) (ok : C → I → Prop) (c : C) : List I → Prop
  | [] => True
  | i :: items => ok c i ∧ Along next ok (next c i) items

/-- The machines are kept in step by the items that meet the condition, and add different numbers at
the others. -/
structure InStep (f : S → I → S × Int) (g : T → I → T × Int) (next : C → I → C)
    (ok : C → I → Prop) (valid : I → Prop) (R : C → S → T → Prop) : Prop where
  keeps : ∀ c s t i, R c s t → valid i → ok c i →
    R (next c i) (f s i).1 (g t i).1 ∧ (f s i).2 = (g t i).2
  breaks : ∀ c s t i, R c s t → valid i → ¬ok c i → (f s i).2 ≠ (g t i).2

/-- The sums agree on every prefix if and only if every item meets the condition. -/
theorem prefixes_agree_iff {f : S → I → S × Int} {g : T → I → T × Int} {next : C → I → C}
    {ok : C → I → Prop} {valid : I → Prop} {R : C → S → T → Prop}
    (inStep : InStep f g next ok valid R) {c : C} {s : S} {t : T} {items : List I}
    (related : R c s t) (allValid : ∀ i ∈ items, valid i) :
    (∀ pre, pre <+: items → total f s pre = total g t pre) ↔ Along next ok c items := by
  induction items generalizing c s t with
  | nil =>
    constructor
    · exact fun _ => trivial
    · intro _ pre isPrefix
      rw [List.prefix_nil.1 isPrefix]
      rfl
  | cons i items ih =>
    have valid_ := allValid i List.mem_cons_self
    have later := fun j mem => allValid j (List.mem_cons_of_mem i mem)
    constructor
    · intro agree
      have ok_ : ok c i := by
        by_contra broken
        have first := agree [i] (List.cons_prefix_cons.2 ⟨rfl, List.nil_prefix⟩)
        simp only [total, Int.add_zero] at first
        exact inStep.breaks c s t i related valid_ broken first
      obtain ⟨kept, same⟩ := inStep.keeps c s t i related valid_ ok_
      refine ⟨ok_, (ih kept later).1 fun pre isPrefix => ?_⟩
      have whole := agree (i :: pre) (List.cons_prefix_cons.2 ⟨rfl, isPrefix⟩)
      rw [total, total, same] at whole
      exact Int.add_left_cancel whole
    · rintro ⟨ok_, rest⟩ pre isPrefix
      obtain ⟨kept, same⟩ := inStep.keeps c s t i related valid_ ok_
      cases pre with
      | nil => rfl
      | cons j pre =>
        obtain ⟨rfl, tailPrefix⟩ := List.cons_prefix_cons.1 isPrefix
        rw [total, total, same, (ih kept later).2 rest pre tailPrefix]

end Lockstep
