/-
Module: Smelly.Lib.Prefixes
Purpose: Lists of which one starts with the other, and the greatest prefix of a list that is
  comparable to others in this sense.
Trusted boundary: none
-/
import Mathlib.Data.List.Infix

namespace Smelly

namespace Prefixes

variable {α : Type*}

/-- One of the two lists starts with the other. -/
def Comparable (a b : List α) : Prop := a <+: b ∨ b <+: a

/-- A prefix of a comparable list is comparable. -/
theorem Comparable.of_prefix {a b p : List α} (h : Comparable a b) (sub : p <+: a) :
    Comparable p b := by
  cases h with
  | inl front => exact Or.inl (sub.trans front)
  | inr front => exact List.prefix_or_prefix_of_prefix sub front

theorem comparable_nil (b : List α) : Comparable [] b := Or.inl List.nil_prefix

/-- Two lists are comparable if they agree wherever both have an item. -/
theorem comparable_iff {a b : List α} :
    Comparable a b ↔ ∀ (i : Nat) (x y : α), a[i]? = some x → b[i]? = some y → x = y := by
  constructor
  · rintro (⟨rest, rfl⟩ | ⟨rest, rfl⟩) i x y hx hy
    · obtain ⟨small, -⟩ := List.getElem?_eq_some_iff.1 hx
      rw [List.getElem?_append_left small, hx] at hy
      exact Option.some.inj hy
    · obtain ⟨small, -⟩ := List.getElem?_eq_some_iff.1 hy
      rw [List.getElem?_append_left small, hy] at hx
      exact (Option.some.inj hx).symm
  · intro agree
    have front : ∀ {u v : List α}, u.length ≤ v.length →
        (∀ (i : Nat) (x y : α), u[i]? = some x → v[i]? = some y → x = y) → u <+: v := by
      intro u v short same
      apply List.prefix_iff_getElem?.2
      intro i hi
      have wide : i < v.length := Nat.lt_of_lt_of_le hi short
      rw [List.getElem?_eq_getElem wide]
      exact congrArg some (same i u[i] v[i] (List.getElem?_eq_getElem hi)
        (List.getElem?_eq_getElem wide)).symm
    rcases Nat.le_total a.length b.length with short | short
    · exact Or.inl (front short agree)
    · exact Or.inr (front short fun i x y hx hy => (agree i y x hy hx).symm)

/-- Of all prefixes of `whole` that are comparable to each of the `others` this is the greatest. -/
structure Greatest (whole : List α) (others : List (List α)) (p : List α) : Prop where
  front : p <+: whole
  comparable : ∀ q ∈ others, Comparable p q
  most : ∀ r, r <+: whole → (∀ q ∈ others, Comparable r q) → r <+: p

/-- The greatest prefix is found one list at a time. -/
theorem Greatest.cons {whole q p r : List α} {others : List (List α)}
    (first : Greatest whole [q] p) (rest : Greatest p others r) :
    Greatest whole (q :: others) r := by
  constructor
  · exact rest.front.trans first.front
  · intro other mem
    cases List.mem_cons.1 mem with
    | inl same =>
      rw [same]
      exact Comparable.of_prefix (first.comparable q List.mem_cons_self) rest.front
    | inr later => exact rest.comparable other later
  · intro s front all
    have within : s <+: p := first.most s front fun other mem => by
      rw [List.mem_singleton.1 mem]
      exact all q List.mem_cons_self
    exact rest.most s within fun other mem => all other (List.mem_cons_of_mem _ mem)

end Prefixes

end Smelly
