/-
Module: Smelly.Lib.Fields
Purpose: Records that are written as a list of keys and texts without the fields that are at their
  default, and read by storing one field after the other.
Trusted boundary: none
-/
import Mathlib.Data.List.Basic

namespace Fields

variable {β κ ω σ : Type} [DecidableEq β]

/-- A field with its key, unless it is at its default. -/
def written (text : β → ω) (key : κ) (val default_ : β) : List (κ × ω) :=
  if val = default_ then [] else [(key, text val)]

variable {text : β → ω} {key : κ} {val default_ : β} {s : σ}

theorem mem_written {item : κ × ω} (h : item ∈ written text key val default_) :
    item = (key, text val) ∧ val ≠ default_ := by
  unfold written at h
  split at h
  · cases h
  · next changed => exact ⟨List.mem_singleton.1 h, changed⟩

/-- What holds of the key with the text of every value holds of what is written. -/
theorem forall_mem_written {p : κ × ω → Prop} (h : val ≠ default_ → p (key, text val)) :
    ∀ item ∈ written text key val default_, p item := by
  intro item mem
  obtain ⟨rfl, changed⟩ := mem_written mem
  exact h changed

/-- Storing a field that was written if it is not at its default. -/
theorem foldl_written {store : σ → κ × ω → σ} (set : β → σ → σ)
    (stores : store s (key, text val) = set val s) (same : set default_ s = s) :
    (written text key val default_).foldl store s = set val s := by
  by_cases default? : val = default_
  · rw [written, if_pos default?, default?, same]
    rfl
  · rw [written, if_neg default?]
    exact stores

/-- Storing a field that was written if it is not at its default, where storing may fail. -/
theorem foldlM_written {store : σ → κ × ω → Option σ} (set : β → σ → σ)
    (stores : store s (key, text val) = some (set val s)) (same : set default_ s = s) :
    (written text key val default_).foldlM store s = some (set val s) := by
  by_cases default? : val = default_
  · rw [written, if_pos default?, default?, same]
    rfl
  · rw [written, if_neg default?, List.foldlM_cons, stores]
    rfl

end Fields
