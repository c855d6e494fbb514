/-
Module: Smelly.Lib.Keyed
Purpose: Lists of records with distinct keys: lookup, update in place and deletion by key, and
  what these do to the total weight of the records.
Trusted boundary: none
-/
import Mathlib.Data.List.Nodup
import Mathlib.Algebra.BigOperators.Group.List.Basic
import Mathlib.Algebra.Ring.Nat

namespace Keyed

variable {α κ : Type} [DecidableEq κ] (key : α → κ)

/-- The record with key `k`. -/
def find (k : κ) (table : List α) : Option α := table.find? fun e => decide (key e = k)

/-- Change the record with key `k`. -/
def update (k : κ) (change : α → α) (table : List α) : List α :=
  table.map fun e => if key e = k then change e else e

/-- Remove the record with key `k`. -/
def delete (k : κ) (table : List α) : List α := table.eraseP fun e => decide (key e = k)

/-- The sum of the weights of all records. -/
def weight (size : α → Nat) (table : List α) : Nat := (table.map size).sum

/-- No two records have the same key. -/
def Distinct (table : List α) : Prop := (table.map key).Nodup

variable {key} {k : κ} {table : List α} {e : α} {size : α → Nat} {change : α → α}

theorem find_key (h : find key k table = some e) : key e = k := by
  simpa using List.find?_some h

theorem find_mem (h : find key k table = some e) : e ∈ table := List.mem_of_find?_eq_some h

theorem find_none (h : find key k table = none) : k ∉ table.map key := by
  intro hmem
  obtain ⟨e, he, hkey⟩ := List.mem_map.1 hmem
  simpa [hkey] using List.find?_eq_none.1 h e he

/-- With distinct keys, a record of the table is the one found under its key. -/
theorem find_of_mem (distinct : Distinct key table) (h : e ∈ table) :
    find key (key e) table = some e := by
  cases found : find key (key e) table with
  | none => exact absurd (List.mem_map_of_mem h) (find_none found)
  | some other =>
    rw [List.inj_on_of_nodup_map distinct (find_mem found) h (find_key found)]

@[simp] theorem weight_nil : weight size ([] : List α) = 0 := rfl

@[simp] theorem weight_cons : weight size (e :: table) = size e + weight size table := by
  simp [weight]

@[simp] theorem weight_append (first second : List α) :
    weight size (first ++ second) = weight size first + weight size second := by
  simp [weight]

theorem weight_perm {first second : List α} (h : first.Perm second) :
    weight size first = weight size second := (h.map size).sum_eq

theorem update_keys (keep : ∀ e, key (change e) = key e) :
    (update key k change table).map key = table.map key := by
  simp only [update, List.map_map]
  refine List.map_congr_left fun e _ => ?_
  simp only [Function.comp_apply]
  split
  · exact keep e
  · rfl

theorem update_distinct (distinct : Distinct key table) (keep : ∀ e, key (change e) = key e) :
    Distinct key (update key k change table) := by
  unfold Distinct
  rw [update_keys keep]
  exact distinct

theorem update_of_not_mem (h : k ∉ table.map key) : update key k change table = table := by
  unfold update
  conv_rhs => rw [← List.map_id table]
  refine List.map_congr_left fun e he => ?_
  have : key e ≠ k := fun hkey => h (hkey ▸ List.mem_map_of_mem he)
  simp [this]

/-- An update of one record changes the total by the difference of that record's weights. -/
theorem weight_update (size : α → Nat) (change : α → α) (distinct : Distinct key table)
    (h : find key k table = some e) :
    weight size (update key k change table) + size e = weight size table + size (change e) := by
  induction table with
  | nil => simp [find] at h
  | cons first rest ih =>
    obtain ⟨fresh, restDistinct⟩ := List.nodup_cons.1 distinct
    by_cases hkey : key first = k
    · have found : first = e := by simpa [find, hkey] using h
      subst found
      have others : update key k change rest = rest := update_of_not_mem (hkey ▸ fresh)
      have updated : update key k change (first :: rest) = change first :: rest := by
        conv_rhs => rw [← others]
        simp [update, hkey]
      rw [updated, weight_cons, weight_cons]
      omega
    · have found : find key k rest = some e := by simpa [find, hkey] using h
      have updated : update key k change (first :: rest) = first :: update key k change rest := by
        simp [update, hkey]
      have later := ih restDistinct found
      rw [updated, weight_cons, weight_cons]
      omega

/-- An update that keeps every weight keeps the total. -/
theorem weight_update_of_eq (same : ∀ e, size (change e) = size e) :
    weight size (update key k change table) = weight size table := by
  simp only [weight, update, List.map_map]
  congr 1
  refine List.map_congr_left fun e _ => ?_
  simp only [Function.comp_apply]
  split
  · exact same e
  · rfl

theorem mem_update (h : e ∈ update key k change table) :
    (e ∈ table ∧ key e ≠ k) ∨ ∃ old ∈ table, key old = k ∧ e = change old := by
  obtain ⟨old, hold, rfl⟩ := List.mem_map.1 h
  by_cases hkey : key old = k
  · exact Or.inr ⟨old, hold, hkey, by simp [hkey]⟩
  · exact Or.inl ⟨by simpa [hkey] using hold, by simp [hkey]⟩

theorem weight_delete (size : α → Nat) (h : find key k table = some e) :
    weight size (delete key k table) + size e = weight size table := by
  induction table with
  | nil => simp [find] at h
  | cons first rest ih =>
    by_cases hkey : key first = k
    · have found : first = e := by simpa [find, hkey] using h
      subst found
      simp [delete, hkey, Nat.add_comm]
    · have found : find key k rest = some e := by simpa [find, hkey] using h
      have later := ih found
      have deleted : delete key k (first :: rest) = first :: delete key k rest := by
        simp [delete, hkey]
      rw [deleted, weight_cons, weight_cons]
      omega

theorem delete_distinct (distinct : Distinct key table) : Distinct key (delete key k table) :=
  List.Nodup.sublist (List.Sublist.map key List.eraseP_sublist) distinct

/-- With distinct keys, a deletion leaves no record with that key. -/
theorem key_ne_of_mem_delete (distinct : Distinct key table) (h : e ∈ delete key k table) :
    key e ≠ k := by
  induction table with
  | nil => simp [delete] at h
  | cons first rest ih =>
    obtain ⟨fresh, restDistinct⟩ := List.nodup_cons.1 distinct
    by_cases hkey : key first = k
    · have deleted : delete key k (first :: rest) = rest := by simp [delete, hkey]
      rw [deleted] at h
      exact fun same => fresh (hkey.trans same.symm ▸ List.mem_map_of_mem h)
    · have deleted : delete key k (first :: rest) = first :: delete key k rest := by
        simp [delete, hkey]
      rw [deleted] at h
      rcases List.mem_cons.1 h with rfl | later
      · exact hkey
      · exact ih restDistinct later

theorem mem_of_mem_delete (h : e ∈ delete key k table) : e ∈ table := List.mem_of_mem_eraseP h

end Keyed
