/-
Module: Smelly.Lib.Newest
Purpose: Bounded collections of timed items that are told apart by a key: what it means that an item
  is not lost, and the changes that lose none (replacing by a newer one, adding, sorting, dropping
  the oldest).
Trusted boundary: none
-/
import Mathlib.Data.List.Basic
import Mathlib.Data.List.Nodup
import Mathlib.Order.MinMax
import Mathlib.Order.Nat

namespace Newest

variable {α κ τ : Type} [LinearOrder τ] (key : α → κ) (time : α → τ)

/-- How many items are not older than `t`. -/
def notOlder (t : τ) (items : List α) : Nat := items.countP fun item => decide (t ≤ time item)

/-- The items hold one with the key of `item` that is not older, or `cap` that are not older. -/
def Kept (cap : Nat) (items : List α) (item : α) : Prop :=
  (∃ other ∈ items, key other = key item ∧ time item ≤ time other) ∨
    cap ≤ notOlder time (time item) items

/-- Nothing of `items` is lost in `later`. -/
structure Absorbs (cap : Nat) (items later : List α) : Prop where
  kept : ∀ item ∈ items, Kept key time cap later item
  count : ∀ t, min cap (notOlder time t items) ≤ notOlder time t later

variable {key time} {cap : Nat} {items later : List α} {item other : α}

theorem notOlder_antitone {t u : τ} (h : t ≤ u) (items : List α) :
    notOlder time u items ≤ notOlder time t items := by
  apply List.countP_mono_left
  intro item _ newer
  exact decide_eq_true (h.trans (of_decide_eq_true newer))

theorem kept_of_mem (h : item ∈ items) : Kept key time cap items item :=
  .inl ⟨item, h, rfl, le_refl _⟩

/-- An item that is kept under another one with its key. -/
theorem Kept.of_newer (h : Kept key time cap items other) (same : key other = key item)
    (newer : time item ≤ time other) : Kept key time cap items item := by
  rcases h with ⟨found, mem, sameKey, notOlder⟩ | full
  · exact .inl ⟨found, mem, sameKey.trans same, newer.trans notOlder⟩
  · exact .inr (full.trans (notOlder_antitone newer items))

/-- What was kept stays kept. -/
theorem Absorbs.keeps (h : Absorbs key time cap items later) (kept : Kept key time cap items item) :
    Kept key time cap later item := by
  rcases kept with ⟨other, mem, same, newer⟩ | full
  · exact (h.kept other mem).of_newer same newer
  · have counted := h.count (time item)
    rw [min_eq_left full] at counted
    exact .inr counted

theorem Absorbs.refl (items : List α) : Absorbs key time cap items items :=
  ⟨fun _ mem => kept_of_mem mem, fun _ => min_le_right _ _⟩

theorem Absorbs.trans {last : List α} (h : Absorbs key time cap items later)
    (then_ : Absorbs key time cap later last) : Absorbs key time cap items last := by
  refine ⟨fun item mem => then_.keeps (h.kept item mem), fun t => ?_⟩
  calc min cap (notOlder time t items)
      ≤ min cap (notOlder time t later) := le_min (min_le_left _ _) (h.count t)
    _ ≤ notOlder time t last := then_.count t

/-- Another order of the items. -/
theorem absorbs_perm (same : items.Perm later) : Absorbs key time cap items later :=
  ⟨fun _ mem => kept_of_mem (same.mem_iff.1 mem), fun t => by
    rw [notOlder, same.countP_eq]
    exact min_le_right _ _⟩

/-- An item is added. -/
theorem absorbs_concat (items : List α) (item : α) : Absorbs key time cap items (items ++ [item]) :=
  ⟨fun _ mem => kept_of_mem (List.mem_append_left _ mem), fun t => by
    rw [notOlder, notOlder, List.countP_append]
    exact (min_le_right _ _).trans (Nat.le_add_right _ _)⟩

/-- A newer item takes the place of one with its key. -/
theorem absorbs_replace {front back : List α} (same : key item = key other)
    (newer : time other ≤ time item) :
    Absorbs key time cap (front ++ other :: back) (front ++ item :: back) := by
  constructor
  · intro found mem
    have split : found ∈ front ++ back ∨ found = other := by
      simp only [List.mem_append, List.mem_cons] at mem ⊢
      tauto
    rcases split with kept | rfl
    · apply kept_of_mem
      simp only [List.mem_append, List.mem_cons] at kept ⊢
      tauto
    · exact .inl ⟨item, by simp, same, newer⟩
  · intro t
    have least : (if decide (t ≤ time other) = true then 1 else 0) ≤
        if decide (t ≤ time item) = true then 1 else 0 := by
      by_cases old : t ≤ time other
      · simp [old, old.trans newer]
      · simp [old]
    simp only [notOlder, List.countP_append, List.countP_cons]
    refine (min_le_right _ _).trans ?_
    omega

/-- Of sorted items, all but the newest `cap` are dropped. -/
theorem absorbs_dropOldest (sorted : items.Pairwise fun a b => time a ≤ time b) (cap : Nat) :
    Absorbs key time cap items (items.drop (items.length - cap)) := by
  have split := List.take_append_drop (items.length - cap) items
  have length : (items.drop (items.length - cap)).length = min cap items.length := by
    rw [List.length_drop]
    omega
  generalize items.take (items.length - cap) = dropped at split
  generalize items.drop (items.length - cap) = left at split length
  subst split
  have older : ∀ a ∈ dropped, ∀ b ∈ left, time a ≤ time b := (List.pairwise_append.1 sorted).2.2
  have count : ∀ t, min cap (notOlder time t (dropped ++ left)) ≤ notOlder time t left := by
    intro t
    by_cases all : ∀ b ∈ left, t ≤ time b
    · -- all that are left are counted
      have whole : notOlder time t left = left.length :=
        List.countP_eq_length.2 fun b mem => decide_eq_true (all b mem)
      have most : notOlder time t (dropped ++ left) ≤ (dropped ++ left).length :=
        List.countP_le_length
      rw [whole, length]
      exact min_le_min (le_refl cap) most
    · -- none of those dropped is counted
      simp only [not_forall, not_le] at all
      obtain ⟨b, mem, before⟩ := all
      have none_ : dropped.countP (fun item => decide (t ≤ time item)) = 0 := by
        apply List.countP_eq_zero.2
        intro a dropped_
        simp [not_le.2 ((older a dropped_ b mem).trans_lt before)]
      rw [notOlder, List.countP_append, none_, Nat.zero_add]
      exact min_le_right _ _
  refine ⟨fun item mem => ?_, count⟩
  rcases List.mem_append.1 mem with gone | stays
  · -- a dropped item is not newer than any of those left, and these are `cap`
    have all : notOlder time (time item) left = left.length :=
      List.countP_eq_length.2 fun b mem => decide_eq_true (older item gone b mem)
    have some_ : 0 < dropped.length := List.length_pos_of_mem gone
    rw [List.length_append] at length
    exact .inr (by omega)
  · exact kept_of_mem stays

/-- In a collection with one item for each key, at most `cap`, no kept item is newer than the one with
its key. -/
theorem Kept.newest (distinct : (items.map key).Nodup) (few : items.length ≤ cap)
    (h : Kept key time cap items item) (mem : other ∈ items) (same : key other = key item) :
    time item ≤ time other := by
  rcases h with ⟨found, foundMem, sameKey, newer⟩ | full
  · have one : found = other :=
      List.inj_on_of_nodup_map distinct foundMem mem (sameKey.trans same.symm)
    exact one ▸ newer
  · have most : notOlder time (time item) items ≤ items.length := List.countP_le_length
    have all : items.countP (fun found => decide (time item ≤ time found)) = items.length :=
      le_antisymm most (few.trans full)
    exact of_decide_eq_true (List.countP_eq_length.1 all other mem)

end Newest
