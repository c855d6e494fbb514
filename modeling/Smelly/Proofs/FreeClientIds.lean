/-
Module: Smelly.Proofs.FreeClientIds
Purpose: The client id that an image gets which was sent with a number only: the scan of the sorted
  ids stops at the first gap, so that the id is the least positive one that no image has.
Trusted boundary: none
-/
import Smelly.Core.GraphicsData

namespace Smelly

/-- `found` is the first number above `prevId` that is not among the ids. -/
structure FirstGap (prevId : Nat) (ids : List Nat) (found : Nat) : Prop where
  above : prevId < found
  free : found ∉ ids
  first : ∀ id, prevId < id → id < found → id ∈ ids
  few : found ≤ prevId + 1 + ids.length

/-- An id that was seen already does not move the gap. -/
theorem FirstGap.repeated {prevId found : Nat} {ids : List Nat} (gap : FirstGap prevId ids found) :
    FirstGap prevId (prevId :: ids) found := by
  constructor
  · exact gap.above
  · intro mem
    cases mem with
    | head => exact absurd gap.above (Nat.lt_irrefl _)
    | tail _ mem => exact gap.free mem
  · intro id above before
    exact List.mem_cons_of_mem _ (gap.first id above before)
  · exact Nat.le_succ_of_le gap.few

/-- The next id closes the gap in front of it. -/
theorem FirstGap.next {prevId found : Nat} {ids : List Nat}
    (gap : FirstGap (prevId + 1) ids found) : FirstGap prevId ((prevId + 1) :: ids) found := by
  constructor
  · exact Nat.lt_of_succ_lt gap.above
  · intro mem
    cases mem with
    | head => exact absurd gap.above (Nat.lt_irrefl _)
    | tail _ mem => exact gap.free mem
  · intro id above before
    rcases Nat.eq_or_lt_of_le above with same | beyond
    · rw [← same]
      exact List.mem_cons_self
    · exact List.mem_cons_of_mem _ (gap.first id beyond before)
  · have few := gap.few
    rw [List.length_cons]
    omega

/-- The scan of sorted ids finds the first gap; `ans` is always the number behind `prev_id`. -/
theorem freeClientIdIn_firstGap (ids : List Nat) :
    ∀ prevId, ids.Pairwise (· ≤ ·) → (∀ id ∈ ids, prevId ≤ id) →
      FirstGap prevId ids (freeClientIdIn prevId (prevId + 1) ids) := by
  induction ids with
  | nil =>
    intro prevId _ _
    refine ⟨Nat.lt_succ_self _, List.not_mem_nil, ?_, Nat.le_refl _⟩
    intro id above before
    exact absurd (Nat.lt_of_lt_of_le above (Nat.le_of_lt_succ before)) (Nat.lt_irrefl _)
  | cons id rest ih =>
    intro prevId sorted bound
    obtain ⟨least, sorted⟩ := List.pairwise_cons.1 sorted
    have later := fun other mem => bound other (List.mem_cons_of_mem _ mem)
    rw [freeClientIdIn]
    by_cases same : id = prevId
    · rw [if_pos same, same]
      exact (ih prevId sorted later).repeated
    · rw [if_neg same]
      have above : prevId + 1 ≤ id := by
        have notBelow := bound id List.mem_cons_self
        omega
      by_cases gap : id ≠ prevId + 1
      · rw [if_pos gap]
        refine ⟨Nat.lt_succ_self _, ?_, ?_, Nat.le_add_right _ _⟩
        · intro mem
          cases mem with
          | head => exact gap rfl
          | tail _ mem =>
            have behind := least _ mem
            omega
        · intro other behind before
          omega
      · have next := Decidable.not_not.1 gap
        rw [if_neg gap, next]
        rw [next] at least
        exact (ih (prevId + 1) sorted least).next

/-- The id is positive, no image has it, and it is the least such; it exceeds the number of images
by one at most, so that `ans` stays a 32-bit number. -/
theorem getFreeClientId_least (self : GraphicsManager) :
    0 < getFreeClientId self ∧
      (∀ img ∈ self.images, img.clientId ≠ getFreeClientId self) ∧
      (∀ id, 0 < id → (∀ img ∈ self.images, img.clientId ≠ id) → getFreeClientId self ≤ id) ∧
      getFreeClientId self ≤ self.images.length + 1 := by
  let ids := (self.images.map Image.clientId).filter (· ≠ 0)
  have used : ∀ id, 0 < id →
      (id ∈ ids.insertionSort (· ≤ ·) ↔ ∃ img ∈ self.images, img.clientId = id) := by
    intro id positive
    rw [List.mem_insertionSort, List.mem_filter, List.mem_map]
    constructor
    · exact fun mem => mem.1
    · exact fun mem => ⟨mem, decide_eq_true (Nat.ne_of_gt positive)⟩
  have gap : FirstGap 0 (ids.insertionSort (· ≤ ·)) (getFreeClientId self) := by
    apply freeClientIdIn_firstGap
    · exact List.pairwise_insertionSort _ _
    · exact fun id _ => Nat.zero_le id
  refine ⟨gap.above, ?_, ?_, ?_⟩
  · intro img mem same
    exact gap.free ((used _ gap.above).2 ⟨img, mem, same⟩)
  · intro id positive unused
    by_contra smaller
    obtain ⟨img, mem, same⟩ := (used id positive).1
      (gap.first id positive (Nat.lt_of_not_le smaller))
    exact unused img mem same
  · have few := gap.few
    have short : ids.length ≤ (self.images.map Image.clientId).length := List.length_filter_le _ _
    rw [List.length_insertionSort] at few
    rw [List.length_map] at short
    omega

end Smelly
