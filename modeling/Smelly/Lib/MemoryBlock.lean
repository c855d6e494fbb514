/-
Module: Smelly.Lib.MemoryBlock
Purpose: A block of memory as the list of its bytes.  A copy that leaves the block is `none`, so a
  program that returns `some` has touched only memory it owns.
Trusted boundary: none
-/
import Mathlib.Data.List.Basic

namespace MemoryBlock

variable {α : Type}

/-- `memcpy(block + offset, bytes, n)`. -/
def copyIn (block : List α) (offset : Nat) (bytes : List α) : Option (List α) :=
  if offset + bytes.length ≤ block.length then
    some (block.take offset ++ bytes ++ block.drop (offset + bytes.length))
  else none

/-- `memmove(block + target, block + source, n)`. -/
def move (block : List α) (target source n : Nat) : Option (List α) :=
  if source + n ≤ block.length then copyIn block target ((block.drop source).take n) else none

/-- `realloc(block, size)`.  What the new bytes hold is up to the allocator. -/
def resize (fresh : α) (block : List α) (size : Nat) : List α :=
  block.take size ++ List.replicate (size - block.length) fresh

variable {block bytes : List α} {offset source n size : Nat}

/-- A copy that fits succeeds, keeps the size, and stands behind what precedes it. -/
theorem exists_copyIn (block : List α) (offset : Nat) (bytes : List α)
    (fits : offset + bytes.length ≤ block.length) :
    ∃ after, copyIn block offset bytes = some after ∧ after.length = block.length ∧
      after.take (offset + bytes.length) = block.take offset ++ bytes := by
  have front : (block.take offset ++ bytes).length = offset + bytes.length := by
    simp only [List.length_append, List.length_take]
    omega
  refine ⟨_, if_pos fits, ?_, ?_⟩
  · simp only [List.length_append, List.length_take, List.length_drop]
    omega
  · rw [← front]
    exact List.take_left

/-- A move to the front of the block. -/
theorem exists_move_front (block : List α) (source n : Nat) (fits : source + n ≤ block.length) :
    ∃ after, move block 0 source n = some after ∧ after.length = block.length ∧
      after.take n = (block.drop source).take n := by
  have moved : ((block.drop source).take n).length = n := by
    simp only [List.length_take, List.length_drop]
    omega
  obtain ⟨after, copied, length, taken⟩ :=
    exists_copyIn block 0 ((block.drop source).take n) (by omega)
  refine ⟨after, ?_, length, ?_⟩
  · rw [move, if_pos fits, copied]
  · rwa [moved, Nat.zero_add, List.take_zero, List.nil_append] at taken

@[simp] theorem length_resize (fresh : α) (block : List α) (size : Nat) :
    (resize fresh block size).length = size := by
  simp only [resize, List.length_append, List.length_take, List.length_replicate]
  omega

/-- A new size keeps what lies below both sizes. -/
theorem take_resize (fresh : α) (below : n ≤ block.length) (kept : n ≤ size) :
    (resize fresh block size).take n = block.take n := by
  rw [resize, List.take_append_of_le_length (by simp; omega), List.take_take, Nat.min_eq_left kept]

end MemoryBlock
