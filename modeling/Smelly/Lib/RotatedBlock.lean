/-
Module: Smelly.Lib.RotatedBlock
Purpose: A circular buffer is its memory read from one offset around to the same offset.  What a
  copy does to this reading, and how the readings from two offsets are related.
Trusted boundary: none
-/
import Smelly.Lib.MemoryBlock
import Mathlib.Data.List.Rotate

namespace MemoryBlock

variable {α : Type} {block bytes : List α} {offset n : Nat}

/-- A copy at an offset, read from behind what it wrote: the block as it was read from the offset,
less what is overwritten, and then the bytes. -/
theorem rotate_copyIn (fits : offset + bytes.length ≤ block.length) :
    ∃ after, copyIn block offset bytes = some after ∧ after.length = block.length ∧
      after.rotate (offset + bytes.length) =
        (block.rotate offset ++ bytes).drop bytes.length := by
  obtain ⟨after, copied, length, front⟩ := exists_copyIn block offset bytes fits
  refine ⟨after, copied, length, ?_⟩
  have behind : after.drop (offset + bytes.length) = block.drop (offset + bytes.length) := by
    rw [copyIn, if_pos fits] at copied
    cases copied
    have taken : (block.take offset ++ bytes).length = offset + bytes.length := by
      rw [List.length_append, List.length_take, Nat.min_eq_left (by omega)]
    rw [← taken]
    exact List.drop_left
  rw [List.rotate_eq_drop_append_take (by omega), front, behind,
    List.rotate_eq_drop_append_take (by omega), List.append_assoc,
    List.drop_append_of_le_length (by rw [List.length_drop]; omega), List.drop_drop]

/-- What lies behind an offset is what is read first from there. -/
theorem take_drop_eq_take_rotate (fits : offset + n ≤ block.length) :
    (block.drop offset).take n = (block.rotate offset).take n := by
  rw [List.rotate_eq_drop_append_take (by omega),
    List.take_append_of_le_length (by rw [List.length_drop]; omega)]

/-- Read from later on, the block starts with what comes later. -/
theorem take_rotate (later : n ≤ block.length) :
    (block.rotate n).take (block.length - n) = block.drop n := by
  rw [List.rotate_eq_drop_append_take later,
    List.take_append_of_le_length (by rw [List.length_drop]),
    List.take_of_length_le (by rw [List.length_drop])]

end MemoryBlock
