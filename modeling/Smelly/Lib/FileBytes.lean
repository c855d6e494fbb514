/-
Module: Smelly.Lib.FileBytes
Purpose: A file as the list of its bytes: reading a range, writing at an offset, what a write
  leaves as it is, and reading back what was written piece by piece.
Trusted boundary: none
-/
import Mathlib.Data.List.Basic

namespace FileBytes

variable {α : Type}

/-- The `n` bytes at `pos`, or as many as there are. -/
def read (file : List α) (pos n : Nat) : List α := (file.drop pos).take n

/-- Overwrite from `offset` on; a gap behind the end of the file is filled. -/
def write (fill : α) (file : List α) (offset : Nat) (bytes : List α) : List α :=
  (file ++ List.replicate (offset - file.length) fill).take offset ++ bytes ++
    file.drop (offset + bytes.length)

variable {fill : α} {file bytes : List α} {offset pos n : Nat}

theorem length_read (file : List α) (pos n : Nat) :
    (read file pos n).length = min n (file.length - pos) := by
  simp [read]

theorem getElem?_read (file : List α) (pos n i : Nat) :
    (read file pos n)[i]? = if i < n then file[pos + i]? else none := by
  simp [read, List.getElem?_take, List.getElem?_drop]

@[simp] theorem read_zero (file : List α) (pos : Nat) : read file pos 0 = [] := by simp [read]

theorem length_write (fill : α) (file : List α) (offset : Nat) (bytes : List α) :
    (write fill file offset bytes).length = max file.length (offset + bytes.length) := by
  simp only [write, List.length_append, List.length_take, List.length_replicate, List.length_drop]
  omega

theorem getElem?_write (fill : α) (file : List α) (offset : Nat) (bytes : List α) {i : Nat}
    (inside : i < file.length ∨ offset ≤ i) :
    (write fill file offset bytes)[i]? =
      if offset ≤ i ∧ i < offset + bytes.length then bytes[i - offset]? else file[i]? := by
  have front : ((file ++ List.replicate (offset - file.length) fill).take offset).length =
      offset := by
    simp only [List.length_take, List.length_append, List.length_replicate]
    omega
  unfold write
  by_cases below : i < offset
  · have old : i < file.length := by omega
    rw [if_neg (by omega), List.append_assoc, List.getElem?_append_left (by omega),
      List.getElem?_take_of_lt below, List.getElem?_append_left old]
  · by_cases within : i < offset + bytes.length
    · rw [if_pos ⟨by omega, within⟩, List.getElem?_append_left (by simp [front, within]),
        List.getElem?_append_right (by omega), front]
    · rw [if_neg (by omega), List.getElem?_append_right (by simp [front]; omega),
        List.getElem?_drop]
      congr 1
      rw [List.length_append, front]
      omega

/-- Two ranges one behind the other. -/
theorem read_add (file : List α) (pos m n : Nat) :
    read file pos (m + n) = read file pos m ++ read file (pos + m) n := by
  rw [read, read, read, List.take_add, List.drop_drop]

theorem take_read (file : List α) (pos : Nat) {m n : Nat} (short : m ≤ n) :
    (read file pos n).take m = read file pos m := by
  rw [read, read, List.take_take, Nat.min_eq_left short]

theorem drop_read (file : List α) (pos m n : Nat) :
    (read file pos n).drop m = read file (pos + m) (n - m) := by
  rw [read, read, List.drop_take, List.drop_drop]

/-- All of a file. -/
theorem read_all (file : List α) {n : Nat} (enough : file.length ≤ n) : read file 0 n = file := by
  rw [read, List.drop_zero, List.take_of_length_le enough]

/-- A write at the end of a file. -/
theorem write_end (fill : α) (file bytes : List α) :
    write fill file file.length bytes = file ++ bytes := by
  simp [write]

/-- A write leaves every range as it is that it does not overlap. -/
theorem read_write_frame (apart : pos + n ≤ offset ∨ offset + bytes.length ≤ pos)
    (inFile : pos + n ≤ file.length) :
    read (write fill file offset bytes) pos n = read file pos n := by
  refine List.ext_getElem? fun i => ?_
  rw [getElem?_read, getElem?_read]
  split
  · rw [getElem?_write _ _ _ _ (.inl (by omega)), if_neg (by omega)]
  · rfl

/-- A write directly behind a range extends what is read from its start. -/
theorem read_write_extend (behind : offset = pos + n) (inFile : offset ≤ file.length) :
    read (write fill file offset bytes) pos (n + bytes.length) = read file pos n ++ bytes := by
  refine List.ext_getElem? fun i => ?_
  have length : (read file pos n).length = n := by
    rw [length_read]
    omega
  rw [getElem?_read]
  by_cases old : i < n
  · rw [if_pos (by omega), getElem?_write _ _ _ _ (.inl (by omega)), if_neg (by omega),
      List.getElem?_append_left (by omega), getElem?_read, if_pos old]
  · rw [List.getElem?_append_right (by omega), length]
    by_cases new : i < n + bytes.length
    · rw [if_pos new, getElem?_write _ _ _ _ (.inr (by omega)), if_pos ⟨by omega, by omega⟩]
      congr 1
      omega
    · rw [if_neg new, List.getElem?_eq_none (by omega)]

/-- The second of three parts of a file. -/
theorem read_middle (first middle last : List α) :
    read (first ++ middle ++ last) first.length middle.length = middle := by
  simp [read]

end FileBytes
