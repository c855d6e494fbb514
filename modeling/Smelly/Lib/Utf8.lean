/-
Module: Smelly.Lib.Utf8
Purpose: The bytes of a text in UTF-8: which byte starts a character, which ones continue it.
Trusted boundary: none
-/
import Mathlib.Data.List.Basic

namespace Utf8

/-- The UTF-8 bytes of a text. -/
def utf8 (text : List Char) : List UInt8 := text.flatMap String.utf8EncodeChar

@[simp] theorem utf8_append (first second : List Char) :
    utf8 (first ++ second) = utf8 first ++ utf8 second := List.flatMap_append

@[simp] theorem utf8_cons (c : Char) (text : List Char) :
    utf8 (c :: text) = String.utf8EncodeChar c ++ utf8 text := rfl

theorem utf8EncodeChar_of_ascii {c : Char} (ascii : c.val.toNat < 0x80) :
    String.utf8EncodeChar c = [UInt8.ofNat c.val.toNat] := by
  unfold String.utf8EncodeChar
  exact if_pos (by omega)

/-- A character beyond ASCII is a byte from 0xC2 on and bytes from 0x80 to 0xBF.  The first one is
0xC2 for the characters up to U+00BF, and these have their own number as the other byte. -/
theorem utf8EncodeChar_of_wide {c : Char} (wide : 0x80 ≤ c.val.toNat) :
    ∃ lead tail, String.utf8EncodeChar c = UInt8.ofNat lead :: tail ∧ tail ≠ [] ∧
      0xc2 ≤ lead ∧ lead < 0x100 ∧
      (∀ b ∈ tail, ∃ n, b = UInt8.ofNat n ∧ 0x80 ≤ n ∧ n < 0xc0) ∧
      (lead = 0xc2 ↔ c.val.toNat < 0xc0) ∧
      (c.val.toNat < 0xc0 → tail = [UInt8.ofNat c.val.toNat]) := by
  obtain ⟨v, hv⟩ : ∃ v, v = c.val.toNat := ⟨_, rfl⟩
  have tail_byte : ∀ m, ∃ n, UInt8.ofNat (m % 0x40 + 0x80) = UInt8.ofNat n ∧ 0x80 ≤ n ∧ n < 0xc0 :=
    fun m => ⟨_, rfl, by omega, by omega⟩
  have few : v < 0x110000 := by
    have scalar := c.valid
    rw [UInt32.isValidChar, Nat.isValidChar] at scalar
    omega
  unfold String.utf8EncodeChar
  rw [← hv] at wide ⊢
  simp only
  rw [if_neg (by omega)]
  by_cases two : v ≤ 0x7ff
  · rw [if_pos two]
    refine ⟨_, _, rfl, List.cons_ne_nil _ _, by omega, by omega, ?_, by omega, ?_⟩
    · exact List.forall_mem_singleton.2 (tail_byte v)
    · intro small
      rw [show v % 0x40 + 0x80 = v by omega]
  · rw [if_neg two]
    by_cases three : v ≤ 0xffff
    · rw [if_pos three]
      refine ⟨_, _, rfl, List.cons_ne_nil _ _, by omega, by omega, ?_, by omega, by omega⟩
      exact List.forall_mem_cons.2 ⟨tail_byte _, List.forall_mem_singleton.2 (tail_byte v)⟩
    · rw [if_neg three]
      refine ⟨_, _, rfl, List.cons_ne_nil _ _, by omega, by omega, ?_, by omega, by omega⟩
      exact List.forall_mem_cons.2 ⟨tail_byte _, List.forall_mem_cons.2
        ⟨tail_byte _, List.forall_mem_singleton.2 (tail_byte v)⟩⟩

/-- The bytes of a character beyond ASCII are 0x80 and above. -/
theorem toNat_of_mem_utf8EncodeChar {c : Char} {b : UInt8} (mem : b ∈ String.utf8EncodeChar c)
    (ascii : b.toNat < 0x80) : c.val.toNat = b.toNat := by
  rcases Nat.lt_or_ge c.val.toNat 0x80 with small | wide
  · rw [utf8EncodeChar_of_ascii small] at mem
    rw [List.mem_singleton.1 mem, UInt8.toNat_ofNat']
    omega
  · obtain ⟨lead, tail, bytes, -, low, high, continues, -⟩ := utf8EncodeChar_of_wide wide
    rw [bytes] at mem
    rcases List.mem_cons.1 mem with rfl | inTail
    · rw [UInt8.toNat_ofNat'] at ascii
      omega
    · obtain ⟨n, rfl, above, below⟩ := continues b inTail
      rw [UInt8.toNat_ofNat'] at ascii
      omega

end Utf8
