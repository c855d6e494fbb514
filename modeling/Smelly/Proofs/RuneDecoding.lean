/-
Module: Smelly.Proofs.RuneDecoding
Purpose: The first rune that is read from an encoded character, with more bytes behind it.
Trusted boundary: none
-/
import Smelly.Core.WordMotion
import Mathlib.Tactic.SplitIfs
import Mathlib.Algebra.Ring.Nat

namespace Smelly

namespace Readline

/-- The bits of a continuation byte are those that it was made of. -/
theorem continuationBits_ofNat (n : Nat) :
    continuationBits (UInt8.ofNat (n % 0x40 + 0x80)) = UInt32.ofNat (n % 0x40) := by
  have checked : ∀ x < 64, continuationBits (UInt8.ofNat (x + 0x80)) = UInt32.ofNat x := by
    decide +kernel
  exact checked (n % 0x40) (Nat.mod_lt n (by decide))

theorem toNat_word {n : Nat} (small : n < 2 ^ 32) : (UInt32.ofNat n).toNat = n :=
  UInt32.toNat_ofNat_of_lt' small

theorem toNat_byte {n : Nat} (small : n < 256) : (UInt8.ofNat n).toNat = n :=
  UInt8.toNat_ofNat_of_lt' small

/-- Bits put behind others. -/
theorem shiftLeft_or {a b k : Nat} (bits : b < 2 ^ k) (few : k < 32)
    (range : a * 2 ^ k + b < 2 ^ 32) :
    UInt32.ofNat a <<< UInt32.ofNat k ||| UInt32.ofNat b = UInt32.ofNat (a * 2 ^ k + b) := by
  have high : a ≤ a * 2 ^ k := Nat.le_mul_of_pos_right a (Nat.two_pow_pos k)
  have front := toNat_word (n := a) (by omega)
  have back := toNat_word (n := b) (by omega)
  have places := toNat_word (n := k) (by omega)
  apply UInt32.toNat_inj.1
  rw [UInt32.toNat_or, UInt32.toNat_shiftLeft, front, back, places, toNat_word range,
    Nat.mod_eq_of_lt few, Nat.shiftLeft_eq, Nat.mod_eq_of_lt (a := a * 2 ^ k) (by omega),
    ← Nat.shiftLeft_eq, ← Nat.shiftLeft_add_eq_or_of_lt bits, Nat.shiftLeft_eq]

theorem decodeRune_two {l m : Nat} (rest : Bytes) (low : 0xc2 ≤ l) (high : l < 0xe0)
    (low' : 0x80 ≤ m) (high' : m < 0xc0) :
    decodeRune (UInt8.ofNat l :: UInt8.ofNat m :: rest) =
      ((UInt8.ofNat l &&& 0x1f).toUInt32 <<< 6 ||| continuationBits (UInt8.ofNat m), 2) := by
  unfold decodeRune
  simp only [UInt8.lt_iff_toNat_lt, UInt8.le_iff_toNat_le, ← UInt8.toNat_inj,
    toNat_byte (show l < 256 by omega), toNat_byte (show m < 256 by omega), UInt8.reduceToNat]
  rw [if_neg (by omega), if_neg, if_pos high]
  rintro (below | above | refused)
  · omega
  · omega
  · apply refused
    split_ifs <;> omega

theorem decodeRune_three {l m k : Nat} (rest : Bytes) (low : 0xe0 ≤ l) (high : l < 0xf0)
    (low' : 0x80 ≤ m) (high' : m < 0xc0) (first : l = 0xe0 → 0xa0 ≤ m)
    (surrogates : l = 0xed → m < 0xa0) (least : 0x80 ≤ k) (most : k < 0xc0) :
    decodeRune (UInt8.ofNat l :: UInt8.ofNat m :: UInt8.ofNat k :: rest) =
      ((UInt8.ofNat l &&& 0x0f).toUInt32 <<< 12 ||| continuationBits (UInt8.ofNat m) <<< 6 |||
        continuationBits (UInt8.ofNat k), 3) := by
  unfold decodeRune
  simp only [UInt8.lt_iff_toNat_lt, UInt8.le_iff_toNat_le, ← UInt8.toNat_inj,
    toNat_byte (show l < 256 by omega), toNat_byte (show m < 256 by omega),
    toNat_byte (show k < 256 by omega), UInt8.reduceToNat]
  rw [if_neg (by omega), if_neg, if_neg (by omega), if_neg (by omega), if_pos high]
  rintro (below | above | refused)
  · omega
  · omega
  · apply refused
    split_ifs <;> omega

theorem decodeRune_four {l m k j : Nat} (rest : Bytes) (low : 0xf0 ≤ l) (high : l < 0xf5)
    (low' : 0x80 ≤ m) (high' : m < 0xc0) (first : l = 0xf0 → 0x90 ≤ m)
    (last : l = 0xf4 → m < 0x90) (least : 0x80 ≤ k) (most : k < 0xc0)
    (lowest : 0x80 ≤ j) (highest : j < 0xc0) :
    decodeRune (UInt8.ofNat l :: UInt8.ofNat m :: UInt8.ofNat k :: UInt8.ofNat j :: rest) =
      ((UInt8.ofNat l &&& 0x07).toUInt32 <<< 18 ||| continuationBits (UInt8.ofNat m) <<< 12 |||
        continuationBits (UInt8.ofNat k) <<< 6 ||| continuationBits (UInt8.ofNat j), 4) := by
  unfold decodeRune
  simp only [UInt8.lt_iff_toNat_lt, UInt8.le_iff_toNat_le, ← UInt8.toNat_inj,
    toNat_byte (show l < 256 by omega), toNat_byte (show m < 256 by omega),
    toNat_byte (show k < 256 by omega), toNat_byte (show j < 256 by omega), UInt8.reduceToNat]
  rw [if_neg (by omega), if_neg, if_neg (by omega), if_neg (by omega), if_neg (by omega),
    if_neg (by omega)]
  rintro (below | above | refused)
  · omega
  · omega
  · apply refused
    split_ifs <;> omega

/-- An encoded character is read back, whatever follows it. -/
theorem decodeRune_utf8EncodeChar (c : Char) (rest : Bytes) :
    decodeRune (String.utf8EncodeChar c ++ rest) = (c.val, (String.utf8EncodeChar c).length) := by
  obtain ⟨v, hv⟩ : ∃ v, v = c.val.toNat := ⟨_, rfl⟩
  have value : c.val = UInt32.ofNat v := by rw [hv, UInt32.ofNat_toNat]
  have scalar : v < 0xd800 ∨ (0xdfff < v ∧ v < 0x110000) := by
    have valid := c.valid
    rw [UInt32.isValidChar, Nat.isValidChar] at valid
    omega
  unfold String.utf8EncodeChar
  rw [← hv, value]
  dsimp only
  by_cases one : v ≤ 0x7f
  · rw [if_pos one]
    have ascii : UInt8.ofNat v < 0x80 := by
      rw [UInt8.lt_iff_toNat_lt, toNat_byte (by omega)]
      show v < 128
      omega
    have same : (UInt8.ofNat v).toUInt32 = UInt32.ofNat v := by
      apply UInt32.toNat_inj.1
      rw [UInt8.toNat_toUInt32, toNat_byte (by omega), toNat_word (by omega)]
    show decodeRune (UInt8.ofNat v :: rest) = _
    unfold decodeRune
    dsimp only
    rw [if_pos ascii, same]
    rfl
  rw [if_neg one]
  by_cases two : v ≤ 0x7ff
  · rw [if_pos two]
    have lead : ∀ x < 0x20, (UInt8.ofNat (x + 0xc0) &&& 0x1f).toUInt32 = UInt32.ofNat x := by
      decide +kernel
    show decodeRune (UInt8.ofNat (v / 64 % 0x20 + 0xc0) :: UInt8.ofNat (v % 0x40 + 0x80) :: rest) =
      (UInt32.ofNat v, 2)
    rw [decodeRune_two rest (by omega) (by omega) (by omega) (by omega),
      lead (v / 64 % 0x20) (by omega), continuationBits_ofNat]
    congr 1
    rw [show (6 : UInt32) = UInt32.ofNat 6 from rfl, shiftLeft_or (by omega) (by decide) (by omega)]
    congr 1
    omega
  rw [if_neg two]
  by_cases three : v ≤ 0xffff
  · rw [if_pos three]
    have lead : ∀ x < 0x10, (UInt8.ofNat (x + 0xe0) &&& 0x0f).toUInt32 = UInt32.ofNat x := by
      decide +kernel
    show decodeRune (UInt8.ofNat (v / 4096 % 0x10 + 0xe0) :: UInt8.ofNat (v / 64 % 0x40 + 0x80) ::
      UInt8.ofNat (v % 0x40 + 0x80) :: rest) = (UInt32.ofNat v, 3)
    rw [decodeRune_three rest (by omega) (by omega) (by omega) (by omega) (by omega) (by omega)
        (by omega) (by omega),
      lead (v / 4096 % 0x10) (by omega), continuationBits_ofNat, continuationBits_ofNat]
    congr 1
    rw [UInt32.or_assoc, show (6 : UInt32) = UInt32.ofNat 6 from rfl,
      show (12 : UInt32) = UInt32.ofNat 12 from rfl, shiftLeft_or (by omega) (by decide) (by omega),
      shiftLeft_or (by omega) (by decide) (by omega)]
    congr 1
    omega
  · rw [if_neg three]
    have lead : ∀ x < 0x08, (UInt8.ofNat (x + 0xf0) &&& 0x07).toUInt32 = UInt32.ofNat x := by
      decide +kernel
    show decodeRune (UInt8.ofNat (v / 262144 % 0x08 + 0xf0) ::
      UInt8.ofNat (v / 4096 % 0x40 + 0x80) :: UInt8.ofNat (v / 64 % 0x40 + 0x80) ::
        UInt8.ofNat (v % 0x40 + 0x80) :: rest) = (UInt32.ofNat v, 4)
    rw [decodeRune_four rest (by omega) (by omega) (by omega) (by omega) (by omega) (by omega)
        (by omega) (by omega) (by omega) (by omega),
      lead (v / 262144 % 0x08) (by omega), continuationBits_ofNat, continuationBits_ofNat,
      continuationBits_ofNat]
    congr 1
    rw [UInt32.or_assoc, UInt32.or_assoc, show (6 : UInt32) = UInt32.ofNat 6 from rfl,
      show (12 : UInt32) = UInt32.ofNat 12 from rfl, show (18 : UInt32) = UInt32.ofNat 18 from rfl,
      shiftLeft_or (by omega) (by decide) (by omega),
      shiftLeft_or (by omega) (by decide) (by omega),
      shiftLeft_or (by omega) (by decide) (by omega)]
    congr 1
    omega
end Readline

end Smelly
