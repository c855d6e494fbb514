/-
Module: Smelly.Proofs.Utf8Decoding
Purpose: The decoding automaton on the UTF-8 bytes of a character: it accepts at the last of them,
  with the character.
Trusted boundary: none
-/
import Smelly.Core.Charsets
import Mathlib.Algebra.Ring.Nat

namespace Smelly

/-- The state of the decoder after the first byte of a character. -/
theorem decodeUtf8_lead (codep : UInt32) {n : Nat} (byte : n < 256) :
    decodeUtf8 utf8Accept codep (UInt8.ofNat n) =
      if n < 0x80 then (0, UInt32.ofNat n)
      else if n < 0xc2 then (1, (decodeUtf8 utf8Accept 0 (UInt8.ofNat n)).2)
      else if n < 0xe0 then (2, UInt32.ofNat (n % 0x20))
      else if n < 0xf0 then
        (if n = 0xe0 then 4 else if n = 0xed then 5 else 3, UInt32.ofNat (n % 0x10))
      else if n < 0xf5 then
        (if n = 0xf0 then 6 else if n = 0xf4 then 8 else 7, UInt32.ofNat (n % 0x08))
      else (1, (decodeUtf8 utf8Accept 0 (UInt8.ofNat n)).2) := by
  have checked : ∀ n < 256, decodeUtf8 utf8Accept 0 (UInt8.ofNat n) =
      if n < 0x80 then (0, UInt32.ofNat n)
      else if n < 0xc2 then (1, (decodeUtf8 utf8Accept 0 (UInt8.ofNat n)).2)
      else if n < 0xe0 then (2, UInt32.ofNat (n % 0x20))
      else if n < 0xf0 then
        (if n = 0xe0 then 4 else if n = 0xed then 5 else 3, UInt32.ofNat (n % 0x10))
      else if n < 0xf5 then
        (if n = 0xf0 then 6 else if n = 0xf4 then 8 else 7, UInt32.ofNat (n % 0x08))
      else (1, (decodeUtf8 utf8Accept 0 (UInt8.ofNat n)).2) := by
    decide +kernel
  exact checked n byte

/-- The class of a byte that continues a character. -/
theorem utf8Type_tail {n : Nat} (low : 0x80 ≤ n) (high : n < 0xc0) :
    utf8Type (UInt8.ofNat n) = if n < 0x90 then 1 else if n < 0xa0 then 9 else 7 := by
  have checked : ∀ n < 0xc0, 0x80 ≤ n →
      utf8Type (UInt8.ofNat n) = if n < 0x90 then 1 else if n < 0xa0 then 9 else 7 := by
    decide +kernel
  exact checked n high low

theorem decodeUtf8_tail_snd {state v n : Nat} (started : state ≠ utf8Accept) (few : v < 2 ^ 26)
    (low : 0x80 ≤ n) (high : n < 0xc0) :
    (decodeUtf8 state (UInt32.ofNat v) (UInt8.ofNat n)).2 = UInt32.ofNat (v * 64 + n % 64) := by
  simp only [decodeUtf8, if_pos started]
  apply UInt32.toNat_inj.1
  have six : 6 % 32 = 6 := rfl
  have mask : (0x3f : Nat) = 2 ^ 6 - 1 := rfl
  have small : n % 2 ^ 6 < 2 ^ 6 := Nat.mod_lt _ (by decide)
  rw [UInt32.toNat_or, UInt32.toNat_and, UInt32.toNat_shiftLeft, UInt32.toNat_ofNat',
    UInt8.toNat_toUInt32, UInt8.toNat_ofNat', UInt32.toNat_ofNat']
  rw [Nat.mod_eq_of_lt (show n < 2 ^ 8 by omega), Nat.mod_eq_of_lt (show v < 2 ^ 32 by omega)]
  show (n &&& 0x3f ||| v <<< (6 % 32) % 2 ^ 32) = _
  rw [mask, Nat.and_two_pow_sub_one_eq_mod, six, Nat.or_comm]
  have shifted : v <<< 6 % 2 ^ 32 = v <<< 6 := by
    rw [Nat.shiftLeft_eq]
    omega
  rw [shifted, ← Nat.shiftLeft_add_eq_or_of_lt small, Nat.shiftLeft_eq]
  omega

/-- One more byte of a character. -/
theorem decodeUtf8_tail {state v n : Nat} (started : state ≠ utf8Accept) (few : v < 2 ^ 26)
    (low : 0x80 ≤ n) (high : n < 0xc0) :
    decodeUtf8 state (UInt32.ofNat v) (UInt8.ofNat n) =
      (utf8Data.getD (256 + state * 16 + if n < 0x90 then 1 else if n < 0xa0 then 9 else 7)
        utf8Reject, UInt32.ofNat (v * 64 + n % 64)) := by
  apply Prod.ext
  · simp only [decodeUtf8, utf8Type_tail low high]
  · exact decodeUtf8_tail_snd started few low high

/-- The bytes are those of one character: the decoder accepts at the last of them, with the
character, and not before. -/
def Decodes (state : Nat) (codep : UInt32) : Bytes → UInt32 → Prop
  | [], _ => False
  | [b], ch => decodeUtf8 state codep b = (utf8Accept, ch)
  | b :: rest, ch =>
    (decodeUtf8 state codep b).1 ≠ utf8Accept ∧ (decodeUtf8 state codep b).1 ≠ utf8Reject ∧
      Decodes (decodeUtf8 state codep b).1 (decodeUtf8 state codep b).2 rest ch

theorem decodes_last {state : Nat} {v n ch : Nat} (started : state = 2) (few : v < 2 ^ 26)
    (low : 0x80 ≤ n) (high : n < 0xc0) (code : v * 64 + n % 64 = ch) :
    Decodes state (UInt32.ofNat v) [UInt8.ofNat n] (UInt32.ofNat ch) := by
  subst started code
  rw [Decodes, decodeUtf8_tail (by decide) few low high]
  split
  · rfl
  · split <;> rfl

theorem decodes_next {state next v n ch : Nat} {rest : Bytes} {b : UInt8}
    (started : state ≠ utf8Accept) (few : v < 2 ^ 26) (low : 0x80 ≤ n) (high : n < 0xc0)
    (entry : utf8Data.getD (256 + state * 16 + if n < 0x90 then 1 else if n < 0xa0 then 9 else 7)
        utf8Reject = next)
    (more : next ≠ utf8Accept) (valid : next ≠ utf8Reject)
    (later : Decodes next (UInt32.ofNat (v * 64 + n % 64)) (b :: rest) (UInt32.ofNat ch)) :
    Decodes state (UInt32.ofNat v) (UInt8.ofNat n :: b :: rest) (UInt32.ofNat ch) := by
  have step := decodeUtf8_tail started few low high
  rw [entry] at step
  rw [Decodes, step]
  · exact ⟨more, valid, later⟩
  · exact fun h => nomatch h

theorem decodes_first {state v n ch : Nat} {codep : UInt32} {rest : Bytes} {b : UInt8}
    (step : decodeUtf8 utf8Accept codep (UInt8.ofNat n) = (state, UInt32.ofNat v))
    (more : state ≠ utf8Accept) (valid : state ≠ utf8Reject)
    (later : Decodes state (UInt32.ofNat v) (b :: rest) (UInt32.ofNat ch)) :
    Decodes utf8Accept codep (UInt8.ofNat n :: b :: rest) (UInt32.ofNat ch) := by
  rw [Decodes, step]
  · exact ⟨more, valid, later⟩
  · exact fun h => nomatch h

/-- The UTF-8 bytes of a character decode to it. -/
theorem decodes_utf8EncodeChar (c : Char) (codep : UInt32) :
    Decodes utf8Accept codep (String.utf8EncodeChar c) c.val := by
  have scalar := c.valid
  rw [UInt32.isValidChar, Nat.isValidChar] at scalar
  have val : c.val = UInt32.ofNat c.val.toNat := UInt32.ofNat_toNat.symm
  rw [val]
  unfold String.utf8EncodeChar
  obtain ⟨v, hv⟩ : ∃ v, v = c.val.toNat := ⟨_, rfl⟩
  rw [← hv] at scalar ⊢
  simp only
  by_cases one : v ≤ 0x7f
  · rw [if_pos one, Decodes, decodeUtf8_lead _ (by omega), if_pos (by omega)]
  · rw [if_neg one]
    by_cases two : v ≤ 0x7ff
    · rw [if_pos two]
      have lead := decodeUtf8_lead codep (show v / 64 % 0x20 + 0xc0 < 256 by omega)
      rw [if_neg (by omega), if_neg (by omega), if_pos (by omega)] at lead
      exact decodes_first lead (by decide) (by decide)
        (decodes_last rfl (by omega) (by omega) (by omega) (by omega))
    · rw [if_neg two]
      by_cases three : v ≤ 0xffff
      · rw [if_pos three]
        have lead := decodeUtf8_lead codep (show v / 4096 % 0x10 + 0xe0 < 256 by omega)
        rw [if_neg (by omega), if_neg (by omega), if_neg (by omega), if_pos (by omega)] at lead
        have last : Decodes 2
            (UInt32.ofNat ((v / 4096 % 0x10 + 0xe0) % 0x10 * 64 + (v / 64 % 0x40 + 0x80) % 64))
            [UInt8.ofNat (v % 0x40 + 0x80)] (UInt32.ofNat v) :=
          decodes_last rfl (by omega) (by omega) (by omega) (by omega)
        split at lead
        · refine decodes_first lead (by decide) (by decide)
            (decodes_next (by decide) (by omega) (by omega) (by omega) ?_ (by decide) (by decide)
              last)
          rw [if_neg (by omega), if_neg (by omega)]
          rfl
        · split at lead
          · refine decodes_first lead (by decide) (by decide)
              (decodes_next (by decide) (by omega) (by omega) (by omega) ?_ (by decide) (by decide)
                last)
            split
            · rfl
            · rw [if_pos (by omega)]
              rfl
          · refine decodes_first lead (by decide) (by decide)
              (decodes_next (by decide) (by omega) (by omega) (by omega) ?_ (by decide) (by decide)
                last)
            split
            · rfl
            · split <;> rfl
      · rw [if_neg three]
        have lead := decodeUtf8_lead codep (show v / 262144 % 0x08 + 0xf0 < 256 by omega)
        rw [if_neg (by omega), if_neg (by omega), if_neg (by omega), if_neg (by omega),
          if_pos (by omega)] at lead
        have last : Decodes 2
            (UInt32.ofNat (((v / 262144 % 0x08 + 0xf0) % 0x08 * 64 +
              (v / 4096 % 0x40 + 0x80) % 64) * 64 + (v / 64 % 0x40 + 0x80) % 64))
            [UInt8.ofNat (v % 0x40 + 0x80)] (UInt32.ofNat v) :=
          decodes_last rfl (by omega) (by omega) (by omega) (by omega)
        have third : Decodes 3
            (UInt32.ofNat ((v / 262144 % 0x08 + 0xf0) % 0x08 * 64 +
              (v / 4096 % 0x40 + 0x80) % 64))
            [UInt8.ofNat (v / 64 % 0x40 + 0x80), UInt8.ofNat (v % 0x40 + 0x80)]
            (UInt32.ofNat v) := by
          refine decodes_next (by decide) (by omega) (by omega) (by omega) ?_ (by decide)
            (by decide) last
          split
          · rfl
          · split <;> rfl
        split at lead
        · refine decodes_first lead (by decide) (by decide)
            (decodes_next (by decide) (by omega) (by omega) (by omega) ?_ (by decide) (by decide)
              third)
          rw [if_neg (by omega)]
          split <;> rfl
        · split at lead
          · refine decodes_first lead (by decide) (by decide)
              (decodes_next (by decide) (by omega) (by omega) (by omega) ?_ (by decide) (by decide)
                third)
            rw [if_pos (by omega)]
            rfl
          · refine decodes_first lead (by decide) (by decide)
              (decodes_next (by decide) (by omega) (by omega) (by omega) ?_ (by decide) (by decide)
                third)
            split
            · rfl
            · split <;> rfl

end Smelly
