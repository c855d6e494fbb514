/-
Module: Smelly.Lib.Base64
Purpose: The standard base64 encoding with padding, and its decoder.
Trusted boundary: none
-/
import Mathlib.Data.List.Basic

namespace Base64

/-- The character of a value below 64. -/
def sextet (n : Nat) : Char :=
  if n < 26 then Char.ofNat (65 + n)
  else if n < 52 then Char.ofNat (71 + n)
  else if n < 62 then Char.ofNat (n - 4)
  else if n = 62 then '+'
  else '/'

/-- The value of a character of the alphabet. -/
def value (c : Char) : Option Nat :=
  if 'A' ≤ c ∧ c ≤ 'Z' then some (c.toNat - 65)
  else if 'a' ≤ c ∧ c ≤ 'z' then some (c.toNat - 71)
  else if '0' ≤ c ∧ c ≤ '9' then some (c.toNat + 4)
  else if c = '+' then some 62
  else if c = '/' then some 63
  else none

/-- Three bytes are four characters; the last of them are padding where bytes are missing. -/
def encode : List UInt8 → List Char
  | [] => []
  | [a] => [sextet (a.toNat / 4), sextet (a.toNat % 4 * 16), '=', '=']
  | [a, b] =>
    [sextet (a.toNat / 4), sextet (a.toNat % 4 * 16 + b.toNat / 16), sextet (b.toNat % 16 * 4), '=']
  | a :: b :: c :: rest =>
    sextet (a.toNat / 4) :: sextet (a.toNat % 4 * 16 + b.toNat / 16) ::
      sextet (b.toNat % 16 * 4 + c.toNat / 64) :: sextet (c.toNat % 64) :: encode rest

/-- The bytes of four characters at a time; padding ends the text. -/
def decode : List Char → Option (List UInt8)
  | [] => some []
  | [w, x, '=', '='] => do
      let w ← value w
      let x ← value x
      some [UInt8.ofNat (w * 4 + x / 16)]
  | [w, x, y, '='] => do
      let w ← value w
      let x ← value x
      let y ← value y
      some [UInt8.ofNat (w * 4 + x / 16), UInt8.ofNat (x % 16 * 16 + y / 4)]
  | w :: x :: y :: z :: rest => do
      let w ← value w
      let x ← value x
      let y ← value y
      let z ← value z
      let rest ← decode rest
      some (UInt8.ofNat (w * 4 + x / 16) :: UInt8.ofNat (x % 16 * 16 + y / 4) ::
        UInt8.ofNat (y % 4 * 64 + z) :: rest)
  | _ => none

theorem value_sextet {n : Nat} (small : n < 64) : value (sextet n) = some n := by
  have checked : ∀ n : Fin 64, value (sextet n) = some n.val := by decide
  exact checked ⟨n, small⟩

theorem sextet_ne_padding {n : Nat} (small : n < 64) : sextet n ≠ '=' := by
  intro same
  have found := value_sextet small
  have outside : value '=' = none := by decide
  rw [same, outside] at found
  cases found

theorem ofNat_toNat {a : UInt8} {n : Nat} (same : n = a.toNat) : UInt8.ofNat n = a := by
  rw [same, UInt8.ofNat_toNat]

/-- Decoding gives back what was encoded. -/
theorem decode_encode (data : List UInt8) : decode (encode data) = some data := by
  induction data using encode.induct with
  | case1 => rfl
  | case2 a =>
    have range := a.toNat_lt
    rw [encode, decode, value_sextet (by omega), value_sextet (by omega)]
    simp only [Option.bind_eq_bind, Option.bind_some]
    rw [ofNat_toNat (a := a) (by omega)]
  | case3 a b =>
    have range := a.toNat_lt
    have range' := b.toNat_lt
    rw [encode, decode, value_sextet (by omega), value_sextet (by omega),
      value_sextet (by omega)]
    · simp only [Option.bind_eq_bind, Option.bind_some]
      rw [ofNat_toNat (a := a) (by omega), ofNat_toNat (a := b) (by omega)]
    · exact sextet_ne_padding (by omega)
  | case4 a b c rest ih =>
    have range := a.toNat_lt
    have range' := b.toNat_lt
    have range'' := c.toNat_lt
    rw [encode, decode, value_sextet (by omega), value_sextet (by omega),
      value_sextet (by omega), value_sextet (by omega), ih]
    · simp only [Option.bind_eq_bind, Option.bind_some]
      rw [ofNat_toNat (a := a) (by omega), ofNat_toNat (a := b) (by omega),
        ofNat_toNat (a := c) (by omega)]
    · exact fun _ last => absurd last (sextet_ne_padding (by omega))
    · exact fun last => absurd last (sextet_ne_padding (by omega))

theorem length_encode (data : List UInt8) : (encode data).length = (data.length + 2) / 3 * 4 := by
  induction data using encode.induct with
  | case1 => rfl
  | case2 a => simp [encode]
  | case3 a b => simp [encode]
  | case4 a b c rest ih =>
    simp only [encode, List.length_cons, ih]
    omega

theorem encode_eq_nil {data : List UInt8} : encode data = [] ↔ data = [] := by
  constructor
  · intro empty
    have decoded := decode_encode data
    rw [empty] at decoded
    exact (Option.some.inj decoded).symm
  · rintro rfl
    rfl

/-- The encoding holds the alphabet and padding only. -/
theorem mem_encode {data : List UInt8} {c : Char} (h : c ∈ encode data) :
    (∃ n < 64, c = sextet n) ∨ c = '=' := by
  induction data using encode.induct with
  | case1 => cases h
  | case2 a =>
    have range := a.toNat_lt
    simp only [encode, List.mem_cons, List.not_mem_nil, or_false] at h
    rcases h with rfl | rfl | rfl | rfl
    · exact .inl ⟨_, by omega, rfl⟩
    · exact .inl ⟨_, by omega, rfl⟩
    · exact .inr rfl
    · exact .inr rfl
  | case3 a b =>
    have range := a.toNat_lt
    have range' := b.toNat_lt
    simp only [encode, List.mem_cons, List.not_mem_nil, or_false] at h
    rcases h with rfl | rfl | rfl | rfl
    · exact .inl ⟨_, by omega, rfl⟩
    · exact .inl ⟨_, by omega, rfl⟩
    · exact .inl ⟨_, by omega, rfl⟩
    · exact .inr rfl
  | case4 a b c rest ih =>
    have range := a.toNat_lt
    have range' := b.toNat_lt
    have range'' := c.toNat_lt
    simp only [encode, List.mem_cons] at h
    rcases h with rfl | rfl | rfl | rfl | later
    · exact .inl ⟨_, by omega, rfl⟩
    · exact .inl ⟨_, by omega, rfl⟩
    · exact .inl ⟨_, by omega, rfl⟩
    · exact .inl ⟨_, by omega, rfl⟩
    · exact ih later

/-- A character outside the alphabet is not in an encoding. -/
theorem ne_of_mem_encode {data : List UInt8} {c other : Char} (h : c ∈ encode data)
    (outside : value other = none) (padding : other ≠ '=') : c ≠ other := by
  rintro rfl
  rcases mem_encode h with ⟨n, small, rfl⟩ | rfl
  · exact absurd ((value_sextet small).symm.trans outside) (by simp)
  · exact padding rfl

end Base64
