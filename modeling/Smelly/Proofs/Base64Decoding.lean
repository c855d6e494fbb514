/-
Module: Smelly.Proofs.Base64Decoding
Purpose: The base64 decoder gives back what was encoded, and stores nothing behind the bytes it
  announces.
Trusted boundary: none
-/
import Smelly.Core.Charsets
import Smelly.Lib.Base64
import Mathlib.Algebra.Ring.Nat

namespace Smelly

open Checked

/-! ### The stores of the loop -/

/-- `dest` and `j` when `stored` has been stored from the front of `dest` on, as far as it lies
below `destSz`. -/
def storedIn (destSz : Nat) (dest stored : Bytes) : Bytes × Nat :=
  let front := stored.take destSz
  (front ++ dest.drop front.length, front.length)

theorem storeByte_eq {destSz : Nat} {dest stored : Bytes} (fits : destSz ≤ dest.length)
    (byte : UInt8) :
    storeByte destSz byte (storedIn destSz dest stored) =
      some (storedIn destSz dest (stored ++ [byte])) := by
  unfold storeByte storedIn
  dsimp only
  rcases Nat.lt_or_ge stored.length destSz with room | full
  · have kept : stored.take destSz = stored := List.take_of_length_le (Nat.le_of_lt room)
    have all : (stored ++ [byte]).take destSz = stored ++ [byte] := by
      apply List.take_of_length_le
      rw [List.length_append, List.length_singleton]
      exact room
    have inside : stored.length < dest.length := Nat.lt_of_lt_of_le room fits
    have owned : stored.length < (stored ++ dest.drop stored.length).length := by
      rw [List.length_append, List.length_drop]
      omega
    rw [kept, all, if_pos room, setAt_of_lt owned, List.set_append_right _ _ (Nat.le_refl _),
      Nat.sub_self, List.drop_eq_getElem_cons inside, List.set_cons_zero, List.length_append,
      List.length_singleton, List.append_assoc]
    rfl
  · have same : (stored ++ [byte]).take destSz = stored.take destSz :=
      List.take_append_of_le_length full
    have limit : ¬ (stored.take destSz).length < destSz := by
      rw [List.length_take]
      omega
    rw [same, if_neg limit]

theorem base64Triples_short {src : List UInt32}
    (short : ∀ a b c d rest, src = a :: b :: c :: d :: rest → False) :
    src.length < 4 ∧ base64Triples src = [] := by
  refine ⟨?_, base64Triples.eq_2 src short⟩
  match src, short with
  | [], _ => decide
  | [_], _ => simp
  | [_, _], _ => simp
  | [_, _, _], _ => simp
  | a :: b :: c :: d :: rest, short => exact (short a b c d rest rfl).elim

/-- The loop stores the bytes of its groups of four characters one after the other. -/
theorem base64Loop_eq {destSz : Nat} {dest : Bytes} (fits : destSz ≤ dest.length)
    (src : List UInt32) (groups : src.length % 4 = 0) (stored : Bytes) :
    base64Loop destSz src (storedIn destSz dest stored) =
      some (storedIn destSz dest (stored ++ base64Triples src)) := by
  induction src using base64Triples.induct generalizing stored with
  | case1 a b c d rest ih =>
    have groups' : rest.length % 4 = 0 := by
      simp only [List.length_cons] at groups
      omega
    rw [base64Loop, base64Triples, storeByte_eq fits, Option.bind_eq_bind, Option.bind_some,
      storeByte_eq fits, Option.bind_some, storeByte_eq fits, Option.bind_some, ih groups']
    simp only [List.append_assoc, List.cons_append, List.nil_append]
  | case2 src short =>
    obtain ⟨few, none⟩ := base64Triples_short short
    have empty : src = [] := List.eq_nil_of_length_eq_zero (by omega)
    rw [none, List.append_nil, empty, base64Loop]

theorem length_base64Triples (src : List UInt32) :
    (base64Triples src).length = src.length / 4 * 3 := by
  induction src using base64Triples.induct with
  | case1 a b c d rest ih =>
    rw [base64Triples]
    simp only [List.length_cons, ih]
    omega
  | case2 src short =>
    obtain ⟨few, none⟩ := base64Triples_short short
    rw [none, Nat.div_eq_of_lt few]
    rfl

/-- What the decoder leaves in the memory it is given. -/
def decodedInto (dest : Bytes) : Except Base64Error Bytes → Bytes × Except Base64Error Nat
  | .ok bytes => (bytes ++ dest.drop bytes.length, .ok bytes.length)
  | .error err => (dest, .error err)

/-- For any input the decoder stores the bytes it announces, and nothing behind them. -/
theorem base64DecodeInto_eq (src : List UInt32) {dest : Bytes} {destCapacity : Nat}
    (fits : destCapacity ≤ dest.length) :
    base64DecodeInto src dest destCapacity =
      some (decodedInto dest (base64Decode src destCapacity)) := by
  unfold base64DecodeInto base64Decode
  by_cases empty : src.length = 0
  · rw [if_pos empty, if_pos empty]
    rfl
  rw [if_neg empty, if_neg empty]
  by_cases groups : src.length % 4 = 0
  · rw [if_neg (not_not_intro groups), if_neg (not_not_intro groups)]
    dsimp only
    generalize (if src[src.length - 1]? = some 61 then 1 else 0) +
      (if src[src.length - 2]? = some 61 then 1 else 0) = padding
    by_cases small : destCapacity < src.length / 4 * 3 - padding
    · rw [if_pos small, if_pos small]
      rfl
    · rw [if_neg small, if_neg small]
      have inside : src.length / 4 * 3 - padding ≤ dest.length :=
        Nat.le_trans (Nat.le_of_not_lt small) fits
      have start : (dest, 0) = storedIn (src.length / 4 * 3 - padding) dest [] := by
        rw [storedIn, List.take_nil]
        rfl
      have length : ((base64Triples src).take (src.length / 4 * 3 - padding)).length =
          src.length / 4 * 3 - padding := by
        rw [List.length_take, length_base64Triples]
        omega
      rw [start, base64Loop_eq inside src groups]
      dsimp only [Option.bind_eq_bind, Option.bind_some, storedIn, decodedInto]
      rw [List.nil_append, length]
  · rw [if_pos groups, if_pos groups]
    rfl

/-- The decoder returns no more than the capacity. -/
theorem base64Decode_length {src : List UInt32} {destCapacity : Nat} {bytes : Bytes}
    (decoded : base64Decode src destCapacity = .ok bytes) : bytes.length ≤ destCapacity := by
  unfold base64Decode at decoded
  by_cases empty : src.length = 0
  · rw [if_pos empty] at decoded
    cases decoded
    exact Nat.zero_le _
  rw [if_neg empty] at decoded
  by_cases groups : src.length % 4 = 0
  · rw [if_neg (not_not_intro groups)] at decoded
    dsimp only at decoded
    generalize (if src[src.length - 1]? = some 61 then 1 else 0) +
      (if src[src.length - 2]? = some 61 then 1 else 0) = padding at decoded
    by_cases small : destCapacity < src.length / 4 * 3 - padding
    · rw [if_pos small] at decoded
      cases decoded
    · rw [if_neg small] at decoded
      cases decoded
      rw [List.length_take]
      omega
  · rw [if_pos groups] at decoded
    cases decoded

/-! ### Decoding what was encoded -/

theorem b64Sextet_sextet {n : Nat} (small : n < 64) :
    b64Sextet (Base64.sextet n).val = UInt32.ofNat n := by
  have checked : ∀ n : Fin 64, b64Sextet (Base64.sextet n).val = UInt32.ofNat n.val := by decide
  exact checked ⟨n, small⟩

theorem b64Sextet_padding : b64Sextet '='.val = 0 := by decide

/-- Four sextets put together. -/
theorem triple_eq (p q r s : Nat) :
    (UInt32.ofNat p <<< 18) + (UInt32.ofNat q <<< 12) + (UInt32.ofNat r <<< 6) + UInt32.ofNat s =
      UInt32.ofNat (p * 262144 + q * 4096 + r * 64 + s) := by
  apply UInt32.toNat_inj.1
  simp [Nat.shiftLeft_eq]

theorem triple_bytes {t : Nat} (small : t < 2 ^ 24) :
    (UInt32.ofNat t >>> 16).toUInt8 = UInt8.ofNat (t / 65536) ∧
      (UInt32.ofNat t >>> 8).toUInt8 = UInt8.ofNat (t / 256) ∧
      (UInt32.ofNat t).toUInt8 = UInt8.ofNat t := by
  refine ⟨?_, ?_, ?_⟩
  · apply UInt8.toNat_inj.1
    simp [Nat.shiftRight_eq_div_pow]
    omega
  · apply UInt8.toNat_inj.1
    simp [Nat.shiftRight_eq_div_pow]
    omega
  · apply UInt8.toNat_inj.1
    simp

/-- The bytes of one group of four characters. -/
theorem base64Triples_sextets {p q r s : Nat} (hp : p < 64) (hq : q < 64) (hr : r < 64)
    (hs : s < 64) {w x y z : UInt32} (hw : b64Sextet w = UInt32.ofNat p)
    (hx : b64Sextet x = UInt32.ofNat q) (hy : b64Sextet y = UInt32.ofNat r)
    (hz : b64Sextet z = UInt32.ofNat s) (rest : List UInt32) :
    base64Triples (w :: x :: y :: z :: rest) =
      UInt8.ofNat (p * 4 + q / 16) :: UInt8.ofNat (q % 16 * 16 + r / 4) ::
        UInt8.ofNat (r % 4 * 64 + s) :: base64Triples rest := by
  obtain ⟨high, middle, low⟩ :=
    triple_bytes (show p * 262144 + q * 4096 + r * 64 + s < 2 ^ 24 by omega)
  rw [base64Triples, hw, hx, hy, hz, triple_eq, high, middle, low]
  congr 1
  · apply UInt8.toNat_inj.1
    rw [UInt8.toNat_ofNat', UInt8.toNat_ofNat']
    omega
  · congr 1
    · apply UInt8.toNat_inj.1
      rw [UInt8.toNat_ofNat', UInt8.toNat_ofNat']
      omega
    · congr 1
      apply UInt8.toNat_inj.1
      rw [UInt8.toNat_ofNat', UInt8.toNat_ofNat']
      omega

/-- The characters of an encoding. -/
def encoded (data : Bytes) : List UInt32 := (Base64.encode data).map Char.val

/-- Of the bytes of the groups those that were encoded come first. -/
theorem base64Triples_encoded (data : Bytes) :
    (base64Triples (encoded data)).take data.length = data := by
  have padding : b64Sextet '='.val = UInt32.ofNat 0 := b64Sextet_padding
  induction data using Base64.encode.induct with
  | case1 => rfl
  | case2 a =>
    have range := a.toNat_lt
    rw [encoded, Base64.encode]
    simp only [List.map_cons, List.map_nil]
    rw [base64Triples_sextets (by omega) (by omega) (by decide) (by decide)
      (b64Sextet_sextet (by omega)) (b64Sextet_sextet (by omega)) padding padding,
      Base64.ofNat_toNat (a := a) (by omega)]
    rfl
  | case3 a b =>
    have range := a.toNat_lt
    have range' := b.toNat_lt
    rw [encoded, Base64.encode]
    simp only [List.map_cons, List.map_nil]
    rw [base64Triples_sextets (by omega) (by omega) (by omega) (by decide)
      (b64Sextet_sextet (by omega)) (b64Sextet_sextet (by omega)) (b64Sextet_sextet (by omega))
      padding, Base64.ofNat_toNat (a := a) (by omega), Base64.ofNat_toNat (a := b) (by omega)]
    rfl
  | case4 a b c rest ih =>
    have range := a.toNat_lt
    have range' := b.toNat_lt
    have range'' := c.toNat_lt
    rw [encoded, Base64.encode]
    simp only [List.map_cons]
    rw [base64Triples_sextets (by omega) (by omega) (by omega) (by omega)
      (b64Sextet_sextet (by omega)) (b64Sextet_sextet (by omega)) (b64Sextet_sextet (by omega))
      (b64Sextet_sextet (by omega)), Base64.ofNat_toNat (a := a) (by omega),
      Base64.ofNat_toNat (a := b) (by omega), Base64.ofNat_toNat (a := c) (by omega)]
    simp only [List.length_cons, List.take_succ_cons]
    rw [show (Base64.encode rest).map Char.val = encoded rest from rfl, ih]

/-- The padding at the end of a text: how many of its last two characters are `=`. -/
def paddingOf (src : List UInt32) : Nat :=
  (if src[src.length - 1]? = some 61 then 1 else 0) +
    (if src[src.length - 2]? = some 61 then 1 else 0)

theorem paddingOf_append (front : List UInt32) (w x y z : UInt32) :
    paddingOf (front ++ [w, x, y, z]) = (if z = 61 then 1 else 0) + (if y = 61 then 1 else 0) := by
  have length : (front ++ [w, x, y, z]).length = front.length + 4 := by simp
  rw [paddingOf, length, List.getElem?_append_right (by omega),
    List.getElem?_append_right (by omega), show front.length + 4 - 1 - front.length = 3 by omega,
    show front.length + 4 - 2 - front.length = 2 by omega]
  simp only [List.getElem?_cons_succ, List.getElem?_cons_zero, Option.some.injEq]

theorem paddingOf_group (w x y z : UInt32) {rest : List UInt32} (more : 2 ≤ rest.length) :
    paddingOf (w :: x :: y :: z :: rest) = paddingOf rest := by
  have length : (w :: x :: y :: z :: rest).length = rest.length + 4 := rfl
  have behind : ∀ i, (w :: x :: y :: z :: rest)[i + 4]? = rest[i]? := fun i => rfl
  have last : (w :: x :: y :: z :: rest)[(w :: x :: y :: z :: rest).length - 1]? =
      rest[rest.length - 1]? := by
    rw [length, ← behind, show rest.length + 4 - 1 = rest.length - 1 + 4 by omega]
  have before : (w :: x :: y :: z :: rest)[(w :: x :: y :: z :: rest).length - 2]? =
      rest[rest.length - 2]? := by
    rw [length, ← behind, show rest.length + 4 - 2 = rest.length - 2 + 4 by omega]
  simp only [paddingOf, last, before]

theorem sextet_val_ne {n : Nat} (small : n < 64) : (Base64.sextet n).val ≠ 61 :=
  fun same => Base64.sextet_ne_padding small (Char.ext same)

theorem length_encoded (data : Bytes) : (encoded data).length = (data.length + 2) / 3 * 4 := by
  rw [encoded, List.length_map, Base64.length_encode]

/-- The padding makes up for the bytes missing in the last group. -/
theorem paddingOf_encoded {data : Bytes} (nonempty : data ≠ []) :
    data.length + paddingOf (encoded data) = (data.length + 2) / 3 * 3 := by
  have padding : ('='.val : UInt32) = 61 := by decide
  induction data using Base64.encode.induct with
  | case1 => exact absurd rfl nonempty
  | case2 a =>
    have ends := paddingOf_append [] (Base64.sextet (a.toNat / 4)).val
      (Base64.sextet (a.toNat % 4 * 16)).val '='.val '='.val
    rw [if_pos padding] at ends
    rw [List.nil_append] at ends
    rw [encoded, Base64.encode]
    simp only [List.map_cons, List.map_nil, ends, List.length_cons, List.length_nil]
  | case3 a b =>
    have range' := b.toNat_lt
    have ends := paddingOf_append [] (Base64.sextet (a.toNat / 4)).val
      (Base64.sextet (a.toNat % 4 * 16 + b.toNat / 16)).val
      (Base64.sextet (b.toNat % 16 * 4)).val '='.val
    rw [if_pos padding, if_neg (sextet_val_ne (by omega))] at ends
    rw [List.nil_append] at ends
    rw [encoded, Base64.encode]
    simp only [List.map_cons, List.map_nil, ends, List.length_cons, List.length_nil]
  | case4 a b c rest ih =>
    have range' := b.toNat_lt
    have range'' := c.toNat_lt
    simp only [List.length_cons]
    rw [encoded, Base64.encode]
    simp only [List.map_cons]
    by_cases more : rest = []
    · subst more
      have ends := paddingOf_append [] (Base64.sextet (a.toNat / 4)).val
        (Base64.sextet (a.toNat % 4 * 16 + b.toNat / 16)).val
        (Base64.sextet (b.toNat % 16 * 4 + c.toNat / 64)).val (Base64.sextet (c.toNat % 64)).val
      rw [if_neg (sextet_val_ne (by omega)), if_neg (sextet_val_ne (by omega))] at ends
      exact congrArg (3 + ·) ends
    · have positive := List.length_pos_iff.2 more
      have length := length_encoded rest
      have left := ih more
      rw [encoded] at left length
      rw [paddingOf_group _ _ _ _ (by omega)]
      omega

/-- The decoder, told the size of the memory in front of `behind`, gives back what was encoded if
that memory is large enough, with its exact length; and whatever the input is, it stores nothing
behind that memory. -/
theorem base64DecodeInto_encode (data front behind : Bytes) :
    base64DecodeInto (encoded data) (front ++ behind) front.length =
        some (if data.length ≤ front.length
          then (data ++ front.drop data.length ++ behind, .ok data.length)
          else (front ++ behind, .error .outputTooSmall)) ∧
      ∀ src, ∃ front' result,
        base64DecodeInto src (front ++ behind) front.length = some (front' ++ behind, result) ∧
        front'.length = front.length := by
  have fits : front.length ≤ (front ++ behind).length := by
    rw [List.length_append]
    exact Nat.le_add_right _ _
  constructor
  · rw [base64DecodeInto_eq _ fits]
    by_cases empty : data = []
    · subst empty
      rfl
    · have positive := List.length_pos_iff.2 empty
      have length := length_encoded data
      have padded := paddingOf_encoded empty
      have size : (encoded data).length / 4 * 3 - paddingOf (encoded data) = data.length := by
        omega
      have groups : ¬ (encoded data).length % 4 ≠ 0 := by omega
      have whole : base64Decode (encoded data) front.length =
          if front.length < (encoded data).length / 4 * 3 - paddingOf (encoded data)
          then .error .outputTooSmall
          else .ok ((base64Triples (encoded data)).take
            ((encoded data).length / 4 * 3 - paddingOf (encoded data))) := by
        unfold base64Decode
        rw [if_neg (by omega), if_neg groups]
        rfl
      rw [whole, size, base64Triples_encoded]
      by_cases enough : data.length ≤ front.length
      · rw [if_pos enough, if_neg (Nat.not_lt.2 enough), decodedInto,
          List.drop_append_of_le_length enough, List.append_assoc]
      · rw [if_neg enough, if_pos (Nat.lt_of_not_le enough), decodedInto]
  · intro src
    rw [base64DecodeInto_eq src fits]
    cases result : base64Decode src front.length with
    | error err => exact ⟨front, .error err, rfl, rfl⟩
    | ok bytes =>
      have small : bytes.length ≤ front.length := base64Decode_length result
      refine ⟨bytes ++ front.drop bytes.length, .ok bytes.length, ?_, ?_⟩
      · rw [decodedInto, List.drop_append_of_le_length small, List.append_assoc]
      · rw [List.length_append, List.length_drop]
        omega

end Smelly
