/-
Module: Smelly.Proofs.ClipboardChunks
Purpose: What a write request holds of base64 data that arrives in pieces cut anywhere: after each
  piece the whole groups of four characters are decoded and the rest is left over, and a flush ends
  the data of a MIME type at its own place of the file.
Trusted boundary: none
-/
import Smelly.Core.Clipboard
import Mathlib.Data.List.Nodup
import Mathlib.Tactic.Linarith

namespace Smelly

namespace Clipboard

open FileTransmission (setItem)
open FileBytes (read)

/-! ### Groups of four characters -/

/-- The byte of a value below 64. -/
def sextetByte (n : Nat) : UInt8 :=
  UInt8.ofNat (Base64.sextet n).toNat

/-- The bytes of the base64 text for data. -/
def codeBytes (data : List UInt8) : List UInt8 :=
  (Base64.encode data).map fun c => UInt8.ofNat c.toNat

theorem sextetByte_ne {n : Nat} (small : n < 64) : sextetByte n ≠ 0x3d := by
  have checked : ∀ n : Fin 64, sextetByte n ≠ 0x3d := by decide
  exact checked ⟨n, small⟩

theorem value_sextetByte {n : Nat} (small : n < 64) :
    Base64.value (Char.ofNat (sextetByte n).toNat) = some n := by
  have checked : ∀ n : Fin 64, Base64.value (Char.ofNat (sextetByte n).toNat) = some n.val := by
    decide
  exact checked ⟨n, small⟩

theorem codeBytes_three (a b c : UInt8) (rest : List UInt8) :
    codeBytes (a :: b :: c :: rest) =
      sextetByte (a.toNat / 4) :: sextetByte (a.toNat % 4 * 16 + b.toNat / 16) ::
        sextetByte (b.toNat % 16 * 4 + c.toNat / 64) :: sextetByte (c.toNat % 64) ::
        codeBytes rest := rfl

theorem codeBytes_two (a b : UInt8) :
    codeBytes [a, b] =
      [sextetByte (a.toNat / 4), sextetByte (a.toNat % 4 * 16 + b.toNat / 16),
        sextetByte (b.toNat % 16 * 4), 0x3d] := rfl

theorem codeBytes_one (a : UInt8) :
    codeBytes [a] = [sextetByte (a.toNat / 4), sextetByte (a.toNat % 4 * 16), 0x3d, 0x3d] := rfl

theorem a2bLoop_sextet {n : Nat} (small : n < 64) (quadPos leftchar pads : Nat)
    (rest : List UInt8) :
    a2bLoop quadPos leftchar pads (sextetByte n :: rest) =
      match quadPos with
      | 0 => a2bLoop 1 n 0 rest
      | 1 => (a2bLoop 2 (n % 16) 0 rest).map (UInt8.ofNat (leftchar * 4 + n / 16) :: ·)
      | 2 => (a2bLoop 3 (n % 4) 0 rest).map (UInt8.ofNat (leftchar * 16 + n / 4) :: ·)
      | _ => (a2bLoop 0 0 0 rest).map (UInt8.ofNat (leftchar * 64 + n) :: ·) := by
  rw [a2bLoop, if_neg (sextetByte_ne small), value_sextetByte small] <;> rfl

/-- Four characters give three bytes. -/
theorem a2bLoop_group (a b c : UInt8) (rest : List UInt8) :
    a2bLoop 0 0 0 (sextetByte (a.toNat / 4) :: sextetByte (a.toNat % 4 * 16 + b.toNat / 16) ::
      sextetByte (b.toNat % 16 * 4 + c.toNat / 64) :: sextetByte (c.toNat % 64) :: rest) =
      (a2bLoop 0 0 0 rest).map fun more => a :: b :: c :: more := by
  have rangeA := a.toNat_lt
  have rangeB := b.toNat_lt
  have rangeC := c.toNat_lt
  have first : UInt8.ofNat (a.toNat / 4 * 4 + (a.toNat % 4 * 16 + b.toNat / 16) / 16) = a :=
    Base64.ofNat_toNat (by omega)
  have second : UInt8.ofNat ((a.toNat % 4 * 16 + b.toNat / 16) % 16 * 16 +
      (b.toNat % 16 * 4 + c.toNat / 64) / 4) = b := Base64.ofNat_toNat (by omega)
  have third : UInt8.ofNat ((b.toNat % 16 * 4 + c.toNat / 64) % 4 * 64 + c.toNat % 64) = c :=
    Base64.ofNat_toNat (by omega)
  rw [a2bLoop_sextet (by omega)]
  rw [a2bLoop_sextet (by omega)]
  show (a2bLoop 2 _ 0 _).map _ = _
  rw [a2bLoop_sextet (by omega), first]
  show ((a2bLoop 3 _ 0 _).map _).map _ = _
  rw [a2bLoop_sextet (by omega), second]
  rw [third]
  cases a2bLoop 0 0 0 rest <;> rfl

theorem a2bLoop_two (a b : UInt8) :
    a2bLoop 0 0 0 (codeBytes [a, b]) = some [a, b] := by
  have rangeA := a.toNat_lt
  have rangeB := b.toNat_lt
  have first : UInt8.ofNat (a.toNat / 4 * 4 + (a.toNat % 4 * 16 + b.toNat / 16) / 16) = a :=
    Base64.ofNat_toNat (by omega)
  have second : UInt8.ofNat ((a.toNat % 4 * 16 + b.toNat / 16) % 16 * 16 +
      (b.toNat % 16 * 4) / 4) = b := Base64.ofNat_toNat (by omega)
  rw [codeBytes_two, a2bLoop_sextet (by omega)]
  rw [a2bLoop_sextet (by omega)]
  show (a2bLoop 2 _ 0 _).map _ = _
  rw [a2bLoop_sextet (by omega), first]
  rw [second]
  rfl

theorem a2bLoop_one (a : UInt8) : a2bLoop 0 0 0 (codeBytes [a]) = some [a] := by
  have rangeA := a.toNat_lt
  have first : UInt8.ofNat (a.toNat / 4 * 4 + (a.toNat % 4 * 16) / 16) = a :=
    Base64.ofNat_toNat (by omega)
  rw [codeBytes_one, a2bLoop_sextet (by omega)]
  rw [a2bLoop_sextet (by omega), first]
  rfl

/-- Whole groups from the start decode to the data in front. -/
theorem a2bBase64_take (data : List UInt8) :
    ∀ k, 4 * k ≤ (codeBytes data).length →
      a2bBase64 ((codeBytes data).take (4 * k)) = some (data.take (3 * k)) := by
  induction data using Base64.encode.induct with
  | case1 =>
    intro k _
    rw [List.take_nil, show codeBytes [] = [] from rfl, List.take_nil]
    rfl
  | case2 a =>
    intro k short
    cases k with
    | zero => rfl
    | succ k =>
      have same : (codeBytes [a]).length = 4 := rfl
      rw [List.take_of_length_le (by omega)]
      exact a2bLoop_one a
  | case3 a b =>
    intro k short
    cases k with
    | zero => rfl
    | succ k =>
      have same : (codeBytes [a, b]).length = 4 := rfl
      rw [List.take_of_length_le (by omega)]
      exact a2bLoop_two a b
  | case4 a b c rest ih =>
    intro k short
    cases k with
    | zero => rfl
    | succ k =>
      rw [codeBytes_three] at short ⊢
      have within : 4 * k ≤ (codeBytes rest).length := by
        simp only [List.length_cons] at short
        omega
      have whole := ih k within
      rw [a2bBase64] at whole ⊢
      rw [show 4 * (k + 1) = 4 * k + 1 + 1 + 1 + 1 from rfl]
      simp only [List.take_succ_cons]
      rw [a2bLoop_group, whole]
      rfl

/-- The text from a group on is the text of the data from there on. -/
theorem codeBytes_drop (data : List UInt8) :
    ∀ j, 4 * j ≤ (codeBytes data).length →
      (codeBytes data).drop (4 * j) = codeBytes (data.drop (3 * j)) := by
  induction data using Base64.encode.induct with
  | case1 =>
    intro j _
    rw [List.drop_nil, show codeBytes [] = [] from rfl, List.drop_nil]
  | case2 a =>
    intro j short
    cases j with
    | zero => rfl
    | succ j =>
      have same : (codeBytes [a]).length = 4 := rfl
      rw [List.drop_of_length_le (by omega)]
      rfl
  | case3 a b =>
    intro j short
    cases j with
    | zero => rfl
    | succ j =>
      have same : (codeBytes [a, b]).length = 4 := rfl
      rw [List.drop_of_length_le (by omega)]
      rfl
  | case4 a b c rest ih =>
    intro j short
    cases j with
    | zero => rfl
    | succ j =>
      rw [codeBytes_three] at short ⊢
      have within : 4 * j ≤ (codeBytes rest).length := by
        simp only [List.length_cons] at short
        omega
      exact ih j within

/-- Whole groups anywhere decode to the data at that place. -/
theorem a2bBase64_read (data : List UInt8) (j k : Nat)
    (within : 4 * j + 4 * k ≤ (codeBytes data).length) :
    a2bBase64 (read (codeBytes data) (4 * j) (4 * k)) = some (read data (3 * j) (3 * k)) := by
  have front := codeBytes_drop data j (by omega)
  have length := congrArg List.length front
  rw [List.length_drop] at length
  rw [FileBytes.read, front]
  exact a2bBase64_take _ k (by omega)

/-! ### One piece -/

/-- So many bytes are below the limit that a request tests. -/
def WriteRequest.Below (self : WriteRequest) (size : Nat) : Prop :=
  0 < self.maxSize → (size : ℚ) ≤ self.maxSize * 1024 * 1024

/-- Only the file and the characters that are left over have changed. -/
def Moves (self next : WriteRequest) : Prop :=
  ∃ tempfile leftover,
    next = { self with tempfile := tempfile, currentLeftoverBytes := leftover }

theorem Moves.refl (self : WriteRequest) : Moves self self := ⟨_, _, rfl⟩

theorem Moves.trans {self next last : WriteRequest} (first : Moves self next)
    (second : Moves next last) : Moves self last := by
  obtain ⟨_, _, rfl⟩ := first
  obtain ⟨_, _, rfl⟩ := second
  exact ⟨_, _, rfl⟩

/-- A request that has, behind some bytes in front, the data of `j` groups. -/
structure Decoded (front data : List UInt8) (j : Nat) (state : WriteRequest) : Prop where
  content : state.tempfile.content = front ++ read data 0 (3 * j)
  position : state.tempfile.position = state.tempfile.content.length
  room : state.maxSizeExceeded = false
  below : state.Below (front.length + data.length)

/-- A request that has the data of `j` groups, with `r` more characters left over. -/
structure Holds (front data : List UInt8) (j r : Nat) (state : WriteRequest) : Prop where
  decoded : Decoded front data j state
  leftover : state.currentLeftoverBytes = read (codeBytes data) (4 * j) r
  short : r < 4

/-- A write at the end of the temporary file. -/
theorem Tempfile.write_end {self : Tempfile} (atEnd : self.position = self.content.length)
    (data : List UInt8) :
    (self.write data).content = self.content ++ data ∧
      (self.write data).position = (self.write data).content.length := by
  have rolled : (self.rolloverIfNeeded data.length).content = self.content ∧
      (self.rolloverIfNeeded data.length).position = self.content.length := by
    unfold Tempfile.rolloverIfNeeded
    by_cases large : !self.rolled ∧ self.maxSize < self.position + data.length
    · rw [if_pos large]
      exact ⟨rfl, rfl⟩
    · rw [if_neg large]
      exact ⟨rfl, atEnd⟩
  have content : (self.write data).content = self.content ++ data := by
    show FileBytes.write 0 (self.rolloverIfNeeded data.length).content
      (self.rolloverIfNeeded data.length).position data = _
    rw [rolled.1, rolled.2, FileBytes.write_end]
  refine ⟨content, ?_⟩
  rw [content, List.length_append]
  show (self.rolloverIfNeeded data.length).position + data.length = _
  rw [rolled.2]

/-- Groups that decode, below the limit, go behind what is there. -/
theorem writeBase64Data_decoded {front data : List UInt8} {j k : Nat} {self : WriteRequest}
    {b : List UInt8} (stored : Decoded front data j self)
    (decoded : a2bBase64 b = some (read data (3 * j) (3 * k))) :
    ∃ next, self.writeBase64Data b = (next, true) ∧ Moves self next ∧
      next.currentLeftoverBytes = self.currentLeftoverBytes ∧ Decoded front data (j + k) next := by
  obtain ⟨content, position⟩ := Tempfile.write_end stored.position (read data (3 * j) (3 * k))
  have whole : (self.tempfile.write (read data (3 * j) (3 * k))).content =
      front ++ read data 0 (3 * (j + k)) := by
    rw [content, stored.content, List.append_assoc, Nat.mul_add, FileBytes.read_add, Nat.zero_add]
  have below : ¬(0 < self.maxSize ∧ self.maxSize * 1024 * 1024 <
      (((self.tempfile.write (read data (3 * j) (3 * k))).tell : Nat) : ℚ)) := by
    rintro ⟨limited, exceeded⟩
    have few : (self.tempfile.write (read data (3 * j) (3 * k))).tell ≤
        front.length + data.length := by
      rw [Tempfile.tell, position, whole, List.length_append, FileBytes.length_read]
      omega
    have few' : (((self.tempfile.write (read data (3 * j) (3 * k))).tell : Nat) : ℚ) ≤
        ((front.length + data.length : Nat) : ℚ) := Nat.cast_le.2 few
    exact absurd (lt_of_lt_of_le exceeded few') (not_lt.2 (stored.below limited))
  refine ⟨{ self with tempfile := self.tempfile.write (read data (3 * j) (3 * k)) }, ?_,
    ⟨_, _, rfl⟩, rfl, whole, position, stored.room, stored.below⟩
  rw [WriteRequest.writeBase64Data, if_neg (by rw [stored.room]; decide), decoded]
  dsimp only
  rw [if_neg below]

/-- The characters that are left over do not concern what is decoded. -/
theorem Decoded.withLeftover {front data : List UInt8} {j : Nat} {state : WriteRequest}
    (stored : Decoded front data j state) (leftover : List UInt8) :
    Decoded front data j { state with currentLeftoverBytes := leftover } :=
  ⟨stored.content, stored.position, stored.room, stored.below⟩

/-- Text behind whole groups. -/
theorem writeSavingLeftoverBytes_holds {front data : List UInt8} {j : Nat} {self : WriteRequest}
    (holds : Holds front data j 0 self) (len : Nat)
    (within : 4 * j + len ≤ (codeBytes data).length) :
    ∃ next, self.writeSavingLeftoverBytes (read (codeBytes data) (4 * j) len) = (next, true) ∧
      Moves self next ∧ Holds front data (j + len / 4) (len % 4) next := by
  have length : (read (codeBytes data) (4 * j) len).length = len := by
    rw [FileBytes.length_read]
    omega
  have nothing : self.currentLeftoverBytes = [] := by
    rw [holds.leftover, FileBytes.read_zero]
  have groups : len - len % 4 = 4 * (len / 4) := by omega
  have behind : len - 4 * (len / 4) = len % 4 := by omega
  have place : 4 * j + 4 * (len / 4) = 4 * (j + len / 4) := by omega
  have decoded := a2bBase64_read data j (len / 4) (by omega)
  unfold WriteRequest.writeSavingLeftoverBytes
  rw [length]
  by_cases empty : len = 0
  · subst empty
    exact ⟨self, rfl, Moves.refl self, holds⟩
  · rw [if_neg empty]
    by_cases extra : 0 < len % 4
    · dsimp only
      rw [if_pos extra, groups, FileBytes.drop_read, FileBytes.take_read _ _ (by omega), behind,
        place, FileBytes.length_read]
      by_cases some : 0 < min (4 * (len / 4)) ((codeBytes data).length - 4 * j)
      · rw [if_pos some]
        obtain ⟨next, written, moves, same, stored⟩ := writeBase64Data_decoded
          (holds.decoded.withLeftover (read (codeBytes data) (4 * (j + len / 4)) (len % 4))) decoded
        exact ⟨next, written, Moves.trans ⟨_, _, rfl⟩ moves, stored, same, by omega⟩
      · have none : len / 4 = 0 := by omega
        rw [none]
        exact ⟨_, rfl, ⟨_, _, rfl⟩, holds.decoded.withLeftover _, rfl, by omega⟩
    · have aligned : 4 * (len / 4) = len := by omega
      have none : len % 4 = 0 := by omega
      rw [none]
      rw [aligned] at decoded
      obtain ⟨next, written, moves, same, stored⟩ := writeBase64Data_decoded holds.decoded decoded
      refine ⟨next, written, moves, stored, ?_, by decide⟩
      rw [same, nothing, FileBytes.read_zero]

/-- A piece of the text behind what was there. -/
theorem addBytes_holds {front data : List UInt8} {j r : Nat} {self : WriteRequest}
    (holds : Holds front data j r self) (len : Nat)
    (within : 4 * j + r + len ≤ (codeBytes data).length) :
    ∃ next, self.addBytes (read (codeBytes data) (4 * j + r) len) = (next, true) ∧
      Moves self next ∧ Holds front data (j + (r + len) / 4) ((r + len) % 4) next := by
  have short := holds.short
  have length : (read (codeBytes data) (4 * j + r) len).length = len := by
    rw [FileBytes.length_read]
    omega
  have left : self.currentLeftoverBytes.length = r := by
    rw [holds.leftover, FileBytes.length_read]
    omega
  unfold WriteRequest.addBytes
  rw [left, length]
  by_cases carried : 0 < r
  · rw [if_pos carried]
    by_cases enough : 4 - r ≤ len
    · have group : self.currentLeftoverBytes ++
          (read (codeBytes data) (4 * j + r) len).take (4 - r) =
            read (codeBytes data) (4 * j) (4 * 1) := by
        rw [holds.leftover, FileBytes.take_read _ _ enough, ← FileBytes.read_add]
        congr 1
        omega
      have rest : (read (codeBytes data) (4 * j + r) len).drop (4 - r) =
          read (codeBytes data) (4 * (j + 1)) (len - (4 - r)) := by
        rw [FileBytes.drop_read]
        congr 1
        omega
      rw [if_pos enough, group, rest]
      obtain ⟨next, written, moves, same, stored⟩ := writeBase64Data_decoded holds.decoded
        (a2bBase64_read data j 1 (by omega))
      have ready : Holds front data (j + 1) 0 { next with currentLeftoverBytes := [] } :=
        ⟨stored.withLeftover [], (FileBytes.read_zero _ _).symm, by decide⟩
      obtain ⟨last, saved, moves', holds'⟩ := writeSavingLeftoverBytes_holds ready
        (len - (4 - r)) (by omega)
      rw [written]
      refine ⟨last, saved, moves.trans (Moves.trans ⟨_, _, rfl⟩ moves'), ?_⟩
      have groups : j + 1 + (len - (4 - r)) / 4 = j + (r + len) / 4 := by omega
      have more : (len - (4 - r)) % 4 = (r + len) % 4 := by omega
      rw [groups, more] at holds'
      exact holds'
    · rw [if_neg enough]
      refine ⟨_, rfl, ⟨_, _, rfl⟩, ?_⟩
      have groups : (r + len) / 4 = 0 := by omega
      have more : (r + len) % 4 = r + len := by omega
      rw [groups, more, Nat.add_zero]
      refine ⟨holds.decoded.withLeftover _, ?_, by omega⟩
      rw [FileBytes.read_add, ← holds.leftover]
  · have none : r = 0 := by omega
    subst none
    rw [Nat.zero_add]
    exact writeSavingLeftoverBytes_holds holds len (by omega)

/-! ### The places of the MIME types -/

/-- Where the data of MIME types lie one behind the other. -/
def placesOf (start : Nat) : List (String × List UInt8) → List (String × MimePos)
  | [] => []
  | (mime, data) :: rest =>
    (mime, { start, size := data.length }) :: placesOf (start + data.length) rest

theorem placesOf_append (done more : List (String × List UInt8)) (start : Nat) :
    placesOf start (done ++ more) =
      placesOf start done ++ placesOf (start + (done.flatMap (·.2)).length) more := by
  induction done generalizing start with
  | nil => rfl
  | cons item done ih =>
    rw [List.cons_append, placesOf, placesOf, ih, List.flatMap_cons, List.length_append,
      Nat.add_assoc, List.cons_append]

theorem placesOf_keys (done : List (String × List UInt8)) (start : Nat) :
    (placesOf start done).map (·.1) = done.map (·.1) := by
  induction done generalizing start with
  | nil => rfl
  | cons item done ih => rw [placesOf, List.map_cons, List.map_cons, ih]

theorem lookup_new {α : Type} {items : List (String × α)} {key : String}
    (new : key ∉ items.map (·.1)) : items.lookup key = none := by
  rw [List.lookup_eq_none_iff]
  intro item member
  rw [bne_iff_ne]
  rintro rfl
  exact new (List.mem_map_of_mem member)

theorem lookup_behind {α : Type} {items : List (String × α)} {key : String}
    (new : key ∉ items.map (·.1)) (value : α) (rest : List (String × α)) :
    (items ++ (key, value) :: rest).lookup key = some value := by
  rw [List.lookup_append, lookup_new new, List.lookup_cons_self]
  rfl

theorem setItem_behind {α : Type} {items : List (String × α)} {key : String}
    (new : key ∉ items.map (·.1)) (value : α) :
    setItem items key value = items ++ [(key, value)] := by
  have absent : ¬items.any (fun item => decide (item.1 = key)) = true := by
    intro found
    obtain ⟨item, member, same⟩ := List.any_eq_true.1 found
    exact new (List.mem_map.2 ⟨item, member, of_decide_eq_true same⟩)
  rw [setItem, if_neg absent]

theorem setItem_again {α : Type} {items : List (String × α)} {key : String}
    (new : key ∉ items.map (·.1)) (old value : α) :
    setItem (items ++ [(key, old)]) key value = items ++ [(key, value)] := by
  have others : items.map (fun item => if item.1 = key then (key, value) else item) = items := by
    refine (List.map_congr_left (g := id) ?_).trans (List.map_id items)
    intro item member
    rw [if_neg]
    · rfl
    · rintro rfl
      exact new (List.mem_map_of_mem member)
  rw [setItem, List.map_append, others]
  simp

/-! ### MIME types one behind the other -/

/-- Text that codes data, with the padding or without. -/
def EncodedAs (data text : List UInt8) : Prop :=
  ∃ padding ≤ 2, text ++ List.replicate padding 0x3d = codeBytes data

/-- A request that has the data of MIME types, and none that is being written. -/
structure Stored (total : Nat) (done : List (String × List UInt8)) (state : WriteRequest) :
    Prop where
  content : state.tempfile.content = done.flatMap (·.2)
  position : state.tempfile.position = state.tempfile.content.length
  idle : state.currentlyWritingMime = ""
  nothing : state.currentLeftoverBytes = []
  room : state.maxSizeExceeded = false
  places : state.mimeMap = placesOf 0 done
  below : state.Below total

/-- A request that has been given `n` characters of the text for a MIME type. -/
structure Writing (total : Nat) (done : List (String × List UInt8)) (mime : String)
    (data : List UInt8) (n : Nat) (state : WriteRequest) : Prop where
  holds : Holds (done.flatMap (·.2)) data (n / 4) (n % 4) state
  current : state.currentlyWritingMime = mime
  places : state.mimeMap =
    placesOf 0 done ++ [(mime, { start := (done.flatMap (·.2)).length, size := -1 })]
  below : state.Below total

theorem WriteRequest.Below.mono {self : WriteRequest} {large small : Nat}
    (below : self.Below large) (fewer : small ≤ large) : self.Below small := by
  intro limited
  exact le_trans (Nat.cast_le.2 fewer) (below limited)

/-- A new MIME type starts where the others end. -/
theorem Stored.start {total : Nat} {done : List (String × List UInt8)} {state : WriteRequest}
    (stored : Stored total done state) {mime : String} (new : mime ∉ done.map (·.1))
    (data : List UInt8) (fits : (done.flatMap (·.2)).length + data.length ≤ total) :
    Writing total done mime data 0 { state with
      mimeMap := setItem state.mimeMap mime { start := state.tempfile.tell, size := -1 }
      currentlyWritingMime := mime } := by
  have keys : mime ∉ (placesOf 0 done).map (·.1) := by
    rw [placesOf_keys]
    exact new
  constructor
  · refine ⟨⟨?_, stored.position, stored.room, stored.below.mono fits⟩, ?_, by decide⟩
    · rw [stored.content, FileBytes.read_zero, List.append_nil]
    · exact stored.nothing
  · rfl
  · rw [stored.places, setItem_behind keys, Tempfile.tell, stored.position, stored.content]
  · exact stored.below

/-- A piece of the text goes on with its MIME type. -/
theorem Writing.piece {total : Nat} {done : List (String × List UInt8)} {mime : String}
    {data : List UInt8} {n : Nat} {state : WriteRequest}
    (writing : Writing total done mime data n state) (len : Nat)
    (within : n + len ≤ (codeBytes data).length) :
    ∃ next, state.addBytes (read (codeBytes data) n len) = (next, true) ∧
      Writing total done mime data (n + len) next := by
  have split : 4 * (n / 4) + n % 4 = n := by omega
  obtain ⟨next, added, moves, holds⟩ := addBytes_holds writing.holds len (by omega)
  have groups : n / 4 + (n % 4 + len) / 4 = (n + len) / 4 := by omega
  have more : (n % 4 + len) % 4 = (n + len) % 4 := by omega
  rw [split] at added
  rw [groups, more] at holds
  obtain ⟨_, _, rfl⟩ := moves
  exact ⟨_, added, holds, writing.current, writing.places, writing.below⟩

/-- The end of a MIME type has its place and its size. -/
theorem endMime_stored {total : Nat} {done : List (String × List UInt8)} {mime : String}
    {data : List UInt8} {groups : Nat} {state : WriteRequest}
    (decoded : Decoded (done.flatMap (·.2)) data groups state)
    (current : state.currentlyWritingMime = mime)
    (places : state.mimeMap =
      placesOf 0 done ++ [(mime, { start := (done.flatMap (·.2)).length, size := -1 })])
    (below : state.Below total) (new : mime ∉ done.map (·.1)) (all : data.length ≤ 3 * groups) :
    Stored total (done ++ [(mime, data)]) state.endMime := by
  have keys : mime ∉ (placesOf 0 done).map (·.1) := by
    rw [placesOf_keys]
    exact new
  have content : state.tempfile.content = (done ++ [(mime, data)]).flatMap (·.2) := by
    rw [decoded.content, FileBytes.read_all data all, List.flatMap_append, List.flatMap_singleton]
  have length : (state.tempfile.tell : Int) - ((done.flatMap (·.2)).length : Nat) =
      data.length := by
    rw [Tempfile.tell, decoded.position, content, List.flatMap_append, List.flatMap_singleton,
      List.length_append]
    dsimp only
    omega
  refine ⟨content, decoded.position, rfl, rfl, decoded.room, ?_, below⟩
  show setItem state.mimeMap state.currentlyWritingMime
    { start := ((state.mimeMap.lookup state.currentlyWritingMime).map (·.start)).getD 0
      size := (state.tempfile.tell : Int) -
        ((state.mimeMap.lookup state.currentlyWritingMime).map (·.start)).getD 0 } = _
  rw [current, places, lookup_behind keys, setItem_again keys]
  simp only [Option.map_some, Option.getD_some]
  rw [length, placesOf_append, Nat.zero_add]
  rfl

theorem length_codeBytes (data : List UInt8) :
    (codeBytes data).length = (data.length + 2) / 3 * 4 := by
  rw [codeBytes, List.length_map, Base64.length_encode]

/-- The flush at the end of the text for a MIME type restores its padding. -/
theorem Writing.flush {total : Nat} {done : List (String × List UInt8)} {mime : String}
    {data text : List UInt8} {state : WriteRequest}
    (writing : Writing total done mime data text.length state) (encoded : EncodedAs data text)
    (named : mime ≠ "") (new : mime ∉ done.map (·.1)) :
    ∃ next, state.flushBase64Data = (next, true) ∧
      Stored total (done ++ [(mime, data)]) next := by
  obtain ⟨padding, few, whole⟩ := encoded
  have length := congrArg List.length whole
  rw [List.length_append, List.length_replicate, length_codeBytes] at length
  have left : state.currentLeftoverBytes.length = text.length % 4 := by
    rw [writing.holds.leftover, FileBytes.length_read, length_codeBytes]
    omega
  have busy : state.currentlyWritingMime ≠ "" := by
    rw [writing.current]
    exact named
  rw [WriteRequest.flushBase64Data, if_neg busy]
  dsimp only
  rw [left]
  by_cases aligned : text.length % 4 = 0
  · rw [if_neg (by omega), andThen, if_pos rfl]
    exact ⟨_, rfl, endMime_stored writing.holds.decoded writing.current writing.places
      writing.below new (by omega)⟩
  · have tail : 4 - text.length % 4 = padding := by omega
    have rest : read (codeBytes data) text.length padding = List.replicate padding 0x3d := by
      rw [FileBytes.read, ← whole, List.drop_left, List.take_of_length_le (by simp)]
    have group : state.currentLeftoverBytes ++ List.replicate padding 0x3d =
        read (codeBytes data) (4 * (text.length / 4)) (4 * 1) := by
      have place : 4 * (text.length / 4) + text.length % 4 = text.length := by omega
      have four : 4 * 1 = text.length % 4 + padding := by omega
      rw [four, FileBytes.read_add, place, rest, writing.holds.leftover]
    have padded : padding = 1 ∨ padding = 2 := by omega
    rw [tail, if_pos padded, group]
    obtain ⟨next, written, moves, -, stored⟩ := writeBase64Data_decoded writing.holds.decoded
      (a2bBase64_read data (text.length / 4) 1 (by rw [length_codeBytes]; omega))
    rw [written]
    obtain ⟨_, _, rfl⟩ := moves
    exact ⟨_, rfl, endMime_stored stored writing.current writing.places writing.below new
      (by omega)⟩

/-! ### Pieces -/

/-- The bytes of pieces. -/
def joined (pieces : List Payload) : Option (List UInt8) :=
  (pieces.mapM Payload.encode).map List.flatten

theorem joined_cons {piece : Payload} {pieces : List Payload} {text : List UInt8}
    (join : joined (piece :: pieces) = some text) :
    ∃ first rest, piece.encode = some first ∧ joined pieces = some rest ∧
      text = first ++ rest := by
  obtain ⟨all, mapped, rfl⟩ := Option.map_eq_some_iff.1 join
  rw [List.mapM_cons] at mapped
  obtain ⟨first, coded, mapped⟩ := Option.bind_eq_some_iff.1 mapped
  obtain ⟨rest, others, mapped⟩ := Option.bind_eq_some_iff.1 mapped
  cases mapped
  exact ⟨first, rest.flatten, coded, Option.map_eq_some_iff.2 ⟨rest, others, rfl⟩, rfl⟩

/-- `add_base64_data` for each of the pieces, up to an exception. -/
def addPieces (mime : String) : List Payload → WriteRequest → WriteRequest × Bool
  | [], self => (self, true)
  | piece :: pieces, self => andThen (self.addBase64Data piece mime) (addPieces mime pieces)

/-- A piece for the current MIME type needs no start. -/
theorem startMime_current {state : WriteRequest} {mime : String} (named : mime ≠ "")
    (current : state.currentlyWritingMime = mime) : state.startMime mime = (state, true) := by
  subst current
  rw [WriteRequest.startMime, if_neg (fun other => other.2 rfl), andThen, if_pos rfl,
    if_neg named]

/-- The rest of the pieces for a MIME type. -/
theorem addPieces_writing {total : Nat} {done : List (String × List UInt8)} {mime : String}
    {data : List UInt8} (named : mime ≠ "") (pieces : List Payload) :
    ∀ {n : Nat} {text : List UInt8} {state : WriteRequest},
      Writing total done mime data n state → joined pieces = some text →
      (∃ behind, (codeBytes data).drop n = text ++ behind) →
      n + text.length ≤ (codeBytes data).length →
      ∃ next, addPieces mime pieces state = (next, true) ∧
        Writing total done mime data (n + text.length) next := by
  induction pieces with
  | nil =>
    intro n text state writing join _ _
    cases join
    exact ⟨state, rfl, writing⟩
  | cons piece pieces ih =>
    intro n text state writing join ahead within
    obtain ⟨first, rest, coded, join', rfl⟩ := joined_cons join
    obtain ⟨behind, ahead⟩ := ahead
    rw [List.append_assoc] at ahead
    rw [List.length_append] at within
    have here : read (codeBytes data) n first.length = first := by
      rw [FileBytes.read, ahead, List.take_left]
    obtain ⟨next, added, writing'⟩ := writing.piece first.length (by omega)
    have ahead' : (codeBytes data).drop (n + first.length) = rest ++ behind := by
      rw [← List.drop_drop, ahead, List.drop_left]
    obtain ⟨last, rested, final⟩ := ih writing' join' ⟨behind, ahead'⟩ (by omega)
    rw [here] at added
    refine ⟨last, ?_, ?_⟩
    · rw [addPieces, WriteRequest.addBase64Data, coded]
      rw [startMime_current named writing.current]
      simp [andThen, added, rested]
    · rw [List.length_append, ← Nat.add_assoc]
      exact final

/-! ### MIME type by MIME type -/

/-- The pieces for a MIME type and the data that they are for. -/
structure Item where
  mime : String
  data : List UInt8
  pieces : List Payload

/-- `add_base64_data` for the pieces of each MIME type, up to an exception. -/
def addItems : List Item → WriteRequest → WriteRequest × Bool
  | [], self => (self, true)
  | item :: items, self => andThen (addPieces item.mime item.pieces self) (addItems items)

/-- The calls for all MIME types, with the flush at the end. -/
def writeAll (items : List Item) (self : WriteRequest) : WriteRequest × Bool :=
  andThen (addItems items self) WriteRequest.flushBase64Data

/-- A flush gives a request that has the data of MIME types. -/
structure Settles (total : Nat) (done : List (String × List UInt8)) (state : WriteRequest) :
    Prop where
  flush : ∃ next, state.flushBase64Data = (next, true) ∧ Stored total done next
  current : state.currentlyWritingMime = "" ∨ state.currentlyWritingMime ∈ done.map (·.1)

/-- A new MIME type flushes the one before it. -/
theorem Settles.start {total : Nat} {done : List (String × List UInt8)} {state : WriteRequest}
    (settles : Settles total done state) {mime : String} (new : mime ∉ done.map (·.1))
    (data : List UInt8) (fits : (done.flatMap (·.2)).length + data.length ≤ total) :
    ∃ next, state.startMime mime = (next, true) ∧ Writing total done mime data 0 next := by
  obtain ⟨flushed, flush, stored⟩ := settles.flush
  have first : (if state.currentlyWritingMime ≠ "" ∧ state.currentlyWritingMime ≠ mime then
      state.flushBase64Data else (state, true)) = (flushed, true) := by
    by_cases idle : state.currentlyWritingMime = ""
    · rw [if_neg (fun busy => busy.1 idle), ← flush, WriteRequest.flushBase64Data, if_pos idle]
    · have other : state.currentlyWritingMime ≠ mime := by
        intro same
        cases settles.current with
        | inl none => exact idle none
        | inr known => exact new (same ▸ known)
      rw [if_pos ⟨idle, other⟩, flush]
  refine ⟨_, ?_, stored.start new data fits⟩
  rw [WriteRequest.startMime, first, andThen, if_pos rfl, if_pos stored.idle]

/-- The pieces of one MIME type. -/
theorem addPieces_settles {total : Nat} {done : List (String × List UInt8)}
    {state : WriteRequest} (settles : Settles total done state) {mime : String}
    (named : mime ≠ "") (new : mime ∉ done.map (·.1)) {data text : List UInt8}
    {pieces : List Payload} (join : joined pieces = some text) (encoded : EncodedAs data text)
    (some : pieces ≠ []) (fits : (done.flatMap (·.2)).length + data.length ≤ total) :
    ∃ next, addPieces mime pieces state = (next, true) ∧
      Settles total (done ++ [(mime, data)]) next := by
  obtain ⟨started, start, writing⟩ := settles.start new data fits
  obtain ⟨padding, few, whole⟩ := encoded
  obtain ⟨next, added, final⟩ := addPieces_writing named pieces writing join
    ⟨List.replicate padding 0x3d, whole.symm⟩ (by
      have length := congrArg List.length whole
      rw [List.length_append] at length
      omega)
  rw [Nat.zero_add] at final
  have same : addPieces mime pieces state = addPieces mime pieces started := by
    cases pieces with
    | nil => exact absurd rfl some
    | cons piece pieces =>
      obtain ⟨first, -, coded, -, -⟩ := joined_cons join
      rw [addPieces, addPieces, WriteRequest.addBase64Data, WriteRequest.addBase64Data, coded]
      rw [start, startMime_current named writing.current]
  refine ⟨next, same.trans added, final.flush ⟨padding, few, whole⟩ named new, Or.inr ?_⟩
  rw [final.current, List.map_append]
  exact List.mem_append_right _ (List.mem_singleton_self mime)

/-- An item that holds the text for its data. -/
def Item.Encoded (item : Item) : Prop :=
  ∃ text, joined item.pieces = some text ∧ EncodedAs item.data text

/-- The MIME types that are written, with their data. -/
def written (items : List Item) : List (String × List UInt8) :=
  (items.filter fun item => !item.pieces.isEmpty).map fun item => (item.mime, item.data)

theorem written_cons (item : Item) (items : List Item) :
    written (item :: items) =
      (if item.pieces = [] then [] else [(item.mime, item.data)]) ++ written items := by
  cases pieces : item.pieces <;> simp [written, pieces]

/-- The items one by one. -/
theorem addItems_settles {total : Nat} (items : List Item) :
    ∀ {done : List (String × List UInt8)} {state : WriteRequest}, Settles total done state →
      (∀ item ∈ items, item.mime ≠ "" ∧ item.Encoded) →
      (done.map (·.1) ++ items.map (·.mime)).Nodup →
      ((done ++ written items).flatMap (·.2)).length ≤ total →
      ∃ next, addItems items state = (next, true) ∧ Settles total (done ++ written items) next := by
  induction items with
  | nil =>
    intro done state settles _ _ _
    rw [written, List.filter_nil, List.map_nil, List.append_nil]
    exact ⟨state, rfl, settles⟩
  | cons item items ih =>
    intro done state settles good distinct fits
    obtain ⟨named, text, join, encoded⟩ := good item List.mem_cons_self
    have later := fun other member => good other (List.mem_cons_of_mem item member)
    rw [written_cons] at fits ⊢
    by_cases none : item.pieces = []
    · rw [if_pos none, List.nil_append] at fits ⊢
      have fewer : (done.map (·.1) ++ items.map (·.mime)).Nodup := by
        apply List.Nodup.sublist _ distinct
        exact List.Sublist.append (List.Sublist.refl _) (List.sublist_cons_self _ _)
      obtain ⟨next, added, settles'⟩ := ih settles later fewer fits
      refine ⟨next, ?_, settles'⟩
      rw [addItems, none]
      exact added
    · rw [if_neg none, ← List.append_assoc] at fits ⊢
      have new : item.mime ∉ done.map (·.1) := by
        intro member
        rw [List.nodup_append] at distinct
        exact distinct.2.2 _ member _ List.mem_cons_self rfl
      have room : (done.flatMap (·.2)).length + item.data.length ≤ total := by
        simp only [List.flatMap_append, List.length_append, List.flatMap_singleton] at fits
        omega
      have apart : ((done ++ [(item.mime, item.data)]).map (·.1) ++
          items.map (·.mime)).Nodup := by
        rw [List.map_append, List.append_assoc]
        exact distinct
      obtain ⟨next, added, settles'⟩ := addPieces_settles settles named new join encoded none room
      obtain ⟨last, more, final⟩ := ih settles' later apart fits
      refine ⟨last, ?_, final⟩
      rw [addItems, added, andThen, if_pos rfl, more]

/-! ### What is stored -/

/-- The data at the place of a MIME type. -/
theorem Stored.dataFor {total : Nat} {done : List (String × List UInt8)} {state : WriteRequest}
    (stored : Stored total done state) (distinct : (done.map (·.1)).Nodup) {mime : String}
    {data : List UInt8} (member : (mime, data) ∈ done) : state.dataFor mime = some data := by
  obtain ⟨before, behind, rfl⟩ := List.append_of_mem member
  have new : mime ∉ (placesOf 0 before).map (·.1) := by
    rw [placesOf_keys]
    intro known
    rw [List.map_append, List.nodup_append] at distinct
    exact distinct.2.2 mime known mime List.mem_cons_self rfl
  rw [WriteRequest.dataFor, stored.places, placesOf_append, placesOf, lookup_behind new,
    Option.map_some, Tempfile.read, if_neg (by dsimp only; omega), stored.content,
    List.flatMap_append, List.flatMap_cons, ← List.append_assoc, Nat.zero_add]
  exact congrArg some (FileBytes.read_middle _ data _)

theorem Stored.dataFor_none {total : Nat} {done : List (String × List UInt8)}
    {state : WriteRequest} (stored : Stored total done state) {mime : String}
    (new : mime ∉ done.map (·.1)) : state.dataFor mime = none := by
  rw [WriteRequest.dataFor, stored.places, lookup_new (by rw [placesOf_keys]; exact new)]
  rfl

/-- A new request has nothing. -/
theorem make_settles {total : Nat} {options : Options} {isPrimarySelection : Bool}
    {protocolType : ProtocolType} {id : String} {rolloverSize : Nat} {maxSize : ℚ}
    (below : (WriteRequest.make options isPrimarySelection protocolType id rolloverSize
      maxSize).Below total) :
    Settles total [] (WriteRequest.make options isPrimarySelection protocolType id rolloverSize
      maxSize) :=
  ⟨⟨_, rfl, ⟨rfl, rfl, rfl, rfl, rfl, rfl, below⟩⟩, Or.inl rfl⟩

theorem written_sublist (items : List Item) :
    ((written items).map (·.1)).Sublist (items.map (·.mime)) := by
  rw [written, List.map_map]
  exact List.Sublist.map _ List.filter_sublist

/-- The pieces of the text for each MIME type, however they are cut, leave exactly the data. -/
theorem storesDecodedData (options : Options) (isPrimarySelection : Bool)
    (protocolType : ProtocolType) (id : String) (rolloverSize : Nat) (maxSize : ℚ)
    (items : List Item) (named : ∀ item ∈ items, item.mime ≠ "")
    (distinct : (items.map (·.mime)).Nodup) (encoded : ∀ item ∈ items, item.Encoded)
    (below : (WriteRequest.make options isPrimarySelection protocolType id rolloverSize
      maxSize).Below ((written items).flatMap (·.2)).length) :
    ∃ final, writeAll items (WriteRequest.make options isPrimarySelection protocolType id
        rolloverSize maxSize) = (final, true) ∧
      ∀ item ∈ items, final.dataFor item.mime =
        if item.pieces = [] then none else some item.data := by
  obtain ⟨next, added, settles⟩ := addItems_settles items (make_settles below)
    (fun item member => ⟨named item member, encoded item member⟩) distinct (Nat.le_refl _)
  obtain ⟨final, flush, stored⟩ := settles.flush
  refine ⟨final, ?_, ?_⟩
  · rw [writeAll, added, andThen, if_pos rfl, flush]
  · intro item member
    by_cases none : item.pieces = []
    · rw [if_pos none]
      apply stored.dataFor_none
      intro known
      obtain ⟨other, among, same⟩ := List.mem_map.1 known
      obtain ⟨other', among', rfl⟩ := List.mem_map.1 among
      obtain ⟨present, filled⟩ := List.mem_filter.1 among'
      have equal := List.inj_on_of_nodup_map distinct present member same
      rw [equal, none] at filled
      cases filled
    · rw [if_neg none]
      apply stored.dataFor (distinct.sublist (written_sublist items))
      refine List.mem_map.2 ⟨item, List.mem_filter.2 ⟨member, ?_⟩, rfl⟩
      simpa using none

/-- Two types whose text is cut inside of its groups, the first without its padding. -/
def cutItems : List Item :=
  [{ mime := "text/plain", data := [65], pieces := [.str ['Q'], .bytes [81]] },
    { mime := "text/html", data := [66, 67, 68, 69, 70]
      pieces := [.str "QkN".toList, .str [], .str "ERUY=".toList] }]

theorem storesDecodedData_cutItems :
    ∃ final, writeAll cutItems (WriteRequest.make ⟨512, []⟩ false .osc52 "" 16777216 (-1)) =
        (final, true) ∧
      ∀ item ∈ cutItems, final.dataFor item.mime =
        if item.pieces = [] then none else some item.data := by
  apply storesDecodedData ⟨512, []⟩ false .osc52 "" 16777216 (-1) cutItems
  · decide
  · decide
  · intro item member
    cases member with
    | head => exact ⟨[81, 81], by decide, 2, by decide, by decide⟩
    | tail _ member =>
      cases member with
      | head => exact ⟨[81, 107, 78, 69, 82, 85, 89, 61], by decide, 0, by decide, by decide⟩
      | tail _ none => cases none
  · intro _
    norm_num [WriteRequest.make, written, cutItems]

end Clipboard

end Smelly
