/-
Module: Smelly.Proofs.Utf8Strings
Purpose: `decode_utf8_string` reads back what `encode_utf8` wrote, whatever bytes stand in front of
  it, and finds the characters that the loop of the parser dispatches.
Trusted boundary: none
-/
import Smelly.Proofs.ParserTexts

namespace Smelly

open ParseScreen Consume

/-! ### The encoder -/

/-- The marker bits of a byte and its payload do not overlap. -/
theorem or_marker (marker shift : Nat) {payload : Nat} (small : payload < 2 ^ shift) :
    payload ||| marker <<< shift = marker * 2 ^ shift + payload := by
  rw [Nat.or_comm, ← Nat.shiftLeft_add_eq_or_of_lt small, Nat.shiftLeft_eq]

/-- A continuation byte. -/
theorem tail_byte (v shift : Nat) (few : v < 2 ^ 32) (small : shift < 32) :
    ((((UInt32.ofNat v >>> UInt32.ofNat shift) &&& 0x3F) ||| 0x80).toUInt8 : UInt8) =
      UInt8.ofNat (v / 2 ^ shift % 64 + 0x80) := by
  apply UInt8.toNat_inj.1
  rw [UInt32.toNat_toUInt8, UInt32.toNat_or, UInt32.toNat_and, UInt32.toNat_shiftRight,
    UInt32.toNat_ofNat', UInt32.toNat_ofNat', Nat.mod_eq_of_lt few]
  have count : shift % 2 ^ 32 % 32 = shift := by omega
  rw [count, Nat.shiftRight_eq_div_pow]
  show (v / 2 ^ shift &&& (2 ^ 6 - 1) ||| 2 <<< 6) % 2 ^ 8 = _
  rw [Nat.and_two_pow_sub_one_eq_mod, or_marker 2 6 (Nat.mod_lt _ (by decide))]
  exact congrArg (· % 2 ^ 8) (Nat.add_comm _ _)

/-- A first byte. -/
theorem lead_byte (v shift marker bits : Nat) (few : v < 2 ^ 32) (small : shift < 32)
    (payload : v / 2 ^ shift < 2 ^ bits) (fits : marker * 2 ^ bits < 256) :
    (((UInt32.ofNat v >>> UInt32.ofNat shift) ||| UInt32.ofNat (marker * 2 ^ bits)).toUInt8 : UInt8)
      = UInt8.ofNat (v / 2 ^ shift + marker * 2 ^ bits) := by
  apply UInt8.toNat_inj.1
  rw [UInt32.toNat_toUInt8, UInt32.toNat_or, UInt32.toNat_shiftRight, UInt32.toNat_ofNat',
    UInt32.toNat_ofNat', UInt32.toNat_ofNat', Nat.mod_eq_of_lt few, UInt8.toNat_ofNat']
  have count : shift % 2 ^ 32 % 32 = shift := by omega
  have marked : marker * 2 ^ bits % 2 ^ 32 = marker <<< bits := by
    rw [Nat.shiftLeft_eq, Nat.mod_eq_of_lt (by omega)]
  rw [count, Nat.shiftRight_eq_div_pow, marked, or_marker marker bits payload, Nat.add_comm]

/-- `encode_utf8` writes the UTF-8 bytes of a character. -/
theorem encodeUtf8_val (c : Char) : encodeUtf8 c.val = String.utf8EncodeChar c := by
  have scalar := c.valid
  rw [UInt32.isValidChar] at scalar
  have val : c.val = UInt32.ofNat c.val.toNat := UInt32.ofNat_toNat.symm
  rw [val]
  unfold String.utf8EncodeChar
  obtain ⟨v, hv⟩ : ∃ v, v = c.val.toNat := ⟨_, rfl⟩
  rw [← hv] at scalar ⊢
  have few : v < 2 ^ 32 := by omega
  have below : ∀ n, n < 2 ^ 32 → (UInt32.ofNat v < UInt32.ofNat n ↔ v < n) := by
    intro n small
    rw [UInt32.lt_iff_toNat_lt, UInt32.toNat_ofNat', UInt32.toNat_ofNat', Nat.mod_eq_of_lt few,
      Nat.mod_eq_of_lt small]
  have ascii : UInt32.ofNat v < 0x80 ↔ v < 0x80 := below 0x80 (by decide)
  have latin : UInt32.ofNat v < 0x800 ↔ v < 0x800 := below 0x800 (by decide)
  have basic : UInt32.ofNat v < 0x10000 ↔ v < 0x10000 := below 0x10000 (by decide)
  have unicode : UInt32.ofNat v < 0x110000 ↔ v < 0x110000 := below 0x110000 (by decide)
  have last : ((UInt32.ofNat v &&& 0x3F) ||| 0x80).toUInt8 = UInt8.ofNat (v % 64 + 0x80) := by
    have shifted := tail_byte v 0 few (by decide)
    rw [Nat.pow_zero, Nat.div_one] at shifted
    exact shifted
  have sixth : (((UInt32.ofNat v >>> 6) &&& 0x3F) ||| 0x80).toUInt8 =
      UInt8.ofNat (v / 64 % 64 + 0x80) := tail_byte v 6 few (by decide)
  have twelfth : (((UInt32.ofNat v >>> 12) &&& 0x3F) ||| 0x80).toUInt8 =
      UInt8.ofNat (v / 4096 % 64 + 0x80) := tail_byte v 12 few (by decide)
  unfold encodeUtf8
  by_cases one : v ≤ 0x7f
  · rw [if_pos one, if_pos (ascii.2 (by omega))]
    congr 1
    apply UInt8.toNat_inj.1
    rw [UInt32.toNat_toUInt8, UInt32.toNat_ofNat', UInt8.toNat_ofNat', Nat.mod_eq_of_lt few]
  rw [if_neg one, if_neg (fun small => one (Nat.le_of_lt_succ (ascii.1 small)))]
  by_cases two : v ≤ 0x7ff
  · have lead : ((UInt32.ofNat v >>> 6) ||| 0xC0).toUInt8 = UInt8.ofNat (v / 64 + 0xC0) :=
      lead_byte v 6 6 5 few (by decide) (by omega) (by decide)
    rw [if_pos two, if_pos (latin.2 (by omega)), lead, last,
      Nat.mod_eq_of_lt (show v / 64 < 0x20 by omega)]
  rw [if_neg two, if_neg (fun small => two (Nat.le_of_lt_succ (latin.1 small)))]
  by_cases three : v ≤ 0xffff
  · have lead : ((UInt32.ofNat v >>> 12) ||| 0xE0).toUInt8 = UInt8.ofNat (v / 4096 + 0xE0) :=
      lead_byte v 12 14 4 few (by decide) (by omega) (by decide)
    rw [if_pos three, if_pos (basic.2 (by omega)), lead, sixth, last,
      Nat.mod_eq_of_lt (show v / 4096 < 0x10 by omega)]
  · have lead : ((UInt32.ofNat v >>> 18) ||| 0xF0).toUInt8 = UInt8.ofNat (v / 262144 + 0xF0) :=
      lead_byte v 18 30 3 few (by decide) (by omega) (by decide)
    rw [if_neg three, if_neg (fun small => three (Nat.le_of_lt_succ (basic.1 small))),
      if_pos (unicode.2 (by omega)), lead, twelfth, sixth, last,
      Nat.mod_eq_of_lt (show v / 262144 < 0x08 by omega)]

/-! ### Reading one byte -/

/-- The code point that has been completed, and the decoder behind it. -/
def settleByte (result : Nat × UInt32) : Option UInt32 × Nat × UInt32 :=
  if result.1 = utf8Accept then (some result.2, result)
  else if result.1 = utf8Reject then (none, utf8Accept, result.2)
  else (none, result)

/-- One byte, read a second time when it ended a character that had begun. -/
def decodeByte (state : Nat) (codep : UInt32) (byte : UInt8) : Option UInt32 × Nat × UInt32 :=
  let result := decodeUtf8 state codep byte
  if result.1 = utf8Reject ∧ state ≠ utf8Accept then
    settleByte (decodeUtf8 utf8Accept result.2 byte)
  else settleByte result

/-- The code points of a string, for a decoder in any state. -/
def decodeBytes (state : Nat) (codep : UInt32) : Bytes → List UInt32
  | [] => []
  | byte :: rest =>
    let (ch, state, codep) := decodeByte state codep byte
    ch.toList ++ decodeBytes state codep rest

/-- The decoder behind a string. -/
def decoderBehind (state : Nat) (codep : UInt32) (bytes : Bytes) : Nat × UInt32 :=
  bytes.foldl (fun d byte => (decodeByte d.1 d.2 byte).2) (state, codep)

theorem settleByte_accept {result : Nat × UInt32} (accept : result.1 = utf8Accept) :
    settleByte result = (some result.2, result) := if_pos accept

theorem settleByte_reject {result : Nat × UInt32} (reject : result.1 = utf8Reject) :
    settleByte result = (none, utf8Accept, result.2) := by
  rw [settleByte, if_neg (by rw [reject]; decide), if_pos reject]

theorem settleByte_inside {result : Nat × UInt32} (accept : result.1 ≠ utf8Accept)
    (reject : result.1 ≠ utf8Reject) : settleByte result = (none, result) := by
  rw [settleByte, if_neg accept, if_neg reject]

theorem decodeByte_once {state : Nat} {codep : UInt32} {byte : UInt8}
    (once : (decodeUtf8 state codep byte).1 = utf8Reject → state = utf8Accept) :
    decodeByte state codep byte = settleByte (decodeUtf8 state codep byte) :=
  if_neg fun again => again.2 (once again.1)

theorem decodeByte_again {state : Nat} {codep : UInt32} {byte : UInt8}
    (reject : (decodeUtf8 state codep byte).1 = utf8Reject) (begun : state ≠ utf8Accept) :
    decodeByte state codep byte =
      settleByte (decodeUtf8 utf8Accept (decodeUtf8 state codep byte).2 byte) :=
  if_pos ⟨reject, begun⟩

/-- The loop at a byte between two characters. -/
theorem decodeUtf8StringFrom_settled (codep : UInt32) (i : Nat) (byte : UInt8) (rest : Bytes) :
    decodeUtf8StringFrom utf8Accept codep utf8Accept i (byte :: rest) =
      (settleByte (decodeUtf8 utf8Accept codep byte)).1.toList ++
        decodeUtf8StringFrom (settleByte (decodeUtf8 utf8Accept codep byte)).2.1
          (settleByte (decodeUtf8 utf8Accept codep byte)).2.2
          (settleByte (decodeUtf8 utf8Accept codep byte)).2.1 (i + 1) rest := by
  rw [decodeUtf8StringFrom]
  dsimp only
  by_cases accept : (decodeUtf8 utf8Accept codep byte).1 = utf8Accept
  · rw [if_pos accept, settleByte_accept accept]
    rfl
  · by_cases reject : (decodeUtf8 utf8Accept codep byte).1 = utf8Reject
    · rw [if_neg accept, if_pos reject, if_neg (fun again => again.1 rfl), settleByte_reject reject]
      rfl
    · rw [if_neg accept, if_neg reject, settleByte_inside accept reject]
      rfl

/-- The loop of `decode_utf8_string` reads one byte after the other. -/
theorem decodeUtf8StringFrom_eq (bytes : Bytes) {state i : Nat} (codep : UInt32)
    (begun : state ≠ utf8Accept → 0 < i) :
    decodeUtf8StringFrom state codep state i bytes = decodeBytes state codep bytes := by
  induction bytes generalizing state codep i with
  | nil => rw [decodeUtf8StringFrom, decodeBytes]
  | cons byte rest ih =>
    by_cases between : state = utf8Accept
    · subst between
      rw [decodeUtf8StringFrom_settled, decodeBytes, ih _ (fun _ => Nat.succ_pos i),
        decodeByte_once (fun _ => rfl)]
    · rw [decodeUtf8StringFrom, decodeBytes]
      dsimp only
      by_cases accept : (decodeUtf8 state codep byte).1 = utf8Accept
      · have once : (decodeUtf8 state codep byte).1 = utf8Reject → state = utf8Accept :=
          fun reject => absurd (accept.symm.trans reject) (by decide)
        rw [if_pos accept, decodeByte_once once, settleByte_accept accept,
          ih _ (fun _ => Nat.succ_pos i)]
        rfl
      · by_cases reject : (decodeUtf8 state codep byte).1 = utf8Reject
        · rw [if_neg accept, if_pos reject, if_pos ⟨between, begun between⟩,
            decodeByte_again reject between, decodeUtf8StringFrom_settled,
            ih _ (fun _ => Nat.succ_pos i)]
        · rw [if_neg accept, if_neg reject, decodeByte_once (fun h => absurd h reject),
            settleByte_inside accept reject, ih _ (fun _ => Nat.succ_pos i)]
          rfl

theorem decodeUtf8String_eq (src : Bytes) :
    decodeUtf8String src = decodeBytes utf8Accept 0 src :=
  decodeUtf8StringFrom_eq src 0 (fun begun => absurd rfl begun)

theorem decodeBytes_append (state : Nat) (codep : UInt32) (first second : Bytes) :
    decodeBytes state codep (first ++ second) =
      decodeBytes state codep first ++
        decodeBytes (decoderBehind state codep first).1 (decoderBehind state codep first).2
          second := by
  induction first generalizing state codep with
  | nil => rfl
  | cons byte rest ih =>
    rw [List.cons_append, decodeBytes, decodeBytes]
    dsimp only
    rw [ih, List.append_assoc]
    rfl

/-- A byte completes one character at most. -/
theorem length_decodeBytes (state : Nat) (codep : UInt32) (bytes : Bytes) :
    (decodeBytes state codep bytes).length ≤ bytes.length := by
  induction bytes generalizing state codep with
  | nil => exact Nat.le_refl _
  | cons byte rest ih =>
    rw [decodeBytes]
    rw [List.length_append, Nat.add_comm]
    exact Nat.add_le_add (ih _ _) Option.length_toList_le

/-! ### The characters of a text -/

/-- No character is accepted or carried on at a byte that begins one. -/
theorem decodeUtf8_lead_inside {state : Nat} (valid : state < 9) (begun : state ≠ utf8Accept)
    (codep : UInt32) {n : Nat} (byte : n < 256) (lead : n < 0x80 ∨ 0xc0 ≤ n) :
    (decodeUtf8 state codep (UInt8.ofNat n)).1 = utf8Reject := by
  have checked : ∀ state < 9, state ≠ 0 → ∀ n < 256, n < 0x80 ∨ 0xc0 ≤ n →
      utf8Data.getD (256 + state * 16 + utf8Type (UInt8.ofNat n)) 1 = 1 := by
    decide +kernel
  exact checked state valid begun n byte lead

theorem decodeUtf8_valid {state : Nat} (valid : state < 9) (codep : UInt32) (byte : UInt8) :
    (decodeUtf8 state codep byte).1 < 9 := by
  have checked : ∀ state < 9, ∀ n < 256,
      utf8Data.getD (256 + state * 16 + utf8Type (UInt8.ofNat n)) 1 < 9 := by
    decide +kernel
  have found := checked state valid byte.toNat byte.toNat_lt
  rw [UInt8.ofNat_toNat] at found
  exact found

/-- What was read before a character does not matter to it. -/
theorem decodeUtf8_between (codep : UInt32) (byte : UInt8) :
    decodeUtf8 utf8Accept codep byte = decodeUtf8 utf8Accept 0 byte := by
  simp [decodeUtf8]

theorem settleByte_valid {result : Nat × UInt32} (valid : result.1 < 9) :
    (settleByte result).2.1 < 9 := by
  unfold settleByte
  split
  · exact valid
  · split
    · exact Nat.succ_pos 8
    · exact valid

theorem decodeByte_valid {state : Nat} (valid : state < 9) (codep : UInt32) (byte : UInt8) :
    (decodeByte state codep byte).2.1 < 9 := by
  rw [decodeByte]
  split
  · exact settleByte_valid (decodeUtf8_valid (by decide) _ byte)
  · exact settleByte_valid (decodeUtf8_valid valid codep byte)

theorem decoderBehind_valid {state : Nat} (valid : state < 9) (codep : UInt32) (bytes : Bytes) :
    (decoderBehind state codep bytes).1 < 9 := by
  induction bytes generalizing state codep with
  | nil => exact valid
  | cons byte rest ih => exact ih (decodeByte_valid valid codep byte) _

/-- A byte that begins a character is read as such in any state. -/
theorem decodeByte_lead {state : Nat} (valid : state < 9) (codep : UInt32) {n : Nat}
    (byte : n < 256) (lead : n < 0x80 ∨ 0xc0 ≤ n) :
    decodeByte state codep (UInt8.ofNat n) =
      settleByte (decodeUtf8 utf8Accept 0 (UInt8.ofNat n)) := by
  by_cases between : state = utf8Accept
  · subst between
    rw [decodeByte_once (fun _ => rfl), decodeUtf8_between]
  · rw [decodeByte_again (decodeUtf8_lead_inside valid between codep byte lead) between,
      decodeUtf8_between]

theorem decodeBytes_lead {state : Nat} (valid : state < 9) (codep : UInt32) {n : Nat}
    (byte : n < 256) (lead : n < 0x80 ∨ 0xc0 ≤ n) (rest : Bytes) :
    decodeBytes state codep (UInt8.ofNat n :: rest) =
      decodeBytes utf8Accept 0 (UInt8.ofNat n :: rest) := by
  rw [decodeBytes, decodeBytes, decodeByte_lead valid codep byte lead,
    decodeByte_lead (by decide) 0 byte lead]

/-- Between two characters the code point read last does not matter. -/
theorem decodeBytes_accept (codep : UInt32) (bytes : Bytes) :
    decodeBytes utf8Accept codep bytes = decodeBytes utf8Accept 0 bytes := by
  cases bytes with
  | nil => rfl
  | cons byte rest =>
    rw [decodeBytes, decodeBytes, decodeByte_once (fun _ => rfl), decodeUtf8_between,
      decodeByte_once (fun _ => rfl)]

theorem decodeBytes_decodes {state : Nat} {codep ch : UInt32} {bytes : Bytes}
    (decodes : Decodes state codep bytes ch) (rest : Bytes) :
    decodeBytes state codep (bytes ++ rest) = ch :: decodeBytes utf8Accept ch rest := by
  induction bytes generalizing state codep with
  | nil => exact decodes.elim
  | cons byte more ih =>
    rw [List.cons_append, decodeBytes]
    cases more with
    | nil =>
      have last : decodeUtf8 state codep byte = (utf8Accept, ch) := decodes
      have accept : (decodeUtf8 state codep byte).1 = utf8Accept := congrArg Prod.fst last
      rw [decodeByte_once (fun reject => absurd (accept.symm.trans reject) (by decide)), last]
      rfl
    | cons next more =>
      obtain ⟨inside, valid, later⟩ := decodes
      rw [decodeByte_once (fun reject => absurd reject valid), settleByte_inside inside valid]
      exact ih later

/-- The first byte of a character, and a byte that is not one of those that continue another. -/
theorem utf8EncodeChar_lead (c : Char) :
    ∃ n rest, String.utf8EncodeChar c = UInt8.ofNat n :: rest ∧ n < 256 ∧
      (n < 0x80 ∨ 0xc0 ≤ n) := by
  rcases Nat.lt_or_ge c.val.toNat 0x80 with ascii | wide
  · exact ⟨c.val.toNat, [], Utf8.utf8EncodeChar_of_ascii ascii, by omega, Or.inl ascii⟩
  · obtain ⟨lead, tail, bytes, -, low, high, -⟩ := Utf8.utf8EncodeChar_of_wide wide
    exact ⟨lead, tail, bytes, high, Or.inr (by omega)⟩

/-- A character is read whatever stands in front of it. -/
theorem decodeBytes_char {state : Nat} (valid : state < 9) (codep : UInt32) (c : Char)
    (rest : Bytes) :
    decodeBytes state codep (encodeUtf8 c.val ++ rest) =
      c.val :: decodeBytes utf8Accept c.val rest := by
  obtain ⟨n, tail, bytes, byte, lead⟩ := utf8EncodeChar_lead c
  have decodes := decodes_utf8EncodeChar c 0
  rw [encodeUtf8_val, ← decodeBytes_decodes decodes rest, bytes, List.cons_append,
    decodeBytes_lead valid codep byte lead]

/-- So is a text of characters. -/
theorem decodeBytes_encoded {state : Nat} (valid : state < 9) (codep : UInt32)
    (text : List Char) :
    decodeBytes state codep (text.flatMap fun c => encodeUtf8 c.val) = text.map Char.val := by
  induction text generalizing state codep with
  | nil => rfl
  | cons c rest ih =>
    rw [List.flatMap_cons, decodeBytes_char valid, ih (by decide), List.map_cons]

/-! ### The loop of the parser -/

/-- The screen with the decoder behind the character `ch`. -/
def atCharacter (s : ParseScreen) (ch : UInt32) : ParseScreen :=
  { s with decoder := { s.decoder with utf8State := utf8Accept, utf8Codepoint := ch } }

/-- Dispatch the characters of a text one after the other. -/
def dispatchText (h : Handlers) : ParseScreen → Text → Option ParseScreen
  | s, [] => some s
  | s, ch :: rest =>
    (dispatchUnicodeChar h (atCharacter s ch) ch).bind fun result => dispatchText h result.1 rest

/-- The characters of the text do not make the screen leave UTF-8. -/
def StaysUtf8 (s : ParseScreen) (text : Text) : Prop :=
  ∀ front t, front <+: text → dispatchText dispatchHandlers s front = some t →
    t.decoder.useLatin1 = false

/-- The screens differ in nothing but what the decoder has read of the next character. -/
def SameText (s t : ParseScreen) : Prop := { s with decoder := t.decoder } = t

/-- The screen with another decoder. -/
def withDecoder (s : ParseScreen) (d : Nat × UInt32) : ParseScreen :=
  { s with decoder := { s.decoder with utf8State := d.1, utf8Codepoint := d.2 } }

/-- What becomes of a screen at a byte that has been decoded. -/
def deliver (h : Handlers) (s : ParseScreen) :
    Option UInt32 × Nat × UInt32 → Option (ParseScreen × Bool)
  | (none, d) => some (withDecoder s d, false)
  | (some ch, d) => dispatchUnicodeChar h (withDecoder s d) ch

/-- What a round without a second reading comes to. -/
def roundResult (result : Option (ParseScreen × Nat × NextByte)) :
    Option (ParseScreen × Bool) :=
  result.map fun r => (r.1, decide (r.2.2 = .stop))

/-- A round that does not ask for the byte again. -/
theorem decodeRound_once (h : Handlers) {s : ParseScreen} (utf8 : s.decoder.useLatin1 = false)
    (prev : Nat) (byte : UInt8)
    (once : (decoded s byte).decoder.utf8State = utf8Reject → prev = utf8Accept) :
    roundResult (decodeRound h prev s byte) =
        deliver h s (settleByte (decodeUtf8 s.decoder.utf8State s.decoder.utf8Codepoint byte)) ∧
      ∀ t prev', decodeRound h prev s byte ≠ some (t, prev', .again) := by
  by_cases accept : (decoded s byte).decoder.utf8State = utf8Accept
  · rw [decodeRound_accept utf8 prev accept, settleByte_accept accept]
    have same : withDecoder s (decodeUtf8 s.decoder.utf8State s.decoder.utf8Codepoint byte) =
        decoded s byte := rfl
    rw [deliver, same]
    have point : (decoded s byte).decoder.utf8Codepoint =
      (decodeUtf8 s.decoder.utf8State s.decoder.utf8Codepoint byte).2 := rfl
    rw [point]
    cases dispatchUnicodeChar h (decoded s byte) _ with
    | none => exact ⟨rfl, fun t prev' same => by cases same⟩
    | some result =>
      obtain ⟨t, stop⟩ := result
      cases stop with
      | false => exact ⟨rfl, fun t prev' same => by cases same⟩
      | true => exact ⟨rfl, fun t prev' same => by cases same⟩
  · by_cases reject : (decoded s byte).decoder.utf8State = utf8Reject
    · rw [decodeRound_reject utf8 prev reject, settleByte_reject reject,
        if_neg (not_not_intro (once reject))]
      exact ⟨rfl, fun t prev' same => by cases same⟩
    · rw [decodeRound_inside utf8 prev accept reject, settleByte_inside accept reject]
      exact ⟨rfl, fun t prev' same => by cases same⟩

theorem readFrom_once {h : Handlers} {s : ParseScreen} {prev : Nat} {byte : UInt8}
    (once : ∀ t prev', decodeRound h prev s byte ≠ some (t, prev', .again)) :
    ((readFrom h prev s byte).map fun r => (r.1, r.2.2)).toOption =
      roundResult (decodeRound h prev s byte) := by
  rw [readFrom]
  cases round : decodeRound h prev s byte with
  | none => rfl
  | some result =>
    obtain ⟨t, prev', next⟩ := result
    cases next with
    | advance => rfl
    | stop => rfl
    | again => exact absurd round (once t prev')

/-- Reading a byte in UTF-8. -/
theorem readByte_utf8 {h : Handlers} {s : ParseScreen} (utf8 : s.decoder.useLatin1 = false)
    (byte : UInt8) :
    (readByte h s byte).toOption =
      deliver h s (decodeByte s.decoder.utf8State s.decoder.utf8Codepoint byte) := by
  by_cases again : (decoded s byte).decoder.utf8State = utf8Reject ∧
      s.decoder.utf8State ≠ utf8Accept
  · obtain ⟨reject, begun⟩ := again
    have utf8' : (rejected s byte).decoder.useLatin1 = false := utf8
    obtain ⟨second, once⟩ := decodeRound_once h utf8' utf8Accept byte (fun _ => rfl)
    have round := decodeRound_reject (h := h) utf8 s.decoder.utf8State reject
    rw [if_pos begun] at round
    have read : readByte h s byte =
        (readFrom h utf8Accept (rejected s byte) byte).map fun r => (r.1, r.2.2) := by
      rw [readByte, readFrom, round, readFrom]
      cases rest : decodeRound h utf8Accept (rejected s byte) byte with
      | none => simp only [rest]
      | some result =>
        obtain ⟨t, prev', next⟩ := result
        simp only [rest]
        cases next with
        | advance => rfl
        | stop => rfl
        | again => exact absurd rest (once t prev')
    rw [decodeByte_again reject begun, read, readFrom_once once, second]
    rfl
  · have once : (decoded s byte).decoder.utf8State = utf8Reject →
        s.decoder.utf8State = utf8Accept := fun reject => by
      by_contra begun
      exact again ⟨reject, begun⟩
    obtain ⟨first, single⟩ := decodeRound_once h utf8 _ byte once
    rw [decodeByte_once once, ← first, ← readFrom_once single]
    rfl

theorem atCharacter_eq {s : ParseScreen} {d : Nat × UInt32} {ch : UInt32}
    (completed : d = (utf8Accept, ch)) : withDecoder s d = atCharacter s ch := by
  rw [completed]
  rfl

/-- A completed character is what the decoder holds. -/
theorem decodeByte_some {state : Nat} {codep ch : UInt32} {byte : UInt8} {d : Nat × UInt32}
    (read : decodeByte state codep byte = (some ch, d)) : d = (utf8Accept, ch) := by
  have settled : ∀ result, settleByte result = (some ch, d) → d = (utf8Accept, ch) := by
    intro result same
    unfold settleByte at same
    split at same
    · rename_i accept
      obtain ⟨code, rfl⟩ := Prod.mk.inj same
      exact Prod.ext accept (Option.some.inj code)
    · split at same
      · cases same
      · cases same
  rw [decodeByte] at read
  split at read
  · exact settled _ read
  · exact settled _ read

theorem SameText.refl (s : ParseScreen) : SameText s s := rfl

theorem SameText.trans {s t u : ParseScreen} (first : SameText s t) (second : SameText t u) :
    SameText s u := by
  unfold SameText at *
  rw [← second, ← first]

theorem sameText_withDecoder (s : ParseScreen) (d : Nat × UInt32) : SameText s (withDecoder s d) :=
  rfl

theorem StaysUtf8.withDecoder {s : ParseScreen} {text : Text} (stays : StaysUtf8 s text)
    (d : Nat × UInt32) : StaysUtf8 (withDecoder s d) text := by
  intro front t isPrefix dispatched
  cases front with
  | nil =>
    obtain rfl : Smelly.withDecoder s d = t := Option.some.inj dispatched
    exact stays [] s (List.nil_prefix) rfl
  | cons ch front => exact stays (ch :: front) t isPrefix dispatched

/-- The loop has come to what dispatching a text comes to. -/
def ComesTo (dispatched : Option ParseScreen) (parsed : Except ParseScreen (ParseScreen × Bytes)) :
    Prop :=
  match dispatched with
  | some t => ∃ t', parsed = .ok (t', []) ∧ SameText t t'
  | none => ∃ t', parsed = .error t'

theorem ComesTo.withDecoder {s : ParseScreen} {d : Nat × UInt32} {text : Text}
    {parsed : Except ParseScreen (ParseScreen × Bytes)}
    (comes : ComesTo (dispatchText dispatchHandlers (withDecoder s d) text) parsed) :
    ComesTo (dispatchText dispatchHandlers s text) parsed := by
  cases text with
  | nil =>
    obtain ⟨t', parsedEq, same⟩ := comes
    exact ⟨t', parsedEq, (sameText_withDecoder s d).trans same⟩
  | cons ch rest => exact comes

theorem atCharacter_atRest {s : ParseScreen} (saved : s.SavedWhole) (ch : UInt32) :
    (atCharacter s ch).AtRest := ⟨⟨saved.main, saved.alt⟩, fun _ => rfl⟩

/-- The loop of the parser dispatches the characters of its bytes, one after the other. -/
theorem consume_text {s : ParseScreen} (saved : s.SavedWhole) (bytes : Bytes)
    (stays : StaysUtf8 s (decodeBytes s.decoder.utf8State s.decoder.utf8Codepoint bytes)) :
    ComesTo (dispatchText dispatchHandlers s
        (decodeBytes s.decoder.utf8State s.decoder.utf8Codepoint bytes))
      (consume (readByte dispatchHandlers) s bytes) := by
  induction bytes generalizing s with
  | nil => exact ⟨s, rfl, SameText.refl s⟩
  | cons byte rest ih =>
    have utf8 : s.decoder.useLatin1 = false := stays [] s List.nil_prefix rfl
    have read := readByte_utf8 (h := dispatchHandlers) utf8 byte
    rw [consume_cons]
    rw [decodeBytes] at stays ⊢
    cases decoded : decodeByte s.decoder.utf8State s.decoder.utf8Codepoint byte with
    | mk ch d =>
      rw [decoded] at read stays
      cases ch with
      | none =>
        cases got : readByte dispatchHandlers s byte with
        | error t =>
          rw [got] at read
          cases read
        | ok result =>
          rw [got] at read
          obtain rfl : result = (withDecoder s d, false) := Option.some.inj read
          exact (ih (s := withDecoder s d) ⟨saved.main, saved.alt⟩
            (stays.withDecoder d)).withDecoder
      | some ch =>
        obtain rfl := decodeByte_some decoded
        rw [deliver, atCharacter_eq rfl] at read
        cases got : readByte dispatchHandlers s byte with
        | error t =>
          rw [got] at read
          dsimp only [Option.toList_some, List.singleton_append, dispatchText]
          rw [← read]
          exact ⟨t, rfl⟩
        | ok result =>
          obtain ⟨t, stop⟩ := result
          rw [got] at read
          have dispatched : dispatchUnicodeChar dispatchHandlers (atCharacter s ch) ch =
              some (t, stop) := read.symm
          obtain rfl : stop = false := by
            cases stop with
            | false => rfl
            | true => exact absurd got (dispatchHandlers_neverStops s byte t)
          have front : dispatchText dispatchHandlers s [ch] = some t := by
            rw [dispatchText, dispatched]
            rfl
          have atRest : t.AtRest := dispatchUnicodeChar_keeps
            (dispatchHandlers_keeps atRest_frame.toCallFrame _) atRest_frame.toCallFrame
            (atCharacter_atRest saved ch) dispatched
          have utf8' : t.decoder.useLatin1 = false :=
            stays [ch] t (List.prefix_append [ch] _) front
          have between := atRest.current utf8'
          have text : decodeBytes t.decoder.utf8State t.decoder.utf8Codepoint rest =
              decodeBytes utf8Accept ch rest := by
            rw [between, decodeBytes_accept, decodeBytes_accept ch]
          have behind : StaysUtf8 t (decodeBytes utf8Accept ch rest) := by
            intro more u isPrefix later
            refine stays (ch :: more) u (List.cons_prefix_cons.2 ⟨rfl, isPrefix⟩) ?_
            rw [dispatchText, dispatched]
            exact later
          rw [← text] at behind
          have comes := ih atRest.toSavedWhole behind
          rw [text] at comes
          dsimp only [Option.toList_some, List.singleton_append, dispatchText]
          rw [dispatched]
          exact comes

/-! ### Drawn characters -/

/-- Normal mode draws the character. -/
def IsDrawn (ch : UInt32) : Prop :=
  ParserState.ofControl ch = none ∧ normalModeCommand ch = some (.draw ch)

instance : DecidablePred IsDrawn := fun _ => inferInstanceAs (Decidable (_ ∧ _))

theorem dispatchUnicodeChar_drawn {s : ParseScreen} (normal : s.parserState = .normal)
    {ch : UInt32} (drawn : IsDrawn ch) :
    dispatchUnicodeChar dispatchHandlers s ch =
      some ({ s with dispatched := s.dispatched ++ [.draw ch] }, false) := by
  have drew : dispatchNormalModeChar s ch =
      { s with dispatched := s.dispatched ++ [.draw ch] } := by
    rw [dispatchNormalModeChar, drawn.1, drawn.2]
    rfl
  have run : dispatchUnicodeChar dispatchHandlers s ch =
      some (dispatchNormalModeChar s ch, false) := by
    unfold dispatchUnicodeChar
    rw [normal]
    rfl
  rw [run, drew]

/-- A text of drawn characters is drawn. -/
theorem dispatchText_drawn {s : ParseScreen} (normal : s.parserState = .normal) {text : Text}
    (drawn : ∀ ch ∈ text, IsDrawn ch) :
    ∃ t, dispatchText dispatchHandlers s text = some t ∧
      t.dispatched = s.dispatched ++ text.map .draw ∧
      t.decoder.useLatin1 = s.decoder.useLatin1 := by
  induction text generalizing s with
  | nil => exact ⟨s, rfl, (List.append_nil _).symm, rfl⟩
  | cons ch rest ih =>
    have first := dispatchUnicodeChar_drawn (s := atCharacter s ch) normal
      (drawn ch List.mem_cons_self)
    obtain ⟨t, dispatched, list, latin1⟩ :=
      ih (s := { atCharacter s ch with dispatched := s.dispatched ++ [.draw ch] }) normal
        (fun c mem => drawn c (List.mem_cons_of_mem _ mem))
    refine ⟨t, ?_, ?_, latin1⟩
    · rw [dispatchText, first]
      exact dispatched
    · rw [list, List.append_assoc]
      rfl

theorem staysUtf8_drawn {s : ParseScreen} (utf8 : s.decoder.useLatin1 = false)
    (normal : s.parserState = .normal) {text : Text} (drawn : ∀ ch ∈ text, IsDrawn ch) :
    StaysUtf8 s text := by
  intro front t isPrefix dispatched
  obtain ⟨t', dispatched', -, latin1⟩ :=
    dispatchText_drawn normal (fun ch mem => drawn ch (isPrefix.subset mem))
  obtain rfl : t' = t := Option.some.inj (dispatched'.symm.trans dispatched)
  exact latin1.trans utf8

theorem parseBytes_text {s : ParseScreen} (atRest : s.AtRest) (bytes : Bytes)
    (stays : StaysUtf8 s (decodeUtf8String bytes)) :
    ComesTo (dispatchText dispatchHandlers s (decodeUtf8String bytes)) (parseBytes s bytes) := by
  have utf8 : s.decoder.useLatin1 = false := stays [] s List.nil_prefix rfl
  have text : decodeUtf8String bytes =
      decodeBytes s.decoder.utf8State s.decoder.utf8Codepoint bytes := by
    rw [atRest.current utf8, decodeBytes_accept, decodeUtf8String_eq]
  rw [parseBytes_eq_consume atRest.toSavedWhole, text]
  rw [text] at stays
  exact consume_text atRest.toSavedWhole bytes stays

/-- Decoding gives back what was encoded, whatever bytes stand in front of it, and no more code
points than bytes; the loop of the parser dispatches the same ones, and draws those that are
drawn. -/
theorem decodeUtf8String_delivers :
    (∀ text : List Char,
      decodeUtf8String (text.flatMap fun c => encodeUtf8 c.val) = text.map Char.val) ∧
    (∀ bytes, (decodeUtf8String bytes).length ≤ bytes.length) ∧
    (∀ (bytes : Bytes) (text : List Char),
      decodeUtf8String (bytes ++ text.flatMap fun c => encodeUtf8 c.val) =
        decodeUtf8String bytes ++ text.map Char.val) ∧
    (∀ (s : ParseScreen) (bytes : Bytes), s.AtRest → StaysUtf8 s (decodeUtf8String bytes) →
      ComesTo (dispatchText dispatchHandlers s (decodeUtf8String bytes)) (parseBytes s bytes)) ∧
    (∀ (s : ParseScreen) (bytes : Bytes), s.AtRest → s.decoder.useLatin1 = false →
      s.parserState = .normal → (∀ ch ∈ decodeUtf8String bytes, IsDrawn ch) →
      ∃ t, parseBytes s bytes = .ok (t, []) ∧
        t.dispatched = s.dispatched ++ (decodeUtf8String bytes).map .draw) := by
  have behind : ∀ (bytes : Bytes) (text : List Char),
      decodeUtf8String (bytes ++ text.flatMap fun c => encodeUtf8 c.val) =
        decodeUtf8String bytes ++ text.map Char.val := by
    intro bytes text
    rw [decodeUtf8String_eq, decodeBytes_append,
      decodeBytes_encoded (decoderBehind_valid (by decide) 0 bytes), ← decodeUtf8String_eq]
  refine ⟨fun text => ?_, fun bytes => ?_, behind, fun s bytes atRest stays => ?_,
    fun s bytes atRest utf8 normal drawn => ?_⟩
  · rw [decodeUtf8String_eq, decodeBytes_encoded (by decide)]
  · rw [decodeUtf8String_eq]
    exact length_decodeBytes _ _ bytes
  · exact parseBytes_text atRest bytes stays
  · obtain ⟨t, dispatched, list, -⟩ := dispatchText_drawn normal drawn
    have comes := parseBytes_text atRest bytes (staysUtf8_drawn utf8 normal drawn)
    rw [dispatched] at comes
    obtain ⟨t', parsed, same⟩ := comes
    refine ⟨t', parsed, ?_⟩
    have whole : { t with decoder := t'.decoder } = t' := same
    have logged := congrArg ParseScreen.dispatched whole
    rw [← list]
    exact logged.symm

/-- The first two bytes of a character, then `A` and `é`. -/
theorem decodeUtf8String_delivers_cut :
    decodeUtf8String [0xe2, 0x82, 0x41, 0xc3, 0xa9] = [0x41, 0xe9] ∧
      ∃ t, parseBytes {} [0xe2, 0x82, 0x41, 0xc3, 0xa9] = .ok (t, []) ∧
        t.dispatched = [.draw 0x41, .draw 0xe9] := by
  have text : decodeUtf8String [0xe2, 0x82, 0x41, 0xc3, 0xa9] = [0x41, 0xe9] := by
    rw [decodeUtf8String_eq]
    decide
  refine ⟨text, ?_⟩
  obtain ⟨-, -, -, -, draws⟩ := decodeUtf8String_delivers
  have drawn : ∀ ch ∈ decodeUtf8String [0xe2, 0x82, 0x41, 0xc3, 0xa9], IsDrawn ch := by
    rw [text]
    exact forall_mem_of_all (by decide)
  obtain ⟨t, parsed, list⟩ := draws {} _ newScreen_ground.toAtRest rfl rfl drawn
  rw [text] at list
  exact ⟨t, parsed, list⟩

end Smelly
