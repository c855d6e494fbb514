/-
Module: Smelly.Proofs.KeyBufferBounds
Purpose: When the escape code of a key event is stored into its buffer as a whole, and what happens
  to it otherwise.
Trusted boundary: none
-/
import Smelly.Core.KeyBuffer
import Smelly.Proofs.KeyFields

namespace Smelly

namespace KeyOutput

/-! ### What is printed -/

/-- All stores so far are in front of the last two bytes of the buffer. -/
def Inside (output : KeyOutput) : Prop :=
  ∀ i, (output.cells i).isSome → i < KEY_BUFFER_SIZE - 2

/-- The buffer holds a text up to `pos`. -/
structure Filled (output : KeyOutput) (text : Text) : Prop where
  pos : output.pos = text.length
  cells : ∀ i < text.length, output.cells i = text[i]?

/-- The text has been cut: it goes on behind the last byte that `snprintf` may store, which is a
zero. -/
structure Cut (output : KeyOutput) : Prop where
  pos : KEY_BUFFER_SIZE - 2 ≤ output.pos
  last : output.cells (KEY_BUFFER_SIZE - 3) = some 0

theorem print_inside {output : KeyOutput} (inside : output.Inside) (text : Text) :
    (output.print text).Inside := by
  intro i some
  unfold print at some
  dsimp only at some
  by_cases full : KEY_BUFFER_SIZE - 2 ≤ output.pos
  · rw [if_pos full, snprintf, if_pos rfl] at some
    exact inside i some
  · rw [if_neg full, snprintf, if_neg (by omega)] at some
    by_cases before : i < output.pos
    · omega
    · rw [if_neg before] at some
      split at some
      · rename_i byte here
        have bound := (List.getElem?_eq_some_iff.1 here).1
        rw [List.length_append, List.length_take, List.length_singleton] at bound
        omega
      · exact inside i some

/-- A text that fits is stored behind what is there. -/
theorem print_filled {output : KeyOutput} {sofar : Text} (filled : output.Filled sofar)
    {text : Text} (fits : sofar.length + text.length < KEY_BUFFER_SIZE - 2) :
    (output.print text).Filled (sofar ++ text) := by
  have pos := filled.pos
  refine ⟨by rw [List.length_append, ← pos]; rfl, fun i inText => ?_⟩
  rw [List.length_append] at inText
  unfold print
  dsimp only
  rw [if_neg (by omega), snprintf, if_neg (by omega)]
  by_cases before : i < output.pos
  · rw [if_pos before, filled.cells i (by omega), List.getElem?_append_left (by omega)]
  · have whole : text.take (KEY_BUFFER_SIZE - 2 - output.pos - 1) = text :=
      List.take_of_length_le (by omega)
    have inPiece : i - output.pos < text.length := by omega
    rw [if_neg before, whole, List.getElem?_append_left inPiece,
      List.getElem?_append_right (by omega), ← pos, List.getElem?_eq_getElem inPiece]

/-- A text that does not fit is cut, and so is all that follows. -/
theorem print_cut {output : KeyOutput} {text : Text} (room : output.pos < KEY_BUFFER_SIZE - 2)
    (long : KEY_BUFFER_SIZE - 2 ≤ output.pos + text.length) : (output.print text).Cut := by
  refine ⟨long, ?_⟩
  unfold print
  dsimp only
  rw [if_neg (by omega), snprintf, if_neg (by omega)]
  have taken : (text.take (KEY_BUFFER_SIZE - 2 - output.pos - 1)).length =
      KEY_BUFFER_SIZE - 3 - output.pos := by
    rw [List.length_take]
    omega
  rw [if_neg (by omega), List.getElem?_append_right (by omega), taken, Nat.sub_self]
  rfl

theorem cut_print {output : KeyOutput} (cut : output.Cut) (text : Text) :
    (output.print text).Cut := by
  have pos := cut.pos
  refine ⟨Nat.le_add_right_of_le pos, ?_⟩
  unfold print
  dsimp only
  rw [if_pos pos, snprintf, if_pos rfl]
  exact cut.last

/-! ### All that is printed -/

theorem prints_inside {output : KeyOutput} (inside : output.Inside) (pieces : List Text) :
    (pieces.foldl print output).Inside := by
  induction pieces generalizing output with
  | nil => exact inside
  | cons text rest ih => exact ih (print_inside inside text)

theorem prints_pos (output : KeyOutput) (pieces : List Text) :
    (pieces.foldl print output).pos = output.pos + pieces.flatten.length := by
  induction pieces generalizing output with
  | nil => rfl
  | cons text rest ih =>
    rw [List.foldl_cons, ih, List.flatten_cons, List.length_append, ← Nat.add_assoc]
    rfl

theorem prints_filled {output : KeyOutput} {sofar : Text} (filled : output.Filled sofar)
    {pieces : List Text} (fits : sofar.length + pieces.flatten.length < KEY_BUFFER_SIZE - 2) :
    (pieces.foldl print output).Filled (sofar ++ pieces.flatten) := by
  induction pieces generalizing output sofar with
  | nil => simpa using filled
  | cons text rest ih =>
    rw [List.flatten_cons, List.length_append] at fits
    rw [List.flatten_cons, ← List.append_assoc]
    apply ih
    · exact print_filled filled (by omega)
    · rw [List.length_append]
      omega

theorem cut_prints {output : KeyOutput} (cut : output.Cut) (pieces : List Text) :
    (pieces.foldl print output).Cut := by
  induction pieces generalizing output with
  | nil => exact cut
  | cons text rest ih => exact ih (cut_print cut text)

theorem prints_cut {output : KeyOutput} (room : output.pos < KEY_BUFFER_SIZE - 2)
    {pieces : List Text} (long : KEY_BUFFER_SIZE - 2 ≤ output.pos + pieces.flatten.length) :
    (pieces.foldl print output).Cut := by
  induction pieces generalizing output with
  | nil =>
    rw [List.flatten_nil, List.length_nil] at long
    omega
  | cons text rest ih =>
    rw [List.flatten_cons, List.length_append] at long
    by_cases here : KEY_BUFFER_SIZE - 2 ≤ output.pos + text.length
    · exact cut_prints (print_cut room here) rest
    · apply ih
      · exact Nat.lt_of_not_le here
      · change KEY_BUFFER_SIZE - 2 ≤ output.pos + text.length + rest.flatten.length
        omega

end KeyOutput

/-! ### The escape code -/

theorem printKeyIf_eq (cond : Bool) (output text : Text) :
    printKeyIf cond output text = (pieceIf cond text).foldlM printKey output := by
  cases cond with
  | true => simp [printKeyIf, pieceIf]
  | false => rfl

theorem serializeText_eq (output : Text) (codep : UInt32) (first : Bool) (text : Bytes) :
    serializeText output codep first text =
      (textPieces codep first text).foldlM printKey output := by
  induction text generalizing output codep first with
  | nil => rfl
  | cons byte rest ih =>
    rw [serializeText, textPieces]
    dsimp only
    split
    · rw [List.foldlM_cons]
      cases printKey output (chars (if first then ";" else ":") ++
          decimalText (decodeUtf8 utf8Accept codep byte).2.toNat) with
      | none => rfl
      | some output => exact ih output _ false
    · exact ih output _ first

theorem serializeText_if (cond : Bool) (output : Text) (text : Bytes) :
    (if cond = true then serializeText output 0 true text else some output) =
      (if cond = true then textPieces 0 true text else []).foldlM printKey output := by
  cases cond with
  | true => exact serializeText_eq output 0 true text
  | false => rfl

/-- The escape code is made of its pieces. -/
theorem serialize_pieces (data : EncodingData) (csiTrailer : Char) :
    serialize data csiTrailer =
      ((serializePieces data).foldlM printKey []).map (· ++ [ord csiTrailer]) := by
  unfold serialize serializePieces
  simp only [printKeyIf_eq, serializeText_if, List.foldlM_cons, List.foldlM_append,
    Option.map_eq_bind, Option.bind_eq_bind, Option.bind_assoc]
  rfl

/-- Whether it fits is a question of its length. -/
theorem foldlM_printKey {output : Text} (room : output.length < KEY_BUFFER_SIZE - 2)
    (pieces : List Text) :
    pieces.foldlM printKey output =
      if output.length + pieces.flatten.length < KEY_BUFFER_SIZE - 2 then
        some (output ++ pieces.flatten)
      else none := by
  induction pieces generalizing output with
  | nil => simp [room]
  | cons text rest ih =>
    rw [List.foldlM_cons, List.flatten_cons, List.length_append]
    by_cases fits : text.length < KEY_BUFFER_SIZE - 2 - output.length
    · have printed : printKey output text = some (output ++ text) := if_pos fits
      rw [printed, Option.bind_eq_bind, Option.bind_some, ih (by rw [List.length_append]; omega),
        List.length_append, List.append_assoc, Nat.add_assoc]
    · have refused : printKey output text = none := if_neg fits
      rw [refused, if_neg (by omega)]
      rfl

/-- The escape code without its trailer. -/
def codeText (data : EncodingData) : Text := (serializePieces data).flatten

/-- The code fits if it leaves three bytes of the buffer. -/
theorem serialize_eq_some_iff (data : EncodingData) (csiTrailer : Char) (code : Text) :
    serialize data csiTrailer = some code ↔
      (codeText data).length < KEY_BUFFER_SIZE - 2 ∧ code = codeText data ++ [ord csiTrailer] := by
  rw [serialize_pieces, foldlM_printKey (by decide), List.length_nil, Nat.zero_add, codeText]
  by_cases fits : (serializePieces data).flatten.length < KEY_BUFFER_SIZE - 2
  · rw [if_pos fits]
    constructor
    · intro same
      exact ⟨fits, (Option.some.inj same).symm⟩
    · rintro ⟨-, rfl⟩
      rfl
  · rw [if_neg fits]
    constructor
    · intro none
      cases none
    · exact fun h => absurd h.1 fits

/-! ### Characters of the code -/

theorem decimalText_nonzero (n : Nat) : (0 : UInt32) ∉ decimalText n := by
  intro member
  exact absurd (isDigit_of_mem_decimalText member) (by decide)

theorem textPieces_nonzero (codep : UInt32) (first : Bool) (text : Bytes) :
    ∀ piece ∈ textPieces codep first text, (0 : UInt32) ∉ piece := by
  induction text generalizing codep first with
  | nil => simp [textPieces]
  | cons byte rest ih =>
    intro piece member
    rw [textPieces] at member
    dsimp only at member
    split at member
    · rcases List.mem_cons.1 member with rfl | later
      · intro zero
        rcases List.mem_append.1 zero with mark | digits
        · cases first with
          | true => exact absurd mark (by decide)
          | false => exact absurd mark (by decide)
        · exact decimalText_nonzero _ digits
      · exact ih _ false piece later
    · exact ih _ first piece member

theorem pieceIf_nonzero (cond : Bool) {text : Text} (nonzero : (0 : UInt32) ∉ text) :
    ∀ piece ∈ pieceIf cond text, (0 : UInt32) ∉ piece := by
  intro piece member
  cases cond with
  | true =>
    obtain rfl := List.mem_singleton.1 member
    exact nonzero
  | false => cases member

theorem codeText_nonzero {data : EncodingData} (mods : (0 : UInt32) ∉ data.encodedMods) :
    (0 : UInt32) ∉ codeText data := by
  have colon : ∀ n, (0 : UInt32) ∉ chars ":" ++ decimalText n := by
    intro n member
    rcases List.mem_append.1 member with mark | digits
    · exact absurd mark (by decide)
    · exact decimalText_nonzero n digits
  intro member
  obtain ⟨piece, pieceMember, zero⟩ := List.mem_flatten.1 member
  unfold serializePieces at pieceMember
  simp only [List.mem_cons, List.mem_append] at pieceMember
  rcases pieceMember with rfl | here | here | here | here | here | here | here | here
  · exact absurd zero (by decide)
  · exact pieceIf_nonzero _ (decimalText_nonzero _) piece here zero
  · exact pieceIf_nonzero _ (by decide) piece here zero
  · exact pieceIf_nonzero _ (decimalText_nonzero _) piece here zero
  · exact pieceIf_nonzero _ (colon _) piece here zero
  · exact pieceIf_nonzero _ (by decide) piece here zero
  · exact pieceIf_nonzero _ mods piece here zero
  · exact pieceIf_nonzero _ (colon _) piece here zero
  · split at here
    · exact textPieces_nonzero _ _ _ piece here zero
    · cases here

/-! ### The buffer -/

theorem start_inside : KeyOutput.Inside {} := fun _ some => nomatch some

theorem start_filled : KeyOutput.Filled {} [] := ⟨rfl, fun _ none => nomatch none⟩

/-- What is printed, before the trailer. -/
def printed (data : EncodingData) : KeyOutput := (serializePieces data).foldl KeyOutput.print {}

theorem printed_pos (data : EncodingData) : (printed data).pos = (codeText data).length := by
  rw [printed, KeyOutput.prints_pos]
  exact Nat.zero_add _

/-- The trailer and the zero behind it are stored behind all that was to be printed. -/
theorem serializeInto_cells (data : EncodingData) (csiTrailer : Char) (i : Nat) :
    (serializeInto data csiTrailer).cells i =
      if i = (codeText data).length + 1 then some 0
      else if i = (codeText data).length then some (ord csiTrailer)
      else (printed data).cells i := by
  rw [← printed_pos]
  unfold serializeInto KeyOutput.store
  dsimp only
  rw [Function.update_apply, Function.update_apply]
  rfl

theorem serializeInto_pos (data : EncodingData) (csiTrailer : Char) :
    (serializeInto data csiTrailer).pos = (codeText data).length + 1 := by
  rw [← printed_pos]
  rfl

/-- A code that fits is in the buffer as a whole, and so is the zero behind it. -/
theorem serializeInto_fits {data : EncodingData} (csiTrailer : Char)
    (fits : (codeText data).length < KEY_BUFFER_SIZE - 2) :
    (∀ i ≤ (codeText data).length,
        (serializeInto data csiTrailer).cells i = (codeText data ++ [ord csiTrailer])[i]?) ∧
      (serializeInto data csiTrailer).cells ((codeText data).length + 1) = some 0 := by
  have filled : (printed data).Filled (codeText data) := by
    refine KeyOutput.prints_filled start_filled ?_
    rw [List.length_nil, Nat.zero_add]
    exact fits
  constructor
  · intro i inCode
    rw [serializeInto_cells, if_neg (by omega)]
    by_cases last : i = (codeText data).length
    · rw [if_pos last, last, List.getElem?_concat_length]
    · rw [if_neg last, filled.cells i (by omega), List.getElem?_append_left (by omega)]
  · rw [serializeInto_cells, if_pos rfl]

/-- Of a code that does not fit, no more than 125 bytes are there. -/
theorem serializeInto_cut {data : EncodingData} (csiTrailer : Char)
    (long : KEY_BUFFER_SIZE - 2 ≤ (codeText data).length) :
    (serializeInto data csiTrailer).cells (KEY_BUFFER_SIZE - 3) = some 0 := by
  have size : KEY_BUFFER_SIZE = 128 := rfl
  have cut : (printed data).Cut := by
    refine KeyOutput.prints_cut (by decide) ?_
    rw [Nat.zero_add]
    exact long
  rw [serializeInto_cells, if_neg (by omega), if_neg (by omega)]
  exact cut.last

/-- Nothing is stored behind the buffer unless the code is too long by two bytes. -/
theorem serializeInto_inside_iff (data : EncodingData) (csiTrailer : Char) :
    (∀ i, ((serializeInto data csiTrailer).cells i).isSome → i < KEY_BUFFER_SIZE) ↔
      (codeText data).length + 1 < KEY_BUFFER_SIZE := by
  constructor
  · intro inside
    apply inside
    rw [serializeInto_cells, if_pos rfl]
    rfl
  · intro short i stored
    rw [serializeInto_cells] at stored
    split at stored
    · omega
    · split at stored
      · omega
      · have inside := KeyOutput.prints_inside start_inside (serializePieces data) i stored
        omega

/-- What is expected of the buffer and of the length that `serialize` returns. -/
structure SerializesWell (data : EncodingData) (csiTrailer : Char) : Prop where
  inside : ∀ i, ((serializeInto data csiTrailer).cells i).isSome → i < KEY_BUFFER_SIZE
  complete : ∀ code, serialize data csiTrailer = some code →
    code.getLast? = some (ord csiTrailer) ∧
      (serializeInto data csiTrailer).pos = code.length ∧
      ∀ i < code.length, (serializeInto data csiTrailer).cells i = code[i]?
  length : (serializeInto data csiTrailer).pos = (serializeInto data csiTrailer).produced

theorem serializesWell_of_fits {data : EncodingData} {csiTrailer : Char}
    (mods : (0 : UInt32) ∉ data.encodedMods) (ended : ord csiTrailer ≠ 0)
    (fits : (codeText data).length < KEY_BUFFER_SIZE - 2) : SerializesWell data csiTrailer := by
  have size : KEY_BUFFER_SIZE = 128 := rfl
  obtain ⟨cells, last⟩ := serializeInto_fits csiTrailer fits
  refine ⟨(serializeInto_inside_iff data csiTrailer).2 (by omega), ?_, ?_⟩
  · intro code codeEq
    obtain ⟨-, rfl⟩ := (serialize_eq_some_iff data csiTrailer code).1 codeEq
    rw [List.length_append, List.length_singleton]
    exact ⟨List.getLast?_concat .., serializeInto_pos data csiTrailer,
      fun i inCode => cells i (Nat.le_of_lt_succ inCode)⟩
  · rw [serializeInto_pos]
    have inRange : (codeText data).length + 1 < (List.range KEY_BUFFER_SIZE).length := by
      rw [List.length_range]
      omega
    refine ((List.findIdx_eq inRange).2 ⟨?_, fun i before => ?_⟩).symm
    · rw [List.getElem_range]
      exact decide_eq_true last
    · rw [List.getElem_range, cells i (by omega)]
      refine decide_eq_false fun zero => ?_
      rcases List.mem_append.1 (List.mem_of_getElem? zero) with inCode | trailer
      · exact codeText_nonzero mods inCode
      · exact ended (List.mem_singleton.1 trailer).symm

theorem not_serializesWell_of_long {data : EncodingData} (csiTrailer : Char)
    (long : KEY_BUFFER_SIZE - 2 ≤ (codeText data).length) : ¬ SerializesWell data csiTrailer := by
  have size : KEY_BUFFER_SIZE = 128 := rfl
  intro well
  have length := well.length
  have short : (serializeInto data csiTrailer).produced ≤ KEY_BUFFER_SIZE - 3 := by
    by_contra more
    have none := List.not_of_lt_findIdx (Nat.lt_of_not_le more)
    rw [List.getElem_range] at none
    exact of_decide_eq_false (Bool.not_eq_true _ ▸ none) (serializeInto_cut csiTrailer long)
  rw [serializeInto_pos] at length
  omega

/-- For every key event, as `encode_key` and `encode_function_key` pass it on: `serialize` stores
the code in its buffer and returns its length exactly when the code without its trailer has at most
125 bytes. -/
theorem serializesWell_iff (ev : KeyEvent) (key : UInt32) (addAlternates : Bool) (csiTrailer : Char)
    (ended : ord csiTrailer ≠ 0) :
    SerializesWell { initEncodingData ev with key, addAlternates } csiTrailer ↔
      (codeText { initEncodingData ev with key, addAlternates }).length < KEY_BUFFER_SIZE - 2 := by
  constructor
  · intro well
    by_contra long
    exact not_serializesWell_of_long csiTrailer (Nat.le_of_not_lt long) well
  · exact serializesWell_of_fits (decimalText_nonzero _) ended

/-- A key event with a text of `a`s. -/
def longText (count : Nat) : KeyEvent :=
  { key := 97, embedText := true, text := some (List.replicate count 97) }

/-- The text of 41 characters does not fit, and the trailer is stored behind the buffer. -/
theorem serializesWell_iff_longText :
    (serializeInto (initEncodingData (longText 41)) 'u').cells KEY_BUFFER_SIZE =
        some (ord 'u') ∧
      ¬ SerializesWell (initEncodingData (longText 41)) 'u' := by
  have length : (codeText (initEncodingData (longText 41))).length = KEY_BUFFER_SIZE := by
    decide +kernel
  constructor
  · rw [serializeInto_cells, if_neg (by rw [length]; decide),
      if_pos length.symm]
  · exact not_serializesWell_of_long 'u' (by rw [length]; decide)

/-- One of 40 characters does. -/
theorem serializesWell_iff_shortText :
    SerializesWell { initEncodingData (longText 40) with key := 97, addAlternates := false } 'u' :=
  (serializesWell_iff (longText 40) 97 false 'u' (by decide)).2 (by decide +kernel)

end Smelly
