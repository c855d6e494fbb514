/-
Module: Smelly.Proofs.TransferWire
Purpose: A file transmission command that is written as text and read again.
Trusted boundary: none
-/
import Smelly.Core.FileTransmissionWire
import Smelly.Proofs.KeyFields

namespace Smelly.FileTransmission

open Utf8

/-! ### UTF-8 -/

theorem decodeUtf8Buffer_utf8 (text : List Char) : decodeUtf8Buffer (utf8 text) = some text := by
  have decoded : (text.utf8Encode).utf8Decode? = some text.toArray := List.utf8Decode?_utf8Encode
  unfold decodeUtf8Buffer utf8
  rw [List.utf8Encode] at decoded
  rw [decoded]
  rfl

/-! ### Semicolons -/

/-- Every semicolon twice. -/
def doubled (bytes : List UInt8) : List UInt8 :=
  bytes.flatMap fun b => if b = 0x3b then [0x3b, 0x3b] else [b]

theorem doubled_cons (b : UInt8) (bytes : List UInt8) :
    doubled (b :: bytes) = (if b = 0x3b then [0x3b, 0x3b] else [b]) ++ doubled bytes := rfl

theorem doubled_of_plain {bytes : List UInt8} (plain : 0x3b ∉ bytes) : doubled bytes = bytes := by
  induction bytes with
  | nil => rfl
  | cons b bytes ih =>
    have different : b ≠ 0x3b := fun same => plain (same ▸ List.mem_cons_self)
    rw [doubled_cons, if_neg different, ih fun mem => plain (List.mem_cons_of_mem b mem)]
    rfl

theorem utf8_escapeSemicolons (text : List Char) :
    utf8 (escapeSemicolons text) = doubled (utf8 text) := by
  induction text with
  | nil => rfl
  | cons c text ih =>
    have later : escapeSemicolons (c :: text) =
        (if c = ';' then [';', ';'] else [c]) ++ escapeSemicolons text := rfl
    have split : doubled (utf8 (c :: text)) =
        doubled (String.utf8EncodeChar c) ++ doubled (utf8 text) := List.flatMap_append
    rw [later, utf8_append, ih, split]
    congr 1
    by_cases semicolon : c = ';'
    · subst semicolon
      decide
    · have plain : 0x3b ∉ String.utf8EncodeChar c := by
        intro mem
        have same := toNat_of_mem_utf8EncodeChar mem (by decide)
        exact semicolon (Char.ext (UInt32.toNat_inj.1 same))
      rw [if_neg semicolon, doubled_of_plain plain]
      exact List.append_nil _

theorem replaceSemicolons_escape (text : List Char) :
    replaceSemicolons (escapeSemicolons text) = text := by
  induction text with
  | nil => rfl
  | cons c text ih =>
    have later : escapeSemicolons (c :: text) =
        (if c = ';' then [';', ';'] else [c]) ++ escapeSemicolons text := rfl
    rw [later]
    by_cases semicolon : c = ';'
    · subst semicolon
      exact congrArg (';' :: ·) ih
    · rw [if_neg semicolon, List.singleton_append, replaceSemicolons, ih]
      exact fun _ same => absurd same semicolon

theorem escapeSemicolons_of_plain {text : List Char} (plain : ';' ∉ text) :
    escapeSemicolons text = text := by
  induction text with
  | nil => rfl
  | cons c text ih =>
    have different : c ≠ ';' := fun same => plain (same ▸ List.mem_cons_self)
    have later : escapeSemicolons (c :: text) =
        (if c = ';' then [';', ';'] else [c]) ++ escapeSemicolons text := rfl
    rw [later, if_neg different, ih fun mem => plain (List.mem_cons_of_mem c mem)]
    rfl

/-! ### Splitting -/

/-- A key and the value before its semicolons are doubled, as they are on the wire. -/
def wireItem (field : List UInt8 × List UInt8) : List UInt8 :=
  field.1 ++ 0x3d :: doubled field.2

/-- What the callback is called with for a field. -/
def ftcItem (field : List UInt8 × List UInt8) : FtcItem :=
  { key := field.1, val := doubled field.2, hasSemicolons := field.2.contains 0x3b }

/-- A key can be told from what stands before and after it. -/
structure PlainKey (key : List UInt8) : Prop where
  some_ : key ≠ []
  noEquals : 0x3d ∉ key
  noSemicolon : 0x3b ∉ key

instance (key : List UInt8) : Decidable (PlainKey key) :=
  decidable_of_iff (key ≠ [] ∧ 0x3d ∉ key ∧ 0x3b ∉ key)
    ⟨fun ⟨some_, noEquals, noSemicolon⟩ => ⟨some_, noEquals, noSemicolon⟩,
      fun plain => ⟨plain.some_, plain.noEquals, plain.noSemicolon⟩⟩

namespace FtcParser

variable {src : List UInt8} {p : FtcParser}

/-! One character of the loop. -/

theorem loop_keyChar (atKey : p.keyLength = 0) {b : UInt8} (other : b ≠ 0x3d) (i : Nat)
    (rest : List UInt8) : p.loop src i (b :: rest) = p.loop src (i + 1) rest := by
  rw [loop.eq_def]
  simp only [atKey, if_true, other, if_false]

theorem loop_equals (atKey : p.keyLength = 0) (i : Nat) (rest : List UInt8) :
    p.loop src i (0x3d :: rest) =
      FtcParser.loop src
        { p with keyLength := i - p.keyStart, valStart := i + 1, hasSemicolons := false } (i + 1)
        rest := by
  rw [loop.eq_def]
  simp only [atKey, if_true]

theorem loop_valueChar (inValue : p.keyLength ≠ 0) {b : UInt8} (other : b ≠ 0x3b) (i : Nat)
    (rest : List UInt8) : p.loop src i (b :: rest) = p.loop src (i + 1) rest := by
  rw [loop.eq_def]
  simp only [inValue, if_false, other]

theorem loop_pair (inValue : p.keyLength ≠ 0) (i : Nat) (rest : List UInt8) :
    p.loop src i (0x3b :: 0x3b :: rest) =
      FtcParser.loop src { p with hasSemicolons := true } (i + 2) rest := by
  rw [loop.eq_def]
  simp only [inValue, if_false, if_true]

theorem loop_separator (inValue : p.keyLength ≠ 0) (i : Nat) {b : UInt8} (other : b ≠ 0x3b)
    (rest : List UInt8) :
    p.loop src i (0x3b :: b :: rest) = p.item src (i - p.valStart) ::
      FtcParser.loop src { p with keyLength := 0, keyStart := i + 1, valStart := 0 } (i + 1)
        (b :: rest) := by
  rw [loop.eq_def]
  simp only [inValue, if_false, if_true]
  split
  · next same => exact absurd (List.cons.inj same).1 other
  · rfl

theorem loop_key (atKey : p.keyLength = 0) {key : List UInt8} (plain : 0x3d ∉ key) (i : Nat)
    (rest : List UInt8) : p.loop src i (key ++ rest) = p.loop src (i + key.length) rest := by
  induction key generalizing i with
  | nil => rfl
  | cons b key ih =>
    have different : b ≠ 0x3d := fun same => plain (same ▸ List.mem_cons_self)
    rw [List.cons_append, loop_keyChar atKey different,
      ih (fun mem => plain (List.mem_cons_of_mem b mem)), List.length_cons]
    congr 1
    omega

theorem loop_value (inValue : p.keyLength ≠ 0) (raw : List UInt8) (i : Nat) (rest : List UInt8) :
    p.loop src i (doubled raw ++ rest) =
      FtcParser.loop src { p with hasSemicolons := p.hasSemicolons || raw.contains 0x3b }
        (i + (doubled raw).length) rest := by
  induction raw generalizing p i with
  | nil => simp [doubled]
  | cons b raw ih =>
    by_cases semicolon : b = 0x3b
    · subst semicolon
      rw [doubled_cons, if_pos rfl, List.append_assoc, List.cons_append, List.cons_append,
        List.nil_append, loop_pair inValue, ih (p := { p with hasSemicolons := true }) inValue]
      simp only [List.contains_cons, beq_self_eq_true, Bool.true_or, Bool.or_true,
        List.length_append, List.length_cons, List.length_nil]
      congr 1
      omega
    · have other : (0x3b == b) = false := by
        simpa using fun same => semicolon same.symm
      rw [doubled_cons, if_neg semicolon, List.append_assoc, List.singleton_append,
        loop_valueChar inValue semicolon, ih inValue, List.contains_cons, other, Bool.false_or,
        List.length_append, List.length_singleton]
      congr 1
      omega

/-- From the start of a key to the end of its value. -/
theorem loop_field (atKey : p.keyLength = 0) {field : List UInt8 × List UInt8}
    (plain : PlainKey field.1) (rest : List UInt8) :
    p.loop src p.keyStart (wireItem field ++ rest) =
      FtcParser.loop src
        { keyStart := p.keyStart
          keyLength := field.1.length
          valStart := p.keyStart + field.1.length + 1
          hasSemicolons := field.2.contains 0x3b }
        (p.keyStart + (wireItem field).length) rest := by
  have some_ : field.1.length ≠ 0 := fun none_ => plain.some_ (List.eq_nil_of_length_eq_zero none_)
  have length : p.keyStart + field.1.length - p.keyStart = field.1.length := by omega
  rw [wireItem, List.append_assoc, List.cons_append, loop_key atKey plain.noEquals,
    loop_equals atKey]
  simp only [length]
  rw [loop_value some_, List.length_append, List.length_cons]
  simp only [Bool.false_or]
  congr 1
  omega

/-- The item that is taken where a value ends. -/
theorem item_field {before rest : List UInt8} {field : List UInt8 × List UInt8}
    (split : src = before ++ (wireItem field ++ rest)) :
    FtcParser.item src
      { keyStart := before.length
        keyLength := field.1.length
        valStart := before.length + field.1.length + 1
        hasSemicolons := field.2.contains 0x3b } (doubled field.2).length = ftcItem field := by
  have key : (src.drop before.length).take field.1.length = field.1 := by
    rw [split, List.drop_left, wireItem, List.append_assoc, List.take_left]
  have val : (src.drop (before.length + field.1.length + 1)).take (doubled field.2).length =
      doubled field.2 := by
    rw [split, Nat.add_assoc, ← List.drop_drop, List.drop_left, wireItem, List.append_assoc,
      ← List.drop_drop, List.drop_left, List.cons_append, List.drop_succ_cons, List.drop_zero,
      List.take_left]
  rw [item, key, val]
  rfl

/-- The fields of a text are the items that the callback is called with. -/
theorem loop_fields {fields : List (List UInt8 × List UInt8)} (some_ : fields ≠ [])
    (plain : ∀ field ∈ fields, PlainKey field.1) (atKey : p.keyLength = 0) {before : List UInt8}
    (start : p.keyStart = before.length)
    (split : src = before ++ [0x3b].intercalate (fields.map wireItem)) :
    p.loop src p.keyStart ([0x3b].intercalate (fields.map wireItem)) = fields.map ftcItem := by
  induction fields generalizing p before with
  | nil => exact absurd rfl some_
  | cons field fields ih =>
    have fieldPlain := plain field List.mem_cons_self
    have keyLength : field.1.length ≠ 0 := fun none_ =>
      fieldPlain.some_ (List.eq_nil_of_length_eq_zero none_)
    have wireLength : (wireItem field).length = field.1.length + (doubled field.2).length + 1 := by
      rw [wireItem, List.length_append, List.length_cons]
      omega
    cases fields with
    | nil =>
      rw [List.map_singleton, List.intercalate_singleton] at split ⊢
      rw [← List.append_nil (wireItem field)] at split ⊢
      have last := item_field split
      rw [loop_field atKey fieldPlain, loop, if_pos ⟨keyLength, Nat.succ_ne_zero _⟩]
      have valLength : src.length - (before.length + field.1.length + 1) =
          (doubled field.2).length := by
        rw [split, List.length_append, List.append_nil, wireLength]
        omega
      rw [start, valLength, last]
      rfl
    | cons next fields =>
      have nextPlain := plain next (List.mem_cons_of_mem field List.mem_cons_self)
      obtain ⟨b, key, nextKey⟩ := List.exists_cons_of_ne_nil nextPlain.some_
      have other : b ≠ 0x3b := fun same =>
        nextPlain.noSemicolon (by rw [nextKey, same]; exact List.mem_cons_self)
      -- the text of the next field starts with its key
      have starts : ∃ more, [0x3b].intercalate ((next :: fields).map wireItem) = b :: more := by
        cases fields with
        | nil => exact ⟨_, by rw [List.map_singleton, List.intercalate_singleton, wireItem, nextKey]; rfl⟩
        | cons third fields =>
          exact ⟨_, by
            rw [List.map_cons, List.map_cons, List.intercalate_cons_cons, wireItem, nextKey]
            rfl⟩
      obtain ⟨more, moreEq⟩ := starts
      have joined : [0x3b].intercalate ((field :: next :: fields).map wireItem) =
          wireItem field ++ (0x3b :: b :: more) := by
        rw [List.map_cons, List.map_cons, List.intercalate_cons_cons, ← List.map_cons, moreEq]
        simp
      rw [joined] at split ⊢
      have first := item_field split
      have valLength : before.length + (wireItem field).length -
          (before.length + field.1.length + 1) = (doubled field.2).length := by
        rw [wireLength]
        omega
      rw [loop_field atKey fieldPlain, loop_separator keyLength _ other, start, valLength, first,
        List.map_cons]
      have whole : src = (before ++ (wireItem field ++ [0x3b])) ++
          [0x3b].intercalate ((next :: fields).map wireItem) := by
        rw [split, moreEq]
        simp
      have later := ih (p := {
        keyStart := before.length + (wireItem field).length + 1
        keyLength := 0
        valStart := 0
        hasSemicolons := field.2.contains 0x3b }) (List.cons_ne_nil _ _)
        (fun other mem => plain other (List.mem_cons_of_mem field mem)) rfl
        (by simp only [List.length_append, List.length_singleton]; omega) whole
      rw [moreEq] at later
      rw [later]

end FtcParser

/-! ### Values -/

/-- A text in which semicolons are doubled. -/
def Escaped (val : List Char) : Prop := escapeSemicolons (replaceSemicolons val) = val

theorem escaped_escape (text : List Char) : Escaped (escapeSemicolons text) := by
  rw [Escaped, replaceSemicolons_escape]

theorem escaped_of_plain {text : List Char} (plain : ';' ∉ text) : Escaped text := by
  have escaped := escaped_escape text
  rwa [escapeSemicolons_of_plain plain] at escaped

/-- A field as the callback gets it. -/
def readItem (field : List Char × List Char) : FtcItem :=
  { key := utf8 field.1
    val := utf8 field.2
    hasSemicolons := (utf8 (replaceSemicolons field.2)).contains 0x3b }

theorem utf8_intercalate (texts : List (List Char)) :
    utf8 ([';'].intercalate texts) = [0x3b].intercalate (texts.map utf8) := by
  induction texts with
  | nil => rfl
  | cons text texts ih =>
    cases texts with
    | nil => simp
    | cons next texts =>
      rw [List.intercalate_cons_cons, utf8_append, utf8_append, ih]
      simp only [List.map_cons, List.intercalate_cons_cons]
      rfl

/-- The text of fields is parsed field by field. -/
theorem parseFtc_fields {fields : List (List Char × List Char)}
    (plain : ∀ field ∈ fields, PlainKey (utf8 field.1) ∧ Escaped field.2) :
    parseFtc (utf8 ([';'].intercalate (fields.map fun (name, val) => name ++ '=' :: val))) =
      fields.map readItem := by
  have wire : ∀ field ∈ fields, utf8 (field.1 ++ '=' :: field.2) =
      wireItem (utf8 field.1, utf8 (replaceSemicolons field.2)) := by
    intro field mem
    have doubledVal := utf8_escapeSemicolons (replaceSemicolons field.2)
    rw [(plain field mem).2] at doubledVal
    rw [wireItem, utf8_append, utf8_cons, doubledVal]
    rfl
  have items : ∀ field ∈ fields,
      ftcItem (utf8 field.1, utf8 (replaceSemicolons field.2)) = readItem field := by
    intro field mem
    have doubledVal := utf8_escapeSemicolons (replaceSemicolons field.2)
    rw [(plain field mem).2] at doubledVal
    rw [ftcItem, readItem, doubledVal]
  cases fields with
  | nil => rfl
  | cons first fields =>
    have text : utf8 ([';'].intercalate ((first :: fields).map fun (name, val) =>
        name ++ '=' :: val)) = [0x3b].intercalate (((first :: fields).map fun field =>
          (utf8 field.1, utf8 (replaceSemicolons field.2))).map wireItem) := by
      rw [utf8_intercalate, List.map_map, List.map_map]
      congr 1
      exact List.map_congr_left wire
    have keys : ∀ field ∈ (first :: fields).map fun field =>
        (utf8 field.1, utf8 (replaceSemicolons field.2)), PlainKey field.1 := by
      intro field mem
      obtain ⟨source, sourceMem, rfl⟩ := List.mem_map.1 mem
      exact (plain source sourceMem).1
    have some_ : (first :: fields).map (fun field =>
        (utf8 field.1, utf8 (replaceSemicolons field.2))) ≠ [] := List.cons_ne_nil _ _
    have called : (first :: fields).map readItem = ((first :: fields).map fun field =>
        (utf8 field.1, utf8 (replaceSemicolons field.2))).map ftcItem := by
      rw [List.map_map]
      exact (List.map_congr_left items).symm
    rw [text, called, parseFtc]
    exact FtcParser.loop_fields (p := {}) some_ keys rfl rfl (List.nil_append _).symm

/-- A text without control characters. -/
def Clean (val : String) : Prop := ∀ c ∈ val.toList, isControlCode c = false

theorem sanitize_of_clean {val : String} (clean : Clean val) :
    sanitizeControlCodes val.toList = val.toList := by
  apply List.filter_eq_self.2
  intro c mem
  rw [clean c mem]
  rfl

theorem strVal_strText {val : String} (clean : Clean val) (name : List Char) :
    Command.strVal (readItem (name, Command.strText val)) = some val := by
  have text : Command.strText val = escapeSemicolons val.toList := by
    rw [Command.strText, sanitize_of_clean clean]
  unfold Command.strVal readItem
  rw [text, replaceSemicolons_escape, decodeUtf8Buffer_utf8, Option.map_some]
  cases has : (utf8 val.toList).contains 0x3b with
  | true =>
    simp only [if_true, replaceSemicolons_escape, sanitize_of_clean clean, String.ofList_toList]
  | false =>
    have plain : ';' ∉ val.toList := by
      intro mem
      have inBytes : 0x3b ∈ utf8 val.toList := List.mem_flatMap.2 ⟨';', mem, by decide⟩
      rw [← List.contains_iff_mem, has] at inBytes
      cases inBytes
    simp only [Bool.false_eq_true, if_false, escapeSemicolons_of_plain plain,
      sanitize_of_clean clean, String.ofList_toList]

/-! base64 -/

theorem base64_char {data : List UInt8} {c : Char} (h : c ∈ Base64.encode data) :
    c.val.toNat < 0x80 ∧ ((Base64.value c).isSome || c == '=') = true := by
  rcases Base64.mem_encode h with ⟨n, small, rfl⟩ | rfl
  · have checked : ∀ n : Fin 64, (Base64.sextet n).val.toNat < 0x80 := by decide
    refine ⟨checked ⟨n, small⟩, ?_⟩
    rw [Base64.value_sextet small]
    rfl
  · decide

theorem standardB64decode_encode (data : List UInt8) :
    standardB64decode (utf8 (Base64.encode data)) = some data := by
  have bytes : ∀ text : List Char, (∀ c ∈ text, c.val.toNat < 0x80) →
      (utf8 text).map (fun b => Char.ofNat b.toNat) = text := by
    intro text ascii
    induction text with
    | nil => rfl
    | cons c text ih =>
      have small := ascii c List.mem_cons_self
      have value : (UInt8.ofNat c.val.toNat).toNat = c.val.toNat := by
        rw [UInt8.toNat_ofNat']
        omega
      rw [utf8_cons, utf8EncodeChar_of_ascii small, List.singleton_append, List.map_cons,
        ih fun d mem => ascii d (List.mem_cons_of_mem c mem), value]
      exact congrArg (· :: text) (Char.ofNat_toNat c)
  have all : (Base64.encode data).filter (fun c => (Base64.value c).isSome || c == '=') =
      Base64.encode data := List.filter_eq_self.2 fun c mem => (base64_char mem).2
  rw [standardB64decode, bytes _ fun c mem => (base64_char mem).1, all, Base64.decode_encode]

theorem base64Val_base64Text {val : String} (clean : Clean val) (name : List Char) :
    Command.base64Val (readItem (name, Command.base64Text val)) = some val := by
  unfold Command.base64Val readItem Command.base64Text
  simp only [standardB64decode_encode, Option.bind_eq_bind, Option.bind_some, decodeUtf8Buffer_utf8,
    sanitize_of_clean clean, String.ofList_toList]

/-! Integers -/

theorem intVal_strInt (n : Int) (name : List Char) :
    Command.intVal (readItem (name, strInt n)) = some n := by
  have bytes : ∀ text : List Char, (∀ c ∈ text, c.val.toNat < 0x80) →
      (utf8 text).map UInt8.toUInt32 = text.map ord := by
    intro text ascii
    induction text with
    | nil => rfl
    | cons c text ih =>
      have small := ascii c List.mem_cons_self
      have value : (UInt8.ofNat c.val.toNat).toUInt32 = c.val := by
        rw [← UInt32.toNat_inj, UInt8.toNat_toUInt32, UInt8.toNat_ofNat']
        omega
      rw [utf8_cons, utf8EncodeChar_of_ascii small, List.singleton_append, List.map_cons,
        ih fun d mem => ascii d (List.mem_cons_of_mem c mem), value]
      rfl
  have digits : ∀ c ∈ Nat.toDigits 10 n.natAbs, c.val.toNat < 0x80 := by
    intro c mem
    have digit := Nat.isDigit_of_mem_toDigits (by decide) (by decide) mem
    simp only [Char.isDigit, Bool.and_eq_true, decide_eq_true_eq] at digit
    have upper := UInt32.le_iff_toNat_le.1 digit.2
    exact Nat.lt_of_le_of_lt upper (by decide)
  unfold Command.intVal readItem strInt
  by_cases negative : n < 0
  · have ascii : ∀ c ∈ '-' :: Nat.toDigits 10 n.natAbs, c.val.toNat < 0x80 :=
      List.forall_mem_cons.2 ⟨by decide, digits⟩
    have read := int_negative_decimalText n.natAbs
    rw [if_pos negative, bytes _ ascii, List.map_cons]
    refine read.trans (congrArg some ?_)
    omega
  · have read := int_decimalText n.natAbs
    rw [if_neg negative, bytes _ digits]
    refine read.trans (congrArg some ?_)
    omega

/-! ### Fields -/

/-- The fields of a command without control characters. -/
structure Command.CleanText (c : Command) : Prop where
  id : Clean c.id
  fileId : Clean c.fileId
  bypass : Clean c.bypass
  name : Clean c.name
  status : Clean c.status
  parent : Clean c.parent

/-- A field is stored by `handle_item`. -/
def storeField (ans : Command) (field : List Char × List Char) : Option Command :=
  ans.handleItem (readItem field)

/-- The value of a field of an enumeration. -/
def enumVal {α : Type} (ofName : List Char → Option α) (item : FtcItem) : Option α :=
  (decodeUtf8Buffer item.val).bind ofName

/-- The value of the field of bytes. -/
def bytesVal (item : FtcItem) : Option (List UInt8) := standardB64decode item.val

theorem enumVal_name {α : Type} {name : α → List Char} {ofName : List Char → Option α} {val : α}
    (named : ofName (name val) = some val) (key : List Char) :
    enumVal ofName (readItem (key, name val)) = some val := by
  rw [enumVal, readItem, decodeUtf8Buffer_utf8, Option.bind_some, named]

theorem Action.ofName_name (val : Action) : Action.ofName val.name = some val := by
  cases val <;> decide

theorem Compression.ofName_name (val : Compression) : Compression.ofName val.name = some val := by
  cases val <;> decide

theorem FileType.ofName_name (val : FileType) : FileType.ofName val.name = some val := by
  cases val <;> decide

theorem TransmissionType.ofName_name (val : TransmissionType) :
    TransmissionType.ofName val.name = some val := by
  cases val <;> decide

/-- Storing a field that was written if it is not at its default. -/
theorem foldlM_field {β : Type} [DecidableEq β] {text : β → List Char} {key : List Char}
    {val default_ : β} {ans : Command} (set : β → Command → Command) (read : FtcItem → Option β)
    (handles : ∀ bytes has, ans.handleItem ⟨utf8 key, bytes, has⟩ =
      (read ⟨utf8 key, bytes, has⟩).map fun val => set val ans)
    (reads : read (readItem (key, text val)) = some val) (same : set default_ ans = ans) :
    (Fields.written text key val default_).foldlM storeField ans = some (set val ans) := by
  refine Fields.foldlM_written set ?_ same
  have item : readItem (key, text val) =
      ⟨utf8 key, (readItem (key, text val)).val, (readItem (key, text val)).hasSemicolons⟩ := rfl
  rw [storeField, item, handles, ← item, reads]
  rfl

/-- Reading the fields that were written, one after the other, gives the command. -/
theorem foldlM_serializedFields {c : Command} (clean : c.CleanText) :
    c.serializedFields.foldlM storeField {} = some c := by
  unfold Command.serializedFields
  simp only [List.foldlM_append]
  rw [foldlM_field (fun val s => { s with action := val }) (enumVal Action.ofName)
    (fun _ _ => rfl) (enumVal_name (Action.ofName_name _) _) rfl,
    Option.bind_eq_bind, Option.bind_some]
  rw [foldlM_field (fun val s => { s with compression := val }) (enumVal Compression.ofName)
    (fun _ _ => rfl) (enumVal_name (Compression.ofName_name _) _) rfl,
    Option.bind_some]
  rw [foldlM_field (fun val s => { s with ftype := val }) (enumVal FileType.ofName)
    (fun _ _ => rfl) (enumVal_name (FileType.ofName_name _) _) rfl,
    Option.bind_some]
  rw [foldlM_field (fun val s => { s with ttype := val }) (enumVal TransmissionType.ofName)
    (fun _ _ => rfl) (enumVal_name (TransmissionType.ofName_name _) _) rfl,
    Option.bind_some]
  rw [foldlM_field (fun val s => { s with id := val }) Command.strVal
    (fun _ _ => rfl) (strVal_strText clean.id _) rfl,
    Option.bind_some]
  rw [foldlM_field (fun val s => { s with fileId := val }) Command.strVal
    (fun _ _ => rfl) (strVal_strText clean.fileId _) rfl,
    Option.bind_some]
  rw [foldlM_field (fun val s => { s with bypass := val }) Command.base64Val
    (fun _ _ => rfl) (base64Val_base64Text clean.bypass _) rfl,
    Option.bind_some]
  rw [foldlM_field (fun val s => { s with quiet := val }) Command.intVal
    (fun _ _ => rfl) (intVal_strInt _ _) rfl,
    Option.bind_some]
  rw [foldlM_field (fun val s => { s with mtime := val }) Command.intVal
    (fun _ _ => rfl) (intVal_strInt _ _) rfl,
    Option.bind_some]
  rw [foldlM_field (fun val s => { s with permissions := val }) Command.intVal
    (fun _ _ => rfl) (intVal_strInt _ _) rfl,
    Option.bind_some]
  rw [foldlM_field (fun val s => { s with size := val }) Command.intVal
    (fun _ _ => rfl) (intVal_strInt _ _) rfl,
    Option.bind_some]
  rw [foldlM_field (fun val s => { s with name := val }) Command.base64Val
    (fun _ _ => rfl) (base64Val_base64Text clean.name _) rfl,
    Option.bind_some]
  rw [foldlM_field (fun val s => { s with status := val }) Command.base64Val
    (fun _ _ => rfl) (base64Val_base64Text clean.status _) rfl,
    Option.bind_some]
  rw [foldlM_field (fun val s => { s with parent := val }) Command.strVal
    (fun _ _ => rfl) (strVal_strText clean.parent _) rfl,
    Option.bind_some]
  rw [foldlM_field (fun val s => { s with data := val }) bytesVal
    (fun _ _ => rfl) (standardB64decode_encode _) rfl]

theorem strInt_plain (n : Int) : ';' ∉ strInt n := by
  have digits : ';' ∉ Nat.toDigits 10 n.natAbs := fun mem =>
    absurd (Nat.isDigit_of_mem_toDigits (by decide) (by decide) mem) (by decide)
  unfold strInt
  split
  · intro mem
    rcases List.mem_cons.1 mem with same | digit
    · cases same
    · exact digits digit
  · exact digits

theorem encode_plain (data : List UInt8) : ';' ∉ Base64.encode data := fun mem =>
  Base64.ne_of_mem_encode mem (by decide) (by decide) rfl

theorem written_plain {β : Type} [DecidableEq β] {text : β → List Char} {key : List Char}
    {val default_ : β} (plain : PlainKey (utf8 key)) (escaped : Escaped (text val)) :
    ∀ field ∈ Fields.written text key val default_, PlainKey (utf8 field.1) ∧ Escaped field.2 :=
  Fields.forall_mem_written fun _ => ⟨plain, escaped⟩

/-- What is written of a command can be told apart. -/
theorem serializedFields_plain (c : Command) :
    ∀ field ∈ c.serializedFields, PlainKey (utf8 field.1) ∧ Escaped field.2 := by
  unfold Command.serializedFields
  simp only [List.forall_mem_append]
  and_intros
  · exact written_plain (by decide) (escaped_of_plain (by cases c.action <;> decide))
  · exact written_plain (by decide) (escaped_of_plain (by cases c.compression <;> decide))
  · exact written_plain (by decide) (escaped_of_plain (by cases c.ftype <;> decide))
  · exact written_plain (by decide) (escaped_of_plain (by cases c.ttype <;> decide))
  · exact written_plain (by decide) (escaped_escape _)
  · exact written_plain (by decide) (escaped_escape _)
  · exact written_plain (by decide) (escaped_of_plain (encode_plain _))
  · exact written_plain (by decide) (escaped_of_plain (strInt_plain _))
  · exact written_plain (by decide) (escaped_of_plain (strInt_plain _))
  · exact written_plain (by decide) (escaped_of_plain (strInt_plain _))
  · exact written_plain (by decide) (escaped_of_plain (strInt_plain _))
  · exact written_plain (by decide) (escaped_of_plain (encode_plain _))
  · exact written_plain (by decide) (escaped_of_plain (encode_plain _))
  · exact written_plain (by decide) (escaped_escape _)
  · exact written_plain (by decide) (escaped_of_plain (encode_plain _))

/-- Whether the field with a name is at its default. -/
def Command.atDefault (c : Command) : List Char → Bool
  | ['a', 'c'] => c.action = .invalid
  | ['z', 'i', 'p'] => c.compression = .none
  | ['f', 't'] => c.ftype = .regular
  | ['t', 't'] => c.ttype = .simple
  | ['i', 'd'] => c.id = ""
  | ['f', 'i', 'd'] => c.fileId = ""
  | ['p', 'w'] => c.bypass = ""
  | ['q'] => c.quiet = 0
  | ['m', 'o', 'd'] => c.mtime = -1
  | ['p', 'r', 'm'] => c.permissions = -1
  | ['s', 'z'] => c.size = -1
  | ['n'] => c.name = ""
  | ['s', 't'] => c.status = ""
  | ['p', 'r'] => c.parent = ""
  | ['d'] => c.data = []
  | _ => true

theorem serializedFields_changed (c : Command) :
    ∀ field ∈ c.serializedFields, c.atDefault field.1 = false := by
  unfold Command.serializedFields
  simp only [List.forall_mem_append]
  and_intros
  all_goals exact Fields.forall_mem_written fun changed => decide_eq_false changed

/-- A command with an action, whose text has no control characters, is read as it was written; the
prefix is a code in front of the same text, and only fields that are not at their default are on the
wire. -/
theorem transferCommandRoundTrip (c : Command) (some_ : c.action ≠ .invalid)
    (clean : c.CleanText) :
    Command.deserialize (utf8 (c.serialize false)) = some c ∧
      c.serialize true = Command.ftcPrefix ++ ';' :: c.serialize false ∧
      ∀ item ∈ parseFtc (utf8 (c.serialize false)),
        ∃ name, item.key = utf8 name ∧ c.atDefault name = false := by
  have parsed : parseFtc (utf8 (c.serialize false)) = c.serializedFields.map readItem :=
    parseFtc_fields (serializedFields_plain c)
  have written : c.serializedFields ≠ [] := by
    intro empty
    have read := foldlM_serializedFields clean
    rw [empty] at read
    exact some_ (congrArg Command.action (Option.some.inj read)).symm
  refine ⟨?_, ?_, ?_⟩
  · have read : (parseFtc (utf8 (c.serialize false))).foldlM Command.handleItem {} = some c := by
      rw [parsed, List.foldlM_map]
      exact foldlM_serializedFields clean
    rw [Command.deserialize, read, Option.bind_eq_bind, Option.bind_some, if_neg some_]
  · obtain ⟨field, fields, split⟩ := List.exists_cons_of_ne_nil written
    simp only [Command.serialize, split, if_true, Bool.false_eq_true, if_false, List.map_cons,
      List.intercalate_cons_cons, List.append_assoc, List.singleton_append]
  · intro item mem
    rw [parsed] at mem
    obtain ⟨field, fieldMem, rfl⟩ := List.mem_map.1 mem
    exact ⟨field.1, rfl, serializedFields_changed c field fieldMem⟩

/-- A file whose id has a semicolon and whose name is not ASCII. -/
theorem transferCommandRoundTrip_file :
    Command.deserialize (utf8 (Command.serialize
      { action := .file, id := "a;", fileId := "=;;b", name := "é;", size := -7, data := [0, 59] }
      false)) =
    some { action := .file, id := "a;", fileId := "=;;b", name := "é;", size := -7,
           data := [0, 59] } := by
  have clean : ∀ text : String, (text.toList.all fun c => !isControlCode c) = true → Clean text := by
    intro text all c mem
    simpa using List.all_eq_true.1 all c mem
  exact (transferCommandRoundTrip _ (by decide)
    ⟨clean _ (by decide), clean _ (by decide), clean _ (by decide), clean _ (by decide),
      clean _ (by decide), clean _ (by decide)⟩).1

end Smelly.FileTransmission
