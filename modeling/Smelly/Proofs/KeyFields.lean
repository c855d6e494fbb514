/-
Module: Smelly.Proofs.KeyFields
Purpose: The grammar of the keyboard protocol, sections separated by semi-colons and fields separated
  by colons, any of them empty, and the sections that `serialize` writes.
Trusted boundary: none
-/
import Smelly.Core.KeyDecoding

namespace Smelly

/-! ### Printed numbers -/

theorem isDigit_of_mem_decimalText {n : Nat} {ch : UInt32} (h : ch ∈ decimalText n) :
    isDigit ch = true := by
  obtain ⟨c, mem, rfl⟩ := List.mem_map.1 h
  have digit := Nat.isDigit_of_mem_toDigits (by decide) (by decide) mem
  simp only [Char.isDigit, Bool.and_eq_true, decide_eq_true_eq] at digit
  simpa [isDigit, ord] using digit

theorem decimalText_ne_nil (n : Nat) : decimalText n ≠ [] := by
  intro empty
  exact Nat.toDigits_ne_nil (List.map_eq_nil_iff.1 empty)

theorem digit_value {c : Char} (digit : c.isDigit = true) :
    (ord c - 48).toNat = c.toNat - '0'.toNat := by
  simp only [Char.isDigit, Bool.and_eq_true, decide_eq_true_eq] at digit
  exact UInt32.toNat_sub_of_le _ _ digit.1

/-- The digits of a number read back. -/
theorem decimal_decimalText (n : Nat) : decimal (decimalText n) = n := by
  have folds : ∀ (digits : List Char) (sofar : Nat), (∀ c ∈ digits, c.isDigit = true) →
      (digits.map ord).foldl (fun ans ch => ans * 10 + (ch - 48).toNat) sofar =
        Nat.ofDigitChars 10 digits sofar := by
    intro digits
    induction digits with
    | nil => intro sofar _; simp
    | cons c digits ih =>
      intro sofar all
      rw [List.map_cons, List.foldl_cons, Nat.ofDigitChars_cons,
        digit_value (all c List.mem_cons_self), Nat.mul_comm sofar 10]
      exact ih _ fun d mem => all d (List.mem_cons_of_mem c mem)
  unfold decimal decimalText
  rw [folds _ 0 fun c mem => Nat.isDigit_of_mem_toDigits (by decide) (by decide) mem]
  exact Nat.ofDigitChars_ten_toDigits

/-- A printed number starts with no sign. -/
theorem head?_decimalText_ne {n : Nat} {ch : UInt32} (sign : isDigit ch = false) :
    (decimalText n).head? ≠ some ch := by
  intro head
  have digit := isDigit_of_mem_decimalText (List.mem_of_head? head)
  rw [sign] at digit
  cases digit

theorem all_isDigit_decimalText (n : Nat) : (decimalText n).all isDigit = true :=
  List.all_eq_true.2 fun _ mem => isDigit_of_mem_decimalText mem

theorem isSpace_of_isDigit {ch : UInt32} (digit : isDigit ch = true) :
    PythonKeys.isSpace ch = false := by
  simp only [isDigit, PythonKeys.isSpace, decide_eq_true_eq, decide_eq_false_iff_not,
    UInt32.le_iff_toNat_le, ← UInt32.toNat_inj] at digit ⊢
  have bounds : (48 : UInt32).toNat = 48 ∧ (57 : UInt32).toNat = 57 ∧
      (32 : UInt32).toNat = 32 ∧ (9 : UInt32).toNat = 9 ∧ (13 : UInt32).toNat = 13 ∧
      (28 : UInt32).toNat = 28 ∧ (31 : UInt32).toNat = 31 := ⟨rfl, rfl, rfl, rfl, rfl, rfl, rfl⟩
  omega

theorem dropWhile_isSpace {text : Text} (graphic : ∀ ch ∈ text, PythonKeys.isSpace ch = false) :
    text.dropWhile PythonKeys.isSpace = text := by
  cases text with
  | nil => rfl
  | cons ch text =>
    rw [List.dropWhile_cons_of_neg]
    rw [graphic ch List.mem_cons_self]
    exact Bool.false_ne_true

/-- `int` strips nothing from a text without spaces. -/
theorem strip_isSpace {text : Text} (graphic : ∀ ch ∈ text, PythonKeys.isSpace ch = false) :
    ((text.dropWhile PythonKeys.isSpace).reverse.dropWhile PythonKeys.isSpace).reverse = text := by
  rw [dropWhile_isSpace graphic, dropWhile_isSpace fun ch mem => graphic ch (List.mem_reverse.1 mem),
    List.reverse_reverse]

theorem unsignedInt_decimalText (n : Nat) : PythonKeys.unsignedInt (decimalText n) = some (n : Int) := by
  have digits : ∀ ch ∈ decimalText n, isDigit ch = true := fun _ => isDigit_of_mem_decimalText
  have ungrouped : (decimalText n).splitOn (ord '_') = [decimalText n] := by
    apply List.splitOn_eq_singleton
    intro underscore
    exact absurd (digits _ underscore) (by decide)
  unfold PythonKeys.unsignedInt
  simp only [ungrouped]
  rw [if_pos]
  · rw [List.flatten_singleton, decimal_decimalText]
  · simpa [decimalText_ne_nil] using digits

theorem int_decimalText (n : Nat) : PythonKeys.int (decimalText n) = some (n : Int) := by
  have stripped := strip_isSpace fun ch (mem : ch ∈ decimalText n) =>
    isSpace_of_isDigit (isDigit_of_mem_decimalText mem)
  unfold PythonKeys.int
  simp only [stripped]
  rw [if_neg (head?_decimalText_ne (by decide)), if_neg (head?_decimalText_ne (by decide)),
    unsignedInt_decimalText]

theorem int_negative_decimalText (n : Nat) :
    PythonKeys.int (ord '-' :: decimalText n) = some (-(n : Int)) := by
  have graphic : ∀ ch ∈ ord '-' :: decimalText n, PythonKeys.isSpace ch = false := by
    intro ch mem
    rcases List.mem_cons.1 mem with rfl | digit
    · decide
    · exact isSpace_of_isDigit (isDigit_of_mem_decimalText digit)
  have stripped := strip_isSpace graphic
  unfold PythonKeys.int
  simp only [stripped]
  rw [if_pos List.head?_cons, List.tail_cons, unsignedInt_decimalText]
  rfl

/-! ### Sections and fields -/

/-- A field holds a number or nothing. -/
def fieldText : Option Nat → Text
  | none => []
  | some n => decimalText n

def sectionText (fields : List (Option Nat)) : Text :=
  [ord ':'].intercalate (fields.map fieldText)

def csiText (sections : List (List (Option Nat))) : Text :=
  [ord ';'].intercalate (sections.map sectionText)

theorem isDigit_of_mem_fieldText {field : Option Nat} {ch : UInt32} (h : ch ∈ fieldText field) :
    isDigit ch = true := by
  cases field with
  | none => exact absurd h List.not_mem_nil
  | some n => exact isDigit_of_mem_decimalText h

theorem sectionText_cons (field : Option Nat) {fields : List (Option Nat)} (more : fields ≠ []) :
    sectionText (field :: fields) = fieldText field ++ ord ':' :: sectionText fields := by
  unfold sectionText
  rw [List.map_cons, List.intercalate_cons_of_ne_nil (by simpa using more)]
  simp

theorem csiText_cons (fields : List (Option Nat)) {sections : List (List (Option Nat))}
    (more : sections ≠ []) :
    csiText (fields :: sections) = sectionText fields ++ ord ';' :: csiText sections := by
  unfold csiText
  rw [List.map_cons, List.intercalate_cons_of_ne_nil (by simpa using more)]
  simp

@[simp] theorem sectionText_singleton (field : Option Nat) :
    sectionText [field] = fieldText field := by
  simp [sectionText]

@[simp] theorem csiText_singleton (fields : List (Option Nat)) :
    csiText [fields] = sectionText fields := by
  simp [csiText]

/-- A section is made of digits and colons. -/
theorem mem_sectionText {fields : List (Option Nat)} {ch : UInt32} (h : ch ∈ sectionText fields) :
    isDigit ch = true ∨ ch = ord ':' := by
  induction fields with
  | nil => exact absurd h List.not_mem_nil
  | cons field fields ih =>
    rcases List.eq_nil_or_concat fields with rfl | ⟨front, last, rfl⟩
    · rw [sectionText_singleton] at h
      exact Or.inl (isDigit_of_mem_fieldText h)
    · rw [sectionText_cons field (by simp)] at h
      rcases List.mem_append.1 h with first | rest
      · exact Or.inl (isDigit_of_mem_fieldText first)
      · rcases List.mem_cons.1 rest with colon | later
        · exact Or.inr colon
        · exact ih later

/-- Splitting at the colons gives the fields back. -/
theorem splitOn_sectionText {fields : List (Option Nat)} (nonempty : fields ≠ []) :
    (sectionText fields).splitOn (ord ':') = fields.map fieldText := by
  apply List.splitOn_intercalate
  · intro text mem
    obtain ⟨field, -, rfl⟩ := List.mem_map.1 mem
    intro colon
    have digit := isDigit_of_mem_fieldText colon
    exact absurd digit (by decide)
  · simpa using nonempty

/-- Splitting at the semi-colons gives the sections back. -/
theorem splitOn_csiText {sections : List (List (Option Nat))} (nonempty : sections ≠ []) :
    (csiText sections).splitOn (ord ';') = sections.map sectionText := by
  apply List.splitOn_intercalate
  · intro text mem
    obtain ⟨fields, -, rfl⟩ := List.mem_map.1 mem
    intro semicolon
    rcases mem_sectionText semicolon with digit | colon
    · exact absurd digit (by decide)
    · exact absurd colon (by decide)
  · simpa using nonempty

/-! ### What `serialize` writes -/

theorem printKey_eq_some {output text output' : Text} (h : printKey output text = some output') :
    output' = output ++ text := by
  unfold printKey at h
  split at h
  · exact (Option.some.inj h).symm
  · cases h

theorem printKeyIf_eq_some {cond : Bool} {output text output' : Text}
    (h : printKeyIf cond output text = some output') :
    output' = output ++ if cond then text else [] := by
  unfold printKeyIf at h
  cases cond with
  | false => simpa using h.symm
  | true => simpa using printKey_eq_some h

/-- The decoder started afresh accepts the ASCII bytes, as themselves. -/
theorem decodeUtf8_accept (codep : UInt32) (byte : UInt8) :
    ((decodeUtf8 utf8Accept codep byte).1 = utf8Accept ↔ byte < 0x80) ∧
      (byte < 0x80 → (decodeUtf8 utf8Accept codep byte).2 = byte.toUInt32) := by
  have checked : ∀ n < 256,
      ((decodeUtf8 utf8Accept 0 (UInt8.ofNat n)).1 = utf8Accept ↔ UInt8.ofNat n < 0x80) ∧
        (UInt8.ofNat n < 0x80 →
          (decodeUtf8 utf8Accept 0 (UInt8.ofNat n)).2 = (UInt8.ofNat n).toUInt32) := by
    decide +kernel
  have this := checked byte.toNat byte.toNat_lt
  rw [UInt8.ofNat_toNat] at this
  exact this

/-- The code points that `serialize` finds in a text: its ASCII bytes. -/
def textCodes (text : Bytes) : List Nat := (text.filter (· < 0x80)).map UInt8.toNat

/-- The code points of the text, each behind its separator. -/
def textFields (first : Bool) : List Nat → Text
  | [] => []
  | code :: rest =>
    chars (if first then ";" else ":") ++ decimalText code ++ textFields false rest

theorem serializeText_eq_some {output output' : Text} {codep : UInt32} {first : Bool}
    {text : Bytes} (h : serializeText output codep first text = some output') :
    output' = output ++ textFields first (textCodes text) := by
  induction text generalizing output codep first with
  | nil =>
    rw [serializeText] at h
    simpa [textCodes, textFields] using (Option.some.inj h).symm
  | cons byte text ih =>
    obtain ⟨accepts, code⟩ := decodeUtf8_accept codep byte
    simp only [serializeText] at h
    split at h
    · rename_i accepted
      have ascii := accepts.1 accepted
      split at h
      · rename_i printed hprinted
        rw [ih h, printKey_eq_some hprinted, code ascii]
        simp [textCodes, textFields, ascii]
      · cases h
    · rename_i rejected
      have other : ¬ byte < 0x80 := fun ascii => rejected (accepts.2 ascii)
      rw [ih h]
      simp [textCodes, other]

/-- The text is one more section. -/
theorem textFields_cons (first : Bool) (code : Nat) (rest : List Nat) :
    textFields first (code :: rest) =
      (if first then ord ';' else ord ':') :: sectionText ((code :: rest).map some) := by
  have separator : chars (if first then ";" else ":") = [if first then ord ';' else ord ':'] := by
    cases first <;> rfl
  induction rest generalizing first code with
  | nil =>
    rw [textFields, separator]
    simp [textFields, fieldText]
  | cons next rest ih =>
    have more : (next :: rest).map some ≠ [] := by simp
    have split : sectionText ((code :: next :: rest).map some) =
        decimalText code ++ ord ':' :: sectionText ((next :: rest).map some) :=
      sectionText_cons (some code) more
    rw [textFields, separator, ih false next rfl, split]
    simp

/-- The fields of the key: the shifted key stands empty where there is only an alternate key. -/
def keyFields (data : EncodingData) : List (Option Nat) :=
  some data.key.toNat ::
    if data.addAlternates then
      (if data.shiftedKey ≠ 0 then some data.shiftedKey.toNat else none) ::
        if data.alternateKey ≠ 0 then [some data.alternateKey.toNat] else []
    else []

/-- The fields of the modifiers and the action. -/
def modFields (data : EncodingData) (mods : Nat) : List (Option Nat) :=
  (if data.hasMods || data.addActions then some mods else none) ::
    if data.addActions then [some (data.action.toNat + 1)] else []

/-- The code points that are written. -/
def dataCodes (data : EncodingData) : List Nat :=
  if data.addText then textCodes (data.text.getD []) else []

/-- The sections of an escape code; `mods` is the number in `encoded_mods`. -/
def keySections (data : EncodingData) (mods : Nat) : List (List (Option Nat)) :=
  keyFields data ::
    if data.hasMods || data.addActions || data.addText then
      modFields data mods ::
        if dataCodes data ≠ [] then [(dataCodes data).map some] else []
    else []

/-- The first section, as `serialize` prints it. -/
theorem sectionText_keyFields (data : EncodingData) :
    sectionText (keyFields data) = decimalText data.key.toNat ++
      ((if data.addAlternates then chars ":" else []) ++
      ((if (data.addAlternates && data.shiftedKey ≠ 0) = true then
        decimalText data.shiftedKey.toNat else []) ++
      (if (data.addAlternates && data.alternateKey ≠ 0) = true then
        chars ":" ++ decimalText data.alternateKey.toNat else []))) := by
  have colon : chars ":" = [ord ':'] := rfl
  unfold keyFields
  cases data.addAlternates with
  | false => simp [fieldText]
  | true =>
    rw [if_pos rfl, sectionText_cons _ (List.cons_ne_nil _ _)]
    by_cases shifted : data.shiftedKey = 0 <;> by_cases alternate : data.alternateKey = 0 <;>
      simp [shifted, alternate, fieldText, sectionText_cons, colon]

/-- The second section, as `serialize` prints it. -/
theorem sectionText_modFields (data : EncodingData) (mods : Nat) :
    sectionText (modFields data mods) =
      (if data.hasMods || data.addActions then decimalText mods else []) ++
        (if data.addActions then chars ":" ++ decimalText (data.action.toNat + 1) else []) := by
  have colon : chars ":" = [ord ':'] := rfl
  unfold modFields
  cases data.addActions with
  | false => cases data.hasMods <;> simp [fieldText]
  | true =>
    rw [if_pos rfl, sectionText_cons _ (List.cons_ne_nil _ _)]
    simp [fieldText, colon]

/-- What `serialize` writes is its sections between the introducer and the trailer. -/
theorem serialize_eq {data : EncodingData} {csiTrailer : Char} {code : Text} {mods : Nat}
    (character : data.key ≠ 1) (encoded : data.encodedMods = decimalText mods)
    (h : serialize data csiTrailer = some code) :
    code = chars "\x1b[" ++ csiText (keySections data mods) ++ [ord csiTrailer] := by
  unfold serialize at h
  simp only [Option.bind_eq_bind, Option.bind_eq_some_iff] at h
  obtain ⟨start, hstart, key, hkey, colon, hcolon, shifted, hshifted, alternate, halternate,
    second, hsecond, modsText, hmods, actions, hactions, output, htext, hcode⟩ := h
  have keys : alternate = chars "\x1b[" ++ sectionText (keyFields data) := by
    rw [printKeyIf_eq_some halternate, printKeyIf_eq_some hshifted, printKeyIf_eq_some hcolon,
      printKeyIf_eq_some hkey, printKey_eq_some hstart, sectionText_keyFields]
    simp [character]
  have semicolon : chars ";" = [ord ';'] := rfl
  have printed : actions = alternate ++
      if data.hasMods || data.addActions || data.addText then
        ord ';' :: sectionText (modFields data mods) else [] := by
    rw [printKeyIf_eq_some hactions, printKeyIf_eq_some hmods, printKeyIf_eq_some hsecond,
      sectionText_modFields, encoded, semicolon]
    cases data.hasMods <;> cases data.addActions <;> cases data.addText <;> simp
  have texts : output = actions ++ textFields true (dataCodes data) := by
    unfold dataCodes
    split at htext
    · rw [if_pos ‹_›]
      exact serializeText_eq_some htext
    · rw [if_neg ‹_›]
      simpa [textFields] using (Option.some.inj htext).symm
  rw [← Option.some.inj hcode, texts, printed, keys]
  unfold keySections
  cases added : data.addText with
  | false =>
    have none_ : dataCodes data = [] := by rw [dataCodes, added, if_neg (by simp)]
    rw [none_]
    cases data.hasMods <;> cases data.addActions <;> simp [textFields, csiText_cons]
  | true =>
    cases written : dataCodes data with
    | nil => simp [textFields, csiText_cons]
    | cons first rest => simp [textFields_cons, csiText_cons]

end Smelly
