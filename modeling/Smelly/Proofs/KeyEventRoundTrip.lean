/-
Module: Smelly.Proofs.KeyEventRoundTrip
Purpose: What the Python and the Go decoder make of the escape code of a character key, and exactly
  which events both of them give back.
Trusted boundary: none
-/
import Smelly.Proofs.KeyFields

namespace Smelly

/-! ### Reading fields -/

/-- The numbers of a section, `missing` where a field is empty. -/
def fieldNumbers (missing : Int) (fields : List (Option Nat)) : List Int :=
  fields.map fun field => (field.map Int.ofNat).getD missing

/-- Reading every field reads the section. -/
theorem mapM_fieldText {read : Text → Option Int} {missing : Int} {fields : List (Option Nat)}
    (reads : ∀ field ∈ fields, read (fieldText field) = some ((field.map Int.ofNat).getD missing)) :
    (fields.map fieldText).mapM read = some (fieldNumbers missing fields) := by
  induction fields with
  | nil => rfl
  | cons field fields ih =>
    rw [List.map_cons, List.mapM_cons, reads field List.mem_cons_self,
      ih fun other mem => reads other (List.mem_cons_of_mem field mem)]
    rfl

theorem atoi_decimalText {n : Nat} (range : n < 2 ^ 63) :
    GoKeys.atoi (decimalText n) = some (n : Int) := by
  unfold GoKeys.atoi
  rw [if_neg (head?_decimalText_ne (by decide)), if_neg (head?_decimalText_ne (by decide))]
  unfold GoKeys.atoiDigits
  rw [if_neg (by simp [decimalText_ne_nil, all_isDigit_decimalText])]
  simp only [decimal_decimalText]
  rw [if_neg Bool.false_ne_true, if_pos range]

/-- Python reads any section, empty fields included. -/
theorem getSubSections_python {fields : List (Option Nat)} (nonempty : fields ≠ [])
    (missing : Int) :
    PythonKeys.getSubSections (sectionText fields) missing =
      some (fieldNumbers missing fields) := by
  unfold PythonKeys.getSubSections
  rw [splitOn_sectionText nonempty]
  apply mapM_fieldText
  intro field _
  cases field with
  | none => rfl
  | some n =>
    rw [fieldText, if_pos (decimalText_ne_nil n)]
    exact int_decimalText n

/-- Go reads the sections without empty fields, and nothing of the others. -/
theorem getSubSections_go {fields : List (Option Nat)} (nonempty : fields ≠ [])
    (range : ∀ n, some n ∈ fields → n < 2 ^ 63) :
    GoKeys.getSubSections (sectionText fields) =
      if none ∈ fields then [] else fieldNumbers 0 fields := by
  unfold GoKeys.getSubSections
  rw [splitOn_sectionText nonempty]
  clear nonempty
  split
  · rename_i empty
    have fails : (fields.map fieldText).mapM GoKeys.atoi = none := by
      induction fields with
      | nil => exact absurd empty List.not_mem_nil
      | cons field fields ih =>
        rw [List.map_cons, List.mapM_cons]
        cases field with
        | none => rfl
        | some n =>
          rw [ih (fun m mem => range m (List.mem_cons_of_mem _ mem)) (by simpa using empty)]
          cases GoKeys.atoi (fieldText (some n)) <;> rfl
    rw [fails, Option.getD_none]
  · rename_i full
    rw [mapM_fieldText, Option.getD_some]
    intro field mem
    cases field with
    | none => exact absurd mem full
    | some n => exact atoi_decimalText (range n mem)

/-! ### Reading sections -/

/-- Python reads the first three sections. -/
theorem decodeKeyEvent_csiText {sections : List (List (Option Nat))} (some_ : sections ≠ [])
    (nonempty : ∀ fields ∈ sections, fields ≠ []) (csiType : UInt32) :
    PythonKeys.decodeKeyEvent (csiText sections) csiType =
      PythonKeys.eventOfSections csiType (fieldNumbers 0 (sections.getD 0 []))
        (fieldNumbers 1 (sections.getD 1 [])) (fieldNumbers 0 (sections.getD 2 [])) := by
  unfold PythonKeys.decodeKeyEvent
  rw [splitOn_csiText some_]
  match sections with
  | [] => exact absurd rfl some_
  | [first] =>
    have reads := getSubSections_python (nonempty first (by simp)) 0
    simp [reads, fieldNumbers]
  | [first, second] =>
    have reads := getSubSections_python (nonempty first (by simp)) 0
    have reads' := getSubSections_python (nonempty second (by simp)) 1
    simp [reads, reads', fieldNumbers]
  | first :: second :: third :: rest =>
    have reads := getSubSections_python (nonempty first (by simp)) 0
    have reads' := getSubSections_python (nonempty second (by simp)) 1
    have reads'' := getSubSections_python (nonempty third (by simp)) 0
    simp [reads, reads', reads'']

/-- What Go reads of a section. -/
def goNumbers (fields : List (Option Nat)) : List Int :=
  if none ∈ fields then [] else fieldNumbers 0 fields

/-- Go reads the first three sections, unless they mark a paste. -/
theorem keyEventFromCSI_csiText {sections : List (List (Option Nat))} {trailer : UInt32}
    (some_ : sections ≠ []) (nonempty : ∀ fields ∈ sections, fields ≠ [])
    (range : ∀ fields ∈ sections, ∀ n, some n ∈ fields → n < 2 ^ 63)
    (known : trailer ∈ chars "u~ABCDEHFPQRS")
    (paste : ∀ text ∈ [chars "200~", chars "201~"], csiText sections ++ [trailer] ≠ text) :
    GoKeys.keyEventFromCSI (csiText sections ++ [trailer]) =
      GoKeys.eventOfSections trailer (goNumbers (sections.getD 0 []))
        (goNumbers (sections.getD 1 [])) (goNumbers (sections.getD 2 [])) := by
  unfold GoKeys.keyEventFromCSI
  rw [List.getLast?_concat, List.dropLast_concat, splitOn_csiText some_]
  simp only [Option.bind_eq_bind, Option.bind_some]
  rw [if_neg]
  · have reads : ∀ fields ∈ sections,
        GoKeys.getSubSections (sectionText fields) = goNumbers fields :=
      fun fields mem => getSubSections_go (nonempty fields mem) (range fields mem)
    match sections with
    | [] => exact absurd rfl some_
    | [first] => simp [reads first (by simp), goNumbers, fieldNumbers]
    | [first, second] =>
      simp [reads first (by simp), reads second (by simp), goNumbers, fieldNumbers]
    | first :: second :: third :: rest =>
      simp [reads first (by simp), reads second (by simp), reads third (by simp)]
  · rintro (other | same | same)
    · exact other known
    · exact paste _ (by simp) same
    · exact paste _ (by simp) same

/-- An escape code that ends in a letter marks no paste. -/
theorem ne_paste_of_letter {trailer : UInt32} (letter : trailer ≠ ord '~') (body : Text) :
    ∀ text ∈ [chars "200~", chars "201~"], body ++ [trailer] ≠ text := by
  intro text mem same
  have last := congrArg List.getLast? same
  rw [List.getLast?_concat] at last
  simp only [List.mem_cons, List.not_mem_nil, or_false] at mem
  rcases mem with rfl | rfl <;> exact letter (Option.some.inj last)

/-! ### Events of character keys -/

/-- The control characters. -/
def isControl (ch : UInt32) : Bool := ch < 32 ∨ (127 ≤ ch ∧ ch < 160)

/-- A code point that is no control character and no functional key number. -/
structure IsCharacterKey (ch : UInt32) : Prop where
  codePoint : ch ≤ 0x10FFFF
  noControl : isControl ch = false
  noFunctional : ¬ (GLFW_FKEY_FIRST ≤ ch ∧ ch ≤ GLFW_FKEY_LAST)

/-- The UTF-8 bytes of a text. -/
def utf8Text (text : List Char) : Bytes := text.flatMap fun c => encodeUtf8 c.val

/-- An event of a character key with all the reports of the protocol asked for. -/
structure CharacterEvent (ev : KeyEvent) (text : List Char) : Prop where
  key : IsCharacterKey ev.key
  shifted : ev.shiftedKey ≠ 0 → IsCharacterKey ev.shiftedKey ∧ ev.mods.shift = true
  alternate : ev.alternateKey ≠ 0 → IsCharacterKey ev.alternateKey
  reportAllEventTypes : ev.reportAllEventTypes = true
  reportAlternateKey : ev.reportAlternateKey = true
  reportText : ev.reportText = true
  embedText : ev.embedText = true
  bytes : ev.text = some (utf8Text text) ∨ (ev.text = none ∧ text = [])
  noControl : ∀ c ∈ text, isControl c.val = false

/-- A key as a string: the number 0 stands for no key. -/
def keyCharacters (key : UInt32) : Text := if key = 0 then [] else [key]

/-- An event, in the terms of the Python decoder. -/
def pythonEvent (ev : KeyEvent) (text : List Char) : PythonKeys.KeyEvent :=
  { type :=
      match ev.action with
      | .press => .PRESS
      | .repeat => .REPEAT
      | .release => .RELEASE
    mods := ev.mods.value.toNat
    key := keyCharacters ev.key
    text := text.map Char.val
    shiftedKey := keyCharacters ev.shiftedKey
    alternateKey := keyCharacters ev.alternateKey
    shift := ev.mods.shift
    alt := ev.mods.alt
    ctrl := ev.mods.ctrl
    super := ev.mods.super
    hyper := ev.mods.hyper
    metaKey := ev.mods.metaKey
    capsLock := ev.mods.capslock
    numLock := ev.mods.numlock }

/-- An event, in the terms of the Go decoder. -/
def goEvent (ev : KeyEvent) (text : List Char) : GoKeys.KeyEvent :=
  { type :=
      match ev.action with
      | .press => .PRESS
      | .repeat => .REPEAT
      | .release => .RELEASE
    mods := ev.mods.value.toUInt16
    key := keyCharacters ev.key
    shiftedKey := keyCharacters ev.shiftedKey
    alternateKey := keyCharacters ev.alternateKey
    text := text.map Char.val }

/-- The value of the modifiers, and what the encoder makes of it. -/
theorem mods_spec (mods : KeyMods) :
    mods.value.toNat < 256 ∧ mods.encoded = decimalText (mods.value.toNat + 1) ∧
      ((mods.encoded ≠ [] ∧ mods.encoded ≠ chars "1") ↔ mods.value ≠ 0) ∧
      PythonKeys.modBit mods.value.toNat 0 = mods.shift ∧
      PythonKeys.modBit mods.value.toNat 1 = mods.alt ∧
      PythonKeys.modBit mods.value.toNat 2 = mods.ctrl ∧
      PythonKeys.modBit mods.value.toNat 3 = mods.super ∧
      PythonKeys.modBit mods.value.toNat 4 = mods.hyper ∧
      PythonKeys.modBit mods.value.toNat 5 = mods.metaKey ∧
      PythonKeys.modBit mods.value.toNat 6 = mods.capslock ∧
      PythonKeys.modBit mods.value.toNat 7 = mods.numlock := by
  obtain ⟨shift, alt, ctrl, super, hyper, metaKey, numlock, capslock⟩ := mods
  revert shift alt ctrl super hyper metaKey numlock capslock
  decide +kernel

/-! ### The sections of an event -/

/-- The sections of the escape code of an event. -/
def eventSections (ev : KeyEvent) : List (List (Option Nat)) :=
  keySections (initEncodingData ev) (ev.mods.value.toNat + 1)

/-- A character key with the reports of the protocol is always sent as an escape code. -/
theorem encodeKey_character {ev : KeyEvent} {text : List Char} {code : Text}
    (event : CharacterEvent ev text) (sent : encodeKey ev = some code) :
    code = chars "\x1b[" ++ csiText (eventSections ev) ++ [ord 'u'] := by
  have serialized : serialize (initEncodingData ev) 'u' = some code := by
    unfold encodeKey at sent
    rw [if_neg (by simp [event.reportAllEventTypes]), if_neg event.key.noFunctional] at sent
    simp only [event.reportText] at sent
    split at sent
    · exact sent
    · rw [if_neg (by simp)] at sent
      exact sent
  apply serialize_eq _ (mods_spec ev.mods).2.1 serialized
  intro one
  have key : ev.key = 1 := one
  have control := event.key.noControl
  rw [key] at control
  exact absurd control (by decide)

/-- The encoder drops neither of the two other keys. -/
theorem initEncodingData_keys {ev : KeyEvent} {text : List Char}
    (event : CharacterEvent ev text) :
    (initEncodingData ev).shiftedKey = ev.shiftedKey ∧
      (initEncodingData ev).alternateKey = ev.alternateKey ∧
      ((initEncodingData ev).addAlternates = true ↔ ev.shiftedKey ≠ 0 ∨ ev.alternateKey ≠ 0) := by
  have positive : ∀ key : UInt32, key > 0 ↔ key ≠ 0 := fun key => UInt32.pos_iff_ne_zero
  have shift := fun held => (event.shifted held).2
  simp only [initEncodingData, event.reportAlternateKey]
  by_cases shifted : ev.shiftedKey = 0 <;> by_cases alternate : ev.alternateKey = 0 <;>
    simp_all

theorem toUInt8_or_ge {x m : UInt32} (high : m.toNat.testBit 7 = true) :
    ¬ (x ||| m).toUInt8 < 0x80 := by
  have bit : ((x ||| m).toUInt8.toNat).testBit 7 = true := by
    rw [UInt32.toNat_toUInt8, Nat.testBit_mod_two_pow, UInt32.toNat_or, Nat.testBit_or, high]
    simp
  have bound := Nat.ge_two_pow_of_testBit bit
  exact Nat.not_lt.2 bound

/-- No byte of a character outside ASCII is an ASCII byte. -/
theorem textCodes_encodeUtf8 (c : Char) :
    textCodes (encodeUtf8 c.val) = if c.val < 0x80 then [c.val.toNat] else [] := by
  unfold textCodes encodeUtf8
  split
  · rename_i ascii
    have small : c.val.toNat < 128 := ascii
    have byte : c.val.toUInt8.toNat = c.val.toNat := by
      exact Nat.mod_eq_of_lt (by omega)
    have kept : c.val.toUInt8 < 0x80 := by
      rw [UInt8.lt_iff_toNat_lt, byte]
      exact small
    simp only [List.filter, kept, decide_true, List.map_cons, List.map_nil, byte]
  · have high : ∀ (x m : UInt32), m.toNat.testBit 7 = true →
        decide ((x ||| m).toUInt8 < 0x80) = false :=
      fun x m bit => decide_eq_false (toUInt8_or_ge bit)
    have first := fun x => high x 0xC0 (by decide)
    have first' := fun x => high x 0xE0 (by decide)
    have first'' := fun x => high x 0xF0 (by decide)
    have later := fun x => high x 0x80 (by decide)
    split
    · simp only [List.filter, first, later, List.map_nil]
    · split
      · simp only [List.filter, first', later, List.map_nil]
      · split
        · simp only [List.filter, first'', later, List.map_nil]
        · rfl

/-- The ASCII characters of a text. -/
def asciiPart (text : List Char) : List Char := text.filter fun c => c.val < 0x80

theorem textCodes_utf8Text (text : List Char) :
    textCodes (utf8Text text) = (asciiPart text).map fun c => c.val.toNat := by
  induction text with
  | nil => rfl
  | cons c text ih =>
    have split : textCodes (utf8Text (c :: text)) =
        textCodes (encodeUtf8 c.val) ++ textCodes (utf8Text text) := by
      simp [utf8Text, textCodes]
    rw [split, textCodes_encodeUtf8, ih]
    by_cases ascii : c.val < 0x80 <;> simp [asciiPart, ascii]

/-- The encoder writes the ASCII characters of the text. -/
theorem dataCodes_event {ev : KeyEvent} {text : List Char} (event : CharacterEvent ev text) :
    dataCodes (initEncodingData ev) = (asciiPart text).map fun c => c.val.toNat := by
  rcases event.bytes with bytes | ⟨bytes, rfl⟩
  · rw [← textCodes_utf8Text]
    simp only [dataCodes, initEncodingData, event.embedText, bytes]
    cases utf8Text text <;> simp [textCodes]
  · simp [dataCodes, initEncodingData, bytes, asciiPart]

/-- The sections behind the first one: the modifiers where anything follows the key, and the text
where there is any. -/
theorem keySections_getD (data : EncodingData) (mods : Nat) :
    (keySections data mods).getD 0 [] = keyFields data ∧
      (keySections data mods).getD 1 [] =
        (if data.hasMods || data.addActions || data.addText then modFields data mods else []) ∧
      (keySections data mods).getD 2 [] = (dataCodes data).map some := by
  have silent : data.addText = false → dataCodes data = [] := by
    intro none_
    rw [dataCodes, none_, if_neg (by simp)]
  unfold keySections
  refine ⟨rfl, ?_, ?_⟩
  · split <;> rfl
  · cases added : data.addText with
    | false =>
      rw [silent added]
      cases data.hasMods <;> cases data.addActions <;> rfl
    | true => cases dataCodes data <;> simp

theorem keySections_nonempty {data : EncodingData} {mods : Nat} {fields : List (Option Nat)}
    (mem : fields ∈ keySections data mods) : fields ≠ [] := by
  rcases List.mem_cons.1 mem with rfl | rest
  · exact List.cons_ne_nil _ _
  · split at rest
    · rcases List.mem_cons.1 rest with rfl | rest
      · exact List.cons_ne_nil _ _
      · split at rest
        · rw [List.mem_singleton.1 rest]
          simpa using ‹dataCodes data ≠ []›
        · exact absurd rest List.not_mem_nil
    · exact absurd rest List.not_mem_nil

theorem mem_keyFields {data : EncodingData} {n : Nat} (mem : some n ∈ keyFields data) :
    ∃ key : UInt32, n = key.toNat := by
  rcases List.mem_cons.1 mem with key | rest
  · exact ⟨data.key, Option.some.inj key⟩
  · split at rest
    · rcases List.mem_cons.1 rest with shifted | rest
      · split at shifted
        · exact ⟨data.shiftedKey, Option.some.inj shifted⟩
        · cases shifted
      · split at rest
        · exact ⟨data.alternateKey, Option.some.inj (List.mem_singleton.1 rest)⟩
        · exact absurd rest List.not_mem_nil
    · exact absurd rest List.not_mem_nil

theorem mem_modFields {data : EncodingData} {mods n : Nat} (mem : some n ∈ modFields data mods) :
    n = mods ∨ n = data.action.toNat + 1 := by
  rcases List.mem_cons.1 mem with first | rest
  · split at first
    · exact Or.inl (Option.some.inj first)
    · cases first
  · split at rest
    · exact Or.inr (Option.some.inj (List.mem_singleton.1 rest))
    · exact absurd rest List.not_mem_nil

theorem dataCodes_lt {data : EncodingData} {code : Nat} (mem : code ∈ dataCodes data) :
    code < 256 := by
  unfold dataCodes at mem
  split at mem
  · obtain ⟨byte, -, rfl⟩ := List.mem_map.1 mem
    exact byte.toNat_lt
  · exact absurd mem List.not_mem_nil

/-- The numbers of an escape code are small. -/
theorem keySections_range {data : EncodingData} {mods : Nat} (small : mods < 2 ^ 63)
    {fields : List (Option Nat)} (mem : fields ∈ keySections data mods) {n : Nat}
    (number : some n ∈ fields) : n < 2 ^ 63 := by
  rcases List.mem_cons.1 mem with rfl | rest
  · obtain ⟨key, rfl⟩ := mem_keyFields number
    exact Nat.lt_trans key.toNat_lt (by decide)
  · split at rest
    · rcases List.mem_cons.1 rest with rfl | rest
      · rcases mem_modFields number with rfl | rfl
        · exact small
        · cases data.action <;> decide
      · split at rest
        · rw [List.mem_singleton.1 rest] at number
          obtain ⟨code, mem, same⟩ := List.mem_map.1 number
          rw [← Option.some.inj same]
          exact Nat.lt_trans (dataCodes_lt mem) (by decide)
        · exact absurd rest List.not_mem_nil
    · exact absurd rest List.not_mem_nil

/-! ### The decoders on the sections of an event -/

/-- A character key has no name of its own. -/
theorem mappedKeyName_character {ch : UInt32} (key : IsCharacterKey ch)
    (character : Int → Option Text) :
    mappedKeyName ch.toNat character = character ch.toNat := by
  have outside : 32 ≤ ch.toNat ∧ ch.toNat ≠ 127 ∧ ¬ (57344 ≤ ch.toNat ∧ ch.toNat ≤ 57454) := by
    obtain ⟨-, control, functional⟩ := key
    simp only [isControl, decide_eq_false_iff_not, UInt32.lt_iff_toNat_lt,
      UInt32.le_iff_toNat_le] at control functional
    have numbers : (32 : UInt32).toNat = 32 ∧ (127 : UInt32).toNat = 127 ∧
        (160 : UInt32).toNat = 160 ∧ GLFW_FKEY_FIRST.toNat = 57344 ∧
        GLFW_FKEY_LAST.toNat = 57454 := ⟨rfl, rfl, rfl, rfl, rfl⟩
    omega
  have unmapped : csiNumberToFunctionalNumber.lookup (ch.toNat : Int) = none := by
    rw [List.lookup_eq_none_iff]
    intro entry mem
    have small : ∀ entry ∈ csiNumberToFunctionalNumber, entry.1 < 32 ∨ entry.1 = 127 := by decide
    have bound := small entry mem
    simp only [bne_iff_ne]
    omega
  have unnamed : functionalKeyName (ch.toNat : Int) = none := by
    have length : functionalKeyNames.length = 111 := rfl
    unfold functionalKeyName
    split
    · rfl
    · apply List.getElem?_eq_none
      omega
  unfold mappedKeyName
  simp [unmapped, unnamed]

/-- A key of an event: none, or a character key. -/
def EventKey (ch : UInt32) : Prop := ch ≠ 0 → IsCharacterKey ch

theorem IsCharacterKey.toNat_ne {ch : UInt32} (key : IsCharacterKey ch) :
    (ch.toNat : Int) ≠ 0 ∧ (ch.toNat : Int) ≠ 13 := by
  have control := key.noControl
  simp only [isControl, decide_eq_false_iff_not, UInt32.lt_iff_toNat_lt] at control
  have number : (32 : UInt32).toNat = 32 := rfl
  omega

/-- The name Python gives a key of an event. -/
theorem python_keyName {ch : UInt32} (event : EventKey ch) (csiType : UInt32) :
    PythonKeys.keyName csiType ch.toNat = some (keyCharacters ch) := by
  by_cases none_ : ch = 0
  · rw [none_]
    rfl
  · have key := event none_
    obtain ⟨zero, enter⟩ := key.toNat_ne
    have bound : ch.toNat ≤ 0x10FFFF := key.codePoint
    unfold PythonKeys.keyName
    rw [if_neg zero, if_neg enter, mappedKeyName_character key, PythonKeys.chr,
      if_pos (by omega), keyCharacters, if_neg none_]
    simp

/-- The surrogates. -/
def isSurrogate (ch : UInt32) : Bool := 0xD800 ≤ ch ∧ ch ≤ 0xDFFF

/-- The character Go makes of a code point. -/
theorem rune_codePoint {ch : UInt32} (codePoint : ch ≤ 0x10FFFF) :
    GoKeys.rune ch.toNat = if isSurrogate ch then 0xFFFD else ch := by
  have bound : ch.toNat ≤ 0x10FFFF := codePoint
  have same : (ch.toNat : Int).bmod (2 ^ 32) = ch.toNat := by
    apply Int.bmod_eq_of_le <;> omega
  have range : isSurrogate ch = true ↔ 0xD800 ≤ ch.toNat ∧ ch.toNat ≤ 0xDFFF := by
    simp only [isSurrogate, decide_eq_true_eq]
    rfl
  unfold GoKeys.rune
  rw [same]
  by_cases surrogate : isSurrogate ch = true
  · have between := range.1 surrogate
    rw [if_pos surrogate]
    apply if_neg
    omega
  · have scalar : ¬ (0xD800 ≤ ch.toNat ∧ ch.toNat ≤ 0xDFFF) :=
      fun between => surrogate (range.2 between)
    rw [if_neg surrogate]
    refine (if_pos ?_).trans (by simp)
    omega

/-- The name Go gives a key of an event. -/
theorem go_keyName {ch : UInt32} (event : EventKey ch) (lastChar : UInt32) :
    GoKeys.keyName lastChar ch.toNat =
      if isSurrogate ch then [0xFFFD] else keyCharacters ch := by
  by_cases none_ : ch = 0
  · rw [none_]
    rfl
  · have key := event none_
    obtain ⟨zero, enter⟩ := key.toNat_ne
    unfold GoKeys.keyName
    rw [if_neg zero, if_neg enter, mappedKeyName_character key, rune_codePoint key.codePoint,
      keyCharacters]
    split <;> rfl

/-- The numbers of the first section. -/
theorem keyFields_numbers {data : EncodingData}
    (absent : data.addAlternates = false → data.shiftedKey = 0 ∧ data.alternateKey = 0) :
    (fieldNumbers 0 (keyFields data)).head? = some (data.key.toNat : Int) ∧
      (fieldNumbers 0 (keyFields data)).getD 1 0 = data.shiftedKey.toNat ∧
      (fieldNumbers 0 (keyFields data)).getD 2 0 = data.alternateKey.toNat := by
  unfold keyFields fieldNumbers
  cases added : data.addAlternates with
  | false =>
    obtain ⟨shifted, alternate⟩ := absent added
    simp [shifted, alternate]
  | true =>
    by_cases shifted : data.shiftedKey = 0 <;> by_cases alternate : data.alternateKey = 0 <;>
      simp [shifted, alternate]

/-- The fields of the modifiers that follow the key of an event. -/
def eventModFields (ev : KeyEvent) : List (Option Nat) :=
  let data := initEncodingData ev
  if data.hasMods || data.addActions || data.addText then
    modFields data (ev.mods.value.toNat + 1)
  else []

/-- Which fields of the modifiers are there. -/
theorem eventModFields_cases {ev : KeyEvent} {text : List Char} (event : CharacterEvent ev text) :
    (ev.action = .press ∧ ev.mods.value = 0 ∧
        (eventModFields ev = [] ∨ eventModFields ev = [none])) ∨
      (ev.action = .press ∧ eventModFields ev = [some (ev.mods.value.toNat + 1)]) ∨
      eventModFields ev = [some (ev.mods.value.toNat + 1), some (ev.action.toNat + 1)] := by
  have mods : (initEncodingData ev).hasMods = true ↔ ev.mods.value ≠ 0 := by
    simpa [initEncodingData] using (mods_spec ev.mods).2.2.1
  have actions : (initEncodingData ev).addActions = true ↔ ev.action ≠ .press := by
    simp [initEncodingData, event.reportAllEventTypes]
  have action : (initEncodingData ev).action = ev.action := rfl
  simp only [eventModFields, modFields]
  cases hasMods : (initEncodingData ev).hasMods <;>
    cases addActions : (initEncodingData ev).addActions <;>
    cases (initEncodingData ev).addText <;> simp_all

/-- The first three sections of an event. -/
theorem eventSections_getD {ev : KeyEvent} {text : List Char} (event : CharacterEvent ev text) :
    (eventSections ev).getD 0 [] = keyFields (initEncodingData ev) ∧
      (eventSections ev).getD 1 [] = eventModFields ev ∧
      (eventSections ev).getD 2 [] = (asciiPart text).map fun c => some c.val.toNat := by
  obtain ⟨first, second, third⟩ :=
    keySections_getD (initEncodingData ev) (ev.mods.value.toNat + 1)
  refine ⟨first, second, ?_⟩
  rw [eventSections, third, dataCodes_event event, List.map_map]
  rfl

/-- An element behind the end of a list counts as zero. -/
theorem getD_of_length (numbers : List Int) (i : Nat) :
    (if numbers.length > i then numbers.getD i 0 else 0) = numbers.getD i 0 := by
  split
  · rfl
  · rename_i short
    rw [List.getD_eq_getElem?_getD, List.getElem?_eq_none (Nat.not_lt.1 short)]
    rfl

/-- The numbers of the first section of an event, as the decoders look for them. -/
theorem keyFields_event {ev : KeyEvent} {text : List Char} (event : CharacterEvent ev text)
    {first : List Int} (section_ : first = fieldNumbers 0 (keyFields (initEncodingData ev))) :
    first.head? = some (ev.key.toNat : Int) ∧
      (if first.length > 1 then first.getD 1 0 else 0) = (ev.shiftedKey.toNat : Int) ∧
      (if first.length > 2 then first.getD 2 0 else 0) = (ev.alternateKey.toNat : Int) := by
  obtain ⟨shifted, alternate, added⟩ := initEncodingData_keys event
  have absent : (initEncodingData ev).addAlternates = false →
      (initEncodingData ev).shiftedKey = 0 ∧ (initEncodingData ev).alternateKey = 0 := by
    intro none_
    rw [none_] at added
    simpa [shifted, alternate] using added
  obtain ⟨keyNumber, shiftedNumber, alternateNumber⟩ := keyFields_numbers absent
  rw [getD_of_length, getD_of_length, section_, shiftedNumber, alternateNumber, shifted, alternate]
  exact ⟨rfl, rfl, rfl⟩

/-- The keys of an event are character keys. -/
theorem CharacterEvent.keys {ev : KeyEvent} {text : List Char} (event : CharacterEvent ev text) :
    EventKey ev.key ∧ EventKey ev.shiftedKey ∧ EventKey ev.alternateKey :=
  ⟨fun _ => event.key, fun held => (event.shifted held).1, event.alternate⟩

theorem mapM_chr (text : List Char) :
    (fieldNumbers 0 (text.map fun c => some c.val.toNat)).mapM PythonKeys.chr =
      some (text.map Char.val) := by
  induction text with
  | nil => rfl
  | cons c text ih =>
    have bound : c.val.toNat ≤ 0x10FFFF := by
      have valid := c.valid
      rcases valid with low | ⟨-, high⟩ <;> omega
    have read : PythonKeys.chr (c.val.toNat : Int) = some c.val := by
      rw [PythonKeys.chr, if_pos (by omega), Int.toNat_natCast, UInt32.ofNat_toNat]
    simp only [fieldNumbers, List.map_cons, List.mapM_cons] at ih ⊢
    rw [ih]
    change (PythonKeys.chr (c.val.toNat : Int) >>= _) = _
    rw [read]
    rfl

/-- The modifiers and the action of an event, as Python reads them. -/
theorem eventModFields_python {ev : KeyEvent} {text : List Char} (event : CharacterEvent ev text)
    {second : List Int} (section_ : second = fieldNumbers 1 (eventModFields ev)) :
    (if second ≠ [] then second.headD 0 - 1 else 0) = (ev.mods.value.toNat : Int) ∧
      (if second.length > 1 then second.getD 1 0 else 1) = (ev.action.toNat : Int) + 1 := by
  rcases eventModFields_cases event with ⟨press, none_, fields | fields⟩ | ⟨press, fields⟩ |
    fields <;> rw [section_, fields]
  · simp [fieldNumbers, press, none_, KeyAction.toNat]
  · simp [fieldNumbers, press, none_, KeyAction.toNat]
  · simp [fieldNumbers, press, KeyAction.toNat]
  · simp [fieldNumbers]

/-- Python gives back every event, its text less the characters outside ASCII. -/
theorem decodeKeyEvent_eventSections {ev : KeyEvent} {text : List Char}
    (event : CharacterEvent ev text) :
    PythonKeys.decodeKeyEvent (csiText (eventSections ev)) (ord 'u') =
      some (pythonEvent ev (asciiPart text)) := by
  obtain ⟨firstSection, secondSection, thirdSection⟩ := eventSections_getD event
  obtain ⟨keyNumber, shiftedNumber, alternateNumber⟩ := keyFields_event event rfl
  obtain ⟨modsNumber, actionNumber⟩ := eventModFields_python event rfl
  obtain ⟨key, shifted, alternate⟩ := event.keys
  obtain ⟨-, -, -, shift, alt, ctrl, super, hyper, metaKey, capslock, numlock⟩ := mods_spec ev.mods
  have nonempty : ∀ fields ∈ eventSections ev, fields ≠ [] := fun _ => keySections_nonempty
  have type : PythonKeys.eventType ((ev.action.toNat : Int) + 1) =
      some (pythonEvent ev (asciiPart text)).type := by
    unfold pythonEvent
    cases ev.action <;> rfl
  rw [decodeKeyEvent_csiText (by simp [eventSections, keySections]) nonempty, firstSection,
    secondSection, thirdSection]
  unfold PythonKeys.eventOfSections
  simp only [Option.bind_eq_bind, Option.bind_some, keyNumber, shiftedNumber, alternateNumber,
    modsNumber, actionNumber, python_keyName key, python_keyName shifted, python_keyName alternate,
    type, mapM_chr, shift, alt, ctrl, super, hyper, metaKey, capslock, numlock]
  rfl

/-- The name Go gives a key of an event. -/
def goKeyCharacters (ch : UInt32) : Text := if isSurrogate ch then [0xFFFD] else keyCharacters ch

/-- Go cannot read the first section where the field of the shifted key is empty. -/
theorem goNumbers_keyFields {ev : KeyEvent} {text : List Char} (event : CharacterEvent ev text) :
    goNumbers (keyFields (initEncodingData ev)) =
      if ev.alternateKey ≠ 0 ∧ ev.shiftedKey = 0 then []
      else fieldNumbers 0 (keyFields (initEncodingData ev)) := by
  obtain ⟨shifted, alternate, added⟩ := initEncodingData_keys event
  have empty : none ∈ keyFields (initEncodingData ev) ↔
      ev.alternateKey ≠ 0 ∧ ev.shiftedKey = 0 := by
    unfold keyFields
    cases adds : (initEncodingData ev).addAlternates with
    | false =>
      grind
    | true =>
      by_cases none_ : ev.shiftedKey = 0 <;> by_cases other : ev.alternateKey = 0 <;>
        simp_all
  unfold goNumbers
  simp only [empty]

/-- The modifiers and the action of an event, as Go reads them. -/
theorem eventModFields_go {ev : KeyEvent} {text : List Char} (event : CharacterEvent ev text)
    {second : List Int} (section_ : second = goNumbers (eventModFields ev)) :
    (if second.length > 0 then UInt16.ofInt (second.headD 0 - 1) else 0) =
        ev.mods.value.toUInt16 ∧
      (if second.length > 1 then
          if second.getD 1 0 = 2 then GoKeys.KeyEventType.REPEAT
          else if second.getD 1 0 = 3 then .RELEASE
          else .PRESS
        else .PRESS) = (goEvent ev (asciiPart text)).type := by
  have value : UInt16.ofInt (ev.mods.value.toNat : Int) = ev.mods.value.toUInt16 := by
    have small : (ev.mods.value.toNat : Int) % 2 ^ 16 = (ev.mods.value.toNat : Int) :=
      Int.emod_eq_of_lt (by omega) (by have := (mods_spec ev.mods).1; omega)
    rw [UInt16.ofInt, small]
    exact UInt16.ofNat_uInt32ToNat _
  unfold goEvent
  rcases eventModFields_cases event with ⟨press, none_, fields | fields⟩ | ⟨press, fields⟩ |
    fields <;> rw [section_, fields]
  · simp [goNumbers, fieldNumbers, press, none_]
  · simp [goNumbers, press, none_]
  · simp [goNumbers, fieldNumbers, press, value]
  · cases ev.action <;> simp [goNumbers, fieldNumbers, value, KeyAction.toNat]

theorem goNumbers_text (text : List Char) :
    (goNumbers (text.map fun c => some c.val.toNat)).map GoKeys.rune = text.map Char.val := by
  have full : none ∉ text.map fun c => some c.val.toNat := by simp
  unfold goNumbers fieldNumbers
  rw [if_neg full, List.map_map, List.map_map]
  apply List.map_congr_left
  intro c _
  have scalar : c.val ≤ 0x10FFFF ∧ isSurrogate c.val = false := by
    have valid := c.valid
    simp only [isSurrogate, decide_eq_false_iff_not, UInt32.le_iff_toNat_le]
    have numbers : (0x10FFFF : UInt32).toNat = 0x10FFFF ∧ (0xD800 : UInt32).toNat = 0xD800 ∧
        (0xDFFF : UInt32).toNat = 0xDFFF := ⟨rfl, rfl, rfl⟩
    rcases valid with low | ⟨above, high⟩ <;> omega
  have rune := rune_codePoint scalar.1
  rw [scalar.2, if_neg (by decide)] at rune
  rw [Function.comp_apply, Function.comp_apply, Option.map_some, Option.getD_some,
    Int.ofNat_eq_natCast, rune]

/-- Go gives back nothing where the field of the shifted key is empty; else the event, its text less
the characters outside ASCII and its keys less the surrogates. -/
theorem keyEventFromCSI_eventSections {ev : KeyEvent} {text : List Char}
    (event : CharacterEvent ev text) :
    GoKeys.keyEventFromCSI (csiText (eventSections ev) ++ [ord 'u']) =
      if ev.alternateKey ≠ 0 ∧ ev.shiftedKey = 0 then none
      else some
        { goEvent ev (asciiPart text) with
          key := goKeyCharacters ev.key
          shiftedKey := goKeyCharacters ev.shiftedKey
          alternateKey := goKeyCharacters ev.alternateKey } := by
  obtain ⟨firstSection, secondSection, thirdSection⟩ := eventSections_getD event
  obtain ⟨keyNumber, shiftedNumber, alternateNumber⟩ := keyFields_event event rfl
  obtain ⟨modsNumber, actionNumber⟩ := eventModFields_go event rfl
  obtain ⟨key, shifted, alternate⟩ := event.keys
  have nonempty : ∀ fields ∈ eventSections ev, fields ≠ [] := fun _ => keySections_nonempty
  have small : ev.mods.value.toNat + 1 < 2 ^ 63 :=
    Nat.lt_trans (Nat.succ_lt_succ (mods_spec ev.mods).1) (by decide)
  have range : ∀ fields ∈ eventSections ev, ∀ n, some n ∈ fields → n < 2 ^ 63 :=
    fun _ mem _ => keySections_range small mem
  have name : ∀ (first : List Int) (i : Nat),
      (if first.length > i then GoKeys.keyName (ord 'u') (first.getD i 0) else []) =
        GoKeys.keyName (ord 'u') (if first.length > i then first.getD i 0 else 0) := by
    intro first i
    split <;> rfl
  have paste := @ne_paste_of_letter (ord 'u') (by decide) (csiText (eventSections ev))
  rw [keyEventFromCSI_csiText (by simp [eventSections, keySections]) nonempty range (by decide)
    paste, firstSection, secondSection, thirdSection, goNumbers_keyFields event]
  unfold GoKeys.eventOfSections
  have letter : letterTrailerToCsiNumber.lookup (ord 'u') = none := by decide
  rw [letter, Option.none_or]
  split
  · rfl
  · simp only [Option.bind_eq_bind, Option.bind_some, keyNumber, name, shiftedNumber,
      alternateNumber, modsNumber, actionNumber, go_keyName key, go_keyName shifted,
      go_keyName alternate, goNumbers_text]
    rfl

/-! ### The round trip -/

/-- Both decoders give back the event that was encoded. -/
def DecodedAlike (ev : KeyEvent) (text : List Char) (code : Text) : Prop :=
  PythonKeys.decodeKeyEvent (code.drop 2).dropLast (code.getLastD 0) =
      some (pythonEvent ev text) ∧
    GoKeys.keyEventFromCSI (code.drop 2) = some (goEvent ev text)

theorem asciiPart_eq_iff {text : List Char} :
    (asciiPart text).map Char.val = text.map Char.val ↔ ∀ c ∈ text, c.val < 0x80 := by
  constructor
  · intro same c mem
    have kept : asciiPart text = text := List.map_inj_right (fun _ _ => Char.ext) |>.1 same
    rw [← kept] at mem
    exact of_decide_eq_true (List.mem_filter.1 mem).2
  · intro ascii
    rw [asciiPart, List.filter_eq_self.2 fun c mem => decide_eq_true (ascii c mem)]

theorem goKeyCharacters_eq_iff {ch : UInt32} :
    goKeyCharacters ch = keyCharacters ch ↔ isSurrogate ch = false := by
  unfold goKeyCharacters
  constructor
  · intro same
    apply Bool.eq_false_iff.2
    intro surrogate
    rw [if_pos surrogate, keyCharacters] at same
    split at same
    · cases same
    · rw [← List.head_eq_of_cons_eq same] at surrogate
      exact absurd surrogate (by decide)
  · intro scalar
    rw [scalar, if_neg (by decide)]

/-- The events that survive the round trip: the text is ASCII, an alternate key comes with a shifted
key, and no key is a surrogate. -/
theorem keyEventRoundTrip {ev : KeyEvent} {text : List Char} {code : Text}
    (event : CharacterEvent ev text) (sent : encodeKey ev = some code) :
    DecodedAlike ev text code ↔
      (∀ c ∈ text, c.val < 0x80) ∧ (ev.alternateKey ≠ 0 → ev.shiftedKey ≠ 0) ∧
        ∀ key ∈ [ev.key, ev.shiftedKey, ev.alternateKey], isSurrogate key = false := by
  have written : code.drop 2 = csiText (eventSections ev) ++ [ord 'u'] := by
    rw [encodeKey_character event sent]
    rfl
  have trailer : code.getLastD 0 = ord 'u' := by
    rw [encodeKey_character event sent, List.getLastD_concat]
  unfold DecodedAlike
  rw [written, trailer, List.dropLast_concat, decodeKeyEvent_eventSections event,
    keyEventFromCSI_eventSections event]
  constructor
  · rintro ⟨python, go⟩
    have texts := congrArg PythonKeys.KeyEvent.text (Option.some.inj python)
    split at go
    · cases go
    · rename_i readable
      have same := Option.some.inj go
      refine ⟨asciiPart_eq_iff.1 texts, fun held none_ => readable ⟨held, none_⟩, ?_⟩
      intro key mem
      apply goKeyCharacters_eq_iff.1
      simp only [List.mem_cons, List.not_mem_nil, or_false] at mem
      rcases mem with rfl | rfl | rfl
      · exact congrArg GoKeys.KeyEvent.key same
      · exact congrArg GoKeys.KeyEvent.shiftedKey same
      · exact congrArg GoKeys.KeyEvent.alternateKey same
  · rintro ⟨ascii, readable, scalars⟩
    have texts := asciiPart_eq_iff.2 ascii
    have names : ∀ key ∈ [ev.key, ev.shiftedKey, ev.alternateKey],
        goKeyCharacters key = keyCharacters key :=
      fun key mem => goKeyCharacters_eq_iff.2 (scalars key mem)
    rw [if_neg fun missing => readable missing.1 missing.2]
    constructor
    · simp only [pythonEvent, texts]
    · simp [goEvent, texts, names ev.key (by simp), names ev.shiftedKey (by simp),
        names ev.alternateKey (by simp)]

/-- The `A` key with shift held, and its text. -/
def shiftedLetterEvent : KeyEvent :=
  { key := ord 'a', shiftedKey := ord 'A', mods := { shift := true }, action := .repeat,
    reportAllEventTypes := true, reportAlternateKey := true, reportText := true, embedText := true,
    text := some (utf8Text ['A']) }

theorem shiftedLetterEvent_character : CharacterEvent shiftedLetterEvent ['A'] where
  key := ⟨by decide, by decide, by decide⟩
  shifted _ := ⟨⟨by decide, by decide, by decide⟩, rfl⟩
  alternate held := absurd rfl held
  reportAllEventTypes := rfl
  reportAlternateKey := rfl
  reportText := rfl
  embedText := rfl
  bytes := Or.inl rfl
  noControl := List.forall_mem_singleton.2 (by decide)

theorem keyEventRoundTrip_shifted :
    encodeKey shiftedLetterEvent = some (chars "\x1b[97:65;2:2;65u") ∧
      DecodedAlike shiftedLetterEvent ['A'] (chars "\x1b[97:65;2:2;65u") := by
  have sent : encodeKey shiftedLetterEvent = some (chars "\x1b[97:65;2:2;65u") := by decide +kernel
  have ascii : ∀ c ∈ ['A'], c.val < 0x80 := List.forall_mem_singleton.2 (by decide)
  refine ⟨sent, (keyEventRoundTrip shiftedLetterEvent_character sent).2 ⟨ascii, ?_, ?_⟩⟩
  · exact fun held => absurd rfl held
  · intro key mem
    simp only [List.mem_cons, List.not_mem_nil, or_false] at mem
    rcases mem with rfl | rfl | rfl <;> rfl

/-- The `é` key of a keyboard that has one, and its text. -/
def accentedLetterEvent : KeyEvent :=
  { key := ord 'é', reportAllEventTypes := true, reportAlternateKey := true, reportText := true,
    embedText := true, text := some (utf8Text ['é']) }

/-- The text of an accented letter is lost on the way to either decoder. -/
theorem keyEventRoundTrip_accented :
    CharacterEvent accentedLetterEvent ['é'] ∧
      encodeKey accentedLetterEvent = some (chars "\x1b[233;u") ∧
      ¬ DecodedAlike accentedLetterEvent ['é'] (chars "\x1b[233;u") ∧
      PythonKeys.decodeKeyEvent (chars "233;") (ord 'u') =
        some (pythonEvent accentedLetterEvent []) ∧
      GoKeys.keyEventFromCSI (chars "233;u") = some (goEvent accentedLetterEvent []) := by
  have python : PythonKeys.decodeKeyEvent (chars "233;") (ord 'u') =
      some (pythonEvent accentedLetterEvent []) := by decide +kernel
  have go : GoKeys.keyEventFromCSI (chars "233;u") = some (goEvent accentedLetterEvent []) := by
    decide +kernel
  refine ⟨?_, by decide +kernel, ?_, python, go⟩
  · exact
      { key := ⟨by decide, by decide, by decide⟩
        shifted := fun held => absurd rfl held
        alternate := fun held => absurd rfl held
        reportAllEventTypes := rfl
        reportAlternateKey := rfl
        reportText := rfl
        embedText := rfl
        bytes := Or.inl rfl
        noControl := List.forall_mem_singleton.2 (by decide) }
  · rintro ⟨decoded, -⟩
    have same := decoded.symm.trans python
    exact absurd (congrArg PythonKeys.KeyEvent.text (Option.some.inj same)) (by decide)

end Smelly
