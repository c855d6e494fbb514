/-
Module: Smelly.Proofs.GoKeyRoundTrip
Purpose: Exactly which key events of the command line tools come back when their escape code is
  decoded.
Trusted boundary: none
-/
import Smelly.Core.KeyEventCsi
import Smelly.Proofs.KeyEventRoundTrip
import Smelly.Proofs.Utf8Strings

namespace Smelly

namespace GoKeys

/-! ### The sections of an escape code -/

/-- The number of an event type. -/
def actionNumber : KeyEventType → Nat
  | .PRESS => 1
  | .REPEAT => 2
  | .RELEASE => 3

/-- The trailer that goes with the number of a key, before the tildes. -/
def letterTrailer (key : Text) : UInt32 :=
  if key = chars "ENTER" then ord 'u'
  else (csiNumberToLetterTrailer (csiNumberForName key)).getD (ord 'u')

/-- The number that stands for a key. -/
def keyNumber (key : Text) : Nat :=
  if letterTrailer key ≠ ord 'u' then 1 else csiNumberForName key

/-- The trailer of a key. -/
def keyTrailer (key : Text) : UInt32 :=
  match nameToFunctionalNumber key with
  | some fn => if fn ∈ tildeTrailers then ord '~' else letterTrailer key
  | none => letterTrailer key

/-- The number of the key is left out where it is 1 and nothing but the action follows. -/
def keyIsPrinted (self : KeyEvent) : Bool :=
  keyNumber self.key ≠ 1 ∨ self.mods ≠ 0 ∨ csiNumberForName self.shiftedKey ≠ 0 ∨
    csiNumberForName self.alternateKey ≠ 0 ∨ self.text ≠ []

/-- The fields for the other two keys. -/
def otherKeys (shifted alternate : Nat) : List (Option Nat) :=
  if shifted ≠ 0 ∨ alternate ≠ 0 then
    (if shifted ≠ 0 then some shifted else none) :: if alternate ≠ 0 then [some alternate] else []
  else []

/-- The fields for the modifiers and the action. -/
def modsFields (mods action : Nat) : List (Option Nat) :=
  (if action > 1 ∨ mods ≠ 0 then some (mods + 1) else none) ::
    if action > 1 then [some action] else []

/-- The fields for the text. -/
def runeFields (text : Text) : List (Option Nat) := text.map fun r => some r.toNat

/-- The sections of the escape code of an event. -/
def csiSections (self : KeyEvent) : List (List (Option Nat)) :=
  ((if keyIsPrinted self then some (keyNumber self.key) else none) ::
      otherKeys (csiNumberForName self.shiftedKey) (csiNumberForName self.alternateKey)) ::
    if self.mods ≠ 0 ∨ actionNumber self.type > 1 ∨ self.text ≠ [] then
      modsFields self.mods.toNat (actionNumber self.type) ::
        if self.text ≠ [] then [runeFields self.text] else []
    else []

theorem colon_chars : chars ":" = [ord ':'] := rfl

theorem semicolon_chars : chars ";" = [ord ';'] := rfl

/-! ### What is written

The steps of `AsCSI`, one after the other. -/

/-- The step that writes the number of the key. -/
def addKey (self : KeyEvent) (ans : Text) : Text :=
  if keyNumber self.key ≠ 1 ∨ self.mods ≠ 0 ∨ csiNumberForName self.shiftedKey ≠ 0 ∨
      csiNumberForName self.alternateKey ≠ 0 ∨ self.text ≠ [] then
    ans ++ decimalText (keyNumber self.key)
  else ans

/-- The step that writes the other two keys. -/
def addOtherKeys (shifted alternate : Nat) (ans : Text) : Text :=
  if shifted ≠ 0 ∨ alternate ≠ 0 then
    let ans := ans ++ chars ":"
    let ans := if shifted ≠ 0 then ans ++ decimalText shifted else ans
    if alternate ≠ 0 then ans ++ chars ":" ++ decimalText alternate else ans
  else ans

/-- The step that writes the modifiers and the action. -/
def addMods (mods : UInt16) (action : Nat) (text ans : Text) : Text :=
  if mods ≠ 0 ∨ action > 1 ∨ text ≠ [] then
    let m := mods.toNat
    if action > 1 ∨ m ≠ 0 then
      let ans := ans ++ chars ";" ++ decimalText (m + 1)
      if action > 1 then ans ++ chars ":" ++ decimalText action else ans
    else if text ≠ [] then ans ++ chars ";"
    else ans
  else ans

/-- The step that writes the text. -/
def addText (text ans : Text) : Text :=
  if text ≠ [] then
    ans ++ chars ";" ++ (chars ":").intercalate (text.map fun r => decimalText r.toNat)
  else ans

theorem asCSI_steps (self : KeyEvent) :
    asCSI self =
      addText self.text (addMods self.mods (actionNumber self.type) self.text
        (addOtherKeys (csiNumberForName self.shiftedKey) (csiNumberForName self.alternateKey)
          (addKey self (chars "\x1b[")))) ++ [keyTrailer self.key] := rfl

theorem addKey_eq (self : KeyEvent) (ans : Text) :
    addKey self ans =
      ans ++ fieldText (if keyIsPrinted self then some (keyNumber self.key) else none) := by
  simp only [addKey, keyIsPrinted, decide_eq_true_eq]
  split
  · rfl
  · simp [fieldText]

theorem addOtherKeys_eq (field : Option Nat) (ans : Text) (shifted alternate : Nat) :
    addOtherKeys shifted alternate (ans ++ fieldText field) =
      ans ++ sectionText (field :: otherKeys shifted alternate) := by
  unfold addOtherKeys otherKeys
  by_cases noShifted : shifted = 0
  · by_cases noAlternate : alternate = 0
    · simp [noShifted, noAlternate]
    · simp [noShifted, noAlternate, sectionText_cons, fieldText, colon_chars]
  · by_cases noAlternate : alternate = 0
    · simp [noShifted, noAlternate, sectionText_cons, fieldText, colon_chars]
    · simp [noShifted, noAlternate, sectionText_cons, fieldText, colon_chars]

theorem toNat_ne_zero {mods : UInt16} : mods.toNat ≠ 0 ↔ mods ≠ 0 := by
  rw [ne_eq, ne_eq, ← UInt16.toNat_inj]
  rfl

theorem sectionText_modsFields (mods action : Nat) :
    sectionText (modsFields mods action) =
      (if action > 1 ∨ mods ≠ 0 then decimalText (mods + 1) else []) ++
        if action > 1 then chars ":" ++ decimalText action else [] := by
  unfold modsFields
  by_cases more : action > 1
  · simp [more, sectionText_cons, fieldText, colon_chars]
  · by_cases none : mods = 0
    · simp [more, none, fieldText]
    · simp [more, none, fieldText]

theorem addMods_eq (ans : Text) (mods : UInt16) (action : Nat) (text : Text) :
    addMods mods action text ans =
      ans ++ if mods ≠ 0 ∨ action > 1 ∨ text ≠ [] then
        ord ';' :: sectionText (modsFields mods.toNat action)
      else [] := by
  rw [sectionText_modsFields]
  simp only [addMods, toNat_ne_zero]
  by_cases more : action > 1
  · simp [more, semicolon_chars]
  · by_cases none : mods = 0
    · by_cases noText : text = []
      · simp [more, none, noText]
      · simp [more, none, noText, semicolon_chars]
    · simp [more, none, semicolon_chars]

theorem addText_eq (text ans : Text) :
    addText text ans =
      ans ++ if text ≠ [] then ord ';' :: sectionText (runeFields text) else [] := by
  have codes : sectionText (runeFields text) =
      [ord ':'].intercalate (text.map fun r => decimalText r.toNat) := by
    unfold sectionText runeFields
    rw [List.map_map]
    rfl
  rw [codes]
  unfold addText
  split
  · simp [semicolon_chars, colon_chars]
  · simp

/-- The escape code of an event is the text of its sections and the trailer of its key. -/
theorem asCSI_eq (self : KeyEvent) :
    asCSI self = chars "\x1b[" ++ csiText (csiSections self) ++ [keyTrailer self.key] := by
  rw [asCSI_steps, addKey_eq, addOtherKeys_eq, addMods_eq, addText_eq]
  unfold csiSections
  by_cases noText : self.text = []
  · by_cases more : self.mods ≠ 0 ∨ actionNumber self.type > 1
    · simp [noText, more, csiText_cons]
    · simp [noText, more]
  · simp [noText, csiText_cons]

/-! ### Reading the sections back -/

theorem fieldText_inj {field field' : Option Nat} (same : fieldText field = fieldText field') :
    field = field' := by
  cases field with
  | none =>
    cases field' with
    | none => rfl
    | some m => exact absurd same.symm (decimalText_ne_nil m)
  | some n =>
    cases field' with
    | none => exact absurd same (decimalText_ne_nil n)
    | some m =>
      have values := congrArg decimal same
      simp only [fieldText, decimal_decimalText] at values
      rw [values]

theorem sectionText_inj {fields fields' : List (Option Nat)} (nonempty : fields ≠ [])
    (nonempty' : fields' ≠ []) (same : sectionText fields = sectionText fields') :
    fields = fields' := by
  have texts := congrArg (List.splitOn (ord ':')) same
  rw [splitOn_sectionText nonempty, splitOn_sectionText nonempty'] at texts
  exact List.map_injective_iff.2 (fun _ _ => fieldText_inj) texts

/-- The key of an event is numbered so that the decoder finds the key again. -/
structure WellNumbered (key : Text) : Prop where
  trailer : keyTrailer key ∈ chars "u~ABCDEHFPQRS"
  range : keyNumber key < 2 ^ 63
  noPaste : keyTrailer key = ord '~' → keyNumber key ≠ 200 ∧ keyNumber key ≠ 201
  lettered : keyNumber key = 1 → (letterTrailerToCsiNumber.lookup (keyTrailer key)).isSome = true

/-- The number that the decoder takes for the key. -/
def decodedNumber (key : Text) : Int :=
  (letterTrailerToCsiNumber.lookup (keyTrailer key)).getD (keyNumber key)

theorem otherKeys_range {shifted alternate n : Nat} (mem : some n ∈ otherKeys shifted alternate) :
    n = shifted ∨ n = alternate := by
  unfold otherKeys at mem
  split at mem
  · rcases List.mem_cons.1 mem with first | rest
    · split at first
      · exact Or.inl (Option.some.inj first)
      · cases first
    · split at rest
      · exact Or.inr (Option.some.inj (List.mem_singleton.1 rest))
      · exact absurd rest List.not_mem_nil
  · exact absurd mem List.not_mem_nil

theorem modsFields_range {mods action n : Nat} (mem : some n ∈ modsFields mods action) :
    n = mods + 1 ∨ n = action := by
  rcases List.mem_cons.1 mem with first | rest
  · split at first
    · exact Or.inl (Option.some.inj first)
    · cases first
  · split at rest
    · exact Or.inr (Option.some.inj (List.mem_singleton.1 rest))
    · exact absurd rest List.not_mem_nil

/-- A section is that of the keys, that of the modifiers or that of the text. -/
theorem csiSections_cases {ev : KeyEvent} {fields : List (Option Nat)}
    (mem : fields ∈ csiSections ev) :
    fields = (if keyIsPrinted ev then some (keyNumber ev.key) else none) ::
        otherKeys (csiNumberForName ev.shiftedKey) (csiNumberForName ev.alternateKey) ∨
      fields = modsFields ev.mods.toNat (actionNumber ev.type) ∨
      (ev.text ≠ [] ∧ fields = runeFields ev.text) := by
  rcases List.mem_cons.1 mem with first | rest
  · exact Or.inl first
  · split at rest
    · rcases List.mem_cons.1 rest with second | rest
      · exact Or.inr (Or.inl second)
      · split at rest
        · rename_i noText
          exact Or.inr (Or.inr ⟨noText, List.mem_singleton.1 rest⟩)
        · exact absurd rest List.not_mem_nil
    · exact absurd rest List.not_mem_nil

/-- The sections of the code of a well numbered key are read back. -/
theorem keyEventFromCSI_asCSI {ev : KeyEvent} (key : WellNumbered ev.key)
    (range : csiNumberForName ev.shiftedKey < 2 ^ 63 ∧ csiNumberForName ev.alternateKey < 2 ^ 63) :
    keyEventFromCSI ((asCSI ev).drop 2) =
      eventOfSections (keyTrailer ev.key) (goNumbers ((csiSections ev).getD 0 []))
        (goNumbers ((csiSections ev).getD 1 [])) (goNumbers ((csiSections ev).getD 2 [])) := by
  have written : (asCSI ev).drop 2 = csiText (csiSections ev) ++ [keyTrailer ev.key] := by
    rw [asCSI_eq]
    rfl
  have some_ : csiSections ev ≠ [] := List.cons_ne_nil _ _
  have nonempty : ∀ fields ∈ csiSections ev, fields ≠ [] := by
    intro fields mem
    rcases csiSections_cases mem with rfl | rfl | ⟨noText, rfl⟩
    · exact List.cons_ne_nil _ _
    · exact List.cons_ne_nil _ _
    · simpa [runeFields] using noText
  have small : ∀ fields ∈ csiSections ev, ∀ n, some n ∈ fields → n < 2 ^ 63 := by
    intro fields mem n number
    rcases csiSections_cases mem with rfl | rfl | ⟨-, rfl⟩
    · rcases List.mem_cons.1 number with first | others
      · split at first
        · rw [Option.some.inj first]
          exact key.range
        · cases first
      · rcases otherKeys_range others with rfl | rfl
        · exact range.1
        · exact range.2
    · rcases modsFields_range number with rfl | rfl
      · exact Nat.lt_trans (Nat.succ_lt_succ ev.mods.toNat_lt) (by decide)
      · cases ev.type <;> decide
    · obtain ⟨r, -, same⟩ := List.mem_map.1 number
      rw [← Option.some.inj same]
      exact Nat.lt_trans r.toNat_lt (by decide)
  have paste : ∀ text ∈ [chars "200~", chars "201~"],
      csiText (csiSections ev) ++ [keyTrailer ev.key] ≠ text := by
    have number : ∀ n, keyTrailer ev.key = ord '~' → keyNumber ev.key ≠ n →
        (chars (toString n)).splitOn (ord ';') = [sectionText [some n]] →
        csiText (csiSections ev) ++ [keyTrailer ev.key] ≠ chars (toString n) ++ [ord '~'] := by
      intro n tilde other split same
      have body := congrArg (List.splitOn (ord ';')) (List.append_inj_left' same rfl)
      rw [splitOn_csiText some_, split] at body
      have fields := sectionText_inj (List.cons_ne_nil _ _) (List.cons_ne_nil _ _)
        (List.head_eq_of_cons_eq body)
      have first := List.head_eq_of_cons_eq fields
      split at first
      · exact other (Option.some.inj first)
      · cases first
    by_cases tilde : keyTrailer ev.key = ord '~'
    · have numbers := key.noPaste tilde
      intro text mem
      simp only [List.mem_cons, List.not_mem_nil, or_false] at mem
      rcases mem with rfl | rfl
      · exact number 200 tilde numbers.1 (by decide)
      · exact number 201 tilde numbers.2 (by decide)
    · exact ne_paste_of_letter tilde _
  rw [written, keyEventFromCSI_csiText some_ nonempty small key.trailer paste]

/-- The sections behind the first one. -/
theorem csiSections_getD (ev : KeyEvent) :
    (csiSections ev).getD 1 [] =
        (if ev.mods ≠ 0 ∨ actionNumber ev.type > 1 ∨ ev.text ≠ [] then
          modsFields ev.mods.toNat (actionNumber ev.type)
        else []) ∧
      (csiSections ev).getD 2 [] = runeFields ev.text := by
  unfold csiSections
  by_cases noText : ev.text = []
  · have none_ : runeFields ev.text = [] := by rw [noText]; rfl
    rw [none_]
    by_cases more : ev.mods ≠ 0 ∨ actionNumber ev.type > 1
    · simp [noText, more]
    · simp [noText, more]
  · simp [noText]

/-- The modifiers and the type of an event are read back. -/
theorem goNumbers_modsFields {ev : KeyEvent} {second : List Int}
    (section_ : second = goNumbers ((csiSections ev).getD 1 [])) :
    (if second.length > 0 then UInt16.ofInt (second.headD 0 - 1) else 0) = ev.mods ∧
      (if second.length > 1 then
          if second.getD 1 0 = 2 then KeyEventType.REPEAT
          else if second.getD 1 0 = 3 then .RELEASE
          else .PRESS
        else .PRESS) = ev.type := by
  have value : UInt16.ofInt (ev.mods.toNat : Int) = ev.mods := by
    have small : (ev.mods.toNat : Int) % 2 ^ 16 = (ev.mods.toNat : Int) :=
      Int.emod_eq_of_lt (by omega) (by have := ev.mods.toNat_lt; omega)
    rw [UInt16.ofInt, small]
    exact UInt16.ofNat_toNat
  rw [(csiSections_getD ev).1] at section_
  cases type : ev.type with
  | PRESS =>
    have action : ¬ actionNumber .PRESS > 1 := by decide
    rw [type] at section_
    by_cases none_ : ev.mods = 0
    · have empty : second = [] := by
        rw [section_]
        split
        · simp [modsFields, action, none_, goNumbers]
        · rfl
      simp [empty, none_]
    · have first : second = [(ev.mods.toNat : Int) + 1] := by
        rw [section_, if_pos (Or.inl none_)]
        simp [modsFields, action, toNat_ne_zero.2 none_, goNumbers, fieldNumbers]
      simp [first, value]
  | REPEAT =>
    have both : second = [(ev.mods.toNat : Int) + 1, 2] := by
      rw [section_, type]
      simp [modsFields, actionNumber, goNumbers, fieldNumbers]
    simp [both, value]
  | RELEASE =>
    have both : second = [(ev.mods.toNat : Int) + 1, 3] := by
      rw [section_, type]
      simp [modsFields, actionNumber, goNumbers, fieldNumbers]
    simp [both, value]

/-- The text of an event is read back. -/
theorem goNumbers_runeFields (text : List Char) :
    (goNumbers (runeFields (text.map Char.val))).map rune = text.map Char.val := by
  have fields : runeFields (text.map Char.val) = text.map fun c => some c.val.toNat := by
    unfold runeFields
    rw [List.map_map]
    rfl
  rw [fields]
  exact goNumbers_text text

/-- What is read of the first section. -/
def firstNumbers (key shifted alternate : Nat) : List Int :=
  (key : Int) ::
    if shifted ≠ 0 then (shifted : Int) :: if alternate ≠ 0 then [(alternate : Int)] else [] else []

theorem goNumbers_keyFields {key shifted alternate : Nat} :
    goNumbers (some key :: otherKeys shifted alternate) =
      if alternate ≠ 0 ∧ shifted = 0 then [] else firstNumbers key shifted alternate := by
  unfold otherKeys firstNumbers
  by_cases noShifted : shifted = 0
  · by_cases noAlternate : alternate = 0
    · simp [noShifted, noAlternate, goNumbers, fieldNumbers]
    · simp [noShifted, noAlternate, goNumbers]
  · by_cases noAlternate : alternate = 0
    · simp [noShifted, noAlternate, goNumbers, fieldNumbers]
    · simp [noShifted, noAlternate, goNumbers, fieldNumbers]

theorem keyName_firstNumbers (lastChar : UInt32) {key shifted alternate : Nat}
    (readable : alternate ≠ 0 → shifted ≠ 0) :
    (if (firstNumbers key shifted alternate).length > 1 then
        keyName lastChar ((firstNumbers key shifted alternate).getD 1 0) else []) =
        keyName lastChar shifted ∧
      (if (firstNumbers key shifted alternate).length > 2 then
        keyName lastChar ((firstNumbers key shifted alternate).getD 2 0) else []) =
        keyName lastChar alternate := by
  have zero : keyName lastChar 0 = [] := rfl
  unfold firstNumbers
  by_cases noShifted : shifted = 0
  · have noAlternate : alternate = 0 := Classical.byContradiction fun some_ =>
      readable some_ noShifted
    simp [noShifted, noAlternate, zero]
  · by_cases noAlternate : alternate = 0
    · simp [noShifted, noAlternate, zero]
    · simp [noShifted, noAlternate]

/-- Without a shifted key, an alternate key is not read back. -/
theorem keyEventFromCSI_unread {ev ev' : KeyEvent} (key : WellNumbered ev.key)
    (range : csiNumberForName ev.shiftedKey < 2 ^ 63 ∧ csiNumberForName ev.alternateKey < 2 ^ 63)
    (alternate : csiNumberForName ev.alternateKey ≠ 0)
    (shifted : csiNumberForName ev.shiftedKey = 0)
    (read : keyEventFromCSI ((asCSI ev).drop 2) = some ev') : ev'.alternateKey = [] := by
  have printed : keyIsPrinted ev = true := by simp [keyIsPrinted, alternate]
  have first : goNumbers ((csiSections ev).getD 0 []) = [] := by
    have fields : (csiSections ev).getD 0 [] = some (keyNumber ev.key) ::
        otherKeys (csiNumberForName ev.shiftedKey) (csiNumberForName ev.alternateKey) := by
      unfold csiSections
      rw [printed]
      rfl
    rw [fields, goNumbers_keyFields, if_pos ⟨alternate, shifted⟩]
  rw [keyEventFromCSI_asCSI key range, first] at read
  unfold eventOfSections at read
  cases number : (letterTrailerToCsiNumber.lookup (keyTrailer ev.key)).or ([] : List Int).head? with
  | none =>
    rw [number] at read
    cases read
  | some keynum =>
    rw [number] at read
    rw [← Option.some.inj read]
    rfl

/-- What comes back for an event whose fields can be read. -/
theorem keyEventFromCSI_read {ev : KeyEvent} {text : List Char} (key : WellNumbered ev.key)
    (range : csiNumberForName ev.shiftedKey < 2 ^ 63 ∧ csiNumberForName ev.alternateKey < 2 ^ 63)
    (readable : csiNumberForName ev.alternateKey ≠ 0 → csiNumberForName ev.shiftedKey ≠ 0)
    (runes : ev.text = text.map Char.val) :
    keyEventFromCSI ((asCSI ev).drop 2) =
      some
        { ev with
          key := keyName (keyTrailer ev.key) (decodedNumber ev.key)
          shiftedKey := keyName (keyTrailer ev.key) (csiNumberForName ev.shiftedKey)
          alternateKey := keyName (keyTrailer ev.key) (csiNumberForName ev.alternateKey)
          handled := false } := by
  obtain ⟨mods, type⟩ := @goNumbers_modsFields ev _ rfl
  have runesRead : (goNumbers ((csiSections ev).getD 2 [])).map rune = ev.text := by
    rw [(csiSections_getD ev).2, runes]
    exact goNumbers_runeFields text
  have keys : (letterTrailerToCsiNumber.lookup (keyTrailer ev.key)).or
        (goNumbers ((csiSections ev).getD 0 [])).head? = some (decodedNumber ev.key) ∧
      (if (goNumbers ((csiSections ev).getD 0 [])).length > 1 then
        keyName (keyTrailer ev.key) ((goNumbers ((csiSections ev).getD 0 [])).getD 1 0) else []) =
        keyName (keyTrailer ev.key) (csiNumberForName ev.shiftedKey) ∧
      (if (goNumbers ((csiSections ev).getD 0 [])).length > 2 then
        keyName (keyTrailer ev.key) ((goNumbers ((csiSections ev).getD 0 [])).getD 2 0) else []) =
        keyName (keyTrailer ev.key) (csiNumberForName ev.alternateKey) := by
    have fields : (csiSections ev).getD 0 [] =
        (if keyIsPrinted ev then some (keyNumber ev.key) else none) ::
          otherKeys (csiNumberForName ev.shiftedKey) (csiNumberForName ev.alternateKey) := rfl
    rw [fields]
    by_cases printed : keyIsPrinted ev = true
    · rw [if_pos printed, goNumbers_keyFields, if_neg fun missing => readable missing.1 missing.2]
      refine ⟨?_, keyName_firstNumbers _ readable⟩
      unfold decodedNumber
      cases letterTrailerToCsiNumber.lookup (keyTrailer ev.key) <;> rfl
    · have silent : keyNumber ev.key = 1 ∧ csiNumberForName ev.shiftedKey = 0 ∧
          csiNumberForName ev.alternateKey = 0 := by
        simp only [keyIsPrinted, decide_eq_true_eq, not_or, Decidable.not_not] at printed
        exact ⟨printed.1, printed.2.2.1, printed.2.2.2.1⟩
      obtain ⟨number, found⟩ := Option.isSome_iff_exists.1 (key.lettered silent.1)
      rw [if_neg printed, silent.2.1, silent.2.2, decodedNumber, found]
      exact ⟨rfl, rfl, rfl⟩
  rw [keyEventFromCSI_asCSI key range]
  unfold eventOfSections
  simp only [keys.1, keys.2.1, keys.2.2, mods, type, runesRead, Option.bind_eq_bind,
    Option.bind_some]

/-! ### Keys with a name -/

/-- Every name of the tables is numbered so that it is found again. -/
theorem functionalKey_read {name : String} (mem : name ∈ functionalKeyNames) :
    WellNumbered (chars name) ∧
      keyName (keyTrailer (chars name)) (decodedNumber (chars name)) = chars name := by
  have all := @forall_mem_of_all String
    (fun name =>
      keyTrailer (chars name) ∈ chars "u~ABCDEHFPQRS" ∧ keyNumber (chars name) < 2 ^ 63 ∧
        (keyTrailer (chars name) = ord '~' →
          keyNumber (chars name) ≠ 200 ∧ keyNumber (chars name) ≠ 201) ∧
        (keyNumber (chars name) = 1 →
          (letterTrailerToCsiNumber.lookup (keyTrailer (chars name))).isSome = true) ∧
        keyName (keyTrailer (chars name)) (decodedNumber (chars name)) = chars name)
    inferInstance functionalKeyNames (by decide +kernel)
  obtain ⟨trailer, range, noPaste, lettered, read⟩ := all name mem
  exact ⟨⟨trailer, range, noPaste, lettered⟩, read⟩

/-! ### Keys of a single character -/

/-- The first byte of a character. -/
def leadByte (c : Char) : UInt8 := (encodeUtf8 c.val).headD 0

/-- A single character is no name of the tables. -/
theorem csiNumberForName_character (c : Char) :
    nameToFunctionalNumber [c.val] = none ∧ csiNumberForName [c.val] = (leadByte c).toNat := by
  have longer : ∀ name ∈ functionalKeyNames, (chars name).length ≠ 1 :=
    forall_mem_of_all (by decide +kernel)
  have unnamed : nameToFunctionalNumber [c.val] = none := by
    unfold nameToFunctionalNumber
    rw [Option.map_eq_none_iff, List.findIdx?_eq_none_iff]
    intro name mem
    apply decide_eq_false
    intro same
    exact longer name mem (congrArg List.length same)
  have others : ¬ ([c.val] = chars "F3" ∨ [c.val] = chars "ENTER") := by
    rintro (same | same)
    · exact longer "F3" (by decide) (congrArg List.length same).symm
    · exact longer "ENTER" (by decide) (congrArg List.length same).symm
  unfold csiNumberForName
  rw [if_neg others, unnamed]
  simp [firstByte, leadByte]

/-- The characters whose first byte is their code point. -/
def IsSelfNumbered (c : Char) : Prop := c.val < 0x80 ∨ c.val = 0xC3

instance (c : Char) : Decidable (IsSelfNumbered c) := by
  unfold IsSelfNumbered
  infer_instance

/-- The first byte of a character, as a number. -/
theorem leadByte_toNat (c : Char) :
    (leadByte c).toNat =
      if c.val.toNat ≤ 0x7F then c.val.toNat
      else if c.val.toNat ≤ 0x7FF then c.val.toNat / 64 + 0xC0
      else if c.val.toNat ≤ 0xFFFF then c.val.toNat / 4096 + 0xE0
      else c.val.toNat / 262144 + 0xF0 := by
  have bound : c.val.toNat < 0x110000 := by
    have valid := c.valid
    omega
  unfold leadByte
  rw [encodeUtf8_val]
  unfold String.utf8EncodeChar
  simp only
  split
  · rw [List.headD_cons, UInt8.toNat_ofNat']
    omega
  · split
    · rw [List.headD_cons, UInt8.toNat_ofNat']
      omega
    · split
      · rw [List.headD_cons, UInt8.toNat_ofNat']
        omega
      · rw [List.headD_cons, UInt8.toNat_ofNat']
        omega

theorem leadByte_eq_iff (c : Char) : (leadByte c).toUInt32 = c.val ↔ IsSelfNumbered c := by
  have lead := leadByte_toNat c
  unfold IsSelfNumbered
  rw [← UInt32.toNat_inj, UInt8.toNat_toUInt32, UInt32.lt_iff_toNat_lt, ← UInt32.toNat_inj]
  have numbers : (0x80 : UInt32).toNat = 0x80 ∧ (0xC3 : UInt32).toNat = 0xC3 := ⟨rfl, rfl⟩
  rw [lead]
  split
  · omega
  · split
    · omega
    · split <;> omega

/-- The first byte of a character key is a character key. -/
theorem leadByte_key {c : Char} (key : IsCharacterKey c.val) :
    IsCharacterKey (leadByte c).toUInt32 := by
  have lead := leadByte_toNat c
  have control := key.noControl
  have small := (leadByte c).toNat_lt
  have numbers : (32 : UInt32).toNat = 32 ∧ (127 : UInt32).toNat = 127 ∧
      (160 : UInt32).toNat = 160 := ⟨rfl, rfl, rfl⟩
  simp only [isControl, decide_eq_false_iff_not, UInt32.lt_iff_toNat_lt,
    UInt32.le_iff_toNat_le] at control
  have range : 32 ≤ (leadByte c).toNat ∧
      ((leadByte c).toNat < 127 ∨ 160 ≤ (leadByte c).toNat) := by
    rw [lead]
    split
    · omega
    · split
      · omega
      · split <;> omega
  constructor
  · exact Nat.le_trans (Nat.le_of_lt small) (by decide)
  · simp only [isControl, decide_eq_false_iff_not, UInt32.lt_iff_toNat_lt,
      UInt32.le_iff_toNat_le, UInt8.toNat_toUInt32]
    omega
  · rintro ⟨first, -⟩
    exact absurd (Nat.lt_of_le_of_lt first small) (by decide)

/-- The key that the number of a character is read as. -/
theorem keyName_leadByte {c : Char} (key : IsCharacterKey c.val) (lastChar : UInt32) :
    keyName lastChar (csiNumberForName [c.val]) = [(leadByte c).toUInt32] := by
  have lead := leadByte_key key
  have small := (leadByte c).toNat_lt
  have name := go_keyName (fun _ => lead) lastChar
  have scalar : isSurrogate (leadByte c).toUInt32 = false := by
    simp only [isSurrogate, decide_eq_false_iff_not]
    rintro ⟨high, -⟩
    exact absurd (Nat.lt_of_le_of_lt high small) (by decide)
  have some_ : (leadByte c).toUInt32 ≠ 0 := by
    intro none_
    have control := lead.noControl
    rw [none_] at control
    exact absurd control (by decide)
  rw [scalar, keyCharacters, if_neg some_] at name
  rw [(csiNumberForName_character c).2]
  exact name

/-- A character key is sent with its first byte as the number. -/
theorem wellNumbered_character {c : Char} (key : IsCharacterKey c.val) :
    WellNumbered [c.val] ∧ keyTrailer [c.val] = ord 'u' ∧
      decodedNumber [c.val] = csiNumberForName [c.val] := by
  obtain ⟨unnamed, number⟩ := csiNumberForName_character c
  have lead := leadByte_key key
  have small := (leadByte c).toNat_lt
  have graphic : 32 ≤ (leadByte c).toNat := by
    have control := lead.noControl
    simp only [isControl, decide_eq_false_iff_not, not_or] at control
    exact Nat.not_lt.1 control.1
  have outside : ∀ entry ∈ letterTrailerToCsiNumber, entry.2 < 32 ∨ 256 ≤ entry.2 :=
    forall_mem_of_all (by decide)
  have noLetter : csiNumberToLetterTrailer (csiNumberForName [c.val]) = none := by
    unfold csiNumberToLetterTrailer
    rw [Option.map_eq_none_iff, List.find?_eq_none]
    intro entry mem
    have bounds := outside entry mem
    simp only [decide_eq_true_eq]
    omega
  have letter : letterTrailer [c.val] = ord 'u' := by
    unfold letterTrailer
    rw [noLetter]
    exact ite_self _
  have trailer : keyTrailer [c.val] = ord 'u' := by
    unfold keyTrailer
    rw [unnamed]
    exact letter
  have key_ : keyNumber [c.val] = csiNumberForName [c.val] := by
    unfold keyNumber
    rw [letter, if_neg (fun other => other rfl)]
  refine ⟨⟨?_, ?_, ?_, ?_⟩, trailer, ?_⟩
  · rw [trailer]
    decide
  · rw [key_, number]
    exact Nat.lt_trans small (by decide)
  · rw [trailer]
    intro tilde
    exact absurd tilde (by decide)
  · omega
  · rw [decodedNumber, trailer, key_]
    rfl

/-! ### The round trip -/

/-- A string of one character that is neither a control character nor a functional key number. -/
def IsCharacterName (key : Text) : Prop := ∃ c : Char, key = [c.val] ∧ IsCharacterKey c.val

/-- An event of a key with a name or of a character key. -/
structure NamedEvent (ev : KeyEvent) : Prop where
  key : (∃ name ∈ functionalKeyNames, ev.key = chars name) ∨ IsCharacterName ev.key
  shifted : ev.shiftedKey = [] ∨ IsCharacterName ev.shiftedKey
  alternate : ev.alternateKey = [] ∨ IsCharacterName ev.alternateKey
  text : ∃ text : List Char, ev.text = text.map Char.val

/-- The events that come back: every key of a single character is numbered by its code point, and an
alternate key comes with a shifted key. -/
structure Recoverable (ev : KeyEvent) : Prop where
  selfNumbered : ∀ key ∈ [ev.key, ev.shiftedKey, ev.alternateKey],
    ∀ c : Char, key = [c.val] → IsSelfNumbered c
  shifted : ev.alternateKey ≠ [] → ev.shiftedKey ≠ []
  handled : ev.handled = false

/-- A single character is read back where its first byte is its code point. -/
theorem keyName_character {key : Text} (character : IsCharacterName key) (lastChar : UInt32) :
    keyName lastChar (csiNumberForName key) = key ↔
      ∀ c : Char, key = [c.val] → IsSelfNumbered c := by
  obtain ⟨c, rfl, event⟩ := character
  rw [keyName_leadByte event, List.cons_eq_cons]
  constructor
  · rintro ⟨same, -⟩ other equal
    rw [← Char.ext (List.head_eq_of_cons_eq equal)]
    exact (leadByte_eq_iff c).1 same
  · intro numbered
    exact ⟨(leadByte_eq_iff c).2 (numbered c rfl), rfl⟩

/-- The other keys are read back where they are numbered by their code points. -/
theorem keyName_other {key : Text} (other : key = [] ∨ IsCharacterName key) (lastChar : UInt32) :
    keyName lastChar (csiNumberForName key) = key ↔
      ∀ c : Char, key = [c.val] → IsSelfNumbered c := by
  rcases other with rfl | character
  · constructor
    · intro _ c same
      cases same
    · intro _
      rfl
  · exact keyName_character character lastChar

theorem csiNumberForName_other {key : Text} (other : key = [] ∨ IsCharacterName key) :
    csiNumberForName key < 2 ^ 63 ∧ (csiNumberForName key ≠ 0 ↔ key ≠ []) := by
  rcases other with rfl | ⟨c, rfl, event⟩
  · exact ⟨by decide, by decide⟩
  · have number := (csiNumberForName_character c).2
    have small := (leadByte c).toNat_lt
    have some_ : csiNumberForName [c.val] ≠ 0 := by
      intro none_
      have name := keyName_leadByte event 0
      rw [none_] at name
      cases name
    refine ⟨?_, fun _ => List.cons_ne_nil _ _, fun _ => some_⟩
    rw [number]
    exact Nat.lt_trans small (by decide)

/-- The key of an event is well numbered, and read back where it has a name or is numbered by its
code point. -/
theorem NamedEvent.key_read {ev : KeyEvent} (event : NamedEvent ev) :
    WellNumbered ev.key ∧
      (keyName (keyTrailer ev.key) (decodedNumber ev.key) = ev.key ↔
        ∀ c : Char, ev.key = [c.val] → IsSelfNumbered c) := by
  rcases event.key with ⟨name, mem, same⟩ | ⟨c, same, character⟩
  · have longer : ∀ name ∈ functionalKeyNames, (chars name).length ≠ 1 :=
      forall_mem_of_all (by decide +kernel)
    obtain ⟨numbered, read⟩ := functionalKey_read mem
    rw [same]
    refine ⟨numbered, fun _ c single => ?_, fun _ => read⟩
    exact absurd (congrArg List.length single) (longer name mem)
  · obtain ⟨numbered, -, number⟩ := wellNumbered_character character
    rw [same, number]
    exact ⟨numbered, keyName_character ⟨c, rfl, character⟩ _⟩

/-- The events that come back when their escape code is decoded. -/
theorem goKeyRoundTrip {ev : KeyEvent} (event : NamedEvent ev) :
    keyEventFromCSI ((asCSI ev).drop 2) = some ev ↔ Recoverable ev := by
  obtain ⟨numbered, key⟩ := event.key_read
  obtain ⟨shiftedRange, shifted⟩ := csiNumberForName_other event.shifted
  obtain ⟨alternateRange, alternate⟩ := csiNumberForName_other event.alternate
  obtain ⟨text, runes⟩ := event.text
  by_cases readable : ev.alternateKey ≠ [] → ev.shiftedKey ≠ []
  · rw [keyEventFromCSI_read numbered ⟨shiftedRange, alternateRange⟩
      (fun some_ => shifted.2 (readable (alternate.1 some_))) runes]
    constructor
    · intro same
      have equal := Option.some.inj same
      refine ⟨?_, readable, (congrArg KeyEvent.handled equal).symm⟩
      intro name mem
      simp only [List.mem_cons, List.not_mem_nil, or_false] at mem
      rcases mem with rfl | rfl | rfl
      · exact key.1 (congrArg KeyEvent.key equal)
      · exact (keyName_other event.shifted _).1 (congrArg KeyEvent.shiftedKey equal)
      · exact (keyName_other event.alternate _).1 (congrArg KeyEvent.alternateKey equal)
    · rintro ⟨selfNumbered, -, handled⟩
      rw [key.2 (selfNumbered _ (by simp)),
        (keyName_other event.shifted _).2 (selfNumbered _ (by simp)),
        (keyName_other event.alternate _).2 (selfNumbered _ (by simp)), ← handled]
  · constructor
    · intro same
      have missing := Classical.not_imp.1 readable
      have none_ := keyEventFromCSI_unread numbered ⟨shiftedRange, alternateRange⟩
        (alternate.2 missing.1)
        (Classical.byContradiction fun some_ => missing.2 (shifted.1 some_)) same
      exact absurd none_ missing.1
    · intro recoverable
      exact absurd recoverable.shifted readable

/-- The up key, with shift held. -/
def shiftedUp : KeyEvent := { key := chars "UP", mods := 1, type := .REPEAT }

theorem shiftedUp_named : NamedEvent shiftedUp where
  key := Or.inl ⟨"UP", by decide, rfl⟩
  shifted := Or.inl rfl
  alternate := Or.inl rfl
  text := ⟨[], rfl⟩

theorem goKeyRoundTrip_up :
    asCSI shiftedUp = chars "\x1b[1;2:2A" ∧
      keyEventFromCSI ((asCSI shiftedUp).drop 2) = some shiftedUp := by
  refine ⟨by decide +kernel, (goKeyRoundTrip shiftedUp_named).2 ⟨?_, ?_, rfl⟩⟩
  · intro key mem c single
    simp only [List.mem_cons, List.not_mem_nil, or_false] at mem
    rcases mem with rfl | rfl | rfl
    · have size : (chars "UP").length = 1 := congrArg List.length single
      exact absurd size (by decide)
    · cases single
    · cases single
  · exact fun held => absurd rfl held

/-- The `é` key, of a keyboard that has one. -/
def accentedKey : KeyEvent := { key := [ord 'é'] }

/-- An accented letter comes back as another letter. -/
theorem goKeyRoundTrip_accented :
    NamedEvent accentedKey ∧ asCSI accentedKey = chars "\x1b[195u" ∧
      keyEventFromCSI ((asCSI accentedKey).drop 2) = some { accentedKey with key := [ord 'Ã'] } ∧
      keyEventFromCSI ((asCSI accentedKey).drop 2) ≠ some accentedKey := by
  refine ⟨?_, by decide +kernel, by decide +kernel, by decide +kernel⟩
  exact
    { key := Or.inr ⟨'é', rfl, ⟨by decide, by decide, by decide⟩⟩
      shifted := Or.inl rfl
      alternate := Or.inl rfl
      text := ⟨[], rfl⟩ }

end GoKeys

end Smelly
