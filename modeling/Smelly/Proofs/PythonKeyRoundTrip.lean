/-
Module: Smelly.Proofs.PythonKeyRoundTrip
Purpose: Every key event of the kittens comes back when its escape code is decoded.
Trusted boundary: none
-/
import Smelly.Core.PythonKeyEncoding
import Smelly.Proofs.GoKeyRoundTrip

namespace Smelly

namespace PythonKeys

open GoKeys (otherKeys modsFields runeFields)

/-! ### The sections of an escape code -/

/-- The number of an event type. -/
def actionNumber : EventType → Nat
  | .PRESS => 1
  | .REPEAT => 2
  | .RELEASE => 3

/-- The letter that goes with the number of a key. -/
def letterFor (key : Text) (number : Nat) : UInt32 :=
  if key = chars "ENTER" then ord 'u'
  else (GoKeys.csiNumberToLetterTrailer number).getD (ord 'u')

/-- The number that is written for a key. -/
def writtenNumber (key : Text) (number : Nat) : Nat :=
  if letterFor key number ≠ ord 'u' then 1 else number

/-- The last character of the escape code. -/
def trailerFor (key : Text) (number : Nat) : UInt32 :=
  match GoKeys.nameToFunctionalNumber key with
  | some fn => if fn ∈ GoKeys.tildeTrailers then ord '~' else letterFor key number
  | none => letterFor key number

/-- The number of the key is left out where it is 1 and nothing but the action follows. -/
def NumberIsWritten (ev : KeyEvent) (key shifted alternate : Nat) : Prop :=
  writtenNumber ev.key key ≠ 1 ∨ ev.mods ≠ 0 ∨ shifted ≠ 0 ∨ alternate ≠ 0 ∨ ev.text ≠ []

instance (ev : KeyEvent) (key shifted alternate : Nat) :
    Decidable (NumberIsWritten ev key shifted alternate) := by
  unfold NumberIsWritten
  infer_instance

/-- The first section. -/
def keySection (ev : KeyEvent) (key shifted alternate : Nat) : List (Option Nat) :=
  (if NumberIsWritten ev key shifted alternate then some (writtenNumber ev.key key) else none) ::
    otherKeys shifted alternate

/-- The sections of the escape code of an event whose keys have these numbers. -/
def pythonSections (ev : KeyEvent) (key shifted alternate : Nat) : List (List (Option Nat)) :=
  keySection ev key shifted alternate ::
    if ev.mods ≠ 0 ∨ actionNumber ev.type > 1 ∨ ev.text ≠ [] then
      modsFields (modsOfBooleans ev) (actionNumber ev.type) ::
        if ev.text ≠ [] then [runeFields ev.text] else []
    else []

/-! ### What is written -/

/-- The step that writes the number of the key. -/
def writeKey (ev : KeyEvent) (key shifted alternate : Nat) (ans : Text) : Text :=
  if writtenNumber ev.key key ≠ 1 ∨ ev.mods ≠ 0 ∨ shifted ≠ 0 ∨ alternate ≠ 0 ∨ ev.text ≠ [] then
    ans ++ decimalText (writtenNumber ev.key key)
  else ans

/-- The step that writes the modifiers and the action. -/
def writeMods (mods : Int) (m action : Nat) (text ans : Text) : Text :=
  if mods ≠ 0 ∨ action > 1 ∨ text ≠ [] then
    if action > 1 ∨ m ≠ 0 then
      let ans := ans ++ chars ";" ++ decimalText (m + 1)
      if action > 1 then ans ++ chars ":" ++ decimalText action else ans
    else if text ≠ [] then ans ++ chars ";"
    else ans
  else ans

theorem encodeNumbers_steps (ev : KeyEvent) (key shifted alternate : Nat) :
    encodeNumbers ev key shifted alternate =
      GoKeys.addText ev.text (writeMods ev.mods (modsOfBooleans ev) (actionNumber ev.type) ev.text
        (GoKeys.addOtherKeys shifted alternate
          (writeKey ev key shifted alternate (chars "\x1b[")))) ++ [trailerFor ev.key key] := rfl

theorem writeKey_eq (ev : KeyEvent) (key shifted alternate : Nat) (ans : Text) :
    writeKey ev key shifted alternate ans =
      ans ++ fieldText (if NumberIsWritten ev key shifted alternate then
        some (writtenNumber ev.key key) else none) := by
  by_cases written : NumberIsWritten ev key shifted alternate
  · rw [if_pos written]
    exact if_pos written
  · rw [if_neg written]
    exact (if_neg written).trans (List.append_nil ans).symm

theorem writeMods_eq (ans : Text) {mods : Int} {m : Nat} (agree : mods = m) (action : Nat)
    (text : Text) :
    writeMods mods m action text ans =
      ans ++ if mods ≠ 0 ∨ action > 1 ∨ text ≠ [] then
        ord ';' :: sectionText (modsFields m action)
      else [] := by
  rw [GoKeys.sectionText_modsFields]
  unfold writeMods
  subst agree
  by_cases more : action > 1
  · simp [more, GoKeys.semicolon_chars]
  · by_cases none_ : m = 0
    · by_cases noText : text = []
      · simp [more, none_, noText]
      · simp [more, none_, noText, GoKeys.semicolon_chars]
    · simp [more, none_, GoKeys.semicolon_chars]

/-- The escape code of an event is the text of its sections and the trailer of its key. -/
theorem encodeNumbers_eq {ev : KeyEvent} (agree : ev.mods = modsOfBooleans ev)
    (key shifted alternate : Nat) :
    encodeNumbers ev key shifted alternate =
      chars "\x1b[" ++ csiText (pythonSections ev key shifted alternate) ++
        [trailerFor ev.key key] := by
  rw [encodeNumbers_steps, writeKey_eq, GoKeys.addOtherKeys_eq, writeMods_eq _ agree,
    GoKeys.addText_eq]
  unfold pythonSections keySection
  by_cases noText : ev.text = []
  · by_cases more : ev.mods ≠ 0 ∨ actionNumber ev.type > 1
    · simp [noText, more, csiText_cons]
    · simp [noText, more]
  · simp [noText, csiText_cons]

theorem decodeEscapeCode_eq (body : Text) (trailer : UInt32) :
    decodeEscapeCode (chars "\x1b[" ++ body ++ [trailer]) = decodeKeyEvent body trailer := by
  have start : (chars "\x1b[").length = 2 := rfl
  have inner : ((chars "\x1b[" ++ body ++ [trailer]).drop 2).dropLast = body := by
    rw [List.append_assoc, ← start, List.drop_left, List.dropLast_concat]
  rw [decodeEscapeCode, List.getLast?_concat, inner]
  rfl

/-! ### Reading the sections back -/

theorem pythonSections_getD (ev : KeyEvent) (key shifted alternate : Nat) :
    (pythonSections ev key shifted alternate).getD 1 [] =
        (if ev.mods ≠ 0 ∨ actionNumber ev.type > 1 ∨ ev.text ≠ [] then
          modsFields (modsOfBooleans ev) (actionNumber ev.type)
        else []) ∧
      (pythonSections ev key shifted alternate).getD 2 [] = runeFields ev.text := by
  unfold pythonSections
  by_cases noText : ev.text = []
  · have none_ : runeFields ev.text = [] := by rw [noText]; rfl
    rw [none_]
    by_cases more : ev.mods ≠ 0 ∨ actionNumber ev.type > 1
    · simp [noText, more]
    · simp [noText, more]
  · simp [noText]

theorem pythonSections_nonempty {ev : KeyEvent} {key shifted alternate : Nat}
    (noEmptyText : ev.text ≠ [] → runeFields ev.text ≠ []) :
    ∀ fields ∈ pythonSections ev key shifted alternate, fields ≠ [] := by
  intro fields mem
  rcases List.mem_cons.1 mem with rfl | later
  · exact List.cons_ne_nil _ _
  · split at later
    · rcases List.mem_cons.1 later with rfl | last
      · exact List.cons_ne_nil _ _
      · split at last
        · rename_i filled
          rw [List.mem_singleton.1 last]
          exact noEmptyText filled
        · exact absurd last List.not_mem_nil
    · exact absurd later List.not_mem_nil

/-- The other two keys are read back as their numbers. -/
theorem keySection_numbers (ev : KeyEvent) (key shifted alternate : Nat) {first : List Int}
    (section_ : first = fieldNumbers 0 (keySection ev key shifted alternate)) :
    first.head? = some (if NumberIsWritten ev key shifted alternate then
        (writtenNumber ev.key key : Int) else 0) ∧
      (if first.length > 1 then first.getD 1 0 else 0) = (shifted : Int) ∧
      (if first.length > 2 then first.getD 2 0 else 0) = (alternate : Int) := by
  have others : ∀ field : Option Nat,
      (fieldNumbers 0 (field :: otherKeys shifted alternate)).head? =
          some ((field.map Int.ofNat).getD 0) ∧
        (if (fieldNumbers 0 (field :: otherKeys shifted alternate)).length > 1 then
          (fieldNumbers 0 (field :: otherKeys shifted alternate)).getD 1 0 else 0) =
            (shifted : Int) ∧
        (if (fieldNumbers 0 (field :: otherKeys shifted alternate)).length > 2 then
          (fieldNumbers 0 (field :: otherKeys shifted alternate)).getD 2 0 else 0) =
            (alternate : Int) := by
    intro field
    refine ⟨rfl, ?_⟩
    unfold otherKeys
    by_cases noShifted : shifted = 0
    · by_cases noAlternate : alternate = 0
      · simp [noShifted, noAlternate, fieldNumbers]
      · simp [noShifted, noAlternate, fieldNumbers]
    · by_cases noAlternate : alternate = 0
      · simp [noShifted, noAlternate, fieldNumbers]
      · simp [noShifted, noAlternate, fieldNumbers]
  by_cases written : NumberIsWritten ev key shifted alternate
  · rw [section_, keySection, if_pos written, if_pos written]
    exact others _
  · rw [section_, keySection, if_neg written, if_neg written]
    exact others none

/-- The modifiers and the action are read back. -/
theorem modsSection_numbers {ev : KeyEvent} (agree : ev.mods = modsOfBooleans ev)
    {second : List Int}
    (section_ : second = fieldNumbers 1
      (if ev.mods ≠ 0 ∨ actionNumber ev.type > 1 ∨ ev.text ≠ [] then
        modsFields (modsOfBooleans ev) (actionNumber ev.type)
      else [])) :
    (if second ≠ [] then second.headD 0 - 1 else 0) = ev.mods ∧
      (if second.length > 1 then second.getD 1 0 else 1) = (actionNumber ev.type : Int) := by
  obtain ⟨m, hm⟩ : ∃ m, m = modsOfBooleans ev := ⟨_, rfl⟩
  rw [← hm] at agree section_
  rw [section_, agree]
  cases ev.type with
  | PRESS =>
    by_cases none_ : m = 0
    · by_cases noText : ev.text = []
      · simp [none_, noText, actionNumber, fieldNumbers]
      · simp [none_, noText, actionNumber, fieldNumbers, modsFields]
    · simp [none_, actionNumber, fieldNumbers, modsFields]
  | REPEAT => simp [actionNumber, fieldNumbers, modsFields]
  | RELEASE => simp [actionNumber, fieldNumbers, modsFields]

/-- The booleans are the bits of the modifiers. -/
theorem modBit_modsOfBooleans (ev : KeyEvent) :
    modBit (modsOfBooleans ev) 0 = ev.shift ∧ modBit (modsOfBooleans ev) 1 = ev.alt ∧
      modBit (modsOfBooleans ev) 2 = ev.ctrl ∧ modBit (modsOfBooleans ev) 3 = ev.super ∧
      modBit (modsOfBooleans ev) 4 = ev.hyper ∧ modBit (modsOfBooleans ev) 5 = ev.metaKey ∧
      modBit (modsOfBooleans ev) 6 = ev.capsLock ∧ modBit (modsOfBooleans ev) 7 = ev.numLock := by
  have bits : ∀ shift alt ctrl super hyper metaKey capsLock numLock : Bool,
      ∀ m, m = modsOfBooleans
        { type := .PRESS, mods := 0, key := [], text := [], shiftedKey := [], alternateKey := []
          shift, alt, ctrl, super, hyper, metaKey, capsLock, numLock } →
      modBit m 0 = shift ∧ modBit m 1 = alt ∧ modBit m 2 = ctrl ∧ modBit m 3 = super ∧
        modBit m 4 = hyper ∧ modBit m 5 = metaKey ∧ modBit m 6 = capsLock ∧
        modBit m 7 = numLock := by
    simp only [forall_eq]
    decide +kernel
  exact bits _ _ _ _ _ _ _ _ _ rfl

theorem eventType_actionNumber (type : EventType) :
    eventType (actionNumber type) = some type := by cases type <;> rfl

/-- A text of code points is read back. -/
theorem mapM_chr_runeFields {text : Text} (codePoints : ∀ ch ∈ text, ch ≤ 0x10FFFF) :
    (fieldNumbers 0 (runeFields text)).mapM chr = some text := by
  induction text with
  | nil => rfl
  | cons ch text ih =>
    have bound : ch.toNat ≤ 0x10FFFF := codePoints ch List.mem_cons_self
    have read : chr (ch.toNat : Int) = some ch := by
      rw [chr, if_pos (by omega), Int.toNat_natCast, UInt32.ofNat_toNat]
    have rest := ih fun other mem => codePoints other (List.mem_cons_of_mem _ mem)
    have whole : fieldNumbers 0 (runeFields (ch :: text)) =
        (ch.toNat : Int) :: fieldNumbers 0 (runeFields text) := rfl
    rw [whole, List.mapM_cons, read, rest]
    rfl

/-! ### Keys -/

/-- The decoder finds the key again behind its number and its trailer. -/
def ReadBack (key : Text) (number : Nat) : Prop :=
  (if trailerFor key number ∈ chars "ABCDEHFPQRS" then
    (letterTrailerToCsiNumber.lookup (trailerFor key number)).bind
      (keyName (trailerFor key number))
  else if writtenNumber key number = 1 then none
  else keyName (trailerFor key number) (writtenNumber key number)) = some key

/-- Every name of the tables has a number behind which it is found again. -/
theorem functionalKey_readBack {name : String} (mem : name ∈ functionalKeyNames) :
    ∃ number, csiNumberForName (chars name) = some number ∧ ReadBack (chars name) number := by
  have all := @forall_mem_of_all String
    (fun name => ((csiNumberForName (chars name)).bind fun number =>
      if trailerFor (chars name) number ∈ chars "ABCDEHFPQRS" then
        (letterTrailerToCsiNumber.lookup (trailerFor (chars name) number)).bind
          (keyName (trailerFor (chars name) number))
      else if writtenNumber (chars name) number = 1 then none
      else keyName (trailerFor (chars name) number) (writtenNumber (chars name) number)) =
        some (chars name)) inferInstance functionalKeyNames (by decide +kernel) name mem
  cases number : csiNumberForName (chars name) with
  | none =>
    rw [number] at all
    cases all
  | some n =>
    rw [number] at all
    exact ⟨n, rfl, all⟩

/-- A single character is no name of the tables. -/
theorem csiNumberForName_single (ch : UInt32) :
    GoKeys.nameToFunctionalNumber [ch] = none ∧ csiNumberForName [ch] = some ch.toNat := by
  have longer : ∀ name ∈ functionalKeyNames, (chars name).length ≠ 1 :=
    forall_mem_of_all (by decide +kernel)
  have unnamed : GoKeys.nameToFunctionalNumber [ch] = none := by
    unfold GoKeys.nameToFunctionalNumber
    rw [Option.map_eq_none_iff, List.findIdx?_eq_none_iff]
    intro name mem
    apply decide_eq_false
    intro same
    exact longer name mem (congrArg List.length same)
  have others : ¬ ([ch] = chars "F3" ∨ [ch] = chars "ENTER") := by
    rintro (same | same)
    · exact longer "F3" (by decide) (congrArg List.length same).symm
    · exact longer "ENTER" (by decide) (congrArg List.length same).symm
  refine ⟨unnamed, ?_⟩
  rw [csiNumberForName, if_neg (List.cons_ne_nil _ _), if_neg others, unnamed]
  rfl

theorem keyName_single {ch : UInt32} (key : IsCharacterKey ch) (csiType : UInt32) :
    keyName csiType ch.toNat = some [ch] := by
  have filled : ch ≠ 0 := by
    rintro rfl
    exact absurd key.noControl (by decide)
  have read := python_keyName (fun _ => key) csiType
  rwa [keyCharacters, if_neg filled] at read

/-- The number of a character key goes with no letter, and the key is found again. -/
theorem characterKey_readBack {ch : UInt32} (key : IsCharacterKey ch) : ReadBack [ch] ch.toNat := by
  have control := key.noControl
  have functional := key.noFunctional
  have outside : 32 ≤ ch.toNat ∧ ¬ (57344 ≤ ch.toNat ∧ ch.toNat ≤ 57454) := by
    simp only [isControl, decide_eq_false_iff_not, UInt32.lt_iff_toNat_lt,
      UInt32.le_iff_toNat_le] at control functional
    have numbers : (32 : UInt32).toNat = 32 ∧ GLFW_FKEY_FIRST.toNat = 57344 ∧
        GLFW_FKEY_LAST.toNat = 57454 := ⟨rfl, rfl, rfl⟩
    omega
  have letters : ∀ entry ∈ letterTrailerToCsiNumber,
      entry.2 < 32 ∨ (57344 ≤ entry.2 ∧ entry.2 ≤ 57454) := forall_mem_of_all (by decide)
  have noLetter : GoKeys.csiNumberToLetterTrailer ch.toNat = none := by
    unfold GoKeys.csiNumberToLetterTrailer
    rw [Option.map_eq_none_iff, List.find?_eq_none]
    intro entry mem
    have bounds := letters entry mem
    simp only [decide_eq_true_eq]
    omega
  have letter : letterFor [ch] ch.toNat = ord 'u' := by
    rw [letterFor, noLetter]
    exact ite_self _
  have trailer : trailerFor [ch] ch.toNat = ord 'u' := by
    rw [trailerFor, (csiNumberForName_single ch).1]
    exact letter
  have number : writtenNumber [ch] ch.toNat = ch.toNat := by
    rw [writtenNumber, letter, if_neg fun other => other rfl]
  rw [ReadBack, trailer, number, if_neg (by decide), if_neg (by omega)]
  exact keyName_single key _

/-! ### The round trip -/

/-- A string of one character that is neither a control character nor a functional key number. -/
def IsCharacterName (key : Text) : Prop := ∃ ch, key = [ch] ∧ IsCharacterKey ch

/-- An event of a key with a name or of a character key, whose modifiers agree with its booleans. -/
structure NamedEvent (ev : KeyEvent) : Prop where
  key : (∃ name ∈ functionalKeyNames, ev.key = chars name) ∨ IsCharacterName ev.key
  shifted : ev.shiftedKey = [] ∨ IsCharacterName ev.shiftedKey
  alternate : ev.alternateKey = [] ∨ IsCharacterName ev.alternateKey
  text : ∀ ch ∈ ev.text, ch ≤ 0x10FFFF
  mods : ev.mods = modsOfBooleans ev

theorem NamedEvent.key_readBack {ev : KeyEvent} (event : NamedEvent ev) :
    ∃ number, csiNumberForName ev.key = some number ∧ ReadBack ev.key number := by
  rcases event.key with ⟨name, mem, same⟩ | ⟨ch, same, character⟩
  · rw [same]
    exact functionalKey_readBack mem
  · rw [same]
    exact ⟨ch.toNat, (csiNumberForName_single ch).2, characterKey_readBack character⟩

/-- The other keys have numbers behind which they are found again. -/
theorem otherKey_readBack {key : Text} (other : key = [] ∨ IsCharacterName key) :
    ∃ number, csiNumberForName key = some number ∧
      ∀ csiType, keyName csiType number = some key := by
  rcases other with rfl | ⟨ch, rfl, character⟩
  · exact ⟨0, rfl, fun _ => rfl⟩
  · exact ⟨ch.toNat, (csiNumberForName_single ch).2, keyName_single character⟩

/-- An event comes back when its escape code is decoded. -/
theorem pythonKeyRoundTrip {ev : KeyEvent} (event : NamedEvent ev) :
    (encodeKeyEvent ev).bind decodeEscapeCode = some ev := by
  obtain ⟨number, numbered, readBack⟩ := event.key_readBack
  obtain ⟨shifted, shiftedNumber, shiftedRead⟩ := otherKey_readBack event.shifted
  obtain ⟨alternate, alternateNumber, alternateRead⟩ := otherKey_readBack event.alternate
  have agree := event.mods
  have encoded : encodeKeyEvent ev = some (encodeNumbers ev number shifted alternate) := by
    rw [encodeKeyEvent, numbered, shiftedNumber, alternateNumber]
    rfl
  obtain ⟨second, third⟩ := pythonSections_getD ev number shifted alternate
  obtain ⟨keyNumber, shiftedKey, alternateKey⟩ := keySection_numbers ev number shifted alternate rfl
  obtain ⟨mods, action⟩ := modsSection_numbers agree rfl
  obtain ⟨shift, alt, ctrl, super, hyper, metaKey, capsLock, numLock⟩ := modBit_modsOfBooleans ev
  have nonempty := @pythonSections_nonempty ev number shifted alternate fun filled none_ =>
    filled (List.map_eq_nil_iff.1 none_)
  have key : (if trailerFor ev.key number ∈ chars "ABCDEHFPQRS" then
        letterTrailerToCsiNumber.lookup (trailerFor ev.key number)
      else (fieldNumbers 0 (keySection ev number shifted alternate)).head?).bind
        (keyName (trailerFor ev.key number)) = some ev.key := by
    unfold ReadBack at readBack
    by_cases letter : trailerFor ev.key number ∈ chars "ABCDEHFPQRS"
    · rw [if_pos letter] at readBack ⊢
      exact readBack
    · rw [if_neg letter] at readBack ⊢
      by_cases one : writtenNumber ev.key number = 1
      · rw [if_pos one] at readBack
        cases readBack
      · rw [if_neg one] at readBack
        have written : NumberIsWritten ev number shifted alternate := Or.inl one
        rw [keyNumber, if_pos written]
        exact readBack
  have first : (pythonSections ev number shifted alternate).getD 0 [] =
      keySection ev number shifted alternate := rfl
  have some_ : pythonSections ev number shifted alternate ≠ [] := List.cons_ne_nil _ _
  rw [encoded, Option.bind_some, encodeNumbers_eq agree, decodeEscapeCode_eq,
    decodeKeyEvent_csiText some_ nonempty, first, second, third]
  obtain ⟨keynum, found, named⟩ := Option.bind_eq_some_iff.1 key
  unfold eventOfSections
  simp only [Option.bind_eq_bind, Option.bind_some, shiftedKey, shiftedRead, alternateKey,
    alternateRead, mods, action, eventType_actionNumber, mapM_chr_runeFields event.text]
  rw [agree, shift, alt, ctrl, super, hyper, metaKey, capsLock, numLock, ← agree]
  -- a letter trailer gives the number of the key itself
  by_cases letter : trailerFor ev.key number ∈ chars "ABCDEHFPQRS"
  · rw [if_pos letter] at found ⊢
    rw [found, Option.bind_some, named, Option.bind_some]
  · rw [if_neg letter] at found ⊢
    rw [found, Option.bind_some, named, Option.bind_some]

/-- The release of F3 with control and num lock, with both other keys and a text. -/
def releasedF3 : KeyEvent :=
  { type := .RELEASE, mods := 132, key := chars "F3", text := chars "moose"
    shiftedKey := chars "X", alternateKey := chars "Y"
    shift := false, alt := false, ctrl := true, super := false, hyper := false, metaKey := false
    capsLock := false, numLock := true }

theorem pythonKeyRoundTrip_f3 :
    encodeKeyEvent releasedF3 = some (chars "\x1b[13:88:89;133:3;109:111:111:115:101~") ∧
      (encodeKeyEvent releasedF3).bind decodeEscapeCode = some releasedF3 := by
  refine ⟨by decide +kernel, pythonKeyRoundTrip ⟨?_, ?_, ?_, ?_, rfl⟩⟩
  · exact Or.inl ⟨"F3", by decide, rfl⟩
  · exact Or.inr ⟨ord 'X', rfl, ⟨by decide, by decide, by decide⟩⟩
  · exact Or.inr ⟨ord 'Y', rfl, ⟨by decide, by decide, by decide⟩⟩
  · exact forall_mem_chars (by decide)

end PythonKeys

end Smelly
