/-
Module: Smelly.Core.KeyEncoding
Purpose: How the terminal turns a key event into the bytes sent to the child: the legacy encodings,
  and the escape code of the keyboard protocol with its fields for the key, the modifiers, the
  action and the text.
Trusted boundary: human-reviewed model of smelly/key_encoding.c, from `convert_glfw_mods` to
  `encode_key`
-/
import Smelly.Core.Sgr

namespace Smelly

/-! ### Key events -/

namespace ModifierMask

abbrev SHIFT : UInt32 := 1
abbrev ALT : UInt32 := 2
abbrev CTRL : UInt32 := 4
abbrev SUPER : UInt32 := 8
abbrev HYPER : UInt32 := 16
abbrev META : UInt32 := 32
abbrev CAPS_LOCK : UInt32 := 64
abbrev NUM_LOCK : UInt32 := 128

end ModifierMask

open ModifierMask

/-- `mods` of an event; `value` and `encoded` are what `convert_glfw_mods` makes of the bits. -/
structure KeyMods where
  shift : Bool := false
  alt : Bool := false
  ctrl : Bool := false
  super : Bool := false
  hyper : Bool := false
  metaKey : Bool := false
  numlock : Bool := false
  capslock : Bool := false
deriving DecidableEq, Repr, Inhabited

/-- `mods.value`. -/
def KeyMods.value (mods : KeyMods) : UInt32 :=
  let value := if mods.shift then SHIFT else 0
  let value := if mods.alt then value ||| ALT else value
  let value := if mods.ctrl then value ||| CTRL else value
  let value := if mods.super then value ||| SUPER else value
  let value := if mods.hyper then value ||| HYPER else value
  let value := if mods.metaKey then value ||| META else value
  let value := if mods.capslock then value ||| CAPS_LOCK else value
  if mods.numlock then value ||| NUM_LOCK else value

/-- `mods.encoded`. -/
def KeyMods.encoded (mods : KeyMods) : Text := decimalText (mods.value + 1).toNat

inductive KeyAction where
  | press
  | repeat
  | release
deriving DecidableEq, Repr

/-- The number of an action. -/
def KeyAction.toNat : KeyAction → Nat
  | press => 0
  | .repeat => 1
  | release => 2

/-- `KeyEvent`; the text is a string without its terminating zero, `none` the null pointer. -/
structure KeyEvent where
  key : UInt32
  shiftedKey : UInt32 := 0
  alternateKey : UInt32 := 0
  mods : KeyMods := {}
  action : KeyAction := .press
  cursorKeyMode : Bool := false
  disambiguate : Bool := false
  reportAllEventTypes : Bool := false
  reportAlternateKey : Bool := false
  reportText : Bool := false
  embedText : Bool := false
  text : Option Bytes := none
deriving DecidableEq, Repr

/-- `EncodingData`. -/
structure EncodingData where
  key : UInt32
  shiftedKey : UInt32
  alternateKey : UInt32
  addAlternates : Bool
  hasMods : Bool
  addActions : Bool
  addText : Bool
  encodedMods : Text
  text : Option Bytes
  action : KeyAction
deriving DecidableEq, Repr

/-- `init_encoding_data`. -/
def initEncodingData (ev : KeyEvent) : EncodingData :=
  let addAlternates : Bool := ev.reportAlternateKey &&
    ((ev.shiftedKey > 0 && ev.mods.shift) || ev.alternateKey > 0)
  { key := ev.key
    shiftedKey := if addAlternates && ev.mods.shift then ev.shiftedKey else 0
    alternateKey := if addAlternates then ev.alternateKey else 0
    addAlternates := addAlternates
    hasMods := ev.mods.encoded ≠ [] ∧ ev.mods.encoded ≠ chars "1"
    addActions := ev.reportAllEventTypes && ev.action ≠ .press
    addText := ev.embedText && (match ev.text with | some (_ :: _) => true | _ => false)
    encodedMods := ev.mods.encoded
    text := ev.text
    action := ev.action }

/-! ### The escape code -/

/-- `KEY_BUFFER_SIZE`. -/
def KEY_BUFFER_SIZE : Nat := 128

/-- `P`: a text that does not fit is cut and moves `pos` behind what was written. -/
def printKey (output text : Text) : Option Text :=
  if text.length < KEY_BUFFER_SIZE - 2 - output.length then some (output ++ text) else none

/-- A `P` under a condition. -/
def printKeyIf (cond : Bool) (output text : Text) : Option Text :=
  if cond then printKey output text else some output

/-- The loop of `serialize` over the bytes of the text.  The decoder starts afresh at every
byte. -/
def serializeText (output : Text) (codep : UInt32) (first : Bool) : Bytes → Option Text
  | [] => some output
  | byte :: rest =>
    let (state, codep) := decodeUtf8 utf8Accept codep byte
    if state = utf8Accept then
      match printKey output (chars (if first then ";" else ":") ++ decimalText codep.toNat) with
      | some output => serializeText output codep false rest
      | none => none
    else serializeText output codep first rest

/-- `serialize`: the bytes of `output`, or `none` where they do not fit. -/
def serialize (data : EncodingData) (csiTrailer : Char) : Option Text := do
  let secondFieldNotEmpty := data.hasMods || data.addActions
  let thirdFieldNotEmpty := data.addText
  let output ← printKey [] (chars "\x1b[")
  let output ← printKeyIf
    (data.key ≠ 1 || data.addAlternates || secondFieldNotEmpty || thirdFieldNotEmpty) output
    (decimalText data.key.toNat)
  let output ← printKeyIf data.addAlternates output (chars ":")
  let output ← printKeyIf (data.addAlternates && data.shiftedKey ≠ 0) output
    (decimalText data.shiftedKey.toNat)
  let output ← printKeyIf (data.addAlternates && data.alternateKey ≠ 0) output
    (chars ":" ++ decimalText data.alternateKey.toNat)
  let output ← printKeyIf (secondFieldNotEmpty || thirdFieldNotEmpty) output (chars ";")
  let output ← printKeyIf secondFieldNotEmpty output data.encodedMods
  let output ← printKeyIf data.addActions output
    (chars ":" ++ decimalText (data.action.toNat + 1))
  let output ←
    (if thirdFieldNotEmpty then serializeText output 0 true (data.text.getD []) else some output)
  some (output ++ [ord csiTrailer])

/-! ### Functional keys -/

abbrev GLFW_FKEY_FIRST : UInt32 := 0xe000
abbrev GLFW_FKEY_ESCAPE : UInt32 := 0xe000
abbrev GLFW_FKEY_ENTER : UInt32 := 0xe001
abbrev GLFW_FKEY_TAB : UInt32 := 0xe002
abbrev GLFW_FKEY_BACKSPACE : UInt32 := 0xe003
abbrev GLFW_FKEY_INSERT : UInt32 := 0xe004
abbrev GLFW_FKEY_DELETE : UInt32 := 0xe005
abbrev GLFW_FKEY_LEFT : UInt32 := 0xe006
abbrev GLFW_FKEY_RIGHT : UInt32 := 0xe007
abbrev GLFW_FKEY_UP : UInt32 := 0xe008
abbrev GLFW_FKEY_DOWN : UInt32 := 0xe009
abbrev GLFW_FKEY_PAGE_UP : UInt32 := 0xe00a
abbrev GLFW_FKEY_PAGE_DOWN : UInt32 := 0xe00b
abbrev GLFW_FKEY_HOME : UInt32 := 0xe00c
abbrev GLFW_FKEY_END : UInt32 := 0xe00d
abbrev GLFW_FKEY_MENU : UInt32 := 0xe013
abbrev GLFW_FKEY_F1 : UInt32 := 0xe014
abbrev GLFW_FKEY_F2 : UInt32 := 0xe015
abbrev GLFW_FKEY_F3 : UInt32 := 0xe016
abbrev GLFW_FKEY_F4 : UInt32 := 0xe017
abbrev GLFW_FKEY_F5 : UInt32 := 0xe018
abbrev GLFW_FKEY_F6 : UInt32 := 0xe019
abbrev GLFW_FKEY_F7 : UInt32 := 0xe01a
abbrev GLFW_FKEY_F8 : UInt32 := 0xe01b
abbrev GLFW_FKEY_F9 : UInt32 := 0xe01c
abbrev GLFW_FKEY_F10 : UInt32 := 0xe01d
abbrev GLFW_FKEY_F11 : UInt32 := 0xe01e
abbrev GLFW_FKEY_F12 : UInt32 := 0xe01f
abbrev GLFW_FKEY_KP_BEGIN : UInt32 := 0xe053
abbrev GLFW_FKEY_LAST : UInt32 := 0xe06e

/-- `legacy_functional_key_encoding_with_modifiers`: `none` for -1. -/
def legacyFunctionalKeyEncodingWithModifiers (keyNumber : UInt32) (mods : UInt32) : Option Text :=
  let pre := if mods &&& ALT ≠ 0 then chars "\x1b" else []
  if keyNumber = GLFW_FKEY_ENTER then some (pre ++ chars "\x0d")
  else if keyNumber = GLFW_FKEY_ESCAPE then some (pre ++ chars "\x1b")
  else if keyNumber = GLFW_FKEY_BACKSPACE then
    some (pre ++ if mods &&& CTRL ≠ 0 then chars "\x08" else chars "\x7f")
  else if keyNumber = GLFW_FKEY_TAB then
    if mods &&& SHIFT ≠ 0 then
      some ((if mods &&& ALT ≠ 0 then chars "\x1b\x1b" else chars "\x1b") ++ chars "[Z")
    else some (pre ++ chars "\t")
  else none

/-- The keys with an SS3 code in cursor key mode. -/
def cursorModeLetters : List (UInt32 × Char) :=
  [(GLFW_FKEY_UP, 'A'), (GLFW_FKEY_DOWN, 'B'), (GLFW_FKEY_RIGHT, 'C'), (GLFW_FKEY_LEFT, 'D'),
    (GLFW_FKEY_KP_BEGIN, 'E'), (GLFW_FKEY_END, 'F'), (GLFW_FKEY_HOME, 'H')]

/-- The keys with an SS3 code in legacy mode. -/
def legacyModeLetters : List (UInt32 × Char) :=
  [(GLFW_FKEY_F1, 'P'), (GLFW_FKEY_F2, 'Q'), (GLFW_FKEY_F3, 'R'), (GLFW_FKEY_F4, 'S')]

/-- The keys sent as one character while text is not reported. -/
def plainCharacters : List (UInt32 × Char) :=
  [(GLFW_FKEY_ENTER, '\r'), (GLFW_FKEY_BACKSPACE, '\x7f'), (GLFW_FKEY_TAB, '\t')]

/-- The special numbers and trailers. -/
def specialNumbers : List (UInt32 × UInt32 × Char) :=
  [(GLFW_FKEY_ESCAPE, 27, 'u'), (GLFW_FKEY_ENTER, 13, 'u'), (GLFW_FKEY_TAB, 9, 'u'),
    (GLFW_FKEY_BACKSPACE, 127, 'u'), (GLFW_FKEY_INSERT, 2, '~'), (GLFW_FKEY_DELETE, 3, '~'),
    (GLFW_FKEY_LEFT, 1, 'D'), (GLFW_FKEY_RIGHT, 1, 'C'), (GLFW_FKEY_UP, 1, 'A'),
    (GLFW_FKEY_DOWN, 1, 'B'), (GLFW_FKEY_PAGE_UP, 5, '~'), (GLFW_FKEY_PAGE_DOWN, 6, '~'),
    (GLFW_FKEY_HOME, 1, 'H'), (GLFW_FKEY_END, 1, 'F'), (GLFW_FKEY_F1, 1, 'P'),
    (GLFW_FKEY_F2, 1, 'Q'), (GLFW_FKEY_F3, 13, '~'), (GLFW_FKEY_F4, 1, 'S'),
    (GLFW_FKEY_F5, 15, '~'), (GLFW_FKEY_F6, 17, '~'), (GLFW_FKEY_F7, 18, '~'),
    (GLFW_FKEY_F8, 19, '~'), (GLFW_FKEY_F9, 20, '~'), (GLFW_FKEY_F10, 21, '~'),
    (GLFW_FKEY_F11, 23, '~'), (GLFW_FKEY_F12, 24, '~'), (GLFW_FKEY_KP_BEGIN, 1, 'E')]

/-- The last part of `encode_function_key`: the escape code with the number and trailer of the
key. -/
def serializeFunctionKey (ev : KeyEvent) (legacyMode : Bool) : Option Text :=
  let (keyNumber, csiTrailer) :=
    match specialNumbers.lookup ev.key with
    | some special => special
    -- the encoding of xterm for this key in legacy mode (F16)
    | none => if ev.key = GLFW_FKEY_MENU ∧ legacyMode then (29, '~') else (ev.key, 'u')
  serialize { initEncodingData ev with key := keyNumber, addAlternates := false } csiTrailer

/-- `encode_function_key`. -/
def encodeFunctionKey (ev : KeyEvent) : Option Text :=
  let legacyMode := !ev.reportAllEventTypes && !ev.disambiguate
  let ss3 (letters : List (UInt32 × Char)) : Option Text :=
    (letters.lookup ev.key).map fun letter => chars "\x1bO" ++ [ord letter]
  let simple : Option Text :=
    if ev.mods.value = 0 then
      (if ev.cursorKeyMode && legacyMode then ss3 cursorModeLetters else none).or <|
      (if !ev.disambiguate && !ev.reportText && ev.key = GLFW_FKEY_ESCAPE then some (chars "\x1b")
        else none).or <|
      (if legacyMode then ss3 legacyModeLetters else none).or <|
      if !ev.reportText then (plainCharacters.lookup ev.key).map fun ch => [ord ch] else none
    else if legacyMode then legacyFunctionalKeyEncodingWithModifiers ev.key ev.mods.value
    else none
  match simple with
  | some output => some output
  | none => serializeFunctionKey ev legacyMode

/-! ### Character keys -/

/-- The mapping of the characters that `ctrl` changes. -/
def ctrlMapping : List (Char × UInt8) :=
  [(' ', 0), ('/', 31), ('0', 48), ('1', 49), ('2', 0), ('3', 27), ('4', 28), ('5', 29),
    ('6', 30), ('7', 31), ('8', 127), ('9', 57), ('?', 127), ('@', 0), ('[', 27), ('\\', 28),
    (']', 29), ('^', 30), ('_', 31), ('a', 1), ('b', 2), ('c', 3), ('d', 4), ('e', 5), ('f', 6),
    ('g', 7), ('h', 8), ('i', 9), ('j', 10), ('k', 11), ('l', 12), ('m', 13), ('n', 14),
    ('o', 15), ('p', 16), ('q', 17), ('r', 18), ('s', 19), ('t', 20), ('u', 21), ('v', 22),
    ('w', 23), ('x', 24), ('y', 25), ('z', 26), ('~', 30)]

/-- `ctrled_key`. -/
def ctrledKey (key : UInt8) : UInt8 :=
  match ctrlMapping.find? fun entry => (ord entry.1).toUInt8 = key with
  | some entry => entry.2
  | none => key

/-- The key of `encode_printable_ascii_key_legacy` and its modifiers, once shift is used up. -/
def shiftedAsciiKey (ev : KeyEvent) : UInt8 × UInt32 :=
  let mods := ev.mods.value
  let key := ev.key.toUInt8
  let shifted := ev.shiftedKey.toUInt8
  if mods &&& SHIFT ≠ 0 ∧ shifted ≠ 0 ∧ shifted ≠ key ∧
      (mods &&& CTRL = 0 ∨ key < (ord 'a').toUInt8 ∨ (ord 'z').toUInt8 < key) then
    (shifted, mods &&& ~~~SHIFT)
  else (key, mods)

/-- `encode_printable_ascii_key_legacy`. -/
def encodePrintableAsciiKeyLegacy (ev : KeyEvent) : Text :=
  if ev.mods.value = 0 then [ev.key.toUInt8.toUInt32]
  else
    let (key, mods) := shiftedAsciiKey ev
    if ev.mods.value = SHIFT then [key.toUInt32]
    else if mods = ALT then chars "\x1b" ++ [key.toUInt32]
    else if mods = CTRL then [(ctrledKey key).toUInt32]
    else if mods = CTRL ||| ALT then chars "\x1b" ++ [(ctrledKey key).toUInt32]
    else if key = (ord ' ').toUInt8 ∧ mods = CTRL ||| SHIFT then [(ctrledKey key).toUInt32]
    else if key = (ord ' ').toUInt8 ∧ mods = ALT ||| SHIFT then chars "\x1b" ++ [key.toUInt32]
    else []

/-- `is_legacy_ascii_key`. -/
def isLegacyAsciiKey (key : UInt32) : Bool :=
  (ord 'a' ≤ key ∧ key ≤ ord 'z') ∨ (ord '0' ≤ key ∧ key ≤ ord '9') ∨
    key ∈ chars "!@#$%^&*()`~-_=+[\x7b]\x7d\\|;:'\",<.>/? "

/-- The legacy part of `encode_key`: empty where no legacy encoding is found. -/
def encodeKeyLegacy (ev : KeyEvent) : Text :=
  let direct :=
    if isLegacyAsciiKey ev.key ∨ (ev.shiftedKey ≠ 0 ∧ isLegacyAsciiKey ev.shiftedKey) then
      encodePrintableAsciiKeyLegacy ev
    else []
  if direct ≠ [] then direct
  else
    let mods := ev.mods.value
    if (mods = CTRL ∨ mods = ALT ∨ mods = CTRL ||| ALT) ∧ ev.alternateKey ≠ 0 ∧
        ¬ isLegacyAsciiKey ev.key ∧ isLegacyAsciiKey ev.alternateKey then
      encodePrintableAsciiKeyLegacy
        { ev with key := ev.alternateKey, alternateKey := 0, shiftedKey := 0 }
    else []

/-- `encode_key`: the bytes for the child, none at all where the event is not reported. -/
def encodeKey (ev : KeyEvent) : Option Text :=
  if !ev.reportAllEventTypes && ev.action = .release then some []
  else if GLFW_FKEY_FIRST ≤ ev.key ∧ ev.key ≤ GLFW_FKEY_LAST then encodeFunctionKey ev
  else
    let ed := initEncodingData ev
    let simpleEncodingOk := !ed.addActions && !ed.addAlternates && !ed.addText
    if simpleEncodingOk && !ed.hasMods then
      if ev.reportText then serialize ed 'u'
      else some ((encodeUtf8 ev.key).map UInt8.toUInt32)
    else if simpleEncodingOk && !ev.disambiguate && !ev.reportText && encodeKeyLegacy ev ≠ [] then
      some (encodeKeyLegacy ev)
    else serialize ed 'u'

end Smelly
