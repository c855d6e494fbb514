/-
Module: Smelly.Core.KeyDecoding
Purpose: The two decoders of the keyboard protocol: the one in Python for kittens, the one in Go for
  the command line tools, with the tables of key names they share.
Trusted boundary: human-reviewed model of decode_key_event (smelly/key_encoding.py) and of
  KeyEventFromCSI (tools/tui/loop/key-encoding.go), and of what `int`, `chr`, `strconv.Atoi` and the
  conversion of a rune to a string do on the input of these two functions
-/
import Smelly.Core.KeyEncoding

namespace Smelly

/-! ### Tables

Both files hold the same generated tables. -/

/-- The names of `functional_key_number_to_name_map`, of the numbers from 57344 on. -/
def functionalKeyNames : List String :=
  ["ESCAPE", "ENTER", "TAB", "BACKSPACE", "INSERT", "DELETE", "LEFT", "RIGHT", "UP", "DOWN",
    "PAGE_UP", "PAGE_DOWN", "HOME", "END", "CAPS_LOCK", "SCROLL_LOCK", "NUM_LOCK", "PRINT_SCREEN",
    "PAUSE", "MENU", "F1", "F2", "F3", "F4", "F5", "F6", "F7", "F8", "F9", "F10", "F11", "F12",
    "F13", "F14", "F15", "F16", "F17", "F18", "F19", "F20", "F21", "F22", "F23", "F24", "F25",
    "F26", "F27", "F28", "F29", "F30", "F31", "F32", "F33", "F34", "F35", "KP_0", "KP_1", "KP_2",
    "KP_3", "KP_4", "KP_5", "KP_6", "KP_7", "KP_8", "KP_9", "KP_DECIMAL", "KP_DIVIDE",
    "KP_MULTIPLY", "KP_SUBTRACT", "KP_ADD", "KP_ENTER", "KP_EQUAL", "KP_SEPARATOR", "KP_LEFT",
    "KP_RIGHT", "KP_UP", "KP_DOWN", "KP_PAGE_UP", "KP_PAGE_DOWN", "KP_HOME", "KP_END",
    "KP_INSERT", "KP_DELETE", "KP_BEGIN", "MEDIA_PLAY", "MEDIA_PAUSE", "MEDIA_PLAY_PAUSE",
    "MEDIA_REVERSE", "MEDIA_STOP", "MEDIA_FAST_FORWARD", "MEDIA_REWIND", "MEDIA_TRACK_NEXT",
    "MEDIA_TRACK_PREVIOUS", "MEDIA_RECORD", "LOWER_VOLUME", "RAISE_VOLUME", "MUTE_VOLUME",
    "LEFT_SHIFT", "LEFT_CONTROL", "LEFT_ALT", "LEFT_SUPER", "LEFT_HYPER", "LEFT_META",
    "RIGHT_SHIFT", "RIGHT_CONTROL", "RIGHT_ALT", "RIGHT_SUPER", "RIGHT_HYPER", "RIGHT_META",
    "ISO_LEVEL3_SHIFT", "ISO_LEVEL5_SHIFT"]

/-- `functional_key_number_to_name_map`. -/
def functionalKeyName (num : Int) : Option String :=
  if num < 57344 then none else functionalKeyNames[(num - 57344).toNat]?

/-- `csi_number_to_functional_number_map`. -/
def csiNumberToFunctionalNumber : List (Int × Int) :=
  [(2, 57348), (3, 57349), (5, 57354), (6, 57355), (7, 57356), (8, 57357), (9, 57346),
    (11, 57364), (12, 57365), (13, 57345), (14, 57367), (15, 57368), (17, 57369), (18, 57370),
    (19, 57371), (20, 57372), (21, 57373), (23, 57374), (24, 57375), (27, 57344), (127, 57347)]

/-- `letter_trailer_to_csi_number_map`. -/
def letterTrailerToCsiNumber : List (UInt32 × Int) :=
  [(ord 'A', 57352), (ord 'B', 57353), (ord 'C', 57351), (ord 'D', 57350), (ord 'E', 57427),
    (ord 'F', 8), (ord 'H', 7), (ord 'P', 11), (ord 'Q', 12), (ord 'S', 14)]

/-- The end of `key_name`, in both languages, for numbers other than 0 and 13; `character` is what
a number without a name stands for. -/
def mappedKeyName (num : Int) (character : Int → Option Text) : Option Text :=
  let num := (csiNumberToFunctionalNumber.lookup num).getD num
  match functionalKeyName num with
  | some name => some (chars name)
  | none => character num

/-! ### Python -/

namespace PythonKeys

/-- `EventType`. -/
inductive EventType where
  | PRESS
  | REPEAT
  | RELEASE
deriving DecidableEq, Repr

/-- `KeyEvent`; a string is the list of its code points, surrogates included. -/
structure KeyEvent where
  type : EventType
  mods : Int
  key : Text
  text : Text
  shiftedKey : Text
  alternateKey : Text
  shift : Bool
  alt : Bool
  ctrl : Bool
  super : Bool
  hyper : Bool
  metaKey : Bool
  capsLock : Bool
  numLock : Bool
deriving DecidableEq, Repr

/-- The ASCII characters that `int` strips. -/
def isSpace (ch : UInt32) : Bool := ch = 32 ∨ (9 ≤ ch ∧ ch ≤ 13) ∨ (28 ≤ ch ∧ ch ≤ 31)

/-- The digits of an `int`, which single underscores may group. -/
def unsignedInt (y : Text) : Option Int :=
  let groups := y.splitOn (ord '_')
  if groups.all fun group => group ≠ [] ∧ group.all isDigit then some (decimal groups.flatten)
  else none

/-- `int` of an ASCII string; `none` is the `ValueError`. -/
def int (y : Text) : Option Int :=
  let y := ((y.dropWhile isSpace).reverse.dropWhile isSpace).reverse
  if y.head? = some (ord '-') then (unsignedInt y.tail).map fun n => -n
  else if y.head? = some (ord '+') then unsignedInt y.tail
  else unsignedInt y

/-- `chr`; `none` is the `ValueError`. -/
def chr (num : Int) : Option UInt32 :=
  if 0 ≤ num ∧ num ≤ 0x10FFFF then some (UInt32.ofNat num.toNat) else none

/-- `get_sub_sections`. -/
def getSubSections (x : Text) (missing : Int) : Option (List Int) :=
  (x.splitOn (ord ':')).mapM fun y => if y ≠ [] then int y else some missing

/-- `key_name`. -/
def keyName (csiType : UInt32) (num : Int) : Option Text :=
  if num = 0 then some []
  else if num = 13 then some (chars (if csiType = ord 'u' then "ENTER" else "F3"))
  else mappedKeyName num fun num => (chr num).map fun ch => [ch]

/-- The dictionary of the actions. -/
def eventType (action : Int) : Option EventType :=
  if action = 1 then some .PRESS
  else if action = 2 then some .REPEAT
  else if action = 3 then some .RELEASE
  else none

/-- `bool(mods & bit)` for the modifier `2 ^ bit`. -/
def modBit (mods : Int) (bit : Nat) : Bool := mods.emod (2 ^ (bit + 1)) ≥ 2 ^ bit

/-- The event that `decode_key_event` makes of the three sections. -/
def eventOfSections (csiType : UInt32) (first second third : List Int) : Option KeyEvent := do
  let mods := if second ≠ [] then second.headD 0 - 1 else 0
  let action := if second.length > 1 then second.getD 1 0 else 1
  let keynum ←
    if csiType ∈ chars "ABCDEHFPQRS" then letterTrailerToCsiNumber.lookup csiType
    else first.head?
  let key ← keyName csiType keynum
  let shiftedKey ← keyName csiType (if first.length > 1 then first.getD 1 0 else 0)
  let alternateKey ← keyName csiType (if first.length > 2 then first.getD 2 0 else 0)
  let type ← eventType action
  let text ← third.mapM chr
  some
    { type, mods, key, text, shiftedKey, alternateKey
      shift := modBit mods 0
      alt := modBit mods 1
      ctrl := modBit mods 2
      super := modBit mods 3
      hyper := modBit mods 4
      metaKey := modBit mods 5
      capsLock := modBit mods 6
      numLock := modBit mods 7 }

/-- `decode_key_event`; `none` where it raises. -/
def decodeKeyEvent (csi : Text) (csiType : UInt32) : Option KeyEvent := do
  let parts := csi.splitOn (ord ';')
  let first ← getSubSections (parts.getD 0 []) 0
  let second ← if parts.length > 1 then getSubSections (parts.getD 1 []) 1 else some []
  let third ← if parts.length > 2 then getSubSections (parts.getD 2 []) 0 else some []
  eventOfSections csiType first second third

end PythonKeys

/-! ### Go -/

namespace GoKeys

/-- `KeyEventType`. -/
inductive KeyEventType where
  | PRESS
  | REPEAT
  | RELEASE
deriving DecidableEq, Repr

/-- `KeyEvent`; a string is the list of its runes. -/
structure KeyEvent where
  type : KeyEventType := .PRESS
  mods : UInt16 := 0
  key : Text := []
  shiftedKey : Text := []
  alternateKey : Text := []
  text : Text := []
  handled : Bool := false
deriving DecidableEq, Repr

/-- The digits of an `int`, in the range of 64 bits. -/
def atoiDigits (negative : Bool) (digits : Text) : Option Int :=
  if digits = [] ∨ ¬ digits.all isDigit then none
  else
    let n := decimal digits
    if negative then if n ≤ 2 ^ 63 then some (-n) else none
    else if n < 2 ^ 63 then some n else none

/-- `strconv.Atoi`; `none` is the error. -/
def atoi (s : Text) : Option Int :=
  if s.head? = some (ord '-') then atoiDigits true s.tail
  else if s.head? = some (ord '+') then atoiDigits false s.tail
  else atoiDigits false s

/-- `string(rune(n))`: a number that is no scalar value becomes the replacement character. -/
def rune (n : Int) : UInt32 :=
  let n := n.bmod (2 ^ 32)
  if 0 ≤ n ∧ n ≤ 0x10FFFF ∧ ¬ (0xD800 ≤ n ∧ n ≤ 0xDFFF) then UInt32.ofNat n.toNat else 0xFFFD

/-- `get_sub_sections`: an empty slice where a number cannot be read. -/
def getSubSections (section_ : Text) : List Int :=
  ((section_.splitOn (ord ':')).mapM atoi).getD []

/-- `key_name`. -/
def keyName (lastChar : UInt32) (keynum : Int) : Text :=
  if keynum = 0 then []
  else if keynum = 13 then chars (if lastChar = ord 'u' then "ENTER" else "F3")
  else (mappedKeyName keynum fun keynum => some [rune keynum]).getD []

/-- The event that `KeyEventFromCSI` makes of the three sections. -/
def eventOfSections (lastChar : UInt32) (first second third : List Int) : Option KeyEvent := do
  let keynum ← (letterTrailerToCsiNumber.lookup lastChar).or first.head?
  some
    { key := keyName lastChar keynum
      shiftedKey := if first.length > 1 then keyName lastChar (first.getD 1 0) else []
      alternateKey := if first.length > 2 then keyName lastChar (first.getD 2 0) else []
      mods := if second.length > 0 then UInt16.ofInt (second.headD 0 - 1) else 0
      type :=
        if second.length > 1 then
          if second.getD 1 0 = 2 then .REPEAT
          else if second.getD 1 0 = 3 then .RELEASE
          else .PRESS
        else .PRESS
      text := third.map rune }

/-- `KeyEventFromCSI`; `none` is the nil pointer. -/
def keyEventFromCSI (csi : Text) : Option KeyEvent := do
  let lastChar ← csi.getLast?
  if lastChar ∉ chars "u~ABCDEHFPQRS" ∨ csi = chars "200~" ∨ csi = chars "201~" then none
  else
    let sections := csi.dropLast.splitOn (ord ';')
    let first := getSubSections (sections.getD 0 [])
    let second := if sections.length > 1 then getSubSections (sections.getD 1 []) else []
    let third := if sections.length > 2 then getSubSections (sections.getD 2 []) else []
    eventOfSections lastChar first second third

end GoKeys

end Smelly
