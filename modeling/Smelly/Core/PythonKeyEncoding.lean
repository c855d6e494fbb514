/-
Module: Smelly.Core.PythonKeyEncoding
Purpose: How the kittens turn a key event back into an escape code.
Trusted boundary: human-reviewed model of `encode_key_event` and `csi_number_for_name` in
  smelly/key_encoding.py; its generated tables are those of the Go file, and a map that reverses a
  table looks the value up in it, since the values are distinct.  `none` is an exception
-/
import Smelly.Core.KeyEventCsi

namespace Smelly

namespace PythonKeys

/-- `ord`, for a string; `none` is the `TypeError` for a string that is no single character. -/
def ordOfText : Text → Option Nat
  | [ch] => some ch.toNat
  | _ => none

/-- `csi_number_for_name`. -/
def csiNumberForName (keyName : Text) : Option Nat :=
  if keyName = [] then some 0
  else if keyName = chars "F3" ∨ keyName = chars "ENTER" then some 13
  else match GoKeys.nameToFunctionalNumber keyName with
    | none => ordOfText keyName
    | some fn => some ((GoKeys.functionalToCsiNumber fn).getD fn)

/-- The modifiers as `encode_key_event` puts them together from the booleans. -/
def modsOfBooleans (keyEvent : KeyEvent) : Nat :=
  let m := 0
  let m := if keyEvent.shift then m ||| 1 else m
  let m := if keyEvent.alt then m ||| 2 else m
  let m := if keyEvent.ctrl then m ||| 4 else m
  let m := if keyEvent.super then m ||| 8 else m
  let m := if keyEvent.hyper then m ||| 16 else m
  let m := if keyEvent.metaKey then m ||| 32 else m
  let m := if keyEvent.capsLock then m ||| 64 else m
  if keyEvent.numLock then m ||| 128 else m

/-- `encode_key_event`, behind the numbers of the keys. -/
def encodeNumbers (keyEvent : KeyEvent) (key shiftedKey alternateKey : Nat) : Text :=
  let trailer :=
    if keyEvent.key = chars "ENTER" then ord 'u'
    else (GoKeys.csiNumberToLetterTrailer key).getD (ord 'u')
  let key := if trailer ≠ ord 'u' then 1 else key
  let mods := keyEvent.mods
  let text := keyEvent.text
  let ans := chars "\x1b["
  let ans :=
    if key ≠ 1 ∨ mods ≠ 0 ∨ shiftedKey ≠ 0 ∨ alternateKey ≠ 0 ∨ text ≠ [] then
      ans ++ decimalText key
    else ans
  let ans :=
    if shiftedKey ≠ 0 ∨ alternateKey ≠ 0 then
      let ans := ans ++ chars ":"
      let ans := if shiftedKey ≠ 0 then ans ++ decimalText shiftedKey else ans
      if alternateKey ≠ 0 then ans ++ chars ":" ++ decimalText alternateKey else ans
    else ans
  let action := match keyEvent.type with
    | .PRESS => 1
    | .REPEAT => 2
    | .RELEASE => 3
  let ans :=
    if mods ≠ 0 ∨ action > 1 ∨ text ≠ [] then
      let m := modsOfBooleans keyEvent
      if action > 1 ∨ m ≠ 0 then
        let ans := ans ++ chars ";" ++ decimalText (m + 1)
        if action > 1 then ans ++ chars ":" ++ decimalText action else ans
      else if text ≠ [] then ans ++ chars ";"
      else ans
    else ans
  let ans :=
    if text ≠ [] then
      ans ++ chars ";" ++ (chars ":").intercalate (text.map fun ch => decimalText ch.toNat)
    else ans
  let trailer := match GoKeys.nameToFunctionalNumber keyEvent.key with
    | some fn => if fn ∈ GoKeys.tildeTrailers then ord '~' else trailer
    | none => trailer
  ans ++ [trailer]

/-- `encode_key_event`. -/
def encodeKeyEvent (keyEvent : KeyEvent) : Option Text := do
  let key ← csiNumberForName keyEvent.key
  let shiftedKey ← csiNumberForName keyEvent.shiftedKey
  let alternateKey ← csiNumberForName keyEvent.alternateKey
  some (encodeNumbers keyEvent key shiftedKey alternateKey)

/-- What the caller passes on of an escape code: the part between `ESC [` and the last character, and
that character. -/
def decodeEscapeCode (code : Text) : Option KeyEvent := do
  let csiType ← code.getLast?
  decodeKeyEvent (code.drop 2).dropLast csiType

end PythonKeys

end Smelly
