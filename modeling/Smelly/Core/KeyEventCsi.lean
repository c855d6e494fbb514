/-
Module: Smelly.Core.KeyEventCsi
Purpose: How the command line tools turn a key event back into an escape code: the numbers of key
  names, the letters and tildes that end the code of a functional key, and the fields.
Trusted boundary: human-reviewed model of `AsCSI` and `csi_number_for_name` in
  tools/tui/loop/key-encoding.go; the maps made by `init` look a value up in the table they reverse,
  whose values are distinct
-/
import Smelly.Core.KeyDecoding

namespace Smelly

namespace GoKeys

/-- `name_to_functional_number_map`. -/
def nameToFunctionalNumber (name : Text) : Option Nat :=
  (functionalKeyNames.findIdx? fun other => chars other = name).map (57344 + ·)

/-- `functional_to_csi_number_map`. -/
def functionalToCsiNumber (fn : Nat) : Option Nat :=
  (csiNumberToFunctionalNumber.find? fun entry => entry.2 = (fn : Int)).map
    fun entry => entry.1.toNat

/-- `csi_number_to_letter_trailer_map`. -/
def csiNumberToLetterTrailer (key : Nat) : Option UInt32 :=
  (letterTrailerToCsiNumber.find? fun entry => entry.2 = (key : Int)).map Prod.fst

/-- `tilde_trailers`. -/
def tildeTrailers : List Nat :=
  [57348, 57349, 57354, 57355, 57366, 57368, 57369, 57370, 57371, 57372, 57373, 57374, 57375]

/-- The first byte of a string. -/
def firstByte (s : Text) : UInt8 := (s.flatMap encodeUtf8).headD 0

/-- `csi_number_for_name`. -/
def csiNumberForName (keyName : Text) : Nat :=
  if keyName = [] then 0
  else if keyName = chars "F3" ∨ keyName = chars "ENTER" then 13
  else match nameToFunctionalNumber keyName with
    | none => (firstByte keyName).toNat
    | some fn => (functionalToCsiNumber fn).getD fn

/-- `AsCSI`. -/
def asCSI (self : KeyEvent) : Text :=
  let key := csiNumberForName self.key
  let shiftedKey := csiNumberForName self.shiftedKey
  let alternateKey := csiNumberForName self.alternateKey
  let trailer := (csiNumberToLetterTrailer key).getD (ord 'u')
  let trailer := if self.key = chars "ENTER" then ord 'u' else trailer
  let key := if trailer ≠ ord 'u' then 1 else key
  let ans := chars "\x1b["
  let ans :=
    if key ≠ 1 ∨ self.mods ≠ 0 ∨ shiftedKey ≠ 0 ∨ alternateKey ≠ 0 ∨ self.text ≠ [] then
      ans ++ decimalText key
    else ans
  let ans :=
    if shiftedKey ≠ 0 ∨ alternateKey ≠ 0 then
      let ans := ans ++ chars ":"
      let ans := if shiftedKey ≠ 0 then ans ++ decimalText shiftedKey else ans
      if alternateKey ≠ 0 then ans ++ chars ":" ++ decimalText alternateKey else ans
    else ans
  let action := match self.type with
    | .PRESS => 1
    | .REPEAT => 2
    | .RELEASE => 3
  let ans :=
    if self.mods ≠ 0 ∨ action > 1 ∨ self.text ≠ [] then
      let m := self.mods.toNat
      if action > 1 ∨ m ≠ 0 then
        let ans := ans ++ chars ";" ++ decimalText (m + 1)
        if action > 1 then ans ++ chars ":" ++ decimalText action else ans
      else if self.text ≠ [] then ans ++ chars ";"
      else ans
    else ans
  let ans :=
    if self.text ≠ [] then
      let codes := self.text.map fun r => decimalText r.toNat
      ans ++ chars ";" ++ (chars ":").intercalate codes
    else ans
  let trailer := match nameToFunctionalNumber self.key with
    | some fn => if fn ∈ tildeTrailers then ord '~' else trailer
    | none => trailer
  ans ++ [trailer]

end GoKeys

end Smelly
