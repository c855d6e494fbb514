/-
Module: Smelly.Core.SgrState
Purpose: The rendition that the text wrapper of the command line tools keeps, the SGR parameters
  that it prints for it, and what it takes from the SGR sequences of a text.
Trusted boundary: human-reviewed model of `sgr_color`, `sgr_state` and `apply_csi` of
  tools/utils/style/indent-and-wrap.go and of the underline styles of
  tools/utils/style/wrapper.go; `none` is a panic
-/
import Smelly.Core.KeyDecoding

namespace Smelly

namespace Style

/-! ### State -/

/-- `RGBA`, without the transparency, which SGR sequences do not have. -/
structure RGBA where
  red : UInt8 := 0
  green : UInt8 := 0
  blue : UInt8 := 0
deriving DecidableEq, Repr

/-- `underline_style`. -/
inductive UnderlineStyle where
  | noUnderline
  | straightUnderline
  | doubleUnderline
  | curlyUnderline
  | dottedUnderline
  | dashedUnderline
  | nilUnderline
deriving DecidableEq, Repr

/-- The number of an underline style. -/
def UnderlineStyle.toNat : UnderlineStyle → Nat
  | .noUnderline => 0
  | .straightUnderline => 1
  | .doubleUnderline => 2
  | .curlyUnderline => 3
  | .dottedUnderline => 4
  | .dashedUnderline => 5
  | .nilUnderline => 255

/-- `sgr_color`: 0 is no colour, a positive number is one above an index into the palette, and with
a negative number `color` is meant. -/
@[ext]
structure SgrColor where
  number : Int := 0
  color : RGBA := {}
deriving DecidableEq, Repr

/-- `sgr_state`. -/
structure SgrState where
  italic : Bool := false
  reverse : Bool := false
  bold : Bool := false
  dim : Bool := false
  strikethrough : Bool := false
  underlineStyle : UnderlineStyle := .noUnderline
  fg : SgrColor := {}
  bg : SgrColor := {}
  uc : SgrColor := {}
deriving DecidableEq, Repr

/-! ### Printing -/

/-- `strconv.Itoa`. -/
def itoa (n : Int) : Text :=
  if n < 0 then ord '-' :: decimalText n.natAbs else decimalText n.natAbs

/-- `sgr_color.as_sgr`. -/
def SgrColor.asSgr (self : SgrColor) (base : Int) : Text :=
  if self.number = 0 then []
  else if self.number > 0 then
    let n := self.number - 1
    if n ≤ 15 ∧ (base = 30 ∨ base = 40) then
      if n ≤ 7 then itoa (base + n) else itoa (base + 60 + n - 7)
    else itoa (base + 8) ++ chars ":5:" ++ itoa n
  else
    itoa (base + 8) ++ chars ":2:" ++ itoa self.color.red.toNat ++ chars ":" ++
      itoa self.color.green.toNat ++ chars ":" ++ itoa self.color.blue.toNat

/-- Whether a style draws a line. -/
def UnderlineStyle.isDrawn (style : UnderlineStyle) : Bool :=
  style ≠ .noUnderline ∧ style ≠ .nilUnderline

/-- The parameter of a colour, if it has one. -/
def SgrColor.sgrParts (self : SgrColor) (base : Int) : List Text :=
  let q := self.asSgr base
  if q ≠ [] then [q] else []

/-- The parameters that `sgr_state.as_sgr` collects. -/
def SgrState.sgrParts (self : SgrState) (forClose : Bool) : List Text :=
  if forClose then
    (if self.bold || self.dim then [chars "22"] else []) ++
    (if self.italic then [chars "23"] else []) ++
    (if self.reverse then [chars "27"] else []) ++
    (if self.strikethrough then [chars "29"] else []) ++
    (if self.underlineStyle.isDrawn then [chars "4:0"] else []) ++
    (if self.fg.number ≠ 0 then [chars "39"] else []) ++
    (if self.bg.number ≠ 0 then [chars "49"] else []) ++
    (if self.uc.number ≠ 0 then [chars "59"] else [])
  else
    (if self.bold then [chars "1"] else []) ++
    (if self.dim then [chars "2"] else []) ++
    (if self.italic then [chars "3"] else []) ++
    (if self.reverse then [chars "7"] else []) ++
    (if self.strikethrough then [chars "9"] else []) ++
    (if self.underlineStyle.isDrawn then
      [chars "4:" ++ itoa self.underlineStyle.toNat] else []) ++
    self.fg.sgrParts 30 ++ self.bg.sgrParts 40 ++ self.uc.sgrParts 50

/-- `sgr_state.as_sgr`. -/
def SgrState.asSgr (self : SgrState) (forClose : Bool) : Text :=
  [ord ';'].intercalate (self.sgrParts forClose)

/-! ### Reading -/

/-- `from_extended`. -/
def SgrColor.fromExtended (self : SgrColor) : List Int → Option (SgrColor × Bool)
  | [] => none
  | kind :: values =>
    if kind = 5 then
      match values with
      -- the sum is an `int` of 64 bits
      | index :: _ => some ({ self with number := (1 + index).bmod (2 ^ 64) }, true)
      | [] => some (self, false)
    else if kind = 2 then
      match values with
      | red :: green :: blue :: _ =>
        let color :=
          { red := UInt8.ofInt red, green := UInt8.ofInt green, blue := UInt8.ofInt blue }
        some ({ number := -1, color }, true)
      | _ => some (self, false)
    else some (self, false)

/-- The style that the second number of the parameter 4 stands for. -/
def SgrState.setUnderline (self : SgrState) (us : Int) : SgrState :=
  if us = 0 then { self with underlineStyle := .noUnderline }
  else if us = 1 then { self with underlineStyle := .straightUnderline }
  else if us = 2 then { self with underlineStyle := .doubleUnderline }
  else if us = 3 then { self with underlineStyle := .curlyUnderline }
  else if us = 4 then { self with underlineStyle := .dottedUnderline }
  else if us = 5 then { self with underlineStyle := .dashedUnderline }
  else self

/-- What `apply_csi` does with the numbers of one parameter. -/
def SgrState.applyNumbers (self : SgrState) : List Int → Option SgrState
  | [] => some self
  | first :: more =>
    if first = 0 then some {}
    else if first = 1 then some { self with dim := false, bold := true }
    else if first = 2 then some { self with dim := true, bold := false }
    else if first = 22 then some { self with dim := false, bold := false }
    else if first = 3 then some { self with italic := true }
    else if first = 23 then some { self with italic := false }
    else if first = 7 then some { self with reverse := true }
    else if first = 27 then some { self with reverse := false }
    else if first = 9 then some { self with strikethrough := true }
    else if first = 29 then some { self with strikethrough := false }
    else if first = 24 then some { self with underlineStyle := .noUnderline }
    else if first = 4 then some (self.setUnderline (more.headD 1))
    else if 30 ≤ first ∧ first ≤ 37 then
      some { self with fg := { self.fg with number := first + 1 - 30 } }
    else if 90 ≤ first ∧ first ≤ 97 then
      some { self with fg := { self.fg with number := first + 1 - 82 } }
    else if first = 38 then
      (self.fg.fromExtended more).map fun fg => { self with fg := fg.1 }
    else if first = 39 then some { self with fg := { self.fg with number := 0 } }
    else if 40 ≤ first ∧ first ≤ 47 then
      some { self with bg := { self.bg with number := first + 1 - 40 } }
    else if 100 ≤ first ∧ first ≤ 107 then
      some { self with bg := { self.bg with number := first + 1 - 92 } }
    else if first = 48 then
      (self.bg.fromExtended more).map fun bg => { self with bg := bg.1 }
    else if first = 49 then some { self with bg := { self.bg with number := 0 } }
    else if first = 58 then
      (self.uc.fromExtended more).map fun uc => { self with uc := uc.1 }
    else if first = 59 then some { self with uc := { self.uc with number := 0 } }
    else some self

/-- The numbers of a parameter: what is no number between its colons is left out. -/
def numbersOf (part : Text) : List Int := (part.splitOn (ord ':')).filterMap GoKeys.atoi

/-- The parameters of a sequence without its `m`. -/
def csiParts (raw : Text) : List Text := (if raw = [] then chars "0" else raw).splitOn (ord ';')

/-- `apply_csi`. -/
def SgrState.applyCsi (self : SgrState) (raw : Text) : Option SgrState :=
  if raw.getLast? ≠ some (ord 'm') then some self
  else (csiParts raw.dropLast).foldlM (fun self part => self.applyNumbers (numbersOf part)) self

end Style

end Smelly
