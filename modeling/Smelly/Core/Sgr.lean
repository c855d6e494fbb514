/-
Module: Smelly.Core.Sgr
Purpose: How `line.c` prints the difference of two renditions as the parameters of an SGR
  sequence, and how `cursor.c` applies such parameters to the cursor and to cells.
Trusted boundary: human-reviewed model of smelly/line.c and smelly/cursor.c
-/
import Smelly.Core.Cell
import Smelly.Core.ParserDispatch

namespace Smelly

/-! ### Printing -/

/-- `%u` and `%lu`. -/
def decimalText (n : Nat) : Text := (Nat.toDigits 10 n).map ord

/-- `DECORATION_FG_CODE`. -/
def DECORATION_FG_CODE : Nat := 58

/-- `color_as_sgr`. -/
def colorAsSgr (val : UInt32) (simpleCode aixCode complexCode : Nat) : Text :=
  if val &&& 0xff = 1 then
    let val := val >>> 8
    if val < 16 ∧ simpleCode ≠ 0 then
      decimalText (if val < 8 then simpleCode + val.toNat else aixCode + (val - 8).toNat) ++
        chars ";"
    else decimalText complexCode ++ chars ":5:" ++ decimalText val.toNat ++ chars ";"
  else if val &&& 0xff = 2 then
    decimalText complexCode ++ chars ":2:" ++ decimalText ((val >>> 24) &&& 0xff).toNat ++
      chars ":" ++ decimalText ((val >>> 16) &&& 0xff).toNat ++ chars ":" ++
      decimalText ((val >>> 8) &&& 0xff).toNat ++ chars ";"
  else decimalText (complexCode + 1) ++ chars ";"

/-- `decoration_as_sgr`. -/
def decorationAsSgr (decoration : Nat) : Text :=
  match decoration with
  | 1 => chars "4;"
  | 2 => chars "4:2;"
  | 3 => chars "4:3;"
  | _ => chars "24;"

/-- `SZ`: what is left of the 128 bytes of `buf`, less two. -/
def sgrSpace (buf : Text) : Nat := 128 - buf.length - 2

/-- `P`: a text that does not fit is left out. -/
def appendText (buf text : Text) : Text := if text.length < sgrSpace buf then buf ++ text else buf

/-- `p += snprintf(p, SZ, …)`: a text that does not fit would move `p` behind its end. -/
def appendPrinted (buf text : Text) : Option Text :=
  if text.length < sgrSpace buf then some (buf ++ text) else none

/-- The part of `cell_as_sgr` for bold and dim. -/
def appendIntensity (buf : Text) (cell prev : CellAttrs) : Text :=
  if cell.bold ≠ prev.bold ∨ cell.dim ≠ prev.dim then
    if ¬ cell.bold ∧ ¬ cell.dim then appendText buf (chars "22;")
    else
      let buf := if cell.bold then appendText buf (chars "1;") else buf
      if cell.dim then appendText buf (chars "2;") else buf
  else buf

/-- The part of `cell_as_sgr` for an attribute with a code to set it and one to clear it. -/
def appendSwitch (buf : Text) (cell prev : Bool) (set clear : Text) : Text :=
  if cell ≠ prev then appendText buf (if cell then set else clear) else buf

/-- The part of `cell_as_sgr` for a colour. -/
def appendColor (buf : Text) (cell prev : UInt32) (simpleCode aixCode complexCode : Nat) :
    Option Text :=
  if cell ≠ prev then appendPrinted buf (colorAsSgr cell simpleCode aixCode complexCode)
  else some buf

/-- The part of `cell_as_sgr` for the decoration. -/
def appendDecoration (buf : Text) (cell prev : Nat) : Text :=
  if cell ≠ prev then appendText buf (decorationAsSgr cell) else buf

/-- `cell_as_sgr`. -/
def cellAsSgr (cell prev : GPUCell) : Option Text := do
  let CA := cell.attrs
  let PA := prev.attrs
  let buf := appendIntensity [] CA PA
  let buf := appendSwitch buf CA.italic PA.italic (chars "3;") (chars "23;")
  let buf := appendSwitch buf CA.reverse PA.reverse (chars "7;") (chars "27;")
  let buf := appendSwitch buf CA.strike PA.strike (chars "9;") (chars "29;")
  let buf ← appendColor buf cell.fg prev.fg 30 90 38
  let buf ← appendColor buf cell.bg prev.bg 40 100 48
  let buf ← appendColor buf cell.decorationFg prev.decorationFg 0 0 DECORATION_FG_CODE
  let buf := appendDecoration buf CA.decoration PA.decoration
  -- the trailing semi-colon is overwritten by the terminating zero
  some buf.dropLast

/-! ### Applying -/

/-- `params[i] & 0xFF`. -/
def lowByte (param : Int) : UInt32 := UInt32.ofNat (param.emod 256).toNat

/-- `parse_color` on the parameters that are left: the new colour and what it leaves of them. -/
def parseColor (result : UInt32) : List Int → UInt32 × List Int
  | [] => (result, [])
  | attr :: rest =>
    if attr = 5 then
      match rest with
      | [] => (result, [])
      | index :: rest => ((lowByte index <<< 8) ||| 1, rest)
    else if attr = 2 then
      if 2 < rest.length then
        -- the first parameter of a four parameter colour is an unused color space id
        match if 3 < rest.length then rest.tail else rest with
        | r :: g :: b :: rest =>
          ((lowByte r <<< 24) ||| (lowByte g <<< 16) ||| (lowByte b <<< 8) ||| 2, rest)
        | rest => (result, rest)
      else (result, rest)
    else (result, rest)

/-- `cursor_reset_display_attrs`. -/
def cursorResetDisplayAttrs (c : Cursor) : Cursor :=
  { c with
    bg := 0, fg := 0, decorationFg := 0, decoration := 0, bold := false, italic := false,
    reverse := false, strikethrough := false, dim := false }

/-- A palette colour: its index in the second byte. -/
def paletteColor (index : Int) : UInt32 := (lowByte index <<< 8) ||| 1

/-- One round of the loop of `cursor_from_sgr`, for the attribute and the parameters behind it;
the second component holds the parameters that are left. -/
def sgrAttribute (c : Cursor) (attr : Int) (rest : List Int) : Cursor × List Int :=
  if attr = 0 then (cursorResetDisplayAttrs c, rest)
  else if attr = 1 then ({ c with bold := true }, rest)
  else if attr = 2 then ({ c with dim := true }, rest)
  else if attr = 3 then ({ c with italic := true }, rest)
  else if attr = 4 then
    match rest with
    | [] => ({ c with decoration := 1 }, [])
    | style :: rest => ({ c with decoration := UInt8.ofInt (min 5 style) }, rest)
  else if attr = 7 then ({ c with reverse := true }, rest)
  else if attr = 9 then ({ c with strikethrough := true }, rest)
  else if attr = 21 then ({ c with decoration := 2 }, rest)
  else if attr = 22 then ({ c with bold := false, dim := false }, rest)
  else if attr = 23 then ({ c with italic := false }, rest)
  else if attr = 24 then ({ c with decoration := 0 }, rest)
  else if attr = 27 then ({ c with reverse := false }, rest)
  else if attr = 29 then ({ c with strikethrough := false }, rest)
  else if 30 ≤ attr ∧ attr ≤ 37 then ({ c with fg := paletteColor (attr - 30) }, rest)
  else if attr = 38 then
    let (fg, rest) := parseColor c.fg rest
    ({ c with fg := fg }, rest)
  else if attr = 39 then ({ c with fg := 0 }, rest)
  else if 40 ≤ attr ∧ attr ≤ 47 then ({ c with bg := paletteColor (attr - 40) }, rest)
  else if attr = 48 then
    let (bg, rest) := parseColor c.bg rest
    ({ c with bg := bg }, rest)
  else if attr = 49 then ({ c with bg := 0 }, rest)
  else if 90 ≤ attr ∧ attr ≤ 97 then ({ c with fg := paletteColor (attr - 90 + 8) }, rest)
  else if 100 ≤ attr ∧ attr ≤ 107 then ({ c with bg := paletteColor (attr - 100 + 8) }, rest)
  else if attr = DECORATION_FG_CODE then
    let (decorationFg, rest) := parseColor c.decorationFg rest
    ({ c with decorationFg := decorationFg }, rest)
  else if attr = DECORATION_FG_CODE + 1 then ({ c with decorationFg := 0 }, rest)
  else (c, rest)

/-- The loop of `cursor_from_sgr`.  Every round takes a parameter, so `fuel` is their number. -/
def sgrAttributes : (fuel : Nat) → Cursor → List Int → Cursor
  | 0, c, _ => c
  | _, c, [] => c
  | fuel + 1, c, attr :: rest =>
    let (c, rest) := sgrAttribute c attr rest
    sgrAttributes fuel c rest

/-- `cursor_from_sgr`. -/
def cursorFromSgr (c : Cursor) (params : List Int) : Cursor :=
  let params := if params = [] then [0] else params
  sgrAttributes params.length c params

/-- One round of the loop of `apply_sgr_to_cells`: what it does to every cell, and the parameters
that are left.  A colour that could not be read changes no cell. -/
def sgrCellAttribute (attr : Int) (rest : List Int) : (GPUCell → GPUCell) × List Int :=
  let onAttrs (change : CellAttrs → CellAttrs) : GPUCell → GPUCell :=
    fun cell => { cell with attrs := change cell.attrs }
  if attr = 0 then
    (fun cell => { cell with
      attrs := { width := cell.attrs.width, mark := cell.attrs.mark,
                 nextCharWasWrapped := cell.attrs.nextCharWasWrapped }
      fg := 0, bg := 0, decorationFg := 0 }, rest)
  else if attr = 1 then (onAttrs fun a => { a with bold := true }, rest)
  else if attr = 2 then (onAttrs fun a => { a with dim := true }, rest)
  else if attr = 3 then (onAttrs fun a => { a with italic := true }, rest)
  else if attr = 4 then
    let (val, rest) : UInt8 × List Int :=
      match rest with
      | [] => (1, [])
      | style :: rest => (UInt8.ofInt (min 5 style), rest)
    (onAttrs fun a => { a with decoration := val.toNat % 8 }, rest)
  else if attr = 7 then (onAttrs fun a => { a with reverse := true }, rest)
  else if attr = 9 then (onAttrs fun a => { a with strike := true }, rest)
  else if attr = 21 then (onAttrs fun a => { a with decoration := 2 }, rest)
  else if attr = 22 then (onAttrs fun a => { a with bold := false, dim := false }, rest)
  else if attr = 23 then (onAttrs fun a => { a with italic := false }, rest)
  else if attr = 24 then (onAttrs fun a => { a with decoration := 0 }, rest)
  else if attr = 27 then (onAttrs fun a => { a with reverse := false }, rest)
  else if attr = 29 then (onAttrs fun a => { a with strike := false }, rest)
  else if 30 ≤ attr ∧ attr ≤ 37 then
    (fun cell => { cell with fg := paletteColor (attr - 30) }, rest)
  else if attr = 38 then
    let (color, rest) := parseColor 0 rest
    (fun cell => if color ≠ 0 then { cell with fg := color } else cell, rest)
  else if attr = 39 then (fun cell => { cell with fg := 0 }, rest)
  else if 40 ≤ attr ∧ attr ≤ 47 then
    (fun cell => { cell with bg := paletteColor (attr - 40) }, rest)
  else if attr = 48 then
    let (color, rest) := parseColor 0 rest
    (fun cell => if color ≠ 0 then { cell with bg := color } else cell, rest)
  else if attr = 49 then (fun cell => { cell with bg := 0 }, rest)
  else if 90 ≤ attr ∧ attr ≤ 97 then
    (fun cell => { cell with fg := paletteColor (attr - 90 + 8) }, rest)
  else if 100 ≤ attr ∧ attr ≤ 107 then
    (fun cell => { cell with bg := paletteColor (attr - 100 + 8) }, rest)
  else if attr = DECORATION_FG_CODE then
    let (color, rest) := parseColor 0 rest
    (fun cell => if color ≠ 0 then { cell with decorationFg := color } else cell, rest)
  else if attr = DECORATION_FG_CODE + 1 then (fun cell => { cell with decorationFg := 0 }, rest)
  else (id, rest)

/-- The loop of `apply_sgr_to_cells`; `fuel` is the number of parameters. -/
def sgrCellAttributes : (fuel : Nat) → List GPUCell → List Int → List GPUCell
  | 0, cells, _ => cells
  | _, cells, [] => cells
  | fuel + 1, cells, attr :: rest =>
    let (change, rest) := sgrCellAttribute attr rest
    sgrCellAttributes fuel (cells.map change) rest

/-- `apply_sgr_to_cells`. -/
def applySgrToCells (cells : List GPUCell) (params : List Int) : List GPUCell :=
  let params := if params = [] then [0] else params
  sgrCellAttributes params.length cells params

/-- What the calls of the parser do to the rendition of the cursor. -/
def applySgr (c : Cursor) : List Command → Cursor
  | [] => c
  | .selectGraphicRendition params none :: rest => applySgr (cursorFromSgr c params) rest
  | _ :: rest => applySgr c rest

/-- The parameters of an SGR sequence parsed and applied.  The callers of `cell_as_sgr` write no
sequence for an empty text. -/
def replaySgr (c : Cursor) (sgr : Text) : Cursor :=
  if sgr = [] then c else applySgr c (csiSequenceCommands sgr (ord 'm'))

end Smelly
