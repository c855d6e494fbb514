/-
Module: Smelly.Core.WcWidthIterator
Purpose: The width of a text with escape codes in the command line tools: the handlers that count it
  behind the escape code parser.
Trusted boundary: human-reviewed model of tools/wcswidth/wcswidth.go; the generated tables are a
  parameter, and a width fits in an int
-/
import Smelly.Core.EscapeCodeParser
import Mathlib.Logic.Function.Iterate
import Smelly.Core.WcsWidth
import Mathlib.Algebra.Ring.Int.Defs

namespace Smelly

namespace Wcswidth

/-- `ecparser_state`. -/
inductive EcparserState where
  | normal
  | flagPairStarted
deriving DecidableEq, Repr

/-- The fields of `WCWidthIterator` that the handlers change. -/
structure WidthState where
  prevCh : UInt32 := 0
  prevWidth : Int := 0
  currentWidth : Int := 0
  state : EcparserState := .normal
  runeCount : Nat := 0
deriving DecidableEq, Repr

/-- `strconv.Atoi`: decimal digits with an optional sign, in the range of an `int`. -/
def atoi (s : Bytes) : Option Int :=
  let (negative, digits) : Bool × Bytes :=
    match s with
    | 0x2d :: rest => (true, rest)
    | 0x2b :: rest => (false, rest)
    | _ => (false, s)
  if digits ≠ [] ∧ digits.all (fun b => 0x30 ≤ b ∧ b ≤ 0x39) then
    let n : Int := digits.foldl (fun n b => n * 10 + (b.toNat - 0x30)) 0
    let n := if negative then -n else n
    if -2 ^ 63 ≤ n ∧ n < 2 ^ 63 then some n else none
  else none

/-- The case `normal` of `handle_rune`.  A width of -1 leaves `prev_width` as it is. -/
def runeNormal (t : WidthTables) (self : WidthState) (ch : UInt32) : WidthState :=
  if ch = 0xfe0f then
    if t.isEmojiPresentationBase self.prevCh ∧ self.prevWidth = 1 then
      { self with currentWidth := self.currentWidth + 1, prevWidth := 2 }
    else { self with prevWidth := 0 }
  else if ch = 0xfe0e then
    if t.isEmojiPresentationBase self.prevCh ∧ self.prevWidth = 2 then
      { self with currentWidth := self.currentWidth - 1, prevWidth := 1 }
    else { self with prevWidth := 0 }
  else
    let self := if isFlagCodepoint ch then { self with state := .flagPairStarted } else self
    let w := t.wcwidthStd ch
    let prevWidth :=
      if w = -1 then self.prevWidth else if w = 0 then 0 else if w = 2 then 2 else 1
    { self with prevWidth := prevWidth, currentWidth := self.currentWidth + prevWidth }

/-- `handle_rune`. -/
def handleRune (t : WidthTables) (self : WidthState) (ch : UInt32) : WidthState :=
  let self := { self with runeCount := self.runeCount + 1 }
  let after :=
    match self.state with
    | .flagPairStarted =>
      let self := { self with state := .normal }
      if isFlagPair self.prevCh ch then self else runeNormal t self ch
    | .normal => runeNormal t self ch
  { after with prevCh := ch }

/-- `handle_csi`: REP repeats the last character. -/
def handleCsi (t : WidthTables) (self : WidthState) (csi : Bytes) : WidthState :=
  if csi.length > 1 ∧ csi.getLast? = some 0x62 then
    match atoi csi.dropLast with
    | some n => if n > 0 then (fun self => handleRune t self self.prevCh)^[n.toNat] self else self
    | none => self
  else self

/-- The callbacks of `CreateWCWidthIterator`. -/
def widthCallbacks (t : WidthTables) : Callbacks WidthState Empty where
  handleRune := some fun ch self => (handleRune t self ch, none)
  handleCSI := some fun csi self => (handleCsi t self csi, none)

/-- `WCWidthIterator`. -/
structure WCWidthIterator where
  parser : EscapeCodeParser := {}
  counts : WidthState := {}
deriving DecidableEq, Repr

/-- `ParseByte` for one byte after the other; the width is `current_width`. -/
def WCWidthIterator.parseBytes (t : WidthTables) (self : WCWidthIterator) (b : Bytes) :
    WCWidthIterator :=
  let (parser, counts, _) := self.parser.parse (widthCallbacks t) b self.counts
  { parser := parser, counts := counts }

/-- `Stringwidth`. -/
def stringwidth (t : WidthTables) (text : Bytes) : Int :=
  (({} : WCWidthIterator).parseBytes t text).counts.currentWidth

end Wcswidth

end Smelly
