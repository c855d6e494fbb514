/-
Module: Smelly.Core.TruncateText
Purpose: Cutting a text with escape codes to a number of columns.
Trusted boundary: human-reviewed model of tools/wcswidth/truncate.go; an integer does not overflow,
  and `none` is the panic of a slice beyond the end of the text
-/
import Smelly.Core.WcWidthIterator

namespace Smelly

namespace Wcswidth

/-- `truncate_error`. -/
structure TruncateError where
  pos : Nat
  width : Int
deriving DecidableEq, Repr

/-- The fields of `truncate_iterator` that the handlers change, and the limit. -/
structure TruncateIterator where
  w : WidthState := {}
  pos : Nat := 0
  limit : Int
  limitExceededAt : Option TruncateError := none
deriving DecidableEq, Repr

/-- `len(string(ch))`; what is no character becomes U+FFFD. -/
def runeLength (ch : UInt32) : Nat :=
  if ch < 0x80 then 1
  else if ch < 0x800 then 2
  else if ch < 0x10000 then 3
  else if ch ≤ 0x10ffff then 4
  else 3

namespace TruncateIterator

/-- The loop of `handle_csi` that repeats a character. -/
def repeatLoop (t : WidthTables) (widthBeforeRepeat : Int) :
    Nat → TruncateIterator → TruncateIterator × Option TruncateError
  | 0, self => (self, none)
  | n + 1, self =>
    let self := { self with w := Wcswidth.handleRune t self.w self.w.prevCh }
    if self.w.currentWidth > self.limit then
      (self, some { pos := self.pos, width := widthBeforeRepeat })
    else repeatLoop t widthBeforeRepeat n self

/-- The number of times that a CSI code repeats the last character. -/
def repeats (csi : Bytes) : Nat :=
  if csi.length > 1 ∧ csi.getLast? = some 0x62 then ((atoi csi.dropLast).getD 0).toNat else 0

/-- `handle_csi`. -/
def handleCsi (t : WidthTables) (csi : Bytes) (self : TruncateIterator) :
    TruncateIterator × Option TruncateError :=
  match repeatLoop t self.w.currentWidth (repeats csi) self with
  | (self, some err) => (self, some err)
  | (self, none) => ({ self with pos := self.pos + (csi.length + 2) }, none)

/-- `handle_st_terminated_escape_code`. -/
def handleStTerminatedEscapeCode (body : Bytes) (self : TruncateIterator) :
    TruncateIterator × Option TruncateError :=
  ({ self with pos := self.pos + (body.length + 4) }, none)

/-- `handle_rune`. -/
def handleRune (t : WidthTables) (ch : UInt32) (self : TruncateIterator) :
    TruncateIterator × Option TruncateError :=
  let width := self.w.currentWidth
  let self := { self with w := Wcswidth.handleRune t self.w ch }
  match self.limitExceededAt with
  | some err =>
    -- a selector may have made the text narrower
    if self.w.currentWidth ≤ self.limit then
      (self, some { pos := self.pos + runeLength ch, width := self.w.currentWidth })
    else (self, some err)
  | none =>
    let self :=
      if self.w.currentWidth > self.limit then
        { self with limitExceededAt := some { pos := self.pos, width := width } }
      else self
    ({ self with pos := self.pos + runeLength ch }, none)

/-- The callbacks of `create_truncate_iterator`. -/
def callbacks (t : WidthTables) : Callbacks TruncateIterator TruncateError where
  handleRune := some (handleRune t)
  handleCSI := some (handleCsi t)
  handleOSC := some handleStTerminatedEscapeCode
  handleAPC := some handleStTerminatedEscapeCode
  handleDCS := some handleStTerminatedEscapeCode
  handlePM := some handleStTerminatedEscapeCode
  handleSOS := some handleStTerminatedEscapeCode

/-- `parse`. -/
def parse (t : WidthTables) (self : TruncateIterator) (b : Bytes) : Nat × Int :=
  match ({} : EscapeCodeParser).parse (callbacks t) b self with
  | (_, _, some err) => (err.pos, err.width)
  | (_, self, none) =>
    match self.limitExceededAt with
    | some err => (err.pos, err.width)
    | none => (b.length, self.w.currentWidth)

end TruncateIterator

/-- `TruncateToVisualLengthWithWidth`. -/
def truncateToVisualLengthWithWidth (t : WidthTables) (text : Bytes) (length : Int) :
    Option (Bytes × Int) :=
  if length < 1 then some ([], 0)
  else
    let (truncatePoint, width) := ({ limit := length } : TruncateIterator).parse t text
    if truncatePoint ≤ text.length then some (text.take truncatePoint, width) else none

end Wcswidth

end Smelly
