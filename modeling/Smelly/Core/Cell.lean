/-
Module: Smelly.Core.Cell
Purpose: The cell, line-attribute and cursor records of `data-types.h` and the conversions
  between a cursor's rendition and a cell's.
Trusted boundary: human-reviewed model of smelly/data-types.h
-/

namespace Smelly

/-- `BLANK_CHAR`. -/
abbrev blankChar : UInt32 := 0

/-- The bit field `CellAttrs`; `width` and `mark` have two bits and `decoration` three. -/
structure CellAttrs where
  width : Nat := 0
  decoration : Nat := 0
  bold : Bool := false
  italic : Bool := false
  reverse : Bool := false
  strike : Bool := false
  dim : Bool := false
  mark : Nat := 0
  nextCharWasWrapped : Bool := false
deriving DecidableEq, Repr, Inhabited

/-- `GPUCell`: what is drawn in a cell apart from its characters. -/
structure GPUCell where
  fg : UInt32 := 0
  bg : UInt32 := 0
  decorationFg : UInt32 := 0
  spriteX : UInt16 := 0
  spriteY : UInt16 := 0
  spriteZ : UInt16 := 0
  attrs : CellAttrs := {}
deriving DecidableEq, Repr, Inhabited

/-- `CPUCell`: the character of a cell, its hyperlink and its combining marks. -/
structure CPUCell where
  ch : UInt32 := 0
  hyperlinkId : UInt16 := 0
  ccIdx : Vector UInt16 3 := Vector.replicate 3 0
deriving DecidableEq, Repr, Inhabited

/-- A cell has a first slot for a combining character. -/
theorem firstSlot : 0 < 3 := by decide

/-- The two parallel cells of one column.  Every operation of the source that moves a cell
moves both (`COPY_CELL`, `copy_line`, `copy_range`). -/
structure Cell where
  cpu : CPUCell := {}
  gpu : GPUCell := {}
deriving DecidableEq, Repr, Inhabited

/-- The cell `memset` leaves behind. -/
abbrev Cell.zero : Cell := {}

def Cell.ch (cell : Cell) : UInt32 := cell.cpu.ch

def Cell.attrs (cell : Cell) : CellAttrs := cell.gpu.attrs

/-- `cell.attrs.next_char_was_wrapped = wrapped`. -/
def Cell.setWrapped (cell : Cell) (wrapped : Bool) : Cell :=
  { cell with gpu := { cell.gpu with attrs :=
      { cell.gpu.attrs with nextCharWasWrapped := wrapped } } }

/-- `cell.attrs.width = width`. -/
def Cell.setWidth (cell : Cell) (width : Nat) : Cell :=
  { cell with gpu := { cell.gpu with attrs := { cell.gpu.attrs with width := width % 4 } } }

/-- `clear_sprite_position`. -/
def clearSpritePosition (cell : GPUCell) : GPUCell :=
  { cell with spriteX := 0, spriteY := 0, spriteZ := 0 }

inductive PromptKind where
  | unknownPromptKind
  | promptStart
  | secondaryPrompt
  | outputStart
deriving DecidableEq, Repr, Inhabited

/-- `LineAttrs`; the default value is `val = 0`. -/
structure LineAttrs where
  isContinued : Bool := false
  hasDirtyText : Bool := false
  promptKind : PromptKind := .unknownPromptKind
deriving DecidableEq, Repr, Inhabited

inductive CursorShape where
  | noCursorShape
  | block
  | beam
  | underline
deriving DecidableEq, Repr, Inhabited

/-- `Cursor`; `decoration` is an eight bit field. -/
structure Cursor where
  bold : Bool := false
  italic : Bool := false
  reverse : Bool := false
  strikethrough : Bool := false
  dim : Bool := false
  nonBlinking : Bool := false
  x : Nat := 0
  y : Nat := 0
  decoration : UInt8 := 0
  shape : CursorShape := .noCursorShape
  fg : UInt32 := 0
  bg : UInt32 := 0
  decorationFg : UInt32 := 0
deriving DecidableEq, Repr, Inhabited

/-- `cursor_to_attrs`: the assignments to the bit fields truncate. -/
def cursorToAttrs (cursor : Cursor) (width : Nat) : CellAttrs :=
  { width := width % 4
    decoration := cursor.decoration.toNat % 8
    bold := cursor.bold
    italic := cursor.italic
    reverse := cursor.reverse
    strike := cursor.strikethrough
    dim := cursor.dim }

/-! ### What the small updates leave alone -/

@[simp] theorem Cell.zero_ch : Cell.zero.ch = blankChar := rfl

@[simp] theorem Cell.setWrapped_cpu (cell : Cell) (wrapped : Bool) :
    (cell.setWrapped wrapped).cpu = cell.cpu := rfl

@[simp] theorem Cell.setWrapped_ch (cell : Cell) (wrapped : Bool) :
    (cell.setWrapped wrapped).ch = cell.ch := rfl

@[simp] theorem Cell.setWrapped_wrapped (cell : Cell) (wrapped : Bool) :
    (cell.setWrapped wrapped).gpu.attrs.nextCharWasWrapped = wrapped := rfl

@[simp] theorem Cell.setWrapped_setWrapped (cell : Cell) (first second : Bool) :
    (cell.setWrapped first).setWrapped second = cell.setWrapped second := rfl

end Smelly
