/-
Module: Smelly.Core.ColorProfile
Purpose: The colours of a terminal: the colour table, the colours a program has overridden, and the
  stack these are saved on.
Trusted boundary: human-reviewed model of smelly/colors.c; the mark colours and the dirty flag,
  which nothing here reads, are left out
-/
import Smelly.Lib.Checked
import Smelly.Lib.MemoryBlock

namespace Smelly

open Checked MemoryBlock

inductive DynamicColorType where
  | notSet
  | isSpecial
  | isIndex
  | isRgb
deriving DecidableEq, Repr, Inhabited

structure DynamicColor where
  rgb : BitVec 24 := 0
  type : DynamicColorType := .notSet
deriving DecidableEq, Repr, Inhabited

structure DynamicColors where
  defaultFg : DynamicColor := {}
  defaultBg : DynamicColor := {}
  cursorColor : DynamicColor := {}
  cursorTextColor : DynamicColor := {}
  highlightFg : DynamicColor := {}
  highlightBg : DynamicColor := {}
  visualBellColor : DynamicColor := {}
deriving DecidableEq, Repr, Inhabited

/-- The fields of `DynamicColors`. -/
inductive DynamicColorName where
  | defaultFg
  | defaultBg
  | cursorColor
  | cursorTextColor
  | highlightFg
  | highlightBg
  | visualBellColor
deriving DecidableEq, Repr

def DynamicColors.set (colors : DynamicColors) (color : DynamicColor) :
    DynamicColorName → DynamicColors
  | .defaultFg => { colors with defaultFg := color }
  | .defaultBg => { colors with defaultBg := color }
  | .cursorColor => { colors with cursorColor := color }
  | .cursorTextColor => { colors with cursorTextColor := color }
  | .highlightFg => { colors with highlightFg := color }
  | .highlightBg => { colors with highlightBg := color }
  | .visualBellColor => { colors with visualBellColor := color }

abbrev ColorTable := Vector UInt32 256

structure ColorStackEntry where
  dynamicColors : DynamicColors := {}
  colorTable : ColorTable := Vector.replicate 256 0
deriving DecidableEq, Repr, Inhabited

/-- The fields of `ColorProfile` apart from its stack. -/
structure Palette where
  colorTable : ColorTable
  origColorTable : ColorTable
  configured : DynamicColors := {}
  overridden : DynamicColors := {}
deriving DecidableEq, Repr

/-- `ColorProfile`; `color_stack_sz` is the length of `colorStack`. -/
structure ColorProfile extends Palette where
  colorStack : List ColorStackEntry := []
  colorStackIdx : Nat := 0
deriving DecidableEq, Repr

/-! ### New profiles -/

/-- The colours 0 to 15 of `FG_BG_256`. -/
def ansiColors : List UInt32 :=
  [0x000000, 0xcd0000, 0x00cd00, 0xcdcd00, 0x0000ee, 0xcd00cd, 0x00cdcd, 0xe5e5e5,
    0x7f7f7f, 0xff0000, 0x00ff00, 0xffff00, 0x5c5cff, 0xff00ff, 0x00ffff, 0xffffff]

def valueRange : List UInt32 := [0x00, 0x5f, 0x87, 0xaf, 0xd7, 0xff]

/-- The colour of `r`, `g` and `b`. -/
def packRgb (r g b : UInt32) : UInt32 := (r <<< 16) ||| (g <<< 8) ||| b

/-- `FG_BG_256` after `init_FG_BG_table`: 16 colours, the 6x6x6 cube and 24 greys. -/
def fgBg256 : ColorTable := Vector.ofFn fun j : Fin 256 =>
  if j.val < 16 then ansiColors.getD j.val 0
  else if j.val < 232 then
    let i := j.val - 16
    packRgb (valueRange.getD (i / 36 % 6) 0) (valueRange.getD (i / 6 % 6) 0)
      (valueRange.getD (i % 6) 0)
  else
    let v := UInt32.ofNat (8 + (j.val - 232) * 10)
    packRgb v v v

/-- `new_cp`. -/
def newCp : ColorProfile where
  colorTable := fgBg256
  origColorTable := fgBg256

/-! ### The stack -/

/-- What `push_onto_color_stack_at` stores. -/
def Palette.entry (self : Palette) : ColorStackEntry where
  dynamicColors := self.overridden
  colorTable := self.colorTable

/-- What `copy_from_color_stack_at` does with an entry. -/
def Palette.restore (self : Palette) (entry : ColorStackEntry) : Palette :=
  { self with overridden := entry.dynamicColors, colorTable := entry.colorTable }

/-- `push_onto_color_stack_at`. -/
def pushOntoColorStackAt (self : ColorProfile) (i : Nat) : Option ColorProfile := do
  let stack ← setAt self.colorStack i self.entry
  some { self with colorStack := stack }

/-- `copy_from_color_stack_at`. -/
def copyFromColorStackAt (self : ColorProfile) (i : Nat) : Option ColorProfile := do
  let entry ← self.colorStack[i]?
  some { self with toPalette := self.restore entry }

/-- The array gets room for `sz` entries; the new ones are zeroed. -/
def ensureColorStack (self : ColorProfile) (sz : Nat) : ColorProfile :=
  if self.colorStack.length < sz then
    { self with colorStack := resize default self.colorStack sz }
  else self

/-- `colorprofile_push_colors`. -/
def pushColors (self : ColorProfile) (idx : UInt32) : Option (ColorProfile × Bool) :=
  if 10 < idx then some (self, false)
  else
    let sz := if idx ≠ 0 then idx.toNat else self.colorStackIdx + 1
    let self := ensureColorStack self (min 10 sz)
    if idx = 0 then
      if self.colorStackIdx ≥ self.colorStack.length then do
        let stack ← move self.colorStack 0 1 (self.colorStack.length - 1)
        let self ← pushOntoColorStackAt { self with colorStack := stack }
          (self.colorStack.length - 1)
        some (self, true)
      else do
        let self ← pushOntoColorStackAt { self with colorStackIdx := self.colorStackIdx + 1 }
          self.colorStackIdx
        some (self, true)
    else if idx.toNat - 1 < self.colorStack.length then do
      let self ← pushOntoColorStackAt self (idx.toNat - 1)
      some (self, true)
    else some (self, false)

/-- `colorprofile_pop_colors`. -/
def popColors (self : ColorProfile) (idx : UInt32) : Option (ColorProfile × Bool) :=
  if idx = 0 then
    if self.colorStackIdx = 0 then some (self, false)
    else do
      let self ← copyFromColorStackAt { self with colorStackIdx := self.colorStackIdx - 1 }
        (self.colorStackIdx - 1)
      let stack ← setAt self.colorStack self.colorStackIdx default
      some ({ self with colorStack := stack }, true)
  else if idx.toNat - 1 < self.colorStack.length then do
    let self ← copyFromColorStackAt self (idx.toNat - 1)
    some (self, true)
  else some (self, false)

/-- `colorprofile_report_stack`: the index of the top entry and the number of entries. -/
def reportStack (self : ColorProfile) : Nat × Nat :=
  (if self.colorStackIdx ≠ 0 then self.colorStackIdx - 1 else 0, self.colorStackIdx)

/-! ### Changes of the colours -/

/-- What changes the colours of a profile without its stack. -/
inductive ColorChange where
  | setColor (i : UInt8) (val : UInt64)
  | resetColor (i : UInt8)
  | resetColorTable
  | updateAnsiColorTable (table : Vector UInt64 256)
  | setOverridden (name : DynamicColorName) (val : UInt64)
  | setConfigured (colors : DynamicColors)
  | patchColorTable (which : UInt8) (color : UInt32) (changeConfigured : Bool)
  | patchColor (name : DynamicColorName) (color : Option UInt32) (changeConfigured : Bool)
  | copyColorProfile (src : Palette)

/-- Entry `i` of a colour table. -/
def ColorTable.setAt (table : ColorTable) (i : UInt8) (color : UInt32) : ColorTable :=
  table.set i.toNat color i.toNat_lt

/-- The setter of an overridden colour. -/
def overriddenColor (val : UInt64) : DynamicColor where
  rgb := val.toBitVec.truncate 24
  type := if val &&& 0xff000000 ≠ 0 then .isRgb else .notSet

/-- The colour `patch_color_profiles` makes of a number, or of something else. -/
def patchedColor : Option UInt32 → DynamicColor
  | some color => { rgb := color.toBitVec.truncate 24, type := .isRgb }
  | none => { rgb := 0, type := .isSpecial }

/-- `set_color`, `reset_color`, `reset_color_table`, `update_ansi_color_table`, the setters of the
overridden colours, `set_configured_colors`, `patch_color_profiles` and `copy_color_profile`. -/
def Palette.apply (self : Palette) : ColorChange → Palette
  | .setColor i val => { self with colorTable := self.colorTable.setAt i val.toUInt32 }
  | .resetColor i =>
    { self with colorTable := self.colorTable.setAt i (self.origColorTable.get ⟨_, i.toNat_lt⟩) }
  | .resetColorTable => { self with colorTable := self.origColorTable }
  | .updateAnsiColorTable table =>
    { self with
      colorTable := table.map UInt64.toUInt32
      origColorTable := table.map UInt64.toUInt32 }
  | .setOverridden name val =>
    { self with overridden := self.overridden.set (overriddenColor val) name }
  | .setConfigured colors => { self with configured := colors }
  | .patchColorTable which color changeConfigured =>
    { self with
      colorTable := self.colorTable.setAt which color
      origColorTable :=
        if changeConfigured then self.origColorTable.setAt which color else self.origColorTable }
  | .patchColor name color changeConfigured =>
    { self with
      overridden := self.overridden.set (patchedColor color) name
      configured :=
        if changeConfigured then self.configured.set (patchedColor color) name
        else self.configured }
  | .copyColorProfile src => src

/-- What happens to a profile. -/
inductive ColorEvent where
  | push (idx : UInt32)
  | pop (idx : UInt32)
  | change (what : ColorChange)

/-- One event; what the stack functions return decides about the dirty flag only. -/
def colorStep (self : ColorProfile) : ColorEvent → Option ColorProfile
  | .push idx => (pushColors self idx).map Prod.fst
  | .pop idx => (popColors self idx).map Prod.fst
  | .change what => some { self with toPalette := self.apply what }

end Smelly
