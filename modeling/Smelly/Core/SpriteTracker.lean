/-
Module: Smelly.Core.SpriteTracker
Purpose: The places of rendered glyphs in the texture array: the counters of the sprite tracker and
  the table of the positions that glyphs were given.
Trusted boundary: human-reviewed model of the sprite functions of smelly/fonts.c with
  find_or_create_sprite_position of smelly/glyph-cache.c; whether memory is there is part of a
  request
-/
import Mathlib.Init
import Mathlib.Algebra.Ring.Nat

namespace Smelly

/-- `GPUSpriteTracker`. -/
structure SpriteTracker where
  maxY : Nat
  x : Nat := 0
  y : Nat := 0
  z : Nat := 0
  xnum : Nat
  ynum : Nat := 1
deriving DecidableEq, Repr

/-- The statics `max_texture_size` and `max_array_len`. -/
structure SpriteLimits where
  maxTextureSize : Nat := 1024
  maxArrayLen : Nat := 1024
deriving DecidableEq, Repr

/-- `sprite_tracker_set_limits`. -/
def spriteTrackerSetLimits (maxTextureSize maxArrayLen : Nat) : SpriteLimits :=
  { maxTextureSize, maxArrayLen := min 0xfff maxArrayLen }

/-- `sprite_tracker_set_layout`. -/
def spriteTrackerSetLayout (limits : SpriteLimits) (cellWidth cellHeight : Nat) : SpriteTracker :=
  { xnum := min (max 1 (limits.maxTextureSize / cellWidth)) 0xffff
    maxY := min (max 1 (limits.maxTextureSize / cellHeight)) 0xffff }

/-- What `z` stays below. -/
def SpriteLimits.layers (self : SpriteLimits) : Nat := min 0xffff self.maxArrayLen

/-- `do_increment`, with the value of `*error`, which is 0 before. -/
def doIncrement (limits : SpriteLimits) (self : SpriteTracker) : SpriteTracker × Nat :=
  let x := (self.x + 1) % 2 ^ 32
  if self.xnum ≤ x then
    let y := (self.y + 1) % 2 ^ 32
    let ynum := min (max self.ynum ((y + 1) % 2 ^ 32)) self.maxY
    if self.maxY ≤ y then
      let z := (self.z + 1) % 2 ^ 32
      ({ self with x := 0, y := 0, z, ynum }, if limits.layers ≤ z then 2 else 0)
    else ({ self with x := 0, y, ynum }, 0)
  else ({ self with x }, 0)

/-- The Python exception that `sprite_map_set_error` raises. -/
inductive SpriteError where
  | noMemory
  | runtimeError (message : String)
deriving DecidableEq, Repr

/-- `sprite_map_set_error`. -/
def spriteMapSetError (error : Nat) : SpriteError :=
  if error = 1 then .noMemory
  else if error = 2 then .runtimeError "Out of texture space for sprites"
  else .runtimeError "Unknown error occurred while allocating sprites"

/-- `SpritePosition`; `sprite_index` has 16 bits. -/
structure SpritePosition where
  x : Nat
  y : Nat
  z : Nat
deriving DecidableEq, Repr

/-- The key of a position, with the font whose table it is in. -/
structure SpriteKey where
  font : Nat
  glyphs : List UInt16
  ligatureIndex : Nat := 0
  cellCount : Nat := 1
deriving DecidableEq, Repr

/-- The part of `FontGroup` that the sprites are in, with the tables of its fonts. -/
structure FontGroup where
  spriteTracker : SpriteTracker
  spritePositions : List (SpriteKey × SpritePosition) := []
deriving DecidableEq, Repr

/-- The arguments of `sprite_position_for`, and whether there is memory for the scratch space of the
key and for a new table item. -/
structure SpriteRequest where
  key : SpriteKey
  scratch : Bool := true
  item : Bool := true
deriving DecidableEq, Repr

/-- The position in the table. -/
def FontGroup.spritePosition? (self : FontGroup) (key : SpriteKey) : Option SpritePosition :=
  (self.spritePositions.find? fun entry => entry.1 = key).map Prod.snd

/-- `sprite_position_for`: the position, or the null pointer, and `*error`. -/
def spritePositionFor (limits : SpriteLimits) (fg : FontGroup) (request : SpriteRequest) :
    FontGroup × Option SpritePosition × Nat :=
  if request.scratch then
    match fg.spritePosition? request.key with
    | some s => (fg, some s, 0)
    | none =>
      if request.item then
        let tracker := fg.spriteTracker
        let s : SpritePosition :=
          { x := tracker.x % 2 ^ 16, y := tracker.y % 2 ^ 16, z := tracker.z % 2 ^ 16 }
        let (spriteTracker, error) := doIncrement limits tracker
        ({ spriteTracker, spritePositions := (request.key, s) :: fg.spritePositions }, some s,
          error)
      else (fg, none, 1)
  else (fg, none, 1)

end Smelly
