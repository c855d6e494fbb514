/-
Module: Smelly.Core.SplitsActions
Purpose: The edits of a tree of pairs: splitting the pair of a window, swapping two windows, and the
  layout actions that rotate a pair and move a window to a screen edge.
Trusted boundary: human-reviewed model of Pair.pair_for_window, Pair.split_and_add,
  Pair.swap_windows and Splits.layout_action in smelly/layout/splits.py. Assigning to attributes of
  a pair object that `pair_for_window` returned changes the pair with its address in the tree
-/
import Smelly.Core.SplitsLayout

namespace Smelly

namespace Side

/-- `self_and_descendants` of the pair a side holds. -/
def pairs : Side → List Pair
  | .pair info one two => { info, one, two } :: (one.pairs ++ two.pairs)
  | _ => []

/-- `pair_for_window` of the pair a side holds. -/
def pairForWindow (windowId : ℕ+) : Side → Option Pair
  | .pair info one two =>
    if one = .window windowId ∨ two = .window windowId then some { info, one, two }
    else (one.pairForWindow windowId).or (two.pairForWindow windowId)
  | _ => Option.none

/-- Assign to attributes of the pair object with an address. -/
def modifyPair (address : Nat) (change : Pair → Pair) : Side → Side
  | .pair info one two =>
    let self : Pair :=
      { info, one := one.modifyPair address change, two := two.modifyPair address change }
    (if info.address = address then change self else self).side
  | side => side

end Side

namespace Pair

/-- `is_redundant`. -/
def isRedundant (self : Pair) : Bool := self.one = .none ∨ self.two = .none

/-- `pair_for_window`. -/
def pairForWindow (self : Pair) (windowId : ℕ+) : Option Pair := self.side.pairForWindow windowId

/-- Assign to attributes of the object with an address in the tree of `self`. -/
def modifyPair (self : Pair) (address : Nat) (change : Pair → Pair) : Pair :=
  match self.side.modifyPair address change with
  | .pair info one two => { info, one, two }
  | _ => self

/-- `split_and_add`; `address` is that of the pair it may create. -/
def splitAndAdd (self : Pair) (existingWindowId newWindowId : ℕ+) (horizontal after : Bool)
    (address : Nat) : Pair :=
  let q := if after then (existingWindowId, newWindowId) else (newWindowId, existingWindowId)
  if self.isRedundant then
    { info := { self.info with horizontal }, one := .window q.1, two := .window q.2 }
  else
    let pair : Pair := { info := { address, horizontal } }
    let pair := (pair.balancedAdd q.1 address).balancedAdd q.2 address
    if self.one = .window existingWindowId then { self with one := pair.side }
    else { self with two := pair.side }

end Pair

namespace Splits

/-- `split_and_add` of the pair of an existing window, as `add_non_overlay_window` calls it. -/
def splitWindow (root : Pair) (existingWindowId newWindowId : ℕ+) (horizontal after : Bool)
    (address : Nat) : Pair :=
  match root.pairForWindow existingWindowId with
  | some pair =>
    root.modifyPair pair.info.address
      (·.splitAndAdd existingWindowId newWindowId horizontal after address)
  | none => root

/-- `swap_windows`. -/
def swapWindows (root : Pair) (a b : ℕ+) : Pair :=
  match root.pairForWindow a, root.pairForWindow b with
  | some pa, some pb =>
    if pa.one = .window a then
      if pb.one = .window b then
        (root.modifyPair pa.info.address ({ · with one := pb.one })).modifyPair pb.info.address
          ({ · with one := pa.one })
      else
        (root.modifyPair pa.info.address ({ · with one := pb.two })).modifyPair pb.info.address
          ({ · with two := pa.one })
    else
      if pb.one = .window b then
        (root.modifyPair pa.info.address ({ · with two := pb.one })).modifyPair pb.info.address
          ({ · with one := pa.two })
      else
        (root.modifyPair pa.info.address ({ · with two := pb.two })).modifyPair pb.info.address
          ({ · with two := pa.two })
  | _, _ => root

/-- The action `rotate` for the active group; `arg` is the number it is given, or 90. -/
def rotate (root : Pair) (wid : ℕ+) (arg : Int) : Pair :=
  let amt := if arg = 90 ∨ arg = 180 ∨ arg = 270 then arg else 90
  let rotate := amt = 90 ∨ amt = 270
  let swap := amt = 180 ∨ amt = 270
  match root.pairForWindow wid with
  | some pair =>
    if pair.isRedundant then root
    else
      let root :=
        if rotate then
          root.modifyPair pair.info.address fun pair =>
            { pair with info := { pair.info with horizontal := !pair.info.horizontal } }
        else root
      if swap then
        root.modifyPair pair.info.address fun pair =>
          { pair with one := pair.two, two := pair.one }
      else root
  | none => root

/-- The argument of the action `move_to_screen_edge`; any other word does what `bottom` does. -/
inductive ScreenEdge where
  | left
  | top
  | right
  | bottom
deriving DecidableEq, Repr

/-- The action `move_to_screen_edge` for the active group; `address` is that of the new root. -/
def moveToScreenEdge (root : Pair) (wid : ℕ+) (which : ScreenEdge) (address : Nat) : Pair :=
  let pairsRoot := rootPair (removeWindows root [wid]).1
  let newRoot : Pair :=
    { info := { address, horizontal := which = .left ∨ which = .right } }
  if which = .left ∨ which = .top then
    { newRoot.balancedAdd wid address with two := pairsRoot.side }
  else { newRoot with one := pairsRoot.side, two := .window wid }

end Splits

end Smelly
