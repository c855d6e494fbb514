/-
Module: Smelly.Core.SplitsLayout
Purpose: The Splits layout: the tree of pairs that places the window groups of a tab, the removal of
  groups and the collapse of redundant pairs, the balanced insertion, and the pass that gives every
  group its geometry.
Trusted boundary: human-reviewed model of Pair and Splits in smelly/layout/splits.py. Pair objects
  carry their address, so that `self.pairs_root` can name an object of the tree that a local
  variable still holds. Group ids count from 1, so that an id is never false. The borders
  between windows and the blank rectangles are left out; a geometry stands for the area it is
  computed from
-/
import Mathlib.Data.PNat.Notation
import Mathlib.Data.PNat.Basic
import Mathlib.Data.Rat.Defs

namespace Smelly

/-- The attributes of a `Pair` object besides its sides, and its address. -/
structure PairInfo where
  address : Nat
  horizontal : Bool := true
  bias : Rat := 1 / 2
deriving DecidableEq, Repr

/-- What `one` or `two` of a pair holds: `Optional[Union[Pair, int]]`. -/
inductive Side where
  | none
  | window (id : ℕ+)
  | pair (info : PairInfo) (one two : Side)
deriving DecidableEq

/-- `Pair`. -/
structure Pair where
  info : PairInfo
  one : Side := .none
  two : Side := .none
deriving DecidableEq

namespace Side

/-- The window ids below a side, in the order of `all_window_ids`. -/
def allWindowIds : Side → List ℕ+
  | .none => []
  | .window id => [id]
  | .pair _ one two => one.allWindowIds ++ two.allWindowIds

/-- The addresses of the pair objects below a side. -/
def addresses : Side → List Nat
  | .none => []
  | .window _ => []
  | .pair info one two => info.address :: (one.addresses ++ two.addresses)

/-- The end of `Pair.remove_windows`: a lone second side becomes the first. -/
def settle (info : PairInfo) : Side → Side → Pair
  | .none, two => { info, one := two, two := .none }
  | one, two => { info, one, two }

/-- What a side holds after `pair.remove_windows` ran for every pair of the tree.  A pair is never
taken out here, so that each pair can settle after its sides. -/
def removeWindows (windowIds : List ℕ+) : Side → Side
  | .none => .none
  | .window id => if id ∈ windowIds then .none else .window id
  | .pair info one two =>
    let pair := settle info (one.removeWindows windowIds) (two.removeWindows windowIds)
    .pair pair.info pair.one pair.two

/-- What a side holds after the loop of `collapse_redundant_pairs` over it and, where it ends at a
pair, the call for that pair. -/
def collapse : Side → Side
  | .pair _ .none two => two.collapse
  | .pair _ one .none => one.collapse
  | .pair info one two => .pair info one.collapse two.collapse
  | side => side

/-- The branch of `balanced_add` for a pair with an empty side. -/
def fill (info : PairInfo) (windowId : ℕ+) : Side → Side → Side
  | .none, .none => .pair info (.window windowId) .none
  | .none, two => .pair info two (.window windowId)
  | one, _ => .pair info one (.window windowId)

/-- `balanced_add` of the pair a side holds; `address` is that of the pair it may create. -/
def balancedAdd (windowId : ℕ+) (address : Nat) : Side → Side
  | .pair info .none two => fill info windowId .none two
  | .pair info one .none => fill info windowId one .none
  | .pair info (.pair infoOne one one') (.pair infoTwo two two') =>
    if (Side.pair infoOne one one').allWindowIds.length <
        (Side.pair infoTwo two two').allWindowIds.length then
      .pair info ((Side.pair infoOne one one').balancedAdd windowId address)
        (.pair infoTwo two two')
    else
      .pair info (.pair infoOne one one')
        ((Side.pair infoTwo two two').balancedAdd windowId address)
  | .pair info (.window one) (.window two) =>
    .pair info (.pair { address, horizontal := info.horizontal } (.window one) (.window two))
      (.window windowId)
  | .pair info (.pair infoOne one one') (.window windowToBeSplit) =>
    .pair info (.pair infoOne one one')
      (.pair { address, horizontal := info.horizontal } (.window windowToBeSplit)
        (.window windowId))
  | .pair info (.window windowToBeSplit) (.pair infoTwo two two') =>
    .pair info
      (.pair { address, horizontal := info.horizontal } (.window windowToBeSplit)
        (.window windowId))
      (.pair infoTwo two two')
  | side => side

/-- The pair with this address below a side. -/
def find? (address : Nat) : Side → Option Pair
  | .pair info one two =>
    if info.address = address then some { info, one, two }
    else (one.find? address).or (two.find? address)
  | _ => Option.none

end Side

namespace Pair

/-- The pair as the side of another. -/
def side (self : Pair) : Side := .pair self.info self.one self.two

/-- `all_window_ids`. -/
def allWindowIds (self : Pair) : List ℕ+ := self.side.allWindowIds

/-- `remove_windows` for `self` and every pair below it, as `Splits.remove_windows` calls it. -/
def removeWindows (self : Pair) (windowIds : List ℕ+) : Pair :=
  Side.settle self.info (self.one.removeWindows windowIds) (self.two.removeWindows windowIds)

/-- `collapse_redundant_pairs`. -/
def collapseRedundantPairs (self : Pair) : Pair :=
  { self with one := self.one.collapse, two := self.two.collapse }

/-- `balanced_add`. -/
def balancedAdd (self : Pair) (windowId : ℕ+) (address : Nat) : Pair :=
  match self.side.balancedAdd windowId address with
  | .pair info one two => { info, one, two }
  | _ => self

end Pair

/-! ### Geometry -/

/-- An area of the tab. -/
structure Area where
  left : Int
  top : Int
  width : Int
  height : Int
deriving DecidableEq, Repr

/-- What the layout uses of a window group. -/
structure LayoutGroup where
  id : ℕ+
  effectiveBorder : Int := 0
deriving DecidableEq, Repr

/-- The groups given to a layout; their ids are distinct. -/
structure LayoutGroups where
  groups : List LayoutGroup
  distinct : (groups.map LayoutGroup.id).Nodup

/-- The data of `lgd` that the layout reads; `portion bias length` is `int(bias * length)`, a product
of floats. -/
structure LayoutGlobalData where
  cellWidth : Int
  cellHeight : Int
  drawMinimalBorders : Bool
  central : Area
  portion : Rat → Int → Int

/-- A call of `set_geometry`: the group, and the area that its geometry is computed from. -/
structure Placement where
  id : ℕ+
  area : Area
deriving DecidableEq, Repr

/-- `id_window_map`. -/
def idWindowMap (groups : List LayoutGroup) (id : ℕ+) : Option LayoutGroup :=
  groups.find? (·.id = id)

namespace Side

/-- `effective_border` of the pair with these window ids: `none` for a `KeyError`. -/
def effectiveBorder (groups : List LayoutGroup) : List ℕ+ → Option Int
  | [] => some 0
  | wid :: _ => (idWindowMap groups wid).map LayoutGroup.effectiveBorder

/-- The border width of `layout_pair`. -/
def borderWidth (lgd : LayoutGlobalData) (groups : List LayoutGroup) (ids : List ℕ+) :
    Option Int :=
  if lgd.drawMinimalBorders then effectiveBorder groups ids else some 0

/-- The geometry of a window in an area. -/
def applyWindowGeometry (groups : List LayoutGroup) (wid : ℕ+) (area : Area) :
    Option (List Placement) :=
  (idWindowMap groups wid).map fun wg => [{ id := wg.id, area }]

/-- The areas of the two sides of a pair with the border width `bw`. -/
def areas (lgd : LayoutGlobalData) (info : PairInfo) (bw : Int) (area : Area) : Area × Area :=
  if info.horizontal then
    let w1 := max (2 * lgd.cellWidth + 1) (lgd.portion info.bias area.width - bw)
    let w2 := max (2 * lgd.cellWidth + 1) (area.width - w1 - bw * 2)
    ({ area with width := w1 }, { area with left := area.left + bw * 2 + w1, width := w2 })
  else
    let h1 := max (2 * lgd.cellHeight + 1) (lgd.portion info.bias area.height - bw)
    let h2 := max (2 * lgd.cellHeight + 1) (area.height - h1 - bw * 2)
    ({ area with height := h1 }, { area with top := area.top + bw * 2 + h1, height := h2 })

/-- `layout_pair` of the pair a side holds, or the geometry of its window: the calls of
`set_geometry`, or `none` for a `KeyError`. -/
def layOut (lgd : LayoutGlobalData) (groups : List LayoutGroup) :
    Side → Area → Option (List Placement)
  | .none, _ => some []
  | .window id, area => applyWindowGeometry groups id area
  | .pair info one two, area => do
      let bw ← borderWidth lgd groups (one.allWindowIds ++ two.allWindowIds)
      match one, two with
      | .none, two => two.layOut lgd groups area
      | one, .none => one.layOut lgd groups area
      | one, two =>
        let placedOne ← one.layOut lgd groups (areas lgd info bw area).1
        let placedTwo ← two.layOut lgd groups (areas lgd info bw area).2
        return placedOne ++ placedTwo

end Side

/-- `layout_pair`. -/
def Pair.layoutPair (self : Pair) (lgd : LayoutGlobalData) (groups : List LayoutGroup)
    (area : Area) : Option (List Placement) :=
  self.side.layOut lgd groups area

/-! ### The layout -/

/-- `Splits`; `nextAddress` is the address of the next pair object. -/
structure Splits where
  defaultAxisIsHorizontal : Bool := true
  root : Option Pair := none
  nextAddress : Nat := 0
deriving DecidableEq

namespace Splits

/-- The property `pairs_root`, which makes the root when there is none. -/
def pairsRoot (self : Splits) : Pair :=
  self.root.getD
    { info := { address := self.nextAddress, horizontal := self.defaultAxisIsHorizontal } }

/-- The end of `Splits.remove_windows`: the address of the object that is the root afterwards. -/
def rootAddress (root : Pair) : Nat :=
  match root.one, root.two with
  | .none, .pair info _ _ => info.address
  | .pair info _ _, .none => info.address
  | _, _ => root.info.address

/-- The end of `Splits.remove_windows`: the object that is the root afterwards. -/
def rootPair (root : Pair) : Pair :=
  match root.one, root.two with
  | .none, .pair info one two => { info, one, two }
  | .pair info one two, .none => { info, one, two }
  | _, _ => root

/-- `Splits.remove_windows`: the object that was the root, and the address of the object that is the
root afterwards. -/
def removeWindows (root : Pair) (windowsToRemove : List ℕ+) : Pair × Nat :=
  let root := (root.removeWindows windowsToRemove).collapseRedundantPairs
  (root, rootAddress root)

/-- The placed windows without a group. -/
def windowsToRemove (root : Pair) (groups : List LayoutGroup) : List ℕ+ :=
  root.allWindowIds.filter (· ∉ groups.map LayoutGroup.id)

/-- The groups without a place, in the order of the groups. -/
def windowsToAdd (root : Pair) (groups : List LayoutGroup) : List ℕ+ :=
  (groups.map LayoutGroup.id).filter (· ∉ root.allWindowIds)

/-- The loop of `do_layout` over `windows_to_add`. -/
def addWindows : Pair → Nat → List ℕ+ → Pair × Nat
  | root, nextAddress, [] => (root, nextAddress)
  | root, nextAddress, wid :: rest =>
    addWindows (root.balancedAdd wid nextAddress) (nextAddress + 1) rest

/-- The removal in `do_layout`, when there is something to remove. -/
def removal (root : Pair) (groups : List LayoutGroup) : Pair × Nat :=
  if windowsToRemove root groups ≠ [] then removeWindows root (windowsToRemove root groups)
  else (root, root.info.address)

/-- The end of `do_layout`; the geometry of a lone group is that of `layout_single_window_group`. -/
def layOutGroups (root : Pair) (lgd : LayoutGlobalData) (groups : List LayoutGroup) :
    Option (List Placement) :=
  match groups with
  | [wg] => some [{ id := wg.id, area := lgd.central }]
  | _ => root.layoutPair lgd groups lgd.central

/-- `do_layout`: the layout afterwards and the calls of `set_geometry`, or `none` for a `KeyError`.
The windows are added to the object that was the root before the removal. -/
def doLayout (self : Splits) (lgd : LayoutGlobalData) (groups : List LayoutGroup) :
    Option (Splits × List Placement) := do
  let root := self.pairsRoot
  let nextAddress := if self.root.isSome then self.nextAddress else self.nextAddress + 1
  let removed := removal root groups
  let added := addWindows removed.1 nextAddress (windowsToAdd root groups)
  let placements ← layOutGroups added.1 lgd groups
  return ({ self with root := added.1.side.find? removed.2, nextAddress := added.2 }, placements)

end Splits

end Smelly
