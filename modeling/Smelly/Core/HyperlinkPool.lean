/-
Module: Smelly.Core.HyperlinkPool
Purpose: The hyperlinks of a screen: the pool of `hyperlink.c` that gives every link an id, its
  garbage collection, which numbers the links of all cells anew, and the changes of cells.
Trusted boundary: human-reviewed model of smelly/hyperlink.c and of remap_hyperlink_ids and
  set_active_hyperlink in smelly/screen.c, without an input method overlay; the cells are their
  hyperlink ids, in the order in which remap_hyperlink_ids visits the cells, and what an operation
  does to them is which old cell each new cell is a copy of
-/
import Smelly.Core.Charsets
import Mathlib.Algebra.Ring.Nat

namespace Smelly

/-- `HYPERLINK_MAX_NUMBER`. -/
def hyperlinkMaxNumber : Nat := 65535

/-- `MAX_ADDS_BEFORE_GC`. -/
def maxAddsBeforeGc : Nat := 256

/-- `HyperLinkEntry`. -/
structure HyperLinkEntry where
  key : Bytes
  id : Nat
deriving DecidableEq, Repr

/-- `HyperLinkPool`; the entries are in the order in which the hash table has them. -/
structure HyperLinkPool where
  hyperlinks : List HyperLinkEntry := []
  maxLinkId : Nat := 0
  numOfAddsSinceGarbageCollection : Nat := 0
deriving DecidableEq, Repr

/-- The part of a screen that has to do with hyperlinks. -/
structure LinkedScreen where
  pool : HyperLinkPool := {}
  cells : List Nat := []
  activeHyperlinkId : Nat := 0
deriving DecidableEq, Repr

/-- The key that `get_id_for_hyperlink` makes of an id and a URL. -/
def hyperlinkKey (id url : Bytes) : Bytes := (id.take 256 ++ 58 :: url).take 2046

/-- `get_hyperlink_for_id`, with the key. -/
def getHyperlinkForId (pool : HyperLinkPool) (id : Nat) : Option Bytes :=
  (pool.hyperlinks.find? fun s => s.id = id).map HyperLinkEntry.key

/-- `PROCESS_CELL` of `remap_hyperlink_ids` on cell after cell: the new cells, `map` and `num`. -/
def remapHyperlinkIds (map : Nat → Nat) (num : Nat) : List Nat → List Nat × (Nat → Nat) × Nat
  | [] => ([], map, num)
  | hid :: rest =>
    let (map, num) :=
      if hid ≠ 0 ∧ map hid = 0 then (fun id => if id = hid then num + 1 else map id, num + 1)
      else (map, num)
    let (cells, map', num) := remapHyperlinkIds map num rest
    ((if hid ≠ 0 then map hid else hid) :: cells, map', num)

/-- `screen_garbage_collect_hyperlink_pool`. -/
def screenGarbageCollectHyperlinkPool (self : LinkedScreen) : LinkedScreen :=
  let pool := { self.pool with numOfAddsSinceGarbageCollection := 0 }
  if pool.maxLinkId = 0 then { self with pool := pool }
  else
    let (cells, map, num) := remapHyperlinkIds (fun _ => 0) 0 self.cells
    if num ≠ 0 then
      let kept := pool.hyperlinks.filterMap fun s =>
        if map s.id ≠ 0 then some { s with id := map s.id } else none
      { self with
        cells := cells
        pool := { pool with
          hyperlinks := kept
          maxLinkId := kept.foldl (fun maxLinkId s => max maxLinkId s.id) 0 } }
    else
      { self with
        cells := cells
        pool := if pool.hyperlinks.isEmpty then pool
          else { pool with hyperlinks := [], maxLinkId := 0 } }

/-- The end of `get_id_for_hyperlink`, for a key that the pool does not have. -/
def addHyperlink (self : LinkedScreen) (key : Bytes) : LinkedScreen × Nat :=
  let self := if maxAddsBeforeGc ≤ self.pool.numOfAddsSinceGarbageCollection then
    screenGarbageCollectHyperlinkPool self else self
  let pool := self.pool
  let (hyperlinks, newId) :=
    match pool.hyperlinks with
    | oldest :: others =>
      if hyperlinkMaxNumber ≤ pool.maxLinkId then (others, oldest.id) else (pool.hyperlinks, 0)
    | [] => ([], 0)
  let maxLinkId := if newId ≠ 0 then pool.maxLinkId else pool.maxLinkId + 1
  let id := if newId ≠ 0 then newId else maxLinkId % 2 ^ 16
  ({ self with pool :=
      { hyperlinks := hyperlinks ++ [{ key := key, id := id }]
        maxLinkId := maxLinkId
        numOfAddsSinceGarbageCollection := pool.numOfAddsSinceGarbageCollection + 1 } }, id)

/-- `get_id_for_hyperlink` for a URL; an entry that is found becomes the last one. -/
def getIdForHyperlink (self : LinkedScreen) (id url : Bytes) : LinkedScreen × Nat :=
  let key := hyperlinkKey id url
  match self.pool.hyperlinks.find? fun s => s.key = key with
  | some s =>
    ({ self with
      pool := { self.pool with hyperlinks := self.pool.hyperlinks.erase s ++ [s] } }, s.id)
  | none => addHyperlink self key

/-- `set_active_hyperlink`. -/
def setActiveHyperlink (self : LinkedScreen) (id url : Bytes) : LinkedScreen :=
  if url.isEmpty then { self with activeHyperlinkId := 0 }
  else
    let (self, hid) := getIdForHyperlink self id url
    { self with activeHyperlinkId := hid }

/-- Where the hyperlink of a cell comes from when cells change: the cell is blank, is drawn, or is a
copy of an old one. -/
inductive CellSource where
  | blank
  | drawn
  | copy (index : Nat)
deriving DecidableEq, Repr

inductive LinkEvent where
  | setActive (id url : Bytes)
  | change (sources : List CellSource)
deriving DecidableEq, Repr

/-- What a change makes of the cells, given what a drawn one gets. -/
def changeCells {α : Type} (blank drawn : α) (cells : List α) (sources : List CellSource) :
    List α :=
  sources.map fun
    | .blank => blank
    | .drawn => drawn
    | .copy index => cells.getD index blank

def linkStep (self : LinkedScreen) : LinkEvent → LinkedScreen
  | .setActive id url => setActiveHyperlink self id url
  | .change sources =>
    { self with cells := changeCells 0 self.activeHyperlinkId self.cells sources }

end Smelly
