/-
Module: Smelly.Core.WindowList
Purpose: The windows of a tab: the list of all windows, the map from ids to windows, the groups in
  layout order, the index of the active group, and the history of active groups.
Trusted boundary: human-reviewed model of WindowGroup and WindowList in smelly/window_list.py.
  Window objects have distinct ids, so that a window stands for its object; what
  `notify_on_active_window_change` tells the windows and the tab is left out
-/
import Mathlib.Data.List.Basic
import Mathlib.Logic.Function.Basic

namespace Smelly

/-- A window object. -/
structure Window where
  id : Nat
deriving DecidableEq, Repr

/-- `WindowGroup`. -/
structure WindowGroup where
  id : Nat
  windows : List Window := []
deriving DecidableEq, Repr

def WindowGroup.activeWindowId (self : WindowGroup) : Nat :=
  match self.windows.getLast? with
  | some w => w.id
  | none => 0

/-- `WindowGroup.add_window`. -/
def WindowGroup.addWindow (self : WindowGroup) (window : Window) (headOfGroup : Bool) :
    WindowGroup :=
  { self with windows := if headOfGroup then window :: self.windows else self.windows ++ [window] }

/-- `WindowGroup.move_window_to_top_of_group`. -/
def WindowGroup.moveWindowToTopOfGroup (self : WindowGroup) (window : Window) :
    WindowGroup × Bool :=
  match self.windows.findIdx? (· = window) with
  | none => (self, false)
  | some idx =>
    if idx + 1 = self.windows.length then (self, false)
    else ({ self with windows := self.windows.eraseIdx idx ++ [window] }, true)

/-- `WindowGroup.remove_window`. -/
def WindowGroup.removeWindow (self : WindowGroup) (window : Window) : WindowGroup :=
  { self with windows := self.windows.erase window }

/-- `WindowOrId`. -/
inductive WindowOrId where
  | window (w : Window)
  | id (n : Nat)
deriving DecidableEq, Repr

/-- `WindowList`; `groupIdCounter` is the next value of the global `group_id_counter`. -/
structure WindowList where
  allWindows : List Window := []
  idMap : Nat → Option Window := fun _ => none
  groups : List WindowGroup := []
  activeGroupIdx : Int := -1
  activeGroupHistory : List Nat := []
  groupIdCounter : Nat := 1

/-- Indexing a list as Python does: negative indices count from the end. -/
def pyIndex {α : Type} (items : List α) (i : Int) : Option α :=
  if 0 ≤ i then items[i.toNat]?
  else if -items.length ≤ i then items[(items.length + i).toNat]?
  else none

/-- `wrap_increment`. -/
def wrapIncrement (val num delta : Int) : Int :=
  let mult := if delta < 0 then -1 else 1
  let delta := mult * ((delta.natAbs : Int) % num)
  (val + num + delta) % num

namespace WindowList

/-- The property `active_group`. -/
def activeGroup (self : WindowList) : Option WindowGroup :=
  pyIndex self.groups self.activeGroupIdx

/-- The property `active_window`. -/
def activeWindow (self : WindowList) : Option Window := do
  let g ← self.activeGroup
  self.idMap g.activeWindowId

/-- `x` as a window: `none` for the `KeyError` of an id that is not in `id_map`. -/
def resolve (self : WindowList) : WindowOrId → Option Window
  | .window w => some w
  | .id n => self.idMap n

/-- `group_idx_for_window` once the window is known. -/
def groupIdxForWindow (self : WindowList) (q : Window) : Option Nat :=
  self.groups.findIdx? fun g => decide (q ∈ g.windows)

/-- Remove a group id from a deque of length 64 and append it. -/
def recordHistory (history : List Nat) (groupId : Nat) : List Nat :=
  let history := history.erase groupId ++ [groupId]
  history.drop (history.length - 64)

/-- `set_active_group_idx`, and whether the active window has changed. -/
def setActiveGroupIdx (self : WindowList) (i : Int) : WindowList × Bool :=
  if i ≠ self.activeGroupIdx ∧ 0 ≤ i ∧ i < self.groups.length then
    let next := { self with
      activeGroupHistory := match self.activeGroup with
        | some g => recordHistory self.activeGroupHistory g.id
        | none => self.activeGroupHistory
      activeGroupIdx := i }
    (next, decide (self.activeWindow ≠ next.activeWindow))
  else (self, false)

/-- `set_active_group`. -/
def setActiveGroup (self : WindowList) (groupId : Nat) : WindowList × Bool :=
  match self.groups.findIdx? (·.id = groupId) with
  | some i => self.setActiveGroupIdx i
  | none => (self, false)

/-- The loop of `make_previous_group_active` over the history, newest first.  Group ids are
distinct, so that `gid_map` has the only index of an id. -/
def previousGroup (groups : List WindowGroup) : List Nat → Int → Option Nat
  | [], _ => none
  | gid :: rest, which =>
    match groups.findIdx? (·.id = gid) with
    | some x => if which - 1 < 1 then some x else previousGroup groups rest (which - 1)
    | none => previousGroup groups rest which

/-- `make_previous_group_active`. -/
def makePreviousGroupActive (self : WindowList) (which : Int) : WindowList :=
  match previousGroup self.groups self.activeGroupHistory.reverse (max 1 which) with
  | some x => (self.setActiveGroupIdx x).1
  | none => (self.setActiveGroupIdx (self.groups.length - 1)).1

/-- `move_window_to_top_of_group`. -/
def moveWindowToTopOfGroup (self : WindowList) (window : Window) : WindowList × Bool :=
  match self.groupIdxForWindow window with
  | none => (self, false)
  | some i =>
    match self.groups[i]? with
    | none => (self, false)
    | some g =>
      let (g, moved) := g.moveWindowToTopOfGroup window
      if moved then
        let next := { self with groups := self.groups.set i g }
        (next, decide (self.activeWindow ≠ next.activeWindow))
      else (self, false)

/-- `set_active_window_group_for`. -/
def setActiveWindowGroupFor (self : WindowList) (x : WindowOrId) (forKeepFocus : Option Window) :
    WindowList :=
  match self.resolve x with
  | none => self
  | some q =>
    match self.groupIdxForWindow q with
    | none => self
    | some i =>
      let next := (self.setActiveGroupIdx i).1
      let h := next.activeGroupHistory
      match forKeepFocus with
      | none => next
      | some keep =>
        if 2 < h.length ∧ pyIndex h (-2) = some keep.id ∧ pyIndex h (-1) ≠ some keep.id then
          { next with activeGroupHistory := h.dropLast.dropLast }
        else next

/-! ### Adding and removing windows -/

/-- The first two statements of `add_window`. -/
def register (self : WindowList) (window : Window) : WindowList :=
  { self with
    allWindows := self.allWindows ++ [window]
    idMap := Function.update self.idMap window.id (some window) }

/-- `WindowGroup()`, inserted before the group at `pos`. -/
def insertGroup (self : WindowList) (pos : Nat) : WindowList :=
  { self with
    groups := self.groups.insertIdx pos { id := self.groupIdCounter }
    groupIdCounter := self.groupIdCounter + 1 }

/-- The group of an optional argument of `add_window`: `none` for a `KeyError`. -/
def lookupGroup (self : WindowList) : Option WindowOrId → Option (Option Nat)
  | none => some none
  | some x => (self.resolve x).map self.groupIdxForWindow

/-- The group that `add_window` adds to, by its position, and the groups with it: `none` for a
`KeyError`. -/
def targetGroup (self : WindowList) (groupOf nextTo : Option WindowOrId) (before : Bool) :
    Option (WindowList × Nat) := do
  let inGroup ← self.lookupGroup groupOf
  match inGroup with
  | some i => some (self, i)
  | none =>
    let beside ← self.lookupGroup nextTo
    let pos := match beside with
      | some pos => pos + (if before then 0 else 1)
      | none => if before then 0 else self.groups.length
    some (self.insertGroup pos, pos)

/-- `add_window`.  After a `KeyError` the window is registered and in no group. -/
def addWindow (self : WindowList) (window : Window) (groupOf nextTo : Option WindowOrId)
    (before makeActive headOfGroup : Bool) : WindowList :=
  let self := self.register window
  match self.targetGroup groupOf nextTo before with
  | none => self
  | some (self, i) =>
    let self := { self with groups := self.groups.modify i (·.addWindow window headOfGroup) }
    if makeActive then (self.setActiveGroupIdx i).1 else self

/-- What `remove_window` does about the group at `i` when it has become empty. -/
def deleteGroup (self : WindowList) (i : Nat) : WindowList :=
  let self := { self with groups := self.groups.eraseIdx i }
  if self.groups ≠ [] then
    if self.activeGroupIdx = (i : Int) then self.makePreviousGroupActive 1
    else if (self.groups.length : Int) ≤ self.activeGroupIdx then
      { self with activeGroupIdx := self.activeGroupIdx - 1 }
    else self
  else { self with activeGroupIdx := -1 }

/-- The loop of `remove_window` over the groups as they were, from the one at `i` on. -/
def removeFromGroups (q : Window) :
    (i : Nat) → (rest : List WindowGroup) → WindowList → WindowList
  | _, [], self => self
  | i, g :: rest, self =>
    let g := g.removeWindow q
    let self := { self with groups := self.groups.set i g }
    if g.windows = [] then self.deleteGroup i else removeFromGroups q (i + 1) rest self

/-- `remove_window`; an unknown id raises `KeyError` before anything is changed. -/
def removeWindow (self : WindowList) (x : WindowOrId) : WindowList :=
  match self.resolve x with
  | none => self
  | some q =>
    removeFromGroups q 0 self.groups { self with
      allWindows := self.allWindows.erase q
      idMap := Function.update self.idMap q.id none }

/-! ### Moving groups -/

/-- `activate_next_window_group`; without groups the division by zero raises. -/
def activateNextWindowGroup (self : WindowList) (delta : Int) : WindowList :=
  if self.groups = [] then self
  else (self.setActiveGroupIdx (wrapIncrement self.activeGroupIdx self.groups.length delta)).1

/-- `self.groups[i], self.groups[j] = self.groups[j], self.groups[i]`. -/
def swapGroups (self : WindowList) (i j : Nat) : WindowList :=
  match self.groups[i]?, self.groups[j]? with
  | some g, some h => { self with groups := (self.groups.set i h).set j g }
  | _, _ => self

/-- `move_window_group`. -/
def moveWindowGroup (self : WindowList) (by_ : Option Int) (toGroup : Option Nat) :
    WindowList × Bool :=
  if self.activeGroupIdx < 0 ∨ self.groups = [] then (self, false)
  else
    let target : Int := match by_ with
      | none => -1
      | some delta => wrapIncrement self.activeGroupIdx self.groups.length delta
    let target : Int := match toGroup with
      | none => target
      | some gid =>
        match self.groups.findIdx? (·.id = gid) with
        | some i => i
        | none => target
    if target > -1 then
      if target = self.activeGroupIdx then (self, false)
      else
        (((self.swapGroups self.activeGroupIdx.toNat target.toNat).setActiveGroupIdx target).1,
          true)
    else (self, false)

end WindowList

/-- The operations on a window list, and a group made in another one. -/
inductive WindowEvent where
  | addWindow (window : Window) (groupOf nextTo : Option WindowOrId)
      (before makeActive headOfGroup : Bool)
  | removeWindow (x : WindowOrId)
  | setActiveGroupIdx (i : Int)
  | setActiveGroup (groupId : Nat)
  | setActiveWindowGroupFor (x : WindowOrId) (forKeepFocus : Option Window)
  | makePreviousGroupActive (which : Int)
  | activateNextWindowGroup (delta : Int)
  | moveWindowToTopOfGroup (window : Window)
  | moveWindowGroup (by_ : Option Int) (toGroup : Option Nat)
  | groupElsewhere
deriving DecidableEq, Repr

/-- One operation.  None of them is refused; one that raises leaves what it has done until then. -/
def windowStep (self : WindowList) : WindowEvent → Option WindowList
  | .addWindow window groupOf nextTo before makeActive headOfGroup =>
    some (self.addWindow window groupOf nextTo before makeActive headOfGroup)
  | .removeWindow x => some (self.removeWindow x)
  | .setActiveGroupIdx i => some (self.setActiveGroupIdx i).1
  | .setActiveGroup groupId => some (self.setActiveGroup groupId).1
  | .setActiveWindowGroupFor x forKeepFocus =>
    some (self.setActiveWindowGroupFor x forKeepFocus)
  | .makePreviousGroupActive which => some (self.makePreviousGroupActive which)
  | .activateNextWindowGroup delta => some (self.activateNextWindowGroup delta)
  | .moveWindowToTopOfGroup window => some (self.moveWindowToTopOfGroup window).1
  | .moveWindowGroup by_ toGroup => some (self.moveWindowGroup by_ toGroup).1
  | .groupElsewhere => some { self with groupIdCounter := self.groupIdCounter + 1 }

end Smelly
