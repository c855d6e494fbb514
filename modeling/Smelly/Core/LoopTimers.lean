/-
Module: Smelly.Core.LoopTimers
Purpose: The timers of the event loop of the command line tools.  A slice expression out of range is
  `none`.
Trusted boundary: human-reviewed model of tools/tui/loop/timers.go for a loop that runs
-/

namespace Smelly

namespace LoopTimers

/-- `timer`, with times and intervals in nanoseconds.  The list of the loop holds pointers; here a
timer is known by its `id`, which no other timer has. -/
structure Timer where
  interval : Int
  deadline : Int
  repeats : Bool
  id : Nat
deriving DecidableEq, Repr

/-- `update_deadline`. -/
def Timer.updateDeadline (now : Int) (t : Timer) : Timer :=
  { t with deadline := now + t.interval }

/-- `sort_timers`: a stable sort by deadline. -/
def sortTimers (timers : List Timer) : List Timer :=
  timers.mergeSort fun a b => ¬ b.deadline < a.deadline

/-- `add_timer`: the new list and the counter of the ids. -/
def addTimer (now interval : Int) (repeats : Bool) (timers : List Timer) (timerIdCounter : Nat) :
    List Timer × Nat :=
  let id := timerIdCounter + 1
  let t : Timer := { interval := interval, deadline := 0, repeats := repeats, id := id }
  (sortTimers (timers ++ [t.updateDeadline now]), id)

/-- `append(timers[:i], timers[i+1:]...)`. -/
def removeAt (i : Nat) (timers : List Timer) : Option (List Timer) :=
  if i + 1 ≤ timers.length then some (timers.take i ++ timers.drop (i + 1)) else none

/-- `remove_timer`. -/
def removeTimer (id : Nat) (timers : List Timer) : List Timer × Bool :=
  match timers.findIdx? fun t => t.id = id with
  | some i => (timers.take i ++ timers.drop (i + 1), true)
  | none => (timers, false)

/-- `now.After(t.deadline)`. -/
def Timer.due (now : Int) (t : Timer) : Bool := t.deadline < now

/-- What `dispatch_timers` keeps while it runs: the list of the loop, the callbacks made, and the
error that ended it. -/
structure Dispatch where
  timers : List Timer
  updated : Bool := false
  calls : List Nat := []
  error : Option String := none
deriving DecidableEq, Repr

/-- `update_deadline` of the timer with an id, wherever it is in the list. -/
def updateDeadlineOf (now : Int) (id : Nat) (timers : List Timer) : List Timer :=
  timers.map fun t => if t.id = id then t.updateDeadline now else t

/-- The loop of `dispatch_timers` over the rest of the copy, from index `i` on. -/
def dispatchLoop (callback : Nat → Option String) (now : Int) :
    (i : Nat) → List Timer → Dispatch → Option Dispatch
  | _, [], s => some s
  | i, t :: rest, s =>
    if t.due now then
      let s := { s with calls := s.calls ++ [t.id] }
      match callback t.id with
      | some err => some { s with error := some err }
      | none =>
        if t.repeats then
          dispatchLoop callback now (i + 1) rest
            { s with timers := updateDeadlineOf now t.id s.timers, updated := true }
        else
          match removeAt i s.timers with
          | some timers =>
            dispatchLoop callback now (i + 1) rest { s with timers := timers }
          | none => none
    else dispatchLoop callback now (i + 1) rest s

/-- `dispatch_timers`. -/
def dispatchTimers (callback : Nat → Option String) (now : Int) (timers : List Timer) :
    Option Dispatch :=
  match dispatchLoop callback now 0 timers { timers := timers } with
  | some s =>
    if s.error.isNone ∧ s.updated then some { s with timers := sortTimers s.timers } else some s
  | none => none

end LoopTimers

end Smelly
