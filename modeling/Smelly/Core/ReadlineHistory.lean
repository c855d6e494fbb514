/-
Module: Smelly.Core.ReadlineHistory
Purpose: The command history of a readline session and the file it shares with other sessions: items
  that are added, read from the file and written to it.
Trusted boundary: human-reviewed model of tools/tui/readline/history.go.  The file is what
  json.Unmarshal finds in it, times are instants; reading, locking and writing the file succeed
-/

namespace Smelly.Readline

/-- `HistoryItem`. -/
structure HistoryItem where
  cmd : String
  cwd : String := ""
  timestamp : Int
  duration : Int := 0
  exitCode : Int := 0
deriving DecidableEq, Repr

/-- The items whose JSON is in the file; `none` where it holds no JSON, as a file that was just
created. -/
abbrev HistoryFile := Option (List HistoryItem)

/-- `History`. -/
structure History where
  hasFile : Bool
  maxItems : Nat
  items : List HistoryItem := []
  cmdMap : String → Option Nat := fun _ => none

/-- `map_from_items`, for items that start at an index. -/
def mapFrom (pmap : String → Option Nat) (i : Nat) : List HistoryItem → String → Option Nat
  | [] => pmap
  | hi :: rest => mapFrom (fun cmd => if cmd = hi.cmd then some i else pmap cmd) (i + 1) rest

/-- `map_from_items`. -/
def mapFromItems (items : List HistoryItem) : String → Option Nat := mapFrom (fun _ => none) 0 items

/-- `utils.StableSort` by time. -/
def sortByTime (items : List HistoryItem) : List HistoryItem :=
  items.mergeSort fun a b => !decide (b.timestamp < a.timestamp)

namespace History

/-- `add_item`; `none` where the index of the map is not one of the items. -/
def addItem (self : History) (x : HistoryItem) : Option (History × Bool) :=
  match self.cmdMap x.cmd with
  | some existing => do
      let old ← self.items[existing]?
      if old.timestamp < x.timestamp then
        some ({ self with items := self.items.set existing x }, true)
      else some (self, false)
  | none =>
    some ({ self with
      cmdMap := fun cmd => if cmd = x.cmd then some self.items.length else self.cmdMap cmd
      items := self.items ++ [x] }, true)

/-- The loop of `merge_items`, with its `changed`. -/
def addItems (self : History) (changed : Bool) : List HistoryItem → Option (History × Bool)
  | [] => some (self, changed)
  | x :: rest => do
      let (self, added) ← self.addItem x
      addItems self (changed || added) rest

/-- `merge_items`. -/
def mergeItems (self : History) (items : List HistoryItem) : Option History :=
  if self.items = [] then some { self with items := items, cmdMap := mapFromItems items }
  else if items = [] then some self
  else do
    let (self, changed) ← self.addItems false items
    if !changed then some self
    else
      let sorted := sortByTime self.items
      let sorted :=
        if sorted.length > self.maxItems then sorted.drop (sorted.length - self.maxItems) else sorted
      some { self with items := sorted, cmdMap := mapFromItems sorted }

/-- `Write`: the session and the file afterwards. -/
def write (self : History) (file : HistoryFile) : Option (History × HistoryFile) :=
  if !self.hasFile then some (self, file)
  else do
    let self ←
      (match file with
      -- `items` stays nil when there is an error, and the items are merged only then
      | none => self.mergeItems []
      | some _ => some self)
    some (self, some self.items)

/-- `Read`. -/
def read (self : History) (file : HistoryFile) : Option History :=
  if !self.hasFile then some self
  else
    match file with
    | none => some self
    | some items => self.mergeItems items

/-- `Shutdown`. -/
def shutdown (self : History) (file : HistoryFile) : Option (History × HistoryFile) :=
  if self.hasFile then do
    let (self, file) ← self.write file
    some ({ self with hasFile := false }, file)
  else some (self, file)

end History

/-- `NewHistory`, with the default of `New` for the number of items; `opened` is whether the file
could be opened. -/
def newHistory (opened : Bool) (historyCount : Nat) (file : HistoryFile) : Option History :=
  let hc := if historyCount = 0 then 8192 else historyCount
  { hasFile := opened, maxItems := hc : History }.read file

/-! ### Sessions that share a file -/

/-- What a session does with its history. -/
inductive HistoryEvent where
  | newHistory (opened : Bool)
  | addItem (session : Nat) (x : HistoryItem)
  | write (session : Nat)
  | shutdown (session : Nat)
deriving DecidableEq, Repr

/-- A session, and the items that were merged into its history so far: those it read and those that
were added. -/
structure HistorySession where
  history : History
  merged : List HistoryItem

/-- The file and the sessions that were started. -/
structure SharedHistory where
  file : HistoryFile := none
  sessions : List HistorySession := []

/-- One step of one of the sessions; the file is locked meanwhile. -/
def historyStep (historyCount : Nat) (s : SharedHistory) : HistoryEvent → Option SharedHistory
  | .newHistory opened => do
      let history ← newHistory opened historyCount s.file
      let merged := if opened then s.file.getD [] else []
      some { s with sessions := s.sessions ++ [{ history := history, merged := merged }] }
  | .addItem session x => do
      let self ← s.sessions[session]?
      let history ← self.history.mergeItems [x]
      some { s with
        sessions := s.sessions.set session { history := history, merged := self.merged ++ [x] } }
  | .write session => do
      let self ← s.sessions[session]?
      let (history, file) ← self.history.write s.file
      some { file := file, sessions := s.sessions.set session { self with history := history } }
  | .shutdown session => do
      let self ← s.sessions[session]?
      let (history, file) ← self.history.shutdown s.file
      some { file := file, sessions := s.sessions.set session { self with history := history } }

end Smelly.Readline
