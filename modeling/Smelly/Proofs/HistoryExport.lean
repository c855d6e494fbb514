/-
Module: Smelly.Proofs.HistoryExport
Purpose: The order in which the lines of the scrollback are exported, against the order in which
  they were added.
Trusted boundary: none
-/
import Smelly.Core.LineAnsi
import Smelly.Proofs.HistoryBufView

namespace Smelly

open Checked

variable (codepointForMark : UInt16 → UInt32)

/-- The export is the ANSI form of the lines with the numbers `count - 1`, …, 0, which is from the
oldest to the newest, each once. -/
def ExportsOldestFirst (self : HistoryBuf) : Prop :=
  historybufAsAnsi codepointForMark self = do
    let lines ← (List.range self.count).reverse.mapM (historybufInitLine self)
    ansiOfLines codepointForMark {} lines

/-- In a ring that starts at its first slot, the lines stand in the slots `0`, …, `count - 1`. -/
theorem slots_oldestFirst {self : HistoryBuf} (wf : self.WellFormed)
    (unturned : self.startOfData = 0 ∨ self.count = 0) :
    (List.range self.count).reverse.map (indexOf self) = List.range self.count := by
  apply List.ext_getElem
  · simp
  · intro i left right
    have fits := wf.countLe
    have inside : i < self.count := by simpa using right
    have start : self.startOfData = 0 := by omega
    have place : self.count - 1 - min (self.count - 1) (self.count - 1 - i) = i := by omega
    simp only [List.getElem_map, List.getElem_reverse, List.getElem_range, List.length_range]
    rw [indexOf, if_neg (by omega), place, start, Nat.zero_add, Nat.mod_eq_of_lt (by omega)]

theorem exportsOldestFirst_of_unturned {self : HistoryBuf} (wf : self.WellFormed)
    (unturned : self.startOfData = 0 ∨ self.count = 0) :
    ExportsOldestFirst codepointForMark self := by
  have slots : (List.range self.count).mapM (historybufInitSlot self) =
      (List.range self.count).reverse.mapM (historybufInitLine self) := by
    calc (List.range self.count).mapM (historybufInitSlot self)
        = ((List.range self.count).reverse.map (indexOf self)).mapM (historybufInitSlot self) := by
          rw [slots_oldestFirst wf unturned]
      _ = (List.range self.count).reverse.mapM (historybufInitLine self) := List.mapM_map
  rw [ExportsOldestFirst, historybufAsAnsi, slots]

/-! ### Blank lines -/

theorem trimmedLimit_blankRow (columns limit : Nat) (inside : limit ≤ columns) :
    trimmedLimit (blankRow columns) limit = some 0 := by
  induction limit with
  | zero => rfl
  | succ limit ih =>
    have cell : (blankRow columns)[limit]? = some Cell.zero := by
      rw [blankRow, List.getElem?_replicate, if_pos (by omega)]
    rw [trimmedLimit, cell, Option.bind_eq_bind, Option.bind_some, if_pos Cell.zero_ch]
    exact ih (by omega)

/-- A blank line shows its mark only. -/
theorem lineAsAnsi_blank {columns : Nat} (positive : 0 < columns) (attrs : LineAttrs)
    (prev : GPUCell) :
    lineAsAnsi codepointForMark { cells := blankRow columns, attrs := attrs } prev =
      some (promptMark attrs.promptKind, prev) := by
  have length : (blankRow columns).length = columns := by simp [blankRow]
  have first : (blankRow columns)[0]? = some Cell.zero := by
    rw [blankRow, List.getElem?_replicate, if_pos positive]
  have limit : xlimitForLine (blankRow columns) = some 0 := by
    rw [xlimitForLine, length, trimmedLimit_blankRow columns columns le_rfl]
    simp [positive, first, Cell.attrs]
  simp [lineAsAnsi, limit, cellsAsAnsi]

/-- The text of a blank line in the export. -/
def blankText (attrs : LineAttrs) : Text := promptMark attrs.promptKind ++ [Ctl.LF]

theorem ansiOfLines_blank {columns : Nat} (positive : 0 < columns) (attrs : List LineAttrs)
    (prev : GPUCell) :
    ansiOfLines codepointForMark prev
        (attrs.map fun a => { cells := blankRow columns, attrs := a }) =
      some (attrs.map blankText) := by
  have last : (blankRow columns).getLast? = some Cell.zero := by
    rw [blankRow, List.getLast?_replicate, if_neg (by omega)]
  induction attrs with
  | nil => rfl
  | cons a attrs ih =>
    rw [List.map_cons, ansiOfLines, lineAsAnsi_blank codepointForMark positive]
    simp [last, ih, blankText, Cell.attrs]

/-! ### A ring that has turned -/

/-- The attributes of the lines of `markedRing`. -/
def markedAttrs (slot : Nat) : LineAttrs :=
  { promptKind := if slot = 0 then .outputStart else .unknownPromptKind }

/-- A ring of blank lines with a mark in its first slot. -/
def markedRing (self : HistoryBuf) : HistoryBuf :=
  { self with
    cells := List.replicate self.ynum (blankRow self.xnum)
    lineAttrs := (List.range self.ynum).map markedAttrs }

theorem markedRing_wellFormed {self : HistoryBuf} (wf : self.WellFormed) :
    (markedRing self).WellFormed where
  xnumPositive := wf.xnumPositive
  ynumPositive := wf.ynumPositive
  cellsLength := by simp [markedRing]
  rowLength := by
    intro row hrow
    rw [List.eq_of_mem_replicate hrow]
    simp [blankRow, markedRing]
  attrsLength := by simp [markedRing]
  startLt := wf.startLt
  countLe := wf.countLe

theorem markedRing_initSlot {self : HistoryBuf} (wf : self.WellFormed) {slot : Nat}
    (inside : slot < self.ynum) :
    historybufInitSlot (markedRing self) slot =
      some { cells := blankRow self.xnum, attrs := markedAttrs slot } := by
  have row (num : Nat) (h : num < self.ynum) :
      (markedRing self).cells[num]? = some (blankRow self.xnum) := by
    rw [markedRing, List.getElem?_replicate, if_pos h]
  have attrs : (markedRing self).lineAttrs[slot]? = some (markedAttrs slot) := by
    simp [markedRing, inside]
  have last : (blankRow self.xnum)[(markedRing self).xnum - 1]? = some Cell.zero := by
    have positive := wf.xnumPositive
    rw [blankRow, List.getElem?_replicate, if_pos (by simp only [markedRing]; omega)]
  rw [historybufInitSlot, row slot inside, attrs]
  by_cases first : 0 < slot
  · simp [first, HistoryBuf.lastCellWrapped, row (slot - 1) (by omega), last, markedAttrs]
  · simp [first, markedAttrs]

/-- Where a function answers on every element, so does `mapM`. -/
theorem mapM_of_some {α β : Type} {f : α → Option β} {g : α → β} {l : List α}
    (answers : ∀ a ∈ l, f a = some (g a)) : l.mapM f = some (l.map g) := by
  induction l with
  | nil => rfl
  | cons a l ih =>
    rw [List.mapM_cons, answers a List.mem_cons_self,
      ih fun b hb => answers b (List.mem_cons_of_mem a hb)]
    rfl

/-- What is printed of lines in slots of the marked ring. -/
theorem markedRing_printed {self : HistoryBuf} (wf : self.WellFormed) (slots : List Nat)
    (inside : ∀ slot ∈ slots, slot < self.ynum) :
    (do let lines ← slots.mapM (historybufInitSlot (markedRing self))
        ansiOfLines codepointForMark {} lines) =
      some (slots.map fun slot => blankText (markedAttrs slot)) := by
  have lines := mapM_of_some fun slot h => markedRing_initSlot wf (inside slot h)
  have texts := ansiOfLines_blank codepointForMark wf.xnumPositive (slots.map markedAttrs) {}
  rw [List.map_map, List.map_map] at texts
  rw [lines]
  exact texts

/-- The mark stands in front of the export, and of the lines from the oldest on only if the first
slot holds the oldest one. -/
theorem markedRing_exports {self : HistoryBuf} (wf : self.WellFormed)
    (exports : ExportsOldestFirst codepointForMark (markedRing self)) :
    self.startOfData = 0 ∨ self.count = 0 := by
  by_cases empty : self.count = 0
  · exact .inr empty
  have fits := wf.countLe
  have printed := markedRing_printed codepointForMark wf (List.range self.count) fun slot h => by
    have := List.mem_range.1 h
    omega
  have expected := markedRing_printed codepointForMark wf
    ((List.range self.count).reverse.map (indexOf self)) fun slot h => by
      obtain ⟨lnum, -, rfl⟩ := List.mem_map.1 h
      exact indexOf_lt wf lnum
  rw [List.mapM_map] at expected
  have same : (List.range self.count).map (fun slot => blankText (markedAttrs slot)) =
      ((List.range self.count).reverse.map (indexOf self)).map
        fun slot => blankText (markedAttrs slot) :=
    Option.some.inj (printed.symm.trans (exports.trans expected))
  -- the first text of both
  have oldest : indexOf self (self.count - 1) = self.startOfData := by
    have place : self.count - 1 - min (self.count - 1) (self.count - 1) = 0 := by omega
    rw [indexOf, if_neg empty, place, Nat.add_zero, Nat.mod_eq_of_lt wf.startLt]
  have first := congrArg (fun texts => texts[0]?) same
  have positive : 0 < self.count := by omega
  simp only [List.getElem?_map, List.getElem?_range positive,
    List.getElem?_reverse (show 0 < (List.range self.count).length by simpa using positive),
    List.length_range, Option.map_some] at first
  rw [List.getElem?_range (by omega), Nat.sub_zero] at first
  simp only [Option.map_some, oldest, Option.some.injEq] at first
  apply Or.inl
  by_contra turned
  simp [blankText, markedAttrs, turned, promptMark, writeMark] at first

/-- A ring exports its lines from the oldest to the newest, each once, whatever they hold, if and
only if it starts at its first slot or is empty. -/
theorem historybufAsAnsi_oldestFirst (self : HistoryBuf) (wf : self.WellFormed) :
    (∀ stored : HistoryBuf, stored.WellFormed → self.SameShape stored →
        ExportsOldestFirst codepointForMark stored) ↔
      self.startOfData = 0 ∨ self.count = 0 := by
  constructor
  · intro exports
    exact markedRing_exports codepointForMark wf
      (exports (markedRing self) (markedRing_wellFormed wf) ⟨rfl, rfl, rfl, rfl⟩)
  · intro unturned stored storedWf same
    apply exportsOldestFirst_of_unturned codepointForMark storedWf
    rw [same.start, same.count]
    exact unturned

/-- A scrollback of two lines and one column. -/
def letterRing (letters : List Char) (startOfData count : Nat) : HistoryBuf :=
  { blankHistorybuf 2 1 with
    cells := letters.map fun letter =>
      [{ cpu := { ch := ord letter }, gpu := { attrs := { width := 1 } } }]
    startOfData := startOfData
    count := count }

/-- Two lines in a new ring come out in the order they went in. -/
theorem historybufAsAnsi_oldestFirst_new :
    ExportsOldestFirst (fun _ => 0) (letterRing ['a', 'b'] 0 2) :=
  have wf : (letterRing ['a', 'b'] 0 2).WellFormed := by constructor <;> decide
  (historybufAsAnsi_oldestFirst (fun _ => 0) (letterRing ['a', 'b'] 0 2) wf).2 (.inl rfl) _ wf
    ⟨rfl, rfl, rfl, rfl⟩

/-- A third line takes the first slot, and is exported before the second. -/
theorem historybufAsAnsi_turned :
    historybufAddLine (letterRing ['a', 'b'] 0 2)
        { cells := [{ cpu := { ch := ord 'c' }, gpu := { attrs := { width := 1 } } }] } =
          some (letterRing ['c', 'b'] 1 2) ∧
      historybufAsAnsi (fun _ => 0) (letterRing ['c', 'b'] 1 2) =
        some [chars "c\n", chars "b\n"] ∧
      ¬ ExportsOldestFirst (fun _ => 0) (letterRing ['c', 'b'] 1 2) := by
  unfold ExportsOldestFirst
  decide

end Smelly
