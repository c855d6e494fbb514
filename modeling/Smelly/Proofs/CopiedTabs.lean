/-
Module: Smelly.Proofs.CopiedTabs
Purpose: Text with tabs typed on a blank line and copied from it: when the copy is the text.
Trusted boundary: none
-/
import Smelly.Core.LineUnicode
import Smelly.Core.ScreenDraw
import Smelly.Lib.Run
import Smelly.Proofs.CharacterShifts

namespace Smelly

open Checked Run

/-- Typing a text: a tab moves to the next tab stop, other characters are drawn. -/
def typeText (env : ScreenEnv) : ScreenState → List UInt32 → Option ScreenState :=
  run fun s ch => performOnScreen env {} s (if ch = Ctl.HT then .tab else .draw ch)

/-- The text of the cursor's line as it is copied. -/
def copiedLine (codepointForMark : UInt16 → UInt32) (skipZeroCells : Bool) (s : ScreenState) :
    Option (List UInt32) := do
  let row ← s.screen.linebuf.row s.screen.cursor.y
  lineAsUnicode codepointForMark row skipZeroCells

/-- The character is drawn as itself, in one cell. -/
structure Printable (env : ScreenEnv) (charset : Charset) (ch : UInt32) : Prop where
  notZero : ch ≠ 0
  notIgnored : env.tables.isIgnoredChar ch = false
  itself : (if ch < 256 then charset.translate ch else ch) = ch
  notCombining : env.tables.isCombiningChar ch = false
  narrow : env.tables.wcwidthStd ch = 1

section Texts

variable (tabstops : List Bool) (columns : Nat)

/-- The column behind a character that is typed at column `x`. -/
def columnAfter (x : Nat) (ch : UInt32) : Nat :=
  if ch = Ctl.HT then nextTabstop tabstops columns x else x + 1

/-- Every character is typed at a column of the line. -/
def FitsLine : (x : Nat) → List UInt32 → Prop
  | _, [] => True
  | x, ch :: rest => x < columns ∧ FitsLine (columnAfter tabstops columns x ch) rest

/-- No tab is typed in the last column, and none directly in front of a space. -/
def TabsKept : (x : Nat) → List UInt32 → Prop
  | _, [] => True
  | x, ch :: rest =>
    (ch = Ctl.HT → x + 1 < columns ∧ rest.head? ≠ some (ord ' ')) ∧
      TabsKept (columnAfter tabstops columns x ch) rest

/-- What is read back of a text: tabs in the last column are not stored, and the first space behind
a stored tab is taken for a cell the tab covers.  `pending` says that such a tab is in front. -/
def shownText : (pending : Bool) → (x : Nat) → List UInt32 → List UInt32
  | _, _, [] => []
  | pending, x, ch :: rest =>
    let after := columnAfter tabstops columns x ch
    if ch = Ctl.HT then
      if x + 1 < columns then Ctl.HT :: shownText true after rest
      else shownText pending after rest
    else if pending ∧ ch = ord ' ' then shownText false after rest
    else ch :: shownText false after rest

variable {tabstops columns}

theorem shownText_length_le (pending : Bool) (x : Nat) (text : List UInt32) :
    (shownText tabstops columns pending x text).length ≤ text.length := by
  induction text generalizing pending x with
  | nil => exact Nat.le_refl 0
  | cons ch rest ih =>
    simp only [shownText]
    split
    · split
      · exact Nat.succ_le_succ (ih _ _)
      · exact Nat.le_succ_of_le (ih _ _)
    · split
      · exact Nat.le_succ_of_le (ih _ _)
      · exact Nat.succ_le_succ (ih _ _)

theorem shownText_of_kept {pending : Bool} {x : Nat} {text : List UInt32}
    (kept : TabsKept tabstops columns x text)
    (first : pending = true → text.head? ≠ some (ord ' ')) :
    shownText tabstops columns pending x text = text := by
  induction text generalizing pending x with
  | nil => rfl
  | cons ch rest ih =>
    simp only [shownText]
    by_cases isTab : ch = Ctl.HT
    · obtain ⟨room, next⟩ := kept.1 isTab
      rw [if_pos isTab, if_pos room, ih kept.2 fun _ => next, isTab]
    · have shows : ¬ (pending = true ∧ ch = ord ' ') := by
        rintro ⟨waiting, space⟩
        exact first waiting (congrArg some space)
      rw [if_neg isTab, if_neg shows, ih kept.2 (fun h => Bool.noConfusion h)]

/-- Nothing is lost only if every tab is kept. -/
theorem kept_of_length {pending : Bool} {x : Nat} {text : List UInt32}
    (same : (shownText tabstops columns pending x text).length = text.length) :
    TabsKept tabstops columns x text ∧ (pending = true → text.head? ≠ some (ord ' ')) := by
  induction text generalizing pending x with
  | nil => exact ⟨trivial, fun _ => nofun⟩
  | cons ch rest ih =>
    have shorter := fun pending x =>
      @shownText_length_le tabstops columns pending x rest
    simp only [shownText] at same
    by_cases isTab : ch = Ctl.HT
    · have notSpace : some ch ≠ some (ord ' ') := by
        rw [isTab]
        decide
      rw [if_pos isTab] at same
      by_cases room : x + 1 < columns
      · rw [if_pos room] at same
        obtain ⟨kept, next⟩ := ih (Nat.succ.inj same)
        exact ⟨⟨fun _ => ⟨room, next rfl⟩, kept⟩, fun _ => notSpace⟩
      · rw [if_neg room] at same
        exact absurd (shorter pending (columnAfter tabstops columns x ch))
          (by rw [same]; exact Nat.not_succ_le_self _)
    · rw [if_neg isTab] at same
      by_cases swallowed : pending = true ∧ ch = ord ' '
      · rw [if_pos swallowed] at same
        exact absurd (shorter false (columnAfter tabstops columns x ch))
          (by rw [same]; exact Nat.not_succ_le_self _)
      · rw [if_neg swallowed] at same
        obtain ⟨kept, -⟩ := ih (Nat.succ.inj same)
        refine ⟨⟨fun tab => absurd tab isTab, kept⟩, ?_⟩
        intro waiting space
        exact swallowed ⟨waiting, Option.some.inj space⟩

/-- The copy, cut off where the buffer ends, is the text. -/
theorem shownText_take_iff (text : List UInt32) :
    (shownText tabstops columns false 0 text).take unicodeLimit = text ↔
      text.length ≤ unicodeLimit ∧ TabsKept tabstops columns 0 text := by
  constructor
  · intro same
    have length := congrArg List.length same
    rw [List.length_take] at length
    have shorter := @shownText_length_le tabstops columns false 0 text
    have short : text.length ≤ unicodeLimit := length ▸ Nat.min_le_left _ _
    have whole : text.length ≤ (shownText tabstops columns false 0 text).length :=
      length ▸ Nat.min_le_right _ _
    exact ⟨short, (kept_of_length (Nat.le_antisymm shorter whole)).1⟩
  · rintro ⟨short, kept⟩
    rw [shownText_of_kept kept (fun h => Bool.noConfusion h)]
    exact List.take_of_length_le short

/-! ### The cells of a text -/

/-- The cells a text leaves on a blank line: a tab covers the cells up to the next tab stop and
stores their number. -/
inductive Drawn (tabstops : List Bool) (columns : Nat) : Nat → List UInt32 → List Cell → Prop where
  | nil {x : Nat} : Drawn tabstops columns x [] []
  | char {x : Nat} {ch : UInt32} {rest : List UInt32} {cell : Cell} {cells : List Cell}
      (notTab : ch ≠ Ctl.HT) (notZero : ch ≠ 0) (same : cell.ch = ch)
      (noMarks : cell.cpu.ccIdx = Vector.replicate 3 0) (narrow : cell.attrs.width ≠ 2)
      (behind : Drawn tabstops columns (x + 1) rest cells) :
      Drawn tabstops columns x (ch :: rest) (cell :: cells)
  | tab {x : Nat} {rest : List UInt32} {tab : Cell} {pads cells : List Cell}
      (room : x + 1 < columns) (same : tab.ch = Ctl.HT) (narrow : tab.attrs.width ≠ 2)
      (covers : (getElem tab.cpu.ccIdx 0 firstSlot).toNat = pads.length + 1)
      (spaces : ∀ pad ∈ pads, pad.ch = ord ' ' ∧ pad.attrs.width ≠ 2)
      (behind : Drawn tabstops columns (nextTabstop tabstops columns x) rest cells) :
      Drawn tabstops columns x (Ctl.HT :: rest) (tab :: (pads ++ cells))
  | lost {x : Nat} {rest : List UInt32} {cells : List Cell} (full : ¬ x + 1 < columns)
      (behind : Drawn tabstops columns (nextTabstop tabstops columns x) rest cells) :
      Drawn tabstops columns x (Ctl.HT :: rest) cells

theorem Drawn.written {x : Nat} {text : List UInt32} {cells : List Cell}
    (drawn : Drawn tabstops columns x text cells) :
    ∀ cell ∈ cells, cell.ch ≠ 0 ∧ cell.attrs.width ≠ 2 := by
  induction drawn with
  | nil => exact nofun
  | char notTab notZero same noMarks narrow behind ih =>
    intro cell mem
    cases mem with
    | head => exact ⟨same ▸ notZero, narrow⟩
    | tail _ mem => exact ih cell mem
  | tab room same narrow covers spaces behind ih =>
    intro cell mem
    cases mem with
    | head => exact ⟨by rw [same]; decide, narrow⟩
    | tail _ mem =>
      cases List.mem_append.1 mem with
      | inl pad => exact ⟨by rw [(spaces cell pad).1]; decide, (spaces cell pad).2⟩
      | inr later => exact ih cell later
  | lost full behind ih => exact ih

variable (codepointForMark : UInt16 → UInt32) (skipZeroCells : Bool)

/-- The cells a tab covers are skipped, whatever is in front of them. -/
theorem unicodeCells_pads {pads : List Cell} (spaces : ∀ pad ∈ pads, pad.ch = ord ' ')
    (n skip : Nat) (cells : List Cell) :
    ∀ previousWidth, ∃ previousWidth', unicodeCells codepointForMark true skipZeroCells n
        previousWidth (pads.length + skip) (pads ++ cells) =
      unicodeCells codepointForMark true skipZeroCells n previousWidth' skip cells := by
  induction pads with
  | nil =>
    intro previousWidth
    refine ⟨previousWidth, ?_⟩
    rw [List.length_nil, Nat.zero_add, List.nil_append]
  | cons pad pads ih =>
    intro previousWidth
    obtain ⟨width, rest⟩ :=
      ih (fun p mem => spaces p (List.mem_cons_of_mem _ mem)) pad.attrs.width
    refine ⟨width, Eq.trans ?_ rest⟩
    have positive : 0 < (pad :: pads).length + skip := by
      rw [List.length_cons]
      omega
    rw [List.cons_append, unicodeCells, if_pos ⟨positive, spaces pad List.mem_cons_self⟩]
    congr 1
    simp only [List.length_cons]
    omega

theorem unicodeCells_char {ch : UInt32} {cell : Cell} (notTab : ch ≠ Ctl.HT) (notZero : ch ≠ 0)
    (same : cell.ch = ch) (noMarks : cell.cpu.ccIdx = Vector.replicate 3 0) (n previousWidth : Nat)
    {skip : Nat} (shows : ¬ (0 < skip ∧ ch = ord ' ')) (cells : List Cell)
    (room : n < unicodeLimit) :
    unicodeCells codepointForMark true skipZeroCells n previousWidth skip (cell :: cells) =
      ch :: unicodeCells codepointForMark true skipZeroCells (n + 1) cell.attrs.width 0 cells := by
  have text : cellAsUnicode codepointForMark cell.cpu true (ord ' ') = [ch] := by
    unfold cellAsUnicode markCodepoints
    rw [noMarks]
    have shown : cell.cpu.ch = ch := same
    rw [shown, if_neg notZero]
    rfl
  rw [unicodeCells, same, if_neg shows, if_neg (Nat.not_le_of_lt room),
    if_neg (fun h => notZero h.1), if_neg (fun h => notZero h.1), if_neg notTab]
  rw [text]
  rfl

/-- What the copy of the cells of a text is. -/
theorem unicodeCells_drawn {x : Nat} {text : List UInt32} {cells : List Cell}
    (drawn : Drawn tabstops columns x text cells) :
    ∀ n previousWidth skip, skip ≤ 1 →
      unicodeCells codepointForMark true skipZeroCells n previousWidth skip cells =
        (shownText tabstops columns (skip = 1) x text).take (unicodeLimit - n) := by
  induction drawn with
  | nil =>
    intro n previousWidth skip _
    rw [unicodeCells, shownText, List.take_nil]
  | @char x ch rest cell cells notTab notZero same noMarks narrow behind ih =>
    intro n previousWidth skip small
    have after : columnAfter tabstops columns x ch = x + 1 := if_neg notTab
    have positive : (0 < skip ∧ ch = ord ' ') ↔ (decide (skip = 1) = true ∧ ch = ord ' ') := by
      rw [decide_eq_true_iff]
      constructor
      · exact fun h => ⟨Nat.le_antisymm small h.1, h.2⟩
      · exact fun h => ⟨h.1 ▸ Nat.one_pos, h.2⟩
    simp only [shownText, if_neg notTab, after]
    by_cases swallowed : 0 < skip ∧ ch = ord ' '
    · rw [if_pos (positive.1 swallowed), unicodeCells, same, if_pos swallowed]
      rw [ih n _ _ (by omega)]
      have none_left : decide (skip - 1 = 1) = false := decide_eq_false (by omega)
      rw [none_left]
    · rw [if_neg (fun h => swallowed (positive.2 h))]
      by_cases room : n < unicodeLimit
      · rw [unicodeCells_char codepointForMark skipZeroCells notTab notZero same noMarks n _
          swallowed cells room, ih (n + 1) _ 0 (Nat.zero_le 1)]
        have more : unicodeLimit - n = (unicodeLimit - (n + 1)) + 1 := by omega
        rw [more]
        rfl
      · have full : unicodeLimit - n = 0 := by omega
        rw [full, List.take_zero, unicodeCells, same, if_neg swallowed,
          if_pos (Nat.le_of_not_lt room)]
  | @tab x rest tab pads cells room same narrow covers spaces behind ih =>
    intro n previousWidth skip small
    have notSpace : ¬ (0 < skip ∧ Ctl.HT = ord ' ') := fun h => absurd h.2 (by decide)
    have notZero : (Ctl.HT : UInt32) ≠ 0 := by decide
    simp only [shownText, if_pos room]
    by_cases fits : n < unicodeLimit
    · rw [unicodeCells, same, if_neg notSpace, if_neg (Nat.not_le_of_lt fits),
        if_neg (fun h => notZero h.1), if_neg (fun h => notZero h.1), if_pos rfl, covers]
      obtain ⟨width, skipped⟩ := unicodeCells_pads codepointForMark skipZeroCells
        (fun pad mem => (spaces pad mem).1) (n + 1) 1 cells tab.attrs.width
      rw [skipped, ih (n + 1) width 1 (Nat.le_refl 1)]
      have more : unicodeLimit - n = (unicodeLimit - (n + 1)) + 1 := by omega
      rw [more]
      rfl
    · have full : unicodeLimit - n = 0 := by omega
      rw [full, List.take_zero, unicodeCells, same, if_neg notSpace,
        if_pos (Nat.le_of_not_lt fits)]
  | @lost x rest cells full behind ih =>
    intro n previousWidth skip small
    simp only [shownText, if_neg full]
    exact ih n previousWidth skip small

end Texts

theorem nextTabstop_bounds (tabstops : List Bool) {columns x : Nat} (room : x + 1 < columns) :
    x < nextTabstop tabstops columns x ∧ nextTabstop tabstops columns x < columns := by
  unfold nextTabstop
  cases found : (List.range' (x + 1) (columns - (x + 1))).find? fun i => tabstops.getD i false with
  | none =>
    rw [Option.getD_none]
    omega
  | some i =>
    have mem := List.mem_of_find?_eq_some found
    rw [List.mem_range'_1] at mem
    rw [Option.getD_some]
    omega

/-- From the last column there is no tab stop to go to. -/
theorem nextTabstop_last (tabstops : List Bool) {columns x : Nat} (last : columns = x + 1) :
    nextTabstop tabstops columns x = x := by
  unfold nextTabstop
  rw [last, Nat.sub_self]
  rfl

/-! ### Typing -/

/-- A cell without a character that is not half of a wide one. -/
structure BlankCell (cell : Cell) : Prop where
  noChar : cell.ch = 0
  narrow : cell.attrs.width ≠ 2

/-- The cursor is behind `written` on a line whose other cells are blank. -/
structure Typing (s : ScreenState) (written tail : List Cell) : Prop where
  wellFormed : s.screen.linebuf.WellFormed
  xnum : s.screen.linebuf.xnum = s.screen.columns
  ynum : s.screen.linebuf.ynum = s.screen.lines
  column : s.screen.cursor.x = written.length
  line : s.screen.linebuf.rows[s.screen.cursor.y]? = some (written ++ tail)
  blank : ∀ cell ∈ tail, BlankCell cell

/-- What typing does not change. -/
structure SameSetup (s s' : ScreenState) : Prop where
  columns : s'.screen.columns = s.screen.columns
  tabstops : s'.tabstops = s.tabstops
  charset : s'.charsets.gCharset = s.charsets.gCharset

theorem setLinebuf_fields (self : Screen) (linebuf : LineBuf) :
    (self.setLinebuf linebuf).columns = self.columns ∧
      (self.setLinebuf linebuf).lines = self.lines ∧
      (self.setLinebuf linebuf).cursor = self.cursor := by
  unfold Screen.setLinebuf
  cases self.onMain with
  | true => exact ⟨rfl, rfl, rfl⟩
  | false => exact ⟨rfl, rfl, rfl⟩

theorem BlankCell.edgeCell {cell : Cell} (blank : BlankCell cell) : BlankCell (edgeCell cell) := by
  by_cases narrow : cell.gpu.attrs.width = 1
  · rw [edgeCell_narrow narrow]
    exact blank
  · rw [edgeCell_other narrow]
    constructor
    · exact (splitWideCell_erased cell).1
    · exact Nat.ne_of_lt Nat.two_pos

/-- Insert mode shifts the blank cells behind the cursor, which stay blank. -/
theorem rightShift_blank (written : List Cell) {tail : List Cell} (room : tail ≠ [])
    (blank : ∀ cell ∈ tail, BlankCell cell) :
    ∃ first tail', lineRightShift (written ++ tail) written.length 1 =
        some (written ++ first :: tail') ∧
      tail'.length + 1 = tail.length ∧ ∀ cell ∈ tail', BlankCell cell := by
  have positive : 0 < tail.length := List.length_pos_iff.2 room
  have length : (written ++ tail).length = written.length + tail.length := List.length_append
  obtain ⟨row, shiftEq, rowLength, before, moved⟩ :=
    @lineRightShift_spec (written ++ tail) written.length 1 (by omega) (by omega)
  have inside : written.length < row.length := by omega
  have front : row.take written.length = written := by
    apply List.ext_getElem?
    intro j
    by_cases below : j < written.length
    · rw [List.getElem?_take_of_lt below, before j below (by omega),
        List.getElem?_append_left below]
    · rw [List.getElem?_eq_none (by rw [List.length_take]; omega),
        List.getElem?_eq_none (Nat.le_of_not_lt below)]
  refine ⟨row[written.length], row.drop (written.length + 1), ?_, ?_, ?_⟩
  · have whole : row = written ++ row[written.length] :: row.drop (written.length + 1) := by
      calc row = row.take written.length ++ row.drop written.length :=
            (List.take_append_drop _ _).symm
        _ = _ := by rw [front, List.drop_eq_getElem_cons inside]
    exact shiftEq.trans (congrArg some whole)
  · rw [List.length_drop]
    omega
  · intro cell mem
    obtain ⟨i, cellEq⟩ := List.mem_iff_getElem?.1 mem
    rw [List.getElem?_drop] at cellEq
    have bound := (List.getElem?_eq_some_iff.1 cellEq).1
    rw [moved i (by omega), List.getElem?_append_right (Nat.le_add_right _ _)] at cellEq
    split at cellEq
    · obtain ⟨old, oldEq, rfl⟩ := Option.map_eq_some_iff.1 cellEq
      exact (blank old (List.mem_of_getElem? oldEq)).edgeCell
    · exact blank cell (List.mem_of_getElem? cellEq)

/-- Changing the first cell behind `written`. -/
theorem modifyAt_behind (written : List Cell) (first : Cell) (tail : List Cell)
    (change : Cell → Cell) :
    modifyAt (written ++ first :: tail) written.length change =
      some (written ++ change first :: tail) := by
  have inside : written.length < (written ++ first :: tail).length := by
    rw [List.length_append, List.length_cons]
    omega
  rw [modifyAt_of_lt inside, List.set_append_right _ _ (Nat.le_refl _), Nat.sub_self,
    List.set_cons_zero, List.getElem_append_right (Nat.le_refl _)]
  simp only [Nat.sub_self, List.getElem_cons_zero]

/-- The cell `line_set_char` leaves for a narrow character. -/
def narrowCell (cursor : Cursor) (hyperlinkId : UInt16) (ch : UInt32) (cell : Cell) : Cell :=
  { cpu := { ch := ch, hyperlinkId := hyperlinkId, ccIdx := Vector.replicate 3 0 }
    gpu := { cell.gpu with
      attrs := cursorToAttrs cursor 1
      fg := cursor.fg
      bg := cursor.bg
      decorationFg := cursor.decorationFg } }

/-- What `draw_codepoint` makes of the cursor's row for a narrow character. -/
theorem storedRow (irm : Bool) (ch : UInt32) (cursor : Cursor) (hyperlinkId : UInt16)
    (written : List Cell) {tail : List Cell} (room : tail ≠ [])
    (blank : ∀ cell ∈ tail, BlankCell cell) :
    ∃ first tail', (do
        let row ← if irm then lineRightShift (written ++ tail) written.length 1
          else some (written ++ tail)
        let row ← lineSetChar row written.length ch 1 cursor hyperlinkId
        if 1 = 2 then lineSetChar row (written.length + 1) 0 0 cursor hyperlinkId else some row) =
          some (written ++ [narrowCell cursor hyperlinkId ch first] ++ tail') ∧
      tail'.length + 1 = tail.length ∧ ∀ cell ∈ tail', BlankCell cell := by
  have stores : ∀ first tail', lineSetChar (written ++ first :: tail') written.length ch 1 cursor
      hyperlinkId = some (written ++ [narrowCell cursor hyperlinkId ch first] ++ tail') := by
    intro first tail'
    rw [List.append_assoc]
    exact modifyAt_behind written first tail' (narrowCell cursor hyperlinkId ch)
  cases irm with
  | true =>
    obtain ⟨first, tail', shiftEq, shorter, blank'⟩ := rightShift_blank written room blank
    refine ⟨first, tail', ?_, shorter, blank'⟩
    rw [shiftEq]
    change (lineSetChar _ _ _ _ _ _).bind _ = _
    rw [stores]
    rfl
  | false =>
    cases tail with
    | nil => exact absurd rfl room
    | cons first tail' =>
      refine ⟨first, tail', ?_, rfl, fun cell mem => blank cell (List.mem_cons_of_mem _ mem)⟩
      change (lineSetChar _ _ _ _ _ _).bind _ = _
      rw [stores]
      rfl

/-- A tab in front of blank cells covers as many of them as it moves over. -/
theorem coverWithTab_spec (written : List Cell) {tail : List Cell} {distance : Nat}
    (positive : 0 < distance) (small : distance < 2 ^ 16) (within : distance ≤ tail.length)
    (blank : ∀ cell ∈ tail, BlankCell cell) :
    ∃ tab pads tail', coverWithTab (written ++ tail) written.length distance =
        some (written ++ (tab :: pads) ++ tail') ∧
      (tab.ch = Ctl.HT ∧ tab.attrs.width ≠ 2 ∧ (getElem tab.cpu.ccIdx 0 firstSlot).toNat = pads.length + 1) ∧
      (∀ pad ∈ pads, pad.ch = ord ' ' ∧ pad.attrs.width ≠ 2) ∧ pads.length + 1 = distance ∧
      tail'.length + distance = tail.length ∧ ∀ cell ∈ tail', BlankCell cell := by
  obtain ⟨more, rfl⟩ := Nat.exists_eq_succ_of_ne_zero (Nat.ne_of_gt positive)
  cases tail with
  | nil => exact absurd within (Nat.not_succ_le_zero more)
  | cons first behind =>
    let space (cell : Cell) : Cell :=
      { cell with cpu := { cell.cpu with ch := ord ' ', ccIdx := Vector.replicate 3 0 } }
    let tab : Cell := { space first with cpu := { (space first).cpu with
      ch := Ctl.HT
      ccIdx := (Vector.replicate 3 0).set 0 (UInt16.ofNat (more + 1)) } }
    have room : more ≤ behind.length := Nat.le_of_succ_le_succ within
    have padsLength : ((behind.take more).map space).length = more := by
      rw [List.length_map, List.length_take, Nat.min_eq_left room]
    have diff : (more + 1) % 2 ^ 16 = more + 1 := Nat.mod_eq_of_lt small
    refine ⟨tab, (behind.take more).map space, behind.drop more, ?_, ⟨rfl, ?_, ?_⟩, ?_,
      congrArg (· + 1) padsLength, ?_, ?_⟩
    · have free : (((written ++ first :: behind).drop written.length).take (more + 1)).all
          (fun cell => cell.ch = ord ' ' ∨ cell.ch = 0) = true := by
        rw [List.drop_left, List.all_eq_true]
        intro cell mem
        exact decide_eq_true (Or.inr (blank cell (List.mem_of_mem_take mem)).noChar)
      unfold coverWithTab
      rw [diff, if_pos free, forUp_modifyAt _ _ _ _ (by
        rw [List.length_append]
        omega)]
      rw [← List.drop_drop, List.take_left, List.drop_left, List.take_succ_cons, List.map_cons,
        List.drop_succ_cons, Option.bind_eq_bind, Option.bind_some, List.append_assoc,
        List.cons_append, modifyAt_behind, List.append_assoc, List.cons_append]
    · exact (blank first List.mem_cons_self).narrow
    · rw [padsLength]
      exact (UInt16.toNat_ofNat).trans diff
    · intro pad mem
      obtain ⟨cell, inside, rfl⟩ := List.mem_map.1 mem
      exact ⟨rfl, (blank cell (List.mem_cons_of_mem _ (List.mem_of_mem_take inside))).narrow⟩
    · rw [List.length_drop, List.length_cons]
      omega
    · intro cell mem
      exact blank cell (List.mem_cons_of_mem _ (List.mem_of_mem_drop mem))

namespace Typing

variable {s : ScreenState} {written tail : List Cell}

theorem inside (typing : Typing s written tail) : s.screen.cursor.y < s.screen.linebuf.ynum := by
  have h := (List.getElem?_eq_some_iff.1 typing.line).1
  rwa [typing.wellFormed.rowsLength] at h

theorem length (typing : Typing s written tail) :
    written.length + tail.length = s.screen.columns := by
  have h := typing.wellFormed.rowsRowLength (List.mem_of_getElem? typing.line)
  rw [typing.xnum, List.length_append] at h
  exact h

/-- An operation on the cursor's row that writes the next cells. -/
theorem onRow (typing : Typing s written tail) {operation : Row → Option Row}
    {more tail' : List Cell} (runs : operation (written ++ tail) = some (written ++ more ++ tail'))
    (length : more.length + tail'.length = tail.length) :
    ∃ lb, s.screen.linebuf.onRow s.screen.cursor.y operation = some lb ∧ lb.WellFormed ∧
      lb.xnum = s.screen.columns ∧ lb.ynum = s.screen.lines ∧
      lb.rows[s.screen.cursor.y]? = some (written ++ more ++ tail') ∧
      lb.lineAttrs.length = s.screen.linebuf.ynum := by
  obtain ⟨lb, onRowEq, wellFormed, size, rows, attrs⟩ :=
    onRow_spec typing.wellFormed typing.inside typing.line operation runs
      (by simp only [List.length_append]; omega)
  refine ⟨lb, onRowEq, wellFormed, size.1.trans typing.xnum, size.2.trans typing.ynum, ?_, ?_⟩
  · rw [rows, List.getElem?_set_self (List.getElem?_eq_some_iff.1 typing.line).1]
  · rw [attrs, typing.wellFormed.attrsLength]

/-- New cells on the cursor's row, with the cursor behind them. -/
theorem stored {more tail' : List Cell} {linebuf : LineBuf} {cursor : Cursor}
    (wellFormed : linebuf.WellFormed) (xnum : linebuf.xnum = s.screen.columns)
    (ynum : linebuf.ynum = s.screen.lines)
    (line : linebuf.rows[s.screen.cursor.y]? = some (written ++ more ++ tail'))
    (blank : ∀ cell ∈ tail', BlankCell cell) (x : cursor.x = written.length + more.length)
    (y : cursor.y = s.screen.cursor.y) {s' : ScreenState}
    (screenEq : s'.screen = { s.screen.setLinebuf linebuf with cursor := cursor }) :
    s'.screen.columns = s.screen.columns ∧ Typing s' (written ++ more) tail' := by
  obtain ⟨columnsEq, linesEq, -⟩ := setLinebuf_fields s.screen linebuf
  have buffer : s'.screen.linebuf = linebuf := by
    rw [screenEq]
    exact linebuf_setLinebuf s.screen linebuf
  have columns : s'.screen.columns = s.screen.columns := by
    rw [screenEq]
    exact columnsEq
  have lines : s'.screen.lines = s.screen.lines := by
    rw [screenEq]
    exact linesEq
  have cursorEq : s'.screen.cursor = cursor := by rw [screenEq]
  refine ⟨columns, ?_, ?_, ?_, ?_, ?_, blank⟩
  · rw [buffer]
    exact wellFormed
  · rw [buffer, columns]
    exact xnum
  · rw [buffer, lines]
    exact ynum
  · rw [cursorEq, List.length_append]
    exact x
  · rw [buffer, cursorEq, y]
    exact line

/-- An operation on the cursor's line. -/
theorem onCursorLine (typing : Typing s written tail) {operation : Row → Option Row}
    {more tail' : List Cell} (runs : operation (written ++ tail) = some (written ++ more ++ tail'))
    (length : more.length + tail'.length = tail.length) :
    ∃ lb, onCursorLine s.screen operation = some (s.screen.setLinebuf lb) ∧ lb.WellFormed ∧
      lb.xnum = s.screen.columns ∧ lb.ynum = s.screen.lines ∧
      lb.rows[s.screen.cursor.y]? = some (written ++ more ++ tail') := by
  obtain ⟨changed, changeEq, wellFormed, xnum, ynum, line, attrs⟩ := typing.onRow runs length
  have inside : s.screen.cursor.y < changed.lineAttrs.length := by
    rw [attrs]
    exact typing.inside
  obtain ⟨marked, markEq, markedWf, size, rows⟩ : ∃ marked,
      linebufMarkLineDirty changed s.screen.cursor.y = some marked ∧ marked.WellFormed ∧
      (marked.xnum = changed.xnum ∧ marked.ynum = changed.ynum) ∧ marked.rows = changed.rows := by
    unfold linebufMarkLineDirty
    rw [modifyAt_of_lt inside]
    exact ⟨_, rfl, wellFormed.setAttrs _ List.length_set, ⟨rfl, rfl⟩,
      setLineAttrs_rows List.length_set⟩
  refine ⟨marked, ?_, markedWf, size.1.trans xnum, size.2.trans ynum, ?_⟩
  · unfold Smelly.onCursorLine
    rw [changeEq, Option.bind_eq_bind, Option.bind_some, markEq]
    rfl
  · rw [rows]
    exact line

/-- A character goes behind what is written. -/
theorem char (typing : Typing s written tail) {env : ScreenEnv} {ch : UInt32}
    (printable : Printable env s.charsets.gCharset ch)
    (room : written.length < s.screen.columns) :
    ∃ s' cell tail', drawCodepoint env s ch true = some s' ∧ SameSetup s s' ∧
      Typing s' (written ++ [cell]) tail' ∧ cell.ch = ch ∧
      cell.cpu.ccIdx = Vector.replicate 3 0 ∧ cell.attrs.width ≠ 2 := by
  have tailLength := typing.length
  obtain ⟨first, tail', rowEq, shorter, blank⟩ :=
    storedRow s.modes.mIRM ch s.screen.cursor s.activeHyperlinkId written
      (List.ne_nil_of_length_pos (by omega)) typing.blank
  rw [← typing.column] at rowEq
  obtain ⟨lb, onLine, wellFormed, xnum, ynum, line⟩ := @onCursorLine s written tail typing
    (fun row => do
      let row ← if s.modes.mIRM then lineRightShift row s.screen.cursor.x 1 else some row
      let row ← lineSetChar row s.screen.cursor.x ch 1 s.screen.cursor s.activeHyperlinkId
      if 1 = 2 then
        lineSetChar row (s.screen.cursor.x + 1) 0 0 s.screen.cursor s.activeHyperlinkId
      else some row) _ tail' rowEq (by rw [← shorter, List.length_singleton, Nat.add_comm])
  have sameLine : (s.screen.setLinebuf lb).cursor.y = s.screen.cursor.y :=
    congrArg Cursor.y (setLinebuf_fields s.screen lb).2.2
  have stores : storeAtCursor s.modes s.activeHyperlinkId ch 1 s.screen =
      some { s.screen.setLinebuf lb with
        cursor := { (s.screen.setLinebuf lb).cursor with x := s.screen.cursor.x + 1 } } := by
    change Smelly.onCursorLine _ _ >>= _ = _
    rw [onLine]
    rfl
  have roomMade : makeRoomForChar env s.modes 1 s.screen = some s.screen := by
    unfold makeRoomForChar
    rw [typing.column]
    exact if_neg (by omega)
  let cursor : Cursor := { (s.screen.setLinebuf lb).cursor with x := s.screen.cursor.x + 1 }
  let s' : ScreenState := { s with
    lastGraphicChar := ch
    screen := { s.screen.setLinebuf lb with cursor := cursor } }
  have draws : drawCodepoint env s ch true = some s' := by
    unfold drawCodepoint
    rw [if_neg (by rw [printable.notIgnored]; exact Bool.false_ne_true), printable.itself]
    rw [if_neg (by rw [printable.notCombining]; exact Bool.false_ne_true)]
    unfold drawSpacingChar
    rw [printable.narrow]
    change (makeRoomForChar env s.modes 1 s.screen >>= _) >>= _ = _
    rw [roomMade]
    change storeAtCursor s.modes s.activeHyperlinkId ch 1 s.screen >>= _ = _
    rw [stores]
    rfl
  obtain ⟨columns, typing'⟩ := @stored s written _ tail' lb cursor wellFormed xnum ynum line blank
    (congrArg (· + 1) typing.column) sameLine s' rfl
  refine ⟨s', _, tail', draws, ⟨columns, rfl, rfl⟩, typing', rfl, rfl, ?_⟩
  exact Nat.ne_of_lt (Nat.lt_succ_self 1)

/-- A tab that is not typed in the last column covers the cells up to the next tab stop. -/
theorem tab (typing : Typing s written tail) (small : s.screen.columns ≤ 2 ^ 16)
    (room : written.length + 1 < s.screen.columns) :
    ∃ s' tab pads tail', screenTab s = some s' ∧ SameSetup s s' ∧
      Typing s' (written ++ tab :: pads) tail' ∧
      (tab.ch = Ctl.HT ∧ tab.attrs.width ≠ 2 ∧ (getElem tab.cpu.ccIdx 0 firstSlot).toNat = pads.length + 1) ∧
      (∀ pad ∈ pads, pad.ch = ord ' ' ∧ pad.attrs.width ≠ 2) ∧
      written.length + (pads.length + 1) =
        nextTabstop s.tabstops s.screen.columns written.length := by
  have tailLength := typing.length
  obtain ⟨behind, inside⟩ := nextTabstop_bounds s.tabstops room
  generalize foundEq : nextTabstop s.tabstops s.screen.columns written.length = found
    at behind inside
  obtain ⟨tab, pads, tail', coverEq, tabCell, spaces, covered, rest, blank⟩ :=
    @coverWithTab_spec written tail (found - written.length) (by omega) (by omega) (by omega)
      typing.blank
  obtain ⟨lb, onRowEq, wellFormed, xnum, ynum, line, -⟩ :=
    @onRow s written tail typing (fun row => coverWithTab row written.length
      (found - written.length)) _ tail' coverEq (by rw [List.length_cons]; omega)
  let cursor : Cursor := { s.screen.cursor with x := found }
  let s' : ScreenState := { s with screen := { s.screen.setLinebuf lb with cursor := cursor } }
  have tabs : screenTab s = some s' := by
    unfold screenTab ScreenState.onScreen
    dsimp only
    rw [typing.column, foundEq, if_pos (Nat.ne_of_gt behind), if_pos (by omega)]
    rw [onRowEq]
    rfl
  obtain ⟨columns, typing'⟩ := @stored s written (tab :: pads) tail' lb cursor wellFormed xnum ynum
    line blank (by rw [List.length_cons]; change found = _; omega) rfl s' rfl
  refine ⟨s', tab, pads, tail', tabs, ⟨columns, rfl, rfl⟩, typing', tabCell, spaces, ?_⟩
  omega

/-- A tab in the last column does nothing. -/
theorem tabLost (typing : Typing s written tail) (full : ¬ written.length + 1 < s.screen.columns)
    (inside : written.length < s.screen.columns) : screenTab s = some s := by
  have last : s.screen.columns = written.length + 1 := by omega
  have stays := nextTabstop_last s.tabstops last
  unfold screenTab ScreenState.onScreen
  dsimp only
  rw [typing.column, stays, if_neg (not_not_intro rfl)]
  rfl

end Typing

/-- What typing a text leaves on the line. -/
theorem typeText_spec {env : ScreenEnv} (text : List UInt32) {s : ScreenState}
    {written tail : List Cell} (typing : Typing s written tail)
    (small : s.screen.columns ≤ 2 ^ 16)
    (printable : ∀ ch ∈ text, ch ≠ Ctl.HT → Printable env s.charsets.gCharset ch)
    (fits : FitsLine s.tabstops s.screen.columns written.length text) :
    ∃ s' cells tail', typeText env s text = some s' ∧ Typing s' (written ++ cells) tail' ∧
      s'.screen.columns = s.screen.columns ∧
      Drawn s.tabstops s.screen.columns written.length text cells := by
  induction text generalizing s written tail with
  | nil =>
    refine ⟨s, [], tail, rfl, ?_, rfl, Drawn.nil⟩
    rw [List.append_nil]
    exact typing
  | cons ch rest ih =>
    obtain ⟨inside, fitsRest⟩ := fits
    have later : ∀ {s' : ScreenState}, SameSetup s s' → ∀ c ∈ rest, c ≠ Ctl.HT →
        Printable env s'.charsets.gCharset c := by
      intro s' same c mem notTab
      rw [same.charset]
      exact printable c (List.mem_cons_of_mem _ mem) notTab
    by_cases isTab : ch = Ctl.HT
    · subst isTab
      have after : columnAfter s.tabstops s.screen.columns written.length Ctl.HT =
          nextTabstop s.tabstops s.screen.columns written.length := if_pos rfl
      rw [after] at fitsRest
      by_cases room : written.length + 1 < s.screen.columns
      · obtain ⟨s', tab, pads, tail', tabs, same, typing', tabCell, spaces, covered⟩ :=
          typing.tab small room
        have length : (written ++ tab :: pads).length =
            nextTabstop s.tabstops s.screen.columns written.length := by
          rw [List.length_append]
          exact covered
        obtain ⟨s'', cells, tail'', runEq, typing'', columns, drawn⟩ := ih typing'
          (same.columns ▸ small) (later same)
          (by rw [same.tabstops, same.columns, length]; exact fitsRest)
        rw [same.tabstops, same.columns, length] at drawn
        rw [List.append_assoc] at typing''
        refine ⟨s'', tab :: (pads ++ cells), tail'', ?_, typing'', columns.trans same.columns,
          Drawn.tab room tabCell.1 tabCell.2.1 tabCell.2.2 spaces drawn⟩
        change screenTab s >>= _ = _
        rw [tabs]
        exact runEq
      · have stays := nextTabstop_last s.tabstops
          (show s.screen.columns = written.length + 1 by omega)
        obtain ⟨s', cells, tail', runEq, typing', columns, drawn⟩ := ih typing small
          (fun c mem => printable c (List.mem_cons_of_mem _ mem)) (by rwa [stays] at fitsRest)
        refine ⟨s', cells, tail', ?_, typing', columns, Drawn.lost room (by rwa [stays])⟩
        change screenTab s >>= _ = _
        rw [typing.tabLost room inside]
        exact runEq
    · have shown := printable ch List.mem_cons_self isTab
      obtain ⟨s', cell, tail', draws, same, typing', cellCh, noMarks, narrow⟩ :=
        typing.char shown inside
      have after : columnAfter s.tabstops s.screen.columns written.length ch =
          (written ++ [cell]).length := by
        rw [List.length_append]
        exact if_neg isTab
      rw [after] at fitsRest
      obtain ⟨s'', cells, tail'', runEq, typing'', columns, drawn⟩ := ih typing'
        (same.columns ▸ small) (later same) (by rw [same.tabstops, same.columns]; exact fitsRest)
      rw [same.tabstops, same.columns, List.length_append] at drawn
      rw [List.append_assoc] at typing''
      refine ⟨s'', cell :: cells, tail'', ?_, typing'', columns.trans same.columns,
        Drawn.char isTab shown.notZero cellCh noMarks narrow drawn⟩
      unfold typeText
      rw [run_cons, if_neg isTab]
      change drawCodepoint env s ch true >>= _ = _
      rw [draws]
      exact runEq

/-! ### The copy -/

theorem trimmedLimit_written {cells tail : List Cell} (written : ∀ cell ∈ cells, cell.ch ≠ 0)
    (blank : ∀ cell ∈ tail, BlankCell cell) (k : Nat) (within : k ≤ tail.length) :
    trimmedLimit (cells ++ tail) (cells.length + k) = some cells.length := by
  induction k with
  | zero =>
    cases lengthEq : cells.length with
    | zero => rfl
    | succ limit =>
      have inside : limit < cells.length := by omega
      rw [trimmedLimit, List.getElem?_append_left inside, List.getElem?_eq_getElem inside,
        Option.bind_eq_bind, Option.bind_some, if_neg (written _ (List.getElem_mem inside))]
  | succ k ih =>
    have inside : k < tail.length := within
    rw [← Nat.add_assoc, trimmedLimit, List.getElem?_append_right (Nat.le_add_right _ _),
      Nat.add_sub_cancel_left, List.getElem?_eq_getElem inside, Option.bind_eq_bind,
      Option.bind_some, if_pos (blank _ (List.getElem_mem inside)).noChar]
    exact ih (Nat.le_of_lt inside)

/-- The text of a line ends behind its last written cell. -/
theorem xlimitForLine_written {cells tail : List Cell}
    (written : ∀ cell ∈ cells, cell.ch ≠ 0 ∧ cell.attrs.width ≠ 2)
    (blank : ∀ cell ∈ tail, BlankCell cell) :
    xlimitForLine (cells ++ tail) = some cells.length := by
  have trimmed := trimmedLimit_written (fun cell mem => (written cell mem).1) blank tail.length
    (Nat.le_refl _)
  rw [← List.length_append] at trimmed
  unfold xlimitForLine
  rw [trimmed, Option.bind_eq_bind, Option.bind_some]
  by_cases shorter : cells.length < (cells ++ tail).length
  · rw [if_pos shorter]
    have narrow : ∀ cell ∈ cells ++ tail, ¬ cell.attrs.width = 2 := by
      intro cell mem
      cases List.mem_append.1 mem with
      | inl shown => exact (written cell shown).2
      | inr rest => exact (blank cell rest).narrow
    have inside : (if 0 < cells.length then cells.length - 1 else cells.length) <
        (cells ++ tail).length := by
      split
      · omega
      · exact shorter
    rw [List.getElem?_eq_getElem inside]
    exact congrArg some (if_neg (narrow _ (List.getElem_mem inside)))
  · rw [if_neg shorter]

/-- The copy of a line with the cells of a text. -/
theorem lineAsUnicode_drawn (codepointForMark : UInt16 → UInt32) (skipZeroCells : Bool)
    {tabstops : List Bool} {columns : Nat} {text : List UInt32} {cells tail : List Cell}
    (drawn : Drawn tabstops columns 0 text cells) (blank : ∀ cell ∈ tail, BlankCell cell)
    (notEmpty : cells ++ tail ≠ []) :
    lineAsUnicode codepointForMark (cells ++ tail) skipZeroCells =
      some ((shownText tabstops columns false 0 text).take unicodeLimit) := by
  have last : (cells ++ tail).length - 1 < (cells ++ tail).length :=
    Nat.sub_lt (List.length_pos_iff.2 notEmpty) Nat.one_pos
  have shown := unicodeCells_drawn codepointForMark skipZeroCells drawn 0 0 0 (Nat.zero_le 1)
  unfold lineAsUnicode
  rw [xlimitForLine_written drawn.written blank, Option.bind_eq_bind, Option.bind_some]
  unfold unicodeInRange
  rw [if_pos (by rw [List.length_append]; exact Nat.le_add_right _ _), List.drop_zero, Nat.sub_zero,
    List.take_left, List.getElem?_eq_getElem last, shown]
  rfl

/-- A text of narrow characters and tabs that is typed on a blank line is copied as it was typed
exactly when it fits the buffer of the copy, no tab is typed in the last column, and no tab is
directly in front of a space. -/
theorem copiedTabs_iff (env : ScreenEnv) (codepointForMark : UInt16 → UInt32)
    (skipZeroCells : Bool) {s : ScreenState} {row : Row} (blankLine : Typing s [] row)
    (columns : 0 < s.screen.columns ∧ s.screen.columns ≤ 2 ^ 16) (text : List UInt32)
    (printable : ∀ ch ∈ text, ch ≠ Ctl.HT → Printable env s.charsets.gCharset ch)
    (fits : FitsLine s.tabstops s.screen.columns 0 text) :
    (∃ s', typeText env s text = some s' ∧
        copiedLine codepointForMark skipZeroCells s' = some text) ↔
      text.length ≤ unicodeLimit ∧ TabsKept s.tabstops s.screen.columns 0 text := by
  obtain ⟨s', cells, tail, runEq, typing, sameColumns, drawn⟩ :=
    typeText_spec text blankLine columns.2 printable fits
  rw [List.nil_append] at typing
  have notEmpty : cells ++ tail ≠ [] := by
    have length := typing.length
    intro empty
    have none : (cells ++ tail).length = 0 := by rw [empty]; rfl
    rw [List.length_append] at none
    omega
  have rowEq : s'.screen.linebuf.row s'.screen.cursor.y = some (cells ++ tail) :=
    (typing.wellFormed.rows_getElem? typing.inside).symm.trans typing.line
  have copy : copiedLine codepointForMark skipZeroCells s' =
      some ((shownText s.tabstops s.screen.columns false 0 text).take unicodeLimit) := by
    unfold copiedLine
    rw [rowEq]
    exact lineAsUnicode_drawn codepointForMark skipZeroCells drawn typing.blank notEmpty
  rw [← shownText_take_iff]
  constructor
  · rintro ⟨s'', runEq', same⟩
    rw [runEq] at runEq'
    rw [← Option.some.inj runEq', copy] at same
    exact Option.some.inj same
  · intro same
    exact ⟨s', runEq, by rw [copy, same]⟩

/-- Tables in which every character takes one cell. -/
def plainEnv : ScreenEnv where
  tables :=
    { wcwidthStd := fun _ => 1
      isEmojiPresentationBase := fun _ => false
      isCombiningChar := fun _ => false
      isIgnoredChar := fun _ => false
      markForCodepoint := fun _ => 0 }
  lineAsAnsi := fun _ hyperlinkId => ([], hyperlinkId)
  scrollbackFillEnlargedWindow := false
  allowHyperlinks := false

/-- An empty screen with one line of ten cells. -/
def tenCells : ScreenState := newScreenState 1 10 0 0

theorem tenCells_typing : Typing tenCells [] (blankRow 10) where
  wellFormed := allocLinebuf_wellFormed 1 10
  xnum := rfl
  ynum := rfl
  column := rfl
  line := by decide +kernel
  blank := by
    intro cell mem
    rw [List.eq_of_mem_replicate mem]
    constructor
    · rfl
    · decide

theorem plainEnv_printable {ch : UInt32} (notZero : ch ≠ 0)
    (itself : (if ch < 256 then Charset.latin1.translate ch else ch) = ch) :
    Printable plainEnv tenCells.charsets.gCharset ch :=
  ⟨notZero, rfl, itself, rfl, rfl⟩

theorem copiedTabs_iff_kept :
    let text := [ord 'x', Ctl.HT, ord 'y', ord ' ']
    (∃ s', typeText plainEnv tenCells text = some s' ∧
        copiedLine (fun _ => 0) false s' = some text) ↔
      text.length ≤ unicodeLimit ∧ TabsKept tenCells.tabstops tenCells.screen.columns 0 text := by
  intro text
  apply copiedTabs_iff plainEnv _ _ tenCells_typing (by decide) text
  · intro ch mem notTab
    simp only [text, List.mem_cons, List.not_mem_nil, or_false] at mem
    rcases mem with rfl | rfl | rfl | rfl
    · exact plainEnv_printable (by decide) (by decide)
    · exact absurd rfl notTab
    · exact plainEnv_printable (by decide) (by decide)
    · exact plainEnv_printable (by decide) (by decide)
  · exact ⟨by decide +kernel, by decide +kernel, by decide +kernel, by decide +kernel, trivial⟩

/-- A space behind a tab is not copied. -/
theorem copiedTabs_spaceLost :
    let text := [Ctl.HT, ord ' ', ord 'x']
    Typing tenCells [] (blankRow 10) ∧
      (∀ ch ∈ text, ch ≠ Ctl.HT → Printable plainEnv tenCells.charsets.gCharset ch) ∧
      FitsLine tenCells.tabstops tenCells.screen.columns 0 text ∧
      ∃ s', typeText plainEnv tenCells text = some s' ∧
        copiedLine (fun _ => 0) false s' = some [Ctl.HT, ord 'x'] ∧
        copiedLine (fun _ => 0) false s' ≠ some text := by
  intro text
  refine ⟨tenCells_typing, ?_, ?_, ?_⟩
  · intro ch mem notTab
    simp only [text, List.mem_cons, List.not_mem_nil, or_false] at mem
    rcases mem with rfl | rfl | rfl
    · exact absurd rfl notTab
    · exact plainEnv_printable (by decide) (by decide)
    · exact plainEnv_printable (by decide) (by decide)
  · exact ⟨by decide +kernel, by decide +kernel, by decide +kernel, trivial⟩
  · let s' := (typeText plainEnv tenCells text).get (by decide +kernel)
    exact ⟨s', (Option.some_get _).symm, by decide +kernel, by decide +kernel⟩

end Smelly
