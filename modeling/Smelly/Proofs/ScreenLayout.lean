/-
Module: Smelly.Proofs.ScreenLayout
Purpose: The rows of the line editor show its lines and one of them its cursor.
Trusted boundary: none
-/
import Smelly.Core.ScreenLines
import Smelly.Proofs.TextTruncation

namespace Smelly

namespace Readline

open Wcswidth

variable {t : WidthTables} {width : Int} {cursor : Position}

/-! ### What the rows are for -/

/-- The rows show this text, from this offset in the line with the number `i` on. -/
def RowsOf (i : Nat) : Nat → List ScreenLine → Bytes → Prop
  | _, [], text => text = []
  | offset, sl :: rows, text =>
    sl.parentLineNumber = i ∧ sl.offsetInParentLine = offset ∧
      ∃ rest, text = sl.text ++ rest ∧ RowsOf i (offset + sl.text.length) rows rest

/-- The rows show one line after the other, from the line with the number `i` on. -/
def LinesOf (i : Nat) (rows : List ScreenLine) : List Bytes → Prop
  | [] => rows = []
  | line :: lines => ∃ own others, rows = own ++ others ∧ own ≠ [] ∧ RowsOf i 0 own line ∧
      LinesOf (i + 1) others lines

/-- The prompt and the text of a row fit in the screen. -/
def RowFits (t : WidthTables) (width : Int) (sl : ScreenLine) : Prop :=
  sl.prompt.length + stringwidth t sl.text ≤ width

/-- A row of the line of the cursor shows the cursor behind the text in front of it. -/
def ShowsCursor (t : WidthTables) (width : Int) (cursor : Position) (sl : ScreenLine) : Prop :=
  sl.parentLineNumber = cursor.y ∧ ∃ pos : Nat, cursor.x = sl.offsetInParentLine + pos ∧
    pos ≤ sl.text.length ∧ sl.cursorTextPos = pos ∧
    sl.cursorCell = sl.prompt.length + stringwidth t (sl.text.take pos) ∧ sl.cursorCell < width

/-- The text in front of the cursor ends at the right edge of a row of its line. -/
def EndsAtEdge (t : WidthTables) (width : Int) (cursor : Position) (sl : ScreenLine) : Prop :=
  sl.parentLineNumber = cursor.y ∧ ∃ pos : Nat, cursor.x = sl.offsetInParentLine + pos ∧
    pos ≤ sl.text.length ∧ sl.prompt.length + stringwidth t (sl.text.take pos) = width

/-- The row shows the cursor at the first column of its text. -/
def AtFirstColumn (sl : ScreenLine) : Prop :=
  sl.cursorCell = sl.prompt.length ∧ sl.cursorTextPos = 0

/-- One row alone carries the cursor: one that shows it, or the row behind one at whose right edge
the text in front of the cursor ends. -/
def CursorShown (t : WidthTables) (width : Int) (cursor : Position) (rows : List ScreenLine) :
    Prop :=
  ∃ before sl after, rows = before ++ sl :: after ∧ 0 ≤ sl.cursorCell ∧
    (∀ other ∈ before ++ after, other.cursorCell < 0) ∧
    (ShowsCursor t width cursor sl ∨ AtFirstColumn sl ∧
      ∃ front last, before = front ++ [last] ∧ EndsAtEdge t width cursor last)

/-- What the screen lines are for. -/
structure LaidOut (t : WidthTables) (width : Int) (lines : List Bytes) (cursor : Position)
    (rows : List ScreenLine) : Prop where
  lines : LinesOf 0 rows lines
  fits : ∀ sl ∈ rows, RowFits t width sl
  cursor : CursorShown t width cursor rows

/-! ### Which lines and cursors -/

/-- The offsets where the rows of a line start, with the columns that a prompt takes there. -/
inductive RowStart (t : WidthTables) (width prompt : Int) (line : Bytes) : Nat → Int → Prop where
  | first : RowStart t width prompt line 0 prompt
  | next {offset : Nat} {taken : Int} {row : Bytes} {columns : Int}
      (start : RowStart t width prompt line offset taken)
      (cut : truncateToVisualLengthWithWidth t (line.drop offset) (width - taken) =
        some (row, columns)) : RowStart t width prompt line (offset + row.length) 0

/-- A text without REP that has exact codes in front of the cuts between its rows. -/
structure ExactText (t : WidthTables) (width prompt : Int) (text : List StreamItem) : Prop where
  stream : WellFormedStream text
  noRep : ∀ item ∈ text, ¬IsRep item
  cuts : ∀ front back taken, text = front ++ back →
    RowStart t width prompt (bytesOf text) (bytesOf front).length taken →
      CutExact t back (width - taken)

/-- The text of a row in front of the cursor is no wider than the room for it. -/
def CursorFits (t : WidthTables) (width prompt : Int) (line : Bytes) (x : Int) : Prop :=
  ∀ offset taken row columns, RowStart t width prompt line offset taken →
    truncateToVisualLengthWithWidth t (line.drop offset) (width - taken) = some (row, columns) →
    offset ≤ x → x ≤ offset + row.length →
      taken + stringwidth t (row.take (x - offset).toNat) ≤ width

/-! ### Rows one after the other -/

theorem RowsOf.append {i offset : Nat} {first second : List ScreenLine} {text more : Bytes}
    (h : RowsOf i offset first text) (later : RowsOf i (offset + text.length) second more) :
    RowsOf i offset (first ++ second) (text ++ more) := by
  induction first generalizing offset text with
  | nil =>
    have empty : text = [] := h
    rw [empty] at later ⊢
    exact later
  | cons sl first ih =>
    obtain ⟨parent, start, rest, rfl, behind⟩ := h
    refine ⟨parent, start, rest ++ more, List.append_assoc .., ih behind ?_⟩
    rwa [List.length_append, ← Nat.add_assoc] at later

theorem RowsOf.single {sl : ScreenLine} {i offset : Nat} (parent : sl.parentLineNumber = i)
    (start : sl.offsetInParentLine = offset) : RowsOf i offset [sl] sl.text :=
  ⟨parent, start, [], (List.append_nil _).symm, rfl⟩

theorem bytes_ne_nil (item : StreamItem) : item.bytes ≠ [] := by
  cases item with
  | text ch => exact String.utf8EncodeChar_ne_nil
  | csi sevenBit params intermediates final =>
    exact List.append_ne_nil_of_right_ne_nil _ (List.append_ne_nil_of_right_ne_nil _
      (List.cons_ne_nil _ _))
  | string kind sevenBit payload terminator =>
    apply List.append_ne_nil_of_right_ne_nil
    cases terminator <;> exact List.cons_ne_nil _ _
  | twoChar code => exact List.cons_ne_nil _ _

/-- Pieces have bytes. -/
theorem bytesOf_ne_nil {items : List StreamItem} (some_ : items ≠ []) : bytesOf items ≠ [] := by
  cases items with
  | nil => exact absurd rfl some_
  | cons item items =>
    exact List.append_ne_nil_of_left_ne_nil (bytes_ne_nil item) _

/-- No text has a negative width. -/
theorem stringwidth_nonneg (t : WidthTables) (text : Bytes) : 0 ≤ stringwidth t text := by
  have start : Gains 0 ({} : WidthState) := ⟨Int.le_refl 0, by decide⟩
  have counted := (gains_preserved t 0).parse {} text start
  have least : 0 ≤ stringwidth t text - _ := counted.currentWidth
  split at least
  · omega
  · omega

/-! ### Where the cursor is -/

/-- The cursor is in the line with the number `i` or behind it, and in that line not in front of
this offset.  Only the first row of the line can still show it at the offset itself. -/
def Ahead (cursor : Position) (i offset : Nat) (isFirst : Bool) : Prop :=
  i < cursor.y ∨ i = cursor.y ∧ if isFirst then offset ≤ cursor.x else offset < cursor.x

/-- No row shows the cursor yet, and it is ahead; or it is to be shown by the next row, and there
are more; or a row shows it. -/
inductive CursorAt (t : WidthTables) (width : Int) (cursor : Position) (ahead more : Prop)
    (state : Layout) : Prop where
  | pending (notFound : state.foundCursor = false)
      (notNext : state.cursorAtStartOfNextLine = false)
      (none_ : ∀ sl ∈ state.ans, sl.cursorCell < 0) (isAhead : ahead)
  | atEdge (found : state.foundCursor = true) (next : state.cursorAtStartOfNextLine = true)
      (none_ : ∀ sl ∈ state.ans, sl.cursorCell < 0)
      (edge : ∃ front last, state.ans = front ++ [last] ∧ EndsAtEdge t width cursor last)
      (hasMore : more)
  | shown (found : state.foundCursor = true) (notNext : state.cursorAtStartOfNextLine = false)
      (isShown : CursorShown t width cursor state.ans)

theorem CursorAt.imp {ahead ahead' more more' : Prop} {state : Layout}
    (h : CursorAt t width cursor ahead more state) (stillAhead : ahead → ahead')
    (stillMore : more → more') : CursorAt t width cursor ahead' more' state := by
  cases h with
  | pending notFound notNext none_ isAhead =>
    exact .pending notFound notNext none_ (stillAhead isAhead)
  | atEdge found next none_ edge hasMore => exact .atEdge found next none_ edge (stillMore hasMore)
  | shown found notNext isShown => exact .shown found notNext isShown

theorem forall_mem_concat {rows : List ScreenLine} {sl : ScreenLine}
    (none_ : ∀ sl ∈ rows, sl.cursorCell < 0) (own : sl.cursorCell < 0) :
    ∀ other ∈ rows ++ [sl], other.cursorCell < 0 := by
  intro other mem
  rcases List.mem_append.1 mem with mem | mem
  · exact none_ other mem
  · rw [List.mem_singleton.1 mem]
    exact own

/-- A row without the cursor goes behind the others. -/
theorem CursorShown.concat {rows : List ScreenLine} {sl : ScreenLine}
    (h : CursorShown t width cursor rows) (own : sl.cursorCell < 0) :
    CursorShown t width cursor (rows ++ [sl]) := by
  obtain ⟨before, shown, after, rfl, nonneg, none_, place⟩ := h
  refine ⟨before, shown, after ++ [sl], by rw [List.append_assoc, List.cons_append], nonneg, ?_,
    place⟩
  rw [← List.append_assoc]
  exact forall_mem_concat none_ own

/-- The first row that shows the cursor. -/
theorem cursorShown_last {rows : List ScreenLine} {sl : ScreenLine}
    (none_ : ∀ sl ∈ rows, sl.cursorCell < 0) (nonneg : 0 ≤ sl.cursorCell)
    (place : ShowsCursor t width cursor sl ∨ AtFirstColumn sl ∧
      ∃ front last, rows = front ++ [last] ∧ EndsAtEdge t width cursor last) :
    CursorShown t width cursor (rows ++ [sl]) := by
  refine ⟨rows, sl, [], rfl, nonneg, ?_, place⟩
  rwa [List.append_nil]

/-! ### One row -/

/-- What a round adds to the rows. -/
structure RoundAdds (t : WidthTables) (width : Int) (i offset : Nat) (text : Bytes)
    (state state' : Layout) (rows : List ScreenLine) : Prop where
  ans : state'.ans = state.ans ++ rows
  some_ : rows ≠ []
  rowsOf : RowsOf i offset rows text
  fits : ∀ sl ∈ rows, RowFits t width sl

/-- A round of the loop shows the front of the rest of the line. -/
theorem layRound_shows {numLines i offset : Nat} {line text : Bytes} {prompt : Prompt}
    {isFirst : Bool} {state : Layout} {columns : Int} {more : Prop}
    (cut : truncateToVisualLengthWithWidth t (line.drop offset) (width - prompt.length) =
      some (text, columns))
    (fits : stringwidth t text ≤ width - prompt.length)
    (within : offset + text.length ≤ line.length) (nonneg : 0 ≤ prompt.length)
    (cursorFits : i = cursor.y → offset ≤ cursor.x → cursor.x ≤ offset + text.length →
      prompt.length + stringwidth t (text.take (cursor.x - offset).toNat) ≤ width)
    (at_ : CursorAt t width cursor (Ahead cursor i offset isFirst) more state) :
    ∃ state' rows, layRound t width numLines cursor i line prompt isFirst offset state =
        some (state', text.length) ∧ RoundAdds t width i offset text state state' rows ∧
      CursorAt t width cursor (Ahead cursor i (offset + text.length) false)
        (offset + text.length < line.length ∨ i + 1 < numLines) state' := by
  have rowFits : prompt.length + stringwidth t text ≤ width := by omega
  have minusOne : (-1 : Int) < 0 := by decide
  have single : ∀ {row : ScreenLine} {state' : Layout}, state'.ans = state.ans ++ [row] →
      row.parentLineNumber = i → row.offsetInParentLine = offset → row.text = text →
      row.prompt = prompt → RoundAdds t width i offset text state state' [row] := by
    intro row state' ans parent start same samePrompt
    refine ⟨ans, List.cons_ne_nil _ _, same ▸ RowsOf.single parent start, ?_⟩
    intro other mem
    rw [List.mem_singleton.1 mem, RowFits, same, samePrompt]
    exact rowFits
  rw [layRound, cut]
  cases at_ with
  | atEdge found next none_ edge hasMore =>
    refine ⟨_, _, if_pos next, single rfl rfl rfl rfl rfl, .shown rfl rfl ?_⟩
    exact cursorShown_last none_ nonneg (Or.inr ⟨⟨rfl, rfl⟩, edge⟩)
  | shown found notNext isShown =>
    have next : ¬state.cursorAtStartOfNextLine = true := by
      rw [notNext]
      exact Bool.false_ne_true
    have other : ¬(i = cursor.y ∧ state.foundCursor = false ∧ offset ≤ cursor.x ∧
        cursor.x ≤ offset + text.length) := by
      rintro ⟨-, notFound, -⟩
      rw [found] at notFound
      cases notFound
    refine ⟨_, _, (if_neg next).trans (if_neg other), single rfl rfl rfl rfl rfl,
      .shown found notNext ?_⟩
    exact isShown.concat minusOne
  | pending notFound notNext none_ isAhead =>
    have next : ¬state.cursorAtStartOfNextLine = true := by
      rw [notNext]
      exact Bool.false_ne_true
    by_cases here : i = cursor.y ∧ state.foundCursor = false ∧ offset ≤ cursor.x ∧
        cursor.x ≤ offset + text.length
    · obtain ⟨own, -, from_, to_⟩ := here
      have upTo := cursorFits own from_ to_
      obtain ⟨pos, hpos⟩ : ∃ pos, pos = (cursor.x - offset).toNat := ⟨_, rfl⟩
      have distance : (pos : Int) = cursor.x - offset := by
        rw [hpos]
        exact Int.toNat_of_nonneg (by omega)
      have inText : pos ≤ text.length := by omega
      have place : cursor.x = offset + pos := by omega
      rw [← hpos] at upTo
      by_cases atEdge : prompt.length + stringwidth t (text.take pos) ≥ width
      · have same : prompt.length + stringwidth t (text.take pos) = width :=
          Int.le_antisymm upTo atEdge
        rw [hpos] at atEdge
        by_cases hasMore : offset + text.length < line.length ∨ i + 1 < numLines
        · refine ⟨_, _, (if_neg next).trans ((if_pos ⟨own, notFound, from_, to_⟩).trans
            ((if_pos atEdge).trans (if_pos hasMore))), single rfl rfl rfl rfl rfl,
            .atEdge rfl rfl (forall_mem_concat none_ minusOne) ⟨state.ans, _, rfl, own, pos, place,
              inText, same⟩ hasMore⟩
        · have ended : offset + text.length = line.length := by omega
          refine ⟨_, _, (if_neg next).trans ((if_pos ⟨own, notFound, from_, to_⟩).trans
            ((if_pos atEdge).trans (if_neg hasMore))),
            ⟨rfl, List.cons_ne_nil _ _, ⟨rfl, rfl, [], (List.append_nil _).symm, rfl, ended.symm,
              [], rfl, rfl⟩, ?_⟩, .shown rfl notNext ?_⟩
          · intro row mem
            rcases List.mem_cons.1 mem with rfl | mem
            · exact rowFits
            · rw [List.mem_singleton.1 mem]
              exact Int.le_trans (Int.add_nonneg nonneg (stringwidth_nonneg t text)) rowFits
          · rw [List.append_cons]
            exact cursorShown_last (forall_mem_concat none_ minusOne) (Int.le_refl 0)
              (Or.inr ⟨⟨rfl, rfl⟩, state.ans, _, rfl, own, pos, place, inText, same⟩)
      · have left_ := Int.not_le.1 atEdge
        have cell := Int.add_nonneg nonneg (stringwidth_nonneg t (text.take pos))
        rw [hpos] at atEdge
        refine ⟨_, _, (if_neg next).trans ((if_pos ⟨own, notFound, from_, to_⟩).trans
          (if_neg atEdge)), single rfl rfl rfl rfl rfl, .shown rfl notNext ?_⟩
        rw [← hpos]
        exact cursorShown_last none_ cell
          (Or.inl ⟨own, pos, place, inText, distance.symm, rfl, left_⟩)
    · refine ⟨_, _, (if_neg next).trans (if_neg here), single rfl rfl rfl rfl rfl,
        .pending notFound notNext (forall_mem_concat none_ minusOne) ?_⟩
      rcases isAhead with ahead | ⟨own, ahead⟩
      · exact Or.inl ahead
      · refine Or.inr ⟨own, ?_⟩
        have reached : offset ≤ cursor.x := by
          split at ahead
          · exact ahead
          · exact Int.le_of_lt ahead
        have beyond : ¬cursor.x ≤ offset + text.length :=
          fun within => here ⟨own, notFound, reached, within⟩
        exact Int.not_le.1 beyond

/-! ### The rows of a line -/

/-- What the loop over the rows of a line relies on: the text of the line, what its rows show so far
and what they do not, and the columns that the prompt takes. -/
structure RestOfLine (t : WidthTables) (width : Int) (cursor : Position) (i : Nat) (prompt : Int)
    (text shown rest : List StreamItem) (taken : Int) : Prop where
  whole : text = shown ++ rest
  exact_ : ExactText t width prompt text
  nonneg : 0 ≤ taken
  room : taken < width
  start : RowStart t width prompt (bytesOf text) (bytesOf shown).length taken
  inLine : i = cursor.y → cursor.x ≤ (bytesOf text).length
  cursorFits : i = cursor.y → CursorFits t width prompt (bytesOf text) cursor.x

theorem bytesOf_append (first second : List StreamItem) :
    bytesOf (first ++ second) = bytesOf first ++ bytesOf second := List.flatMap_append

/-- The loop over the rows of a line shows the rest of the line. -/
theorem layLine_shows (standard : t.Standard) (bases : t.EmojiBases) (wide : 2 ≤ width)
    {numLines i : Nat} {text : List StreamItem} {lineWidth : Int} (rounds : Nat)
    {shown rest : List StreamItem} {prompt : Prompt} {isFirst : Bool} {state : Layout}
    {more : Prop} (h : RestOfLine t width cursor i lineWidth text shown rest prompt.length)
    (noPrompt : isFirst = false → prompt.length = 0)
    (enough : (bytesOf rest).length + (if isFirst then 2 else 1) ≤ rounds)
    (at_ : CursorAt t width cursor (Ahead cursor i (bytesOf shown).length isFirst) more state)
    (hasMore : isFirst = false → more →
      (bytesOf shown).length < (bytesOf text).length ∨ i + 1 < numLines) :
    ∃ state' rows, layLine t width numLines cursor i (bytesOf text) prompt isFirst
        (bytesOf shown).length state rounds = some state' ∧
      state'.ans = state.ans ++ rows ∧ (isFirst = true → rows ≠ []) ∧
      RowsOf i (bytesOf shown).length rows (bytesOf rest) ∧ (∀ sl ∈ rows, RowFits t width sl) ∧
      CursorAt t width cursor (i < cursor.y) (i + 1 < numLines) state' := by
  induction rounds generalizing shown rest prompt isFirst state more with
  | zero => split at enough <;> omega
  | succ rounds ih =>
    have length : (bytesOf shown).length + (bytesOf rest).length = (bytesOf text).length := by
      rw [h.whole, bytesOf_append, List.length_append]
    rw [layLine]
    by_cases goesOn : isFirst = true ∨ (bytesOf shown).length < (bytesOf text).length
    · rw [if_pos goesOn]
      have stream := h.exact_.stream
      have noRep := h.exact_.noRep
      rw [h.whole] at stream noRep
      obtain ⟨front, back, rfl, cut⟩ := truncateToVisualLength_cut standard bases stream.back
        (fun item mem => noRep item (List.mem_append_right _ mem))
        (show 1 ≤ width - prompt.length by have := h.room; omega)
        (h.exact_.cuts shown _ _ h.whole h.start)
      have truncated := cut.truncated
      have behind : (bytesOf text).drop (bytesOf shown).length = bytesOf (front ++ back) := by
        rw [h.whole, bytesOf_append, List.drop_left]
      rw [← behind] at truncated
      rw [bytesOf_append, List.length_append] at length enough
      obtain ⟨mid, rows, round, adds, midAt⟩ := @layRound_shows t width cursor numLines i
        (bytesOf shown).length (bytesOf text) (bytesOf front) prompt isFirst state _ more truncated
        cut.fits (by omega) h.nonneg
        (fun own from_ to_ => h.cursorFits own _ _ _ _ h.start truncated from_ to_) at_
      have reached : (bytesOf (shown ++ front)).length =
          (bytesOf shown).length + (bytesOf front).length := by
        rw [bytesOf_append, List.length_append]
      have rest : RestOfLine t width cursor i lineWidth text (shown ++ front) back
          ({} : Prompt).length := by
        refine ⟨h.whole.trans (List.append_assoc ..).symm, h.exact_, Int.le_refl 0,
          by show (0 : Int) < width; omega, ?_, h.inLine, h.cursorFits⟩
        rw [reached]
        exact h.start.next truncated
      have fewer : (bytesOf back).length + (if false = true then 2 else 1) ≤ rounds := by
        rw [if_neg Bool.false_ne_true]
        cases isFirst with
        | true =>
          rw [if_pos rfl] at enough
          omega
        | false =>
          have ahead := goesOn.resolve_left Bool.false_ne_true
          have room : 2 ≤ width - prompt.length := by
            rw [noPrompt rfl]
            omega
          have some_ : front ++ back ≠ [] := by
            intro none_
            have empty : bytesOf (front ++ back) = [] := congrArg bytesOf none_
            rw [bytesOf_append, List.append_eq_nil_iff] at empty
            rw [empty.1, empty.2] at length
            exact Nat.ne_of_lt ahead length
          have progress := List.length_pos_iff.2 (bytesOf_ne_nil (cut.progress room some_))
          rw [if_neg Bool.false_ne_true] at enough
          omega
      rw [← reached] at midAt
      obtain ⟨state', later, run, ans, -, rowsOf, fits, at'⟩ := ih rest (fun _ => rfl) fewer midAt
        (fun _ h => h)
      rw [reached] at run rowsOf
      refine ⟨state', rows ++ later, ?_, ?_, ?_, ?_, ?_, at'⟩
      · rw [round]
        exact run
      · rw [ans, adds.ans, List.append_assoc]
      · exact fun _ => List.append_ne_nil_of_left_ne_nil adds.some_ _
      · rw [bytesOf_append]
        exact adds.rowsOf.append rowsOf
      · exact List.forall_mem_append.2 ⟨adds.fits, fits⟩
    · rw [if_neg goesOn]
      obtain ⟨notFirst, ended⟩ := not_or.1 goesOn
      have notFirst := Bool.eq_false_iff.2 notFirst
      have empty : bytesOf rest = [] := List.eq_nil_of_length_eq_zero (by omega)
      refine ⟨state, [], rfl, (List.append_nil _).symm, ?_, empty, fun _ mem => (nomatch mem), ?_⟩
      · rw [notFirst]
        exact fun same => nomatch same
      · apply at_.imp
        · rintro (ahead | ⟨own, ahead⟩)
          · exact ahead
          · have inLine := h.inLine own
            rw [notFirst, if_neg Bool.false_ne_true] at ahead
            omega
        · intro some_
          exact (hasMore notFirst some_).resolve_left ended

/-! ### The rows of all lines -/

/-- The loop over the lines shows them one after the other. -/
theorem layLines_shows (standard : t.Standard) (bases : t.EmojiBases) (wide : 2 ≤ width)
    {prompts : Nat → Prompt} (room : ∀ i, 0 ≤ (prompts i).length ∧ (prompts i).length < width)
    {numLines i : Nat} {texts : List (List StreamItem)} (last : i + texts.length = numLines)
    (exact_ : ∀ k text, texts[k]? = some text →
      ExactText t width (prompts (i + k)).length text)
    (position : ∀ k text, texts[k]? = some text → ((i + k : Nat) : Int) = cursor.y →
      0 ≤ cursor.x ∧ cursor.x ≤ (bytesOf text).length ∧
        CursorFits t width (prompts (i + k)).length (bytesOf text) cursor.x)
    {state : Layout} {more : Prop} (at_ : CursorAt t width cursor (i ≤ cursor.y) more state)
    (hasMore : texts = [] → more → i < numLines) :
    ∃ state' rows, layLines t width prompts numLines cursor i state (texts.map bytesOf) =
        some state' ∧ state'.ans = state.ans ++ rows ∧ LinesOf i rows (texts.map bytesOf) ∧
      (∀ sl ∈ rows, RowFits t width sl) ∧
      CursorAt t width cursor (numLines ≤ cursor.y) False state' := by
  induction texts generalizing i state more with
  | nil =>
    have ended : i = numLines := last
    refine ⟨state, [], rfl, (List.append_nil _).symm, rfl, fun _ mem => (nomatch mem), ?_⟩
    apply at_.imp
    · rw [ended]
      exact id
    · intro some_
      exact absurd (hasMore rfl some_) (by omega)
  | cons text texts ih =>
    have own := position 0 text rfl
    have first : CursorAt t width cursor (Ahead cursor i 0 true) more state := by
      apply at_.imp _ id
      intro ahead
      rcases Int.lt_or_eq_of_le ahead with before | same
      · exact Or.inl before
      · exact Or.inr ⟨same, (own same).1⟩
    have rest : RestOfLine t width cursor i (prompts i).length text [] text (prompts i).length :=
      ⟨rfl, exact_ 0 text rfl, (room i).1, (room i).2, .first, fun same => (own same).2.1,
        fun same => (own same).2.2⟩
    obtain ⟨mid, rows, run, ans, some_, rowsOf, fits, midAt⟩ := @layLine_shows t width cursor
      standard bases wide numLines i text _ ((bytesOf text).length + 2) [] text (prompts i) true
      state more rest (fun same => (nomatch same)) (Nat.le_refl _) first
      (fun same => nomatch same)
    have atStart : (bytesOf []).length = 0 := rfl
    rw [atStart] at run rowsOf
    have later_ : ∀ k, i + 1 + k = i + (k + 1) := fun k => by omega
    have next : CursorAt t width cursor ((i + 1 : Nat) ≤ cursor.y) (i + 1 < numLines) mid := by
      apply midAt.imp _ id
      intro before
      exact before
    obtain ⟨state', later, runs, ans', linesOf, fits', at'⟩ := @ih (i + 1)
      (by rw [List.length_cons] at last; omega)
      (by
        intro k other found
        rw [later_]
        exact exact_ (k + 1) other found)
      (by
        intro k other found
        rw [later_]
        exact position (k + 1) other found)
      mid _ next (fun _ h => h)
    refine ⟨state', rows ++ later, ?_, ?_, ⟨rows, later, rfl, some_ rfl, rowsOf, linesOf⟩,
      List.forall_mem_append.2 ⟨fits, fits'⟩, at'⟩
    · rw [List.map_cons, layLines, run]
      exact runs
    · rw [ans', ans, List.append_assoc]

/-- Tables with a watch, an emoji of two columns. -/
def watchTables : WidthTables where
  wcwidthStd ch := if ch = 0x231a then 2 else smallTables.wcwidthStd ch
  isEmojiPresentationBase ch := ch = 0x231a

end Readline

end Smelly
