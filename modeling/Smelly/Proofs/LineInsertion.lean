/-
Module: Smelly.Proofs.LineInsertion
Purpose: For which texts and cursor positions the line editor inserts a text as it is.
Trusted boundary: none
-/
import Mathlib.Data.List.TakeWhile
import Smelly.Core.LineInput
import Smelly.Lib.Lines

namespace Smelly

namespace Readline

open Lines

/-! ### Slices -/

theorem sliceTo_append {α : Type} (front back : List α) :
    sliceTo (front ++ back) front.length = some front := by
  rw [sliceTo, if_pos ⟨by omega, by rw [List.length_append]; omega⟩, Int.toNat_natCast,
    List.take_left]

theorem sliceFrom_append {α : Type} (front back : List α) :
    sliceFrom (front ++ back) front.length = some back := by
  rw [sliceFrom, if_pos ⟨by omega, by rw [List.length_append]; omega⟩, Int.toNat_natCast,
    List.drop_left]

theorem elementAt_append {α : Type} (front back : List α) (a : α) :
    elementAt (front ++ a :: back) front.length = some a := by
  rw [elementAt, Int.toNat_natCast, List.getElem?_append_right (Nat.le_refl _), Nat.sub_self]
  rfl

namespace InputState

variable {s : InputState} {pre post : List Bytes} {before after text : Bytes}

/-- The cursor is in a line, `before` stands before it and `after` behind it. -/
def At (s : InputState) (pre : List Bytes) (before after : Bytes) (post : List Bytes) : Prop :=
  s = {
    lines := pre ++ (before ++ after) :: post
    cursor := { x := before.length, y := pre.length } }

/-- The cursor is at a position in the text. -/
def Valid (s : InputState) : Prop :=
  0 ≤ s.cursor.y ∧ ∃ line, s.lines[s.cursor.y.toNat]? = some line ∧
    0 ≤ s.cursor.x ∧ s.cursor.x ≤ line.length

theorem Valid.exists_at (h : s.Valid) : ∃ pre before after post, s.At pre before after post := by
  obtain ⟨lines, ⟨x, y⟩⟩ := s
  obtain ⟨yNonneg, line, found, xNonneg, inLine⟩ := h
  obtain ⟨inLines, value⟩ := List.getElem?_eq_some_iff.1 found
  refine ⟨lines.take y.toNat, line.take x.toNat, line.drop x.toNat, lines.drop (y.toNat + 1), ?_⟩
  have small : x.toNat ≤ line.length := Int.toNat_le.2 inLine
  have whole : lines.take y.toNat ++ line :: lines.drop (y.toNat + 1) = lines := by
    rw [← value, List.getElem_cons_drop, List.take_append_drop]
  rw [At, List.take_append_drop, whole, List.length_take_of_le small,
    List.length_take_of_le (Nat.le_of_lt inLines), Int.toNat_of_nonneg xNonneg,
    Int.toNat_of_nonneg yNonneg]

/-! ### The text around the cursor -/

theorem textUptoLoop_at (cursor : Position) (i : Nat) (rest : List Bytes)
    (y : cursor.y = i + pre.length) (x : cursor.x = before.length) :
    textUptoLoop cursor i (pre ++ (before ++ after) :: rest) =
      some (terminated newline pre ++ before) := by
  induction pre generalizing i with
  | nil =>
    have here : (i : Int) = cursor.y := by
      rw [y]
      exact (Int.add_zero _).symm
    have inLine : min ((before ++ after).length : Int) cursor.x = before.length := by
      rw [List.length_append]
      omega
    rw [List.nil_append, textUptoLoop, if_pos here, inLine, sliceTo_append]
    rfl
  | cons line pre ih =>
    have above : ¬(i : Int) = cursor.y := by
      rw [y, List.length_cons]
      omega
    have later := ih (i + 1) (by
      rw [y, List.length_cons]
      omega)
    rw [List.cons_append, textUptoLoop, if_neg above, later, Option.map_some, terminated_cons,
      List.append_assoc, List.cons_append]

theorem textUptoCursorPos_at (h : s.At pre before after post) :
    s.textUptoCursorPos = some (terminated newline pre ++ before) := by
  rw [h]
  exact textUptoLoop_at _ 0 post (Int.zero_add _).symm rfl

theorem textAfterLoop_below (cursor : Position) (i : Nat) (below : cursor.y < i) :
    textAfterLoop cursor i post = some (terminated newline post) := by
  induction post generalizing i with
  | nil => rfl
  | cons line post ih =>
    have here : ¬(i : Int) = cursor.y := by omega
    rw [textAfterLoop, ih (i + 1) (by omega), Option.bind_eq_bind, Option.bind_some, if_neg here,
      if_pos below, terminated_cons]

theorem textAfterLoop_at (cursor : Position) (i : Nat) (y : cursor.y = i + pre.length)
    (x : cursor.x = before.length) :
    textAfterLoop cursor i (pre ++ (before ++ after) :: post) =
      some (after ++ newline :: terminated newline post) := by
  induction pre generalizing i with
  | nil =>
    have here : (i : Int) = cursor.y := by
      rw [y]
      exact (Int.add_zero _).symm
    have inLine : min ((before ++ after).length : Int) cursor.x = before.length := by
      rw [List.length_append]
      omega
    rw [List.nil_append, textAfterLoop, textAfterLoop_below cursor (i + 1) (by omega),
      Option.bind_eq_bind, Option.bind_some, if_pos here, inLine, sliceFrom_append]
    rfl
  | cons line pre ih =>
    have above : ¬(i : Int) = cursor.y := by
      rw [y, List.length_cons]
      omega
    have notBelow : ¬(i : Int) > cursor.y := by
      omega
    have later := ih (i + 1) (by
      rw [y, List.length_cons]
      omega)
    rw [List.cons_append, textAfterLoop, later, Option.bind_eq_bind, Option.bind_some,
      if_neg above, if_neg notBelow]

/-- The text behind the cursor, with one line break more behind it. -/
theorem textAfterCursorPos_at (h : s.At pre before after post) :
    ∃ tail, s.textAfterCursorPos = some tail ∧
      tail ++ [newline] = after ++ newline :: terminated newline post := by
  have loop := @textAfterLoop_at pre post before after s.cursor 0
    (by rw [h]; exact (Int.zero_add _).symm) (by rw [h])
  refine ⟨(after ++ newline :: terminated newline post).dropLast, ?_, ?_⟩
  · rw [textAfterCursorPos]
    have lines : s.lines = pre ++ (before ++ after) :: post := by rw [h]
    rw [lines, loop]
    rfl
  · have ended : after ++ newline :: terminated newline post =
        terminated newline (after :: post) := (terminated_cons after).symm
    rw [ended, ← intercalate_append_sep (List.cons_ne_nil after post), List.dropLast_concat]

/-- All text, with one line break more behind it. -/
theorem allText_append (filled : s.lines ≠ []) :
    s.allText ++ [newline] = terminated newline s.lines := intercalate_append_sep filled

/-! ### What the scanner makes of a text -/

/-- No line of the text is too long for the scanner, and none ends in a carriage return, which the
scanner takes for a part of the line break. -/
def ScannerKeeps (text : Bytes) : Prop :=
  ∀ line ∈ text.splitOn newline, line.length < maxScanTokenSize ∧ line.getLast? ≠ some 0x0d

/-- The lines of the inserted text: those that the scanner gives, and an empty one behind a line
break at the end. -/
def addedLines (text : Bytes) : List Bytes :=
  splitlines text ++ if text.getLast? = some newline then [[]] else []

/-- The last line is empty if the text ends in a line break. -/
theorem splitOn_getLast (filled : text ≠ []) :
    (text.splitOn newline).getLast? = some [] ↔ text.getLast? = some newline := by
  constructor
  · intro empty
    obtain ⟨init, split⟩ := List.getLast?_eq_some_iff.1 empty
    have whole := @terminated_splitOn UInt8 newline _ _ text
    rw [split, terminated_append] at whole
    have text_ : terminated newline init = text := List.append_cancel_right whole
    cases List.eq_nil_or_concat init with
    | inl none_ =>
      rw [none_] at text_
      exact absurd text_.symm filled
    | inr some_ =>
      obtain ⟨front, line, rfl⟩ := some_
      rw [← text_, List.concat_eq_append, terminated_append, terminated_cons, terminated_nil,
        ← List.append_assoc, List.getLast?_concat]
  · intro ends
    obtain ⟨front, rfl⟩ := List.getLast?_eq_some_iff.1 ends
    rw [List.splitOn_append_cons_self, List.splitOn_nil, List.getLast?_concat]

/-- What the scanner keeps of lines. -/
def kept (lines : List Bytes) : List Bytes :=
  (lines.takeWhile fun line => line.length < maxScanTokenSize).map dropCR

theorem dropCR_length (line : Bytes) :
    (dropCR line).length ≤ line.length ∧
      ((dropCR line).length = line.length → line.getLast? ≠ some 0x0d) := by
  rw [dropCR]
  split
  · rename_i cr
    have filled : line ≠ [] := by
      rintro rfl
      cases cr
    have pos := List.length_pos_iff.2 filled
    rw [List.length_dropLast]
    exact ⟨Nat.sub_le _ _, fun same => absurd same (by omega)⟩
  · rename_i noCr
    exact ⟨Nat.le_refl _, fun _ => noCr⟩

/-- The scanner keeps no more than there is, and as much only of lines that it keeps as they are. -/
theorem kept_length (lines : List Bytes) :
    (terminated newline (kept lines)).length ≤ (terminated newline lines).length ∧
      ((terminated newline (kept lines)).length = (terminated newline lines).length →
        ∀ line ∈ lines, line.length < maxScanTokenSize ∧ line.getLast? ≠ some 0x0d) := by
  induction lines with
  | nil => exact ⟨Nat.le_refl _, fun _ line mem => absurd mem List.not_mem_nil⟩
  | cons line lines ih =>
    by_cases short : line.length < maxScanTokenSize
    · have next : kept (line :: lines) = dropCR line :: kept lines := by
        rw [kept, List.takeWhile_cons_of_pos (by simpa using short)]
        rfl
      obtain ⟨less, same⟩ := dropCR_length line
      rw [next, terminated_cons, terminated_cons, List.length_append, List.length_append,
        List.length_cons, List.length_cons]
      constructor
      · omega
      · intro equal other mem
        have lineSame : (dropCR line).length = line.length := by omega
        cases List.mem_cons.1 mem with
        | inl here =>
          rw [here]
          exact ⟨short, same lineSame⟩
        | inr later => exact ih.2 (by omega) other later
    · have none_ : kept (line :: lines) = [] := by
        rw [kept, List.takeWhile_cons_of_neg (by simpa using short)]
        rfl
      rw [none_]
      exact ⟨Nat.zero_le _, fun equal => absurd equal.symm (by simp)⟩

theorem kept_of_keeps {lines : List Bytes}
    (keeps : ∀ line ∈ lines, line.length < maxScanTokenSize ∧ line.getLast? ≠ some 0x0d) :
    kept lines = lines := by
  have all : lines.takeWhile (fun line => line.length < maxScanTokenSize) = lines := by
    apply List.takeWhile_eq_self_iff.2
    intro line mem
    simpa using (keeps line mem).1
  rw [kept, all]
  have same : ∀ line ∈ lines, dropCR line = id line := fun line mem => by
    rw [dropCR, if_neg (keeps line mem).2]
    rfl
  rw [List.map_congr_left same, List.map_id]

/-- The lines of a text that is not empty are no more than it has, and they are all of them if and
only if the scanner keeps them. -/
theorem addedLines_terminated (filled : text ≠ []) :
    (terminated newline (addedLines text)).length ≤ text.length + 1 ∧
      ((terminated newline (addedLines text)).length = text.length + 1 → ScannerKeeps text) ∧
      (ScannerKeeps text → addedLines text = text.splitOn newline) := by
  have whole : (terminated newline (text.splitOn newline)).length = text.length + 1 := by
    rw [terminated_splitOn, List.length_append]
    rfl
  by_cases ends : text.getLast? = some newline
  · have empty := (splitOn_getLast filled).2 ends
    obtain ⟨init, split⟩ := List.getLast?_eq_some_iff.1 empty
    have lines : splitlines text = kept init := by
      change kept (if (text.splitOn newline).getLast? = some [] then
        (text.splitOn newline).dropLast else text.splitOn newline) = kept init
      rw [if_pos empty, split, List.dropLast_concat]
    have added : addedLines text = kept init ++ [[]] := by rw [addedLines, lines, if_pos ends]
    obtain ⟨less, same⟩ := kept_length init
    rw [split, terminated_append, List.length_append] at whole
    rw [added, terminated_append, List.length_append]
    refine ⟨by omega, fun equal line mem => ?_, fun keeps => ?_⟩
    · rw [split] at mem
      cases List.mem_append.1 mem with
      | inl inside => exact same (by omega) line inside
      | inr last =>
        rw [List.mem_singleton.1 last]
        exact ⟨by decide, by decide⟩
    · rw [split, kept_of_keeps fun line mem => keeps line (by
        rw [split]
        exact List.mem_append_left _ mem)]
  · have empty := mt (splitOn_getLast filled).1 ends
    have lines : splitlines text = kept (text.splitOn newline) := by
      change kept (if (text.splitOn newline).getLast? = some [] then
        (text.splitOn newline).dropLast else text.splitOn newline) = kept (text.splitOn newline)
      rw [if_neg empty]
    have added : addedLines text = kept (text.splitOn newline) := by
      rw [addedLines, lines, if_neg ends, List.append_nil]
    obtain ⟨less, same⟩ := kept_length (text.splitOn newline)
    rw [added]
    exact ⟨by omega, fun equal => same (by omega), fun keeps => kept_of_keeps keeps⟩

/-! ### add_text -/

/-- The cursor is behind the last of the lines. -/
def AtEnd (s : InputState) (lines : List Bytes) : Prop :=
  ∃ init last, lines = init ++ [last] ∧
    s = { lines := init ++ [last], cursor := { x := last.length, y := init.length } }

theorem AtEnd.addLineBreak {lines : List Bytes} (h : AtEnd s lines) (line : Bytes) :
    AtEnd (addLineBreak s line) (lines ++ [line]) := by
  obtain ⟨init, last, rfl, rfl⟩ := h
  refine ⟨init ++ [last], line, rfl, ?_⟩
  rw [List.length_append]
  rfl

theorem AtEnd.foldl_addLineBreak {lines : List Bytes} (h : AtEnd s lines) (rest : List Bytes) :
    AtEnd (rest.foldl InputState.addLineBreak s) (lines ++ rest) := by
  induction rest generalizing s lines with
  | nil =>
    rw [List.append_nil]
    exact h
  | cons line rest ih =>
    have next := ih (h.addLineBreak line)
    rw [List.append_assoc] at next
    exact next

/-- The loop over the lines of the inserted text, where there is one. -/
theorem addLines_atEnd (x : Int) (first : Bytes) (rest : List Bytes) :
    AtEnd (addLines before { lines := pre, cursor := { x, y := pre.length } } (first :: rest))
      (pre ++ (before ++ first) :: rest) := by
  have started : AtEnd
      (addFirstLine before { lines := pre, cursor := { x, y := pre.length } } first)
      (pre ++ [before ++ first]) := ⟨pre, before ++ first, rfl, rfl⟩
  have whole := started.foldl_addLineBreak rest
  rw [List.append_assoc] at whole
  exact whole

theorem addAfterFirstLine_concat (init : List Bytes) (last : Bytes) :
    addAfterFirstLine after (init ++ [last]) = init ++ [last ++ after] := by
  by_cases empty : after = []
  · rw [addAfterFirstLine, if_neg (not_not_intro empty), empty, List.append_nil]
  · have filled : init ++ [last] ≠ [] := List.append_ne_nil_of_right_ne_nil _ (List.cons_ne_nil _ _)
    have index : (init ++ [last]).length - 1 = init.length := by
      rw [List.length_append]
      rfl
    rw [addAfterFirstLine, if_pos empty, if_neg filled]
    change (init ++ [last]).modify ((init ++ [last]).length - 1) (fun line => line ++ after) = _
    rw [index, List.modify_eq_take_drop, List.take_left, List.drop_left]
    rfl

/-- `add_text` in terms of what stands around the cursor. -/
theorem addText_eq (h : s.At pre before after post) (text : Bytes) :
    s.addText text =
      (let state := addLines before { s with lines := pre } (splitlines text)
        let state := if text.getLast? = some newline then addLineBreak state [] else state
        some { state with lines := addAfterFirstLine after state.lines ++ post }) := by
  rw [h, addText]
  simp [sliceTo_append, elementAt_append]

/-- Where the scanner gives a line, the lines of the text stand between what was before and behind
the cursor, and the cursor is behind them. -/
theorem addText_at (h : s.At pre before after post) {first : Bytes} {rest : List Bytes}
    (scanned : splitlines text ≠ []) (added : addedLines text = first :: rest) :
    ∃ init last s', (before ++ first) :: rest = init ++ [last] ∧ s.addText text = some s' ∧
      s'.At (pre ++ init) last after post := by
  obtain ⟨line, lines, split⟩ := List.exists_cons_of_ne_nil scanned
  have looped := @addLines_atEnd pre before s.cursor.x line lines
  have state : { s with lines := pre } =
      ({ lines := pre, cursor := { x := s.cursor.x, y := pre.length } } : InputState) := by
    rw [h]
  rw [← state, ← split] at looped
  obtain ⟨last, atEnd⟩ : ∃ last, last = (if text.getLast? = some newline then
      InputState.addLineBreak (addLines before { s with lines := pre } (splitlines text)) []
    else addLines before { s with lines := pre } (splitlines text)) := ⟨_, rfl⟩
  have ended : AtEnd last (pre ++ (before ++ first) :: rest) := by
    rw [addedLines, split, List.cons_append] at added
    obtain ⟨rfl, rfl⟩ := List.cons.inj added
    rw [atEnd]
    split
    · have broken := looped.addLineBreak []
      rw [List.append_assoc] at broken
      exact broken
    · rw [List.append_nil]
      exact looped
  obtain ⟨init, final, whole, place⟩ := ended
  -- all but the last of these lines: those before the cursor, and some of the text
  obtain ⟨front, inner, shape⟩ : ∃ front, (before ++ first) :: rest = front ++ [final] ∧
      init = pre ++ front := by
    obtain ⟨front, tail, shape⟩ : ∃ front tail, (before ++ first) :: rest = front ++ [tail] :=
      ⟨_, _, (List.dropLast_append_getLast (List.cons_ne_nil _ _)).symm⟩
    rw [shape, ← List.append_assoc] at whole
    obtain ⟨same, tails⟩ := List.append_inj' whole rfl
    refine ⟨front, ?_, same.symm⟩
    rw [shape, (List.cons.inj tails).1]
  refine ⟨front, final, _, inner, (addText_eq h text).trans rfl, ?_⟩
  simp only [← atEnd]
  rw [place, shape, addAfterFirstLine_concat, List.append_assoc]
  rfl

theorem allText_length (s : InputState) :
    s.allText.length = (terminated newline s.lines).length - 1 := by
  by_cases empty : s.lines = []
  · rw [allText, empty]
    rfl
  · rw [← allText_append empty, List.length_append]
    rfl

/-! ### Inserting -/

/-- After `add_text` all text is the text before the cursor, the inserted text and the text behind
the cursor, and the text before the cursor ends with the inserted text. -/
def Inserts (s : InputState) (text : Bytes) : Prop :=
  ∃ s' upto tail, s.addText text = some s' ∧ s.textUptoCursorPos = some upto ∧
    s.textAfterCursorPos = some tail ∧ s'.allText = upto ++ text ++ tail ∧
    s'.textUptoCursorPos = some (upto ++ text)

/-- Where the empty text leaves the lines as they are: at the start of the first line, unless that
is empty and there are others. -/
def KeepsEmpty (s : InputState) : Prop :=
  s.cursor = { x := 0, y := 0 } ∧ (s.lines = [[]] ∨ s.lines.head? ≠ some [])

theorem inserts_iff (h : s.At pre before after post) :
    s.Inserts text ↔ ∃ s', s.addText text = some s' ∧
      s'.allText ++ [newline] =
        terminated newline pre ++ before ++ text ++ (after ++ newline :: terminated newline post) ∧
      s'.textUptoCursorPos = some (terminated newline pre ++ before ++ text) := by
  obtain ⟨tail, tailEq, tailBreak⟩ := textAfterCursorPos_at h
  have uptoEq := textUptoCursorPos_at h
  constructor
  · rintro ⟨s', upto, tail', added, upto', tail'', all, moved⟩
    obtain rfl := Option.some.inj (uptoEq.symm.trans upto')
    obtain rfl := Option.some.inj (tailEq.symm.trans tail'')
    refine ⟨s', added, ?_, moved⟩
    rw [all, List.append_assoc, tailBreak]
  · rintro ⟨s', added, all, moved⟩
    rw [← tailBreak, ← List.append_assoc] at all
    exact ⟨s', _, tail, added, uptoEq, tailEq, List.append_cancel_right all, moved⟩

/-- A text whose lines the scanner keeps is inserted as it is. -/
theorem inserts_of_keeps (h : s.At pre before after post) (filled : text ≠ [])
    (keeps : ScannerKeeps text) : s.Inserts text := by
  have added := (addedLines_terminated filled).2.2 keeps
  obtain ⟨first, rest, split⟩ := List.exists_cons_of_ne_nil (List.splitOn_ne_nil newline text)
  have whole : terminated newline (first :: rest) = text ++ [newline] := by
    rw [← split]
    exact terminated_splitOn text
  have scanned : splitlines text ≠ [] := by
    intro none_
    rw [addedLines, none_, split] at added
    split at added
    · obtain ⟨rfl, rfl⟩ := List.cons.inj added
      have same : ([] : Bytes) ++ [newline] = text ++ [newline] := whole
      exact filled (List.append_cancel_right same).symm
    · cases added
  obtain ⟨init, last, s', shape, result, place⟩ := addText_at h scanned (added.trans split)
  have inner : terminated newline init ++ last = before ++ text := by
    have both : terminated newline init ++ last ++ [newline] = before ++ text ++ [newline] := by
      rw [List.append_assoc before, ← whole, ← terminated_front, shape, terminated_append,
        terminated_cons, List.append_assoc]
      rfl
    exact List.append_cancel_right both
  have upto : terminated newline (pre ++ init) ++ last =
      terminated newline pre ++ before ++ text := by
    rw [terminated_append, List.append_assoc, inner, List.append_assoc]
  apply (inserts_iff h).2
  refine ⟨s', result, ?_, ?_⟩
  · have lines : s'.lines = (pre ++ init) ++ (last ++ after) :: post := by rw [place]
    have some_ : s'.lines ≠ [] := by
      rw [lines]
      exact List.append_ne_nil_of_right_ne_nil _ (List.cons_ne_nil _ _)
    rw [allText_append some_, lines, terminated_append, terminated_front, ← List.append_assoc, upto,
      terminated_cons]
  · rw [textUptoCursorPos_at place, upto]

/-- A text that is inserted as it is has only lines that the scanner keeps. -/
theorem keeps_of_inserts (h : s.At pre before after post) (filled : text ≠ [])
    (inserts : s.Inserts text) : ScannerKeeps text := by
  obtain ⟨s', result, all, -⟩ := (inserts_iff h).1 inserts
  obtain ⟨-, keeps, -⟩ := addedLines_terminated filled
  have pos := List.length_pos_iff.2 filled
  have sizes := congrArg List.length all
  have size := allText_length s'
  simp only [List.length_append, List.length_cons, List.length_nil] at sizes
  by_cases scanned : splitlines text = []
  · rw [addText_eq h, scanned] at result
    have lines : s'.lines = addAfterFirstLine after pre ++ post ∨
        s'.lines = addAfterFirstLine after (pre ++ [[]]) ++ post := by
      have same := (Option.some.inj result).symm
      rw [same]
      by_cases ends : text.getLast? = some newline
      · right
        simp only [if_pos ends]
        rfl
      · left
        simp only [if_neg ends]
        rfl
    have bound : (terminated newline s'.lines).length ≤ (terminated newline pre).length +
        after.length + 1 + (terminated newline post).length := by
      have ended : ∀ init last, (terminated newline (addAfterFirstLine after (init ++ [last]) ++
          post)).length = (terminated newline (init ++ [last])).length + after.length +
            (terminated newline post).length := by
        intro init last
        rw [addAfterFirstLine_concat]
        simp only [terminated_append, terminated_cons, List.length_append]
        omega
      rcases lines with same | same
      · rw [same]
        cases List.eq_nil_or_concat pre with
        | inl none_ =>
          rw [none_, addAfterFirstLine]
          split
          · simp
            omega
          · rw [List.nil_append]
            omega
        | inr some_ =>
          obtain ⟨init, last, shape⟩ := some_
          rw [shape, List.concat_eq_append, ended]
          omega
      · rw [same, ended, terminated_append, List.length_append]
        exact Nat.le_of_eq (by simp; omega)
    omega
  · obtain ⟨first, rest, added⟩ : ∃ first rest, addedLines text = first :: rest := by
      apply List.exists_cons_of_ne_nil
      exact List.append_ne_nil_of_left_ne_nil scanned _
    obtain ⟨init, last, s'', shape, result', place⟩ := addText_at h scanned added
    obtain rfl := Option.some.inj (result.symm.trans result')
    apply keeps
    have lines : s'.lines = (pre ++ init) ++ (last ++ after) :: post := by rw [place]
    have inner : (terminated newline init).length + last.length + 1 =
        before.length + (terminated newline (first :: rest)).length := by
      have same := congrArg (fun lines => (terminated newline lines).length) shape
      simp only [terminated_append, terminated_cons, terminated_nil, List.length_append,
        List.length_cons, List.length_nil] at same
      simp only [terminated_cons, List.length_append, List.length_cons]
      omega
    rw [lines, terminated_append, terminated_cons, terminated_append] at size
    simp only [List.length_append, List.length_cons] at size
    rw [added]
    omega

/-- The empty text leaves the lines as they are only at these positions. -/
theorem inserts_empty (h : s.At pre before after post) : s.Inserts [] ↔ s.KeepsEmpty := by
  have result : s.addText [] = some { s with lines := addAfterFirstLine after pre ++ post } :=
    addText_eq h []
  have cursor : s.cursor = { x := before.length, y := pre.length } := by rw [h]
  have lines : s.lines = pre ++ (before ++ after) :: post := by rw [h]
  have iff := @inserts_iff s pre post before after [] h
  rw [result] at iff
  constructor
  · intro inserts
    obtain ⟨s', same, all, -⟩ := iff.1 inserts
    obtain rfl := Option.some.inj same
    have sizes := congrArg List.length all
    have size := allText_length { s with lines := addAfterFirstLine after pre ++ post }
    simp only [List.length_append] at sizes
    cases List.eq_nil_or_concat pre with
    | inr some_ =>
      obtain ⟨init, last, shape⟩ := some_
      rw [List.concat_eq_append] at shape
      rw [shape] at size sizes
      simp only [addAfterFirstLine_concat, terminated_append, terminated_cons, List.length_append,
        List.length_cons] at size sizes
      omega
    | inl none_ =>
      subst none_
      by_cases empty : after = []
      · subst empty
        have kept : addAfterFirstLine [] ([] : List Bytes) = [] := rfl
        rw [kept, List.nil_append] at size sizes
        cases post with
        | nil =>
          have noFront : before = [] := List.length_eq_zero_iff.1 (by
            simp only [terminated_nil] at size sizes
            omega)
          subst noFront
          exact ⟨cursor, Or.inl lines⟩
        | cons line post =>
          simp only [terminated_cons, List.length_append, List.length_cons] at size sizes
          omega
      · have kept : addAfterFirstLine after ([] : List Bytes) = [after] := by
          rw [addAfterFirstLine, if_pos empty]
          rfl
        rw [kept] at size sizes
        have noFront : before = [] := List.length_eq_zero_iff.1 (by
          simp only [List.singleton_append, terminated_cons, List.length_append,
            List.length_cons] at size sizes
          omega)
        subst noFront
        refine ⟨cursor, Or.inr ?_⟩
        rw [lines]
        exact fun same => empty (Option.some.inj same)
  · rintro ⟨start, kind⟩
    rw [cursor] at start
    obtain ⟨x, y⟩ := Position.mk.inj start
    have noLines : pre = [] := List.length_eq_zero_iff.1 (Int.ofNat_inj.1 y)
    have noFront : before = [] := List.length_eq_zero_iff.1 (Int.ofNat_inj.1 x)
    subst noLines noFront
    apply iff.2
    refine ⟨_, rfl, ?_⟩
    by_cases empty : after = []
    · subst empty
      have single : post = [] := by
        rcases kind with same | other
        · rw [lines] at same
          exact (List.cons.inj same).2
        · rw [lines] at other
          exact absurd rfl other
      subst single
      exact ⟨rfl, rfl⟩
    · have kept : addAfterFirstLine after ([] : List Bytes) = [after] := by
        rw [addAfterFirstLine, if_pos empty]
        rfl
      have place : ({ s with lines := [after] ++ post } : InputState).At [] [] after post := by
        rw [cursor]
        rfl
      rw [kept]
      refine ⟨?_, ?_⟩
      · rw [allText_append (List.cons_ne_nil _ _)]
        exact terminated_cons after
      · exact textUptoCursorPos_at place

/-- At a position in the text `add_text` inserts a text as it is if and only if the scanner keeps
all its lines, or it is empty and the position is one where this does no harm. -/
theorem addTextInserts (valid : s.Valid) (text : Bytes) :
    s.Inserts text ↔ if text = [] then s.KeepsEmpty else ScannerKeeps text := by
  obtain ⟨pre, before, after, post, place⟩ := valid.exists_at
  by_cases empty : text = []
  · rw [if_pos empty, empty]
    exact inserts_empty place
  · rw [if_neg empty]
    exact ⟨keeps_of_inserts place empty, inserts_of_keeps place empty⟩

/-- Two lines and a line break at the end, inserted in the middle of `abcd`. -/
theorem addTextInserts_middle :
    InputState.Inserts { lines := [[0x61, 0x62, 0x63, 0x64]], cursor := { x := 2, y := 0 } }
      [0x31, 0x0a, 0x32, 0x0a] := by
  apply (addTextInserts ?_ [0x31, 0x0a, 0x32, 0x0a]).2
  · rw [if_neg (by decide), ScannerKeeps]
    decide
  · exact ⟨by decide, [0x61, 0x62, 0x63, 0x64], rfl, by decide, by decide⟩

/-- The empty text takes `ab` away before the cursor. -/
theorem addTextInserts_empty :
    InputState.Valid { lines := [[0x61, 0x62, 0x63]], cursor := { x := 2, y := 0 } } ∧
      ¬InputState.Inserts { lines := [[0x61, 0x62, 0x63]], cursor := { x := 2, y := 0 } } [] := by
  constructor
  · exact ⟨by decide, [0x61, 0x62, 0x63], rfl, by decide, by decide⟩
  · rintro ⟨s', upto, tail, added, upto', tail', all, -⟩
    obtain rfl := Option.some.inj added
    obtain rfl := Option.some.inj upto'
    obtain rfl := Option.some.inj tail'
    exact absurd all (by decide)

end InputState

end Readline

end Smelly
