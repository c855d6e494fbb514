/-
Module: Smelly.Proofs.KillYank
Purpose: When a yank directly behind a kill puts the killed text back.
Trusted boundary: none
-/
import Smelly.Core.KillRing
import Smelly.Proofs.LineInsertion
import Smelly.Proofs.WidthAgreement

namespace Smelly

namespace Readline

open Lines Wcswidth

variable {t : WidthTables} {u : UnicodeClasses}

/-! ### Motions -/

namespace InputState

/-- The lines stay as they are, and the cursor stays in one of them. -/
structure KeepsLines (s s' : InputState) : Prop where
  lines : s'.lines = s.lines
  inLines : 0 ≤ s.cursor.y ∧ s.cursor.y < s.lines.length →
    0 ≤ s'.cursor.y ∧ s'.cursor.y < s'.lines.length

theorem KeepsLines.trans {a b c : InputState} (first : KeepsLines a b) (second : KeepsLines b c) :
    KeepsLines a c :=
  ⟨second.lines.trans first.lines, fun inLines => second.inLines (first.inLines inLines)⟩

/-- A motion in a line. -/
theorem keepsLines_x (s : InputState) (x : Int) :
    KeepsLines s { s with cursor := { s.cursor with x } } := ⟨rfl, id⟩

theorem moveToEndOfLine_keeps {s s' : InputState} {moved : Bool}
    (h : s.moveToEndOfLine = some (s', moved)) : KeepsLines s s' := by
  rw [moveToEndOfLine] at h
  cases found : elementAt s.lines s.cursor.y with
  | none =>
    rw [found] at h
    cases h
  | some line =>
    rw [found] at h
    simp only [Option.bind_eq_bind, Option.bind_some] at h
    split at h
    · cases h
      exact ⟨rfl, id⟩
    · cases h
      exact keepsLines_x s _

theorem moveToStartOfLine_keeps (s : InputState) : KeepsLines s s.moveToStartOfLine.1 := by
  rw [moveToStartOfLine]
  split
  · exact keepsLines_x s _
  · exact ⟨rfl, id⟩

theorem endOfWordInLine_keeps {isPartOfWord : Bytes → Bool} {s s' : InputState}
    {amt left_ moved : Nat} (h : s.endOfWordInLine t isPartOfWord amt = some (s', left_, moved)) :
    KeepsLines s s' := by
  obtain ⟨line, -, h⟩ := Option.bind_eq_some_iff.1 h
  obtain ⟨text, -, h⟩ := Option.bind_eq_some_iff.1 h
  simp only at h
  split at h
  · cases h
    exact keepsLines_x s _
  · obtain ⟨⟨mid, atEnd⟩, ended, h⟩ := Option.bind_eq_some_iff.1 h
    have kept := (keepsLines_x s _).trans (moveToEndOfLine_keeps ended)
    split at h
    · cases h
      exact kept
    · cases h
      exact kept

theorem moveToEndOfWordLoop_keeps {traverse : Bool} {isPartOfWord : Bytes → Bool} (bound : Nat)
    {s s' : InputState} {amt moved : Nat}
    (h : moveToEndOfWordLoop t traverse isPartOfWord bound s amt = some (s', moved)) :
    KeepsLines s s' := by
  induction bound generalizing s s' amt moved with
  | zero => cases h
  | succ bound ih =>
    rw [moveToEndOfWordLoop] at h
    split at h
    · cases h
      exact ⟨rfl, id⟩
    · obtain ⟨⟨mid, left_, soFar⟩, inLine, h⟩ := Option.bind_eq_some_iff.1 h
      have kept := endOfWordInLine_keeps inLine
      simp only at h
      split at h
      · have next : KeepsLines mid { mid with cursor := { x := 0, y := mid.cursor.y + 1 } } :=
          ⟨rfl, fun inLines => ⟨by have := inLines.1; show 0 ≤ mid.cursor.y + 1; omega,
            by show mid.cursor.y + 1 < mid.lines.length; omega⟩⟩
        obtain ⟨result, run, same⟩ := Option.bind_eq_some_iff.1 h
        cases same
        exact (kept.trans next).trans (ih run)
      · cases h
        exact kept

theorem startOfWordInLine_keeps {isPartOfWord : Bytes → Bool} {s s' : InputState}
    {amt left_ moved : Nat} (h : s.startOfWordInLine t isPartOfWord amt = some (s', left_, moved)) :
    KeepsLines s s' := by
  obtain ⟨line, -, h⟩ := Option.bind_eq_some_iff.1 h
  obtain ⟨text, -, h⟩ := Option.bind_eq_some_iff.1 h
  simp only at h
  split at h
  · cases h
    exact keepsLines_x s _
  · have kept := fun x => (keepsLines_x s x).trans (moveToStartOfLine_keeps _)
    split at h
    · cases h
      exact kept _
    · cases h
      exact kept _

theorem moveToStartOfWordLoop_keeps {traverse : Bool} (bound : Nat) {s s' : InputState}
    {amt moved : Nat} {isPartOfWord : Bytes → Bool}
    (h : moveToStartOfWordLoop t u traverse bound isPartOfWord s amt = some (s', moved)) :
    KeepsLines s s' := by
  induction bound generalizing s s' amt moved isPartOfWord with
  | zero => cases h
  | succ bound ih =>
    rw [moveToStartOfWordLoop] at h
    split at h
    · cases h
      exact ⟨rfl, id⟩
    · obtain ⟨⟨mid, left_, soFar⟩, inLine, h⟩ := Option.bind_eq_some_iff.1 h
      have kept := startOfWordInLine_keeps inLine
      simp only at h
      split at h
      · obtain ⟨above, -, h⟩ := Option.bind_eq_some_iff.1 h
        obtain ⟨result, run, same⟩ := Option.bind_eq_some_iff.1 h
        cases same
        have next : KeepsLines mid
            { mid with cursor := { x := above.length, y := mid.cursor.y - 1 } } :=
          ⟨rfl, fun inLines => ⟨by show 0 ≤ mid.cursor.y - 1; omega,
            by have := inLines.2; show mid.cursor.y - 1 < mid.lines.length; omega⟩⟩
        exact (kept.trans next).trans (ih run)
      · cases h
        exact kept

/-! ### Erasing in a line -/

theorem less_iff {p q : Position} : p.less q = true ↔ p.y < q.y ∨ p.y = q.y ∧ p.x < q.x := by
  rw [Position.less, decide_eq_true_iff]

/-- Two positions can be given in either order. -/
theorem eraseBetween_comm (s : InputState) {p q : Position} (ne : p ≠ q) :
    s.eraseBetween p q = s.eraseBetween q p := by
  have differs : ¬(p.x = q.x ∧ p.y = q.y) := by
    rintro ⟨x, y⟩
    cases p
    cases x
    cases y
    exact ne rfl
  rw [eraseBetween, eraseBetween]
  by_cases before : p.less q = true
  · have other : ¬q.less p = true := by
      rw [less_iff] at before ⊢
      omega
    rw [if_pos before, if_neg other]
  · have other : q.less p = true := by
      rw [less_iff] at before ⊢
      omega
    rw [if_neg before, if_pos other]

theorem slice_middle {α : Type} (front middle back : List α) :
    slice (front ++ middle ++ back) front.length (front ++ middle).length = some middle := by
  rw [slice, sliceTo_append, Option.bind_eq_bind, Option.bind_some, sliceFrom_append]

/-- The text between two positions of a line is erased, and the cursor, which is at one of them, is
where it was. -/
theorem eraseBetween_inLine {pre post : List Bytes} {front killed back : Bytes} {s : InputState}
    (lines : s.lines = pre ++ (front ++ killed ++ back) :: post) (y : s.cursor.y = pre.length)
    (x : s.cursor.x = front.length ∨ s.cursor.x = (front ++ killed).length) :
    s.eraseBetween { x := front.length, y := pre.length }
        { x := (front ++ killed).length, y := pre.length } =
      some ({ lines := pre ++ (front ++ back) :: post
              cursor := { x := front.length, y := pre.length } }, killed) := by
  have length : ((front ++ killed).length : Int) = front.length + killed.length := by
    rw [List.length_append]
    rfl
  have inOrder : ¬({ x := (front ++ killed).length, y := pre.length } : Position).less
      { x := front.length, y := pre.length } = true := by
    rw [less_iff]
    simp only
    omega
  have found : elementAt s.lines (pre.length : Int) = some (front ++ killed ++ back) := by
    rw [lines, elementAt_append]
  have start := sliceTo_append front (killed ++ back)
  rw [← List.append_assoc] at start
  have cursor : s.cursor.y = pre.length ∧ s.cursor.x ≥ front.length := ⟨y, by omega⟩
  have moved : cursorAfterErased { x := front.length, y := pre.length }
      { x := (front ++ killed).length, y := pre.length } s.cursor = front.length := by
    rw [cursorAfterErased]
    split
    · rfl
    · simp only at *
      omega
  rw [eraseBetween, if_neg inOrder]
  simp only [if_true]
  rw [eraseInLine, found]
  simp only [Option.bind_eq_bind, Option.bind_some, slice_middle, start, sliceFrom_append, moved,
    Int.toNat_natCast, lines, List.set_append_right _ _ (Nat.le_refl _), Nat.sub_self,
    List.set_cons_zero]
  rw [if_pos cursor, y]

/-! ### Erasing over line breaks -/

/-- Lines outside of the erased ones stay. -/
theorem eraseRounds_outside {start end_ : Position} (block : List Bytes) (i : Nat)
    (outside : ∀ k < block.length, ((i + k : Nat) : Int) < start.y ∨ ((i + k : Nat) : Int) > end_.y)
    (s : InputState) (buf : Bytes) :
    (block.zipIdx i).foldlM (eraseRound start end_) (s, buf) =
      some ({ s with lines := s.lines ++ block }, buf) := by
  induction block generalizing i s with
  | nil =>
    rw [List.append_nil]
    rfl
  | cons line block ih =>
    have first := outside 0 (Nat.zero_lt_succ _)
    rw [Nat.add_zero] at first
    have later := ih (i + 1) (by
      intro k small
      have within := outside (k + 1) (Nat.succ_lt_succ small)
      have same : i + (k + 1) = i + 1 + k := by omega
      rwa [same] at within) { s with lines := s.lines ++ [line] }
    rw [List.zipIdx_cons, List.foldlM_cons, eraseRound]
    simp only [if_pos first, Option.bind_eq_bind, Option.bind_some]
    rw [later, List.append_assoc]
    rfl

/-- Lines between the first and the last of the erased ones go, with their line breaks. -/
theorem eraseRounds_between {start end_ : Position} (block : List Bytes) (i : Nat)
    (below : start.y < i) (above : ((i + block.length : Nat) : Int) ≤ end_.y)
    (s : InputState) (buf : Bytes) :
    ∃ cursor, (block.zipIdx i).foldlM (eraseRound start end_) (s, buf) =
      some ({ s with cursor }, buf ++ terminated newline block) := by
  induction block generalizing i s buf with
  | nil =>
    rw [terminated_nil, List.append_nil]
    exact ⟨s.cursor, rfl⟩
  | cons line block ih =>
    rw [List.length_cons] at above
    have outside : ¬((i : Int) < start.y ∨ (i : Int) > end_.y) := by omega
    have notFirst : ¬(i : Int) = start.y := by omega
    have notLast : ¬(i : Int) = end_.y := by omega
    obtain ⟨cursor, later⟩ := ih (i + 1) (by push_cast; omega) (by push_cast at above ⊢; omega)
      { s with cursor := if (i : Int) = s.cursor.y then start else s.cursor }
      (buf ++ line ++ [newline])
    refine ⟨cursor, ?_⟩
    rw [List.zipIdx_cons, List.foldlM_cons, eraseRound]
    simp only [if_neg outside, if_neg notFirst, if_neg notLast, Option.bind_eq_bind,
      Option.bind_some]
    rw [later, terminated_cons, List.append_assoc, List.append_assoc]
    rfl

/-- A line is cut where both slices of it exist. -/
theorem slices_cut {line front back : Bytes} {x : Int} (taken : sliceTo line x = some front)
    (from_ : sliceFrom line x = some back) : line = front ++ back := by
  rw [sliceTo] at taken
  rw [sliceFrom] at from_
  split at taken
  · rename_i inLine
    rw [if_pos inLine] at from_
    cases taken
    cases from_
    exact (List.take_append_drop _ _).symm
  · cases taken

/-- The round for the first of the erased lines. -/
theorem eraseRound_first {start end_ : Position} {i : Nat} (own : (i : Int) = start.y)
    (later : start.y < end_.y) {s : InputState} {buf line : Bytes} {result : InputState × Bytes}
    (h : eraseRound start end_ (s, buf) (line, i) = some result) :
    ∃ front erased cursor, line = front ++ erased ∧
      result = ({ lines := s.lines ++ [front], cursor }, buf ++ erased) := by
  have outside : ¬((i : Int) < start.y ∨ (i : Int) > end_.y) := by omega
  rw [eraseRound] at h
  simp only [if_neg outside, if_pos own] at h
  obtain ⟨front, taken, h⟩ := Option.bind_eq_some_iff.1 h
  obtain ⟨erased, from_, h⟩ := Option.bind_eq_some_iff.1 h
  cases h
  exact ⟨front, erased, _, slices_cut taken from_, rfl⟩

/-- The round for the last of the erased lines. -/
theorem eraseRound_last {start end_ : Position} {i : Nat} (own : (i : Int) = end_.y)
    (later : start.y < end_.y) {s : InputState} {buf line front : Bytes} {lines : List Bytes}
    (above : s.lines = lines ++ [front]) {result : InputState × Bytes}
    (h : eraseRound start end_ (s, buf) (line, i) = some result) :
    ∃ erased back cursor, line = erased ++ back ∧
      result = ({ lines := lines ++ [front ++ back], cursor }, buf ++ erased) := by
  have outside : ¬((i : Int) < start.y ∨ (i : Int) > end_.y) := by omega
  have notFirst : ¬(i : Int) = start.y := by omega
  rw [eraseRound] at h
  simp only [if_neg outside, if_neg notFirst, if_pos own] at h
  obtain ⟨back, from_, h⟩ := Option.bind_eq_some_iff.1 h
  obtain ⟨erased, taken, h⟩ := Option.bind_eq_some_iff.1 h
  obtain ⟨last, found, h⟩ := Option.bind_eq_some_iff.1 h
  rw [above, List.getLast?_concat] at found
  cases found
  cases h
  refine ⟨erased, back, if (i : Int) = s.cursor.y then
    { x := cursorAfterErased start end_ s.cursor, y := start.y } else s.cursor,
    slices_cut taken from_, ?_⟩
  rw [above, List.dropLast_concat]

theorem exists_split {α : Type} {l : List α} {i : Nat} (small : i < l.length) :
    ∃ pre a post, l = pre ++ a :: post ∧ pre.length = i := by
  refine ⟨l.take i, l[i], l.drop (i + 1), ?_, List.length_take_of_le (Nat.le_of_lt small)⟩
  rw [List.getElem_cons_drop, List.take_append_drop]

/-- Over line breaks `erase_between` returns a text that is shorter by one than what it takes: the
first line break is missing. -/
theorem eraseBetween_overLines {s s' : InputState} {start end_ : Position} {erased : Bytes}
    (later : start.y < end_.y) (inLines : 0 ≤ start.y ∧ end_.y < s.lines.length)
    (h : s.eraseBetween start end_ = some (s', erased)) :
    s.allText.length = s'.allText.length + erased.length + 1 := by
  obtain ⟨pre, first, rest, lines, y⟩ := exists_split (l := s.lines) (i := start.y.toNat) (by omega)
  have lengths := congrArg List.length lines
  rw [List.length_append, List.length_cons] at lengths
  obtain ⟨mid, last, post, rfl, y'⟩ := exists_split (l := rest)
    (i := end_.y.toNat - start.y.toNat - 1) (by omega)
  have inOrder : ¬end_.less start = true := by
    rw [less_iff]
    omega
  have differ : ¬start.y = end_.y := by omega
  rw [eraseBetween, if_neg inOrder] at h
  simp only [if_neg differ] at h
  rw [lines, List.zipIdx_append, List.foldlM_append,
    eraseRounds_outside pre 0 (by intro k small; left; omega), Option.bind_eq_bind,
    Option.bind_some] at h
  obtain ⟨mid₁, round, h⟩ := Option.bind_eq_some_iff.1 h
  obtain ⟨front, erasedFirst, cursor, rfl, rfl⟩ := eraseRound_first (by omega) later round
  obtain ⟨cursor', between⟩ := @eraseRounds_between start end_ mid (0 + pre.length + 1) (by omega)
    (by omega) { lines := [] ++ pre ++ [front], cursor } ([] ++ erasedFirst)
  rw [List.zipIdx_append, List.foldlM_append, between, Option.bind_eq_bind, Option.bind_some] at h
  obtain ⟨mid₂, round', h⟩ := Option.bind_eq_some_iff.1 h
  obtain ⟨erasedLast, back, cursor'', rfl, rfl⟩ := eraseRound_last (by omega) later rfl round'
  rw [eraseRounds_outside post _ (by intro k small; right; omega)] at h
  cases h
  rw [allText_length, allText_length, lines]
  simp only [terminated_append, terminated_cons, List.length_append, List.length_cons,
    terminated_nil, List.length_nil]
  omega

end InputState

namespace Editor

/-! ### Killing -/

/-- The motion of a kill action: where it leaves the cursor, and how many words it moves over. -/
def motion (t : WidthTables) (u : UnicodeClasses) (s : InputState) (ac : KillAction)
    (repeatCount : Nat) : Option (InputState × Nat) :=
  match ac with
  | .killToEndOfLine => s.moveToEndOfLine.map fun moved => (moved.1, moved.2.toNat)
  | .killToStartOfLine => some (s.moveToStartOfLine.1, s.moveToStartOfLine.2.toNat)
  | .killNextWord => s.moveToEndOfWord t repeatCount true (hasWordChars u)
  | .killPreviousWord => s.moveToStartOfWord t u repeatCount true (hasWordChars u)
  | .killPreviousSpaceDelimitedWord => s.moveToStartOfWord t u repeatCount true (hasNoSpaceChars u)

theorem motion_keeps {s moved : InputState} {ac : KillAction} {repeatCount num : Nat}
    (h : motion t u s ac repeatCount = some (moved, num)) : InputState.KeepsLines s moved := by
  cases ac with
  | killToEndOfLine =>
    obtain ⟨⟨mid, atEnd⟩, run, same⟩ := Option.map_eq_some_iff.1 h
    cases same
    exact InputState.moveToEndOfLine_keeps run
  | killToStartOfLine =>
    cases h
    exact InputState.moveToStartOfLine_keeps s
  | killNextWord => exact InputState.moveToEndOfWordLoop_keeps _ h
  | killPreviousWord => exact InputState.moveToStartOfWordLoop_keeps _ h
  | killPreviousSpaceDelimitedWord => exact InputState.moveToStartOfWordLoop_keeps _ h

/-- What a kill makes of the text between the two ends of its motion. -/
def afterKill (before : Editor) (ac : KillAction) (erased : InputState × Bytes) : Editor :=
  { before with
    inputState := erased.1
    killRing := before.killRing.addNewItem erased.2
    lastAction := ac.action }

theorem killText_fresh {self : Editor} (fresh : self.lastAction.isKill = false) (text : Bytes) :
    self.killText text = some { self with killRing := self.killRing.addNewItem text } := by
  rw [killText, if_neg (by rw [fresh]; exact Bool.false_ne_true)]

/-- The kill of words erases what is between the two ends of the motion. -/
theorem killMoved_eq {before : Editor} (fresh : before.lastAction.isKill = false)
    {moved : InputState} {num : Nat} (kills : 0 < num) (start end_ : Position) :
    before.killMoved (moved, num) start end_ =
      (moved.eraseBetween start end_).map fun erased =>
        ({ before with
            inputState := erased.1
            killRing := before.killRing.addNewItem erased.2 }, true) := by
  rw [killMoved]
  simp only [if_pos kills]
  cases moved.eraseBetween start end_ with
  | none => rfl
  | some erased =>
    have text := @killText_fresh { before with inputState := erased.1 } fresh erased.2
    simp [text]

/-- The kill to the end of the line erases what is behind the cursor. -/
theorem killToEndOfLine_eq {before : Editor} (fresh : before.lastAction.isKill = false)
    {pre post : List Bytes} {front back : Bytes} (place : before.inputState.At pre front back post)
    {moved : InputState} {num : Nat} (kills : 0 < num)
    (h : motion t u before.inputState .killToEndOfLine 1 = some (moved, num)) :
    before.killToEndOfLine =
      (moved.eraseBetween before.inputState.cursor moved.cursor).map fun erased =>
        ({ before with
            inputState := erased.1
            killRing := before.killRing.addNewItem erased.2 }, true) := by
  obtain ⟨state, ring, last, start, end_⟩ := before
  have notKill : last.isKill = false := fresh
  subst place
  have found := elementAt_append pre post (front ++ back)
  obtain ⟨⟨mid, atEnd⟩, run, same⟩ := Option.map_eq_some_iff.1 h
  obtain ⟨rfl, rfl⟩ := Prod.mk.inj same
  rw [InputState.moveToEndOfLine] at run
  simp only [found, Option.bind_eq_bind, Option.bind_some] at run
  by_cases ended : (front.length : Int) ≥ (front ++ back).length
  · rw [if_pos ended] at run
    cases run
    exact absurd kills (Nat.lt_irrefl 0)
  · rw [if_neg ended] at run
    cases run
    have erased := @InputState.eraseBetween_inLine pre post front back []
      { lines := pre ++ (front ++ back) :: post
        cursor := { x := (front ++ back).length, y := pre.length } }
      (by rw [List.append_nil]) rfl (Or.inr rfl)
    rw [erased, killToEndOfLine]
    simp only [found, Option.bind_eq_bind, Option.bind_some, if_neg ended, sliceTo_append,
      sliceFrom_append]
    rw [killText_fresh]
    · simp
    · exact notKill

/-- The kill to the start of the line erases what is in front of the cursor. -/
theorem killToStartOfLine_eq {before : Editor} (fresh : before.lastAction.isKill = false)
    {pre post : List Bytes} {front back : Bytes} (place : before.inputState.At pre front back post)
    {moved : InputState} {num : Nat} (kills : 0 < num)
    (h : motion t u before.inputState .killToStartOfLine 1 = some (moved, num)) :
    before.killToStartOfLine =
      (moved.eraseBetween before.inputState.cursor moved.cursor).map fun erased =>
        ({ before with
            inputState := erased.1
            killRing := before.killRing.addNewItem erased.2 }, true) := by
  obtain ⟨state, ring, last, start, end_⟩ := before
  have notKill : last.isKill = false := fresh
  subst place
  have found := elementAt_append pre post (front ++ back)
  obtain ⟨same, same'⟩ := Prod.mk.inj (Option.some.inj h)
  by_cases some_ : (front.length : Int) > 0
  · have notStart : ¬(front.length : Int) ≤ 0 := Int.not_le.2 some_
    rw [InputState.moveToStartOfLine, if_pos some_] at same
    have erased := @InputState.eraseBetween_inLine pre post [] front back moved
      (by rw [← same]; rfl) (by rw [← same]) (Or.inl (by rw [← same]; rfl))
    have ne : moved.cursor ≠ { x := front.length, y := pre.length } := by
      rw [← same]
      intro equal
      have zero : (0 : Int) = front.length := congrArg Position.x equal
      omega
    rw [InputState.eraseBetween_comm _ (Ne.symm ne)]
    have ends : moved.cursor = { x := ([] : Bytes).length, y := pre.length } := by
      rw [← same]
      rfl
    rw [ends]
    rw [List.nil_append] at erased
    rw [erased, killToStartOfLine]
    simp only [found, Option.bind_eq_bind, Option.bind_some, if_neg notStart, sliceTo_append,
      sliceFrom_append]
    rw [killText_fresh]
    · simp only [Option.bind_some, Option.map_some, Int.toNat_natCast,
        List.set_append_right _ _ (Nat.le_refl _), Nat.sub_self, List.set_cons_zero,
        List.nil_append]
      rfl
    · exact notKill
  · rw [InputState.moveToStartOfLine, if_neg some_] at same'
    rw [← same'] at kills
    exact absurd kills (Nat.lt_irrefl 0)

/-- Every kill action erases what is between the two ends of its motion. -/
theorem kill_eq {before : Editor} (valid : before.inputState.Valid)
    (fresh : before.lastAction.isKill = false) {ac : KillAction} {repeatCount num : Nat}
    {moved : InputState} (h : motion t u before.inputState ac repeatCount = some (moved, num))
    (kills : 0 < num) (ne : moved.cursor ≠ before.inputState.cursor) :
    before.kill t u ac repeatCount =
      (moved.eraseBetween before.inputState.cursor moved.cursor).map fun erased =>
        (before.afterKill ac erased, true) := by
  have performed : before.performKill t u ac repeatCount =
      (moved.eraseBetween before.inputState.cursor moved.cursor).map fun erased =>
        ({ before with
            inputState := erased.1
            killRing := before.killRing.addNewItem erased.2 }, true) := by
    cases ac with
    | killToEndOfLine =>
      obtain ⟨pre, front, back, post, place⟩ := valid.exists_at
      exact killToEndOfLine_eq (t := t) (u := u) fresh place kills h
    | killToStartOfLine =>
      obtain ⟨pre, front, back, post, place⟩ := valid.exists_at
      exact killToStartOfLine_eq (t := t) (u := u) fresh place kills h
    | killNextWord =>
      have run : before.inputState.moveToEndOfWord t repeatCount true (hasWordChars u) =
        some (moved, num) := h
      show before.killNextWord t u repeatCount true = _
      rw [killNextWord]
      simp only [run]
      exact killMoved_eq fresh kills _ _
    | killPreviousWord =>
      have run : before.inputState.moveToStartOfWord t u repeatCount true (hasWordChars u) =
        some (moved, num) := h
      show before.killPreviousWord t u repeatCount true = _
      rw [killPreviousWord]
      simp only [run, Option.bind_eq_bind, Option.bind_some]
      rw [killMoved_eq fresh kills, InputState.eraseBetween_comm _ ne]
    | killPreviousSpaceDelimitedWord =>
      have run : before.inputState.moveToStartOfWord t u repeatCount true (hasNoSpaceChars u) =
        some (moved, num) := h
      show before.killPreviousSpaceDelimitedWord t u repeatCount true = _
      rw [killPreviousSpaceDelimitedWord]
      simp only [run, Option.bind_eq_bind, Option.bind_some]
      rw [killMoved_eq fresh kills, InputState.eraseBetween_comm _ ne]
  rw [kill, performed]
  cases moved.eraseBetween before.inputState.cursor moved.cursor with
  | none => rfl
  | some erased => rfl

/-! ### Yanking -/

theorem splitOn_single {text : Bytes} (noBreak : newline ∉ text) :
    text.splitOn newline = [text] := by
  apply List.splitOnP_eq_singleton
  intro b mem
  apply beq_false_of_ne
  rintro rfl
  exact noBreak mem

/-- The scanner keeps a text without line breaks that is short and does not end in a carriage
return. -/
theorem scannerKeeps_single {text : Bytes} (noBreak : newline ∉ text) :
    InputState.ScannerKeeps text ↔ text.length < maxScanTokenSize ∧ text.getLast? ≠ some 0x0d := by
  rw [InputState.ScannerKeeps, splitOn_single noBreak]
  exact List.forall_mem_singleton

/-- The killed text is back, with the cursor behind it. -/
def YanksBack (after : Editor) (lines : List Bytes) (upto : Bytes) : Prop :=
  ∃ yanked, after.performYank = some (yanked, true) ∧ yanked.inputState.lines = lines ∧
    yanked.inputState.textUptoCursorPos = some upto

theorem performYank_eq {after : Editor} {text : Bytes} {items : List Bytes}
    (newest : after.killRing.items = text :: items) (filled : text ≠ []) :
    after.performYank = (after.inputState.addText text).map fun state =>
      ({ after with
          inputState := state
          lastAction := .yank
          lastYankStart := after.inputState.cursor
          lastYankEnd := state.cursor }, true) := by
  have item : after.killRing.yank = text := by
    rw [KillRing.yank, newest]
    rfl
  rw [performYank, yank]
  simp only [Bool.false_eq_true, if_false, item, if_neg filled, Option.bind_eq_bind,
    Option.bind_some]
  cases after.inputState.addText text with
  | none => rfl
  | some state => rfl

/-- The newest text of the ring is yanked back between two texts of a line if and only if the
scanner keeps it. -/
theorem yanksBack_iff {after : Editor} {pre post : List Bytes} {front text back : Bytes}
    {items : List Bytes} (place : after.inputState.At pre front back post)
    (newest : after.killRing.items = text :: items) (filled : text ≠ [])
    (noBreak : newline ∉ text) :
    YanksBack after (pre ++ (front ++ text ++ back) :: post)
        (terminated newline pre ++ front ++ text) ↔
      InputState.ScannerKeeps text := by
  have performed := performYank_eq newest filled
  constructor
  · rintro ⟨yanked, run, lines, upto⟩
    rw [performed] at run
    obtain ⟨state, added, same⟩ := Option.map_eq_some_iff.1 run
    cases same
    apply InputState.keeps_of_inserts place filled
    apply (InputState.inserts_iff place).2
    refine ⟨state, added, ?_, upto⟩
    have some_ : state.lines ≠ [] := by
      rw [lines]
      exact List.append_ne_nil_of_right_ne_nil _ (List.cons_ne_nil _ _)
    rw [InputState.allText_append some_, lines, terminated_append, terminated_cons]
    simp only [List.append_assoc]
  · intro keeps
    have added := (InputState.addedLines_terminated filled).2.2 keeps
    rw [splitOn_single noBreak] at added
    have notLast : ¬text.getLast? = some newline :=
      fun last => noBreak (List.mem_of_getLast? last)
    have scanned : splitlines text ≠ [] := by
      rw [InputState.addedLines, if_neg notLast, List.append_nil] at added
      rw [added]
      exact List.cons_ne_nil _ _
    obtain ⟨init, last, state, shape, run, placed⟩ := InputState.addText_at place scanned added
    obtain ⟨rfl, rfl⟩ : init = [] ∧ last = front ++ text := by
      cases init with
      | nil => exact ⟨rfl, (List.cons.inj shape).1.symm⟩
      | cons other init =>
        have none_ := (List.cons.inj shape).2.symm
        exact absurd none_ (List.append_ne_nil_of_right_ne_nil _ (List.cons_ne_nil _ _))
    rw [run] at performed
    rw [List.append_nil] at placed
    refine ⟨_, performed, ?_, ?_⟩
    · have lines : state.lines = pre ++ (front ++ text ++ back) :: post := by rw [placed]
      exact lines
    · have upto := InputState.textUptoCursorPos_at placed
      rw [← List.append_assoc] at upto
      exact upto

/-! ### Killing and yanking -/

/-- The kill moves the text that it takes away into the ring, as its newest text, and a yank
directly behind it puts the text back, with the cursor behind it. -/
def KillThenYank (t : WidthTables) (u : UnicodeClasses) (before : Editor) (ac : KillAction)
    (repeatCount : Nat) : Prop :=
  ∃ after killed upto tail, before.kill t u ac repeatCount = some (after, true) ∧
    after.killRing.items = killed :: before.killRing.items ∧
    before.inputState.allText = upto ++ killed ++ tail ∧
    after.inputState.allText = upto ++ tail ∧ after.inputState.textUptoCursorPos = some upto ∧
    YanksBack after before.inputState.lines (upto ++ killed)

/-- The text between the cursor and the target is in the line of the cursor, and the scanner keeps
it. -/
def SpanKept (s : InputState) (target : Position) : Prop :=
  target.y = s.cursor.y ∧ ∃ line text, elementAt s.lines s.cursor.y = some line ∧
    slice line (min s.cursor.x target.x) (max s.cursor.x target.x) = some text ∧
    text.length < maxScanTokenSize ∧ text.getLast? ≠ some 0x0d

theorem position_eq {p q : Position} (x : p.x = q.x) (y : p.y = q.y) : p = q := by
  cases p
  cases x
  cases y
  rfl

theorem slice_eq_some {line text : Bytes} {i j : Int} (h : slice line i j = some text) :
    ∃ front back, line = front ++ text ++ back ∧ i = front.length ∧ j = (front ++ text).length := by
  obtain ⟨upto, taken, rest⟩ := Option.bind_eq_some_iff.1 h
  rw [sliceTo] at taken
  rw [sliceFrom] at rest
  split at taken
  · cases taken
    split at rest
    · cases rest
      refine ⟨(line.take j.toNat).take i.toNat, line.drop j.toNat, ?_, ?_, ?_⟩
      · rw [List.take_append_drop, List.take_append_drop]
      · rw [List.length_take_of_le (by omega)]
        omega
      · rw [List.take_append_drop, List.length_take_of_le (by omega)]
        omega
    · cases rest
  · cases taken

/-- A text that is taken out of a line. -/
theorem allText_split {s s' : InputState} {pre post : List Bytes}
    {front text back : Bytes} (place : s'.At pre front back post)
    (lines_ : s.lines = pre ++ (front ++ text ++ back) :: post) :
    ∃ tail, s.allText = terminated newline pre ++ front ++ text ++ tail ∧
      s'.allText = terminated newline pre ++ front ++ tail := by
  obtain ⟨tail, -, ended⟩ := InputState.textAfterCursorPos_at place
  have some_ : s.lines ≠ [] := by
    rw [lines_]
    exact List.append_ne_nil_of_right_ne_nil _ (List.cons_ne_nil _ _)
  have lines' : s'.lines = pre ++ (front ++ back) :: post := by rw [place]
  have some' : s'.lines ≠ [] := by
    rw [lines']
    exact List.append_ne_nil_of_right_ne_nil _ (List.cons_ne_nil _ _)
  have cancel : ∀ {a b : Bytes}, a ++ [newline] = b ++ [newline] → a = b :=
    List.append_cancel_right
  refine ⟨tail, ?_, ?_⟩
  · apply cancel
    rw [InputState.allText_append some_, lines_, List.append_assoc _ tail, ended]
    simp
  · apply cancel
    rw [InputState.allText_append some', lines', List.append_assoc _ tail, ended]
    simp

/-- Over line breaks a kill does not keep what it takes. -/
theorem not_killThenYank_overLines {before : Editor} {ac : KillAction} {repeatCount : Nat}
    {moved : InputState} (kept : InputState.KeepsLines before.inputState moved)
    (inLines : 0 ≤ before.inputState.cursor.y ∧
      before.inputState.cursor.y < before.inputState.lines.length)
    (other : moved.cursor.y ≠ before.inputState.cursor.y)
    (run : before.kill t u ac repeatCount =
      (moved.eraseBetween before.inputState.cursor moved.cursor).map fun erased =>
        (before.afterKill ac erased, true)) :
    ¬KillThenYank t u before ac repeatCount := by
  rintro ⟨after, killed, upto, tail, result, ring, text, text', -⟩
  rw [run] at result
  obtain ⟨⟨state, erased⟩, erase, same⟩ := Option.map_eq_some_iff.1 result
  cases same
  have lengths : moved.allText.length = state.allText.length + erased.length + 1 := by
    have inLines' := kept.inLines inLines
    rw [kept.lines] at inLines'
    by_cases below : before.inputState.cursor.y < moved.cursor.y
    · exact InputState.eraseBetween_overLines below ⟨inLines.1, by rw [kept.lines]; omega⟩ erase
    · have ne : before.inputState.cursor ≠ moved.cursor := fun same => other (by rw [same])
      rw [InputState.eraseBetween_comm _ ne] at erase
      exact InputState.eraseBetween_overLines (by omega)
        ⟨inLines'.1, by rw [kept.lines]; omega⟩ erase
  have erasedKilled : erased = killed := by
    have ring : (before.killRing.addNewItem erased).items = killed :: before.killRing.items := ring
    rw [KillRing.addNewItem] at ring
    split at ring
    · exact (List.cons.inj ring).1
    · exact absurd (congrArg List.length ring) (Nat.ne_of_lt (Nat.lt_succ_self _))
  have sameText : moved.allText = before.inputState.allText := by
    rw [InputState.allText, InputState.allText, kept.lines]
  have text' : state.allText = upto ++ tail := text'
  rw [sameText, text, text', erasedKilled] at lengths
  simp only [List.length_append] at lengths
  omega

/-- The two ends of a motion in a line, from the left one to the right one. -/
theorem eraseBetween_minMax (s : InputState) {cursor target : Position} (y : target.y = cursor.y)
    (ne : target ≠ cursor) :
    s.eraseBetween cursor target =
      s.eraseBetween { x := min cursor.x target.x, y := cursor.y }
        { x := max cursor.x target.x, y := cursor.y } := by
  obtain ⟨x, line⟩ := cursor
  obtain ⟨x', line'⟩ := target
  have sameLine : line' = line := y
  subst sameLine
  rcases Int.lt_or_le x x' with left_ | right_
  · simp only [Int.min_eq_left (Int.le_of_lt left_), Int.max_eq_right (Int.le_of_lt left_)]
  · simp only [Int.min_eq_right right_, Int.max_eq_left right_]
    exact InputState.eraseBetween_comm s (Ne.symm ne)

/-- In a line nothing is erased where the slice of it does not exist. -/
theorem eraseBetween_none {s : InputState} {line : Bytes} {y x x' : Int} (inOrder : x ≤ x')
    (found : elementAt s.lines y = some line) (none_ : slice line x x' = none) :
    s.eraseBetween { x, y } { x := x', y } = none := by
  have notLess : ¬({ x := x', y } : Position).less { x, y } = true := by
    rw [InputState.less_iff]
    simp only
    omega
  rw [InputState.eraseBetween, if_neg notLess]
  simp only [if_true]
  rw [InputState.eraseInLine, found]
  simp [none_]

/-- A kill in a line is yanked back if and only if the scanner keeps its text. -/
theorem killThenYank_inLine {before : Editor} {ac : KillAction} {repeatCount : Nat}
    {moved : InputState} {pre post : List Bytes} {front text back : Bytes}
    (filled : text ≠ []) (noBreak : newline ∉ text)
    (lines : before.inputState.lines = pre ++ (front ++ text ++ back) :: post)
    (erase : moved.eraseBetween before.inputState.cursor moved.cursor =
      some ({ lines := pre ++ (front ++ back) :: post
              cursor := { x := front.length, y := pre.length } }, text))
    (run : before.kill t u ac repeatCount =
      (moved.eraseBetween before.inputState.cursor moved.cursor).map fun erased =>
        (before.afterKill ac erased, true)) :
    KillThenYank t u before ac repeatCount ↔
      text.length < maxScanTokenSize ∧ text.getLast? ≠ some 0x0d := by
  obtain ⟨after, hafter⟩ : ∃ after, after = before.afterKill ac
      ({ lines := pre ++ (front ++ back) :: post
         cursor := { x := front.length, y := pre.length } }, text) := ⟨_, rfl⟩
  have killed : before.kill t u ac repeatCount = some (after, true) := by
    rw [run, erase, hafter]
    rfl
  have place : after.inputState.At pre front back post := by
    rw [hafter]
    rfl
  have newest : after.killRing.items = text :: before.killRing.items := by
    rw [hafter]
    show (before.killRing.addNewItem text).items = _
    rw [KillRing.addNewItem, if_pos filled]
  have uptoCursor := InputState.textUptoCursorPos_at place
  have back_ := yanksBack_iff place newest filled noBreak
  rw [← lines] at back_
  rw [← scannerKeeps_single noBreak, ← back_]
  constructor
  · rintro ⟨after', killed', upto, tail, result, ring, -, -, uptoCursor', yanks⟩
    rw [killed] at result
    cases result
    rw [newest] at ring
    rw [uptoCursor] at uptoCursor'
    rw [(List.cons.inj ring).1, Option.some.inj uptoCursor']
    exact yanks
  · intro yanks
    obtain ⟨tail, whole, rest⟩ := allText_split place lines
    exact ⟨after, text, _, tail, killed, newest, whole, rest, uptoCursor, yanks⟩

/-- Behind an action that is no kill, a kill action that kills something keeps its text and a yank
puts it back if and only if the motion of the action ends in the line of the cursor and the scanner
keeps the text between. -/
theorem killThenYank {before : Editor} (valid : before.inputState.Valid)
    (noBreaks : ∀ line ∈ before.inputState.lines, newline ∉ line)
    (fresh : before.lastAction.isKill = false) {ac : KillAction} {repeatCount num : Nat}
    {moved : InputState} (h : motion t u before.inputState ac repeatCount = some (moved, num))
    (kills : 0 < num) (ne : moved.cursor ≠ before.inputState.cursor) :
    KillThenYank t u before ac repeatCount ↔ SpanKept before.inputState moved.cursor := by
  have run := kill_eq valid fresh h kills ne
  have kept := motion_keeps h
  obtain ⟨pre, front, back, post, place⟩ := valid.exists_at
  have lines : before.inputState.lines = pre ++ (front ++ back) :: post := by rw [place]
  have y : before.inputState.cursor.y = pre.length := by rw [place]
  have found : elementAt before.inputState.lines before.inputState.cursor.y =
      some (front ++ back) := by
    rw [lines, y, elementAt_append]
  by_cases other : moved.cursor.y = before.inputState.cursor.y
  · have apart : moved.cursor.x ≠ before.inputState.cursor.x :=
      fun same => ne (position_eq same other)
    have minMax := eraseBetween_minMax moved other ne
    cases cut : slice (front ++ back) (min before.inputState.cursor.x moved.cursor.x)
        (max before.inputState.cursor.x moved.cursor.x) with
    | none =>
      rw [minMax, eraseBetween_none (by omega) (by rw [kept.lines]; exact found) cut] at run
      constructor
      · rintro ⟨after, killed, upto, tail, result, -⟩
        rw [run] at result
        cases result
      · rintro ⟨-, line, text, found', cut', -⟩
        rw [found] at found'
        cases found'
        rw [cut] at cut'
        cases cut'
    | some text =>
      obtain ⟨front', back', split, left_, right_⟩ := slice_eq_some cut
      have filled : text ≠ [] := by
        rintro rfl
        rw [List.append_nil] at right_
        omega
      have noBreak : newline ∉ text := by
        intro mem
        apply noBreaks (front ++ back)
        · rw [lines]
          exact List.mem_append_right _ (List.mem_cons_self ..)
        · rw [split]
          exact List.mem_append_left _ (List.mem_append_right _ mem)
      have erase := @InputState.eraseBetween_inLine pre post front' text back' moved
        (by rw [kept.lines, lines, split]) (other.trans y) (by omega)
      rw [← left_, ← right_, ← y, ← minMax, left_, y] at erase
      rw [split] at lines
      rw [killThenYank_inLine filled noBreak lines erase run]
      constructor
      · exact fun keeps => ⟨other, front ++ back, text, found, cut, keeps⟩
      · rintro ⟨-, line, text', found', cut', keeps⟩
        rw [found] at found'
        cases found'
        rw [cut] at cut'
        cases cut'
        exact keeps
  · constructor
    · intro property
      refine absurd property (not_killThenYank_overLines kept ?_ other run)
      rw [lines, List.length_append, List.length_cons]
      omega
    · exact fun spans => absurd spans.1 other

/-- The character classes of ASCII. -/
def asciiClasses : UnicodeClasses where
  isLetter ch := 0x41 ≤ ch ∧ ch ≤ 0x5a ∨ 0x61 ≤ ch ∧ ch ≤ 0x7a
  isDigit ch := 0x30 ≤ ch ∧ ch ≤ 0x39
  isSpace ch := ch = 0x20 ∨ 0x09 ≤ ch ∧ ch ≤ 0x0d

/-- The second of two words is killed and yanked back. -/
theorem killThenYank_word :
    KillThenYank smallTables asciiClasses
      { inputState := { lines := [[0x61, 0x20, 0x62, 0x63]], cursor := { x := 4, y := 0 } } }
      .killPreviousWord 1 := by
  have motion_ : motion smallTables asciiClasses
      { lines := [[0x61, 0x20, 0x62, 0x63]], cursor := { x := 4, y := 0 } } .killPreviousWord 1 =
        some ({ lines := [[0x61, 0x20, 0x62, 0x63]], cursor := { x := 2, y := 0 } }, 1) := by
    decide +kernel
  apply (@killThenYank smallTables asciiClasses
    { inputState := { lines := [[0x61, 0x20, 0x62, 0x63]], cursor := { x := 4, y := 0 } } }
    ⟨by decide, [0x61, 0x20, 0x62, 0x63], rfl, by decide, by decide⟩ (by decide) (by decide)
    .killPreviousWord 1 1 _ motion_ Nat.one_pos (by decide)).2
  exact ⟨rfl, [0x61, 0x20, 0x62, 0x63], [0x62, 0x63], rfl, rfl, by decide, by decide⟩

/-- Two words in two lines are killed without the line break between them. -/
theorem killThenYank_lineBreak :
    ¬KillThenYank smallTables asciiClasses
      { inputState := { lines := [[0x61], [0x62]], cursor := { x := 0, y := 0 } } }
      .killNextWord 2 := by
  rintro ⟨after, killed, upto, tail, run, ring, text, rest, -⟩
  cases run
  have killed_ : killed = [0x61, 0x62] := (List.cons.inj ring).1.symm
  have none_ : upto ++ tail = [] := rest.symm
  obtain ⟨rfl, rfl⟩ := List.append_eq_nil_iff.1 none_
  rw [killed_] at text
  exact absurd text (by decide)

end Editor

end Readline

end Smelly
