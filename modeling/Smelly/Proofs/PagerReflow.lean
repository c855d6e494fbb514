/-
Module: Smelly.Proofs.PagerReflow
Purpose: The pager history in a new width: no byte but carriage returns comes or goes, but for what
  the buffer has no room for, and every line fits the width.
Trusted boundary: none
-/
import Smelly.Core.PagerRewrap
import Smelly.Proofs.Utf8Strings

namespace Smelly

open Wcswidth

/-! ### What the ring holds -/

/-- The ring is not longer than it may be. -/
structure PagerHistoryBuf.WellFormed (ph : PagerHistoryBuf) : Prop where
  inRing : ph.ringbuf.length ≤ ph.capacity
  inMaximum : ph.capacity ≤ ph.maximumSize

/-- The ring holds the end of what was written. -/
structure KeepsEnd (ph : PagerHistoryBuf) (maximum : Nat) (written : Bytes) : Prop where
  maximumEq : ph.maximumSize = maximum
  ringEq : ph.ringbuf = written.drop (written.length - maximum)
  wellFormed : ph.WellFormed

theorem pagerhistExtend_spec {ph : PagerHistoryBuf} (wellFormed : ph.WellFormed) (minsz : Nat) :
    (pagerhistExtend ph minsz).maximumSize = ph.maximumSize ∧
      (pagerhistExtend ph minsz).ringbuf = ph.ringbuf ∧
      (pagerhistExtend ph minsz).capacity ≤ ph.maximumSize ∧
      (ph.capacity + minsz ≤ (pagerhistExtend ph minsz).capacity ∨
        (pagerhistExtend ph minsz).capacity = ph.maximumSize) := by
  have inMaximum := wellFormed.inMaximum
  unfold pagerhistExtend
  by_cases full : ph.maximumSize ≤ ph.capacity
  · rw [if_pos full]
    exact ⟨rfl, rfl, inMaximum, Or.inr (Nat.le_antisymm inMaximum full)⟩
  · rw [if_neg full]
    exact ⟨rfl, rfl, Nat.min_le_left _ _, by dsimp only; omega⟩

/-- One write. -/
theorem KeepsEnd.write {ph : PagerHistoryBuf} {maximum : Nat} {written : Bytes}
    (holds : KeepsEnd ph maximum written) {bytes : Bytes} (fits : bytes.length ≤ maximum) :
    KeepsEnd (pagerhistWriteBytes ph bytes).1 maximum (written ++ bytes) := by
  obtain ⟨rfl, ringEq, wellFormed⟩ := holds
  have ringLength := congrArg List.length ringEq
  rw [List.length_drop] at ringLength
  have inRing := wellFormed.inRing
  have inMaximum := wellFormed.inMaximum
  unfold pagerhistWriteBytes
  rw [if_neg (Nat.not_lt_of_le fits)]
  cases bytes with
  | nil =>
    rw [List.append_nil]
    exact ⟨rfl, ringEq, wellFormed⟩
  | cons byte more =>
    rw [if_neg (by exact Bool.false_ne_true)]
    have longer : 0 < (byte :: more).length := Nat.succ_pos _
    generalize (byte :: more) = bytes at fits longer
    obtain ⟨extended, extendedEq⟩ : ∃ extended, extended =
        if ph.capacity - ph.ringbuf.length < bytes.length then pagerhistExtend ph bytes.length
        else ph := ⟨_, rfl⟩
    have spec : extended.maximumSize = ph.maximumSize ∧ extended.ringbuf = ph.ringbuf ∧
        extended.capacity ≤ ph.maximumSize ∧
        (ph.ringbuf.length + bytes.length ≤ extended.capacity ∨
          extended.capacity = ph.maximumSize) := by
      rw [extendedEq]
      by_cases short : ph.capacity - ph.ringbuf.length < bytes.length
      · rw [if_pos short]
        obtain ⟨maximumEq, ringbufEq, within, room⟩ :=
          pagerhistExtend_spec wellFormed bytes.length
        exact ⟨maximumEq, ringbufEq, within, room.imp_left (by omega)⟩
      · rw [if_neg short]
        exact ⟨rfl, rfl, inMaximum, Or.inl (by omega)⟩
    obtain ⟨maximumEq, ringbufEq, within, room⟩ := spec
    have joined : ph.ringbuf ++ bytes =
        (written ++ bytes).drop (written.length - ph.maximumSize) := by
      rw [List.drop_append_of_le_length (Nat.sub_le _ _), ← ringEq]
    dsimp only
    rw [← extendedEq, ringbufEq]
    refine ⟨maximumEq, ?_, ?_, ?_⟩
    · dsimp only [ringbufMemcpyInto]
      rw [joined, List.drop_drop, List.length_drop, List.length_append]
      congr 1
      omega
    · dsimp only [ringbufMemcpyInto]
      rw [List.length_drop]
      omega
    · rw [← maximumEq] at within
      exact within

/-! ### The characters of the ring -/

/-- What the calls of `pagerhist_remove_char` return until nothing is left: a character and its
bytes each. -/
def pagerChars : Bytes → List (UInt32 × Bytes)
  | [] => []
  | byte :: rest =>
    let removed := pagerhistRemoveChar (byte :: rest)
    (removed.1, removed.2.1) :: pagerChars removed.2.2
termination_by ringbuf => ringbuf.length
decreasing_by
  exact Nat.lt_succ_of_le (removeCharFrom_length utf8Accept 0 (byte :: rest))

/-- A line end that `pagerhist_rewrap_to` puts in. -/
def softBreak : UInt32 × Bytes := (13, [13])

/-- `num_in_current_line` behind a character of that width. -/
def countAfter (cellsInLine num : Nat) (chWidth : Int) : Nat :=
  let num := if (cellsInLine : Int) < num + chWidth then 0 else num
  if 0 ≤ chWidth ∨ -chWidth ≤ (num : Int).bmod (2 ^ 32) then (num + chWidth).toNat else num

section Broken

variable (t : WidthTables) (cellsInLine : Nat)

/-- The characters with the new line ends. -/
def brokenChars : (num : Nat) → WCSState → List (UInt32 × Bytes) → List (UInt32 × Bytes)
  | _, _, [] => []
  | num, state, char :: rest =>
    if char.1 = 10 then
      (if (cellsInLine : Int) < num + 1 then [softBreak] else []) ++
        char :: brokenChars 0 {} rest
    else if char.1 ≠ 13 then
      let (after, chWidth) := wcswidthStep t state char.1
      (if (cellsInLine : Int) < num + chWidth then [softBreak] else []) ++
        char :: brokenChars (countAfter cellsInLine num chWidth) after rest
    else brokenChars num state rest

theorem writeChar_spec {self : PagerRewrap} {maximum : Nat} {written record : Bytes}
    (holds : KeepsEnd self.nph maximum written) (room : 0 < maximum)
    (fits : record.length ≤ maximum)
    (chWidth : Int) :
    (self.writeChar cellsInLine chWidth record).numInCurrentLine =
        countAfter cellsInLine self.numInCurrentLine chWidth ∧
      (self.writeChar cellsInLine chWidth record).wcsState = self.wcsState ∧
      KeepsEnd (self.writeChar cellsInLine chWidth record).nph maximum (written ++
        ((if (cellsInLine : Int) < self.numInCurrentLine + chWidth then [softBreak] else []).flatMap
          Prod.snd ++ record)) := by
  have broken := @KeepsEnd.write _ _ _ holds [13] room
  unfold PagerRewrap.writeChar countAfter
  by_cases full : (cellsInLine : Int) < self.numInCurrentLine + chWidth
  · simp only [if_pos full]
    rw [← List.append_assoc]
    split
    · exact ⟨rfl, rfl, broken.write fits⟩
    · exact ⟨rfl, rfl, broken.write fits⟩
  · simp only [if_neg full]
    split
    · exact ⟨rfl, rfl, holds.write fits⟩
    · exact ⟨rfl, rfl, holds.write fits⟩

/-- Everything but carriage returns that were there before is written, with the new line ends. -/
theorem rounds_written (chars : List (UInt32 × Bytes)) {self : PagerRewrap} {maximum : Nat}
    {written : Bytes} (holds : KeepsEnd self.nph maximum written) (room : 0 < maximum)
    (fit : ∀ char ∈ chars, char.2.length ≤ maximum) :
    KeepsEnd (chars.foldl (fun s char => s.round t cellsInLine char.1 char.2) self).nph maximum
      (written ++ (brokenChars t cellsInLine self.numInCurrentLine self.wcsState chars).flatMap
        Prod.snd) := by
  induction chars generalizing self written with
  | nil =>
    rw [brokenChars, List.flatMap_nil, List.append_nil]
    exact holds
  | cons char rest ih =>
    have charFits := fit char List.mem_cons_self
    have restFit := fun c mem => fit c (List.mem_cons_of_mem _ mem)
    rw [List.foldl_cons, brokenChars]
    by_cases newline : char.1 = 10
    · obtain ⟨-, state, writes⟩ := @writeChar_spec cellsInLine
        { self with wcsState := {} } maximum written char.2 holds room charFits 1
      have roundEq : self.round t cellsInLine char.1 char.2 =
          { { self with wcsState := {} }.writeChar cellsInLine 1 char.2 with
            numInCurrentLine := 0 } := if_pos newline
      have nphEq : (self.round t cellsInLine char.1 char.2).nph =
          ({ self with wcsState := {} }.writeChar cellsInLine 1 char.2).nph := by rw [roundEq]
      rw [← nphEq] at writes
      have later := ih writes restFit
      have stateEq : (self.round t cellsInLine char.1 char.2).wcsState = {} := by
        rw [roundEq]
        exact state
      have numEq : (self.round t cellsInLine char.1 char.2).numInCurrentLine = 0 := by
        rw [roundEq]
      rw [stateEq, numEq] at later
      rw [if_pos newline, List.flatMap_append, List.flatMap_cons, ← List.append_assoc _ char.2,
        ← List.append_assoc]
      exact later
    · rw [if_neg newline]
      by_cases isReturn : char.1 = 13
      · have roundEq : self.round t cellsInLine char.1 char.2 = self :=
          (if_neg newline).trans (if_neg (not_not_intro isReturn))
        rw [if_neg (not_not_intro isReturn), roundEq]
        exact ih holds restFit
      · cases stepEq : wcswidthStep t self.wcsState char.1 with
        | mk after chWidth =>
          obtain ⟨num, state, writes⟩ := @writeChar_spec cellsInLine
            { self with wcsState := after } maximum written char.2 holds room charFits chWidth
          have roundEq : self.round t cellsInLine char.1 char.2 =
              { self with wcsState := after }.writeChar cellsInLine chWidth char.2 := by
            refine (if_neg newline).trans ((if_pos isReturn).trans ?_)
            rw [stepEq]
          have later := ih writes restFit
          rw [state, num] at later
          rw [if_pos isReturn, roundEq, List.flatMap_append, List.flatMap_cons,
            ← List.append_assoc _ char.2, ← List.append_assoc]
          exact later

theorem loop_eq_foldl (ringbuf : Bytes) (self : PagerRewrap) :
    self.loop t cellsInLine ringbuf = (pagerChars ringbuf).foldl
      (fun s char => s.round t cellsInLine char.1 char.2) self := by
  induction ringbuf using pagerChars.induct generalizing self with
  | case1 => rw [PagerRewrap.loop, pagerChars, List.foldl_nil]
  | case2 byte rest removed ih => rw [PagerRewrap.loop, pagerChars, List.foldl_cons, ih]

/-! ### The width of a line -/

/-- `fresh` is what the scanner makes of a line alone, `state` what it makes of the line behind the
text in front.  They differ only behind a variation selector that begins the line. -/
inductive LineScan (fresh state : WCSState) (width num : Int) : Prop where
  | same (equal : fresh = state) (less : width ≤ num)
  | selector (normal : state.parserState = .normal)
      (narrower : fresh = { state with prevWidth := 0 }) (shown : 1 ≤ state.prevWidth)
      (less : width + state.prevWidth - 1 ≤ num)

variable {t cellsInLine}

theorem LineScan.width_le {fresh state : WCSState} {width num : Int}
    (follows : LineScan fresh state width num) : width ≤ num := by
  cases follows with
  | same equal less => exact less
  | selector normal narrower shown less => omega

theorem LineScan.mono {fresh state : WCSState} {width num num' : Int}
    (follows : LineScan fresh state width num) (more : num ≤ num') :
    LineScan fresh state width num' := by
  cases follows with
  | same equal less => exact LineScan.same equal (Int.le_trans less more)
  | selector normal narrower shown less =>
    exact LineScan.selector normal narrower shown (Int.le_trans less more)

/-- The end of `wcswidth_step`. -/
def wcswidthResult (result : WCSState × Int) (ch : UInt32) : WCSState × Int :=
  ({ result.1 with prevCh := ch }, result.2)

theorem wcswidthStep_normal {state : WCSState} (normal : state.parserState = .normal)
    (ch : UInt32) : wcswidthStep t state ch = wcswidthResult (stepNormal t state ch) ch := by
  obtain ⟨prevCh, prevWidth, parserState⟩ := state
  subst normal
  rfl

/-- A character that is not treated on its own does not look at what is in front of it. -/
theorem stepNormal_plain {ch : UInt32} (notEsc : ch ≠ 0x1b) (notEmoji : ch ≠ 0xfe0f)
    (notText : ch ≠ 0xfe0e) {state other : WCSState}
    (same : state.parserState = other.parserState) :
    wcswidthResult (stepNormal t state ch) ch = wcswidthResult (stepNormal t other ch) ch := by
  unfold stepNormal wcswidthResult
  rw [if_neg notEsc, if_neg notEmoji, if_neg notText, if_neg notEsc, if_neg notEmoji,
    if_neg notText]
  cases isFlagCodepoint ch with
  | true => rfl
  | false =>
    simp only [Bool.false_eq_true, if_false]
    rw [same]

theorem stepNormal_emoji (state : WCSState) : stepNormal t state 0xfe0f =
    if t.isEmojiPresentationBase state.prevCh ∧ state.prevWidth = 1 then
      ({ state with prevWidth := 2 }, 1)
    else ({ state with prevWidth := 0 }, 0) := by
  unfold stepNormal
  rw [if_neg (by decide), if_pos rfl]

theorem stepNormal_text (state : WCSState) : stepNormal t state 0xfe0e =
    if t.isEmojiPresentationBase state.prevCh ∧ state.prevWidth = 2 then
      ({ state with prevWidth := 1 }, -1)
    else ({ state with prevWidth := 0 }, 0) := by
  unfold stepNormal
  rw [if_neg (by decide), if_neg (by decide), if_pos rfl]

theorem LineScan.step {fresh state : WCSState} {width num num' : Int}
    (follows : LineScan fresh state width num) (ch : UInt32)
    (more : num + (wcswidthStep t state ch).2 ≤ num') :
    LineScan (wcswidthStep t fresh ch).1 (wcswidthStep t state ch).1
      (width + (wcswidthStep t fresh ch).2) num' := by
  cases follows with
  | same equal less =>
    subst equal
    exact LineScan.same rfl (by omega)
  | selector normal narrower shown less =>
    subst narrower
    rw [wcswidthStep_normal normal] at more ⊢
    rw [@wcswidthStep_normal t { state with prevWidth := 0 } normal]
    by_cases esc : ch = 0x1b
    · subst esc
      exact LineScan.same rfl (by change num + 0 ≤ num' at more; change width + 0 ≤ num'; omega)
    · by_cases emoji : ch = 0xfe0f
      · subst emoji
        have fails : ¬ (t.isEmojiPresentationBase state.prevCh = true ∧ (0 : Int) = 1) :=
          fun h => absurd h.2 (by decide)
        rw [stepNormal_emoji] at more ⊢
        rw [stepNormal_emoji, if_neg fails]
        by_cases wider : t.isEmojiPresentationBase state.prevCh ∧ state.prevWidth = 1
        · rw [if_pos wider] at more ⊢
          exact LineScan.selector normal rfl (by dsimp only [wcswidthResult]; decide)
            (by dsimp only [wcswidthResult] at *; omega)
        · rw [if_neg wider] at more ⊢
          exact LineScan.same rfl (by dsimp only [wcswidthResult] at *; omega)
      · by_cases text : ch = 0xfe0e
        · subst text
          have fails : ¬ (t.isEmojiPresentationBase state.prevCh = true ∧ (0 : Int) = 2) :=
            fun h => absurd h.2 (by decide)
          rw [stepNormal_text] at more ⊢
          rw [stepNormal_text, if_neg fails]
          by_cases smaller : t.isEmojiPresentationBase state.prevCh ∧ state.prevWidth = 2
          · rw [if_pos smaller] at more ⊢
            exact LineScan.selector normal rfl (by dsimp only [wcswidthResult]; decide)
              (by dsimp only [wcswidthResult] at *; omega)
          · rw [if_neg smaller] at more ⊢
            exact LineScan.same rfl (by dsimp only [wcswidthResult] at *; omega)
        · rw [@stepNormal_plain t ch esc emoji text { state with prevWidth := 0 } state rfl]
          exact LineScan.same rfl (by dsimp only [wcswidthResult] at *; omega)

/-- A character with a width is read between the escape codes. -/
theorem wcswidthStep_shown (state : WCSState) (ch : UInt32) :
    (wcswidthStep t state ch).2 = 0 ∨ ∃ between : WCSState, between.parserState = .normal ∧
      wcswidthStep t state ch = wcswidthResult (stepNormal t between ch) ch := by
  obtain ⟨prevCh, prevWidth, parserState⟩ := state
  cases parserState with
  | inCsi => exact Or.inl rfl
  | inStTerminated => exact Or.inl rfl
  | normal => exact Or.inr ⟨_, rfl, wcswidthStep_normal rfl ch⟩
  | flagPairStarted =>
    unfold wcswidthStep
    by_cases pair : isFlagPair prevCh ch = true
    · rw [if_pos pair]
      exact Or.inl rfl
    · rw [if_neg pair]
      exact Or.inr ⟨{ prevCh := prevCh, prevWidth := prevWidth }, rfl, rfl⟩
  | inEsc =>
    unfold wcswidthStep stepInEsc
    dsimp only
    split
    · exact Or.inl rfl
    · split
      · exact Or.inl rfl
      · split
        · exact Or.inl rfl
        · exact Or.inr ⟨_, rfl, rfl⟩

theorem stepNormal_width (state : WCSState) (ch : UInt32) :
    (stepNormal t state ch).2 ≤ 1 ∨ (stepNormal t state ch).2 = 2 ∧ t.wcwidthStd ch = 2 := by
  unfold stepNormal
  split
  · exact Or.inl (show (0 : Int) ≤ 1 by decide)
  · split
    · split
      · exact Or.inl (show (1 : Int) ≤ 1 by decide)
      · exact Or.inl (show (0 : Int) ≤ 1 by decide)
    · split
      · split
        · exact Or.inl (show (-1 : Int) ≤ 1 by decide)
        · exact Or.inl (show (0 : Int) ≤ 1 by decide)
      · dsimp only
        split
        · exact Or.inl (show (0 : Int) ≤ 1 by decide)
        · split
          · exact Or.inr ⟨rfl, ‹_›⟩
          · exact Or.inl (show (1 : Int) ≤ 1 by decide)

/-- What a character adds to the width. -/
theorem wcswidthStep_width (state : WCSState) (ch : UInt32) :
    (wcswidthStep t state ch).2 ≤ 1 ∨
      (wcswidthStep t state ch).2 = 2 ∧ t.wcwidthStd ch = 2 := by
  cases @wcswidthStep_shown t state ch with
  | inl none => exact Or.inl (by omega)
  | inr shown =>
    obtain ⟨between, -, stepEq⟩ := shown
    rw [stepEq]
    exact stepNormal_width between ch

/-- A character with a width begins a line as it would begin a text. -/
theorem lineScan_first (state : WCSState) {ch : UInt32} (shown : 0 < (wcswidthStep t state ch).2) :
    LineScan (wcswidthStep t {} ch).1 (wcswidthStep t state ch).1 (wcswidthStep t {} ch).2
      (wcswidthStep t state ch).2 := by
  cases @wcswidthStep_shown t state ch with
  | inl none => omega
  | inr between =>
    obtain ⟨between, normal, stepEq⟩ := between
    rw [@wcswidthStep_normal t {} rfl]
    rw [stepEq] at shown ⊢
    by_cases esc : ch = 0x1b
    · subst esc
      exact absurd shown (Int.lt_irrefl 0)
    · by_cases emoji : ch = 0xfe0f
      · subst emoji
        have fails :
            ¬ (t.isEmojiPresentationBase ({} : WCSState).prevCh = true ∧ (0 : Int) = 1) :=
          fun h => absurd h.2 (by decide)
        rw [stepNormal_emoji] at shown ⊢
        rw [stepNormal_emoji, if_neg fails]
        by_cases wider : t.isEmojiPresentationBase between.prevCh ∧ between.prevWidth = 1
        · rw [if_pos wider] at shown ⊢
          refine LineScan.selector normal ?_ ?_ ?_
          · dsimp only [wcswidthResult]
            rw [normal]
          · dsimp only [wcswidthResult]
            decide
          · dsimp only [wcswidthResult]
            decide
        · rw [if_neg wider] at shown
          exact absurd shown (Int.lt_irrefl 0)
      · by_cases text : ch = 0xfe0e
        · subst text
          rw [stepNormal_text] at shown
          split at shown
          · exact absurd shown (show ¬ (0 : Int) < -1 by decide)
          · exact absurd shown (Int.lt_irrefl 0)
        · rw [@stepNormal_plain t ch esc emoji text {} between normal.symm]
          exact LineScan.same rfl (Int.le_refl _)

/-! ### The lines -/

/-- A newline or a carriage return. -/
def IsLineEnd (byte : UInt8) : Prop := byte = 10 ∨ byte = 13

/-- The character ends a line. -/
def EndsLine (char : UInt32 × Bytes) : Prop := char.1 = 10 ∨ char.1 = 13

variable (t cellsInLine)

/-- The line that begins with these characters fits. -/
def StartsFitting (chars : List (UInt32 × Bytes)) : Prop :=
  ∀ line after, chars = line ++ after → (∀ char ∈ line, ¬ EndsLine char) →
    wcswidthString t (line.map Prod.fst) ≤ cellsInLine

/-- Every line behind a line end fits. -/
def LinesFitting (chars : List (UInt32 × Bytes)) : Prop :=
  ∀ before lineEnd line after, chars = before ++ lineEnd :: (line ++ after) → EndsLine lineEnd →
    (∀ char ∈ line, ¬ EndsLine char) → wcswidthString t (line.map Prod.fst) ≤ cellsInLine

variable {t cellsInLine}

theorem LinesFitting.cons {char : UInt32 × Bytes} {rest : List (UInt32 × Bytes)}
    (first : EndsLine char → StartsFitting t cellsInLine rest)
    (later : LinesFitting t cellsInLine rest) : LinesFitting t cellsInLine (char :: rest) := by
  intro before lineEnd line after split ends inside
  cases before with
  | nil =>
    obtain ⟨rfl, rfl⟩ := List.cons.inj split
    exact first ends line after rfl inside
  | cons other before =>
    exact later before lineEnd line after (List.cons.inj split).2 ends inside

/-- In front of a line end there is nothing on the line. -/
theorem startsFitting_lineEnd {char : UInt32 × Bytes} (ends : EndsLine char)
    (rest : List (UInt32 × Bytes)) : StartsFitting t cellsInLine (char :: rest) := by
  intro line after split inside
  cases line with
  | nil => exact Int.natCast_nonneg cellsInLine
  | cons first line =>
    obtain ⟨rfl, -⟩ := List.cons.inj split
    exact absurd ends (inside char List.mem_cons_self)

/-- No character is wider than a line. -/
def CharsFit (t : WidthTables) (cellsInLine : Nat) (chars : List (UInt32 × Bytes)) : Prop :=
  ∀ char ∈ chars, t.wcwidthStd char.1 = 2 → 2 ≤ cellsInLine

theorem wcswidthStep_fits (positive : 0 < cellsInLine) {char : UInt32 × Bytes}
    (fits : t.wcwidthStd char.1 = 2 → 2 ≤ cellsInLine) (state : WCSState) :
    (wcswidthStep t state char.1).2 ≤ cellsInLine := by
  cases @wcswidthStep_width t state char.1 with
  | inl narrow => omega
  | inr wide =>
    omega

theorem countAfter_le {num : Nat} {chWidth : Int} (within : num ≤ cellsInLine)
    (fits : chWidth ≤ cellsInLine) : countAfter cellsInLine num chWidth ≤ cellsInLine := by
  unfold countAfter
  dsimp only
  split
  · split
    · omega
    · omega
  · split
    · omega
    · omega

/-- The line goes on behind a character that fits. -/
theorem countAfter_more {num : Nat} {chWidth : Int} (room : ¬ (cellsInLine : Int) < num + chWidth) :
    num + chWidth ≤ countAfter cellsInLine num chWidth := by
  unfold countAfter
  rw [if_neg room]
  dsimp only
  split
  · omega
  · omega

/-- A character behind a new line end is the first that is counted. -/
theorem countAfter_first {num : Nat} {chWidth : Int} (full : (cellsInLine : Int) < num + chWidth)
    (shown : 0 < chWidth) : chWidth ≤ countAfter cellsInLine num chWidth := by
  unfold countAfter
  rw [if_pos full]
  dsimp only
  split
  · omega
  · omega

/-- No new line end was put in front of a character that is not one. -/
theorem notBroken {full : Prop} [Decidable full] {char first : UInt32 × Bytes}
    {rest after : List (UInt32 × Bytes)}
    (split : (if full then [softBreak] else []) ++ char :: rest = first :: after)
    (notEnd : ¬ EndsLine first) : ¬ full ∧ char = first ∧ rest = after := by
  by_cases broken : full
  · rw [if_pos broken] at split
    have head : softBreak = first := (List.cons.inj split).1
    exact absurd (Or.inr (congrArg Prod.fst head.symm)) notEnd
  · rw [if_neg broken] at split
    exact ⟨broken, List.cons.inj split⟩

/-- What is on a line before the next line end. -/
theorem brokenChars_start (positive : 0 < cellsInLine) (chars : List (UInt32 × Bytes))
    (fit : CharsFit t cellsInLine chars) {num : Nat} {state fresh : WCSState} {width : Int}
    (within : num ≤ cellsInLine) (follows : LineScan fresh state width num)
    {line after : List (UInt32 × Bytes)}
    (split : brokenChars t cellsInLine num state chars = line ++ after)
    (inside : ∀ char ∈ line, ¬ EndsLine char) :
    width + (wcswidthSteps t fresh (line.map Prod.fst)).2 ≤ cellsInLine := by
  induction chars generalizing num state fresh width line with
  | nil =>
    have empty := (List.append_eq_nil_iff.1 split.symm).1
    have less := follows.width_le
    rw [empty, List.map_nil, wcswidthSteps]
    omega
  | cons char rest ih =>
    have restFit : CharsFit t cellsInLine rest := fun c mem => fit c (List.mem_cons_of_mem _ mem)
    cases line with
    | nil =>
      have less := follows.width_le
      rw [List.map_nil, wcswidthSteps]
      omega
    | cons first line =>
      have notEnd := inside first List.mem_cons_self
      have later := fun c mem => inside c (List.mem_cons_of_mem first mem)
      rw [brokenChars] at split
      by_cases newline : char.1 = 10
      · rw [if_pos newline, List.cons_append] at split
        obtain ⟨-, rfl, -⟩ := notBroken split notEnd
        exact absurd (Or.inl newline) notEnd
      · rw [if_neg newline] at split
        by_cases isReturn : char.1 = 13
        · rw [if_neg (not_not_intro isReturn)] at split
          exact ih restFit within follows split inside
        · rw [if_pos isReturn] at split
          obtain ⟨room, rfl, behind⟩ := notBroken split notEnd
          have charFits := wcswidthStep_fits positive (fit char List.mem_cons_self) state
          have line := ih restFit (countAfter_le within charFits)
            (follows.step char.1 (countAfter_more room)) behind later
          rw [List.map_cons, wcswidthSteps]
          dsimp only
          omega

/-- No line is wider than the new width. -/
theorem brokenChars_lines (positive : 0 < cellsInLine) (chars : List (UInt32 × Bytes))
    (fit : CharsFit t cellsInLine chars) {num : Nat} {state : WCSState}
    (within : num ≤ cellsInLine) :
    LinesFitting t cellsInLine (brokenChars t cellsInLine num state chars) := by
  induction chars generalizing num state with
  | nil =>
    intro before lineEnd line after split
    exact absurd split.symm (List.append_ne_nil_of_right_ne_nil _ (List.cons_ne_nil _ _))
  | cons char rest ih =>
    have restFit : CharsFit t cellsInLine rest := fun c mem => fit c (List.mem_cons_of_mem _ mem)
    have charFits := wcswidthStep_fits positive (fit char List.mem_cons_self) state
    rw [brokenChars]
    by_cases newline : char.1 = 10
    · have next : StartsFitting t cellsInLine (brokenChars t cellsInLine 0 {} rest) := by
        intro line after split inside
        have fits := @brokenChars_start t cellsInLine positive rest restFit 0 {} {} 0
          (Nat.zero_le _) (LineScan.same rfl (Int.le_refl 0)) line after split inside
        rwa [Int.zero_add] at fits
      have lines := @LinesFitting.cons t cellsInLine char _ (fun _ => next)
        (@ih restFit 0 {} (Nat.zero_le _))
      rw [if_pos newline]
      split
      · exact LinesFitting.cons (fun _ => startsFitting_lineEnd (Or.inl newline) _) lines
      · exact lines
    · rw [if_neg newline]
      by_cases isReturn : char.1 = 13
      · rw [if_neg (not_not_intro isReturn)]
        exact ih restFit within
      · have notEnd : ¬ EndsLine char := fun ends => ends.elim newline isReturn
        have lines := LinesFitting.cons (fun ends => absurd ends notEnd)
          (@ih restFit (countAfter cellsInLine num (wcswidthStep t state char.1).2)
            (wcswidthStep t state char.1).1 (countAfter_le within charFits))
        rw [if_pos isReturn]
        dsimp only
        by_cases full : (cellsInLine : Int) < num + (wcswidthStep t state char.1).2
        · rw [if_pos full]
          apply LinesFitting.cons _ lines
          intro _ line after split inside
          cases line with
          | nil => exact Int.natCast_nonneg cellsInLine
          | cons first line =>
            obtain ⟨rfl, behind⟩ := List.cons.inj split
            have shown : 0 < (wcswidthStep t state char.1).2 := by omega
            have begun := (lineScan_first state shown).mono (countAfter_first full shown)
            have fits := brokenChars_start positive rest restFit
              (countAfter_le within charFits) begun behind
              (fun c mem => inside c (List.mem_cons_of_mem _ mem))
            exact fits
        · rw [if_neg full]
          exact lines

end Broken

/-! ### Characters and their bytes -/

/-- The bytes are read as this character whatever is behind them, and only a line end has the byte
of one. -/
structure ReadsWhole (char : UInt32 × Bytes) : Prop where
  reads : ∀ rest, pagerhistRemoveChar (char.2 ++ rest) = (char.1, char.2, rest)
  notEmpty : char.2 ≠ []
  lineEnd : (∃ b, IsLineEnd b ∧ char = (b.toUInt32, [b])) ∨
    ¬ EndsLine char ∧ ∀ b ∈ char.2, ¬ IsLineEnd b

theorem removeCharFrom_decodes {state : Nat} {codep ch : UInt32} {bytes : Bytes}
    (decodes : Decodes state codep bytes ch) (rest : Bytes) :
    removeCharFrom state codep (bytes ++ rest) = (ch, bytes, rest) := by
  induction bytes generalizing state codep with
  | nil => exact decodes.elim
  | cons byte more ih =>
    rw [List.cons_append, removeCharFrom]
    cases more with
    | nil =>
      have last : decodeUtf8 state codep byte = (utf8Accept, ch) := decodes
      rw [last]
      rfl
    | cons next more =>
      obtain ⟨inside, valid, later⟩ := decodes
      cases stepEq : decodeUtf8 state codep byte with
      | mk state' codep' =>
        rw [stepEq] at inside valid later
        dsimp only
        rw [if_neg valid, if_neg inside, ih later]

theorem readsWhole_softBreak : ReadsWhole softBreak where
  reads rest := removeCharFrom_decodes (decodes_utf8EncodeChar '\r' 0) rest
  notEmpty := List.cons_ne_nil _ _
  lineEnd := Or.inl ⟨13, Or.inr rfl, rfl⟩

theorem IsLineEnd.ascii {byte : UInt8} (ends : IsLineEnd byte) : byte.toNat < 0x80 := by
  rcases ends with rfl | rfl
  · decide
  · decide

theorem readsWhole_char (c : Char) : ReadsWhole (c.val, String.utf8EncodeChar c) where
  reads rest := removeCharFrom_decodes (decodes_utf8EncodeChar c 0) rest
  notEmpty := by
    obtain ⟨n, tail, bytes, -⟩ := utf8EncodeChar_lead c
    rw [bytes]
    exact List.cons_ne_nil _ _
  lineEnd := by
    have ascii : ∀ {b : UInt8}, IsLineEnd b → c.val = b.toUInt32 →
        (c.val, String.utf8EncodeChar c) = (b.toUInt32, [b]) := by
      intro b ends val
      have same : c.val.toNat = b.toNat := congrArg UInt32.toNat val
      rw [Utf8.utf8EncodeChar_of_ascii (same ▸ ends.ascii), same, UInt8.ofNat_toNat, val]
    by_cases ends : EndsLine (c.val, String.utf8EncodeChar c)
    · cases ends with
      | inl newline => exact Or.inl ⟨10, Or.inl rfl, ascii (Or.inl rfl) newline⟩
      | inr isReturn => exact Or.inl ⟨13, Or.inr rfl, ascii (Or.inr rfl) isReturn⟩
    · refine Or.inr ⟨ends, ?_⟩
      intro b mem lineEnd
      have same := Utf8.toNat_of_mem_utf8EncodeChar mem lineEnd.ascii
      have val : c.val = b.toUInt32 := UInt32.toNat_inj.1 same
      rcases lineEnd with rfl | rfl
      · exact ends (Or.inl val)
      · exact ends (Or.inr val)

/-- A byte that continues a character is rejected where none begins. -/
theorem readsWhole_tail {n : Nat} (low : 0x80 ≤ n) (high : n < 0xc0) :
    ReadsWhole (0, [UInt8.ofNat n]) where
  reads rest := by
    have lead := decodeUtf8_lead 0 (show n < 256 by omega)
    rw [if_neg (by omega), if_pos (by omega)] at lead
    rw [List.singleton_append, pagerhistRemoveChar, removeCharFrom, lead]
    rfl
  notEmpty := List.cons_ne_nil _ _
  lineEnd := by
    refine Or.inr ⟨?_, ?_⟩
    · rintro (newline | isReturn)
      · exact absurd newline (show ¬ (0 : UInt32) = 10 by decide)
      · exact absurd isReturn (show ¬ (0 : UInt32) = 13 by decide)
    · intro b mem ends
      have small := ends.ascii
      rw [List.mem_singleton.1 mem, UInt8.toNat_ofNat'] at small
      omega

theorem pagerChars_whole {chars : List (UInt32 × Bytes)} (whole : ∀ char ∈ chars, ReadsWhole char) :
    pagerChars (chars.flatMap Prod.snd) = chars := by
  induction chars with
  | nil => rw [List.flatMap_nil, pagerChars]
  | cons char rest ih =>
    have first := whole char List.mem_cons_self
    have later := ih fun c mem => whole c (List.mem_cons_of_mem _ mem)
    have removed := first.reads (rest.flatMap Prod.snd)
    rw [List.flatMap_cons]
    cases bytes : char.2 ++ rest.flatMap Prod.snd with
    | nil => exact absurd (List.append_eq_nil_iff.1 bytes).1 first.notEmpty
    | cons byte more =>
      rw [bytes] at removed
      rw [pagerChars, removed, later]

/-- All bytes of a character but the first continue it. -/
theorem utf8EncodeChar_behind (c : Char) {byte : UInt8} {front part : Bytes}
    (split : String.utf8EncodeChar c = byte :: front ++ part) :
    ∀ b ∈ part, ∃ n, b = UInt8.ofNat n ∧ 0x80 ≤ n ∧ n < 0xc0 := by
  intro b mem
  rcases Nat.lt_or_ge c.val.toNat 0x80 with ascii | wide
  · rw [Utf8.utf8EncodeChar_of_ascii ascii] at split
    have none := (List.append_eq_nil_iff.1 (List.cons.inj split).2.symm).2
    rw [none] at mem
    exact absurd mem List.not_mem_nil
  · obtain ⟨lead, tail, bytes, -, -, -, continues, -⟩ := Utf8.utf8EncodeChar_of_wide wide
    rw [bytes] at split
    apply continues
    rw [(List.cons.inj split).2]
    exact List.mem_append_right _ mem

/-- The characters of a text, the first of which may be cut off. -/
theorem exists_wholeChars (text : List Char) {content : Bytes}
    (suffix : content <:+ Utf8.utf8 text) :
    ∃ chars : List (UInt32 × Bytes), (∀ char ∈ chars, ReadsWhole char) ∧
      chars.flatMap Prod.snd = content := by
  induction text generalizing content with
  | nil =>
    have empty : content = [] := List.suffix_nil.1 suffix
    exact ⟨[], nofun, empty.symm⟩
  | cons c rest ih =>
    obtain ⟨front, split⟩ := suffix
    rw [Utf8.utf8_cons] at split
    cases List.append_eq_append_iff.1 split with
    | inr later =>
      obtain ⟨more, -, restEq⟩ := later
      exact ih ⟨more, restEq.symm⟩
    | inl inFirst =>
      obtain ⟨part, charEq, contentEq⟩ := inFirst
      obtain ⟨chars, whole, restEq⟩ := ih (List.suffix_refl _)
      cases front with
      | nil =>
        refine ⟨(c.val, String.utf8EncodeChar c) :: chars, ?_, ?_⟩
        · exact List.forall_mem_cons.2 ⟨readsWhole_char c, whole⟩
        · rw [List.flatMap_cons, restEq, contentEq, charEq, List.nil_append]
      | cons byte front =>
        refine ⟨part.map (fun b => (0, [b])) ++ chars, ?_, ?_⟩
        · intro char mem
          cases List.mem_append.1 mem with
          | inl cut =>
            obtain ⟨b, inPart, rfl⟩ := List.mem_map.1 cut
            obtain ⟨n, rfl, low, high⟩ := utf8EncodeChar_behind c charEq b inPart
            exact readsWhole_tail low high
          | inr later => exact whole char later
        · rw [List.flatMap_append, List.flatMap_map, restEq, contentEq]
          exact congrArg (· ++ Utf8.utf8 rest) (List.flatMap_singleton' part)

theorem mem_brokenChars (t : WidthTables) (cellsInLine : Nat) {chars : List (UInt32 × Bytes)}
    {num : Nat} {state : WCSState} {char : UInt32 × Bytes}
    (mem : char ∈ brokenChars t cellsInLine num state chars) : char = softBreak ∨ char ∈ chars := by
  have optional : ∀ {full : Prop} [Decidable full],
      char ∈ (if full then [softBreak] else []) → char = softBreak := by
    intro full decidable inBreak
    split at inBreak
    · exact List.mem_singleton.1 inBreak
    · exact absurd inBreak List.not_mem_nil
  induction chars generalizing num state with
  | nil =>
    exact absurd mem List.not_mem_nil
  | cons first rest ih =>
    have later : ∀ {num state}, char ∈ brokenChars t cellsInLine num state rest →
        char = softBreak ∨ char ∈ first :: rest :=
      fun inRest => (ih inRest).imp_right (List.mem_cons_of_mem first)
    have either : ∀ {full : Prop} [Decidable full] {num state},
        char ∈ (if full then [softBreak] else []) ++
          first :: brokenChars t cellsInLine num state rest →
        char = softBreak ∨ char ∈ first :: rest := by
      intro full decidable num state mem
      cases List.mem_append.1 mem with
      | inl inBreak => exact Or.inl (optional inBreak)
      | inr inText =>
        cases List.mem_cons.1 inText with
        | inl same => exact Or.inr (same ▸ List.mem_cons_self)
        | inr inRest => exact later inRest
    rw [brokenChars] at mem
    by_cases newline : first.1 = 10
    · rw [if_pos newline] at mem
      exact either mem
    · rw [if_neg newline] at mem
      by_cases isReturn : first.1 = 13
      · rw [if_neg (not_not_intro isReturn)] at mem
        exact later mem
      · rw [if_pos isReturn] at mem
        exact either mem

theorem brokenChars_whole (t : WidthTables) (cellsInLine : Nat) {chars : List (UInt32 × Bytes)}
    (whole : ∀ char ∈ chars, ReadsWhole char) (num : Nat) (state : WCSState) :
    ∀ char ∈ brokenChars t cellsInLine num state chars, ReadsWhole char := by
  intro char mem
  cases mem_brokenChars t cellsInLine mem with
  | inl new => exact new ▸ readsWhole_softBreak
  | inr old => exact whole char old

/-- A text without its carriage returns. -/
def withoutReturns (bytes : Bytes) : Bytes := bytes.filter (· ≠ 13)

theorem withoutReturns_append (first second : Bytes) :
    withoutReturns (first ++ second) = withoutReturns first ++ withoutReturns second :=
  List.filter_append first second

/-- Only carriage returns come or go. -/
theorem brokenChars_withoutReturns (t : WidthTables) (cellsInLine : Nat)
    {chars : List (UInt32 × Bytes)} (whole : ∀ char ∈ chars, ReadsWhole char) (num : Nat)
    (state : WCSState) :
    withoutReturns ((brokenChars t cellsInLine num state chars).flatMap Prod.snd) =
      withoutReturns (chars.flatMap Prod.snd) := by
  have optional : ∀ (full : Prop) [Decidable full],
      withoutReturns ((if full then [softBreak] else []).flatMap Prod.snd) = [] := by
    intro full decidable
    split
    · rfl
    · rfl
  induction chars generalizing num state with
  | nil => rw [brokenChars]
  | cons char rest ih =>
    have later := fun num state =>
      ih (fun c mem => whole c (List.mem_cons_of_mem _ mem)) num state
    rw [brokenChars, List.flatMap_cons, withoutReturns_append]
    by_cases newline : char.1 = 10
    · rw [if_pos newline, List.flatMap_append, withoutReturns_append, optional, List.nil_append,
        List.flatMap_cons, withoutReturns_append, later]
    · rw [if_neg newline]
      by_cases isReturn : char.1 = 13
      · have bytes : withoutReturns char.2 = [] := by
          rcases (whole char List.mem_cons_self).lineEnd with ⟨b, ends, charEq⟩ | ⟨other, -⟩
          · rcases ends with rfl | rfl
            · rw [charEq] at newline
              exact absurd rfl newline
            · rw [charEq]
              rfl
          · exact absurd (Or.inr isReturn) other
        rw [if_neg (not_not_intro isReturn), later, bytes, List.nil_append]
      · rw [if_pos isReturn]
        rw [List.flatMap_append, withoutReturns_append, optional, List.nil_append,
          List.flatMap_cons, withoutReturns_append, later]

/-! ### The lines of the ring -/

/-- Every stretch behind a line end, up to the next one or the end, is at most that wide. -/
def LinesFit (t : WidthTables) (cellsInLine : Nat) (bytes : Bytes) : Prop :=
  ∀ before lineEnd line after, bytes = before ++ lineEnd :: (line ++ after) → IsLineEnd lineEnd →
    (∀ b ∈ line, ¬ IsLineEnd b) → (∀ b, after.head? = some b → IsLineEnd b) →
    wcswidthString t ((pagerChars line).map Prod.fst) ≤ cellsInLine

theorem LinesFit.suffix {t : WidthTables} {cellsInLine : Nat} {bytes bytes' : Bytes}
    (fit : LinesFit t cellsInLine bytes) (suffix : bytes' <:+ bytes) :
    LinesFit t cellsInLine bytes' := by
  obtain ⟨front, rfl⟩ := suffix
  intro before lineEnd line after split
  exact fit (front ++ before) lineEnd line after (by rw [split, List.append_assoc])

/-- The byte of a line end is a character of its own. -/
theorem exists_lineEnd {chars : List (UInt32 × Bytes)} (whole : ∀ char ∈ chars, ReadsWhole char)
    {before after : Bytes} {lineEnd : UInt8} (ends : IsLineEnd lineEnd)
    (split : chars.flatMap Prod.snd = before ++ lineEnd :: after) :
    ∃ front back, chars = front ++ (lineEnd.toUInt32, [lineEnd]) :: back ∧
      front.flatMap Prod.snd = before ∧ back.flatMap Prod.snd = after := by
  induction chars generalizing before with
  | nil => exact absurd split.symm (List.append_ne_nil_of_right_ne_nil _ (List.cons_ne_nil _ _))
  | cons char rest ih =>
    have restWhole := fun c mem => whole c (List.mem_cons_of_mem char mem)
    have later : ∀ {before' : Bytes}, rest.flatMap Prod.snd = before' ++ lineEnd :: after →
        before = char.2 ++ before' →
        ∃ front back, char :: rest = front ++ (lineEnd.toUInt32, [lineEnd]) :: back ∧
          front.flatMap Prod.snd = before ∧ back.flatMap Prod.snd = after := by
      intro before' restSplit beforeEq
      obtain ⟨front, back, rfl, frontEq, backEq⟩ := ih restWhole restSplit
      exact ⟨char :: front, back, rfl, by rw [List.flatMap_cons, frontEq, beforeEq], backEq⟩
    cases List.append_eq_append_iff.1 split with
    | inl behind =>
      obtain ⟨more, beforeEq, restSplit⟩ := behind
      exact later restSplit beforeEq
    | inr inside =>
      obtain ⟨part, charEq, partEq⟩ := inside
      cases part with
      | nil =>
        exact @later [] partEq.symm (by rw [charEq, List.append_nil, List.append_nil])
      | cons byte part =>
        obtain ⟨rfl, afterEq⟩ := List.cons.inj partEq
        have mem : lineEnd ∈ char.2 := by
          rw [charEq]
          exact List.mem_append_right _ List.mem_cons_self
        rcases (whole char List.mem_cons_self).lineEnd with ⟨b, -, rfl⟩ | ⟨-, none⟩
        · cases before with
          | nil =>
            obtain ⟨rfl, partNil⟩ := List.cons.inj charEq
            refine ⟨[], rest, rfl, rfl, ?_⟩
            rw [afterEq, ← partNil]
            rfl
          | cons other before =>
            have none := (List.cons.inj charEq).2
            exact absurd none.symm
              (List.append_ne_nil_of_right_ne_nil _ (List.cons_ne_nil _ _))
        · exact absurd ends (none lineEnd mem)

theorem linesFit_of_chars {t : WidthTables} {cellsInLine : Nat} {chars : List (UInt32 × Bytes)}
    (whole : ∀ char ∈ chars, ReadsWhole char) (fitting : LinesFitting t cellsInLine chars) :
    LinesFit t cellsInLine (chars.flatMap Prod.snd) := by
  intro before lineEnd line after split ends inside stops
  obtain ⟨front, back, rfl, -, backEq⟩ := exists_lineEnd whole ends split
  have backWhole : ∀ char ∈ back, ReadsWhole char := fun char mem =>
    whole char (List.mem_append_right _ (List.mem_cons_of_mem _ mem))
  obtain ⟨lineChars, rest, rfl, lineEq⟩ : ∃ lineChars rest, back = lineChars ++ rest ∧
      lineChars.flatMap Prod.snd = line := by
    cases after with
    | nil =>
      rw [List.append_nil] at backEq
      exact ⟨back, [], (List.append_nil _).symm, backEq⟩
    | cons byte after =>
      obtain ⟨lineChars, rest, backSplit, lineEq, -⟩ :=
        exists_lineEnd backWhole (stops byte rfl) backEq
      exact ⟨lineChars, _, backSplit, lineEq⟩
  have lineWhole : ∀ char ∈ lineChars, ReadsWhole char := fun char mem =>
    backWhole char (List.mem_append_left _ mem)
  have readBack : pagerChars line = lineChars := by rw [← lineEq, pagerChars_whole lineWhole]
  rw [readBack]
  apply fitting front _ lineChars rest rfl
  · exact ends.imp (congrArg UInt8.toUInt32) (congrArg UInt8.toUInt32)
  · intro char mem charEnds
    rcases (lineWhole char mem).lineEnd with ⟨b, bEnds, rfl⟩ | ⟨other, -⟩
    · apply inside b _ bEnds
      rw [← lineEq]
      exact List.mem_flatMap.2 ⟨_, mem, List.mem_singleton_self b⟩
    · exact other charEnds

/-- What the new ring holds. -/
theorem pagerhistRewrapTo_written (t : WidthTables) (cellsInLine : Nat) {ph : PagerHistoryBuf}
    (wellFormed : ph.WellFormed) {chars : List (UInt32 × Bytes)}
    (readChars : pagerChars ph.ringbuf = chars) (charsEq : chars.flatMap Prod.snd = ph.ringbuf) :
    (pagerhistRewrapTo t ph cellsInLine).ringbuf =
      ((brokenChars t cellsInLine 0 {} chars).flatMap Prod.snd).drop
        (((brokenChars t cellsInLine 0 {} chars).flatMap Prod.snd).length - ph.maximumSize) := by
  have inRing := wellFormed.inRing
  have inMaximum := wellFormed.inMaximum
  unfold pagerhistRewrapTo
  cases ringEq : ph.ringbuf with
  | nil =>
    rw [ringEq, pagerChars] at readChars
    rw [if_pos (by exact rfl), ringEq, ← readChars, brokenChars, List.flatMap_nil, List.drop_nil]
  | cons byte rest =>
    have lengthEq := congrArg List.length ringEq
    rw [List.length_cons] at lengthEq
    have kept := @rounds_written t cellsInLine chars
      { nph := { maximumSize := ph.maximumSize
                 capacity := min ph.maximumSize (ph.capacity + 4096) } }
      ph.maximumSize [] ⟨rfl, List.drop_nil.symm, Nat.zero_le _, Nat.min_le_left _ _⟩
      (by omega) (by
        intro char mem
        obtain ⟨front, back, rfl⟩ := List.append_of_mem mem
        have total := congrArg List.length charsEq
        rw [List.flatMap_append, List.flatMap_cons, List.length_append,
          List.length_append] at total
        omega)
    rw [if_neg (by exact Bool.false_ne_true), ← ringEq]
    dsimp only
    rw [loop_eq_foldl, readChars]
    exact kept.ringEq

/-- The pager history in lines of another width: the text without its carriage returns is the same,
or the end of it that fits the buffer, and every line is at most that wide, if every character
is. -/
theorem pagerhistRewrapTo_reflows (t : WidthTables) {ph : PagerHistoryBuf}
    (wellFormed : ph.WellFormed) {text : List Char} (content : ph.ringbuf <:+ Utf8.utf8 text)
    {cellsInLine : Nat} (positive : 0 < cellsInLine)
    (fit : CharsFit t cellsInLine (pagerChars ph.ringbuf)) :
    let ph' := pagerhistRewrapTo t ph cellsInLine
    ∃ reflowed, withoutReturns reflowed = withoutReturns ph.ringbuf ∧
      ph'.ringbuf = reflowed.drop (reflowed.length - ph.maximumSize) ∧
      LinesFit t cellsInLine ph'.ringbuf ∧ LinesFit t cellsInLine (10 :: reflowed) := by
  intro ph'
  obtain ⟨chars, whole, charsEq⟩ := exists_wholeChars text content
  have readChars : pagerChars ph.ringbuf = chars := by rw [← charsEq, pagerChars_whole whole]
  rw [readChars] at fit
  let reflowed := (brokenChars t cellsInLine 0 {} chars).flatMap Prod.snd
  have newline : ReadsWhole (10, [10]) := readsWhole_char '\n'
  have lines : LinesFit t cellsInLine (10 :: reflowed) := by
    have padded := List.forall_mem_cons.2 ⟨newline, brokenChars_whole t cellsInLine whole 0 {}⟩
    apply linesFit_of_chars padded
    apply LinesFitting.cons
    · intro _ line after split inside
      have fits := @brokenChars_start t cellsInLine positive chars fit 0 {} {} 0 (Nat.zero_le _)
        (LineScan.same rfl (Int.le_refl 0)) line after split inside
      rwa [Int.zero_add] at fits
    · exact brokenChars_lines positive chars fit (Nat.zero_le _)
  have written : ph'.ringbuf = reflowed.drop (reflowed.length - ph.maximumSize) :=
    pagerhistRewrapTo_written t cellsInLine wellFormed readChars charsEq
  refine ⟨reflowed, ?_, written, ?_, lines⟩
  · rw [← charsEq]
    exact brokenChars_withoutReturns t cellsInLine whole 0 {}
  · rw [written]
    exact lines.suffix ((List.drop_suffix _ _).trans (List.suffix_cons 10 reflowed))

/-- The characters of a whole text. -/
def wholeChars (text : List Char) : List (UInt32 × Bytes) :=
  text.map fun c => (c.val, String.utf8EncodeChar c)

theorem wholeChars_whole (text : List Char) : ∀ char ∈ wholeChars text, ReadsWhole char := by
  intro char mem
  obtain ⟨c, -, rfl⟩ := List.mem_map.1 mem
  exact readsWhole_char c

theorem wholeChars_bytes (text : List Char) :
    (wholeChars text).flatMap Prod.snd = Utf8.utf8 text := by
  unfold wholeChars
  rw [List.flatMap_map]
  rfl

theorem pagerChars_utf8 (text : List Char) : pagerChars (Utf8.utf8 text) = wholeChars text := by
  rw [← wholeChars_bytes]
  exact pagerChars_whole (wholeChars_whole text)

/-- Tables in which the characters from U+3042 on take two cells. -/
def kanaTables : WidthTables where
  wcwidthStd ch := if 0x3042 ≤ ch then 2 else 1
  isEmojiPresentationBase _ := false

/-- A pager history with room for 32 bytes. -/
def smallPager (text : List Char) : PagerHistoryBuf :=
  { maximumSize := 32, capacity := 32, ringbuf := Utf8.utf8 text }

theorem smallPager_wellFormed {text : List Char} (room : (Utf8.utf8 text).length ≤ 32) :
    (smallPager text).WellFormed := ⟨room, Nat.le_refl 32⟩

theorem pagerhistRewrapTo_reflows_kana :
    let ph := smallPager ['あ', 'b', 'c', '\r', 'd', '\n', 'e']
    let ph' := pagerhistRewrapTo kanaTables ph 3
    ∃ reflowed, withoutReturns reflowed = withoutReturns ph.ringbuf ∧
      ph'.ringbuf = reflowed.drop (reflowed.length - ph.maximumSize) ∧
      LinesFit kanaTables 3 ph'.ringbuf ∧ LinesFit kanaTables 3 (10 :: reflowed) := by
  apply pagerhistRewrapTo_reflows kanaTables (smallPager_wellFormed (by decide))
    (List.suffix_refl _) (by decide)
  intro char _ _
  decide

/-- A character of two cells does not fit a line of one. -/
theorem pagerhistRewrapTo_wideInOneCell :
    let ph := smallPager ['\n', 'あ', '\n']
    ph.WellFormed ∧ ¬ LinesFit kanaTables 1 (pagerhistRewrapTo kanaTables ph 1).ringbuf := by
  have room : (Utf8.utf8 ['\n', 'あ', '\n']).length ≤ 32 := by decide
  refine ⟨smallPager_wellFormed room, ?_⟩
  have written : (pagerhistRewrapTo kanaTables (smallPager ['\n', 'あ', '\n']) 1).ringbuf =
      [10] ++ 13 :: (Utf8.utf8 ['あ'] ++ [13, 10]) :=
    (pagerhistRewrapTo_written kanaTables 1 (smallPager_wellFormed room) (pagerChars_utf8 _)
      (wholeChars_bytes _)).trans (by decide)
  rw [written]
  intro fit
  have width := fit [10] 13 (Utf8.utf8 ['あ']) [13, 10] rfl (Or.inr rfl) (by
    intro b mem ends
    rcases ends with rfl | rfl
    · exact absurd mem (by decide)
    · exact absurd mem (by decide)) (by
    intro b first
    exact Or.inr (Option.some.inj first).symm)
  rw [pagerChars_utf8] at width
  exact absurd width (by decide)

end Smelly
