/-
Module: Smelly.Proofs.ClipboardPieces
Purpose: The clipboard calls for an OSC 52 code of any length: the text arrives in pieces, each
  character but NUL and DEL in exactly one of them.
Trusted boundary: none
-/
import Smelly.Proofs.ParserTexts

namespace Smelly

open ParseScreen

/-! ### Payloads and calls -/

/-- What an OSC code keeps of its characters. -/
def oscText (payload : Text) : Text := payload.filter fun ch => ch ≠ Ctl.NUL ∧ ch ≠ Ctl.DEL

/-- No part of the payload ends the string. -/
structure Unclosed (payload : Text) : Prop where
  bel : Ctl.BEL ∉ payload
  st : Ctl.ST ∉ payload
  escape : ¬ [Ctl.ESC, ord '\\'] <:+: oscText payload

/-- How an OSC code starts. -/
def OscStarts (start : Text) : Prop := start = [Ctl.ESC, ord ']'] ∨ start = [Ctl.OSC]

/-- How an OSC code ends. -/
def OscEnds (stop : Text) : Prop :=
  stop = [Ctl.BEL] ∨ stop = [Ctl.ST] ∨ stop = [Ctl.ESC, ord '\\']

/-- What stands in front of a piece: the pieces behind the first one have a separator. -/
def piecePrefix : List Text → Text
  | [] => []
  | _ :: _ => [ord ';']

/-- The calls for pieces that are not the last one, behind a prefix. -/
def partialCalls (pfx : Text) : List Text → List Command
  | [] => []
  | piece :: rest => .clipboardControl (-52) (pfx ++ piece) :: partialCalls [ord ';'] rest

theorem partialCalls_append (pfx : Text) (pieces : List Text) (piece : Text) :
    partialCalls pfx (pieces ++ [piece]) = partialCalls pfx pieces ++
      [.clipboardControl (-52) ((if pieces = [] then pfx else [ord ';']) ++ piece)] := by
  induction pieces generalizing pfx with
  | nil => rfl
  | cons first rest ih =>
    rw [List.cons_append, partialCalls, ih]
    cases rest <;> rfl

/-- The calls of an OSC 52 code: the last piece is marked as final, the others as partial. -/
def clipboardCalls (pieces : List Text) (last : Text) : List Command :=
  partialCalls [] pieces ++ [.clipboardControl 52 (piecePrefix pieces ++ last)]

theorem partialCalls_flush (pieces : List Text) (piece : Text) :
    partialCalls [] (pieces ++ [piece]) =
      partialCalls [] pieces ++ [.clipboardControl (-52) (piecePrefix pieces ++ piece)] := by
  rw [partialCalls_append]
  cases pieces <;> rfl

/-- Calls that only hand over clipboard data. -/
def ClipboardOnly (calls : List Command) : Prop :=
  ∀ c ∈ calls, ∃ code text, c = .clipboardControl code text

theorem partialCalls_clipboardOnly (pfx : Text) (pieces : List Text) :
    ClipboardOnly (partialCalls pfx pieces) := by
  induction pieces generalizing pfx with
  | nil => exact List.forall_mem_nil _
  | cons piece rest ih => exact List.forall_mem_cons.2 ⟨⟨_, _, rfl⟩, ih _⟩

theorem clipboardCalls_clipboardOnly (pieces : List Text) (last : Text) :
    ClipboardOnly (clipboardCalls pieces last) :=
  List.forall_mem_append.2
    ⟨partialCalls_clipboardOnly [] pieces, List.forall_mem_singleton.2 ⟨_, _, rfl⟩⟩

theorem ClipboardOnly.silent {calls log : List Command} (only : ClipboardOnly calls)
    {t : ParseScreen} (logged : t.dispatched = log ++ calls) : ¬ Activated log.length t := by
  rintro ⟨c, mem, activates⟩
  rw [logged, List.drop_left' rfl] at mem
  obtain ⟨code, text, rfl⟩ := only c mem
  cases activates

/-! ### Inside an OSC code -/

/-- Inside an OSC code: the cells of `parser_buf` and the calls made so far. -/
structure InOsc (cells : Text) (log : List Command) (s : ParseScreen) : Prop where
  state : s.parserState = .osc
  pos : s.parserBufPos = cells.length
  front : cells <+: s.parserBuf
  logged : s.dispatched = log

/-- Outside of an escape code, with the calls made so far. -/
structure OutOfCode (log : List Command) (s : ParseScreen) : Prop where
  state : s.parserState = .normal
  logged : s.dispatched = log

/-- The characters that `accumulate_osc` stores. -/
structure Stored (cells : Text) (ch : UInt32) : Prop where
  bel : ch ≠ Ctl.BEL
  st : ch ≠ Ctl.ST
  nul : ch ≠ Ctl.NUL
  del : ch ≠ Ctl.DEL
  escape : ch = ord '\\' → cells.getLast? ≠ some Ctl.ESC

variable {latin1 : Bool} {cells : Text} {log : List Command} {s : ParseScreen}

theorem InOsc.decoder (h : InOsc cells log s) (d : Decoder) :
    InOsc cells log { s with decoder := d } := ⟨h.state, h.pos, h.front, h.logged⟩

theorem InOsc.readFrom (h : InOsc cells log s) : s.readFrom 0 = some cells := by
  obtain ⟨beyond, heq⟩ := h.front
  have inside : s.parserBufPos ≤ s.parserBuf.length := by
    rw [h.pos, ← heq, List.length_append]
    exact Nat.le_add_right _ _
  unfold ParseScreen.readFrom
  rw [if_pos ⟨Nat.zero_le _, inside⟩, h.pos, ← heq, List.take_left' rfl]
  rfl

theorem InOsc.afterEsc (h : InOsc cells log s) :
    Smelly.afterEsc s = some (decide (cells.getLast? = some Ctl.ESC)) := by
  unfold Smelly.afterEsc
  rw [h.pos]
  rcases List.eq_nil_or_concat cells with rfl | ⟨front, last, rfl⟩
  · rfl
  · obtain ⟨beyond, heq⟩ := h.front
    have cell : s.read ((front.concat last).length - 1) = some last := by
      unfold ParseScreen.read
      rw [← heq]
      simp
    rw [cell]
    simp

theorem InOsc.closesString (h : InOsc cells log s) (ch : UInt32) :
    Smelly.closesString s ch =
      some (decide (ch = ord '\\' ∧ cells.getLast? = some Ctl.ESC)) := by
  unfold Smelly.closesString
  by_cases backslash : ch = ord '\\'
  · rw [if_pos backslash, h.afterEsc]
    simp [backslash]
  · simp [backslash]

theorem Stored.closesString {ch : UInt32} (stored : Stored cells ch) (h : InOsc cells log s) :
    Smelly.closesString s ch = some false := by
  rw [h.closesString]
  simp only [Option.some.injEq, decide_eq_false_iff_not]
  exact fun ⟨backslash, last⟩ => stored.escape backslash last

/-- A character is stored behind the others. -/
theorem InOsc.push (h : InOsc cells log s) (room : cells.length < parserBufSz) (ch : UInt32) :
    ∃ t, s.push ch = some t ∧ InOsc (cells ++ [ch]) log t ∧ t.decoder = s.decoder := by
  obtain ⟨beyond, heq⟩ := h.front
  have inside : s.parserBufPos < parserBufSz ∧ s.parserBufPos ≤ s.parserBuf.length := by
    rw [h.pos, ← heq, List.length_append]
    exact ⟨room, Nat.le_add_right _ _⟩
  have written : s.write s.parserBufPos ch =
      some { s with parserBuf := cells ++ ch :: beyond.drop 1 } := by
    unfold ParseScreen.write
    rw [if_pos inside, h.pos, ← heq]
    simp
  unfold ParseScreen.push
  rw [written]
  refine ⟨_, rfl, ⟨h.state, ?_, ?_, h.logged⟩, rfl⟩
  · rw [List.length_append, ← h.pos]
    rfl
  · exact ⟨beyond.drop 1, by simp⟩

theorem InOsc.accumulate (h : InOsc cells log s) {ch : UInt32} (stored : Stored cells ch) :
    accumulateOsc s ch =
      if parserBufSz - 1 ≤ cells.length then
        (handleExtendedOscCode s).bind fun result => some (result.1, true, result.2)
      else (s.push ch).bind fun t => some (t, false, false) := by
  have ends : ¬ (ch = Ctl.ST ∨ ch = Ctl.BEL) := fun h => h.elim stored.st stored.bel
  have skipped : ¬ (ch = Ctl.NUL ∨ ch = Ctl.DEL) := fun h => h.elim stored.nul stored.del
  unfold accumulateOsc
  rw [if_neg ends, if_neg skipped, stored.closesString h, h.pos]
  rfl

/-- A character that fits. -/
theorem InOsc.fits (h : InOsc cells log s) {ch : UInt32} (stored : Stored cells ch)
    (room : cells.length < parserBufSz - 1) :
    ∃ t, accumulateOsc s ch = some (t, false, false) ∧ InOsc (cells ++ [ch]) log t ∧
      t.decoder = s.decoder := by
  obtain ⟨t, pushed, ht, kept⟩ := h.push (Nat.lt_of_lt_of_le room (Nat.sub_le _ _)) ch
  refine ⟨t, ?_, ht, kept⟩
  rw [h.accumulate stored, if_neg (Nat.not_le.2 room), pushed]
  rfl

/-! ### The ends of a code -/

/-- The codes are digits in front of a separator. -/
theorem oscParts_digits (digits : Text) (all : ∀ ch ∈ digits, isDigit ch = true)
    (nonempty : 0 < digits.length) (few : digits.length ≤ 5) (text : Text) :
    oscParts (digits ++ ord ';' :: text) = (toInt (utoi digits), text) := by
  have taken : ((digits ++ ord ';' :: text).take 5).takeWhile isDigit = digits := by
    rw [List.take_append, List.take_of_length_le few, List.takeWhile_append_of_pos all]
    cases 5 - digits.length with
    | zero => simp
    | succ n =>
      have separator : isDigit (ord ';') = false := by decide
      rw [List.take_succ_cons, List.takeWhile_cons, separator]
      simp
  unfold oscParts
  simp only [taken]
  rw [if_pos nonempty, List.drop_left' rfl]
  rfl

theorem oscParts_clipboard (text : Text) : oscParts (chars "52;" ++ text) = (52, text) :=
  oscParts_digits (chars "52") (forall_mem_chars (by decide)) (by decide) (by decide) text

theorem oscParts_extendedClipboard (text : Text) :
    oscParts (chars "5522;" ++ text) = (5522, text) :=
  oscParts_digits (chars "5522") (forall_mem_chars (by decide)) (by decide) (by decide) text

theorem oscParts_partial (text : Text) :
    oscParts (extendedOscSentinel :: 1 :: ord ';' :: text) = (-52, text) := by
  have sentinel : isDigit extendedOscSentinel = false := by decide
  unfold oscParts isExtendedOsc
  simp [sentinel]

/-- The string that ends is dispatched, and normal mode follows. -/
theorem InOsc.dispatch (h : InOsc cells log s) {code : Int} {text : Text}
    (parts : oscParts cells = (code, text)) (clipboard : code = 52 ∨ code = 5522) :
    ∃ t, dispatchString dispatchHandlers.osc s = some t ∧
      OutOfCode (log ++ [.clipboardControl code text]) t ∧ t.decoder = s.decoder := by
  have commands : oscCommands code text = [.clipboardControl code text] := by
    rcases clipboard with rfl | rfl <;> rfl
  have whole : code ≠ -52 := by
    rcases clipboard with rfl | rfl <;> decide
  have emitted : s.emitAll [.clipboardControl code text] =
      { s with dispatched := s.dispatched ++ [.clipboardControl code text] } := rfl
  have handled : dispatchHandlers.osc s =
      some { s with dispatched := s.dispatched ++ [.clipboardControl code text] } := by
    change dispatchOsc s = _
    unfold dispatchOsc
    rw [h.readFrom]
    simp only [Option.bind_eq_bind, Option.bind_some, parts, commands]
    rw [if_neg whole, emitted]
  unfold dispatchString
  rw [handled]
  refine ⟨_, rfl, ⟨rfl, ?_⟩, rfl⟩
  rw [← h.logged]
  rfl

/-- The cells of a full buffer are marked as a partial code. -/
theorem handleExtendedOscCode_marks {rest : Text}
    (buf : s.parserBuf = ord '5' :: ord '2' :: ord ';' :: rest) :
    handleExtendedOscCode s =
      some ({ s with parserBuf := extendedOscSentinel :: 1 :: ord ';' :: rest }, true) := by
  simp [handleExtendedOscCode, ParseScreen.read, ParseScreen.write, buf, parserBufSz]

/-- `continue_osc_52` leaves the prefix of a further piece. -/
theorem continueOsc52_cells {a b c d : UInt32} {rest : Text}
    (buf : s.parserBuf = a :: b :: c :: d :: rest) :
    continueOsc52 s =
      some { s with parserBuf := chars "52;;" ++ rest, parserBufPos := 4 } := by
  have cells : chars "52;;" = [ord '5', ord '2', ord ';', ord ';'] := rfl
  simp [continueOsc52, ParseScreen.write, buf, parserBufSz, cells]

/-- The buffer is full: what it holds is sent as a partial code, and the character that did not
fit follows the prefix of the next piece. -/
theorem InOsc.flush {first : UInt32} {text : Text}
    (h : InOsc (chars "52;" ++ first :: text) log s) {ch : UInt32}
    (stored : Stored (chars "52;" ++ first :: text) ch)
    (full : parserBufSz - 1 ≤ (chars "52;" ++ first :: text).length) :
    ∃ t, dispatchOscChar dispatchHandlers s ch = some t ∧
      InOsc (chars "52;;" ++ [ch]) (log ++ [.clipboardControl (-52) (first :: text)]) t ∧
      t.decoder = s.decoder := by
  obtain ⟨beyond, heq⟩ := h.front
  have buf : s.parserBuf = ord '5' :: ord '2' :: ord ';' :: first :: (text ++ beyond) := heq.symm
  obtain ⟨marked, hmarked⟩ : ∃ marked : ParseScreen, marked = { s with
      parserBuf := extendedOscSentinel :: 1 :: ord ';' :: first :: (text ++ beyond) } := ⟨_, rfl⟩
  have accumulated : accumulateOsc s ch = some (marked, true, true) := by
    rw [h.accumulate stored, if_pos full, handleExtendedOscCode_marks buf, ← hmarked]
    rfl
  have inMarked : InOsc (extendedOscSentinel :: 1 :: ord ';' :: first :: text) log marked := by
    subst hmarked
    exact ⟨h.state, h.pos, ⟨beyond, rfl⟩, h.logged⟩
  obtain ⟨sent, hsent⟩ : ∃ sent : ParseScreen, sent = { marked with
      dispatched := log ++ [.clipboardControl (-52) (first :: text)]
      parserBuf := chars "52;;" ++ (text ++ beyond)
      parserBufPos := 4 } := ⟨_, rfl⟩
  have dispatched : dispatchHandlers.osc marked = some sent := by
    change dispatchOsc marked = _
    unfold dispatchOsc
    rw [inMarked.readFrom]
    simp only [Option.bind_eq_bind, Option.bind_some, oscParts_partial]
    have commands : marked.emitAll (oscCommands (-52) (first :: text)) =
        { marked with dispatched := log ++ [.clipboardControl (-52) (first :: text)] } := by
      rw [← inMarked.logged]
      rfl
    have cells : marked.parserBuf =
        extendedOscSentinel :: 1 :: ord ';' :: first :: (text ++ beyond) := by rw [hmarked]
    rw [commands, hsent]
    exact continueOsc52_cells cells
  have inSent : InOsc (chars "52;;") (log ++ [.clipboardControl (-52) (first :: text)]) sent := by
    subst hsent
    exact ⟨inMarked.state, rfl, List.prefix_append _ _, rfl⟩
  have again : Stored (chars "52;;") ch :=
    ⟨stored.bel, stored.st, stored.nul, stored.del, fun _ => by decide⟩
  obtain ⟨t, pushed, ht, kept⟩ := inSent.fits again (by decide)
  refine ⟨t, ?_, ht, ?_⟩
  · unfold dispatchOscChar
    rw [accumulated]
    simp only [Option.bind_eq_bind, Option.bind_some, dispatched, pushed]
    rfl
  · rw [kept, hsent, hmarked]

/-! ### Reading the code -/

/-- The dispatcher hands a character of an OSC code to `accumulate_osc`. -/
theorem dispatchUnicodeChar_osc (state : s.parserState = .osc) (ch : UInt32) :
    dispatchUnicodeChar dispatchHandlers s ch =
      (dispatchOscChar dispatchHandlers s ch).map (·, false) := by
  unfold dispatchUnicodeChar
  rw [state]

/-- What the dispatcher does with a character of an OSC code is how the character is read. -/
theorem reads_oscChar {ch : UInt32} {Q : ParseScreen → Prop}
    (takes : ∀ s, InOsc cells log s →
      ∃ t, dispatchOscChar dispatchHandlers s ch = some t ∧ Q t ∧ t.decoder = s.decoder) :
    Reads latin1 (InOsc cells log) [ch] Q := by
  apply reads_char
  intro s d hs _
  obtain ⟨t, dispatched, ht, kept⟩ := takes _ (hs.decoder d)
  refine ⟨t, ?_, ht, kept⟩
  rw [dispatchUnicodeChar_osc (hs.decoder d).state, dispatched]
  rfl

theorem reads_stored {ch : UInt32} (stored : Stored cells ch)
    (room : cells.length < parserBufSz - 1) :
    Reads latin1 (InOsc cells log) [ch] (InOsc (cells ++ [ch]) log) := by
  apply reads_oscChar
  intro s hs
  obtain ⟨t, accumulated, ht, kept⟩ := hs.fits stored room
  refine ⟨t, ?_, ht, kept⟩
  unfold dispatchOscChar
  rw [accumulated]
  rfl

theorem reads_flush {first : UInt32} {text : Text} {ch : UInt32}
    (stored : Stored (chars "52;" ++ first :: text) ch)
    (full : parserBufSz - 1 ≤ (chars "52;" ++ first :: text).length) :
    Reads latin1 (InOsc (chars "52;" ++ first :: text) log) [ch]
      (InOsc (chars "52;;" ++ [ch]) (log ++ [.clipboardControl (-52) (first :: text)])) :=
  reads_oscChar fun _ hs => hs.flush stored full

theorem reads_skipped {ch : UInt32} (skipped : ch = Ctl.NUL ∨ ch = Ctl.DEL) :
    Reads latin1 (InOsc cells log) [ch] (InOsc cells log) := by
  apply reads_oscChar
  intro s hs
  refine ⟨s, ?_, hs, rfl⟩
  have ends : ¬ (ch = Ctl.ST ∨ ch = Ctl.BEL) := by
    rcases skipped with rfl | rfl <;> decide
  unfold dispatchOscChar accumulateOsc
  rw [if_neg ends, if_pos skipped]
  rfl

/-- The start of an OSC code. -/
theorem reads_start {start : Text} (starts : OscStarts start) :
    Reads latin1 (OutOfCode log) start (InOsc [] log) := by
  have entered : ∀ t : ParseScreen, t.dispatched = log → InOsc [] log (t.setState .osc) :=
    fun t logged => ⟨rfl, rfl, List.nil_prefix, logged⟩
  rcases starts with rfl | rfl
  · have escaped : Reads latin1 (OutOfCode log) [Ctl.ESC]
        (fun s => ∃ t : ParseScreen, s = t.setState .esc ∧ t.dispatched = log) := by
      apply reads_char
      intro s d hs _
      refine ⟨({ s with decoder := d } : ParseScreen).setState .esc, ?_, ⟨_, rfl, hs.logged⟩, rfl⟩
      simp only [hs.state]
      rfl
    apply reads_cons escaped
    apply reads_char
    rintro _ d ⟨t, rfl, logged⟩ _
    exact ⟨({ t with decoder := d } : ParseScreen).setState .osc, rfl, entered _ logged, rfl⟩
  · apply reads_char
    intro s d hs _
    refine ⟨({ s with decoder := d } : ParseScreen).setState .osc, ?_, entered _ hs.logged, rfl⟩
    simp only [hs.state]
    rfl

/-- BEL and ST end the string as it is. -/
theorem reads_stop {ch : UInt32} (stop : ch = Ctl.ST ∨ ch = Ctl.BEL) {code : Int} {text : Text}
    (parts : oscParts cells = (code, text)) (clipboard : code = 52 ∨ code = 5522) :
    Reads latin1 (InOsc cells log) [ch] (OutOfCode (log ++ [.clipboardControl code text])) := by
  apply reads_oscChar
  intro s hs
  obtain ⟨t, dispatched, ht, kept⟩ := hs.dispatch parts clipboard
  refine ⟨t, ?_, ht, kept⟩
  unfold dispatchOscChar accumulateOsc
  rw [if_pos stop]
  simpa using dispatched

/-- A backslash behind an ESC ends the string in front of the ESC. -/
theorem reads_backslash {code : Int} {text : Text} (parts : oscParts cells = (code, text))
    (clipboard : code = 52 ∨ code = 5522) :
    Reads latin1 (InOsc (cells ++ [Ctl.ESC]) log) [ord '\\']
      (OutOfCode (log ++ [.clipboardControl code text])) := by
  apply reads_oscChar
  intro s hs
  have front : InOsc cells log (dropEsc s) := by
    refine ⟨hs.state, ?_, (List.prefix_append _ _).trans hs.front, hs.logged⟩
    change s.parserBufPos - 1 = _
    rw [hs.pos, List.length_append]
    rfl
  obtain ⟨t, dispatched, ht, kept⟩ := front.dispatch parts clipboard
  refine ⟨t, ?_, ht, kept⟩
  have closes := hs.closesString (ord '\\')
  unfold dispatchOscChar accumulateOsc
  rw [if_neg (by decide), if_neg (by decide), closes]
  simpa using dispatched

/-! ### Payloads -/

theorem oscText_skip {ch : UInt32} (skipped : ch = Ctl.NUL ∨ ch = Ctl.DEL) (rest : Text) :
    oscText (ch :: rest) = oscText rest := by
  apply List.filter_cons_of_neg
  rcases skipped with rfl | rfl <;> decide

theorem oscText_keep {ch : UInt32} (kept : ¬ (ch = Ctl.NUL ∨ ch = Ctl.DEL)) (rest : Text) :
    oscText (ch :: rest) = ch :: oscText rest := by
  apply List.filter_cons_of_pos
  simpa [not_or] using kept

/-- A backslash does not follow an ESC where no terminator is. -/
theorem getLast?_of_unclosed {text rest : Text} {ch : UInt32}
    (escape : ¬ [Ctl.ESC, ord '\\'] <:+: text ++ ch :: rest) :
    ch = ord '\\' → text.getLast? ≠ some Ctl.ESC := by
  rintro rfl last
  obtain ⟨front, rfl⟩ := List.getLast?_eq_some_iff.1 last
  exact escape ⟨front, rest, by simp⟩

/-- A payload that fits is stored behind the cells there are. -/
theorem reads_unsplit {payload : Text} (bel : Ctl.BEL ∉ payload) (st : Ctl.ST ∉ payload)
    (escape : ¬ [Ctl.ESC, ord '\\'] <:+: cells ++ oscText payload)
    (room : (cells ++ oscText payload).length ≤ parserBufSz - 1) :
    Reads latin1 (InOsc cells log) payload (InOsc (cells ++ oscText payload) log) := by
  induction payload generalizing cells with
  | nil =>
    rw [show cells ++ oscText [] = cells from List.append_nil _]
    exact reads_nil
  | cons ch rest ih =>
    obtain ⟨notBel, bel'⟩ := List.ne_and_not_mem_of_not_mem_cons bel
    obtain ⟨notSt, st'⟩ := List.ne_and_not_mem_of_not_mem_cons st
    by_cases skipped : ch = Ctl.NUL ∨ ch = Ctl.DEL
    · rw [oscText_skip skipped] at escape room ⊢
      exact reads_cons (reads_skipped skipped) (ih bel' st' escape room)
    · rw [oscText_keep skipped] at escape room ⊢
      have stored : Stored cells ch :=
        ⟨notBel.symm, notSt.symm, fun h => skipped (.inl h), fun h => skipped (.inr h),
          getLast?_of_unclosed escape⟩
      have first : cells.length < parserBufSz - 1 := by
        rw [List.length_append, List.length_cons] at room
        omega
      rw [List.append_cons] at escape room ⊢
      exact reads_cons (reads_stored stored first) (ih bel' st' escape room)

/-- Text without an ESC does not start a terminator. -/
theorem unclosed_append {front text : Text} (clear : Ctl.ESC ∉ front)
    (escape : ¬ [Ctl.ESC, ord '\\'] <:+: text) : ¬ [Ctl.ESC, ord '\\'] <:+: front ++ text := by
  induction front with
  | nil => exact escape
  | cons ch front ih =>
    obtain ⟨notEsc, clear'⟩ := List.ne_and_not_mem_of_not_mem_cons clear
    rw [List.cons_append, List.infix_cons_iff]
    rintro (begins | later)
    · exact notEsc (List.cons_prefix_cons.1 begins).1
    · exact ih clear' later

/-- What a code of that number leaves, read up to its terminator. -/
theorem reads_unsplitEnd {stop : Text} (ends : OscEnds stop) {code : Int} {text : Text}
    (parts : oscParts cells = (code, text)) (clipboard : code = 52 ∨ code = 5522)
    (room : (cells ++ stop.dropLast).length ≤ parserBufSz - 1) :
    Reads latin1 (InOsc cells log) stop (OutOfCode (log ++ [.clipboardControl code text])) := by
  rcases ends with rfl | rfl | rfl
  · exact reads_stop (.inr rfl) parts clipboard
  · exact reads_stop (.inl rfl) parts clipboard
  · have stored : Stored cells Ctl.ESC :=
      ⟨by decide, by decide, by decide, by decide, fun h => absurd h (by decide)⟩
    have fits : cells.length < parserBufSz - 1 := by
      rw [List.length_append] at room
      exact room
    exact reads_cons (reads_stored stored fits) (reads_backslash parts clipboard)

/-! ### The pieces of an OSC 52 code -/

/-- Inside an OSC 52 code that has brought the text so far, in the pieces sent and the one in the
buffer. -/
def InPieces (base : List Command) (text : Text) (s : ParseScreen) : Prop :=
  ∃ pieces current, InOsc (chars "52;" ++ (piecePrefix pieces ++ current))
      (base ++ partialCalls [] pieces) s ∧
    pieces.flatten ++ current = text ∧ (current = [] → pieces = [])

/-- The last cell is the last character of the text, if there is one. -/
theorem getLast?_piece {pieces : List Text} {current text : Text}
    (flat : pieces.flatten ++ current = text) (started : current = [] → pieces = [])
    (last : (chars "52;" ++ (piecePrefix pieces ++ current)).getLast? = some Ctl.ESC) :
    text.getLast? = some Ctl.ESC := by
  rcases List.eq_nil_or_concat current with rfl | ⟨front, ch, rfl⟩
  · rw [started rfl] at last
    cases last
  · rw [← flat]
    simpa [← List.append_assoc] using last

/-- A character of the text goes to the piece in the buffer, or it starts the next one. -/
theorem reads_pieceChar {base : List Command} {text : Text} {ch : UInt32} (bel : ch ≠ Ctl.BEL)
    (st : ch ≠ Ctl.ST) (kept : ¬ (ch = Ctl.NUL ∨ ch = Ctl.DEL))
    (escape : ch = ord '\\' → text.getLast? ≠ some Ctl.ESC) :
    Reads latin1 (InPieces base text) [ch] (InPieces base (text ++ [ch])) := by
  rintro s bytes ⟨pieces, current, hs, flat, started⟩
  have stored : Stored (chars "52;" ++ (piecePrefix pieces ++ current)) ch :=
    ⟨bel, st, fun h => kept (.inl h), fun h => kept (.inr h),
      fun backslash last => escape backslash (getLast?_piece flat started last)⟩
  by_cases room : (chars "52;" ++ (piecePrefix pieces ++ current)).length < parserBufSz - 1
  · apply (reads_stored stored room).strengthen _ s bytes hs
    intro t ht
    refine ⟨pieces, current ++ [ch], ?_, ?_, fun h => by simp at h⟩
    · rw [List.append_assoc, List.append_assoc] at ht
      exact ht
    · rw [← List.append_assoc, flat]
  · have full := Nat.not_lt.1 room
    cases hcells : piecePrefix pieces ++ current with
    | nil =>
      rw [hcells] at full
      exact absurd full (by decide)
    | cons first rest =>
      rw [hcells] at stored full hs
      apply (reads_flush stored full).strengthen _ s bytes hs
      intro t ht
      refine ⟨pieces ++ [current], [ch], ?_, ?_, fun h => by simp at h⟩
      · have pfx : piecePrefix (pieces ++ [current]) = [ord ';'] := by cases pieces <;> rfl
        rw [pfx, partialCalls_flush, hcells, ← List.append_assoc base]
        exact ht
      · rw [List.flatten_append, List.flatten_singleton, flat]

theorem reads_pieceSkipped {base : List Command} {text : Text} {ch : UInt32}
    (skipped : ch = Ctl.NUL ∨ ch = Ctl.DEL) :
    Reads latin1 (InPieces base text) [ch] (InPieces base text) := by
  rintro s bytes ⟨pieces, current, hs, flat, started⟩
  apply (reads_skipped skipped).strengthen _ s bytes hs
  exact fun t ht => ⟨pieces, current, ht, flat, started⟩

/-- Every character of the payload that is kept is added once to the text. -/
theorem reads_pieces {base : List Command} {text payload : Text} (bel : Ctl.BEL ∉ payload)
    (st : Ctl.ST ∉ payload) (escape : ¬ [Ctl.ESC, ord '\\'] <:+: text ++ oscText payload) :
    Reads latin1 (InPieces base text) payload (InPieces base (text ++ oscText payload)) := by
  induction payload generalizing text with
  | nil =>
    rw [show text ++ oscText [] = text from List.append_nil _]
    exact reads_nil
  | cons ch rest ih =>
    obtain ⟨notBel, bel'⟩ := List.ne_and_not_mem_of_not_mem_cons bel
    obtain ⟨notSt, st'⟩ := List.ne_and_not_mem_of_not_mem_cons st
    by_cases skipped : ch = Ctl.NUL ∨ ch = Ctl.DEL
    · rw [oscText_skip skipped] at escape ⊢
      exact reads_cons (reads_pieceSkipped skipped) (ih bel' st' escape)
    · rw [oscText_keep skipped] at escape ⊢
      have first : Reads latin1 (InPieces base text) [ch] (InPieces base (text ++ [ch])) :=
        reads_pieceChar notBel.symm notSt.symm skipped (getLast?_of_unclosed escape)
      rw [List.append_cons] at escape ⊢
      exact reads_cons first (ih bel' st' escape)

/-- The code has been dispatched in pieces that make up the text. -/
def Delivered (base : List Command) (text : Text) (s : ParseScreen) : Prop :=
  ∃ pieces last, OutOfCode (base ++ clipboardCalls pieces last) s ∧
    pieces.flatten ++ last = text

theorem reads_piecesStop {base : List Command} {text : Text} {ch : UInt32}
    (stop : ch = Ctl.ST ∨ ch = Ctl.BEL) :
    Reads latin1 (InPieces base text) [ch] (Delivered base text) := by
  rintro s bytes ⟨pieces, current, hs, flat, -⟩
  apply (reads_stop stop (oscParts_clipboard _) (.inl rfl)).strengthen _ s bytes hs
  intro t ht
  refine ⟨pieces, current, ?_, flat⟩
  rw [List.append_assoc] at ht
  exact ht

/-- The terminator ends the last piece; its ESC, which may have started a piece, is taken back. -/
theorem reads_piecesEnd {base : List Command} {text stop : Text} (ends : OscEnds stop) :
    Reads latin1 (InPieces base text) stop (Delivered base text) := by
  rcases ends with rfl | rfl | rfl
  · exact reads_piecesStop (.inr rfl)
  · exact reads_piecesStop (.inl rfl)
  · have escaped : Reads latin1 (InPieces base text) [Ctl.ESC]
        (InPieces base (text ++ [Ctl.ESC])) :=
      reads_pieceChar (by decide) (by decide) (by decide) fun h => absurd h (by decide)
    apply reads_cons escaped
    rintro s bytes ⟨pieces, current, hs, flat, started⟩
    rcases List.eq_nil_or_concat current with rfl | ⟨front, last, rfl⟩
    · rw [started rfl] at flat
      simp at flat
    · rw [List.concat_eq_append, ← List.append_assoc] at flat
      obtain ⟨flat', closes⟩ := List.append_inj' flat rfl
      obtain rfl : last = Ctl.ESC := by simpa using closes
      rw [List.concat_eq_append, ← List.append_assoc, ← List.append_assoc] at hs
      apply (reads_backslash (oscParts_clipboard _) (.inl rfl)).strengthen _ s bytes hs
      intro t ht
      refine ⟨pieces, front, ?_, flat'⟩
      rw [List.append_assoc] at ht
      exact ht

/-! ### Whole codes -/

/-- An OSC 52 code, read as a text. -/
theorem reads_clipboard {start payload stop : Text} (starts : OscStarts start) (ends : OscEnds stop)
    (unclosed : Unclosed payload) :
    Reads latin1 (OutOfCode log) (start ++ chars "52;" ++ payload ++ stop)
      (Delivered log (oscText payload)) := by
  have number : Reads latin1 (InOsc [] log) (chars "52;") (InPieces log []) := by
    have kept : oscText (chars "52;") = chars "52;" := by decide
    apply (reads_unsplit (by decide) (by decide) (by decide) (by decide)).strengthen
    intro s hs
    rw [kept] at hs
    refine ⟨[], [], ?_, rfl, fun _ => rfl⟩
    simpa [partialCalls, piecePrefix] using hs
  have body : Reads latin1 (InPieces log []) payload (InPieces log (oscText payload)) :=
    reads_pieces unclosed.bel unclosed.st unclosed.escape
  exact reads_append (reads_append (reads_append (reads_start starts) number) body)
    (reads_piecesEnd ends)

/-- An OSC 5522 code that fits the buffer, read as a text. -/
theorem reads_extendedClipboard {start payload stop : Text} (starts : OscStarts start)
    (ends : OscEnds stop) (unclosed : Unclosed payload)
    (room : (chars "5522;" ++ oscText payload ++ stop.dropLast).length ≤ parserBufSz - 1) :
    Reads latin1 (OutOfCode log) (start ++ chars "5522;" ++ payload ++ stop)
      (OutOfCode (log ++ [.clipboardControl 5522 (oscText payload)])) := by
  have number : Reads latin1 (InOsc [] log) (chars "5522;") (InOsc (chars "5522;") log) :=
    reads_unsplit (by decide) (by decide) (by decide) (by decide)
  have body : Reads latin1 (InOsc (chars "5522;") log) payload
      (InOsc (chars "5522;" ++ oscText payload) log) := by
    have separated : ¬ [Ctl.ESC, ord '\\'] <:+: chars "5522;" ++ oscText payload :=
      unclosed_append (by decide) unclosed.escape
    apply reads_unsplit unclosed.bel unclosed.st separated
    rw [List.length_append] at room
    omega
  exact reads_append (reads_append (reads_append (reads_start starts) number) body)
    (reads_unsplitEnd ends (oscParts_extendedClipboard _) (.inr rfl) room)

/-- An OSC 52 code of any length, in any chunks: the texts of the calls make up the payload without
its NUL and DEL characters, the last call is marked as final and all others as partial.  An OSC 5522
code that fits the buffer is one call with that text. -/
theorem feed_clipboard {s : ParseScreen} (ground : s.Ground) {chunks : List (Bytes × Nat)}
    {start payload stop : Text} (starts : OscStarts start) (ends : OscEnds stop)
    (unclosed : Unclosed payload) :
    (Spells s.decoder.useLatin1 (chunks.map Prod.fst).flatten
        (start ++ chars "52;" ++ payload ++ stop) →
      ∃ t pieces last, feed s chunks = some (.ok t) ∧ t.parserState = .normal ∧
        t.dispatched = s.dispatched ++ clipboardCalls pieces last ∧
        pieces.flatten ++ last = oscText payload) ∧
    (Spells s.decoder.useLatin1 (chunks.map Prod.fst).flatten
        (start ++ chars "5522;" ++ payload ++ stop) →
      (chars "5522;" ++ oscText payload ++ stop.dropLast).length ≤ parserBufSz - 1 →
      ∃ t, feed s chunks = some (.ok t) ∧ t.parserState = .normal ∧
        t.dispatched = s.dispatched ++ [.clipboardControl 5522 (oscText payload)]) := by
  have outside : OutOfCode s.dispatched s := ⟨ground.normal, rfl⟩
  constructor
  · intro spelled
    have silent : ∀ t, Delivered s.dispatched (oscText payload) t →
        ¬ Activated s.dispatched.length t := by
      rintro t ⟨pieces, last, ht, -⟩
      exact (clipboardCalls_clipboardOnly pieces last).silent ht.logged
    obtain ⟨t, fed, pieces, last, ht, flat⟩ :=
      feed_reads ground spelled outside (reads_clipboard starts ends unclosed) silent
    exact ⟨t, pieces, last, fed, ht.state, ht.logged, flat⟩
  · intro spelled room
    have silent : ∀ t, OutOfCode (s.dispatched ++ [.clipboardControl 5522 (oscText payload)]) t →
        ¬ Activated s.dispatched.length t := by
      intro t ht
      exact ClipboardOnly.silent (List.forall_mem_singleton.2 ⟨_, _, rfl⟩) ht.logged
    obtain ⟨t, fed, ht⟩ :=
      feed_reads ground spelled outside (reads_extendedClipboard starts ends unclosed room) silent
    exact ⟨t, fed, ht.state, ht.logged⟩

/-- Two chunks that cut a character of the payload. -/
theorem feed_clipboard_chunks :
    ∃ t pieces last, feed {} [([0x1b, 0x5d, 0x35, 0x32, 0x3b, 0x63, 0x3b, 0xc3], 0),
        ([0xa9, 0x1b, 0x5c], 7)] = some (.ok t) ∧ t.parserState = .normal ∧
      t.dispatched = [] ++ clipboardCalls pieces last ∧
      pieces.flatten ++ last = oscText (chars "c;é") := by
  have spelled : Spells false [0x1b, 0x5d, 0x35, 0x32, 0x3b, 0x63, 0x3b, 0xc3, 0xa9, 0x1b, 0x5c]
      ([Ctl.ESC, ord ']'] ++ chars "52;" ++ chars "c;é" ++ [Ctl.ESC, ord '\\']) :=
    spells_utf8 "\x1b]52;c;é\x1b\\".toList
  exact (feed_clipboard newScreen_ground (.inl rfl) (.inr (.inr rfl))
    ⟨by decide, by decide, by decide⟩).1 spelled

/-- An OSC 5522 code that does not fit is dispatched with what the buffer holds, and the character
that does not fit is dropped. -/
theorem reads_truncated {text : Text} {ch : UInt32} (stored : Stored (chars "5522;" ++ text) ch)
    (full : parserBufSz - 1 ≤ (chars "5522;" ++ text).length) :
    Reads latin1 (InOsc (chars "5522;" ++ text) log) [ch]
      (OutOfCode (log ++ [.clipboardControl 5522 text])) := by
  apply reads_oscChar
  intro s hs
  obtain ⟨t, dispatched, ht, kept⟩ := hs.dispatch (oscParts_extendedClipboard text) (.inr rfl)
  refine ⟨t, ?_, ht, kept⟩
  obtain ⟨beyond, heq⟩ := hs.front
  have other : handleExtendedOscCode s = some (s, false) := by
    have buf : s.parserBuf = ord '5' :: ord '5' :: (chars "22;" ++ text ++ beyond) := heq.symm
    have different : ¬ ord '5' = ord '2' := by decide
    simp [handleExtendedOscCode, ParseScreen.read, buf, different]
  unfold dispatchOscChar
  rw [hs.accumulate stored, if_pos full, other]
  simpa using dispatched

theorem reads_bell : Reads latin1 (OutOfCode log) [Ctl.BEL] (OutOfCode (log ++ [.bell])) := by
  apply reads_char
  intro s d hs _
  refine ⟨({ s with decoder := d } : ParseScreen).emit .bell, ?_, ⟨hs.state, ?_⟩, rfl⟩
  · simp only [hs.state]
    rfl
  · rw [← hs.logged]
    rfl

/-- As many characters as the buffer holds behind the number 5522. -/
def held : Text := List.replicate 8186 (ord 'a')

theorem not_mem_held {ch : UInt32} (other : ch ≠ ord 'a') : ch ∉ held :=
  fun mem => other (List.eq_of_mem_replicate mem)

theorem oscText_held : oscText held = held :=
  List.filter_eq_self.2 fun ch mem => by
    rw [List.eq_of_mem_replicate mem]
    decide

/-- An OSC 5522 code with one character more than the buffer holds. -/
def overlongClipboard : List Char :=
  "\x1b]5522;".toList ++ List.replicate 8186 'a' ++ ['a'] ++ ['\x07']

theorem overlongClipboard_text : overlongClipboard.map Char.val =
    [Ctl.ESC, ord ']'] ++ chars "5522;" ++ held ++ [ord 'a'] ++ [Ctl.BEL] := by
  unfold overlongClipboard held
  simp only [List.map_append, List.map_replicate]
  rfl

theorem reads_overlong : Reads false (OutOfCode [])
    ([Ctl.ESC, ord ']'] ++ chars "5522;" ++ held ++ [ord 'a'] ++ [Ctl.BEL])
    (OutOfCode [.clipboardControl 5522 held, .bell]) := by
  have length : (chars "5522;" ++ held).length = parserBufSz - 1 := by
    rw [held, List.length_append, List.length_replicate]
    rfl
  have number : Reads false (InOsc [] []) (chars "5522;") (InOsc (chars "5522;") []) :=
    reads_unsplit (by decide) (by decide) (by decide) (by decide)
  have escape : ¬ [Ctl.ESC, ord '\\'] <:+: chars "5522;" ++ oscText held := by
    apply unclosed_append (by decide)
    rw [oscText_held]
    exact fun inside => not_mem_held (by decide) (inside.subset (List.mem_cons_self ..))
  have body : Reads false (InOsc (chars "5522;") []) held
      (InOsc (chars "5522;" ++ oscText held) []) := by
    apply reads_unsplit (not_mem_held (by decide)) (not_mem_held (by decide)) escape
    rw [oscText_held]
    exact Nat.le_of_eq length
  rw [oscText_held] at body
  have stored : Stored (chars "5522;" ++ held) (ord 'a') :=
    ⟨by decide, by decide, by decide, by decide, fun h => absurd h (by decide)⟩
  exact reads_append (reads_append (reads_append (reads_append (reads_start (.inl rfl)) number)
    body) (reads_truncated stored (Nat.le_of_eq length.symm))) reads_bell

/-- A DEL is in no piece, and the end of an OSC 5522 code that does not fit the buffer is in no
call. -/
theorem feed_clipboard_drops :
    (∃ t, feed {} [(Utf8.utf8 "\x1b]52;a\x7fb\x07".toList, 0)] = some (.ok t) ∧
      ∀ pieces last, t.dispatched = clipboardCalls pieces last →
        pieces.flatten ++ last ≠ chars "a\x7fb") ∧
    ∃ t, feed {} [(Utf8.utf8 overlongClipboard, 0)] = some (.ok t) ∧
      t.dispatched = [.clipboardControl 5522 held, .bell] := by
  constructor
  · obtain ⟨t, fed, logged⟩ :
        ∃ t, feed {} [(Utf8.utf8 "\x1b]52;a\x7fb\x07".toList, 0)] = some (.ok t) ∧
          t.dispatched = [.clipboardControl 52 (chars "ab")] := ⟨_, rfl, rfl⟩
    refine ⟨t, fed, fun pieces last calls => ?_⟩
    rw [logged] at calls
    cases pieces with
    | nil =>
      obtain rfl : chars "ab" = last := by
        simpa [clipboardCalls, partialCalls, piecePrefix] using calls
      decide
    | cons piece rest =>
      have count := congrArg List.length calls
      simp [clipboardCalls, partialCalls] at count
  · have spelled := spells_utf8 overlongClipboard
    rw [overlongClipboard_text] at spelled
    have silent : ∀ t, OutOfCode [.clipboardControl 5522 held, .bell] t → ¬ Activated 0 t := by
      rintro t ht ⟨c, mem, activates⟩
      rw [ht.logged] at mem
      simp only [List.drop_zero, List.mem_cons, List.not_mem_nil, or_false] at mem
      rcases mem with rfl | rfl
      · cases activates
      · cases activates
    have bytes : ([(Utf8.utf8 overlongClipboard, 0)].map Prod.fst).flatten =
        Utf8.utf8 overlongClipboard := List.append_nil _
    rw [← bytes] at spelled
    obtain ⟨t, fed, ht⟩ := feed_reads newScreen_ground spelled ⟨rfl, rfl⟩ reads_overlong silent
    exact ⟨t, fed, ht.logged⟩

end Smelly
