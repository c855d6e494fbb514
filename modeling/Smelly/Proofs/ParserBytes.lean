/-
Module: Smelly.Proofs.ParserBytes
Purpose: The decoding loop as a loop over bytes: its local variable `prev` and its second reading
  of a byte depend on nothing but the fields of the screen, so that splitting the input splits
  the loop.
Trusted boundary: none
-/
import Smelly.Lib.Consume
import Smelly.Proofs.ParserFrames

namespace Smelly

open ParseScreen Consume

/-! ### The decoder between two characters -/

/-- The decoder is not inside a UTF-8 character. -/
def Decoder.Whole (d : Decoder) : Prop := d.useLatin1 = false → d.utf8State = utf8Accept

/-- The decoders saved with the cursor are not inside a character. -/
structure ParseScreen.SavedWhole (p : ParseScreen) : Prop where
  main : ∀ d, p.mainSavepoint = some d → d.Whole
  alt : ∀ d, p.altSavepoint = some d → d.Whole

/-- Neither the decoder is inside a character, nor one that was saved. -/
structure ParseScreen.AtRest (p : ParseScreen) : Prop extends p.SavedWhole where
  current : p.decoder.Whole

theorem newScreen_savedWhole : ({} : ParseScreen).SavedWhole := ⟨by simp, by simp⟩

theorem decoder_whole : ({} : Decoder).Whole := fun _ => rfl

theorem saveCursor_atRest {s : ParseScreen} (h : s.AtRest) : s.saveCursor.AtRest := by
  have saved : ∀ d, some s.decoder = some d → d.Whole := fun d hd => Option.some.inj hd ▸ h.current
  unfold saveCursor
  split
  · exact ⟨⟨h.main, saved⟩, h.current⟩
  · exact ⟨⟨saved, h.alt⟩, h.current⟩

theorem savepoint_whole {savepoint : Option Decoder} (h : ∀ d, savepoint = some d → d.Whole) :
    (savepoint.getD {}).Whole := by
  cases savepoint with
  | none => exact decoder_whole
  | some d => exact h d rfl

theorem restoreCursor_atRest {s : ParseScreen} (h : s.AtRest) : s.restoreCursor.AtRest := by
  refine ⟨⟨h.main, h.alt⟩, ?_⟩
  unfold restoreCursor
  split
  · exact savepoint_whole h.alt
  · exact savepoint_whole h.main

theorem toggleScreenBuffer_atRest {s : ParseScreen} (h : s.AtRest) (save : Bool) :
    (s.toggleScreenBuffer save).AtRest := by
  have onMain : ParseScreen.AtRest { s with onAlt := false } := ⟨⟨h.main, h.alt⟩, h.current⟩
  unfold toggleScreenBuffer
  split
  · split
    · exact restoreCursor_atRest onMain
    · exact onMain
  · split
    · have saved := saveCursor_atRest h
      exact ⟨⟨saved.main, saved.alt⟩, saved.current⟩
    · exact ⟨⟨h.main, h.alt⟩, h.current⟩

theorem setModeFromConst_atRest {s : ParseScreen} (h : s.AtRest) (mode : Nat) (val : Bool) :
    (s.setModeFromConst mode val).AtRest := by
  unfold setModeFromConst
  split
  · exact saveCursor_atRest h
  · split
    · split
      · exact toggleScreenBuffer_atRest h _
      · exact h
    · split
      · split <;> exact ⟨⟨h.main, h.alt⟩, h.current⟩
      · exact h

theorem perform_atRest {s : ParseScreen} (h : s.AtRest) (command : Command) :
    (s.perform command).AtRest := by
  unfold perform
  split
  · exact ⟨⟨h.main, h.alt⟩, fun _ => rfl⟩
  · exact saveCursor_atRest h
  · exact restoreCursor_atRest h
  · exact ⟨⟨by simp [reset], by simp [reset]⟩, decoder_whole⟩
  · exact setModeFromConst_atRest h _ _
  · exact setModeFromConst_atRest h _ _
  · exact ⟨⟨h.main, h.alt⟩, h.current⟩
  · exact h

/-- No handler can leave the decoder inside a character. -/
theorem atRest_frame : PendingFrame ParseScreen.AtRest where
  parser _ _ _ h := ⟨⟨h.main, h.alt⟩, h.current⟩
  emit {s} command h := by
    have logged : ParseScreen.AtRest { s with dispatched := s.dispatched ++ [command] } :=
      ⟨⟨h.main, h.alt⟩, h.current⟩
    exact perform_atRest logged command
  pending _ _ h := ⟨⟨h.main, h.alt⟩, h.current⟩

/-! ### Reading one byte -/

/-- One byte of `decode_loop`, with the second reading of a byte that was rejected inside a
character: the new value of `prev`, and whether the loop is left. -/
def readFrom (h : Handlers) (prev : Nat) (s : ParseScreen) (ch : UInt8) :
    Except ParseScreen (ParseScreen × Nat × Bool) :=
  match decodeRound h prev s ch with
  | none => .error s
  | some (s, prev, .advance) => .ok (s, prev, false)
  | some (s, prev, .stop) => .ok (s, prev, true)
  | some (s, prev, .again) =>
    match decodeRound h prev s ch with
    | none => .error s
    | some (s, prev, .stop) => .ok (s, prev, true)
    | some (s, prev, _) => .ok (s, prev, false)

/-- One byte of `decode_loop` with `prev` equal to `utf8_state`. -/
def readByte (h : Handlers) (s : ParseScreen) (ch : UInt8) :
    Except ParseScreen (ParseScreen × Bool) :=
  (readFrom h s.decoder.utf8State s ch).map fun result => (result.1, result.2.2)

theorem decodeLoop_cons (h : Handlers) (prev : Nat) (s : ParseScreen) (ch : UInt8)
    (rest : Bytes) :
    decodeLoop h prev s (ch :: rest) =
      match readFrom h prev s ch with
      | .error s => .error s
      | .ok (s, _, true) => .ok (s, rest)
      | .ok (s, prev, false) => decodeLoop h prev s rest := by
  rw [decodeLoop, readFrom]
  cases decodeRound h prev s ch with
  | none => rfl
  | some result =>
    obtain ⟨s, prev, next⟩ := result
    cases next with
    | advance => rfl
    | stop => rfl
    | again =>
      dsimp only
      cases decodeRound h prev s ch with
      | none => rfl
      | some result =>
        obtain ⟨s, prev, next⟩ := result
        cases next <;> rfl

/-- The values of `prev` that make no difference. -/
def PrevOk (prev : Nat) (s : ParseScreen) : Prop :=
  s.decoder.useLatin1 = false →
    prev = s.decoder.utf8State ∨ s.decoder.utf8State = utf8Accept

theorem PrevOk.self (s : ParseScreen) : PrevOk s.decoder.utf8State s := fun _ => Or.inl rfl

theorem PrevOk.of_whole {prev : Nat} {s : ParseScreen} (h : s.decoder.Whole) : PrevOk prev s :=
  fun utf8 => Or.inr (h utf8)

/-- The screen with the result of decoding one byte. -/
def decoded (s : ParseScreen) (ch : UInt8) : ParseScreen :=
  let (state, codep) := decodeUtf8 s.decoder.utf8State s.decoder.utf8Codepoint ch
  { s with decoder := { s.decoder with utf8State := state, utf8Codepoint := codep } }

/-- The screen after a rejected byte. -/
def rejected (s : ParseScreen) (ch : UInt8) : ParseScreen :=
  { s with decoder :=
    { s.decoder with
      utf8State := utf8Accept
      utf8Codepoint := (decodeUtf8 s.decoder.utf8State s.decoder.utf8Codepoint ch).2 } }

theorem decodeRound_latin1 {h : Handlers} {s : ParseScreen} (latin1 : s.decoder.useLatin1 = true)
    (prev : Nat) (ch : UInt8) :
    decodeRound h prev s ch = (dispatchUnicodeChar h s (latin1Charset ch)).map fun result =>
      (result.1, prev, if result.2 then .stop else .advance) := by
  unfold decodeRound
  rw [if_pos latin1]
  cases dispatchUnicodeChar h s (latin1Charset ch) <;> rfl

theorem decodeRound_accept {h : Handlers} {s : ParseScreen} (utf8 : s.decoder.useLatin1 = false)
    (prev : Nat) {ch : UInt8} (hstate : (decoded s ch).decoder.utf8State = utf8Accept) :
    decodeRound h prev s ch =
      (dispatchUnicodeChar h (decoded s ch) (decoded s ch).decoder.utf8Codepoint).map fun result =>
        (result.1, result.1.decoder.utf8State, if result.2 then .stop else .advance) := by
  unfold decodeRound
  rw [if_neg (by simp [utf8])]
  simp only [decoded] at hstate ⊢
  rw [if_pos hstate]
  cases dispatchUnicodeChar h _ _ <;> rfl

theorem decodeRound_reject {h : Handlers} {s : ParseScreen} (utf8 : s.decoder.useLatin1 = false)
    (prev : Nat) {ch : UInt8} (hstate : (decoded s ch).decoder.utf8State = utf8Reject) :
    decodeRound h prev s ch = some (rejected s ch, utf8Accept,
      if prev ≠ utf8Accept then .again else .advance) := by
  unfold decodeRound
  rw [if_neg (by simp [utf8])]
  simp only [decoded] at hstate ⊢
  rw [if_neg (by rw [hstate]; decide), if_pos hstate]
  rfl

theorem decodeRound_inside {h : Handlers} {s : ParseScreen} (utf8 : s.decoder.useLatin1 = false)
    (prev : Nat) {ch : UInt8} (notAccept : (decoded s ch).decoder.utf8State ≠ utf8Accept)
    (notReject : (decoded s ch).decoder.utf8State ≠ utf8Reject) :
    decodeRound h prev s ch =
      some (decoded s ch, (decoded s ch).decoder.utf8State, .advance) := by
  unfold decodeRound
  rw [if_neg (by simp [utf8])]
  simp only [decoded] at notAccept notReject ⊢
  rw [if_neg notAccept, if_neg notReject]

theorem decoded_atRest {s : ParseScreen} (h : s.SavedWhole) {ch : UInt8}
    (accept : (decoded s ch).decoder.utf8State = utf8Accept) : (decoded s ch).AtRest :=
  ⟨⟨h.main, h.alt⟩, fun _ => accept⟩

theorem rejected_atRest {s : ParseScreen} (h : s.SavedWhole) (ch : UInt8) : (rejected s ch).AtRest :=
  ⟨⟨h.main, h.alt⟩, fun _ => rfl⟩

/-- After a round `prev` is as good as `utf8_state`. -/
theorem decodeRound_saved {h : Handlers} (keeps : h.Keeps ParseScreen.AtRest) {s t : ParseScreen}
    (saved : s.SavedWhole) {prev prev' : Nat} {ch : UInt8} {next : NextByte}
    (hround : decodeRound h prev s ch = some (t, prev', next)) : t.SavedWhole ∧ PrevOk prev' t := by
  cases latin1 : s.decoder.useLatin1 with
  | true =>
    rw [decodeRound_latin1 latin1] at hround
    obtain ⟨⟨t', stop⟩, hdispatch, heq⟩ := Option.map_eq_some_iff.1 hround
    obtain ⟨rfl, -⟩ := Prod.mk.inj heq
    have atRest : s.AtRest := ⟨saved, fun utf8 => by simp [latin1] at utf8⟩
    have kept := dispatchUnicodeChar_keeps keeps atRest_frame.toCallFrame atRest hdispatch
    exact ⟨kept.toSavedWhole, PrevOk.of_whole kept.current⟩
  | false =>
    by_cases accept : (decoded s ch).decoder.utf8State = utf8Accept
    · rw [decodeRound_accept latin1 prev accept] at hround
      obtain ⟨⟨t', stop⟩, hdispatch, heq⟩ := Option.map_eq_some_iff.1 hround
      obtain ⟨rfl, -⟩ := Prod.mk.inj heq
      have atRest := decoded_atRest saved accept
      have kept := dispatchUnicodeChar_keeps keeps atRest_frame.toCallFrame atRest hdispatch
      exact ⟨kept.toSavedWhole, PrevOk.of_whole kept.current⟩
    · by_cases reject : (decoded s ch).decoder.utf8State = utf8Reject
      · rw [decodeRound_reject latin1 prev reject] at hround
        obtain ⟨rfl, -⟩ := Prod.mk.inj (Option.some.inj hround)
        have atRest := rejected_atRest saved ch
        exact ⟨atRest.toSavedWhole, PrevOk.of_whole atRest.current⟩
      · rw [decodeRound_inside latin1 prev accept reject] at hround
        obtain ⟨rfl, heq⟩ := Prod.mk.inj (Option.some.inj hround)
        obtain ⟨rfl, -⟩ := Prod.mk.inj heq
        exact ⟨⟨saved.main, saved.alt⟩, PrevOk.self _⟩

theorem readFrom_saved {h : Handlers} (keeps : h.Keeps ParseScreen.AtRest) {s t : ParseScreen}
    (saved : s.SavedWhole) {prev prev' : Nat} {ch : UInt8} {stop : Bool}
    (hread : readFrom h prev s ch = .ok (t, prev', stop)) : t.SavedWhole ∧ PrevOk prev' t := by
  unfold readFrom at hread
  split at hread
  · cases hread
  · rename_i hround
    cases hread
    exact decodeRound_saved keeps saved hround
  · rename_i hround
    cases hread
    exact decodeRound_saved keeps saved hround
  · rename_i hround
    have again := decodeRound_saved keeps saved hround
    split at hread
    · cases hread
    · rename_i hround
      cases hread
      exact decodeRound_saved keeps again.1 hround
    · rename_i hround
      cases hread
      exact decodeRound_saved keeps again.1 hround

/-- A byte rejected between two characters is rejected again, with the same result. -/
theorem rejected_again {s : ParseScreen} (accept : s.decoder.utf8State = utf8Accept) (ch : UInt8)
    (hstate : (decoded s ch).decoder.utf8State = utf8Reject) :
    (decoded (rejected s ch) ch).decoder.utf8State = utf8Reject ∧
      rejected (rejected s ch) ch = rejected s ch := by
  simp only [decoded, rejected, accept, decodeUtf8] at hstate ⊢
  exact ⟨by simpa using hstate, by simp⟩

/-- `prev` does not matter between two characters. -/
theorem readFrom_accept {h : Handlers} {s : ParseScreen} (utf8 : s.decoder.useLatin1 = false)
    (accept : s.decoder.utf8State = utf8Accept) (prev : Nat) (ch : UInt8) :
    (readFrom h prev s ch).map (fun result => (result.1, result.2.2)) = readByte h s ch := by
  unfold readByte readFrom
  by_cases hstate : (decoded s ch).decoder.utf8State = utf8Accept
  · rw [decodeRound_accept utf8 prev hstate, decodeRound_accept utf8 _ hstate]
  · by_cases reject : (decoded s ch).decoder.utf8State = utf8Reject
    · -- the second reading rejects the byte as the first one does
      obtain ⟨reject', same⟩ := rejected_again accept ch reject
      have utf8' : (rejected s ch).decoder.useLatin1 = false := utf8
      have second := decodeRound_reject (h := h) utf8' utf8Accept reject'
      rw [same] at second
      rw [decodeRound_reject utf8 prev reject, decodeRound_reject utf8 _ reject, accept]
      by_cases hprev : prev = utf8Accept
      · simp [hprev]
      · simp [hprev, second]
    · rw [decodeRound_inside utf8 prev hstate reject, decodeRound_inside utf8 _ hstate reject]

/-- In Latin-1 mode `prev` is carried along. -/
theorem readFrom_latin1 {h : Handlers} {s : ParseScreen} (latin1 : s.decoder.useLatin1 = true)
    (prev : Nat) (ch : UInt8) :
    (readFrom h prev s ch).map (fun result => (result.1, result.2.2)) = readByte h s ch := by
  unfold readByte readFrom
  rw [decodeRound_latin1 latin1, decodeRound_latin1 latin1]
  cases dispatchUnicodeChar h s (latin1Charset ch) with
  | none => rfl
  | some result =>
    obtain ⟨t, stop⟩ := result
    cases stop <;> rfl

theorem readFrom_eq_readByte {h : Handlers} {s : ParseScreen} {prev : Nat} (hprev : PrevOk prev s)
    (ch : UInt8) :
    (readFrom h prev s ch).map (fun result => (result.1, result.2.2)) = readByte h s ch := by
  cases latin1 : s.decoder.useLatin1 with
  | true => exact readFrom_latin1 latin1 prev ch
  | false =>
    cases hprev latin1 with
    | inl same => rw [same]; rfl
    | inr accept => exact readFrom_accept latin1 accept prev ch

/-- The decoding loop reads one byte after the other, each with what the screen holds. -/
theorem decodeLoop_eq_consume {h : Handlers} (keeps : h.Keeps ParseScreen.AtRest)
    {s : ParseScreen} (saved : s.SavedWhole) {prev : Nat} (hprev : PrevOk prev s) (bytes : Bytes) :
    decodeLoop h prev s bytes = consume (readByte h) s bytes := by
  induction bytes generalizing s prev with
  | nil => rfl
  | cons ch rest ih =>
    rw [decodeLoop_cons, consume_cons, ← readFrom_eq_readByte hprev]
    cases hread : readFrom h prev s ch with
    | error t => rfl
    | ok result =>
      obtain ⟨t, prev', stop⟩ := result
      obtain ⟨saved', hprev'⟩ := readFrom_saved keeps saved hread
      cases stop with
      | true => rfl
      | false => exact ih saved' hprev'

end Smelly
