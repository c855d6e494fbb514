/-
Module: Smelly.Proofs.ParserChunks
Purpose: Without pending mode the driver does not see how its input is cut into chunks.
Trusted boundary: none
-/
import Smelly.Proofs.ParserBytes
import Smelly.Proofs.ParserDriver

namespace Smelly

open ParseScreen Consume

/-! ### Leaving the loop early -/

/-- The handlers that never leave the loop. -/
def Handlers.unwatched (h : Handlers) : Handlers := { h with watch := fun _ => false }

theorem dispatchCsiChar_unwatched (h : Handlers) (s : ParseScreen) (ch : UInt32) :
    dispatchCsiChar h.unwatched s ch =
      (dispatchCsiChar h s ch).map fun result => (result.1, false) := by
  unfold dispatchCsiChar
  cases accumulateCsi s ch with
  | none => rfl
  | some result =>
    obtain ⟨t, done⟩ := result
    cases done with
    | false => rfl
    | true =>
      change (dispatchString h.csi t >>= fun s => some (s, false)) = _
      cases hd : dispatchString h.csi t with
      | none => simp [hd]
      | some u => simp [hd]

theorem dispatchDcsChar_unwatched (h : Handlers) (s : ParseScreen) (ch : UInt32) :
    dispatchDcsChar h.unwatched s ch =
      (dispatchDcsChar h s ch).map fun result => (result.1, false) := by
  unfold dispatchDcsChar
  cases accumulateDcs s ch with
  | none => rfl
  | some result =>
    obtain ⟨t, done⟩ := result
    cases done with
    | true =>
      change (dispatchString h.dcs t >>= fun s => some (s, false)) = _
      cases hd : dispatchString h.dcs t with
      | none => simp [hd]
      | some u => simp [hd]
    | false =>
      by_cases escaped : t.parserState = .esc
      · change (if t.parserState = .esc then h.esc t ch >>= fun s => some (s, false)
          else some (t, false)) = _
        cases he : h.esc t ch with
        | none => simp [escaped, he]
        | some u => simp [escaped, he]
      · simp [escaped]

theorem dispatchUnicodeChar_unwatched (h : Handlers) (s : ParseScreen) (ch : UInt32) :
    dispatchUnicodeChar h.unwatched s ch =
      (dispatchUnicodeChar h s ch).map fun result => (result.1, false) := by
  have other : ∀ handled : Option ParseScreen,
      handled.map (·, false) =
        (handled.map (·, false)).map fun result : ParseScreen × Bool => (result.1, false) := by
    intro handled
    cases handled <;> rfl
  unfold dispatchUnicodeChar
  cases s.parserState with
  | normal => rfl
  | esc => exact other _
  | csi => exact dispatchCsiChar_unwatched h s ch
  | osc => exact other _
  | dcs => exact dispatchDcsChar_unwatched h s ch
  | apc => exact other _
  | pm => exact other _

/-- The loop is left only when the handlers ask for it. -/
theorem dispatchUnicodeChar_watch {h : Handlers} {s t : ParseScreen} {ch : UInt32}
    (hd : dispatchUnicodeChar h s ch = some (t, true)) : h.watch t = true := by
  have other : ∀ handled : Option ParseScreen, handled.map (·, false) ≠ some (t, true) := by
    intro handled heq
    cases handled <;> simp at heq
  unfold dispatchUnicodeChar at hd
  cases state : s.parserState with
  | normal => rw [state] at hd; simp at hd
  | esc => rw [state] at hd; exact absurd hd (other _)
  | osc => rw [state] at hd; exact absurd hd (other _)
  | apc => rw [state] at hd; exact absurd hd (other _)
  | pm => rw [state] at hd; exact absurd hd (other _)
  | csi =>
    rw [state] at hd
    obtain ⟨⟨s1, done⟩, -, rest⟩ := Option.bind_eq_some_iff.1 hd
    cases done with
    | false => simp at rest
    | true =>
      obtain ⟨s2, -, rest⟩ := Option.bind_eq_some_iff.1 rest
      obtain ⟨rfl, stop⟩ := Prod.mk.inj (Option.some.inj rest)
      exact stop
  | dcs =>
    rw [state] at hd
    obtain ⟨⟨s1, done⟩, -, rest⟩ := Option.bind_eq_some_iff.1 hd
    cases done with
    | true =>
      obtain ⟨s2, -, rest⟩ := Option.bind_eq_some_iff.1 rest
      obtain ⟨rfl, stop⟩ := Prod.mk.inj (Option.some.inj rest)
      exact stop
    | false =>
      dsimp only at rest
      rw [if_neg (by decide)] at rest
      split at rest
      · obtain ⟨s2, -, rest⟩ := Option.bind_eq_some_iff.1 rest
        simp at rest
      · simp at rest

/-- `i--` happens whether the loop can be left or not. -/
def NextByte.unwatched : NextByte → NextByte
  | .again => .again
  | _ => .advance

theorem decodeRound_unwatched (h : Handlers) (prev : Nat) (s : ParseScreen) (ch : UInt8) :
    decodeRound h.unwatched prev s ch =
      (decodeRound h prev s ch).map fun result => (result.1, result.2.1, result.2.2.unwatched) := by
  cases latin1 : s.decoder.useLatin1 with
  | true =>
    rw [decodeRound_latin1 latin1, decodeRound_latin1 latin1, dispatchUnicodeChar_unwatched]
    cases dispatchUnicodeChar h s (latin1Charset ch) with
    | none => rfl
    | some result => obtain ⟨t, stop⟩ := result; cases stop <;> rfl
  | false =>
    by_cases accept : (decoded s ch).decoder.utf8State = utf8Accept
    · rw [decodeRound_accept latin1 prev accept, decodeRound_accept latin1 prev accept,
        dispatchUnicodeChar_unwatched]
      cases dispatchUnicodeChar h (decoded s ch) (decoded s ch).decoder.utf8Codepoint with
      | none => rfl
      | some result => obtain ⟨t, stop⟩ := result; cases stop <;> rfl
    · by_cases reject : (decoded s ch).decoder.utf8State = utf8Reject
      · rw [decodeRound_reject latin1 prev reject, decodeRound_reject latin1 prev reject]
        by_cases hprev : prev = utf8Accept
        · simp [hprev, NextByte.unwatched]
        · simp [hprev, NextByte.unwatched]
      · rw [decodeRound_inside latin1 prev accept reject,
          decodeRound_inside latin1 prev accept reject]
        rfl

theorem readFrom_unwatched (h : Handlers) (prev : Nat) (s : ParseScreen) (ch : UInt8) :
    readFrom h.unwatched prev s ch =
      (readFrom h prev s ch).map fun result => (result.1, result.2.1, false) := by
  unfold readFrom
  rw [decodeRound_unwatched]
  cases decodeRound h prev s ch with
  | none => rfl
  | some result =>
    obtain ⟨t, prev', next⟩ := result
    cases next with
    | advance => rfl
    | stop => rfl
    | again =>
      dsimp only [Option.map_some, NextByte.unwatched]
      rw [decodeRound_unwatched]
      cases decodeRound h prev' t ch with
      | none => rfl
      | some result =>
        obtain ⟨u, prev'', next⟩ := result
        cases next <;> rfl

/-- Reading a byte is the same whether the loop can be left or not. -/
theorem readByte_unwatched (h : Handlers) (s : ParseScreen) (ch : UInt8) :
    readByte h.unwatched s ch = (readByte h s ch).map fun result => (result.1, false) := by
  unfold readByte
  rw [readFrom_unwatched]
  cases readFrom h s.decoder.utf8State s ch <;> rfl

theorem decodeRound_watch {h : Handlers} {prev prev' : Nat} {s t : ParseScreen} {ch : UInt8}
    (hround : decodeRound h prev s ch = some (t, prev', .stop)) : h.watch t = true := by
  have stopped : ∀ {u : ParseScreen} {c : UInt32} (final : ParseScreen × Bool → Nat),
      (dispatchUnicodeChar h u c).map (fun result =>
        (result.1, final result, if result.2 then NextByte.stop else .advance)) =
          some (t, prev', .stop) → h.watch t = true := by
    intro u c final heq
    obtain ⟨⟨v, stop⟩, hdispatch, heq⟩ := Option.map_eq_some_iff.1 heq
    cases stop with
    | false => simp at heq
    | true =>
      obtain ⟨rfl, -⟩ := Prod.mk.inj heq
      exact dispatchUnicodeChar_watch hdispatch
  cases latin1 : s.decoder.useLatin1 with
  | true =>
    rw [decodeRound_latin1 latin1] at hround
    exact stopped (fun _ => prev) hround
  | false =>
    by_cases accept : (decoded s ch).decoder.utf8State = utf8Accept
    · rw [decodeRound_accept latin1 prev accept] at hround
      exact stopped (fun result => result.1.decoder.utf8State) hround
    · by_cases reject : (decoded s ch).decoder.utf8State = utf8Reject
      · rw [decodeRound_reject latin1 prev reject] at hround
        by_cases hprev : prev = utf8Accept
        · simp [hprev] at hround
        · simp [hprev] at hround
      · rw [decodeRound_inside latin1 prev accept reject] at hround
        simp at hround

theorem readByte_watch {h : Handlers} {s t : ParseScreen} {ch : UInt8}
    (hread : readByte h s ch = .ok (t, true)) : h.watch t = true := by
  have stopped : ∀ {prev' : Nat}, readFrom h s.decoder.utf8State s ch = .ok (t, prev', true) →
      h.watch t = true := by
    intro prev' hread
    unfold readFrom at hread
    split at hread
    · cases hread
    · cases hread
    · rename_i hround
      cases hread
      exact decodeRound_watch hround
    · split at hread
      · cases hread
      · rename_i hround
        cases hread
        exact decodeRound_watch hround
      · cases hread
  unfold readByte at hread
  cases hfrom : readFrom h s.decoder.utf8State s ch with
  | error u => rw [hfrom] at hread; cases hread
  | ok result =>
    obtain ⟨u, prev', stop⟩ := result
    rw [hfrom] at hread
    obtain ⟨rfl, rfl⟩ := Prod.mk.inj (Except.ok.inj hread)
    exact stopped hfrom

/-! ### The log of the calls -/

/-- The calls that switch pending mode on. -/
def Command.activates : Command → Bool
  | .startPendingMode => true
  | .setMode mode => mode = PENDING_UPDATE
  | _ => false

/-- One of the calls behind the first `n` switches pending mode on. -/
def Activated (n : Nat) (s : ParseScreen) : Prop := ∃ c ∈ s.dispatched.drop n, c.activates

theorem setModeFromConst_dispatched (s : ParseScreen) (mode : Nat) (val : Bool) :
    (s.setModeFromConst mode val).dispatched = s.dispatched := by
  simp only [setModeFromConst, saveCursor, toggleScreenBuffer, restoreCursor, activatePending,
    deactivatePending]
  repeat' split
  all_goals rfl

/-- A call adds itself to the log. -/
theorem emit_dispatched (s : ParseScreen) (command : Command) :
    (s.emit command).dispatched = s.dispatched ++ [command] := by
  unfold emit perform
  split
  · rfl
  · simp only [saveCursor]; split <;> rfl
  · rfl
  · simp only [reset, toggleScreenBuffer, restoreCursor]
    repeat' split
    all_goals rfl
  · exact setModeFromConst_dispatched _ _ _
  · exact setModeFromConst_dispatched _ _ _
  · rfl
  · rfl

/-- The log only grows. -/
theorem log_frame (log : List Command) : LoopFrame fun s => log <+: s.dispatched where
  parser _ _ _ h := h
  emit command h := by
    rw [emit_dispatched]
    exact h.trans (List.prefix_append _ _)
  pending _ _ h := h
  decoder _ h := h

theorem Activated.mono {n : Nat} {s t : ParseScreen} (h : Activated n s)
    (log : s.dispatched <+: t.dispatched) : Activated n t := by
  obtain ⟨c, hc, activates⟩ := h
  obtain ⟨more, heq⟩ := log
  refine ⟨c, ?_, activates⟩
  rw [← heq, List.drop_append]
  exact List.mem_append_left _ hc

/-- What the calls can do to pending mode. -/
structure Watched (n : Nat) (s : ParseScreen) : Prop where
  logged : n ≤ s.dispatched.length
  active : s.pending.activatedAt = 0 ∨ Activated n s
  empty : s.pending.buf = []

theorem setModeFromConst_pending (s : ParseScreen) (mode : Nat) (val : Bool) :
    (s.setModeFromConst mode val).pending.buf = s.pending.buf ∧
      ((s.setModeFromConst mode val).pending.activatedAt = s.pending.activatedAt ∨
        (s.setModeFromConst mode val).pending.activatedAt = 0 ∨
        (val = true ∧ mode = PENDING_UPDATE)) := by
  unfold setModeFromConst
  split
  · simp only [saveCursor]; split <;> simp
  · split
    · simp only [toggleScreenBuffer, restoreCursor, saveCursor]
      repeat' split
      all_goals simp
    · split
      · rename_i hmode
        cases val with
        | true => simp [activatePending, hmode]
        | false => simp [deactivatePending]
      · simp

theorem perform_pending (s : ParseScreen) (command : Command) :
    (s.perform command).pending.buf = s.pending.buf ∧
      ((s.perform command).pending.activatedAt = s.pending.activatedAt ∨
        (s.perform command).pending.activatedAt = 0 ∨ command.activates = true) := by
  unfold perform
  split
  · simp [ParseScreen.useLatin1]
  · simp only [saveCursor]; split <;> simp
  · simp [restoreCursor]
  · simp only [reset, toggleScreenBuffer, restoreCursor]
    repeat' split
    all_goals simp
  · obtain ⟨empty, active⟩ := setModeFromConst_pending s ‹_› true
    refine ⟨empty, active.imp_right (Or.imp_right ?_)⟩
    rintro ⟨-, hmode⟩
    simp [Command.activates, hmode]
  · obtain ⟨empty, active⟩ := setModeFromConst_pending s ‹_› false
    refine ⟨empty, active.imp_right (Or.imp_right ?_)⟩
    rintro ⟨h, -⟩
    cases h
  · simp [activatePending, Command.activates]
  · simp

theorem watched_frame (n : Nat) : CallFrame (Watched n) where
  parser _ _ _ h := ⟨h.logged, h.active, h.empty⟩
  emit {s} command h := by
    obtain ⟨buf, activatedAt⟩ := perform_pending
      { s with dispatched := s.dispatched ++ [command] } command
    have log := emit_dispatched s command
    refine ⟨?_, ?_, buf.trans h.empty⟩
    · rw [log, List.length_append]
      exact Nat.le_add_right_of_le h.logged
    · have grown : s.dispatched <+: (s.emit command).dispatched := by
        rw [log]
        exact List.prefix_append _ _
      rcases activatedAt with same | inactive | activates
      · exact h.active.imp (fun inactive => same.trans inactive) fun active => active.mono grown
      · exact Or.inl inactive
      · right
        refine ⟨command, ?_, activates⟩
        rw [log, List.drop_append_of_le_length h.logged]
        exact List.mem_append_right _ (List.mem_singleton.2 rfl)

theorem watched_loop {n : Nat} {s : ParseScreen} (h : Watched n s) (bytes : Bytes) :
    EndsIn (Watched n) Prod.fst (parseBytesWatchingForPending s bytes) :=
  decodeLoop_keeps (dispatchHandlers_keeps (watched_frame n) _) (watched_frame n)
    (fun _ h => ⟨h.logged, h.active, h.empty⟩) h _ _

/-! ### Streams that leave pending mode alone -/

theorem parseBytes_eq_consume {s : ParseScreen} (saved : s.SavedWhole) (bytes : Bytes) :
    parseBytes s bytes = consume (readByte dispatchHandlers) s bytes :=
  decodeLoop_eq_consume (dispatchHandlers_keeps atRest_frame.toCallFrame _) saved (PrevOk.self s) bytes

/-- `_parse_bytes` takes all its bytes. -/
theorem parseBytes_rest {s t : ParseScreen} (saved : s.SavedWhole) {bytes rest : Bytes}
    (h : parseBytes s bytes = .ok (t, rest)) : rest = [] := by
  rw [parseBytes_eq_consume saved] at h
  refine (consume_left (fun _ => False) ?_ h).resolve_right id
  intro state input next hread
  have := readByte_watch hread
  cases this

theorem decodeLoop_savedWhole {h : Handlers} (keeps : h.Keeps ParseScreen.AtRest)
    {s : ParseScreen} (saved : s.SavedWhole) (prev : Nat) (bytes : Bytes) :
    EndsIn ParseScreen.SavedWhole Prod.fst (decodeLoop h prev s bytes) :=
  decodeLoop_endsIn (fun saved hround => (decodeRound_saved keeps saved hround).1) saved prev bytes

theorem parseBytes_savedWhole {s t : ParseScreen} (saved : s.SavedWhole) {bytes rest : Bytes}
    (h : parseBytes s bytes = .ok (t, rest)) : t.SavedWhole := by
  have ends : EndsIn ParseScreen.SavedWhole Prod.fst (parseBytes s bytes) :=
    decodeLoop_savedWhole (dispatchHandlers_keeps atRest_frame.toCallFrame _) saved _ bytes
  rw [h] at ends
  exact ends

theorem parseBytes_append {s : ParseScreen} (saved : s.SavedWhole) (first second : Bytes) :
    parseBytes s (first ++ second) =
      parseBytes s first >>= fun result => parseBytes result.1 second := by
  have never : NeverStops (readByte dispatchHandlers) := by
    intro state input next hread
    have := readByte_watch hread
    cases this
  rw [parseBytes_eq_consume saved, consume_append never, ← parseBytes_eq_consume saved]
  cases h : parseBytes s first with
  | error t => rfl
  | ok result => exact (parseBytes_eq_consume (parseBytes_savedWhole saved h) second).symm

/-- `_parse_bytes` goes on where `_parse_bytes_watching_for_pending` was left. -/
theorem parseBytes_forget {s : ParseScreen} (saved : s.SavedWhole) (bytes : Bytes) :
    parseBytes s bytes = parseBytesWatchingForPending s bytes >>= fun result =>
      consume (readByte dispatchHandlers) result.1 result.2 := by
  unfold parseBytesWatchingForPending
  rw [parseBytes_eq_consume saved, decodeLoop_eq_consume
    (dispatchHandlers_keeps atRest_frame.toCallFrame _) saved (PrevOk.self s) bytes]
  exact consume_forget (readByte_unwatched
    { dispatchHandlers with watch := fun s => s.pending.activatedAt ≠ 0 }) s bytes

/-- A loop that left bytes behind was left in pending mode. -/
theorem parseBytesWatchingForPending_left {s t : ParseScreen} (saved : s.SavedWhole)
    {bytes rest : Bytes} (h : parseBytesWatchingForPending s bytes = .ok (t, rest))
    (inactive : t.pending.activatedAt = 0) : rest = [] := by
  unfold parseBytesWatchingForPending at h
  rw [decodeLoop_eq_consume (dispatchHandlers_keeps atRest_frame.toCallFrame _) saved
    (PrevOk.self s) bytes] at h
  refine (consume_left (fun s => s.pending.activatedAt ≠ 0) ?_ h).resolve_right
    fun active => active inactive
  intro state input next hread
  simpa using readByte_watch hread

/-- The calls of one parse of all the bytes leave pending mode off. -/
def Quiet (n : Nat) (s : ParseScreen) (bytes : Bytes) : Prop :=
  EndsIn (fun t => ¬ Activated n t) Prod.fst (parseBytes s bytes)

/-- The first two rounds of the driver outside pending mode. -/
theorem doParseBytes_idle {s : ParseScreen} (inactive : s.pending.activatedAt = 0)
    (empty : s.pending.buf = []) (bytes : Bytes) (now : Nat) :
    doParseBytes s bytes now =
      match parseBytesWatchingForPending s bytes with
      | .error t => some (.error t)
      | .ok (t, rest) =>
        if (Driver.mk t rest .start .normal).continues then
          driverLoop now (6 * bytes.length + 6) (Driver.mk t rest .start .normal)
        else some (.ok t) := by
  have unchanged : s.deactivatePending = s := by
    unfold deactivatePending
    rw [← inactive]
  have begun : driverRound now { screen := s, readBuf := bytes } =
      .ok { screen := s, readBuf := bytes, state := .parseReadBuf } := by
    simp [driverRound, inactive, empty]
  have parsed : driverRound now { screen := s, readBuf := bytes, state := .parseReadBuf } =
      parseBytesWatchingForPending s bytes >>= fun result =>
        .ok (Driver.mk result.1 result.2 .start .normal) := by
    simp only [driverRound, unchanged]
  cases bytes with
  | nil =>
    simp [doParseBytes, driverLoop, begun, Driver.continues, empty,
      parseBytesWatchingForPending, decodeLoop]
  | cons ch rest =>
    unfold doParseBytes
    rw [driverLoop, begun]
    simp only [Driver.continues, ne_eq, reduceCtorEq, not_false_eq_true, true_or, decide_true,
      if_true]
    rw [driverLoop, parsed]
    cases parseBytesWatchingForPending s (ch :: rest) with
    | error t => rfl
    | ok result => rfl

/-- A stream that ends without a call that switches pending mode on did not start with one. -/
theorem Quiet.start {n : Nat} {t : ParseScreen} {bytes : Bytes} (quiet : Quiet n t bytes) :
    ¬ Activated n t := by
  intro active
  have log : EndsIn (fun u => t.dispatched <+: u.dispatched) Prod.fst (parseBytes t bytes) :=
    (log_frame t.dispatched).driverFrame.dispatching _ bytes (List.prefix_refl t.dispatched)
  unfold Quiet at quiet
  cases h : parseBytes t bytes with
  | error u => rw [h] at quiet log; exact quiet (active.mono log)
  | ok result => rw [h] at quiet log; exact quiet (active.mono log)

/-- Where the stream leaves pending mode alone, watching for it makes no difference. -/
theorem parseBytesWatchingForPending_quiet {n : Nat} {s : ParseScreen} (saved : s.SavedWhole)
    (watched : Watched n s) {bytes : Bytes} (quiet : Quiet n s bytes) :
    parseBytesWatchingForPending s bytes = parseBytes s bytes := by
  have forget := parseBytes_forget saved bytes
  have kept := watched_loop watched bytes
  have savedEnd : EndsIn ParseScreen.SavedWhole Prod.fst (parseBytesWatchingForPending s bytes) :=
    decodeLoop_savedWhole (dispatchHandlers_keeps atRest_frame.toCallFrame _) saved _ bytes
  unfold Quiet at quiet
  rw [forget] at quiet ⊢
  cases hwatch : parseBytesWatchingForPending s bytes with
  | error t => rfl
  | ok result =>
    obtain ⟨t, rest⟩ := result
    rw [hwatch] at kept savedEnd quiet
    change EndsIn _ _ (consume _ t rest) at quiet
    rw [← parseBytes_eq_consume savedEnd] at quiet
    have inactive : t.pending.activatedAt = 0 :=
      kept.active.resolve_right (Quiet.start quiet)
    rw [parseBytesWatchingForPending_left saved hwatch inactive]
    rfl

/-- Outside pending mode, and where the stream leaves it alone, `do_parse_bytes` is
`_parse_bytes`. -/
theorem doParseBytes_quiet {n : Nat} {s : ParseScreen} (saved : s.SavedWhole)
    (watched : Watched n s) (inactive : s.pending.activatedAt = 0) {bytes : Bytes}
    (quiet : Quiet n s bytes) (now : Nat) :
    doParseBytes s bytes now = some ((parseBytes s bytes).map Prod.fst) := by
  have same := parseBytesWatchingForPending_quiet saved watched quiet
  have kept := watched_loop watched bytes
  rw [doParseBytes_idle inactive watched.empty, same]
  rw [same] at kept
  unfold Quiet at quiet
  cases h : parseBytes s bytes with
  | error t => rfl
  | ok result =>
    obtain ⟨t, rest⟩ := result
    rw [h] at quiet kept
    have taken : rest = [] := parseBytes_rest saved h
    have empty : t.pending.buf = [] := kept.empty
    simp [Driver.continues, taken, empty, Except.map]

/-- Chunks of a stream that leaves pending mode alone are parsed as the stream is. -/
theorem feed_quiet {n : Nat} {s : ParseScreen} (saved : s.SavedWhole) (watched : Watched n s)
    (inactive : s.pending.activatedAt = 0) {chunks : List (Bytes × Nat)}
    (quiet : Quiet n s (chunks.map Prod.fst).flatten) :
    feed s chunks = some ((parseBytes s (chunks.map Prod.fst).flatten).map Prod.fst) := by
  induction chunks generalizing s with
  | nil => rfl
  | cons chunk rest ih =>
    obtain ⟨bytes, now⟩ := chunk
    have split : parseBytes s (bytes ++ (rest.map Prod.fst).flatten) =
        parseBytes s bytes >>= fun result =>
          parseBytes result.1 (rest.map Prod.fst).flatten := parseBytes_append saved _ _
    unfold Quiet at quiet
    rw [List.map_cons, List.flatten_cons, split] at quiet ⊢
    unfold feed
    cases h : parseBytes s bytes with
    | error t =>
      rw [h] at quiet
      have first : Quiet n s bytes := by
        unfold Quiet
        rw [h]
        exact quiet
      rw [doParseBytes_quiet saved watched inactive first, h]
      rfl
    | ok result =>
      obtain ⟨t, left⟩ := result
      rw [h] at quiet
      change Quiet n t _ at quiet
      have first : Quiet n s bytes := by
        unfold Quiet
        rw [h]
        exact quiet.start
      have kept := watched_loop watched bytes
      rw [parseBytesWatchingForPending_quiet saved watched first, h] at kept
      rw [doParseBytes_quiet saved watched inactive first, h]
      exact ih (parseBytes_savedWhole saved h) kept (kept.active.resolve_right quiet.start) quiet

/-- Fed in one call, the bytes never switch pending mode on. -/
def NeverActivates (s : ParseScreen) (bytes : Bytes) (now : Nat) : Prop :=
  ∀ outcome, doParseBytes s bytes now = some outcome →
    EndsIn (fun t => ¬ Activated s.dispatched.length t) id outcome

instance (n : Nat) (s : ParseScreen) : Decidable (Activated n s) :=
  inferInstanceAs (Decidable (∃ c ∈ s.dispatched.drop n, c.activates = true))

instance {α : Type} (P : ParseScreen → Prop) [DecidablePred P] (screen : α → ParseScreen)
    (outcome : Except ParseScreen α) : Decidable (EndsIn P screen outcome) :=
  match outcome with
  | .error s => inferInstanceAs (Decidable (P s))
  | .ok result => inferInstanceAs (Decidable (P (screen result)))

instance (s : ParseScreen) (bytes : Bytes) (now : Nat) : Decidable (NeverActivates s bytes now) :=
  match h : doParseBytes s bytes now with
  | none => isTrue fun outcome ended => by rw [h] at ended; cases ended
  | some outcome =>
    decidable_of_iff (EndsIn (fun t => ¬ Activated s.dispatched.length t) id outcome)
      ⟨fun ends other ended => by rw [h] at ended; cases ended; exact ends,
        fun never => never outcome h⟩

/-- What the driver does with the stream is what `_parse_bytes` would do. -/
theorem NeverActivates.quiet {s : ParseScreen} (saved : s.SavedWhole)
    (watched : Watched s.dispatched.length s) (inactive : s.pending.activatedAt = 0)
    {bytes : Bytes} {now : Nat} (never : NeverActivates s bytes now) :
    Quiet s.dispatched.length s bytes := by
  have idle := doParseBytes_idle inactive watched.empty bytes now
  have forget := parseBytes_forget saved bytes
  have kept := watched_loop watched bytes
  cases hwatch : parseBytesWatchingForPending s bytes with
  | error t =>
    rw [hwatch] at idle forget
    have ended := never _ idle
    unfold Quiet
    rw [forget]
    exact ended
  | ok result =>
    obtain ⟨t, rest⟩ := result
    rw [hwatch] at idle forget kept
    have grows : ¬ Activated s.dispatched.length t := by
      intro active
      obtain ⟨outcome, ended⟩ := Option.isSome_iff_exists.1 (doParseBytes_isSome s bytes now)
      have unactivated := never outcome ended
      rw [idle] at ended
      dsimp only at ended
      split at ended
      · -- the driver goes on from `t`, and the log keeps the call
        have log := driverLoop_keeps (log_frame t.dispatched).driverFrame _
          (List.prefix_refl t.dispatched) ended
        cases outcome with
        | error u => exact unactivated (active.mono log)
        | ok u => exact unactivated (active.mono log)
      · obtain rfl := Option.some.inj ended
        exact unactivated active
    have left : rest = [] :=
      parseBytesWatchingForPending_left saved hwatch (kept.active.resolve_right grows)
    subst left
    unfold Quiet
    rw [forget]
    exact grows

/-- However a stream that leaves pending mode alone is cut into chunks, the calls made and the
state of the parser at the end are those of the stream fed in one call. -/
theorem feed_eq_doParseBytes {s : ParseScreen} (saved : s.SavedWhole)
    (inactive : s.pending.activatedAt = 0) (empty : s.pending.buf = [])
    (chunks : List (Bytes × Nat)) (now : Nat)
    (never : NeverActivates s (chunks.map Prod.fst).flatten now) :
    ∃ outcome, doParseBytes s (chunks.map Prod.fst).flatten now = some outcome ∧
      feed s chunks = some outcome := by
  have watched : Watched s.dispatched.length s := ⟨Nat.le_refl _, Or.inl inactive, empty⟩
  have quiet := never.quiet saved watched inactive
  exact ⟨_, doParseBytes_quiet saved watched inactive quiet now,
    feed_quiet saved watched inactive quiet⟩

/-- A chunk that ends inside an escape code, one that ends inside a character, and one that ends
behind a lead byte that the next chunk does not continue. -/
theorem feed_eq_doParseBytes_split :
    ∃ outcome,
      doParseBytes {} [0x1b, 0x5b, 0x41, 0xe2, 0x82, 0xac, 0xc3, 0x41] 0 = some outcome ∧
        feed {} [([0x1b], 0), ([0x5b, 0x41, 0xe2], 1), ([0x82, 0xac, 0xc3], 2), ([0x41], 3)] =
          some outcome :=
  feed_eq_doParseBytes newScreen_savedWhole rfl rfl
    [([0x1b], 0), ([0x5b, 0x41, 0xe2], 1), ([0x82, 0xac, 0xc3], 2), ([0x41], 3)] 0 (by decide)

end Smelly
