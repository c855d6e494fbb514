/-
Module: Smelly.Proofs.ParserOverflow
Purpose: The accesses to `parser_buf` in a run: which characters the driver dispatches, and that
  one of them that overflows the buffer is all that can go wrong.
Trusted boundary: none
-/
import Smelly.Proofs.ParserBuffer
import Smelly.Proofs.ParserBytes

namespace Smelly

open ParseScreen Checked

variable {s : ParseScreen}

/-! ### The decoding loop -/

/-- The call of `dispatch_unicode_char` in one round of `decode_loop`, if there is one. -/
def roundChar (s : ParseScreen) (ch : UInt8) : Option (ParseScreen × UInt32) :=
  if s.decoder.useLatin1 then some (s, latin1Charset ch)
  else if (decoded s ch).decoder.utf8State = utf8Accept then
    some (decoded s ch, (decoded s ch).decoder.utf8Codepoint)
  else none

/-- `decode_loop` calls `dispatch_unicode_char` in the screen, with the character. -/
inductive LoopDispatches (h : Handlers) :
    Nat → ParseScreen → Bytes → ParseScreen → UInt32 → Prop
  | first {prev : Nat} {s u : ParseScreen} {ch : UInt8} {rest : Bytes} {c : UInt32}
      (call : roundChar s ch = some (u, c)) : LoopDispatches h prev s (ch :: rest) u c
  | again {prev prev' : Nat} {s t u : ParseScreen} {ch : UInt8} {rest : Bytes} {c : UInt32}
      (round : decodeRound h prev s ch = some (t, prev', .again))
      (call : roundChar t ch = some (u, c)) : LoopDispatches h prev s (ch :: rest) u c
  | later {prev prev' : Nat} {s t u : ParseScreen} {ch : UInt8} {rest : Bytes} {c : UInt32}
      (byte : readFrom h prev s ch = .ok (t, prev', false))
      (more : LoopDispatches h prev' t rest u c) : LoopDispatches h prev s (ch :: rest) u c

theorem roundChar_bufOk {u : ParseScreen} {ch : UInt8} {c : UInt32} (hs : s.BufOk)
    (call : roundChar s ch = some (u, c)) : u.BufOk := by
  unfold roundChar at call
  split at call
  · obtain ⟨rfl, -⟩ := Prod.mk.inj (Option.some.inj call)
    exact hs
  · split at call
    · obtain ⟨rfl, -⟩ := Prod.mk.inj (Option.some.inj call)
      exact ⟨hs.pos, hs.size⟩
    · cases call

/-- A round fails exactly if its call does. -/
theorem decodeRound_eq_none {h : Handlers} {prev : Nat} {ch : UInt8} :
    decodeRound h prev s ch = none ↔
      ∃ u c, roundChar s ch = some (u, c) ∧ dispatchUnicodeChar h u c = none := by
  unfold roundChar
  cases latin1 : s.decoder.useLatin1 with
  | true =>
    rw [decodeRound_latin1 latin1, Option.map_eq_none_iff]
    simp
  | false =>
    by_cases accept : (decoded s ch).decoder.utf8State = utf8Accept
    · rw [decodeRound_accept latin1 prev accept, Option.map_eq_none_iff]
      simp [accept]
    · by_cases reject : (decoded s ch).decoder.utf8State = utf8Reject
      · rw [decodeRound_reject latin1 prev reject]
        simp [accept]
      · rw [decodeRound_inside latin1 prev accept reject]
        simp [accept]

theorem decodeRound_bufOk {h : Handlers} (safe : h.Safe) {prev prev' : Nat} {t : ParseScreen}
    {ch : UInt8} {next : NextByte} (hs : s.BufOk)
    (hround : decodeRound h prev s ch = some (t, prev', next)) : t.BufOk := by
  have called : ∀ {u v : ParseScreen} {c : UInt32} {stop : Bool}, u.BufOk →
      dispatchUnicodeChar h u c = some (v, stop) → v.BufOk := by
    intro u v c stop hu hdispatch
    have fits := (dispatchUnicodeChar_isSome_iff safe hu c).1 (by rw [hdispatch]; rfl)
    obtain ⟨result, heq, ok⟩ := (dispatchUnicodeChar_succeeds safe hu fits).exists
    rw [hdispatch] at heq
    obtain rfl := Option.some.inj heq
    exact ok
  cases latin1 : s.decoder.useLatin1 with
  | true =>
    rw [decodeRound_latin1 latin1] at hround
    obtain ⟨⟨t', stop⟩, hdispatch, heq⟩ := Option.map_eq_some_iff.1 hround
    obtain ⟨rfl, -⟩ := Prod.mk.inj heq
    exact called hs hdispatch
  | false =>
    by_cases accept : (decoded s ch).decoder.utf8State = utf8Accept
    · rw [decodeRound_accept latin1 prev accept] at hround
      obtain ⟨⟨t', stop⟩, hdispatch, heq⟩ := Option.map_eq_some_iff.1 hround
      obtain ⟨rfl, -⟩ := Prod.mk.inj heq
      have start : (decoded s ch).BufOk := ⟨hs.pos, hs.size⟩
      exact called start hdispatch
    · by_cases reject : (decoded s ch).decoder.utf8State = utf8Reject
      · rw [decodeRound_reject latin1 prev reject] at hround
        obtain ⟨rfl, -⟩ := Prod.mk.inj (Option.some.inj hround)
        exact ⟨hs.pos, hs.size⟩
      · rw [decodeRound_inside latin1 prev accept reject] at hround
        obtain ⟨rfl, -⟩ := Prod.mk.inj (Option.some.inj hround)
        exact ⟨hs.pos, hs.size⟩

theorem readFrom_bufOk {h : Handlers} (safe : h.Safe) {prev prev' : Nat} {t : ParseScreen}
    {ch : UInt8} {stop : Bool} (hs : s.BufOk)
    (hread : readFrom h prev s ch = .ok (t, prev', stop)) : t.BufOk := by
  unfold readFrom at hread
  split at hread
  · cases hread
  · rename_i hround
    cases hread
    exact decodeRound_bufOk safe hs hround
  · rename_i hround
    cases hread
    exact decodeRound_bufOk safe hs hround
  · rename_i hround
    have again := decodeRound_bufOk safe hs hround
    split at hread
    · cases hread
    · rename_i hround
      cases hread
      exact decodeRound_bufOk safe again hround
    · rename_i hround
      cases hread
      exact decodeRound_bufOk safe again hround

theorem loopDispatches_bufOk {h : Handlers} (safe : h.Safe) {prev : Nat} {u : ParseScreen}
    {bytes : Bytes} {c : UInt32} (hs : s.BufOk) (event : LoopDispatches h prev s bytes u c) :
    u.BufOk := by
  induction event with
  | first call => exact roundChar_bufOk hs call
  | again round call => exact roundChar_bufOk (decodeRound_bufOk safe hs round) call
  | later byte more ih => exact ih (readFrom_bufOk safe hs byte)

/-- A byte is read without a fault if none of its calls overflows. -/
theorem readFrom_ok {h : Handlers} (safe : h.Safe) {prev : Nat} {ch : UInt8} (hs : s.BufOk)
    (fits : ∀ u c, LoopDispatches h prev s [ch] u c → ¬ Overflows u c) :
    ∃ result, readFrom h prev s ch = .ok result := by
  have goes : ∀ {prev t}, t.BufOk → (∀ u c, roundChar t ch = some (u, c) → ¬ Overflows u c) →
      decodeRound h prev t ch ≠ none := by
    intro prev t ht hfits hnone
    obtain ⟨u, c, call, failed⟩ := decodeRound_eq_none.1 hnone
    have isSome := (dispatchUnicodeChar_isSome_iff safe (roundChar_bufOk ht call) c).2
      (hfits u c call)
    rw [failed] at isSome
    cases isSome
  unfold readFrom
  cases hround : decodeRound h prev s ch with
  | none => exact absurd hround (goes hs fun u c call => fits u c (.first call))
  | some result =>
    obtain ⟨t, prev', next⟩ := result
    cases next with
    | advance => exact ⟨_, rfl⟩
    | stop => exact ⟨_, rfl⟩
    | again =>
      have again := decodeRound_bufOk safe hs hround
      cases hround' : decodeRound h prev' t ch with
      | none => exact absurd hround' (goes again fun u c call => fits u c (.again hround call))
      | some result =>
        obtain ⟨v, prev'', next⟩ := result
        cases next <;> exact ⟨_, by dsimp only; rw [hround']⟩

theorem decodeLoop_ok {h : Handlers} (safe : h.Safe) {prev : Nat} {bytes : Bytes} (hs : s.BufOk)
    (fits : ∀ u c, LoopDispatches h prev s bytes u c → ¬ Overflows u c) :
    ∃ result, decodeLoop h prev s bytes = .ok result := by
  induction bytes generalizing s prev with
  | nil => exact ⟨_, rfl⟩
  | cons ch rest ih =>
    have single : ∀ u c, LoopDispatches h prev s [ch] u c → ¬ Overflows u c := by
      intro u c event
      cases event with
      | first call => exact fits u c (.first call)
      | again round call => exact fits u c (.again round call)
      | later byte more => cases more
    obtain ⟨⟨t, prev', stop⟩, hread⟩ := readFrom_ok safe hs single
    rw [decodeLoop_cons, hread]
    cases stop with
    | true => exact ⟨_, rfl⟩
    | false =>
      exact ih (readFrom_bufOk safe hs hread) fun u c event => fits u c (.later hread event)

/-- A call that overflows ends the loop. -/
theorem decodeLoop_overflows {h : Handlers} {prev : Nat} {u : ParseScreen} {bytes : Bytes}
    {c : UInt32} (event : LoopDispatches h prev s bytes u c) (overruns : Overflows u c) :
    ∃ t, decodeLoop h prev s bytes = .error t := by
  have failed : ∀ {prev t ch}, roundChar t ch = some (u, c) → decodeRound h prev t ch = none :=
    fun call => decodeRound_eq_none.2 ⟨u, c, call, dispatchUnicodeChar_overflows overruns⟩
  induction event with
  | first call =>
    rw [decodeLoop, failed call]
    exact ⟨_, rfl⟩
  | again round call =>
    rw [decodeLoop, round]
    dsimp only
    rw [failed call]
    exact ⟨_, rfl⟩
  | later byte more ih =>
    rw [decodeLoop_cons, byte]
    exact ih overruns failed

/-! ### The driver -/

/-- `dispatch_unicode_char` never leaves the position behind the cells written. -/
theorem bufOk_driverFrame : DriverFrame ParseScreen.BufOk where
  replay _ h := ⟨h.pos, h.size⟩
  pending _ h := ⟨h.pos, h.size⟩
  dispatching watch _ bytes h :=
    decodeLoop_endsIn (decodeRound_bufOk (dispatchHandlers_safe watch)) h _ bytes
  queueing bytes h := decodeLoop_endsIn (decodeRound_bufOk pendingHandlers_safe) h _ bytes

theorem leavePending_succeeds (h : s.BufOk) : Succeeds (fun _ => True) (leavePending s) := by
  refine Succeeds.bind (Q := fun _ => True) ?_ fun _ _ => trivial
  unfold dumpPartialEscapeCodeToPending
  split
  · trivial
  · exact (readFrom_succeeds h (Nat.zero_le _)).bind fun _ _ => trivial

/-- The decoding loop that a round of the driver runs: its handlers, screen and bytes. -/
def Driver.loop (d : Driver) : Option (Handlers × ParseScreen × Bytes) :=
  match d.state with
  | .start => none
  | .parsePending =>
    some (dispatchHandlers, { d.screen with parserState := d.parserStateAtStartOfPending },
      d.screen.pending.buf)
  | .parseReadBuf =>
    some ({ dispatchHandlers with watch := fun s => s.pending.activatedAt ≠ 0 },
      d.screen.deactivatePending, d.readBuf)
  | .queuePending =>
    if readBufSz ≤ d.screen.pending.buf.length then none
    else some (pendingHandlers,
      { d.screen with pending := { d.screen.pending with stopEscapeCodeType := .normal } },
      d.readBuf)

theorem Driver.loop_safe {d : Driver} (hd : d.screen.BufOk) {h : Handlers} {bytes : Bytes}
    (hloop : d.loop = some (h, s, bytes)) : h.Safe ∧ s.BufOk := by
  unfold Driver.loop at hloop
  split at hloop
  · cases hloop
  · cases hloop
    exact ⟨dispatchHandlers_safe _, ⟨hd.pos, hd.size⟩⟩
  · cases hloop
    exact ⟨dispatchHandlers_safe _, ⟨hd.pos, hd.size⟩⟩
  · split at hloop
    · cases hloop
    · cases hloop
      exact ⟨pendingHandlers_safe, ⟨hd.pos, hd.size⟩⟩

/-- A round of the driver fails exactly if its loop does. -/
theorem driverRound_ok_iff {now : Nat} {d : Driver} (hd : d.screen.BufOk) :
    (∃ d', driverRound now d = .ok d') ↔
      ∀ h s bytes, d.loop = some (h, s, bytes) →
        ∃ result, decodeLoop h s.decoder.utf8State s bytes = .ok result := by
  have ran : ∀ {first : Except ParseScreen (ParseScreen × Bytes)}
      {next : ParseScreen × Bytes → Driver},
      (∃ d', (first >>= fun result => .ok (next result)) = .ok d') ↔
        ∃ result, first = .ok result := by
    intro first next
    cases first with
    | error t => exact ⟨fun ⟨_, h⟩ => (by cases h), fun ⟨_, h⟩ => (by cases h)⟩
    | ok result => exact ⟨fun _ => ⟨_, rfl⟩, fun _ => ⟨_, rfl⟩⟩
  have left : ∀ {t : ParseScreen}, t.BufOk → leavePending t ≠ none := by
    intro t ht fails
    obtain ⟨u, heq, -⟩ := (leavePending_succeeds ht).exists
    rw [fails] at heq
    cases heq
  unfold driverRound Driver.loop
  cases d.state with
  | start =>
    dsimp only
    refine ⟨fun _ h s bytes hloop => (by cases hloop), fun _ => ?_⟩
    split
    · split
      · split
        · next fails => exact absurd fails (left hd)
        · exact ⟨_, rfl⟩
      · exact ⟨_, rfl⟩
    · exact ⟨_, rfl⟩
  | parsePending =>
    refine ran.trans ⟨fun ok h s bytes hloop => (by cases hloop; exact ok), fun all => ?_⟩
    exact all _ _ _ rfl
  | parseReadBuf =>
    refine ran.trans ⟨fun ok h s bytes hloop => (by cases hloop; exact ok), fun all => ?_⟩
    exact all _ _ _ rfl
  | queuePending =>
    dsimp only
    split
    · refine ⟨fun _ h s bytes hloop => (by cases hloop), fun _ => ?_⟩
      split
      · next fails => exact absurd fails (left ⟨hd.pos, hd.size⟩)
      · exact ⟨_, rfl⟩
    · refine ran.trans ⟨fun ok h s bytes hloop => (by cases hloop; exact ok), fun all => ?_⟩
      exact all _ _ _ rfl

/-- `do_parse_bytes` calls `dispatch_unicode_char` in the screen, with the character. -/
inductive DriverDispatches (now : Nat) : Driver → ParseScreen → UInt32 → Prop
  | here {d : Driver} {h : Handlers} {s u : ParseScreen} {bytes : Bytes} {c : UInt32}
      (loop : d.loop = some (h, s, bytes))
      (event : LoopDispatches h s.decoder.utf8State s bytes u c) : DriverDispatches now d u c
  | next {d d' : Driver} {u : ParseScreen} {c : UInt32} (round : driverRound now d = .ok d')
      (continues : d'.continues = true) (more : DriverDispatches now d' u c) :
      DriverDispatches now d u c

/-- A sequence of calls of `do_parse_bytes` calls `dispatch_unicode_char` in the screen, with the
character. -/
inductive FeedDispatches : ParseScreen → List (Bytes × Nat) → ParseScreen → UInt32 → Prop
  | here {s u : ParseScreen} {chunk : Bytes} {now : Nat} {rest : List (Bytes × Nat)} {c : UInt32}
      (event : DriverDispatches now { screen := s, readBuf := chunk } u c) :
      FeedDispatches s ((chunk, now) :: rest) u c
  | later {s t u : ParseScreen} {chunk : Bytes} {now : Nat} {rest : List (Bytes × Nat)}
      {c : UInt32} (call : doParseBytes s chunk now = some (.ok t))
      (more : FeedDispatches t rest u c) : FeedDispatches s ((chunk, now) :: rest) u c

theorem driverRound_bufOk {now : Nat} {d d' : Driver} (hd : d.screen.BufOk)
    (hround : driverRound now d = .ok d') : d'.screen.BufOk := by
  have kept : EndsIn ParseScreen.BufOk Driver.screen (driverRound now d) :=
    driverRound_keeps bufOk_driverFrame hd
  rw [hround] at kept
  exact kept

theorem doParseBytes_bufOk {t : ParseScreen} {bytes : Bytes} {now : Nat} (hs : s.BufOk)
    (hcall : doParseBytes s bytes now = some (.ok t)) : t.BufOk :=
  driverLoop_keeps bufOk_driverFrame _ (d := { screen := s, readBuf := bytes }) hs hcall

theorem driverDispatches_bufOk {now : Nat} {d : Driver} {u : ParseScreen} {c : UInt32}
    (hd : d.screen.BufOk) (event : DriverDispatches now d u c) : u.BufOk := by
  induction event with
  | here loop event =>
    obtain ⟨safe, hs⟩ := Driver.loop_safe hd loop
    exact loopDispatches_bufOk safe hs event
  | next round _ _ ih => exact ih (driverRound_bufOk hd round)

theorem feedDispatches_bufOk {chunks : List (Bytes × Nat)} {u : ParseScreen} {c : UInt32}
    (hs : s.BufOk) (event : FeedDispatches s chunks u c) : u.BufOk := by
  induction event with
  | here event => exact driverDispatches_bufOk hs event
  | later call _ ih => exact ih (doParseBytes_bufOk hs call)

theorem driverLoop_ok {now rounds : Nat} {d : Driver} (hd : d.screen.BufOk)
    (fits : ∀ u c, DriverDispatches now d u c → ¬ Overflows u c)
    {outcome : Except ParseScreen ParseScreen} (hloop : driverLoop now rounds d = some outcome) :
    ∃ t, outcome = .ok t := by
  induction rounds generalizing d with
  | zero => cases hloop
  | succ rounds ih =>
    have ran : ∃ d', driverRound now d = .ok d' := by
      refine (driverRound_ok_iff hd).2 fun h s bytes loop => ?_
      obtain ⟨safe, hs⟩ := Driver.loop_safe hd loop
      exact decodeLoop_ok safe hs fun u c event => fits u c (.here loop event)
    obtain ⟨d', hround⟩ := ran
    unfold driverLoop at hloop
    rw [hround] at hloop
    dsimp only at hloop
    split at hloop
    · rename_i continues
      exact ih (driverRound_bufOk hd hround)
        (fun u c event => fits u c (.next hround continues event)) hloop
    · exact ⟨_, (Option.some.inj hloop).symm⟩

theorem driverLoop_overflows {now rounds : Nat} {d : Driver} (hd : d.screen.BufOk)
    {u : ParseScreen} {c : UInt32} (event : DriverDispatches now d u c) (overruns : Overflows u c)
    {outcome : Except ParseScreen ParseScreen} (hloop : driverLoop now rounds d = some outcome) :
    ∃ t, outcome = .error t := by
  induction event generalizing rounds with
  | @here d h s u bytes c loop event =>
    obtain ⟨t, failed⟩ := decodeLoop_overflows event overruns
    cases rounds with
    | zero => cases hloop
    | succ rounds =>
      unfold driverLoop at hloop
      cases hround : driverRound now d with
      | error v =>
        rw [hround] at hloop
        exact ⟨v, (Option.some.inj hloop).symm⟩
      | ok d' =>
        obtain ⟨result, ok⟩ := (driverRound_ok_iff hd).1 ⟨d', hround⟩ h s bytes loop
        rw [failed] at ok
        cases ok
  | next round continues _ ih =>
    cases rounds with
    | zero => cases hloop
    | succ rounds =>
      unfold driverLoop at hloop
      rw [round] at hloop
      dsimp only at hloop
      rw [if_pos continues] at hloop
      exact ih (driverRound_bufOk hd round) overruns hloop

theorem feed_ok {chunks : List (Bytes × Nat)} (hs : s.BufOk)
    (fits : ∀ u c, FeedDispatches s chunks u c → ¬ Overflows u c) :
    ∃ t, feed s chunks = some (.ok t) ∧ t.BufOk := by
  induction chunks generalizing s with
  | nil => exact ⟨s, rfl, hs⟩
  | cons chunk rest ih =>
    obtain ⟨bytes, now⟩ := chunk
    obtain ⟨outcome, hcall⟩ := Option.isSome_iff_exists.1 (doParseBytes_isSome s bytes now)
    obtain ⟨t, rfl⟩ := driverLoop_ok (d := { screen := s, readBuf := bytes }) hs
      (fun u c event => fits u c (.here event)) hcall
    unfold feed
    rw [hcall]
    exact ih (doParseBytes_bufOk hs hcall) fun u c event => fits u c (.later hcall event)

theorem feed_overflows {chunks : List (Bytes × Nat)} (hs : s.BufOk) {u : ParseScreen} {c : UInt32}
    (event : FeedDispatches s chunks u c) (overruns : Overflows u c) :
    ∃ t, feed s chunks = some (.error t) := by
  induction event with
  | @here s u chunk now rest c event =>
    obtain ⟨outcome, hcall⟩ := Option.isSome_iff_exists.1 (doParseBytes_isSome s chunk now)
    obtain ⟨t, rfl⟩ := driverLoop_overflows (d := { screen := s, readBuf := chunk }) hs event
      overruns hcall
    unfold feed
    rw [hcall]
    exact ⟨t, rfl⟩
  | later call _ ih =>
    unfold feed
    rw [call]
    exact ih (doParseBytes_bufOk hs call) overruns

/-- In every run the accesses to `parser_buf` stay among the written cells of the array, exactly
if no final character of a CSI sequence arrives when its parameters fill the array. -/
theorem feed_inBounds_iff (chunks : List (Bytes × Nat)) :
    ((∃ t, feed {} chunks = some (.ok t) ∧ t.BufOk) ∧
        ∀ u c, FeedDispatches {} chunks u c → u.BufOk) ↔
      ∀ u c, FeedDispatches {} chunks u c → ¬ Overflows u c := by
  constructor
  · rintro ⟨⟨t, ended, -⟩, -⟩ u c event overruns
    obtain ⟨t', failed⟩ := feed_overflows newScreen_bufOk event overruns
    rw [failed] at ended
    cases ended
  · intro fits
    exact ⟨feed_ok newScreen_bufOk fits, fun u c event => feedDispatches_bufOk newScreen_bufOk event⟩

/-! ### A sequence that is too long -/

/-- Inside a CSI sequence with `k` characters, between two characters of the stream. -/
structure InCsi (k : Nat) (s : ParseScreen) : Prop where
  state : s.parserState = .csi
  pos : s.parserBufPos = k
  buf : s.parserBuf.length = k
  utf8 : s.decoder.useLatin1 = false
  accept : s.decoder.utf8State = utf8Accept

/-- An ASCII character is decoded as itself. -/
theorem roundChar_ascii (utf8 : s.decoder.useLatin1 = false)
    (accept : s.decoder.utf8State = utf8Accept) {ch : UInt8}
    (ascii : decodeUtf8 utf8Accept s.decoder.utf8Codepoint ch = (utf8Accept, ch.toUInt32)) :
    roundChar s ch = some (decoded s ch, ch.toUInt32) := by
  unfold roundChar
  rw [if_neg (by simp [utf8])]
  simp only [decoded, accept, ascii, if_true]

/-- A digit is stored behind the others. -/
theorem inCsi_push {k : Nat} (hs : InCsi k s) (room : k < parserBufSz) :
    ∃ t, accumulateCsi s 0x31 = some (t, false) ∧ InCsi (k + 1) t := by
  have param : isCsiParam 0x31 = true := by decide
  have space : ¬ parserBufSz - 1 < s.parserBufPos := by
    rw [hs.pos]
    omega
  have stored : s.write s.parserBufPos 0x31 = some { s with
      parserBuf := s.parserBuf.take s.parserBufPos ++ 0x31 :: s.parserBuf.drop (s.parserBufPos + 1) } :=
    if_pos ⟨hs.pos.symm ▸ room, Nat.le_of_eq (hs.pos.trans hs.buf.symm)⟩
  unfold accumulateCsi csiPush push
  rw [if_pos param, if_neg space, stored]
  refine ⟨_, rfl, hs.state, congrArg (· + 1) hs.pos, ?_, hs.utf8, hs.accept⟩
  simp [hs.pos, hs.buf]

theorem inCsi_digit {h : Handlers} {k : Nat} (hs : InCsi k s) (room : k < parserBufSz)
    (prev : Nat) : ∃ t prev', readFrom h prev s 0x31 = .ok (t, prev', false) ∧ InCsi (k + 1) t := by
  have digit : decodeUtf8 utf8Accept s.decoder.utf8Codepoint 0x31 = (utf8Accept, 0x31) := rfl
  have accept : (decoded s 0x31).decoder.utf8State = utf8Accept := by
    simp only [decoded, hs.accept, digit]
  have codepoint : (decoded s 0x31).decoder.utf8Codepoint = 0x31 := by
    simp only [decoded, hs.accept, digit]
  have start : InCsi k (decoded s 0x31) := ⟨hs.state, hs.pos, hs.buf, hs.utf8, accept⟩
  obtain ⟨t, stored, ht⟩ := inCsi_push start room
  have dispatched : dispatchUnicodeChar h (decoded s 0x31) 0x31 = some (t, false) := by
    unfold dispatchUnicodeChar dispatchCsiChar
    rw [start.state]
    dsimp only
    rw [stored]
    rfl
  refine ⟨t, t.decoder.utf8State, ?_, ht⟩
  unfold readFrom
  rw [decodeRound_accept hs.utf8 prev accept, codepoint, dispatched]
  rfl

theorem inCsi_overflows {h : Handlers} {k n prev : Nat} (hs : InCsi k s)
    (full : k + n = parserBufSz) :
    ∃ u, LoopDispatches h prev s (List.replicate n 0x31 ++ [0x6d]) u 0x6d ∧ Overflows u 0x6d := by
  induction n generalizing s k prev with
  | zero =>
    have final : decodeUtf8 utf8Accept s.decoder.utf8Codepoint 0x6d = (utf8Accept, 0x6d) := rfl
    exact ⟨_, .first (roundChar_ascii hs.utf8 hs.accept final), hs.state, hs.pos.trans full,
      by decide⟩
  | succ n ih =>
    obtain ⟨t, prev', byte, ht⟩ := inCsi_digit hs (by omega) prev (h := h)
    obtain ⟨u, event, overruns⟩ := ih ht (by omega)
    exact ⟨u, .later byte event, overruns⟩

/-- ESC, an opening bracket, as many digits as the buffer holds, and a final character. -/
def overlongCsi : Bytes := 0x1b :: 0x5b :: (List.replicate parserBufSz 0x31 ++ [0x6d])

/-- A CSI sequence whose parameters fill the buffer is written behind it. -/
theorem feed_overlong_csi :
    ¬ ((∃ t, feed {} [(overlongCsi, 0)] = some (.ok t) ∧ t.BufOk) ∧
      ∀ u c, FeedDispatches {} [(overlongCsi, 0)] u c → u.BufOk) := by
  have event : ∃ u, FeedDispatches {} [(overlongCsi, 0)] u 0x6d ∧ Overflows u 0x6d := by
    let h : Handlers := { dispatchHandlers with watch := fun s => s.pending.activatedAt ≠ 0 }
    have opened : InCsi 0 { parserState := .csi, decoder := { utf8Codepoint := 0x5b } } :=
      ⟨rfl, rfl, rfl, rfl, rfl⟩
    obtain ⟨u, event, overruns⟩ := inCsi_overflows (h := h) opened (Nat.zero_add _)
    have esc : readFrom h utf8Accept {} 0x1b =
        .ok ({ parserState := .esc, decoder := { utf8Codepoint := 0x1b } }, utf8Accept, false) := rfl
    have bracket : readFrom h utf8Accept
        { parserState := .esc, decoder := { utf8Codepoint := 0x1b } } 0x5b =
        .ok ({ parserState := .csi, decoder := { utf8Codepoint := 0x5b } }, utf8Accept, false) := rfl
    have loop : LoopDispatches h utf8Accept {} overlongCsi u 0x6d :=
      .later esc (.later bracket event)
    have begun : driverRound 0 { screen := {}, readBuf := overlongCsi } =
        .ok { screen := {}, readBuf := overlongCsi, state := .parseReadBuf } := rfl
    exact ⟨u, .here (.next begun (by simp [Driver.continues, overlongCsi]) (.here rfl loop)), overruns⟩
  obtain ⟨u, event, overruns⟩ := event
  obtain ⟨t, failed⟩ := feed_overflows newScreen_bufOk event overruns
  rintro ⟨⟨t', ended, -⟩, -⟩
  rw [failed] at ended
  cases ended

end Smelly
