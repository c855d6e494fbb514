/-
Module: Smelly.Proofs.ParserDriver
Purpose: The loops around the handlers: what the decoding loop and the driver keep when the
  handlers keep it, and that the rounds given to the driver suffice.
Trusted boundary: none
-/
import Smelly.Proofs.ParserFrames

namespace Smelly

open ParseScreen

/-- A property that no handler of either mode can break, and the decoder neither. -/
structure ParseScreen.LoopFrame (P : ParseScreen → Prop) : Prop extends PendingFrame P where
  decoder : ∀ {s : ParseScreen} (decoder : Decoder), P s → P { s with decoder := decoder }

/-- The property holds of the screen a computation ends with, be it by an access outside of
`parser_buf`. -/
def EndsIn {α : Type} (P : ParseScreen → Prop) (screen : α → ParseScreen) :
    Except ParseScreen α → Prop
  | .error s => P s
  | .ok result => P (screen result)

variable {P : ParseScreen → Prop}

theorem EndsIn.bind {α β : Type} {screen : α → ParseScreen} {screen' : β → ParseScreen}
    {first : Except ParseScreen α} {next : α → Except ParseScreen β} (h : EndsIn P screen first)
    (hnext : ∀ result, P (screen result) → EndsIn P screen' (next result)) :
    EndsIn P screen' (first >>= next) := by
  cases first with
  | error s => exact h
  | ok result => exact hnext result h

theorem except_bind_eq_ok {α β ε : Type} {first : Except ε α} {next : α → Except ε β} {result : β}
    (h : (first >>= next) = .ok result) : ∃ a, first = .ok a ∧ next a = .ok result := by
  cases first with
  | error e => cases h
  | ok a => exact ⟨a, rfl, h⟩

/-! ### The decoding loop -/

theorem decodeRound_keeps {h : Handlers} (keeps : h.Keeps P) (frame : CallFrame P)
    (decoder : ∀ {s : ParseScreen} (decoder : Decoder), P s → P { s with decoder := decoder })
    {prev prev' : Nat} {s t : ParseScreen} {ch : UInt8} {next : NextByte} (hs : P s)
    (hround : decodeRound h prev s ch = some (t, prev', next)) : P t := by
  unfold decodeRound at hround
  split at hround
  · obtain ⟨⟨s1, stop⟩, h1, rest⟩ := Option.bind_eq_some_iff.1 hround
    obtain ⟨rfl, -⟩ := Prod.mk.inj (Option.some.inj rest)
    exact dispatchUnicodeChar_keeps keeps frame hs h1
  · dsimp only at hround
    split at hround
    · obtain ⟨⟨s1, stop⟩, h1, rest⟩ := Option.bind_eq_some_iff.1 hround
      obtain ⟨rfl, -⟩ := Prod.mk.inj (Option.some.inj rest)
      exact dispatchUnicodeChar_keeps keeps frame (decoder _ hs) h1
    · split at hround
      · obtain ⟨rfl, -⟩ := Prod.mk.inj (Option.some.inj hround)
        exact decoder _ hs
      · obtain ⟨rfl, -⟩ := Prod.mk.inj (Option.some.inj hround)
        exact decoder _ hs

/-- The decoding loop keeps what its rounds keep. -/
theorem decodeLoop_endsIn {h : Handlers}
    (round : ∀ {prev prev' : Nat} {s t : ParseScreen} {ch : UInt8} {next : NextByte}, P s →
      decodeRound h prev s ch = some (t, prev', next) → P t)
    {s : ParseScreen} (hs : P s) (prev : Nat) (bytes : Bytes) :
    EndsIn P Prod.fst (decodeLoop h prev s bytes) := by
  induction bytes generalizing s prev with
  | nil => exact hs
  | cons ch rest ih =>
    unfold decodeLoop
    split
    · exact hs
    · rename_i hround
      exact ih (round hs hround) _
    · rename_i hround
      exact round hs hround
    · rename_i hround
      have again := round hs hround
      split
      · exact again
      · rename_i hround
        exact round again hround
      · rename_i hround
        exact ih (round again hround) _

/-- The decoding loop keeps what its handlers keep. -/
theorem decodeLoop_keeps {h : Handlers} (keeps : h.Keeps P) (frame : CallFrame P)
    (decoder : ∀ {s : ParseScreen} (decoder : Decoder), P s → P { s with decoder := decoder })
    {s : ParseScreen} (hs : P s) (prev : Nat) (bytes : Bytes) :
    EndsIn P Prod.fst (decodeLoop h prev s bytes) :=
  decodeLoop_endsIn (decodeRound_keeps keeps frame decoder) hs prev bytes

/-- The bytes that a loop leaves are bytes it was given, and it takes the first of them. -/
theorem decodeLoop_rest {h : Handlers} {prev : Nat} {s t : ParseScreen} {bytes rest : Bytes}
    (hloop : decodeLoop h prev s bytes = .ok (t, rest)) :
    rest.length ≤ bytes.length - 1 := by
  induction bytes generalizing s prev with
  | nil => obtain ⟨-, rfl⟩ := Prod.mk.inj (Except.ok.inj hloop); simp
  | cons ch bytes ih =>
    have tail : ∀ {prev s}, decodeLoop h prev s bytes = .ok (t, rest) →
        rest.length ≤ bytes.length := fun hloop => Nat.le_trans (ih hloop) (Nat.sub_le _ _)
    simp only [List.length_cons, Nat.add_sub_cancel]
    unfold decodeLoop at hloop
    split at hloop
    · cases hloop
    · exact tail hloop
    · obtain ⟨-, rfl⟩ := Prod.mk.inj (Except.ok.inj hloop)
      exact Nat.le_refl _
    · split at hloop
      · cases hloop
      · obtain ⟨-, rfl⟩ := Prod.mk.inj (Except.ok.inj hloop)
        exact Nat.le_refl _
      · exact tail hloop

/-! ### The driver -/

/-- A property that survives what the driver does besides the loops, and the loops. -/
structure DriverFrame (P : ParseScreen → Prop) : Prop where
  replay : ∀ {s : ParseScreen} (state : ParserState), P s → P { s with parserState := state }
  pending : ∀ {s : ParseScreen} (pending : PendingMode), P s → P { s with pending := pending }
  dispatching : ∀ (watch : ParseScreen → Bool) {s : ParseScreen} (bytes : Bytes), P s →
    EndsIn P Prod.fst
      (decodeLoop { dispatchHandlers with watch := watch } s.decoder.utf8State s bytes)
  queueing : ∀ {s : ParseScreen} (bytes : Bytes), P s →
    EndsIn P Prod.fst (queuePendingBytes s bytes)

theorem ParseScreen.LoopFrame.driverFrame (frame : LoopFrame P) : DriverFrame P where
  replay state h := frame.parser state _ _ h
  pending pending h := frame.pending pending _ h
  dispatching watch _ _ h :=
    decodeLoop_keeps (dispatchHandlers_keeps frame.toCallFrame watch) frame.toCallFrame frame.decoder h _ _
  queueing _ h :=
    decodeLoop_keeps (pendingHandlers_keeps frame.toPendingFrame) frame.toCallFrame frame.decoder h _ _

/-- Writing into the pending buffer changes nothing but the pending mode. -/
theorem writePendingChars_eq (s : ParseScreen) (text : Text) :
    ∃ pending, writePendingChars s text = { s with pending := pending } := by
  induction text generalizing s with
  | nil => exact ⟨s.pending, rfl⟩
  | cons ch rest ih =>
    obtain ⟨pending, heq⟩ := ih (writePendingChar s ch)
    exact ⟨pending, heq⟩

/-- Leaving pending mode changes nothing else, and switches it off. -/
theorem leavePending_eq {s t : ParseScreen} (h : leavePending s = some t) :
    ∃ pending : PendingMode, t = { s with pending := pending } ∧ pending.activatedAt = 0 := by
  obtain ⟨dumped, hdump, rest⟩ := Option.bind_eq_some_iff.1 h
  obtain rfl := Option.some.inj rest
  unfold dumpPartialEscapeCodeToPending at hdump
  split at hdump
  · obtain rfl := Option.some.inj hdump
    exact ⟨_, rfl, rfl⟩
  · obtain ⟨cells, -, rest⟩ := Option.bind_eq_some_iff.1 hdump
    obtain rfl := Option.some.inj rest
    obtain ⟨pending, heq⟩ := writePendingChars_eq s (s.parserState.code :: cells)
    rw [heq]
    exact ⟨_, rfl, rfl⟩

theorem leavePending_keeps (frame : DriverFrame P) {s : ParseScreen} (hs : P s) {d : Driver} :
    EndsIn P Driver.screen (match leavePending s with
      | none => .error s
      | some t => .ok { d with screen := t, state := .start }) := by
  cases hleave : leavePending s with
  | none => exact hs
  | some t =>
    obtain ⟨pending, rfl, -⟩ := leavePending_eq hleave
    exact frame.pending pending hs

/-- What the loops keep holds of the screen after a round of the driver. -/
theorem driverRound_keeps (frame : DriverFrame P) {now : Nat} {d : Driver} (hd : P d.screen) :
    EndsIn P Driver.screen (driverRound now d) := by
  unfold driverRound
  dsimp only
  split
  · split
    · split
      · exact leavePending_keeps frame hd
      · exact hd
    · exact hd
  · exact (frame.dispatching _ _ (frame.replay _ hd)).bind
      fun result hresult => frame.pending _ hresult
  · exact (frame.dispatching _ _ (frame.pending _ hd)).bind fun result hresult => hresult
  · have started := frame.pending { d.screen.pending with stopEscapeCodeType := .normal } hd
    split
    · exact leavePending_keeps frame started
    · exact (frame.queueing _ started).bind fun result hresult => hresult

/-- What the loops keep holds of the screen after the driver. -/
theorem driverLoop_keeps (frame : DriverFrame P) {now : Nat} (rounds : Nat) {d : Driver}
    {outcome : Except ParseScreen ParseScreen} (hd : P d.screen)
    (hloop : driverLoop now rounds d = some outcome) : EndsIn P id outcome := by
  induction rounds generalizing d with
  | zero => cases hloop
  | succ rounds ih =>
    unfold driverLoop at hloop
    have kept : EndsIn P Driver.screen (driverRound now d) := driverRound_keeps frame hd
    split at hloop
    · rename_i hround
      obtain rfl := Option.some.inj hloop
      rw [hround] at kept
      exact kept
    · rename_i d' hround
      rw [hround] at kept
      split at hloop
      · exact ih kept hloop
      · obtain rfl := Option.some.inj hloop
        exact kept

/-! ### The rounds of the driver -/

/-- How many rounds the driver makes at most in a state before it takes a byte. -/
def Driver.phase (d : Driver) : Nat :=
  match d.state with
  | .start =>
    if d.screen.pending.activatedAt ≠ 0 then 6 else if d.screen.pending.buf ≠ [] then 4 else 2
  | .queuePending => 5
  | .parsePending => 3
  | .parseReadBuf => 1

/-- A bound on the rounds to come. -/
def Driver.measure (d : Driver) : Nat := 6 * d.readBuf.length + d.phase

/-- What holds of the variables in each state of the driver. -/
def Driver.Consistent (d : Driver) : Prop :=
  (d.state = .queuePending → d.screen.pending.activatedAt ≠ 0) ∧
    (d.state = .parseReadBuf → d.screen.pending.buf = [])

theorem leavePending_activatedAt {s t : ParseScreen} (h : leavePending s = some t) :
    t.pending.activatedAt = 0 := by
  obtain ⟨pending, rfl, inactive⟩ := leavePending_eq h
  exact inactive

theorem phase_le (d : Driver) : d.phase ≤ 6 := by
  unfold Driver.phase
  repeat' split
  all_goals omega

theorem phase_start {d : Driver} (state : d.state = .start)
    (inactive : d.screen.pending.activatedAt = 0) : d.phase ≤ 4 := by
  unfold Driver.phase
  rw [state]
  dsimp only
  rw [if_neg (by simp [inactive])]
  split <;> omega

theorem consistent_start {d : Driver} (state : d.state = .start) : d.Consistent := by
  constructor <;> simp [state]

/-- After a pass over the bytes a byte is gone. -/
theorem measure_pass {d : Driver} (d' : Driver) {s t : ParseScreen} {h : Handlers} {prev : Nat}
    (hloop : decodeLoop h prev s d.readBuf = .ok (t, d'.readBuf)) (nonempty : d.readBuf ≠ []) :
    d'.measure ≤ 6 * d.readBuf.length := by
  have taken := decodeLoop_rest hloop
  have positive := List.length_pos_iff.2 nonempty
  have := phase_le d'
  unfold Driver.measure
  omega

/-- A round of the driver brings it nearer to its end. -/
theorem driverRound_decreases {now : Nat} {d d' : Driver} (consistent : d.Consistent)
    (hround : driverRound now d = .ok d') :
    d'.Consistent ∧ (d'.measure < d.measure ∨ d'.continues = false) := by
  unfold driverRound at hround
  cases state : d.state with
  | start =>
    rw [state] at hround
    dsimp only at hround
    split at hround
    · rename_i active
      have phase : d.phase = 6 := by simp [Driver.phase, state, active]
      split at hround
      · cases hleave : leavePending d.screen with
        | none => rw [hleave] at hround; cases hround
        | some t =>
          rw [hleave] at hround
          cases hround
          have := phase_start (rfl : ({ d with screen := t, state := .start } : Driver).state = .start)
            (leavePending_activatedAt hleave)
          refine ⟨consistent_start rfl, Or.inl ?_⟩
          simp only [Driver.measure]
          omega
      · cases hround
        refine ⟨⟨fun _ => active, fun h => by cases h⟩, Or.inl ?_⟩
        simp only [Driver.measure, phase]
        simp [Driver.phase]
    · rename_i inactive
      cases hround
      by_cases hbuf : d.screen.pending.buf = []
      · refine ⟨⟨fun h => by simp [hbuf] at h, fun _ => hbuf⟩, Or.inl ?_⟩
        simp [Driver.measure, Driver.phase, state, hbuf, inactive]
      · refine ⟨⟨fun h => by simp [hbuf] at h, fun h => by simp [hbuf] at h⟩, Or.inl ?_⟩
        simp [Driver.measure, Driver.phase, state, hbuf, inactive]
  | parsePending =>
    rw [state] at hround
    obtain ⟨⟨t, rest⟩, -, hround⟩ := except_bind_eq_ok hround
    cases hround
    refine ⟨consistent_start rfl, Or.inl ?_⟩
    simp [Driver.measure, Driver.phase, state]
  | parseReadBuf =>
    rw [state] at hround
    obtain ⟨⟨t, rest⟩, hloop, hround⟩ := except_bind_eq_ok hround
    cases hround
    refine ⟨consistent_start rfl, ?_⟩
    by_cases nonempty : d.readBuf = []
    · right
      rw [nonempty] at hloop
      cases hloop
      have empty : d.screen.deactivatePending.pending.buf = [] := consistent.2 state
      simp [Driver.continues, empty]
    · left
      have passed := measure_pass { d with screen := t, readBuf := rest, state := .start }
        hloop nonempty
      have : d.phase = 1 := by simp [Driver.phase, state]
      unfold Driver.measure at passed ⊢
      omega
  | queuePending =>
    rw [state] at hround
    have phase : d.phase = 5 := by simp [Driver.phase, state]
    dsimp only at hround
    split at hround
    · split at hround
      · cases hround
      · rename_i t hleave
        cases hround
        have := phase_start (rfl : ({ d with screen := t, state := .start } : Driver).state = .start)
          (leavePending_activatedAt hleave)
        refine ⟨consistent_start rfl, Or.inl ?_⟩
        simp only [Driver.measure]
        omega
    · obtain ⟨⟨t, rest⟩, hloop, hround⟩ := except_bind_eq_ok hround
      cases hround
      refine ⟨consistent_start rfl, ?_⟩
      by_cases nonempty : d.readBuf = []
      · right
        rw [nonempty] at hloop
        cases hloop
        have active := consistent.1 state
        simp [Driver.continues, active]
      · left
        have passed := measure_pass (Driver.mk t rest .start
          (if d.screen.pending.buf = [] then d.screen.parserState
            else d.parserStateAtStartOfPending)) hloop nonempty
        unfold Driver.measure at passed ⊢
        dsimp only at passed ⊢
        omega

theorem driverLoop_isSome {now : Nat} {d : Driver} (consistent : d.Consistent) {rounds : Nat}
    (enough : d.measure < rounds) : (driverLoop now rounds d).isSome := by
  induction rounds generalizing d with
  | zero => omega
  | succ rounds ih =>
    unfold driverLoop
    split
    · rfl
    · rename_i d' hround
      obtain ⟨consistent', decreases⟩ := driverRound_decreases consistent hround
      split
      · rename_i continues
        cases decreases with
        | inl less => exact ih consistent' (by omega)
        | inr ends => rw [ends] at continues; cases continues
      · rfl

/-- The driver ends on every input. -/
theorem doParseBytes_isSome (s : ParseScreen) (bytes : Bytes) (now : Nat) :
    (doParseBytes s bytes now).isSome := by
  refine driverLoop_isSome (consistent_start rfl) ?_
  have := phase_le { screen := s, readBuf := bytes }
  unfold Driver.measure
  dsimp only
  omega

end Smelly
