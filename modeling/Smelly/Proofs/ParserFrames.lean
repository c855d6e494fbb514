/-
Module: Smelly.Proofs.ParserFrames
Purpose: What the handlers of the parser may change.  A property that survives the calls on the
  screen, changes of the parser's own buffer and changes of the pending mode survives every
  handler of both modes.
Trusted boundary: none
-/
import Smelly.Core.ParserLoop

namespace Smelly

namespace ParseScreen

/-- A property of the screen that no handler of normal mode can break, if calls and the parser's
own variables do not. -/
structure CallFrame (P : ParseScreen → Prop) : Prop where
  parser : ∀ {s : ParseScreen} (state : ParserState) (buf : List UInt32) (pos : Nat), P s →
    P { s with parserState := state, parserBuf := buf, parserBufPos := pos }
  emit : ∀ {s : ParseScreen} (command : Command), P s → P (s.emit command)

/-- A property that changes of the pending mode do not break either. -/
structure PendingFrame (P : ParseScreen → Prop) : Prop extends CallFrame P where
  pending : ∀ {s : ParseScreen} (pending : PendingMode) (clock : List Nat), P s →
    P { s with pending := pending, clock := clock }

variable {P : ParseScreen → Prop} {s t : ParseScreen}

namespace CallFrame

theorem setState (frame : CallFrame P) (h : P s) (state : ParserState) : P (s.setState state) :=
  frame.parser state [] 0 h

theorem emitAll (frame : CallFrame P) (h : P s) (commands : List Command) : P (s.emitAll commands) := by
  induction commands generalizing s with
  | nil => exact h
  | cons command rest ih => exact ih (frame.emit command h)

theorem setPos (frame : CallFrame P) (h : P s) (pos : Nat) : P { s with parserBufPos := pos } :=
  frame.parser s.parserState s.parserBuf pos h

theorem write (frame : CallFrame P) (h : P s) {i : Nat} {ch : UInt32} (hw : s.write i ch = some t) :
    P t := by
  unfold ParseScreen.write at hw
  split at hw
  · obtain rfl := Option.some.inj hw
    exact frame.parser s.parserState _ s.parserBufPos h
  · simp at hw

theorem push (frame : CallFrame P) (h : P s) {ch : UInt32} (hp : s.push ch = some t) : P t := by
  obtain ⟨written, hw, rest⟩ := Option.bind_eq_some_iff.1 hp
  obtain rfl := Option.some.inj rest
  exact frame.setPos (frame.write h hw) _

end CallFrame

namespace PendingFrame

theorem writePendingChar (frame : PendingFrame P) (h : P s) (ch : UInt32) : P (writePendingChar s ch) :=
  frame.pending _ s.clock h

theorem writePendingChars (frame : PendingFrame P) (h : P s) (text : Text) :
    P (writePendingChars s text) := by
  induction text generalizing s with
  | nil => exact h
  | cons ch rest ih => exact ih (frame.writePendingChar h ch)

theorem activatePending (frame : PendingFrame P) (h : P s) : P s.activatePending := frame.pending _ _ h

theorem deactivatePending (frame : PendingFrame P) (h : P s) : P s.deactivatePending :=
  frame.pending _ s.clock h

end PendingFrame

end ParseScreen

open ParseScreen

/-- Every handler keeps the property. -/
structure Handlers.Keeps (h : Handlers) (P : ParseScreen → Prop) : Prop where
  normal : ∀ {s : ParseScreen} (ch : UInt32), P s → P (h.normal s ch)
  esc : ∀ {s t : ParseScreen} {ch : UInt32}, P s → h.esc s ch = some t → P t
  csi : ∀ {s t : ParseScreen}, P s → h.csi s = some t → P t
  osc : ∀ {s t : ParseScreen}, P s → h.osc s = some t → P t
  dcs : ∀ {s t : ParseScreen}, P s → h.dcs s = some t → P t
  apc : ∀ {s t : ParseScreen}, P s → h.apc s = some t → P t
  pm : ∀ {s t : ParseScreen}, P s → h.pm s = some t → P t

variable {P : ParseScreen → Prop}

/-! ### The handlers of `_parse_bytes` -/

theorem dispatchNormalModeChar_keeps (frame : CallFrame P) {s : ParseScreen} (h : P s) (ch : UInt32) :
    P (dispatchNormalModeChar s ch) := by
  unfold dispatchNormalModeChar
  split
  · exact frame.setState h _
  · exact frame.emitAll h _

theorem dispatchEscModeChar_keeps (frame : CallFrame P) {s t : ParseScreen} {ch : UInt32} (h : P s)
    (he : dispatchEscModeChar s ch = some t) : P t := by
  unfold dispatchEscModeChar at he
  split at he
  · split at he
    · obtain rfl := Option.some.inj he
      exact frame.setState h _
    · split at he
      · exact frame.push h he
      · obtain rfl := Option.some.inj he
        exact frame.setState (frame.emitAll h _) _
  · obtain ⟨first, -, rest⟩ := Option.bind_eq_some_iff.1 he
    obtain rfl := Option.some.inj rest
    exact frame.setState (frame.emitAll h _) _

theorem dispatchCsi_keeps (frame : CallFrame P) {s t : ParseScreen} (h : P s)
    (hd : dispatchCsi s = some t) : P t := by
  obtain ⟨code, -, rest⟩ := Option.bind_eq_some_iff.1 hd
  obtain ⟨cells, -, rest⟩ := Option.bind_eq_some_iff.1 rest
  obtain rfl := Option.some.inj rest
  exact frame.emitAll h _

theorem continueOsc52_keeps (frame : CallFrame P) {s t : ParseScreen} (h : P s)
    (hd : continueOsc52 s = some t) : P t := by
  unfold continueOsc52 at hd
  obtain ⟨s1, h1, rest⟩ := Option.bind_eq_some_iff.1 hd
  obtain ⟨s2, h2, rest⟩ := Option.bind_eq_some_iff.1 rest
  obtain ⟨s3, h3, rest⟩ := Option.bind_eq_some_iff.1 rest
  obtain ⟨s4, h4, rest⟩ := Option.bind_eq_some_iff.1 rest
  obtain rfl := Option.some.inj rest
  exact frame.setPos
    (frame.write (frame.write (frame.write (frame.write h h1) h2) h3) h4) _

theorem dispatchOsc_keeps (frame : CallFrame P) {s t : ParseScreen} (h : P s)
    (hd : dispatchOsc s = some t) : P t := by
  obtain ⟨payload, -, rest⟩ := Option.bind_eq_some_iff.1 hd
  have emitted := frame.emitAll h (oscCommands (oscParts payload).1 (oscParts payload).2)
  dsimp only at rest
  split at rest
  · exact continueOsc52_keeps frame emitted rest
  · obtain rfl := Option.some.inj rest
    exact emitted

theorem dispatchDcs_keeps (frame : CallFrame P) {s t : ParseScreen} (h : P s)
    (hd : dispatchDcs s = some t) : P t := by
  obtain ⟨commands, -, rest⟩ := Option.bind_eq_some_iff.1 hd
  obtain rfl := Option.some.inj rest
  exact frame.emitAll h _

theorem dispatchApc_keeps (frame : CallFrame P) {s t : ParseScreen} (h : P s)
    (hd : dispatchApc s = some t) : P t := by
  unfold dispatchApc at hd
  split at hd
  · obtain rfl := Option.some.inj hd
    exact h
  · obtain ⟨first, -, rest⟩ := Option.bind_eq_some_iff.1 hd
    split at rest
    · obtain ⟨cells, -, rest⟩ := Option.bind_eq_some_iff.1 rest
      obtain rfl := Option.some.inj rest
      exact frame.emitAll h _
    · obtain rfl := Option.some.inj rest
      exact h

theorem dispatchPm_eq {s t : ParseScreen} (hd : dispatchPm s = some t) : t = s := by
  unfold dispatchPm at hd
  split at hd
  · exact (Option.some.inj hd).symm
  · obtain ⟨first, -, rest⟩ := Option.bind_eq_some_iff.1 hd
    exact (Option.some.inj rest).symm

theorem dispatchHandlers_keeps (frame : CallFrame P) (watch : ParseScreen → Bool) :
    { dispatchHandlers with watch := watch }.Keeps P where
  normal ch h := dispatchNormalModeChar_keeps frame h ch
  esc h he := dispatchEscModeChar_keeps frame h he
  csi h hd := dispatchCsi_keeps frame h hd
  osc h hd := dispatchOsc_keeps frame h hd
  dcs h hd := dispatchDcs_keeps frame h hd
  apc h hd := dispatchApc_keeps frame h hd
  pm h hd := by rw [dispatchPm_eq hd]; exact h

/-! ### The handlers of `queue_pending_bytes` -/

theorem pendingEscModeChar_keeps (frame : PendingFrame P) {s t : ParseScreen} {ch : UInt32} (h : P s)
    (he : pendingEscModeChar s ch = some t) : P t := by
  unfold pendingEscModeChar at he
  split at he
  · obtain ⟨last, -, rest⟩ := Option.bind_eq_some_iff.1 he
    obtain rfl := Option.some.inj rest
    exact frame.setState (frame.writePendingChars h _) _
  · split at he
    · obtain rfl := Option.some.inj he
      exact frame.setState h _
    · split at he
      · exact frame.push h he
      · obtain rfl := Option.some.inj he
        exact frame.setState (frame.writePendingChars h _) _

theorem pendingEscapeCode_keeps (frame : PendingFrame P) {s t : ParseScreen} {startCh endCh : UInt32}
    (h : P s) (hd : pendingEscapeCode s startCh endCh = some t) : P t := by
  obtain ⟨cells, -, rest⟩ := Option.bind_eq_some_iff.1 hd
  obtain rfl := Option.some.inj rest
  exact frame.writePendingChars h _

theorem pendingOsc_keeps (frame : PendingFrame P) {s t : ParseScreen} (h : P s)
    (hd : pendingOsc s = some t) : P t := by
  obtain ⟨cells, -, rest⟩ := Option.bind_eq_some_iff.1 hd
  obtain ⟨s1, h1, rest⟩ := Option.bind_eq_some_iff.1 rest
  have written := pendingEscapeCode_keeps frame h h1
  split at rest
  · exact continueOsc52_keeps frame.toCallFrame written rest
  · obtain rfl := Option.some.inj rest
    exact written

theorem pendingDcs_keeps (frame : PendingFrame P) {s t : ParseScreen} (h : P s)
    (hd : pendingDcs s = some t) : P t := by
  obtain ⟨cells, -, rest⟩ := Option.bind_eq_some_iff.1 hd
  split at rest
  · obtain rfl := Option.some.inj rest
    exact frame.activatePending (frame.activatePending h)
  · split at rest
    · obtain rfl := Option.some.inj rest
      exact frame.pending _ _ (frame.deactivatePending h)
    · exact pendingEscapeCode_keeps frame h rest

theorem pendingCsi_keeps (frame : PendingFrame P) {s t : ParseScreen} (h : P s)
    (hd : pendingCsi s = some t) : P t := by
  obtain ⟨code, -, rest⟩ := Option.bind_eq_some_iff.1 hd
  obtain ⟨cells, -, rest⟩ := Option.bind_eq_some_iff.1 rest
  split at rest
  · obtain rfl := Option.some.inj rest
    exact frame.activatePending h
  · split at rest
    · obtain rfl := Option.some.inj rest
      exact frame.pending _ _ (frame.deactivatePending h)
    · exact pendingEscapeCode_keeps frame h rest

theorem pendingHandlers_keeps (frame : PendingFrame P) : pendingHandlers.Keeps P where
  normal {s} ch h := by
    change P (pendingNormalModeChar s ch)
    unfold pendingNormalModeChar
    split
    · exact frame.setState h _
    · exact frame.writePendingChar h ch
  esc h he := pendingEscModeChar_keeps frame h he
  csi h hd := pendingCsi_keeps frame h hd
  osc h hd := pendingOsc_keeps frame h hd
  dcs h hd := pendingDcs_keeps frame h hd
  apc h hd := pendingEscapeCode_keeps frame h hd
  pm h hd := pendingEscapeCode_keeps frame h hd

/-! ### Accumulating and dispatching -/

theorem handleExtendedOscCode_keeps (frame : CallFrame P) {s t : ParseScreen} {extended : Bool}
    (h : P s) (ha : handleExtendedOscCode s = some (t, extended)) : P t := by
  obtain ⟨b0, -, rest⟩ := Option.bind_eq_some_iff.1 ha
  split at rest
  · obtain ⟨rfl, -⟩ := Prod.mk.inj (Option.some.inj rest)
    exact h
  · obtain ⟨b1, -, rest⟩ := Option.bind_eq_some_iff.1 rest
    split at rest
    · obtain ⟨rfl, -⟩ := Prod.mk.inj (Option.some.inj rest)
      exact h
    · obtain ⟨b2, -, rest⟩ := Option.bind_eq_some_iff.1 rest
      split at rest
      · obtain ⟨rfl, -⟩ := Prod.mk.inj (Option.some.inj rest)
        exact h
      · obtain ⟨s1, h1, rest⟩ := Option.bind_eq_some_iff.1 rest
        obtain ⟨s2, h2, rest⟩ := Option.bind_eq_some_iff.1 rest
        obtain ⟨rfl, -⟩ := Prod.mk.inj (Option.some.inj rest)
        exact frame.write (frame.write h h1) h2

theorem accumulateOsc_keeps (frame : CallFrame P) {s t : ParseScreen} {ch : UInt32}
    {result : Bool × Bool} (h : P s) (ha : accumulateOsc s ch = some (t, result)) : P t := by
  unfold accumulateOsc at ha
  split at ha
  · obtain ⟨rfl, -⟩ := Prod.mk.inj (Option.some.inj ha)
    exact h
  · split at ha
    · obtain ⟨rfl, -⟩ := Prod.mk.inj (Option.some.inj ha)
      exact h
    · obtain ⟨closes, -, rest⟩ := Option.bind_eq_some_iff.1 ha
      split at rest
      · obtain ⟨rfl, -⟩ := Prod.mk.inj (Option.some.inj rest)
        exact frame.setPos h _
      · split at rest
        · obtain ⟨⟨s1, extended⟩, h1, rest⟩ := Option.bind_eq_some_iff.1 rest
          obtain ⟨rfl, -⟩ := Prod.mk.inj (Option.some.inj rest)
          exact handleExtendedOscCode_keeps frame h h1
        · obtain ⟨s1, h1, rest⟩ := Option.bind_eq_some_iff.1 rest
          obtain ⟨rfl, -⟩ := Prod.mk.inj (Option.some.inj rest)
          exact frame.push h h1

theorem accumulateDcs_keeps (frame : CallFrame P) {s t : ParseScreen} {ch : UInt32} {done : Bool}
    (h : P s) (ha : accumulateDcs s ch = some (t, done)) : P t := by
  unfold accumulateDcs at ha
  split at ha
  · obtain ⟨rfl, -⟩ := Prod.mk.inj (Option.some.inj ha)
    exact h
  · split at ha
    · obtain ⟨rfl, -⟩ := Prod.mk.inj (Option.some.inj ha)
      exact h
    · split at ha
      · obtain ⟨escaped, -, rest⟩ := Option.bind_eq_some_iff.1 ha
        split at rest
        · split at rest
          · obtain ⟨rfl, -⟩ := Prod.mk.inj (Option.some.inj rest)
            exact frame.setPos h _
          · obtain ⟨rfl, -⟩ := Prod.mk.inj (Option.some.inj rest)
            exact frame.setState h _
        · split at rest
          · obtain ⟨rfl, -⟩ := Prod.mk.inj (Option.some.inj rest)
            exact h
          · obtain ⟨s1, h1, rest⟩ := Option.bind_eq_some_iff.1 rest
            obtain ⟨rfl, -⟩ := Prod.mk.inj (Option.some.inj rest)
            exact frame.push h h1
      · obtain ⟨rfl, -⟩ := Prod.mk.inj (Option.some.inj ha)
        exact h

theorem accumulateOth_keeps (frame : CallFrame P) {s t : ParseScreen} {ch : UInt32} {done : Bool}
    (h : P s) (ha : accumulateOth s ch = some (t, done)) : P t := by
  unfold accumulateOth at ha
  split at ha
  · obtain ⟨rfl, -⟩ := Prod.mk.inj (Option.some.inj ha)
    exact h
  · split at ha
    · obtain ⟨rfl, -⟩ := Prod.mk.inj (Option.some.inj ha)
      exact h
    · obtain ⟨closes, -, rest⟩ := Option.bind_eq_some_iff.1 ha
      split at rest
      · obtain ⟨rfl, -⟩ := Prod.mk.inj (Option.some.inj rest)
        exact frame.setPos h _
      · split at rest
        · obtain ⟨rfl, -⟩ := Prod.mk.inj (Option.some.inj rest)
          exact h
        · obtain ⟨s1, h1, rest⟩ := Option.bind_eq_some_iff.1 rest
          obtain ⟨rfl, -⟩ := Prod.mk.inj (Option.some.inj rest)
          exact frame.push h h1

theorem csiPush_keeps (frame : CallFrame P) {s t : ParseScreen} {ch : UInt32} (h : P s)
    (hp : csiPush s ch = some t) : P t := by
  unfold csiPush at hp
  split at hp
  · obtain rfl := Option.some.inj hp
    exact frame.setState h _
  · exact frame.push h hp

theorem accumulateCsi_keeps (frame : CallFrame P) {s t : ParseScreen} {ch : UInt32} {done : Bool}
    (h : P s) (ha : accumulateCsi s ch = some (t, done)) : P t := by
  unfold accumulateCsi at ha
  split at ha
  · obtain ⟨s1, h1, rest⟩ := Option.bind_eq_some_iff.1 ha
    obtain ⟨rfl, -⟩ := Prod.mk.inj (Option.some.inj rest)
    exact csiPush_keeps frame h h1
  · split at ha
    · split at ha
      · obtain ⟨rfl, -⟩ := Prod.mk.inj (Option.some.inj ha)
        exact frame.setState h _
      · obtain ⟨s1, h1, rest⟩ := Option.bind_eq_some_iff.1 ha
        obtain ⟨rfl, -⟩ := Prod.mk.inj (Option.some.inj rest)
        exact csiPush_keeps frame h h1
    · split at ha
      · obtain ⟨s1, h1, rest⟩ := Option.bind_eq_some_iff.1 ha
        obtain ⟨rfl, -⟩ := Prod.mk.inj (Option.some.inj rest)
        exact frame.write h h1
      · split at ha
        · obtain ⟨rfl, -⟩ := Prod.mk.inj (Option.some.inj ha)
          exact dispatchNormalModeChar_keeps frame h ch
        · obtain ⟨rfl, -⟩ := Prod.mk.inj (Option.some.inj ha)
          exact frame.setState h _

theorem dispatchString_keeps (frame : CallFrame P) {handler : ParseScreen → Option ParseScreen}
    (keeps : ∀ {s t : ParseScreen}, P s → handler s = some t → P t) {s t : ParseScreen} (h : P s)
    (hd : dispatchString handler s = some t) : P t := by
  obtain ⟨s1, h1, rest⟩ := Option.bind_eq_some_iff.1 hd
  obtain rfl := Option.some.inj rest
  exact frame.setState (keeps h h1) _

theorem dispatchCsiChar_keeps {h : Handlers} (keeps : h.Keeps P) (frame : CallFrame P)
    {s t : ParseScreen} {ch : UInt32} {stop : Bool} (hs : P s)
    (hd : dispatchCsiChar h s ch = some (t, stop)) : P t := by
  obtain ⟨⟨s1, done⟩, h1, rest⟩ := Option.bind_eq_some_iff.1 hd
  have accumulated := accumulateCsi_keeps frame hs h1
  dsimp only at rest
  split at rest
  · obtain ⟨s2, h2, rest⟩ := Option.bind_eq_some_iff.1 rest
    obtain ⟨rfl, -⟩ := Prod.mk.inj (Option.some.inj rest)
    exact dispatchString_keeps frame keeps.csi accumulated h2
  · obtain ⟨rfl, -⟩ := Prod.mk.inj (Option.some.inj rest)
    exact accumulated

theorem dispatchOscChar_keeps {h : Handlers} (keeps : h.Keeps P) (frame : CallFrame P)
    {s t : ParseScreen} {ch : UInt32} (hs : P s) (hd : dispatchOscChar h s ch = some t) : P t := by
  obtain ⟨⟨s1, done, extended⟩, h1, rest⟩ := Option.bind_eq_some_iff.1 hd
  have accumulated := accumulateOsc_keeps frame hs h1
  dsimp only at rest
  split at rest
  · split at rest
    · obtain ⟨s2, h2, rest⟩ := Option.bind_eq_some_iff.1 rest
      obtain ⟨⟨s3, done, extended⟩, h3, rest⟩ := Option.bind_eq_some_iff.1 rest
      have continued := accumulateOsc_keeps frame (keeps.osc accumulated h2) h3
      dsimp only at rest
      split at rest
      · exact dispatchString_keeps frame keeps.osc continued rest
      · obtain rfl := Option.some.inj rest
        exact continued
    · exact dispatchString_keeps frame keeps.osc accumulated rest
  · obtain rfl := Option.some.inj rest
    exact accumulated

theorem dispatchOthChar_keeps (frame : CallFrame P) {handler : ParseScreen → Option ParseScreen}
    (keeps : ∀ {s t : ParseScreen}, P s → handler s = some t → P t) {s t : ParseScreen}
    {ch : UInt32} (hs : P s) (hd : dispatchOthChar handler s ch = some t) : P t := by
  obtain ⟨⟨s1, done⟩, h1, rest⟩ := Option.bind_eq_some_iff.1 hd
  have accumulated := accumulateOth_keeps frame hs h1
  dsimp only at rest
  split at rest
  · exact dispatchString_keeps frame keeps accumulated rest
  · obtain rfl := Option.some.inj rest
    exact accumulated

theorem dispatchDcsChar_keeps {h : Handlers} (keeps : h.Keeps P) (frame : CallFrame P)
    {s t : ParseScreen} {ch : UInt32} {stop : Bool} (hs : P s)
    (hd : dispatchDcsChar h s ch = some (t, stop)) : P t := by
  obtain ⟨⟨s1, done⟩, h1, rest⟩ := Option.bind_eq_some_iff.1 hd
  have accumulated := accumulateDcs_keeps frame hs h1
  dsimp only at rest
  split at rest
  · obtain ⟨s2, h2, rest⟩ := Option.bind_eq_some_iff.1 rest
    obtain ⟨rfl, -⟩ := Prod.mk.inj (Option.some.inj rest)
    exact dispatchString_keeps frame keeps.dcs accumulated h2
  · split at rest
    · obtain ⟨s2, h2, rest⟩ := Option.bind_eq_some_iff.1 rest
      obtain ⟨rfl, -⟩ := Prod.mk.inj (Option.some.inj rest)
      exact keeps.esc accumulated h2
    · obtain ⟨rfl, -⟩ := Prod.mk.inj (Option.some.inj rest)
      exact accumulated

/-- Dispatching one character keeps what the handlers keep. -/
theorem dispatchUnicodeChar_keeps {h : Handlers} (keeps : h.Keeps P) (frame : CallFrame P)
    {s t : ParseScreen} {ch : UInt32} {stop : Bool} (hs : P s)
    (hd : dispatchUnicodeChar h s ch = some (t, stop)) : P t := by
  unfold dispatchUnicodeChar at hd
  split at hd
  · obtain ⟨s1, h1, rest⟩ := Option.map_eq_some_iff.1 hd
    obtain ⟨rfl, -⟩ := Prod.mk.inj rest
    exact keeps.esc hs h1
  · exact dispatchCsiChar_keeps keeps frame hs hd
  · obtain ⟨s1, h1, rest⟩ := Option.map_eq_some_iff.1 hd
    obtain ⟨rfl, -⟩ := Prod.mk.inj rest
    exact dispatchOscChar_keeps keeps frame hs h1
  · obtain ⟨s1, h1, rest⟩ := Option.map_eq_some_iff.1 hd
    obtain ⟨rfl, -⟩ := Prod.mk.inj rest
    exact dispatchOthChar_keeps frame keeps.apc hs h1
  · obtain ⟨s1, h1, rest⟩ := Option.map_eq_some_iff.1 hd
    obtain ⟨rfl, -⟩ := Prod.mk.inj rest
    exact dispatchOthChar_keeps frame keeps.pm hs h1
  · exact dispatchDcsChar_keeps keeps frame hs hd
  · obtain ⟨rfl, -⟩ := Prod.mk.inj (Option.some.inj hd)
    exact keeps.normal ch hs

end Smelly
