/-
Module: Smelly.Proofs.RewrapSimulation
Purpose: Two destinations that answer the macros of `rewrap_inner` alike are filled alike.  A line
  buffer is reflowed without a history as it is with one.
Trusted boundary: none
-/
import Smelly.Core.Rewrap

namespace Smelly

open Checked

variable {Src Dest : Type} {m : RewrapMacros Src Dest} {R : Dest → Dest → Prop}

/-- Every macro that succeeds on a destination does so on a related one, with the same answer. -/
structure AnswersAlike (m : RewrapMacros Src Dest) (R : Dest → Dest → Prop) : Prop where
  destXnum : ∀ {d e}, R d e → m.destXnum e = m.destXnum d
  destY : ∀ {d e}, R d e → m.destY e = m.destY d
  first : ∀ {d e d' attrs attrs'}, R d e → m.firstDestLine d attrs = some (d', attrs') →
    ∃ e', m.firstDestLine e attrs = some (e', attrs') ∧ R d' e'
  next : ∀ {d e d' continued attrs attrs'}, R d e →
    m.nextDestLine d continued attrs = some (d', attrs') →
    ∃ e', m.nextDestLine e continued attrs = some (e', attrs') ∧ R d' e'
  copy : ∀ {d e d' operation}, R d e → m.onDestLine d operation = some d' →
    ∃ e', m.onDestLine e operation = some e' ∧ R d' e'

theorem startLine_follows (h : AnswersAlike m R) {st st' : RewrapState Src Dest} {e : Dest}
    (related : R st.dest e) {continued : Bool} (run : m.startLine st continued = some st') :
    ∃ e', m.startLine { st with dest := e } continued = some { st' with dest := e' } ∧
      R st'.dest e' := by
  unfold RewrapMacros.startLine at run ⊢
  obtain ⟨⟨d', attrs'⟩, nextEq, run⟩ := Option.bind_eq_some_iff.1 run
  obtain ⟨e', nextEq', related'⟩ := h.next related nextEq
  cases run
  exact ⟨e', by simp [nextEq'], related'⟩

theorem wrapDest_follows (h : AnswersAlike m R) {st st' : RewrapState Src Dest} {e : Dest}
    (related : R st.dest e) (run : m.wrapDest st = some st') :
    ∃ e', m.wrapDest { st with dest := e } = some { st' with dest := e' } ∧ R st'.dest e' := by
  unfold RewrapMacros.wrapDest at run ⊢
  dsimp only
  rw [h.destXnum related]
  split at run
  · rename_i full
    rw [if_pos full]
    exact startLine_follows h related run
  · rename_i room
    rw [if_neg room]
    cases run
    exact ⟨e, rfl, related⟩

theorem copyCells_follows (h : AnswersAlike m R) {limit fuel srcX : Nat}
    {st st' : RewrapState Src Dest} {e : Dest} (related : R st.dest e)
    (run : m.copyCells limit fuel srcX st = some st') :
    ∃ e', m.copyCells limit fuel srcX { st with dest := e } = some { st' with dest := e' } ∧
      R st'.dest e' := by
  induction fuel generalizing srcX st e with
  | zero =>
    unfold RewrapMacros.copyCells at run ⊢
    split at run
    · cases run
    · cases run
      exact ⟨e, if_neg ‹_›, related⟩
  | succ fuel ih =>
    unfold RewrapMacros.copyCells at run ⊢
    by_cases more : srcX < limit
    · rw [if_pos more] at run ⊢
      obtain ⟨st1, wrapEq, run⟩ := Option.bind_eq_some_iff.1 run
      obtain ⟨d2, copyEq, run⟩ := Option.bind_eq_some_iff.1 run
      obtain ⟨e1, wrapEq', related1⟩ := wrapDest_follows h related wrapEq
      obtain ⟨e2, copyEq', related2⟩ := h.copy related1 copyEq
      obtain ⟨e', run', related'⟩ := ih (e := e2) related2 run
      refine ⟨e', ?_, related'⟩
      rw [wrapEq']
      dsimp only [Option.bind_eq_bind, Option.bind_some]
      rw [h.destXnum related1, h.destY related1, copyEq']
      exact run'
    · rw [if_neg more] at run ⊢
      cases run
      exact ⟨e, rfl, related⟩

/-- Reading a source line does not look at the destination. -/
theorem openSrcLine_dest (st : RewrapState Src Dest) (e : Dest) (srcY : Nat) :
    m.openSrcLine { st with dest := e } srcY =
      (m.openSrcLine st srcY).map fun (st', continued, limit) =>
        ({ st' with dest := e }, continued, limit) := by
  unfold RewrapMacros.openSrcLine
  cases m.initSrcLine st.src srcY with
  | none => rfl
  | some line =>
    dsimp only [Option.bind_eq_bind, Option.bind_some]
    cases line.cells[m.srcXnum st.src - 1]? with
    | none => rfl
    | some last =>
      dsimp only [Option.bind_some]
      split
      · cases m.clearSrcWrapped st.src srcY with
        | none => rfl
        | some src =>
          dsimp only [Option.bind_some]
          cases setAt line.cells (m.srcXnum st.src - 1) (last.setWrapped false) <;> rfl
      · cases trimmedLimit line.cells (m.srcXnum st.src) <;> rfl

theorem openSrcLine_keeps {st st' : RewrapState Src Dest} {srcY limit : Nat} {continued : Bool}
    (run : m.openSrcLine st srcY = some (st', continued, limit)) : st'.dest = st.dest := by
  have same := openSrcLine_dest (m := m) st st.dest srcY
  have eta : ({ st with dest := st.dest } : RewrapState Src Dest) = st := rfl
  rw [eta, run, Option.map_some, Option.some.injEq, Prod.mk.injEq] at same
  rw [same.1]

theorem startDest_follows (h : AnswersAlike m R) {st st' : RewrapState Src Dest} {e : Dest}
    (related : R st.dest e) (run : m.startDest st = some st') :
    ∃ e', m.startDest { st with dest := e } = some { st' with dest := e' } ∧ R st'.dest e' := by
  unfold RewrapMacros.startDest at run ⊢
  dsimp only
  split at run
  · rename_i first
    obtain ⟨⟨d', attrs'⟩, firstEq, run⟩ := Option.bind_eq_some_iff.1 run
    obtain ⟨e', firstEq', related'⟩ := h.first related firstEq
    cases run
    exact ⟨e', by simp [first, firstEq'], related'⟩
  · rename_i later
    rw [if_neg later]
    cases run
    exact ⟨e, rfl, related⟩

theorem closeSrcLine_follows (h : AnswersAlike m R) {srcLimit srcY : Nat} {continued : Bool}
    {st st' : RewrapState Src Dest} {e : Dest} (related : R st.dest e)
    (run : m.closeSrcLine srcLimit srcY continued st = some st') :
    ∃ e', m.closeSrcLine srcLimit srcY continued { st with dest := e } =
        some { st' with dest := e' } ∧ R st'.dest e' := by
  unfold RewrapMacros.closeSrcLine at run ⊢
  split at run
  · rename_i hard
    rw [if_pos hard]
    obtain ⟨line, initEq, run⟩ := Option.bind_eq_some_iff.1 run
    have related' : R ({ st with srcLine := line } : RewrapState Src Dest).dest e := related
    obtain ⟨e', run', related'⟩ := startLine_follows h related' run
    refine ⟨e', ?_, related'⟩
    dsimp only
    rw [initEq]
    exact run'
  · rename_i soft
    rw [if_neg soft]
    cases run
    exact ⟨e, rfl, related⟩

theorem rewrapLine_follows (h : AnswersAlike m R) {srcLimit srcY : Nat}
    {st st' : RewrapState Src Dest} {e : Dest} (related : R st.dest e)
    (run : m.rewrapLine srcLimit srcY st = some st') :
    ∃ e', m.rewrapLine srcLimit srcY { st with dest := e } = some { st' with dest := e' } ∧
      R st'.dest e' := by
  unfold RewrapMacros.rewrapLine at run ⊢
  obtain ⟨⟨st1, continued, limit⟩, openEq, run⟩ := Option.bind_eq_some_iff.1 run
  obtain ⟨st2, startEq, run⟩ := Option.bind_eq_some_iff.1 run
  obtain ⟨st3, copyEq, run⟩ := Option.bind_eq_some_iff.1 run
  have related1 : R ({ st1 with track := st1.track.map (TrackCursor.clamp limit) } :
      RewrapState Src Dest).dest e := by
    dsimp only
    rw [openSrcLine_keeps openEq]
    exact related
  obtain ⟨e2, startEq', related2⟩ := startDest_follows h related1 startEq
  obtain ⟨e3, copyEq', related3⟩ := copyCells_follows h related2 copyEq
  obtain ⟨e', run', related'⟩ := closeSrcLine_follows h related3 run
  refine ⟨e', ?_, related'⟩
  have openEq' := openSrcLine_dest (m := m)
    { st with track := st.track.map fun t => { t with isTrackedLine := srcY = t.y } } e srcY
  rw [openEq] at openEq'
  dsimp only at openEq' ⊢
  rw [openEq']
  dsimp only [Option.bind_eq_bind, Option.map_some, Option.bind_some]
  rw [startEq']
  dsimp only [Option.bind_some]
  rw [copyEq']
  exact run'

/-- States that differ in related destinations only. -/
def Alike (R : Dest → Dest → Prop) (st st' : RewrapState Src Dest) : Prop :=
  ∃ e, st' = { st with dest := e } ∧ R st.dest e

theorem rewrapLine_simulates (h : AnswersAlike m R) {srcLimit : Nat} (srcY : Nat)
    {st st' other : RewrapState Src Dest} (alike : Alike R st other)
    (run : m.rewrapLine srcLimit srcY st = some st') :
    ∃ other', m.rewrapLine srcLimit srcY other = some other' ∧ Alike R st' other' := by
  obtain ⟨e, rfl, related⟩ := alike
  obtain ⟨e', run', related'⟩ := rewrapLine_follows h related run
  exact ⟨_, run', e', rfl, related'⟩

/-- `rewrap_inner` on a related destination. -/
theorem rewrapInner_follows (h : AnswersAlike m R) {src : Src} {d e : Dest} (related : R d e)
    {srcLimit : Nat} {track : List TrackCursor} {st : RewrapState Src Dest}
    (run : m.rewrapInner src d srcLimit track = some st) :
    ∃ e', m.rewrapInner src e srcLimit track = some { st with dest := e' } ∧ R st.dest e' := by
  obtain ⟨st', run', e', rfl, related'⟩ := forUp_follows
    (rewrapLine_simulates h) ⟨e, rfl, related⟩ run
  exact ⟨e', run', related'⟩

/-! ### A line buffer without a history -/

/-- The destination without its history. -/
def LineBufDest.forget (self : LineBufDest) : LineBufDest := { self with historybuf := none }

theorem advance_forget {d d' : LineBufDest} (run : d.advance = some d') :
    d.forget.advance = some d'.forget := by
  unfold LineBufDest.advance at run ⊢
  split at run
  · rename_i last
    obtain ⟨rotated, indexEq, run⟩ := Option.bind_eq_some_iff.1 run
    obtain ⟨added, addEq, run⟩ := Option.bind_eq_some_iff.1 run
    obtain ⟨cleared, clearEq, run⟩ := Option.bind_eq_some_iff.1 run
    cases run
    -- adding the line to the history changes nothing else
    have same : ({ d with dest := rotated } : LineBufDest).forget = added.forget := by
      unfold LineBufDest.addToHistory at addEq
      split at addEq
      · cases addEq
        rfl
      · obtain ⟨line, -, addEq⟩ := Option.bind_eq_some_iff.1 addEq
        obtain ⟨history, -, addEq⟩ := Option.bind_eq_some_iff.1 addEq
        cases addEq
        rfl
    have indexEq' : linebufIndex d.forget.dest 0 (d.forget.dest.ynum - 1) = some rotated := indexEq
    have addEq' : ({ d.forget with dest := rotated } : LineBufDest).addToHistory =
        some added.forget := congrArg some same
    have clearEq' : linebufClearLine added.forget.dest (added.forget.dest.ynum - 1) true =
        some cleared := clearEq
    rw [if_pos (show d.forget.dest.ynum - 1 ≤ d.forget.destY from last), indexEq']
    dsimp only [Option.bind_eq_bind, Option.bind_some]
    rw [addEq']
    dsimp only [Option.bind_some]
    rw [clearEq']
    rfl
  · rename_i room
    cases run
    exact if_neg room

theorem setLineAttrs_forget {d d' : LineBufDest} {attrs attrs' : LineAttrs}
    (run : d.setLineAttrs attrs = some (d', attrs')) :
    d.forget.setLineAttrs attrs = some (d'.forget, attrs') := by
  unfold LineBufDest.setLineAttrs at run ⊢
  obtain ⟨lineAttrs, setEq, run⟩ := Option.bind_eq_some_iff.1 run
  have setEq' : setAt d.forget.dest.lineAttrs d.forget.destY attrs = some lineAttrs := setEq
  cases run
  rw [setEq']
  rfl

theorem linebuf_follows : AnswersAlike linebufMacros fun d e => e = d.forget where
  destXnum := by
    rintro d _ rfl
    rfl
  destY := by
    rintro d _ rfl
    rfl
  first := by
    rintro d _ d' attrs attrs' rfl run
    exact ⟨d'.forget, setLineAttrs_forget (d := { d with destY := 0 }) run, rfl⟩
  next := by
    rintro d _ d' continued attrs attrs' rfl run
    obtain ⟨marked, markEq, run⟩ := Option.bind_eq_some_iff.1 run
    obtain ⟨moved, moveEq, run⟩ := Option.bind_eq_some_iff.1 run
    have moveEq' := advance_forget moveEq
    have markEq' : linebufSetLastCharAsContinuation d.forget.dest d.forget.destY continued =
        some marked := markEq
    refine ⟨d'.forget, ?_, rfl⟩
    change LineBufDest.nextLine d.forget continued attrs = _
    unfold LineBufDest.nextLine
    rw [markEq']
    exact (congrArg (· >>= _) moveEq').trans (setLineAttrs_forget run)
  copy := by
    rintro d _ d' operation rfl run
    obtain ⟨lb, rowEq, run⟩ := Option.bind_eq_some_iff.1 run
    cases run
    have rowEq' : d.forget.dest.onRow d.forget.destY operation = some lb := rowEq
    refine ⟨({ d with dest := lb } : LineBufDest).forget, ?_, rfl⟩
    exact (congrArg (· >>= _) rowEq').trans rfl

/-- Without a history the buffer is filled as it is with one. -/
theorem linebufRewrap_noHistory {self other : LineBuf} {history : Option HistoryBuf}
    {track : List TrackCursor} {out : LineBufRewrapped}
    (run : linebufRewrap self other history track = some out) :
    linebufRewrap self other none track = some { out with historybuf := none } := by
  unfold linebufRewrap at run ⊢
  split at run
  · rename_i same
    cases run
    exact if_pos same
  · rename_i resized
    rw [if_neg resized]
    obtain ⟨before, contentEq, run⟩ := Option.bind_eq_some_iff.1 run
    rw [contentEq]
    dsimp only [Option.bind_eq_bind, Option.bind_some]
    split at run
    · rename_i empty
      cases run
      exact if_pos empty
    · rename_i content
      rw [if_neg content]
      obtain ⟨st, innerEq, run⟩ := Option.bind_eq_some_iff.1 run
      obtain ⟨dest, markEq, run⟩ := Option.bind_eq_some_iff.1 run
      obtain ⟨e, innerEq', rfl⟩ := rewrapInner_follows linebuf_follows
        (e := { dest := other, historybuf := none }) rfl innerEq
      cases run
      rw [innerEq']
      dsimp only [Option.bind_some]
      have markEq' : forUp 0 (st.dest.forget.destY + 1) (fun i lb => linebufMarkLineDirty lb i)
          st.dest.forget.dest = some dest := markEq
      rw [markEq']
      rfl

end Smelly
