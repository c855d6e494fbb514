/-
Module: Smelly.Proofs.LineBufIndirection
Purpose: Any sequence of line operations on a line buffer is a sequence of list operations on
  the rows an observer sees, and `line_map` stays a permutation.
Trusted boundary: none
-/
import Smelly.Proofs.LineBufView
import Smelly.Lib.Run

namespace Smelly

/-- The operations of `line-buf.c` that move or blank whole lines. -/
inductive LineBufOp where
  | index (top bottom : Nat)
  | reverseIndex (top bottom : Nat)
  | insertLines (num y bottom : Nat)
  | deleteLines (num y bottom : Nat)
  | clearLine (y : Nat) (clearAttrs : Bool)
  | clear (ch : UInt32)
deriving DecidableEq, Repr

namespace LineBufOp

/-- The arguments every caller passes to a buffer of `ynum` lines. -/
def Valid (ynum : Nat) : LineBufOp → Prop
  | index top bottom => top ≤ bottom ∧ bottom < ynum
  | reverseIndex top bottom => top ≤ bottom ∧ bottom < ynum
  | insertLines _ y bottom => y ≤ bottom ∧ bottom < ynum
  | deleteLines _ y bottom => y ≤ bottom ∧ bottom < ynum
  | clearLine y _ => y < ynum
  | clear _ => True

instance (ynum : Nat) : DecidablePred (Valid ynum) := by
  intro op
  cases op <;> (unfold Valid; infer_instance)

/-- Run the operation of the source. -/
def apply (self : LineBuf) : LineBufOp → Option LineBuf
  | index top bottom => linebufIndex self top bottom
  | reverseIndex top bottom => linebufReverseIndex self top bottom
  | insertLines num y bottom => linebufInsertLines self num y bottom
  | deleteLines num y bottom => linebufDeleteLines self num y bottom
  | clearLine y clearAttrs => linebufClearLine self y clearAttrs
  | clear ch => some (linebufClear self ch)

/-- The operation as an observer of the lines describes it: rotate, open or close a gap inside a
segment, blank one line, or replace every line. -/
def onLines (xnum ynum : Nat) (lines : List (Row × LineAttrs)) :
    LineBufOp → List (Row × LineAttrs)
  | index top bottom => Segment.on top (bottom + 1) (·.rotate 1) lines
  | reverseIndex top bottom => Segment.on top (bottom + 1) (fun s => s.rotate (s.length - 1)) lines
  | insertLines num y bottom =>
    Segment.on y (bottom + 1) (Segment.openGap num (blankLine xnum)) lines
  | deleteLines num y bottom =>
    Segment.on y (bottom + 1) (Segment.closeGap num (blankLine xnum)) lines
  | clearLine y clearAttrs =>
    lines.modify y fun line => (blankRow xnum, if clearAttrs then {} else line.2)
  | clear ch =>
    List.replicate ynum (clearCharsInLine (blankRow xnum) ch,
      if ch = 0 then {} else { hasDirtyText := true })

end LineBufOp

/-- A well-formed `xnum` × `ynum` buffer shows `lines`. -/
structure LineBuf.Shows (xnum ynum : Nat) (lb : LineBuf) (lines : List (Row × LineAttrs)) :
    Prop where
  wellFormed : lb.WellFormed
  xnumEq : lb.xnum = xnum
  ynumEq : lb.ynum = ynum
  viewEq : lb.view = lines

/-- One operation of the source does to the lines what its list operation does. -/
theorem linebufOp_onLines {xnum ynum : Nat} {self : LineBuf} {lines : List (Row × LineAttrs)}
    (op : LineBufOp) (shows : self.Shows xnum ynum lines) (valid : op.Valid ynum) :
    ∃ lb, op.apply self = some lb ∧ lb.Shows xnum ynum (op.onLines xnum ynum lines) := by
  obtain ⟨wf, rfl, rfl, rfl⟩ := shows
  cases op with
  | index top bottom =>
    obtain ⟨lb, run, lbWf, hx, hy, hview⟩ := linebufIndex_spec wf valid.1 valid.2
    exact ⟨lb, run, lbWf, hx, hy, hview⟩
  | reverseIndex top bottom =>
    obtain ⟨lb, run, lbWf, hx, hy, hview⟩ := linebufReverseIndex_spec wf valid.1 valid.2
    exact ⟨lb, run, lbWf, hx, hy, hview⟩
  | insertLines num y bottom =>
    obtain ⟨lb, run, lbWf, hx, hy, hview⟩ := linebufInsertLines_spec wf num valid.1 valid.2
    exact ⟨lb, run, lbWf, hx, hy, hview⟩
  | deleteLines num y bottom =>
    obtain ⟨lb, run, lbWf, hx, hy, hview⟩ := linebufDeleteLines_spec wf num valid.1 valid.2
    exact ⟨lb, run, lbWf, hx, hy, hview⟩
  | clearLine y clearAttrs =>
    obtain ⟨lb, run, lbWf, hx, hy, -, hview⟩ := linebufClearLine_spec wf valid clearAttrs
    exact ⟨lb, run, lbWf, hx, hy, hview⟩
  | clear ch =>
    exact ⟨linebufClear self ch, rfl, linebufClear_wellFormed wf ch, rfl, rfl,
      linebufClear_view self ch⟩

/-- Every sequence of line operations succeeds on a well-formed buffer, leaves `line_map` a
permutation of the physical rows, and changes the visible lines as the list operations do. -/
theorem linebuf_run_onLines {self : LineBuf} (wf : self.WellFormed) (ops : List LineBufOp)
    (valid : ∀ op ∈ ops, op.Valid self.ynum) :
    ∃ lb, Run.run LineBufOp.apply self ops = some lb ∧
      lb.lineMap.Perm (List.range self.ynum) ∧
      lb.view = ops.foldl (LineBufOp.onLines self.xnum self.ynum) self.view := by
  obtain ⟨lb, runEq, shows⟩ := Run.run_simulates (LineBufOp.Valid self.ynum)
    (LineBuf.Shows self.xnum self.ynum) (LineBufOp.onLines self.xnum self.ynum)
    (fun _ _ op shows valid => linebufOp_onLines op shows valid)
    (⟨wf, rfl, rfl, rfl⟩ : self.Shows self.xnum self.ynum self.view) ops valid
  exact ⟨lb, runEq, shows.ynumEq ▸ shows.wellFormed.mapPerm, shows.viewEq⟩

/-- The run theorem on a freshly allocated buffer of three lines. -/
theorem linebuf_run_onLines_alloc :
    ∃ lb, Run.run LineBufOp.apply (allocLinebuf 3 2)
        [.clear 69, .insertLines 1 0 1, .index 0 2, .deleteLines 5 1 2] = some lb ∧
      lb.lineMap.Perm (List.range 3) ∧
      lb.view = [.clear 69, .insertLines 1 0 1, .index 0 2, .deleteLines 5 1 2].foldl
        (LineBufOp.onLines 2 3) (allocLinebuf 3 2).view :=
  linebuf_run_onLines (allocLinebuf_wellFormed 3 2) _ (by decide)

end Smelly
