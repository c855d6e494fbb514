/-
Module: Smelly.Lib.Framing
Purpose: A stream of frames that is read in pieces: the frames that are complete are taken off the
  front of what was read, and a frame that is not complete waits for the next piece.
Trusted boundary: none
-/
import Mathlib.Data.List.Infix

namespace Framing

variable {α : Type} {Frame : List α → Prop} {frames : List (List α)} {taken wait more rest : List α}

/-- The frames at the front, and what is behind them; `split` takes off one frame. -/
def takeAll (split : List α → Option (List α × List α)) : Nat → List α → List (List α) × List α
  | 0, read => ([], read)
  | fuel + 1, read =>
    match split read with
    | none => ([], read)
    | some (frame, behind) =>
      let (later, wait) := takeAll split fuel behind
      (frame :: later, wait)

/-- A part of a frame, not all of it. -/
def Unfinished (Frame : List α → Prop) (part : List α) : Prop :=
  ∃ frame, Frame frame ∧ part <+: frame ∧ part.length < frame.length

/-- A whole frame is taken off whatever is behind it, and no part of one. -/
structure Delimits (split : List α → Option (List α × List α)) (Frame : List α → Prop) : Prop where
  positive : ∀ frame, Frame frame → 0 < frame.length
  whole : ∀ frame behind, Frame frame → split (frame ++ behind) = some (frame, behind)
  part : ∀ part, Unfinished Frame part → split part = none

theorem Unfinished.shorter (unfinished : Unfinished Frame rest) (front : taken <+: rest) :
    Unfinished Frame taken := by
  obtain ⟨frame, isFrame, inside, less⟩ := unfinished
  exact ⟨frame, isFrame, front.trans inside, Nat.lt_of_le_of_lt front.length_le less⟩

/-- Wherever a stream of frames is cut: in front of the cut, the complete frames are taken, in
order, and what waits is the beginning of the rest of the stream. -/
theorem takeAll_cut {split : List α → Option (List α × List α)} (delimits : Delimits split Frame)
    (unfinished : Unfinished Frame rest) :
    ∀ (frames : List (List α)) (read : List α) (fuel : Nat), (∀ frame ∈ frames, Frame frame) →
      read.length ≤ fuel → read ++ more = frames.flatten ++ rest →
        ∃ done left wait, frames = done ++ left ∧ takeAll split fuel read = (done, wait) ∧
          Unfinished Frame wait ∧ wait ++ more = left.flatten ++ rest := by
  intro frames
  induction frames with
  | nil =>
    intro read fuel _ _ cut
    have waits : Unfinished Frame read := unfinished.shorter ⟨more, cut⟩
    refine ⟨[], [], read, rfl, ?_, waits, cut⟩
    cases fuel with
    | zero => rfl
    | succ fuel => rw [takeAll, delimits.part read waits]
  | cons frame frames ih =>
    intro read fuel all enough cut
    have isFrame := all frame List.mem_cons_self
    rw [List.flatten_cons, List.append_assoc] at cut
    by_cases less : read.length < frame.length
    · have inside : read <+: frame :=
        List.prefix_of_prefix_length_le ⟨more, cut⟩ ⟨_, rfl⟩ (Nat.le_of_lt less)
      have waits : Unfinished Frame read := ⟨frame, isFrame, inside, less⟩
      refine ⟨[], frame :: frames, read, rfl, ?_, waits, ?_⟩
      · cases fuel with
        | zero => rfl
        | succ fuel => rw [takeAll, delimits.part read waits]
      · rw [List.flatten_cons, List.append_assoc]
        exact cut
    · obtain ⟨behind, rfl⟩ : frame <+: read :=
        List.prefix_of_prefix_length_le ⟨_, rfl⟩ ⟨more, cut⟩ (Nat.le_of_not_lt less)
      rw [List.append_assoc] at cut
      have positive := delimits.positive frame isFrame
      cases fuel with
      | zero =>
        rw [List.length_append] at enough
        omega
      | succ fuel =>
        have fits : behind.length ≤ fuel := by
          rw [List.length_append] at enough
          omega
        obtain ⟨done, left, wait, rfl, took, waits, later⟩ := ih behind fuel
          (fun f mem => all f (List.mem_cons_of_mem _ mem)) fits (List.append_cancel_left cut)
        refine ⟨frame :: done, left, wait, rfl, ?_, waits, later⟩
        rw [takeAll, delimits.whole frame behind isFrame]
        dsimp only
        rw [took]

end Framing
