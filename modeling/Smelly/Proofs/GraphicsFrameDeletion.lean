/-
Module: Smelly.Proofs.GraphicsFrameDeletion
Purpose: What deleting a frame leaves of the frames of an image, and which frame is shown then.
Trusted boundary: none
-/
import Smelly.Proofs.GraphicsFailures

namespace Smelly

open Run

variable (libs : GraphicsLibraries) (answers : Answers)

/-- The number of the frame that a command deletes: 0 is read as the first one, and a number beyond
the last one as the last. -/
def frameToDelete (img : Image) (g : GraphicsCommand) : Nat :=
  max 1 (min (img.extraFrames.length + 1) g.frameNumber)

/-- Showing the current frame again changes neither the frames nor which one is current. -/
theorem updateCurrentFrame_img (b : Blending) (self : GraphicsManager) {idx : Nat}
    (inside : idx < self.images.length) :
    ((updateCurrentFrame b answers self idx).img idx).frames = (self.img idx).frames ∧
      ((updateCurrentFrame b answers self idx).img idx).currentFrameIndex =
        (self.img idx).currentFrameIndex := by
  unfold updateCurrentFrame
  split
  · exact ⟨rfl, rfl⟩
  · rw [img_modifyImg inside]
    exact ⟨rfl, rfl⟩

/-- The index of the current frame after the frame with a number is gone. -/
def currentAfter (img : Image) (frameNumber : Nat) : Nat :=
  let removedIdx := if frameNumber = 1 then 0 else frameNumber - 2
  let framecnt := img.extraFrames.length - 1
  if framecnt < img.currentFrameIndex then framecnt
  else if removedIdx < img.currentFrameIndex then img.currentFrameIndex - 1
  else img.currentFrameIndex

/-- What `handle_delete_frame_command` does to the image when it has other frames. -/
theorem handleDeleteFrameCommand_img {self : GraphicsManager} {g : GraphicsCommand} {idx : Nat}
    (addressed : g.id ≠ 0 ∨ g.imageNumber ≠ 0) (named : imageReferredTo self g = some idx)
    (more : (self.img idx).extraFrames ≠ []) :
    ((handleDeleteFrameCommand libs answers self g).1.img idx).frames =
        (self.img idx).frames.eraseIdx (frameToDelete (self.img idx) g - 1) ∧
      ((handleDeleteFrameCommand libs answers self g).1.img idx).currentFrameIndex =
        currentAfter (self.img idx) (frameToDelete (self.img idx) g) := by
  have inside := imageReferredTo_inside named
  have found : (if g.id = 0 ∧ g.imageNumber = 0 then none
      else if g.id ≠ 0 then imgByClientId self g.id
      else imgByClientNumber self g.imageNumber) = some idx := by
    rw [if_neg (by omega)]
    exact named
  unfold handleDeleteFrameCommand
  rw [found]
  dsimp only
  rw [if_neg fun none => more (List.isEmpty_iff.1 none)]
  have first : 1 ≤ frameToDelete (self.img idx) g := Nat.le_max_left _ _
  change 1 ≤ max 1 (min ((self.img idx).extraFrames.length + 1) g.frameNumber) at first
  unfold frameToDelete
  generalize max 1 (min ((self.img idx).extraFrames.length + 1) g.frameNumber) = number at first ⊢
  generalize ((frameForNumber (self.img idx) number).getD {}).id = frameId
  generalize removedEq : (removeFromCache self { imageId := (self.img idx).internalId
                                                 frameId := frameId }).modifyImg idx
    (fun img => withoutFrame img number) = removed
  have removedInside : idx < removed.images.length := by
    rw [← removedEq]
    exact (List.length_modify ..).symm ▸ inside
  have removedImg : removed.img idx = withoutFrame (self.img idx) number := by
    rw [← removedEq]
    exact @img_modifyImg (removeFromCache self _) idx inside _
  have frames : (removed.img idx).frames = (self.img idx).frames.eraseIdx (number - 1) := by
    rw [removedImg]
    exact withoutFrame_frames first more
  have index : (removed.img idx).currentFrameIndex = (self.img idx).currentFrameIndex := by
    rw [removedImg]
    rfl
  have moved (change : Nat → Nat) :
      ((removed.modifyImg idx fun img =>
          { img with currentFrameIndex := change img.currentFrameIndex }).img idx).frames =
        (self.img idx).frames.eraseIdx (number - 1) ∧
      ((removed.modifyImg idx fun img =>
          { img with currentFrameIndex := change img.currentFrameIndex }).img
            idx).currentFrameIndex = change (self.img idx).currentFrameIndex := by
    rw [img_modifyImg removedInside, ← index]
    exact ⟨frames, rfl⟩
  unfold currentAfter
  dsimp only
  generalize (if number = 1 then 0 else number - 2) = removedIdx
  by_cases beyond : (self.img idx).extraFrames.length - 1 < (self.img idx).currentFrameIndex
  · rw [if_pos beyond, if_pos beyond]
    have shown := @updateCurrentFrame_img answers libs.toBlending
      (removed.modifyImg idx fun img =>
        { img with currentFrameIndex := (self.img idx).extraFrames.length - 1 })
      idx ((List.length_modify ..).symm ▸ removedInside)
    have last := moved fun _ => (self.img idx).extraFrames.length - 1
    exact ⟨shown.1.trans last.1, shown.2.trans last.2⟩
  · rw [if_neg beyond, if_neg beyond]
    by_cases same : removedIdx = (self.img idx).currentFrameIndex
    · have shown := updateCurrentFrame_img answers libs.toBlending removed removedInside
      rw [if_pos same, if_neg (by omega)]
      exact ⟨shown.1.trans frames, shown.2.trans index⟩
    · rw [if_neg same]
      by_cases before : removedIdx < (self.img idx).currentFrameIndex
      · rw [if_pos before, if_pos before]
        exact moved fun current => current - 1
      · rw [if_neg before, if_neg before]
        exact ⟨frames, index⟩

/-- The frames after the deletion, and which one is shown. -/
structure FrameDeleted (img img' : Image) (frameNumber : Nat) : Prop where
  frames : img'.frames = img.frames.eraseIdx (frameNumber - 1)
  current : img'.currentFrameIndex < img'.frames.length
  shown : ∀ f, currentFrame img = some f → img.currentFrameIndex ≠ frameNumber - 1 →
    currentFrame img' = some f

theorem frameDeleted_of_currentAfter {img img' : Image} {frameNumber : Nat}
    (positive : 1 ≤ frameNumber) (inside : frameNumber ≤ img.extraFrames.length + 1)
    (more : img.extraFrames ≠ []) (frames : img'.frames = img.frames.eraseIdx (frameNumber - 1))
    (index : img'.currentFrameIndex = currentAfter img frameNumber) :
    FrameDeleted img img' frameNumber := by
  have count : img.frames.length = img.extraFrames.length + 1 := rfl
  have extras := List.length_pos_iff.2 more
  have left : img'.frames.length = img.extraFrames.length := by
    rw [frames, List.length_eraseIdx, if_pos (by omega)]
    omega
  refine ⟨frames, ?_, ?_⟩
  · rw [index, left]
    unfold currentAfter
    dsimp only
    generalize (if frameNumber = 1 then 0 else frameNumber - 2) = removedIdx
    split
    · omega
    · split <;> omega
  · intro f shown other
    have valid : img.currentFrameIndex < img.frames.length :=
      (List.getElem?_eq_some_iff.1 shown).1
    -- a frame behind the deleted one moves up by one place
    have place : currentAfter img frameNumber =
        if img.currentFrameIndex < frameNumber - 1 then img.currentFrameIndex
        else img.currentFrameIndex - 1 := by
      unfold currentAfter
      dsimp only
      by_cases root : frameNumber = 1
      · rw [if_pos root]
        split
        · rw [if_neg (by omega)]
          omega
        · rw [if_pos (show 0 < img.currentFrameIndex by omega), if_neg (by omega)]
      · rw [if_neg root]
        split
        · rw [if_neg (by omega)]
          omega
        · by_cases before : img.currentFrameIndex < frameNumber - 1
          · rw [if_neg (by omega), if_pos before]
          · rw [if_pos (by omega), if_neg before]
    unfold currentFrame at shown ⊢
    rw [frames, index, place, List.getElem?_eraseIdx]
    by_cases before : img.currentFrameIndex < frameNumber - 1
    · rw [if_pos before, if_pos before]
      exact shown
    · rw [if_neg before, if_neg (by omega), show img.currentFrameIndex - 1 + 1 =
        img.currentFrameIndex by omega]
      exact shown

/-- Deleting a frame of the image that a command names: with other frames the image loses just that
one, its current frame stays a frame, and stays the same frame unless it is the one that is
deleted.  An image with a single frame is left as it is, and is returned to be removed if the
command is in upper case. -/
theorem frameDeletion (self : GraphicsManager) (g : GraphicsCommand) (idx : Nat)
    (addressed : g.id ≠ 0 ∨ g.imageNumber ≠ 0) (named : imageReferredTo self g = some idx) :
    ((self.img idx).extraFrames ≠ [] →
      FrameDeleted (self.img idx) ((handleDeleteFrameCommand libs answers self g).1.img idx)
        (frameToDelete (self.img idx) g)) ∧
    ((self.img idx).extraFrames = [] → handleDeleteFrameCommand libs answers self g =
      (self, decide (Char.ofUInt8 g.deleteAction = 'F'))) := by
  constructor
  · intro more
    obtain ⟨frames, index⟩ := handleDeleteFrameCommand_img libs answers addressed named more
    refine frameDeleted_of_currentAfter (Nat.le_max_left _ _) ?_ more frames index
    unfold frameToDelete
    omega
  · intro none
    have found : (if g.id = 0 ∧ g.imageNumber = 0 then Option.none
        else if g.id ≠ 0 then imgByClientId self g.id
        else imgByClientNumber self g.imageNumber) = some idx := by
      rw [if_neg (by omega)]
      exact named
    unfold handleDeleteFrameCommand
    rw [found]
    dsimp only
    rw [if_pos (List.isEmpty_iff.2 none)]

/-- An image with two extra frames, the last one current. -/
def threeFrames : GraphicsManager :=
  { images := [{ clientId := 1, internalId := 1, rootFrame := { id := 1 }
                 extraFrames := [{ id := 2 }, { id := 3 }], currentFrameIndex := 2 }] }

/-- The root frame is deleted, and the last frame stays the one that is shown. -/
theorem frameDeletion_root :
    FrameDeleted (threeFrames.img 0)
      ((handleDeleteFrameCommand plainLibraries {} threeFrames { id := 1, numLines := 1 }).1.img 0)
      (frameToDelete (threeFrames.img 0) { id := 1, numLines := 1 }) :=
  (frameDeletion plainLibraries {} threeFrames { id := 1, numLines := 1 } 0 (by decide) rfl).1
    (by decide)

/-- Deleting the only frame of an image leaves it there. -/
theorem frameDeletion_only :
    ∃ (self : GraphicsManager) (g : GraphicsCommand), imageReferredTo self g = some 0 ∧
      ((handleDeleteFrameCommand plainLibraries {} self g).1.img 0).frames ≠
        (self.img 0).frames.eraseIdx (frameToDelete (self.img 0) g - 1) := by
  refine ⟨{ images := [{ clientId := 1, rootFrame := { id := 1 } }] }, { id := 1 }, rfl, ?_⟩
  exact List.cons_ne_nil _ _

end Smelly
