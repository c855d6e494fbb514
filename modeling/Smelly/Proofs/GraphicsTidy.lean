/-
Module: Smelly.Proofs.GraphicsTidy
Purpose: The part of the graphics manager's work that leaves frames alone: placing, removing,
  reordering and drawing images.  Everything that only does this is a chain of a few
  primitive steps, so that an invariant of images has to be proved for those alone.
Trusted boundary: none
-/
import Smelly.Core.GraphicsCommands

namespace Smelly

open Checked

/-- Everything about an image that has to do with its frames and what they occupy. -/
structure Image.KeepsFrames (before after : Image) : Prop where
  internalId : after.internalId = before.internalId
  width : after.width = before.width
  height : after.height = before.height
  rootFrame : after.rootFrame = before.rootFrame
  extraFrames : after.extraFrames = before.extraFrames
  frameIdCounter : after.frameIdCounter = before.frameIdCounter
  animationDuration : after.animationDuration = before.animationDuration
  usedStorage : after.usedStorage = before.usedStorage

theorem Image.KeepsFrames.refl (img : Image) : img.KeepsFrames img :=
  ⟨rfl, rfl, rfl, rfl, rfl, rfl, rfl, rfl⟩

theorem Image.KeepsFrames.trans {a b c : Image} (h : a.KeepsFrames b) (h' : b.KeepsFrames c) :
    a.KeepsFrames c :=
  ⟨h'.internalId.trans h.internalId, h'.width.trans h.width, h'.height.trans h.height,
    h'.rootFrame.trans h.rootFrame, h'.extraFrames.trans h.extraFrames,
    h'.frameIdCounter.trans h.frameIdCounter, h'.animationDuration.trans h.animationDuration,
    h'.usedStorage.trans h.usedStorage⟩

/-- A chain of steps each of which leaves the frames of all images alone, removes an image, or
changes the order of images. -/
inductive Tidy : GraphicsManager → GraphicsManager → Prop
  | update {self next : GraphicsManager}
      (images : List.Forall₂ Image.KeepsFrames self.images next.images)
      (usedStorage : next.usedStorage = self.usedStorage)
      (diskCache : next.diskCache = self.diskCache)
      (internalIdCounter : next.internalIdCounter = self.internalIdCounter)
      (currentlyLoading : next.currentlyLoading = self.currentlyLoading) : Tidy self next
  | remove (self : GraphicsManager) (idx : Nat) : Tidy self (removeImage self idx)
  | reorder (self : GraphicsManager) (images : List Image) (perm : images.Perm self.images) :
      Tidy self { self with images := images }
  | reset (self : GraphicsManager) (h : self.images = []) :
      Tidy self { self with usedStorage := 0 }
  | trans {first second third : GraphicsManager} (h : Tidy first second)
      (h' : Tidy second third) : Tidy first third

theorem forall₂_keepsFrames_refl (images : List Image) :
    List.Forall₂ Image.KeepsFrames images images :=
  List.forall₂_same.2 fun img _ => Image.KeepsFrames.refl img

theorem Tidy.refl (self : GraphicsManager) : Tidy self self :=
  .update (forall₂_keepsFrames_refl _) rfl rfl rfl rfl

/-- Only fields that are not about images change. -/
theorem Tidy.of_images {self next : GraphicsManager} (images : next.images = self.images)
    (usedStorage : next.usedStorage = self.usedStorage)
    (diskCache : next.diskCache = self.diskCache)
    (internalIdCounter : next.internalIdCounter = self.internalIdCounter)
    (currentlyLoading : next.currentlyLoading = self.currentlyLoading) : Tidy self next :=
  .update (images ▸ forall₂_keepsFrames_refl _) usedStorage diskCache internalIdCounter
    currentlyLoading

theorem removeImage_loading (self : GraphicsManager) (idx : Nat) :
    (removeImage self idx).currentlyLoading = self.currentlyLoading := by
  have freed (frames : List Frame) (self : GraphicsManager) (img : Image) :
      (frames.foldl (fun manager frame => removeFromCache manager
        { imageId := img.internalId, frameId := frame.id }) self).currentlyLoading =
          self.currentlyLoading := by
    induction frames generalizing self with
    | nil => rfl
    | cons frame rest ih => exact ih _
  exact freed (self.img idx).frames self _

/-- What is being loaded stays what it is. -/
theorem Tidy.loading {self next : GraphicsManager} (h : Tidy self next) :
    next.currentlyLoading = self.currentlyLoading := by
  induction h with
  | update _ _ _ _ currentlyLoading => exact currentlyLoading
  | remove self idx => exact removeImage_loading self idx
  | reorder => rfl
  | reset => rfl
  | trans _ _ ih ih' => exact ih'.trans ih

theorem forall₂_modify {α : Type} {rel : α → α → Prop} (refl : ∀ a, rel a a)
    {change : α → α} (keeps : ∀ a, rel a (change a)) (images : List α) (idx : Nat) :
    List.Forall₂ rel images (images.modify idx change) := by
  induction images generalizing idx with
  | nil => cases idx <;> exact .nil
  | cons img rest ih =>
    cases idx with
    | zero => exact .cons (keeps img) (List.forall₂_same.2 fun a _ => refl a)
    | succ idx => exact .cons (refl img) (ih idx)

theorem Tidy.modifyImg (self : GraphicsManager) (idx : Nat) {change : Image → Image}
    (keeps : ∀ img : Image, img.KeepsFrames (change img)) : Tidy self (self.modifyImg idx change) :=
  .update (forall₂_modify Image.KeepsFrames.refl keeps _ _) rfl rfl rfl rfl

theorem Tidy.mapImages_keeps {change : Image → Image} {images : List Image}
    (keeps : ∀ img : Image, img.KeepsFrames (change img)) :
    List.Forall₂ Image.KeepsFrames images (images.map change) := by
  rw [List.forall₂_map_right_iff]
  exact List.forall₂_same.2 fun img _ => keeps img

/-! ### Removing images -/

theorem removeImagesBelow_tidy (doomed : Image → Bool) (self : GraphicsManager) (count : Nat) :
    Tidy self (removeImagesBelow doomed self count) := by
  induction count generalizing self with
  | zero => exact .refl self
  | succ i ih =>
    unfold removeImagesBelow
    split
    · exact .trans (.remove self i) (ih _)
    · exact ih _

theorem removeImages_tidy (self : GraphicsManager) (predicate : Image → Bool) (skip : Nat) :
    Tidy self (removeImages self predicate skip) :=
  removeImagesBelow_tidy _ self _

theorem removeOldest_tidy (storageLimit : Nat) (self : GraphicsManager) (count : Nat) :
    Tidy self (removeOldest storageLimit self count) := by
  induction count generalizing self with
  | zero => exact .refl self
  | succ count ih =>
    unfold removeOldest
    split
    · exact .trans (.remove self count) (ih _)
    · exact .refl self

theorem applyStorageQuota_tidy (self : GraphicsManager) (storageLimit currentlyAdded : Nat) :
    Tidy self (applyStorageQuota self storageLimit currentlyAdded) := by
  have trimmed := removeImages_tidy self trimPredicate currentlyAdded
  unfold applyStorageQuota
  dsimp only
  split
  · exact trimmed
  · have sorted := trimmed.trans (.reorder _ _ (List.perm_insertionSort
      (fun a b : Image => b.atime ≤ a.atime)
      (removeImages self trimPredicate currentlyAdded).images))
    have kept := sorted.trans (removeOldest_tidy storageLimit _ (List.insertionSort
      (fun a b : Image => b.atime ≤ a.atime)
      (removeImages self trimPredicate currentlyAdded).images).length)
    split
    · rename_i empty
      exact kept.trans (.reset _ (List.isEmpty_iff.1 empty))
    · exact kept

theorem applyQuota_tidy (self : GraphicsManager) (currentlyAdded : Nat) :
    Tidy self (applyQuota self currentlyAdded) := by
  unfold applyQuota
  split
  · exact applyStorageQuota_tidy self _ _
  · exact .refl self

/-! ### Placements -/

theorem handlePutCommand_tidy (answers : Answers) (self : GraphicsManager) (g : GraphicsCommand)
    (c : CursorPosition) (cell : CellPixelSize) (found : Option Nat) :
    Tidy self (handlePutCommand answers self g c cell found).1 := by
  unfold handlePutCommand
  split
  · exact .refl self
  · split
    · exact .modifyImg self _ fun _ => ⟨rfl, rfl, rfl, rfl, rfl, rfl, rfl, rfl⟩
    · exact .refl self

theorem filterRefsBelow_tidy (doomed : ImageRef → Image → Bool) (freeImages onlyFirst : Bool)
    (self : GraphicsManager) (count : Nat) :
    Tidy self (filterRefsBelow doomed freeImages onlyFirst self count) := by
  induction count generalizing self with
  | zero => exact .refl self
  | succ i ih =>
    let kept := (self.img i).refs.filter fun ref => !doomed ref (self.img i)
    have filtered : Tidy self (self.modifyImg i fun img => { img with refs := kept }) :=
      .modifyImg self i fun _ => ⟨rfl, rfl, rfl, rfl, rfl, rfl, rfl, rfl⟩
    have cleaned : Tidy self
        (if kept.isEmpty ∧ (freeImages ∨ (self.img i).clientId = 0) then
          removeImage (self.modifyImg i fun img => { img with refs := kept }) i
        else self.modifyImg i fun img => { img with refs := kept }) := by
      split
      · exact filtered.trans (.remove _ i)
      · exact filtered
    unfold filterRefsBelow
    dsimp only
    by_cases stop : onlyFirst ∧ (self.img i).refs.any (doomed · (self.img i))
    · rw [if_pos stop]
      exact cleaned
    · rw [if_neg stop]
      exact cleaned.trans (ih _)

theorem filterRefs_tidy (self : GraphicsManager) (doomed : ImageRef → Image → Bool)
    (freeImages onlyFirst : Bool) : Tidy self (filterRefs self doomed freeImages onlyFirst) :=
  filterRefsBelow_tidy doomed freeImages onlyFirst self _

theorem modifyRefsBelow_tidy (change : ImageRef → Option ImageRef) (self : GraphicsManager)
    (count : Nat) : Tidy self (modifyRefsBelow change self count) := by
  induction count generalizing self with
  | zero => exact .refl self
  | succ i ih =>
    have modified : Tidy self (self.modifyImg i fun img =>
        { img with refs := img.refs.filterMap change }) :=
      .modifyImg self i fun _ => ⟨rfl, rfl, rfl, rfl, rfl, rfl, rfl, rfl⟩
    unfold modifyRefsBelow
    dsimp only
    split
    · exact (modified.trans (.remove _ i)).trans (ih _)
    · exact modified.trans (ih _)

theorem grmanScrollImages_tidy (self : GraphicsManager) (d : ScrollData) (cell : CellPixelSize) :
    Tidy self (grmanScrollImages self d cell) :=
  modifyRefsBelow_tidy _ self _

theorem grmanClear_tidy (self : GraphicsManager) (all : Bool) : Tidy self (grmanClear self all) :=
  filterRefs_tidy self _ _ _

theorem grmanRescale_tidy (self : GraphicsManager) (cell : CellPixelSize) :
    Tidy self (grmanRescale self cell) :=
  .update (Tidy.mapImages_keeps fun _ => ⟨rfl, rfl, rfl, rfl, rfl, rfl, rfl, rfl⟩) rfl rfl rfl rfl

theorem grmanUpdateLayers_tidy (self : GraphicsManager) (inView : ImageRef → Bool) :
    Tidy self (grmanUpdateLayers self inView) :=
  .update (Tidy.mapImages_keeps fun _ => ⟨rfl, rfl, rfl, rfl, rfl, rfl, rfl, rfl⟩) rfl rfl rfl rfl

/-! ### Showing frames -/

theorem updateCurrentFrame_tidy (b : Blending) (answers : Answers) (self : GraphicsManager)
    (idx : Nat) : Tidy self (updateCurrentFrame b answers self idx) := by
  unfold updateCurrentFrame
  split
  · exact .refl self
  · exact .modifyImg self idx fun _ => ⟨rfl, rfl, rfl, rfl, rfl, rfl, rfl, rfl⟩

theorem advanceFrame_keeps (img : Image) : img.KeepsFrames (advanceFrame img).1 := by
  unfold advanceFrame
  dsimp only
  split
  · exact ⟨rfl, rfl, rfl, rfl, rfl, rfl, rfl, rfl⟩
  · split
    · exact .refl img
    · split <;> exact ⟨rfl, rfl, rfl, rfl, rfl, rfl, rfl, rfl⟩

theorem skipFrames_keeps {rounds : Nat} {img after : Image} {found : Bool}
    (h : skipFrames rounds img = some (after, found)) : img.KeepsFrames after := by
  induction rounds generalizing img with
  | zero => simp [skipFrames] at h
  | succ rounds ih =>
    have kept := advanceFrame_keeps img
    unfold skipFrames at h
    split at h
    · rename_i next advanceEq
      rw [advanceEq] at kept
      rw [← (Prod.mk.inj (Option.some.inj h)).1]
      exact kept
    · rename_i next advanceEq
      rw [advanceEq] at kept
      split at h
      · exact kept.trans (ih h)
      · rw [← (Prod.mk.inj (Option.some.inj h)).1]
        exact kept

/-- Assigning a whole image that keeps the frames of the one in its place. -/
theorem Tidy.setImg (self : GraphicsManager) (idx : Nat) {after : Image}
    (keeps : (self.img idx).KeepsFrames after) :
    Tidy self (self.modifyImg idx fun _ => after) := by
  refine .update ?_ rfl rfl rfl rfl
  unfold GraphicsManager.img at keeps
  revert keeps
  show _ → List.Forall₂ Image.KeepsFrames self.images (self.images.modify idx fun _ => after)
  generalize self.images = images
  intro keeps
  induction images generalizing idx with
  | nil => cases idx <;> exact .nil
  | cons img rest ih =>
    cases idx with
    | zero => exact .cons keeps (forall₂_keepsFrames_refl rest)
    | succ idx => exact .cons (.refl img) (ih idx keeps)

theorem scanImage_tidy (libs : GraphicsLibraries) (answers : Answers) (rounds : Nat)
    {self next : GraphicsManager} {idx : Nat}
    (h : scanImage libs answers rounds self idx = some next) : Tidy self next := by
  unfold scanImage at h
  dsimp only at h
  split at h
  · exact Option.some.inj h ▸ .refl self
  · have animated : Tidy self { self with hasImagesNeedingAnimation := true } :=
      .of_images rfl rfl rfl rfl rfl
    split at h
    · obtain ⟨⟨img, found⟩, skipEq, h⟩ := Option.bind_eq_some_iff.1 h
      have moved := animated.trans (.setImg _ idx (skipFrames_keeps skipEq))
      rw [← Option.some.inj h]
      split
      · exact moved.trans (updateCurrentFrame_tidy _ answers _ idx)
      · exact moved
    · exact Option.some.inj h ▸ animated

theorem forDown_keeps {σ : Type} {body : Nat → σ → Option σ} {rel : σ → σ → Prop}
    (refl : ∀ s, rel s s) (trans : ∀ {a b c}, rel a b → rel b c → rel a c)
    (keeps : ∀ i s s', body i s = some s' → rel s s') {lo n : Nat} {state final : σ}
    (h : forDown lo n body state = some final) : rel state final := by
  induction n generalizing state with
  | zero => exact Option.some.inj h ▸ refl state
  | succ n ih =>
    obtain ⟨next, stepEq, rest⟩ := Option.bind_eq_some_iff.1 ((forDown_succ lo n body state).symm.trans h)
    exact trans (keeps _ state next stepEq) (ih rest)

theorem scanActiveAnimations_tidy (libs : GraphicsLibraries) (answers : Answers) (rounds : Nat)
    {self next : GraphicsManager}
    (h : scanActiveAnimations libs answers rounds self = some next) : Tidy self next := by
  unfold scanActiveAnimations at h
  split at h
  · have started : Tidy self { self with hasImagesNeedingAnimation := false } :=
      .of_images rfl rfl rfl rfl rfl
    exact started.trans (forDown_keeps Tidy.refl Tidy.trans
      (fun idx s s' stepEq => scanImage_tidy libs answers rounds stepEq) h)
  · exact Option.some.inj h ▸ .refl self

end Smelly
