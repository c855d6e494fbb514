/-
Module: Smelly.Proofs.GraphicsFrames
Purpose: What each change to the frames of an image means for the image and the data cached for it,
  so that an invariant of images is proved from one rule for each kind of change.
Trusted boundary: none
-/
import Smelly.Proofs.GraphicsImages

namespace Smelly

open Run

/-! ### Frames by number -/

theorem modifyFrame_frames (img : Image) {frameNumber : Nat} (positive : frameNumber ≠ 0)
    (change : Frame → Frame) :
    (img.modifyFrame frameNumber change).frames = img.frames.modify (frameNumber - 1) change := by
  unfold Image.modifyFrame Image.frames
  split
  · rename_i root
    subst root
    rfl
  · rename_i extra
    obtain ⟨k, rfl⟩ : ∃ k, frameNumber = k + 2 := ⟨frameNumber - 2, by omega⟩
    rfl

theorem withoutFrame_frames {img : Image} {frameNumber : Nat} (positive : 1 ≤ frameNumber)
    (more : img.extraFrames ≠ []) :
    (withoutFrame img frameNumber).frames = img.frames.eraseIdx (frameNumber - 1) := by
  unfold withoutFrame Image.frames
  by_cases root : frameNumber = 1
  · subst root
    cases extra : img.extraFrames with
    | nil => exact absurd extra more
    | cons first rest => rfl
  · obtain ⟨k, rfl⟩ : ∃ k, frameNumber = k + 2 := ⟨frameNumber - 2, by omega⟩
    simp

/-! ### Frame data -/

/-- Data is cached for a frame. -/
def setData (data : Nat → Option Bytes) (frameId : Nat) (bytes : Bytes) : Nat → Option Bytes :=
  fun id => if id = frameId then some bytes else data id

/-- The data of a frame is forgotten. -/
def forgetData (data : Nat → Option Bytes) (frameId : Nat) : Nat → Option Bytes :=
  fun id => if id = frameId then none else data id

theorem frameData_addToCache (self : GraphicsManager) (internalId frameId : Nat) (bytes : Bytes) :
    (fun id => readFromCache (addToCache self { imageId := internalId, frameId := frameId } bytes)
        { imageId := internalId, frameId := id }) =
      setData (fun id => readFromCache self { imageId := internalId, frameId := id }) frameId
        bytes := by
  funext id
  unfold setData
  by_cases here : id = frameId
  · rw [if_pos here, here, readFromCache_addToCache_self]
  · rw [if_neg here, readFromCache_addToCache_ne]
    simpa using here

theorem frameData_removeFromCache (self : GraphicsManager) (internalId frameId : Nat) :
    (fun id => readFromCache (removeFromCache self { imageId := internalId, frameId := frameId })
        { imageId := internalId, frameId := id }) =
      forgetData (fun id => readFromCache self { imageId := internalId, frameId := id })
        frameId := by
  funext id
  unfold forgetData
  by_cases here : id = frameId
  · rw [if_pos here, here, readFromCache_removeFromCache_self]
  · rw [if_neg here, readFromCache_removeFromCache_ne]
    simpa using here

/-! ### Rules for changes -/

variable (libs : GraphicsLibraries) (answers : Answers)

/-- The manager with the array element that `realloc` adds to the frames of an image. -/
def grownFrames (self : GraphicsManager) (idx : Nat) : GraphicsManager :=
  self.modifyImg idx fun img =>
    { img with
      frameIdCounter := u32 (img.frameIdCounter + 1)
      extraFrames := img.extraFrames ++ [answers.fresh] }

/-- A new frame goes behind the last one, and if it is drawn together with the frames it is based
on, their data is there. -/
structure NewFrameFits (manager : GraphicsManager) (g : GraphicsCommand) (idx slot : Nat) :
    Prop where
  slot : slot = (manager.img idx).extraFrames.length
  based : ∀ other, g.otherFrameNumber ≠ 0 →
    frameForNumber ((grownFrames answers manager idx).img idx) g.otherFrameNumber = some other →
    other.baseFrameId ≠ 0 → referenceChainTooLarge ((grownFrames answers manager idx).img idx) other →
    (getCoalescedFrameData libs.toBlending (grownFrames answers manager idx)
      ((grownFrames answers manager idx).img idx) other).isSome

/-- How a new frame comes about. -/
def MakesFrame (self : GraphicsManager) (g : GraphicsCommand) (idx : Nat) (frame : Frame)
    (ld : LoadData) : Prop :=
  let grown := grownFrames answers self idx
  let transmitted := { transmittedFrame self.currentlyLoading g with
    id := u32 ((self.img idx).frameIdCounter + 1) }
  (g.otherFrameNumber = 0 ∧ frame = transmitted ∧ ld = self.currentlyLoading) ∨
    ∃ other, frameForNumber (grown.img idx) g.otherFrameNumber = some other ∧
      baseOn libs grown (grown.img idx) other transmitted self.currentlyLoading = some (frame, ld)

/-- The frame `handle_compose_command` leaves. -/
def composedFrame (img : Image) (f : Frame) : Frame :=
  { f with x := 0, y := 0, width := img.width, height := img.height, baseFrameId := 0, bgcolor := 0 }

/-- One rule for each kind of change that is allowed. -/
structure FrameRules (allowed : FrameChange → Prop) (P : (Nat → Option Bytes) → Image → Prop) :
    Prop extends ImageInvariant P where
  storage : ∀ {data img} (usedStorage : Nat), P data img → P data { img with usedStorage := usedStorage }
  replaceRoot : ∀ {self : GraphicsManager} {idx : Nat} {data : Nat → Option Bytes} {frameId : Nat},
    allowed (.replaceRoot self idx) →
    self.currentlyLoading.dataSz = self.currentlyLoading.requiredSz →
    frameId = u32 ((self.img idx).frameIdCounter + 1) →
    data = (if (self.img idx).rootFrame.id ≠ 0 then
      forgetData (self.frameData (self.img idx)) (self.img idx).rootFrame.id
      else self.frameData (self.img idx)) →
    P (self.frameData (self.img idx)) (self.img idx) →
    P (if answers.cacheAccepts then setData data frameId self.currentlyLoading.frameData else data)
      ((self.img idx).placeRoot self.currentlyLoading frameId)
  countFrame : ∀ {self : GraphicsManager} {g : GraphicsCommand} {idx slot : Nat},
    allowed (.addFrame self g idx slot) → P (self.frameData (self.img idx)) (self.img idx) →
    P (self.frameData (self.img idx))
      { self.img idx with frameIdCounter := u32 ((self.img idx).frameIdCounter + 1) }
  addFrame : ∀ {self : GraphicsManager} {g : GraphicsCommand} {idx slot : Nat} {frame : Frame}
    {ld : LoadData}, idx < self.images.length → allowed (.addFrame self g idx slot) →
    self.currentlyLoading.Sized libs.toDecoders → MakesFrame libs answers self g idx frame ld →
    P (self.frameData (self.img idx)) (self.img idx) →
    P (setData (self.frameData (self.img idx)) frame.id ld.frameData)
      { self.img idx with
        frameIdCounter := u32 ((self.img idx).frameIdCounter + 1)
        extraFrames := (self.img idx).extraFrames ++ [frame]
        animationDuration := (self.img idx).animationDuration + frame.gap }
  editFrame : ∀ {self gapped : GraphicsManager} {g : GraphicsCommand} {idx frameNumber : Nat}
    {f : Frame} {cfd : CoalescedFrameData} {bytes : Bytes},
    allowed (.editFrame self g idx frameNumber) →
    gapped = gapEdited self g idx frameNumber (transmittedFrame self.currentlyLoading g).gap →
    frameForNumber (gapped.img idx) frameNumber = some f →
    getCoalescedFrameData libs.toBlending gapped (gapped.img idx) f = some cfd →
    bytes.length = pixelSize cfd.isOpaque * (gapped.img idx).width * (gapped.img idx).height →
    P (gapped.frameData (gapped.img idx)) (gapped.img idx) →
    P (if answers.cacheAccepts then setData (gapped.frameData (gapped.img idx)) f.id bytes
        else gapped.frameData (gapped.img idx))
      ((gapped.img idx).modifyFrame frameNumber (flattenFrame (gapped.img idx) cfd))
  deleteFrame : ∀ {self : GraphicsManager} {idx frameNumber : Nat} {f : Frame},
    allowed (.deleteFrame self idx frameNumber) → (self.img idx).extraFrames ≠ [] →
    frameForNumber (self.img idx) frameNumber = some f →
    P (self.frameData (self.img idx)) (self.img idx) →
    P (forgetData (self.frameData (self.img idx)) f.id) (withoutFrame (self.img idx) frameNumber)
  compose : ∀ {self : GraphicsManager} {g : GraphicsCommand} {idx : Nat} {d : ComposeData}
    {srcData destData : CoalescedFrameData} {dest : Frame} {bytes : Bytes},
    allowed (.compose self g idx d srcData destData) →
    frameForNumber (self.img idx) g.otherFrameNumber = some dest →
    getCoalescedFrameData libs.toBlending self (self.img idx) dest = some destData →
    bytes.length = pixelSize destData.isOpaque * (self.img idx).width * (self.img idx).height →
    P (self.frameData (self.img idx)) (self.img idx) →
    P (if answers.cacheAccepts then setData (self.frameData (self.img idx)) dest.id bytes
        else self.frameData (self.img idx))
      ((self.img idx).modifyFrame g.otherFrameNumber (composedFrame (self.img idx)))

section Changes

variable {libs answers} {allowed : FrameChange → Prop} {P : (Nat → Option Bytes) → Image → Prop}

/-- Started over, an image has the frames it had. -/
theorem Holds.startOver (rules : FrameRules libs answers allowed P) {self : GraphicsManager}
    (h : Holds P self) {idx : Nat} (inside : idx < self.images.length) (now : Nat) :
    Holds P (self.modifyImg idx fun img => img.startedOver now) := by
  refine h.modifyImg inside (fun img => img.startedOver now) rfl fun here => ?_
  refine rules.keeps ?_ (rules.storage 0 here)
  exact ⟨rfl, rfl, rfl, rfl, rfl, rfl, rfl, rfl⟩

theorem Holds.replaceRoot (rules : FrameRules libs answers allowed P) {self : GraphicsManager}
    (h : Holds P self) {idx : Nat} (inside : idx < self.images.length)
    (ok : allowed (.replaceRoot self idx))
    (sound : self.currentlyLoading.dataSz = self.currentlyLoading.requiredSz) :
    Holds P (storeRootFrame answers self idx self.currentlyLoading.requiredSz).1 := by
  obtain ⟨frameId, removed, frameIdEq, removedEq, outcome⟩ :=
    @storeRootFrame_cases answers self idx self.currentlyLoading.requiredSz
  have dataEq : (fun id => readFromCache removed
      { imageId := (self.img idx).internalId, frameId := id }) =
      if (self.img idx).rootFrame.id ≠ 0 then
        forgetData (self.frameData (self.img idx)) (self.img idx).rootFrame.id
      else self.frameData (self.img idx) := by
    rw [removedEq]
    split
    · exact frameData_removeFromCache self _ _
    · rfl
  have others (x : ImageAndFrame) (ne : x.imageId ≠ (self.img idx).internalId) :
      readFromCache removed x = readFromCache self x := by
    rw [removedEq]
    split
    · exact readFromCache_removeFromCache_other self ne
    · rfl
  have same : removed.images = self.images ∧ removed.internalIdCounter = self.internalIdCounter := by
    rw [removedEq]
    split <;> exact ⟨rfl, rfl⟩
  have placed := rules.replaceRoot ok sound frameIdEq dataEq (h.everywhere.img inside)
  rcases outcome with ⟨accepts, storedEq⟩ | ⟨refuses, tidied⟩
  · rw [if_pos accepts] at placed
    rw [storedEq]
    refine h.modify inside (fun img => { img.placeRoot self.currentlyLoading frameId with
      usedStorage := self.currentlyLoading.requiredSz, rootFrameDataLoaded := true }) rfl rfl
      same.2 ?_ ?_
    · intro x ne
      exact (readFromCache_addToCache_other removed _ ne).trans (others x ne)
    · have stored := frameData_addToCache removed (self.img idx).internalId frameId
        self.currentlyLoading.frameData
      refine rules.keeps ?_ (stored ▸ rules.storage self.currentlyLoading.requiredSz placed)
      exact ⟨rfl, rfl, rfl, rfl, rfl, rfl, rfl, rfl⟩
  · rw [if_neg refuses] at placed
    refine Holds.tidyLoad rules.toImageInvariant tidied ?_
    refine h.modify inside (fun img => img.placeRoot self.currentlyLoading frameId) ?_ rfl same.2
      others placed
    rw [← same.1]
    rfl

theorem grownFrames_img {self : GraphicsManager} {idx : Nat} (inside : idx < self.images.length) :
    (grownFrames answers self idx).img idx = { self.img idx with
      frameIdCounter := u32 ((self.img idx).frameIdCounter + 1)
      extraFrames := (self.img idx).extraFrames ++ [answers.fresh] } :=
  img_modifyImg inside _

theorem Holds.addFrame (rules : FrameRules libs answers allowed P) {self : GraphicsManager}
    (h : Holds P self) {g : GraphicsCommand} {idx slot : Nat} (inside : idx < self.images.length)
    (ok : allowed (.addFrame self g idx slot)) (fits : NewFrameFits libs answers self g idx slot)
    (sized : self.currentlyLoading.Sized libs.toDecoders) :
    Holds P (addNewFrame libs answers self g idx slot
      (transmittedFrame self.currentlyLoading g)).1 := by
  have img := @grownFrames_img answers self idx inside
  obtain ⟨grown, frameId, grownEq, frameIdEq, outcome⟩ := @addNewFrame_cases libs answers self g idx
    slot (transmittedFrame self.currentlyLoading g)
  obtain rfl : grown = grownFrames answers self idx := grownEq
  have frameIdEq : frameId = u32 ((self.img idx).frameIdCounter + 1) := by rw [frameIdEq, img]
  -- the frame goes where the new array element is
  have place (frame : Frame) : ((self.img idx).extraFrames ++ [answers.fresh]).set slot frame =
      (self.img idx).extraFrames ++ [frame] := by
    rw [fits.slot, List.set_append_right _ _ (Nat.le_refl _)]
    simp
  have dropped {manager : GraphicsManager} (frame : Frame)
      (images : manager.images = self.images.modify idx fun img =>
        { img with
          frameIdCounter := u32 (img.frameIdCounter + 1)
          extraFrames := ((img.extraFrames ++ [answers.fresh]).set slot frame).dropLast })
      (diskCache : manager.diskCache = self.diskCache)
      (counter : manager.internalIdCounter = self.internalIdCounter) : Holds P manager := by
    have sameCache (x : ImageAndFrame) : readFromCache manager x = readFromCache self x := by
      rw [readFromCache, diskCache, readFromCache]
    refine h.modify inside _ images rfl counter (fun x _ => sameCache x) ?_
    simp only [sameCache, place, List.dropLast_concat]
    exact rules.countFrame ok (h.everywhere.img inside)
  rcases outcome with tidied | ⟨other, found, missing, -⟩ | ⟨frame, ld, made, tidied⟩
  · refine Holds.tidyLoad rules.toImageInvariant tidied (h.modify inside _
      (List.modify_modify_eq ..) rfl rfl (fun _ _ => rfl) ?_)
    simp only [Function.comp_apply, List.dropLast_concat]
    exact rules.countFrame ok (h.everywhere.img inside)
  · unfold baseOn at missing
    split at missing
    · rename_i chained
      obtain ⟨cfd, cfdEq⟩ := Option.isSome_iff_exists.1 (fits.based other
        (frameForNumber_eq_some.1 found).1 found chained.1 chained.2)
      rw [cfdEq] at missing
      cases missing
    · cases missing
  · refine Holds.tidyLoad rules.toImageInvariant tidied ?_
    have makes : MakesFrame libs answers self g idx frame ld := by
      rw [frameIdEq] at made
      exact made
    by_cases accepts : answers.cacheAccepts
    · rw [if_pos accepts]
      have images : ((grownFrames answers self idx).images.modify idx fun img =>
          { img with extraFrames := img.extraFrames.set slot frame }).modify idx (fun img =>
            { img with animationDuration := img.animationDuration + frame.gap }) =
          self.images.modify idx fun img =>
            { img with
              frameIdCounter := u32 (img.frameIdCounter + 1)
              extraFrames := (img.extraFrames ++ [answers.fresh]).set slot frame
              animationDuration := img.animationDuration + frame.gap } := by
        rw [List.modify_modify_eq]
        exact List.modify_modify_eq ..
      refine h.modify inside _ images rfl rfl ?_ ?_
      · intro x ne
        refine readFromCache_addToCache_other _ _ ?_
        rw [img]
        exact ne
      · rw [place]
        have stored := rules.addFrame inside ok sized makes (h.everywhere.img inside)
        have dataEq := frameData_addToCache (grownFrames answers self idx) (self.img idx).internalId
          frame.id ld.frameData
        have sameId : ((grownFrames answers self idx).img idx).internalId =
            (self.img idx).internalId := by rw [img]
        rw [sameId]
        show P (fun id => readFromCache
          (addToCache (grownFrames answers self idx)
            { imageId := (self.img idx).internalId, frameId := frame.id } ld.frameData)
          { imageId := (self.img idx).internalId, frameId := id }) _
        rw [dataEq]
        exact stored
    · rw [if_neg accepts]
      refine dropped frame ?_ rfl rfl
      show ((grownFrames answers self idx).images.modify idx _).modify idx _ = _
      rw [List.modify_modify_eq]
      exact List.modify_modify_eq ..

theorem modifyFrame_internalId (img : Image) (frameNumber : Nat) (change : Frame → Frame) :
    (img.modifyFrame frameNumber change).internalId = img.internalId := by
  unfold Image.modifyFrame
  split <;> rfl

theorem Holds.gapEdited (rules : FrameRules libs answers allowed P) {self : GraphicsManager}
    (h : Holds P self) {g : GraphicsCommand} {idx frameNumber : Nat} {f : Frame} (gap : Nat)
    (inside : idx < self.images.length) (found : frameForNumber (self.img idx) frameNumber = some f) :
    Holds P (gapEdited self g idx frameNumber gap) := by
  refine h.modifyImg inside _ ?_ fun here => ?_
  · split
    · exact changeGap_internalId _ _ _
    · rfl
  · split
    · exact rules.changeGap gap found here
    · exact here

theorem Holds.editFrame (rules : FrameRules libs answers allowed P) {self : GraphicsManager}
    (h : Holds P self) {g : GraphicsCommand} {idx frameNumber : Nat}
    (inside : idx < self.images.length) (ok : allowed (.editFrame self g idx frameNumber)) :
    Holds P (Smelly.editFrame libs answers self g idx frameNumber
      (transmittedFrame self.currentlyLoading g)).1 := by
  rcases @editFrame_cases libs answers self g idx frameNumber
      (transmittedFrame self.currentlyLoading g) with
    same | ⟨⟨old, oldEq⟩, same | ⟨gapped, img, f, cfd, flat, bytes, gappedEq, rfl, found, coalesced,
      flatEq, length, tidied⟩⟩
  · exact h.tidyLoad rules.toImageInvariant same
  · exact (h.gapEdited rules _ inside oldEq).tidyLoad rules.toImageInvariant same
  · have hGapped : Holds P gapped := gappedEq ▸ h.gapEdited rules _ inside oldEq
    have insideGapped : idx < gapped.images.length := by
      rw [gappedEq]
      exact (modifyImg_length _ _ _).symm ▸ inside
    have flattened := rules.editFrame ok gappedEq found coalesced length
      (hGapped.everywhere.img insideGapped)
    have internalId := modifyFrame_internalId (gapped.img idx) frameNumber
      (flattenFrame (gapped.img idx) cfd)
    refine Holds.tidyLoad rules.toImageInvariant tidied ?_
    by_cases accepts : answers.cacheAccepts
    · rw [if_pos accepts] at flattened ⊢
      refine hGapped.modify insideGapped
        (fun img => img.modifyFrame frameNumber (flattenFrame img cfd)) (flatEq ▸ rfl) internalId
        (flatEq ▸ rfl) ?_ ?_
      · intro x ne
        rw [readFromCache_addToCache_other _ _ ne, flatEq]
        rfl
      · rw [frameData_addToCache, flatEq]
        exact flattened
    · rw [if_neg accepts] at flattened ⊢
      rw [flatEq]
      exact hGapped.modify insideGapped _ rfl internalId rfl (fun _ _ => rfl) flattened

theorem Holds.deleteFrame (rules : FrameRules libs answers allowed P) {self : GraphicsManager}
    (h : Holds P self) {idx frameNumber : Nat} (inside : idx < self.images.length)
    (ok : allowed (.deleteFrame self idx frameNumber))
    (sound : (FrameChange.deleteFrame self idx frameNumber).Sound libs) :
    Holds P ((FrameChange.deleteFrame self idx frameNumber).after libs answers) := by
  obtain ⟨positive, last, more⟩ := sound
  obtain ⟨f, found⟩ : ∃ f, frameForNumber (self.img idx) frameNumber = some f := by
    have bound : frameNumber - 1 < (self.img idx).frames.length := by
      simp only [Image.frames, List.length_cons]
      omega
    exact ⟨_, frameForNumber_eq_some.2 ⟨by omega, List.getElem?_eq_getElem bound⟩⟩
  refine h.modify inside (fun img => withoutFrame img frameNumber) rfl rfl rfl ?_ ?_
  · exact fun x ne => readFromCache_removeFromCache_other self ne
  · have deleted := rules.deleteFrame ok more found (h.everywhere.img inside)
    have dataEq := frameData_removeFromCache self (self.img idx).internalId f.id
    show P (fun id => readFromCache (removeFromCache self
      { imageId := (self.img idx).internalId
        frameId := ((frameForNumber (self.img idx) frameNumber).getD {}).id })
      { imageId := (self.img idx).internalId, frameId := id }) _
    rw [found, Option.getD_some, dataEq]
    exact deleted

theorem Holds.compose (rules : FrameRules libs answers allowed P) {self : GraphicsManager}
    (h : Holds P self) {g : GraphicsCommand} {idx : Nat} {d : ComposeData}
    {srcData destData : CoalescedFrameData} (inside : idx < self.images.length)
    (ok : allowed (.compose self g idx d srcData destData))
    (sound : (FrameChange.compose self g idx d srcData destData).Sound libs) :
    Holds P (composeCoalesced libs answers self g idx d srcData destData).1 := by
  obtain ⟨dest, found, coalesced⟩ := sound
  obtain ⟨bytes, bytesEq⟩ : ∃ bytes, bytes =
    bytesFrom ((composeRectangles libs.toBlending d destData.buf srcData.buf).getD destData.buf)
      (pixelSize destData.isOpaque * (self.img idx).width * (self.img idx).height) := ⟨_, rfl⟩
  have composed := rules.compose ok found coalesced (bytesEq ▸ bytesFrom_length _ _)
    (h.everywhere.img inside)
  have internalId := modifyFrame_internalId (self.img idx) g.otherFrameNumber
    (composedFrame (self.img idx))
  have flattened : Holds P ((if answers.cacheAccepts then
      addToCache self { imageId := (self.img idx).internalId, frameId := dest.id } bytes
      else self).modifyImg idx fun img =>
        img.modifyFrame g.otherFrameNumber (composedFrame img)) := by
    by_cases accepts : answers.cacheAccepts
    · rw [if_pos accepts] at composed ⊢
      refine h.modify inside _ rfl internalId rfl
        (fun x ne => readFromCache_addToCache_other self _ ne) ?_
      show P (fun id => readFromCache
        (addToCache self { imageId := (self.img idx).internalId, frameId := dest.id } bytes)
        { imageId := (self.img idx).internalId, frameId := id }) _
      rw [frameData_addToCache]
      exact composed
    · rw [if_neg accepts] at composed ⊢
      exact h.modify inside _ rfl internalId rfl (fun _ _ => rfl) composed
  refine flattened.tidy rules.toImageInvariant ?_
  unfold composeCoalesced
  dsimp only
  rw [found, Option.getD_some, ← bytesEq]
  generalize (if answers.cacheAccepts then
    addToCache self { imageId := (self.img idx).internalId, frameId := dest.id } bytes
    else self) = stored
  split
  · refine .modifyImg _ idx ?_
    exact fun _ => ⟨rfl, rfl, rfl, rfl, rfl, rfl, rfl, rfl⟩
  · exact .refl _

/-- Every change that is allowed keeps an invariant that obeys the rules. -/
theorem FrameRules.change (rules : FrameRules libs answers allowed P)
    (fits : ∀ self g idx slot, allowed (.addFrame self g idx slot) →
      NewFrameFits libs answers self g idx slot)
    {c : FrameChange} (ok : allowed c) (inside : c.idx < c.before.images.length)
    (sound : c.Sound libs) (h : Holds P c.before) : Holds P (c.after libs answers) := by
  cases c with
  | startOver self idx => exact h.startOver rules inside _
  | replaceRoot self idx => exact h.replaceRoot rules inside ok sound
  | addFrame self g idx slot => exact h.addFrame rules inside ok (fits self g idx slot ok) sound.2
  | editFrame self g idx frameNumber => exact h.editFrame rules inside ok
  | deleteFrame self idx frameNumber => exact h.deleteFrame rules inside ok sound
  | compose self g idx d srcData destData => exact h.compose rules inside ok sound

end Changes

/-- An invariant of images that obeys the rules holds in every run all of whose changes are
allowed. -/
theorem FrameRules.run {libs : GraphicsLibraries} {allowed : Answers → FrameChange → Prop}
    {P : (Nat → Option Bytes) → Image → Prop}
    (rules : ∀ answers, FrameRules libs answers (allowed answers) P)
    (fits : ∀ answers self g idx slot, allowed answers (.addFrame self g idx slot) →
      NewFrameFits libs answers self g idx slot)
    {storageLimit takenIds : Nat} {inputs : List (GraphicsStep × Answers)}
    (taken : ∀ self input, Takes (GraphicsManager.step libs) (grmanAlloc storageLimit takenIds)
      inputs self input → ∀ c ∈ stepChanges libs self input, allowed input.2 c)
    {self : GraphicsManager}
    (visited : Visits (GraphicsManager.step libs) (grmanAlloc storageLimit takenIds) inputs self) :
    Holds P self :=
  (rules {}).toImageInvariant.run libs
    (fun self input => ∀ c ∈ stepChanges libs self input, allowed input.2 c)
    (fun _ input met c mem inside sound h =>
      (rules input.2).change (fits input.2) (met c mem) inside sound h) taken visited

end Smelly
