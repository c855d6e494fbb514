/-
Module: Smelly.Proofs.GraphicsStorage
Purpose: The storage total of a graphics manager is the sum over its images, in every run in which
  no image that occupies storage is transmitted anew.
Trusted boundary: none
-/
import Smelly.Proofs.GraphicsImages
import Smelly.Lib.Sums

namespace Smelly

open Run

/-- The total is the sum over the images. -/
def Accounted (self : GraphicsManager) : Prop :=
  self.usedStorage = (self.images.map Image.usedStorage).sum

/-- What the account of a manager depends on: the total, and who occupies how much. -/
structure SameStorage (before after : GraphicsManager) : Prop where
  total : after.usedStorage = before.usedStorage
  images : after.images.map (fun img => (img.internalId, img.usedStorage)) =
    before.images.map (fun img => (img.internalId, img.usedStorage))
  counter : after.internalIdCounter = before.internalIdCounter

theorem SameStorage.refl (self : GraphicsManager) : SameStorage self self := ⟨rfl, rfl, rfl⟩

theorem map_modify_of_eq {α β : Type} {f : α → β} {change : α → α}
    (keeps : ∀ a, f (change a) = f a) (list : List α) (idx : Nat) :
    (list.modify idx change).map f = list.map f := by
  induction list generalizing idx with
  | nil => cases idx <;> rfl
  | cons a rest ih =>
    cases idx with
    | zero => simp [keeps]
    | succ idx => simp [ih]

theorem SameStorage.modifyImg {first second : GraphicsManager} (h : SameStorage first second)
    (idx : Nat) (change : Image → Image)
    (keeps : ∀ img, ((change img).internalId, (change img).usedStorage) =
      (img.internalId, img.usedStorage)) :
    SameStorage first (second.modifyImg idx change) :=
  ⟨h.total, (map_modify_of_eq keeps second.images idx).trans h.images, h.counter⟩

theorem SameStorage.addToCache {first second : GraphicsManager} (h : SameStorage first second)
    (x : ImageAndFrame) (data : Bytes) : SameStorage first (addToCache second x data) :=
  ⟨h.total, h.images, h.counter⟩

theorem SameStorage.removeFromCache {first second : GraphicsManager} (h : SameStorage first second)
    (x : ImageAndFrame) : SameStorage first (removeFromCache second x) :=
  ⟨h.total, h.images, h.counter⟩

/-- An account that is right, of images that are there. -/
structure GoodAccount (manager : GraphicsManager) : Prop where
  accounted : Accounted manager
  positive : ∀ img ∈ manager.images, img.internalId ≠ 0
  started : manager.internalIdCounter ≠ 0

theorem SameStorage.good {before after : GraphicsManager} (same : SameStorage before after)
    (h : GoodAccount before) : GoodAccount after := by
  have storages : after.images.map Image.usedStorage = before.images.map Image.usedStorage := by
    simpa only [List.map_map, Function.comp_def] using congrArg (List.map Prod.snd) same.images
  have ids : after.images.map Image.internalId = before.images.map Image.internalId := by
    simpa only [List.map_map, Function.comp_def] using congrArg (List.map Prod.fst) same.images
  refine ⟨?_, fun img mem => ?_, same.counter.symm ▸ h.started⟩
  · unfold Accounted
    rw [same.total, storages]
    exact h.accounted
  · obtain ⟨img', mem', idEq⟩ := List.mem_map.1 (ids ▸ img_mem_map mem)
    exact idEq ▸ h.positive img' mem'

/-! ### Steps that leave frames alone -/

theorem accounted_removeImage {self : GraphicsManager} (accounted : Accounted self) (idx : Nat) :
    Accounted (removeImage self idx) := by
  have balance : ((self.images.eraseIdx idx).map Image.usedStorage).sum +
      (self.images.getD idx {}).usedStorage = (self.images.map Image.usedStorage).sum := by
    rw [List.getD_eq_getElem?_getD]
    cases found : self.images[idx]? with
    | none => rw [List.eraseIdx_of_length_le (List.getElem?_eq_none_iff.1 found)]; rfl
    | some img => exact Sums.sum_map_eraseIdx Image.usedStorage found
  show subSize self.usedStorage (self.images.getD idx {}).usedStorage =
    ((self.images.eraseIdx idx).map Image.usedStorage).sum
  unfold Accounted at accounted
  rw [subSize, if_pos (by omega)]
  omega

theorem keepsFrames_storage {images after : List Image}
    (h : List.Forall₂ Image.KeepsFrames images after) :
    after.map (fun img => (img.internalId, img.usedStorage)) =
      images.map (fun img => (img.internalId, img.usedStorage)) := by
  induction h with
  | nil => rfl
  | cons keeps _ ih =>
    rw [List.map_cons, List.map_cons, keeps.usedStorage, keeps.internalId, ih]

theorem goodAccount_tidy {self next : GraphicsManager} (h : Tidy self next)
    (good : GoodAccount self) : GoodAccount next := by
  induction h with
  | update images usedStorage diskCache internalIdCounter =>
    exact SameStorage.good ⟨usedStorage, keepsFrames_storage images, internalIdCounter⟩ good
  | remove self idx =>
    exact ⟨accounted_removeImage good.accounted idx,
      fun img mem => good.positive img ((List.eraseIdx_sublist _ _).subset mem),
      (removeImage_counter self idx).symm ▸ good.started⟩
  | reorder self images perm =>
    refine ⟨?_, fun img mem => good.positive img (perm.subset mem), good.started⟩
    have accounted := good.accounted
    unfold Accounted at accounted ⊢
    rw [accounted]
    exact ((perm.map Image.usedStorage).sum_eq).symm
  | reset self h => exact ⟨by simp [Accounted, h], good.positive, good.started⟩
  | trans _ _ ih ih' => exact ih' (ih good)

theorem goodAccount_tidyLoad {self next : GraphicsManager} (h : TidyLoad self next)
    (good : GoodAccount self) : GoodAccount next := by
  obtain ⟨ld, tidied⟩ := h
  have loaded : GoodAccount { self with currentlyLoading := ld } :=
    ⟨good.accounted, good.positive, good.started⟩
  exact goodAccount_tidy tidied loaded

theorem goodAccount_create {self : GraphicsManager} {img : Image} (blank : img.Blank)
    (internalId : img.internalId = self.internalIdCounter) (good : GoodAccount self) :
    GoodAccount (self.create img) := by
  refine ⟨?_, fun img' mem => ?_, Nat.succ_ne_zero _⟩
  · have accounted := good.accounted
    unfold Accounted at accounted ⊢
    show self.usedStorage = ((self.images ++ [img]).map Image.usedStorage).sum
    simp [accounted, blank.usedStorage]
  · rcases List.mem_append.1 mem with mem | mem
    · exact good.positive img' mem
    · rw [List.mem_singleton.1 mem, internalId]
      exact good.started

/-! ### Changes to frames -/

theorem modifyFrame_storage (img : Image) (frameNumber : Nat) (change : Frame → Frame) :
    ((img.modifyFrame frameNumber change).internalId,
      (img.modifyFrame frameNumber change).usedStorage) = (img.internalId, img.usedStorage) := by
  unfold Image.modifyFrame
  split <;> rfl

theorem changeGap_storage (img : Image) (frameNumber : Nat) (gap : Int) :
    ((changeGap img frameNumber gap).internalId, (changeGap img frameNumber gap).usedStorage) =
      (img.internalId, img.usedStorage) :=
  modifyFrame_storage img frameNumber _

theorem controlGap_storage (img : Image) (g : GraphicsCommand) :
    ((controlGap img g).internalId, (controlGap img g).usedStorage) =
      (img.internalId, img.usedStorage) := by
  unfold controlGap
  split
  · exact changeGap_storage img _ _
  · rfl

theorem goodAccount_editFrame {libs : GraphicsLibraries} {answers : Answers}
    {self : GraphicsManager} {g : GraphicsCommand} {idx frameNumber : Nat} {transmitted : Frame}
    (good : GoodAccount self) :
    GoodAccount (editFrame libs answers self g idx frameNumber transmitted).1 := by
  have gapped : SameStorage self (gapEdited self g idx frameNumber transmitted.gap) := by
    refine (SameStorage.refl self).modifyImg idx _ fun img => ?_
    split
    · exact changeGap_storage img _ _
    · rfl
  rcases @editFrame_cases libs answers self g idx frameNumber transmitted with
    same | ⟨-, same | ⟨manager, img, f, cfd, flat, data, rfl, -, -, -, rfl, -, tidied⟩⟩
  · exact goodAccount_tidyLoad same good
  · exact goodAccount_tidyLoad same (gapped.good good)
  · have flattened := gapped.modifyImg idx
      (fun img => img.modifyFrame frameNumber (flattenFrame img cfd))
      fun img => modifyFrame_storage img _ _
    refine goodAccount_tidyLoad tidied ?_
    split
    · exact (flattened.addToCache _ _).good good
    · exact flattened.good good

theorem goodAccount_addNewFrame {libs : GraphicsLibraries} {answers : Answers}
    {self : GraphicsManager} {g : GraphicsCommand} {idx slot : Nat} {transmitted : Frame}
    (good : GoodAccount self) :
    GoodAccount (addNewFrame libs answers self g idx slot transmitted).1 := by
  obtain ⟨grown, frameId, grownEq, -, outcome⟩ :=
    @addNewFrame_cases libs answers self g idx slot transmitted
  have grew : SameStorage self grown :=
    grownEq ▸ (SameStorage.refl self).modifyImg idx _ fun _ => rfl
  have dropped {manager : GraphicsManager} (h : SameStorage self manager) :
      SameStorage self (manager.modifyImg idx fun img =>
        { img with extraFrames := img.extraFrames.dropLast }) :=
    h.modifyImg idx _ fun _ => rfl
  rcases outcome with tidied | ⟨-, -, -, tidied⟩ | ⟨frame, ld, -, tidied⟩
  · exact goodAccount_tidyLoad tidied ((dropped grew).good good)
  · exact goodAccount_tidyLoad tidied (grew.good good)
  · have placed := grew.modifyImg idx
      (fun img => { img with extraFrames := img.extraFrames.set slot frame }) fun _ => rfl
    refine goodAccount_tidyLoad tidied ?_
    split
    · have stored := (placed.addToCache
        { imageId := (grown.img idx).internalId, frameId := frame.id } ld.frameData).modifyImg idx
        (fun img => { img with animationDuration := img.animationDuration + frame.gap }) fun _ => rfl
      exact stored.good good
    · exact (dropped placed).good good

theorem goodAccount_composeCoalesced {libs : GraphicsLibraries} {answers : Answers}
    {self : GraphicsManager} {g : GraphicsCommand} {idx : Nat} {d : ComposeData}
    {srcData destData : CoalescedFrameData} (good : GoodAccount self) :
    GoodAccount (composeCoalesced libs answers self g idx d srcData destData).1 := by
  unfold composeCoalesced
  dsimp only
  generalize storedEq : (if answers.cacheAccepts then
    addToCache self { imageId := (self.img idx).internalId
                      frameId := ((frameForNumber (self.img idx) g.otherFrameNumber).getD {}).id }
      (bytesFrom ((composeRectangles libs.toBlending d destData.buf srcData.buf).getD destData.buf)
        (pixelSize destData.isOpaque * (self.img idx).width * (self.img idx).height))
    else self) = stored
  have same : SameStorage self stored := by
    rw [← storedEq]
    split
    · exact (SameStorage.refl self).addToCache _ _
    · exact .refl self
  have flattened (change : Image → Frame → Frame) := same.modifyImg idx
    (fun img => img.modifyFrame g.otherFrameNumber (change img)) fun img => modifyFrame_storage img _ _
  split
  · exact ((flattened _).modifyImg idx (fun img => { img with currentFrameShownAt := answers.now })
      fun _ => rfl).good good
  · exact (flattened _).good good

/-- A change to an image that occupies no storage adds what it occupies then. -/
theorem goodAccount_occupy {self next : GraphicsManager} {idx : Nat} (good : GoodAccount self)
    (inside : idx < self.images.length) (empty : (self.img idx).usedStorage = 0)
    (change : Image → Image) (images : next.images = self.images.modify idx change)
    (internalId : ∀ img, (change img).internalId = img.internalId)
    (total : next.usedStorage = self.usedStorage + (change (self.img idx)).usedStorage)
    (counter : next.internalIdCounter = self.internalIdCounter) : GoodAccount next := by
  refine ⟨?_, fun img mem => ?_, counter.symm ▸ good.started⟩
  · have found : self.images[idx]? = some (self.images.getD idx {}) := by
      rw [List.getD_eq_getElem?_getD, List.getElem?_eq_getElem inside, Option.getD_some]
    have balance := Sums.sum_map_modify Image.usedStorage change found
    have accounted := good.accounted
    unfold Accounted at accounted ⊢
    unfold GraphicsManager.img at empty total
    rw [images, total]
    omega
  · have ids : next.images.map Image.internalId = self.images.map Image.internalId := by
      rw [images]
      exact map_modify_of_eq internalId self.images idx
    obtain ⟨img', mem', idEq⟩ := List.mem_map.1 (ids ▸ img_mem_map mem)
    exact idEq ▸ good.positive img' mem'

/-- An image that occupies storage is not started over, and gets no second root frame. -/
def KeepsAccount (answers : Answers) : FrameChange → Prop
  | .startOver self idx => (self.img idx).usedStorage = 0
  | .replaceRoot self idx => answers.cacheAccepts → (self.img idx).usedStorage = 0
  | _ => True

theorem goodAccount_storeRootFrame {answers : Answers} {self : GraphicsManager} {idx requiredSz : Nat}
    (good : GoodAccount self) (inside : idx < self.images.length)
    (empty : answers.cacheAccepts → (self.img idx).usedStorage = 0) :
    GoodAccount (storeRootFrame answers self idx requiredSz).1 := by
  obtain ⟨frameId, removed, -, removedEq, outcome⟩ :=
    @storeRootFrame_cases answers self idx requiredSz
  have same : SameStorage self removed := by
    rw [removedEq]
    split
    · exact (SameStorage.refl self).removeFromCache _
    · exact .refl self
  rcases outcome with ⟨accepts, storedEq⟩ | ⟨-, tidied⟩
  · rw [storedEq]
    exact goodAccount_occupy good inside (empty accepts)
      (fun img => { img.placeRoot self.currentlyLoading frameId with
        usedStorage := requiredSz, rootFrameDataLoaded := true })
      rfl (fun _ => rfl) rfl same.counter
  · exact goodAccount_tidyLoad tidied ((same.modifyImg idx
      (fun img => img.placeRoot self.currentlyLoading frameId) fun _ => rfl).good good)

instance (answers : Answers) (c : FrameChange) : Decidable (KeepsAccount answers c) :=
  match c with
  | .startOver self idx => inferInstanceAs (Decidable ((self.img idx).usedStorage = 0))
  | .replaceRoot self idx =>
    inferInstanceAs (Decidable (answers.cacheAccepts → (self.img idx).usedStorage = 0))
  | .addFrame .. => .isTrue trivial
  | .editFrame .. => .isTrue trivial
  | .deleteFrame .. => .isTrue trivial
  | .compose .. => .isTrue trivial

theorem goodAccount_change {libs : GraphicsLibraries} {answers : Answers} {c : FrameChange}
    (keeps : KeepsAccount answers c) (inside : c.idx < c.before.images.length)
    (good : GoodAccount c.before) : GoodAccount (c.after libs answers) := by
  cases c with
  | startOver self idx => exact goodAccount_occupy good inside keeps _ rfl (fun _ => rfl) rfl rfl
  | replaceRoot self idx => exact goodAccount_storeRootFrame good inside keeps
  | addFrame self g idx slot => exact goodAccount_addNewFrame good
  | editFrame self g idx frameNumber => exact goodAccount_editFrame good
  | deleteFrame self idx frameNumber =>
    have uncached := (SameStorage.refl self).removeFromCache
      { imageId := (self.img idx).internalId
        frameId := ((frameForNumber (self.img idx) frameNumber).getD {}).id }
    exact (uncached.modifyImg idx (fun img => withoutFrame img frameNumber) fun _ => rfl).good good
  | compose self g idx d srcData destData => exact goodAccount_composeCoalesced good

/-- No change of the step is to an image that occupies storage. -/
def keepsAccount (libs : GraphicsLibraries) (self : GraphicsManager)
    (input : GraphicsStep × Answers) : Prop :=
  ∀ c ∈ stepChanges libs self input, KeepsAccount input.2 c

instance (libs : GraphicsLibraries) (self : GraphicsManager) (input : GraphicsStep × Answers) :
    Decidable (keepsAccount libs self input) :=
  inferInstanceAs (Decidable (∀ c ∈ stepChanges libs self input, KeepsAccount input.2 c))

/-- Storage accounting: in every run in which no image that occupies storage is transmitted anew,
the total is the sum over the images in every state. -/
theorem graphicsStorage_accounted (libs : GraphicsLibraries) (storageLimit takenIds : Nat)
    (inputs : List (GraphicsStep × Answers))
    (taken : ∀ self input, Takes (GraphicsManager.step libs) (grmanAlloc storageLimit takenIds)
      inputs self input → keepsAccount libs self input) (self : GraphicsManager)
    (visited : Visits (GraphicsManager.step libs) (grmanAlloc storageLimit takenIds) inputs self) :
    self.usedStorage = (self.images.map Image.usedStorage).sum := by
  have start : GoodAccount (grmanAlloc storageLimit takenIds) :=
    ⟨rfl, (fun _ mem => nomatch mem), Nat.succ_ne_zero _⟩
  refine (graphics_run libs GoodAccount (fun good => good.positive)
    (fun tidied good => goodAccount_tidy tidied good)
    (fun ld good => ⟨good.accounted, good.positive, good.started⟩)
    (fun blank internalId good => goodAccount_create blank internalId good)
    (fun manager idx g good => ((SameStorage.refl manager).modifyImg idx
      (fun img => controlGap img g) fun img => controlGap_storage img g).good good)
    (keepsAccount libs) ?_ start (LoadData.declared_of_idle rfl) taken visited).accounted
  exact fun manager input met c mem inside _ good => goodAccount_change (met c mem) inside good

/-- Libraries for runs that neither decode nor blend. -/
def plainLibraries : GraphicsLibraries where
  inflate := fun data _ => .ok data
  inflatePng := fun _ => .error "EBADPNG:"
  onOpaque := fun _ overlay _ => overlay
  alpha := fun _ srcAlpha => srcAlpha
  onAlpha := fun _ _ src _ => src

/-- A pixel transmitted under an image id. -/
def transmitPixel (id : Nat) : GraphicsStep × Answers :=
  (.command { action := 't'.toUInt8, format := 24, dataWidth := 1, dataHeight := 1, id := id } [1, 2, 3] {}
    ⟨10, 20⟩, {})

/-- The same image transmitted twice counts twice. -/
theorem graphicsStorage_leaks :
    ∃ self, Visits (GraphicsManager.step plainLibraries) (grmanAlloc 1000 0)
        [transmitPixel 1, transmitPixel 1] self ∧
      self.usedStorage = 6 ∧ (self.images.map Image.usedStorage).sum = 3 :=
  ⟨_, ⟨_, List.prefix_rfl, rfl⟩, rfl, rfl⟩

/-- Two images. -/
theorem graphicsStorage_accounted_twoImages :
    ∃ self, run (GraphicsManager.step plainLibraries) (grmanAlloc 1000 0)
        [transmitPixel 1, transmitPixel 2] = some self ∧
      self.usedStorage = (self.images.map Image.usedStorage).sum := by
  refine ⟨_, rfl, graphicsStorage_accounted plainLibraries 1000 0
    [transmitPixel 1, transmitPixel 2] ?_ _ ⟨_, List.prefix_rfl, rfl⟩⟩
  intro self input taken
  rcases takes_cons taken with ⟨rfl, rfl⟩ | ⟨first, firstEq, taken⟩
  · decide
  · rcases takes_cons taken with ⟨rfl, rfl⟩ | ⟨second, -, taken⟩
    · rw [← Option.some.inj firstEq]
      decide
    · exact absurd taken (not_takes_nil _ _ _ _)

end Smelly
