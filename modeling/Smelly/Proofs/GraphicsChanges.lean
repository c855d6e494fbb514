/-
Module: Smelly.Proofs.GraphicsChanges
Purpose: What a graphics command can do to the frames of images.  Every step is a chain of tidying,
  of new images, of new gaps and of the few changes that start an image over and replace, add,
  edit, delete or compose frames.  The changes are computed from the step and the manager
  before it, so that a condition on a step is a condition on its changes.
Trusted boundary: none
-/
import Smelly.Proofs.GraphicsFormat
import Smelly.Proofs.GraphicsTidy

namespace Smelly

/-- A change to one image, with the manager just before it. -/
inductive FrameChange where
  | startOver (self : GraphicsManager) (idx : Nat)
  | replaceRoot (self : GraphicsManager) (idx : Nat)
  | addFrame (self : GraphicsManager) (g : GraphicsCommand) (idx slot : Nat)
  | editFrame (self : GraphicsManager) (g : GraphicsCommand) (idx frameNumber : Nat)
  | deleteFrame (self : GraphicsManager) (idx frameNumber : Nat)
  | compose (self : GraphicsManager) (g : GraphicsCommand) (idx : Nat) (d : ComposeData)
      (srcData destData : CoalescedFrameData)

namespace FrameChange

/-- The manager before a change. -/
def before : FrameChange → GraphicsManager
  | .startOver self _ => self
  | .replaceRoot self _ => self
  | .addFrame self _ _ _ => self
  | .editFrame self _ _ _ => self
  | .deleteFrame self _ _ => self
  | .compose self _ _ _ _ _ => self

/-- The image a change is about. -/
def idx : FrameChange → Nat
  | .startOver _ idx => idx
  | .replaceRoot _ idx => idx
  | .addFrame _ _ idx _ => idx
  | .editFrame _ _ idx _ => idx
  | .deleteFrame _ idx _ => idx
  | .compose _ _ idx _ _ _ => idx

end FrameChange

/-- What the dimensions of received data ask for. -/
def LoadData.requiredSz (ld : LoadData) : Nat := pixelSize ld.isOpaque * ld.width * ld.height

/-- What starting an image over does to it. -/
def Image.startedOver (img : Image) (now : Nat) : Image :=
  { img with
    rootFrameDataLoaded := false
    isDrawn := false
    currentFrameShownAt := 0
    refs := []
    atime := now
    usedStorage := 0 }

variable (libs : GraphicsLibraries) (answers : Answers)

/-- The manager after a change. -/
def FrameChange.after : FrameChange → GraphicsManager
  | .startOver self idx => self.modifyImg idx fun img => img.startedOver answers.now
  | .replaceRoot self idx => (storeRootFrame answers self idx self.currentlyLoading.requiredSz).1
  | .addFrame self g idx slot =>
    (addNewFrame libs answers self g idx slot (transmittedFrame self.currentlyLoading g)).1
  | .editFrame self g idx frameNumber =>
    (Smelly.editFrame libs answers self g idx frameNumber (transmittedFrame self.currentlyLoading g)).1
  | .deleteFrame self idx frameNumber =>
    (removeFromCache self
      { imageId := (self.img idx).internalId
        frameId := ((frameForNumber (self.img idx) frameNumber).getD {}).id }).modifyImg idx
      fun img => withoutFrame img frameNumber
  | .compose self g idx d srcData destData =>
    (composeCoalesced libs answers self g idx d srcData destData).1

/-- What is known where a change happens. -/
def FrameChange.Sound : FrameChange → Prop
  | .startOver _ _ => True
  | .replaceRoot self _ => self.currentlyLoading.dataSz = self.currentlyLoading.requiredSz
  | .addFrame self _ idx slot =>
    slot ≤ (self.img idx).extraFrames.length ∧ self.currentlyLoading.Sized libs.toDecoders
  | .editFrame _ _ _ _ => True
  | .deleteFrame self idx frameNumber =>
    1 ≤ frameNumber ∧ frameNumber ≤ (self.img idx).extraFrames.length + 1 ∧
      (self.img idx).extraFrames ≠ []
  | .compose self g idx _ _ destData =>
    ∃ dest, frameForNumber (self.img idx) g.otherFrameNumber = some dest ∧
      getCoalescedFrameData libs.toBlending self (self.img idx) dest = some destData

/-! ### The changes of a step -/

/-- The root frame is replaced when data that fits its dimensions is there. -/
def rootChanges (self : GraphicsManager) (ld : LoadData) (g : GraphicsCommand) (tt : Char)
    (fmt : Nat) (payload : Bytes) (idx : Nat) : List FrameChange :=
  match receiveData libs.toDecoders answers ld g tt fmt payload with
  | none => []
  | some ld =>
    if ld.dataSz = ld.requiredSz then [.replaceRoot { self with currentlyLoading := ld } idx]
    else []

/-- The changes of `handle_add_command`. -/
def addChanges (self : GraphicsManager) (g : GraphicsCommand) (payload : Bytes) (iid : Nat) :
    List FrameChange :=
  let tt := transmissionTypeOf g
  let fmt := formatOf g
  if tt = 'd' ∧ self.currentlyLoading.loadingFor.imageId ≠ 0 then
    let ld := initChunkedLoad self.currentlyLoading g
    let g := ld.startCommand
    match imgByInternalId self ld.loadingFor.imageId with
    | none => []
    | some idx =>
      rootChanges libs answers self ld g (transmissionTypeOf g) (formatOf g) payload idx
  else if maxImageDimension < g.dataWidth ∨ maxImageDimension < g.dataHeight then []
  else
    let trimmed := removeImages self addTrimPredicate 0
    let (prepared, idx, iid') := prepareImage answers self g iid
    (match if iid = 0 then none else imgByClientId trimmed iid with
      | some idx => [.startOver trimmed idx]
      | none => []) ++
    match initializeLoadData g (prepared.img idx).internalId tt fmt 0 with
    | (_, some _) => []
    | (ld, none) =>
      rootChanges libs answers prepared
        { ld with startCommand := { ld.startCommand with id := iid' } } g tt fmt payload idx

/-- The changes of `handle_animation_frame_load_command` behind `process_image_data`. -/
def finishChanges (self : GraphicsManager) (g : GraphicsCommand)
    (idx frameNumber : Nat) (isNewFrame : Bool) : List FrameChange :=
  let ld := self.currentlyLoading
  match frameLoadError ld g (self.img idx) with
  | some _ => []
  | none =>
    if isNewFrame then
      let full := cacheTooLarge self answers.cacheSize ld.dataSz
      let trimmed :=
        if full then removeImages self trimPredicate (self.img idx).internalId else self
      if full ∧ cacheTooLarge trimmed answers.cacheSizeTrimmed ld.dataSz then []
      else [.addFrame trimmed g idx (frameNumber - 2)]
    else [.editFrame self g idx frameNumber]

/-- The changes of `handle_animation_frame_load_command` from `load_image_data` on. -/
def frameLoadChanges (self : GraphicsManager) (ld : LoadData) (g : GraphicsCommand) (tt : Char)
    (fmt : Nat) (payload : Bytes) (idx frameNumber : Nat) (isNewFrame : Bool) :
    List FrameChange :=
  match receiveData libs.toDecoders answers ld g tt fmt payload with
  | none => []
  | some ld =>
    finishChanges answers { self with currentlyLoading := ld } g idx frameNumber isNewFrame

/-- The changes of `handle_animation_frame_load_command`. -/
def animationFrameChanges (self : GraphicsManager) (g : GraphicsCommand) (payload : Bytes)
    (idx : Nat) : List FrameChange :=
  let img := self.img idx
  let frameNumber := frameNumberOf img g
  let isNewFrame := frameNumber = img.extraFrames.length + 2
  let g := { g with numLines := frameNumber }
  let tt := transmissionTypeOf g
  let fmt := formatOf g
  if tt = 'd' ∧ self.currentlyLoading.loadingFor.imageId = img.internalId then
    let ld := initChunkedLoad self.currentlyLoading g
    let g := ld.startCommand
    frameLoadChanges libs answers self ld g (transmissionTypeOf g) (formatOf g) payload idx
      frameNumber isNewFrame
  else if maxImageDimension < g.dataWidth ∨ maxImageDimension < g.dataHeight then []
  else match initializeLoadData g img.internalId tt fmt (frameNumber - 1) with
    | (_, some _) => []
    | (ld, none) => frameLoadChanges libs answers self ld g tt fmt payload idx frameNumber isNewFrame

/-- The changes of `handle_delete_frame_command`. -/
def deleteFrameChanges (self : GraphicsManager) (g : GraphicsCommand) : List FrameChange :=
  match if g.id = 0 ∧ g.imageNumber = 0 then none
      else if g.id ≠ 0 then imgByClientId self g.id
      else imgByClientNumber self g.imageNumber with
  | none => []
  | some idx =>
    let img := self.img idx
    if img.extraFrames.isEmpty then []
    else [.deleteFrame self idx (max 1 (min (img.extraFrames.length + 1) g.frameNumber))]

/-- The changes of `handle_compose_command`. -/
def composeChanges (self : GraphicsManager) (g : GraphicsCommand) (idx : Nat) :
    List FrameChange :=
  let img := self.img idx
  match frameForNumber img g.frameNumber, frameForNumber img g.otherFrameNumber with
  | some src, some dest =>
    match composeRectanglesFor g img, getCoalescedFrameData libs.toBlending self img src,
        getCoalescedFrameData libs.toBlending self img dest with
    | .ok d, some srcData, some destData =>
      [.compose self g idx (d srcData.isOpaque destData.isOpaque) srcData destData]
    | _, _, _ => []
  | _, _ => []

/-- The changes of a command that transmits an image. -/
def transmissionChanges (self : GraphicsManager) (g : GraphicsCommand) (payload : Bytes) :
    List FrameChange :=
  if Char.ofUInt8 g.action = 'q' ∧ g.id = 0 then []
  else addChanges libs answers self g payload (if Char.ofUInt8 g.action = 'q' then 0 else g.id)

/-- The changes of a command that loads a frame. -/
def animationChanges (self : GraphicsManager) (g : GraphicsCommand) (payload : Bytes) :
    List FrameChange :=
  let loadingFor := self.currentlyLoading.loadingFor.imageId
  if g.id = 0 ∧ g.imageNumber = 0 ∧ loadingFor = 0 then []
  else
    match if loadingFor ≠ 0 then imgByInternalId self loadingFor else imageReferredTo self g with
    | none => []
    | some idx => animationFrameChanges libs answers self g payload idx

/-- The changes of `grman_handle_command`. -/
def commandChanges (self : GraphicsManager) (g : GraphicsCommand) (payload : Bytes) :
    List FrameChange :=
  if g.id ≠ 0 ∧ g.imageNumber ≠ 0 then []
  else match Char.ofUInt8 g.action with
    | '\x00' => transmissionChanges libs answers self g payload
    | 't' => transmissionChanges libs answers self g payload
    | 'T' => transmissionChanges libs answers self g payload
    | 'q' => transmissionChanges libs answers self g payload
    | 'f' => animationChanges libs answers self g payload
    | 'd' =>
      if Char.ofUInt8 g.deleteAction = 'f' ∨ Char.ofUInt8 g.deleteAction = 'F' then deleteFrameChanges self g else []
    | 'c' =>
      if g.id = 0 ∧ g.imageNumber = 0 then []
      else match imageReferredTo self g with
        | none => []
        | some idx => composeChanges libs self g idx
    | _ => []

/-- The changes of a step. -/
def stepChanges (self : GraphicsManager) : GraphicsStep × Answers → List FrameChange
  | (.command g payload _ _, answers) => commandChanges libs answers self g payload
  | _ => []

/-! ### Chains of changes -/

/-- An image without frames. -/
structure Image.Blank (img : Image) : Prop where
  rootFrame : img.rootFrame = {}
  extraFrames : img.extraFrames = []
  frameIdCounter : img.frameIdCounter = 0
  animationDuration : img.animationDuration = 0
  usedStorage : img.usedStorage = 0

/-- The manager with a new image. -/
def GraphicsManager.create (self : GraphicsManager) (img : Image) : GraphicsManager :=
  { self with images := self.images ++ [img], internalIdCounter := self.internalIdCounter + 1 }

/-- A chain of steps that tidy up, make an image, set a gap, or make one of the changes given. -/
inductive Chain (changes : List FrameChange) : GraphicsManager → GraphicsManager → Prop
  | tidy {self next : GraphicsManager} (h : Tidy self next) : Chain changes self next
  | load (self : GraphicsManager) (ld : LoadData) :
      Chain changes self { self with currentlyLoading := ld }
  | create (self : GraphicsManager) (img : Image) (blank : img.Blank)
      (internalId : img.internalId = self.internalIdCounter) :
      Chain changes self (self.create img)
  | setGap (self : GraphicsManager) (idx : Nat) (g : GraphicsCommand) :
      Chain changes self (self.modifyImg idx fun img => controlGap img g)
  | change (c : FrameChange) (mem : c ∈ changes) (inside : c.idx < c.before.images.length)
      (sound : c.Sound libs) : Chain changes c.before (c.after libs answers)
  | trans {first second third : GraphicsManager} (h : Chain changes first second)
      (h' : Chain changes second third) : Chain changes first third

/-- What the links of a chain preserve is preserved by the chain. -/
theorem Chain.preserves {libs : GraphicsLibraries} {answers : Answers} {changes : List FrameChange}
    {self next : GraphicsManager} (h : Chain libs answers changes self next)
    (invariant : GraphicsManager → Prop)
    (tidy : ∀ {self next}, Tidy self next → invariant self → invariant next)
    (load : ∀ {self : GraphicsManager} (ld : LoadData), invariant self →
      invariant { self with currentlyLoading := ld })
    (create : ∀ {self : GraphicsManager} {img : Image}, img.Blank →
      img.internalId = self.internalIdCounter → invariant self → invariant (self.create img))
    (setGap : ∀ (self : GraphicsManager) idx g, invariant self →
      invariant (self.modifyImg idx fun img => controlGap img g))
    (change : ∀ c ∈ changes, c.idx < c.before.images.length → c.Sound libs → invariant c.before →
      invariant (c.after libs answers)) :
    invariant self → invariant next := by
  induction h with
  | tidy h => exact tidy h
  | load self ld => exact load ld
  | create self img blank internalId => exact create blank internalId
  | setGap self idx g => exact setGap self idx g
  | change c mem inside sound => exact change c mem inside sound
  | trans _ _ ih ih' => exact fun start => ih' (ih start)

section Chains

variable {libs answers} {changes : List FrameChange}

theorem Chain.refl (self : GraphicsManager) : Chain libs answers changes self self :=
  .tidy (.refl self)

theorem Chain.thenTidy {first second third : GraphicsManager}
    (h : Chain libs answers changes first second) (tidy : Tidy second third) :
    Chain libs answers changes first third :=
  h.trans (.tidy tidy)

theorem Chain.mono {more : List FrameChange} {self next : GraphicsManager}
    (h : Chain libs answers changes self next) (sub : ∀ c ∈ changes, c ∈ more) :
    Chain libs answers more self next := by
  induction h with
  | tidy h => exact .tidy h
  | load self ld => exact .load self ld
  | create self img blank internalId => exact .create self img blank internalId
  | setGap self idx g => exact .setGap self idx g
  | change c mem inside sound => exact .change c (sub c mem) inside sound
  | trans _ _ ih ih' => exact ih.trans ih'

end Chains

/-! ### Looking images up -/

theorem img_eq {self : GraphicsManager} {idx : Nat} (inside : idx < self.images.length) :
    self.img idx = self.images[idx] := by
  rw [GraphicsManager.img, List.getD_eq_getElem?_getD, List.getElem?_eq_getElem inside]
  rfl

theorem imgByInternalId_inside {self : GraphicsManager} {id idx : Nat}
    (h : imgByInternalId self id = some idx) :
    idx < self.images.length ∧ (self.img idx).internalId = id := by
  obtain ⟨inside, found, -⟩ := List.findIdx?_eq_some_iff_getElem.1 h
  exact ⟨inside, (congrArg Image.internalId (img_eq inside)).trans (of_decide_eq_true found)⟩

theorem imgByClientId_inside {self : GraphicsManager} {id idx : Nat}
    (h : imgByClientId self id = some idx) : idx < self.images.length :=
  (List.findIdx?_eq_some_iff_getElem.1 h).1

theorem imgByClientNumber_inside {self : GraphicsManager} {number idx : Nat}
    (h : imgByClientNumber self number = some idx) : idx < self.images.length := by
  obtain ⟨i, found, rfl⟩ := Option.map_eq_some_iff.1 h
  have inside := (List.findIdx?_eq_some_iff_getElem.1 found).1
  rw [List.length_reverse] at inside
  omega

theorem imageReferredTo_inside {self : GraphicsManager} {g : GraphicsCommand} {idx : Nat}
    (h : imageReferredTo self g = some idx) : idx < self.images.length := by
  unfold imageReferredTo at h
  split at h
  · exact imgByClientId_inside h
  · exact imgByClientNumber_inside h

/-! ### Transmitting an image -/

/-- A chain that ends with a declared transmission, or with none. -/
structure Leads (changes : List FrameChange) (first last : GraphicsManager) : Prop where
  chain : Chain libs answers changes first last
  declared : last.currentlyLoading.Declared

variable {libs answers}

theorem Leads.before {changes : List FrameChange} {first second third : GraphicsManager}
    (chain : Chain libs answers changes first second) (h : Leads libs answers changes second third) :
    Leads libs answers changes first third :=
  ⟨chain.trans h.chain, h.declared⟩

theorem failedLoad_leads {changes : List FrameChange} (self : GraphicsManager)
    (result : LoadData × Option String) (declared : result.1.Declared) :
    Leads libs answers changes self (failedLoad self result).1 :=
  ⟨.load self result.1, declared⟩

theorem abortLoad_leads {changes : List FrameChange} (self : GraphicsManager) (ld : LoadData)
    (code message : String) :
    Leads libs answers changes self (failedLoad self (abortLoad ld code message)).1 :=
  failedLoad_leads self _ (LoadData.declared_of_idle rfl)

theorem storeRootFrame_declared {self : GraphicsManager} {idx requiredSz : Nat}
    (declared : self.currentlyLoading.Declared) :
    (storeRootFrame answers self idx requiredSz).1.currentlyLoading.Declared := by
  unfold storeRootFrame
  dsimp only
  split
  · split
    · exact declared
    · exact declared
  · exact LoadData.declared_of_idle rfl

/-- Tidying up after other data was loaded. -/
def TidyLoad (self next : GraphicsManager) : Prop :=
  ∃ ld, Tidy { self with currentlyLoading := ld } next

/-- The image with received data as its root frame. -/
def Image.placeRoot (img : Image) (ld : LoadData) (frameId : Nat) : Image :=
  { img with
    width := ld.width
    height := ld.height
    frameIdCounter := frameId
    rootFrame := { id := frameId, isOpaque := ld.isOpaque, is4byteAligned := ld.is4byteAligned
                   width := ld.width, height := ld.height } }

/-- What replacing the root frame leaves: the frame in its place, and if the cache takes the data
also the data and what it occupies. -/
theorem storeRootFrame_cases (self : GraphicsManager) (idx requiredSz : Nat) :
    ∃ frameId removed, frameId = u32 ((self.img idx).frameIdCounter + 1) ∧
      removed = (if (self.img idx).rootFrame.id ≠ 0 then
        removeFromCache self
          { imageId := (self.img idx).internalId, frameId := (self.img idx).rootFrame.id }
        else self) ∧
      ((answers.cacheAccepts ∧ (storeRootFrame answers self idx requiredSz).1 =
          { addToCache removed { imageId := (self.img idx).internalId, frameId := frameId }
              self.currentlyLoading.frameData with
            images := self.images.modify idx fun img =>
              { img.placeRoot self.currentlyLoading frameId with
                usedStorage := requiredSz, rootFrameDataLoaded := true }
            usedStorage := self.usedStorage + requiredSz }) ∨
        (¬ answers.cacheAccepts ∧ TidyLoad
          (removed.modifyImg idx fun img => img.placeRoot self.currentlyLoading frameId)
          (storeRootFrame answers self idx requiredSz).1)) := by
  refine ⟨_, _, rfl, rfl, ?_⟩
  unfold storeRootFrame
  dsimp only
  generalize removedEq : (if (self.img idx).rootFrame.id ≠ 0 then
    removeFromCache self
      { imageId := (self.img idx).internalId, frameId := (self.img idx).rootFrame.id }
    else self) = removed
  have images : removed.images = self.images := by
    rw [← removedEq]
    split <;> rfl
  by_cases accepts : answers.cacheAccepts
  · refine .inl ⟨accepts, ?_⟩
    have twice := List.modify_modify_eq
      (fun img : Image => img.placeRoot self.currentlyLoading
        (u32 ((self.img idx).frameIdCounter + 1)))
      (fun img => { img with usedStorage := requiredSz, rootFrameDataLoaded := true }) idx self.images
    rw [if_pos accepts]
    unfold GraphicsManager.modifyImg addToCache
    rw [images]
    simp only [GraphicsManager.mk.injEq, and_true, true_and]
    exact ⟨twice, rfl⟩
  · refine .inr ⟨accepts, ?_⟩
    rw [if_neg accepts]
    exact ⟨_, .refl _⟩

theorem finishAdd_leads {self : GraphicsManager} {idx : Nat} (inside : idx < self.images.length)
    (declared : self.currentlyLoading.Declared) :
    Leads libs answers
      (if self.currentlyLoading.loadingCompletedSuccessfully ∧
          self.currentlyLoading.dataSz = self.currentlyLoading.requiredSz then
        [.replaceRoot self idx] else [])
      self (finishAdd answers self idx).1 := by
  have requiredEq : (if self.currentlyLoading.isOpaque then 3 else 4) *
      self.currentlyLoading.width * self.currentlyLoading.height =
        self.currentlyLoading.requiredSz := rfl
  unfold finishAdd
  simp only [requiredEq]
  by_cases fits : self.currentlyLoading.dataSz = self.currentlyLoading.requiredSz
  · rw [if_neg (not_not_intro fits)]
    by_cases complete : self.currentlyLoading.loadingCompletedSuccessfully
    · rw [if_pos complete, if_pos ⟨complete, fits⟩]
      exact ⟨.change (.replaceRoot self idx) (by simp) inside fits,
        storeRootFrame_declared declared⟩
    · rw [if_neg complete]
      exact ⟨.refl self, declared⟩
  · rw [if_pos fits]
    exact abortLoad_leads self _ _ _

theorem addPayload_leads (self : GraphicsManager) {ld : LoadData} (g : GraphicsCommand) (tt : Char)
    (payload : Bytes) {idx : Nat} (inside : idx < self.images.length)
    (declares : ld.Declares (formatOf ld.startCommand)) (fmt : Nat) :
    Leads libs answers (rootChanges libs answers self ld g tt fmt payload idx) self
      (addPayload libs.toDecoders answers { self with currentlyLoading := ld } g tt fmt payload
        idx).1 := by
  have loaded := @loadImageData_declared answers ld g tt fmt payload declares
  unfold addPayload rootChanges receiveData
  cases loadEq : loadImageData answers ld g tt fmt payload with
  | mk loadedData error =>
    rw [loadEq] at loaded
    cases error with
    | some error => exact .before (.load self ld) (failedLoad_leads _ _ loaded)
    | none =>
      dsimp only
      by_cases complete : loadedData.loadingCompletedSuccessfully
      · rw [if_pos complete, if_pos complete]
        have idle := @processImageData_idle libs.toDecoders
          { loadedData with loadingFor := {} } g tt fmt rfl
        cases processEq : processImageData libs.toDecoders
            { loadedData with loadingFor := {} } g tt fmt with
        | mk processed error =>
          rw [processEq] at idle
          have declared : processed.Declared := LoadData.declared_of_idle (congrArg _ idle)
          cases error with
          | some error => exact .before (.load self ld) (failedLoad_leads _ _ declared)
          | none =>
            have finished := @finishAdd_leads libs answers
              { self with currentlyLoading := processed } idx inside declared
            refine .before (.load self processed) ?_
            by_cases done : processed.loadingCompletedSuccessfully
            · simpa only [done, if_true, true_and] using finished
            · rw [if_neg fun h => done h.1] at finished
              dsimp only
              rw [if_neg done]
              exact finished
      · rw [if_neg complete, if_neg complete]
        exact ⟨.load self loadedData, loaded⟩

theorem Leads.mono {changes more : List FrameChange} {first last : GraphicsManager}
    (h : Leads libs answers changes first last) (sub : ∀ c ∈ changes, c ∈ more) :
    Leads libs answers more first last :=
  ⟨h.chain.mono sub, h.declared⟩

theorem modifyImg_length (self : GraphicsManager) (idx : Nat) (change : Image → Image) :
    (self.modifyImg idx change).images.length = self.images.length :=
  List.length_modify ..

/-- `find_or_create_image` starts an image over or makes one, and what it returns is in the list. -/
theorem prepareImage_chain (self : GraphicsManager) (g : GraphicsCommand) (iid : Nat) :
    Chain libs answers
        (match if iid = 0 then none else
            imgByClientId (removeImages self addTrimPredicate 0) iid with
          | some idx => [.startOver (removeImages self addTrimPredicate 0) idx]
          | none => [])
        self (prepareImage answers self g iid).1 ∧
      (prepareImage answers self g iid).2.1 < (prepareImage answers self g iid).1.images.length := by
  have trimmed (changes : List FrameChange) :
      Chain libs answers changes self (removeImages self addTrimPredicate 0) :=
    .tidy (removeImages_tidy self addTrimPredicate 0)
  unfold prepareImage
  dsimp only
  cases found : if iid = 0 then none else
      imgByClientId (removeImages self addTrimPredicate 0) iid with
  | some idx =>
    have inside : idx < (removeImages self addTrimPredicate 0).images.length := by
      split at found
      · exact nomatch found
      · exact imgByClientId_inside found
    refine ⟨(trimmed _).trans
      (.change (.startOver (removeImages self addTrimPredicate 0) idx) (by simp) inside trivial), ?_⟩
    exact (modifyImg_length _ _ _).symm ▸ inside
  | none =>
    refine ⟨(trimmed _).trans (.create _ _ ⟨rfl, rfl, rfl, rfl, rfl⟩ rfl), ?_⟩
    simp

theorem handleAddCommand_leads (self : GraphicsManager) (g : GraphicsCommand) (payload : Bytes)
    (iid : Nat) (declared : self.currentlyLoading.Declared) :
    Leads libs answers (addChanges libs answers self g payload iid) self
      (handleAddCommand libs.toDecoders answers self g payload iid).1 := by
  unfold handleAddCommand addChanges
  dsimp only
  by_cases continued : transmissionTypeOf g = 'd' ∧ self.currentlyLoading.loadingFor.imageId ≠ 0
  · rw [if_pos continued, if_pos continued]
    cases found : imgByInternalId self (initChunkedLoad self.currentlyLoading g).loadingFor.imageId
      with
    | none => exact abortLoad_leads self _ _ _
    | some idx =>
      have declares : (initChunkedLoad self.currentlyLoading g).Declares
        (formatOf (initChunkedLoad self.currentlyLoading g).startCommand) := declared continued.2
      exact addPayload_leads self _ _ payload (imgByInternalId_inside found).1 declares _
  · rw [if_neg continued, if_neg continued]
    by_cases large : maxImageDimension < g.dataWidth ∨ maxImageDimension < g.dataHeight
    · rw [if_pos large, if_pos large]
      exact abortLoad_leads self _ _ _
    · rw [if_neg large, if_neg large]
      obtain ⟨prepared, inside⟩ := @prepareImage_chain libs answers self g iid
      have prepared := fun changes : List FrameChange =>
        prepared.mono fun c mem => List.mem_append_left changes mem
      cases start : initializeLoadData g
          ((prepareImage answers self g iid).1.img (prepareImage answers self g iid).2.1).internalId
          (transmissionTypeOf g) (formatOf g) 0 with
      | mk ld error =>
        cases error with
        | some error =>
          exact .before (prepared _) (failedLoad_leads _ _ (initializeLoadData_error start))
        | none =>
          obtain ⟨declares, command⟩ := initializeLoadData_declares start
          refine .before (prepared _) ?_
          refine Leads.mono ?_ fun c mem => List.mem_append_right _ mem
          refine addPayload_leads _ _ _ payload inside ?_ _
          rw [command]
          exact declares

/-! ### Frames -/

theorem storeNewFrame_declared {self : GraphicsManager} {idx slot : Nat} {frame : Frame}
    {ld : LoadData} (idle : ld.loadingFor = {}) :
    (storeNewFrame answers self idx slot frame ld).1.currentlyLoading.Declared := by
  unfold storeNewFrame
  split
  · exact LoadData.declared_of_idle (congrArg _ idle)
  · exact LoadData.declared_of_idle rfl

theorem addNewFrame_declared {self : GraphicsManager} {g : GraphicsCommand} {idx slot : Nat}
    {transmitted : Frame} (idle : self.currentlyLoading.loadingFor = {}) :
    (addNewFrame libs answers self g idx slot transmitted).1.currentlyLoading.Declared := by
  unfold addNewFrame
  dsimp only
  split
  · exact storeNewFrame_declared idle
  · split
    · exact LoadData.declared_of_idle rfl
    · split
      · exact LoadData.declared_of_idle rfl
      · rename_i based
        unfold baseOn at based
        split at based
        · obtain ⟨cfd, -, based⟩ := Option.bind_eq_some_iff.1 based
          exact storeNewFrame_declared ((Prod.mk.inj (Option.some.inj based)).2 ▸ rfl)
        · exact storeNewFrame_declared ((Prod.mk.inj (Option.some.inj based)).2 ▸ idle)

/-- The gap that comes with a frame that is edited. -/
def gapEdited (self : GraphicsManager) (g : GraphicsCommand) (idx frameNumber gap : Nat) :
    GraphicsManager :=
  self.modifyImg idx fun img => if g.gap ≠ 0 then changeGap img frameNumber gap else img

/-- A frame that is drawn whole, without a base. -/
def flattenFrame (img : Image) (cfd : CoalescedFrameData) (f : Frame) : Frame :=
  { f with
    alphaBlend := false
    baseFrameId := 0
    bgcolor := 0
    isOpaque := cfd.isOpaque
    is4byteAligned := cfd.is4byteAligned
    x := 0
    y := 0
    width := img.width
    height := img.height }

theorem bytesFrom_length (data : Bytes) (count : Nat) : (bytesFrom data count).length = count := by
  simp only [bytesFrom, List.length_take, List.length_append, List.length_replicate]
  omega

/-- What editing a frame leaves: at most its gap is new, or it is drawn whole. -/
theorem editFrame_cases (self : GraphicsManager) (g : GraphicsCommand) (idx frameNumber : Nat)
    (transmitted : Frame) :
    TidyLoad self (editFrame libs answers self g idx frameNumber transmitted).1 ∨
      (∃ old, frameForNumber (self.img idx) frameNumber = some old) ∧
      (TidyLoad (gapEdited self g idx frameNumber transmitted.gap)
        (editFrame libs answers self g idx frameNumber transmitted).1 ∨
      ∃ gapped img f cfd flat data,
        gapped = gapEdited self g idx frameNumber transmitted.gap ∧ img = gapped.img idx ∧
        frameForNumber img frameNumber = some f ∧
        getCoalescedFrameData libs.toBlending gapped img f = some cfd ∧
        flat = gapped.modifyImg idx
          (fun img => img.modifyFrame frameNumber (flattenFrame img cfd)) ∧
        data.length = pixelSize cfd.isOpaque * img.width * img.height ∧
        TidyLoad (if answers.cacheAccepts then
            addToCache flat { imageId := img.internalId, frameId := f.id } data else flat)
          (editFrame libs answers self g idx frameNumber transmitted).1) := by
  unfold editFrame
  split
  · exact .inl ⟨_, .refl _⟩
  · rename_i old oldEq
    refine .inr ⟨⟨old, oldEq⟩, ?_⟩
    generalize gappedEq : gapEdited self g idx frameNumber transmitted.gap = gapped
    unfold gapEdited at gappedEq
    simp only [gappedEq]
    cases found : frameForNumber (gapped.img idx) frameNumber with
    | none => exact .inl ⟨_, .refl _⟩
    | some f =>
      rw [Option.bind_some]
      cases coalesced : getCoalescedFrameData libs.toBlending gapped (gapped.img idx) f with
      | none => exact .inl ⟨_, .refl _⟩
      | some cfd =>
        let data := composeFrame libs.toBlending (gapped.img idx) transmitted cfd.isOpaque
          cfd.buf self.currentlyLoading.data
        refine .inr ⟨gapped, _, f, cfd, _, bytesFrom data _, rfl, rfl, found, coalesced, rfl,
          bytesFrom_length _ _, ?_⟩
        by_cases accepts : answers.cacheAccepts
        · simp only [if_pos accepts]
          split
          · refine ⟨_, .modifyImg _ idx ?_⟩
            exact fun img => ⟨rfl, rfl, rfl, rfl, rfl, rfl, rfl, rfl⟩
          · exact ⟨_, .refl _⟩
        · simp only [if_neg accepts]
          exact ⟨_, .refl _⟩

theorem editFrame_declared {self : GraphicsManager} {g : GraphicsCommand} {idx frameNumber : Nat}
    {transmitted : Frame} (idle : self.currentlyLoading.loadingFor = {}) :
    (editFrame libs answers self g idx frameNumber transmitted).1.currentlyLoading.Declared := by
  have declared : self.currentlyLoading.Declared := LoadData.declared_of_idle (congrArg _ idle)
  unfold editFrame
  dsimp only
  split
  · exact LoadData.declared_of_idle rfl
  · generalize gappedEq : (self.modifyImg idx fun img =>
      if g.gap ≠ 0 then changeGap img frameNumber transmitted.gap else img) = gapped
    have same : gapped.currentlyLoading = self.currentlyLoading := gappedEq ▸ rfl
    split
    · exact LoadData.declared_of_idle rfl
    · split
      · split
        · exact same ▸ declared
        · exact same ▸ declared
      · exact LoadData.declared_of_idle rfl

/-- What adding a frame leaves: no frame, the new array element as it was found, or the frame. -/
theorem addNewFrame_cases (self : GraphicsManager) (g : GraphicsCommand) (idx slot : Nat)
    (transmitted : Frame) :
    ∃ grown frameId,
      grown = self.modifyImg idx (fun img =>
        { img with
          frameIdCounter := u32 (img.frameIdCounter + 1)
          extraFrames := img.extraFrames ++ [answers.fresh] }) ∧
      frameId = (grown.img idx).frameIdCounter ∧
      (TidyLoad (grown.modifyImg idx fun img => { img with extraFrames := img.extraFrames.dropLast })
          (addNewFrame libs answers self g idx slot transmitted).1 ∨
        (∃ other, frameForNumber (grown.img idx) g.otherFrameNumber = some other ∧
          baseOn libs grown (grown.img idx) other { transmitted with id := frameId }
            self.currentlyLoading = none ∧
          TidyLoad grown (addNewFrame libs answers self g idx slot transmitted).1) ∨
        ∃ frame ld,
          (g.otherFrameNumber = 0 ∧ frame = { transmitted with id := frameId } ∧
              ld = self.currentlyLoading ∨
            ∃ other, frameForNumber (grown.img idx) g.otherFrameNumber = some other ∧
              baseOn libs grown (grown.img idx) other { transmitted with id := frameId }
                self.currentlyLoading = some (frame, ld)) ∧
          TidyLoad (if answers.cacheAccepts then
              (addToCache (grown.modifyImg idx fun img =>
                  { img with extraFrames := img.extraFrames.set slot frame })
                { imageId := (grown.img idx).internalId, frameId := frame.id } ld.frameData).modifyImg
                idx fun img => { img with animationDuration := img.animationDuration + frame.gap }
            else (grown.modifyImg idx fun img =>
                { img with extraFrames := img.extraFrames.set slot frame }).modifyImg idx
              fun img => { img with extraFrames := img.extraFrames.dropLast })
            (addNewFrame libs answers self g idx slot transmitted).1) := by
  refine ⟨_, _, rfl, rfl, ?_⟩
  have stored (grown : GraphicsManager) (frame : Frame) (ld : LoadData) :
      TidyLoad (if answers.cacheAccepts then
          (addToCache (grown.modifyImg idx fun img =>
              { img with extraFrames := img.extraFrames.set slot frame })
            { imageId := (grown.img idx).internalId, frameId := frame.id } ld.frameData).modifyImg
            idx fun img => { img with animationDuration := img.animationDuration + frame.gap }
        else (grown.modifyImg idx fun img =>
            { img with extraFrames := img.extraFrames.set slot frame }).modifyImg idx
          fun img => { img with extraFrames := img.extraFrames.dropLast })
        (storeNewFrame answers grown idx slot frame ld).1 := by
    unfold storeNewFrame
    by_cases accepts : answers.cacheAccepts
    · simp only [if_pos accepts]
      exact ⟨ld, .of_images rfl rfl rfl rfl rfl⟩
    · simp only [if_neg accepts]
      exact ⟨_, .refl _⟩
  unfold addNewFrame
  by_cases alone : g.otherFrameNumber = 0
  · rw [if_pos alone]
    exact .inr (.inr ⟨_, _, .inl ⟨alone, rfl, rfl⟩, stored _ _ _⟩)
  · rw [if_neg alone]
    split
    · exact .inl ⟨_, .refl _⟩
    · rename_i other found
      split
      · rename_i missing
        exact .inr (.inl ⟨other, found, missing, _, .refl _⟩)
      · rename_i frame ld based
        exact .inr (.inr ⟨frame, ld, .inr ⟨other, found, based⟩, stored _ _ _⟩)

theorem finishFrameLoad_leads {self : GraphicsManager} {g : GraphicsCommand}
    {idx frameNumber : Nat} {isNewFrame : Bool} {result : GraphicsManager × Handled}
    (inside : idx < self.images.length) (idle : self.currentlyLoading.loadingFor = {})
    (sized : self.currentlyLoading.Sized libs.toDecoders)
    (h : finishFrameLoad libs answers self g idx frameNumber isNewFrame = some result) :
    Leads libs answers (finishChanges answers self g idx frameNumber isNewFrame) self result.1 := by
  unfold finishFrameLoad at h
  unfold finishChanges
  dsimp only at h ⊢
  cases failed : frameLoadError self.currentlyLoading g (self.img idx) with
  | some error =>
    rw [failed] at h
    exact Option.some.inj h ▸ abortLoad_leads self _ _ _
  | none =>
    rw [failed] at h
    by_cases new : isNewFrame
    · rw [if_pos new] at h ⊢
      have trimmed : Tidy self
          (if cacheTooLarge self answers.cacheSize self.currentlyLoading.dataSz then
            removeImages self trimPredicate (self.img idx).internalId else self) := by
        split
        · exact removeImages_tidy self _ _
        · exact .refl self
      have same : (if cacheTooLarge self answers.cacheSize self.currentlyLoading.dataSz then
          removeImages self trimPredicate (self.img idx).internalId
          else self).currentlyLoading = self.currentlyLoading := by
        split
        · exact (removeImages_tidy self _ _).loading
        · rfl
      generalize (if cacheTooLarge self answers.cacheSize self.currentlyLoading.dataSz then
        removeImages self trimPredicate (self.img idx).internalId else self) = manager
        at h trimmed same
      by_cases full : cacheTooLarge self answers.cacheSize self.currentlyLoading.dataSz = true ∧
          cacheTooLarge manager answers.cacheSizeTrimmed self.currentlyLoading.dataSz = true
      · rw [if_pos full] at h ⊢
        exact Option.some.inj h ▸ .before (.tidy trimmed) (abortLoad_leads manager _ _ _)
      · rw [if_neg full] at h ⊢
        by_cases outside : manager.images.length ≤ idx ∨
            (manager.img idx).extraFrames.length < frameNumber - 2
        · exact nomatch (if_pos outside).symm.trans h
        · have added := Option.some.inj ((if_neg outside).symm.trans h)
          rw [← added, ← same]
          have sound : (FrameChange.addFrame manager g idx (frameNumber - 2)).Sound libs :=
            ⟨by omega, same ▸ sized⟩
          have chain : Chain libs answers [.addFrame manager g idx (frameNumber - 2)] manager _ :=
            .change _ (List.mem_singleton.2 rfl) (by show idx < manager.images.length; omega) sound
          exact ⟨.trans (.tidy trimmed) chain, addNewFrame_declared (same ▸ idle)⟩
    · rw [if_neg new] at h ⊢
      exact Option.some.inj h ▸
        ⟨.change (.editFrame self g idx frameNumber) (by simp) inside trivial,
          editFrame_declared idle⟩

theorem frameLoadPayload_leads {self : GraphicsManager} {ld : LoadData} {g : GraphicsCommand}
    {tt : Char} {fmt : Nat} {payload : Bytes} {idx frameNumber : Nat} {isNewFrame : Bool}
    {result : GraphicsManager × Handled} (inside : idx < self.images.length)
    (fmtEq : fmt = formatOf ld.startCommand) (declares : ld.Declares fmt)
    (h : frameLoadPayload libs answers { self with currentlyLoading := ld } g tt fmt payload idx
      frameNumber isNewFrame = some result) :
    Leads libs answers
      (frameLoadChanges libs answers self ld g tt fmt payload idx frameNumber isNewFrame) self
      result.1 := by
  have loaded := @loadImageData_declared answers ld g tt fmt payload (fmtEq ▸ declares)
  have sized {ld' : LoadData} := @receiveData_sized libs.toDecoders answers ld ld' g tt fmt payload
    declares
  unfold frameLoadPayload at h
  unfold frameLoadChanges
  unfold receiveData at sized ⊢
  cases loadEq : loadImageData answers ld g tt fmt payload with
  | mk loadedData error =>
    rw [loadEq] at loaded h
    simp only [loadEq] at sized
    cases error with
    | some error =>
      exact Option.some.inj h ▸ .before (.load self ld) (failedLoad_leads _ _ loaded)
    | none =>
      dsimp only at h sized ⊢
      by_cases complete : loadedData.loadingCompletedSuccessfully
      · rw [if_pos complete] at h ⊢
        rw [if_pos complete] at sized
        have idle := @processImageData_idle libs.toDecoders
          { loadedData with loadingFor := {} } g tt fmt rfl
        cases processEq : processImageData libs.toDecoders
            { loadedData with loadingFor := {} } g tt fmt with
        | mk processed error =>
          rw [processEq] at idle h sized
          cases error with
          | some error =>
            exact Option.some.inj h ▸ .before (.load self ld)
              (failedLoad_leads _ _ (LoadData.declared_of_idle (congrArg _ idle)))
          | none =>
            dsimp only at h sized ⊢
            by_cases done : processed.loadingCompletedSuccessfully
            · rw [if_pos done] at h ⊢
              rw [if_pos done] at sized
              exact .before (.load self processed)
                (finishFrameLoad_leads (by exact inside) idle (sized rfl) h)
            · rw [if_neg done] at h ⊢
              exact Option.some.inj h ▸ ⟨.load self processed,
                LoadData.declared_of_idle (congrArg _ idle)⟩
      · rw [if_neg complete] at h ⊢
        exact Option.some.inj h ▸ ⟨.load self loadedData, loaded⟩

theorem handleAnimationFrameLoadCommand_leads {self : GraphicsManager} {g : GraphicsCommand}
    {payload : Bytes} {idx : Nat} {result : GraphicsManager × Handled}
    (inside : idx < self.images.length) (numbered : (self.img idx).internalId ≠ 0)
    (declared : self.currentlyLoading.Declared)
    (h : handleAnimationFrameLoadCommand libs answers self g payload idx = some result) :
    Leads libs answers (animationFrameChanges libs answers self g payload idx) self result.1 := by
  unfold handleAnimationFrameLoadCommand at h
  unfold animationFrameChanges
  let g' : GraphicsCommand := { g with numLines := frameNumberOf (self.img idx) g }
  by_cases continued : transmissionTypeOf g' = 'd' ∧
      self.currentlyLoading.loadingFor.imageId = (self.img idx).internalId
  · rw [if_pos continued] at h ⊢
    have declares : (initChunkedLoad self.currentlyLoading g').Declares
        (formatOf (initChunkedLoad self.currentlyLoading g').startCommand) :=
      declared (continued.2 ▸ numbered)
    exact frameLoadPayload_leads inside rfl declares h
  · rw [if_neg continued] at h ⊢
    by_cases large : maxImageDimension < g.dataWidth ∨ maxImageDimension < g.dataHeight
    · rw [if_pos large] at h ⊢
      exact Option.some.inj h ▸ abortLoad_leads self _ _ _
    · rw [if_neg large] at h ⊢
      cases start : initializeLoadData g' (self.img idx).internalId (transmissionTypeOf g')
          (formatOf g') (frameNumberOf (self.img idx) g - 1) with
      | mk ld error =>
        rw [start] at h
        cases error with
        | some error =>
          exact Option.some.inj h ▸ failedLoad_leads self _ (initializeLoadData_error start)
        | none =>
          obtain ⟨declares, command⟩ := initializeLoadData_declares start
          exact frameLoadPayload_leads inside (command ▸ rfl) declares h

theorem Leads.thenTidy {changes : List FrameChange} {first second third : GraphicsManager}
    (h : Leads libs answers changes first second) (tidy : Tidy second third) :
    Leads libs answers changes first third :=
  ⟨h.chain.thenTidy tidy, tidy.loading ▸ h.declared⟩

theorem Leads.tidy {changes : List FrameChange} {self next : GraphicsManager} (h : Tidy self next)
    (declared : self.currentlyLoading.Declared) : Leads libs answers changes self next :=
  ⟨.tidy h, h.loading ▸ declared⟩

theorem dropIdleLoad_leads {changes : List FrameChange} (self : GraphicsManager)
    (declared : self.currentlyLoading.Declared) :
    Leads libs answers changes self (dropIdleLoad self) := by
  unfold dropIdleLoad
  split
  · exact ⟨.load self _, LoadData.declared_of_idle rfl⟩
  · exact ⟨.refl self, declared⟩

theorem handleDeleteFrameCommand_leads (self : GraphicsManager) (g : GraphicsCommand)
    (declared : self.currentlyLoading.Declared) :
    Leads libs answers (deleteFrameChanges self g) self
      (handleDeleteFrameCommand libs answers self g).1 := by
  unfold handleDeleteFrameCommand deleteFrameChanges
  cases found : if g.id = 0 ∧ g.imageNumber = 0 then none
      else if g.id ≠ 0 then imgByClientId self g.id
      else imgByClientNumber self g.imageNumber with
  | none => exact .tidy (.refl self) declared
  | some idx =>
    have inside : idx < self.images.length := by
      split at found
      · exact nomatch found
      · split at found
        · exact imgByClientId_inside found
        · exact imgByClientNumber_inside found
    dsimp only
    by_cases only : (self.img idx).extraFrames.isEmpty
    · rw [if_pos only, if_pos only]
      exact .tidy (.refl self) declared
    · rw [if_neg only, if_neg only]
      generalize numberEq : max 1 (min ((self.img idx).extraFrames.length + 1) g.frameNumber) =
        frameNumber
      generalize (if frameNumber = 1 then 0 else frameNumber - 2) = removedIdx
      let c : FrameChange := .deleteFrame self idx frameNumber
      have sound : c.Sound libs := by
        refine ⟨by omega, ?_, fun empty => only (List.isEmpty_iff.2 empty)⟩
        omega
      have deleted : Leads libs answers [c] self (c.after libs answers) :=
        ⟨.change c (List.mem_singleton.2 rfl) inside sound, declared⟩
      have keeps (index : Image → Nat) : Tidy (c.after libs answers)
          ((c.after libs answers).modifyImg idx fun img =>
            { img with currentFrameIndex := index img }) :=
        .modifyImg _ idx fun _ => ⟨rfl, rfl, rfl, rfl, rfl, rfl, rfl, rfl⟩
      split
      · exact (deleted.thenTidy (keeps _)).thenTidy (updateCurrentFrame_tidy _ _ _ _)
      · split
        · exact deleted.thenTidy (updateCurrentFrame_tidy _ _ _ _)
        · split
          · exact deleted.thenTidy (keeps _)
          · exact deleted

theorem controlState_keeps (answers : Answers) (img : Image) (g : GraphicsCommand) :
    img.KeepsFrames (controlState answers img g) := by
  unfold controlState
  dsimp only
  generalize (if g.animationState = 1 then AnimationState.stopped
    else if g.animationState = 2 then .loading
    else if g.animationState = 3 then .running
    else img.animationState) = state
  split <;> exact ⟨rfl, rfl, rfl, rfl, rfl, rfl, rfl, rfl⟩

theorem handleAnimationControlCommand_leads {changes : List FrameChange} (self : GraphicsManager)
    (g : GraphicsCommand) (idx : Nat) (declared : self.currentlyLoading.Declared) :
    Leads libs answers changes self (handleAnimationControlCommand libs answers self g idx) := by
  have gapped : Leads libs answers changes self
      (self.modifyImg idx fun img => controlGap img g) := ⟨.setGap self idx g, declared⟩
  unfold handleAnimationControlCommand
  dsimp only
  generalize (self.modifyImg idx fun img => controlGap img g) = manager at gapped ⊢
  have moved : Leads libs answers changes self
      (if controlsFrame (self.img idx) g then
        updateCurrentFrame libs.toBlending answers
          (manager.modifyImg idx fun img => { img with currentFrameIndex := g.otherFrameNumber - 1 })
          idx
      else manager) := by
    split
    · refine (gapped.thenTidy (.modifyImg _ idx ?_)).thenTidy (updateCurrentFrame_tidy _ _ _ _)
      exact fun _ => ⟨rfl, rfl, rfl, rfl, rfl, rfl, rfl, rfl⟩
    · exact gapped
  revert moved
  generalize (if controlsFrame (self.img idx) g then
    updateCurrentFrame libs.toBlending answers
      (manager.modifyImg idx fun img => { img with currentFrameIndex := g.otherFrameNumber - 1 }) idx
    else manager) = manager'
  intro moved
  have stated : Leads libs answers changes self
      (if g.animationState ≠ 0 then
        manager'.modifyImg idx fun img => controlState answers img g else manager') := by
    split
    · exact moved.thenTidy (.modifyImg _ idx fun img => controlState_keeps answers img g)
    · exact moved
  revert stated
  generalize (if g.animationState ≠ 0 then
    manager'.modifyImg idx fun img => controlState answers img g else manager') = manager''
  intro stated
  split
  · have looped : Tidy manager'' (manager''.modifyImg idx fun img =>
        { img with maxLoops := g.loopCount - 1 }) :=
      .modifyImg _ idx fun _ => ⟨rfl, rfl, rfl, rfl, rfl, rfl, rfl, rfl⟩
    exact (stated.thenTidy looped).thenTidy (.of_images rfl rfl rfl rfl rfl)
  · exact stated.thenTidy (.of_images rfl rfl rfl rfl rfl)

theorem handleDeleteCommand_leads (self : GraphicsManager) (g : GraphicsCommand)
    (c : CursorPosition) (declared : self.currentlyLoading.Declared) :
    Leads libs answers
      (if Char.ofUInt8 g.deleteAction = 'f' ∨ Char.ofUInt8 g.deleteAction = 'F' then deleteFrameChanges self g else []) self
      (handleDeleteCommand libs answers self g c) := by
  have filtered (changes : List FrameChange) (doomed : ImageRef → Image → Bool)
      (freeImages onlyFirstImage : Bool) : Leads libs answers changes self
        (filterRefs self doomed freeImages onlyFirstImage) :=
    .tidy (filterRefs_tidy self doomed freeImages onlyFirstImage) declared
  have deleted := @handleDeleteFrameCommand_leads libs answers self g declared
  generalize changesEq : (if Char.ofUInt8 g.deleteAction = 'f' ∨ Char.ofUInt8 g.deleteAction = 'F' then
    deleteFrameChanges self g else []) = changes
  unfold handleDeleteCommand
  split
  case h_20 action =>
    rw [← changesEq, if_pos (.inl action)]
    exact deleted
  case h_21 action =>
    rw [← changesEq, if_pos (.inr action)]
    split
    · rename_i deletedEq
      rw [deletedEq] at deleted
      exact deleted.thenTidy (filterRefs_tidy _ _ _ _)
    · rename_i deletedEq
      rw [deletedEq] at deleted
      exact deleted
  case h_22 => exact .tidy (.refl self) declared
  all_goals exact filtered _ _ _ _

theorem handleComposeCommand_leads (self : GraphicsManager) (g : GraphicsCommand) {idx : Nat}
    (inside : idx < self.images.length) (declared : self.currentlyLoading.Declared) :
    Leads libs answers (composeChanges libs self g idx) self
      (handleComposeCommand libs answers self g idx).1 := by
  have unchanged {changes : List FrameChange} : Leads libs answers changes self self :=
    .tidy (.refl self) declared
  unfold handleComposeCommand composeChanges
  dsimp only
  cases src : frameForNumber (self.img idx) g.frameNumber with
  | none => exact unchanged
  | some srcFrame =>
    cases dest : frameForNumber (self.img idx) g.otherFrameNumber with
    | none => exact unchanged
    | some destFrame =>
      dsimp only
      cases composeRectanglesFor g (self.img idx) with
      | error error => exact unchanged
      | ok d =>
        cases getCoalescedFrameData libs.toBlending self (self.img idx) srcFrame with
        | none => exact unchanged
        | some srcData =>
          cases destEq : getCoalescedFrameData libs.toBlending self (self.img idx) destFrame
            with
          | none => exact unchanged
          | some destData =>
            let c : FrameChange :=
              .compose self g idx (d srcData.isOpaque destData.isOpaque) srcData destData
            refine ⟨.change c (List.mem_singleton.2 rfl) inside ⟨destFrame, dest, destEq⟩, ?_⟩
            unfold composeCoalesced
            dsimp only
            split
            all_goals
              split
              · exact declared
              · exact declared

theorem handleTransmission_leads (self : GraphicsManager) (g : GraphicsCommand) (payload : Bytes)
    (c : CursorPosition) (cell : CellPixelSize) (declared : self.currentlyLoading.Declared) :
    Leads libs answers (transmissionChanges libs answers self g payload) self
      (handleTransmission libs answers self g payload c cell).1 := by
  unfold handleTransmission transmissionChanges
  by_cases anonymous : Char.ofUInt8 g.action = 'q' ∧ g.id = 0
  · rw [if_pos anonymous, if_pos anonymous]
    exact .tidy (.refl self) declared
  · rw [if_neg anonymous, if_neg anonymous]
    have added := @handleAddCommand_leads libs answers self g payload
      (if Char.ofUInt8 g.action = 'q' then 0 else g.id) declared
    dsimp only
    generalize handleAddCommand libs.toDecoders answers self g payload
      (if Char.ofUInt8 g.action = 'q' then 0 else g.id) = result at added ⊢
    obtain ⟨manager, handled⟩ := result
    have dropped := Leads.before added.chain (dropIdleLoad_leads manager added.declared)
    generalize dropIdleLoad manager = manager' at dropped ⊢
    refine dropped.thenTidy (.trans ?_ (applyQuota_tidy _ _))
    have put : Tidy manager'
        (match imageOf handled with
          | some idx =>
            if Char.ofUInt8 manager'.currentlyLoading.startCommand.action = 'T' ∧
                (manager'.img idx).rootFrameDataLoaded then
              (handlePutCommand answers manager' manager'.currentlyLoading.startCommand c cell
                (some idx)).1
            else manager'
          | none => manager') := by
      split
      · split
        · exact handlePutCommand_tidy _ _ _ _ _ _
        · exact .refl _
      · exact .refl _
    split
    · exact put.trans (removeImages_tidy _ _ _)
    · exact put

theorem handleAnimation_leads {self : GraphicsManager} {g : GraphicsCommand} {payload : Bytes}
    {result : GraphicsManager × Option String} (numbered : ∀ img ∈ self.images, img.internalId ≠ 0)
    (declared : self.currentlyLoading.Declared)
    (h : handleAnimation libs answers self g payload = some result) :
    Leads libs answers (if Char.ofUInt8 g.action = 'f' then animationChanges libs answers self g payload else [])
      self result.1 := by
  have unchanged {changes : List FrameChange} : Leads libs answers changes self self :=
    .tidy (.refl self) declared
  unfold handleAnimation at h
  unfold animationChanges
  by_cases idle : g.id = 0 ∧ g.imageNumber = 0 ∧ self.currentlyLoading.loadingFor.imageId = 0
  · exact Option.some.inj ((if_pos idle).symm.trans h) ▸ unchanged
  · rw [if_neg idle] at h ⊢
    cases found : if self.currentlyLoading.loadingFor.imageId ≠ 0 then
        imgByInternalId self self.currentlyLoading.loadingFor.imageId
      else imageReferredTo self g with
    | none =>
      rw [found] at h
      exact Option.some.inj h ▸ unchanged
    | some idx =>
      have inside : idx < self.images.length := by
        split at found
        · exact (imgByInternalId_inside found).1
        · exact imageReferredTo_inside found
      rw [found] at h
      dsimp only at h
      by_cases loads : Char.ofUInt8 g.action = 'f'
      · rw [if_pos loads] at h ⊢
        obtain ⟨⟨loaded, handled⟩, loadEq, h⟩ := Option.bind_eq_some_iff.1 h
        have numbered : (self.img idx).internalId ≠ 0 :=
          img_eq inside ▸ numbered _ (List.getElem_mem inside)
        have leads := handleAnimationFrameLoadCommand_leads inside numbered declared loadEq
        exact Option.some.inj h ▸ .before leads.chain (dropIdleLoad_leads loaded leads.declared)
      · rw [if_neg loads] at h
        exact Option.some.inj h ▸ handleAnimationControlCommand_leads self g idx declared

theorem grmanHandleCommand_leads {self : GraphicsManager} {g : GraphicsCommand} {payload : Bytes}
    {c : CursorPosition} {cell : CellPixelSize} {result : GraphicsManager × Option String}
    (numbered : ∀ img ∈ self.images, img.internalId ≠ 0)
    (declared : self.currentlyLoading.Declared)
    (h : grmanHandleCommand libs answers self g payload c cell = some result) :
    Leads libs answers (commandChanges libs answers self g payload) self result.1 := by
  have unchanged {changes : List FrameChange} : Leads libs answers changes self self :=
    .tidy (.refl self) declared
  have transmitted := @handleTransmission_leads libs answers self g payload c cell declared
  unfold grmanHandleCommand at h
  unfold commandChanges
  by_cases both : g.id ≠ 0 ∧ g.imageNumber ≠ 0
  · exact Option.some.inj ((if_pos both).symm.trans h) ▸ unchanged
  · rw [if_neg both] at h ⊢
    split at h
    case h_1 action => simpa only [action] using Option.some.inj h ▸ transmitted
    case h_2 action => simpa only [action] using Option.some.inj h ▸ transmitted
    case h_3 action => simpa only [action] using Option.some.inj h ▸ transmitted
    case h_4 action => simpa only [action] using Option.some.inj h ▸ transmitted
    case h_5 action =>
      have controlled := handleAnimation_leads numbered declared h
      rw [if_neg (action ▸ by decide)] at controlled
      simp only [action]
      exact controlled
    case h_6 action =>
      have loaded := handleAnimation_leads numbered declared h
      simpa only [action, if_true] using loaded
    case h_7 action =>
      split at h
      · exact Option.some.inj h ▸ unchanged
      · exact Option.some.inj h ▸ .tidy (handlePutCommand_tidy _ _ _ _ _ _) declared
    case h_8 action =>
      have deleted := @handleDeleteCommand_leads libs answers self g c declared
      simpa only [action] using Option.some.inj h ▸ deleted
    case h_9 action =>
      simp only [action]
      split at h
      · exact Option.some.inj h ▸ unchanged
      · rename_i referred
        rw [if_neg referred]
        split at h
        · exact Option.some.inj h ▸ unchanged
        · rename_i idx found
          have composed := @handleComposeCommand_leads libs answers self g idx
            (imageReferredTo_inside found) declared
          simpa only [found] using Option.some.inj h ▸ composed
    case h_10 => exact Option.some.inj h ▸ unchanged

/-- What a step does to frames: it is a chain of the changes computed for it, and afterwards
nothing or declared data is being loaded. -/
theorem step_leads {self next : GraphicsManager} {input : GraphicsStep × Answers}
    (numbered : ∀ img ∈ self.images, img.internalId ≠ 0)
    (declared : self.currentlyLoading.Declared) (h : self.step libs input = some next) :
    Leads libs input.2 (stepChanges libs self input) self next := by
  obtain ⟨step, answers⟩ := input
  cases step with
  | command g payload c cell =>
    obtain ⟨result, handled, rfl⟩ := Option.map_eq_some_iff.1 h
    exact grmanHandleCommand_leads numbered declared handled
  | scrollImages d cell =>
    exact Option.some.inj h ▸ .tidy (grmanScrollImages_tidy self d cell) declared
  | clear all => exact Option.some.inj h ▸ .tidy (grmanClear_tidy self all) declared
  | rescale cell => exact Option.some.inj h ▸ .tidy (grmanRescale_tidy self cell) declared
  | updateLayers inView => exact Option.some.inj h ▸ .tidy (grmanUpdateLayers_tidy self inView) declared
  | scanAnimations rounds => exact .tidy (scanActiveAnimations_tidy libs answers rounds h) declared

end Smelly
