/-
Module: Smelly.Proofs.GraphicsImages
Purpose: Invariants of single images.  Images have distinct internal ids, so a change to the frames
  of one image leaves the others and their data alone, and a property of an image and its
  data has to be proved for the changed image only.
Trusted boundary: none
-/
import Smelly.Lib.Run
import Smelly.Proofs.GraphicsChanges

namespace Smelly

open Run

/-! ### The cache of frame data -/

theorem readFromCache_removeFromCache_ne (self : GraphicsManager) {x y : ImageAndFrame}
    (ne : y ≠ x) : readFromCache (removeFromCache self x) y = readFromCache self y := by
  unfold readFromCache removeFromCache
  rw [List.find?_filter]
  congr 2
  funext entry
  by_cases here : entry.1 = y
  · simp [here, ne]
  · simp [here]

theorem readFromCache_removeFromCache_self (self : GraphicsManager) (x : ImageAndFrame) :
    readFromCache (removeFromCache self x) x = none := by
  unfold readFromCache removeFromCache
  rw [List.find?_filter, Option.map_eq_none_iff, List.find?_eq_none]
  intro entry _
  by_cases here : entry.1 = x <;> simp [here]

theorem readFromCache_addToCache_self (self : GraphicsManager) (x : ImageAndFrame) (data : Bytes) :
    readFromCache (addToCache self x data) x = some data := by
  simp [readFromCache, addToCache]

theorem readFromCache_addToCache_ne (self : GraphicsManager) {x y : ImageAndFrame} (data : Bytes)
    (ne : y ≠ x) : readFromCache (addToCache self x data) y = readFromCache self y := by
  rw [← readFromCache_removeFromCache_ne self ne]
  unfold readFromCache addToCache
  rw [List.find?_cons_of_neg]
  simpa using fun h => ne h.symm

theorem readFromCache_removeFromCache_other (self : GraphicsManager) {x y : ImageAndFrame}
    (ne : y.imageId ≠ x.imageId) :
    readFromCache (removeFromCache self x) y = readFromCache self y :=
  readFromCache_removeFromCache_ne self fun same => ne (congrArg ImageAndFrame.imageId same)

theorem readFromCache_addToCache_other (self : GraphicsManager) {x y : ImageAndFrame} (data : Bytes)
    (ne : y.imageId ≠ x.imageId) :
    readFromCache (addToCache self x data) y = readFromCache self y :=
  readFromCache_addToCache_ne self data fun same => ne (congrArg ImageAndFrame.imageId same)

theorem removeImage_counter (self : GraphicsManager) (idx : Nat) :
    (removeImage self idx).internalIdCounter = self.internalIdCounter := by
  have freed (frames : List Frame) (manager : GraphicsManager) (id : Nat) :
      (frames.foldl (fun manager frame => removeFromCache manager
        { imageId := id, frameId := frame.id }) manager).internalIdCounter =
          manager.internalIdCounter := by
    induction frames generalizing manager with
    | nil => rfl
    | cons frame rest ih => exact ih _
  exact freed (self.img idx).frames self _

/-- Freeing an image forgets data of this image only. -/
theorem readFromCache_removeImage (self : GraphicsManager) (idx : Nat) {x : ImageAndFrame}
    (ne : x.imageId ≠ (self.img idx).internalId) :
    readFromCache (removeImage self idx) x = readFromCache self x := by
  have freed (frames : List Frame) (manager : GraphicsManager) (id : Nat) (ne : x.imageId ≠ id) :
      readFromCache (frames.foldl (fun manager frame => removeFromCache manager
        { imageId := id, frameId := frame.id }) manager) x = readFromCache manager x := by
    induction frames generalizing manager with
    | nil => rfl
    | cons frame rest ih =>
      rw [List.foldl_cons, ih]
      exact readFromCache_removeFromCache_ne manager fun h => ne (h ▸ rfl)
  exact freed (self.img idx).frames self _ ne

theorem readFromCache_removeImage_none (self : GraphicsManager) (idx : Nat) {x : ImageAndFrame}
    (missing : readFromCache self x = none) : readFromCache (removeImage self idx) x = none := by
  have freed (frames : List Frame) (manager : GraphicsManager) (id : Nat)
      (missing : readFromCache manager x = none) :
      readFromCache (frames.foldl (fun manager frame => removeFromCache manager
        { imageId := id, frameId := frame.id }) manager) x = none := by
    induction frames generalizing manager with
    | nil => exact missing
    | cons frame rest ih =>
      refine ih _ ?_
      by_cases here : x = { imageId := id, frameId := frame.id }
      · exact here ▸ readFromCache_removeFromCache_self manager x
      · exact (readFromCache_removeFromCache_ne manager here).trans missing
  exact freed (self.img idx).frames self _ missing

/-! ### Internal ids -/

/-- Images have ids of their own that were given out, and only they have data. -/
structure Numbered (manager : GraphicsManager) : Prop where
  distinct : (manager.images.map Image.internalId).Nodup
  positive : ∀ img ∈ manager.images, img.internalId ≠ 0
  given : ∀ img ∈ manager.images, img.internalId < manager.internalIdCounter
  cached : ∀ x : ImageAndFrame, manager.internalIdCounter ≤ x.imageId →
    readFromCache manager x = none
  started : manager.internalIdCounter ≠ 0

/-- The data that is cached for the frames of an image. -/
def GraphicsManager.frameData (self : GraphicsManager) (img : Image) (frameId : Nat) :
    Option Bytes :=
  readFromCache self { imageId := img.internalId, frameId := frameId }

/-- A property of images and their frame data holds for all of them. -/
def Everywhere (P : (Nat → Option Bytes) → Image → Prop) (self : GraphicsManager) : Prop :=
  ∀ img ∈ self.images, P (self.frameData img) img

/-- Images are numbered and have the property. -/
structure Holds (P : (Nat → Option Bytes) → Image → Prop) (manager : GraphicsManager) : Prop where
  numbered : Numbered manager
  everywhere : Everywhere P manager

/-- Properties that depend on the frames of an image only, and are true of images without frames
and kept by new gaps. -/
structure ImageInvariant (P : (Nat → Option Bytes) → Image → Prop) : Prop where
  keeps : ∀ {data : Nat → Option Bytes} {img after : Image}, img.KeepsFrames after → P data img →
    P data after
  blank : ∀ {img : Image}, img.Blank → P (fun _ => none) img
  changeGap : ∀ {data : Nat → Option Bytes} {img : Image} {frameNumber : Nat} {f : Frame} (gap : Int),
    frameForNumber img frameNumber = some f → P data img → P data (changeGap img frameNumber gap)

theorem img_mem {self : GraphicsManager} {idx : Nat} (inside : idx < self.images.length) :
    self.img idx ∈ self.images := img_eq inside ▸ List.getElem_mem inside

theorem Everywhere.img {P : (Nat → Option Bytes) → Image → Prop} {self : GraphicsManager}
    (h : Everywhere P self) {idx : Nat} (inside : idx < self.images.length) :
    P (self.frameData (self.img idx)) (self.img idx) :=
  h _ (img_mem inside)

theorem keepsFrames_ids {images after : List Image}
    (h : List.Forall₂ Image.KeepsFrames images after) :
    after.map Image.internalId = images.map Image.internalId := by
  induction h with
  | nil => rfl
  | cons keeps _ ih => rw [List.map_cons, List.map_cons, keeps.internalId, ih]

theorem img_mem_map {self : GraphicsManager} {img : Image} (mem : img ∈ self.images) :
    img.internalId ∈ self.images.map Image.internalId := List.mem_map_of_mem mem

theorem numbered_of_ids {self next : GraphicsManager} (h : Numbered self)
    (ids : next.images.map Image.internalId = self.images.map Image.internalId)
    (counter : next.internalIdCounter = self.internalIdCounter)
    (cached : ∀ x : ImageAndFrame, self.internalIdCounter ≤ x.imageId →
      readFromCache next x = none) : Numbered next := by
  have same (img : Image) (mem : img ∈ next.images) :
      ∃ img' ∈ self.images, img'.internalId = img.internalId :=
    List.mem_map.1 (ids ▸ img_mem_map mem)
  refine ⟨ids ▸ h.distinct, ?_, ?_, counter.symm ▸ cached, counter.symm ▸ h.started⟩
  · intro img mem
    obtain ⟨img', mem', idEq⟩ := same img mem
    exact idEq ▸ h.positive img' mem'
  · intro img mem
    obtain ⟨img', mem', idEq⟩ := same img mem
    rw [counter, ← idEq]
    exact h.given img' mem'

/-- Images without the one at an index are numbered, and it has an id of its own. -/
theorem numbered_removeImage {self : GraphicsManager} (h : Numbered self) (idx : Nat) :
    Numbered (removeImage self idx) := by
  have sub : (self.images.eraseIdx idx).Sublist self.images := List.eraseIdx_sublist _ _
  refine ⟨h.distinct.sublist (sub.map _), fun img mem => h.positive img (sub.subset mem),
    fun img mem => ?_, fun x outside => ?_, (removeImage_counter self idx).symm ▸ h.started⟩
  · show img.internalId < (removeImage self idx).internalIdCounter
    rw [removeImage_counter]
    exact h.given img (sub.subset mem)
  · refine readFromCache_removeImage_none self idx (h.cached x ?_)
    rwa [removeImage_counter] at outside

/-- The internal id says where an image is. -/
theorem Numbered.index_eq {manager : GraphicsManager} (h : Numbered manager) {i j : Nat}
    (insideI : i < manager.images.length) (insideJ : j < manager.images.length)
    (same : (manager.img i).internalId = (manager.img j).internalId) : i = j := by
  rw [img_eq insideI, img_eq insideJ] at same
  refine (List.getElem?_inj (by rwa [List.length_map]) h.distinct).1 ?_
  rw [List.getElem?_map, List.getElem?_map, List.getElem?_eq_getElem insideI,
    List.getElem?_eq_getElem insideJ]
  exact congrArg some same

theorem mem_img {self : GraphicsManager} {img : Image} (mem : img ∈ self.images) :
    ∃ i, i < self.images.length ∧ self.img i = img := by
  obtain ⟨i, inside, found⟩ := List.mem_iff_getElem.1 mem
  exact ⟨i, inside, (img_eq inside).trans found⟩

variable {P : (Nat → Option Bytes) → Image → Prop}

theorem everywhere_removeImage {self : GraphicsManager} (h : Holds P self) (idx : Nat) :
    Everywhere P (removeImage self idx) := by
  intro img mem
  obtain ⟨i, ne, found⟩ := List.mem_eraseIdx_iff_getElem?.1 mem
  obtain ⟨inside, foundEq⟩ := List.getElem?_eq_some_iff.1 found
  have imgEq : self.img i = img := (img_eq inside).trans foundEq
  have sameData : (removeImage self idx).frameData img = self.frameData img := by
    funext frameId
    by_cases insideIdx : idx < self.images.length
    · refine readFromCache_removeImage self idx fun same => ne ?_
      exact h.numbered.index_eq inside insideIdx (imgEq ▸ same)
    · refine readFromCache_removeImage self idx ?_
      have missing : self.img idx = {} := by
        rw [GraphicsManager.img, List.getD_eq_getElem?_getD, List.getElem?_eq_none (by omega)]
        rfl
      rw [missing, ← imgEq]
      exact h.numbered.positive _ (img_mem inside)
  rw [sameData, ← imgEq]
  exact h.everywhere.img inside

theorem everywhere_forall₂ (rules : ImageInvariant P) {self next : GraphicsManager}
    (images : List.Forall₂ Image.KeepsFrames self.images next.images)
    (diskCache : next.diskCache = self.diskCache) (h : Everywhere P self) : Everywhere P next := by
  have sameCache (x : ImageAndFrame) : readFromCache next x = readFromCache self x := by
    rw [readFromCache, diskCache, readFromCache]
  intro after mem
  obtain ⟨i, inside, afterEq⟩ := List.mem_iff_getElem.1 mem
  have insideSelf : i < self.images.length := images.length_eq ▸ inside
  have kept : self.images[i].KeepsFrames after :=
    afterEq ▸ (List.forall₂_iff_get.1 images).2 i insideSelf inside
  have here := h _ (List.getElem_mem insideSelf)
  have sameData : next.frameData after = self.frameData self.images[i] := by
    funext frameId
    rw [GraphicsManager.frameData, GraphicsManager.frameData, kept.internalId, sameCache]
  rw [sameData]
  exact rules.keeps kept here

/-- Tidying up keeps a property of the frames of images. -/
theorem Holds.tidy (rules : ImageInvariant P) {self next : GraphicsManager} (tidied : Tidy self next)
    (h : Holds P self) : Holds P next := by
  induction tidied with
  | update images usedStorage diskCache internalIdCounter currentlyLoading =>
    refine ⟨numbered_of_ids h.numbered (keepsFrames_ids images) internalIdCounter ?_,
      everywhere_forall₂ rules images diskCache h.everywhere⟩
    intro x outside
    rw [readFromCache, diskCache]
    exact h.numbered.cached x outside
  | remove self idx => exact ⟨numbered_removeImage h.numbered idx, everywhere_removeImage h idx⟩
  | reorder self images perm =>
    refine ⟨⟨(perm.map Image.internalId).nodup_iff.2 h.numbered.distinct, ?_, ?_,
      h.numbered.cached, h.numbered.started⟩, ?_⟩
    · exact fun img mem => h.numbered.positive img (perm.subset mem)
    · exact fun img mem => h.numbered.given img (perm.subset mem)
    · exact fun img mem => h.everywhere img (perm.subset mem)
  | reset self empty => exact ⟨⟨h.numbered.1, h.numbered.2, h.numbered.3, h.numbered.4, h.numbered.5⟩, h.everywhere⟩
  | trans _ _ ih ih' => exact ih' (ih h)

theorem Holds.load {self : GraphicsManager} (ld : LoadData) (h : Holds P self) :
    Holds P { self with currentlyLoading := ld } :=
  ⟨⟨h.numbered.1, h.numbered.2, h.numbered.3, h.numbered.4, h.numbered.5⟩, h.everywhere⟩

theorem Holds.tidyLoad (rules : ImageInvariant P) {self next : GraphicsManager}
    (tidied : TidyLoad self next) (h : Holds P self) : Holds P next := by
  obtain ⟨ld, tidied⟩ := tidied
  exact (h.load ld).tidy rules tidied

theorem Holds.create (rules : ImageInvariant P) {self : GraphicsManager} {img : Image}
    (blank : img.Blank) (internalId : img.internalId = self.internalIdCounter) (h : Holds P self) :
    Holds P (self.create img) := by
  have fresh (img' : Image) (mem : img' ∈ self.images) : img'.internalId ≠ img.internalId := by
    have := h.numbered.given img' mem
    omega
  refine ⟨⟨?_, ?_, ?_, ?_, Nat.succ_ne_zero _⟩, ?_⟩
  · show ((self.images ++ [img]).map Image.internalId).Nodup
    rw [List.map_append]
    refine List.nodup_append.2 ⟨h.numbered.distinct, List.nodup_singleton _, ?_⟩
    intro id mem id' mem' same
    obtain ⟨img', memImages, rfl⟩ := List.mem_map.1 mem
    exact fresh img' memImages (same.trans (List.mem_singleton.1 mem'))
  · intro img' mem
    rcases List.mem_append.1 mem with mem | mem
    · exact h.numbered.positive img' mem
    · rw [List.mem_singleton.1 mem, internalId]
      exact h.numbered.started
  · intro img' mem
    show img'.internalId < self.internalIdCounter + 1
    rcases List.mem_append.1 mem with mem | mem
    · exact Nat.lt_succ_of_lt (h.numbered.given img' mem)
    · rw [List.mem_singleton.1 mem, internalId]
      exact Nat.lt_succ_self _
  · exact fun x outside => h.numbered.cached x (Nat.le_of_succ_le outside)
  · intro img' mem
    rcases List.mem_append.1 mem with mem | mem
    · exact h.everywhere img' mem
    · have noData : (self.create img).frameData img' = fun _ => none := by
        funext frameId
        refine h.numbered.cached _ ?_
        rw [List.mem_singleton.1 mem, internalId]
      rw [noData, List.mem_singleton.1 mem]
      exact rules.blank blank

theorem img_getElem? (self : GraphicsManager) (idx : Nat) :
    self.img idx = self.images[idx]?.getD {} := List.getD_eq_getElem?_getD

theorem img_modifyImg {self : GraphicsManager} {idx : Nat} (inside : idx < self.images.length)
    (change : Image → Image) : (self.modifyImg idx change).img idx = change (self.img idx) := by
  rw [img_getElem?, img_getElem?]
  show ((self.images.modify idx change)[idx]?).getD {} = _
  rw [List.getElem?_modify, List.getElem?_eq_getElem inside]
  simp

theorem img_modifyImg_ne {self : GraphicsManager} {idx i : Nat} (ne : i ≠ idx)
    (change : Image → Image) : (self.modifyImg idx change).img i = self.img i := by
  rw [img_getElem?, img_getElem?]
  show ((self.images.modify idx change)[i]?).getD {} = _
  rw [List.getElem?_modify]
  simp [Ne.symm ne]

/-- A change to one image and its data keeps a property if the changed image has it. -/
theorem Holds.modify {self next : GraphicsManager} (h : Holds P self) {idx : Nat}
    (inside : idx < self.images.length) (change : Image → Image)
    (images : next.images = self.images.modify idx change)
    (internalId : (change (self.img idx)).internalId = (self.img idx).internalId)
    (counter : next.internalIdCounter = self.internalIdCounter)
    (others : ∀ x : ImageAndFrame, x.imageId ≠ (self.img idx).internalId →
      readFromCache next x = readFromCache self x)
    (here : P (fun frameId => readFromCache next
      { imageId := (self.img idx).internalId, frameId := frameId }) (change (self.img idx))) :
    Holds P next := by
  have ids : next.images.map Image.internalId = self.images.map Image.internalId := by
    rw [images]
    refine List.ext_getElem (by simp) fun i _ insideI => ?_
    rw [List.length_map] at insideI
    rw [List.getElem_map, List.getElem_map, List.getElem_modify]
    split
    · rename_i same
      subst same
      rw [img_eq inside] at internalId
      exact internalId
    · rfl
  have numbered : Numbered next := by
    refine numbered_of_ids h.numbered ids counter fun x outside => ?_
    have given := h.numbered.given _ (img_mem inside)
    rw [others x (by omega)]
    exact h.numbered.cached x outside
  refine ⟨numbered, fun img mem => ?_⟩
  obtain ⟨i, insideI, rfl⟩ := mem_img mem
  have nextImg (j : Nat) : next.img j = (self.modifyImg idx change).img j := by
    rw [GraphicsManager.img, images]
    rfl
  by_cases same : i = idx
  · subst same
    rw [nextImg, img_modifyImg inside]
    unfold GraphicsManager.frameData
    rw [internalId]
    exact here
  · have insideSelf : i < self.images.length := by
      rwa [images, List.length_modify] at insideI
    rw [nextImg, img_modifyImg_ne same]
    have sameData : next.frameData (self.img i) = self.frameData (self.img i) := by
      funext frameId
      exact others _ fun eq => same (h.numbered.index_eq insideSelf inside eq)
    rw [sameData]
    exact h.everywhere.img insideSelf

/-- A change to one image that leaves the cache alone. -/
theorem Holds.modifyImg {self : GraphicsManager} (h : Holds P self) {idx : Nat}
    (inside : idx < self.images.length) (change : Image → Image)
    (internalId : (change (self.img idx)).internalId = (self.img idx).internalId)
    (here : P (self.frameData (self.img idx)) (self.img idx) →
      P (self.frameData (self.img idx)) (change (self.img idx))) :
    Holds P (self.modifyImg idx change) :=
  h.modify inside change rfl internalId rfl (fun _ _ => rfl) (here (h.everywhere.img inside))

theorem frameForNumber_eq_some {img : Image} {frameNumber : Nat} {f : Frame} :
    frameForNumber img frameNumber = some f ↔
      frameNumber ≠ 0 ∧ img.frames[frameNumber - 1]? = some f := by
  unfold frameForNumber
  split
  · rename_i zero
    simp [zero]
  · rename_i positive
    simp [positive]

theorem changeGap_internalId (img : Image) (frameNumber : Nat) (gap : Int) :
    (changeGap img frameNumber gap).internalId = img.internalId := by
  unfold changeGap Image.modifyFrame
  dsimp only
  split <;> rfl

/-- A control command sets the gap of a frame that is there, or none. -/
theorem controlGap_cases (img : Image) (g : GraphicsCommand) :
    controlGap img g = img ∨ ∃ f, frameForNumber img g.frameNumber = some f ∧
      controlGap img g = changeGap img g.frameNumber g.gap := by
  unfold controlGap
  split
  · rename_i controls
    have bound : g.frameNumber - 1 < img.frames.length := by
      simp only [Image.frames, List.length_cons]
      omega
    exact .inr ⟨_, frameForNumber_eq_some.2 ⟨controls.1, List.getElem?_eq_getElem bound⟩, rfl⟩
  · exact .inl rfl

theorem Holds.setGap (rules : ImageInvariant P) {self : GraphicsManager} (h : Holds P self)
    (idx : Nat) (g : GraphicsCommand) :
    Holds P (self.modifyImg idx fun img => controlGap img g) := by
  by_cases inside : idx < self.images.length
  · refine h.modifyImg inside _ ?_ fun here => ?_
    all_goals rcases controlGap_cases (self.img idx) g with same | ⟨f, found, changed⟩
    · rw [same]
    · rw [changed, changeGap_internalId]
    · rw [same]
      exact here
    · rw [changed]
      exact rules.changeGap g.gap found here
  · have same : self.modifyImg idx (fun img => controlGap img g) = self := by
      rw [GraphicsManager.modifyImg, List.modify_eq_self (by omega)]
    rw [same]
    exact h

/-! ### Runs -/

variable (libs : GraphicsLibraries)

/-- An invariant of managers that tidying, new images and new gaps keep, and that the changes of
every step under a condition keep, holds in every run whose steps all meet the condition. -/
theorem graphics_run (invariant : GraphicsManager → Prop)
    (positive : ∀ {self : GraphicsManager}, invariant self →
      ∀ img ∈ self.images, img.internalId ≠ 0)
    (tidy : ∀ {self next}, Tidy self next → invariant self → invariant next)
    (load : ∀ {self : GraphicsManager} (ld : LoadData), invariant self →
      invariant { self with currentlyLoading := ld })
    (create : ∀ {self : GraphicsManager} {img : Image}, img.Blank →
      img.internalId = self.internalIdCounter → invariant self → invariant (self.create img))
    (setGap : ∀ (self : GraphicsManager) idx g, invariant self →
      invariant (self.modifyImg idx fun img => controlGap img g))
    (condition : GraphicsManager → GraphicsStep × Answers → Prop)
    (change : ∀ self input, condition self input → ∀ c ∈ stepChanges libs self input,
      c.idx < c.before.images.length → c.Sound libs → invariant c.before →
      invariant (c.after libs input.2))
    {init : GraphicsManager} (start : invariant init) (declared : init.currentlyLoading.Declared)
    {inputs : List (GraphicsStep × Answers)}
    (taken : ∀ self input, Takes (GraphicsManager.step libs) init inputs self input →
      condition self input)
    {self : GraphicsManager} (visited : Visits (GraphicsManager.step libs) init inputs self) :
    invariant self := by
  refine (visits_of_takes (fun self => invariant self ∧ self.currentlyLoading.Declared) condition
    ?_ ⟨start, declared⟩ taken visited).1
  rintro s input next ⟨holds, declared⟩ met stepEq
  have leads := step_leads (positive holds) declared stepEq
  exact ⟨leads.chain.preserves invariant tidy load create setGap (change s input met) holds,
    leads.declared⟩

theorem numbered_grmanAlloc (storageLimit takenIds : Nat) :
    Numbered (grmanAlloc storageLimit takenIds) :=
  ⟨List.nodup_nil, (fun _ mem => nomatch mem), (fun _ mem => nomatch mem), fun _ _ => rfl,
    Nat.succ_ne_zero _⟩

/-- A property of images that the changes of every step under a condition keep holds of all images
in every run whose steps all meet the condition. -/
theorem ImageInvariant.run (rules : ImageInvariant P)
    (condition : GraphicsManager → GraphicsStep × Answers → Prop)
    (change : ∀ self input, condition self input → ∀ c ∈ stepChanges libs self input,
      c.idx < c.before.images.length → c.Sound libs → Holds P c.before →
      Holds P (c.after libs input.2))
    {storageLimit takenIds : Nat} {inputs : List (GraphicsStep × Answers)}
    (taken : ∀ self input, Takes (GraphicsManager.step libs) (grmanAlloc storageLimit takenIds)
      inputs self input → condition self input)
    {self : GraphicsManager}
    (visited : Visits (GraphicsManager.step libs) (grmanAlloc storageLimit takenIds) inputs self) :
    Holds P self :=
  graphics_run libs (Holds P) (fun h => h.numbered.positive) (fun tidied h => h.tidy rules tidied)
    (fun ld h => h.load ld) (fun blank internalId h => h.create rules blank internalId)
    (fun _ idx g h => h.setGap rules idx g) condition change
    ⟨numbered_grmanAlloc storageLimit takenIds, fun _ mem => nomatch mem⟩
    (LoadData.declared_of_idle rfl) taken visited

end Smelly
