/-
Module: Smelly.Proofs.GraphicsFailures
Purpose: What a frame load that is answered with an error leaves of the image: the same frames, the
  same duration and the same frame data, unless it stops at one of the exits that do not take
  back what was done before them.
Trusted boundary: none
-/
import Smelly.Proofs.GraphicsReferences

namespace Smelly

open Run

/-! ### Images that stay as they are -/

/-- The same frames and the same duration. -/
structure Image.SameAnimation (before after : Image) : Prop where
  frames : after.frames = before.frames
  animationDuration : after.animationDuration = before.animationDuration

/-- The image with an internal id is still there, with its frames, its duration and the data of
every frame. -/
def ImageKept (self after : GraphicsManager) (id : Nat) : Prop :=
  ∀ img ∈ self.images, img.internalId = id →
    ∃ img' ∈ after.images, img'.internalId = id ∧ img.SameAnimation img' ∧
      ∀ f ∈ img.frames, after.frameData img' f.id = self.frameData img f.id

theorem Image.SameAnimation.refl (img : Image) : img.SameAnimation img := ⟨rfl, rfl⟩

theorem Image.SameAnimation.trans {a b c : Image} (h : a.SameAnimation b)
    (h' : b.SameAnimation c) : a.SameAnimation c :=
  ⟨h'.frames.trans h.frames, h'.animationDuration.trans h.animationDuration⟩

theorem Image.SameAnimation.symm {a b : Image} (h : a.SameAnimation b) : b.SameAnimation a :=
  ⟨h.frames.symm, h.animationDuration.symm⟩

theorem ImageKept.of_same {self after : GraphicsManager} (images : after.images = self.images)
    (diskCache : after.diskCache = self.diskCache) (id : Nat) : ImageKept self after id := by
  intro img mem idEq
  refine ⟨img, images ▸ mem, idEq, .refl img, ?_⟩
  intro f _
  rw [GraphicsManager.frameData, readFromCache, diskCache]
  rfl

/-- Internal ids tell images apart. -/
theorem Numbered.eq_of_id {manager : GraphicsManager} (h : Numbered manager) {img img' : Image}
    (mem : img ∈ manager.images) (mem' : img' ∈ manager.images)
    (same : img.internalId = img'.internalId) : img = img' := by
  obtain ⟨i, inside, rfl⟩ := mem_img mem
  obtain ⟨j, inside', rfl⟩ := mem_img mem'
  rw [h.index_eq inside inside' same]

/-- What is kept on the way does not matter for what is kept in the end. -/
theorem ImageKept.iff_of_left {self mid after : GraphicsManager} {id : Nat}
    (kept : ImageKept self mid id) (numbered : Numbered mid)
    (there : ∃ img ∈ self.images, img.internalId = id) :
    ImageKept self after id ↔ ImageKept mid after id := by
  obtain ⟨img, mem, idEq⟩ := there
  obtain ⟨found, foundMem, foundId, foundSame, foundData⟩ := kept img mem idEq
  constructor
  · intro keeps other otherMem otherId
    have same : other = found := numbered.eq_of_id otherMem foundMem (otherId.trans foundId.symm)
    subst same
    obtain ⟨last, lastMem, lastId, lastSame, lastData⟩ := keeps img mem idEq
    refine ⟨last, lastMem, lastId, foundSame.symm.trans lastSame, ?_⟩
    intro f memF
    rw [foundSame.frames] at memF
    exact (lastData f memF).trans (foundData f memF).symm
  · intro keeps img₀ mem₀ idEq₀
    obtain ⟨found₀, foundMem₀, foundId₀, foundSame₀, foundData₀⟩ := kept img₀ mem₀ idEq₀
    obtain ⟨last, lastMem, lastId, lastSame, lastData⟩ := keeps found₀ foundMem₀ foundId₀
    refine ⟨last, lastMem, lastId, foundSame₀.trans lastSame, ?_⟩
    intro f memF
    have memF' : f ∈ found₀.frames := by
      rw [foundSame₀.frames]
      exact memF
    exact (lastData f memF').trans (foundData₀ f memF)

/-- A change to one image, which the cache does not see. -/
theorem imageKept_modify_iff {self after : GraphicsManager} (numbered : Numbered self) {idx : Nat}
    (inside : idx < self.images.length) (change : Image → Image)
    (internalId : (change (self.img idx)).internalId = (self.img idx).internalId)
    (images : after.images = self.images.modify idx change)
    (diskCache : after.diskCache = self.diskCache) (id : Nat) :
    ImageKept self after id ↔
      ((self.img idx).internalId = id → (self.img idx).SameAnimation (change (self.img idx))) := by
  have afterLength : after.images.length = self.images.length := by
    rw [images, List.length_modify]
  have afterImg (i : Nat) : after.img i = (self.modifyImg idx change).img i := by
    rw [GraphicsManager.img, images]
    rfl
  have sameCache (x : ImageAndFrame) : readFromCache after x = readFromCache self x := by
    rw [readFromCache, diskCache]
    rfl
  have afterIds (i : Nat) : (after.img i).internalId = (self.img i).internalId := by
    rw [afterImg]
    by_cases same : i = idx
    · subst same
      rw [img_modifyImg inside]
      exact internalId
    · rw [img_modifyImg_ne same]
  constructor
  · intro kept idEq
    obtain ⟨found, foundMem, foundId, foundSame, -⟩ := kept _ (img_mem inside) idEq
    obtain ⟨i, insideI, rfl⟩ := mem_img foundMem
    have here : i = idx := by
      apply numbered.index_eq (afterLength ▸ insideI) inside
      rw [← afterIds i, foundId, idEq]
    subst here
    rw [afterImg, img_modifyImg inside] at foundSame
    exact foundSame
  · intro same img mem idEq
    obtain ⟨i, insideI, rfl⟩ := mem_img mem
    refine ⟨after.img i, img_mem (afterLength.symm ▸ insideI), (afterIds i).trans idEq, ?_, ?_⟩
    · rw [afterImg]
      by_cases here : i = idx
      · subst here
        rw [img_modifyImg inside]
        exact same idEq
      · rw [img_modifyImg_ne here]
        exact .refl _
    · intro f _
      rw [GraphicsManager.frameData, afterIds, sameCache]
      rfl

/-! ### Editing a frame -/

variable (libs : GraphicsLibraries) (answers : Answers)

/-- A frame that covers its image and is drawn as it is. -/
structure FrameFlat (img : Image) (f : Frame) : Prop where
  alphaBlend : f.alphaBlend = false
  baseFrameId : f.baseFrameId = 0
  bgcolor : f.bgcolor = 0
  x : f.x = 0
  y : f.y = 0
  width : f.width = img.width
  height : f.height = img.height

/-- No new gap is asked for, or the frame has it already and the duration counts it. -/
def GapStays (img : Image) (g : GraphicsCommand) (f : Frame) (gap : Nat) : Prop :=
  g.gap ≠ 0 → f.gap = gap ∧ f.gap ≤ img.animationDuration

/-- An edit that fails has nothing to take back: the gap is the old one, and the frame is not
looked at for want of data, or flat already. -/
def EditLeaves (self : GraphicsManager) (g : GraphicsCommand) (idx frameNumber gap : Nat) : Prop :=
  ∀ f, frameForNumber (self.img idx) frameNumber = some f →
    GapStays (self.img idx) g f gap ∧
      (getCoalescedFrameData libs.toBlending self (self.img idx) f = none ∨
        FrameFlat (self.img idx) f)

/-- What an edit does to the gap. -/
def gapChange (g : GraphicsCommand) (frameNumber gap : Nat) (img : Image) : Image :=
  if g.gap ≠ 0 then changeGap img frameNumber gap else img

theorem gapChange_internalId (g : GraphicsCommand) (frameNumber gap : Nat) (img : Image) :
    (gapChange g frameNumber gap img).internalId = img.internalId := by
  unfold gapChange
  split
  · exact changeGap_internalId img frameNumber gap
  · rfl

theorem modifyFrame_eq_self {img : Image} {frameNumber : Nat} {f : Frame}
    (found : frameForNumber img frameNumber = some f) (change : Frame → Frame)
    (same : change f = f) :
    img.modifyFrame frameNumber change = img := by
  obtain ⟨positive, atIndex⟩ := frameForNumber_eq_some.1 found
  unfold Image.modifyFrame
  by_cases root : frameNumber = 1
  · subst root
    have rootEq : img.rootFrame = f := Option.some.inj atIndex
    rw [if_pos rfl, rootEq, same, ← rootEq]
  · obtain ⟨k, rfl⟩ : ∃ k, frameNumber = k + 2 := ⟨frameNumber - 2, by omega⟩
    have extraEq : img.extraFrames[k]? = some f := atIndex
    obtain ⟨inside, here⟩ := List.getElem?_eq_some_iff.1 extraEq
    have extraSame : img.extraFrames.modify k change = img.extraFrames := by
      apply List.ext_getElem?
      intro j
      by_cases equal : k = j
      · subst equal
        rw [List.getElem?_modify_eq, extraEq]
        exact congrArg some same
      · exact List.getElem?_modify_ne _ _ equal
    rw [if_neg root, Nat.add_sub_cancel, extraSame]

theorem changeGap_frames (img : Image) {frameNumber : Nat} (positive : frameNumber ≠ 0)
    (gap : Int) : (changeGap img frameNumber gap).frames =
      img.frames.modify (frameNumber - 1) fun f => { f with gap := gap.toNat } :=
  modifyFrame_frames img positive _

theorem gapChange_eq_self {img : Image} {g : GraphicsCommand} {frameNumber gap : Nat} {f : Frame}
    (found : frameForNumber img frameNumber = some f) (stays : GapStays img g f gap) :
    gapChange g frameNumber gap img = img := by
  unfold gapChange
  by_cases asked : g.gap ≠ 0
  · obtain ⟨gapEq, counted⟩ := stays asked
    have framesSame : img.modifyFrame frameNumber (fun f => { f with gap := gap }) = img := by
      apply modifyFrame_eq_self found
      show ({ f with gap := gap } : Frame) = f
      rw [← gapEq]
    have durationSame : (if ((frameForNumber img frameNumber).getD {}).gap < img.animationDuration
        then img.animationDuration - ((frameForNumber img frameNumber).getD {}).gap else 0) + gap =
          img.animationDuration := by
      rw [found]
      show (if f.gap < img.animationDuration then img.animationDuration - f.gap else 0) + gap = _
      split <;> omega
    rw [if_pos asked]
    show ({ img.modifyFrame frameNumber (fun f => { f with gap := gap }) with
      animationDuration := _ + gap } : Image) = img
    rw [framesSame, durationSame]
  · rw [if_neg asked]

/-- What an edit makes of the frame with the number. -/
theorem gapChange_frame {img : Image} (g : GraphicsCommand) {frameNumber : Nat} (gap : Nat)
    {f : Frame} (found : frameForNumber img frameNumber = some f) :
    frameForNumber (gapChange g frameNumber gap img) frameNumber =
      some { f with gap := if g.gap ≠ 0 then gap else f.gap } := by
  obtain ⟨positive, atIndex⟩ := frameForNumber_eq_some.1 found
  apply frameForNumber_eq_some.2
  refine ⟨positive, ?_⟩
  unfold gapChange
  by_cases asked : g.gap ≠ 0
  · rw [if_pos asked, if_pos asked, changeGap_frames img positive, List.getElem?_modify_eq, atIndex]
    rfl
  · rw [if_neg asked, if_neg asked]
    exact atIndex

/-- The gap is the old one if the image is the same at the place of the frame, as far as gaps are
concerned. -/
theorem gapStays_of_same {img changed : Image} {g : GraphicsCommand} {frameNumber gap : Nat}
    {f f' : Frame} (found : frameForNumber img frameNumber = some f)
    (same : img.SameAnimation changed) (found' : frameForNumber changed frameNumber = some f')
    (gapEq : f'.gap = if g.gap ≠ 0 then gap else f.gap)
    (duration : changed.animationDuration =
      (gapChange g frameNumber gap img).animationDuration) : GapStays img g f gap := by
  intro asked
  obtain ⟨-, atIndex⟩ := frameForNumber_eq_some.1 found
  obtain ⟨-, atIndex'⟩ := frameForNumber_eq_some.1 found'
  rw [same.frames, atIndex] at atIndex'
  have frameEq : f = f' := Option.some.inj atIndex'
  rw [if_pos asked, ← frameEq] at gapEq
  refine ⟨gapEq, ?_⟩
  rw [same.animationDuration, gapChange, if_pos asked, changeGap, found] at duration
  have durationEq : img.animationDuration = (if f.gap < img.animationDuration then
      img.animationDuration - f.gap else 0) + (gap : Int).toNat := duration
  rw [Int.toNat_natCast] at durationEq
  split at durationEq <;> omega

theorem gapChange_same_iff {img : Image} {g : GraphicsCommand} {frameNumber gap : Nat} {f : Frame}
    (found : frameForNumber img frameNumber = some f) :
    img.SameAnimation (gapChange g frameNumber gap img) ↔ GapStays img g f gap := by
  constructor
  · intro same
    exact gapStays_of_same found same (gapChange_frame g gap found) rfl rfl
  · intro stays
    rw [gapChange_eq_self found stays]
    exact .refl img

/-- Drawing a flat frame whole does not change it. -/
theorem flattenFrame_flat {self : GraphicsManager} {img : Image} {f : Frame}
    {cfd : CoalescedFrameData} (flat : FrameFlat img f)
    (coalesced : getCoalescedFrameData libs.toBlending self img f = some cfd) :
    flattenFrame img cfd f = f := by
  unfold getCoalescedFrameData getCoalescedFrameDataImpl at coalesced
  obtain ⟨frameData, -, coalesced⟩ := Option.bind_eq_some_iff.1 coalesced
  rw [if_pos flat.baseFrameId] at coalesced
  unfold getCoalescedFrameDataStandalone at coalesced
  rw [if_pos ⟨flat.width, flat.height, flat.x, flat.y⟩] at coalesced
  have opaqueEq : cfd.isOpaque = f.isOpaque := by
    rw [← Option.some.inj coalesced]
  have alignedEq : cfd.is4byteAligned = f.is4byteAligned := by
    rw [← Option.some.inj coalesced]
  unfold flattenFrame
  rw [opaqueEq, alignedEq, ← flat.width, ← flat.height]
  obtain ⟨gap, id, width, height, x, y, baseFrameId, bgcolor, isOpaque, is4byteAligned,
    alphaBlend⟩ := f
  obtain ⟨rfl, rfl, rfl, rfl, rfl, -, -⟩ := flat
  rfl

theorem flat_of_flattenFrame {img : Image} {f f' : Frame} {cfd : CoalescedFrameData}
    (h : flattenFrame img cfd f' = f) : FrameFlat img f := by
  subst h
  exact ⟨rfl, rfl, rfl, rfl, rfl, rfl, rfl⟩

theorem modifyImg_eq_self {self : GraphicsManager} {idx : Nat} (inside : idx < self.images.length)
    {change : Image → Image} (same : change (self.img idx) = self.img idx) :
    self.modifyImg idx change = self := by
  have imagesEq : self.images.modify idx change = self.images := by
    rw [img_eq inside] at same
    apply List.ext_getElem?
    intro j
    by_cases equal : idx = j
    · subst equal
      rw [List.getElem?_modify_eq, List.getElem?_eq_getElem inside]
      exact congrArg some same
    · exact List.getElem?_modify_ne _ _ equal
  rw [GraphicsManager.modifyImg, imagesEq]

/-- How an edit can fail: the frame is not there, its data is not, or the cache does not take the
new data. -/
theorem editFrame_error {self after : GraphicsManager} {g : GraphicsCommand} {idx frameNumber : Nat}
    {transmitted : Frame} {error : String}
    (fails : editFrame libs answers self g idx frameNumber transmitted = (after, .error error)) :
    let gapped := self.modifyImg idx (gapChange g frameNumber transmitted.gap)
    after.diskCache = self.diskCache ∧
      (frameForNumber (self.img idx) frameNumber = none ∧ after.images = self.images ∨
      ∃ f, frameForNumber (self.img idx) frameNumber = some f ∧
        ((frameForNumber (gapped.img idx) frameNumber).bind
            (getCoalescedFrameData libs.toBlending gapped (gapped.img idx)) = none ∧
          after.images = gapped.images ∨
        ∃ cfd, (frameForNumber (gapped.img idx) frameNumber).bind
            (getCoalescedFrameData libs.toBlending gapped (gapped.img idx)) = some cfd ∧
          after.images = (gapped.modifyImg idx fun img =>
            img.modifyFrame frameNumber (flattenFrame img cfd)).images)) := by
  intro gapped
  unfold editFrame at fails
  dsimp only at fails
  split at fails
  · rename_i missing
    have afterEq := (Prod.mk.inj fails).1
    subst afterEq
    exact ⟨rfl, Or.inl ⟨missing, rfl⟩⟩
  · rename_i f found
    split at fails
    · rename_i missing
      have afterEq := (Prod.mk.inj fails).1
      subst afterEq
      exact ⟨rfl, Or.inr ⟨f, found, Or.inl ⟨missing, rfl⟩⟩⟩
    · rename_i cfd coalesced
      split at fails
      · exact absurd (Prod.mk.inj fails).2 (by simp)
      · have afterEq := (Prod.mk.inj fails).1
        subst afterEq
        exact ⟨rfl, Or.inr ⟨f, found, Or.inr ⟨cfd, coalesced, rfl⟩⟩⟩

/-- An edit that fails leaves the image as it was exactly when it had nothing to take back. -/
theorem editFrame_failed {self after : GraphicsManager} (numbered : Numbered self)
    {g : GraphicsCommand} {idx frameNumber : Nat} (inside : idx < self.images.length)
    {transmitted : Frame} {error : String}
    (fails : editFrame libs answers self g idx frameNumber transmitted = (after, .error error)) :
    ImageKept self after (self.img idx).internalId ↔
      EditLeaves libs self g idx frameNumber transmitted.gap := by
  obtain ⟨cache, missing | ⟨f, found, rest⟩⟩ := editFrame_error libs answers fails
  · constructor
    · intro _ f found
      exact absurd (missing.1.symm.trans found) (by simp)
    · intro _
      exact .of_same missing.2 cache _
  · have gappedImg := img_modifyImg inside (gapChange g frameNumber transmitted.gap)
    have foundGapped := gapChange_frame g transmitted.gap found
    rw [gappedImg, foundGapped, Option.bind_some] at rest
    have ungapped (stays : GapStays (self.img idx) g f transmitted.gap) :
        self.modifyImg idx (gapChange g frameNumber transmitted.gap) = self ∧
          ({ f with gap := if g.gap ≠ 0 then transmitted.gap else f.gap } : Frame) = f := by
      have same := gapChange_eq_self found stays
      rw [same, found] at foundGapped
      exact ⟨modifyImg_eq_self inside same, (Option.some.inj foundGapped).symm⟩
    have leaves : EditLeaves libs self g idx frameNumber transmitted.gap ↔
        GapStays (self.img idx) g f transmitted.gap ∧
          (getCoalescedFrameData libs.toBlending self (self.img idx) f = none ∨
            FrameFlat (self.img idx) f) := by
      constructor
      · exact fun h => h f found
      · intro h f' found'
        rw [← Option.some.inj (found.symm.trans found')]
        exact h
    rw [leaves]
    rcases rest with ⟨missing, images⟩ | ⟨cfd, coalesced, images⟩
    · rw [imageKept_modify_iff numbered inside _ (gapChange_internalId _ _ _ _) images cache]
      constructor
      · intro same
        have stays := (gapChange_same_iff found).1 (same rfl)
        have back := ungapped stays
        rw [gapChange_eq_self found stays, back.1, back.2] at missing
        exact ⟨stays, Or.inl missing⟩
      · intro h _
        exact (gapChange_same_iff found).2 h.1
    · let change (img : Image) : Image :=
        (gapChange g frameNumber transmitted.gap img).modifyFrame frameNumber
          (flattenFrame (gapChange g frameNumber transmitted.gap img) cfd)
      have imagesEq : after.images = self.images.modify idx change :=
        images.trans (List.modify_modify_eq _ _ _ _)
      have changeId : (change (self.img idx)).internalId = (self.img idx).internalId :=
        (modifyFrame_internalId _ _ _).trans (gapChange_internalId _ _ _ _)
      rw [imageKept_modify_iff numbered inside change changeId imagesEq cache]
      obtain ⟨positive, atIndex⟩ := frameForNumber_eq_some.1 found
      have changedFrame : frameForNumber (change (self.img idx)) frameNumber =
          some (flattenFrame (gapChange g frameNumber transmitted.gap (self.img idx)) cfd
            { f with gap := if g.gap ≠ 0 then transmitted.gap else f.gap }) := by
        apply frameForNumber_eq_some.2
        refine ⟨positive, ?_⟩
        rw [modifyFrame_frames _ positive, List.getElem?_modify_eq,
          (frameForNumber_eq_some.1 foundGapped).2]
        rfl
      have duration : (change (self.img idx)).animationDuration =
          (gapChange g frameNumber transmitted.gap (self.img idx)).animationDuration := by
        show (Image.modifyFrame _ _ _).animationDuration = _
        unfold Image.modifyFrame
        split <;> rfl
      constructor
      · intro same
        have stays := gapStays_of_same found (same rfl) changedFrame rfl duration
        have frameSame := (frameForNumber_eq_some.1 changedFrame).2
        rw [(same rfl).frames, atIndex, gapChange_eq_self found stays] at frameSame
        exact ⟨stays, Or.inr (flat_of_flattenFrame (Option.some.inj frameSame).symm)⟩
      · rintro ⟨stays, noData | flat⟩ -
        · have back := ungapped stays
          rw [gapChange_eq_self found stays, back.1, back.2, noData] at coalesced
          exact absurd coalesced (by simp)
        · have back := ungapped stays
          rw [gapChange_eq_self found stays, back.1, back.2] at coalesced
          have unchanged : change (self.img idx) = self.img idx := by
            show Image.modifyFrame _ _ _ = _
            rw [gapChange_eq_self found stays]
            exact modifyFrame_eq_self found _ (flattenFrame_flat libs flat coalesced)
          rw [unchanged]
          exact .refl _

/-! ### Adding a frame -/

theorem storeNewFrame_error {grown after : GraphicsManager} {idx slot : Nat} {frame : Frame}
    {ld : LoadData} {error : String}
    (fails : storeNewFrame answers grown idx slot frame ld = (after, .error error)) :
    after.diskCache = grown.diskCache ∧
      after.images = ((grown.images.modify idx fun img =>
        { img with extraFrames := img.extraFrames.set slot frame }).modify idx fun img =>
          { img with extraFrames := img.extraFrames.dropLast }) := by
  unfold storeNewFrame at fails
  dsimp only at fails
  split at fails
  · exact absurd (Prod.mk.inj fails).2 (by simp)
  · have afterEq := (Prod.mk.inj fails).1
    subst afterEq
    exact ⟨rfl, rfl⟩

/-- A new frame that is taken back leaves the frames there were. -/
theorem takenBack_same (img : Image) {slot frameIdCounter : Nat} (fresh frame : Frame)
    (last : slot = img.extraFrames.length) :
    img.SameAnimation { img with
      frameIdCounter := frameIdCounter
      extraFrames := ((img.extraFrames ++ [fresh]).set slot frame).dropLast } := by
  have extraEq : ((img.extraFrames ++ [fresh]).set slot frame).dropLast = img.extraFrames := by
    rw [last, List.set_append_right _ _ (Nat.le_refl _), Nat.sub_self, List.set_cons_zero,
      List.dropLast_concat]
  constructor
  · show img.rootFrame :: _ = img.rootFrame :: _
    rw [extraEq]
  · rfl

/-- A new frame that fails leaves the image as it was exactly when the data of what it is based on
could be drawn together. -/
theorem addNewFrame_failed {self after : GraphicsManager} (numbered : Numbered self)
    {g : GraphicsCommand} {idx slot : Nat} (inside : idx < self.images.length)
    {transmitted : Frame} {error : String} {id : Nat}
    (last : (self.img idx).internalId = id → slot = (self.img idx).extraFrames.length)
    (fails : addNewFrame libs answers self g idx slot transmitted = (after, .error error)) :
    ImageKept self after id ↔
      ((self.img idx).internalId = id → NewFrameFits libs answers self g idx slot) := by
  have takenBack {frame : Frame} {ld : LoadData}
      (stored : storeNewFrame answers (grownFrames answers self idx) idx slot frame ld =
        (after, .error error)) : ImageKept self after id := by
    obtain ⟨cache, images⟩ := storeNewFrame_error answers stored
    rw [grownFrames, GraphicsManager.modifyImg, List.modify_modify_eq,
      List.modify_modify_eq] at images
    apply (imageKept_modify_iff numbered inside _ rfl images cache id).2
    intro idEq
    exact takenBack_same _ _ _ (last idEq)
  unfold addNewFrame at fails
  dsimp only at fails
  by_cases alone : g.otherFrameNumber = 0
  · rw [if_pos alone] at fails
    constructor
    · intro _ idEq
      exact ⟨last idEq, fun other based => absurd alone based⟩
    · intro _
      exact takenBack fails
  · rw [if_neg alone] at fails
    split at fails
    · rename_i missing
      have afterEq := (Prod.mk.inj fails).1
      constructor
      · intro _ idEq
        refine ⟨last idEq, fun other _ found => ?_⟩
        exact absurd (missing.symm.trans found) (by simp)
      · intro _
        have cache : after.diskCache = self.diskCache := by
          rw [← afterEq]
          rfl
        have images : after.images = ((grownFrames answers self idx).modifyImg idx fun img =>
            { img with extraFrames := img.extraFrames.dropLast }).images := by
          rw [← afterEq]
          rfl
        rw [grownFrames, GraphicsManager.modifyImg, GraphicsManager.modifyImg,
          List.modify_modify_eq] at images
        apply (imageKept_modify_iff numbered inside _ rfl images cache id).2
        intro _
        constructor
        · show (self.img idx).rootFrame ::
              ((self.img idx).extraFrames ++ [answers.fresh]).dropLast =
            (self.img idx).rootFrame :: (self.img idx).extraFrames
          rw [List.dropLast_concat]
        · rfl
    · rename_i other found
      split at fails
      · rename_i unbased
        have afterEq := (Prod.mk.inj fails).1
        have cache : after.diskCache = self.diskCache := by
          rw [← afterEq]
          rfl
        have images : after.images = (grownFrames answers self idx).images := by
          rw [← afterEq]
          rfl
        rw [grownFrames, GraphicsManager.modifyImg] at images
        rw [imageKept_modify_iff numbered inside _ rfl images cache id]
        constructor
        · intro same idEq
          have frames : (self.img idx).rootFrame ::
                ((self.img idx).extraFrames ++ [answers.fresh]) =
              (self.img idx).rootFrame :: (self.img idx).extraFrames := (same idEq).frames
          have lengths := congrArg List.length frames
          simp only [List.length_cons, List.length_append, List.length_nil] at lengths
          omega
        · intro fits idEq
          unfold baseOn at unbased
          split at unbased
          · rename_i long
            have drawn := (fits idEq).based other alone found long.1 long.2
            rw [Option.isSome_iff_exists] at drawn
            obtain ⟨cfd, drawn⟩ := drawn
            have none : (getCoalescedFrameData libs.toBlending (grownFrames answers self idx)
                ((grownFrames answers self idx).img idx) other).bind _ = none := unbased
            rw [drawn] at none
            exact absurd none (by simp)
          · exact absurd unbased (by simp)
      · rename_i frame ld based
        constructor
        · intro _ idEq
          refine ⟨last idEq, fun other' _ found' rooted long => ?_⟩
          have same : other = other' := Option.some.inj (found.symm.trans found')
          subst same
          unfold baseOn at based
          rw [if_pos ⟨rooted, long⟩] at based
          obtain ⟨cfd, drawn, -⟩ := Option.bind_eq_some_iff.1 based
          rw [Option.isSome_iff_exists]
          exact ⟨cfd, drawn⟩
        · intro _
          exact takenBack fails

/-! ### A frame load that fails -/

/-- The image that is spared when images are trimmed stays. -/
theorem imageKept_removeImages {self : GraphicsManager} (numbered : Numbered self)
    (predicate : Image → Bool) (id : Nat) : ImageKept self (removeImages self predicate id) id := by
  have below (count : Nat) (manager : GraphicsManager) (numbered : Numbered manager) :
      ImageKept manager (removeImagesBelow
        (fun img => img.internalId ≠ id && predicate img) manager count) id := by
    induction count generalizing manager with
    | zero => exact .of_same rfl rfl id
    | succ i ih =>
      unfold removeImagesBelow
      split
      · rename_i doomed
        intro img mem idEq
        have other : (manager.img i).internalId ≠ id := by
          intro same
          rw [same] at doomed
          simp at doomed
        have memKept : img ∈ (removeImage manager i).images := by
          obtain ⟨j, insideJ, rfl⟩ := mem_img mem
          apply List.mem_eraseIdx_iff_getElem?.2
          refine ⟨j, fun same => other (same ▸ idEq), ?_⟩
          rw [img_eq insideJ]
          exact List.getElem?_eq_getElem insideJ
        obtain ⟨img', mem', idEq', same, data⟩ :=
          ih (removeImage manager i) (numbered_removeImage numbered i) img memKept idEq
        refine ⟨img', mem', idEq', same, fun f memF => (data f memF).trans ?_⟩
        exact readFromCache_removeImage manager i (fun h => other (h.symm.trans idEq))
      · exact ih manager numbered
  exact below self.images.length self numbered

/-- A change that, when its command fails, leaves the image as it was. -/
def FailsCleanly (id : Nat) : FrameChange → Prop
  | .addFrame self g idx slot =>
    (self.img idx).internalId = id → NewFrameFits libs answers self g idx slot
  | .editFrame self g idx frameNumber =>
    EditLeaves libs self g idx frameNumber (transmittedFrame self.currentlyLoading g).gap
  | _ => True

theorem numbered_tidy {self next : GraphicsManager} (numbered : Numbered self)
    (tidied : Tidy self next) : Numbered next := by
  have rules : ImageInvariant fun _ _ => True := ⟨fun _ _ => trivial, fun _ => trivial,
    fun _ _ _ => trivial⟩
  have holds : Holds (fun _ _ => True) self := ⟨numbered, fun _ _ => trivial⟩
  exact (holds.tidy rules tidied).numbered

theorem finishFrameLoad_failed {self after : GraphicsManager} (numbered : Numbered self)
    {g : GraphicsCommand} {idx frameNumber : Nat} {isNewFrame : Bool}
    (inside : idx < self.images.length)
    (last : isNewFrame → frameNumber = (self.img idx).extraFrames.length + 2) {error : String}
    (fails : finishFrameLoad libs answers self g idx frameNumber isNewFrame =
      some (after, .error error)) :
    ImageKept self after (self.img idx).internalId ↔
      ∀ c ∈ finishChanges answers self g idx frameNumber isNewFrame,
        FailsCleanly libs answers (self.img idx).internalId c := by
  unfold finishFrameLoad at fails
  unfold finishChanges
  dsimp only at fails ⊢
  cases checked : frameLoadError self.currentlyLoading g (self.img idx) with
  | some failure =>
    rw [checked] at fails
    have afterEq := (Prod.mk.inj (Option.some.inj fails)).1
    subst afterEq
    exact ⟨fun _ c mem => absurd mem (List.not_mem_nil), fun _ => .of_same rfl rfl _⟩
  | none =>
    rw [checked] at fails
    dsimp only at fails ⊢
    by_cases new : isNewFrame
    · rw [if_pos new] at fails ⊢
      have tidied : Tidy self
          (if cacheTooLarge self answers.cacheSize self.currentlyLoading.dataSz then
            removeImages self trimPredicate (self.img idx).internalId else self) := by
        split
        · exact removeImages_tidy self _ _
        · exact .refl self
      have kept : ImageKept self
          (if cacheTooLarge self answers.cacheSize self.currentlyLoading.dataSz then
            removeImages self trimPredicate (self.img idx).internalId else self)
          (self.img idx).internalId := by
        split
        · exact imageKept_removeImages numbered _ _
        · exact .of_same rfl rfl _
      generalize (if cacheTooLarge self answers.cacheSize self.currentlyLoading.dataSz then
        removeImages self trimPredicate (self.img idx).internalId else self) = manager
        at fails tidied kept ⊢
      have managerNumbered := numbered_tidy numbered tidied
      by_cases full : cacheTooLarge self answers.cacheSize self.currentlyLoading.dataSz = true ∧
          cacheTooLarge manager answers.cacheSizeTrimmed self.currentlyLoading.dataSz = true
      · rw [if_pos full] at fails ⊢
        have afterEq := (Prod.mk.inj (Option.some.inj fails)).1
        subst afterEq
        exact ⟨fun _ c mem => absurd mem (List.not_mem_nil), fun _ => kept⟩
      · rw [if_neg full] at fails ⊢
        by_cases outside : manager.images.length ≤ idx ∨
            (manager.img idx).extraFrames.length < frameNumber - 2
        · exact nomatch (if_pos outside).symm.trans fails
        · have added := Option.some.inj ((if_neg outside).symm.trans fails)
          have insideManager : idx < manager.images.length := by
            omega
          have there : ∃ img ∈ self.images, img.internalId = (self.img idx).internalId :=
            ⟨_, img_mem inside, rfl⟩
          have atEnd : (manager.img idx).internalId = (self.img idx).internalId →
              frameNumber - 2 = (manager.img idx).extraFrames.length := by
            intro idEq
            obtain ⟨img', mem', idEq', same, -⟩ := kept _ (img_mem inside) rfl
            have here : manager.img idx = img' :=
              managerNumbered.eq_of_id (img_mem insideManager) mem' (idEq.trans idEq'.symm)
            have lengths := congrArg List.length same.frames
            rw [← here] at lengths
            simp only [Image.frames, List.length_cons] at lengths
            have newNumber := last new
            omega
          rw [kept.iff_of_left managerNumbered there,
            addNewFrame_failed libs answers managerNumbered insideManager atEnd added]
          constructor
          · intro fits c mem
            rw [List.mem_singleton.1 mem]
            exact fits
          · intro clean
            exact clean _ (List.mem_singleton.2 rfl)
    · rw [if_neg new] at fails ⊢
      rw [editFrame_failed libs answers numbered inside (Option.some.inj fails)]
      constructor
      · intro leaves c mem
        rw [List.mem_singleton.1 mem]
        exact leaves
      · intro clean
        exact clean _ (List.mem_singleton.2 rfl)

theorem numbered_load {self : GraphicsManager} (numbered : Numbered self) (ld : LoadData) :
    Numbered { self with currentlyLoading := ld } :=
  ⟨numbered.1, numbered.2, numbered.3, numbered.4, numbered.5⟩

theorem frameLoadPayload_failed {self after : GraphicsManager} (numbered : Numbered self)
    {ld : LoadData} {g : GraphicsCommand} {tt : Char} {fmt : Nat} {payload : Bytes}
    {idx frameNumber : Nat} {isNewFrame : Bool} (inside : idx < self.images.length)
    (last : isNewFrame → frameNumber = (self.img idx).extraFrames.length + 2) {error : String}
    (fails : frameLoadPayload libs answers { self with currentlyLoading := ld } g tt fmt payload idx
      frameNumber isNewFrame = some (after, .error error)) :
    ImageKept self after (self.img idx).internalId ↔
      ∀ c ∈ frameLoadChanges libs answers self ld g tt fmt payload idx frameNumber isNewFrame,
        FailsCleanly libs answers (self.img idx).internalId c := by
  have untouched {manager : GraphicsManager} (images : manager.images = self.images)
      (cache : manager.diskCache = self.diskCache) :
      ImageKept self manager (self.img idx).internalId ↔
        ∀ c ∈ ([] : List FrameChange), FailsCleanly libs answers (self.img idx).internalId c :=
    ⟨fun _ c mem => absurd mem (List.not_mem_nil), fun _ => .of_same images cache _⟩
  unfold frameLoadPayload at fails
  unfold frameLoadChanges receiveData
  dsimp only at fails ⊢
  cases loadEq : loadImageData answers ld g tt fmt payload with
  | mk loaded failure =>
    rw [loadEq] at fails
    cases failure with
    | some failure =>
      have afterEq := (Prod.mk.inj (Option.some.inj fails)).1
      subst afterEq
      exact untouched rfl rfl
    | none =>
      dsimp only at fails ⊢
      by_cases complete : loaded.loadingCompletedSuccessfully
      · rw [if_pos complete] at fails ⊢
        cases processEq : processImageData libs.toDecoders
            { loaded with loadingFor := {} } g tt fmt with
        | mk processed failure =>
          rw [processEq] at fails
          cases failure with
          | some failure =>
            have afterEq := (Prod.mk.inj (Option.some.inj fails)).1
            subst afterEq
            exact untouched rfl rfl
          | none =>
            dsimp only at fails ⊢
            by_cases done : processed.loadingCompletedSuccessfully
            · rw [if_pos done] at fails ⊢
              exact finishFrameLoad_failed libs answers (numbered_load numbered processed)
                inside last fails
            · rw [if_neg done] at fails
              exact absurd (Prod.mk.inj (Option.some.inj fails)).2 (by simp)
      · rw [if_neg complete] at fails
        exact absurd (Prod.mk.inj (Option.some.inj fails)).2 (by simp)

/-- A failing command leaves the image as it was exactly when the change it stopped at is one that
fails cleanly. -/
theorem frameLoad_failed {self after : GraphicsManager} (numbered : Numbered self)
    {g : GraphicsCommand} {payload : Bytes} {idx : Nat} (inside : idx < self.images.length)
    {error : String}
    (fails : handleAnimationFrameLoadCommand libs answers self g payload idx =
      some (after, .error error)) :
    ImageKept self after (self.img idx).internalId ↔
      ∀ c ∈ animationFrameChanges libs answers self g payload idx,
        FailsCleanly libs answers (self.img idx).internalId c := by
  have untouched {manager : GraphicsManager} (images : manager.images = self.images)
      (cache : manager.diskCache = self.diskCache) :
      ImageKept self manager (self.img idx).internalId ↔
        ∀ c ∈ ([] : List FrameChange), FailsCleanly libs answers (self.img idx).internalId c :=
    ⟨fun _ c mem => absurd mem (List.not_mem_nil), fun _ => .of_same images cache _⟩
  have last : decide (frameNumberOf (self.img idx) g = (self.img idx).extraFrames.length + 2) →
      frameNumberOf (self.img idx) g = (self.img idx).extraFrames.length + 2 := of_decide_eq_true
  unfold handleAnimationFrameLoadCommand at fails
  unfold animationFrameChanges
  dsimp only at fails ⊢
  split at fails
  · rename_i continued
    rw [if_pos continued]
    exact frameLoadPayload_failed libs answers numbered inside last fails
  · rename_i continued
    rw [if_neg continued]
    by_cases large : maxImageDimension < g.dataWidth ∨ maxImageDimension < g.dataHeight
    · rw [if_pos large] at fails ⊢
      have afterEq := (Prod.mk.inj (Option.some.inj fails)).1
      subst afterEq
      exact untouched rfl rfl
    · rw [if_neg large] at fails ⊢
      let declared := { g with numLines := frameNumberOf (self.img idx) g }
      cases start : initializeLoadData declared (self.img idx).internalId
        (transmissionTypeOf declared) (formatOf declared) (frameNumberOf (self.img idx) g - 1) with
      | mk ld failure =>
        rw [start] at fails
        cases failure with
        | some message =>
          have afterEq := (Prod.mk.inj (Option.some.inj fails)).1
          subst afterEq
          exact untouched rfl rfl
        | none => exact frameLoadPayload_failed libs answers numbered inside last fails

/-! ### Transmissions in chunks -/

section Idle

variable {libs answers}

theorem storeNewFrame_idle {self : GraphicsManager} {idx slot : Nat} {frame : Frame} {ld : LoadData}
    (idle : ld.loadingFor = {}) :
    (storeNewFrame answers self idx slot frame ld).1.currentlyLoading.loadingFor = {} := by
  unfold storeNewFrame
  dsimp only
  split
  · exact idle
  · rfl

theorem addNewFrame_idle {self : GraphicsManager} {g : GraphicsCommand} {idx slot : Nat}
    {transmitted : Frame} (idle : self.currentlyLoading.loadingFor = {}) :
    (addNewFrame libs answers self g idx slot transmitted).1.currentlyLoading.loadingFor = {} := by
  unfold addNewFrame
  dsimp only
  split
  · exact storeNewFrame_idle idle
  · split
    · rfl
    · split
      · rfl
      · rename_i based
        unfold baseOn at based
        split at based
        · obtain ⟨cfd, -, based⟩ := Option.bind_eq_some_iff.1 based
          exact storeNewFrame_idle ((Prod.mk.inj (Option.some.inj based)).2 ▸ rfl)
        · exact storeNewFrame_idle ((Prod.mk.inj (Option.some.inj based)).2 ▸ idle)

theorem editFrame_idle {self : GraphicsManager} {g : GraphicsCommand} {idx frameNumber : Nat}
    {transmitted : Frame} (idle : self.currentlyLoading.loadingFor = {}) :
    (editFrame libs answers self g idx frameNumber transmitted).1.currentlyLoading.loadingFor =
      {} := by
  unfold editFrame
  dsimp only
  split
  · rfl
  · generalize gappedEq : (self.modifyImg idx fun img =>
      if g.gap ≠ 0 then changeGap img frameNumber transmitted.gap else img) = gapped
    have same : gapped.currentlyLoading = self.currentlyLoading := gappedEq ▸ rfl
    split
    · rfl
    · split
      · split
        · exact (congrArg LoadData.loadingFor same).trans idle
        · exact (congrArg LoadData.loadingFor same).trans idle
      · rfl

/-- Nothing is under way any more when the data of a frame was dealt with. -/
theorem finishFrameLoad_idle {self : GraphicsManager} {g : GraphicsCommand} {idx frameNumber : Nat}
    {isNewFrame : Bool} {result : GraphicsManager × Handled}
    (idle : self.currentlyLoading.loadingFor = {})
    (h : finishFrameLoad libs answers self g idx frameNumber isNewFrame = some result) :
    result.1.currentlyLoading.loadingFor = {} := by
  unfold finishFrameLoad at h
  dsimp only at h
  split at h
  · rw [← Option.some.inj h]
    rfl
  · split at h
    · have same : (if cacheTooLarge self answers.cacheSize self.currentlyLoading.dataSz then
          removeImages self trimPredicate (self.img idx).internalId
          else self).currentlyLoading = self.currentlyLoading := by
        split
        · exact (removeImages_tidy self _ _).loading
        · rfl
      generalize (if cacheTooLarge self answers.cacheSize self.currentlyLoading.dataSz then
        removeImages self trimPredicate (self.img idx).internalId else self) = manager at h same
      split at h
      · rw [← Option.some.inj h]
        rfl
      · split at h
        · exact nomatch h
        · rw [← Option.some.inj h]
          apply addNewFrame_idle
          rw [same]
          exact idle
    · rw [← Option.some.inj h]
      exact editFrame_idle idle

/-- While a transmission is under way only the load data changes. -/
theorem frameLoadPayload_unfinished {self next : GraphicsManager} {ld : LoadData}
    {g : GraphicsCommand} {tt : Char} {fmt : Nat} {payload : Bytes} {idx frameNumber : Nat}
    {isNewFrame : Bool} {image : Option Nat}
    (h : frameLoadPayload libs answers { self with currentlyLoading := ld } g tt fmt payload idx
      frameNumber isNewFrame = some (next, .ok image))
    (underWay : next.currentlyLoading.loadingFor.imageId ≠ 0) :
    ∃ ld', next = { self with currentlyLoading := ld' } := by
  unfold frameLoadPayload at h
  dsimp only at h
  split at h
  · exact absurd (Prod.mk.inj (Option.some.inj h)).2 (by simp)
  · rename_i loaded loadEq
    split at h
    · have idle := @processImageData_idle libs.toDecoders { loaded with loadingFor := {} } g tt fmt
        rfl
      split at h
      · exact absurd (Prod.mk.inj (Option.some.inj h)).2 (by simp)
      · rename_i processed processEq
        rw [processEq] at idle
        split at h
        · have done := finishFrameLoad_idle idle h
          exact absurd (congrArg ImageAndFrame.imageId done) underWay
        · exact ⟨processed, (Prod.mk.inj (Option.some.inj h)).1.symm⟩
    · exact ⟨loaded, (Prod.mk.inj (Option.some.inj h)).1.symm⟩

theorem frameLoad_unfinished {self next : GraphicsManager} {g : GraphicsCommand} {payload : Bytes}
    {idx : Nat} {image : Option Nat}
    (h : handleAnimationFrameLoadCommand libs answers self g payload idx = some (next, .ok image))
    (underWay : next.currentlyLoading.loadingFor.imageId ≠ 0) :
    ∃ ld, next = { self with currentlyLoading := ld } := by
  unfold handleAnimationFrameLoadCommand at h
  dsimp only at h
  split at h
  · exact frameLoadPayload_unfinished h underWay
  · split at h
    · exact absurd (Prod.mk.inj (Option.some.inj h)).2 (by simp)
    · split at h
      · exact absurd (Prod.mk.inj (Option.some.inj h)).2 (by simp)
      · exact frameLoadPayload_unfinished h underWay

end Idle

/-- A frame load command, its payload, and what the system answers while it is handled. -/
structure FrameChunk where
  g : GraphicsCommand
  payload : Bytes
  answers : Answers
  loadsFrame : Char.ofUInt8 g.action = 'f'

/-- The chunks of a transmission come in, none is answered with an error, and the transmission is
still under way. -/
def Receives : GraphicsManager → List FrameChunk → GraphicsManager → Prop
  | self, [], mid => mid = self
  | self, chunk :: rest, mid => ∃ next,
      handleAnimation libs chunk.answers self chunk.g chunk.payload = some (next, none) ∧
        next.currentlyLoading.loadingFor.imageId ≠ 0 ∧ Receives next rest mid

/-- The image a frame load is about. -/
def imageLoadedFor (self : GraphicsManager) (g : GraphicsCommand) : Option Nat :=
  if self.currentlyLoading.loadingFor.imageId ≠ 0 then
    imgByInternalId self self.currentlyLoading.loadingFor.imageId
  else imageReferredTo self g

variable {libs}

theorem dropIdleLoad_load (self : GraphicsManager) :
    ∃ ld, dropIdleLoad self = { self with currentlyLoading := ld } := by
  unfold dropIdleLoad
  split
  · exact ⟨_, rfl⟩
  · exact ⟨_, rfl⟩

/-- One chunk. -/
theorem receiveChunk_loads {self next : GraphicsManager} {chunk : FrameChunk}
    (h : handleAnimation libs chunk.answers self chunk.g chunk.payload = some (next, none))
    (underWay : next.currentlyLoading.loadingFor.imageId ≠ 0) :
    ∃ ld, next = { self with currentlyLoading := ld } := by
  unfold handleAnimation at h
  dsimp only at h
  split at h
  · exact ⟨_, (Prod.mk.inj (Option.some.inj h)).1.symm⟩
  · split at h
    · exact absurd (Prod.mk.inj (Option.some.inj h)).2 (by simp)
    · rw [if_pos chunk.loadsFrame] at h
      obtain ⟨⟨loaded, result⟩, loadEq, h⟩ := Option.bind_eq_some_iff.1 h
      obtain ⟨nextEq, noError⟩ := Prod.mk.inj (Option.some.inj h)
      have loading : loaded.currentlyLoading.loadingFor.imageId ≠ 0 := by
        intro idle
        rw [← nextEq, dropIdleLoad, if_pos idle] at underWay
        exact underWay rfl
      have nextSame : next = loaded := by
        rw [← nextEq, dropIdleLoad, if_neg loading]
      cases result with
      | error error => exact absurd noError (by simp [errorOf])
      | ok image =>
        rw [nextSame]
        exact frameLoad_unfinished loadEq loading

theorem receives_loads {self mid : GraphicsManager} {chunks : List FrameChunk}
    (received : Receives libs self chunks mid) :
    ∃ ld, mid = { self with currentlyLoading := ld } := by
  induction chunks generalizing self with
  | nil => exact ⟨_, received⟩
  | cons chunk rest ih =>
    obtain ⟨next, handled, underWay, received⟩ := received
    obtain ⟨ld, nextEq⟩ := receiveChunk_loads handled underWay
    obtain ⟨ld', midEq⟩ := ih received
    exact ⟨ld', by rw [midEq, nextEq]⟩

/-! ### Every run -/

theorem numbered_modifyImg {self : GraphicsManager} (numbered : Numbered self) (idx : Nat)
    {change : Image → Image} (keepsId : ∀ img, (change img).internalId = img.internalId) :
    Numbered (self.modifyImg idx change) := by
  have ids : (self.images.modify idx change).map Image.internalId =
      self.images.map Image.internalId := by
    apply List.ext_getElem?
    intro j
    rw [List.getElem?_map, List.getElem?_map]
    by_cases equal : idx = j
    · subst equal
      rw [List.getElem?_modify_eq]
      cases self.images[idx]? with
      | none => rfl
      | some img => exact congrArg some (keepsId img)
    · rw [List.getElem?_modify_ne _ _ equal]
  exact numbered_of_ids numbered ids rfl numbered.cached

theorem numbered_addToCache {self : GraphicsManager} (numbered : Numbered self) {idx : Nat}
    (inside : idx < self.images.length) (frameId : Nat) (data : Bytes) :
    Numbered
      (addToCache self { imageId := (self.img idx).internalId, frameId := frameId } data) := by
  have cached : ∀ x : ImageAndFrame, self.internalIdCounter ≤ x.imageId →
      readFromCache (addToCache self { imageId := (self.img idx).internalId, frameId := frameId }
        data) x = none := by
    intro x outside
    have given := numbered.given _ (img_mem inside)
    rw [readFromCache_addToCache_other]
    · exact numbered.cached x outside
    · show x.imageId ≠ (self.img idx).internalId
      omega
  exact numbered_of_ids numbered rfl rfl cached

theorem numbered_tidyLoad {self next : GraphicsManager} (tidied : TidyLoad self next)
    (numbered : Numbered self) : Numbered next := by
  obtain ⟨ld, tidied⟩ := tidied
  exact numbered_tidy (numbered_load numbered ld) tidied

theorem numbered_addNewFrame {self : GraphicsManager} (numbered : Numbered self)
    {g : GraphicsCommand} {idx slot : Nat} (inside : idx < self.images.length)
    (transmitted : Frame) :
    Numbered (addNewFrame libs answers self g idx slot transmitted).1 := by
  obtain ⟨grown, frameId, grownEq, -, outcome⟩ := @addNewFrame_cases libs answers self g idx slot
    transmitted
  have grownNumbered : Numbered grown := by
    rw [grownEq]
    exact numbered_modifyImg numbered idx fun _ => rfl
  rcases outcome with tidied | ⟨-, -, -, tidied⟩ | ⟨frame, ld, -, tidied⟩
  · exact numbered_tidyLoad tidied (numbered_modifyImg grownNumbered idx fun _ => rfl)
  · exact numbered_tidyLoad tidied grownNumbered
  · apply numbered_tidyLoad tidied
    have placed : Numbered (grown.modifyImg idx fun img =>
        { img with extraFrames := img.extraFrames.set slot frame }) :=
      numbered_modifyImg grownNumbered idx fun _ => rfl
    have insideGrown : idx < grown.images.length := by
      rw [grownEq]
      show idx < (self.images.modify idx _).length
      rw [List.length_modify]
      exact inside
    split
    · have insidePlaced : idx < (grown.modifyImg idx fun img =>
          { img with extraFrames := img.extraFrames.set slot frame }).images.length := by
        show idx < (grown.images.modify idx _).length
        rw [List.length_modify]
        exact insideGrown
      have stored := numbered_addToCache placed insidePlaced frame.id ld.frameData
      rw [img_modifyImg insideGrown] at stored
      exact numbered_modifyImg stored idx fun _ => rfl
    · exact numbered_modifyImg placed idx fun _ => rfl

/-- Nothing but the internal ids, for every change other than a new frame. -/
theorem idRules (libs : GraphicsLibraries) (answers : Answers) : FrameRules libs answers
    (fun c => ∀ self g idx slot, c ≠ .addFrame self g idx slot) fun _ _ => True where
  keeps _ _ := trivial
  blank _ := trivial
  changeGap _ _ _ := trivial
  storage _ _ := trivial
  replaceRoot _ _ _ _ _ := trivial
  countFrame _ _ := trivial
  addFrame _ _ _ _ _ := trivial
  editFrame _ _ _ _ _ _ := trivial
  deleteFrame _ _ _ _ := trivial
  compose _ _ _ _ _ := trivial

/-- In every run images have ids of their own. -/
theorem numbered_visited {storageLimit takenIds : Nat} {inputs : List (GraphicsStep × Answers)}
    {self : GraphicsManager}
    (visited : Visits (GraphicsManager.step libs) (grmanAlloc storageLimit takenIds) inputs self) :
    Numbered self := by
  have change (manager : GraphicsManager) (input : GraphicsStep × Answers) (_ : True)
      (c : FrameChange) (_ : c ∈ stepChanges libs manager input)
      (inside : c.idx < c.before.images.length) (sound : c.Sound libs)
      (h : Holds (fun _ _ => True) c.before) :
      Holds (fun _ _ => True) (c.after libs input.2) := by
    have other (allowed : ∀ self g idx slot, c ≠ .addFrame self g idx slot) :
        Holds (fun _ _ => True) (c.after libs input.2) :=
      (idRules libs input.2).change (fun self g idx slot ne => absurd rfl (ne self g idx slot))
        allowed inside sound h
    cases c with
    | addFrame before g idx slot =>
      exact ⟨numbered_addNewFrame input.2 h.numbered inside _, fun _ _ => trivial⟩
    | startOver => exact other fun _ _ _ _ same => nomatch same
    | replaceRoot => exact other fun _ _ _ _ same => nomatch same
    | editFrame => exact other fun _ _ _ _ same => nomatch same
    | deleteFrame => exact other fun _ _ _ _ same => nomatch same
    | compose => exact other fun _ _ _ _ same => nomatch same
  have holds : Holds (fun _ _ => True) self :=
    (idRules libs {}).toImageInvariant.run libs (fun _ _ => True) change (fun _ _ _ => trivial)
      visited
  exact holds.numbered

theorem imageLoadedFor_inside {self : GraphicsManager} {g : GraphicsCommand} {idx : Nat}
    (target : imageLoadedFor self g = some idx) : idx < self.images.length := by
  unfold imageLoadedFor at target
  split at target
  · exact (imgByInternalId_inside target).1
  · exact imageReferredTo_inside target

/-- A frame load command that is answered with an error. -/
theorem handleAnimation_failed {self after : GraphicsManager} (numbered : Numbered self)
    {g : GraphicsCommand} {payload : Bytes} (action : Char.ofUInt8 g.action = 'f') {error : String}
    (fails : handleAnimation libs answers self g payload = some (after, some error)) {idx : Nat}
    (target : imageLoadedFor self g = some idx) :
    ImageKept self after (self.img idx).internalId ↔
      ∀ c ∈ animationChanges libs answers self g payload,
        FailsCleanly libs answers (self.img idx).internalId c := by
  have inside := imageLoadedFor_inside target
  unfold imageLoadedFor at target
  unfold handleAnimation at fails
  unfold animationChanges
  dsimp only at fails ⊢
  split at fails
  · exact absurd (Prod.mk.inj (Option.some.inj fails)).2 (by simp)
  · rename_i named
    rw [target] at fails
    rw [if_neg named, target]
    dsimp only at fails ⊢
    obtain ⟨⟨loaded, result⟩, loadEq, fails⟩ := Option.bind_eq_some_iff.1 fails
    obtain ⟨afterEq, errorEq⟩ := Prod.mk.inj (Option.some.inj fails)
    cases result with
    | ok image => exact absurd errorEq (by simp [errorOf])
    | error failure =>
      obtain ⟨ld, dropped⟩ := dropIdleLoad_load loaded
      rw [← frameLoad_failed libs answers numbered inside loadEq, ← afterEq, dropped]
      rfl

/-- A failing frame load changes nothing: in every run, when the chunks of a frame have come in and
the last command is answered with an error, the image has the frames, the duration and the frame
data it had before the first of them, exactly when the change the command stopped at is one that
fails cleanly. -/
theorem failedFrameLoad_iff (libs : GraphicsLibraries) (storageLimit takenIds : Nat)
    (inputs : List (GraphicsStep × Answers)) (self : GraphicsManager)
    (visited : Visits (GraphicsManager.step libs) (grmanAlloc storageLimit takenIds) inputs self)
    (chunks : List FrameChunk) (mid : GraphicsManager) (received : Receives libs self chunks mid)
    (last : FrameChunk) (after : GraphicsManager) (error : String)
    (fails : handleAnimation libs last.answers mid last.g last.payload = some (after, some error))
    (idx : Nat) (target : imageLoadedFor mid last.g = some idx) :
    ImageKept self after (mid.img idx).internalId ↔
      ∀ c ∈ animationChanges libs last.answers mid last.g last.payload,
        FailsCleanly libs last.answers (mid.img idx).internalId c := by
  obtain ⟨ld, midEq⟩ := receives_loads received
  have numbered : Numbered mid := by
    rw [midEq]
    exact numbered_load (numbered_visited visited) ld
  rw [← handleAnimation_failed last.answers numbered last.loadsFrame fails target, midEq]
  rfl

/-- One pixel for a frame that is to be based on the ninth frame. -/
def unknownBase : FrameChunk where
  g := { action := 'f'.toUInt8, id := 1, numCells := 9, format := 24, dataWidth := 1
         dataHeight := 1 }
  payload := [1, 2, 3]
  answers := {}
  loadsFrame := by decide

/-- There is no ninth frame, and the image stays as it is. -/
theorem failedFrameLoad_iff_unknownBase :
    ∃ self after error, Visits (GraphicsManager.step plainLibraries) (grmanAlloc 1000 0)
        [pixelStep { action := 't'.toUInt8, id := 1 }] self ∧
      handleAnimation plainLibraries unknownBase.answers self unknownBase.g unknownBase.payload =
        some (after, some error) ∧ ImageKept self after 1 := by
  refine ⟨_, _, _, ⟨_, List.prefix_rfl, rfl⟩, rfl, ?_⟩
  apply (failedFrameLoad_iff plainLibraries 1000 0 [pixelStep { action := 't'.toUInt8, id := 1 }] _
    ⟨_, List.prefix_rfl, rfl⟩ [] _ rfl unknownBase _ _ rfl 0 rfl).2
  intro c mem
  obtain rfl := List.mem_singleton.1 mem
  intro _
  exact ⟨rfl, fun other _ found => nomatch found⟩

/-- One pixel for the first frame, and a gap. -/
def editWithGap : FrameChunk where
  g := { action := 'f'.toUInt8, id := 1, numLines := 1, zIndex := 100, format := 24, dataWidth := 1
         dataHeight := 1 }
  payload := [1, 2, 3]
  answers := {}
  loadsFrame := by decide

/-- The first frame cannot be drawn, because the frame it is based on was deleted: the edit fails,
and the gap stays. -/
theorem failedFrameLoad_gap :
    ∃ self after error, Visits (GraphicsManager.step plainLibraries) (grmanAlloc 1000 0) baseDeleted
        self ∧
      handleAnimation plainLibraries editWithGap.answers self editWithGap.g editWithGap.payload =
        some (after, some error) ∧ ¬ ImageKept self after 1 := by
  refine ⟨_, _, _, ⟨_, List.prefix_rfl, rfl⟩, rfl, ?_⟩
  intro kept
  obtain ⟨img', mem, -, same, -⟩ := kept _ (List.mem_cons_self ..) rfl
  obtain rfl := List.mem_singleton.1 mem
  exact absurd same.animationDuration (by decide)

end Smelly
