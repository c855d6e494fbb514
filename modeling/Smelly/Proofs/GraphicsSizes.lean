/-
Module: Smelly.Proofs.GraphicsSizes
Purpose: The data cached for a frame has the size its dimensions and its opacity ask for, in every
  run whose compositions keep the opacity of their destination and whose failures to store
  data leave no other dimensions behind.
Trusted boundary: none
-/
import Smelly.Proofs.GraphicsDurations
import Smelly.Proofs.GraphicsFrameIds

namespace Smelly

open Run

/-- The size of the data of a frame. -/
def Frame.dataSize (f : Frame) : Nat := pixelSize f.isOpaque * f.width * f.height

/-- All frames that have data have as much as they ask for. -/
def SizesAgree (data : Nat → Option Bytes) (img : Image) : Prop :=
  ∀ f ∈ img.frames, ∀ bytes, data f.id = some bytes → bytes.length = f.dataSize

/-- A frame of a list that was changed at one index is the changed frame or has another id. -/
theorem mem_modify_cases {frames : List Frame} (distinct : (frames.map Frame.id).Nodup) {i : Nat}
    {f f' : Frame} (found : frames[i]? = some f) (change : Frame → Frame)
    (mem : f' ∈ frames.modify i change) : f' = change f ∨ (f' ∈ frames ∧ f'.id ≠ f.id) := by
  rw [modify_eq_map distinct found] at mem
  obtain ⟨old, memOld, rfl⟩ := List.mem_map.1 mem
  split
  · rename_i same
    obtain ⟨j, foundJ⟩ := List.mem_iff_getElem?.1 memOld
    obtain rfl := frame_index_eq distinct found foundJ same.symm
    exact .inl (congrArg change (Option.some.inj (foundJ.symm.trans found)))
  · rename_i other
    exact .inr ⟨memOld, other⟩

/-- A change to one frame and its data. -/
theorem sizes_modify {data data' : Nat → Option Bytes} {img : Image} {frameNumber : Nat} {f : Frame}
    (distinct : (img.frames.map Frame.id).Nodup) (sizes : SizesAgree data img)
    (found : frameForNumber img frameNumber = some f) {change : Frame → Frame}
    (keepsId : (change f).id = f.id)
    (here : ∀ bytes, data' f.id = some bytes → bytes.length = (change f).dataSize)
    (others : ∀ id, id ≠ f.id → data' id = data id) :
    SizesAgree data' (img.modifyFrame frameNumber change) := by
  obtain ⟨positive, atIndex⟩ := frameForNumber_eq_some.1 found
  intro f' mem bytes cached
  rw [modifyFrame_frames img positive] at mem
  rcases mem_modify_cases distinct atIndex change mem with rfl | ⟨memOld, other⟩
  · exact here bytes (keepsId ▸ cached)
  · exact sizes f' memOld bytes (others f'.id other ▸ cached)

/-- Compositions keep the opacity of their destination, and where data is not stored the frame asks
for as much as before. -/
def KeepsSizes (libs : GraphicsLibraries) (answers : Answers) : FrameChange → Prop
  | .editFrame self g idx frameNumber =>
    answers.cacheAccepts ∨
      ∀ gapped f cfd,
        gapped = gapEdited self g idx frameNumber (transmittedFrame self.currentlyLoading g).gap →
        frameForNumber (gapped.img idx) frameNumber = some f →
        getCoalescedFrameData libs.toBlending gapped (gapped.img idx) f = some cfd →
        (flattenFrame (gapped.img idx) cfd f).dataSize = f.dataSize
  | .compose self g idx _ _ destData =>
    ∀ dest, frameForNumber (self.img idx) g.otherFrameNumber = some dest →
      (composedFrame (self.img idx) dest).dataSize =
        if answers.cacheAccepts then
          pixelSize destData.isOpaque * (self.img idx).width * (self.img idx).height
        else dest.dataSize
  | c => CountsFrames libs answers c

/-- The PNG reader delivers four bytes for each pixel. -/
def DeliversRgba (decoders : Decoders) : Prop :=
  ∀ input image, decoders.inflatePng input = .ok image →
    image.decompressed.length = 4 * image.width * image.height

theorem requiredSz_of_sized {decoders : Decoders} (rgba : DeliversRgba decoders) {ld : LoadData}
    (sized : ld.Sized decoders) : ld.dataSz = ld.requiredSz := by
  rcases sized with size | ⟨translucent, input, image, decoded, size, width, height⟩
  · exact size
  · rw [size, rgba input image decoded, LoadData.requiredSz, translucent, width, height]
    rfl

theorem frameData_length (ld : LoadData) : ld.frameData.length = ld.dataSz := bytesFrom_length _ _

theorem makesFrame_size {libs : GraphicsLibraries} {answers : Answers} {self : GraphicsManager}
    {g : GraphicsCommand} {idx : Nat} {frame : Frame} {ld : LoadData}
    (rgba : DeliversRgba libs.toDecoders) (sized : self.currentlyLoading.Sized libs.toDecoders)
    (made : MakesFrame libs answers self g idx frame ld) :
    ld.frameData.length = frame.dataSize := by
  rw [frameData_length]
  rcases made with ⟨-, rfl, rfl⟩ | ⟨other, -, based⟩
  · exact requiredSz_of_sized rgba sized
  · unfold baseOn at based
    split at based
    · obtain ⟨cfd, -, based⟩ := Option.bind_eq_some_iff.1 based
      obtain ⟨rfl, rfl⟩ := Prod.mk.inj (Option.some.inj based)
      unfold Frame.dataSize
      dsimp only
      rw [Nat.mul_comm, Nat.mul_assoc]
    · obtain ⟨rfl, rfl⟩ := Prod.mk.inj (Option.some.inj based)
      exact requiredSz_of_sized rgba sized

theorem changeGap_sizes {data : Nat → Option Bytes} {img : Image} {frameNumber : Nat} {f : Frame}
    (gap : Int) (found : frameForNumber img frameNumber = some f)
    (distinct : (img.frames.map Frame.id).Nodup) (sizes : SizesAgree data img) :
    SizesAgree data (changeGap img frameNumber gap) :=
  sizes_modify distinct sizes found rfl (sizes f (mem_of_frameForNumber found)) fun _ _ => rfl

theorem sizeRules (libs : GraphicsLibraries) (answers : Answers)
    (rgba : DeliversRgba libs.toDecoders) :
    FrameRules libs answers (KeepsSizes libs answers)
      fun data img => Identified data img ∧ SizesAgree data img where
  keeps := by
    intro data img after kept h
    refine ⟨(identifiedRules libs answers).keeps kept h.1, ?_⟩
    unfold SizesAgree Image.frames
    rw [kept.rootFrame, kept.extraFrames]
    exact h.2
  blank := fun blank =>
    ⟨(identifiedRules libs answers).blank blank, fun _ _ _ cached => by cases cached⟩
  changeGap := fun gap found h => ⟨(identifiedRules libs answers).changeGap gap found h.1,
    changeGap_sizes gap found h.1.distinct h.2⟩
  storage := fun used h => ⟨(identifiedRules libs answers).storage used h.1, h.2⟩
  replaceRoot := by
    intro self idx data frameId ok size frameIdEq dataEq h
    refine ⟨(identifiedRules libs answers).replaceRoot ok size frameIdEq dataEq h.1, ?_⟩
    rw [u32_succ ok] at frameIdEq
    have older (id : Nat) (bytes : Bytes) (cached : data id = some bytes) :
        self.frameData (self.img idx) id = some bytes := by
      rw [dataEq] at cached
      split at cached
      · unfold forgetData at cached
        split at cached
        · cases cached
        · exact cached
      · exact cached
    intro f mem bytes cached
    rcases List.mem_cons.1 mem with rfl | mem
    · have cached : (if answers.cacheAccepts then
          setData data frameId self.currentlyLoading.frameData else data) frameId = some bytes :=
        cached
      split at cached
      · rw [setData, if_pos rfl] at cached
        rw [← Option.some.inj cached, frameData_length]
        exact size
      · have missing := h.1.cached frameId (by omega)
        rw [older _ _ cached] at missing
        cases missing
    · have memOld : f ∈ (self.img idx).frames := List.mem_cons_of_mem _ mem
      have given := h.1.given f memOld
      split at cached
      · rw [setData, if_neg (by omega)] at cached
        exact h.2 f memOld bytes (older _ _ cached)
      · exact h.2 f memOld bytes (older _ _ cached)
  countFrame := fun ok h => ⟨(identifiedRules libs answers).countFrame ok h.1, h.2⟩
  addFrame := by
    intro self g idx slot frame ld inside ok sized made h
    refine ⟨(identifiedRules libs answers).addFrame inside ok sized made h.1, ?_⟩
    have idEq := makesFrame_id made
    rw [u32_succ ok.1] at idEq
    intro f mem bytes cached
    rcases List.mem_append.1 (show f ∈ (self.img idx).frames ++ [frame] from mem) with mem | mem
    · have given := h.1.given f mem
      rw [setData, if_neg (by omega)] at cached
      exact h.2 f mem bytes cached
    · obtain rfl := List.mem_singleton.1 mem
      rw [setData, if_pos rfl] at cached
      exact Option.some.inj cached ▸ makesFrame_size rgba sized made
  editFrame := by
    intro self gapped g idx frameNumber f cfd bytes ok gappedEq found coalesced length h
    refine ⟨(identifiedRules libs answers).editFrame trivial gappedEq found coalesced length h.1, ?_⟩
    refine sizes_modify h.1.distinct h.2 found rfl ?_ fun id other => ?_
    · intro bytes' cached
      split at cached
      · rw [setData, if_pos rfl] at cached
        rw [← Option.some.inj cached, length]
        rfl
      · rename_i refuses
        have same := (ok.resolve_left refuses) gapped f cfd gappedEq found coalesced
        rw [same]
        exact h.2 f (mem_of_frameForNumber found) bytes' cached
    · split
      · rw [setData, if_neg other]
      · rfl
  deleteFrame := by
    intro self idx frameNumber f ok more found h
    refine ⟨(identifiedRules libs answers).deleteFrame trivial more found h.1, ?_⟩
    intro f' mem bytes cached
    rw [withoutFrame_frames (Nat.pos_of_ne_zero (frameForNumber_eq_some.1 found).1) more] at mem
    unfold forgetData at cached
    split at cached
    · cases cached
    · exact h.2 f' ((List.eraseIdx_sublist _ _).subset mem) bytes cached
  compose := by
    intro self g idx d srcData destData dest bytes ok found coalesced length h
    have counts : CountsFrames libs answers (.compose self g idx d srcData destData) := trivial
    refine ⟨(identifiedRules libs answers).compose counts found coalesced length h.1, ?_⟩
    have size := ok dest found
    refine sizes_modify h.1.distinct h.2 found rfl ?_ fun id other => ?_
    · intro bytes' cached
      rw [size]
      split at cached
      · rename_i accepts
        rw [setData, if_pos rfl] at cached
        rw [if_pos accepts, ← Option.some.inj cached, length]
      · rename_i refuses
        rw [if_neg refuses]
        exact h.2 dest (mem_of_frameForNumber found) bytes' cached
    · split
      · rw [setData, if_neg other]
      · rfl

/-- Frame data: in every run whose compositions keep the opacity of their destination, whose
failures to store data leave no other dimensions behind and in which every new frame fits, the
data cached for a frame has three bytes for each pixel if the frame is opaque and four if not. -/
theorem graphicsSizes (libs : GraphicsLibraries) (rgba : DeliversRgba libs.toDecoders)
    (storageLimit takenIds : Nat) (inputs : List (GraphicsStep × Answers))
    (taken : ∀ self input, Takes (GraphicsManager.step libs) (grmanAlloc storageLimit takenIds)
      inputs self input → ∀ c ∈ stepChanges libs self input, KeepsSizes libs input.2 c)
    (self : GraphicsManager)
    (visited : Visits (GraphicsManager.step libs) (grmanAlloc storageLimit takenIds) inputs self)
    (img : Image) (mem : img ∈ self.images) (f : Frame) (memF : f ∈ img.frames) (bytes : Bytes)
    (cached : readFromCache self { imageId := img.internalId, frameId := f.id } = some bytes) :
    bytes.length = f.width * f.height * (if f.isOpaque then 3 else 4) := by
  have holds := (FrameRules.run (fun answers => sizeRules libs answers rgba)
    (fun _ _ _ _ _ ok => ok.2) taken visited).everywhere img mem
  rw [holds.2 f memF bytes cached, Frame.dataSize, Nat.mul_assoc, Nat.mul_comm]
  rfl

/-- A command with the data of a translucent pixel. -/
def translucentStep (g : GraphicsCommand) : GraphicsStep × Answers :=
  (.command { g with format := 32, dataWidth := 1, dataHeight := 1 } [1, 2, 3, 4] {} ⟨10, 20⟩, {})

/-- A translucent frame based on an opaque one, and the opaque one composed onto it. -/
def opaqueBase : List (GraphicsStep × Answers) :=
  [pixelStep { action := 't'.toUInt8, id := 1 },
    translucentStep { action := 'f'.toUInt8, id := 1, numCells := 1 },
    commandStep { action := 'c'.toUInt8, id := 1, numLines := 1, numCells := 2 }]

/-- The composition stores three bytes for a frame that is not marked opaque. -/
theorem graphicsSizes_composed :
    ∃ self img f, Visits (GraphicsManager.step plainLibraries) (grmanAlloc 1000 0) opaqueBase self ∧
      img ∈ self.images ∧ f ∈ img.frames ∧ f.width = 1 ∧ f.height = 1 ∧ f.isOpaque = false ∧
      ∃ bytes, readFromCache self { imageId := img.internalId, frameId := f.id } = some bytes ∧
        bytes.length = 3 :=
  ⟨_, _, _, ⟨opaqueBase, List.prefix_rfl, rfl⟩, List.mem_cons_self ..,
    List.mem_cons_of_mem _ (List.mem_cons_self ..), rfl, rfl, rfl, _, rfl, rfl⟩

/-- A translucent frame that is based on nothing. -/
theorem graphicsSizes_plainFrame :
    ∃ self img f bytes, run (GraphicsManager.step plainLibraries) (grmanAlloc 1000 0)
        [pixelStep { action := 't'.toUInt8, id := 1 },
          translucentStep { action := 'f'.toUInt8, id := 1 }] = some self ∧
      img ∈ self.images ∧ f ∈ img.frames ∧ f.isOpaque = false ∧
        readFromCache self { imageId := img.internalId, frameId := f.id } = some bytes ∧
        bytes.length = f.width * f.height * (if f.isOpaque then 3 else 4) := by
  refine ⟨_, _, _, _, rfl, List.mem_cons_self .., List.mem_cons_of_mem _ (List.mem_cons_self ..),
    rfl, rfl, graphicsSizes plainLibraries (fun _ _ decoded => nomatch decoded) 1000 0
      [pixelStep { action := 't'.toUInt8, id := 1 },
        translucentStep { action := 'f'.toUInt8, id := 1 }] ?_ _
      ⟨_, List.prefix_rfl, rfl⟩ _ (List.mem_cons_self ..) _
      (List.mem_cons_of_mem _ (List.mem_cons_self ..)) _ rfl⟩
  intro self input taken c mem
  rcases takes_cons taken with ⟨rfl, rfl⟩ | ⟨first, firstEq, taken⟩
  · obtain rfl := List.mem_singleton.1 mem
    show 0 + 1 < 2 ^ 32
    decide
  · rcases takes_cons taken with ⟨rfl, rfl⟩ | ⟨second, -, taken⟩
    · obtain rfl := Option.some.inj firstEq
      obtain rfl := List.mem_singleton.1 mem
      refine ⟨?_, rfl, fun _ based => absurd rfl based⟩
      show 1 + 1 < 2 ^ 32
      decide
    · exact absurd taken (not_takes_nil _ _ _ _)

end Smelly
