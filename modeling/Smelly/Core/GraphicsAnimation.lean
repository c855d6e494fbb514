/-
Module: Smelly.Core.GraphicsAnimation
Purpose: The animation commands of `graphics.c`: loading and editing frames, deleting them,
  controlling an animation, composing frames, and the timer that moves animations on.
Trusted boundary: human-reviewed model of smelly/graphics.c; frames are drawn, and the flags that
  ask for drawing set, elsewhere
-/
import Smelly.Core.GraphicsCompose
import Smelly.Core.GraphicsLoad

namespace Smelly

/-- What is computed outside the model: decoders and blending arithmetic. -/
structure GraphicsLibraries extends Decoders, Blending

variable (libs : GraphicsLibraries)

/-! ### Loading frames -/

/-- `transmitted_frame`, before it gets an id. -/
def transmittedFrame (ld : LoadData) (g : GraphicsCommand) : Frame :=
  { width := ld.width
    height := ld.height
    x := g.xOffset
    y := g.yOffset
    is4byteAligned := ld.is4byteAligned
    isOpaque := ld.isOpaque
    alphaBlend := g.blendMode ≠ 1 && !ld.isOpaque
    gap := if 0 < g.gap then g.gap.toNat else if g.gap < 0 then 0 else defaultGap
    bgcolor := g.bgcolor }

/-- A new frame and its data, once it is known what it is based on: the frame itself when the
chain below it is short, else what the chain and the frame make together.  `none` when the
data of the chain is missing. -/
def baseOn (self : GraphicsManager) (img : Image) (other frame : Frame) (ld : LoadData) :
    Option (Frame × LoadData) :=
  if other.baseFrameId ≠ 0 ∧ referenceChainTooLarge img other then do
    let cfd ← getCoalescedFrameData libs.toBlending self img other
    let data := composeFrame libs.toBlending img frame cfd.isOpaque cfd.buf ld.data
    some ({ frame with
        width := img.width
        height := img.height
        x := 0
        y := 0
        is4byteAligned := cfd.is4byteAligned
        isOpaque := cfd.isOpaque },
      { freeLoadData ld with
        data := data
        dataSz := img.width * img.height * pixelSize cfd.isOpaque })
  else some ({ frame with baseFrameId := other.id }, ld)

/-- The end of the branch for a new frame: it is put in its place and its data in the cache. -/
def storeNewFrame (answers : Answers) (self : GraphicsManager) (idx slot : Nat) (frame : Frame)
    (ld : LoadData) : GraphicsManager × Handled :=
  let placed := { self with currentlyLoading := ld }.modifyImg idx fun img =>
    { img with extraFrames := img.extraFrames.set slot frame }
  if answers.cacheAccepts then
    let key := { imageId := (self.img idx).internalId, frameId := frame.id }
    let stored := (addToCache placed key ld.frameData).modifyImg idx fun img =>
      { img with animationDuration := img.animationDuration + frame.gap }
    ({ stored with hasImagesNeedingAnimation :=
        stored.hasImagesNeedingAnimation || (self.img idx).animationState = .loading },
      .ok (some idx))
  else
    failedLoad
      (placed.modifyImg idx fun img => { img with extraFrames := img.extraFrames.dropLast })
      (abortLoad ld "ENOSPC" "Failed to cache data for image frame")

/-- The branch for a new frame.  The element that `realloc` adds holds `answers.fresh` until the
frame is stored; `slot` is where that happens. -/
def addNewFrame (answers : Answers) (self : GraphicsManager) (g : GraphicsCommand) (idx slot : Nat)
    (transmitted : Frame) : GraphicsManager × Handled :=
  let ld := self.currentlyLoading
  let grown := self.modifyImg idx fun img =>
    { img with
      frameIdCounter := u32 (img.frameIdCounter + 1)
      extraFrames := img.extraFrames ++ [answers.fresh] }
  let img := grown.img idx
  let frame := { transmitted with id := img.frameIdCounter }
  if g.otherFrameNumber = 0 then storeNewFrame answers grown idx slot frame ld
  else match frameForNumber img g.otherFrameNumber with
    | none =>
      failedLoad
        (grown.modifyImg idx fun img => { img with extraFrames := img.extraFrames.dropLast })
        (abortLoad ld "EINVAL" s!"No frame with number: {g.otherFrameNumber} found")
    | some other =>
      match baseOn libs grown img other frame ld with
      | none =>
        failedLoad grown (abortLoad ld "EINVAL"
          s!"Failed to get data from frame referenced by frame: {slot + 2}")
      | some (frame, ld) => storeNewFrame answers grown idx slot frame ld

/-- The branch for a frame that exists. -/
def editFrame (answers : Answers) (self : GraphicsManager) (g : GraphicsCommand)
    (idx frameNumber : Nat) (transmitted : Frame) : GraphicsManager × Handled :=
  let ld := self.currentlyLoading
  match frameForNumber (self.img idx) frameNumber with
  | none =>
    failedLoad self (abortLoad ld "EINVAL" s!"No frame with number: {frameNumber} found")
  | some _ =>
    let gapped := self.modifyImg idx fun img =>
      if g.gap ≠ 0 then changeGap img frameNumber transmitted.gap else img
    let img := gapped.img idx
    match (frameForNumber img frameNumber).bind
        (getCoalescedFrameData libs.toBlending gapped img) with
    | none =>
      failedLoad gapped (abortLoad ld "EINVAL"
        s!"No data associated with frame number: {frameNumber}")
    | some cfd =>
      let flattened := gapped.modifyImg idx fun img => img.modifyFrame frameNumber fun f =>
        { f with
          alphaBlend := false
          baseFrameId := 0
          bgcolor := 0
          isOpaque := cfd.isOpaque
          is4byteAligned := cfd.is4byteAligned
          x := 0
          y := 0
          width := img.width
          height := img.height }
      let data := composeFrame libs.toBlending img transmitted cfd.isOpaque cfd.buf ld.data
      let frameId := ((frameForNumber img frameNumber).getD {}).id
      if answers.cacheAccepts then
        let stored :=
          addToCache flattened { imageId := img.internalId, frameId := frameId }
            (bytesFrom data (pixelSize cfd.isOpaque * img.width * img.height))
        (if frameNumber - 1 = img.currentFrameIndex then
          stored.modifyImg idx fun img => { img with currentFrameShownAt := answers.now }
        else stored, .ok (some idx))
      else
        failedLoad flattened (abortLoad ld "ENOSPC" "Failed to cache data for image frame")

/-- The checks of `handle_animation_frame_load_command` on what was received. -/
def frameLoadError (ld : LoadData) (g : GraphicsCommand) (img : Image) :
    Option (String × String) :=
  if ld.dataSz < pixelSize ld.isOpaque * ld.width * ld.height then
    some ("ENODATA",
      s!"Insufficient image data {ld.dataSz} < {pixelSize ld.isOpaque * g.dataWidth}")
  else if img.width < ld.width then
    some ("EINVAL", s!"Frame width {ld.width} larger than image width: {img.width}")
  else if img.height < ld.height then
    some ("EINVAL", s!"Frame height {ld.height} larger than image height: {img.height}")
  else none

/-- The test on the size of the cache. -/
def cacheTooLarge (self : GraphicsManager) (cacheSize dataSz : Nat) : Bool :=
  self.storageLimit * 5 < cacheSize + dataSz

/-- The part of `handle_animation_frame_load_command` behind `process_image_data`.  The pointer to
the image is not adjusted when images in front of it are trimmed; `none` when it then points
behind the last image, or the frame behind the last frame. -/
def finishFrameLoad (answers : Answers) (self : GraphicsManager) (g : GraphicsCommand)
    (idx frameNumber : Nat) (isNewFrame : Bool) : Option (GraphicsManager × Handled) :=
  let ld := self.currentlyLoading
  match frameLoadError ld g (self.img idx) with
  | some (code, message) => some (failedLoad self (abortLoad ld code message))
  | none =>
    let transmitted := transmittedFrame ld g
    if isNewFrame then
      let full := cacheTooLarge self answers.cacheSize ld.dataSz
      let trimmed :=
        if full then removeImages self trimPredicate (self.img idx).internalId else self
      if full ∧ cacheTooLarge trimmed answers.cacheSizeTrimmed ld.dataSz then
        some (failedLoad trimmed
          (abortLoad ld "ENOSPC" "Cache size exceeded cannot add new frames"))
      else if trimmed.images.length ≤ idx ∨
          (trimmed.img idx).extraFrames.length < frameNumber - 2 then none
      else some (addNewFrame libs answers trimmed g idx (frameNumber - 2) transmitted)
    else some (editFrame libs answers self g idx frameNumber transmitted)

/-- The part of `handle_animation_frame_load_command` from `load_image_data` on. -/
def frameLoadPayload (answers : Answers) (self : GraphicsManager) (g : GraphicsCommand) (tt : Char)
    (fmt : Nat) (payload : Bytes) (idx frameNumber : Nat) (isNewFrame : Bool) :
    Option (GraphicsManager × Handled) :=
  match loadImageData answers self.currentlyLoading g tt fmt payload with
  | (ld, some error) => some (failedLoad self (ld, some error))
  | (ld, none) =>
    if ld.loadingCompletedSuccessfully then
      match processImageData libs.toDecoders { ld with loadingFor := {} } g tt fmt with
      | (ld, some error) => some (failedLoad self (ld, some error))
      | (ld, none) =>
        if ld.loadingCompletedSuccessfully then
          finishFrameLoad libs answers { self with currentlyLoading := ld } g idx frameNumber
            isNewFrame
        else some ({ self with currentlyLoading := ld }, .ok (some idx))
    else some ({ self with currentlyLoading := ld }, .ok none)

/-- The frame number a frame load command means. -/
def frameNumberOf (img : Image) (g : GraphicsCommand) : Nat :=
  let last := img.extraFrames.length + 2
  if g.frameNumber = 0 ∨ last < g.frameNumber then last else g.frameNumber

/-- `handle_animation_frame_load_command`. -/
def handleAnimationFrameLoadCommand (answers : Answers) (self : GraphicsManager)
    (g : GraphicsCommand) (payload : Bytes) (idx : Nat) : Option (GraphicsManager × Handled) :=
  let img := self.img idx
  let frameNumber := frameNumberOf img g
  let isNewFrame := frameNumber = img.extraFrames.length + 2
  let g := { g with numLines := frameNumber }
  let tt := transmissionTypeOf g
  let fmt := formatOf g
  if tt = 'd' ∧ self.currentlyLoading.loadingFor.imageId = img.internalId then
    let ld := initChunkedLoad self.currentlyLoading g
    let g := ld.startCommand
    frameLoadPayload libs answers { self with currentlyLoading := ld } g (transmissionTypeOf g)
      (formatOf g) payload idx frameNumber isNewFrame
  else
    let ld := { self.currentlyLoading with loadingFor := {} }
    if maxImageDimension < g.dataWidth ∨ maxImageDimension < g.dataHeight then
      some (failedLoad self (abortLoad ld "EINVAL" "Image too large"))
    else match initializeLoadData g img.internalId tt fmt (frameNumber - 1) with
      | (ld, some error) => some (failedLoad self (ld, some error))
      | (ld, none) =>
        frameLoadPayload libs answers { self with currentlyLoading := ld } g tt fmt payload idx
          frameNumber isNewFrame

/-! ### Deleting frames -/

/-- The image after the frame with a number, of those that stay the first, is gone. -/
def withoutFrame (img : Image) (frameNumber : Nat) : Image :=
  let removed := (frameForNumber img frameNumber).getD {}
  let removedIdx := if frameNumber = 1 then 0 else frameNumber - 2
  { img with
    rootFrame := if frameNumber = 1 then img.extraFrames.headD {} else img.rootFrame
    extraFrames := img.extraFrames.eraseIdx removedIdx
    animationDuration :=
      if removed.gap < img.animationDuration then img.animationDuration - removed.gap else 0 }

/-- `handle_delete_frame_command`; the Boolean says whether it returns the image. -/
def handleDeleteFrameCommand (answers : Answers) (self : GraphicsManager) (g : GraphicsCommand) :
    GraphicsManager × Bool :=
  match if g.id = 0 ∧ g.imageNumber = 0 then none
      else if g.id ≠ 0 then imgByClientId self g.id
      else imgByClientNumber self g.imageNumber with
  | none => (self, false)
  | some idx =>
    let img := self.img idx
    let frameNumber := max 1 (min (img.extraFrames.length + 1) g.frameNumber)
    if img.extraFrames.isEmpty then (self, Char.ofUInt8 g.deleteAction = 'F')
    else
      let frameId := ((frameForNumber img frameNumber).getD {}).id
      let uncached := removeFromCache self { imageId := img.internalId, frameId := frameId }
      let removed := uncached.modifyImg idx fun img => withoutFrame img frameNumber
      let removedIdx := if frameNumber = 1 then 0 else frameNumber - 2
      let framecnt := img.extraFrames.length - 1
      if framecnt < img.currentFrameIndex then
        (updateCurrentFrame libs.toBlending answers
          (removed.modifyImg idx fun img => { img with currentFrameIndex := framecnt }) idx, false)
      else if removedIdx = img.currentFrameIndex then
        (updateCurrentFrame libs.toBlending answers removed idx, false)
      else if removedIdx < img.currentFrameIndex then
        (removed.modifyImg idx fun img =>
          { img with currentFrameIndex := img.currentFrameIndex - 1 }, false)
      else (removed, false)

/-! ### Controlling an animation -/

/-- The gap `handle_animation_control_command` sets. -/
def controlGap (img : Image) (g : GraphicsCommand) : Image :=
  if g.frameNumber ≠ 0 ∧ g.frameNumber - 1 ≤ img.extraFrames.length ∧ g.gap ≠ 0 then
    changeGap img g.frameNumber g.gap
  else img

/-- Whether `handle_animation_control_command` moves to another frame. -/
def controlsFrame (img : Image) (g : GraphicsCommand) : Bool :=
  g.otherFrameNumber ≠ 0 ∧ g.otherFrameNumber - 1 ≠ img.currentFrameIndex ∧
    g.otherFrameNumber - 1 ≤ img.extraFrames.length

/-- The state `handle_animation_control_command` sets. -/
def controlState (answers : Answers) (img : Image) (g : GraphicsCommand) : Image :=
  let animationState :=
    if g.animationState = 1 then .stopped
    else if g.animationState = 2 then .loading
    else if g.animationState = 3 then .running
    else img.animationState
  let started : Image :=
    if animationState ≠ .stopped ∧ img.animationState = .stopped then
      { img with currentFrameShownAt := answers.now, isDrawn := true }
    else img
  { started with animationState := animationState, currentLoop := 0 }

/-- `handle_animation_control_command`. -/
def handleAnimationControlCommand (answers : Answers) (self : GraphicsManager)
    (g : GraphicsCommand) (idx : Nat) : GraphicsManager :=
  let gapped := self.modifyImg idx fun img => controlGap img g
  let moved :=
    if controlsFrame (self.img idx) g then
      updateCurrentFrame libs.toBlending answers
        (gapped.modifyImg idx fun img => { img with currentFrameIndex := g.otherFrameNumber - 1 }) idx
    else gapped
  let stated :=
    if g.animationState ≠ 0 then moved.modifyImg idx fun img => controlState answers img g
    else moved
  let looped :=
    if g.loopCount ≠ 0 then stated.modifyImg idx fun img => { img with maxLoops := g.loopCount - 1 }
    else stated
  { looped with hasImagesNeedingAnimation :=
      looped.hasImagesNeedingAnimation ||
        (g.animationState ≠ 0 && (stated.img idx).animationState ≠ .stopped) }

/-! ### Composing frames -/

/-- The checks of `handle_compose_command` on the rectangles, which add 32 bit numbers, and what is
composed if they pass, given which of the two frames is opaque. -/
def composeRectanglesFor (g : GraphicsCommand) (img : Image) :
    Except String ((srcOpaque destOpaque : Bool) → ComposeData) :=
  let width := if g.width = 0 then img.width else g.width
  let height := if g.height = 0 then img.height else g.height
  let destX := g.xOffset
  let destY := g.yOffset
  let srcX := g.cellXOffset
  let srcY := g.cellYOffset
  if img.width < u32 (destX + width) ∨ img.height < u32 (destY + height) then
    .error "EINVAL:The destination rectangle is out of bounds"
  else if img.width < u32 (srcX + width) ∨ img.height < u32 (srcY + height) then
    .error "EINVAL:The source rectangle is out of bounds"
  else if g.frameNumber = g.otherFrameNumber ∧ max srcX destX < u32 (min srcX destX + width) ∧
      max srcY destY < u32 (min srcY destY + height) then
    .error ("EINVAL:The source and destination rectangles overlap and the src and destination " ++
      "frames are the same")
  else
    .ok fun srcOpaque destOpaque =>
      { overPxSz := pixelSize srcOpaque
        underPxSz := pixelSize destOpaque
        needsBlending := g.composeMode = 0 && !srcOpaque
        overOffsetX := srcX
        overOffsetY := srcY
        underOffsetX := destX
        underOffsetY := destY
        overWidth := width
        overHeight := height
        underWidth := width
        underHeight := height
        stride := img.width }

/-- `handle_compose_command` once both frames are found and their data is there. -/
def composeCoalesced (answers : Answers) (self : GraphicsManager) (g : GraphicsCommand) (idx : Nat)
    (d : ComposeData) (srcData destData : CoalescedFrameData) :
    GraphicsManager × Option String :=
  let img := self.img idx
  let data := (composeRectangles libs.toBlending d destData.buf srcData.buf).getD destData.buf
  let frameId := ((frameForNumber img g.otherFrameNumber).getD {}).id
  let stored :=
    if answers.cacheAccepts then
      addToCache self { imageId := img.internalId, frameId := frameId }
        (bytesFrom data (pixelSize destData.isOpaque * img.width * img.height))
    else self
  let flattened := stored.modifyImg idx fun img => img.modifyFrame g.otherFrameNumber fun f =>
    { f with x := 0, y := 0, width := img.width, height := img.height, baseFrameId := 0
             bgcolor := 0 }
  let shown :=
    if g.otherFrameNumber - 1 = img.currentFrameIndex then
      flattened.modifyImg idx fun img => { img with currentFrameShownAt := answers.now }
    else flattened
  (shown, if answers.cacheAccepts then none
    else some "ENOSPC:Failed to store image data in disk cache")

/-- `handle_compose_command`. -/
def handleComposeCommand (answers : Answers) (self : GraphicsManager) (g : GraphicsCommand)
    (idx : Nat) : GraphicsManager × Option String :=
  let img := self.img idx
  match frameForNumber img g.frameNumber, frameForNumber img g.otherFrameNumber with
  | none, _ =>
    (self, some
      s!"ENOENT:No source frame number {g.frameNumber} exists in image id: {img.clientId}\n")
  | some _, none =>
    (self, some (s!"ENOENT:No destination frame number {g.otherFrameNumber} exists in " ++
      s!"image id: {img.clientId}\n"))
  | some src, some dest =>
    match composeRectanglesFor g img with
    | .error error => (self, some error)
    | .ok d =>
      match getCoalescedFrameData libs.toBlending self img src,
          getCoalescedFrameData libs.toBlending self img dest with
      | none, _ =>
        (self, some s!"EINVAL:Failed to get data for src frame: {g.frameNumber - 1}")
      | some _, none =>
        (self, some
          s!"EINVAL:Failed to get data for destination frame: {g.otherFrameNumber - 1}")
      | some srcData, some destData =>
        composeCoalesced libs answers self g idx (d srcData.isOpaque destData.isOpaque)
          srcData destData

/-! ### Moving animations on -/

/-- `image_is_animatable`. -/
def imageIsAnimatable (img : Image) : Bool :=
  img.animationState ≠ .stopped ∧ img.extraFrames ≠ [] ∧ img.isDrawn ∧ img.animationDuration ≠ 0 ∧
    (img.maxLoops = 0 ∨ img.currentLoop < img.maxLoops)

/-- One round of the `do` loop of `scan_active_animations`, and whether it gets past both
`goto skip_image`. -/
def advanceFrame (img : Image) : Image × Bool :=
  let next := (img.currentFrameIndex + 1) % (img.extraFrames.length + 1)
  if next ≠ 0 then ({ img with currentFrameIndex := next }, true)
  else if img.animationState = .loading then (img, false)
  else if img.maxLoops ≤ img.currentLoop + 1 ∧ img.maxLoops ≠ 0 then
    ({ img with currentLoop := img.currentLoop + 1 }, false)
  else ({ img with currentLoop := img.currentLoop + 1, currentFrameIndex := next }, true)

/-- The `do` loop: the image, and whether the loop ended at a frame with a gap.  `none` when it
takes more than `rounds` rounds. -/
def skipFrames : (rounds : Nat) → Image → Option (Image × Bool)
  | 0, _ => none
  | rounds + 1, img =>
    match advanceFrame img with
    | (next, false) => some (next, false)
    | (next, true) =>
      if ((currentFrame next).getD {}).gap = 0 then skipFrames rounds next
      else some (next, true)

/-- `ms_to_monotonic_t`. -/
def msToMonotonic (ms : Nat) : Nat := ms * 1000000

/-- One round of the loop of `scan_active_animations` over the images. -/
def scanImage (answers : Answers) (rounds : Nat) (self : GraphicsManager) (idx : Nat) :
    Option GraphicsManager :=
  let img := self.img idx
  match if imageIsAnimatable img then currentFrame img else none with
  | none => some self
  | some f =>
    let animated := { self with hasImagesNeedingAnimation := true }
    if img.currentFrameShownAt + msToMonotonic f.gap ≤ answers.now then do
      let (img, found) ← skipFrames rounds img
      let moved := animated.modifyImg idx fun _ => img
      some (if found then updateCurrentFrame libs.toBlending answers moved idx else moved)
    else some animated

/-- `scan_active_animations`. -/
def scanActiveAnimations (answers : Answers) (rounds : Nat) (self : GraphicsManager) :
    Option GraphicsManager :=
  if self.hasImagesNeedingAnimation then
    Checked.forDown 0 self.images.length (fun idx s => scanImage libs answers rounds s idx)
      { self with hasImagesNeedingAnimation := false }
  else some self

end Smelly
