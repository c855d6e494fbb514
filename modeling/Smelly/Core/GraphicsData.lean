/-
Module: Smelly.Core.GraphicsData
Purpose: The records of `graphics.h`, and the small functions of `graphics.c` that look images and
  frames up, talk to the cache of frame data and free images.
Trusted boundary: human-reviewed model of smelly/graphics.h and smelly/graphics.c; the cache
  delivers what was last stored under a key, memory can be allocated, and what is only read
  to draw (textures, layers, OpenGL coordinates) is left out
-/
import Mathlib.Data.List.Sort
import Smelly.Core.ScreenCommand
import Mathlib.Algebra.Ring.Nat

namespace Smelly

namespace GraphicsCommand

/-! The other members of the unions. -/

abbrev composeMode (g : GraphicsCommand) : Nat := g.cursorMovement
abbrev blendMode (g : GraphicsCommand) : Nat := g.cellXOffset
abbrev bgcolor (g : GraphicsCommand) : Nat := g.cellYOffset
abbrev animationState (g : GraphicsCommand) : Nat := g.dataWidth
abbrev loopCount (g : GraphicsCommand) : Nat := g.dataHeight
abbrev frameNumber (g : GraphicsCommand) : Nat := g.numLines
abbrev otherFrameNumber (g : GraphicsCommand) : Nat := g.numCells
abbrev gap (g : GraphicsCommand) : Int := g.zIndex

end GraphicsCommand

/-- `ImageRef`, without the source rectangle in OpenGL coordinates. -/
structure ImageRef where
  srcWidth : Nat := 0
  srcHeight : Nat := 0
  srcX : Nat := 0
  srcY : Nat := 0
  cellXOffset : Nat := 0
  cellYOffset : Nat := 0
  numCols : Nat := 0
  numRows : Nat := 0
  effectiveNumRows : Nat := 0
  effectiveNumCols : Nat := 0
  zIndex : Int := 0
  startRow : Int := 0
  startColumn : Int := 0
  clientId : Nat := 0
deriving DecidableEq, Repr, Inhabited

/-- `Frame`. -/
structure Frame where
  gap : Nat := 0
  id : Nat := 0
  width : Nat := 0
  height : Nat := 0
  x : Nat := 0
  y : Nat := 0
  baseFrameId : Nat := 0
  bgcolor : Nat := 0
  isOpaque : Bool := false
  is4byteAligned : Bool := false
  alphaBlend : Bool := false
deriving DecidableEq, Repr, Inhabited

inductive AnimationState where
  | stopped
  | loading
  | running
deriving DecidableEq, Repr, Inhabited

/-- `Image`; `refcnt` and `extra_framecnt` are the lengths of the lists. -/
structure Image where
  clientId : Nat := 0
  clientNumber : Nat := 0
  width : Nat := 0
  height : Nat := 0
  internalId : Nat := 0
  rootFrameDataLoaded : Bool := false
  refs : List ImageRef := []
  extraFrames : List Frame := []
  rootFrame : Frame := {}
  currentFrameIndex : Nat := 0
  frameIdCounter : Nat := 0
  animationDuration : Nat := 0
  atime : Nat := 0
  usedStorage : Nat := 0
  isDrawn : Bool := false
  animationState : AnimationState := .stopped
  maxLoops : Nat := 0
  currentLoop : Nat := 0
  currentFrameShownAt : Nat := 0
deriving DecidableEq, Repr, Inhabited

/-- `ImageAndFrame`; `cache_key` is injective on these. -/
structure ImageAndFrame where
  imageId : Nat := 0
  frameId : Nat := 0
deriving DecidableEq, Repr, Inhabited

/-- `LoadData`.  `buf` is the part of the buffer that was written, so that `buf_used` is its
length; `none` stands for the null pointer. -/
structure LoadData where
  buf : Option Bytes := none
  bufCapacity : Nat := 0
  mappedFile : Option Bytes := none
  dataSz : Nat := 0
  data : Bytes := []
  is4byteAligned : Bool := false
  isOpaque : Bool := false
  loadingCompletedSuccessfully : Bool := false
  width : Nat := 0
  height : Nat := 0
  startCommand : GraphicsCommand := {}
  loadingFor : ImageAndFrame := {}
deriving DecidableEq, Repr, Inhabited

/-- `buf_used`. -/
def LoadData.bufUsed (ld : LoadData) : Nat := (ld.buf.getD []).length

/-- `GraphicsManager`, with the frame data its disk cache holds and the static
`internal_id_counter`. -/
structure GraphicsManager where
  images : List Image := []
  storageLimit : Nat := 320 * (1024 * 1024)
  usedStorage : Nat := 0
  currentlyLoading : LoadData := {}
  hasImagesNeedingAnimation : Bool := false
  diskCache : List (ImageAndFrame × Bytes) := []
  internalIdCounter : Nat := 1
deriving DecidableEq, Repr, Inhabited

/-- `CellPixelSize`. -/
structure CellPixelSize where
  width : Nat
  height : Nat
deriving DecidableEq, Repr

/-- Why a file could not be mapped: it was not opened, or `mmap_img_file` failed. -/
inductive MapError where
  | notOpened (reply : String)
  | notMapped (reply : String)
deriving DecidableEq, Repr

/-- What the system answers while one command is handled: the time, the contents of a file that is
mapped, the size of the disk cache before and after images were trimmed, whether it takes
new data, and what a newly allocated array element holds. -/
structure Answers where
  now : Nat := 0
  mapFile : Bytes → Nat → Nat → Except MapError Bytes := fun _ _ _ => .error (.notOpened "EBADF:")
  cacheSize : Nat := 0
  cacheSizeTrimmed : Nat := 0
  cacheAccepts : Bool := true
  fresh : Frame := {}

/-- 32 bit arithmetic. -/
def u32 (n : Nat) : Nat := n % 2 ^ 32

/-! ### The cache of frame data -/

/-- `read_from_cache`. -/
def readFromCache (self : GraphicsManager) (x : ImageAndFrame) : Option Bytes :=
  (self.diskCache.find? fun entry => decide (entry.1 = x)).map Prod.snd

/-- `remove_from_cache`. -/
def removeFromCache (self : GraphicsManager) (x : ImageAndFrame) : GraphicsManager :=
  { self with diskCache := self.diskCache.filter fun entry => decide (entry.1 ≠ x) }

/-- `add_to_cache`. -/
def addToCache (self : GraphicsManager) (x : ImageAndFrame) (data : Bytes) : GraphicsManager :=
  { self with diskCache := (x, data) :: (removeFromCache self x).diskCache }

/-! ### Images -/

/-- `img_by_internal_id`, as an index. -/
def imgByInternalId (self : GraphicsManager) (id : Nat) : Option Nat :=
  self.images.findIdx? fun img => decide (img.internalId = id)

/-- `img_by_client_id`. -/
def imgByClientId (self : GraphicsManager) (id : Nat) : Option Nat :=
  self.images.findIdx? fun img => decide (img.clientId = id)

/-- `img_by_client_number`: the newest image with the number. -/
def imgByClientNumber (self : GraphicsManager) (number : Nat) : Option Nat :=
  (self.images.reverse.findIdx? fun img => decide (img.clientNumber = number)).map fun i =>
    self.images.length - 1 - i

/-- The image a pointer into `images` points to. -/
def GraphicsManager.img (self : GraphicsManager) (idx : Nat) : Image := self.images.getD idx {}

/-- Assign to fields of an image. -/
def GraphicsManager.modifyImg (self : GraphicsManager) (idx : Nat) (change : Image → Image) :
    GraphicsManager :=
  { self with images := self.images.modify idx change }

/-- All frames of an image, the root frame first. -/
def Image.frames (img : Image) : List Frame := img.rootFrame :: img.extraFrames

/-- `size_t` subtraction. -/
def subSize (a b : Nat) : Nat := if b ≤ a then a - b else 2 ^ 64 + a - b

/-- `free_image`. -/
def freeImage (self : GraphicsManager) (img : Image) : GraphicsManager :=
  let freed := img.frames.foldl
    (fun manager frame => removeFromCache manager { imageId := img.internalId, frameId := frame.id })
    self
  { freed with usedStorage := subSize self.usedStorage img.usedStorage }

/-- `remove_image`. -/
def removeImage (self : GraphicsManager) (idx : Nat) : GraphicsManager :=
  { freeImage self (self.img idx) with images := self.images.eraseIdx idx }

/-- The loop of `remove_images`, which runs from the last image to the first. -/
def removeImagesBelow (doomed : Image → Bool) (self : GraphicsManager) : Nat → GraphicsManager
  | 0 => self
  | i + 1 =>
    removeImagesBelow doomed (if doomed (self.img i) then removeImage self i else self) i

/-- `remove_images`. -/
def removeImages (self : GraphicsManager) (predicate : Image → Bool) (skipImageInternalId : Nat) :
    GraphicsManager :=
  removeImagesBelow (fun img => img.internalId ≠ skipImageInternalId && predicate img) self
    self.images.length

/-- `trim_predicate`. -/
def trimPredicate (img : Image) : Bool := !img.rootFrameDataLoaded || img.refs.isEmpty

/-- `add_trim_predicate`. -/
def addTrimPredicate (img : Image) : Bool :=
  !img.rootFrameDataLoaded || (img.clientId = 0 && img.refs.isEmpty)

/-- The loop of `apply_storage_quota`. -/
def removeOldest (storageLimit : Nat) (self : GraphicsManager) : (count : Nat) → GraphicsManager
  | 0 => self
  | count + 1 =>
    if storageLimit < self.usedStorage then
      removeOldest storageLimit (removeImage self count) count
    else self

/-- `apply_storage_quota`.  The sorting puts the oldest images last. -/
def applyStorageQuota (self : GraphicsManager) (storageLimit : Nat) (currentlyAdded : Nat) :
    GraphicsManager :=
  let trimmed := removeImages self trimPredicate currentlyAdded
  if trimmed.usedStorage < storageLimit then trimmed
  else
    let sorted := { trimmed with
      images := trimmed.images.insertionSort fun a b => b.atime ≤ a.atime }
    let kept := removeOldest storageLimit sorted sorted.images.length
    if kept.images.isEmpty then { kept with usedStorage := 0 } else kept

/-- The loop of `get_free_client_id` over the sorted ids. -/
def freeClientIdIn : (prevId ans : Nat) → List Nat → Nat
  | _, ans, [] => ans
  | prevId, ans, id :: rest =>
    if id = prevId then freeClientIdIn prevId ans rest
    else if id ≠ ans then ans
    else freeClientIdIn id (id + 1) rest

/-- `get_free_client_id`. -/
def getFreeClientId (self : GraphicsManager) : Nat :=
  freeClientIdIn 0 1
    (((self.images.map Image.clientId).filter (· ≠ 0)).insertionSort (· ≤ ·))

/-! ### Frames -/

/-- `DEFAULT_GAP`. -/
def defaultGap : Nat := 40

/-- `current_frame`. -/
def currentFrame (img : Image) : Option Frame := img.frames[img.currentFrameIndex]?

/-- `frame_for_id`. -/
def frameForId (img : Image) (frameId : Nat) : Option Frame :=
  img.frames.find? fun frame => decide (frame.id = frameId)

/-- `frame_for_number`. -/
def frameForNumber (img : Image) (frameNumber : Nat) : Option Frame :=
  if frameNumber = 0 then none else img.frames[frameNumber - 1]?

/-- Assign to fields of the frame `frame_for_number` returned. -/
def Image.modifyFrame (img : Image) (frameNumber : Nat) (change : Frame → Frame) : Image :=
  if frameNumber = 1 then { img with rootFrame := change img.rootFrame }
  else { img with extraFrames := img.extraFrames.modify (frameNumber - 2) change }

/-- `change_gap` on the frame with a number. -/
def changeGap (img : Image) (frameNumber : Nat) (gap : Int) : Image :=
  let prevGap := ((frameForNumber img frameNumber).getD {}).gap
  let newGap := gap.toNat
  let changed := img.modifyFrame frameNumber fun f => { f with gap := newGap }
  { changed with
    animationDuration :=
      (if prevGap < img.animationDuration then img.animationDuration - prevGap else 0) + newGap }

end Smelly
