/-
Module: Smelly.Core.GraphicsCommands
Purpose: Placements of images on the screen, their deletion and scrolling, and
  `grman_handle_command`, which hands every graphics command to its handler.
Trusted boundary: human-reviewed model of smelly/graphics.c; the texts of replies other than
  errors are left out, and which placements are visible is a parameter
-/
import Smelly.Core.GraphicsAnimation

namespace Smelly

open Checked

/-- The cursor position a command starts from. -/
structure CursorPosition where
  x : Nat := 0
  y : Nat := 0
deriving DecidableEq, Repr

/-! ### Placements -/

/-- How many cells of a size cover so many pixels. -/
def cellsFor (pixels cellSize : Nat) : Nat :=
  if (pixels / cellSize) * cellSize < pixels then pixels / cellSize + 1 else pixels / cellSize

/-- `update_dest_rect`. -/
def updateDestRect (ref : ImageRef) (numCols numRows : Nat) (cell : CellPixelSize) : ImageRef :=
  { ref with
    effectiveNumRows :=
      if numRows = 0 then cellsFor (ref.srcHeight + ref.cellYOffset) cell.height else numRows
    effectiveNumCols :=
      if numCols = 0 then cellsFor (ref.srcWidth + ref.cellXOffset) cell.width else numCols }

/-- What `handle_put_command` makes of a placement. -/
def placeRef (g : GraphicsCommand) (c : CursorPosition) (cell : CellPixelSize) (img : Image)
    (ref : ImageRef) : ImageRef :=
  let srcWidth := if g.width = 0 then img.width else g.width
  let srcHeight := if g.height = 0 then img.height else g.height
  updateDestRect
    { ref with
      srcX := g.xOffset
      srcY := g.yOffset
      srcWidth := min srcWidth (img.width - if g.xOffset < img.width then g.xOffset else img.width)
      srcHeight :=
        min srcHeight (img.height - if g.yOffset < img.height then g.yOffset else img.height)
      zIndex := g.zIndex
      startRow := c.y
      startColumn := c.x
      cellXOffset := min g.cellXOffset (cell.width - 1)
      cellYOffset := min g.cellYOffset (cell.height - 1)
      numCols := g.numCells
      numRows := g.numLines
      clientId := if img.clientId ≠ 0 then g.placementId else ref.clientId }
    g.numCells g.numLines cell

/-- The part of `handle_put_command` that changes an image: a placement with the id is replaced. -/
def putRef (answers : Answers) (g : GraphicsCommand) (c : CursorPosition) (cell : CellPixelSize)
    (img : Image) : Image :=
  let existing :=
    if g.placementId ≠ 0 ∧ img.clientId ≠ 0 then
      img.refs.findIdx? fun ref => decide (ref.clientId = g.placementId)
    else none
  { img with
    atime := answers.now
    refs := match existing with
      | some i => img.refs.modify i (placeRef g c cell img)
      | none => img.refs ++ [placeRef g c cell img {}] }

/-- `handle_put_command`; the cursor is moved by the caller. -/
def handlePutCommand (answers : Answers) (self : GraphicsManager) (g : GraphicsCommand)
    (c : CursorPosition) (cell : CellPixelSize) (found : Option Nat) :
    GraphicsManager × Option String :=
  match found with
  | none =>
    (self, some (s!"ENOENT:Put command refers to non-existent image with id: {g.id} and " ++
      s!"number: {g.imageNumber}"))
  | some idx =>
    if (self.img idx).rootFrameDataLoaded then
      (self.modifyImg idx (putRef answers g c cell), none)
    else
      (self, some (s!"ENOENT:Put command refers to image with id: {g.id} that could not load " ++
        "its data"))

/-! ### Removing placements -/

/-- The loop of `filter_refs`. -/
def filterRefsBelow (doomed : ImageRef → Image → Bool) (freeImages onlyFirstImage : Bool)
    (self : GraphicsManager) : Nat → GraphicsManager
  | 0 => self
  | i + 1 =>
    let img := self.img i
    let kept := img.refs.filter fun ref => !doomed ref img
    let filtered := self.modifyImg i fun img => { img with refs := kept }
    let cleaned :=
      if kept.isEmpty ∧ (freeImages ∨ img.clientId = 0) then removeImage filtered i else filtered
    if onlyFirstImage ∧ img.refs.any (doomed · img) then cleaned
    else filterRefsBelow doomed freeImages onlyFirstImage cleaned i

/-- `filter_refs`. -/
def filterRefs (self : GraphicsManager) (doomed : ImageRef → Image → Bool)
    (freeImages onlyFirstImage : Bool) : GraphicsManager :=
  filterRefsBelow doomed freeImages onlyFirstImage self self.images.length

/-- The loop of `modify_refs`; `change` gives `none` for a placement to remove. -/
def modifyRefsBelow (change : ImageRef → Option ImageRef) (self : GraphicsManager) :
    Nat → GraphicsManager
  | 0 => self
  | i + 1 =>
    let modified := self.modifyImg i fun img => { img with refs := img.refs.filterMap change }
    let img := modified.img i
    modifyRefsBelow change
      (if img.refs.isEmpty ∧ img.clientId = 0 ∧ img.clientNumber = 0 then removeImage modified i
      else modified) i

/-- `modify_refs`. -/
def modifyRefs (self : GraphicsManager) (change : ImageRef → Option ImageRef) : GraphicsManager :=
  modifyRefsBelow change self self.images.length

/-- `ScrollData`. -/
structure ScrollData where
  amt : Int
  limit : Int
  marginTop : Nat
  marginBottom : Nat
  hasMargins : Bool
deriving DecidableEq, Repr

/-- `scroll_filter_func`. -/
def scrollFilterFunc (d : ScrollData) (ref : ImageRef) : Option ImageRef :=
  let ref := { ref with startRow := ref.startRow + d.amt }
  if ref.startRow + ref.effectiveNumRows ≤ d.limit then none else some ref

/-- `ref_within_region`. -/
def refWithinRegion (ref : ImageRef) (d : ScrollData) : Bool :=
  (d.marginTop : Int) ≤ ref.startRow ∧
    ref.startRow + ref.effectiveNumRows - 1 ≤ (d.marginBottom : Int)

/-- `ref_outside_region`. -/
def refOutsideRegion (ref : ImageRef) (d : ScrollData) : Bool :=
  ref.startRow + ref.effectiveNumRows ≤ (d.marginTop : Int) ∨ (d.marginBottom : Int) < ref.startRow

/-- A placement clipped by so many rows, at the top or at the bottom; `none` when nothing is
left. -/
def clipRef (cell : CellPixelSize) (ref : ImageRef) (clippedRows : Nat) (atTop : Bool) :
    Option ImageRef :=
  let clipAmt := cell.height * clippedRows
  if ref.srcHeight ≤ clipAmt then none
  else some { ref with
    srcY := if atTop then ref.srcY + clipAmt else ref.srcY
    srcHeight := ref.srcHeight - clipAmt
    effectiveNumRows := ref.effectiveNumRows - clippedRows
    startRow := if atTop then ref.startRow + clippedRows else ref.startRow }

/-- `scroll_filter_margins_func`. -/
def scrollFilterMarginsFunc (d : ScrollData) (cell : CellPixelSize) (ref : ImageRef) :
    Option ImageRef :=
  if refWithinRegion ref d then
    let ref := { ref with startRow := ref.startRow + d.amt }
    if refOutsideRegion ref d then none
    else do
      let clipped ←
        if ref.startRow < (d.marginTop : Int) then
          clipRef cell ref ((d.marginTop : Int) - ref.startRow).toNat true
        else if (d.marginBottom : Int) < ref.startRow + ref.effectiveNumRows - 1 then
          clipRef cell ref (ref.startRow + ref.effectiveNumRows - 1 - d.marginBottom).toNat false
        else some ref
      if refOutsideRegion clipped d then none else some clipped
  else some ref

/-- `grman_scroll_images`. -/
def grmanScrollImages (self : GraphicsManager) (d : ScrollData) (cell : CellPixelSize) :
    GraphicsManager :=
  modifyRefs self (if d.hasMargins then scrollFilterMarginsFunc d cell else scrollFilterFunc d)

/-- `clear_filter_func`. -/
def clearFilterFunc (ref : ImageRef) : Bool := 0 < ref.startRow + ref.effectiveNumRows

/-- `grman_clear`. -/
def grmanClear (self : GraphicsManager) (all : Bool) : GraphicsManager :=
  filterRefs self (fun ref _ => all || clearFilterFunc ref) true false

/-- One placement in `grman_rescale`. -/
def rescaleRef (cell : CellPixelSize) (ref : ImageRef) : ImageRef :=
  updateDestRect
    { ref with
      cellXOffset := min ref.cellXOffset (cell.width - 1)
      cellYOffset := min ref.cellYOffset (cell.height - 1) }
    ref.numCols ref.numRows cell

/-- `grman_rescale`. -/
def grmanRescale (self : GraphicsManager) (cell : CellPixelSize) : GraphicsManager :=
  { self with images :=
      self.images.map fun img => { img with refs := img.refs.map (rescaleRef cell) } }

/-- `grman_update_layers`, as far as it changes images: which placements are in view is for the
geometry to say. -/
def grmanUpdateLayers (self : GraphicsManager) (inView : ImageRef → Bool) : GraphicsManager :=
  let wakes (img : Image) : Bool :=
    img.refs.any inView && !img.isDrawn && img.animationState ≠ .stopped &&
      !img.extraFrames.isEmpty && img.animationDuration ≠ 0
  { self with
    images := self.images.map fun img => { img with isDrawn := img.refs.any inView }
    hasImagesNeedingAnimation := self.hasImagesNeedingAnimation || self.images.any wakes }

/-! ### Deleting -/

/-- `id_filter_func`. -/
def idFilterFunc (g : GraphicsCommand) (ref : ImageRef) (img : Image) : Bool :=
  g.id ≠ 0 ∧ img.clientId = g.id ∧ (g.placementId = 0 ∨ ref.clientId = g.placementId)

/-- `number_filter_func`. -/
def numberFilterFunc (g : GraphicsCommand) (ref : ImageRef) (img : Image) : Bool :=
  g.imageNumber ≠ 0 ∧ img.clientNumber = g.imageNumber ∧
    (g.placementId = 0 ∨ ref.clientId = g.placementId)

/-- `x_filter_func`. -/
def xFilterFunc (xOffset : Nat) (ref : ImageRef) : Bool :=
  ref.startColumn ≤ (xOffset : Int) - 1 ∧
    (xOffset : Int) - 1 < ref.startColumn + ref.effectiveNumCols

/-- `y_filter_func`. -/
def yFilterFunc (yOffset : Nat) (ref : ImageRef) : Bool :=
  ref.startRow ≤ (yOffset : Int) - 1 ∧ (yOffset : Int) - 1 < ref.startRow + ref.effectiveNumRows

/-- `z_filter_func`. -/
def zFilterFunc (g : GraphicsCommand) (ref : ImageRef) : Bool := ref.zIndex = g.zIndex

/-- `point_filter_func`. -/
def pointFilterFunc (xOffset yOffset : Nat) (ref : ImageRef) : Bool :=
  xFilterFunc xOffset ref && yFilterFunc yOffset ref

/-- `handle_delete_command`.  An upper case letter frees the images that lose their last
placement. -/
def handleDeleteCommand (libs : GraphicsLibraries) (answers : Answers) (self : GraphicsManager)
    (g : GraphicsCommand) (c : CursorPosition) : GraphicsManager :=
  match Char.ofUInt8 g.deleteAction with
  | '\x00' => filterRefs self (fun ref _ => clearFilterFunc ref) false false
  | 'a' => filterRefs self (fun ref _ => clearFilterFunc ref) false false
  | 'A' => filterRefs self (fun ref _ => clearFilterFunc ref) true false
  | 'i' => filterRefs self (idFilterFunc g) false false
  | 'I' => filterRefs self (idFilterFunc g) true false
  | 'p' => filterRefs self (fun ref _ => pointFilterFunc g.xOffset g.yOffset ref) false false
  | 'P' => filterRefs self (fun ref _ => pointFilterFunc g.xOffset g.yOffset ref) true false
  | 'q' => filterRefs self (fun ref _ => zFilterFunc g ref && pointFilterFunc g.xOffset g.yOffset ref)
      false false
  | 'Q' => filterRefs self (fun ref _ => zFilterFunc g ref && pointFilterFunc g.xOffset g.yOffset ref)
      true false
  | 'x' => filterRefs self (fun ref _ => xFilterFunc g.xOffset ref) false false
  | 'X' => filterRefs self (fun ref _ => xFilterFunc g.xOffset ref) true false
  | 'y' => filterRefs self (fun ref _ => yFilterFunc g.yOffset ref) false false
  | 'Y' => filterRefs self (fun ref _ => yFilterFunc g.yOffset ref) true false
  | 'z' => filterRefs self (fun ref _ => zFilterFunc g ref) false false
  | 'Z' => filterRefs self (fun ref _ => zFilterFunc g ref) true false
  | 'c' => filterRefs self (fun ref _ => pointFilterFunc (c.x + 1) (c.y + 1) ref) false false
  | 'C' => filterRefs self (fun ref _ => pointFilterFunc (c.x + 1) (c.y + 1) ref) true false
  | 'n' => filterRefs self (numberFilterFunc g) false true
  | 'N' => filterRefs self (numberFilterFunc g) true true
  | 'f' => (handleDeleteFrameCommand libs answers self g).1
  | 'F' =>
    match handleDeleteFrameCommand libs answers self g with
    | (next, true) => filterRefs next (idFilterFunc g) true true
    | (next, false) => next
  | _ => self

/-! ### Commands -/

/-- `if (!loading_for.image_id) free_load_data(...)`. -/
def dropIdleLoad (self : GraphicsManager) : GraphicsManager :=
  if self.currentlyLoading.loadingFor.imageId = 0 then
    { self with currentlyLoading := freeLoadData self.currentlyLoading }
  else self

/-- The error in a result. -/
def errorOf : Handled → Option String
  | .error error => some error
  | .ok _ => none

/-- The image in a result. -/
def imageOf : Handled → Option Nat
  | .error _ => none
  | .ok image => image

/-- `apply_storage_quota` if the storage is full. -/
def applyQuota (self : GraphicsManager) (currentlyAdded : Nat) : GraphicsManager :=
  if self.storageLimit < self.usedStorage then
    applyStorageQuota self self.storageLimit currentlyAdded
  else self

/-- The commands that transmit an image. -/
def handleTransmission (libs : GraphicsLibraries) (answers : Answers) (self : GraphicsManager)
    (g : GraphicsCommand) (payload : Bytes) (c : CursorPosition) (cell : CellPixelSize) :
    GraphicsManager × Option String :=
  if Char.ofUInt8 g.action = 'q' ∧ g.id = 0 then (self, none)
  else
    let (added, result) := handleAddCommand libs.toDecoders answers self g payload
      (if Char.ofUInt8 g.action = 'q' then 0 else g.id)
    let added := dropIdleLoad added
    let lg := added.currentlyLoading.startCommand
    let put :=
      match imageOf result with
      | some idx =>
        if Char.ofUInt8 lg.action = 'T' ∧ (added.img idx).rootFrameDataLoaded then
          (handlePutCommand answers added lg c cell (some idx)).1
        else added
      | none => added
    let addedId := match imageOf result with
      | some idx => (added.img idx).internalId
      | none => 0
    let queried := if Char.ofUInt8 g.action = 'q' then removeImages put addTrimPredicate 0 else put
    (applyQuota queried addedId, errorOf result)

/-- The image an animation command refers to. -/
def imageReferredTo (self : GraphicsManager) (g : GraphicsCommand) : Option Nat :=
  if g.id ≠ 0 then imgByClientId self g.id else imgByClientNumber self g.imageNumber

/-- The reply when there is no such image. -/
def noSuchImage (g : GraphicsCommand) : String :=
  s!"ENOENT:Animation command refers to non-existent image with id: {g.id} and " ++
    s!"number: {g.imageNumber}"

/-- The commands that load a frame or control an animation. -/
def handleAnimation (libs : GraphicsLibraries) (answers : Answers) (self : GraphicsManager)
    (g : GraphicsCommand) (payload : Bytes) : Option (GraphicsManager × Option String) :=
  let loadingFor := self.currentlyLoading.loadingFor.imageId
  if g.id = 0 ∧ g.imageNumber = 0 ∧ loadingFor = 0 then some (self, none)
  else
    match if loadingFor ≠ 0 then imgByInternalId self loadingFor else imageReferredTo self g with
    | none => some (self, some (noSuchImage g))
    | some idx =>
      if Char.ofUInt8 g.action = 'f' then do
        let (loaded, result) ← handleAnimationFrameLoadCommand libs answers self g payload idx
        some (dropIdleLoad loaded, errorOf result)
      else some (handleAnimationControlCommand libs answers self g idx, none)

/-- `grman_handle_command`: the error replied, if any.  `none` where the source leaves its arrays. -/
def grmanHandleCommand (libs : GraphicsLibraries) (answers : Answers) (self : GraphicsManager)
    (g : GraphicsCommand) (payload : Bytes) (c : CursorPosition) (cell : CellPixelSize) :
    Option (GraphicsManager × Option String) :=
  if g.id ≠ 0 ∧ g.imageNumber ≠ 0 then
    some (self, some "EINVAL:Must not specify both image id and image number")
  else match Char.ofUInt8 g.action with
    | '\x00' => some (handleTransmission libs answers self g payload c cell)
    | 't' => some (handleTransmission libs answers self g payload c cell)
    | 'T' => some (handleTransmission libs answers self g payload c cell)
    | 'q' => some (handleTransmission libs answers self g payload c cell)
    | 'a' => handleAnimation libs answers self g payload
    | 'f' => handleAnimation libs answers self g payload
    | 'p' =>
      if g.id = 0 ∧ g.imageNumber = 0 then some (self, none)
      else some (handlePutCommand answers self g c cell (imageReferredTo self g))
    | 'd' => some (handleDeleteCommand libs answers self g c, none)
    | 'c' =>
      if g.id = 0 ∧ g.imageNumber = 0 then some (self, none)
      else match imageReferredTo self g with
        | none => some (self, some (noSuchImage g))
        | some idx => some (handleComposeCommand libs answers self g idx)
    | _ => some (self, none)

/-- `grman_alloc`, when so many internal ids are taken.  The storage limit can be set from Python. -/
def grmanAlloc (storageLimit takenIds : Nat) : GraphicsManager :=
  { storageLimit := storageLimit, internalIdCounter := takenIds + 1 }

/-- What happens to a graphics manager. -/
inductive GraphicsStep where
  | command (g : GraphicsCommand) (payload : Bytes) (c : CursorPosition) (cell : CellPixelSize)
  | scrollImages (d : ScrollData) (cell : CellPixelSize)
  | clear (all : Bool)
  | rescale (cell : CellPixelSize)
  | updateLayers (inView : ImageRef → Bool)
  | scanAnimations (rounds : Nat)

/-- One step with what the system answers to it; `none` where the source leaves its arrays, or
needs more rounds of a loop. -/
def GraphicsManager.step (libs : GraphicsLibraries) (self : GraphicsManager)
    (input : GraphicsStep × Answers) : Option GraphicsManager :=
  match input with
  | (.command g payload c cell, answers) =>
    (grmanHandleCommand libs answers self g payload c cell).map Prod.fst
  | (.scrollImages d cell, _) => some (grmanScrollImages self d cell)
  | (.clear all, _) => some (grmanClear self all)
  | (.rescale cell, _) => some (grmanRescale self cell)
  | (.updateLayers inView, _) => some (grmanUpdateLayers self inView)
  | (.scanAnimations rounds, answers) => scanActiveAnimations libs answers rounds self

end Smelly
