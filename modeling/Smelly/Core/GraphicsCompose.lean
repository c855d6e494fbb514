/-
Module: Smelly.Core.GraphicsCompose
Purpose: Pixel composition in `graphics.c`: `compose_rectangles`, `compose` and the frame data they
  are applied to.  An access outside a pixel buffer is `none`.
Trusted boundary: human-reviewed model of smelly/graphics.c; the floating point arithmetic of the
  two blending functions is a parameter
-/
import Smelly.Core.GraphicsData

namespace Smelly

open Checked

/-- The arithmetic of `blend_on_opaque` and `alpha_blend` on single bytes. -/
structure Blending where
  /-- `over_px[i] * alpha + under_px[i] * alpha_op`. -/
  onOpaque : (under overlay alpha : UInt8) → UInt8
  /-- `255 * alpha`. -/
  alpha : (destAlpha srcAlpha : UInt8) → UInt8
  /-- `(src_px[i] * src_a + dest_px[i] * dest_a * (1.f - src_a)) / alpha`. -/
  onAlpha : (dest destAlpha src srcAlpha : UInt8) → UInt8

/-- `blend_on_opaque`. -/
def blendOnOpaque (b : Blending) (under overlay : Bytes) : Bytes :=
  (under.zip overlay).map fun (u, o) => b.onOpaque u o (overlay.getD 3 0)

/-- `alpha_blend`. -/
def alphaBlend (b : Blending) (dest src : Bytes) : Bytes :=
  let srcAlpha := src.getD 3 0
  let destAlpha := dest.getD 3 0
  if srcAlpha = 0 then dest
  else if b.alpha destAlpha srcAlpha = 0 then [0, 0, 0, 0]
  else
    ((dest.take 3).zip src).map (fun (d, s) => b.onAlpha d destAlpha s srcAlpha) ++
      [b.alpha destAlpha srcAlpha]

/-- `ComposeData`. -/
structure ComposeData where
  needsBlending : Bool := false
  overPxSz : Nat
  underPxSz : Nat
  overWidth : Nat
  overHeight : Nat
  underWidth : Nat
  underHeight : Nat
  overOffsetX : Nat := 0
  overOffsetY : Nat := 0
  underOffsetX : Nat := 0
  underOffsetY : Nat := 0
  stride : Nat := 0
deriving DecidableEq, Repr

/-- One round of `COPY_PIXELS`. -/
def composePixel (b : Blending) (d : ComposeData) (under overlay : Bytes) : Bytes :=
  if d.needsBlending then
    if d.underPxSz = 3 then blendOnOpaque b under overlay else alphaBlend b under overlay
  else if d.underPxSz = 4 then
    if d.overPxSz = 4 then overlay else overlay ++ [255]
  else overlay.take 3

/-- Read so many bytes of a buffer.  No bytes can be read at any offset. -/
def readBytes (data : Bytes) (offset count : Nat) : Option Bytes :=
  if count = 0 ∨ offset + count ≤ data.length then some ((data.drop offset).take count) else none

/-- Write bytes to a buffer. -/
def writeBytes (data : Bytes) (offset : Nat) (bytes : Bytes) : Option Bytes :=
  if bytes = [] then some data
  else if offset + bytes.length ≤ data.length then
    some (data.take offset ++ bytes ++ data.drop (offset + bytes.length))
  else none

/-- One round of `ROW_ITER`: the row is copied whole, or pixel by pixel. -/
def composeRow (b : Blending) (d : ComposeData) (overlay : Bytes) (overRow underRow width : Nat)
    (under : Bytes) : Option Bytes :=
  if ¬ d.needsBlending ∧ d.overPxSz = d.underPxSz then do
    let row ← readBytes overlay overRow (d.overPxSz * width)
    writeBytes under underRow row
  else
    forUp 0 width (fun x under => do
      let overPx ← readBytes overlay (overRow + u32 (d.overPxSz * x)) d.overPxSz
      let underPx ← readBytes under (underRow + u32 (d.underPxSz * x)) d.underPxSz
      writeBytes under (underRow + u32 (d.underPxSz * x)) (composePixel b d underPx overPx)) under

/-- Where a row starts that is `y` rows below the offset: two 32 bit numbers are added to the
pointer one after the other. -/
def rowStart (pxSz stride offsetX offsetY y : Nat) : Nat :=
  u32 (u32 (u32 (y + offsetY) * pxSz) * stride) + u32 (offsetX * pxSz)

/-- `compose_rectangles`: the changed pixels of `under`. -/
def composeRectangles (b : Blending) (d : ComposeData) (under overlay : Bytes) : Option Bytes :=
  forUp 0 (min d.underHeight d.overHeight) (fun y under =>
    composeRow b d overlay (rowStart d.overPxSz d.stride d.overOffsetX d.overOffsetY y)
      (rowStart d.underPxSz d.stride d.underOffsetX d.underOffsetY y)
      (min d.underWidth d.overWidth) under) under

/-- `compose`. -/
def compose (b : Blending) (d : ComposeData) (under overlay : Bytes) : Option Bytes :=
  forUp 0 (min (d.underHeight - d.overOffsetY) d.overHeight) (fun y under =>
    composeRow b d overlay (rowStart d.overPxSz d.overWidth 0 0 y)
      (rowStart d.underPxSz d.underWidth d.overOffsetX d.overOffsetY y)
      (min (d.underWidth - d.overOffsetX) d.overWidth) under) under

/-! ### Coalesced frames -/

/-- `CoalescedFrameData` with a buffer. -/
structure CoalescedFrameData where
  buf : Bytes
  is4byteAligned : Bool
  isOpaque : Bool
deriving DecidableEq, Repr

/-- Bytes per pixel. -/
def pixelSize (isOpaque : Bool) : Nat := if isOpaque then 3 else 4

/-- The pixel a background colour stands for. -/
def backgroundPixel (bgcolor bytesPerPixel : Nat) : Bytes :=
  [UInt8.ofNat (bgcolor / 2 ^ 24), UInt8.ofNat (bgcolor / 2 ^ 16), UInt8.ofNat (bgcolor / 2 ^ 8),
    UInt8.ofNat bgcolor].take bytesPerPixel

/-- What `compose` is told when the frame `overlay` is laid on an image. -/
def frameComposeData (img : Image) (overlay : Frame) (underOpaque : Bool) : ComposeData :=
  { overPxSz := pixelSize overlay.isOpaque
    underPxSz := pixelSize underOpaque
    overWidth := overlay.width
    overHeight := overlay.height
    overOffsetX := overlay.x
    overOffsetY := overlay.y
    underWidth := img.width
    underHeight := img.height
    needsBlending := overlay.alphaBlend && !overlay.isOpaque }

/-- `compose` on frame data.  Data that has not the size the flags promise, so that the source
would leave its buffers, changes nothing here. -/
def composeFrame (b : Blending) (img : Image) (overlay : Frame) (underOpaque : Bool)
    (under data : Bytes) : Bytes :=
  (compose b (frameComposeData img overlay underOpaque) under data).getD under

/-- `get_coalesced_frame_data_standalone`. -/
def getCoalescedFrameDataStandalone (b : Blending) (img : Image) (f : Frame) (frameData : Bytes) :
    CoalescedFrameData :=
  if f.width = img.width ∧ f.height = img.height ∧ f.x = 0 ∧ f.y = 0 then
    { buf := frameData, is4byteAligned := f.is4byteAligned, isOpaque := f.isOpaque }
  else
    let bytesPerPixel := pixelSize f.isOpaque
    let base := (List.replicate (img.width * img.height)
      (backgroundPixel f.bgcolor bytesPerPixel)).flatten
    { buf := composeFrame b img f f.isOpaque base frameData
      is4byteAligned := bytesPerPixel = 4 || img.width % 4 = 0
      isOpaque := f.isOpaque }

/-- `get_coalesced_frame_data_impl`; `depth` is how many more levels its `count` allows. -/
def getCoalescedFrameDataImpl (b : Blending) (self : GraphicsManager) (img : Image) :
    (depth : Nat) → Frame → Option CoalescedFrameData
  | 0, _ => none
  | depth + 1, f => do
      let frameData ← readFromCache self { imageId := img.internalId, frameId := f.id }
      if f.baseFrameId = 0 then some (getCoalescedFrameDataStandalone b img f frameData)
      else
        let base ← frameForId img f.baseFrameId
        let baseData ← getCoalescedFrameDataImpl b self img depth base
        some { baseData with
          buf := composeFrame b img f baseData.isOpaque baseData.buf frameData }

/-- `get_coalesced_frame_data`. -/
def getCoalescedFrameData (b : Blending) (self : GraphicsManager) (img : Image) (f : Frame) :
    Option CoalescedFrameData :=
  getCoalescedFrameDataImpl b self img 33 f

/-- The loop of `reference_chain_too_large`: the area drawn and the number of frames. -/
def drawnArea (img : Image) (limit : Nat) : (rounds drawn num : Nat) → Frame → Nat × Nat
  | 0, drawn, num, _ => (drawn, num)
  | rounds + 1, drawn, num, frame =>
    if drawn < limit ∧ num < 5 ∧ frame.baseFrameId ≠ 0 then
      match frameForId img frame.baseFrameId with
      | none => (drawn, num)
      | some base =>
        drawnArea img limit rounds (u32 (drawn + u32 (base.width * base.height))) (num + 1) base
    else (drawn, num)

/-- `reference_chain_too_large`. -/
def referenceChainTooLarge (img : Image) (frame : Frame) : Bool :=
  let limit := u32 (u32 (img.width * img.height) * 2)
  let (drawn, num) := drawnArea img limit 5 (u32 (frame.width * frame.height)) 1 frame
  5 ≤ num ∨ limit ≤ drawn

/-- `update_current_frame` with no frame data: the image shows its current frame anew if the data
of the frame can be had. -/
def updateCurrentFrame (b : Blending) (answers : Answers) (self : GraphicsManager) (idx : Nat) :
    GraphicsManager :=
  match (currentFrame (self.img idx)).bind (getCoalescedFrameData b self (self.img idx)) with
  | none => self
  | some _ => self.modifyImg idx fun img => { img with currentFrameShownAt := answers.now }

end Smelly
