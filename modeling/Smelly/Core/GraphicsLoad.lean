/-
Module: Smelly.Core.GraphicsLoad
Purpose: Receiving image data in `graphics.c`: setting up a transmission, adding chunks to it,
  decoding what was received, and making it the root frame of an image.
Trusted boundary: human-reviewed model of smelly/graphics.c; zlib and libpng are parameters, and
  the removal of temporary files is left out
-/
import Smelly.Core.GraphicsData

namespace Smelly

/-- The number of an image format. -/
def RGB : Nat := 24
def RGBA : Nat := 32
def PNG : Nat := 100

/-- `MAX_DATA_SZ`. -/
def maxDataSz : Nat := 4 * 100000000

/-- `MAX_IMAGE_DIMENSION`. -/
def maxImageDimension : Nat := 10000

/-- What `inflate_png_inner` delivers. -/
structure PngImage where
  width : Nat
  height : Nat
  decompressed : Bytes
deriving DecidableEq, Repr

/-- The decoders: `inflate` gets its input and the space for its output, and errors are the text of
the reply. -/
structure Decoders where
  inflate : Bytes → Nat → Except String Bytes
  inflatePng : Bytes → Except String PngImage

/-- `free_load_data`. -/
def freeLoadData (ld : LoadData) : LoadData :=
  { ld with buf := none, bufCapacity := 0, mappedFile := none, loadingFor := {} }

/-- `ABRT`: what it leaves behind, and the reply. -/
def abortLoad (ld : LoadData) (code message : String) : LoadData × Option String :=
  (freeLoadData { ld with loadingCompletedSuccessfully := false }, some (code ++ ":" ++ message))

/-- The size and the flags `initialize_load_data` derives from the declared format. -/
def declareFormat (ld : LoadData) (g : GraphicsCommand) (dataFmt : Nat) :
    LoadData × Option String :=
  if dataFmt = PNG then
    if maxDataSz < g.dataSz then abortLoad ld "EINVAL" "PNG data size too large"
    else ({ ld with
      is4byteAligned := true
      isOpaque := false
      dataSz := if g.dataSz = 0 then 1024 * 100 else g.dataSz }, none)
  else if dataFmt = RGB ∨ dataFmt = RGBA then
    let dataSz := g.dataWidth * g.dataHeight * (dataFmt / 8)
    if dataSz = 0 then
      abortLoad { ld with dataSz := dataSz } "EINVAL" "Zero width/height not allowed"
    else ({ ld with
      dataSz := dataSz
      is4byteAligned := dataFmt = RGBA || g.dataWidth % 4 = 0
      isOpaque := dataFmt = RGB }, none)
  else abortLoad ld "EINVAL" s!"Unknown image format: {dataFmt}"

/-- `initialize_load_data`. -/
def initializeLoadData (g : GraphicsCommand) (internalId : Nat) (transmissionType : Char)
    (dataFmt frameId : Nat) : LoadData × Option String :=
  match declareFormat { startCommand := g, width := g.dataWidth, height := g.dataHeight } g
      dataFmt with
  | (ld, some error) => (ld, some error)
  | (ld, none) =>
    let ld := { ld with loadingFor := { imageId := internalId, frameId := frameId } }
    if transmissionType = 'd' then
      ({ ld with
        bufCapacity := ld.dataSz + if g.compressed ≠ 0 then 1024 else 10
        buf := some [] }, none)
    else (ld, none)

/-- `INIT_CHUNKED_LOAD`. -/
def initChunkedLoad (ld : LoadData) (g : GraphicsCommand) : LoadData :=
  { ld with startCommand := { ld.startCommand with more := g.more } }

/-- The transmission type of a command. -/
def transmissionTypeOf (g : GraphicsCommand) : Char :=
  if g.transmissionType = 0 then 'd' else Char.ofUInt8 g.transmissionType

/-- The format of a command. -/
def formatOf (g : GraphicsCommand) : Nat := if g.format = 0 then RGBA else g.format

/-- The buffer as `load_image_data` finds or makes it before it copies the payload, which it does
without another look at the capacity. -/
def makeRoom (ld : LoadData) (dataFmt payloadSz : Nat) : LoadData × Option String :=
  if ld.bufCapacity - ld.bufUsed < payloadSz then
    if maxDataSz < ld.bufUsed + payloadSz ∨ dataFmt ≠ PNG then
      abortLoad ld "EFBIG" "Too much data"
    else ({ ld with bufCapacity := min (2 * ld.bufCapacity) maxDataSz }, none)
  else (ld, none)

/-- `load_image_data`. -/
def loadImageData (answers : Answers) (ld : LoadData) (g : GraphicsCommand)
    (transmissionType : Char) (dataFmt : Nat) (payload : Bytes) : LoadData × Option String :=
  if transmissionType = 'd' then
    match makeRoom ld dataFmt payload.length with
    | (ld, some error) => (ld, some error)
    | (ld, none) =>
      let ld := { ld with buf := some (ld.buf.getD [] ++ payload) }
      if g.more = 0 then
        ({ ld with loadingCompletedSuccessfully := true, loadingFor := {} }, none)
      else (ld, none)
  else if transmissionType = 'f' ∨ transmissionType = 't' ∨ transmissionType = 's' then
    if 2048 < payload.length then abortLoad ld "EINVAL" "Filename too long"
    else match answers.mapFile payload g.dataSz g.dataOffset with
      | .error (.notOpened reply) =>
        (freeLoadData { ld with loadingCompletedSuccessfully := false }, some reply)
      | .error (.notMapped reply) =>
        ({ ld with loadingCompletedSuccessfully := false }, some reply)
      | .ok contents =>
        ({ ld with mappedFile := some contents, loadingCompletedSuccessfully := true }, none)
  else abortLoad ld "EINVAL" s!"Unknown transmission type: {g.transmissionType}"

/-- The bytes `IB` selects. -/
def LoadData.received (ld : LoadData) : Bytes :=
  match ld.buf with
  | some buf => buf
  | none => ld.mappedFile.getD []

/-- `inflate_zlib`. -/
def inflateZlib (decoders : Decoders) (ld : LoadData) : LoadData × Option String :=
  match decoders.inflate ld.received ld.dataSz with
  | .error error => ({ ld with loadingCompletedSuccessfully := false }, some error)
  | .ok decompressed =>
    if decompressed.length ≠ ld.dataSz then
      ({ ld with loadingCompletedSuccessfully := false },
        some "EINVAL:Image data size post inflation does not match expected size")
    else ({ freeLoadData ld with bufCapacity := ld.dataSz, buf := some decompressed }, none)

/-- `inflate_png`. -/
def inflatePng (decoders : Decoders) (ld : LoadData) : LoadData × Option String :=
  match decoders.inflatePng ld.received with
  | .error error => ({ ld with loadingCompletedSuccessfully := false }, some error)
  | .ok d =>
    ({ freeLoadData ld with
      buf := some d.decompressed
      bufCapacity := d.decompressed.length
      dataSz := d.decompressed.length
      width := d.width
      height := d.height }, none)

/-- The `switch` on the compression in `process_image_data`. -/
def decompress (decoders : Decoders) (ld : LoadData) (g : GraphicsCommand) :
    LoadData × Option String :=
  if Char.ofUInt8 g.compressed = 'z' then inflateZlib decoders ld
  else if g.compressed = 0 then (ld, none)
  else abortLoad ld "EINVAL" s!"Unknown image compression: {g.compressed}"

/-- The reply to a transmission that is too short. -/
def insufficientData (got expected : Nat) : String :=
  s!"Insufficient image data: {got} < {expected}"

/-- `process_image_data`. -/
def processImageData (decoders : Decoders) (ld : LoadData) (g : GraphicsCommand)
    (transmissionType : Char) (dataFmt : Nat) : LoadData × Option String :=
  if g.compressed ≠ 0 ∨ dataFmt = PNG then
    match decompress decoders ld g with
    | (ld, some error) => (ld, some error)
    | (ld, none) =>
      match if dataFmt = PNG then inflatePng decoders ld else (ld, none) with
      | (ld, some error) => (ld, some error)
      | (ld, none) =>
        let ld := { ld with data := ld.buf.getD [] }
        if ld.bufUsed < ld.dataSz then
          abortLoad ld "ENODATA" (insufficientData ld.bufUsed ld.dataSz)
        else ({ ld with mappedFile := none }, none)
  else
    let got := if transmissionType = 'd' then ld.buf.getD [] else ld.mappedFile.getD []
    if got.length < ld.dataSz then abortLoad ld "ENODATA" (insufficientData got.length ld.dataSz)
    else ({ ld with data := got, loadingCompletedSuccessfully := true }, none)

/-! ### Adding an image -/

/-- What a handler that works on an image ends with: an error, or the image it returns, if any. -/
abbrev Handled := Except String (Option Nat)

/-- Put the load data of a failed transmission back. -/
def failedLoad (self : GraphicsManager) (result : LoadData × Option String) :
    GraphicsManager × Handled :=
  ({ self with currentlyLoading := result.1 }, .error (result.2.getD ""))

/-- So many bytes from the start of a buffer on; what lies behind the buffer is taken to be zero. -/
def bytesFrom (data : Bytes) (count : Nat) : Bytes :=
  (data ++ List.replicate (count - data.length) 0).take count

/-- The data of a frame as `add_to_cache` gets it. -/
def LoadData.frameData (ld : LoadData) : Bytes := bytesFrom ld.data ld.dataSz

/-- The end of `handle_add_command`, which makes the data received the root frame. -/
def storeRootFrame (answers : Answers) (self : GraphicsManager) (idx requiredSz : Nat) :
    GraphicsManager × Handled :=
  let ld := self.currentlyLoading
  let img := self.img idx
  let removed :=
    if img.rootFrame.id ≠ 0 then
      removeFromCache self { imageId := img.internalId, frameId := img.rootFrame.id }
    else self
  let frameId := u32 (img.frameIdCounter + 1)
  let placed := removed.modifyImg idx fun img =>
    { img with
      width := ld.width
      height := ld.height
      frameIdCounter := frameId
      rootFrame := { id := frameId, isOpaque := ld.isOpaque, is4byteAligned := ld.is4byteAligned
                     width := ld.width, height := ld.height } }
  if answers.cacheAccepts then
    let stored :=
      addToCache placed { imageId := img.internalId, frameId := frameId } ld.frameData
    ({ stored.modifyImg idx fun img =>
        { img with usedStorage := requiredSz, rootFrameDataLoaded := true } with
      usedStorage := self.usedStorage + requiredSz }, .ok (some idx))
  else failedLoad placed (abortLoad ld "ENOSPC" "Failed to store image data in disk cache")

/-- The reply when the data received is not what the dimensions ask for. -/
def sizeMismatch (ld : LoadData) (requiredSz : Nat) : String :=
  s!"Image dimensions: {ld.width}x{ld.height} do not match data size: {ld.dataSz}, " ++
    s!"expected size: {requiredSz}"

/-- The part of `handle_add_command` behind `process_image_data`. -/
def finishAdd (answers : Answers) (self : GraphicsManager) (idx : Nat) :
    GraphicsManager × Handled :=
  let ld := self.currentlyLoading
  let requiredSz := (if ld.isOpaque then 3 else 4) * ld.width * ld.height
  if ld.dataSz ≠ requiredSz then
    failedLoad self (abortLoad ld "EINVAL" (sizeMismatch ld requiredSz))
  else if ld.loadingCompletedSuccessfully then storeRootFrame answers self idx requiredSz
  else (self, .ok (some idx))

/-- The part of `handle_add_command` from `load_image_data` on. -/
def addPayload (decoders : Decoders) (answers : Answers) (self : GraphicsManager)
    (g : GraphicsCommand) (tt : Char) (fmt : Nat) (payload : Bytes) (idx : Nat) :
    GraphicsManager × Handled :=
  match loadImageData answers self.currentlyLoading g tt fmt payload with
  | (ld, some error) => failedLoad self (ld, some error)
  | (ld, none) =>
    if ld.loadingCompletedSuccessfully then
      match processImageData decoders { ld with loadingFor := {} } g tt fmt with
      | (ld, some error) => failedLoad self (ld, some error)
      | (ld, none) => finishAdd answers { self with currentlyLoading := ld } idx
    else ({ self with currentlyLoading := ld }, .ok none)

/-- `find_or_create_image` and what `handle_add_command` does to the image it finds or makes: the
manager, the image and its client id. -/
def prepareImage (answers : Answers) (self : GraphicsManager) (g : GraphicsCommand) (iid : Nat) :
    GraphicsManager × Nat × Nat :=
  let trimmed := removeImages self addTrimPredicate 0
  match if iid = 0 then none else imgByClientId trimmed iid with
  | some idx =>
    (trimmed.modifyImg idx fun img =>
      { img with
        rootFrameDataLoaded := false
        isDrawn := false
        currentFrameShownAt := 0
        refs := []
        atime := answers.now
        usedStorage := 0 }, idx, iid)
  | none =>
    -- the new image is in the list already when a free id is looked for
    let clientId :=
      if iid = 0 ∧ g.imageNumber ≠ 0 then
        getFreeClientId { trimmed with images := trimmed.images ++ [{}] }
      else iid
    let img : Image :=
      { internalId := trimmed.internalIdCounter
        clientId := clientId
        clientNumber := g.imageNumber
        atime := answers.now }
    ({ trimmed with
      images := trimmed.images ++ [img]
      internalIdCounter := trimmed.internalIdCounter + 1 }, trimmed.images.length, clientId)

/-- `handle_add_command`. -/
def handleAddCommand (decoders : Decoders) (answers : Answers) (self : GraphicsManager)
    (g : GraphicsCommand) (payload : Bytes) (iid : Nat) : GraphicsManager × Handled :=
  let tt := transmissionTypeOf g
  let fmt := formatOf g
  if tt = 'd' ∧ self.currentlyLoading.loadingFor.imageId ≠ 0 then
    let ld := initChunkedLoad self.currentlyLoading g
    let g := ld.startCommand
    match imgByInternalId self ld.loadingFor.imageId with
    | none =>
      failedLoad self (abortLoad { ld with loadingFor := {} } "EILSEQ"
        "More payload loading refers to non-existent image")
    | some idx =>
      addPayload decoders answers { self with currentlyLoading := ld } g
        (transmissionTypeOf g) (formatOf g) payload idx
  else
    let ld := { self.currentlyLoading with loadingFor := {} }
    if maxImageDimension < g.dataWidth ∨ maxImageDimension < g.dataHeight then
      failedLoad self (abortLoad ld "EINVAL" "Image too large")
    else
      let (prepared, idx, iid) := prepareImage answers self g iid
      match initializeLoadData g (prepared.img idx).internalId tt fmt 0 with
      | (ld, some error) => failedLoad prepared (ld, some error)
      | (ld, none) =>
        let ld := { ld with startCommand := { ld.startCommand with id := iid } }
        addPayload decoders answers { prepared with currentlyLoading := ld } g tt fmt payload idx

end Smelly
