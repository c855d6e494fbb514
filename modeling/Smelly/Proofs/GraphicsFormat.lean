/-
Module: Smelly.Proofs.GraphicsFormat
Purpose: The size of image data: what a transmission declares about it, and that the data that is
  complete and decoded has that size, whatever handler the chunks went through.
Trusted boundary: none
-/
import Smelly.Core.GraphicsAnimation

namespace Smelly

/-- What is known about data in a format before it arrives. -/
def LoadData.Declares (ld : LoadData) (fmt : Nat) : Prop :=
  (fmt = PNG ∧ ld.isOpaque = false) ∨
    (fmt ≠ PNG ∧ ld.dataSz = pixelSize ld.isOpaque * ld.width * ld.height)

/-- A transmission under way is one of declared data. -/
def LoadData.Declared (ld : LoadData) : Prop :=
  ld.loadingFor.imageId ≠ 0 → ld.Declares (formatOf ld.startCommand)

/-- The data has the size of its pixels, or is what the PNG decoder delivered. -/
def LoadData.Sized (decoders : Decoders) (ld : LoadData) : Prop :=
  ld.dataSz = pixelSize ld.isOpaque * ld.width * ld.height ∨
    (ld.isOpaque = false ∧ ∃ input image, decoders.inflatePng input = .ok image ∧
      ld.dataSz = image.decompressed.length ∧ ld.width = image.width ∧ ld.height = image.height)

/-- Data for nothing is declared. -/
theorem LoadData.declared_of_idle {ld : LoadData} (idle : ld.loadingFor.imageId = 0) :
    ld.Declared := fun loading => absurd idle loading

theorem abortLoad_declared {ld ld' : LoadData} {code message : String} {error : Option String}
    (h : abortLoad ld code message = (ld', error)) : ld'.Declared :=
  (Prod.mk.inj h).1 ▸ LoadData.declared_of_idle rfl

/-- The fields that say what the data is. -/
structure LoadData.SameFormat (before after : LoadData) : Prop where
  isOpaque : after.isOpaque = before.isOpaque
  dataSz : after.dataSz = before.dataSz
  width : after.width = before.width
  height : after.height = before.height
  startCommand : after.startCommand = before.startCommand

theorem LoadData.SameFormat.declares {before after : LoadData} (same : before.SameFormat after)
    {fmt : Nat} (h : before.Declares fmt) : after.Declares fmt := by
  unfold LoadData.Declares
  rw [same.isOpaque, same.dataSz, same.width, same.height]
  exact h

theorem makeRoom_same {ld ld' : LoadData} {fmt size : Nat} (h : makeRoom ld fmt size = (ld', none)) :
    ld.SameFormat ld' ∧ ld'.loadingFor = ld.loadingFor := by
  unfold makeRoom at h
  split at h
  · split at h
    · simp [abortLoad] at h
    · exact (Prod.mk.inj h).1 ▸ ⟨⟨rfl, rfl, rfl, rfl, rfl⟩, rfl⟩
  · exact (Prod.mk.inj h).1 ▸ ⟨⟨rfl, rfl, rfl, rfl, rfl⟩, rfl⟩

theorem makeRoom_error {ld ld' : LoadData} {fmt size : Nat} {error : String}
    (h : makeRoom ld fmt size = (ld', some error)) : ld'.Declared := by
  unfold makeRoom at h
  split at h
  · split at h
    · exact abortLoad_declared h
    · exact nomatch h
  · exact nomatch h

/-- `load_image_data` leaves the format alone when it succeeds. -/
theorem loadImageData_same {answers : Answers} {ld ld' : LoadData} {g : GraphicsCommand} {tt : Char}
    {fmt : Nat} {payload : Bytes} (h : loadImageData answers ld g tt fmt payload = (ld', none)) :
    ld.SameFormat ld' := by
  unfold loadImageData at h
  split at h
  · split at h
    · exact nomatch h
    · rename_i room roomEq
      obtain ⟨same, -⟩ := makeRoom_same roomEq
      split at h
      all_goals exact (Prod.mk.inj h).1 ▸ ⟨same.1, same.2, same.3, same.4, same.5⟩
  · split at h
    · split at h
      · exact nomatch h
      · split at h
        · exact nomatch h
        · exact nomatch h
        · exact (Prod.mk.inj h).1 ▸ ⟨rfl, rfl, rfl, rfl, rfl⟩
    · exact nomatch h

/-- Whether it succeeds or not, a declared transmission stays one. -/
theorem loadImageData_declared {answers : Answers} {ld : LoadData} {g : GraphicsCommand} {tt : Char}
    {fmt : Nat} {payload : Bytes} (declared : ld.Declares (formatOf ld.startCommand)) :
    (loadImageData answers ld g tt fmt payload).1.Declared := by
  cases result : loadImageData answers ld g tt fmt payload with
  | mk after error =>
    cases error with
    | none =>
      have same := loadImageData_same result
      intro _
      rw [same.startCommand]
      exact same.declares declared
    | some error =>
      unfold loadImageData at result
      split at result
      · split at result
        · rename_i roomEq
          exact (Prod.mk.inj result).1 ▸ makeRoom_error roomEq
        · split at result <;> exact nomatch result
      · split at result
        · split at result
          · exact abortLoad_declared result
          · split at result
            · exact (Prod.mk.inj result).1 ▸ LoadData.declared_of_idle rfl
            · exact (Prod.mk.inj result).1 ▸ fun _ => declared
            · exact nomatch result
        · exact abortLoad_declared result

/-- `initialize_load_data` declares data. -/
theorem initializeLoadData_declares {g : GraphicsCommand} {internalId fmt frameId : Nat} {tt : Char}
    {ld : LoadData} (h : initializeLoadData g internalId tt fmt frameId = (ld, none)) :
    ld.Declares fmt ∧ ld.startCommand = g := by
  have declared : ∀ {ld' : LoadData}, declareFormat
      { startCommand := g, width := g.dataWidth, height := g.dataHeight } g fmt = (ld', none) →
      ld'.Declares fmt ∧ ld'.startCommand = g := by
    intro ld' h
    unfold declareFormat at h
    split at h
    · rename_i isPng
      split at h
      · exact nomatch h
      · exact (Prod.mk.inj h).1 ▸ ⟨.inl ⟨isPng, rfl⟩, rfl⟩
    · rename_i notPng
      split at h
      · rename_i raw
        dsimp only at h
        split at h
        · exact nomatch h
        · refine (Prod.mk.inj h).1 ▸ ⟨.inr ⟨notPng, ?_⟩, rfl⟩
          rcases raw with rfl | rfl
          · show g.dataWidth * g.dataHeight * (RGB / 8) = 3 * g.dataWidth * g.dataHeight
            rw [Nat.mul_assoc 3, Nat.mul_comm 3]
            rfl
          · show g.dataWidth * g.dataHeight * (RGBA / 8) = 4 * g.dataWidth * g.dataHeight
            rw [Nat.mul_assoc 4, Nat.mul_comm 4]
            rfl
      · exact nomatch h
  unfold initializeLoadData at h
  split at h
  · exact nomatch h
  · rename_i ld' declaredEq
    obtain ⟨declares, command⟩ := declared declaredEq
    split at h
    all_goals exact (Prod.mk.inj h).1 ▸ ⟨declares, command⟩

theorem initializeLoadData_error {g : GraphicsCommand} {internalId fmt frameId : Nat} {tt : Char}
    {ld : LoadData} {error : String}
    (h : initializeLoadData g internalId tt fmt frameId = (ld, some error)) : ld.Declared := by
  unfold initializeLoadData at h
  split at h
  · rename_i declaredEq
    rw [← (Prod.mk.inj h).1]
    unfold declareFormat at declaredEq
    split at declaredEq
    · split at declaredEq
      · exact abortLoad_declared declaredEq
      · exact nomatch declaredEq
    · split at declaredEq
      · dsimp only at declaredEq
        split at declaredEq
        · exact abortLoad_declared declaredEq
        · exact nomatch declaredEq
      · exact abortLoad_declared declaredEq
  · dsimp only at h
    split at h <;> exact nomatch h

/-! ### Data that is complete -/

theorem inflateZlib_same {decoders : Decoders} {ld ld' : LoadData}
    (h : inflateZlib decoders ld = (ld', none)) : ld.SameFormat ld' := by
  unfold inflateZlib at h
  split at h
  · exact nomatch h
  · split at h
    · exact nomatch h
    · exact (Prod.mk.inj h).1 ▸ ⟨rfl, rfl, rfl, rfl, rfl⟩

theorem decompress_same {decoders : Decoders} {ld ld' : LoadData} {g : GraphicsCommand}
    (h : decompress decoders ld g = (ld', none)) : ld.SameFormat ld' := by
  unfold decompress at h
  split at h
  · exact inflateZlib_same h
  · split at h
    · exact (Prod.mk.inj h).1 ▸ ⟨rfl, rfl, rfl, rfl, rfl⟩
    · exact nomatch h

theorem inflatePng_sized {decoders : Decoders} {ld ld' : LoadData} (translucent : ld.isOpaque = false)
    (h : inflatePng decoders ld = (ld', none)) : ld'.Sized decoders := by
  unfold inflatePng at h
  split at h
  · exact nomatch h
  · rename_i image decoded
    exact (Prod.mk.inj h).1 ▸ .inr ⟨translucent, _, image, decoded, rfl, rfl, rfl⟩

/-- Decoded data has the size that was declared. -/
theorem processImageData_sized {decoders : Decoders} {ld ld' : LoadData} {g : GraphicsCommand}
    {tt : Char} {fmt : Nat} (declares : ld.Declares fmt)
    (h : processImageData decoders ld g tt fmt = (ld', none)) : ld'.Sized decoders := by
  have raw {ld : LoadData} (declares : ld.Declares fmt) (notPng : fmt ≠ PNG) :
      ld.dataSz = pixelSize ld.isOpaque * ld.width * ld.height := by
    rcases declares with ⟨isPng, -⟩ | ⟨-, size⟩
    · exact absurd isPng notPng
    · exact size
  unfold processImageData at h
  split at h
  · split at h
    · exact nomatch h
    · rename_i decompressed decompressEq
      have declares := (decompress_same decompressEq).declares declares
      split at h
      · exact nomatch h
      · rename_i decoded decodeEq
        have sized : decoded.Sized decoders := by
          split at decodeEq
          · rename_i isPng
            rcases declares with ⟨-, translucent⟩ | ⟨notPng, -⟩
            · exact inflatePng_sized translucent decodeEq
            · exact absurd isPng notPng
          · rename_i notPng
            exact (Prod.mk.inj decodeEq).1 ▸ .inl (raw declares notPng)
        dsimp only at h
        split at h
        · exact nomatch h
        · exact (Prod.mk.inj h).1 ▸ sized
  · rename_i plain
    have notPng : fmt ≠ PNG := fun isPng => plain (.inr isPng)
    dsimp only at h
    split at h
    · split at h
      · exact nomatch h
      · exact (Prod.mk.inj h).1 ▸ .inl (raw declares notPng)
    · split at h
      · exact nomatch h
      · exact (Prod.mk.inj h).1 ▸ .inl (raw declares notPng)

/-! ### Transmissions that are over -/

theorem inflateZlib_idle {decoders : Decoders} {ld : LoadData} (idle : ld.loadingFor = {}) :
    (inflateZlib decoders ld).1.loadingFor = {} := by
  unfold inflateZlib
  split
  · exact idle
  · split
    · exact idle
    · rfl

theorem decompress_idle {decoders : Decoders} {ld : LoadData} {g : GraphicsCommand}
    (idle : ld.loadingFor = {}) : (decompress decoders ld g).1.loadingFor = {} := by
  unfold decompress
  split
  · exact inflateZlib_idle idle
  · split
    · exact idle
    · rfl

theorem inflatePng_idle {decoders : Decoders} {ld : LoadData} (idle : ld.loadingFor = {}) :
    (inflatePng decoders ld).1.loadingFor = {} := by
  unfold inflatePng
  split
  · exact idle
  · rfl

/-- Data is decoded when nothing is loaded any more. -/
theorem processImageData_idle {decoders : Decoders} {ld : LoadData} {g : GraphicsCommand} {tt : Char}
    {fmt : Nat} (idle : ld.loadingFor = {}) :
    (processImageData decoders ld g tt fmt).1.loadingFor = {} := by
  unfold processImageData
  split
  · have decompressed := @decompress_idle decoders ld g idle
    split
    · rename_i decompressEq
      rwa [decompressEq] at decompressed
    · rename_i decompressEq
      rw [decompressEq] at decompressed
      have decoded {ld : LoadData} (idle : ld.loadingFor = {}) :
          (if fmt = PNG then inflatePng decoders ld else (ld, none)).1.loadingFor = {} := by
        split
        · exact inflatePng_idle idle
        · exact idle
      have decoded := decoded decompressed
      split
      · rename_i decodeEq
        rwa [decodeEq] at decoded
      · rename_i decodeEq
        rw [decodeEq] at decoded
        dsimp only
        split
        · rfl
        · exact decoded
  · dsimp only
    split
    · split
      · rfl
      · exact idle
    · split
      · rfl
      · exact idle

/-- The load data once the data of a transmission is complete and decoded: `load_image_data` and
`process_image_data` as both handlers call them. -/
def receiveData (decoders : Decoders) (answers : Answers) (ld : LoadData) (g : GraphicsCommand)
    (tt : Char) (fmt : Nat) (payload : Bytes) : Option LoadData :=
  match loadImageData answers ld g tt fmt payload with
  | (_, some _) => none
  | (ld, none) =>
    if ld.loadingCompletedSuccessfully then
      match processImageData decoders { ld with loadingFor := {} } g tt fmt with
      | (_, some _) => none
      | (ld, none) => if ld.loadingCompletedSuccessfully then some ld else none
    else none

theorem receiveData_sized {decoders : Decoders} {answers : Answers} {ld ld' : LoadData}
    {g : GraphicsCommand} {tt : Char} {fmt : Nat} {payload : Bytes} (declares : ld.Declares fmt)
    (h : receiveData decoders answers ld g tt fmt payload = some ld') : ld'.Sized decoders := by
  unfold receiveData at h
  split at h
  · exact nomatch h
  · rename_i loaded loadEq
    split at h
    · split at h
      · exact nomatch h
      · rename_i processed processEq
        split at h
        · have declares : LoadData.Declares { loaded with loadingFor := {} } fmt :=
            (loadImageData_same loadEq).declares declares
          exact Option.some.inj h ▸ processImageData_sized declares processEq
        · exact nomatch h
    · exact nomatch h

end Smelly
