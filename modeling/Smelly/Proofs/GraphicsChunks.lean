/-
Module: Smelly.Proofs.GraphicsChunks
Purpose: Image data that arrives in chunks: which chunks stay inside the buffer that was allocated
  for them, and that the buffer holds the payloads one after the other.
Trusted boundary: none
-/
import Smelly.Core.GraphicsLoad
import Smelly.Lib.Run

namespace Smelly

open Run

/-- A chunk of a direct transmission: the `m` key and the payload. -/
structure Chunk where
  more : Nat
  payload : Bytes
deriving DecidableEq, Repr

/-- A transmission under way, with the payloads accepted so far. -/
structure Transmission where
  ld : LoadData
  received : Bytes := []
deriving DecidableEq, Repr

/-- What the handlers do with the next chunk of a transmission: `INIT_CHUNKED_LOAD` and
`load_image_data`.  `none` when the chunk is refused or the transmission is complete. -/
def receiveChunk (answers : Answers) (t : Transmission) (chunk : Chunk) : Option Transmission :=
  if t.ld.loadingCompletedSuccessfully then none
  else
    let ld := initChunkedLoad t.ld { more := chunk.more }
    match loadImageData answers ld ld.startCommand (transmissionTypeOf ld.startCommand)
        (formatOf ld.startCommand) chunk.payload with
    | (ld, none) => some { ld := ld, received := t.received ++ chunk.payload }
    | (_, some _) => none

/-- The bytes written lie within the buffer. -/
def LoadData.InBounds (ld : LoadData) : Prop := ld.bufUsed ≤ ld.bufCapacity

/-- What every chunk leaves as it is: the transmission is direct, and the buffer holds the payloads
accepted so far. -/
structure Transmission.Direct (t : Transmission) : Prop where
  direct : transmissionTypeOf t.ld.startCommand = 'd'
  holds : t.ld.buf = some t.received

theorem makeRoom_spec {ld ld' : LoadData} {fmt size : Nat} (h : makeRoom ld fmt size = (ld', none)) :
    ld'.buf = ld.buf ∧ ld'.startCommand = ld.startCommand ∧
      ((ld.bufUsed + size ≤ ld.bufCapacity ∧ ld'.bufCapacity = ld.bufCapacity) ∨
        (ld.bufCapacity < ld.bufUsed + size ∧ ld.bufUsed + size ≤ maxDataSz ∧
          ld'.bufCapacity = min (2 * ld.bufCapacity) maxDataSz) ∨
        (ld.bufCapacity < ld.bufUsed ∧ size = 0 ∧ ld'.bufCapacity = ld.bufCapacity)) := by
  unfold makeRoom at h
  split at h
  · split at h
    · simp [abortLoad] at h
    · rename_i short fits
      rw [← (Prod.mk.inj h).1]
      exact ⟨rfl, rfl, .inr (.inl ⟨by omega, by omega, rfl⟩)⟩
  · rename_i enough
    rw [← (Prod.mk.inj h).1]
    refine ⟨rfl, rfl, ?_⟩
    rcases Nat.lt_or_ge ld.bufCapacity ld.bufUsed with overlay | inside
    · exact .inr (.inr ⟨overlay, by omega, rfl⟩)
    · exact .inl ⟨by omega, rfl⟩

/-- What an accepted chunk does to the buffer. -/
theorem receiveChunk_spec {answers : Answers} {t next : Transmission} {chunk : Chunk}
    (direct : t.Direct) (h : receiveChunk answers t chunk = some next) :
    next.Direct ∧ next.ld.bufUsed = t.ld.bufUsed + chunk.payload.length ∧
      ∃ ld fmt, makeRoom (initChunkedLoad t.ld { more := chunk.more }) fmt chunk.payload.length =
        (ld, none) ∧ next.ld.bufCapacity = ld.bufCapacity := by
  unfold receiveChunk at h
  split at h
  · simp at h
  · have direct' : transmissionTypeOf
        (initChunkedLoad t.ld { more := chunk.more }).startCommand = 'd' := direct.direct
    have holds' : (initChunkedLoad t.ld { more := chunk.more }).buf = some t.received :=
      direct.holds
    simp only [loadImageData, direct', if_true] at h
    cases room : makeRoom (initChunkedLoad t.ld { more := chunk.more })
        (formatOf (initChunkedLoad t.ld { more := chunk.more }).startCommand)
        chunk.payload.length with
    | mk ld error =>
      rw [room] at h
      cases error with
      | some error => simp at h
      | none =>
        obtain ⟨bufEq, commandEq, -⟩ := makeRoom_spec room
        have used : ld.buf = some t.received := bufEq.trans holds'
        have before : t.ld.bufUsed = t.received.length := by
          simp [LoadData.bufUsed, direct.holds]
        by_cases last :
          (initChunkedLoad t.ld { more := chunk.more }).startCommand.more = 0
        all_goals
          simp only [last, if_true, if_false, Option.some.injEq] at h
          subst h
          refine ⟨⟨?_, ?_⟩, ?_, ld, _, room, rfl⟩
          · exact (congrArg transmissionTypeOf commandEq).trans direct'
          · simp [used]
          · rw [before]
            simp [LoadData.bufUsed, used]

/-- An accepted chunk stays inside the buffer exactly when it fits in twice the capacity. -/
theorem receiveChunk_inBounds {answers : Answers} {t next : Transmission} {chunk : Chunk}
    (direct : t.Direct) (inside : t.ld.InBounds) (h : receiveChunk answers t chunk = some next) :
    next.ld.InBounds ↔ t.ld.bufUsed + chunk.payload.length ≤ 2 * t.ld.bufCapacity := by
  obtain ⟨-, used, ld, fmt, room, capacity⟩ := receiveChunk_spec direct h
  obtain ⟨-, -, cases⟩ := makeRoom_spec room
  have sameUsed : (initChunkedLoad t.ld { more := chunk.more }).bufUsed = t.ld.bufUsed := rfl
  have sameCapacity : (initChunkedLoad t.ld { more := chunk.more }).bufCapacity =
    t.ld.bufCapacity := rfl
  rw [sameUsed, sameCapacity] at cases
  unfold LoadData.InBounds at inside ⊢
  rw [used, capacity]
  omega

/-- A direct transmission starts with an empty buffer. -/
theorem initializeLoadData_direct {g : GraphicsCommand} {internalId fmt frameId : Nat}
    {ld : LoadData} (direct : transmissionTypeOf g = 'd')
    (h : initializeLoadData g internalId 'd' fmt frameId = (ld, none)) :
    Transmission.Direct { ld := ld } ∧ ld.InBounds := by
  have declared : ∀ {ld₀ ld₁ : LoadData}, declareFormat ld₀ g fmt = (ld₁, none) →
      ld₁.startCommand = ld₀.startCommand := by
    intro ld₀ ld₁ h
    unfold declareFormat at h
    split at h
    · split at h
      · simp [abortLoad] at h
      · rw [← (Prod.mk.inj h).1]
    · split at h
      · dsimp only at h
        split at h
        · simp [abortLoad] at h
        · rw [← (Prod.mk.inj h).1]
      · simp [abortLoad] at h
  unfold initializeLoadData at h
  split at h
  · simp at h
  · rename_i declaredEq
    rw [if_pos rfl] at h
    rw [← (Prod.mk.inj h).1]
    refine ⟨⟨?_, rfl⟩, Nat.zero_le _⟩
    exact (congrArg transmissionTypeOf (declared declaredEq)).trans direct

/-- Direct transmission: whatever is declared and however the data is cut, every chunk is written
inside the buffer, which then holds the payloads in order, exactly when no accepted chunk
needs more than twice the capacity of the buffer it finds. -/
theorem receiveChunk_inBounds_iff (answers : Answers) (g : GraphicsCommand)
    (internalId frameId : Nat) (direct : transmissionTypeOf g = 'd') (ld : LoadData)
    (accepted : initializeLoadData g internalId 'd' (formatOf g) frameId = (ld, none))
    (chunks : List Chunk) :
    (∀ t, Visits (receiveChunk answers) { ld := ld } chunks t →
        t.ld.InBounds ∧ t.ld.buf = some t.received) ↔
      ∀ t chunk, Takes (receiveChunk answers) { ld := ld } chunks t chunk →
        t.ld.bufUsed + chunk.payload.length ≤ 2 * t.ld.bufCapacity := by
  obtain ⟨start, empty⟩ := initializeLoadData_direct direct accepted
  have preserves : ∀ t chunk next, Transmission.Direct t →
      receiveChunk answers t chunk = some next → next.Direct :=
    fun t chunk next h stepEq => (receiveChunk_spec h stepEq).1
  have exactly : (∀ t, Visits (receiveChunk answers) { ld := ld } chunks t → t.ld.InBounds) ↔
      ∀ t chunk, Takes (receiveChunk answers) { ld := ld } chunks t chunk →
        t.ld.bufUsed + chunk.payload.length ≤ 2 * t.ld.bufCapacity :=
    visits_iff_takes Transmission.Direct (fun t => t.ld.InBounds)
      (fun t chunk => t.ld.bufUsed + chunk.payload.length ≤ 2 * t.ld.bufCapacity) preserves
      (fun t chunk next h inside stepEq => receiveChunk_inBounds h inside stepEq) start empty
      chunks
  constructor
  · intro h
    exact exactly.1 fun t visited => (h t visited).1
  · rintro h t ⟨before, isPrefix, runEq⟩
    exact ⟨exactly.2 h t ⟨before, isPrefix, runEq⟩,
      (run_invariant Transmission.Direct preserves start runEq).holds⟩

/-- A PNG image announced as one byte long, in a single chunk that no doubling makes room for. -/
theorem receiveChunk_overruns :
    ∃ ld t,
      initializeLoadData { format := 100, dataSz := 1 } 1 'd' PNG 0 = (ld, none) ∧
      Visits (receiveChunk {}) { ld := ld } [{ more := 1, payload := List.replicate 23 0 }] t ∧
      ¬ t.ld.InBounds := by
  refine ⟨_, _, rfl, ⟨[{ more := 1, payload := List.replicate 23 0 }], List.prefix_rfl, rfl⟩, ?_⟩
  simp [LoadData.InBounds, LoadData.bufUsed, initChunkedLoad]

/-- A PNG image in two chunks. -/
theorem receiveChunk_inBounds_twoChunks :
    (∀ t, Visits (receiveChunk {})
          { ld := (initializeLoadData { format := 100, dataSz := 4 } 1 'd' PNG 0).1 }
          [{ more := 1, payload := [1, 2] }, { more := 0, payload := [3, 4] }] t →
        t.ld.InBounds ∧ t.ld.buf = some t.received) ↔
      ∀ t chunk, Takes (receiveChunk {})
          { ld := (initializeLoadData { format := 100, dataSz := 4 } 1 'd' PNG 0).1 }
          [{ more := 1, payload := [1, 2] }, { more := 0, payload := [3, 4] }] t chunk →
        t.ld.bufUsed + chunk.payload.length ≤ 2 * t.ld.bufCapacity :=
  receiveChunk_inBounds_iff {} { format := 100, dataSz := 4 } 1 0 rfl _ rfl _

end Smelly
