/-
Module: Smelly.Proofs.DiskCacheCoherence
Purpose: Which runs of both threads of the disk cache read back, for every key, the bytes that
  were added last, and have them at the recorded position of every entry marked as written.
Trusted boundary: none
-/
import Mathlib.Logic.Function.Basic
import Smelly.Proofs.DiskCacheLayout

namespace Smelly

/-- A disk cache together with the bytes of the most recent add of every key. -/
structure TracedCache where
  cache : DiskCache := {}
  latest : Bytes → Option Bytes := fun _ => none

/-- What a step makes of the most recent adds.  An add that fails does not count. -/
def TracedCache.latestAfter (traced : TracedCache) : CacheStep → Bytes → Option Bytes
  | .add key data randomBytes =>
    match (addToDiskCache traced.cache key data randomBytes).1 with
    | .ok _ => Function.update traced.latest key (some data)
    | .error _ => traced.latest
  | .remove key => Function.update traced.latest key none
  | .clear => fun _ => none
  | _ => traced.latest

/-- One step of either thread, keeping account of the adds. -/
def TracedCache.step (traced : TracedCache) (step : CacheStep) : Option TracedCache :=
  (traced.cache.step step).map fun cache => { cache, latest := traced.latestAfter step }

/-- Every key that is present reads back as it was added last. -/
def TracedCache.ReadsBack (traced : TracedCache) : Prop :=
  ∀ key storeInRam fresh, (traced.cache.find key).isSome →
    ∃ data, traced.latest key = some data ∧
      (readFromDiskCache traced.cache key storeInRam fresh).1 = .ok data

/-- Every entry marked as written has the bytes added last at its position in the file. -/
def TracedCache.WrittenOut (traced : TracedCache) : Prop :=
  ∀ s ∈ traced.cache.entries, s.writtenToDisk = true → 0 ≤ s.posInCacheFile ∧
    ∃ data, traced.latest s.hashKey = some data ∧ s.dataSz = data.length ∧
      xorData s.encryptionKey (traced.cache.bytesOf s) = data

/-- The condition under which a step keeps the cache coherent.  A key that is being written may
only be added again with the bytes that are being written, the system must not refuse a write,
and the layout must be kept. -/
def CacheStep.KeepsCoherence (cache : DiskCache) : CacheStep → Prop
  | .add key data _ =>
    (cache.writer.InFlight → cache.currentlyWriting.hashKey = key →
      ∃ s, cache.find key = some s ∧
        cache.currentlyWriting.data = some (xorData s.encryptionKey data)) ∧
    ∀ s, cache.find key = some s → 0 ≤ s.posInCacheFile → s.dataSz = 0 → data = []
  | .write accepted => ∀ written, cache.writer = .writing written →
      (cache.currentlyWriting.posInCacheFile < 0 → accepted ≠ none) ∧
      (written < cache.currentlyWriting.dataSz → accepted ≠ none ∧ accepted ≠ some 0)
  | step => step.KeepsLayout cache

/-- What the cache knows of an entry whose key was last added with `data`. -/
structure HoldsLatest (cache : DiskCache) (s : CacheEntry) (data : Bytes) : Prop where
  size : s.dataSz = data.length
  memory : ∀ bytes, s.data = some bytes → bytes = data
  onDisk : s.writtenToDisk = true →
    0 ≤ s.posInCacheFile ∧ xorData s.encryptionKey (cache.bytesOf s) = data
  inFlight : cache.writer.InFlight → s.hashKey = cache.currentlyWriting.hashKey →
    cache.currentlyWriting.data = some (xorData s.encryptionKey data)

/-- The part of the data in flight that has been written is in the file. -/
def DiskCache.PartWritten (cache : DiskCache) : Prop :=
  match cache.writer with
  | .writing written => 0 ≤ cache.currentlyWriting.posInCacheFile →
      FileBytes.read cache.file cache.currentlyWriting.posInCacheFile.toNat written =
        (cache.currentlyWriting.data.getD []).take written
  | .retiring => 0 ≤ cache.currentlyWriting.posInCacheFile ∧
      FileBytes.read cache.file cache.currentlyWriting.posInCacheFile.toNat
        cache.currentlyWriting.dataSz = cache.currentlyWriting.data.getD []
  | _ => True

/-- What holds between any two steps of a coherent run. -/
structure TracedCache.Coherent (traced : TracedCache) : Prop where
  layout : traced.cache.Layout
  entries : ∀ s ∈ traced.cache.entries, ∃ data, traced.latest s.hashKey = some data ∧
    HoldsLatest traced.cache s data
  partWritten : traced.cache.PartWritten

/-! ### Encryption -/

theorem keyIndex (i : Nat) : i % 64 < 64 := Nat.mod_lt i (by decide)

theorem xorData_getElem? (key : Vector UInt8 64) (data : Bytes) (i : Nat) :
    (xorData key data)[i]? = data[i]?.map fun byte => byte ^^^ getElem key (i % 64) (keyIndex i) := by
  simp only [xorData, List.getElem?_map, List.getElem?_zipIdx, Nat.zero_add, Option.map_map]
  rfl

/-- Decrypting what was encrypted. -/
theorem xorData_xorData (key : Vector UInt8 64) (data : Bytes) :
    xorData key (xorData key data) = data := by
  refine List.ext_getElem? fun i => ?_
  rw [xorData_getElem?, xorData_getElem?]
  cases data[i]? with
  | none => rfl
  | some byte =>
    simp [UInt8.xor_assoc]

/-! ### Reading -/

/-- The file has all the bytes of an entry on disk. -/
theorem readFromCacheEntry_of_written {cache : DiskCache} (laid : LaidOut cache.entries cache.file)
    {s : CacheEntry} (hs : s ∈ cache.entries) (written : s.writtenToDisk = true)
    (placed : 0 ≤ s.posInCacheFile) {dest : Bytes} (size : dest.length = s.dataSz) :
    readFromCacheEntry cache s dest = (cache.bytesOf s, none) := by
  have whole : (FileBytes.read cache.file s.posInCacheFile.toNat s.dataSz).length = s.dataSz := by
    rw [FileBytes.length_read]
    by_cases empty : s.dataSz = 0
    · omega
    · have := laid.ends s hs written ⟨placed, by omega⟩
      omega
  unfold FileBytes.read at whole
  unfold readFromCacheEntry readFromCacheFile DiskCache.bytesOf FileBytes.read
  rw [if_neg (Int.not_lt.2 placed), size]
  simp only [whole, Nat.lt_irrefl, if_false]
  rw [← size, List.drop_length, List.append_nil]

theorem length_dest (fresh : Bytes) (n : Nat) :
    ((fresh ++ List.replicate n 0).take n).length = n := by
  rw [List.length_take, List.length_append, List.length_replicate]
  omega

/-- Whatever place the data of an entry is read from, they are the data that were added. -/
theorem HoldsLatest.entryData {cache : DiskCache} (h : cache.Layout) {s : CacheEntry} {data : Bytes}
    (hs : s ∈ cache.entries) (holds : HoldsLatest cache s data) (fresh : Bytes) :
    cache.entryData s s.hashKey fresh = (data, none) := by
  have fromFile : s.writtenToDisk = true → readFromCacheEntry cache s
      ((fresh ++ List.replicate s.dataSz 0).take s.dataSz) = (cache.bytesOf s, none) ∧
      xorData s.encryptionKey (cache.bytesOf s) = data := fun written =>
    ⟨readFromCacheEntry_of_written h.laid hs written (holds.onDisk written).1 (length_dest _ _),
      (holds.onDisk written).2⟩
  unfold DiskCache.entryData
  cases hdata : s.data with
  | some bytes =>
    obtain rfl := holds.memory bytes hdata
    simp only [holds.size, List.take_length]
  | none =>
    have written : ¬ (cache.writer.InFlight ∧ s.hashKey = cache.currentlyWriting.hashKey) →
        s.writtenToDisk = true := fun elsewhere => by
      by_contra dirty
      exact elsewhere (h.consistent.dirtyData s hs (by simpa using dirty) hdata)
    cases hwriting : cache.currentlyWriting.data with
    | none =>
      have idle : ¬ cache.writer.InFlight := fun flying => by
        obtain ⟨bytes, hbytes, -⟩ := h.sized.inFlight flying
        simp [hwriting] at hbytes
      obtain ⟨read, decrypted⟩ := fromFile (written fun both => idle both.1)
      simp only [read, decrypted]
    | some bytes =>
      dsimp only
      split
      · rename_i own
        have encrypted := holds.inFlight (h.inFlight_of_data hwriting) own.symm
        obtain rfl := Option.some.inj (hwriting.symm.trans encrypted)
        rw [List.take_of_length_le (by rw [xorData_length, holds.size]), xorData_xorData]
      · rename_i other
        obtain ⟨read, decrypted⟩ := fromFile (written fun both => other both.2.symm)
        simp only [read, decrypted]

theorem TracedCache.Coherent.readsBack {traced : TracedCache} (h : traced.Coherent) :
    traced.ReadsBack := by
  intro key storeInRam fresh present
  obtain ⟨s, found⟩ := Option.isSome_iff_exists.1 present
  have hs := Keyed.find_mem found
  obtain rfl := Keyed.find_key found
  obtain ⟨data, latest, holds⟩ := h.entries s hs
  refine ⟨data, latest, ?_⟩
  unfold readFromDiskCache
  rw [if_neg (Nat.not_lt.2 (h.layout.consistent.keyShort s hs)), found]
  simp only [holds.entryData h.layout hs fresh]

theorem TracedCache.Coherent.writtenOut {traced : TracedCache} (h : traced.Coherent) :
    traced.WrittenOut := by
  intro s hs written
  obtain ⟨data, latest, holds⟩ := h.entries s hs
  exact ⟨(holds.onDisk written).1, data, latest, holds.size, (holds.onDisk written).2⟩

/-! ### The calls of the main thread -/

theorem keepsLayout_of_keepsCoherence {cache : DiskCache} (h : cache.Layout) {step : CacheStep}
    (fine : step.KeepsCoherence cache) : step.KeepsLayout cache := by
  cases step with
  | add key data randomBytes =>
    refine ⟨fun flying own => ?_, fine.2⟩
    obtain ⟨s, -, same⟩ := fine.1 flying own
    obtain ⟨bytes, hbytes, size⟩ := h.sized.inFlight flying
    obtain rfl := Option.some.inj (hbytes.symm.trans same)
    rw [xorData_length] at size
    exact Nat.le_of_eq size
  | write accepted => exact trivial
  | _ => exact fine

/-- An entry keeps what is known of it when its data is dropped or read, and the writer thread
and the file stay as they are. -/
theorem HoldsLatest.of_entry {cache next : DiskCache} {s s' : CacheEntry} {data : Bytes}
    (h : HoldsLatest cache s data) (same : SamePlace s s')
    (sameKey : s'.encryptionKey = s.encryptionKey)
    (memory : ∀ bytes, s'.data = some bytes → bytes = data) (file : next.file = cache.file)
    (flight : next.writer.InFlight → s.hashKey = next.currentlyWriting.hashKey →
      next.currentlyWriting.data = some (xorData s.encryptionKey data)) :
    HoldsLatest next s' data where
  size := same.size.symm.trans h.size
  memory := memory
  onDisk := fun written => by
    obtain ⟨placed, bytes⟩ := h.onDisk (same.written.trans written)
    refine ⟨same.position ▸ placed, ?_⟩
    rw [DiskCache.bytesOf, file, ← same.position, ← same.size, sameKey]
    exact bytes
  inFlight := fun flying own => by
    rw [sameKey]
    exact flight flying (same.hashKey.trans own)

/-- A main thread call leaves the written part of the data in flight in the file. -/
theorem DiskCache.PartWritten.of_same {cache next : DiskCache} (h : cache.PartWritten)
    (file : next.file = cache.file) (writer : next.writer = cache.writer)
    (currentlyWriting : next.currentlyWriting = cache.currentlyWriting) : next.PartWritten := by
  unfold DiskCache.PartWritten at h ⊢
  rw [file, writer, currentlyWriting]
  exact h

/-- Every entry after the step is one from before, without new data. -/
def Trims (cache next : DiskCache) : Prop :=
  ∀ s' ∈ next.entries, ∃ s ∈ cache.entries, SamePlace s s' ∧
    s'.encryptionKey = s.encryptionKey ∧ (s'.data = s.data ∨ s'.data = none)

theorem Trims.of_subset {cache next : DiskCache} (h : next.entries ⊆ cache.entries) :
    Trims cache next := fun s hs => ⟨s, h hs, .refl s, rfl, .inl rfl⟩

/-- The entries after a call that only drops entries or data. -/
theorem TracedCache.Coherent.trimmed {traced : TracedCache} (h : traced.Coherent)
    {next : DiskCache} {latest : Bytes → Option Bytes} (trims : Trims traced.cache next)
    (file : next.file = traced.cache.file) (writer : next.writer = traced.cache.writer)
    (currentlyWriting : next.currentlyWriting = traced.cache.currentlyWriting)
    (same : ∀ s ∈ next.entries, latest s.hashKey = traced.latest s.hashKey) :
    ∀ s ∈ next.entries, ∃ data, latest s.hashKey = some data ∧ HoldsLatest next s data := by
  intro s' hs'
  obtain ⟨s, hs, place, key, memory⟩ := trims s' hs'
  obtain ⟨data, latestEq, holds⟩ := h.entries s hs
  refine ⟨data, (same s' hs').trans (place.hashKey ▸ latestEq),
    holds.of_entry place key (fun bytes hbytes => ?_) file ?_⟩
  · rcases memory with kept | dropped
    · exact holds.memory bytes (kept ▸ hbytes)
    · simp [dropped] at hbytes
  · rw [writer, currentlyWriting]
    exact holds.inFlight

/-- What adding does: nothing, or there is a new entry, or the data of an entry is replaced. -/
inductive Added (cache : DiskCache) (key data : Bytes) : Except CacheError Unit × DiskCache → Prop
  | refused (error : CacheError) : Added cache key data (.error error, cache)
  | created (random : Vector UInt8 64) (total : Nat) (absent : cache.find key = none) :
      Added cache key data (.ok (), { cache with
        entries := cache.entries ++
          [{ hashKey := key, data := some data, dataSz := data.length, encryptionKey := random }]
        totalSize := total })
  | replaced (total : Nat) (present : (cache.find key).isSome) :
      Added cache key data (.ok (), { cache with
        entries := Keyed.update CacheEntry.hashKey key
          (fun s => { s with data := some data, dataSz := data.length, writtenToDisk := false })
          cache.entries
        totalSize := total })

theorem addToDiskCache_added (cache : DiskCache) (key data : Bytes)
    (randomBytes : Option (Vector UInt8 64)) :
    Added cache key data (addToDiskCache cache key data randomBytes) := by
  unfold addToDiskCache
  split
  · exact .refused _
  · cases found : cache.find key with
    | none =>
      cases randomBytes with
      | none => exact .refused _
      | some random => exact .created random _ found
    | some old => exact .replaced _ (by rw [found]; rfl)

theorem TracedCache.Coherent.add {traced : TracedCache} (h : traced.Coherent)
    {key data : Bytes} {randomBytes : Option (Vector UInt8 64)}
    (fine : CacheStep.KeepsCoherence traced.cache (.add key data randomBytes)) :
    let next := (addToDiskCache traced.cache key data randomBytes).2
    (∀ s ∈ next.entries, ∃ bytes,
        traced.latestAfter (.add key data randomBytes) s.hashKey = some bytes ∧
        HoldsLatest next s bytes) ∧ next.PartWritten := by
  have flight : traced.cache.writer.InFlight →
      key = traced.cache.currentlyWriting.hashKey → ∃ s, traced.cache.find key = some s ∧
        traced.cache.currentlyWriting.data = some (xorData s.encryptionKey data) :=
    fun flying own => fine.1 flying own.symm
  -- an entry under another key
  have others : ∀ (next : DiskCache), next.file = traced.cache.file →
      next.writer = traced.cache.writer →
      next.currentlyWriting = traced.cache.currentlyWriting → ∀ s ∈ traced.cache.entries,
      s.hashKey ≠ key → ∃ bytes, Function.update traced.latest key (some data) s.hashKey =
        some bytes ∧ HoldsLatest next s bytes := by
    intro next file writer currentlyWriting s hs other
    obtain ⟨bytes, latest, holds⟩ := h.entries s hs
    refine ⟨bytes, (Function.update_of_ne other _ _).trans latest,
      holds.of_entry (.refl s) rfl holds.memory file ?_⟩
    rw [writer, currentlyWriting]
    exact holds.inFlight
  have added := addToDiskCache_added traced.cache key data randomBytes
  simp only [TracedCache.latestAfter]
  generalize addToDiskCache traced.cache key data randomBytes = result at added ⊢
  cases added with
  | refused error => exact ⟨h.entries, h.partWritten⟩
  | created random total absent =>
    refine ⟨fun s hs => ?_, h.partWritten.of_same rfl rfl rfl⟩
    rcases List.mem_append.1 hs with old | new
    · refine others { traced.cache with entries := _, totalSize := total } rfl rfl rfl s old
        fun same => ?_
      exact Keyed.find_none absent (same ▸ List.mem_map_of_mem old)
    · obtain rfl := List.mem_singleton.1 new
      refine ⟨data, Function.update_self _ _ _, rfl,
        fun bytes hbytes => (Option.some.inj hbytes).symm, fun written => by simp at written,
        fun flying own => ?_⟩
      obtain ⟨s, present, -⟩ := flight flying own
      simp [absent] at present
  | replaced total present =>
    refine ⟨fun s hs => ?_, h.partWritten.of_same rfl rfl rfl⟩
    rcases Keyed.mem_update hs with ⟨kept, other⟩ | ⟨old, hold, hkey, rfl⟩
    · exact others { traced.cache with entries := _, totalSize := total } rfl rfl rfl s kept other
    · refine ⟨data, (congrArg _ hkey).trans (Function.update_self _ _ _), rfl,
        fun bytes hbytes => (Option.some.inj hbytes).symm, fun written => by simp at written,
        fun flying own => ?_⟩
      obtain ⟨s, found, same⟩ := flight flying (hkey.symm.trans own)
      have known := Keyed.find_of_mem h.layout.consistent.distinct hold
      rw [hkey] at known
      obtain rfl := Option.some.inj (known.symm.trans found)
      exact same

theorem TracedCache.Coherent.get {traced : TracedCache} (h : traced.Coherent) (key : Bytes)
    (storeInRam : Bool) (fresh : Bytes) :
    let next := (readFromDiskCache traced.cache key storeInRam fresh).2
    (∀ s ∈ next.entries, ∃ bytes, traced.latest s.hashKey = some bytes ∧ HoldsLatest next s bytes) ∧
      next.PartWritten := by
  unfold readFromDiskCache
  split
  · exact ⟨h.entries, h.partWritten⟩
  · split
    · exact ⟨h.entries, h.partWritten⟩
    · rename_i found
      have hkey := Keyed.find_key found
      dsimp only
      split
      · refine ⟨fun s hs => ?_, h.partWritten.of_same rfl rfl rfl⟩
        rcases Keyed.mem_update hs with ⟨kept, other⟩ | ⟨old, hold, keyOld, rfl⟩
        · obtain ⟨bytes, latest, holds⟩ := h.entries s kept
          exact ⟨bytes, latest, holds.of_entry (.refl s) rfl holds.memory rfl holds.inFlight⟩
        · obtain rfl := List.inj_on_of_nodup_map h.layout.consistent.distinct hold
            (Keyed.find_mem found) (keyOld.trans hkey.symm)
          obtain ⟨bytes, latest, holds⟩ := h.entries old hold
          have read := holds.entryData h.layout hold fresh
          rw [hkey] at read
          refine ⟨bytes, latest, holds.of_entry ⟨rfl, rfl, rfl, rfl⟩ rfl (fun stored hstored => ?_)
            rfl holds.inFlight⟩
          rw [read] at hstored
          exact (Option.some.inj hstored).symm
      · exact ⟨h.entries, h.partWritten⟩

/-! ### The steps of the writer thread -/

/-- Every entry holds the data added last. -/
def AllHold (cache : DiskCache) (latest : Bytes → Option Bytes) : Prop :=
  ∀ s ∈ cache.entries, ∃ data, latest s.hashKey = some data ∧ HoldsLatest cache s data

/-- After the search the data taken from an entry is in flight, encrypted with its key. -/
theorem Searched.allHold {cache next : DiskCache} {latest : Bytes → Option Bytes}
    (searched : Searched cache next) (distinct : Keyed.Distinct CacheEntry.hashKey cache.entries)
    (h : AllHold cache latest) :
    AllHold next latest ∧ next.PartWritten := by
  cases searched with
  | clean all =>
    have grounded : ¬ (if cache.entries.isEmpty then WriterState.emptying
        else WriterState.looping).InFlight := by
      split <;> exact id
    refine ⟨fun s hs => ?_, ?_⟩
    · obtain ⟨data, latestEq, holds⟩ := h s hs
      exact ⟨data, latestEq, holds.of_entry (.refl s) rfl holds.memory rfl
        fun flying => absurd flying grounded⟩
    · cases cache.entries.isEmpty <;> trivial
  | taken s data entries position known dirty hasData perm free =>
    refine ⟨fun e' he' => ?_, fun _ => by rw [FileBytes.read_zero, List.take_zero]⟩
    rcases Keyed.mem_update (perm.mem_iff.1 he') with ⟨old, other⟩ | ⟨old, hold, hkey, rfl⟩
    · obtain ⟨bytes, latestEq, holds⟩ := h e' old
      exact ⟨bytes, latestEq, holds.of_entry (.refl e') rfl holds.memory rfl
        fun _ own => absurd own other⟩
    · obtain rfl := List.inj_on_of_nodup_map distinct hold known hkey
      obtain ⟨bytes, latestEq, holds⟩ := h old hold
      obtain rfl := holds.memory data hasData
      exact ⟨data, latestEq, holds.of_entry ⟨rfl, rfl, rfl, rfl⟩ rfl
        (fun stored hstored => by simp at hstored) rfl fun _ _ => rfl⟩

/-- Moved entries have their bytes in the new file. -/
theorem setOffsets_allHold {cache : DiskCache} {latest : Bytes → Option Bytes} {final : Bytes}
    {moved : List DefragEntry} {placed : List (DefragEntry × Nat)}
    (moves : MovesAll cache.entries moved) (movedEq : placed.map Prod.fst = moved)
    (copied : Copied cache.file [] final placed)
    (distinct : Keyed.Distinct CacheEntry.hashKey
      (setOffsets cache.entries (placed.map fun p => (p.1.hashKey, p.2))))
    (idle : ¬ cache.writer.InFlight) (h : AllHold cache latest) :
    AllHold { cache with
      file := final
      entries := setOffsets cache.entries (placed.map fun p => (p.1.hashKey, p.2)) } latest := by
  intro s' hs'
  have origin : ∃ s ∈ cache.entries, s'.hashKey = s.hashKey ∧ s'.dataSz = s.dataSz ∧
      s'.data = s.data ∧ s'.writtenToDisk = s.writtenToDisk ∧
      s'.encryptionKey = s.encryptionKey := by
    obtain ⟨s, hs, ⟨offset, -, rfl⟩ | ⟨-, rfl⟩⟩ := mem_setOffsets hs'
    · exact ⟨s, hs, rfl, rfl, rfl, rfl, rfl⟩
    · exact ⟨s', hs, rfl, rfl, rfl, rfl, rfl⟩
  obtain ⟨s, hs, sameKey, sameSize, sameData, sameWritten, sameSecret⟩ := origin
  obtain ⟨data, latestEq, holds⟩ := h s hs
  refine ⟨data, sameKey ▸ latestEq, sameSize.trans holds.size,
    fun bytes hbytes => holds.memory bytes (sameData ▸ hbytes), fun written => ?_,
    fun flying => absurd flying idle⟩
  obtain ⟨onDisk, bytes⟩ := holds.onDisk (sameWritten ▸ written)
  obtain ⟨position, hmoved, read⟩ :=
    setOffsets_bytes moves movedEq copied hs ⟨sameWritten ▸ written, onDisk⟩
  obtain rfl := List.inj_on_of_nodup_map distinct hs' hmoved sameKey
  refine ⟨Int.natCast_nonneg _, ?_⟩
  rw [DiskCache.bytesOf] at bytes ⊢
  rw [← read] at bytes
  exact bytes

/-- Writing to a range that is free of the entries on disk leaves their bytes as they are, and
extends the part that has been written. -/
theorem Wrote.allHold {cache next : DiskCache} {latest : Bytes → Option Bytes} {written : Nat}
    {accepted : Option Nat} (wrote : Wrote cache written accepted next) (layout : cache.Layout)
    (hwriter : cache.writer = .writing written)
    (fine : CacheStep.KeepsCoherence cache (.write accepted)) (h : AllHold cache latest)
    (part : cache.PartWritten) : AllHold next latest ∧ next.PartWritten := by
  have flying : cache.writer.InFlight := by rw [hwriter]; trivial
  obtain ⟨seeks, accepts⟩ := fine written hwriter
  obtain ⟨bytes, hbytes, size⟩ := layout.sized.inFlight flying
  have targets := layout.targets flying
  have free := targets.target_free layout.laid
  have lowest := cache.target_nonneg
  have state := layout.writer
  unfold DiskCache.WriterLayout at state
  unfold DiskCache.PartWritten at part
  rw [hwriter] at state part
  obtain ⟨-, within, unplaced, inFile⟩ := state
  have inFile := DiskCache.target_inFile unplaced inFile
  have sofar : FileBytes.read cache.file cache.target.toNat written = bytes.take written := by
    unfold DiskCache.target
    split
    · rw [unplaced ‹_›, FileBytes.read_zero, List.take_zero]
    · rw [part (by omega), hbytes, Option.getD_some]
  cases wrote with
  | failed refused =>
    rcases refused with ⟨negative, none⟩ | ⟨left, none | zero⟩
    · exact absurd none (seeks negative)
    · exact absurd none (accepts left).1
    · exact absurd zero (accepts left).2
  | finished whole =>
    refine ⟨fun s hs => ?_, lowest, ?_⟩
    · obtain ⟨data, latestEq, holds⟩ := h s hs
      exact ⟨data, latestEq, holds.of_entry (.refl s) rfl holds.memory rfl
        fun _ => holds.inFlight flying⟩
    · have all : written = cache.currentlyWriting.dataSz := Nat.le_antisymm within whole
      rw [← all, sofar, hbytes, Option.getD_some, List.take_of_length_le (by omega)]
  | progressed n fits =>
    have length : (((cache.currentlyWriting.data.getD []).drop written).take n).length = n := by
      rw [hbytes, Option.getD_some, List.length_take, List.length_drop]
      omega
    refine ⟨fun s hs => ?_, fun _ => ?_⟩
    · obtain ⟨data, latestEq, holds⟩ := h s hs
      refine ⟨data, latestEq, holds.size, holds.memory, fun isWritten => ?_,
        fun _ => holds.inFlight flying⟩
      obtain ⟨placed, decrypted⟩ := holds.onDisk isWritten
      refine ⟨placed, ?_⟩
      have same : DiskCache.bytesOf { cache with
          file := pwriteAt cache.file (cache.target.toNat + written)
            (((cache.currentlyWriting.data.getD []).drop written).take n) } s =
          cache.bytesOf s := by
        unfold DiskCache.bytesOf
        by_cases empty : s.dataSz = 0
        · rw [empty, FileBytes.read_zero, FileBytes.read_zero]
        · have other : s.hashKey ≠ cache.currentlyWriting.hashKey := fun own => by
            have dirty := (targets.own s hs own).1
            rw [isWritten] at dirty
            exact absurd dirty (by simp)
          have outside := free.onDisk s (List.mem_filter.2 ⟨hs, by simpa using other⟩) isWritten
            ⟨placed, by omega⟩
          have ends := layout.laid.ends s hs isWritten ⟨placed, by omega⟩
          exact FileBytes.read_write_frame (by rw [length]; omega) (by omega)
      exact (congrArg _ same).trans decrypted
    · have extended : FileBytes.read
          (FileBytes.write 0 cache.file (cache.target.toNat + written)
            (((cache.currentlyWriting.data.getD []).drop written).take n)) cache.target.toNat
          (written + (((cache.currentlyWriting.data.getD []).drop written).take n).length) = _ :=
        FileBytes.read_write_extend rfl (by omega)
      rw [length] at extended
      rw [pwriteAt_eq_write, extended, sofar, hbytes, Option.getD_some, ← List.take_add]

/-- The entry that is marked as written has its bytes where they were written. -/
theorem retire_allHold {cache : DiskCache} {latest : Bytes → Option Bytes}
    (layout : cache.Layout) (hwriter : cache.writer = .retiring) (h : AllHold cache latest)
    (part : cache.PartWritten) : AllHold (retireCurrentlyWriting cache) latest := by
  have flying : cache.writer.InFlight := by rw [hwriter]; trivial
  obtain ⟨bytes, hbytes, size⟩ := layout.sized.inFlight flying
  unfold DiskCache.PartWritten at part
  rw [hwriter] at part
  obtain ⟨placed, read⟩ := part
  rw [hbytes, Option.getD_some] at read
  intro s hs
  rcases Keyed.mem_update hs with ⟨kept, other⟩ | ⟨old, hold, hkey, rfl⟩
  · obtain ⟨data, latestEq, holds⟩ := h s kept
    exact ⟨data, latestEq, holds.of_entry (.refl s) rfl holds.memory rfl
      fun flying => absurd flying id⟩
  · obtain ⟨data, latestEq, holds⟩ := h old hold
    have encrypted := holds.inFlight flying hkey
    obtain rfl := Option.some.inj (hbytes.symm.trans encrypted)
    rw [xorData_length] at size
    refine ⟨data, latestEq, holds.size, holds.memory, fun _ => ⟨placed, ?_⟩,
      fun flying => absurd flying id⟩
    have stored : DiskCache.bytesOf (retireCurrentlyWriting cache)
        { old with
          posInCacheFile := cache.currentlyWriting.posInCacheFile } =
        xorData old.encryptionKey data := by
      rw [← read, ← size, ← holds.size]
      rfl
    exact (congrArg _ stored).trans (xorData_xorData _ _)

/-! ### Runs -/

/-- One step under the condition keeps the cache coherent. -/
theorem tracedCacheStep_coherent {traced after : TracedCache} (h : traced.Coherent)
    {step : CacheStep} (fine : step.KeepsCoherence traced.cache)
    (hstep : traced.step step = some after) : after.Coherent := by
  obtain ⟨next, stepEq, rfl⟩ := Option.map_eq_some_iff.1 hstep
  have layoutFine := keepsLayout_of_keepsCoherence h.layout fine
  have layout := diskCacheStep_layout h.layout layoutFine stepEq
  have distinct := h.layout.consistent.distinct
  have ofBoth : AllHold next (traced.latestAfter step) ∧ next.PartWritten →
      TracedCache.Coherent { cache := next, latest := traced.latestAfter step } :=
    fun both => ⟨layout, both.1, both.2⟩
  refine ofBoth ?_
  cases step with
  | add key data randomBytes =>
    obtain rfl := Option.some.inj stepEq
    exact h.add fine
  | remove key =>
    obtain rfl := Option.some.inj stepEq
    have others : ∀ s ∈ (removeFromDiskCache traced.cache key).2.entries, s.hashKey ≠ key := by
      unfold removeFromDiskCache
      split
      · intro s hs same
        have short := h.layout.consistent.keyShort s hs
        rw [same] at short
        omega
      · split
        · rename_i absent
          exact fun s hs same => Keyed.find_none absent (same ▸ List.mem_map_of_mem hs)
        · exact fun s hs => Keyed.key_ne_of_mem_delete distinct hs
    have main := removeFromDiskCache_mainStep traced.cache key
    refine ⟨h.trimmed ?_ main.file main.writer main.currentlyWriting fun s hs =>
      Function.update_of_ne (others s hs) _ _,
      h.partWritten.of_same main.file main.writer main.currentlyWriting⟩
    unfold removeFromDiskCache
    split
    · exact .of_subset (List.Subset.refl _)
    · split
      · exact .of_subset (List.Subset.refl _)
      · exact .of_subset fun s hs => Keyed.mem_of_mem_delete hs
  | clear =>
    obtain rfl := Option.some.inj stepEq
    exact ⟨fun s hs => absurd hs List.not_mem_nil, h.partWritten.of_same rfl rfl rfl⟩
  | get key storeInRam fresh =>
    obtain rfl := Option.some.inj stepEq
    exact h.get key storeInRam fresh
  | clearFromRam matches_ =>
    obtain rfl := Option.some.inj stepEq
    refine ⟨h.trimmed (fun s' hs' => ?_) rfl rfl rfl fun _ _ => rfl,
      h.partWritten.of_same rfl rfl rfl⟩
    obtain ⟨s, hs, rfl⟩ := List.mem_map.1 hs'
    refine ⟨s, hs, clearEntryFromRam_samePlace matches_ s, ?_⟩
    unfold clearEntryFromRam
    split
    · exact ⟨rfl, .inr rfl⟩
    · exact ⟨rfl, .inl rfl⟩
  | lookForWork newFileReady =>
    obtain ⟨looping, rfl | ⟨ready, searched⟩⟩ := lookForWork_cases h.layout fine stepEq
    · refine ⟨fun s hs => ?_, trivial⟩
      obtain ⟨data, latestEq, holds⟩ := h.entries s hs
      exact ⟨data, latestEq, holds.of_entry (.refl s) rfl holds.memory rfl
        fun flying => absurd flying id⟩
    · exact searched.allHold distinct h.entries
  | finishDefrag copied =>
    obtain ⟨moved, defragging, ⟨ready, searched⟩ | ⟨final, placed, movedEq, copies, ready,
      searched⟩⟩ := finishDefrag_cases h.layout fine stepEq
    · exact searched.allHold distinct h.entries
    · have moves : MovesAll traced.cache.entries moved := by
        have writerLayout := h.layout.writer
        unfold DiskCache.WriterLayout at writerLayout
        rwa [defragging] at writerLayout
      exact searched.allHold ready.distinct (setOffsets_allHold moves movedEq copies
        ready.distinct (by simp [defragging, WriterState.InFlight]) h.entries)
  | write accepted =>
    cases hwriter : traced.cache.writer with
    | writing written =>
      simp only [DiskCache.step, hwriter] at stepEq
      obtain rfl := Option.some.inj stepEq
      exact (writeDirtyEntry_wrote traced.cache written accepted).allHold h.layout hwriter fine
        h.entries h.partWritten
    | _ => simp [DiskCache.step, hwriter] at stepEq
  | retire =>
    cases hwriter : traced.cache.writer with
    | retiring =>
      simp only [DiskCache.step, hwriter] at stepEq
      obtain rfl := Option.some.inj stepEq
      exact ⟨retire_allHold h.layout hwriter h.entries h.partWritten, trivial⟩
    | _ => simp [DiskCache.step, hwriter] at stepEq
  | emptyFile truncated =>
    cases hwriter : traced.cache.writer with
    | emptying =>
      have placeless := h.layout.writer
      unfold DiskCache.WriterLayout at placeless
      rw [hwriter] at placeless
      simp only [DiskCache.step, hwriter] at stepEq
      obtain rfl := Option.some.inj stepEq
      refine ⟨fun s hs => ?_, trivial⟩
      obtain ⟨data, latestEq, holds⟩ := h.entries s hs
      refine ⟨data, latestEq, holds.size, holds.memory, fun written => ?_,
        fun flying => absurd flying id⟩
      exact absurd (holds.onDisk written).1 (Int.not_le.2 (placeless s hs))
    | _ => simp [DiskCache.step, hwriter] at stepEq

theorem newTracedCache_coherent : ({} : TracedCache).Coherent :=
  ⟨newDiskCache_layout, by simp, trivial⟩

/-- In a run of both threads from a new cache whose steps all meet the condition, every key that
is present reads back as it was added last, and every entry marked as written has these bytes at
its position in the file. -/
theorem diskCache_coherent (steps : List CacheStep)
    (fine : ∀ traced step, Run.Takes TracedCache.step {} steps traced step →
      step.KeepsCoherence traced.cache) :
    ∀ traced, Run.Visits TracedCache.step {} steps traced →
      traced.ReadsBack ∧ traced.WrittenOut := by
  intro traced visited
  have coherent := Run.visits_of_takes TracedCache.Coherent
    (fun traced step => step.KeepsCoherence traced.cache)
    (fun _ _ _ h fine hstep => tracedCacheStep_coherent h fine hstep)
    newTracedCache_coherent fine visited
  exact ⟨coherent.readsBack, coherent.writtenOut⟩

/-- One entry is added, taken and partly written. -/
theorem diskCache_coherent_oneEntry :
    ∃ traced, Run.run TracedCache.step {}
        [.add [107] [1, 2] (some (Vector.replicate 64 0)), .lookForWork true, .write (some 1)] =
        some traced ∧
      traced.latest [107] = some [1, 2] ∧ traced.ReadsBack ∧ traced.WrittenOut := by
  refine ⟨_, rfl, rfl, diskCache_coherent
    [.add [107] [1, 2] (some (Vector.replicate 64 0)), .lookForWork true, .write (some 1)]
    (fun traced step taken => ?_) _ ⟨_, List.prefix_rfl, rfl⟩⟩
  rcases Run.takes_cons taken with ⟨rfl, rfl⟩ | ⟨first, firstEq, taken⟩
  · exact ⟨fun flying => absurd flying id, fun s found => by
      simp [DiskCache.find, Keyed.find] at found⟩
  · obtain rfl := Option.some.inj firstEq
    rcases Run.takes_cons taken with ⟨rfl, rfl⟩ | ⟨second, secondEq, taken⟩
    · intro s hs
      obtain rfl := List.mem_singleton.1 hs
      decide
    · rcases Run.takes_cons taken with ⟨rfl, rfl⟩ | ⟨third, -, taken⟩
      · exact fun written _ => ⟨fun _ => by simp, fun _ => by simp⟩
      · exact absurd taken (Run.not_takes_nil _ _ _ _)

/-- A key that is added again while its old data is being written reads back the old data, once
the new data has left the memory. -/
theorem diskCache_readd_lost :
    ¬ ∀ (steps : List CacheStep) (traced : TracedCache),
      Run.Visits TracedCache.step {} steps traced → traced.ReadsBack ∧ traced.WrittenOut := by
  intro all
  obtain ⟨readsBack, -⟩ := all
    [.add [107] [1] (some (Vector.replicate 64 0)), .lookForWork true, .add [107] [2] none,
      .write (some 1), .write none, .retire, .clearFromRam fun _ => true] _
    ⟨_, List.prefix_refl _, rfl⟩
  obtain ⟨data, latest, read⟩ := readsBack [107] false [] (by decide)
  have added : some data = some [2] := latest.symm.trans (by decide)
  have old : Except.ok data = (Except.ok [1] : Except CacheError Bytes) :=
    read.symm.trans (by decide)
  rw [Option.some.inj added] at old
  exact absurd old (by decide)

end Smelly
