/-
Module: Smelly.Proofs.DiskCacheAccounting
Purpose: Which steps of the disk cache keep `total_size` equal to the sum of the sizes of the
  entries, over every run of both threads.
Trusted boundary: none
-/
import Smelly.Core.DiskCache
import Smelly.Lib.Run

namespace Smelly

/-- The sum of `data_sz` over the entries currently in the cache. -/
def DiskCache.entriesSize (self : DiskCache) : Nat := Keyed.weight CacheEntry.dataSz self.entries

/-- `total_size` is the sum of the sizes of the entries. -/
def DiskCache.Accounted (self : DiskCache) : Prop := self.totalSize = self.entriesSize

instance : DecidablePred DiskCache.Accounted :=
  fun self => inferInstanceAs (Decidable (self.totalSize = self.entriesSize))

/-- The writer thread holds data it has taken from an entry. -/
def WriterState.InFlight : WriterState → Prop
  | writing _ => True
  | retiring => True
  | _ => False

/-- What holds between any two steps: the keys are distinct and short, the only entry that is
dirty without data is the one being written, and `total_size` is a 64 bit number. -/
structure DiskCache.Consistent (cache : DiskCache) : Prop where
  distinct : Keyed.Distinct CacheEntry.hashKey cache.entries
  keyShort : ∀ s ∈ cache.entries, s.hashKey.length ≤ maxKeySize
  dirtyData : ∀ s ∈ cache.entries, s.writtenToDisk = false → s.data = none →
    cache.writer.InFlight ∧ s.hashKey = cache.currentlyWriting.hashKey
  totalFits : cache.totalSize < 2 ^ 64

/-- When adding an entry keeps the account: a replaced entry must have the size of the new data,
or be the only size in the cache and smaller than the new data; and the new sum must fit in 64
bits. -/
def AddKeepsAccount (self : DiskCache) (key data : Bytes)
    (randomBytes : Option (Vector UInt8 64)) : Prop :=
  key.length ≤ maxKeySize →
    match self.find key with
    | none => randomBytes.isSome → self.totalSize + data.length < 2 ^ 64
    | some old =>
      old.dataSz = data.length ∨
        (old.dataSz = self.totalSize ∧ self.totalSize < data.length ∧ data.length < 2 ^ 64)

/-- The condition under which a step keeps the account: only adding an entry can break it. -/
def CacheStep.KeepsAccount (self : DiskCache) : CacheStep → Prop
  | .add key data randomBytes => AddKeepsAccount self key data randomBytes
  | _ => True

/-! ### Consistency -/

theorem wrap64_of_lt {n : Nat} (h : n < 2 ^ 64) : wrap64 n = n := Nat.mod_eq_of_lt h

theorem wrap64_lt (n : Nat) : wrap64 n < 2 ^ 64 := Nat.mod_lt _ (by decide)

theorem takeDirty_keys (entries : List CacheEntry) :
    (takeDirty entries).2.map CacheEntry.hashKey = entries.map CacheEntry.hashKey := by
  induction entries with
  | nil => rfl
  | cons s rest ih =>
    unfold takeDirty
    split
    · simpa using ih
    · split
      · rfl
      · simpa using ih

/-- Every entry that is still to be written has its data in memory. -/
def AllDirtyHaveData (entries : List CacheEntry) : Prop :=
  ∀ s ∈ entries, s.writtenToDisk = false → s.data ≠ none

theorem AllDirtyHaveData.tail {s : CacheEntry} {rest : List CacheEntry}
    (h : AllDirtyHaveData (s :: rest)) : AllDirtyHaveData rest :=
  fun e he => h e (List.mem_cons_of_mem _ he)

/-- When every dirty entry has data, the loop of `find_cache_entry_to_write` changes no size. -/
theorem takeDirty_weight {entries : List CacheEntry} (h : AllDirtyHaveData entries) :
    Keyed.weight CacheEntry.dataSz (takeDirty entries).2 =
      Keyed.weight CacheEntry.dataSz entries := by
  induction entries with
  | nil => rfl
  | cons s rest ih =>
    have restWeight := ih h.tail
    unfold takeDirty
    split
    · simpa using restWeight
    · rename_i dirty
      split
      · simp
      · rename_i noData
        exact absurd noData (h s (by simp) (by simpa using dirty))

/-- Afterwards only the entry that gave up its data is dirty without data. -/
theorem takeDirty_dirty {entries : List CacheEntry} (h : AllDirtyHaveData entries)
    {s : CacheEntry} (hs : s ∈ (takeDirty entries).2) (dirty : s.writtenToDisk = false)
    (noData : s.data = none) :
    ∃ found data, (takeDirty entries).1 = some (found, data) ∧ found ∈ entries ∧
      found.hashKey = s.hashKey := by
  induction entries with
  | nil => simp [takeDirty] at hs
  | cons first rest ih =>
    unfold takeDirty at hs ⊢
    split at hs
    · rename_i written
      rw [if_pos written]
      rcases List.mem_cons.1 hs with rfl | later
      · rw [written] at dirty
        exact absurd dirty (by simp)
      · obtain ⟨found, data, hfound, hmem, hkey⟩ := ih h.tail later
        exact ⟨found, data, hfound, List.mem_cons_of_mem _ hmem, hkey⟩
    · rename_i notWritten
      rw [if_neg notWritten]
      split at hs
      · rename_i data _
        rcases List.mem_cons.1 hs with rfl | later
        · exact ⟨first, data, rfl, by simp, rfl⟩
        · exact absurd noData (h s (List.mem_cons_of_mem _ later) dirty)
      · rename_i hdata
        exact absurd hdata (h first (by simp) (by simpa using notWritten))

/-! ### What each operation does to the entries -/

/-- Two caches agree on everything the account depends on. -/
structure SameAccount (before after : DiskCache) : Prop where
  total : after.totalSize = before.totalSize
  size : after.entriesSize = before.entriesSize

theorem SameAccount.accounted_iff {before after : DiskCache} (h : SameAccount before after) :
    after.Accounted ↔ before.Accounted := by
  unfold DiskCache.Accounted
  rw [h.total, h.size]

theorem DiskCache.Consistent.allDirtyHaveData {self : DiskCache} (h : self.Consistent)
    (idle : ¬ self.writer.InFlight) : AllDirtyHaveData self.entries :=
  fun s hs dirty noData => idle (h.dirtyData s hs dirty noData).1

/-- An assignment to fields other than the key, the size and the state of the data. -/
theorem DiskCache.Consistent.update {self : DiskCache} (h : self.Consistent) (key : Bytes)
    (change : CacheEntry → CacheEntry) (keep : ∀ s, (change s).hashKey = s.hashKey)
    (clean : ∀ s ∈ self.entries, s.hashKey = key → (change s).writtenToDisk = false →
      (change s).data = none → s.writtenToDisk = false ∧ s.data = none) :
    (self.update key change).Consistent where
  distinct := Keyed.update_distinct h.distinct keep
  keyShort := by
    intro s hs
    rcases Keyed.mem_update hs with ⟨old, -⟩ | ⟨old, hold, -, rfl⟩
    · exact h.keyShort s old
    · rw [keep]
      exact h.keyShort old hold
  dirtyData := by
    intro s hs dirty noData
    rcases Keyed.mem_update hs with ⟨old, -⟩ | ⟨old, hold, hkey, rfl⟩
    · exact h.dirtyData s old dirty noData
    · obtain ⟨oldDirty, oldNoData⟩ := clean old hold hkey dirty noData
      rw [keep]
      exact h.dirtyData old hold oldDirty oldNoData
  totalFits := h.totalFits

theorem addToDiskCache_consistent {self : DiskCache} (h : self.Consistent) (key data : Bytes)
    (randomBytes : Option (Vector UInt8 64)) :
    (addToDiskCache self key data randomBytes).2.Consistent := by
  unfold addToDiskCache
  split
  · exact h
  · rename_i short
    split
    · rename_i absent
      cases randomBytes with
      | none => exact h
      | some bytes =>
        refine ⟨?_, ?_, ?_, wrap64_lt _⟩
        · have fresh := Keyed.find_none absent
          simp only [Keyed.Distinct, List.map_append, List.map_cons, List.map_nil,
            createCacheEntry]
          exact h.distinct.append (by simp) (by simpa using fresh)
        · intro s hs
          rcases List.mem_append.1 hs with old | new
          · exact h.keyShort s old
          · rw [List.mem_singleton.1 new]
            exact Nat.not_lt.1 short
        · intro s hs dirty noData
          rcases List.mem_append.1 hs with old | new
          · exact h.dirtyData s old dirty noData
          · rw [List.mem_singleton.1 new] at noData
            simp at noData
    · have updated := h.update key
        (fun s => { s with data := some data, dataSz := data.length, writtenToDisk := false })
        (fun _ => rfl) (fun _ _ _ _ noData => by simp at noData)
      exact ⟨updated.distinct, updated.keyShort, updated.dirtyData, wrap64_lt _⟩

theorem removeFromDiskCache_consistent {self : DiskCache} (h : self.Consistent) (key : Bytes) :
    (removeFromDiskCache self key).2.Consistent := by
  unfold removeFromDiskCache
  split
  · exact h
  · split
    · exact h
    · exact ⟨Keyed.delete_distinct h.distinct,
        fun s hs => h.keyShort s (Keyed.mem_of_mem_delete hs),
        fun s hs => h.dirtyData s (Keyed.mem_of_mem_delete hs), by
          have := h.totalFits
          dsimp only
          split <;> omega⟩

theorem readFromDiskCache_consistent {self : DiskCache} (h : self.Consistent) (key : Bytes)
    (storeInRam : Bool) (fresh : Bytes) :
    (readFromDiskCache self key storeInRam fresh).2.Consistent := by
  unfold readFromDiskCache
  split
  · exact h
  · split
    · exact h
    · dsimp only
      split
      · exact h.update key _ (fun _ => rfl) (fun _ _ _ _ noData => by simp at noData)
      · exact h

theorem clearEntryFromRam_keeps (matches_ : Bytes → Bool) (s : CacheEntry) :
    (clearEntryFromRam matches_ s).hashKey = s.hashKey ∧
      (clearEntryFromRam matches_ s).dataSz = s.dataSz ∧
      (clearEntryFromRam matches_ s).writtenToDisk = s.writtenToDisk := by
  unfold clearEntryFromRam
  split <;> exact ⟨rfl, rfl, rfl⟩

theorem diskCacheClearFromRam_consistent {self : DiskCache} (h : self.Consistent)
    (matches_ : Bytes → Bool) : (diskCacheClearFromRam self matches_).Consistent where
  distinct := by
    have keys : (self.entries.map (clearEntryFromRam matches_)).map CacheEntry.hashKey =
        self.entries.map CacheEntry.hashKey := by
      rw [List.map_map]
      exact List.map_congr_left fun s _ => (clearEntryFromRam_keeps matches_ s).1
    unfold Keyed.Distinct diskCacheClearFromRam
    rw [keys]
    exact h.distinct
  keyShort := by
    intro s hs
    obtain ⟨old, hold, rfl⟩ := List.mem_map.1 hs
    rw [(clearEntryFromRam_keeps matches_ old).1]
    exact h.keyShort old hold
  dirtyData := by
    intro s hs dirty noData
    obtain ⟨old, hold, rfl⟩ := List.mem_map.1 hs
    obtain ⟨hkey, -, hwritten⟩ := clearEntryFromRam_keeps matches_ old
    rw [hwritten] at dirty
    rw [hkey]
    refine h.dirtyData old hold dirty ?_
    simpa [clearEntryFromRam, dirty] using noData
  totalFits := h.totalFits

theorem clearFromRam_sameAccount (self : DiskCache) (matches_ : Bytes → Bool) :
    SameAccount self (diskCacheClearFromRam self matches_) where
  total := rfl
  size := by
    simp only [DiskCache.entriesSize, diskCacheClearFromRam, Keyed.weight, List.map_map]
    congr 1
    exact List.map_congr_left fun s _ => (clearEntryFromRam_keeps matches_ s).2.1

/-! ### The writer thread -/

theorem findHole_consistent {self : DiskCache} (h : self.Consistent) :
    (findHole self).Consistent where
  distinct := ((BottomUpSort.sort_perm self.entries).map _).nodup_iff.2 h.distinct
  keyShort := fun s hs => h.keyShort s ((BottomUpSort.sort_perm self.entries).mem_iff.1 hs)
  dirtyData := fun s hs => h.dirtyData s ((BottomUpSort.sort_perm self.entries).mem_iff.1 hs)
  totalFits := h.totalFits

theorem findHole_sameAccount (self : DiskCache) : SameAccount self (findHole self) where
  total := rfl
  size := Keyed.weight_perm (BottomUpSort.sort_perm self.entries)

/-- Looking for an entry to write, from a state where every dirty entry has data. -/
theorem findCacheEntryToWrite_spec (self : DiskCache)
    (distinct : Keyed.Distinct CacheEntry.hashKey self.entries)
    (keyShort : ∀ s ∈ self.entries, s.hashKey.length ≤ maxKeySize)
    (allData : AllDirtyHaveData self.entries) (fits : self.totalSize < 2 ^ 64) :
    (findCacheEntryToWrite self).Consistent ∧
      SameAccount self (findCacheEntryToWrite self) := by
  have keys := takeDirty_keys self.entries
  have weight := takeDirty_weight allData
  have dirty := fun s => takeDirty_dirty allData (s := s)
  have distinct' : Keyed.Distinct CacheEntry.hashKey (takeDirty self.entries).2 := by
    unfold Keyed.Distinct
    rw [keys]
    exact distinct
  have short' : ∀ s ∈ (takeDirty self.entries).2, s.hashKey.length ≤ maxKeySize := by
    intro s hs
    have hkey : s.hashKey ∈ self.entries.map CacheEntry.hashKey :=
      keys ▸ List.mem_map_of_mem hs
    obtain ⟨old, hold, heq⟩ := List.mem_map.1 hkey
    rw [← heq]
    exact keyShort old hold
  unfold findCacheEntryToWrite
  generalize takeDirty self.entries = result at *
  obtain ⟨found, entries⟩ := result
  cases found with
  | none =>
    refine ⟨⟨distinct', short', fun s hs hd hn => ?_, fits⟩, rfl, weight⟩
    obtain ⟨found, data, hfound, -⟩ := dirty s hs hd hn
    simp at hfound
  | some found =>
    obtain ⟨s, data⟩ := found
    refine ⟨findHole_consistent ⟨distinct', short', fun e he hd hn => ⟨trivial, ?_⟩, fits⟩, ?_⟩
    · obtain ⟨found, data', hfound, hmem, hkey⟩ := dirty e he hd hn
      simp only [Option.some.injEq, Prod.mk.injEq] at hfound
      obtain ⟨rfl, rfl⟩ := hfound
      simp only
      rw [← hkey, List.take_of_length_le (keyShort s hmem)]
    · have same := findHole_sameAccount
        { self with
          entries := entries
          currentlyWriting :=
            { hashKey := s.hashKey.take maxKeySize
              data := some (xorData s.encryptionKey data)
              dataSz := s.dataSz
              posInCacheFile := -1 }
          writer := .writing 0 }
      exact ⟨same.total, same.size.trans weight⟩

theorem setOffsets_keeps (offsets : List (Bytes × Nat)) (entries : List CacheEntry) :
    (setOffsets entries offsets).map CacheEntry.hashKey = entries.map CacheEntry.hashKey ∧
      Keyed.weight CacheEntry.dataSz (setOffsets entries offsets) =
        Keyed.weight CacheEntry.dataSz entries ∧
      (AllDirtyHaveData entries → AllDirtyHaveData (setOffsets entries offsets)) := by
  induction offsets generalizing entries with
  | nil => exact ⟨rfl, rfl, id⟩
  | cons first rest ih =>
    obtain ⟨key, offset⟩ := first
    obtain ⟨keys, weight, data⟩ := ih
      (Keyed.update CacheEntry.hashKey key (fun s => { s with posInCacheFile := offset }) entries)
    refine ⟨keys.trans (Keyed.update_keys fun _ => rfl),
      weight.trans (Keyed.weight_update_of_eq fun _ => rfl), fun h => data ?_⟩
    intro s hs dirty noData
    rcases Keyed.mem_update hs with ⟨old, -⟩ | ⟨old, hold, -, rfl⟩
    · exact h s old dirty noData
    · exact h old hold dirty noData

theorem finishDefrag_spec {self : DiskCache} (h : self.Consistent) (idle : ¬ self.writer.InFlight)
    (file : Bytes) (offsets : List (Bytes × Nat)) :
    let next := findCacheEntryToWrite
      { self with file := file, entries := setOffsets self.entries offsets }
    next.Consistent ∧ SameAccount self next := by
  obtain ⟨keys, weight, data⟩ := setOffsets_keeps offsets self.entries
  have distinct : Keyed.Distinct CacheEntry.hashKey (setOffsets self.entries offsets) := by
    unfold Keyed.Distinct
    rw [keys]
    exact h.distinct
  have keyShort : ∀ s ∈ setOffsets self.entries offsets, s.hashKey.length ≤ maxKeySize := by
    intro s hs
    have hkey : s.hashKey ∈ self.entries.map CacheEntry.hashKey := keys ▸ List.mem_map_of_mem hs
    obtain ⟨old, hold, heq⟩ := List.mem_map.1 hkey
    rw [← heq]
    exact h.keyShort old hold
  obtain ⟨consistent, same⟩ := findCacheEntryToWrite_spec
    { self with file := file, entries := setOffsets self.entries offsets }
    distinct keyShort (data (h.allDirtyHaveData idle)) h.totalFits
  exact ⟨consistent, same.total, same.size.trans weight⟩

theorem writeDirtyEntry_spec {self : DiskCache} (h : self.Consistent)
    (written : Nat) (accepted : Option Nat) :
    (writeDirtyEntry self written accepted).Consistent ∧
      SameAccount self (writeDirtyEntry self written accepted) := by
  have moved : ∀ (writer : WriterState) (cw : CurrentlyWriting) (file : Bytes),
      writer.InFlight → cw.hashKey = self.currentlyWriting.hashKey →
      DiskCache.Consistent { self with file := file, currentlyWriting := cw, writer := writer } ∧
      SameAccount self { self with file := file, currentlyWriting := cw, writer := writer } :=
    fun writer cw file inFlight hkey =>
      ⟨⟨h.distinct, h.keyShort, fun s hs dirty noData =>
        ⟨inFlight, (h.dirtyData s hs dirty noData).2.trans hkey.symm⟩, h.totalFits⟩, rfl, rfl⟩
  unfold writeDirtyEntry
  dsimp only
  split
  · exact moved _ _ _ trivial rfl
  · split
    · exact moved _ _ _ trivial rfl
    · split <;> exact moved _ _ _ trivial rfl

theorem retireCurrentlyWriting_spec {self : DiskCache} (h : self.Consistent) :
    (retireCurrentlyWriting self).Consistent ∧ SameAccount self (retireCurrentlyWriting self) := by
  refine ⟨⟨Keyed.update_distinct h.distinct fun _ => rfl, ?_, ?_, h.totalFits⟩, rfl,
    Keyed.weight_update_of_eq fun _ => rfl⟩
  · intro s hs
    rcases Keyed.mem_update hs with ⟨old, -⟩ | ⟨old, hold, -, rfl⟩
    · exact h.keyShort s old
    · exact h.keyShort old hold
  · -- the entry that was being written is the one that is marked as written
    intro s hs dirty noData
    rcases Keyed.mem_update hs with ⟨old, other⟩ | ⟨old, hold, -, rfl⟩
    · exact absurd (h.dirtyData s old dirty noData).2 other
    · simp at dirty

/-! ### The account -/

theorem addToDiskCache_accounted_iff {self : DiskCache} (h : self.Consistent)
    (account : self.Accounted) (key data : Bytes) (randomBytes : Option (Vector UInt8 64)) :
    (addToDiskCache self key data randomBytes).2.Accounted ↔
      AddKeepsAccount self key data randomBytes := by
  have fits := h.totalFits
  unfold DiskCache.Accounted DiskCache.entriesSize at account
  unfold addToDiskCache AddKeepsAccount DiskCache.Accounted DiskCache.entriesSize
  split
  · rename_i long
    exact iff_of_true account fun short => absurd short (Nat.not_le.2 long)
  · rename_i short
    have short' : key.length ≤ maxKeySize := Nat.not_lt.1 short
    cases hfind : self.find key with
    | none =>
      cases randomBytes with
      | none => exact iff_of_true account fun _ noBytes => by simp at noBytes
      | some bytes =>
        -- the new total is the new sum modulo 2^64
        simp only [short', true_implies, Option.isSome_some, Keyed.weight_append,
          Keyed.weight_cons, Keyed.weight_nil, Nat.add_zero, ← account]
        constructor
        · intro heq
          rw [← heq]
          exact wrap64_lt _
        · exact wrap64_of_lt
    | some old =>
      have weight := Keyed.weight_update CacheEntry.dataSz
        (fun s => { s with data := some data, dataSz := data.length, writtenToDisk := false })
        h.distinct hfind
      have oldSize := Keyed.weight_delete CacheEntry.dataSz hfind
      simp only [short', true_implies, DiskCache.update]
      dsimp only at weight
      rw [← account] at weight oldSize
      generalize Keyed.weight CacheEntry.dataSz (Keyed.update CacheEntry.hashKey key _ _) =
        sum at weight ⊢
      split
      · -- the code subtracts the new size, the sum loses the old one
        rw [Nat.sub_add_cancel ‹_›, wrap64_of_lt fits]
        omega
      · rw [Nat.zero_add]
        have below : wrap64 data.length ≤ data.length := Nat.mod_le _ _
        have bounded := wrap64_lt data.length
        constructor
        · intro heq
          omega
        · rintro (same | ⟨same, -, dataFits⟩)
          · omega
          · rw [wrap64_of_lt dataFits]
            omega

theorem removeFromDiskCache_accounted {self : DiskCache} (account : self.Accounted)
    (key : Bytes) : (removeFromDiskCache self key).2.Accounted := by
  unfold DiskCache.Accounted DiskCache.entriesSize at account
  unfold removeFromDiskCache DiskCache.Accounted DiskCache.entriesSize
  split
  · exact account
  · split
    · exact account
    · rename_i hfind
      have weight := Keyed.weight_delete CacheEntry.dataSz hfind
      dsimp only
      split <;> omega

theorem readFromDiskCache_sameAccount (self : DiskCache) (key : Bytes) (storeInRam : Bool)
    (fresh : Bytes) : SameAccount self (readFromDiskCache self key storeInRam fresh).2 := by
  unfold readFromDiskCache
  split
  · exact ⟨rfl, rfl⟩
  · split
    · exact ⟨rfl, rfl⟩
    · dsimp only
      split
      · exact ⟨rfl, Keyed.weight_update_of_eq fun _ => rfl⟩
      · exact ⟨rfl, rfl⟩

/-- A step of the writer thread keeps the invariant and what the account depends on. -/
theorem writerStep_spec {self next : DiskCache} (h : self.Consistent) {step : CacheStep}
    (writerStep : match step with
      | .lookForWork _ | .finishDefrag _ | .write _ | .retire | .emptyFile _ => True
      | _ => False)
    (hstep : self.step step = some next) : next.Consistent ∧ SameAccount self next := by
  cases step with
  | add | remove | clear | get | clearFromRam => exact absurd writerStep id
  | lookForWork newFileReady =>
    cases hwriter : self.writer with
    | looping =>
      have allData := h.allDirtyHaveData (by simp [hwriter, WriterState.InFlight])
      simp only [DiskCache.step, hwriter] at hstep
      split at hstep
      · obtain rfl := Option.some.inj hstep
        exact ⟨⟨h.distinct, h.keyShort, fun s hs dirty noData =>
          absurd noData (allData s hs dirty), h.totalFits⟩, rfl, rfl⟩
      · obtain rfl := Option.some.inj hstep
        exact findCacheEntryToWrite_spec _ h.distinct h.keyShort allData h.totalFits
    | _ => simp [DiskCache.step, hwriter] at hstep
  | finishDefrag copied =>
    cases hwriter : self.writer with
    | defragging entries =>
      have idle : ¬ self.writer.InFlight := by simp [hwriter, WriterState.InFlight]
      simp only [DiskCache.step, hwriter] at hstep
      split at hstep
      · obtain rfl := Option.some.inj hstep
        exact finishDefrag_spec h idle _ _
      · obtain rfl := Option.some.inj hstep
        exact findCacheEntryToWrite_spec _ h.distinct h.keyShort (h.allDirtyHaveData idle)
          h.totalFits
    | _ => simp [DiskCache.step, hwriter] at hstep
  | write accepted =>
    cases hwriter : self.writer with
    | writing written =>
      simp only [DiskCache.step, hwriter] at hstep
      obtain rfl := Option.some.inj hstep
      exact writeDirtyEntry_spec h written accepted
    | _ => simp [DiskCache.step, hwriter] at hstep
  | retire =>
    cases hwriter : self.writer with
    | retiring =>
      simp only [DiskCache.step, hwriter] at hstep
      obtain rfl := Option.some.inj hstep
      exact retireCurrentlyWriting_spec h
    | _ => simp [DiskCache.step, hwriter] at hstep
  | emptyFile truncated =>
    cases hwriter : self.writer with
    | emptying =>
      have allData := h.allDirtyHaveData (by simp [hwriter, WriterState.InFlight])
      simp only [DiskCache.step, hwriter] at hstep
      obtain rfl := Option.some.inj hstep
      exact ⟨⟨h.distinct, h.keyShort, fun s hs dirty noData =>
        absurd noData (allData s hs dirty), h.totalFits⟩, rfl, rfl⟩
    | _ => simp [DiskCache.step, hwriter] at hstep

/-- One step of either thread keeps the invariant. -/
theorem diskCacheStep_consistent {self next : DiskCache} (h : self.Consistent) (step : CacheStep)
    (hstep : self.step step = some next) : next.Consistent := by
  cases step with
  | add key data randomBytes =>
    obtain rfl := Option.some.inj hstep
    exact addToDiskCache_consistent h key data randomBytes
  | remove key =>
    obtain rfl := Option.some.inj hstep
    exact removeFromDiskCache_consistent h key
  | clear =>
    obtain rfl := Option.some.inj hstep
    exact ⟨List.nodup_nil, by simp [clearDiskCache], by simp [clearDiskCache],
      by simp [clearDiskCache]⟩
  | get key storeInRam fresh =>
    obtain rfl := Option.some.inj hstep
    exact readFromDiskCache_consistent h key storeInRam fresh
  | clearFromRam matches_ =>
    obtain rfl := Option.some.inj hstep
    exact diskCacheClearFromRam_consistent h matches_
  | _ => exact (writerStep_spec h trivial hstep).1

/-- From a state with a correct account, one step keeps it correct exactly under
`KeepsAccount`. -/
theorem diskCacheStep_accounted_iff {self next : DiskCache} (h : self.Consistent)
    (account : self.Accounted) (step : CacheStep) (hstep : self.step step = some next) :
    next.Accounted ↔ step.KeepsAccount self := by
  cases step with
  | add key data randomBytes =>
    obtain rfl := Option.some.inj hstep
    exact addToDiskCache_accounted_iff h account key data randomBytes
  | remove key =>
    obtain rfl := Option.some.inj hstep
    exact iff_of_true (removeFromDiskCache_accounted account key) trivial
  | clear =>
    obtain rfl := Option.some.inj hstep
    exact iff_of_true rfl trivial
  | get key storeInRam fresh =>
    obtain rfl := Option.some.inj hstep
    exact iff_of_true
      ((readFromDiskCache_sameAccount self key storeInRam fresh).accounted_iff.2 account) trivial
  | clearFromRam matches_ =>
    obtain rfl := Option.some.inj hstep
    exact iff_of_true ((clearFromRam_sameAccount self matches_).accounted_iff.2 account) trivial
  | _ => exact iff_of_true ((writerStep_spec h trivial hstep).2.accounted_iff.2 account) trivial

theorem newDiskCache_consistent : ({} : DiskCache).Consistent :=
  ⟨List.nodup_nil, by simp, by simp, by simp⟩

/-- In a run of both threads from a new cache, `total_size` is the sum of the entry sizes in
every state visited exactly when every step taken meets `KeepsAccount`. -/
theorem diskCache_accounted_iff (steps : List CacheStep) :
    (∀ state, Run.Visits DiskCache.step {} steps state → state.Accounted) ↔
      ∀ state step, Run.Takes DiskCache.step {} steps state step → step.KeepsAccount state :=
  Run.visits_iff_takes DiskCache.Consistent DiskCache.Accounted
    (fun state step => step.KeepsAccount state)
    (fun _ step _ h hstep => diskCacheStep_consistent h step hstep)
    (fun _ step _ h account hstep => diskCacheStep_accounted_iff h account step hstep)
    newDiskCache_consistent rfl steps

/-- Adding two bytes and then one byte under the same key leaves `total_size` at two. -/
theorem diskCache_readd_miscounts :
    ¬ ∀ (steps : List CacheStep) (state : DiskCache),
      Run.Visits DiskCache.step {} steps state → state.Accounted := by
  intro all
  have miscounted := all
    [.add [107] [1, 2] (some (Vector.replicate 64 0)), .add [107] [3] none] _
    ⟨_, List.prefix_refl _, rfl⟩
  exact absurd miscounted (by decide)

end Smelly
