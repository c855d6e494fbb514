/-
Module: Smelly.Proofs.DiskCacheLayout
Purpose: Where the entries of the disk cache lie in the cache file: which runs of both threads
  keep their ranges apart, find only free holes, and defragment without changing a byte.
Trusted boundary: none
-/
import Smelly.Lib.FileBytes
import Smelly.Proofs.DiskCacheAccounting
import Mathlib

namespace Smelly

/-- The range of the cache file an entry claims. -/
def CacheEntry.range (s : CacheEntry) : Set Int :=
  Set.Ico s.posInCacheFile (s.posInCacheFile + s.dataSz)

/-- The range of the cache file the data in flight is written to. -/
def CurrentlyWriting.range (cw : CurrentlyWriting) : Set Int :=
  Set.Ico cw.posInCacheFile (cw.posInCacheFile + cw.dataSz)

/-- The entry is marked as written, at a place in the file. -/
def CacheEntry.OnDisk (s : CacheEntry) : Prop := s.writtenToDisk = true ∧ 0 ≤ s.posInCacheFile

/-- What `find_hole` and `defrag` take as occupying the file: a place and a size, whether the
entry is still the one that was written there or not. -/
def CacheEntry.Placed (s : CacheEntry) : Prop := 0 ≤ s.posInCacheFile ∧ 0 < s.dataSz

/-- The bytes of the file in the range of an entry. -/
def DiskCache.bytesOf (cache : DiskCache) (s : CacheEntry) : Bytes :=
  FileBytes.read cache.file s.posInCacheFile.toNat s.dataSz

/-- No byte of the file belongs to two entries on disk. -/
def DiskCache.RangesDisjoint (cache : DiskCache) : Prop :=
  cache.entries.Pairwise fun s t => s.OnDisk → t.OnDisk → Disjoint s.range t.range

/-- The range chosen for the data in flight overlaps no entry on disk. -/
def DiskCache.TargetFree (cache : DiskCache) : Prop :=
  cache.writer.InFlight → 0 ≤ cache.currentlyWriting.posInCacheFile →
    ∀ s ∈ cache.entries, s.OnDisk → Disjoint cache.currentlyWriting.range s.range

/-- Every entry on disk is still there, with the same bytes at its new position. -/
def KeepsBytes (cache next : DiskCache) : Prop :=
  ∀ s ∈ cache.entries, s.OnDisk → ∃ s' ∈ next.entries, s'.hashKey = s.hashKey ∧ s'.OnDisk ∧
    s'.dataSz = s.dataSz ∧ next.bytesOf s' = cache.bytesOf s

/-- The difference of any two positions is an `int`; an entry without a place has position -2. -/
def DiskCache.PositionsFitInt (cache : DiskCache) : Prop :=
  ∀ s ∈ cache.entries, s.posInCacheFile + 2 < 2 ^ 31

/-- The condition under which a step keeps the layout.  Adding under the key that is being
written must not enlarge the data, and an entry that holds a place without having a size must not
be given one; where a hole is searched, the positions must be comparable as an `int`. -/
def CacheStep.KeepsLayout (cache : DiskCache) : CacheStep → Prop
  | .add key data _ =>
    (cache.writer.InFlight → cache.currentlyWriting.hashKey = key →
      data.length ≤ cache.currentlyWriting.dataSz) ∧
    ∀ s, cache.find key = some s → 0 ≤ s.posInCacheFile → s.dataSz = 0 → data = []
  | .lookForWork _ => cache.PositionsFitInt
  | .finishDefrag _ => cache.PositionsFitInt ∧
      ∀ moved, cache.writer = .defragging moved →
        (moved.map DefragEntry.dataSz).sum + 2 ≤ 2 ^ 31
  | _ => True

/-! ### The entries in the file -/

/-- No entry starts inside the range of another one that is on disk, and all lie in the file.
This is what is left of disjointness for the stale range of an entry that was added again. -/
structure LaidOut (entries : List CacheEntry) (file : Bytes) : Prop where
  lowest : ∀ e ∈ entries, -2 ≤ e.posInCacheFile
  apart : ∀ e ∈ entries, ∀ m ∈ entries, e.hashKey ≠ m.hashKey → e.Placed →
    m.writtenToDisk = true → m.Placed → e.posInCacheFile ∉ m.range
  starts : ∀ e ∈ entries, e.Placed → e.posInCacheFile < file.length
  ends : ∀ m ∈ entries, m.writtenToDisk = true → m.Placed →
    m.posInCacheFile + m.dataSz ≤ file.length

/-- Two entries agree on everything the layout depends on. -/
structure SamePlace (e e' : CacheEntry) : Prop where
  hashKey : e.hashKey = e'.hashKey
  position : e.posInCacheFile = e'.posInCacheFile
  size : e.dataSz = e'.dataSz
  written : e.writtenToDisk = e'.writtenToDisk

theorem SamePlace.refl (e : CacheEntry) : SamePlace e e := ⟨rfl, rfl, rfl, rfl⟩

theorem SamePlace.placed {e e' : CacheEntry} (h : SamePlace e e') : e'.Placed ↔ e.Placed := by
  rw [CacheEntry.Placed, CacheEntry.Placed, h.position, h.size]

theorem SamePlace.range {e e' : CacheEntry} (h : SamePlace e e') : e'.range = e.range := by
  rw [CacheEntry.range, CacheEntry.range, h.position, h.size]

/-- Every entry of the second list has its place in the first. -/
def PlacesFrom (entries entries' : List CacheEntry) : Prop :=
  ∀ e' ∈ entries', ∃ e ∈ entries, SamePlace e e'

theorem PlacesFrom.of_subset {entries entries' : List CacheEntry} (h : entries' ⊆ entries) :
    PlacesFrom entries entries' := fun e he => ⟨e, h he, .refl e⟩

theorem PlacesFrom.trans {first second third : List CacheEntry} (h : PlacesFrom first second)
    (h' : PlacesFrom second third) : PlacesFrom first third := by
  intro e'' he''
  obtain ⟨e', he', same'⟩ := h' e'' he''
  obtain ⟨e, he, same⟩ := h e' he'
  exact ⟨e, he, same.hashKey.trans same'.hashKey, same.position.trans same'.position,
    same.size.trans same'.size, same.written.trans same'.written⟩

/-- An assignment to the data of one entry. -/
theorem PlacesFrom.update (entries : List CacheEntry) (key : Bytes)
    {change : CacheEntry → CacheEntry} (keep : ∀ e, SamePlace e (change e)) :
    PlacesFrom entries (Keyed.update CacheEntry.hashKey key change entries) := by
  intro e' he'
  rcases Keyed.mem_update he' with ⟨old, -⟩ | ⟨old, hold, -, rfl⟩
  · exact ⟨e', old, .refl e'⟩
  · exact ⟨old, hold, keep old⟩

/-- Taking the data of an entry leaves all entries at their places. -/
theorem PlacesFrom.takeData (entries : List CacheEntry) (key : Bytes) :
    PlacesFrom entries
      (Keyed.update CacheEntry.hashKey key (fun s => { s with data := none }) entries) :=
  .update _ _ fun _ => ⟨rfl, rfl, rfl, rfl⟩

theorem LaidOut.of_places {entries entries' : List CacheEntry} {file : Bytes}
    (h : LaidOut entries file) (places : PlacesFrom entries entries') :
    LaidOut entries' file where
  lowest := by
    intro e' he'
    obtain ⟨e, he, same⟩ := places e' he'
    exact same.position ▸ h.lowest e he
  apart := by
    intro e' he' m' hm' differ placed written placedM
    obtain ⟨e, he, sameE⟩ := places e' he'
    obtain ⟨m, hm, sameM⟩ := places m' hm'
    rw [← sameE.position, sameM.range]
    exact h.apart e he m hm (by rwa [sameE.hashKey, sameM.hashKey]) (sameE.placed.1 placed)
      (sameM.written.trans written) (sameM.placed.1 placedM)
  starts := by
    intro e' he' placed
    obtain ⟨e, he, same⟩ := places e' he'
    exact same.position ▸ h.starts e he (same.placed.1 placed)
  ends := by
    intro m' hm' written placed
    obtain ⟨m, hm, same⟩ := places m' hm'
    rw [← same.position, ← same.size]
    exact h.ends m hm (same.written.trans written) (same.placed.1 placed)

theorem LaidOut.of_longer {entries : List CacheEntry} {file file' : Bytes}
    (h : LaidOut entries file) (longer : file.length ≤ file'.length) : LaidOut entries file' where
  lowest := h.lowest
  apart := h.apart
  starts := fun e he placed => by
    have := h.starts e he placed
    omega
  ends := fun m hm written placed => by
    have := h.ends m hm written placed
    omega

/-! ### Searching a hole -/

/-- Positions that fit are compared as they are. -/
theorem cmpPosInCacheFile_comparesKeys {entries : List CacheEntry}
    (lowest : ∀ e ∈ entries, -2 ≤ e.posInCacheFile)
    (fit : ∀ e ∈ entries, e.posInCacheFile + 2 < 2 ^ 31) :
    BottomUpSort.ComparesKeys (fun a b => decide (cmpPosInCacheFile a b ≤ 0))
      CacheEntry.posInCacheFile entries := by
  intro a ha b hb
  have lowA := lowest a ha
  have lowB := lowest b hb
  have fitA := fit a ha
  have fitB := fit b hb
  have difference : cmpPosInCacheFile a b = a.posInCacheFile - b.posInCacheFile :=
    Int.bmod_eq_of_le (by omega) (by omega)
  exact decide_eq_decide.2 (by rw [difference]; omega)

/-- The hole `find_hole` returns is the gap between two neighbours in the file. -/
theorem findHoleIn_gap {requiredSize prev hole : Int} {before rest : List CacheEntry}
    (sorted : BottomUpSort.Sorted CacheEntry.posInCacheFile (before ++ rest))
    (last : prev < 0 ∨ ∃ i ∈ before, i.Placed ∧ prev = i.posInCacheFile + i.dataSz ∧
      ∀ e ∈ before, e.Placed → e.posInCacheFile ≤ i.posInCacheFile)
    (found : findHoleIn requiredSize prev rest = some hole) :
    ∃ i ∈ before ++ rest, ∃ s ∈ before ++ rest, i.Placed ∧ s.Placed ∧
      hole = i.posInCacheFile + i.dataSz ∧ hole + requiredSize ≤ s.posInCacheFile ∧
      ∀ e ∈ before ++ rest, e.Placed →
        e.posInCacheFile ≤ i.posInCacheFile ∨ s.posInCacheFile ≤ e.posInCacheFile := by
  induction rest generalizing prev before with
  | nil => simp [findHoleIn] at found
  | cons s rest ih =>
    have split : before ++ s :: rest = (before ++ [s]) ++ rest := by simp
    have sorted' := List.pairwise_append.1 sorted
    unfold findHoleIn at found
    by_cases placed : s.posInCacheFile ≥ 0 ∧ s.dataSz > 0
    · rw [if_pos placed] at found
      by_cases fits : prev ≥ 0 ∧ s.posInCacheFile - prev ≥ requiredSize
      · rw [if_pos fits] at found
        obtain rfl := Option.some.inj found
        obtain negative | ⟨i, hi, placedI, prevEq, others⟩ := last
        · omega
        · refine ⟨i, List.mem_append_left _ hi, s, by simp, placedI, placed, prevEq,
            by omega, fun e he placedE => ?_⟩
          rcases List.mem_append.1 he with early | late
          · exact .inl (others e early placedE)
          · rcases List.mem_cons.1 late with rfl | later
            · exact .inr (le_refl _)
            · exact .inr ((List.pairwise_cons.1 sorted'.2.1).1 e later)
      · rw [if_neg fits] at found
        rw [split] at sorted ⊢
        refine ih sorted (.inr ⟨s, by simp, placed, rfl, fun e he _ => ?_⟩) found
        rcases List.mem_append.1 he with early | new
        · exact sorted'.2.2 e early s (by simp)
        · rw [List.mem_singleton.1 new]
    · rw [if_neg placed] at found
      rw [split] at sorted ⊢
      refine ih sorted (last.imp_right fun ⟨i, hi, placedI, prevEq, others⟩ =>
        ⟨i, List.mem_append_left _ hi, placedI, prevEq, fun e he placedE => ?_⟩) found
      rcases List.mem_append.1 he with early | new
      · exact others e early placedE
      · rw [List.mem_singleton.1 new] at placedE
        exact absurd placedE placed

/-- A range of the file into which data may be written: every entry starts outside of it, and the
entries on disk lie entirely outside. -/
structure FreeRange (entries : List CacheEntry) (pos size : Int) : Prop where
  starts : ∀ e ∈ entries, e.Placed → e.posInCacheFile < pos ∨ pos + size ≤ e.posInCacheFile
  onDisk : ∀ m ∈ entries, m.writtenToDisk = true → m.Placed →
    m.posInCacheFile + m.dataSz ≤ pos ∨ pos + size ≤ m.posInCacheFile

/-- The hole found among laid out entries with comparable positions is free and in the file. -/
theorem findHoleIn_free {entries : List CacheEntry} {file : Bytes} {requiredSize : Nat}
    {hole : Int} (laid : LaidOut entries file)
    (distinct : Keyed.Distinct CacheEntry.hashKey entries)
    (sorted : BottomUpSort.Sorted CacheEntry.posInCacheFile entries)
    (found : findHoleIn requiredSize (-100) entries = some hole) :
    0 ≤ hole ∧ hole + requiredSize ≤ file.length ∧ FreeRange entries hole requiredSize := by
  rw [← List.nil_append entries] at sorted
  obtain ⟨i, hi, s, hs, placedI, placedS, rfl, room, neighbours⟩ :=
    findHoleIn_gap sorted (.inl (by decide)) found
  have inFile := laid.starts s hs placedS
  obtain ⟨posI, sizeI⟩ := placedI
  refine ⟨by omega, by omega, fun e he placedE => ?_, fun m hm written placedM => ?_⟩
  · rcases neighbours e he placedE with before | after
    · exact .inl (by omega)
    · exact .inr (by omega)
  · rcases neighbours m hm placedM with before | after
    · by_cases same : i.hashKey = m.hashKey
      · obtain rfl := List.inj_on_of_nodup_map distinct hi hm same
        exact .inl (le_refl _)
      · have outside := laid.apart i hi m hm same ⟨posI, sizeI⟩ written placedM
        simp only [CacheEntry.range, Set.mem_Ico] at outside
        exact .inl (by omega)
    · exact .inr (by omega)

theorem FreeRange.of_places {entries entries' : List CacheEntry} {pos size : Int}
    (h : FreeRange entries pos size) (places : PlacesFrom entries entries') :
    FreeRange entries' pos size where
  starts := by
    intro e' he' placed
    obtain ⟨e, he, same⟩ := places e' he'
    rw [← same.position]
    exact h.starts e he (same.placed.1 placed)
  onDisk := by
    intro m' hm' written placed
    obtain ⟨m, hm, same⟩ := places m' hm'
    rw [← same.position, ← same.size]
    exact h.onDisk m hm (same.written.trans written) (same.placed.1 placed)

/-- The end of the file is free. -/
theorem LaidOut.free_end {entries : List CacheEntry} {file : Bytes} (h : LaidOut entries file)
    (size : Nat) : FreeRange entries file.length size where
  starts := fun e he placed => .inl (h.starts e he placed)
  onDisk := fun m hm written placed => .inl (h.ends m hm written placed)

/-! ### The layout of the whole cache -/

/-- The range for the data in flight is free of the other entries, and the entry being written
is dirty and no larger than that range. -/
structure DiskCache.Targets (cache : DiskCache) : Prop where
  lowest : -1 ≤ cache.currentlyWriting.posInCacheFile
  free : 0 ≤ cache.currentlyWriting.posInCacheFile →
    FreeRange (cache.entries.filter fun e => e.hashKey ≠ cache.currentlyWriting.hashKey)
      cache.currentlyWriting.posInCacheFile cache.currentlyWriting.dataSz
  own : ∀ e ∈ cache.entries, e.hashKey = cache.currentlyWriting.hashKey →
    e.writtenToDisk = false ∧ e.dataSz ≤ cache.currentlyWriting.dataSz

/-- The defragmentation in progress moves every entry that has a place, and knows the place of
every entry on disk. -/
structure MovesAll (entries : List CacheEntry) (moved : List DefragEntry) : Prop where
  distinct : (moved.map DefragEntry.hashKey).Nodup
  sizes : ∀ d ∈ moved, 0 < d.dataSz
  covers : ∀ e ∈ entries, e.Placed → ∃ d ∈ moved, d.hashKey = e.hashKey
  same : ∀ m ∈ entries, m.writtenToDisk = true → ∀ d ∈ moved, d.hashKey = m.hashKey →
    0 ≤ m.posInCacheFile ∧ d.oldOffset = m.posInCacheFile.toNat ∧ d.dataSz = m.dataSz

/-- What the writer thread relies on between two of its steps. -/
def DiskCache.WriterLayout (cache : DiskCache) : Prop :=
  match cache.writer with
  | .looping => True
  | .defragging moved => MovesAll cache.entries moved
  | .writing written => cache.Targets ∧ written ≤ cache.currentlyWriting.dataSz ∧
      (cache.currentlyWriting.posInCacheFile < 0 → written = 0) ∧
      cache.currentlyWriting.posInCacheFile + written ≤ cache.file.length
  | .retiring => cache.Targets ∧ (0 ≤ cache.currentlyWriting.posInCacheFile →
      cache.currentlyWriting.posInCacheFile + cache.currentlyWriting.dataSz ≤ cache.file.length)
  | .emptying => ∀ e ∈ cache.entries, e.posInCacheFile < 0

/-- Data in memory has the size of its entry, and the writer thread holds data exactly between
taking it and retiring it. -/
structure DiskCache.Sized (cache : DiskCache) : Prop where
  entries : ∀ s ∈ cache.entries, ∀ data, s.data = some data → data.length = s.dataSz
  inFlight : cache.writer.InFlight → ∃ data, cache.currentlyWriting.data = some data ∧
    data.length = cache.currentlyWriting.dataSz
  idle : ¬ cache.writer.InFlight → cache.currentlyWriting.data = none

/-- The layout between any two steps. -/
structure DiskCache.Layout (cache : DiskCache) : Prop where
  consistent : cache.Consistent
  laid : LaidOut cache.entries cache.file
  writer : cache.WriterLayout
  sized : cache.Sized

theorem DiskCache.Layout.targets {cache : DiskCache} (h : cache.Layout)
    (flying : cache.writer.InFlight) : cache.Targets := by
  have layout := h.writer
  unfold DiskCache.WriterLayout at layout
  cases hwriter : cache.writer with
  | writing written =>
    rw [hwriter] at layout
    exact layout.1
  | retiring =>
    rw [hwriter] at layout
    exact layout.1
  | _ =>
    rw [hwriter] at flying
    exact absurd flying id

theorem DiskCache.Layout.inFlight_of_data {cache : DiskCache} (h : cache.Layout) {data : Bytes}
    (hdata : cache.currentlyWriting.data = some data) : cache.writer.InFlight :=
  Classical.not_not.1 fun idle => by simp [h.sized.idle idle] at hdata

/-! ### The calls of the main thread -/

/-- An entry comes from one with the same key and position.  It has not got a size where that one
had none, and it is marked as written only as that one was. -/
structure StemsFrom (e e' : CacheEntry) : Prop where
  hashKey : e.hashKey = e'.hashKey
  position : e.posInCacheFile = e'.posInCacheFile
  placed : e'.Placed → e.Placed
  written : e'.writtenToDisk = true → e.writtenToDisk = true ∧ e.dataSz = e'.dataSz

/-- What a call of the main thread does, if it meets the condition. -/
structure MainStep (cache next : DiskCache) : Prop where
  file : next.file = cache.file
  writer : next.writer = cache.writer
  currentlyWriting : next.currentlyWriting = cache.currentlyWriting
  stems : ∀ e' ∈ next.entries,
    (e'.posInCacheFile = -2 ∧ e'.writtenToDisk = false) ∨ ∃ e ∈ cache.entries, StemsFrom e e'
  own : cache.writer.InFlight → ∀ e' ∈ next.entries,
    e'.hashKey = cache.currentlyWriting.hashKey →
      (e'.writtenToDisk = false ∧ e'.dataSz ≤ cache.currentlyWriting.dataSz) ∨
      ∃ e ∈ cache.entries, SamePlace e e'

theorem SamePlace.stemsFrom {e e' : CacheEntry} (h : SamePlace e e') : StemsFrom e e' where
  hashKey := h.hashKey
  position := h.position
  placed := h.placed.1
  written := fun written => ⟨h.written.trans written, h.size⟩

theorem MainStep.of_places {cache next : DiskCache} (file : next.file = cache.file)
    (writer : next.writer = cache.writer)
    (currentlyWriting : next.currentlyWriting = cache.currentlyWriting)
    (places : PlacesFrom cache.entries next.entries) : MainStep cache next where
  file := file
  writer := writer
  currentlyWriting := currentlyWriting
  stems := fun e' he' => by
    obtain ⟨e, he, same⟩ := places e' he'
    exact .inr ⟨e, he, same.stemsFrom⟩
  own := fun _ e' he' _ => .inr (places e' he')

theorem MainStep.refl (cache : DiskCache) : MainStep cache cache :=
  .of_places rfl rfl rfl (.of_subset (List.Subset.refl _))

theorem addToDiskCache_mainStep {cache : DiskCache} (h : cache.Consistent) {key data : Bytes}
    {randomBytes : Option (Vector UInt8 64)}
    (fine : CacheStep.KeepsLayout cache (.add key data randomBytes)) :
    MainStep cache (addToDiskCache cache key data randomBytes).2 := by
  obtain ⟨notLarger, placeless⟩ := fine
  unfold addToDiskCache
  split
  · exact .refl cache
  · split
    · cases randomBytes with
      | none => exact .refl cache
      | some bytes =>
        refine ⟨rfl, rfl, rfl, fun e' he' => ?_, fun inFlight e' he' own => ?_⟩
        · rcases List.mem_append.1 he' with old | new
          · exact .inr ⟨e', old, (SamePlace.refl e').stemsFrom⟩
          · rw [List.mem_singleton.1 new]
            exact .inl ⟨rfl, rfl⟩
        · rcases List.mem_append.1 he' with old | new
          · exact .inr ⟨e', old, .refl e'⟩
          · rw [List.mem_singleton.1 new] at own ⊢
            exact .inl ⟨rfl, notLarger inFlight own.symm⟩
    · rename_i s found
      refine ⟨rfl, rfl, rfl, fun e' he' => ?_, fun inFlight e' he' own => ?_⟩
      · rcases Keyed.mem_update he' with ⟨old, -⟩ | ⟨old, hold, hkey, rfl⟩
        · exact .inr ⟨e', old, (SamePlace.refl e').stemsFrom⟩
        · refine .inr ⟨old, hold, rfl, rfl, fun placed => ⟨placed.1, ?_⟩, fun h => by simp at h⟩
          have same : s = old := by
            have known := Keyed.find_of_mem h.distinct hold
            rw [hkey] at known
            exact Option.some.inj (found.symm.trans known)
          have sized : 0 < data.length := placed.2
          refine Nat.pos_of_ne_zero fun zero => ?_
          rw [placeless s found (same ▸ placed.1) (same ▸ zero)] at sized
          exact absurd sized (Nat.lt_irrefl 0)
      · rcases Keyed.mem_update he' with ⟨old, -⟩ | ⟨old, hold, hkey, rfl⟩
        · exact .inr ⟨e', old, .refl e'⟩
        · exact .inl ⟨rfl, notLarger inFlight (own.symm.trans hkey)⟩

theorem removeFromDiskCache_mainStep (cache : DiskCache) (key : Bytes) :
    MainStep cache (removeFromDiskCache cache key).2 := by
  unfold removeFromDiskCache
  split
  · exact .refl cache
  · split
    · exact .refl cache
    · exact .of_places rfl rfl rfl (.of_subset fun e he => Keyed.mem_of_mem_delete he)

theorem readFromDiskCache_mainStep (cache : DiskCache) (key : Bytes) (storeInRam : Bool)
    (fresh : Bytes) : MainStep cache (readFromDiskCache cache key storeInRam fresh).2 := by
  unfold readFromDiskCache
  split
  · exact .refl cache
  · split
    · exact .refl cache
    · dsimp only
      split
      · exact .of_places rfl rfl rfl (.update _ _ fun _ => ⟨rfl, rfl, rfl, rfl⟩)
      · exact .refl cache

theorem clearEntryFromRam_samePlace (matches_ : Bytes → Bool) (e : CacheEntry) :
    SamePlace e (clearEntryFromRam matches_ e) := by
  unfold clearEntryFromRam
  split <;> exact ⟨rfl, rfl, rfl, rfl⟩

theorem diskCacheClearFromRam_mainStep (cache : DiskCache) (matches_ : Bytes → Bool) :
    MainStep cache (diskCacheClearFromRam cache matches_) := by
  refine .of_places rfl rfl rfl fun e' he' => ?_
  obtain ⟨e, he, rfl⟩ := List.mem_map.1 he'
  exact ⟨e, he, clearEntryFromRam_samePlace matches_ e⟩

/-- A call of the main thread that meets the condition. -/
theorem mainStep_of_step {cache next : DiskCache} (h : cache.Consistent) {step : CacheStep}
    (main : match step with
      | .add .. | .remove _ | .clear | .get .. | .clearFromRam _ => True
      | _ => False)
    (fine : step.KeepsLayout cache) (hstep : cache.step step = some next) :
    MainStep cache next := by
  cases step with
  | add key data randomBytes =>
    obtain rfl := Option.some.inj hstep
    exact addToDiskCache_mainStep h fine
  | remove key =>
    obtain rfl := Option.some.inj hstep
    exact removeFromDiskCache_mainStep cache key
  | clear =>
    obtain rfl := Option.some.inj hstep
    exact .of_places rfl rfl rfl (.of_subset (List.nil_subset _))
  | get key storeInRam fresh =>
    obtain rfl := Option.some.inj hstep
    exact readFromDiskCache_mainStep cache key storeInRam fresh
  | clearFromRam matches_ =>
    obtain rfl := Option.some.inj hstep
    exact diskCacheClearFromRam_mainStep cache matches_
  | _ => exact absurd main id

section MainStep

variable {cache next : DiskCache} (main : MainStep cache next)
include main

theorem MainStep.laid (h : LaidOut cache.entries cache.file) :
    LaidOut next.entries next.file := by
  rw [main.file]
  refine ⟨fun e' he' => ?_, fun e' he' m' hm' differ placed written placedM => ?_,
    fun e' he' placed => ?_, fun m' hm' written placed => ?_⟩
  · rcases main.stems e' he' with ⟨fresh, -⟩ | ⟨e, he, stem⟩
    · omega
    · exact stem.position ▸ h.lowest e he
  · rcases main.stems e' he' with ⟨fresh, -⟩ | ⟨e, he, stem⟩
    · exact absurd placed.1 (by omega)
    · rcases main.stems m' hm' with ⟨fresh, -⟩ | ⟨m, hm, stemM⟩
      · exact absurd placedM.1 (by omega)
      · obtain ⟨writtenM, size⟩ := stemM.written written
        rw [CacheEntry.range, ← stem.position, ← stemM.position, ← size]
        exact h.apart e he m hm (by rwa [stem.hashKey, stemM.hashKey]) (stem.placed placed)
          writtenM (stemM.placed placedM)
  · rcases main.stems e' he' with ⟨fresh, -⟩ | ⟨e, he, stem⟩
    · exact absurd placed.1 (by omega)
    · exact stem.position ▸ h.starts e he (stem.placed placed)
  · rcases main.stems m' hm' with ⟨fresh, -⟩ | ⟨m, hm, stem⟩
    · exact absurd placed.1 (by omega)
    · obtain ⟨writtenM, size⟩ := stem.written written
      rw [← stem.position, ← size]
      exact h.ends m hm writtenM (stem.placed placed)

theorem MainStep.targets (inFlight : cache.writer.InFlight) (h : cache.Targets) :
    next.Targets := by
  refine ⟨main.currentlyWriting ▸ h.lowest, fun placed => ?_, fun e' he' own => ?_⟩
  · rw [main.currentlyWriting] at placed ⊢
    have free := h.free placed
    refine ⟨fun e' he' placedE => ?_, fun m' hm' written placedM => ?_⟩
    · obtain ⟨he', other⟩ := List.mem_filter.1 he'
      rcases main.stems e' he' with ⟨fresh, -⟩ | ⟨e, he, stem⟩
      · exact absurd placedE.1 (by omega)
      · rw [← stem.position]
        exact free.starts e (List.mem_filter.2 ⟨he, by rwa [stem.hashKey]⟩) (stem.placed placedE)
    · obtain ⟨hm', other⟩ := List.mem_filter.1 hm'
      rcases main.stems m' hm' with ⟨fresh, -⟩ | ⟨m, hm, stem⟩
      · exact absurd placedM.1 (by omega)
      · obtain ⟨writtenM, size⟩ := stem.written written
        rw [← stem.position, ← size]
        exact free.onDisk m (List.mem_filter.2 ⟨hm, by rwa [stem.hashKey]⟩) writtenM
          (stem.placed placedM)
  · rw [main.currentlyWriting] at own ⊢
    rcases main.own inFlight e' he' own with small | ⟨e, he, same⟩
    · exact small
    · rw [← same.written, ← same.size]
      exact h.own e he (same.hashKey.trans own)

theorem MainStep.movesAll {moved : List DefragEntry} (h : MovesAll cache.entries moved) :
    MovesAll next.entries moved where
  distinct := h.distinct
  sizes := h.sizes
  covers := by
    intro e' he' placed
    rcases main.stems e' he' with ⟨fresh, -⟩ | ⟨e, he, stem⟩
    · exact absurd placed.1 (by omega)
    · exact stem.hashKey ▸ h.covers e he (stem.placed placed)
  same := by
    intro m' hm' written d hd hkey
    rcases main.stems m' hm' with ⟨-, dirty⟩ | ⟨m, hm, stem⟩
    · rw [dirty] at written
      exact absurd written Bool.false_ne_true
    · obtain ⟨writtenM, size⟩ := stem.written written
      rw [← stem.position, ← size]
      exact h.same m hm writtenM d hd (hkey.trans stem.hashKey.symm)

/-- The main thread does not disturb the writer thread. -/
theorem MainStep.writerLayout (h : cache.WriterLayout) : next.WriterLayout := by
  unfold DiskCache.WriterLayout at h ⊢
  rw [main.writer]
  cases hwriter : cache.writer with
  | looping => trivial
  | defragging moved =>
    rw [hwriter] at h
    exact main.movesAll h
  | writing written =>
    rw [hwriter] at h
    obtain ⟨targets, rest⟩ := h
    refine ⟨main.targets (by rw [hwriter]; trivial) targets, ?_⟩
    rw [main.currentlyWriting, main.file]
    exact rest
  | retiring =>
    rw [hwriter] at h
    obtain ⟨targets, rest⟩ := h
    refine ⟨main.targets (by rw [hwriter]; trivial) targets, ?_⟩
    rw [main.currentlyWriting, main.file]
    exact rest
  | emptying =>
    rw [hwriter] at h
    intro e' he'
    rcases main.stems e' he' with ⟨fresh, -⟩ | ⟨e, he, stem⟩
    · omega
    · exact stem.position ▸ h e he

end MainStep

/-! ### Looking for an entry to write -/

/-- The search takes the data of one dirty entry, or finds that all entries are written. -/
theorem takeDirty_cases {entries : List CacheEntry}
    (distinct : Keyed.Distinct CacheEntry.hashKey entries) (allData : AllDirtyHaveData entries) :
    (takeDirty entries = (none, entries) ∧ ∀ s ∈ entries, s.writtenToDisk = true) ∨
    ∃ s data, s ∈ entries ∧ s.writtenToDisk = false ∧ s.data = some data ∧
      takeDirty entries = (some (s, data),
        Keyed.update CacheEntry.hashKey s.hashKey (fun s => { s with data := none }) entries) := by
  induction entries with
  | nil => exact .inl ⟨rfl, by simp⟩
  | cons first rest ih =>
    obtain ⟨fresh, restDistinct⟩ := List.nodup_cons.1 distinct
    unfold takeDirty
    by_cases written : first.writtenToDisk = true
    · rw [if_pos written]
      rcases ih restDistinct allData.tail with ⟨none, all⟩ | ⟨s, data, hs, dirty, hdata, found⟩
      · rw [none]
        exact .inl ⟨rfl, fun s hs => by
          rcases List.mem_cons.1 hs with rfl | later
          · exact written
          · exact all s later⟩
      · have differ : first.hashKey ≠ s.hashKey := fun same =>
          fresh (same ▸ List.mem_map_of_mem hs)
        rw [found]
        exact .inr ⟨s, data, List.mem_cons_of_mem _ hs, dirty, hdata, by
          simp [Keyed.update, differ]⟩
    · rw [if_neg written]
      have dirty : first.writtenToDisk = false := by simpa using written
      cases hdata : first.data with
      | none => exact absurd hdata (allData first (by simp) dirty)
      | some data =>
        have others : Keyed.update CacheEntry.hashKey first.hashKey
            (fun s => { s with data := none }) rest = rest := Keyed.update_of_not_mem fresh
        refine .inr ⟨first, data, by simp, dirty, hdata, ?_⟩
        conv_lhs => rw [← others]
        simp [Keyed.update]

/-- A hole that is found is free; without one the position stays as it was. -/
theorem findHole_spec {cache : DiskCache} (laid : LaidOut cache.entries cache.file)
    (distinct : Keyed.Distinct CacheEntry.hashKey cache.entries) (fit : cache.PositionsFitInt) :
    ∃ entries position, entries.Perm cache.entries ∧
      findHole cache = { cache with
        entries := entries
        currentlyWriting := { cache.currentlyWriting with posInCacheFile := position } } ∧
      (position = cache.currentlyWriting.posInCacheFile ∨
        0 ≤ position ∧ position + cache.currentlyWriting.dataSz ≤ cache.file.length ∧
          FreeRange entries position cache.currentlyWriting.dataSz) := by
  have perm : (BottomUpSort.sort (fun a b => decide (cmpPosInCacheFile a b ≤ 0))
      cache.entries).Perm cache.entries := BottomUpSort.sort_perm _
  have sorted := BottomUpSort.sort_sorted (cmpPosInCacheFile_comparesKeys laid.lowest fit)
  have laid' := laid.of_places (PlacesFrom.of_subset perm.subset)
  have distinct' : Keyed.Distinct CacheEntry.hashKey (BottomUpSort.sort
      (fun a b => decide (cmpPosInCacheFile a b ≤ 0)) cache.entries) :=
    (perm.map _).nodup_iff.2 distinct
  refine ⟨_, _, perm, rfl, ?_⟩
  cases found : findHoleIn cache.currentlyWriting.dataSz (-100)
      (BottomUpSort.sort (fun a b => decide (cmpPosInCacheFile a b ≤ 0)) cache.entries) with
  | none => exact .inl rfl
  | some hole => exact .inr (findHoleIn_free laid' distinct' sorted found)

/-- What the search needs: no data in flight, laid out entries and comparable positions. -/
structure ReadyToSearch (cache : DiskCache) : Prop where
  distinct : Keyed.Distinct CacheEntry.hashKey cache.entries
  keyShort : ∀ s ∈ cache.entries, s.hashKey.length ≤ maxKeySize
  allData : AllDirtyHaveData cache.entries
  laid : LaidOut cache.entries cache.file
  fit : cache.PositionsFitInt

/-- What the search does: either there is nothing to write, or the data of a dirty entry `s` is in
flight, encrypted, to a free range or to the end of the file. -/
inductive Searched (cache : DiskCache) : DiskCache → Prop
  | clean (all : ∀ s ∈ cache.entries, s.writtenToDisk = true) :
      Searched cache
        { cache with writer := if cache.entries.isEmpty then .emptying else .looping }
  | taken (s : CacheEntry) (data : Bytes) (entries : List CacheEntry) (position : Int)
      (known : s ∈ cache.entries) (dirty : s.writtenToDisk = false) (hasData : s.data = some data)
      (perm : entries.Perm (Keyed.update CacheEntry.hashKey s.hashKey
        (fun s => { s with data := none }) cache.entries))
      (free : position = -1 ∨ 0 ≤ position ∧ position + s.dataSz ≤ cache.file.length ∧
        FreeRange entries position s.dataSz) :
      Searched cache { cache with
        entries := entries
        currentlyWriting :=
          { hashKey := s.hashKey
            data := some (xorData s.encryptionKey data)
            dataSz := s.dataSz
            posInCacheFile := position }
        writer := .writing 0 }

theorem findCacheEntryToWrite_searched {cache : DiskCache} (ready : ReadyToSearch cache) :
    Searched cache (findCacheEntryToWrite cache) := by
  unfold findCacheEntryToWrite
  rcases takeDirty_cases ready.distinct ready.allData with
    ⟨found, all⟩ | ⟨s, data, hs, dirty, hasData, found⟩
  · rw [found]
    exact .clean all
  · rw [found]
    have places := PlacesFrom.takeData cache.entries s.hashKey
    have fit : ∀ e' ∈ Keyed.update CacheEntry.hashKey s.hashKey
        (fun s => { s with data := none }) cache.entries, e'.posInCacheFile + 2 < 2 ^ 31 :=
      fun e' he' => by
        obtain ⟨e, he, same⟩ := places e' he'
        exact same.position ▸ ready.fit e he
    dsimp only
    obtain ⟨entries, position, perm, eq, free⟩ := @findHole_spec { cache with
        entries := Keyed.update CacheEntry.hashKey s.hashKey
          (fun s => { s with data := none }) cache.entries
        currentlyWriting :=
          { hashKey := s.hashKey.take maxKeySize
            data := some (xorData s.encryptionKey data)
            dataSz := s.dataSz
            posInCacheFile := -1 }
        writer := .writing 0 }
      (ready.laid.of_places places) (Keyed.update_distinct ready.distinct fun _ => rfl) fit
    rw [eq, List.take_of_length_le (ready.keyShort s hs)]
    exact .taken s data entries position hs dirty hasData perm free

/-- The search moves no entry in the file. -/
theorem Searched.places {cache next : DiskCache} (h : Searched cache next) :
    next.file = cache.file ∧ PlacesFrom cache.entries next.entries ∧
      PlacesFrom next.entries cache.entries := by
  cases h with
  | clean all => exact ⟨rfl, .of_subset (List.Subset.refl _), .of_subset (List.Subset.refl _)⟩
  | taken s data entries position known dirty hasData perm free =>
    refine ⟨rfl, (PlacesFrom.takeData _ _).trans
      (.of_subset perm.subset), fun e he => ?_⟩
    refine ⟨if e.hashKey = s.hashKey then { e with data := none } else e,
      perm.mem_iff.2 (List.mem_map_of_mem he), ?_⟩
    split <;> exact ⟨rfl, rfl, rfl, rfl⟩

theorem Searched.writerLayout {cache next : DiskCache} (ready : ReadyToSearch cache)
    (h : Searched cache next) : next.WriterLayout := by
  cases h with
  | clean all =>
    unfold DiskCache.WriterLayout
    cases hentries : cache.entries with
    | nil => simp
    | cons first rest => simp
  | taken s data entries position known dirty hasData perm free =>
    have places : PlacesFrom cache.entries entries :=
      (PlacesFrom.takeData _ _).trans (.of_subset perm.subset)
    refine ⟨⟨?_, fun placed => ?_, fun e' he' own => ?_⟩, Nat.zero_le _, fun _ => rfl, ?_⟩
    · dsimp only
      omega
    · rcases free with rfl | ⟨-, -, free⟩
      · exact absurd (show (0 : Int) ≤ -1 from placed) (by decide)
      · exact free.of_places (.of_subset fun e he => List.mem_of_mem_filter he)
    · obtain ⟨e, he, same⟩ := places e' he'
      have isTaken := List.inj_on_of_nodup_map ready.distinct he known (same.hashKey.trans own)
      subst isTaken
      exact ⟨same.written ▸ dirty, Nat.le_of_eq same.size.symm⟩
    · dsimp only
      omega

/-! ### Defragmentation -/

/-- Where the copying loop puts the entries: one behind the other, with their bytes. -/
structure Copied (file copied final : Bytes) (placed : List (DefragEntry × Nat)) : Prop where
  extends_ : copied <+: final
  length : final.length = copied.length + (placed.map fun p => p.1.dataSz).sum
  behind : ∀ p ∈ placed, copied.length ≤ p.2
  inside : ∀ p ∈ placed, p.2 + p.1.dataSz ≤ final.length
  bytes : ∀ p ∈ placed, FileBytes.read final p.2 p.1.dataSz =
    FileBytes.read file p.1.oldOffset p.1.dataSz
  apart : placed.Pairwise fun p q => p.2 + p.1.dataSz ≤ q.2

theorem defragCopy_copied {file copied final : Bytes} {moved : List DefragEntry}
    {offsets : List (Bytes × Nat)} (h : defragCopy file copied moved = some (final, offsets)) :
    ∃ placed : List (DefragEntry × Nat), placed.map Prod.fst = moved ∧
      offsets = placed.map (fun p => (p.1.hashKey, p.2)) ∧ Copied file copied final placed := by
  induction moved generalizing copied final offsets with
  | nil =>
    obtain ⟨rfl, rfl⟩ := Prod.mk.inj (Option.some.inj h)
    exact ⟨[], rfl, rfl, List.prefix_refl _, by simp, by simp, by simp, by simp,
      List.Pairwise.nil⟩
  | cons e rest ih =>
    obtain ⟨bytes, bytesEq, h⟩ := Option.bind_eq_some_iff.1 h
    obtain ⟨⟨final', offsets'⟩, restEq, h⟩ := Option.bind_eq_some_iff.1 h
    obtain ⟨rfl, rfl⟩ := Prod.mk.inj (Option.some.inj h)
    obtain ⟨placed, movedEq, rfl, later⟩ := ih restEq
    have whole : bytes = FileBytes.read file e.oldOffset e.dataSz ∧ bytes.length = e.dataSz := by
      simp only [copyBetweenFiles] at bytesEq
      split at bytesEq
      · obtain rfl := Option.some.inj bytesEq
        exact ⟨rfl, ‹_›⟩
      · simp at bytesEq
    obtain ⟨bytesRead, size⟩ := whole
    obtain ⟨tail, finalEq⟩ := later.extends_
    have behind : ∀ p ∈ placed, copied.length + e.dataSz ≤ p.2 := fun p hp => by
      have := later.behind p hp
      rwa [List.length_append, size] at this
    refine ⟨(e, copied.length) :: placed, by simp [movedEq], by simp, ?_, ?_, ?_, ?_, ?_, ?_⟩
    · exact (List.prefix_append _ _).trans later.extends_
    · rw [later.length, List.length_append, size, List.map_cons, List.sum_cons,
        Nat.add_assoc]
    · rintro p (_ | ⟨_, hp⟩)
      · exact le_refl _
      · have := behind p hp
        omega
    · rintro p (_ | ⟨_, hp⟩)
      · rw [← finalEq, List.length_append, List.length_append, size]
        exact Nat.le_add_right _ _
      · exact later.inside p hp
    · rintro p (_ | ⟨_, hp⟩)
      · rw [← finalEq, ← size, FileBytes.read_middle, size]
        exact bytesRead
      · exact later.bytes p hp
    · exact List.pairwise_cons.2 ⟨behind, later.apart⟩

/-- Storing the new offsets changes the position of the entries that were moved, and of no
other. -/
theorem mem_setOffsets {entries : List CacheEntry} {offsets : List (Bytes × Nat)}
    {e' : CacheEntry} (h : e' ∈ setOffsets entries offsets) :
    ∃ e ∈ entries,
      (∃ offset, (e.hashKey, offset) ∈ offsets ∧ e' = { e with posInCacheFile := offset }) ∨
      (e.hashKey ∉ offsets.map Prod.fst ∧ e' = e) := by
  induction offsets generalizing entries with
  | nil => exact ⟨e', h, .inr ⟨by simp, rfl⟩⟩
  | cons first rest ih =>
    obtain ⟨key, offset⟩ := first
    obtain ⟨e, he, later⟩ := ih h
    rcases Keyed.mem_update he with ⟨old, other⟩ | ⟨old, hold, hkey, rfl⟩
    · refine ⟨e, old, later.imp ?_ ?_⟩
      · rintro ⟨offset', hoffset, rfl⟩
        exact ⟨offset', List.mem_cons_of_mem _ hoffset, rfl⟩
      · rintro ⟨missing, rfl⟩
        exact ⟨by simpa [missing] using other, rfl⟩
    · refine ⟨old, hold, .inl ?_⟩
      rcases later with ⟨offset', hoffset, rfl⟩ | ⟨missing, rfl⟩
      · exact ⟨offset', List.mem_cons_of_mem _ hoffset, rfl⟩
      · exact ⟨offset, by simp [hkey], rfl⟩

/-- An entry with a place after the defragmentation is one that was moved. -/
theorem MovesAll.moved_of_placed {entries : List CacheEntry} {moved : List DefragEntry}
    (h : MovesAll entries moved) {placed : List (DefragEntry × Nat)}
    (movedEq : placed.map Prod.fst = moved) {e' : CacheEntry}
    (he' : e' ∈ setOffsets entries (placed.map fun p => (p.1.hashKey, p.2))) :
    ∃ e ∈ entries,
      (∃ p ∈ placed, p.1.hashKey = e.hashKey ∧ e' = { e with posInCacheFile := p.2 }) ∨
      (e' = e ∧ ¬ e.Placed ∧ ∀ p ∈ placed, p.1.hashKey ≠ e.hashKey) := by
  obtain ⟨e, he, ⟨offset, hoffset, rfl⟩ | ⟨missing, rfl⟩⟩ := mem_setOffsets he'
  · obtain ⟨p, hp, eq⟩ := List.mem_map.1 hoffset
    obtain ⟨hkey, rfl⟩ := Prod.mk.inj eq
    exact ⟨e, he, .inl ⟨p, hp, hkey, rfl⟩⟩
  · have unmoved : ∀ p ∈ placed, p.1.hashKey ≠ e'.hashKey := by
      intro p hp same
      refine missing ?_
      rw [List.map_map]
      exact List.mem_map.2 ⟨p, hp, same⟩
    refine ⟨e', he, .inr ⟨rfl, fun isPlaced => ?_, unmoved⟩⟩
    obtain ⟨d, hd, hkey⟩ := h.covers e' he isPlaced
    obtain ⟨p, hp, rfl⟩ := List.mem_map.1 (movedEq ▸ hd)
    exact unmoved p hp hkey

/-- Two entries moved to different places lie one behind the other. -/
theorem Copied.apart_of_ne {file copied final : Bytes} {placed : List (DefragEntry × Nat)}
    (h : Copied file copied final placed) {p q : DefragEntry × Nat} (hp : p ∈ placed)
    (hq : q ∈ placed) (differ : p ≠ q) :
    p.2 + p.1.dataSz ≤ q.2 ∨ q.2 + q.1.dataSz ≤ p.2 := by
  have : Std.Symm fun p q : DefragEntry × Nat =>
      p.2 + p.1.dataSz ≤ q.2 ∨ q.2 + q.1.dataSz ≤ p.2 := ⟨fun _ _ => Or.symm⟩
  have either : placed.Pairwise fun p q =>
      p.2 + p.1.dataSz ≤ q.2 ∨ q.2 + q.1.dataSz ≤ p.2 := h.apart.imp Or.inl
  exact either.forall hp hq differ

/-- After the defragmentation the entries are laid out in the new file. -/
theorem setOffsets_laid {entries : List CacheEntry} {file final : Bytes}
    {moved : List DefragEntry} {placed : List (DefragEntry × Nat)} (laid : LaidOut entries file)
    (moves : MovesAll entries moved) (movedEq : placed.map Prod.fst = moved)
    (copied : Copied file [] final placed) :
    LaidOut (setOffsets entries (placed.map fun p => (p.1.hashKey, p.2))) final where
  lowest := by
    intro e' he'
    obtain ⟨e, he, ⟨p, -, -, rfl⟩ | ⟨rfl, -, -⟩⟩ := moves.moved_of_placed movedEq he'
    · dsimp only
      omega
    · exact laid.lowest e' he
  apart := by
    intro e' he' m' hm' differ isPlaced written isPlacedM
    obtain ⟨e, he, ⟨p, hp, keyP, rfl⟩ | ⟨rfl, unplaced, -⟩⟩ := moves.moved_of_placed movedEq he'
    · obtain ⟨m, hm, ⟨q, hq, keyQ, rfl⟩ | ⟨rfl, unplaced, -⟩⟩ :=
        moves.moved_of_placed movedEq hm'
      · have different : p ≠ q := fun same => differ (by
          rw [← keyP, ← keyQ, same])
        have sizeP := moves.sizes p.1 (movedEq ▸ List.mem_map_of_mem hp)
        obtain ⟨-, -, sizeQ⟩ := moves.same m hm written q.1 (movedEq ▸ List.mem_map_of_mem hq) keyQ
        have order := copied.apart_of_ne hp hq different
        simp only [CacheEntry.range, Set.mem_Ico]
        omega
      · exact absurd isPlacedM unplaced
    · exact absurd isPlaced unplaced
  starts := by
    intro e' he' isPlaced
    obtain ⟨e, he, ⟨p, hp, -, rfl⟩ | ⟨rfl, unplaced, -⟩⟩ := moves.moved_of_placed movedEq he'
    · have size := moves.sizes p.1 (movedEq ▸ List.mem_map_of_mem hp)
      have inside := copied.inside p hp
      dsimp only
      omega
    · exact absurd isPlaced unplaced
  ends := by
    intro m' hm' written isPlaced
    obtain ⟨m, hm, ⟨q, hq, keyQ, rfl⟩ | ⟨rfl, unplaced, -⟩⟩ := moves.moved_of_placed movedEq hm'
    · obtain ⟨-, -, size⟩ := moves.same m hm written q.1 (movedEq ▸ List.mem_map_of_mem hq) keyQ
      have inside := copied.inside q hq
      dsimp only
      omega
    · exact absurd isPlaced unplaced

/-- Every entry is still there after storing offsets with distinct keys. -/
theorem setOffsets_mem {entries : List CacheEntry} {offsets : List (Bytes × Nat)}
    (distinct : (offsets.map Prod.fst).Nodup) {e : CacheEntry} (he : e ∈ entries) :
    (∀ offset, (e.hashKey, offset) ∈ offsets →
      { e with posInCacheFile := offset } ∈ setOffsets entries offsets) ∧
    (e.hashKey ∉ offsets.map Prod.fst → e ∈ setOffsets entries offsets) := by
  induction offsets generalizing entries e with
  | nil => exact ⟨fun _ missing => (by simp at missing), fun _ => he⟩
  | cons first rest ih =>
    obtain ⟨key, offset⟩ := first
    obtain ⟨fresh, restDistinct⟩ := List.nodup_cons.1 distinct
    have updated : (if e.hashKey = key then { e with posInCacheFile := (offset : Int) } else e) ∈
        Keyed.update CacheEntry.hashKey key (fun s => { s with posInCacheFile := offset })
          entries := List.mem_map_of_mem he
    by_cases hkey : e.hashKey = key
    · rw [if_pos hkey] at updated
      obtain ⟨moved, kept⟩ := ih restDistinct updated
      refine ⟨fun offset' hoffset => ?_, fun missing => absurd (by simp [hkey]) missing⟩
      rcases List.mem_cons.1 hoffset with same | later
      · obtain ⟨-, rfl⟩ := Prod.mk.inj same
        exact kept (hkey ▸ fresh)
      · exact absurd (List.mem_map_of_mem later) (hkey ▸ fresh)
    · rw [if_neg hkey] at updated
      obtain ⟨moved, kept⟩ := ih restDistinct updated
      refine ⟨fun offset' hoffset => ?_, fun missing => kept fun later =>
        missing (List.mem_cons_of_mem _ later)⟩
      rcases List.mem_cons.1 hoffset with same | later
      · exact absurd (Prod.mk.inj same).1 hkey
      · exact moved offset' later

/-- The defragmentation gives every entry on disk its bytes back at the new position. -/
theorem setOffsets_bytes {entries : List CacheEntry} {file final : Bytes}
    {moved : List DefragEntry} {placed : List (DefragEntry × Nat)}
    (moves : MovesAll entries moved) (movedEq : placed.map Prod.fst = moved)
    (copied : Copied file [] final placed) {m : CacheEntry} (hm : m ∈ entries)
    (onDisk : m.OnDisk) :
    ∃ position : Nat,
      { m with posInCacheFile := position } ∈
        setOffsets entries (placed.map fun p => (p.1.hashKey, p.2)) ∧
      FileBytes.read final position m.dataSz =
        FileBytes.read file m.posInCacheFile.toNat m.dataSz := by
  have keys : (placed.map fun p => (p.1.hashKey, p.2)).map Prod.fst =
      moved.map DefragEntry.hashKey := by
    rw [← movedEq, List.map_map, List.map_map]
    rfl
  obtain ⟨put, kept⟩ := setOffsets_mem (keys ▸ moves.distinct) hm
  by_cases isMoved : ∃ p ∈ placed, p.1.hashKey = m.hashKey
  · obtain ⟨p, hp, hkey⟩ := isMoved
    obtain ⟨-, oldOffset, size⟩ :=
      moves.same m hm onDisk.1 p.1 (movedEq ▸ List.mem_map_of_mem hp) hkey
    refine ⟨p.2, put p.2 (List.mem_map.2 ⟨p, hp, by rw [hkey]⟩), ?_⟩
    have bytes := copied.bytes p hp
    rwa [size, oldOffset] at bytes
  · have missing : m.hashKey ∉ (placed.map fun p => (p.1.hashKey, p.2)).map Prod.fst := by
      rw [List.map_map]
      intro present
      obtain ⟨p, hp, hkey⟩ := List.mem_map.1 present
      exact isMoved ⟨p, hp, hkey⟩
    have empty : m.dataSz = 0 := by
      refine Nat.eq_zero_of_not_pos fun sized => ?_
      obtain ⟨d, hd, hkey⟩ := moves.covers m hm ⟨onDisk.2, sized⟩
      obtain ⟨p, hp, rfl⟩ := List.mem_map.1 (movedEq ▸ hd)
      exact isMoved ⟨p, hp, hkey⟩
    refine ⟨m.posInCacheFile.toNat, ?_, by rw [empty, FileBytes.read_zero, FileBytes.read_zero]⟩
    have position : ((m.posInCacheFile.toNat : Nat) : Int) = m.posInCacheFile :=
      Int.toNat_of_nonneg onDisk.2
    rw [position]
    exact kept missing

/-- The entries `defrag` collects, before the mutex is released. -/
theorem defragEntries_movesAll {cache : DiskCache}
    (distinct : Keyed.Distinct CacheEntry.hashKey cache.entries) :
    MovesAll cache.entries cache.defragEntries where
  distinct := by
    refine List.Nodup.sublist ?_ distinct
    unfold DiskCache.defragEntries
    generalize cache.entries = entries
    induction entries with
    | nil => exact List.Sublist.slnil
    | cons e rest ih =>
      rw [List.filterMap_cons]
      split
      · exact ih.cons _
      · rename_i d chosen
        split at chosen
        · obtain rfl := Option.some.inj chosen
          exact ih.cons_cons _
        · simp at chosen
  sizes := by
    intro d hd
    obtain ⟨e, -, chosen⟩ := List.mem_filterMap.1 hd
    split at chosen
    · obtain rfl := Option.some.inj chosen
      dsimp only
      omega
    · simp at chosen
  covers := by
    rintro e he ⟨position, sized⟩
    refine ⟨⟨e.hashKey, e.posInCacheFile.toNat, e.dataSz⟩, ?_, rfl⟩
    exact List.mem_filterMap.2 ⟨e, he, if_pos ⟨by omega, by omega⟩⟩
  same := by
    intro m hm written d hd hkey
    obtain ⟨e, he, chosen⟩ := List.mem_filterMap.1 hd
    split at chosen
    · obtain rfl := Option.some.inj chosen
      obtain rfl := List.inj_on_of_nodup_map distinct he hm hkey
      exact ⟨by omega, rfl, rfl⟩
    · simp at chosen

/-! ### The steps of the writer thread -/

theorem DiskCache.Layout.ready {cache : DiskCache} (h : cache.Layout)
    (idle : ¬ cache.writer.InFlight) (fit : cache.PositionsFitInt) : ReadyToSearch cache where
  distinct := h.consistent.distinct
  keyShort := h.consistent.keyShort
  allData := h.consistent.allDirtyHaveData idle
  laid := h.laid
  fit := fit

theorem lookForWork_cases {cache next : DiskCache} (h : cache.Layout) {newFileReady : Bool}
    (fit : cache.PositionsFitInt) (hstep : cache.step (.lookForWork newFileReady) = some next) :
    cache.writer = .looping ∧
      (next = { cache with writer := .defragging cache.defragEntries } ∨
        ReadyToSearch cache ∧ Searched cache next) := by
  cases hwriter : cache.writer with
  | looping =>
    have ready := h.ready (by simp [hwriter, WriterState.InFlight]) fit
    simp only [DiskCache.step, hwriter] at hstep
    split at hstep
    · exact ⟨rfl, .inl (Option.some.inj hstep).symm⟩
    · obtain rfl := Option.some.inj hstep
      exact ⟨rfl, .inr ⟨ready, findCacheEntryToWrite_searched ready⟩⟩
  | _ => simp [DiskCache.step, hwriter] at hstep

/-- The defragmentation fails and the search goes on in the old file, or it succeeds. -/
theorem finishDefrag_cases {cache next : DiskCache} (h : cache.Layout) {copied : Bool}
    (fine : CacheStep.KeepsLayout cache (.finishDefrag copied))
    (hstep : cache.step (.finishDefrag copied) = some next) :
    ∃ moved, cache.writer = .defragging moved ∧
      (ReadyToSearch cache ∧ Searched cache next ∨
        ∃ final placed, placed.map Prod.fst = moved ∧ Copied cache.file [] final placed ∧
          ReadyToSearch { cache with
            file := final
            entries := setOffsets cache.entries (placed.map fun p => (p.1.hashKey, p.2)) } ∧
          Searched { cache with
            file := final
            entries := setOffsets cache.entries (placed.map fun p => (p.1.hashKey, p.2)) }
            next) := by
  obtain ⟨fit, small⟩ := fine
  obtain ⟨moved, hwriter⟩ : ∃ moved, cache.writer = .defragging moved := by
    cases hwriter : cache.writer with
    | defragging moved => exact ⟨moved, rfl⟩
    | _ => simp [DiskCache.step, hwriter] at hstep
  refine ⟨moved, hwriter, ?_⟩
  have idle : ¬ cache.writer.InFlight := by simp [hwriter, WriterState.InFlight]
  have moves : MovesAll cache.entries moved := by
    have layout := h.writer
    unfold DiskCache.WriterLayout at layout
    rwa [hwriter] at layout
  simp only [DiskCache.step, hwriter] at hstep
  split at hstep
  · rename_i final offsets found
    obtain rfl := Option.some.inj hstep
    split at found
    · obtain ⟨placed, movedEq, rfl, copies⟩ := defragCopy_copied found
      obtain ⟨keys, -, data⟩ :=
        setOffsets_keeps (placed.map fun p => (p.1.hashKey, p.2)) cache.entries
      have ready : ReadyToSearch { cache with
          file := final
          entries := setOffsets cache.entries
            (placed.map fun p => (p.1.hashKey, p.2)) } := by
        refine ⟨?_, fun e' he' => ?_, data (h.consistent.allDirtyHaveData idle),
          setOffsets_laid h.laid moves movedEq copies, fun e' he' => ?_⟩
        · unfold Keyed.Distinct
          rw [keys]
          exact h.consistent.distinct
        · have hkey := keys ▸ List.mem_map_of_mem he'
          obtain ⟨e, he, same⟩ := List.mem_map.1 hkey
          exact same ▸ h.consistent.keyShort e he
        · obtain ⟨e, he, ⟨p, hp, -, rfl⟩ | ⟨rfl, -, -⟩⟩ := moves.moved_of_placed movedEq he'
          · have size := moves.sizes p.1 (movedEq ▸ List.mem_map_of_mem hp)
            have inside := copies.inside p hp
            have total : final.length = (moved.map DefragEntry.dataSz).sum := by
              rw [copies.length, ← movedEq, List.map_map]
              exact Nat.zero_add _
            have bound := small moved hwriter
            dsimp only
            omega
          · exact fit e' he
      exact .inr ⟨final, placed, movedEq, copies, ready, findCacheEntryToWrite_searched ready⟩
    · simp at found
  · obtain rfl := Option.some.inj hstep
    exact .inl ⟨h.ready idle fit, findCacheEntryToWrite_searched (h.ready idle fit)⟩

/-- The position `write_dirty_entry` writes to. -/
def DiskCache.target (cache : DiskCache) : Int :=
  if cache.currentlyWriting.posInCacheFile < 0 then cache.file.length
  else cache.currentlyWriting.posInCacheFile

/-- What one round of `write_dirty_entry` does. -/
inductive Wrote (cache : DiskCache) (written : Nat) (accepted : Option Nat) : DiskCache → Prop
  | failed
      (refused : (cache.currentlyWriting.posInCacheFile < 0 ∧ accepted = none) ∨
        (written < cache.currentlyWriting.dataSz ∧ (accepted = none ∨ accepted = some 0))) :
      Wrote cache written accepted { cache with
        currentlyWriting := { cache.currentlyWriting with posInCacheFile := -1 }
        writer := .retiring }
  | finished (whole : cache.currentlyWriting.dataSz ≤ written) :
      Wrote cache written accepted { cache with
        currentlyWriting := { cache.currentlyWriting with posInCacheFile := cache.target }
        writer := .retiring }
  | progressed (n : Nat) (fits : written + n ≤ cache.currentlyWriting.dataSz) :
      Wrote cache written accepted { cache with
        currentlyWriting := { cache.currentlyWriting with posInCacheFile := cache.target }
        file := pwriteAt cache.file (cache.target.toNat + written)
          (((cache.currentlyWriting.data.getD []).drop written).take n)
        writer := .writing (written + n) }

theorem writeDirtyEntry_wrote (cache : DiskCache) (written : Nat) (accepted : Option Nat) :
    Wrote cache written accepted (writeDirtyEntry cache written accepted) := by
  unfold writeDirtyEntry
  dsimp only
  split
  · exact .failed (.inl ‹_›)
  · split
    · exact .finished (by omega)
    · split
      · exact .failed (.inr ⟨by omega, .inl rfl⟩)
      · exact .failed (.inr ⟨by omega, .inr rfl⟩)
      · exact .progressed _ (by omega)

theorem pwriteAt_eq_write (file : Bytes) (offset : Nat) (bytes : Bytes) :
    pwriteAt file offset bytes = FileBytes.write 0 file offset bytes := rfl

/-- The range written to is free of the other entries. -/
theorem DiskCache.Targets.target_free {cache : DiskCache} (h : cache.Targets)
    (laid : LaidOut cache.entries cache.file) :
    FreeRange (cache.entries.filter fun e => e.hashKey ≠ cache.currentlyWriting.hashKey)
      cache.target cache.currentlyWriting.dataSz := by
  unfold DiskCache.target
  split
  · exact (laid.free_end _).of_places (.of_subset fun e he => List.mem_of_mem_filter he)
  · exact h.free (by omega)

theorem DiskCache.target_nonneg (cache : DiskCache) : 0 ≤ cache.target := by
  unfold DiskCache.target
  split <;> omega

/-- The data in flight can be written to the position it has, or will get. -/
theorem DiskCache.target_inFile {cache : DiskCache} {written : Nat}
    (unplaced : cache.currentlyWriting.posInCacheFile < 0 → written = 0)
    (inFile : cache.currentlyWriting.posInCacheFile + written ≤ cache.file.length) :
    cache.target + written ≤ cache.file.length := by
  unfold DiskCache.target
  split
  · omega
  · exact inFile

theorem Wrote.laid {cache next : DiskCache} {written : Nat} {accepted : Option Nat}
    (h : Wrote cache written accepted next) (laid : LaidOut cache.entries cache.file) :
    LaidOut next.entries next.file := by
  cases h with
  | failed => exact laid
  | finished => exact laid
  | progressed n fits =>
    refine laid.of_longer ?_
    rw [pwriteAt_eq_write, FileBytes.length_write]
    exact Nat.le_max_left _ _

theorem Wrote.writerLayout {cache next : DiskCache} {written : Nat} {accepted : Option Nat}
    (h : Wrote cache written accepted next) (laid : LaidOut cache.entries cache.file)
    (hwriter : cache.writer = .writing written) (layout : cache.WriterLayout)
    (sized : ∃ data, cache.currentlyWriting.data = some data ∧
      data.length = cache.currentlyWriting.dataSz) : next.WriterLayout := by
  unfold DiskCache.WriterLayout at layout
  rw [hwriter] at layout
  obtain ⟨targets, within, unplaced, inFile⟩ := layout
  have free := targets.target_free laid
  have lowest := cache.target_nonneg
  have inFile := DiskCache.target_inFile unplaced inFile
  cases h with
  | failed =>
    exact ⟨⟨le_refl _, fun placed => absurd (show (0 : Int) ≤ -1 from placed) (by decide),
      targets.own⟩, fun placed => absurd (show (0 : Int) ≤ -1 from placed) (by decide)⟩
  | finished whole =>
    refine ⟨⟨?_, fun _ => free, targets.own⟩, fun _ => ?_⟩ <;> dsimp only <;> omega
  | progressed n fits =>
    obtain ⟨data, hdata, size⟩ := sized
    have bytes : (((cache.currentlyWriting.data.getD []).drop written).take n).length = n := by
      rw [hdata, Option.getD_some, List.length_take, List.length_drop]
      omega
    refine ⟨⟨?_, fun _ => free, targets.own⟩, fits, fun placed => ?_, ?_⟩
    · dsimp only
      omega
    · dsimp only at placed
      omega
    · dsimp only
      rw [pwriteAt_eq_write, FileBytes.length_write]
      omega

theorem Wrote.sized {cache next : DiskCache} {written : Nat} {accepted : Option Nat}
    (h : Wrote cache written accepted next) (sized : cache.Sized)
    (flying : cache.writer.InFlight) : next.Sized := by
  cases h <;>
    exact ⟨sized.entries, fun _ => sized.inFlight flying, fun idle => absurd trivial idle⟩

/-- Marking the entry as written at the free range puts it there. -/
theorem retire_laid {cache : DiskCache} (h : cache.Targets)
    (laid : LaidOut cache.entries cache.file)
    (inFile : 0 ≤ cache.currentlyWriting.posInCacheFile →
      cache.currentlyWriting.posInCacheFile + cache.currentlyWriting.dataSz ≤ cache.file.length) :
    LaidOut (retireCurrentlyWriting cache).entries cache.file where
  lowest := by
    intro e' he'
    rcases Keyed.mem_update he' with ⟨old, -⟩ | ⟨old, hold, -, rfl⟩
    · exact laid.lowest e' old
    · have := h.lowest
      dsimp only
      omega
  apart := by
    intro e' he' m' hm' differ placed written placedM
    rcases Keyed.mem_update he' with ⟨e, other⟩ | ⟨e, he, keyE, rfl⟩
    · rcases Keyed.mem_update hm' with ⟨m, -⟩ | ⟨m, hm, keyM, rfl⟩
      · exact laid.apart e' e m' m differ placed written placedM
      · have free := h.free placedM.1
        have small := (h.own m hm keyM).2
        have outside := free.starts e' (List.mem_filter.2 ⟨e, by simpa using other⟩) placed
        simp only [CacheEntry.range, Set.mem_Ico]
        omega
    · rcases Keyed.mem_update hm' with ⟨m, other⟩ | ⟨m, hm, keyM, rfl⟩
      · have free := h.free placed.1
        have small := (h.own e he keyE).2
        have sized : 0 < e.dataSz := placed.2
        have outside := free.onDisk m' (List.mem_filter.2 ⟨m, by simpa using other⟩) written placedM
        simp only [CacheEntry.range, Set.mem_Ico]
        omega
      · exact absurd (keyE.trans keyM.symm) differ
  starts := by
    intro e' he' placed
    rcases Keyed.mem_update he' with ⟨old, -⟩ | ⟨old, hold, hkey, rfl⟩
    · exact laid.starts e' old placed
    · have small := (h.own old hold hkey).2
      have sized : 0 < old.dataSz := placed.2
      dsimp only
      omega
  ends := by
    intro m' hm' written placed
    rcases Keyed.mem_update hm' with ⟨old, other⟩ | ⟨old, hold, hkey, rfl⟩
    · exact laid.ends m' old written placed
    · have small := (h.own old hold hkey).2
      have fits := inFile placed.1
      dsimp only
      omega

/-! ### The data in memory -/

theorem xorData_length (key : Vector UInt8 64) (data : Bytes) :
    (xorData key data).length = data.length := by simp [xorData]

/-- Every entry has the size of an entry of the first list, and its data or none. -/
def DataFrom (entries entries' : List CacheEntry) : Prop :=
  ∀ e' ∈ entries', ∃ e ∈ entries, e'.dataSz = e.dataSz ∧ (e'.data = e.data ∨ e'.data = none)

theorem DataFrom.of_subset {entries entries' : List CacheEntry} (h : entries' ⊆ entries) :
    DataFrom entries entries' := fun e he => ⟨e, h he, rfl, .inl rfl⟩

theorem DataFrom.setOffsets (entries : List CacheEntry) (offsets : List (Bytes × Nat)) :
    DataFrom entries (setOffsets entries offsets) := by
  intro e' he'
  obtain ⟨e, he, ⟨offset, -, rfl⟩ | ⟨-, rfl⟩⟩ := mem_setOffsets he'
  · exact ⟨e, he, rfl, .inl rfl⟩
  · exact ⟨e', he, rfl, .inl rfl⟩

theorem DiskCache.Sized.of_data {cache next : DiskCache} (h : cache.Sized)
    (data : DataFrom cache.entries next.entries)
    (sameWriter : next.writer.InFlight ↔ cache.writer.InFlight)
    (sameData : next.currentlyWriting.data = cache.currentlyWriting.data)
    (sameSize : next.currentlyWriting.dataSz = cache.currentlyWriting.dataSz) : next.Sized where
  entries := by
    intro e' he' bytes hbytes
    obtain ⟨e, he, size, same | gone⟩ := data e' he'
    · exact size ▸ h.entries e he bytes (same ▸ hbytes)
    · simp [gone] at hbytes
  inFlight := fun flying => by
    rw [sameData, sameSize]
    exact h.inFlight (sameWriter.1 flying)
  idle := fun idle => sameData.trans (h.idle (mt sameWriter.2 idle))

theorem DiskCache.Sized.setOffsets {cache : DiskCache} (h : cache.Sized) (file : Bytes)
    (offsets : List (Bytes × Nat)) :
    DiskCache.Sized { cache with
      file := file
      entries := Smelly.setOffsets cache.entries offsets } :=
  h.of_data (.setOffsets _ _) Iff.rfl rfl rfl

theorem addToDiskCache_sized {cache : DiskCache} (h : cache.Sized) (key data : Bytes)
    (randomBytes : Option (Vector UInt8 64)) :
    (addToDiskCache cache key data randomBytes).2.Sized := by
  unfold addToDiskCache
  split
  · exact h
  · split
    · cases randomBytes with
      | none => exact h
      | some random =>
        refine ⟨fun e' he' bytes hbytes => ?_, h.inFlight, h.idle⟩
        rcases List.mem_append.1 he' with old | new
        · exact h.entries e' old bytes hbytes
        · rw [List.mem_singleton.1 new] at hbytes ⊢
          exact (congrArg List.length (Option.some.inj hbytes)).symm
    · refine ⟨fun e' he' bytes hbytes => ?_, h.inFlight, h.idle⟩
      rcases Keyed.mem_update he' with ⟨old, -⟩ | ⟨old, hold, -, rfl⟩
      · exact h.entries e' old bytes hbytes
      · exact (congrArg List.length (Option.some.inj hbytes)).symm

/-- What `read_from_disk_cache` delivers has the size of the entry. -/
theorem entryData_length {cache : DiskCache} (h : cache.Layout) {s : CacheEntry}
    (hs : s ∈ cache.entries) (fresh : Bytes) :
    (cache.entryData s s.hashKey fresh).1.length = s.dataSz := by
  have dest : ((fresh ++ List.replicate s.dataSz 0).take s.dataSz).length = s.dataSz := by
    rw [List.length_take, List.length_append, List.length_replicate]
    omega
  have fromFile : (readFromCacheEntry cache s
      ((fresh ++ List.replicate s.dataSz 0).take s.dataSz)).1.length = s.dataSz := by
    unfold readFromCacheEntry readFromCacheFile
    split
    · exact dest
    · simp only [List.length_append, List.length_take, List.length_drop, dest]
      omega
  unfold DiskCache.entryData
  cases hdata : s.data with
  | some data => rw [List.length_take, h.sized.entries s hs data hdata, Nat.min_self]
  | none =>
    cases hwriting : cache.currentlyWriting.data with
    | none => rw [xorData_length, fromFile]
    | some data =>
      dsimp only
      split
      · rename_i own
        have flying := h.inFlight_of_data hwriting
        obtain ⟨bytes, hbytes, size⟩ := h.sized.inFlight flying
        obtain rfl := Option.some.inj (hwriting.symm.trans hbytes)
        have small := ((h.targets flying).own s hs own.symm).2
        rw [xorData_length, List.length_take]
        omega
      · rw [xorData_length, fromFile]

theorem readFromDiskCache_sized {cache : DiskCache} (h : cache.Layout) (key : Bytes)
    (storeInRam : Bool) (fresh : Bytes) :
    (readFromDiskCache cache key storeInRam fresh).2.Sized := by
  unfold readFromDiskCache
  split
  · exact h.sized
  · split
    · exact h.sized
    · rename_i s found
      have hkey := Keyed.find_key found
      have length := entryData_length h (Keyed.find_mem found) fresh
      rw [hkey] at length
      dsimp only
      split
      · refine ⟨fun e' he' bytes hbytes => ?_, h.sized.inFlight, h.sized.idle⟩
        rcases Keyed.mem_update he' with ⟨old, -⟩ | ⟨old, hold, keyOld, rfl⟩
        · exact h.sized.entries e' old bytes hbytes
        · obtain rfl := List.inj_on_of_nodup_map h.consistent.distinct hold (Keyed.find_mem found)
            (keyOld.trans hkey.symm)
          obtain rfl := Option.some.inj hbytes
          exact length
      · exact h.sized

theorem Searched.sized {cache next : DiskCache} (h : cache.Sized)
    (idle : ¬ cache.writer.InFlight) (searched : Searched cache next) : next.Sized := by
  cases searched with
  | clean all =>
    refine ⟨h.entries, fun flying => ?_, fun _ => h.idle idle⟩
    split at flying <;> exact absurd flying id
  | taken s data entries position known dirty hasData perm free =>
    refine ⟨fun e' he' bytes hbytes => ?_, fun _ => ⟨_, rfl, ?_⟩, fun idle => absurd trivial idle⟩
    · rcases Keyed.mem_update (perm.mem_iff.1 he') with ⟨old, -⟩ | ⟨old, hold, -, rfl⟩
      · exact h.entries e' old bytes hbytes
      · simp at hbytes
    · rw [xorData_length]
      exact h.entries s known data hasData

/-! ### Runs -/

/-- One step under the condition keeps the layout. -/
theorem diskCacheStep_layout {cache next : DiskCache} (h : cache.Layout) {step : CacheStep}
    (fine : step.KeepsLayout cache) (hstep : cache.step step = some next) : next.Layout := by
  have consistent := diskCacheStep_consistent h.consistent step hstep
  have ofMain : ∀ main : MainStep cache next, next.Sized → next.Layout := fun main sized =>
    ⟨consistent, main.laid h.laid, main.writerLayout h.writer, sized⟩
  cases step with
  | add key data randomBytes =>
    refine ofMain (mainStep_of_step h.consistent trivial fine hstep) ?_
    obtain rfl := Option.some.inj hstep
    exact addToDiskCache_sized h.sized key data randomBytes
  | remove key =>
    refine ofMain (mainStep_of_step h.consistent trivial fine hstep) ?_
    obtain rfl := Option.some.inj hstep
    unfold removeFromDiskCache
    split
    · exact h.sized
    · split
      · exact h.sized
      · exact h.sized.of_data (.of_subset fun e he => Keyed.mem_of_mem_delete he) Iff.rfl rfl rfl
  | clear =>
    refine ofMain (mainStep_of_step h.consistent trivial fine hstep) ?_
    obtain rfl := Option.some.inj hstep
    exact h.sized.of_data (.of_subset (List.nil_subset _)) Iff.rfl rfl rfl
  | get key storeInRam fresh =>
    refine ofMain (mainStep_of_step h.consistent trivial fine hstep) ?_
    obtain rfl := Option.some.inj hstep
    exact readFromDiskCache_sized h key storeInRam fresh
  | clearFromRam matches_ =>
    refine ofMain (mainStep_of_step h.consistent trivial fine hstep) ?_
    obtain rfl := Option.some.inj hstep
    refine h.sized.of_data (fun e' he' => ?_) Iff.rfl rfl rfl
    obtain ⟨e, he, rfl⟩ := List.mem_map.1 he'
    refine ⟨e, he, (clearEntryFromRam_samePlace matches_ e).size.symm, ?_⟩
    unfold clearEntryFromRam
    split
    · exact .inr rfl
    · exact .inl rfl
  | lookForWork newFileReady =>
    obtain ⟨looping, rfl | ⟨ready, searched⟩⟩ := lookForWork_cases h fine hstep
    · exact ⟨consistent, h.laid, defragEntries_movesAll h.consistent.distinct,
        h.sized.of_data (.of_subset (List.Subset.refl _))
          (by simp [looping, WriterState.InFlight]) rfl rfl⟩
    · obtain ⟨file, places, -⟩ := searched.places
      exact ⟨consistent, file ▸ ready.laid.of_places places, searched.writerLayout ready,
        searched.sized h.sized (by simp [looping, WriterState.InFlight])⟩
  | finishDefrag copied =>
    obtain ⟨moved, defragging, ⟨ready, searched⟩ | ⟨final, placed, movedEq, copies, ready,
      searched⟩⟩ := finishDefrag_cases h fine hstep
    all_goals
      have idle : ¬ cache.writer.InFlight := by simp [defragging, WriterState.InFlight]
      obtain ⟨file, places, -⟩ := searched.places
    · exact ⟨consistent, file ▸ ready.laid.of_places places, searched.writerLayout ready,
        searched.sized h.sized idle⟩
    · exact ⟨consistent, file ▸ ready.laid.of_places places, searched.writerLayout ready,
        Searched.sized (h.sized.setOffsets final _) idle searched⟩
  | write accepted =>
    cases hwriter : cache.writer with
    | writing written =>
      have flying : cache.writer.InFlight := by rw [hwriter]; trivial
      simp only [DiskCache.step, hwriter] at hstep
      obtain rfl := Option.some.inj hstep
      have wrote := writeDirtyEntry_wrote cache written accepted
      refine ⟨consistent, wrote.laid h.laid,
        wrote.writerLayout h.laid hwriter h.writer (h.sized.inFlight flying),
        wrote.sized h.sized flying⟩
    | _ => simp [DiskCache.step, hwriter] at hstep
  | retire =>
    cases hwriter : cache.writer with
    | retiring =>
      have layout := h.writer
      unfold DiskCache.WriterLayout at layout
      rw [hwriter] at layout
      simp only [DiskCache.step, hwriter] at hstep
      obtain rfl := Option.some.inj hstep
      refine ⟨consistent, retire_laid layout.1 h.laid layout.2, trivial,
        fun e' he' bytes hbytes => ?_, fun flying => absurd flying id, fun _ => rfl⟩
      rcases Keyed.mem_update he' with ⟨old, -⟩ | ⟨old, hold, -, rfl⟩
      · exact h.sized.entries e' old bytes hbytes
      · exact h.sized.entries old hold bytes hbytes
    | _ => simp [DiskCache.step, hwriter] at hstep
  | emptyFile truncated =>
    cases hwriter : cache.writer with
    | emptying =>
      have placeless := h.writer
      unfold DiskCache.WriterLayout at placeless
      rw [hwriter] at placeless
      simp only [DiskCache.step, hwriter] at hstep
      obtain rfl := Option.some.inj hstep
      refine ⟨consistent, ⟨h.laid.lowest, ?_, ?_, ?_⟩, trivial,
        h.sized.of_data (.of_subset (List.Subset.refl _))
          (by simp [hwriter, WriterState.InFlight]) rfl rfl⟩
      · intro e he m hm differ placed
        exact absurd placed.1 (Int.not_le.2 (placeless e he))
      · intro e he placed
        exact absurd placed.1 (Int.not_le.2 (placeless e he))
      · intro m hm written placed
        exact absurd placed.1 (Int.not_le.2 (placeless m hm))
    | _ => simp [DiskCache.step, hwriter] at hstep

theorem newDiskCache_layout : ({} : DiskCache).Layout :=
  ⟨newDiskCache_consistent, ⟨by simp, by simp, by simp, by simp⟩, trivial,
    ⟨by simp, fun flying => absurd flying id, fun _ => rfl⟩⟩

/-- Two laid out entries on disk share no byte. -/
theorem LaidOut.disjoint {entries : List CacheEntry} {file : Bytes} (h : LaidOut entries file)
    {s t : CacheEntry} (hs : s ∈ entries) (ht : t ∈ entries) (differ : s.hashKey ≠ t.hashKey)
    (diskS : s.OnDisk) (diskT : t.OnDisk) : Disjoint s.range t.range := by
  rw [Set.disjoint_left]
  rintro byte ⟨fromS, toS⟩ ⟨fromT, toT⟩
  have placedS : s.Placed := ⟨diskS.2, by omega⟩
  have placedT : t.Placed := ⟨diskT.2, by omega⟩
  -- the range that starts later starts inside the other one
  rcases le_total s.posInCacheFile t.posInCacheFile with order | order
  · exact h.apart t ht s hs differ.symm placedT diskS.1 placedS ⟨order, by omega⟩
  · exact h.apart s hs t ht differ placedS diskT.1 placedT ⟨order, by omega⟩

theorem DiskCache.Layout.rangesDisjoint {cache : DiskCache} (h : cache.Layout) :
    cache.RangesDisjoint := by
  have differ : cache.entries.Pairwise fun s t => s.hashKey ≠ t.hashKey :=
    List.pairwise_map.1 h.consistent.distinct
  exact differ.imp_of_mem fun hs ht differ => h.laid.disjoint hs ht differ

theorem DiskCache.Layout.targetFree {cache : DiskCache} (h : cache.Layout) :
    cache.TargetFree := by
  intro flying placed s hs onDisk
  have targets := h.targets flying
  have other : s.hashKey ≠ cache.currentlyWriting.hashKey := fun own => by
    have dirty := (targets.own s hs own).1
    rw [onDisk.1] at dirty
    exact absurd dirty Bool.true_eq_false_eq_False
  rw [Set.disjoint_left]
  rintro byte ⟨fromTarget, toTarget⟩ ⟨fromS, toS⟩
  have outside := (targets.free placed).onDisk s (List.mem_filter.2 ⟨hs, by simpa using other⟩)
    onDisk.1 ⟨onDisk.2, by omega⟩
  omega

/-- The search keeps the bytes of every entry on disk. -/
theorem Searched.keepsBytes {cache next : DiskCache} (h : Searched cache next) :
    KeepsBytes cache next := by
  obtain ⟨file, -, places⟩ := h.places
  intro s hs onDisk
  obtain ⟨s', hs', same⟩ := places s hs
  refine ⟨s', hs', same.hashKey, ⟨same.written.trans onDisk.1, same.position ▸ onDisk.2⟩,
    same.size, ?_⟩
  rw [DiskCache.bytesOf, DiskCache.bytesOf, file, same.position, same.size]

/-- The end of a defragmentation keeps the bytes of every entry on disk. -/
theorem finishDefrag_keepsBytes {cache next : DiskCache} (h : cache.Layout) {copied : Bool}
    (fine : CacheStep.KeepsLayout cache (.finishDefrag copied))
    (hstep : cache.step (.finishDefrag copied) = some next) : KeepsBytes cache next := by
  obtain ⟨moved, defragging, ⟨-, searched⟩ | ⟨final, placed, movedEq, copies, -, searched⟩⟩ :=
    finishDefrag_cases h fine hstep
  · exact searched.keepsBytes
  · have moves : MovesAll cache.entries moved := by
      have layout := h.writer
      unfold DiskCache.WriterLayout at layout
      rwa [defragging] at layout
    intro s hs onDisk
    obtain ⟨position, hmoved, bytes⟩ := setOffsets_bytes moves movedEq copies hs onDisk
    obtain ⟨s', hs', hkey, onDisk', size, bytes'⟩ :=
      searched.keepsBytes _ hmoved ⟨onDisk.1, Int.natCast_nonneg _⟩
    exact ⟨s', hs', hkey, onDisk', size, bytes'.trans bytes⟩

end Smelly
