/-
Module: Smelly.Core.DiskCache
Purpose: The disk cache of `disk-cache.c`: the entries in memory, the cache file, and the writer
  thread as a state machine whose steps interleave with the calls of the main thread.
Trusted boundary: human-reviewed model of smelly/disk-cache.c and of HASH_SRT in
  smelly/uthash.h; `ensure_state` and the allocations have succeeded
-/
import Smelly.Core.Charsets
import Smelly.Lib.BottomUpSort
import Smelly.Lib.Keyed

namespace Smelly

/-- `MAX_KEY_SIZE`. -/
def maxKeySize : Nat := 256

/-- `CacheEntry`.  `pos_in_cache_file` is negative for an entry that has no place in the file. -/
structure CacheEntry where
  hashKey : Bytes
  data : Option Bytes := none
  dataSz : Nat := 0
  writtenToDisk : Bool := false
  posInCacheFile : Int := -2
  encryptionKey : Vector UInt8 64
deriving DecidableEq, Repr

/-- The fields of `currently_writing` that are used. -/
structure CurrentlyWriting where
  hashKey : Bytes := []
  data : Option Bytes := none
  dataSz : Nat := 0
  posInCacheFile : Int := 0
deriving DecidableEq, Repr

structure DefragEntry where
  hashKey : Bytes
  oldOffset : Nat
  dataSz : Nat
deriving DecidableEq, Repr

/-- Where the writer thread is between two steps that need the mutex. -/
inductive WriterState where
  /-- At the top of `write_loop`, or about to return from `poll`. -/
  | looping
  /-- In `defrag`, copying with the mutex released. -/
  | defragging (entries : List DefragEntry)
  /-- In `write_dirty_entry`, with so many bytes written. -/
  | writing (written : Nat)
  /-- About to call `retire_currently_writing`. -/
  | retiring
  /-- About to truncate the file, having seen an empty cache. -/
  | emptying
deriving DecidableEq, Repr

/-- `DiskCache`; `file` is the contents of `cache_file_fd`. -/
structure DiskCache where
  entries : List CacheEntry := []
  currentlyWriting : CurrentlyWriting := {}
  totalSize : Nat := 0
  file : Bytes := []
  writer : WriterState := .looping
deriving DecidableEq, Repr

inductive CacheError where
  | keyTooLong
  | noCachedEntry
  | notWritten
  | truncated
  | noRandomBytes
deriving DecidableEq, Repr

/-- The texts passed to `PyErr_SetString`; a failure of `secure_random_bytes` reports `errno`. -/
def CacheError.message : CacheError → String
  | keyTooLong => "cache key is too long"
  | noCachedEntry => "No cached entry with specified key found"
  | notWritten => "Cache entry was not written, could not read from it"
  | truncated => "Disk cache file truncated"
  | noRandomBytes => ""

/-- `unsigned long long` arithmetic on `total_size`. -/
def wrap64 (n : Nat) : Nat := n % 2 ^ 64

/-- `xor_data` with a 64 byte key. -/
def xorData (key : Vector UInt8 64) (data : Bytes) : Bytes :=
  data.zipIdx.map fun (byte, i) => byte ^^^ key[i % 64]

/-- `HASH_FIND`. -/
def DiskCache.find (self : DiskCache) (key : Bytes) : Option CacheEntry :=
  Keyed.find CacheEntry.hashKey key self.entries

/-- Assign to the fields of the entry `HASH_FIND` returned. -/
def DiskCache.update (self : DiskCache) (key : Bytes) (change : CacheEntry → CacheEntry) :
    DiskCache :=
  { self with entries := Keyed.update CacheEntry.hashKey key change self.entries }

/-! ### The calls of the main thread -/

/-- `create_cache_entry`. -/
def createCacheEntry (key : Bytes) (randomBytes : Vector UInt8 64) : CacheEntry :=
  { hashKey := key, encryptionKey := randomBytes }

/-- `add_to_disk_cache`; `randomBytes` is what `secure_random_bytes` delivers. -/
def addToDiskCache (self : DiskCache) (key data : Bytes) (randomBytes : Option (Vector UInt8 64)) :
    Except CacheError Unit × DiskCache :=
  let data_sz := data.length
  let store (s : CacheEntry) : CacheEntry := { s with data := some data, dataSz := data_sz }
  if maxKeySize < key.length then (.error .keyTooLong, self)
  else match self.find key with
    | none =>
      match randomBytes with
      | none => (.error .noRandomBytes, self)
      | some bytes =>
        (.ok (), { self with
          entries := self.entries ++ [store (createCacheEntry key bytes)]
          totalSize := wrap64 (self.totalSize + data_sz) })
    | some _ =>
      let total := if data_sz ≤ self.totalSize then self.totalSize - data_sz else 0
      (.ok (), { self.update key (fun s => store { s with writtenToDisk := false }) with
        totalSize := wrap64 (total + data_sz) })

/-- `remove_from_disk_cache`. -/
def removeFromDiskCache (self : DiskCache) (key : Bytes) : Except CacheError Bool × DiskCache :=
  if maxKeySize < key.length then (.error .keyTooLong, self)
  else match self.find key with
    | none => (.ok false, self)
    | some s =>
      (.ok true, { self with
        entries := Keyed.delete CacheEntry.hashKey key self.entries
        totalSize := if self.totalSize > s.dataSz then self.totalSize - s.dataSz else 0 })

/-- `clear_disk_cache`. -/
def clearDiskCache (self : DiskCache) : DiskCache := { self with entries := [], totalSize := 0 }

/-- `read_from_cache_file`: `dest` keeps its contents behind the last byte that could be read. -/
def readFromCacheFile (self : DiskCache) (pos : Nat) (dest : Bytes) : Bytes × Option CacheError :=
  let got := (self.file.drop pos).take dest.length
  (got ++ dest.drop got.length, if got.length < dest.length then some .truncated else none)

/-- `read_from_cache_entry`. -/
def readFromCacheEntry (self : DiskCache) (s : CacheEntry) (dest : Bytes) :
    Bytes × Option CacheError :=
  if s.posInCacheFile < 0 then (dest, some .notWritten)
  else readFromCacheFile self s.posInCacheFile.toNat dest

/-- The bytes `read_from_disk_cache` puts in the buffer for the entry `s`, and the error it sets;
`fresh` is what the allocated buffer holds. -/
def DiskCache.entryData (self : DiskCache) (s : CacheEntry) (key fresh : Bytes) :
    Bytes × Option CacheError :=
  let dest := (fresh ++ List.replicate s.dataSz 0).take s.dataSz
  let fromFile :=
    let (data, error) := readFromCacheEntry self s dest
    (xorData s.encryptionKey data, error)
  match s.data, self.currentlyWriting.data with
  | some data, _ => (data.take s.dataSz, none)
  | none, some data =>
    if self.currentlyWriting.hashKey = key then
      (xorData s.encryptionKey (data.take s.dataSz), none)
    else fromFile
  | none, none => fromFile

/-- `read_from_disk_cache`.  The buffer is stored in memory even when reading it failed. -/
def readFromDiskCache (self : DiskCache) (key : Bytes) (storeInRam : Bool) (fresh : Bytes) :
    Except CacheError Bytes × DiskCache :=
  if maxKeySize < key.length then (.error .keyTooLong, self)
  else match self.find key with
    | none => (.error .noCachedEntry, self)
    | some s =>
      let (data, error) := self.entryData s key fresh
      let next :=
        if storeInRam ∧ s.data = none ∧ s.dataSz ≠ 0 then
          self.update key fun s => { s with data := some data }
        else self
      (match error with | none => .ok data | some e => .error e, next)

/-- One round of `disk_cache_clear_from_ram`. -/
def clearEntryFromRam (matches_ : Bytes → Bool) (s : CacheEntry) : CacheEntry :=
  if s.writtenToDisk ∧ s.data.isSome ∧ matches_ s.hashKey then { s with data := none } else s

/-- `disk_cache_clear_from_ram`. -/
def diskCacheClearFromRam (self : DiskCache) (matches_ : Bytes → Bool) : DiskCache :=
  { self with entries := self.entries.map (clearEntryFromRam matches_) }

/-! ### The writer thread -/

/-- The test `total_size && size_on_disk > 0 && size_on_disk > total_size * 2`. -/
def DiskCache.needsDefrag (self : DiskCache) : Bool :=
  self.totalSize ≠ 0 ∧ 0 < self.file.length ∧ wrap64 (self.totalSize * 2) < self.file.length

/-- The entries `defrag` collects before it releases the mutex. -/
def DiskCache.defragEntries (self : DiskCache) : List DefragEntry :=
  self.entries.filterMap fun s =>
    if s.posInCacheFile > -1 ∧ s.dataSz ≠ 0 then
      some { hashKey := s.hashKey, oldOffset := s.posInCacheFile.toNat, dataSz := s.dataSz }
    else none

/-- `copy_between_files`, which fails when the old file ends too early. -/
def copyBetweenFiles (file : Bytes) (e : DefragEntry) : Option Bytes :=
  let got := (file.drop e.oldOffset).take e.dataSz
  if got.length = e.dataSz then some got else none

/-- The copying loop of `defrag`: the new file and the new offset of each entry. -/
def defragCopy (file : Bytes) : (copied : Bytes) → List DefragEntry →
    Option (Bytes × List (Bytes × Nat))
  | copied, [] => some (copied, [])
  | copied, e :: rest => do
      let bytes ← copyBetweenFiles file e
      let (final, offsets) ← defragCopy file (copied ++ bytes) rest
      some (final, (e.hashKey, copied.length) :: offsets)

/-- The loop of `defrag` that stores the new offsets. -/
def setOffsets (entries : List CacheEntry) (offsets : List (Bytes × Nat)) : List CacheEntry :=
  offsets.foldl (fun table (key, offset) =>
    Keyed.update CacheEntry.hashKey key (fun s => { s with posInCacheFile := offset }) table) entries

/-- `cmp_pos_in_cache_file`: the difference is truncated to an `int`. -/
def cmpPosInCacheFile (a b : CacheEntry) : Int :=
  (a.posInCacheFile - b.posInCacheFile).bmod (2 ^ 32)

/-- The loop of `find_hole` over the sorted entries. -/
def findHoleIn (requiredSize : Int) : (prev : Int) → List CacheEntry → Option Int
  | _, [] => none
  | prev, s :: rest =>
    if s.posInCacheFile ≥ 0 ∧ s.dataSz > 0 then
      if prev ≥ 0 ∧ s.posInCacheFile - prev ≥ requiredSize then some prev
      else findHoleIn requiredSize (s.posInCacheFile + s.dataSz) rest
    else findHoleIn requiredSize prev rest

/-- `find_hole`. -/
def findHole (self : DiskCache) : DiskCache :=
  let sorted := BottomUpSort.sort (fun a b => cmpPosInCacheFile a b ≤ 0) self.entries
  let cw := self.currentlyWriting
  { self with
    entries := sorted
    currentlyWriting :=
      { cw with posInCacheFile := (findHoleIn cw.dataSz (-100) sorted).getD cw.posInCacheFile } }

/-- The loop of `find_cache_entry_to_write`: the first dirty entry gives up its data; dirty
entries in front of it that have none are written off. -/
def takeDirty : List CacheEntry → Option (CacheEntry × Bytes) × List CacheEntry
  | [] => (none, [])
  | s :: rest =>
    if s.writtenToDisk then
      let (found, rest) := takeDirty rest
      (found, s :: rest)
    else match s.data with
      | some data => (some (s, data), { s with data := none } :: rest)
      | none =>
        let (found, rest) := takeDirty rest
        (found, { s with writtenToDisk := true, posInCacheFile := 0, dataSz := 0 } :: rest)

/-- `find_cache_entry_to_write` after the defragmentation, and the branch `write_loop` takes. -/
def findCacheEntryToWrite (self : DiskCache) : DiskCache :=
  match takeDirty self.entries with
  | (some (s, data), entries) =>
    findHole { self with
      entries := entries
      currentlyWriting :=
        { hashKey := s.hashKey.take maxKeySize
          data := some (xorData s.encryptionKey data)
          dataSz := s.dataSz
          posInCacheFile := -1 }
      writer := .writing 0 }
  | (none, entries) =>
    { self with
      entries := entries
      writer := if entries.isEmpty then .emptying else .looping }

/-- `pwrite`; a gap behind the end of the file reads as zeros. -/
def pwriteAt (file : Bytes) (offset : Nat) (bytes : Bytes) : Bytes :=
  (file ++ List.replicate (offset - file.length) 0).take offset ++ bytes ++
    file.drop (offset + bytes.length)

/-- One round of the loop of `write_dirty_entry`: the system accepts so many bytes, or `lseek`
or `pwrite` fails. -/
def writeDirtyEntry (self : DiskCache) (written : Nat) (accepted : Option Nat) : DiskCache :=
  let cw := self.currentlyWriting
  let left := cw.dataSz - written
  let position : Int := if cw.posInCacheFile < 0 then self.file.length else cw.posInCacheFile
  let failed : DiskCache :=
    { self with currentlyWriting := { cw with posInCacheFile := -1 }, writer := .retiring }
  if cw.posInCacheFile < 0 ∧ accepted = none then failed
  else if left = 0 then
    { self with currentlyWriting := { cw with posInCacheFile := position }, writer := .retiring }
  else match accepted with
    | none | some 0 => failed
    | some n =>
      let bytes := ((cw.data.getD []).drop written).take (min n left)
      { self with
        currentlyWriting := { cw with posInCacheFile := position }
        file := pwriteAt self.file (position.toNat + written) bytes
        writer := .writing (written + min n left) }

/-- `retire_currently_writing`. -/
def retireCurrentlyWriting (self : DiskCache) : DiskCache :=
  let cw := self.currentlyWriting
  { self.update cw.hashKey
      (fun s => { s with writtenToDisk := true, posInCacheFile := cw.posInCacheFile }) with
    currentlyWriting := { cw with data := none, dataSz := 0 }
    writer := .looping }

/-- The steps of both threads.  The arguments beyond those of the calls are what the operating
system answers. -/
inductive CacheStep where
  | add (key data : Bytes) (randomBytes : Option (Vector UInt8 64))
  | remove (key : Bytes)
  | clear
  | get (key : Bytes) (storeInRam : Bool) (fresh : Bytes)
  | clearFromRam (matches_ : Bytes → Bool)
  | lookForWork (newFileReady : Bool)
  | finishDefrag (copied : Bool)
  | write (accepted : Option Nat)
  | retire
  | emptyFile (truncated : Bool)

/-- One step of either thread; `none` when the writer thread is not at that step. -/
def DiskCache.step (self : DiskCache) : CacheStep → Option DiskCache
  | .add key data randomBytes => some (addToDiskCache self key data randomBytes).2
  | .remove key => some (removeFromDiskCache self key).2
  | .clear => some (clearDiskCache self)
  | .get key storeInRam fresh => some (readFromDiskCache self key storeInRam fresh).2
  | .clearFromRam matches_ => some (diskCacheClearFromRam self matches_)
  | .lookForWork newFileReady =>
    match self.writer with
    | .looping =>
      if self.needsDefrag ∧ self.entries ≠ [] ∧ newFileReady then
        some { self with writer := .defragging self.defragEntries }
      else some (findCacheEntryToWrite self)
    | _ => none
  | .finishDefrag copied =>
    match self.writer with
    | .defragging entries =>
      match if copied then defragCopy self.file [] entries else none with
      | some (file, offsets) =>
        some (findCacheEntryToWrite
          { self with file := file, entries := setOffsets self.entries offsets })
      | none => some (findCacheEntryToWrite self)
    | _ => none
  | .write accepted =>
    match self.writer with
    | .writing written => some (writeDirtyEntry self written accepted)
    | _ => none
  | .retire =>
    match self.writer with
    | .retiring => some (retireCurrentlyWriting self)
    | _ => none
  | .emptyFile truncated =>
    match self.writer with
    | .emptying => some { self with file := if truncated then [] else self.file, writer := .looping }
    | _ => none

end Smelly
