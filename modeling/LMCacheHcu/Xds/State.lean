import LMCacheHcu.Foundation.Ledger
import LMCacheHcu.Storage.XdsTransfer

/-! # The state of the XDS backend

The index `hot_cache`, its size counter, the list of puts in flight and the files
below `xds_path`. Each operation below is one region that the backend runs under
a lock, or one call of the operating system. A file is known by what its readers
find in it, an entry also by its identity as a Python object.
-/

namespace LMCacheHcu.Xds

open Storage

/-! ### Chunks and files -/

/-- The tensor of a chunk. Its payload stands for the bytes. -/
structure Chunk (Payload : Type) where
  shape : List ℕ
  dtype : DType
  payload : Payload

/-- `get_size()` of a memory object with the chunk. -/
def Chunk.nbytes {Payload : Type} (chunk : Chunk Payload) : ℤ :=
  chunk.shape.prod * chunk.dtype.itemsize

inductive Layout
  | legacy
  | blockFirst
deriving DecidableEq, Repr

/-- The path of a data file: a function of the key and the layout alone. -/
structure DataPath (Key : Type) where
  key : Key
  layout : Layout
deriving DecidableEq

/-- `_key_to_path`. -/
def keyToPath {Key : Type} (key : Key) (blockFirst : Bool) : DataPath Key :=
  ⟨key, if blockFirst then .blockFirst else .legacy⟩

/-- The files that the index depends on; a sidecar has `.metadata` behind the
path of its data file. -/
inductive FilePath (Key : Type)
  | data (path : DataPath Key)
  | sidecar (path : DataPath Key)
deriving DecidableEq

/-- A data file: the metadata in its header, if it has one, and the chunk. -/
structure DataFile (Payload : Type) where
  header : Option BlockFirstDiskMetadata
  size : ℤ
  chunk : Chunk Payload

/-- What `unpack_metadata` finds in a sidecar. -/
inductive Sidecar
  | unsupported
  | valid (shape : List ℤ) (dtype : DType) (size : ℤ)
deriving DecidableEq

/-! ### The index -/

/-- The arguments of a new `XDSCacheMetadata`. -/
structure EntryInfo (Key : Type) where
  path : DataPath Key
  size : ℤ
  shape : List ℤ
  dtype : DType
  diskMetadata : Option BlockFirstDiskMetadata
deriving DecidableEq

/-- `XDSCacheMetadata`. The stamp tells objects apart. -/
structure Entry (Key : Type) extends EntryInfo Key where
  stamp : ℕ
  pinCount : ℤ
deriving DecidableEq

/-- `can_evict`. -/
def Entry.canEvict {Key : Type} (entry : Entry Key) : Bool := decide (entry.pinCount ≤ 0)

/-- The parts of the backend that no operation changes. The chunk of a key is
what every put of that key stores: the key names the tokens it was made from. -/
structure Config (Key Payload : Type) where
  backend : XdsBackend
  blockFirstEnabled : Bool
  /-- `xds_buffer_size is not None` -/
  xdsBuffer : Bool
  maxXdsSize : Option ℤ
  chunk : Key → Chunk Payload

variable {Key Payload : Type} [DecidableEq Key]

/-- What the operations share: the index, its counter, `put_tasks`, the keys that
the cache policy tracks, the files, and what was released of the memory objects
that loads have allocated. -/
structure Shared (Key Payload : Type) [DecidableEq Key] where
  hotCache : AList fun _ : Key => Entry Key
  currentCacheSize : ℤ
  putTasks : List Key
  tracked : Finset Key
  dataFiles : DataPath Key → Option (DataFile Payload)
  sidecars : DataPath Key → Option Sidecar
  nextStamp : ℕ
  nextObject : ℕ
  released : List ℕ

namespace Shared

variable (shared : Shared Key Payload)

/-- `hot_cache.get(key)`. -/
def find (key : Key) : Option (Entry Key) := shared.hotCache.lookup key

/-- The size of the entry of a key, zero without one. -/
def entrySize (key : Key) : ℤ := ((shared.find key).map fun entry => entry.size).getD 0

/-- The sum of the sizes of all entries. -/
def totalSize : ℤ := Ledger.total (fun entry : Entry Key => entry.size) shared.hotCache

/-! ### Regions under `hot_lock` -/

/-- `hot_cache[key] = XDSCacheMetadata(...)`. -/
def index (key : Key) (info : EntryInfo Key) : Shared Key Payload :=
  { shared with
    hotCache := shared.hotCache.insert key ⟨info, shared.nextStamp, 0⟩
    nextStamp := shared.nextStamp + 1 }

/-- `hot_cache.pop(key, None)`. -/
def discard (key : Key) : Shared Key Payload :=
  { shared with hotCache := shared.hotCache.erase key }

/-- `current_cache_size += size`. -/
def charge (size : ℤ) : Shared Key Payload :=
  { shared with currentCacheSize := shared.currentCacheSize + size }

/-- Pop a key and take the size of its entry off the counter. -/
def popCredit (key : Key) : Shared Key Payload :=
  (shared.discard key).charge (-shared.entrySize key)

/-- `update_on_put`. -/
def track (key : Key) : Shared Key Payload := { shared with tracked := insert key shared.tracked }

/-- `update_on_force_evict`. -/
def untrack (key : Key) : Shared Key Payload :=
  { shared with tracked := shared.tracked.erase key }

/-- `insert_key`: a key that is in the index keeps its entry. -/
def insertKey (key : Key) (info : EntryInfo Key) : Shared Key Payload :=
  if (shared.find key).isSome then shared else shared.index key info

/-- The region of `_read_block_first_metadata`, which replaces an entry and
takes its size off the counter. -/
def indexBlockFirst (key : Key) (info : EntryInfo Key) : Shared Key Payload :=
  ((shared.charge (-shared.entrySize key)).index key info).charge info.size

/-- The region of `_read_metadata`, which never replaces a block-first entry. -/
def indexLegacy (key : Key) (info : EntryInfo Key) : Shared Key Payload :=
  if (shared.find key).any fun previous => previous.diskMetadata.isSome then shared
  else ((shared.charge (-shared.entrySize key)).index key info).charge info.size

/-- The locked loop of `_eviction`, for the candidates that the policy returns
one after the other: the paths to unlink and whether there is room now, with the
room reserved. A candidate has to be in the index and evictable. -/
def evictLoop (maxXdsSize requiredSize : ℤ) :
    List Key → Shared Key Payload → List (DataPath Key) →
      Option (Shared Key Payload × List (DataPath Key) × Bool)
  | candidates, shared, evictedPaths =>
      if shared.currentCacheSize + requiredSize ≤ maxXdsSize then
        some (shared.charge requiredSize, evictedPaths, true)
      else
        match candidates with
        | [] => some (shared, evictedPaths, false)
        | evictKey :: rest =>
            match shared.find evictKey with
            | none => none
            | some entry =>
                if entry.canEvict then
                  evictLoop maxXdsSize requiredSize rest
                    ((shared.popCredit evictKey).untrack evictKey) (evictedPaths ++ [entry.path])
                else none

/-- Change the pin count of the entry of a key, if it has one. -/
def addPins (key : Key) (count : ℤ) : Shared Key Payload :=
  match shared.find key with
  | none => shared
  | some entry =>
      { shared with
        hotCache := shared.hotCache.insert key { entry with pinCount := entry.pinCount + count } }

/-- `pin`, and `contains(pin=True)` for one key. -/
def pin (key : Key) : Shared Key Payload := shared.addPins key 1

def unpin (key : Key) : Shared Key Payload := shared.addPins key (-1)

/-! ### Regions under `put_lock` -/

/-- `insert_put_task`. -/
def enlist (key : Key) : Shared Key Payload :=
  { shared with putTasks := shared.putTasks ++ [key] }

/-- `remove_put_task`. -/
def delist (key : Key) : Shared Key Payload :=
  { shared with putTasks := shared.putTasks.erase key }

/-! ### Files -/

def hasFile : FilePath Key → Bool
  | .data path => (shared.dataFiles path).isSome
  | .sidecar path => (shared.sidecars path).isSome

/-- `os.remove`, of a file that may not exist. -/
def unlinkFile : FilePath Key → Shared Key Payload
  | .data path => { shared with dataFiles := Function.update shared.dataFiles path none }
  | .sidecar path => { shared with sidecars := Function.update shared.sidecars path none }

/-- The rename that puts a complete data file in place. -/
def commitData (path : DataPath Key) (file : DataFile Payload) : Shared Key Payload :=
  { shared with dataFiles := Function.update shared.dataFiles path (some file) }

/-- The rename that puts a sidecar in place. -/
def commitSidecar (path : DataPath Key) (sidecar : Sidecar) : Shared Key Payload :=
  { shared with sidecars := Function.update shared.sidecars path (some sidecar) }

/-! ### Memory objects -/

/-- `ref_count_down` on the only reference to an object. -/
def release (object : ℕ) : Shared Key Payload :=
  { shared with released := object :: shared.released }

/-! ### What the regions do to the index -/

variable {shared}

@[simp] theorem find_charge (size : ℤ) (key : Key) : (shared.charge size).find key = shared.find key :=
  rfl

theorem find_index (key : Key) (info : EntryInfo Key) (other : Key) :
    (shared.index key info).find other =
      if other = key then some ⟨info, shared.nextStamp, 0⟩ else shared.find other := by
  by_cases same : other = key
  · rw [if_pos same, same]
    exact AList.lookup_insert _
  · rw [if_neg same]
    exact AList.lookup_insert_ne same

theorem find_discard (key other : Key) :
    (shared.discard key).find other = if other = key then none else shared.find other := by
  by_cases same : other = key
  · rw [if_pos same, same]
    exact AList.lookup_erase _ _
  · rw [if_neg same]
    exact AList.lookup_erase_ne same

theorem find_popCredit (key other : Key) :
    (shared.popCredit key).find other = if other = key then none else shared.find other :=
  find_discard key other

theorem find_addPins (key : Key) (count : ℤ) (other : Key) :
    (shared.addPins key count).find other = (shared.find other).map fun entry =>
      if other = key then { entry with pinCount := entry.pinCount + count } else entry := by
  rw [addPins]
  cases found : shared.find key with
  | none =>
      by_cases same : other = key
      · simp [same, found]
      · simp [same]
  | some entry =>
      by_cases same : other = key
      · simp only [same, found, if_true, Option.map_some]
        exact AList.lookup_insert _
      · simp only [same, if_false, Option.map_id']
        exact AList.lookup_insert_ne same

/-- Eviction touches no file, adds no entry, and answers with the paths of
candidates that it has popped. -/
theorem evictLoop_index {maxXdsSize requiredSize : ℤ} {candidates : List Key}
    {next : Shared Key Payload} {before paths : List (DataPath Key)} {success : Bool}
    (evicted : evictLoop maxXdsSize requiredSize candidates shared before =
      some (next, paths, success)) :
    next.dataFiles = shared.dataFiles ∧ next.sidecars = shared.sidecars ∧
      (∀ key entry, next.find key = some entry → shared.find key = some entry) ∧
      ∀ path ∈ paths, path ∈ before ∨ ∃ candidate ∈ candidates, ∃ entry,
        shared.find candidate = some entry ∧ entry.path = path ∧ next.find candidate = none := by
  induction candidates generalizing shared before with
  | nil =>
      simp only [evictLoop] at evicted
      split at evicted <;> cases evicted
      · exact ⟨rfl, rfl, fun _ _ found => found, fun _ member => .inl member⟩
      · exact ⟨rfl, rfl, fun _ _ found => found, fun _ member => .inl member⟩
  | cons candidate candidates ih =>
      simp only [evictLoop] at evicted
      split at evicted
      · cases evicted
        exact ⟨rfl, rfl, fun _ _ found => found, fun _ member => .inl member⟩
      split at evicted
      · cases evicted
      rename_i entry found
      split at evicted
      · have popped : ∀ key, ((shared.popCredit candidate).untrack candidate).find key =
            if key = candidate then none else shared.find key := find_popCredit candidate
        obtain ⟨data, sidecars, kept, listed⟩ := ih evicted
        refine ⟨data, sidecars, fun key other here => ?_, fun path member => ?_⟩
        · have still := kept key other here
          rw [popped] at still
          split at still
          · cases still
          · exact still
        · rcases listed path member with early | ⟨other, isCandidate, entry', here, named, gone⟩
          · rcases List.mem_append.mp early with before | this
            · exact .inl before
            · refine .inr ⟨candidate, List.mem_cons_self .., entry, found,
                (List.mem_singleton.mp this).symm, ?_⟩
              cases still : next.find candidate with
              | none => rfl
              | some other =>
                  have absent := kept candidate other still
                  rw [popped, if_pos rfl] at absent
                  cases absent
          · rw [popped] at here
            split at here
            · cases here
            · exact .inr ⟨other, List.mem_cons_of_mem _ isCandidate, entry', here, named, gone⟩
      · cases evicted

end Shared

end LMCacheHcu.Xds
