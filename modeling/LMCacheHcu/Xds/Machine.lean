import LMCacheHcu.Xds.State

/-! # The operations of the XDS backend, interleaved

A job is what is left to do of one operation, from one locked region or system
call to the next. A step of the machine starts an operation or advances one job;
the choice that comes with it says what the environment does: whether a call
fails, which candidates the cache policy returns, what a read delivers.
-/

namespace LMCacheHcu.Xds

open Storage

variable {Key Payload : Type}

/-! ### Loads -/

/-- What `batched_get_blocking` takes from an entry before it lets go of the lock. -/
structure Captured (Key : Type) where
  path : DataPath Key
  shape : List ℤ
  dtype : DType

/-- What a memory object holds after a complete read: a payload, or the first
bytes of a file that is not laid out as the reader takes it. -/
inductive Content (Payload : Type)
  | payload (payload : Payload)
  | rawBytes (file : DataFile Payload) (size : ℤ)

/-- How far one worker of a batch is. -/
inductive LoadStage (Key Payload : Type)
  | waiting
  | reading (entry : Entry Key)
  | failing (entry : Entry Key)
  | returned (content : Content Payload)
  /-- The read failed; `popped` is the entry that the failure branch popped. -/
  | failed (entry : Entry Key) (popped : Option (Entry Key))
  /-- `None` was returned before anything was read. -/
  | missing
  /-- An exception escaped. -/
  | raised

/-- The load of one key of a batch. -/
structure LoadItem (Key Payload : Type) where
  key : Key
  captured : Option (Captured Key)
  object : Option ℕ
  stage : LoadStage Key Payload

/-- What the driver or the system does with one read. -/
inductive ReadOutcome
  | returned (count : ℤ)
  /-- `OSError` or `BlockFirstFormatError` -/
  | raisedCaught
  | raised
deriving DecidableEq

/-- How a read ends for the worker. -/
inductive ReadEnd (Payload : Type)
  | loaded (content : Content Payload)
  | refused
  | raised

/-! ### Jobs -/

/-- The memory object of a staged put. -/
structure StagedPut (Key : Type) where
  key : Key
  physicalSize : ℤ
deriving DecidableEq

/-- What is left to do of an operation. -/
inductive Job (Key Payload : Type)
  -- `submit_put_task`
  | submitPut (put : StagedPut Key)
  | lookupPut (put : StagedPut Key)
  | enlistPut (put : StagedPut Key)
  | reservePut (put : StagedPut Key)
  /-- `+=` without a lock: the counter is read, not yet written. -/
  | addPut (put : StagedPut Key) (size value : ℤ)
  | trackPut (put : StagedPut Key) (size : ℤ)
  -- `_async_save_bytes_to_storage`
  | savePut (put : StagedPut Key) (size : ℤ)
  | saveSidecar (put : StagedPut Key) (size : ℤ)
  | publishPut (put : StagedPut Key) (size : ℤ) (path : DataPath Key)
      (diskMetadata : Option BlockFirstDiskMetadata)
  | undoPut (key : Key) (size : ℤ)
  | finishPut (key : Key)
  -- one key of `batched_direct_put`
  | directPut (key : Key)
  | directRemove (key : Key)
  | directCheck (key : Key)
  | directEnlist (key : Key)
  | directReserve (key : Key)
  | directTrack (key : Key) (size : ℤ)
  | directSave (key : Key) (size : ℤ)
  | directPublish (key : Key) (size : ℤ) (info : EntryInfo Key)
  | directRollback (key : Key) (size : ℤ)
  | directUntrack (key : Key)
  -- `remove`
  | removeKey (key : Key)
  -- the scan
  | scanBlockFirst (key : Key)
  | indexBlockFirst (key : Key) (info : EntryInfo Key)
  | scanLegacy (key : Key)
  | indexLegacy (key : Key) (info : EntryInfo Key)
  /-- Unlink files one by one, then go on. -/
  | unlink (pending : List (FilePath Key)) (next : Job Key Payload)
  -- `batched_get_blocking`
  | captureLoads (keys : List Key)
  | allocateLoads (keys : List Key) (items : List (LoadItem Key Payload))
  | loading (keys : List Key) (items : List (LoadItem Key Payload))
  | pinKey (key : Key)
  | unpinKey (key : Key)
  | done

/-- What the environment does at a step. -/
inductive Choice (Key : Type)
  | proceed
  | fail
  | evict (candidates : List Key)
  | allocate (granted : List Bool)
  | item (index : ℕ) (outcome : ReadOutcome)
deriving DecidableEq

/-! ### What the operations compute -/

/-- The entry of a block-first file. -/
def blockFirstEntry (path : DataPath Key) (diskMetadata : BlockFirstDiskMetadata) :
    Except XdsError (EntryInfo Key) := do
  let dtype ← (parseDtype diskMetadata.dtype).mapError .blockFirstFormatError
  return {
    path := path
    size := blockFirstHeaderSize + diskMetadata.ioNbytes
    shape := diskMetadata.logicalShape
    dtype := dtype
    diskMetadata := some diskMetadata }

namespace Config

variable (config : Config Key Payload)

/-- `_use_block_first_for_tensor`. -/
def useBlockFirst (chunk : Chunk Payload) : Except XdsError Bool :=
  if config.blockFirstEnabled = false then .ok false
  else if chunk.shape.length ≠ 4 ∨ chunk.shape.getD 0 0 ≠ 2 then
    .error (.blockFirstFormatError
      ⟨"block_first_v1 source must use logical [2, NL, T, D] layout"⟩)
  else .ok (decide (chunk.shape.getD 2 0 = config.backend.metadata.chunkSize))

/-- `_required_store_size`. -/
def requiredStoreSize (put : StagedPut Key) : Except XdsError ℤ := do
  if ← config.useBlockFirst (config.chunk put.key) then
    let aligned ← (alignUp (config.chunk put.key).nbytes blockFirstAlignment).mapError
      .blockFirstFormatError
    return blockFirstHeaderSize + aligned
  else return put.physicalSize

/-- The path of the data file of a staged put. -/
def putPath (put : StagedPut Key) : DataPath Key :=
  keyToPath put.key ((config.useBlockFirst (config.chunk put.key)).toOption.getD false)

/-- A complete block-first file. -/
def blockFirstFile (key : Key) (diskMetadata : BlockFirstDiskMetadata) : DataFile Payload where
  header := some diskMetadata
  size := blockFirstHeaderSize + diskMetadata.ioNbytes
  chunk := config.chunk key

/-- The file that a staged put writes, with its metadata when it is block-first. -/
def saveData (put : StagedPut Key) :
    Except XdsError (DataFile Payload × Option BlockFirstDiskMetadata) := do
  let chunk := config.chunk put.key
  if ← config.useBlockFirst chunk then
    let diskMetadata ← config.backend.makeBlockFirstMetadata chunk.shape chunk.dtype
    return (config.blockFirstFile put.key diskMetadata, some diskMetadata)
  else return (⟨none, put.physicalSize, chunk⟩, none)

/-- The entry that `insert_key` makes. -/
def newEntry (put : StagedPut Key) (size : ℤ) (path : DataPath Key)
    (diskMetadata : Option BlockFirstDiskMetadata) : EntryInfo Key where
  path := path
  size := match diskMetadata with
    | some diskMetadata => blockFirstHeaderSize + diskMetadata.ioNbytes
    | none => size
  shape := (config.chunk put.key).shape.map Int.ofNat
  dtype := (config.chunk put.key).dtype
  diskMetadata := diskMetadata

/-- `_read_block_first_metadata`, up to its locked region. -/
def readBlockFirstMetadata (path : DataPath Key) (file : DataFile Payload) :
    Except XdsError (EntryInfo Key) := do
  match file.header with
  | none => throw (.blockFirstFormatError ⟨"block-first header magic mismatch"⟩)
  | some diskMetadata =>
      let metadata := config.backend.metadata
      if diskMetadata.validTokens ≠ metadata.chunkSize then
        throw (.blockFirstFormatError ⟨"block_first_v1 file is not a complete LMCache chunk: " ++
          s!"{diskMetadata.validTokens}/{metadata.chunkSize} tokens"⟩)
      match metadata.getShapes metadata.chunkSize, metadata.getDtypes with
      | [shape], [dtype] =>
          (diskMetadata.validateRuntime config.backend.signature shape dtype metadata.identity
            metadata.blockSize).mapError .blockFirstFormatError
          let totalSize := blockFirstHeaderSize + diskMetadata.ioNbytes
          if file.size ≠ totalSize then
            throw (.blockFirstFormatError
              ⟨s!"block-first file size {file.size} != expected {totalSize}"⟩)
          blockFirstEntry path diskMetadata
      | _, _ => throw (.blockFirstFormatError
          ⟨"block_first_v1 requires exactly one active KV layer group"⟩)

/-- `_read_metadata`, up to its locked region; `none` when it raises. -/
def readMetadata (path : DataPath Key) : Sidecar → Option (EntryInfo Key)
  | .unsupported => none
  | .valid shape dtype size =>
      let raw := shape.prod * dtype.itemsize
      if size < raw then none
      else if config.xdsBuffer = true ∧ size ≠ (raw + 4096 - 1) / 4096 * 4096 then none
      else some ⟨path, size, shape, dtype, none⟩

end Config

/-- The two files of a data path, in the order in which they are unlinked. -/
def bothFiles (path : DataPath Key) : List (FilePath Key) := [.sidecar path, .data path]

/-- What a failed save unlinks: a block-first file stays. -/
def cleanupFiles (path : DataPath Key) : List (FilePath Key) :=
  match path.layout with
  | .legacy => bothFiles path
  | .blockFirst => [.sidecar path]

/-- What a reader finds when it reads the first bytes of a file as a payload. -/
def rawContent (file : DataFile Payload) (size : ℤ) : Content Payload :=
  if file.header.isNone ∧ file.chunk.nbytes ≤ min size file.size then .payload file.chunk.payload
  else .rawBytes file size

/-- The count that a load of the entry has to read. -/
def loadSize (config : Config Key Payload) (entry : Entry Key) : ℤ :=
  match entry.diskMetadata with
  | some diskMetadata => diskMetadata.ioNbytes
  | none => if config.xdsBuffer then entry.size else entry.shape.prod * entry.dtype.itemsize

/-- The read of `_load_bytes_from_storage_with_memory`, given the file at the
captured path. -/
def readFile (config : Config Key Payload) (entry : Entry Key) (found : Option (DataFile Payload))
    (outcome : ReadOutcome) : ReadEnd Payload :=
  match found with
  | none => .refused
  | some file =>
      if entry.diskMetadata.isSome ∧ (file.header ≠ entry.diskMetadata ∨
          file.size ≠ blockFirstHeaderSize + loadSize config entry) then .refused
      else
        match outcome with
        | .raised => .raised
        | .raisedCaught => .refused
        | .returned count =>
            if count ≠ loadSize config entry then .refused
            else if entry.diskMetadata.isSome then .loaded (.payload file.chunk.payload)
            else .loaded (rawContent file count)

variable [DecidableEq Key]

/-- The lookup of a key when a batch is captured. -/
def captureItem (shared : Shared Key Payload) (key : Key) : LoadItem Key Payload where
  key := key
  captured := (shared.find key).map fun entry => ⟨entry.path, entry.shape, entry.dtype⟩
  object := none
  stage := .waiting

/-- Allocate an object for each captured item that gets one. -/
def allocateItems : List (LoadItem Key Payload) → List Bool → ℕ →
    List (LoadItem Key Payload) × ℕ
  | [], _, next => ([], next)
  | item :: items, granted, next =>
      if item.captured.isSome ∧ granted.headD false = true then
        let rest := allocateItems items granted.tail (next + 1)
        ({ item with object := some next } :: rest.1, rest.2)
      else
        let rest := allocateItems items granted.tail next
        (item :: rest.1, rest.2)

/-- One step of `_load_bytes_from_storage_with_memory`. -/
def advanceItem (config : Config Key Payload) (shared : Shared Key Payload)
    (item : LoadItem Key Payload) (outcome : ReadOutcome) :
    Option (Shared Key Payload × LoadItem Key Payload) :=
  match item.stage, item.object, item.captured with
  | .waiting, some _, some _ =>
      match shared.find item.key with
      | none => some (shared, { item with stage := .missing })
      | some entry => some (shared, { item with stage := .reading entry })
  | .waiting, _, _ => some (shared, { item with stage := .missing })
  | .reading entry, some _, some captured =>
      match readFile config entry (shared.dataFiles captured.path) outcome with
      | .loaded content => some (shared, { item with stage := .returned content })
      | .refused => some (shared, { item with stage := .failing entry })
      | .raised => some (shared, { item with stage := .raised })
  | .failing entry, some object, some _ =>
      some ((shared.popCredit item.key).release object,
        { item with stage := .failed entry (shared.find item.key) })
  | _, _, _ => none

/-- Make room for a put: the files to unlink and whether there is room. Without
a size limit there always is, and the caller has its own way to reserve it. -/
def evict (config : Config Key Payload) (shared : Shared Key Payload) (requiredSize : ℤ)
    (unlimited : Shared Key Payload) (choice : Choice Key) :
    Option (Shared Key Payload × List (FilePath Key) × Bool) :=
  match config.maxXdsSize, choice with
  | none, _ => some (unlimited, [], true)
  | some maxXdsSize, .evict candidates =>
      (Shared.evictLoop maxXdsSize requiredSize candidates shared []).map fun room =>
        (room.1, room.2.1.flatMap bothFiles, room.2.2)
  | some _, _ => none

/-! ### The machine -/

/-- One step of a job. -/
def advance (config : Config Key Payload) (shared : Shared Key Payload) (choice : Choice Key) :
    Job Key Payload → Option (Shared Key Payload × Job Key Payload)
  | .submitPut put =>
      if put.key ∈ shared.putTasks then some (shared, .done) else some (shared, .lookupPut put)
  | .lookupPut put =>
      if (shared.find put.key).any fun existing => existing.diskMetadata.isSome then
        some (shared, .done)
      else some (shared, .enlistPut put)
  | .enlistPut put => some (shared.enlist put.key, .reservePut put)
  | .reservePut put =>
      match config.requiredStoreSize put with
      | .error _ => some (shared, .done)
      | .ok requiredSize =>
          (evict config shared requiredSize shared choice).map fun room =>
            (room.1, .unlink room.2.1 (
              if room.2.2 = false then .finishPut put.key
              else if config.maxXdsSize.isSome then .trackPut put requiredSize
              else .addPut put requiredSize shared.currentCacheSize))
  | .addPut put size value =>
      some ({ shared with currentCacheSize := value + size }, .trackPut put size)
  | .trackPut put size => some (shared.track put.key, .savePut put size)
  | .savePut put size =>
      match choice, config.saveData put with
      | .fail, _ | _, .error _ =>
          some (shared, .unlink (cleanupFiles (config.putPath put)) (.undoPut put.key size))
      | _, .ok (file, none) =>
          some (shared.commitData (config.putPath put) file, .saveSidecar put size)
      | _, .ok (file, some diskMetadata) =>
          some (shared.commitData (config.putPath put) file,
            .publishPut put size (config.putPath put) (some diskMetadata))
  | .saveSidecar put size =>
      match choice with
      | .fail => some (shared, .unlink (cleanupFiles (config.putPath put)) (.undoPut put.key size))
      | _ =>
          let chunk := config.chunk put.key
          some (shared.commitSidecar (config.putPath put)
              (.valid (chunk.shape.map Int.ofNat) chunk.dtype put.physicalSize),
            .publishPut put size (config.putPath put) none)
  | .publishPut put size path diskMetadata =>
      match choice with
      | .fail => some (shared, .unlink (cleanupFiles path) (.undoPut put.key size))
      | _ => some (shared.insertKey put.key (config.newEntry put size path diskMetadata),
          .finishPut put.key)
  | .undoPut key size => some ((shared.discard key).charge (-size), .finishPut key)
  | .finishPut key => some (shared.delist key, .done)
  | .directPut key =>
      match shared.find key with
      | none => some (shared, .directCheck key)
      | some existing =>
          if existing.diskMetadata.isSome then some (shared, .done)
          else some (shared, .directRemove key)
  | .directRemove key =>
      match shared.find key with
      | none => some (shared, .directCheck key)
      | some entry => some ((shared.popCredit key).untrack key,
          .unlink (bothFiles entry.path) (.directCheck key))
  | .directCheck key =>
      if key ∈ shared.putTasks then some (shared, .done) else some (shared, .directEnlist key)
  | .directEnlist key => some (shared.enlist key, .directReserve key)
  | .directReserve key =>
      match config.backend.makeDirectBlockFirstMetadata with
      | .error _ => some (shared, .finishPut key)
      | .ok diskMetadata =>
          let requiredSize := blockFirstHeaderSize + diskMetadata.ioNbytes
          (evict config shared requiredSize (shared.charge requiredSize) choice).map fun room =>
            (room.1, .unlink room.2.1 (
              if room.2.2 then .directTrack key requiredSize else .finishPut key))
  | .directTrack key size => some (shared.track key, .directSave key size)
  | .directSave key size =>
      let path := keyToPath key true
      let written := do
        let diskMetadata ← config.backend.makeDirectBlockFirstMetadata
        let info ← blockFirstEntry path diskMetadata
        return (config.blockFirstFile key diskMetadata, info)
      match choice, written with
      | .fail, _ | _, .error _ => some (shared, .directRollback key size)
      | _, .ok (file, info) => some (shared.commitData path file, .directPublish key size info)
  | .directPublish key size info =>
      match choice with
      | .fail => some (shared, .directRollback key size)
      | _ => some (shared.index key info, .finishPut key)
  | .directRollback key size => some (shared.charge (-size), .directUntrack key)
  | .directUntrack key => some (shared.untrack key, .finishPut key)
  | .removeKey key =>
      match shared.find key with
      | none => some (shared, .done)
      | some entry =>
          some ((shared.popCredit key).untrack key, .unlink (bothFiles entry.path) .done)
  | .scanBlockFirst key =>
      let path := keyToPath key true
      match (shared.dataFiles path).map (config.readBlockFirstMetadata path) with
      | some (.ok info) => some (shared, .indexBlockFirst key info)
      | _ => some (shared, .done)
  | .indexBlockFirst key info => some (shared.indexBlockFirst key info, .done)
  | .scanLegacy key =>
      let path := keyToPath key false
      match (shared.sidecars path).bind (config.readMetadata path) with
      | some info => some (shared, .indexLegacy key info)
      | none => some (shared, .done)
  | .indexLegacy key info => some (shared.indexLegacy key info, .done)
  | .unlink [] next => some (shared, next)
  | .unlink (file :: pending) next =>
      match choice with
      | .fail => some (shared, .unlink pending next)
      | _ => some (shared.unlinkFile file, .unlink pending next)
  | .captureLoads keys => some (shared, .allocateLoads keys (keys.map (captureItem shared)))
  | .allocateLoads keys items =>
      match choice with
      | .allocate granted =>
          let allocated := allocateItems items granted shared.nextObject
          some ({ shared with nextObject := allocated.2 }, .loading keys allocated.1)
      | _ => none
  | .loading keys items =>
      match choice with
      | .item index outcome =>
          match items[index]? with
          | none => none
          | some item => (advanceItem config shared item outcome).map fun moved =>
              (moved.1, .loading keys (items.set index moved.2))
      | _ => none
  | .pinKey key => some (shared.pin key, .done)
  | .unpinKey key => some (shared.unpin key, .done)
  | .done => none

/-- The operations that callers and the scan start. -/
inductive Operation (Key : Type)
  | submitPutTask (put : StagedPut Key)
  | directPut (key : Key)
  | remove (key : Key)
  | readBlockFirstMetadata (key : Key)
  | readMetadata (key : Key)
  | batchedGetBlocking (keys : List Key)
  | pin (key : Key)
  | unpin (key : Key)

def Operation.start : Operation Key → Job Key Payload
  | submitPutTask put => .submitPut put
  | directPut key => .directPut key
  | remove key => .removeKey key
  | readBlockFirstMetadata key => .scanBlockFirst key
  | readMetadata key => .scanLegacy key
  | batchedGetBlocking keys => .captureLoads keys
  | pin key => .pinKey key
  | unpin key => .unpinKey key

/-- A memory object is not smaller than the chunk in it. -/
def Operation.admissible (config : Config Key Payload) : Operation Key → Bool
  | submitPutTask put => decide ((config.chunk put.key).nbytes ≤ put.physicalSize)
  | _ => true

/-- The shared state and what is left to do of every operation started so far. -/
structure State (Key Payload : Type) [DecidableEq Key] where
  shared : Shared Key Payload
  jobs : List (Job Key Payload)

inductive Event (Key : Type)
  | submit (operation : Operation Key)
  | advance (index : ℕ) (choice : Choice Key)

/-- One step of the machine. -/
def step (config : Config Key Payload) (state : State Key Payload) :
    Event Key → Option (State Key Payload)
  | .submit operation =>
      if operation.admissible config then some { state with jobs := state.jobs ++ [operation.start] }
      else none
  | .advance index choice =>
      match state.jobs[index]? with
      | none => none
      | some job => (advance config state.shared choice job).map fun moved =>
          ⟨moved.1, state.jobs.set index moved.2⟩

/-- The state of a new backend, for the files it finds. -/
def initial (dataFiles : DataPath Key → Option (DataFile Payload))
    (sidecars : DataPath Key → Option Sidecar) : State Key Payload where
  shared := ⟨∅, 0, [], ∅, dataFiles, sidecars, 0, 0, []⟩
  jobs := []

end LMCacheHcu.Xds
