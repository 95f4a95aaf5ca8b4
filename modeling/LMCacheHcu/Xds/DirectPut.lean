import LMCacheHcu.Xds.Accounting

/-! # A batch of direct puts

`batched_direct_put`, run to its end while no other operation touches its keys.
Beside the state and the results the run keeps a ledger of what it published,
of the entries that it removed or evicted, and of the chunks it rolled back.
-/

namespace LMCacheHcu.Xds

open Storage

variable {Key Payload Descriptor : Type} [DecidableEq Key]

/-! ### Regions -/

namespace Shared

/-- Unlink files, some of which may not exist. -/
def unlinkAll (files : List (FilePath Key)) (shared : Shared Key Payload) : Shared Key Payload :=
  files.foldl unlinkFile shared

/-- `remove`, for a key that has an entry. -/
def removeEntry (key : Key) (entry : Entry Key) (shared : Shared Key Payload) :
    Shared Key Payload :=
  ((shared.popCredit key).untrack key).unlinkAll (bothFiles entry.path)

/-- The entries of the first candidates of an eviction. -/
def evictedEntries (shared : Shared Key Payload) (candidates : List Key) (count : ℕ) :
    List (Entry Key) :=
  (candidates.take count).filterMap shared.find

/-- `_eviction`, for the candidates that the policy returns: the state, the
entries that it evicted and whether the room is reserved. -/
def eviction (maxXdsSize requiredSize : ℤ) (candidates : List Key) (shared : Shared Key Payload) :
    Option (Shared Key Payload × List (Entry Key) × Bool) :=
  (evictLoop maxXdsSize requiredSize candidates shared []).map fun room =>
    (room.1.unlinkAll (room.2.1.flatMap bothFiles),
      shared.evictedEntries candidates room.2.1.length, room.2.2)

end Shared

/-- `_rollback_direct_store`. -/
def rollbackDirectStore (key : Key) (requiredSize : ℤ) (policyUpdated : Bool)
    (shared : Shared Key Payload) : Shared Key Payload :=
  let shared := if requiredSize ≠ 0 then shared.charge (-requiredSize) else shared
  if policyUpdated then shared.untrack key else shared

/-! ### The batch -/

/-- One key of the batch with the descriptor of its plan. -/
structure DirectChunk (Key Descriptor : Type) where
  key : Key
  descriptor : Option Descriptor

/-- The switches of direct stores beside `direct_enabled`. -/
structure DirectStoreMode where
  directStoreEnabled : Bool
  directStorePipelineEnabled : Bool

/-- What the environment does with the chunk at an index: the candidates that
the policy returns, and how the file transaction ends. -/
structure DirectStoreEnvironment (Key : Type) where
  candidates : ℕ → List Key
  transaction : ℕ → Except XdsError Unit

/-- `_DirectStoreJob`. -/
structure DirectStoreJob (Key : Type) where
  index : ℕ
  key : Key
  path : DataPath Key
  requiredSize : ℤ

/-- The state of a call, with its ledger. -/
structure DirectBatch (Key Payload : Type) [DecidableEq Key] where
  shared : Shared Key Payload
  results : List Bool
  jobs : List (DirectStoreJob Key)
  published : List (Key × EntryInfo Key)
  dropped : List (Entry Key)
  rolledBack : List Key

section Batch

variable (config : Config Key Payload) (environment : DirectStoreEnvironment Key)

/-- `_run_direct_store_io` and the entry of the file. -/
def runDirectStoreIo (transaction : Except XdsError Unit) (key : Key) (path : DataPath Key) :
    Except XdsError (DataFile Payload × EntryInfo Key) := do
  transaction
  let diskMetadata ← config.backend.makeDirectBlockFirstMetadata
  let info ← blockFirstEntry path diskMetadata
  return (config.blockFirstFile key diskMetadata, info)

/-- Publish the file of a job or roll the job back, and take it off `put_tasks`. -/
def settleJob (batch : DirectBatch Key Payload) (job : DirectStoreJob Key) :
    DirectBatch Key Payload :=
  match runDirectStoreIo config (environment.transaction job.index) job.key job.path with
  | .ok (file, info) =>
      { batch with
        shared := ((batch.shared.commitData job.path file).index job.key info).delist job.key
        results := batch.results.set job.index true
        published := batch.published ++ [(job.key, info)] }
  | .error _ =>
      { batch with
        shared := (rollbackDirectStore job.key job.requiredSize true batch.shared).delist job.key
        rolledBack := batch.rolledBack ++ [job.key] }

/-- Make room for a chunk and reserve it. -/
def reserveDirect (shared : Shared Key Payload) (requiredSize : ℤ) (candidates : List Key) :
    Option (Shared Key Payload × List (Entry Key) × Bool) :=
  match config.maxXdsSize with
  | some maxXdsSize => shared.eviction maxXdsSize requiredSize candidates
  | none => some (shared.charge requiredSize, [], true)

/-- The chunk is not resident and nobody else puts its key. -/
def attemptChunk (pipelined : Bool) (index : ℕ) (key : Key) (batch : DirectBatch Key Payload) :
    Option (DirectBatch Key Payload) :=
  let shared := batch.shared.enlist key
  match config.backend.makeDirectBlockFirstMetadata with
  | .error _ =>
      some { batch with
        shared := (rollbackDirectStore key 0 false shared).delist key }
  | .ok diskMetadata =>
      let requiredSize := blockFirstHeaderSize + diskMetadata.ioNbytes
      (reserveDirect config shared requiredSize (environment.candidates index)).map fun room =>
        let batch := { batch with dropped := batch.dropped ++ room.2.1 }
        if room.2.2 = false then { batch with shared := room.1.delist key }
        else
          let job : DirectStoreJob Key := ⟨index, key, keyToPath key true, requiredSize⟩
          let batch := { batch with shared := room.1.track key }
          if pipelined then { batch with jobs := batch.jobs ++ [job] }
          else settleJob config environment batch job

/-- The body of the first loop. -/
def storeChunk (pipelined : Bool) (batch : DirectBatch Key Payload)
    (indexed : DirectChunk Key Descriptor × ℕ) : Option (DirectBatch Key Payload) :=
  let key := indexed.1.key
  if indexed.1.descriptor.isNone ∨ config.backend.directEnabled = false then some batch
  else
    match batch.shared.find key with
    | some existing =>
        if existing.diskMetadata.isSome then
          some { batch with results := batch.results.set indexed.2 true }
        else
          let batch := { batch with
            shared := batch.shared.removeEntry key existing
            dropped := batch.dropped ++ [existing] }
          if key ∈ batch.shared.putTasks then some batch
          else attemptChunk config environment pipelined indexed.2 key batch
    | none =>
        if key ∈ batch.shared.putTasks then some batch
        else attemptChunk config environment pipelined indexed.2 key batch

/-- The state before the first chunk of a batch. -/
def startBatch (shared : Shared Key Payload) (count : ℕ) : DirectBatch Key Payload :=
  ⟨shared, List.replicate count false, [], [], [], []⟩

/-- The first loop, over the first chunks of the batch. -/
def firstLoop (pipelined : Bool) (chunks : List (DirectChunk Key Descriptor)) (reached : ℕ)
    (shared : Shared Key Payload) : Option (DirectBatch Key Payload) :=
  (chunks.zipIdx.take reached).foldlM (storeChunk config environment pipelined)
    (startBatch shared chunks.length)

/-- Whether the transactions of a batch overlap. -/
def DirectStoreMode.pipelined (mode : DirectStoreMode)
    (chunks : List (DirectChunk Key Descriptor)) : Bool :=
  mode.directStorePipelineEnabled && decide (1 < chunks.length)

/-- `batched_direct_put`. -/
def batchedDirectPut (mode : DirectStoreMode) (chunks : List (DirectChunk Key Descriptor))
    (shared : Shared Key Payload) : Option (DirectBatch Key Payload) :=
  if mode.directStoreEnabled = false then some (startBatch shared chunks.length)
  else
    (firstLoop config environment (mode.pipelined chunks) chunks chunks.length shared).map
      fun batch => batch.jobs.foldl (settleJob config environment) batch

end Batch

end LMCacheHcu.Xds
