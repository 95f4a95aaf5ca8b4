import LMCacheHcu.Engine.ProcessTokens
import LMCacheHcu.Prefetch.LookupTasks
import Mathlib.Data.List.AList

/-! # Retrieving prefetched chunks and letting go of them

With async loading a retrieve reads the loading event of its request instead of
the storage: `_async_process_tokens_internal` takes the objects of the leading
chunks and releases the objects no chunk used. The event stays registered until
`lookup_unpin` or an abort has `cleanup_memory_objs` take it and let go of every
object in it.
-/

namespace LMCacheHcu.Prefetch

open LMCacheHcu.Engine

variable {LookupId Location Key Obj : Type}

/-- The exceptions that leave an asynchronous retrieve: a misaligned mask, and
a result that is no list of pairs. -/
inductive RetrieveError
  | valueError
  | typeError
deriving DecidableEq, Repr

section Process

variable [DecidableEq Key]

/-- `memory_obj_map[key] = memory_obj` for the pairs of all tiers. -/
def memoryObjMap : List (TierItem Key Obj) → AList (fun _ : Key => Obj) →
    Except RetrieveError (AList fun _ : Key => Obj)
  | [], map => .ok map
  | .memoryObj _ :: _, _ => .error .typeError
  | .pair key obj :: items, map => memoryObjMap items (map.insert key obj)

/-- The local variables of `_async_process_tokens_internal` in its chunk loop. -/
structure AsyncProgress (Key Obj : Type) where
  retMask : List Bool
  chunks : List (ProcessedChunk Key Obj)
  totKvSize : Nat
  usedKeys : List Key
deriving DecidableEq, Repr

/-- The loop over the request's chunks, which leaves at the first missing one. -/
def takeDelivered (sizes : KvSizes Obj) (map : AList fun _ : Key => Obj) :
    List (ChunkInfo Key) → AsyncProgress Key Obj → AsyncProgress Key Obj
  | [], progress => progress
  | chunk :: more, progress =>
      match map.lookup chunk.key with
      | none => progress
      | some memoryObj =>
          takeDelivered sizes map more
            { retMask := RangeMask.fillRange progress.retMask chunk.start chunk.stop true
              chunks := progress.chunks ++ [⟨chunk.key, memoryObj, chunk.start, chunk.stop⟩]
              totKvSize := progress.totKvSize + sizes.getSize memoryObj
              usedKeys := progress.usedKeys ++ [chunk.key] }

/-- The objects of the map whose key no chunk used. -/
def unusedObjs (map : AList fun _ : Key => Obj) (usedKeys : List Key) : List Obj :=
  (map.entries.filter fun entry => entry.1 ∉ usedKeys).map Sigma.snd

/-- What the processing of a request's tokens hands back, with the objects it
has released. -/
structure AsyncProcessed (Key Obj : Type) where
  retMask : List Bool
  chunks : List (ProcessedChunk Key Obj)
  totKvSize : Nat
  released : List Obj
deriving DecidableEq, Repr

/-- `_async_process_tokens_internal`. The future of the request's loading event
is missing when no event is registered; the chunks are those that
`token_database.process_tokens` yields, or its exception for a mask that does not
start at a chunk. -/
def asyncProcessTokensInternal (sizes : KvSizes Obj) (future : Option (Future Key Obj))
    (numTokens : Nat) (tokenChunks : Except RetrieveError (List (ChunkInfo Key))) :
    Except RetrieveError (AsyncProcessed Key Obj) :=
  match future with
  | none => .ok ⟨List.replicate numTokens false, [], 0, []⟩
  | some keyedMemoryObjs => do
      let map ← memoryObjMap keyedMemoryObjs.flatten ∅
      let chunkInfos ← tokenChunks
      let progress := takeDelivered sizes map chunkInfos
        ⟨List.replicate numTokens false, [], 0, []⟩
      return ⟨progress.retMask, progress.chunks, progress.totKvSize,
        unusedObjs map progress.usedKeys⟩

/-- A call of `retrieve` with async loading. -/
structure AsyncRetrieveCall (Key : Type) where
  healthy : Bool
  passive : Bool
  removeAfterRetrieve : Bool
  numTokens : Nat
  tokenChunks : Except RetrieveError (List (ChunkInfo Key))

/-- `LMCacheEngine.retrieve` with async loading, up to the broadcast: the
objects of the chunks are kept, since the loading event still owns them. -/
def retrieve (sizes : KvSizes Obj) (future : Option (Future Key Obj))
    (call : AsyncRetrieveCall Key) : Except RetrieveError (RetrieveResult Key Obj) :=
  if !call.healthy || call.passive then
    .ok ⟨List.replicate call.numTokens false, [], [], []⟩
  else do
    let processed ← asyncProcessTokensInternal sizes future call.numTokens call.tokenChunks
    return {
      retMask := processed.retMask
      copiedToGpu := processed.chunks.map fun chunk =>
        (chunk.memoryObj, chunk.start, chunk.stop)
      removedKeys := if call.removeAfterRetrieve then processed.chunks.map ProcessedChunk.key
        else []
      refCountDown := processed.released }

end Process

/-! ### Letting go -/

variable {manager : EventManager LookupId (Future Key Obj)}

/-- The release loop of `cleanup_memory_objs`; an item that is no pair ends it. -/
def unpinItems : List (TierItem Key Obj) → LoadingState manager → LoadingState manager
  | [], state => state
  | .memoryObj _ :: _, state => state
  | .pair _ obj :: items, state =>
      unpinItems items { state with
        unpins := state.unpins ++ [obj]
        refCountDowns := state.refCountDowns ++ [obj] }

def cleanupMemoryObjs (lookupId : LookupId) (state : LoadingState manager) :
    LoadingState manager :=
  if manager.getEventStatus state.events lookupId ≠ .done then state
  else
    match manager.popEvent lookupId state.events with
    | (none, events) => { state with events }
    | (some memoryObjs, events) => unpinItems memoryObjs.flatten { state with events }

/-- The part of the engine that lookups change: the pins it remembers for each
lookup, the loading events, and the storage. -/
structure LookupState (Location Storage : Type) (manager : EventManager LookupId (Future Key Obj))
    where
  lookupPins : AList fun _ : LookupId => AList fun _ : Location => List Key
  loading : LoadingState manager
  storage : Storage

variable {Storage : Type} [DecidableEq LookupId]

/-- `lookup_unpin`: the pins of a lookup are returned to their locations; a
lookup without pins may have a loading event to clean up. -/
def lookupUnpin (batchedUnpin : List Key → Location → Storage → Storage) (lookupId : LookupId)
    (state : LookupState Location Storage manager) : LookupState Location Storage manager :=
  match state.lookupPins.lookup lookupId with
  | some mapping =>
      { state with
        lookupPins := state.lookupPins.erase lookupId
        storage := mapping.entries.foldl
          (fun storage entry => batchedUnpin entry.2 entry.1 storage) state.storage }
  | none =>
      if manager.getEventStatus state.loading.events lookupId ≠ .notFound then
        { state with loading := cleanupMemoryObjs lookupId state.loading }
      else state

/-! ### The life of one lookup -/

/-- What happens to a prefetched lookup: a retrieve and the unpin of the save
step after it, or an abort. -/
inductive Ending (Key : Type)
  | retrieved (call : AsyncRetrieveCall Key)
  | aborted

variable [DecidableEq Key]

/-- The releases of a retrieve; one that raises has released nothing yet. -/
def retrieveReleases (sizes : KvSizes Obj) (lookupId : LookupId) (call : AsyncRetrieveCall Key)
    (state : LoadingState manager) : List Obj :=
  match retrieve sizes (manager.getEventFuture state.events lookupId) call with
  | .ok result => result.refCountDown
  | .error _ => []

/-- The prefetch of a lookup, then its ending. -/
def prefetchRun (batchedUnpin : List Key → Location → Storage → Storage) (sizes : KvSizes Obj)
    (backends : List (PrefetchBackend Key Obj)) (lookupId : LookupId) (keys : List Key)
    (cumChunkLengths : List Nat) (ending : Ending Key)
    (state : LookupState Location Storage manager) : LookupState Location Storage manager :=
  let loading := (asyncLookupAndPrefetch backends lookupId keys cumChunkLengths state.loading).1
  match ending with
  | .aborted => { state with loading := cleanupMemoryObjs lookupId loading }
  | .retrieved call =>
      lookupUnpin batchedUnpin lookupId { state with
        loading := { loading with
          refCountDowns := loading.refCountDowns ++
            retrieveReleases sizes lookupId call loading } }

end LMCacheHcu.Prefetch
