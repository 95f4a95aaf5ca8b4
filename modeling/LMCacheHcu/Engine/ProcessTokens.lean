import LMCacheHcu.Foundation.RangeMask
import Mathlib.Data.List.Chain

/-! # Retrieving the chunks of one request

The synchronous half of `LMCacheEngine.retrieve`. A request is a run of token
chunks; `get_block_mapping` assigns a prefix of it to storage locations in
order; `_process_tokens_internal` then asks every location first for direct
transfers into the KV cache and second, for the chunks these did not serve,
for memory objects. The token mask and the list of chunks still to be copied
are accumulated over all locations and cut once at the end.
-/

namespace LMCacheHcu.Engine

/-- One `(CacheEngineKey, start, end)` entry of `chunk_infos`. -/
structure ChunkInfo (Key : Type) where
  key : Key
  start : Nat
  stop : Nat
deriving DecidableEq, Repr

/-- `ProcessedChunk`: a chunk together with the memory object that holds it. -/
structure ProcessedChunk (Key Obj : Type) where
  key : Key
  memoryObj : Obj
  start : Nat
  stop : Nat
deriving DecidableEq, Repr

/-- The chunks that `token_database.process_tokens` yields for a request:
consecutive nonempty ranges inside the token list. -/
structure RequestChunks (Key : Type) where
  numTokens : Nat
  chunkInfos : List (ChunkInfo Key)
  nonempty : ∀ chunk ∈ chunkInfos, chunk.start < chunk.stop
  consecutive : chunkInfos.IsChain fun before after => before.stop = after.start
  bounded : ∀ chunk ∈ chunkInfos, chunk.stop ≤ numTokens

/-- The storage manager as the retrieve path sees it. A direct read answers
one boolean per block, a fallback read one optional object per key. -/
structure StorageManager (Location Key Obj : Type) where
  supportsDirectIo : Location → Bool
  batchedDirectGet : Location → List (ChunkInfo Key) → List Bool
  batchedGet : Location → List Key → List (Option Obj)
  direct_aligned : ∀ location blocks,
    (batchedDirectGet location blocks).length = blocks.length
  get_aligned : ∀ location keys, (batchedGet location keys).length = keys.length

theorem length_noDirectGet {Location Key : Type} (_ : Location) (blocks : List (ChunkInfo Key)) :
    (List.replicate blocks.length false).length = blocks.length := List.length_replicate

/-- Byte sizes that the accounting of a retrieve reads: the KV bytes of a
number of tokens (`get_shapes` and `get_dtypes`) and `memory_obj.get_size()`. -/
structure KvSizes (Obj : Type) where
  tokenBytes : Nat → Nat
  getSize : Obj → Nat

/-- The Python exceptions that the two loops can raise. -/
inductive ProcessError
  | valueError
  | indexError
deriving DecidableEq, Repr

/-- The local variables of `_process_tokens_internal` between two blocks;
`released` lists the objects whose `ref_count_down` it has called. -/
structure Progress (Key Obj : Type) where
  retMask : List Bool
  reorderedChunks : List (ProcessedChunk Key Obj)
  totKvSize : Nat
  lastFailedBlockStart : Option Nat
  released : List Obj
deriving DecidableEq, Repr

variable {Location Key Obj : Type}

def Progress.initial (numTokens : Nat) : Progress Key Obj where
  retMask := List.replicate numTokens false
  reorderedChunks := []
  totKvSize := 0
  lastFailedBlockStart := none
  released := []

/-- The update of `last_failed_block_start` at a failed block. -/
def laterFailure (last : Option Nat) (start : Nat) : Option Nat :=
  match last with
  | none => some start
  | some previous => if previous < start then some start else some previous

/-- The loop over one location's blocks. The second argument is what remains
of `fallback_memory_objs` from `fallback_index` on; it is returned for the
release loop that follows. -/
def scanBlocks (sizes : KvSizes Obj) :
    List (ChunkInfo Key × Bool) → List (Option Obj) → Progress Key Obj →
      Except ProcessError (Progress Key Obj × List (Option Obj))
  | [], rest, progress => .ok (progress, rest)
  | (chunk, true) :: more, rest, progress =>
      scanBlocks sizes more rest
        { progress with
          totKvSize := progress.totKvSize + sizes.tokenBytes (chunk.stop - chunk.start)
          retMask := RangeMask.fillRange progress.retMask chunk.start chunk.stop true }
  | (_, false) :: _, [], _ => .error .indexError
  -- the object is missing: remember the block and leave the loop
  | (chunk, false) :: _, none :: rest, progress =>
      .ok ({ progress with
        lastFailedBlockStart := laterFailure progress.lastFailedBlockStart chunk.start }, rest)
  | (chunk, false) :: more, some memoryObj :: rest, progress =>
      scanBlocks sizes more rest
        { progress with
          reorderedChunks := progress.reorderedChunks ++
            [⟨chunk.key, memoryObj, chunk.start, chunk.stop⟩]
          totKvSize := progress.totKvSize + sizes.getSize memoryObj
          retMask := RangeMask.fillRange progress.retMask chunk.start chunk.stop true }

/-- The direct results of one location; without direct I/O every block falls back. -/
def directResults (manager : StorageManager Location Key Obj) (location : Location)
    (blocks : List (ChunkInfo Key)) : List Bool :=
  if manager.supportsDirectIo location then manager.batchedDirectGet location blocks
  else List.replicate blocks.length false

/-- The blocks whose direct transfer did not succeed. -/
def fallbackBlocks (blocks : List (ChunkInfo Key)) (direct : List Bool) :
    List (ChunkInfo Key) :=
  ((blocks.zip direct).filter fun pair => !pair.2).map Prod.fst

/-- The objects fetched for the blocks that fall back. -/
def fallbackMemoryObjs (manager : StorageManager Location Key Obj) (location : Location)
    (blocks : List (ChunkInfo Key)) : List (Option Obj) :=
  let fallback := fallbackBlocks blocks (directResults manager location blocks)
  if fallback.isEmpty then [] else manager.batchedGet location (fallback.map ChunkInfo.key)

/-- One iteration of the loop over `block_mapping.items()`. -/
def processLocation (sizes : KvSizes Obj) (manager : StorageManager Location Key Obj)
    (progress : Progress Key Obj) (entry : Location × List (ChunkInfo Key)) :
    Except ProcessError (Progress Key Obj) :=
  let direct := directResults manager entry.1 entry.2
  -- `zip(..., strict=True)` raises on lists of different lengths
  if entry.2.length ≠ direct.length then .error .valueError
  else do
    let (scanned, rest) ← scanBlocks sizes (entry.2.zip direct)
      (fallbackMemoryObjs manager entry.1 entry.2) progress
    return { scanned with released := scanned.released ++ rest.filterMap id }

/-- The mask cut and the chunk filter after the last location. -/
def cutAtFailure (progress : Progress Key Obj) : Progress Key Obj :=
  match progress.lastFailedBlockStart with
  | none => progress
  | some failed =>
      { progress with
        retMask := RangeMask.fillRange progress.retMask failed progress.retMask.length false
        reorderedChunks := progress.reorderedChunks.filter fun chunk => chunk.stop < failed }

/-- `_process_tokens_internal` from the block mapping on. -/
def processBlocks (sizes : KvSizes Obj) (manager : StorageManager Location Key Obj)
    (numTokens : Nat) (blockMapping : List (Location × List (ChunkInfo Key))) :
    Except ProcessError (Progress Key Obj) := do
  let progress ← blockMapping.foldlM (processLocation sizes manager)
    (Progress.initial numTokens)
  return cutAtFailure progress

/-- The loop of `get_block_mapping` over the active backends, each given by its
name and its `batched_contains`. -/
def mapBlocks (chunkInfos : List (ChunkInfo Key)) :
    List (Location × (List Key → Nat)) → List Key → Nat →
      List (Location × List (ChunkInfo Key))
  | [], _, _ => []
  | (name, batchedContains) :: backends, keys, totalHitChunks =>
      let hitChunks := batchedContains keys
      if hitChunks = 0 then mapBlocks chunkInfos backends keys totalHitChunks
      else
        (name, (chunkInfos.drop totalHitChunks).take hitChunks) ::
          if totalHitChunks + hitChunks = chunkInfos.length then []
          else mapBlocks chunkInfos backends (keys.drop hitChunks) (totalHitChunks + hitChunks)

def getBlockMapping (backends : List (Location × (List Key → Nat)))
    (chunkInfos : List (ChunkInfo Key)) : List (Location × List (ChunkInfo Key)) :=
  mapBlocks chunkInfos backends (chunkInfos.map ChunkInfo.key) 0

/-- The mapping a retrieve uses: everything at the single location that the
request's lookup has pinned, else a fresh prefix match. -/
def selectBlockMapping (lookupPins : Option (List Location))
    (backends : List (Location × (List Key → Nat))) (chunkInfos : List (ChunkInfo Key)) :
    List (Location × List (ChunkInfo Key)) :=
  match lookupPins with
  | some [location] => [(location, chunkInfos)]
  | _ => getBlockMapping backends chunkInfos

def processTokensInternal (sizes : KvSizes Obj) (manager : StorageManager Location Key Obj)
    (lookupPins : Option (List Location)) (backends : List (Location × (List Key → Nat)))
    (request : RequestChunks Key) : Except ProcessError (Progress Key Obj) :=
  processBlocks sizes manager request.numTokens
    (selectBlockMapping lookupPins backends request.chunkInfos)

/-- What a synchronous `retrieve` leaves behind: the returned mask, the objects
copied to the GPU with their token ranges, the keys removed afterwards and
every `ref_count_down` made on the way. -/
structure RetrieveResult (Key Obj : Type) where
  retMask : List Bool
  copiedToGpu : List (Obj × Nat × Nat)
  removedKeys : List Key
  refCountDown : List Obj
deriving DecidableEq, Repr

/-- The tail of `retrieve` after token processing, without async loading. -/
def finishRetrieve (removeAfterRetrieve : Bool) (progress : Progress Key Obj) :
    RetrieveResult Key Obj where
  retMask := progress.retMask
  copiedToGpu := progress.reorderedChunks.map fun chunk =>
    (chunk.memoryObj, chunk.start, chunk.stop)
  removedKeys :=
    if removeAfterRetrieve then progress.reorderedChunks.map ProcessedChunk.key else []
  refCountDown := progress.released ++ progress.reorderedChunks.map ProcessedChunk.memoryObj

/-- `LMCacheEngine.retrieve` on an active rank with synchronous loading. -/
def retrieve (healthy removeAfterRetrieve : Bool) (sizes : KvSizes Obj)
    (manager : StorageManager Location Key Obj) (lookupPins : Option (List Location))
    (backends : List (Location × (List Key → Nat))) (request : RequestChunks Key) :
    Except ProcessError (RetrieveResult Key Obj) :=
  if healthy then do
    let progress ← processTokensInternal sizes manager lookupPins backends request
    return finishRetrieve removeAfterRetrieve progress
  else
    .ok ⟨List.replicate request.numTokens false, [], [], []⟩

end LMCacheHcu.Engine
