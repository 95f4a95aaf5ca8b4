import LMCacheHcu.Engine.RetrieveGuarantees
import LMCacheHcu.Engine.StoreEvents
import LMCacheHcu.Foundation.Runs
import LMCacheHcu.Foundation.SlotRows
import LMCacheHcu.Prefetch.AsyncRetrieve

/-! # An engine, its storage and the paged cache

Stores read rows of the paged cache into memory objects and hand these to the
storage, where they land later; retrieves bring what the storage answers back to
the slots of another request. In between the serving engine reuses its slots and
the storage evicts, copies and reads as it likes. A row is everything that the
layers keep for one token, and what it should be depends on the tokens up to it.
-/

namespace LMCacheHcu.Coherence

open Engine SlotRows

variable {Location Key Row : Type}

/-! ### Copies -/

/-- `slot_mapping[start:end]`. -/
def chunkSlots (slotMapping : List ℤ) (start stop : ℕ) : List ℤ :=
  (slotMapping.take stop).drop start

/-- The rows of a memory object after `from_gpu`. -/
def fromGpu (slotMapping : List ℤ) (paged : ℕ → Row) (start stop : ℕ) (memory : ℕ → Row) :
    ℕ → Row :=
  gather (chunkSlots slotMapping start stop) paged memory

/-- The rows that `to_gpu` copies, with their slots: `skip_prefix_n_tokens` leaves
out those of the tokens that vLLM has. -/
def toGpuRows (slotMapping : List ℤ) (vllmCached : ℕ) (memory : ℕ → Row) (start stop : ℕ) :
    List (ℤ × Row) :=
  (slotted (chunkSlots slotMapping start stop) memory).drop
    (min (stop - start) (vllmCached - start))

/-- `batched_to_gpu`. -/
def batchedToGpu (slotMapping : List ℤ) (vllmCached : ℕ)
    (copied : List ((ℕ → Row) × ℕ × ℕ)) (paged : ℕ → Row) : ℕ → Row :=
  copied.foldl
    (fun paged object =>
      scatter (toGpuRows slotMapping vllmCached object.1 object.2.1 object.2.2) paged) paged

/-! ### Stores and retrieves -/

/-- A call of `store` with token ids. The memory that an allocation hands out holds
the rows of whatever it was used for before, and so does a file. -/
structure StoreCall (Location Key Row : Type) where
  state : StoreState
  manager : StoreManager Key (ℕ → Row)
  ids : List ℤ
  device : Option Storage.Device
  mask : Option (List Bool)
  slotMapping : List ℤ
  directLocation : Location
  directMemory : ChunkInfo Key → ℕ → Row
  putLocations : List Location

/-- The tokens of a retrieve with the chunks that the token database has for them. -/
structure Wanted (database : HashedChunks Key) where
  ids : List ℤ
  mask : Option (List Bool)
  slotMapping : List ℤ
  vllmCached : ℕ
  request : RequestChunks Key
  numTokens_eq : request.numTokens = ids.length
  processed : database.processTokens (.tokens ids none) mask = some request.chunkInfos

/-- A synchronous retrieve. `transferred` is the paged cache after the direct
transfers, before the copies. -/
structure RetrieveCall (Location : Type) {Key : Type} (Row : Type)
    (database : HashedChunks Key) extends Wanted database where
  removeAfterRetrieve : Bool
  sizes : KvSizes (ℕ → Row)
  manager : StorageManager Location Key (ℕ → Row)
  lookupPins : Option (List Location)
  backends : List (Location × (List Key → ℕ))
  transferred : ℕ → Row

/-- A retrieve with async loading, of the objects in its loading event. -/
structure AsyncCall {Key : Type} (Row : Type) (database : HashedChunks Key) extends
    Wanted database where
  removeAfterRetrieve : Bool
  sizes : KvSizes (ℕ → Row)
  future : Option (Prefetch.Future Key (ℕ → Row))

namespace RetrieveCall

variable {database : HashedChunks Key} (call : RetrieveCall Location Row database)

def mapping : BlockMapping Location call.request :=
  BlockMapping.select call.lookupPins call.backends call.request

def result : Except ProcessError (RetrieveResult Key (ℕ → Row)) :=
  Engine.retrieve true call.removeAfterRetrieve call.sizes call.manager call.lookupPins
    call.backends call.request

end RetrieveCall

/-- What an asynchronous retrieve returns and copies. -/
def AsyncCall.result [DecidableEq Key] {database : HashedChunks Key}
    (call : AsyncCall Row database) :
    Except Prefetch.RetrieveError (RetrieveResult Key (ℕ → Row)) :=
  Prefetch.retrieve call.sizes call.future
    ⟨true, false, call.removeAfterRetrieve, call.request.numTokens, .ok call.request.chunkInfos⟩

/-! ### The world -/

/-- Everything that the storage has held so far, what is on its way there, and the
paged cache. -/
structure CacheWorld (Location Key Row : Type) where
  published : List (Location × Key × (ℕ → Row))
  inFlight : List (Location × Key × (ℕ → Row))
  paged : ℕ → Row

/-- The serving engine writes its cache, an object lands in the storage, the storage
copies one from a location to another, and the calls. -/
inductive CacheEvent (Location Row : Type) {Key : Type} (database : HashedChunks Key)
  | computed (paged : ℕ → Row)
  | stored (call : StoreCall Location Key Row)
  | landed (index : ℕ)
  | copied (index : ℕ) (location : Location)
  | retrieved (call : RetrieveCall Location Row database)
  | retrievedAsync (call : AsyncCall Row database)

namespace CacheWorld

variable [DecidableEq Key] {database : HashedChunks Key}

/-- What a store hands to the storage. -/
def afterStore (world : CacheWorld Location Key Row) (call : StoreCall Location Key Row)
    (result : StoreResult Key (ℕ → Row)) : CacheWorld Location Key Row where
  published :=
    result.directPut.map (fun chunk => (call.directLocation, chunk.key,
      fromGpu call.slotMapping world.paged chunk.start chunk.stop (call.directMemory chunk))) ++
    world.published
  inFlight :=
    result.batchedPut.flatMap (fun object => call.putLocations.map fun location =>
      (location, object.1.key,
        fromGpu call.slotMapping world.paged object.1.start object.1.stop object.2)) ++
    world.inFlight
  paged := world.paged

/-- The copies of a retrieve. -/
def afterRetrieve (world : CacheWorld Location Key Row) (wanted : Wanted database)
    (transferred : ℕ → Row) (result : RetrieveResult Key (ℕ → Row)) :
    CacheWorld Location Key Row :=
  { world with
    paged := batchedToGpu wanted.slotMapping wanted.vllmCached result.copiedToGpu transferred }

/-- A call that raises has changed nothing. -/
def step (world : CacheWorld Location Key Row) :
    CacheEvent Location Row database → Option (CacheWorld Location Key Row)
  | .computed paged => some { world with paged }
  | .stored call =>
      match Engine.store call.state database call.manager (.tokens call.ids call.device)
          call.mask with
      | .ok result => some (world.afterStore call result)
      | .error _ => some world
  | .landed index =>
      (world.inFlight[index]?).map fun item =>
        { world with
          published := item :: world.published
          inFlight := world.inFlight.eraseIdx index }
  | .copied index location =>
      (world.published[index]?).map fun item =>
        { world with published := (location, item.2) :: world.published }
  | .retrieved call =>
      match call.result with
      | .ok result => some (world.afterRetrieve call.toWanted call.transferred result)
      | .error _ => some world
  | .retrievedAsync call =>
      match call.result with
      | .ok result => some (world.afterRetrieve call.toWanted world.paged result)
      | .error _ => some world

end CacheWorld

/-! ### What the parties promise -/

/-- The keys of a token database: each names the tokens up to the end of its chunk. -/
structure PrefixKeyed (database : HashedChunks Key) : Prop where
  within : ∀ ids, ∀ chunk ∈ database.prefixChunks ids, chunk.stop ≤ ids.length
  identified : ∀ ids others, ∀ chunk ∈ database.prefixChunks ids,
    ∀ other ∈ database.prefixChunks others, chunk.key = other.key →
      chunk = other ∧ ids.take chunk.stop = others.take chunk.stop

/-- The rows of a chunk are those of its tokens. -/
def RightRows (kv : List ℤ → Row) (ids : List ℤ) (chunk : ChunkInfo Key) (content : ℕ → Row) :
    Prop :=
  ∀ token, chunk.start ≤ token → token < chunk.stop →
    content (token - chunk.start) = kv (ids.take (token + 1))

/-- The rows are right for every request that has the key. -/
def RightContent (kv : List ℤ → Row) (database : HashedChunks Key) (key : Key)
    (content : ℕ → Row) : Prop :=
  ∀ ids, ∀ chunk ∈ database.prefixChunks ids, chunk.key = key → RightRows kv ids chunk content

/-- The first token that a mask lets through. -/
def firstToken (mask : Option (List Bool)) : ℕ := (mask.map fun mask => mask.count false).getD 0

/-- vLLM hands a store the slots of the tokens, with their rows in them. -/
def StoreCall.Promised (kv : List ℤ → Row) (world : CacheWorld Location Key Row)
    (call : StoreCall Location Key Row) : Prop :=
  ∀ token, firstToken call.mask ≤ token → token < call.ids.length →
    ∃ slot : ℕ, call.slotMapping[token]? = some (slot : ℤ) ∧
      world.paged slot = kv (call.ids.take (token + 1))

/-- No two tokens of a retrieve share a slot. -/
def Wanted.Distinct {database : HashedChunks Key} (wanted : Wanted database) : Prop :=
  ∀ (token other slot : ℕ), wanted.slotMapping[token]? = some (slot : ℤ) →
    wanted.slotMapping[other]? = some (slot : ℤ) → token = other

/-- A slot of a token that the retrieve is to fill. -/
def Wanted.Fills {database : HashedChunks Key} (wanted : Wanted database)
    (chunk : ChunkInfo Key) (token slot : ℕ) : Prop :=
  chunk.start ≤ token ∧ token < chunk.stop ∧ wanted.vllmCached ≤ token ∧
    wanted.slotMapping[token]? = some (slot : ℤ)

/-- vLLM gives every token its own slot, the storage answers with what it has held,
and a direct transfer that succeeds brings such rows to the slots of its chunk. No
transfer writes elsewhere. -/
structure RetrieveCall.Promised {database : HashedChunks Key}
    (world : CacheWorld Location Key Row) (call : RetrieveCall Location Row database) : Prop where
  distinct : call.Distinct
  answered : ∀ (location : Location) (keys : List Key) (key : Key) (content : ℕ → Row),
    (key, some content) ∈ keys.zip (call.manager.batchedGet location keys) →
      (location, key, content) ∈ world.published
  transfers : ∀ entry ∈ call.mapping.entries, ∀ chunk,
    (chunk, true) ∈ entry.2.zip (call.manager.batchedDirectGet entry.1 entry.2) →
      ∃ content, (entry.1, chunk.key, content) ∈ world.published ∧
        ∀ token slot, call.Fills chunk token slot →
          call.transferred slot = content (token - chunk.start)
  confined : ∀ slot : ℕ,
    (∀ chunk ∈ call.mapping.entries.flatMap Prod.snd, ∀ token,
      ¬ call.Fills chunk token slot) → call.transferred slot = world.paged slot

/-- The objects of a loading event have been read from the storage. -/
structure AsyncCall.Promised {database : HashedChunks Key}
    (world : CacheWorld Location Key Row) (call : AsyncCall Row database) : Prop where
  distinct : call.Distinct
  delivered : ∀ future, call.future = some future → ∀ key content,
    .pair key content ∈ future.flatten → ∃ location, (location, key, content) ∈ world.published

/-- The promises that an event needs. -/
def Promised (kv : List ℤ → Row) {database : HashedChunks Key}
    (world : CacheWorld Location Key Row) : CacheEvent Location Row database → Prop
  | .stored call => call.Promised kv world
  | .retrieved call => call.Promised world
  | .retrievedAsync call => call.Promised world
  | _ => True

/-- The worlds that runs reach in which everyone keeps the promises. -/
abbrev CacheWorld.RunsTo [DecidableEq Key] (kv : List ℤ → Row) (database : HashedChunks Key)
    (start world : CacheWorld Location Key Row) : Prop :=
  Runs.Reaches (fun world (event : CacheEvent Location Row database) => world.step event)
    (Promised kv) start world

/-- Everything that the storage holds or will hold is right. -/
structure Coherent (kv : List ℤ → Row) (database : HashedChunks Key)
    (world : CacheWorld Location Key Row) : Prop where
  published : ∀ item ∈ world.published, RightContent kv database item.2.1 item.2.2
  inFlight : ∀ item ∈ world.inFlight, RightContent kv database item.2.1 item.2.2

end LMCacheHcu.Coherence
