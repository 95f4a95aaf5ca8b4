import LMCacheHcu.Layerwise.Connectors

/-! # Storing layer by layer

`LMCacheEngine.store_layer` allocates the memory objects of all layers, then is
resumed by `save_kv_layer` once for every layer and by `wait_for_save` once more.
Each of its own resumptions resumes the connector's generator and hands the
layer before to the storage.
-/

namespace LMCacheHcu.Layerwise

open Generator

variable {Location Key Obj : Type}

/-- A chunk that `process_tokens` yields, with its key split into layers. -/
structure LayerChunk (numLayers : Nat) (Key : Type) where
  start : Nat
  stop : Nat
  keysMultiLayer : List Key
  length_keys : keysMultiLayer.length = numLayers

/-- What the storage answers for a chunk of a store: where its first layer is
already stored, and the objects it can allocate for its layers. -/
structure StoreChunk (numLayers : Nat) (Location Key Obj : Type)
    extends LayerChunk numLayers Key where
  stored : Option Location
  allocated : Option (List Obj)
  length_allocated : ∀ objs, allocated = some objs → objs.length = numLayers

/-- A chunk with the memory objects of its layers. -/
structure AllocatedChunk (Key Obj : Type) where
  start : Nat
  stop : Nat
  keysMultiLayer : List Key
  memoryObjsMultiLayer : List Obj
deriving DecidableEq, Repr

/-- The allocation loop: stored chunks are passed over, and the first chunk
without memory ends it. -/
def allocateChunks {numLayers : Nat} : List (StoreChunk numLayers Location Key Obj) →
    Except PyError (List (AllocatedChunk Key Obj))
  | [] => .ok []
  | chunk :: more =>
      -- only the first layer's key is looked up
      match chunk.keysMultiLayer[0]? with
      | none => .error .indexError
      | some _ =>
          match chunk.stored, chunk.allocated with
          | some _, _ => allocateChunks more
          | none, none => .ok []
          | none, some objs => do
              let later ← allocateChunks more
              return ⟨chunk.start, chunk.stop, chunk.keysMultiLayer, objs⟩ :: later

/-- The rows of a chunk-major table as `zip(*rows)` puts them together. -/
def layerMajor {α : Type} (numLayers : Nat) (rows : List (List α)) : List (List α) :=
  (List.range numLayers).map fun layer => rows.filterMap fun row => row[layer]?

/-- The layer loop of `store_layer`, and its last yield. -/
def putLayers (keys : List (List Key)) (memoryObjs : List (List Obj)) :
    List Nat → FromGpu Key Obj → Body Unit Unit (LayerEvent Key Obj) PyError
  | [], _ => .yield () fun _ => .stop
  | layer :: layers, memObjGenerator =>
      .yield () fun _ =>
        Body.within .runtimeError
          (fun _ memObjGenerator =>
            match keys[layer]?, memoryObjs[layer]? with
            | some keysLayer, some memoryObjsLayer =>
                .emit (.batchedPut keysLayer memoryObjsLayer)
                  (putLayers keys memoryObjs layers memObjGenerator)
            | _, _ => .raise .indexError)
          (memObjGenerator ())

/-- The state of the engine and of its GPU buffers when the store starts. -/
structure StoreMoment where
  healthy : Bool
  frozen : Bool
  buffersAllocated : Bool

/-- `store_layer` from its `if keys` on. -/
def storeAllocated (connector : LayerwiseConnector) (numLayers : Nat) (buffersAllocated : Bool)
    (allocated : List (AllocatedChunk Key Obj)) : Body Unit Unit (LayerEvent Key Obj) PyError :=
  if allocated.isEmpty then Body.yieldTimes () (.yield () fun _ => .stop) numLayers
  else
    let keys := layerMajor numLayers (allocated.map AllocatedChunk.keysMultiLayer)
    let memoryObjs := layerMajor numLayers (allocated.map AllocatedChunk.memoryObjsMultiLayer)
    Body.within .runtimeError
      (fun _ memObjGenerator =>
        putLayers keys memoryObjs (List.range numLayers) memObjGenerator)
      (connector.batchedFromGpu
        ⟨numLayers, allocated.length, buffersAllocated, fun _ => true⟩ memoryObjs ())

/-- `LMCacheEngine.store_layer`. -/
def storeLayer (moment : StoreMoment) (connector : LayerwiseConnector) (numLayers : Nat)
    (chunks : List (StoreChunk numLayers Location Key Obj)) :
    Paused Unit Unit (LayerEvent Key Obj) PyError := fun _ =>
  if !moment.healthy then .stop
  else if moment.frozen then Body.yieldTimes () .stop numLayers
  else
    match allocateChunks chunks with
    | .error failure => .raise failure
    | .ok allocated => storeAllocated connector numLayers moment.buffersAllocated allocated

/-- The calls of `batched_put` in a list of events. -/
def putCalls (events : List (LayerEvent Key Obj)) : List (List Key × List Obj) :=
  events.filterMap fun
    | .batchedPut keys objs => some (keys, objs)
    | _ => none

/-- The chunks a store allocates memory for: those not stored, up to the first
without memory. -/
def toStore {numLayers : Nat} (chunks : List (StoreChunk numLayers Location Key Obj)) :
    List (AllocatedChunk Key Obj) :=
  ((chunks.filter fun chunk => chunk.stored.isNone).takeWhile fun chunk =>
    chunk.allocated.isSome).filterMap fun chunk => chunk.allocated.map fun objs =>
      ⟨chunk.start, chunk.stop, chunk.keysMultiLayer, objs⟩

/-- **What the connector relies on.** One resumption for every layer and one
more leave the generator suspended, and every layer of the allocated chunks is
handed to the storage exactly once, with its keys. -/
structure StoreResumable {numLayers : Nat} (chunks : List (StoreChunk numLayers Location Key Obj))
    (run : Run Unit (LayerEvent Key Obj) PyError) : Prop where
  suspended : run.ended = .suspended
  handedOver : toStore chunks ≠ [] → putCalls run.events =
    (List.range numLayers).map fun layer =>
      ((toStore chunks).filterMap fun chunk => chunk.keysMultiLayer[layer]?,
        (toStore chunks).filterMap fun chunk => chunk.memoryObjsMultiLayer[layer]?)

/-! ### The allocation loop -/

theorem LayerChunk.exists_firstKey {numLayers : Nat} (layered : 0 < numLayers)
    (chunk : LayerChunk numLayers Key) : ∃ key, chunk.keysMultiLayer[0]? = some key :=
  ⟨_, List.getElem?_eq_getElem (by rw [chunk.length_keys]; exact layered)⟩

theorem allocateChunks_noLayers (chunk : StoreChunk 0 Location Key Obj)
    (more : List (StoreChunk 0 Location Key Obj)) :
    allocateChunks (chunk :: more) = .error .indexError := by
  have empty : chunk.keysMultiLayer = [] := List.length_eq_zero_iff.mp chunk.length_keys
  rw [allocateChunks, empty]
  rfl

theorem allocateChunks_eq {numLayers : Nat} (layered : 0 < numLayers)
    (chunks : List (StoreChunk numLayers Location Key Obj)) :
    allocateChunks chunks = .ok (toStore chunks) := by
  induction chunks with
  | nil => rfl
  | cons chunk more ih =>
      obtain ⟨key, first⟩ := chunk.toLayerChunk.exists_firstKey layered
      rw [allocateChunks, first]
      cases stored : chunk.stored with
      | some location => simpa [toStore, stored] using ih
      | none =>
          cases allocated : chunk.allocated with
          | none => simp [toStore, stored, allocated]
          | some objs =>
              rw [ih]
              simp [toStore, stored, allocated, bind, Except.bind, pure, Except.pure]

/-! ### The layer loop -/

theorem getElem?_layerMajor {α : Type} {numLayers layer : Nat} (inside : layer < numLayers)
    (rows : List (List α)) :
    (layerMajor numLayers rows)[layer]? = some (rows.filterMap fun row => row[layer]?) := by
  rw [layerMajor, List.getElem?_map, List.getElem?_range inside]
  rfl

@[simp] theorem putCalls_fromGpu (layer : Nat) (objs : List Obj)
    (events : List (LayerEvent Key Obj)) :
    putCalls (.fromGpu layer objs :: events) = putCalls events := rfl

@[simp] theorem putCalls_batchedPut (keys : List Key) (objs : List Obj)
    (events : List (LayerEvent Key Obj)) :
    putCalls (.batchedPut keys objs :: events) = (keys, objs) :: putCalls events := rfl

/-- While the connector still has the layers to offload, each resumption hands
over one layer, and the one after the last layer finds the final yield. -/
theorem run_putLayers (keys : List (List Key)) (memoryObjs : List (List Obj))
    (copied : List Obj → List Obj) {keysOf : Nat → List Key} {objsOf : Nat → List Obj}
    (layers : List Nat) (memObjGenerator : FromGpu Key Obj)
    (keyed : ∀ layer ∈ layers, keys[layer]? = some (keysOf layer))
    (stocked : ∀ layer ∈ layers, memoryObjs[layer]? = some (objsOf layer))
    (ready : ∀ layer rest, layers = layer :: rest →
      memObjGenerator () = offloadLayers copied memoryObjs rest) :
    ((putLayers keys memoryObjs layers memObjGenerator).run
        (List.replicate layers.length ())).ended = .suspended ∧
      putCalls ((putLayers keys memoryObjs layers memObjGenerator).run
        (List.replicate layers.length ())).events =
          layers.map fun layer => (keysOf layer, objsOf layer) := by
  induction layers generalizing memObjGenerator with
  | nil => exact ⟨rfl, rfl⟩
  | cons layer rest ih =>
      have keysHere := keyed layer List.mem_cons_self
      have objsHere := stocked layer List.mem_cons_self
      have keyedRest : ∀ layer ∈ rest, keys[layer]? = some (keysOf layer) :=
        fun layer member => keyed layer (List.mem_cons_of_mem _ member)
      have stockedRest : ∀ layer ∈ rest, memoryObjs[layer]? = some (objsOf layer) :=
        fun layer member => stocked layer (List.mem_cons_of_mem _ member)
      rw [putLayers, List.length_cons, List.replicate_succ, Body.run_yield_cons,
        ready layer rest rfl]
      cases rest with
      | nil =>
          -- the connector has no layer left and yields its last time
          obtain ⟨ended, calls⟩ := ih (fun _ => .stop) keyedRest stockedRest (by simp)
          simp only [offloadLayers, Body.within_yield, keysHere, objsHere, Body.run_emit]
          exact ⟨ended, by rw [putCalls_batchedPut, calls]; rfl⟩
      | cons next later =>
          obtain ⟨ended, calls⟩ := ih (fun _ => offloadLayers copied memoryObjs later) keyedRest
            stockedRest (by rintro _ _ ⟨⟩; rfl)
          simp only [offloadLayers, stocked next (by simp), Body.within_emit, Body.within_yield,
            keysHere, objsHere, Body.run_emit]
          exact ⟨ended, by rw [putCalls_fromGpu, putCalls_batchedPut, calls]; rfl⟩

/-! ### The whole generator -/

section Whole

variable {numLayers : Nat} (moment : StoreMoment) (connector : LayerwiseConnector)
  (chunks : List (StoreChunk numLayers Location Key Obj))

/-- The run of a store that `save_kv_layer` and `wait_for_save` make. -/
def storeRun : Run Unit (LayerEvent Key Obj) PyError :=
  driveTimes (storeLayer moment connector numLayers chunks) () (numLayers + 1)

theorem storeRun_eq : storeRun moment connector chunks =
    (storeLayer moment connector numLayers chunks ()).run (List.replicate numLayers ()) := rfl

/-- An unhealthy engine returns at the first resumption. -/
theorem storeRun_unhealthy (unhealthy : moment.healthy = false) :
    (storeRun moment connector chunks).ended = .stopIteration := by
  simp [storeRun_eq, storeLayer, unhealthy]

/-- A frozen engine yields once for every layer, and returns when it is resumed
once more. -/
theorem storeRun_frozen (healthy : moment.healthy = true) (frozen : moment.frozen = true) :
    (storeRun moment connector chunks).ended = .stopIteration := by
  have looped := Body.run_yieldTimes
    (.stop : Body Unit Unit (LayerEvent Key Obj) PyError) [] () numLayers
    (List.replicate numLayers ()) List.length_replicate
  rw [List.append_nil] at looped
  rw [storeRun_eq, storeLayer]
  simp only [healthy, frozen, Bool.not_true, Bool.false_eq_true, ↓reduceIte, looped]
  rfl

/-- Past the checks the run is that of the branch for what was allocated. -/
theorem storeRun_collected (healthy : moment.healthy = true) (thawed : moment.frozen = false)
    {allocated : List (AllocatedChunk Key Obj)}
    (collected : allocateChunks chunks = .ok allocated) :
    storeRun moment connector chunks =
      (storeAllocated connector numLayers moment.buffersAllocated allocated).run
        (List.replicate numLayers ()) := by
  simp [storeRun_eq, storeLayer, healthy, thawed, collected]

theorem storeRun_noLayers (chunk : StoreChunk 0 Location Key Obj)
    (more : List (StoreChunk 0 Location Key Obj)) (healthy : moment.healthy = true)
    (thawed : moment.frozen = false) :
    (storeRun moment connector (chunk :: more)).ended = .raised .indexError := by
  simp [storeRun_eq, storeLayer, healthy, thawed, allocateChunks_noLayers]

end Whole

section Allocated

variable (connector : LayerwiseConnector) (numLayers : Nat) (buffersAllocated : Bool)

/-- With nothing to store, the generator only yields. -/
theorem run_storeAllocated_nil :
    ((storeAllocated connector numLayers buffersAllocated
      ([] : List (AllocatedChunk Key Obj))).run (List.replicate numLayers ())).ended =
        .suspended := by
  have looped := Body.run_yieldTimes
    (.yield () fun _ => .stop : Body Unit Unit (LayerEvent Key Obj) PyError) [] () numLayers
    (List.replicate numLayers ()) List.length_replicate
  rw [List.append_nil] at looped
  rw [storeAllocated, List.isEmpty_nil, if_pos rfl, looped]
  rfl

variable {allocated : List (AllocatedChunk Key Obj)} (stores : allocated ≠ [])

include stores

theorem run_storeAllocated_unready (needs : connector.needsBuffer = true) :
    ((storeAllocated connector numLayers false allocated).run
      (List.replicate numLayers ())).ended = .raised .assertionError := by
  rw [storeAllocated, if_neg (by simpa using stores)]
  simp [LayerwiseConnector.batchedFromGpu_eq, layerwiseFromGpu, needs]

/-- With chunks to store and its buffer at hand, the generator hands over one
layer at each resumption after the first. -/
theorem run_storeAllocated (layered : 0 < numLayers)
    (ready : connector.needsBuffer = true → buffersAllocated = true) :
    ((storeAllocated connector numLayers buffersAllocated allocated).run
        (List.replicate numLayers ())).ended = .suspended ∧
      putCalls ((storeAllocated connector numLayers buffersAllocated allocated).run
        (List.replicate numLayers ())).events =
          (List.range numLayers).map fun layer =>
            (allocated.filterMap fun chunk => chunk.keysMultiLayer[layer]?,
              allocated.filterMap fun chunk => chunk.memoryObjsMultiLayer[layer]?) := by
  obtain ⟨rest, ranged⟩ : ∃ rest, List.range numLayers = 0 :: rest := by
    obtain ⟨later, rfl⟩ : ∃ later, numLayers = later + 1 := ⟨numLayers - 1, by omega⟩
    exact ⟨_, List.range_succ_eq_map⟩
  have inside (layer : Nat) (member : layer ∈ List.range numLayers) : layer < numLayers :=
    List.mem_range.mp member
  have started := getElem?_layerMajor layered
    (allocated.map AllocatedChunk.memoryObjsMultiLayer)
  obtain ⟨ended, calls⟩ := run_putLayers
    (layerMajor numLayers (allocated.map AllocatedChunk.keysMultiLayer))
    (layerMajor numLayers (allocated.map AllocatedChunk.memoryObjsMultiLayer))
    (connector.filled ⟨numLayers, allocated.length, buffersAllocated, fun _ => true⟩)
    (List.range numLayers) (fun _ => offloadLayers _ _ rest)
    (fun layer member => getElem?_layerMajor (inside layer member) _)
    (fun layer member => getElem?_layerMajor (inside layer member) _)
    (by
      intro layer later split
      rw [ranged] at split
      cases split
      rfl)
  have buffered : (connector.needsBuffer && !buffersAllocated) = false := by
    cases needs : connector.needsBuffer with
    | false => rfl
    | true => rw [ready needs]; rfl
  rw [List.length_range] at ended calls
  rw [storeAllocated, if_neg (by simpa using stores)]
  simp only [LayerwiseConnector.batchedFromGpu_eq, layerwiseFromGpu, buffered,
    Bool.false_eq_true, ↓reduceIte]
  -- the first `next` of the connector offloads layer 0
  rw [show @offloadLayers Key Obj _ _ (List.range numLayers) = _ from by
    rw [ranged, offloadLayers, started]]
  rw [Body.within_emit, Body.within_yield, Body.run_emit, putCalls_fromGpu]
  refine ⟨ended, calls.trans ?_⟩
  refine List.map_congr_left fun layer _ => ?_
  simp only [List.filterMap_map]
  rfl

end Allocated

/-- A store past the checks, of a model with a layer, goes on with the chunks it
has allocated. -/
theorem storeRun_layered {numLayers : Nat} (layered : 0 < numLayers) (moment : StoreMoment)
    (connector : LayerwiseConnector) (chunks : List (StoreChunk numLayers Location Key Obj))
    (healthy : moment.healthy = true) (thawed : moment.frozen = false) :
    storeRun moment connector chunks =
      (storeAllocated connector numLayers moment.buffersAllocated (toStore chunks)).run
        (List.replicate numLayers ()) :=
  storeRun_collected moment connector chunks healthy thawed (allocateChunks_eq layered chunks)

/-- One chunk for a model of two layers. -/
def twoLayerChunk : StoreChunk 2 Unit Nat Nat where
  start := 0
  stop := 4
  keysMultiLayer := [0, 1]
  length_keys := rfl
  stored := none
  allocated := some [10, 11]
  length_allocated := by simp

end LMCacheHcu.Layerwise
