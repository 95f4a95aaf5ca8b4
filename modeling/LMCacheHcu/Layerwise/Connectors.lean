import LMCacheHcu.Foundation.Generator

/-! # The layerwise GPU connectors

A layerwise connector copies one layer of the KV cache at a time, as a generator
that its caller resumes between layers. `batched_from_gpu` is resumed without a
value; `batched_to_gpu` is sent the memory objects of the next layer.
-/

namespace LMCacheHcu.Layerwise

open Generator

/-- The Python exceptions of the layerwise paths. -/
inductive PyError
  | assertionError
  | indexError
  | runtimeError
  | typeError
  | unboundLocalError
  | taskFailed
deriving DecidableEq, Repr

/-- What the layerwise paths do between two resumptions. -/
inductive LayerEvent (Key Obj : Type)
  | fromGpu (layer : Nat) (objs : List Obj)
  | toBuffer (layer : Nat) (objs : List Obj)
  | toPaged (layer : Nat) (objs : List Obj)
  | bufferToPaged (layer : Nat)
  | batchedGet (keys : List Key)
  | batchedPut (keys : List Key) (objs : List Obj)
  | refCountDown (obj : Obj)
deriving DecidableEq, Repr

variable {Key Obj : Type}

/-- `batched_from_gpu` between two resumptions. -/
abbrev FromGpu (Key Obj : Type) := Paused Unit Unit (LayerEvent Key Obj) PyError

/-- `batched_to_gpu` between two resumptions; `next` sends it nothing. -/
abbrev ToGpu (Key Obj : Type) := Paused (Option (List Obj)) Unit (LayerEvent Key Obj) PyError

/-- One use of a connector: the model's layers, the number of chunks, whether
its GPU buffers could be allocated and which objects have the format it expects. -/
structure ConnectorUse (Obj : Type) where
  numLayers : Nat
  numChunks : Nat
  buffersAllocated : Bool
  expectedFormat : Obj → Bool

/-! ### From the GPU -/

/-- The layer loop of `batched_from_gpu`. -/
def offloadLayers (copied : List Obj → List Obj) (memoryObjs : List (List Obj)) :
    List Nat → Body Unit Unit (LayerEvent Key Obj) PyError
  | [] => .yield () fun _ => .stop
  | layer :: layers =>
      match memoryObjs[layer]? with
      | none => .raise .indexError
      | some memoryObjsLayer =>
          .emit (.fromGpu layer (copied memoryObjsLayer))
            (.yield () fun _ => offloadLayers copied memoryObjs layers)

/-- The `batched_from_gpu` that the layerwise connectors share. -/
def layerwiseFromGpu (needsBuffer : Bool) (copied : List Obj → List Obj)
    (use : ConnectorUse Obj) (memoryObjs : List (List Obj)) : FromGpu Key Obj := fun _ =>
  if needsBuffer && !use.buffersAllocated then .raise .assertionError
  else offloadLayers copied memoryObjs (List.range use.numLayers)

namespace VLLMBufferLayerwiseGPUConnector

/-- The copy loop also zips the old positions, which are only collected with
`cache_positions`. -/
def batchedFromGpu (cachePositions : Bool) (use : ConnectorUse Obj)
    (memoryObjs : List (List Obj)) : FromGpu Key Obj :=
  layerwiseFromGpu true (fun objs => if cachePositions then objs.take use.numChunks else [])
    use memoryObjs

/-- The loop over `range(num_layers + 2)`: layer `i` is received while layer
`i - 2` moves on from the buffer. -/
def loadLayers (use : ConnectorUse Obj) :
    List Nat → Body (Option (List Obj)) Unit (LayerEvent Key Obj) PyError
  | [] => .yield () fun _ => .stop
  | layer :: layers =>
      .emitAll (if 1 < layer then [.bufferToPaged (layer - 2)] else [])
        (if layer < use.numLayers then
          .yield () fun
            | none => .raise .typeError
            | some memoryObjsLayer =>
                if (memoryObjsLayer.take use.numChunks).all use.expectedFormat then
                  .emit (.toBuffer layer (memoryObjsLayer.take use.numChunks))
                    (loadLayers use layers)
                else .raise .assertionError
        else if layer = use.numLayers then .yield () fun _ => loadLayers use layers
        else loadLayers use layers)

def batchedToGpu (use : ConnectorUse Obj) : ToGpu Key Obj := fun _ =>
  if !use.buffersAllocated then .raise .assertionError
  else loadLayers use (List.range (use.numLayers + 2))

end VLLMBufferLayerwiseGPUConnector

/-! ### To the paged cache -/

/-- The layer loop of a connector that writes each received layer straight to
the paged cache, then the rest of its body. -/
def loadPaged (use : ConnectorUse Obj)
    (afterLayers : Body (Option (List Obj)) Unit (LayerEvent Key Obj) PyError) :
    List Nat → Body (Option (List Obj)) Unit (LayerEvent Key Obj) PyError
  | [] => afterLayers
  | layer :: layers =>
      .yield () fun
        | none => .raise .typeError
        | some memoryObjsLayer =>
            if (memoryObjsLayer.take use.numChunks).all use.expectedFormat then
              .emit (.toPaged layer (memoryObjsLayer.take use.numChunks))
                (loadPaged use afterLayers layers)
            else .raise .assertionError

namespace VLLMPagedMemLayerwiseGPUConnector

def batchedFromGpu (useGpu : Bool) (use : ConnectorUse Obj) (memoryObjs : List (List Obj)) :
    FromGpu Key Obj :=
  layerwiseFromGpu useGpu (fun objs => objs.take use.numChunks) use memoryObjs

/-- After the layers, one yield before the synchronisation and one after it. -/
def batchedToGpu (useGpu : Bool) (use : ConnectorUse Obj) : ToGpu Key Obj := fun _ =>
  if useGpu && !use.buffersAllocated then .raise .assertionError
  else loadPaged use (.yield () fun _ => .yield () fun _ => .stop) (List.range use.numLayers)

end VLLMPagedMemLayerwiseGPUConnector

namespace SGLangLayerwiseGPUConnector

def batchedFromGpu (useGpu : Bool) (use : ConnectorUse Obj) (memoryObjs : List (List Obj)) :
    FromGpu Key Obj :=
  layerwiseFromGpu useGpu (fun objs => objs.take use.numChunks) use memoryObjs

/-- After the layers there is a single yield; the log line before it reads the
loop variable, which a model without layers never binds. -/
def batchedToGpu (useGpu : Bool) (use : ConnectorUse Obj) : ToGpu Key Obj := fun _ =>
  if useGpu && !use.buffersAllocated then .raise .assertionError
  else if use.numLayers = 0 then .raise .unboundLocalError
  else loadPaged use (.yield () fun _ => .stop) (List.range use.numLayers)

end SGLangLayerwiseGPUConnector

/-- The connectors that `assert_layerwise_gpu_connector` admits, with the
settings their generators read. -/
inductive LayerwiseConnector
  | vllmBuffer (cachePositions : Bool)
  | vllmPagedMem (useGpu : Bool)
  | sglang (useGpu : Bool)
deriving DecidableEq, Repr

namespace LayerwiseConnector

def batchedFromGpu : LayerwiseConnector → ConnectorUse Obj → List (List Obj) → FromGpu Key Obj
  | vllmBuffer cachePositions =>
      VLLMBufferLayerwiseGPUConnector.batchedFromGpu cachePositions
  | vllmPagedMem useGpu => VLLMPagedMemLayerwiseGPUConnector.batchedFromGpu useGpu
  | sglang useGpu => SGLangLayerwiseGPUConnector.batchedFromGpu useGpu

def batchedToGpu : LayerwiseConnector → ConnectorUse Obj → ToGpu Key Obj
  | vllmBuffer _ => VLLMBufferLayerwiseGPUConnector.batchedToGpu
  | vllmPagedMem useGpu => VLLMPagedMemLayerwiseGPUConnector.batchedToGpu useGpu
  | sglang useGpu => SGLangLayerwiseGPUConnector.batchedToGpu useGpu

/-- Whether the connector's generators copy through a GPU buffer. -/
def needsBuffer : LayerwiseConnector → Bool
  | vllmBuffer _ => true
  | vllmPagedMem useGpu => useGpu
  | sglang useGpu => useGpu

/-- The buffers the connector needs are there. -/
def Ready (connector : LayerwiseConnector) (use : ConnectorUse Obj) : Prop :=
  connector.needsBuffer = true → use.buffersAllocated = true

/-- The objects of a layer that `batched_from_gpu` fills. -/
def filled (use : ConnectorUse Obj) : LayerwiseConnector → List Obj → List Obj
  | vllmBuffer cachePositions => fun objs =>
      if cachePositions then objs.take use.numChunks else []
  | vllmPagedMem _ => fun objs => objs.take use.numChunks
  | sglang _ => fun objs => objs.take use.numChunks

theorem batchedFromGpu_eq (connector : LayerwiseConnector) (use : ConnectorUse Obj)
    (memoryObjs : List (List Obj)) :
    (connector.batchedFromGpu use memoryObjs : FromGpu Key Obj) =
      layerwiseFromGpu connector.needsBuffer (connector.filled use) use memoryObjs := by
  cases connector <;> rfl

end LayerwiseConnector

end LMCacheHcu.Layerwise
