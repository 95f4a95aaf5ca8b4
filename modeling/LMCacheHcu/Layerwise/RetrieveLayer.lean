import LMCacheHcu.Layerwise.StoreLayer
import LMCacheHcu.Foundation.RangeMask

/-! # Retrieving layer by layer

`LMCacheEngine.retrieve_layer` fetches one layer at each resumption and hands
the layer before to the connector's generator. `start_load_kv` resumes it twice
and `wait_for_layer_load` once for every layer.
-/

namespace LMCacheHcu.Layerwise

open Generator

variable {Location Key Obj : Type}

/-- A chunk of a retrieve and where its first layer is found. -/
structure RetrieveChunk (numLayers : Nat) (Location Key : Type)
    extends LayerChunk numLayers Key where
  currentLocation : Option Location

/-- What `retrieve_layer` yields: nothing, the number of retrieved tokens, or
the mask of retrieved tokens. -/
inductive LayerOut
  | nothing
  | tokens (count : Nat)
  | retMask (mask : List Bool)
deriving DecidableEq, Repr

/-- The engine, its storage and its GPU buffers while a retrieve runs. -/
structure RetrieveMoment (Obj : Type) where
  healthy : Bool
  buffersAllocated : Bool
  expectedFormat : Obj → Bool
  -- what the loading task of each layer ends with
  result : Nat → Except PyError (List Obj)

section Lookup

variable [DecidableEq Location] {numLayers : Nat}

/-- The lookup loop: it ends at the first chunk that is not stored, and fails at
a chunk stored elsewhere than the first one. -/
def findChunks : Option Location → List (RetrieveChunk numLayers Location Key) →
    Except PyError (List (RetrieveChunk numLayers Location Key))
  | _, [] => .ok []
  | location, chunk :: more =>
      match chunk.keysMultiLayer[0]? with
      | none => .error .indexError
      | some _ =>
          match chunk.currentLocation with
          | none => .ok []
          | some currentLocation =>
              match location with
              | none => do
                  let later ← findChunks (some currentLocation) more
                  return chunk :: later
              | some location =>
                  if location = currentLocation then do
                    let later ← findChunks (some location) more
                    return chunk :: later
                  else .error .assertionError

end Lookup

/-- `ret_mask` after the lookup loop. -/
def foundMask {numLayers : Nat} (numTokens : Nat)
    (found : List (RetrieveChunk numLayers Location Key)) : List Bool :=
  found.foldl (fun mask chunk => RangeMask.fillRange mask chunk.start chunk.stop true)
    (List.replicate numTokens false)

/-- A body of `retrieve_layer`. -/
abbrev RetrieveBody (Key Obj : Type) := Body Unit LayerOut (LayerEvent Key Obj) PyError

/-- The end of the generator: the connector is resumed to finish the last layer
before the mask is yielded. -/
def finishLayers (retMask : List Bool) (memObjConsumer : ToGpu Key Obj) : RetrieveBody Key Obj :=
  .yield .nothing fun _ =>
    Body.within .runtimeError
      (fun _ _ => .yield (.retMask retMask) fun _ => .stop)
      (memObjConsumer none)

/-- The layer loop: a layer's task is started before its yield and its result is
sent to the connector after it. `toCountDown` collects the objects to release. -/
def fetchLayers (result : Nat → Except PyError (List Obj)) (retMask : List Bool)
    (keysLayerMajor : List (List Key)) :
    List Nat → List Obj → ToGpu Key Obj → RetrieveBody Key Obj
  | [], toCountDown, memObjConsumer =>
      Body.emitAll (toCountDown.map .refCountDown) (finishLayers retMask memObjConsumer)
  | layer :: layers, toCountDown, memObjConsumer =>
      match keysLayerMajor[layer]? with
      | none => .raise .runtimeError
      | some keysLayer =>
          .emit (.batchedGet keysLayer)
            (.yield (if layer = 0 then .tokens (retMask.count true) else .nothing) fun _ =>
              match result layer with
              | .error failure => .raise failure
              | .ok memObjsLayer =>
                  Body.within .runtimeError
                    (fun _ memObjConsumer =>
                      fetchLayers result retMask keysLayerMajor layers
                        (toCountDown ++ memObjsLayer) memObjConsumer)
                    (memObjConsumer (some memObjsLayer)))

/-- `retrieve_layer` from its `if keys` on. Without a chunk the generator still
yields for every layer, and then reads a variable that only the other branch
binds. -/
def retrieveFound {numLayers : Nat} (moment : RetrieveMoment Obj)
    (connector : LayerwiseConnector) (retMask : List Bool)
    (found : List (RetrieveChunk numLayers Location Key)) : RetrieveBody Key Obj :=
  if found.isEmpty then
    Body.yieldTimes .nothing (.yield .nothing fun _ => .raise .unboundLocalError) numLayers
  else
    Body.within .runtimeError
      (fun _ memObjConsumer =>
        fetchLayers moment.result retMask
          (layerMajor numLayers (found.map fun chunk => chunk.keysMultiLayer))
          (List.range numLayers) [] memObjConsumer)
      (connector.batchedToGpu
        ⟨numLayers, found.length, moment.buffersAllocated, moment.expectedFormat⟩ none)

/-- `LMCacheEngine.retrieve_layer`. -/
def retrieveLayer [DecidableEq Location] {numLayers : Nat} (moment : RetrieveMoment Obj)
    (connector : LayerwiseConnector) (numTokens : Nat)
    (chunks : List (RetrieveChunk numLayers Location Key)) :
    Paused Unit LayerOut (LayerEvent Key Obj) PyError := fun _ =>
  if !moment.healthy then .yield (.retMask (List.replicate numTokens false)) fun _ => .stop
  else
    match findChunks none chunks with
    | .error failure => .raise failure
    | .ok found => retrieveFound moment connector (foundMask numTokens found) found

/-- The run of a retrieve that `start_load_kv` and `wait_for_layer_load` make. -/
def retrieveRun [DecidableEq Location] {numLayers : Nat} (moment : RetrieveMoment Obj)
    (connector : LayerwiseConnector) (numTokens : Nat)
    (chunks : List (RetrieveChunk numLayers Location Key)) :
    Run LayerOut (LayerEvent Key Obj) PyError :=
  driveTimes (retrieveLayer moment connector numTokens chunks) () (numLayers + 2)

end LMCacheHcu.Layerwise
