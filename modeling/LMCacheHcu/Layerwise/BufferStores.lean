import LMCacheHcu.Layerwise.BufferPipeline

/-! # What the buffering connector stores

`batched_from_gpu` gathers a layer of the paged cache into one temporary buffer and
copies the chunks from there to their memory objects, all on the store stream. It
notes the positions of the chunk's tokens, from which a later load moves the keys.
-/

namespace LMCacheHcu.Layerwise

open Generator Streams SlotRows

variable {Row : Type}

/-! ### The device -/

/-- The temporary buffer, and the memory objects by layer and chunk. -/
structure StoreDevice (Row : Type) where
  keys : ℕ → Row
  values : ℕ → Row
  objs : ℕ → ℕ → ChunkObj Row

/-- The operations of the store stream. A copy to an object names the row of the
buffer for each of its rows; the positions are noted by the host. -/
inductive StoreOp
  | gather (layer : ℕ) (slots : List ℤ)
  | copyKeys (layer chunkIndex : ℕ) (rows : List ℕ)
  | copyValues (layer chunkIndex : ℕ) (rows : List ℕ)
  | notePositions (layer chunkIndex : ℕ) (positions : List ℤ)
deriving DecidableEq, Repr

def StoreDevice.updateObj (device : StoreDevice Row) (layer chunkIndex : ℕ)
    (change : ChunkObj Row → ChunkObj Row) : StoreDevice Row :=
  { device with
    objs := Function.update device.objs layer
      (Function.update (device.objs layer) chunkIndex (change (device.objs layer chunkIndex))) }

@[simp] theorem StoreDevice.updateObj_self (device : StoreDevice Row) (layer chunkIndex : ℕ)
    (change : ChunkObj Row → ChunkObj Row) :
    (device.updateObj layer chunkIndex change).objs layer chunkIndex =
      change (device.objs layer chunkIndex) := by
  simp only [updateObj, Function.update_self]

theorem StoreDevice.updateObj_of_ne (device : StoreDevice Row) {layer chunkIndex other number : ℕ}
    (change : ChunkObj Row → ChunkObj Row) (different : other ≠ layer ∨ number ≠ chunkIndex) :
    (device.updateObj layer chunkIndex change).objs other number = device.objs other number := by
  unfold updateObj
  dsimp only
  by_cases same : other = layer
  · subst same
    rw [Function.update_self, Function.update_of_ne (different.resolve_left (· rfl))]
  · rw [Function.update_of_ne same]

variable (paged : ℕ → Bool → ℕ → Row)

def StoreDevice.apply (device : StoreDevice Row) : StoreOp → StoreDevice Row
  -- `single_layer_kv_transfer` from the paged cache
  | .gather layer slots =>
      { device with
        keys := gather slots (paged layer false) device.keys
        values := gather slots (paged layer true) device.values }
  | .copyKeys layer chunkIndex rows =>
      device.updateObj layer chunkIndex fun obj => { obj with keys := rows.map device.keys }
  | .copyValues layer chunkIndex rows =>
      device.updateObj layer chunkIndex fun obj => { obj with values := rows.map device.values }
  | .notePositions layer chunkIndex positions =>
      device.updateObj layer chunkIndex fun obj => { obj with cachedPositions := some positions }

/-! ### The generator -/

/-- The arguments of `batched_from_gpu` with the settings that it reads. -/
structure StoreCall where
  numLayers : ℕ
  cachePositions : Bool
  buffersAllocated : Bool
  starts : List ℤ
  ends : List ℤ
  slotMapping : Option (List ℤ)
deriving DecidableEq, Repr

structure StorePlan where
  numLayers : ℕ
  slots : List ℤ
  bufStartsEnds : List (ℤ × ℤ)
  oldPositions : List (List ℤ)
deriving DecidableEq, Repr

/-- `torch.arange(start, end)`. -/
def arange (start stop : ℤ) : Except PipelineError (List ℤ) :=
  if stop < start then .error .runtimeError
  else .ok ((List.range (stop - start).toNat).map fun offset : ℕ => start + offset)

/-- The places of the chunks in the buffer, one after the other. -/
def bufStartsEnds : ℤ → List (ℤ × ℤ) → List (ℤ × ℤ)
  | _, [] => []
  | bufStart, (start, stop) :: ranges =>
      let bufEnd := bufStart + stop - start
      (bufStart, bufEnd) :: bufStartsEnds bufEnd ranges

/-- Old positions are collected with `cache_positions` only. -/
def StoreCall.plan (call : StoreCall) : Except PipelineError StorePlan :=
  match call.slotMapping with
  | none => .error .valueError
  | some slotMapping => do
      let ranges := call.starts.zip call.ends
      let oldPositions ←
        if call.cachePositions then ranges.mapM fun range => arange range.1 range.2 else .ok []
      if ranges = [] then .error .runtimeError
      else if call.buffersAllocated then
        .ok {
          numLayers := call.numLayers
          slots := ranges.flatMap fun range => pySlice slotMapping range.1 range.2
          bufStartsEnds := bufStartsEnds 0 ranges
          oldPositions := oldPositions }
      else .error .assertionError

abbrev StoreIssue := Issue GpuStream StoreOp

/-- The copies of one chunk, up to the first that raises. -/
def sendChunk (numTokens layer chunkIndex : ℕ)
    (piece : (ℤ × ℤ) × ChunkObj Row × List ℤ) : List StoreOp × Option PipelineError :=
  let first := clampIndex numTokens piece.1.1
  let rows := List.range' first (clampIndex numTokens piece.1.2 - first)
  match broadcastTo piece.2.1.keys.length rows with
  | none => ([], some .runtimeError)
  | some keys =>
      match broadcastTo piece.2.1.values.length rows with
      | none => ([.copyKeys layer chunkIndex keys], some .runtimeError)
      | some values =>
          ([.copyKeys layer chunkIndex keys, .copyValues layer chunkIndex values,
            .notePositions layer chunkIndex piece.2.2], none)

/-- The loop over the chunks of a layer, up to the first failure. -/
def sendChunks (numTokens layer : ℕ) :
    ℕ → List ((ℤ × ℤ) × ChunkObj Row × List ℤ) → List StoreOp × Option PipelineError
  | _, [] => ([], none)
  | chunkIndex, piece :: pieces =>
      match sendChunk numTokens layer chunkIndex piece with
      | (copies, some failure) => (copies, some failure)
      | (copies, none) =>
          let later := sendChunks numTokens layer (chunkIndex + 1) pieces
          (copies ++ later.1, later.2)

/-- The loop over the layers, and the last yield. -/
def storeLoop (plan : StorePlan) (memoryObjs : List (List (ChunkObj Row))) :
    List ℕ → Body Unit Unit StoreIssue PipelineError
  | [] => .yield () fun _ => .stop
  | layer :: layers =>
      match memoryObjs[layer]? with
      | none => .raise .indexError
      | some memoryObjsLayer =>
          let (copies, failure) := sendChunks plan.slots.length layer 0
            (plan.bufStartsEnds.zip (memoryObjsLayer.zip plan.oldPositions))
          .emitAll (enqueueAll .store (.gather layer plan.slots :: copies))
            (match failure with
              | some failure => .raise failure
              | none => .yield () fun _ =>
                  .emit .synchronize (storeLoop plan memoryObjs layers))

/-- `batched_from_gpu`. -/
def bufferedFromGpu (call : StoreCall) (memoryObjs : List (List (ChunkObj Row))) :
    Paused Unit Unit StoreIssue PipelineError := fun _ =>
  match call.plan with
  | .error failure => .raise failure
  | .ok plan => storeLoop plan memoryObjs (List.range plan.numLayers)

end LMCacheHcu.Layerwise
