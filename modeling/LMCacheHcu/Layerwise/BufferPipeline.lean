import LMCacheHcu.Foundation.Generator
import LMCacheHcu.Foundation.OrderedDict
import LMCacheHcu.Foundation.SlotRows
import LMCacheHcu.Foundation.Streams

/-! # The pipeline of the buffering layerwise connector

`VLLMBufferLayerwiseGPUConnector` moves one layer at a time between chunk objects
and the paged cache, through GPU buffers of the shape [2, num_tokens, hidden_dim].
A load has three stages for each layer (into a buffer, position recovery, to the
paged cache) and uses two buffers in turn; copies into a buffer go to a stream of
their own. Tensors are modelled by their rows.
-/

namespace LMCacheHcu.Layerwise

open Generator Streams SlotRows

/-- The Python exceptions of the pipeline. -/
inductive PipelineError
  | assertionError
  | indexError
  | keyError
  | runtimeError
  | typeError
  | valueError
deriving DecidableEq, Repr

variable {Row : Type}

/-- A layer of a chunk: `metadata.fmt` is `KV_2TD` or not, the rows of its tensor,
and `metadata.cached_positions`. -/
structure ChunkObj (Row : Type) where
  isKv2td : Bool
  keys : List Row
  values : List Row
  cachedPositions : Option (List ℤ)
deriving DecidableEq, Repr

/-! ### Python slices -/

/-- A slice index, from the end when it is negative, and never out of range. -/
def clampIndex (length : ℕ) (index : ℤ) : ℕ :=
  if index < 0 then (length + index).toNat else min index.toNat length

def pySlice {α : Type} (xs : List α) (start stop : ℤ) : List α :=
  let first := clampIndex xs.length start
  (xs.drop first).take (clampIndex xs.length stop - first)

/-- The rows that a copy into `size` rows writes: a single row is broadcast, any
other number of rows must be the same. -/
def broadcastTo {α : Type} (size : ℕ) (rows : List α) : Option (List α) :=
  if rows.length = size then some rows
  else match rows with
    | [row] => some (List.replicate size row)
    | _ => none

/-! ### The device -/

inductive GpuStream
  | current
  | load
  | store
deriving DecidableEq, Repr

/-- The two buffers, the recovered positions, and each layer of the paged cache by
half (`false` for the keys) and slot. -/
structure Device (Row : Type) where
  keys : Bool → ℕ → Row
  values : Bool → ℕ → Row
  oldPositions : ℕ → ℤ
  paged : ℕ → Bool → ℕ → Row

inductive DeviceOp (Row : Type)
  | zeroPositions
  | setPositions (first : ℕ) (positions : List ℤ)
  | copyKeys (buffer : Bool) (first : ℕ) (rows : List Row)
  | copyValues (buffer : Bool) (first : ℕ) (rows : List Row)
  | rotateKeys (buffer : Bool) (firstPosition : ℤ)
  | zeroRows (buffer : Bool) (gaps : List ℕ)
  | transfer (buffer : Bool) (layer : ℕ) (slots : List ℤ)
deriving DecidableEq, Repr

/-- What the device operations need: `fused_rotary_emb` for a row, from its old
position to its new one, and the row of zeros. -/
structure RowOps (Row : Type) where
  rotary : ℤ → ℤ → Row → Row
  zero : Row

variable (ops : RowOps Row)

def Device.apply (device : Device Row) : DeviceOp Row → Device Row
  | .zeroPositions => { device with oldPositions := fun _ => 0 }
  | .setPositions first positions =>
      { device with oldPositions := overlay first positions device.oldPositions }
  | .copyKeys buffer first rows =>
      { device with
        keys := Function.update device.keys buffer (overlay first rows (device.keys buffer)) }
  | .copyValues buffer first rows =>
      { device with
        values := Function.update device.values buffer
          (overlay first rows (device.values buffer)) }
  | .rotateKeys buffer firstPosition =>
      { device with
        keys := Function.update device.keys buffer fun index =>
          ops.rotary (device.oldPositions index) (firstPosition + index)
            (device.keys buffer index) }
  | .zeroRows buffer gaps =>
      { device with
        keys := Function.update device.keys buffer fun index =>
          if index ∈ gaps then ops.zero else device.keys buffer index
        values := Function.update device.values buffer fun index =>
          if index ∈ gaps then ops.zero else device.values buffer index }
  -- `single_layer_kv_transfer` to the paged cache
  | .transfer buffer layer slots =>
      { device with
        paged := Function.update device.paged layer fun half =>
          scatter
            (slotted slots (if half then device.values buffer else device.keys buffer))
            (device.paged layer half) }

/-! ### Loading -/

/-- The arguments of `batched_to_gpu` with the settings that it reads. -/
structure LoadCall where
  numLayers : ℕ
  cachePositions : Bool
  buffersAllocated : Bool
  starts : List ℤ
  ends : List ℤ
  slotMapping : Option (List ℤ)
deriving DecidableEq, Repr

/-- What the generator computes before its loop. -/
structure LoadPlan where
  numLayers : ℕ
  cachePositions : Bool
  ranges : List (ℤ × ℤ)
  first : ℤ
  numAllTokens : ℕ
  slots : List ℤ
  gaps : List ℕ
deriving DecidableEq, Repr

/-- `gap_mask[start - first : end - first] = False` for every range. -/
def gapMask (numAllTokens : ℕ) (first : ℤ) (ranges : List (ℤ × ℤ)) : List Bool :=
  ranges.foldl (fun mask range =>
    let start := clampIndex numAllTokens (range.1 - first)
    let stop := clampIndex numAllTokens (range.2 - first)
    mask.mapIdx fun index gap => gap && !(start ≤ index && index < stop))
    (List.replicate numAllTokens true)

def LoadCall.plan (call : LoadCall) : Except PipelineError LoadPlan :=
  match call.slotMapping with
  | none => .error .valueError
  | some slotMapping =>
      match call.starts.head?, call.ends.getLast? with
      | some first, some last =>
          if last < first then .error .runtimeError
          else
            let numAllTokens := (last - first).toNat
            let ranges := call.starts.zip call.ends
            let mask := gapMask numAllTokens first ranges
            if call.buffersAllocated then
              .ok {
                numLayers := call.numLayers
                cachePositions := call.cachePositions
                ranges := ranges
                first := first
                numAllTokens := numAllTokens
                slots := pySlice slotMapping first last
                gaps := (List.range numAllTokens).filter fun index => mask.getD index false }
            else .error .assertionError
      | _, _ => .error .indexError

/-- The variables of the loop: which buffer is which, and `buffer_mapping`. -/
structure LoadLoop where
  computeBuffer : Bool
  loadBuffer : Bool
  bufferMapping : OrderedDict ℕ Bool

abbrev LoadIssue (Row : Type) := Issue GpuStream (DeviceOp Row)

/-- `load_gpu_buffer_obj.tensor[half][first:stop].copy_(rows)`. -/
def checkedCopy {α : Type} (first stop : ℕ) (rows : List α)
    (op : List α → DeviceOp Row) : Except PipelineError (DeviceOp Row) :=
  match broadcastTo (stop - first) rows with
  | none => .error .runtimeError
  | some rows => .ok (op rows)

/-- The copies of one chunk, up to the first that raises. -/
def receiveChunk (plan : LoadPlan) (buffer : Bool) (layer : ℕ) (range : ℤ × ℤ)
    (obj : ChunkObj Row) : List (DeviceOp Row) × Option PipelineError :=
  let first := clampIndex plan.numAllTokens (range.1 - plan.first)
  let stop := clampIndex plan.numAllTokens (range.2 - plan.first)
  if !obj.isKv2td then ([], some .assertionError)
  else match checkedCopy first stop obj.keys (.copyKeys buffer first) with
    | .error failure => ([], some failure)
    | .ok copyKeys =>
        match checkedCopy first stop obj.values (.copyValues buffer first) with
        | .error failure => ([copyKeys], some failure)
        | .ok copyValues =>
            if plan.cachePositions && layer = 0 then
              match obj.cachedPositions with
              | none => ([copyKeys, copyValues], some .typeError)
              | some positions =>
                  match checkedCopy first stop positions (.setPositions first) with
                  | .error failure => ([copyKeys, copyValues], some failure)
                  | .ok setPositions => ([copyKeys, copyValues, setPositions], none)
            else ([copyKeys, copyValues], none)

/-- The loop over the chunks of a layer, up to the first failure. -/
def receiveChunks (plan : LoadPlan) (buffer : Bool) (layer : ℕ) :
    List ((ℤ × ℤ) × ChunkObj Row) → List (DeviceOp Row) × Option PipelineError
  | [] => ([], none)
  | (range, obj) :: chunks =>
      match receiveChunk plan buffer layer range obj with
      | (copies, some failure) => (copies, some failure)
      | (copies, none) =>
          let later := receiveChunks plan buffer layer chunks
          (copies ++ later.1, later.2)

/-- `layer_id > 1`: the layer before the last one moves on to the paged cache. -/
def flushLayer (plan : LoadPlan) (layer : ℕ) (loop : LoadLoop) :
    Except PipelineError (List (LoadIssue Row) × LoadLoop) :=
  if 1 < layer then
    match loop.bufferMapping.find (layer - 2) with
    | none => .error .keyError
    | some buffer =>
        .ok (enqueueAll .current [.transfer buffer (layer - 2) plan.slots],
          { loop with bufferMapping := loop.bufferMapping.erase (layer - 2) })
  else .ok ([], loop)

/-- `0 < layer_id <= num_layers`: synchronise, swap the buffers, recover the
positions of the last layer and clear its gaps. -/
def recoverLayer (plan : LoadPlan) (layer : ℕ) (loop : LoadLoop) :
    List (LoadIssue Row) × LoadLoop :=
  if 0 < layer ∧ layer ≤ plan.numLayers then
    let buffer := loop.loadBuffer
    (.synchronize :: enqueueAll .current
        ((if plan.cachePositions then [.rotateKeys buffer plan.first] else []) ++
          if plan.gaps = [] then [] else [.zeroRows buffer plan.gaps]),
      { computeBuffer := buffer
        loadBuffer := loop.computeBuffer
        bufferMapping := loop.bufferMapping.insert (layer - 1) buffer })
  else ([], loop)

/-- The loop over `range(num_layers + 2)`, and what follows it. -/
def loadLoop (plan : LoadPlan) :
    List ℕ → LoadLoop → Body (Option (List (ChunkObj Row))) Unit (LoadIssue Row) PipelineError
  | [], loop =>
      if loop.bufferMapping.entries.isEmpty then .yield () fun _ => .stop
      else .raise .assertionError
  | layer :: layers, loop =>
      match flushLayer plan layer loop with
      | .error failure => .raise failure
      | .ok (flushed, loop) =>
          let (recovered, loop) := recoverLayer plan layer loop
          .emitAll (flushed ++ recovered)
            (if layer < plan.numLayers then
              .yield () fun
                | none => .raise .typeError
                | some objs =>
                    let (copies, failure) :=
                      receiveChunks plan loop.loadBuffer layer (plan.ranges.zip objs)
                    .emitAll (enqueueAll .load copies)
                      (match failure with
                        | some failure => .raise failure
                        | none => loadLoop plan layers loop)
            else if layer = plan.numLayers then .yield () fun _ => loadLoop plan layers loop
            else loadLoop plan layers loop)

/-- `batched_to_gpu`. The entries that `buffer_mapping` has at the start are those
that an abandoned run has left. -/
def bufferedToGpu (call : LoadCall) (bufferMapping : OrderedDict ℕ Bool) :
    Paused (Option (List (ChunkObj Row))) Unit (LoadIssue Row) PipelineError := fun _ =>
  match call.plan with
  | .error failure => .raise failure
  | .ok plan =>
      .emitAll (if plan.cachePositions then enqueueAll .current [.zeroPositions] else [])
        (loadLoop plan (List.range (plan.numLayers + 2)) ⟨false, true, bufferMapping⟩)

end LMCacheHcu.Layerwise
