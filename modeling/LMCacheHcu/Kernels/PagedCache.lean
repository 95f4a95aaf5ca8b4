import LMCacheHcu.Storage.DirectIO

/-! # Paged caches of the serving engines

The layouts in which vLLM and SGLang keep their paged KV caches, how a connector
recognises a layout, and the tables of layer pointers that it hands to the
native kernels.
-/

namespace LMCacheHcu.Kernels

open RowMajor Storage

/-- `GPUKVFormat`. A dimension across a list stands before an `X`. -/
inductive GPUKVFormat
  /-- vLLM cross-layer mode -/
  | nbNlTwoBsNhHs
  /-- vLLM flash attention -/
  | nlXTwoNbBsNhHs
  /-- vLLM flash infer -/
  | nlXNbTwoBsNhHs
  /-- vLLM MLA -/
  | nlXNbBsHs
  /-- SGLang flash attention and flash infer -/
  | twoXNlXNbbsNhHs
  /-- SGLang MLA -/
  | nlXNbbsOneHs
deriving DecidableEq, Repr

def GPUKVFormat.name : GPUKVFormat → String
  | nbNlTwoBsNhHs => "GPUKVFormat.NB_NL_TWO_BS_NH_HS"
  | nlXTwoNbBsNhHs => "GPUKVFormat.NL_X_TWO_NB_BS_NH_HS"
  | nlXNbTwoBsNhHs => "GPUKVFormat.NL_X_NB_TWO_BS_NH_HS"
  | nlXNbBsHs => "GPUKVFormat.NL_X_NB_BS_HS"
  | twoXNlXNbbsNhHs => "GPUKVFormat.TWO_X_NL_X_NBBS_NH_HS"
  | nlXNbbsOneHs => "GPUKVFormat.NL_X_NBBS_ONE_HS"

/-- `is_mla`. -/
def isMla (format : GPUKVFormat) : Bool :=
  decide (format = .nlXNbBsHs) || decide (format = .nlXNbbsOneHs)

/-- The sizes that the formats are made of. -/
structure CacheDims where
  numLayers : ℕ
  numBlocks : ℕ
  blockSize : ℕ
  numHeads : ℕ
  headSize : ℕ
deriving DecidableEq, Repr

/-- `NBBS`. -/
def CacheDims.pageBufferSize (dims : CacheDims) : ℕ := dims.numBlocks * dims.blockSize

namespace GPUKVFormat

variable (format : GPUKVFormat) (dims : CacheDims)

/-- K and V, or the one vector of MLA. -/
def halves : ℕ := if isMla format then 1 else 2

/-- The dimensions of one token's row. -/
def rowShape : List ℕ :=
  match format with
  | nbNlTwoBsNhHs | nlXTwoNbBsNhHs | nlXNbTwoBsNhHs | twoXNlXNbbsNhHs =>
      [dims.numHeads, dims.headSize]
  | nlXNbBsHs => [dims.headSize]
  | nlXNbbsOneHs => [1, dims.headSize]

/-- The dimensions of a tensor before those of a row. -/
def pageShape : List ℕ :=
  match format with
  | nbNlTwoBsNhHs => [dims.numBlocks, dims.numLayers, 2, dims.blockSize]
  | nlXTwoNbBsNhHs => [2, dims.numBlocks, dims.blockSize]
  | nlXNbTwoBsNhHs => [dims.numBlocks, 2, dims.blockSize]
  | nlXNbBsHs => [dims.numBlocks, dims.blockSize]
  | twoXNlXNbbsNhHs | nlXNbbsOneHs => [dims.pageBufferSize]

/-- The shape of a tensor of the cache. -/
def tensorShape : List ℕ := format.pageShape dims ++ format.rowShape dims

/-- The elements of a row. -/
def rowElements : ℕ := (format.rowShape dims).prod

/-- Where the row of a slot is in the tensor that has it. -/
def pageIndex (layer kOrV slot : ℕ) : List ℕ :=
  match format with
  | nbNlTwoBsNhHs => [slot / dims.blockSize, layer, kOrV, slot % dims.blockSize]
  | nlXTwoNbBsNhHs => [kOrV, slot / dims.blockSize, slot % dims.blockSize]
  | nlXNbTwoBsNhHs => [slot / dims.blockSize, kOrV, slot % dims.blockSize]
  | nlXNbBsHs => [slot / dims.blockSize, slot % dims.blockSize]
  | twoXNlXNbbsNhHs | nlXNbbsOneHs => [slot]

end GPUKVFormat

/-- The serving engines' caches: one tensor, one tensor a layer, a pair of a key
and a value tensor for each layer, or a list of keys and a list of values. -/
inductive KVCaches
  | tensor (tensor : Tensor)
  | layers (tensors : List Tensor)
  | pairs (layers : List (Tensor × Tensor))
  | keysAndValues (keys values : List Tensor)
deriving DecidableEq

/-- The tensors of a cache, in the order of a flat pointer table. -/
def KVCaches.tensors : KVCaches → List Tensor
  | tensor whole => [whole]
  | layers each => each
  | pairs each => each.map Prod.fst ++ each.map Prod.snd
  | keysAndValues keys values => keys ++ values

/-- `EngineType`. -/
inductive EngineType
  | vllm
  | sglang
deriving DecidableEq, Repr

/-- The exceptions of the connectors' set-up. -/
inductive PointerError
  | valueError (message : String)
  | assertionError (message : String)
  | indexError
deriving DecidableEq, Repr

/-- The error text of an attribute that a format does not have. Only the first
of its three lines is in the constant. -/
def attributeNotExistError : PointerError :=
  .valueError "trying to access an attribute of the GPU KV Cache "

/-- `_list_depth_tensor_dim`, with the first tensor. -/
def listDepthTensorDim : KVCaches → Except PointerError (ℕ × Tensor)
  | .tensor tensor => .ok (0, tensor)
  | .layers [] | .pairs [] | .keysAndValues [] _ =>
      .error (.valueError "encountered an empty list")
  | .layers (first :: _) => .ok (1, first)
  | .pairs (_ :: _) => .error (.valueError "encountered a non-tensor inside")
  | .keysAndValues (first :: _) _ => .ok (2, first)

/-- `discover_gpu_kv_format`. -/
def discoverGpuKvFormat (kvCaches : KVCaches) (servingEngine : EngineType) :
    Except PointerError GPUKVFormat := do
  let (listDepth, first) ← listDepthTensorDim kvCaches
  let unsupported : PointerError := .valueError
    (s!"currently unsupported kv_caches format with list depth {listDepth} and tensor dimension " ++
      toString first.ndim)
  match servingEngine, listDepth with
  | .vllm, 0 =>
      if first.ndim ≠ 6 then
        throw (.valueError ("A bare vLLM KV-cache tensor must be a 6D cross-layer " ++
          "tensor [NB, NL, 2, BS, NH, HS], got shape " ++ tupleRepr first.intShape ++ "."))
      if first.dim 2 ≠ 2 then
        throw (.valueError ("Only the NHD cross-layer layout [NB, NL, 2, BS, NH, HS] is " ++
          "supported; got shape " ++ tupleRepr first.intShape ++ "."))
      return .nbNlTwoBsNhHs
  | .vllm, 1 =>
      if first.ndim = 5 then
        if first.dim 0 = 2 then return .nlXTwoNbBsNhHs
        else if first.dim 1 = 2 then return .nlXNbTwoBsNhHs
        else throw unsupported
      else if first.ndim = 3 then return .nlXNbBsHs
      else throw unsupported
  | .sglang, 1 =>
      if first.ndim < 2 then throw .indexError
      else if first.dim 1 = 1 then return .nlXNbbsOneHs
      else throw unsupported
  | .sglang, 2 => return .twoXNlXNbbsNhHs
  | _, _ => throw unsupported

/-- `get_num_blocks` of the first tensor. -/
def getNumBlocks (first : Tensor) : GPUKVFormat → Except PointerError ℕ
  | .nbNlTwoBsNhHs => .ok (first.dim 0)
  | .nlXTwoNbBsNhHs => .ok (first.dim 1)
  | .nlXNbTwoBsNhHs => .ok (first.dim 0)
  | .nlXNbBsHs => .ok (first.dim 0)
  | .twoXNlXNbbsNhHs | .nlXNbbsOneHs => .error attributeNotExistError

/-- `get_block_size` of the first tensor. -/
def getBlockSize (first : Tensor) : GPUKVFormat → Except PointerError ℕ
  | .nbNlTwoBsNhHs => .ok (first.dim 3)
  | .nlXTwoNbBsNhHs => .ok (first.dim 2)
  | .nlXNbTwoBsNhHs => .ok (first.dim 2)
  | .nlXNbBsHs => .ok (first.dim 1)
  | .twoXNlXNbbsNhHs | .nlXNbbsOneHs => .error attributeNotExistError

/-- `get_page_buffer_size` of the first tensor. -/
def getPageBufferSize (first : Tensor) : GPUKVFormat → ℕ
  | .nbNlTwoBsNhHs => first.dim 0 * first.dim 3
  | .nlXTwoNbBsNhHs => first.dim 1 * first.dim 2
  | .nlXNbTwoBsNhHs => first.dim 0 * first.dim 2
  | .nlXNbBsHs => first.dim 0 * first.dim 1
  | .twoXNlXNbbsNhHs | .nlXNbbsOneHs => first.dim 0

/-- What a connector hands to the kernels: one table of pointers, or a table of
key pointers and one of value pointers. -/
inductive PagedPointers
  | fused (format : GPUKVFormat) (table : List ℤ) (pageBufferSize blockSize : ℕ)
  | split (keys values : List ℤ) (numHeads headSize blockSize : ℕ)
deriving DecidableEq, Repr

/-- Assigning a list to an array of `count` numbers; one number goes everywhere. -/
def assignArray (count : ℕ) (values : List ℤ) : Except PointerError (List ℤ) :=
  if values.length = count then .ok values
  else match values with
    | [value] => .ok (List.replicate count value)
    | _ => .error (.valueError (s!"could not broadcast input array from shape ({values.length},) " ++
        s!"into shape ({count},)"))

/-- One layer of `kv_caches`, unpacked into a key and a value. -/
structure KeyValueLayer where
  device : Device
  keyPtr : ℤ
  valuePtr : ℤ
  keyShape : List ℕ
deriving DecidableEq, Repr

def unpackError (count : ℕ) : PointerError :=
  if count < 2 then .valueError s!"not enough values to unpack (expected 2, got {count})"
  else .valueError "too many values to unpack (expected 2)"

/-- `for key, value in kv_caches`. A tensor unpacks along its first dimension. -/
def unpackLayers : KVCaches → Except PointerError (List KeyValueLayer)
  | .tensor _ => .error (.valueError ("HCU custom asymmetric KV cache does not support the " ++
      "vLLM cross-layer tensor path."))
  | .pairs layers => .ok (layers.map fun layer =>
      ⟨layer.1.device, layer.1.dataPtr, layer.2.dataPtr, layer.1.shape⟩)
  | .layers tensors => tensors.mapM fun tensor =>
      if tensor.dim 0 = 2 then
        .ok ⟨tensor.device, tensor.dataPtr,
          tensor.dataPtr + ((tensor.strideOf 0 * tensor.elementSize : ℕ) : ℤ), tensor.shape.tail⟩
      else .error (unpackError (tensor.dim 0))
  | .keysAndValues keys values => [keys, values].mapM fun tensors => match tensors with
      | [first, second] => .ok ⟨first.device, first.dataPtr, second.dataPtr, first.shape⟩
      | _ => .error (unpackError tensors.length)

/-- What `VLLMPagedMemGPUConnectorV2` is built with. -/
structure PagedConnector where
  numLayers : ℕ
  hiddenDimSize : ℕ
  useMla : Bool
  hcuUseCustomFlashAttn : Bool
  /-- The count is that of a model. -/
  hasLayers : 0 < numLayers
deriving DecidableEq, Repr

namespace PagedConnector

variable (connector : PagedConnector)

/-- `_copy_layer_pointers_to_device`. -/
def copyLayerPointersToDevice (layerPtrs : List ℤ) (device : Device) :
    Except PointerError (List ℤ) := do
  if device.type ≠ .cuda then
    throw (.valueError s!"The KV cache device must be CUDA, got {device.str}.")
  if device.index = none then
    throw (.valueError "The CUDA KV cache device must have an explicit index.")
  if layerPtrs.length ≠ connector.numLayers then
    throw (.valueError ("The pointer table must be indexed by layer: " ++
      s!"expected {connector.numLayers} pointers, got {layerPtrs.length}."))
  return layerPtrs

/-- `_initialize_cross_layer_pointers`. -/
def initializeCrossLayerPointers (kvCaches : Tensor) : Except PointerError PagedPointers := do
  if kvCaches.ndim ≠ 6 then
    throw (.valueError ("Cross-layer vLLM KV cache must be 6D with layout " ++
      "[NB, NL, 2, BS, NH, HS], got shape " ++ tupleRepr kvCaches.intShape ++ "."))
  if kvCaches.dim 2 ≠ 2 then
    throw (.valueError ("Only NHD cross-layer layout [NB, NL, 2, BS, NH, HS] " ++
      "is supported, got shape " ++ tupleRepr kvCaches.intShape ++ "."))
  if kvCaches.dim 1 ≠ connector.numLayers then
    throw (.valueError ("Cross-layer KV cache layer count mismatch: " ++
      s!"metadata expects {connector.numLayers}, tensor has " ++ toString (kvCaches.dim 1) ++ "."))
  if kvCaches.device.type ≠ .cuda then
    throw (.valueError ("The physical cross-layer KV cache must be on a CUDA-like " ++
      s!"device, got {kvCaches.device.str}."))
  if kvCaches.isContiguous = false then
    throw (.valueError ("The physical cross-layer KV cache tensor must be contiguous. shape=" ++
      tupleRepr kvCaches.intShape ++ ", stride=" ++
      tupleRepr (kvCaches.stride.map Int.ofNat) ++ "."))
  let hiddenDimSize := kvCaches.dim 4 * kvCaches.dim 5
  if hiddenDimSize ≠ connector.hiddenDimSize then
    throw (.valueError ("Cross-layer KV hidden dimension mismatch: " ++
      s!"metadata expects {connector.hiddenDimSize}, tensor has {hiddenDimSize}."))
  let layerStrideBytes := kvCaches.strideOf 1 * kvCaches.elementSize
  let table ← connector.copyLayerPointersToDevice
    ((List.range connector.numLayers).map fun layer : ℕ =>
      (kvCaches.dataPtr : ℤ) + ((layer * layerStrideBytes : ℕ) : ℤ)) kvCaches.device
  return .fused .nbNlTwoBsNhHs table (kvCaches.dim 0 * kvCaches.dim 3) (kvCaches.dim 3)

/-- `_initialize_per_layer_pointers`. -/
def initializePerLayerPointers (format : GPUKVFormat) (kvCaches : List Tensor) :
    Except PointerError PagedPointers := do
  match kvCaches with
  | [] => throw (.valueError "Expected a non-empty list of per-layer KV tensors.")
  | first :: _ =>
      if kvCaches.length ≠ connector.numLayers then
        throw (.valueError ("Per-layer KV cache count mismatch: " ++
          s!"metadata expects {connector.numLayers}, got {kvCaches.length}."))
      if kvCaches.any (fun tensor => decide (tensor.device ≠ first.device)) then
        throw (.valueError "All per-layer KV cache tensors must be on one device.")
      let numBlocks ← getNumBlocks first format
      let blockSize ← getBlockSize first format
      let table ← connector.copyLayerPointersToDevice
        (kvCaches.map fun tensor => (tensor.dataPtr : ℤ)) first.device
      return .fused format table (numBlocks * blockSize) blockSize

/-- The branch of `_initialize_pointers` for the asymmetric caches, and the sizes
that its callers read from the first key tensor. -/
def initializeAsymmetricPointers (layers : List KeyValueLayer) :
    Except PointerError PagedPointers := do
  let keys ← assignArray connector.numLayers (layers.map KeyValueLayer.keyPtr)
  let values ← assignArray connector.numLayers (layers.map KeyValueLayer.valuePtr)
  match layers with
  | [] => throw .indexError
  | first :: _ =>
      if first.device.type ≠ .cuda then
        throw (.assertionError "The device should be CUDA.")
      if first.device.index = none then
        throw (.valueError "The CUDA KV cache device must have an index.")
      if first.keyShape.length ≠ 4 then
        throw (.assertionError "")
      return .split keys values (first.keyShape.getD 1 0) (first.keyShape.getD 3 0)
        (first.keyShape.getD 2 0)

/-- `VLLMPagedMemGPUConnectorV2._initialize_pointers`. -/
def initializePointers (kvCaches : KVCaches) : Except PointerError PagedPointers := do
  if connector.hcuUseCustomFlashAttn && !connector.useMla then
    let layers ← unpackLayers kvCaches
    connector.initializeAsymmetricPointers layers
  else
    let format ← discoverGpuKvFormat kvCaches .vllm
    match kvCaches with
    | .tensor tensor => connector.initializeCrossLayerPointers tensor
    | .layers tensors => connector.initializePerLayerPointers format tensors
    | .pairs _ | .keysAndValues _ _ =>
        throw (.valueError s!"GPU KV format {format.name} requires a layer list.")

/-- `SGLangGPUConnector._initialize_pointers`. -/
def initializeSglangPointers (kvCaches : KVCaches) : Except PointerError PagedPointers := do
  let format ← discoverGpuKvFormat kvCaches .sglang
  match kvCaches.tensors with
  | [] => throw .indexError
  | first :: rest =>
      let numKvCache := if connector.useMla then connector.numLayers else connector.numLayers * 2
      if rest.length + 1 ≠ numKvCache then
        throw (.assertionError (s!"Expected {numKvCache} KV caches, got " ++
          toString (rest.length + 1)))
      if first.device.type ≠ .cuda then
        throw (.assertionError "The device should be CUDA.")
      -- The unilateral transfer passes no block size on; its default is zero.
      return .fused format ((first :: rest).map fun tensor => (tensor.dataPtr : ℤ))
        (getPageBufferSize first format) 0

end PagedConnector

end LMCacheHcu.Kernels
