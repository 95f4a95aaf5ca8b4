import LMCacheHcu.Storage.Tensor

/-! # The block-first disk layout

A complete chunk is a logical tensor `[2, NL, T, D]`. On disk its payload is
`[CB, NL, 2, BS, D]`, block by block, behind a header of 4096 bytes. This module
has the layout's metadata with its checks, and the two conversions as lists of
element copies.
-/

namespace LMCacheHcu.Storage

open RowMajor ByteCopy

def blockFirstAlignment : ℤ := 4096

def blockFirstHeaderSize : ℤ := 4096

def blockFirstLayout : String := "block_first_v1"

def blockFirstVersion : ℤ := 1

/-- `BlockFirstFormatError`, with its message. -/
structure BlockFirstFormatError where
  message : String
deriving DecidableEq, Repr

/-- How Python prints a tuple of integers. -/
def tupleRepr : List ℤ → String
  | [single] => s!"({single},)"
  | dims => "(" ++ ", ".intercalate (dims.map toString) ++ ")"

/-- Round a size up to a multiple of the alignment. -/
def alignUp (size alignment : ℤ) : Except BlockFirstFormatError ℤ :=
  if size < 0 then .error ⟨s!"size must be non-negative, got {size}"⟩
  else if alignment ≤ 0 then .error ⟨s!"alignment must be positive, got {alignment}"⟩
  else .ok ((size + alignment - 1) / alignment * alignment)

/-- `getattr(torch, name)`, when it is a dtype. -/
def parseDtype (name : String) : Except BlockFirstFormatError DType :=
  match name with
  | "uint8" => .ok .uint8
  | "uint16" => .ok .uint16
  | "uint32" => .ok .uint32
  | "uint64" => .ok .uint64
  | "int8" => .ok .int8
  | "int16" | "short" => .ok .int16
  | "int32" | "int" => .ok .int32
  | "int64" | "long" => .ok .int64
  | "float8_e4m3fn" => .ok .float8E4m3fn
  | "float8_e4m3fnuz" => .ok .float8E4m3fnuz
  | "float8_e5m2" => .ok .float8E5m2
  | "float8_e5m2fnuz" => .ok .float8E5m2fnuz
  | "float16" | "half" => .ok .float16
  | "bfloat16" => .ok .bfloat16
  | "float32" | "float" => .ok .float32
  | "float64" | "double" => .ok .float64
  | "complex32" | "chalf" => .ok .complex32
  | "complex64" | "cfloat" => .ok .complex64
  | "complex128" | "cdouble" => .ok .complex128
  | "bool" => .ok .bool
  | _ => .error ⟨s!"Unsupported dtype name: {name}"⟩

/-- The printed name of a dtype names it. -/
theorem parseDtype_name (dtype : DType) : parseDtype dtype.name = .ok dtype := by
  cases dtype <;> rfl

/-- The payload shape `[CB, NL, 2, BS, D]` of a logical shape. -/
def blockFirstShape (logicalShape : List ℤ) (blockSize : ℤ) :
    Except BlockFirstFormatError (List ℤ) :=
  match logicalShape with
  | [2, numLayers, numTokens, hiddenDim] =>
      if [2, numLayers, numTokens, hiddenDim].any (· ≤ 0) then
        .error ⟨"logical KV dimensions must be positive: " ++ tupleRepr logicalShape⟩
      else if blockSize ≤ 0 then
        .error ⟨s!"block_size must be positive, got {blockSize}"⟩
      else if numTokens % blockSize ≠ 0 then
        .error ⟨s!"token count {numTokens} is not divisible by block size {blockSize}"⟩
      else .ok [numTokens / blockSize, numLayers, 2, blockSize, hiddenDim]
  | _ => .error ⟨"logical KV shape must be [2, NL, T, D], got " ++ tupleRepr logicalShape⟩

/-- The integer shape of a tensor. -/
def Tensor.intShape (tensor : Tensor) : List ℤ := tensor.shape.map Int.ofNat

/-- The output tensor of a conversion: the given one, or a fresh allocation. -/
def conversionOutput (allocate : List ℕ → DType → Device → Tensor) (targetShape : List ℤ)
    (dtype : DType) (device : Device) (out : Option Tensor) : Tensor :=
  out.getD (allocate (targetShape.map Int.toNat) dtype device)

/-- `logical_to_block_first`: the output tensor and the copies into it. -/
def logicalToBlockFirst (allocate : List ℕ → DType → Device → Tensor) (logical : Tensor)
    (blockSize : ℕ) (out : Option Tensor) :
    Except BlockFirstFormatError (Tensor × List Copy) := do
  let targetShape ← blockFirstShape logical.intShape blockSize
  if logical.isContiguous = false then
    throw ⟨"logical KV tensor must be contiguous"⟩
  let out := conversionOutput allocate targetShape logical.dtype logical.device out
  if out.intShape ≠ targetShape then
    throw ⟨"block-first output shape must be " ++ tupleRepr targetShape ++ ", got " ++
      tupleRepr out.intShape⟩
  if out.dtype ≠ logical.dtype ∨ out.device ≠ logical.device then
    throw ⟨"block-first output must have the same dtype and device as the input"⟩
  let source := logical.toView.split 2 blockSize
  return (out, out.toView.copyFrom (source.permute [2, 1, 0, 3, 4]))

/-- `block_first_to_logical`: the output tensor and the copies into it. -/
def blockFirstToLogical (allocate : List ℕ → DType → Device → Tensor) (physical : Tensor)
    (out : Option Tensor) : Except BlockFirstFormatError (Tensor × List Copy) := do
  if physical.ndim ≠ 5 ∨ physical.dim 2 ≠ 2 then
    throw ⟨"block-first KV shape must be [CB, NL, 2, BS, D], got " ++ tupleRepr physical.intShape⟩
  if physical.isContiguous = false then
    throw ⟨"block-first KV tensor must be contiguous"⟩
  let logicalShape : List ℤ :=
    [2, physical.dim 1, physical.dim 0 * physical.dim 3, physical.dim 4]
  let out := conversionOutput allocate logicalShape physical.dtype physical.device out
  if out.intShape ≠ logicalShape then
    throw ⟨"logical output shape must be " ++ tupleRepr logicalShape ++ ", got " ++
      tupleRepr out.intShape⟩
  if out.dtype ≠ physical.dtype ∨ out.device ≠ physical.device then
    throw ⟨"logical output must have the same dtype and device as the input"⟩
  let target := out.toView.split 2 (physical.dim 3)
  return (out, target.copyFrom (physical.toView.permute [2, 1, 0, 3, 4]))

/-! ### Metadata -/

/-- The fields that the layout signature is computed from. -/
structure LayoutFields where
  blockSize : ℤ
  dtype : String
  hiddenDim : ℤ
  layout : String
  modelName : String
  numLayers : ℤ
  pipelineParallelSize : ℤ
  tensorParallelSize : ℤ
  workerId : ℤ
  worldSize : ℤ
deriving DecidableEq, Repr

/-- `BlockFirstDiskMetadata`. -/
structure BlockFirstDiskMetadata where
  layout : String
  version : ℤ
  logicalShape : List ℤ
  payloadShape : List ℤ
  dtype : String
  validTokens : ℤ
  numLayers : ℤ
  blockSize : ℤ
  hiddenDim : ℤ
  payloadNbytes : ℤ
  ioNbytes : ℤ
  modelName : String
  worldSize : ℤ
  workerId : ℤ
  tensorParallelSize : ℤ
  pipelineParallelSize : ℤ
  layoutSignature : String
deriving DecidableEq, Repr

/-- The model and the position of a worker in it. -/
structure WorkerIdentity where
  modelName : String
  worldSize : ℤ
  workerId : ℤ
  tensorParallelSize : ℤ
  pipelineParallelSize : ℤ
deriving DecidableEq, Repr

namespace BlockFirstDiskMetadata

/-- The fields of the signature that belongs to the metadata. -/
def layoutFields (metadata : BlockFirstDiskMetadata) (dtype : DType) : LayoutFields where
  blockSize := metadata.blockSize
  dtype := dtype.name
  hiddenDim := metadata.hiddenDim
  layout := blockFirstLayout
  modelName := metadata.modelName
  numLayers := metadata.numLayers
  pipelineParallelSize := metadata.pipelineParallelSize
  tensorParallelSize := metadata.tensorParallelSize
  workerId := metadata.workerId
  worldSize := metadata.worldSize

/-- `validate`. The signature is a digest of the canonical JSON of its fields. -/
def validate (signature : LayoutFields → String) (metadata : BlockFirstDiskMetadata) :
    Except BlockFirstFormatError Unit := do
  if metadata.layout ≠ blockFirstLayout ∨ metadata.version ≠ blockFirstVersion then
    throw ⟨s!"unsupported layout/version: {metadata.layout}/{metadata.version}"⟩
  let expectedPayloadShape ← blockFirstShape metadata.logicalShape metadata.blockSize
  if metadata.payloadShape ≠ expectedPayloadShape then
    throw ⟨"payload shape does not match logical coordinates: " ++
      tupleRepr metadata.payloadShape ++ " != " ++ tupleRepr expectedPayloadShape⟩
  if metadata.validTokens ≠ metadata.logicalShape.getD 2 0 then
    throw ⟨s!"block_first_v1 only accepts complete chunks: valid_tokens={metadata.validTokens}, " ++
      s!"tokens={metadata.logicalShape.getD 2 0}"⟩
  if metadata.numLayers ≠ metadata.logicalShape.getD 1 0 then
    throw ⟨"num_layers does not match logical shape"⟩
  if metadata.hiddenDim ≠ metadata.logicalShape.getD 3 0 then
    throw ⟨"hidden_dim does not match logical shape"⟩
  if min metadata.worldSize (min metadata.tensorParallelSize metadata.pipelineParallelSize) ≤ 0 then
    throw ⟨"parallel sizes must be positive"⟩
  if metadata.workerId < 0 ∨ metadata.worldSize ≤ metadata.workerId then
    throw ⟨s!"worker_id {metadata.workerId} is outside world_size {metadata.worldSize}"⟩
  let dtype ← parseDtype metadata.dtype
  let expectedNbytes := metadata.payloadShape.prod * dtype.itemsize
  if metadata.payloadNbytes ≠ expectedNbytes then
    throw ⟨s!"payload size {metadata.payloadNbytes} != expected {expectedNbytes}"⟩
  let alignedNbytes ← alignUp metadata.payloadNbytes blockFirstAlignment
  if metadata.ioNbytes ≠ alignedNbytes then
    throw ⟨s!"I/O size {metadata.ioNbytes} is not the aligned payload size"⟩
  if metadata.layoutSignature ≠ signature (metadata.layoutFields dtype) then
    throw ⟨"layout signature mismatch"⟩

/-- `validate_runtime`: the checks of decoded metadata against the running engine. -/
def validateRuntime (signature : LayoutFields → String) (metadata : BlockFirstDiskMetadata)
    (logicalShape : List ℕ) (dtype : DType) (identity : WorkerIdentity) (blockSize : ℤ) :
    Except BlockFirstFormatError Unit := do
  metadata.validate signature
  let expectedShape : List ℤ := logicalShape.map Int.ofNat
  let expectedSignature := signature
    { blockSize := blockSize
      dtype := dtype.name
      hiddenDim := expectedShape.getD 3 0
      layout := blockFirstLayout
      modelName := identity.modelName
      numLayers := expectedShape.getD 1 0
      pipelineParallelSize := identity.pipelineParallelSize
      tensorParallelSize := identity.tensorParallelSize
      workerId := identity.workerId
      worldSize := identity.worldSize }
  if metadata.logicalShape ≠ expectedShape then
    throw ⟨"logical shape mismatch: " ++ tupleRepr metadata.logicalShape ++ " != " ++
      tupleRepr expectedShape⟩
  let recordedDtype ← parseDtype metadata.dtype
  if recordedDtype ≠ dtype then
    throw ⟨"dtype mismatch: torch." ++ recordedDtype.name ++ " != torch." ++ dtype.name⟩
  if metadata.layoutSignature ≠ expectedSignature then
    throw ⟨"runtime layout signature mismatch"⟩

/-- `create`: the metadata of a complete logical chunk of given shape and dtype. -/
def create (signature : LayoutFields → String) (logicalShape : List ℕ) (dtype : DType)
    (blockSize : ℕ) (identity : WorkerIdentity) :
    Except BlockFirstFormatError BlockFirstDiskMetadata := do
  let shape : List ℤ := logicalShape.map Int.ofNat
  let payloadShape ← blockFirstShape shape blockSize
  let payloadNbytes : ℤ := shape.prod * dtype.itemsize
  let ioNbytes ← alignUp payloadNbytes blockFirstAlignment
  let unsigned : BlockFirstDiskMetadata :=
    { layout := blockFirstLayout
      version := blockFirstVersion
      logicalShape := shape
      payloadShape := payloadShape
      dtype := dtype.name
      validTokens := shape.getD 2 0
      numLayers := shape.getD 1 0
      blockSize := blockSize
      hiddenDim := shape.getD 3 0
      payloadNbytes := payloadNbytes
      ioNbytes := ioNbytes
      modelName := identity.modelName
      worldSize := identity.worldSize
      workerId := identity.workerId
      tensorParallelSize := identity.tensorParallelSize
      pipelineParallelSize := identity.pipelineParallelSize
      layoutSignature := "" }
  let metadata : BlockFirstDiskMetadata :=
    { unsigned with layoutSignature := signature (unsigned.layoutFields dtype) }
  metadata.validate signature
  return metadata

end BlockFirstDiskMetadata

end LMCacheHcu.Storage
