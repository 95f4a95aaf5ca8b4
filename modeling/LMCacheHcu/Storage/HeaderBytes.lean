import LMCacheHcu.Foundation.LittleEndian
import LMCacheHcu.Foundation.PythonValues
import LMCacheHcu.Storage.BlockFirstDisk

/-! # The header of a block-first file

`pack_block_first_header` and `unpack_block_first_header`, on the metadata as
JSON decodes them: the annotations of the dataclass are not checked, so each
field of decoded metadata may be any value until `validate` has used it.
-/

namespace LMCacheHcu.Storage

open Exceptions Python

/-- `_HEADER_MAGIC`. -/
def headerMagic : List Byte := [0x4C, 0x4D, 0x43, 0x42, 0x46, 0x56, 0x31, 0x00]

def headerSize : ℕ := 4096

/-- `_HEADER_PREFIX.size`. -/
def headerPrefixSize : ℕ := 16

def maxHeaderPayload : ℕ := headerSize - headerPrefixSize

/-- `BlockFirstDiskMetadata`, with values as they were decoded. -/
structure RawMetadata (F : Type) where
  layout : Value F
  version : Value F
  logicalShape : List (Value F)
  payloadShape : List (Value F)
  dtype : Value F
  validTokens : Value F
  numLayers : Value F
  blockSize : Value F
  hiddenDim : Value F
  payloadNbytes : Value F
  ioNbytes : Value F
  modelName : Value F
  worldSize : Value F
  workerId : Value F
  tensorParallelSize : Value F
  pipelineParallelSize : Value F
  layoutSignature : Value F

/-- What the header code uses of the standard library. `loads` is
`json.loads(payload.decode("utf-8"))` and `dumps` is `json.dumps` with the options
of this module. `str`, `tupleText` and `describe` print a value, a tuple and an
exception. -/
structure HeaderRuntime (F : Type) where
  floats : Floats F
  loads : List Byte → Except Builtin (Value F)
  dumps : Value F → Except Builtin (List Byte)
  crc32 : List Byte → ℕ
  sha256 : List Byte → String
  str : Value F → String
  tupleText : List (Value F) → String
  describe : Builtin → String
  loads_dumps : ∀ value bytes, dumps value = .ok bytes → loads bytes = .ok value
  dumps_nonempty : ∀ value bytes, dumps value = .ok bytes → bytes ≠ []
  crc32_lt : ∀ bytes, crc32 bytes < 2 ^ 32

variable {F : Type} (runtime : HeaderRuntime F)

/-- A check that raises `BlockFirstFormatError`. -/
def formatError {α : Type} (message : String) : Except (Raised BlockFirstFormatError) α :=
  .error (.declared ⟨message⟩)

/-! ### The checks on decoded metadata -/

/-- `block_first_shape`, of decoded values. -/
def rawBlockFirstShape (logicalShape : List (Value F)) (blockSize : Value F) :
    Except (Raised BlockFirstFormatError) (List (Value F)) := do
  let shape ← builtin (logicalShape.mapM (Value.toInt runtime.floats))
  match shape with
  | [2, numLayers, numTokens, hiddenDim] =>
      if [2, numLayers, numTokens, hiddenDim].any (· ≤ 0) then
        formatError ("logical KV dimensions must be positive: " ++ tupleRepr shape)
      else
        let blockSize ← builtin blockSize.operand
        if blockSize.le runtime.floats (.int 0) then
          formatError ("block_size must be positive, got " ++ runtime.str blockSize.value)
        else
          let rest ← builtin ((Number.int numTokens).mod runtime.floats blockSize)
          if rest.eq runtime.floats (.int 0) = false then
            formatError (s!"token count {numTokens} is not divisible by block size " ++
              runtime.str blockSize.value)
          else
            let numBlocks ← builtin ((Number.int numTokens).floorDiv runtime.floats blockSize)
            return [numBlocks.value, .int numLayers, .int 2, blockSize.value, .int hiddenDim]
  | _ => formatError ("logical KV shape must be [2, NL, T, D], got " ++ tupleRepr shape)

/-- `align_up(size)`. -/
def rawAlignUp (size : Number F) : Except (Raised BlockFirstFormatError) (Number F) :=
  if size.lt runtime.floats (.int 0) then
    formatError ("size must be non-negative, got " ++ runtime.str size.value)
  else do
    let shifted ← builtin (size.add runtime.floats (.int blockFirstAlignment))
    let last ← builtin (shifted.sub runtime.floats (.int 1))
    let count ← builtin (last.floorDiv runtime.floats (.int blockFirstAlignment))
    builtin (count.mul runtime.floats (.int blockFirstAlignment))

namespace RawMetadata

variable (metadata : RawMetadata F)

/-- The fields of `make_layout_signature`, in the order of their names. -/
def layoutFields (dtype : DType) : Value F := .dict
  [("block_size", metadata.blockSize), ("dtype", .text dtype.name),
    ("hidden_dim", metadata.hiddenDim), ("layout", .text blockFirstLayout),
    ("model_name", metadata.modelName), ("num_layers", metadata.numLayers),
    ("pipeline_parallel_size", metadata.pipelineParallelSize),
    ("tensor_parallel_size", metadata.tensorParallelSize), ("worker_id", metadata.workerId),
    ("world_size", metadata.worldSize)]

/-- `self.layout != BLOCK_FIRST_LAYOUT or self.version != BLOCK_FIRST_VERSION`, negated. -/
def hasLayout : Bool :=
  metadata.layout.equals runtime.floats (.text blockFirstLayout) &&
    metadata.version.equals runtime.floats (.int blockFirstVersion)

/-- A coordinate of the logical shape, which has all of them where this is used. -/
def logicalDim (index : ℕ) : Value F := metadata.logicalShape.getD index .none

/-- The checks of `validate` on the shapes. -/
def validateShapes : Except (Raised BlockFirstFormatError) Unit := do
  if metadata.hasLayout runtime = false then
    formatError ("unsupported layout/version: " ++ runtime.str metadata.layout ++ "/" ++
      runtime.str metadata.version)
  else
    let expected ← rawBlockFirstShape runtime metadata.logicalShape metadata.blockSize
    if Value.equalItems runtime.floats metadata.payloadShape expected = false then
      formatError ("payload shape does not match logical coordinates: " ++
        runtime.tupleText metadata.payloadShape ++ " != " ++ runtime.tupleText expected)
    else if metadata.validTokens.equals runtime.floats (metadata.logicalDim 2) = false then
      formatError ("block_first_v1 only accepts complete chunks: valid_tokens=" ++
        runtime.str metadata.validTokens ++ ", tokens=" ++ runtime.str (metadata.logicalDim 2))
    else if metadata.numLayers.equals runtime.floats (metadata.logicalDim 1) = false then
      formatError "num_layers does not match logical shape"
    else if metadata.hiddenDim.equals runtime.floats (metadata.logicalDim 3) = false then
      formatError "hidden_dim does not match logical shape"
    else return ()

/-- The checks of `validate` on the position of the worker. The least of three
values is compared with zero, which fails unless all of them are numbers. -/
def validateWorker : Except (Raised BlockFirstFormatError) Unit := do
  let worldSize ← builtin metadata.worldSize.operand
  let tensorParallelSize ← builtin metadata.tensorParallelSize.operand
  let pipelineParallelSize ← builtin metadata.pipelineParallelSize.operand
  let least := (worldSize.min runtime.floats tensorParallelSize).min runtime.floats
    pipelineParallelSize
  if least.le runtime.floats (.int 0) then formatError "parallel sizes must be positive"
  else
    let workerId ← builtin metadata.workerId.operand
    if workerId.lt runtime.floats (.int 0) || worldSize.le runtime.floats workerId then
      formatError ("worker_id " ++ runtime.str metadata.workerId ++ " is outside world_size " ++
        runtime.str metadata.worldSize)
    else return ()

/-- `torch_dtype`. The name of an attribute must be a text. -/
def torchDtype : Except (Raised BlockFirstFormatError) DType :=
  match metadata.dtype with
  | .text name => declare (parseDtype name)
  | _ => .error (.builtin .typeError)

/-- The checks of `validate` on the sizes. -/
def validateSizes (dtype : DType) : Except (Raised BlockFirstFormatError) Unit := do
  let dims ← builtin (metadata.payloadShape.mapM Value.operand)
  let count ← builtin (Number.prod runtime.floats dims)
  let expected ← builtin (count.mul runtime.floats (.int dtype.itemsize))
  if metadata.payloadNbytes.equals runtime.floats expected.value = false then
    formatError ("payload size " ++ runtime.str metadata.payloadNbytes ++ " != expected " ++
      runtime.str expected.value)
  else
    let payloadNbytes ← builtin metadata.payloadNbytes.operand
    let aligned ← rawAlignUp runtime payloadNbytes
    if metadata.ioNbytes.equals runtime.floats aligned.value = false then
      formatError ("I/O size " ++ runtime.str metadata.ioNbytes ++
        " is not the aligned payload size")
    else return ()

/-- `make_layout_signature`, of the fields of the metadata. -/
def signature (dtype : DType) : Except Builtin String :=
  (runtime.dumps (metadata.layoutFields dtype)).map runtime.sha256

/-- `validate`. -/
def validate : Except (Raised BlockFirstFormatError) Unit := do
  metadata.validateShapes runtime
  metadata.validateWorker runtime
  let dtype ← metadata.torchDtype
  metadata.validateSizes runtime dtype
  let expected ← builtin (metadata.signature runtime dtype)
  if metadata.layoutSignature.equals runtime.floats (.text expected) = false then
    formatError "layout signature mismatch"
  else return ()

/-! ### The JSON form -/

/-- The fields of the dataclass. -/
def fieldNames : List String :=
  ["layout", "version", "logical_shape", "payload_shape", "dtype", "valid_tokens", "num_layers",
    "block_size", "hidden_dim", "payload_nbytes", "io_nbytes", "model_name", "world_size",
    "worker_id", "tensor_parallel_size", "pipeline_parallel_size", "layout_signature"]

/-- `asdict(metadata)`, in the order of the names. -/
def asdict : List (String × Value F) :=
  [("block_size", metadata.blockSize), ("dtype", metadata.dtype),
    ("hidden_dim", metadata.hiddenDim), ("io_nbytes", metadata.ioNbytes),
    ("layout", metadata.layout), ("layout_signature", metadata.layoutSignature),
    ("logical_shape", .list metadata.logicalShape), ("model_name", metadata.modelName),
    ("num_layers", metadata.numLayers), ("payload_nbytes", metadata.payloadNbytes),
    ("payload_shape", .list metadata.payloadShape),
    ("pipeline_parallel_size", metadata.pipelineParallelSize),
    ("tensor_parallel_size", metadata.tensorParallelSize),
    ("valid_tokens", metadata.validTokens), ("version", metadata.version),
    ("worker_id", metadata.workerId), ("world_size", metadata.worldSize)]

/-- The fields of the dataclass in decoded entries, if there are all of them and
no other ones. -/
def ofFields (entries : List (String × Value F)) (logicalShape payloadShape : List (Value F)) :
    Option (RawMetadata F) := do
  guard (entries.all fun entry => fieldNames.contains entry.1)
  return {
    layout := ← entries.lookup "layout"
    version := ← entries.lookup "version"
    logicalShape := logicalShape
    payloadShape := payloadShape
    dtype := ← entries.lookup "dtype"
    validTokens := ← entries.lookup "valid_tokens"
    numLayers := ← entries.lookup "num_layers"
    blockSize := ← entries.lookup "block_size"
    hiddenDim := ← entries.lookup "hidden_dim"
    payloadNbytes := ← entries.lookup "payload_nbytes"
    ioNbytes := ← entries.lookup "io_nbytes"
    modelName := ← entries.lookup "model_name"
    worldSize := ← entries.lookup "world_size"
    workerId := ← entries.lookup "worker_id"
    tensorParallelSize := ← entries.lookup "tensor_parallel_size"
    pipelineParallelSize := ← entries.lookup "pipeline_parallel_size"
    layoutSignature := ← entries.lookup "layout_signature" }

/-- The body of the `try` in `from_mapping`. -/
def construct (entries : List (String × Value F)) : Except Builtin (RawMetadata F) := do
  let logicalShape ← (← (Value.dict entries).getItem "logical_shape").items
  let payloadShape ← (← (Value.dict entries).getItem "payload_shape").items
  match ofFields entries logicalShape payloadShape with
  | some metadata => return metadata
  | none => throw .typeError

/-- `from_mapping`. -/
def fromMapping (entries : List (String × Value F)) :
    Except (Raised BlockFirstFormatError) (RawMetadata F) := do
  let metadata ← translate (fun kind => kind = .keyError || kind = .typeError || kind = .valueError)
    (fun kind => ⟨"invalid block-first metadata: " ++ runtime.describe kind⟩)
    (builtin (construct entries))
  metadata.validate runtime
  return metadata

end RawMetadata

/-! ### Metadata of the annotated types -/

/-- The fields of a layout signature as a value, in the order of their names. -/
def LayoutFields.value (fields : LayoutFields) : Value F := .dict
  [("block_size", .int fields.blockSize), ("dtype", .text fields.dtype),
    ("hidden_dim", .int fields.hiddenDim), ("layout", .text fields.layout),
    ("model_name", .text fields.modelName), ("num_layers", .int fields.numLayers),
    ("pipeline_parallel_size", .int fields.pipelineParallelSize),
    ("tensor_parallel_size", .int fields.tensorParallelSize),
    ("worker_id", .int fields.workerId), ("world_size", .int fields.worldSize)]

/-- `make_layout_signature`, where it returns. -/
def HeaderRuntime.signatureOf (fields : LayoutFields) : String :=
  match runtime.dumps fields.value with
  | .ok bytes => runtime.sha256 bytes
  | .error _ => ""

/-- The values of metadata that `create` has made. -/
def BlockFirstDiskMetadata.raw (metadata : BlockFirstDiskMetadata) : RawMetadata F where
  layout := .text metadata.layout
  version := .int metadata.version
  logicalShape := metadata.logicalShape.map .int
  payloadShape := metadata.payloadShape.map .int
  dtype := .text metadata.dtype
  validTokens := .int metadata.validTokens
  numLayers := .int metadata.numLayers
  blockSize := .int metadata.blockSize
  hiddenDim := .int metadata.hiddenDim
  payloadNbytes := .int metadata.payloadNbytes
  ioNbytes := .int metadata.ioNbytes
  modelName := .text metadata.modelName
  worldSize := .int metadata.worldSize
  workerId := .int metadata.workerId
  tensorParallelSize := .int metadata.tensorParallelSize
  pipelineParallelSize := .int metadata.pipelineParallelSize
  layoutSignature := .text metadata.layoutSignature

/-! ### The bytes -/

/-- A header around a payload that fits. -/
def headerOf (payload : List Byte) : List Byte :=
  headerMagic ++ LittleEndian.word 4 payload.length ++
    LittleEndian.word 4 (runtime.crc32 payload) ++ payload ++
    List.replicate (maxHeaderPayload - payload.length) 0

/-- `pack_block_first_header`. -/
def packBlockFirstHeader (metadata : RawMetadata F) :
    Except (Raised BlockFirstFormatError) (List Byte) := do
  metadata.validate runtime
  let payload ← builtin (runtime.dumps (.dict metadata.asdict))
  if maxHeaderPayload < payload.length then
    formatError s!"metadata is too large for the 4 KiB header: {payload.length} bytes"
  else return headerOf runtime payload

/-- The fields of the prefix behind the magic, and the payload of that length. -/
def headerPayloadLength (buffer : List Byte) : ℕ :=
  LittleEndian.value ((buffer.drop 8).take 4)

def headerChecksum (buffer : List Byte) : ℕ :=
  LittleEndian.value ((buffer.drop 12).take 4)

def headerPayload (buffer : List Byte) : List Byte :=
  (buffer.drop headerPrefixSize).take (headerPayloadLength buffer)

/-- `unpack_block_first_header`. -/
def unpackBlockFirstHeader (buffer : List Byte) :
    Except (Raised BlockFirstFormatError) (RawMetadata F) := do
  if buffer.length < headerSize then
    formatError s!"short block-first header: {buffer.length}/{headerSize} bytes"
  else if buffer.take 8 ≠ headerMagic then
    formatError "block-first header magic mismatch"
  else if headerPayloadLength buffer = 0 ∨ maxHeaderPayload < headerPayloadLength buffer then
    formatError s!"invalid metadata length: {headerPayloadLength buffer}"
  else if runtime.crc32 (headerPayload buffer) ≠ headerChecksum buffer then
    formatError "block-first header checksum mismatch"
  else
    let values ← translate (fun kind => kind = .unicodeDecodeError || kind = .jsonDecodeError)
      (fun kind => ⟨"invalid block-first JSON: " ++ runtime.describe kind⟩)
      (builtin (runtime.loads (headerPayload buffer)))
    match values with
    | .dict entries => RawMetadata.fromMapping runtime entries
    | _ => formatError "block-first metadata must be a JSON object"

end LMCacheHcu.Storage
