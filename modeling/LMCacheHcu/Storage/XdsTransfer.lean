import LMCacheHcu.Storage.BlockFirstLayout
import LMCacheHcu.Storage.DirectPlan

/-! # Writing and reading block-first files

The writers and readers of `XdsBackend` for one block-first file. They reach
storage and device memory through a driver, of which only this is known: when a
call reports that it transferred all bytes, it transferred exactly those.
-/

namespace LMCacheHcu.Storage

open RowMajor ByteCopy

/-- The exceptions of the backend's transfers. -/
inductive XdsError
  | blockFirstFormatError (error : BlockFirstFormatError)
  | directIOError (error : DirectIOError)
  | runtimeError (message : String)
  | osError (message : String)
deriving DecidableEq, Repr

/-- The content of a file: its bytes and how many there are. -/
structure FileImage where
  size : ℤ
  content : Memory

namespace FileImage

/-- A file right after it was created or truncated. -/
def empty : FileImage := ⟨0, fun _ => 0⟩

/-- Write bytes of a memory at an offset of the file, growing it if needed. -/
def pwrite (file : FileImage) (memory : Memory) (source offset size : ℤ) : FileImage where
  size := max file.size (offset + size)
  content := Copy.write memory file.content ⟨source, offset, size⟩

/-- Write bytes of a memory at the end of the file. -/
def append (file : FileImage) (memory : Memory) (source size : ℤ) : FileImage :=
  file.pwrite memory source file.size size

end FileImage

/-- The arguments of one driver transfer between a file and device memory. -/
structure XdsCall where
  gpuAddress : ℤ
  size : ℤ
  fileOffset : ℤ
  devOffset : ℤ
deriving DecidableEq, Repr

/-- The driver's transfers and the device copy, each with the count or code it
returns and what it leaves behind. -/
structure XdsDriver where
  read : XdsCall → FileImage → Memory → ℤ × Memory
  write : XdsCall → Memory → FileImage → ℤ × FileImage
  memcpyDeviceToDevice : Copy → Memory → ℤ × Memory
  read_full : ∀ call file memory, (read call file memory).1 = call.size →
    (read call file memory).2 = Copy.write file.content memory
      ⟨call.fileOffset, call.gpuAddress + call.devOffset, call.size⟩
  write_full : ∀ call memory file, (write call memory file).1 = call.size →
    (write call memory file).2 =
      file.pwrite memory (call.gpuAddress + call.devOffset) call.fileOffset call.size
  memcpy_done : ∀ copy memory, (memcpyDeviceToDevice copy memory).1 = 0 →
    (memcpyDeviceToDevice copy memory).2 = Copy.write memory memory copy

/-- A driver whose transfers are always complete. -/
def XdsDriver.complete : XdsDriver where
  read := fun call file memory => (call.size, Copy.write file.content memory
    ⟨call.fileOffset, call.gpuAddress + call.devOffset, call.size⟩)
  write := fun call memory file =>
    (call.size, file.pwrite memory (call.gpuAddress + call.devOffset) call.fileOffset call.size)
  memcpyDeviceToDevice := fun copy memory => (0, Copy.write memory memory copy)
  read_full := fun _ _ _ _ => rfl
  write_full := fun _ _ _ _ => rfl
  memcpy_done := fun _ _ _ => rfl

/-- `pack_block_first_header` and `unpack_block_first_header`. -/
structure HeaderCodec where
  pack : BlockFirstDiskMetadata → Except BlockFirstFormatError (List Byte)
  unpack : List Byte → Except BlockFirstFormatError BlockFirstDiskMetadata
  length_pack : ∀ metadata header, pack metadata = .ok header →
    (header.length : ℤ) = blockFirstHeaderSize
  unpack_pack : ∀ metadata header, pack metadata = .ok header → unpack header = .ok metadata

/-- A codec that raises in both directions. -/
def HeaderCodec.failing (message : String) : HeaderCodec where
  pack := fun _ => .error ⟨message⟩
  unpack := fun _ => .error ⟨message⟩
  length_pack := fun _ _ packed => nomatch packed
  unpack_pack := fun _ _ packed => nomatch packed

/-- The engine metadata that the backend reads. -/
structure EngineMetadata where
  identity : WorkerIdentity
  blockSize : ℕ
  chunkSize : ℕ
  getShapes : ℕ → List (List ℕ)
  getDtypes : List DType

/-- The parts of an `XdsBackend` that its transfers use. -/
structure XdsBackend where
  metadata : EngineMetadata
  directEnabled : Bool
  dstDevice : Device
  signature : LayoutFields → String
  codec : HeaderCodec
  driver : XdsDriver

/-- The registered scratch chunk for layout conversion: a contiguous tensor at
an address of an allocation that also has room for the aligned payload. -/
structure BlockFirstStaging where
  basePointer : ℕ
  nbytes : ℕ
  address : ℕ
  tensor : Tensor
  placed : tensor.dataPtr = basePointer + address
  contiguous : tensor.isContiguous = true
  room : (address : ℤ) + (tensor.numel * tensor.elementSize + blockFirstAlignment - 1) /
    blockFirstAlignment * blockFirstAlignment ≤ nbytes

namespace XdsBackend

variable (backend : XdsBackend)

/-- `_devices_match`. -/
def devicesMatch (expected actual : Device) : Bool :=
  expected.type = actual.type && (expected.index.isNone || expected.index = actual.index)

/-- `_make_block_first_metadata`. -/
def makeBlockFirstMetadata (logicalShape : List ℕ) (dtype : DType) :
    Except XdsError BlockFirstDiskMetadata :=
  (BlockFirstDiskMetadata.create backend.signature logicalShape dtype backend.metadata.blockSize
    backend.metadata.identity).mapError .blockFirstFormatError

/-- `_make_direct_block_first_metadata`: the metadata of one complete chunk. -/
def makeDirectBlockFirstMetadata : Except XdsError BlockFirstDiskMetadata :=
  match backend.metadata.getShapes backend.metadata.chunkSize, backend.metadata.getDtypes with
  | [shape], [dtype] => backend.makeBlockFirstMetadata shape dtype
  | _, _ => .error (.blockFirstFormatError ⟨"direct XDS requires one KV layer group"⟩)

def valueError (message : String) : XdsError := .directIOError (.valueError message)

/-- `_validate_direct_descriptor`. -/
def validateDirectDescriptor (descriptor : DirectIODescriptor) (direction : DirectIODirection) :
    Except XdsError Unit := do
  if backend.directEnabled = false then throw (valueError "direct XDS is disabled")
  if descriptor.direction ≠ direction then throw (valueError "direct I/O direction mismatch")
  (descriptor.validate true true).mapError .directIOError
  if descriptor.engineGroupId ≠ 0 then
    throw (valueError "0.4.2 direct XDS only supports engine group 0")
  if (backend.metadata.blockSize : ℤ) ≠ descriptor.blockSize then
    throw (valueError "direct I/O block size does not match engine metadata")
  if devicesMatch backend.dstDevice descriptor.device = false then
    throw (valueError "direct I/O allocation is on the wrong CUDA device")
  match backend.metadata.getShapes backend.metadata.chunkSize, backend.metadata.getDtypes with
  | [shape], [dtype] =>
      if descriptor.blockNbytes ≠ shape.getD 0 0 * shape.getD 1 0 * descriptor.blockSize *
          shape.getD 3 0 * dtype.itemsize then
        throw (valueError "direct I/O block byte size does not match KV metadata")
      if backend.metadata.chunkSize / descriptor.blockSize <
          descriptor.logicalBlockStart + descriptor.logicalBlockCount then
        throw (valueError "direct I/O logical range exceeds one LMCache chunk")
      if (descriptor.leadingEdge.any fun edge =>
          decide (backend.metadata.chunkSize / descriptor.blockSize ≤ edge.logicalBlock)) = true then
        throw (valueError "direct I/O leading edge exceeds one LMCache chunk")
  | _, _ => throw (valueError "direct XDS requires one KV layer group")

/-! ### Calls of the driver -/

/-- One read of the file, complete or refused. -/
def readCall (label : String) (file : FileImage) (memory : Memory) (call : XdsCall) :
    Except XdsError Memory :=
  let answer := backend.driver.read call file memory
  if answer.1 ≠ call.size then
    .error (.runtimeError (label ++ s!" incomplete: {answer.1}/{call.size}"))
  else .ok answer.2

/-- One write to the file, complete or refused. -/
def writeCall (label : String) (memory : Memory) (file : FileImage) (call : XdsCall) :
    Except XdsError FileImage :=
  let answer := backend.driver.write call memory file
  if answer.1 ≠ call.size then
    .error (.runtimeError (label ++ s!" incomplete: {answer.1}/{call.size}"))
  else .ok answer.2

/-- `_device_to_device_copy`. -/
def deviceToDeviceCopy (memory : Memory) (copy : Copy) : Except XdsError Memory :=
  let answer := backend.driver.memcpyDeviceToDevice copy memory
  if answer.1 ≠ 0 then
    .error (.runtimeError s!"hipMemcpyDeviceToDevice failed with code {answer.1}")
  else .ok answer.2

/-! ### Direct transfers -/

/-- The transfer of one run of blocks. -/
def runCall (descriptor : DirectIODescriptor) (run : DirectIOBlockRun) : XdsCall where
  gpuAddress := descriptor.allocationBase
  size := run.blockCount * descriptor.blockNbytes
  fileOffset := descriptor.filePayloadOffset + run.logicalBlockStart * descriptor.blockNbytes
  devOffset := run.physicalBlockStart * descriptor.blockNbytes

/-- The transfer of one byte segment. -/
def segmentCall (descriptor : DirectIODescriptor) (segment : DirectIOByteSegment) : XdsCall where
  gpuAddress := (descriptor.registrationAllocations[segment.allocationIndex.toNat]?.map
    DirectIOAllocation.base).getD 0
  size := segment.nbytes
  fileOffset := segment.fileOffset
  devOffset := segment.allocationOffset

/-- The copies of `_copy_direct_leading_edge`, one for each layer and half. -/
def leadingEdgeCopies (diskMetadata : BlockFirstDiskMetadata) (itemsize : ℕ)
    (descriptor : DirectIODescriptor) (edge : DirectIOLeadingEdge) (scratchBase : ℤ) :
    List Copy :=
  let rowNbytes := diskMetadata.hiddenDim * itemsize
  (List.range diskMetadata.numLayers.toNat).flatMap fun layer : ℕ =>
    (List.range 2).map fun kvIndex : ℕ =>
      let rowIndex : ℤ := (layer * 2 + kvIndex) * descriptor.blockSize
      let edgeOffset := (rowIndex + edge.tokenOffset) * rowNbytes
      { dst := descriptor.allocationBase + edge.physicalBlock * descriptor.blockNbytes + edgeOffset
        src := scratchBase + edgeOffset
        size := edge.tokenCount * rowNbytes }

/-- `_copy_direct_leading_edge`. -/
def copyDirectLeadingEdge (descriptor : DirectIODescriptor) (edge : DirectIOLeadingEdge)
    (scratchBase : ℤ) (memory : Memory) : Except XdsError Memory := do
  let diskMetadata ← backend.makeDirectBlockFirstMetadata
  let dtype ← (parseDtype diskMetadata.dtype).mapError .blockFirstFormatError
  (leadingEdgeCopies diskMetadata dtype.itemsize descriptor edge scratchBase).foldlM
    backend.deviceToDeviceCopy memory

/-- `_transfer_direct_xds`. The scratch base is that of the edge staging tensor. -/
def transferDirectXds (file : FileImage) (descriptor : DirectIODescriptor) (scratchBase : ℤ)
    (memory : Memory) : Except XdsError Memory :=
  if descriptor.byteSegments.isEmpty then do
    let afterEdge ← match descriptor.leadingEdge with
      | none => pure memory
      | some edge => do
          let staged ← backend.readCall "direct XDS edge read" file memory
            { gpuAddress := scratchBase
              size := descriptor.blockNbytes
              fileOffset := descriptor.filePayloadOffset +
                edge.logicalBlock * descriptor.blockNbytes
              devOffset := 0 }
          backend.copyDirectLeadingEdge descriptor edge scratchBase staged
    (descriptor.runs.map (runCall descriptor)).foldlM (backend.readCall "direct XDS read" file)
      afterEdge
  else
    (descriptor.byteSegments.map (segmentCall descriptor)).foldlM
      (backend.readCall "direct XDS segment read" file) memory

/-- The bytes of a file's header. -/
def headerOf (file : FileImage) : List Byte :=
  (List.range blockFirstHeaderSize.toNat).map fun position : ℕ => file.content position

/-- `_prepare_direct_xds`. -/
def prepareDirectXds (file : FileImage) (diskMetadata : BlockFirstDiskMetadata)
    (descriptor : DirectIODescriptor) : Except XdsError Unit := do
  backend.validateDirectDescriptor descriptor .retrieve
  let currentMetadata ← (backend.codec.unpack (headerOf file)).mapError .blockFirstFormatError
  if currentMetadata ≠ diskMetadata then
    throw (.blockFirstFormatError ⟨"block-first header changed after indexing"⟩)
  if file.size ≠ blockFirstHeaderSize + diskMetadata.ioNbytes then
    throw (.blockFirstFormatError ⟨"block-first payload size changed after indexing"⟩)
  let shape := (backend.metadata.getShapes backend.metadata.chunkSize).getD 0 []
  let dtype := backend.metadata.getDtypes.getD 0 .uint8
  (diskMetadata.validateRuntime backend.signature shape dtype backend.metadata.identity
    descriptor.blockSize).mapError .blockFirstFormatError

/-- `_load_direct_xds`. -/
def loadDirectXds (file : FileImage) (diskMetadata : BlockFirstDiskMetadata)
    (descriptor : DirectIODescriptor) (scratchBase : ℤ) (memory : Memory) :
    Except XdsError Memory := do
  backend.prepareDirectXds file diskMetadata descriptor
  backend.transferDirectXds file descriptor scratchBase memory

/-! ### The three writers -/

/-- A new file with the packed header. -/
def headerFile (diskMetadata : BlockFirstDiskMetadata) : Except XdsError FileImage := do
  let header ← (backend.codec.pack diskMetadata).mapError .blockFirstFormatError
  return FileImage.empty.append (fun position => header.getD position.toNat 0) 0 header.length

/-- `_save_direct_xds`. -/
def saveDirectXds (descriptor : DirectIODescriptor) (memory : Memory) :
    Except XdsError (BlockFirstDiskMetadata × FileImage) := do
  backend.validateDirectDescriptor descriptor .store
  let diskMetadata ← backend.makeDirectBlockFirstMetadata
  if descriptor.logicalBlockStart ≠ 0 ∨
      descriptor.logicalBlockCount ≠ diskMetadata.validTokens / diskMetadata.blockSize then
    throw (valueError "direct store must cover the complete LMCache chunk")
  if descriptor.transferredNbytes ≠ diskMetadata.payloadNbytes then
    throw (valueError "direct store byte count does not match the file payload")
  if diskMetadata.payloadNbytes ≠ diskMetadata.ioNbytes then
    throw (valueError "direct store payload requires unsupported tail padding")
  let start ← backend.headerFile diskMetadata
  let written ← (descriptor.runs.map (runCall descriptor)).foldlM
    (backend.writeCall "direct XDS write" memory) start
  if written.size ≠ blockFirstHeaderSize + diskMetadata.ioNbytes then
    throw (.runtimeError "direct XDS file size mismatch")
  return (diskMetadata, written)

/-- The memory with the whole staging allocation zeroed. -/
def zeroStaging (staging : BlockFirstStaging) (memory : Memory) : Memory :=
  Copy.write (fun _ => 0) memory ⟨0, staging.basePointer, staging.nbytes⟩

/-- The transfer between the file's payload and the staging chunk. -/
def stagingCall (staging : BlockFirstStaging) (diskMetadata : BlockFirstDiskMetadata) :
    XdsCall where
  gpuAddress := staging.basePointer
  size := diskMetadata.ioNbytes
  fileOffset := blockFirstHeaderSize
  devOffset := staging.address

/-- `_save_block_first_xds`. -/
def saveBlockFirstXds (allocate : List ℕ → DType → Device → Tensor) (staging : BlockFirstStaging)
    (logicalChunk : Tensor) (memory : Memory) :
    Except XdsError (BlockFirstDiskMetadata × FileImage) := do
  let diskMetadata ← backend.makeBlockFirstMetadata logicalChunk.shape logicalChunk.dtype
  let start ← backend.headerFile diskMetadata
  if staging.tensor.intShape ≠ diskMetadata.payloadShape then
    throw (.blockFirstFormatError ⟨"block-first staging shape does not match the complete chunk: "
      ++ tupleRepr staging.tensor.intShape ++ " != " ++ tupleRepr diskMetadata.payloadShape⟩)
  let zeroed := zeroStaging staging memory
  let converted ← (logicalToBlockFirst allocate logicalChunk backend.metadata.blockSize
    (some staging.tensor)).mapError .blockFirstFormatError
  let written ← backend.writeCall "block-first XDS write"
    (writeAll zeroed converted.2 zeroed) start (stagingCall staging diskMetadata)
  if written.size ≠ blockFirstHeaderSize + diskMetadata.ioNbytes then
    throw (.runtimeError
      s!"block-first file size {written.size} != {blockFirstHeaderSize + diskMetadata.ioNbytes}")
  return (diskMetadata, written)

/-- The contiguous source slices of the CPU writer in the order it writes them:
their addresses, each one block of one layer and half. -/
def cpuSlices (tensor : Tensor) (diskMetadata : BlockFirstDiskMetadata) : List ℤ :=
  (List.range (diskMetadata.payloadShape.getD 0 0).toNat).flatMap fun block =>
    (List.range diskMetadata.numLayers.toNat).flatMap fun layer =>
      (List.range 2).map fun kvIndex =>
        tensor.toView.address [kvIndex, layer, block * diskMetadata.blockSize.toNat, 0]

/-- `_save_cpu_block_first_xds`, with `write_all` writing all it is given. -/
def saveCpuBlockFirstXds (tensor : Tensor) (memory : Memory) :
    Except XdsError (BlockFirstDiskMetadata × FileImage) := do
  if tensor.device.type ≠ .cpu then
    throw (valueError "CPU block-first store requires a CPU MemoryObj")
  if tensor.isContiguous = false then
    throw (.blockFirstFormatError ⟨"CPU block-first source must be contiguous"⟩)
  let diskMetadata ← backend.makeBlockFirstMetadata tensor.shape tensor.dtype
  let start ← backend.headerFile diskMetadata
  let sliceNbytes := diskMetadata.blockSize * diskMetadata.hiddenDim * tensor.elementSize
  let payload := (cpuSlices tensor diskMetadata).foldl
    (fun file source => file.append memory source sliceNbytes) start
  let padded := payload.append (fun _ => 0) 0 (diskMetadata.ioNbytes - diskMetadata.payloadNbytes)
  if padded.size ≠ blockFirstHeaderSize + diskMetadata.ioNbytes then
    throw (.osError
      s!"CPU block-first file size {padded.size} != {blockFirstHeaderSize + diskMetadata.ioNbytes}")
  return (diskMetadata, padded)

/-! ### The staged reader -/

/-- `_load_block_first_xds`: the count that the driver reports and the memory
afterwards. A short read leaves the logical output alone. -/
def loadBlockFirstXds (allocate : List ℕ → DType → Device → Tensor) (staging : BlockFirstStaging)
    (file : FileImage) (diskMetadata : BlockFirstDiskMetadata) (logicalOutput : Tensor)
    (memory : Memory) : Except XdsError (ℤ × Memory) := do
  let currentMetadata ← (backend.codec.unpack (headerOf file)).mapError .blockFirstFormatError
  if currentMetadata ≠ diskMetadata then
    throw (.blockFirstFormatError ⟨"block-first header changed after indexing"⟩)
  if file.size ≠ blockFirstHeaderSize + diskMetadata.ioNbytes then
    throw (.blockFirstFormatError ⟨"block-first payload size changed after indexing"⟩)
  if staging.tensor.intShape ≠ diskMetadata.payloadShape then
    throw (.blockFirstFormatError ⟨"block-first staging shape mismatch during load"⟩)
  let answer := backend.driver.read (stagingCall staging diskMetadata) file
    (zeroStaging staging memory)
  if answer.1 ≠ diskMetadata.ioNbytes then return answer
  else
    let converted ← (blockFirstToLogical allocate staging.tensor (some logicalOutput)).mapError
      .blockFirstFormatError
    return (answer.1, writeAll answer.2 converted.2 answer.2)

end XdsBackend

end LMCacheHcu.Storage
