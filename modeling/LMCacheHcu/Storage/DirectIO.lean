import LMCacheHcu.Foundation.Checked
import LMCacheHcu.Storage.BlockFirstDisk
import Mathlib.Data.List.Sort

/-! # Descriptors of direct storage I/O

A descriptor maps the blocks of one block-first file to device memory: as runs
of whole blocks of one allocation, or as byte segments of several. `validate`
is the check that every descriptor passes before it is used.
-/

namespace LMCacheHcu.Storage

inductive DirectIODirection
  | store
  | retrieve
deriving DecidableEq, Repr

/-- One range contiguous in both the file and the device allocation. -/
structure DirectIOBlockRun where
  logicalBlockStart : ℤ
  physicalBlockStart : ℤ
  blockCount : ℤ
deriving DecidableEq, Repr

/-- The uncached suffix of one physical block. -/
structure DirectIOLeadingEdge where
  logicalBlock : ℤ
  physicalBlock : ℤ
  tokenOffset : ℤ
  tokenCount : ℤ
deriving DecidableEq, Repr

/-- One registered device allocation. The lifetime token is the tensors it retains. -/
structure DirectIOAllocation where
  device : Device
  base : ℤ
  nbytes : ℤ
  lifetimeToken : Option (List Tensor)
deriving DecidableEq

/-- One file range mapped into one registered allocation. -/
structure DirectIOByteSegment where
  fileOffset : ℤ
  allocationIndex : ℤ
  allocationOffset : ℤ
  nbytes : ℤ
deriving DecidableEq, Repr

/-- `DirectIODescriptor`. -/
structure DirectIODescriptor where
  direction : DirectIODirection
  device : Device
  allocationBase : ℤ
  allocationNbytes : ℤ
  engineGroupId : ℤ
  blockNbytes : ℤ
  blockSize : ℤ
  logicalBlockStart : ℤ
  logicalBlockCount : ℤ
  validTokenStart : ℤ
  validTokenCount : ℤ
  runs : List DirectIOBlockRun
  leadingEdge : Option DirectIOLeadingEdge := none
  filePayloadOffset : ℤ := blockFirstHeaderSize
  synchronous : Bool := true
  lifetimeToken : Option (List Tensor) := none
  allocations : List DirectIOAllocation := []
  byteSegments : List DirectIOByteSegment := []
  physicalBlockIds : List ℤ := []
deriving DecidableEq

/-- The exceptions of the direct I/O code. -/
inductive DirectIOError
  | valueError (message : String)
  | zeroDivision
deriving DecidableEq, Repr

/-- How torch prints a device. -/
def Device.str (device : Device) : String :=
  let kind := match device.type with
    | .cpu => "cpu"
    | .cuda => "cuda"
    | .metaOnly => "meta"
  match device.index with
  | none => kind
  | some index => s!"{kind}:{index}"

/-- What a registration is recognised by. -/
def DirectIOAllocation.identity (allocation : DirectIOAllocation) : String × ℤ × ℤ :=
  (allocation.device.str, allocation.base, allocation.nbytes)

namespace DirectIODescriptor

variable (descriptor : DirectIODescriptor)

/-- The allocations to register: the listed ones, or the descriptor's own. -/
def registrationAllocations : List DirectIOAllocation :=
  if descriptor.allocations.isEmpty then
    [⟨descriptor.device, descriptor.allocationBase, descriptor.allocationNbytes,
      descriptor.lifetimeToken⟩]
  else descriptor.allocations

def transferredNbytes : ℤ :=
  if descriptor.byteSegments.isEmpty then descriptor.logicalBlockCount * descriptor.blockNbytes
  else (descriptor.byteSegments.map DirectIOByteSegment.nbytes).sum

/-- The checks of one allocation of a byte-segment descriptor. -/
def validateAllocation (requireCuda requireAlignment : Bool) (allocation : DirectIOAllocation) :
    Except DirectIOError Unit := do
  if requireCuda = true ∧ allocation.device.type ≠ .cuda then
    throw (.valueError ("direct I/O requires CUDA allocations, got " ++ allocation.device.str))
  if allocation.device ≠ descriptor.device then
    throw (.valueError "direct I/O allocations must use one device")
  if allocation.base ≤ 0 ∨ allocation.nbytes ≤ 0 then
    throw (.valueError "direct I/O allocation range must be positive")
  if allocation.lifetimeToken.isNone = true then
    throw (.valueError "direct I/O allocation must retain its lifetime")
  if requireAlignment = true ∧ (allocation.base % blockFirstAlignment ≠ 0 ∨
      allocation.nbytes % blockFirstAlignment ≠ 0) then
    throw (.valueError "direct I/O allocation is not 4 KiB aligned")

/-- The checks of one segment, given the file offset where it has to start;
the answer is where the next one has to. -/
def validateSegment (requireAlignment : Bool) (expectedFileOffset : ℤ)
    (segment : DirectIOByteSegment) : Except DirectIOError ℤ := do
  if segment.fileOffset ≠ expectedFileOffset then
    throw (.valueError "direct I/O byte segments do not exactly cover the file")
  if segment.allocationIndex < 0 ∨
      (descriptor.allocations.length : ℤ) ≤ segment.allocationIndex then
    throw (.valueError "direct I/O segment references an unknown allocation")
  if segment.allocationOffset < 0 ∨ segment.nbytes ≤ 0 ∨
      ((descriptor.allocations[segment.allocationIndex.toNat]?).any fun allocation =>
        decide (allocation.nbytes < segment.allocationOffset + segment.nbytes)) = true then
    throw (.valueError "direct I/O segment exceeds its registered allocation")
  if requireAlignment = true ∧ (segment.fileOffset % blockFirstAlignment ≠ 0 ∨
      segment.allocationOffset % blockFirstAlignment ≠ 0 ∨
      segment.nbytes % blockFirstAlignment ≠ 0) then
    throw (.valueError "direct I/O byte segment is not 4 KiB aligned")
  return expectedFileOffset + segment.nbytes

/-- `_validate_byte_segments`. -/
def validateByteSegments (requireCuda requireAlignment : Bool) : Except DirectIOError Unit := do
  if descriptor.direction ≠ .retrieve then
    throw (.valueError "byte-segment direct I/O only supports retrieve")
  if descriptor.runs ≠ [] ∨ descriptor.leadingEdge ≠ none then
    throw (.valueError "byte-segment direct I/O cannot contain block runs or edges")
  if descriptor.allocations = [] ∨ descriptor.byteSegments = [] then
    throw (.valueError "byte-segment direct I/O requires allocations and segments")
  if descriptor.validTokenStart ≠ descriptor.logicalBlockStart * descriptor.blockSize then
    throw (.valueError "byte-segment direct I/O requires a block-aligned token start")
  if descriptor.validTokenCount ≠ descriptor.logicalBlockCount * descriptor.blockSize then
    throw (.valueError "byte-segment direct I/O token count is inconsistent")
  descriptor.allocations.forM (descriptor.validateAllocation requireCuda requireAlignment)
  let sorted := descriptor.byteSegments.insertionSort fun before after =>
    before.fileOffset ≤ after.fileOffset
  let reached ← sorted.foldlM (descriptor.validateSegment requireAlignment)
    (descriptor.filePayloadOffset + descriptor.logicalBlockStart * descriptor.blockNbytes)
  if reached ≠ descriptor.filePayloadOffset +
      (descriptor.logicalBlockStart + descriptor.logicalBlockCount) * descriptor.blockNbytes then
    throw (.valueError "direct I/O byte segments do not cover the declared blocks")

/-- The checks of one run, given the logical block where it has to start and
the blocks before it; the answer is the same for the next run. -/
def validateRun (reached : ℤ × ℤ) (run : DirectIOBlockRun) : Except DirectIOError (ℤ × ℤ) := do
  if run.logicalBlockStart ≠ reached.1 ∨ run.physicalBlockStart < 0 ∨ run.blockCount ≤ 0 then
    throw (.valueError "direct I/O runs are invalid or not logically contiguous")
  if descriptor.allocationNbytes / descriptor.blockNbytes <
      run.physicalBlockStart + run.blockCount then
    throw (.valueError "direct I/O run exceeds the registered allocation")
  return (reached.1 + run.blockCount, reached.2 + run.blockCount)

/-- The checks of the leading edge; the answer is the expected number of tokens. -/
def validateEdge (edge : DirectIOLeadingEdge) : Except DirectIOError ℤ := do
  if descriptor.direction ≠ .retrieve then
    throw (.valueError "only direct retrieve can contain a leading edge")
  if edge.logicalBlock < 0 ∨ edge.physicalBlock < 0 ∨
      descriptor.allocationNbytes / descriptor.blockNbytes ≤ edge.physicalBlock ∨
      edge.tokenOffset ≤ 0 ∨ descriptor.blockSize ≤ edge.tokenOffset ∨
      edge.tokenCount ≠ descriptor.blockSize - edge.tokenOffset then
    throw (.valueError "direct I/O leading edge is invalid")
  if descriptor.logicalBlockStart ≠ edge.logicalBlock + 1 then
    throw (.valueError "direct I/O full runs must follow the leading edge")
  if descriptor.validTokenStart ≠
      edge.logicalBlock * descriptor.blockSize + edge.tokenOffset then
    throw (.valueError "valid token start does not match the leading edge")
  return edge.tokenCount + descriptor.logicalBlockCount * descriptor.blockSize

/-- The values that have to be multiples of 4 KiB, by their names in the message. -/
def alignedFields : List (String × ℤ) :=
  [("allocation base", descriptor.allocationBase),
    ("allocation size", descriptor.allocationNbytes),
    ("block bytes", descriptor.blockNbytes),
    ("file payload offset", descriptor.filePayloadOffset)]

/-- The checks of a descriptor made of runs. -/
def validateRuns (requireAlignment : Bool) : Except DirectIOError Unit := do
  let reached ← descriptor.runs.foldlM descriptor.validateRun (descriptor.logicalBlockStart, 0)
  if reached.2 ≠ descriptor.logicalBlockCount then
    throw (.valueError "direct I/O runs do not cover the declared logical range")
  if (!descriptor.runs.isEmpty) ≠ decide (0 < descriptor.logicalBlockCount) then
    throw (.valueError "direct I/O runs do not match the declared block count")
  let expectedValidTokens ← match descriptor.leadingEdge with
    | none =>
        if descriptor.validTokenStart ≠ descriptor.logicalBlockStart * descriptor.blockSize then
          throw (.valueError "valid token start does not match the logical block range")
        else pure (descriptor.logicalBlockCount * descriptor.blockSize)
    | some edge => descriptor.validateEdge edge
  if descriptor.validTokenCount ≠ expectedValidTokens then
    throw (.valueError "valid token count does not match the direct I/O ranges")
  if requireAlignment then
    descriptor.alignedFields.forM fun field =>
      if field.2 % blockFirstAlignment ≠ 0 then
        throw (.valueError s!"direct I/O {field.1} is not 4 KiB aligned: {field.2}")
      else pure ()

/-- `validate`. -/
def validate (requireCuda requireAlignment : Bool) : Except DirectIOError Unit := do
  if requireCuda = true ∧ descriptor.device.type ≠ .cuda then
    throw (.valueError ("direct I/O requires a CUDA allocation, got " ++ descriptor.device.str))
  if descriptor.allocationBase ≤ 0 ∨ descriptor.allocationNbytes ≤ 0 then
    throw (.valueError "direct I/O allocation address and size must be positive")
  if descriptor.engineGroupId < 0 then
    throw (.valueError "engine_group_id must be non-negative")
  if descriptor.blockNbytes ≤ 0 ∨ descriptor.blockSize ≤ 0 then
    throw (.valueError "direct I/O block sizes must be positive")
  if descriptor.logicalBlockStart < 0 ∨ descriptor.logicalBlockCount < 0 then
    throw (.valueError "direct I/O logical block range is invalid")
  if descriptor.logicalBlockCount = 0 ∧ descriptor.leadingEdge = none then
    throw (.valueError "direct I/O descriptor has no transferable blocks")
  if descriptor.lifetimeToken.isNone = true then
    throw (.valueError "direct I/O descriptor must hold its allocation lifetime")
  if descriptor.synchronous = false then
    throw (.valueError "0.4.2 direct I/O only supports synchronous completion")
  if descriptor.filePayloadOffset ≠ blockFirstHeaderSize then
    throw (.valueError "unexpected block_first_v1 payload offset")
  if descriptor.byteSegments.isEmpty then descriptor.validateRuns requireAlignment
  else descriptor.validateByteSegments requireCuda requireAlignment

end DirectIODescriptor

/-- `DirectIOPlan`. -/
structure DirectIOPlan where
  descriptor : Option DirectIODescriptor
  fallbackReason : Option String := none
deriving DecidableEq

end LMCacheHcu.Storage
