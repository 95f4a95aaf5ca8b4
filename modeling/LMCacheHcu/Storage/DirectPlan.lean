import LMCacheHcu.Storage.DirectIO

/-! # Planning direct transfers

The three builders translate the token slots of each chunk into a descriptor,
or name the reason why the chunk has to be staged. They share the checks of the
token ranges and the reading of whole physical blocks off the slot mapping; they
differ in the caches they accept and in how a physical block lies in them.
-/

namespace LMCacheHcu.Storage

def fallback (reason : String) : DirectIOPlan := ⟨none, some reason⟩

/-- The plans of a call that falls back for every chunk. -/
def fallbackAll (starts : List ℤ) (reason : String) : List DirectIOPlan :=
  List.replicate starts.length (fallback reason)

/-- `values[start:stop]` for positions inside the list. -/
def sliceOf (values : List ℤ) (start stop : ℤ) : List ℤ :=
  (values.drop start.toNat).take (stop - start).toNat

/-- The checks of the token ranges, made for a nonempty list of chunks. -/
def checkRanges (slotMapping starts ends : List ℤ) : Except DirectIOError Unit := do
  if starts.any (· < 0) = true ∨ (starts.zip ends).any (fun range => range.2 ≤ range.1) = true then
    throw (.valueError "direct I/O token ranges must be non-empty and non-negative")
  if ends.any (fun stop => (slotMapping.length : ℤ) < stop) = true then
    throw (.valueError "slot mapping is shorter than the requested token range")

theorem first_start_zero : ([0] : List ℤ)[0]? = some 0 := rfl

/-- The tokens of a chunk that `skip_before` leaves out. -/
def skipTokens (skipBefore start stop : ℤ) : ℤ :=
  min (stop - start) (max 0 (skipBefore - start))

/-- `slots.reshape(-1, block_size)`. -/
def slotBlocks (blockSize : ℕ) (slots : List ℤ) : List (List ℤ) :=
  (List.range (slots.length / blockSize)).map fun block =>
    (slots.drop (block * blockSize)).take blockSize

/-- The slots from `first` on of one physical block. -/
def blockSlotRange (blockSize : ℕ) (physicalBlock : ℤ) (first : ℕ) : List ℤ :=
  (List.range' first (blockSize - first)).map fun slot : ℕ => physicalBlock * blockSize + slot

/-- The physical block that a group of slots covers. -/
def physicalBlockOf (blockSize numBlocks : ℕ) (slotBlock : List ℤ) : Except String ℤ :=
  let firstSlot := slotBlock.headD 0
  let physicalBlock := firstSlot / blockSize
  if firstSlot < 0 ∨ firstSlot % blockSize ≠ 0 then
    .error "physical block does not start at slot offset zero"
  else if (numBlocks : ℤ) ≤ physicalBlock then
    .error "slot mapping references a block outside the allocation"
  else if slotBlock ≠ blockSlotRange blockSize physicalBlock 0 then
    .error "tokens do not cover one complete physical block"
  else .ok physicalBlock

/-- The same with the single reason that the asymmetric builder gives. -/
def physicalBlockOfAsymmetric (blockSize numBlocks : ℕ) (slotBlock : List ℤ) : Except String ℤ :=
  let firstSlot := slotBlock.headD 0
  let physicalBlock := firstSlot / blockSize
  if firstSlot < 0 ∨ firstSlot % blockSize ≠ 0 ∨ (numBlocks : ℤ) ≤ physicalBlock ∨
      slotBlock ≠ blockSlotRange blockSize physicalBlock 0 then
    .error "tokens do not cover one complete physical block"
  else .ok physicalBlock

/-! ### One block-first allocation -/

/-- The partially cached first block of a retrieve, if there is one. -/
def leadingEdgeOf (slotMapping : List ℤ) (blockSize numBlocks : ℕ) (start skip : ℤ) :
    Except String (Option DirectIOLeadingEdge) :=
  let edgeOffset := skip % blockSize
  if edgeOffset = 0 then .ok none
  else
    let edgeTokenCount := blockSize - edgeOffset
    let edgeSlots := sliceOf slotMapping (start + skip) (start + skip + edgeTokenCount)
    let firstSlot := edgeSlots.headD 0
    let physicalBlock := firstSlot / blockSize
    if firstSlot < 0 ∨ firstSlot % blockSize ≠ edgeOffset ∨ (numBlocks : ℤ) ≤ physicalBlock ∨
        edgeSlots ≠ blockSlotRange blockSize physicalBlock edgeOffset.toNat then
      .error "leading edge does not map one physical block"
    else
      .ok (some
        { logicalBlock := skip / blockSize
          physicalBlock := physicalBlock
          tokenOffset := edgeOffset
          tokenCount := edgeTokenCount })

/-- One step of the loop that coalesces physical blocks: extend the current
run, or close it and start the next. -/
def extendRuns (logicalStart : ℤ) (state : List DirectIOBlockRun × DirectIOBlockRun)
    (entry : ℤ × ℕ) : List DirectIOBlockRun × DirectIOBlockRun :=
  if entry.1 = state.2.physicalBlockStart + state.2.blockCount then
    (state.1, { state.2 with blockCount := state.2.blockCount + 1 })
  else (state.1 ++ [state.2], ⟨logicalStart + entry.2, entry.1, 1⟩)

/-- The runs of contiguous physical blocks. -/
def coalesceRuns (logicalStart : ℤ) (physicalBlocks : List ℤ) : List DirectIOBlockRun :=
  match physicalBlocks with
  | [] => []
  | first :: rest =>
      let state := (rest.zipIdx 1).foldl (extendRuns logicalStart) ([], ⟨logicalStart, first, 1⟩)
      state.1 ++ [state.2]

/-- The bytes of one block of a `[NB, NL, 2, BS, NH, HS]` cache. -/
def crossLayerBlockNbytes (kvCache : Tensor) : ℕ :=
  kvCache.dim 1 * kvCache.dim 2 * kvCache.dim 3 * kvCache.dim 4 * kvCache.dim 5 *
    kvCache.elementSize

/-- The descriptor of one chunk in a block-first allocation. -/
def blockFirstDescriptor (kvCache : Tensor) (direction : DirectIODirection) (blockSize : ℕ)
    (chunkTokens skip fullStart : ℤ) (leadingEdge : Option DirectIOLeadingEdge)
    (physicalBlocks : List ℤ) : DirectIODescriptor where
  direction := direction
  device := kvCache.device
  allocationBase := kvCache.dataPtr
  allocationNbytes := (kvCache.numel * kvCache.elementSize : ℕ)
  engineGroupId := 0
  blockNbytes := crossLayerBlockNbytes kvCache
  blockSize := blockSize
  logicalBlockStart := fullStart / blockSize
  logicalBlockCount := physicalBlocks.length
  validTokenStart := skip
  validTokenCount := chunkTokens - skip
  runs := coalesceRuns (fullStart / blockSize) physicalBlocks
  leadingEdge := leadingEdge
  lifetimeToken := some [kvCache]
  physicalBlockIds := physicalBlocks

/-- One iteration of the chunk loop of `build_block_first_direct_plans`. -/
def planBlockFirst (kvCache : Tensor) (slotMapping : List ℤ) (direction : DirectIODirection)
    (blockSize : ℕ) (skipBefore : ℤ) (range : ℤ × ℤ) : Except DirectIOError DirectIOPlan :=
  let start := range.1
  let stop := range.2
  let skip := if direction = .retrieve then skipTokens skipBefore start stop else 0
  if (stop - start) % blockSize ≠ 0 then .ok (fallback "chunk is not a whole number of blocks")
  else if skip = stop - start then .ok (fallback "no uncached physical blocks remain")
  else
    match leadingEdgeOf slotMapping blockSize (kvCache.dim 0) start skip with
    | .error reason => .ok (fallback reason)
    | .ok leadingEdge =>
        let fullStart := skip + (leadingEdge.elim 0 DirectIOLeadingEdge.tokenCount)
        let slots := sliceOf slotMapping (start + fullStart) stop
        if slots.length % blockSize ≠ 0 then .ok (fallback "slot range is not block aligned")
        else
          match (slotBlocks blockSize slots).mapM (physicalBlockOf blockSize (kvCache.dim 0)) with
          | .error reason => .ok (fallback reason)
          | .ok physicalBlocks => do
              let descriptor := blockFirstDescriptor kvCache direction blockSize (stop - start)
                skip fullStart leadingEdge physicalBlocks
              descriptor.validate false false
              return ⟨some descriptor, none⟩

/-- `build_block_first_direct_plans`. -/
def buildBlockFirstDirectPlans (kvCache : Tensor) (slotMapping starts ends : List ℤ)
    (direction : DirectIODirection) (blockSize : ℕ) (skipBefore : ℤ) :
    Except DirectIOError (List DirectIOPlan) :=
  if kvCache.ndim ≠ 6 ∨ kvCache.dim 2 ≠ 2 then
    .ok (fallbackAll starts "KV allocation is not [NB, NL, 2, BS, NH, HS]")
  else if kvCache.isContiguous = false then
    .ok (fallbackAll starts "KV allocation is not contiguous")
  else if blockSize = 0 ∨ kvCache.dim 3 ≠ blockSize then
    .ok (fallbackAll starts "KV block size mismatch")
  else if starts.length ≠ ends.length then
    .error (.valueError "starts and ends must have the same length")
  else do
    checkRanges slotMapping starts ends
    (starts.zip ends).mapM (planBlockFirst kvCache slotMapping direction blockSize skipBefore)

/-! ### Separate allocations for the layers -/

def storageIdentity (tensor : Tensor) : String × ℤ × ℤ :=
  (tensor.device.str, tensor.storageBase, tensor.storageNbytes)

/-- The position of a tensor's storage among the allocations, appended when it
is not there yet, and the offset of the tensor's data in it. -/
def addAllocation (allocations : List DirectIOAllocation) (tensor : Tensor) :
    List DirectIOAllocation × (ℕ × ℤ) :=
  let offset : ℤ := (tensor.dataPtr : ℤ) - tensor.storageBase
  match allocations.findIdx? fun allocation => allocation.identity = storageIdentity tensor with
  | some index => (allocations, (index, offset))
  | none =>
      (allocations ++
        [⟨tensor.device, tensor.storageBase, tensor.storageNbytes, some [tensor]⟩],
        (allocations.length, offset))

/-- The allocations of a list of tensors and each tensor's place in them. -/
def addAllocations : List DirectIOAllocation → List Tensor →
    List DirectIOAllocation × List (ℕ × ℤ)
  | allocations, [] => (allocations, [])
  | allocations, tensor :: tensors =>
      let added := addAllocation allocations tensor
      let rest := addAllocations added.1 tensors
      (rest.1, added.2 :: rest.2)

/-- The bytes of one block of one layer and half of a `[2, NB, BS, NH, HS]` cache. -/
def perLayerBlockNbytes (first : Tensor) : ℕ :=
  first.dim 2 * first.dim 3 * first.dim 4 * first.elementSize

/-- The segments of one chunk: for every block, layer and half one row of slots. -/
def perLayerSegments (numBlocks layerBlockNbytes : ℕ) (layerAllocations : List (ℕ × ℤ))
    (logicalStart : ℤ) (physicalBlocks : List ℤ) : List DirectIOByteSegment :=
  let blockNbytes := layerAllocations.length * 2 * layerBlockNbytes
  physicalBlocks.zipIdx.flatMap fun block =>
    layerAllocations.zipIdx.flatMap fun layer =>
      (List.range 2).map fun kvIndex : ℕ =>
        { fileOffset := blockFirstHeaderSize + (logicalStart + block.2) * blockNbytes +
            (layer.2 * 2 + kvIndex) * layerBlockNbytes
          allocationIndex := layer.1.1
          allocationOffset := layer.1.2 + (kvIndex * numBlocks + block.1) * layerBlockNbytes
          nbytes := layerBlockNbytes }

/-- The descriptor of one chunk made of byte segments. -/
def segmentDescriptor (device : Device) (tensors : List Tensor)
    (allocations : List DirectIOAllocation) (blockNbytes blockSize : ℕ) (chunkTokens skip : ℤ)
    (physicalBlocks : List ℤ) (segments : List DirectIOByteSegment) : DirectIODescriptor where
  direction := .retrieve
  device := device
  allocationBase := (allocations.head?.map DirectIOAllocation.base).getD 0
  allocationNbytes := (allocations.head?.map DirectIOAllocation.nbytes).getD 0
  engineGroupId := 0
  blockNbytes := blockNbytes
  blockSize := blockSize
  logicalBlockStart := skip / blockSize
  logicalBlockCount := physicalBlocks.length
  validTokenStart := skip
  validTokenCount := chunkTokens - skip
  runs := []
  lifetimeToken := some tensors
  allocations := allocations
  byteSegments := segments
  physicalBlockIds := physicalBlocks

/-- One iteration of the chunk loop of `build_per_layer_direct_plans`. -/
def planPerLayer (first : Tensor) (kvCaches : List Tensor) (slotMapping : List ℤ)
    (blockSize : ℕ) (skipBefore : ℤ) (range : ℤ × ℤ) : Except DirectIOError DirectIOPlan :=
  let start := range.1
  let stop := range.2
  let skip := skipTokens skipBefore start stop
  if blockSize = 0 then .error .zeroDivision
  else if (stop - start) % blockSize ≠ 0 then
    .ok (fallback "chunk is not a whole number of blocks")
  else if skip = stop - start then .ok (fallback "no uncached physical blocks remain")
  else if skip % blockSize ≠ 0 then
    .ok (fallback "per-layer direct retrieve does not support a partial leading block")
  else
    let slots := sliceOf slotMapping (start + skip) stop
    match (slotBlocks blockSize slots).mapM (physicalBlockOf blockSize (first.dim 1)) with
    | .error reason => .ok (fallback reason)
    | .ok physicalBlocks => do
        let registered := addAllocations [] kvCaches
        let descriptor := segmentDescriptor first.device kvCaches registered.1
          (kvCaches.length * 2 * perLayerBlockNbytes first) blockSize (stop - start) skip
          physicalBlocks (perLayerSegments (first.dim 1) (perLayerBlockNbytes first) registered.2
            (skip / blockSize) physicalBlocks)
        descriptor.validate false false
        return ⟨some descriptor, none⟩

/-- `build_per_layer_direct_plans`. -/
def buildPerLayerDirectPlans (kvCaches : List Tensor) (slotMapping starts ends : List ℤ)
    (direction : DirectIODirection) (blockSize : ℕ) (skipBefore : ℤ) :
    Except DirectIOError (List DirectIOPlan) :=
  if direction ≠ .retrieve then
    .ok (fallbackAll starts "per-layer direct I/O only supports retrieve")
  else
    match kvCaches with
    | [] => .ok (fallbackAll starts "vLLM per-layer KV cache is empty")
    | first :: _ =>
        if starts.length ≠ ends.length then
          .error (.valueError "starts and ends must have the same length")
        else do
          checkRanges slotMapping starts ends
          if first.ndim ≠ 5 ∨ first.dim 0 ≠ 2 then
            return fallbackAll starts "per-layer KV cache is not [2, NB, BS, NH, HS]"
          else if first.dim 2 ≠ blockSize then
            return fallbackAll starts "KV block size mismatch"
          else if kvCaches.any (fun tensor => decide (tensor.ndim ≠ 5 ∨
              tensor.shape ≠ first.shape ∨ tensor.dtype ≠ first.dtype ∨
              tensor.device ≠ first.device ∨ tensor.isContiguous = false)) = true then
            return fallbackAll starts "per-layer KV allocations are non-uniform or non-contiguous"
          else
            (starts.zip ends).mapM (planPerLayer first kvCaches slotMapping blockSize skipBefore)

/-! ### Separate key and value caches -/

/-- The places of the key and the value cache of every layer, registered in this order. -/
def addPairs : List DirectIOAllocation → List (Tensor × Tensor) →
    List DirectIOAllocation × List ((ℕ × ℤ) × (ℕ × ℤ))
  | allocations, [] => (allocations, [])
  | allocations, (keyCache, valueCache) :: kvCaches =>
      let key := addAllocation allocations keyCache
      let value := addAllocation key.1 valueCache
      let rest := addPairs value.1 kvCaches
      (rest.1, (key.2, value.2) :: rest.2)

/-- Append a head vector, or extend the last segment when it ends where the
vector starts in the file and in the same allocation. -/
def appendSegment (segments : List DirectIOByteSegment) (segment : DirectIOByteSegment) :
    List DirectIOByteSegment :=
  match segments.getLast? with
  | none => [segment]
  | some previous =>
      if previous.allocationIndex = segment.allocationIndex ∧
          previous.fileOffset + previous.nbytes = segment.fileOffset ∧
          previous.allocationOffset + previous.nbytes = segment.allocationOffset then
        segments.dropLast ++ [{ previous with nbytes := previous.nbytes + segment.nbytes }]
      else segments ++ [segment]

/-- The bytes of one block of one layer and half of `K=[NB, NH, BS, HS]`. -/
def asymmetricBlockNbytes (firstKey : Tensor) (blockSize : ℕ) : ℕ :=
  blockSize * firstKey.dim 1 * (firstKey.dim 3 * firstKey.elementSize)

/-- The head vectors of one block of one cache; `tokenDim` is the dimension of
the cache that counts the tokens of a block. -/
def blockHeadVectors (cache : Tensor) (place : ℕ × ℤ)
    (tokenDim blockSize numHeads headSize elementSize : ℕ) (regionOffset physicalBlock : ℤ) :
    List DirectIOByteSegment :=
  (List.range blockSize).flatMap fun tokenOffset : ℕ =>
    (List.range numHeads).map fun headIndex : ℕ =>
      { fileOffset := regionOffset +
          (tokenOffset * numHeads + headIndex) * (headSize * elementSize : ℕ)
        allocationIndex := place.1
        allocationOffset := place.2 + (physicalBlock * cache.strideOf 0 +
          headIndex * cache.strideOf 1 + tokenOffset * cache.strideOf tokenDim) * elementSize
        nbytes := (headSize * elementSize : ℕ) }

/-- The head vectors of one chunk in the order of the file. -/
def headVectors (firstKey : Tensor) (kvCaches : List (Tensor × Tensor))
    (places : List ((ℕ × ℤ) × (ℕ × ℤ))) (blockSize : ℕ) (logicalStart : ℤ)
    (physicalBlocks : List ℤ) : List DirectIOByteSegment :=
  let layerBlockNbytes := asymmetricBlockNbytes firstKey blockSize
  physicalBlocks.zipIdx.flatMap fun block =>
    (kvCaches.zip places).zipIdx.flatMap fun layer =>
      let regionOffset (kvIndex : ℕ) : ℤ := blockFirstHeaderSize +
        (logicalStart + block.2) * (kvCaches.length * 2 * layerBlockNbytes : ℕ) +
        (layer.2 * 2 + kvIndex) * layerBlockNbytes
      blockHeadVectors layer.1.1.1 layer.1.2.1 2 blockSize (firstKey.dim 1) (firstKey.dim 3)
          firstKey.elementSize (regionOffset 0) block.1 ++
        blockHeadVectors layer.1.1.2 layer.1.2.2 3 blockSize (firstKey.dim 1) (firstKey.dim 3)
          firstKey.elementSize (regionOffset 1) block.1

/-- The tensors of the caches, in the order of the layers. -/
def pairTensors (kvCaches : List (Tensor × Tensor)) : List Tensor :=
  kvCaches.flatMap fun pair => [pair.1, pair.2]

/-- One iteration of the chunk loop of `build_asymmetric_per_layer_direct_plans`. -/
def planAsymmetric (firstKey : Tensor) (kvCaches : List (Tensor × Tensor)) (slotMapping : List ℤ)
    (blockSize : ℕ) (skipBefore : ℤ) (range : ℤ × ℤ) : Except DirectIOError DirectIOPlan :=
  let start := range.1
  let stop := range.2
  let skip := skipTokens skipBefore start stop
  if blockSize = 0 then .error .zeroDivision
  else if (stop - start) % blockSize ≠ 0 then
    .ok (fallback "chunk is not a whole number of blocks")
  else if skip = stop - start then .ok (fallback "no uncached physical blocks remain")
  else if skip % blockSize ≠ 0 then
    .ok (fallback "asymmetric direct retrieve does not support a partial leading block")
  else
    let slots := sliceOf slotMapping (start + skip) stop
    match (slotBlocks blockSize slots).mapM
        (physicalBlockOfAsymmetric blockSize (firstKey.dim 0)) with
    | .error reason => .ok (fallback reason)
    | .ok physicalBlocks =>
        let registered := addPairs [] kvCaches
        let segments := (headVectors firstKey kvCaches registered.2 blockSize (skip / blockSize)
          physicalBlocks).foldl appendSegment []
        let descriptor := segmentDescriptor firstKey.device (pairTensors kvCaches) registered.1
          (kvCaches.length * 2 * asymmetricBlockNbytes firstKey blockSize) blockSize (stop - start)
          skip physicalBlocks segments
        match descriptor.validate false true with
        | .error (.valueError message) => .ok (fallback message)
        | .error failure => .error failure
        | .ok () => .ok ⟨some descriptor, none⟩

/-- `build_asymmetric_per_layer_direct_plans`. -/
def buildAsymmetricPerLayerDirectPlans (kvCaches : List (Tensor × Tensor))
    (slotMapping starts ends : List ℤ) (direction : DirectIODirection) (blockSize : ℕ)
    (skipBefore : ℤ) : Except DirectIOError (List DirectIOPlan) :=
  if direction ≠ .retrieve then
    .ok (fallbackAll starts "asymmetric per-layer direct I/O only supports retrieve")
  else
    match kvCaches with
    | [] => .ok (fallbackAll starts "asymmetric per-layer KV cache is empty")
    | (firstKey, firstValue) :: _ =>
        if starts.length ≠ ends.length then
          .error (.valueError "starts and ends must have the same length")
        else do
          checkRanges slotMapping starts ends
          let expectedValueShape := [firstKey.dim 0, firstKey.dim 1, firstKey.dim 3, blockSize]
          if firstKey.ndim ≠ 4 ∨ firstValue.ndim ≠ 4 ∨ firstKey.dim 2 ≠ blockSize ∨
              firstValue.dim 3 ≠ blockSize then
            return fallbackAll starts
              "asymmetric KV cache is not K=[NB, NH, BS, HS], V=[NB, NH, HS, BS]"
          else if firstValue.shape ≠ expectedValueShape then
            return fallbackAll starts "asymmetric K/V cache shapes do not match"
          else if firstKey.dtype ≠ firstValue.dtype ∨ firstKey.device ≠ firstValue.device ∨
              firstKey.strideOf 3 ≠ 1 ∨ firstValue.strideOf 2 ≠ 1 then
            return fallbackAll starts
              "asymmetric K/V cache head vectors are not contiguous in storage"
          else if kvCaches.any (fun pair => decide (pair.1.ndim ≠ 4 ∨ pair.2.ndim ≠ 4 ∨
              pair.1.shape ≠ firstKey.shape ∨ pair.2.shape ≠ expectedValueShape ∨
              pair.1.dtype ≠ firstKey.dtype ∨ pair.2.dtype ≠ firstKey.dtype ∨
              pair.1.device ≠ firstKey.device ∨ pair.2.device ≠ firstKey.device ∨
              pair.1.strideOf 3 ≠ 1 ∨ pair.2.strideOf 2 ≠ 1)) = true then
            return fallbackAll starts
              "asymmetric per-layer K/V allocations are non-uniform or unsupported"
          else
            (starts.zip ends).mapM (planAsymmetric firstKey kvCaches slotMapping blockSize skipBefore)

end LMCacheHcu.Storage
