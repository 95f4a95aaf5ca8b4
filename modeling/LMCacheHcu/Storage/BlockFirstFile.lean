import LMCacheHcu.Storage.CrossLayerPlan

/-! # The files that the three writers publish

The staged writer converts the chunk as one tensor and writes it in one call, the
CPU writer appends slice after slice, and the direct writer follows the runs of a
descriptor. Each publishes the header, and behind it the chunk in block-first
order.
-/

namespace LMCacheHcu.Storage

open RowMajor ByteCopy

/-- The file has the header of the metadata and the chunk as its payload, and
the metadata has the extents of the chunk. -/
structure Publishes (backend : XdsBackend) (shape : ChunkShape) (chunk : Chunk)
    (diskMetadata : BlockFirstDiskMetadata) (file : FileImage) : Prop where
  payload : shape.HoldsPayload file.content blockFirstHeaderSize chunk
  header : backend.codec.unpack (XdsBackend.headerOf file) = .ok diskMetadata
  size : file.size = blockFirstHeaderSize + diskMetadata.ioNbytes
  logicalShape : diskMetadata.logicalShape = shape.logicalDims.map Int.ofNat
  payloadShape : diskMetadata.payloadShape = shape.payloadDims.map Int.ofNat
  payloadNbytes : diskMetadata.payloadNbytes = shape.payloadNbytes
  ioNbytes : diskMetadata.payloadNbytes ≤ diskMetadata.ioNbytes
  dtype : ∃ dtype, parseDtype diskMetadata.dtype = .ok dtype ∧ dtype.itemsize = shape.itemsize

/-! ### Metadata and header -/

section Metadata

variable {backend : XdsBackend} {shape : ChunkShape} {diskMetadata : BlockFirstDiskMetadata}

/-- The metadata created for the logical shape of a chunk has its extents. -/
theorem extents_of_createdFor {dtype : DType}
    (created : CreatedFor diskMetadata shape.logicalDims dtype shape.blockSize)
    (size : dtype.itemsize = shape.itemsize) :
    diskMetadata.payloadShape = shape.payloadDims.map Int.ofNat ∧
      diskMetadata.payloadNbytes = shape.payloadNbytes ∧
      diskMetadata.payloadNbytes ≤ diskMetadata.ioNbytes := by
  refine ⟨payloadDims_of_blockFirstShape created.payloadShape, ?_, (alignUp_ok created.ioNbytes).2.1⟩
  rw [created.payloadNbytes, size]
  simp only [ChunkShape.logicalDims, ChunkShape.numTokens, List.map_cons, List.map_nil,
    List.prod_cons, List.prod_nil, Int.ofNat_eq_natCast, ChunkShape.payloadNbytes,
    ChunkShape.blockNbytes, ChunkShape.layerBlockNbytes, ChunkShape.rowNbytes]
  push_cast
  ring

/-- A new file has the header's size, and a later file with the same first bytes
has the same header. -/
theorem headerFile_spec {start : FileImage} (made : backend.headerFile diskMetadata = .ok start) :
    start.size = blockFirstHeaderSize ∧
      ∀ file : FileImage, (∀ position, position < blockFirstHeaderSize →
        file.content position = start.content position) →
          backend.codec.unpack (XdsBackend.headerOf file) = .ok diskMetadata := by
  simp only [XdsBackend.headerFile, Checked.bind_ok, Checked.mapError_ok, Checked.return_ok] at made
  obtain ⟨header, packed, rfl⟩ := made
  have length := backend.codec.length_pack diskMetadata header packed
  have whole : header.length = blockFirstHeaderSize.toNat := by
    rw [← length, Int.toNat_natCast]
  constructor
  · simp [FileImage.append, FileImage.pwrite, FileImage.empty, length, blockFirstHeaderSize]
  · intro file same
    have bytes : XdsBackend.headerOf file = header := by
      apply List.ext_getElem
      · rw [XdsBackend.headerOf, List.length_map, List.length_range, whole]
      · intro position inside inside'
        simp only [XdsBackend.headerOf, List.getElem_map, List.getElem_range]
        have covers : Copy.Covers ⟨0, FileImage.empty.size, header.length⟩ (position : ℤ) := by
          simp only [Copy.Covers, FileImage.empty]
          omega
        rw [same position (by rw [← length]; omega)]
        refine (if_pos covers).trans ?_
        simp only [Copy.origin, FileImage.empty, zero_add, sub_zero, Int.toNat_natCast]
        rw [List.getD_eq_getElem?_getD, List.getElem?_eq_getElem inside', Option.getD_some]
    rw [bytes]
    exact backend.codec.unpack_pack diskMetadata header packed

end Metadata

/-! ### The staged writer -/

/-- A completed staged store of a chunk that is in a tensor apart from the
staging allocation. -/
structure StagedStore (backend : XdsBackend) (shape : ChunkShape) (chunk : Chunk) where
  allocate : List ℕ → DType → Device → Tensor
  staging : BlockFirstStaging
  logical : Tensor
  memory : Memory
  dims : logical.shape = shape.logicalDims
  itemsize : logical.elementSize = shape.itemsize
  blocks : backend.metadata.blockSize = shape.blockSize
  apart : (logical.dataPtr : ℤ) + logical.numel * logical.elementSize ≤ staging.basePointer ∨
    (staging.basePointer : ℤ) + staging.nbytes ≤ logical.dataPtr
  held : shape.HoldsLogical memory logical.dataPtr chunk
  diskMetadata : BlockFirstDiskMetadata
  file : FileImage
  saved : backend.saveBlockFirstXds allocate staging logical memory = .ok (diskMetadata, file)

namespace StagedStore

variable {backend : XdsBackend} {shape : ChunkShape} {chunk : Chunk}
  (store : StagedStore backend shape chunk)

/-- Zeroing the staging allocation leaves the chunk as it is. -/
theorem held_zeroed : shape.HoldsLogical (XdsBackend.zeroStaging store.staging store.memory)
    store.logical.dataPtr chunk := by
  intro half layer token low halfIn layerIn tokenIn lowIn
  have inside : shape.logicalPosition half layer token low <
      store.logical.numel * store.logical.elementSize := by
    have extent : store.logical.numel * store.logical.elementSize =
        2 * shape.numLayers * shape.numTokens * shape.rowNbytes := by
      rw [Tensor.numel, store.dims, store.itemsize]
      simp only [ChunkShape.logicalDims, List.prod_cons, List.prod_nil, ChunkShape.rowNbytes]
      ring
    rw [extent]
    exact digit_lt (digit_lt (digit_lt halfIn layerIn) tokenIn) lowIn
  rw [← store.held half layer token low halfIn layerIn tokenIn lowIn]
  refine if_neg ?_
  have apart := store.apart
  simp only [Copy.Covers]
  have cast : (shape.logicalPosition half layer token low : ℤ) <
      store.logical.numel * store.logical.elementSize := by exact_mod_cast inside
  omega

theorem publishes : Publishes backend shape chunk store.diskMetadata store.file := by
  have saved := store.saved
  simp only [XdsBackend.saveBlockFirstXds, Checked.bind_ok, Checked.throw_bind, Checked.check_ok,
    Checked.return_ok, Checked.mapError_ok, Prod.mk.injEq, not_not, Prod.exists] at saved
  obtain ⟨diskMetadata, made, start, header, _, result, copies, converted, written, write, size,
    rfl, rfl⟩ := saved
  have created := createdFor_of_create (Checked.mapError_ok.mp made)
  rw [store.dims, store.blocks] at created
  obtain ⟨payloadShape, payloadNbytes, ioNbytes⟩ := extents_of_createdFor created store.itemsize
  have content := backend.writeCall_ok write
  obtain ⟨_, unpacked⟩ := headerFile_spec header
  rw [store.blocks] at converted
  obtain rfl := logicalToBlockFirst_out converted
  have converted' := holdsPayload_of_logicalToBlockFirst store.dims store.itemsize
    store.staging.contiguous converted
    (XdsBackend.zeroStaging store.staging store.memory) store.held_zeroed
  refine ⟨?_, unpacked _ ?_, size, created.logicalShape_eq, payloadShape, payloadNbytes, ioNbytes,
    ⟨store.logical.dtype, by rw [created.dtype_eq, parseDtype_name], store.itemsize⟩⟩
  · intro block layer half slot low blockIn layerIn halfIn slotIn lowIn
    have inside := shape.payloadPosition_lt blockIn layerIn halfIn slotIn lowIn
    have covers : Copy.Covers (XdsBackend.stagingCall store.staging store.diskMetadata).writeCopy
        (blockFirstHeaderSize + (shape.payloadPosition block layer half slot low : ℤ)) := by
      simp only [Copy.Covers, XdsCall.writeCopy, XdsBackend.stagingCall]
      omega
    rw [content]
    refine (if_pos covers).trans ?_
    rw [← converted' block layer half slot low blockIn layerIn halfIn slotIn lowIn]
    refine congrArg _ ?_
    simp only [Copy.origin, XdsCall.writeCopy, XdsBackend.stagingCall, store.staging.placed]
    push_cast
    ring
  · intro position before
    rw [content]
    refine if_neg ?_
    simp only [Copy.Covers, XdsCall.writeCopy, XdsBackend.stagingCall]
    omega

end StagedStore

/-! ### The CPU writer -/

/-- Appending ranges of one size puts range number `index` at `index` times that
size behind the first. -/
theorem foldl_append (memory : Memory) (size : ℕ) (sources : List ℤ) (base : ℤ) (reached : ℕ)
    (file : FileImage) (reach : file.size = base + reached * size) :
    let final := sources.foldl (fun file source => file.append memory source size) file
    final.size = base + (reached + sources.length : ℕ) * size ∧
      final.content = writeAll memory ((sources.zipIdx reached).map fun entry =>
        ⟨entry.1, base + entry.2 * size, size⟩) file.content := by
  induction sources generalizing reached file with
  | nil => exact ⟨by simpa using reach, rfl⟩
  | cons source sources ih =>
      have next : (file.append memory source size).size = base + (reached + 1 : ℕ) * size := by
        have grown : file.size ≤ file.size + size := by omega
        rw [FileImage.append, FileImage.pwrite, max_eq_right grown, reach]
        push_cast
        ring
      obtain ⟨length, content⟩ := ih (reached + 1) _ next
      refine ⟨?_, ?_⟩
      · rw [List.foldl_cons, length, List.length_cons]
        push_cast
        ring
      · rw [List.foldl_cons, content, List.zipIdx_cons, List.map_cons, writeAll_cons, ← reach]
        rfl

/-- In ranges that follow each other, an address is covered by its own only. -/
theorem covers_slice (src base : ℤ) {size index index' rest : ℕ} (inside : rest < size) :
    Copy.Covers ⟨src, base + index * size, size⟩ (base + ((index' * size + rest : ℕ) : ℤ)) ↔
      index = index' := by
  simp only [Copy.Covers]
  constructor
  · rintro ⟨above, below⟩
    obtain ⟨low, lowEq⟩ : ∃ low : ℕ, index' * size + rest = index * size + low :=
      ⟨index' * size + rest - index * size, by zify at *; omega⟩
    have lowIn : low < size := by
      zify at *
      omega
    exact (digit_inj inside lowIn lowEq).1.symm
  · rintro rfl
    push_cast
    omega

/-- A completed CPU store of a chunk. -/
structure CpuStore (backend : XdsBackend) (shape : ChunkShape) (chunk : Chunk) where
  tensor : Tensor
  memory : Memory
  dims : tensor.shape = shape.logicalDims
  itemsize : tensor.elementSize = shape.itemsize
  blocks : backend.metadata.blockSize = shape.blockSize
  held : shape.HoldsLogical memory tensor.dataPtr chunk
  diskMetadata : BlockFirstDiskMetadata
  file : FileImage
  saved : backend.saveCpuBlockFirstXds tensor memory = .ok (diskMetadata, file)

namespace CpuStore

variable {backend : XdsBackend} {shape : ChunkShape} {chunk : Chunk}

/-- The slices are in the order of the payload. -/
theorem getElem?_cpuSlices {diskMetadata : BlockFirstDiskMetadata} (tensor : Tensor)
    (payloadShape : diskMetadata.payloadShape = shape.payloadDims.map Int.ofNat)
    (layers : diskMetadata.numLayers = shape.numLayers)
    (size : diskMetadata.blockSize = shape.blockSize) {block layer half : ℕ}
    (blockIn : block < shape.chunkBlocks) (layerIn : layer < shape.numLayers) (halfIn : half < 2) :
    (XdsBackend.cpuSlices tensor diskMetadata)[block * (shape.numLayers * 2) +
        (layer * 2 + half)]? =
      some (tensor.toView.address [half, layer, block * shape.blockSize, 0]) := by
  have blocks : (diskMetadata.payloadShape.getD 0 0).toNat = shape.chunkBlocks := by
    rw [payloadShape]
    rfl
  simp only [XdsBackend.cpuSlices, blocks, layers, size, Int.toNat_natCast]
  rw [getElem?_flatMap_range _ _ (shape.numLayers * 2) (by simp [List.length_flatMap]) blockIn
    (digit_lt layerIn halfIn), getElem?_flatMap_range _ _ 2 (by simp) layerIn halfIn,
    List.getElem?_map, List.getElem?_range halfIn]
  rfl

theorem length_cpuSlices {diskMetadata : BlockFirstDiskMetadata} (tensor : Tensor)
    (payloadShape : diskMetadata.payloadShape = shape.payloadDims.map Int.ofNat)
    (layers : diskMetadata.numLayers = shape.numLayers) :
    (XdsBackend.cpuSlices tensor diskMetadata).length =
      shape.chunkBlocks * (shape.numLayers * 2) := by
  have blocks : (diskMetadata.payloadShape.getD 0 0).toNat = shape.chunkBlocks := by
    rw [payloadShape]
    rfl
  rw [XdsBackend.cpuSlices, blocks]
  simp [List.length_flatMap, layers]

variable (store : CpuStore backend shape chunk)

/-- The rows of a block follow each other in the logical tensor. -/
theorem slice_byte (contiguous : store.tensor.isContiguous = true) {block layer half slot low : ℕ}
    (blockIn : block < shape.chunkBlocks) (layerIn : layer < shape.numLayers) (halfIn : half < 2)
    (slotIn : slot < shape.blockSize) (lowIn : low < shape.rowNbytes) :
    store.memory (store.tensor.toView.address [half, layer, block * shape.blockSize, 0] +
        ((slot * shape.rowNbytes + low : ℕ) : ℤ)) =
      chunk half layer (block * shape.blockSize + slot) low := by
  have firstIn : block * shape.blockSize + 0 < shape.numTokens :=
    digit_lt blockIn (Nat.zero_lt_of_lt slotIn)
  have hidden : 0 < shape.hiddenDim :=
    Nat.pos_of_mul_pos_right (Nat.zero_lt_of_lt lowIn)
  obtain ⟨_, place⟩ := logical_address store.dims store.itemsize contiguous halfIn layerIn
    firstIn hidden 0
  rw [← store.held half layer _ low halfIn layerIn (digit_lt blockIn slotIn) lowIn]
  refine congrArg store.memory ?_
  simp only [Nat.cast_zero, add_zero, Nat.zero_mul] at place
  rw [place]
  simp only [ChunkShape.logicalPosition]
  push_cast
  ring

/-- The appended slices hold the chunk in block-first order. -/
theorem slices_hold (contiguous : store.tensor.isContiguous = true)
    {slices : List ℤ} (listed : ∀ block layer half, block < shape.chunkBlocks →
      layer < shape.numLayers → half < 2 →
        slices[block * (shape.numLayers * 2) + (layer * 2 + half)]? =
          some (store.tensor.toView.address [half, layer, block * shape.blockSize, 0]))
    (base : ℤ) (before : Memory) :
    shape.HoldsPayload (writeAll store.memory (slices.zipIdx.map fun entry =>
      ⟨entry.1, base + entry.2 * shape.layerBlockNbytes, shape.layerBlockNbytes⟩) before) base
      chunk := by
  intro block layer half slot low blockIn layerIn halfIn slotIn lowIn
  have inSlice : slot * shape.rowNbytes + low < shape.layerBlockNbytes := digit_lt slotIn lowIn
  have place : shape.payloadPosition block layer half slot low =
      (block * (shape.numLayers * 2) + (layer * 2 + half)) * shape.layerBlockNbytes +
        (slot * shape.rowNbytes + low) := by
    simp only [ChunkShape.payloadPosition, ChunkShape.blockNbytes, ChunkShape.blockPosition]
    ring
  have here := listed block layer half blockIn layerIn halfIn
  have byte := store.slice_byte contiguous blockIn layerIn halfIn slotIn lowIn
  rw [place]
  generalize block * (shape.numLayers * 2) + (layer * 2 + half) = number at here
  have moves : ∀ from', Moves (slices.zipIdx.map fun entry =>
      ⟨entry.1, base + entry.2 * shape.layerBlockNbytes, shape.layerBlockNbytes⟩) from'
      (base + ((number * shape.layerBlockNbytes + (slot * shape.rowNbytes + low) : ℕ) : ℤ)) ↔
        from' = store.tensor.toView.address [half, layer, block * shape.blockSize, 0] +
          ((slot * shape.rowNbytes + low : ℕ) : ℤ) := by
    intro from'
    simp only [moves_map, Prod.exists, List.mem_zipIdx_iff_getElem?, covers_slice _ _ inSlice]
    constructor
    · rintro ⟨source, index, found, rfl, rfl⟩
      obtain rfl := Option.some.inj (found.symm.trans here)
      simp only [Copy.origin]
      push_cast
      ring
    · rintro rfl
      refine ⟨_, number, here, rfl, ?_⟩
      simp only [Copy.origin]
      push_cast
      ring
  apply writeAll_of_agree store.memory before ((moves _).mpr rfl)
  intro other moved
  rw [(moves other).mp moved, byte]

theorem publishes : Publishes backend shape chunk store.diskMetadata store.file := by
  have saved := store.saved
  simp only [XdsBackend.saveCpuBlockFirstXds, Checked.bind_ok, Checked.throw_bind,
    Checked.check_ok, Checked.return_ok, Prod.mk.injEq, not_not, Bool.not_eq_false] at saved
  obtain ⟨_, contiguous, diskMetadata, made, start, header, size, rfl, same⟩ := saved
  have created := createdFor_of_create (Checked.mapError_ok.mp made)
  rw [store.dims, store.blocks] at created
  obtain ⟨payloadShape, payloadNbytes, ioNbytes⟩ := extents_of_createdFor created store.itemsize
  have layers : store.diskMetadata.numLayers = shape.numLayers := created.numLayers
  have sliceBytes : store.diskMetadata.blockSize * store.diskMetadata.hiddenDim *
      store.tensor.elementSize = (shape.layerBlockNbytes : ℤ) := by
    rw [created.blockSize_eq, created.hiddenDim, store.itemsize]
    simp only [ChunkShape.logicalDims, ChunkShape.layerBlockNbytes, ChunkShape.rowNbytes]
    push_cast
    exact mul_assoc _ _ _
  obtain ⟨startSize, unpacked⟩ := headerFile_spec header
  rw [sliceBytes] at size same
  obtain ⟨payloadSize, payload⟩ := foldl_append store.memory shape.layerBlockNbytes
    (XdsBackend.cpuSlices store.tensor store.diskMetadata) blockFirstHeaderSize 0 start
    (by rw [startSize]; simp)
  rw [length_cpuSlices store.tensor payloadShape layers, Nat.zero_add] at payloadSize
  generalize (XdsBackend.cpuSlices store.tensor store.diskMetadata).foldl _ start = written at *
  have writtenSize : written.size = blockFirstHeaderSize + shape.payloadNbytes := by
    rw [payloadSize, ChunkShape.payloadNbytes, ChunkShape.blockNbytes]
    push_cast
    ring
  -- the padding is behind the payload
  have content : ∀ position, position < written.size →
      store.file.content position = written.content position := by
    intro position inside
    rw [← same]
    refine if_neg ?_
    simp only [Copy.Covers]
    omega
  have held := store.slices_hold contiguous (fun block layer half blockIn layerIn halfIn =>
    getElem?_cpuSlices store.tensor payloadShape layers created.blockSize_eq blockIn layerIn
      halfIn) blockFirstHeaderSize start.content
  rw [← payload] at held
  refine ⟨?_, unpacked _ ?_, ?_, created.logicalShape_eq, payloadShape, payloadNbytes, ioNbytes,
    ⟨store.tensor.dtype, by rw [created.dtype_eq, parseDtype_name], store.itemsize⟩⟩
  · intro block layer half slot low blockIn layerIn halfIn slotIn lowIn
    have inside := shape.payloadPosition_lt blockIn layerIn halfIn slotIn lowIn
    rw [content _ (by omega)]
    exact held block layer half slot low blockIn layerIn halfIn slotIn lowIn
  · intro position before
    rw [content position (by omega), payload]
    apply writeAll_of_not_moved
    rintro from' ⟨copy, member, covers, _⟩
    obtain ⟨entry, _, rfl⟩ := List.mem_map.mp member
    have above := covers.1
    have nonneg : (0 : ℤ) ≤ entry.2 * shape.layerBlockNbytes := by positivity
    simp only at above
    omega
  · rw [← same]
    exact size

end CpuStore

/-! ### The direct writer -/

/-- A completed direct store of a chunk that is in a cross-layer cache. The
engine's metadata is that of the cache. -/
structure DirectStore (backend : XdsBackend) (shape : ChunkShape) (chunk : Chunk)
    extends CrossLayerPlan where
  stores : direction = .store
  shape_eq : toCrossLayerPlan.shape = shape
  memory : Memory
  held : ∀ byte, toCrossLayerPlan.Chosen byte → memory (toCrossLayerPlan.place byte) =
    chunk byte.half byte.layer (toCrossLayerPlan.chunkToken byte) byte.low
  described : backend.Describes shape
  diskMetadata : BlockFirstDiskMetadata
  file : FileImage
  saved : backend.saveDirectXds descriptor memory = .ok (diskMetadata, file)

namespace DirectStore

variable {backend : XdsBackend} {shape : ChunkShape} {chunk : Chunk}
  (store : DirectStore backend shape chunk)

theorem skip_eq : store.skip = 0 := by
  have other : store.direction ≠ .retrieve := by
    rw [store.stores]
    decide
  rw [CrossLayerPlan.skip, leftOutTokens, if_neg other]

theorem blockSize_eq : store.blockSize = shape.blockSize :=
  congrArg ChunkShape.blockSize store.shape_eq

theorem chunkBlocks_eq :
    ((store.stop - store.start) / (store.blockSize : ℤ)).toNat = shape.chunkBlocks :=
  congrArg ChunkShape.chunkBlocks store.shape_eq

/-- A store has no leading edge, and its runs take all blocks of the chunk. -/
theorem all_blocks : store.descriptor.leadingEdge = none ∧
    store.descriptor.logicalBlockCount = shape.chunkBlocks := by
  obtain ⟨_, _, leadingEdge, physicalBlocks, chunk⟩ := store.spec
  have positive := store.cache.positive
  have nonempty := store.nonempty
  have first : 0 ≤ store.start + store.skip := by
    rw [store.skip_eq, add_zero]
    exact store.start_nonneg
  rcases leadingEdgeOf_ok positive first chunk.edgeOf with ⟨_, rfl⟩ | ⟨_, partly, _⟩
  · refine ⟨congrArg DirectIODescriptor.leadingEdge chunk.descriptor_eq, ?_⟩
    have count := congrArg DirectIODescriptor.logicalBlockCount chunk.descriptor_eq
    simp only [blockFirstDescriptor] at count
    have length := chunk.blocksOf.length_eq
    simp only [store.skip_eq, Option.elim_none, add_zero] at length
    rw [length_sliceOf store.start_nonneg store.covered] at length
    rw [count, length, ← store.chunkBlocks_eq]
    push_cast
    rw [Int.toNat_of_nonneg (by omega), Int.toNat_of_nonneg (Int.ediv_nonneg (by omega) (by omega))]
  · rw [store.skip_eq] at partly
    exact absurd (Int.zero_emod _) partly

/-- The bytes that the runs write. -/
theorem moves_writes (from' address : ℤ) :
    Moves ((store.descriptor.runs.map (XdsBackend.runCall store.descriptor)).map
        XdsCall.writeCopy) from' address ↔
      ∃ byte, store.Chosen byte ∧ address = store.origin byte ∧ from' = store.place byte := by
  obtain ⟨_, _, _, _, planned⟩ := store.spec
  have base : store.descriptor.allocationBase = store.kvCache.dataPtr :=
    congrArg DirectIODescriptor.allocationBase planned.descriptor_eq
  have offset : store.descriptor.filePayloadOffset = blockFirstHeaderSize :=
    congrArg DirectIODescriptor.filePayloadOffset planned.descriptor_eq
  have swapped := store.exists_chosen_iff address from'
  simp only [CrossLayerPlan.MovesSlot, store.all_blocks.1, reduceCtorEq, false_and, exists_false,
    false_or] at swapped
  rw [moves_writeRuns store.blockNbytes_eq, base, offset]
  constructor
  · rintro ⟨⟨logical, physical⟩, member, position, positionIn, rfl, rfl⟩
    obtain ⟨layer, half, slot, low, layerIn, halfIn, slotIn, lowIn, rfl⟩ :=
      store.toCrossLayerPlan.shape.exists_blockPosition positionIn
    obtain ⟨byte, chosen, place, origin⟩ := swapped.mpr ⟨logical, physical, slot, ⟨slotIn, member⟩,
      layer, half, low, layerIn, halfIn, lowIn, rfl, rfl⟩
    exact ⟨byte, chosen, origin, place⟩
  · rintro ⟨byte, chosen, rfl, rfl⟩
    obtain ⟨logical, physical, slot, ⟨slotIn, member⟩, layer, half, low, layerIn, halfIn, lowIn,
      place, origin⟩ := swapped.mp ⟨byte, chosen, rfl, rfl⟩
    exact ⟨(logical, physical), member, _,
      store.toCrossLayerPlan.shape.blockPosition_lt layerIn halfIn slotIn lowIn, place, origin⟩

/-- Every byte of the chunk belongs to a token of the stored range. -/
theorem exists_chosen {block layer half slot low : ℕ} (blockIn : block < shape.chunkBlocks)
    (layerIn : layer < shape.numLayers) (halfIn : half < 2) (slotIn : slot < shape.blockSize)
    (lowIn : low < shape.rowNbytes) :
    ∃ byte, store.Chosen byte ∧ byte.layer = layer ∧ byte.half = half ∧ byte.low = low ∧
      store.chunkToken byte = block * shape.blockSize + slot := by
  obtain ⟨_, _, _, _, planned⟩ := store.spec
  have whole := Int.ediv_mul_cancel (Int.dvd_of_emod_eq_zero planned.whole)
  have positive := store.cache.positive
  have nonempty := store.nonempty
  have startNonneg := store.start_nonneg
  have inside := digit_lt blockIn slotIn
  have extent : ((shape.chunkBlocks * shape.blockSize : ℕ) : ℤ) = store.stop - store.start := by
    rw [← store.chunkBlocks_eq, ← store.blockSize_eq]
    push_cast
    rw [Int.toNat_of_nonneg (Int.ediv_nonneg (by omega) (by omega)), whole]
  refine ⟨⟨layer, half, (store.start + (block * shape.blockSize + slot : ℕ)).toNat, low⟩,
    ⟨?_, halfIn, ?_, ?_, ?_⟩, rfl, rfl, rfl, ?_⟩
  · rw [store.shape_eq]
    exact layerIn
  · rw [store.skip_eq]
    simp only
    omega
  · simp only
    omega
  · rw [store.shape_eq]
    exact lowIn
  · simp only [CrossLayerPlan.chunkToken]
    omega

theorem origin_eq {byte : RowByte} {block slot : ℕ} (slotIn : slot < shape.blockSize)
    (token : store.chunkToken byte = block * shape.blockSize + slot) :
    store.origin byte = blockFirstHeaderSize +
      (shape.payloadPosition block byte.layer byte.half slot byte.low : ℤ) := by
  have positive : 0 < shape.blockSize := Nat.zero_lt_of_lt slotIn
  rw [CrossLayerPlan.origin, store.shape_eq, token, store.blockSize_eq, Nat.mul_comm block,
    Nat.mul_add_div positive, Nat.mul_add_mod, Nat.div_eq_of_lt slotIn, Nat.mod_eq_of_lt slotIn,
    Nat.add_zero]

/-- The written runs hold the chunk in block-first order. -/
theorem runs_hold (before : Memory) :
    shape.HoldsPayload (writeAll store.memory
      ((store.descriptor.runs.map (XdsBackend.runCall store.descriptor)).map XdsCall.writeCopy)
        before) blockFirstHeaderSize chunk := by
  intro block layer half slot low blockIn layerIn halfIn slotIn lowIn
  obtain ⟨byte, chosen, rfl, rfl, rfl, token⟩ :=
    store.exists_chosen blockIn layerIn halfIn slotIn lowIn
  rw [← store.origin_eq slotIn token]
  apply writeAll_of_agree store.memory before
    ((store.moves_writes _ _).mpr ⟨byte, chosen, rfl, rfl⟩)
  intro other moved
  obtain ⟨another, chosen', same, rfl⟩ := (store.moves_writes _ _).mp moved
  have positive : 0 < shape.blockSize := Nat.zero_lt_of_lt slotIn
  have token' : store.chunkToken another = store.chunkToken another / shape.blockSize *
      shape.blockSize + store.chunkToken another % shape.blockSize := (Nat.div_add_mod' _ _).symm
  have value := store.held another chosen'
  rw [store.origin_eq slotIn token, store.origin_eq (Nat.mod_lt _ positive) token'] at same
  obtain ⟨layerIn', halfIn', _, _, lowIn'⟩ := chosen'
  rw [store.shape_eq] at layerIn' lowIn'
  obtain ⟨blocks, layers, halves, slots, lows⟩ := shape.payloadPosition_inj layerIn layerIn' halfIn
    halfIn' slotIn (Nat.mod_lt _ positive) lowIn lowIn' (Int.ofNat.inj (add_left_cancel same))
  rw [value, token', ← blocks, ← slots, layers, halves, lows]

theorem publishes : Publishes backend shape chunk store.diskMetadata store.file := by
  have saved := store.saved
  simp only [XdsBackend.saveDirectXds, Checked.bind_ok, Checked.throw_bind, Checked.check_ok,
    Checked.return_ok, Prod.mk.injEq, not_not, not_or] at saved
  obtain ⟨_, valid, diskMetadata, made, covers, _, _, start, header, written, write, size, rfl,
    rfl⟩ := saved
  obtain ⟨engineBlocks, _⟩ := XdsBackend.validateDirectDescriptor_ok valid
  obtain ⟨⟨tokens, shapes⟩, dtype, dtypes, itemsize⟩ := store.described
  rw [XdsBackend.makeDirectBlockFirstMetadata, shapes, dtypes] at made
  have created := createdFor_of_create (Checked.mapError_ok.mp made)
  have sizes : backend.metadata.blockSize = shape.blockSize := by
    obtain ⟨_, _, _, _, planned⟩ := store.spec
    have given : store.descriptor.blockSize = store.blockSize :=
      congrArg DirectIODescriptor.blockSize planned.descriptor_eq
    rw [given] at engineBlocks
    rw [← store.blockSize_eq]
    exact_mod_cast engineBlocks
  -- the file's number of tokens is that of the stored range
  have tokenCount : tokens = shape.numTokens := by
    obtain ⟨_, numTokens, _, given, _, _, _, _, whole, _⟩ :=
      blockFirstShape_ok.mp created.payloadShape
    simp only [List.map_cons, List.map_nil, List.cons.injEq, Int.ofNat_eq_natCast, and_true] at given
    obtain ⟨_, _, rfl, _⟩ := given
    have count := covers.2
    rw [store.all_blocks.2, created.validTokens, created.blockSize_eq, sizes] at count
    rw [sizes] at whole
    have parts := Int.ediv_mul_cancel (Int.dvd_of_emod_eq_zero whole)
    change (shape.chunkBlocks : ℤ) = (tokens : ℤ) / (shape.blockSize : ℤ) at count
    rw [← count] at parts
    rw [ChunkShape.numTokens]
    exact_mod_cast parts.symm
  rw [tokenCount, sizes] at created
  obtain ⟨payloadShape, payloadNbytes, ioNbytes⟩ := extents_of_createdFor created itemsize
  have content := backend.writeCalls_ok write
  obtain ⟨_, unpacked⟩ := headerFile_spec header
  refine ⟨?_, unpacked _ ?_, size, created.logicalShape_eq, payloadShape, payloadNbytes, ioNbytes,
    ⟨dtype, by rw [created.dtype_eq, parseDtype_name], itemsize⟩⟩
  · rw [content]
    exact store.runs_hold start.content
  · intro position before
    rw [content]
    apply writeAll_of_not_moved
    intro from' moved
    obtain ⟨byte, _, rfl, _⟩ := (store.moves_writes _ _).mp moved
    rw [CrossLayerPlan.origin] at before
    omega

end DirectStore

end LMCacheHcu.Storage
