import LMCacheHcu.Storage.PlanValidity

/-! # The per-layer builder and its validator

The segments of a per-layer descriptor come in the order of the file: block by
block, layer by layer, the keys before the values. They tile the declared
blocks, and each lies in the storage of its layer.
-/

namespace LMCacheHcu.Storage

open RowMajor Tilings

/-! ### The extent of a contiguous tensor -/

/-- The bytes of a contiguous tensor lie in its storage. -/
theorem Tensor.Resident.extent {tensor : Tensor} (resident : tensor.Resident)
    (contiguous : tensor.isContiguous = true) :
    tensor.storageOffset * tensor.elementSize + tensor.numel * tensor.elementSize ≤
      tensor.storageNbytes := by
  have full := resident.numel_pos
  have inStorage := tensor.inStorage full.ne'
  have dense : denseUpToUnits tensor.shape tensor.stride = true := by
    simpa [Tensor.isContiguous, full.ne'] using contiguous
  rw [Nat.add_assoc, lastPosition_add_one resident.positive dense, Nat.add_mul] at inStorage
  exact inStorage

/-! ### The segments -/

section Segments

variable (numBlocks layerBlockNbytes : ℕ) (places : List (ℕ × ℤ)) (logicalStart : ℤ)
  (physicalBlocks : List ℤ)

/-- The key and the value segment of one layer and block, whose file region
begins at `region`. -/
def layerSegments (region physicalBlock : ℤ) (layer : (ℕ × ℤ) × ℕ) : List DirectIOByteSegment :=
  (List.range 2).map fun kvIndex : ℕ =>
    { fileOffset := region + (layer.2 * 2 + kvIndex) * layerBlockNbytes
      allocationIndex := layer.1.1
      allocationOffset := layer.1.2 + (kvIndex * numBlocks + physicalBlock) * layerBlockNbytes
      nbytes := layerBlockNbytes }

theorem perLayerSegments_eq :
    perLayerSegments numBlocks layerBlockNbytes places logicalStart physicalBlocks =
      physicalBlocks.zipIdx.flatMap fun block => places.zipIdx.flatMap
        (layerSegments numBlocks layerBlockNbytes (blockFirstHeaderSize +
          (logicalStart + block.2) * (places.length * 2 * layerBlockNbytes : ℤ)) block.1) := rfl

variable {numBlocks layerBlockNbytes places logicalStart physicalBlocks}

theorem layerSegments_tiles (positive : 0 < layerBlockNbytes) (region physicalBlock : ℤ)
    (layer : (ℕ × ℤ) × ℕ) :
    SegmentsTile (region + (layer.2 * 2 : ℕ) * layerBlockNbytes)
      (region + ((layer.2 + 1) * 2 : ℕ) * layerBlockNbytes)
      (layerSegments numBlocks layerBlockNbytes region physicalBlock layer) := by
  have bytes : (0 : ℤ) < layerBlockNbytes := Int.natCast_pos.mpr positive
  refine .cons ?_ ?_ (.cons ?_ ?_ ?_)
  · push_cast
    ring
  · simp only [DirectIOByteSegment.fileStop]
    omega
  · simp only [DirectIOByteSegment.fileStop]
    push_cast
    ring
  · simp only [DirectIOByteSegment.fileStop]
    omega
  · have stop : (region + (layer.2 * 2 + (1 : ℕ)) * layerBlockNbytes + layerBlockNbytes : ℤ) =
        region + ((layer.2 + 1) * 2 : ℕ) * layerBlockNbytes := by
      push_cast
      ring
    exact stop ▸ .nil _

/-- **The segments tile the blocks.** -/
theorem perLayerSegments_tiles (positive : 0 < layerBlockNbytes) :
    SegmentsTile
      (blockFirstHeaderSize + logicalStart * (places.length * 2 * layerBlockNbytes : ℤ))
      (blockFirstHeaderSize + (logicalStart + physicalBlocks.length) *
        (places.length * 2 * layerBlockNbytes : ℤ))
      (perLayerSegments numBlocks layerBlockNbytes places logicalStart physicalBlocks) := by
  let region (block : ℕ) : ℤ := blockFirstHeaderSize + (logicalStart + block) *
    (places.length * 2 * layerBlockNbytes : ℤ)
  have blocks : SegmentsTile (region 0) (region (0 + physicalBlocks.length))
      (perLayerSegments numBlocks layerBlockNbytes places logicalStart physicalBlocks) := by
    rw [perLayerSegments_eq]
    apply Tiles.flatMap_zipIdx region
    intro block _
    have layers : SegmentsTile (region block.2 + (0 * 2 : ℕ) * layerBlockNbytes)
        (region block.2 + ((0 + places.length) * 2 : ℕ) * layerBlockNbytes)
        (places.zipIdx.flatMap
          (layerSegments numBlocks layerBlockNbytes (region block.2) block.1)) :=
      Tiles.flatMap_zipIdx (fun layer => region block.2 + (layer * 2 : ℕ) * layerBlockNbytes)
        fun layer _ => layerSegments_tiles positive (region block.2) block.1 layer
    have next : region block.2 + ((0 + places.length) * 2 : ℕ) * layerBlockNbytes =
        region (block.2 + 1) := by
      simp only [region]
      push_cast
      ring
    rw [next, Nat.zero_mul, Nat.cast_zero, zero_mul, add_zero] at layers
    exact layers
  simp only [region, Nat.cast_zero, add_zero, zero_add] at blocks
  exact blocks

/-- The block, layer and half of a segment. -/
theorem exists_of_mem_perLayerSegments {segment : DirectIOByteSegment}
    (member : segment ∈
      perLayerSegments numBlocks layerBlockNbytes places logicalStart physicalBlocks) :
    ∃ (layer kvIndex : ℕ) (physicalBlock : ℤ) (place : ℕ × ℤ), physicalBlock ∈ physicalBlocks ∧
      places[layer]? = some place ∧ kvIndex < 2 ∧ segment.allocationIndex = place.1 ∧
      segment.allocationOffset =
        place.2 + (kvIndex * numBlocks + physicalBlock) * layerBlockNbytes ∧
      segment.nbytes = layerBlockNbytes := by
  simp only [perLayerSegments_eq, layerSegments, List.mem_flatMap, List.mem_map,
    List.mem_range] at member
  obtain ⟨⟨physicalBlock, index⟩, blockIn, ⟨place, layer⟩, layerIn, kvIndex, half, rfl⟩ := member
  exact ⟨layer, kvIndex, physicalBlock, place,
    List.mem_of_getElem? (List.mem_zipIdx_iff_getElem?.mp blockIn),
    List.mem_zipIdx_iff_getElem?.mp layerIn, half, rfl, rfl, rfl⟩

end Segments

/-! ### The caches -/

/-- What the builder knows of its caches. -/
structure UniformCaches (kvCaches : List Tensor) (first : Tensor) (blockSize : ℕ) : Prop
    extends PerLayerCaches kvCaches first blockSize where
  devices : ∀ tensor ∈ kvCaches, tensor.device = first.device

/-- Every allocation is the storage of one of the tensors. -/
theorem mem_addAllocations {allocations : List DirectIOAllocation} {tensors : List Tensor}
    {allocation : DirectIOAllocation} (member : allocation ∈ (addAllocations allocations tensors).1) :
    allocation ∈ allocations ∨ ∃ tensor ∈ tensors, allocation =
      ⟨tensor.device, tensor.storageBase, tensor.storageNbytes, some [tensor]⟩ := by
  induction tensors generalizing allocations with
  | nil => exact .inl member
  | cons tensor tensors ih =>
      rcases ih member with earlier | ⟨source, listed, same⟩
      · unfold addAllocation at earlier
        simp only at earlier
        split at earlier
        · exact .inl earlier
        · rcases List.mem_append.mp earlier with known | added
          · exact .inl known
          · exact .inr ⟨tensor, List.mem_cons_self, List.mem_singleton.mp added⟩
      · exact .inr ⟨source, List.mem_cons_of_mem _ listed, same⟩

section Caches

variable {kvCaches : List Tensor} {first : Tensor} {blockSize : ℕ}

theorem UniformCaches.first_mem (caches : UniformCaches kvCaches first blockSize) :
    first ∈ kvCaches :=
  List.mem_of_head? caches.head

/-- The bytes of a cache are those of its blocks, in both halves. -/
theorem UniformCaches.nbytes_eq (caches : UniformCaches kvCaches first blockSize) {tensor : Tensor}
    (member : tensor ∈ kvCaches) :
    tensor.numel * tensor.elementSize = 2 * first.dim 1 * perLayerBlockNbytes first := by
  obtain ⟨shapes, types, _⟩ := caches.uniform tensor member
  have size : tensor.elementSize = first.elementSize := congrArg DType.itemsize types
  rw [Tensor.numel, shapes, exists_dims caches.rank, size, caches.halves, perLayerBlockNbytes]
  simp only [List.prod_cons, List.prod_nil]
  ring

theorem UniformCaches.layerBlockNbytes_pos (caches : UniformCaches kvCaches first blockSize)
    (resident : first.Resident) : 0 < perLayerBlockNbytes first := by
  have bytes := caches.nbytes_eq caches.first_mem
  have full : 0 < first.numel * first.elementSize :=
    Nat.mul_pos resident.numel_pos first.dtype.itemsize_pos
  rw [bytes] at full
  exact Nat.pos_of_mul_pos_left full

/-- **A segment lies in the storage of its layer.** -/
theorem UniformCaches.segment_inside (caches : UniformCaches kvCaches first blockSize)
    (resident : ∀ tensor ∈ kvCaches, tensor.Resident) {layer kvIndex : ℕ} {place : ℕ × ℤ}
    {physicalBlock : ℤ} (there : (addAllocations [] kvCaches).2[layer]? = some place)
    (half : kvIndex < 2) (nonneg : 0 ≤ physicalBlock) (below : physicalBlock < first.dim 1) :
    ∃ allocation, (addAllocations [] kvCaches).1[place.1]? = some allocation ∧ 0 ≤ place.2 ∧
      place.2 + (kvIndex * first.dim 1 + physicalBlock) * perLayerBlockNbytes first +
        perLayerBlockNbytes first ≤ allocation.nbytes := by
  obtain ⟨_, _, registered⟩ := addAllocations_spec [] kvCaches
  obtain ⟨tensor, allocation, here, found, holds⟩ := registered layer place there
  have member := List.mem_of_getElem? here
  obtain ⟨number, rfl⟩ := Int.eq_ofNat_of_zero_le nonneg
  have extent := (resident tensor member).extent (caches.uniform tensor member).2.2
  rw [caches.nbytes_eq member] at extent
  have offset : place.2 = ((tensor.storageOffset * tensor.elementSize : ℕ) : ℤ) := by
    rw [holds.offset_eq, Tensor.dataPtr]
    push_cast
    ring
  have row : (kvIndex * first.dim 1 + number) * perLayerBlockNbytes first +
      perLayerBlockNbytes first ≤ 2 * first.dim 1 * perLayerBlockNbytes first := by
    rw [← Nat.succ_mul]
    apply Nat.mul_le_mul_right
    exact digit_lt half (by exact_mod_cast below)
  refine ⟨allocation, found, offset ▸ Int.natCast_nonneg _, ?_⟩
  rw [holds.nbytes, offset]
  have bound := Nat.add_le_add_left row (tensor.storageOffset * tensor.elementSize)
  exact_mod_cast (Nat.add_assoc _ _ _).trans_le (bound.trans extent)

variable {slotMapping : List ℤ} {skipBefore start stop : ℤ} {descriptor : DirectIODescriptor}
  {physicalBlocks : List ℤ}

theorem PerLayerChunk.total (chunk : PerLayerChunk kvCaches first slotMapping blockSize skipBefore
      start stop descriptor physicalBlocks) (startNonneg : 0 ≤ start) (nonempty : start < stop)
    (covered : stop ≤ slotMapping.length) :
    (physicalBlocks.length : ℤ) * blockSize =
      stop - start - skipTokens skipBefore start stop := by
  obtain ⟨nonneg, below, _⟩ := skipTokens_spec nonempty chunk.uncached
  rw [sub_sub]
  refine chunk.blocksOf.total (by omega) (by omega) covered ?_
  rw [← sub_sub]
  exact Int.emod_eq_zero_of_dvd (dvd_sub (Int.dvd_of_emod_eq_zero chunk.whole)
    (Int.dvd_of_emod_eq_zero chunk.aligned))

theorem PerLayerChunk.blocks_pos (chunk : PerLayerChunk kvCaches first slotMapping blockSize
      skipBefore start stop descriptor physicalBlocks) (startNonneg : 0 ≤ start)
    (nonempty : start < stop) (covered : stop ≤ slotMapping.length) : 0 < physicalBlocks.length := by
  obtain ⟨_, below, _⟩ := skipTokens_spec nonempty chunk.uncached
  have total := chunk.total startNonneg nonempty covered
  by_contra none
  rw [Nat.eq_zero_of_not_pos none] at total
  omega

/-! ### Validity -/

theorem UniformCaches.exists_place (caches : UniformCaches kvCaches first blockSize) :
    ∃ place, (addAllocations [] kvCaches).2[0]? = some place := by
  have layers : 0 < kvCaches.length := List.length_pos_of_mem caches.first_mem
  rw [← (addAllocations_spec [] kvCaches).2.1] at layers
  exact ⟨_, List.getElem?_eq_getElem layers⟩

section Resident

variable (caches : UniformCaches kvCaches first blockSize)
  (resident : ∀ tensor ∈ kvCaches, tensor.Resident)

include caches resident

/-- The storage of a cache is somewhere, holds something, and is on the common device. -/
theorem UniformCaches.allocation_valid (same : descriptor.device = first.device)
    {allocation : DirectIOAllocation} (member : allocation ∈ (addAllocations [] kvCaches).1) :
    descriptor.AllocationValid false false allocation := by
  rcases mem_addAllocations member with none | ⟨tensor, listed, rfl⟩
  · exact absurd none List.not_mem_nil
  · have extent := (resident tensor listed).extent (caches.uniform tensor listed).2.2
    have full : 0 < tensor.numel * tensor.elementSize :=
      Nat.mul_pos (resident tensor listed).numel_pos tensor.dtype.itemsize_pos
    exact {
      cuda := fun required => absurd required Bool.false_ne_true
      device := (caches.devices tensor listed).trans same.symm
      base := Int.natCast_pos.mpr (resident tensor listed).allocated
      nbytes := Int.natCast_pos.mpr (by omega)
      lifetimeToken := rfl
      aligned := fun required => absurd required Bool.false_ne_true }

theorem PerLayerChunk.segment_valid (chunk : PerLayerChunk kvCaches first slotMapping blockSize
      skipBefore start stop descriptor physicalBlocks) {segment : DirectIOByteSegment}
    (member : segment ∈ descriptor.byteSegments) : descriptor.SegmentValid false segment := by
  have layerBytes := caches.layerBlockNbytes_pos (resident first caches.first_mem)
  have inRange := chunk.blocksOf.inRange
  have registered : descriptor.allocations = (addAllocations [] kvCaches).1 :=
    congrArg DirectIODescriptor.allocations chunk.descriptor_eq
  rw [chunk.descriptor_eq] at member
  obtain ⟨layer, kvIndex, physicalBlock, place, blockIn, there, half, index, offset, nbytes⟩ :=
    exists_of_mem_perLayerSegments member
  obtain ⟨nonneg, below⟩ := inRange physicalBlock blockIn
  obtain ⟨allocation, found, placed, fits⟩ :=
    caches.segment_inside resident there half nonneg below
  have position : 0 ≤ (kvIndex * first.dim 1 + physicalBlock) * (perLayerBlockNbytes first : ℤ) := by
    positivity
  refine ⟨⟨by omega, ?_⟩, by omega, fun other here => ?_,
    fun required => absurd required Bool.false_ne_true⟩
  · have listed := (List.getElem?_eq_some_iff.mp found).1
    rw [index, registered]
    exact_mod_cast listed
  · rw [registered, index, Int.toNat_natCast, found] at here
    obtain rfl := Option.some.inj here
    rw [offset, nbytes]
    exact fits

theorem PerLayerChunk.basics (chunk : PerLayerChunk kvCaches first slotMapping blockSize skipBefore
      start stop descriptor physicalBlocks) (startNonneg : 0 ≤ start) (nonempty : start < stop)
    (covered : stop ≤ slotMapping.length) : descriptor.Basics false := by
  have blocks := chunk.blocks_pos startNonneg nonempty covered
  have size : (0 : ℤ) < blockSize := Int.natCast_pos.mpr chunk.positive
  have skipNonneg := (skipTokens_spec nonempty chunk.uncached).1
  have layerBytes := caches.layerBlockNbytes_pos (resident first caches.first_mem)
  have layers : 0 < kvCaches.length := List.length_pos_of_mem caches.first_mem
  -- the descriptor's own allocation is the first registered one
  obtain ⟨place, there⟩ := caches.exists_place
  obtain ⟨_, _, registered⟩ := addAllocations_spec [] kvCaches
  obtain ⟨_, _, _, found, _⟩ := registered 0 place there
  have some := List.length_pos_of_mem (List.mem_of_getElem? found)
  obtain ⟨allocation, others, listed⟩ := List.exists_cons_of_length_pos some
  have valid : descriptor.AllocationValid false false allocation :=
    caches.allocation_valid resident (congrArg DirectIODescriptor.device chunk.descriptor_eq)
      (listed ▸ List.mem_cons_self)
  rw [chunk.descriptor_eq, segmentDescriptor, listed]
  exact {
    device := fun required => absurd required Bool.false_ne_true
    allocationBase := valid.base
    allocationNbytes := valid.nbytes
    engineGroupId := le_rfl
    blockNbytes := Int.natCast_pos.mpr (by positivity)
    blockSize := size
    logicalBlockStart := Int.ediv_nonneg skipNonneg size.le
    logicalBlockCount := Int.natCast_nonneg _
    transferable := fun empty => absurd (Int.natCast_eq_zero.mp empty) blocks.ne'
    lifetimeToken := rfl
    synchronous := rfl
    filePayloadOffset := rfl }

theorem PerLayerChunk.segmentsValid (chunk : PerLayerChunk kvCaches first slotMapping blockSize
      skipBefore start stop descriptor physicalBlocks) (startNonneg : 0 ≤ start)
    (nonempty : start < stop) (covered : stop ≤ slotMapping.length) :
    descriptor.SegmentsValid false false := by
  have total := chunk.total startNonneg nonempty covered
  have layerBytes := caches.layerBlockNbytes_pos (resident first caches.first_mem)
  have aligned := Int.ediv_mul_cancel (Int.dvd_of_emod_eq_zero chunk.aligned)
  have made := chunk.descriptor_eq
  have lengths := (addAllocations_spec [] kvCaches).2.1
  have tiles : SegmentsTile (descriptor.blockOffset descriptor.logicalBlockStart)
      (descriptor.blockOffset (descriptor.logicalBlockStart + descriptor.logicalBlockCount))
      descriptor.byteSegments := by
    have segments : SegmentsTile _ _ (perLayerSegments (first.dim 1) (perLayerBlockNbytes first)
        (addAllocations [] kvCaches).2 (skipTokens skipBefore start stop / blockSize)
        physicalBlocks) := perLayerSegments_tiles layerBytes
    rw [lengths] at segments
    rw [made]
    simp only [DirectIODescriptor.blockOffset, segmentDescriptor]
    push_cast
    exact segments
  have sorted : descriptor.sortedSegments = descriptor.byteSegments := by
    apply List.Pairwise.insertionSort_eq
    refine tiles.pairwise.imp_of_mem fun {before after} member _ ordered => ?_
    exact (tiles.inside before member).2.1.le.trans ordered
  exact {
    direction := by rw [made, segmentDescriptor]
    runs := by rw [made, segmentDescriptor]
    leadingEdge := by rw [made, segmentDescriptor]
    registered := by
      obtain ⟨place, there⟩ := caches.exists_place
      obtain ⟨_, _, registered⟩ := addAllocations_spec [] kvCaches
      obtain ⟨_, _, _, found, _⟩ := registered 0 place there
      rw [made]
      exact List.ne_nil_of_mem (List.mem_of_getElem? found)
    validTokenStart := by
      rw [made]
      exact aligned.symm
    validTokenCount := by
      rw [made]
      exact total.symm
    allocations := fun allocation member => by
      rw [made] at member
      exact caches.allocation_valid resident (congrArg DirectIODescriptor.device made) member
    tiles := sorted.symm ▸ tiles
    segments := fun segment member => chunk.segment_valid caches resident member }

/-- **The per-layer builder satisfies its validator.** -/
theorem PerLayerChunk.validate (chunk : PerLayerChunk kvCaches first slotMapping blockSize
      skipBefore start stop descriptor physicalBlocks) (startNonneg : 0 ≤ start)
    (nonempty : start < stop) (covered : stop ≤ slotMapping.length) :
    descriptor.validate false false = .ok () := by
  have valid := chunk.segmentsValid caches resident startNonneg nonempty covered
  have basics := chunk.basics caches resident startNonneg nonempty covered
  have some : descriptor.byteSegments ≠ [] := by
    intro none
    have length := valid.tiles.sum_lengths
    rw [DirectIODescriptor.sortedSegments, none, List.insertionSort_nil, List.map_nil,
      List.sum_nil] at length
    have blocks : (0 : ℤ) < descriptor.logicalBlockCount := by
      rw [chunk.descriptor_eq]
      exact Int.natCast_pos.mpr (chunk.blocks_pos startNonneg nonempty covered)
    have bytes := mul_pos blocks basics.blockNbytes
    unfold DirectIODescriptor.blockOffset at length
    linarith
  exact DirectIODescriptor.validate_ok.mpr ⟨basics, fun none => absurd none some, fun _ => valid⟩

end Resident

end Caches

/-! ### The plans of a call -/

section Calls

variable {slotMapping starts ends : List ℤ} {kvCaches : List Tensor} {first : Tensor}
  {blockSize : ℕ}

/-- One chunk whose range has passed the checks. -/
theorem planPerLayer_returns (caches : UniformCaches kvCaches first blockSize)
    (resident : ∀ tensor ∈ kvCaches, tensor.Resident) (skipBefore : ℤ) {start stop : ℤ}
    (startNonneg : 0 ≤ start) (nonempty : start < stop) (covered : stop ≤ slotMapping.length) :
    ∃ plan, planPerLayer first kvCaches slotMapping blockSize skipBefore (start, stop) = .ok plan ∧
      plan.Settled := by
  have falls : ∀ reason, ∃ plan, (.ok (fallback reason) : Except DirectIOError DirectIOPlan) =
      .ok plan ∧ plan.Settled := fun reason => ⟨_, rfl, settled_fallback reason⟩
  have positive : 0 < blockSize := by
    rw [← caches.blocks]
    exact (resident first caches.first_mem).dim_pos (by rw [Tensor.ndim, caches.rank]; omega)
  simp only [planPerLayer]
  rw [if_neg positive.ne']
  split
  · exact falls _
  rename_i whole
  split
  · exact falls _
  rename_i uncached
  split
  · exact falls _
  rename_i aligned
  split
  · exact falls _
  rename_i physicalBlocks read
  have chunk : PerLayerChunk kvCaches first slotMapping blockSize skipBefore start stop _
      physicalBlocks :=
    ⟨positive, not_not.mp whole, uncached, not_not.mp aligned,
      blocksOfSlots_of_mapM positive read, rfl⟩
  have valid := chunk.validate caches resident startNonneg nonempty covered
  exact ⟨⟨some _, none⟩, Checked.bind_ok.mpr ⟨(), valid, rfl⟩, .inr ⟨_, rfl, valid⟩⟩

/-- **The per-layer builder.** -/
theorem buildPerLayer_returns (resident : ∀ tensor ∈ kvCaches, tensor.Resident)
    (same : starts.length = ends.length) (checked : checkRanges slotMapping starts ends = .ok ())
    (direction : DirectIODirection) (blockSize : ℕ) (skipBefore : ℤ) :
    ∃ plans, buildPerLayerDirectPlans kvCaches slotMapping starts ends direction blockSize
        skipBefore = .ok plans ∧ plans.length = starts.length ∧ ∀ plan ∈ plans, plan.Settled := by
  unfold buildPerLayerDirectPlans
  split
  · exact fallbackAll_returns starts settled_fallback _
  cases kvCaches with
  | nil => exact fallbackAll_returns starts settled_fallback _
  | cons first others =>
      simp only
      rw [if_neg (not_not.mpr same), checked, Checked.ok_bind]
      split
      · exact fallbackAll_returns starts settled_fallback _
      rename_i dims
      split
      · exact fallbackAll_returns starts settled_fallback _
      rename_i blocks
      split
      · exact fallbackAll_returns starts settled_fallback _
      rename_i uniform
      simp only [not_or, not_not] at dims blocks
      simp only [List.any_eq_true, decide_eq_true_eq, not_exists, not_and, not_or, not_not,
        Bool.not_eq_false] at uniform
      have caches : UniformCaches (first :: others) first blockSize := by
        refine ⟨⟨rfl, dims.2, blocks, dims.1, fun tensor member => ?_⟩, fun tensor member => ?_⟩
        · obtain ⟨_, shapes, types, _, contiguous⟩ := uniform tensor member
          exact ⟨shapes, types, contiguous⟩
        · exact (uniform tensor member).2.2.2.1
      exact mapM_plans_returns (rangesChecked_of_ok same checked)
        fun start stop startNonneg nonempty covered =>
          planPerLayer_returns caches resident skipBefore startNonneg nonempty covered

/-- **Planning never raises.** Ranges that pass the checks get a plan for each
chunk from either builder, whatever the slots are. -/
theorem plans_of_checkedRanges (same : starts.length = ends.length)
    (checked : checkRanges slotMapping starts ends = .ok ()) (direction : DirectIODirection)
    (blockSize : ℕ) (skipBefore : ℤ) :
    (∀ kvCache : Tensor, kvCache.Resident →
      ∃ plans, buildBlockFirstDirectPlans kvCache slotMapping starts ends direction blockSize
          skipBefore = .ok plans ∧ plans.length = starts.length ∧
        ∀ plan ∈ plans, plan.Settled ∧
          ∀ descriptor, plan.descriptor = some descriptor → descriptor.ListsBlocks) ∧
      ∀ kvCaches : List Tensor, (∀ tensor ∈ kvCaches, tensor.Resident) →
        ∃ plans, buildPerLayerDirectPlans kvCaches slotMapping starts ends direction blockSize
            skipBefore = .ok plans ∧ plans.length = starts.length ∧
          ∀ plan ∈ plans, plan.Settled :=
  ⟨fun _ resident => buildBlockFirst_returns resident same checked direction blockSize skipBefore,
    fun _ resident => buildPerLayer_returns resident same checked direction blockSize skipBefore⟩

/-- A cache of four blocks with two slots each. -/
def fourBlocks : Tensor where
  device := ⟨.cuda, some 0⟩
  dtype := .float16
  storageBase := 4096
  storageNbytes := 32
  storageOffset := 0
  shape := [4, 1, 2, 2, 1, 1]
  stride := [4, 4, 2, 1, 1, 1]
  ranked := by decide
  inStorage := by decide

/-- A layer of three blocks with two slots each. -/
def threeBlocks : Tensor where
  device := ⟨.cuda, some 0⟩
  dtype := .float16
  storageBase := 8192
  storageNbytes := 24
  storageOffset := 0
  shape := [2, 3, 2, 1, 1]
  stride := [6, 2, 1, 1, 1]
  ranked := rfl
  inStorage := by decide

theorem plans_of_checkedRanges_example :
    (∃ plans, buildBlockFirstDirectPlans fourBlocks [2, 3, 4, 5, 0, 1] [0, 4] [4, 6] .retrieve 2 1 =
        .ok plans ∧ plans.length = 2) ∧
      ∃ plans, buildPerLayerDirectPlans [threeBlocks] [2, 3, 4, 5, 0, 1] [0, 4] [4, 6] .retrieve 2 1 =
        .ok plans ∧ plans.length = 2 := by
  have checked : checkRanges [2, 3, 4, 5, 0, 1] [0, 4] [4, 6] = .ok () := rfl
  have same : ([0, 4] : List ℤ).length = ([4, 6] : List ℤ).length := rfl
  obtain ⟨blockFirst, perLayer⟩ := plans_of_checkedRanges same checked .retrieve 2 1
  obtain ⟨plans, built, lengths, _⟩ := blockFirst fourBlocks ⟨by decide, by decide⟩
  obtain ⟨plans', built', lengths', _⟩ := perLayer [threeBlocks] (by
    intro tensor member
    obtain rfl := List.mem_singleton.mp member
    exact ⟨by decide, by decide⟩)
  exact ⟨⟨plans, built, lengths⟩, plans', built', lengths'⟩

end Calls

end LMCacheHcu.Storage
