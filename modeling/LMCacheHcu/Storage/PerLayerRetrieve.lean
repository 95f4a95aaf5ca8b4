import LMCacheHcu.Storage.TransferEffects

/-! # Direct retrieves into per-layer caches

A planned chunk of `build_per_layer_direct_plans`: what the builder has checked
about the caches and the slots, and which byte of the file each segment of the
descriptor moves to which row of which cache.
-/

namespace LMCacheHcu.Storage

open RowMajor ByteCopy

/-! ### Allocations -/

/-- The allocation is the storage of the tensor, and the offset leads to its data. -/
structure DirectIOAllocation.Holds (allocation : DirectIOAllocation) (offset : ℤ)
    (tensor : Tensor) : Prop where
  base : allocation.base = tensor.storageBase
  nbytes : allocation.nbytes = tensor.storageNbytes
  offset_eq : offset = (tensor.dataPtr : ℤ) - tensor.storageBase

theorem DirectIOAllocation.Holds.data {allocation : DirectIOAllocation} {offset : ℤ}
    {tensor : Tensor} (holds : allocation.Holds offset tensor) :
    allocation.base + offset = tensor.dataPtr := by
  rw [holds.base, holds.offset_eq]
  ring

theorem addAllocation_spec (allocations : List DirectIOAllocation) (tensor : Tensor) :
    allocations <+: (addAllocation allocations tensor).1 ∧
      ∃ allocation, (addAllocation allocations tensor).1[(addAllocation allocations tensor).2.1]? =
          some allocation ∧
        allocation.Holds (addAllocation allocations tensor).2.2 tensor := by
  unfold addAllocation
  simp only
  split
  · rename_i index found
    obtain ⟨inside, same, _⟩ := List.findIdx?_eq_some_iff_getElem.mp found
    have identity := of_decide_eq_true same
    exact ⟨List.prefix_rfl, _, List.getElem?_eq_getElem inside,
      congrArg (fun identity => identity.2.1) identity,
      congrArg (fun identity => identity.2.2) identity, rfl⟩
  · exact ⟨List.prefix_append _ _, _, List.getElem?_concat_length, rfl, rfl, rfl⟩

/-- Every tensor finds its data at its offset in its allocation. -/
theorem addAllocations_spec (allocations : List DirectIOAllocation) (tensors : List Tensor) :
    allocations <+: (addAllocations allocations tensors).1 ∧
      (addAllocations allocations tensors).2.length = tensors.length ∧
      ∀ (layer : ℕ) (place : ℕ × ℤ), (addAllocations allocations tensors).2[layer]? = some place →
        ∃ tensor allocation, tensors[layer]? = some tensor ∧
          (addAllocations allocations tensors).1[place.1]? = some allocation ∧
          allocation.Holds place.2 tensor := by
  induction tensors generalizing allocations with
  | nil => exact ⟨List.prefix_rfl, rfl, fun layer place here => by simp [addAllocations] at here⟩
  | cons tensor tensors ih =>
      obtain ⟨grown, allocation, registered, placed⟩ := addAllocation_spec allocations tensor
      obtain ⟨extended, lengths, later⟩ := ih (addAllocation allocations tensor).1
      refine ⟨grown.trans extended, by simp [addAllocations, lengths], fun layer place here => ?_⟩
      cases layer with
      | zero =>
          simp only [addAllocations, List.getElem?_cons_zero, Option.some.injEq] at here
          subst here
          refine ⟨tensor, allocation, rfl, ?_, placed⟩
          obtain ⟨tail, whole⟩ := extended
          have inside := (List.getElem?_eq_some_iff.mp registered).1
          change (addAllocations (addAllocation allocations tensor).1 tensors).1[_]? = _
          rw [← whole, List.getElem?_append_left inside]
          exact registered
      | succ layer => exact later layer place here

/-! ### What a planned chunk has passed -/

/-- The checks of `build_per_layer_direct_plans` on its caches. -/
structure PerLayerCaches (kvCaches : List Tensor) (first : Tensor) (blockSize : ℕ) : Prop where
  head : kvCaches.head? = some first
  halves : first.dim 0 = 2
  blocks : first.dim 2 = blockSize
  rank : first.shape.length = 5
  uniform : ∀ tensor ∈ kvCaches, tensor.shape = first.shape ∧ tensor.dtype = first.dtype ∧
    tensor.isContiguous = true

/-- The checks of one chunk that is planned, and its descriptor. -/
structure PerLayerChunk (kvCaches : List Tensor) (first : Tensor) (slotMapping : List ℤ)
    (blockSize : ℕ) (skipBefore start stop : ℤ) (descriptor : DirectIODescriptor)
    (physicalBlocks : List ℤ) : Prop where
  positive : 0 < blockSize
  whole : (stop - start) % blockSize = 0
  uncached : skipTokens skipBefore start stop ≠ stop - start
  aligned : skipTokens skipBefore start stop % blockSize = 0
  blocksOf : BlocksOfSlots blockSize (first.dim 1)
    (sliceOf slotMapping (start + skipTokens skipBefore start stop) stop) physicalBlocks
  descriptor_eq : descriptor = segmentDescriptor first.device kvCaches (addAllocations [] kvCaches).1
    (kvCaches.length * 2 * perLayerBlockNbytes first) blockSize (stop - start)
    (skipTokens skipBefore start stop) physicalBlocks
    (perLayerSegments (first.dim 1) (perLayerBlockNbytes first) (addAllocations [] kvCaches).2
      (skipTokens skipBefore start stop / blockSize) physicalBlocks)

/-- The ranges that pass the shared check. -/
structure RangesChecked (slotMapping starts ends : List ℤ) : Prop where
  same_length : starts.length = ends.length
  nonneg : ∀ start ∈ starts, 0 ≤ start
  nonempty : ∀ (index : ℕ) (start stop : ℤ), starts[index]? = some start →
    ends[index]? = some stop → start < stop
  covered : ∀ stop ∈ ends, stop ≤ slotMapping.length

theorem rangesChecked_of_ok {slotMapping starts ends : List ℤ}
    (same : starts.length = ends.length) (checked : checkRanges slotMapping starts ends = .ok ()) :
    RangesChecked slotMapping starts ends := by
  simp only [checkRanges, Checked.throw_bind, Checked.check_ok, Checked.last_check_ok,
    not_or] at checked
  obtain ⟨⟨starts', ranges⟩, ends', _⟩ := checked
  refine ⟨same, ?_, ?_, ?_⟩
  · simpa using starts'
  · intro index start stop here there
    simp only [List.any_eq_true, decide_eq_true_eq, not_exists, not_and, not_le] at ranges
    exact ranges (start, stop) (List.mem_iff_getElem?.mpr
      ⟨index, List.getElem?_zip_eq_some.mpr ⟨here, there⟩⟩)
  · simpa using ends'

theorem fallback_no_descriptor {starts : List ℤ} {reason : String} {index : ℕ}
    {plan : DirectIOPlan} (planned : (fallbackAll starts reason)[index]? = some plan) :
    plan.descriptor = none := by
  rw [fallbackAll, List.getElem?_replicate] at planned
  split at planned
  · cases planned
    rfl
  · cases planned

/-- A branch that falls back is not the one that made a descriptor. -/
theorem planned_ok {condition : Prop} [Decidable condition] {reason : String}
    {rest : Except DirectIOError DirectIOPlan} {descriptor : DirectIODescriptor} :
    (if condition then .ok (fallback reason) else rest) = .ok ⟨some descriptor, none⟩ ↔
      ¬ condition ∧ rest = .ok ⟨some descriptor, none⟩ := by
  by_cases falls : condition
  · simp [falls, fallback]
  · simp [falls]

theorem perLayerChunk_of_plan {first : Tensor} {kvCaches : List Tensor} {slotMapping : List ℤ}
    {blockSize : ℕ} {skipBefore start stop : ℤ} {descriptor : DirectIODescriptor}
    (planned : planPerLayer first kvCaches slotMapping blockSize skipBefore (start, stop) =
      .ok ⟨some descriptor, none⟩) :
    ∃ physicalBlocks, PerLayerChunk kvCaches first slotMapping blockSize skipBefore start stop
      descriptor physicalBlocks := by
  simp only [planPerLayer, Checked.check_ok, planned_ok, not_not] at planned
  obtain ⟨nonzero, whole, uncached, aligned, rest⟩ := planned
  have positive : 0 < blockSize := Nat.pos_of_ne_zero nonzero
  cases read : (slotBlocks blockSize (sliceOf slotMapping
      (start + skipTokens skipBefore start stop) stop)).mapM
        (physicalBlockOf blockSize (first.dim 1)) with
  | error reason =>
      rw [read] at rest
      cases rest
  | ok physicalBlocks =>
      rw [read] at rest
      simp only [Checked.bind_ok, Checked.return_ok, DirectIOPlan.mk.injEq, Option.some.injEq,
        and_true] at rest
      obtain ⟨_, _, rfl⟩ := rest
      exact ⟨physicalBlocks, positive, whole, uncached, aligned,
        blocksOfSlots_of_mapM positive read, rfl⟩

/-- Everything that a returned descriptor says about the call that made it. -/
theorem perLayerPlan_spec {kvCaches : List Tensor} {slotMapping starts ends : List ℤ}
    {blockSize : ℕ} {skipBefore : ℤ} {plans : List DirectIOPlan}
    (built : buildPerLayerDirectPlans kvCaches slotMapping starts ends .retrieve blockSize
      skipBefore = .ok plans)
    {index : ℕ} {descriptor : DirectIODescriptor}
    (planned : plans[index]? = some ⟨some descriptor, none⟩) :
    ∃ first start stop physicalBlocks, PerLayerCaches kvCaches first blockSize ∧
      RangesChecked slotMapping starts ends ∧
      starts[index]? = some start ∧ ends[index]? = some stop ∧
      PerLayerChunk kvCaches first slotMapping blockSize skipBefore start stop descriptor
        physicalBlocks := by
  unfold buildPerLayerDirectPlans at built
  rw [if_neg (not_not.mpr rfl)] at built
  cases kvCaches with
  | nil =>
      cases built
      exact absurd (fallback_no_descriptor planned) (Option.some_ne_none _)
  | cons first rest =>
      simp only [Checked.check_ok, Checked.bind_ok, not_not] at built
      obtain ⟨same, _, checked, built⟩ := built
      split at built
      · cases built
        exact absurd (fallback_no_descriptor planned) (Option.some_ne_none _)
      rename_i dims
      split at built
      · cases built
        exact absurd (fallback_no_descriptor planned) (Option.some_ne_none _)
      rename_i blocks
      split at built
      · cases built
        exact absurd (fallback_no_descriptor planned) (Option.some_ne_none _)
      rename_i uniform
      have range : ∃ start stop, starts[index]? = some start ∧ ends[index]? = some stop := by
        have inside := (List.getElem?_eq_some_iff.mp planned).1
        rw [Checked.length_mapM built, List.length_zip, same, Nat.min_self] at inside
        exact ⟨_, _, List.getElem?_eq_getElem (same ▸ inside), List.getElem?_eq_getElem inside⟩
      obtain ⟨start, stop, here, there⟩ := range
      have item : (starts.zip ends)[index]? = some (start, stop) :=
        List.getElem?_zip_eq_some.mpr ⟨here, there⟩
      obtain ⟨physicalBlocks, chunk⟩ :=
        perLayerChunk_of_plan (Checked.mapM_getElem? built item planned)
      refine ⟨first, start, stop, physicalBlocks, ?_, rangesChecked_of_ok same checked, here, there,
        chunk⟩
      simp only [not_or, not_not] at dims blocks
      refine ⟨rfl, dims.2, blocks, dims.1, fun tensor member => ?_⟩
      simp only [List.any_eq_true, decide_eq_true_eq, not_exists, not_and, not_or, not_not,
        Bool.not_eq_false] at uniform
      obtain ⟨_, shapes, types, _, contiguous⟩ := uniform tensor member
      exact ⟨shapes, types, contiguous⟩

/-! ### Rows of the caches -/

/-- A byte of a chunk's rows: layer, K/V half, position of the token in the
slot mapping, byte of the row. -/
structure RowByte where
  layer : ℕ
  half : ℕ
  token : ℕ
  low : ℕ
deriving DecidableEq, Repr

/-- The address of the row of a slot in one half of a `[2, NB, BS, NH, HS]` cache. -/
def perLayerRow (tensor : Tensor) (blockSize half : ℕ) (slot : ℤ) : ℤ :=
  tensor.toView.address [half, (slot / blockSize).toNat, (slot % blockSize).toNat, 0, 0]

/-- The chunk that a file for such caches holds. -/
def perLayerShape (first : Tensor) (numLayers blockSize : ℕ) (chunkTokens : ℤ) : ChunkShape where
  numLayers := numLayers
  chunkBlocks := (chunkTokens / blockSize).toNat
  blockSize := blockSize
  hiddenDim := first.dim 3 * first.dim 4
  itemsize := first.elementSize

theorem exists_dims {tensor : Tensor} (rank : tensor.shape.length = 5) :
    tensor.shape = [tensor.dim 0, tensor.dim 1, tensor.dim 2, tensor.dim 3, tensor.dim 4] := by
  unfold Tensor.dim
  match tensor.shape, rank with
  | [_, _, _, _, _], _ => rfl

/-- The rows of a contiguous cache follow each other slot by slot. -/
theorem perLayerRow_eq {first tensor : Tensor} {numLayers blockSize : ℕ} {chunkTokens : ℤ}
    (rank : first.shape.length = 5) (halves : first.dim 0 = 2) (blocks : first.dim 2 = blockSize)
    (shapes : tensor.shape = first.shape) (types : tensor.dtype = first.dtype)
    (contiguous : tensor.isContiguous = true) {half slot low : ℕ} {block : ℤ} (halfIn : half < 2)
    (nonneg : 0 ≤ block) (below : block < first.dim 1) (slotIn : slot < blockSize)
    (lowIn : low < (perLayerShape first numLayers blockSize chunkTokens).rowNbytes) :
    perLayerRow tensor blockSize half (block * blockSize + slot) + (low : ℤ) =
      tensor.dataPtr + (half * first.dim 1 + block) * perLayerBlockNbytes first +
        ((slot * (perLayerShape first numLayers blockSize chunkTokens).rowNbytes + low : ℕ) : ℤ) := by
  obtain ⟨number, rfl⟩ := Int.eq_ofNat_of_zero_le nonneg
  have positive : 0 < blockSize := Nat.zero_lt_of_lt slotIn
  have quotient : (((number : ℤ) * blockSize + slot) / blockSize).toNat = number := by
    have same : ((number : ℤ) * blockSize + slot) / blockSize = number := by
      rw [add_comm, Int.add_mul_ediv_right _ _ (by omega), Int.ediv_eq_zero_of_lt (by omega)
        (by omega), zero_add]
    rw [same, Int.toNat_natCast]
  have remainder : (((number : ℤ) * blockSize + slot) % blockSize).toNat = slot := by
    have same : ((number : ℤ) * blockSize + slot) % blockSize = slot := by
      rw [add_comm, Int.add_mul_emod_self_right, Int.emod_eq_of_lt (by omega) (by omega)]
    rw [same, Int.toNat_natCast]
  have dims := exists_dims rank
  have row : 0 < first.dim 3 * first.dim 4 := by
    rcases Nat.eq_zero_or_pos (first.dim 3 * first.dim 4) with none | some
    · simp [ChunkShape.rowNbytes, perLayerShape, none] at lowIn
    · exact some
  have inside : InRange tensor.shape [half, number, slot, 0, 0] := by
    rw [shapes, dims]
    simp only [inRange_cons, inRange_nil, and_true]
    exact ⟨by omega, by omega, by omega, Nat.pos_of_mul_pos_right row,
      Nat.pos_of_mul_pos_left row⟩
  rw [perLayerRow, quotient, remainder, Tensor.address_of_contiguous contiguous inside, shapes,
    dims]
  have size : tensor.elementSize = first.elementSize := congrArg DType.itemsize types
  simp only [offset_cons, offset_nil, List.prod_cons, List.prod_nil, size, perLayerBlockNbytes,
    ChunkShape.rowNbytes, perLayerShape, blocks]
  push_cast
  ring

/-! ### What the segments move -/

/-- A call of the builder and one chunk that it planned. -/
structure PerLayerPlan where
  first : Tensor
  others : List Tensor
  slotMapping : List ℤ
  starts : List ℤ
  ends : List ℤ
  blockSize : ℕ
  skipBefore : ℤ
  plans : List DirectIOPlan
  built : buildPerLayerDirectPlans (first :: others) slotMapping starts ends .retrieve blockSize
    skipBefore = .ok plans
  index : ℕ
  start : ℤ
  stop : ℤ
  starts_at : starts[index]? = some start
  ends_at : ends[index]? = some stop
  descriptor : DirectIODescriptor
  planned : plans[index]? = some ⟨some descriptor, none⟩

namespace PerLayerPlan

variable (plan : PerLayerPlan)

def kvCaches : List Tensor := plan.first :: plan.others

/-- The chunk that a file for the planned call holds. -/
def shape : ChunkShape :=
  perLayerShape plan.first plan.kvCaches.length plan.blockSize (plan.stop - plan.start)

/-- The row bytes of the uncached tokens of the chunk, in all layers and halves. -/
def Chosen (byte : RowByte) : Prop :=
  byte.layer < plan.kvCaches.length ∧ byte.half < 2 ∧
    max plan.start plan.skipBefore ≤ byte.token ∧ (byte.token : ℤ) < plan.stop ∧
    byte.low < plan.shape.rowNbytes

/-- Where a row byte belongs in the caches. -/
def place (byte : RowByte) : ℤ :=
  perLayerRow (plan.kvCaches.getD byte.layer plan.first) plan.blockSize byte.half
    (plan.slotMapping.getD byte.token 0) + byte.low

/-- The position of a token in its chunk. -/
def chunkToken (byte : RowByte) : ℕ := (byte.token - plan.start).toNat

/-- Where a row byte is in the file. -/
def origin (byte : RowByte) : ℤ :=
  blockFirstHeaderSize + plan.shape.payloadPosition (plan.chunkToken byte / plan.blockSize)
    byte.layer byte.half (plan.chunkToken byte % plan.blockSize) byte.low

theorem spec : PerLayerCaches plan.kvCaches plan.first plan.blockSize ∧
    RangesChecked plan.slotMapping plan.starts plan.ends ∧
    ∃ physicalBlocks, PerLayerChunk plan.kvCaches plan.first plan.slotMapping plan.blockSize
      plan.skipBefore plan.start plan.stop plan.descriptor physicalBlocks := by
  obtain ⟨first, start, stop, physicalBlocks, caches, ranges, here, there, chunk⟩ :=
    perLayerPlan_spec plan.built plan.planned
  have sameFirst : first = plan.first := (Option.some.inj caches.head).symm
  have sameStart : start = plan.start := Option.some.inj (here.symm.trans plan.starts_at)
  have sameStop : stop = plan.stop := Option.some.inj (there.symm.trans plan.ends_at)
  subst sameFirst sameStart sameStop
  exact ⟨caches, ranges, physicalBlocks, chunk⟩

theorem start_nonneg : 0 ≤ plan.start :=
  plan.spec.2.1.nonneg plan.start (List.mem_of_getElem? plan.starts_at)

theorem nonempty : plan.start < plan.stop :=
  plan.spec.2.1.nonempty plan.index plan.start plan.stop plan.starts_at plan.ends_at

theorem covered : plan.stop ≤ plan.slotMapping.length :=
  plan.spec.2.1.covered plan.stop (List.mem_of_getElem? plan.ends_at)

/-- The copy that reads one segment. -/
theorem segmentCopy_eq {layer : ℕ} {place : ℕ × ℤ} (logicalOffset physicalOffset : ℤ)
    (listed : (addAllocations [] plan.kvCaches).2[layer]? = some place) :
    (XdsBackend.segmentCall plan.descriptor
        ⟨logicalOffset, place.1, place.2 + physicalOffset, perLayerBlockNbytes plan.first⟩).readCopy =
      ⟨logicalOffset, (plan.kvCaches.getD layer plan.first).dataPtr + physicalOffset,
        perLayerBlockNbytes plan.first⟩ := by
  obtain ⟨_, _, physicalBlocks, chunk⟩ := plan.spec
  obtain ⟨_, _, places⟩ := addAllocations_spec [] plan.kvCaches
  obtain ⟨tensor, allocation, here, registered, holds⟩ := places layer place listed
  have allocations : plan.descriptor.registrationAllocations =
      (addAllocations [] plan.kvCaches).1 := by
    rw [DirectIODescriptor.registrationAllocations, chunk.descriptor_eq]
    have nonempty : (addAllocations [] plan.kvCaches).1 ≠ [] := by
      rintro empty
      rw [empty] at registered
      simp at registered
    simp [segmentDescriptor, nonempty]
  have tensor_eq : plan.kvCaches.getD layer plan.first = tensor := by
    rw [List.getD_eq_getElem?_getD, here, Option.getD_some]
  simp only [XdsCall.readCopy, XdsBackend.segmentCall, allocations, Int.toNat_natCast, registered,
    Option.map_some, Option.getD_some, tensor_eq, ← holds.data, add_assoc]

/-- The place and the origin of a row byte, by block and slot. -/
theorem place_origin {physicalBlocks : List ℤ} (chunk : PerLayerChunk plan.kvCaches plan.first
      plan.slotMapping plan.blockSize plan.skipBefore plan.start plan.stop plan.descriptor
      physicalBlocks)
    (byte : RowByte) {index slot : ℕ} {block : ℤ} (layerIn : byte.layer < plan.kvCaches.length)
    (halfIn : byte.half < 2) (lowIn : byte.low < plan.shape.rowNbytes)
    (here : physicalBlocks[index]? = some block) (slotIn : slot < plan.blockSize)
    (reach : (byte.token : ℤ) = plan.start + skipTokens plan.skipBefore plan.start plan.stop +
      ((index * plan.blockSize + slot : ℕ) : ℤ))
    (named : plan.slotMapping.getD byte.token 0 = block * plan.blockSize + slot) :
    plan.place byte = (plan.kvCaches.getD byte.layer plan.first).dataPtr +
        (byte.half * plan.first.dim 1 + block) * perLayerBlockNbytes plan.first +
          ((slot * plan.shape.rowNbytes + byte.low : ℕ) : ℤ) ∧
      plan.origin byte = blockFirstHeaderSize +
        (skipTokens plan.skipBefore plan.start plan.stop / plan.blockSize + index) *
          ((plan.kvCaches.length * 2 * perLayerBlockNbytes plan.first : ℕ) : ℤ) +
        (byte.layer * 2 + byte.half) * perLayerBlockNbytes plan.first +
          ((slot * plan.shape.rowNbytes + byte.low : ℕ) : ℤ) := by
  obtain ⟨caches, _, _⟩ := plan.spec
  obtain ⟨nonneg, below⟩ := chunk.blocksOf.inRange block (List.mem_of_getElem? here)
  have member : plan.kvCaches.getD byte.layer plan.first ∈ plan.kvCaches := by
    rw [List.getD_eq_getElem?_getD, List.getElem?_eq_getElem layerIn]
    exact List.getElem_mem layerIn
  obtain ⟨shapes, types, contiguous⟩ := caches.uniform _ member
  constructor
  · rw [place, named]
    exact perLayerRow_eq caches.rank caches.halves caches.blocks shapes types contiguous halfIn
      nonneg below slotIn lowIn
  · obtain ⟨blocks, slots⟩ := block_of_token
      (skipTokens_spec plan.nonempty chunk.uncached).1 chunk.aligned slotIn reach
    have layerBlock : plan.shape.layerBlockNbytes = perLayerBlockNbytes plan.first := by
      simp only [ChunkShape.layerBlockNbytes, ChunkShape.rowNbytes, shape, perLayerShape,
        perLayerBlockNbytes, caches.blocks]
      ring
    have layers : plan.shape.numLayers = plan.kvCaches.length := rfl
    rw [origin, chunkToken, ChunkShape.payloadPosition, ChunkShape.blockPosition, slots,
      ChunkShape.blockNbytes, layerBlock, layers]
    generalize (byte.token - plan.start).toNat / plan.blockSize = number at blocks ⊢
    push_cast
    rw [blocks]
    ring

/-- **What a per-layer descriptor moves.** The segments move to every row byte
of the uncached tokens its byte of the file, and nothing else. -/
theorem moves_segments (from' address : ℤ) :
    Moves ((plan.descriptor.byteSegments.map (XdsBackend.segmentCall plan.descriptor)).map
        XdsCall.readCopy) from' address ↔
      ∃ byte, plan.Chosen byte ∧ address = plan.place byte ∧ from' = plan.origin byte := by
  obtain ⟨caches, _, physicalBlocks, chunk⟩ := plan.spec
  obtain ⟨nonneg, skipBelow, latest⟩ := skipTokens_spec plan.nonempty chunk.uncached
  have startNonneg := plan.start_nonneg
  have lengths := (addAllocations_spec [] plan.kvCaches).2.1
  have segments : plan.descriptor.byteSegments = perLayerSegments (plan.first.dim 1)
      (perLayerBlockNbytes plan.first) (addAllocations [] plan.kvCaches).2
      (skipTokens plan.skipBefore plan.start plan.stop / plan.blockSize) physicalBlocks :=
    congrArg DirectIODescriptor.byteSegments chunk.descriptor_eq
  have rows : perLayerBlockNbytes plan.first = plan.blockSize * plan.shape.rowNbytes := by
    simp only [ChunkShape.rowNbytes, shape, perLayerShape, perLayerBlockNbytes, caches.blocks]
    ring
  rw [segments, perLayerSegments]
  simp only [Moves, List.mem_map, List.mem_flatMap, Prod.exists, List.mem_zipIdx_iff_getElem?,
    List.mem_range, lengths]
  constructor
  · rintro ⟨copy, ⟨call, ⟨segment, ⟨block, index, here, allocationIndex, offset, layer, listed,
      half, halfIn, rfl⟩, rfl⟩, rfl⟩, covers, from_eq⟩
    rw [plan.segmentCopy_eq _ _ listed] at covers from_eq
    have layerIn : layer < plan.kvCaches.length := by
      rw [← lengths]
      exact (List.getElem?_eq_some_iff.mp listed).1
    obtain ⟨above, below⟩ := covers
    simp only [rows] at above below
    obtain ⟨slot, low, slotIn, lowIn, place⟩ := exists_digit_address above below
    obtain ⟨token, reach, inside, named⟩ := chunk.blocksOf.block_token (by omega) plan.covered here
      slotIn
    have both := plan.place_origin chunk ⟨layer, half, token, low⟩ layerIn halfIn lowIn here
      slotIn reach named
    have reached : max plan.start plan.skipBefore ≤ (token : ℤ) := by omega
    refine ⟨⟨layer, half, token, low⟩, ⟨layerIn, halfIn, reached, inside, lowIn⟩, ?_, ?_⟩
    · rw [both.1, place, rows]
    · rw [both.2, ← from_eq, Copy.origin, place]
      simp only [rows]
      ring
  · rintro ⟨byte, ⟨layerIn, halfIn, above, below, lowIn⟩, rfl, rfl⟩
    have whole : (plan.stop - (plan.start + skipTokens plan.skipBefore plan.start plan.stop)) %
        plan.blockSize = 0 := by
      rw [← sub_sub]
      exact Int.emod_eq_zero_of_dvd (dvd_sub (Int.dvd_of_emod_eq_zero chunk.whole)
        (Int.dvd_of_emod_eq_zero chunk.aligned))
    obtain ⟨index, slot, block, here, slotIn, reach, named⟩ := chunk.blocksOf.token_block
      (by omega) plan.covered whole (latest.trans_le above) below
    obtain ⟨place, origin⟩ := plan.place_origin chunk byte layerIn halfIn lowIn here slotIn reach
      named
    obtain ⟨registered, listed⟩ : ∃ registered,
        (addAllocations [] plan.kvCaches).2[byte.layer]? = some registered :=
      ⟨_, List.getElem?_eq_getElem (lengths ▸ layerIn)⟩
    have inBlock := digit_lt slotIn lowIn
    refine ⟨_, ⟨_, ⟨_, ⟨block, index, here, _, _, byte.layer, listed, byte.half, halfIn, rfl⟩,
      rfl⟩, rfl⟩, ?_⟩
    rw [plan.segmentCopy_eq _ _ listed, place, origin]
    simp only [Copy.Covers, Copy.origin, rows]
    constructor
    · omega
    · push_cast
      ring

end PerLayerPlan

end LMCacheHcu.Storage
