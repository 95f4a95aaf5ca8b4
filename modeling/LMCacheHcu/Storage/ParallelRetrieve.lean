import LMCacheHcu.Foundation.Interleaving
import LMCacheHcu.Storage.AsymmetricPlan
import LMCacheHcu.Storage.CrossLayerPlan

/-! # Direct retrieves in parallel

`batched_direct_get` lets the retrieves of a batch run in parallel when no two
of them name a common physical block. The check compares block numbers; the
transfers write byte ranges of the caches that the blocks are read off.
-/

namespace LMCacheHcu.Storage

open RowMajor ByteCopy Interleaving

/-! ### The check -/

/-- What a prepared `_DirectRetrieveJob` transfers: the file at its path with
the metadata of its entry, and the descriptor. -/
structure DirectRetrieveJob where
  file : FileImage
  diskMetadata : BlockFirstDiskMetadata
  descriptor : DirectIODescriptor

/-- The loop of `_can_parallel_direct_retrieve`, with the blocks seen so far. -/
def parallelFrom (seenBlocks : Finset ℤ) : List DirectRetrieveJob → Bool
  | [] => true
  | job :: jobs =>
      let blockIds := job.descriptor.physicalBlockIds
      if job.descriptor.leadingEdge.isSome = true ∨ blockIds = [] then false
      else
        let blockSet := blockIds.toFinset
        if blockSet.card ≠ blockIds.length ∨ (seenBlocks ∩ blockSet).Nonempty then false
        else parallelFrom (seenBlocks ∪ blockSet) jobs

/-- `_can_parallel_direct_retrieve`. -/
def canParallelDirectRetrieve (jobs : List DirectRetrieveJob) : Bool :=
  if jobs.length < 2 then false else parallelFrom ∅ jobs

/-- What the loop has checked when it ends with true. -/
theorem parallelFrom_ok {seenBlocks : Finset ℤ} {jobs : List DirectRetrieveJob}
    (parallel : parallelFrom seenBlocks jobs = true) :
    (∀ job ∈ jobs, job.descriptor.leadingEdge = none ∧
        ∀ block ∈ job.descriptor.physicalBlockIds, block ∉ seenBlocks) ∧
      jobs.Pairwise fun left right => ∀ block ∈ left.descriptor.physicalBlockIds,
        block ∉ right.descriptor.physicalBlockIds := by
  induction jobs generalizing seenBlocks with
  | nil => simp
  | cons job jobs ih =>
      simp only [parallelFrom, Bool.if_false_left, Bool.and_eq_true, Bool.not_eq_true',
        decide_eq_false_iff_not, not_or, Option.not_isSome_iff_eq_none] at parallel
      obtain ⟨⟨edge, _⟩, ⟨_, unseen⟩, rest⟩ := parallel
      obtain ⟨each, pairs⟩ := ih rest
      rw [Finset.not_nonempty_iff_eq_empty, ← Finset.disjoint_iff_inter_eq_empty,
        Finset.disjoint_right] at unseen
      simp only [List.mem_toFinset] at unseen
      refine ⟨?_, ?_⟩
      · intro other member
        rcases List.mem_cons.mp member with rfl | later
        · exact ⟨edge, fun block listed => unseen listed⟩
        · exact ⟨(each other later).1, fun block listed seen =>
            (each other later).2 block listed (Finset.mem_union_left _ seen)⟩
      · refine List.pairwise_cons.mpr ⟨fun other later block listed again => ?_, pairs⟩
        exact (each other later).2 block again
          (Finset.mem_union_right _ (List.mem_toFinset.mpr listed))

/-! ### The reads of a transfer -/

/-- One read that a transfer asks of the driver. -/
structure DirectRead where
  label : String
  file : FileImage
  call : XdsCall

/-- What a complete read puts into device memory. -/
def DirectRead.patch (read : DirectRead) (address : ℤ) : Option Byte :=
  if read.call.readCopy.Covers address then
    some (read.file.content (read.call.readCopy.origin address))
  else none

/-- The reads of `_transfer_direct_xds` for a job without a leading edge. -/
def DirectRetrieveJob.reads (job : DirectRetrieveJob) : List DirectRead :=
  if job.descriptor.byteSegments.isEmpty then
    job.descriptor.runs.map fun run =>
      ⟨"direct XDS read", job.file, XdsBackend.runCall job.descriptor run⟩
  else
    job.descriptor.byteSegments.map fun segment =>
      ⟨"direct XDS segment read", job.file, XdsBackend.segmentCall job.descriptor segment⟩

namespace XdsBackend

variable (backend : XdsBackend)

def performRead (memory : Memory) (read : DirectRead) : Except XdsError Memory :=
  backend.readCall read.label read.file memory read.call

theorem transferDirect_eq_reads {job : DirectRetrieveJob} (edge : job.descriptor.leadingEdge = none)
    (scratchBase : ℤ) (memory : Memory) :
    backend.transferDirectXds job.file job.descriptor scratchBase memory =
      job.reads.foldlM backend.performRead memory := by
  unfold transferDirectXds DirectRetrieveJob.reads
  split
  · rw [edge, List.foldlM_map]
    change (job.descriptor.runs.map (runCall job.descriptor)).foldlM
      (backend.readCall "direct XDS read" job.file) memory = _
    rw [List.foldlM_map]
    rfl
  · rw [List.foldlM_map, List.foldlM_map]
    rfl

/-- Reads that are complete write what their patches say. -/
theorem performReads_of_complete {reads : List DirectRead}
    (complete : ∀ read ∈ reads, ∀ memory,
      (backend.driver.read read.call read.file memory).1 = read.call.size) (memory : Memory) :
    reads.foldlM backend.performRead memory =
      .ok (writeSteps DirectRead.patch memory reads) := by
  induction reads generalizing memory with
  | nil => rfl
  | cons read reads ih =>
      have full := complete read (List.mem_cons_self ..) memory
      have first : backend.performRead memory read = .ok (write DirectRead.patch memory read) := by
        rw [performRead, readCall]
        simp only [full, ne_eq, not_true_eq_false, if_false, Except.ok.injEq]
        rw [backend.driver.read_full _ _ _ full]
        funext address
        by_cases covers : read.call.readCopy.Covers address
        · rw [Interleaving.write, DirectRead.patch, if_pos covers]
          exact if_pos covers
        · rw [Interleaving.write, DirectRead.patch, if_neg covers]
          exact if_neg covers
      rw [List.foldlM_cons, first]
      exact ih (fun other member => complete other (List.mem_cons_of_mem _ member)) _

end XdsBackend

/-- The copies of the reads. -/
theorem DirectRetrieveJob.reads_copies (job : DirectRetrieveJob) :
    job.reads.map (fun read => read.call.readCopy) =
      if job.descriptor.byteSegments.isEmpty then
        (job.descriptor.runs.map (XdsBackend.runCall job.descriptor)).map XdsCall.readCopy
      else (job.descriptor.byteSegments.map (XdsBackend.segmentCall job.descriptor)).map
        XdsCall.readCopy := by
  unfold DirectRetrieveJob.reads
  split <;> simp only [List.map_map] <;> rfl

/-! ### The blocks of the caches -/

/-- The caches that the three builders take. -/
inductive KvCaches
  | crossLayer (kvCache : Tensor)
  | perLayer (kvCaches : List Tensor)
  | asymmetric (kvCaches : List (Tensor × Tensor))

namespace KvCaches

/-- The descriptor is a planned chunk of a call of the builder with these caches. -/
def Plans : KvCaches → DirectIODescriptor → Prop
  | .crossLayer kvCache, descriptor =>
      ∃ plan : CrossLayerPlan, plan.kvCache = kvCache ∧ plan.descriptor = descriptor
  | .perLayer kvCaches, descriptor =>
      ∃ plan : PerLayerPlan, plan.kvCaches = kvCaches ∧ plan.descriptor = descriptor
  | .asymmetric kvCaches, descriptor =>
      ∃ plan : AsymmetricPlan, plan.kvCaches = kvCaches ∧ plan.descriptor = descriptor

def tensors : KvCaches → List Tensor
  | .crossLayer kvCache => [kvCache]
  | .perLayer kvCaches => kvCaches
  | .asymmetric kvCaches => pairTensors kvCaches

/-- The dimension of the tensors that counts the physical blocks. -/
def blockAxis : KvCaches → ℕ
  | .crossLayer _ => 0
  | .perLayer _ => 1
  | .asymmetric _ => 0

/-- The address is a byte of the physical block in one of the tensors. -/
def BlockByte (kvCaches : KvCaches) (block : ℕ) (address : ℤ) : Prop :=
  ∃ tensor ∈ kvCaches.tensors, tensor.toView.SliceByte kvCaches.blockAxis block address

/-- No byte belongs to two physical blocks. -/
def BlocksApart (kvCaches : KvCaches) : Prop :=
  ∀ block block' address, kvCaches.BlockByte block address → kvCaches.BlockByte block' address →
    block = block'

/-- Any two of the tensors are the same view or share no byte. -/
def TensorsApart (kvCaches : KvCaches) : Prop :=
  kvCaches.tensors.Pairwise fun left right => left.toView = right.toView ∨
    ∀ block block' address, left.toView.SliceByte kvCaches.blockAxis block address →
      ¬ right.toView.SliceByte kvCaches.blockAxis block' address

/-- Tensors that are apart, each with its own blocks apart, have all blocks apart. -/
theorem blocksApart_of_tensorsApart {kvCaches : KvCaches} (apart : kvCaches.TensorsApart)
    (slices : ∀ tensor ∈ kvCaches.tensors, tensor.toView.SlicesApart kvCaches.blockAxis) :
    kvCaches.BlocksApart := by
  rintro block block' address ⟨left, leftIn, inside⟩ ⟨right, rightIn, inside'⟩
  let equal : Tensor → Tensor → Prop := fun left right => ∀ block block' address,
    left.toView.SliceByte kvCaches.blockAxis block address →
      right.toView.SliceByte kvCaches.blockAxis block' address → block = block'
  have symmetric : Std.Symm equal := ⟨fun left right same block block' address inside inside' =>
    (same block' block address inside' inside).symm⟩
  have different : kvCaches.tensors.Pairwise equal := by
    refine apart.imp_of_mem fun {left right} leftIn _ separate block block' address inside
      inside' => ?_
    rcases separate with same | never
    · rw [← same] at inside'
      exact slices left leftIn block block' address inside inside'
    · exact absurd inside' (never block block' address inside)
  exact different.forall_of_forall slices leftIn rightIn block block' address inside inside'

end KvCaches

/-! ### What the reads of a planned chunk write -/

/-- Runs write bytes of the blocks of the descriptor. -/
theorem CrossLayerPlan.sliceByte_of_moves (plan : CrossLayerPlan) {origin address : ℤ}
    (moved : Moves ((plan.descriptor.runs.map (XdsBackend.runCall plan.descriptor)).map
      XdsCall.readCopy) origin address) :
    ∃ block : ℕ, (block : ℤ) ∈ plan.descriptor.physicalBlockIds ∧
      plan.kvCache.toView.SliceByte 0 block address := by
  obtain ⟨cache, _, leadingEdge, physicalBlocks, chunk⟩ := plan.spec
  obtain ⟨blocks, listed, low, lowIn, _, rfl⟩ :=
    (moves_readRuns plan.blockNbytes_eq _ _ _).mp moved
  have made := chunk.descriptor_eq
  rw [made] at listed
  obtain ⟨index, physical, here, rfl⟩ := mem_coalesceRuns_blocks.mp listed
  obtain ⟨nonneg, below⟩ := chunk.blocksOf.inRange physical (List.mem_of_getElem? here)
  obtain ⟨block, rfl⟩ := Int.eq_ofNat_of_zero_le nonneg
  refine ⟨block, ?_, ?_⟩
  · rw [made]
    exact List.mem_of_getElem? here
  · have extents := exists_sixDims cache.rank
    have size : plan.shape.blockNbytes = [plan.kvCache.dim 1, plan.kvCache.dim 2,
        plan.kvCache.dim 3, plan.kvCache.dim 4, plan.kvCache.dim 5].prod *
          plan.kvCache.elementSize := by
      rw [shape, ← cache.blockNbytes_eq, crossLayerBlockNbytes]
      simp only [List.prod_cons, List.prod_nil]
      ring
    rw [size] at lowIn ⊢
    have slice := (Tensor.dense_of_contiguous cache.contiguous).sliceByte_zero extents
      (show block < plan.kvCache.dim 0 by omega) lowIn
    rw [made]
    convert slice using 1
    simp only [blockFirstDescriptor, Tensor.toView]
    push_cast
    ring

/-- The listed block and the slot of an uncached token. -/
theorem BlocksOfSlots.exists_listed {blockSize numBlocks : ℕ} {slotMapping physicalBlocks : List ℤ}
    {skipBefore start stop : ℤ}
    (blocks : BlocksOfSlots blockSize numBlocks
      (sliceOf slotMapping (start + skipTokens skipBefore start stop) stop) physicalBlocks)
    (startNonneg : 0 ≤ start) (nonempty : start < stop) (covered : stop ≤ slotMapping.length)
    (whole : (stop - start) % blockSize = 0) (aligned : skipTokens skipBefore start stop % blockSize = 0)
    (uncached : skipTokens skipBefore start stop ≠ stop - start) {token : ℕ}
    (above : max start skipBefore ≤ token) (below : (token : ℤ) < stop) :
    ∃ block slot : ℕ, (block : ℤ) ∈ physicalBlocks ∧ block < numBlocks ∧ slot < blockSize ∧
      slotMapping.getD token 0 = block * blockSize + slot := by
  obtain ⟨nonneg, _, latest⟩ := skipTokens_spec nonempty uncached
  have rest : (stop - (start + skipTokens skipBefore start stop)) % blockSize = 0 := by
    rw [← sub_sub]
    exact Int.emod_eq_zero_of_dvd (dvd_sub (Int.dvd_of_emod_eq_zero whole)
      (Int.dvd_of_emod_eq_zero aligned))
  obtain ⟨index, slot, physical, here, slotIn, _, named⟩ := blocks.token_block
    (by omega) covered rest (latest.trans_le above) below
  have listed := List.mem_of_getElem? here
  obtain ⟨physicalNonneg, physicalBelow⟩ := blocks.inRange physical listed
  obtain ⟨block, rfl⟩ := Int.eq_ofNat_of_zero_le physicalNonneg
  exact ⟨block, slot, listed, by omega, slotIn, named⟩

/-- Segments of per-layer caches write bytes of the blocks of the descriptor. -/
theorem PerLayerPlan.sliceByte_of_moves (plan : PerLayerPlan) {origin address : ℤ}
    (moved : Moves ((plan.descriptor.byteSegments.map
      (XdsBackend.segmentCall plan.descriptor)).map XdsCall.readCopy) origin address) :
    ∃ block : ℕ, (block : ℤ) ∈ plan.descriptor.physicalBlockIds ∧
      ∃ tensor ∈ plan.kvCaches, tensor.toView.SliceByte 1 block address := by
  obtain ⟨byte, ⟨layerIn, halfIn, above, below, lowIn⟩, rfl, _⟩ := (plan.moves_segments _ _).mp moved
  obtain ⟨caches, _, physicalBlocks, chunk⟩ := plan.spec
  obtain ⟨block, slot, listed, blockIn, slotIn, named⟩ := chunk.blocksOf.exists_listed
    plan.start_nonneg plan.nonempty plan.covered chunk.whole chunk.aligned chunk.uncached above below
  have member : plan.kvCaches.getD byte.layer plan.first ∈ plan.kvCaches := by
    rw [List.getD_eq_getElem?_getD, List.getElem?_eq_getElem layerIn]
    exact List.getElem_mem layerIn
  obtain ⟨shapes, types, contiguous⟩ := caches.uniform _ member
  refine ⟨block, ?_, _, member, ?_⟩
  · rw [chunk.descriptor_eq]
    exact listed
  have place := perLayerRow_eq caches.rank caches.halves caches.blocks shapes types contiguous
    halfIn (Int.natCast_nonneg block) (show (block : ℤ) < plan.first.dim 1 by omega) slotIn lowIn
  have extents := shapes.trans (exists_dims caches.rank)
  rw [caches.halves] at extents
  have size : (plan.kvCaches.getD byte.layer plan.first).elementSize = plan.first.elementSize :=
    congrArg DType.itemsize types
  have rows : perLayerBlockNbytes plan.first =
      [plan.first.dim 2, plan.first.dim 3, plan.first.dim 4].prod *
        (plan.kvCaches.getD byte.layer plan.first).elementSize := by
    rw [size, perLayerBlockNbytes]
    simp only [List.prod_cons, List.prod_nil]
    ring
  have inBlock : slot * plan.shape.rowNbytes + byte.low <
      [plan.first.dim 2, plan.first.dim 3, plan.first.dim 4].prod *
        (plan.kvCaches.getD byte.layer plan.first).elementSize := by
    have bound := digit_lt slotIn lowIn
    rw [← rows]
    convert bound using 1
    simp only [perLayerBlockNbytes, ChunkShape.rowNbytes, PerLayerPlan.shape, perLayerShape,
      caches.blocks]
    ring
  have slice : (plan.kvCaches.getD byte.layer plan.first).toView.SliceByte 1 block
      ((plan.kvCaches.getD byte.layer plan.first).dataPtr +
        (((byte.half * plan.first.dim 1 + block) * perLayerBlockNbytes plan.first +
          (slot * plan.shape.rowNbytes + byte.low) : ℕ) : ℤ)) := by
    rw [rows]
    exact (Tensor.dense_of_contiguous contiguous).sliceByte_one extents halfIn blockIn inBlock
  rw [PerLayerPlan.place, named, place]
  change View.SliceByte _ 1 block (_ + ((slot * plan.shape.rowNbytes + byte.low : ℕ) : ℤ))
  convert slice using 1
  push_cast
  ring

theorem exists_fourDims {tensor : Tensor} (rank : tensor.shape.length = 4) :
    tensor.shape = [tensor.dim 0, tensor.dim 1, tensor.dim 2, tensor.dim 3] ∧
      tensor.stride =
        [tensor.strideOf 0, tensor.strideOf 1, tensor.strideOf 2, tensor.strideOf 3] := by
  have strides := tensor.ranked.trans rank
  unfold Tensor.dim Tensor.strideOf
  constructor
  · match tensor.shape, rank with
    | [_, _, _, _], _ => rfl
  · match tensor.stride, strides with
    | [_, _, _, _], _ => rfl

/-- The key and value caches of the layers are among the tensors. -/
theorem AsymmetricPlan.cacheOf_mem (plan : AsymmetricPlan) {layer : ℕ} (half : ℕ)
    (layerIn : layer < plan.kvCaches.length) :
    plan.cacheOf layer half ∈ pairTensors plan.kvCaches := by
  have member : plan.kvCaches.getD layer (plan.firstKey, plan.firstValue) ∈ plan.kvCaches := by
    rw [List.getD_eq_getElem?_getD, List.getElem?_eq_getElem layerIn]
    exact List.getElem_mem layerIn
  refine List.mem_flatMap.mpr ⟨_, member, ?_⟩
  rw [AsymmetricPlan.cacheOf]
  split <;> simp

/-- Segments of key and value caches write bytes of the blocks of the descriptor. -/
theorem AsymmetricPlan.sliceByte_of_moves (plan : AsymmetricPlan) {origin address : ℤ}
    (moved : Moves plan.segmentCopies origin address) :
    ∃ block : ℕ, (block : ℤ) ∈ plan.descriptor.physicalBlockIds ∧
      ∃ tensor ∈ pairTensors plan.kvCaches, tensor.toView.SliceByte 0 block address := by
  obtain ⟨⟨layer, half, token, low⟩, ⟨layerIn, halfIn, above, below, lowIn⟩, rfl, _⟩ :=
    (plan.moves_segments _ _).mp moved
  obtain ⟨caches, _, physicalBlocks, chunk⟩ := plan.spec
  obtain ⟨block, slot, listed, blockIn, slotIn, named⟩ := chunk.blocksOf.exists_listed
    plan.start_nonneg plan.nonempty plan.covered chunk.whole chunk.aligned chunk.uncached above below
  simp only at layerIn halfIn lowIn named
  rw [plan.rowNbytes_eq] at lowIn
  obtain ⟨head, vectorLow, headIn, vectorIn, rfl⟩ := exists_digit lowIn
  rw [plan.place_eq ⟨layer, half, token, head * plan.headNbytes + vectorLow⟩ slotIn vectorIn named
    rfl]
  obtain ⟨element, rest, elementIn, restIn, rfl⟩ := exists_digit vectorIn
  refine ⟨block, ?_, plan.cacheOf layer half, plan.cacheOf_mem half layerIn, ?_⟩
  · rw [chunk.descriptor_eq]
    exact listed
  have pair : plan.kvCaches.getD layer (plan.firstKey, plan.firstValue) ∈ plan.kvCaches := by
    rw [List.getD_eq_getElem?_getD, List.getElem?_eq_getElem layerIn]
    exact List.getElem_mem layerIn
  obtain ⟨keys, values, keyType, valueType, keyStride, valueStride⟩ := caches.uniform _ pair
  have extents := (exists_fourDims caches.rank).1
  rw [caches.blocks] at extents
  -- key caches have the slot before the element, value caches behind it
  have halves : half = 0 ∨ half = 1 := by omega
  rcases halves with rfl | rfl
  · have key : plan.cacheOf layer 0 =
        (plan.kvCaches.getD layer (plan.firstKey, plan.firstValue)).1 := rfl
    have strides := (exists_fourDims (keys ▸ caches.rank)).2
    refine ⟨[block, head, slot, element], ?_, rfl, rest, ?_, ?_⟩
    · change InRange (plan.cacheOf layer 0).shape _
      rw [key, keys, extents]
      simp only [inRange_cons, inRange_nil, and_true]
      exact ⟨blockIn, headIn, slotIn, elementIn⟩
    · exact lt_of_lt_of_eq restIn (congrArg DType.itemsize keyType).symm
    · have size : (plan.cacheOf layer 0).elementSize = plan.elementSize :=
        congrArg DType.itemsize keyType
      rw [AsymmetricPlan.stridedPlace, AsymmetricPlan.tokenStride, if_pos rfl]
      simp only [View.address, Tensor.toView, key] at size ⊢
      rw [strides, keyStride, size]
      simp only [strided_cons, strided_nil]
      push_cast
      ring
  · have value : plan.cacheOf layer 1 =
        (plan.kvCaches.getD layer (plan.firstKey, plan.firstValue)).2 := rfl
    have rank : (plan.kvCaches.getD layer (plan.firstKey, plan.firstValue)).2.shape.length = 4 := by
      rw [values]
      rfl
    have strides := (exists_fourDims rank).2
    refine ⟨[block, head, element, slot], ?_, rfl, rest, ?_, ?_⟩
    · change InRange (plan.cacheOf layer 1).shape _
      rw [value, values]
      simp only [inRange_cons, inRange_nil, and_true]
      exact ⟨blockIn, headIn, elementIn, slotIn⟩
    · exact lt_of_lt_of_eq restIn (congrArg DType.itemsize valueType).symm
    · have size : (plan.cacheOf layer 1).elementSize = plan.elementSize :=
        congrArg DType.itemsize valueType
      rw [AsymmetricPlan.stridedPlace, AsymmetricPlan.tokenStride, if_neg one_ne_zero]
      simp only [View.address, Tensor.toView, value] at size ⊢
      rw [strides, valueStride, size]
      simp only [strided_cons, strided_nil]
      push_cast
      ring

/-- The reads of a planned job write bytes of its own blocks. -/
theorem KvCaches.Plans.blockByte {kvCaches : KvCaches} {job : DirectRetrieveJob}
    (planned : kvCaches.Plans job.descriptor) {read : DirectRead} (listed : read ∈ job.reads)
    {address : ℤ} (covers : read.call.readCopy.Covers address) :
    ∃ block : ℕ, (block : ℤ) ∈ job.descriptor.physicalBlockIds ∧
      kvCaches.BlockByte block address := by
  have moved : Moves (job.reads.map fun read => read.call.readCopy)
      (read.call.readCopy.origin address) address :=
    (moves_map ..).mpr ⟨read, listed, covers, rfl⟩
  rw [job.reads_copies] at moved
  cases kvCaches with
  | crossLayer kvCache =>
      obtain ⟨plan, rfl, same⟩ := planned
      rw [← same] at moved ⊢
      have segments : plan.descriptor.byteSegments = [] := by
        obtain ⟨_, _, _, _, chunk⟩ := plan.spec
        rw [chunk.descriptor_eq]
        rfl
      rw [segments] at moved
      obtain ⟨block, inBlocks, inside⟩ := plan.sliceByte_of_moves moved
      exact ⟨block, inBlocks, plan.kvCache, List.mem_singleton_self _, inside⟩
  | perLayer kvCaches =>
      obtain ⟨plan, rfl, same⟩ := planned
      rw [← same] at moved ⊢
      have runs : plan.descriptor.runs = [] := by
        obtain ⟨_, _, _, chunk⟩ := plan.spec
        rw [chunk.descriptor_eq]
        rfl
      split at moved
      · rw [runs] at moved
        exact absurd moved (not_moves_nil _ _)
      · exact plan.sliceByte_of_moves moved
  | asymmetric kvCaches =>
      obtain ⟨plan, rfl, same⟩ := planned
      rw [← same] at moved ⊢
      have runs : plan.descriptor.runs = [] := by
        obtain ⟨_, _, _, chunk⟩ := plan.spec
        rw [chunk.descriptor_eq]
        rfl
      split at moved
      · rw [runs] at moved
        exact absurd moved (not_moves_nil _ _)
      · exact plan.sliceByte_of_moves moved

/-! ### A batch -/

/-- The transfers of a batch of `batched_direct_get` that are prepared, planned
over the same caches and found fit to run in parallel; the driver completes
every read. -/
structure ParallelBatch (backend : XdsBackend) where
  kvCaches : KvCaches
  jobs : List DirectRetrieveJob
  planned : ∀ job ∈ jobs, kvCaches.Plans job.descriptor
  prepared : ∀ job ∈ jobs,
    backend.prepareDirectXds job.file job.diskMetadata job.descriptor = .ok ()
  parallel : canParallelDirectRetrieve jobs = true
  complete : ∀ job ∈ jobs, ∀ read ∈ job.reads, ∀ memory,
    (backend.driver.read read.call read.file memory).1 = read.call.size
  scratchBase : ℤ
  before : Memory

/-- The byte that a job leaves at an address, if it writes there. -/
def DirectRetrieveJob.leaves (job : DirectRetrieveJob) (address : ℤ) : Option Byte :=
  final DirectRead.patch job.reads address

/-- The address is in the range of one of the job's reads. -/
def DirectRetrieveJob.Writes (job : DirectRetrieveJob) (address : ℤ) : Prop :=
  ∃ read ∈ job.reads, read.call.readCopy.Covers address

theorem DirectRetrieveJob.leaves_eq_none {job : DirectRetrieveJob} {address : ℤ} :
    job.leaves address = none ↔ ¬ job.Writes address := by
  rw [leaves, final_eq_none, Writes]
  simp only [DirectRead.patch, ite_eq_right_iff, reduceCtorEq, imp_false, not_exists, not_and]

namespace ParallelBatch

variable {backend : XdsBackend} (batch : ParallelBatch backend)

/-- The memory after the transfers one after the other. -/
def sequential : Except XdsError Memory :=
  batch.jobs.foldlM (fun memory job =>
    backend.transferDirectXds job.file job.descriptor batch.scratchBase memory) batch.before

/-- Every interleaving of the jobs' reads ends like the transfers in order. -/
def LikeSequential : Prop :=
  ∀ merged, Interleaves (batch.jobs.map DirectRetrieveJob.reads) merged →
    merged.foldlM backend.performRead batch.before = batch.sequential

/-- Jobs that write one byte of memory leave the same value there. -/
def JobsAgree : Prop :=
  ∀ left ∈ batch.jobs, ∀ right ∈ batch.jobs, ∀ address value value',
    left.leaves address = some value → right.leaves address = some value' → value = value'

/-- Different jobs write disjoint byte ranges. -/
def WritesApart : Prop :=
  batch.jobs.Pairwise fun left right => ∀ address, left.Writes address → ¬ right.Writes address

theorem checked : (∀ job ∈ batch.jobs, job.descriptor.leadingEdge = none) ∧
    batch.jobs.Pairwise fun left right => ∀ block ∈ left.descriptor.physicalBlockIds,
      block ∉ right.descriptor.physicalBlockIds := by
  have parallel := batch.parallel
  unfold canParallelDirectRetrieve at parallel
  split at parallel
  · cases parallel
  · obtain ⟨each, pairs⟩ := parallelFrom_ok parallel
    exact ⟨fun job member => (each job member).1, pairs⟩

theorem exists_job : ∃ job, job ∈ batch.jobs := by
  have parallel := batch.parallel
  unfold canParallelDirectRetrieve at parallel
  split at parallel
  · cases parallel
  · exact List.exists_mem_of_length_pos (by omega)

/-- The transfers in order make the reads in the order of the jobs. -/
theorem sequential_eq : batch.sequential = .ok (writeSteps DirectRead.patch batch.before
    (batch.jobs.map DirectRetrieveJob.reads).flatten) := by
  have general : ∀ (jobs : List DirectRetrieveJob) (memory : Memory),
      (∀ job ∈ jobs, job ∈ batch.jobs) →
      jobs.foldlM (fun memory job =>
          backend.transferDirectXds job.file job.descriptor batch.scratchBase memory) memory =
        .ok (writeSteps DirectRead.patch memory (jobs.map DirectRetrieveJob.reads).flatten) := by
    intro jobs
    induction jobs with
    | nil => exact fun _ _ => rfl
    | cons job jobs ih =>
        intro memory within
        have here := within job (List.mem_cons_self ..)
        rw [List.foldlM_cons, backend.transferDirect_eq_reads (batch.checked.1 job here),
          backend.performReads_of_complete (batch.complete job here)]
        refine (ih _ fun other member => within other (List.mem_cons_of_mem _ member)).trans ?_
        rw [List.map_cons, List.flatten_cons, writeSteps, writeSteps, writeSteps, List.foldl_append]
  exact general batch.jobs batch.before fun _ member => member

/-- An interleaving completes all its reads. -/
theorem interleaved_eq {merged : List DirectRead}
    (run : Interleaves (batch.jobs.map DirectRetrieveJob.reads) merged) :
    merged.foldlM backend.performRead batch.before =
      .ok (writeSteps DirectRead.patch batch.before merged) := by
  apply backend.performReads_of_complete
  intro read member
  obtain ⟨reads, inReads, listed⟩ := run.exists_mem member
  obtain ⟨job, inJobs, rfl⟩ := List.mem_map.mp inReads
  exact batch.complete job inJobs read listed

theorem likeSequential_iff : batch.LikeSequential ↔ batch.JobsAgree := by
  have agree : Agree DirectRead.patch (batch.jobs.map DirectRetrieveJob.reads) ↔
      batch.JobsAgree := by
    simp only [Agree, List.forall_mem_map]
    rfl
  rw [← agree, ← forall_interleaves_iff _ batch.before]
  refine forall_congr' fun merged => forall_congr' fun run => ?_
  rw [batch.sequential_eq, batch.interleaved_eq run, Except.ok.injEq]

/-- With the blocks apart, different jobs write disjoint ranges. -/
theorem writesApart_of_blocksApart (apart : batch.kvCaches.BlocksApart) : batch.WritesApart := by
  refine batch.checked.2.imp_of_mem ?_
  rintro left right leftIn rightIn disjoint address ⟨read, listed, covers⟩
    ⟨read', listed', covers'⟩
  obtain ⟨block, inLeft, inside⟩ := (batch.planned left leftIn).blockByte listed covers
  obtain ⟨block', inRight, inside'⟩ := (batch.planned right rightIn).blockByte listed' covers'
  rw [← apart block block' address inside inside'] at inRight
  exact disjoint block inLeft inRight

theorem jobsAgree_of_writesApart (apart : batch.WritesApart) : batch.JobsAgree := by
  have agree : Agree DirectRead.patch (batch.jobs.map DirectRetrieveJob.reads) := by
    apply agree_of_pairwise
    rw [List.pairwise_map]
    refine apart.imp fun {left right} separate address => ?_
    by_cases writes : left.Writes address
    · exact .inr (DirectRetrieveJob.leaves_eq_none.mpr (separate address writes))
    · exact .inl (DirectRetrieveJob.leaves_eq_none.mpr writes)
  simp only [Agree, List.forall_mem_map] at agree
  exact agree

/-- The tensors of cross-layer and of per-layer caches are contiguous, so that
blocks of one tensor share no byte. -/
theorem slicesApart (asymmetric : ∀ kvCaches, batch.kvCaches = .asymmetric kvCaches →
      ∀ tensor ∈ pairTensors kvCaches, tensor.toView.SlicesApart 0) :
    ∀ tensor ∈ batch.kvCaches.tensors, tensor.toView.SlicesApart batch.kvCaches.blockAxis := by
  obtain ⟨job, member⟩ := batch.exists_job
  have planned := batch.planned job member
  cases caches : batch.kvCaches with
  | crossLayer kvCache =>
      rw [caches] at planned
      obtain ⟨plan, rfl, _⟩ := planned
      intro tensor listed
      rw [List.mem_singleton.mp listed]
      exact (Tensor.dense_of_contiguous plan.cache.contiguous).slicesApart _
  | perLayer kvCaches =>
      rw [caches] at planned
      obtain ⟨plan, rfl, _⟩ := planned
      intro tensor listed
      obtain ⟨_, _, contiguous⟩ := plan.spec.1.uniform tensor listed
      exact (Tensor.dense_of_contiguous contiguous).slicesApart _
  | asymmetric kvCaches => exact asymmetric kvCaches caches

/-- **Parallel direct retrieves.** Every interleaving of the reads ends like the
transfers in order exactly when jobs that write one byte leave the same value
there. When different blocks have different bytes in the caches, the jobs write
disjoint ranges and every interleaving does; tensors that are apart are enough
for that, and a single cross-layer cache always is. -/
theorem parallelRetrieve_iff : (batch.LikeSequential ↔ batch.JobsAgree) ∧
    (batch.kvCaches.BlocksApart → batch.WritesApart ∧ batch.LikeSequential) ∧
    (batch.kvCaches.TensorsApart →
      (∀ kvCaches, batch.kvCaches = .asymmetric kvCaches →
        ∀ tensor ∈ pairTensors kvCaches, tensor.toView.SlicesApart 0) →
      batch.kvCaches.BlocksApart) ∧
    (∀ kvCache, batch.kvCaches = .crossLayer kvCache → batch.kvCaches.BlocksApart) := by
  refine ⟨batch.likeSequential_iff, fun apart => ?_, fun apart slices => ?_, fun kvCache single => ?_⟩
  · have writes := batch.writesApart_of_blocksApart apart
    exact ⟨writes, batch.likeSequential_iff.mpr (batch.jobsAgree_of_writesApart writes)⟩
  · exact KvCaches.blocksApart_of_tensorsApart apart (batch.slicesApart slices)
  · apply KvCaches.blocksApart_of_tensorsApart
    · rw [single]
      exact List.pairwise_singleton ..
    · apply batch.slicesApart
      intro kvCaches other
      rw [single] at other
      cases other

end ParallelBatch

/-! ### Two layers that overlap by a block -/

/-- A view of two blocks of 4 KiB for each half, at a block of one allocation. -/
def shiftedCache (block : ℕ) (inside : block ≤ 1) : Tensor where
  device := ⟨.cuda, none⟩
  dtype := .uint8
  storageBase := 4096
  storageNbytes := 20480
  storageOffset := block * 4096
  shape := [2, 2, 1, 1, 4096]
  stride := [8192, 4096, 4096, 4096, 1]
  ranked := rfl
  inStorage := by
    intro _
    simp only [lastPosition, DType.itemsize]
    omega

/-- The second layer starts where the second block of the first one does. -/
def overlappingCaches : List Tensor :=
  [shiftedCache 0 (Nat.zero_le 1), shiftedCache 1 (Nat.le_refl 1)]

def overlappingSegment (fileBlock deviceBlock : ℕ) : DirectIOByteSegment :=
  ⟨blockFirstHeaderSize + fileBlock * 4096, 0, deviceBlock * 4096, 4096⟩

/-- The descriptor of a chunk of one token in a physical block. -/
def overlappingDescriptor (block : ℕ) : DirectIODescriptor :=
  segmentDescriptor ⟨.cuda, none⟩ overlappingCaches
    [⟨⟨.cuda, none⟩, 4096, 20480, some [shiftedCache 0 (Nat.zero_le 1)]⟩] 16384 1 1 0 [(block : ℤ)]
    [overlappingSegment 0 block, overlappingSegment 1 (2 + block),
      overlappingSegment 2 (1 + block), overlappingSegment 3 (3 + block)]

/-- One call plans the first token into block 0 and the second into block 1. -/
def overlappingPlan (token : ℕ) (inside : token < 2) : PerLayerPlan where
  first := shiftedCache 0 (Nat.zero_le 1)
  others := [shiftedCache 1 (Nat.le_refl 1)]
  slotMapping := [0, 1]
  starts := [0, 1]
  ends := [1, 2]
  blockSize := 1
  skipBefore := 0
  plans := [⟨some (overlappingDescriptor 0), none⟩, ⟨some (overlappingDescriptor 1), none⟩]
  built := by decide
  index := token
  start := token
  stop := token + 1
  starts_at := by
    rcases Nat.lt_succ_iff_lt_or_eq.mp inside with first | rfl
    · rw [Nat.lt_one_iff.mp first]
      rfl
    · rfl
  ends_at := by
    rcases Nat.lt_succ_iff_lt_or_eq.mp inside with first | rfl
    · rw [Nat.lt_one_iff.mp first]
      rfl
    · rfl
  descriptor := overlappingDescriptor token
  planned := by
    rcases Nat.lt_succ_iff_lt_or_eq.mp inside with first | rfl
    · rw [Nat.lt_one_iff.mp first]
      rfl
    · rfl

/-- The metadata of a file with one token of two layers. -/
def oneTokenMetadata : BlockFirstDiskMetadata where
  layout := blockFirstLayout
  version := blockFirstVersion
  logicalShape := [2, 2, 1, 4096]
  payloadShape := [1, 2, 2, 1, 4096]
  dtype := "uint8"
  validTokens := 1
  numLayers := 2
  blockSize := 1
  hiddenDim := 4096
  payloadNbytes := 16384
  ioNbytes := 16384
  modelName := "model"
  worldSize := 1
  workerId := 0
  tensorParallelSize := 1
  pipelineParallelSize := 1
  layoutSignature := "uint8"

/-- A codec for this metadata alone. -/
def oneTokenCodec : HeaderCodec where
  pack := fun metadata =>
    if metadata = oneTokenMetadata then .ok (List.replicate 4096 0) else .error ⟨"no header"⟩
  unpack := fun _ => .ok oneTokenMetadata
  length_pack := by
    intro metadata header packed
    split at packed
    · cases packed
      rw [List.length_replicate]
      rfl
    · cases packed
  unpack_pack := by
    intro metadata header packed
    split at packed
    · rename_i same
      rw [same]
    · cases packed

/-- A backend with a complete driver for such files. -/
def oneTokenBackend : XdsBackend where
  metadata :=
    { identity := ⟨"model", 1, 0, 1, 1⟩
      blockSize := 1
      chunkSize := 1
      getShapes := fun tokens => [[2, 2, tokens, 4096]]
      getDtypes := [.uint8] }
  directEnabled := true
  dstDevice := ⟨.cuda, none⟩
  signature := LayoutFields.dtype
  codec := oneTokenCodec
  driver := .complete

/-- The retrieve of a file whose payload is one byte throughout. -/
def overlappingJob (token : ℕ) : DirectRetrieveJob where
  file := ⟨blockFirstHeaderSize + 16384, fun position =>
    if position < blockFirstHeaderSize then 0 else UInt8.ofNat (token + 1)⟩
  diskMetadata := oneTokenMetadata
  descriptor := overlappingDescriptor token

def overlappingBatch : ParallelBatch oneTokenBackend where
  kvCaches := .perLayer overlappingCaches
  jobs := [overlappingJob 0, overlappingJob 1]
  planned := by
    intro job member
    rcases List.mem_pair.mp member with rfl | rfl
    · exact ⟨overlappingPlan 0 Nat.two_pos, rfl, rfl⟩
    · exact ⟨overlappingPlan 1 Nat.one_lt_two, rfl, rfl⟩
  prepared := by
    intro job member
    rcases List.mem_pair.mp member with rfl | rfl
    · rfl
    · rfl
  parallel := by decide
  complete := fun _ _ _ _ _ => rfl
  scratchBase := 0
  before := fun _ => 0

/-- With layers that overlap by a block, different blocks of different layers
share bytes: the order of the reads decides what these hold. -/
theorem likeSequential_fails_overlappingBatch :
    ¬ overlappingBatch.LikeSequential ∧ ¬ overlappingBatch.WritesApart := by
  have disagree : ¬ overlappingBatch.JobsAgree := by
    intro agree
    have same := agree (overlappingJob 0) (by simp [overlappingBatch]) (overlappingJob 1)
      (by simp [overlappingBatch]) 8192 1 2 (by decide) (by decide)
    revert same
    decide
  exact ⟨fun like => disagree (overlappingBatch.likeSequential_iff.mp like),
    fun apart => disagree (overlappingBatch.jobsAgree_of_writesApart apart)⟩

end LMCacheHcu.Storage
