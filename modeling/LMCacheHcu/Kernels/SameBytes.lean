import LMCacheHcu.Kernels.AddressingGuarantees
import LMCacheHcu.Kernels.TransferRows

/-! # The transfer kernels move the same bytes

One chunk of a per-layer cache, moved by the multi-layer kernel, by the
single-layer kernel layer by layer, and by the unilateral kernel over split key
and value tensors. The single-layer kernel cuts every head into 64-bit words, so
that the tail of a head of part words is not moved; the multi-layer kernel moves
every row.
-/

namespace LMCacheHcu.Kernels

open RowMajor ByteCopy Storage

namespace NhdTransfer

variable (transfer : NhdTransfer)

/-- **The three transfers move the same bytes**: all of each row of the chunk
that has a slot, and nothing else. -/
structure SameBytes (direction : TransferDirection) : Prop where
  multiLayer : ∃ copies, multiLayerCopies transfer.keyValue transfer.table transfer.slots
      transfer.dims.pageBufferSize direction transfer.format transfer.dims.blockSize 0 =
        some copies ∧
    MovesRows direction copies (· < transfer.dims.numLayers) transfer.slots transfer.rowBytes
      transfer.objectRow transfer.cacheRow
  unilateral : ∃ copies, multiLayerCopiesUnilateral transfer.splitKeyValue transfer.splitTable
      transfer.slots transfer.dims.pageBufferSize direction .twoXNlXNbbsNhHs = some copies ∧
    MovesRows direction copies (· < transfer.dims.numLayers) transfer.slots transfer.rowBytes
      transfer.splitObjectRow transfer.splitCacheRow
  singleLayer : ∀ layer < transfer.dims.numLayers, ∃ copies,
    singleLayerCopies (transfer.layerKeyValue layer) (transfer.layerCache layer) transfer.slots
      direction transfer.format transfer.tokenMajor = some copies ∧
    MovesRows direction copies (· = layer) transfer.slots transfer.rowBytes
      transfer.layerObjectRow transfer.cacheRow

/-! ### The condition -/

/-- The elements from one block's keys to the next block's, in a layer of the cache. -/
def blockStride : ℕ :=
  (if transfer.format = .nlXTwoNbBsNhHs then 1 else 2) *
    (transfer.dims.blockSize * transfer.rowElements)

/-- The elements from a block's keys to its values. -/
def valueStride : ℕ :=
  (if transfer.format = .nlXTwoNbBsNhHs then transfer.dims.numBlocks else 1) *
    (transfer.dims.blockSize * transfer.rowElements)

/-- The elements from one token's keys to the next token's, in a layer's memory object. -/
def objectStride : ℕ := (if transfer.tokenMajor then 2 else 1) * transfer.rowElements

/-- The elements from a token's keys to its values. -/
def objectValueStride : ℕ :=
  (if transfer.tokenMajor then 1 else transfer.numTokens) * transfer.rowElements

/-- The single-layer transfer's sizes: heads, blocks and strides in 64-bit entries. -/
def layerLaunch : SingleLayerLaunch where
  useMla := false
  numTokens := transfer.numTokens
  numHeads := transfer.dims.numHeads
  headSizeIn64bit := transfer.dims.headSize / transfer.elementsPerEntry
  blockSize := transfer.dims.blockSize
  blockKeyStride := transfer.blockStride / transfer.elementsPerEntry
  valueOffset := transfer.valueStride / transfer.elementsPerEntry
  lmcStride := transfer.objectStride / transfer.elementsPerEntry
  lmcValueOffset := transfer.objectValueStride / transfer.elementsPerEntry

/-- The sizes that the single-layer transfer narrows to `int`. -/
def entrySizes : List ℕ :=
  [transfer.numTokens, transfer.dims.numHeads,
    transfer.dims.headSize / transfer.elementsPerEntry, transfer.dims.blockSize,
    transfer.blockStride / transfer.elementsPerEntry,
    transfer.valueStride / transfer.elementsPerEntry,
    transfer.objectStride / transfer.elementsPerEntry,
    transfer.objectValueStride / transfer.elementsPerEntry,
    transfer.dims.numHeads * (transfer.dims.headSize / transfer.elementsPerEntry)]

/-- **When the transfers agree.** A head is made of whole 64-bit words, and every
32-bit quantity fits. -/
structure Fits : Prop where
  element : transfer.dtype.itemsize ≤ 8
  wholeWords : transfer.HasRows → 8 ∣ transfer.dims.headSize * transfer.dtype.itemsize
  sizes : ∀ size ∈ [transfer.dims.numLayers, transfer.numTokens, transfer.rowElements,
    transfer.rowBytes, transfer.dims.pageBufferSize, transfer.dims.blockSize], size < 2147483648
  entrySizes : 0 < transfer.dims.numLayers → ∀ size ∈ transfer.entrySizes, size < 2147483648
  cacheSteps : ∀ layer kOrV token slot word, layer < transfer.dims.numLayers → kOrV < 2 →
    transfer.SlotOf token slot → word < wordsPerRow transfer.rowElements transfer.dtype.itemsize →
    transfer.format.StepsFit transfer.dims kOrV slot word
        (wordsPerRow transfer.rowElements transfer.dtype.itemsize) ∧
      slot * wordsPerRow transfer.rowElements transfer.dtype.itemsize + word < 2147483648
  objectSteps : ∀ layer kOrV token slot word, layer < transfer.dims.numLayers → kOrV < 2 →
    transfer.SlotOf token slot → word < wordsPerRow transfer.rowElements transfer.dtype.itemsize →
    ((kOrV * transfer.dims.numLayers + layer) * transfer.numTokens + token) *
      wordsPerRow transfer.rowElements transfer.dtype.itemsize + word < 2147483648

/-! ### The single-layer transfer -/

section SingleLayer

variable {transfer : NhdTransfer} {layer : ℕ}

theorem singleLayerSizes_eq (layerIn : layer < transfer.dims.numLayers) :
    singleLayerSizes (transfer.layerKeyValue layer) (transfer.layerCache layer)
      transfer.slots.length transfer.format transfer.tokenMajor = transfer.layerLaunch := by
  have cache := transfer.layerCache_dense layer layerIn
  have object := transfer.layerKeyValue_dense layer layerIn
  have entry : 8 / (transfer.layerCache layer).elementSize = transfer.elementsPerEntry := by
    rw [Tensor.elementSize, cache.elements, elementsPerEntry]
  have strides : (if transfer.tokenMajor then (transfer.layerKeyValue layer).strideOf 0
        else (transfer.layerKeyValue layer).strideOf 1) = transfer.objectStride ∧
      (if transfer.tokenMajor then (transfer.layerKeyValue layer).strideOf 1
        else (transfer.layerKeyValue layer).strideOf 0) = transfer.objectValueStride := by
    unfold objectStride objectValueStride Tensor.strideOf
    rw [object.strides]
    cases transfer.tokenMajor <;> simp [denseStrides, rowElements, numTokens]
  unfold singleLayerSizes
  rw [transfer.handled.2.2.2, entry, strides.1, strides.2]
  unfold layerLaunch blockStride valueStride Tensor.strideOf Tensor.dim
  rw [cache.strides, cache.extents]
  rcases transfer.nhd with attention | infer
  · rw [attention]
    simp [GPUKVFormat.tensorShape, GPUKVFormat.pageShape, GPUKVFormat.rowShape, denseStrides,
      rowElements, numTokens]
  · rw [infer]
    simp [GPUKVFormat.tensorShape, GPUKVFormat.pageShape, GPUKVFormat.rowShape, denseStrides,
      rowElements, numTokens]

/-- The launch of a layer, when there is one. -/
theorem singleLayerKvTransfer_eq (layerIn : layer < transfer.dims.numLayers)
    (launch : SingleLayerLaunch) :
    singleLayerKvTransfer (transfer.layerKeyValue layer) (transfer.layerCache layer)
        transfer.slots.length transfer.format transfer.tokenMajor = some launch ↔
      ((∀ size ∈ transfer.entrySizes, size < 2147483648) ∧ transfer.dtype.itemsize ≤ 8) ∧
        launch = transfer.layerLaunch := by
  have entry : 8 / (transfer.layerCache layer).elementSize = transfer.elementsPerEntry := by
    rw [Tensor.elementSize, (transfer.layerCache_dense layer layerIn).elements, elementsPerEntry]
  have small_iff : transfer.elementsPerEntry ≠ 0 ↔ transfer.dtype.itemsize ≤ 8 := by
    unfold elementsPerEntry
    rw [Nat.div_ne_zero_iff]
    exact ⟨fun both => both.2, fun small => ⟨transfer.dtype.itemsize_pos.ne', small⟩⟩
  unfold singleLayerKvTransfer
  simp only [singleLayerSizes_eq layerIn, entry, small_iff]
  constructor
  · intro launched
    split at launched
    · rename_i fits
      exact ⟨fits, (Option.some.inj launched).symm⟩
    · cases launched
  · rintro ⟨fits, rfl⟩
    exact if_pos fits

/-- The bytes of a half row that the single-layer kernel copies. -/
def copiedBytes (transfer : NhdTransfer) : ℕ :=
  transfer.dims.numHeads * (transfer.dims.headSize / transfer.elementsPerEntry) * 8

/-- Where the kernel has a row of the memory object and of the cache, in bytes. -/
def entryObjectRow (transfer : NhdTransfer) (kOrV token : ℕ) : ℕ :=
  (token * (transfer.objectStride / transfer.elementsPerEntry) +
    kOrV * (transfer.objectValueStride / transfer.elementsPerEntry)) * 8

def entryCacheRow (transfer : NhdTransfer) (kOrV slot : ℕ) : ℕ :=
  (slot / transfer.dims.blockSize * (transfer.blockStride / transfer.elementsPerEntry) +
    slot % transfer.dims.blockSize * transfer.dims.numHeads *
      (transfer.dims.headSize / transfer.elementsPerEntry) +
    kOrV * (transfer.valueStride / transfer.elementsPerEntry)) * 8

/-- What a block of the single-layer kernel moves. -/
theorem rowCopies_moves (lmc vllm : ℤ) (direction : TransferDirection) (token slot : ℕ)
    (origin address : ℤ) :
    Moves (transfer.layerLaunch.rowCopies lmc vllm direction token slot) origin address ↔
      ∃ kOrV < 2, ∃ byte < transfer.copiedBytes,
        direction.Joins (lmc + (transfer.entryObjectRow kOrV token : ℤ) + (byte : ℤ))
          (vllm + (transfer.entryCacheRow kOrV slot : ℤ) + (byte : ℤ)) origin address := by
  have index (i : ℕ) : transfer.layerLaunch.vllmKeyIdx slot i =
      ((slot / transfer.dims.blockSize * (transfer.blockStride / transfer.elementsPerEntry) +
        slot % transfer.dims.blockSize * transfer.dims.numHeads *
          (transfer.dims.headSize / transfer.elementsPerEntry) + i : ℕ) : ℤ) := by
    simp only [SingleLayerLaunch.vllmKeyIdx, layerLaunch, ← Int.ofNat_tdiv, ← Int.ofNat_tmod,
      Nat.div_add_mod', Nat.cast_add, Nat.cast_mul]
  have half (kOrV : ℕ) := direction.moves_words (lmc + (transfer.entryObjectRow kOrV token : ℤ))
    (vllm + (transfer.entryCacheRow kOrV slot : ℤ))
    (transfer.dims.numHeads * (transfer.dims.headSize / transfer.elementsPerEntry)) 8
    origin address
  have halves : (∃ kOrV < 2, ∃ byte < transfer.copiedBytes,
      direction.Joins (lmc + (transfer.entryObjectRow kOrV token : ℤ) + (byte : ℤ))
        (vllm + (transfer.entryCacheRow kOrV slot : ℤ) + (byte : ℤ)) origin address) ↔
      (∃ byte < transfer.copiedBytes,
        direction.Joins (lmc + (transfer.entryObjectRow 0 token : ℤ) + (byte : ℤ))
          (vllm + (transfer.entryCacheRow 0 slot : ℤ) + (byte : ℤ)) origin address) ∨
      ∃ byte < transfer.copiedBytes,
        direction.Joins (lmc + (transfer.entryObjectRow 1 token : ℤ) + (byte : ℤ))
          (vllm + (transfer.entryCacheRow 1 slot : ℤ) + (byte : ℤ)) origin address := by
    constructor
    · rintro ⟨kOrV, small, moved⟩
      rcases Nat.le_one_iff_eq_zero_or_eq_one.mp (Nat.le_of_lt_succ small) with rfl | rfl
      · exact .inl moved
      · exact .inr moved
    · rintro (moved | moved)
      · exact ⟨0, Nat.zero_lt_two, moved⟩
      · exact ⟨1, Nat.one_lt_two, moved⟩
  rw [halves]
  unfold copiedBytes
  rw [← half 0, ← half 1, SingleLayerLaunch.rowCopies, moves_flatMap, moves_map, moves_map,
    ← exists_or]
  refine exists_congr fun i => ?_
  rw [← and_or_left]
  refine and_congr_right fun _ => ?_
  simp only [show transfer.layerLaunch.useMla = false from rfl, Bool.false_eq_true, if_false,
    moves_cons, not_moves_nil, or_false, index]
  have key : lmc + ((token * transfer.layerLaunch.lmcStride + i : ℕ) : ℤ) * 8 =
      lmc + (transfer.entryObjectRow 0 token : ℤ) + ((i * 8 : ℕ) : ℤ) := by
    simp only [entryObjectRow, layerLaunch]
    push_cast
    ring
  have value : lmc + (((token * transfer.layerLaunch.lmcStride + i : ℕ) : ℤ) +
      transfer.layerLaunch.lmcValueOffset) * 8 =
      lmc + (transfer.entryObjectRow 1 token : ℤ) + ((i * 8 : ℕ) : ℤ) := by
    simp only [entryObjectRow, layerLaunch]
    push_cast
    ring
  have keyCache : vllm + ((slot / transfer.dims.blockSize *
      (transfer.blockStride / transfer.elementsPerEntry) +
        slot % transfer.dims.blockSize * transfer.dims.numHeads *
          (transfer.dims.headSize / transfer.elementsPerEntry) + i : ℕ) : ℤ) * 8 =
      vllm + (transfer.entryCacheRow 0 slot : ℤ) + ((i * 8 : ℕ) : ℤ) := by
    simp only [entryCacheRow]
    push_cast
    ring
  have valueCache : vllm + (((slot / transfer.dims.blockSize *
      (transfer.blockStride / transfer.elementsPerEntry) +
        slot % transfer.dims.blockSize * transfer.dims.numHeads *
          (transfer.dims.headSize / transfer.elementsPerEntry) + i : ℕ) : ℤ) +
            transfer.layerLaunch.valueOffset) * 8 =
      vllm + (transfer.entryCacheRow 1 slot : ℤ) + ((i * 8 : ℕ) : ℤ) := by
    simp only [entryCacheRow, layerLaunch]
    push_cast
    ring
  rw [key, value, keyCache, valueCache]

/-- The single-layer transfer of a layer, when it is launched, and what it moves. -/
theorem singleLayer_moves (layerIn : layer < transfer.dims.numLayers)
    (direction : TransferDirection) :
    ((∃ copies, singleLayerCopies (transfer.layerKeyValue layer) (transfer.layerCache layer)
        transfer.slots direction transfer.format transfer.tokenMajor = some copies) ↔
      (∀ size ∈ transfer.entrySizes, size < 2147483648) ∧ transfer.dtype.itemsize ≤ 8) ∧
    ∀ copies, singleLayerCopies (transfer.layerKeyValue layer) (transfer.layerCache layer)
        transfer.slots direction transfer.format transfer.tokenMajor = some copies →
      ∀ origin address, Moves copies origin address ↔
        ∃ token slot, transfer.SlotOf token slot ∧ ∃ kOrV < 2, ∃ byte < transfer.copiedBytes,
          direction.Joins ((transfer.layerKeyValue layer).dataPtr +
              (transfer.entryObjectRow kOrV token : ℤ) + (byte : ℤ))
            ((transfer.layerCache layer).dataPtr +
              (transfer.entryCacheRow kOrV slot : ℤ) + (byte : ℤ)) origin address := by
  have grid : ∃ copies, transfer.layerLaunch.copies (transfer.layerKeyValue layer).dataPtr
      (transfer.layerCache layer).dataPtr transfer.slots direction = some copies := by
    refine exists_launchGrid fun token member => ?_
    exact (exists_tokenBlock (List.mem_range.mp member)).mpr fun slot _ => ⟨_, rfl⟩
  constructor
  · constructor
    · rintro ⟨copies, copied⟩
      obtain ⟨launch, launched, _⟩ := Option.bind_eq_some_iff.mp copied
      exact ((singleLayerKvTransfer_eq layerIn launch).mp launched).1
    · intro fits
      obtain ⟨copies, run⟩ := grid
      exact ⟨copies, Option.bind_eq_some_iff.mpr
        ⟨_, (singleLayerKvTransfer_eq layerIn _).mpr ⟨fits, rfl⟩, run⟩⟩
  · intro copies copied origin address
    obtain ⟨launch, launched, run⟩ := Option.bind_eq_some_iff.mp copied
    obtain ⟨_, rfl⟩ := (singleLayerKvTransfer_eq layerIn launch).mp launched
    rw [(launchGrid_moves run).2]
    constructor
    · rintro ⟨token, _, inner, block, moved⟩
      obtain ⟨slot, here, row, run, inRow⟩ := (tokenBlock_moves block origin address).mp moved
      obtain rfl := Option.some.inj run
      exact ⟨token, slot, here, (rowCopies_moves _ _ direction token slot _ _).mp inRow⟩
    · rintro ⟨token, slot, here, moved⟩
      have member : token ∈ List.range transfer.layerLaunch.numTokens :=
        List.mem_range.mpr here.token_lt
      obtain ⟨inner, block⟩ := (launchGrid_moves run).1 token member
      exact ⟨token, member, inner, block, (tokenBlock_moves block origin address).mpr
        ⟨slot, here, _, rfl, (rowCopies_moves _ _ direction token slot _ _).mpr moved⟩⟩

theorem layerObjectRow_eq (layerIn : layer < transfer.dims.numLayers) (kOrV token : ℕ) :
    transfer.layerObjectRow layer kOrV token = (transfer.layerKeyValue layer).dataPtr +
      (((token * transfer.objectStride + kOrV * transfer.objectValueStride) *
        transfer.dtype.itemsize : ℕ) : ℤ) := by
  have dense := transfer.layerKeyValue_dense layer layerIn
  have place : offset (transfer.layerKeyValue layer).shape
      (if transfer.tokenMajor then [token, kOrV, 0] else [kOrV, token, 0]) =
        token * transfer.objectStride + kOrV * transfer.objectValueStride := by
    rw [dense.extents, objectStride, objectValueStride]
    cases transfer.tokenMajor
    · simp only [Bool.false_eq_true, if_false, offset_cons, offset_nil, List.prod_cons,
        List.prod_nil, rowElements, numTokens]
      ring
    · simp only [if_true, offset_cons, offset_nil, List.prod_cons, List.prod_nil, rowElements]
      ring
  rw [layerObjectRow, rowMajorAddress, place, Tensor.elementSize, dense.elements]

/-- A row of the cache by the strides of a layer. -/
theorem pointerRow_strides (transfer : NhdTransfer) (kOrV slot : ℕ) :
    transfer.format.pointerRow transfer.dims kOrV slot * transfer.rowElements =
      slot / transfer.dims.blockSize * transfer.blockStride +
        slot % transfer.dims.blockSize * transfer.rowElements + kOrV * transfer.valueStride := by
  have whole := Nat.div_add_mod' slot transfer.dims.blockSize
  unfold blockStride valueStride
  rcases transfer.nhd with attention | infer
  · simp only [attention, GPUKVFormat.pointerRow, if_true, CacheDims.pageBufferSize]
    conv_lhs => rw [← whole]
    ring
  · simp only [infer, GPUKVFormat.pointerRow, reduceCtorEq, if_false]
    ring

/-- Whole heads of 64-bit words are where the kernel has them. -/
theorem entryRows_eq (small : transfer.dtype.itemsize ≤ 8)
    (whole : 8 ∣ transfer.dims.headSize * transfer.dtype.itemsize) (kOrV token slot : ℕ) :
    transfer.copiedBytes = transfer.rowBytes ∧
      transfer.entryObjectRow kOrV token =
        (token * transfer.objectStride + kOrV * transfer.objectValueStride) *
          transfer.dtype.itemsize ∧
      transfer.entryCacheRow kOrV slot =
        transfer.format.pointerRow transfer.dims kOrV slot * transfer.rowBytes := by
  have rows : 8 ∣ transfer.rowElements * transfer.dtype.itemsize := by
    rw [rowElements, Nat.mul_assoc]
    exact whole.mul_left _
  have multiple (count : ℕ) : 8 ∣ count * transfer.rowElements * transfer.dtype.itemsize := by
    rw [Nat.mul_assoc]
    exact rows.mul_left _
  have head := entries_mul small whole
  have object : transfer.objectStride / transfer.elementsPerEntry * 8 =
      transfer.objectStride * transfer.dtype.itemsize := entries_mul small (multiple _)
  have objectValue : transfer.objectValueStride / transfer.elementsPerEntry * 8 =
      transfer.objectValueStride * transfer.dtype.itemsize := entries_mul small (multiple _)
  have block : transfer.blockStride / transfer.elementsPerEntry * 8 =
      transfer.blockStride * transfer.dtype.itemsize := by
    refine entries_mul small ?_
    rw [blockStride, ← Nat.mul_assoc]
    exact multiple _
  have value : transfer.valueStride / transfer.elementsPerEntry * 8 =
      transfer.valueStride * transfer.dtype.itemsize := by
    refine entries_mul small ?_
    rw [valueStride, ← Nat.mul_assoc]
    exact multiple _
  refine ⟨?_, ?_, ?_⟩
  · rw [copiedBytes, Nat.mul_assoc, head, rowBytes, rowElements, Nat.mul_assoc]
  · rw [entryObjectRow, Nat.add_mul, Nat.mul_assoc, Nat.mul_assoc, object, objectValue]
    ring
  · rw [rowBytes, ← Nat.mul_assoc, pointerRow_strides, entryCacheRow, Nat.add_mul, Nat.add_mul,
      Nat.mul_assoc, Nat.mul_assoc _ _ 8, Nat.mul_assoc kOrV, block, head, value, rowElements]
    ring

/-- Heads of part words are not copied to their end. -/
theorem copiedBytes_lt (small : transfer.dtype.itemsize ≤ 8) (heads : 0 < transfer.dims.numHeads)
    (part : ¬ 8 ∣ transfer.dims.headSize * transfer.dtype.itemsize) :
    transfer.copiedBytes < transfer.rowBytes := by
  obtain ⟨eight, positive⟩ := elementsPerEntry_mul small
  have below : transfer.dims.headSize / transfer.elementsPerEntry * transfer.elementsPerEntry <
      transfer.dims.headSize := by
    refine lt_of_le_of_ne (Nat.div_mul_le_self _ _) fun same => part ?_
    rw [← same, Nat.mul_assoc, eight]
    exact Nat.dvd_mul_left _ _
  have scaled := Nat.mul_lt_mul_of_pos_left
    (Nat.mul_lt_mul_of_pos_right below transfer.dtype.itemsize_pos) heads
  rw [Nat.mul_assoc _ transfer.elementsPerEntry, eight] at scaled
  rwa [copiedBytes, rowBytes, rowElements, Nat.mul_assoc, Nat.mul_assoc]

/-- The kernel's row of a memory object starts no later than the row. -/
theorem entryObjectRow_le (small : transfer.dtype.itemsize ≤ 8) {kOrV token last : ℕ}
    (half : kOrV < 2) (earlier : token ≤ last) :
    transfer.entryObjectRow kOrV token ≤
      (last * transfer.objectStride + 1 * transfer.objectValueStride) *
        transfer.dtype.itemsize := by
  obtain ⟨eight, _⟩ := elementsPerEntry_mul small
  have short (elements : ℕ) : elements / transfer.elementsPerEntry * 8 ≤
      elements * transfer.dtype.itemsize := by
    have scaled := Nat.mul_le_mul_right transfer.dtype.itemsize
      (Nat.div_mul_le_self elements transfer.elementsPerEntry)
    rwa [Nat.mul_assoc, eight] at scaled
  calc transfer.entryObjectRow kOrV token
      = token * (transfer.objectStride / transfer.elementsPerEntry * 8) +
          kOrV * (transfer.objectValueStride / transfer.elementsPerEntry * 8) := by
        rw [entryObjectRow]
        ring
    _ ≤ last * (transfer.objectStride * transfer.dtype.itemsize) +
          1 * (transfer.objectValueStride * transfer.dtype.itemsize) :=
        Nat.add_le_add (Nat.mul_le_mul earlier (short _))
          (Nat.mul_le_mul (Nat.le_of_lt_succ half) (short _))
    _ = (last * transfer.objectStride + 1 * transfer.objectValueStride) *
          transfer.dtype.itemsize := by ring

/-- A transfer with a slot has a last token with one. -/
theorem exists_last {token slot : ℕ} (here : transfer.SlotOf token slot) :
    ∃ last place, transfer.SlotOf last place ∧
      ∀ token slot, transfer.SlotOf token slot → token ≤ last := by
  classical
  have found : ∃ slot, transfer.SlotOf (Nat.findGreatest
      (fun token => ∃ slot, transfer.SlotOf token slot) transfer.numTokens) slot :=
    Nat.findGreatest_spec (P := fun token => ∃ slot, transfer.SlotOf token slot)
      here.token_lt.le ⟨slot, here⟩
  obtain ⟨place, there⟩ := found
  exact ⟨_, place, there, fun token slot inside =>
    Nat.le_findGreatest inside.token_lt.le ⟨slot, inside⟩⟩

/-- The last byte of the last token's value row is not moved where heads have
part words. -/
theorem not_movesRows_of_part {direction : TransferDirection} {copies : List Copy}
    (layerIn : layer < transfer.dims.numLayers)
    (copied : singleLayerCopies (transfer.layerKeyValue layer) (transfer.layerCache layer)
      transfer.slots direction transfer.format transfer.tokenMajor = some copies)
    (rows : transfer.HasRows)
    (part : ¬ 8 ∣ transfer.dims.headSize * transfer.dtype.itemsize) :
    ¬ MovesRows direction copies (· = layer) transfer.slots transfer.rowBytes
      transfer.layerObjectRow transfer.cacheRow := by
  intro moves
  obtain ⟨launches, moved⟩ := singleLayer_moves layerIn direction
  have small := (launches.mp ⟨copies, copied⟩).2
  obtain ⟨_, heads, token, slot, here⟩ := rows
  have short := copiedBytes_lt small heads part
  obtain ⟨last, place, there, greatest⟩ := exists_last here
  -- The pair that the row of the last token demands.
  have demanded (origin address : ℤ) (joins : direction.Joins
      (transfer.layerObjectRow layer 1 last + ((transfer.rowBytes - 1 : ℕ) : ℤ))
      (transfer.cacheRow layer 1 place + ((transfer.rowBytes - 1 : ℕ) : ℤ)) origin address) :
      ∃ token slot, transfer.SlotOf token slot ∧ ∃ kOrV < 2, ∃ byte < transfer.copiedBytes,
        direction.Joins ((transfer.layerKeyValue layer).dataPtr +
            (transfer.entryObjectRow kOrV token : ℤ) + (byte : ℤ))
          ((transfer.layerCache layer).dataPtr +
            (transfer.entryCacheRow kOrV slot : ℤ) + (byte : ℤ)) origin address :=
    (moved copies copied origin address).mp ((moves origin address).mpr
      ⟨layer, 1, last, place, rfl, Nat.one_lt_two, there, _, by omega, joins⟩)
  have apart (kOrV token byte : ℕ) (half : kOrV < 2) (earlier : token ≤ last)
      (byteIn : byte < transfer.copiedBytes) :
      (transfer.layerKeyValue layer).dataPtr + (transfer.entryObjectRow kOrV token : ℤ) +
          (byte : ℤ) <
        transfer.layerObjectRow layer 1 last + ((transfer.rowBytes - 1 : ℕ) : ℤ) := by
    have start := entryObjectRow_le small half earlier
    rw [layerObjectRow_eq layerIn]
    omega
  cases direction with
  | h2d =>
      obtain ⟨token, slot, inside, kOrV, half, byte, byteIn, same, _⟩ :=
        demanded _ _ ⟨rfl, rfl⟩
      exact absurd same.symm (apart kOrV token byte half (greatest token slot inside) byteIn).ne
  | d2h =>
      obtain ⟨token, slot, inside, kOrV, half, byte, byteIn, _, same⟩ :=
        demanded _ _ ⟨rfl, rfl⟩
      exact absurd same.symm (apart kOrV token byte half (greatest token slot inside) byteIn).ne

/-- The single-layer transfers move the rows of their layers exactly when heads
are whole words and the sizes fit. -/
theorem singleLayer_iff (direction : TransferDirection) :
    (∀ layer < transfer.dims.numLayers, ∃ copies,
      singleLayerCopies (transfer.layerKeyValue layer) (transfer.layerCache layer) transfer.slots
        direction transfer.format transfer.tokenMajor = some copies ∧
      MovesRows direction copies (· = layer) transfer.slots transfer.rowBytes
        transfer.layerObjectRow transfer.cacheRow) ↔
    (0 < transfer.dims.numLayers →
      (∀ size ∈ transfer.entrySizes, size < 2147483648) ∧ transfer.dtype.itemsize ≤ 8) ∧
      (transfer.HasRows → 8 ∣ transfer.dims.headSize * transfer.dtype.itemsize) := by
  constructor
  · intro all
    constructor
    · intro positive
      obtain ⟨copies, copied, _⟩ := all 0 positive
      exact (singleLayer_moves positive direction).1.mp ⟨copies, copied⟩
    · intro rows
      obtain ⟨copies, copied, moves⟩ := all 0 rows.1
      by_contra part
      exact not_movesRows_of_part rows.1 copied rows part moves
  · rintro ⟨fits, whole⟩ layer layerIn
    obtain ⟨launches, moved⟩ := singleLayer_moves layerIn direction
    have launched := fits (Nat.zero_lt_of_lt layerIn)
    obtain ⟨copies, copied⟩ := launches.mpr launched
    refine ⟨copies, copied, fun origin address => ?_⟩
    rw [moved copies copied]
    rcases Nat.eq_zero_or_pos transfer.dims.numHeads with none | heads
    · have nothing : transfer.copiedBytes = 0 ∧ transfer.rowBytes = 0 := by
        simp [copiedBytes, rowBytes, rowElements, none]
      simp [nothing.1, nothing.2]
    · have same (kOrV token slot : ℕ) (half : kOrV < 2) (here : transfer.SlotOf token slot) :
          transfer.copiedBytes = transfer.rowBytes ∧
            (transfer.layerKeyValue layer).dataPtr + (transfer.entryObjectRow kOrV token : ℤ) =
              transfer.layerObjectRow layer kOrV token ∧
            (transfer.layerCache layer).dataPtr + (transfer.entryCacheRow kOrV slot : ℤ) =
              transfer.cacheRow layer kOrV slot := by
        have head := whole ⟨Nat.zero_lt_of_lt layerIn, heads, token, slot, here⟩
        obtain ⟨bytes, object, cache⟩ := entryRows_eq launched.2 head kOrV token slot
        rw [layerObjectRow_eq layerIn, cacheRow_eq layerIn half here, object, cache]
        exact ⟨bytes, rfl, rfl⟩
      constructor
      · rintro ⟨token, slot, here, kOrV, half, byte, byteIn, joins⟩
        obtain ⟨bytes, object, cache⟩ := same kOrV token slot half here
        rw [object, cache] at joins
        exact ⟨layer, kOrV, token, slot, rfl, half, here, byte, bytes ▸ byteIn, joins⟩
      · rintro ⟨_, kOrV, token, slot, rfl, half, here, byte, byteIn, joins⟩
        obtain ⟨bytes, object, cache⟩ := same kOrV token slot half here
        rw [← object, ← cache] at joins
        exact ⟨token, slot, here, kOrV, half, byte, bytes ▸ byteIn, joins⟩

end SingleLayer

/-! ### The three transfers -/

/-- **The three transfers move the same bytes exactly when a head is made of
whole 64-bit words** and every 32-bit quantity fits. -/
theorem sameBytes_iff (direction : TransferDirection) :
    transfer.SameBytes direction ↔ transfer.Fits := by
  constructor
  · rintro ⟨multi, unilateral, single⟩
    obtain ⟨small, sizes, steps⟩ := (multiLayer_iff direction).mp multi
    obtain ⟨entries, whole⟩ := (singleLayer_iff direction).mp single
    obtain ⟨_, _, split⟩ := (unilateral_iff direction whole).mp unilateral
    exact ⟨small, whole, sizes, fun positive => (entries positive).1,
      fun layer kOrV token slot word layerIn half here wordIn =>
        ⟨(steps layer kOrV token slot word layerIn half here wordIn).1,
          (split layer kOrV token slot word layerIn half here wordIn).1⟩,
      fun layer kOrV token slot word layerIn half here wordIn =>
        (steps layer kOrV token slot word layerIn half here wordIn).2⟩
  · rintro ⟨small, whole, sizes, entries, caches, objects⟩
    refine ⟨(multiLayer_iff direction).mpr ⟨small, sizes, ?_⟩,
      (unilateral_iff direction whole).mpr ⟨?_, small, ?_⟩,
      (singleLayer_iff direction).mpr ⟨fun positive => ⟨entries positive, small⟩, whole⟩⟩
    · intro layer kOrV token slot word layerIn half here wordIn
      exact ⟨(caches layer kOrV token slot word layerIn half here wordIn).1,
        objects layer kOrV token slot word layerIn half here wordIn⟩
    · simp only [List.forall_mem_cons] at sizes ⊢
      exact ⟨sizes.1, sizes.2.1, sizes.2.2.1, sizes.2.2.2.2.1, by simp⟩
    · intro layer kOrV token slot word layerIn half here wordIn
      exact ⟨(caches layer kOrV token slot word layerIn half here wordIn).2,
        objects layer kOrV token slot word layerIn half here wordIn⟩

/-- One token of one layer with one head of six half-precision elements. -/
def partHead : NhdTransfer where
  format := .nlXTwoNbBsNhHs
  nhd := .inl rfl
  dims := ⟨1, 1, 1, 1, 6⟩
  dtype := .bfloat16
  slots := [0]
  slotsIn := by decide
  layerCache := fun _ => denseHalf 4096 [2, 1, 1, 1, 6] [6, 6, 6, 6, 1] rfl (by decide)
  layerCache_dense := fun _ _ => ⟨rfl, rfl, rfl, by decide⟩
  keyCache := fun _ => denseHalf 8192 [1, 1, 6] [6, 6, 1] rfl (by decide)
  keyCache_dense := fun _ _ => ⟨rfl, rfl, rfl, by decide⟩
  valueCache := fun _ => denseHalf 12288 [1, 1, 6] [6, 6, 1] rfl (by decide)
  valueCache_dense := fun _ _ => ⟨rfl, rfl, rfl, by decide⟩
  keyValue := denseHalf 16384 [2, 1, 1, 6] [6, 6, 6, 1] rfl (by decide)
  keyValue_dense := ⟨rfl, rfl, rfl, by decide⟩
  splitKeyValue := denseHalf 20480 [2, 1, 1, 6] [6, 6, 6, 1] rfl (by decide)
  splitKeyValue_dense := ⟨rfl, rfl, rfl, by decide⟩
  tokenMajor := false
  layerKeyValue := fun _ => denseHalf 24576 [2, 1, 6] [6, 6, 1] rfl (by decide)
  layerKeyValue_dense := fun _ _ => ⟨rfl, rfl, rfl, by decide⟩

/-- **A head of twelve bytes.** The single-layer kernel copies the first eight of them. -/
theorem not_sameBytes_partHead :
    ¬ partHead.SameBytes .h2d ∧ ¬ partHead.SameBytes .d2h := by
  have rows : partHead.HasRows := ⟨Nat.one_pos, Nat.one_pos, 0, 0, rfl⟩
  have part : ¬ 8 ∣ partHead.dims.headSize * partHead.dtype.itemsize := by decide
  constructor
  · intro same
    obtain ⟨copies, copied, moves⟩ := same.singleLayer 0 Nat.one_pos
    exact not_movesRows_of_part Nat.one_pos copied rows part moves
  · intro same
    obtain ⟨copies, copied, moves⟩ := same.singleLayer 0 Nat.one_pos
    exact not_movesRows_of_part Nat.one_pos copied rows part moves

end NhdTransfer

end LMCacheHcu.Kernels
