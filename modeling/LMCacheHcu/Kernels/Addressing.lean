import LMCacheHcu.Kernels.MultiLayer

/-! # Addresses of the multi-layer transfers

The row-major address of every element of a paged cache and of a memory object,
and when the kernels form it. In all formats the offset that a kernel computes
is the row-major one; what can go wrong is a step in 32 bits. The cross-layer
and the MLA formats are computed in 64 bits, the others are not.
-/

namespace LMCacheHcu.Kernels

open RowMajor Storage

/-! ### Row-major addresses -/

/-- The row-major address of an element of a tensor. -/
def rowMajorAddress (tensor : Tensor) (index : List ℕ) : ℤ :=
  tensor.dataPtr + ((offset tensor.shape index * tensor.elementSize : ℕ) : ℤ)

/-- Where an element is in its row. -/
def GPUKVFormat.rowIndex (format : GPUKVFormat) (dims : CacheDims) (element : ℕ) : List ℕ :=
  match format with
  | .nbNlTwoBsNhHs | .nlXTwoNbBsNhHs | .nlXNbTwoBsNhHs | .twoXNlXNbbsNhHs =>
      [element / dims.headSize, element % dims.headSize]
  | .nlXNbBsHs => [element]
  | .nlXNbbsOneHs => [0, element]

/-- How a cache is laid out: in one of the formats, or as key tensors
`[NB, NH, BS, HS]` and value tensors `[NB, NH, HS, BS]`. -/
inductive CacheLayout
  | fused (format : GPUKVFormat)
  | split
deriving DecidableEq, Repr

def PagedPointers.layout : PagedPointers → CacheLayout
  | .fused format _ _ _ => .fused format
  | .split .. => .split

namespace CacheLayout

def halves : CacheLayout → ℕ
  | fused format => format.halves
  | split => 2

def rowElements (dims : CacheDims) : CacheLayout → ℕ
  | fused format => format.rowElements dims
  | split => dims.numHeads * dims.headSize

/-- Where an element is in the tensor that has it. -/
def index (dims : CacheDims) (coordinate : KVCoordinate) : CacheLayout → List ℕ
  | fused format =>
      format.pageIndex dims coordinate.layer coordinate.kOrV coordinate.position ++
        format.rowIndex dims coordinate.element
  | split =>
      let block := coordinate.position / dims.blockSize
      let slot := coordinate.position % dims.blockSize
      let head := coordinate.element / dims.headSize
      let element := coordinate.element % dims.headSize
      if coordinate.kOrV = 0 then [block, head, slot, element] else [block, head, element, slot]

end CacheLayout

/-- The shape of an asymmetric cache's key and value tensors. -/
def CacheDims.splitShape (dims : CacheDims) (kOrV : ℕ) : List ℕ :=
  if kOrV = 0 then [dims.numBlocks, dims.numHeads, dims.blockSize, dims.headSize]
  else [dims.numBlocks, dims.numHeads, dims.headSize, dims.blockSize]

theorem CacheDims.splitShape_value (dims : CacheDims) {kOrV : ℕ} (value : kOrV ≠ 0) :
    dims.splitShape kOrV = dims.splitShape 1 := by
  rw [CacheDims.splitShape, CacheDims.splitShape, if_neg value, if_neg one_ne_zero]

namespace KVCaches

/-- Which tensor has a layer's keys or values. -/
def tensorPosition (layer kOrV : ℕ) : KVCaches → ℕ
  | tensor _ => 0
  | layers _ => layer
  | pairs each => if kOrV = 0 then layer else each.length + layer
  | keysAndValues keys _ => if kOrV = 0 then layer else keys.length + layer

def tensorAt (kvCaches : KVCaches) (layer kOrV : ℕ) : Option Tensor :=
  kvCaches.tensors[kvCaches.tensorPosition layer kOrV]?

/-- The cache has the layout, with these sizes and this element type. -/
def InLayout (layout : CacheLayout) (dims : CacheDims) (dtype : DType) : KVCaches → Prop
  | tensor whole =>
      layout = .fused .nbNlTwoBsNhHs ∧
        whole.shape = GPUKVFormat.tensorShape .nbNlTwoBsNhHs dims ∧ whole.dtype = dtype
  | layers tensors =>
      tensors.length = dims.numLayers ∧ ∃ format, layout = .fused format ∧
        format ≠ .nbNlTwoBsNhHs ∧ format ≠ .twoXNlXNbbsNhHs ∧
        ∀ each ∈ tensors, each.shape = format.tensorShape dims ∧ each.dtype = dtype
  | pairs tensors =>
      tensors.length = dims.numLayers ∧ layout = .split ∧
        ∀ pair ∈ tensors,
          pair.1.shape = dims.splitShape 0 ∧ pair.2.shape = dims.splitShape 1 ∧
          pair.1.dtype = dtype ∧ pair.2.dtype = dtype
  | keysAndValues _ _ => False

/-- The address of an element of the cache. -/
def elementAddress (kvCaches : KVCaches) (layout : CacheLayout) (dims : CacheDims)
    (coordinate : KVCoordinate) : Option ℤ :=
  (kvCaches.tensorAt coordinate.layer coordinate.kOrV).map fun tensor =>
    rowMajorAddress tensor (layout.index dims coordinate)

/-- All bytes of the cache have 63-bit addresses, as torch and the pointer tables
hold them, and its tensors do not overlap. -/
structure Addressable (kvCaches : KVCaches) : Prop where
  inside : ∀ tensor ∈ kvCaches.tensors,
    tensor.dataPtr + tensor.numel * tensor.elementSize ≤ 9223372036854775808
  apart : kvCaches.tensors.Pairwise fun first second =>
    first.dataPtr + first.numel * first.elementSize ≤ second.dataPtr ∨
      second.dataPtr + second.numel * second.elementSize ≤ first.dataPtr

end KVCaches

namespace KVCoordinate

variable (coordinate : KVCoordinate) (layout : CacheLayout) (dims : CacheDims)

/-- The coordinate names an element of the cache; its position is a slot. -/
structure InCache : Prop where
  layer : coordinate.layer < dims.numLayers
  half : coordinate.kOrV < layout.halves
  slot : coordinate.position < dims.pageBufferSize
  element : coordinate.element < layout.rowElements dims

/-- The coordinate names an element of a memory object; its position is a token. -/
structure InObject (numTokens : ℕ) : Prop where
  layer : coordinate.layer < dims.numLayers
  half : coordinate.kOrV < layout.halves
  token : coordinate.position < numTokens
  element : coordinate.element < layout.rowElements dims

def objectIndex : List ℕ :=
  [coordinate.kOrV, coordinate.layer, coordinate.position, coordinate.element]

end KVCoordinate

/-- **Row-major addressing.** Every step of the kernel's computation is defined,
the addresses it forms are the row-major ones of the paged cache and of the
memory object, and distinct coordinates have distinct addresses. -/
structure TransferCall.RowMajor (call : TransferCall) (kvCaches : KVCaches)
    (layout : CacheLayout) (dims : CacheDims) (keyValue : Tensor) (numTokens : ℕ) : Prop where
  cache : ∀ coordinate : KVCoordinate, coordinate.InCache layout dims →
    ∃ address, call.cacheAddress coordinate = some address ∧
      kvCaches.elementAddress layout dims coordinate = some address
  object : ∀ coordinate : KVCoordinate, coordinate.InObject layout dims numTokens →
    call.objectAddress coordinate = some (rowMajorAddress keyValue coordinate.objectIndex)
  cacheDistinct : ∀ first second : KVCoordinate, first.InCache layout dims →
    second.InCache layout dims → call.cacheAddress first = call.cacheAddress second →
    first = second
  objectDistinct : ∀ first second : KVCoordinate, first.InObject layout dims numTokens →
    second.InObject layout dims numTokens →
    call.objectAddress first = call.objectAddress second → first = second

/-- The connector of an engine has made the tables. -/
def PagedConnector.Prepares (connector : PagedConnector) (kvCaches : KVCaches)
    (pointers : PagedPointers) : Prop :=
  connector.initializePointers kvCaches = .ok pointers ∨
    connector.initializeSglangPointers kvCaches = .ok pointers

/-! ### When every step fits -/

/-- The products that a format computes in `int`. -/
def GPUKVFormat.PagesFit (format : GPUKVFormat) (dims : CacheDims) (scalarsPerToken : ℕ) : Prop :=
  match format with
  | .nlXTwoNbBsNhHs => dims.pageBufferSize * scalarsPerToken < 2147483648
  | .nlXNbTwoBsNhHs => 2 * dims.pageBufferSize * scalarsPerToken ≤ 2147483648
  | _ => True

instance (format : GPUKVFormat) (dims : CacheDims) (scalarsPerToken : ℕ) :
    Decidable (format.PagesFit dims scalarsPerToken) :=
  match format with
  | .nlXTwoNbBsNhHs => inferInstanceAs (Decidable (_ < _))
  | .nlXNbTwoBsNhHs => inferInstanceAs (Decidable (_ ≤ _))
  | .nbNlTwoBsNhHs | .nlXNbBsHs | .twoXNlXNbbsNhHs | .nlXNbbsOneHs => .isTrue trivial

/-- Every 32-bit step of a transfer fits: the sizes that the launch narrows, the
words of the memory object, and what the layout multiplies in `int`. -/
def FitsInt (layout : CacheLayout) (dims : CacheDims) (dtype : DType) (numTokens : ℕ) : Prop :=
  match layout with
  | .fused format =>
      let rowElements := format.rowElements dims
      let scalarsPerToken := wordsPerRow rowElements dtype.itemsize
      dtype.itemsize ≤ 8 ∧
        (∀ size ∈ [dims.numLayers, numTokens, rowElements, rowElements * dtype.itemsize,
          dims.pageBufferSize, format.passedBlockSize dims], size < 2147483648) ∧
        format.halves * dims.numLayers * numTokens * scalarsPerToken ≤ 2147483648 ∧
        format.PagesFit dims scalarsPerToken
  | .split =>
      let rowElements := dims.numHeads * dims.headSize
      isFloating dtype = true ∧
        (∀ size ∈ [dims.numLayers, numTokens, dims.numHeads, dims.headSize, dims.blockSize,
          rowElements], size < 2147483648) ∧
        2 * dims.numLayers * numTokens * rowElements ≤ 2147483648 ∧
        dims.pageBufferSize * rowElements ≤ 2147483648

instance (layout : CacheLayout) (dims : CacheDims) (dtype : DType) (numTokens : ℕ) :
    Decidable (FitsInt layout dims dtype numTokens) :=
  match layout with
  | .fused _ => inferInstanceAs (Decidable (_ ∧ _))
  | .split => inferInstanceAs (Decidable (_ ∧ _))

/-! ### Rows of a tensor -/

namespace GPUKVFormat

variable {format : GPUKVFormat} {dims : CacheDims} {layer kOrV slot element : ℕ}

theorem pageIndex_inRange (layerIn : layer < dims.numLayers) (half : kOrV < format.halves)
    (slotIn : slot < dims.pageBufferSize) :
    InRange (format.pageShape dims) (format.pageIndex dims layer kOrV slot) := by
  have slots : 0 < dims.blockSize := by
    refine Nat.pos_of_ne_zero fun none => ?_
    simp [CacheDims.pageBufferSize, none] at slotIn
  have block : slot / dims.blockSize < dims.numBlocks :=
    Nat.div_lt_of_lt_mul (by rwa [CacheDims.pageBufferSize, Nat.mul_comm] at slotIn)
  have low := Nat.mod_lt slot slots
  cases format <;>
    simp_all [halves, isMla, pageShape, pageIndex]

theorem rowIndex_spec (elementIn : element < format.rowElements dims) :
    InRange (format.rowShape dims) (format.rowIndex dims element) ∧
      offset (format.rowShape dims) (format.rowIndex dims element) = element := by
  have heads (inRow : element < dims.numHeads * dims.headSize) :
      InRange [dims.numHeads, dims.headSize]
          [element / dims.headSize, element % dims.headSize] ∧
        offset [dims.numHeads, dims.headSize]
          [element / dims.headSize, element % dims.headSize] = element := by
    have sizes : 0 < dims.headSize := by
      refine Nat.pos_of_ne_zero fun none => ?_
      simp [none] at inRow
    have head : element / dims.headSize < dims.numHeads :=
      Nat.div_lt_of_lt_mul (by rwa [Nat.mul_comm] at inRow)
    exact ⟨by simp [head, Nat.mod_lt _ sizes], by simp [offset, denseStrides, Nat.div_add_mod']⟩
  cases format <;> simp only [rowElements, rowShape, rowIndex, List.prod_cons, List.prod_nil,
    Nat.mul_one] at elementIn ⊢
  all_goals first
    | exact heads elementIn
    | simpa [offset, denseStrides] using elementIn

/-- The rows of a tensor before the first row that a layer's pointer reaches. -/
def layerRows (format : GPUKVFormat) (dims : CacheDims) (layer : ℕ) : ℕ :=
  if format = .nbNlTwoBsNhHs then layer * (2 * dims.blockSize) else 0

/-- A layer's pointer and the offset behind it make up the row's place in its tensor. -/
theorem pageIndex_offset :
    offset (format.pageShape dims) (format.pageIndex dims layer kOrV slot) =
      format.layerRows dims layer + format.pointerRow dims kOrV slot := by
  have whole := Nat.div_add_mod' slot dims.blockSize
  have half : kOrV * dims.pageBufferSize = kOrV * (dims.numBlocks * dims.blockSize) := rfl
  cases format <;>
    simp only [pageShape, pageIndex, offset, denseStrides, layerRows, pointerRow, strided_cons,
      strided_nil, List.prod_cons, List.prod_nil, reduceCtorEq, if_true, if_false]
  case nbNlTwoBsNhHs => ring
  case nlXTwoNbBsNhHs => rw [half]; linarith
  case nlXNbTwoBsNhHs => ring
  all_goals linarith

end GPUKVFormat

/-- The place of an element in the tensor that has it. -/
theorem CacheLayout.fused_index {format : GPUKVFormat} {dims : CacheDims}
    {coordinate : KVCoordinate} (inCache : coordinate.InCache (.fused format) dims) :
    InRange (format.tensorShape dims) (CacheLayout.index dims coordinate (.fused format)) ∧
      offset (format.tensorShape dims) (CacheLayout.index dims coordinate (.fused format)) =
        (format.layerRows dims coordinate.layer +
          format.pointerRow dims coordinate.kOrV coordinate.position) * format.rowElements dims +
            coordinate.element := by
  have page := GPUKVFormat.pageIndex_inRange inCache.layer inCache.half inCache.slot
  have row := GPUKVFormat.rowIndex_spec inCache.element
  refine ⟨inRange_append page row.1, ?_⟩
  rw [CacheLayout.index, GPUKVFormat.tensorShape, offset_append page, row.2,
    GPUKVFormat.pageIndex_offset]
  rfl

theorem CacheLayout.split_index {dims : CacheDims} {coordinate : KVCoordinate}
    (inCache : coordinate.InCache .split dims) :
    InRange (dims.splitShape coordinate.kOrV) (CacheLayout.index dims coordinate .split) := by
  have slots : 0 < dims.blockSize := Nat.pos_of_mul_pos_left (Nat.zero_lt_of_lt inCache.slot)
  have sizes : 0 < dims.headSize := Nat.pos_of_mul_pos_left (Nat.zero_lt_of_lt inCache.element)
  have block : coordinate.position / dims.blockSize < dims.numBlocks :=
    Nat.div_lt_of_lt_mul ((Nat.mul_comm ..).symm ▸ inCache.slot)
  have head : coordinate.element / dims.headSize < dims.numHeads :=
    Nat.div_lt_of_lt_mul ((Nat.mul_comm ..).symm ▸ inCache.element)
  have low := Nat.mod_lt coordinate.position slots
  have element := Nat.mod_lt coordinate.element sizes
  unfold CacheDims.splitShape CacheLayout.index
  split
  · simp [block, head, low, element]
  · simp [block, head, low, element]

/-! ### The pointer tables -/

namespace PagedConnector

variable {connector : PagedConnector} {pointers : PagedPointers}

theorem copyLayerPointersToDevice_ok {layerPtrs table : List ℤ} {device : Device}
    (copied : connector.copyLayerPointersToDevice layerPtrs device = .ok table) :
    layerPtrs.length = connector.numLayers ∧ table = layerPtrs := by
  simp only [copyLayerPointersToDevice, Checked.throw_bind, Checked.check_ok, Checked.return_ok,
    not_not] at copied
  exact ⟨copied.2.2.1, copied.2.2.2.symm⟩

theorem initializeCrossLayerPointers_ok {whole : Tensor}
    (initialized : connector.initializeCrossLayerPointers whole = .ok pointers) :
    whole.dim 1 = connector.numLayers ∧ whole.isContiguous = true ∧
      pointers = .fused .nbNlTwoBsNhHs
        ((List.range connector.numLayers).map fun layer : ℕ =>
          (whole.dataPtr : ℤ) + ((layer * (whole.strideOf 1 * whole.elementSize) : ℕ) : ℤ))
        (whole.dim 0 * whole.dim 3) (whole.dim 3) := by
  simp only [initializeCrossLayerPointers, Checked.throw_bind, Checked.check_ok, Checked.bind_ok,
    Checked.return_ok, not_not, Bool.not_eq_false] at initialized
  obtain ⟨_, _, layers, _, contiguous, _, table, copied, rfl⟩ := initialized
  rw [(copyLayerPointersToDevice_ok copied).2]
  exact ⟨layers, contiguous, rfl⟩

theorem initializePerLayerPointers_ok {format : GPUKVFormat} {each : List Tensor}
    (initialized : connector.initializePerLayerPointers format each = .ok pointers) :
    ∃ first ∈ each, ∃ numBlocks blockSize, getNumBlocks first format = .ok numBlocks ∧
      getBlockSize first format = .ok blockSize ∧
      pointers = .fused format (each.map fun tensor => (tensor.dataPtr : ℤ))
        (numBlocks * blockSize) blockSize := by
  cases each with
  | nil => cases initialized
  | cons first rest =>
      simp only [initializePerLayerPointers, Checked.throw_bind, Checked.check_ok,
        Checked.bind_ok, Checked.return_ok, not_not] at initialized
      obtain ⟨_, _, numBlocks, blocks, blockSize, size, table, copied, rfl⟩ := initialized
      rw [(copyLayerPointersToDevice_ok copied).2]
      exact ⟨first, List.mem_cons_self .., numBlocks, blockSize, blocks, size, rfl⟩

theorem initializeAsymmetricPointers_ok {each : List KeyValueLayer}
    (initialized : connector.initializeAsymmetricPointers each = .ok pointers) :
    ∃ keys values, ∃ first ∈ each,
      assignArray connector.numLayers (each.map KeyValueLayer.keyPtr) = .ok keys ∧
      assignArray connector.numLayers (each.map KeyValueLayer.valuePtr) = .ok values ∧
      pointers = .split keys values (first.keyShape.getD 1 0) (first.keyShape.getD 3 0)
        (first.keyShape.getD 2 0) := by
  simp only [initializeAsymmetricPointers, Checked.bind_ok] at initialized
  obtain ⟨keys, keysAssigned, values, valuesAssigned, initialized⟩ := initialized
  cases each with
  | nil => cases initialized
  | cons first rest =>
      simp only [Checked.throw_bind, Checked.check_ok, Checked.return_ok] at initialized
      obtain ⟨_, _, _, rfl⟩ := initialized
      exact ⟨keys, values, first, List.mem_cons_self .., keysAssigned, valuesAssigned, rfl⟩

theorem initializeSglangPointers_ok {kvCaches : KVCaches}
    (initialized : connector.initializeSglangPointers kvCaches = .ok pointers) :
    ∃ format, ∃ first ∈ kvCaches.tensors, discoverGpuKvFormat kvCaches .sglang = .ok format ∧
      pointers = .fused format (kvCaches.tensors.map fun tensor => (tensor.dataPtr : ℤ))
        (getPageBufferSize first format) 0 := by
  simp only [initializeSglangPointers, Checked.bind_ok] at initialized
  obtain ⟨format, discovered, initialized⟩ := initialized
  cases flat : kvCaches.tensors with
  | nil =>
      rw [flat] at initialized
      cases initialized
  | cons first rest =>
      rw [flat] at initialized
      simp only [Checked.throw_bind, Checked.check_ok, Checked.return_ok] at initialized
      obtain ⟨_, _, rfl⟩ := initialized
      exact ⟨format, first, List.mem_cons_self .., discovered, rfl⟩

end PagedConnector

/-- What a table of fused pointers has for the layers of a cache. -/
structure FusedTable (kvCaches : KVCaches) (format : GPUKVFormat) (dims : CacheDims)
    (dtype : DType) (table : List ℤ) (pageBufferSize blockSize : ℕ) : Prop where
  handled : format ≠ .twoXNlXNbbsNhHs
  someLayer : 0 < dims.numLayers
  pageBufferSize : pageBufferSize = dims.pageBufferSize
  blockSize : blockSize = format.passedBlockSize dims
  entry : ∀ layer kOrV, layer < dims.numLayers → ∃ tensor,
    kvCaches.tensorAt layer kOrV = some tensor ∧ tensor.shape = format.tensorShape dims ∧
      tensor.dtype = dtype ∧ (tensor.numel ≠ 0 →
        table.getD layer 0 = tensor.dataPtr +
          ((format.layerRows dims layer * format.rowElements dims * dtype.itemsize : ℕ) : ℤ))

/-- One pointer for each tensor of a list of layers. -/
theorem FusedTable.ofLayers {each : List Tensor} {format : GPUKVFormat} {dims : CacheDims}
    {dtype : DType} {first : Tensor} (listed : first ∈ each)
    (inLayout : (KVCaches.layers each).InLayout (.fused format) dims dtype)
    {pageBufferSize blockSize : ℕ} (pages : pageBufferSize = dims.pageBufferSize)
    (slots : blockSize = format.passedBlockSize dims) :
    FusedTable (.layers each) format dims dtype (each.map fun tensor => (tensor.dataPtr : ℤ))
      pageBufferSize blockSize := by
  obtain ⟨count, other, same, apart, handled, shapes⟩ := inLayout
  obtain rfl : format = other := CacheLayout.fused.inj same
  refine ⟨handled, count ▸ List.length_pos_of_mem listed, pages, slots, ?_⟩
  intro layer kOrV layerIn
  have inside : layer < each.length := count ▸ layerIn
  obtain ⟨shape, dtypeEq⟩ := shapes _ (List.getElem_mem inside)
  refine ⟨each[layer], List.getElem?_eq_getElem inside, shape, dtypeEq, fun _ => ?_⟩
  rw [GPUKVFormat.layerRows, if_neg apart, List.getD_eq_getElem?_getD, List.getElem?_map,
    List.getElem?_eq_getElem inside]
  simp

/-- The layers of a contiguous cross-layer tensor start one layer's stride apart. -/
theorem FusedTable.ofTensor {whole : Tensor} {dims : CacheDims} {dtype : DType}
    (inLayout : (KVCaches.tensor whole).InLayout (.fused .nbNlTwoBsNhHs) dims dtype)
    (contiguous : whole.isContiguous = true) {connector : PagedConnector}
    (layers : whole.dim 1 = connector.numLayers) :
    FusedTable (.tensor whole) .nbNlTwoBsNhHs dims dtype
      ((List.range connector.numLayers).map fun layer : ℕ =>
        (whole.dataPtr : ℤ) + ((layer * (whole.strideOf 1 * whole.elementSize) : ℕ) : ℤ))
      (whole.dim 0 * whole.dim 3) (whole.dim 3) := by
  obtain ⟨_, shape, dtypeEq⟩ := inLayout
  have extents : whole.shape = [dims.numBlocks, dims.numLayers, 2, dims.blockSize, dims.numHeads,
    dims.headSize] := shape
  have count : dims.numLayers = connector.numLayers := by
    rw [← layers, Tensor.dim, extents]
    rfl
  have slots : whole.dim 3 = dims.blockSize := by
    rw [Tensor.dim, extents]
    rfl
  have blocks : whole.dim 0 = dims.numBlocks := by
    rw [Tensor.dim, extents]
    rfl
  refine ⟨by decide, count ▸ connector.hasLayers, by rw [slots, blocks]; rfl, by rw [slots]; rfl, ?_⟩
  intro layer kOrV layerIn
  refine ⟨whole, rfl, shape, dtypeEq, fun full => ?_⟩
  -- A unit dimension may have any stride, so the strides are compared at an element.
  have inside : InRange whole.shape [0, layer, 0, 0, 0, 0] := by
    simp only [Tensor.numel, extents, List.prod_cons, List.prod_nil, Nat.mul_ne_zero_iff] at full
    simp only [extents, inRange_cons, inRange_nil, and_true]
    omega
  have stride : layer * whole.strideOf 1 =
      layer * (2 * dims.blockSize) * (dims.numHeads * dims.headSize) :=
    calc layer * whole.strideOf 1 = strided whole.stride [0, layer, 0, 0, 0, 0] :=
          (strided_second whole.stride layer 4).symm
      _ = offset whole.shape [0, layer, 0, 0, 0, 0] :=
          Tensor.dense_of_contiguous contiguous _ inside
      _ = layer * (2 * dims.blockSize) * (dims.numHeads * dims.headSize) := by
          simp only [extents, offset_cons, offset_nil, List.prod_cons, List.prod_nil]
          ring
  rw [List.getD_eq_getElem?_getD, List.getElem?_map, List.getElem?_range (count ▸ layerIn),
    GPUKVFormat.layerRows, if_pos rfl]
  simp only [Option.map_some, Option.getD_some, ← Nat.mul_assoc, stride]
  simp only [Tensor.elementSize, dtypeEq, GPUKVFormat.rowElements, GPUKVFormat.rowShape,
    List.prod_cons, List.prod_nil, Nat.mul_one, Nat.mul_assoc]

theorem pageBufferSize_of_shape {first : Tensor} {format : GPUKVFormat} {dims : CacheDims}
    (shape : first.shape = format.tensorShape dims) {numBlocks blockSize : ℕ}
    (blocks : getNumBlocks first format = .ok numBlocks)
    (sizes : getBlockSize first format = .ok blockSize) :
    numBlocks * blockSize = dims.pageBufferSize := by
  cases format <;> cases blocks <;> cases sizes <;>
    simp [Tensor.dim, shape, GPUKVFormat.tensorShape, GPUKVFormat.pageShape,
      GPUKVFormat.rowShape, CacheDims.pageBufferSize]

theorem blockSize_of_shape {first : Tensor} {format : GPUKVFormat} {dims : CacheDims}
    (shape : first.shape = format.tensorShape dims) {blockSize : ℕ}
    (sizes : getBlockSize first format = .ok blockSize) :
    blockSize = format.passedBlockSize dims := by
  cases format <;> cases sizes <;>
    simp [Tensor.dim, shape, GPUKVFormat.tensorShape, GPUKVFormat.pageShape,
      GPUKVFormat.rowShape, GPUKVFormat.passedBlockSize]

/-- SGLang keeps one list of layers only with MLA. -/
theorem sglang_layers_format {each : List Tensor} {format : GPUKVFormat}
    (discovered : discoverGpuKvFormat (.layers each) .sglang = .ok format) :
    format = .nlXNbbsOneHs := by
  cases each with
  | nil => cases discovered
  | cons first rest =>
      simp only [discoverGpuKvFormat, listDepthTensorDim, Checked.ok_bind] at discovered
      split at discovered
      · cases discovered
      · split at discovered
        · cases discovered
          rfl
        · cases discovered

/-- What the connectors put into a table of fused pointers. -/
theorem PagedConnector.Prepares.fusedTable {connector : PagedConnector} {kvCaches : KVCaches}
    {format : GPUKVFormat} {table : List ℤ} {pageBufferSize blockSize : ℕ} {dims : CacheDims}
    {dtype : DType}
    (prepared : connector.Prepares kvCaches (.fused format table pageBufferSize blockSize))
    (inLayout : kvCaches.InLayout (.fused format) dims dtype) :
    FusedTable kvCaches format dims dtype table pageBufferSize blockSize := by
  rcases prepared with initialized | initialized
  · unfold PagedConnector.initializePointers at initialized
    split at initialized
    · obtain ⟨each, _, split⟩ := Checked.bind_ok.mp initialized
      obtain ⟨_, _, _, _, _, _, made⟩ := PagedConnector.initializeAsymmetricPointers_ok split
      cases made
    · obtain ⟨found, discovered, fused⟩ := Checked.bind_ok.mp initialized
      cases kvCaches with
      | tensor whole =>
          obtain ⟨layers, contiguous, made⟩ := PagedConnector.initializeCrossLayerPointers_ok fused
          cases made
          exact .ofTensor inLayout contiguous layers
      | layers each =>
          obtain ⟨first, listed, numBlocks, slots, blocks, sizes, made⟩ :=
            PagedConnector.initializePerLayerPointers_ok fused
          cases made
          obtain ⟨_, _, same, apart, handled, shapes⟩ := id inLayout
          cases same
          have shape := (shapes first listed).1
          refine .ofLayers listed inLayout ?_ ?_
          · exact pageBufferSize_of_shape shape blocks sizes
          · exact blockSize_of_shape shape sizes
      | pairs each => cases fused
      | keysAndValues keys values => cases fused
  · obtain ⟨found, first, listed, discovered, made⟩ :=
      PagedConnector.initializeSglangPointers_ok initialized
    cases made
    cases kvCaches with
    | tensor whole => cases discovered
    | layers each =>
        obtain ⟨_, _, same, _, _, shapes⟩ := id inLayout
        cases same
        have shape := (shapes first listed).1
        have sglang := sglang_layers_format discovered
        subst sglang
        refine .ofLayers listed inLayout ?_ rfl
        simp [getPageBufferSize, Tensor.dim, shape, GPUKVFormat.tensorShape,
          GPUKVFormat.pageShape, GPUKVFormat.rowShape]
    | pairs each => cases inLayout.2.1
    | keysAndValues keys values => exact inLayout.elim

/-! ### Offsets of all words -/

/-- The words of a memory object have `int` offsets when their number is one. -/
theorem objectWords_fit_iff {halves numLayers numTokens scalarsPerToken : ℕ} :
    (∀ kOrV layer token scalar, kOrV < halves → layer < numLayers → token < numTokens →
        scalar < scalarsPerToken →
        ((kOrV * numLayers + layer) * numTokens + token) * scalarsPerToken + scalar < 2147483648) ↔
      halves * numLayers * numTokens * scalarsPerToken ≤ 2147483648 := by
  have size : [halves, numLayers, numTokens, scalarsPerToken].prod =
      halves * numLayers * numTokens * scalarsPerToken := by
    simp only [List.prod_cons, List.prod_nil]
    ring
  have place (kOrV layer token scalar : ℕ) :
      offset [halves, numLayers, numTokens, scalarsPerToken] [kOrV, layer, token, scalar] =
        ((kOrV * numLayers + layer) * numTokens + token) * scalarsPerToken + scalar := by
    simp only [offset_cons, offset_nil, List.prod_cons, List.prod_nil]
    ring
  rw [← size, ← forall_offset_lt_iff]
  constructor
  · intro below index inside
    obtain ⟨kOrV, half, layer, layerIn, token, tokenIn, scalar, scalarIn, rfl⟩ :=
      exists_of_inRange_four inside
    rw [place]
    exact below kOrV layer token scalar half layerIn tokenIn scalarIn
  · intro below kOrV layer token scalar half layerIn tokenIn scalarIn
    rw [← place]
    exact below _ (by simp [half, layerIn, tokenIn, scalarIn])

/-- The steps of all words of a layer fit when the products of the format do. -/
theorem GPUKVFormat.pagesFit_iff (format : GPUKVFormat) (dims : CacheDims)
    (scalarsPerToken : ℕ) :
    (∀ kOrV slot scalar, kOrV < format.halves → slot < dims.pageBufferSize →
        scalar < scalarsPerToken → format.StepsFit dims kOrV slot scalar scalarsPerToken) ↔
      format.PagesFit dims scalarsPerToken := by
  cases format with
  | nlXTwoNbBsNhHs =>
      simp only [StepsFit, PagesFit]
      constructor
      · intro fits
        by_contra larger
        have positive : 0 < dims.pageBufferSize * scalarsPerToken := by omega
        have last := fits 1 0 0 (by decide) (Nat.pos_of_mul_pos_right positive)
          (Nat.pos_of_mul_pos_left positive)
        rw [Nat.one_mul] at last
        exact larger last
      · intro fits kOrV slot scalar half _ _
        have small : kOrV ≤ 1 := Nat.le_of_lt_succ half
        exact (Nat.mul_le_mul_right scalarsPerToken (Nat.mul_le_mul_right dims.pageBufferSize
          small)).trans_lt (by rwa [Nat.one_mul])
  | nlXNbTwoBsNhHs =>
      simp only [StepsFit, PagesFit, pointerRow]
      have size : [dims.numBlocks, 2, dims.blockSize, scalarsPerToken].prod =
          2 * dims.pageBufferSize * scalarsPerToken := by
        simp only [List.prod_cons, List.prod_nil, CacheDims.pageBufferSize]
        ring
      have place (block half low scalar : ℕ) :
          offset [dims.numBlocks, 2, dims.blockSize, scalarsPerToken] [block, half, low, scalar] =
            (block * 2 * dims.blockSize + half * dims.blockSize + low) * scalarsPerToken +
              scalar := by
        simp only [offset_cons, offset_nil, List.prod_cons, List.prod_nil]
        ring
      rw [← size, ← forall_offset_lt_iff]
      constructor
      · intro fits index inside
        obtain ⟨block, blockIn, half, halfIn, low, lowIn, scalar, scalarIn, rfl⟩ :=
          exists_of_inRange_four inside
        have there := fits half (block * dims.blockSize + low) scalar halfIn
          (digit_lt blockIn lowIn) scalarIn
        rw [digit_div lowIn, digit_mod lowIn] at there
        rwa [place]
      · intro fits kOrV slot scalar half slotIn scalarIn
        have slots : 0 < dims.blockSize := Nat.pos_of_mul_pos_left (Nat.zero_lt_of_lt slotIn)
        rw [← place]
        refine fits _ ?_
        simp only [inRange_cons, inRange_nil, and_true]
        exact ⟨Nat.div_lt_of_lt_mul (by rwa [CacheDims.pageBufferSize, Nat.mul_comm] at slotIn),
          half, Nat.mod_lt _ slots, scalarIn⟩
  | nbNlTwoBsNhHs | nlXNbBsHs | twoXNlXNbbsNhHs | nlXNbbsOneHs =>
      exact ⟨fun _ => trivial, fun _ _ _ _ _ _ _ => trivial⟩

/-! ### Addresses of the fused transfer -/

/-- The launch for a cache in a format. -/
def GPUKVFormat.launchFor (format : GPUKVFormat) (dims : CacheDims) (dtype : DType)
    (numTokens : ℕ) : MultiLayerLaunch where
  format := format
  itemsize := dtype.itemsize
  wordBytes := copyWord (format.rowElements dims * dtype.itemsize)
  scalarsPerToken := wordsPerRow (format.rowElements dims) dtype.itemsize
  numTokens := numTokens
  numLayers := dims.numLayers
  pageBufferSize := dims.pageBufferSize
  blockSize := format.passedBlockSize dims

section Fused

variable {format : GPUKVFormat} {dims : CacheDims} {dtype : DType} {numTokens : ℕ}

/-- The word of an element is one of the row. -/
theorem GPUKVFormat.word_lt (format : GPUKVFormat) (numTokens : ℕ) (small : dtype.itemsize ≤ 8)
    {element : ℕ} (elementIn : element < format.rowElements dims) :
    element / (format.launchFor dims dtype numTokens).elementsPerWord <
      wordsPerRow (format.rowElements dims) dtype.itemsize := by
  refine Nat.div_lt_of_lt_mul ?_
  rw [Nat.mul_comm]
  exact elementIn.trans_eq (copyWord_spec (format.rowElements dims) small).2.2.symm

/-- Words of a row and elements of a word add up to elements. -/
theorem GPUKVFormat.elementDistance_eq (small : dtype.itemsize ≤ 8) (row element : ℕ) :
    (format.launchFor dims dtype numTokens).elementDistance
        ((row * wordsPerRow (format.rowElements dims) dtype.itemsize +
          element / (format.launchFor dims dtype numTokens).elementsPerWord : ℕ) : ℤ) element =
      (((row * format.rowElements dims + element) * dtype.itemsize : ℕ) : ℤ) := by
  obtain ⟨_, word, row_eq⟩ := copyWord_spec (format.rowElements dims) small
  set perWord := copyWord (format.rowElements dims * dtype.itemsize) / dtype.itemsize
    with perWordEq
  change ((row * wordsPerRow (format.rowElements dims) dtype.itemsize + element / perWord : ℕ) :
      ℤ) * (copyWord (format.rowElements dims * dtype.itemsize) : ℕ) +
    ((element % perWord * dtype.itemsize : ℕ) : ℤ) = _
  have split := Nat.div_add_mod' element perWord
  rw [← word]
  norm_cast
  calc (row * wordsPerRow (format.rowElements dims) dtype.itemsize + element / perWord) *
        (perWord * dtype.itemsize) + element % perWord * dtype.itemsize
      = (row * (wordsPerRow (format.rowElements dims) dtype.itemsize * perWord) +
          (element / perWord * perWord + element % perWord)) * dtype.itemsize := by ring
    _ = (row * format.rowElements dims + element) * dtype.itemsize := by rw [row_eq, split]

section Elements

variable {kvCaches : KVCaches} {table : List ℤ} {pageBufferSize blockSize : ℕ}
  {coordinate : KVCoordinate}

/-- An element is behind its layer's pointer. -/
theorem FusedTable.elementAddress_eq
    (tables : FusedTable kvCaches format dims dtype table pageBufferSize blockSize)
    (inCache : coordinate.InCache (.fused format) dims) :
    kvCaches.elementAddress (.fused format) dims coordinate =
      some (table.getD coordinate.layer 0 +
        (((format.pointerRow dims coordinate.kOrV coordinate.position * format.rowElements dims +
          coordinate.element) * dtype.itemsize : ℕ) : ℤ)) := by
  obtain ⟨tensor, there, shape, dtypeEq, entry⟩ :=
    tables.entry coordinate.layer coordinate.kOrV inCache.layer
  obtain ⟨inside, place⟩ := CacheLayout.fused_index inCache
  have below := offset_lt inside
  rw [← shape] at below
  have full : tensor.numel ≠ 0 := Nat.ne_of_gt (Nat.zero_lt_of_lt below)
  rw [KVCaches.elementAddress, there, Option.map_some, rowMajorAddress, shape, place,
    Tensor.elementSize, dtypeEq, entry full]
  push_cast
  ring_nf

/-- The place of an element behind its layer's pointer is an `int64_t`. -/
theorem FusedTable.element_lt
    (tables : FusedTable kvCaches format dims dtype table pageBufferSize blockSize)
    (inside : ∀ tensor ∈ kvCaches.tensors,
      tensor.dataPtr + tensor.numel * tensor.elementSize ≤ 9223372036854775808)
    (inCache : coordinate.InCache (.fused format) dims) :
    format.pointerRow dims coordinate.kOrV coordinate.position * format.rowElements dims +
      coordinate.element < 9223372036854775808 := by
  obtain ⟨tensor, there, shape, _⟩ :=
    tables.entry coordinate.layer coordinate.kOrV inCache.layer
  obtain ⟨inRange, place⟩ := CacheLayout.fused_index inCache
  have below := offset_lt inRange
  rw [place, ← shape] at below
  have limit := inside tensor (List.mem_of_getElem? there)
  have scaled := Nat.le_mul_of_pos_right tensor.numel tensor.dtype.itemsize_pos
  have apart := Nat.add_mul (format.layerRows dims coordinate.layer)
    (format.pointerRow dims coordinate.kOrV coordinate.position) (format.rowElements dims)
  change tensor.dataPtr + tensor.numel * tensor.dtype.itemsize ≤ _ at limit
  change _ < tensor.numel at below
  omega

variable (numTokens) in
/-- The address of an element in the paged cache is the row-major one, formed
when the steps in `int` fit. -/
theorem FusedTable.cacheAddress_iff
    (tables : FusedTable kvCaches format dims dtype table pageBufferSize blockSize)
    (addressable : kvCaches.Addressable) (small : dtype.itemsize ≤ 8) (keyValue : ℤ)
    (inCache : coordinate.InCache (.fused format) dims) (address : ℤ) :
    TransferCall.cacheAddress coordinate
        (.multiLayer (format.launchFor dims dtype numTokens) table keyValue) = some address ↔
      format.StepsFit dims coordinate.kOrV coordinate.position
          (coordinate.element / (format.launchFor dims dtype numTokens).elementsPerWord)
          (wordsPerRow (format.rowElements dims) dtype.itemsize) ∧
        kvCaches.elementAddress (.fused format) dims coordinate = some address := by
  have scalarIn := format.word_lt numTokens small inCache.element
  have long : format.pointerRow dims coordinate.kOrV coordinate.position *
      wordsPerRow (format.rowElements dims) dtype.itemsize +
        coordinate.element / (format.launchFor dims dtype numTokens).elementsPerWord <
          9223372036854775808 := by
    have below := tables.element_lt addressable.inside inCache
    have words : wordsPerRow (format.rowElements dims) dtype.itemsize ≤
        format.rowElements dims := Nat.div_le_self _ _
    have scalar := Nat.div_le_self coordinate.element
      (format.launchFor dims dtype numTokens).elementsPerWord
    have rows := Nat.mul_le_mul_left
      (format.pointerRow dims coordinate.kOrV coordinate.position) words
    omega
  have offsets := pageBufferOffset_eq tables.handled dims coordinate.kOrV coordinate.position
    scalarIn
  have home := tables.elementAddress_eq inCache
  rw [home]
  constructor
  · intro formed
    obtain ⟨offset, defined, rfl⟩ := Option.map_eq_some_iff.mp formed
    obtain ⟨fits, _, rfl⟩ := (offsets offset).mp defined
    rw [GPUKVFormat.elementDistance_eq small]
    exact ⟨fits, rfl⟩
  · rintro ⟨fits, same⟩
    obtain rfl := Option.some.inj same
    refine Option.map_eq_some_iff.mpr ⟨_, (offsets _).mpr ⟨fits, long, rfl⟩, ?_⟩
    rw [GPUKVFormat.elementDistance_eq small]

end Elements

/-- The address of an element in the memory object likewise. -/
theorem GPUKVFormat.objectAddress_iff {keyValue : Tensor}
    (shape : keyValue.shape =
      [format.halves, dims.numLayers, numTokens, format.rowElements dims])
    (dtypeEq : keyValue.dtype = dtype) (small : dtype.itemsize ≤ 8) (table : List ℤ)
    {coordinate : KVCoordinate} (inObject : coordinate.InObject (.fused format) dims numTokens)
    (address : ℤ) :
    TransferCall.objectAddress coordinate
        (.multiLayer (format.launchFor dims dtype numTokens) table keyValue.dataPtr) =
          some address ↔
      ((coordinate.kOrV * dims.numLayers + coordinate.layer) * numTokens + coordinate.position) *
          wordsPerRow (format.rowElements dims) dtype.itemsize +
            coordinate.element / (format.launchFor dims dtype numTokens).elementsPerWord <
              2147483648 ∧
        address = rowMajorAddress keyValue coordinate.objectIndex := by
  have scalarIn := format.word_lt numTokens small inObject.element
  set row := (coordinate.kOrV * dims.numLayers + coordinate.layer) * numTokens +
    coordinate.position with rowEq
  have offsets (offset : ℤ) :
      keyValueOffset coordinate.kOrV coordinate.layer coordinate.position
          ((coordinate.element / (format.launchFor dims dtype numTokens).elementsPerWord : ℕ) : ℤ)
          ((wordsPerRow (format.rowElements dims) dtype.itemsize : ℕ) : ℤ) numTokens
          dims.numLayers = some offset ↔
        row * wordsPerRow (format.rowElements dims) dtype.itemsize +
            coordinate.element / (format.launchFor dims dtype numTokens).elementsPerWord <
              2147483648 ∧
          offset = ((row * wordsPerRow (format.rowElements dims) dtype.itemsize +
            coordinate.element / (format.launchFor dims dtype numTokens).elementsPerWord : ℕ) :
              ℤ) :=
    keyValueOffset_eq (Nat.zero_lt_of_lt inObject.token) (Nat.zero_lt_of_lt scalarIn) offset
  have home : rowMajorAddress keyValue coordinate.objectIndex = keyValue.dataPtr +
      (((row * format.rowElements dims + coordinate.element) * dtype.itemsize : ℕ) : ℤ) := by
    have place : offset keyValue.shape coordinate.objectIndex =
        row * format.rowElements dims + coordinate.element := by
      rw [shape, KVCoordinate.objectIndex]
      simp only [offset_cons, offset_nil, List.prod_cons, List.prod_nil, rowEq]
      ring
    rw [rowMajorAddress, place, Tensor.elementSize, dtypeEq]
  rw [home, TransferCall.objectAddress, Option.map_eq_some_iff]
  constructor
  · rintro ⟨offset, defined, rfl⟩
    obtain ⟨fits, rfl⟩ := (offsets offset).mp defined
    rw [GPUKVFormat.elementDistance_eq small]
    exact ⟨fits, rfl⟩
  · rintro ⟨fits, rfl⟩
    refine ⟨_, (offsets _).mpr ⟨fits, rfl⟩, ?_⟩
    rw [GPUKVFormat.elementDistance_eq small]

end Fused

end LMCacheHcu.Kernels
