import LMCacheHcu.Foundation.Checked
import LMCacheHcu.Storage.BlockFirstDisk

/-! # The same chunk in two layouts

A chunk is one byte for each K/V half, layer, token and position in a row. The
logical layout and the block-first layout place these bytes in different orders;
the two conversions carry a memory that holds a chunk in one layout to one that
holds it in the other.
-/

namespace LMCacheHcu.Storage

open RowMajor ByteCopy

/-- The extents of a complete chunk. -/
structure ChunkShape where
  numLayers : ℕ
  chunkBlocks : ℕ
  blockSize : ℕ
  hiddenDim : ℕ
  itemsize : ℕ
deriving DecidableEq, Repr

/-- The bytes of a chunk, by K/V half, layer, token and byte of the row. -/
abbrev Chunk := ℕ → ℕ → ℕ → ℕ → Byte

namespace ChunkShape

variable (shape : ChunkShape)

def numTokens : ℕ := shape.chunkBlocks * shape.blockSize

/-- The bytes of one token in one layer and half. -/
def rowNbytes : ℕ := shape.hiddenDim * shape.itemsize

/-- The bytes of one block in one layer and half. -/
def layerBlockNbytes : ℕ := shape.blockSize * shape.rowNbytes

/-- The bytes of one block in all layers. -/
def blockNbytes : ℕ := shape.numLayers * 2 * shape.layerBlockNbytes

def payloadNbytes : ℕ := shape.chunkBlocks * shape.blockNbytes

def logicalDims : List ℕ := [2, shape.numLayers, shape.numTokens, shape.hiddenDim]

def payloadDims : List ℕ :=
  [shape.chunkBlocks, shape.numLayers, 2, shape.blockSize, shape.hiddenDim]

/-- Where a byte of a row lies within the payload of one block. -/
def blockPosition (layer half slot low : ℕ) : ℕ :=
  (layer * 2 + half) * shape.layerBlockNbytes + (slot * shape.rowNbytes + low)

/-- Where a byte of a row lies within the payload. -/
def payloadPosition (block layer half slot low : ℕ) : ℕ :=
  block * shape.blockNbytes + shape.blockPosition layer half slot low

/-- Where a byte of a row lies within the logical tensor. -/
def logicalPosition (half layer token low : ℕ) : ℕ :=
  ((half * shape.numLayers + layer) * shape.numTokens + token) * shape.rowNbytes + low

/-- The memory has the chunk in block-first order from the base on. -/
def HoldsPayload (memory : Memory) (base : ℤ) (chunk : Chunk) : Prop :=
  ∀ block layer half slot low, block < shape.chunkBlocks → layer < shape.numLayers → half < 2 →
    slot < shape.blockSize → low < shape.rowNbytes →
      memory (base + (shape.payloadPosition block layer half slot low : ℤ)) =
        chunk half layer (block * shape.blockSize + slot) low

/-- The memory has the chunk in logical order from the base on. -/
def HoldsLogical (memory : Memory) (base : ℤ) (chunk : Chunk) : Prop :=
  ∀ half layer token low, half < 2 → layer < shape.numLayers → token < shape.numTokens →
    low < shape.rowNbytes →
      memory (base + (shape.logicalPosition half layer token low : ℤ)) = chunk half layer token low

/-! ### Positions within a block and within the payload -/

theorem blockPosition_lt {layer half slot low : ℕ} (layerIn : layer < shape.numLayers)
    (halfIn : half < 2) (slotIn : slot < shape.blockSize) (lowIn : low < shape.rowNbytes) :
    shape.blockPosition layer half slot low < shape.blockNbytes :=
  digit_lt (digit_lt layerIn halfIn) (digit_lt slotIn lowIn)

theorem blockPosition_inj {layer layer' half half' slot slot' low low' : ℕ}
    (halfIn : half < 2) (halfIn' : half' < 2) (slotIn : slot < shape.blockSize)
    (slotIn' : slot' < shape.blockSize) (lowIn : low < shape.rowNbytes)
    (lowIn' : low' < shape.rowNbytes)
    (same : shape.blockPosition layer half slot low = shape.blockPosition layer' half' slot' low') :
    layer = layer' ∧ half = half' ∧ slot = slot' ∧ low = low' := by
  obtain ⟨outer, inner⟩ := digit_inj (digit_lt slotIn lowIn) (digit_lt slotIn' lowIn') same
  obtain ⟨rfl, rfl⟩ := digit_inj halfIn halfIn' outer
  obtain ⟨rfl, rfl⟩ := digit_inj lowIn lowIn' inner
  exact ⟨rfl, rfl, rfl, rfl⟩

theorem exists_blockPosition {position : ℕ} (below : position < shape.blockNbytes) :
    ∃ layer half slot low, layer < shape.numLayers ∧ half < 2 ∧ slot < shape.blockSize ∧
      low < shape.rowNbytes ∧ position = shape.blockPosition layer half slot low := by
  obtain ⟨outer, inner, outerIn, innerIn, rfl⟩ := exists_digit below
  obtain ⟨layer, half, layerIn, halfIn, rfl⟩ := exists_digit outerIn
  obtain ⟨slot, low, slotIn, lowIn, rfl⟩ := exists_digit innerIn
  exact ⟨layer, half, slot, low, layerIn, halfIn, slotIn, lowIn, rfl⟩

theorem payloadPosition_lt {block layer half slot low : ℕ} (blockIn : block < shape.chunkBlocks)
    (layerIn : layer < shape.numLayers) (halfIn : half < 2) (slotIn : slot < shape.blockSize)
    (lowIn : low < shape.rowNbytes) :
    shape.payloadPosition block layer half slot low < shape.payloadNbytes :=
  digit_lt blockIn (shape.blockPosition_lt layerIn halfIn slotIn lowIn)

theorem payloadPosition_inj {block block' layer layer' half half' slot slot' low low' : ℕ}
    (layerIn : layer < shape.numLayers) (layerIn' : layer' < shape.numLayers) (halfIn : half < 2)
    (halfIn' : half' < 2) (slotIn : slot < shape.blockSize) (slotIn' : slot' < shape.blockSize)
    (lowIn : low < shape.rowNbytes) (lowIn' : low' < shape.rowNbytes)
    (same : shape.payloadPosition block layer half slot low =
      shape.payloadPosition block' layer' half' slot' low') :
    block = block' ∧ layer = layer' ∧ half = half' ∧ slot = slot' ∧ low = low' := by
  obtain ⟨blocks, inner⟩ := digit_inj (shape.blockPosition_lt layerIn halfIn slotIn lowIn)
    (shape.blockPosition_lt layerIn' halfIn' slotIn' lowIn') same
  exact ⟨blocks, shape.blockPosition_inj halfIn halfIn' slotIn slotIn' lowIn lowIn' inner⟩

theorem exists_payloadPosition {position : ℕ} (below : position < shape.payloadNbytes) :
    ∃ block layer half slot low, block < shape.chunkBlocks ∧ layer < shape.numLayers ∧ half < 2 ∧
      slot < shape.blockSize ∧ low < shape.rowNbytes ∧
      position = shape.payloadPosition block layer half slot low := by
  obtain ⟨block, inner, blockIn, innerIn, rfl⟩ := exists_digit below
  obtain ⟨layer, half, slot, low, layerIn, halfIn, slotIn, lowIn, rfl⟩ :=
    shape.exists_blockPosition innerIn
  exact ⟨block, layer, half, slot, low, blockIn, layerIn, halfIn, slotIn, lowIn, rfl⟩

theorem payloadPosition_eq_offset (block layer half slot coordinate low : ℕ) :
    shape.payloadPosition block layer half slot (coordinate * shape.itemsize + low) =
      offset shape.payloadDims [block, layer, half, slot, coordinate] * shape.itemsize + low := by
  simp only [payloadPosition, blockNbytes, blockPosition, layerBlockNbytes, rowNbytes, payloadDims,
    offset_cons, offset_nil, List.prod_cons, List.prod_nil]
  ring

theorem logicalPosition_eq_offset (half layer token coordinate low : ℕ) :
    shape.logicalPosition half layer token (coordinate * shape.itemsize + low) =
      offset shape.logicalDims [half, layer, token, coordinate] * shape.itemsize + low := by
  simp only [logicalPosition, rowNbytes, logicalDims, offset_cons, offset_nil, List.prod_cons,
    List.prod_nil]
  ring

end ChunkShape

/-! ### Metadata of a complete chunk -/

/-- The metadata that `create` makes for a logical shape. -/
structure CreatedFor (metadata : BlockFirstDiskMetadata) (logicalShape : List ℕ) (dtype : DType)
    (blockSize : ℕ) : Prop where
  payloadShape : blockFirstShape (logicalShape.map Int.ofNat) blockSize = .ok metadata.payloadShape
  logicalShape_eq : metadata.logicalShape = logicalShape.map Int.ofNat
  dtype_eq : metadata.dtype = dtype.name
  validTokens : metadata.validTokens = (logicalShape.map Int.ofNat).getD 2 0
  numLayers : metadata.numLayers = (logicalShape.map Int.ofNat).getD 1 0
  hiddenDim : metadata.hiddenDim = (logicalShape.map Int.ofNat).getD 3 0
  blockSize_eq : metadata.blockSize = blockSize
  payloadNbytes : metadata.payloadNbytes = (logicalShape.map Int.ofNat).prod * dtype.itemsize
  ioNbytes : alignUp metadata.payloadNbytes blockFirstAlignment = .ok metadata.ioNbytes

theorem createdFor_of_create {signature : LayoutFields → String} {logicalShape : List ℕ}
    {dtype : DType} {blockSize : ℕ} {identity : WorkerIdentity} {metadata : BlockFirstDiskMetadata}
    (created : BlockFirstDiskMetadata.create signature logicalShape dtype blockSize identity =
      .ok metadata) : CreatedFor metadata logicalShape dtype blockSize := by
  simp only [BlockFirstDiskMetadata.create, Checked.bind_ok, Checked.return_ok] at created
  obtain ⟨payloadShape, shaped, ioNbytes, aligned, _, _, rfl⟩ := created
  exact ⟨shaped, rfl, rfl, rfl, rfl, rfl, rfl, rfl, aligned⟩

theorem alignUp_ok {size alignment aligned : ℤ} (computed : alignUp size alignment = .ok aligned) :
    0 ≤ size ∧ size ≤ aligned ∧
      aligned = (size + alignment - 1) / alignment * alignment := by
  simp only [alignUp, Checked.check_ok, Except.ok.injEq, not_lt, not_le] at computed
  obtain ⟨nonneg, positive, rfl⟩ := computed
  have parts := Int.mul_ediv_add_emod (size + alignment - 1) alignment
  have below := Int.emod_lt_of_pos (size + alignment - 1) positive
  rw [mul_comm] at parts
  exact ⟨nonneg, by omega, rfl⟩

/-! ### The two conversions -/

section Conversion

variable {shape : ChunkShape} {allocate : List ℕ → DType → Device → Tensor}

/-- Splitting the token dimension into blocks addresses token `slot` of a block. -/
theorem strided_split {view : View} (ranked : view.strides.length = 4)
    (blockSize half layer block slot coordinate : ℕ) :
    strided (view.split 2 blockSize).strides [half, layer, block, slot, coordinate] =
      strided view.strides [half, layer, block * blockSize + slot, coordinate] := by
  obtain ⟨base, itemsize, dims, strides⟩ := view
  match strides, ranked with
  | [first, second, third, fourth], _ =>
      change half * first + (layer * second + (block * (blockSize * third) +
        (slot * third + (coordinate * fourth + 0)))) =
          half * first + (layer * second + ((block * blockSize + slot) * third +
            (coordinate * fourth + 0)))
      ring

/-- Bringing the third dimension to the front and the first to its place. -/
theorem strided_permute {view : View} (ranked : view.strides.length = 5)
    (first second third slot coordinate : ℕ) :
    strided (view.permute [2, 1, 0, 3, 4]).strides [third, second, first, slot, coordinate] =
      strided view.strides [first, second, third, slot, coordinate] := by
  obtain ⟨base, itemsize, dims, strides⟩ := view
  match strides, ranked with
  | [stride₀, stride₁, stride₂, stride₃, stride₄], _ =>
      change third * stride₂ + (second * stride₁ + (first * stride₀ +
        (slot * stride₃ + (coordinate * stride₄ + 0)))) =
          first * stride₀ + (second * stride₁ + (third * stride₂ +
            (slot * stride₃ + (coordinate * stride₄ + 0))))
      ring

theorem length_split_strides {view : View} (ranked : view.strides.length = 4) (blockSize : ℕ) :
    (view.split 2 blockSize).strides.length = 5 := by
  obtain ⟨base, itemsize, dims, strides⟩ := view
  match strides, ranked with
  | [first, second, third, fourth], _ => rfl

/-- What `block_first_shape` accepts, and what it answers. -/
theorem blockFirstShape_ok {logicalShape result : List ℤ} {blockSize : ℤ} :
    blockFirstShape logicalShape blockSize = .ok result ↔
      ∃ numLayers numTokens hiddenDim, logicalShape = [2, numLayers, numTokens, hiddenDim] ∧
        0 < numLayers ∧ 0 < numTokens ∧ 0 < hiddenDim ∧ 0 < blockSize ∧
        numTokens % blockSize = 0 ∧
        result = [numTokens / blockSize, numLayers, 2, blockSize, hiddenDim] := by
  unfold blockFirstShape
  split
  · rename_i numLayers numTokens hiddenDim
    simp only [Checked.check_ok, Except.ok.injEq]
    constructor
    · rintro ⟨positive, size, whole, rfl⟩
      simp at positive
      exact ⟨numLayers, numTokens, hiddenDim, rfl, by omega, by omega, by omega, by omega,
        not_not.mp whole, rfl⟩
    · rintro ⟨_, _, _, same, layers, tokens, hidden, size, whole, rfl⟩
      simp only [List.cons.injEq, true_and, and_true] at same
      obtain ⟨rfl, rfl, rfl⟩ := same
      refine ⟨?_, by omega, not_not.mpr whole, rfl⟩
      simp only [List.any_cons, List.any_nil, Bool.or_false, Bool.or_eq_true, decide_eq_true_eq]
      omega
  · rename_i other
    constructor
    · intro returned
      cases returned
    · rintro ⟨numLayers, numTokens, hiddenDim, rfl, _⟩
      exact absurd rfl (other numLayers numTokens hiddenDim)

/-- What a successful `logical_to_block_first` has checked. -/
theorem logicalToBlockFirst_ok {logical result : Tensor} {blockSize : ℕ} {out : Option Tensor}
    {copies : List Copy}
    (converted : logicalToBlockFirst allocate logical blockSize out = .ok (result, copies)) :
    blockFirstShape logical.intShape blockSize = .ok result.intShape ∧
      logical.isContiguous = true ∧ result.dtype = logical.dtype ∧
      copies = result.toView.copyFrom
        ((logical.toView.split 2 blockSize).permute [2, 1, 0, 3, 4]) := by
  unfold logicalToBlockFirst at converted
  simp only [Checked.bind_ok, Checked.throw_bind, Checked.check_ok, Checked.return_ok,
    Prod.mk.injEq, not_not, not_or, Bool.not_eq_false] at converted
  obtain ⟨_, target, contiguous, fits, ⟨sameType, _⟩, rfl, rfl⟩ := converted
  exact ⟨by rw [target, fits], contiguous, sameType, rfl⟩

/-- What a successful `block_first_to_logical` has checked. -/
theorem blockFirstToLogical_ok {physical result : Tensor} {out : Option Tensor}
    {copies : List Copy}
    (converted : blockFirstToLogical allocate physical out = .ok (result, copies)) :
    physical.ndim = 5 ∧ physical.dim 2 = 2 ∧ physical.isContiguous = true ∧
      result.intShape = [2, (physical.dim 1 : ℤ), physical.dim 0 * physical.dim 3,
        physical.dim 4] ∧ result.dtype = physical.dtype ∧
      copies = (result.toView.split 2 (physical.dim 3)).copyFrom
        (physical.toView.permute [2, 1, 0, 3, 4]) := by
  unfold blockFirstToLogical at converted
  simp only [Checked.throw_bind, Checked.check_ok, Checked.return_ok,
    Prod.mk.injEq, not_not, not_or, Bool.not_eq_false] at converted
  obtain ⟨⟨rank, two⟩, contiguous, fits, ⟨sameType, _⟩, rfl, rfl⟩ := converted
  exact ⟨rank, two, contiguous, fits, sameType, rfl⟩

theorem shape_eq_of_intShape {tensor : Tensor} {dims : List ℕ}
    (same : tensor.intShape = dims.map Int.ofNat) : tensor.shape = dims :=
  List.map_injective_iff.mpr (fun _ _ => Int.ofNat.inj) same

/-- The payload shape of a complete chunk. -/
theorem payloadDims_of_blockFirstShape {result : List ℤ}
    (shaped : blockFirstShape (shape.logicalDims.map Int.ofNat) shape.blockSize = .ok result) :
    result = shape.payloadDims.map Int.ofNat := by
  obtain ⟨numLayers, numTokens, hiddenDim, given, _, _, _, positive, _, rfl⟩ :=
    blockFirstShape_ok.mp shaped
  simp only [ChunkShape.logicalDims, ChunkShape.numTokens, List.map_cons, List.map_nil,
    List.cons.injEq, Int.ofNat_eq_natCast, and_true] at given
  obtain ⟨_, rfl, rfl, rfl⟩ := given
  have blocks : (((shape.chunkBlocks * shape.blockSize : ℕ) : ℤ)) / (shape.blockSize : ℤ) =
      (shape.chunkBlocks : ℤ) := by
    push_cast
    exact Int.mul_ediv_cancel _ positive.ne'
  rw [blocks]
  rfl

theorem logicalToBlockFirst_shape {logical result : Tensor} {out : Option Tensor}
    {copies : List Copy} (dims : logical.shape = shape.logicalDims)
    (converted : logicalToBlockFirst allocate logical shape.blockSize out = .ok (result, copies)) :
    result.shape = shape.payloadDims := by
  obtain ⟨target, _⟩ := logicalToBlockFirst_ok converted
  rw [Tensor.intShape, dims] at target
  exact shape_eq_of_intShape (payloadDims_of_blockFirstShape target)

/-- A conversion into a given tensor answers that tensor. -/
theorem logicalToBlockFirst_out {logical out result : Tensor} {blockSize : ℕ} {copies : List Copy}
    (converted : logicalToBlockFirst allocate logical blockSize (some out) =
      .ok (result, copies)) : result = out := by
  unfold logicalToBlockFirst at converted
  simp only [Checked.bind_ok, Checked.throw_bind, Checked.check_ok, Checked.return_ok,
    Prod.mk.injEq] at converted
  obtain ⟨_, _, _, _, _, same, _⟩ := converted
  exact same.symm

theorem blockFirstToLogical_out {physical out result : Tensor} {copies : List Copy}
    (converted : blockFirstToLogical allocate physical (some out) = .ok (result, copies)) :
    result = out := by
  unfold blockFirstToLogical at converted
  simp only [Checked.throw_bind, Checked.check_ok, Checked.return_ok, Prod.mk.injEq] at converted
  obtain ⟨_, _, _, _, same, _⟩ := converted
  exact same.symm

/-- A contiguous tensor of payload shape has its bytes at payload positions. -/
theorem payload_address {tensor : Tensor} (dims : tensor.shape = shape.payloadDims)
    (size : tensor.elementSize = shape.itemsize) (contiguous : tensor.isContiguous = true)
    {block layer half slot coordinate : ℕ} (blockIn : block < shape.chunkBlocks)
    (layerIn : layer < shape.numLayers) (halfIn : half < 2) (slotIn : slot < shape.blockSize)
    (coordinateIn : coordinate < shape.hiddenDim) (low : ℕ) :
    InRange tensor.shape [block, layer, half, slot, coordinate] ∧
      tensor.toView.address [block, layer, half, slot, coordinate] + (low : ℤ) =
        tensor.dataPtr + ((shape.payloadPosition block layer half slot
          (coordinate * shape.itemsize + low) : ℕ) : ℤ) := by
  have inside : InRange tensor.shape [block, layer, half, slot, coordinate] := by
    simp [dims, ChunkShape.payloadDims, blockIn, layerIn, halfIn, slotIn, coordinateIn]
  refine ⟨inside, ?_⟩
  rw [Tensor.address_of_contiguous contiguous inside, dims, size,
    ← shape.payloadPosition_eq_offset]

/-- A contiguous tensor of logical shape has its bytes at logical positions. -/
theorem logical_address {tensor : Tensor} (dims : tensor.shape = shape.logicalDims)
    (size : tensor.elementSize = shape.itemsize) (contiguous : tensor.isContiguous = true)
    {half layer token coordinate : ℕ} (halfIn : half < 2) (layerIn : layer < shape.numLayers)
    (tokenIn : token < shape.numTokens) (coordinateIn : coordinate < shape.hiddenDim) (low : ℕ) :
    InRange tensor.shape [half, layer, token, coordinate] ∧
      tensor.toView.address [half, layer, token, coordinate] + (low : ℤ) =
        tensor.dataPtr + ((shape.logicalPosition half layer token
          (coordinate * shape.itemsize + low) : ℕ) : ℤ) := by
  have inside : InRange tensor.shape [half, layer, token, coordinate] := by
    simp [dims, ChunkShape.logicalDims, halfIn, layerIn, tokenIn, coordinateIn]
  refine ⟨inside, ?_⟩
  rw [Tensor.address_of_contiguous contiguous inside, dims, size,
    ← shape.logicalPosition_eq_offset]

/-- **Logical to block-first.** Where the source holds a chunk in logical order,
the destination holds it in block-first order afterwards. -/
theorem holdsPayload_of_logicalToBlockFirst {logical result : Tensor} {out : Option Tensor}
    {copies : List Copy} (dims : logical.shape = shape.logicalDims)
    (size : logical.elementSize = shape.itemsize) (contiguous : result.isContiguous = true)
    (converted : logicalToBlockFirst allocate logical shape.blockSize out = .ok (result, copies))
    {source : Memory} (memory : Memory) {chunk : Chunk}
    (held : shape.HoldsLogical source logical.dataPtr chunk) :
    shape.HoldsPayload (writeAll source copies memory) result.dataPtr chunk := by
  have resultDims := logicalToBlockFirst_shape dims converted
  obtain ⟨_, sourceContiguous, sameType, rfl⟩ := logicalToBlockFirst_ok converted
  have resultSize : result.elementSize = shape.itemsize := by
    rw [← size]
    exact congrArg DType.itemsize sameType
  intro block layer half slot low blockIn layerIn halfIn slotIn lowIn
  obtain ⟨coordinate, rest, coordinateIn, restIn, rfl⟩ := exists_digit lowIn
  have tokenIn : block * shape.blockSize + slot < shape.numTokens := digit_lt blockIn slotIn
  obtain ⟨inside, place⟩ := payload_address resultDims resultSize contiguous blockIn layerIn halfIn
    slotIn coordinateIn rest
  obtain ⟨_, origin⟩ := logical_address dims size sourceContiguous halfIn layerIn tokenIn
    coordinateIn rest
  have ranked : logical.toView.strides.length = 4 := by
    change logical.stride.length = 4
    rw [logical.ranked, dims]
    rfl
  rw [← place, (Tensor.dense_of_contiguous contiguous).copyFrom_apply _ source memory inside
    (restIn.trans_eq resultSize.symm), View.address,
    strided_permute (length_split_strides ranked _), strided_split ranked]
  change source (logical.toView.address _ + (rest : ℤ)) = _
  rw [origin]
  exact held half layer _ _ halfIn layerIn tokenIn lowIn

/-- Splitting whole blocks off the token dimension keeps a view dense. -/
theorem dense_split {view : View} (dims : view.shape = shape.logicalDims)
    (ranked : view.strides.length = 4) (dense : view.Dense) (positive : 0 < shape.blockSize) :
    (view.split 2 shape.blockSize).shape =
        [2, shape.numLayers, shape.chunkBlocks, shape.blockSize, shape.hiddenDim] ∧
      (view.split 2 shape.blockSize).Dense := by
  have splitDims : (view.split 2 shape.blockSize).shape =
      [2, shape.numLayers, shape.chunkBlocks, shape.blockSize, shape.hiddenDim] := by
    rw [View.split, dims]
    simp [ChunkShape.logicalDims, ChunkShape.numTokens, Nat.mul_div_cancel _ positive]
  refine ⟨splitDims, fun index inside => ?_⟩
  rw [splitDims] at inside ⊢
  simp only [InRange, List.forall₂_cons_right_iff, List.forall₂_nil_right_iff] at inside
  obtain ⟨half, _, halfIn, ⟨layer, _, layerIn, ⟨block, _, blockIn, ⟨slot, _, slotIn,
    ⟨coordinate, _, coordinateIn, rfl, rfl⟩, rfl⟩, rfl⟩, rfl⟩, rfl⟩ := inside
  have tokenIn : block * shape.blockSize + slot < shape.numTokens := digit_lt blockIn slotIn
  have whole : InRange view.shape [half, layer, block * shape.blockSize + slot, coordinate] := by
    simp [dims, ChunkShape.logicalDims, halfIn, layerIn, tokenIn, coordinateIn]
  rw [strided_split ranked, dense _ whole, dims]
  simp only [ChunkShape.logicalDims, ChunkShape.numTokens, offset_cons, offset_nil, List.prod_cons,
    List.prod_nil]
  ring

/-- **Block-first to logical.** Where the source holds a chunk in block-first
order, the destination holds it in logical order afterwards. -/
theorem holdsLogical_of_blockFirstToLogical {physical result : Tensor} {out : Option Tensor}
    {copies : List Copy} (dims : physical.shape = shape.payloadDims)
    (size : physical.elementSize = shape.itemsize) (contiguous : result.isContiguous = true)
    (converted : blockFirstToLogical allocate physical out = .ok (result, copies))
    {source : Memory} (memory : Memory) {chunk : Chunk}
    (held : shape.HoldsPayload source physical.dataPtr chunk) :
    shape.HoldsLogical (writeAll source copies memory) result.dataPtr chunk := by
  obtain ⟨_, _, sourceContiguous, target, sameType, rfl⟩ := blockFirstToLogical_ok converted
  have extents : physical.dim 0 = shape.chunkBlocks ∧ physical.dim 1 = shape.numLayers ∧
      physical.dim 3 = shape.blockSize ∧ physical.dim 4 = shape.hiddenDim := by
    simp [Tensor.dim, dims, ChunkShape.payloadDims]
  obtain ⟨blocks, layers, slots, hidden⟩ := extents
  rw [slots]
  rw [blocks, layers, slots, hidden] at target
  have resultDims : result.shape = shape.logicalDims := by
    apply shape_eq_of_intShape
    rw [target]
    simp [ChunkShape.logicalDims, ChunkShape.numTokens]
  have resultSize : result.elementSize = shape.itemsize := by
    rw [← size]
    exact congrArg DType.itemsize sameType
  have ranked : result.toView.strides.length = 4 := by
    change result.stride.length = 4
    rw [result.ranked, resultDims]
    rfl
  have rankedSource : physical.toView.strides.length = 5 := by
    change physical.stride.length = 5
    rw [physical.ranked, dims]
    rfl
  intro half layer token low halfIn layerIn tokenIn lowIn
  obtain ⟨block, slot, blockIn, slotIn, rfl⟩ := exists_digit tokenIn
  obtain ⟨coordinate, rest, coordinateIn, restIn, rfl⟩ := exists_digit lowIn
  obtain ⟨splitDims, dense⟩ := dense_split resultDims ranked
    (Tensor.dense_of_contiguous contiguous) (Nat.zero_lt_of_lt slotIn)
  obtain ⟨_, place⟩ := logical_address resultDims resultSize contiguous halfIn layerIn tokenIn
    coordinateIn rest
  obtain ⟨_, origin⟩ := payload_address dims size sourceContiguous blockIn layerIn halfIn slotIn
    coordinateIn rest
  have inside : InRange (result.toView.split 2 shape.blockSize).shape
      [half, layer, block, slot, coordinate] := by
    simp [splitDims, halfIn, layerIn, blockIn, slotIn, coordinateIn]
  have moved := dense.copyFrom_apply (physical.toView.permute [2, 1, 0, 3, 4]) source memory
    inside (restIn.trans_eq resultSize.symm)
  have split : (result.toView.split 2 shape.blockSize).address [half, layer, block, slot, coordinate]
      = result.toView.address [half, layer, block * shape.blockSize + slot, coordinate] := by
    rw [View.address, strided_split ranked]
    rfl
  have permuted : (physical.toView.permute [2, 1, 0, 3, 4]).address
      [half, layer, block, slot, coordinate] =
        physical.toView.address [block, layer, half, slot, coordinate] := by
    rw [View.address, strided_permute rankedSource]
    rfl
  rw [← place, ← split, moved, permuted, origin]
  exact held block layer half slot _ blockIn layerIn halfIn slotIn lowIn

end Conversion

end LMCacheHcu.Storage
