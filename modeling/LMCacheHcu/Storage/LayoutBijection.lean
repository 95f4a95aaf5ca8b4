import LMCacheHcu.Storage.BlockFirstLayout

/-! # The two layouts are one to one

Where `logical_to_block_first` puts each element, and that each conversion undoes
the other, with and without a preallocated output. An output may be strided; only
a tensor that is converted has to be contiguous, so a preallocated output has to be
when it is converted back.
-/

namespace LMCacheHcu.Storage

open RowMajor ByteCopy

/-- What `torch.empty` answers. -/
structure TorchEmpty (allocate : List ℕ → DType → Device → Tensor) : Prop where
  shape : ∀ dims dtype device, (allocate dims dtype device).shape = dims
  dtype : ∀ dims dtype device, (allocate dims dtype device).dtype = dtype
  device : ∀ dims dtype device, (allocate dims dtype device).device = device
  contiguous : ∀ dims dtype device, (allocate dims dtype device).isContiguous = true

/-- An output for the conversion of a tensor. `copy_` refuses a target in which
elements share memory. -/
structure Preallocated (dims : List ℕ) (like out : Tensor) : Prop where
  shape : out.shape = dims
  dtype : out.dtype = like.dtype
  device : out.device = like.device
  separate : out.toView.Separate

/-- The second tensor has in the second memory what the first one has in the first. -/
def SameElements (memory memory' : Memory) (before after : Tensor) : Prop :=
  after.shape = before.shape ∧ after.dtype = before.dtype ∧
    ∀ index, InRange before.shape index → ∀ low < before.elementSize,
      memory' (after.toView.address index + (low : ℤ)) =
        memory (before.toView.address index + (low : ℤ))

theorem Preallocated.of_like {dims : List ℕ} {like like' out : Tensor}
    (fits : Preallocated dims like' out) (dtype : like'.dtype = like.dtype)
    (device : like'.device = like.device) : Preallocated dims like out :=
  ⟨fits.shape, fits.dtype.trans dtype, fits.device.trans device, fits.separate⟩

/-- A memory after copies within it, whose targets none of them reads. -/
def copied (copies : List Copy) (memory : Memory) : Memory := writeAll memory copies memory

section Conversion

variable {allocate : List ℕ → DType → Device → Tensor}

/-- The output of a conversion, given or not, is one for the tensor. -/
theorem preallocated_conversionOutput (torch : TorchEmpty allocate) {dims : List ℕ}
    {like : Tensor} {out : Option Tensor}
    (given : ∀ tensor ∈ out, Preallocated dims like tensor) :
    Preallocated dims like
      (conversionOutput allocate (dims.map Int.ofNat) like.dtype like.device out) := by
  cases out with
  | none =>
      have same : (dims.map Int.ofNat).map Int.toNat = dims := by
        rw [List.map_map]
        exact List.map_id dims
      rw [conversionOutput, Option.getD_none, same]
      exact ⟨torch.shape .., torch.dtype .., torch.device ..,
        (Tensor.dense_of_contiguous (torch.contiguous ..)).separate⟩
  | some tensor => exact given tensor rfl

theorem contiguous_conversionOutput (torch : TorchEmpty allocate) {dims : List ℤ} {dtype : DType}
    {device : Device} {out : Option Tensor} (given : ∀ tensor ∈ out, tensor.isContiguous = true) :
    (conversionOutput allocate dims dtype device out).isContiguous = true := by
  cases out with
  | none => exact torch.contiguous ..
  | some tensor => exact given tensor rfl

variable {numLayers numTokens hiddenDim blockSize : ℕ}

/-- The extents of whole blocks. -/
structure WholeBlocks (numLayers numTokens hiddenDim blockSize : ℕ) : Prop where
  layers : 0 < numLayers
  tokens : 0 < numTokens
  hidden : 0 < hiddenDim
  block : 0 < blockSize
  whole : blockSize ∣ numTokens

theorem WholeBlocks.token_lt (blocks : WholeBlocks numLayers numTokens hiddenDim blockSize)
    {block slot : ℕ} (blockIn : block < numTokens / blockSize) (slotIn : slot < blockSize) :
    block * blockSize + slot < numTokens :=
  (digit_lt blockIn slotIn).trans_eq (Nat.div_mul_cancel blocks.whole)

theorem WholeBlocks.block_lt (blocks : WholeBlocks numLayers numTokens hiddenDim blockSize)
    {token : ℕ} (tokenIn : token < numTokens) : token / blockSize < numTokens / blockSize := by
  refine Nat.div_lt_of_lt_mul ?_
  rwa [Nat.mul_div_cancel' blocks.whole]

theorem WholeBlocks.blockFirstShape (blocks : WholeBlocks numLayers numTokens hiddenDim blockSize) :
    blockFirstShape ([2, numLayers, numTokens, hiddenDim].map Int.ofNat) blockSize =
      .ok ([numTokens / blockSize, numLayers, 2, blockSize, hiddenDim].map Int.ofNat) := by
  refine blockFirstShape_ok.mpr ⟨numLayers, numTokens, hiddenDim, rfl,
    Int.natCast_pos.mpr blocks.layers, Int.natCast_pos.mpr blocks.tokens,
    Int.natCast_pos.mpr blocks.hidden, Int.natCast_pos.mpr blocks.block, ?_, ?_⟩
  · exact Int.emod_eq_zero_of_dvd (Int.natCast_dvd_natCast.mpr blocks.whole)
  · rfl

/-- The blocks of a token dimension are a view of their own. -/
theorem WholeBlocks.split_separate (blocks : WholeBlocks numLayers numTokens hiddenDim blockSize)
    {view : View} (dims : view.shape = [2, numLayers, numTokens, hiddenDim])
    (ranked : view.strides.length = 4) (separate : view.Separate) :
    (view.split 2 blockSize).shape =
        [2, numLayers, numTokens / blockSize, blockSize, hiddenDim] ∧
      (view.split 2 blockSize).Separate := by
  have splitDims : (view.split 2 blockSize).shape =
      [2, numLayers, numTokens / blockSize, blockSize, hiddenDim] := by
    rw [View.split, dims]
    rfl
  have moved (half layer block slot coordinate : ℕ) :
      (view.split 2 blockSize).address [half, layer, block, slot, coordinate] =
        view.address [half, layer, block * blockSize + slot, coordinate] := by
    rw [View.address, strided_split ranked]
    rfl
  refine ⟨splitDims, fun index index' low low' inside inside' small small' same => ?_⟩
  rw [splitDims] at inside inside'
  obtain ⟨half, halfIn, layer, layerIn, block, blockIn, slot, slotIn, coordinate, coordinateIn,
    rfl⟩ := exists_of_inRange_five inside
  obtain ⟨half', halfIn', layer', layerIn', block', blockIn', slot', slotIn', coordinate',
    coordinateIn', rfl⟩ := exists_of_inRange_five inside'
  rw [moved, moved] at same
  have tokenIn := blocks.token_lt blockIn slotIn
  have tokenIn' := blocks.token_lt blockIn' slotIn'
  have whole : InRange view.shape [half, layer, block * blockSize + slot, coordinate] := by
    simp [dims, halfIn, layerIn, tokenIn, coordinateIn]
  have whole' : InRange view.shape [half', layer', block' * blockSize + slot', coordinate'] := by
    simp [dims, halfIn', layerIn', tokenIn', coordinateIn']
  obtain ⟨indices, rfl⟩ := separate _ _ _ _ whole whole' small small' same
  simp only [List.cons.injEq, and_true] at indices
  obtain ⟨rfl, rfl, tokens, rfl⟩ := indices
  obtain ⟨rfl, rfl⟩ := digit_inj slotIn slotIn' tokens
  exact ⟨rfl, rfl⟩

/-- **Logical to block-first**: it succeeds, and this is where each element goes. -/
theorem logicalToBlockFirst_total (torch : TorchEmpty allocate)
    (blocks : WholeBlocks numLayers numTokens hiddenDim blockSize) {logical : Tensor}
    (dims : logical.shape = [2, numLayers, numTokens, hiddenDim])
    (contiguous : logical.isContiguous = true) {out : Option Tensor}
    (given : ∀ tensor ∈ out, Preallocated
      [numTokens / blockSize, numLayers, 2, blockSize, hiddenDim] logical tensor) :
    ∃ physical copies, logicalToBlockFirst allocate logical blockSize out = .ok (physical, copies) ∧
      Preallocated [numTokens / blockSize, numLayers, 2, blockSize, hiddenDim] logical physical ∧
      (∀ tensor ∈ out, physical = tensor) ∧
      ((∀ tensor ∈ out, tensor.isContiguous = true) → physical.isContiguous = true) ∧
      ∀ (source memory : Memory) (half layer block slot coordinate low : ℕ), half < 2 →
        layer < numLayers → block < numTokens / blockSize → slot < blockSize →
        coordinate < hiddenDim → low < logical.elementSize →
        writeAll source copies memory
            (physical.toView.address [block, layer, half, slot, coordinate] + (low : ℤ)) =
          source (logical.toView.address [half, layer, block * blockSize + slot, coordinate] +
            (low : ℤ)) := by
  have fits := preallocated_conversionOutput torch given
  obtain ⟨physical, is⟩ : ∃ physical, conversionOutput allocate
      ([numTokens / blockSize, numLayers, 2, blockSize, hiddenDim].map Int.ofNat)
      logical.dtype logical.device out = physical := ⟨_, rfl⟩
  rw [is] at fits
  refine ⟨physical, physical.toView.copyFrom
    ((logical.toView.split 2 blockSize).permute [2, 1, 0, 3, 4]), ?_, fits, ?_, ?_, ?_⟩
  · unfold logicalToBlockFirst
    rw [Tensor.intShape, dims, blocks.blockFirstShape]
    simp only [Checked.bind_ok, Checked.throw_bind, Checked.check_ok, Checked.return_ok,
      Except.ok.injEq, exists_eq_left', Prod.mk.injEq, is, and_true]
    refine ⟨by simp [contiguous], ?_, ?_⟩
    · rw [Tensor.intShape, fits.shape]
      exact not_not.mpr rfl
    · simp [fits.dtype, fits.device]
  · rintro tensor rfl
    exact is.symm
  · exact is ▸ contiguous_conversionOutput torch
  · intro source memory half layer block slot coordinate low halfIn layerIn blockIn slotIn
      coordinateIn small
    have inside : InRange physical.shape [block, layer, half, slot, coordinate] := by
      rw [fits.shape]
      simp [blockIn, layerIn, halfIn, slotIn, coordinateIn]
    have ranked : logical.toView.strides.length = 4 := by
      change logical.stride.length = 4
      rw [logical.ranked, dims]
      rfl
    have size : low < physical.toView.itemsize :=
      small.trans_eq (congrArg DType.itemsize fits.dtype).symm
    rw [fits.separate.copyFrom_apply _ source memory inside size, View.address,
      strided_permute (length_split_strides ranked _), strided_split ranked]
    rfl

/-- **Block-first to logical**: it succeeds, and this is where each element goes. -/
theorem blockFirstToLogical_total (torch : TorchEmpty allocate)
    (blocks : WholeBlocks numLayers numTokens hiddenDim blockSize) {physical : Tensor}
    (dims : physical.shape = [numTokens / blockSize, numLayers, 2, blockSize, hiddenDim])
    (contiguous : physical.isContiguous = true) {out : Option Tensor}
    (given : ∀ tensor ∈ out,
      Preallocated [2, numLayers, numTokens, hiddenDim] physical tensor) :
    ∃ logical copies, blockFirstToLogical allocate physical out = .ok (logical, copies) ∧
      Preallocated [2, numLayers, numTokens, hiddenDim] physical logical ∧
      (∀ tensor ∈ out, logical = tensor) ∧
      ((∀ tensor ∈ out, tensor.isContiguous = true) → logical.isContiguous = true) ∧
      ∀ (source memory : Memory) (half layer block slot coordinate low : ℕ), half < 2 →
        layer < numLayers → block < numTokens / blockSize → slot < blockSize →
        coordinate < hiddenDim → low < physical.elementSize →
        writeAll source copies memory
            (logical.toView.address [half, layer, block * blockSize + slot, coordinate] +
              (low : ℤ)) =
          source (physical.toView.address [block, layer, half, slot, coordinate] + (low : ℤ)) := by
  have fits := preallocated_conversionOutput torch given
  have extents : physical.dim 0 = numTokens / blockSize ∧ physical.dim 1 = numLayers ∧
      physical.dim 2 = 2 ∧ physical.dim 3 = blockSize ∧ physical.dim 4 = hiddenDim := by
    simp [Tensor.dim, dims]
  obtain ⟨count, layers, two, slots, hidden⟩ := extents
  obtain ⟨logical, is⟩ : ∃ logical, conversionOutput allocate
      ([2, numLayers, numTokens, hiddenDim].map Int.ofNat)
      physical.dtype physical.device out = logical := ⟨_, rfl⟩
  rw [is] at fits
  have tokens : (((numTokens / blockSize : ℕ) : ℤ)) * (blockSize : ℤ) = (numTokens : ℤ) := by
    rw [← Nat.cast_mul, Nat.div_mul_cancel blocks.whole]
  have target : [2, (numLayers : ℤ), ((numTokens / blockSize : ℕ) : ℤ) * (blockSize : ℤ),
      (hiddenDim : ℤ)] = [2, numLayers, numTokens, hiddenDim].map Int.ofNat := by
    rw [tokens]
    rfl
  refine ⟨logical, (logical.toView.split 2 blockSize).copyFrom
    (physical.toView.permute [2, 1, 0, 3, 4]), ?_, fits, ?_, ?_, ?_⟩
  · unfold blockFirstToLogical
    rw [count, layers, two, slots, hidden, target]
    simp only [Checked.throw_bind, Checked.check_ok, Checked.return_ok, is, and_true]
    refine ⟨by simp [Tensor.ndim, dims], by simp [contiguous], ?_, ?_⟩
    · rw [Tensor.intShape, fits.shape]
      exact not_not.mpr rfl
    · simp [fits.dtype, fits.device]
  · rintro tensor rfl
    exact is.symm
  · exact is ▸ contiguous_conversionOutput torch
  · intro source memory half layer block slot coordinate low halfIn layerIn blockIn slotIn
      coordinateIn small
    have ranked : logical.toView.strides.length = 4 := by
      change logical.stride.length = 4
      rw [logical.ranked, fits.shape]
      rfl
    have rankedSource : physical.toView.strides.length = 5 := by
      change physical.stride.length = 5
      rw [physical.ranked, dims]
      rfl
    obtain ⟨splitDims, separate⟩ := blocks.split_separate fits.shape ranked fits.separate
    have inside : InRange (logical.toView.split 2 blockSize).shape
        [half, layer, block, slot, coordinate] := by
      rw [splitDims]
      simp [halfIn, layerIn, blockIn, slotIn, coordinateIn]
    have size : low < (logical.toView.split 2 blockSize).itemsize :=
      small.trans_eq (congrArg DType.itemsize fits.dtype).symm
    have moved := separate.copyFrom_apply (physical.toView.permute [2, 1, 0, 3, 4]) source memory
      inside size
    rw [View.address, View.address, strided_split ranked, strided_permute rankedSource] at moved
    exact moved

/-- The elements of a tensor of logical shape, one block after the other. -/
theorem sameElements_of_blocks (blocks : WholeBlocks numLayers numTokens hiddenDim blockSize)
    {memory memory' : Memory} {before after : Tensor}
    (dims : before.shape = [2, numLayers, numTokens, hiddenDim]) (shape : after.shape = before.shape)
    (dtype : after.dtype = before.dtype)
    (same : ∀ half layer block slot coordinate low : ℕ, half < 2 → layer < numLayers →
      block < numTokens / blockSize → slot < blockSize → coordinate < hiddenDim →
      low < before.elementSize →
      memory' (after.toView.address [half, layer, block * blockSize + slot, coordinate] +
          (low : ℤ)) =
        memory (before.toView.address [half, layer, block * blockSize + slot, coordinate] +
          (low : ℤ))) :
    SameElements memory memory' before after := by
  refine ⟨shape, dtype, fun index inside low small => ?_⟩
  rw [dims] at inside
  obtain ⟨half, halfIn, layer, layerIn, token, tokenIn, coordinate, coordinateIn, rfl⟩ :=
    exists_of_inRange_four inside
  have blockIn := blocks.block_lt tokenIn
  have moved := same half layer (token / blockSize) (token % blockSize) coordinate low halfIn
    layerIn blockIn (Nat.mod_lt _ blocks.block) coordinateIn small
  rwa [Nat.div_add_mod'] at moved

theorem sameElements_of_payload {numBlocks : ℕ} {memory memory' : Memory} {before after : Tensor}
    (dims : before.shape = [numBlocks, numLayers, 2, blockSize, hiddenDim])
    (shape : after.shape = before.shape) (dtype : after.dtype = before.dtype)
    (same : ∀ half layer block slot coordinate low : ℕ, half < 2 → layer < numLayers →
      block < numBlocks → slot < blockSize → coordinate < hiddenDim → low < before.elementSize →
      memory' (after.toView.address [block, layer, half, slot, coordinate] + (low : ℤ)) =
        memory (before.toView.address [block, layer, half, slot, coordinate] + (low : ℤ))) :
    SameElements memory memory' before after := by
  refine ⟨shape, dtype, fun index inside low small => ?_⟩
  rw [dims] at inside
  obtain ⟨block, blockIn, layer, layerIn, half, halfIn, slot, slotIn, coordinate, coordinateIn,
    rfl⟩ := exists_of_inRange_five inside
  exact same half layer block slot coordinate low halfIn layerIn blockIn slotIn coordinateIn small

/-- **The bijection.** Every contiguous tensor of whole blocks is converted, with and
without a preallocated output; element `(half, layer, token, coordinate)` goes to
`(token / BS, layer, half, token % BS, coordinate)`; and converting a contiguous result
back restores the elements, in both orders of the two conversions. -/
theorem blockFirst_bijection (torch : TorchEmpty allocate)
    (blocks : WholeBlocks numLayers numTokens hiddenDim blockSize) :
    (∀ logical : Tensor, logical.shape = [2, numLayers, numTokens, hiddenDim] →
      logical.isContiguous = true → ∀ out : Option Tensor, (∀ tensor ∈ out, Preallocated
        [numTokens / blockSize, numLayers, 2, blockSize, hiddenDim] logical tensor) →
      ∃ physical copies,
        logicalToBlockFirst allocate logical blockSize out = .ok (physical, copies) ∧
        (∀ tensor ∈ out, physical = tensor) ∧
        (∀ memory half layer token coordinate low, half < 2 → layer < numLayers →
          token < numTokens → coordinate < hiddenDim → low < logical.elementSize →
          copied copies memory (physical.toView.address
              [token / blockSize, layer, half, token % blockSize, coordinate] + ((low : ℕ) : ℤ)) =
            memory (logical.toView.address [half, layer, token, coordinate] + (low : ℤ))) ∧
        ((∀ tensor ∈ out, tensor.isContiguous = true) → ∀ out' : Option Tensor,
          (∀ tensor ∈ out', Preallocated [2, numLayers, numTokens, hiddenDim] logical tensor) →
          ∃ back copies', blockFirstToLogical allocate physical out' = .ok (back, copies') ∧
            (∀ tensor ∈ out', back = tensor) ∧
            ∀ memory, SameElements memory (copied copies' (copied copies memory)) logical back)) ∧
    ∀ physical : Tensor,
      physical.shape = [numTokens / blockSize, numLayers, 2, blockSize, hiddenDim] →
      physical.isContiguous = true → ∀ out : Option Tensor,
      (∀ tensor ∈ out, Preallocated [2, numLayers, numTokens, hiddenDim] physical tensor) →
      ∃ logical copies, blockFirstToLogical allocate physical out = .ok (logical, copies) ∧
        (∀ tensor ∈ out, logical = tensor) ∧
        ((∀ tensor ∈ out, tensor.isContiguous = true) → ∀ out' : Option Tensor,
          (∀ tensor ∈ out', Preallocated
            [numTokens / blockSize, numLayers, 2, blockSize, hiddenDim] physical tensor) →
          ∃ back copies',
            logicalToBlockFirst allocate logical blockSize out' = .ok (back, copies') ∧
            (∀ tensor ∈ out', back = tensor) ∧
            ∀ memory, SameElements memory (copied copies' (copied copies memory)) physical back) := by
  constructor
  · intro logical dims contiguous out given
    obtain ⟨physical, copies, converted, fits, same, dense, moved⟩ :=
      logicalToBlockFirst_total torch blocks dims contiguous given
    refine ⟨physical, copies, converted, same, ?_, ?_⟩
    · intro memory half layer token coordinate low halfIn layerIn tokenIn coordinateIn small
      have blockIn := blocks.block_lt tokenIn
      have placed := moved memory memory half layer (token / blockSize) (token % blockSize)
        coordinate low halfIn layerIn blockIn (Nat.mod_lt _ blocks.block) coordinateIn small
      rwa [Nat.div_add_mod'] at placed
    · intro denseOut out' given'
      obtain ⟨back, copies', returned, fits', same', _, moved'⟩ :=
        blockFirstToLogical_total torch blocks fits.shape (dense denseOut)
          fun tensor member => (given' tensor member).of_like fits.dtype.symm fits.device.symm
      refine ⟨back, copies', returned, same', fun memory => ?_⟩
      refine sameElements_of_blocks blocks dims (fits'.shape.trans dims.symm)
        (fits'.dtype.trans fits.dtype) ?_
      intro half layer block slot coordinate low halfIn layerIn blockIn slotIn coordinateIn small
      have size : low < physical.elementSize :=
        small.trans_eq (congrArg DType.itemsize fits.dtype).symm
      exact (moved' _ _ half layer block slot coordinate low halfIn layerIn blockIn slotIn
        coordinateIn size).trans (moved _ _ half layer block slot coordinate low halfIn layerIn
          blockIn slotIn coordinateIn small)
  · intro physical dims contiguous out given
    obtain ⟨logical, copies, converted, fits, same, dense, moved⟩ :=
      blockFirstToLogical_total torch blocks dims contiguous given
    refine ⟨logical, copies, converted, same, ?_⟩
    intro denseOut out' given'
    obtain ⟨back, copies', returned, fits', same', _, moved'⟩ :=
      logicalToBlockFirst_total torch blocks fits.shape (dense denseOut)
        fun tensor member => (given' tensor member).of_like fits.dtype.symm fits.device.symm
    refine ⟨back, copies', returned, same', fun memory => ?_⟩
    refine sameElements_of_payload dims (fits'.shape.trans dims.symm)
      (fits'.dtype.trans fits.dtype) ?_
    intro half layer block slot coordinate low halfIn layerIn blockIn slotIn coordinateIn small
    have size : low < logical.elementSize :=
      small.trans_eq (congrArg DType.itemsize fits.dtype).symm
    exact (moved' _ _ half layer block slot coordinate low halfIn layerIn blockIn slotIn
      coordinateIn size).trans (moved _ _ half layer block slot coordinate low halfIn layerIn
        blockIn slotIn coordinateIn small)

end Conversion

/-! ### Small tensors -/

theorem length_denseStrides (dims : List ℕ) : (denseStrides dims).length = dims.length := by
  induction dims with
  | nil => rfl
  | cons dim dims ih => rw [denseStrides, List.length_cons, List.length_cons, ih]

theorem denseUpToUnits_denseStrides (dims : List ℕ) :
    denseUpToUnits dims (denseStrides dims) = true := by
  induction dims with
  | nil => rfl
  | cons dim dims ih => simp [denseUpToUnits, denseStrides, ih]

theorem denseStrides_inStorage {dims : List ℕ} (full : dims.prod ≠ 0) (itemsize : ℕ) :
    (0 + lastPosition dims (denseStrides dims) + 1) * itemsize ≤ dims.prod * itemsize := by
  have positive : ∀ size ∈ dims, 0 < size := by
    intro size member
    refine Nat.pos_of_ne_zero fun zero => full ?_
    exact List.prod_eq_zero (zero ▸ member)
  rw [Nat.zero_add, lastPosition_add_one positive (denseUpToUnits_denseStrides dims)]

/-- A dense tensor in a storage of its own. -/
def emptyTensor (dims : List ℕ) (dtype : DType) (device : Device) : Tensor where
  device := device
  dtype := dtype
  storageBase := 0
  storageNbytes := dims.prod * dtype.itemsize
  storageOffset := 0
  shape := dims
  stride := denseStrides dims
  ranked := length_denseStrides dims
  inStorage := fun full => denseStrides_inStorage full dtype.itemsize

theorem torchEmpty_emptyTensor : TorchEmpty emptyTensor where
  shape _ _ _ := rfl
  dtype _ _ _ := rfl
  device _ _ _ := rfl
  contiguous dims _ _ := by
    rw [Tensor.isContiguous]
    exact Bool.or_eq_true_iff.mpr (.inr (denseUpToUnits_denseStrides dims))

/-- Two layers of four tokens with three elements, in blocks of two tokens. -/
def smallChunk : Tensor := emptyTensor [2, 2, 4, 3] .float16 ⟨.cpu, none⟩

theorem blockFirst_bijection_smallChunk :
    ∃ physical copies, logicalToBlockFirst emptyTensor smallChunk 2 none = .ok (physical, copies) ∧
      ∃ back copies', blockFirstToLogical emptyTensor physical none = .ok (back, copies') ∧
        ∀ memory, SameElements memory (copied copies' (copied copies memory)) smallChunk back := by
  have blocks : WholeBlocks 2 4 3 2 := ⟨by decide, by decide, by decide, by decide, by decide⟩
  obtain ⟨physical, copies, converted, _, _, inverse⟩ :=
    (blockFirst_bijection torchEmpty_emptyTensor blocks).1 smallChunk rfl (by decide) none (by simp)
  obtain ⟨back, copies', returned, _, same⟩ := inverse (by simp) none (by simp)
  exact ⟨physical, copies, converted, back, copies', returned, same⟩

/-- A tensor of no tokens. -/
def noTokens : Tensor := emptyTensor [2, 1, 0, 1] .float16 ⟨.cpu, none⟩

/-- Zero tokens are whole blocks, and the conversion refuses them. -/
theorem not_bijection_noTokens :
    ¬ ∀ (logical : Tensor) (numLayers numTokens hiddenDim blockSize : ℕ),
      logical.shape = [2, numLayers, numTokens, hiddenDim] → blockSize ∣ numTokens →
      ∃ physical copies,
        logicalToBlockFirst emptyTensor logical blockSize none = .ok (physical, copies) ∧
        ∃ back copies', blockFirstToLogical emptyTensor physical none = .ok (back, copies') ∧
          ∀ memory, SameElements memory (copied copies' (copied copies memory)) logical back := by
  intro converts
  obtain ⟨physical, copies, converted, _⟩ := converts noTokens 1 0 1 1 rfl (by decide)
  have refused : ∃ error, logicalToBlockFirst emptyTensor noTokens 1 none = .error error :=
    ⟨_, rfl⟩
  obtain ⟨error, refused⟩ := refused
  cases refused.symm.trans converted

end LMCacheHcu.Storage
