import LMCacheHcu.Kernels.LayerGroups
import LMCacheHcu.Kernels.TransferRows

/-! # The transfers of groups of layers

The connector takes its format and its page sizes from the first layer and
transfers every group with them. The rows of a group are those of its own
tensors when their pages have the same places.
-/

namespace LMCacheHcu.Kernels

open RowMajor ByteCopy Storage

/-! ### The sizes of a layer -/

/-- The format of a layer's tensor by itself. -/
def layerFormat (tensor : Tensor) : Except PointerError GPUKVFormat :=
  discoverGpuKvFormat (.layers [tensor]) .vllm

/-- The formats of one tensor a layer that vLLM uses. -/
def GPUKVFormat.PerLayer (format : GPUKVFormat) : Prop :=
  format = .nlXTwoNbBsNhHs ∨ format = .nlXNbTwoBsNhHs ∨ format = .nlXNbBsHs

/-- The sizes in the shape of a layer's tensor. -/
def GPUKVFormat.dimsOf (format : GPUKVFormat) (numLayers : ℕ) (shape : List ℕ) : CacheDims :=
  match format with
  | .nlXTwoNbBsNhHs => ⟨numLayers, shape.getD 1 0, shape.getD 2 0, shape.getD 3 0, shape.getD 4 0⟩
  | .nlXNbTwoBsNhHs => ⟨numLayers, shape.getD 0 0, shape.getD 2 0, shape.getD 3 0, shape.getD 4 0⟩
  | _ => ⟨numLayers, shape.getD 0 0, shape.getD 1 0, 1, shape.getD 2 0⟩

@[simp] theorem GPUKVFormat.dimsOf_numLayers (format : GPUKVFormat) (numLayers : ℕ)
    (shape : List ℕ) : (format.dimsOf numLayers shape).numLayers = numLayers := by
  cases format <;> rfl

/-- What the discovery of a format tells about the shape. -/
structure LayerShape (tensor : Tensor) (format : GPUKVFormat) (numLayers : ℕ) : Prop where
  perLayer : format.PerLayer
  shape : tensor.shape = format.tensorShape (format.dimsOf numLayers tensor.shape)
  blocks : getNumBlocks tensor format = .ok (format.dimsOf numLayers tensor.shape).numBlocks
  slots : getBlockSize tensor format = .ok (format.dimsOf numLayers tensor.shape).blockSize
  hidden : ∀ (properties : LayerGroupProperties) (group : KVLayerGroupInfo),
    group.shape = tensor.shape →
    properties.hiddenDimSize group =
      .ok (format.rowElements (format.dimsOf numLayers tensor.shape))

theorem exists_five {shape : List ℕ} (count : shape.length = 5) :
    ∃ first second third fourth fifth, shape = [first, second, third, fourth, fifth] := by
  obtain ⟨first, rest, rfl⟩ := List.exists_cons_of_length_eq_add_one count
  obtain ⟨second, tail, rfl⟩ := List.exists_cons_of_length_eq_add_one (Nat.succ.inj count)
  obtain ⟨third, fourth, fifth, rfl⟩ :=
    List.length_eq_three.mp (Nat.succ.inj (Nat.succ.inj count))
  exact ⟨first, second, third, fourth, fifth, rfl⟩

theorem layerShape_of_format {tensor : Tensor} {format : GPUKVFormat}
    (found : layerFormat tensor = .ok format) (numLayers : ℕ) :
    LayerShape tensor format numLayers := by
  simp only [layerFormat, discoverGpuKvFormat, listDepthTensorDim, Checked.ok_bind] at found
  split at found
  · rename_i rank
    obtain ⟨first, second, third, heads, size, extents⟩ := exists_five rank
    have hidden (properties : LayerGroupProperties) (group : KVLayerGroupInfo)
        (same : group.shape = tensor.shape) :
        properties.hiddenDimSize group = .ok (heads * size) :=
      properties.hiddenDimSize_mha group first second third heads size (same.trans extents)
    simp only [Tensor.dim, extents, List.getD_cons_zero, List.getD_cons_succ] at found
    split at found
    · rename_i two
      obtain rfl := Except.ok.inj found
      refine ⟨.inl rfl, ?_, ?_, ?_, fun properties group same => ?_⟩
      · rw [extents, two]
        rfl
      · simp [getNumBlocks, Tensor.dim, GPUKVFormat.dimsOf]
      · simp [getBlockSize, Tensor.dim, GPUKVFormat.dimsOf]
      · rw [hidden properties group same, extents]
        simp [GPUKVFormat.rowElements, GPUKVFormat.rowShape, GPUKVFormat.dimsOf]
    · split at found
      · rename_i two
        obtain rfl := Except.ok.inj found
        refine ⟨.inr (.inl rfl), ?_, ?_, ?_, fun properties group same => ?_⟩
        · rw [extents, two]
          rfl
        · simp [getNumBlocks, Tensor.dim, GPUKVFormat.dimsOf]
        · simp [getBlockSize, Tensor.dim, GPUKVFormat.dimsOf]
        · rw [hidden properties group same, extents]
          simp [GPUKVFormat.rowElements, GPUKVFormat.rowShape, GPUKVFormat.dimsOf]
      · cases found
  · split at found
    · rename_i rank
      obtain ⟨first, second, size, extents⟩ := List.length_eq_three.mp rank
      obtain rfl := Except.ok.inj found
      refine ⟨.inr (.inr rfl), ?_, ?_, ?_, fun properties group same => ?_⟩
      · rw [extents]
        rfl
      · simp [getNumBlocks, Tensor.dim, GPUKVFormat.dimsOf]
      · simp [getBlockSize, Tensor.dim, GPUKVFormat.dimsOf]
      · rw [properties.hiddenDimSize_mla group first second size (same.trans extents), extents]
        simp [GPUKVFormat.rowElements, GPUKVFormat.rowShape, GPUKVFormat.dimsOf]
    · cases found

/-! ### Pages of other sizes -/

/-- The sizes of a launch for rows of a group: its pages are those of another layer. -/
def launchDims (pages : CacheDims) (numLayers rowElements : ℕ) : CacheDims :=
  ⟨numLayers, pages.numBlocks, pages.blockSize, 1, rowElements⟩

/-- The rows between the key and the value of a slot. -/
def GPUKVFormat.halfDistance (format : GPUKVFormat) (dims : CacheDims) : ℕ :=
  match format with
  | .nlXTwoNbBsNhHs => dims.pageBufferSize
  | .nlXNbTwoBsNhHs => dims.blockSize
  | _ => 0

/-- The rows of one layout are found with the format and the pages of another. -/
structure SamePages (format : GPUKVFormat) (pages : CacheDims) (own : GPUKVFormat)
    (dims : CacheDims) : Prop where
  halves : own.halves = format.halves
  distance : own.halfDistance dims = format.halfDistance pages
  slots : format = .nlXTwoNbBsNhHs → dims.pageBufferSize = pages.pageBufferSize

section Pages

variable {format own : GPUKVFormat} {pages dims : CacheDims}

theorem GPUKVFormat.PerLayer.handled (perLayer : format.PerLayer) :
    format ≠ .twoXNlXNbbsNhHs ∧ format ≠ .nbNlTwoBsNhHs ∧ format ≠ .nlXNbbsOneHs := by
  rcases perLayer with rfl | rfl | rfl <;> decide

theorem GPUKVFormat.PerLayer.rowElements_launchDims (perLayer : format.PerLayer)
    (pages : CacheDims) (numLayers rowElements : ℕ) :
    format.rowElements (launchDims pages numLayers rowElements) = rowElements := by
  rcases perLayer with rfl | rfl | rfl <;>
    simp [GPUKVFormat.rowElements, GPUKVFormat.rowShape, launchDims]

theorem GPUKVFormat.PerLayer.pointerRow_launchDims (perLayer : format.PerLayer)
    (pages : CacheDims) (numLayers rowElements kOrV slot : ℕ) :
    format.pointerRow (launchDims pages numLayers rowElements) kOrV slot =
      format.pointerRow pages kOrV slot := by
  rcases perLayer with rfl | rfl | rfl <;> rfl

theorem GPUKVFormat.PerLayer.halves_cases (perLayer : format.PerLayer) :
    format.halves = 2 ∨ format = .nlXNbBsHs := by
  rcases perLayer with rfl | rfl | rfl
  · exact .inl rfl
  · exact .inl rfl
  · exact .inr rfl

/-- The first value comes that far behind the first key. -/
theorem GPUKVFormat.PerLayer.pointerRow_value (perLayer : format.PerLayer)
    (two : format.halves = 2) (dims : CacheDims) :
    format.pointerRow dims 1 0 = format.halfDistance dims := by
  rcases perLayer with rfl | rfl | rfl
  · simp [pointerRow, halfDistance]
  · simp [pointerRow, halfDistance]
  · cases two

/-- The rows of the same pages are the same. -/
theorem SamePages.pointerRow_eq (same : SamePages format pages own dims)
    (perLayer : format.PerLayer) (ownLayer : own.PerLayer) {kOrV slot : ℕ}
    (slotIn : slot < dims.pageBufferSize) :
    format.pointerRow pages kOrV slot = own.pointerRow dims kOrV slot := by
  obtain ⟨halves, distance, slots⟩ := same
  rcases perLayer with rfl | rfl | rfl <;> rcases ownLayer with rfl | rfl | rfl <;>
    simp only [GPUKVFormat.halfDistance, GPUKVFormat.pointerRow] at distance ⊢
  · rw [distance]
  · -- The only block of the one layout is a half of the other.
    have single : slot < dims.blockSize := by
      rw [distance, ← slots rfl]
      exact slotIn
    rw [Nat.div_eq_of_lt single, Nat.mod_eq_of_lt single, ← distance]
    omega
  · cases halves
  · rw [← distance, Nat.div_eq_of_lt slotIn, Nat.mod_eq_of_lt slotIn]
    omega
  · rw [distance]
  · cases halves
  · cases halves
  · cases halves

/-- **When the rows are found.** -/
theorem samePages_iff (perLayer : format.PerLayer) (ownLayer : own.PerLayer)
    (someSlot : 0 < dims.pageBufferSize) :
    SamePages format pages own dims ↔ own.halves = format.halves ∧
      ∀ kOrV < own.halves, ∀ slot < dims.pageBufferSize,
        format.pointerRow pages kOrV slot = own.pointerRow dims kOrV slot := by
  constructor
  · exact fun same => ⟨same.halves, fun kOrV _ slot slotIn =>
      same.pointerRow_eq perLayer ownLayer slotIn⟩
  rintro ⟨halves, rows⟩
  have distance : own.halfDistance dims = format.halfDistance pages := by
    rcases perLayer.halves_cases with two | rfl
    · have both : own.halves = 2 := halves.trans two
      have value := rows 1 (by omega) 0 someSlot
      rw [perLayer.pointerRow_value two, ownLayer.pointerRow_value both] at value
      exact value.symm
    · rcases ownLayer.halves_cases with two | rfl
      · rw [two] at halves
        cases halves
      · rfl
  refine ⟨halves, distance, ?_⟩
  rintro rfl
  rcases ownLayer with rfl | rfl | rfl
  · exact distance
  · simp only [GPUKVFormat.halfDistance, GPUKVFormat.pointerRow] at distance rows
    have slots : 0 < dims.blockSize := Nat.pos_of_mul_pos_left someSlot
    have blocks : 0 < dims.numBlocks := Nat.pos_of_mul_pos_right someSlot
    have least : dims.blockSize ≤ dims.pageBufferSize := Nat.le_mul_of_pos_left _ blocks
    -- A second block would not be behind the first one.
    have most : dims.pageBufferSize ≤ dims.blockSize := by
      by_contra second
      have row := rows 0 (by decide) dims.blockSize (Nat.lt_of_not_le second)
      rw [Nat.div_self slots, Nat.mod_self] at row
      omega
    omega
  · cases halves

/-- **When the steps fit.** The products of a format are those of the group's
own number of slots. -/
theorem SamePages.pagesFit_iff (same : SamePages format pages own dims)
    (perLayer : format.PerLayer) (ownLayer : own.PerLayer) (scalarsPerToken : ℕ) :
    (∀ kOrV slot scalar, kOrV < format.halves → slot < dims.pageBufferSize →
        scalar < scalarsPerToken → format.StepsFit pages kOrV slot scalar scalarsPerToken) ↔
      format.PagesFit dims scalarsPerToken := by
  obtain ⟨halves, distance, slots⟩ := same
  rcases perLayer with rfl | rfl | rfl
  · have fits := GPUKVFormat.pagesFit_iff .nlXTwoNbBsNhHs pages scalarsPerToken
    simp only [GPUKVFormat.PagesFit, slots rfl] at fits ⊢
    exact fits
  · -- The slots of the group in blocks of the other layout.
    have blocks : pages.blockSize ∣ dims.pageBufferSize := by
      rcases ownLayer with rfl | rfl | rfl
      · exact dvd_of_eq distance.symm
      · have equal : dims.blockSize = pages.blockSize := distance
        rw [← equal]
        exact dvd_mul_left _ _
      · cases halves
    have count : CacheDims.pageBufferSize
        { pages with numBlocks := dims.pageBufferSize / pages.blockSize } =
          dims.pageBufferSize := Nat.div_mul_cancel blocks
    have fits := GPUKVFormat.pagesFit_iff .nlXNbTwoBsNhHs
      { pages with numBlocks := dims.pageBufferSize / pages.blockSize } scalarsPerToken
    simp only [GPUKVFormat.PagesFit, count] at fits ⊢
    exact fits
  · exact ⟨fun _ => trivial, fun _ _ _ _ _ _ _ => trivial⟩

end Pages

/-! ### The transfer of a group -/

/-- The row of a slot in its tensor. -/
def ownRow (tensors : List Tensor) (format : GPUKVFormat) (dims : CacheDims)
    (layer kOrV slot : ℕ) : ℤ :=
  ((KVCaches.layers tensors).elementAddress (.fused format) dims ⟨layer, kOrV, slot, 0⟩).getD 0

/-- The transfers of a memory region and a group join exactly the bytes of the
region's rows and the rows of the slots in the group's own tensors. -/
def MovesOwnRows (pointers : GroupPointers) (table : List ℤ) (region : Tensor)
    (tensors : List Tensor) (format : GPUKVFormat) (dims : CacheDims) (dtype : DType)
    (numTokens : ℕ) : Prop :=
  ∀ slots : List ℤ, slots.length = numTokens → (∀ slot ∈ slots, slot < dims.pageBufferSize) →
    ∀ direction skipPrefixNTokens, ∃ copies,
      multiLayerCopies region table slots pointers.pageBufferSize direction pointers.gpuKvFormat
        pointers.blockSize skipPrefixNTokens = some copies ∧
      JoinsRows direction copies format.halves dims.numLayers slots skipPrefixNTokens
        (format.rowElements dims * dtype.itemsize)
        (fun layer kOrV token => rowMajorAddress region [kOrV, layer, token, 0])
        (ownRow tensors format dims)

/-- The sizes of a group's launch fit. Where it has rows, its pages are those of
the launch, and the 32-bit products of its rows fit. -/
structure GroupFits (format : GPUKVFormat) (pages : CacheDims) (own : GPUKVFormat)
    (dims : CacheDims) (dtype : DType) (numTokens : ℕ) : Prop where
  sizes : format.SizesFit (launchDims pages dims.numLayers (own.rowElements dims)) dtype numTokens
  rows : 0 < numTokens → 0 < dims.pageBufferSize → 0 < own.rowElements dims →
    SamePages format pages own dims ∧
      own.halves * dims.numLayers * numTokens *
        wordsPerRow (own.rowElements dims) dtype.itemsize ≤ 2147483648 ∧
      format.PagesFit dims (wordsPerRow (own.rowElements dims) dtype.itemsize)

/-- Copies that join the rows of a memory object with two families of rows. -/
theorem JoinsRows.row_eq {copies : List Copy} {halves halves' layers rowBytes : ℕ}
    {slots : List ℤ} {objectRow cacheRow cacheRow' : ℕ → ℕ → ℕ → ℤ} {base : ℤ}
    (rows : JoinsRows .h2d copies halves layers slots 0 rowBytes objectRow cacheRow)
    (others : JoinsRows .h2d copies halves' layers slots 0 rowBytes objectRow cacheRow')
    (place : ∀ layer kOrV token, objectRow layer kOrV token =
      base + ((((kOrV * layers + layer) * slots.length + token) * rowBytes : ℕ) : ℤ))
    (someByte : 0 < rowBytes) {kOrV layer token slot : ℕ} (half : kOrV < halves)
    (layerIn : layer < layers) (mapped : Mapped slots 0 token slot) :
    kOrV < halves' ∧ cacheRow layer kOrV slot = cacheRow' layer kOrV slot := by
  obtain ⟨kOrV', layer', token', slot', half', layerIn', mapped', byte, byteIn, origin, address⟩ :=
    (others _ _).mp ((rows (objectRow layer kOrV token + ((0 : ℕ) : ℤ))
      (cacheRow layer kOrV slot + ((0 : ℕ) : ℤ))).mpr
        ⟨kOrV, layer, token, slot, half, layerIn, mapped, 0, someByte, rfl, rfl⟩)
  rw [place, place] at origin
  have digits : ((kOrV * layers + layer) * slots.length + token) * rowBytes + 0 =
      ((kOrV' * layers + layer') * slots.length + token') * rowBytes + byte := by omega
  obtain ⟨rfl, rfl, rfl, rfl⟩ := objectPlace_inj layerIn mapped.token_lt someByte layerIn'
    mapped'.token_lt byteIn digits
  obtain rfl : slot = slot' := Nat.cast_inj.mp (Option.some.inj (mapped.2.symm.trans mapped'.2))
  exact ⟨half', by omega⟩

theorem GPUKVFormat.PerLayer.stepsFit_launchDims {format : GPUKVFormat}
    (perLayer : format.PerLayer) (pages : CacheDims)
    (numLayers rowElements kOrV slot scalar scalarsPerToken : ℕ) :
    format.StepsFit (launchDims pages numLayers rowElements) kOrV slot scalar scalarsPerToken ↔
      format.StepsFit pages kOrV slot scalar scalarsPerToken := by
  rcases perLayer with rfl | rfl | rfl <;> exact Iff.rfl

/-- A launch with the pages of one layer for a group with its own tensors. -/
structure GroupLaunch (pointers : GroupPointers) (pages : CacheDims) (region : Tensor)
    (tensors : List Tensor) (own : GPUKVFormat) (dims : CacheDims) (dtype : DType)
    (numTokens : ℕ) : Prop where
  perLayer : pointers.gpuKvFormat.PerLayer
  ownLayer : own.PerLayer
  blocks : pointers.numBlocks = pages.numBlocks
  size : pointers.blockSize = pages.blockSize
  someLayer : 0 < dims.numLayers
  inLayout : (KVCaches.layers tensors).InLayout (.fused own) dims dtype
  inside : ∀ tensor ∈ tensors,
    tensor.dataPtr + tensor.numel * tensor.elementSize ≤ 9223372036854775808
  extents : region.shape = [own.halves, dims.numLayers, numTokens, own.rowElements dims]
  elements : region.dtype = dtype

namespace GroupLaunch

variable {pointers : GroupPointers} {pages : CacheDims} {region : Tensor} {tensors : List Tensor}
  {own : GPUKVFormat} {dims : CacheDims} {dtype : DType} {numTokens : ℕ}
  (launch : GroupLaunch pointers pages region tensors own dims dtype numTokens)
include launch

/-- The rows of a group's tensors, behind the pointers of its table. -/
theorem ownRow_spec {layer kOrV slot : ℕ} (layerIn : layer < dims.numLayers)
    (half : kOrV < own.halves) (slotIn : slot < dims.pageBufferSize) {element : ℕ}
    (elementIn : element < own.rowElements dims) :
    ownRow tensors own dims layer kOrV slot =
        (tensors.map fun tensor => (tensor.dataPtr : ℤ)).getD layer 0 +
          ((own.pointerRow dims kOrV slot * (own.rowElements dims * dtype.itemsize) : ℕ) : ℤ) ∧
      own.pointerRow dims kOrV slot * own.rowElements dims + element < 9223372036854775808 := by
  have nonempty : tensors ≠ [] := by
    rintro rfl
    exact absurd (launch.inLayout.1.symm ▸ layerIn) (Nat.not_lt_zero _)
  obtain ⟨first, listed⟩ := List.exists_mem_of_ne_nil tensors nonempty
  have tables := FusedTable.ofLayers listed launch.inLayout rfl rfl
  have firstIn : (⟨layer, kOrV, slot, 0⟩ : KVCoordinate).InCache (.fused own) dims :=
    ⟨layerIn, half, slotIn, Nat.zero_lt_of_lt elementIn⟩
  have inCache : (⟨layer, kOrV, slot, element⟩ : KVCoordinate).InCache (.fused own) dims :=
    ⟨layerIn, half, slotIn, elementIn⟩
  have below := tables.element_lt launch.inside inCache
  have row := tables.elementAddress_eq firstIn
  dsimp only at below row
  rw [Nat.add_zero, Nat.mul_assoc] at row
  refine ⟨?_, below⟩
  rw [ownRow, row, Option.getD_some]

theorem regionRow_eq (layer kOrV token : ℕ) :
    rowMajorAddress region [kOrV, layer, token, 0] = (region.dataPtr : ℤ) +
      ((((kOrV * dims.numLayers + layer) * numTokens + token) *
        (own.rowElements dims * dtype.itemsize) : ℕ) : ℤ) := by
  rw [rowMajorAddress, launch.extents, Tensor.elementSize, launch.elements]
  simp only [offset_cons, offset_nil, List.prod_cons, List.prod_nil]
  push_cast
  ring

/-- What the launch for a group needs, and the rows that it joins. -/
theorem copies_iff {slots : List ℤ} (count : slots.length = numTokens)
    (direction : TransferDirection) (skipPrefixNTokens : ℕ) (table : List ℤ) :
    ((∃ copies, multiLayerCopies region table slots pointers.pageBufferSize direction
        pointers.gpuKvFormat pointers.blockSize skipPrefixNTokens = some copies) ↔
      pointers.gpuKvFormat.SizesFit (launchDims pages dims.numLayers (own.rowElements dims)) dtype
          numTokens ∧
        pointers.gpuKvFormat.MappedFit (launchDims pages dims.numLayers (own.rowElements dims))
          dtype slots skipPrefixNTokens) ∧
    ∀ copies, multiLayerCopies region table slots pointers.pageBufferSize direction
        pointers.gpuKvFormat pointers.blockSize skipPrefixNTokens = some copies →
      JoinsRows direction copies pointers.gpuKvFormat.halves dims.numLayers slots
        skipPrefixNTokens (own.rowElements dims * dtype.itemsize)
        (fun layer kOrV token => rowMajorAddress region [kOrV, layer, token, 0])
        (fun layer kOrV slot => table.getD layer 0 +
          ((pointers.gpuKvFormat.pointerRow pages kOrV slot *
            (own.rowElements dims * dtype.itemsize) : ℕ) : ℤ)) := by
  subst count
  set launched := launchDims pages dims.numLayers (own.rowElements dims) with launchedEq
  have elements : pointers.gpuKvFormat.rowElements launched = own.rowElements dims :=
    launch.perLayer.rowElements_launchDims pages dims.numLayers (own.rowElements dims)
  have pageSlots : pointers.pageBufferSize = launched.pageBufferSize := by
    rw [GroupPointers.pageBufferSize, launch.blocks, launch.size]
    rfl
  have passed : pointers.blockSize = pointers.gpuKvFormat.passedBlockSize launched := by
    rw [GPUKVFormat.passedBlockSize, if_neg launch.perLayer.handled.2.2, launch.size]
    rfl
  have shape : region.shape =
      [own.halves, launched.numLayers, slots.length, pointers.gpuKvFormat.rowElements launched] := by
    rw [elements]
    exact launch.extents
  obtain ⟨launches, joins⟩ := multiLayerCopies_iff launch.perLayer.handled.1 shape
    launch.elements table direction skipPrefixNTokens
  rw [← pageSlots, ← passed] at launches joins
  refine ⟨launches, fun copies copied => ?_⟩
  have rows := joins copies copied
  rw [elements] at rows
  simp only [launch.perLayer.pointerRow_launchDims, launchedEq] at rows
  simp only [launch.regionRow_eq]
  exact rows

/-- A transfer of all tokens to one slot shows where the rows of the slot are. -/
theorem rows_of_moves (moves : MovesOwnRows pointers
      (tensors.map fun tensor => (tensor.dataPtr : ℤ)) region tensors own dims dtype numTokens)
    (someToken : 0 < numTokens) (someElement : 0 < own.rowElements dims) {slot : ℕ}
    (slotIn : slot < dims.pageBufferSize) :
    pointers.gpuKvFormat.MappedFit (launchDims pages dims.numLayers (own.rowElements dims)) dtype
        (List.replicate numTokens (slot : ℤ)) 0 ∧
      own.halves = pointers.gpuKvFormat.halves ∧
      ∀ kOrV < own.halves,
        pointers.gpuKvFormat.pointerRow pages kOrV slot = own.pointerRow dims kOrV slot := by
  have count : (List.replicate numTokens (slot : ℤ)).length = numTokens := List.length_replicate
  have someByte : 0 < own.rowElements dims * dtype.itemsize :=
    Nat.mul_pos someElement dtype.itemsize_pos
  obtain ⟨copies, copied, joins⟩ := moves (List.replicate numTokens (slot : ℤ)) count
    (fun other member => by rw [List.eq_of_mem_replicate member]; exact_mod_cast slotIn) .h2d 0
  obtain ⟨launches, launched⟩ := launch.copies_iff count .h2d 0
    (tensors.map fun tensor => (tensor.dataPtr : ℤ))
  have rows := launched copies copied
  have mapped : Mapped (List.replicate numTokens (slot : ℤ)) 0 0 slot :=
    ⟨Nat.le_refl _, by rw [List.getElem?_replicate, if_pos someToken]⟩
  have place (layer kOrV token : ℕ) :
      rowMajorAddress region [kOrV, layer, token, 0] = (region.dataPtr : ℤ) +
        ((((kOrV * dims.numLayers + layer) * (List.replicate numTokens (slot : ℤ)).length +
          token) * (own.rowElements dims * dtype.itemsize) : ℕ) : ℤ) := by
    rw [count]
    exact launch.regionRow_eq layer kOrV token
  refine ⟨(launches.mp ⟨copies, copied⟩).2, ?_, fun kOrV half => ?_⟩
  · refine Nat.le_antisymm (le_of_forall_lt fun kOrV half => ?_)
      (le_of_forall_lt fun kOrV half => ?_)
    · exact (joins.row_eq rows place someByte half launch.someLayer mapped).1
    · exact (rows.row_eq joins place someByte half launch.someLayer mapped).1
  · have row := (joins.row_eq rows place someByte half launch.someLayer mapped).2
    rw [(launch.ownRow_spec launch.someLayer half slotIn someElement).1] at row
    have places : own.pointerRow dims kOrV slot * (own.rowElements dims * dtype.itemsize) =
        pointers.gpuKvFormat.pointerRow pages kOrV slot *
          (own.rowElements dims * dtype.itemsize) := by omega
    exact (Nat.eq_of_mul_eq_mul_right someByte places).symm

theorem fits_of_moves (moves : MovesOwnRows pointers
      (tensors.map fun tensor => (tensor.dataPtr : ℤ)) region tensors own dims dtype numTokens) :
    GroupFits pointers.gpuKvFormat pages own dims dtype numTokens := by
  constructor
  · have count : (List.replicate numTokens (-1 : ℤ)).length = numTokens := List.length_replicate
    obtain ⟨copies, copied, _⟩ := moves (List.replicate numTokens (-1)) count
      (fun slot member => by rw [List.eq_of_mem_replicate member]; omega) .h2d 0
    exact ((launch.copies_iff count .h2d 0 _).1.mp ⟨copies, copied⟩).1
  · intro someToken someSlot someElement
    have chosen {slot : ℕ} (slotIn : slot < dims.pageBufferSize) :=
      launch.rows_of_moves moves someToken someElement slotIn
    have halves := (chosen someSlot).2.1
    have same : SamePages pointers.gpuKvFormat pages own dims :=
      (samePages_iff launch.perLayer launch.ownLayer someSlot).mpr
        ⟨halves, fun kOrV half slot slotIn => (chosen slotIn).2.2 kOrV half⟩
    have elements := launch.perLayer.rowElements_launchDims pages dims.numLayers
      (own.rowElements dims)
    have mapped {slot token : ℕ} (tokenIn : token < numTokens) :
        Mapped (List.replicate numTokens (slot : ℤ)) 0 token slot :=
      ⟨Nat.zero_le _, by rw [List.getElem?_replicate, if_pos tokenIn]⟩
    refine ⟨same, ?_, ?_⟩
    · refine objectWords_fit_iff.mp fun kOrV layer token word half layerIn tokenIn wordIn => ?_
      have fit := ((chosen someSlot).1 kOrV layer token 0 word (halves ▸ half) layerIn
        (mapped tokenIn) (by rw [elements]; exact wordIn)).object
      rw [elements, List.length_replicate] at fit
      exact fit
    · refine (same.pagesFit_iff launch.perLayer launch.ownLayer _).mp
        fun kOrV slot word half slotIn wordIn => ?_
      have fit := ((chosen slotIn).1 kOrV 0 0 slot word half launch.someLayer
        (mapped someToken) (by rw [elements]; exact wordIn)).steps
      rw [elements, launch.perLayer.stepsFit_launchDims] at fit
      exact fit

theorem moves_of_fits (fits : GroupFits pointers.gpuKvFormat pages own dims dtype numTokens) :
    MovesOwnRows pointers (tensors.map fun tensor => (tensor.dataPtr : ℤ)) region tensors own dims
      dtype numTokens := by
  intro slots count slotsIn direction skipPrefixNTokens
  have elements := launch.perLayer.rowElements_launchDims pages dims.numLayers
    (own.rowElements dims)
  obtain ⟨launches, joins⟩ := launch.copies_iff count direction skipPrefixNTokens
    (tensors.map fun tensor => (tensor.dataPtr : ℤ))
  have slot_lt {token slot : ℕ} (mapped : Mapped slots skipPrefixNTokens token slot) :
      slot < dims.pageBufferSize := by
    exact_mod_cast slotsIn slot (List.mem_of_getElem? mapped.2)
  have fitting {token slot : ℕ} (mapped : Mapped slots skipPrefixNTokens token slot) :=
    fits.rows (count ▸ Nat.zero_lt_of_lt mapped.token_lt) (Nat.zero_lt_of_lt (slot_lt mapped))
  have copied : ∃ copies, multiLayerCopies region (tensors.map fun tensor => (tensor.dataPtr : ℤ))
      slots pointers.pageBufferSize direction pointers.gpuKvFormat pointers.blockSize
        skipPrefixNTokens = some copies := by
    refine launches.mpr ⟨fits.sizes, fun kOrV layer token slot word half layerIn mapped wordIn => ?_⟩
    rw [elements] at wordIn ⊢
    have few : wordsPerRow (own.rowElements dims) dtype.itemsize ≤ own.rowElements dims :=
      Nat.div_le_self _ _
    obtain ⟨same, objects, steps⟩ := fitting mapped (Nat.zero_lt_of_lt (wordIn.trans_le few))
    have ownHalf : kOrV < own.halves := same.halves ▸ half
    refine ⟨?_, ?_, ?_⟩
    · rw [launch.perLayer.stepsFit_launchDims]
      exact (same.pagesFit_iff launch.perLayer launch.ownLayer _).mpr steps kOrV slot word half
        (slot_lt mapped) wordIn
    · have below := (launch.ownRow_spec layerIn ownHalf (slot_lt mapped)
        (wordIn.trans_le few)).2
      have rows := Nat.mul_le_mul_left (own.pointerRow dims kOrV slot) few
      rw [launch.perLayer.pointerRow_launchDims,
        same.pointerRow_eq launch.perLayer launch.ownLayer (slot_lt mapped)]
      omega
    · have object := objectWords_fit_iff.mpr objects kOrV layer token word ownHalf layerIn
        (count ▸ mapped.token_lt) wordIn
      rw [count]
      exact object
  obtain ⟨copies, made⟩ := copied
  refine ⟨copies, made, fun origin address => ?_⟩
  rw [joins copies made origin address]
  have some_element {byte : ℕ} (byteIn : byte < own.rowElements dims * dtype.itemsize) :
      0 < own.rowElements dims := Nat.pos_of_mul_pos_right (Nat.zero_lt_of_lt byteIn)
  have rowEq {kOrV layer token slot byte : ℕ} (half : kOrV < own.halves)
      (layerIn : layer < dims.numLayers) (mapped : Mapped slots skipPrefixNTokens token slot)
      (byteIn : byte < own.rowElements dims * dtype.itemsize) :
      ownRow tensors own dims layer kOrV slot =
        (tensors.map fun tensor => (tensor.dataPtr : ℤ)).getD layer 0 +
          ((pointers.gpuKvFormat.pointerRow pages kOrV slot *
            (own.rowElements dims * dtype.itemsize) : ℕ) : ℤ) := by
    rw [(launch.ownRow_spec layerIn half (slot_lt mapped) (some_element byteIn)).1,
      (fitting mapped (some_element byteIn)).1.pointerRow_eq launch.perLayer launch.ownLayer
        (slot_lt mapped)]
  constructor
  · rintro ⟨kOrV, layer, token, slot, half, layerIn, mapped, byte, byteIn, joined⟩
    have ownHalf : kOrV < own.halves := (fitting mapped (some_element byteIn)).1.halves ▸ half
    refine ⟨kOrV, layer, token, slot, ownHalf, layerIn, mapped, byte, byteIn, ?_⟩
    rwa [rowEq ownHalf layerIn mapped byteIn]
  · rintro ⟨kOrV, layer, token, slot, ownHalf, layerIn, mapped, byte, byteIn, joined⟩
    have half : kOrV < pointers.gpuKvFormat.halves :=
      (fitting mapped (some_element byteIn)).1.halves ▸ ownHalf
    refine ⟨kOrV, layer, token, slot, half, layerIn, mapped, byte, byteIn, ?_⟩
    rwa [rowEq ownHalf layerIn mapped byteIn] at joined

/-- **The transfer of a group.** It moves the group's own rows exactly when its
sizes and rows fit the pages of the launch. -/
theorem movesOwnRows_iff :
    MovesOwnRows pointers (tensors.map fun tensor => (tensor.dataPtr : ℤ)) region tensors own dims
        dtype numTokens ↔
      GroupFits pointers.gpuKvFormat pages own dims dtype numTokens :=
  ⟨launch.fits_of_moves, launch.moves_of_fits⟩

end GroupLaunch

end LMCacheHcu.Kernels
