import LMCacheHcu.Kernels.Addressing
import LMCacheHcu.Kernels.ByteMoves

/-! # The rows that a transfer moves

One chunk of a per-layer cache with separate K and V rows, and of the same cache
with split key and value tensors. The multi-layer kernel chooses its copy word
by the size of a row; the unilateral kernel always copies words of eight bytes,
and moves the same rows when these are made of such words.
-/

namespace LMCacheHcu.Kernels

open RowMajor ByteCopy Storage

/-- The offset of a word in a key or value tensor. -/
theorem pageBufferOffsetUnilateral_eq (slot : ℕ) {word words : ℕ} (wordIn : word < words)
    (result : ℤ) :
    pageBufferOffsetUnilateral slot word words = some result ↔
      slot * words + word < 2147483648 ∧ result = ((slot * words + word : ℕ) : ℤ) := by
  have bySlots := Nat.le_mul_of_pos_right slot (Nat.zero_lt_of_lt wordIn)
  have general := cResult_eq [slot, slot * words, slot * words + word] []
    (slot * words + word) result
  have larger : (∀ step ∈ [slot, slot * words, slot * words + word], step < 2147483648) ↔
      slot * words + word < 2147483648 := by
    simp only [List.forall_mem_cons, List.not_mem_nil, false_implies, implies_true, and_true]
    omega
  simp only [larger, List.not_mem_nil, false_implies, implies_true, true_and] at general
  rw [← general]
  simp only [pageBufferOffsetUnilateral, List.map_cons, List.map_nil, Nat.cast_mul, Nat.cast_add]

/-! ### A row of the multi-layer kernel -/

/-- The words of a row fill it. -/
theorem wordsPerRow_mul_copyWord (rowElements : ℕ) {dtype : DType} (small : dtype.itemsize ≤ 8) :
    wordsPerRow rowElements dtype.itemsize * copyWord (rowElements * dtype.itemsize) =
      rowElements * dtype.itemsize := by
  obtain ⟨_, word, row⟩ := copyWord_spec rowElements small
  calc wordsPerRow rowElements dtype.itemsize * copyWord (rowElements * dtype.itemsize)
      = wordsPerRow rowElements dtype.itemsize * (copyWord (rowElements * dtype.itemsize) /
          dtype.itemsize * dtype.itemsize) := by rw [word]
    _ = wordsPerRow rowElements dtype.itemsize * (copyWord (rowElements * dtype.itemsize) /
          dtype.itemsize) * dtype.itemsize := (Nat.mul_assoc ..).symm
    _ = rowElements * dtype.itemsize := by rw [row]

/-- The computations of a word stay in their types: the steps of its offset in the
paged cache, and its places there and in the memory object. -/
structure GPUKVFormat.WordFits (format : GPUKVFormat) (dims : CacheDims) (numTokens words : ℕ)
    (layer kOrV token slot word : ℕ) : Prop where
  steps : format.StepsFit dims kOrV slot word words
  cache : format.pointerRow dims kOrV slot * words + word < 9223372036854775808
  object : ((kOrV * dims.numLayers + layer) * numTokens + token) * words + word < 2147483648

/-- **A row of the kernel.** It is copied word by word, when every word fits. -/
theorem GPUKVFormat.rowCopies_iff {format : GPUKVFormat} {dims : CacheDims} {dtype : DType}
    {numTokens : ℕ} (handled : format ≠ .twoXNlXNbbsNhHs) (small : dtype.itemsize ≤ 8)
    {layer kOrV token slot : ℕ} (tokenIn : token < numTokens) (table : List ℤ) (keyValue : ℤ)
    (direction : TransferDirection) (copies : List Copy) :
    (format.launchFor dims dtype numTokens).rowCopies table keyValue direction kOrV layer token
        slot = some copies ↔
      (∀ word < wordsPerRow (format.rowElements dims) dtype.itemsize,
        format.WordFits dims numTokens (wordsPerRow (format.rowElements dims) dtype.itemsize)
          layer kOrV token slot word) ∧
      copies = (List.range (wordsPerRow (format.rowElements dims) dtype.itemsize)).map fun word =>
        direction.copy
          (keyValue + ((((kOrV * dims.numLayers + layer) * numTokens + token) *
              (format.rowElements dims * dtype.itemsize) : ℕ) : ℤ) +
            ((word * copyWord (format.rowElements dims * dtype.itemsize) : ℕ) : ℤ))
          (table.getD layer 0 + ((format.pointerRow dims kOrV slot *
              (format.rowElements dims * dtype.itemsize) : ℕ) : ℤ) +
            ((word * copyWord (format.rowElements dims * dtype.itemsize) : ℕ) : ℤ))
          (copyWord (format.rowElements dims * dtype.itemsize)) := by
  have widths := wordsPerRow_mul_copyWord (format.rowElements dims) small
  set rowBytes := format.rowElements dims * dtype.itemsize with rowBytesEq
  set words := wordsPerRow (format.rowElements dims) dtype.itemsize with wordsEq
  refine Checked.mapM_range_iff fun word wordIn copy => ?_
  change word < words at wordIn
  have objects (offset : ℤ) :
      keyValueOffset kOrV layer token word words numTokens dims.numLayers = some offset ↔
        ((kOrV * dims.numLayers + layer) * numTokens + token) * words + word < 2147483648 ∧
          offset = ((((kOrV * dims.numLayers + layer) * numTokens + token) * words + word : ℕ) :
            ℤ) :=
    keyValueOffset_eq (Nat.zero_lt_of_lt tokenIn) (Nat.zero_lt_of_lt wordIn) offset
  have caches := pageBufferOffset_eq handled dims kOrV slot wordIn
  have address (base : ℤ) (row : ℕ) :
      base + ((row * words + word : ℕ) : ℤ) * (copyWord rowBytes : ℕ) =
        base + ((row * rowBytes : ℕ) : ℤ) + ((word * copyWord rowBytes : ℕ) : ℤ) := by
    have whole : row * words * copyWord rowBytes = row * rowBytes := by
      rw [Nat.mul_assoc, widths]
    rw [← whole]
    push_cast
    ring
  simp only [GPUKVFormat.launchFor, ← wordsEq, ← rowBytesEq, Option.bind_eq_bind,
    Option.bind_eq_some_iff, objects, caches, Option.pure_def, Option.some.injEq]
  constructor
  · rintro ⟨_, ⟨object, rfl⟩, _, ⟨steps, cache, rfl⟩, rfl⟩
    exact ⟨⟨steps, cache, object⟩, by rw [address, address]⟩
  · rintro ⟨⟨steps, cache, object⟩, rfl⟩
    exact ⟨_, ⟨object, rfl⟩, _, ⟨steps, cache, rfl⟩, by rw [address, address]⟩

/-- A tensor that lies densely in addressable memory. -/
structure DenseTensor (tensor : Tensor) (shape : List ℕ) (dtype : DType) : Prop where
  extents : tensor.shape = shape
  strides : tensor.stride = denseStrides shape
  elements : tensor.dtype = dtype
  addressable : tensor.dataPtr + tensor.numel * tensor.elementSize ≤ 9223372036854775808

/-- The copies join exactly the bytes of the rows of the mapped tokens. -/
def JoinsRows (direction : TransferDirection) (copies : List Copy) (halves layers : ℕ)
    (slots : List ℤ) (skipPrefixNTokens rowBytes : ℕ) (objectRow cacheRow : ℕ → ℕ → ℕ → ℤ) :
    Prop :=
  ∀ origin address, Moves copies origin address ↔
    ∃ kOrV layer token slot : ℕ, kOrV < halves ∧ layer < layers ∧
      Mapped slots skipPrefixNTokens token slot ∧ ∃ byte < rowBytes,
        direction.Joins (objectRow layer kOrV token + (byte : ℤ))
          (cacheRow layer kOrV slot + (byte : ℤ)) origin address

/-- The bytes of a memory object have the digits of their row. -/
theorem objectPlace_inj {layers numTokens rowBytes kOrV layer token byte kOrV' layer' token' byte' : ℕ}
    (layerIn : layer < layers) (tokenIn : token < numTokens) (byteIn : byte < rowBytes)
    (layerIn' : layer' < layers) (tokenIn' : token' < numTokens) (byteIn' : byte' < rowBytes)
    (same : ((kOrV * layers + layer) * numTokens + token) * rowBytes + byte =
      ((kOrV' * layers + layer') * numTokens + token') * rowBytes + byte') :
    kOrV = kOrV' ∧ layer = layer' ∧ token = token' ∧ byte = byte' := by
  obtain ⟨rows, bytes⟩ := digit_inj byteIn byteIn' same
  obtain ⟨heads, tokens⟩ := digit_inj tokenIn tokenIn' rows
  obtain ⟨halves, layers⟩ := digit_inj layerIn layerIn' heads
  exact ⟨halves, layers, tokens, bytes⟩

/-- A launch narrows sizes that are `int`s, and its words have whole elements. -/
structure GPUKVFormat.SizesFit (format : GPUKVFormat) (dims : CacheDims) (dtype : DType)
    (numTokens : ℕ) : Prop where
  element : dtype.itemsize ≤ 8
  sizes : ∀ size ∈ [dims.numLayers, numTokens, format.rowElements dims,
    format.rowElements dims * dtype.itemsize, dims.pageBufferSize, format.passedBlockSize dims],
    size < 2147483648

/-- The words of the mapped tokens fit. -/
def GPUKVFormat.MappedFit (format : GPUKVFormat) (dims : CacheDims) (dtype : DType)
    (slots : List ℤ) (skipPrefixNTokens : ℕ) : Prop :=
  ∀ kOrV layer token slot word, kOrV < format.halves → layer < dims.numLayers →
    Mapped slots skipPrefixNTokens token slot →
    word < wordsPerRow (format.rowElements dims) dtype.itemsize →
    format.WordFits dims slots.length (wordsPerRow (format.rowElements dims) dtype.itemsize)
      layer kOrV token slot word

/-- **The multi-layer transfer.** It is launched exactly when its sizes and words
fit, and then joins the bytes of the rows behind the pointers of its table. -/
theorem multiLayerCopies_iff {format : GPUKVFormat} (handled : format ≠ .twoXNlXNbbsNhHs)
    {dims : CacheDims} {dtype : DType} {keyValue : Tensor} {halves : ℕ} {slots : List ℤ}
    (shape : keyValue.shape =
      [halves, dims.numLayers, slots.length, format.rowElements dims])
    (dtypeEq : keyValue.dtype = dtype) (table : List ℤ) (direction : TransferDirection)
    (skipPrefixNTokens : ℕ) :
    ((∃ copies, multiLayerCopies keyValue table slots dims.pageBufferSize direction format
        (format.passedBlockSize dims) skipPrefixNTokens = some copies) ↔
      format.SizesFit dims dtype slots.length ∧
        format.MappedFit dims dtype slots skipPrefixNTokens) ∧
    ∀ copies, multiLayerCopies keyValue table slots dims.pageBufferSize direction format
        (format.passedBlockSize dims) skipPrefixNTokens = some copies →
      JoinsRows direction copies format.halves dims.numLayers slots skipPrefixNTokens
        (format.rowElements dims * dtype.itemsize)
        (fun layer kOrV token => keyValue.dataPtr +
          ((((kOrV * dims.numLayers + layer) * slots.length + token) *
            (format.rowElements dims * dtype.itemsize) : ℕ) : ℤ))
        (fun layer kOrV slot => table.getD layer 0 + ((format.pointerRow dims kOrV slot *
          (format.rowElements dims * dtype.itemsize) : ℕ) : ℤ)) := by
  have launches := multiLayerKvTransfer_eq shape format handled dims.pageBufferSize
    (format.passedBlockSize dims)
  rw [dtypeEq] at launches
  have run (copies : List Copy) :
      multiLayerCopies keyValue table slots dims.pageBufferSize direction format
          (format.passedBlockSize dims) skipPrefixNTokens = some copies ↔
        format.SizesFit dims dtype slots.length ∧
          (format.launchFor dims dtype slots.length).copies table keyValue.dataPtr slots
            skipPrefixNTokens direction = some copies := by
    rw [multiLayerCopies, Option.bind_eq_bind, Option.bind_eq_some_iff]
    constructor
    · rintro ⟨launch, launched, copied⟩
      obtain ⟨small, sizes, rfl⟩ := (launches launch).mp launched
      exact ⟨⟨small, sizes⟩, copied⟩
    · rintro ⟨⟨small, sizes⟩, copied⟩
      exact ⟨_, (launches _).mpr ⟨small, sizes, rfl⟩, copied⟩
  constructor
  · constructor
    · rintro ⟨copies, copied⟩
      obtain ⟨sizes, launched⟩ := (run copies).mp copied
      refine ⟨sizes, fun kOrV layer token slot word half layerIn mapped => ?_⟩
      obtain ⟨inner, row⟩ := (exists_launchGrid_tokens skipPrefixNTokens).mp ⟨copies, launched⟩
        kOrV layer token slot half layerIn mapped
      exact ((GPUKVFormat.rowCopies_iff handled sizes.element mapped.token_lt table
        keyValue.dataPtr direction inner).mp row).1 word
    · rintro ⟨sizes, fits⟩
      obtain ⟨copies, launched⟩ := (exists_launchGrid_tokens skipPrefixNTokens).mpr
        fun kOrV layer token slot half layerIn mapped =>
          ⟨_, (GPUKVFormat.rowCopies_iff handled sizes.element mapped.token_lt table
            keyValue.dataPtr direction _).mpr
              ⟨fun word => fits kOrV layer token slot word half layerIn mapped, rfl⟩⟩
      exact ⟨copies, (run copies).mpr ⟨sizes, launched⟩⟩
  · intro copies copied origin address
    obtain ⟨sizes, launched⟩ := (run copies).mp copied
    have widths := wordsPerRow_mul_copyWord (format.rowElements dims) sizes.element
    rw [launchGrid_tokens_moves launched]
    constructor
    · rintro ⟨kOrV, layer, token, slot, half, layerIn, mapped, inner, row, moved⟩
      obtain ⟨_, rfl⟩ := (GPUKVFormat.rowCopies_iff handled sizes.element mapped.token_lt table
        keyValue.dataPtr direction inner).mp row
      rw [direction.moves_words, widths] at moved
      exact ⟨kOrV, layer, token, slot, half, layerIn, mapped, moved⟩
    · rintro ⟨kOrV, layer, token, slot, half, layerIn, mapped, joined⟩
      obtain ⟨inner, row⟩ := (exists_launchGrid_tokens skipPrefixNTokens).mp ⟨copies, launched⟩
        kOrV layer token slot half layerIn mapped
      obtain ⟨_, rfl⟩ := (GPUKVFormat.rowCopies_iff handled sizes.element mapped.token_lt table
        keyValue.dataPtr direction inner).mp row
      refine ⟨kOrV, layer, token, slot, half, layerIn, mapped, _, row, ?_⟩
      rwa [direction.moves_words, widths]

/-- A chunk, and the caches and memory objects that the three transfers move it
between. -/
structure NhdTransfer where
  format : GPUKVFormat
  nhd : format = .nlXTwoNbBsNhHs ∨ format = .nlXNbTwoBsNhHs
  dims : CacheDims
  dtype : DType
  slots : List ℤ
  slotsIn : ∀ slot ∈ slots, slot < dims.pageBufferSize
  layerCache : ℕ → Tensor
  layerCache_dense : ∀ layer < dims.numLayers,
    DenseTensor (layerCache layer) (format.tensorShape dims) dtype
  keyCache : ℕ → Tensor
  keyCache_dense : ∀ layer < dims.numLayers,
    DenseTensor (keyCache layer) (GPUKVFormat.tensorShape .twoXNlXNbbsNhHs dims) dtype
  valueCache : ℕ → Tensor
  valueCache_dense : ∀ layer < dims.numLayers,
    DenseTensor (valueCache layer) (GPUKVFormat.tensorShape .twoXNlXNbbsNhHs dims) dtype
  keyValue : Tensor
  keyValue_dense : DenseTensor keyValue
    [2, dims.numLayers, slots.length, dims.numHeads * dims.headSize] dtype
  splitKeyValue : Tensor
  splitKeyValue_dense : DenseTensor splitKeyValue
    [2, dims.numLayers, slots.length, dims.numHeads * dims.headSize] dtype
  tokenMajor : Bool
  layerKeyValue : ℕ → Tensor
  layerKeyValue_dense : ∀ layer < dims.numLayers, DenseTensor (layerKeyValue layer)
    (if tokenMajor then [slots.length, 2, dims.numHeads * dims.headSize]
      else [2, slots.length, dims.numHeads * dims.headSize]) dtype

/-- The copies join exactly the bytes of the rows of the tokens with a slot. -/
def MovesRows (direction : TransferDirection) (copies : List Copy) (layers : ℕ → Prop)
    (slots : List ℤ) (rowBytes : ℕ) (objectRow cacheRow : ℕ → ℕ → ℕ → ℤ) : Prop :=
  ∀ origin address, Moves copies origin address ↔
    ∃ layer kOrV token, ∃ slot : ℕ, layers layer ∧ kOrV < 2 ∧ slots[token]? = some (slot : ℤ) ∧
      ∃ byte < rowBytes, direction.Joins (objectRow layer kOrV token + (byte : ℤ))
        (cacheRow layer kOrV slot + (byte : ℤ)) origin address

namespace NhdTransfer

variable (transfer : NhdTransfer)

def numTokens : ℕ := transfer.slots.length

def rowElements : ℕ := transfer.dims.numHeads * transfer.dims.headSize

def rowBytes : ℕ := transfer.rowElements * transfer.dtype.itemsize

/-- The pointers of the layers. -/
def table : List ℤ :=
  (List.range transfer.dims.numLayers).map fun layer => ((transfer.layerCache layer).dataPtr : ℤ)

/-- The pointers of the keys, and then those of the values. -/
def splitTable : List ℤ :=
  ((List.range transfer.dims.numLayers).map fun layer =>
      ((transfer.keyCache layer).dataPtr : ℤ)) ++
    (List.range transfer.dims.numLayers).map fun layer =>
      ((transfer.valueCache layer).dataPtr : ℤ)

/-! ### The first byte of a row -/

def cacheRow (layer kOrV slot : ℕ) : ℤ :=
  rowMajorAddress (transfer.layerCache layer)
    (transfer.format.pageIndex transfer.dims layer kOrV slot ++ [0, 0])

def splitCacheRow (layer kOrV slot : ℕ) : ℤ :=
  rowMajorAddress (if kOrV = 0 then transfer.keyCache layer else transfer.valueCache layer)
    [slot, 0, 0]

def objectRow (layer kOrV token : ℕ) : ℤ :=
  rowMajorAddress transfer.keyValue [kOrV, layer, token, 0]

def splitObjectRow (layer kOrV token : ℕ) : ℤ :=
  rowMajorAddress transfer.splitKeyValue [kOrV, layer, token, 0]

def layerObjectRow (layer kOrV token : ℕ) : ℤ :=
  rowMajorAddress (transfer.layerKeyValue layer)
    (if transfer.tokenMajor then [token, kOrV, 0] else [kOrV, token, 0])

/-- The elements of a 64-bit entry. -/
def elementsPerEntry : ℕ := 8 / transfer.dtype.itemsize

/-- The token has the slot, and it is not negative. -/
def SlotOf (token slot : ℕ) : Prop := transfer.slots[token]? = some (slot : ℤ)

/-- Some layer has a row to move. -/
def HasRows : Prop :=
  0 < transfer.dims.numLayers ∧ 0 < transfer.dims.numHeads ∧ ∃ token slot, transfer.SlotOf token slot

/-! ### The multi-layer transfer -/

section Rows

variable {transfer}

theorem SlotOf.inside {token slot : ℕ} (here : transfer.SlotOf token slot) :
    slot < transfer.dims.pageBufferSize := by
  have below := transfer.slotsIn _ (List.mem_of_getElem? here)
  exact_mod_cast below

theorem SlotOf.token_lt {token slot : ℕ} (here : transfer.SlotOf token slot) :
    token < transfer.numTokens :=
  (List.getElem?_eq_some_iff.mp here).1

/-- A grid over the tokens of the halves and layers, whose blocks of tokens with
a slot copy rows of `count` words, moves these rows. -/
theorem movesRows_of_blocks {direction : TransferDirection} {size count : ℕ}
    {objectRow cacheRow : ℕ → ℕ → ℕ → ℤ} {block : ℕ → ℕ → ℕ → ℤ → Option (List Copy)}
    (rows : ∀ layer kOrV token slot, layer < transfer.dims.numLayers → kOrV < 2 →
      transfer.SlotOf token slot → block kOrV layer token slot =
        some ((List.range count).map fun word =>
          direction.copy (objectRow layer kOrV token + ((word * size : ℕ) : ℤ))
            (cacheRow layer kOrV slot + ((word * size : ℕ) : ℤ)) size)) :
    ∃ copies, launchGrid (List.range 2 ×ˢ List.range transfer.dims.numLayers ×ˢ
        List.range transfer.numTokens) (fun place =>
          tokenBlock transfer.slots place.2.2 (block place.1 place.2.1 place.2.2)) = some copies ∧
      MovesRows direction copies (· < transfer.dims.numLayers) transfer.slots (count * size)
        objectRow cacheRow := by
  obtain ⟨copies, launched⟩ := (exists_launchGrid_tokens 0).mpr
    fun kOrV layer token slot half layerIn mapped =>
      ⟨_, rows layer kOrV token slot layerIn half mapped.2⟩
  refine ⟨copies, launched, fun origin address => ?_⟩
  rw [launchGrid_tokens_moves launched]
  constructor
  · rintro ⟨kOrV, layer, token, slot, half, layerIn, mapped, inner, run, moved⟩
    rw [rows layer kOrV token slot layerIn half mapped.2] at run
    obtain rfl := Option.some.inj run
    rw [direction.moves_words] at moved
    exact ⟨layer, kOrV, token, slot, layerIn, half, mapped.2, moved⟩
  · rintro ⟨layer, kOrV, token, slot, layerIn, half, here, moved⟩
    refine ⟨kOrV, layer, token, slot, half, layerIn, ⟨Nat.zero_le _, here⟩, _,
      rows layer kOrV token slot layerIn half here, ?_⟩
    rwa [direction.moves_words]

/-! ### Where the rows are -/

theorem handled (transfer : NhdTransfer) : transfer.format ≠ .twoXNlXNbbsNhHs ∧
    transfer.format ≠ .nbNlTwoBsNhHs ∧ transfer.format ≠ .nlXNbbsOneHs ∧
    isMla transfer.format = false := by
  rcases transfer.nhd with attention | infer
  · rw [attention]
    decide
  · rw [infer]
    decide

theorem halves_eq (transfer : NhdTransfer) : transfer.format.halves = 2 := by
  rw [GPUKVFormat.halves, transfer.handled.2.2.2]
  rfl

theorem rowShape_eq (transfer : NhdTransfer) : transfer.format.rowShape transfer.dims =
    [transfer.dims.numHeads, transfer.dims.headSize] := by
  rcases transfer.nhd with attention | infer
  · rw [attention]
    rfl
  · rw [infer]
    rfl

theorem rowElements_eq (transfer : NhdTransfer) :
    transfer.format.rowElements transfer.dims = transfer.rowElements := by
  rw [GPUKVFormat.rowElements, transfer.rowShape_eq, List.prod_cons, List.prod_cons,
    List.prod_nil, Nat.mul_one, rowElements]

theorem objectRow_eq (layer kOrV token : ℕ) :
    transfer.objectRow layer kOrV token = transfer.keyValue.dataPtr +
      ((((kOrV * transfer.dims.numLayers + layer) * transfer.numTokens + token) *
        transfer.rowBytes : ℕ) : ℤ) := by
  have place : offset [2, transfer.dims.numLayers, transfer.slots.length,
      transfer.dims.numHeads * transfer.dims.headSize] [kOrV, layer, token, 0] =
      ((kOrV * transfer.dims.numLayers + layer) * transfer.numTokens + token) *
        transfer.rowElements := by
    simp only [offset_cons, offset_nil, List.prod_cons, List.prod_nil, numTokens, rowElements]
    ring
  rw [objectRow, rowMajorAddress, transfer.keyValue_dense.extents, place, Tensor.elementSize,
    transfer.keyValue_dense.elements, rowBytes, Nat.mul_assoc]

theorem splitObjectRow_eq (layer kOrV token : ℕ) :
    transfer.splitObjectRow layer kOrV token = transfer.splitKeyValue.dataPtr +
      ((((kOrV * transfer.dims.numLayers + layer) * transfer.numTokens + token) *
        transfer.rowBytes : ℕ) : ℤ) := by
  have place : offset [2, transfer.dims.numLayers, transfer.slots.length,
      transfer.dims.numHeads * transfer.dims.headSize] [kOrV, layer, token, 0] =
      ((kOrV * transfer.dims.numLayers + layer) * transfer.numTokens + token) *
        transfer.rowElements := by
    simp only [offset_cons, offset_nil, List.prod_cons, List.prod_nil, numTokens, rowElements]
    ring
  rw [splitObjectRow, rowMajorAddress, transfer.splitKeyValue_dense.extents, place,
    Tensor.elementSize, transfer.splitKeyValue_dense.elements, rowBytes, Nat.mul_assoc]

variable {layer kOrV token slot : ℕ}

theorem cacheRow_eq (layerIn : layer < transfer.dims.numLayers) (half : kOrV < 2)
    (here : transfer.SlotOf token slot) :
    transfer.cacheRow layer kOrV slot = (transfer.layerCache layer).dataPtr +
      ((transfer.format.pointerRow transfer.dims kOrV slot * transfer.rowBytes : ℕ) : ℤ) := by
  have dense := transfer.layerCache_dense layer layerIn
  have page := GPUKVFormat.pageIndex_inRange layerIn (transfer.halves_eq ▸ half) here.inside
  have place : offset (transfer.format.tensorShape transfer.dims)
      (transfer.format.pageIndex transfer.dims layer kOrV slot ++ [0, 0]) =
        transfer.format.pointerRow transfer.dims kOrV slot * transfer.rowElements := by
    rw [GPUKVFormat.tensorShape, offset_append page, GPUKVFormat.pageIndex_offset,
      GPUKVFormat.layerRows, if_neg transfer.handled.2.1, transfer.rowShape_eq]
    simp only [offset_cons, offset_nil, List.prod_cons, List.prod_nil, rowElements]
    ring
  rw [cacheRow, rowMajorAddress, dense.extents, place, Tensor.elementSize, dense.elements,
    rowBytes, Nat.mul_assoc]

/-- The words of a row have 63-bit places. -/
theorem pointerRow_long (layerIn : layer < transfer.dims.numLayers) (half : kOrV < 2)
    (here : transfer.SlotOf token slot) {words word : ℕ} (few : words ≤ transfer.rowElements)
    (wordIn : word < words) :
    transfer.format.pointerRow transfer.dims kOrV slot * words + word <
      9223372036854775808 := by
  have dense := transfer.layerCache_dense layer layerIn
  have page := GPUKVFormat.pageIndex_inRange layerIn (transfer.halves_eq ▸ half) here.inside
  have below := offset_lt page
  rw [GPUKVFormat.pageIndex_offset, GPUKVFormat.layerRows, if_neg transfer.handled.2.1,
    Nat.zero_add] at below
  have rows : (transfer.layerCache layer).numel =
      (transfer.format.pageShape transfer.dims).prod * transfer.rowElements := by
    rw [Tensor.numel, dense.extents, GPUKVFormat.tensorShape, List.prod_append,
      transfer.rowShape_eq, rowElements, List.prod_cons, List.prod_cons, List.prod_nil,
      Nat.mul_one]
  have bytes := Nat.le_mul_of_pos_right (transfer.layerCache layer).numel
    (transfer.layerCache layer).dtype.itemsize_pos
  have limit := dense.addressable
  have inRow := digit_lt below wordIn
  have scaled := Nat.mul_le_mul_left (transfer.format.pageShape transfer.dims).prod few
  rw [← rows] at scaled
  change _ ≤ (transfer.layerCache layer).numel * (transfer.layerCache layer).elementSize at bytes
  omega

end Rows

/-! ### The multi-layer transfer -/

section MultiLayer

variable {transfer : NhdTransfer}

/-- The words of a row in the multi-layer transfer. -/
def words (transfer : NhdTransfer) : ℕ :=
  wordsPerRow transfer.rowElements transfer.dtype.itemsize

/-- The multi-layer transfer moves the rows exactly when its steps fit. -/
theorem multiLayer_iff (direction : TransferDirection) :
    (∃ copies, multiLayerCopies transfer.keyValue transfer.table transfer.slots
        transfer.dims.pageBufferSize direction transfer.format transfer.dims.blockSize 0 =
          some copies ∧
      MovesRows direction copies (· < transfer.dims.numLayers) transfer.slots transfer.rowBytes
        transfer.objectRow transfer.cacheRow) ↔
    transfer.dtype.itemsize ≤ 8 ∧
      (∀ size ∈ [transfer.dims.numLayers, transfer.numTokens, transfer.rowElements,
        transfer.rowBytes, transfer.dims.pageBufferSize, transfer.dims.blockSize],
          size < 2147483648) ∧
      ∀ layer kOrV token slot word, layer < transfer.dims.numLayers → kOrV < 2 →
        transfer.SlotOf token slot → word < transfer.words →
        transfer.format.StepsFit transfer.dims kOrV slot word transfer.words ∧
          ((kOrV * transfer.dims.numLayers + layer) * transfer.numTokens + token) *
            transfer.words + word < 2147483648 := by
  have passed : transfer.format.passedBlockSize transfer.dims = transfer.dims.blockSize :=
    if_neg transfer.handled.2.2.1
  have shape : transfer.keyValue.shape = [2, transfer.dims.numLayers, transfer.slots.length,
      transfer.format.rowElements transfer.dims] := by
    rw [transfer.rowElements_eq]
    exact transfer.keyValue_dense.extents
  obtain ⟨launches, joins⟩ := multiLayerCopies_iff transfer.handled.1 shape
    transfer.keyValue_dense.elements transfer.table direction 0
  rw [passed] at launches joins
  have sizes_iff : transfer.format.SizesFit transfer.dims transfer.dtype transfer.slots.length ↔
      transfer.dtype.itemsize ≤ 8 ∧
        ∀ size ∈ [transfer.dims.numLayers, transfer.numTokens, transfer.rowElements,
          transfer.rowBytes, transfer.dims.pageBufferSize, transfer.dims.blockSize],
            size < 2147483648 := by
    rw [← transfer.rowElements_eq, rowBytes, ← transfer.rowElements_eq, ← passed]
    exact ⟨fun sizes => ⟨sizes.element, sizes.sizes⟩, fun sizes => ⟨sizes.1, sizes.2⟩⟩
  unfold GPUKVFormat.MappedFit at launches
  simp only [transfer.rowElements_eq, transfer.halves_eq] at launches joins
  rw [sizes_iff] at launches
  constructor
  · rintro ⟨copies, copied, _⟩
    obtain ⟨⟨small, sizes⟩, fits⟩ := launches.mp ⟨copies, copied⟩
    refine ⟨small, sizes, fun layer kOrV token slot word layerIn half here wordIn => ?_⟩
    have fit := fits kOrV layer token slot word half layerIn ⟨Nat.zero_le _, here⟩ wordIn
    exact ⟨fit.steps, fit.object⟩
  · rintro ⟨small, sizes, fits⟩
    have few : transfer.words ≤ transfer.rowElements := Nat.div_le_self _ _
    obtain ⟨copies, copied⟩ := launches.mpr ⟨⟨small, sizes⟩,
      fun kOrV layer token slot word half layerIn mapped wordIn =>
        ⟨(fits layer kOrV token slot word layerIn half mapped.2 wordIn).1,
          pointerRow_long layerIn half mapped.2 few wordIn,
          (fits layer kOrV token slot word layerIn half mapped.2 wordIn).2⟩⟩
    refine ⟨copies, copied, fun origin address => ?_⟩
    rw [joins copies copied origin address]
    have entry (layer : ℕ) (layerIn : layer < transfer.dims.numLayers) :
        transfer.table.getD layer 0 = (transfer.layerCache layer).dataPtr := by
      simp [table, layerIn]
    constructor
    · rintro ⟨kOrV, layer, token, slot, half, layerIn, mapped, joined⟩
      refine ⟨layer, kOrV, token, slot, layerIn, half, mapped.2, ?_⟩
      rwa [objectRow_eq, cacheRow_eq layerIn half mapped.2, ← entry layer layerIn]
    · rintro ⟨layer, kOrV, token, slot, layerIn, half, here, joined⟩
      refine ⟨kOrV, layer, token, slot, half, layerIn, ⟨Nat.zero_le _, here⟩, ?_⟩
      rwa [objectRow_eq, cacheRow_eq layerIn half here, ← entry layer layerIn] at joined

end MultiLayer

/-! ### Rows of 64-bit words -/

section Entries

variable {transfer : NhdTransfer}

theorem elementsPerEntry_mul (small : transfer.dtype.itemsize ≤ 8) :
    transfer.elementsPerEntry * transfer.dtype.itemsize = 8 ∧ 0 < transfer.elementsPerEntry := by
  have sizes : transfer.dtype.itemsize = 1 ∨ transfer.dtype.itemsize = 2 ∨
      transfer.dtype.itemsize = 4 ∨ transfer.dtype.itemsize = 8 := by
    revert small
    cases transfer.dtype <;> decide
  unfold elementsPerEntry
  rcases sizes with one | two | four | eight
  · rw [one]
    decide
  · rw [two]
    decide
  · rw [four]
    decide
  · rw [eight]
    decide

/-- Sizes in entries are sizes in bytes when whole entries divide them. -/
theorem entries_mul (small : transfer.dtype.itemsize ≤ 8) {elements : ℕ}
    (whole : 8 ∣ elements * transfer.dtype.itemsize) :
    elements / transfer.elementsPerEntry * 8 = elements * transfer.dtype.itemsize := by
  obtain ⟨eight, positive⟩ := elementsPerEntry_mul small
  rw [← eight] at whole
  have divides := Nat.dvd_of_mul_dvd_mul_right transfer.dtype.itemsize_pos whole
  calc elements / transfer.elementsPerEntry * 8
      = elements / transfer.elementsPerEntry *
          (transfer.elementsPerEntry * transfer.dtype.itemsize) := by rw [eight]
    _ = elements / transfer.elementsPerEntry * transfer.elementsPerEntry *
          transfer.dtype.itemsize := (Nat.mul_assoc ..).symm
    _ = elements * transfer.dtype.itemsize := by rw [Nat.div_mul_cancel divides]

/-- Rows of whole entries are copied entry by entry also by the multi-layer transfer. -/
theorem words_eq (whole : 8 ∣ transfer.rowBytes) :
    transfer.words = transfer.rowElements / transfer.elementsPerEntry := by
  have word : copyWord transfer.rowBytes = 8 := if_pos (Nat.mod_eq_zero_of_dvd whole)
  rw [words, wordsPerRow, show copyWord (transfer.rowElements * transfer.dtype.itemsize) = 8 from
    word]
  rfl

/-- Where there are rows to move, they are made of whole entries. -/
theorem rowBytes_whole
    (whole : transfer.HasRows → 8 ∣ transfer.dims.headSize * transfer.dtype.itemsize)
    {layer token slot : ℕ} (layerIn : layer < transfer.dims.numLayers)
    (here : transfer.SlotOf token slot) : 8 ∣ transfer.rowBytes := by
  rcases Nat.eq_zero_or_pos transfer.dims.numHeads with none | heads
  · simp [rowBytes, rowElements, none]
  · have head := whole ⟨Nat.zero_lt_of_lt layerIn, heads, token, slot, here⟩
    rw [rowBytes, rowElements, Nat.mul_assoc]
    exact head.mul_left _

/-- The size of a row matters only where there is one. -/
theorem movesRows_resize {direction : TransferDirection} {copies : List Copy}
    {layers : ℕ → Prop} {objectRow cacheRow : ℕ → ℕ → ℕ → ℤ} {size : ℕ}
    (moves : MovesRows direction copies layers transfer.slots size objectRow cacheRow)
    {size' : ℕ} (same : ∀ layer token slot, layers layer → transfer.SlotOf token slot →
      size = size') :
    MovesRows direction copies layers transfer.slots size' objectRow cacheRow := by
  intro origin address
  rw [moves]
  refine exists_congr fun layer => exists_congr fun kOrV => exists_congr fun token =>
    exists_congr fun slot => and_congr_right fun layerIn => and_congr_right fun _ =>
      and_congr_right fun here => ?_
  rw [same layer token slot layerIn here]

end Entries

/-! ### The unilateral transfer -/

section Unilateral

variable {transfer : NhdTransfer}

theorem splitCacheRow_eq {layer : ℕ} (layerIn : layer < transfer.dims.numLayers)
    (kOrV slot : ℕ) :
    transfer.splitCacheRow layer kOrV slot =
      (if kOrV = 0 then transfer.keyCache layer else transfer.valueCache layer).dataPtr +
        ((slot * transfer.rowBytes : ℕ) : ℤ) := by
  have place : offset (GPUKVFormat.tensorShape .twoXNlXNbbsNhHs transfer.dims) [slot, 0, 0] =
      slot * transfer.rowElements := by
    simp [GPUKVFormat.tensorShape, GPUKVFormat.pageShape, GPUKVFormat.rowShape, rowElements]
  have dense : DenseTensor (if kOrV = 0 then transfer.keyCache layer else
      transfer.valueCache layer) (GPUKVFormat.tensorShape .twoXNlXNbbsNhHs transfer.dims)
        transfer.dtype := by
    split
    · exact transfer.keyCache_dense layer layerIn
    · exact transfer.valueCache_dense layer layerIn
  rw [splitCacheRow, rowMajorAddress, dense.extents, place, Tensor.elementSize, dense.elements,
    rowBytes, Nat.mul_assoc]

theorem splitTable_entry {layer : ℕ} (layerIn : layer < transfer.dims.numLayers) (kOrV : ℕ) :
    (if kOrV = 0 then transfer.splitTable.getD layer 0
      else transfer.splitTable.getD (layer + transfer.dims.numLayers) 0) =
    ((if kOrV = 0 then transfer.keyCache layer else transfer.valueCache layer).dataPtr : ℤ) := by
  unfold splitTable
  split
  · rw [List.getD_eq_getElem?_getD, List.getElem?_append_left (by simpa using layerIn)]
    simp [layerIn]
  · rw [List.getD_eq_getElem?_getD, List.getElem?_append_right (by simp)]
    simp [layerIn]

/-- The copy of a thread of the unilateral kernel. -/
theorem unilateral_thread (small : transfer.dtype.itemsize ≤ 8) (direction : TransferDirection)
    {layer kOrV token slot word : ℕ} (layerIn : layer < transfer.dims.numLayers)
    (here : transfer.SlotOf token slot) (whole : 8 ∣ transfer.rowBytes)
    (wordIn : word < transfer.words) (copy : Copy) :
    (do
      let object ← keyValueOffset kOrV layer token word transfer.words transfer.numTokens
        transfer.dims.numLayers
      let cache ← pageBufferOffsetUnilateral (slot : ℤ) word transfer.words
      let base := if kOrV = 0 then transfer.splitTable.getD layer 0
        else transfer.splitTable.getD (layer + transfer.dims.numLayers) 0
      return direction.copy (transfer.splitKeyValue.dataPtr + object * 8) (base + cache * 8) 8) =
        some copy ↔
      (slot * transfer.words + word < 2147483648 ∧
        ((kOrV * transfer.dims.numLayers + layer) * transfer.numTokens + token) *
          transfer.words + word < 2147483648) ∧
      copy = direction.copy
        (transfer.splitObjectRow layer kOrV token + ((word * 8 : ℕ) : ℤ))
        (transfer.splitCacheRow layer kOrV slot + ((word * 8 : ℕ) : ℤ)) 8 := by
  have objects (offset : ℤ) :
      keyValueOffset kOrV layer token word transfer.words transfer.numTokens
          transfer.dims.numLayers = some offset ↔
        ((kOrV * transfer.dims.numLayers + layer) * transfer.numTokens + token) *
            transfer.words + word < 2147483648 ∧
          offset = ((((kOrV * transfer.dims.numLayers + layer) * transfer.numTokens + token) *
            transfer.words + word : ℕ) : ℤ) :=
    keyValueOffset_eq (Nat.zero_lt_of_lt here.token_lt) (Nat.zero_lt_of_lt wordIn) offset
  have caches (offset : ℤ) := pageBufferOffsetUnilateral_eq slot wordIn offset
  have widths : transfer.words * 8 = transfer.rowBytes := by
    rw [words_eq whole]
    exact entries_mul small whole
  have address (base : ℤ) (row : ℕ) :
      base + ((row * transfer.words + word : ℕ) : ℤ) * 8 =
        base + ((row * transfer.rowBytes : ℕ) : ℤ) + ((word * 8 : ℕ) : ℤ) := by
    rw [← widths]
    push_cast
    ring
  simp only [Option.bind_eq_bind, Option.bind_eq_some_iff, objects, caches, Option.pure_def,
    Option.some.injEq, splitTable_entry layerIn]
  rw [splitObjectRow_eq, splitCacheRow_eq layerIn]
  constructor
  · rintro ⟨_, ⟨object, rfl⟩, _, ⟨cache, rfl⟩, rfl⟩
    exact ⟨⟨cache, object⟩, by rw [address, address]⟩
  · rintro ⟨⟨cache, object⟩, rfl⟩
    exact ⟨_, ⟨object, rfl⟩, _, ⟨cache, rfl⟩, by rw [address, address]⟩

/-- With rows of whole entries the unilateral transfer moves the rows exactly
when its steps fit. -/
theorem unilateral_iff (direction : TransferDirection)
    (whole : transfer.HasRows → 8 ∣ transfer.dims.headSize * transfer.dtype.itemsize) :
    (∃ copies, multiLayerCopiesUnilateral transfer.splitKeyValue transfer.splitTable
        transfer.slots transfer.dims.pageBufferSize direction .twoXNlXNbbsNhHs = some copies ∧
      MovesRows direction copies (· < transfer.dims.numLayers) transfer.slots transfer.rowBytes
        transfer.splitObjectRow transfer.splitCacheRow) ↔
    (∀ size ∈ [transfer.dims.numLayers, transfer.numTokens, transfer.rowElements,
        transfer.dims.pageBufferSize], size < 2147483648) ∧
      transfer.dtype.itemsize ≤ 8 ∧
      ∀ layer kOrV token slot word, layer < transfer.dims.numLayers → kOrV < 2 →
        transfer.SlotOf token slot → word < transfer.words →
        slot * transfer.words + word < 2147483648 ∧
          ((kOrV * transfer.dims.numLayers + layer) * transfer.numTokens + token) *
            transfer.words + word < 2147483648 := by
  have dense := transfer.splitKeyValue_dense
  have layers : transfer.splitKeyValue.dim 1 = transfer.dims.numLayers := by
    simp [Tensor.dim, dense.extents]
  have tokens : transfer.splitKeyValue.dim 2 = transfer.numTokens := by
    simp [Tensor.dim, dense.extents, numTokens]
  have elements : transfer.splitKeyValue.dim 3 = transfer.rowElements := by
    simp [Tensor.dim, dense.extents, rowElements]
  have entry : 8 / transfer.splitKeyValue.elementSize = transfer.elementsPerEntry := by
    rw [Tensor.elementSize, dense.elements, elementsPerEntry]
  have small_iff : transfer.elementsPerEntry ≠ 0 ↔ transfer.dtype.itemsize ≤ 8 := by
    unfold elementsPerEntry
    rw [Nat.div_ne_zero_iff]
    exact ⟨fun both => both.2, fun small => ⟨transfer.dtype.itemsize_pos.ne', small⟩⟩
  unfold multiLayerCopiesUnilateral
  rw [if_neg (by decide)]
  simp only [layers, tokens, elements, entry]
  constructor
  · rintro ⟨copies, copied, _⟩
    split at copied
    · rename_i fits
      refine ⟨fits.1, small_iff.mp fits.2, ?_⟩
      intro layer kOrV token slot word layerIn half here wordIn
      have small := small_iff.mp fits.2
      have wholeRow := rowBytes_whole whole layerIn here
      obtain ⟨inner, run⟩ := (exists_launchGrid_tokens 0).mp ⟨copies, copied⟩ kOrV layer token
        slot half layerIn ⟨Nat.zero_le _, here⟩
      rw [← words_eq wholeRow] at run
      obtain ⟨copy, made⟩ := Checked.exists_of_mapM_some run (List.mem_range.mpr wordIn)
      exact ((unilateral_thread small direction layerIn here wholeRow wordIn copy).mp made).1
    · cases copied
  · rintro ⟨sizes, small, fits⟩
    rw [if_pos ⟨sizes, small_iff.mpr small⟩]
    have rows (layer kOrV token slot : ℕ) (layerIn : layer < transfer.dims.numLayers)
        (half : kOrV < 2) (here : transfer.SlotOf token slot) :
        unilateralRowCopies transfer.splitKeyValue.dataPtr transfer.splitTable
          (transfer.rowElements / transfer.elementsPerEntry) transfer.slots.length
          transfer.dims.numLayers direction kOrV layer token slot =
        some ((List.range (transfer.rowElements / transfer.elementsPerEntry)).map fun word =>
            direction.copy
              (transfer.splitObjectRow layer kOrV token + ((word * 8 : ℕ) : ℤ))
              (transfer.splitCacheRow layer kOrV slot + ((word * 8 : ℕ) : ℤ)) 8) := by
      have wholeRow := rowBytes_whole whole layerIn here
      rw [← words_eq wholeRow]
      exact Checked.mapM_range_some.mpr fun word wordIn =>
        (unilateral_thread small direction layerIn here wholeRow wordIn _).mpr
          ⟨fits layer kOrV token slot word layerIn half here wordIn, rfl⟩
    obtain ⟨copies, run, moves⟩ := movesRows_of_blocks rows
    refine ⟨copies, run, movesRows_resize moves fun layer token slot layerIn here => ?_⟩
    exact entries_mul small (rowBytes_whole whole layerIn here)

end Unilateral

end NhdTransfer

end LMCacheHcu.Kernels
