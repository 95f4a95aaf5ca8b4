import LMCacheHcu.Kernels.Addressing

/-! # The addresses of the multi-layer transfers are row-major

Distinct elements of a cache have distinct addresses, the asymmetric transfer
likewise forms row-major ones, and the exact condition under which every step of
the kernels stays in its type.
-/

namespace LMCacheHcu.Kernels

open RowMajor Storage

/-! ### Distinct coordinates -/

theorem eq_of_div_mod {size first second : ℕ} (quotient : first / size = second / size)
    (remainder : first % size = second % size) : first = second := by
  rw [← Nat.div_add_mod' first size, quotient, remainder, Nat.div_add_mod']

namespace KVCaches

variable {kvCaches : KVCaches} {layout : CacheLayout} {dims : CacheDims} {dtype : DType}

theorem tensorAt_pairs {each : List (Tensor × Tensor)} {layer : ℕ} (inside : layer < each.length)
    (kOrV : ℕ) :
    (pairs each).tensorAt layer kOrV =
      some (if kOrV = 0 then each[layer].1 else each[layer].2) := by
  rw [KVCaches.tensorAt, tensors, tensorPosition]
  split
  · rw [List.getElem?_append_left (by rwa [List.length_map])]
    simp [inside]
  · rw [List.getElem?_append_right (by simp)]
    simp [inside]

/-- Every coordinate of the cache is an element of one of its tensors. -/
theorem InLayout.tensorAt (inLayout : kvCaches.InLayout layout dims dtype)
    {coordinate : KVCoordinate} (inCache : coordinate.InCache layout dims) :
    ∃ tensor, kvCaches.tensorAt coordinate.layer coordinate.kOrV = some tensor ∧
      InRange tensor.shape (layout.index dims coordinate) ∧ tensor.dtype = dtype := by
  cases kvCaches with
  | tensor whole =>
      obtain ⟨rfl, shape, dtypeEq⟩ := inLayout
      exact ⟨whole, rfl, shape ▸ (CacheLayout.fused_index inCache).1, dtypeEq⟩
  | layers each =>
      obtain ⟨count, format, rfl, _, _, shapes⟩ := inLayout
      have inside : coordinate.layer < each.length := count ▸ inCache.layer
      obtain ⟨shape, dtypeEq⟩ := shapes _ (List.getElem_mem inside)
      refine ⟨each[coordinate.layer], List.getElem?_eq_getElem inside, ?_, dtypeEq⟩
      rw [shape]
      exact (CacheLayout.fused_index inCache).1
  | pairs each =>
      obtain ⟨count, rfl, shapes⟩ := inLayout
      have inside : coordinate.layer < each.length := count ▸ inCache.layer
      obtain ⟨keyShape, valueShape, keyType, valueType⟩ := shapes _ (List.getElem_mem inside)
      refine ⟨_, tensorAt_pairs inside coordinate.kOrV, ?_⟩
      have place := CacheLayout.split_index inCache
      by_cases key : coordinate.kOrV = 0
      · rw [key] at place
        rw [if_pos key, keyShape]
        exact ⟨place, keyType⟩
      · rw [dims.splitShape_value key] at place
        rw [if_neg key, valueShape]
        exact ⟨place, valueType⟩
  | keysAndValues keys values => exact inLayout.elim

/-- The tensor and the place in it determine the coordinate. -/
theorem InLayout.coordinate_eq (inLayout : kvCaches.InLayout layout dims dtype)
    {first second : KVCoordinate} (firstIn : first.InCache layout dims)
    (secondIn : second.InCache layout dims)
    (position : kvCaches.tensorPosition first.layer first.kOrV =
      kvCaches.tensorPosition second.layer second.kOrV)
    (index : layout.index dims first = layout.index dims second) : first = second := by
  obtain ⟨layer, kOrV, slot, element⟩ := first
  obtain ⟨layer', kOrV', slot', element'⟩ := second
  cases kvCaches with
  | tensor whole =>
      obtain ⟨rfl, _, _⟩ := inLayout
      simp only [CacheLayout.index, GPUKVFormat.pageIndex, GPUKVFormat.rowIndex,
        List.cons_append, List.nil_append, List.cons.injEq, and_true] at index
      obtain ⟨block, rfl, rfl, low, head, rest⟩ := index
      rw [eq_of_div_mod block low, eq_of_div_mod head rest]
  | layers each =>
      obtain ⟨_, format, rfl, apart, handled, _⟩ := inLayout
      obtain rfl : layer = layer' := position
      have half := firstIn.half
      have half' := secondIn.half
      cases format <;>
        simp_all [CacheLayout.index, GPUKVFormat.pageIndex, GPUKVFormat.rowIndex,
          CacheLayout.halves, GPUKVFormat.halves, isMla]
      case nlXTwoNbBsNhHs =>
        exact ⟨eq_of_div_mod index.2.1 index.2.2.1, eq_of_div_mod index.2.2.2.1 index.2.2.2.2⟩
      case nlXNbTwoBsNhHs =>
        exact ⟨eq_of_div_mod index.1 index.2.2.1, eq_of_div_mod index.2.2.2.1 index.2.2.2.2⟩
      case nlXNbBsHs => exact eq_of_div_mod index.1 index.2.1
  | pairs each =>
      obtain ⟨count, rfl, _⟩ := inLayout
      have layerIn : layer < each.length := count ▸ firstIn.layer
      have layerIn' : layer' < each.length := count ▸ secondIn.layer
      have half : kOrV < 2 := firstIn.half
      have half' : kOrV' < 2 := secondIn.half
      simp only [tensorPosition] at position
      have same : layer = layer' ∧ kOrV = kOrV' := by
        split at position <;> split at position <;> omega
      obtain ⟨rfl, rfl⟩ := same
      simp only [CacheLayout.index] at index
      split at index
      all_goals
        simp only [List.cons.injEq, and_true] at index
      · obtain ⟨block, head, low, rest⟩ := index
        rw [eq_of_div_mod block low, eq_of_div_mod head rest]
      · obtain ⟨block, head, rest, low⟩ := index
        rw [eq_of_div_mod block low, eq_of_div_mod head rest]
  | keysAndValues keys values => exact inLayout.elim

/-- The bytes of a tensor's elements lie in its range. -/
theorem rowMajorAddress_inside {tensor : Tensor} {index : List ℕ}
    (inside : InRange tensor.shape index) {byte : ℕ} (byteIn : byte < tensor.elementSize) :
    (tensor.dataPtr : ℤ) ≤ rowMajorAddress tensor index + byte ∧
      rowMajorAddress tensor index + byte <
        ((tensor.dataPtr + tensor.numel * tensor.elementSize : ℕ) : ℤ) := by
  have below := digit_lt (offset_lt inside) byteIn
  unfold rowMajorAddress Tensor.numel
  omega

/-- **Distinct elements have distinct bytes.** -/
theorem InLayout.elementByte_inj (inLayout : kvCaches.InLayout layout dims dtype)
    (addressable : kvCaches.Addressable) {first second : KVCoordinate}
    (firstIn : first.InCache layout dims) (secondIn : second.InCache layout dims)
    {address address' : ℤ} (formed : kvCaches.elementAddress layout dims first = some address)
    (formed' : kvCaches.elementAddress layout dims second = some address') {byte byte' : ℕ}
    (byteIn : byte < dtype.itemsize) (byteIn' : byte' < dtype.itemsize)
    (same : address + byte = address' + byte') : first = second ∧ byte = byte' := by
  obtain ⟨tensor, there, inside, dtypeEq⟩ := inLayout.tensorAt firstIn
  obtain ⟨tensor', there', inside', dtypeEq'⟩ := inLayout.tensorAt secondIn
  rw [elementAddress, there, Option.map_some, Option.some.injEq] at formed
  rw [elementAddress, there', Option.map_some, Option.some.injEq] at formed'
  subst formed formed'
  by_cases position : kvCaches.tensorPosition first.layer first.kOrV =
      kvCaches.tensorPosition second.layer second.kOrV
  · obtain rfl : tensor = tensor' := by
      rw [KVCaches.tensorAt, position] at there
      exact Option.some.inj (there.symm.trans there')
    have digits : offset tensor.shape (layout.index dims first) * dtype.itemsize + byte =
        offset tensor.shape (layout.index dims second) * dtype.itemsize + byte' := by
      unfold rowMajorAddress Tensor.elementSize at same
      rw [dtypeEq] at same
      omega
    obtain ⟨places, bytes⟩ := digit_inj byteIn byteIn' digits
    exact ⟨inLayout.coordinate_eq firstIn secondIn position (offset_inj inside inside' places),
      bytes⟩
  · have range := rowMajorAddress_inside inside (show byte < tensor.elementSize by
      rwa [Tensor.elementSize, dtypeEq])
    have range' := rowMajorAddress_inside inside' (show byte' < tensor'.elementSize by
      rwa [Tensor.elementSize, dtypeEq'])
    obtain ⟨below, rfl⟩ := List.getElem?_eq_some_iff.mp there
    obtain ⟨below', rfl⟩ := List.getElem?_eq_some_iff.mp there'
    rcases Nat.lt_or_gt_of_ne position with before | after
    · have apart := List.pairwise_iff_getElem.mp addressable.apart _ _ below below' before
      omega
    · have apart := List.pairwise_iff_getElem.mp addressable.apart _ _ below' below after
      omega

/-- **Distinct coordinates have distinct row-major addresses.** -/
theorem InLayout.elementAddress_inj (inLayout : kvCaches.InLayout layout dims dtype)
    (addressable : kvCaches.Addressable) {first second : KVCoordinate}
    (firstIn : first.InCache layout dims) (secondIn : second.InCache layout dims)
    (same : kvCaches.elementAddress layout dims first =
      kvCaches.elementAddress layout dims second) : first = second := by
  obtain ⟨tensor, there, _⟩ := inLayout.tensorAt firstIn
  have formed : kvCaches.elementAddress layout dims first = some _ :=
    congrArg (Option.map _) there
  exact (inLayout.elementByte_inj addressable firstIn secondIn formed (same ▸ formed)
    dtype.itemsize_pos dtype.itemsize_pos rfl).1

end KVCaches

/-- Distinct coordinates of a memory object have distinct row-major addresses. -/
theorem objectAddress_inj {keyValue : Tensor} {layout : CacheLayout} {dims : CacheDims}
    {numTokens : ℕ} (shape : keyValue.shape =
      [layout.halves, dims.numLayers, numTokens, layout.rowElements dims])
    {first second : KVCoordinate} (firstIn : first.InObject layout dims numTokens)
    (secondIn : second.InObject layout dims numTokens)
    (same : rowMajorAddress keyValue first.objectIndex =
      rowMajorAddress keyValue second.objectIndex) : first = second := by
  have inside : InRange keyValue.shape first.objectIndex := by
    rw [shape]
    simp [KVCoordinate.objectIndex, firstIn.half, firstIn.layer, firstIn.token, firstIn.element]
  have inside' : InRange keyValue.shape second.objectIndex := by
    rw [shape]
    simp [KVCoordinate.objectIndex, secondIn.half, secondIn.layer, secondIn.token,
      secondIn.element]
  have positive := keyValue.dtype.itemsize_pos
  have places : offset keyValue.shape first.objectIndex =
      offset keyValue.shape second.objectIndex := by
    unfold rowMajorAddress Tensor.elementSize at same
    exact Nat.eq_of_mul_eq_mul_right positive (by omega)
  have index := offset_inj inside inside' places
  obtain ⟨layer, kOrV, token, element⟩ := first
  obtain ⟨layer', kOrV', token', element'⟩ := second
  simp only [KVCoordinate.objectIndex, List.cons.injEq, and_true] at index
  obtain ⟨rfl, rfl, rfl, rfl⟩ := index
  rfl

/-! ### Addresses of the asymmetric transfer -/

/-- What the tables of split pointers have for the layers of a cache, and the
sizes that the connector reads off it. -/
structure SplitTable (kvCaches : KVCaches) (dims : CacheDims) (dtype : DType)
    (keys values : List ℤ) (numHeads headSize blockSize : ℕ) : Prop where
  someLayer : 0 < dims.numLayers
  numHeads : numHeads = dims.numHeads
  headSize : headSize = dims.headSize
  blockSize : blockSize = dims.blockSize
  entry : ∀ layer kOrV, layer < dims.numLayers → ∃ tensor,
    kvCaches.tensorAt layer kOrV = some tensor ∧ tensor.shape = dims.splitShape kOrV ∧
      tensor.dtype = dtype ∧
      (if kOrV = 0 then keys else values).getD layer 0 = (tensor.dataPtr : ℤ)

/-- An assigned list has its numbers at their places. -/
theorem assignArray_getD {count : ℕ} {given assigned : List ℤ} (positive : 0 < count)
    (done : assignArray count given = .ok assigned) {place : ℕ} (inside : place < given.length) :
    assigned.getD place 0 = given.getD place 0 := by
  unfold assignArray at done
  split at done
  · cases done
    rfl
  · split at done
    · cases done
      obtain rfl : place = 0 := Nat.lt_one_iff.mp inside
      simp [positive]
    · cases done

theorem PagedConnector.Prepares.splitTable {connector : PagedConnector} {kvCaches : KVCaches}
    {keys values : List ℤ} {numHeads headSize blockSize : ℕ} {dims : CacheDims} {dtype : DType}
    (prepared : connector.Prepares kvCaches (.split keys values numHeads headSize blockSize))
    (inLayout : kvCaches.InLayout .split dims dtype) :
    SplitTable kvCaches dims dtype keys values numHeads headSize blockSize := by
  cases kvCaches with
  | tensor whole => cases inLayout.1
  | layers each =>
      obtain ⟨_, _, same, _⟩ := inLayout
      cases same
  | keysAndValues keys values => exact inLayout.elim
  | pairs each =>
      rcases prepared with initialized | initialized
      · unfold PagedConnector.initializePointers at initialized
        split at initialized
        · obtain ⟨unpacked, layers, split⟩ := Checked.bind_ok.mp initialized
          cases layers
          obtain ⟨keys', values', first, listed, keysAssigned, valuesAssigned, made⟩ :=
            PagedConnector.initializeAsymmetricPointers_ok split
          cases made
          obtain ⟨count, _, shapes⟩ := inLayout
          obtain ⟨pair, pairListed, rfl⟩ := List.mem_map.mp listed
          have shape := (shapes pair pairListed).1
          refine ⟨count ▸ List.length_pos_of_mem pairListed, ?_, ?_, ?_, ?_⟩
          · simp [shape, CacheDims.splitShape]
          · simp [shape, CacheDims.splitShape]
          · simp [shape, CacheDims.splitShape]
          · intro layer kOrV layerIn
            have inside : layer < each.length := count ▸ layerIn
            obtain ⟨keyShape, valueShape, keyType, valueType⟩ :=
              shapes _ (List.getElem_mem inside)
            refine ⟨_, KVCaches.tensorAt_pairs inside kOrV, ?_⟩
            by_cases key : kOrV = 0
            · simp only [key, if_true]
              refine ⟨keyShape, keyType, ?_⟩
              rw [assignArray_getD connector.hasLayers keysAssigned (by simpa using inside)]
              simp [inside]
            · simp only [dims.splitShape_value key, key, if_false]
              refine ⟨valueShape, valueType, ?_⟩
              rw [assignArray_getD connector.hasLayers valuesAssigned (by simpa using inside)]
              simp [inside]
        · obtain ⟨_, discovered, _⟩ := Checked.bind_ok.mp initialized
          cases each <;> cases discovered
      · obtain ⟨_, _, _, _, made⟩ := PagedConnector.initializeSglangPointers_ok initialized
        cases made

section Split

variable {dims : CacheDims} {dtype : DType} {numTokens : ℕ}

/-- The launch for an asymmetric cache. -/
def CacheDims.asymmetricLaunch (dims : CacheDims) (dtype : DType) (numTokens : ℕ) :
    AsymmetricLaunch where
  itemsize := dtype.itemsize
  numTokens := numTokens
  numLayers := dims.numLayers
  numHeads := dims.numHeads
  headSize := dims.headSize
  blockSize := dims.blockSize

/-- The place of a coordinate in its key or value tensor. -/
def CacheDims.densePlace (dims : CacheDims) (coordinate : KVCoordinate) : ℕ :=
  denseOffset coordinate.kOrV (coordinate.position / dims.blockSize)
    (coordinate.element / dims.headSize) (coordinate.position % dims.blockSize)
    (coordinate.element % dims.headSize) dims.numHeads dims.headSize dims.blockSize

theorem CacheDims.index_offset (dims : CacheDims) (coordinate : KVCoordinate)
    (half : coordinate.kOrV < 2) :
    offset (dims.splitShape coordinate.kOrV) (CacheLayout.index dims coordinate .split) = dims.densePlace coordinate := by
  rcases Nat.le_one_iff_eq_zero_or_eq_one.mp (Nat.le_of_lt_succ half) with key | value
  · simp only [CacheDims.densePlace, CacheDims.splitShape, CacheLayout.index, key, if_true,
      denseOffset_key]
    simp only [offset_cons, offset_nil, List.prod_cons, List.prod_nil]
    ring
  · simp only [CacheDims.densePlace, CacheDims.splitShape, CacheLayout.index, value,
      one_ne_zero, if_false, denseOffset_value]
    simp only [offset_cons, offset_nil, List.prod_cons, List.prod_nil]
    ring

variable (numTokens) in
theorem SplitTable.cacheAddress_iff {kvCaches : KVCaches} {keys values : List ℤ}
    {numHeads headSize blockSize : ℕ}
    (tables : SplitTable kvCaches dims dtype keys values numHeads headSize blockSize)
    (keyValue : ℤ) {coordinate : KVCoordinate} (inCache : coordinate.InCache .split dims)
    (address : ℤ) :
    TransferCall.cacheAddress coordinate
        (.asymmetric (dims.asymmetricLaunch dtype numTokens) keys values keyValue) =
          some address ↔
      dims.densePlace coordinate < 2147483648 ∧
        kvCaches.elementAddress .split dims coordinate = some address := by
  obtain ⟨tensor, there, shape, dtypeEq, entry⟩ :=
    tables.entry coordinate.layer coordinate.kOrV inCache.layer
  have slots : 0 < dims.blockSize := Nat.pos_of_mul_pos_left (Nat.zero_lt_of_lt inCache.slot)
  have sizes : 0 < dims.headSize := Nat.pos_of_mul_pos_left (Nat.zero_lt_of_lt inCache.element)
  have heads : 0 < dims.numHeads := Nat.pos_of_mul_pos_right (Nat.zero_lt_of_lt inCache.element)
  have half : coordinate.kOrV < 2 := inCache.half
  have offsets (offset : ℤ) :
      pageBufferOffsetAsymmetric coordinate.kOrV coordinate.position coordinate.element
          dims.numHeads dims.headSize dims.blockSize = some offset ↔
        dims.densePlace coordinate < 2147483648 ∧ offset = dims.densePlace coordinate := by
    rw [CacheDims.densePlace, ← pageBufferOffsetAsymmetric_eq heads
      (Nat.mod_lt coordinate.position slots) (Nat.mod_lt coordinate.element sizes),
      Nat.div_add_mod', Nat.div_add_mod']
  have home : kvCaches.elementAddress .split dims coordinate =
      some (tensor.dataPtr + ((dims.densePlace coordinate * dtype.itemsize : ℕ) : ℤ)) := by
    rw [KVCaches.elementAddress, there, Option.map_some, rowMajorAddress, shape,
      Tensor.elementSize, dtypeEq, dims.index_offset coordinate half]
  rw [home, TransferCall.cacheAddress, Option.map_eq_some_iff, entry]
  constructor
  · rintro ⟨offset, defined, rfl⟩
    obtain ⟨fits, rfl⟩ := (offsets offset).mp defined
    refine ⟨fits, ?_⟩
    push_cast
    rfl
  · rintro ⟨fits, same⟩
    obtain rfl := Option.some.inj same
    refine ⟨_, (offsets _).mpr ⟨fits, rfl⟩, ?_⟩
    push_cast
    rfl

theorem CacheDims.objectAddress_iff {keyValue : Tensor}
    (shape : keyValue.shape =
      [2, dims.numLayers, numTokens, dims.numHeads * dims.headSize])
    (dtypeEq : keyValue.dtype = dtype) (keys values : List ℤ)
    {coordinate : KVCoordinate} (inObject : coordinate.InObject .split dims numTokens)
    (address : ℤ) :
    TransferCall.objectAddress coordinate
        (.asymmetric (dims.asymmetricLaunch dtype numTokens) keys values keyValue.dataPtr) =
          some address ↔
      ((coordinate.kOrV * dims.numLayers + coordinate.layer) * numTokens + coordinate.position) *
          (dims.numHeads * dims.headSize) + coordinate.element < 2147483648 ∧
        address = rowMajorAddress keyValue coordinate.objectIndex := by
  set row := (coordinate.kOrV * dims.numLayers + coordinate.layer) * numTokens +
    coordinate.position with rowEq
  have offsets (offset : ℤ) :
      keyValueOffset coordinate.kOrV coordinate.layer coordinate.position coordinate.element
          ((dims.numHeads * dims.headSize : ℕ) : ℤ) numTokens dims.numLayers = some offset ↔
        row * (dims.numHeads * dims.headSize) + coordinate.element < 2147483648 ∧
          offset = ((row * (dims.numHeads * dims.headSize) + coordinate.element : ℕ) : ℤ) :=
    keyValueOffset_eq (Nat.zero_lt_of_lt inObject.token) (Nat.zero_lt_of_lt inObject.element)
      offset
  have home : rowMajorAddress keyValue coordinate.objectIndex = keyValue.dataPtr +
      (((row * (dims.numHeads * dims.headSize) + coordinate.element) * dtype.itemsize : ℕ) :
        ℤ) := by
    have place : offset keyValue.shape coordinate.objectIndex =
        row * (dims.numHeads * dims.headSize) + coordinate.element := by
      rw [shape, KVCoordinate.objectIndex]
      simp only [offset_cons, offset_nil, List.prod_cons, List.prod_nil, rowEq]
      ring
    rw [rowMajorAddress, place, Tensor.elementSize, dtypeEq]
  rw [home, TransferCall.objectAddress, Option.map_eq_some_iff]
  constructor
  · rintro ⟨offset, defined, rfl⟩
    obtain ⟨fits, rfl⟩ := (offsets offset).mp defined
    refine ⟨fits, ?_⟩
    push_cast
    rfl
  · rintro ⟨fits, rfl⟩
    refine ⟨_, (offsets _).mpr ⟨fits, rfl⟩, ?_⟩
    push_cast
    rfl

theorem CacheDims.splitShape_prod (dims : CacheDims) (kOrV : ℕ) :
    (dims.splitShape kOrV).prod = dims.pageBufferSize * (dims.numHeads * dims.headSize) := by
  unfold CacheDims.splitShape CacheDims.pageBufferSize
  split
  · simp only [List.prod_cons, List.prod_nil]
    ring
  · simp only [List.prod_cons, List.prod_nil]
    ring

/-- All places of a layer are `int` values when their number is one. -/
theorem CacheDims.densePlace_fits_iff (someLayer : 0 < dims.numLayers) :
    (∀ coordinate : KVCoordinate, coordinate.InCache .split dims →
        dims.densePlace coordinate < 2147483648) ↔
      dims.pageBufferSize * (dims.numHeads * dims.headSize) ≤ 2147483648 := by
  constructor
  · intro fits
    rw [← dims.splitShape_prod 0, ← forall_offset_lt_iff]
    intro index inside
    simp only [CacheDims.splitShape, if_true] at inside
    obtain ⟨block, blockIn, head, headIn, slot, slotIn, element, elementIn, rfl⟩ :=
      exists_of_inRange_four inside
    have there := fits ⟨0, 0, block * dims.blockSize + slot, head * dims.headSize + element⟩
      ⟨someLayer, Nat.zero_lt_two, digit_lt blockIn slotIn, digit_lt headIn elementIn⟩
    rw [← dims.index_offset _ Nat.zero_lt_two] at there
    have same : CacheLayout.index dims
        ⟨0, 0, block * dims.blockSize + slot, head * dims.headSize + element⟩ .split =
          [block, head, slot, element] := by
      simp only [CacheLayout.index, if_true, digit_div slotIn, digit_mod slotIn,
        digit_div elementIn, digit_mod elementIn]
    rwa [same] at there
  · intro small coordinate inCache
    have below := offset_lt (CacheLayout.split_index inCache)
    rw [dims.index_offset coordinate inCache.half, dims.splitShape_prod] at below
    exact below.trans_le small

theorem CacheDims.object_fits_iff (dims : CacheDims) (numTokens : ℕ) :
    (∀ coordinate : KVCoordinate, coordinate.InObject .split dims numTokens →
        ((coordinate.kOrV * dims.numLayers + coordinate.layer) * numTokens +
          coordinate.position) * (dims.numHeads * dims.headSize) + coordinate.element <
            2147483648) ↔
      2 * dims.numLayers * numTokens * (dims.numHeads * dims.headSize) ≤ 2147483648 := by
  rw [← objectWords_fit_iff]
  constructor
  · intro fits kOrV layer token scalar half layerIn tokenIn scalarIn
    exact fits ⟨layer, kOrV, token, scalar⟩ ⟨layerIn, half, tokenIn, scalarIn⟩
  · intro fits coordinate inObject
    exact fits _ _ _ _ inObject.half inObject.layer inObject.token inObject.element

end Split

/-! ### The condition -/

/-- A call whose threads form row-major addresses where their steps fit is
row-major when all steps fit. -/
theorem TransferCall.rowMajor_addresses_iff {call : TransferCall} {kvCaches : KVCaches}
    {layout : CacheLayout} {dims : CacheDims} {dtype : DType} {keyValue : Tensor} {numTokens : ℕ}
    (inLayout : kvCaches.InLayout layout dims dtype) (addressable : kvCaches.Addressable)
    (shape : keyValue.shape =
      [layout.halves, dims.numLayers, numTokens, layout.rowElements dims])
    {cacheFits objectFits : KVCoordinate → Prop}
    (cache : ∀ coordinate : KVCoordinate, coordinate.InCache layout dims → ∀ address,
      call.cacheAddress coordinate = some address ↔
        cacheFits coordinate ∧ kvCaches.elementAddress layout dims coordinate = some address)
    (object : ∀ coordinate : KVCoordinate, coordinate.InObject layout dims numTokens →
      ∀ address, call.objectAddress coordinate = some address ↔
        objectFits coordinate ∧ address = rowMajorAddress keyValue coordinate.objectIndex) :
    call.RowMajor kvCaches layout dims keyValue numTokens ↔
      (∀ coordinate : KVCoordinate, coordinate.InCache layout dims → cacheFits coordinate) ∧
        ∀ coordinate : KVCoordinate, coordinate.InObject layout dims numTokens →
          objectFits coordinate := by
  constructor
  · intro rowMajor
    refine ⟨fun coordinate inCache => ?_, fun coordinate inObject => ?_⟩
    · obtain ⟨address, formed, _⟩ := rowMajor.cache coordinate inCache
      exact ((cache coordinate inCache address).mp formed).1
    · exact ((object coordinate inObject _).mp (rowMajor.object coordinate inObject)).1
  · rintro ⟨cacheFit, objectFit⟩
    have cacheEq (coordinate : KVCoordinate) (inCache : coordinate.InCache layout dims) :
        ∃ address, call.cacheAddress coordinate = some address ∧
          kvCaches.elementAddress layout dims coordinate = some address := by
      obtain ⟨tensor, there, _⟩ := inLayout.tensorAt inCache
      have home : kvCaches.elementAddress layout dims coordinate = some _ :=
        congrArg (Option.map _) there
      exact ⟨_, (cache coordinate inCache _).mpr ⟨cacheFit coordinate inCache, home⟩, home⟩
    have objectEq (coordinate : KVCoordinate)
        (inObject : coordinate.InObject layout dims numTokens) :
        call.objectAddress coordinate =
          some (rowMajorAddress keyValue coordinate.objectIndex) :=
      (object coordinate inObject _).mpr ⟨objectFit coordinate inObject, rfl⟩
    refine ⟨cacheEq, objectEq, ?_, ?_⟩
    · intro first second firstIn secondIn same
      obtain ⟨address, formed, home⟩ := cacheEq first firstIn
      obtain ⟨address', formed', home'⟩ := cacheEq second secondIn
      refine inLayout.elementAddress_inj addressable firstIn secondIn ?_
      rw [home, home', ← formed, ← formed', same]
    · intro first second firstIn secondIn same
      rw [objectEq first firstIn, objectEq second secondIn, Option.some.injEq] at same
      exact objectAddress_inj shape firstIn secondIn same

/-- All threads of a fused transfer stay in their types. -/
theorem GPUKVFormat.threads_fit_iff {format : GPUKVFormat} {dims : CacheDims} {dtype : DType}
    {numTokens : ℕ} (small : dtype.itemsize ≤ 8) (someLayer : 0 < dims.numLayers) :
    ((∀ coordinate : KVCoordinate, coordinate.InCache (.fused format) dims →
        format.StepsFit dims coordinate.kOrV coordinate.position
          (coordinate.element / (format.launchFor dims dtype numTokens).elementsPerWord)
          (wordsPerRow (format.rowElements dims) dtype.itemsize)) ↔
      format.PagesFit dims (wordsPerRow (format.rowElements dims) dtype.itemsize)) ∧
    ((∀ coordinate : KVCoordinate, coordinate.InObject (.fused format) dims numTokens →
        ((coordinate.kOrV * dims.numLayers + coordinate.layer) * numTokens +
            coordinate.position) * wordsPerRow (format.rowElements dims) dtype.itemsize +
          coordinate.element / (format.launchFor dims dtype numTokens).elementsPerWord <
            2147483648) ↔
      format.halves * dims.numLayers * numTokens *
        wordsPerRow (format.rowElements dims) dtype.itemsize ≤ 2147483648) := by
  obtain ⟨positive, _, row⟩ := copyWord_spec (format.rowElements dims) small
  -- The first element of a word stands for the word.
  have word (scalar : ℕ) :
      scalar * (copyWord (format.rowElements dims * dtype.itemsize) / dtype.itemsize) /
        (format.launchFor dims dtype numTokens).elementsPerWord = scalar :=
    Nat.mul_div_cancel scalar positive
  have elementIn {scalar : ℕ}
      (scalarIn : scalar < wordsPerRow (format.rowElements dims) dtype.itemsize) :
      scalar * (copyWord (format.rowElements dims * dtype.itemsize) / dtype.itemsize) <
        format.rowElements dims :=
    (Nat.mul_lt_mul_of_pos_right scalarIn positive).trans_eq row
  rw [← format.pagesFit_iff, ← objectWords_fit_iff]
  refine ⟨⟨?_, ?_⟩, ⟨?_, ?_⟩⟩
  · intro fits kOrV slot scalar half slotIn scalarIn
    have there := fits ⟨0, kOrV, slot, _⟩ ⟨someLayer, half, slotIn, elementIn scalarIn⟩
    rwa [word] at there
  · intro fits coordinate inCache
    exact fits _ _ _ inCache.half inCache.slot (format.word_lt numTokens small inCache.element)
  · intro fits kOrV layer token scalar half layerIn tokenIn scalarIn
    have there := fits ⟨layer, kOrV, token, _⟩ ⟨layerIn, half, tokenIn, elementIn scalarIn⟩
    rwa [word] at there
  · intro fits coordinate inObject
    exact fits _ _ _ _ inObject.half inObject.layer inObject.token
      (format.word_lt numTokens small inObject.element)

theorem multiLayerKvTransferAsymmetric_eq {keyValue : Tensor} {dims : CacheDims}
    {numTokens : ℕ} (shape : keyValue.shape =
      [2, dims.numLayers, numTokens, dims.numHeads * dims.headSize])
    (launch : AsymmetricLaunch) :
    multiLayerKvTransferAsymmetric keyValue numTokens dims.numHeads dims.headSize
        dims.blockSize = some launch ↔
      (isFloating keyValue.dtype = true ∧
        ∀ size ∈ [dims.numLayers, numTokens, dims.numHeads, dims.headSize, dims.blockSize,
          dims.numHeads * dims.headSize], size < 2147483648) ∧
      launch = dims.asymmetricLaunch keyValue.dtype numTokens := by
  have layers : keyValue.dim 1 = dims.numLayers := by simp [Tensor.dim, shape]
  unfold multiLayerKvTransferAsymmetric
  simp only [layers]
  constructor
  · intro launched
    split at launched
    · rename_i fits
      exact ⟨⟨fits.2, fits.1⟩, (Option.some.inj launched).symm⟩
    · cases launched
  · rintro ⟨⟨floating, fits⟩, rfl⟩
    exact if_pos ⟨fits, floating⟩

/-- **Addresses of the multi-layer transfers.** For a cache in any layout, with
the pointer tables that a connector has made for it, every step of the transfer
is defined and every address row-major exactly when the 32-bit products fit. -/
theorem PagedConnector.Prepares.rowMajor_iff {connector : PagedConnector} {kvCaches : KVCaches}
    {pointers : PagedPointers} {dims : CacheDims} {dtype : DType} {keyValue : Tensor}
    {numTokens : ℕ} (prepared : connector.Prepares kvCaches pointers)
    (inLayout : kvCaches.InLayout pointers.layout dims dtype)
    (addressable : kvCaches.Addressable)
    (shape : keyValue.shape =
      [pointers.layout.halves, dims.numLayers, numTokens, pointers.layout.rowElements dims])
    (sameType : keyValue.dtype = dtype) :
    (∃ call, transferCall pointers keyValue numTokens = some call ∧
      call.RowMajor kvCaches pointers.layout dims keyValue numTokens) ↔
        FitsInt pointers.layout dims dtype numTokens := by
  subst sameType
  cases pointers with
  | fused format table pageBufferSize blockSize =>
      have tables := prepared.fusedTable inLayout
      obtain rfl := tables.pageBufferSize
      obtain rfl := tables.blockSize
      have launches := multiLayerKvTransfer_eq shape format tables.handled dims.pageBufferSize
        (format.passedBlockSize dims)
      have addresses (small : keyValue.dtype.itemsize ≤ 8) :=
        (TransferCall.rowMajor_addresses_iff inLayout addressable shape
          (fun coordinate inCache address => tables.cacheAddress_iff numTokens addressable small
            keyValue.dataPtr inCache address)
          fun coordinate inObject address =>
            format.objectAddress_iff shape rfl small table inObject address).trans
          (and_congr (format.threads_fit_iff small tables.someLayer).1
            (format.threads_fit_iff small tables.someLayer).2)
      constructor
      · rintro ⟨call, called, rowMajor⟩
        obtain ⟨launch, launched, rfl⟩ := Option.map_eq_some_iff.mp called
        obtain ⟨small, sizes, rfl⟩ := (launches launch).mp launched
        obtain ⟨pages, object⟩ := (addresses small).mp rowMajor
        exact ⟨small, sizes, object, pages⟩
      · rintro ⟨small, sizes, object, pages⟩
        have launched := (launches _).mpr ⟨small, sizes, rfl⟩
        exact ⟨_, Option.map_eq_some_iff.mpr ⟨_, launched, rfl⟩,
          (addresses small).mpr ⟨pages, object⟩⟩
  | split keys values numHeads headSize blockSize =>
      have tables := prepared.splitTable inLayout
      obtain rfl := tables.numHeads
      obtain rfl := tables.headSize
      obtain rfl := tables.blockSize
      have launches := multiLayerKvTransferAsymmetric_eq shape
      have addresses := (TransferCall.rowMajor_addresses_iff inLayout addressable shape
          (fun coordinate inCache address => tables.cacheAddress_iff numTokens keyValue.dataPtr
            inCache address)
          fun coordinate inObject address =>
            dims.objectAddress_iff shape rfl keys values inObject address).trans
          (and_congr (dims.densePlace_fits_iff tables.someLayer)
            (dims.object_fits_iff numTokens))
      constructor
      · rintro ⟨call, called, rowMajor⟩
        obtain ⟨launch, launched, rfl⟩ := Option.map_eq_some_iff.mp called
        obtain ⟨⟨floating, sizes⟩, rfl⟩ := (launches launch).mp launched
        obtain ⟨pages, object⟩ := addresses.mp rowMajor
        exact ⟨floating, sizes, object, pages⟩
      · rintro ⟨floating, sizes, object, pages⟩
        have launched := (launches _).mpr ⟨⟨floating, sizes⟩, rfl⟩
        exact ⟨_, Option.map_eq_some_iff.mpr ⟨_, launched, rfl⟩,
          addresses.mpr ⟨pages, object⟩⟩

/-! ### A small and a large cache -/

/-- A dense half-precision tensor on the first device. -/
def denseHalf (storageBase : ℕ) (shape stride : List ℕ) (ranked : stride.length = shape.length)
    (last : lastPosition shape stride + 1 ≤ shape.prod) : Tensor where
  device := ⟨.cuda, some 0⟩
  dtype := .bfloat16
  storageBase := storageBase
  storageNbytes := shape.prod * 2
  storageOffset := 0
  shape := shape
  stride := stride
  ranked := ranked
  inStorage := fun _ => by
    rw [Nat.zero_add]
    exact Nat.mul_le_mul_right 2 last

/-- A flash-attention layer of two blocks of two tokens, with two heads of four elements. -/
def smallLayer (storageBase : ℕ) : Tensor :=
  denseHalf storageBase [2, 2, 2, 2, 4] [32, 16, 8, 4, 1] rfl (by decide)

/-- A flash-attention layer of 2^19 blocks of 16 tokens, with 8 heads of 128 elements. -/
def largeLayer : Tensor :=
  denseHalf 4096 [2, 524288, 16, 8, 128] [8589934592, 16384, 1024, 128, 1] rfl (by decide)

/-- The memory object of one token of two such small layers. -/
def smallObject : Tensor :=
  denseHalf 65536 [2, 2, 1, 8] [16, 8, 8, 1] rfl (by decide)

/-- The memory object of one token of the large layer. -/
def largeObject : Tensor :=
  denseHalf 68719476736 [2, 1, 1, 1024] [1024, 1024, 1024, 1] rfl (by decide)

theorem smallLayers_prepared :
    PagedConnector.Prepares ⟨2, 8, false, false, Nat.zero_lt_two⟩
      (.layers [smallLayer 4096, smallLayer 8192])
      (.fused .nlXTwoNbBsNhHs [4096, 8192] 4 2) :=
  .inl rfl

theorem smallLayers_inLayout :
    (KVCaches.layers [smallLayer 4096, smallLayer 8192]).InLayout (.fused .nlXTwoNbBsNhHs)
      ⟨2, 2, 2, 2, 4⟩ .bfloat16 :=
  ⟨rfl, .nlXTwoNbBsNhHs, rfl, by decide, by decide, by decide⟩

theorem smallLayers_rowMajor :
    ∃ call, transferCall (.fused .nlXTwoNbBsNhHs [4096, 8192] 4 2) smallObject 1 = some call ∧
      call.RowMajor (.layers [smallLayer 4096, smallLayer 8192]) (.fused .nlXTwoNbBsNhHs)
        ⟨2, 2, 2, 2, 4⟩ smallObject 1 :=
  (PagedConnector.Prepares.rowMajor_iff smallLayers_prepared smallLayers_inLayout
    ⟨by decide, by decide⟩ rfl rfl).mpr (by decide)

/-- **A large cache.** The offset of its first value is a product of 2^31 in `int`. -/
theorem not_rowMajor_largeLayer :
    PagedConnector.Prepares ⟨1, 1024, false, false, Nat.one_pos⟩ (.layers [largeLayer])
        (.fused .nlXTwoNbBsNhHs [4096] 8388608 16) ∧
      (KVCaches.layers [largeLayer]).InLayout (.fused .nlXTwoNbBsNhHs)
        ⟨1, 524288, 16, 8, 128⟩ .bfloat16 ∧
      (KVCaches.layers [largeLayer]).Addressable ∧
      ¬ ∃ call, transferCall (.fused .nlXTwoNbBsNhHs [4096] 8388608 16) largeObject 1 =
          some call ∧
        call.RowMajor (.layers [largeLayer]) (.fused .nlXTwoNbBsNhHs) ⟨1, 524288, 16, 8, 128⟩
          largeObject 1 := by
  refine ⟨.inl rfl, ⟨rfl, .nlXTwoNbBsNhHs, rfl, by decide, by decide, by decide⟩,
    ⟨by decide, by decide⟩, ?_⟩
  rintro ⟨call, called, rowMajor⟩
  rw [transferCall, Option.map_eq_some_iff] at called
  obtain ⟨launch, launched, rfl⟩ := called
  have launchEq := ((multiLayerKvTransfer_eq rfl .nlXTwoNbBsNhHs (by decide) 8388608 16
    launch).mp launched).2.2
  subst launchEq
  obtain ⟨address, formed, _⟩ := rowMajor.cache ⟨0, 1, 0, 0⟩
    ⟨by decide, by decide, by decide, by decide⟩
  have undefined : TransferCall.cacheAddress ⟨0, 1, 0, 0⟩ (.multiLayer
      ⟨.nlXTwoNbBsNhHs, 2, 8, 256, 1, 1, 8388608, 16⟩ [4096] largeObject.dataPtr) = none := by
    decide
  cases undefined.symm.trans formed

end LMCacheHcu.Kernels
