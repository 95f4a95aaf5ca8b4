import LMCacheHcu.Kernels.PagedCache
import LMCacheHcu.Storage.AsymmetricKernel

/-! # The multi-layer transfer kernels

The launch of `multi_layer_kv_transfer` and of its asymmetric variant, and the
addresses that their threads form. The kernels compute partly with C `int` and
partly with `int64_t`; a value is only defined when no step of its computation
leaves the range of the type it is computed in.
-/

namespace LMCacheHcu.Kernels

open RowMajor Storage

/-! ### C arithmetic -/

/-- The value is an `int64_t`. -/
def IsLong (value : ℤ) : Prop :=
  -9223372036854775808 ≤ value ∧ value < 9223372036854775808

instance (value : ℤ) : Decidable (IsLong value) := inferInstanceAs (Decidable (_ ∧ _))

/-- The result of a computation, given the value of each of its steps in `int`
and of each of its steps in `int64_t`. -/
def cResult (ints longs : List ℤ) (result : ℤ) : Option ℤ :=
  if (∀ step ∈ ints, IsInt step) ∧ ∀ step ∈ longs, IsLong step then some result else none

/-- Steps that are natural numbers leave their types only upwards. -/
theorem cResult_eq (ints longs : List ℕ) (value : ℕ) (result : ℤ) :
    cResult (ints.map Nat.cast) (longs.map Nat.cast) value = some result ↔
      (∀ step ∈ ints, step < 2147483648) ∧ (∀ step ∈ longs, step < 9223372036854775808) ∧
        result = value := by
  unfold cResult
  constructor
  · intro defined
    split at defined
    · rename_i inside
      refine ⟨fun step member => ?_, fun step member => ?_, (Option.some.inj defined).symm⟩
      · have bound := (inside.1 step (List.mem_map_of_mem member)).2
        omega
      · have bound := (inside.2 step (List.mem_map_of_mem member)).2
        omega
    · cases defined
  · rintro ⟨small, long, rfl⟩
    rw [if_pos]
    constructor
    · intro step member
      obtain ⟨natural, inside, rfl⟩ := List.mem_map.mp member
      have bound := small natural inside
      exact ⟨by omega, by omega⟩
    · intro step member
      obtain ⟨natural, inside, rfl⟩ := List.mem_map.mp member
      have bound := long natural inside
      exact ⟨by omega, by omega⟩

/-! ### The kernels -/

/-- `page_buffer_offset`, for the formats that it has a branch for. -/
def pageBufferOffset (format : GPUKVFormat)
    (kOrV tokenIdx scalarOffset scalarsPerToken numLayers pageBufferSize blockSize : ℤ) :
    Option ℤ :=
  match format with
  | .nbNlTwoBsNhHs =>
      let block := tokenIdx.tdiv blockSize * numLayers * 2 * blockSize
      let half := kOrV * blockSize
      let row := block + half + tokenIdx.tmod blockSize
      cResult [] [tokenIdx.tdiv blockSize * numLayers, tokenIdx.tdiv blockSize * numLayers * 2,
        block, half, block + half, row, row * scalarsPerToken,
        row * scalarsPerToken + scalarOffset] (row * scalarsPerToken + scalarOffset)
  | .nlXTwoNbBsNhHs =>
      let half := kOrV * pageBufferSize * scalarsPerToken
      let token := tokenIdx * scalarsPerToken
      cResult [kOrV * pageBufferSize, half] [token, half + token, half + token + scalarOffset]
        (half + token + scalarOffset)
  | .nlXNbTwoBsNhHs =>
      let blockIdx := tokenIdx.tdiv blockSize
      let blockOffset := tokenIdx.tmod blockSize
      let block := blockIdx * 2 * blockSize * scalarsPerToken
      let half := kOrV * blockSize * scalarsPerToken
      let row := blockOffset * scalarsPerToken
      cResult [blockIdx, blockOffset, blockIdx * 2, blockIdx * 2 * blockSize, block,
        kOrV * blockSize, half, row, block + half, block + half + row,
        block + half + row + scalarOffset] [] (block + half + row + scalarOffset)
  | .nlXNbBsHs | .nlXNbbsOneHs =>
      let token := tokenIdx * scalarsPerToken
      cResult [] [token, token + scalarOffset] (token + scalarOffset)
  | .twoXNlXNbbsNhHs => none

/-- The bytes of the word that `multi_layer_kv_transfer` copies with. -/
def copyWord (copySize : ℕ) : ℕ :=
  if copySize % 8 = 0 then 8 else if copySize % 4 = 0 then 4 else if copySize % 2 = 0 then 2 else 1

/-- What a launch of `load_and_reshape_multi_layer_kernel` is given, and the
element size of the memory object. -/
structure MultiLayerLaunch where
  format : GPUKVFormat
  itemsize : ℕ
  wordBytes : ℕ
  scalarsPerToken : ℕ
  numTokens : ℕ
  numLayers : ℕ
  pageBufferSize : ℕ
  blockSize : ℕ
deriving DecidableEq, Repr

/-- `multi_layer_kv_transfer` up to the launch, for a memory object
`[2, NL, T, D]`. None where a size is not an `int`, where the word is smaller
than an element and the division by zero stops the program, and for a format
without a kernel. -/
def multiLayerKvTransfer (keyValue : Tensor) (format : GPUKVFormat)
    (pageBufferSize blockSize : ℕ) : Option MultiLayerLaunch :=
  let numOriginElements := keyValue.dim 3
  let copySize := numOriginElements * keyValue.elementSize
  let elementsPerXword := copyWord copySize / keyValue.elementSize
  if (∀ size ∈ [keyValue.dim 1, keyValue.dim 2, numOriginElements, copySize, pageBufferSize,
      blockSize], size < 2147483648) ∧ elementsPerXword ≠ 0 ∧ format ≠ .twoXNlXNbbsNhHs then
    some ⟨format, keyValue.elementSize, copyWord copySize, numOriginElements / elementsPerXword,
      keyValue.dim 2, keyValue.dim 1, pageBufferSize, blockSize⟩
  else none

/-- What a launch of `load_and_reshape_multi_layer_kernel_asymmetric` is given. -/
structure AsymmetricLaunch where
  itemsize : ℕ
  numTokens : ℕ
  numLayers : ℕ
  numHeads : ℕ
  headSize : ℕ
  blockSize : ℕ
deriving DecidableEq, Repr

/-- The element types that the asymmetric transfer is compiled for. -/
def isFloating : DType → Bool
  | .float16 | .bfloat16 | .float32 | .float64 => true
  | _ => false

/-- `multi_layer_kv_transfer_asymmetric` up to the launch. -/
def multiLayerKvTransferAsymmetric (keyValue : Tensor) (numSlots numHeads headSize blockSize : ℕ) :
    Option AsymmetricLaunch :=
  if (∀ size ∈ [keyValue.dim 1, numSlots, numHeads, headSize, blockSize, numHeads * headSize],
      size < 2147483648) ∧ isFloating keyValue.dtype = true then
    some ⟨keyValue.elementSize, numSlots, keyValue.dim 1, numHeads, headSize, blockSize⟩
  else none

/-- A layer, K or V, a position that is a slot or a token, and an element of the row. -/
structure KVCoordinate where
  layer : ℕ
  kOrV : ℕ
  position : ℕ
  element : ℕ
deriving DecidableEq, Repr

/-- A launch with the pointer tables and the memory object it is given. -/
inductive TransferCall
  | multiLayer (launch : MultiLayerLaunch) (table : List ℤ) (keyValue : ℤ)
  | asymmetric (launch : AsymmetricLaunch) (keys values : List ℤ) (keyValue : ℤ)
deriving DecidableEq, Repr

/-- The call of a connector: the fused pointers go to one transfer and the split
ones to the other. -/
def transferCall (pointers : PagedPointers) (keyValue : Tensor) (numSlots : ℕ) :
    Option TransferCall :=
  match pointers with
  | .fused format table pageBufferSize blockSize =>
      (multiLayerKvTransfer keyValue format pageBufferSize blockSize).map fun launch =>
        .multiLayer launch table keyValue.dataPtr
  | .split keys values numHeads headSize blockSize =>
      (multiLayerKvTransferAsymmetric keyValue numSlots numHeads headSize blockSize).map
        fun launch => .asymmetric launch keys values keyValue.dataPtr

namespace MultiLayerLaunch

variable (launch : MultiLayerLaunch)

/-- The elements of a word. -/
def elementsPerWord : ℕ := launch.wordBytes / launch.itemsize

/-- The byte distance of an element from a pointer, given the offset of its word. -/
def elementDistance (offset : ℤ) (element : ℕ) : ℤ :=
  offset * launch.wordBytes + ((element % launch.elementsPerWord * launch.itemsize : ℕ) : ℤ)

end MultiLayerLaunch

namespace TransferCall

/-- The address in the paged cache that a thread forms for an element. -/
def cacheAddress (coordinate : KVCoordinate) : TransferCall → Option ℤ
  | .multiLayer launch table _ =>
      (pageBufferOffset launch.format coordinate.kOrV coordinate.position
          ((coordinate.element / launch.elementsPerWord : ℕ) : ℤ) launch.scalarsPerToken
          launch.numLayers launch.pageBufferSize launch.blockSize).map fun offset =>
        table.getD coordinate.layer 0 + launch.elementDistance offset coordinate.element
  | .asymmetric launch keys values _ =>
      (pageBufferOffsetAsymmetric coordinate.kOrV coordinate.position coordinate.element
          launch.numHeads launch.headSize launch.blockSize).map fun offset =>
        (if coordinate.kOrV = 0 then keys else values).getD coordinate.layer 0 +
          offset * launch.itemsize

/-- The address in the memory object that a thread forms for an element. -/
def objectAddress (coordinate : KVCoordinate) : TransferCall → Option ℤ
  | .multiLayer launch _ keyValue =>
      (keyValueOffset coordinate.kOrV coordinate.layer coordinate.position
          ((coordinate.element / launch.elementsPerWord : ℕ) : ℤ) launch.scalarsPerToken
          launch.numTokens launch.numLayers).map fun offset =>
        keyValue + launch.elementDistance offset coordinate.element
  | .asymmetric launch _ _ keyValue =>
      (keyValueOffset coordinate.kOrV coordinate.layer coordinate.position coordinate.element
          ((launch.numHeads * launch.headSize : ℕ) : ℤ) launch.numTokens launch.numLayers).map
        fun offset => keyValue + offset * launch.itemsize

end TransferCall

/-! ### The words of a row -/

/-- The words of a row. -/
def wordsPerRow (rowElements itemsize : ℕ) : ℕ :=
  rowElements / (copyWord (rowElements * itemsize) / itemsize)

/-- The word that is chosen holds whole elements and divides the row. -/
theorem copyWord_spec (rowElements : ℕ) {dtype : DType} (small : dtype.itemsize ≤ 8) :
    0 < copyWord (rowElements * dtype.itemsize) / dtype.itemsize ∧
      copyWord (rowElements * dtype.itemsize) / dtype.itemsize * dtype.itemsize =
        copyWord (rowElements * dtype.itemsize) ∧
      wordsPerRow rowElements dtype.itemsize *
        (copyWord (rowElements * dtype.itemsize) / dtype.itemsize) = rowElements := by
  have sizes : dtype.itemsize = 1 ∨ dtype.itemsize = 2 ∨ dtype.itemsize = 4 ∨
      dtype.itemsize = 8 := by
    cases dtype <;> revert small <;> decide
  have divides : 0 < copyWord (rowElements * dtype.itemsize) / dtype.itemsize ∧
      copyWord (rowElements * dtype.itemsize) / dtype.itemsize * dtype.itemsize =
        copyWord (rowElements * dtype.itemsize) ∧
      copyWord (rowElements * dtype.itemsize) / dtype.itemsize ∣ rowElements := by
    unfold copyWord
    rcases sizes with one | two | four | eight
    · rw [one]
      split_ifs <;> refine ⟨by decide, by decide, Nat.dvd_of_mod_eq_zero (by omega)⟩
    · rw [two]
      split_ifs <;> refine ⟨?_, ?_, Nat.dvd_of_mod_eq_zero ?_⟩ <;> omega
    · rw [four]
      split_ifs <;> refine ⟨?_, ?_, Nat.dvd_of_mod_eq_zero ?_⟩ <;> omega
    · rw [eight]
      split_ifs <;> refine ⟨?_, ?_, Nat.dvd_of_mod_eq_zero ?_⟩ <;> omega
  exact ⟨divides.1, divides.2.1, Nat.div_mul_cancel divides.2.2⟩

/-- No word holds an element of sixteen bytes. -/
theorem copyWord_div_large (copySize : ℕ) {dtype : DType} (large : ¬ dtype.itemsize ≤ 8) :
    copyWord copySize / dtype.itemsize = 0 := by
  refine Nat.div_eq_of_lt ?_
  unfold copyWord
  split_ifs <;> omega

/-- The launch for a memory object, and when there is one. -/
theorem multiLayerKvTransfer_eq {keyValue : Tensor} {halves numLayers numTokens rowElements : ℕ}
    (shape : keyValue.shape = [halves, numLayers, numTokens, rowElements]) (format : GPUKVFormat)
    (handled : format ≠ .twoXNlXNbbsNhHs) (pageBufferSize blockSize : ℕ)
    (launch : MultiLayerLaunch) :
    multiLayerKvTransfer keyValue format pageBufferSize blockSize = some launch ↔
      keyValue.dtype.itemsize ≤ 8 ∧
        (∀ size ∈ [numLayers, numTokens, rowElements, rowElements * keyValue.dtype.itemsize,
          pageBufferSize, blockSize], size < 2147483648) ∧
        launch = ⟨format, keyValue.dtype.itemsize, copyWord (rowElements * keyValue.dtype.itemsize),
          wordsPerRow rowElements keyValue.dtype.itemsize, numTokens, numLayers, pageBufferSize,
          blockSize⟩ := by
  have layers : keyValue.dim 1 = numLayers := by simp [Tensor.dim, shape]
  have tokens : keyValue.dim 2 = numTokens := by simp [Tensor.dim, shape]
  have elements : keyValue.dim 3 = rowElements := by simp [Tensor.dim, shape]
  unfold multiLayerKvTransfer
  simp only [layers, tokens, elements, Tensor.elementSize]
  by_cases small : keyValue.dtype.itemsize ≤ 8
  · have positive := (copyWord_spec rowElements small).1
    constructor
    · intro launched
      split at launched
      · rename_i fits
        exact ⟨small, fits.1, (Option.some.inj launched).symm⟩
      · cases launched
    · rintro ⟨_, fits, rfl⟩
      exact if_pos ⟨fits, positive.ne', handled⟩
  · rw [if_neg fun fits => fits.2.1 (copyWord_div_large _ small)]
    constructor
    · intro launched
      cases launched
    · exact fun fits => absurd fits.1 small

/-! ### Offsets of rows -/

/-- The block size that a connector passes on. -/
def GPUKVFormat.passedBlockSize (format : GPUKVFormat) (dims : CacheDims) : ℕ :=
  if format = .nlXNbbsOneHs then 0 else dims.blockSize

/-- The number of rows between a layer's pointer and the row of a slot. -/
def GPUKVFormat.pointerRow (format : GPUKVFormat) (dims : CacheDims) (kOrV slot : ℕ) : ℕ :=
  match format with
  | .nbNlTwoBsNhHs =>
      slot / dims.blockSize * dims.numLayers * 2 * dims.blockSize + kOrV * dims.blockSize +
        slot % dims.blockSize
  | .nlXTwoNbBsNhHs => kOrV * dims.pageBufferSize + slot
  | .nlXNbTwoBsNhHs =>
      slot / dims.blockSize * 2 * dims.blockSize + kOrV * dims.blockSize + slot % dims.blockSize
  | .nlXNbBsHs | .twoXNlXNbbsNhHs | .nlXNbbsOneHs => slot

/-- What the offset of a word computes in `int`. -/
def GPUKVFormat.StepsFit (format : GPUKVFormat) (dims : CacheDims)
    (kOrV slot scalar scalarsPerToken : ℕ) : Prop :=
  match format with
  | .nlXTwoNbBsNhHs => kOrV * dims.pageBufferSize * scalarsPerToken < 2147483648
  | .nlXNbTwoBsNhHs =>
      format.pointerRow dims kOrV slot * scalarsPerToken + scalar < 2147483648
  | _ => True

/-- A block of no tokens has number zero. -/
theorem div_le_div_mul (slot blockSize factor : ℕ) :
    slot / blockSize * factor ≤ slot / blockSize * factor * blockSize := by
  rcases Nat.eq_zero_or_pos blockSize with none | slots
  · simp [none]
  · exact Nat.le_mul_of_pos_right _ slots

/-- **The offset of a word.** It is the word's place in the row of its slot,
defined when the steps in `int` fit and the place is an `int64_t`. -/
theorem pageBufferOffset_eq {format : GPUKVFormat} (handled : format ≠ .twoXNlXNbbsNhHs)
    (dims : CacheDims) (kOrV slot : ℕ) {scalar scalarsPerToken : ℕ}
    (scalarIn : scalar < scalarsPerToken) (result : ℤ) :
    pageBufferOffset format kOrV slot scalar scalarsPerToken dims.numLayers dims.pageBufferSize
        ((format.passedBlockSize dims : ℕ) : ℤ) = some result ↔
      format.StepsFit dims kOrV slot scalar scalarsPerToken ∧
        format.pointerRow dims kOrV slot * scalarsPerToken + scalar < 9223372036854775808 ∧
        result = ((format.pointerRow dims kOrV slot * scalarsPerToken + scalar : ℕ) : ℤ) := by
  have scalars : 0 < scalarsPerToken := Nat.zero_lt_of_lt scalarIn
  cases format with
  | nbNlTwoBsNhHs =>
      have byLayers := div_le_div_mul slot dims.blockSize (dims.numLayers * 2)
      rw [← Nat.mul_assoc] at byLayers
      set block := slot / dims.blockSize with blockEq
      set low := slot % dims.blockSize with lowEq
      have byScalars := Nat.le_mul_of_pos_right (block * dims.numLayers * 2 * dims.blockSize +
        kOrV * dims.blockSize + low) scalars
      have general := cResult_eq [] [block * dims.numLayers, block * dims.numLayers * 2,
        block * dims.numLayers * 2 * dims.blockSize, kOrV * dims.blockSize,
        block * dims.numLayers * 2 * dims.blockSize + kOrV * dims.blockSize,
        block * dims.numLayers * 2 * dims.blockSize + kOrV * dims.blockSize + low,
        (block * dims.numLayers * 2 * dims.blockSize + kOrV * dims.blockSize + low) *
          scalarsPerToken,
        (block * dims.numLayers * 2 * dims.blockSize + kOrV * dims.blockSize + low) *
          scalarsPerToken + scalar]
        ((block * dims.numLayers * 2 * dims.blockSize + kOrV * dims.blockSize + low) *
          scalarsPerToken + scalar) result
      have last : (∀ step ∈ [block * dims.numLayers, block * dims.numLayers * 2,
          block * dims.numLayers * 2 * dims.blockSize, kOrV * dims.blockSize,
          block * dims.numLayers * 2 * dims.blockSize + kOrV * dims.blockSize,
          block * dims.numLayers * 2 * dims.blockSize + kOrV * dims.blockSize + low,
          (block * dims.numLayers * 2 * dims.blockSize + kOrV * dims.blockSize + low) *
            scalarsPerToken,
          (block * dims.numLayers * 2 * dims.blockSize + kOrV * dims.blockSize + low) *
            scalarsPerToken + scalar], step < 9223372036854775808) ↔
          (block * dims.numLayers * 2 * dims.blockSize + kOrV * dims.blockSize + low) *
            scalarsPerToken + scalar < 9223372036854775808 := by
        simp only [List.forall_mem_cons, List.not_mem_nil, false_implies, implies_true, and_true]
        omega
      rw [last] at general
      simp only [List.not_mem_nil, false_implies, implies_true, true_and] at general
      simp only [pageBufferOffset, GPUKVFormat.passedBlockSize, reduceCtorEq, if_false,
        GPUKVFormat.StepsFit, GPUKVFormat.pointerRow, true_and, ← Int.ofNat_tdiv,
        ← Int.ofNat_tmod, ← blockEq, ← lowEq]
      rw [← general]
      simp only [List.map_cons, List.map_nil, Nat.cast_mul, Nat.cast_add, Nat.cast_ofNat]
  | nlXTwoNbBsNhHs =>
      have sum : (kOrV * dims.pageBufferSize + slot) * scalarsPerToken + scalar =
          kOrV * dims.pageBufferSize * scalarsPerToken + slot * scalarsPerToken + scalar := by
        ring
      have byScalars := Nat.le_mul_of_pos_right (kOrV * dims.pageBufferSize) scalars
      have general := cResult_eq [kOrV * dims.pageBufferSize,
        kOrV * dims.pageBufferSize * scalarsPerToken] [slot * scalarsPerToken,
        kOrV * dims.pageBufferSize * scalarsPerToken + slot * scalarsPerToken,
        kOrV * dims.pageBufferSize * scalarsPerToken + slot * scalarsPerToken + scalar]
        (kOrV * dims.pageBufferSize * scalarsPerToken + slot * scalarsPerToken + scalar) result
      have larger : (∀ step ∈ [kOrV * dims.pageBufferSize,
          kOrV * dims.pageBufferSize * scalarsPerToken], step < 2147483648) ↔
          kOrV * dims.pageBufferSize * scalarsPerToken < 2147483648 := by
        simp only [List.forall_mem_cons, List.not_mem_nil, false_implies, implies_true, and_true]
        omega
      have last : (∀ step ∈ [slot * scalarsPerToken,
          kOrV * dims.pageBufferSize * scalarsPerToken + slot * scalarsPerToken,
          kOrV * dims.pageBufferSize * scalarsPerToken + slot * scalarsPerToken + scalar],
            step < 9223372036854775808) ↔
          kOrV * dims.pageBufferSize * scalarsPerToken + slot * scalarsPerToken + scalar <
            9223372036854775808 := by
        simp only [List.forall_mem_cons, List.not_mem_nil, false_implies, implies_true, and_true]
        omega
      rw [larger, last] at general
      simp only [pageBufferOffset, GPUKVFormat.StepsFit, GPUKVFormat.pointerRow, sum]
      rw [← general]
      simp only [List.map_cons, List.map_nil, Nat.cast_mul, Nat.cast_add]
  | nlXNbTwoBsNhHs =>
      have bySlots := div_le_div_mul slot dims.blockSize 2
      set block := slot / dims.blockSize with blockEq
      set low := slot % dims.blockSize with lowEq
      have sum : (block * 2 * dims.blockSize + kOrV * dims.blockSize + low) * scalarsPerToken +
          scalar = block * 2 * dims.blockSize * scalarsPerToken +
            kOrV * dims.blockSize * scalarsPerToken + low * scalarsPerToken + scalar := by
        ring
      have blocks := Nat.le_mul_of_pos_right (block * 2 * dims.blockSize) scalars
      have halves := Nat.le_mul_of_pos_right (kOrV * dims.blockSize) scalars
      have lows := Nat.le_mul_of_pos_right low scalars
      have general := cResult_eq [block, low, block * 2, block * 2 * dims.blockSize,
        block * 2 * dims.blockSize * scalarsPerToken, kOrV * dims.blockSize,
        kOrV * dims.blockSize * scalarsPerToken, low * scalarsPerToken,
        block * 2 * dims.blockSize * scalarsPerToken + kOrV * dims.blockSize * scalarsPerToken,
        block * 2 * dims.blockSize * scalarsPerToken + kOrV * dims.blockSize * scalarsPerToken +
          low * scalarsPerToken,
        block * 2 * dims.blockSize * scalarsPerToken + kOrV * dims.blockSize * scalarsPerToken +
          low * scalarsPerToken + scalar] []
        (block * 2 * dims.blockSize * scalarsPerToken + kOrV * dims.blockSize * scalarsPerToken +
          low * scalarsPerToken + scalar) result
      have larger : (∀ step ∈ [block, low, block * 2, block * 2 * dims.blockSize,
          block * 2 * dims.blockSize * scalarsPerToken, kOrV * dims.blockSize,
          kOrV * dims.blockSize * scalarsPerToken, low * scalarsPerToken,
          block * 2 * dims.blockSize * scalarsPerToken + kOrV * dims.blockSize * scalarsPerToken,
          block * 2 * dims.blockSize * scalarsPerToken +
            kOrV * dims.blockSize * scalarsPerToken + low * scalarsPerToken,
          block * 2 * dims.blockSize * scalarsPerToken +
            kOrV * dims.blockSize * scalarsPerToken + low * scalarsPerToken + scalar],
          step < 2147483648) ↔
          block * 2 * dims.blockSize * scalarsPerToken +
            kOrV * dims.blockSize * scalarsPerToken + low * scalarsPerToken + scalar <
              2147483648 := by
        simp only [List.forall_mem_cons, List.not_mem_nil, false_implies, implies_true, and_true]
        omega
      rw [larger] at general
      simp only [List.not_mem_nil, false_implies, implies_true, true_and] at general
      simp only [pageBufferOffset, GPUKVFormat.passedBlockSize, reduceCtorEq, if_false,
        GPUKVFormat.StepsFit, GPUKVFormat.pointerRow, ← Int.ofNat_tdiv, ← Int.ofNat_tmod,
        ← blockEq, ← lowEq, sum]
      have long (place : ℕ) (small : place < 2147483648) : place < 9223372036854775808 :=
        small.trans (by decide)
      rw [← and_assoc, and_iff_left_of_imp (long _), ← general]
      simp only [List.map_cons, List.map_nil, Nat.cast_mul, Nat.cast_add, Nat.cast_ofNat]
  | nlXNbBsHs | nlXNbbsOneHs =>
      have general := cResult_eq [] [slot * scalarsPerToken, slot * scalarsPerToken + scalar]
        (slot * scalarsPerToken + scalar) result
      have last : (∀ step ∈ [slot * scalarsPerToken, slot * scalarsPerToken + scalar],
          step < 9223372036854775808) ↔ slot * scalarsPerToken + scalar < 9223372036854775808 := by
        simp only [List.forall_mem_cons, List.not_mem_nil, false_implies, implies_true, and_true]
        omega
      rw [last] at general
      simp only [List.not_mem_nil, false_implies, implies_true, true_and] at general
      simp only [pageBufferOffset, GPUKVFormat.StepsFit, GPUKVFormat.pointerRow, true_and]
      rw [← general]
      simp only [List.map_cons, List.map_nil, Nat.cast_mul, Nat.cast_add]
  | twoXNlXNbbsNhHs => exact absurd rfl handled

end LMCacheHcu.Kernels
