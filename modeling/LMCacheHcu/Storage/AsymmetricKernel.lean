import LMCacheHcu.Storage.Tensor

/-! # The staged path's kernel for asymmetric caches

The offsets that `load_and_reshape_multi_layer_kernel_asymmetric` computes, in
elements of the caches and of the logical chunk. The kernel computes with C
`int`; an offset is only defined when no step of its computation leaves the
range of that type.
-/

namespace LMCacheHcu.Storage

open RowMajor

/-- The value is a C `int`. -/
def IsInt (value : ℤ) : Prop := -2147483648 ≤ value ∧ value < 2147483648

instance (value : ℤ) : Decidable (IsInt value) := inferInstanceAs (Decidable (_ ∧ _))

/-- The result of a computation in `int`, given the value of each of its steps. -/
def intResult (steps : List ℤ) (result : ℤ) : Option ℤ :=
  if ∀ step ∈ steps, IsInt step then some result else none

/-- `key_value_offset`. -/
def keyValueOffset (kOrV layerIdx tokenIdx scalarOffset scalarsPerToken numTokens numLayers : ℤ) :
    Option ℤ :=
  let half := kOrV * numLayers * numTokens * scalarsPerToken
  let layer := layerIdx * numTokens * scalarsPerToken
  let token := tokenIdx * scalarsPerToken
  intResult [kOrV * numLayers, kOrV * numLayers * numTokens, half, layerIdx * numTokens, layer,
    token, half + layer, half + layer + token, half + layer + token + scalarOffset]
    (half + layer + token + scalarOffset)

/-- `page_buffer_offset_asymmetric`, called with a 64-bit slot. -/
def pageBufferOffsetAsymmetric (kOrV tokenIdx scalarOffset numHeads headSize blockSize : ℤ) :
    Option ℤ :=
  let headIdx := scalarOffset.tdiv headSize
  let headOffset := scalarOffset.tmod headSize
  let blockIdx := tokenIdx.tdiv blockSize
  let blockOffset := tokenIdx.tmod blockSize
  if kOrV = 0 then
    let block := blockIdx * numHeads * blockSize * headSize
    let head := headIdx * blockSize * headSize
    let slot := blockOffset * headSize
    intResult [tokenIdx, blockIdx * numHeads, blockIdx * numHeads * blockSize, block,
      headIdx * blockSize, head, slot, block + head, block + head + slot,
      block + head + slot + headOffset] (block + head + slot + headOffset)
  else
    let block := blockIdx * numHeads * headSize * blockSize
    let head := headIdx * headSize * blockSize
    let element := headOffset * blockSize
    intResult [tokenIdx, blockIdx * numHeads, blockIdx * numHeads * headSize, block,
      headIdx * headSize, head, element, block + head, block + head + element,
      block + head + element + blockOffset] (block + head + element + blockOffset)

/-- Steps that are natural numbers, none larger than the last, are defined when
the last one is. -/
theorem intResult_eq (steps : List ℕ) {last : ℕ} (listed : last ∈ steps)
    (largest : ∀ step ∈ steps, step ≤ last) (result : ℤ) :
    intResult (steps.map Nat.cast) last = some result ↔ last < 2147483648 ∧ result = last := by
  unfold intResult
  constructor
  · intro defined
    split at defined
    · rename_i inside
      have bound := (inside last (List.mem_map_of_mem listed)).2
      exact ⟨by omega, (Option.some.inj defined).symm⟩
    · cases defined
  · rintro ⟨bound, rfl⟩
    rw [if_pos]
    intro step member
    obtain ⟨value, inside, rfl⟩ := List.mem_map.mp member
    have small := largest value inside
    exact ⟨by omega, by omega⟩

/-- The logical offset of a scalar is its row-major position, defined when that
is an `int`. -/
theorem keyValueOffset_eq {kOrV layerIdx tokenIdx scalarOffset scalarsPerToken numTokens numLayers
      : ℕ} (tokens : 0 < numTokens) (scalars : 0 < scalarsPerToken) (result : ℤ) :
    keyValueOffset kOrV layerIdx tokenIdx scalarOffset scalarsPerToken numTokens numLayers =
        some result ↔
      ((kOrV * numLayers + layerIdx) * numTokens + tokenIdx) * scalarsPerToken + scalarOffset <
          2147483648 ∧
        result = ((((kOrV * numLayers + layerIdx) * numTokens + tokenIdx) * scalarsPerToken +
          scalarOffset : ℕ) : ℤ) := by
  have total : ((kOrV * numLayers + layerIdx) * numTokens + tokenIdx) * scalarsPerToken +
      scalarOffset = kOrV * numLayers * numTokens * scalarsPerToken +
        layerIdx * numTokens * scalarsPerToken + tokenIdx * scalarsPerToken + scalarOffset := by
    ring
  have halves := Nat.le_mul_of_pos_right (kOrV * numLayers) tokens
  have half := Nat.le_mul_of_pos_right (kOrV * numLayers * numTokens) scalars
  have layer := Nat.le_mul_of_pos_right (layerIdx * numTokens) scalars
  rw [total, ← intResult_eq [kOrV * numLayers, kOrV * numLayers * numTokens,
    kOrV * numLayers * numTokens * scalarsPerToken, layerIdx * numTokens,
    layerIdx * numTokens * scalarsPerToken, tokenIdx * scalarsPerToken,
    kOrV * numLayers * numTokens * scalarsPerToken + layerIdx * numTokens * scalarsPerToken,
    kOrV * numLayers * numTokens * scalarsPerToken + layerIdx * numTokens * scalarsPerToken +
      tokenIdx * scalarsPerToken,
    kOrV * numLayers * numTokens * scalarsPerToken + layerIdx * numTokens * scalarsPerToken +
      tokenIdx * scalarsPerToken + scalarOffset] (by simp) (by simp; omega)]
  simp only [keyValueOffset, List.map_cons, List.map_nil, Nat.cast_mul, Nat.cast_add]

/-- The offset of an element in a dense `K=[NB, NH, BS, HS]` or `V=[NB, NH, HS, BS]`. -/
def denseOffset (kOrV block head slot element numHeads headSize blockSize : ℕ) : ℕ :=
  if kOrV = 0 then
    block * numHeads * blockSize * headSize + head * blockSize * headSize + slot * headSize +
      element
  else
    block * numHeads * headSize * blockSize + head * headSize * blockSize + element * blockSize +
      slot

/-- The kernel's offset is the dense one, defined when that is an `int`. -/
theorem pageBufferOffsetAsymmetric_eq {kOrV block head slot element numHeads headSize blockSize : ℕ}
    (heads : 0 < numHeads) (slotIn : slot < blockSize) (elementIn : element < headSize)
    (result : ℤ) :
    pageBufferOffsetAsymmetric kOrV ((block * blockSize + slot : ℕ) : ℤ)
        ((head * headSize + element : ℕ) : ℤ) numHeads headSize blockSize = some result ↔
      denseOffset kOrV block head slot element numHeads headSize blockSize < 2147483648 ∧
        result = (denseOffset kOrV block head slot element numHeads headSize blockSize : ℤ) := by
  have sizes : 0 < headSize := Nat.zero_lt_of_lt elementIn
  have slots : 0 < blockSize := Nat.zero_lt_of_lt slotIn
  have headIdx : ((head * headSize + element : ℕ) : ℤ).tdiv headSize = head := by
    rw [← Int.ofNat_tdiv, Nat.mul_comm, Nat.mul_add_div sizes, Nat.div_eq_of_lt elementIn,
      Nat.add_zero]
  have headOffset : ((head * headSize + element : ℕ) : ℤ).tmod headSize = element := by
    rw [← Int.ofNat_tmod, Nat.mul_comm, Nat.mul_add_mod, Nat.mod_eq_of_lt elementIn]
  have blockIdx : ((block * blockSize + slot : ℕ) : ℤ).tdiv blockSize = block := by
    rw [← Int.ofNat_tdiv, Nat.mul_comm, Nat.mul_add_div slots, Nat.div_eq_of_lt slotIn,
      Nat.add_zero]
  have blockOffset : ((block * blockSize + slot : ℕ) : ℤ).tmod blockSize = slot := by
    rw [← Int.ofNat_tmod, Nat.mul_comm, Nat.mul_add_mod, Nat.mod_eq_of_lt slotIn]
  have byHeads := Nat.le_mul_of_pos_right block heads
  simp only [pageBufferOffsetAsymmetric, headIdx, headOffset, blockIdx, blockOffset, denseOffset,
    Nat.cast_eq_zero]
  split
  · have bySlots := Nat.le_mul_of_pos_right (block * numHeads) slots
    have bySizes := Nat.le_mul_of_pos_right (block * numHeads * blockSize) sizes
    have headBySizes := Nat.le_mul_of_pos_right (head * blockSize) sizes
    have slotBySizes := Nat.le_mul_of_pos_right slot sizes
    have token : block * blockSize ≤ block * numHeads * blockSize :=
      Nat.mul_le_mul_right blockSize byHeads
    rw [← intResult_eq [block * blockSize + slot, block * numHeads, block * numHeads * blockSize,
      block * numHeads * blockSize * headSize, head * blockSize, head * blockSize * headSize,
      slot * headSize, block * numHeads * blockSize * headSize + head * blockSize * headSize,
      block * numHeads * blockSize * headSize + head * blockSize * headSize + slot * headSize,
      block * numHeads * blockSize * headSize + head * blockSize * headSize + slot * headSize +
        element] (by simp) (by simp; omega)]
    simp only [List.map_cons, List.map_nil, Nat.cast_mul, Nat.cast_add]
  · have bySizes := Nat.le_mul_of_pos_right (block * numHeads) sizes
    have bySlots := Nat.le_mul_of_pos_right (block * numHeads * headSize) slots
    have headBySlots := Nat.le_mul_of_pos_right (head * headSize) slots
    have elementBySlots := Nat.le_mul_of_pos_right element slots
    have token : block * blockSize ≤ block * numHeads * headSize * blockSize :=
      Nat.mul_le_mul_right blockSize (byHeads.trans bySizes)
    rw [← intResult_eq [block * blockSize + slot, block * numHeads, block * numHeads * headSize,
      block * numHeads * headSize * blockSize, head * headSize, head * headSize * blockSize,
      element * blockSize, block * numHeads * headSize * blockSize + head * headSize * blockSize,
      block * numHeads * headSize * blockSize + head * headSize * blockSize + element * blockSize,
      block * numHeads * headSize * blockSize + head * headSize * blockSize + element * blockSize +
        slot] (by simp) (by simp; omega)]
    simp only [List.map_cons, List.map_nil, Nat.cast_mul, Nat.cast_add]

theorem denseOffset_key (block head slot element numHeads headSize blockSize : ℕ) :
    denseOffset 0 block head slot element numHeads headSize blockSize =
      ((block * numHeads + head) * blockSize + slot) * headSize + element := by
  rw [denseOffset, if_pos rfl]
  ring

theorem denseOffset_value (block head slot element numHeads headSize blockSize : ℕ) :
    denseOffset 1 block head slot element numHeads headSize blockSize =
      ((block * numHeads + head) * headSize + element) * blockSize + slot := by
  rw [denseOffset, if_neg Nat.one_ne_zero]
  ring

/-- The strides under which the elements of a block of a key cache and of a value
cache, whose head vectors are contiguous, lie where the kernel has them. -/
structure DenseBlock (block numHeads headSize blockSize : ℕ) (keyStride valueStride : ℕ × ℕ × ℕ) :
    Prop where
  blockStride : 0 < block → keyStride.1 = numHeads * blockSize * headSize ∧
    valueStride.1 = numHeads * headSize * blockSize
  headStride : 1 < numHeads → keyStride.2.1 = blockSize * headSize ∧
    valueStride.2.1 = headSize * blockSize
  tokenStride : 1 < blockSize → keyStride.2.2 = headSize ∧ valueStride.2.2 = 1
  elementStride : 1 < headSize → blockSize = 1

/-- The offset that strides give to an element of a contiguous head vector. -/
def stridedOffset (strides : ℕ × ℕ × ℕ) (block head slot element : ℕ) : ℕ :=
  block * strides.1 + head * strides.2.1 + slot * strides.2.2 + element

/-- The strides and the kernel agree on a block exactly when the block is dense
and its offsets are ints. -/
theorem denseBlock_iff {block numHeads headSize blockSize : ℕ} {keyStride valueStride : ℕ × ℕ × ℕ}
    (heads : 0 < numHeads) (sizes : 0 < headSize) (slots : 0 < blockSize) :
    (∀ head slot element, head < numHeads → slot < blockSize → element < headSize →
      (denseOffset 0 block head slot element numHeads headSize blockSize < 2147483648 ∧
        stridedOffset keyStride block head slot element =
          denseOffset 0 block head slot element numHeads headSize blockSize) ∧
      (denseOffset 1 block head slot element numHeads headSize blockSize < 2147483648 ∧
        stridedOffset valueStride block head slot element =
          denseOffset 1 block head slot element numHeads headSize blockSize)) ↔
      DenseBlock block numHeads headSize blockSize keyStride valueStride ∧
        (block + 1) * (numHeads * blockSize * headSize) ≤ 2147483648 := by
  simp only [denseOffset_key, denseOffset_value, stridedOffset]
  constructor
  · intro agree
    have first := agree 0 0 0 heads slots sizes
    simp only [Nat.zero_mul, Nat.add_zero] at first
    refine ⟨⟨fun positive => ?_, fun many => ?_, fun many => ?_, fun many => ?_⟩, ?_⟩
    · constructor
      · apply Nat.eq_of_mul_eq_mul_left positive
        rw [first.1.2]
        ring
      · apply Nat.eq_of_mul_eq_mul_left positive
        rw [first.2.2]
        ring
    · have second := agree 1 0 0 many slots sizes
      simp only [Nat.zero_mul, Nat.add_zero, Nat.one_mul, first.1.2, first.2.2] at second
      constructor
      · have key := second.1.2
        ring_nf at key ⊢
        omega
      · have value := second.2.2
        ring_nf at value ⊢
        omega
    · have second := agree 0 1 0 heads many sizes
      simp only [Nat.zero_mul, Nat.add_zero, Nat.one_mul, first.1.2, first.2.2] at second
      constructor
      · have key := second.1.2
        ring_nf at key
        omega
      · have value := second.2.2
        omega
    · have second := agree 0 0 1 heads slots many
      simp only [Nat.zero_mul, Nat.add_zero, first.2.2] at second
      have value := second.2.2
      ring_nf at value
      omega
    · have last := (agree (numHeads - 1) (blockSize - 1) (headSize - 1) (by omega) (by omega)
        (by omega)).1.1
      obtain ⟨heads', rfl⟩ := Nat.exists_eq_add_of_lt heads
      obtain ⟨sizes', rfl⟩ := Nat.exists_eq_add_of_lt sizes
      obtain ⟨slots', rfl⟩ := Nat.exists_eq_add_of_lt slots
      simp only [Nat.zero_add, Nat.add_sub_cancel] at last ⊢
      ring_nf at last ⊢
      omega
  · rintro ⟨⟨blockStride, headStride, tokenStride, elementStride⟩, bound⟩
    intro head slot element headIn slotIn elementIn
    have key := digit_lt (digit_lt (digit_lt block.lt_succ_self headIn) slotIn) elementIn
    have value := digit_lt (digit_lt (digit_lt block.lt_succ_self headIn) elementIn) slotIn
    have extent : (block + 1) * numHeads * blockSize * headSize ≤ 2147483648 := by
      rw [Nat.mul_assoc, Nat.mul_assoc]
      simpa only [Nat.mul_assoc] using bound
    have extent' : (block + 1) * numHeads * headSize * blockSize ≤ 2147483648 := by
      rw [Nat.mul_right_comm]
      exact extent
    have blocks : block * keyStride.1 = block * (numHeads * blockSize * headSize) ∧
        block * valueStride.1 = block * (numHeads * headSize * blockSize) := by
      rcases Nat.eq_zero_or_pos block with rfl | positive
      · simp
      · rw [(blockStride positive).1, (blockStride positive).2]
        exact ⟨rfl, rfl⟩
    have vectors : head * keyStride.2.1 = head * (blockSize * headSize) ∧
        head * valueStride.2.1 = head * (headSize * blockSize) := by
      rcases Nat.eq_zero_or_pos head with rfl | positive
      · simp
      · obtain ⟨keys, values⟩ := headStride (by omega)
        rw [keys, values]
        exact ⟨rfl, rfl⟩
    have tokens : slot * keyStride.2.2 = slot * headSize ∧ slot * valueStride.2.2 = slot := by
      rcases Nat.eq_zero_or_pos slot with rfl | positive
      · simp
      · obtain ⟨keys, values⟩ := tokenStride (by omega)
        rw [keys, values, Nat.mul_one]
        exact ⟨rfl, rfl⟩
    have elements : element * blockSize = element := by
      rcases Nat.eq_zero_or_pos element with rfl | positive
      · exact Nat.zero_mul _
      · rw [elementStride (by omega), Nat.mul_one]
    refine ⟨⟨key.trans_le extent, ?_⟩, value.trans_le extent', ?_⟩
    · rw [blocks.1, vectors.1, tokens.1]
      ring
    · rw [blocks.2, vectors.2, tokens.2, Nat.add_mul _ element, elements]
      ring

end LMCacheHcu.Storage
