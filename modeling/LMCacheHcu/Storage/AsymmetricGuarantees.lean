import LMCacheHcu.Storage.AsymmetricKernel
import LMCacheHcu.Storage.AsymmetricPlan

/-! # Where the direct and the staged path have an asymmetric cache

The direct path follows the strides of the caches, the staged path's kernel
takes the caches for dense ones. The two agree on every element exactly when the
caches are dense where it matters; because the builder wants the value cache's
head vectors contiguous, that is never so for blocks of several tokens with head
vectors of several elements.
-/

namespace LMCacheHcu.Storage

open RowMajor ByteCopy

namespace AsymmetricPlan

variable (plan : AsymmetricPlan)

/-- The address at which the staged path's kernel has a row byte in the cache. -/
def kernelAddress (byte : RowByte) : Option ℤ :=
  (pageBufferOffsetAsymmetric byte.half (plan.slotMapping.getD byte.token 0)
    (byte.low / plan.elementSize : ℕ) plan.numHeads plan.headSize plan.blockSize).map
      fun offset => (plan.cacheOf byte.layer byte.half).dataPtr + offset * plan.elementSize +
        (byte.low % plan.elementSize : ℕ)

/-- The position at which the kernel has a row byte in the logical chunk. -/
def kernelPosition (byte : RowByte) : Option ℤ :=
  (keyValueOffset byte.half byte.layer (plan.chunkToken byte) (byte.low / plan.elementSize : ℕ)
    (plan.numHeads * plan.headSize : ℕ) plan.shape.numTokens plan.shape.numLayers).map
      fun offset => offset * plan.elementSize + (byte.low % plan.elementSize : ℕ)

/-- The direct path has every element where the staged path has it, so that a
staged store followed by a direct retrieve restores the caches. -/
structure AgreesWithStaged : Prop where
  /-- The address that the segments give to a byte of the file is the kernel's. -/
  addresses : ∀ byte, plan.Chosen byte → ∀ address,
    Moves plan.segmentCopies (plan.origin byte) address → plan.kernelAddress byte = some address
  /-- The kernel has the byte at its logical position in the chunk. -/
  positions : ∀ byte, plan.Chosen byte → plan.kernelPosition byte =
    some (plan.shape.logicalPosition byte.half byte.layer (plan.chunkToken byte) byte.low : ℤ)
  /-- A file with the chunk that the kernel read restores what it read. -/
  restored : ∀ (backend : XdsBackend) (file : FileImage) (scratchBase : ℤ)
    (stored before after : Memory) (chunk : Chunk),
    (∀ byte, plan.Chosen byte → ∀ address, plan.kernelAddress byte = some address →
      chunk byte.half byte.layer (plan.chunkToken byte) byte.low = stored address) →
    plan.shape.HoldsPayload file.content blockFirstHeaderSize chunk →
    backend.transferDirectXds file plan.descriptor scratchBase before = .ok after →
    ∀ byte, plan.Chosen byte → ∀ address, plan.kernelAddress byte = some address →
      after address = stored address

/-- The condition under which the caches and the chunk are what the kernel takes
them for. -/
structure DenseCaches : Prop where
  blockStride : ∀ token : ℕ, max plan.start plan.skipBefore ≤ token → (token : ℤ) < plan.stop →
    0 < plan.slotMapping.getD token 0 / plan.blockSize → ∀ pair ∈ plan.kvCaches,
      pair.1.strideOf 0 = plan.numHeads * plan.blockSize * plan.headSize ∧
        pair.2.strideOf 0 = plan.numHeads * plan.headSize * plan.blockSize
  headStride : 1 < plan.numHeads → ∀ pair ∈ plan.kvCaches,
    pair.1.strideOf 1 = plan.blockSize * plan.headSize ∧
      pair.2.strideOf 1 = plan.headSize * plan.blockSize
  tokenStride : 1 < plan.blockSize → ∀ pair ∈ plan.kvCaches,
    pair.1.strideOf 2 = plan.headSize ∧ pair.2.strideOf 3 = 1
  elementStride : 1 < plan.headSize → plan.blockSize = 1
  cacheInts : ∀ token : ℕ, max plan.start plan.skipBefore ≤ token → (token : ℤ) < plan.stop →
    (plan.slotMapping.getD token 0 / plan.blockSize + 1) *
      ((plan.numHeads * plan.blockSize * plan.headSize : ℕ) : ℤ) ≤ 2147483648
  chunkInts : 2 * plan.kvCaches.length * (plan.stop - plan.start) *
    ((plan.numHeads * plan.headSize : ℕ) : ℤ) ≤ 2147483648

/-! ### One row byte -/

/-- The strides of the key or value cache of a layer. -/
def strides (layer half : ℕ) : ℕ × ℕ × ℕ :=
  ((plan.cacheOf layer half).strideOf 0, (plan.cacheOf layer half).strideOf 1,
    plan.tokenStride layer half)

/-- The byte of an element of a head vector. -/
def elementByte (layer half token head element rest : ℕ) : RowByte where
  layer := layer
  half := half
  token := token
  low := (head * plan.headSize + element) * plan.elementSize + rest

/-- For one byte of one element, the addresses agree exactly when the offsets do. -/
theorem kernelAddress_elementByte {layer half token block slot head element rest : ℕ}
    (slotIn : slot < plan.blockSize) (elementIn : element < plan.headSize)
    (restIn : rest < plan.elementSize)
    (named : plan.slotMapping.getD token 0 = block * plan.blockSize + slot) :
    plan.kernelAddress (plan.elementByte layer half token head element rest) =
        some (plan.place (plan.elementByte layer half token head element rest)) ↔
      denseOffset half block head slot element plan.numHeads plan.headSize plan.blockSize <
          2147483648 ∧
        stridedOffset (plan.strides layer half) block head slot element =
          denseOffset half block head slot element plan.numHeads plan.headSize plan.blockSize := by
  obtain ⟨heads, _, sizes, _, _⟩ := plan.dims_pos
  have scalar : (plan.elementByte layer half token head element rest).low / plan.elementSize =
      head * plan.headSize + element := by
    rw [elementByte, Nat.mul_comm, Nat.mul_add_div sizes, Nat.div_eq_of_lt restIn, Nat.add_zero]
  have byteOf : (plan.elementByte layer half token head element rest).low % plan.elementSize =
      rest := by
    rw [elementByte, Nat.mul_comm, Nat.mul_add_mod, Nat.mod_eq_of_lt restIn]
  have inVector : element * plan.elementSize + rest < plan.headNbytes := digit_lt elementIn restIn
  have split : (plan.elementByte layer half token head element rest).low =
      head * plan.headNbytes + (element * plan.elementSize + rest) := by
    simp only [elementByte, headNbytes]
    ring
  have position := plan.place_eq (plan.elementByte layer half token head element rest) slotIn
    inVector named split
  have slotEq : plan.slotMapping.getD token 0 = ((block * plan.blockSize + slot : ℕ) : ℤ) := by
    rw [named]
    push_cast
    rfl
  rw [kernelAddress, scalar, byteOf, position]
  simp only [elementByte, Option.map_eq_some_iff, slotEq,
    pageBufferOffsetAsymmetric_eq heads slotIn elementIn]
  have place : plan.stridedPlace layer half block slot head (element * plan.elementSize + rest) =
      (plan.cacheOf layer half).dataPtr +
        (stridedOffset (plan.strides layer half) block head slot element : ℤ) * plan.elementSize +
          rest := by
    rw [stridedPlace, stridedOffset, strides]
    push_cast
    ring
  rw [place]
  constructor
  · rintro ⟨offset, ⟨bound, rfl⟩, same⟩
    have offsets : (denseOffset half block head slot element plan.numHeads plan.headSize
        plan.blockSize : ℤ) * plan.elementSize =
          stridedOffset (plan.strides layer half) block head slot element * plan.elementSize := by
      omega
    exact ⟨bound, (Int.ofNat.inj (mul_right_cancel₀ (by omega) offsets)).symm⟩
  · rintro ⟨bound, same⟩
    exact ⟨_, ⟨bound, rfl⟩, by rw [same]⟩

/-! ### Tokens and blocks -/

/-- The tokens that are retrieved. -/
def Uncached (token : ℕ) : Prop :=
  max plan.start plan.skipBefore ≤ token ∧ (token : ℤ) < plan.stop

/-- An uncached token is in a physical block whose slots all belong to uncached tokens. -/
theorem exists_block {token : ℕ} (uncached : plan.Uncached token) :
    ∃ block slot : ℕ, slot < plan.blockSize ∧
      plan.slotMapping.getD token 0 = block * plan.blockSize + slot ∧
      ∀ slot' < plan.blockSize, ∃ token', plan.Uncached token' ∧
        plan.slotMapping.getD token' 0 = block * plan.blockSize + slot' := by
  obtain ⟨_, _, physicalBlocks, chunk⟩ := plan.spec
  obtain ⟨nonneg, _, latest⟩ := skipTokens_spec plan.nonempty chunk.uncached
  have startNonneg := plan.start_nonneg
  obtain ⟨above, below⟩ := uncached
  have whole : (plan.stop - (plan.start + skipTokens plan.skipBefore plan.start plan.stop)) %
      plan.blockSize = 0 := by
    rw [← sub_sub]
    exact Int.emod_eq_zero_of_dvd (dvd_sub (Int.dvd_of_emod_eq_zero chunk.whole)
      (Int.dvd_of_emod_eq_zero chunk.aligned))
  obtain ⟨index, slot, physical, here, slotIn, _, named⟩ := chunk.blocksOf.token_block
    (by omega) plan.covered whole (latest.trans_le above) below
  obtain ⟨block, rfl⟩ :=
    Int.eq_ofNat_of_zero_le (chunk.blocksOf.inRange physical (List.mem_of_getElem? here)).1
  refine ⟨block, slot, slotIn, named, fun slot' slotIn' => ?_⟩
  obtain ⟨token', reach, below', named'⟩ := chunk.blocksOf.block_token (by omega) plan.covered here
    slotIn'
  exact ⟨token', ⟨by omega, below'⟩, named'⟩

theorem block_of_named {token block slot : ℕ} (slotIn : slot < plan.blockSize)
    (named : plan.slotMapping.getD token 0 = block * plan.blockSize + slot) :
    plan.slotMapping.getD token 0 / plan.blockSize = block := by
  rw [named, add_comm, Int.add_mul_ediv_right _ _ (by omega),
    Int.ediv_eq_zero_of_lt (by omega) (by omega), zero_add]

/-- Row bytes with one origin are one byte. -/
theorem eq_of_origin {left right : RowByte} (chosen : plan.Chosen left)
    (chosen' : plan.Chosen right) (same : plan.origin left = plan.origin right) : left = right := by
  obtain ⟨layerIn, halfIn, above, _, lowIn⟩ := chosen
  obtain ⟨layerIn', halfIn', above', _, lowIn'⟩ := chosen'
  have slots := plan.dims_pos.2.2.2.1
  obtain ⟨blocks, layers, halves, offsets, lows⟩ := plan.shape.payloadPosition_inj layerIn layerIn'
    halfIn halfIn' (Nat.mod_lt _ slots) (Nat.mod_lt _ slots) lowIn lowIn'
    (Int.ofNat.inj (add_left_cancel same))
  change plan.chunkToken left % plan.blockSize = plan.chunkToken right % plan.blockSize at offsets
  have tokens : plan.chunkToken left = plan.chunkToken right := by
    rw [← Nat.div_add_mod (plan.chunkToken left) plan.blockSize,
      ← Nat.div_add_mod (plan.chunkToken right) plan.blockSize, blocks, offsets]
  have startNonneg := plan.start_nonneg
  obtain ⟨layer, half, token, low⟩ := left
  obtain ⟨layer', half', token', low'⟩ := right
  simp only [chunkToken] at *
  simp only [RowByte.mk.injEq]
  exact ⟨layers, halves, by omega, lows⟩

/-- The segments give each byte of the file one address. -/
theorem addresses_iff_place :
    (∀ byte, plan.Chosen byte → ∀ address, Moves plan.segmentCopies (plan.origin byte) address →
      plan.kernelAddress byte = some address) ↔
      ∀ byte, plan.Chosen byte → plan.kernelAddress byte = some (plan.place byte) := by
  constructor
  · intro addresses byte chosen
    exact addresses byte chosen _ ((plan.moves_segments _ _).mpr ⟨byte, chosen, rfl, rfl⟩)
  · intro places byte chosen address moved
    obtain ⟨other, chosen', rfl, same⟩ := (plan.moves_segments _ _).mp moved
    rw [plan.eq_of_origin chosen chosen' same]
    exact places other chosen'

/-- Agreement on all row bytes, block by block and layer by layer. -/
theorem places_iff_denseBlocks :
    (∀ byte, plan.Chosen byte → plan.kernelAddress byte = some (plan.place byte)) ↔
      ∀ token block slot layer : ℕ, plan.Uncached token → slot < plan.blockSize →
        plan.slotMapping.getD token 0 = block * plan.blockSize + slot →
        layer < plan.kvCaches.length →
          DenseBlock block plan.numHeads plan.headSize plan.blockSize (plan.strides layer 0)
              (plan.strides layer 1) ∧
            (block + 1) * (plan.numHeads * plan.blockSize * plan.headSize) ≤ 2147483648 := by
  obtain ⟨heads, sizes, bytes, slots, _⟩ := plan.dims_pos
  constructor
  · intro places token block slot layer uncached slotIn named layerIn
    obtain ⟨block', _, slotIn', named', all⟩ := plan.exists_block uncached
    have same : block = block' := by
      have quotient := plan.block_of_named slotIn named
      rw [plan.block_of_named slotIn' named'] at quotient
      exact_mod_cast quotient.symm
    subst same
    apply (denseBlock_iff heads sizes slots).mp
    intro head slot element headIn slotIn elementIn
    obtain ⟨token, uncached, named⟩ := all slot slotIn
    have lowIn : (head * plan.headSize + element) * plan.elementSize + 0 <
        plan.shape.rowNbytes := digit_lt (digit_lt headIn elementIn) bytes
    exact ⟨(plan.kernelAddress_elementByte slotIn elementIn bytes named).mp
        (places (plan.elementByte layer 0 token head element 0)
          ⟨layerIn, Nat.two_pos, uncached.1, uncached.2, lowIn⟩),
      (plan.kernelAddress_elementByte slotIn elementIn bytes named).mp
        (places (plan.elementByte layer 1 token head element 0)
          ⟨layerIn, Nat.one_lt_two, uncached.1, uncached.2, lowIn⟩)⟩
  · rintro dense ⟨layer, half, token, low⟩ ⟨layerIn, halfIn, above, below, lowIn⟩
    obtain ⟨block, slot, slotIn, named, _⟩ := plan.exists_block ⟨above, below⟩
    obtain ⟨outer, rest, outerIn, restIn, rfl⟩ := exists_digit lowIn
    obtain ⟨head, element, headIn, elementIn, rfl⟩ := exists_digit outerIn
    have agree := (denseBlock_iff heads sizes slots).mpr
      (dense token block slot layer ⟨above, below⟩ slotIn named layerIn) head slot element headIn
        slotIn elementIn
    apply (plan.kernelAddress_elementByte slotIn elementIn restIn named).mpr
    have halves : half = 0 ∨ half = 1 := by
      simp only at halfIn
      omega
    rcases halves with rfl | rfl
    · exact agree.1
    · exact agree.2

/-! ### The condition -/

theorem exists_uncached : ∃ token, plan.Uncached token := by
  obtain ⟨_, _, _, chunk⟩ := plan.spec
  obtain ⟨_, below, latest⟩ := skipTokens_spec plan.nonempty chunk.uncached
  have startNonneg := plan.start_nonneg
  exact ⟨(max plan.start plan.skipBefore).toNat, by omega, by omega⟩

theorem strides_of_pair {layer : ℕ} {pair : Tensor × Tensor}
    (here : plan.kvCaches[layer]? = some pair) :
    plan.strides layer 0 = (pair.1.strideOf 0, pair.1.strideOf 1, pair.1.strideOf 2) ∧
      plan.strides layer 1 = (pair.2.strideOf 0, pair.2.strideOf 1, pair.2.strideOf 3) := by
  simp [strides, tokenStride, cacheOf, List.getD_eq_getElem?_getD, here]

/-- Agreement on all row bytes, in terms of the strides of the caches. -/
theorem places_iff_strides :
    (∀ byte, plan.Chosen byte → plan.kernelAddress byte = some (plan.place byte)) ↔
      (∀ token : ℕ, max plan.start plan.skipBefore ≤ token → (token : ℤ) < plan.stop →
        0 < plan.slotMapping.getD token 0 / plan.blockSize → ∀ pair ∈ plan.kvCaches,
          pair.1.strideOf 0 = plan.numHeads * plan.blockSize * plan.headSize ∧
            pair.2.strideOf 0 = plan.numHeads * plan.headSize * plan.blockSize) ∧
      (1 < plan.numHeads → ∀ pair ∈ plan.kvCaches,
        pair.1.strideOf 1 = plan.blockSize * plan.headSize ∧
          pair.2.strideOf 1 = plan.headSize * plan.blockSize) ∧
      (1 < plan.blockSize → ∀ pair ∈ plan.kvCaches,
        pair.1.strideOf 2 = plan.headSize ∧ pair.2.strideOf 3 = 1) ∧
      (1 < plan.headSize → plan.blockSize = 1) ∧
      ∀ token : ℕ, max plan.start plan.skipBefore ≤ token → (token : ℤ) < plan.stop →
        (plan.slotMapping.getD token 0 / plan.blockSize + 1) *
          ((plan.numHeads * plan.blockSize * plan.headSize : ℕ) : ℤ) ≤ 2147483648 := by
  rw [plan.places_iff_denseBlocks]
  constructor
  · intro dense
    have ofPair : ∀ (token : ℕ), plan.Uncached token → ∀ pair ∈ plan.kvCaches, ∃ block : ℕ,
        plan.slotMapping.getD token 0 / plan.blockSize = block ∧
          DenseBlock block plan.numHeads plan.headSize plan.blockSize
            (pair.1.strideOf 0, pair.1.strideOf 1, pair.1.strideOf 2)
            (pair.2.strideOf 0, pair.2.strideOf 1, pair.2.strideOf 3) ∧
          (block + 1) * (plan.numHeads * plan.blockSize * plan.headSize) ≤ 2147483648 := by
      intro token uncached pair member
      obtain ⟨block, slot, slotIn, named, _⟩ := plan.exists_block uncached
      obtain ⟨layer, here⟩ := List.mem_iff_getElem?.mp member
      have layerIn := (List.getElem?_eq_some_iff.mp here).1
      have blockDense := dense token block slot layer uncached slotIn named layerIn
      rw [(plan.strides_of_pair here).1, (plan.strides_of_pair here).2] at blockDense
      exact ⟨block, plan.block_of_named slotIn named, blockDense⟩
    obtain ⟨first, uncached⟩ := plan.exists_uncached
    refine ⟨?_, ?_, ?_, ?_, ?_⟩
    · intro token above below positive pair member
      obtain ⟨block, named, blockDense, _⟩ := ofPair token ⟨above, below⟩ pair member
      exact blockDense.blockStride (by omega)
    · intro many pair member
      obtain ⟨block, _, blockDense, _⟩ := ofPair first uncached pair member
      exact blockDense.headStride many
    · intro many pair member
      obtain ⟨block, _, blockDense, _⟩ := ofPair first uncached pair member
      exact blockDense.tokenStride many
    · intro many
      obtain ⟨block, _, blockDense, _⟩ := ofPair first uncached _ (List.mem_cons_self ..)
      exact blockDense.elementStride many
    · intro token above below
      obtain ⟨block, named, _, bound⟩ := ofPair token ⟨above, below⟩ _ (List.mem_cons_self ..)
      rw [named]
      exact_mod_cast bound
  · rintro ⟨blockStride, headStride, tokenStride, elementStride, ints⟩
    intro token block slot layer uncached slotIn named layerIn
    have here := List.getElem?_eq_getElem layerIn
    have member := List.mem_of_getElem? here
    have quotient := plan.block_of_named slotIn named
    rw [(plan.strides_of_pair here).1, (plan.strides_of_pair here).2]
    refine ⟨⟨fun positive => ?_, fun many => headStride many _ member,
      fun many => tokenStride many _ member, elementStride⟩, ?_⟩
    · exact blockStride token uncached.1 uncached.2 (by omega) _ member
    · have bound := ints token uncached.1 uncached.2
      rw [quotient] at bound
      exact_mod_cast bound

theorem numTokens_eq : ((plan.shape.numTokens : ℕ) : ℤ) = plan.stop - plan.start := by
  obtain ⟨_, _, _, chunk⟩ := plan.spec
  have nonempty := plan.nonempty
  have whole := Int.ediv_mul_cancel (Int.dvd_of_emod_eq_zero chunk.whole)
  simp only [ChunkShape.numTokens, shape, asymmetricShape]
  push_cast
  rw [Int.toNat_of_nonneg (Int.ediv_nonneg (by omega) (by omega)), whole]

/-- The kernel has all row bytes at their logical positions exactly when the
positions of the chunk's scalars are ints. -/
theorem positions_iff :
    (∀ byte, plan.Chosen byte → plan.kernelPosition byte =
      some (plan.shape.logicalPosition byte.half byte.layer (plan.chunkToken byte) byte.low : ℤ)) ↔
      2 * plan.kvCaches.length * (plan.stop - plan.start) *
        ((plan.numHeads * plan.headSize : ℕ) : ℤ) ≤ 2147483648 := by
  obtain ⟨heads, sizes, bytes, _, layers⟩ := plan.dims_pos
  have scalars : 0 < plan.numHeads * plan.headSize := Nat.mul_pos heads sizes
  have tokens := plan.numTokens_eq
  have nonempty := plan.nonempty
  have startNonneg := plan.start_nonneg
  have each : ∀ byte : RowByte, plan.kernelPosition byte =
      some (plan.shape.logicalPosition byte.half byte.layer (plan.chunkToken byte) byte.low : ℤ) ↔
        ((byte.half * plan.shape.numLayers + byte.layer) * plan.shape.numTokens +
          plan.chunkToken byte) * (plan.numHeads * plan.headSize) + byte.low / plan.elementSize <
            2147483648 := by
    intro byte
    have position : plan.shape.logicalPosition byte.half byte.layer (plan.chunkToken byte)
        byte.low = (((byte.half * plan.shape.numLayers + byte.layer) * plan.shape.numTokens +
          plan.chunkToken byte) * (plan.numHeads * plan.headSize) + byte.low / plan.elementSize) *
            plan.elementSize + byte.low % plan.elementSize := by
      have low := Nat.div_add_mod' byte.low plan.elementSize
      rw [ChunkShape.logicalPosition, plan.rowNbytes_eq, headNbytes]
      generalize byte.low / plan.elementSize = scalar at *
      generalize byte.low % plan.elementSize = rest at *
      rw [← low]
      ring
    rw [kernelPosition, Option.map_eq_some_iff, position]
    simp only [keyValueOffset_eq (show 0 < plan.shape.numTokens by omega) scalars]
    constructor
    · rintro ⟨_, ⟨bound, _⟩, _⟩
      exact bound
    · intro bound
      exact ⟨_, ⟨bound, rfl⟩, by push_cast; rfl⟩
  simp only [each]
  constructor
  · intro all
    have last := all ⟨plan.kvCaches.length - 1, 1, (plan.stop - 1).toNat,
      (plan.numHeads * plan.headSize - 1) * plan.elementSize⟩ ?_
    · have chunkToken : plan.chunkToken ⟨plan.kvCaches.length - 1, 1, (plan.stop - 1).toNat,
          (plan.numHeads * plan.headSize - 1) * plan.elementSize⟩ = plan.shape.numTokens - 1 := by
        simp only [AsymmetricPlan.chunkToken]
        omega
      have layerCount : plan.shape.numLayers = plan.kvCaches.length := rfl
      rw [chunkToken, layerCount, Nat.mul_div_cancel _ bytes] at last
      rw [← tokens]
      obtain ⟨layers', layersEq⟩ := Nat.exists_eq_add_of_lt layers
      obtain ⟨tokens', tokensEq⟩ :=
        Nat.exists_eq_add_of_lt (show 0 < plan.shape.numTokens by omega)
      obtain ⟨scalars', scalarsEq⟩ := Nat.exists_eq_add_of_lt scalars
      rw [layersEq, tokensEq, scalarsEq] at last ⊢
      simp only [Nat.zero_add, Nat.add_sub_cancel] at last ⊢
      have bound : 2 * (layers' + 1) * (tokens' + 1) * (scalars' + 1) ≤ 2147483648 := by
        ring_nf at last ⊢
        omega
      exact_mod_cast bound
    · refine ⟨by simp only; omega, Nat.one_lt_two, ?_, ?_, ?_⟩
      · obtain ⟨token, uncached⟩ := plan.exists_uncached
        have above := uncached.1
        have below := uncached.2
        simp only
        omega
      · simp only
        omega
      · rw [plan.rowNbytes_eq, headNbytes, ← Nat.mul_assoc]
        exact Nat.mul_lt_mul_of_pos_right (by omega) bytes
  · rintro bound ⟨layer, half, token, low⟩ ⟨layerIn, halfIn, above, below, lowIn⟩
    have scalarIn : low / plan.elementSize < plan.numHeads * plan.headSize := by
      rw [plan.rowNbytes_eq, headNbytes, ← Nat.mul_assoc] at lowIn
      exact Nat.div_lt_of_lt_mul (by rwa [Nat.mul_comm] at lowIn)
    have tokenIn : plan.chunkToken ⟨layer, half, token, low⟩ < plan.shape.numTokens := by
      simp only [chunkToken] at above below ⊢
      omega
    have inside := digit_lt (digit_lt (digit_lt halfIn layerIn) tokenIn) scalarIn
    refine inside.trans_le ?_
    rw [← tokens] at bound
    exact_mod_cast bound

/-! ### The staged store and the direct retrieve -/

theorem chunkToken_lt {byte : RowByte} (chosen : plan.Chosen byte) :
    plan.chunkToken byte < plan.shape.numTokens := by
  have tokens := plan.numTokens_eq
  have nonempty := plan.nonempty
  obtain ⟨_, _, above, below, _⟩ := chosen
  rw [chunkToken]
  omega

theorem file_origin {file : FileImage} {chunk : Chunk}
    (held : plan.shape.HoldsPayload file.content blockFirstHeaderSize chunk) {byte : RowByte}
    (chosen : plan.Chosen byte) : file.content (plan.origin byte) =
      chunk byte.half byte.layer (plan.chunkToken byte) byte.low := by
  have tokenIn := plan.chunkToken_lt chosen
  have slots := plan.dims_pos.2.2.2.1
  obtain ⟨layerIn, halfIn, _, _, lowIn⟩ := chosen
  have blockIn : plan.chunkToken byte / plan.blockSize < plan.shape.chunkBlocks := by
    apply Nat.div_lt_of_lt_mul
    rwa [Nat.mul_comm]
  have read := held _ _ _ _ _ blockIn layerIn halfIn
    (Nat.mod_lt (plan.chunkToken byte) slots) lowIn
  have token : plan.chunkToken byte / plan.blockSize * plan.shape.blockSize +
      plan.chunkToken byte % plan.shape.blockSize = plan.chunkToken byte :=
    Nat.div_add_mod' _ _
  rw [token] at read
  exact read

/-- Where the addresses agree, the retrieve puts back what the store has read. -/
theorem restored_of_places
    (places : ∀ byte, plan.Chosen byte → plan.kernelAddress byte = some (plan.place byte))
    {backend : XdsBackend} {file : FileImage} {scratchBase : ℤ} {stored before after : Memory}
    {chunk : Chunk}
    (read : ∀ byte, plan.Chosen byte → ∀ address, plan.kernelAddress byte = some address →
      chunk byte.half byte.layer (plan.chunkToken byte) byte.low = stored address)
    (held : plan.shape.HoldsPayload file.content blockFirstHeaderSize chunk)
    (transferred : backend.transferDirectXds file plan.descriptor scratchBase before = .ok after)
    {byte : RowByte} (chosen : plan.Chosen byte) {address : ℤ}
    (named : plan.kernelAddress byte = some address) : after address = stored address := by
  obtain ⟨_, _, _, planned⟩ := plan.spec
  have written := backend.transferDirect_segments
    (congrArg DirectIODescriptor.runs planned.descriptor_eq)
    (congrArg DirectIODescriptor.leadingEdge planned.descriptor_eq) transferred
  have delivers : ∀ other, plan.Chosen other →
      file.content (plan.origin other) = stored (plan.place other) := fun other chosen' =>
    (plan.file_origin held chosen').trans (read other chosen' _ (places other chosen'))
  have same : plan.place byte = address := Option.some.inj ((places byte chosen).symm.trans named)
  rw [written, ← same]
  apply (writeAll_places before plan.moves_segments delivers).1.mpr _ byte chosen
  intro _ _ _ _ shared
  exact congrArg stored shared

end AsymmetricPlan

/-! ### One block of two tokens -/

/-- A key cache with one block of two tokens and one head of 2048 elements. -/
def wideKeyCache : Tensor where
  device := ⟨.cuda, none⟩
  dtype := .float16
  storageBase := 4096
  storageNbytes := 8192
  storageOffset := 0
  shape := [1, 1, 2, 2048]
  stride := [4096, 4096, 2048, 1]
  ranked := rfl
  inStorage := by decide

/-- The value cache of the same block, with contiguous head vectors. -/
def wideValueCache : Tensor where
  device := ⟨.cuda, none⟩
  dtype := .float16
  storageBase := 16384
  storageNbytes := 8192
  storageOffset := 0
  shape := [1, 1, 2048, 2]
  stride := [4096, 4096, 1, 2048]
  ranked := rfl
  inStorage := by decide

def wideDescriptor : DirectIODescriptor :=
  segmentDescriptor ⟨.cuda, none⟩ [wideKeyCache, wideValueCache]
    [⟨⟨.cuda, none⟩, 4096, 8192, some [wideKeyCache]⟩,
      ⟨⟨.cuda, none⟩, 16384, 8192, some [wideValueCache]⟩] 16384 2 2 0 [0]
    [⟨blockFirstHeaderSize, 0, 0, 8192⟩, ⟨blockFirstHeaderSize + 8192, 1, 0, 8192⟩]

def widePlan : AsymmetricPlan where
  firstKey := wideKeyCache
  firstValue := wideValueCache
  others := []
  slotMapping := [0, 1]
  starts := [0]
  ends := [2]
  blockSize := 2
  skipBefore := 0
  plans := [⟨some wideDescriptor, none⟩]
  built := by decide
  index := 0
  start := 0
  stop := 2
  starts_at := first_start_zero
  ends_at := rfl
  descriptor := wideDescriptor
  planned := rfl

end LMCacheHcu.Storage
