import LMCacheHcu.Storage.PerLayerRetrieve

/-! # Direct retrieves into separate key and value caches

A planned chunk of `build_asymmetric_per_layer_direct_plans`: what the builder
has checked about the caches and the slots, and which byte of the file the
coalesced head vectors move to which element of which cache.
-/

namespace LMCacheHcu.Storage

open RowMajor ByteCopy

/-! ### Coalesced segments -/

/-- The copy that a segment makes, given where the allocations are. -/
def segmentCopy (base : ℤ → ℤ) (segment : DirectIOByteSegment) : Copy :=
  ⟨segment.fileOffset, base segment.allocationIndex + segment.allocationOffset, segment.nbytes⟩

/-- Extending the last segment moves what the new segment would have moved. -/
theorem moves_appendSegment (base : ℤ → ℤ) {segments : List DirectIOByteSegment}
    {segment : DirectIOByteSegment} (nonneg : ∀ previous ∈ segments, 0 ≤ previous.nbytes)
    (size : 0 ≤ segment.nbytes) (origin address : ℤ) :
    Moves ((appendSegment segments segment).map (segmentCopy base)) origin address ↔
      Moves (segments.map (segmentCopy base)) origin address ∨
        Moves [segmentCopy base segment] origin address := by
  unfold appendSegment
  cases last : segments.getLast? with
  | none =>
      rw [List.getLast?_eq_none_iff.mp last]
      simp
  | some previous =>
      obtain ⟨front, rfl⟩ := List.getLast?_eq_some_iff.mp last
      have sizePrevious := nonneg previous (by simp)
      simp only
      split
      · rename_i adjacent
        obtain ⟨index, file, allocation⟩ := adjacent
        simp only [List.dropLast_concat, List.map_append, List.map_cons, List.map_nil, moves_append,
          moves_cons, not_moves_nil, or_false, or_assoc]
        refine or_congr_right ?_
        simp only [segmentCopy, Copy.Covers, Copy.origin, ← index]
        constructor
        · rintro ⟨⟨above, below⟩, same⟩
          by_cases before : address < base previous.allocationIndex + previous.allocationOffset +
              previous.nbytes
          · exact .inl ⟨⟨above, before⟩, same⟩
          · exact .inr ⟨⟨by omega, by omega⟩, by omega⟩
        · rintro (⟨⟨above, below⟩, same⟩ | ⟨⟨above, below⟩, same⟩)
          · exact ⟨⟨above, by omega⟩, same⟩
          · exact ⟨⟨by omega, by omega⟩, by omega⟩
      · simp only [List.map_append, List.map_cons, List.map_nil, moves_append]

theorem nonneg_appendSegment {segments : List DirectIOByteSegment} {segment : DirectIOByteSegment}
    (nonneg : ∀ previous ∈ segments, 0 ≤ previous.nbytes) (size : 0 ≤ segment.nbytes) :
    ∀ previous ∈ appendSegment segments segment, 0 ≤ previous.nbytes := by
  unfold appendSegment
  cases last : segments.getLast? with
  | none => simpa using size
  | some previous =>
      obtain ⟨front, rfl⟩ := List.getLast?_eq_some_iff.mp last
      have sizePrevious := nonneg previous (by simp)
      simp only
      split
      · intro other member
        simp only [List.dropLast_concat, List.mem_append, List.mem_singleton] at member
        rcases member with inFront | rfl
        · exact nonneg other (List.mem_append_left _ inFront)
        · simp only
          omega
      · intro other member
        rcases List.mem_append.mp member with inFront | isLast
        · exact nonneg other inFront
        · rw [List.mem_singleton.mp isLast]
          exact size

/-- Coalescing changes nothing about what is moved. -/
theorem moves_coalesced (base : ℤ → ℤ) (vectors : List DirectIOByteSegment)
    (sizes : ∀ vector ∈ vectors, 0 ≤ vector.nbytes) (origin address : ℤ) :
    Moves ((vectors.foldl appendSegment []).map (segmentCopy base)) origin address ↔
      Moves (vectors.map (segmentCopy base)) origin address := by
  have general : ∀ segments : List DirectIOByteSegment,
      (∀ previous ∈ segments, 0 ≤ previous.nbytes) →
        (Moves ((vectors.foldl appendSegment segments).map (segmentCopy base)) origin address ↔
          Moves (segments.map (segmentCopy base)) origin address ∨
            Moves (vectors.map (segmentCopy base)) origin address) := by
    induction vectors with
    | nil => simp
    | cons vector vectors ih =>
        intro segments nonneg
        have size := sizes vector (List.mem_cons_self ..)
        rw [List.foldl_cons, ih (fun other member => sizes other (List.mem_cons_of_mem _ member)) _
          (nonneg_appendSegment nonneg size), moves_appendSegment base nonneg size, List.map_cons,
          moves_cons, moves_cons, or_assoc]
        simp only [not_moves_nil, or_false]
  rw [general [] (by simp)]
  simp

/-! ### Allocations -/

/-- The place in the allocations is the address. -/
def Registered (allocations : List DirectIOAllocation) (place : ℕ × ℤ) (address : ℤ) : Prop :=
  ∃ allocation, allocations[place.1]? = some allocation ∧ allocation.base + place.2 = address

theorem Registered.of_prefix {allocations extended : List DirectIOAllocation} {place : ℕ × ℤ}
    {address : ℤ} (registered : Registered allocations place address)
    (grows : allocations <+: extended) : Registered extended place address := by
  obtain ⟨allocation, here, same⟩ := registered
  obtain ⟨tail, rfl⟩ := grows
  refine ⟨allocation, ?_, same⟩
  rw [List.getElem?_append_left (List.getElem?_eq_some_iff.mp here).1]
  exact here

/-- The key and the value cache of every layer find their data at their places. -/
theorem addPairs_spec (allocations : List DirectIOAllocation) (kvCaches : List (Tensor × Tensor)) :
    allocations <+: (addPairs allocations kvCaches).1 ∧
      (addPairs allocations kvCaches).2.length = kvCaches.length ∧
      ∀ (layer : ℕ) (pair : Tensor × Tensor) (places : (ℕ × ℤ) × (ℕ × ℤ)),
        kvCaches[layer]? = some pair → (addPairs allocations kvCaches).2[layer]? = some places →
          Registered (addPairs allocations kvCaches).1 places.1 pair.1.dataPtr ∧
            Registered (addPairs allocations kvCaches).1 places.2 pair.2.dataPtr := by
  induction kvCaches generalizing allocations with
  | nil => exact ⟨List.prefix_rfl, rfl, fun layer pair places here => by simp at here⟩
  | cons first kvCaches ih =>
      obtain ⟨grown, keyAllocation, keyHere, keyPlaced⟩ := addAllocation_spec allocations first.1
      obtain ⟨grown', valueAllocation, valueHere, valuePlaced⟩ :=
        addAllocation_spec (addAllocation allocations first.1).1 first.2
      obtain ⟨extended, lengths, later⟩ :=
        ih (addAllocation (addAllocation allocations first.1).1 first.2).1
      refine ⟨(grown.trans grown').trans extended, by simp [addPairs, lengths], ?_⟩
      intro layer pair places here there
      cases layer with
      | zero =>
          simp only [List.getElem?_cons_zero, Option.some.injEq] at here
          simp only [addPairs, List.getElem?_cons_zero, Option.some.injEq] at there
          subst here there
          exact ⟨Registered.of_prefix ⟨_, keyHere, keyPlaced.data⟩ (grown'.trans extended),
            Registered.of_prefix ⟨_, valueHere, valuePlaced.data⟩ extended⟩
      | succ layer => exact later layer pair places here there

/-! ### What a planned chunk has passed -/

/-- The checks of `build_asymmetric_per_layer_direct_plans` on its caches. -/
structure AsymmetricCaches (kvCaches : List (Tensor × Tensor)) (firstKey : Tensor)
    (blockSize : ℕ) : Prop where
  rank : firstKey.shape.length = 4
  blocks : firstKey.dim 2 = blockSize
  uniform : ∀ pair ∈ kvCaches, pair.1.shape = firstKey.shape ∧
    pair.2.shape = [firstKey.dim 0, firstKey.dim 1, firstKey.dim 3, blockSize] ∧
    pair.1.dtype = firstKey.dtype ∧ pair.2.dtype = firstKey.dtype ∧
    pair.1.strideOf 3 = 1 ∧ pair.2.strideOf 2 = 1

/-- The checks of one chunk that is planned, and its descriptor. -/
structure AsymmetricChunk (kvCaches : List (Tensor × Tensor)) (firstKey : Tensor)
    (slotMapping : List ℤ) (blockSize : ℕ) (skipBefore start stop : ℤ)
    (descriptor : DirectIODescriptor) (physicalBlocks : List ℤ) : Prop where
  positive : 0 < blockSize
  whole : (stop - start) % blockSize = 0
  uncached : skipTokens skipBefore start stop ≠ stop - start
  aligned : skipTokens skipBefore start stop % blockSize = 0
  blocksOf : BlocksOfSlots blockSize (firstKey.dim 0)
    (sliceOf slotMapping (start + skipTokens skipBefore start stop) stop) physicalBlocks
  nonempty : 0 < kvCaches.length * 2 * asymmetricBlockNbytes firstKey blockSize
  descriptor_eq : descriptor = segmentDescriptor firstKey.device (pairTensors kvCaches)
    (addPairs [] kvCaches).1 (kvCaches.length * 2 * asymmetricBlockNbytes firstKey blockSize)
    blockSize (stop - start) (skipTokens skipBefore start stop) physicalBlocks
    ((headVectors firstKey kvCaches (addPairs [] kvCaches).2 blockSize
      (skipTokens skipBefore start stop / blockSize) physicalBlocks).foldl appendSegment [])

/-- A valid descriptor has blocks of positive size. -/
theorem blockNbytes_pos_of_valid {descriptor : DirectIODescriptor}
    {requireCuda requireAlignment : Bool}
    (valid : descriptor.validate requireCuda requireAlignment = .ok ()) :
    0 < descriptor.blockNbytes := by
  simp only [DirectIODescriptor.validate, Checked.throw_bind, Checked.check_ok, not_or,
    not_le] at valid
  exact valid.2.2.2.1.1

theorem asymmetricChunk_of_plan {kvCaches : List (Tensor × Tensor)} {firstKey : Tensor}
    {slotMapping : List ℤ} {blockSize : ℕ} {skipBefore start stop : ℤ}
    {descriptor : DirectIODescriptor}
    (planned : planAsymmetric firstKey kvCaches slotMapping blockSize skipBefore (start, stop) =
      .ok ⟨some descriptor, none⟩) :
    ∃ physicalBlocks, AsymmetricChunk kvCaches firstKey slotMapping blockSize skipBefore start stop
      descriptor physicalBlocks := by
  simp only [planAsymmetric, Checked.check_ok, planned_ok, not_not] at planned
  obtain ⟨nonzero, whole, uncached, aligned, rest⟩ := planned
  have positive : 0 < blockSize := Nat.pos_of_ne_zero nonzero
  cases read : (slotBlocks blockSize (sliceOf slotMapping
      (start + skipTokens skipBefore start stop) stop)).mapM
        (physicalBlockOfAsymmetric blockSize (firstKey.dim 0)) with
  | error reason =>
      rw [read] at rest
      cases rest
  | ok physicalBlocks =>
      rw [read] at rest
      simp only at rest
      split at rest
      · cases rest
      · cases rest
      rename_i valid
      cases rest
      refine ⟨physicalBlocks, positive, whole, uncached, aligned, ?_,
        Int.natCast_pos.mp (blockNbytes_pos_of_valid valid), rfl⟩
      apply blocksOfSlots_of_mapM positive
      rw [Checked.mapM_ok] at read ⊢
      exact read.imp fun _ _ => physicalBlockOfAsymmetric_ok.mp

/-- Everything that a returned descriptor says about the call that made it. -/
theorem asymmetricPlan_spec {firstKey firstValue : Tensor} {others : List (Tensor × Tensor)}
    {slotMapping starts ends : List ℤ} {blockSize : ℕ} {skipBefore : ℤ} {plans : List DirectIOPlan}
    (built : buildAsymmetricPerLayerDirectPlans ((firstKey, firstValue) :: others) slotMapping starts
      ends .retrieve blockSize skipBefore = .ok plans)
    {index : ℕ} {descriptor : DirectIODescriptor}
    (planned : plans[index]? = some ⟨some descriptor, none⟩) :
    ∃ start stop physicalBlocks,
      AsymmetricCaches ((firstKey, firstValue) :: others) firstKey blockSize ∧
      RangesChecked slotMapping starts ends ∧
      starts[index]? = some start ∧ ends[index]? = some stop ∧
      AsymmetricChunk ((firstKey, firstValue) :: others) firstKey slotMapping blockSize skipBefore
        start stop descriptor physicalBlocks := by
  unfold buildAsymmetricPerLayerDirectPlans at built
  rw [if_neg (not_not.mpr rfl)] at built
  simp only [Checked.check_ok, Checked.bind_ok, not_not] at built
  obtain ⟨same, _, checked, built⟩ := built
  split at built
  · cases built
    exact absurd (fallback_no_descriptor planned) (Option.some_ne_none _)
  rename_i dims
  split at built
  · cases built
    exact absurd (fallback_no_descriptor planned) (Option.some_ne_none _)
  split at built
  · cases built
    exact absurd (fallback_no_descriptor planned) (Option.some_ne_none _)
  split at built
  · cases built
    exact absurd (fallback_no_descriptor planned) (Option.some_ne_none _)
  rename_i uniform
  have range : ∃ start stop, starts[index]? = some start ∧ ends[index]? = some stop := by
    have inside := (List.getElem?_eq_some_iff.mp planned).1
    rw [Checked.length_mapM built, List.length_zip, same, Nat.min_self] at inside
    exact ⟨_, _, List.getElem?_eq_getElem (same ▸ inside), List.getElem?_eq_getElem inside⟩
  obtain ⟨start, stop, here, there⟩ := range
  have item : (starts.zip ends)[index]? = some (start, stop) :=
    List.getElem?_zip_eq_some.mpr ⟨here, there⟩
  obtain ⟨physicalBlocks, chunk⟩ :=
    asymmetricChunk_of_plan (Checked.mapM_getElem? built item planned)
  simp only [not_or, not_not] at dims
  refine ⟨start, stop, physicalBlocks, ⟨dims.1, dims.2.2.1, fun pair member => ?_⟩,
    rangesChecked_of_ok same checked, here, there, chunk⟩
  simp only [List.any_eq_true, decide_eq_true_eq, not_exists, not_and, not_or, not_not] at uniform
  obtain ⟨_, _, keys, values, keyType, valueType, _, _, keyStride, valueStride⟩ :=
    uniform pair member
  exact ⟨keys, values, keyType, valueType, keyStride, valueStride⟩

/-! ### Elements of the caches -/

/-- The chunk that a file for such caches holds. -/
def asymmetricShape (firstKey : Tensor) (numLayers blockSize : ℕ) (chunkTokens : ℤ) :
    ChunkShape where
  numLayers := numLayers
  chunkBlocks := (chunkTokens / blockSize).toNat
  blockSize := blockSize
  hiddenDim := firstKey.dim 1 * firstKey.dim 3
  itemsize := firstKey.elementSize

/-- A call of the builder and one chunk that it planned. -/
structure AsymmetricPlan where
  firstKey : Tensor
  firstValue : Tensor
  others : List (Tensor × Tensor)
  slotMapping : List ℤ
  starts : List ℤ
  ends : List ℤ
  blockSize : ℕ
  skipBefore : ℤ
  plans : List DirectIOPlan
  built : buildAsymmetricPerLayerDirectPlans ((firstKey, firstValue) :: others) slotMapping starts
    ends .retrieve blockSize skipBefore = .ok plans
  index : ℕ
  start : ℤ
  stop : ℤ
  starts_at : starts[index]? = some start
  ends_at : ends[index]? = some stop
  descriptor : DirectIODescriptor
  planned : plans[index]? = some ⟨some descriptor, none⟩

namespace AsymmetricPlan

variable (plan : AsymmetricPlan)

def kvCaches : List (Tensor × Tensor) := (plan.firstKey, plan.firstValue) :: plan.others

/-- The number of KV heads. -/
def numHeads : ℕ := plan.firstKey.dim 1

def headSize : ℕ := plan.firstKey.dim 3

def elementSize : ℕ := plan.firstKey.elementSize

/-- The bytes of one head vector. -/
def headNbytes : ℕ := plan.headSize * plan.elementSize

/-- The chunk that a file for the planned call holds. -/
def shape : ChunkShape :=
  asymmetricShape plan.firstKey plan.kvCaches.length plan.blockSize (plan.stop - plan.start)

/-- The key or the value cache of a layer. -/
def cacheOf (layer half : ℕ) : Tensor :=
  let pair := plan.kvCaches.getD layer (plan.firstKey, plan.firstValue)
  if half = 0 then pair.1 else pair.2

/-- The stride between the tokens of a block of a key or value cache. -/
def tokenStride (layer half : ℕ) : ℕ :=
  (plan.cacheOf layer half).strideOf (if half = 0 then 2 else 3)

/-- The row bytes of the uncached tokens of the chunk, in all layers and halves. -/
def Chosen (byte : RowByte) : Prop :=
  byte.layer < plan.kvCaches.length ∧ byte.half < 2 ∧
    max plan.start plan.skipBefore ≤ byte.token ∧ (byte.token : ℤ) < plan.stop ∧
    byte.low < plan.shape.rowNbytes

/-- Where the strides of its cache put a byte of a head vector. -/
def stridedPlace (layer half : ℕ) (block : ℤ) (slot head low : ℕ) : ℤ :=
  (plan.cacheOf layer half).dataPtr + (block * (plan.cacheOf layer half).strideOf 0 +
    head * (plan.cacheOf layer half).strideOf 1 + slot * plan.tokenStride layer half) *
      plan.elementSize + low

/-- Where the strides of its cache put a row byte. -/
def place (byte : RowByte) : ℤ :=
  plan.stridedPlace byte.layer byte.half (plan.slotMapping.getD byte.token 0 / plan.blockSize)
    (plan.slotMapping.getD byte.token 0 % plan.blockSize).toNat (byte.low / plan.headNbytes)
    (byte.low % plan.headNbytes)

/-- The position of a token in its chunk. -/
def chunkToken (byte : RowByte) : ℕ := (byte.token - plan.start).toNat

/-- Where a row byte is in the file. -/
def origin (byte : RowByte) : ℤ :=
  blockFirstHeaderSize + plan.shape.payloadPosition (plan.chunkToken byte / plan.blockSize)
    byte.layer byte.half (plan.chunkToken byte % plan.blockSize) byte.low

theorem spec : AsymmetricCaches plan.kvCaches plan.firstKey plan.blockSize ∧
    RangesChecked plan.slotMapping plan.starts plan.ends ∧
    ∃ physicalBlocks, AsymmetricChunk plan.kvCaches plan.firstKey plan.slotMapping plan.blockSize
      plan.skipBefore plan.start plan.stop plan.descriptor physicalBlocks := by
  obtain ⟨start, stop, physicalBlocks, caches, ranges, here, there, chunk⟩ :=
    asymmetricPlan_spec plan.built plan.planned
  have sameStart : start = plan.start := Option.some.inj (here.symm.trans plan.starts_at)
  have sameStop : stop = plan.stop := Option.some.inj (there.symm.trans plan.ends_at)
  subst sameStart sameStop
  exact ⟨caches, ranges, physicalBlocks, chunk⟩

theorem start_nonneg : 0 ≤ plan.start :=
  plan.spec.2.1.nonneg plan.start (List.mem_of_getElem? plan.starts_at)

theorem nonempty : plan.start < plan.stop :=
  plan.spec.2.1.nonempty plan.index plan.start plan.stop plan.starts_at plan.ends_at

theorem covered : plan.stop ≤ plan.slotMapping.length :=
  plan.spec.2.1.covered plan.stop (List.mem_of_getElem? plan.ends_at)

theorem rowNbytes_eq : plan.shape.rowNbytes = plan.numHeads * plan.headNbytes :=
  Nat.mul_assoc _ _ _

theorem layerBlockNbytes_eq : plan.shape.layerBlockNbytes =
    asymmetricBlockNbytes plan.firstKey plan.blockSize := by
  simp only [ChunkShape.layerBlockNbytes, ChunkShape.rowNbytes, shape, asymmetricShape,
    asymmetricBlockNbytes]
  ring

theorem blockNbytes_eq : plan.shape.blockNbytes =
    plan.kvCaches.length * 2 * asymmetricBlockNbytes plan.firstKey plan.blockSize := by
  rw [ChunkShape.blockNbytes, plan.layerBlockNbytes_eq]
  rfl

/-- The dimensions of the caches are positive. -/
theorem dims_pos : 0 < plan.numHeads ∧ 0 < plan.headSize ∧ 0 < plan.elementSize ∧
    0 < plan.blockSize ∧ 0 < plan.kvCaches.length := by
  obtain ⟨_, _, _, chunk⟩ := plan.spec
  have nonempty := chunk.nonempty
  rw [asymmetricBlockNbytes] at nonempty
  have layerBlock := Nat.pos_of_mul_pos_left nonempty
  have heads := Nat.pos_of_mul_pos_right layerBlock
  have vector := Nat.pos_of_mul_pos_left layerBlock
  exact ⟨Nat.pos_of_mul_pos_left heads, Nat.pos_of_mul_pos_right vector,
    Nat.pos_of_mul_pos_left vector, chunk.positive, Nat.succ_pos _⟩

/-! ### What the segments move -/

/-- Where the allocations of the descriptor are. -/
def allocationBase (index : ℤ) : ℤ :=
  (plan.descriptor.registrationAllocations[index.toNat]?.map DirectIOAllocation.base).getD 0

/-- The copies that read the segments. -/
def segmentCopies : List Copy :=
  (plan.descriptor.byteSegments.map (XdsBackend.segmentCall plan.descriptor)).map XdsCall.readCopy

theorem segmentCopies_eq : plan.segmentCopies =
    plan.descriptor.byteSegments.map (segmentCopy plan.allocationBase) := by
  rw [segmentCopies, List.map_map]
  rfl

/-- The head vectors of one block of one cache, as bytes. -/
theorem moves_blockHeadVectors {layer half : ℕ} {registered : ℕ × ℤ} (block region : ℤ)
    (placed : plan.allocationBase registered.1 + registered.2 =
      (plan.cacheOf layer half).dataPtr) (origin address : ℤ) :
    Moves ((blockHeadVectors (plan.cacheOf layer half) registered (if half = 0 then 2 else 3)
        plan.blockSize plan.numHeads plan.headSize plan.elementSize region block).map
          (segmentCopy plan.allocationBase)) origin address ↔
      ∃ slot head low : ℕ, slot < plan.blockSize ∧ head < plan.numHeads ∧ low < plan.headNbytes ∧
        address = plan.stridedPlace layer half block slot head low ∧
        origin = region + ((slot * plan.numHeads + head : ℕ) : ℤ) * plan.headNbytes + low := by
  simp only [blockHeadVectors, List.map_flatMap, List.map_map, moves_flatMap, moves_map,
    List.mem_range, Function.comp_apply, segmentCopy, stridedPlace, ← placed, tokenStride]
  constructor
  · rintro ⟨slot, slotIn, head, headIn, ⟨above, below⟩, same⟩
    simp only at above below
    refine ⟨slot, head, (address - (plan.allocationBase registered.1 + (registered.2 +
      (block * (plan.cacheOf layer half).strideOf 0 + head * (plan.cacheOf layer half).strideOf 1 +
        slot * (plan.cacheOf layer half).strideOf (if half = 0 then 2 else 3)) *
          plan.elementSize))).toNat, slotIn, headIn, ?_, ?_, ?_⟩
    · rw [headNbytes]
      omega
    · omega
    · rw [← same]
      simp only [Copy.origin, headNbytes]
      push_cast
      omega
  · rintro ⟨slot, head, low, slotIn, headIn, lowIn, rfl, rfl⟩
    rw [headNbytes] at lowIn
    refine ⟨slot, slotIn, head, headIn, ⟨by simp only; omega, by simp only; omega⟩, ?_⟩
    simp only [Copy.origin, headNbytes]
    push_cast
    ring

theorem sizes_headVectors {places : List ((ℕ × ℤ) × (ℕ × ℤ))} {logicalStart : ℤ}
    {physicalBlocks : List ℤ} : ∀ vector ∈ headVectors plan.firstKey plan.kvCaches places
      plan.blockSize logicalStart physicalBlocks, 0 ≤ vector.nbytes := by
  intro vector member
  simp only [headVectors, blockHeadVectors, List.mem_flatMap, List.mem_append, List.mem_map]
    at member
  obtain ⟨_, _, _, _, ⟨_, _, _, _, rfl⟩ | ⟨_, _, _, _, rfl⟩⟩ := member <;> positivity

/-- The head vectors of a chunk, as bytes. -/
theorem moves_headVectors {places : List ((ℕ × ℤ) × (ℕ × ℤ))}
    (lengths : places.length = plan.kvCaches.length)
    (registered : ∀ (layer : ℕ) (pair : Tensor × Tensor) (place : (ℕ × ℤ) × (ℕ × ℤ)),
      plan.kvCaches[layer]? = some pair → places[layer]? = some place →
        plan.allocationBase place.1.1 + place.1.2 = pair.1.dataPtr ∧
          plan.allocationBase place.2.1 + place.2.2 = pair.2.dataPtr)
    (logicalStart : ℤ) (physicalBlocks : List ℤ) (origin address : ℤ) :
    Moves ((headVectors plan.firstKey plan.kvCaches places plan.blockSize logicalStart
        physicalBlocks).map (segmentCopy plan.allocationBase)) origin address ↔
      ∃ (index : ℕ) (block : ℤ), physicalBlocks[index]? = some block ∧
        ∃ layer half slot head low : ℕ, layer < plan.kvCaches.length ∧ half < 2 ∧
          slot < plan.blockSize ∧ head < plan.numHeads ∧ low < plan.headNbytes ∧
          address = plan.stridedPlace layer half block slot head low ∧
          origin = blockFirstHeaderSize + (logicalStart + index) * plan.shape.blockNbytes +
            (plan.shape.blockPosition layer half slot (head * plan.headNbytes + low) : ℤ) := by
  have position : ∀ layer half slot head low : ℕ,
      (plan.shape.blockPosition layer half slot (head * plan.headNbytes + low) : ℤ) =
        ((layer * 2 + half : ℕ) : ℤ) * asymmetricBlockNbytes plan.firstKey plan.blockSize +
          (((slot * plan.numHeads + head : ℕ) : ℤ) * plan.headNbytes + low) := by
    intro layer half slot head low
    rw [ChunkShape.blockPosition, plan.layerBlockNbytes_eq, plan.rowNbytes_eq]
    push_cast
    ring
  have pairAt : ∀ layer pair, plan.kvCaches[layer]? = some pair →
      plan.cacheOf layer 0 = pair.1 ∧ plan.cacheOf layer 1 = pair.2 := by
    intro layer pair here
    simp [cacheOf, List.getD_eq_getElem?_getD, here]
  simp only [headVectors, List.map_flatMap, List.map_append, moves_flatMap, moves_append,
    Prod.exists, List.mem_zipIdx_iff_getElem?, List.getElem?_zip_eq_some, plan.blockNbytes_eq]
  constructor
  · rintro ⟨block, index, here, key, value, keyIndex, keyOffset, valueIndex, valueOffset, layer,
      ⟨pairHere, placeHere⟩, moved⟩
    obtain ⟨keyPlaced, valuePlaced⟩ := registered layer _ _ pairHere placeHere
    obtain ⟨keyCache, valueCache⟩ := pairAt layer _ pairHere
    have layerIn : layer < plan.kvCaches.length := (List.getElem?_eq_some_iff.mp pairHere).1
    simp only at keyPlaced valuePlaced keyCache valueCache
    rcases moved with ofKey | ofValue
    · rw [← keyCache] at ofKey keyPlaced
      obtain ⟨slot, head, low, slotIn, headIn, lowIn, rfl, rfl⟩ :=
        (plan.moves_blockHeadVectors block _ keyPlaced _ _).mp ofKey
      refine ⟨index, block, here, layer, 0, slot, head, low, layerIn, by omega, slotIn, headIn,
        lowIn, rfl, ?_⟩
      rw [position]
      push_cast
      ring
    · rw [← valueCache] at ofValue valuePlaced
      obtain ⟨slot, head, low, slotIn, headIn, lowIn, rfl, rfl⟩ :=
        (plan.moves_blockHeadVectors block _ valuePlaced _ _).mp ofValue
      refine ⟨index, block, here, layer, 1, slot, head, low, layerIn, by omega, slotIn, headIn,
        lowIn, rfl, ?_⟩
      rw [position]
      push_cast
      ring
  · rintro ⟨index, block, here, layer, half, slot, head, low, layerIn, halfIn, slotIn, headIn,
      lowIn, rfl, rfl⟩
    obtain ⟨pair, pairHere⟩ : ∃ pair, plan.kvCaches[layer]? = some pair :=
      ⟨_, List.getElem?_eq_getElem layerIn⟩
    obtain ⟨place, placeHere⟩ : ∃ place, places[layer]? = some place :=
      ⟨_, List.getElem?_eq_getElem (lengths ▸ layerIn)⟩
    obtain ⟨keyPlaced, valuePlaced⟩ := registered layer _ _ pairHere placeHere
    obtain ⟨keyCache, valueCache⟩ := pairAt layer _ pairHere
    refine ⟨block, index, here, pair.1, pair.2, place.1.1, place.1.2, place.2.1, place.2.2, layer,
      ⟨pairHere, placeHere⟩, ?_⟩
    have halves : half = 0 ∨ half = 1 := by omega
    rcases halves with rfl | rfl
    · left
      rw [← keyCache] at keyPlaced ⊢
      apply (plan.moves_blockHeadVectors block _ keyPlaced _ _).mpr
      refine ⟨slot, head, low, slotIn, headIn, lowIn, rfl, ?_⟩
      rw [position]
      push_cast
      ring
    · right
      rw [← valueCache] at valuePlaced ⊢
      apply (plan.moves_blockHeadVectors block _ valuePlaced _ _).mpr
      refine ⟨slot, head, low, slotIn, headIn, lowIn, rfl, ?_⟩
      rw [position]
      push_cast
      ring

theorem place_eq (byte : RowByte) {block : ℤ} {slot head low : ℕ} (slotIn : slot < plan.blockSize)
    (lowIn : low < plan.headNbytes)
    (named : plan.slotMapping.getD byte.token 0 = block * plan.blockSize + slot)
    (split : byte.low = head * plan.headNbytes + low) :
    plan.place byte = plan.stridedPlace byte.layer byte.half block slot head low := by
  have quotient : (block * (plan.blockSize : ℤ) + slot) / plan.blockSize = block := by
    rw [add_comm, Int.add_mul_ediv_right _ _ (by omega), Int.ediv_eq_zero_of_lt (by omega)
      (by omega), zero_add]
  have remainder : ((block * (plan.blockSize : ℤ) + slot) % plan.blockSize).toNat = slot := by
    rw [add_comm, Int.add_mul_emod_self_right, Int.emod_eq_of_lt (by omega) (by omega),
      Int.toNat_natCast]
  rw [place, named, quotient, remainder, split, Nat.mul_comm head,
    Nat.mul_add_div (Nat.zero_lt_of_lt lowIn), Nat.div_eq_of_lt lowIn, Nat.add_zero,
    Nat.mul_add_mod, Nat.mod_eq_of_lt lowIn]

theorem origin_eq (byte : RowByte) {skip : ℤ} {index slot : ℕ} (nonneg : 0 ≤ skip)
    (aligned : skip % plan.blockSize = 0) (slotIn : slot < plan.blockSize)
    (reach : (byte.token : ℤ) = plan.start + skip + ((index * plan.blockSize + slot : ℕ) : ℤ)) :
    plan.origin byte = blockFirstHeaderSize +
      (skip / plan.blockSize + index) * plan.shape.blockNbytes +
        (plan.shape.blockPosition byte.layer byte.half slot byte.low : ℤ) := by
  obtain ⟨blocks, slots⟩ := block_of_token nonneg aligned slotIn reach
  rw [origin, chunkToken, ChunkShape.payloadPosition, slots, ← blocks]
  push_cast
  ring

/-- **What an asymmetric descriptor moves.** The segments move to every row byte
of the uncached tokens its byte of the file, and nothing else. -/
theorem moves_segments (from' address : ℤ) :
    Moves plan.segmentCopies from' address ↔
      ∃ byte, plan.Chosen byte ∧ address = plan.place byte ∧ from' = plan.origin byte := by
  obtain ⟨_, _, physicalBlocks, chunk⟩ := plan.spec
  obtain ⟨nonneg, _, latest⟩ := skipTokens_spec plan.nonempty chunk.uncached
  have startNonneg := plan.start_nonneg
  obtain ⟨_, lengths, places⟩ := addPairs_spec [] plan.kvCaches
  have allocations : ∀ (place : ℕ × ℤ) (data : ℤ),
      Registered (addPairs [] plan.kvCaches).1 place data →
        plan.allocationBase place.1 + place.2 = data := by
    rintro place data ⟨allocation, here, rfl⟩
    have nonempty : (addPairs [] plan.kvCaches).1 ≠ [] := by
      rintro empty
      rw [empty] at here
      simp at here
    have same : plan.descriptor.registrationAllocations = (addPairs [] plan.kvCaches).1 := by
      rw [DirectIODescriptor.registrationAllocations, chunk.descriptor_eq]
      simp [segmentDescriptor, nonempty]
    rw [allocationBase, same, Int.toNat_natCast, here, Option.map_some, Option.getD_some]
  have segments : plan.descriptor.byteSegments = (headVectors plan.firstKey plan.kvCaches
      (addPairs [] plan.kvCaches).2 plan.blockSize
      (skipTokens plan.skipBefore plan.start plan.stop / plan.blockSize)
      physicalBlocks).foldl appendSegment [] :=
    congrArg DirectIODescriptor.byteSegments chunk.descriptor_eq
  rw [plan.segmentCopies_eq, segments, moves_coalesced _ _ plan.sizes_headVectors,
    plan.moves_headVectors lengths (fun layer pair place here there =>
      ⟨allocations _ _ (places layer pair place here there).1,
        allocations _ _ (places layer pair place here there).2⟩)]
  constructor
  · rintro ⟨index, block, here, layer, half, slot, head, low, layerIn, halfIn, slotIn, headIn,
      lowIn, rfl, rfl⟩
    obtain ⟨token, reach, inside, named⟩ := chunk.blocksOf.block_token (by omega) plan.covered here
      slotIn
    refine ⟨⟨layer, half, token, head * plan.headNbytes + low⟩, ⟨layerIn, halfIn, ?_, inside, ?_⟩,
      ?_, ?_⟩
    · simp only
      omega
    · rw [plan.rowNbytes_eq]
      exact digit_lt headIn lowIn
    · exact (plan.place_eq ⟨layer, half, token, head * plan.headNbytes + low⟩ slotIn lowIn named
        rfl).symm
    · exact (plan.origin_eq ⟨layer, half, token, head * plan.headNbytes + low⟩ nonneg chunk.aligned
        slotIn reach).symm
  · rintro ⟨byte, ⟨layerIn, halfIn, above, below, lowIn⟩, rfl, rfl⟩
    have whole : (plan.stop - (plan.start + skipTokens plan.skipBefore plan.start plan.stop)) %
        plan.blockSize = 0 := by
      rw [← sub_sub]
      exact Int.emod_eq_zero_of_dvd (dvd_sub (Int.dvd_of_emod_eq_zero chunk.whole)
        (Int.dvd_of_emod_eq_zero chunk.aligned))
    obtain ⟨index, slot, block, here, slotIn, reach, named⟩ := chunk.blocksOf.token_block
      (by omega) plan.covered whole (latest.trans_le above) below
    rw [plan.rowNbytes_eq] at lowIn
    obtain ⟨head, low, headIn, lowIn, split⟩ := exists_digit lowIn
    refine ⟨index, block, here, byte.layer, byte.half, slot, head, low, layerIn, halfIn, slotIn,
      headIn, lowIn, plan.place_eq byte slotIn lowIn named split, ?_⟩
    rw [plan.origin_eq byte nonneg chunk.aligned slotIn reach, split]

end AsymmetricPlan

end LMCacheHcu.Storage
