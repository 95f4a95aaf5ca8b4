import LMCacheHcu.Storage.PerLayerRetrieve

/-! # Direct transfers of a cross-layer cache

A planned chunk of `build_block_first_direct_plans`: what the builder has checked
about the cache and the slots, and how the leading edge and the runs of the
descriptor divide the tokens of the chunk between them.
-/

namespace LMCacheHcu.Storage

open RowMajor ByteCopy

/-! ### What a planned chunk has passed -/

/-- The checks of `build_block_first_direct_plans` on its cache. -/
structure CrossLayerCache (kvCache : Tensor) (blockSize : ℕ) : Prop where
  rank : kvCache.shape.length = 6
  halves : kvCache.dim 2 = 2
  contiguous : kvCache.isContiguous = true
  positive : 0 < blockSize
  blocks : kvCache.dim 3 = blockSize

/-- The tokens that a transfer leaves out at the start of a chunk. -/
def leftOutTokens (direction : DirectIODirection) (skipBefore start stop : ℤ) : ℤ :=
  if direction = .retrieve then skipTokens skipBefore start stop else 0

/-- The checks of one chunk that is planned, and its descriptor. -/
structure CrossLayerChunk (kvCache : Tensor) (slotMapping : List ℤ)
    (direction : DirectIODirection) (blockSize : ℕ) (skip start stop : ℤ)
    (descriptor : DirectIODescriptor) (leadingEdge : Option DirectIOLeadingEdge)
    (physicalBlocks : List ℤ) : Prop where
  whole : (stop - start) % blockSize = 0
  uncached : skip ≠ stop - start
  edgeOf : leadingEdgeOf slotMapping blockSize (kvCache.dim 0) start skip = .ok leadingEdge
  blocksOf : BlocksOfSlots blockSize (kvCache.dim 0) (sliceOf slotMapping
    (start + (skip + leadingEdge.elim 0 DirectIOLeadingEdge.tokenCount)) stop) physicalBlocks
  descriptor_eq : descriptor = blockFirstDescriptor kvCache direction blockSize (stop - start) skip
    (skip + leadingEdge.elim 0 DirectIOLeadingEdge.tokenCount) leadingEdge physicalBlocks

theorem crossLayerChunk_of_plan {kvCache : Tensor} {slotMapping : List ℤ}
    {direction : DirectIODirection} {blockSize : ℕ} (positive : 0 < blockSize)
    {skipBefore start stop : ℤ} {descriptor : DirectIODescriptor}
    (planned : planBlockFirst kvCache slotMapping direction blockSize skipBefore (start, stop) =
      .ok ⟨some descriptor, none⟩) :
    ∃ leadingEdge physicalBlocks, CrossLayerChunk kvCache slotMapping direction blockSize
      (leftOutTokens direction skipBefore start stop) start stop descriptor leadingEdge
      physicalBlocks := by
  simp only [planBlockFirst, planned_ok, not_not] at planned
  obtain ⟨whole, uncached, rest⟩ := planned
  cases edge : leadingEdgeOf slotMapping blockSize (kvCache.dim 0) start
      (leftOutTokens direction skipBefore start stop) with
  | error reason =>
      rw [leftOutTokens] at edge
      rw [edge] at rest
      cases rest
  | ok leadingEdge =>
      have edgeRead := edge
      rw [leftOutTokens] at edge
      rw [edge] at rest
      simp only [planned_ok, not_not] at rest
      obtain ⟨_, rest⟩ := rest
      cases read : (slotBlocks blockSize (sliceOf slotMapping
          (start + (leftOutTokens direction skipBefore start stop +
            leadingEdge.elim 0 DirectIOLeadingEdge.tokenCount)) stop)).mapM
              (physicalBlockOf blockSize (kvCache.dim 0)) with
      | error reason =>
          rw [leftOutTokens] at read
          rw [read] at rest
          cases rest
      | ok physicalBlocks =>
          have blocksRead := read
          rw [leftOutTokens] at read
          rw [read] at rest
          simp only [Checked.bind_ok, Checked.return_ok, DirectIOPlan.mk.injEq, Option.some.injEq,
            and_true] at rest
          obtain ⟨_, _, rfl⟩ := rest
          exact ⟨leadingEdge, physicalBlocks, whole, uncached, edgeRead,
            blocksOfSlots_of_mapM positive blocksRead, rfl⟩

/-- Everything that a returned descriptor says about the call that made it. -/
theorem crossLayerPlan_spec {kvCache : Tensor} {slotMapping starts ends : List ℤ}
    {direction : DirectIODirection} {blockSize : ℕ} {skipBefore : ℤ} {plans : List DirectIOPlan}
    (built : buildBlockFirstDirectPlans kvCache slotMapping starts ends direction blockSize
      skipBefore = .ok plans)
    {index : ℕ} {descriptor : DirectIODescriptor}
    (planned : plans[index]? = some ⟨some descriptor, none⟩) :
    ∃ start stop leadingEdge physicalBlocks, CrossLayerCache kvCache blockSize ∧
      RangesChecked slotMapping starts ends ∧
      starts[index]? = some start ∧ ends[index]? = some stop ∧
      CrossLayerChunk kvCache slotMapping direction blockSize
        (leftOutTokens direction skipBefore start stop) start stop descriptor leadingEdge
        physicalBlocks := by
  unfold buildBlockFirstDirectPlans at built
  split at built
  · cases built
    exact absurd (fallback_no_descriptor planned) (Option.some_ne_none _)
  rename_i dims
  split at built
  · cases built
    exact absurd (fallback_no_descriptor planned) (Option.some_ne_none _)
  rename_i contiguous
  split at built
  · cases built
    exact absurd (fallback_no_descriptor planned) (Option.some_ne_none _)
  rename_i blocks
  simp only [Checked.check_ok, Checked.bind_ok, not_not] at built
  obtain ⟨same, _, checked, built⟩ := built
  have range : ∃ start stop, starts[index]? = some start ∧ ends[index]? = some stop := by
    have inside := (List.getElem?_eq_some_iff.mp planned).1
    rw [Checked.length_mapM built, List.length_zip, same, Nat.min_self] at inside
    exact ⟨_, _, List.getElem?_eq_getElem (same ▸ inside), List.getElem?_eq_getElem inside⟩
  obtain ⟨start, stop, here, there⟩ := range
  have item : (starts.zip ends)[index]? = some (start, stop) :=
    List.getElem?_zip_eq_some.mpr ⟨here, there⟩
  simp only [not_or, not_not, Bool.not_eq_false] at dims contiguous blocks
  obtain ⟨leadingEdge, physicalBlocks, chunk⟩ := crossLayerChunk_of_plan
    (Nat.pos_of_ne_zero blocks.1) (Checked.mapM_getElem? built item planned)
  exact ⟨start, stop, leadingEdge, physicalBlocks, ⟨dims.1, dims.2, contiguous,
    Nat.pos_of_ne_zero blocks.1, blocks.2⟩, rangesChecked_of_ok same checked, here, there, chunk⟩

/-- What an accepted leading edge says about the slots of its tokens. -/
theorem leadingEdgeOf_ok {slotMapping : List ℤ} {blockSize numBlocks : ℕ} {start skip : ℤ}
    {leadingEdge : Option DirectIOLeadingEdge} (positive : 0 < blockSize) (nonneg : 0 ≤ start + skip)
    (read : leadingEdgeOf slotMapping blockSize numBlocks start skip = .ok leadingEdge) :
    (skip % blockSize = 0 ∧ leadingEdge = none) ∨
      ∃ physical : ℤ, skip % blockSize ≠ 0 ∧ (0 ≤ physical ∧ physical < numBlocks) ∧
        leadingEdge = some ⟨skip / blockSize, physical, skip % blockSize,
          blockSize - skip % blockSize⟩ ∧
        ∀ token slot : ℕ, skip % blockSize ≤ slot → slot < blockSize →
          (token : ℤ) = start + skip + (slot - skip % blockSize) →
            slotMapping.getD token 0 = physical * blockSize + slot := by
  unfold leadingEdgeOf at read
  simp only at read
  split at read
  · rename_i aligned
    cases read
    exact .inl ⟨aligned, rfl⟩
  rename_i partly
  right
  simp only [Checked.check_ok, not_or, not_lt, not_le, not_not, Except.ok.injEq] at read
  obtain ⟨⟨first, _, below, slots⟩, rfl⟩ := read
  generalize slotsEq : sliceOf slotMapping (start + skip)
    (start + skip + (blockSize - skip % blockSize)) = edgeSlots at first below slots ⊢
  generalize edgeSlots.headD 0 / (blockSize : ℤ) = physical at below slots ⊢
  have blockPositive : (0 : ℤ) < blockSize := by omega
  obtain ⟨offset, offsetEq⟩ := Int.eq_ofNat_of_zero_le (Int.emod_nonneg skip blockPositive.ne')
  have offsetIn : offset < blockSize := by
    have bound := Int.emod_lt_of_pos skip blockPositive
    omega
  rw [offsetEq, Int.toNat_natCast] at slots
  have head : edgeSlots.headD 0 = physical * blockSize + offset := by
    rw [slots, List.headD_eq_head?_getD, List.head?_eq_getElem?,
      blockSlotRange_getElem? physical (show offset + 0 < blockSize by omega), Nat.add_zero,
      Option.getD_some]
  have physicalNonneg : 0 ≤ physical := by
    rw [head] at first
    by_contra negative
    have bound : physical * (blockSize : ℤ) ≤ -1 * blockSize :=
      mul_le_mul_of_nonneg_right (by omega) blockPositive.le
    omega
  refine ⟨physical, partly, ⟨physicalNonneg, below⟩, rfl, ?_⟩
  intro token slot above inside place
  rw [offsetEq] at above place
  obtain ⟨step, rfl⟩ : ∃ step, slot = offset + step := ⟨slot - offset, by omega⟩
  have named := congrArg (·[step]?) slots
  simp only [blockSlotRange_getElem? physical inside] at named
  rw [← slotsEq, getElem?_sliceOf _ _ _ (by omega)] at named
  have same : (start + skip).toNat + step = token := by omega
  rw [same] at named
  rw [List.getD_eq_getElem?_getD, named, Option.getD_some]

/-! ### Rows of the cache -/

/-- The address of a row of a `[NB, NL, 2, BS, NH, HS]` cache. -/
def crossLayerRow (kvCache : Tensor) (block layer half slot : ℕ) : ℤ :=
  kvCache.toView.address [block, layer, half, slot, 0, 0]

/-- The chunk that a file for such a cache holds. -/
def crossLayerShape (kvCache : Tensor) (blockSize : ℕ) (chunkTokens : ℤ) : ChunkShape where
  numLayers := kvCache.dim 1
  chunkBlocks := (chunkTokens / blockSize).toNat
  blockSize := blockSize
  hiddenDim := kvCache.dim 4 * kvCache.dim 5
  itemsize := kvCache.elementSize

theorem exists_sixDims {tensor : Tensor} (rank : tensor.shape.length = 6) :
    tensor.shape = [tensor.dim 0, tensor.dim 1, tensor.dim 2, tensor.dim 3, tensor.dim 4,
      tensor.dim 5] := by
  unfold Tensor.dim
  match tensor.shape, rank with
  | [_, _, _, _, _, _], _ => rfl

section Rows

variable {kvCache : Tensor} {blockSize : ℕ} (cache : CrossLayerCache kvCache blockSize)
  (chunkTokens : ℤ)

include cache

theorem CrossLayerCache.blockNbytes_eq : crossLayerBlockNbytes kvCache =
    (crossLayerShape kvCache blockSize chunkTokens).blockNbytes := by
  simp only [crossLayerBlockNbytes, crossLayerShape, ChunkShape.blockNbytes,
    ChunkShape.layerBlockNbytes, ChunkShape.rowNbytes, cache.halves, cache.blocks]
  ring

/-- The bytes of the whole cache. -/
theorem CrossLayerCache.nbytes_eq : kvCache.numel * kvCache.elementSize =
    kvCache.dim 0 * (crossLayerShape kvCache blockSize chunkTokens).blockNbytes := by
  rw [← cache.blockNbytes_eq chunkTokens, Tensor.numel, exists_sixDims cache.rank]
  simp only [List.prod_cons, List.prod_nil, crossLayerBlockNbytes]
  ring

/-- The rows of a contiguous cache lie block by block. -/
theorem CrossLayerCache.row_eq {block layer half slot low : ℕ} (blockIn : block < kvCache.dim 0)
    (layerIn : layer < kvCache.dim 1) (halfIn : half < 2) (slotIn : slot < blockSize)
    (lowIn : low < (crossLayerShape kvCache blockSize chunkTokens).rowNbytes) :
    crossLayerRow kvCache block layer half slot + (low : ℤ) = kvCache.dataPtr +
      ((block * (crossLayerShape kvCache blockSize chunkTokens).blockNbytes +
        (crossLayerShape kvCache blockSize chunkTokens).blockPosition layer half slot low : ℕ)
          : ℤ) := by
  have dims := exists_sixDims cache.rank
  have row : 0 < kvCache.dim 4 * kvCache.dim 5 := by
    rcases Nat.eq_zero_or_pos (kvCache.dim 4 * kvCache.dim 5) with none | some
    · simp [ChunkShape.rowNbytes, crossLayerShape, none] at lowIn
    · exact some
  have inside : InRange kvCache.shape [block, layer, half, slot, 0, 0] := by
    rw [dims]
    simp only [inRange_cons, inRange_nil, and_true, cache.halves, cache.blocks]
    exact ⟨blockIn, layerIn, halfIn, slotIn, Nat.pos_of_mul_pos_right row,
      Nat.pos_of_mul_pos_left row⟩
  rw [crossLayerRow, Tensor.address_of_contiguous cache.contiguous inside, dims]
  simp only [offset_cons, offset_nil, List.prod_cons, List.prod_nil, crossLayerShape,
    ChunkShape.blockNbytes, ChunkShape.blockPosition, ChunkShape.layerBlockNbytes,
    ChunkShape.rowNbytes, cache.halves, cache.blocks]
  push_cast
  ring

end Rows

/-! ### Tokens and blocks -/

/-- A call of the builder and one chunk that it planned. -/
structure CrossLayerPlan where
  kvCache : Tensor
  slotMapping : List ℤ
  starts : List ℤ
  ends : List ℤ
  direction : DirectIODirection
  blockSize : ℕ
  skipBefore : ℤ
  plans : List DirectIOPlan
  built : buildBlockFirstDirectPlans kvCache slotMapping starts ends direction blockSize
    skipBefore = .ok plans
  index : ℕ
  start : ℤ
  stop : ℤ
  starts_at : starts[index]? = some start
  ends_at : ends[index]? = some stop
  descriptor : DirectIODescriptor
  planned : plans[index]? = some ⟨some descriptor, none⟩

namespace CrossLayerPlan

variable (plan : CrossLayerPlan)

/-- The chunk that a file for the planned call holds. -/
def shape : ChunkShape :=
  crossLayerShape plan.kvCache plan.blockSize (plan.stop - plan.start)

def skip : ℤ := leftOutTokens plan.direction plan.skipBefore plan.start plan.stop

/-- The row bytes of the transferred tokens of the chunk, in all layers and halves. -/
def Chosen (byte : RowByte) : Prop :=
  byte.layer < plan.shape.numLayers ∧ byte.half < 2 ∧ plan.start + plan.skip ≤ byte.token ∧
    (byte.token : ℤ) < plan.stop ∧ byte.low < plan.shape.rowNbytes

/-- Where a row byte belongs in the cache. -/
def place (byte : RowByte) : ℤ :=
  crossLayerRow plan.kvCache (plan.slotMapping.getD byte.token 0 / plan.blockSize).toNat byte.layer
    byte.half (plan.slotMapping.getD byte.token 0 % plan.blockSize).toNat + byte.low

/-- The position of a token in its chunk. -/
def chunkToken (byte : RowByte) : ℕ := (byte.token - plan.start).toNat

/-- Where a row byte is in the file. -/
def origin (byte : RowByte) : ℤ :=
  blockFirstHeaderSize + plan.shape.payloadPosition (plan.chunkToken byte / plan.blockSize)
    byte.layer byte.half (plan.chunkToken byte % plan.blockSize) byte.low

theorem spec : CrossLayerCache plan.kvCache plan.blockSize ∧
    RangesChecked plan.slotMapping plan.starts plan.ends ∧
    ∃ leadingEdge physicalBlocks, CrossLayerChunk plan.kvCache plan.slotMapping plan.direction
      plan.blockSize plan.skip plan.start plan.stop plan.descriptor leadingEdge physicalBlocks := by
  obtain ⟨start, stop, leadingEdge, physicalBlocks, cache, ranges, here, there, chunk⟩ :=
    crossLayerPlan_spec plan.built plan.planned
  have sameStart : start = plan.start := Option.some.inj (here.symm.trans plan.starts_at)
  have sameStop : stop = plan.stop := Option.some.inj (there.symm.trans plan.ends_at)
  subst sameStart sameStop
  exact ⟨cache, ranges, leadingEdge, physicalBlocks, chunk⟩

theorem cache : CrossLayerCache plan.kvCache plan.blockSize := plan.spec.1

theorem start_nonneg : 0 ≤ plan.start :=
  plan.spec.2.1.nonneg plan.start (List.mem_of_getElem? plan.starts_at)

theorem nonempty : plan.start < plan.stop :=
  plan.spec.2.1.nonempty plan.index plan.start plan.stop plan.starts_at plan.ends_at

theorem covered : plan.stop ≤ plan.slotMapping.length :=
  plan.spec.2.1.covered plan.stop (List.mem_of_getElem? plan.ends_at)

theorem skip_spec : 0 ≤ plan.skip ∧ plan.skip < plan.stop - plan.start := by
  obtain ⟨_, _, _, _, chunk⟩ := plan.spec
  have uncached := chunk.uncached
  have nonempty := plan.nonempty
  unfold skip leftOutTokens at *
  split at uncached
  · obtain ⟨nonneg, below, _⟩ := skipTokens_spec nonempty uncached
    simp only [if_pos ‹plan.direction = _›]
    exact ⟨nonneg, below⟩
  · simp only [if_neg ‹¬ plan.direction = _›]
    omega

/-- A retrieve transfers the tokens from the first uncached one on. -/
theorem first_of_retrieve (retrieves : plan.direction = .retrieve) :
    plan.start + plan.skip = max plan.start plan.skipBefore := by
  obtain ⟨_, _, _, _, chunk⟩ := plan.spec
  have uncached := chunk.uncached
  rw [skip, leftOutTokens, if_pos retrieves] at uncached
  rw [skip, leftOutTokens, if_pos retrieves]
  exact (skipTokens_spec plan.nonempty uncached).2.2

/-- The blocks of the descriptor have the size of the chunk's blocks. -/
theorem blockNbytes_eq : plan.descriptor.blockNbytes = plan.shape.blockNbytes := by
  obtain ⟨cache, _, _, _, chunk⟩ := plan.spec
  rw [chunk.descriptor_eq]
  exact congrArg Int.ofNat (cache.blockNbytes_eq _)

/-- The token is in a slot of a logical block of the chunk, and has that slot
of a physical block of the cache. -/
structure SlotOf (token : ℕ) (logical physical : ℤ) (slot : ℕ) : Prop where
  slotIn : slot < plan.blockSize
  above : plan.start + plan.skip ≤ token
  below : (token : ℤ) < plan.stop
  distance : (token : ℤ) - plan.start = logical * plan.blockSize + slot
  named : plan.slotMapping.getD token 0 = physical * plan.blockSize + slot
  physicalIn : 0 ≤ physical ∧ physical < plan.kvCache.dim 0

/-- The descriptor moves a slot of a block, by its leading edge or by a run. -/
def MovesSlot (logical physical : ℤ) (slot : ℕ) : Prop :=
  slot < plan.blockSize ∧
    ((∃ edge, plan.descriptor.leadingEdge = some edge ∧ logical = edge.logicalBlock ∧
        physical = edge.physicalBlock ∧ edge.tokenOffset ≤ slot) ∨
      (logical, physical) ∈ plan.descriptor.runs.flatMap runBlocks)

/-- What the leading edge of a descriptor says. -/
structure EdgeSplit (number : ℤ) (edge : DirectIOLeadingEdge) : Prop where
  logical : edge.logicalBlock = number - 1
  physicalIn : 0 ≤ edge.physicalBlock ∧ edge.physicalBlock < plan.kvCache.dim 0
  offsetIn : 0 < edge.tokenOffset ∧ edge.tokenOffset < plan.blockSize
  count : edge.tokenCount = plan.blockSize - edge.tokenOffset
  skipped : plan.skip = edge.logicalBlock * plan.blockSize + edge.tokenOffset
  named : ∀ token slot : ℕ, edge.tokenOffset ≤ slot → slot < plan.blockSize →
    (token : ℤ) = plan.start + edge.logicalBlock * plan.blockSize + slot →
      plan.slotMapping.getD token 0 = edge.physicalBlock * plan.blockSize + slot

/-- The runs take the blocks from number `number` on; what is transferred before
them is the leading edge. -/
structure Split (number : ℤ) (physicalBlocks : List ℤ) : Prop where
  nonneg : 0 ≤ number
  within : plan.start + number * plan.blockSize ≤ plan.stop
  whole : (plan.stop - (plan.start + number * plan.blockSize)) % plan.blockSize = 0
  blocksOf : BlocksOfSlots plan.blockSize (plan.kvCache.dim 0)
    (sliceOf plan.slotMapping (plan.start + number * plan.blockSize) plan.stop) physicalBlocks
  runs : plan.descriptor.runs = coalesceRuns number physicalBlocks
  edge : (plan.descriptor.leadingEdge = none ∧ plan.skip = number * plan.blockSize) ∨
    ∃ edge, plan.descriptor.leadingEdge = some edge ∧ plan.EdgeSplit number edge

theorem exists_split : ∃ number physicalBlocks, plan.Split number physicalBlocks := by
  obtain ⟨cache, _, leadingEdge, physicalBlocks, chunk⟩ := plan.spec
  obtain ⟨skipNonneg, skipBelow⟩ := plan.skip_spec
  have startNonneg := plan.start_nonneg
  have positive := cache.positive
  have parts := Int.mul_ediv_add_emod plan.skip plan.blockSize
  have wholeChunk := Int.mul_ediv_add_emod (plan.stop - plan.start) plan.blockSize
  rw [chunk.whole, add_zero] at wholeChunk
  have quotientNonneg : 0 ≤ plan.skip / plan.blockSize := Int.ediv_nonneg skipNonneg (by omega)
  have whole : ∀ number : ℤ,
      (plan.stop - (plan.start + number * plan.blockSize)) % plan.blockSize = 0 := by
    intro number
    rw [← sub_sub]
    exact Int.emod_eq_zero_of_dvd (dvd_sub (Int.dvd_of_emod_eq_zero chunk.whole)
      (Dvd.intro_left number rfl))
  have cancel : ∀ number : ℤ, number * plan.blockSize / plan.blockSize = number :=
    fun number => Int.mul_ediv_cancel number (by omega)
  have blocksOf := chunk.blocksOf
  have made := chunk.descriptor_eq
  rcases leadingEdgeOf_ok positive (by omega) chunk.edgeOf with
    ⟨aligned, rfl⟩ | ⟨physical, partly, inside, rfl, named⟩
  · have skipEq : plan.skip = plan.skip / plan.blockSize * plan.blockSize := by
      rw [mul_comm]
      omega
    simp only [Option.elim_none, add_zero] at blocksOf made
    rw [skipEq] at blocksOf
    refine ⟨plan.skip / plan.blockSize, physicalBlocks, quotientNonneg, ?_, whole _, blocksOf,
      congrArg DirectIODescriptor.runs made, .inl ⟨congrArg DirectIODescriptor.leadingEdge made,
        skipEq⟩⟩
    omega
  · have bound := Int.emod_lt_of_pos plan.skip (show (0 : ℤ) < plan.blockSize by omega)
    have low := Int.emod_nonneg plan.skip (show (plan.blockSize : ℤ) ≠ 0 by omega)
    have full : plan.skip + (plan.blockSize - plan.skip % plan.blockSize) =
        (plan.skip / plan.blockSize + 1) * plan.blockSize := by
      rw [add_mul, one_mul, mul_comm]
      omega
    simp only [Option.elim_some] at blocksOf made
    rw [full] at blocksOf made
    have runs := congrArg DirectIODescriptor.runs made
    simp only [blockFirstDescriptor, cancel] at runs
    refine ⟨plan.skip / plan.blockSize + 1, physicalBlocks, by omega, ?_, whole _, blocksOf, runs,
      .inr ⟨_, congrArg DirectIODescriptor.leadingEdge made, ?_⟩⟩
    · have ahead : plan.skip / plan.blockSize < (plan.stop - plan.start) / plan.blockSize := by
        by_contra behind
        have order : (plan.blockSize : ℤ) * ((plan.stop - plan.start) / plan.blockSize) ≤
            plan.blockSize * (plan.skip / plan.blockSize) :=
          mul_le_mul_of_nonneg_left (by omega) (by omega)
        omega
      have order : (plan.skip / plan.blockSize + 1) * (plan.blockSize : ℤ) ≤
          (plan.stop - plan.start) / plan.blockSize * plan.blockSize :=
        mul_le_mul_of_nonneg_right (by omega) (by omega)
      rw [mul_comm ((plan.stop - plan.start) / (plan.blockSize : ℤ))] at order
      omega
    · refine ⟨by simp only; omega, inside, ⟨by simp only; omega, bound⟩, rfl, ?_, ?_⟩
      · rw [mul_comm]
        exact parts.symm
      · intro token slot above slotIn reach
        apply named token slot above slotIn
        simp only [mul_comm (plan.skip / (plan.blockSize : ℤ))] at reach
        omega

/-- What is moved belongs to a transferred token. -/
theorem token_of_movesSlot {logical physical : ℤ} {slot : ℕ}
    (moved : plan.MovesSlot logical physical slot) :
    ∃ token, plan.SlotOf token logical physical slot := by
  obtain ⟨number, physicalBlocks, split⟩ := plan.exists_split
  have startNonneg := plan.start_nonneg
  have skipSpec := plan.skip_spec
  have nonneg := split.nonneg
  have within := split.within
  have scaled : 0 ≤ number * (plan.blockSize : ℤ) := by positivity
  obtain ⟨slotIn, ⟨edge, leading, rfl, rfl, above⟩ | inRuns⟩ := moved
  · rcases split.edge with ⟨none, _⟩ | ⟨same, found, edgeSplit⟩
    · rw [none] at leading
      cases leading
    · rw [found] at leading
      cases leading
      obtain ⟨token, reach⟩ : ∃ token : ℕ,
          (token : ℤ) = plan.start + edge.logicalBlock * plan.blockSize + slot := by
        refine Int.eq_ofNat_of_zero_le ?_ |>.imp fun _ eq => eq.symm
        have skipped := edgeSplit.skipped
        omega
      have skipped := edgeSplit.skipped
      have logical := congrArg (· * (plan.blockSize : ℤ)) edgeSplit.logical
      simp only [sub_mul, one_mul] at logical
      refine ⟨token, slotIn, by omega, by omega, by omega,
        edgeSplit.named token slot above slotIn reach, edgeSplit.physicalIn⟩
  · rw [split.runs] at inRuns
    obtain ⟨index, block, here, same⟩ := mem_coalesceRuns_blocks.mp inRuns
    obtain ⟨rfl, rfl⟩ := Prod.mk.inj same
    obtain ⟨token, reach, below, named⟩ := split.blocksOf.block_token (by omega) plan.covered here
      slotIn
    have skipped : plan.skip ≤ number * plan.blockSize := by
      rcases split.edge with ⟨_, equal⟩ | ⟨edge, _, edgeSplit⟩
      · omega
      · have equal := edgeSplit.skipped
        have offset := edgeSplit.offsetIn
        rw [edgeSplit.logical, sub_mul, one_mul] at equal
        omega
    push_cast at reach
    refine ⟨token, slotIn, ?_, below, ?_, named,
      split.blocksOf.inRange _ (List.mem_of_getElem? here)⟩
    · have product : 0 ≤ (index : ℤ) * plan.blockSize := by positivity
      omega
    · rw [reach]
      ring

/-- Every transferred token is moved. -/
theorem exists_movesSlot {token : ℕ} (above : plan.start + plan.skip ≤ token)
    (below : (token : ℤ) < plan.stop) :
    ∃ logical physical slot, plan.MovesSlot logical physical slot ∧
      plan.SlotOf token logical physical slot := by
  obtain ⟨number, physicalBlocks, split⟩ := plan.exists_split
  have startNonneg := plan.start_nonneg
  have nonneg := split.nonneg
  have scaled : 0 ≤ number * (plan.blockSize : ℤ) := by positivity
  by_cases behind : plan.start + number * plan.blockSize ≤ token
  · obtain ⟨index, slot, block, here, slotIn, reach, named⟩ := split.blocksOf.token_block
      (by omega) plan.covered split.whole behind below
    refine ⟨number + index, block, slot, ⟨slotIn, .inr ?_⟩, slotIn, above, below, ?_, named,
      split.blocksOf.inRange _ (List.mem_of_getElem? here)⟩
    · rw [split.runs]
      exact mem_coalesceRuns_blocks.mpr ⟨index, block, here, rfl⟩
    · push_cast at reach
      rw [reach]
      ring
  · rcases split.edge with ⟨_, skipped⟩ | ⟨edge, leading, edgeSplit⟩
    · omega
    · have skipped := edgeSplit.skipped
      have logical := congrArg (· * (plan.blockSize : ℤ)) edgeSplit.logical
      simp only [sub_mul, one_mul] at logical
      have offset := edgeSplit.offsetIn
      obtain ⟨slot, reach⟩ : ∃ slot : ℕ,
          (slot : ℤ) = token - plan.start - edge.logicalBlock * plan.blockSize :=
        ⟨(token - plan.start - edge.logicalBlock * plan.blockSize).toNat, by omega⟩
      have slotIn : slot < plan.blockSize := by omega
      exact ⟨edge.logicalBlock, edge.physicalBlock, slot,
        ⟨slotIn, .inl ⟨edge, leading, rfl, rfl, by omega⟩⟩, slotIn, above, below, by omega,
        edgeSplit.named token slot (by omega) slotIn (by omega), edgeSplit.physicalIn⟩

/-! ### Places and origins -/

/-- The blocks and the slot of a transferred token, read off the slot mapping. -/
theorem SlotOf.parts {token slot : ℕ} {logical physical : ℤ}
    (slotOf : plan.SlotOf token logical physical slot) :
    plan.slotMapping.getD token 0 / plan.blockSize = physical ∧
      plan.slotMapping.getD token 0 % plan.blockSize = slot ∧
      (((token - plan.start).toNat / plan.blockSize : ℕ) : ℤ) = logical ∧
      (token - plan.start).toNat % plan.blockSize = slot := by
  have positive := plan.cache.positive
  have slotIn := slotOf.slotIn
  have nonzero : (plan.blockSize : ℤ) ≠ 0 := by omega
  have quotient : ∀ block : ℤ, (block * plan.blockSize + slot) / plan.blockSize = block := by
    intro block
    rw [add_comm, Int.add_mul_ediv_right _ _ nonzero, Int.ediv_eq_zero_of_lt (by omega) (by omega),
      zero_add]
  have remainder : ∀ block : ℤ, (block * plan.blockSize + slot) % plan.blockSize = slot := by
    intro block
    rw [add_comm, Int.add_mul_emod_self_right, Int.emod_eq_of_lt (by omega) (by omega)]
  have distance : (((token - plan.start).toNat : ℕ) : ℤ) = logical * plan.blockSize + slot := by
    have above := slotOf.above
    have skipNonneg := plan.skip_spec.1
    rw [← slotOf.distance]
    exact Int.toNat_of_nonneg (by omega)
  refine ⟨by rw [slotOf.named, quotient], by rw [slotOf.named, remainder], ?_, ?_⟩
  · rw [Int.natCast_ediv, distance, quotient]
  · have cast : (((token - plan.start).toNat % plan.blockSize : ℕ) : ℤ) = slot := by
      rw [Int.natCast_emod, distance, remainder]
    exact Int.ofNat.inj cast

theorem place_of_slot (byte : RowByte) {logical physical : ℤ} {slot : ℕ}
    (slotOf : plan.SlotOf byte.token logical physical slot)
    (layerIn : byte.layer < plan.shape.numLayers) (halfIn : byte.half < 2)
    (lowIn : byte.low < plan.shape.rowNbytes) :
    plan.place byte = plan.kvCache.dataPtr + physical * plan.shape.blockNbytes +
      (plan.shape.blockPosition byte.layer byte.half slot byte.low : ℤ) := by
  obtain ⟨blocks, slots, _, _⟩ := slotOf.parts
  obtain ⟨nonneg, below⟩ := slotOf.physicalIn
  obtain ⟨number, rfl⟩ := Int.eq_ofNat_of_zero_le nonneg
  rw [place, blocks, slots, Int.toNat_natCast, Int.toNat_natCast]
  refine (plan.cache.row_eq (plan.stop - plan.start) (by omega) layerIn halfIn slotOf.slotIn
    lowIn).trans ?_
  rw [shape]
  push_cast
  ring

theorem origin_of_slot (byte : RowByte) {logical physical : ℤ} {slot : ℕ}
    (slotOf : plan.SlotOf byte.token logical physical slot) :
    plan.origin byte = blockFirstHeaderSize + logical * plan.shape.blockNbytes +
      (plan.shape.blockPosition byte.layer byte.half slot byte.low : ℤ) := by
  obtain ⟨_, _, blocks, slots⟩ := slotOf.parts
  rw [origin, chunkToken, ChunkShape.payloadPosition, slots, ← blocks]
  push_cast
  ring

/-- The row bytes of the transferred tokens are the bytes of the moved slots. -/
theorem exists_chosen_iff (from' address : ℤ) :
    (∃ byte, plan.Chosen byte ∧ address = plan.place byte ∧ from' = plan.origin byte) ↔
      ∃ logical physical slot, plan.MovesSlot logical physical slot ∧
        ∃ layer half low : ℕ, layer < plan.shape.numLayers ∧ half < 2 ∧
          low < plan.shape.rowNbytes ∧
          address = plan.kvCache.dataPtr + physical * plan.shape.blockNbytes +
            (plan.shape.blockPosition layer half slot low : ℤ) ∧
          from' = blockFirstHeaderSize + logical * plan.shape.blockNbytes +
            (plan.shape.blockPosition layer half slot low : ℤ) := by
  constructor
  · rintro ⟨byte, ⟨layerIn, halfIn, above, below, lowIn⟩, rfl, rfl⟩
    obtain ⟨logical, physical, slot, moved, slotOf⟩ := plan.exists_movesSlot above below
    exact ⟨logical, physical, slot, moved, byte.layer, byte.half, byte.low, layerIn, halfIn, lowIn,
      plan.place_of_slot byte slotOf layerIn halfIn lowIn, plan.origin_of_slot byte slotOf⟩
  · rintro ⟨logical, physical, slot, moved, layer, half, low, layerIn, halfIn, lowIn, rfl, rfl⟩
    obtain ⟨token, slotOf⟩ := plan.token_of_movesSlot moved
    exact ⟨⟨layer, half, token, low⟩, ⟨layerIn, halfIn, slotOf.above, slotOf.below, lowIn⟩,
      (plan.place_of_slot ⟨layer, half, token, low⟩ slotOf layerIn halfIn lowIn).symm,
      (plan.origin_of_slot ⟨layer, half, token, low⟩ slotOf).symm⟩

/-- With distinct blocks, row bytes at one place are the same byte of the chunk. -/
theorem chosen_eq_of_place (distinct : DistinctBlocks plan.slotMapping plan.blockSize plan.start
      (plan.start + plan.skip) plan.stop)
    {left right : RowByte} (chosen : plan.Chosen left) (chosen' : plan.Chosen right)
    (same : plan.place left = plan.place right) :
    left.layer = right.layer ∧ left.half = right.half ∧
      plan.chunkToken left = plan.chunkToken right ∧ left.low = right.low := by
  obtain ⟨layerIn, halfIn, above, below, lowIn⟩ := chosen
  obtain ⟨layerIn', halfIn', above', below', lowIn'⟩ := chosen'
  obtain ⟨logical, physical, slot, _, slotOf⟩ := plan.exists_movesSlot above below
  obtain ⟨logical', physical', slot', _, slotOf'⟩ := plan.exists_movesSlot above' below'
  obtain ⟨block, rfl⟩ := Int.eq_ofNat_of_zero_le slotOf.physicalIn.1
  obtain ⟨block', rfl⟩ := Int.eq_ofNat_of_zero_le slotOf'.physicalIn.1
  rw [plan.place_of_slot left slotOf layerIn halfIn lowIn,
    plan.place_of_slot right slotOf' layerIn' halfIn' lowIn'] at same
  have positions : block * plan.shape.blockNbytes +
      plan.shape.blockPosition left.layer left.half slot left.low =
        block' * plan.shape.blockNbytes +
          plan.shape.blockPosition right.layer right.half slot' right.low := by
    zify
    linarith
  obtain ⟨rfl, inner⟩ := digit_inj (plan.shape.blockPosition_lt layerIn halfIn slotOf.slotIn lowIn)
    (plan.shape.blockPosition_lt layerIn' halfIn' slotOf'.slotIn lowIn') positions
  obtain ⟨layers, halves, rfl, lows⟩ := plan.shape.blockPosition_inj halfIn halfIn' slotOf.slotIn
    slotOf'.slotIn lowIn lowIn' inner
  refine ⟨layers, halves, ?_, lows⟩
  have quotients := distinct left.token right.token above below above' below'
    (slotOf.parts.1.trans slotOf'.parts.1.symm)
  rw [chunkToken, chunkToken, ← Nat.div_add_mod (left.token - plan.start).toNat plan.blockSize,
    ← Nat.div_add_mod (right.token - plan.start).toNat plan.blockSize, quotients,
    slotOf.parts.2.2.2, slotOf'.parts.2.2.2]

end CrossLayerPlan

end LMCacheHcu.Storage
