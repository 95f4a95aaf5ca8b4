import LMCacheHcu.Storage.CrossLayerPlan
import LMCacheHcu.Storage.DescriptorChecks
import Mathlib.Data.List.Chain

/-! # Builders and their validator

The block-first and the per-layer builder call `validate` on every descriptor
they make, outside of any handler. What they have computed of the slots
satisfies each of its checks, so a call whose ranges pass returns one plan for
each chunk.
-/

namespace LMCacheHcu.Storage

open Tilings

/-! ### Coalesced runs -/

/-- The physical blocks of a run, in order. -/
def DirectIOBlockRun.physicalBlocks (run : DirectIOBlockRun) : List ℤ :=
  (runBlocks run).map Prod.snd

/-- The second run goes on in the allocation where the first one ends. -/
def DirectIOBlockRun.Mergeable (before after : DirectIOBlockRun) : Prop :=
  after.physicalBlockStart = before.physicalBlockStart + before.blockCount

instance (before after : DirectIOBlockRun) : Decidable (before.Mergeable after) :=
  inferInstanceAs (Decidable (_ = _))

/-- Runs of the blocks from `logicalStart` to `logicalStop` that are as long as
they can be and lie among `numBlocks` physical blocks. -/
structure Coalesced (logicalStart logicalStop : ℤ) (numBlocks : ℕ)
    (runs : List DirectIOBlockRun) : Prop where
  tiles : RunsTile logicalStart logicalStop runs
  maximal : runs.IsChain fun before after => ¬ before.Mergeable after
  inside : ∀ run ∈ runs, 0 ≤ run.physicalBlockStart ∧
    run.physicalBlockStart + run.blockCount ≤ numBlocks

variable {logicalStart logicalStop : ℤ} {numBlocks : ℕ} {closed : List DirectIOBlockRun}
  {current : DirectIOBlockRun} {physicalBlock : ℤ}

/-- The current run goes on for one more block. -/
theorem Coalesced.extend (runs : Coalesced logicalStart logicalStop numBlocks (closed ++ [current]))
    (adjacent : physicalBlock = current.physicalBlockStart + current.blockCount)
    (below : physicalBlock < numBlocks) :
    Coalesced logicalStart (logicalStop + 1) numBlocks
      (closed ++ [{ current with blockCount := current.blockCount + 1 }]) where
  tiles := by
    obtain ⟨earlier, proper, stops⟩ := Tiles.concat_iff.mp runs.tiles
    unfold DirectIOBlockRun.logicalBlockStop at proper stops
    refine Tiles.concat_iff.mpr ⟨earlier, ?_, ?_⟩
    · simp only [DirectIOBlockRun.logicalBlockStop]
      omega
    · simp only [DirectIOBlockRun.logicalBlockStop]
      omega
  maximal := by
    -- the run before compares with the start of the current one, which stays
    obtain ⟨earlier, _, border⟩ := List.isChain_append.mp runs.maximal
    exact List.isChain_append.mpr ⟨earlier, .singleton _, fun before last after head => by
      obtain rfl : _ = after := by simpa using head
      exact border before last current rfl⟩
  inside := by
    intro run member
    rcases List.mem_append.mp member with earlier | same
    · exact runs.inside run (List.mem_append_left _ earlier)
    · obtain rfl := List.mem_singleton.mp same
      have known := runs.inside current (List.mem_append_right _ List.mem_cons_self)
      refine ⟨known.1, ?_⟩
      simp only
      omega

/-- The current run is closed and the block starts the next one. -/
theorem Coalesced.next (runs : Coalesced logicalStart logicalStop numBlocks (closed ++ [current]))
    (apart : physicalBlock ≠ current.physicalBlockStart + current.blockCount)
    (nonneg : 0 ≤ physicalBlock) (below : physicalBlock < numBlocks) :
    Coalesced logicalStart (logicalStop + 1) numBlocks
      (closed ++ [current] ++ [⟨logicalStop, physicalBlock, 1⟩]) where
  tiles := Tiles.concat_iff.mpr ⟨runs.tiles, Int.lt_succ logicalStop, rfl⟩
  maximal := List.isChain_append.mpr ⟨runs.maximal, .singleton _, fun before last after head => by
    obtain rfl : _ = after := by simpa using head
    obtain rfl : current = before := by simpa using last
    exact apart⟩
  inside := by
    intro run member
    rcases List.mem_append.mp member with earlier | same
    · exact runs.inside run earlier
    · obtain rfl := List.mem_singleton.mp same
      exact ⟨nonneg, below⟩

/-- The loop over the remaining blocks. -/
theorem coalesced_foldl {rest : List ℤ} {reached : ℕ}
    (state : List DirectIOBlockRun × DirectIOBlockRun)
    (inRange : ∀ block ∈ rest, 0 ≤ block ∧ block < numBlocks)
    (runs : Coalesced logicalStart (logicalStart + reached) numBlocks (state.1 ++ [state.2])) :
    let final := (rest.zipIdx reached).foldl (extendRuns logicalStart) state
    Coalesced logicalStart (logicalStart + (reached + rest.length : ℕ)) numBlocks
      (final.1 ++ [final.2]) := by
  induction rest generalizing reached state with
  | nil => exact runs
  | cons block rest ih =>
      obtain ⟨⟨nonneg, below⟩, others⟩ := List.forall_mem_cons.mp inRange
      have step : Coalesced logicalStart (logicalStart + (reached + 1 : ℕ)) numBlocks
          ((extendRuns logicalStart state (block, reached)).1 ++
            [(extendRuns logicalStart state (block, reached)).2]) := by
        rw [Nat.cast_succ, ← add_assoc]
        by_cases adjacent : block = state.2.physicalBlockStart + state.2.blockCount
        · rw [extendRuns, if_pos adjacent]
          exact runs.extend adjacent below
        · rw [extendRuns, if_neg adjacent]
          exact runs.next adjacent nonneg below
      have whole := ih _ others step
      rw [Nat.add_right_comm] at whole
      exact whole

theorem coalesced_coalesceRuns {physicalBlocks : List ℤ}
    (inRange : ∀ block ∈ physicalBlocks, 0 ≤ block ∧ block < numBlocks) :
    Coalesced logicalStart (logicalStart + physicalBlocks.length) numBlocks
      (coalesceRuns logicalStart physicalBlocks) := by
  cases physicalBlocks with
  | nil =>
      refine ⟨?_, .nil, fun run member => absurd member List.not_mem_nil⟩
      rw [List.length_nil, Nat.cast_zero, add_zero]
      exact .nil _
  | cons block rest =>
      obtain ⟨⟨nonneg, below⟩, others⟩ := List.forall_mem_cons.mp inRange
      have single : Coalesced logicalStart (logicalStart + (1 : ℕ)) numBlocks
          [⟨logicalStart, block, 1⟩] := by
        refine ⟨.cons rfl (Int.lt_succ _) (.nil _), .singleton _, fun run member => ?_⟩
        obtain rfl := List.mem_singleton.mp member
        exact ⟨nonneg, below⟩
      have whole := coalesced_foldl ([], ⟨logicalStart, block, 1⟩) others single
      rw [Nat.add_comm] at whole
      exact whole

/-- The runs expand to the blocks that were coalesced. -/
theorem physicalBlocks_coalesceRuns (logicalStart : ℤ) (physicalBlocks : List ℤ) :
    (coalesceRuns logicalStart physicalBlocks).flatMap DirectIOBlockRun.physicalBlocks =
      physicalBlocks := by
  have blocks := congrArg (List.map Prod.snd) (coalesceRuns_blocks logicalStart physicalBlocks)
  rw [List.map_flatMap, List.map_map] at blocks
  refine blocks.trans ?_
  exact List.zipIdx_map_fst 0 physicalBlocks

/-! ### Tensors in memory -/

/-- A tensor with elements, in memory. Nothing that is allocated begins at the
address zero, which stands for no memory. -/
structure Tensor.Resident (tensor : Tensor) : Prop where
  positive : ∀ size ∈ tensor.shape, 0 < size
  allocated : 0 < tensor.storageBase

theorem Tensor.Resident.numel_pos {tensor : Tensor} (resident : tensor.Resident) :
    0 < tensor.numel :=
  List.prod_pos resident.positive

theorem Tensor.Resident.dataPtr_pos {tensor : Tensor} (resident : tensor.Resident) :
    0 < tensor.dataPtr :=
  Nat.lt_of_lt_of_le resident.allocated (Nat.le_add_right _ _)

theorem Tensor.Resident.dim_pos {tensor : Tensor} (resident : tensor.Resident) {axis : ℕ}
    (inside : axis < tensor.ndim) : 0 < tensor.dim axis := by
  rw [Tensor.dim, List.getD_eq_getElem?_getD, List.getElem?_eq_getElem inside]
  exact resident.positive _ (List.getElem_mem inside)

/-! ### One block-first allocation -/

theorem CrossLayerCache.blockNbytes_pos {kvCache : Tensor} {blockSize : ℕ}
    (cache : CrossLayerCache kvCache blockSize) (resident : kvCache.Resident) :
    0 < crossLayerBlockNbytes kvCache := by
  have rank : kvCache.ndim = 6 := cache.rank
  unfold crossLayerBlockNbytes
  have size := kvCache.dtype.itemsize_pos
  have dims : ∀ axis < 6, 0 < kvCache.dim axis := fun axis below =>
    resident.dim_pos (rank ▸ below)
  have element : 0 < kvCache.elementSize := size
  have first := dims 1 (by omega)
  have second := dims 2 (by omega)
  have third := dims 3 (by omega)
  have fourth := dims 4 (by omega)
  have fifth := dims 5 (by omega)
  positivity

/-- The allocation has room for the blocks of the cache. -/
theorem CrossLayerCache.capacity {kvCache : Tensor} {blockSize : ℕ}
    (cache : CrossLayerCache kvCache blockSize) (resident : kvCache.Resident) :
    ((kvCache.numel * kvCache.elementSize : ℕ) : ℤ) / (crossLayerBlockNbytes kvCache : ℤ) =
      kvCache.dim 0 := by
  rw [cache.nbytes_eq 0, cache.blockNbytes_eq 0]
  push_cast
  refine Int.mul_ediv_cancel _ ?_
  rw [← cache.blockNbytes_eq 0]
  exact_mod_cast (cache.blockNbytes_pos resident).ne'

theorem leftOutTokens_spec {direction : DirectIODirection} {skipBefore start stop : ℤ}
    (nonempty : start < stop)
    (uncached : leftOutTokens direction skipBefore start stop ≠ stop - start) :
    0 ≤ leftOutTokens direction skipBefore start stop ∧
      leftOutTokens direction skipBefore start stop < stop - start ∧
      (leftOutTokens direction skipBefore start stop ≠ 0 → direction = .retrieve) := by
  unfold leftOutTokens at uncached ⊢
  split
  · rename_i retrieves
    rw [if_pos retrieves] at uncached
    obtain ⟨nonneg, below, _⟩ := skipTokens_spec nonempty uncached
    exact ⟨nonneg, below, fun _ => retrieves⟩
  · exact ⟨le_rfl, by omega, fun moved => absurd rfl moved⟩

/-- The slots from a block boundary on make up the rest of the blocks. -/
theorem BlocksOfSlots.total {blockSize numBlocks : ℕ} {slotMapping physicalBlocks : List ℤ}
    {first stop : ℤ} (blocks : BlocksOfSlots blockSize numBlocks (sliceOf slotMapping first stop)
      physicalBlocks) (nonneg : 0 ≤ first) (reached : first ≤ stop)
    (covered : stop ≤ slotMapping.length) (whole : (stop - first) % blockSize = 0) :
    (physicalBlocks.length : ℤ) * blockSize = stop - first := by
  have length := blocks.length_eq
  rw [length_sliceOf nonneg covered] at length
  have cast : (((stop - first).toNat : ℕ) : ℤ) = stop - first := Int.toNat_of_nonneg (by omega)
  rw [length, Int.natCast_ediv, cast]
  exact Int.ediv_mul_cancel (Int.dvd_of_emod_eq_zero whole)

/-- A leading edge in front of the block `number`. -/
structure EdgeBefore (blockSize numBlocks : ℕ) (skip number : ℤ) (edge : DirectIOLeadingEdge) :
    Prop where
  logicalBlock : 0 ≤ edge.logicalBlock
  physicalBlock : 0 ≤ edge.physicalBlock ∧ edge.physicalBlock < numBlocks
  tokenOffset : 0 < edge.tokenOffset ∧ edge.tokenOffset < blockSize
  tokenCount : edge.tokenCount = blockSize - edge.tokenOffset
  follows : number = edge.logicalBlock + 1
  skip_eq : skip = edge.logicalBlock * blockSize + edge.tokenOffset

/-- The runs of a chunk begin at the block `number`: behind the edge, or where
the cached tokens end. -/
structure Begins (direction : DirectIODirection) (blockSize numBlocks : ℕ) (skip chunkTokens : ℤ)
    (leadingEdge : Option DirectIOLeadingEdge) (number : ℤ) : Prop where
  nonneg : 0 ≤ number
  fullStart : skip + leadingEdge.elim 0 DirectIOLeadingEdge.tokenCount = number * blockSize
  within : number * blockSize ≤ chunkTokens
  retrieves : leadingEdge ≠ none → direction = .retrieve
  edge : ∀ edge, leadingEdge = some edge → EdgeBefore blockSize numBlocks skip number edge

variable {kvCache : Tensor} {slotMapping : List ℤ} {direction : DirectIODirection}
  {blockSize : ℕ} {skip start stop chunkTokens number : ℤ} {descriptor : DirectIODescriptor}
  {leadingEdge : Option DirectIOLeadingEdge} {physicalBlocks : List ℤ}

theorem CrossLayerChunk.exists_begins (chunk : CrossLayerChunk kvCache slotMapping direction
      blockSize skip start stop descriptor leadingEdge physicalBlocks) (positive : 0 < blockSize)
    (startNonneg : 0 ≤ start) (skipNonneg : 0 ≤ skip) (skipBelow : skip < stop - start)
    (retrieves : skip ≠ 0 → direction = .retrieve) :
    ∃ number, Begins direction blockSize (kvCache.dim 0) skip (stop - start) leadingEdge
      number := by
  have size : (0 : ℤ) < blockSize := Int.natCast_pos.mpr positive
  have parts := Int.mul_ediv_add_emod skip blockSize
  have quotientNonneg : 0 ≤ skip / blockSize := Int.ediv_nonneg skipNonneg size.le
  rw [mul_comm] at parts
  rcases leadingEdgeOf_ok positive (by omega) chunk.edgeOf with
    ⟨aligned, rfl⟩ | ⟨physical, partly, inside, rfl, _⟩
  · have start : skip + (none : Option DirectIOLeadingEdge).elim 0
        DirectIOLeadingEdge.tokenCount = skip / blockSize * blockSize := by
      rw [Option.elim_none]
      omega
    exact ⟨skip / blockSize, quotientNonneg, start, by omega, fun edged => absurd rfl edged,
      fun edge present => absurd present (Option.some_ne_none edge).symm⟩
  · have low := Int.emod_nonneg skip size.ne'
    have high := Int.emod_lt_of_pos skip size
    -- the chunk consists of whole blocks, so the block of the edge ends inside it
    have ahead : skip / blockSize < (stop - start) / blockSize := by
      apply Int.ediv_lt_of_lt_mul size
      rw [Int.ediv_mul_cancel (Int.dvd_of_emod_eq_zero chunk.whole)]
      exact skipBelow
    have within : (skip / blockSize + 1) * (blockSize : ℤ) ≤ stop - start := by
      have scaled := mul_le_mul_of_nonneg_right (Int.add_one_le_of_lt ahead) size.le
      rwa [Int.ediv_mul_cancel (Int.dvd_of_emod_eq_zero chunk.whole)] at scaled
    have next : (skip / blockSize + 1) * (blockSize : ℤ) =
        skip / blockSize * blockSize + blockSize := by ring
    refine ⟨skip / blockSize + 1, by omega, ?_, within, fun _ => retrieves ?_, fun edge present => ?_⟩
    · rw [Option.elim_some, next]
      simp only
      omega
    · rintro rfl
      exact partly (Int.zero_emod _)
    · cases present
      exact ⟨quotientNonneg, inside, ⟨by simp only; omega, high⟩, rfl, rfl, parts.symm⟩

section Descriptor

variable (cache : CrossLayerCache kvCache blockSize) (resident : kvCache.Resident)
  (begins : Begins direction blockSize (kvCache.dim 0) skip chunkTokens leadingEdge number)
  (total : (physicalBlocks.length : ℤ) * blockSize = chunkTokens - number * blockSize)
  (made : descriptor = blockFirstDescriptor kvCache direction blockSize chunkTokens skip
    (number * blockSize) leadingEdge physicalBlocks)

include cache resident begins total made

theorem blockFirstDescriptor_basics (skipBelow : skip < chunkTokens) :
    descriptor.Basics false := by
  subst made
  have size : (0 : ℤ) < blockSize := Int.natCast_pos.mpr cache.positive
  exact {
    device := fun required => absurd required Bool.false_ne_true
    allocationBase := Int.natCast_pos.mpr resident.dataPtr_pos
    allocationNbytes :=
      Int.natCast_pos.mpr (Nat.mul_pos resident.numel_pos kvCache.dtype.itemsize_pos)
    engineGroupId := le_rfl
    blockNbytes := Int.natCast_pos.mpr (cache.blockNbytes_pos resident)
    blockSize := size
    logicalBlockStart := Int.ediv_nonneg (mul_nonneg begins.nonneg size.le) size.le
    logicalBlockCount := Int.natCast_nonneg _
    transferable := by
      -- no block and no edge would leave every token of the chunk cached
      intro empty unedged
      have start := begins.fullStart
      simp only [blockFirstDescriptor] at empty unedged
      rw [unedged, Option.elim_none] at start
      rw [empty] at total
      omega
    lifetimeToken := rfl
    synchronous := rfl
    filePayloadOffset := rfl }

theorem blockFirstDescriptor_runsValid
    (inRange : ∀ block ∈ physicalBlocks, 0 ≤ block ∧ block < kvCache.dim 0) :
    descriptor.RunsValid := by
  have size : (0 : ℤ) < blockSize := Int.natCast_pos.mpr cache.positive
  have quotient : number * (blockSize : ℤ) / blockSize = number :=
    Int.mul_ediv_cancel number size.ne'
  have capacity : descriptor.physicalBlockCapacity = kvCache.dim 0 := by
    rw [made]
    exact cache.capacity resident
  rw [blockFirstDescriptor, quotient] at made
  have coalesced : Coalesced number (number + physicalBlocks.length) (kvCache.dim 0)
      (coalesceRuns number physicalBlocks) := coalesced_coalesceRuns inRange
  have start := begins.fullStart
  refine ⟨?_, fun run member => ?_, fun unedged => ?_, fun edge leading => ?_⟩
  · rw [made]
    exact coalesced.tiles
  · rw [DirectIODescriptor.RunInside, capacity]
    rw [made] at member
    exact coalesced.inside run member
  · rw [made] at unedged ⊢
    simp only at unedged ⊢
    rw [unedged, Option.elim_none, add_zero] at start
    exact ⟨start, by omega⟩
  · have present : leadingEdge = some edge := by
      rw [made] at leading
      exact leading
    have before := begins.edge edge present
    rw [present, Option.elim_some] at start
    refine ⟨⟨?_, before.logicalBlock, ?_, ?_, ?_, ?_, ?_⟩, ?_⟩
    · rw [made]
      exact begins.retrieves (by simp [present])
    · rw [capacity]
      exact before.physicalBlock
    · rw [made]
      exact before.tokenOffset
    · rw [made]
      exact before.tokenCount
    · rw [made]
      exact before.follows
    · rw [made]
      exact before.skip_eq
    · rw [made]
      simp only
      omega

end Descriptor

/-- **The block-first builder satisfies its validator.** -/
theorem CrossLayerChunk.validate (cache : CrossLayerCache kvCache blockSize)
    (resident : kvCache.Resident) (chunk : CrossLayerChunk kvCache slotMapping direction blockSize
      skip start stop descriptor leadingEdge physicalBlocks)
    (startNonneg : 0 ≤ start) (skipNonneg : 0 ≤ skip) (skipBelow : skip < stop - start)
    (retrieves : skip ≠ 0 → direction = .retrieve) (covered : stop ≤ slotMapping.length) :
    descriptor.validate false false = .ok () := by
  obtain ⟨number, begins⟩ := chunk.exists_begins cache.positive startNonneg skipNonneg skipBelow
    retrieves
  have within := begins.within
  have scaled : 0 ≤ number * (blockSize : ℤ) := mul_nonneg begins.nonneg (Int.natCast_nonneg _)
  have blocks := chunk.blocksOf
  have made := chunk.descriptor_eq
  rw [begins.fullStart] at blocks made
  have total : (physicalBlocks.length : ℤ) * blockSize = stop - start - number * blockSize := by
    rw [sub_sub]
    refine blocks.total (by omega) (by omega) covered ?_
    rw [← sub_sub]
    exact Int.emod_eq_zero_of_dvd (dvd_sub (Int.dvd_of_emod_eq_zero chunk.whole)
      (Dvd.intro_left number rfl))
  have runs := blockFirstDescriptor_runsValid cache resident begins total made blocks.inRange
  have basics := blockFirstDescriptor_basics cache resident begins total made skipBelow
  have segments : descriptor.byteSegments = [] := by rw [made, blockFirstDescriptor]
  exact DirectIODescriptor.validate_ok.mpr ⟨basics,
    fun _ => ⟨runs, fun required => absurd required Bool.false_ne_true⟩,
    fun present => absurd segments present⟩

/-! ### The plans of a call -/

/-- A plan that a builder returns: a descriptor that passes `validate`, or a
reason to fall back. -/
def DirectIOPlan.Settled (plan : DirectIOPlan) : Prop :=
  (∃ reason, plan = fallback reason) ∨
    ∃ descriptor, plan = ⟨some descriptor, none⟩ ∧ descriptor.validate false false = .ok ()

/-- The runs of the descriptor expand to its physical blocks, and none of them
could be joined with the next. -/
def DirectIODescriptor.ListsBlocks (descriptor : DirectIODescriptor) : Prop :=
  descriptor.runs.flatMap DirectIOBlockRun.physicalBlocks = descriptor.physicalBlockIds ∧
    descriptor.runs.IsChain fun before after => ¬ before.Mergeable after

theorem settled_fallback (reason : String) : (fallback reason).Settled := .inl ⟨reason, rfl⟩

theorem CrossLayerChunk.listsBlocks (chunk : CrossLayerChunk kvCache slotMapping direction
      blockSize skip start stop descriptor leadingEdge physicalBlocks) :
    descriptor.ListsBlocks := by
  rw [chunk.descriptor_eq]
  exact ⟨physicalBlocks_coalesceRuns _ _, (coalesced_coalesceRuns chunk.blocksOf.inRange).maximal⟩

/-- One chunk whose range has passed the checks. -/
theorem planBlockFirst_returns (cache : CrossLayerCache kvCache blockSize)
    (resident : kvCache.Resident) (skipBefore : ℤ) (nonneg : 0 ≤ start) (nonempty : start < stop)
    (covered : stop ≤ slotMapping.length) :
    ∃ plan, planBlockFirst kvCache slotMapping direction blockSize skipBefore (start, stop) =
        .ok plan ∧ plan.Settled ∧
      ∀ descriptor, plan.descriptor = some descriptor → descriptor.ListsBlocks := by
  have falls : ∀ reason, ∃ plan, (.ok (fallback reason) : Except DirectIOError DirectIOPlan) =
      .ok plan ∧ plan.Settled ∧
        ∀ descriptor, plan.descriptor = some descriptor → descriptor.ListsBlocks := by
    intro reason
    exact ⟨_, rfl, settled_fallback reason, fun descriptor present => by cases present⟩
  have skipped : (if direction = .retrieve then skipTokens skipBefore start stop else 0) =
      leftOutTokens direction skipBefore start stop := rfl
  simp only [planBlockFirst, skipped]
  split
  · exact falls _
  rename_i whole
  split
  · exact falls _
  rename_i uncached
  split
  · exact falls _
  rename_i leadingEdge edgeRead
  split
  · exact falls _
  split
  · exact falls _
  rename_i physicalBlocks read
  have chunk : CrossLayerChunk kvCache slotMapping direction blockSize
      (leftOutTokens direction skipBefore start stop) start stop _ leadingEdge physicalBlocks :=
    ⟨not_not.mp whole, uncached, edgeRead, blocksOfSlots_of_mapM cache.positive read, rfl⟩
  obtain ⟨skipNonneg, skipBelow, retrieves⟩ := leftOutTokens_spec nonempty uncached
  have valid := chunk.validate cache resident nonneg skipNonneg skipBelow retrieves covered
  refine ⟨⟨some _, none⟩, ?_, .inr ⟨_, rfl, valid⟩, fun descriptor present => ?_⟩
  · exact Checked.bind_ok.mpr ⟨(), valid, rfl⟩
  · cases present
    exact chunk.listsBlocks

/-- A call that falls back returns a plan for each chunk. -/
theorem fallbackAll_returns {kind : DirectIOPlan → Prop} (starts : List ℤ)
    (falls : ∀ reason, kind (fallback reason)) (reason : String) :
    ∃ plans, (.ok (fallbackAll starts reason) : Except DirectIOError (List DirectIOPlan)) =
      .ok plans ∧ plans.length = starts.length ∧ ∀ plan ∈ plans, kind plan := by
  refine ⟨_, rfl, List.length_replicate, fun plan member => ?_⟩
  obtain rfl := List.eq_of_mem_replicate member
  exact falls reason

/-- Checked ranges of which each one is planned give a plan for each chunk. -/
theorem mapM_plans_returns {kind : DirectIOPlan → Prop} {starts ends : List ℤ}
    {plan : ℤ × ℤ → Except DirectIOError DirectIOPlan}
    (ranges : RangesChecked slotMapping starts ends)
    (each : ∀ start stop : ℤ, 0 ≤ start → start < stop → stop ≤ slotMapping.length →
      ∃ made, plan (start, stop) = .ok made ∧ kind made) :
    ∃ plans, (starts.zip ends).mapM plan = .ok plans ∧ plans.length = starts.length ∧
      ∀ made ∈ plans, kind made := by
  have lengths : (starts.zip ends).length = starts.length := by
    rw [List.length_zip, ranges.same_length, Nat.min_self]
  rw [← lengths]
  apply Checked.mapM_returns
  rintro ⟨start, stop⟩ member
  obtain ⟨index, here⟩ := List.mem_iff_getElem?.mp member
  obtain ⟨starts_at, ends_at⟩ := List.getElem?_zip_eq_some.mp here
  exact each start stop (ranges.nonneg start (List.mem_of_getElem? starts_at))
    (ranges.nonempty index start stop starts_at ends_at)
    (ranges.covered stop (List.mem_of_getElem? ends_at))

/-- **The block-first builder.** -/
theorem buildBlockFirst_returns {starts ends : List ℤ} (resident : kvCache.Resident)
    (same : starts.length = ends.length) (checked : checkRanges slotMapping starts ends = .ok ())
    (direction : DirectIODirection) (blockSize : ℕ) (skipBefore : ℤ) :
    ∃ plans, buildBlockFirstDirectPlans kvCache slotMapping starts ends direction blockSize
        skipBefore = .ok plans ∧ plans.length = starts.length ∧
      ∀ plan ∈ plans, plan.Settled ∧
        ∀ descriptor, plan.descriptor = some descriptor → descriptor.ListsBlocks := by
  have falls : ∀ reason, (fallback reason).Settled ∧
      ∀ descriptor, (fallback reason).descriptor = some descriptor → descriptor.ListsBlocks :=
    fun reason => ⟨settled_fallback reason, fun descriptor present => by cases present⟩
  unfold buildBlockFirstDirectPlans
  split
  · exact fallbackAll_returns starts falls _
  rename_i dims
  split
  · exact fallbackAll_returns starts falls _
  rename_i contiguous
  split
  · exact fallbackAll_returns starts falls _
  rename_i blocks
  simp only [not_or, not_not, Bool.not_eq_false] at dims contiguous blocks
  rw [if_neg (not_not.mpr same), checked, Checked.ok_bind]
  have cache : CrossLayerCache kvCache blockSize :=
    ⟨dims.1, dims.2, contiguous, Nat.pos_of_ne_zero blocks.1, blocks.2⟩
  exact mapM_plans_returns (rangesChecked_of_ok same checked) fun start stop nonneg nonempty covered =>
    planBlockFirst_returns cache resident skipBefore nonneg nonempty covered

end LMCacheHcu.Storage
