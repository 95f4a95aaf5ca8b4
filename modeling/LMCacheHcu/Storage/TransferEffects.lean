import LMCacheHcu.Storage.XdsTransfer

/-! # What a completed transfer did

A transfer that returns went through every driver call at full length, so its
effect is that of a list of copies. The lemmas here turn descriptors into such
lists and say which file byte each copy moves to which device byte.
-/

namespace LMCacheHcu.Storage

open RowMajor ByteCopy

/-- The copy from the file that a complete read makes. -/
def XdsCall.readCopy (call : XdsCall) : Copy :=
  ⟨call.fileOffset, call.gpuAddress + call.devOffset, call.size⟩

/-- The copy into the file that a complete write makes. -/
def XdsCall.writeCopy (call : XdsCall) : Copy :=
  ⟨call.gpuAddress + call.devOffset, call.fileOffset, call.size⟩

namespace XdsBackend

variable (backend : XdsBackend)

theorem readCall_ok {label : String} {file : FileImage} {memory after : Memory} {call : XdsCall}
    (read : backend.readCall label file memory call = .ok after) :
    after = Copy.write file.content memory call.readCopy := by
  simp only [readCall, Checked.check_ok, not_not, Except.ok.injEq] at read
  obtain ⟨full, rfl⟩ := read
  exact backend.driver.read_full call file memory full

theorem readCalls_ok {label : String} {file : FileImage} {calls : List XdsCall}
    {memory after : Memory}
    (read : calls.foldlM (backend.readCall label file) memory = .ok after) :
    after = writeAll file.content (calls.map XdsCall.readCopy) memory := by
  induction calls generalizing memory with
  | nil => exact (Checked.return_ok.mp read).symm
  | cons call calls ih =>
      rw [List.foldlM_cons, Checked.bind_ok] at read
      obtain ⟨next, first, rest⟩ := read
      rw [ih rest, readCall_ok backend first, List.map_cons, writeAll_cons]

theorem writeCall_ok {label : String} {memory : Memory} {file after : FileImage} {call : XdsCall}
    (written : backend.writeCall label memory file call = .ok after) :
    after.content = Copy.write memory file.content call.writeCopy := by
  simp only [writeCall, Checked.check_ok, not_not, Except.ok.injEq] at written
  obtain ⟨full, rfl⟩ := written
  rw [backend.driver.write_full call memory file full]
  rfl

theorem writeCalls_ok {label : String} {memory : Memory} {calls : List XdsCall}
    {file after : FileImage}
    (written : calls.foldlM (backend.writeCall label memory) file = .ok after) :
    after.content = writeAll memory (calls.map XdsCall.writeCopy) file.content := by
  induction calls generalizing file with
  | nil => rw [Checked.return_ok.mp written, List.map_nil, writeAll_nil]
  | cons call calls ih =>
      rw [List.foldlM_cons, Checked.bind_ok] at written
      obtain ⟨next, first, rest⟩ := written
      rw [ih rest, writeCall_ok backend first, List.map_cons, writeAll_cons]

theorem deviceToDeviceCopies_ok {copies : List Copy} {memory after : Memory}
    (copied : copies.foldlM backend.deviceToDeviceCopy memory = .ok after) :
    after = moveAll copies memory := by
  induction copies generalizing memory with
  | nil => exact (Checked.return_ok.mp copied).symm
  | cons copy copies ih =>
      rw [List.foldlM_cons, Checked.bind_ok] at copied
      obtain ⟨next, first, rest⟩ := copied
      simp only [deviceToDeviceCopy, Checked.check_ok, not_not, Except.ok.injEq] at first
      obtain ⟨done, rfl⟩ := first
      rw [ih rest, backend.driver.memcpy_done copy memory done]
      rfl

/-- A descriptor without runs and edge only reads its segments. -/
theorem transferDirect_segments {file : FileImage} {descriptor : DirectIODescriptor}
    {scratchBase : ℤ} {memory after : Memory} (runs : descriptor.runs = [])
    (edge : descriptor.leadingEdge = none)
    (transferred : backend.transferDirectXds file descriptor scratchBase memory = .ok after) :
    after = writeAll file.content
      ((descriptor.byteSegments.map (segmentCall descriptor)).map XdsCall.readCopy) memory := by
  unfold transferDirectXds at transferred
  split at transferred
  · rename_i empty
    rw [edge, runs] at transferred
    rw [List.isEmpty_iff.mp empty]
    exact (Checked.return_ok.mp transferred).symm
  · exact backend.readCalls_ok transferred

end XdsBackend

/-! ### The engine's metadata -/

/-- The engine's only KV group has the extents of the chunk. -/
structure XdsBackend.Describes (backend : XdsBackend) (shape : ChunkShape) : Prop where
  shapes : ∃ tokens, backend.metadata.getShapes backend.metadata.chunkSize =
    [[2, shape.numLayers, tokens, shape.hiddenDim]]
  dtypes : ∃ dtype, backend.metadata.getDtypes = [dtype] ∧ dtype.itemsize = shape.itemsize

/-- The metadata of a complete chunk has the extents that the engine's metadata has. -/
theorem XdsBackend.Describes.makeDirect {backend : XdsBackend} {shape : ChunkShape}
    (described : backend.Describes shape) {diskMetadata : BlockFirstDiskMetadata}
    (made : backend.makeDirectBlockFirstMetadata = .ok diskMetadata) :
    ∃ dtype, parseDtype diskMetadata.dtype = .ok dtype ∧ dtype.itemsize = shape.itemsize ∧
      diskMetadata.numLayers = shape.numLayers ∧ diskMetadata.hiddenDim = shape.hiddenDim := by
  obtain ⟨⟨tokens, shapes⟩, dtype, dtypes, size⟩ := described
  rw [XdsBackend.makeDirectBlockFirstMetadata, shapes, dtypes] at made
  have created := createdFor_of_create (Checked.mapError_ok.mp made)
  exact ⟨dtype, by rw [created.dtype_eq, parseDtype_name], size, created.numLayers,
    created.hiddenDim⟩

/-- A validated descriptor has the engine's block size, and the engine one KV group. -/
theorem XdsBackend.validateDirectDescriptor_ok {backend : XdsBackend}
    {descriptor : DirectIODescriptor} {direction : DirectIODirection}
    (valid : backend.validateDirectDescriptor descriptor direction = .ok ()) :
    (backend.metadata.blockSize : ℤ) = descriptor.blockSize ∧
      ∃ shape dtype, backend.metadata.getShapes backend.metadata.chunkSize = [shape] ∧
        backend.metadata.getDtypes = [dtype] := by
  simp only [XdsBackend.validateDirectDescriptor, Checked.throw_bind, Checked.check_ok,
    Checked.bind_ok, not_not] at valid
  obtain ⟨_, _, _, _, _, size, _, group⟩ := valid
  refine ⟨size, ?_⟩
  split at group
  · rename_i shape dtype shapes dtypes
    exact ⟨shape, dtype, shapes, dtypes⟩
  · cases group

/-! ### The physical blocks of a list of slots -/

/-- The slots are those of the physical blocks, block by block. -/
structure BlocksOfSlots (blockSize numBlocks : ℕ) (slots physicalBlocks : List ℤ) : Prop where
  length_eq : physicalBlocks.length = slots.length / blockSize
  inRange : ∀ block ∈ physicalBlocks, 0 ≤ block ∧ block < numBlocks
  slot_eq : ∀ (index slot : ℕ) (block : ℤ), physicalBlocks[index]? = some block →
    slot < blockSize → slots[index * blockSize + slot]? = some (block * blockSize + slot)

theorem blockSlotRange_getElem? {blockSize first slot : ℕ} (physicalBlock : ℤ)
    (inside : first + slot < blockSize) :
    (blockSlotRange blockSize physicalBlock first)[slot]? =
      some (physicalBlock * blockSize + ((first + slot : ℕ) : ℤ)) := by
  have range : (List.range' first (blockSize - first))[slot]? = some (first + slot) := by
    rw [List.getElem?_range' (by omega)]
    simp
  rw [blockSlotRange, List.getElem?_map, range]
  rfl

/-- What one accepted group of slots says. -/
theorem physicalBlockOf_ok {blockSize numBlocks : ℕ} (positive : 0 < blockSize)
    {slotBlock : List ℤ} {physicalBlock : ℤ} :
    physicalBlockOf blockSize numBlocks slotBlock = .ok physicalBlock ↔
      (0 ≤ physicalBlock ∧ physicalBlock < numBlocks) ∧
        slotBlock = blockSlotRange blockSize physicalBlock 0 := by
  have head : ∀ block : ℤ, (blockSlotRange blockSize block 0).headD 0 = block * blockSize := by
    intro block
    have first := blockSlotRange_getElem? block (show 0 + 0 < blockSize by omega)
    rw [List.headD_eq_head?_getD, List.head?_eq_getElem?, first]
    simp
  have quotient : ∀ block : ℤ, block * (blockSize : ℤ) / blockSize = block := fun block =>
    Int.mul_ediv_cancel block (by omega)
  simp only [physicalBlockOf, Checked.check_ok, Except.ok.injEq, not_not, not_or, not_lt, not_le]
  constructor
  · rintro ⟨⟨nonneg, aligned⟩, below, same, rfl⟩
    refine ⟨⟨Int.ediv_nonneg nonneg (by omega), below⟩, same⟩
  · rintro ⟨⟨nonneg, below⟩, rfl⟩
    rw [head, quotient]
    refine ⟨⟨by positivity, Int.mul_emod_left _ _⟩, below, rfl, rfl⟩

theorem physicalBlockOfAsymmetric_ok {blockSize numBlocks : ℕ} {slotBlock : List ℤ}
    {physicalBlock : ℤ} :
    physicalBlockOfAsymmetric blockSize numBlocks slotBlock = .ok physicalBlock ↔
      physicalBlockOf blockSize numBlocks slotBlock = .ok physicalBlock := by
  simp only [physicalBlockOfAsymmetric, physicalBlockOf, Checked.check_ok, not_or, not_lt, not_le,
    not_not, Except.ok.injEq, and_assoc]

/-- What the physical blocks read off a slot list are. -/
theorem blocksOfSlots_of_mapM {blockSize numBlocks : ℕ} (positive : 0 < blockSize)
    {slots physicalBlocks : List ℤ}
    (read : (slotBlocks blockSize slots).mapM (physicalBlockOf blockSize numBlocks) =
      .ok physicalBlocks) : BlocksOfSlots blockSize numBlocks slots physicalBlocks := by
  have lengths : physicalBlocks.length = slots.length / blockSize := by
    rw [Checked.length_mapM read, slotBlocks, List.length_map, List.length_range]
  have each : ∀ (index : ℕ) (block : ℤ), physicalBlocks[index]? = some block →
      (0 ≤ block ∧ block < numBlocks) ∧
        (slots.drop (index * blockSize)).take blockSize = blockSlotRange blockSize block 0 := by
    intro index block here
    have below : index < slots.length / blockSize := by
      rw [← lengths]
      exact (List.getElem?_eq_some_iff.mp here).1
    have group : (slotBlocks blockSize slots)[index]? =
        some ((slots.drop (index * blockSize)).take blockSize) := by
      rw [slotBlocks, List.getElem?_map, List.getElem?_range below]
      rfl
    exact (physicalBlockOf_ok positive).mp (Checked.mapM_getElem? read group here)
  refine ⟨lengths, ?_, ?_⟩
  · intro block member
    obtain ⟨index, here⟩ := List.mem_iff_getElem?.mp member
    exact (each index block here).1
  · intro index slot block here inside
    have group := congrArg (·[slot]?) (each index block here).2
    simp only [blockSlotRange_getElem? block (show 0 + slot < blockSize by omega), Nat.zero_add,
      List.getElem?_take_of_lt inside, List.getElem?_drop] at group
    exact group

theorem getElem?_sliceOf (values : List ℤ) (start stop : ℤ) {index : ℕ}
    (inside : (index : ℤ) < stop - start) :
    (sliceOf values start stop)[index]? = values[start.toNat + index]? := by
  rw [sliceOf, List.getElem?_take_of_lt (by omega), List.getElem?_drop]

theorem length_sliceOf {values : List ℤ} {start stop : ℤ} (nonneg : 0 ≤ start)
    (covered : stop ≤ values.length) : (sliceOf values start stop).length = (stop - start).toNat := by
  rw [sliceOf, List.length_take, List.length_drop]
  omega

/-- The physical blocks of whole blocks of tokens name the slot of each token. -/
theorem BlocksOfSlots.token_block {blockSize numBlocks : ℕ} {slotMapping physicalBlocks : List ℤ}
    {first stop : ℤ} (blocks : BlocksOfSlots blockSize numBlocks (sliceOf slotMapping first stop)
      physicalBlocks) (nonneg : 0 ≤ first)
    (covered : stop ≤ slotMapping.length) (whole : (stop - first) % blockSize = 0) {token : ℕ}
    (above : first ≤ token) (below : (token : ℤ) < stop) :
    ∃ (index slot : ℕ) (block : ℤ), physicalBlocks[index]? = some block ∧ slot < blockSize ∧
      (token : ℤ) = first + ((index * blockSize + slot : ℕ) : ℤ) ∧
      slotMapping.getD token 0 = block * blockSize + slot := by
  have length := length_sliceOf nonneg covered
  obtain ⟨distance, reach⟩ : ∃ distance : ℕ, (token : ℤ) = first + distance :=
    ⟨(token - first).toNat, by omega⟩
  have total : (stop - first).toNat / blockSize * blockSize = (stop - first).toNat := by
    have cast : ((stop - first).toNat % blockSize : ℕ) = 0 := by
      have same : (((stop - first).toNat : ℕ) : ℤ) = stop - first := Int.toNat_of_nonneg (by omega)
      have zero : (((stop - first).toNat % blockSize : ℕ) : ℤ) = 0 := by
        rw [Int.natCast_emod, same, whole]
      exact_mod_cast zero
    exact Nat.div_mul_cancel (Nat.dvd_of_mod_eq_zero cast)
  have within : distance < (stop - first).toNat / blockSize * blockSize := by omega
  obtain ⟨index, slot, indexIn, slotIn, rfl⟩ := exists_digit within
  have listed : index < physicalBlocks.length := by
    rw [blocks.length_eq, length]
    exact indexIn
  refine ⟨index, slot, physicalBlocks[index], List.getElem?_eq_getElem listed, slotIn, reach, ?_⟩
  have named := blocks.slot_eq index slot _ (List.getElem?_eq_getElem listed) slotIn
  rw [getElem?_sliceOf _ _ _ (by omega)] at named
  have place : first.toNat + (index * blockSize + slot) = token := by omega
  rw [place] at named
  rw [List.getD_eq_getElem?_getD, named]
  rfl

/-- Every slot of every physical block belongs to a token of the range. -/
theorem BlocksOfSlots.block_token {blockSize numBlocks : ℕ} {slotMapping physicalBlocks : List ℤ}
    {first stop : ℤ} (blocks : BlocksOfSlots blockSize numBlocks (sliceOf slotMapping first stop)
      physicalBlocks) (nonneg : 0 ≤ first) (covered : stop ≤ slotMapping.length)
    {index slot : ℕ} {block : ℤ} (here : physicalBlocks[index]? = some block)
    (slotIn : slot < blockSize) :
    ∃ token : ℕ, (token : ℤ) = first + ((index * blockSize + slot : ℕ) : ℤ) ∧
      (token : ℤ) < stop ∧ slotMapping.getD token 0 = block * blockSize + slot := by
  have length := length_sliceOf nonneg covered
  have named := blocks.slot_eq index slot block here slotIn
  have within := (List.getElem?_eq_some_iff.mp named).1
  rw [length] at within
  rw [getElem?_sliceOf _ _ _ (by omega)] at named
  refine ⟨first.toNat + (index * blockSize + slot), by omega, by omega, ?_⟩
  rw [List.getD_eq_getElem?_getD, named]
  rfl

/-- A chunk that is not fully cached starts at the later of its start and the
first uncached token. -/
theorem skipTokens_spec {skipBefore start stop : ℤ} (nonempty : start < stop)
    (uncached : skipTokens skipBefore start stop ≠ stop - start) :
    0 ≤ skipTokens skipBefore start stop ∧ skipTokens skipBefore start stop < stop - start ∧
      start + skipTokens skipBefore start stop = max start skipBefore := by
  unfold skipTokens at *
  omega

/-- The block and the slot of a token that is `index` whole blocks and `slot`
tokens behind a start aligned to blocks. -/
theorem block_of_token {start skip : ℤ} {blockSize index slot token : ℕ}
    (nonneg : 0 ≤ skip) (aligned : skip % blockSize = 0) (slotIn : slot < blockSize)
    (place : (token : ℤ) = start + skip + ((index * blockSize + slot : ℕ) : ℤ)) :
    (((token - start).toNat / blockSize : ℕ) : ℤ) = skip / blockSize + index ∧
      (token - start).toNat % blockSize = slot := by
  have positive : 0 < blockSize := Nat.zero_lt_of_lt slotIn
  obtain ⟨count, rfl⟩ : ∃ count : ℕ, skip = ((count * blockSize : ℕ) : ℤ) := by
    refine ⟨(skip / blockSize).toNat, ?_⟩
    have quotient : (((skip / blockSize).toNat : ℕ) : ℤ) = skip / blockSize :=
      Int.toNat_of_nonneg (Int.ediv_nonneg nonneg (by omega))
    have whole := Int.mul_ediv_add_emod skip blockSize
    push_cast
    rw [quotient, mul_comm]
    omega
  have distance : (token - start).toNat = (count + index) * blockSize + slot := by
    have sum : (token : ℤ) - start = (((count + index) * blockSize + slot : ℕ) : ℤ) := by
      rw [place]
      push_cast
      ring
    rw [sum, Int.toNat_natCast]
  have quotient : ((count * blockSize : ℕ) : ℤ) / blockSize = count := by
    push_cast
    exact Int.mul_ediv_cancel _ (by omega)
  rw [distance, quotient, Nat.mul_comm, Nat.mul_add_div positive, Nat.mul_add_mod,
    Nat.div_eq_of_lt slotIn, Nat.mod_eq_of_lt slotIn]
  exact ⟨by push_cast; ring, rfl⟩

/-- Tokens of different logical blocks of a chunk have slots in different
physical blocks, from the first transferred token on. -/
def DistinctBlocks (slotMapping : List ℤ) (blockSize : ℕ) (start first stop : ℤ) : Prop :=
  ∀ left right : ℕ, first ≤ left → (left : ℤ) < stop → first ≤ right → (right : ℤ) < stop →
    slotMapping.getD left 0 / blockSize = slotMapping.getD right 0 / blockSize →
      (left - start).toNat / blockSize = (right - start).toNat / blockSize

/-! ### Runs -/

/-- The logical and physical blocks of a run. -/
def runBlocks (run : DirectIOBlockRun) : List (ℤ × ℤ) :=
  (List.range run.blockCount.toNat).map fun block : ℕ =>
    (run.logicalBlockStart + block, run.physicalBlockStart + block)

theorem runBlocks_extend (run : DirectIOBlockRun) (nonneg : 0 ≤ run.blockCount) :
    runBlocks { run with blockCount := run.blockCount + 1 } =
      runBlocks run ++ [(run.logicalBlockStart + run.blockCount,
        run.physicalBlockStart + run.blockCount)] := by
  have next : (run.blockCount + 1).toNat = run.blockCount.toNat + 1 := by omega
  have last : ((run.blockCount.toNat : ℕ) : ℤ) = run.blockCount := Int.toNat_of_nonneg nonneg
  simp only [runBlocks, next, List.range_succ, List.map_append, List.map_cons, List.map_nil, last]

theorem runBlocks_single (logical physical : ℤ) :
    runBlocks ⟨logical, physical, 1⟩ = [(logical, physical)] := by
  simp [runBlocks]

/-- The loop keeps the blocks seen so far, in order; the current run ends where
the next block starts. -/
theorem extendRuns_blocks (logicalStart : ℤ) (rest : List ℤ) (reached : ℕ)
    (state : List DirectIOBlockRun × DirectIOBlockRun) (positive : 0 < state.2.blockCount)
    (ends : state.2.logicalBlockStart + state.2.blockCount = logicalStart + reached) :
    let final := (rest.zipIdx reached).foldl (extendRuns logicalStart) state
    (final.1 ++ [final.2]).flatMap runBlocks =
      (state.1 ++ [state.2]).flatMap runBlocks ++
        (rest.zipIdx reached).map fun entry => (logicalStart + entry.2, entry.1) := by
  induction rest generalizing reached state with
  | nil => simp
  | cons block rest ih =>
      simp only [List.zipIdx_cons, List.foldl_cons, List.map_cons]
      by_cases adjacent : block = state.2.physicalBlockStart + state.2.blockCount
      · have step : extendRuns logicalStart state (block, reached) =
            (state.1, { state.2 with blockCount := state.2.blockCount + 1 }) := if_pos adjacent
        rw [step, ih (reached + 1) _ (by simp only; omega) (by simp only; push_cast; omega)]
        simp only [List.flatMap_append, List.flatMap_cons, List.flatMap_nil, List.append_nil,
          runBlocks_extend state.2 positive.le, ends, ← adjacent, List.append_assoc,
          List.cons_append, List.nil_append]
      · have step : extendRuns logicalStart state (block, reached) =
            (state.1 ++ [state.2], ⟨logicalStart + reached, block, 1⟩) := if_neg adjacent
        rw [step, ih (reached + 1) _ (by simp only; omega) (by simp only; push_cast; omega)]
        simp only [List.flatMap_append, List.flatMap_cons, List.flatMap_nil, List.append_nil,
          runBlocks_single, List.append_assoc, List.cons_append, List.nil_append]

/-- Coalescing loses no block and adds none. -/
theorem coalesceRuns_blocks (logicalStart : ℤ) (physicalBlocks : List ℤ) :
    (coalesceRuns logicalStart physicalBlocks).flatMap runBlocks =
      physicalBlocks.zipIdx.map fun entry => (logicalStart + entry.2, entry.1) := by
  cases physicalBlocks with
  | nil => rfl
  | cons first rest =>
      have loop := extendRuns_blocks logicalStart rest 1 ([], ⟨logicalStart, first, 1⟩)
        Int.one_pos (by simp)
      simp only [List.nil_append, List.flatMap_cons, List.flatMap_nil, List.append_nil,
        runBlocks_single] at loop
      simp only [coalesceRuns, loop, List.zipIdx_cons, List.map_cons, Nat.zero_add, Nat.cast_zero,
        add_zero, List.singleton_append]

theorem mem_coalesceRuns_blocks {logicalStart : ℤ} {physicalBlocks : List ℤ} {blocks : ℤ × ℤ} :
    blocks ∈ (coalesceRuns logicalStart physicalBlocks).flatMap runBlocks ↔
      ∃ (index : ℕ) (physical : ℤ), physicalBlocks[index]? = some physical ∧
        blocks = (logicalStart + index, physical) := by
  rw [coalesceRuns_blocks, List.mem_map]
  constructor
  · rintro ⟨⟨physical, index⟩, member, rfl⟩
    exact ⟨index, physical, List.mem_zipIdx_iff_getElem?.mp member, rfl⟩
  · rintro ⟨index, physical, here, rfl⟩
    exact ⟨(physical, index), List.mem_zipIdx_iff_getElem?.mpr here, rfl⟩

/-- A copy of a run of blocks moves each of its blocks. -/
theorem covers_run (src dst : ℤ) (size : ℕ) (logical physical count : ℤ) (origin address : ℤ) :
    (Copy.Covers ⟨src, dst, count * size⟩ address ∧
        Copy.origin ⟨src, dst, count * size⟩ address = origin) ↔
      ∃ blocks ∈ runBlocks ⟨logical, physical, count⟩, ∃ low < size,
        origin = src + (blocks.1 - logical) * size + (low : ℤ) ∧
          address = dst + (blocks.2 - physical) * size + (low : ℤ) := by
  by_cases nonneg : 0 ≤ count
  · obtain ⟨number, rfl⟩ := Int.eq_ofNat_of_zero_le nonneg
    have groups := covers_groups src dst number size origin address
    push_cast at groups
    rw [groups]
    simp only [runBlocks, Int.toNat_natCast, List.mem_map, List.mem_range,
      exists_exists_and_eq_and, add_sub_cancel_left]
    refine exists_congr fun block => and_congr_right fun _ => exists_congr fun low =>
      and_congr_right fun _ => ?_
    constructor
    · rintro ⟨rfl, rfl⟩
      exact ⟨by ring, by ring⟩
    · rintro ⟨rfl, rfl⟩
      exact ⟨by ring, by ring⟩
  · have none : runBlocks ⟨logical, physical, count⟩ = [] := by
      have zero : count.toNat = 0 := by omega
      simp [runBlocks, zero]
    have empty : count * (size : ℤ) ≤ 0 :=
      mul_nonpos_of_nonpos_of_nonneg (by omega) (by positivity)
    simp only [none, List.not_mem_nil, false_and, exists_false, iff_false, not_and]
    intro covers
    have above := covers.1
    have below := covers.2
    simp only at above below
    omega

section Runs

variable {descriptor : DirectIODescriptor} {size : ℕ}

/-- Reading the runs moves each logical block of the file to its physical block. -/
theorem moves_readRuns (blockBytes : descriptor.blockNbytes = size) (runs : List DirectIOBlockRun)
    (origin address : ℤ) :
    Moves ((runs.map (XdsBackend.runCall descriptor)).map XdsCall.readCopy) origin address ↔
      ∃ blocks ∈ runs.flatMap runBlocks, ∃ low < size,
        origin = descriptor.filePayloadOffset + blocks.1 * size + (low : ℤ) ∧
          address = descriptor.allocationBase + blocks.2 * size + (low : ℤ) := by
  rw [List.map_map, moves_map]
  simp only [List.mem_flatMap, Function.comp_apply, XdsCall.readCopy, XdsBackend.runCall,
    blockBytes]
  constructor
  · rintro ⟨run, member, moved⟩
    obtain ⟨blocks, inside, low, small, rfl, rfl⟩ := (covers_run _ _ size run.logicalBlockStart
      run.physicalBlockStart run.blockCount _ _).mp moved
    exact ⟨blocks, ⟨run, member, inside⟩, low, small, by ring, by ring⟩
  · rintro ⟨blocks, ⟨run, member, inside⟩, low, small, rfl, rfl⟩
    exact ⟨run, member, (covers_run _ _ size run.logicalBlockStart run.physicalBlockStart
      run.blockCount _ _).mpr ⟨blocks, inside, low, small, by ring, by ring⟩⟩

/-- Writing the runs moves each physical block to its logical block of the file. -/
theorem moves_writeRuns (blockBytes : descriptor.blockNbytes = size) (runs : List DirectIOBlockRun)
    (origin address : ℤ) :
    Moves ((runs.map (XdsBackend.runCall descriptor)).map XdsCall.writeCopy) origin address ↔
      ∃ blocks ∈ runs.flatMap runBlocks, ∃ low < size,
        origin = descriptor.allocationBase + blocks.2 * size + (low : ℤ) ∧
          address = descriptor.filePayloadOffset + blocks.1 * size + (low : ℤ) := by
  rw [List.map_map, moves_map]
  simp only [List.mem_flatMap, Function.comp_apply, XdsCall.writeCopy, XdsBackend.runCall,
    blockBytes]
  constructor
  · rintro ⟨run, member, moved⟩
    have swapped : runBlocks ⟨run.physicalBlockStart, run.logicalBlockStart, run.blockCount⟩ =
        (runBlocks run).map Prod.swap := by
      simp [runBlocks, List.map_map, Function.comp_def]
    obtain ⟨blocks, inside, low, small, rfl, rfl⟩ := (covers_run _ _ size run.physicalBlockStart
      run.logicalBlockStart run.blockCount _ _).mp moved
    rw [swapped, List.mem_map] at inside
    obtain ⟨blocks, inside, rfl⟩ := inside
    exact ⟨blocks, ⟨run, member, inside⟩, low, small, by simp only [Prod.fst_swap]; ring,
      by simp only [Prod.snd_swap]; ring⟩
  · rintro ⟨blocks, ⟨run, member, inside⟩, low, small, rfl, rfl⟩
    have swapped : blocks.swap ∈
        runBlocks ⟨run.physicalBlockStart, run.logicalBlockStart, run.blockCount⟩ := by
      simp only [runBlocks, List.mem_map, List.mem_range] at inside ⊢
      obtain ⟨block, below, rfl⟩ := inside
      exact ⟨block, below, rfl⟩
    exact ⟨run, member, (covers_run _ _ size run.physicalBlockStart run.logicalBlockStart
      run.blockCount _ _).mpr ⟨blocks.swap, swapped, low, small,
        by simp only [Prod.fst_swap]; ring, by simp only [Prod.snd_swap]; ring⟩⟩

end Runs

end LMCacheHcu.Storage
