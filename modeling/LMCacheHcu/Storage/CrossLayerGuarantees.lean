import LMCacheHcu.Storage.CrossLayerPlan

/-! # What a direct retrieve leaves in a cross-layer cache

A retrieve first stages the block of the leading edge in scratch memory and
copies its uncached rows layer by layer into the cache, and then reads the runs
of whole blocks. Both together move exactly the rows of the uncached tokens.
-/

namespace LMCacheHcu.Storage

open RowMajor ByteCopy

/-! ### The leading edge -/

section Edge

variable {shape : ChunkShape} {diskMetadata : BlockFirstDiskMetadata} {itemsize : ℕ}
  {descriptor : DirectIODescriptor} {edge : DirectIOLeadingEdge}

/-- The copies of the leading edge move the rows from its token offset on. -/
theorem moves_leadingEdgeCopies (layers : diskMetadata.numLayers = shape.numLayers)
    (hidden : diskMetadata.hiddenDim = shape.hiddenDim) (size : itemsize = shape.itemsize)
    (blockBytes : descriptor.blockNbytes = shape.blockNbytes)
    (slots : descriptor.blockSize = shape.blockSize)
    (offsetIn : 0 < edge.tokenOffset ∧ edge.tokenOffset < shape.blockSize)
    (count : edge.tokenCount = shape.blockSize - edge.tokenOffset)
    (scratchBase origin address : ℤ) :
    Moves (XdsBackend.leadingEdgeCopies diskMetadata itemsize descriptor edge scratchBase) origin
        address ↔
      ∃ layer half slot low : ℕ, layer < shape.numLayers ∧ half < 2 ∧ edge.tokenOffset ≤ slot ∧
        slot < shape.blockSize ∧ low < shape.rowNbytes ∧
        address = descriptor.allocationBase + edge.physicalBlock * shape.blockNbytes +
          (shape.blockPosition layer half slot low : ℤ) ∧
        origin = scratchBase + (shape.blockPosition layer half slot low : ℤ) := by
  obtain ⟨offset, offsetEq⟩ := Int.eq_ofNat_of_zero_le offsetIn.1.le
  obtain ⟨number, numberEq⟩ : ∃ number, shape.blockSize = offset + number :=
    ⟨shape.blockSize - offset, by omega⟩
  have rows : edge.tokenCount * (diskMetadata.hiddenDim * (itemsize : ℤ)) =
      ((number * shape.rowNbytes : ℕ) : ℤ) := by
    rw [count, numberEq, offsetEq, hidden, size, ChunkShape.rowNbytes]
    push_cast
    ring
  have position : ∀ layer half group low : ℕ,
      ((layer * 2 + half) * descriptor.blockSize + edge.tokenOffset) *
          (diskMetadata.hiddenDim * (itemsize : ℤ)) + ((group * shape.rowNbytes + low : ℕ) : ℤ) =
        (shape.blockPosition layer half (offset + group) low : ℤ) := by
    intro layer half group low
    rw [slots, offsetEq, hidden, size, ChunkShape.blockPosition, ChunkShape.layerBlockNbytes,
      ChunkShape.rowNbytes]
    push_cast
    ring
  have layerCount : diskMetadata.numLayers.toNat = shape.numLayers := by
    rw [layers, Int.toNat_natCast]
  simp only [XdsBackend.leadingEdgeCopies, moves_flatMap, moves_map, List.mem_range, rows,
    covers_groups, layerCount, blockBytes]
  constructor
  · rintro ⟨layer, layerIn, half, halfIn, group, groupIn, low, lowIn, rfl, rfl⟩
    refine ⟨layer, half, offset + group, low, layerIn, halfIn, by omega, by omega, lowIn, ?_, ?_⟩
    · rw [← position]
      ring
    · rw [← position]
      ring
  · rintro ⟨layer, half, slot, low, layerIn, halfIn, above, slotIn, lowIn, rfl, rfl⟩
    obtain ⟨group, rfl⟩ : ∃ group, slot = offset + group := ⟨slot - offset, by omega⟩
    refine ⟨layer, layerIn, half, halfIn, group, by omega, low, lowIn, ?_, ?_⟩
    · rw [← position]
      ring
    · rw [← position]
      ring

end Edge

/-! ### The transfer -/

/-- A completed direct retrieve of a planned chunk from a file that holds it.
The engine's metadata is that of the cache, and the scratch block is allocated
apart from the cache. -/
structure CrossLayerTransfer (backend : XdsBackend) extends CrossLayerPlan where
  retrieves : direction = .retrieve
  file : FileImage
  scratchBase : ℤ
  before : Memory
  after : Memory
  chunk : Chunk
  held : toCrossLayerPlan.shape.HoldsPayload file.content blockFirstHeaderSize chunk
  described : backend.Describes toCrossLayerPlan.shape
  scratchApart : scratchBase + descriptor.blockNbytes ≤ kvCache.dataPtr ∨
    kvCache.dataPtr + kvCache.numel * kvCache.elementSize ≤ scratchBase
  transferred : backend.transferDirectXds file descriptor scratchBase before = .ok after

namespace CrossLayerTransfer

variable {backend : XdsBackend} (transfer : CrossLayerTransfer backend)

/-- The byte of the chunk that belongs to a row byte. -/
def chunkByte (byte : RowByte) : Byte :=
  transfer.chunk byte.half byte.layer (transfer.chunkToken byte) byte.low

/-- The address is in the scratch block. -/
def InScratch (address : ℤ) : Prop :=
  transfer.scratchBase ≤ address ∧ address < transfer.scratchBase + transfer.descriptor.blockNbytes

/-- Every row of the uncached tokens has the bytes of the chunk. -/
def RowsRestored : Prop :=
  ∀ byte, transfer.Chosen byte → transfer.after (transfer.place byte) = transfer.chunkByte byte

/-- Outside the scratch block every other address has the byte it had before. -/
def OthersUnchanged : Prop :=
  ∀ address, ¬ transfer.InScratch address →
    (∀ byte, transfer.Chosen byte → address ≠ transfer.place byte) →
      transfer.after address = transfer.before address

/-- A row of the cache has the bytes it had before, in every layer and half. -/
def SlotKept (block slot : ℕ) : Prop :=
  ∀ layer half low : ℕ, layer < transfer.shape.numLayers → half < 2 →
    low < transfer.shape.rowNbytes →
      transfer.after (crossLayerRow transfer.kvCache block layer half slot + low) =
        transfer.before (crossLayerRow transfer.kvCache block layer half slot + low)

/-- The already cached first tokens of the edge block keep their rows. -/
def CachedEdgeKept : Prop :=
  ∀ edge, transfer.descriptor.leadingEdge = some edge →
    ∀ slot : ℕ, slot < edge.tokenOffset → transfer.SlotKept edge.physicalBlock.toNat slot

/-- Blocks without an uncached token of the chunk keep all their rows. -/
def OtherBlocksKept : Prop :=
  ∀ block : ℕ, block < transfer.kvCache.dim 0 →
    (∀ token : ℕ, max transfer.start transfer.skipBefore ≤ token → (token : ℤ) < transfer.stop →
      transfer.slotMapping.getD token 0 / transfer.blockSize ≠ block) →
    ∀ slot < transfer.blockSize, transfer.SlotKept block slot

/-- The uncached blocks of the chunk are in different physical blocks. -/
def DistinctBlocks : Prop :=
  Storage.DistinctBlocks transfer.slotMapping transfer.blockSize transfer.start
    (max transfer.start transfer.skipBefore) transfer.stop

theorem allocationBase_eq : transfer.descriptor.allocationBase = transfer.kvCache.dataPtr := by
  obtain ⟨_, _, _, _, chunk⟩ := transfer.spec
  rw [chunk.descriptor_eq]
  rfl

theorem payloadOffset_eq : transfer.descriptor.filePayloadOffset = blockFirstHeaderSize := by
  obtain ⟨_, _, _, _, chunk⟩ := transfer.spec
  rw [chunk.descriptor_eq]
  rfl

theorem descriptorBlockSize_eq : transfer.descriptor.blockSize = transfer.shape.blockSize := by
  obtain ⟨_, _, _, _, chunk⟩ := transfer.spec
  rw [chunk.descriptor_eq]
  rfl

theorem no_segments : transfer.descriptor.byteSegments.isEmpty = true := by
  obtain ⟨_, _, _, _, chunk⟩ := transfer.spec
  rw [chunk.descriptor_eq]
  rfl

/-- A byte of a block of the cache is not in the scratch block. -/
theorem not_inScratch {block position : ℕ} (blockIn : block < transfer.kvCache.dim 0)
    (positionIn : position < transfer.shape.blockNbytes) :
    ¬ transfer.InScratch (transfer.kvCache.dataPtr + block * transfer.shape.blockNbytes +
      position) := by
  have inside := digit_lt blockIn positionIn
  rw [CrossLayerPlan.shape, ← transfer.cache.nbytes_eq (transfer.stop - transfer.start)] at inside
  have apart := transfer.scratchApart
  rintro ⟨above, below⟩
  have cast : (block : ℤ) * transfer.shape.blockNbytes + position <
      transfer.kvCache.numel * transfer.kvCache.elementSize := by
    exact_mod_cast inside
  have nonneg : (0 : ℤ) ≤ block * transfer.shape.blockNbytes + position := by positivity
  omega

/-- The copies of the runs. -/
def runCopies : List Copy :=
  (transfer.descriptor.runs.map (XdsBackend.runCall transfer.descriptor)).map XdsCall.readCopy

/-- The bytes that the runs move. -/
theorem moves_runCopies (from' address : ℤ) :
    Moves transfer.runCopies from' address ↔
      ∃ logical physical, (logical, physical) ∈ transfer.descriptor.runs.flatMap runBlocks ∧
        ∃ layer half slot low : ℕ, layer < transfer.shape.numLayers ∧ half < 2 ∧
          slot < transfer.blockSize ∧ low < transfer.shape.rowNbytes ∧
          address = transfer.kvCache.dataPtr + physical * transfer.shape.blockNbytes +
            (transfer.shape.blockPosition layer half slot low : ℤ) ∧
          from' = blockFirstHeaderSize + logical * transfer.shape.blockNbytes +
            (transfer.shape.blockPosition layer half slot low : ℤ) := by
  rw [runCopies, moves_readRuns transfer.blockNbytes_eq, transfer.allocationBase_eq,
    transfer.payloadOffset_eq]
  constructor
  · rintro ⟨⟨logical, physical⟩, member, position, positionIn, rfl, rfl⟩
    obtain ⟨layer, half, slot, low, layerIn, halfIn, slotIn, lowIn, rfl⟩ :=
      transfer.shape.exists_blockPosition positionIn
    exact ⟨logical, physical, member, layer, half, slot, low, layerIn, halfIn, slotIn, lowIn, rfl,
      rfl⟩
  · rintro ⟨logical, physical, member, layer, half, slot, low, layerIn, halfIn, slotIn, lowIn, rfl,
      rfl⟩
    exact ⟨(logical, physical), member, _,
      transfer.shape.blockPosition_lt layerIn halfIn slotIn lowIn, rfl, rfl⟩

/-- What moves with a leading edge and runs, as the slots that the descriptor moves. -/
theorem movesSlot_iff_of_edge {edge : DirectIOLeadingEdge}
    (leading : transfer.descriptor.leadingEdge = some edge) {logical physical : ℤ} {slot : ℕ} :
    transfer.MovesSlot logical physical slot ↔ slot < transfer.blockSize ∧
      ((logical = edge.logicalBlock ∧ physical = edge.physicalBlock ∧ edge.tokenOffset ≤ slot) ∨
        (logical, physical) ∈ transfer.descriptor.runs.flatMap runBlocks) := by
  rw [CrossLayerPlan.MovesSlot, leading]
  simp only [Option.some.injEq, exists_eq_left']

/-- A transfer without a leading edge only reads the runs. -/
theorem transferred_of_no_edge (none : transfer.descriptor.leadingEdge = none) :
    transfer.after = writeAll transfer.file.content transfer.runCopies transfer.before ∧
      ∀ from' address, Moves transfer.runCopies from' address ↔
        ∃ byte, transfer.Chosen byte ∧ address = transfer.place byte ∧
          from' = transfer.origin byte := by
  constructor
  · have done := transfer.transferred
    rw [XdsBackend.transferDirectXds, if_pos transfer.no_segments, none] at done
    exact backend.readCalls_ok done
  · intro from' address
    rw [transfer.moves_runCopies, transfer.exists_chosen_iff]
    simp only [CrossLayerPlan.MovesSlot, none, reduceCtorEq, false_and, exists_false,
      false_or]
    constructor
    · rintro ⟨logical, physical, member, layer, half, slot, low, layerIn, halfIn, slotIn, lowIn,
        rfl, rfl⟩
      exact ⟨logical, physical, slot, ⟨slotIn, member⟩, layer, half, low, layerIn, halfIn, lowIn,
        rfl, rfl⟩
    · rintro ⟨logical, physical, slot, ⟨slotIn, member⟩, layer, half, low, layerIn, halfIn, lowIn,
        rfl, rfl⟩
      exact ⟨logical, physical, member, layer, half, slot, low, layerIn, halfIn, slotIn, lowIn,
        rfl, rfl⟩

/-- The read that stages the block of the edge. -/
def edgeCopy (edge : DirectIOLeadingEdge) : Copy :=
  ⟨blockFirstHeaderSize + edge.logicalBlock * transfer.shape.blockNbytes, transfer.scratchBase,
    transfer.shape.blockNbytes⟩

/-- A transfer with a leading edge acts as one list of copies from the file on
the memory in which the edge block is staged. -/
theorem transferred_of_edge {edge : DirectIOLeadingEdge}
    (leading : transfer.descriptor.leadingEdge = some edge) :
    ∃ copies, transfer.after = writeAll transfer.file.content copies
        (Copy.write transfer.file.content transfer.before (transfer.edgeCopy edge)) ∧
      ∀ from' address, Moves copies from' address ↔
        ∃ byte, transfer.Chosen byte ∧ address = transfer.place byte ∧
          from' = transfer.origin byte := by
  have done := transfer.transferred
  simp only [XdsBackend.transferDirectXds, if_pos transfer.no_segments, leading,
    Checked.bind_ok] at done
  obtain ⟨staged, read, afterEdge, copied, runs⟩ := done
  have stagedEq := backend.readCall_ok read
  simp only [XdsCall.readCopy, transfer.payloadOffset_eq, transfer.blockNbytes_eq, add_zero]
    at stagedEq
  change staged = Copy.write transfer.file.content transfer.before (transfer.edgeCopy edge)
    at stagedEq
  simp only [XdsBackend.copyDirectLeadingEdge, Checked.bind_ok, Checked.mapError_ok] at copied
  obtain ⟨diskMetadata, made, dtype, parsed, copied⟩ := copied
  obtain ⟨parsedType, parsed', size, layers, hidden⟩ := transfer.described.makeDirect made
  obtain rfl : dtype = parsedType := Except.ok.inj (parsed.symm.trans parsed')
  obtain ⟨number, physicalBlocks, split⟩ := transfer.exists_split
  obtain ⟨other, found, edgeSplit⟩ := split.edge.resolve_left fun absent => by
    rw [leading] at absent
    cases absent.1
  obtain rfl : edge = other := Option.some.inj (leading.symm.trans found)
  have edgeMoves := moves_leadingEdgeCopies layers hidden size transfer.blockNbytes_eq
    transfer.descriptorBlockSize_eq edgeSplit.offsetIn edgeSplit.count transfer.scratchBase
  rw [transfer.allocationBase_eq] at edgeMoves
  obtain ⟨physical, physicalEq⟩ := Int.eq_ofNat_of_zero_le edgeSplit.physicalIn.1
  have physicalIn : physical < transfer.kvCache.dim 0 := by
    have below := edgeSplit.physicalIn.2
    omega
  -- no edge copy reads what another one wrote: they read scratch and write the cache
  have afterEdgeEq := backend.deviceToDeviceCopies_ok copied
  rw [moveAll_eq_writeAll] at afterEdgeEq
  swap
  · rintro copy member address covers other otherMember again
    obtain ⟨_, _, _, _, layerIn, halfIn, _, slotIn, lowIn, _, source⟩ :=
      (edgeMoves _ _).mp ⟨copy, member, covers, rfl⟩
    obtain ⟨_, _, _, _, layerIn', halfIn', _, slotIn', lowIn', target, _⟩ :=
      (edgeMoves _ _).mp ⟨other, otherMember, again, rfl⟩
    have inside := transfer.shape.blockPosition_lt layerIn halfIn slotIn lowIn
    rw [physicalEq] at target
    apply transfer.not_inScratch physicalIn
      (transfer.shape.blockPosition_lt layerIn' halfIn' slotIn' lowIn')
    rw [InScratch, transfer.blockNbytes_eq, ← target, source]
    omega
  rw [writeAll_shift transfer.file.content staged
    (blockFirstHeaderSize + edge.logicalBlock * transfer.shape.blockNbytes - transfer.scratchBase)]
    at afterEdgeEq
  swap
  · rintro copy member address covers
    obtain ⟨_, _, _, _, layerIn, halfIn, _, slotIn, lowIn, _, source⟩ :=
      (edgeMoves _ _).mp ⟨copy, member, covers, rfl⟩
    have inside := transfer.shape.blockPosition_lt layerIn halfIn slotIn lowIn
    have staging : Copy.Covers (transfer.edgeCopy edge) (copy.origin address) := by
      rw [source]
      simp only [Copy.Covers, edgeCopy]
      omega
    rw [stagedEq]
    refine (if_pos staging).trans (congrArg transfer.file.content ?_)
    simp only [Copy.origin, edgeCopy]
    ring
  refine ⟨(XdsBackend.leadingEdgeCopies diskMetadata dtype.itemsize transfer.descriptor edge
    transfer.scratchBase).map (fun copy => { copy with src := copy.src + (blockFirstHeaderSize +
      edge.logicalBlock * transfer.shape.blockNbytes - transfer.scratchBase) }) ++
        transfer.runCopies, ?_, ?_⟩
  · rw [backend.readCalls_ok runs, afterEdgeEq, stagedEq, writeAll_append]
    rfl
  · intro from' address
    rw [moves_append, moves_shift, edgeMoves, transfer.moves_runCopies, transfer.exists_chosen_iff]
    simp only [transfer.movesSlot_iff_of_edge leading]
    constructor
    · rintro (⟨layer, half, slot, low, layerIn, halfIn, above, slotIn, lowIn, target, source⟩ |
        ⟨logical, block, member, layer, half, slot, low, layerIn, halfIn, slotIn, lowIn, target,
          source⟩)
      · refine ⟨edge.logicalBlock, edge.physicalBlock, slot, ⟨slotIn, .inl ⟨rfl, rfl, above⟩⟩,
          layer, half, low, layerIn, halfIn, lowIn, target, ?_⟩
        omega
      · exact ⟨logical, block, slot, ⟨slotIn, .inr member⟩, layer, half, low, layerIn, halfIn,
          lowIn, target, source⟩
    · rintro ⟨logical, block, slot, ⟨slotIn, ⟨rfl, rfl, above⟩ | member⟩, layer, half, low, layerIn,
        halfIn, lowIn, target, source⟩
      · refine .inl ⟨layer, half, slot, low, layerIn, halfIn, above, slotIn, lowIn, target, ?_⟩
        omega
      · exact .inr ⟨logical, block, member, layer, half, slot, low, layerIn, halfIn, slotIn, lowIn,
          target, source⟩

/-- A transfer acts as one list of copies from the file, on a memory that
differs from the one before in the scratch block only. -/
theorem exists_copies : ∃ copies staged,
    transfer.after = writeAll transfer.file.content copies staged ∧
      (∀ from' address, Moves copies from' address ↔
        ∃ byte, transfer.Chosen byte ∧ address = transfer.place byte ∧
          from' = transfer.origin byte) ∧
      ∀ address, ¬ transfer.InScratch address → staged address = transfer.before address := by
  cases leading : transfer.descriptor.leadingEdge with
  | none =>
      obtain ⟨done, moves⟩ := transfer.transferred_of_no_edge leading
      exact ⟨_, _, done, moves, fun _ _ => rfl⟩
  | some edge =>
      obtain ⟨copies, done, moves⟩ := transfer.transferred_of_edge leading
      refine ⟨copies, _, done, moves, fun address outside => if_neg ?_⟩
      rw [InScratch, transfer.blockNbytes_eq] at outside
      exact outside

theorem chunkToken_lt {byte : RowByte} (chosen : transfer.Chosen byte) :
    transfer.chunkToken byte / transfer.blockSize < transfer.shape.chunkBlocks ∧
      transfer.chunkToken byte % transfer.blockSize < transfer.blockSize := by
  obtain ⟨cache, _, _, _, chunk⟩ := transfer.spec
  obtain ⟨_, _, above, below, _⟩ := chosen
  have positive := cache.positive
  have skipNonneg := transfer.skip_spec.1
  have nonempty := transfer.nonempty
  have whole := Int.ediv_mul_cancel (Int.dvd_of_emod_eq_zero chunk.whole)
  have blocks : (transfer.stop - transfer.start).toNat =
      transfer.shape.chunkBlocks * transfer.blockSize := by
    have nonneg : 0 ≤ (transfer.stop - transfer.start) / transfer.blockSize :=
      Int.ediv_nonneg (by omega) (by omega)
    have cast : ((transfer.shape.chunkBlocks : ℕ) : ℤ) =
        (transfer.stop - transfer.start) / transfer.blockSize := Int.toNat_of_nonneg nonneg
    zify
    rw [cast, whole]
    omega
  refine ⟨Nat.div_lt_of_lt_mul ?_, Nat.mod_lt _ positive⟩
  rw [Nat.mul_comm, ← blocks, CrossLayerPlan.chunkToken]
  omega

theorem file_origin {byte : RowByte} (chosen : transfer.Chosen byte) :
    transfer.file.content (transfer.origin byte) = transfer.chunkByte byte := by
  obtain ⟨blockIn, slotIn⟩ := transfer.chunkToken_lt chosen
  obtain ⟨layerIn, halfIn, _, _, lowIn⟩ := chosen
  have read := transfer.held _ _ _ _ _ blockIn layerIn halfIn slotIn lowIn
  have token : transfer.chunkToken byte / transfer.blockSize * transfer.shape.blockSize +
      transfer.chunkToken byte % transfer.blockSize = transfer.chunkToken byte :=
    Nat.div_add_mod' _ _
  rw [token] at read
  exact read

/-- A row to which a chosen byte belongs is one that the descriptor moves. -/
theorem movesSlot_of_place {byte : RowByte} (chosen : transfer.Chosen byte)
    {block layer half slot low : ℕ} (blockIn : block < transfer.kvCache.dim 0)
    (layerIn : layer < transfer.shape.numLayers) (halfIn : half < 2)
    (slotIn : slot < transfer.blockSize) (lowIn : low < transfer.shape.rowNbytes)
    (same : crossLayerRow transfer.kvCache block layer half slot + (low : ℤ) =
      transfer.place byte) :
    ∃ logical, transfer.MovesSlot logical block slot ∧
      transfer.SlotOf byte.token logical block slot := by
  obtain ⟨layerIn', halfIn', above, below, lowIn'⟩ := chosen
  obtain ⟨logical, physical, slot', moved, slotOf⟩ := transfer.exists_movesSlot above below
  obtain ⟨number, rfl⟩ := Int.eq_ofNat_of_zero_le slotOf.physicalIn.1
  rw [transfer.place_of_slot byte slotOf layerIn' halfIn' lowIn', transfer.cache.row_eq
    (transfer.stop - transfer.start) blockIn layerIn halfIn slotIn lowIn] at same
  have positions : block * transfer.shape.blockNbytes +
      transfer.shape.blockPosition layer half slot low = number * transfer.shape.blockNbytes +
        transfer.shape.blockPosition byte.layer byte.half slot' byte.low := by
    rw [CrossLayerPlan.shape] at same ⊢
    zify
    push_cast at same
    linarith
  obtain ⟨rfl, inner⟩ := digit_inj (transfer.shape.blockPosition_lt layerIn halfIn slotIn lowIn)
    (transfer.shape.blockPosition_lt layerIn' halfIn' slotOf.slotIn lowIn') positions
  obtain ⟨_, _, rfl, _⟩ := transfer.shape.blockPosition_inj halfIn halfIn' slotIn slotOf.slotIn
    lowIn lowIn' inner
  exact ⟨logical, moved, slotOf⟩

/-- A row that the descriptor does not move keeps its bytes. -/
theorem slotKept_of_not_moved (unchanged : transfer.OthersUnchanged) {block slot : ℕ}
    (blockIn : block < transfer.kvCache.dim 0) (slotIn : slot < transfer.blockSize)
    (unmoved : ∀ (token : ℕ) (logical : ℤ), transfer.MovesSlot logical block slot →
      ¬ transfer.SlotOf token logical block slot) : transfer.SlotKept block slot := by
  intro layer half low layerIn halfIn lowIn
  apply unchanged
  · rw [transfer.cache.row_eq (transfer.stop - transfer.start) blockIn layerIn halfIn slotIn lowIn]
    have outside := transfer.not_inScratch blockIn
      (transfer.shape.blockPosition_lt layerIn halfIn slotIn lowIn)
    rw [add_assoc] at outside
    push_cast
    exact outside
  · intro byte chosen same
    obtain ⟨logical, moved, slotOf⟩ := transfer.movesSlot_of_place chosen blockIn layerIn halfIn
      slotIn lowIn same
    exact unmoved byte.token logical moved slotOf

theorem cachedEdgeKept (unchanged : transfer.OthersUnchanged) (distinct : transfer.DistinctBlocks) :
    transfer.CachedEdgeKept := by
  intro edge leading slot before
  obtain ⟨number, physicalBlocks, split⟩ := transfer.exists_split
  obtain ⟨other, found, edgeSplit⟩ := split.edge.resolve_left fun absent => by
    rw [leading] at absent
    cases absent.1
  obtain rfl : edge = other := Option.some.inj (leading.symm.trans found)
  obtain ⟨physical, physicalEq⟩ := Int.eq_ofNat_of_zero_le edgeSplit.physicalIn.1
  obtain ⟨offset, offsetEq⟩ := Int.eq_ofNat_of_zero_le edgeSplit.offsetIn.1.le
  have offsetIn := edgeSplit.offsetIn
  have physicalIn := edgeSplit.physicalIn
  rw [physicalEq, Int.toNat_natCast]
  apply transfer.slotKept_of_not_moved unchanged (by omega) (by omega)
  intro token logical moved slotOf
  rcases ((transfer.movesSlot_iff_of_edge leading).mp moved).2 with ⟨_, _, above⟩ | member
  · omega
  · -- the block of the edge would be one of the later blocks as well
    obtain ⟨edgeToken, edgeSlot⟩ := transfer.token_of_movesSlot
      ((transfer.movesSlot_iff_of_edge leading).mpr ⟨show offset < transfer.blockSize by omega,
        .inl ⟨rfl, rfl, by omega⟩⟩)
    have first := transfer.first_of_retrieve transfer.retrieves
    have same := distinct token edgeToken (first ▸ slotOf.above) slotOf.below
      (first ▸ edgeSlot.above) edgeSlot.below
      (slotOf.parts.1.trans (physicalEq.symm.trans edgeSlot.parts.1.symm))
    have logicals : logical = edge.logicalBlock := by
      rw [← slotOf.parts.2.2.1, ← edgeSlot.parts.2.2.1, same]
    rw [split.runs] at member
    obtain ⟨index, _, _, pair⟩ := mem_coalesceRuns_blocks.mp member
    have later := (Prod.mk.inj pair).1
    have logicalEq := edgeSplit.logical
    omega

theorem otherBlocksKept (unchanged : transfer.OthersUnchanged) : transfer.OtherBlocksKept := by
  intro block blockIn absent slot slotIn
  apply transfer.slotKept_of_not_moved unchanged blockIn slotIn
  intro token logical _ slotOf
  have first := transfer.first_of_retrieve transfer.retrieves
  exact absent token (first ▸ slotOf.above) slotOf.below slotOf.parts.1

/-- What the edge and the runs leave in memory, when the uncached blocks are
distinct. -/
theorem effect (distinct : transfer.DistinctBlocks) :
    transfer.RowsRestored ∧ transfer.OthersUnchanged := by
  obtain ⟨copies, staged, done, moves, same⟩ := transfer.exists_copies
  have places := writeAll_places staged moves
    (fun byte chosen => transfer.file_origin chosen)
  rw [← done] at places
  refine ⟨places.1.mpr ?_, fun address outside unchosen =>
    (places.2 address unchosen).trans (same address outside)⟩
  rintro left right chosen chosen' place
  have first := transfer.first_of_retrieve transfer.retrieves
  obtain ⟨layers, halves, tokens, lows⟩ := transfer.chosen_eq_of_place (first ▸ distinct) chosen
    chosen' place
  rw [chunkByte, chunkByte, layers, halves, tokens, lows]

/-- **A direct retrieve into a cross-layer cache.** When the uncached blocks are
distinct, it restores the rows of exactly the uncached tokens; the cached first
tokens of the edge block and all other blocks keep their rows, and outside the
cache only the scratch block may change. -/
theorem crossLayerTransfer_restores (distinct : transfer.DistinctBlocks) :
    transfer.RowsRestored ∧ transfer.CachedEdgeKept ∧ transfer.OtherBlocksKept ∧
      transfer.OthersUnchanged := by
  obtain ⟨restored, unchanged⟩ := transfer.effect distinct
  exact ⟨restored, transfer.cachedEdgeKept unchanged distinct, transfer.otherBlocksKept unchanged,
    unchanged⟩

end CrossLayerTransfer

/-! ### A chunk whose second token is the first uncached one -/

/-- A cache of two blocks with two slots of one byte in one layer. -/
def twoBlockCache : Tensor where
  device := ⟨.cuda, none⟩
  dtype := .uint8
  storageBase := 4096
  storageNbytes := 8
  storageOffset := 0
  shape := [2, 1, 2, 2, 1, 1]
  stride := [4, 4, 2, 1, 1, 1]
  ranked := rfl
  inStorage := by decide

def edgeDescriptor : DirectIODescriptor :=
  blockFirstDescriptor twoBlockCache .retrieve 2 4 1 2 (some ⟨0, 1, 1, 1⟩) [0]

def edgePlan : CrossLayerPlan where
  kvCache := twoBlockCache
  slotMapping := [2, 3, 0, 1]
  starts := [0]
  ends := [4]
  direction := .retrieve
  blockSize := 2
  skipBefore := 1
  plans := [⟨some edgeDescriptor, none⟩]
  built := by decide
  index := 0
  start := 0
  stop := 4
  starts_at := first_start_zero
  ends_at := rfl
  descriptor := edgeDescriptor
  planned := rfl

/-- A backend with a complete driver for chunks of four one-byte rows. -/
def oneLayerBackend : XdsBackend where
  metadata :=
    { identity := ⟨"model", 1, 0, 1, 1⟩
      blockSize := 2
      chunkSize := 4
      getShapes := fun tokens => [[2, 1, tokens, 1]]
      getDtypes := [.uint8] }
  directEnabled := true
  dstDevice := ⟨.cuda, none⟩
  signature := LayoutFields.dtype
  codec := .failing "no header"
  driver := .complete

/-- The bytes 0 to 7 as a payload. -/
def eightByteFile : FileImage :=
  ⟨blockFirstHeaderSize + 8, fun position => UInt8.ofNat (position - blockFirstHeaderSize).toNat⟩

/-- The bytes of the file, as a chunk of four tokens in two blocks. -/
def edgeChunk : Chunk :=
  fun half _ token _ => UInt8.ofNat (token / 2 * 4 + (half * 2 + token % 2))

theorem edgePlan_holdsPayload :
    edgePlan.shape.HoldsPayload eightByteFile.content blockFirstHeaderSize edgeChunk := by
  rintro block layer half slot low blockIn layerIn halfIn slotIn lowIn
  have extents : edgePlan.shape = ⟨1, 2, 2, 1, 1⟩ := by decide
  rw [extents] at blockIn layerIn slotIn lowIn ⊢
  simp only [ChunkShape.rowNbytes, Nat.mul_one, Nat.lt_one_iff] at layerIn slotIn lowIn
  subst layerIn lowIn
  refine congrArg UInt8.ofNat ?_
  simp only [ChunkShape.payloadPosition, ChunkShape.blockPosition, ChunkShape.layerBlockNbytes,
    ChunkShape.blockNbytes, ChunkShape.rowNbytes]
  omega

def edgeTransfer : CrossLayerTransfer oneLayerBackend where
  toCrossLayerPlan := edgePlan
  retrieves := rfl
  file := eightByteFile
  scratchBase := 0
  before := fun _ => 255
  after := writeAll eightByteFile.content [⟨4100, 4096, 4⟩] <|
    moveAll [⟨1, 4101, 1⟩, ⟨3, 4103, 1⟩] <|
      writeAll eightByteFile.content [⟨4096, 0, 4⟩] fun _ => 255
  chunk := edgeChunk
  held := edgePlan_holdsPayload
  described := ⟨⟨4, rfl⟩, .uint8, rfl, rfl⟩
  scratchApart := by decide
  transferred := rfl

theorem crossLayerTransfer_restores_edgeTransfer :
    edgeTransfer.DistinctBlocks ∧ edgeTransfer.RowsRestored ∧ edgeTransfer.CachedEdgeKept ∧
      edgeTransfer.OtherBlocksKept ∧ edgeTransfer.OthersUnchanged := by
  have distinct : edgeTransfer.DistinctBlocks := by
    intro left right above below above' below' same
    change (max 0 1 : ℤ) ≤ left at above
    change (left : ℤ) < 4 at below
    change (max 0 1 : ℤ) ≤ right at above'
    change (right : ℤ) < 4 at below'
    have leftIn : left = 1 ∨ left = 2 ∨ left = 3 := by omega
    have rightIn : right = 1 ∨ right = 2 ∨ right = 3 := by omega
    rcases leftIn with rfl | rfl | rfl <;> rcases rightIn with rfl | rfl | rfl <;>
      revert same <;> decide
  exact ⟨distinct, edgeTransfer.crossLayerTransfer_restores distinct⟩

end LMCacheHcu.Storage
