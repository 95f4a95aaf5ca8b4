import LMCacheHcu.Storage.PerLayerRetrieve

/-! # What a direct retrieve leaves in per-layer caches

Executing a planned descriptor on a file that holds a chunk brings the chunk's
rows into the caches. The builder does not look for overlaps between the layers'
caches, and later segments overwrite earlier ones, so all rows arrive exactly
when the chunk has equal bytes wherever two of its rows share memory.
-/

namespace LMCacheHcu.Storage

open RowMajor ByteCopy

/-- A completed direct transfer of a planned chunk from a file that holds it. -/
structure PerLayerTransfer (backend : XdsBackend) extends PerLayerPlan where
  file : FileImage
  scratchBase : ℤ
  before : Memory
  after : Memory
  chunk : Chunk
  held : toPerLayerPlan.shape.HoldsPayload file.content blockFirstHeaderSize chunk
  transferred : backend.transferDirectXds file descriptor scratchBase before = .ok after

namespace PerLayerTransfer

variable {backend : XdsBackend} (transfer : PerLayerTransfer backend)

/-- The byte of the chunk that belongs to a row byte. -/
def chunkByte (byte : RowByte) : Byte :=
  transfer.chunk byte.half byte.layer (transfer.chunkToken byte) byte.low

/-- Every row of the uncached tokens has the bytes of the chunk. -/
def RowsRestored : Prop :=
  ∀ byte, transfer.Chosen byte → transfer.after (transfer.place byte) = transfer.chunkByte byte

/-- Every other address has the byte it had before. -/
def OthersUnchanged : Prop :=
  ∀ address, (∀ byte, transfer.Chosen byte → address ≠ transfer.place byte) →
    transfer.after address = transfer.before address

/-- Rows that share an address have the same byte of the chunk there. -/
def RowsAgree : Prop :=
  ∀ left right, transfer.Chosen left → transfer.Chosen right →
    transfer.place left = transfer.place right → transfer.chunkByte left = transfer.chunkByte right

/-- The uncached blocks of the chunk are in different physical blocks. -/
def DistinctBlocks : Prop :=
  Storage.DistinctBlocks transfer.slotMapping transfer.blockSize transfer.start
    (max transfer.start transfer.skipBefore) transfer.stop

/-- No two layers' caches share a byte. -/
def LayersApart : Prop :=
  transfer.kvCaches.Pairwise fun left right =>
    left.dataPtr + left.numel * left.elementSize ≤ right.dataPtr ∨
      right.dataPtr + right.numel * right.elementSize ≤ left.dataPtr

theorem after_eq : transfer.after = writeAll transfer.file.content
    ((transfer.descriptor.byteSegments.map (XdsBackend.segmentCall transfer.descriptor)).map
      XdsCall.readCopy) transfer.before := by
  obtain ⟨_, _, _, chunk⟩ := transfer.spec
  exact backend.transferDirect_segments
    (congrArg DirectIODescriptor.runs chunk.descriptor_eq)
    (congrArg DirectIODescriptor.leadingEdge chunk.descriptor_eq) transfer.transferred

theorem chunkToken_lt {byte : RowByte} (chosen : transfer.Chosen byte) :
    transfer.chunkToken byte / transfer.blockSize < transfer.shape.chunkBlocks ∧
      transfer.chunkToken byte % transfer.blockSize < transfer.blockSize := by
  obtain ⟨_, _, physicalBlocks, chunk⟩ := transfer.spec
  obtain ⟨_, _, above, below, _⟩ := chosen
  have whole := Int.ediv_mul_cancel (Int.dvd_of_emod_eq_zero chunk.whole)
  have blocks : (transfer.stop - transfer.start).toNat =
      transfer.shape.chunkBlocks * transfer.blockSize := by
    have nonneg : 0 ≤ (transfer.stop - transfer.start) / transfer.blockSize :=
      Int.ediv_nonneg (by omega) (by omega)
    have cast : ((transfer.shape.chunkBlocks : ℕ) : ℤ) =
        (transfer.stop - transfer.start) / transfer.blockSize := Int.toNat_of_nonneg nonneg
    zify
    rw [cast, whole]
    omega
  refine ⟨Nat.div_lt_of_lt_mul ?_, Nat.mod_lt _ chunk.positive⟩
  rw [Nat.mul_comm, ← blocks, PerLayerPlan.chunkToken]
  omega

theorem file_origin {byte : RowByte} (chosen : transfer.Chosen byte) :
    transfer.file.content (transfer.origin byte) = transfer.chunkByte byte := by
  obtain ⟨blockIn, slotIn⟩ := transfer.chunkToken_lt chosen
  obtain ⟨layerIn, halfIn, _, _, lowIn⟩ := chosen
  have read := transfer.held _ _ _ _ _ blockIn layerIn halfIn slotIn lowIn
  have token : transfer.chunkToken byte / transfer.blockSize * transfer.shape.blockSize +
      transfer.chunkToken byte % transfer.blockSize = transfer.chunkToken byte :=
    Nat.div_add_mod' _ _
  rw [token] at read
  exact read

/-- A row byte lies at its position in the tensor of its layer. -/
theorem place_position {byte : RowByte} (chosen : transfer.Chosen byte) :
    ∃ block slot : ℕ, block < transfer.first.dim 1 ∧ slot < transfer.blockSize ∧
      transfer.slotMapping.getD byte.token 0 = ((block * transfer.blockSize + slot : ℕ) : ℤ) ∧
      transfer.chunkToken byte % transfer.blockSize = slot ∧
      transfer.place byte = (transfer.kvCaches.getD byte.layer transfer.first).dataPtr +
        (((byte.half * transfer.first.dim 1 + block) * perLayerBlockNbytes transfer.first +
          (slot * transfer.shape.rowNbytes + byte.low) : ℕ) : ℤ) := by
  obtain ⟨_, _, physicalBlocks, chunk⟩ := transfer.spec
  obtain ⟨nonneg, _, latest⟩ := skipTokens_spec transfer.nonempty chunk.uncached
  have startNonneg := transfer.start_nonneg
  obtain ⟨layerIn, halfIn, above, below, lowIn⟩ := chosen
  have whole : (transfer.stop - (transfer.start +
      skipTokens transfer.skipBefore transfer.start transfer.stop)) % transfer.blockSize = 0 := by
    rw [← sub_sub]
    exact Int.emod_eq_zero_of_dvd (dvd_sub (Int.dvd_of_emod_eq_zero chunk.whole)
      (Int.dvd_of_emod_eq_zero chunk.aligned))
  obtain ⟨index, slot, block, here, slotIn, reach, named⟩ := chunk.blocksOf.token_block
    (by omega) transfer.covered whole (latest.trans_le above) below
  obtain ⟨place, _⟩ := transfer.place_origin chunk byte layerIn halfIn lowIn here slotIn reach
    named
  obtain ⟨blockNonneg, blockBelow⟩ := chunk.blocksOf.inRange block (List.mem_of_getElem? here)
  obtain ⟨number, rfl⟩ := Int.eq_ofNat_of_zero_le blockNonneg
  obtain ⟨_, slots⟩ := block_of_token nonneg chunk.aligned slotIn reach
  refine ⟨number, slot, by omega, slotIn, by rw [named]; push_cast; ring, slots, ?_⟩
  rw [place]
  push_cast
  ring

theorem layerBlockNbytes_eq : perLayerBlockNbytes transfer.first =
    transfer.blockSize * transfer.shape.rowNbytes := by
  simp only [ChunkShape.rowNbytes, PerLayerPlan.shape, perLayerShape, perLayerBlockNbytes,
    transfer.spec.1.blocks]
  ring

/-- All row bytes of a layer lie inside its tensor. -/
theorem position_lt {layer half block slot low : ℕ} (layerIn : layer < transfer.kvCaches.length)
    (halfIn : half < 2) (blockIn : block < transfer.first.dim 1) (slotIn : slot < transfer.blockSize)
    (lowIn : low < transfer.shape.rowNbytes) :
    (half * transfer.first.dim 1 + block) * perLayerBlockNbytes transfer.first +
        (slot * transfer.shape.rowNbytes + low) <
      (transfer.kvCaches.getD layer transfer.first).numel *
        (transfer.kvCaches.getD layer transfer.first).elementSize := by
  obtain ⟨caches, _⟩ := transfer.spec
  have member : transfer.kvCaches.getD layer transfer.first ∈ transfer.kvCaches := by
    rw [List.getD_eq_getElem?_getD, List.getElem?_eq_getElem layerIn]
    exact List.getElem_mem layerIn
  obtain ⟨shapes, types, _⟩ := caches.uniform _ member
  have size : (transfer.kvCaches.getD layer transfer.first).elementSize =
      transfer.first.elementSize := congrArg DType.itemsize types
  have extent : (transfer.kvCaches.getD layer transfer.first).numel *
      (transfer.kvCaches.getD layer transfer.first).elementSize =
        2 * transfer.first.dim 1 * perLayerBlockNbytes transfer.first := by
    rw [Tensor.numel, size, shapes, exists_dims caches.rank, caches.halves]
    simp only [List.prod_cons, List.prod_nil, perLayerBlockNbytes]
    ring
  rw [extent, transfer.layerBlockNbytes_eq]
  exact digit_lt (digit_lt halfIn blockIn) (digit_lt slotIn lowIn)

/-- In separate layers, bytes at one address belong to one layer. -/
theorem layer_eq_of_apart (apart : transfer.LayersApart) {left right : ℕ}
    (leftIn : left < transfer.kvCaches.length) (rightIn : right < transfer.kvCaches.length)
    {position position' : ℕ}
    (below : position < (transfer.kvCaches.getD left transfer.first).numel *
      (transfer.kvCaches.getD left transfer.first).elementSize)
    (below' : position' < (transfer.kvCaches.getD right transfer.first).numel *
      (transfer.kvCaches.getD right transfer.first).elementSize)
    (same : (transfer.kvCaches.getD left transfer.first).dataPtr + position =
      (transfer.kvCaches.getD right transfer.first).dataPtr + position') : left = right := by
  simp only [List.getD_eq_getElem?_getD, List.getElem?_eq_getElem leftIn,
    List.getElem?_eq_getElem rightIn, Option.getD_some] at below below' same
  have pairs := List.pairwise_iff_getElem.mp apart
  rcases Nat.lt_trichotomy left right with before | equal | behind
  · have separate := pairs left right leftIn rightIn before
    omega
  · exact equal
  · have separate := pairs right left rightIn leftIn behind
    omega

/-- With distinct blocks and separate layers no two rows share memory. -/
theorem rowsAgree_of_apart (distinct : transfer.DistinctBlocks) (apart : transfer.LayersApart) :
    transfer.RowsAgree := by
  rintro left right chosen chosen' same
  obtain ⟨block, slot, blockIn, slotIn, named, remainder, place⟩ := transfer.place_position chosen
  obtain ⟨block', slot', blockIn', slotIn', named', remainder', place'⟩ :=
    transfer.place_position chosen'
  obtain ⟨layerIn, halfIn, above, below, lowIn⟩ := chosen
  obtain ⟨layerIn', halfIn', above', below', lowIn'⟩ := chosen'
  rw [place, place'] at same
  have layers : left.layer = right.layer :=
    transfer.layer_eq_of_apart apart layerIn layerIn'
      (transfer.position_lt layerIn halfIn blockIn slotIn lowIn)
      (transfer.position_lt layerIn' halfIn' blockIn' slotIn' lowIn') (by exact_mod_cast same)
  rw [layers, transfer.layerBlockNbytes_eq] at same
  obtain ⟨outer, inner⟩ := digit_inj (digit_lt slotIn lowIn) (digit_lt slotIn' lowIn')
    (Int.ofNat.inj (add_left_cancel same))
  obtain ⟨halves, rfl⟩ := digit_inj blockIn blockIn' outer
  obtain ⟨rfl, lows⟩ := digit_inj lowIn lowIn' inner
  have quotients := distinct left.token right.token above below above' below' (by
    rw [named, named'])
  have tokens : transfer.chunkToken left = transfer.chunkToken right := by
    rw [← Nat.div_add_mod (transfer.chunkToken left) transfer.blockSize,
      ← Nat.div_add_mod (transfer.chunkToken right) transfer.blockSize, remainder, remainder']
    exact congrArg (transfer.blockSize * · + slot) quotients
  rw [chunkByte, chunkByte, layers, halves, lows, tokens]

/-- What the segments leave in memory. -/
theorem effect : (transfer.RowsRestored ↔ transfer.RowsAgree) ∧ transfer.OthersUnchanged := by
  have places := writeAll_places transfer.before transfer.moves_segments
    (fun byte chosen => transfer.file_origin chosen)
  rw [← transfer.after_eq] at places
  exact places

/-- **A direct retrieve into per-layer caches.** It changes nothing but the rows
of the uncached tokens, and restores all of these exactly when rows that share
memory have equal bytes; distinct blocks and separate layers are enough. -/
theorem perLayerTransfer_restores_iff :
    (transfer.RowsRestored ↔ transfer.RowsAgree) ∧ transfer.OthersUnchanged ∧
      (transfer.DistinctBlocks → transfer.LayersApart → transfer.RowsRestored) := by
  obtain ⟨restored, unchanged⟩ := transfer.effect
  exact ⟨restored, unchanged, fun distinct apart =>
    restored.mpr (transfer.rowsAgree_of_apart distinct apart)⟩

end PerLayerTransfer

/-! ### One cache for two layers -/

/-- A cache of one block with one slot of one byte. -/
def oneByteCache : Tensor where
  device := ⟨.cuda, none⟩
  dtype := .uint8
  storageBase := 4096
  storageNbytes := 2
  storageOffset := 0
  shape := [2, 1, 1, 1, 1]
  stride := [1, 1, 1, 1, 1]
  ranked := rfl
  inStorage := by decide

def oneByteSegment (position : ℕ) : DirectIOByteSegment :=
  ⟨blockFirstHeaderSize + position, 0, (position % 2 : ℕ), 1⟩

/-- The descriptor for a chunk of one token when both layers have this cache. -/
def sharedDescriptor : DirectIODescriptor :=
  segmentDescriptor ⟨.cuda, none⟩ [oneByteCache, oneByteCache]
    [⟨⟨.cuda, none⟩, 4096, 2, some [oneByteCache]⟩] 4 1 1 0 [0] ((List.range 4).map oneByteSegment)

def sharedPlan : PerLayerPlan where
  first := oneByteCache
  others := [oneByteCache]
  slotMapping := [0]
  starts := [0]
  ends := [1]
  blockSize := 1
  skipBefore := 0
  plans := [⟨some sharedDescriptor, none⟩]
  built := by decide
  index := 0
  start := 0
  stop := 1
  starts_at := first_start_zero
  ends_at := rfl
  descriptor := sharedDescriptor
  planned := rfl

/-- A backend with a complete driver for two layers of one-byte rows. -/
def twoLayerBackend : XdsBackend where
  metadata :=
    { identity := ⟨"model", 1, 0, 1, 1⟩
      blockSize := 1
      chunkSize := 1
      getShapes := fun tokens => [[2, 2, tokens, 1]]
      getDtypes := [.uint8] }
  directEnabled := true
  dstDevice := ⟨.cuda, none⟩
  signature := LayoutFields.dtype
  codec := .failing "no header"
  driver := .complete

/-- The bytes 0 to 3 as a payload: layer 1 is not equal to layer 0. -/
def countedFile : FileImage :=
  ⟨blockFirstHeaderSize + 4, fun position => UInt8.ofNat (position - blockFirstHeaderSize).toNat⟩

/-- The bytes of the file, as a chunk of one token in two layers. -/
def layerChunk : Chunk := fun half layer _ _ => UInt8.ofNat (layer * 2 + half)

theorem sharedPlan_holdsPayload :
    sharedPlan.shape.HoldsPayload countedFile.content blockFirstHeaderSize layerChunk := by
  rintro block layer half slot low blockIn layerIn halfIn slotIn lowIn
  have extents : sharedPlan.shape = ⟨2, 1, 1, 1, 1⟩ := by decide
  rw [extents] at blockIn layerIn slotIn lowIn ⊢
  simp only [ChunkShape.rowNbytes, Nat.mul_one, Nat.lt_one_iff] at blockIn slotIn lowIn
  subst blockIn slotIn lowIn
  refine congrArg UInt8.ofNat ?_
  simp only [ChunkShape.payloadPosition, ChunkShape.blockPosition, ChunkShape.layerBlockNbytes,
    ChunkShape.rowNbytes]
  omega

def sharedTransfer : PerLayerTransfer twoLayerBackend where
  toPerLayerPlan := sharedPlan
  file := countedFile
  scratchBase := 0
  before := fun _ => 0
  after := writeAll countedFile.content
    ((sharedDescriptor.byteSegments.map (XdsBackend.segmentCall sharedDescriptor)).map
      XdsCall.readCopy) fun _ => 0
  chunk := layerChunk
  held := sharedPlan_holdsPayload
  transferred := rfl

/-- When two layers share one cache, the first layer's rows are overwritten with
the second's, although the chunk's blocks are distinct. -/
theorem rowsRestored_fails_sharedTransfer :
    sharedTransfer.DistinctBlocks ∧ ¬ sharedTransfer.RowsRestored := by
  constructor
  · rintro left right _ below _ below' _
    change (left : ℤ) < 1 at below
    change (right : ℤ) < 1 at below'
    have same : left = right := by omega
    rw [same]
  · rintro restored
    have first := restored ⟨0, 0, 0, 0⟩ ⟨by decide, by decide, by decide, by decide, by decide⟩
    revert first
    decide

end LMCacheHcu.Storage
