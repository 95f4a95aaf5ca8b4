import LMCacheHcu.Storage.BlockFirstFile
import LMCacheHcu.Storage.CrossLayerGuarantees
import LMCacheHcu.Storage.PerLayerGuarantees

/-! # Storing and loading a chunk

A file that any of the three writers has published, read by any of the three
readers, gives back the chunk. The readers accept the file only with the header
that the writer gave it, and this header fixes the extents.
-/

namespace LMCacheHcu.Storage

open RowMajor ByteCopy

/-! ### The staged reader -/

/-- A completed staged load of a file into a contiguous tensor of the chunk's
element size. -/
structure StagedLoad (backend : XdsBackend) (shape : ChunkShape) (file : FileImage) where
  allocate : List ℕ → DType → Device → Tensor
  staging : BlockFirstStaging
  diskMetadata : BlockFirstDiskMetadata
  output : Tensor
  itemsize : output.elementSize = shape.itemsize
  contiguous : output.isContiguous = true
  before : Memory
  after : Memory
  loaded : backend.loadBlockFirstXds allocate staging file diskMetadata output before =
    .ok (diskMetadata.ioNbytes, after)

theorem StagedLoad.restores {backend : XdsBackend} {shape : ChunkShape} {chunk : Chunk}
    {diskMetadata : BlockFirstDiskMetadata} {file : FileImage}
    (load : StagedLoad backend shape file)
    (published : Publishes backend shape chunk diskMetadata file) :
    shape.HoldsLogical load.after load.output.dataPtr chunk := by
  have loaded := load.loaded
  simp only [XdsBackend.loadBlockFirstXds, Checked.bind_ok, Checked.throw_bind, Checked.check_ok,
    Checked.mapError_ok, not_not, published.header, Except.ok.injEq, exists_eq_left'] at loaded
  obtain ⟨rfl, _, staged, rest⟩ := loaded
  split at rest
  · rename_i short
    have count := congrArg Prod.fst (Checked.return_ok.mp rest)
    exact absurd count short
  rename_i full
  simp only [Checked.bind_ok, Checked.mapError_ok, Checked.return_ok, Prod.mk.injEq,
    Prod.exists] at rest
  obtain ⟨result, copies, converted, _, after⟩ := rest
  obtain rfl := blockFirstToLogical_out converted
  have read := backend.driver.read_full _ _ _ (not_not.mp full)
  have dims : load.staging.tensor.shape = shape.payloadDims := by
    apply shape_eq_of_intShape
    rw [← published.payloadShape, ← staged, Tensor.intShape]
  have size : load.staging.tensor.elementSize = shape.itemsize := by
    rw [← load.itemsize]
    exact (congrArg DType.itemsize (blockFirstToLogical_ok converted).2.2.2.2.1).symm
  rw [← after]
  refine holdsLogical_of_blockFirstToLogical dims size load.contiguous converted _ ?_
  intro block layer half slot low blockIn layerIn halfIn slotIn lowIn
  have inside := shape.payloadPosition_lt blockIn layerIn halfIn slotIn lowIn
  have payloadNbytes := published.payloadNbytes
  have ioNbytes := published.ioNbytes
  rw [read, load.staging.placed,
    ← published.payload block layer half slot low blockIn layerIn halfIn slotIn lowIn]
  have covers : Copy.Covers ⟨(XdsBackend.stagingCall load.staging load.diskMetadata).fileOffset,
      (XdsBackend.stagingCall load.staging load.diskMetadata).gpuAddress +
        (XdsBackend.stagingCall load.staging load.diskMetadata).devOffset,
      (XdsBackend.stagingCall load.staging load.diskMetadata).size⟩
      (((load.staging.basePointer + load.staging.address : ℕ) : ℤ) +
        (shape.payloadPosition block layer half slot low : ℤ)) := by
    simp only [Copy.Covers, XdsBackend.stagingCall]
    omega
  refine (if_pos covers).trans (congrArg file.content ?_)
  simp only [Copy.origin, XdsBackend.stagingCall]
  push_cast
  ring

/-! ### The direct readers -/

theorem validateRuntime_ok {signature : LayoutFields → String} {metadata : BlockFirstDiskMetadata}
    {logicalShape : List ℕ} {dtype : DType} {identity : WorkerIdentity} {blockSize : ℤ}
    (valid : metadata.validateRuntime signature logicalShape dtype identity blockSize = .ok ()) :
    metadata.logicalShape = logicalShape.map Int.ofNat ∧ parseDtype metadata.dtype = .ok dtype := by
  simp only [BlockFirstDiskMetadata.validateRuntime, Checked.bind_ok, Checked.throw_bind,
    Checked.check_ok, not_not] at valid
  obtain ⟨_, _, shapes, recorded, parsed, rfl, _⟩ := valid
  exact ⟨shapes, parsed⟩

/-- The checks before a direct transfer compare the file's extents with those of
the engine, so the engine's metadata describes the chunk of an accepted file. -/
theorem describes_of_prepare {backend : XdsBackend} {shape : ChunkShape} {chunk : Chunk}
    {diskMetadata published : BlockFirstDiskMetadata} {file : FileImage}
    {descriptor : DirectIODescriptor} (publishes : Publishes backend shape chunk published file)
    (prepared : backend.prepareDirectXds file diskMetadata descriptor = .ok ()) :
    backend.Describes shape := by
  simp only [XdsBackend.prepareDirectXds, Checked.bind_ok, Checked.throw_bind, Checked.check_ok,
    Checked.mapError_ok, not_not, publishes.header, Except.ok.injEq, exists_eq_left'] at prepared
  obtain ⟨_, valid, rfl, _, runtime⟩ := prepared
  obtain ⟨_, engineShape, engineType, shapes, dtypes⟩ :=
    XdsBackend.validateDirectDescriptor_ok valid
  rw [shapes, dtypes] at runtime
  obtain ⟨logical, parsed⟩ := validateRuntime_ok runtime
  obtain ⟨dtype, parsed', size⟩ := publishes.dtype
  obtain rfl : engineType = dtype := Except.ok.inj (parsed.symm.trans parsed')
  have dims : engineShape = shape.logicalDims := by
    apply List.map_injective_iff.mpr fun _ _ => Int.ofNat.inj
    rw [← publishes.logicalShape, logical]
    rfl
  exact ⟨⟨shape.numTokens, by rw [shapes, dims]; rfl⟩, engineType, dtypes, size⟩

/-- A completed direct load of a chunk into per-layer caches. -/
structure PerLayerLoad (backend : XdsBackend) (shape : ChunkShape) (file : FileImage)
    extends PerLayerPlan where
  shape_eq : toPerLayerPlan.shape = shape
  diskMetadata : BlockFirstDiskMetadata
  scratchBase : ℤ
  before : Memory
  after : Memory
  loaded : backend.loadDirectXds file diskMetadata descriptor scratchBase before = .ok after

namespace PerLayerLoad

variable {backend : XdsBackend} {shape : ChunkShape} {file : FileImage}
  (load : PerLayerLoad backend shape file)

/-- The caches have the rows of the uncached tokens in this memory. -/
def Holds (memory : Memory) (chunk : Chunk) : Prop :=
  ∀ byte, load.Chosen byte →
    memory (load.place byte) = chunk byte.half byte.layer (load.chunkToken byte) byte.low

/-- The load as a transfer from a file that holds the chunk. -/
def toTransfer {chunk : Chunk} {diskMetadata : BlockFirstDiskMetadata}
    (published : Publishes backend shape chunk diskMetadata file) : PerLayerTransfer backend where
  toPerLayerPlan := load.toPerLayerPlan
  file := file
  scratchBase := load.scratchBase
  before := load.before
  after := load.after
  chunk := chunk
  held := by
    rw [load.shape_eq]
    exact published.payload
  transferred := by
    obtain ⟨_, _, done⟩ := Checked.bind_ok.mp load.loaded
    exact done

/-- Caches that can hold the chunk at all hold it after the load. -/
theorem restores {chunk : Chunk} {diskMetadata : BlockFirstDiskMetadata}
    (published : Publishes backend shape chunk diskMetadata file)
    (holdable : ∃ memory, load.Holds memory chunk) : load.Holds load.after chunk := by
  obtain ⟨memory, held⟩ := holdable
  apply (load.toTransfer published).effect.1.mpr
  intro left right chosen chosen' same
  exact (held left chosen).symm.trans ((congrArg memory same).trans (held right chosen'))

end PerLayerLoad

/-- A completed direct load of a chunk into a cross-layer cache, into distinct
blocks, with the scratch block allocated apart from the cache. -/
structure CrossLayerLoad (backend : XdsBackend) (shape : ChunkShape) (file : FileImage)
    extends CrossLayerPlan where
  retrieves : direction = .retrieve
  shape_eq : toCrossLayerPlan.shape = shape
  distinct : DistinctBlocks slotMapping blockSize start (max start skipBefore) stop
  diskMetadata : BlockFirstDiskMetadata
  scratchBase : ℤ
  scratchApart : scratchBase + descriptor.blockNbytes ≤ kvCache.dataPtr ∨
    kvCache.dataPtr + kvCache.numel * kvCache.elementSize ≤ scratchBase
  before : Memory
  after : Memory
  loaded : backend.loadDirectXds file diskMetadata descriptor scratchBase before = .ok after

namespace CrossLayerLoad

variable {backend : XdsBackend} {shape : ChunkShape} {file : FileImage}
  (load : CrossLayerLoad backend shape file)

/-- The cache has the rows of the uncached tokens in this memory. -/
def Holds (memory : Memory) (chunk : Chunk) : Prop :=
  ∀ byte, load.Chosen byte →
    memory (load.place byte) = chunk byte.half byte.layer (load.chunkToken byte) byte.low

/-- The load as a transfer from a file that holds the chunk. -/
def toTransfer {chunk : Chunk} {diskMetadata : BlockFirstDiskMetadata}
    (published : Publishes backend shape chunk diskMetadata file) : CrossLayerTransfer backend where
  toCrossLayerPlan := load.toCrossLayerPlan
  retrieves := load.retrieves
  file := file
  scratchBase := load.scratchBase
  before := load.before
  after := load.after
  chunk := chunk
  held := by
    rw [load.shape_eq]
    exact published.payload
  described := by
    obtain ⟨_, prepared, _⟩ := Checked.bind_ok.mp load.loaded
    rw [load.shape_eq]
    exact describes_of_prepare published prepared
  scratchApart := load.scratchApart
  transferred := by
    obtain ⟨_, _, done⟩ := Checked.bind_ok.mp load.loaded
    exact done

theorem restores {chunk : Chunk} {diskMetadata : BlockFirstDiskMetadata}
    (published : Publishes backend shape chunk diskMetadata file) : load.Holds load.after chunk :=
  ((load.toTransfer published).effect load.distinct).1

end CrossLayerLoad

/-! ### Any writer, any reader -/

/-- A completed store of a chunk by one of the three writers. -/
inductive Store (backend : XdsBackend) (shape : ChunkShape) (chunk : Chunk)
  | staged (store : StagedStore backend shape chunk)
  | cpu (store : CpuStore backend shape chunk)
  | direct (store : DirectStore backend shape chunk)

namespace Store

variable {backend : XdsBackend} {shape : ChunkShape} {chunk : Chunk}

def file : Store backend shape chunk → FileImage
  | staged store => store.file
  | cpu store => store.file
  | direct store => store.file

def diskMetadata : Store backend shape chunk → BlockFirstDiskMetadata
  | staged store => store.diskMetadata
  | cpu store => store.diskMetadata
  | direct store => store.diskMetadata

theorem publishes (store : Store backend shape chunk) :
    Publishes backend shape chunk store.diskMetadata store.file := by
  cases store with
  | staged store => exact store.publishes
  | cpu store => exact store.publishes
  | direct store => exact store.publishes

end Store

end LMCacheHcu.Storage
