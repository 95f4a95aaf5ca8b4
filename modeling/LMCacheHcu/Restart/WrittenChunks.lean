import LMCacheHcu.Restart.Scan
import LMCacheHcu.Storage.BlockFirstLayout

/-! # Block-first files as they are written

The header of a complete chunk that the running engine wrote is decoded to the
metadata it was made of, and that passes the checks against the same engine.
Both backends that read such files rely on this.
-/

namespace LMCacheHcu.Restart

open Storage Exceptions Python

variable {F : Type}

/-- A complete chunk as it was written: its metadata, the packed header and the
payload. -/
structure WrittenChunk (runtime : HeaderRuntime F) (engine : EngineMetadata) where
  logicalShape : List ℕ
  dtype : DType
  metadata : BlockFirstDiskMetadata
  header : List Byte
  payload : List Byte
  shapes : engine.getShapes engine.chunkSize = [logicalShape]
  dtypes : engine.getDtypes = [dtype]
  complete : (logicalShape.map Int.ofNat).getD 2 0 = engine.chunkSize
  created : BlockFirstDiskMetadata.create runtime.signatureOf logicalShape dtype
    engine.blockSize engine.identity = .ok metadata
  packed : packBlockFirstHeader runtime metadata.raw = .ok header
  written : (payload.length : ℤ) = metadata.ioNbytes

/-- The signature in created metadata is that of its fields. -/
theorem signature_of_create {signature : LayoutFields → String} {logicalShape : List ℕ}
    {dtype : DType} {blockSize : ℕ} {identity : WorkerIdentity} {metadata : BlockFirstDiskMetadata}
    (created : BlockFirstDiskMetadata.create signature logicalShape dtype blockSize identity =
      .ok metadata) :
    metadata.layoutSignature = signature (engineLayout identity logicalShape dtype blockSize) := by
  simp only [BlockFirstDiskMetadata.create, Checked.bind_ok, Checked.return_ok] at created
  obtain ⟨_, -, _, -, _, -, rfl⟩ := created
  rfl

/-- A signature that is computed is the one that `create` records. -/
theorem signatureOf_of_computed {runtime : HeaderRuntime F} {fields : LayoutFields}
    {signature : String} (computed : (runtime.dumps fields.value).map runtime.sha256 = .ok signature) :
    runtime.signatureOf fields = signature := by
  unfold HeaderRuntime.signatureOf
  cases dumped : runtime.dumps fields.value with
  | error kind =>
      rw [dumped] at computed
      cases computed
  | ok bytes =>
      rw [dumped] at computed
      exact Except.ok.inj computed

namespace WrittenChunk

variable {runtime : HeaderRuntime F} {engine : EngineMetadata} (chunk : WrittenChunk runtime engine)

def content : List Byte := chunk.header ++ chunk.payload

theorem made : CreatedFor chunk.metadata chunk.logicalShape chunk.dtype engine.blockSize :=
  createdFor_of_create chunk.created

theorem length_header : chunk.header.length = headerSize := by
  obtain ⟨_, _, _, fits, whole⟩ := pack_ok chunk.packed
  rw [whole]
  exact length_headerOf fits

/-- The header is decoded to the metadata. -/
theorem unpack :
    unpackBlockFirstHeader runtime (chunk.content.take headerSize) = .ok chunk.metadata.raw := by
  obtain ⟨valid, payload, form, fits, whole⟩ := pack_ok chunk.packed
  rw [content, List.take_left' chunk.length_header, whole]
  exact unpack_headerOf_asdict valid form fits

theorem length_content :
    (chunk.content.length : ℤ) = blockFirstHeaderSize + chunk.metadata.ioNbytes := by
  rw [content, List.length_append, chunk.length_header, Nat.cast_add, chunk.written]
  rfl

theorem validTokens_raw :
    (chunk.metadata.raw (F := F)).validTokens.equals runtime.floats (.int engine.chunkSize) = true :=
  decide_eq_true (chunk.made.validTokens.trans chunk.complete)

theorem logicalShape_raw :
    (chunk.metadata.raw (F := F)).logicalShape = (chunk.logicalShape.map Int.ofNat).map .int := by
  rw [BlockFirstDiskMetadata.raw, chunk.made.logicalShape_eq]

theorem torchDtype_raw : (chunk.metadata.raw (F := F)).torchDtype = .ok chunk.dtype := by
  have same : (chunk.metadata.raw (F := F)).torchDtype =
      declare (parseDtype chunk.metadata.dtype) := rfl
  rw [same, chunk.made.dtype_eq, parseDtype_name]
  rfl

theorem validate_raw : (chunk.metadata.raw (F := F)).validate runtime = .ok () :=
  (pack_ok chunk.packed).1

/-- The logical shape is the expected one. -/
theorem equalItems_raw :
    Value.equalItems runtime.floats (chunk.metadata.raw (F := F)).logicalShape
      ((chunk.logicalShape.map Int.ofNat).map .int) = true := by
  rw [chunk.logicalShape_raw]
  exact Value.equalItems_ints _ _

/-- The signature is that of the engine. -/
theorem signature_raw {signature : String}
    (computed : (runtime.dumps (engineLayout engine.identity chunk.logicalShape chunk.dtype
      engine.blockSize).value).map runtime.sha256 = .ok signature) :
    (chunk.metadata.raw (F := F)).layoutSignature.equals runtime.floats (.text signature) = true :=
  decide_eq_true ((signature_of_create chunk.created).trans (signatureOf_of_computed computed))

end WrittenChunk

end LMCacheHcu.Restart
