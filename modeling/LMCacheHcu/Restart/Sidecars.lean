import LMCacheHcu.Foundation.Exceptions
import LMCacheHcu.Foundation.Ledger
import LMCacheHcu.Foundation.LittleEndian
import LMCacheHcu.Restart.FileNames
import LMCacheHcu.Storage.BlockFirstDisk

/-! # Legacy sidecars

A sidecar is a header of four words, the version, the code of the dtype, the
stored size and the number of dimensions, with the dimensions behind it.
`_read_metadata` decodes it, compares the stored size with shape and dtype, and
indexes the entry. The words are unsigned and of 64 bits, and each of them comes
from a file that may have any content.
-/

namespace LMCacheHcu.Restart

open Storage Exceptions

/-- The version that `pack_metadata` writes. -/
def metadataVersion : ℕ := 1

def metadataMaxSize : ℕ := 72

def alignment : ℤ := 4096

/-- `struct.calcsize("<QQQQ")`. -/
def sidecarHeaderSize : ℕ := 32

def torchDtypes : List DType :=
  [.float16, .float16, .bfloat16, .float32, .float32, .float64, .float64, .uint8, .float8E4m3fn,
    .float8E5m2]

/-- `dtype_to_idx`: of equal dtypes the last one counts. -/
def dtypeToIdx (dtype : DType) : Option ℕ :=
  (List.range torchDtypes.length).reverse.find? fun index => torchDtypes[index]? = some dtype

/-- `UnsupportedMetadataVersion`, with its message. -/
structure UnsupportedMetadataVersion where
  message : String
deriving DecidableEq, Repr

/-- What the decoder needs of the runtime: the texts that can be allocated, and
`torch.Size(shape).numel()`, which is the product of the dimensions when they and
the product are 64-bit integers. -/
structure Runtime where
  allocates : ℕ → Bool
  numel : List ℕ → Except Builtin ℤ
  structText : List Byte → String
  allocates_small : ∀ length ≤ metadataMaxSize, allocates length = true
  numel_small : ∀ shape : List ℕ, (∀ dim ∈ shape, dim < 2 ^ 63) → shape.prod < 2 ^ 63 →
    numel shape = .ok shape.prod

/-! ### The bytes -/

/-- `pack_metadata`. -/
def packMetadata (shape : List ℕ) (dtype : DType) (size : ℤ) : Except Builtin (List Byte) :=
  if metadataMaxSize < sidecarHeaderSize + 8 * shape.length then .error .valueError
  else
    match dtypeToIdx dtype with
    | none => .error .keyError
    | some index =>
        if 0 ≤ size ∧ size < 2 ^ 64 ∧ ∀ dim ∈ shape, dim < 2 ^ 64 then
          .ok (LittleEndian.words 8
            ([metadataVersion, index, size.toNat, shape.length] ++ shape))
        else .error .structError

structure SidecarHeader where
  version : ℕ
  dtIdx : ℕ
  size : ℕ
  ndim : ℕ
deriving DecidableEq, Repr

/-- The word of a buffer with the given number. -/
def wordAt (buffer : List Byte) (index : ℕ) : ℕ :=
  LittleEndian.value ((buffer.drop (8 * index)).take 8)

/-- The fields of the header. -/
def sidecarHeader (buffer : List Byte) : SidecarHeader :=
  ⟨wordAt buffer 0, wordAt buffer 1, wordAt buffer 2, wordAt buffer 3⟩

/-- The dimensions behind the header. -/
def sidecarShape (buffer : List Byte) : List ℕ :=
  LittleEndian.values 8 (sidecarHeader buffer).ndim (buffer.drop sidecarHeaderSize)

/-- `struct.unpack_from("<QQQQ", buffer)`. -/
def unpackHeader (buffer : List Byte) : Except Builtin SidecarHeader :=
  if buffer.length < sidecarHeaderSize then .error .structError else .ok (sidecarHeader buffer)

/-- `"<" + ndim * "Q"`: a count must be a machine integer and the text must fit
in memory. -/
def Runtime.shapeFormat (runtime : Runtime) (ndim : ℕ) : Except Builtin Unit :=
  if 2 ^ 63 ≤ ndim then .error .overflowError
  else if runtime.allocates ndim then .ok ()
  else .error .memoryError

/-- `struct.unpack_from("<" + ndim * "Q", buffer, offset=shape_offset)`. -/
def unpackShape (buffer : List Byte) (ndim : ℕ) : Except Builtin (List ℕ) :=
  if buffer.length < sidecarHeaderSize + 8 * ndim then .error .structError
  else .ok (LittleEndian.values 8 ndim (buffer.drop sidecarHeaderSize))

/-- The body of the `try` in `unpack_metadata`. -/
def decodeMetadata (runtime : Runtime) (buffer : List Byte) :
    Except (Raised UnsupportedMetadataVersion) (List ℕ × DType × ℕ) := do
  let header ← builtin (unpackHeader buffer)
  if header.version ≠ metadataVersion then
    throw (.declared ⟨s!"Unsupported metadata version: {header.version}"⟩)
  match torchDtypes[header.dtIdx]? with
  | none => throw (.declared ⟨s!"bad dtype code {header.dtIdx}"⟩)
  | some dtype =>
      builtin (runtime.shapeFormat header.ndim)
      let shape ← builtin (unpackShape buffer header.ndim)
      return (shape, dtype, header.size)

/-- `unpack_metadata`. -/
def unpackMetadata (runtime : Runtime) (buffer : List Byte) :
    Except (Raised UnsupportedMetadataVersion) (List ℕ × DType × ℕ) :=
  translate (· = .structError) (fun _ => ⟨"corrupt metadata: " ++ runtime.structText buffer⟩)
    (decodeMetadata runtime buffer)

/-! ### The index -/

/-- `XDSCacheMetadata`, for a type of block-first metadata. -/
structure FileEntry (M : Type) where
  path : Text
  size : ℤ
  shape : List ℤ
  dtype : DType
  diskMetadata : Option M
deriving DecidableEq

/-- `hot_cache`, `metadata_dirs` and `current_cache_size`. -/
structure HotIndex (Key M : Type) [DecidableEq Key] where
  hotCache : AList fun _ : Key => FileEntry M
  metadataDirs : Finset Text
  currentCacheSize : ℤ

namespace HotIndex

variable {Key M : Type} [DecidableEq Key]

def empty : HotIndex Key M := ⟨∅, ∅, 0⟩

variable (index : HotIndex Key M)

def find (key : Key) : Option (FileEntry M) := index.hotCache.lookup key

def sizeOf (key : Key) : ℤ := ((index.find key).map FileEntry.size).getD 0

/-- Put an entry in the place of one that the key may have. -/
def put (key : Key) (subdirKey : Text) (entry : FileEntry M) : HotIndex Key M where
  hotCache := index.hotCache.insert key entry
  metadataDirs := insert subdirKey index.metadataDirs
  currentCacheSize := index.currentCacheSize - index.sizeOf key + entry.size

/-- The region of `_read_metadata` under `hot_lock`: a block-first entry stays. -/
def putLegacy (key : Key) (subdirKey : Text) (entry : FileEntry M) :
    HotIndex Key M × FileEntry M :=
  match index.find key with
  | some previous =>
      if previous.diskMetadata.isSome then (index, previous)
      else (index.put key subdirKey entry, entry)
  | none => (index.put key subdirKey entry, entry)

@[simp] theorem find_empty (key : Key) : (empty : HotIndex Key M).find key = none := rfl

@[simp] theorem find_put (key : Key) (subdirKey : Text) (entry : FileEntry M) :
    (index.put key subdirKey entry).find key = some entry :=
  AList.lookup_insert index.hotCache

theorem find_put_of_ne {key other : Key} (differ : other ≠ key) (subdirKey : Text)
    (entry : FileEntry M) : (index.put key subdirKey entry).find other = index.find other :=
  AList.lookup_insert_ne differ

theorem putLegacy_of_blockFirst {key : Key} {previous : FileEntry M}
    (found : index.find key = some previous) (blockFirst : previous.diskMetadata.isSome)
    (subdirKey : Text) (entry : FileEntry M) :
    index.putLegacy key subdirKey entry = (index, previous) := by
  unfold putLegacy
  rw [found]
  exact if_pos blockFirst

/-- Without a block-first entry of the key the legacy entry is put. -/
theorem putLegacy_cases (key : Key) (subdirKey : Text) (entry : FileEntry M) :
    (∃ previous, index.find key = some previous ∧ previous.diskMetadata.isSome ∧
      index.putLegacy key subdirKey entry = (index, previous)) ∨
    index.putLegacy key subdirKey entry = (index.put key subdirKey entry, entry) := by
  unfold putLegacy
  cases present : index.find key with
  | none => exact .inr rfl
  | some previous =>
      by_cases blockFirst : previous.diskMetadata.isSome = true
      · exact .inl ⟨previous, rfl, blockFirst, if_pos blockFirst⟩
      · exact .inr (if_neg blockFirst)

end HotIndex

/-! ### Reading a sidecar -/

/-- The stored size fits the bytes of the chunk: no less than them, and with an
XDS buffer the aligned count. -/
def SizeFits (xdsBuffer : Bool) (size raw : ℤ) : Prop :=
  raw ≤ size ∧ (xdsBuffer = true → size = (raw + alignment - 1) / alignment * alignment)

instance (xdsBuffer : Bool) (size raw : ℤ) : Decidable (SizeFits xdsBuffer size raw) :=
  inferInstanceAs (Decidable (_ ∧ _))

/-- The size checks of `_read_metadata`, and the entry that passes them. -/
def checkMetadata {M : Type} (runtime : Runtime) (xdsBuffer : Bool) (filename : Text)
    (shape : List ℕ) (dtype : DType) (size : ℕ) :
    Except (Raised UnsupportedMetadataVersion) (FileEntry M) := do
  let numel ← builtin (runtime.numel shape)
  let raw := numel * dtype.itemsize
  if (size : ℤ) < raw then
    throw (.declared ⟨s!"metadata size {size} < raw payload {raw} for " ++ String.ofList filename⟩)
  let expected := (raw + alignment - 1) / alignment * alignment
  if xdsBuffer = true ∧ (size : ℤ) ≠ expected then
    throw (.declared ⟨s!"metadata size {size} != aligned {expected} for " ++
      String.ofList filename⟩)
  return ⟨Text.removeSuffix metadataFileSuffix filename, size, shape.map Int.ofNat, dtype, none⟩

/-- What a sidecar with the given content says about the file of its path. The
read stops at `_METADATA_MAX_SIZE`. -/
def sidecarEntry {M : Type} (runtime : Runtime) (xdsBuffer : Bool) (filename : Text)
    (content : List Byte) : Except (Raised UnsupportedMetadataVersion) (FileEntry M) := do
  let (shape, dtype, size) ← unpackMetadata runtime (content.take metadataMaxSize)
  checkMetadata runtime xdsBuffer filename shape dtype size

/-- `_read_metadata`: the index afterwards and the result. -/
def readMetadata {Key M : Type} [DecidableEq Key] (runtime : Runtime) (xdsBuffer : Bool)
    (key : Key) (filename subdirKey : Text) (content : List Byte) (index : HotIndex Key M) :
    HotIndex Key M × Except (Raised UnsupportedMetadataVersion) (FileEntry M) :=
  match sidecarEntry runtime xdsBuffer filename content with
  | .error failure => (index, .error failure)
  | .ok entry =>
      ((index.putLegacy key subdirKey entry).1, .ok (index.putLegacy key subdirKey entry).2)

end LMCacheHcu.Restart
