import LMCacheHcu.Gds.PathCodec
import LMCacheHcu.Storage.StagedReads

/-! # Legacy stores of the GDS backend

`_save_gds` writes the metadata to the head of a temporary file and brings the bytes
of the tensor behind them, with cuFile or with a copy into a mapping of the file. It
does not look at the count that cuFile returns, and in the copy it adds the offset in
the allocator also where the address is that of the tensor.
-/

namespace LMCacheHcu.Gds

open Storage ByteCopy

/-! ### Addresses -/

/-- What the backend transfers with: `self.cufile` or `self.cudart`, of which the
constructor sets one. -/
inductive TransferLibrary
  | cufile
  | cudart
deriving DecidableEq, Repr

/-- The attributes of the backend that a transfer reads, and the size of a page. -/
structure GdsTransfer where
  library : TransferLibrary
  cufileBasePointer : Option ℤ
  page : ℕ
  page_pos : 0 < page

/-- A memory object: `tensor.data_ptr()`, `metadata.address` and the size of its tensor.
With a base pointer it is at its address in the allocator. -/
structure LegacyObject (io : GdsTransfer) where
  dataPtr : ℤ
  address : ℤ
  nbytes : ℕ
  placed : ∀ base, io.cufileBasePointer = some base → dataPtr = base + address

namespace GdsTransfer

variable (io : GdsTransfer)

/-- `addr`. -/
def addr (object : LegacyObject io) : ℤ := io.cufileBasePointer.getD object.dataPtr

/-- `dev_offset`. -/
def devOffset (object : LegacyObject io) : ℤ :=
  match io.cufileBasePointer with
  | none => 0
  | some _ => object.address

/-- In every mode the two are the address of the tensor. -/
theorem addr_add_devOffset (object : LegacyObject io) :
    io.addr object + io.devOffset object = object.dataPtr := by
  unfold addr devOffset
  cases pointer : io.cufileBasePointer with
  | none => exact Int.add_zero _
  | some base => exact (object.placed base pointer).symm

end GdsTransfer

/-! ### The save -/

/-- A chunk with the fields of its metadata. -/
structure LegacyChunk (io : GdsTransfer) (Format : Type) extends LegacyObject io where
  shape : List ℕ
  dtype : DType
  fmt : Format
  sized : nbytes = shape.prod * dtype.itemsize

/-- What the calls of one save answer: whether opening the temporary file and writing
the metadata raises nothing, the count of the cuFile write unless opening or writing
raises, whether the file can be extended and mapped, the code of `cudaMemcpy`, and
whether the rename and `save_metadata` raise nothing. -/
structure SaveCalls where
  creates : Bool
  cufileWrite : Option ℤ
  maps : Bool
  cudaMemcpy : ℤ
  renames : Bool
  savesMetadata : Bool

/-- A file with some bytes. -/
def fileOf (bytes : List Byte) : FileImage :=
  ⟨bytes.length, fun position => bytes.getD position.toNat 0⟩

/-- `os.ftruncate` to a size that is no smaller: the new bytes are zeros. -/
def extend (file : FileImage) (size : ℤ) : FileImage := ⟨size, file.mapping⟩

namespace GdsTransfer

variable {F Format : Type} (io : GdsTransfer) (runtime : SidecarRuntime F Format)

/-- The transfer behind the metadata, if it raises nothing. -/
def writeTensor (chunk : LegacyChunk io Format) (calls : SaveCalls) (memory : Memory)
    (file : FileImage) : Option FileImage :=
  match io.library with
  | .cufile =>
      -- The count is how much was written, and nothing looks at it.
      calls.cufileWrite.map fun count =>
        file.pwrite memory (io.addr chunk.toLegacyObject + io.devOffset chunk.toLegacyObject)
          metadataMaxSize count.toNat
  | .cudart =>
      if calls.maps = false ∨ io.addr chunk.toLegacyObject = 0 ∨ calls.cudaMemcpy ≠ 0 then none
      else
        -- The source is `addr + device_offset`, not `addr + dev_offset`.
        some ((extend file (chunk.nbytes + metadataMaxSize)).pwrite memory
          (io.addr chunk.toLegacyObject + chunk.address) metadataMaxSize chunk.nbytes)

/-- `_save_gds`: the metadata and the file that it renames, if it raises nothing. -/
def saveGds (chunk : LegacyChunk io Format) (calls : SaveCalls) (memory : Memory) :
    Option (List Byte × FileImage) :=
  match packMetadata runtime chunk.shape chunk.dtype chunk.fmt with
  | .error _ => none
  | .ok metadata =>
      if calls.creates = false then none
      else
        match io.writeTensor chunk calls memory (fileOf metadata) with
        | none => none
        | some file => if calls.renames = false then none else some (metadata, file)

/-- `_async_save_bytes_to_disk` for a legacy chunk: the metadata and the data file of
the entry that it publishes, if it comes to that. -/
def asyncSaveBytesToDisk (chunk : LegacyChunk io Format) (calls : SaveCalls) (memory : Memory) :
    Option (List Byte × FileImage) :=
  match io.saveGds runtime chunk calls memory with
  | none => none
  | some saved => if calls.savesMetadata = false then none else some saved

end GdsTransfer

/-! ### What is to hold, and when -/

section Statements

variable {F Format : Type} {io : GdsTransfer}

/-- A file with the metadata and the bytes of the tensor behind it, and nothing else. -/
structure HoldsChunk (file : FileImage) (metadata : List Byte) (object : LegacyObject io)
    (memory : Memory) : Prop where
  size : file.size = metadata.length + object.nbytes
  head : ∀ position (inside : position < metadata.length),
    file.content position = metadata[position]
  tensor : ∀ position < object.nbytes,
    file.content (metadata.length + position) = memory (object.dataPtr + position)

/-- **The property of a store.** -/
def PublishesWhole (runtime : SidecarRuntime F Format) (chunk : LegacyChunk io Format)
    (calls : SaveCalls) (memory : Memory) : Prop :=
  ∀ metadata file, io.asyncSaveBytesToDisk runtime chunk calls memory = some (metadata, file) →
    HoldsChunk file metadata chunk.toLegacyObject memory

/-- Nothing but the transfer can keep the store from publishing. -/
structure ReachesPublish (runtime : SidecarRuntime F Format) (chunk : LegacyChunk io Format)
    (calls : SaveCalls) : Prop where
  packs : ∃ metadata, packMetadata runtime chunk.shape chunk.dtype chunk.fmt = .ok metadata
  creates : calls.creates = true
  renames : calls.renames = true
  savesMetadata : calls.savesMetadata = true

/-- The copy into the mapping has the bytes of the tensor at its source, as it has with a
base pointer, or with an offset of 0. -/
def CopiesTensor (io : GdsTransfer) (object : LegacyObject io) (memory : Memory) : Prop :=
  ∀ position < object.nbytes,
    memory (io.addr object + object.address + position) = memory (object.dataPtr + position)

/-- The transfer brings the bytes of the tensor. -/
structure TransfersTensor (chunk : LegacyChunk io Format) (calls : SaveCalls) (memory : Memory) :
    Prop where
  cufile : io.library = .cufile → ∀ count, calls.cufileWrite = some count →
    count.toNat = chunk.nbytes
  cudart : io.library = .cudart → calls.maps = true → io.addr chunk.toLegacyObject ≠ 0 →
    calls.cudaMemcpy = 0 → CopiesTensor io chunk.toLegacyObject memory

end Statements

/-! ### Writes behind the metadata -/

section Writes

variable {file : FileImage} {memory : Memory} {source : ℤ} {length count position : ℕ}

/-- A write behind some bytes leaves them alone. -/
theorem content_pwrite_head (before : position < length) :
    (file.pwrite memory source length count).content position = file.content position := by
  apply if_neg
  rintro ⟨start, -⟩
  dsimp only at start
  omega

theorem content_pwrite_tensor (inside : position < count) :
    (file.pwrite memory source length count).content (length + position) =
      memory (source + position) := by
  have covers : Copy.Covers ⟨source, length, count⟩ ((length : ℤ) + position) := by
    constructor
    · dsimp only
      omega
    · dsimp only
      omega
  have origin : Copy.origin ⟨source, length, count⟩ ((length : ℤ) + position) =
      source + position := by
    unfold Copy.origin
    dsimp only
    omega
  exact (if_pos covers).trans (congrArg memory origin)

theorem content_fileOf {bytes : List Byte} (inside : position < bytes.length) :
    (fileOf bytes).content position = bytes[position] := by
  unfold fileOf
  dsimp only
  rw [Int.toNat_natCast, List.getD_eq_getElem?_getD, List.getElem?_eq_getElem inside]
  rfl

theorem content_extend_fileOf {bytes : List Byte} {size : ℤ} (inside : position < bytes.length) :
    (extend (fileOf bytes) size).content position = bytes[position] := by
  have below : (position : ℤ) < (fileOf bytes).size := Int.ofNat_lt.mpr inside
  exact (if_pos below).trans (content_fileOf inside)

variable {io : GdsTransfer} {object : LegacyObject io} {metadata : List Byte}

/-- A write of some bytes of the tensor is the chunk when it is of all of them. -/
theorem holdsChunk_cufile_iff :
    HoldsChunk ((fileOf metadata).pwrite memory object.dataPtr metadata.length count) metadata
      object memory ↔ count = object.nbytes := by
  have size : ((fileOf metadata).pwrite memory object.dataPtr metadata.length count).size =
      metadata.length + count := by
    unfold FileImage.pwrite fileOf
    dsimp only
    omega
  constructor
  · intro whole
    have := size.symm.trans whole.size
    omega
  · rintro rfl
    refine ⟨size, fun position inside => ?_, fun position inside => content_pwrite_tensor inside⟩
    rw [content_pwrite_head inside, content_fileOf inside]

/-- A copy of the size of the tensor is the chunk when its source has the bytes. -/
theorem holdsChunk_cudart_iff :
    HoldsChunk ((extend (fileOf metadata) (object.nbytes + metadata.length)).pwrite memory source
      metadata.length object.nbytes) metadata object memory ↔
    ∀ position < object.nbytes, memory (source + position) = memory (object.dataPtr + position) := by
  constructor
  · intro whole position inside
    rw [← whole.tensor position inside]
    exact (content_pwrite_tensor inside).symm
  · intro same
    refine ⟨?_, fun position inside => ?_, fun position inside => ?_⟩
    · unfold FileImage.pwrite extend
      dsimp only
      omega
    · rw [content_pwrite_head inside, content_extend_fileOf inside]
    · rw [content_pwrite_tensor inside, same position inside]

end Writes

/-! ### Stores -/

section Stores

variable {F Format : Type} {io : GdsTransfer} {runtime : SidecarRuntime F Format}
  {chunk : LegacyChunk io Format} {calls : SaveCalls} {memory : Memory}

/-- What a store publishes. -/
theorem asyncSaveBytesToDisk_eq_some {metadata : List Byte} {file : FileImage} :
    io.asyncSaveBytesToDisk runtime chunk calls memory = some (metadata, file) ↔
      packMetadata runtime chunk.shape chunk.dtype chunk.fmt = .ok metadata ∧
        calls.creates = true ∧
        io.writeTensor chunk calls memory (fileOf metadata) = some file ∧
        calls.renames = true ∧ calls.savesMetadata = true := by
  unfold GdsTransfer.asyncSaveBytesToDisk GdsTransfer.saveGds
  constructor
  · intro published
    split at published
    · cases published
    rename_i saved save
    split at published
    · cases published
    rename_i metadataSaved
    cases published
    split at save
    · cases save
    rename_i bytes packed
    split at save
    · cases save
    rename_i created
    split at save
    · cases save
    rename_i after written
    split at save
    · cases save
    rename_i renamed
    cases save
    exact ⟨packed, Bool.eq_true_of_not_eq_false created, written,
      Bool.eq_true_of_not_eq_false renamed, Bool.eq_true_of_not_eq_false metadataSaved⟩
  · rintro ⟨packed, created, written, renamed, metadataSaved⟩
    rw [packed]
    dsimp only
    rw [if_neg (Bool.not_eq_false _ |>.mpr created), written]
    dsimp only
    rw [if_neg (Bool.not_eq_false _ |>.mpr renamed)]
    exact if_neg (Bool.not_eq_false _ |>.mpr metadataSaved)

/-- What the transfer writes is the chunk exactly when it brings the tensor's bytes. -/
theorem holdsChunk_writeTensor_iff {metadata : List Byte}
    (length : metadata.length = metadataMaxSize) :
    (∀ file, io.writeTensor chunk calls memory (fileOf metadata) = some file →
      HoldsChunk file metadata chunk.toLegacyObject memory) ↔
    TransfersTensor chunk calls memory := by
  unfold GdsTransfer.writeTensor
  rw [← length]
  cases library : io.library with
  | cufile =>
      dsimp only
      rw [GdsTransfer.addr_add_devOffset]
      constructor
      · intro whole
        refine ⟨fun _ count wrote => ?_, fun other => ?_⟩
        · rw [wrote] at whole
          exact holdsChunk_cufile_iff.mp (whole _ rfl)
        · rw [library] at other
          cases other
      · intro transfers file written
        obtain ⟨count, wrote, rfl⟩ := Option.map_eq_some_iff.mp written
        exact holdsChunk_cufile_iff.mpr (transfers.cufile library count wrote)
  | cudart =>
      dsimp only
      by_cases refused : calls.maps = false ∨ io.addr chunk.toLegacyObject = 0 ∨
          calls.cudaMemcpy ≠ 0
      · rw [if_pos refused]
        refine iff_of_true (fun file written => nomatch written) ⟨fun other => ?_, ?_⟩
        · rw [library] at other
          cases other
        · intro _ maps there copied
          rcases refused with unmapped | absent | failed
          · exact absurd (unmapped.symm.trans maps) Bool.false_ne_true
          · exact absurd absent there
          · exact absurd copied failed
      · rw [if_neg refused]
        obtain ⟨maps, there, copied⟩ :
            calls.maps = true ∧ io.addr chunk.toLegacyObject ≠ 0 ∧ calls.cudaMemcpy = 0 := by
          simpa using refused
        constructor
        · intro whole
          refine ⟨fun other => ?_, fun _ _ _ _ => ?_⟩
          · rw [library] at other
            cases other
          · exact holdsChunk_cudart_iff.mp (whole _ rfl)
        · rintro transfers _ ⟨⟩
          exact holdsChunk_cudart_iff.mpr (transfers.cudart library maps there copied)

/-- **Legacy stores.** A store publishes nothing but whole files exactly when, if it gets
as far as that, the transfer brings the bytes of the tensor. -/
theorem publishesWhole_iff :
    PublishesWhole runtime chunk calls memory ↔
      (ReachesPublish runtime chunk calls → TransfersTensor chunk calls memory) := by
  constructor
  · rintro whole ⟨⟨metadata, packed⟩, created, renamed, metadataSaved⟩
    refine (holdsChunk_writeTensor_iff (length_packMetadata packed)).mp fun file written => ?_
    apply whole
    exact asyncSaveBytesToDisk_eq_some.mpr ⟨packed, created, written, renamed, metadataSaved⟩
  · intro transfers metadata file published
    obtain ⟨packed, created, written, renamed, metadataSaved⟩ :=
      asyncSaveBytesToDisk_eq_some.mp published
    exact (holdsChunk_writeTensor_iff (length_packMetadata packed)).mpr
      (transfers ⟨⟨metadata, packed⟩, created, renamed, metadataSaved⟩) file written

/-- With a base pointer, and for an object at the beginning of the allocator, the copy
into the mapping is of the tensor. -/
theorem copiesTensor_of_placed (object : LegacyObject io)
    (placed : io.cufileBasePointer ≠ none ∨ object.address = 0) :
    CopiesTensor io object memory := by
  have source : io.addr object + object.address = object.dataPtr := by
    unfold GdsTransfer.addr
    cases pointer : io.cufileBasePointer with
    | none =>
        have atStart := placed.resolve_left fun absent => absent pointer
        rw [atStart]
        exact Int.add_zero _
    | some base => exact (object.placed base pointer).symm
  intro position _
  rw [source]

end Stores

end LMCacheHcu.Gds
