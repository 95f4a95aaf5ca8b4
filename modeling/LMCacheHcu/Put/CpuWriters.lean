import LMCacheHcu.Foundation.PublishedFiles
import LMCacheHcu.Restart.Sidecars
import LMCacheHcu.Storage.BlockFirstFile
import LMCacheHcu.Storage.LayoutBijection
import Mathlib.Data.List.GetD

/-! # The CPU writers

`_save_cpu_xds` and `_save_cpu_block_first_xds` publish the bytes of a CPU memory
object without a copy on the device, padded with zeros to the alignment. The first
writes the object as it is; the second writes a header, and then block by block a slice
for each layer and half.
-/

namespace LMCacheHcu.Put

open Storage Restart Exceptions Text ByteFiles ByteCopy

/-! ### The two writers -/

/-- What a writer raises. The calls of the system may raise anything. -/
inductive SaveError
  | xds (error : XdsError)
  | builtin (error : Builtin)
deriving DecidableEq

def valueError (message : String) : SaveError := .xds (XdsBackend.valueError message)

def osError (message : String) : SaveError := .xds (.osError message)

def formatError (error : BlockFirstFormatError) : SaveError := .xds (.blockFirstFormatError error)

/-- What the writers read of a CPU `MemoryObj`. The tensor is a view of the memory. -/
structure CpuMemoryObj where
  tensor : Option Tensor
  getSize : ℕ
  byteArray : List Byte
  memory : Memory

/-- The path of a data file of either layout. -/
structure DataPath where
  path : Text
  suffixed : dataFileSuffix <:+ path

section Writers

variable (path : DataPath) (object : CpuMemoryObj)

/-- The payload, and the padding if there is any. -/
def cpuPieces (physicalSize : ℤ) : List (Except SaveError (Piece SaveError)) :=
  let rawSize := object.getSize
  let padding := (physicalSize - rawSize).toNat
  .ok ⟨object.byteArray.take rawSize, fun written =>
      osError s!"CPU XDS write made no progress at {written}/{rawSize}"⟩ ::
    if padding ≠ 0 then
      [.ok ⟨List.replicate padding 0, fun padded =>
        osError s!"CPU XDS padding write made no progress at {padded}/{padding}"⟩]
    else []

def cpuPublication (physicalSize : ℤ) : Publication SaveError Text where
  tmp := dataTmpPath path.path
  path := path.path
  pieces := cpuPieces object physicalSize
  size := physicalSize
  wrongSize := fun actual => osError s!"CPU XDS file size {actual} != {physicalSize} bytes"

/-- `_save_cpu_xds` up to the `try`: what it returns in the end, and what it publishes. -/
def prepareCpuXds : Except SaveError (List Byte × Publication SaveError Text) :=
  match object.tensor with
  | none => .error (valueError "xds_cpu_store requires a CPU MemoryObj")
  | some tensor => do
      if tensor.device.type ≠ .cpu then
        throw (valueError "xds_cpu_store requires a CPU MemoryObj")
      let physicalSize ← (alignUp object.getSize blockFirstAlignment).mapError formatError
      if object.byteArray.length ≠ object.getSize then
        throw (.xds (.runtimeError (s!"CPU MemoryObj byte size {object.byteArray.length} != " ++
          s!"logical size {object.getSize}")))
      let metadata ← (packMetadata tensor.shape tensor.dtype physicalSize).mapError .builtin
      return (metadata, cpuPublication path object physicalSize)

/-- The data of one call of `write_all`. -/
def labelled (label : String) (data : List Byte) : Piece SaveError :=
  ⟨data, fun written =>
    osError (s!"CPU block-first {label} made no progress at {written}/{data.length}")⟩

/-- The bytes of a range of the memory. -/
def bytesAt (memory : Memory) (address : ℤ) (size : ℕ) : List Byte :=
  (List.range size).map fun low : ℕ => memory (address + low)

/-- `tensor[kv_index, layer, token_start:token_end]`, as bytes. -/
def slicePiece (tensor : Tensor) (memory : Memory) (diskMetadata : BlockFirstDiskMetadata)
    (block layer kvIndex : ℕ) : Except SaveError (Piece SaveError) :=
  let tokenStart := block * diskMetadata.blockSize.toNat
  let tokenEnd := tokenStart + diskMetadata.blockSize.toNat
  let tokens := min tokenEnd (tensor.dim 2) - min tokenStart (tensor.dim 2)
  let nbytes := tokens * tensor.dim 3 * tensor.elementSize
  if (nbytes : ℤ) ≠ diskMetadata.blockSize * diskMetadata.hiddenDim * tensor.elementSize then
    .error (formatError ⟨"CPU block-first source slice has unexpected size"⟩)
  else
    .ok (labelled "payload write"
      (bytesAt memory (tensor.toView.address [kvIndex, layer, tokenStart, 0]) nbytes))

/-- The three nested loops. -/
def slicePieces (tensor : Tensor) (memory : Memory) (diskMetadata : BlockFirstDiskMetadata) :
    List (Except SaveError (Piece SaveError)) :=
  (List.range (diskMetadata.payloadShape.getD 0 0).toNat).flatMap fun block =>
    (List.range diskMetadata.numLayers.toNat).flatMap fun layer =>
      (List.range 2).map fun kvIndex => slicePiece tensor memory diskMetadata block layer kvIndex

/-- The header, the slices, and the padding if there is any. -/
def blockFirstPieces (tensor : Tensor) (memory : Memory) (diskMetadata : BlockFirstDiskMetadata)
    (header : List Byte) : List (Except SaveError (Piece SaveError)) :=
  let padding := (diskMetadata.ioNbytes - diskMetadata.payloadNbytes).toNat
  .ok (labelled "header write" header) :: (slicePieces tensor memory diskMetadata ++
    if padding ≠ 0 then [.ok (labelled "padding write" (List.replicate padding 0))] else [])

def blockFirstPublication (tensor : Tensor) (memory : Memory)
    (diskMetadata : BlockFirstDiskMetadata) (header : List Byte) : Publication SaveError Text where
  tmp := blockFirstTmpPath path.path
  path := path.path
  pieces := blockFirstPieces tensor memory diskMetadata header
  size := blockFirstHeaderSize + diskMetadata.ioNbytes
  wrongSize := fun actual => osError (s!"CPU block-first file size {actual} != " ++
    s!"{blockFirstHeaderSize + diskMetadata.ioNbytes}")

/-- `_save_cpu_block_first_xds` up to the `try`. -/
def prepareCpuBlockFirst (backend : XdsBackend) :
    Except SaveError (BlockFirstDiskMetadata × Publication SaveError Text) :=
  match object.tensor with
  | none => .error (valueError "CPU block-first store requires a CPU MemoryObj")
  | some tensor => do
      if tensor.device.type ≠ .cpu then
        throw (valueError "CPU block-first store requires a CPU MemoryObj")
      if tensor.isContiguous = false then
        throw (formatError ⟨"CPU block-first source must be contiguous"⟩)
      let diskMetadata ← (backend.makeBlockFirstMetadata tensor.shape tensor.dtype).mapError .xds
      let header ← (backend.codec.pack diskMetadata).mapError formatError
      return (diskMetadata, blockFirstPublication path tensor object.memory diskMetadata header)

variable {Metadata : Type} (calls : PublishCalls SaveError) (files : Files Text)

/-- The result of a publication, and the files. -/
def resultOf (metadata : Metadata) (outcome : Option SaveError × Files Text) :
    Except SaveError Metadata × Files Text :=
  (outcome.1.elim (.ok metadata) .error, outcome.2)

/-- The `try` of a writer: its result and the files. -/
def save (prepared : Except SaveError (Metadata × Publication SaveError Text)) (passes : ℕ) :
    Option (Except SaveError Metadata × Files Text) :=
  match prepared with
  | .error error => some (.error error, files)
  | .ok (metadata, publication) =>
      (publication.publish calls files passes).map (resultOf metadata)

/-- `_save_cpu_xds`. -/
def saveCpuXds (passes : ℕ) : Option (Except SaveError (List Byte) × Files Text) :=
  save calls files (prepareCpuXds path object) passes

/-- `_save_cpu_block_first_xds`. -/
def saveCpuBlockFirstXds (backend : XdsBackend) (passes : ℕ) :
    Option (Except SaveError BlockFirstDiskMetadata × Files Text) :=
  save calls files (prepareCpuBlockFirst path object backend) passes

end Writers

/-! ### What is to hold, and when -/

section Guarantee

variable {Metadata : Type} (path tmp : Text) (before : Files Text)

/-- **The property.** A success has published the content that belongs to it; a failure
leaves the file at the path as it was and no temporary file. -/
structure Saved (content : Metadata → List Byte → Prop)
    (outcome : Except SaveError Metadata × Files Text) : Prop where
  published : ∀ metadata, outcome.1 = .ok metadata →
    ∃ bytes, outcome.2 path = some bytes ∧ content metadata bytes
  unchanged : ∀ error, outcome.1 = .error error → outcome.2 path = before path
  cleaned : ∀ error, outcome.1 = .error error → outcome.2 tmp = none

/-- **The condition.** A writer that refuses its object finds no temporary file. One that
does not can close in its handler the file that it leaves open, and remove the one
that it leaves. -/
def CleansUp (calls : PublishCalls SaveError)
    (prepared : Except SaveError (Metadata × Publication SaveError Text)) : Prop :=
  match prepared with
  | .error _ => before tmp = none
  | .ok (_, publication) => publication.CleansUp calls before

/-- The payload and the padding, of the size that the sidecar has. -/
def CpuContent (object : CpuMemoryObj) (metadata bytes : List Byte) : Prop :=
  ∃ tensor physicalSize, object.tensor = some tensor ∧
    alignUp object.byteArray.length blockFirstAlignment = .ok physicalSize ∧
    packMetadata tensor.shape tensor.dtype physicalSize = .ok metadata ∧
    bytes = object.byteArray ++
      List.replicate (physicalSize - object.byteArray.length).toNat 0

/-- The slices of the tensor in block-first order. -/
def cpuPayload (tensor : Tensor) (memory : Memory) (diskMetadata : BlockFirstDiskMetadata) :
    List Byte :=
  (XdsBackend.cpuSlices tensor diskMetadata).flatMap fun address =>
    bytesAt memory address
      (diskMetadata.blockSize * diskMetadata.hiddenDim * tensor.elementSize).toNat

/-- The header, the payload and the padding. -/
def BlockFirstContent (backend : XdsBackend) (object : CpuMemoryObj)
    (diskMetadata : BlockFirstDiskMetadata) (bytes : List Byte) : Prop :=
  ∃ tensor header, object.tensor = some tensor ∧
    backend.makeBlockFirstMetadata tensor.shape tensor.dtype = .ok diskMetadata ∧
    backend.codec.pack diskMetadata = .ok header ∧
    bytes = header ++ cpuPayload tensor object.memory diskMetadata ++
      List.replicate (diskMetadata.ioNbytes - diskMetadata.payloadNbytes).toNat 0

end Guarantee

/-! ### The two publications -/

/-- What a writer publishes, once it has accepted its object. -/
structure Valid {Metadata : Type} (path tmp : Text) (content : Metadata → List Byte → Prop)
    (metadata : Metadata) (publication : Publication SaveError Text) : Prop where
  tmp_eq : publication.tmp = tmp
  path_eq : publication.path = path
  content : content metadata publication.content
  sized : (publication.content.length : ℤ) = publication.size

/-- The temporary name of a data file of the legacy layout differs from its name. -/
theorem DataPath.dataTmpPath_ne (path : DataPath) : dataTmpPath path.path ≠ path.path := by
  obtain ⟨text, front, rfl⟩ := path
  have head : '.' ∉ dataFileSuffix.tail := by decide
  have moved : dataTmpPath (front ++ dataFileSuffix) =
      replace dataFileSuffix dataFileSuffixTmp front ++ dataFileSuffixTmp :=
    replace_append_word head front
  rw [moved]
  exact append_ne_of_endings (by decide) (by decide)

theorem DataPath.blockFirstTmpPath_ne (path : DataPath) :
    blockFirstTmpPath path.path ≠ path.path := by
  intro same
  have longer := congrArg List.length same
  rw [blockFirstTmpPath, List.length_append] at longer
  have positive : 0 < blockFirstDataFileSuffixTmp.length := by decide
  omega

/-- The path of each key is one of a data file. -/
theorem suffixed_keyToPath {Key : Type} (codec : KeyCodec Key) (xdsPath : Text) (key : Key)
    (blockFirst : Bool) : dataFileSuffix <:+ (codec.keyToPath xdsPath key blockFirst).path := by
  have ending : dataFileSuffix <:+ codec.fileName key blockFirst := by
    cases blockFirst with
    | false => exact List.suffix_append ..
    | true =>
        have longer : dataFileSuffix <:+ blockFirstDataFileSuffix := by decide
        exact longer.trans (List.suffix_append ..)
  rw [keyToPath_path]
  exact ending.trans (List.suffix_append ..)

theorem flatMap_padding (padding : ℕ) (piece : Piece SaveError)
    (zeros : piece.data = List.replicate padding 0) :
    (if padding ≠ 0 then [.ok piece] else []).flatMap dataOf = List.replicate padding 0 := by
  by_cases none : padding = 0
  · rw [if_neg (not_not.mpr none), none]
    rfl
  · rw [if_pos none, List.flatMap_singleton, ← zeros]
    rfl

theorem valid_of_prepareCpuXds {path : DataPath} {object : CpuMemoryObj} {metadata : List Byte}
    {publication : Publication SaveError Text}
    (prepared : prepareCpuXds path object = .ok (metadata, publication)) :
    Valid path.path (dataTmpPath path.path) (CpuContent object) metadata publication := by
  unfold prepareCpuXds at prepared
  cases there : object.tensor with
  | none =>
      rw [there] at prepared
      cases prepared
  | some tensor =>
      rw [there] at prepared
      simp only [Checked.bind_ok, Checked.throw_bind, Checked.check_ok, Checked.return_ok,
        Checked.mapError_ok, Prod.mk.injEq, not_not] at prepared
      obtain ⟨_, physicalSize, aligned, sized, metadata', packed, rfl, rfl⟩ := prepared
      obtain ⟨_, le, _⟩ := alignUp_ok aligned
      have content : (cpuPublication path object physicalSize).content =
          object.byteArray ++
            List.replicate (physicalSize - object.byteArray.length).toNat 0 := by
        dsimp only [Publication.content, cpuPublication, cpuPieces]
        rw [List.flatMap_cons, ← sized, flatMap_padding _ _ rfl]
        dsimp only [dataOf]
        rw [List.take_length]
      rw [← sized] at aligned le
      refine ⟨rfl, rfl, ⟨tensor, physicalSize, there, aligned, packed, content⟩, ?_⟩
      rw [content, List.length_append, List.length_replicate]
      change _ = physicalSize
      push_cast
      omega

section BlockFirst

variable {shape : ChunkShape} {tensor : Tensor} {diskMetadata : BlockFirstDiskMetadata}
  {blockSize : ℕ}

/-- The tensor of a block-first file is a complete chunk. -/
theorem exists_chunkShape
    (created : CreatedFor diskMetadata tensor.shape tensor.dtype blockSize) :
    ∃ shape : ChunkShape, tensor.shape = shape.logicalDims ∧ shape.blockSize = blockSize ∧
      shape.itemsize = tensor.elementSize := by
  obtain ⟨numLayers, numTokens, hiddenDim, given, layers, tokens, hidden, positive, whole, _⟩ :=
    blockFirstShape_ok.mp created.payloadShape
  refine ⟨⟨numLayers.toNat, numTokens.toNat / blockSize, blockSize, hiddenDim.toNat,
    tensor.elementSize⟩, shape_eq_of_intShape ?_, rfl, rfl⟩
  lift numLayers to ℕ using layers.le
  lift numTokens to ℕ using tokens.le
  lift hiddenDim to ℕ using hidden.le
  have blocks : numTokens / blockSize * blockSize = numTokens :=
    Nat.div_mul_cancel (Int.natCast_dvd_natCast.mp (Int.dvd_of_emod_eq_zero whole))
  rw [Tensor.intShape, given]
  simp only [ChunkShape.logicalDims, ChunkShape.numTokens, Int.toNat_natCast, blocks]
  rfl

theorem sliceNbytes_eq (dims : tensor.shape = shape.logicalDims)
    (itemsize : shape.itemsize = tensor.elementSize)
    (created : CreatedFor diskMetadata tensor.shape tensor.dtype shape.blockSize) :
    diskMetadata.blockSize * diskMetadata.hiddenDim * tensor.elementSize =
      (shape.layerBlockNbytes : ℤ) := by
  rw [created.blockSize_eq, created.hiddenDim, dims, ← itemsize]
  simp only [ChunkShape.logicalDims, ChunkShape.layerBlockNbytes, ChunkShape.rowNbytes]
  push_cast
  exact mul_assoc _ _ _

/-- A slice of a complete chunk has the size that is expected. -/
theorem slicePiece_ok (dims : tensor.shape = shape.logicalDims)
    (itemsize : shape.itemsize = tensor.elementSize)
    (created : CreatedFor diskMetadata tensor.shape tensor.dtype shape.blockSize)
    (memory : Memory) {block : ℕ} (blockIn : block < shape.chunkBlocks) (layer kvIndex : ℕ) :
    slicePiece tensor memory diskMetadata block layer kvIndex =
      .ok (labelled "payload write" (bytesAt memory
        (tensor.toView.address [kvIndex, layer, block * diskMetadata.blockSize.toNat, 0])
        shape.layerBlockNbytes)) := by
  have size : diskMetadata.blockSize.toNat = shape.blockSize := by
    rw [created.blockSize_eq, Int.toNat_natCast]
  have stop : block * shape.blockSize + shape.blockSize ≤ shape.numTokens := by
    rw [← Nat.succ_mul]
    exact Nat.mul_le_mul_right _ blockIn
  have tokens : min (block * shape.blockSize + shape.blockSize) (tensor.dim 2) -
      min (block * shape.blockSize) (tensor.dim 2) = shape.blockSize := by
    rw [Tensor.dim, dims]
    change min _ shape.numTokens - min _ shape.numTokens = _
    omega
  have nbytes : shape.blockSize * tensor.dim 3 * tensor.elementSize = shape.layerBlockNbytes := by
    rw [Tensor.dim, dims, ← itemsize]
    exact mul_assoc _ _ _
  unfold slicePiece
  dsimp only
  rw [size, tokens, nbytes, sliceNbytes_eq dims itemsize created, if_neg (not_not.mpr rfl)]

theorem flatMap_slicePieces (dims : tensor.shape = shape.logicalDims)
    (itemsize : shape.itemsize = tensor.elementSize)
    (created : CreatedFor diskMetadata tensor.shape tensor.dtype shape.blockSize)
    (memory : Memory) : (slicePieces tensor memory diskMetadata).flatMap dataOf =
      cpuPayload tensor memory diskMetadata := by
  have payloadShape := payloadDims_of_blockFirstShape (dims ▸ created.payloadShape)
  have blocks : (diskMetadata.payloadShape.getD 0 0).toNat = shape.chunkBlocks := by
    rw [payloadShape]
    rfl
  rw [slicePieces, cpuPayload, XdsBackend.cpuSlices, blocks,
    sliceNbytes_eq dims itemsize created, Int.toNat_natCast]
  simp only [List.flatMap_assoc, List.flatMap_map]
  refine List.flatMap_congr fun block blockIn => ?_
  refine List.flatMap_congr fun layer _ => List.flatMap_congr fun kvIndex _ => ?_
  rw [slicePiece_ok dims itemsize created memory (List.mem_range.mp blockIn)]
  rfl

theorem length_cpuPayload (dims : tensor.shape = shape.logicalDims)
    (itemsize : shape.itemsize = tensor.elementSize)
    (created : CreatedFor diskMetadata tensor.shape tensor.dtype shape.blockSize)
    (memory : Memory) :
    (cpuPayload tensor memory diskMetadata).length = shape.payloadNbytes := by
  have payloadShape := payloadDims_of_blockFirstShape (dims ▸ created.payloadShape)
  have layers : diskMetadata.numLayers = shape.numLayers := by
    rw [created.numLayers, dims]
    rfl
  rw [cpuPayload, sliceNbytes_eq dims itemsize created, Int.toNat_natCast, List.length_flatMap]
  simp only [bytesAt, List.length_map, List.length_range, List.map_const', List.sum_replicate]
  rw [CpuStore.length_cpuSlices tensor payloadShape layers, ChunkShape.payloadNbytes,
    ChunkShape.blockNbytes, smul_eq_mul, mul_assoc]

theorem valid_of_prepareCpuBlockFirst {path : DataPath} {object : CpuMemoryObj}
    {backend : XdsBackend} {publication : Publication SaveError Text}
    (prepared : prepareCpuBlockFirst path object backend = .ok (diskMetadata, publication)) :
    Valid path.path (blockFirstTmpPath path.path) (BlockFirstContent backend object) diskMetadata
      publication := by
  unfold prepareCpuBlockFirst at prepared
  cases there : object.tensor with
  | none =>
      rw [there] at prepared
      cases prepared
  | some tensor =>
      rw [there] at prepared
      simp only [Checked.bind_ok, Checked.throw_bind, Checked.check_ok, Checked.return_ok,
        Checked.mapError_ok, Prod.mk.injEq, not_not] at prepared
      obtain ⟨_, _, diskMetadata, made, header, packed, rfl, rfl⟩ := prepared
      have created := createdFor_of_create (Checked.mapError_ok.mp made)
      obtain ⟨shape, dims, size, itemsize⟩ := exists_chunkShape created
      rw [← size] at created
      have content : (blockFirstPublication path tensor object.memory diskMetadata header).content =
          header ++ cpuPayload tensor object.memory diskMetadata ++
            List.replicate (diskMetadata.ioNbytes - diskMetadata.payloadNbytes).toNat 0 := by
        dsimp only [Publication.content, blockFirstPublication, blockFirstPieces]
        rw [List.flatMap_cons, List.flatMap_append, flatMap_padding _ _ rfl,
          flatMap_slicePieces dims itemsize created, List.append_assoc]
        rfl
      refine ⟨rfl, rfl, ⟨tensor, header, there, made, packed, content⟩, ?_⟩
      have created' := created
      rw [dims] at created'
      obtain ⟨_, payloadNbytes, ioNbytes⟩ := extents_of_createdFor created' itemsize.symm
      have headerNbytes := backend.codec.length_pack diskMetadata header packed
      rw [content, List.length_append, List.length_append, List.length_replicate,
        length_cpuPayload dims itemsize created]
      change _ = blockFirstHeaderSize + diskMetadata.ioNbytes
      push_cast
      omega

/-! The published bytes are those of the image that the layout is proved of. -/

/-- The file has the bytes and no more. -/
def Holds (file : FileImage) (bytes : List Byte) : Prop :=
  file.size = bytes.length ∧ ∀ position : ℕ, position < bytes.length →
    file.content position = bytes.getD position 0

theorem length_bytesAt (memory : Memory) (address : ℤ) (size : ℕ) :
    (bytesAt memory address size).length = size := by
  rw [bytesAt, List.length_map, List.length_range]

theorem holds_append {file : FileImage} {bytes : List Byte} (holds : Holds file bytes)
    (memory : Memory) (address : ℤ) (size : ℕ) :
    Holds (file.append memory address size) (bytes ++ bytesAt memory address size) := by
  obtain ⟨fileSize, content⟩ := holds
  have length : (bytes ++ bytesAt memory address size).length = bytes.length + size := by
    rw [List.length_append, length_bytesAt]
  refine ⟨?_, fun position inside => ?_⟩
  · rw [length]
    change max file.size (file.size + size) = _
    push_cast
    omega
  · rw [length] at inside
    change (if Copy.Covers ⟨address, file.size, size⟩ position then _ else _) = _
    by_cases old : position < bytes.length
    · rw [if_neg, content position old, List.getD_append _ _ _ _ old]
      simp only [Copy.Covers]
      omega
    · rw [if_pos, List.getD_append_right _ _ _ _ (not_lt.mp old)]
      · rw [List.getD_eq_getElem _ _ (by rw [length_bytesAt]; omega)]
        simp only [bytesAt, List.getElem_map, List.getElem_range, Copy.origin]
        refine congrArg memory ?_
        rw [fileSize]
        push_cast [not_lt.mp old]
        ring
      · simp only [Copy.Covers]
        omega

theorem holds_foldl_append (memory : Memory) (size : ℕ) (addresses : List ℤ) {file : FileImage}
    {bytes : List Byte} (holds : Holds file bytes) :
    Holds (addresses.foldl (fun file address => file.append memory address size) file)
      (bytes ++ addresses.flatMap fun address => bytesAt memory address size) := by
  induction addresses generalizing file bytes with
  | nil => simpa using holds
  | cons address addresses ih =>
      rw [List.foldl_cons, List.flatMap_cons, ← List.append_assoc]
      exact ih (holds_append holds memory address size)

theorem holds_empty : Holds .empty [] := ⟨rfl, nofun⟩

theorem bytesAt_getD (bytes : List Byte) :
    bytesAt (fun position => bytes.getD position.toNat 0) 0 bytes.length = bytes := by
  refine List.ext_getElem (length_bytesAt ..) fun position inside inside' => ?_
  simp only [bytesAt, List.getElem_map, List.getElem_range, zero_add, Int.toNat_natCast]
  exact List.getD_eq_getElem _ _ inside'

theorem bytesAt_zero (size : ℕ) : bytesAt (fun _ => 0) 0 size = List.replicate size 0 := by
  rw [bytesAt, List.map_const', List.length_range]

/-- **Refinement.** What the writer publishes has the bytes of the image. -/
theorem image_of_prepared {path : DataPath} {object : CpuMemoryObj} {backend : XdsBackend}
    {publication : Publication SaveError Text}
    (prepared : prepareCpuBlockFirst path object backend = .ok (diskMetadata, publication)) :
    ∃ tensor file, object.tensor = some tensor ∧
      backend.saveCpuBlockFirstXds tensor object.memory = .ok (diskMetadata, file) ∧
      Holds file publication.content := by
  obtain ⟨_, _, content, sized⟩ := valid_of_prepareCpuBlockFirst prepared
  unfold prepareCpuBlockFirst at prepared
  cases there : object.tensor with
  | none =>
      rw [there] at prepared
      cases prepared
  | some tensor =>
      rw [there] at prepared
      simp only [Checked.bind_ok, Checked.throw_bind, Checked.check_ok, Checked.return_ok,
        Checked.mapError_ok, Prod.mk.injEq, not_not] at prepared
      obtain ⟨device, contiguous, diskMetadata, made, header, packed, rfl, rfl⟩ := prepared
      obtain ⟨_, header', there', _, packed', bytes⟩ := content
      rw [there, Option.some.injEq] at there'
      rw [packed, Except.ok.injEq] at packed'
      subst there' packed'
      have created := createdFor_of_create (Checked.mapError_ok.mp made)
      obtain ⟨shape, dims, size, itemsize⟩ := exists_chunkShape created
      rw [← size] at created
      have slice := sliceNbytes_eq dims itemsize created
      have padding := (alignUp_ok created.ioNbytes).2.1
      have start := holds_append holds_empty (fun position => header.getD position.toNat 0) 0
        header.length
      rw [bytesAt_getD, List.nil_append] at start
      have payload := holds_foldl_append object.memory shape.layerBlockNbytes
        (XdsBackend.cpuSlices tensor diskMetadata) start
      have padded := holds_append payload (fun _ => 0) 0
        (diskMetadata.ioNbytes - diskMetadata.payloadNbytes).toNat
      rw [bytesAt_zero, Int.toNat_of_nonneg (by omega)] at padded
      rw [cpuPayload, slice, Int.toNat_natCast] at bytes
      rw [← bytes] at padded
      refine ⟨tensor, _, rfl, ?_, padded⟩
      have whole := padded.1.trans sized
      simp only [XdsBackend.saveCpuBlockFirstXds, Checked.bind_ok, Checked.throw_bind,
        Checked.check_ok, Checked.return_ok, Prod.mk.injEq, not_not]
      refine ⟨device, contiguous, diskMetadata, made,
        FileImage.empty.append (fun position => header.getD position.toNat 0) 0 header.length,
        ?_, ?_⟩
      · rw [XdsBackend.headerFile, packed]
        rfl
      · rw [slice]
        exact ⟨whole, rfl, rfl⟩

end BlockFirst

/-! ### The writers -/

section Outcome

variable {Metadata : Type} {path tmp : Text} {content : Metadata → List Byte → Prop}
  {metadata : Metadata} {publication : Publication SaveError Text} {before : Files Text}

/-- The property of a writer is that of its publication. -/
theorem saved_resultOf_iff (valid : Valid path tmp content metadata publication)
    (functional : ∀ metadata bytes bytes', content metadata bytes → content metadata bytes' →
      bytes = bytes') (outcome : Option SaveError × Files Text) :
    Saved path tmp before content (resultOf metadata outcome) ↔
      publication.Atomic before outcome := by
  obtain ⟨rfl, rfl, belongs, _⟩ := valid
  obtain ⟨raised, after⟩ := outcome
  cases raised with
  | none =>
      constructor
      · rintro ⟨published, _, _⟩
        obtain ⟨bytes, there, belongs'⟩ := published metadata rfl
        refine ⟨fun _ => ?_, fun raised => absurd rfl raised, fun raised => absurd rfl raised⟩
        rw [functional metadata _ _ belongs belongs']
        exact there
      · rintro ⟨published, _, _⟩
        refine ⟨fun metadata' same => ?_, nofun, nofun⟩
        cases same
        exact ⟨_, published rfl, belongs⟩
  | some failure =>
      constructor
      · rintro ⟨_, unchanged, cleaned⟩
        exact ⟨nofun, fun _ => unchanged failure rfl, fun _ => cleaned failure rfl⟩
      · rintro ⟨_, unchanged, cleaned⟩
        exact ⟨nofun, fun _ _ => unchanged nofun, fun _ _ => cleaned nofun⟩

/-- A writer with what it accepts. -/
theorem save_spec {prepared : Except SaveError (Metadata × Publication SaveError Text)}
    (valid : ∀ metadata publication, prepared = .ok (metadata, publication) →
      Valid path tmp content metadata publication)
    (functional : ∀ metadata bytes bytes', content metadata bytes → content metadata bytes' →
      bytes = bytes')
    (differ : tmp ≠ path) (calls : PublishCalls SaveError) (before : Files Text) :
    ∃ outcome bound, (∀ passes, bound ≤ passes →
        save calls before prepared passes = some outcome) ∧
      (Saved path tmp before content outcome ↔ CleansUp tmp before calls prepared) := by
  match prepared with
  | .error failure =>
      refine ⟨(.error failure, before), 0, fun _ _ => rfl, ?_⟩
      exact ⟨fun saved => saved.cleaned failure rfl,
        fun gone => ⟨nofun, fun _ _ => rfl, fun _ _ => gone⟩⟩
  | .ok (metadata, publication) =>
      have accepted := valid metadata publication rfl
      have apart : publication.tmp ≠ publication.path := by
        rw [accepted.tmp_eq, accepted.path_eq]
        exact differ
      obtain ⟨outcome, runs, atomic⟩ :=
        publication.publish_spec calls before apart fun _ => accepted.sized
      refine ⟨resultOf metadata outcome,
        (publication.pieces.map fun piece => (dataOf piece).length).sum + 1,
        fun passes enough => ?_, (saved_resultOf_iff accepted functional outcome).trans atomic⟩
      have large : ∀ piece ∈ publication.pieces, (dataOf piece).length < passes := by
        intro piece member
        have le := List.le_sum_of_mem (List.mem_map.mpr ⟨piece, member, rfl⟩ :
          (dataOf piece).length ∈ publication.pieces.map fun piece => (dataOf piece).length)
        omega
      rw [save, runs passes large]
      rfl

end Outcome

theorem CpuContent.functional {object : CpuMemoryObj} {metadata bytes bytes' : List Byte}
    (content : CpuContent object metadata bytes) (content' : CpuContent object metadata bytes') :
    bytes = bytes' := by
  obtain ⟨_, physicalSize, _, aligned, _, rfl⟩ := content
  obtain ⟨_, physicalSize', _, aligned', _, rfl⟩ := content'
  rw [aligned, Except.ok.injEq] at aligned'
  rw [aligned']

theorem BlockFirstContent.functional {backend : XdsBackend} {object : CpuMemoryObj}
    {diskMetadata : BlockFirstDiskMetadata} {bytes bytes' : List Byte}
    (content : BlockFirstContent backend object diskMetadata bytes)
    (content' : BlockFirstContent backend object diskMetadata bytes') : bytes = bytes' := by
  obtain ⟨tensor, header, there, _, packed, rfl⟩ := content
  obtain ⟨tensor', header', there', _, packed', rfl⟩ := content'
  rw [there, Option.some.injEq] at there'
  rw [packed, Except.ok.injEq] at packed'
  rw [there', packed']

section Specs

variable (calls : PublishCalls SaveError) (path : DataPath) (object : CpuMemoryObj)
  (backend : XdsBackend) (before : Files Text)

theorem saveCpuXds_spec : ∃ outcome bound, (∀ passes, bound ≤ passes →
      saveCpuXds path object calls before passes = some outcome) ∧
    (Saved path.path (dataTmpPath path.path) before (CpuContent object) outcome ↔
      CleansUp (dataTmpPath path.path) before calls (prepareCpuXds path object)) :=
  save_spec (fun _ _ => valid_of_prepareCpuXds) (fun _ _ _ => CpuContent.functional)
    path.dataTmpPath_ne calls before

theorem saveCpuBlockFirstXds_spec : ∃ outcome bound, (∀ passes, bound ≤ passes →
      saveCpuBlockFirstXds path object calls before backend passes = some outcome) ∧
    (Saved path.path (blockFirstTmpPath path.path) before (BlockFirstContent backend object)
        outcome ↔
      CleansUp (blockFirstTmpPath path.path) before calls
        (prepareCpuBlockFirst path object backend)) :=
  save_spec (fun _ _ => valid_of_prepareCpuBlockFirst) (fun _ _ _ => BlockFirstContent.functional)
    path.blockFirstTmpPath_ne calls before

/-- **Both writers end**, and have the property exactly under the condition. -/
theorem cpuWriters_saved_iff :
    (∃ outcome bound, (∀ passes, bound ≤ passes →
        saveCpuXds path object calls before passes = some outcome) ∧
      (Saved path.path (dataTmpPath path.path) before (CpuContent object) outcome ↔
        CleansUp (dataTmpPath path.path) before calls (prepareCpuXds path object))) ∧
    ∃ outcome bound, (∀ passes, bound ≤ passes →
        saveCpuBlockFirstXds path object calls before backend passes = some outcome) ∧
      (Saved path.path (blockFirstTmpPath path.path) before (BlockFirstContent backend object)
          outcome ↔
        CleansUp (blockFirstTmpPath path.path) before calls
          (prepareCpuBlockFirst path object backend)) :=
  ⟨saveCpuXds_spec calls path object before,
    saveCpuBlockFirstXds_spec calls path object backend before⟩

end Specs

/-- A system that writes all it is asked for, and closes no file. -/
def notClosing : PublishCalls SaveError where
  opening := none
  write := fun _ asked => .ok ⟨asked, le_rfl⟩
  stat := none
  closing := some (osError "EIO")
  closingAgain := some (osError "EBADF")
  replacing := none
  removing := none

def oneByte : CpuMemoryObj where
  tensor := some (emptyTensor [1] .uint8 ⟨.cpu, none⟩)
  getSize := 1
  byteArray := [7]
  memory := fun _ => 7

theorem suffixed_shortPath : dataFileSuffix <:+ "/a.kvdata".toList := by decide

def shortPath : DataPath := ⟨"/a.kvdata".toList, suffixed_shortPath⟩

/-- The handler closes the file once more, and does not come to remove it. -/
theorem not_saved_notClosing : ¬ ∃ outcome bound, (∀ passes, bound ≤ passes →
      saveCpuXds shortPath oneByte notClosing (fun _ => none) passes = some outcome) ∧
    Saved shortPath.path (dataTmpPath shortPath.path) (fun _ => none) (CpuContent oneByte)
      outcome := by
  rintro ⟨outcome, bound, runs, saved⟩
  obtain ⟨outcome', bound', runs', condition⟩ :=
    saveCpuXds_spec notClosing shortPath oneByte fun _ => none
  obtain rfl : outcome = outcome' := Option.some.inj <|
    (runs _ (le_max_left bound bound')).symm.trans (runs' _ (le_max_right bound bound'))
  have cleans := condition.mp saved
  cases prepared : prepareCpuXds shortPath oneByte with
  | error failure =>
      have accepted : (prepareCpuXds shortPath oneByte).isOk = true := by decide +kernel
      rw [prepared] at accepted
      cases accepted
  | ok pair =>
      rw [prepared] at cleans
      have closed := cleans.closesAgain rfl fun closes => nomatch closes.closing
      cases closed

end LMCacheHcu.Put
