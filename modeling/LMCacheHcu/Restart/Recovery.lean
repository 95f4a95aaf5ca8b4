import LMCacheHcu.Restart.SidecarContainment
import LMCacheHcu.Restart.WrittenChunks

/-! # What a restart recovers

A put leaves a file that describes itself: a block-first file with a header, or
the sidecar of a legacy file. The scan finds it under the directories that the
writer derived from the hash, decodes its name to the key, and checks the
description against the running backend.
-/

namespace LMCacheHcu.Restart

open Storage Exceptions Python Text

variable {Key F : Type}

/-- A completed put of a tensor in the legacy layout. The stored size is that of
the allocation, which fits the tensor, and the tensor has a 64-bit element
count. -/
structure LegacyPut (backend : ScanBackend Key F) where
  key : Key
  shape : List ℕ
  dtype : DType
  size : ℤ
  content : List Byte
  packed : packMetadata shape dtype size = .ok content
  fits : SizeFits backend.xdsBuffer size (shape.prod * dtype.itemsize)
  dims_lt : ∀ dim ∈ shape, dim < 2 ^ 63
  prod_lt : shape.prod < 2 ^ 63

/-- A completed put of a complete chunk in the block-first layout. -/
structure BlockFirstPut (backend : ScanBackend Key F) where
  key : Key
  logicalShape : List ℕ
  dtype : DType
  metadata : BlockFirstDiskMetadata
  header : List Byte
  payload : List Byte
  enabled : backend.blockFirstEnabled = true
  shapes : backend.engine.getShapes backend.engine.chunkSize = [logicalShape]
  dtypes : backend.engine.getDtypes = [dtype]
  complete : (logicalShape.map Int.ofNat).getD 2 0 = backend.engine.chunkSize
  created : BlockFirstDiskMetadata.create backend.header.signatureOf logicalShape dtype
    backend.engine.blockSize backend.engine.identity = .ok metadata
  packed : packBlockFirstHeader backend.header metadata.raw = .ok header
  written : (payload.length : ℤ) = metadata.ioNbytes

inductive Put (backend : ScanBackend Key F)
  | legacy (put : LegacyPut backend)
  | blockFirst (put : BlockFirstPut backend)

namespace Put

variable {backend : ScanBackend Key F}

def key : Put backend → Key
  | .legacy put => put.key
  | .blockFirst put => put.key

def isBlockFirst : Put backend → Bool
  | .legacy _ => false
  | .blockFirst _ => true

/-- The entry that the put published. -/
def entry : Put backend → FileEntry (RawMetadata F)
  | .legacy put => ⟨(backend.codec.keyToPath backend.xdsPath put.key false).path, put.size,
      put.shape.map Int.ofNat, put.dtype, none⟩
  | .blockFirst put => ⟨(backend.codec.keyToPath backend.xdsPath put.key true).path,
      blockFirstHeaderSize + put.metadata.ioNbytes, put.logicalShape.map Int.ofNat, put.dtype,
      some put.metadata.raw⟩

/-- The suffix of the file that describes the put. -/
def suffix : Put backend → Text
  | .legacy _ => dataFileSuffix ++ metadataFileSuffix
  | .blockFirst _ => blockFirstDataFileSuffix

def content : Put backend → List Byte
  | .legacy put => put.content
  | .blockFirst put => put.header ++ put.payload

/-- The file that describes the put, where the writer put it. -/
def file (put : Put backend) : Visit where
  l1Dir := backend.codec.l1Dir put.key
  l2Dir := backend.codec.l2Dir put.key
  name := PercentCoding.quote (backend.codec.toString put.key) ++ put.suffix
  content := put.content
  plain := by
    rw [List.mem_append, not_or]
    refine ⟨PercentCoding.slash_not_mem_quote _, ?_⟩
    cases put with
    | legacy _ => exact (by decide : slash ∉ dataFileSuffix ++ metadataFileSuffix)
    | blockFirst _ => exact (by decide : slash ∉ blockFirstDataFileSuffix)

/-- The key is one of this worker. -/
def Own (put : Put backend) : Prop := backend.codec.workerId put.key = backend.worldId

end Put

/-! ### Sidecars -/

section Sidecars

theorem dtypeToIdx_some {dtype : DType} {index : ℕ} (coded : dtypeToIdx dtype = some index) :
    torchDtypes[index]? = some dtype := by
  have found := List.find?_some coded
  exact of_decide_eq_true found

theorem dtypeToIdx_isSome {dtype : DType} : (dtypeToIdx dtype).isSome ↔ dtype ∈ torchDtypes := by
  cases dtype <;> decide

/-- The shapes, dtypes and sizes that are packed. -/
theorem packMetadata_iff {shape : List ℕ} {dtype : DType} {size : ℤ} :
    (∃ content, packMetadata shape dtype size = .ok content) ↔
      shape.length ≤ 5 ∧ dtype ∈ torchDtypes ∧ 0 ≤ size ∧ size < 2 ^ 64 ∧
        ∀ dim ∈ shape, dim < 2 ^ 64 := by
  have limit : metadataMaxSize < sidecarHeaderSize + 8 * shape.length ↔
      ¬ shape.length ≤ 5 := by
    unfold metadataMaxSize sidecarHeaderSize
    omega
  rw [← dtypeToIdx_isSome]
  unfold packMetadata
  by_cases dims : shape.length ≤ 5
  · rw [if_neg (fun long => limit.mp long dims)]
    cases dtypeToIdx dtype with
    | none => simp
    | some index =>
        dsimp only
        by_cases fits : 0 ≤ size ∧ size < 2 ^ 64 ∧ ∀ dim ∈ shape, dim < 2 ^ 64
        · rw [if_pos fits]
          exact iff_of_true ⟨_, rfl⟩ ⟨dims, rfl, fits⟩
        · rw [if_neg fits]
          exact iff_of_false nofun fun accepted => fits accepted.2.2
  · rw [if_pos (limit.mpr dims)]
    exact iff_of_false nofun fun accepted => dims accepted.1

/-- What a packed sidecar is. -/
theorem packMetadata_ok {shape : List ℕ} {dtype : DType} {size : ℤ} {content : List Byte}
    (packed : packMetadata shape dtype size = .ok content) :
    ∃ index, torchDtypes[index]? = some dtype ∧ sidecarHeaderSize + 8 * shape.length ≤ metadataMaxSize ∧
      0 ≤ size ∧ (∀ number ∈ [metadataVersion, index, size.toNat, shape.length] ++ shape,
        number < 256 ^ 8) ∧
      content = LittleEndian.words 8 ([metadataVersion, index, size.toNat, shape.length] ++ shape) := by
  unfold packMetadata at packed
  rw [Checked.check_ok, not_lt] at packed
  obtain ⟨small, packed⟩ := packed
  split at packed
  · cases packed
  · rename_i index coded
    split at packed
    · rename_i fits
      obtain ⟨nonneg, sized, dims⟩ := fits
      cases packed
      refine ⟨index, dtypeToIdx_some coded, small, nonneg, fun number member => ?_, rfl⟩
      have indexed : index < torchDtypes.length :=
        (List.getElem?_eq_some_iff.mp (dtypeToIdx_some coded)).1
      have codes : torchDtypes.length = 10 := rfl
      have version : metadataVersion = 1 := rfl
      have limit : metadataMaxSize = 72 := rfl
      rw [List.mem_append] at member
      simp only [List.mem_cons, List.not_mem_nil, or_false] at member
      rcases member with (rfl | rfl | rfl | rfl) | member
      · omega
      · omega
      · omega
      · omega
      · exact dims number member
    · cases packed

/-- The header and the dimensions of packed numbers, whatever follows them. -/
theorem sidecar_packed {index size : ℕ} {shape : List ℕ}
    (fit : ∀ number ∈ [metadataVersion, index, size, shape.length] ++ shape, number < 256 ^ 8)
    (rest : List Byte) :
    sidecarHeader (LittleEndian.words 8 ([metadataVersion, index, size, shape.length] ++ shape) ++
        rest) = ⟨metadataVersion, index, size, shape.length⟩ ∧
      sidecarShape (LittleEndian.words 8 ([metadataVersion, index, size, shape.length] ++ shape) ++
        rest) = shape := by
  have word (position number : ℕ)
      (here : ([metadataVersion, index, size, shape.length] ++ shape)[position]? = some number) :
      wordAt (LittleEndian.words 8
        ([metadataVersion, index, size, shape.length] ++ shape) ++ rest) position = number :=
    LittleEndian.value_take_drop_words_append fit rest here
  have header : sidecarHeader (LittleEndian.words 8
      ([metadataVersion, index, size, shape.length] ++ shape) ++ rest) =
      ⟨metadataVersion, index, size, shape.length⟩ := by
    rw [sidecarHeader, word 0 _ rfl, word 1 _ rfl, word 2 _ rfl, word 3 _ rfl]
  refine ⟨header, ?_⟩
  have front : (LittleEndian.words 8
      [metadataVersion, index, size, shape.length]).length = sidecarHeaderSize := by
    rw [LittleEndian.length_words]
    rfl
  rw [sidecarShape, header, LittleEndian.words_append, List.append_assoc, List.drop_left' front,
    LittleEndian.values_words fun number member => fit number (List.mem_append_right _ member)]

theorem length_packed (index size : ℕ) (shape : List ℕ) :
    (LittleEndian.words 8 ([metadataVersion, index, size, shape.length] ++ shape)).length =
      sidecarHeaderSize + 8 * shape.length := by
  rw [LittleEndian.length_words, List.length_append, Nat.add_mul, Nat.mul_comm shape.length]
  rfl

/-- A packed sidecar is unpacked to what it was made of, whatever follows it. -/
theorem unpackMetadata_of_packed {runtime : Runtime} {shape : List ℕ} {dtype : DType} {size : ℤ}
    {content : List Byte} (packed : packMetadata shape dtype size = .ok content)
    (rest : List Byte) :
    unpackMetadata runtime (content ++ rest) = .ok (shape, dtype, size.toNat) := by
  obtain ⟨index, coded, small, nonneg, fit, rfl⟩ := packMetadata_ok packed
  obtain ⟨header, dims⟩ := sidecar_packed fit rest
  have length := length_packed index size.toNat shape
  have ndim_le : shape.length ≤ metadataMaxSize := by omega
  rw [unpackMetadata_ok, KnownHeader, FullShape, header, dims, List.length_append, length]
  refine ⟨⟨?_, rfl, ?_⟩, coded, shapeFormat_ok.mpr ⟨?_, ?_⟩, ?_, rfl, rfl⟩
  · omega
  · exact (List.getElem?_eq_some_iff.mp coded).1
  · exact ndim_le.trans_lt (by decide)
  · exact runtime.allocates_small _ ndim_le
  · exact Nat.le_add_right _ _

/-- A packed sidecar is read back to what it was made of. -/
theorem sidecarEntry_of_packed {M : Type} {runtime : Runtime} {xdsBuffer : Bool} {filename : Text}
    {shape : List ℕ} {dtype : DType} {size : ℤ} {content : List Byte}
    (packed : packMetadata shape dtype size = .ok content)
    (fits : SizeFits xdsBuffer size (shape.prod * dtype.itemsize))
    (dims_lt : ∀ dim ∈ shape, dim < 2 ^ 63) (prod_lt : shape.prod < 2 ^ 63) :
    sidecarEntry (M := M) runtime xdsBuffer filename content =
      .ok ⟨removeSuffix metadataFileSuffix filename, size, shape.map Int.ofNat, dtype, none⟩ := by
  obtain ⟨index, coded, small, nonneg, fit, rfl⟩ := packMetadata_ok packed
  obtain ⟨header, dims⟩ := sidecar_packed fit []
  rw [List.append_nil] at header dims
  have length := length_packed index size.toNat shape
  have ndim_le : shape.length ≤ metadataMaxSize := by omega
  have whole := List.take_of_length_le (length.trans_le small)
  have stored : (size.toNat : ℤ) = size := Int.toNat_of_nonneg nonneg
  rw [sidecarEntry_ok, whole, header, dims]
  refine ⟨dtype, shape.prod, ⟨?_, ?_, ?_⟩, coded, shapeFormat_ok.mpr ⟨?_, ?_⟩, ?_,
    runtime.numel_small shape dims_lt prod_lt, ?_, ?_⟩
  · rw [length]
    exact Nat.le_add_right _ _
  · rw [header]
  · rw [header]
    exact (List.getElem?_eq_some_iff.mp coded).1
  · exact ndim_le.trans_lt (by decide)
  · exact runtime.allocates_small _ ndim_le
  · rw [FullShape, header, length]
  · rw [stored]
    exact fits
  · rw [stored]

end Sidecars

/-! ### Block-first files -/

section BlockFirstFiles

variable {backend : ScanBackend Key F}

/-- What the put wrote. -/
def BlockFirstPut.chunk (put : BlockFirstPut backend) :
    WrittenChunk backend.header backend.engine where
  logicalShape := put.logicalShape
  dtype := put.dtype
  metadata := put.metadata
  header := put.header
  payload := put.payload
  shapes := put.shapes
  dtypes := put.dtypes
  complete := put.complete
  created := put.created
  packed := put.packed
  written := put.written

variable (chunk : WrittenChunk backend.header backend.engine)

/-- Created metadata passes the checks against the engine that made it. -/
theorem validateRuntime_raw :
    backend.validateRuntime chunk.metadata.raw chunk.logicalShape chunk.dtype = .ok () := by
  have signed := chunk.signature_raw
    (backend.signature_computed chunk.logicalShape chunk.dtype chunk.shapes chunk.dtypes)
  unfold ScanBackend.validateRuntime
  rw [chunk.validate_raw, Checked.ok_bind, chunk.equalItems_raw, if_neg (by decide),
    chunk.torchDtype_raw, Checked.ok_bind, if_neg (not_not.mpr rfl), signed, if_neg (by decide)]
  rfl

/-- A written block-first file is read back to what it was made of. -/
theorem blockFirstEntry_chunk (filename : Text) :
    backend.blockFirstEntry filename chunk.content =
      .ok ⟨filename, blockFirstHeaderSize + chunk.metadata.ioNbytes,
        chunk.logicalShape.map Int.ofNat, chunk.dtype, some chunk.metadata.raw⟩ := by
  have dims : backend.torchSize (chunk.metadata.raw (F := F)).logicalShape =
      .ok (chunk.logicalShape.map Int.ofNat) := by
    rw [chunk.logicalShape_raw]
    exact backend.torchSize_ints _
  have stored : (Number.int (chunk.content.length : ℤ)).eq backend.header.floats
      (.int (blockFirstHeaderSize + chunk.metadata.ioNbytes)) = true :=
    decide_eq_true chunk.length_content
  unfold ScanBackend.blockFirstEntry ScanBackend.checkBlockFirst
  rw [chunk.unpack, Checked.ok_bind, chunk.validTokens_raw, if_neg (by decide), chunk.shapes,
    chunk.dtypes]
  dsimp only
  rw [validateRuntime_raw chunk]
  change (if (Number.int (chunk.content.length : ℤ)).eq backend.header.floats
      (.int (blockFirstHeaderSize + chunk.metadata.ioNbytes)) = false then _ else _) = _
  rw [stored, if_neg (by decide), dims, chunk.torchDtype_raw, chunk.length_content]
  rfl

/-- A written block-first file is read back to the entry of its put. -/
theorem blockFirstEntry_of_written (put : BlockFirstPut backend) (filename : Text) :
    backend.blockFirstEntry filename (put.header ++ put.payload) =
      .ok ⟨filename, blockFirstHeaderSize + put.metadata.ioNbytes,
        put.logicalShape.map Int.ofNat, put.dtype, some put.metadata.raw⟩ :=
  blockFirstEntry_chunk put.chunk filename

end BlockFirstFiles

/-! ### The file of a put under the scan -/

section PutFiles

variable {backend : ScanBackend Key F}

/-- The scan comes to the file of the put and takes its key. -/
def Put.Reached (put : Put backend) : Prop :=
  put.Own ∧ (backend.codec.l1Dir put.key).length = dirSize ∧
    (backend.codec.l2Dir put.key).length = dirSize

/-- A hash of four characters names two directories of the right lengths. -/
theorem Put.reached_of_long {put : Put backend} (own : put.Own)
    (long : 2 * dirSize ≤ (backend.codec.hashStr put.key).length) : put.Reached := by
  have two : dirSize = 2 := rfl
  refine ⟨own, ?_, ?_⟩
  · rw [KeyCodec.l1Dir, List.length_take]
    omega
  · rw [KeyCodec.l2Dir, List.length_take, List.length_drop]
    omega

theorem Put.classify_file (put : Put backend) :
    classify put.file.name = if put.isBlockFirst then .blockFirst else .sidecar := by
  have ends (text ending : Text) : endsWith (text ++ ending) ending = true :=
    List.isSuffixOf_iff_suffix.mpr (List.suffix_append _ _)
  cases put with
  | blockFirst put => exact if_pos (ends _ _)
  | legacy put =>
      have other : ¬ endsWith (PercentCoding.quote (backend.codec.toString put.key) ++
          (dataFileSuffix ++ metadataFileSuffix)) blockFirstDataFileSuffix = true := by
        intro found
        have inner : dataFileSuffix <:+ blockFirstDataFileSuffix := by decide
        have both := inner.trans (List.isSuffixOf_iff_suffix.mp found)
        exact absurd (List.suffix_of_suffix_length_le both (List.suffix_append _ _) (by decide))
          (by decide)
      exact (if_neg other).trans (if_pos (ends _ _))

/-- The name of the file decodes to the key. -/
theorem Put.keyOfName_file (put : Put backend) :
    backend.keyOfName put.suffix put.file.name = some put.key := by
  have name : put.file.name.take (put.file.name.length - put.suffix.length) =
      PercentCoding.quote (backend.codec.toString put.key) := by
    have sum : put.file.name.length - put.suffix.length =
        (PercentCoding.quote (backend.codec.toString put.key)).length := by
      rw [Put.file, List.length_append, Nat.add_sub_cancel]
    rw [sum]
    exact List.take_left
  rw [ScanBackend.keyOfName, name, backend.codec.unquote_quote, backend.codec.fromString_toString]

theorem Put.ownKey_of_own {put : Put backend} (own : put.Own) :
    backend.ownKey put.suffix put.file.name = some put.key := by
  rw [ScanBackend.ownKey, put.keyOfName_file]
  exact Option.filter_some_pos (decide_eq_true own)

theorem Put.ownKey_of_other {put : Put backend} (other : ¬ put.Own) :
    backend.ownKey put.suffix put.file.name = none := by
  rw [ScanBackend.ownKey, put.keyOfName_file]
  exact Option.filter_some_neg (decide_eq_false other)

/-- The path of the entry is that of the file, without the suffix of a sidecar. -/
theorem Put.visitPath_file (put : Put backend) :
    backend.visitPath put.file = put.entry.path ++
      if put.isBlockFirst then [] else metadataFileSuffix := by
  cases put with
  | blockFirst put => exact (List.append_nil _).symm
  | legacy put =>
      have named := (Put.legacy put).file.plain
      have joined : backend.visitPath (Put.legacy put).file =
          withSlash (backend.codec.directory backend.xdsPath put.key) ++
            (Put.legacy put).file.name := join_of_relative named
      rw [joined]
      change _ = (backend.codec.keyToPath backend.xdsPath put.key false).path ++ metadataFileSuffix
      rw [keyToPath_path, List.append_assoc]
      exact congrArg _ (List.append_assoc _ _ _).symm

/-- The sidecar of a put is read to the entry of the put. -/
theorem LegacyPut.sidecarEntry_file (put : LegacyPut backend) :
    sidecarEntry backend.sidecar backend.xdsBuffer (backend.visitPath (Put.legacy put).file)
      (Put.legacy put).file.content = .ok (Put.legacy put).entry := by
  have stripped : removeSuffix metadataFileSuffix (backend.visitPath (Put.legacy put).file) =
      (Put.legacy put).entry.path := by
    rw [(Put.legacy put).visitPath_file]
    exact removeSuffix_append _ _
  rw [show (Put.legacy put).file.content = put.content from rfl,
    sidecarEntry_of_packed put.packed put.fits put.dims_lt put.prod_lt, stripped]
  rfl

/-- The data file of a put is read to the entry of the put. -/
theorem BlockFirstPut.blockFirstEntry_file (put : BlockFirstPut backend) :
    backend.blockFirstEntry (backend.visitPath (Put.blockFirst put).file)
      (Put.blockFirst put).file.content = .ok (Put.blockFirst put).entry :=
  blockFirstEntry_of_written put _

/-- One file is of one key and layout. -/
theorem Put.file_inj {put other : Put backend} (same : put.file = other.file) :
    put.key = other.key ∧ put.isBlockFirst = other.isBlockFirst := by
  have classes : classify put.file.name = classify other.file.name := by rw [same]
  have suffixes (layout : put.isBlockFirst = other.isBlockFirst) : put.suffix = other.suffix := by
    cases put <;> cases other <;> first | rfl | cases layout
  have layout : put.isBlockFirst = other.isBlockFirst := by
    rw [put.classify_file, other.classify_file] at classes
    cases first : put.isBlockFirst <;> cases second : other.isBlockFirst <;> simp_all
  have keys := put.keyOfName_file
  rw [same, suffixes layout, other.keyOfName_file] at keys
  exact ⟨(Option.some.inj keys).symm, layout⟩

variable [DecidableEq Key]

/-- The index after the file of the put is read. -/
def Put.indexed (put : Put backend) (index : HotIndex Key (RawMetadata F)) :
    HotIndex Key (RawMetadata F) :=
  let subdirKey := backend.codec.l1Dir put.key ++ backend.codec.l2Dir put.key
  if put.isBlockFirst then index.put put.key subdirKey put.entry
  else (index.putLegacy put.key subdirKey put.entry).1

/-- The file of a put of this worker is read to the entry of the put. -/
theorem Put.scanFile_own {put : Put backend} (own : put.Own) (state : ScanState Key F) :
    backend.scanFile state put.file = { state with index := put.indexed state.index } := by
  cases put with
  | legacy put =>
      have key : backend.ownKey (dataFileSuffix ++ metadataFileSuffix)
          (Put.legacy put).file.name = some put.key := Put.ownKey_of_own own
      rw [ScanBackend.scanFile_sidecar (Put.legacy put).classify_file, key, Option.elim_some,
        readMetadata_of_ok put.sidecarEntry_file]
      rfl
  | blockFirst put =>
      have key : backend.ownKey blockFirstDataFileSuffix (Put.blockFirst put).file.name =
          some put.key := Put.ownKey_of_own own
      rw [ScanBackend.scanFile_blockFirst (Put.blockFirst put).classify_file put.enabled, key,
        Option.elim_some, ScanBackend.readBlockFirstMetadata, put.blockFirstEntry_file]
      rfl

/-- The file of a put of another worker is passed over. -/
theorem Put.scanFile_other {put : Put backend} (other : ¬ put.Own) (state : ScanState Key F) :
    backend.scanFile state put.file = state := by
  cases put with
  | legacy put =>
      have key : backend.ownKey (dataFileSuffix ++ metadataFileSuffix)
          (Put.legacy put).file.name = none := Put.ownKey_of_other other
      rw [ScanBackend.scanFile_sidecar (Put.legacy put).classify_file, key, Option.elim_none]
  | blockFirst put =>
      have key : backend.ownKey blockFirstDataFileSuffix (Put.blockFirst put).file.name = none :=
        Put.ownKey_of_other other
      rw [ScanBackend.scanFile_blockFirst (Put.blockFirst put).classify_file put.enabled, key,
        Option.elim_none]

/-- What a visit of the file of a put does. -/
theorem Put.scanVisit_file (put : Put backend) {state : ScanState Key F}
    (running : state.stopped = []) :
    put.Reached ∧ backend.scanVisit state put.file =
        { state with index := put.indexed state.index } ∨
      ¬ put.Reached ∧ backend.scanVisit state put.file = state := by
  have going : put.file.l1Dir ∉ state.stopped := by
    rw [running]
    exact List.not_mem_nil
  rw [ScanBackend.scanVisit, if_neg going]
  by_cases named : put.file.l1Dir.length = dirSize ∧ put.file.l2Dir.length = dirSize
  · rw [if_pos named]
    by_cases own : put.Own
    · exact .inl ⟨⟨own, named⟩, Put.scanFile_own own state⟩
    · exact .inr ⟨fun reached => own reached.1, Put.scanFile_other own state⟩
  · rw [if_neg named]
    exact .inr ⟨fun reached => named reached.2, rfl⟩

end PutFiles

/-! ### A run of the scan -/

section Run

variable [DecidableEq Key] {backend : ScanBackend Key F}

/-- The files below the root at a restart, in the order in which the scan comes to
them: the ones that the last put of each key and layout left, and others that
describe no put. -/
structure Restarted (backend : ScanBackend Key F) (puts : List (Put backend))
    (visits : List Visit) : Prop where
  latest : ∀ put ∈ puts, ∀ other ∈ puts, put.key = other.key →
    put.isBlockFirst = other.isBlockFirst → put = other
  present : ∀ put ∈ puts, put.file ∈ visits
  described : ∀ visit ∈ visits, (∃ put ∈ puts, put.file = visit) ∨
    classify visit.name ≠ .blockFirst ∧ classify visit.name ≠ .sidecar

/-- The invariant of the scan: what is indexed is of a put, a put that was come to
is indexed unless a put of its key in the block-first layout is, and no thread has
stopped. -/
structure Recovering (puts : List (Put backend)) (seen : List Visit) (state : ScanState Key F) :
    Prop where
  origin : ∀ key entry, state.index.find key = some entry →
    ∃ put ∈ puts, put.Reached ∧ put.key = key ∧ put.entry = entry
  indexed : ∀ put ∈ puts, put.Reached → put.file ∈ seen → ∃ other ∈ puts,
    other.key = put.key ∧ state.index.find put.key = some other.entry ∧
      (put.isBlockFirst = true → other.isBlockFirst = true)
  running : state.stopped = []

theorem Recovering.start (puts : List (Put backend)) :
    Recovering puts [] (ScanBackend.ScanState.start : ScanState Key F) where
  origin := fun _ _ found => nomatch found
  indexed := fun _ _ _ member => nomatch member
  running := rfl

omit [DecidableEq Key] in
theorem Put.isSome_diskMetadata (put : Put backend) :
    put.entry.diskMetadata.isSome = put.isBlockFirst := by
  cases put <;> rfl

variable {puts : List (Put backend)} {seen : List Visit} {state : ScanState Key F}

/-- The entry of a put takes the place of the one of its key. -/
theorem Recovering.put (recovering : Recovering puts seen state) {put : Put backend}
    (member : put ∈ puts) (reached : put.Reached) {subdirKey : Text}
    (yields : ∀ other ∈ puts, other.Reached → other.file ∈ seen → other.key = put.key →
      other.isBlockFirst = true → put.isBlockFirst = true) :
    Recovering puts (put.file :: seen)
      { state with index := state.index.put put.key subdirKey put.entry } where
  origin := by
    intro key entry found
    by_cases same : key = put.key
    · subst same
      rw [HotIndex.find_put] at found
      exact ⟨put, member, reached, rfl, Option.some.inj found⟩
    · rw [HotIndex.find_put_of_ne _ same] at found
      exact recovering.origin key entry found
  indexed := by
    intro other there otherReached come
    by_cases same : other.key = put.key
    · refine ⟨put, member, same.symm, ?_, fun layout => ?_⟩
      · rw [same, HotIndex.find_put]
      · rcases List.mem_cons.mp come with here | before
        · rw [← (Put.file_inj here).2]
          exact layout
        · exact yields other there otherReached before same layout
    · rcases List.mem_cons.mp come with here | before
      · exact absurd (Put.file_inj here).1 same
      · obtain ⟨third, present, key, found, layout⟩ :=
          recovering.indexed other there otherReached before
        refine ⟨third, present, key, ?_, layout⟩
        rw [HotIndex.find_put_of_ne _ same]
        exact found
  running := recovering.running

/-- A visit that leaves the index as it is. -/
theorem Recovering.keep (recovering : Recovering puts seen state) {visit : Visit}
    {next : ScanState Key F} (index : next.index = state.index) (stopped : next.stopped = [])
    (passed : ∀ put ∈ puts, put.Reached → put.file = visit → ∃ other ∈ puts,
      other.key = put.key ∧ state.index.find put.key = some other.entry ∧
        (put.isBlockFirst = true → other.isBlockFirst = true)) :
    Recovering puts (visit :: seen) next where
  origin := fun key entry found => recovering.origin key entry (index ▸ found)
  indexed := by
    intro put member reached come
    rw [index]
    rcases List.mem_cons.mp come with here | before
    · exact passed put member reached here
    · exact recovering.indexed put member reached before
  running := stopped

/-- The file of a put of this worker is read. -/
theorem Recovering.read (recovering : Recovering puts seen state) {put : Put backend}
    (member : put ∈ puts) (reached : put.Reached) :
    Recovering puts (put.file :: seen) { state with index := put.indexed state.index } := by
  cases layout : put.isBlockFirst with
  | true =>
      rw [Put.indexed, if_pos layout]
      exact recovering.put member reached fun _ _ _ _ _ _ => layout
  | false =>
      rw [Put.indexed, if_neg (ne_true_of_eq_false layout)]
      rcases HotIndex.putLegacy_cases state.index put.key
          (backend.codec.l1Dir put.key ++ backend.codec.l2Dir put.key) put.entry with
        ⟨previous, found, -, kept⟩ | replaced
      · -- The entry of the block-first layout stays, and it is of a put of the key.
        obtain ⟨other, present, -, key, entry⟩ := recovering.origin put.key previous found
        refine recovering.keep (congrArg Prod.fst kept) recovering.running ?_
        intro third there thirdReached here
        obtain ⟨key', layout'⟩ := Put.file_inj here
        refine ⟨other, present, key.trans key'.symm, ?_, fun blockFirst => ?_⟩
        · rw [key', entry]
          exact found
        · rw [layout', layout] at blockFirst
          cases blockFirst
      · rw [replaced]
        refine recovering.put member reached fun other there otherReached come key blockFirst => ?_
        obtain ⟨third, -, -, found, atLeast⟩ :=
          recovering.indexed other there otherReached come
        have stays := HotIndex.putLegacy_of_blockFirst state.index (key ▸ found)
          (third.isSome_diskMetadata.trans (atLeast blockFirst))
          (backend.codec.l1Dir put.key ++ backend.codec.l2Dir put.key) put.entry
        have same : put.entry = third.entry := congrArg Prod.snd (replaced.symm.trans stays)
        rw [← put.isSome_diskMetadata, same, third.isSome_diskMetadata]
        exact atLeast blockFirst

/-- A visit of a file that describes nothing. -/
theorem scanVisit_idle {visit : Visit} (notBlockFirst : classify visit.name ≠ .blockFirst)
    (notSidecar : classify visit.name ≠ .sidecar) :
    (backend.scanVisit state visit).index = state.index ∧
      (backend.scanVisit state visit).stopped = state.stopped := by
  unfold ScanBackend.scanVisit ScanBackend.scanFile
  split
  · exact ⟨rfl, rfl⟩
  · split
    · cases named : classify visit.name with
      | blockFirst => exact absurd named notBlockFirst
      | sidecar => exact absurd named notSidecar
      | temporary | data | foreign => exact ⟨rfl, rfl⟩
    · exact ⟨rfl, rfl⟩

/-- One visit of a restart. -/
theorem Recovering.step (recovering : Recovering puts seen state) {visit : Visit}
    (described : (∃ put ∈ puts, put.file = visit) ∨
      classify visit.name ≠ .blockFirst ∧ classify visit.name ≠ .sidecar) :
    Recovering puts (visit :: seen) (backend.scanVisit state visit) := by
  rcases described with ⟨put, member, rfl⟩ | ⟨notBlockFirst, notSidecar⟩
  · rcases put.scanVisit_file recovering.running with ⟨reached, after⟩ | ⟨apart, after⟩
    · rw [after]
      exact recovering.read member reached
    · rw [after]
      refine recovering.keep rfl recovering.running fun other _ reached here => ?_
      have key := (Put.file_inj here).1
      unfold Put.Reached Put.Own at reached apart
      rw [key] at reached
      exact absurd reached apart
  · obtain ⟨index, stopped⟩ : (backend.scanVisit state visit).index = state.index ∧
        (backend.scanVisit state visit).stopped = state.stopped :=
      scanVisit_idle notBlockFirst notSidecar
    refine recovering.keep index (stopped.trans recovering.running) fun other _ _ here => ?_
    rw [← here, other.classify_file] at notBlockFirst notSidecar
    cases layout : other.isBlockFirst with
    | true => exact absurd (if_pos layout) notBlockFirst
    | false => exact absurd (if_neg (ne_true_of_eq_false layout)) notSidecar

/-- A whole run. -/
theorem Recovering.scanMetadata (recovering : Recovering puts seen state) {visits : List Visit}
    (described : ∀ visit ∈ visits, (∃ put ∈ puts, put.file = visit) ∨
      classify visit.name ≠ .blockFirst ∧ classify visit.name ≠ .sidecar) :
    Recovering puts (visits.reverse ++ seen) (backend.scanMetadata state visits) := by
  induction visits generalizing seen state with
  | nil => exact recovering
  | cons visit visits ih =>
      rw [List.reverse_cons, List.append_assoc]
      exact ih (recovering.step (described visit List.mem_cons_self))
        fun other member => described other (List.mem_cons_of_mem visit member)

/-- The index that a restarted backend scans together. -/
def reindexed (backend : ScanBackend Key F) (visits : List Visit) : HotIndex Key (RawMetadata F) :=
  (backend.scanMetadata ScanBackend.ScanState.start visits).index

/-- **Recovery.** The scan of a restarted backend indexes a put of its worker,
with a hash of at least four characters, with the entry of the put; of a key with
puts in both layouts it indexes the one in the block-first layout. It indexes
nothing but entries of puts of its worker. -/
theorem reindexed_of_restarted {visits : List Visit} (restarted : Restarted backend puts visits) :
    (∀ put ∈ puts, put.Own → 2 * dirSize ≤ (backend.codec.hashStr put.key).length →
      (put.isBlockFirst = true ∨
        ∀ other ∈ puts, other.key = put.key → other.isBlockFirst = false) →
      (reindexed backend visits).find put.key = some put.entry) ∧
    ∀ key entry, (reindexed backend visits).find key = some entry →
      ∃ put ∈ puts, put.Own ∧ put.key = key ∧ put.entry = entry := by
  have recovering := (Recovering.start puts).scanMetadata restarted.described
  refine ⟨fun put member own long preferred => ?_, fun key entry found => ?_⟩
  · have come : put.file ∈ visits.reverse ++ [] := by
      rw [List.append_nil, List.mem_reverse]
      exact restarted.present put member
    obtain ⟨other, there, key, found, atLeast⟩ :=
      recovering.indexed put member (Put.reached_of_long own long) come
    have layout : put.isBlockFirst = other.isBlockFirst := by
      rcases preferred with blockFirst | legacy
      · rw [blockFirst, atLeast blockFirst]
      · rw [legacy put member rfl, legacy other there key]
    have same := restarted.latest put member other there key.symm layout
    exact found.trans (congrArg (fun last => some last.entry) same.symm)
  · obtain ⟨put, member, reached, same⟩ := recovering.origin key entry found
    exact ⟨put, member, reached.1, same⟩

end Run

/-! ### A small restart -/

section Small

/-- The small backend, which is of worker 0, over keys of a worker. -/
def smallBackendOf (worker : ℤ) : ScanBackend SmallKey Empty :=
  { smallBackend with codec := { smallCodec with workerId := fun _ => worker } }

/-- A put of one tensor of four bytes. -/
def smallPut (worker : ℤ) : LegacyPut (smallBackendOf worker) where
  key := .long
  shape := [2, 1, 2, 1]
  dtype := .uint8
  size := 4096
  content := LittleEndian.words 8 [1, 7, 4096, 4, 2, 1, 2, 1]
  packed := by decide +kernel
  fits := (by decide : SizeFits true 4096 4)
  dims_lt := by decide
  prod_lt := by decide

theorem restarted_smallPut (worker : ℤ) :
    Restarted (smallBackendOf worker) [.legacy (smallPut worker)]
      [(Put.legacy (smallPut worker)).file] where
  latest := by
    intro put member other there _ _
    rw [List.mem_singleton.mp member, List.mem_singleton.mp there]
  present := by
    intro put member
    rw [List.mem_singleton.mp member]
    exact List.mem_cons_self
  described := by
    intro visit member
    rw [List.mem_singleton.mp member]
    exact .inl ⟨_, List.mem_cons_self, rfl⟩

theorem reindexed_smallPut :
    (smallPut 0).key = .long ∧
      (reindexed (smallBackendOf 0) [(Put.legacy (smallPut 0)).file]).find .long =
        some (Put.legacy (smallPut 0)).entry := by
  refine ⟨rfl, (reindexed_of_restarted (restarted_smallPut 0)).1 _ List.mem_cons_self rfl
    (by decide) (.inr ?_)⟩
  intro other there _
  rw [List.mem_singleton.mp there]
  rfl

/-- Every put that is the only one of its key is indexed after a restart. -/
def Recovers (backend : ScanBackend SmallKey Empty) : Prop :=
  ∀ puts visits, Restarted backend puts visits → ∀ put ∈ puts,
    (∀ other ∈ puts, other.key = put.key → other = put) →
      (reindexed backend visits).find put.key = some put.entry

/-- The files of another worker are left to that worker. -/
theorem not_recovers_other_worker : ¬ Recovers (smallBackendOf 1) := by
  intro recovers
  have found := recovers _ _ (restarted_smallPut 1) (.legacy (smallPut 1)) List.mem_cons_self
    fun other there _ => List.mem_singleton.mp there
  have other : ¬ (Put.legacy (smallPut 1)).Own := (by decide : (1 : ℤ) ≠ 0)
  have passed : reindexed (smallBackendOf 1) [(Put.legacy (smallPut 1)).file] = .empty := by
    have running : (ScanBackend.ScanState.start : ScanState SmallKey Empty).stopped = [] := rfl
    rcases (Put.legacy (smallPut 1)).scanVisit_file running with ⟨reached, -⟩ | ⟨-, same⟩
    · exact absurd reached.1 other
    · exact congrArg ScanState.index same
  rw [passed] at found
  cases found

end Small

end LMCacheHcu.Restart
