import LMCacheHcu.Foundation.ByteFiles
import LMCacheHcu.Restart.Recovery

/-! # Round trips in POSIX mode

Without an XDS buffer the backend writes the `byte_array` of a memory object of the
CPU allocator to a file, and a sidecar with the size of the allocation. The writer
takes the size of the allocation for the length of the buffer; the reader takes the
size that shape and dtype give.
-/

namespace LMCacheHcu.Restart

open Storage Exceptions Text ByteFiles

/-! ### Memory objects -/

/-- An alignment of the CPU allocator, which is configurable. -/
structure CpuAllocator where
  alignBytes : ℕ
  alignBytes_pos : 0 < alignBytes

/-- A memory object of the CPU allocator: a tensor with 64-bit dimensions, and its
bytes, of which there are fewer than 2 ^ 63. -/
structure CpuMemoryObj where
  shape : List ℕ
  dtype : DType
  byteArray : List Byte
  length_byteArray : byteArray.length = shape.prod * dtype.itemsize
  dims_lt : ∀ dim ∈ shape, dim < 2 ^ 63
  prod_lt : shape.prod < 2 ^ 63
  length_lt : byteArray.length < 2 ^ 63

/-- `get_physical_size`. -/
def CpuAllocator.physicalSize (allocator : CpuAllocator) (object : CpuMemoryObj) : ℕ :=
  (object.byteArray.length + allocator.alignBytes - 1) / allocator.alignBytes * allocator.alignBytes

/-! ### The file interface -/

inductive PutError
  | osError (message : String)
  | blockFirstFormatError (error : BlockFirstFormatError)
  | builtin (error : Builtin)

/-- What the file system and the allocator answer: whether a call raises nothing, how
many bytes a stream has written when it raises, how many `os.write` writes, and how
many of the bytes there are `readinto` reads. No allocation is of a negative size. -/
structure PosixCalls where
  makedirs : Text → Bool
  openWrite : Text → Bool
  stream : Text → ℕ → Option ℕ
  write : Text → (asked : ℕ) → Option { count : ℕ // count ≤ asked }
  rename : Text → Text → Bool
  remove : Text → Bool
  readinto : Text → (available : ℕ) → Option { count : ℕ // count ≤ available }
  allocate : List ℤ → DType → Bool
  allocate_nonneg : ∀ shape dtype, allocate shape dtype = true →
    0 ≤ shape.prod * (dtype.itemsize : ℤ)

/-- `Posix`, with the block size of its file system. -/
structure Posix where
  osDiskBs : ℕ
  osDiskBs_pos : 0 < osDiskBs
  calls : PosixCalls

namespace Posix

variable (xds : Posix)

/-- `if os.path.exists(path): os.remove(path)`, with an `OSError` passed over. -/
def cleanUp (files : Files Text) (path : Text) : Files Text :=
  if xds.calls.remove path then files.remove path else files

/-- A file that is opened for writing, written as a stream and closed. -/
def writeStream (path : Text) (buffer : List Byte) (files : Files Text) :
    Except PutError Unit × Files Text :=
  if xds.calls.openWrite path = false then (.error (.osError "open"), files)
  else
    match xds.calls.stream path buffer.length with
    | some count => (.error (.osError "write"), files.store path (buffer.take count))
    | none => (.ok (), files.store path buffer)

/-- A file that is written with one `os.write`, without `O_TRUNC`. -/
def writeDirect (path : Text) (buffer : List Byte) (size : ℕ) (files : Files Text) :
    Except PutError Unit × Files Text :=
  if xds.calls.openWrite path = false then (.error (.osError "open"), files)
  else
    let before := (files path).getD []
    match xds.calls.write path buffer.length with
    | none => (.error (.osError "write"), files.store path before)
    | some written =>
        let after := files.store path (writeAt before 0 (buffer.take written))
        if (written : ℕ) ≠ size then
          (.error (.osError s!"POSIX write incomplete: {(written : ℕ)}/{size} bytes"), after)
        else (.ok (), after)

/-- The body of the `try` in `Posix.write` up to the rename. -/
def writeTmp (tmpPath : Text) (buffer : List Byte) (size : ℕ) (files : Files Text) :
    Except PutError Unit × Files Text :=
  if size % xds.osDiskBs ≠ 0 then xds.writeStream tmpPath buffer files
  else xds.writeDirect tmpPath buffer size files

/-- `Posix.write`. -/
def write (path : Text) (shape : List ℕ) (dtype : DType) (size : ℕ) (buffer : List Byte)
    (files : Files Text) : Except PutError (List Byte) × Files Text :=
  if buffer.length ≠ size then (.error (.builtin .assertionError), files)
  else
    match packMetadata shape dtype size with
    | .error error => (.error (.builtin error), files)
    | .ok metadata =>
        match xds.writeTmp (dataTmpPath path) buffer size files with
        | (.error error, after) => (.error error, xds.cleanUp after (dataTmpPath path))
        | (.ok _, after) =>
            if xds.calls.rename (dataTmpPath path) path then
              (.ok metadata, after.rename (dataTmpPath path) path)
            else (.error (.osError "rename"), xds.cleanUp after (dataTmpPath path))

/-- `save_metadata`. -/
def saveMetadata (path : Text) (metadata : List Byte) (files : Files Text) :
    Except PutError Unit × Files Text :=
  let tmpPath := metadataTmpPath path metadataFileSuffixTmp
  match xds.writeStream tmpPath metadata files with
  | (.error error, after) => (.error error, after)
  | (.ok _, after) =>
      if xds.calls.rename tmpPath (path ++ metadataFileSuffix) then
        (.ok (), after.rename tmpPath (path ++ metadataFileSuffix))
      else (.error (.osError "rename"), after)

/-- `Posix.read` into a buffer of the size, in either branch: the bytes that were
read, if nothing is raised; `none` stands for the result `-1`. -/
def read (size : ℕ) (path : Text) (files : Files Text) :
    Except PutError (Option (List Byte)) :=
  match files path with
  | none => .ok none
  | some content =>
      match xds.calls.readinto path (min size content.length) with
      | none => .error (.osError "read")
      | some bytesRead => .ok (some (content.take bytesRead))

end Posix

/-! ### The backend -/

/-- A backend without an XDS buffer. -/
structure PosixBackend (Key : Type) where
  xds : Posix
  allocator : CpuAllocator
  codec : KeyCodec Key
  xdsPath : Text
  cpuStoreEnabled : Bool

/-- The files and the index. -/
structure PosixState (Key : Type) [DecidableEq Key] where
  files : Files Text
  index : HotIndex Key Empty

namespace PosixBackend

variable {Key : Type} [DecidableEq Key] (backend : PosixBackend Key)

/-- The path of the data file of a key. -/
def path (key : Key) : Text := (backend.codec.keyToPath backend.xdsPath key false).path

/-- The two directories below the root. -/
def subdirKey (key : Key) : Text := (backend.codec.keyToPath backend.xdsPath key false).subdirKey

/-- `insert_key`, for a reservation of the physical size. An entry that is there stays. -/
def insertKey (key : Key) (object : CpuMemoryObj) (index : HotIndex Key Empty) :
    HotIndex Key Empty :=
  if (index.find key).isSome then index
  else
    { index with hotCache := index.hotCache.insert key ⟨backend.path key,
        backend.allocator.physicalSize object, object.shape.map Int.ofNat, object.dtype, none⟩ }

/-- The body of the `try` in `_async_save_bytes_to_storage`. -/
def saveFiles (key : Key) (object : CpuMemoryObj) (files : Files Text) :
    Except PutError Unit × Files Text :=
  let size := backend.allocator.physicalSize object
  if backend.xds.calls.makedirs (backend.codec.directory backend.xdsPath key) = false then
    (.error (.osError "makedirs"), files)
  else if backend.cpuStoreEnabled then
    (.error (.blockFirstFormatError ⟨"xds_cpu_store + xds_direct_retrieve requires a complete " ++
      "block_first_v1 chunk"⟩), files)
  else
    match backend.xds.write (backend.path key) object.shape object.dtype size object.byteArray
        files with
    | (.error error, after) => (.error error, after)
    | (.ok metadata, after) => backend.xds.saveMetadata (backend.path key) metadata after

/-- The paths that the handler removes. -/
def cleanupPaths (path : Text) : List Text :=
  [path ++ blockFirstDataFileSuffixTmp, dataTmpPath path,
    metadataTmpPath path metadataFileSuffixTmp, path ++ metadataFileSuffix, path]

/-- `_async_save_bytes_to_storage`: its `success`, and the state afterwards. The
handler takes back the reservation of the put. -/
def asyncSaveBytesToStorage (key : Key) (object : CpuMemoryObj) (state : PosixState Key) :
    Bool × PosixState Key :=
  match backend.saveFiles key object state.files with
  | (.ok _, after) => (true, ⟨after, backend.insertKey key object state.index⟩)
  | (.error _, after) =>
      (false, ⟨(cleanupPaths (backend.path key)).foldl backend.xds.cleanUp after,
        { state.index with
          hotCache := state.index.hotCache.erase key
          currentCacheSize :=
            state.index.currentCacheSize - backend.allocator.physicalSize object }⟩)

inductive LoadResult
  | loaded (byteArray : List Byte)
  | missed
  | raised
deriving DecidableEq

/-- `get_blocking`: the result, and the index afterwards. The object of a load that
fails is released. -/
def getBlocking (key : Key) (files : Files Text) (index : HotIndex Key Empty) :
    LoadResult × HotIndex Key Empty :=
  match index.find key with
  | none => (.missed, index)
  | some entry =>
      if backend.xds.calls.allocate entry.shape entry.dtype = false then (.missed, index)
      else
        let size := entry.shape.prod * entry.dtype.itemsize
        match backend.xds.read size.toNat entry.path files with
        | .error _ => (.raised, index)
        | .ok ret =>
            if (ret.elim (-1) fun bytes => (bytes.length : ℤ)) ≠ size then
              (.missed, { index with
                hotCache := index.hotCache.erase key
                currentCacheSize := index.currentCacheSize - entry.size })
            else (.loaded (ret.getD []), index)

end PosixBackend

/-! ### What is to hold, and when -/

/-- The calls of the system do what they are asked for, and the allocator has room for
as many bytes again. -/
structure PosixCalls.Complete (calls : PosixCalls) (nbytes : ℕ) : Prop where
  makedirs : ∀ directory, calls.makedirs directory = true
  openWrite : ∀ path, calls.openWrite path = true
  stream : ∀ path size, calls.stream path size = none
  write : ∀ path asked, calls.write path asked = some ⟨asked, le_rfl⟩
  rename : ∀ path new, calls.rename path new = true
  readinto : ∀ path available, calls.readinto path available = some ⟨available, le_rfl⟩
  allocate : ∀ shape dtype, shape.prod * (dtype.itemsize : ℤ) = nbytes →
    calls.allocate shape dtype = true

section RoundTrip

variable {Key : Type} [DecidableEq Key] (backend : PosixBackend Key)

/-- A state whose entries have the paths of their keys. -/
structure NamedState extends PosixState Key where
  named : ∀ key entry, index.find key = some entry → entry.path = backend.path key

/-- The entry that a put of the object is to leave. -/
def PosixBackend.entryOf (key : Key) (object : CpuMemoryObj) : FileEntry Empty :=
  ⟨backend.path key, backend.allocator.physicalSize object, object.shape.map Int.ofNat,
    object.dtype, none⟩

/-- **The property of a put.** It succeeds, a load has the bytes of the object, the
sidecar passes `_read_metadata` after a restart, and a load then has the bytes too. -/
structure RoundTrips (runtime : Runtime) (state : PosixState Key) (key : Key)
    (object : CpuMemoryObj) : Prop where
  succeeds : (backend.asyncSaveBytesToStorage key object state).1 = true
  loads : (backend.getBlocking key (backend.asyncSaveBytesToStorage key object state).2.files
    (backend.asyncSaveBytesToStorage key object state).2.index).1 = .loaded object.byteArray
  restarts : ∃ content index,
    (backend.asyncSaveBytesToStorage key object state).2.files
        (backend.path key ++ metadataFileSuffix) = some content ∧
      readMetadata runtime false key (backend.path key ++ metadataFileSuffix)
        (backend.subdirKey key) content .empty = (index, .ok (backend.entryOf key object)) ∧
      (backend.getBlocking key (backend.asyncSaveBytesToStorage key object state).2.files
        index).1 = .loaded object.byteArray

/-- **The condition.** The puts are POSIX puts, the allocation has no bytes behind those
of the object, the sidecar can describe the tensor, and an entry that the key has is
of as many bytes. -/
structure Carried (state : PosixState Key) (key : Key) (object : CpuMemoryObj) : Prop where
  legacy : backend.cpuStoreEnabled = false
  aligned : backend.allocator.alignBytes ∣ object.byteArray.length
  dims : object.shape.length ≤ 5
  coded : (dtypeToIdx object.dtype).isSome
  replaced : ∀ entry, state.index.find key = some entry →
    entry.shape.prod * (entry.dtype.itemsize : ℤ) = object.byteArray.length

end RoundTrip

/-! ### Sizes -/

/-- The size of an allocation is that of its object for multiples of the alignment. -/
theorem CpuAllocator.physicalSize_eq_iff (allocator : CpuAllocator) (object : CpuMemoryObj) :
    object.byteArray.length = allocator.physicalSize object ↔
      allocator.alignBytes ∣ object.byteArray.length := by
  have positive := allocator.alignBytes_pos
  unfold CpuAllocator.physicalSize
  constructor
  · intro same
    rw [same]
    exact Nat.dvd_mul_left ..
  · rintro ⟨blocks, length⟩
    have rounded : (allocator.alignBytes * blocks + allocator.alignBytes - 1) /
        allocator.alignBytes = blocks := by
      rw [Nat.add_sub_assoc positive, Nat.mul_add_div positive,
        Nat.div_eq_of_lt (Nat.sub_one_lt_of_lt positive), Nat.add_zero]
    rw [length, rounded, Nat.mul_comm]

/-- A sidecar describes up to five dimensions of a dtype in the table. -/
theorem CpuMemoryObj.packMetadata_iff (object : CpuMemoryObj) :
    (∃ content, packMetadata object.shape object.dtype object.byteArray.length = .ok content) ↔
      object.shape.length ≤ 5 ∧ (dtypeToIdx object.dtype).isSome := by
  have length_lt := object.length_lt
  rw [Restart.packMetadata_iff, dtypeToIdx_isSome]
  constructor
  · exact fun accepted => ⟨accepted.1, accepted.2.1⟩
  · rintro ⟨dims, coded⟩
    refine ⟨dims, coded, Int.natCast_nonneg _, by omega, fun dim member => ?_⟩
    have dim_lt := object.dims_lt dim member
    omega

/-! ### Complete calls -/

section Complete

variable {xds : Posix} {nbytes : ℕ}

theorem Posix.writeStream_complete (complete : xds.calls.Complete nbytes) (path : Text)
    (buffer : List Byte) (files : Files Text) :
    xds.writeStream path buffer files = (.ok (), files.store path buffer) := by
  rw [Posix.writeStream, if_neg (by rw [complete.openWrite]; decide), complete.stream]

/-- The file has the buffer, and behind it what an `os.write` may have left there. -/
theorem Posix.writeTmp_complete (complete : xds.calls.Complete nbytes) (path : Text)
    (buffer : List Byte) (files : Files Text) : ∃ rest,
      xds.writeTmp path buffer buffer.length files =
        (.ok (), files.store path (buffer ++ rest)) := by
  unfold Posix.writeTmp
  by_cases aligned : buffer.length % xds.osDiskBs = 0
  · refine ⟨((files path).getD []).drop buffer.length, ?_⟩
    rw [if_neg (not_not.mpr aligned), Posix.writeDirect,
      if_neg (by rw [complete.openWrite]; decide), complete.write]
    dsimp only
    rw [if_neg (not_not.mpr rfl), List.take_length, writeAt_zero]
  · refine ⟨[], ?_⟩
    rw [if_pos aligned, List.append_nil]
    exact Posix.writeStream_complete complete path buffer files

theorem Posix.write_complete (complete : xds.calls.Complete nbytes) (path : Text)
    {object : CpuMemoryObj} {metadata : List Byte}
    (packed : packMetadata object.shape object.dtype object.byteArray.length = .ok metadata)
    (files : Files Text) : ∃ rest,
      xds.write path object.shape object.dtype object.byteArray.length object.byteArray files =
        (.ok metadata, (files.store (dataTmpPath path) (object.byteArray ++ rest)).rename
          (dataTmpPath path) path) := by
  obtain ⟨rest, written⟩ :=
    Posix.writeTmp_complete complete (dataTmpPath path) object.byteArray files
  refine ⟨rest, ?_⟩
  rw [Posix.write, if_neg (not_not.mpr rfl), packed]
  dsimp only
  rw [written]
  dsimp only
  rw [if_pos (complete.rename ..)]

theorem Posix.saveMetadata_complete (complete : xds.calls.Complete nbytes) (path : Text)
    (metadata : List Byte) (files : Files Text) :
    xds.saveMetadata path metadata files =
      (.ok (), (files.store (metadataTmpPath path metadataFileSuffixTmp) metadata).rename
        (metadataTmpPath path metadataFileSuffixTmp) (path ++ metadataFileSuffix)) := by
  unfold Posix.saveMetadata
  dsimp only
  rw [Posix.writeStream_complete complete]
  dsimp only
  rw [if_pos (complete.rename ..)]

variable {Key : Type} [DecidableEq Key] {backend : PosixBackend Key} {state : PosixState Key}
  {key : Key} {object : CpuMemoryObj}

omit [DecidableEq Key] in
/-- The data file of a key is neither its sidecar nor the temporary file of that. -/
theorem PosixBackend.path_ne_sidecar (backend : PosixBackend Key) (key : Key) :
    backend.path key ≠ metadataTmpPath (backend.path key) metadataFileSuffixTmp ∧
      backend.path key ≠ backend.path key ++ metadataFileSuffix := by
  have ends : ∃ front, backend.path key = front ++ dataFileSuffix := by
    rw [PosixBackend.path, keyToPath_path]
    exact ⟨_, (List.append_assoc ..).symm⟩
  obtain ⟨front, path⟩ := ends
  refine ⟨?_, fun same => ?_⟩
  · rw [path]
    exact append_ne_of_endings (by decide) (by decide)
  · have longer := congrArg List.length same
    rw [List.length_append] at longer
    have positive : 0 < metadataFileSuffix.length := by decide
    omega

/-- A put that carries everything leaves the two files. -/
theorem saveFiles_complete (complete : backend.xds.calls.Complete nbytes)
    (carried : Carried backend state key object) : ∃ metadata rest after,
      packMetadata object.shape object.dtype (backend.allocator.physicalSize object) =
        .ok metadata ∧
      backend.saveFiles key object state.files = (.ok (), after) ∧
      after (backend.path key) = some (object.byteArray ++ rest) ∧
      after (backend.path key ++ metadataFileSuffix) = some metadata := by
  have size := (backend.allocator.physicalSize_eq_iff object).mpr carried.aligned
  obtain ⟨metadata, packed⟩ := object.packMetadata_iff.mpr ⟨carried.dims, carried.coded⟩
  obtain ⟨rest, written⟩ :=
    Posix.write_complete complete (backend.path key) packed state.files
  obtain ⟨apart, apart'⟩ := backend.path_ne_sidecar key
  have saved : backend.saveFiles key object state.files =
      backend.xds.saveMetadata (backend.path key) metadata
        ((state.files.store (dataTmpPath (backend.path key)) (object.byteArray ++ rest)).rename
          (dataTmpPath (backend.path key)) (backend.path key)) := by
    unfold PosixBackend.saveFiles
    rw [if_neg (by rw [complete.makedirs]; decide), if_neg (by rw [carried.legacy]; decide), ← size,
      written]
  rw [Posix.saveMetadata_complete complete] at saved
  refine ⟨metadata, rest, _, size ▸ packed, saved, ?_, Files.rename_store_self ..⟩
  rw [Files.rename_store_of_ne _ apart apart', Files.rename_store_self]

/-- A file that begins with the bytes is loaded as the bytes. -/
theorem getBlocking_complete {bytes rest : List Byte}
    (complete : backend.xds.calls.Complete bytes.length) {files : Files Text}
    {index : HotIndex Key Empty} {entry : FileEntry Empty} (found : index.find key = some entry)
    (stored : files entry.path = some (bytes ++ rest))
    (size : entry.shape.prod * (entry.dtype.itemsize : ℤ) = bytes.length) :
    (backend.getBlocking key files index).1 = .loaded bytes := by
  have read : backend.xds.read bytes.length entry.path files = .ok (some bytes) := by
    have available : min bytes.length (bytes ++ rest).length = bytes.length := by
      rw [List.length_append]
      exact Nat.min_eq_left (Nat.le_add_right ..)
    unfold Posix.read
    rw [stored]
    dsimp only
    rw [complete.readinto]
    dsimp only
    rw [available, List.take_left]
  unfold PosixBackend.getBlocking
  rw [found]
  dsimp only
  rw [if_neg (by rw [complete.allocate _ _ size]; decide), size, Int.toNat_natCast, read]
  exact congrArg Prod.fst (if_neg (not_not.mpr rfl))

end Complete

/-! ### What a put that succeeds and a load say -/

section Says

variable {Key : Type} [DecidableEq Key] {backend : PosixBackend Key} {key : Key}
  {object : CpuMemoryObj}

omit [DecidableEq Key] in
theorem saveFiles_ok {files after : Files Text}
    (saved : backend.saveFiles key object files = (.ok (), after)) :
    backend.cpuStoreEnabled = false ∧
      object.byteArray.length = backend.allocator.physicalSize object ∧
      ∃ metadata, packMetadata object.shape object.dtype
        (backend.allocator.physicalSize object) = .ok metadata := by
  unfold PosixBackend.saveFiles at saved
  dsimp only at saved
  split at saved
  · cases saved
  split at saved
  · cases saved
  rename_i legacy
  refine ⟨Bool.eq_false_of_not_eq_true legacy, ?_⟩
  unfold Posix.write at saved
  by_cases size : object.byteArray.length = backend.allocator.physicalSize object
  · rw [if_neg (not_not.mpr size)] at saved
    cases packed : packMetadata object.shape object.dtype (backend.allocator.physicalSize object) with
    | error error =>
        rw [packed] at saved
        cases saved
    | ok metadata => exact ⟨size, metadata, rfl⟩
  · rw [if_pos size] at saved
    cases saved

/-- A load that has the bytes has found an entry of as many. -/
theorem getBlocking_loaded {files : Files Text} {index : HotIndex Key Empty} {bytes : List Byte}
    {entry : FileEntry Empty} (found : index.find key = some entry)
    (loaded : (backend.getBlocking key files index).1 = .loaded bytes) :
    entry.shape.prod * (entry.dtype.itemsize : ℤ) = bytes.length := by
  unfold PosixBackend.getBlocking at loaded
  rw [found] at loaded
  dsimp only at loaded
  split at loaded
  · cases loaded
  split at loaded
  · cases loaded
  rename_i allocated _ ret _
  by_cases whole : (ret.elim (-1) fun bytes => (bytes.length : ℤ)) =
      entry.shape.prod * entry.dtype.itemsize
  · rw [if_neg (not_not.mpr whole)] at loaded
    cases loaded
    cases ret with
    | none =>
        have nonneg := backend.xds.calls.allocate_nonneg entry.shape entry.dtype
          (Bool.eq_true_of_not_eq_false allocated)
        rw [← whole] at nonneg
        exact absurd nonneg (by decide)
    | some content => exact whole.symm
  · rw [if_pos whole] at loaded
    cases loaded

end Says

/-! ### Round trips -/

variable {Key : Type} [DecidableEq Key]

/-- A put names the entries that it leaves. -/
theorem named_asyncSaveBytesToStorage (backend : PosixBackend Key) (state : NamedState backend)
    (key : Key) (object : CpuMemoryObj) (other : Key) (entry : FileEntry Empty)
    (found : (backend.asyncSaveBytesToStorage key object state.toPosixState).2.index.find other =
      some entry) : entry.path = backend.path other := by
  unfold PosixBackend.asyncSaveBytesToStorage at found
  split at found
  · unfold PosixBackend.insertKey at found
    split at found
    · exact state.named other entry found
    · by_cases same : other = key
      · subst same
        have inserted := (AList.lookup_insert state.index.hotCache).symm.trans found
        rw [← Option.some.inj inserted]
      · exact state.named other entry
          ((AList.lookup_insert_ne same).symm.trans found)
  · by_cases same : other = key
    · subst same
      have erased := (AList.lookup_erase other state.index.hotCache).symm.trans found
      cases erased
    · exact state.named other entry ((AList.lookup_erase_ne same).symm.trans found)

section Runs

variable {backend : PosixBackend Key} {state : PosixState Key} {key : Key} {object : CpuMemoryObj}

theorem asyncSaveBytesToStorage_ok {after : Files Text}
    (saved : backend.saveFiles key object state.files = (.ok (), after)) :
    backend.asyncSaveBytesToStorage key object state =
      (true, ⟨after, backend.insertKey key object state.index⟩) := by
  rw [PosixBackend.asyncSaveBytesToStorage, saved]

theorem saveFiles_of_succeeds
    (succeeds : (backend.asyncSaveBytesToStorage key object state).1 = true) :
    ∃ after, backend.saveFiles key object state.files = (.ok (), after) := by
  unfold PosixBackend.asyncSaveBytesToStorage at succeeds
  split at succeeds
  · rename_i after saved
    exact ⟨after, saved⟩
  · cases succeeds

/-- The entry of the key after a put is the one that was there, or that of the object. -/
theorem find_insertKey (backend : PosixBackend Key) (key : Key) (object : CpuMemoryObj)
    (index : HotIndex Key Empty) :
    (∃ entry, index.find key = some entry ∧
      (backend.insertKey key object index).find key = some entry) ∨
    index.find key = none ∧
      (backend.insertKey key object index).find key = some (backend.entryOf key object) := by
  unfold PosixBackend.insertKey
  cases found : index.find key with
  | none => exact .inr ⟨rfl, AList.lookup_insert index.hotCache⟩
  | some entry => exact .inl ⟨entry, rfl, found⟩

omit [DecidableEq Key] in
/-- The size of the entry of an object is that of the object. -/
theorem prod_entryOf (backend : PosixBackend Key) (key : Key) (object : CpuMemoryObj) :
    (backend.entryOf key object).shape.prod * ((backend.entryOf key object).dtype.itemsize : ℤ) =
      object.byteArray.length := by
  have prod : (object.shape.map Int.ofNat).prod = (object.shape.prod : ℤ) :=
    (map_list_prod (Nat.castRingHom ℤ) object.shape).symm
  rw [PosixBackend.entryOf, prod, object.length_byteArray, Nat.cast_mul]

/-- The sidecar of a put is accepted by a restarted backend. -/
theorem readMetadata_of_packed (runtime : Runtime) {metadata : List Byte}
    (packed : packMetadata object.shape object.dtype (backend.allocator.physicalSize object) =
      .ok metadata)
    (size : object.byteArray.length = backend.allocator.physicalSize object) :
    readMetadata runtime false key (backend.path key ++ metadataFileSuffix)
        (backend.subdirKey key) metadata .empty =
      (HotIndex.put .empty key (backend.subdirKey key) (backend.entryOf key object),
        .ok (backend.entryOf key object)) := by
  have fits : SizeFits false (backend.allocator.physicalSize object)
      (object.shape.prod * object.dtype.itemsize) := by
    refine ⟨?_, fun buffered => nomatch buffered⟩
    rw [← size, object.length_byteArray, Nat.cast_mul]
  have read : sidecarEntry (M := Empty) runtime false (backend.path key ++ metadataFileSuffix)
      metadata = .ok ⟨removeSuffix metadataFileSuffix (backend.path key ++ metadataFileSuffix),
        backend.allocator.physicalSize object, object.shape.map Int.ofNat, object.dtype, none⟩ :=
    sidecarEntry_of_packed packed fits object.dims_lt object.prod_lt
  rw [removeSuffix_append] at read
  rw [readMetadata, read]
  rfl

end Runs

/-- **Round trips.** With complete calls, the put of an object succeeds, its sidecar
passes after a restart and loads return its bytes exactly when the condition holds. -/
theorem posixRoundTrips_iff (runtime : Runtime) (backend : PosixBackend Key)
    (state : NamedState backend) (key : Key) (object : CpuMemoryObj)
    (complete : backend.xds.calls.Complete object.byteArray.length) :
    RoundTrips backend runtime state.toPosixState key object ↔
      Carried backend state.toPosixState key object := by
  constructor
  · intro trip
    obtain ⟨after, saved⟩ := saveFiles_of_succeeds trip.succeeds
    obtain ⟨legacy, size, metadata, packed⟩ := saveFiles_ok saved
    rw [← size] at packed
    obtain ⟨dims, coded⟩ := object.packMetadata_iff.mp ⟨metadata, packed⟩
    refine ⟨legacy, (backend.allocator.physicalSize_eq_iff object).mp size, dims, coded,
      fun entry found => ?_⟩
    have loads := trip.loads
    rw [asyncSaveBytesToStorage_ok saved] at loads
    rcases find_insertKey backend key object state.index with ⟨kept, there, stays⟩ | ⟨absent, -⟩
    · obtain rfl := Option.some.inj (there.symm.trans found)
      exact getBlocking_loaded stays loads
    · rw [absent] at found
      cases found
  · intro carried
    obtain ⟨metadata, rest, after, packed, saved, data, sidecar⟩ :=
      saveFiles_complete complete carried
    have size := (backend.allocator.physicalSize_eq_iff object).mpr carried.aligned
    have put := asyncSaveBytesToStorage_ok saved
    refine ⟨congrArg Prod.fst put, ?_, metadata, _, ?_,
      readMetadata_of_packed runtime packed size, ?_⟩
    · rw [put]
      rcases find_insertKey backend key object state.index with ⟨kept, there, stays⟩ | ⟨-, inserted⟩
      · have stored : after kept.path = some (object.byteArray ++ rest) := by
          rw [state.named key kept there]
          exact data
        exact getBlocking_complete complete stays stored (carried.replaced kept there)
      · exact getBlocking_complete complete inserted data (prod_entryOf backend key object)
    · rw [put]
      exact sidecar
    · rw [put]
      exact getBlocking_complete complete (HotIndex.find_put ..) data
        (prod_entryOf backend key object)

/-! ### Two small objects -/

/-- Calls that do what they are asked for. -/
def completeCalls : PosixCalls where
  makedirs := fun _ => true
  openWrite := fun _ => true
  stream := fun _ _ => none
  write := fun _ asked => some ⟨asked, le_rfl⟩
  rename := fun _ _ => true
  remove := fun _ => true
  readinto := fun _ available => some ⟨available, le_rfl⟩
  allocate := fun shape dtype => decide (0 ≤ shape.prod * (dtype.itemsize : ℤ))
  allocate_nonneg := fun _ _ allocated => of_decide_eq_true allocated

theorem completeCalls_complete (nbytes : ℕ) : completeCalls.Complete nbytes where
  makedirs := fun _ => rfl
  openWrite := fun _ => rfl
  stream := fun _ _ => rfl
  write := fun _ _ => rfl
  rename := fun _ _ => rfl
  readinto := fun _ _ => rfl
  allocate := fun _ _ size => decide_eq_true (size ▸ Int.natCast_nonneg nbytes)

/-- A backend whose file system and allocator have pages of 4096 bytes. -/
def pagedBackend : PosixBackend SmallKey where
  xds := ⟨4096, by decide, completeCalls⟩
  allocator := ⟨4096, by decide⟩
  codec := smallCodec
  xdsPath := ['/', 'x', 'd', 's']
  cpuStoreEnabled := false

def emptyState : NamedState pagedBackend where
  files := fun _ => none
  index := .empty
  named := fun _ _ found => nomatch found

/-- Two tokens of one layer, with heads of 1024 bytes. -/
def pageObject : CpuMemoryObj where
  shape := [2, 1, 2, 1024]
  dtype := .uint8
  byteArray := List.replicate 4096 0
  length_byteArray := List.length_replicate
  dims_lt := by decide
  prod_lt := by decide
  length_lt := by
    rw [List.length_replicate]
    decide

/-- Two tokens of one layer, with heads of one byte. -/
def fourByteObject : CpuMemoryObj where
  shape := [2, 1, 2, 1]
  dtype := .uint8
  byteArray := [1, 2, 3, 4]
  length_byteArray := rfl
  dims_lt := (smallPut 0).dims_lt
  prod_lt := (smallPut 0).prod_lt
  length_lt := by decide

theorem posixRoundTrips_iff_page :
    RoundTrips pagedBackend wrappingRuntime emptyState.toPosixState .long pageObject := by
  have aligned : pagedBackend.allocator.alignBytes ∣ pageObject.byteArray.length := by
    rw [pageObject, List.length_replicate]
    exact dvd_refl 4096
  exact (posixRoundTrips_iff wrappingRuntime pagedBackend emptyState .long pageObject
    (completeCalls_complete _)).mpr ⟨rfl, aligned, by decide, rfl, fun _ found => nomatch found⟩

/-- The put of four bytes, in an allocation of a page, fails. -/
theorem not_posixRoundTrips_fourBytes :
    ¬ RoundTrips pagedBackend wrappingRuntime emptyState.toPosixState .long fourByteObject := by
  intro trip
  obtain ⟨after, saved⟩ := saveFiles_of_succeeds trip.succeeds
  obtain ⟨-, size, -⟩ := saveFiles_ok saved
  exact absurd size (by decide)

end LMCacheHcu.Restart
