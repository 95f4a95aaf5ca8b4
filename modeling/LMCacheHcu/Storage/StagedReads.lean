import LMCacheHcu.Storage.XdsTransfer

/-! # Staged reads and their fallback

`HyFileDDS.read` and `CuFileGDS.read` try the driver, and copy from a mapping of the
file when the driver does not report all bytes. A mapping has whole pages: behind the
end of the file its last page has zeros, and nothing is there behind that page. The
load checks the count that the read returns, not the length of the file.
-/

namespace LMCacheHcu.Storage

open RowMajor ByteCopy

/-! ### Mappings -/

/-- The bytes of a private mapping of the file. -/
def FileImage.mapping (file : FileImage) : Memory := fun position =>
  if position < file.size then file.content position else 0

/-- The size of the mapping of a file in whole pages. -/
def FileImage.mappedSize (file : FileImage) (page : ℕ) : ℤ := (file.size + page - 1) / page * page

/-! ### The two readers -/

/-- What a reader finds of the system: the pages of mappings, whether opening and mapping
a file that is not empty succeeds, the driver's transfer with the count it returns, if it
returns, and the copy from host to device memory with its code. A transfer of all bytes
finds them in the file. -/
structure ReadSystem where
  page : ℕ
  maps : Bool
  driverRead : XdsCall → FileImage → Memory → Option ℤ × Memory
  memcpyHostToDevice : Memory → Copy → Memory → ℤ × Memory
  read_full : ∀ call file memory, (driverRead call file memory).1 = some call.size →
    (0 < call.size → call.fileOffset + call.size ≤ file.size) ∧
      (driverRead call file memory).2 = Copy.write file.content memory
        ⟨call.fileOffset, call.gpuAddress + call.devOffset, call.size⟩
  memcpy_done : ∀ source copy memory, (memcpyHostToDevice source copy memory).1 = 0 →
    (memcpyHostToDevice source copy memory).2 = Copy.write source memory copy

/-- A read returns a count, or the process gets a fault. -/
inductive ReadResult
  | returned (ret : ℤ) (memory : Memory)
  | faulted

/-- The arguments of a read, whose size is not negative. -/
def readCallOf (gpuAddress : ℤ) (size fileOffset : ℕ) (devOffset : ℤ) : XdsCall :=
  ⟨gpuAddress, size, fileOffset, devOffset⟩

section Readers

variable (system : ReadSystem) (file : Option FileImage) (gpuAddress : ℤ) (size fileOffset : ℕ)
  (devOffset : ℤ) (memory : Memory)

/-- The copy from the mapping. An empty file cannot be mapped. -/
def cpuFallback (content : FileImage) (memory : Memory) : ReadResult :=
  if system.maps = false ∨ content.size ≤ 0 then .returned (-1) memory
  else if 0 < size ∧ content.mappedSize system.page < fileOffset + size then .faulted
  else
    let answer := system.memcpyHostToDevice content.mapping
      ⟨fileOffset, gpuAddress + devOffset, size⟩ memory
    if answer.1 ≠ 0 then .returned (-1) answer.2 else .returned size answer.2

/-- The driver's transfer, and the fallback where it is allowed and has a runtime. -/
def readOrFallBack (allowed runtime : Bool) : ReadResult :=
  match file with
  | none => .returned (-1) memory
  | some content =>
      let answer := system.driverRead (readCallOf gpuAddress size fileOffset devOffset) content memory
      if answer.1 = some (size : ℤ) then .returned size answer.2
      else if allowed = false ∨ runtime = false then .returned (-1) answer.2
      else cpuFallback system gpuAddress size fileOffset devOffset content answer.2

/-- `HyFileDDS`. -/
structure HyFileDDS where
  system : ReadSystem
  allowCpuFallback : Bool
  /-- `self.hiprt is not None` -/
  hiprt : Bool

/-- `CuFileGDS`. -/
structure CuFileGDS where
  system : ReadSystem
  /-- `self.cudart is not None` -/
  cudart : Bool

/-- `HyFileDDS.read`. -/
def HyFileDDS.read (interface : HyFileDDS) : ReadResult :=
  readOrFallBack interface.system file gpuAddress size fileOffset devOffset memory
    interface.allowCpuFallback interface.hiprt

/-- `CuFileGDS.read`, which has no switch for the fallback. -/
def CuFileGDS.read (interface : CuFileGDS) : ReadResult :=
  readOrFallBack interface.system file gpuAddress size fileOffset devOffset memory true
    interface.cudart

end Readers

/-- The interface of a backend that transfers to device memory. -/
inductive CliStorage
  | hyFileDDS (interface : HyFileDDS)
  | cuFileGDS (interface : CuFileGDS)

namespace CliStorage

def read (interface : CliStorage) (file : Option FileImage) (gpuAddress : ℤ)
    (size fileOffset : ℕ) (devOffset : ℤ) (memory : Memory) : ReadResult :=
  match interface with
  | .hyFileDDS interface => interface.read file gpuAddress size fileOffset devOffset memory
  | .cuFileGDS interface => interface.read file gpuAddress size fileOffset devOffset memory

def system : CliStorage → ReadSystem
  | .hyFileDDS interface => interface.system
  | .cuFileGDS interface => interface.system

def allowed : CliStorage → Bool
  | .hyFileDDS interface => interface.allowCpuFallback
  | .cuFileGDS _ => true

def runtime : CliStorage → Bool
  | .hyFileDDS interface => interface.hiprt
  | .cuFileGDS interface => interface.cudart

theorem read_eq (interface : CliStorage) (file : Option FileImage) (gpuAddress : ℤ)
    (size fileOffset : ℕ) (devOffset : ℤ) (memory : Memory) :
    interface.read file gpuAddress size fileOffset devOffset memory =
      readOrFallBack interface.system file gpuAddress size fileOffset devOffset memory
        interface.allowed interface.runtime := by
  cases interface <;> rfl

end CliStorage

/-! ### The load -/

/-- `XDSCacheMetadata`, as far as the load reads it. -/
structure StoredEntry where
  size : ℕ
  shape : Option (List ℕ)
  dtype : Option DType
  diskMetadata : Option BlockFirstDiskMetadata

/-- The memory object of a load: its tensor, its address in the allocator and the
place of its `byte_array`. -/
structure LoadTarget where
  tensor : Option Tensor
  address : ℕ
  bufferAddress : ℕ
  bufferNbytes : ℕ

/-- The parts of the backend that the load uses. `readinto` is how many of the bytes
there are the POSIX interface reads, if it raises nothing. -/
structure StagedBackend where
  interface : CliStorage
  /-- `config.xds_buffer_size is not None` -/
  xdsBuffer : Bool
  dstDevice : Device
  basePointer : ℕ
  codec : HeaderCodec
  staging : Option BlockFirstStaging
  allocate : List ℕ → DType → Device → Tensor
  readinto : ℕ → Option ℕ
  readinto_le : ∀ available count, readinto available = some count → count ≤ available

inductive LoadOutcome
  | loaded (memory : Memory)
  /-- `None`, without an effect -/
  | missed
  /-- `None`, with the entry taken out of the index and the object released -/
  | failed (memory : Memory)
  | raised
  | faulted

namespace StagedBackend

variable (backend : StagedBackend)

/-- `_load_block_first_xds`. -/
def loadBlockFirstXds (file : Option FileImage) (diskMetadata : BlockFirstDiskMetadata)
    (logicalOutput : Tensor) (memory : Memory) : Except XdsError ReadResult :=
  match file with
  | none => .error (.osError "No such file or directory")
  | some content => do
      let currentMetadata ←
        (backend.codec.unpack (XdsBackend.headerOf content)).mapError .blockFirstFormatError
      if currentMetadata ≠ diskMetadata then
        throw (.blockFirstFormatError ⟨"block-first header changed after indexing"⟩)
      if content.size ≠ blockFirstHeaderSize + diskMetadata.ioNbytes then
        throw (.blockFirstFormatError ⟨"block-first payload size changed after indexing"⟩)
      match backend.staging with
      | none => throw (.runtimeError "block_first_v1 staging buffer is unavailable")
      | some staging =>
          if staging.tensor.intShape ≠ diskMetadata.payloadShape then
            throw (.blockFirstFormatError ⟨"block-first staging shape mismatch during load"⟩)
          match backend.interface.read (some content) staging.basePointer
              diskMetadata.ioNbytes.toNat blockFirstHeaderSize.toNat staging.address
              (XdsBackend.zeroStaging staging memory) with
          | .faulted => return .faulted
          | .returned ret after =>
              if ret ≠ diskMetadata.ioNbytes then return .returned ret after
              else
                let converted ← (blockFirstToLogical backend.allocate staging.tensor
                  (some logicalOutput)).mapError .blockFirstFormatError
                return .returned ret (writeAll after converted.2 after)

/-- `Posix.read`, which returns what it has read. -/
def posixRead (file : Option FileImage) (target : LoadTarget) (size : ℕ) (memory : Memory) :
    Option (ℤ × Memory) :=
  match file with
  | none => some (-1, memory)
  | some content =>
      (backend.readinto (min (min size target.bufferNbytes) content.size.toNat)).map fun count : ℕ =>
        ((count : ℤ), Copy.write content.content memory ⟨0, target.bufferAddress, count⟩)

/-- The check of the count behind every way to read. -/
def checkCount (size : ℤ) : ReadResult → LoadOutcome
  | .faulted => .faulted
  | .returned ret after => if ret ≠ size then .failed after else .loaded after

/-- `_load_bytes_from_storage_with_memory`. -/
def loadBytesFromStorageWithMemory (entry : Option StoredEntry) (file : Option FileImage)
    (target : LoadTarget) (memory : Memory) : LoadOutcome :=
  match target.tensor with
  | none => .missed
  | some tensor =>
      if backend.xdsBuffer && (tensor.device.type ≠ .cuda ||
          XdsBackend.devicesMatch backend.dstDevice tensor.device = false) then .raised
      else
        match entry with
        | none => .missed
        | some entry =>
            match entry.diskMetadata with
            | some diskMetadata =>
                match backend.loadBlockFirstXds file diskMetadata tensor memory with
                | .ok result => checkCount diskMetadata.ioNbytes result
                | .error (.blockFirstFormatError _) | .error (.osError _) => .failed memory
                | .error (.runtimeError _) | .error (.directIOError _) => .raised
            | none =>
                if backend.xdsBuffer then
                  checkCount entry.size (backend.interface.read file backend.basePointer entry.size 0
                    target.address memory)
                else
                  match entry.shape, entry.dtype with
                  | some shape, some dtype =>
                      let size := shape.prod * dtype.itemsize
                      match backend.posixRead file target size memory with
                      | some (ret, after) => checkCount size (.returned ret after)
                      | none => .raised
                  | _, _ => .raised

end StagedBackend

/-! ### What is to hold, and when -/

/-- The destination of a copy has the bytes of the file, and the file has them. -/
structure HasBytes (content : FileImage) (copy : Copy) (after : Memory) : Prop where
  inFile : 0 < copy.size → copy.src + copy.size ≤ content.size
  bytes : ∀ address, copy.Covers address → after address = content.content (copy.origin address)

/-- **The property of a read.** If it returns the requested size, the bytes are there. -/
def ReadsWhole (result : ReadResult) (file : Option FileImage) (gpuAddress : ℤ)
    (size fileOffset : ℕ) (devOffset : ℤ) : Prop :=
  ∀ after, result = .returned size after → ∃ content, file = some content ∧
    HasBytes content ⟨fileOffset, gpuAddress + devOffset, size⟩ after

/-- What a loaded memory object has, for each kind of entry: the bytes of the payload,
which block-first files bring to the staging chunk first. -/
def StagedBackend.HasPayload (backend : StagedBackend) (entry : StoredEntry) (content : FileImage)
    (target : LoadTarget) (after : Memory) : Prop :=
  match entry.diskMetadata with
  | some diskMetadata =>
      ∃ tensor staging staged converted, target.tensor = some tensor ∧
        backend.staging = some staging ∧
        HasBytes content
          ⟨blockFirstHeaderSize, staging.basePointer + staging.address, diskMetadata.ioNbytes⟩
          staged ∧
        blockFirstToLogical backend.allocate staging.tensor (some tensor) = .ok converted ∧
        after = writeAll staged converted.2 staged
  | none =>
      if backend.xdsBuffer then
        HasBytes content ⟨0, backend.basePointer + target.address, entry.size⟩ after
      else
        ∃ shape dtype, entry.shape = some shape ∧ entry.dtype = some dtype ∧
          HasBytes content ⟨0, target.bufferAddress, (shape.prod * dtype.itemsize : ℕ)⟩ after

/-- **The property of a load.** A memory object is returned with the whole payload. -/
def StagedBackend.LoadsWhole (backend : StagedBackend) (entry : Option StoredEntry)
    (file : Option FileImage) (target : LoadTarget) (memory : Memory) : Prop :=
  ∀ after, backend.loadBytesFromStorageWithMemory entry file target memory = .loaded after →
    ∃ entry' content, entry = some entry' ∧ file = some content ∧
      backend.HasPayload entry' content target after

/-- The fallback copies zeros for bytes behind the end of the file: the driver did not
report all bytes, and the range ends on the last page of the mapping. -/
structure CliStorage.PadsZeros (interface : CliStorage) (content : FileImage) (gpuAddress : ℤ)
    (size fileOffset : ℕ) (devOffset : ℤ) (memory : Memory) : Prop where
  allowed : interface.allowed = true
  runtime : interface.runtime = true
  maps : interface.system.maps = true
  nonempty : 0 < content.size
  asked : 0 < size
  short : content.size < fileOffset + size
  lastPage : fileOffset + size ≤ content.mappedSize interface.system.page
  driver : (interface.system.driverRead (readCallOf gpuAddress size fileOffset devOffset) content
    memory).1 ≠ some (size : ℤ)
  copied : (interface.system.memcpyHostToDevice content.mapping
    ⟨fileOffset, gpuAddress + devOffset, size⟩ (interface.system.driverRead
      (readCallOf gpuAddress size fileOffset devOffset) content memory).2).1 = 0

/-- **The condition of a read.** -/
def CliStorage.Unpadded (interface : CliStorage) (file : Option FileImage) (gpuAddress : ℤ)
    (size fileOffset : ℕ) (devOffset : ℤ) (memory : Memory) : Prop :=
  ∀ content, file = some content →
    ¬ interface.PadsZeros content gpuAddress size fileOffset devOffset memory

/-- **The condition of a load.** The read of a legacy XDS entry is not padded. -/
def StagedBackend.Unpadded (backend : StagedBackend) (entry : Option StoredEntry)
    (file : Option FileImage) (target : LoadTarget) (memory : Memory) : Prop :=
  ∀ tensor entry', target.tensor = some tensor → tensor.device.type = .cuda →
    XdsBackend.devicesMatch backend.dstDevice tensor.device = true → entry = some entry' →
    entry'.diskMetadata = none → backend.xdsBuffer = true →
    backend.interface.Unpadded file backend.basePointer entry'.size 0 target.address memory

/-! ### Reads -/

section Reads

variable {interface : CliStorage} {gpuAddress : ℤ} {size fileOffset : ℕ} {devOffset : ℤ}
  {memory : Memory}

/-- A failed read is no read of the requested size. -/
theorem readsWhole_failed {file : Option FileImage} {after : Memory} :
    ReadsWhole (.returned (-1) after) file gpuAddress size fileOffset devOffset := by
  intro other same
  obtain ⟨negative, -⟩ := ReadResult.returned.inj same
  omega

/-- The mapping has the bytes of the file where the file has any. -/
theorem hasBytes_mapping {content : FileImage} {copy : Copy} (before : Memory)
    (inFile : 0 < copy.size → copy.src + copy.size ≤ content.size) :
    HasBytes content copy (Copy.write content.mapping before copy) := by
  refine ⟨inFile, fun address covers => ?_⟩
  have asked : 0 < copy.size := by
    have := covers.1
    have := covers.2
    omega
  have below : copy.origin address < content.size := by
    have := covers.2
    have := inFile asked
    unfold Copy.origin
    omega
  rw [Copy.write, if_pos covers, FileImage.mapping, if_pos below]

theorem hasBytes_write {content : FileImage} {copy : Copy} (before : Memory)
    (inFile : 0 < copy.size → copy.src + copy.size ≤ content.size) :
    HasBytes content copy (Copy.write content.content before copy) := by
  refine ⟨inFile, fun address covers => ?_⟩
  rw [Copy.write, if_pos covers]

/-- The copy from the mapping returns the requested size with all bytes unless it pads. -/
theorem readsWhole_cpuFallback {content : FileImage} :
    ReadsWhole (cpuFallback interface.system gpuAddress size fileOffset devOffset content memory)
        (some content) gpuAddress size fileOffset devOffset ↔
      ¬ (interface.system.maps = true ∧ 0 < content.size ∧ 0 < size ∧
        content.size < fileOffset + size ∧
        fileOffset + size ≤ content.mappedSize interface.system.page ∧
        (interface.system.memcpyHostToDevice content.mapping
          ⟨fileOffset, gpuAddress + devOffset, size⟩ memory).1 = 0) := by
  unfold cpuFallback
  by_cases unmapped : interface.system.maps = false ∨ content.size ≤ 0
  · rw [if_pos unmapped]
    refine iff_of_true readsWhole_failed ?_
    rintro ⟨maps, nonempty, -⟩
    rcases unmapped with refused | empty
    · exact absurd (refused.symm.trans maps) Bool.false_ne_true
    · omega
  · rw [if_neg unmapped]
    obtain ⟨maps, nonempty⟩ := not_or.mp unmapped
    by_cases faults : 0 < size ∧ content.mappedSize interface.system.page < fileOffset + size
    · rw [if_pos faults]
      refine iff_of_true (fun after same => nomatch same) ?_
      rintro ⟨-, -, -, -, lastPage, -⟩
      omega
    · rw [if_neg faults]
      dsimp only
      by_cases copied : (interface.system.memcpyHostToDevice content.mapping
          ⟨fileOffset, gpuAddress + devOffset, size⟩ memory).1 = 0
      · rw [if_neg (not_not.mpr copied), interface.system.memcpy_done _ _ _ copied]
        constructor
        · rintro whole ⟨-, -, asked, short, -, -⟩
          obtain ⟨_, same, bytes⟩ := whole _ rfl
          cases same
          have inFile := bytes.inFile (Int.natCast_pos.mpr asked)
          dsimp only at inFile
          omega
        · intro unpadded after same
          obtain ⟨-, rfl⟩ := ReadResult.returned.inj same
          refine ⟨content, rfl, hasBytes_mapping memory fun asked => ?_⟩
          by_contra short
          dsimp only at short asked
          exact unpadded ⟨Bool.eq_true_of_not_eq_false maps, by omega, by omega, by omega,
            by omega, copied⟩
      · rw [if_pos copied]
        exact iff_of_true readsWhole_failed fun pads => copied pads.2.2.2.2.2

/-- **Staged reads.** A read that returns the requested size has it all, exactly when
its fallback does not pad. -/
theorem readsWhole_read (file : Option FileImage) :
    ReadsWhole (interface.read file gpuAddress size fileOffset devOffset memory) file gpuAddress
        size fileOffset devOffset ↔
      interface.Unpadded file gpuAddress size fileOffset devOffset memory := by
  rw [CliStorage.read_eq]
  cases file with
  | none =>
      refine iff_of_true readsWhole_failed fun content same => ?_
      cases same
  | some content =>
      have unpadded : interface.Unpadded (some content) gpuAddress size fileOffset devOffset
          memory ↔ ¬ interface.PadsZeros content gpuAddress size fileOffset devOffset memory := by
        constructor
        · exact fun all => all content rfl
        · rintro one _ ⟨⟩
          exact one
      rw [unpadded]
      unfold readOrFallBack
      dsimp only
      by_cases full : (interface.system.driverRead
          (readCallOf gpuAddress size fileOffset devOffset) content memory).1 = some (size : ℤ)
      · rw [if_pos full]
        refine iff_of_true (fun after same => ?_) fun pads => pads.driver full
        obtain ⟨-, rfl⟩ := ReadResult.returned.inj same
        obtain ⟨inFile, bytes⟩ := interface.system.read_full _ _ _ full
        rw [bytes]
        exact ⟨content, rfl, hasBytes_write memory inFile⟩
      · rw [if_neg full]
        by_cases denied : interface.allowed = false ∨ interface.runtime = false
        · rw [if_pos denied]
          refine iff_of_true readsWhole_failed fun pads => ?_
          rcases denied with refused | missing
          · exact absurd (refused.symm.trans pads.allowed) Bool.false_ne_true
          · exact absurd (missing.symm.trans pads.runtime) Bool.false_ne_true
        · rw [if_neg denied, readsWhole_cpuFallback, not_iff_not]
          obtain ⟨allowed, runtime⟩ := not_or.mp denied
          constructor
          · rintro ⟨maps, nonempty, asked, short, lastPage, copied⟩
            exact ⟨Bool.eq_true_of_not_eq_false allowed, Bool.eq_true_of_not_eq_false runtime, maps,
              nonempty, asked, short, lastPage, full, copied⟩
          · intro pads
            exact ⟨pads.maps, pads.nonempty, pads.asked, pads.short, pads.lastPage, pads.copied⟩

end Reads

/-! ### Loads -/

section Loads

variable {backend : StagedBackend} {file : Option FileImage} {target : LoadTarget}
  {memory after : Memory}

theorem checkCount_loaded {size : ℤ} {result : ReadResult}
    (loaded : StagedBackend.checkCount size result = .loaded after) :
    result = .returned size after := by
  cases result with
  | faulted => cases loaded
  | returned ret memory =>
      simp only [StagedBackend.checkCount] at loaded
      split at loaded
      · cases loaded
      · rename_i same
        cases loaded
        rw [not_not.mp same]

/-- The file of a block-first entry has the size that the read asks for. -/
theorem hasPayload_blockFirst {diskMetadata : BlockFirstDiskMetadata} {tensor : Tensor}
    {ret : ℤ} (returned : backend.loadBlockFirstXds file diskMetadata tensor memory =
      .ok (.returned ret after)) (whole : ret = diskMetadata.ioNbytes) :
    ∃ content staging staged converted, file = some content ∧ backend.staging = some staging ∧
      HasBytes content
        ⟨blockFirstHeaderSize, staging.basePointer + staging.address, diskMetadata.ioNbytes⟩ staged ∧
      blockFirstToLogical backend.allocate staging.tensor (some tensor) = .ok converted ∧
      after = writeAll staged converted.2 staged := by
  cases file with
  | none => cases returned
  | some content =>
      simp only [StagedBackend.loadBlockFirstXds, Checked.bind_ok, Checked.throw_bind,
        Checked.check_ok, Checked.mapError_ok, not_not] at returned
      obtain ⟨_, -, -, fileSize, returned⟩ := returned
      split at returned
      · cases returned
      · rename_i staging ready
        rw [Checked.check_ok] at returned
        obtain ⟨-, returned⟩ := returned
        split at returned
        · cases returned
        · rename_i count staged read
          split at returned
          · rename_i short
            cases returned
            exact absurd whole short
          · rename_i full
            simp only [Checked.bind_ok, Checked.mapError_ok] at returned
            obtain ⟨converted, conversion, result⟩ := returned
            cases result
            refine ⟨content, staging, staged, converted, rfl, ready, ?_, conversion, rfl⟩
            by_cases asked : 0 < diskMetadata.ioNbytes
            · have size : ((diskMetadata.ioNbytes.toNat : ℕ) : ℤ) = diskMetadata.ioNbytes :=
                Int.toNat_of_nonneg asked.le
              -- The file has all bytes, so the fallback does not pad.
              have unpadded : backend.interface.Unpadded (some content) staging.basePointer
                  diskMetadata.ioNbytes.toNat blockFirstHeaderSize.toNat staging.address
                  (XdsBackend.zeroStaging staging memory) := by
                rintro _ ⟨⟩ pads
                have short := pads.short
                have header : ((blockFirstHeaderSize.toNat : ℕ) : ℤ) = blockFirstHeaderSize := rfl
                rw [size, header] at short
                omega
              rw [not_not.mp full, ← size] at read
              obtain ⟨_, ⟨⟩, bytes⟩ := (readsWhole_read (some content)).mpr unpadded _ read
              rwa [size] at bytes
            · refine ⟨fun positive => absurd positive asked, fun address covers => ?_⟩
              have := covers.1
              have := covers.2
              dsimp only at *
              omega

/-- A POSIX read of the requested count has read it all. -/
theorem hasBytes_posixRead {size : ℕ} (read : backend.posixRead file target size memory =
    some ((size : ℤ), after)) : ∃ content, file = some content ∧
      HasBytes content ⟨0, target.bufferAddress, size⟩ after := by
  cases file with
  | none =>
      simp only [StagedBackend.posixRead, Option.some.injEq, Prod.mk.injEq] at read
      omega
  | some content =>
      obtain ⟨count, counted, same⟩ := Option.map_eq_some_iff.mp read
      obtain ⟨whole, rfl⟩ := Prod.mk.inj same
      have le := backend.readinto_le _ _ counted
      obtain rfl : count = size := by exact_mod_cast whole
      refine ⟨content, rfl, hasBytes_write memory fun asked => ?_⟩
      dsimp only at asked ⊢
      omega

/-- **Staged loads.** A memory object is returned with the whole payload, exactly when
the read of a legacy entry is not padded. -/
theorem loadsWhole_load (entry : Option StoredEntry) :
    backend.LoadsWhole entry file target memory ↔ backend.Unpadded entry file target memory := by
  constructor
  · intro whole tensor entry' hasTensor cuda matched indexed legacy xds
    apply (readsWhole_read file).mp
    intro after returned
    have loaded : backend.loadBytesFromStorageWithMemory entry file target memory =
        .loaded after := by
      simp [StagedBackend.loadBytesFromStorageWithMemory, hasTensor, cuda, matched, indexed, legacy,
        xds, returned, StagedBackend.checkCount]
    obtain ⟨_, content, same, present, payload⟩ := whole after loaded
    obtain rfl := Option.some.inj (indexed.symm.trans same)
    simp only [StagedBackend.HasPayload, legacy, xds, if_true] at payload
    exact ⟨content, present, payload⟩
  · intro unpadded after loaded
    unfold StagedBackend.loadBytesFromStorageWithMemory at loaded
    split at loaded
    · cases loaded
    rename_i tensor hasTensor
    split at loaded
    · cases loaded
    rename_i passes
    split at loaded
    · cases loaded
    rename_i entry
    refine ⟨entry, ?_⟩
    split at loaded
    · rename_i diskMetadata blockFirst
      split at loaded
      · rename_i result read
        obtain rfl := checkCount_loaded loaded
        obtain ⟨content, staging, staged, converted, rest⟩ := hasPayload_blockFirst read rfl
        refine ⟨content, rfl, rest.1, ?_⟩
        simp only [StagedBackend.HasPayload, blockFirst]
        exact ⟨tensor, staging, staged, converted, hasTensor, rest.2⟩
      · cases loaded
      · cases loaded
      · cases loaded
      · cases loaded
    · rename_i legacy
      split at loaded
      · rename_i xds
        have returned := checkCount_loaded loaded
        simp only [xds, Bool.true_and, Bool.or_eq_true, decide_eq_true_eq, not_or, ne_eq, not_not,
          Bool.not_eq_false] at passes
        have whole := (readsWhole_read file).mpr
          (unpadded tensor entry hasTensor passes.1 passes.2 rfl legacy xds)
        obtain ⟨content, present, bytes⟩ := whole after returned
        refine ⟨content, rfl, present, ?_⟩
        simp only [StagedBackend.HasPayload, legacy, xds, if_true]
        exact bytes
      · rename_i posix
        split at loaded
        · rename_i shape dtype shaped typed
          dsimp only at loaded
          split at loaded
          · rename_i ret memory' read
            obtain ⟨rfl, rfl⟩ := ReadResult.returned.inj (checkCount_loaded loaded)
            obtain ⟨content, present, bytes⟩ := hasBytes_posixRead read
            refine ⟨content, rfl, present, ?_⟩
            simp only [StagedBackend.HasPayload, legacy, posix, if_false, Bool.false_eq_true]
            exact ⟨shape, dtype, shaped, typed, bytes⟩
          · cases loaded
        · cases loaded

end Loads

/-- **Staged reads and loads.** Both interfaces return the requested size only with all
bytes, and a load returns a memory object only with its whole payload, exactly when the
fallback does not pad the read. -/
theorem wholeReads_iff (interface : CliStorage) (file : Option FileImage) (gpuAddress : ℤ)
    (size fileOffset : ℕ) (devOffset : ℤ) (memory : Memory) (backend : StagedBackend)
    (entry : Option StoredEntry) (target : LoadTarget) :
    (ReadsWhole (interface.read file gpuAddress size fileOffset devOffset memory) file gpuAddress
        size fileOffset devOffset ↔
      interface.Unpadded file gpuAddress size fileOffset devOffset memory) ∧
    (backend.LoadsWhole entry file target memory ↔
      backend.Unpadded entry file target memory) :=
  ⟨readsWhole_read file, loadsWhole_load entry⟩

/-! ### A truncated file -/

/-- A system whose driver raises. -/
def raisingSystem : ReadSystem where
  page := 4096
  maps := true
  driverRead := fun _ _ memory => (none, memory)
  memcpyHostToDevice := fun source copy memory => (0, Copy.write source memory copy)
  read_full := fun _ _ _ full => nomatch full
  memcpy_done := fun _ _ _ _ => rfl

/-- 4000 of the 4096 bytes of a file. -/
def truncatedFile : FileImage := ⟨4000, fun _ => 1⟩

/-- The backend of a test without block-first files. -/
def legacyBackend (interface : CliStorage) : StagedBackend where
  interface := interface
  xdsBuffer := true
  dstDevice := ⟨.cuda, none⟩
  basePointer := 0
  codec := .failing ""
  staging := none
  allocate := fun _ dtype device => ⟨device, dtype, 0, 0, 0, [0], [1], rfl, fun many => (many rfl).elim⟩
  readinto := some
  readinto_le := fun _ _ counted => (Option.some.inj counted).ge

def pageTarget : LoadTarget where
  tensor := some ⟨⟨.cuda, none⟩, .uint8, 0, 4096, 0, [4096], [1], rfl, fun _ => by decide⟩
  address := 0
  bufferAddress := 0
  bufferNbytes := 4096

/-- With a failing driver, a read of a page from the truncated file returns the whole
page on either interface, and the load returns the memory object. -/
theorem not_wholeReads_truncated :
    ¬ ReadsWhole ((CliStorage.hyFileDDS ⟨raisingSystem, true, true⟩).read (some truncatedFile)
        0 4096 0 0 fun _ => 0) (some truncatedFile) 0 4096 0 0 ∧
    ¬ ReadsWhole ((CliStorage.cuFileGDS ⟨raisingSystem, true⟩).read (some truncatedFile)
        0 4096 0 0 fun _ => 0) (some truncatedFile) 0 4096 0 0 ∧
    ¬ (legacyBackend (.hyFileDDS ⟨raisingSystem, true, true⟩)).LoadsWhole
        (some ⟨4096, some [4096], some .uint8, none⟩) (some truncatedFile) pageTarget
        fun _ => 0 := by
  have refuted {content : FileImage} {copy : Copy} {after : Memory}
      (bytes : HasBytes content copy after) (positive : 0 < copy.size)
      (short : content.size < copy.src + copy.size) : False := by
    have := bytes.inFile positive
    omega
  refine ⟨fun whole => ?_, fun whole => ?_, fun whole => ?_⟩
  · obtain ⟨_, ⟨⟩, bytes⟩ := whole _ rfl
    exact refuted bytes (by decide) (by decide)
  · obtain ⟨_, ⟨⟩, bytes⟩ := whole _ rfl
    exact refuted bytes (by decide) (by decide)
  · obtain ⟨_, _, ⟨⟩, ⟨⟩, bytes⟩ := whole _ rfl
    exact refuted bytes (by decide) (by decide)

end LMCacheHcu.Storage
