import LMCacheHcu.Restart.Sidecars
import LMCacheHcu.Storage.HeaderGuarantees
import LMCacheHcu.Storage.XdsTransfer

/-! # The startup scan

`_scan_metadata` runs one thread for each first-level directory, and each thread
visits the files below it. A thread that an exception leaves stops, and the other
ones go on. A run of the scan is therefore a list of visits in the order in which
they take the lock, and the directories whose threads have stopped.
-/

namespace LMCacheHcu.Restart

open Storage Exceptions Python Text

variable {Key F : Type}

/-- The fields of the engine's own layout signature. -/
def engineLayout (identity : WorkerIdentity) (logicalShape : List ℕ) (dtype : DType)
    (blockSize : ℕ) : LayoutFields where
  blockSize := blockSize
  dtype := dtype.name
  hiddenDim := (logicalShape.map Int.ofNat).getD 3 0
  layout := blockFirstLayout
  modelName := identity.modelName
  numLayers := (logicalShape.map Int.ofNat).getD 1 0
  pipelineParallelSize := identity.pipelineParallelSize
  tensorParallelSize := identity.tensorParallelSize
  workerId := identity.workerId
  worldSize := identity.worldSize

/-- What the scan reads of the backend. The engine's own fields have a
signature, and a shape of integers is a `torch.Size`. -/
structure ScanBackend (Key F : Type) where
  codec : KeyCodec Key
  header : HeaderRuntime F
  sidecar : Runtime
  torchSize : List (Value F) → Except Builtin (List ℤ)
  xdsPath : Text
  blockFirstEnabled : Bool
  /-- `config.xds_buffer_size is not None` -/
  xdsBuffer : Bool
  engine : EngineMetadata
  signature : String
  signature_computed : ∀ logicalShape dtype, engine.getShapes engine.chunkSize = [logicalShape] →
    engine.getDtypes = [dtype] →
    (header.dumps (engineLayout engine.identity logicalShape dtype engine.blockSize).value).map
      header.sha256 = .ok signature
  torchSize_ints : ∀ shape : List ℤ, torchSize (shape.map .int) = .ok shape

namespace ScanBackend

variable (backend : ScanBackend Key F)

/-- `world_id`. -/
def worldId : ℤ := backend.engine.identity.workerId

/-- `validate_runtime`, against the engine's one layer group. -/
def validateRuntime (metadata : RawMetadata F) (logicalShape : List ℕ) (dtype : DType) :
    Except (Raised BlockFirstFormatError) Unit := do
  metadata.validate backend.header
  if Value.equalItems backend.header.floats metadata.logicalShape
      ((logicalShape.map Int.ofNat).map .int) = false then
    formatError ("logical shape mismatch: " ++ backend.header.tupleText metadata.logicalShape ++
      " != " ++ tupleRepr (logicalShape.map Int.ofNat))
  else
    let recorded ← metadata.torchDtype
    if recorded ≠ dtype then
      formatError ("dtype mismatch: torch." ++ recorded.name ++ " != torch." ++ dtype.name)
    else if metadata.layoutSignature.equals backend.header.floats
        (.text backend.signature) = false then
      formatError "runtime layout signature mismatch"
    else return ()

/-- The part of `_read_block_first_metadata` behind the decoding of the header:
the checks, and the entry that passes them. -/
def checkBlockFirst (filename : Text) (actualSize : ℕ) (metadata : RawMetadata F) :
    Except (Raised BlockFirstFormatError) (FileEntry (RawMetadata F)) := do
  if metadata.validTokens.equals backend.header.floats (.int backend.engine.chunkSize) = false then
    formatError ("block_first_v1 file is not a complete LMCache chunk: " ++
      backend.header.str metadata.validTokens ++ s!"/{backend.engine.chunkSize} tokens")
  else
    match backend.engine.getShapes backend.engine.chunkSize, backend.engine.getDtypes with
    | [logicalShape], [dtype] =>
        backend.validateRuntime metadata logicalShape dtype
        let ioNbytes ← builtin metadata.ioNbytes.operand
        let totalSize ← builtin ((Number.int blockFirstHeaderSize).add backend.header.floats ioNbytes)
        if (Number.int actualSize).eq backend.header.floats totalSize = false then
          formatError (s!"block-first file size {actualSize} != expected " ++
            backend.header.str totalSize.value)
        else
          let shape ← builtin (backend.torchSize metadata.logicalShape)
          let recorded ← metadata.torchDtype
          -- The total size equals the actual one, which is an integer.
          return ⟨filename, actualSize, shape, recorded, some metadata⟩
    | _, _ => formatError "block_first_v1 requires exactly one active KV layer group"

/-- What a block-first file with the given content says about itself. -/
def blockFirstEntry (filename : Text) (content : List Byte) :
    Except (Raised BlockFirstFormatError) (FileEntry (RawMetadata F)) := do
  let metadata ← unpackBlockFirstHeader backend.header (content.take headerSize)
  backend.checkBlockFirst filename content.length metadata

/-- `_read_block_first_metadata`: the index afterwards and the result. -/
def readBlockFirstMetadata [DecidableEq Key] (key : Key) (filename subdirKey : Text)
    (content : List Byte) (index : HotIndex Key (RawMetadata F)) :
    HotIndex Key (RawMetadata F) × Except (Raised BlockFirstFormatError) (FileEntry (RawMetadata F)) :=
  match backend.blockFirstEntry filename content with
  | .error failure => (index, .error failure)
  | .ok entry => (index.put key subdirKey entry, .ok entry)

end ScanBackend

/-! ### The visits -/

/-- A regular file that a thread comes to: the names of its directories, its own
name and its content. -/
structure Visit where
  l1Dir : Text
  l2Dir : Text
  name : Text
  content : List Byte
  plain : slash ∉ name

structure ScanState (Key F : Type) [DecidableEq Key] where
  index : HotIndex Key (RawMetadata F)
  removed : List Text
  /-- the first-level directories whose threads have stopped -/
  stopped : List Text

namespace ScanBackend

variable [DecidableEq Key] (backend : ScanBackend Key F)

def ScanState.start : ScanState Key F := ⟨.empty, [], []⟩

/-- `fentry.path`. -/
def visitPath (visit : Visit) : Text :=
  join (join (join backend.xdsPath visit.l1Dir) visit.l2Dir) visit.name

/-- The key that a file name stands for, without the suffix of its layout. -/
def keyOfName (suffix name : Text) : Option Key :=
  backend.codec.fromString (backend.codec.unquote (name.take (name.length - suffix.length)))

/-- The file of a visit is of a key of this worker. -/
def ownKey (suffix name : Text) : Option Key :=
  (backend.keyOfName suffix name).filter fun key =>
    decide (backend.codec.workerId key = backend.worldId)

/-- What follows the result of a read: a declared exception is logged, another one
ends the thread. -/
def afterRead {Declared Result : Type} (state : ScanState Key F) (visit : Visit)
    (read : HotIndex Key (RawMetadata F) × Except (Raised Declared) Result) : ScanState Key F :=
  match read with
  | (index, .error (.builtin _)) =>
      { state with index := index, stopped := visit.l1Dir :: state.stopped }
  | (index, _) => { state with index := index }

/-- The body of the loops of `_scan_metadata_subdir`, for one file. -/
def scanFile (state : ScanState Key F) (visit : Visit) : ScanState Key F :=
  match classify visit.name with
  | .blockFirst =>
      if backend.blockFirstEnabled then
        match backend.ownKey blockFirstDataFileSuffix visit.name with
        | none => state
        | some key => afterRead state visit (backend.readBlockFirstMetadata key
            (backend.visitPath visit) (visit.l1Dir ++ visit.l2Dir) visit.content state.index)
      else state
  | .sidecar =>
      match backend.ownKey (dataFileSuffix ++ metadataFileSuffix) visit.name with
      | none => state
      | some key => afterRead state visit (readMetadata backend.sidecar backend.xdsBuffer key
          (backend.visitPath visit) (visit.l1Dir ++ visit.l2Dir) visit.content state.index)
  | .temporary | .data => state
  | .foreign => { state with removed := backend.visitPath visit :: state.removed }

variable {backend} {state : ScanState Key F} {visit : Visit}

theorem scanFile_blockFirst (blockFirst : classify visit.name = .blockFirst)
    (enabled : backend.blockFirstEnabled = true) : backend.scanFile state visit =
      (backend.ownKey blockFirstDataFileSuffix visit.name).elim state fun key =>
        afterRead state visit (backend.readBlockFirstMetadata key (backend.visitPath visit)
          (visit.l1Dir ++ visit.l2Dir) visit.content state.index) := by
  rw [scanFile, blockFirst]
  dsimp only
  rw [if_pos enabled]
  cases backend.ownKey blockFirstDataFileSuffix visit.name <;> rfl

theorem scanFile_sidecar (sidecar : classify visit.name = .sidecar) :
    backend.scanFile state visit =
      (backend.ownKey (dataFileSuffix ++ metadataFileSuffix) visit.name).elim state fun key =>
        afterRead state visit (readMetadata backend.sidecar backend.xdsBuffer key
          (backend.visitPath visit) (visit.l1Dir ++ visit.l2Dir) visit.content state.index) := by
  rw [scanFile, sidecar]
  dsimp only
  cases backend.ownKey (dataFileSuffix ++ metadataFileSuffix) visit.name <;> rfl

variable (backend)

/-- A thread comes to a file, in directories of the right name lengths. -/
def scanVisit (state : ScanState Key F) (visit : Visit) : ScanState Key F :=
  if visit.l1Dir ∈ state.stopped then state
  else if visit.l1Dir.length = dirSize ∧ visit.l2Dir.length = dirSize then
    backend.scanFile state visit
  else state

/-- A run of `_scan_metadata`. -/
def scanMetadata (state : ScanState Key F) (visits : List Visit) : ScanState Key F :=
  visits.foldl backend.scanVisit state

end ScanBackend

/-! ### A small backend -/

/-- Two keys, the second one with a short hash. -/
inductive SmallKey
  | long
  | short
deriving DecidableEq, Repr

/-- `vllm@m@1@0@4d2` and `vllm@m@1@0@c`. -/
def SmallKey.text : SmallKey → Text
  | .long => ['v', 'l', 'l', 'm', '@', 'm', '@', '1', '@', '0', '@', '4', 'd', '2']
  | .short => ['v', 'l', 'l', 'm', '@', 'm', '@', '1', '@', '0', '@', 'c']

def smallCodec : KeyCodec SmallKey where
  toString := SmallKey.text
  fromString := fun text =>
    if text = SmallKey.long.text then some .long
    else if text = SmallKey.short.text then some .short
    else none
  chunkHash := fun
    | .long => 1234
    | .short => 12
  workerId := fun _ => 0
  unquote := PercentCoding.unquote
  fromString_toString := fun key => by cases key <;> rfl
  unquote_quote := PercentCoding.unquote_quote

/-- A runtime with room for texts of 4 GiB, whose element counts are 64-bit
integers that wrap around. -/
def wrappingRuntime : Runtime where
  allocates := fun length => decide (length < 2 ^ 32)
  numel := fun shape =>
    if ∀ dim ∈ shape, dim < 2 ^ 63 then .ok (Int.bmod shape.prod (2 ^ 64))
    else .error .runtimeError
  structText := fun _ => ""
  allocates_small := fun length small => decide_eq_true (lt_of_le_of_lt small (by decide))
  numel_small := by
    intro shape dims fits
    rw [if_pos dims, Int.bmod_eq_of_le (by omega) (by omega)]

def smallEngine : EngineMetadata where
  identity := ⟨"m", 1, 0, 1, 1⟩
  blockSize := 2
  chunkSize := 2
  getShapes := fun _ => [[2, 1, 2, 1]]
  getDtypes := [.uint8]

def intValue : Value Empty → Except Builtin ℤ
  | .int number => .ok number
  | _ => .error .typeError

def smallBackend : ScanBackend SmallKey Empty where
  codec := smallCodec
  header := smallRuntime
  sidecar := wrappingRuntime
  torchSize := List.mapM intValue
  xdsPath := ['/', 'x', 'd', 's']
  blockFirstEnabled := true
  xdsBuffer := true
  engine := smallEngine
  signature := "86696b6621d7832c638a356b46deb4edfa9104b1fe189f91f5012d85cd920531"
  signature_computed := by
    rintro logicalShape dtype shapes dtypes
    cases shapes
    cases dtypes
    decide +kernel
  torchSize_ints := fun shape =>
    Checked.mapM_ok.mpr (List.forall₂_map_left_iff.mpr (List.forall₂_same.mpr fun _ _ => rfl))

end LMCacheHcu.Restart
