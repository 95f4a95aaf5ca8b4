import LMCacheHcu.Gds.Sidecars
import LMCacheHcu.Restart.Scan

/-! # The files of the GDS backend

The path of a key in each layout, the startup scan, and `contains`, which looks
for the files of a key that the index does not have. A legacy name is the key with
its slashes replaced; a block-first name is the key in percent coding. The scan
has one thread for each first-level directory, and a thread that an exception
leaves stops.
-/

namespace LMCacheHcu.Gds

open Storage Exceptions Python Text PercentCoding
open Restart (KeyCodec KeyPath Visit endsWith)

variable {Key F Format : Type}

/-- `_DATA_FILE_SUFFIX`. -/
def dataFileSuffix : Text := ".kvcache.safetensors".toList

def wekaDataFileSuffix : Text := ".weka1".toList

def blockFirstDataFileSuffix : Text := ".block_first_v1.kvcache".toList

/-- The backend, as far as paths and the index go. The engine's own fields have a
signature. -/
structure GdsBackend (Key F Format : Type) where
  codec : KeyCodec Key
  header : HeaderRuntime F
  sidecar : SidecarRuntime F Format
  /-- `MemoryFormat.KV_2LTD` -/
  kv2ltd : Format
  gdsPath : Text
  /-- whether the file system is that of Weka -/
  weka : Bool
  blockFirstEnabled : Bool
  engine : EngineMetadata
  /-- the engine's own `make_layout_signature` -/
  signature : String
  signature_computed : ∀ logicalShape dtype, engine.getShapes engine.chunkSize = [logicalShape] →
    engine.getDtypes = [dtype] →
    (header.dumps (Restart.engineLayout engine.identity logicalShape dtype engine.blockSize).value).map
      header.sha256 = .ok signature

namespace GdsBackend

variable (backend : GdsBackend Key F Format)

/-- `data_suffix`. -/
def dataSuffix : Text := if backend.weka then wekaDataFileSuffix else dataFileSuffix

/-! ### Paths -/

/-- The name of the data file of a key in a layout. -/
def fileName (key : Key) (blockFirst : Bool) : Except Builtin Text :=
  if blockFirst then .ok (quote (backend.codec.toString key) ++ blockFirstDataFileSuffix)
  else if '_' ∈ backend.codec.toString key then .error .assertionError
  else .ok (replace ['/'] ['_'] (backend.codec.toString key) ++ backend.dataSuffix)

/-- `_key_to_path`. -/
def keyToPath (key : Key) (blockFirst : Bool) : Except Builtin KeyPath := do
  let filename ← backend.fileName key blockFirst
  return ⟨join (backend.codec.directory backend.gdsPath key) filename,
    backend.codec.l1Dir key ++ backend.codec.l2Dir key, backend.codec.l1Dir key,
    backend.codec.l2Dir key⟩

/-! ### Block-first files -/

/-- `validate_runtime`, against the engine's one layer group. -/
def validateRuntime (metadata : RawMetadata F) (logicalShape : List ℕ) (dtype : DType) :
    Except (Raised BlockFirstFormatError) Unit := do
  metadata.validate backend.header
  if Value.equalItems backend.header.floats metadata.logicalShape
      ((logicalShape.map Int.ofNat).map .int) = false then
    formatError ("logical shape mismatch: " ++ backend.header.tupleText metadata.logicalShape ++
      " != " ++ tupleRepr (logicalShape.map Int.ofNat))
  else
    let recorded ← metadata.torchDtype
    if recorded ≠ dtype then
      formatError ("dtype mismatch: torch." ++ recorded.name ++ " != torch." ++ dtype.name)
    else if metadata.layoutSignature.equals backend.header.floats
        (.text backend.signature) = false then
      formatError "runtime layout signature mismatch"
    else return ()

/-- What a block-first file with the given content says about itself. -/
def blockFirstEntry (filename : Text) (content : List Byte) :
    Except (Raised BlockFirstFormatError) (DiskCacheMetadata F Format) := do
  let metadata ← unpackBlockFirstHeader backend.header (content.take headerSize)
  if metadata.validTokens.equals backend.header.floats (.int backend.engine.chunkSize) = false then
    formatError ("block_first_v1 file is not a complete LMCache chunk: " ++
      backend.header.str metadata.validTokens ++ s!"/{backend.engine.chunkSize} tokens")
  else
    match backend.engine.getShapes backend.engine.chunkSize, backend.engine.getDtypes with
    | [logicalShape], [dtype] =>
        backend.validateRuntime metadata logicalShape dtype
        let ioNbytes ← builtin metadata.ioNbytes.operand
        let totalSize ← builtin ((Number.int blockFirstHeaderSize).add backend.header.floats ioNbytes)
        if (Number.int content.length).eq backend.header.floats totalSize = false then
          formatError ("block-first file size mismatch for " ++ String.ofList filename)
        else
          let shape ← builtin (backend.sidecar.torchSize (.list metadata.logicalShape))
          let recorded ← metadata.torchDtype
          return ⟨filename, totalSize, shape, recorded, backend.kv2ltd, some metadata⟩
    | _, _ => formatError "block_first_v1 requires exactly one active KV layer group"

variable [DecidableEq Key]

/-- `_read_block_first_metadata`: the index afterwards and the result. -/
def readBlockFirstMetadata (key : Key) (filename subdirKey : Text) (content : List Byte)
    (cache : HotCache Key F Format) :
    HotCache Key F Format × Except (Raised BlockFirstFormatError) (DiskCacheMetadata F Format) :=
  match backend.blockFirstEntry filename content with
  | .error failure => (cache, .error failure)
  | .ok entry => (cache.put key subdirKey entry, .ok entry)

/-! ### `contains` -/

/-- The files below the root, by their paths. -/
abbrev Disk := Text → Option (List Byte)

/-- The first part of `_try_to_read_metadata`: of the exceptions, those that it
declares and those of the file system are caught. -/
def tryBlockFirst (disk : Disk) (key : Key) (cache : HotCache Key F Format) :
    HotCache Key F Format × Except Builtin (Option (DiskCacheMetadata F Format)) :=
  if backend.blockFirstEnabled then
    match backend.keyToPath key true with
    | .error kind => (cache, .error kind)
    | .ok path =>
        match disk path.path with
        | none => (cache, .ok none)
        | some content =>
            match backend.readBlockFirstMetadata key path.path path.subdirKey content cache with
            | (after, .ok entry) => (after, .ok (some entry))
            | (after, .error (.declared _)) => (after, .ok none)
            | (after, .error (.builtin kind)) => (after, .error kind)
  else (cache, .ok none)

/-- The second part of `_try_to_read_metadata`. -/
def tryLegacy (disk : Disk) (key : Key) (cache : HotCache Key F Format) :
    HotCache Key F Format × Except Builtin (Option (DiskCacheMetadata F Format)) :=
  match backend.keyToPath key false with
  | .error kind => (cache, .error kind)
  | .ok path =>
      match disk (path.path ++ metadataFileSuffix) with
      | none => (cache, .ok none)
      | some content =>
          match readMetadata backend.sidecar key (path.path ++ metadataFileSuffix) path.subdirKey
              content cache with
          | (after, .ok entry) => (after, .ok (some entry))
          | (after, .error (.declared _)) => (after, .ok none)
          | (after, .error (.builtin kind)) => (after, .error kind)

/-- `_try_to_read_metadata`. -/
def tryToReadMetadata (disk : Disk) (key : Key) (cache : HotCache Key F Format) :
    HotCache Key F Format × Except Builtin (Option (DiskCacheMetadata F Format)) :=
  match backend.tryBlockFirst disk key cache with
  | (after, .ok none) => backend.tryLegacy disk key after
  | result => result

/-- `contains`. -/
def contains (disk : Disk) (key : Key) (cache : HotCache Key F Format) :
    HotCache Key F Format × Except Builtin Bool :=
  if (cache.find key).isSome then (cache, .ok true)
  else
    match backend.tryToReadMetadata disk key cache with
    | (after, .ok entry) => (after, .ok entry.isSome)
    | (after, .error kind) => (after, .error kind)

end GdsBackend

/-! ### The scan -/

/-- The classes into which the scan sorts the names of files. -/
inductive NameClass
  | blockFirst
  | sidecar
  | other
deriving DecidableEq, Repr

structure ScanState (Key F Format : Type) [DecidableEq Key] where
  cache : HotCache Key F Format
  /-- the first-level directories whose threads an exception has left -/
  stopped : List Text

namespace GdsBackend

variable [DecidableEq Key] (backend : GdsBackend Key F Format)

/-- `target_suffix`. -/
def targetSuffix : Text := backend.dataSuffix ++ metadataFileSuffix

/-- The tests of `_scan_metadata_subdir`, in their order. -/
def classify (name : Text) : NameClass :=
  if endsWith name blockFirstDataFileSuffix then .blockFirst
  else if endsWith name backend.targetSuffix then .sidecar
  else .other

/-- The exceptions of the language that are a `ValueError`. -/
def isValueError : Builtin → Bool
  | .valueError | .unicodeDecodeError | .unicodeEncodeError | .jsonDecodeError => true
  | _ => false

/-- The key of a block-first name. -/
def keyOfBlockFirst (name : Text) : Option Key :=
  backend.codec.fromString
    (backend.codec.unquote (name.take (name.length - blockFirstDataFileSuffix.length)))

/-- The key of the name of a sidecar. -/
def keyOfSidecar (name : Text) : Option Key :=
  backend.codec.fromString
    (replace ['_'] ['/'] (name.take (name.length - backend.targetSuffix.length)))

/-- `fentry.path`. -/
def visitPath (visit : Visit) : Text :=
  join (join (join backend.gdsPath visit.l1Dir) visit.l2Dir) visit.name

/-- What follows a read: an exception that is not handled ends the thread. -/
def afterRead {Declared Result : Type} (handled : Builtin → Bool) (state : ScanState Key F Format)
    (visit : Visit)
    (read : HotCache Key F Format × Except (Raised Declared) Result) : ScanState Key F Format :=
  match read with
  | (cache, .error (.builtin kind)) =>
      if handled kind then { state with cache := cache }
      else ⟨cache, visit.l1Dir :: state.stopped⟩
  | (cache, _) => { state with cache := cache }

/-- The body of the loops of `_scan_metadata_subdir`, for one file. -/
def scanFile (state : ScanState Key F Format) (visit : Visit) : ScanState Key F Format :=
  match backend.classify visit.name with
  | .blockFirst =>
      if backend.blockFirstEnabled then
        match backend.keyOfBlockFirst visit.name with
        | none => state
        | some key => afterRead isValueError state visit (backend.readBlockFirstMetadata key
            (backend.visitPath visit) (visit.l1Dir ++ visit.l2Dir) visit.content state.cache)
      else state
  | .sidecar =>
      match backend.keyOfSidecar visit.name with
      | none => state
      | some key => afterRead (fun _ => false) state visit (readMetadata backend.sidecar key
          (backend.visitPath visit) (visit.l1Dir ++ visit.l2Dir) visit.content state.cache)
  | .other => state

/-- A thread comes to a file, in directories of the right name lengths. -/
def scanVisit (state : ScanState Key F Format) (visit : Visit) : ScanState Key F Format :=
  if visit.l1Dir ∈ state.stopped then state
  else if visit.l1Dir.length = 2 ∧ visit.l2Dir.length = 2 then
    backend.scanFile state visit
  else state

/-- A run of `_scan_metadata`. -/
def scanMetadata (state : ScanState Key F Format) (visits : List Visit) :
    ScanState Key F Format :=
  visits.foldl backend.scanVisit state

end GdsBackend

/-! ### A small backend -/

/-- Keys of one text. -/
def namedCodec (text : Text) : KeyCodec Unit where
  toString := fun _ => text
  fromString := fun name => if name = text then some () else none
  chunkHash := fun _ => 1234
  workerId := fun _ => 0
  unquote := unquote
  fromString_toString := fun _ => if_pos rfl
  unquote_quote := unquote_quote

/-- The document of a tensor of four bytes. -/
def smallJson : List Byte :=
  (['{', '"', 'k', 'v', 'c', 'a', 'c', 'h', 'e', '"', ':', ' ', '{', '"', 'd', 't', 'y', 'p', 'e',
    '"', ':', ' ', '"', 'U', '8', '"', ',', ' ', '"', 's', 'h', 'a', 'p', 'e', '"', ':', ' ', '[',
    '2', ',', ' ', '1', ',', ' ', '2', ',', ' ', '1', ']', ',', ' ', '"', 'd', 'a', 't', 'a', '_',
    'o', 'f', 'f', 's', 'e', 't', 's', '"', ':', ' ', '[', '0', ',', ' ', '4', ']', ',', ' ', '"',
    'f', 'm', 't', '"', ':', ' ', '1', ',', ' ', '"', '_', '_', 'm', 'e', 't', 'a', 'd', 'a', 't',
    'a', '_', '_', '"', ':', ' ', '{', '"', 'l', 'm', 'c', 'a', 'c', 'h', 'e', '_', 'v', 'e', 'r',
    's', 'i', 'o', 'n', '"', ':', ' ', '"', '1', '"', '}', '}', '}'] : List Char).map
    fun char => UInt8.ofNat char.toNat

def smallDocument : Value Empty := document "U8" [2, 1, 2, 1] 4 1

def smallLoads (bytes : List Byte) : Except Builtin (Value Empty) :=
  if bytes = smallJson then .ok smallDocument else .error .jsonDecodeError

def smallDumps (value : Value Empty) : Except Builtin (List Byte) :=
  if value = smallDocument then .ok smallJson else .error .recursionError

def smallSize : Value Empty → Except Builtin (List ℤ)
  | .list items => items.mapM Restart.intValue
  | _ => .error .typeError

theorem smallDumps_smallDocument : smallDumps smallDocument = .ok smallJson := if_pos rfl

theorem smallDumps_ok {value : Value Empty} {bytes : List Byte}
    (dumped : smallDumps value = .ok bytes) : value = smallDocument ∧ bytes = smallJson := by
  rw [smallDumps] at dumped
  split at dumped
  · rename_i known
    exact ⟨known, (Except.ok.inj dumped).symm⟩
  · cases dumped

theorem smallLoads_dumps {value : Value Empty} {bytes : List Byte}
    (dumped : smallDumps value = .ok bytes) : smallLoads bytes = .ok value := by
  obtain ⟨rfl, rfl⟩ := smallDumps_ok dumped
  exact if_pos rfl

theorem smallDumps_trimmed {value : Value Empty} {bytes : List Byte}
    (dumped : smallDumps value = .ok bytes) : bytes.rdropWhile (· = blank) = bytes := by
  obtain ⟨rfl, rfl⟩ := smallDumps_ok dumped
  decide +kernel

theorem smallSize_ints (shape : List ℕ) :
    smallSize (.list ((shape.map Int.ofNat).map .int)) = .ok (shape.map Int.ofNat) :=
  Checked.mapM_ok.mpr (List.forall₂_map_left_iff.mpr (List.forall₂_same.mpr fun _ _ => rfl))

/-- A runtime that knows one document, and one memory format. -/
def smallSidecarRuntime : SidecarRuntime Empty Unit where
  floats := smallRuntime.floats
  loads := smallLoads
  dumps := smallDumps
  torchSize := smallSize
  memoryFormat := fun value => if value = .int 1 then .ok () else .error .valueError
  formatValue := fun _ => 1
  loads_dumps := fun _ _ _ _ _ => smallLoads_dumps
  dumps_trimmed := fun _ _ _ _ _ => smallDumps_trimmed
  torchSize_ints := fun shape _ => smallSize_ints shape
  memoryFormat_value := fun _ => if_pos rfl
  dumps_some := ⟨.uint8, "U8", (), smallJson, [2, 1, 2, 1], rfl, by decide, if_pos rfl,
    by decide +kernel⟩

/-- A backend whose keys have the given text. -/
def smallGds (text : Text) : GdsBackend Unit Empty Unit where
  codec := namedCodec text
  header := smallRuntime
  sidecar := smallSidecarRuntime
  kv2ltd := ()
  gdsPath := ['/', 'g', 'd', 's']
  weka := false
  blockFirstEnabled := false
  engine := Restart.smallEngine
  signature := Restart.smallBackend.signature
  signature_computed := Restart.smallBackend.signature_computed

end LMCacheHcu.Gds
