import LMCacheHcu.Foundation.LittleEndian
import Mathlib.Data.List.AList
import LMCacheHcu.Foundation.PythonValues
import LMCacheHcu.Foundation.Text
import LMCacheHcu.Storage.HeaderBytes

/-! # The sidecars of the GDS backend

A sidecar is a JSON document behind its length, padded with blanks to 4096 bytes.
`_read_metadata` decodes it and puts an entry into the index. The decoder goes
through the length, the encoding, the syntax, the keys, the two offsets, an
enumeration and the table of dtypes, and each of them has exceptions of its own.
-/

namespace LMCacheHcu.Gds

open Storage Exceptions Python Text

def metadataFileSuffix : Text := ".metadata".toList

/-- `_METADATA_VERSION`, printed. -/
def metadataVersion : String := "1"

def metadataMaxSize : ℕ := 4096

/-- `torch_dtypes`, with the names of the safetensors format. -/
def torchDtypes : List (DType × String) :=
  [(.float16, "F16"), (.bfloat16, "BF16"), (.float32, "F32"), (.float64, "F64"), (.uint8, "U8"),
    (.uint16, "U16"), (.uint32, "U32"), (.uint64, "U64"), (.int8, "I8"), (.int16, "I16"),
    (.int32, "I32"), (.int64, "I64"), (.float8E4m3fn, "F8E4M3FN"), (.float8E5m2, "F8E5M2")]

/-- `torch_dtypes_inverse[name]`. A list and an object are not hashable. -/
def dtypeOf {F : Type} : Value F → Except Builtin DType
  | .text name =>
      match torchDtypes.find? fun entry => entry.2 = name with
      | some entry => .ok entry.1
      | none => .error .keyError
  | .list _ | .dict _ => .error .typeError
  | .none | .bool _ | .int _ | .float _ => .error .keyError

/-- `tensor_meta`, with the keys in order. -/
def tensorFields {F : Type} (name : String) (shape : List ℤ) (nbytes fmt : ℤ) :
    List (String × Value F) :=
  [("__metadata__", .dict [("lmcache_version", .text metadataVersion)]),
    ("data_offsets", .list [.int 0, .int nbytes]), ("dtype", .text name), ("fmt", .int fmt),
    ("shape", .list (shape.map .int))]

/-- The document of a tensor. -/
def document {F : Type} (name : String) (shape : List ℤ) (nbytes fmt : ℤ) : Value F :=
  .dict [("kvcache", .dict (tensorFields name shape nbytes fmt))]

/-- `UnsupportedMetadataVersion`. -/
structure UnsupportedMetadataVersion where
deriving DecidableEq, Repr

def blank : Byte := 0x20

/-- What the sidecar code uses of its libraries. `loads` is
`json.loads(text.decode("utf-8"))`, `dumps` is `json.dumps(meta).encode("utf-8")`,
`memoryFormat` is `MemoryFormat(value)`, and `torchSize` is `torch.Size(value)`. A
document that was dumped is loaded again, and does not end with a blank; that of
some tensor is dumped and has room. -/
structure SidecarRuntime (F Format : Type) where
  floats : Floats F
  loads : List Byte → Except Builtin (Value F)
  dumps : Value F → Except Builtin (List Byte)
  torchSize : Value F → Except Builtin (List ℤ)
  memoryFormat : Value F → Except Builtin Format
  formatValue : Format → ℤ
  loads_dumps : ∀ name shape nbytes fmt bytes, dumps (document name shape nbytes fmt) = .ok bytes →
    loads bytes = .ok (document name shape nbytes fmt)
  dumps_trimmed : ∀ name shape nbytes fmt bytes,
    dumps (document name shape nbytes fmt) = .ok bytes → bytes.rdropWhile (· = blank) = bytes
  torchSize_ints : ∀ shape : List ℕ, (∀ dim ∈ shape, dim < 2 ^ 63) →
    torchSize (.list ((shape.map Int.ofNat).map .int)) = .ok (shape.map Int.ofNat)
  memoryFormat_value : ∀ format, memoryFormat (.int (formatValue format)) = .ok format
  dumps_some : ∃ dtype name format bytes, ∃ shape : List ℕ, torchDtypes.lookup dtype = some name ∧
    (∀ dim ∈ shape, dim < 2 ^ 63) ∧ dumps (document name (shape.map Int.ofNat)
      (shape.prod * dtype.itemsize) (formatValue format)) = .ok bytes ∧
    bytes.length ≤ metadataMaxSize - 8

variable {F Format : Type} (runtime : SidecarRuntime F Format)

/-! ### The bytes -/

/-- `pack_metadata(tensor, fmt=fmt, lmcache_version=str(_METADATA_VERSION))`. -/
def packMetadata (shape : List ℕ) (dtype : DType) (fmt : Format) : Except Builtin (List Byte) :=
  match torchDtypes.lookup dtype with
  | none => .error .runtimeError
  | some name => do
      let strMeta ← runtime.dumps (document name (shape.map Int.ofNat)
        (shape.prod * dtype.itemsize) (runtime.formatValue fmt))
      if metadataMaxSize - 8 < strMeta.length then .error .assertionError
      else return LittleEndian.word 8 (metadataMaxSize - 8) ++
        (strMeta ++ List.replicate (metadataMaxSize - 8 - strMeta.length) blank)

/-- The text of the document in a sidecar. -/
def sidecarJson (buffer : List Byte) : List Byte :=
  ((buffer.drop 8).take (LittleEndian.value (buffer.take 8))).rdropWhile (· = blank)

/-- What `unpack_metadata` returns. -/
structure SidecarInfo (F Format : Type) where
  shape : List ℤ
  dtype : DType
  nbytes : Number F
  fmt : Format
  extraMetadata : Value F

/-- `unpack_metadata`. -/
def unpackMetadata (buffer : List Byte) : Except Builtin (SidecarInfo F Format) :=
  if buffer.length < 8 then .error .structError
  else do
    let contents ← runtime.loads (sidecarJson buffer)
    let tensorMeta ← contents.getItem "kvcache"
    let shape ← tensorMeta.getItem "shape"
    let dtypeStr ← tensorMeta.getItem "dtype"
    let dataOffsets ← tensorMeta.getItem "data_offsets"
    let fmt ← runtime.memoryFormat (← tensorMeta.getItem "fmt")
    let stop ← dataOffsets.getIndex 1
    let start ← dataOffsets.getIndex 0
    let nbytes ← (← stop.operand).sub runtime.floats (← start.operand)
    let dtype ← dtypeOf dtypeStr
    let size ← runtime.torchSize shape
    let extraMetadata ← tensorMeta.getItem "__metadata__"
    return ⟨size, dtype, nbytes, fmt, extraMetadata⟩

/-! ### The index -/

/-- `DiskCacheMetadata`, without the cached positions. -/
structure DiskCacheMetadata (F Format : Type) where
  path : Text
  size : Number F
  shape : List ℤ
  dtype : DType
  fmt : Format
  diskMetadata : Option (RawMetadata F)

/-- `hot_cache` and `metadata_dirs`. -/
structure HotCache (Key F Format : Type) [DecidableEq Key] where
  entries : AList fun _ : Key => DiskCacheMetadata F Format
  metadataDirs : Finset Text

namespace HotCache

variable {Key : Type} [DecidableEq Key]

def empty : HotCache Key F Format := ⟨∅, ∅⟩

variable (cache : HotCache Key F Format)

def find (key : Key) : Option (DiskCacheMetadata F Format) := cache.entries.lookup key

/-- `metadata_dirs.add(subdir_key)` and `hot_cache[key] = entry`. -/
def put (key : Key) (subdirKey : Text) (entry : DiskCacheMetadata F Format) :
    HotCache Key F Format :=
  ⟨cache.entries.insert key entry, insert subdirKey cache.metadataDirs⟩

/-- The region of `_read_metadata` under `hot_lock`: a block-first entry stays. -/
def putLegacy (key : Key) (subdirKey : Text) (entry : DiskCacheMetadata F Format) :
    HotCache Key F Format × DiskCacheMetadata F Format :=
  match cache.find key with
  | some previous =>
      if previous.diskMetadata.isSome then (cache, previous)
      else (cache.put key subdirKey entry, entry)
  | none => (cache.put key subdirKey entry, entry)

@[simp] theorem find_put (key : Key) (subdirKey : Text) (entry : DiskCacheMetadata F Format) :
    (cache.put key subdirKey entry).find key = some entry :=
  AList.lookup_insert cache.entries

theorem find_put_of_ne {key other : Key} (differ : other ≠ key) (subdirKey : Text)
    (entry : DiskCacheMetadata F Format) :
    (cache.put key subdirKey entry).find other = cache.find other :=
  AList.lookup_insert_ne differ

/-- Only a block-first entry of the key is left in the place of the legacy one. -/
theorem putLegacy_cases (key : Key) (subdirKey : Text) (entry : DiskCacheMetadata F Format) :
    (∃ previous, cache.find key = some previous ∧ previous.diskMetadata.isSome ∧
      cache.putLegacy key subdirKey entry = (cache, previous)) ∨
    (∀ previous, cache.find key = some previous → previous.diskMetadata.isSome = false) ∧
      cache.putLegacy key subdirKey entry = (cache.put key subdirKey entry, entry) := by
  unfold putLegacy
  cases present : cache.find key with
  | none => exact .inr ⟨(fun _ found => nomatch found), rfl⟩
  | some previous =>
      by_cases blockFirst : previous.diskMetadata.isSome = true
      · exact .inl ⟨previous, rfl, blockFirst, if_pos blockFirst⟩
      · refine .inr ⟨fun other same => ?_, if_neg blockFirst⟩
        rw [← Option.some.inj same]
        exact eq_false_of_ne_true blockFirst

end HotCache

/-! ### Reading a sidecar -/

/-- What a sidecar with the given content says about the file of its path. The
read stops at `_METADATA_MAX_SIZE`. -/
def sidecarEntry (filename : Text) (content : List Byte) :
    Except (Raised UnsupportedMetadataVersion) (DiskCacheMetadata F Format) := do
  let info ← builtin (unpackMetadata runtime (content.take metadataMaxSize))
  let version ← builtin (info.extraMetadata.getItem "lmcache_version")
  if version.equals runtime.floats (.text metadataVersion) = false then
    .error (.builtin .runtimeError)
  else return ⟨removeSuffix metadataFileSuffix filename, info.nbytes, info.shape, info.dtype, info.fmt,
    none⟩

/-- `_read_metadata`: the index afterwards and the result. -/
def readMetadata {Key : Type} [DecidableEq Key] (key : Key) (filename subdirKey : Text)
    (content : List Byte) (cache : HotCache Key F Format) :
    HotCache Key F Format ×
      Except (Raised UnsupportedMetadataVersion) (DiskCacheMetadata F Format) :=
  match sidecarEntry runtime filename content with
  | .error failure => (cache, .error failure)
  | .ok entry =>
      ((cache.putLegacy key subdirKey entry).1, .ok (cache.putLegacy key subdirKey entry).2)

end LMCacheHcu.Gds
