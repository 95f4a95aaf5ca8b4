import LMCacheHcu.Foundation.JsonText
import LMCacheHcu.Gds.PathCodec
import LMCacheHcu.Restart.Recovery

/-! # Round trips of the legacy sidecars

The XDS backend packs words, and delimits the shape by a count among them. The GDS
backend packs a JSON document with the keys as `pack_metadata` puts them, in UTF-8. A
decoded object is compared by the order of its keys.
-/

namespace LMCacheHcu.Gds

open Storage Exceptions Python Text
open Json (FloatText Plain PlainItems)

/-! ### The document as bytes -/

/-- `text.encode("utf-8")`. -/
def encode (text : Text) : List Byte := text.flatMap String.utf8EncodeChar

/-- `buffer.decode("utf-8")`. -/
def decode (buffer : List Byte) : Except Builtin Text :=
  match buffer.toByteArray.utf8Decode? with
  | some text => .ok text.toList
  | none => .error .unicodeDecodeError

theorem decode_encode (text : Text) : decode (encode text) = .ok text := by
  have back : (encode text).toByteArray.utf8Decode? = some text.toArray :=
    List.utf8Decode?_utf8Encode
  rw [decode, back]

variable {F Format : Type}

mutual

/-- The value with the entries of each object in the order of the keys. -/
def sortKeys : Value F → Value F
  | .list items => .list (sortItems items)
  | .dict entries =>
      .dict ((sortEntries entries).insertionSort fun first second => first.1 ≤ second.1)
  | .none => .none
  | .bool value => .bool value
  | .int value => .int value
  | .float value => .float value
  | .text value => .text value

def sortItems : List (Value F) → List (Value F)
  | [] => []
  | item :: items => sortKeys item :: sortItems items

def sortEntries : List (String × Value F) → List (String × Value F)
  | [] => []
  | (key, value) :: entries => (key, sortKeys value) :: sortEntries entries

end

/-- `tensor_meta`, as `pack_metadata` writes it down. -/
def tensorMeta (name : String) (shape : List ℤ) (nbytes fmt : ℤ) : Value F :=
  .dict [("dtype", .text name), ("shape", .list (shape.map .int)),
    ("data_offsets", .list [.int 0, .int nbytes]), ("fmt", .int fmt),
    ("__metadata__", .dict [("lmcache_version", .text metadataVersion)])]

/-- The keys of `tensor_meta`, in that order. -/
def writtenKeys : List String := ["dtype", "shape", "data_offsets", "fmt", "__metadata__"]

/-- The entries of an object in the order in which they are written down. -/
def writtenOrder (entries : List (String × Value F)) : List (String × Value F) :=
  writtenKeys.flatMap fun key => entries.filter fun entry => entry.1 = key

/-- The document with the entries of its objects as they are written down. -/
def written : Value F → Value F
  | .dict [(key, .dict entries)] => .dict [(key, .dict (writtenOrder entries))]
  | value => value

theorem written_document (name : String) (shape : List ℤ) (nbytes fmt : ℤ) :
    written (document name shape nbytes fmt : Value F) =
      .dict [("kvcache", tensorMeta name shape nbytes fmt)] := rfl

theorem sortItems_ints (numbers : List ℤ) :
    sortItems (numbers.map .int : List (Value F)) = numbers.map .int := by
  induction numbers with
  | nil => rfl
  | cons number numbers ih => rw [List.map_cons, sortItems, sortKeys, ih]

theorem sortKeys_written (name : String) (shape : List ℤ) (nbytes fmt : ℤ) :
    sortKeys (.dict [("kvcache", tensorMeta name shape nbytes fmt)] : Value F) =
      document name shape nbytes fmt := by
  simp only [tensorMeta, sortKeys, sortEntries, sortItems_ints, sortItems]
  simp +decide only [List.insertionSort, List.foldr, List.orderedInsert, document, tensorFields,
    if_true, if_false]

theorem plain_ints (numbers : List ℤ) : PlainItems (numbers.map .int : List (Value F)) := by
  induction numbers with
  | nil => trivial
  | cons number numbers ih => exact ⟨trivial, ih⟩

theorem plain_tensorMeta (name : String) (shape : List ℤ) (nbytes fmt : ℤ) :
    Plain (.dict [("kvcache", tensorMeta name shape nbytes fmt)] : Value F) := by
  have keys : writtenKeys.Nodup := by decide
  exact ⟨List.nodup_singleton _, ⟨keys, trivial, plain_ints shape, ⟨trivial, trivial, trivial⟩,
    trivial, ⟨List.nodup_singleton _, trivial, trivial⟩, trivial⟩, trivial⟩

/-! ### The runtime -/

/-- What the sidecar code uses of torch, of the enumeration of the memory formats, and of
the text form of floats. The value of some format has at most twenty digits. -/
structure SidecarLibraries (F Format : Type) where
  floats : Floats F
  floatText : FloatText F
  torchSize : Value F → Except Builtin (List ℤ)
  memoryFormat : Value F → Except Builtin Format
  formatValue : Format → ℤ
  torchSize_ints : ∀ shape : List ℕ, (∀ dim ∈ shape, dim < 2 ^ 63) →
    torchSize (.list ((shape.map Int.ofNat).map .int)) = .ok (shape.map Int.ofNat)
  memoryFormat_value : ∀ format, memoryFormat (.int (formatValue format)) = .ok format
  small_format : ∃ format, (formatValue format).natAbs < 10 ^ 20

section Runtime

variable (libraries : SidecarLibraries F Format)

/-- `json.loads(buffer.decode("utf-8"))`. -/
def jsonLoads (buffer : List Byte) : Except Builtin (Value F) := do
  let text ← decode buffer
  let value ← Json.loads libraries.floatText text
  return sortKeys value

/-- `json.dumps(meta).encode("utf-8")`. -/
def jsonDumps (document : Value F) : List Byte :=
  encode (Json.print libraries.floatText (written document))

theorem jsonLoads_jsonDumps (name : String) (shape : List ℤ) (nbytes fmt : ℤ) :
    jsonLoads libraries (jsonDumps libraries (document name shape nbytes fmt)) =
      .ok (document name shape nbytes fmt) := by
  rw [jsonLoads, jsonDumps, decode_encode, Checked.ok_bind, written_document,
    Json.loads_print _ _ (plain_tensorMeta name shape nbytes fmt), Checked.ok_bind,
    sortKeys_written]
  rfl

/-- A printed object ends with a brace. -/
theorem jsonDumps_trimmed (name : String) (shape : List ℤ) (nbytes fmt : ℤ) :
    (jsonDumps libraries (document name shape nbytes fmt)).rdropWhile (· = blank) =
      jsonDumps libraries (document name shape nbytes fmt) := by
  have brace : String.utf8EncodeChar '}' = [0x7d] := by decide
  rw [jsonDumps, written_document, Json.print, encode, ← List.cons_append, List.flatMap_append,
    List.flatMap_singleton, brace]
  exact List.rdropWhile_concat_neg _ _ _ (by decide)

theorem length_encode_le (text : Text) : (encode text).length ≤ 4 * text.length := by
  induction text with
  | nil => exact le_rfl
  | cons char text ih =>
      have size := char.utf8Size_le_four
      rw [encode, List.flatMap_cons, List.length_append, String.length_utf8EncodeChar, ← encode,
        List.length_cons]
      omega

theorem length_toDigits_le {number : ℕ} (small : number < 10 ^ 20) :
    (Nat.toDigits 10 number).length ≤ 20 :=
  (Nat.length_toDigits_le_iff (by decide) (by decide)).mpr small

theorem length_printInt_le {number : ℤ} (small : number.natAbs < 10 ^ 20) :
    (Json.printInt number).length ≤ 21 := by
  cases number with
  | ofNat number => exact (length_toDigits_le small).trans (by decide)
  | negSucc number => exact Nat.succ_le_succ (length_toDigits_le small)

/-- The document of a scalar has room. -/
theorem jsonDumps_some : ∃ dtype name format bytes, ∃ shape : List ℕ,
    torchDtypes.lookup dtype = some name ∧ (∀ dim ∈ shape, dim < 2 ^ 63) ∧
    (Except.ok (jsonDumps libraries (document name (shape.map Int.ofNat)
      (shape.prod * dtype.itemsize) (libraries.formatValue format))) : Except Builtin _) = .ok bytes ∧
    bytes.length ≤ metadataMaxSize - 8 := by
  obtain ⟨format, small⟩ := libraries.small_format
  refine ⟨.uint8, "U8", format, _, [], rfl, nofun, rfl, (length_encode_le _).trans ?_⟩
  have digits := length_printInt_le small
  have strings : ["kvcache", "dtype", "U8", "shape", "data_offsets", "fmt", "__metadata__",
      "lmcache_version", metadataVersion].map (fun text => (Json.printString text).length) =
        [9, 7, 4, 7, 14, 5, 14, 17, 3] := by decide
  have zeroOne : (Json.printInt 0).length = 1 ∧ (Json.printInt 1).length = 1 := by decide
  have limit : metadataMaxSize = 4096 := rfl
  simp only [List.map_cons, List.map_nil, List.cons.injEq] at strings
  obtain ⟨_, _, _, _, _, _, _, _, _, _⟩ := strings
  change 4 * (Json.print libraries.floatText (.dict [("kvcache",
    tensorMeta "U8" [] 1 (libraries.formatValue format))])).length ≤ _
  simp only [tensorMeta, Json.print, Json.printEntries, Json.printItems, List.map_nil,
    List.length_cons, List.length_append, List.length_nil]
  omega

/-- The runtime with Python's JSON. -/
def jsonRuntime : SidecarRuntime F Format where
  floats := libraries.floats
  loads := jsonLoads libraries
  dumps := fun document => .ok (jsonDumps libraries document)
  torchSize := libraries.torchSize
  memoryFormat := libraries.memoryFormat
  formatValue := libraries.formatValue
  loads_dumps := by
    rintro name shape nbytes fmt bytes ⟨⟩
    exact jsonLoads_jsonDumps libraries name shape nbytes fmt
  dumps_trimmed := by
    rintro name shape nbytes fmt bytes ⟨⟩
    exact jsonDumps_trimmed libraries name shape nbytes fmt
  torchSize_ints := libraries.torchSize_ints
  memoryFormat_value := libraries.memoryFormat_value
  dumps_some := jsonDumps_some libraries

end Runtime

/-! ### The round trips -/

/-- What `pack_metadata` reads of a tensor. Its dimensions are 64-bit integers. -/
structure PackedTensor where
  shape : List ℕ
  dtype : DType
  dims_lt : ∀ dim ∈ shape, dim < 2 ^ 63

/-- The number of bytes of the tensor. -/
def PackedTensor.nbytes (tensor : PackedTensor) : ℤ := tensor.shape.prod * tensor.dtype.itemsize

/-- The document has room in the sidecar. -/
def HasRoom (libraries : SidecarLibraries F Format) (tensor : PackedTensor) (fmt : Format) : Prop :=
  ∃ name, torchDtypes.lookup tensor.dtype = some name ∧
    (jsonDumps libraries (document name (tensor.shape.map Int.ofNat) tensor.nbytes
      (libraries.formatValue fmt))).length ≤ metadataMaxSize - 8

end LMCacheHcu.Gds
