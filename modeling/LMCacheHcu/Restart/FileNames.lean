import LMCacheHcu.Foundation.PercentCoding

/-! # The names of the files of the XDS backend

The path of a data file from its key, the paths of the other files that a put
writes, and the classes into which the startup scan sorts the names it finds.
-/

namespace LMCacheHcu.Restart

open Text PercentCoding

def metadataFileSuffix : Text := ".metadata".toList

def dataFileSuffix : Text := ".kvdata".toList

def metadataFileSuffixTmp : Text := ".METADATA".toList

def dataFileSuffixTmp : Text := ".KVDATA".toList

def blockFirstDataFileSuffix : Text := ".block_first_v1.kvdata".toList

def blockFirstDataFileSuffixTmp : Text := ".BLOCK_FIRST_V1_TMP".toList

def dirSize : ℕ := 2

/-- `CacheEngineKey`, with the text form that file names are made of, and the
inverse of `quote`. `fromString` has no value where `from_string` raises. -/
structure KeyCodec (Key : Type) where
  toString : Key → Text
  fromString : Text → Option Key
  chunkHash : Key → ℤ
  workerId : Key → ℤ
  unquote : Text → Text
  fromString_toString : ∀ key, fromString (toString key) = some key
  unquote_quote : ∀ text, unquote (quote text) = text

/-- The result of `_key_to_path`. -/
structure KeyPath where
  path : Text
  subdirKey : Text
  l1Dir : Text
  l2Dir : Text
deriving DecidableEq

namespace KeyCodec

variable {Key : Type} (codec : KeyCodec Key)

/-- `str(key.chunk_hash)`. -/
def hashStr (key : Key) : Text := (ToString.toString (codec.chunkHash key)).toList

def l1Dir (key : Key) : Text := (codec.hashStr key).take dirSize

def l2Dir (key : Key) : Text := ((codec.hashStr key).drop dirSize).take dirSize

/-- The directory of the files of a key. -/
def directory (xdsPath : Text) (key : Key) : Text :=
  join (join xdsPath (codec.l1Dir key)) (codec.l2Dir key)

/-- The name of the data file of a key in a layout. -/
def fileName (key : Key) (blockFirst : Bool) : Text :=
  quote (codec.toString key) ++ if blockFirst then blockFirstDataFileSuffix else dataFileSuffix

/-- `_key_to_path`. -/
def keyToPath (xdsPath : Text) (key : Key) (blockFirst : Bool) : KeyPath where
  path := join (codec.directory xdsPath key) (codec.fileName key blockFirst)
  subdirKey := codec.l1Dir key ++ codec.l2Dir key
  l1Dir := codec.l1Dir key
  l2Dir := codec.l2Dir key

end KeyCodec

/-! ### The files of a put -/

/-- The temporary path of a data file of the legacy layout, for all writers. -/
def dataTmpPath (path : Text) : Text := replace dataFileSuffix dataFileSuffixTmp path

/-- The temporary path in `save_metadata`. -/
def metadataTmpPath (path tmp : Text) : Text :=
  replace dataFileSuffix dataFileSuffixTmp path ++ tmp

/-- The temporary path of a block-first file, for all writers. -/
def blockFirstTmpPath (path : Text) : Text := path ++ blockFirstDataFileSuffixTmp

/-- What a put may write for a key: the files of the legacy layout, then those of
the block-first layout. -/
inductive PutFile
  | data
  | dataTmp
  | sidecar
  | sidecarTmp
  | blockFirst
  | blockFirstTmp
deriving DecidableEq, Repr

namespace PutFile

variable {Key : Type} (codec : KeyCodec Key) (xdsPath : Text) (key : Key)

def path : PutFile → Text
  | .data => (codec.keyToPath xdsPath key false).path
  | .dataTmp => dataTmpPath (codec.keyToPath xdsPath key false).path
  | .sidecar => (codec.keyToPath xdsPath key false).path ++ metadataFileSuffix
  | .sidecarTmp => metadataTmpPath (codec.keyToPath xdsPath key false).path metadataFileSuffixTmp
  | .blockFirst => (codec.keyToPath xdsPath key true).path
  | .blockFirstTmp => blockFirstTmpPath (codec.keyToPath xdsPath key true).path

/-- The file that a file is renamed to; a final file is its own. -/
def final : PutFile → PutFile
  | .data | .dataTmp => .data
  | .sidecar | .sidecarTmp => .sidecar
  | .blockFirst | .blockFirstTmp => .blockFirst

end PutFile

/-! ### The classes of the scan -/

inductive NameClass
  | blockFirst
  | sidecar
  | temporary
  | data
  | foreign
deriving DecidableEq, Repr

def endsWith (name ending : Text) : Bool := ending.isSuffixOf name

/-- The tests of `_scan_metadata_subdir`, in their order. -/
def classify (name : Text) : NameClass :=
  if endsWith name blockFirstDataFileSuffix then .blockFirst
  else if endsWith name (dataFileSuffix ++ metadataFileSuffix) then .sidecar
  else if [dataFileSuffixTmp, metadataFileSuffixTmp, blockFirstDataFileSuffixTmp].any
      (endsWith name) then .temporary
  else if endsWith name dataFileSuffix then .data
  else .foreign

/-! ### Paths have two parts -/

section Paths

variable {Key : Type} (codec : KeyCodec Key)

theorem isDigit_or_minus_of_mem_toString {number : ℤ} {char : Char}
    (member : char ∈ (toString number).toList) : char.isDigit = true ∨ char = '-' := by
  have digits : ∀ {value : ℕ}, char ∈ (Nat.repr value).toList → char.isDigit = true := by
    intro value there
    rw [Nat.repr, String.toList_ofList] at there
    exact Nat.isDigit_of_mem_toDigits (by decide) (by decide) there
  cases number with
  | ofNat value => exact .inl (digits member)
  | negSucc value =>
      have there : char ∈ ("-" ++ Nat.repr (value + 1)).toList := member
      rw [String.toList_append, List.mem_append] at there
      rcases there with sign | digit
      · exact .inr (List.mem_singleton.mp sign)
      · exact .inl (digits digit)

theorem slash_not_mem_hashStr (key : Key) : slash ∉ codec.hashStr key := by
  intro member
  rcases isDigit_or_minus_of_mem_toString member with digit | minus
  · exact absurd digit (by decide)
  · exact absurd minus (by decide)

theorem slash_not_mem_l1Dir (key : Key) : slash ∉ codec.l1Dir key :=
  fun member => slash_not_mem_hashStr codec key (List.mem_of_mem_take member)

theorem slash_not_mem_l2Dir (key : Key) : slash ∉ codec.l2Dir key :=
  fun member => slash_not_mem_hashStr codec key (List.mem_of_mem_drop (List.mem_of_mem_take member))

theorem slash_not_mem_fileName (key : Key) (blockFirst : Bool) :
    slash ∉ codec.fileName key blockFirst := by
  rw [KeyCodec.fileName, List.mem_append, not_or]
  refine ⟨slash_not_mem_quote _, ?_⟩
  cases blockFirst <;> decide

/-- The path of a data file is its directory and its name. -/
theorem keyToPath_path (xdsPath : Text) (key : Key) (blockFirst : Bool) :
    (codec.keyToPath xdsPath key blockFirst).path =
      withSlash (codec.directory xdsPath key) ++ codec.fileName key blockFirst :=
  join_of_relative (slash_not_mem_fileName codec key blockFirst)

theorem toString_injective : Function.Injective codec.toString := by
  intro key other same
  have keys := congrArg codec.fromString same
  rw [codec.fromString_toString, codec.fromString_toString] at keys
  exact Option.some.inj keys

theorem quoted_injective : Function.Injective fun key => quote (codec.toString key) :=
  quote_injective.comp (toString_injective codec)

end Paths

end LMCacheHcu.Restart
