import LMCacheHcu.Gds.ScanRuns
import LMCacheHcu.Restart.WrittenChunks

/-! # The names of the GDS backend and a restart

A put gives its files names that the scan has to decode. The block-first names
are in percent coding. The legacy names replace the slash by an underscore, which
is undone only for keys without one; an assertion refuses the other keys, also in
`contains`. The two directories are slices of the hash, and a hash of fewer than
four characters gives names that the scan passes over.
-/

namespace LMCacheHcu.Gds

open Storage Exceptions Python Text PercentCoding RankedIndex
open Restart (KeyPath Visit WrittenChunk endsWith)

variable {Key F Format : Type}

/-! ### Puts -/

/-- A completed put in the legacy layout, with the sidecar that it wrote. -/
structure LegacyPut (backend : GdsBackend Key F Format) where
  key : Key
  path : KeyPath
  shape : List ℕ
  dtype : DType
  fmt : Format
  content : List Byte
  named : backend.keyToPath key false = .ok path
  packed : packMetadata backend.sidecar shape dtype fmt = .ok content
  dims_lt : ∀ dim ∈ shape, dim < 2 ^ 63

/-- A completed put of a complete chunk in the block-first layout. -/
structure BlockFirstPut (backend : GdsBackend Key F Format) where
  key : Key
  path : KeyPath
  chunk : WrittenChunk backend.header backend.engine
  enabled : backend.blockFirstEnabled = true
  named : backend.keyToPath key true = .ok path
  dims_lt : ∀ dim ∈ chunk.logicalShape, dim < 2 ^ 63

inductive Put (backend : GdsBackend Key F Format)
  | legacy (put : LegacyPut backend)
  | blockFirst (put : BlockFirstPut backend)

namespace Put

variable {backend : GdsBackend Key F Format}

def key : Put backend → Key
  | .legacy put => put.key
  | .blockFirst put => put.key

def isBlockFirst : Put backend → Bool
  | .legacy _ => false
  | .blockFirst _ => true

/-- The path of the data file. -/
def path : Put backend → KeyPath
  | .legacy put => put.path
  | .blockFirst put => put.path

/-- The entry that the files of the put describe. -/
def entry : Put backend → DiskCacheMetadata F Format
  | .legacy put => ⟨put.path.path, .int (put.shape.prod * put.dtype.itemsize),
      put.shape.map Int.ofNat, put.dtype, put.fmt, none⟩
  | .blockFirst put => ⟨put.path.path, .int (blockFirstHeaderSize + put.chunk.metadata.ioNbytes),
      put.chunk.logicalShape.map Int.ofNat, put.chunk.dtype, backend.kv2ltd,
      some put.chunk.metadata.raw⟩

def content : Put backend → List Byte
  | .legacy put => put.content
  | .blockFirst put => put.chunk.content

/-- The name of the file that describes the put. -/
def name : Put backend → Text
  | .legacy put => replace ['/'] ['_'] (backend.codec.toString put.key) ++ backend.targetSuffix
  | .blockFirst put => quote (backend.codec.toString put.key) ++ blockFirstDataFileSuffix

end Put

/-! ### Names -/

section Names

variable {backend : GdsBackend Key F Format}

/-- Another character and back. -/
theorem replace_back {old new : Char} {text : Text} (absent : new ∉ text) :
    replace [new] [old] (replace [old] [new] text) = text := by
  rw [replace_singleton, replace_singleton, List.map_map]
  refine (List.map_congr_left fun char member => ?_).trans (List.map_id text)
  by_cases same : char = old
  · rw [Function.comp_apply, if_pos same, if_pos rfl, id_eq, same]
  · have differ : char ≠ new := fun here => absent (here ▸ member)
    rw [Function.comp_apply, if_neg same, if_neg differ, id_eq]

theorem slash_not_mem_replace (text : Text) : slash ∉ replace ['/'] ['_'] text := by
  intro member
  rw [replace_singleton, List.mem_map] at member
  obtain ⟨char, -, same⟩ := member
  split at same
  · exact absurd same (by decide)
  · rename_i differ
    exact differ same

theorem slash_not_mem_dataSuffix : slash ∉ backend.dataSuffix := by
  unfold GdsBackend.dataSuffix
  split <;> decide

theorem slash_not_mem_targetSuffix : slash ∉ backend.targetSuffix := by
  rw [GdsBackend.targetSuffix, List.mem_append, not_or]
  exact ⟨slash_not_mem_dataSuffix, by decide⟩

/-- The paths that keys have in a layout. -/
theorem keyToPath_ok {key : Key} {blockFirst : Bool} {path : KeyPath} :
    backend.keyToPath key blockFirst = .ok path ↔
      ∃ filename, backend.fileName key blockFirst = .ok filename ∧
        path = ⟨join (backend.codec.directory backend.gdsPath key) filename,
          backend.codec.l1Dir key ++ backend.codec.l2Dir key, backend.codec.l1Dir key,
          backend.codec.l2Dir key⟩ := by
  unfold GdsBackend.keyToPath
  rw [Checked.bind_ok]
  simp only [Checked.return_ok, eq_comm (a := path)]

/-- The names that keys have in a layout. -/
theorem fileName_ok {key : Key} {blockFirst : Bool} {filename : Text} :
    backend.fileName key blockFirst = .ok filename ↔
      blockFirst = true ∧ filename = quote (backend.codec.toString key) ++ blockFirstDataFileSuffix ∨
      blockFirst = false ∧ '_' ∉ backend.codec.toString key ∧
        filename = replace ['/'] ['_'] (backend.codec.toString key) ++ backend.dataSuffix := by
  unfold GdsBackend.fileName
  cases blockFirst with
  | true =>
      rw [if_pos rfl, Except.ok.injEq, eq_comm]
      simp
  | false =>
      rw [if_neg (by decide), Checked.check_ok, Except.ok.injEq, eq_comm (b := filename)]
      simp

theorem slash_not_mem_fileName {key : Key} {blockFirst : Bool} {filename : Text}
    (named : backend.fileName key blockFirst = .ok filename) : slash ∉ filename := by
  rcases fileName_ok.mp named with ⟨-, rfl⟩ | ⟨-, -, rfl⟩
  · rw [List.mem_append, not_or]
    exact ⟨slash_not_mem_quote _, by decide⟩
  · rw [List.mem_append, not_or]
    exact ⟨slash_not_mem_replace _, slash_not_mem_dataSuffix⟩

/-- The names of one layout are those of one key. -/
theorem fileName_injective {first second : Key} {blockFirst : Bool} {filename : Text}
    (named : backend.fileName first blockFirst = .ok filename)
    (named' : backend.fileName second blockFirst = .ok filename) : first = second := by
  refine Restart.toString_injective backend.codec ?_
  rcases fileName_ok.mp named with ⟨layout, same⟩ | ⟨layout, plain, same⟩
  · rcases fileName_ok.mp named' with ⟨-, same'⟩ | ⟨layout', -⟩
    · exact quote_injective (List.append_cancel_right (same.symm.trans same'))
    · rw [layout] at layout'
      cases layout'
  · rcases fileName_ok.mp named' with ⟨layout', -⟩ | ⟨-, plain', same'⟩
    · rw [layout] at layout'
      cases layout'
    · rw [← replace_back plain, List.append_cancel_right (same.symm.trans same'),
        replace_back plain']

/-- Different keys have different paths in a layout. -/
theorem keyToPath_injective {first second : Key} {blockFirst : Bool} {path other : KeyPath}
    (named : backend.keyToPath first blockFirst = .ok path)
    (named' : backend.keyToPath second blockFirst = .ok other) (same : path.path = other.path) :
    first = second := by
  obtain ⟨filename, here, rfl⟩ := keyToPath_ok.mp named
  obtain ⟨filename', there, rfl⟩ := keyToPath_ok.mp named'
  dsimp only at same
  rw [join_of_relative (slash_not_mem_fileName here),
    join_of_relative (slash_not_mem_fileName there)] at same
  have parts := (append_inj_of_relative (slash_not_mem_fileName here)
    (slash_not_mem_fileName there)).mp same
  exact fileName_injective here (parts.2 ▸ there)

/-- The assertion. -/
theorem keyToPath_legacy_ok {key : Key} :
    (∃ path, backend.keyToPath key false = .ok path) ↔ '_' ∉ backend.codec.toString key := by
  simp [keyToPath_ok, fileName_ok]

end Names

/-! ### What the files of a put are read to -/

section Reading

variable {backend : GdsBackend Key F Format}

/-- Blanks behind a text that does not end with one. -/
theorem trim_padded {text : List Byte} (trimmed : text.rdropWhile (· = blank) = text) (count : ℕ) :
    (text ++ List.replicate count blank).rdropWhile (· = blank) = text := by
  induction count with
  | zero => rw [List.replicate_zero, List.append_nil, trimmed]
  | succ count ih =>
      rw [List.replicate_succ', ← List.append_assoc, List.rdropWhile_concat_pos _ _ _ (by decide), ih]

/-- The document of a packed sidecar. -/
theorem sidecarJson_packed {text : List Byte} (trimmed : text.rdropWhile (· = blank) = text)
    (fits : text.length ≤ metadataMaxSize - 8) :
    sidecarJson (LittleEndian.word 8 (metadataMaxSize - 8) ++
      (text ++ List.replicate (metadataMaxSize - 8 - text.length) blank)) = text := by
  have front : (LittleEndian.word 8 (metadataMaxSize - 8)).length = 8 :=
    LittleEndian.length_word _ _
  have value : LittleEndian.value (LittleEndian.word 8 (metadataMaxSize - 8)) =
      metadataMaxSize - 8 := LittleEndian.value_word (by decide)
  have length : (text ++ List.replicate (metadataMaxSize - 8 - text.length) blank).length =
      metadataMaxSize - 8 := by
    rw [List.length_append, List.length_replicate]
    omega
  rw [sidecarJson, List.drop_left' front, List.take_left' front, value,
    List.take_of_length_le length.le, trim_padded trimmed]

/-- What a packed sidecar is. -/
theorem packMetadata_ok {runtime : SidecarRuntime F Format} {shape : List ℕ} {dtype : DType}
    {fmt : Format} {content : List Byte} :
    packMetadata runtime shape dtype fmt = .ok content ↔
      ∃ name text, torchDtypes.lookup dtype = some name ∧
        runtime.dumps (document name (shape.map Int.ofNat) (shape.prod * dtype.itemsize)
          (runtime.formatValue fmt)) = .ok text ∧ text.length ≤ metadataMaxSize - 8 ∧
        content = LittleEndian.word 8 (metadataMaxSize - 8) ++
          (text ++ List.replicate (metadataMaxSize - 8 - text.length) blank) := by
  unfold packMetadata
  cases named : torchDtypes.lookup dtype with
  | none => simp
  | some name =>
      simp only [Checked.bind_ok, Checked.check_ok, Checked.return_ok, not_lt, Option.some.injEq]
      constructor
      · rintro ⟨text, dumped, fits, rfl⟩
        exact ⟨name, text, rfl, dumped, fits, rfl⟩
      · rintro ⟨_, text, rfl, dumped, fits, rfl⟩
        exact ⟨text, dumped, fits, rfl⟩

/-- A packed sidecar fills its room. -/
theorem length_packMetadata {runtime : SidecarRuntime F Format} {shape : List ℕ} {dtype : DType}
    {fmt : Format} {content : List Byte}
    (packed : packMetadata runtime shape dtype fmt = .ok content) :
    content.length = metadataMaxSize := by
  obtain ⟨_, text, _, _, fits, rfl⟩ := packMetadata_ok.mp packed
  have front : (LittleEndian.word 8 (metadataMaxSize - 8)).length = 8 :=
    LittleEndian.length_word _ _
  have limit : metadataMaxSize = 4096 := rfl
  rw [List.length_append, List.length_append, List.length_replicate, front]
  omega

/-- A packed sidecar is unpacked to what it was made of. -/
theorem unpackMetadata_packed {runtime : SidecarRuntime F Format} {shape : List ℕ} {dtype : DType}
    {fmt : Format} {content : List Byte}
    (packed : packMetadata runtime shape dtype fmt = .ok content)
    (dims_lt : ∀ dim ∈ shape, dim < 2 ^ 63) :
    unpackMetadata runtime content = .ok ⟨shape.map Int.ofNat, dtype,
      .int (shape.prod * dtype.itemsize), fmt,
      .dict [("lmcache_version", .text metadataVersion)]⟩ := by
  have length := length_packMetadata packed
  obtain ⟨name, text, coded, dumped, fits, rfl⟩ := packMetadata_ok.mp packed
  have json := sidecarJson_packed (runtime.dumps_trimmed _ _ _ _ _ dumped) fits
  have member : (dtype, name) ∈ torchDtypes := by
    obtain ⟨front, back, whole, -⟩ := List.lookup_eq_some_iff.mp coded
    rw [whole]
    exact List.mem_append_right front List.mem_cons_self
  refine unpackMetadata_ok.mpr ⟨tensorFields name (shape.map Int.ofNat)
    (shape.prod * dtype.itemsize) (runtime.formatValue fmt), ⟨?_, ?_⟩,
    ⟨⟨_, rfl, runtime.torchSize_ints shape dims_lt⟩, ⟨name, rfl, member⟩,
      ⟨_, .int 0, .int (shape.prod * dtype.itemsize), .int 0, .int (shape.prod * dtype.itemsize),
        rfl, rfl, rfl, rfl, rfl, ?_⟩, ⟨_, rfl, runtime.memoryFormat_value fmt⟩, rfl⟩⟩
  · rw [length]
    decide
  · rw [json]
    exact ⟨_, runtime.loads_dumps _ _ _ _ _ dumped, rfl⟩
  · exact congrArg (fun size => Except.ok (Number.int size)) (sub_zero _)

/-- A packed sidecar is read to what it was made of. -/
theorem sidecarEntry_packed {runtime : SidecarRuntime F Format} {shape : List ℕ} {dtype : DType}
    {fmt : Format} {content : List Byte}
    (packed : packMetadata runtime shape dtype fmt = .ok content)
    (dims_lt : ∀ dim ∈ shape, dim < 2 ^ 63) (filename : Text) :
    sidecarEntry runtime (filename ++ metadataFileSuffix) content =
      .ok ⟨filename, .int (shape.prod * dtype.itemsize), shape.map Int.ofNat, dtype, fmt, none⟩ := by
  have unpacked := unpackMetadata_packed packed dims_lt
  rw [unpackMetadata_ok] at unpacked
  obtain ⟨fields, there, described⟩ := unpacked
  refine sidecarEntry_ok.mpr ⟨fields, _, ?_, described, ⟨_, rfl, rfl⟩, ?_⟩
  · rwa [List.take_of_length_le (length_packMetadata packed).le]
  · rw [removeSuffix_append]

/-- Created metadata passes the checks against the engine that made it. -/
theorem validateRuntime_raw (chunk : WrittenChunk backend.header backend.engine) :
    backend.validateRuntime chunk.metadata.raw chunk.logicalShape chunk.dtype = .ok () := by
  have signed := chunk.signature_raw
    (backend.signature_computed chunk.logicalShape chunk.dtype chunk.shapes chunk.dtypes)
  unfold GdsBackend.validateRuntime
  rw [chunk.validate_raw, Checked.ok_bind, chunk.equalItems_raw, if_neg (by decide),
    chunk.torchDtype_raw, Checked.ok_bind, if_neg (not_not.mpr rfl), signed, if_neg (by decide)]
  rfl

/-- A written block-first file is read to what it was made of. -/
theorem blockFirstEntry_chunk (chunk : WrittenChunk backend.header backend.engine)
    (dims_lt : ∀ dim ∈ chunk.logicalShape, dim < 2 ^ 63) (filename : Text) :
    backend.blockFirstEntry filename chunk.content =
      .ok ⟨filename, .int (blockFirstHeaderSize + chunk.metadata.ioNbytes),
        chunk.logicalShape.map Int.ofNat, chunk.dtype, backend.kv2ltd,
        some chunk.metadata.raw⟩ := by
  have dims : backend.sidecar.torchSize (.list (chunk.metadata.raw (F := F)).logicalShape) =
      .ok (chunk.logicalShape.map Int.ofNat) := by
    rw [chunk.logicalShape_raw]
    exact backend.sidecar.torchSize_ints _ dims_lt
  have stored : (Number.int (chunk.content.length : ℤ)).eq backend.header.floats
      (.int (blockFirstHeaderSize + chunk.metadata.ioNbytes)) = true :=
    decide_eq_true chunk.length_content
  unfold GdsBackend.blockFirstEntry
  rw [chunk.unpack, Checked.ok_bind, chunk.validTokens_raw, if_neg (by decide), chunk.shapes,
    chunk.dtypes]
  dsimp only
  rw [validateRuntime_raw chunk]
  change (if (Number.int (chunk.content.length : ℤ)).eq backend.header.floats
      (.int (blockFirstHeaderSize + chunk.metadata.ioNbytes)) = false then _ else _) = _
  rw [stored, if_neg (by decide), dims, chunk.torchDtype_raw]
  rfl

end Reading

/-! ### The file of a put under the scan -/

namespace Put

variable {backend : GdsBackend Key F Format}

theorem slash_not_mem_name (put : Put backend) : slash ∉ put.name := by
  cases put with
  | legacy put =>
      rw [name, List.mem_append, not_or]
      exact ⟨slash_not_mem_replace _, slash_not_mem_targetSuffix⟩
  | blockFirst put =>
      rw [name, List.mem_append, not_or]
      exact ⟨slash_not_mem_quote _, by decide⟩

/-- The file that describes the put, where the writer put it. -/
def file (put : Put backend) : Visit where
  l1Dir := backend.codec.l1Dir put.key
  l2Dir := backend.codec.l2Dir put.key
  name := put.name
  content := put.content
  plain := put.slash_not_mem_name

/-- The scan comes to the directories of the put. -/
def Reached (put : Put backend) : Prop :=
  (backend.codec.l1Dir put.key).length = 2 ∧ (backend.codec.l2Dir put.key).length = 2

theorem reached_iff {put : Put backend} :
    put.Reached ↔ 4 ≤ (backend.codec.hashStr put.key).length := by
  have two : Restart.dirSize = 2 := rfl
  unfold Reached Restart.KeyCodec.l1Dir Restart.KeyCodec.l2Dir
  rw [List.length_take, List.length_take, List.length_drop, two]
  omega

theorem classify_blockFirst (text : Text) :
    backend.classify (text ++ blockFirstDataFileSuffix) = .blockFirst :=
  if_pos (List.isSuffixOf_iff_suffix.mpr (List.suffix_append _ _))

theorem classify_sidecar (text : Text) :
    backend.classify (text ++ backend.targetSuffix) = .sidecar := by
  have other : ¬ endsWith (text ++ backend.targetSuffix) blockFirstDataFileSuffix = true := by
    intro found
    have inner : ".kvcache".toList <:+ blockFirstDataFileSuffix := by decide
    have outer : metadataFileSuffix <:+ text ++ backend.targetSuffix := by
      rw [GdsBackend.targetSuffix, ← List.append_assoc]
      exact List.suffix_append _ _
    have both := inner.trans (List.isSuffixOf_iff_suffix.mp found)
    exact absurd (List.suffix_of_suffix_length_le both outer (by decide)) (by decide)
  exact (if_neg other).trans (if_pos (List.isSuffixOf_iff_suffix.mpr (List.suffix_append _ _)))

theorem classify_file (put : Put backend) :
    backend.classify put.file.name = if put.isBlockFirst then .blockFirst else .sidecar := by
  cases put with
  | blockFirst put => exact classify_blockFirst _
  | legacy put => exact classify_sidecar _

/-- A name without its ending. -/
theorem take_append_ending (text ending : Text) :
    (text ++ ending).take ((text ++ ending).length - ending.length) = text := by
  rw [List.length_append, Nat.add_sub_cancel, List.take_left]

theorem keyOfBlockFirst_quote (key : Key) :
    backend.keyOfBlockFirst (quote (backend.codec.toString key) ++ blockFirstDataFileSuffix) =
      some key := by
  rw [GdsBackend.keyOfBlockFirst, take_append_ending, backend.codec.unquote_quote,
    backend.codec.fromString_toString]

theorem keyOfSidecar_replace {key : Key} (plain : '_' ∉ backend.codec.toString key) :
    backend.keyOfSidecar (replace ['/'] ['_'] (backend.codec.toString key) ++
      backend.targetSuffix) = some key := by
  rw [GdsBackend.keyOfSidecar, take_append_ending, replace_back plain,
    backend.codec.fromString_toString]

/-- The path that the scan reads is that of the data file, with the suffix of a
sidecar. -/
theorem visitPath_file (put : Put backend) :
    backend.visitPath put.file = put.path.path ++
      if put.isBlockFirst then [] else metadataFileSuffix := by
  have joined : backend.visitPath put.file =
      withSlash (backend.codec.directory backend.gdsPath put.key) ++ put.name :=
    join_of_relative put.slash_not_mem_name
  rw [joined]
  cases put with
  | blockFirst put =>
      obtain ⟨filename, named, same⟩ := keyToPath_ok.mp put.named
      rcases fileName_ok.mp named with ⟨-, rfl⟩ | ⟨other, -⟩
      · change _ = put.path.path ++ []
        rw [same, List.append_nil]
        exact (join_of_relative (slash_not_mem_fileName named)).symm
      · cases other
  | legacy put =>
      obtain ⟨filename, named, same⟩ := keyToPath_ok.mp put.named
      rcases fileName_ok.mp named with ⟨other, -⟩ | ⟨-, -, rfl⟩
      · cases other
      · change _ = put.path.path ++ metadataFileSuffix
        rw [same]
        dsimp only
        rw [join_of_relative (slash_not_mem_fileName named), List.append_assoc, List.append_assoc]
        rfl

/-- The file of a block-first put is decoded to its key and entry. -/
theorem decoded_blockFirst (put : BlockFirstPut backend) :
    backend.keyOfBlockFirst (Put.blockFirst put).file.name = some put.key ∧
      backend.blockFirstEntry (backend.visitPath (Put.blockFirst put).file)
        (Put.blockFirst put).file.content = .ok (Put.blockFirst put).entry := by
  refine ⟨keyOfBlockFirst_quote put.key, ?_⟩
  rw [(Put.blockFirst put).visitPath_file]
  change backend.blockFirstEntry (put.path.path ++ []) put.chunk.content = _
  rw [List.append_nil, blockFirstEntry_chunk put.chunk put.dims_lt]
  rfl

/-- The sidecar of a legacy put is decoded to its key and entry. -/
theorem decoded_legacy (put : LegacyPut backend) :
    backend.keyOfSidecar (Put.legacy put).file.name = some put.key ∧
      sidecarEntry backend.sidecar (backend.visitPath (Put.legacy put).file)
        (Put.legacy put).file.content = .ok (Put.legacy put).entry := by
  refine ⟨keyOfSidecar_replace (keyToPath_legacy_ok.mp ⟨put.path, put.named⟩), ?_⟩
  rw [(Put.legacy put).visitPath_file]
  exact sidecarEntry_packed put.packed put.dims_lt put.path.path

/-- The record in the file of a put. -/
theorem record_file (put : Put backend) :
    backend.record put.file = if (backend.codec.l1Dir put.key).length = 2 ∧
        (backend.codec.l2Dir put.key).length = 2 then some (put.key, put.entry) else none := by
  unfold GdsBackend.record
  refine if_congr Iff.rfl ?_ rfl
  rw [put.classify_file]
  cases put with
  | blockFirst put =>
      obtain ⟨key, read⟩ := decoded_blockFirst put
      simp only [isBlockFirst, ↓reduceIte, put.enabled, key, read]
      rfl
  | legacy put =>
      obtain ⟨key, read⟩ := decoded_legacy put
      simp only [isBlockFirst, Bool.false_eq_true, ↓reduceIte, key, read]
      rfl

variable [DecidableEq Key]

/-- No thread stops at the file of a put. -/
theorem quiet_file (put : Put backend) : backend.Quiet put.file := by
  intro state
  unfold GdsBackend.scanVisit GdsBackend.scanFile
  rw [put.classify_file]
  split
  · rfl
  · split
    · cases put with
      | blockFirst put =>
          obtain ⟨key, read⟩ := decoded_blockFirst put
          simp only [isBlockFirst, ↓reduceIte, put.enabled, key,
            GdsBackend.readBlockFirstMetadata, read]
          rfl
      | legacy put =>
          obtain ⟨key, read⟩ := decoded_legacy put
          simp only [isBlockFirst, Bool.false_eq_true, ↓reduceIte, key, readMetadata, read]
          rfl
    · rfl

omit [DecidableEq Key] in
theorem rank_entry (put : Put backend) : put.entry.rank = put.isBlockFirst := by
  cases put <;> rfl

end Put

/-! ### The guarantee -/

section Guarantee

variable {backend : GdsBackend Key F Format}

/-- The files below the root at a restart, in the order in which the scan comes to
them: the ones that the last put of each key and layout left, and others that
describe no put. -/
structure Restarted (backend : GdsBackend Key F Format) (puts : List (Put backend))
    (visits : List Visit) : Prop where
  latest : ∀ put ∈ puts, ∀ other ∈ puts, put.key = other.key →
    put.isBlockFirst = other.isBlockFirst → put = other
  present : ∀ put ∈ puts, put.file ∈ visits
  described : ∀ visit ∈ visits, (∃ put ∈ puts, put.file = visit) ∨
    backend.classify visit.name = .other

/-- The files on disk with the names of descriptions are those of puts. -/
def Written (backend : GdsBackend Key F Format) (disk : GdsBackend.Disk) : Prop :=
  ∀ path content, disk path = some content →
    (∃ put : Put backend, backend.visitPath put.file = path ∧ put.content = content) ∨
      backend.classify (nameOf path) = .other

variable [DecidableEq Key]

/-- The index that a restarted backend scans together. -/
def reindexed (backend : GdsBackend Key F Format) (visits : List Visit) : HotCache Key F Format :=
  (backend.scanMetadata ⟨.empty, []⟩ visits).cache

/-- **The property.** `contains` returns, a put of the key in either layout has a
path that is of no other key, and a restart indexes the put with its path, and
nothing but puts. -/
structure PathsSound (backend : GdsBackend Key F Format) (key : Key) : Prop where
  contains : ∀ disk cache, Written backend disk →
    ∃ found, (backend.contains disk key cache).2 = .ok found
  stored : ∀ blockFirst, (blockFirst = true → backend.blockFirstEnabled = true) →
    ∃ path, backend.keyToPath key blockFirst = .ok path ∧ ∀ other otherPath, other ≠ key →
      backend.keyToPath other blockFirst = .ok otherPath → otherPath.path ≠ path.path
  reindexed : ∀ puts visits, Restarted backend puts visits → ∀ put ∈ puts, put.key = key →
    (put.isBlockFirst = true ∨
      ∀ other ∈ puts, other.key = key → other.isBlockFirst = false) →
    (reindexed backend visits).find key = some put.entry
  exact : ∀ puts visits, Restarted backend puts visits → ∀ entry,
    (Gds.reindexed backend visits).find key = some entry →
      ∃ put ∈ puts, put.key = key ∧ put.entry = entry

omit [DecidableEq Key] in
/-- The file under a path is of the layout of its name. -/
theorem Written.put {disk : GdsBackend.Disk} (written : Written backend disk) {path : Text}
    {content : List Byte} (there : disk path = some content)
    (named : backend.classify (nameOf path) ≠ .other) :
    ∃ put : Put backend, put.content = content ∧
      backend.classify (nameOf path) = if put.isBlockFirst then .blockFirst else .sidecar := by
  rcases written path content there with ⟨put, same, holds⟩ | other
  · have joined : backend.visitPath put.file =
        withSlash (backend.codec.directory backend.gdsPath put.key) ++ put.name :=
      join_of_relative put.slash_not_mem_name
    refine ⟨put, holds, ?_⟩
    rw [← same, joined, nameOf_append _ put.slash_not_mem_name]
    exact put.classify_file
  · exact absurd other named

omit [DecidableEq Key] in
theorem classify_blockFirst_path {key : Key} {path : KeyPath}
    (named : backend.keyToPath key true = .ok path) :
    backend.classify (nameOf path.path) = .blockFirst := by
  obtain ⟨filename, here, rfl⟩ := keyToPath_ok.mp named
  rw [join_of_relative (slash_not_mem_fileName here), nameOf_append _ (slash_not_mem_fileName here)]
  rcases fileName_ok.mp here with ⟨-, rfl⟩ | ⟨other, -⟩
  · exact Put.classify_blockFirst _
  · cases other

omit [DecidableEq Key] in
theorem classify_legacy_path {key : Key} {path : KeyPath}
    (named : backend.keyToPath key false = .ok path) :
    backend.classify (nameOf (path.path ++ metadataFileSuffix)) = .sidecar := by
  obtain ⟨filename, here, rfl⟩ := keyToPath_ok.mp named
  rcases fileName_ok.mp here with ⟨other, -⟩ | ⟨-, -, rfl⟩
  · cases other
  · have relative : slash ∉ replace ['/'] ['_'] (backend.codec.toString key) ++
        backend.dataSuffix ++ metadataFileSuffix := by
      rw [List.mem_append, not_or]
      exact ⟨slash_not_mem_fileName here, by decide⟩
    dsimp only
    rw [join_of_relative (slash_not_mem_fileName here), List.append_assoc (withSlash _),
      nameOf_append _ relative, List.append_assoc]
    exact Put.classify_sidecar _

/-- The first look, for a block-first file, returns. -/
theorem tryBlockFirst_returns {disk : GdsBackend.Disk} (written : Written backend disk) (key : Key)
    (cache : HotCache Key F Format) :
    ∃ after found, backend.tryBlockFirst disk key cache = (after, .ok found) := by
  unfold GdsBackend.tryBlockFirst
  split
  · cases named : backend.keyToPath key true with
    | error kind => cases named
    | ok path =>
        dsimp only
        cases there : disk path.path with
        | none => exact ⟨cache, none, rfl⟩
        | some content =>
            have layout := classify_blockFirst_path named
            obtain ⟨put, holds, same⟩ := written.put there (by rw [layout]; decide)
            rw [layout] at same
            cases put with
            | legacy put => cases same
            | blockFirst put =>
                have read := blockFirstEntry_chunk put.chunk put.dims_lt path.path
                rw [show put.chunk.content = content from holds] at read
                dsimp only
                unfold GdsBackend.readBlockFirstMetadata
                rw [read]
                exact ⟨_, _, rfl⟩
  · exact ⟨cache, none, rfl⟩

/-- The second look, for a sidecar, returns for a key that has a legacy path. -/
theorem tryLegacy_returns {disk : GdsBackend.Disk} (written : Written backend disk) {key : Key}
    (plain : '_' ∉ backend.codec.toString key) (cache : HotCache Key F Format) :
    ∃ after found, backend.tryLegacy disk key cache = (after, .ok found) := by
  obtain ⟨path, named⟩ := keyToPath_legacy_ok.mpr plain
  unfold GdsBackend.tryLegacy
  rw [named]
  dsimp only
  cases there : disk (path.path ++ metadataFileSuffix) with
  | none => exact ⟨cache, none, rfl⟩
  | some content =>
      have layout := classify_legacy_path named
      obtain ⟨put, holds, same⟩ := written.put there (by rw [layout]; decide)
      rw [layout] at same
      cases put with
      | blockFirst put => cases same
      | legacy put =>
          have read := sidecarEntry_packed put.packed put.dims_lt path.path
          rw [show put.content = content from holds] at read
          dsimp only
          unfold readMetadata
          rw [read]
          exact ⟨_, _, rfl⟩

theorem contains_returns {disk : GdsBackend.Disk} (written : Written backend disk) {key : Key}
    (plain : '_' ∉ backend.codec.toString key) (cache : HotCache Key F Format) :
    ∃ found, (backend.contains disk key cache).2 = .ok found := by
  obtain ⟨after, first, looked⟩ := tryBlockFirst_returns written key cache
  unfold GdsBackend.contains GdsBackend.tryToReadMetadata
  split
  · exact ⟨true, rfl⟩
  · rw [looked]
    cases first with
    | some entry => exact ⟨true, rfl⟩
    | none =>
        obtain ⟨last, second, found⟩ := tryLegacy_returns written plain after
        dsimp only
        rw [found]
        exact ⟨second.isSome, rfl⟩

/-- The highest records of a restart. -/
theorem isMax_reindexed {puts : List (Put backend)} {visits : List Visit}
    (restarted : Restarted backend puts visits) :
    IsMax DiskCacheMetadata.rank (visits.filterMap backend.record).reverse
      (reindexed backend visits).find := by
  have quiet : ∀ visit ∈ visits, backend.Quiet visit := by
    intro visit member
    rcases restarted.described visit member with ⟨put, -, rfl⟩ | other
    · exact put.quiet_file
    · intro state
      unfold GdsBackend.scanVisit GdsBackend.scanFile
      rw [other]
      split
      · rfl
      · split <;> rfl
  have running : (⟨.empty, []⟩ : ScanState Key F Format).stopped = [] := rfl
  have isMax := isMax_scanMetadata quiet running IsMax.nil
  rw [List.append_nil] at isMax
  exact isMax

omit [DecidableEq Key] in
/-- The records of a restart are those of the puts that the scan comes to. -/
theorem mem_records {puts : List (Put backend)} {visits : List Visit}
    (restarted : Restarted backend puts visits) {key : Key}
    {entry : DiskCacheMetadata F Format} :
    (key, entry) ∈ (visits.filterMap backend.record).reverse ↔
      ∃ put ∈ puts, put.Reached ∧ put.key = key ∧ put.entry = entry := by
  rw [List.mem_reverse, List.mem_filterMap]
  constructor
  · rintro ⟨visit, member, found⟩
    rcases restarted.described visit member with ⟨put, there, rfl⟩ | other
    · rw [put.record_file] at found
      split at found
      · rename_i reached
        cases found
        exact ⟨put, there, reached, rfl, rfl⟩
      · cases found
    · unfold GdsBackend.record at found
      rw [other] at found
      split at found <;> cases found
  · rintro ⟨put, there, reached, rfl, rfl⟩
    exact ⟨put.file, restarted.present put there, by rw [put.record_file]; exact if_pos reached⟩

/-- A put with long enough a hash is indexed. -/
theorem find_reindexed {puts : List (Put backend)} {visits : List Visit}
    (restarted : Restarted backend puts visits) {put : Put backend} (member : put ∈ puts)
    (reached : put.Reached)
    (preferred : put.isBlockFirst = true ∨
      ∀ other ∈ puts, other.key = put.key → other.isBlockFirst = false) :
    (reindexed backend visits).find put.key = some put.entry := by
  have unambiguous : Unambiguous DiskCacheMetadata.rank
      (visits.filterMap backend.record).reverse := by
    intro key first second here there same
    obtain ⟨one, member, -, rfl, rfl⟩ := (mem_records restarted).mp here
    obtain ⟨two, member', -, keys, rfl⟩ := (mem_records restarted).mp there
    rw [one.rank_entry, two.rank_entry] at same
    rw [restarted.latest one member two member' keys.symm same]
  refine (isMax_reindexed restarted).eq_some unambiguous
    ((mem_records restarted).mpr ⟨put, member, reached, rfl, rfl⟩) fun other there => ?_
  obtain ⟨second, member', -, keys, rfl⟩ := (mem_records restarted).mp there
  rw [put.rank_entry, second.rank_entry]
  rcases preferred with blockFirst | legacy
  · rw [blockFirst]
    exact Bool.le_true _
  · rw [legacy second member' keys]
    exact Bool.false_le _

/-- **Paths and restart.** The property holds exactly for the keys without an
underscore whose hash has at least four characters. -/
theorem pathsSound_iff (backend : GdsBackend Key F Format) (key : Key) :
    PathsSound backend key ↔
      '_' ∉ backend.codec.toString key ∧ 4 ≤ (backend.codec.hashStr key).length := by
  constructor
  · intro sound
    obtain ⟨path, named, -⟩ := sound.stored false fun layout => nomatch layout
    refine ⟨keyToPath_legacy_ok.mp ⟨path, named⟩, ?_⟩
    obtain ⟨dtype, name, fmt, text, shape, coded, dims_lt, dumped, fits⟩ :=
      backend.sidecar.dumps_some
    let put : Put backend := .legacy ⟨key, path, shape, dtype, fmt, _, named,
      packMetadata_ok.mpr ⟨name, text, coded, dumped, fits, rfl⟩, dims_lt⟩
    have restarted : Restarted backend [put] [put.file] :=
      { latest := by
          intro first here second there _ _
          rw [List.mem_singleton.mp here, List.mem_singleton.mp there]
        present := by
          intro first here
          rw [List.mem_singleton.mp here]
          exact List.mem_cons_self
        described := by
          intro visit here
          rw [List.mem_singleton.mp here]
          exact .inl ⟨put, List.mem_cons_self, rfl⟩ }
    have found := sound.reindexed [put] [put.file] restarted put List.mem_cons_self rfl
      (.inr fun other there _ => by rw [List.mem_singleton.mp there]; rfl)
    have origin := (isMax_reindexed restarted).origin key put.entry found
    obtain ⟨other, -, reached, same, -⟩ := (mem_records restarted).mp origin
    rw [← same]
    exact Put.reached_iff.mp reached
  · rintro ⟨plain, long⟩
    refine ⟨fun disk cache written => contains_returns written plain cache, fun blockFirst _ => ?_,
      fun puts visits restarted put member same preferred => ?_,
      fun puts visits restarted entry found => ?_⟩
    · have named : ∃ path, backend.keyToPath key blockFirst = .ok path := by
        cases blockFirst with
        | true => exact ⟨_, rfl⟩
        | false => exact keyToPath_legacy_ok.mpr plain
      obtain ⟨path, named⟩ := named
      exact ⟨path, named, fun other otherPath differ named' same =>
        differ (keyToPath_injective named' named same)⟩
    · subst same
      exact find_reindexed restarted member (Put.reached_iff.mpr long) preferred
    · obtain ⟨put, member, -, same⟩ :=
        (mem_records restarted).mp ((isMax_reindexed restarted).origin key entry found)
      exact ⟨put, member, same⟩

/-- `contains` raises for a key `a_b`, on an empty disk. -/
theorem not_pathsSound_underscore : ¬ PathsSound (smallGds ['a', '_', 'b']) () := by
  intro sound
  obtain ⟨found, returned⟩ := sound.contains (fun _ => none) .empty fun _ _ there => nomatch there
  have raised : ((smallGds ['a', '_', 'b']).contains (fun _ => none) () .empty).2 =
      .error .assertionError := rfl
  rw [raised] at returned
  cases returned

end Guarantee

end LMCacheHcu.Gds
