import LMCacheHcu.Gds.Scan

/-! # Any sidecar of the GDS backend

A sidecar that describes a tensor with a size that fits is indexed. No other
content is refused with the exception that the two callers handle: nothing raises
it, so each of them is left with an exception of the decoder, and the thread of
the scan ends there.
-/

namespace LMCacheHcu.Gds

open Storage Exceptions Python Text
open Restart (KeyPath Visit)

variable {Key F Format : Type}

/-- The entry has the size of its shape and dtype. -/
def DiskCacheMetadata.Consistent (floats : Floats F) (entry : DiskCacheMetadata F Format) : Prop :=
  entry.size.eq floats (.int (entry.shape.prod * entry.dtype.itemsize)) = true

/-! ### Sidecars that describe a tensor -/

section Decoding

variable (runtime : SidecarRuntime F Format)

/-- The document in the buffer has an object for the tensor, with the fields. -/
structure TensorFields (buffer : List Byte) (fields : List (String × Value F)) : Prop where
  prefixed : 8 ≤ buffer.length
  object : ∃ contents, runtime.loads (sidecarJson buffer) = .ok (.dict contents) ∧
    contents.lookup "kvcache" = some (.dict fields)

/-- Fields of the types that describe a tensor. -/
structure Describes (fields : List (String × Value F)) (info : SidecarInfo F Format) : Prop where
  shape : ∃ value, fields.lookup "shape" = some value ∧ runtime.torchSize value = .ok info.shape
  dtype : ∃ name, fields.lookup "dtype" = some (.text name) ∧ (info.dtype, name) ∈ torchDtypes
  offsets : ∃ items start stop first second,
    fields.lookup "data_offsets" = some (.list items) ∧ items[0]? = some start ∧
    items[1]? = some stop ∧ start.number? = some first ∧ stop.number? = some second ∧
    second.sub runtime.floats first = .ok info.nbytes
  fmt : ∃ value, fields.lookup "fmt" = some value ∧ runtime.memoryFormat value = .ok info.fmt
  extra : fields.lookup "__metadata__" = some info.extraMetadata

/-- **The condition.** The content has the fields of a tensor in the known
version, and the two offsets are as far apart as the tensor is long. -/
def SidecarIntact (content : List Byte) : Prop :=
  ∃ fields info, TensorFields runtime (content.take metadataMaxSize) fields ∧
    Describes runtime fields info ∧
    (∃ entries, info.extraMetadata = .dict entries ∧
      entries.lookup "lmcache_version" = some (.text metadataVersion)) ∧
    info.nbytes.eq runtime.floats (.int (info.shape.prod * info.dtype.itemsize)) = true

variable {runtime}

theorem dtypeOf_ok {value : Value F} {dtype : DType} :
    dtypeOf value = .ok dtype ↔ ∃ name, value = .text name ∧ (dtype, name) ∈ torchDtypes := by
  constructor
  · intro found
    cases value with
    | text name =>
        dsimp only [dtypeOf] at found
        cases present : torchDtypes.find? fun entry => entry.2 = name with
        | none =>
            rw [present] at found
            cases found
        | some entry =>
            rw [present] at found
            cases found
            have member := List.mem_of_find?_eq_some present
            have found := List.find?_some present
            have named : entry.2 = name := of_decide_eq_true found
            exact ⟨name, rfl, named ▸ member⟩
    | none | bool _ | int _ | float _ | list _ | dict _ => cases found
  · rintro ⟨name, rfl, member⟩
    simp only [torchDtypes, List.mem_cons, Prod.mk.injEq, List.not_mem_nil, or_false] at member
    rcases member with member | member | member | member | member | member | member | member |
      member | member | member | member | member | member <;>
      · obtain ⟨rfl, rfl⟩ := member
        rfl

/-- The buffers that are decoded. -/
theorem unpackMetadata_ok {buffer : List Byte} {info : SidecarInfo F Format} :
    unpackMetadata runtime buffer = .ok info ↔
      ∃ fields, TensorFields runtime buffer fields ∧ Describes runtime fields info := by
  unfold unpackMetadata
  simp only [Checked.check_ok, Checked.bind_ok, Checked.return_ok, Value.getItem_ok,
    Value.operand_ok, dtypeOf_ok, not_lt]
  constructor
  · rintro ⟨long, _, loaded, _, ⟨contents, rfl, object⟩, shape, ⟨fields, rfl, hasShape⟩, _,
      ⟨_, same, hasDtype⟩, offsets, ⟨_, same', hasOffsets⟩, _, ⟨_, same'', hasFmt⟩, fmt, decoded,
      stop, atOne, start, atZero, second, counts, first, counts', nbytes, difference, dtype,
      ⟨name, rfl, coded⟩, size, sized, extra, ⟨_, same''', hasExtra⟩, rfl⟩
    cases same
    cases same'
    cases same''
    cases same'''
    obtain ⟨items, rfl, present⟩ := Value.getIndex_number atOne counts
    obtain ⟨_, same, present'⟩ := Value.getIndex_number atZero counts'
    cases same
    exact ⟨fields, ⟨long, contents, loaded, object⟩, ⟨shape, hasShape, sized⟩,
      ⟨name, hasDtype, coded⟩,
      ⟨items, start, stop, first, second, hasOffsets, present', present, counts', counts,
        difference⟩, ⟨_, hasFmt, decoded⟩, hasExtra⟩
  · rintro ⟨fields, ⟨long, contents, loaded, object⟩, ⟨shape, hasShape, sized⟩,
      ⟨name, hasDtype, coded⟩, ⟨items, start, stop, first, second, hasOffsets, atZero, atOne,
        counts, counts', difference⟩, ⟨fmt, hasFmt, decoded⟩, hasExtra⟩
    have index {position : ℕ} {item : Value F} (present : items[position]? = some item) :
        (Value.list items).getIndex position = .ok item := by
      simp only [Value.getIndex, present]
    exact ⟨long, _, loaded, _, ⟨contents, rfl, object⟩, shape, ⟨fields, rfl, hasShape⟩, _,
      ⟨fields, rfl, hasDtype⟩, _, ⟨fields, rfl, hasOffsets⟩, fmt, ⟨fields, rfl, hasFmt⟩, _,
      decoded, stop, index atOne, start, index atZero, second, counts', first, counts, _,
      difference, _, ⟨name, rfl, coded⟩, _, sized, _, ⟨fields, rfl, hasExtra⟩, rfl⟩

theorem equals_version {value : Value F} :
    value.equals runtime.floats (.text metadataVersion) = true ↔ value = .text metadataVersion := by
  cases value with
  | text name =>
      rw [Value.equals_text, decide_eq_true_iff, Value.text.injEq]
  | none | bool _ | int _ | float _ | list _ | dict _ =>
      exact iff_of_false Bool.false_ne_true fun same => nomatch same

/-- The contents that are read. -/
theorem sidecarEntry_ok {filename : Text} {content : List Byte}
    {entry : DiskCacheMetadata F Format} :
    sidecarEntry runtime filename content = .ok entry ↔
      ∃ fields info, TensorFields runtime (content.take metadataMaxSize) fields ∧
        Describes runtime fields info ∧
        (∃ entries, info.extraMetadata = .dict entries ∧
          entries.lookup "lmcache_version" = some (.text metadataVersion)) ∧
        entry = ⟨removeSuffix metadataFileSuffix filename, info.nbytes, info.shape, info.dtype,
          info.fmt, none⟩ := by
  unfold sidecarEntry
  simp only [Checked.bind_ok, builtin_ok, unpackMetadata_ok, Value.getItem_ok, Checked.check_ok,
    Checked.return_ok, Bool.not_eq_false, equals_version]
  constructor
  · rintro ⟨info, ⟨fields, there, described⟩, _, ⟨entries, extra, version⟩, rfl, rfl⟩
    exact ⟨fields, info, there, described, ⟨entries, extra, version⟩, rfl⟩
  · rintro ⟨fields, info, there, described, ⟨entries, extra, version⟩, rfl⟩
    exact ⟨info, ⟨fields, there, described⟩, _, ⟨entries, extra, version⟩, rfl, rfl⟩

/-- Nothing raises the declared exception. -/
theorem sidecarEntry_ne_declared {filename : Text} {content : List Byte}
    {error : UnsupportedMetadataVersion} :
    sidecarEntry runtime filename content ≠ .error (.declared error) := by
  intro raised
  unfold sidecarEntry at raised
  cases unpacked : unpackMetadata runtime (content.take metadataMaxSize) with
  | error kind =>
      rw [unpacked] at raised
      cases raised
  | ok info =>
      rw [unpacked] at raised
      change (builtin (info.extraMetadata.getItem "lmcache_version") >>= _) = _ at raised
      cases found : info.extraMetadata.getItem "lmcache_version" with
      | error kind =>
          rw [found] at raised
          cases raised
      | ok version =>
          rw [found] at raised
          change (if _ then _ else _) = _ at raised
          split at raised <;> cases raised

end Decoding

/-! ### The two callers -/

section Guarantee

variable [DecidableEq Key]

/-- What a read may leave: the entry of the key, which is consistent or was there
before from a block-first file, or the index as it was. -/
def ReadSound (floats : Floats F) (key : Key) (before : HotCache Key F Format) :
    HotCache Key F Format ×
      Except (Raised UnsupportedMetadataVersion) (DiskCacheMetadata F Format) → Prop
  | (after, .ok entry) => after.find key = some entry ∧
      (entry.Consistent floats ∨ after = before ∧ entry.diskMetadata.isSome)
  | (after, .error (.declared _)) => after = before
  | (_, .error (.builtin _)) => False

/-- **The property.** Every read of a sidecar of the key with the content is
sound, no visit of a sidecar with the content stops the thread of its directory,
and `contains` returns when it comes to a sidecar of the key with the content. -/
structure SidecarContained (backend : GdsBackend Key F Format) (key : Key) (content : List Byte) :
    Prop where
  read : ∀ filename subdirKey cache, ReadSound backend.sidecar.floats key cache
    (readMetadata backend.sidecar key filename subdirKey content cache)
  scan : ∀ state (visit : Visit), backend.classify visit.name = .sidecar →
    visit.content = content → (backend.scanVisit state visit).stopped = state.stopped
  contains : ∀ (disk : GdsBackend.Disk) cache path, backend.keyToPath key false = .ok path →
    disk (path.path ++ metadataFileSuffix) = some content →
    (∀ blockFirst, backend.keyToPath key true = .ok blockFirst → disk blockFirst.path = none) →
    ∃ found, (backend.contains disk key cache).2 = .ok found

variable {backend : GdsBackend Key F Format} {key : Key} {content : List Byte}

theorem readMetadata_of_ok {runtime : SidecarRuntime F Format} {filename subdirKey : Text}
    {cache : HotCache Key F Format} {entry : DiskCacheMetadata F Format}
    (read : sidecarEntry runtime filename content = .ok entry) :
    readMetadata runtime key filename subdirKey content cache =
      ((cache.putLegacy key subdirKey entry).1, .ok (cache.putLegacy key subdirKey entry).2) := by
  unfold readMetadata
  rw [read]

omit [DecidableEq Key] in
/-- A content that is intact is read under every name. -/
theorem sidecarEntry_of_intact (intact : SidecarIntact backend.sidecar content) (filename : Text) :
    ∃ entry, sidecarEntry backend.sidecar filename content = .ok entry ∧
      entry.Consistent backend.sidecar.floats := by
  obtain ⟨fields, info, there, described, version, consistent⟩ := intact
  exact ⟨_, sidecarEntry_ok.mpr ⟨fields, info, there, described, version, rfl⟩, consistent⟩

theorem readSound_of_intact (intact : SidecarIntact backend.sidecar content)
    (filename subdirKey : Text) (cache : HotCache Key F Format) :
    ReadSound backend.sidecar.floats key cache
      (readMetadata backend.sidecar key filename subdirKey content cache) := by
  obtain ⟨entry, read, consistent⟩ := sidecarEntry_of_intact intact filename
  rw [readMetadata_of_ok read]
  rcases cache.putLegacy_cases key subdirKey entry with ⟨previous, found, kept, same⟩ | ⟨-, same⟩
  · rw [same]
    exact ⟨found, .inr ⟨rfl, kept⟩⟩
  · rw [same]
    exact ⟨HotCache.find_put .., .inl consistent⟩

/-- A thread goes on behind a sidecar that is read. -/
theorem stopped_of_intact {state : ScanState Key F Format} {visit : Visit}
    (sidecar : backend.classify visit.name = .sidecar)
    (intact : SidecarIntact backend.sidecar visit.content) :
    (backend.scanVisit state visit).stopped = state.stopped := by
  unfold GdsBackend.scanVisit
  split
  · rfl
  · split
    · unfold GdsBackend.scanFile
      rw [sidecar]
      dsimp only
      split
      · rfl
      · obtain ⟨entry, read, -⟩ := sidecarEntry_of_intact intact (backend.visitPath visit)
        rw [readMetadata_of_ok read]
        rfl
    · rfl

theorem contains_of_intact (intact : SidecarIntact backend.sidecar content)
    {disk : GdsBackend.Disk} {cache : HotCache Key F Format} {path : KeyPath}
    (named : backend.keyToPath key false = .ok path)
    (there : disk (path.path ++ metadataFileSuffix) = some content)
    (alone : ∀ blockFirst, backend.keyToPath key true = .ok blockFirst →
      disk blockFirst.path = none) :
    ∃ found, (backend.contains disk key cache).2 = .ok found := by
  have skipped : backend.tryBlockFirst disk key cache = (cache, .ok none) := by
    unfold GdsBackend.tryBlockFirst
    split
    · have quoted : ∃ blockFirst, backend.keyToPath key true = .ok blockFirst := ⟨_, rfl⟩
      obtain ⟨blockFirst, quoted⟩ := quoted
      simp only [quoted, alone blockFirst quoted]
    · rfl
  unfold GdsBackend.contains GdsBackend.tryToReadMetadata
  split
  · exact ⟨true, rfl⟩
  · obtain ⟨entry, read, -⟩ :=
      sidecarEntry_of_intact intact (path.path ++ metadataFileSuffix)
    rw [skipped]
    dsimp only
    unfold GdsBackend.tryLegacy
    rw [named]
    dsimp only
    rw [there]
    dsimp only
    rw [readMetadata_of_ok read]
    exact ⟨true, rfl⟩

/-- **Containment.** The property holds exactly for the contents that describe a
tensor in the known version with offsets as far apart as the tensor is long. -/
theorem sidecarRead_contained_iff (backend : GdsBackend Key F Format) (key : Key) (content : List Byte) :
    SidecarContained backend key content ↔ SidecarIntact backend.sidecar content := by
  constructor
  · intro contained
    have sound := contained.read [] [] .empty
    match read : sidecarEntry backend.sidecar [] content with
    | .ok entry =>
        have first : HotCache.empty.putLegacy key [] entry =
            (HotCache.empty.put key [] entry, entry) := rfl
        rw [readMetadata_of_ok read, first] at sound
        obtain ⟨fields, info, there, described, version, rfl⟩ := sidecarEntry_ok.mp read
        rcases sound.2 with consistent | ⟨-, blockFirst⟩
        · exact ⟨fields, info, there, described, version, consistent⟩
        · exact absurd blockFirst Bool.false_ne_true
    | .error (.declared error) => exact absurd read sidecarEntry_ne_declared
    | .error (.builtin kind) =>
        rw [readMetadata, read] at sound
        exact sound.elim
  · exact fun intact => ⟨readSound_of_intact intact,
      fun state visit sidecar same => stopped_of_intact sidecar (same ▸ intact),
      fun disk cache path named there alone => contains_of_intact intact named there alone⟩

/-- An empty sidecar, of a key `a/b`. -/
theorem not_sidecarContained_empty : ¬ SidecarContained (smallGds ['a', '/', 'b']) () [] := by
  intro contained
  have raised : sidecarEntry smallSidecarRuntime [] [] = .error (.builtin .structError) := rfl
  have sound := contained.read [] [] .empty
  change ReadSound _ _ _ (readMetadata smallSidecarRuntime _ _ _ _ _) at sound
  rw [readMetadata, raised] at sound
  exact sound

end Guarantee

end LMCacheHcu.Gds
