import LMCacheHcu.Restart.SidecarContainment

/-! # Which block-first files the scan survives

The scan catches `BlockFirstFormatError` and `OSError` around the reading of a
block-first file. A file whose reading raises neither stops its thread, and the
files behind it in the directory are not indexed.
-/

namespace LMCacheHcu.Restart

open Storage Exceptions Python

variable {Key F : Type}

/-! ### The header of a file -/

section Header

variable {runtime : HeaderRuntime F} {content : List Byte}

/-- The header is decoded from the first bytes alone. -/
theorem unpack_take :
    unpackBlockFirstHeader runtime (content.take headerSize) =
      unpackBlockFirstHeader runtime content := by
  by_cases long : headerSize ≤ content.length
  · have size : (content.take headerSize).length = headerSize := List.length_take_of_le long
    have magic : (content.take headerSize).take 8 = content.take 8 := by
      rw [List.take_take]
      rfl
    have field (offset : ℕ) (inside : offset + 4 ≤ headerSize) :
        ((content.take headerSize).drop offset).take 4 = (content.drop offset).take 4 := by
      rw [List.drop_take, List.take_take, min_eq_left (by omega)]
    have length : headerPayloadLength (content.take headerSize) = headerPayloadLength content :=
      congrArg LittleEndian.value (field 8 (by decide))
    have sum : headerChecksum (content.take headerSize) = headerChecksum content :=
      congrArg LittleEndian.value (field 12 (by decide))
    unfold unpackBlockFirstHeader
    rw [if_neg (not_lt.mpr size.ge), if_neg (not_lt.mpr long), magic, length, sum]
    by_cases short : maxHeaderPayload < headerPayloadLength content
    · rw [if_pos (Or.inr short), if_pos (Or.inr short)]
    · have payload : headerPayload (content.take headerSize) = headerPayload content := by
        have inside : headerPayloadLength content ≤ headerSize - headerPrefixSize := not_lt.mp short
        rw [headerPayload, length, List.drop_take, List.take_take, min_eq_left inside, headerPayload]
      rw [payload]
  · rw [List.take_of_length_le (by omega)]

theorem validate_ok_torchDtype {metadata : RawMetadata F}
    (valid : metadata.validate runtime = .ok ()) : ∃ dtype, metadata.torchDtype = .ok dtype := by
  unfold RawMetadata.validate at valid
  simp only [Checked.bind_ok] at valid
  obtain ⟨_, -, _, -, dtype, named, -⟩ := valid
  exact ⟨dtype, named⟩

end Header

/-! ### The entry of a file -/

section Entry

variable {backend : ScanBackend Key F} {content : List Byte}

/-- What the backend needs of valid metadata to make an entry: a stored size that
can be added to, and dimensions that torch takes. -/
structure EntryTyped (backend : ScanBackend Key F) (content : List Byte) : Prop where
  entry : HeaderIntact backend.header content →
    ∀ entries metadata logicalShape dtype,
      backend.header.loads (headerPayload content) = .ok (.dict entries) →
      RawMetadata.construct entries = .ok metadata →
      metadata.validTokens.equals backend.header.floats (.int backend.engine.chunkSize) = true →
      backend.engine.getShapes backend.engine.chunkSize = [logicalShape] →
      backend.engine.getDtypes = [dtype] →
      backend.validateRuntime metadata logicalShape dtype = .ok () →
      ∃ size total, metadata.ioNbytes.number? = some size ∧
        (Number.int blockFirstHeaderSize).add backend.header.floats size = .ok total ∧
        ((Number.int content.length).eq backend.header.floats total = true →
          ∃ shape, backend.torchSize metadata.logicalShape = .ok shape)

theorem contained_validateRuntime {metadata : RawMetadata F} {logicalShape : List ℕ}
    {dtype : DType} (valid : metadata.validate backend.header = .ok ()) :
    Contained (backend.validateRuntime metadata logicalShape dtype) := by
  obtain ⟨recorded, named⟩ := validate_ok_torchDtype valid
  unfold ScanBackend.validateRuntime
  rw [valid, Checked.ok_bind]
  refine contained_unless.mpr fun _ => ?_
  rw [named, Checked.ok_bind]
  exact contained_unless.mpr fun _ => contained_unless.mpr fun _ => contained_pure ()

theorem contained_checkBlockFirst {filename : Text} {size : ℕ} {metadata : RawMetadata F}
    (valid : metadata.validate backend.header = .ok ()) :
    Contained (backend.checkBlockFirst filename size metadata) ↔
      (metadata.validTokens.equals backend.header.floats (.int backend.engine.chunkSize) = true →
        ∀ logicalShape dtype, backend.engine.getShapes backend.engine.chunkSize = [logicalShape] →
          backend.engine.getDtypes = [dtype] →
          backend.validateRuntime metadata logicalShape dtype = .ok () →
          ∃ io total, metadata.ioNbytes.number? = some io ∧
            (Number.int blockFirstHeaderSize).add backend.header.floats io = .ok total ∧
            ((Number.int size).eq backend.header.floats total = true →
              ∃ shape, backend.torchSize metadata.logicalShape = .ok shape)) := by
  obtain ⟨recorded, named⟩ := validate_ok_torchDtype valid
  unfold ScanBackend.checkBlockFirst
  rw [contained_unless, Bool.not_eq_false]
  refine forall_congr' fun _ => ?_
  split
  · rename_i logicalShape dtype shapes dtypes
    rw [contained_bind, and_iff_right (contained_validateRuntime valid), shapes, dtypes]
    simp only [contained_builtin_bind, contained_unless, Value.operand_ok, Bool.not_eq_false,
      named, Checked.ok_bind, exists_and_left, contained_pure, and_true]
    constructor
    · intro rest shape' dtype' same same'
      cases same
      cases same'
      exact rest ()
    · exact fun rest _ checked => rest _ _ rfl rfl checked
  · rename_i other
    refine iff_of_true (contained_formatError _) fun logicalShape dtype shapes dtypes => ?_
    exact absurd dtypes (other logicalShape dtype shapes)

/-- A block-first file is read without an exception of Python exactly when its
header and its fields are typed. -/
theorem contained_blockFirstEntry {filename : Text} :
    Contained (backend.blockFirstEntry filename content) ↔
      HeaderTyped backend.header content ∧ EntryTyped backend content := by
  unfold ScanBackend.blockFirstEntry
  rw [unpack_take, contained_bind, contained_unpack]
  refine and_congr_right fun _ => ?_
  constructor
  · intro rest
    refine ⟨fun intact entries metadata logicalShape dtype decoded built tokens shapes dtypes
      checked => ?_⟩
    have valid : metadata.validate backend.header = .ok () := by
      unfold ScanBackend.validateRuntime at checked
      obtain ⟨_, valid, -⟩ := Checked.bind_ok.mp checked
      exact valid
    have unpacked := unpack_ok.mpr ⟨intact, ⟨entries, decoded, built⟩, valid⟩
    exact (contained_checkBlockFirst valid).mp (rest metadata unpacked) tokens logicalShape dtype
      shapes dtypes checked
  · intro typed metadata unpacked
    obtain ⟨intact, ⟨entries, decoded, built⟩, valid⟩ := unpack_ok.mp unpacked
    exact (contained_checkBlockFirst valid).mpr fun tokens logicalShape dtype shapes dtypes =>
      typed.entry intact entries metadata logicalShape dtype decoded built tokens shapes dtypes

end Entry

/-! ### The scan -/

section Guarantee

variable [DecidableEq Key]

/-- A file that the scan indexes when its thread comes to it. -/
structure Visit.Indexes (backend : ScanBackend Key F) (visit : Visit) (key : Key)
    (entry : FileEntry (RawMetadata F)) : Prop where
  l1 : visit.l1Dir.length = dirSize
  l2 : visit.l2Dir.length = dirSize
  enabled : backend.blockFirstEnabled = true
  named : classify visit.name = .blockFirst
  own : backend.ownKey blockFirstDataFileSuffix visit.name = some key
  read : backend.blockFirstEntry (backend.visitPath visit) visit.content = .ok entry

/-- **The property.** The header decodes to metadata that passes its validation
or is refused, the reading of a file with the content raises nothing but the
declared exception, and a file that follows it is indexed. -/
structure HeaderContained (backend : ScanBackend Key F) (key : Key) (content : List Byte) :
    Prop where
  unpack : (∃ metadata, unpackBlockFirstHeader backend.header content = .ok metadata ∧
      metadata.validate backend.header = .ok ()) ∨
    ∃ error, unpackBlockFirstHeader backend.header content = .error (.declared error)
  read : ∀ filename subdirKey index,
    Contained (backend.readBlockFirstMetadata key filename subdirKey content index).2
  scan : ∀ state (visit : Visit), classify visit.name = .blockFirst → visit.content = content →
    (backend.scanVisit state visit).stopped = state.stopped
  next : ∀ state (visit later : Visit) other entry, classify visit.name = .blockFirst →
    visit.content = content → later.l1Dir ∉ state.stopped → later.Indexes backend other entry →
    (backend.scanMetadata state [visit, later]).index.find other = some entry

theorem contained_readBlockFirstMetadata {backend : ScanBackend Key F} {key : Key}
    {filename subdirKey : Text} {content : List Byte} {index : HotIndex Key (RawMetadata F)} :
    Contained (backend.readBlockFirstMetadata key filename subdirKey content index).2 ↔
      Contained (backend.blockFirstEntry filename content) := by
  unfold ScanBackend.readBlockFirstMetadata
  split
  · rename_i failure raised
    rw [raised]
  · rename_i entry returned
    rw [returned]

theorem stopped_scanVisit_blockFirst (backend : ScanBackend Key F) {state : ScanState Key F}
    {visit : Visit} (named : classify visit.name = .blockFirst)
    (contained : ∀ filename, Contained (backend.blockFirstEntry filename visit.content)) :
    (backend.scanVisit state visit).stopped = state.stopped := by
  unfold ScanBackend.scanVisit
  split
  · rfl
  · split
    · unfold ScanBackend.scanFile
      rw [named]
      dsimp only
      split
      · split
        · rfl
        · exact stopped_afterRead (contained_readBlockFirstMetadata.mpr (contained _))
      · rfl
    · rfl

/-- A file whose thread comes to it is indexed. -/
theorem Visit.Indexes.find_scanVisit {backend : ScanBackend Key F} {visit : Visit} {key : Key}
    {entry : FileEntry (RawMetadata F)} (indexes : visit.Indexes backend key entry)
    {state : ScanState Key F} (running : visit.l1Dir ∉ state.stopped) :
    (backend.scanVisit state visit).index.find key = some entry := by
  unfold ScanBackend.scanVisit ScanBackend.scanFile
  rw [if_neg running, if_pos ⟨indexes.l1, indexes.l2⟩, indexes.named]
  dsimp only
  rw [if_pos indexes.enabled, indexes.own]
  dsimp only
  rw [ScanBackend.readBlockFirstMetadata, indexes.read]
  exact HotIndex.find_put ..

end Guarantee

end LMCacheHcu.Restart
