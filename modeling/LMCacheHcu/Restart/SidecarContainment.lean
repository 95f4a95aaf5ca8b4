import LMCacheHcu.Restart.Scan

/-! # Which sidecars the scan survives

`unpack_metadata` turns the errors of `struct` into its own exception. It does
not turn those that the dimension count and the dimensions can cause: the format
text is made before `struct` sees it, and the element count after.
-/

namespace LMCacheHcu.Restart

open Storage Exceptions

/-- A full header of the known version with the code of a dtype. -/
def KnownHeader (buffer : List Byte) : Prop :=
  sidecarHeaderSize ≤ buffer.length ∧ (sidecarHeader buffer).version = metadataVersion ∧
    (sidecarHeader buffer).dtIdx < torchDtypes.length

/-- The dimensions are in the buffer. -/
def FullShape (buffer : List Byte) : Prop :=
  sidecarHeaderSize + 8 * (sidecarHeader buffer).ndim ≤ buffer.length

/-- **The condition.** Behind a known header, the format text can be made, and
the element count of dimensions that are there is computed. Where that count
passes the size checks, the product of the dimensions does, too. -/
structure SidecarReadable (runtime : Runtime) (xdsBuffer : Bool) (buffer : List Byte) : Prop where
  format : KnownHeader buffer →
    (sidecarHeader buffer).ndim < 2 ^ 63 ∧ runtime.allocates (sidecarHeader buffer).ndim = true
  numel : KnownHeader buffer → FullShape buffer →
    ∃ numel, runtime.numel (sidecarShape buffer) = .ok numel ∧
      ∀ dtype, torchDtypes[(sidecarHeader buffer).dtIdx]? = some dtype →
        SizeFits xdsBuffer (sidecarHeader buffer).size (numel * dtype.itemsize) →
          SizeFits xdsBuffer (sidecarHeader buffer).size
            ((sidecarShape buffer).prod * dtype.itemsize)

/-! ### Decoding -/

section Decoding

variable {runtime : Runtime} {buffer : List Byte}

theorem shapeFormat_ok {ndim : ℕ} :
    runtime.shapeFormat ndim = .ok () ↔ ndim < 2 ^ 63 ∧ runtime.allocates ndim = true := by
  unfold Runtime.shapeFormat
  rw [Checked.check_ok, not_le]
  refine and_congr_right fun _ => ?_
  by_cases fits : runtime.allocates ndim = true
  · rw [if_pos fits]
    exact iff_of_true rfl fits
  · rw [if_neg fits]
    exact iff_of_false (fun returned => nomatch returned) fits

theorem shapeFormat_error {ndim : ℕ} {kind : Builtin}
    (raised : runtime.shapeFormat ndim = .error kind) : kind ≠ .structError := by
  unfold Runtime.shapeFormat at raised
  rintro rfl
  split at raised
  · cases raised
  · split at raised <;> cases raised

/-- Past the checks on the header the format text and the dimensions are left. -/
theorem decodeMetadata_of_known (known : KnownHeader buffer) {dtype : DType}
    (coded : torchDtypes[(sidecarHeader buffer).dtIdx]? = some dtype) :
    decodeMetadata runtime buffer =
      builtin (runtime.shapeFormat (sidecarHeader buffer).ndim) >>= fun _ =>
        builtin (unpackShape buffer (sidecarHeader buffer).ndim) >>= fun shape =>
          pure (shape, dtype, (sidecarHeader buffer).size) := by
  have full : unpackHeader buffer = .ok (sidecarHeader buffer) := if_neg (not_lt.mpr known.1)
  unfold decodeMetadata
  rw [full]
  change (if _ then _ else _) = _
  rw [if_neg (not_not.mpr known.2.1)]
  simp only [coded]

/-- An unknown header is refused, or is too short for `struct`. -/
theorem decodeMetadata_of_unknown (runtime : Runtime) (unknown : ¬ KnownHeader buffer) :
    decodeMetadata runtime buffer = .error (.builtin .structError) ∨
      ∃ error, decodeMetadata runtime buffer = .error (.declared error) := by
  unfold decodeMetadata unpackHeader
  by_cases short : buffer.length < sidecarHeaderSize
  · rw [if_pos short]
    exact .inl rfl
  · right
    rw [if_neg short]
    by_cases version : (sidecarHeader buffer).version = metadataVersion
    · have uncoded : torchDtypes[(sidecarHeader buffer).dtIdx]? = none :=
        List.getElem?_eq_none (not_lt.mp fun coded => unknown ⟨not_lt.mp short, version, coded⟩)
      refine ⟨⟨s!"bad dtype code {(sidecarHeader buffer).dtIdx}"⟩, ?_⟩
      change (if _ then _ else _) = _
      rw [if_neg (not_not.mpr version)]
      simp only [uncoded]
      rfl
    · exact ⟨_, if_pos version⟩

theorem exists_dtype (known : KnownHeader buffer) :
    ∃ dtype, torchDtypes[(sidecarHeader buffer).dtIdx]? = some dtype :=
  ⟨_, List.getElem?_eq_getElem known.2.2⟩

theorem contained_unpackMetadata :
    Contained (unpackMetadata runtime buffer) ↔
      (KnownHeader buffer → (sidecarHeader buffer).ndim < 2 ^ 63 ∧
        runtime.allocates (sidecarHeader buffer).ndim = true) := by
  unfold unpackMetadata
  simp only [contained_translate, decide_eq_true_eq]
  by_cases known : KnownHeader buffer
  · obtain ⟨dtype, coded⟩ := exists_dtype known
    rw [decodeMetadata_of_known known coded, forall_prop_of_true known, ← shapeFormat_ok]
    cases format : runtime.shapeFormat (sidecarHeader buffer).ndim with
    | error kind =>
        refine iff_of_false (fun caught => ?_) fun returned => nomatch returned
        exact shapeFormat_error format (caught kind rfl)
    | ok made =>
        refine iff_of_true (fun kind raised => ?_) rfl
        unfold unpackShape at raised
        split at raised <;> cases raised
        rfl
  · refine iff_of_true (fun kind raised => ?_) fun there => absurd there known
    rcases decodeMetadata_of_unknown runtime known with short | ⟨error, refused⟩
    · rw [short] at raised
      cases raised
      rfl
    · rw [refused] at raised
      cases raised

theorem unpackMetadata_ok {shape : List ℕ} {dtype : DType} {size : ℕ} :
    unpackMetadata runtime buffer = .ok (shape, dtype, size) ↔
      KnownHeader buffer ∧ torchDtypes[(sidecarHeader buffer).dtIdx]? = some dtype ∧
        runtime.shapeFormat (sidecarHeader buffer).ndim = .ok () ∧ FullShape buffer ∧
        shape = sidecarShape buffer ∧ size = (sidecarHeader buffer).size := by
  unfold unpackMetadata
  rw [translate_ok]
  by_cases known : KnownHeader buffer
  · obtain ⟨other, coded⟩ := exists_dtype known
    rw [decodeMetadata_of_known known coded, coded, Option.some.injEq, and_iff_right known]
    simp only [Checked.bind_ok, builtin_ok, Checked.return_ok, unpackShape, Checked.check_ok,
      not_lt, Prod.mk.injEq, Except.ok.injEq]
    constructor
    · rintro ⟨_, format, _, ⟨full, rfl⟩, rfl, rfl, rfl⟩
      exact ⟨rfl, format, full, rfl, rfl⟩
    · rintro ⟨rfl, format, full, rfl, rfl⟩
      exact ⟨(), format, _, ⟨full, rfl⟩, rfl, rfl, rfl⟩
  · refine iff_of_false (fun returned => ?_) fun all => known all.1
    rcases decodeMetadata_of_unknown runtime known with short | ⟨error, refused⟩
    · rw [short] at returned
      cases returned
    · rw [refused] at returned
      cases returned

end Decoding

/-! ### Reading -/

section Reading

variable {M : Type} {runtime : Runtime} {xdsBuffer : Bool} {filename : Text}

/-- The recorded size of an entry fits its shape and dtype. -/
def FileEntry.Consistent (xdsBuffer : Bool) (entry : FileEntry M) : Prop :=
  SizeFits xdsBuffer entry.size (entry.shape.prod * entry.dtype.itemsize)

theorem contained_checkMetadata {shape : List ℕ} {dtype : DType} {size : ℕ} :
    Contained (checkMetadata (M := M) runtime xdsBuffer filename shape dtype size) ↔
      ∃ numel, runtime.numel shape = .ok numel := by
  unfold checkMetadata
  rw [contained_builtin_bind]
  refine exists_congr fun numel => and_iff_left ?_
  exact contained_check.mpr fun _ => contained_check.mpr fun _ => contained_pure _

theorem checkMetadata_ok {shape : List ℕ} {dtype : DType} {size : ℕ} {entry : FileEntry M} :
    checkMetadata runtime xdsBuffer filename shape dtype size = .ok entry ↔
      ∃ numel, runtime.numel shape = .ok numel ∧
        SizeFits xdsBuffer size (numel * dtype.itemsize) ∧
        entry = ⟨Text.removeSuffix metadataFileSuffix filename, size, shape.map Int.ofNat, dtype,
          none⟩ := by
  unfold checkMetadata SizeFits
  simp only [Checked.bind_ok, builtin_ok, Checked.throw_bind, Checked.check_ok, Checked.return_ok,
    not_lt, not_and, not_not, and_assoc, eq_comm (a := entry)]

theorem prod_ofNat (shape : List ℕ) : (shape.map Int.ofNat).prod = (shape.prod : ℤ) :=
  (map_list_prod Int.ofNatHom shape).symm

/-- A content is read without an exception of Python when the format text and the
element count can be made. -/
theorem contained_sidecarEntry {content : List Byte} :
    Contained (sidecarEntry (M := M) runtime xdsBuffer filename content) ↔
      (KnownHeader (content.take metadataMaxSize) →
        (sidecarHeader (content.take metadataMaxSize)).ndim < 2 ^ 63 ∧
          runtime.allocates (sidecarHeader (content.take metadataMaxSize)).ndim = true) ∧
      (KnownHeader (content.take metadataMaxSize) → FullShape (content.take metadataMaxSize) →
        ∃ numel, runtime.numel (sidecarShape (content.take metadataMaxSize)) = .ok numel) := by
  unfold sidecarEntry
  rw [contained_bind, contained_unpackMetadata]
  refine and_congr_right fun format => ?_
  constructor
  · intro rest known full
    obtain ⟨dtype, coded⟩ := exists_dtype known
    have unpacked := unpackMetadata_ok.mpr
      ⟨known, coded, shapeFormat_ok.mpr (format known), full, rfl, rfl⟩
    exact contained_checkMetadata.mp (rest _ unpacked)
  · rintro counted ⟨shape, dtype, size⟩ unpacked
    obtain ⟨known, -, -, full, rfl, -⟩ := unpackMetadata_ok.mp unpacked
    exact contained_checkMetadata.mpr (counted known full)

theorem sidecarEntry_ok {content : List Byte} {entry : FileEntry M} :
    sidecarEntry runtime xdsBuffer filename content = .ok entry ↔
      ∃ dtype numel, KnownHeader (content.take metadataMaxSize) ∧
        torchDtypes[(sidecarHeader (content.take metadataMaxSize)).dtIdx]? = some dtype ∧
        runtime.shapeFormat (sidecarHeader (content.take metadataMaxSize)).ndim = .ok () ∧
        FullShape (content.take metadataMaxSize) ∧
        runtime.numel (sidecarShape (content.take metadataMaxSize)) = .ok numel ∧
        SizeFits xdsBuffer (sidecarHeader (content.take metadataMaxSize)).size
          (numel * dtype.itemsize) ∧
        entry = ⟨Text.removeSuffix metadataFileSuffix filename,
          (sidecarHeader (content.take metadataMaxSize)).size,
          (sidecarShape (content.take metadataMaxSize)).map Int.ofNat, dtype, none⟩ := by
  unfold sidecarEntry
  rw [Checked.bind_ok]
  constructor
  · rintro ⟨⟨shape, dtype, size⟩, unpacked, checked⟩
    obtain ⟨known, coded, format, full, rfl, rfl⟩ := unpackMetadata_ok.mp unpacked
    obtain ⟨numel, counted, fits, made⟩ := checkMetadata_ok.mp checked
    exact ⟨dtype, numel, known, coded, format, full, counted, fits, made⟩
  · rintro ⟨dtype, numel, known, coded, format, full, counted, fits, made⟩
    exact ⟨_, unpackMetadata_ok.mpr ⟨known, coded, format, full, rfl, rfl⟩,
      checkMetadata_ok.mpr ⟨numel, counted, fits, made⟩⟩

end Reading

/-! ### The scan -/

section Guarantee

variable {Key F : Type} [DecidableEq Key]

/-- What a read may leave: the entry of the key, which is consistent or was there
before from a block-first file, or the index as it was. -/
def ReadSound {M : Type} (xdsBuffer : Bool) (key : Key) (before : HotIndex Key M) :
    HotIndex Key M × Except (Raised UnsupportedMetadataVersion) (FileEntry M) → Prop
  | (after, .ok entry) => after.find key = some entry ∧
      (entry.Consistent xdsBuffer ∨ after = before ∧ entry.diskMetadata.isSome)
  | (after, .error (.declared _)) => after = before
  | (_, .error (.builtin _)) => False

/-- **The property.** Every read of a sidecar of the key with the content is
sound, and no visit of a sidecar with the content stops the thread of its
directory. -/
structure SidecarContained (backend : ScanBackend Key F) (key : Key) (content : List Byte) :
    Prop where
  read : ∀ filename subdirKey index, ReadSound backend.xdsBuffer key index
    (readMetadata (M := RawMetadata F) backend.sidecar backend.xdsBuffer key filename subdirKey
      content index)
  scan : ∀ state (visit : Visit), classify visit.name = .sidecar → visit.content = content →
    (backend.scanVisit state visit).stopped = state.stopped

/-- A thread goes on behind a read that is contained. -/
theorem stopped_afterRead {Declared Result : Type} {state : ScanState Key F} {visit : Visit}
    {read : HotIndex Key (RawMetadata F) × Except (Raised Declared) Result}
    (contained : Contained read.2) :
    (ScanBackend.afterRead state visit read).stopped = state.stopped := by
  obtain ⟨index, result⟩ := read
  match result with
  | .ok value => rfl
  | .error (.declared error) => rfl
  | .error (.builtin error) => exact absurd contained (not_contained error)

theorem contained_readMetadata {M : Type} {runtime : Runtime} {xdsBuffer : Bool} {key : Key}
    {filename subdirKey : Text} {content : List Byte} {index : HotIndex Key M} :
    Contained (readMetadata runtime xdsBuffer key filename subdirKey content index).2 ↔
      Contained (sidecarEntry (M := M) runtime xdsBuffer filename content) := by
  unfold readMetadata
  split
  · rename_i failure raised
    rw [raised]
  · rename_i entry returned
    rw [returned]
    exact iff_of_true (contained_ok _) (contained_ok _)

theorem stopped_scanVisit_sidecar (backend : ScanBackend Key F) {state : ScanState Key F}
    {visit : Visit} (sidecar : classify visit.name = .sidecar)
    (contained : ∀ filename, Contained (sidecarEntry (M := RawMetadata F) backend.sidecar
      backend.xdsBuffer filename visit.content)) :
    (backend.scanVisit state visit).stopped = state.stopped := by
  unfold ScanBackend.scanVisit
  split
  · rfl
  · split
    · unfold ScanBackend.scanFile
      rw [sidecar]
      dsimp only
      split
      · rfl
      · exact stopped_afterRead (contained_readMetadata.mpr (contained _))
    · rfl

theorem readMetadata_of_ok {M : Type} {runtime : Runtime} {xdsBuffer : Bool} {key : Key}
    {filename subdirKey : Text} {content : List Byte} {index : HotIndex Key M}
    {entry : FileEntry M}
    (read : sidecarEntry runtime xdsBuffer filename content = .ok entry) :
    readMetadata runtime xdsBuffer key filename subdirKey content index =
      ((index.putLegacy key subdirKey entry).1, .ok (index.putLegacy key subdirKey entry).2) := by
  rw [readMetadata, read]

/-- **Sidecars of any content.** The reads of a content are sound and the scan
goes on behind it exactly when the content is readable. -/
theorem sidecarContained_iff (backend : ScanBackend Key F) (key : Key) (content : List Byte) :
    SidecarContained backend key content ↔
      SidecarReadable backend.sidecar backend.xdsBuffer (content.take metadataMaxSize) := by
  constructor
  · intro contained
    have sound := contained.read [] [] .empty
    have raises : Contained (sidecarEntry (M := RawMetadata F) backend.sidecar
        backend.xdsBuffer [] content) := by
      intro kind raised
      rw [readMetadata, raised] at sound
      exact sound
    obtain ⟨format, counted⟩ := contained_sidecarEntry.mp raises
    refine ⟨format, fun known full => ?_⟩
    obtain ⟨numel, counts⟩ := counted known full
    refine ⟨numel, counts, fun dtype coded fits => ?_⟩
    -- The entry of an empty index is the one that was read.
    have read : sidecarEntry (M := RawMetadata F) backend.sidecar backend.xdsBuffer [] content =
        .ok _ := sidecarEntry_ok.mpr
      ⟨dtype, numel, known, coded, shapeFormat_ok.mpr (format known), full, counts, fits, rfl⟩
    rw [readMetadata_of_ok read] at sound
    rcases sound.2 with consistent | ⟨-, blockFirst⟩
    · have there : ((sidecarShape (content.take metadataMaxSize)).map Int.ofNat).prod =
          ((sidecarShape (content.take metadataMaxSize)).prod : ℤ) := prod_ofNat _
      rw [← there]
      exact consistent
    · exact absurd blockFirst Bool.false_ne_true
  · intro readable
    have contained (filename : Text) : Contained (sidecarEntry (M := RawMetadata F)
        backend.sidecar backend.xdsBuffer filename content) := by
      refine contained_sidecarEntry.mpr ⟨readable.format, fun known full => ?_⟩
      obtain ⟨numel, counts, -⟩ := readable.numel known full
      exact ⟨numel, counts⟩
    refine ⟨fun filename subdirKey index => ?_, fun state visit sidecar same =>
      stopped_scanVisit_sidecar backend sidecar fun filename => same ▸ contained filename⟩
    rcases (contained filename).cases with ⟨entry, read⟩ | ⟨error, refused⟩
    · rw [readMetadata_of_ok read]
      rcases index.putLegacy_cases key subdirKey entry with ⟨previous, found, kept, same⟩ | same
      · rw [same]
        exact ⟨found, .inr ⟨rfl, kept⟩⟩
      · rw [same]
        obtain ⟨dtype, numel, known, coded, format, full, counts, fits, rfl⟩ :=
          sidecarEntry_ok.mp read
        refine ⟨HotIndex.find_put .., .inl ?_⟩
        obtain ⟨other, counts', rest⟩ := readable.numel known full
        rw [counts, Except.ok.injEq] at counts'
        subst counts'
        unfold FileEntry.Consistent
        rw [prod_ofNat]
        exact rest dtype coded fits
    · rw [readMetadata, refused]
      rfl

/-- A header whose dimension count is no machine integer. -/
def uncountableSidecar : List Byte := LittleEndian.words 8 [1, 0, 0, 2 ^ 63]

theorem not_sidecarContained_uncountable :
    ¬ SidecarContained smallBackend .long uncountableSidecar := by
  intro contained
  have raised : sidecarEntry (M := RawMetadata Empty) wrappingRuntime true [] uncountableSidecar =
      .error (.builtin .overflowError) := by rfl
  have sound := contained.read [] [] .empty
  change ReadSound true _ _ (readMetadata wrappingRuntime true _ _ _ _ _) at sound
  rw [readMetadata, raised] at sound
  exact sound

end Guarantee

end LMCacheHcu.Restart
