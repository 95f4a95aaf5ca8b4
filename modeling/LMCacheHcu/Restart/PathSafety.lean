import LMCacheHcu.Restart.Scan

/-! # The paths of a put do not collide

All files of a put have the suffix of their kind, so two paths can only meet
within one kind, or where the name of a legacy file ends like that of a
block-first file. The temporary names come from a replacement over the whole
path, which can change the directory, and can make two keys meet.
-/

namespace LMCacheHcu.Restart

open Storage Exceptions Text PercentCoding

variable {Key : Type} (codec : KeyCodec Key)

/-- The quoted key, which is the name of its files without the suffix. -/
def KeyCodec.quoted (key : Key) : Text := quote (codec.toString key)

/-- **The property.** The files of two puts that differ in the key or in their
kind have different paths, a temporary file is in the directory of its final
file, and no scan removes one of these files. -/
structure PathsSafe (xdsPath : Text) (first second : Key) : Prop where
  distinct : ∀ file other : PutFile, (first, file) ≠ (second, other) →
    file.path codec xdsPath first ≠ other.path codec xdsPath second
  sameDirectory : ∀ file : PutFile, ∀ key ∈ [first, second],
    directoryOf (file.path codec xdsPath key) = directoryOf (file.final.path codec xdsPath key)
  kept : ∀ {F : Type} [DecidableEq Key] (backend : ScanBackend Key F) (state : ScanState Key F)
    (visits : List Visit) (file : PutFile), ∀ key ∈ [first, second],
    file.path codec xdsPath key ∈ (backend.scanMetadata state visits).removed →
      file.path codec xdsPath key ∈ state.removed

/-- Two different keys of one directory have names that stay different. -/
structure NamesApart (first second : Key) : Prop where
  legacy : replace dataFileSuffix dataFileSuffixTmp (codec.quoted first) ≠
    replace dataFileSuffix dataFileSuffixTmp (codec.quoted second)
  blockFirst : codec.quoted first ≠ codec.quoted second ++ ".block_first_v1".toList
  blockFirst' : codec.quoted second ≠ codec.quoted first ++ ".block_first_v1".toList

/-! ### Each file as a directory, a stem and an ending -/

namespace PutFile

/-- The end of the names of a kind of file. -/
def ending : PutFile → Text
  | .data | .blockFirst => dataFileSuffix
  | .dataTmp => dataFileSuffixTmp
  | .sidecar => dataFileSuffix ++ metadataFileSuffix
  | .sidecarTmp => dataFileSuffixTmp ++ metadataFileSuffixTmp
  | .blockFirstTmp => blockFirstDataFileSuffixTmp

/-- The name of a file without its ending. -/
def stem (key : Key) : PutFile → Text
  | .data | .sidecar => codec.quoted key
  | .dataTmp | .sidecarTmp => replace dataFileSuffix dataFileSuffixTmp (codec.quoted key)
  | .blockFirst => codec.quoted key ++ ".block_first_v1".toList
  | .blockFirstTmp => codec.quoted key ++ blockFirstDataFileSuffix

/-- The directory that the path of a file names. -/
def folder (xdsPath : Text) (key : Key) : PutFile → Text
  | .dataTmp | .sidecarTmp =>
      replace dataFileSuffix dataFileSuffixTmp (withSlash (codec.directory xdsPath key))
  | _ => withSlash (codec.directory xdsPath key)

end PutFile

section Names

variable {codec} {xdsPath : Text} {key : Key}

theorem suffix_nonempty : dataFileSuffix ≠ [] := by decide

theorem slash_not_mem_suffix : slash ∉ dataFileSuffix := by decide

/-- The temporary name of a data file. -/
theorem replace_fileName :
    replace dataFileSuffix dataFileSuffixTmp (codec.fileName key false) =
      replace dataFileSuffix dataFileSuffixTmp (codec.quoted key) ++ dataFileSuffixTmp := by
  have head : '.' ∉ dataFileSuffix.tail := by decide
  exact replace_append_word head (codec.quoted key)

theorem fileName_blockFirst :
    codec.fileName key true =
      (codec.quoted key ++ ".block_first_v1".toList) ++ dataFileSuffix := by
  have parts : blockFirstDataFileSuffix = ".block_first_v1".toList ++ dataFileSuffix := by decide
  rw [KeyCodec.fileName, if_pos rfl, parts, List.append_assoc]
  rfl

theorem dataTmp_path :
    dataTmpPath (codec.keyToPath xdsPath key false).path =
      replace dataFileSuffix dataFileSuffixTmp (withSlash (codec.directory xdsPath key)) ++
        (replace dataFileSuffix dataFileSuffixTmp (codec.quoted key) ++ dataFileSuffixTmp) := by
  rw [dataTmpPath, keyToPath_path, replace_withSlash suffix_nonempty slash_not_mem_suffix,
    replace_fileName]

/-- Every path is its directory, its stem and its ending. -/
theorem path_eq (file : PutFile) :
    file.path codec xdsPath key =
      file.folder codec xdsPath key ++ (file.stem codec key ++ file.ending) := by
  cases file with
  | data => exact keyToPath_path codec xdsPath key false
  | dataTmp => exact dataTmp_path
  | sidecar =>
      rw [PutFile.path, keyToPath_path, List.append_assoc]
      exact congrArg _ (List.append_assoc _ _ _)
  | sidecarTmp =>
      have same : PutFile.path codec xdsPath key .sidecarTmp =
          dataTmpPath (codec.keyToPath xdsPath key false).path ++ metadataFileSuffixTmp := rfl
      rw [same, dataTmp_path, List.append_assoc, List.append_assoc]
      rfl
  | blockFirst =>
      rw [PutFile.path, keyToPath_path]
      exact congrArg _ fileName_blockFirst
  | blockFirstTmp =>
      rw [PutFile.path, blockFirstTmpPath, keyToPath_path, List.append_assoc]
      rfl

theorem slash_not_mem_quoted : slash ∉ codec.quoted key := slash_not_mem_quote _

/-- The name of a file is one component. -/
theorem slash_not_mem_name (file : PutFile) : slash ∉ file.stem codec key ++ file.ending := by
  have replaced : slash ∉ replace dataFileSuffix dataFileSuffixTmp (codec.quoted key) := by
    intro member
    rcases mem_replace suffix_nonempty member with new | old
    · exact absurd new (by decide)
    · exact slash_not_mem_quoted old
  have ended : slash ∉ file.ending := by cases file <;> decide
  rw [List.mem_append, not_or]
  refine ⟨?_, ended⟩
  cases file with
  | data | sidecar => exact slash_not_mem_quoted
  | dataTmp | sidecarTmp => exact replaced
  | blockFirst =>
      rw [PutFile.stem, List.mem_append, not_or]
      exact ⟨slash_not_mem_quoted, by decide⟩
  | blockFirstTmp =>
      rw [PutFile.stem, List.mem_append, not_or]
      exact ⟨slash_not_mem_quoted, by decide⟩

theorem exists_folder (file : PutFile) :
    ∃ directory, file.folder codec xdsPath key = withSlash directory := by
  cases file with
  | dataTmp | sidecarTmp =>
      exact exists_replace_withSlash suffix_nonempty slash_not_mem_suffix _ _
  | data | sidecar | blockFirst | blockFirstTmp => exact ⟨_, rfl⟩

theorem directoryOf_path (file : PutFile) :
    directoryOf (file.path codec xdsPath key) = file.folder codec xdsPath key := by
  have named : ∃ directory, file.folder codec xdsPath key = withSlash directory :=
    exists_folder file
  obtain ⟨directory, same⟩ := named
  rw [path_eq, same, directoryOf_append directory (slash_not_mem_name file)]

/-- The replacement leaves the directory as it is exactly when the configured
root does not have the suffix in it: the other components are too short. -/
theorem replace_directory_iff :
    replace dataFileSuffix dataFileSuffixTmp (withSlash (codec.directory xdsPath key)) =
        withSlash (codec.directory xdsPath key) ↔
      ¬ dataFileSuffix <:+: xdsPath := by
  have short (text : Text) : ¬ dataFileSuffix <:+: text.take dirSize := by
    intro found
    have lengths := found.length_le
    rw [List.length_take] at lengths
    exact absurd (lengths.trans (Nat.min_le_left _ _)) (by decide)
  have nowhere : ¬ dataFileSuffix <:+: [] := fun found => suffix_nonempty (List.infix_nil.mp found)
  rw [replace_eq_self_iff suffix_nonempty (by decide) (by decide), not_iff_not,
    ← List.append_nil (withSlash (codec.directory xdsPath key)),
    infix_withSlash suffix_nonempty slash_not_mem_suffix, or_iff_left nowhere, KeyCodec.directory,
    join_of_relative (slash_not_mem_l2Dir codec key),
    infix_withSlash suffix_nonempty slash_not_mem_suffix, or_iff_left (show ¬ _ <:+: codec.l2Dir key from short _),
    join_of_relative (slash_not_mem_l1Dir codec key),
    infix_withSlash suffix_nonempty slash_not_mem_suffix,
    or_iff_left (show ¬ _ <:+: codec.l1Dir key from short _)]

theorem folder_eq (plain : ¬ dataFileSuffix <:+: xdsPath) (file : PutFile) :
    file.folder codec xdsPath key = withSlash (codec.directory xdsPath key) := by
  cases file with
  | dataTmp | sidecarTmp => exact replace_directory_iff.mpr plain
  | data | sidecar | blockFirst | blockFirstTmp => rfl

/-- A name that ends like a file of a put is in one of the classes that are kept. -/
theorem classify_of_ending {name : Text} {file : PutFile} (ends : file.ending <:+ name) :
    classify name ≠ .foreign := by
  have found : endsWith name file.ending = true := List.isSuffixOf_iff_suffix.mpr ends
  have inner {short long : Text} (inside : short <:+ long) (there : long <:+ name) :
      endsWith name short = true := List.isSuffixOf_iff_suffix.mpr (inside.trans there)
  unfold classify
  split
  · exact fun same => nomatch same
  · split
    · exact fun same => nomatch same
    · rename_i sidecar
      split
      · exact fun same => nomatch same
      · rename_i temporary
        split
        · exact fun same => nomatch same
        · rename_i data
          simp only [List.any_cons, List.any_nil, Bool.or_false, Bool.or_eq_true, not_or]
            at temporary
          cases file with
          | data | blockFirst => exact absurd found data
          | dataTmp => exact absurd found temporary.1
          | sidecar => exact absurd found sidecar
          | sidecarTmp => exact absurd (inner (List.suffix_append _ _) ends) temporary.2.1
          | blockFirstTmp => exact absurd found temporary.2.2

end Names

/-! ### What the scan removes -/

section Removal

variable {F : Type} [DecidableEq Key] {backend : ScanBackend Key F}

theorem removed_afterRead {Declared Result : Type} {state : ScanState Key F} {visit : Visit}
    {read : HotIndex Key (RawMetadata F) × Except (Raised Declared) Result} :
    (ScanBackend.afterRead state visit read).removed = state.removed := by
  unfold ScanBackend.afterRead
  split <;> rfl

/-- One visit removes a foreign file at most. -/
theorem removed_scanVisit {state : ScanState Key F} {visit : Visit} {path : Text}
    (removed : path ∈ (backend.scanVisit state visit).removed) :
    path ∈ state.removed ∨ classify visit.name = .foreign ∧ path = backend.visitPath visit := by
  unfold ScanBackend.scanVisit at removed
  split at removed
  · exact .inl removed
  · split at removed
    · unfold ScanBackend.scanFile at removed
      cases class' : classify visit.name with
      | blockFirst =>
          rw [class'] at removed
          dsimp only at removed
          split at removed
          · split at removed
            · exact .inl removed
            · rw [removed_afterRead] at removed
              exact .inl removed
          · exact .inl removed
      | sidecar =>
          rw [class'] at removed
          dsimp only at removed
          split at removed
          · exact .inl removed
          · rw [removed_afterRead] at removed
            exact .inl removed
      | temporary | data =>
          rw [class'] at removed
          exact .inl removed
      | foreign =>
          rw [class'] at removed
          rcases List.mem_cons.mp removed with here | before
          · exact .inr ⟨rfl, here⟩
          · exact .inl before
    · exact .inl removed

/-- A run of the scan removes foreign files only. -/
theorem removed_scanMetadata {state : ScanState Key F} {visits : List Visit} {path : Text}
    (removed : path ∈ (backend.scanMetadata state visits).removed) :
    path ∈ state.removed ∨
      ∃ visit ∈ visits, classify visit.name = .foreign ∧ path = backend.visitPath visit := by
  induction visits generalizing state with
  | nil => exact .inl removed
  | cons visit visits ih =>
      rcases ih removed with before | ⟨other, member, found⟩
      · rcases removed_scanVisit before with earlier | here
        · exact .inl earlier
        · exact .inr ⟨visit, List.mem_cons_self, here⟩
      · exact .inr ⟨other, List.mem_cons_of_mem visit member, found⟩

/-- No run removes a file of a put. -/
theorem putFile_kept {codec : KeyCodec Key} {xdsPath : Text} {key : Key} {file : PutFile}
    {state : ScanState Key F} {visits : List Visit}
    (removed : file.path codec xdsPath key ∈ (backend.scanMetadata state visits).removed) :
    file.path codec xdsPath key ∈ state.removed := by
  rcases removed_scanMetadata removed with before | ⟨visit, -, foreign, same⟩
  · exact before
  · have ends : file.ending <:+ backend.visitPath visit := by
      rw [← same, path_eq, ← List.append_assoc]
      exact List.suffix_append _ _
    have inside : slash ∉ file.ending := fun member =>
      (show slash ∉ file.stem codec key ++ file.ending from slash_not_mem_name file)
        (List.mem_append_right _ member)
    have name : nameOf (backend.visitPath visit) = visit.name := by
      rw [ScanBackend.visitPath, join_of_relative visit.plain, nameOf_append _ visit.plain]
    have ends := suffix_nameOf inside ends
    rw [name] at ends
    exact absurd foreign (classify_of_ending ends)

end Removal

/-! ### The guarantee -/

section Guarantee

variable {codec} {xdsPath : Text} {first second : Key}

/-- Files of unlike endings have different names. -/
theorem ending_unlike {file other : PutFile} (differ : file.ending ≠ other.ending) :
    ¬ file.ending <:+ other.ending := by
  revert differ
  cases file <;> cases other <;> decide +kernel

theorem quoted_ne_append (key : Key) :
    codec.quoted key ≠ codec.quoted key ++ ".block_first_v1".toList := by
  intro same
  have lengths := congrArg List.length same
  rw [List.length_append] at lengths
  have positive : 0 < ".block_first_v1".toList.length := by decide
  omega

/-- Two files of one directory have the same name only if they are the same file. -/
theorem names_distinct (apart : first ≠ second → NamesApart codec first second)
    {file other : PutFile} (differ : (first, file) ≠ (second, other)) :
    file.stem codec first ++ file.ending ≠ other.stem codec second ++ other.ending := by
  by_cases ended : file.ending = other.ending
  · rw [ended]
    refine fun names => ?_
    have stems := List.append_cancel_right names
    have injective {text text' : Text} (same : codec.quoted first ++ text =
        codec.quoted second ++ text') (tails : text = text') : first = second := by
      subst tails
      exact quoted_injective codec (List.append_cancel_right same)
    by_cases keys : first = second
    · subst keys
      cases file <;> cases other <;>
        first
        | exact differ rfl
        | exact absurd ended (by decide +kernel)
        | exact quoted_ne_append first stems
        | exact quoted_ne_append first stems.symm
    · have kept := apart keys
      cases file <;> cases other <;>
        first
        | exact absurd ended (by decide +kernel)
        | exact keys (quoted_injective codec stems)
        | exact keys (injective stems rfl)
        | exact kept.legacy stems
        | exact kept.blockFirst stems
        | exact kept.blockFirst' stems.symm
  · exact append_ne_of_endings (ending_unlike ended) (ending_unlike (Ne.symm ended))

/-- **Paths of two puts.** The property holds exactly when the configured root
does not have the data suffix in it and different keys of one directory have
names that stay apart. -/
theorem pathsSafe_iff (codec : KeyCodec Key) (xdsPath : Text) (first second : Key) :
    PathsSafe codec xdsPath first second ↔
      ¬ dataFileSuffix <:+: xdsPath ∧
        (first ≠ second →
          withSlash (codec.directory xdsPath first) = withSlash (codec.directory xdsPath second) →
          NamesApart codec first second) := by
  constructor
  · intro safe
    have plain : ¬ dataFileSuffix <:+: xdsPath := by
      have same := safe.sameDirectory .dataTmp first List.mem_cons_self
      rw [directoryOf_path, directoryOf_path] at same
      exact replace_directory_iff.mp same
    refine ⟨plain, fun keys directories => ?_⟩
    have apart (file other : PutFile) : file.stem codec first ++ file.ending ≠
        other.stem codec second ++ other.ending := by
      intro names
      refine safe.distinct file other (fun same => keys (congrArg Prod.fst same)) ?_
      rw [path_eq, path_eq, folder_eq plain, folder_eq plain, directories, names]
    refine ⟨fun same => ?_, fun same => ?_, fun same => ?_⟩
    · exact apart .dataTmp .dataTmp (congrArg (· ++ dataFileSuffixTmp) same)
    · exact apart .data .blockFirst (congrArg (· ++ dataFileSuffix) same)
    · exact apart .blockFirst .data (congrArg (· ++ dataFileSuffix) same.symm)
  · rintro ⟨plain, apart⟩
    refine ⟨fun file other differ => ?_, fun file key _ => ?_, fun backend state visits file key _ =>
      putFile_kept⟩
    · rw [path_eq, path_eq, folder_eq plain, folder_eq plain]
      intro same
      have parts := (append_inj_of_relative (slash_not_mem_name file)
        (slash_not_mem_name other)).mp same
      exact names_distinct (fun keys => apart keys parts.1) differ parts.2
    · rw [directoryOf_path, directoryOf_path, folder_eq plain, folder_eq plain]

/-- A root that has the suffix of the data files in it. -/
theorem not_pathsSafe_suffixedRoot :
    ¬ PathsSafe smallCodec ['/', 'c', '.', 'k', 'v', 'd', 'a', 't', 'a'] .long .short := by
  intro safe
  have same := safe.sameDirectory .dataTmp .long List.mem_cons_self
  rw [directoryOf_path, directoryOf_path] at same
  exact absurd (replace_directory_iff.mp same) (not_not.mpr (by decide +kernel))

end Guarantee

end LMCacheHcu.Restart
