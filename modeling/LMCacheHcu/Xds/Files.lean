import LMCacheHcu.Foundation.Custody
import LMCacheHcu.Xds.Accounting

/-! # The files behind the index

An entry ought to have its data file, and a legacy entry also its sidecar. Paths
are functions of the key and the layout, and files are unlinked after the index
was changed, so an unlink that belongs to an older entry, or to a put that
failed, can hit the files of a new one. The files are safe as long as nobody
publishes files that someone is about to unlink, and nobody plans to unlink files
that are published or about to be.
-/

namespace LMCacheHcu.Xds

open Storage

variable {Key Payload : Type} [DecidableEq Key]

def FilePath.path : FilePath Key → DataPath Key
  | .data path => path
  | .sidecar path => path

/-- The files that an entry needs. -/
def EntryInfo.files (info : EntryInfo Key) : List (FilePath Key) :=
  match info.diskMetadata with
  | some _ => [.data info.path]
  | none => bothFiles info.path

/-- **The property.** Every file of a visible entry is on disk. -/
def FilesPresent (shared : Shared Key Payload) : Prop :=
  ∀ key entry, shared.find key = some entry → ∀ file ∈ entry.files, shared.hasFile file = true

/-- The files that a job will still unlink. -/
def Job.unlinks : Job Key Payload → List (FilePath Key)
  | .unlink pending next => pending ++ next.unlinks
  | _ => []

/-- The files that a job has written or read and is about to publish. -/
def Job.ready (config : Config Key Payload) : Job Key Payload → List (FilePath Key)
  | .saveSidecar put _ => [.data (config.putPath put)]
  | .publishPut put size path diskMetadata => (config.newEntry put size path diskMetadata).files
  | .directPublish _ _ info | .indexBlockFirst _ info | .indexLegacy _ info => info.files
  | .unlink _ next => next.ready config
  | _ => []

/-! ### The condition -/

section Condition

variable (config : Config Key Payload) (shared : Shared Key Payload)
  (jobs others : List (Job Key Payload))

/-- No unlink of these files is pending. -/
def noUnlinkPending (files : List (FilePath Key)) : Bool :=
  jobs.all fun job => files.all fun file => decide (file ∉ job.unlinks)

/-- Nobody else is about to publish these files. -/
def noPublishPending (files : List (FilePath Key)) : Bool :=
  others.all fun job => files.all fun file => decide (file ∉ job.ready config)

/-- The entry of a key can be popped: nobody else is about to publish its files. -/
def mayPop (key : Key) : Bool :=
  (shared.find key).all fun entry => noPublishPending config others (bothFiles entry.path)

/-- A failed save can clean up: the key has no entry with these files, and
nobody else is about to publish them. -/
def mayClean (files : List (FilePath Key)) : Bool :=
  noPublishPending config others files &&
    files.all fun file => (shared.find file.path.key).all fun entry => decide (file ∉ entry.files)

/-- Files are put in place or read for publication only when no unlink of them
is pending, a sidecar only counts next to its data file, and files become due
for unlinking only when they are neither published nor about to be. -/
def Job.keepsFiles (choice : Choice Key) : Job Key Payload → Bool
  | .savePut put _ =>
      match choice, config.saveData put with
      | .fail, _ | _, .error _ =>
          mayClean config shared others (cleanupFiles (config.putPath put))
      | _, .ok _ => noUnlinkPending jobs [.data (config.putPath put)]
  | .saveSidecar put _ =>
      if choice = .fail then mayClean config shared others (cleanupFiles (config.putPath put))
      else noUnlinkPending jobs [.sidecar (config.putPath put)]
  | .publishPut _ _ path _ =>
      if choice = .fail then mayClean config shared others (cleanupFiles path) else true
  | .directSave key _ =>
      decide (choice = .fail) || noUnlinkPending jobs [.data (keyToPath key true)]
  | .scanBlockFirst key =>
      let path := keyToPath key true
      match (shared.dataFiles path).map (config.readBlockFirstMetadata path) with
      | some (.ok _) => noUnlinkPending jobs [.data path]
      | _ => true
  | .scanLegacy key =>
      let path := keyToPath key false
      match (shared.sidecars path).bind (config.readMetadata path) with
      | some _ => (shared.dataFiles path).isSome && noUnlinkPending jobs (bothFiles path)
      | none => true
  | .reservePut _ | .directReserve _ =>
      match choice with
      | .evict candidates => candidates.all (mayPop config shared others)
      | _ => true
  | .directRemove key | .removeKey key => mayPop config shared others key
  | _ => true

end Condition

/-- The condition on a step, and on the state before it. -/
def KeepsFiles (config : Config Key Payload) (state : State Key Payload) : Event Key → Prop
  | .submit _ => True
  | .advance index choice => (state.jobs[index]?).all fun job =>
      job.keepsFiles config state.shared state.jobs (state.jobs.eraseIdx index) choice

instance (config : Config Key Payload) (state : State Key Payload) (event : Event Key) :
    Decidable (KeepsFiles config state event) :=
  match event with
  | .submit _ => .isTrue trivial
  | .advance _ _ => inferInstanceAs (Decidable (_ = true))

/-! ### Paths name their keys -/

omit [DecidableEq Key] in
theorem path_of_mem_bothFiles {path : DataPath Key} {file : FilePath Key}
    (member : file ∈ bothFiles path) : file.path = path := by
  simp only [bothFiles, List.mem_cons, List.not_mem_nil, or_false] at member
  rcases member with rfl | rfl <;> rfl

omit [DecidableEq Key] in
theorem mem_bothFiles_of_mem_files {info : EntryInfo Key} {file : FilePath Key}
    (member : file ∈ info.files) : file ∈ bothFiles info.path := by
  unfold EntryInfo.files at member
  split at member
  · exact List.mem_cons_of_mem _ member
  · exact member

omit [DecidableEq Key] in
theorem path_of_mem_files {info : EntryInfo Key} {file : FilePath Key}
    (member : file ∈ info.files) : file.path = info.path :=
  path_of_mem_bothFiles (mem_bothFiles_of_mem_files member)

/-- What a job is about to publish has a path of its key. -/
def Job.Named : Job Key Payload → Prop
  | .publishPut put _ path _ => path.key = put.key
  | .directPublish key _ info | .indexBlockFirst key info | .indexLegacy key info =>
      info.path.key = key
  | .unlink _ next => next.Named
  | _ => True

/-- Every entry has a path of its key. -/
def EntriesNamed (shared : Shared Key Payload) : Prop :=
  ∀ key entry, shared.find key = some entry → entry.path.key = key

variable {config : Config Key Payload} {shared next : Shared Key Payload} {choice : Choice Key}
  {job after : Job Key Payload} {jobs : List (Job Key Payload)} {index : ℕ}

omit [DecidableEq Key] in
theorem readBlockFirstMetadata_ok {path : DataPath Key} {file : DataFile Payload}
    {info : EntryInfo Key} (read : config.readBlockFirstMetadata path file = .ok info) :
    info.path = path ∧ info.files = [.data path] := by
  unfold Config.readBlockFirstMetadata at read
  split at read
  · cases read
  simp only [Checked.throw_bind, Checked.check_ok] at read
  split at read
  · simp only [Checked.bind_ok, Checked.check_ok, blockFirstEntry,
      Checked.return_ok] at read
    obtain ⟨_, _, _, _, _, _, rfl⟩ := read
    exact ⟨rfl, rfl⟩
  · cases read.2

omit [DecidableEq Key] in
theorem readMetadata_some {path : DataPath Key} {sidecar : Sidecar} {info : EntryInfo Key}
    (read : config.readMetadata path sidecar = some info) :
    info.path = path ∧ info.files = bothFiles path := by
  cases sidecar with
  | unsupported => cases read
  | valid shape dtype size =>
      simp only [Config.readMetadata] at read
      split at read
      · cases read
      split at read
      · cases read
      · cases read
        exact ⟨rfl, rfl⟩

omit [DecidableEq Key] in
theorem blockFirstEntry_ok {path : DataPath Key} {diskMetadata : BlockFirstDiskMetadata}
    {info : EntryInfo Key} (made : blockFirstEntry path diskMetadata = .ok info) :
    info.path = path ∧ info.files = [.data path] := by
  simp only [blockFirstEntry, Checked.bind_ok, Checked.return_ok] at made
  obtain ⟨_, _, rfl⟩ := made
  exact ⟨rfl, rfl⟩

theorem Transition.named (moved : Transition config shared choice job next after)
    (named : job.Named) : after.Named := by
  cases moved with
  | saveBlockFirst | sidecarSaved => rfl
  | directSaved key size diskMetadata info _ _ made => rw [Job.Named, (blockFirstEntry_ok made).1]; rfl
  | scannedBlockFirst key file info _ read =>
      rw [Job.Named, (readBlockFirstMetadata_ok read).1]
      rfl
  | scannedLegacy key sidecar info _ read =>
      rw [Job.Named, (readMetadata_some read).1]
      rfl
  | unlinkedAll | unlinkFailed | unlinked => exact named
  | _ => trivial

omit [DecidableEq Key] in
theorem named_of_publishes {key : Key} {info : EntryInfo Key}
    (publishes : job.publishes config = some (key, info)) (named : job.Named) :
    info.path.key = key := by
  unfold Job.publishes at publishes
  split at publishes <;> cases publishes <;> exact named

theorem Transition.entriesNamed (moved : Transition config shared choice job next after)
    (entries : EntriesNamed shared) (named : job.Named) : EntriesNamed next := by
  intro key entry found
  rcases moved.entryOrigin found with ⟨before, here, rfl⟩ | ⟨info, publishes, _, rfl⟩
  · exact entries key before here
  · exact named_of_publishes publishes named

/-! ### Files held by the index -/

/-- Some entry needs the file. -/
def Shared.holds (shared : Shared Key Payload) (file : FilePath Key) : Prop :=
  ∃ key entry, shared.find key = some entry ∧ file ∈ entry.files

omit [DecidableEq Key] in
theorem ready_of_publishes {key : Key} {info : EntryInfo Key}
    (publishes : job.publishes config = some (key, info)) : job.ready config = info.files := by
  unfold Job.publishes at publishes
  split at publishes <;> cases publishes <;> rfl

/-- The index takes no file that the job was not about to publish. -/
theorem Transition.handsOver (moved : Transition config shared choice job next after)
    {file : FilePath Key} (holds : next.holds file) :
    shared.holds file ∨ file ∈ job.ready config := by
  obtain ⟨key, entry, found, member⟩ := holds
  rcases moved.entryOrigin found with ⟨before, here, rfl⟩ | ⟨info, publishes, _, rfl⟩
  · exact .inl ⟨key, before, here, member⟩
  · exact .inr (by rwa [ready_of_publishes publishes])

theorem hasFile_commitData {path : DataPath Key} {file : DataFile Payload} {other : FilePath Key}
    (here : shared.hasFile other = true) : (shared.commitData path file).hasFile other = true := by
  cases other with
  | data other =>
      by_cases same : other = path
      · subst same
        simp [Shared.commitData, Shared.hasFile]
      · simpa [Shared.commitData, Shared.hasFile, Function.update_of_ne same] using here
  | sidecar other => exact here

theorem hasFile_commitSidecar {path : DataPath Key} {sidecar : Sidecar} {other : FilePath Key}
    (here : shared.hasFile other = true) :
    (shared.commitSidecar path sidecar).hasFile other = true := by
  cases other with
  | data other => exact here
  | sidecar other =>
      by_cases same : other = path
      · subst same
        simp [Shared.commitSidecar, Shared.hasFile]
      · simpa [Shared.commitSidecar, Shared.hasFile, Function.update_of_ne same] using here

theorem hasFile_unlinkFile (file : FilePath Key) {other : FilePath Key} (here : shared.hasFile other = true) :
    (shared.unlinkFile file).hasFile other = true ∨ other = file := by
  by_cases same : other = file
  · exact .inr same
  · left
    cases file <;> cases other <;>
      simp_all [Shared.unlinkFile, Shared.hasFile, Function.update_of_ne]

theorem hasFile_of_files_eq (data : next.dataFiles = shared.dataFiles)
    (sidecars : next.sidecars = shared.sidecars) {file : FilePath Key} :
    next.hasFile file = shared.hasFile file := by
  cases file
  · simp only [Shared.hasFile, data]
  · simp only [Shared.hasFile, sidecars]

theorem files_of_advanceItem {item moved : LoadItem Key Payload} {outcome : ReadOutcome}
    (advanced : advanceItem config shared item outcome = some (next, moved)) :
    next.dataFiles = shared.dataFiles ∧ next.sidecars = shared.sidecars := by
  unfold advanceItem at advanced
  split at advanced
  · split at advanced <;> cases advanced <;> exact ⟨rfl, rfl⟩
  · cases advanced
    exact ⟨rfl, rfl⟩
  · split at advanced <;> cases advanced <;> exact ⟨rfl, rfl⟩
  · cases advanced
    exact ⟨rfl, rfl⟩
  · cases advanced

theorem files_of_addPins (key : Key) (count : ℤ) :
    (shared.addPins key count).dataFiles = shared.dataFiles ∧
      (shared.addPins key count).sidecars = shared.sidecars := by
  unfold Shared.addPins
  split <;> exact ⟨rfl, rfl⟩

/-- Only a planned unlink takes a file away. -/
theorem Transition.remains (moved : Transition config shared choice job next after)
    {file : FilePath Key} (here : shared.hasFile file = true) :
    next.hasFile file = true ∨ file ∈ job.unlinks := by
  cases moved with
  | putEvicted _ _ _ _ _ _ evicts | putRefused _ _ _ _ _ evicts
  | directEvicted _ _ _ _ _ _ evicts | directRefused _ _ _ _ _ evicts =>
      obtain ⟨_, loop⟩ := evicts.loop
      obtain ⟨data, sidecars, _⟩ := Shared.evictLoop_index loop
      rw [hasFile_of_files_eq data sidecars]
      exact .inl here
  | saveLegacy | saveBlockFirst | directSaved => exact .inl (hasFile_commitData here)
  | sidecarSaved => exact .inl (hasFile_commitSidecar here)
  | published =>
      unfold Shared.insertKey
      split <;> exact .inl here
  | indexedLegacy =>
      unfold Shared.indexLegacy
      split <;> exact .inl here
  | unlinked removed pending rest =>
      rcases hasFile_unlinkFile removed here with still | rfl
      · exact .inl still
      · exact .inr (List.mem_cons_self ..)
  | loadAdvanced _ _ _ _ _ _ _ _ _ advanced =>
      obtain ⟨data, sidecars⟩ := files_of_advanceItem advanced
      rw [hasFile_of_files_eq data sidecars]
      exact .inl here
  | pinned key =>
      rw [Shared.pin, hasFile_of_files_eq (files_of_addPins key 1).1 (files_of_addPins key 1).2]
      exact .inl here
  | unpinned key =>
      rw [Shared.unpin, hasFile_of_files_eq (files_of_addPins key _).1 (files_of_addPins key _).2]
      exact .inl here
  | _ => exact .inl here

/-! ### What a step claims and plans -/

variable {others : List (Job Key Payload)}

theorem noUnlinkPending_iff {files : List (FilePath Key)} : noUnlinkPending jobs files = true ↔
    ∀ job ∈ jobs, ∀ file ∈ files, file ∉ job.unlinks := by
  simp only [noUnlinkPending, List.all_eq_true, decide_eq_true_eq]

theorem noPublishPending_iff {files : List (FilePath Key)} :
    noPublishPending config others files = true ↔
      ∀ job ∈ others, ∀ file ∈ files, file ∉ job.ready config := by
  simp only [noPublishPending, List.all_eq_true, decide_eq_true_eq]

/-- What is present, and spared by all pending unlinks. -/
def Safe (next : Shared Key Payload) (jobs : List (Job Key Payload)) (file : FilePath Key) : Prop :=
  next.hasFile file = true ∧ ∀ other ∈ jobs, file ∉ other.unlinks

theorem safe_commitData {path : DataPath Key} {file : DataFile Payload}
    (free : noUnlinkPending jobs [.data path] = true) :
    Safe (shared.commitData path file) jobs (.data path) :=
  ⟨by simp [Shared.commitData, Shared.hasFile], fun other member =>
    noUnlinkPending_iff.mp free other member _ (List.mem_singleton_self _)⟩

/-- A file becomes due for publication only when it is there and stays there. -/
theorem Transition.newClaims (moved : Transition config shared choice job next after)
    (keeps : job.keepsFiles config shared jobs others choice = true) {file : FilePath Key}
    (claimed : file ∈ after.ready config) :
    file ∈ job.ready config ∨ Safe next jobs file := by
  cases moved with
  | saveLegacy put size data proceeds saved =>
      rw [List.mem_singleton.mp claimed]
      apply Or.inr
      apply safe_commitData
      simpa [Job.keepsFiles, proceeds, saved] using keeps
  | saveBlockFirst put size data diskMetadata proceeds saved =>
      rw [List.mem_singleton.mp claimed]
      apply Or.inr
      apply safe_commitData
      simpa [Job.keepsFiles, proceeds, saved] using keeps
  | sidecarSaved put size proceeds =>
      have free : noUnlinkPending jobs [.sidecar (config.putPath put)] = true := by
        simpa [Job.keepsFiles, proceeds] using keeps
      change file ∈ bothFiles (config.putPath put) at claimed
      rcases List.mem_cons.mp claimed with rfl | data
      · refine .inr ⟨by simp [Shared.commitSidecar, Shared.hasFile], fun other member => ?_⟩
        exact noUnlinkPending_iff.mp free other member _ (List.mem_singleton_self _)
      · exact .inl data
  | directSaved key size diskMetadata info proceeds _ made =>
      have free : noUnlinkPending jobs [.data (keyToPath key true)] = true := by
        simpa [Job.keepsFiles, proceeds] using keeps
      change file ∈ info.files at claimed
      rw [(blockFirstEntry_ok made).2] at claimed
      rw [List.mem_singleton.mp claimed]
      exact .inr (safe_commitData free)
  | scannedBlockFirst key data info found read =>
      have free : noUnlinkPending jobs [.data (keyToPath key true)] = true := by
        simpa [Job.keepsFiles, found, read] using keeps
      change file ∈ info.files at claimed
      rw [(readBlockFirstMetadata_ok read).2] at claimed
      rw [List.mem_singleton.mp claimed]
      refine .inr ⟨by simp [Shared.hasFile, found], fun other member => ?_⟩
      exact noUnlinkPending_iff.mp free other member _ (List.mem_singleton_self _)
  | scannedLegacy key sidecar info found read =>
      have free : (shared.dataFiles (keyToPath key false)).isSome = true ∧
          noUnlinkPending jobs (bothFiles (keyToPath key false)) = true := by
        simpa [Job.keepsFiles, found, read] using keeps
      change file ∈ info.files at claimed
      rw [(readMetadata_some read).2] at claimed
      refine .inr ⟨?_, fun other member => noUnlinkPending_iff.mp free.2 other member _ claimed⟩
      simp only [bothFiles, List.mem_cons, List.not_mem_nil, or_false] at claimed
      rcases claimed with rfl | rfl
      · simp [Shared.hasFile, found]
      · exact free.1
  | unlinkedAll | unlinkFailed | unlinked => exact .inl claimed
  | _ => cases claimed

/-- Files that are neither published nor about to be. -/
def Unused (config : Config Key Payload) (next : Shared Key Payload)
    (others : List (Job Key Payload)) (file : FilePath Key) : Prop :=
  ¬ next.holds file ∧ ∀ other ∈ others, file ∉ other.ready config

/-- The files of an entry that is popped are of no more use. -/
theorem unused_of_popped {key : Key} {entry : Entry Key} {file : FilePath Key}
    (entries : EntriesNamed shared) (found : shared.find key = some entry)
    (popped : next.find key = none)
    (kept : ∀ other entry, next.find other = some entry → shared.find other = some entry)
    (may : mayPop config shared others key = true) (member : file ∈ bothFiles entry.path) :
    Unused config next others file := by
  constructor
  · rintro ⟨other, holder, here, held⟩
    have old := kept other holder here
    have same : other = key := by
      rw [← entries other holder old, ← entries key entry found, ← path_of_mem_files held,
        path_of_mem_bothFiles member]
    rw [same, popped] at here
    cases here
  · have free : noPublishPending config others (bothFiles entry.path) = true := by
      simpa [mayPop, found] using may
    exact fun other present => noPublishPending_iff.mp free other present file member

theorem unused_of_evicts {requiredSize : ℤ} {paths : List (DataPath Key)} {success : Bool}
    {candidates : List Key} {file : FilePath Key} (entries : EntriesNamed shared)
    (evicts : Evicts config shared choice requiredSize next paths success candidates)
    (may : ∀ candidate ∈ candidates, mayPop config shared others candidate = true)
    (member : file ∈ paths.flatMap bothFiles) : Unused config next others file := by
  obtain ⟨_, loop⟩ := evicts.loop
  obtain ⟨_, _, kept, listed⟩ := Shared.evictLoop_index loop
  obtain ⟨path, evicted, within⟩ := List.mem_flatMap.mp member
  rcases listed path evicted with none | ⟨candidate, chosen, entry, found, rfl, popped⟩
  · cases none
  · exact unused_of_popped entries found popped kept (may candidate chosen) within

theorem mayPop_of_evicts {requiredSize : ℤ} {paths : List (DataPath Key)} {success : Bool}
    {candidates : List Key} {key : Key}
    (evicts : Evicts config shared choice requiredSize next paths success candidates)
    (keeps : (Job.directReserve key).keepsFiles config shared jobs others choice = true) :
    ∀ candidate ∈ candidates, mayPop config shared others candidate = true := by
  rw [evicts.chosen] at keeps
  exact List.all_eq_true.mp keeps

theorem unused_of_mayClean {files : List (FilePath Key)} {file : FilePath Key}
    (entries : EntriesNamed shared) (may : mayClean config shared others files = true)
    (member : file ∈ files) : Unused config shared others file := by
  simp only [mayClean, Bool.and_eq_true, List.all_eq_true] at may
  constructor
  · rintro ⟨key, entry, found, held⟩
    have same : file.path.key = key := by
      rw [path_of_mem_files held]
      exact entries key entry found
    have free := may.2 file member
    rw [same, found] at free
    exact of_decide_eq_true free held
  · exact fun other present => noPublishPending_iff.mp may.1 other present file member

theorem find_of_popCredit {key other : Key} {entry : Entry Key}
    (found : (shared.popCredit key).find other = some entry) : shared.find other = some entry :=
  find_of_discard key found

/-- A file becomes due for unlinking only when it is of no use. -/
theorem Transition.newDeletes (moved : Transition config shared choice job next after)
    (entries : EntriesNamed shared)
    (keeps : job.keepsFiles config shared jobs others choice = true) {file : FilePath Key}
    (planned : file ∈ after.unlinks) :
    file ∈ job.unlinks ∨ (Unused config next others file ∧ file ∉ after.ready config) := by
  cases moved with
  | putEvicted put size _ paths candidates _ evicts
  | putRefused put size _ paths candidates evicts =>
      have planned : file ∈ paths.flatMap bothFiles := by simpa [Job.unlinks] using planned
      have may := mayPop_of_evicts evicts (show (Job.directReserve put.key).keepsFiles config
        shared jobs others choice = true from keeps)
      exact .inr ⟨unused_of_evicts entries evicts may planned, List.not_mem_nil⟩
  | directEvicted key _ _ paths candidates _ evicts
  | directRefused key _ _ paths candidates evicts =>
      have planned : file ∈ paths.flatMap bothFiles := by simpa [Job.unlinks] using planned
      have may := mayPop_of_evicts evicts keeps
      exact .inr ⟨unused_of_evicts entries evicts may planned, List.not_mem_nil⟩
  | saveFailed put size failed =>
      have planned : file ∈ cleanupFiles (config.putPath put) := by
        simpa [Job.unlinks] using planned
      have may : mayClean config shared others (cleanupFiles (config.putPath put)) = true := by
        rcases failed with rfl | ⟨error, failed⟩
        · exact keeps
        · cases choice <;> simpa [Job.keepsFiles, failed] using keeps
      exact .inr ⟨unused_of_mayClean entries may planned, List.not_mem_nil⟩
  | sidecarFailed put size failed =>
      have planned : file ∈ cleanupFiles (config.putPath put) := by
        simpa [Job.unlinks] using planned
      rw [failed] at keeps
      exact .inr ⟨unused_of_mayClean entries keeps planned, List.not_mem_nil⟩
  | publishFailed put size path diskMetadata failed =>
      have planned : file ∈ cleanupFiles path := by simpa [Job.unlinks] using planned
      rw [failed] at keeps
      exact .inr ⟨unused_of_mayClean entries keeps planned, List.not_mem_nil⟩
  | directRemoved key entry found | removed key entry found =>
      have planned : file ∈ bothFiles entry.path := by simpa [Job.unlinks] using planned
      have popped : ((shared.popCredit key).untrack key).find key = none := by
        change (shared.popCredit key).find key = none
        rw [Shared.find_popCredit, if_pos rfl]
      exact .inr ⟨unused_of_popped entries found popped (fun _ _ => find_of_popCredit) keeps planned,
        List.not_mem_nil⟩
  | unlinkedAll => exact .inl planned
  | unlinkFailed | unlinked =>
      exact .inl (List.mem_cons_of_mem _ planned)
  | _ => cases planned

/-! ### Whole runs -/

/-- The invariant of careful runs. -/
structure FilesKept (config : Config Key Payload) (state : State Key Payload) : Prop where
  entriesNamed : EntriesNamed state.shared
  jobsNamed : ∀ job ∈ state.jobs, job.Named
  kept : Custody.Kept (Job.ready config) Job.unlinks state.shared.holds
    (fun file => state.shared.hasFile file = true) state.jobs

theorem FilesKept.filesPresent {state : State Key Payload} (kept : FilesKept config state) :
    FilesPresent state.shared :=
  fun key entry found file member => (kept.kept file (.inl ⟨key, entry, found, member⟩)).1

theorem FilesKept.step {state next : State Key Payload} {event : Event Key}
    (kept : FilesKept config state) (keeps : KeepsFiles config state event)
    (stepped : step config state event = some next) : FilesKept config next := by
  obtain ⟨entriesNamed, jobsNamed, custody⟩ := kept
  rcases step_cases stepped with ⟨operation, rfl, _, rfl⟩ |
    ⟨index, choice, job, moved, rfl, here, transition, jobs⟩
  · refine ⟨entriesNamed, fun job member => ?_, ?_⟩
    · rcases List.mem_append.mp member with old | new
      · exact jobsNamed job old
      · rw [List.mem_singleton.mp new]
        cases operation <;> exact trivial
    · exact custody.append (by cases operation <;> rfl) (by cases operation <;> rfl)
  · have jobNamed := jobsNamed job (List.mem_of_getElem? here)
    have jobKeeps : job.keepsFiles config state.shared state.jobs (state.jobs.eraseIdx index)
        choice = true := by
      rw [KeepsFiles, here] at keeps
      exact keeps
    refine ⟨transition.entriesNamed entriesNamed jobNamed, fun other member => ?_, ?_⟩
    · rw [jobs] at member
      rcases List.mem_or_eq_of_mem_set member with old | new
      · exact jobsNamed other old
      · rw [new]
        exact transition.named jobNamed
    · rw [jobs]
      refine custody.step here ⟨fun file => transition.handsOver,
        fun file => transition.newClaims jobKeeps, fun file planned => ?_,
        fun file => transition.remains⟩
      rcases transition.newDeletes entriesNamed jobKeeps planned with old | ⟨unused, unclaimed⟩
      · exact .inl old
      · exact .inr ⟨unused.1, unused.2, unclaimed⟩

theorem filesKept_initial (dataFiles : DataPath Key → Option (DataFile Payload))
    (sidecars : DataPath Key → Option Sidecar) :
    FilesKept config (initial dataFiles sidecars) where
  entriesNamed := fun key entry found => by cases found
  jobsNamed := fun _ member => by cases member
  kept := by
    rintro file (⟨key, entry, found, _⟩ | ⟨_, member, _⟩)
    · cases found
    · cases member

/-- **Visible entries have their files in careful runs.** Whatever the
operations interleaved, as long as each step meets the condition. -/
theorem filesPresent_of_reaches {dataFiles : DataPath Key → Option (DataFile Payload)}
    {sidecars : DataPath Key → Option Sidecar} {state : State Key Payload}
    (reached : Runs.Reaches (step config) (KeepsFiles config) (initial dataFiles sidecars) state) :
    FilesPresent state.shared :=
  (reached.invariant (filesKept_initial dataFiles sidecars)
    fun _ _ _ kept keeps stepped => kept.step keeps stepped).filesPresent

theorem filesPresent_of_reaches_put :
    ∃ state, Runs.execute (step plainConfig) (KeepsFiles plainConfig) (putEvents 0) emptyState =
      some state ∧ (state.shared.find 0).isSome = true ∧ FilesPresent state.shared := by
  have done : (Runs.execute (step plainConfig) (KeepsFiles plainConfig) (putEvents 0)
      emptyState).map (fun state => (state.shared.find 0).isSome) = some true := by decide
  obtain ⟨state, executed, visible⟩ := Option.map_eq_some_iff.mp done
  exact ⟨state, executed, visible,
    filesPresent_of_reaches (Runs.reaches_of_execute .refl executed)⟩

/-- A second put of key 0, up to the cleanup after its failed save. -/
def failedReputEvents : List (Event ℕ) :=
  .submit (.submitPutTask ⟨0, 4096⟩) ::
    (List.replicate 7 (.advance 1 .proceed) ++ [.advance 1 .fail, .advance 1 .proceed,
      .advance 1 .proceed])

/-- The cleanup of a failed second put takes the files of the entry, which is
still in the index. -/
theorem filesPresent_fails_reput :
    ∃ state, Runs.Reaches (step plainConfig) (fun _ _ => True) emptyState state ∧
      ¬ FilesPresent state.shared := by
  have done : (Runs.execute (step plainConfig) (fun _ _ => True)
      (putEvents 0 ++ failedReputEvents) emptyState).map (fun state =>
        (state.shared.find 0).map fun entry => entry.files.all state.shared.hasFile) =
      some (some false) := by decide
  obtain ⟨state, executed, missing⟩ := Option.map_eq_some_iff.mp done
  obtain ⟨entry, found, absent⟩ := Option.map_eq_some_iff.mp missing
  refine ⟨state, Runs.reaches_of_execute .refl executed, fun present => ?_⟩
  have all : entry.files.all state.shared.hasFile = true :=
    List.all_eq_true.mpr (present 0 entry found)
  rw [all] at absent
  cases absent

end LMCacheHcu.Xds
