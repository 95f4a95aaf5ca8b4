import LMCacheHcu.Xds.DirectPutModes
import LMCacheHcu.Xds.Files
import LMCacheHcu.Xds.Policy

/-! # What loads bring back

A load remembers the path that its key had, looks the key up again and reads. Files
are replaced, unlinked and written in the other layout meanwhile. Every file of a key
holds the chunk of the key all the same, so what is read is that chunk, or the first
bytes of its block-first file when the entry has become a legacy one since.
-/

namespace LMCacheHcu.Xds

open Storage

variable {Key Payload : Type}

/-! ### Honest files and entries -/

/-- A data file as the writers leave it. -/
structure HonestFile (config : Config Key Payload) (path : DataPath Key)
    (file : DataFile Payload) : Prop where
  chunk : file.chunk = config.chunk path.key
  legacy : path.layout = .legacy →
    file.header = none ∧ (config.chunk path.key).nbytes ≤ file.size
  blockFirst : path.layout = .blockFirst → file.header.isSome = true

/-- A sidecar as the writers leave it. -/
def HonestSidecar (config : Config Key Payload) (path : DataPath Key) : Sidecar → Prop
  | .unsupported => True
  | .valid shape dtype size => shape = (config.chunk path.key).shape.map Int.ofNat ∧
      dtype = (config.chunk path.key).dtype ∧ (config.chunk path.key).nbytes ≤ size

/-- An entry that leads to a file of its key in the layout that it names. -/
structure HonestEntry (config : Config Key Payload) (key : Key) (info : EntryInfo Key) :
    Prop where
  named : info.path.key = key
  legacy : info.diskMetadata = none → info.path.layout = .legacy ∧
    info.shape = (config.chunk key).shape.map Int.ofNat ∧
      info.dtype = (config.chunk key).dtype ∧ (config.chunk key).nbytes ≤ info.size
  blockFirst : info.diskMetadata.isSome = true → info.path.layout = .blockFirst

/-- The first bytes of the block-first file of a key, read at the path that a load has
captured. -/
def LoadItem.Raw (config : Config Key Payload) (item : LoadItem Key Payload)
    (content : Content Payload) : Prop :=
  ∃ captured file size, item.captured = some captured ∧ captured.path.key = item.key ∧
    captured.path.layout = .blockFirst ∧ HonestFile config captured.path file ∧
      content = .rawBytes file size

/-- A load that has the path of its key and an entry of it, and has returned what its
key stands for, unless layouts may be `mixed`. -/
structure HonestItem (config : Config Key Payload) (mixed : Prop) (item : LoadItem Key Payload) :
    Prop where
  captured : ∀ captured, item.captured = some captured → captured.path.key = item.key
  reading : ∀ entry, item.stage = .reading entry → HonestEntry config item.key entry.toEntryInfo
  returned : ∀ content, item.stage = .returned content →
    content = .payload (config.chunk item.key).payload ∨ mixed ∧ item.Raw config content

variable [DecidableEq Key]

/-- The files, the sidecars and the index are as the writers leave them. -/
structure HonestStore (config : Config Key Payload) (shared : Shared Key Payload) : Prop where
  files : ∀ path file, shared.dataFiles path = some file → HonestFile config path file
  sidecars : ∀ path sidecar, shared.sidecars path = some sidecar →
    HonestSidecar config path sidecar
  entries : ∀ key entry, shared.find key = some entry →
    HonestEntry config key entry.toEntryInfo

omit [DecidableEq Key] in
/-- A job is about to write, to publish or to read nothing else. -/
def Job.Honest (config : Config Key Payload) (mixed : Prop) : Job Key Payload → Prop
  | .submitPut put | .lookupPut put | .enlistPut put | .reservePut put =>
      (config.chunk put.key).nbytes ≤ put.physicalSize
  | .addPut put size _ | .trackPut put size | .savePut put size =>
      (config.chunk put.key).nbytes ≤ put.physicalSize ∧ config.requiredStoreSize put = .ok size
  | .saveSidecar put size => (config.chunk put.key).nbytes ≤ put.physicalSize ∧
      size = put.physicalSize ∧ (config.putPath put).layout = .legacy
  | .publishPut put size path diskMetadata =>
      HonestEntry config put.key (config.newEntry put size path diskMetadata)
  | .directPublish key _ info | .indexBlockFirst key info | .indexLegacy key info =>
      HonestEntry config key info
  | .unlink _ next => next.Honest config mixed
  | .allocateLoads keys items | .loading keys items =>
      items.map LoadItem.key = keys ∧ ∀ item ∈ items, HonestItem config mixed item
  | _ => True

variable {config : Config Key Payload} {shared next : Shared Key Payload} {choice : Choice Key}
  {job after : Job Key Payload} {mixed : Prop}

/-! ### What the writers write -/

omit [DecidableEq Key] in
/-- The file of a legacy put, and what was reserved for it. -/
theorem honest_of_saveLegacy {put : StagedPut Key} {size : ℤ} {file : DataFile Payload}
    (fits : (config.chunk put.key).nbytes ≤ put.physicalSize)
    (required : config.requiredStoreSize put = .ok size)
    (saved : config.saveData put = .ok (file, none)) :
    HonestFile config (config.putPath put) file ∧ size = put.physicalSize ∧
      (config.putPath put).layout = .legacy := by
  simp only [Config.saveData, Config.requiredStoreSize, Checked.bind_ok] at saved required
  obtain ⟨blockFirst, used, saved⟩ := saved
  obtain ⟨_, used', required⟩ := required
  obtain rfl := Except.ok.inj (used.symm.trans used')
  split at saved
  · simp only [Checked.bind_ok, Checked.return_ok, Prod.mk.injEq, reduceCtorEq, and_false,
      exists_false] at saved
  · rename_i legacy
    rw [if_neg legacy] at required
    obtain rfl := Checked.return_ok.mp required
    obtain ⟨rfl, -⟩ := Prod.mk.inj (Checked.return_ok.mp saved)
    have path : config.putPath put = ⟨put.key, .legacy⟩ := by
      rw [Config.putPath, used, keyToPath]
      simp [legacy, Except.toOption]
    rw [path]
    exact ⟨⟨rfl, fun _ => ⟨rfl, fits⟩, (fun other => by cases other)⟩, rfl, rfl⟩

omit [DecidableEq Key] in
/-- The file of a block-first put, and the entry that it will get. -/
theorem honest_of_saveBlockFirst {put : StagedPut Key} (size : ℤ) {file : DataFile Payload}
    {diskMetadata : BlockFirstDiskMetadata}
    (saved : config.saveData put = .ok (file, some diskMetadata)) :
    HonestFile config (config.putPath put) file ∧ HonestEntry config put.key
      (config.newEntry put size (config.putPath put) (some diskMetadata)) := by
  simp only [Config.saveData, Checked.bind_ok] at saved
  obtain ⟨blockFirst, used, saved⟩ := saved
  split at saved
  · rename_i useBlockFirst
    simp only [Checked.bind_ok, Checked.return_ok, Prod.mk.injEq, Option.some.injEq] at saved
    obtain ⟨made, -, rfl, rfl⟩ := saved
    have path : config.putPath put = ⟨put.key, .blockFirst⟩ := by
      rw [Config.putPath, used, keyToPath]
      simp [useBlockFirst, Except.toOption]
    rw [path]
    exact ⟨⟨rfl, (fun other => by cases other), fun _ => rfl⟩,
      ⟨rfl, (fun other => by cases other), fun _ => rfl⟩⟩
  · have none := congrArg Prod.snd (Checked.return_ok.mp saved)
    cases none

omit [DecidableEq Key] in
theorem honest_of_blockFirstEntry {key : Key} {diskMetadata : BlockFirstDiskMetadata}
    {info : EntryInfo Key}
    (made : blockFirstEntry (keyToPath key true) diskMetadata = .ok info) :
    HonestEntry config key info := by
  simp only [blockFirstEntry, Checked.bind_ok, Checked.return_ok] at made
  obtain ⟨_, _, rfl⟩ := made
  exact ⟨rfl, (fun other => by cases other), fun _ => rfl⟩

omit [DecidableEq Key] in
/-- The scan of a block-first file finds an entry of its key. -/
theorem honest_of_readBlockFirstMetadata {key : Key} {file : DataFile Payload}
    {info : EntryInfo Key}
    (read : config.readBlockFirstMetadata (keyToPath key true) file = .ok info) :
    HonestEntry config key info := by
  unfold Config.readBlockFirstMetadata at read
  split at read
  · cases read
  simp only [Checked.throw_bind, Checked.check_ok] at read
  split at read
  · simp only [Checked.bind_ok, Checked.check_ok] at read
    obtain ⟨-, _, -, -, made⟩ := read
    exact honest_of_blockFirstEntry made
  · cases read.2

omit [DecidableEq Key] in
/-- So does the scan of a sidecar. -/
theorem honest_of_readMetadata {key : Key} {sidecar : Sidecar} {info : EntryInfo Key}
    (honest : HonestSidecar config (keyToPath key false) sidecar)
    (read : config.readMetadata (keyToPath key false) sidecar = some info) :
    HonestEntry config key info := by
  cases sidecar with
  | unsupported => cases read
  | valid shape dtype size =>
      simp only [Config.readMetadata] at read
      split at read
      · cases read
      split at read
      · cases read
      · cases read
        obtain ⟨rfl, rfl, fits⟩ := honest
        exact ⟨rfl, fun _ => ⟨rfl, rfl, rfl, fits⟩, (fun other => by cases other)⟩

/-! ### What a read delivers -/

omit [DecidableEq Key] in
/-- A legacy entry asks for all bytes of the chunk. -/
theorem nbytes_le_loadSize {key : Key} {entry : Entry Key}
    (honest : HonestEntry config key entry.toEntryInfo) (legacy : entry.diskMetadata = none) :
    (config.chunk key).nbytes ≤ loadSize config entry := by
  obtain ⟨-, shape, dtype, fits⟩ := honest.legacy legacy
  rw [loadSize, legacy]
  dsimp only
  split
  · exact fits
  · rw [shape, dtype, Chunk.nbytes, Nat.cast_list_prod]
    exact le_of_eq rfl

omit [DecidableEq Key] in
/-- A complete read of a file of the key delivers its chunk, or the first bytes of a
block-first file for a legacy entry. -/
theorem content_of_readFile {path : DataPath Key} {file : DataFile Payload} {entry : Entry Key}
    {outcome : ReadOutcome} {content : Content Payload}
    (honest : HonestEntry config path.key entry.toEntryInfo) (written : HonestFile config path file)
    (read : readFile config entry (some file) outcome = .loaded content) :
    content = .payload (config.chunk path.key).payload ∨
      path.layout = .blockFirst ∧ entry.diskMetadata = none ∧
        ∃ size, content = .rawBytes file size := by
  unfold readFile at read
  dsimp only at read
  split at read
  · cases read
  split at read
  · cases read
  · cases read
  · rename_i count
    split at read
    · cases read
    rename_i complete
    split at read
    · cases read
      rw [written.chunk]
      exact .inl rfl
    · rename_i legacy
      have none : entry.diskMetadata = none := by simpa using legacy
      obtain rfl : count = loadSize config entry := not_not.mp complete
      cases read
      unfold rawContent
      cases layout : path.layout with
      | legacy =>
          obtain ⟨header, long⟩ := written.legacy layout
          have whole : file.chunk.nbytes ≤ min (loadSize config entry) file.size := by
            rw [written.chunk]
            exact le_min (nbytes_le_loadSize honest none) long
          rw [if_pos ⟨by rw [header]; rfl, whole⟩, written.chunk]
          exact .inl rfl
      | blockFirst =>
          have header : ¬ file.header.isNone = true := by
            rw [Option.isNone_eq_false_iff.mpr (written.blockFirst layout)]
            exact Bool.false_ne_true
          rw [if_neg fun both => header both.1]
          exact .inr ⟨rfl, none, _, rfl⟩

omit [DecidableEq Key] in
/-- A load that neither reads nor has returned anything. -/
theorem HonestItem.idle {item : LoadItem Key Payload} (honest : HonestItem config mixed item)
    {stage : LoadStage Key Payload} (idle : ∀ entry, stage ≠ .reading entry)
    (empty : ∀ content, stage ≠ .returned content) :
    HonestItem config mixed { item with stage } where
  captured := honest.captured
  reading entry reading := absurd reading (idle entry)
  returned content returned := absurd returned (empty content)

/-- The read of a block-first path for an entry that is a legacy one by now. -/
def LoadItem.crossesLayouts (item : LoadItem Key Payload) : Bool :=
  match item.stage, item.captured with
  | .reading entry, some captured =>
      decide (captured.path.layout = .blockFirst) && entry.diskMetadata.isNone
  | _, _ => false

/-- What one step of a load delivers: it keeps its key and path, reads an entry of the
key, and returns what the key stands for unless it crosses the layouts. -/
theorem honest_of_advanceItem (store : HonestStore config shared)
    {item moved : LoadItem Key Payload} (honest : HonestItem config mixed item)
    (alike : item.crossesLayouts = true → mixed) {outcome : ReadOutcome}
    (advanced : advanceItem config shared item outcome = some (next, moved)) :
    moved.key = item.key ∧ HonestItem config mixed moved := by
  unfold advanceItem at advanced
  split at advanced
  · split at advanced
    · cases advanced
      exact ⟨rfl, honest.idle (by simp) (by simp)⟩
    · rename_i entry found
      cases advanced
      refine ⟨rfl, honest.captured, fun other reading => ?_, (fun _ returned => by cases returned)⟩
      cases reading
      exact store.entries _ _ found
  · cases advanced
    exact ⟨rfl, honest.idle (by simp) (by simp)⟩
  · rename_i entry object captured reading _ here
    split at advanced
    · rename_i found read
      cases advanced
      refine ⟨rfl, honest.captured, (fun _ other => by cases other), fun content returned => ?_⟩
      cases returned
      cases there : shared.dataFiles captured.path with
      | none =>
          rw [there] at read
          cases read
      | some file =>
          rw [there] at read
          have written := store.files _ _ there
          have named := honest.captured captured here
          have entryHonest := honest.reading entry reading
          rw [← named] at entryHonest
          rcases content_of_readFile entryHonest written read with right |
            ⟨layout, legacy, size, raw⟩
          · rw [named] at right
            exact .inl right
          · refine .inr ⟨alike ?_, captured, file, size, here, named, layout, written, raw⟩
            rw [LoadItem.crossesLayouts, reading, here]
            simp [layout, legacy]
    · cases advanced
      exact ⟨rfl, honest.idle (by simp) (by simp)⟩
    · cases advanced
      exact ⟨rfl, honest.idle (by simp) (by simp)⟩
  · cases advanced
    exact ⟨rfl, honest.idle (by simp) (by simp)⟩
  · cases advanced

/-! ### One step -/

theorem HonestStore.of_files (store : HonestStore config shared)
    (data : next.dataFiles = shared.dataFiles) (sidecars : next.sidecars = shared.sidecars)
    (entries : ∀ key entry, next.find key = some entry →
      HonestEntry config key entry.toEntryInfo) : HonestStore config next where
  files path file found := store.files path file (data ▸ found)
  sidecars path sidecar found := store.sidecars path sidecar (sidecars ▸ found)
  entries := entries

/-- A value of an updated function is the new one or an old one. -/
theorem of_update_eq_some {Place Value : Type} [DecidableEq Place] {values : Place → Option Value}
    {place other : Place} {written : Option Value} {found : Value}
    (here : Function.update values place written other = some found) :
    other = place ∧ written = some found ∨ values other = some found := by
  rcases eq_or_ne other place with rfl | differ
  · rw [Function.update_self] at here
    exact .inl ⟨rfl, here⟩
  · rw [Function.update_of_ne differ] at here
    exact .inr here

theorem HonestStore.commitData (store : HonestStore config shared) {path : DataPath Key}
    {file : DataFile Payload} (written : HonestFile config path file) :
    HonestStore config (shared.commitData path file) where
  files other found here := by
    rcases of_update_eq_some here with ⟨rfl, new⟩ | old
    · exact Option.some.inj new ▸ written
    · exact store.files other found old
  sidecars := store.sidecars
  entries := store.entries

theorem HonestStore.unlinkFile (store : HonestStore config shared) (gone : FilePath Key) :
    HonestStore config (shared.unlinkFile gone) := by
  cases gone with
  | data path =>
      refine ⟨fun other file here => ?_, store.sidecars, store.entries⟩
      rcases of_update_eq_some here with ⟨-, new⟩ | old
      · cases new
      · exact store.files other file old
  | sidecar path =>
      refine ⟨store.files, fun other sidecar here => ?_, store.entries⟩
      rcases of_update_eq_some here with ⟨-, new⟩ | old
      · cases new
      · exact store.sidecars other sidecar old

omit [DecidableEq Key] in
theorem honest_of_publishes {key : Key} {info : EntryInfo Key}
    (publishes : job.publishes config = some (key, info)) (honest : job.Honest config mixed) :
    HonestEntry config key info := by
  unfold Job.publishes at publishes
  split at publishes <;> cases publishes <;> exact honest

theorem Transition.honestEntries (moved : Transition config shared choice job next after)
    (store : HonestStore config shared) (honest : job.Honest config mixed) (key : Key)
    (entry : Entry Key) (found : next.find key = some entry) :
    HonestEntry config key entry.toEntryInfo := by
  rcases moved.entryOrigin found with ⟨before, here, rfl⟩ | ⟨info, publishes, -, rfl⟩
  · exact store.entries key before here
  · exact honest_of_publishes publishes honest

/-- Every step leaves the files and the index as the writers do. -/
theorem Transition.honestStore (moved : Transition config shared choice job next after)
    (store : HonestStore config shared) (honest : job.Honest config mixed) :
    HonestStore config next := by
  have entries := moved.honestEntries store honest
  cases moved with
  | putEvicted _ _ _ _ _ _ evicts | putRefused _ _ _ _ _ evicts
  | directEvicted _ _ _ _ _ _ evicts | directRefused _ _ _ _ _ evicts =>
      obtain ⟨_, loop⟩ := evicts.loop
      obtain ⟨data, sidecars, -⟩ := Shared.evictLoop_index loop
      exact store.of_files data sidecars entries
  | saveLegacy put size file _ saved =>
      exact store.commitData (honest_of_saveLegacy honest.1 honest.2 saved).1
  | saveBlockFirst put size file diskMetadata _ saved =>
      exact store.commitData (honest_of_saveBlockFirst size saved).1
  | directSaved key size diskMetadata info =>
      exact store.commitData ⟨rfl, (fun other => by cases other), fun _ => rfl⟩
  | sidecarSaved put size =>
      refine ⟨store.files, fun other sidecar here => ?_, store.entries⟩
      rcases of_update_eq_some here with ⟨rfl, new⟩ | old
      · cases new
        exact ⟨rfl, rfl, honest.1⟩
      · exact store.sidecars other sidecar old
  | published =>
      refine store.of_files ?_ ?_ entries
      · unfold Shared.insertKey
        split <;> rfl
      · unfold Shared.insertKey
        split <;> rfl
  | indexedLegacy =>
      refine store.of_files ?_ ?_ entries
      · unfold Shared.indexLegacy
        split <;> rfl
      · unfold Shared.indexLegacy
        split <;> rfl
  | unlinked gone => exact store.unlinkFile gone
  | loadAdvanced _ _ _ _ _ _ _ _ _ advanced =>
      obtain ⟨data, sidecars⟩ := files_of_advanceItem advanced
      exact store.of_files data sidecars entries
  | pinned key =>
      exact store.of_files (files_of_addPins key 1).1 (files_of_addPins key 1).2 entries
  | unpinned key =>
      exact store.of_files (files_of_addPins key _).1 (files_of_addPins key _).2 entries
  | _ => exact store.of_files rfl rfl entries

omit [DecidableEq Key] in
theorem honest_of_allocateItems {items : List (LoadItem Key Payload)} {granted : List Bool}
    {first : ℕ} (honest : ∀ item ∈ items, HonestItem config mixed item) :
    ((allocateItems items granted first).1.map LoadItem.key = items.map LoadItem.key) ∧
      ∀ item ∈ (allocateItems items granted first).1, HonestItem config mixed item := by
  induction items generalizing granted first with
  | nil => exact ⟨rfl, honest⟩
  | cons item items ih =>
      obtain ⟨head, rest⟩ := List.forall_mem_cons.mp honest
      rw [allocateItems]
      split
      · obtain ⟨keys, kept⟩ := @ih granted.tail (first + 1) rest
        refine ⟨by rw [List.map_cons, keys]; rfl, List.forall_mem_cons.mpr ⟨?_, kept⟩⟩
        exact ⟨head.captured, head.reading, head.returned⟩
      · obtain ⟨keys, kept⟩ := @ih granted.tail first rest
        exact ⟨by rw [List.map_cons, keys]; rfl, List.forall_mem_cons.mpr ⟨head, kept⟩⟩

/-- The job does not read across layouts in this step. -/
def Job.keepsLayout (choice : Choice Key) : Job Key Payload → Bool
  | .loading _ items =>
      match choice with
      | .item index _ => (items[index]?).all fun item => !item.crossesLayouts
      | _ => true
  | _ => true

/-- Every step leaves its job honest. -/
theorem Transition.honest (moved : Transition config shared choice job next after)
    (store : HonestStore config shared) (alike : mixed ∨ job.keepsLayout choice = true)
    (honest : job.Honest config mixed) : after.Honest config mixed := by
  cases moved with
  | putUnlisted | putWanted | putEnlisted => exact honest
  | putUnlimited put size required => exact ⟨honest, required⟩
  | putEvicted put size _ _ _ required => exact ⟨honest, required⟩
  | putAdded | putTracked => exact honest
  | saveLegacy put size file _ saved =>
      exact ⟨honest.1, (honest_of_saveLegacy honest.1 honest.2 saved).2⟩
  | saveBlockFirst put size file diskMetadata _ saved =>
      exact (honest_of_saveBlockFirst size saved).2
  | sidecarSaved put size =>
      obtain ⟨fits, rfl, layout⟩ := honest
      exact ⟨rfl, fun _ => ⟨layout, rfl, rfl, fits⟩, (fun other => by cases other)⟩
  | directSaved key size diskMetadata info _ _ made => exact honest_of_blockFirstEntry made
  | scannedBlockFirst key file info _ read => exact honest_of_readBlockFirstMetadata read
  | scannedLegacy key sidecar info here read =>
      exact honest_of_readMetadata (store.sidecars _ _ here) read
  | unlinkedAll | unlinkFailed | unlinked => exact honest
  | loadsCaptured keys =>
      refine ⟨?_, fun item member => ?_⟩
      · rw [List.map_map]
        exact List.map_id keys
      · obtain ⟨key, -, rfl⟩ := List.mem_map.mp member
        refine ⟨fun captured here => ?_, (fun _ reading => by cases reading),
          (fun _ returned => by cases returned)⟩
        obtain ⟨entry, found, rfl⟩ := Option.map_eq_some_iff.mp here
        exact (store.entries key entry found).named
  | loadsAllocated keys items granted =>
      obtain ⟨same, kept⟩ := honest_of_allocateItems honest.2
      exact ⟨same.trans honest.1, kept⟩
  | loadAdvanced keys items index outcome item _ loaded chosen here advanced =>
      obtain ⟨aligned, kept⟩ := honest
      have crossing : item.crossesLayouts = true → mixed := by
        intro crosses
        refine alike.resolve_right fun keeps => ?_
        subst chosen
        rw [Job.keepsLayout, here, Option.all_some, crosses] at keeps
        cases keeps
      obtain ⟨key, good⟩ :=
        honest_of_advanceItem store (kept item (List.mem_of_getElem? here)) crossing advanced
      refine ⟨?_, fun other member => ?_⟩
      · obtain ⟨inside, rfl⟩ := List.getElem?_eq_some_iff.mp here
        rw [List.map_set, key, ← aligned, ← List.getElem_map LoadItem.key, List.set_getElem_self]
        rwa [List.length_map]
      · rcases List.mem_or_eq_of_mem_set member with old | rfl
        · exact kept other old
        · exact good
  | _ => trivial

/-! ### Whole runs -/

/-- The invariant of all runs. -/
structure HonestState (config : Config Key Payload) (mixed : Prop) (state : State Key Payload) :
    Prop where
  store : HonestStore config state.shared
  jobs : ∀ job ∈ state.jobs, job.Honest config mixed

/-- No load reads across layouts in the step. -/
def KeepsLayout (state : State Key Payload) : Event Key → Prop
  | .submit _ => True
  | .advance index choice => (state.jobs[index]?).all fun job => job.keepsLayout choice

instance (state : State Key Payload) (event : Event Key) : Decidable (KeepsLayout state event) :=
  match event with
  | .submit _ => .isTrue trivial
  | .advance _ _ => inferInstanceAs (Decidable (_ = true))

theorem HonestState.step {state next : State Key Payload} {event : Event Key}
    (honest : HonestState config mixed state) (alike : mixed ∨ KeepsLayout state event)
    (stepped : step config state event = some next) : HonestState config mixed next := by
  obtain ⟨store, jobs⟩ := honest
  rcases step_cases stepped with ⟨operation, rfl, admissible, rfl⟩ |
    ⟨index, choice, job, moved, rfl, here, transition, same⟩
  · refine ⟨store, fun job member => ?_⟩
    rcases List.mem_append.mp member with old | new
    · exact jobs job old
    · rw [List.mem_singleton.mp new]
      cases operation with
      | submitPutTask put =>
          have fits : (config.chunk put.key).nbytes ≤ put.physicalSize :=
            of_decide_eq_true admissible
          exact fits
      | _ => trivial
  · have jobHonest := jobs job (List.mem_of_getElem? here)
    have jobAlike : mixed ∨ job.keepsLayout choice = true := by
      refine alike.imp_right fun keeps => ?_
      rw [KeepsLayout, here] at keeps
      exact keeps
    refine ⟨transition.honestStore store jobHonest, fun other member => ?_⟩
    rw [same] at member
    rcases List.mem_or_eq_of_mem_set member with old | rfl
    · exact jobs other old
    · exact transition.honest store jobAlike jobHonest

/-- The files that a new backend finds are as the writers left them. -/
structure HonestDirectory (config : Config Key Payload)
    (dataFiles : DataPath Key → Option (DataFile Payload))
    (sidecars : DataPath Key → Option Sidecar) : Prop where
  files : ∀ path file, dataFiles path = some file → HonestFile config path file
  sidecars : ∀ path sidecar, sidecars path = some sidecar → HonestSidecar config path sidecar

/-! ### A put and a load -/

/-- A load of key 0 after its put: the capture, the allocation, the second lookup and the
read. -/
def loadEvents : List (Event ℕ) :=
  [.submit (.batchedGetBlocking [0]), .advance 1 .proceed, .advance 1 (.allocate [true]),
    .advance 1 (.item 0 (.returned 2)), .advance 1 (.item 0 (.returned 2))]

def Content.isPayload : Content Payload → Bool
  | .payload _ => true
  | .rawBytes _ _ => false

/-- The keys for which a batch has returned a payload so far, or raw bytes. -/
def Job.returnedKeys (whole : Bool) : Job Key Payload → List Key
  | .loading _ items => items.filterMap fun item =>
      match item.stage with
      | .returned content => if content.isPayload = whole then some item.key else none
      | _ => none
  | _ => []

omit [DecidableEq Key] in
theorem exists_returned {whole : Bool} {key : Key} (member : key ∈ job.returnedKeys whole) :
    ∃ keys items item content, job = .loading keys items ∧ item ∈ items ∧ item.key = key ∧
      item.stage = .returned content ∧ content.isPayload = whole := by
  cases job with
  | loading keys items =>
      obtain ⟨item, inside, found⟩ := List.mem_filterMap.mp member
      cases stage : item.stage with
      | returned content =>
          rw [stage] at found
          obtain ⟨same, key⟩ := Option.ite_none_right_eq_some.mp found
          exact ⟨keys, items, item, content, rfl, inside, Option.some.inj key, stage, same⟩
      | _ =>
          rw [stage] at found
          cases found
  | _ => cases member

theorem emptyDirectory_honest : HonestDirectory plainConfig (fun _ => none) fun _ => none :=
  ⟨(fun _ _ found => by cases found), (fun _ _ found => by cases found)⟩

/-- A run whose job number `index` has returned an object of this kind for key 0. -/
theorem exists_executed {config : Config ℕ ℕ} {condition : State ℕ ℕ → Event ℕ → Prop}
    [∀ state event, Decidable (condition state event)] {events : List (Event ℕ)}
    {start : State ℕ ℕ} {index : ℕ} {whole : Bool}
    (done : (Runs.execute (step config) condition events start).map
      (fun state => (state.jobs[index]?).map (Job.returnedKeys whole)) = some (some [0])) :
    ∃ state, Runs.execute (step config) condition events start = some state ∧
      ∃ keys items item content, .loading keys items ∈ state.jobs ∧ item ∈ items ∧
        item.key = 0 ∧ item.stage = .returned content ∧ content.isPayload = whole := by
  obtain ⟨state, executed, facts⟩ := Option.map_eq_some_iff.mp done
  obtain ⟨job, here, returned⟩ := Option.map_eq_some_iff.mp facts
  have member : 0 ∈ job.returnedKeys whole := by
    rw [returned]
    exact List.mem_singleton_self 0
  obtain ⟨keys, items, item, content, rfl, inside, key, stage, same⟩ := exists_returned member
  exact ⟨state, executed, keys, items, item, content, List.mem_of_getElem? here, inside, key,
    stage, same⟩

section Runs

variable {dataFiles : DataPath Key → Option (DataFile Payload)}
  {sidecars : DataPath Key → Option Sidecar} {state : State Key Payload}

theorem honestState_initial (directory : HonestDirectory config dataFiles sidecars) :
    HonestState config mixed (initial dataFiles sidecars) where
  store := ⟨directory.files, directory.sidecars, (fun _ _ found => by cases found)⟩
  jobs _ member := by cases member

theorem HonestState.of_reaches (directory : HonestDirectory config dataFiles sidecars)
    (reached : Runs.Reaches (Xds.step config) (fun state event => mixed ∨ KeepsLayout state event)
      (initial dataFiles sidecars) state) : HonestState config mixed state :=
  reached.invariant (honestState_initial directory)
    fun _ _ _ honest alike stepped => honest.step alike stepped

/-- **No load brings back the bytes of another key.** However puts, evictions, removes,
scans, failures and reads interleave, the results of a batch are aligned with its keys,
and what a load returns is the payload of its key, or the first bytes of the block-first
file of its key. -/
theorem loaded_own_bytes (directory : HonestDirectory config dataFiles sidecars)
    (reached : Runs.Reaches (step config) (fun _ _ => True) (initial dataFiles sidecars) state)
    {keys : List Key} {items : List (LoadItem Key Payload)}
    (member : .loading keys items ∈ state.jobs) :
    items.map LoadItem.key = keys ∧ ∀ item ∈ items, ∀ content,
      item.stage = .returned content →
        content = .payload (config.chunk item.key).payload ∨ item.Raw config content := by
  have honest : HonestState config True state :=
    .of_reaches directory (reached.mono fun _ _ _ => .inl trivial)
  obtain ⟨aligned, good⟩ := honest.jobs _ member
  refine ⟨aligned, fun item inside content returned => ?_⟩
  exact ((good item inside).returned content returned).imp_right And.right

theorem loaded_own_bytes_put :
    ∃ state, Runs.execute (step plainConfig) (fun _ _ => True) (putEvents 0 ++ loadEvents)
      emptyState = some state ∧ ∃ keys items item content, .loading keys items ∈ state.jobs ∧
        item ∈ items ∧ item.stage = .returned content ∧
          (content = .payload 0 ∨ item.Raw plainConfig content) := by
  have done : (Runs.execute (step plainConfig) (fun _ _ => True) (putEvents 0 ++ loadEvents)
      emptyState).map (fun state => (state.jobs[1]?).map (Job.returnedKeys true)) =
        some (some [0]) := by decide +kernel
  obtain ⟨state, executed, keys, items, item, content, member, inside, key, returned, -⟩ :=
    exists_executed done
  have own := loaded_own_bytes emptyDirectory_honest (Runs.reaches_of_execute .refl executed) member
  have here := own.2 item inside content returned
  rw [key] at here
  exact ⟨state, executed, keys, items, item, content, member, inside, returned, here⟩

/-- **Loads bring back what was put.** In every run in which no load reads a block-first
path for an entry that has become a legacy one, every returned object holds the payload
of its key. -/
theorem loaded_payload (directory : HonestDirectory config dataFiles sidecars)
    (reached : Runs.Reaches (step config) KeepsLayout (initial dataFiles sidecars) state)
    {keys : List Key} {items : List (LoadItem Key Payload)}
    (member : .loading keys items ∈ state.jobs) {item : LoadItem Key Payload}
    (inside : item ∈ items) {content : Content Payload}
    (returned : item.stage = .returned content) :
    content = .payload (config.chunk item.key).payload := by
  have honest : HonestState config False state :=
    .of_reaches directory (reached.mono fun _ _ keeps => .inr keeps)
  refine (((honest.jobs _ member).2 item inside).returned content returned).resolve_right ?_
  exact fun both => both.1

end Runs

theorem loaded_payload_put :
    ∃ state, Runs.execute (step plainConfig) KeepsLayout (putEvents 0 ++ loadEvents) emptyState =
      some state ∧ ∃ keys items item content, .loading keys items ∈ state.jobs ∧ item ∈ items ∧
        item.stage = .returned content ∧ content = .payload 0 := by
  have done : (Runs.execute (step plainConfig) KeepsLayout (putEvents 0 ++ loadEvents)
      emptyState).map (fun state => (state.jobs[1]?).map (Job.returnedKeys true)) =
        some (some [0]) := by decide +kernel
  obtain ⟨state, executed, keys, items, item, content, member, inside, key, returned, -⟩ :=
    exists_executed done
  refine ⟨state, executed, keys, items, item, content, member, inside, returned, ?_⟩
  rw [loaded_payload emptyDirectory_honest (Runs.reaches_of_execute .refl executed) member inside
    returned, key]
  rfl

/-- The scan reads a legacy sidecar and a direct put stores the key meanwhile. A load
captures the block-first path, a remove pops the entry, the scan adds its own, and the
load reads before the remove unlinks the file. -/
def crossingEvents : List (Event ℕ) :=
  [.submit (.readMetadata 0), .advance 0 .proceed, .submit (.directPut 0)] ++
    List.replicate 8 (.advance 1 .proceed) ++
    [.submit (.batchedGetBlocking [0]), .advance 2 .proceed, .advance 2 (.allocate [true]),
      .submit (.remove 0), .advance 3 .proceed, .advance 0 .proceed,
      .advance 2 (.item 0 (.returned 2)), .advance 2 (.item 0 (.returned 2))]

theorem legacyDirectory_honest : HonestDirectory directConfig legacyData legacySidecars where
  files path file found := by
    obtain ⟨rfl, made⟩ := Option.ite_none_right_eq_some.mp found
    obtain rfl := Option.some.inj made
    exact ⟨rfl, fun _ => ⟨rfl, by decide⟩, (fun other => by cases other)⟩
  sidecars path sidecar found := by
    obtain ⟨rfl, made⟩ := Option.ite_none_right_eq_some.mp found
    obtain rfl := Option.some.inj made
    exact ⟨rfl, rfl, by decide⟩

/-- **A startup scan.** Without the condition a load can return the first bytes of the
block-first file as if they were the payload. -/
theorem not_payload_scan :
    ∃ state, Runs.Reaches (step directConfig) (fun _ _ => True)
      (initial legacyData legacySidecars) state ∧ ∃ keys items item content,
        .loading keys items ∈ state.jobs ∧ item ∈ items ∧ item.stage = .returned content ∧
          content ≠ .payload (directConfig.chunk item.key).payload := by
  have done : (Runs.execute (step directConfig) (fun _ _ => True) crossingEvents
      (initial legacyData legacySidecars)).map
        (fun state => (state.jobs[2]?).map (Job.returnedKeys false)) = some (some [0]) := by
    decide +kernel
  obtain ⟨state, executed, keys, items, item, content, member, inside, -, returned, raw⟩ :=
    exists_executed done
  refine ⟨state, Runs.reaches_of_execute .refl executed, keys, items, item, content, member,
    inside, returned, ?_⟩
  rintro rfl
  cases raw

end LMCacheHcu.Xds
