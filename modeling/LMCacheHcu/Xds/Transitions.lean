import LMCacheHcu.Xds.Machine

/-! # What one step of a job can do

The steps of the machine as a relation, one constructor for each way a job can
go on, with the guards that decide for it. Invariants go by cases on this
relation and do not unfold the step function.
-/

namespace LMCacheHcu.Xds

open Storage

variable {Key Payload : Type} [DecidableEq Key]

/-- The room that `evict` makes under a size limit. -/
structure Evicts (config : Config Key Payload) (shared : Shared Key Payload)
    (choice : Choice Key) (requiredSize : ℤ) (next : Shared Key Payload)
    (evictedPaths : List (DataPath Key)) (success : Bool) (candidates : List Key) : Prop where
  limited : config.maxXdsSize.isSome
  chosen : choice = .evict candidates
  loop : ∃ maxXdsSize, Shared.evictLoop maxXdsSize requiredSize candidates shared [] =
    some (next, evictedPaths, success)

/-- The ways in which a job can go on. -/
inductive Transition (config : Config Key Payload) (shared : Shared Key Payload)
    (choice : Choice Key) : Job Key Payload → Shared Key Payload → Job Key Payload → Prop
  -- a staged put, up to its reservation
  | putListed (put) : put.key ∈ shared.putTasks →
      Transition config shared choice (.submitPut put) shared .done
  | putUnlisted (put) : put.key ∉ shared.putTasks →
      Transition config shared choice (.submitPut put) shared (.lookupPut put)
  | putResident (put entry) : shared.find put.key = some entry → entry.diskMetadata.isSome →
      Transition config shared choice (.lookupPut put) shared .done
  | putWanted (put) :
      (∀ entry, shared.find put.key = some entry → entry.diskMetadata = none) →
      Transition config shared choice (.lookupPut put) shared (.enlistPut put)
  | putEnlisted (put) :
      Transition config shared choice (.enlistPut put) (shared.enlist put.key) (.reservePut put)
  | putUnsized (put) : Transition config shared choice (.reservePut put) shared .done
  | putUnlimited (put size) : config.requiredStoreSize put = .ok size →
      Transition config shared choice (.reservePut put) shared
        (.unlink [] (.addPut put size shared.currentCacheSize))
  | putEvicted (put size next paths candidates) : config.requiredStoreSize put = .ok size →
      Evicts config shared choice size next paths true candidates →
      Transition config shared choice (.reservePut put) next
        (.unlink (paths.flatMap bothFiles) (.trackPut put size))
  | putRefused (put size next paths candidates) :
      Evicts config shared choice size next paths false candidates →
      Transition config shared choice (.reservePut put) next
        (.unlink (paths.flatMap bothFiles) (.finishPut put.key))
  | putAdded (put size value) : Transition config shared choice (.addPut put size value)
      { shared with currentCacheSize := value + size } (.trackPut put size)
  | putTracked (put size) : Transition config shared choice (.trackPut put size)
      (shared.track put.key) (.savePut put size)
  -- a staged put, from its file to its end
  | saveFailed (put size) : (choice = .fail ∨ ∃ error, config.saveData put = .error error) →
      Transition config shared choice (.savePut put size) shared
        (.unlink (cleanupFiles (config.putPath put)) (.undoPut put.key size))
  | saveLegacy (put size file) : choice ≠ .fail → config.saveData put = .ok (file, none) →
      Transition config shared choice (.savePut put size)
        (shared.commitData (config.putPath put) file) (.saveSidecar put size)
  | saveBlockFirst (put size file diskMetadata) : choice ≠ .fail →
      config.saveData put = .ok (file, some diskMetadata) →
      Transition config shared choice (.savePut put size)
        (shared.commitData (config.putPath put) file)
        (.publishPut put size (config.putPath put) (some diskMetadata))
  | sidecarFailed (put size) : choice = .fail →
      Transition config shared choice (.saveSidecar put size) shared
        (.unlink (cleanupFiles (config.putPath put)) (.undoPut put.key size))
  | sidecarSaved (put size) : choice ≠ .fail →
      Transition config shared choice (.saveSidecar put size)
        (shared.commitSidecar (config.putPath put)
          (.valid ((config.chunk put.key).shape.map Int.ofNat) (config.chunk put.key).dtype
            put.physicalSize))
        (.publishPut put size (config.putPath put) none)
  | publishFailed (put size path diskMetadata) : choice = .fail →
      Transition config shared choice (.publishPut put size path diskMetadata) shared
        (.unlink (cleanupFiles path) (.undoPut put.key size))
  | published (put size path diskMetadata) : choice ≠ .fail →
      Transition config shared choice (.publishPut put size path diskMetadata)
        (shared.insertKey put.key (config.newEntry put size path diskMetadata))
        (.finishPut put.key)
  | putUndone (key size) : Transition config shared choice (.undoPut key size)
      ((shared.discard key).charge (-size)) (.finishPut key)
  | putFinished (key) :
      Transition config shared choice (.finishPut key) (shared.delist key) .done
  -- a direct put
  | directAbsent (key) : shared.find key = none →
      Transition config shared choice (.directPut key) shared (.directCheck key)
  | directResident (key entry) : shared.find key = some entry → entry.diskMetadata.isSome →
      Transition config shared choice (.directPut key) shared .done
  | directLegacy (key entry) : shared.find key = some entry → entry.diskMetadata = none →
      Transition config shared choice (.directPut key) shared (.directRemove key)
  | directGone (key) : shared.find key = none →
      Transition config shared choice (.directRemove key) shared (.directCheck key)
  | directRemoved (key entry) : shared.find key = some entry →
      Transition config shared choice (.directRemove key) ((shared.popCredit key).untrack key)
        (.unlink (bothFiles entry.path) (.directCheck key))
  | directListed (key) : key ∈ shared.putTasks →
      Transition config shared choice (.directCheck key) shared .done
  | directUnlisted (key) : key ∉ shared.putTasks →
      Transition config shared choice (.directCheck key) shared (.directEnlist key)
  | directEnlisted (key) : Transition config shared choice (.directEnlist key)
      (shared.enlist key) (.directReserve key)
  | directUnsized (key) :
      Transition config shared choice (.directReserve key) shared (.finishPut key)
  | directUnlimited (key diskMetadata) :
      config.backend.makeDirectBlockFirstMetadata = .ok diskMetadata →
      Transition config shared choice (.directReserve key)
        (shared.charge (blockFirstHeaderSize + diskMetadata.ioNbytes))
        (.unlink [] (.directTrack key (blockFirstHeaderSize + diskMetadata.ioNbytes)))
  | directEvicted (key diskMetadata next paths candidates) :
      config.backend.makeDirectBlockFirstMetadata = .ok diskMetadata →
      Evicts config shared choice (blockFirstHeaderSize + diskMetadata.ioNbytes) next paths true
        candidates →
      Transition config shared choice (.directReserve key) next (.unlink (paths.flatMap bothFiles)
        (.directTrack key (blockFirstHeaderSize + diskMetadata.ioNbytes)))
  | directRefused (key size next paths candidates) :
      Evicts config shared choice size next paths false candidates →
      Transition config shared choice (.directReserve key) next
        (.unlink (paths.flatMap bothFiles) (.finishPut key))
  | directTracked (key size) : Transition config shared choice (.directTrack key size)
      (shared.track key) (.directSave key size)
  | directFailed (key size) :
      Transition config shared choice (.directSave key size) shared (.directRollback key size)
  | directSaved (key size diskMetadata info) : choice ≠ .fail →
      config.backend.makeDirectBlockFirstMetadata = .ok diskMetadata →
      blockFirstEntry (keyToPath key true) diskMetadata = .ok info →
      Transition config shared choice (.directSave key size)
        (shared.commitData (keyToPath key true) (config.blockFirstFile key diskMetadata))
        (.directPublish key size info)
  | directUnpublished (key size info) : choice = .fail →
      Transition config shared choice (.directPublish key size info) shared
        (.directRollback key size)
  | directPublished (key size info) : choice ≠ .fail →
      Transition config shared choice (.directPublish key size info) (shared.index key info)
        (.finishPut key)
  | directRolledBack (key size) : Transition config shared choice (.directRollback key size)
      (shared.charge (-size)) (.directUntrack key)
  | directUntracked (key) : Transition config shared choice (.directUntrack key)
      (shared.untrack key) (.finishPut key)
  -- `remove` and the scan
  | removeAbsent (key) : shared.find key = none →
      Transition config shared choice (.removeKey key) shared .done
  | removed (key entry) : shared.find key = some entry →
      Transition config shared choice (.removeKey key) ((shared.popCredit key).untrack key)
        (.unlink (bothFiles entry.path) .done)
  | scannedBlockFirst (key file info) : shared.dataFiles (keyToPath key true) = some file →
      config.readBlockFirstMetadata (keyToPath key true) file = .ok info →
      Transition config shared choice (.scanBlockFirst key) shared (.indexBlockFirst key info)
  | skippedBlockFirst (key) : Transition config shared choice (.scanBlockFirst key) shared .done
  | indexedBlockFirst (key info) : Transition config shared choice (.indexBlockFirst key info)
      (shared.indexBlockFirst key info) .done
  | scannedLegacy (key sidecar info) : shared.sidecars (keyToPath key false) = some sidecar →
      config.readMetadata (keyToPath key false) sidecar = some info →
      Transition config shared choice (.scanLegacy key) shared (.indexLegacy key info)
  | skippedLegacy (key) : Transition config shared choice (.scanLegacy key) shared .done
  | indexedLegacy (key info) : Transition config shared choice (.indexLegacy key info)
      (shared.indexLegacy key info) .done
  -- unlinking
  | unlinkedAll (next) : Transition config shared choice (.unlink [] next) shared next
  | unlinkFailed (file pending next) : choice = .fail →
      Transition config shared choice (.unlink (file :: pending) next) shared
        (.unlink pending next)
  | unlinked (file pending next) : choice ≠ .fail →
      Transition config shared choice (.unlink (file :: pending) next) (shared.unlinkFile file)
        (.unlink pending next)
  -- loads
  | loadsCaptured (keys) : Transition config shared choice (.captureLoads keys) shared
      (.allocateLoads keys (keys.map (captureItem shared)))
  | loadsAllocated (keys items granted) : choice = .allocate granted →
      Transition config shared choice (.allocateLoads keys items)
        { shared with nextObject := (allocateItems items granted shared.nextObject).2 }
        (.loading keys (allocateItems items granted shared.nextObject).1)
  | loadAdvanced (keys items index outcome item next moved) : choice = .item index outcome →
      items[index]? = some item → advanceItem config shared item outcome = some (next, moved) →
      Transition config shared choice (.loading keys items) next
        (.loading keys (items.set index moved))
  -- pins
  | pinned (key) : Transition config shared choice (.pinKey key) (shared.pin key) .done
  | unpinned (key) : Transition config shared choice (.unpinKey key) (shared.unpin key) .done

variable {config : Config Key Payload} {shared next : Shared Key Payload} {choice : Choice Key}

/-- What `evict` answers, with and without a size limit. -/
theorem evict_some {requiredSize : ℤ} {unlimited : Shared Key Payload} {files : List (FilePath Key)}
    {success : Bool}
    (made : evict config shared requiredSize unlimited choice = some (next, files, success)) :
    (config.maxXdsSize = none ∧ next = unlimited ∧ files = [] ∧ success = true) ∨
      ∃ paths candidates, files = paths.flatMap bothFiles ∧
        Evicts config shared choice requiredSize next paths success candidates := by
  unfold evict at made
  split at made
  · rename_i unlimited
    cases made
    exact .inl ⟨unlimited, rfl, rfl, rfl⟩
  · rename_i maxXdsSize candidates limited
    obtain ⟨⟨room, paths, fits⟩, loop, same⟩ := Option.map_eq_some_iff.mp made
    cases same
    exact .inr ⟨paths, candidates, rfl, by rw [limited]; rfl, rfl, maxXdsSize, loop⟩
  · cases made

theorem transition_of_reservePut {put : StagedPut Key} {job : Job Key Payload}
    (moved : advance config shared choice (.reservePut put) = some (next, job)) :
    Transition config shared choice (.reservePut put) next job := by
  unfold advance at moved
  dsimp only at moved
  split at moved
  · cases moved
    exact .putUnsized put
  rename_i size sized
  obtain ⟨⟨room, files, success⟩, made, same⟩ := Option.map_eq_some_iff.mp moved
  cases same
  rcases evict_some made with ⟨unlimited, rfl, rfl, rfl⟩ | ⟨paths, candidates, rfl, evicts⟩
  · simp only [unlimited, Option.isSome_none, Bool.true_eq_false, Bool.false_eq_true, if_false]
    exact .putUnlimited put size sized
  · have limited := evicts.limited
    cases success with
    | true =>
        simp only [limited, Bool.true_eq_false, if_true, if_false]
        exact .putEvicted put size _ paths candidates sized evicts
    | false => exact .putRefused put size _ paths candidates evicts

theorem transition_of_directReserve {key : Key} {job : Job Key Payload}
    (moved : advance config shared choice (.directReserve key) = some (next, job)) :
    Transition config shared choice (.directReserve key) next job := by
  unfold advance at moved
  dsimp only at moved
  split at moved
  · cases moved
    exact .directUnsized key
  rename_i diskMetadata made
  obtain ⟨⟨room, files, success⟩, evicted, same⟩ := Option.map_eq_some_iff.mp moved
  cases same
  rcases evict_some evicted with ⟨_, rfl, rfl, rfl⟩ | ⟨paths, candidates, rfl, evicts⟩
  · exact .directUnlimited key diskMetadata made
  · cases success with
    | true => exact .directEvicted key diskMetadata _ paths candidates made evicts
    | false => exact .directRefused key _ _ paths candidates evicts

theorem transition_of_savePut {put : StagedPut Key} {size : ℤ} {job : Job Key Payload}
    (moved : advance config shared choice (.savePut put size) = some (next, job)) :
    Transition config shared choice (.savePut put size) next job := by
  unfold advance at moved
  dsimp only at moved
  split at moved
  · cases moved
    exact .saveFailed put size (.inl rfl)
  · rename_i error _ failed
    cases moved
    exact .saveFailed put size (.inr ⟨error, failed⟩)
  · rename_i file notFailed saved
    cases moved
    exact .saveLegacy put size file (fun failed => notFailed failed) saved
  · rename_i file diskMetadata notFailed saved
    cases moved
    exact .saveBlockFirst put size file diskMetadata (fun failed => notFailed failed) saved

theorem transition_of_directSave {key : Key} {size : ℤ} {job : Job Key Payload}
    (moved : advance config shared choice (.directSave key size) = some (next, job)) :
    Transition config shared choice (.directSave key size) next job := by
  unfold advance at moved
  dsimp only at moved
  split at moved
  · cases moved
    exact .directFailed key size
  · cases moved
    exact .directFailed key size
  · rename_i file info notFailed written
    cases moved
    simp only [Checked.bind_ok, Checked.return_ok, Prod.mk.injEq] at written
    obtain ⟨diskMetadata, made, _, named, rfl, rfl⟩ := written
    exact .directSaved key size diskMetadata _ (fun failed => notFailed failed) made named

/-- A step of a job is one of the transitions. -/
theorem transition_of_advance {job after : Job Key Payload}
    (moved : advance config shared choice job = some (next, after)) :
    Transition config shared choice job next after := by
  cases job with
  | submitPut put =>
      unfold advance at moved
      dsimp only at moved
      split at moved
      · rename_i listed
        cases moved
        exact .putListed put listed
      · rename_i unlisted
        cases moved
        exact .putUnlisted put unlisted
  | lookupPut put =>
      unfold advance at moved
      dsimp only at moved
      cases found : shared.find put.key with
      | none =>
          simp only [found, Option.any_none, Bool.false_eq_true, if_false] at moved
          cases moved
          apply Transition.putWanted put
          intro entry here
          rw [found] at here
          cases here
      | some entry =>
          simp only [found, Option.any_some] at moved
          split at moved
          · rename_i blockFirst
            cases moved
            exact .putResident put entry found blockFirst
          · rename_i legacy
            cases moved
            apply Transition.putWanted put
            intro other here
            obtain rfl : entry = other := Option.some.inj (found.symm.trans here)
            simpa using legacy
  | enlistPut put =>
      cases moved
      exact .putEnlisted put
  | reservePut put => exact transition_of_reservePut moved
  | addPut put size value =>
      cases moved
      exact .putAdded put size value
  | trackPut put size =>
      cases moved
      exact .putTracked put size
  | savePut put size => exact transition_of_savePut moved
  | saveSidecar put size =>
      unfold advance at moved
      dsimp only at moved
      split at moved
      · cases moved
        exact .sidecarFailed put size rfl
      · rename_i notFailed
        cases moved
        exact .sidecarSaved put size fun failed => notFailed failed
  | publishPut put size path diskMetadata =>
      unfold advance at moved
      dsimp only at moved
      split at moved
      · cases moved
        exact .publishFailed put size path diskMetadata rfl
      · rename_i notFailed
        cases moved
        exact .published put size path diskMetadata fun failed => notFailed failed
  | undoPut key size =>
      cases moved
      exact .putUndone key size
  | finishPut key =>
      cases moved
      exact .putFinished key
  | directPut key =>
      unfold advance at moved
      dsimp only at moved
      split at moved
      · rename_i absent
        cases moved
        exact .directAbsent key absent
      · rename_i entry found
        split at moved
        · rename_i blockFirst
          cases moved
          exact .directResident key entry found blockFirst
        · rename_i legacy
          cases moved
          exact .directLegacy key entry found (by simpa using legacy)
  | directRemove key =>
      unfold advance at moved
      dsimp only at moved
      split at moved
      · rename_i absent
        cases moved
        exact .directGone key absent
      · rename_i entry found
        cases moved
        exact .directRemoved key entry found
  | directCheck key =>
      unfold advance at moved
      dsimp only at moved
      split at moved
      · rename_i listed
        cases moved
        exact .directListed key listed
      · rename_i unlisted
        cases moved
        exact .directUnlisted key unlisted
  | directEnlist key =>
      cases moved
      exact .directEnlisted key
  | directReserve key => exact transition_of_directReserve moved
  | directTrack key size =>
      cases moved
      exact .directTracked key size
  | directSave key size => exact transition_of_directSave moved
  | directPublish key size info =>
      unfold advance at moved
      dsimp only at moved
      split at moved
      · cases moved
        exact .directUnpublished key size info rfl
      · rename_i notFailed
        cases moved
        exact .directPublished key size info fun failed => notFailed failed
  | directRollback key size =>
      cases moved
      exact .directRolledBack key size
  | directUntrack key =>
      cases moved
      exact .directUntracked key
  | removeKey key =>
      unfold advance at moved
      dsimp only at moved
      split at moved
      · rename_i absent
        cases moved
        exact .removeAbsent key absent
      · rename_i entry found
        cases moved
        exact .removed key entry found
  | scanBlockFirst key =>
      unfold advance at moved
      dsimp only at moved
      split at moved
      · rename_i info read
        cases moved
        obtain ⟨file, found, accepted⟩ := Option.map_eq_some_iff.mp read
        exact .scannedBlockFirst key file info found accepted
      · cases moved
        exact .skippedBlockFirst key
  | indexBlockFirst key info =>
      cases moved
      exact .indexedBlockFirst key info
  | scanLegacy key =>
      unfold advance at moved
      dsimp only at moved
      split at moved
      · rename_i info read
        cases moved
        obtain ⟨sidecar, found, accepted⟩ := Option.bind_eq_some_iff.mp read
        exact .scannedLegacy key sidecar info found accepted
      · cases moved
        exact .skippedLegacy key
  | indexLegacy key info =>
      cases moved
      exact .indexedLegacy key info
  | unlink pending rest =>
      cases pending with
      | nil =>
          cases moved
          exact .unlinkedAll _
      | cons file pending =>
          unfold advance at moved
          dsimp only at moved
          split at moved
          · cases moved
            exact .unlinkFailed file pending rest rfl
          · rename_i notFailed
            cases moved
            exact .unlinked file pending rest fun failed => notFailed failed
  | captureLoads keys =>
      cases moved
      exact .loadsCaptured keys
  | allocateLoads keys items =>
      unfold advance at moved
      dsimp only at moved
      split at moved
      · rename_i granted
        cases moved
        exact .loadsAllocated keys items granted rfl
      · cases moved
  | loading keys items =>
      unfold advance at moved
      dsimp only at moved
      split at moved
      · rename_i index outcome
        split at moved
        · cases moved
        · rename_i item here
          obtain ⟨⟨shared', item'⟩, advanced, same⟩ := Option.map_eq_some_iff.mp moved
          cases same
          exact .loadAdvanced keys items index outcome item _ _ rfl here advanced
      · cases moved
  | pinKey key =>
      cases moved
      exact .pinned key
  | unpinKey key =>
      cases moved
      exact .unpinned key
  | done => cases moved

/-- A step of the machine starts a job or moves one on. -/
theorem step_cases {state after : State Key Payload} {event : Event Key}
    (stepped : step config state event = some after) :
    (∃ operation, event = .submit operation ∧ operation.admissible config = true ∧
      after = ⟨state.shared, state.jobs ++ [operation.start]⟩) ∨
    ∃ index choice job moved, event = .advance index choice ∧ state.jobs[index]? = some job ∧
      Transition config state.shared choice job after.shared moved ∧
      after.jobs = state.jobs.set index moved := by
  cases event with
  | submit operation =>
      simp only [step] at stepped
      split at stepped
      · rename_i admissible
        cases stepped
        exact .inl ⟨operation, rfl, admissible, rfl⟩
      · cases stepped
  | advance index choice =>
      simp only [step] at stepped
      split at stepped
      · cases stepped
      · rename_i job here
        obtain ⟨⟨next, moved⟩, advanced, rfl⟩ := Option.map_eq_some_iff.mp stepped
        exact .inr ⟨index, choice, job, moved, rfl, here, transition_of_advance advanced, rfl⟩

/-! ### Where entries come from -/

/-- The key and the entry that a job is about to put into the index. -/
def Job.publishes (config : Config Key Payload) : Job Key Payload → Option (Key × EntryInfo Key)
  | .publishPut put size path diskMetadata =>
      some (put.key, config.newEntry put size path diskMetadata)
  | .directPublish key _ info | .indexBlockFirst key info | .indexLegacy key info =>
      some (key, info)
  | _ => none

/-- Whether the entry goes in. A staged put leaves an entry that it finds, and
the scan of a sidecar leaves a block-first entry. -/
def Job.inserts (shared : Shared Key Payload) (choice : Choice Key) : Job Key Payload → Bool
  | .publishPut put _ _ _ => decide (choice ≠ .fail) && (shared.find put.key).isNone
  | .directPublish _ _ _ => decide (choice ≠ .fail)
  | .indexBlockFirst _ _ => true
  | .indexLegacy key _ => !(shared.find key).any fun previous => previous.diskMetadata.isSome
  | _ => false

/-- What a job adds to the pin count of a key. -/
def Job.pins (key : Key) : Job Key Payload → ℤ
  | .pinKey pinned => if pinned = key then 1 else 0
  | .unpinKey unpinned => if unpinned = key then -1 else 0
  | _ => 0

/-- An entry of the index after a step was there before it, up to its pins, or
is a new one that the step has published. -/
def EntryOrigin (config : Config Key Payload) (shared : Shared Key Payload)
    (choice : Choice Key) (job : Job Key Payload) (key : Key) (entry : Entry Key) : Prop :=
  (∃ before, shared.find key = some before ∧
    entry = { before with pinCount := before.pinCount + job.pins key }) ∨
  (∃ info, job.publishes config = some (key, info) ∧ job.inserts shared choice = true ∧
    entry = ⟨info, shared.nextStamp, 0⟩)

/-- A step that adds no entry and moves no pins. -/
theorem entryOrigin_of_kept {job : Job Key Payload} {key : Key} {entry : Entry Key}
    (kept : shared.find key = some entry) (unpinned : job.pins key = 0) :
    EntryOrigin config shared choice job key entry :=
  .inl ⟨entry, kept, by rw [unpinned, add_zero]⟩

/-- A step that publishes one entry. -/
theorem entryOrigin_of_index {job : Job Key Payload} {published key : Key} {info : EntryInfo Key}
    {entry : Entry Key} (publishes : job.publishes config = some (published, info))
    (inserts : job.inserts shared choice = true) (unpinned : job.pins key = 0)
    (found : (shared.index published info).find key = some entry) :
    EntryOrigin config shared choice job key entry := by
  rw [Shared.find_index] at found
  split at found
  · rename_i same
    cases found
    exact .inr ⟨info, by rw [publishes, same], inserts, rfl⟩
  · exact entryOrigin_of_kept found unpinned

theorem find_of_discard (key : Key) {other : Key} {entry : Entry Key}
    (found : (shared.discard key).find other = some entry) : shared.find other = some entry := by
  rw [Shared.find_discard] at found
  split at found
  · cases found
  · exact found

theorem find_of_advanceItem {item moved : LoadItem Key Payload} {outcome : ReadOutcome}
    (advanced : advanceItem config shared item outcome = some (next, moved)) {key : Key}
    {entry : Entry Key} (found : next.find key = some entry) : shared.find key = some entry := by
  unfold advanceItem at advanced
  split at advanced
  · split at advanced <;> cases advanced <;> exact found
  · cases advanced
    exact found
  · split at advanced <;> cases advanced <;> exact found
  · cases advanced
    exact find_of_discard _ found
  · cases advanced

theorem Transition.entryOrigin {job after : Job Key Payload}
    (moved : Transition config shared choice job next after) {key : Key} {entry : Entry Key}
    (found : next.find key = some entry) : EntryOrigin config shared choice job key entry := by
  cases moved with
  | putEvicted _ _ _ _ _ _ evicts | putRefused _ _ _ _ _ evicts
  | directEvicted _ _ _ _ _ _ evicts | directRefused _ _ _ _ _ evicts =>
      obtain ⟨_, loop⟩ := evicts.loop
      exact entryOrigin_of_kept ((Shared.evictLoop_index loop).2.2.1 key entry found) rfl
  | published put size path diskMetadata proceeds =>
      unfold Shared.insertKey at found
      split at found
      · exact entryOrigin_of_kept found rfl
      · rename_i absent
        refine entryOrigin_of_index rfl ?_ rfl found
        simpa [Job.inserts, proceeds] using absent
  | putUndone undone => exact entryOrigin_of_kept (find_of_discard undone found) rfl
  | directRemoved removed | removed removed =>
      exact entryOrigin_of_kept (find_of_discard removed found) rfl
  | directPublished key size info proceeds =>
      exact entryOrigin_of_index rfl (decide_eq_true proceeds) rfl found
  | indexedBlockFirst => exact entryOrigin_of_index rfl rfl rfl found
  | indexedLegacy =>
      unfold Shared.indexLegacy at found
      split at found
      · exact entryOrigin_of_kept found rfl
      · rename_i absent
        refine entryOrigin_of_index rfl ?_ rfl found
        simpa [Job.inserts] using absent
  | loadAdvanced _ _ _ _ _ _ _ _ _ advanced =>
      exact entryOrigin_of_kept (find_of_advanceItem advanced found) rfl
  | unlinked file => cases file <;> exact entryOrigin_of_kept found rfl
  | pinned pinnedKey =>
      rw [Shared.pin, Shared.find_addPins] at found
      obtain ⟨before, here, rfl⟩ := Option.map_eq_some_iff.mp found
      refine .inl ⟨before, here, ?_⟩
      by_cases same : key = pinnedKey
      · simp [Job.pins, same]
      · simp [Job.pins, same, Ne.symm same]
  | unpinned unpinnedKey =>
      rw [Shared.unpin, Shared.find_addPins] at found
      obtain ⟨before, here, rfl⟩ := Option.map_eq_some_iff.mp found
      refine .inl ⟨before, here, ?_⟩
      by_cases same : key = unpinnedKey
      · simp [Job.pins, same]
      · simp [Job.pins, same, Ne.symm same]
  | _ => exact entryOrigin_of_kept found rfl

/-- The entry that a job puts into the index. -/
theorem Transition.inserted {job after : Job Key Payload}
    (moved : Transition config shared choice job next after) {key : Key} {info : EntryInfo Key}
    (publishes : job.publishes config = some (key, info))
    (inserts : job.inserts shared choice = true) :
    next.find key = some ⟨info, shared.nextStamp, 0⟩ := by
  cases moved with
  | published put size path diskMetadata proceeds =>
      cases publishes
      have absent : ¬ (shared.find put.key).isSome = true := by
        simpa [Job.inserts, proceeds] using inserts
      rw [Shared.insertKey, if_neg absent, Shared.find_index, if_pos rfl]
  | publishFailed _ _ _ _ failed | directUnpublished _ _ _ failed =>
      rw [failed] at inserts
      cases inserts
  | directPublished =>
      cases publishes
      rw [Shared.find_index, if_pos rfl]
  | indexedBlockFirst =>
      cases publishes
      rw [Shared.indexBlockFirst, Shared.find_charge, Shared.find_index, if_pos rfl]
      rfl
  | indexedLegacy key info =>
      cases publishes
      have replaceable : ¬ ((shared.find key).any fun previous =>
          previous.diskMetadata.isSome) = true := by simpa [Job.inserts] using inserts
      rw [Shared.indexLegacy, if_neg replaceable, Shared.find_charge, Shared.find_index, if_pos rfl]
      rfl
  | _ => cases publishes

end LMCacheHcu.Xds
