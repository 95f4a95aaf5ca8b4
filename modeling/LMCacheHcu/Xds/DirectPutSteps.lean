import LMCacheHcu.Xds.DirectPut

/-! # What one chunk of a batch can do

The ways in which the first loop goes on with a chunk, and the effect of each
region of it on the index, the counter, `put_tasks` and the cache policy.
-/

namespace LMCacheHcu.Xds

open Storage

variable {Key Payload Descriptor : Type} [DecidableEq Key]

/-! ### Regions that only drop entries -/

/-- Some entries are gone, with the policy's track of them; nothing else of the
index has changed. -/
structure Shrinks (shared next : Shared Key Payload) : Prop where
  putTasks : next.putTasks = shared.putTasks
  nextStamp : next.nextStamp = shared.nextStamp
  keys : ∀ key, (next.find key = shared.find key ∧
    (key ∈ next.tracked ↔ key ∈ shared.tracked)) ∨
    ((shared.find key).isSome = true ∧ next.find key = none ∧ key ∉ next.tracked)

variable {shared middle next : Shared Key Payload}

theorem Shrinks.refl (shared : Shared Key Payload) : Shrinks shared shared :=
  ⟨rfl, rfl, fun _ => .inl ⟨rfl, Iff.rfl⟩⟩

theorem Shrinks.trans (first : Shrinks shared middle) (second : Shrinks middle next) :
    Shrinks shared next := by
  refine ⟨second.putTasks.trans first.putTasks, second.nextStamp.trans first.nextStamp,
    fun key => ?_⟩
  rcases second.keys key with ⟨same, tracked⟩ | ⟨present, gone, untracked⟩
  · rcases first.keys key with ⟨before, earlier⟩ | ⟨present, gone, untracked⟩
    · exact .inl ⟨same.trans before, tracked.trans earlier⟩
    · exact .inr ⟨present, same.trans gone, fun member => untracked (tracked.mp member)⟩
  · rcases first.keys key with ⟨before, _⟩ | ⟨_, dropped, _⟩
    · exact .inr ⟨by rwa [before] at present, gone, untracked⟩
    · rw [dropped] at present
      cases present

/-- What was absent stays absent, and as tracked as it was. -/
theorem Shrinks.absent (shrinks : Shrinks shared next) {key : Key}
    (absent : shared.find key = none) :
    next.find key = none ∧ (key ∈ next.tracked ↔ key ∈ shared.tracked) := by
  rcases shrinks.keys key with ⟨same, tracked⟩ | ⟨present, _, _⟩
  · exact ⟨same.trans absent, tracked⟩
  · rw [absent] at present
    cases present

theorem shrinks_unlinkAll (files : List (FilePath Key)) (shared : Shared Key Payload) :
    Shrinks shared (shared.unlinkAll files) ∧
      (shared.unlinkAll files).currentCacheSize = shared.currentCacheSize := by
  induction files generalizing shared with
  | nil => exact ⟨.refl shared, rfl⟩
  | cons file files ih =>
      obtain ⟨rest, counter⟩ := ih (shared.unlinkFile file)
      have first : Shrinks shared (shared.unlinkFile file) ∧
          (shared.unlinkFile file).currentCacheSize = shared.currentCacheSize := by
        cases file <;> exact ⟨⟨rfl, rfl, fun _ => .inl ⟨rfl, Iff.rfl⟩⟩, rfl⟩
      exact ⟨first.1.trans rest, counter.trans first.2⟩

/-- Pop an entry and its track. -/
theorem shrinks_popCredit {key : Key} {entry : Entry Key} (found : shared.find key = some entry) :
    Shrinks shared ((shared.popCredit key).untrack key) ∧
      ((shared.popCredit key).untrack key).currentCacheSize =
        shared.currentCacheSize - entry.size := by
  refine ⟨⟨rfl, rfl, fun other => ?_⟩, ?_⟩
  · have find : ((shared.popCredit key).untrack key).find other =
        if other = key then none else shared.find other := Shared.find_popCredit key other
    by_cases same : other = key
    · subst same
      refine .inr ⟨by rw [found]; rfl, ?_, Finset.notMem_erase _ _⟩
      rw [find, if_pos rfl]
    · refine .inl ⟨by rw [find, if_neg same], ?_⟩
      exact ⟨Finset.mem_of_mem_erase, fun member => Finset.mem_erase.mpr ⟨same, member⟩⟩
  · simp only [Shared.untrack, Shared.popCredit, Shared.charge, Shared.discard, Shared.entrySize,
      found, Option.map_some, Option.getD_some]
    ring

theorem shrinks_removeEntry {key : Key} {entry : Entry Key}
    (found : shared.find key = some entry) :
    Shrinks shared (shared.removeEntry key entry) ∧
      (shared.removeEntry key entry).currentCacheSize = shared.currentCacheSize - entry.size ∧
      (shared.removeEntry key entry).find key = none := by
  obtain ⟨popped, credit⟩ := shrinks_popCredit found
  obtain ⟨unlinked, counter⟩ := shrinks_unlinkAll (bothFiles entry.path)
    ((shared.popCredit key).untrack key)
  refine ⟨popped.trans unlinked, counter.trans credit, (unlinked.absent ?_).1⟩
  exact (Shared.find_popCredit key key).trans (if_pos rfl)

/-- The room of a reservation goes on the counter. -/
theorem shrinks_charge (size : ℤ) (shared : Shared Key Payload) :
    Shrinks shared (shared.charge size) :=
  ⟨rfl, rfl, fun _ => .inl ⟨rfl, Iff.rfl⟩⟩

/-- The evictions of a locked loop. -/
theorem shrinks_evictLoop {maxXdsSize requiredSize : ℤ} {candidates : List Key}
    {before paths : List (DataPath Key)} {success : Bool}
    (evicted : Shared.evictLoop maxXdsSize requiredSize candidates shared before =
      some (next, paths, success)) :
    Shrinks shared next ∧ ∃ count, paths.length = before.length + count ∧
      (∀ candidate ∈ candidates.take count, (shared.find candidate).isSome = true) ∧
      next.currentCacheSize = shared.currentCacheSize -
        ((shared.evictedEntries candidates count).map fun entry => entry.size).sum +
          if success then requiredSize else 0 := by
  induction candidates generalizing shared before with
  | nil =>
      simp only [Shared.evictLoop] at evicted
      split at evicted <;> cases evicted
      · exact ⟨shrinks_charge requiredSize _, 0, rfl, by simp, by simp [Shared.evictedEntries,
          Shared.charge]⟩
      · exact ⟨.refl _, 0, rfl, by simp, by simp [Shared.evictedEntries]⟩
  | cons candidate candidates ih =>
      simp only [Shared.evictLoop] at evicted
      split at evicted
      · cases evicted
        exact ⟨shrinks_charge requiredSize _, 0, rfl, by simp, by simp [Shared.evictedEntries,
          Shared.charge]⟩
      split at evicted
      · cases evicted
      rename_i entry found
      split at evicted
      · obtain ⟨popped, credit⟩ := shrinks_popCredit found
        obtain ⟨rest, count, length, present, counter⟩ := ih evicted
        have later : ∀ other ∈ candidates.take count,
            ((shared.popCredit candidate).untrack candidate).find other = shared.find other := by
          intro other member
          rcases popped.keys other with ⟨same, _⟩ | ⟨_, gone, _⟩
          · exact same
          · rw [present other member |> Option.isSome_iff_exists.mp |>.choose_spec] at gone
            cases gone
        refine ⟨popped.trans rest, count + 1, ?_, fun other member => ?_, ?_⟩
        · rw [length, List.length_append, List.length_singleton]
          omega
        · rcases List.mem_cons.mp member with rfl | old
          · rw [found]
            rfl
          · rw [← later other old]
            exact present other old
        · have entries : ((shared.popCredit candidate).untrack candidate).evictedEntries
              candidates count = shared.evictedEntries candidates count :=
            List.filterMap_congr later
          have head : shared.evictedEntries (candidate :: candidates) (count + 1) =
              entry :: shared.evictedEntries candidates count := by
            simp [Shared.evictedEntries, found]
          rw [counter, credit, entries, head, List.map_cons, List.sum_cons]
          ring
      · cases evicted

/-- `_eviction` drops what it lists, and reserves the room if there is room. -/
theorem shrinks_eviction {maxXdsSize requiredSize : ℤ} {candidates : List Key}
    {dropped : List (Entry Key)} {success : Bool}
    (evicted : shared.eviction maxXdsSize requiredSize candidates =
      some (next, dropped, success)) :
    Shrinks shared next ∧ next.currentCacheSize = shared.currentCacheSize -
      (dropped.map fun entry => entry.size).sum + if success then requiredSize else 0 := by
  obtain ⟨⟨room, paths, fits⟩, loop, same⟩ := Option.map_eq_some_iff.mp evicted
  cases same
  obtain ⟨shrinks, count, length, _, counter⟩ := shrinks_evictLoop loop
  obtain ⟨unlinked, unchanged⟩ := shrinks_unlinkAll (paths.flatMap bothFiles) room
  have popped : paths.length = count := by simpa using length
  refine ⟨shrinks.trans unlinked, ?_⟩
  rw [unchanged, popped]
  exact counter

theorem shrinks_reserveDirect {config : Config Key Payload} {requiredSize : ℤ}
    {candidates : List Key} {dropped : List (Entry Key)} {success : Bool}
    (reserved : reserveDirect config shared requiredSize candidates =
      some (next, dropped, success)) :
    Shrinks shared next ∧ next.currentCacheSize = shared.currentCacheSize -
      (dropped.map fun entry => entry.size).sum + if success then requiredSize else 0 := by
  unfold reserveDirect at reserved
  split at reserved
  · exact shrinks_eviction reserved
  · cases reserved
    exact ⟨shrinks_charge requiredSize shared, by simp [Shared.charge]⟩

/-! ### The ways of a chunk -/

section Steps

variable (config : Config Key Payload) (environment : DirectStoreEnvironment Key)
  (pipelined : Bool) (batch : DirectBatch Key Payload)

/-- The chunk has a descriptor that may be used. -/
def DirectChunk.Admitted (chunk : DirectChunk Key Descriptor) : Prop :=
  chunk.descriptor.isSome = true ∧ config.backend.directEnabled = true

/-- A legacy entry of the key is removed first. -/
inductive Cleared (key : Key) : DirectBatch Key Payload → Prop
  | absent : batch.shared.find key = none → Cleared key batch
  | removed (existing) : batch.shared.find key = some existing → existing.diskMetadata = none →
      Cleared key { batch with
        shared := batch.shared.removeEntry key existing
        dropped := batch.dropped ++ [existing] }

/-- The job of a chunk. -/
def storeJob (index : ℕ) (key : Key) (diskMetadata : BlockFirstDiskMetadata) :
    DirectStoreJob Key :=
  ⟨index, key, keyToPath key true, blockFirstHeaderSize + diskMetadata.ioNbytes⟩

/-- The batch with a reserved chunk that the policy tracks. -/
def reservedBatch (cleared : DirectBatch Key Payload) (key : Key) (room : Shared Key Payload)
    (dropped : List (Entry Key)) : DirectBatch Key Payload :=
  { cleared with shared := room.track key, dropped := cleared.dropped ++ dropped }

/-- How the first loop goes on with a chunk. -/
inductive ChunkStep (chunk : DirectChunk Key Descriptor) (index : ℕ) :
    DirectBatch Key Payload → Prop
  | skipped : ¬ chunk.Admitted config → ChunkStep chunk index batch
  | resident (existing) : chunk.Admitted config → batch.shared.find chunk.key = some existing →
      existing.diskMetadata.isSome = true →
      ChunkStep chunk index { batch with results := batch.results.set index true }
  | listed (cleared) : chunk.Admitted config → Cleared batch chunk.key cleared →
      chunk.key ∈ cleared.shared.putTasks → ChunkStep chunk index cleared
  | unsized (cleared error) : chunk.Admitted config → Cleared batch chunk.key cleared →
      chunk.key ∉ cleared.shared.putTasks →
      config.backend.makeDirectBlockFirstMetadata = .error error →
      ChunkStep chunk index
        { cleared with shared := (cleared.shared.enlist chunk.key).delist chunk.key }
  | refused (cleared diskMetadata room dropped) : chunk.Admitted config →
      Cleared batch chunk.key cleared → chunk.key ∉ cleared.shared.putTasks →
      config.backend.makeDirectBlockFirstMetadata = .ok diskMetadata →
      reserveDirect config (cleared.shared.enlist chunk.key)
        (blockFirstHeaderSize + diskMetadata.ioNbytes) (environment.candidates index) =
          some (room, dropped, false) →
      ChunkStep chunk index { cleared with
        shared := room.delist chunk.key, dropped := cleared.dropped ++ dropped }
  | reserved (cleared diskMetadata room dropped) : chunk.Admitted config →
      Cleared batch chunk.key cleared → chunk.key ∉ cleared.shared.putTasks →
      config.backend.makeDirectBlockFirstMetadata = .ok diskMetadata →
      reserveDirect config (cleared.shared.enlist chunk.key)
        (blockFirstHeaderSize + diskMetadata.ioNbytes) (environment.candidates index) =
          some (room, dropped, true) →
      ChunkStep chunk index (
        let batch := reservedBatch cleared chunk.key room dropped
        let job := storeJob index chunk.key diskMetadata
        if pipelined then { batch with jobs := batch.jobs ++ [job] }
        else settleJob config environment batch job)

end Steps

variable {config : Config Key Payload} {environment : DirectStoreEnvironment Key}
  {pipelined : Bool} {batch after cleared : DirectBatch Key Payload}
  {chunk : DirectChunk Key Descriptor} {index : ℕ}

theorem chunkStep_of_attemptChunk (admitted : chunk.Admitted config)
    (ready : Cleared batch chunk.key cleared) (unlisted : chunk.key ∉ cleared.shared.putTasks)
    (attempted : attemptChunk config environment pipelined index chunk.key cleared = some after) :
    ChunkStep config environment pipelined batch chunk index after := by
  unfold attemptChunk at attempted
  split at attempted
  · rename_i error failed
    cases attempted
    exact .unsized cleared error admitted ready unlisted failed
  · rename_i diskMetadata made
    obtain ⟨⟨room, dropped, success⟩, reserved, same⟩ := Option.map_eq_some_iff.mp attempted
    cases success with
    | false =>
        cases same
        exact .refused cleared diskMetadata room dropped admitted ready unlisted made reserved
    | true =>
        cases same
        exact .reserved cleared diskMetadata room dropped admitted ready unlisted made reserved

theorem chunkStep_of_storeChunk
    (stored : storeChunk config environment pipelined batch (chunk, index) = some after) :
    ChunkStep config environment pipelined batch chunk index after := by
  unfold storeChunk at stored
  simp only at stored
  split at stored
  · rename_i unusable
    cases stored
    apply ChunkStep.skipped
    rintro ⟨described, enabled⟩
    rcases unusable with none | disabled
    · rw [Option.isNone_iff_eq_none.mp none] at described
      cases described
    · rw [disabled] at enabled
      cases enabled
  rename_i usable
  have admitted : chunk.Admitted config := by
    simpa [DirectChunk.Admitted, not_or, Option.isSome_iff_ne_none] using usable
  split at stored
  · rename_i existing found
    split at stored
    · rename_i blockFirst
      cases stored
      exact .resident existing admitted found blockFirst
    · rename_i legacy
      have ready := Cleared.removed existing found (by simpa using legacy)
      split at stored
      · rename_i listed
        cases stored
        exact .listed _ admitted ready listed
      · rename_i unlisted
        exact chunkStep_of_attemptChunk admitted ready unlisted stored
  · rename_i absent
    split at stored
    · rename_i listed
      cases stored
      exact .listed _ admitted (.absent absent) listed
    · rename_i unlisted
      exact chunkStep_of_attemptChunk admitted (.absent absent) unlisted stored

end LMCacheHcu.Xds
