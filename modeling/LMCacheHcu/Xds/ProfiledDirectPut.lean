import LMCacheHcu.Storage.BlockFirstDisk
import LMCacheHcu.Xds.IoProfile

/-! # The profile of a direct put

`batched_direct_put` ends its chunks in one of two loops: a chunk that cannot be
stored, is resident or is stored at once in the first, one whose file transaction
runs in the pool in the second. A handler around each attempt names the
exceptions after which the chunk falls back.
-/

namespace LMCacheHcu.Xds.Profiling

open Completions

/-- The switches of a backend for direct transfers. -/
structure DirectSwitches where
  ioProfileEnabled : Bool
  directEnabled : Bool
  /-- `direct_store_enabled`, or `direct_enabled` on a backend without it. -/
  directStoreEnabled : Bool
  directStorePipelineEnabled : Bool
  directRetrievePipelineEnabled : Bool
  eviction : Bool
deriving DecidableEq

/-- What the operations of a chunk come back with. Other threads use the index,
the policy and the driver too, so none of these answers follows from another. -/
structure StoreCalls where
  /-- `hot_cache.get`: whether the entry has `disk_metadata`. -/
  existing : Option Bool
  /-- `cache_policy.update_on_hit` -/
  updateOnHit : Answer Unit
  remove : Answer Bool
  existsInPutTasks : Bool
  /-- `_make_direct_block_first_metadata`, with `io_nbytes`. -/
  makeDirectBlockFirstMetadata : Answer ℤ
  /-- `_eviction`, for a required size. -/
  evicts : ℤ → Answer Bool
  /-- `cache_policy.update_on_put` -/
  updateOnPut : Answer Unit
  keyToPath : Answer Unit
  /-- `_thread_pool.submit` -/
  submit : Answer Unit
  runDirectStoreIo : Answer Unit
  insertDirectKey : Answer Unit
  /-- `cache_policy.update_on_force_evict`, in `_rollback_direct_store`. -/
  updateOnForceEvict : Answer Unit

namespace StoreCalls

variable (calls : StoreCalls)

/-- The guarded part up to `policy_updated = True`, with `reserved`. -/
def reserve (eviction : Bool) : Answer Bool := do
  let ioNbytes ← calls.makeDirectBlockFirstMetadata
  let requiredSize := Storage.blockFirstHeaderSize + ioNbytes
  let reserved ← if eviction then calls.evicts requiredSize else pure true
  if reserved then calls.updateOnPut
  return reserved

/-- The file transaction and the publication of its file. -/
def transact : Answer Unit := do
  calls.runDirectStoreIo
  calls.insertDirectKey

/-- The guarded part behind `policy_updated = True`. -/
def start (pipelineEnabled : Bool) : Answer Unit := do
  calls.keyToPath
  if pipelineEnabled then calls.submit else calls.transact

end StoreCalls

section Loops

variable {chunks : ℕ} (switches : DirectSwitches) (pipelineEnabled : Bool)

/-- The handler of an attempt. -/
def fallBack (calls : StoreCalls) (policyUpdated : Bool) (index : ℕ) (exc : Raised)
    (batch : ProfiledBatch chunks ℕ) : Answer Unit × ProfiledBatch chunks ℕ :=
  if exc.named then
    match if policyUpdated then calls.updateOnForceEvict else .ok () with
    | .error raised => (.error raised, batch)
    | .ok () => (.ok (), batch.fail index true)
  else (.error exc, batch)

/-- The guarded part of the first loop. -/
def attemptStore (calls : StoreCalls) (index : ℕ) (batch : ProfiledBatch chunks ℕ) :
    Answer Unit × ProfiledBatch chunks ℕ :=
  match calls.reserve switches.eviction with
  | .error exc => fallBack calls false index exc batch
  | .ok false => (.ok (), batch.fail index true)
  | .ok true =>
      match calls.start pipelineEnabled with
      | .error exc => fallBack calls true index exc batch
      | .ok () =>
          if pipelineEnabled then (.ok (), batch.queue index) else (.ok (), batch.succeed index)

/-- A chunk of the first loop. -/
def storeChunk {Descriptor : Type} (calls : StoreCalls) (descriptor : Option Descriptor)
    (index : ℕ) (batch : ProfiledBatch chunks ℕ) : Answer Unit × ProfiledBatch chunks ℕ :=
  if descriptor.isNone || !switches.directEnabled then
    (.ok (), batch.fail index descriptor.isSome)
  else
    match calls.existing with
    | some true =>
        match calls.updateOnHit with
        | .error raised => (.error raised, batch)
        | .ok () => (.ok (), batch.succeed index)
    | existing =>
        match if existing.isSome then calls.remove else .ok false with
        | .error raised => (.error raised, batch)
        | .ok _ =>
            if calls.existsInPutTasks then (.ok (), batch.fail index true)
            else attemptStore switches pipelineEnabled calls index batch

/-- A job of the second loop. -/
def settleStore (calls : StoreCalls) (index : ℕ) (batch : ProfiledBatch chunks ℕ) :
    Answer Unit × ProfiledBatch chunks ℕ :=
  match calls.transact with
  | .error exc => fallBack calls true index exc batch
  | .ok () => (.ok (), batch.succeed index)

end Loops

section Batch

variable {Key Descriptor : Type} (switches : DirectSwitches) (calls : ℕ → StoreCalls)

/-- A batch before its first chunk, with every descriptor recorded. -/
def startProfiled (switches : DirectSwitches) (keys : List Key) (Job : Type)
    (descriptors : List (Option Descriptor)) : ProfiledBatch keys.length Job where
  profiled := descriptors.foldl (fun profiled descriptor => profiled.recordDescriptor descriptor)
    (.newIoProfile switches.ioProfileEnabled keys.length)
  results := List.replicate keys.length false
  jobs := []

/-- `zip(keys, descriptors, strict=True)` as far as it goes, with the indices. -/
def zipped (keys : List Key) (descriptors : List (Option Descriptor)) :
    List (Option Descriptor × ℕ) :=
  ((keys.zip descriptors).map Prod.snd).zipIdx

/-- `pipeline_enabled` of a direct put. -/
def DirectSwitches.storePipelined (keys : List Key) : Bool :=
  switches.directStorePipelineEnabled && decide (keys.length > 1)

/-- The first loop of `batched_direct_put`. -/
def storeLoop (keys : List Key) (descriptors : List (Option Descriptor)) :
    Answer Unit × ProfiledBatch keys.length ℕ :=
  let pipelineEnabled := switches.storePipelined keys
  forEach (fun chunk => storeChunk switches pipelineEnabled (calls chunk.2) chunk.1 chunk.2)
    (zipped keys descriptors) (startProfiled switches keys ℕ descriptors)

/-- `batched_direct_put`, for a backend that stores directly. -/
def storeBatch (keys : List Key) (descriptors : List (Option Descriptor)) :
    Answer (List Bool) × ProfiledBatch keys.length ℕ :=
  match storeLoop switches calls keys descriptors with
  | (.error raised, batch) => (.error raised, batch)
  | (.ok (), batch) =>
      if keys.length ≠ descriptors.length then (.error (.builtin .valueError), batch)
      else
        match forEach (fun index => settleStore (calls index) index) batch.jobs batch with
        | (.error raised, batch) => (.error raised, batch)
        | (.ok (), batch) => (.ok batch.results, batch)

/-- `batched_direct_put`. -/
def batchedDirectPut (keys : List Key) (descriptors : List (Option Descriptor)) :
    Answer (List Bool) × Profiled keys.length :=
  if !switches.directStoreEnabled then
    (.ok (List.replicate keys.length false), .newIoProfile false keys.length)
  else
    let stored := storeBatch switches calls keys descriptors
    (stored.1, stored.2.profiled)

end Batch

/-! ### What the handlers contain -/

namespace StoreCalls

variable (calls : StoreCalls)

/-- The handler names the exception, and gets through its rollback. -/
def FallsBack (policyUpdated : Bool) (exc : Raised) : Prop :=
  exc.named = true ∧ (policyUpdated = true → calls.updateOnForceEvict = .ok ())

/-- What the guarded part of the first loop raises, its handler contains. -/
structure AttemptContained (eviction pipelineEnabled : Bool) : Prop where
  reserve : ∀ exc, calls.reserve eviction = .error exc → calls.FallsBack false exc
  start : calls.reserve eviction = .ok true →
    ∀ exc, calls.start pipelineEnabled = .error exc → calls.FallsBack true exc

/-- No exception leaves the first loop at this chunk. Outside the guarded part
nothing may raise at all. -/
structure StoreContained (switches : DirectSwitches) (pipelineEnabled : Bool) : Prop where
  updateOnHit : calls.existing = some true → calls.updateOnHit = .ok ()
  remove : calls.existing = some false → ∃ removed, calls.remove = .ok removed
  attempt : calls.existing ≠ some true → calls.existsInPutTasks = false →
    calls.AttemptContained switches.eviction pipelineEnabled

/-- No exception leaves the second loop at this chunk. -/
def SettleContained : Prop := ∀ exc, calls.transact = .error exc → calls.FallsBack true exc

/-- The guarded part of the first loop submits the transaction to the pool. -/
def attemptSubmits (eviction pipelineEnabled : Bool) : Bool :=
  match calls.reserve eviction, calls.start pipelineEnabled with
  | .ok true, .ok () => pipelineEnabled
  | _, _ => false

/-- The first loop submits the transaction of the chunk to the pool. -/
def submits (eviction pipelineEnabled : Bool) : Bool :=
  match calls.existing, calls.existsInPutTasks with
  | some true, _ => false
  | _, true => false
  | _, false => calls.attemptSubmits eviction pipelineEnabled

theorem submits_of_ne {calls : StoreCalls} (here : calls.existing ≠ some true)
    (eviction pipelineEnabled : Bool) : calls.submits eviction pipelineEnabled =
      (!calls.existsInPutTasks && calls.attemptSubmits eviction pipelineEnabled) := by
  rcases existing : calls.existing with _ | _ | _
  · cases listed : calls.existsInPutTasks <;> simp [submits, existing, listed]
  · cases listed : calls.existsInPutTasks <;> simp [submits, existing, listed]
  · exact absurd existing here

end StoreCalls

section Turns

variable {chunks : ℕ} (switches : DirectSwitches) (pipelineEnabled : Bool) (calls : StoreCalls)
  (index : ℕ) (batch : ProfiledBatch chunks ℕ)

theorem fallBack_turn (policyUpdated : Bool) (exc : Raised) :
    batch.Turn index (calls.FallsBack policyUpdated exc) none
      (fallBack calls policyUpdated index exc batch) := by
  by_cases named : exc.named = true
  · rw [fallBack, if_pos named]
    cases policyUpdated with
    | false => exact .fails true ⟨named, fun updated => absurd updated Bool.false_ne_true⟩ rfl
    | true =>
        rw [if_pos rfl]
        cases rollback : calls.updateOnForceEvict with
        | ok => exact .fails true ⟨named, fun _ => rollback⟩ rfl
        | error raised =>
            refine .raises raised fun falls => ?_
            cases rollback.symm.trans (falls.2 rfl)
  · rw [fallBack, if_neg named]
    exact .raises exc fun falls => named falls.1

theorem attemptStore_turn :
    batch.Turn index (calls.AttemptContained switches.eviction pipelineEnabled)
      (if calls.attemptSubmits switches.eviction pipelineEnabled then some index else none)
      (attemptStore switches pipelineEnabled calls index batch) := by
  rcases reserved : calls.reserve switches.eviction with exc | _ | _
  · simp only [attemptStore, StoreCalls.attemptSubmits, reserved, Bool.false_eq_true, ↓reduceIte]
    refine (fallBack_turn calls index batch false exc).congr ⟨fun falls => ⟨?_, ?_⟩, ?_⟩ rfl
    · intro other raised
      cases reserved.symm.trans raised
      exact falls
    · intro success
      cases reserved.symm.trans success
    · exact fun contained => contained.reserve exc reserved
  · simp only [attemptStore, StoreCalls.attemptSubmits, reserved, Bool.false_eq_true, ↓reduceIte]
    refine .fails true ⟨fun other raised => ?_, fun success => ?_⟩ rfl
    · cases reserved.symm.trans raised
    · cases reserved.symm.trans success
  rcases started : calls.start pipelineEnabled with exc | _
  · simp only [attemptStore, StoreCalls.attemptSubmits, reserved, started, Bool.false_eq_true,
      ↓reduceIte]
    refine (fallBack_turn calls index batch true exc).congr ⟨fun falls => ⟨?_, ?_⟩, ?_⟩ rfl
    · intro other raised
      cases reserved.symm.trans raised
    · intro _ other raised
      cases started.symm.trans raised
      exact falls
    · exact fun contained => contained.start reserved exc started
  · have contained : calls.AttemptContained switches.eviction pipelineEnabled := by
      refine ⟨fun other raised => ?_, fun _ other raised => ?_⟩
      · cases reserved.symm.trans raised
      · cases started.symm.trans raised
    simp only [attemptStore, StoreCalls.attemptSubmits, reserved, started]
    cases pipelineEnabled with
    | true => exact .queues index contained rfl
    | false => exact .succeeds contained rfl

/-- No exception leaves the first loop at a chunk with or without a descriptor. -/
def ChunkContained {Descriptor : Type} (descriptor : Option Descriptor) : Prop :=
  descriptor.isSome → switches.directEnabled = true →
    calls.StoreContained switches pipelineEnabled

/-- The job of a chunk, if the first loop submits one. -/
def storeJob {Descriptor : Type} (descriptor : Option Descriptor) : Option ℕ :=
  if descriptor.isSome && switches.directEnabled &&
    calls.submits switches.eviction pipelineEnabled then some index else none

theorem storeChunk_turn {Descriptor : Type} (descriptor : Option Descriptor) :
    batch.Turn index (ChunkContained switches pipelineEnabled calls descriptor)
      (storeJob switches pipelineEnabled calls index descriptor)
      (storeChunk switches pipelineEnabled calls descriptor index batch) := by
  cases descriptor with
  | none => exact .fails false (fun present => absurd present Bool.false_ne_true) rfl
  | some descriptor =>
  cases enabled : switches.directEnabled with
  | false =>
      simp only [storeChunk, storeJob, enabled]
      exact .fails true (fun _ on => absurd (enabled.symm.trans on) Bool.false_ne_true) rfl
  | true =>
  have reached : ChunkContained switches pipelineEnabled calls (some descriptor) ↔
      calls.StoreContained switches pipelineEnabled :=
    ⟨fun contained => contained rfl enabled, fun contained _ _ => contained⟩
  suffices turn : batch.Turn index (calls.StoreContained switches pipelineEnabled)
      (if calls.submits switches.eviction pipelineEnabled then some index else none)
      (storeChunk switches pipelineEnabled calls (some descriptor) index batch) by
    refine turn.congr reached.symm ?_
    simp only [storeJob, enabled, Option.isSome_some, Bool.and_self, Bool.true_and]
  -- Behind the lookup the chunk is attempted unless its key is being put already.
  have attempted (here : calls.existing ≠ some true)
      (removed : calls.existing = some false → ∃ removed, calls.remove = .ok removed) :
      batch.Turn index (calls.StoreContained switches pipelineEnabled)
        (if calls.submits switches.eviction pipelineEnabled then some index else none)
        (if calls.existsInPutTasks then (.ok (), batch.fail index true)
          else attemptStore switches pipelineEnabled calls index batch) := by
    rw [StoreCalls.submits_of_ne here]
    cases listed : calls.existsInPutTasks with
    | true =>
        refine .fails true ⟨fun hit => absurd hit here, removed, fun _ unlisted => ?_⟩ rfl
        cases listed.symm.trans unlisted
    | false =>
        refine (attemptStore_turn switches pipelineEnabled calls index batch).congr ?_ rfl
        refine ⟨fun contained => ⟨fun hit => absurd hit here, removed, fun _ _ => contained⟩, ?_⟩
        exact fun contained => contained.attempt here listed
  rcases existing : calls.existing with _ | _ | _
  · simp only [storeChunk, enabled, existing]
    exact attempted (by simp [existing]) (by simp [existing])
  · rcases removed : calls.remove with raised | found
    · simp only [storeChunk, enabled, existing, removed]
      refine .raises raised fun contained => ?_
      obtain ⟨found, success⟩ := contained.remove existing
      cases removed.symm.trans success
    · simp only [storeChunk, enabled, existing, removed]
      exact attempted (by simp [existing]) fun _ => ⟨found, removed⟩
  · rcases hit : calls.updateOnHit with raised | _
    · simp only [storeChunk, enabled, existing, hit]
      refine .raises raised fun contained => ?_
      cases hit.symm.trans (contained.updateOnHit existing)
    · simp only [storeChunk, enabled, existing, hit]
      refine .succeeds ⟨fun _ => hit, ?_, ?_⟩ ?_
      · intro legacy
        cases existing.symm.trans legacy
      · exact fun fresh => absurd existing fresh
      · simp [StoreCalls.submits, existing]

theorem settleStore_turn :
    batch.Turn index calls.SettleContained none (settleStore calls index batch) := by
  rcases transacted : calls.transact with exc | _
  · simp only [settleStore, transacted]
    refine (fallBack_turn calls index batch true exc).congr ⟨fun falls other raised => ?_, ?_⟩ rfl
    · cases transacted.symm.trans raised
      exact falls
    · exact fun contained => contained exc transacted
  · simp only [settleStore, transacted]
    refine .succeeds (fun other raised => ?_) rfl
    cases transacted.symm.trans raised

end Turns

/-! ### The batch -/

section Batch

variable {Key Descriptor : Type} (switches : DirectSwitches) (calls : ℕ → StoreCalls)
  (keys : List Key) (descriptors : List (Option Descriptor))

theorem length_zipped : (zipped keys descriptors).length = min keys.length descriptors.length := by
  simp [zipped]

theorem map_snd_zipped : (zipped keys descriptors).map Prod.snd =
    List.range (min keys.length descriptors.length) := by
  simp [zipped, List.zipIdx_map_snd, List.range_eq_range']

@[simp] theorem ended_startProfiled (Job : Type) :
    (startProfiled switches keys Job descriptors).ended = [] := by
  have recorded (profiled : Profiled keys.length) :
      (descriptors.foldl (fun profiled descriptor => profiled.recordDescriptor descriptor)
        profiled).ended = profiled.ended := by
    induction descriptors generalizing profiled with
    | nil => rfl
    | cons descriptor descriptors ih =>
        rw [List.foldl_cons, ih, Profiled.ended_recordDescriptor]
  rw [ProfiledBatch.ended, startProfiled, recorded, Profiled.ended_newIoProfile]

theorem present_startProfiled (Job : Type) :
    (startProfiled switches keys Job descriptors).present = true ↔
      switches.ioProfileEnabled = true ∧ 0 < keys.length := by
  have recorded (profiled : Profiled keys.length) :
      (descriptors.foldl (fun profiled descriptor => profiled.recordDescriptor descriptor)
        profiled).profile.isSome = profiled.profile.isSome := by
    induction descriptors generalizing profiled with
    | nil => rfl
    | cons descriptor descriptors ih =>
        rw [List.foldl_cons, ih, Profiled.isSome_recordDescriptor]
  rw [ProfiledBatch.present, startProfiled, recorded, Profiled.isSome_newIoProfile]

section FirstLoop

variable {Job : Type} {contained : Option Descriptor × ℕ → Prop}
  {waits : Option Descriptor × ℕ → Option Job}
  {body : Option Descriptor × ℕ → ProfiledBatch keys.length Job →
    Answer Unit × ProfiledBatch keys.length Job}
  (turns : ∀ chunk (batch : ProfiledBatch keys.length Job),
    batch.Turn chunk.2 (contained chunk) (waits chunk) (body chunk batch))
include turns

/-- The chunks that a first loop has ended and those that wait are all of them. -/
theorem firstLoop_through {laterLabel : Job → ℕ}
    (keeps : ∀ chunk job, waits chunk = some job → laterLabel job = chunk.2)
    (all : ∀ chunk ∈ zipped keys descriptors, contained chunk) :
    ∃ batch, forEach body (zipped keys descriptors) (startProfiled switches keys Job descriptors) =
        (.ok (), batch) ∧
      batch.jobs = (zipped keys descriptors).filterMap waits ∧
      (batch.ended ++ batch.jobs.map laterLabel).Perm
        (List.range (min keys.length descriptors.length)) := by
  obtain ⟨batch, ran, waiting, complete⟩ := ProfiledBatch.loop_through turns keeps all
    (startProfiled switches keys Job descriptors) rfl
  rw [ended_startProfiled, List.nil_append, map_snd_zipped] at complete
  exact ⟨batch, ran, waiting, complete⟩

theorem firstLoop_escapes (escape : ¬ ∀ chunk ∈ zipped keys descriptors, contained chunk) :
    ∃ raised batch, forEach body (zipped keys descriptors)
        (startProfiled switches keys Job descriptors) = (.error raised, batch) ∧
      batch.ended.length < keys.length := by
  obtain ⟨raised, batch, ran, short⟩ := ProfiledBatch.loop_escapes turns escape
    (startProfiled switches keys Job descriptors) rfl
  rw [ended_startProfiled, List.length_nil, length_zipped] at short
  exact ⟨raised, batch, ran, by omega⟩

end FirstLoop

/-- The jobs that the first loop submits. -/
def storeJobs : List ℕ :=
  (zipped keys descriptors).filterMap fun chunk =>
    storeJob switches (switches.storePipelined keys) (calls chunk.2) chunk.2 chunk.1

/-- No exception leaves the loops of `batched_direct_put`. -/
structure PutContained : Prop where
  /-- `zip` is strict; a surplus descriptor matters if there is a second loop. -/
  lengths : keys.length = descriptors.length ∨
    keys.length < descriptors.length ∧ storeJobs switches calls keys descriptors = []
  first : ∀ chunk ∈ zipped keys descriptors,
    ChunkContained switches (switches.storePipelined keys) (calls chunk.2) chunk.1
  second : ∀ index ∈ storeJobs switches calls keys descriptors, (calls index).SettleContained

theorem present_storeLoop :
    (storeLoop switches calls keys descriptors).2.present =
      (startProfiled switches keys ℕ descriptors).present :=
  forEach_kept ProfiledBatch.present
    (fun (chunk : Option Descriptor × ℕ) batch =>
      (storeChunk_turn switches (switches.storePipelined keys) (calls chunk.2) chunk.2 batch
        chunk.1).present) _ _

theorem present_storeBatch :
    (storeBatch switches calls keys descriptors).2.present =
      (startProfiled switches keys ℕ descriptors).present := by
  rw [← present_storeLoop switches calls, storeBatch]
  rcases storeLoop switches calls keys descriptors with ⟨_ | _, batch⟩
  · rfl
  · dsimp only
    split
    · rfl
    · have second := forEach_kept ProfiledBatch.present
        (fun index batch => (settleStore_turn (calls index) index batch).present) batch.jobs batch
      rw [← second]
      rcases forEach _ _ _ with ⟨_ | _, final⟩ <;> rfl

theorem storeBatch_perm_iff :
    (storeBatch switches calls keys descriptors).2.ended.Perm (List.range keys.length) ↔
      PutContained switches calls keys descriptors := by
  have turns (chunk : Option Descriptor × ℕ) (batch : ProfiledBatch keys.length ℕ) :=
    storeChunk_turn switches (switches.storePipelined keys) (calls chunk.2) chunk.2 batch chunk.1
  by_cases first : ∀ chunk ∈ zipped keys descriptors,
      ChunkContained switches (switches.storePipelined keys) (calls chunk.2) chunk.1
  · have keeps (chunk : Option Descriptor × ℕ) (job : ℕ)
        (waits : storeJob switches (switches.storePipelined keys) (calls chunk.2) chunk.2 chunk.1 =
          some job) : id job = chunk.2 := by
      rw [storeJob] at waits
      split at waits
      · exact (Option.some.inj waits).symm
      · cases waits
    obtain ⟨batch, ran, waiting, all⟩ :=
      firstLoop_through switches keys descriptors turns keeps first
    have jobs : batch.jobs = storeJobs switches calls keys descriptors := waiting
    rw [storeBatch, storeLoop, ran]
    dsimp only
    by_cases equal : keys.length = descriptors.length
    · rw [← equal, Nat.min_self] at all
      have settled := ProfiledBatch.lastLoop_perm_iff
        (fun index batch => settleStore_turn (calls index) index batch) all
      rw [if_neg (not_not.mpr equal)]
      rw [jobs] at settled ⊢
      rcases ran : forEach (fun index => settleStore (calls index) index)
        (storeJobs switches calls keys descriptors) batch with ⟨_ | _, final⟩
      · rw [ran] at settled
        exact settled.trans ⟨fun second => ⟨.inl equal, first, second⟩, PutContained.second⟩
      · rw [ran] at settled
        exact settled.trans ⟨fun second => ⟨.inl equal, first, second⟩, PutContained.second⟩
    · have length := all.length_eq
      rw [List.length_append, List.length_map, List.length_range] at length
      rw [if_pos equal]
      refine ⟨fun complete => ?_, fun contained => ?_⟩
      · -- No chunk waits, so there is nothing that the second loop would have ended.
        have ended : batch.ended.length = keys.length := by simpa using complete.length_eq
        have none : batch.jobs = [] := List.length_eq_zero_iff.mp (by omega)
        rw [jobs] at none
        refine ⟨.inr ⟨by omega, none⟩, first, fun index member => ?_⟩
        rw [none] at member
        cases member
      · obtain ⟨fewer, none⟩ := contained.lengths.resolve_left equal
        rw [jobs, none, List.map_nil, List.append_nil, Nat.min_eq_left fewer.le] at all
        exact all
  · obtain ⟨raised, batch, ran, short⟩ := firstLoop_escapes switches keys descriptors turns first
    refine iff_of_false (fun complete => ?_) fun contained => first contained.first
    have length := complete.length_eq
    rw [storeBatch, storeLoop, ran, List.length_range] at length
    exact absurd length short.ne

/-- The profile of a direct put completes exactly when no exception leaves its loops. -/
theorem storeBatch_completes_iff :
    (storeBatch switches calls keys descriptors).2.profiled.Completes ↔
      (switches.ioProfileEnabled = true → 0 < keys.length →
        PutContained switches calls keys descriptors) := by
  refine Profiled.completes_iff_of_perm _ ?_ fun _ =>
    storeBatch_perm_iff switches calls keys descriptors
  rw [← present_startProfiled switches keys descriptors ℕ,
    ← present_storeBatch switches calls keys descriptors]
  rfl

/-- A backend that does not store directly has no profile to complete. -/
theorem batchedDirectPut_completes_iff :
    (batchedDirectPut switches calls keys descriptors).2.Completes ↔
      (switches.directStoreEnabled = true → switches.ioProfileEnabled = true → 0 < keys.length →
        PutContained switches calls keys descriptors) := by
  cases stores : switches.directStoreEnabled with
  | false =>
      refine iff_of_true (fun profile here => ?_) fun on => absurd on Bool.false_ne_true
      simp only [batchedDirectPut, stores] at here
      cases here
  | true =>
      have completes := storeBatch_completes_iff switches calls keys descriptors
      simp only [batchedDirectPut, stores]
      exact completes.trans ⟨fun contained _ => contained, fun contained => contained trivial⟩

end Batch

end LMCacheHcu.Xds.Profiling
