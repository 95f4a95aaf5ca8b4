import LMCacheHcu.Storage.ParallelRetrieve
import LMCacheHcu.Xds.ProfiledDirectPut

/-! # The profile of a direct get

Without its pipeline `batched_direct_get` loads and ends a chunk in its first
loop. With it the files are validated in the pool, and a second and a third loop
wait for that and for the transfers, which run in parallel when their blocks
allow it.
-/

namespace LMCacheHcu.Xds.Profiling

open Completions

/-- What the operations of a chunk come back with. -/
structure RetrieveCalls where
  /-- `hot_cache.get`: the entry, if it has `disk_metadata` with the file at its path. -/
  entry : Option (Option (Storage.FileImage × Storage.BlockFirstDiskMetadata))
  /-- `_thread_pool.submit`, of `_prepare_direct_retrieve_io`. -/
  submitPrepare : Answer Unit
  prepareDirectXds : Answer Unit
  ensureDirectRegistration : Answer Unit
  /-- `_thread_pool.submit`, of `_transfer_direct_retrieve_io`. -/
  submitTransfer : Answer Unit
  transferDirectXds : Answer Unit
  /-- `cache_policy.update_on_hit` -/
  updateOnHit : Answer Unit

/-- `_DirectRetrieveJob`. -/
structure RetrieveJob where
  index : ℕ
  job : Storage.DirectRetrieveJob

namespace RetrieveCalls

variable (calls : RetrieveCalls)

/-- The guarded part of the third loop. -/
def transfer : Answer Unit := do
  calls.transferDirectXds
  calls.updateOnHit

/-- The guarded part of the first loop without the pipeline. -/
def load : Answer Unit := do
  calls.prepareDirectXds
  calls.transfer

/-- The guarded part of the second loop. -/
def prepare : Answer Unit := do
  calls.prepareDirectXds
  calls.ensureDirectRegistration

end RetrieveCalls

section Loops

variable {chunks : ℕ} (switches : DirectSwitches) (pipelineEnabled : Bool)

/-- A guarded part with its handler; `done` is what follows when nothing raises. -/
def guarded (answer : Answer Unit) (index : ℕ)
    (done batch : ProfiledBatch chunks RetrieveJob) :
    Answer Unit × ProfiledBatch chunks RetrieveJob :=
  match answer with
  | .ok () => (.ok (), done)
  | .error exc => if exc.named then (.ok (), batch.fail index true) else (.error exc, batch)

/-- A chunk of the first loop. -/
def retrieveChunk (calls : RetrieveCalls) (descriptor : Option Storage.DirectIODescriptor)
    (index : ℕ) (batch : ProfiledBatch chunks RetrieveJob) :
    Answer Unit × ProfiledBatch chunks RetrieveJob :=
  match descriptor with
  | none => (.ok (), batch.fail index false)
  | some descriptor =>
      if !switches.directEnabled then (.ok (), batch.fail index true)
      else
        match calls.entry with
        | some (some (file, diskMetadata)) =>
            if pipelineEnabled then
              guarded calls.submitPrepare index
                (batch.queue ⟨index, ⟨file, diskMetadata, descriptor⟩⟩) batch
            else guarded calls.load index (batch.succeed index) batch
        | _ => (.ok (), batch.fail index true)

/-- A job of the second loop, which makes it one of `prepared_jobs`. -/
def prepareJob (calls : RetrieveCalls) (job : RetrieveJob)
    (batch : ProfiledBatch chunks RetrieveJob) : Answer Unit × ProfiledBatch chunks RetrieveJob :=
  guarded calls.prepare job.index (batch.queue job) batch

/-- The submission of a transfer, outside any guarded part. -/
def submitTransfer (calls : RetrieveCalls) (batch : ProfiledBatch chunks RetrieveJob) :
    Answer Unit × ProfiledBatch chunks RetrieveJob := (calls.submitTransfer, batch)

/-- A job of the third loop, whose transfer runs here or has run in the pool. -/
def transferJob (calls : RetrieveCalls) (job : RetrieveJob)
    (batch : ProfiledBatch chunks RetrieveJob) : Answer Unit × ProfiledBatch chunks RetrieveJob :=
  guarded calls.transfer job.index (batch.succeed job.index) batch

end Loops

section Batch

variable {Key : Type} (switches : DirectSwitches) (calls : ℕ → RetrieveCalls)

/-- `pipeline_enabled` of a direct get. -/
def DirectSwitches.retrievePipelined (keys : List Key) : Bool :=
  switches.directRetrievePipelineEnabled && decide (keys.length > 1)

/-- The first loop of `batched_direct_get`. -/
def retrieveLoop (keys : List Key) (descriptors : List (Option Storage.DirectIODescriptor)) :
    Answer Unit × ProfiledBatch keys.length RetrieveJob :=
  let pipelineEnabled := switches.retrievePipelined keys
  forEach (fun chunk => retrieveChunk switches pipelineEnabled (calls chunk.2) chunk.1 chunk.2)
    (zipped keys descriptors) (startProfiled switches keys RetrieveJob descriptors)

/-- The second loop, over the jobs of the first. -/
def prepareLoop {chunks : ℕ} (batch : ProfiledBatch chunks RetrieveJob) :
    Answer Unit × ProfiledBatch chunks RetrieveJob :=
  forEach (fun job => prepareJob (calls job.index) job) batch.jobs { batch with jobs := [] }

/-- The submission of the transfers, and the third loop. -/
def transferLoop {chunks : ℕ} (batch : ProfiledBatch chunks RetrieveJob) :
    Answer Unit × ProfiledBatch chunks RetrieveJob :=
  let parallel := Storage.canParallelDirectRetrieve (batch.jobs.map RetrieveJob.job)
  let submitted :=
    if parallel then forEach (fun job => submitTransfer (calls job.index)) batch.jobs batch
    else (.ok (), batch)
  match submitted with
  | (.error raised, batch) => (.error raised, batch)
  | (.ok (), batch) => forEach (fun job => transferJob (calls job.index) job) batch.jobs batch

/-- `batched_direct_get`. -/
def batchedDirectGet (keys : List Key) (descriptors : List (Option Storage.DirectIODescriptor)) :
    Answer (List Bool) × Profiled keys.length :=
  match retrieveLoop switches calls keys descriptors with
  | (.error raised, batch) => (.error raised, batch.profiled)
  | (.ok (), batch) =>
      if keys.length ≠ descriptors.length then (.error (.builtin .valueError), batch.profiled)
      else
        match prepareLoop calls batch with
        | (.error raised, batch) => (.error raised, batch.profiled)
        | (.ok (), batch) =>
            match transferLoop calls batch with
            | (.error raised, batch) => (.error raised, batch.profiled)
            | (.ok (), batch) => (.ok batch.results, batch.profiled)

end Batch

/-! ### What the handlers contain -/

/-- The handler names what the guarded part raises. -/
def Named (answer : Answer Unit) : Prop := ∀ exc, answer = .error exc → exc.named = true

/-- No exception leaves the first loop at this chunk. -/
def RetrieveContained (switches : DirectSwitches) (pipelineEnabled : Bool) (calls : RetrieveCalls)
    (descriptor : Option Storage.DirectIODescriptor) : Prop :=
  descriptor.isSome → switches.directEnabled = true → ∀ cached, calls.entry = some (some cached) →
    Named (if pipelineEnabled then calls.submitPrepare else calls.load)

/-- The job of a chunk, if the first loop submits its validation. -/
def retrieveJob (switches : DirectSwitches) (pipelineEnabled : Bool) (calls : RetrieveCalls)
    (index : ℕ) (descriptor : Option Storage.DirectIODescriptor) : Option RetrieveJob :=
  match descriptor, calls.entry with
  | some descriptor, some (some (file, diskMetadata)) =>
      if switches.directEnabled && pipelineEnabled && calls.submitPrepare.toBool then
        some ⟨index, ⟨file, diskMetadata, descriptor⟩⟩
      else none
  | _, _ => none

theorem index_retrieveJob {switches : DirectSwitches} {pipelineEnabled : Bool}
    {calls : RetrieveCalls} {index : ℕ} {descriptor : Option Storage.DirectIODescriptor}
    {job : RetrieveJob}
    (waits : retrieveJob switches pipelineEnabled calls index descriptor = some job) :
    job.index = index := by
  rcases descriptor with _ | descriptor
  · cases waits
  rcases entry : calls.entry with _ | _ | ⟨file, diskMetadata⟩
  · simp [retrieveJob, entry] at waits
  · simp [retrieveJob, entry] at waits
  · simp only [retrieveJob, entry] at waits
    split at waits
    · rw [← Option.some.inj waits]
    · cases waits

/-- The job, if the second loop finds its file valid. -/
def preparedJob (calls : RetrieveCalls) (job : RetrieveJob) : Option RetrieveJob :=
  if calls.prepare.toBool then some job else none

section Turns

variable {chunks : ℕ} (switches : DirectSwitches) (pipelineEnabled : Bool) (calls : RetrieveCalls)
  (index : ℕ) (batch : ProfiledBatch chunks RetrieveJob)

theorem guarded_error_turn (exc : Raised) (done : ProfiledBatch chunks RetrieveJob) :
    batch.Turn index (Named (.error exc)) none (guarded (.error exc) index done batch) := by
  by_cases named : exc.named = true
  · rw [guarded, if_pos named]
    refine .fails true (fun other raised => ?_) rfl
    cases raised
    exact named
  · rw [guarded, if_neg named]
    exact .raises exc fun contained => named (contained exc rfl)

theorem named_ok : Named (.ok ()) := by
  intro exc raised
  cases raised

theorem guarded_succeed_turn (answer : Answer Unit) :
    batch.Turn index (Named answer) none
      (guarded answer index (batch.succeed index) batch) := by
  rcases answer with exc | _
  · exact guarded_error_turn index batch exc _
  · exact .succeeds named_ok rfl

theorem guarded_queue_turn (answer : Answer Unit) (job : RetrieveJob) :
    batch.Turn index (Named answer) (if answer.toBool then some job else none)
      (guarded answer index (batch.queue job) batch) := by
  rcases answer with exc | _
  · exact guarded_error_turn index batch exc _
  · exact .queues job named_ok rfl

theorem retrieveChunk_turn (descriptor : Option Storage.DirectIODescriptor) :
    batch.Turn index (RetrieveContained switches pipelineEnabled calls descriptor)
      (retrieveJob switches pipelineEnabled calls index descriptor)
      (retrieveChunk switches pipelineEnabled calls descriptor index batch) := by
  cases descriptor with
  | none => exact .fails false (fun present => absurd present Bool.false_ne_true) rfl
  | some descriptor =>
  cases enabled : switches.directEnabled with
  | false =>
      simp only [retrieveChunk, enabled]
      refine .fails true (fun _ on => absurd (enabled.symm.trans on) Bool.false_ne_true) ?_
      simp only [retrieveJob, enabled]
      split <;> rfl
  | true =>
  rcases entry : calls.entry with _ | _ | ⟨file, diskMetadata⟩
  · simp only [retrieveChunk, retrieveJob, enabled, entry]
    refine .fails true (fun _ _ cached here => ?_) rfl
    cases entry.symm.trans here
  · simp only [retrieveChunk, retrieveJob, enabled, entry]
    refine .fails true (fun _ _ cached here => ?_) rfl
    cases entry.symm.trans here
  · have reached : RetrieveContained switches pipelineEnabled calls (some descriptor) ↔
        Named (if pipelineEnabled then calls.submitPrepare else calls.load) :=
      ⟨fun contained => contained rfl enabled _ entry, fun named _ _ _ _ => named⟩
    simp only [retrieveChunk, retrieveJob, enabled, entry]
    cases pipelineEnabled with
    | true => exact (guarded_queue_turn index batch _ _).congr reached.symm rfl
    | false => exact (guarded_succeed_turn index batch _).congr reached.symm rfl

theorem prepareJob_turn (job : RetrieveJob) :
    batch.Turn job.index (Named calls.prepare) (preparedJob calls job)
      (prepareJob calls job batch) :=
  guarded_queue_turn job.index batch calls.prepare job

theorem transferJob_turn (job : RetrieveJob) :
    batch.Turn job.index (Named calls.transfer) none (transferJob calls job batch) :=
  guarded_succeed_turn job.index batch calls.transfer

end Turns

/-! ### The batch -/

section Batch

variable {Key : Type} (switches : DirectSwitches) (calls : ℕ → RetrieveCalls)
  (keys : List Key) (descriptors : List (Option Storage.DirectIODescriptor))

/-- The jobs that the first loop submits. -/
def retrieveJobs : List RetrieveJob :=
  (zipped keys descriptors).filterMap fun chunk =>
    retrieveJob switches (switches.retrievePipelined keys) (calls chunk.2) chunk.2 chunk.1

/-- The jobs whose files are valid. -/
def preparedJobs (jobs : List RetrieveJob) : List RetrieveJob :=
  jobs.filterMap fun job => preparedJob (calls job.index) job

/-- No exception leaves the transfers of the prepared jobs. -/
structure TransfersContained (prepared : List RetrieveJob) : Prop where
  submitted : Storage.canParallelDirectRetrieve (prepared.map RetrieveJob.job) = true →
    ∀ job ∈ prepared, (calls job.index).submitTransfer = .ok ()
  third : ∀ job ∈ prepared, Named (calls job.index).transfer

/-- No exception leaves the loops of `batched_direct_get`. -/
structure GetContained : Prop where
  /-- `zip` is strict; a surplus descriptor matters if there is a second loop. -/
  lengths : keys.length = descriptors.length ∨
    keys.length < descriptors.length ∧ retrieveJobs switches calls keys descriptors = []
  first : ∀ chunk ∈ zipped keys descriptors,
    RetrieveContained switches (switches.retrievePipelined keys) (calls chunk.2) chunk.1
  second : ∀ job ∈ retrieveJobs switches calls keys descriptors, Named (calls job.index).prepare
  transfers : TransfersContained calls
    (preparedJobs calls (retrieveJobs switches calls keys descriptors))

/-- The transfers are all submitted, or one submission raises. -/
theorem submitLoop_cases {chunks : ℕ} (jobs : List RetrieveJob)
    (batch : ProfiledBatch chunks RetrieveJob) :
    ((∀ job ∈ jobs, (calls job.index).submitTransfer = .ok ()) ∧
      forEach (fun job => submitTransfer (calls job.index)) jobs batch = (.ok (), batch)) ∨
    ((¬ ∀ job ∈ jobs, (calls job.index).submitTransfer = .ok ()) ∧
      ∃ raised, forEach (fun job => submitTransfer (calls job.index)) jobs batch =
        (.error raised, batch)) := by
  induction jobs with
  | nil => exact .inl ⟨List.forall_mem_nil _, rfl⟩
  | cons job jobs ih =>
      rcases here : (calls job.index).submitTransfer with raised | _
      · refine .inr ⟨fun all => ?_, raised, ?_⟩
        · cases here.symm.trans (all job List.mem_cons_self)
        · simp only [forEach, submitTransfer, here]
      · rcases ih with ⟨all, ran⟩ | ⟨escape, raised, ran⟩
        · refine .inl ⟨List.forall_mem_cons.mpr ⟨here, all⟩, ?_⟩
          simpa only [forEach, submitTransfer, here] using ran
        · refine .inr ⟨fun all => escape (List.forall_mem_cons.mp all).2, raised, ?_⟩
          simpa only [forEach, submitTransfer, here] using ran

theorem transferLoop_perm_iff {chunks : ℕ} {batch : ProfiledBatch chunks RetrieveJob}
    (all : (batch.ended ++ batch.jobs.map RetrieveJob.index).Perm (List.range chunks)) :
    (transferLoop calls batch).2.ended.Perm (List.range chunks) ↔
      TransfersContained calls batch.jobs := by
  have third := ProfiledBatch.lastLoop_perm_iff
    (fun job batch => transferJob_turn (calls job.index) batch job) all
  cases parallel : Storage.canParallelDirectRetrieve (batch.jobs.map RetrieveJob.job) with
  | false =>
      simp only [transferLoop, parallel, Bool.false_eq_true, ↓reduceIte]
      refine third.trans ⟨fun named => ⟨fun on => ?_, named⟩, TransfersContained.third⟩
      cases parallel.symm.trans on
  | true =>
      simp only [transferLoop, parallel, ↓reduceIte]
      obtain ⟨submitted, ran⟩ | ⟨escape, raised, ran⟩ := submitLoop_cases calls batch.jobs batch
      · rw [ran]
        exact third.trans ⟨fun named => ⟨fun _ => submitted, named⟩, TransfersContained.third⟩
      · rw [ran]
        refine iff_of_false (fun complete => escape ?_) fun contained =>
          escape (contained.submitted parallel)
        -- All chunks have ended, so that no job is left whose submission could raise.
        have ended : batch.ended.length = chunks := by simpa using complete.length_eq
        have total := all.length_eq
        rw [List.length_append, List.length_map, List.length_range] at total
        have none : batch.jobs = [] := List.length_eq_zero_iff.mp (by omega)
        rw [none]
        exact List.forall_mem_nil _

theorem prepareLoop_through {chunks : ℕ} {batch : ProfiledBatch chunks RetrieveJob}
    (all : (batch.ended ++ batch.jobs.map RetrieveJob.index).Perm (List.range chunks))
    (second : ∀ job ∈ batch.jobs, Named (calls job.index).prepare) :
    ∃ next, prepareLoop calls batch = (.ok (), next) ∧
      next.jobs = preparedJobs calls batch.jobs ∧
      (next.ended ++ next.jobs.map RetrieveJob.index).Perm (List.range chunks) := by
  have keeps (job later : RetrieveJob)
      (waits : preparedJob (calls job.index) job = some later) : later.index = job.index := by
    rw [preparedJob] at waits
    split at waits
    · rw [Option.some.inj waits]
    · cases waits
  obtain ⟨next, ran, waiting, complete⟩ := ProfiledBatch.loop_through
    (fun job batch => prepareJob_turn (calls job.index) batch job) keeps second
    { batch with jobs := [] } rfl
  exact ⟨next, ran, waiting, complete.trans all⟩

theorem prepareLoop_escapes {chunks : ℕ} {batch : ProfiledBatch chunks RetrieveJob}
    (all : (batch.ended ++ batch.jobs.map RetrieveJob.index).Perm (List.range chunks))
    (escape : ¬ ∀ job ∈ batch.jobs, Named (calls job.index).prepare) :
    ∃ raised next, prepareLoop calls batch = (.error raised, next) ∧
      next.ended.length < chunks := by
  obtain ⟨raised, next, ran, short⟩ := ProfiledBatch.loop_escapes
    (fun job batch => prepareJob_turn (calls job.index) batch job) escape
    { batch with jobs := [] } rfl
  have total := all.length_eq
  rw [List.length_append, List.length_map, List.length_range] at total
  change next.ended.length < batch.ended.length + batch.jobs.length at short
  exact ⟨raised, next, ran, by omega⟩

theorem transfersContained_nil : TransfersContained calls (preparedJobs calls []) where
  submitted := fun _ => List.forall_mem_nil _
  third := List.forall_mem_nil _

theorem batchedDirectGet_perm_iff :
    (batchedDirectGet switches calls keys descriptors).2.ended.Perm (List.range keys.length) ↔
      GetContained switches calls keys descriptors := by
  have turns (chunk : Option Storage.DirectIODescriptor × ℕ)
      (batch : ProfiledBatch keys.length RetrieveJob) :=
    retrieveChunk_turn switches (switches.retrievePipelined keys) (calls chunk.2) chunk.2 batch
      chunk.1
  by_cases first : ∀ chunk ∈ zipped keys descriptors,
      RetrieveContained switches (switches.retrievePipelined keys) (calls chunk.2) chunk.1
  · have keeps (chunk : Option Storage.DirectIODescriptor × ℕ) (job : RetrieveJob) :=
      @index_retrieveJob switches (switches.retrievePipelined keys) (calls chunk.2) chunk.2 chunk.1
        job
    obtain ⟨batch, ran, waiting, all⟩ :=
      firstLoop_through switches keys descriptors turns keeps first
    have jobs : batch.jobs = retrieveJobs switches calls keys descriptors := waiting
    rw [batchedDirectGet, retrieveLoop, ran]
    dsimp only
    by_cases equal : keys.length = descriptors.length
    · rw [← equal, Nat.min_self] at all
      rw [if_neg (not_not.mpr equal)]
      by_cases second : ∀ job ∈ batch.jobs, Named (calls job.index).prepare
      · obtain ⟨prepared, ran, waiting, all⟩ := prepareLoop_through calls all second
        have transfers := transferLoop_perm_iff calls all
        rw [ran]
        rw [jobs] at second waiting
        rw [waiting] at transfers
        refine Iff.trans ?_ ⟨fun contained => ⟨.inl equal, first, second, contained⟩,
          GetContained.transfers⟩
        rw [← transfers]
        dsimp only
        rcases transferLoop calls prepared with ⟨_ | _, final⟩ <;> rfl
      · obtain ⟨raised, next, ran, short⟩ := prepareLoop_escapes calls all second
        rw [ran]
        refine iff_of_false (fun complete => ?_) fun contained => second ?_
        · have length := complete.length_eq
          rw [List.length_range] at length
          exact absurd length short.ne
        · rw [jobs]
          exact contained.second
    · have length := all.length_eq
      rw [List.length_append, List.length_map, List.length_range] at length
      rw [if_pos equal]
      refine ⟨fun complete => ?_, fun contained => ?_⟩
      · -- No chunk waits, so there is nothing that the later loops would have ended.
        have ended := complete.length_eq
        rw [List.length_range] at ended
        change batch.ended.length = keys.length at ended
        have none : batch.jobs = [] := List.length_eq_zero_iff.mp (by omega)
        rw [jobs] at none
        refine ⟨.inr ⟨by omega, none⟩, first, ?_, ?_⟩
        · rw [none]
          exact List.forall_mem_nil _
        · rw [none]
          exact transfersContained_nil calls
      · obtain ⟨fewer, none⟩ := contained.lengths.resolve_left equal
        rw [jobs, none, List.map_nil, List.append_nil, Nat.min_eq_left fewer.le] at all
        exact all
  · obtain ⟨raised, batch, ran, short⟩ := firstLoop_escapes switches keys descriptors turns first
    refine iff_of_false (fun complete => ?_) fun contained => first contained.first
    have length := complete.length_eq
    rw [batchedDirectGet, retrieveLoop, ran, List.length_range] at length
    exact absurd length short.ne

/-! The loops neither make nor drop the profile. -/

theorem present_retrieveLoop :
    (retrieveLoop switches calls keys descriptors).2.present =
      (startProfiled switches keys RetrieveJob descriptors).present :=
  forEach_kept ProfiledBatch.present
    (fun (chunk : Option Storage.DirectIODescriptor × ℕ) batch =>
      (retrieveChunk_turn switches (switches.retrievePipelined keys) (calls chunk.2) chunk.2 batch
        chunk.1).present) _ _

theorem present_prepareLoop {chunks : ℕ} (batch : ProfiledBatch chunks RetrieveJob) :
    (prepareLoop calls batch).2.present = batch.present :=
  forEach_kept ProfiledBatch.present
    (fun (job : RetrieveJob) batch => (prepareJob_turn (calls job.index) batch job).present)
    batch.jobs { batch with jobs := [] }

theorem present_transferLoop {chunks : ℕ} (batch : ProfiledBatch chunks RetrieveJob) :
    (transferLoop calls batch).2.present = batch.present := by
  have third := forEach_kept ProfiledBatch.present
    (fun job batch => (transferJob_turn (calls job.index) batch job).present) batch.jobs batch
  cases parallel : Storage.canParallelDirectRetrieve (batch.jobs.map RetrieveJob.job) with
  | false =>
      simp only [transferLoop, parallel, Bool.false_eq_true, ↓reduceIte]
      exact third
  | true =>
    simp only [transferLoop, parallel, ↓reduceIte]
    obtain ⟨-, ran⟩ | ⟨-, raised, ran⟩ := submitLoop_cases calls batch.jobs batch
    · rw [ran]
      exact third
    · rw [ran]

theorem present_batchedDirectGet :
    (batchedDirectGet switches calls keys descriptors).2.profile.isSome =
      (startProfiled switches keys RetrieveJob descriptors).present := by
  rw [← present_retrieveLoop switches calls, batchedDirectGet]
  rcases retrieveLoop switches calls keys descriptors with ⟨_ | _, batch⟩
  · rfl
  dsimp only
  split
  · rfl
  have second := present_prepareLoop calls batch
  rw [← second]
  rcases prepareLoop calls batch with ⟨_ | _, prepared⟩
  · rfl
  have third := present_transferLoop calls prepared
  rw [← third]
  dsimp only
  rcases transferLoop calls prepared with ⟨_ | _, final⟩ <;> rfl

/-- The profile of a direct get completes exactly when no exception leaves its loops. -/
theorem batchedDirectGet_completes_iff :
    (batchedDirectGet switches calls keys descriptors).2.Completes ↔
      (switches.ioProfileEnabled = true → 0 < keys.length →
        GetContained switches calls keys descriptors) := by
  refine Profiled.completes_iff_of_perm _ ?_ fun _ =>
    batchedDirectGet_perm_iff switches calls keys descriptors
  rw [← present_startProfiled switches keys descriptors RetrieveJob,
    ← present_batchedDirectGet switches calls keys descriptors]

end Batch

end LMCacheHcu.Xds.Profiling
