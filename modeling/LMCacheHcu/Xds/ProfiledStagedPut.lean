import LMCacheHcu.Foundation.Runs
import LMCacheHcu.Xds.IoProfile

/-! # The profile of a staged put

`batched_submit_put_task` ends a chunk itself or schedules its save. The saves
run in worker threads, in any order and while later chunks are submitted, and
each ends its own chunk.
-/

namespace LMCacheHcu.Xds.Profiling

open Runs

/-- The switches of a backend for staged puts. -/
structure StagedSwitches where
  ioProfileEnabled : Bool
  /-- `memory_allocator` is not `None`. -/
  hasMemoryAllocator : Bool
  cpuStoreEnabled : Bool
  eviction : Bool
deriving DecidableEq

/-- What the operations come back with that submit a chunk. -/
structure SubmitCalls where
  /-- `_required_store_size`, for `record_staged_chunk`. -/
  recordedSize : Answer ℤ
  /-- `memory_obj.tensor` is not `None`. -/
  hasTensor : Bool
  existsInPutTasks : Bool
  /-- `hot_cache.get`: whether the entry has `disk_metadata`. -/
  existing : Option Bool
  /-- `cache_policy.update_on_hit` -/
  updateOnHit : Answer Unit
  requiredStoreSize : Answer ℤ
  /-- `_eviction`, for a required size. -/
  evicts : ℤ → Answer Bool
  /-- `cache_policy.update_on_put` -/
  updateOnPut : Answer Unit
  refCountUp : Answer Unit
  /-- `asyncio.run_coroutine_threadsafe` -/
  schedule : Answer Unit

/-- What becomes of a save that is scheduled. -/
structure SaveCalls where
  /-- `submit_task` hands the save to a worker. -/
  starts : Bool
  /-- What precedes the `try` statement. -/
  begins : Answer Unit
  /-- The `try` statement. -/
  save : Answer Unit
  refCountDown : Answer Unit

namespace SubmitCalls

variable (calls : SubmitCalls)

/-- Room for the chunk, with `evict_success`. -/
def reserve (eviction : Bool) : Answer Bool := do
  let requiredSize ← calls.requiredStoreSize
  if eviction then calls.evicts requiredSize else pure true

/-- What follows a reservation. -/
def start : Answer Unit := do
  calls.updateOnPut
  calls.refCountUp
  calls.schedule

end SubmitCalls

section Chunks

variable {chunks : ℕ} (switches : StagedSwitches)

/-- `submit_put_task` behind `insert_put_task`. -/
def scheduleSave (calls : SubmitCalls) (chunk : ℕ) (batch : ProfiledBatch chunks ℕ) :
    Answer Unit × ProfiledBatch chunks ℕ :=
  match calls.reserve switches.eviction with
  | .error raised => (.error raised, batch)
  | .ok false => (.ok (), batch.fail chunk false)
  | .ok true =>
      match calls.start with
      | .error raised => (.error raised, batch)
      | .ok () => (.ok (), batch.queue chunk)

/-- `submit_put_task`; a chunk that waits has a save. -/
def submitPutTask (calls : SubmitCalls) (chunk : ℕ) (batch : ProfiledBatch chunks ℕ) :
    Answer Unit × ProfiledBatch chunks ℕ :=
  if !switches.hasMemoryAllocator && !switches.cpuStoreEnabled then
    (.ok (), batch.fail chunk false)
  else if !calls.hasTensor then (.error (.builtin .assertionError), batch)
  else if calls.existsInPutTasks then (.ok (), batch.fail chunk false)
  else
    match calls.existing with
    | some true =>
        match calls.updateOnHit with
        | .error raised => (.error raised, batch)
        | .ok () => (.ok (), batch.succeed chunk)
    | _ => scheduleSave switches calls chunk batch

/-- A turn of the loop of `batched_submit_put_task`. -/
def submitChunk (calls : SubmitCalls) (chunk : ℕ) (batch : ProfiledBatch chunks ℕ) :
    Answer Unit × ProfiledBatch chunks ℕ :=
  if batch.present then
    match calls.recordedSize with
    | .error raised => (.error raised, batch)
    | .ok _ => submitPutTask switches calls chunk batch
  else submitPutTask switches calls chunk batch

/-- `_async_save_bytes_to_storage`, which ends the chunk last of all. -/
def asyncSaveBytesToStorage (calls : SaveCalls) (chunk : ℕ) (batch : ProfiledBatch chunks ℕ) :
    ProfiledBatch chunks ℕ :=
  if !calls.starts then batch
  else
    match calls.begins, calls.refCountDown with
    | .ok (), .ok () =>
        match calls.save with
        | .ok () => batch.succeed chunk
        | .error _ => batch.fail chunk false
    | _, _ => batch

end Chunks

/-! ### The machine -/

/-- A batch while its loop and its saves run. -/
structure StagedPut (chunks : ℕ) where
  /-- The jobs are the saves that are scheduled and have not run. -/
  batch : ProfiledBatch chunks ℕ
  /-- The next chunk of the loop. -/
  next : ℕ
  /-- What has left the loop. -/
  raised : Option Raised

inductive StagedEvent
  | submit
  | save (chunk : ℕ)
deriving DecidableEq

section Machine

variable {Key MemoryObj : Type} {chunks : ℕ} (switches : StagedSwitches)
  (calls : ℕ → SubmitCalls) (saves : ℕ → SaveCalls)

def stagedStep (state : StagedPut chunks) : StagedEvent → Option (StagedPut chunks)
  | .submit =>
      if state.raised.isSome || decide (chunks ≤ state.next) then none
      else
        match submitChunk switches (calls state.next) state.next state.batch with
        | (.ok (), batch) => some { state with batch := batch, next := state.next + 1 }
        | (.error raised, batch) => some { state with batch := batch, raised := some raised }
  | .save chunk =>
      if chunk ∈ state.batch.jobs then
        some { state with
          batch := asyncSaveBytesToStorage (saves chunk) chunk
            { state.batch with jobs := state.batch.jobs.erase chunk } }
      else none

/-- `chunk_count`, of the chunks that `zip` pairs. -/
def chunkCount (keys : List Key) (memoryObjs : List MemoryObj) : ℕ :=
  min keys.length memoryObjs.length

/-- `batched_submit_put_task` before its loop. -/
def stagedStart (chunks : ℕ) : StagedPut chunks where
  batch := ⟨.newIoProfile switches.ioProfileEnabled chunks, [], []⟩
  next := 0
  raised := none

/-- The loop has ended and every save has run. -/
def StagedPut.Over (state : StagedPut chunks) : Prop :=
  (state.raised.isSome ∨ state.next = chunks) ∧ state.batch.jobs = []

end Machine

/-! ### What each chunk comes to -/

/-- No exception leaves the loop at this chunk; there is no handler. -/
structure SubmitCalls.Contained (calls : SubmitCalls) (switches : StagedSwitches)
    (profiled : Bool) : Prop where
  recorded : profiled = true → ∃ size, calls.recordedSize = .ok size
  tensor : (switches.hasMemoryAllocator || switches.cpuStoreEnabled) = true →
    calls.hasTensor = true
  hit : (switches.hasMemoryAllocator || switches.cpuStoreEnabled) = true →
    calls.existsInPutTasks = false → calls.existing = some true → calls.updateOnHit = .ok ()
  reserve : (switches.hasMemoryAllocator || switches.cpuStoreEnabled) = true →
    calls.existsInPutTasks = false → calls.existing ≠ some true →
      ∃ reserved, calls.reserve switches.eviction = .ok reserved ∧
        (reserved = true → calls.start = .ok ())

/-- The chunk is given a save if there is room for it. -/
def SubmitCalls.reserved (calls : SubmitCalls) (switches : StagedSwitches) : Bool :=
  match calls.reserve switches.eviction with
  | .ok reserved => reserved
  | .error _ => false

/-- The chunk is given a save. -/
def SubmitCalls.schedules (calls : SubmitCalls) (switches : StagedSwitches) : Bool :=
  if !switches.hasMemoryAllocator && !switches.cpuStoreEnabled then false
  else if calls.existsInPutTasks then false
  else
    match calls.existing with
    | some true => false
    | _ => calls.reserved switches

/-- The save gets to its end. What the `try` statement raises does not matter. -/
structure SaveCalls.Ends (calls : SaveCalls) : Prop where
  starts : calls.starts = true
  begins : calls.begins = .ok ()
  refCountDown : calls.refCountDown = .ok ()

section Turns

variable {chunks : ℕ} (switches : StagedSwitches) (calls : SubmitCalls) (chunk : ℕ)
  (batch : ProfiledBatch chunks ℕ)

theorem scheduleSave_turn :
    batch.Turn chunk
      (∃ reserved, calls.reserve switches.eviction = .ok reserved ∧
        (reserved = true → calls.start = .ok ()))
      (if calls.reserved switches then some chunk else none)
      (scheduleSave switches calls chunk batch) := by
  rcases room : calls.reserve switches.eviction with raised | _ | _
  · simp only [scheduleSave, room]
    refine .raises raised fun reserves => ?_
    obtain ⟨reserved, here, -⟩ := reserves
    cases here
  · simp only [scheduleSave, SubmitCalls.reserved, room]
    exact .fails false ⟨false, rfl, fun on => absurd on Bool.false_ne_true⟩ rfl
  · rcases started : calls.start with raised | _
    · simp only [scheduleSave, room, started]
      refine .raises raised fun reserves => ?_
      obtain ⟨reserved, here, starts⟩ := reserves
      cases here
      cases starts rfl
    · simp only [scheduleSave, SubmitCalls.reserved, room, started]
      exact .queues chunk ⟨true, rfl, fun _ => trivial⟩ rfl

theorem submitPutTask_turn :
    batch.Turn chunk (calls.Contained switches false)
      (if calls.schedules switches then some chunk else none)
      (submitPutTask switches calls chunk batch) := by
  have unrecorded : false = true → ∃ size, calls.recordedSize = .ok size :=
    fun recorded => absurd recorded Bool.false_ne_true
  cases active : switches.hasMemoryAllocator || switches.cpuStoreEnabled with
  | false =>
      obtain ⟨none, off⟩ := Bool.or_eq_false_iff.mp active
      simp only [submitPutTask, SubmitCalls.schedules, none, off]
      refine .fails false ⟨unrecorded, ?_, ?_, ?_⟩ rfl
      all_goals
        intro on
        exact absurd (active.symm.trans on) Bool.false_ne_true
  | true =>
  have running : (!switches.hasMemoryAllocator && !switches.cpuStoreEnabled) = false := by
    rw [← Bool.not_or, active, Bool.not_true]
  simp only [submitPutTask, SubmitCalls.schedules, running]
  cases tensor : calls.hasTensor with
  | false =>
      refine .raises _ fun contained => ?_
      cases tensor.symm.trans (contained.tensor active)
  | true =>
  cases listed : calls.existsInPutTasks with
  | true =>
      refine .fails false ⟨unrecorded, fun _ => tensor, ?_, ?_⟩ rfl
      · intro _ unlisted
        cases listed.symm.trans unlisted
      · intro _ unlisted
        cases listed.symm.trans unlisted
  | false =>
  by_cases resident : calls.existing = some true
  · rcases hit : calls.updateOnHit with raised | _
    · simp only [resident]
      refine .raises raised fun contained => ?_
      cases hit.symm.trans (contained.hit active listed resident)
    · simp only [resident]
      refine .succeeds ⟨unrecorded, fun _ => tensor, fun _ _ _ => hit, ?_⟩ rfl
      exact fun _ _ fresh => absurd resident fresh
  -- Behind the lookup the chunk gets room and a save.
  have reserved : calls.Contained switches false ↔ ∃ reserved,
      calls.reserve switches.eviction = .ok reserved ∧ (reserved = true → calls.start = .ok ()) := by
    refine ⟨fun contained => contained.reserve active listed resident, fun reserves => ?_⟩
    exact ⟨unrecorded, fun _ => tensor, fun _ _ here => absurd here resident, fun _ _ _ => reserves⟩
  have attempted := (scheduleSave_turn switches calls chunk batch).congr reserved.symm rfl
  rcases existing : calls.existing with _ | _ | _
  · exact attempted
  · exact attempted
  · exact absurd existing resident

theorem submitChunk_turn :
    batch.Turn chunk (calls.Contained switches batch.present)
      (if calls.schedules switches then some chunk else none)
      (submitChunk switches calls chunk batch) := by
  have submitted := submitPutTask_turn switches calls chunk batch
  cases present : batch.present with
  | false =>
      simp only [submitChunk, present]
      exact submitted
  | true =>
      simp only [submitChunk, present, ↓reduceIte]
      rcases recorded : calls.recordedSize with raised | size
      · refine .raises raised fun contained => ?_
        obtain ⟨size, here⟩ := contained.recorded rfl
        cases recorded.symm.trans here
      · refine submitted.congr ⟨fun contained => ?_, fun contained => ?_⟩ rfl
        · exact { contained with recorded := fun _ => ⟨size, recorded⟩ }
        · exact { contained with recorded := fun on => absurd on Bool.false_ne_true }

end Turns

/-- A save that gets to its end ends its chunk. -/
theorem asyncSave_of_ends {calls : SaveCalls} (ends : calls.Ends) {chunks : ℕ} (chunk : ℕ)
    (batch : ProfiledBatch chunks ℕ) :
    (asyncSaveBytesToStorage calls chunk batch).present = batch.present ∧
      (asyncSaveBytesToStorage calls chunk batch).jobs = batch.jobs ∧
      (asyncSaveBytesToStorage calls chunk batch).ended = batch.ended ++ [chunk] := by
  simp only [asyncSaveBytesToStorage, ends.starts, ends.begins, ends.refCountDown, Bool.not_true,
    Bool.false_eq_true, ↓reduceIte]
  rcases calls.save with _ | _ <;>
    simp [ProfiledBatch.present, ProfiledBatch.ended, ProfiledBatch.fail, ProfiledBatch.succeed]

theorem asyncSave_of_not_ends {calls : SaveCalls} (lost : ¬ calls.Ends) {chunks : ℕ} (chunk : ℕ)
    (batch : ProfiledBatch chunks ℕ) : asyncSaveBytesToStorage calls chunk batch = batch := by
  cases starts : calls.starts with
  | false => simp [asyncSaveBytesToStorage, starts]
  | true =>
      rcases begins : calls.begins with _ | _
      · simp [asyncSaveBytesToStorage, starts, begins]
      · rcases released : calls.refCountDown with _ | _
        · simp [asyncSaveBytesToStorage, starts, begins, released]
        · exact absurd ⟨starts, begins, released⟩ lost

/-! ### Every order of completion -/

section Runs

variable {chunks : ℕ} (switches : StagedSwitches) (calls : ℕ → SubmitCalls) (saves : ℕ → SaveCalls)

/-- Where a batch is after some steps: each chunk that the loop has been through
has ended, has a save that has not run, or has lost its save. -/
structure Accounted (state : StagedPut chunks) (lost : List ℕ) : Prop where
  perm : (state.batch.ended ++ state.batch.jobs ++ lost).Perm (List.range state.next)
  bound : state.next ≤ chunks
  through : ∀ chunk < state.next, (calls chunk).Contained switches state.batch.present
  raised : state.raised.isSome →
    state.next < chunks ∧ ¬ (calls state.next).Contained switches state.batch.present
  waiting : ∀ chunk ∈ state.batch.jobs, (calls chunk).schedules switches = true
  ends : ∀ chunk ∈ state.batch.ended, (calls chunk).schedules switches = true →
    (saves chunk).Ends
  lost : ∀ chunk ∈ lost, (calls chunk).schedules switches = true ∧ ¬ (saves chunk).Ends

theorem accounted_start (chunks : ℕ) :
    Accounted switches calls saves (stagedStart switches chunks) [] where
  perm := by simp [stagedStart, ProfiledBatch.ended]
  bound := Nat.zero_le _
  through := fun _ early => absurd early (Nat.not_lt_zero _)
  raised := fun raised => absurd raised Bool.false_ne_true
  waiting := List.forall_mem_nil _
  ends := by simp [stagedStart, ProfiledBatch.ended]
  lost := List.forall_mem_nil _

/-- A turn of the loop ends its chunk, schedules its save or is the last one. -/
theorem submitChunk_cases (chunk : ℕ) (batch : ProfiledBatch chunks ℕ) :
    (submitChunk switches (calls chunk) chunk batch).2.present = batch.present ∧
      (ProfiledBatch.account id (fun chunk => (calls chunk).Contained switches batch.present)
        fun chunk => if (calls chunk).schedules switches then some chunk else none).Turn chunk batch
        (submitChunk switches (calls chunk) chunk batch) := by
  have turn := submitChunk_turn switches (calls chunk) chunk batch
  exact ⟨turn.present, turn.accounted⟩

theorem accounted_submit {state next : StagedPut chunks} {lost : List ℕ}
    (accounted : Accounted switches calls saves state lost)
    (stepped : stagedStep switches calls saves state .submit = some next) :
    next.batch.present = state.batch.present ∧ Accounted switches calls saves next lost := by
  obtain ⟨batch, reached, raised⟩ := state
  obtain ⟨present, turn⟩ := submitChunk_cases switches calls reached batch
  rw [stagedStep] at stepped
  split at stepped
  · cases stepped
  rename_i running
  simp only [Bool.or_eq_true, decide_eq_true_eq, not_or, not_le] at running
  obtain ⟨none, inside⟩ := running
  have all := accounted.perm.count_eq
  rcases submitted : submitChunk switches (calls reached) reached batch with ⟨exc | _, after⟩
  · rw [submitted] at present turn stepped
    cases stepped
    cases turn with
    | escapes escaped ended handed =>
        have endedHere : after.ended = batch.ended := ended
        have jobs : after.jobs = batch.jobs := handed
        refine ⟨present, ?_, accounted.bound, ?_, ?_, ?_, ?_, accounted.lost⟩
        · simpa only [endedHere, jobs] using accounted.perm
        · simpa only [present] using accounted.through
        · refine fun _ => ⟨inside, ?_⟩
          rw [present]
          exact escaped
        · simpa only [jobs] using accounted.waiting
        · simpa only [endedHere] using accounted.ends
  · rw [submitted] at present turn stepped
    cases stepped
    have through (contained : (calls reached).Contained switches batch.present) (chunk : ℕ)
        (early : chunk < reached + 1) : (calls chunk).Contained switches after.present := by
      rw [present]
      rcases Nat.lt_succ_iff_lt_or_eq.mp early with earlier | rfl
      · exact accounted.through chunk earlier
      · exact contained
    cases turn with
    | ends contained unscheduled ended handed =>
        have endedHere : after.ended = batch.ended ++ [reached] := ended
        have jobs : after.jobs = batch.jobs := handed
        refine ⟨present, ?_, inside, through contained, ?_, ?_, ?_, accounted.lost⟩
        · rw [List.perm_iff_count]
          intro chunk
          have here := all chunk
          simp only [endedHere, jobs, List.range_succ, List.count_append] at here ⊢
          omega
        · exact fun raised => absurd raised none
        · simpa only [jobs] using accounted.waiting
        · intro chunk member scheduled
          rw [endedHere] at member
          rcases List.mem_append.mp member with earlier | here
          · exact accounted.ends chunk earlier scheduled
          · cases List.mem_singleton.mp here
            exact absurd unscheduled (by simp [ProfiledBatch.account, scheduled])
    | @handsOn _ later contained scheduled ended handed =>
        have endedHere : after.ended = batch.ended := ended
        have jobs : after.jobs = batch.jobs ++ [later] := handed
        have schedules : (calls reached).schedules switches = true ∧ reached = later := by
          simpa [ProfiledBatch.account] using scheduled
        obtain ⟨schedules, rfl⟩ := schedules
        refine ⟨present, ?_, inside, through contained, ?_, ?_, ?_, accounted.lost⟩
        · rw [List.perm_iff_count]
          intro chunk
          have here := all chunk
          simp only [endedHere, jobs, List.range_succ, List.count_append] at here ⊢
          omega
        · exact fun raised => absurd raised none
        · intro chunk member
          rw [jobs] at member
          rcases List.mem_append.mp member with earlier | here
          · exact accounted.waiting chunk earlier
          · cases List.mem_singleton.mp here
            exact schedules
        · simpa only [endedHere] using accounted.ends

theorem accounted_save {state next : StagedPut chunks} {lost : List ℕ} {chunk : ℕ}
    (accounted : Accounted switches calls saves state lost)
    (stepped : stagedStep switches calls saves state (.save chunk) = some next) :
    next.batch.present = state.batch.present ∧
      ∃ lost, Accounted switches calls saves next lost := by
  obtain ⟨batch, reached, raised⟩ := state
  rw [stagedStep] at stepped
  split at stepped
  · rename_i scheduled
    cases stepped
    have moved : batch.jobs.Perm (chunk :: batch.jobs.erase chunk) :=
      List.perm_cons_erase scheduled
    have waiting (other : ℕ) (member : other ∈ batch.jobs.erase chunk) :
        (calls other).schedules switches = true :=
      accounted.waiting other (List.mem_of_mem_erase member)
    by_cases ends : (saves chunk).Ends
    · obtain ⟨present, jobs, ended⟩ := asyncSave_of_ends ends chunk
        { batch with jobs := batch.jobs.erase chunk }
      refine ⟨present, lost, ?_, accounted.bound, ?_, ?_, ?_, ?_, accounted.lost⟩
      · have same : (batch.ended ++ [chunk] ++ batch.jobs.erase chunk ++ lost).Perm
            (batch.ended ++ batch.jobs ++ lost) := by
          rw [List.append_assoc batch.ended [chunk]]
          exact (moved.symm.append_left batch.ended).append_right lost
        dsimp only
        rw [ended, jobs]
        exact same.trans accounted.perm
      · dsimp only
        rw [present]
        exact accounted.through
      · dsimp only
        rw [present]
        exact accounted.raised
      · simpa only [jobs] using waiting
      · intro other member schedules
        rw [ended] at member
        rcases List.mem_append.mp member with earlier | here
        · exact accounted.ends other earlier schedules
        · cases List.mem_singleton.mp here
          exact ends
    · rw [asyncSave_of_not_ends ends]
      refine ⟨rfl, lost ++ [chunk], ?_, accounted.bound, accounted.through, accounted.raised,
        waiting, accounted.ends, ?_⟩
      · refine List.Perm.trans ?_ accounted.perm
        dsimp only
        rw [List.append_assoc, List.append_assoc, ← List.append_assoc (batch.jobs.erase chunk)]
        refine List.Perm.append_left batch.ended ?_
        exact (List.perm_append_singleton chunk _).trans (moved.symm.append_right lost)
      · intro other member
        rcases List.mem_append.mp member with earlier | here
        · exact accounted.lost other earlier
        · cases List.mem_singleton.mp here
          exact ⟨accounted.waiting chunk scheduled, ends⟩
  · cases stepped

theorem stagedAccounted_of_reaches {state : StagedPut chunks}
    (reached : Reaches (stagedStep switches calls saves) (fun _ _ => True)
      (stagedStart switches chunks) state) :
    state.batch.present = (stagedStart switches chunks).batch.present ∧
      ∃ lost, Accounted switches calls saves state lost := by
  induction reached with
  | refl => exact ⟨rfl, [], accounted_start switches calls saves chunks⟩
  | @tail middle final event _ _ stepped ih =>
      obtain ⟨present, lost, accounted⟩ := ih
      cases event with
      | submit =>
          obtain ⟨same, after⟩ := accounted_submit switches calls saves accounted stepped
          exact ⟨same.trans present, lost, after⟩
      | save chunk =>
          obtain ⟨same, after⟩ := accounted_save switches calls saves accounted stepped
          exact ⟨same.trans present, after⟩

/-- No exception leaves the loop, and every save gets to its end. -/
structure StagedContained (chunks : ℕ) : Prop where
  submitted : ∀ chunk < chunks, (calls chunk).Contained switches true
  saved : ∀ chunk < chunks, (calls chunk).schedules switches = true → (saves chunk).Ends

/-- However its saves are ordered, the profile of a staged put completes exactly
when no exception leaves its loop and every save gets to its end. -/
theorem staged_completes_iff {state : StagedPut chunks}
    (reached : Reaches (stagedStep switches calls saves) (fun _ _ => True)
      (stagedStart switches chunks) state) (finished : state.Over) :
    state.batch.profiled.Completes ↔ (switches.ioProfileEnabled = true → 0 < chunks →
      StagedContained switches calls saves chunks) := by
  obtain ⟨present, lost, accounted⟩ := stagedAccounted_of_reaches switches calls saves reached
  have enabled : state.batch.present = true ↔ switches.ioProfileEnabled = true ∧ 0 < chunks := by
    rw [present]
    exact Profiled.isSome_newIoProfile switches.ioProfileEnabled chunks
  refine Profiled.completes_iff_of_perm _ enabled fun here => ?_
  have through := accounted.through
  have raised := accounted.raised
  rw [show state.batch.present = true from here] at through raised
  obtain ⟨ended, none⟩ := finished
  have all := accounted.perm
  rw [none, List.append_nil] at all
  rcases ended with left | ended
  · -- The chunk at which the loop was left has not ended.
    obtain ⟨short, escaped⟩ := raised left
    refine iff_of_false (fun complete => ?_) fun contained =>
      escaped (contained.submitted state.next short)
    have length := all.length_eq
    have whole := complete.length_eq
    rw [List.length_range] at whole
    change state.batch.ended.length = chunks at whole
    rw [List.length_append, List.length_range] at length
    omega
  · rw [ended] at all through
    refine ⟨fun complete => ⟨through, fun chunk inside scheduled => ?_⟩, fun contained => ?_⟩
    · exact accounted.ends chunk (complete.mem_iff.mpr (List.mem_range.mpr inside)) scheduled
    · have nothing : lost = [] := by
        refine List.eq_nil_iff_forall_not_mem.mpr fun chunk member => ?_
        obtain ⟨scheduled, lostSave⟩ := accounted.lost chunk member
        have inside := List.mem_range.mp (all.mem_iff.mp (List.mem_append_right _ member))
        exact lostSave (contained.saved chunk inside scheduled)
      rw [nothing, List.append_nil] at all
      exact all

theorem jobs_asyncSave (save : SaveCalls) (chunk : ℕ) (batch : ProfiledBatch chunks ℕ) :
    (asyncSaveBytesToStorage save chunk batch).jobs = batch.jobs := by
  by_cases ends : save.Ends
  · exact (asyncSave_of_ends ends chunk batch).2.1
  · rw [asyncSave_of_not_ends ends]

/-- The loop ends. -/
theorem exists_loop_over (state : StagedPut chunks) :
    ∃ final, Reaches (stagedStep switches calls saves) (fun _ _ => True) state final ∧
      (final.raised.isSome ∨ chunks ≤ final.next) := by
  induction left : chunks - state.next generalizing state with
  | zero => exact ⟨state, .refl, .inr (by omega)⟩
  | succ left ih =>
      cases raised : state.raised with
      | some exc => exact ⟨state, .refl, .inl (by rw [raised]; rfl)⟩
      | none =>
          have inside : ¬ chunks ≤ state.next := by omega
          rcases submitted : submitChunk switches (calls state.next) state.next state.batch with
            ⟨exc | _, batch⟩
          · have stepped : stagedStep switches calls saves state .submit =
                some { state with batch := batch, raised := some exc } := by
              simp [stagedStep, raised, inside, submitted]
            exact ⟨_, .tail .refl trivial stepped, .inl rfl⟩
          · have stepped : stagedStep switches calls saves state .submit =
                some { state with batch := batch, next := state.next + 1 } := by
              simp [stagedStep, raised, inside, submitted]
            obtain ⟨final, reached, ended⟩ :=
              ih { state with batch := batch, next := state.next + 1 } (by dsimp only; omega)
            exact ⟨final, Reaches.trans (.tail .refl trivial stepped) reached, ended⟩

/-- Every save runs. -/
theorem exists_saves_over (state : StagedPut chunks) :
    ∃ final, Reaches (stagedStep switches calls saves) (fun _ _ => True) state final ∧
      final.next = state.next ∧ final.raised = state.raised ∧ final.batch.jobs = [] := by
  induction left : state.batch.jobs.length generalizing state with
  | zero => exact ⟨state, .refl, rfl, rfl, List.length_eq_zero_iff.mp left⟩
  | succ count ih =>
      obtain ⟨chunk, jobs, waiting⟩ := List.exists_cons_of_length_eq_add_one left
      have scheduled : chunk ∈ state.batch.jobs := by
        rw [waiting]
        exact List.mem_cons_self
      let next : StagedPut chunks := { state with
        batch := asyncSaveBytesToStorage (saves chunk) chunk
          { state.batch with jobs := state.batch.jobs.erase chunk } }
      have stepped : stagedStep switches calls saves state (.save chunk) = some next := by
        simp [stagedStep, scheduled, next]
      have fewer : next.batch.jobs.length = count := by
        rw [jobs_asyncSave, List.length_erase_of_mem scheduled]
        omega
      obtain ⟨final, reached, same, raised, none⟩ := ih next fewer
      exact ⟨final, Reaches.trans (.tail .refl trivial stepped) reached, same, raised, none⟩

/-- Every run of a staged put can be brought to its end. -/
theorem exists_over {state : StagedPut chunks}
    (reached : Reaches (stagedStep switches calls saves) (fun _ _ => True)
      (stagedStart switches chunks) state) :
    ∃ final, Reaches (stagedStep switches calls saves) (fun _ _ => True)
      (stagedStart switches chunks) final ∧ final.Over := by
  obtain ⟨middle, looped, ended⟩ := exists_loop_over switches calls saves state
  obtain ⟨final, saved, next, raised, none⟩ := exists_saves_over switches calls saves middle
  have before := reached.trans looped
  obtain ⟨-, lost, accounted⟩ := stagedAccounted_of_reaches switches calls saves before
  refine ⟨final, before.trans saved, ?_, none⟩
  rw [next, raised]
  exact ended.imp_right fun late => le_antisymm accounted.bound late

end Runs

end LMCacheHcu.Xds.Profiling
