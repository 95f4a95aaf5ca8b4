import LMCacheHcu.LocalDisk.SaveTasks

/-! # The two counters of the local disk backend

`usage` counts payload bytes and `current_cache_size` physical bytes. Over a run
both agree with the index and with what the tasks in flight have added to them,
and a failed save is the one thing that `current_cache_size` does not get over.
-/

namespace LMCacheHcu.LocalDisk

open Storage

variable {Key : Type} [DecidableEq Key]

/-! ### What the jobs have added -/

namespace Job

/-- What a save has added to `usage` for a payload that is not indexed yet. -/
def held : Job Key → ℤ
  | .writing put | .subtracting put _ | .publishing put => put.object.bufferSize
  | _ => 0

/-- What is in `current_cache_size` for a job in flight: the reservation of a put,
or the size that a removal has taken off before the entry is gone. -/
def reservation : Job Key → ℤ
  | .queued put | .adding put _ | .writing put | .subtracting put _ | .dropping put
  | .publishing put => put.object.physicalSize
  | .removing _ entry _ => -entry.size
  | _ => 0

/-- What a failed save has left in `current_cache_size`. -/
def leak : Job Key → ℤ
  | .failed put => put.object.physicalSize
  | _ => 0

/-- The put of a job that is not finished. -/
def inFlight : Job Key → Option (Put Key)
  | .queued put | .adding put _ | .writing put | .subtracting put _ | .dropping put
  | .publishing put | .unlisting put => some put
  | _ => none

/-- Whether the job is listed under the key in `put_tasks`. -/
def lists (key : Key) (job : Job Key) : ℤ :=
  if job.inFlight.any fun put => put.key = key then 1 else 0

/-- Whether the job still has the reference to an object that its put took. -/
def refers (identity : ℕ) : Job Key → ℤ
  | .queued put | .adding put _ | .writing put | .subtracting put _ | .dropping put
  | .publishing put => if put.object.identity = identity then 1 else 0
  | _ => 0

/-- Whether the job holds `disk_lock` between two steps. -/
def locks : Job Key → ℤ
  | .removing _ _ _ => 1
  | _ => 0

omit [DecidableEq Key] in
theorem locks_nonneg (job : Job Key) : 0 ≤ job.locks := by
  cases job <;> simp [locks]

/-- The put of a save whose write has failed. -/
def failing : Job Key → Option (Put Key)
  | .subtracting put _ | .dropping put | .failed put => some put
  | _ => none

/-- The put whose entry the job has published. -/
def published : Job Key → Option (Put Key)
  | .unlisting put | .saved put => some put
  | _ => none

end Job

namespace State

variable (state : State Key)

def held : ℤ := (state.jobs.map Job.held).sum

def reservations : ℤ := (state.jobs.map Job.reservation).sum

def leaks : ℤ := (state.jobs.map Job.leak).sum

end State

/-! ### What is to hold, and when -/

/-- The counters agree with the index and the jobs in flight, a key is listed once
for each of its puts in flight, each such put has its reference until it has
written, and every entry is the one of a save that succeeded. -/
structure Accounted (state : State Key) : Prop where
  usage : state.disk.usage = state.disk.totalPayload + state.held
  size : state.disk.currentCacheSize = state.disk.totalSize + state.reservations
  tasks : ∀ key, (state.disk.putTasks.count key : ℤ) = (state.jobs.map (Job.lists key)).sum
  references : ∀ identity, (state.disk.references.count identity : ℤ) =
    (state.jobs.map (Job.refers identity)).sum
  entries : ∀ key entry, state.disk.find key = some entry →
    ∃ job ∈ state.jobs, ∃ put, job.published = some put ∧ put.key = key ∧ put.entry = entry

/-- A write of `usage` finds the value that it was computed from, and a save that
publishes finds no entry of its key with a size. -/
def Job.keepsCounters (disk : Disk Key) : Job Key → Bool
  | .adding _ value | .subtracting _ value | .removing _ _ value => decide (disk.usage = value)
  | .publishing put =>
      (disk.find put.key).all fun entry => entry.size = 0 && entry.payloadSize = 0
  | _ => true

def KeepsCounters (state : State Key) : Event Key → Prop
  | .advance index _ => (state.jobs[index]?).all fun job => job.keepsCounters state.disk
  | _ => True

/-- A write that fails is one of an object without a physical size. -/
def WritesSucceed (state : State Key) : Event Key → Prop
  | .advance index written => (state.jobs[index]?).all fun
      | .writing put => written || put.object.physicalSize = 0
      | _ => true
  | _ => True

instance (state : State Key) (event : Event Key) : Decidable (KeepsCounters state event) := by
  cases event <;> simp only [KeepsCounters] <;> infer_instance

instance (state : State Key) (event : Event Key) : Decidable (WritesSucceed state event) := by
  cases event <;> simp only [WritesSucceed] <;> infer_instance

/-! ### One step of a job -/

/-- A step of a job changes the disk by what it changes of its own part. -/
structure Moves (disk next : Disk Key) (job moved : Job Key) : Prop where
  usage : next.usage - next.totalPayload - moved.held = disk.usage - disk.totalPayload - job.held
  size : next.currentCacheSize - next.totalSize - moved.reservation - moved.leak =
    disk.currentCacheSize - disk.totalSize - job.reservation - job.leak
  tasks : ∀ key, (next.putTasks.count key : ℤ) - moved.lists key =
    disk.putTasks.count key - job.lists key
  references : ∀ identity, (next.references.count identity : ℤ) - moved.refers identity =
    disk.references.count identity - job.refers identity
  lock : (if next.locked then 1 else 0) - moved.locks = (if disk.locked then 1 else 0) - job.locks
  entries : ∀ key entry, next.find key = some entry → disk.find key = some entry ∨
    ∃ put, moved.published = some put ∧ put.key = key ∧ put.entry = entry
  /-- A job without the lock leaves the index alone while another has it. -/
  waits : disk.locked = true → job.locks = 0 → next.dict = disk.dict
  finds : ∀ key entry value, moved = .removing key entry value → next.find key = some entry
  releases : job.locks ≠ 0 → moved.locks = 0
  keeps : ∀ put, job.published = some put → moved.published = some put

namespace Disk

variable {disk : Disk Key}

theorem find_insertKey (put : Put Key) (key : Key) : (disk.insertKey put).find key =
    if key = put.key then some put.entry else disk.find key := by
  by_cases same : key = put.key
  · rw [if_pos same, same]
    exact AList.lookup_insert _
  · rw [if_neg same]
    exact AList.lookup_insert_ne same

omit [DecidableEq Key] in
/-- The payload size of a put's entry is the size of its buffer. -/
theorem payloadSize_entry (put : Put Key) : put.entry.payloadSize = put.object.bufferSize :=
  put.object.covers.symm

theorem count_erase {Item : Type} [DecidableEq Item] {items : List Item} {item : Item}
    (present : 0 < items.count item) (other : Item) :
    ((items.erase item).count other : ℤ) = items.count other - if item = other then 1 else 0 := by
  by_cases same : item = other
  · subst same
    rw [List.count_erase_self, if_pos rfl]
    omega
  · rw [List.count_erase_of_ne (Ne.symm same), if_neg same, sub_zero]

end Disk

/-- What a job in flight can rely on. -/
structure Ready (disk : Disk Key) (job : Job Key) : Prop where
  listed : ∀ put, job.inFlight = some put → 0 < disk.putTasks.count put.key
  referred : ∀ identity, job.refers identity ≤ disk.references.count identity
  removing : ∀ key entry value, job = .removing key entry value →
    disk.find key = some entry ∧ disk.locked = true

/-- A step that leaves the index, the lists and the lock alone. -/
theorem Moves.of_counters {disk : Disk Key} {job moved : Job Key} (usage : ℤ)
    (used : usage - moved.held = disk.usage - job.held)
    (sized : moved.reservation + moved.leak = job.reservation + job.leak)
    (same : moved.inFlight = job.inFlight) (refers : ∀ identity,
      moved.refers identity = job.refers identity)
    (lock : moved.locks = job.locks) (finds : ∀ key entry value, moved ≠ .removing key entry value)
    (published : moved.published = job.published) :
    Moves disk { disk with usage := usage } job moved where
  usage := by
    change usage - disk.totalPayload - moved.held = _
    omega
  size := by
    change disk.currentCacheSize - disk.totalSize - moved.reservation - moved.leak = _
    omega
  tasks key := by simp only [Job.lists, same]
  references identity := by simp only [refers]
  lock := by rw [lock]
  entries _ _ found := .inl found
  waits _ _ := rfl
  finds key entry value here := absurd here (finds key entry value)
  releases _ := by
    cases moved with
    | removing key entry value => exact absurd rfl (finds key entry value)
    | _ => rfl
  keeps _ here := published.trans here

theorem advance_moves {disk next : Disk Key} {job moved : Job Key} {written : Bool}
    (ready : Ready disk job) (keeps : job.keepsCounters disk = true)
    (advanced : advance disk written job = some (next, moved)) : Moves disk next job moved := by
  cases job with
  | queued put =>
      cases advanced
      exact .of_counters disk.usage rfl rfl rfl (fun _ => rfl) rfl (by simp) rfl
  | adding put value =>
      cases advanced
      have found : disk.usage = value := of_decide_eq_true keeps
      refine .of_counters _ ?_ rfl rfl (fun _ => rfl) rfl (by simp) rfl
      simp only [Job.held, found]
      ring
  | writing put =>
      simp only [advance] at advanced
      split at advanced <;> cases advanced
      · exact .of_counters disk.usage rfl rfl rfl (fun _ => rfl) rfl (by simp) rfl
      · exact .of_counters disk.usage rfl rfl rfl (fun _ => rfl) rfl (by simp) rfl
  | subtracting put value =>
      cases advanced
      have found : disk.usage = value := of_decide_eq_true keeps
      refine .of_counters _ ?_ rfl rfl (fun _ => rfl) rfl (by simp) rfl
      simp only [Job.held, found]
      ring
  | dropping put =>
      cases advanced
      have listed := ready.listed put rfl
      have referred := ready.referred put.object.identity
      simp only [Job.refers, if_true] at referred
      exact
        { usage := by simp [Disk.removePutTask, Disk.release, Disk.totalPayload, Job.held]
          size := by
            simp only [Disk.removePutTask, Disk.release, Disk.totalSize, Job.reservation, Job.leak]
            ring
          tasks := fun key => by
            simp only [Disk.removePutTask, Disk.release, Disk.count_erase listed, Job.lists,
              Job.inFlight, Option.any_none, Option.any_some, decide_eq_true_eq]
            simp
          references := fun identity => by
            simp only [Disk.removePutTask, Disk.release,
              Disk.count_erase (by omega : 0 < disk.references.count put.object.identity),
              Job.refers]
            ring
          lock := rfl
          entries := fun _ _ found => .inl found
          waits := fun _ _ => rfl
          finds := by simp
          releases := by simp [Job.locks]
          keeps := by simp [Job.published] }
  | publishing put =>
      simp only [advance] at advanced
      split at advanced
      · cases advanced
      rename_i unlocked
      cases advanced
      have referred := ready.referred put.object.identity
      simp only [Job.refers, if_true] at referred
      have none : ((disk.find put.key).map DiskEntry.size).getD 0 = 0 ∧
          ((disk.find put.key).map DiskEntry.payloadSize).getD 0 = 0 := by
        simp only [Job.keepsCounters] at keeps
        cases found : disk.find put.key with
        | none => exact ⟨rfl, rfl⟩
        | some entry => simpa [found] using keeps
      exact
        { usage := by
            have total := Ledger.total_insert_getD DiskEntry.payloadSize disk.dict put.key put.entry
            rw [← Disk.find, none.2, Disk.payloadSize_entry] at total
            simp only [Disk.release, Disk.insertKey, Disk.totalPayload, Job.held, total]
            ring
          size := by
            have total := Ledger.total_insert_getD DiskEntry.size disk.dict put.key put.entry
            have size : put.entry.size = put.object.physicalSize := rfl
            rw [← Disk.find, none.1, size] at total
            simp only [Disk.release, Disk.insertKey, Disk.totalSize, Job.reservation, Job.leak,
              total]
            ring
          tasks := fun key => rfl
          references := fun identity => by
            simp only [Disk.insertKey, Disk.release,
              Disk.count_erase (by omega : 0 < disk.references.count put.object.identity),
              Job.refers]
            ring
          lock := rfl
          entries := fun key entry found => by
            rw [Disk.find_insertKey] at found
            split at found
            · rename_i same
              cases found
              exact .inr ⟨put, rfl, same.symm, rfl⟩
            · exact .inl found
          waits := fun locked => absurd locked unlocked
          finds := by simp
          releases := by simp [Job.locks]
          keeps := by simp [Job.published] }
  | unlisting put =>
      cases advanced
      have listed := ready.listed put rfl
      exact
        { usage := by simp [Disk.removePutTask, Disk.totalPayload, Job.held]
          size := by simp [Disk.removePutTask, Disk.totalSize, Job.reservation, Job.leak]
          tasks := fun key => by
            simp only [Disk.removePutTask, Disk.count_erase listed, Job.lists,
              Job.inFlight, Option.any_none, Option.any_some, decide_eq_true_eq]
            simp
          references := fun identity => rfl
          lock := rfl
          entries := fun _ _ found => .inl found
          waits := fun _ _ => rfl
          finds := by simp
          releases := by simp [Job.locks]
          keeps := fun put here => here }
  | remove key force =>
      simp only [advance] at advanced
      split at advanced
      · cases advanced
      rename_i unlocked
      have isUnlocked : disk.locked = false := by simpa using unlocked
      split at advanced
      · cases advanced
        exact .of_counters disk.usage rfl rfl rfl (fun _ => rfl) rfl (by simp) rfl
      · rename_i entry found
        cases advanced
        exact
          { usage := rfl
            size := by
              simp only [Disk.totalSize, Job.reservation, Job.leak]
              ring
            tasks := fun key => rfl
            references := fun identity => rfl
            lock := by simp [Job.locks, isUnlocked]
            entries := fun _ _ here => .inl here
            waits := fun _ _ => rfl
            finds := fun _ _ _ same => by
              cases same
              exact found
            releases := by simp [Job.locks]
            keeps := by simp [Job.published] }
  | removing key entry value =>
      cases advanced
      have used : disk.usage = value := of_decide_eq_true keeps
      obtain ⟨found, locked⟩ := ready.removing key entry value rfl
      exact
        { usage := by
            simp only [Disk.totalPayload, Ledger.total_erase _ _ found, Job.held, used]
            ring
          size := by
            simp only [Disk.totalSize, Ledger.total_erase _ _ found, Job.reservation, Job.leak]
            ring
          tasks := fun key => rfl
          references := fun identity => rfl
          lock := by simp [Job.locks, locked]
          entries := fun other entry' here => by
            by_cases same : other = key
            · subst same
              simp [Disk.find, AList.lookup_erase] at here
            · rw [Disk.find, AList.lookup_erase_ne same] at here
              exact .inl here
          waits := fun _ unlocked => by simp [Job.locks] at unlocked
          finds := by simp
          releases := by simp [Job.locks]
          keeps := by simp [Job.published] }
  | saved _ | failed _ | removed => cases advanced

/-! ### Runs -/

/-- The accounts with the sizes that failed saves have left behind, and the lock. -/
structure Balanced (state : State Key) : Prop where
  usage : state.disk.usage = state.disk.totalPayload + state.held
  size : state.disk.currentCacheSize = state.disk.totalSize + state.reservations + state.leaks
  tasks : ∀ key, (state.disk.putTasks.count key : ℤ) = (state.jobs.map (Job.lists key)).sum
  references : ∀ identity, (state.disk.references.count identity : ℤ) =
    (state.jobs.map (Job.refers identity)).sum
  lock : (if state.disk.locked then 1 else 0) = (state.jobs.map Job.locks).sum
  removing : ∀ key entry value, .removing key entry value ∈ state.jobs →
    state.disk.find key = some entry
  entries : ∀ key entry, state.disk.find key = some entry →
    ∃ job ∈ state.jobs, ∃ put, job.published = some put ∧ put.key = key ∧ put.entry = entry

namespace Balanced

variable {state next : State Key}

theorem ready (balanced : Balanced state) {job : Job Key} (member : job ∈ state.jobs) :
    Ready state.disk job where
  listed put inFlight := by
    have own : job.lists put.key = 1 := by simp [Job.lists, inFlight]
    have part := Runs.le_sum_of_mem (fun job => by rw [Job.lists]; split <;> simp : ∀ job : Job Key,
      0 ≤ job.lists put.key) member
    rw [own, ← balanced.tasks] at part
    omega
  referred identity := by
    rw [balanced.references]
    exact Runs.le_sum_of_mem (fun job => by cases job <;> simp only [Job.refers] <;> (try split) <;> simp)
      member
  removing key entry value here := by
    subst here
    have part := Runs.le_sum_of_mem Job.locks_nonneg member
    rw [← balanced.lock, Job.locks] at part
    refine ⟨balanced.removing key entry value member, ?_⟩
    by_contra unlocked
    simp [unlocked] at part

theorem initial : Balanced (.initial : State Key) where
  usage := rfl
  size := rfl
  tasks _ := rfl
  references _ := rfl
  lock := rfl
  removing := by simp [State.initial]
  entries key entry found := by cases found

/-- A new job that has done nothing yet, but for what the disk has done for it. -/
theorem start (balanced : Balanced state) {disk : Disk Key} {job : Job Key}
    (dict : disk.dict = state.disk.dict) (locked : disk.locked = state.disk.locked)
    (usage : disk.usage = state.disk.usage + job.held)
    (size : disk.currentCacheSize = state.disk.currentCacheSize + job.reservation + job.leak)
    (tasks : ∀ key, (disk.putTasks.count key : ℤ) = state.disk.putTasks.count key + job.lists key)
    (references : ∀ identity, (disk.references.count identity : ℤ) =
      state.disk.references.count identity + job.refers identity)
    (idle : job.locks = 0) : Balanced ⟨disk, state.jobs ++ [job]⟩ where
  usage := by
    have total : disk.totalPayload = state.disk.totalPayload := by
      rw [Disk.totalPayload, dict, Disk.totalPayload]
    rw [usage, balanced.usage, total]
    simp only [State.held, List.map_append, List.sum_append, List.map_singleton,
      List.sum_singleton]
    ring
  size := by
    have total : disk.totalSize = state.disk.totalSize := by
      rw [Disk.totalSize, dict, Disk.totalSize]
    rw [size, balanced.size, total]
    simp only [State.reservations, State.leaks, List.map_append, List.sum_append,
      List.map_singleton, List.sum_singleton]
    ring
  tasks key := by
    rw [tasks, balanced.tasks]
    simp
  references identity := by
    rw [references, balanced.references]
    simp
  lock := by
    rw [locked, balanced.lock]
    simp [idle]
  removing key entry value member := by
    rw [Disk.find, dict]
    rcases List.mem_append.mp member with old | new
    · exact balanced.removing key entry value old
    · rw [← List.mem_singleton.mp new] at idle
      simp [Job.locks] at idle
  entries key entry found := by
    rw [Disk.find, dict] at found
    obtain ⟨saver, member, put, facts⟩ := balanced.entries key entry found
    exact ⟨saver, List.mem_append_left _ member, put, facts⟩

theorem step (balanced : Balanced state) {event : Event Key} (keeps : KeepsCounters state event)
    (stepped : step state event = some next) : Balanced next := by
  cases event with
  | submit put =>
      simp only [LocalDisk.step] at stepped
      split at stepped <;> cases stepped
      refine balanced.start rfl rfl ?_ ?_ (fun key => ?_) (fun identity => ?_) rfl
      · simp [Disk.submitPutTask, Job.held]
      · simp [Disk.submitPutTask, Job.reservation, Job.leak]
      · simp only [Disk.submitPutTask, List.count_append, List.count_singleton, Job.lists,
          Job.inFlight, Option.any_some, decide_eq_true_eq]
        push_cast
        simp
      · simp only [Disk.submitPutTask, List.count_cons, Job.refers]
        push_cast
        simp
  | remove key force =>
      cases stepped
      refine balanced.start rfl rfl ?_ ?_ (fun key => ?_) (fun identity => ?_) rfl
      · simp [Job.held]
      · simp [Job.reservation, Job.leak]
      · simp [Job.lists, Job.inFlight]
      · simp [Job.refers]
  | advance index written =>
      obtain ⟨job, here, result⟩ := Option.bind_eq_some_iff.mp stepped
      obtain ⟨⟨disk, moved⟩, advanced, rfl⟩ := Option.map_eq_some_iff.mp result
      have member := List.mem_of_getElem? here
      simp only [KeepsCounters, here, Option.all_some] at keeps
      have moves := advance_moves (balanced.ready member) keeps advanced
      have sums : ∀ measure : Job Key → ℤ, ((state.jobs.set index moved).map measure).sum =
          (state.jobs.map measure).sum - measure job + measure moved :=
        fun measure => Runs.sum_map_set measure here moved
      have lock : (if disk.locked then 1 else 0) = ((state.jobs.set index moved).map Job.locks).sum := by
        have change := moves.lock
        rw [balanced.lock] at change
        rw [sums]
        omega
      exact
        { usage := by
            have change := moves.usage
            have before := balanced.usage
            simp only [State.held, sums] at before ⊢
            omega
          size := by
            have change := moves.size
            have before := balanced.size
            simp only [State.reservations, State.leaks, sums] at before ⊢
            omega
          tasks := fun key => by
            have change := moves.tasks key
            have before := balanced.tasks key
            change (disk.putTasks.count key : ℤ) = _
            rw [sums]
            omega
          references := fun identity => by
            have change := moves.references identity
            have before := balanced.references identity
            change (disk.references.count identity : ℤ) = _
            rw [sums]
            omega
          lock := lock
          removing := fun key entry value inside => by
            rcases List.mem_or_eq_of_mem_set inside with old | new
            · -- Another removal holds the lock, so this job does not touch the index.
              obtain ⟨found, locked⟩ := (balanced.ready old).removing key entry value rfl
              have nextLocked : disk.locked = true := by
                have part := Runs.le_sum_of_mem Job.locks_nonneg inside
                rw [← lock, Job.locks] at part
                by_contra unlocked
                simp [unlocked] at part
              have change := moves.lock
              simp only [nextLocked, locked, if_true] at change
              have idle : job.locks = 0 := by
                by_contra locks
                have released := moves.releases locks
                omega
              change disk.find key = _
              rw [Disk.find, moves.waits locked idle]
              exact found
            · exact moves.finds key entry value new.symm
          entries := fun key entry found => by
            rcases moves.entries key entry found with old | ⟨put, published, same⟩
            · obtain ⟨saver, inside, put, published, same⟩ := balanced.entries key entry old
              rcases Runs.eq_or_mem_set here moved inside with rfl | kept
              · exact ⟨moved, Runs.mem_set_self here moved, put, moves.keeps put published, same⟩
              · exact ⟨saver, kept, put, published, same⟩
            · exact ⟨moved, Runs.mem_set_self here moved, put, published, same⟩ }

end Balanced

/-- A save fails only for an object without a physical size. -/
def Harmless (state : State Key) : Prop :=
  ∀ job ∈ state.jobs, ∀ put, job.failing = some put → put.object.physicalSize = 0

theorem Harmless.leaks {state : State Key} (harmless : Harmless state) : state.leaks = 0 :=
  List.sum_eq_zero fun _ mapped => by
    obtain ⟨job, member, rfl⟩ := List.mem_map.mp mapped
    cases job with
    | failed put => exact harmless _ member put rfl
    | _ => rfl

theorem Harmless.step {state next : State Key} {event : Event Key} (harmless : Harmless state)
    (succeed : WritesSucceed state event) (stepped : LocalDisk.step state event = some next) :
    Harmless next := by
  have started : ∀ (disk : Disk Key) (job : Job Key), job.failing = none →
      Harmless ⟨disk, state.jobs ++ [job]⟩ := by
    intro disk job working other member put failing
    rcases List.mem_append.mp member with old | new
    · exact harmless other old put failing
    · rw [List.mem_singleton.mp new, working] at failing
      cases failing
  cases event with
  | submit put =>
      simp only [LocalDisk.step] at stepped
      split at stepped <;> cases stepped
      exact started _ _ rfl
  | remove key force =>
      cases stepped
      exact started _ _ rfl
  | advance index written =>
      obtain ⟨job, here, result⟩ := Option.bind_eq_some_iff.mp stepped
      obtain ⟨⟨disk, moved⟩, advanced, rfl⟩ := Option.map_eq_some_iff.mp result
      have own := harmless job (List.mem_of_getElem? here)
      intro other member put failing
      rcases List.mem_or_eq_of_mem_set member with old | rfl
      · exact harmless other old put failing
      simp only [WritesSucceed, here, Option.all_some] at succeed
      cases job with
      | writing written' =>
          simp only [advance] at advanced
          split at advanced <;> cases advanced
          · cases failing
          · rename_i notWritten
            cases failing
            simpa [notWritten] using succeed
      | subtracting subtracted value =>
          cases advanced
          cases failing
          exact own _ rfl
      | dropping dropped =>
          cases advanced
          cases failing
          exact own _ rfl
      | publishing published =>
          simp only [advance] at advanced
          split at advanced <;> cases advanced
          cases failing
      | remove key force =>
          simp only [advance] at advanced
          split at advanced
          · cases advanced
          split at advanced <;> cases advanced <;> cases failing
      | _ => cases advanced <;> cases failing

/-- A put of key 0: one payload byte in a physical page. -/
def pagePut : Put ℕ := ⟨0, ⟨0, [1], .uint8, 1, 4096, by decide⟩⟩

/-- The steps of the first job, with what its write returns. -/
def saveEvents (written : Bool) : List (Event ℕ) :=
  .submit pagePut :: List.replicate 5 (.advance 0 written)

end LMCacheHcu.LocalDisk
