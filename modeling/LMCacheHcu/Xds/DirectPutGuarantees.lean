import LMCacheHcu.Xds.DirectPutSteps

/-! # What a batch of direct puts leaves behind

The invariant of a call: what is on the counter, in `put_tasks` and with the
cache policy is accounted for by the ledger and by the jobs whose transaction is
not settled yet. At the end no job is left.
-/

namespace LMCacheHcu.Xds

open Storage

variable {Key Payload Descriptor : Type} [DecidableEq Key]

section Invariant

variable (config : Config Key Payload) (environment : DirectStoreEnvironment Key)
  (pipelined : Bool) (chunks : List (DirectChunk Key Descriptor)) (start : Shared Key Payload)

/-- The key of the chunk was resident as block-first when the call reached it. -/
def ResidentWhenReached (index : ℕ) (chunk : DirectChunk Key Descriptor) : Prop :=
  ∃ reached entry, firstLoop config environment pipelined chunks index start = some reached ∧
    reached.shared.find chunk.key = some entry ∧ entry.diskMetadata.isSome = true

/-- A reserved job whose transaction is not settled. -/
structure Pending (reached : ℕ) (batch : DirectBatch Key Payload) (job : DirectStoreJob Key) :
    Prop where
  unlisted : job.key ∉ start.putTasks
  absent : batch.shared.find job.key = none
  tracked : job.key ∈ batch.shared.tracked
  kept : job.key ∉ batch.rolledBack
  unpublished : job.key ∉ batch.published.map Prod.fst
  path : job.path = keyToPath job.key true
  sized : ∃ diskMetadata, config.backend.makeDirectBlockFirstMetadata = .ok diskMetadata ∧
    job.requiredSize = blockFirstHeaderSize + diskMetadata.ioNbytes
  indexed : job.index < reached ∧ ∃ chunk, chunks[job.index]? = some chunk ∧ chunk.key = job.key

/-- The entry and the index of a published key. -/
def PublishedAt (reached : ℕ) (key : Key) (info : EntryInfo Key) : Prop :=
  ∃ index < reached, ∃ chunk, chunks[index]? = some chunk ∧ chunk.key = key ∧
    ∃ file, runDirectStoreIo config (environment.transaction index) key (keyToPath key true) =
      .ok (file, info)

/-- The index of a key that was rolled back. -/
def RolledBackAt (reached : ℕ) (key : Key) : Prop :=
  ∃ index < reached, ∃ chunk, chunks[index]? = some chunk ∧ chunk.key = key ∧
    ∃ error, environment.transaction index = .error error

/-- The invariant of a call that has reached a chunk. -/
structure BatchInvariant (reached : ℕ) (pending : List (DirectStoreJob Key))
    (batch : DirectBatch Key Payload) : Prop where
  tasks : batch.shared.putTasks = start.putTasks ++ pending.map DirectStoreJob.key
  counter : batch.shared.currentCacheSize = start.currentCacheSize +
    (batch.published.map fun entry => entry.2.size).sum -
      (batch.dropped.map fun entry => entry.size).sum +
        (pending.map DirectStoreJob.requiredSize).sum
  waiting : ∀ job ∈ pending, Pending config chunks start reached batch job
  distinct : (pending.map DirectStoreJob.key).Nodup
  published : ∀ entry ∈ batch.published, PublishedAt config environment chunks reached entry.1 entry.2
  rolledBack : ∀ key ∈ batch.rolledBack, batch.shared.find key = none ∧
    key ∉ batch.shared.tracked ∧ RolledBackAt environment chunks reached key
  synced : ∀ key, key ∉ pending.map DirectStoreJob.key →
    (key ∈ start.tracked ↔ (start.find key).isSome = true) →
      (key ∈ batch.shared.tracked ↔ (batch.shared.find key).isSome = true)
  length : batch.results.length = chunks.length
  results : ∀ index chunk, chunks[index]? = some chunk → (batch.results[index]? = some true ↔
    chunk.key ∈ batch.published.map Prod.fst ∨ (index < reached ∧ chunk.Admitted config ∧
      ResidentWhenReached config environment pipelined chunks start index chunk))

end Invariant

variable {config : Config Key Payload} {environment : DirectStoreEnvironment Key}
  {pipelined : Bool} {chunks : List (DirectChunk Key Descriptor)} {start : Shared Key Payload}
  {reached : ℕ} {pending : List (DirectStoreJob Key)} {batch after cleared : DirectBatch Key Payload}
  {chunk : DirectChunk Key Descriptor} {index : ℕ}

/-! ### Steps that keep the invariant -/

theorem Pending.mono {next : DirectBatch Key Payload} {job : DirectStoreJob Key} {later : ℕ}
    (waits : Pending config chunks start reached batch job) (advances : reached ≤ later)
    (shrinks : Shrinks batch.shared next.shared) (rolledBack : next.rolledBack = batch.rolledBack)
    (published : next.published = batch.published) :
    Pending config chunks start later next job where
  unlisted := waits.unlisted
  absent := (shrinks.absent waits.absent).1
  tracked := (shrinks.absent waits.absent).2.mpr waits.tracked
  kept := by rw [rolledBack]; exact waits.kept
  unpublished := by rw [published]; exact waits.unpublished
  path := waits.path
  sized := waits.sized
  indexed := ⟨waits.indexed.1.trans_le advances, waits.indexed.2⟩

/-- Entries are dropped. -/
theorem BatchInvariant.drop {next : Shared Key Payload} {dropped : List (Entry Key)}
    (holds : BatchInvariant config environment pipelined chunks start reached pending batch)
    (shrinks : Shrinks batch.shared next)
    (counter : next.currentCacheSize = batch.shared.currentCacheSize -
      (dropped.map fun entry => entry.size).sum) :
    BatchInvariant config environment pipelined chunks start reached pending
      { batch with shared := next, dropped := batch.dropped ++ dropped } where
  tasks := shrinks.putTasks.trans holds.tasks
  counter := by
    change next.currentCacheSize = _
    rw [counter, holds.counter, List.map_append, List.sum_append]
    ring
  waiting := fun job member => (holds.waiting job member).mono le_rfl shrinks rfl rfl
  distinct := holds.distinct
  published := holds.published
  rolledBack := by
    intro key member
    obtain ⟨absent, untracked, reason⟩ := holds.rolledBack key member
    obtain ⟨still, tracked⟩ := shrinks.absent absent
    exact ⟨still, fun now => untracked (tracked.mp now), reason⟩
  synced := by
    intro key settled before
    rcases shrinks.keys key with ⟨same, tracked⟩ | ⟨_, gone, untracked⟩
    · change key ∈ next.tracked ↔ (next.find key).isSome = true
      rw [tracked, same]
      exact holds.synced key settled before
    · exact ⟨fun now => absurd now untracked, fun present => by
        change (next.find key).isSome = true at present
        rw [gone] at present
        cases present⟩
  length := holds.length
  results := holds.results

omit [DecidableEq Key] in
theorem PublishedAt.mono {key : Key} {info : EntryInfo Key} {later : ℕ}
    (published : PublishedAt config environment chunks reached key info) (advances : reached ≤ later) :
    PublishedAt config environment chunks later key info := by
  obtain ⟨index, before, rest⟩ := published
  exact ⟨index, before.trans_le advances, rest⟩

omit [DecidableEq Key] in
theorem RolledBackAt.mono {key : Key} {later : ℕ}
    (rolledBack : RolledBackAt environment chunks reached key) (advances : reached ≤ later) :
    RolledBackAt environment chunks later key := by
  obtain ⟨index, before, rest⟩ := rolledBack
  exact ⟨index, before.trans_le advances, rest⟩

omit [DecidableEq Key] in
theorem index_unique {first second : ℕ} {one other : DirectChunk Key Descriptor}
    (keys : (chunks.map DirectChunk.key).Nodup) (here : chunks[first]? = some one)
    (there : chunks[second]? = some other) (same : one.key = other.key) : first = second := by
  have inside : first < (chunks.map DirectChunk.key).length := by
    rw [List.length_map]
    exact (List.getElem?_eq_some_iff.mp here).1
  refine (List.getElem?_inj inside keys).mp ?_
  rw [List.getElem?_map, List.getElem?_map, here, there, Option.map_some, Option.map_some, same]

/-- The keys of the ledger belong to chunks that the call has passed. -/
theorem BatchInvariant.key_new
    (holds : BatchInvariant config environment pipelined chunks start reached pending batch)
    (distinct : (chunks.map DirectChunk.key).Nodup) (here : chunks[reached]? = some chunk) :
    chunk.key ∉ pending.map DirectStoreJob.key ∧ chunk.key ∉ batch.published.map Prod.fst ∧
      chunk.key ∉ batch.rolledBack := by
  have later : ∀ index < reached, ∀ other, chunks[index]? = some other → other.key ≠ chunk.key :=
    fun index before other there same => before.ne (index_unique distinct there here same)
  refine ⟨fun member => ?_, fun member => ?_, fun member => ?_⟩
  · obtain ⟨job, waits, same⟩ := List.mem_map.mp member
    obtain ⟨before, other, there, named⟩ := (holds.waiting job waits).indexed
    exact later _ before other there (named.trans same)
  · obtain ⟨entry, listed, same⟩ := List.mem_map.mp member
    obtain ⟨index, before, other, there, named, _⟩ := holds.published entry listed
    exact later index before other there (named.trans same)
  · obtain ⟨_, _, index, before, other, there, named, _⟩ := holds.rolledBack _ member
    exact later index before other there named

/-- A chunk that is not resident leaves its result as it is. -/
theorem BatchInvariant.pass
    (holds : BatchInvariant config environment pipelined chunks start reached pending batch)
    (here : chunks[reached]? = some chunk)
    (absent : chunk.Admitted config →
      ¬ ResidentWhenReached config environment pipelined chunks start reached chunk) :
    BatchInvariant config environment pipelined chunks start (reached + 1) pending batch where
  tasks := holds.tasks
  counter := holds.counter
  waiting := fun job member =>
    (holds.waiting job member).mono (Nat.le_succ _) (.refl _) rfl rfl
  distinct := holds.distinct
  published := fun entry member => (holds.published entry member).mono (Nat.le_succ _)
  rolledBack := fun key member =>
    let ⟨gone, untracked, reason⟩ := holds.rolledBack key member
    ⟨gone, untracked, reason.mono (Nat.le_succ _)⟩
  synced := holds.synced
  length := holds.length
  results := by
    intro index other there
    rw [holds.results index other there]
    apply or_congr_right
    refine ⟨fun ⟨before, rest⟩ => ⟨by omega, rest⟩, fun ⟨before, admitted, resident⟩ => ?_⟩
    rcases Nat.lt_succ_iff_lt_or_eq.mp before with earlier | rfl
    · exact ⟨earlier, admitted, resident⟩
    · rw [here] at there
      cases there
      exact absurd resident (absent admitted)

/-- A resident chunk succeeds. -/
theorem BatchInvariant.resident
    (holds : BatchInvariant config environment pipelined chunks start reached pending batch)
    (here : chunks[reached]? = some chunk) (admitted : chunk.Admitted config)
    (resident : ResidentWhenReached config environment pipelined chunks start reached chunk) :
    BatchInvariant config environment pipelined chunks start (reached + 1) pending
      { batch with results := batch.results.set reached true } where
  tasks := holds.tasks
  counter := holds.counter
  waiting := fun job member =>
    (holds.waiting job member).mono (Nat.le_succ _) (.refl _) rfl rfl
  distinct := holds.distinct
  published := fun entry member => (holds.published entry member).mono (Nat.le_succ _)
  rolledBack := fun key member =>
    let ⟨gone, untracked, reason⟩ := holds.rolledBack key member
    ⟨gone, untracked, reason.mono (Nat.le_succ _)⟩
  synced := holds.synced
  length := (List.length_set ..).trans holds.length
  results := by
    intro index other there
    by_cases same : index = reached
    · subst same
      rw [here] at there
      cases there
      have inside : index < batch.results.length := by
        rw [holds.length]
        exact (List.getElem?_eq_some_iff.mp here).1
      simp only [List.getElem?_set_self inside, true_iff]
      exact .inr ⟨Nat.lt_succ_self _, admitted, resident⟩
    · rw [List.getElem?_set_ne (Ne.symm same), holds.results index other there]
      apply or_congr_right
      refine and_congr_left fun _ => ⟨fun before => by omega, fun before => by omega⟩

/-! ### Reserving a chunk -/

theorem BatchInvariant.reserve {room : Shared Key Payload} {dropped : List (Entry Key)}
    (job : DirectStoreJob Key)
    (holds : BatchInvariant config environment pipelined chunks start reached pending cleared)
    (fresh : job.key ∉ pending.map DirectStoreJob.key) (kept : job.key ∉ cleared.rolledBack)
    (unpublished : job.key ∉ cleared.published.map Prod.fst)
    (unlisted : job.key ∉ cleared.shared.putTasks) (absent : cleared.shared.find job.key = none)
    (path : job.path = keyToPath job.key true)
    (sized : ∃ diskMetadata, config.backend.makeDirectBlockFirstMetadata = .ok diskMetadata ∧
      job.requiredSize = blockFirstHeaderSize + diskMetadata.ioNbytes)
    (indexed : job.index < reached ∧ ∃ chunk, chunks[job.index]? = some chunk ∧ chunk.key = job.key)
    (shrinks : Shrinks (cleared.shared.enlist job.key) room)
    (counter : room.currentCacheSize = cleared.shared.currentCacheSize -
      (dropped.map fun entry => entry.size).sum + job.requiredSize) :
    BatchInvariant config environment pipelined chunks start reached (pending ++ [job])
      (reservedBatch cleared job.key room dropped) where
  tasks := by
    change room.putTasks = _
    rw [shrinks.putTasks, List.map_append, List.map_singleton, ← List.append_assoc, ← holds.tasks]
    rfl
  counter := by
    change room.currentCacheSize = _
    simp only [reservedBatch, counter, holds.counter, List.map_append, List.sum_append,
      List.map_singleton, List.sum_singleton]
    ring
  waiting := by
    intro other member
    rcases List.mem_append.mp member with old | new
    · have waits := holds.waiting other old
      obtain ⟨still, tracked⟩ := shrinks.absent waits.absent
      exact { waits with
        absent := still
        tracked := Finset.mem_insert_of_mem (tracked.mpr waits.tracked) }
    · obtain rfl := List.mem_singleton.mp new
      exact {
        unlisted := fun listed => unlisted (by
          rw [holds.tasks]
          exact List.mem_append_left _ listed)
        absent := (shrinks.absent absent).1
        tracked := Finset.mem_insert_self _ _
        kept := kept
        unpublished := unpublished
        path := path
        sized := sized
        indexed := indexed }
  distinct := by
    rw [List.map_append, List.map_singleton, List.nodup_append]
    refine ⟨holds.distinct, List.nodup_singleton _, fun key member other last => ?_⟩
    rintro rfl
    rw [List.mem_singleton.mp last] at member
    exact fresh member
  published := holds.published
  rolledBack := by
    intro key member
    obtain ⟨gone, untracked, reason⟩ := holds.rolledBack key member
    have missing : (cleared.shared.enlist job.key).find key = none := gone
    obtain ⟨still, tracked⟩ := shrinks.absent missing
    refine ⟨still, fun now => ?_, reason⟩
    rcases Finset.mem_insert.mp now with rfl | before
    · exact kept member
    · exact untracked (tracked.mp before)
  synced := by
    intro key settled before
    rw [List.map_append, List.mem_append, not_or, List.map_singleton, List.mem_singleton] at settled
    have other : key ∈ (reservedBatch cleared job.key room dropped).shared.tracked ↔
        key ∈ room.tracked := by
      change key ∈ insert job.key room.tracked ↔ _
      rw [Finset.mem_insert, or_iff_right settled.2]
    rw [other]
    change key ∈ room.tracked ↔ (room.find key).isSome = true
    rcases shrinks.keys key with ⟨same, tracked⟩ | ⟨_, gone, untracked⟩
    · rw [tracked, same]
      exact holds.synced key settled.1 before
    · rw [gone]
      exact ⟨fun now => absurd now untracked, fun none => by cases none⟩
  length := holds.length
  results := holds.results

/-! ### Settling a job -/

omit [DecidableEq Key] in
theorem blockFirstEntry_of_made {diskMetadata : BlockFirstDiskMetadata} (path : DataPath Key)
    (made : config.backend.makeDirectBlockFirstMetadata = .ok diskMetadata) :
    ∃ info, blockFirstEntry path diskMetadata = .ok info := by
  unfold XdsBackend.makeDirectBlockFirstMetadata at made
  split at made
  · rename_i shape dtype _ _
    have created := createdFor_of_create (Checked.mapError_ok.mp made)
    rw [blockFirstEntry, created.dtype_eq, parseDtype_name]
    exact ⟨_, rfl⟩
  · cases made

omit [DecidableEq Key] in
/-- With the metadata at hand, the transaction alone decides. -/
theorem runDirectStoreIo_cases {diskMetadata : BlockFirstDiskMetadata} (key : Key)
    (made : config.backend.makeDirectBlockFirstMetadata = .ok diskMetadata)
    (transaction : Except XdsError Unit) :
    (∃ error, transaction = .error error ∧
      runDirectStoreIo config transaction key (keyToPath key true) = .error error) ∨
    (∃ file info, transaction = .ok () ∧
      info.size = blockFirstHeaderSize + diskMetadata.ioNbytes ∧
      runDirectStoreIo config transaction key (keyToPath key true) = .ok (file, info)) := by
  cases transaction with
  | error error => exact .inl ⟨error, rfl, rfl⟩
  | ok result =>
      obtain ⟨info, named⟩ := blockFirstEntry_of_made (keyToPath key true) made
      refine .inr ⟨config.blockFirstFile key diskMetadata, info, rfl, blockFirstEntry_size named, ?_⟩
      simp only [runDirectStoreIo, Checked.bind_ok, Checked.return_ok]
      exact ⟨(), trivial, diskMetadata, made, info, named, rfl⟩

theorem erase_tasks {tasks before after : List Key} {key : Key}
    (unlisted : key ∉ tasks) (fresh : key ∉ before) :
    (tasks ++ (before ++ key :: after)).erase key = tasks ++ (before ++ after) := by
  rw [List.erase_append_right _ unlisted, List.erase_append_right _ fresh, List.erase_cons_head]

theorem Pending.keep {next : DirectBatch Key Payload} {job : DirectStoreJob Key}
    (waits : Pending config chunks start reached batch job)
    (absent : next.shared.find job.key = none) (tracked : job.key ∈ next.shared.tracked)
    (kept : job.key ∉ next.rolledBack) (unpublished : job.key ∉ next.published.map Prod.fst) :
    Pending config chunks start reached next job :=
  { waits with absent := absent, tracked := tracked, kept := kept, unpublished := unpublished }

section Settle

variable {job : DirectStoreJob Key} {before later : List (DirectStoreJob Key)}

omit [DecidableEq Key] in
/-- The other jobs of a list with distinct keys. -/
theorem others_of_distinct
    (distinct : ((before ++ job :: later).map DirectStoreJob.key).Nodup) :
    ((before ++ later).map DirectStoreJob.key).Nodup ∧
      (job.key ∉ before.map DirectStoreJob.key) ∧ ∀ other ∈ before ++ later,
        other ∈ before ++ job :: later ∧ other.key ≠ job.key := by
  rw [List.map_append, List.map_cons, List.nodup_middle, List.nodup_cons, ← List.map_append]
    at distinct
  refine ⟨distinct.2, fun member => distinct.1 ?_, fun other member => ⟨?_, fun same => ?_⟩⟩
  · rw [List.map_append]
    exact List.mem_append_left _ member
  · rcases List.mem_append.mp member with left | right
    · exact List.mem_append_left _ left
    · exact List.mem_append_right _ (List.mem_cons_of_mem _ right)
  · exact distinct.1 (same ▸ List.mem_map_of_mem member)

theorem BatchInvariant.tasks_delist
    (holds : BatchInvariant config environment pipelined chunks start reached
      (before ++ job :: later) batch) :
    batch.shared.putTasks.erase job.key =
      start.putTasks ++ (before ++ later).map DirectStoreJob.key := by
  have waits := holds.waiting job (List.mem_append_right _ (List.mem_cons_self ..))
  have fresh := (others_of_distinct holds.distinct).2.1
  rw [holds.tasks, List.map_append, List.map_cons, erase_tasks waits.unlisted fresh,
    ← List.map_append]

/-- Its transaction failed: the reservation and the track are taken back. -/
theorem BatchInvariant.rollBack {error : XdsError}
    (holds : BatchInvariant config environment pipelined chunks start reached
      (before ++ job :: later) batch)
    (failed : environment.transaction job.index = .error error) :
    BatchInvariant config environment pipelined chunks start reached (before ++ later)
      { batch with
        shared := (rollbackDirectStore job.key job.requiredSize true batch.shared).delist job.key
        rolledBack := batch.rolledBack ++ [job.key] } := by
  have waits := holds.waiting job (List.mem_append_right _ (List.mem_cons_self ..))
  obtain ⟨distinct, _, others⟩ := others_of_distinct holds.distinct
  have find : ∀ key, ((rollbackDirectStore job.key job.requiredSize true batch.shared).delist
      job.key).find key = batch.shared.find key := by
    intro key
    unfold rollbackDirectStore
    split <;> rfl
  have tracked : ((rollbackDirectStore job.key job.requiredSize true batch.shared).delist
      job.key).tracked = batch.shared.tracked.erase job.key := by
    unfold rollbackDirectStore
    split <;> rfl
  have counter : ((rollbackDirectStore job.key job.requiredSize true batch.shared).delist
      job.key).currentCacheSize = batch.shared.currentCacheSize - job.requiredSize := by
    unfold rollbackDirectStore
    split
    · exact (sub_eq_add_neg _ _).symm
    · rename_i none
      rw [not_not.mp none, sub_zero]
      rfl
  have tasks : ((rollbackDirectStore job.key job.requiredSize true batch.shared).delist
      job.key).putTasks = batch.shared.putTasks.erase job.key := by
    unfold rollbackDirectStore
    split <;> rfl
  exact {
    tasks := tasks.trans holds.tasks_delist
    counter := by
      simp only [counter, holds.counter, List.map_append, List.map_cons, List.sum_append,
        List.sum_cons]
      ring
    waiting := by
      intro other member
      obtain ⟨stays, different⟩ := others other member
      have still := holds.waiting other stays
      refine still.keep ((find _).trans still.absent) ?_ ?_ still.unpublished
      · rw [tracked]
        exact Finset.mem_erase.mpr ⟨different, still.tracked⟩
      · intro listed
        rcases List.mem_append.mp listed with old | new
        · exact still.kept old
        · exact different (List.mem_singleton.mp new)
    distinct := distinct
    published := holds.published
    rolledBack := by
      intro key member
      rw [find, tracked]
      rcases List.mem_append.mp member with old | new
      · obtain ⟨gone, untracked, reason⟩ := holds.rolledBack key old
        exact ⟨gone, fun now => untracked (Finset.mem_of_mem_erase now), reason⟩
      · obtain rfl := List.mem_singleton.mp new
        obtain ⟨passed, chunk, here, named⟩ := waits.indexed
        exact ⟨waits.absent, Finset.notMem_erase _ _, job.index, passed, chunk, here, named, error,
          failed⟩
    synced := by
      intro key settled before
      rw [find, tracked]
      by_cases same : key = job.key
      · rw [same, waits.absent]
        exact ⟨fun now => absurd now (Finset.notMem_erase _ _), fun none => by cases none⟩
      · rw [Finset.mem_erase, and_iff_right same]
        refine holds.synced key (fun member => settled ?_) before
        rw [List.map_append, List.map_cons] at member
        rw [List.map_append]
        exact (List.mem_append.mp member).elim (List.mem_append_left _)
          fun rest => List.mem_append_right _ ((List.mem_cons.mp rest).resolve_left same)
    length := holds.length
    results := holds.results }

/-- Its transaction succeeded: the file is published. -/
theorem BatchInvariant.publish {file : DataFile Payload} {info : EntryInfo Key}
    (keys : (chunks.map DirectChunk.key).Nodup)
    (holds : BatchInvariant config environment pipelined chunks start reached
      (before ++ job :: later) batch) (size : info.size = job.requiredSize)
    (stored : runDirectStoreIo config (environment.transaction job.index) job.key
      (keyToPath job.key true) = .ok (file, info)) :
    BatchInvariant config environment pipelined chunks start reached (before ++ later)
      { batch with
        shared := ((batch.shared.commitData job.path file).index job.key info).delist job.key
        results := batch.results.set job.index true
        published := batch.published ++ [(job.key, info)] } := by
  have waits := holds.waiting job (List.mem_append_right _ (List.mem_cons_self ..))
  obtain ⟨distinct, _, others⟩ := others_of_distinct holds.distinct
  obtain ⟨passed, chunk, here, named⟩ := waits.indexed
  have find : ∀ key, key ≠ job.key → (((batch.shared.commitData job.path file).index job.key
      info).delist job.key).find key = batch.shared.find key := by
    intro key different
    change ((batch.shared.commitData job.path file).index job.key info).find key = _
    rw [Shared.find_index, if_neg different]
    rfl
  have found : (((batch.shared.commitData job.path file).index job.key info).delist job.key).find
      job.key = some ⟨info, batch.shared.nextStamp, 0⟩ := by
    change ((batch.shared.commitData job.path file).index job.key info).find job.key = _
    rw [Shared.find_index, if_pos rfl]
    rfl
  exact {
    tasks := holds.tasks_delist
    counter := by
      change batch.shared.currentCacheSize = _
      simp only [holds.counter, List.map_append, List.map_cons, List.sum_append, List.sum_cons,
        List.map_nil, List.sum_nil, size]
      ring
    waiting := by
      intro other member
      obtain ⟨stays, different⟩ := others other member
      have still := holds.waiting other stays
      refine still.keep ((find _ different).trans still.absent) still.tracked still.kept ?_
      intro listed
      rw [List.map_append, List.map_singleton] at listed
      rcases List.mem_append.mp listed with old | new
      · exact still.unpublished old
      · exact different (List.mem_singleton.mp new)
    distinct := distinct
    published := by
      intro entry member
      rcases List.mem_append.mp member with old | new
      · exact holds.published entry old
      · rw [List.mem_singleton.mp new]
        exact ⟨job.index, passed, chunk, here, named, file, stored⟩
    rolledBack := by
      intro key member
      obtain ⟨gone, untracked, reason⟩ := holds.rolledBack key member
      refine ⟨(find key ?_).trans gone, untracked, reason⟩
      rintro rfl
      exact waits.kept member
    synced := by
      intro key settled before
      by_cases same : key = job.key
      · subst same
        rw [found]
        exact ⟨fun _ => rfl, fun _ => waits.tracked⟩
      · rw [find key same]
        refine holds.synced key (fun member => settled ?_) before
        rw [List.map_append, List.map_cons] at member
        rw [List.map_append]
        exact (List.mem_append.mp member).elim (List.mem_append_left _)
          fun rest => List.mem_append_right _ ((List.mem_cons.mp rest).resolve_left same)
    length := (List.length_set ..).trans holds.length
    results := by
      intro index other there
      by_cases same : index = job.index
      · subst same
        rw [here] at there
        cases there
        have inside : job.index < batch.results.length := by
          rw [holds.length]
          exact (List.getElem?_eq_some_iff.mp here).1
        rw [List.getElem?_set_self inside, named, List.map_append]
        simp
      · have different : other.key ≠ job.key :=
          fun equal => same (index_unique keys there here (equal.trans named.symm))
        rw [List.getElem?_set_ne (Ne.symm same), holds.results index other there, List.map_append,
          List.mem_append, List.map_singleton, List.mem_singleton, or_iff_left different] }

theorem BatchInvariant.settle (keys : (chunks.map DirectChunk.key).Nodup)
    (holds : BatchInvariant config environment pipelined chunks start reached
      (before ++ job :: later) batch) :
    BatchInvariant config environment pipelined chunks start reached (before ++ later)
      (settleJob config environment batch job) := by
  have waits := holds.waiting job (List.mem_append_right _ (List.mem_cons_self ..))
  obtain ⟨diskMetadata, made, required⟩ := waits.sized
  unfold settleJob
  rcases runDirectStoreIo_cases job.key made (environment.transaction job.index) with
    ⟨error, failed, ran⟩ | ⟨file, info, _, size, ran⟩
  · rw [waits.path, ran]
    exact holds.rollBack failed
  · have stored := ran
    rw [← waits.path] at ran
    rw [ran]
    exact holds.publish keys (size.trans required.symm) stored

end Settle

/-! ### The loops -/

theorem BatchInvariant.withJobs (jobs : List (DirectStoreJob Key))
    (holds : BatchInvariant config environment pipelined chunks start reached pending batch) :
    BatchInvariant config environment pipelined chunks start reached pending
      { batch with jobs := jobs } :=
  { holds with
    waiting := fun job member => (holds.waiting job member).mono le_rfl (.refl _) rfl rfl }

/-- A legacy entry of the key is removed, and the key is absent then. -/
theorem BatchInvariant.clear {key : Key}
    (holds : BatchInvariant config environment pipelined chunks start reached pending batch)
    (ready : Cleared batch key cleared) :
    BatchInvariant config environment pipelined chunks start reached pending cleared ∧
      cleared.shared.find key = none ∧ cleared.jobs = batch.jobs ∧
        cleared.published = batch.published ∧ cleared.rolledBack = batch.rolledBack := by
  cases ready with
  | absent absent => exact ⟨holds, absent, rfl, rfl, rfl⟩
  | removed existing found legacy =>
      obtain ⟨shrinks, counter, gone⟩ := shrinks_removeEntry found
      exact ⟨holds.drop shrinks (by simpa using counter), gone, rfl, rfl, rfl⟩

/-- Enlisting and delisting a key that is not in `put_tasks`. -/
theorem shrinks_delist {room : Shared Key Payload} {shared : Shared Key Payload} {key : Key}
    (unlisted : key ∉ shared.putTasks) (shrinks : Shrinks (shared.enlist key) room) :
    Shrinks shared (room.delist key) where
  putTasks := by
    change room.putTasks.erase key = shared.putTasks
    rw [shrinks.putTasks]
    change (shared.putTasks ++ [key]).erase key = shared.putTasks
    rw [List.erase_append_right _ unlisted, List.erase_cons_head, List.append_nil]
  nextStamp := shrinks.nextStamp
  keys := shrinks.keys

theorem residentWhenReached_iff
    (ran : firstLoop config environment pipelined chunks reached start = some batch) :
    ResidentWhenReached config environment pipelined chunks start reached chunk ↔
      ∃ entry, batch.shared.find chunk.key = some entry ∧ entry.diskMetadata.isSome = true := by
  constructor
  · rintro ⟨other, entry, same, found, blockFirst⟩
    obtain rfl := Option.some.inj (ran.symm.trans same)
    exact ⟨entry, found, blockFirst⟩
  · rintro ⟨entry, found, blockFirst⟩
    exact ⟨batch, entry, ran, found, blockFirst⟩

theorem Cleared.not_resident (ready : Cleared batch chunk.key cleared)
    (ran : firstLoop config environment pipelined chunks reached start = some batch) :
    ¬ ResidentWhenReached config environment pipelined chunks start reached chunk := by
  rw [residentWhenReached_iff ran]
  rintro ⟨entry, found, blockFirst⟩
  cases ready with
  | absent absent =>
      rw [absent] at found
      cases found
  | removed existing there legacy =>
      obtain rfl := Option.some.inj (there.symm.trans found)
      rw [legacy] at blockFirst
      cases blockFirst

/-- A chunk that got its room. -/
theorem BatchInvariant.reserveChunk {diskMetadata : BlockFirstDiskMetadata}
    {room : Shared Key Payload} {dropped : List (Entry Key)}
    (keys : (chunks.map DirectChunk.key).Nodup)
    (ran : firstLoop config environment pipelined chunks reached start = some batch)
    (here : chunks[reached]? = some chunk)
    (holds : BatchInvariant config environment pipelined chunks start reached batch.jobs batch)
    (ready : Cleared batch chunk.key cleared) (unlisted : chunk.key ∉ cleared.shared.putTasks)
    (made : config.backend.makeDirectBlockFirstMetadata = .ok diskMetadata)
    (reserved : reserveDirect config (cleared.shared.enlist chunk.key)
      (blockFirstHeaderSize + diskMetadata.ioNbytes) (environment.candidates reached) =
        some (room, dropped, true)) :
    BatchInvariant config environment pipelined chunks start (reached + 1)
      (cleared.jobs ++ [storeJob reached chunk.key diskMetadata])
      (reservedBatch cleared chunk.key room dropped) := by
  obtain ⟨still, absent, jobs, published, rolledBack⟩ := holds.clear ready
  obtain ⟨shrinks, counter⟩ := shrinks_reserveDirect reserved
  simp only [if_true] at counter
  obtain ⟨fresh, unpublished, kept⟩ := holds.key_new keys here
  rw [← published] at unpublished
  rw [← rolledBack] at kept
  rw [← jobs] at still fresh
  have passed := still.pass here fun _ => ready.not_resident ran
  exact passed.reserve (storeJob reached chunk.key diskMetadata) fresh kept unpublished unlisted
    absent rfl ⟨diskMetadata, made, rfl⟩ ⟨Nat.lt_succ_self _, chunk, here, rfl⟩ shrinks counter

theorem settleJob_jobs (job : DirectStoreJob Key) :
    (settleJob config environment batch job).jobs = batch.jobs := by
  unfold settleJob
  split <;> rfl

/-- **One chunk.** Whatever happens to it, the invariant goes on, with the jobs
of the batch as the pending ones. -/
theorem BatchInvariant.step (keys : (chunks.map DirectChunk.key).Nodup)
    (ran : firstLoop config environment pipelined chunks reached start = some batch)
    (here : chunks[reached]? = some chunk)
    (holds : BatchInvariant config environment pipelined chunks start reached batch.jobs batch)
    (step : ChunkStep config environment pipelined batch chunk reached after) :
    BatchInvariant config environment pipelined chunks start (reached + 1) after.jobs after := by
  cases step with
  | skipped unusable => exact holds.pass here fun admitted => absurd admitted unusable
  | resident existing admitted found blockFirst =>
      exact holds.resident here admitted
        ((residentWhenReached_iff ran).mpr ⟨existing, found, blockFirst⟩)
  | listed cleared _ ready _ =>
      obtain ⟨still, _, jobs, _⟩ := holds.clear ready
      rw [jobs]
      exact still.pass here fun _ => ready.not_resident ran
  | unsized cleared _ _ ready unlisted _ =>
      obtain ⟨still, _, jobs, _⟩ := holds.clear ready
      rw [← jobs] at still
      have restored : BatchInvariant config environment pipelined chunks start reached cleared.jobs
          { cleared with
            shared := (cleared.shared.enlist chunk.key).delist chunk.key
            dropped := cleared.dropped ++ [] } :=
        still.drop (shrinks_delist unlisted (.refl _)) (sub_zero _).symm
      rw [List.append_nil] at restored
      exact restored.pass here fun _ => ready.not_resident ran
  | refused cleared diskMetadata room dropped _ ready unlisted made reserved =>
      obtain ⟨still, _, jobs, _⟩ := holds.clear ready
      rw [← jobs] at still
      obtain ⟨shrinks, counter⟩ := shrinks_reserveDirect reserved
      simp only [Bool.false_eq_true, if_false, add_zero] at counter
      have restored := still.drop (shrinks_delist unlisted shrinks) counter
      exact restored.pass here fun _ => ready.not_resident ran
  | reserved cleared diskMetadata room dropped _ ready unlisted made reserved =>
      have added := holds.reserveChunk keys ran here ready unlisted made reserved
      cases pipelined with
      | true => exact added.withJobs _
      | false =>
          have settled := BatchInvariant.settle keys added
          rw [List.append_nil] at settled
          simp only [Bool.false_eq_true, if_false, settleJob_jobs]
          exact settled

/-- The first loop, one chunk further. -/
theorem firstLoop_succ (here : chunks[reached]? = some chunk) :
    firstLoop config environment pipelined chunks (reached + 1) start =
      (firstLoop config environment pipelined chunks reached start).bind fun batch =>
        storeChunk config environment pipelined batch (chunk, reached) := by
  have inside := (List.getElem?_eq_some_iff.mp here).1
  have indexed : chunks.zipIdx[reached]? = some (chunk, reached) := by
    rw [List.getElem?_zipIdx, here]
    simp
  unfold firstLoop
  rw [List.take_add_one, indexed, Option.toList_some, List.foldlM_append]
  simp only [List.foldlM_cons, List.foldlM_nil, bind_pure]
  rfl

theorem batchInvariant_start (shared : Shared Key Payload) :
    BatchInvariant config environment pipelined chunks shared 0 []
      (startBatch shared chunks.length) where
  tasks := (List.append_nil _).symm
  counter := by simp [startBatch]
  waiting := fun _ member => by cases member
  distinct := List.nodup_nil
  published := fun _ member => by cases member
  rolledBack := fun _ member => by cases member
  synced := fun _ _ synced => synced
  length := List.length_replicate
  results := by
    intro index chunk here
    constructor
    · intro claimed
      rw [startBatch, List.getElem?_replicate] at claimed
      split at claimed <;> cases claimed
    · rintro (published | ⟨before, _⟩)
      · cases published
      · cases before

/-- The first loop keeps the invariant. -/
theorem batchInvariant_firstLoop (keys : (chunks.map DirectChunk.key).Nodup) :
    ∀ reached ≤ chunks.length, ∀ batch,
      firstLoop config environment pipelined chunks reached start = some batch →
        BatchInvariant config environment pipelined chunks start reached batch.jobs batch := by
  intro reached
  induction reached with
  | zero =>
      intro _ batch ran
      cases ran
      exact batchInvariant_start start
  | succ reached ih =>
      intro inside batch ran
      have here : chunks[reached]? = some chunks[reached] := List.getElem?_eq_getElem inside
      rw [firstLoop_succ here] at ran
      obtain ⟨before, earlier, stored⟩ := Option.bind_eq_some_iff.mp ran
      exact (ih (Nat.le_of_succ_le inside) before earlier).step keys earlier here
        (chunkStep_of_storeChunk stored)

/-- The second loop settles every job. -/
theorem BatchInvariant.settleAll (keys : (chunks.map DirectChunk.key).Nodup)
    (holds : BatchInvariant config environment pipelined chunks start reached pending batch) :
    BatchInvariant config environment pipelined chunks start reached []
      (pending.foldl (settleJob config environment) batch) := by
  induction pending generalizing batch with
  | nil => exact holds
  | cons job pending ih =>
      have first : BatchInvariant config environment pipelined chunks start reached
          ([] ++ job :: pending) batch := holds
      exact ih (first.settle keys)

/-! ### Whole calls -/

section Outcome

variable (config) (environment) (mode : DirectStoreMode) (chunks) (start)

/-- What a call leaves behind. -/
structure DirectPutOutcome (batch : DirectBatch Key Payload) : Prop where
  /-- `put_tasks` is as before the call. -/
  tasks : batch.shared.putTasks = start.putTasks
  /-- The counter has moved by what was published, removed and evicted. -/
  counter : batch.shared.currentCacheSize = start.currentCacheSize +
    (batch.published.map fun entry => entry.2.size).sum -
      (batch.dropped.map fun entry => entry.size).sum
  /-- Each result says whether the file was published or resident. -/
  length : batch.results.length = chunks.length
  results : ∀ index chunk, chunks[index]? = some chunk → (batch.results[index]? = some true ↔
    mode.directStoreEnabled = true ∧ (chunk.key ∈ batch.published.map Prod.fst ∨
      (chunk.Admitted config ∧ ResidentWhenReached config environment (mode.pipelined chunks)
        chunks start index chunk)))
  /-- What was published is the complete file of a chunk whose transaction succeeded. -/
  published : ∀ entry ∈ batch.published,
    PublishedAt config environment chunks chunks.length entry.1 entry.2
  /-- What was rolled back is a chunk whose transaction failed, and nothing of it is left. -/
  rolledBack : ∀ key ∈ batch.rolledBack, batch.shared.find key = none ∧
    key ∉ batch.shared.tracked ∧ RolledBackAt environment chunks chunks.length key
  /-- The policy still tracks what is in the index. -/
  synced : ∀ key, (key ∈ start.tracked ↔ (start.find key).isSome = true) →
    (key ∈ batch.shared.tracked ↔ (batch.shared.find key).isSome = true)

end Outcome

theorem directPutOutcome_of_batchedDirectPut {mode : DirectStoreMode}
    (keys : (chunks.map DirectChunk.key).Nodup)
    (ran : batchedDirectPut config environment mode chunks start = some batch) :
    DirectPutOutcome config environment chunks start mode batch := by
  unfold batchedDirectPut at ran
  split at ran
  · rename_i disabled
    cases ran
    have holds : BatchInvariant config environment (mode.pipelined chunks) chunks start 0 []
        (startBatch start chunks.length) := batchInvariant_start start
    exact {
      tasks := rfl
      counter := by simp [startBatch]
      length := holds.length
      results := by
        intro index chunk here
        rw [holds.results index chunk here, disabled]
        simp [startBatch]
      published := fun _ member => by cases member
      rolledBack := fun _ member => by cases member
      synced := fun key synced => synced }
  · rename_i enabled
    obtain ⟨first, looped, rfl⟩ := Option.map_eq_some_iff.mp ran
    have holds := (batchInvariant_firstLoop keys chunks.length le_rfl first looped).settleAll keys
    exact {
      tasks := holds.tasks.trans (List.append_nil _)
      counter := by
        rw [holds.counter, List.map_nil, List.sum_nil, add_zero]
      length := holds.length
      results := by
        intro index chunk here
        have inside := (List.getElem?_eq_some_iff.mp here).1
        rw [holds.results index chunk here]
        simp [inside, enabled]
      published := holds.published
      rolledBack := holds.rolledBack
      synced := fun key synced => holds.synced key (List.not_mem_nil) synced }

end LMCacheHcu.Xds
