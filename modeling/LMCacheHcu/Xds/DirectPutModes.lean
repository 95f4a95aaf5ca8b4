import LMCacheHcu.Xds.DirectPutGuarantees

/-! # Pipelined and sequential batches

Without a size limit nothing is evicted, and what happens to a chunk depends
only on the state before the call and on its own transaction. Both modes then
publish the same files, return the same results and leave the same index.
-/

namespace LMCacheHcu.Xds

open Storage

variable {Key Payload Descriptor : Type} [DecidableEq Key]

section Views

variable (config : Config Key Payload) (environment : DirectStoreEnvironment Key)
  (chunks : List (DirectChunk Key Descriptor)) (start : Shared Key Payload)

/-- The chunk is stored: it is wanted and its transaction succeeds. -/
def Stores (index : ℕ) (chunk : DirectChunk Key Descriptor) : Prop :=
  chunk.Admitted config ∧
    (∀ entry, start.find chunk.key = some entry → entry.diskMetadata = none) ∧
    chunk.key ∉ start.putTasks ∧
    (∃ diskMetadata, config.backend.makeDirectBlockFirstMetadata = .ok diskMetadata) ∧
    environment.transaction index = .ok ()

/-- A chunk that the call has passed removed the legacy entry of the key. -/
def RemovedBefore (reached : ℕ) (key : Key) : Prop :=
  ∃ index < reached, ∃ chunk, chunks[index]? = some chunk ∧ chunk.key = key ∧
    chunk.Admitted config ∧ ∃ entry, start.find key = some entry ∧ entry.diskMetadata = none

/-- The index of a call without a size limit, in terms of the state before it. -/
structure IndexView (reached : ℕ) (pending : List (DirectStoreJob Key))
    (batch : DirectBatch Key Payload) : Prop where
  published : ∀ entry ∈ batch.published, ∃ visible, batch.shared.find entry.1 = some visible ∧
    visible.toEntryInfo = entry.2 ∧ visible.pinCount = 0
  removed : ∀ key, key ∉ batch.published.map Prod.fst → RemovedBefore config chunks start reached key →
    batch.shared.find key = none
  others : ∀ key, key ∉ batch.published.map Prod.fst →
    ¬ RemovedBefore config chunks start reached key → batch.shared.find key = start.find key
  stored : ∀ index < reached, ∀ chunk, chunks[index]? = some chunk →
    ((chunk.key ∈ batch.published.map Prod.fst ∨ ∃ job ∈ pending, job.key = chunk.key ∧
      environment.transaction job.index = .ok ()) ↔ Stores config environment start index chunk)

end Views

variable {config : Config Key Payload} {environment : DirectStoreEnvironment Key}
  {pipelined : Bool} {chunks : List (DirectChunk Key Descriptor)} {start : Shared Key Payload}
  {reached : ℕ} {pending : List (DirectStoreJob Key)} {batch after cleared : DirectBatch Key Payload}
  {chunk : DirectChunk Key Descriptor}

theorem find_unlinkAll (files : List (FilePath Key)) (shared : Shared Key Payload) (key : Key) :
    (shared.unlinkAll files).find key = shared.find key := by
  induction files generalizing shared with
  | nil => rfl
  | cons file files ih =>
      refine (ih (shared.unlinkFile file)).trans ?_
      cases file <;> rfl

theorem find_removeEntry {shared : Shared Key Payload} {key : Key} (entry : Entry Key)
    (other : Key) : (shared.removeEntry key entry).find other =
      if other = key then none else shared.find other :=
  (find_unlinkAll _ _ other).trans (Shared.find_popCredit key other)

/-! ### Passing a chunk -/

theorem removedBefore_succ (here : chunks[reached]? = some chunk) {key : Key} :
    RemovedBefore config chunks start (reached + 1) key ↔
      RemovedBefore config chunks start reached key ∨ (chunk.key = key ∧ chunk.Admitted config ∧
        ∃ entry, start.find key = some entry ∧ entry.diskMetadata = none) := by
  constructor
  · rintro ⟨index, before, other, there, named, rest⟩
    rcases Nat.lt_succ_iff_lt_or_eq.mp before with earlier | rfl
    · exact .inl ⟨index, earlier, other, there, named, rest⟩
    · rw [here] at there
      cases there
      exact .inr ⟨named, rest⟩
  · rintro (⟨index, before, rest⟩ | ⟨named, rest⟩)
    · exact ⟨index, by omega, rest⟩
    · exact ⟨reached, by omega, chunk, here, named, rest⟩

/-- The key of the next chunk has in the index what it had before the call. -/
theorem IndexView.find_here (keys : (chunks.map DirectChunk.key).Nodup)
    (here : chunks[reached]? = some chunk) (fresh : chunk.key ∉ batch.published.map Prod.fst)
    (view : IndexView config environment chunks start reached pending batch) :
    batch.shared.find chunk.key = start.find chunk.key := by
  refine view.others chunk.key fresh ?_
  rintro ⟨index, before, other, there, named, _⟩
  exact before.ne (index_unique keys there here named)

/-- A chunk that stores nothing. -/
theorem IndexView.pass {next : DirectBatch Key Payload}
    (view : IndexView config environment chunks start reached pending batch)
    (keys : (chunks.map DirectChunk.key).Nodup) (here : chunks[reached]? = some chunk)
    (fresh : chunk.key ∉ batch.published.map Prod.fst)
    (idle : chunk.key ∉ pending.map DirectStoreJob.key)
    (published : next.published = batch.published)
    (find : ∀ key, key ≠ chunk.key → next.shared.find key = batch.shared.find key)
    (cleared : chunk.Admitted config → (∃ entry, start.find chunk.key = some entry ∧
      entry.diskMetadata = none) → next.shared.find chunk.key = none)
    (kept : ¬ (chunk.Admitted config ∧ ∃ entry, start.find chunk.key = some entry ∧
      entry.diskMetadata = none) → next.shared.find chunk.key = start.find chunk.key)
    (stored : ¬ Stores config environment start reached chunk) :
    IndexView config environment chunks start (reached + 1) pending next where
  published := by
    intro entry member
    rw [published] at member
    rw [find entry.1 fun same => fresh (same ▸ List.mem_map_of_mem member)]
    exact view.published entry member
  removed := by
    intro key unpublished removed
    rw [published] at unpublished
    rcases (removedBefore_succ here).mp removed with before | ⟨rfl, admitted, legacy⟩
    · by_cases same : key = chunk.key
      · obtain ⟨index, earlier, other, there, named, _⟩ := before
        exact absurd (index_unique keys there here (named.trans same)) earlier.ne
      · rw [find key same]
        exact view.removed key unpublished before
    · exact cleared admitted legacy
  others := by
    intro key unpublished notRemoved
    rw [published] at unpublished
    rw [removedBefore_succ here, not_or] at notRemoved
    by_cases same : key = chunk.key
    · subst same
      exact kept fun legacy => notRemoved.2 ⟨rfl, legacy⟩
    · rw [find key same]
      exact view.others key unpublished notRemoved.1
  stored := by
    intro index before other there
    rw [published]
    rcases Nat.lt_succ_iff_lt_or_eq.mp before with earlier | rfl
    · exact view.stored index earlier other there
    · rw [here] at there
      cases there
      refine iff_of_false ?_ stored
      rintro (listed | ⟨job, waits, same, _⟩)
      · exact fresh listed
      · exact idle (same ▸ List.mem_map_of_mem waits)

/-- A chunk that is reserved: its transaction decides whether it is stored. -/
theorem IndexView.reserve {next : DirectBatch Key Payload} {job : DirectStoreJob Key}
    (view : IndexView config environment chunks start reached pending batch)
    (keys : (chunks.map DirectChunk.key).Nodup) (here : chunks[reached]? = some chunk)
    (fresh : chunk.key ∉ batch.published.map Prod.fst)
    (idle : chunk.key ∉ pending.map DirectStoreJob.key)
    (published : next.published = batch.published)
    (find : ∀ key, key ≠ chunk.key → next.shared.find key = batch.shared.find key)
    (absent : next.shared.find chunk.key = none)
    (wanted : chunk.Admitted config ∧
      (∀ entry, start.find chunk.key = some entry → entry.diskMetadata = none) ∧
      chunk.key ∉ start.putTasks ∧
      ∃ diskMetadata, config.backend.makeDirectBlockFirstMetadata = .ok diskMetadata)
    (named : job.key = chunk.key) (indexed : job.index = reached) :
    IndexView config environment chunks start (reached + 1) (pending ++ [job]) next where
  published := by
    intro entry member
    rw [published] at member
    rw [find entry.1 fun same => fresh (same ▸ List.mem_map_of_mem member)]
    exact view.published entry member
  removed := by
    intro key unpublished removed
    rw [published] at unpublished
    by_cases same : key = chunk.key
    · rw [same]
      exact absent
    · rw [find key same]
      refine view.removed key unpublished ?_
      exact ((removedBefore_succ here).mp removed).resolve_right fun this => same this.1.symm
  others := by
    intro key unpublished notRemoved
    rw [published] at unpublished
    rw [removedBefore_succ here, not_or] at notRemoved
    by_cases same : key = chunk.key
    · subst same
      rw [absent]
      cases found : start.find chunk.key with
      | none => rfl
      | some entry =>
          exact absurd ⟨rfl, wanted.1, entry, found, wanted.2.1 entry found⟩ notRemoved.2
    · rw [find key same]
      exact view.others key unpublished notRemoved.1
  stored := by
    intro index before other there
    rw [published]
    rcases Nat.lt_succ_iff_lt_or_eq.mp before with earlier | rfl
    · rw [← view.stored index earlier other there]
      have different : job.key ≠ other.key := fun same =>
        earlier.ne (index_unique keys there here (same.symm.trans named))
      simp [List.mem_append, or_and_right, exists_or, different]
    · rw [here] at there
      cases there
      constructor
      · rintro (listed | ⟨waits, member, same, succeeds⟩)
        · exact absurd listed fresh
        · rcases List.mem_append.mp member with old | new
          · exact absurd (same ▸ List.mem_map_of_mem old) idle
          · rw [List.mem_singleton.mp new, indexed] at succeeds
            exact ⟨wanted.1, wanted.2.1, wanted.2.2.1, wanted.2.2.2, succeeds⟩
      · rintro ⟨_, _, _, _, succeeds⟩
        exact .inr ⟨job, List.mem_append_right _ (List.mem_singleton_self _), named, by
          rw [indexed]; exact succeeds⟩

/-! ### Settling a job -/

theorem IndexView.settle {job : DirectStoreJob Key} {before later : List (DirectStoreJob Key)}
    (view : IndexView config environment chunks start reached (before ++ job :: later) batch)
    (holds : BatchInvariant config environment pipelined chunks start reached
      (before ++ job :: later) batch) :
    IndexView config environment chunks start reached (before ++ later)
      (settleJob config environment batch job) := by
  have waits := holds.waiting job (List.mem_append_right _ (List.mem_cons_self ..))
  obtain ⟨_, _, others⟩ := others_of_distinct holds.distinct
  obtain ⟨diskMetadata, made, _⟩ := waits.sized
  have split : ∀ key, (∃ other ∈ before ++ job :: later, other.key = key ∧
      environment.transaction other.index = .ok ()) ↔
      (job.key = key ∧ environment.transaction job.index = .ok ()) ∨
        ∃ other ∈ before ++ later, other.key = key ∧
          environment.transaction other.index = .ok () := by
    intro key
    simp only [List.mem_append, List.mem_cons, or_and_right, exists_or, exists_eq_left]
    exact or_left_comm
  unfold settleJob
  rw [waits.path]
  rcases runDirectStoreIo_cases job.key made (environment.transaction job.index) with
    ⟨error, failed, ran⟩ | ⟨file, info, succeeded, _, ran⟩
  · rw [ran]
    have find : ∀ key, ((rollbackDirectStore job.key job.requiredSize true batch.shared).delist
        job.key).find key = batch.shared.find key := by
      intro key
      unfold rollbackDirectStore
      split <;> rfl
    refine ⟨fun entry member => ?_, fun key unpublished removed => ?_,
      fun key unpublished notRemoved => ?_, fun index passed chunk here => ?_⟩
    · rw [find]
      exact view.published entry member
    · exact (find key).trans (view.removed key unpublished removed)
    · exact (find key).trans (view.others key unpublished notRemoved)
    · rw [← view.stored index passed chunk here, split, failed]
      simp
  · rw [ran]
    have find : ∀ key, (((batch.shared.commitData (keyToPath job.key true) file).index job.key
        info).delist job.key).find key = if key = job.key then
          some ⟨info, batch.shared.nextStamp, 0⟩ else batch.shared.find key :=
      Shared.find_index job.key info
    refine ⟨fun entry member => ?_, fun key unpublished removed => ?_,
      fun key unpublished notRemoved => ?_, fun index passed chunk here => ?_⟩
    · rcases List.mem_append.mp member with old | new
      · have different : entry.1 ≠ job.key := fun same =>
          waits.unpublished (same ▸ List.mem_map_of_mem old)
        rw [find, if_neg different]
        exact view.published entry old
      · rw [List.mem_singleton.mp new, find, if_pos rfl]
        exact ⟨_, rfl, rfl, rfl⟩
    · rw [List.map_append, List.mem_append, not_or, List.map_singleton, List.mem_singleton]
        at unpublished
      rw [find, if_neg unpublished.2]
      exact view.removed key unpublished.1 removed
    · rw [List.map_append, List.mem_append, not_or, List.map_singleton, List.mem_singleton]
        at unpublished
      rw [find, if_neg unpublished.2]
      exact view.others key unpublished.1 notRemoved
    · rw [← view.stored index passed chunk here, split, List.map_append, List.mem_append,
        List.map_singleton, List.mem_singleton]
      simp only [succeeded, and_true, eq_comm (a := job.key)]
      tauto

/-! ### The loops -/

theorem IndexView.withJobs (jobs : List (DirectStoreJob Key))
    (view : IndexView config environment chunks start reached pending batch) :
    IndexView config environment chunks start reached pending { batch with jobs := jobs } :=
  ⟨view.published, view.removed, view.others, view.stored⟩

theorem IndexView.step (unlimited : config.maxXdsSize = none)
    (keys : (chunks.map DirectChunk.key).Nodup) (here : chunks[reached]? = some chunk)
    (ran : firstLoop config environment pipelined chunks reached start = some batch)
    (holds : BatchInvariant config environment pipelined chunks start reached batch.jobs batch)
    (view : IndexView config environment chunks start reached batch.jobs batch)
    (step : ChunkStep config environment pipelined batch chunk reached after) :
    IndexView config environment chunks start (reached + 1) after.jobs after := by
  obtain ⟨idle, fresh, _⟩ := holds.key_new keys here
  have before := view.find_here keys here fresh
  have listed : chunk.key ∈ batch.shared.putTasks ↔ chunk.key ∈ start.putTasks := by
    rw [holds.tasks, List.mem_append, or_iff_left idle]
  -- what a cleared batch still has
  have clear : ∀ {cleared}, Cleared batch chunk.key cleared →
      cleared.published = batch.published ∧ cleared.jobs = batch.jobs ∧
      cleared.shared.putTasks = batch.shared.putTasks ∧ cleared.shared.find chunk.key = none ∧
      (∀ key, key ≠ chunk.key → cleared.shared.find key = batch.shared.find key) ∧
      ∀ entry, start.find chunk.key = some entry → entry.diskMetadata = none := by
    intro cleared ready
    cases ready with
    | absent absent =>
        refine ⟨rfl, rfl, rfl, absent, fun _ _ => rfl, fun entry found => ?_⟩
        rw [← before, absent] at found
        cases found
    | removed existing found legacy =>
        refine ⟨rfl, rfl, (shrinks_removeEntry found).1.putTasks,
          (shrinks_removeEntry found).2.2, fun key different => ?_, fun entry there => ?_⟩
        · exact (find_removeEntry existing key).trans (if_neg different)
        · rw [← before, found] at there
          cases there
          exact legacy
  cases step with
  | skipped unusable =>
      exact view.pass keys here fresh idle rfl (fun _ _ => rfl)
        (fun admitted => absurd admitted unusable) (fun _ => before)
        fun stores => unusable stores.1
  | resident existing admitted found blockFirst =>
      have visible : start.find chunk.key = some existing := before ▸ found
      refine view.pass keys here fresh idle rfl (fun _ _ => rfl) ?_ (fun _ => before) ?_
      · rintro _ ⟨entry, there, legacy⟩
        rw [visible] at there
        cases there
        rw [legacy] at blockFirst
        cases blockFirst
      · intro stores
        rw [stores.2.1 existing visible] at blockFirst
        cases blockFirst
  | listed cleared admitted ready waiting =>
      obtain ⟨published, jobs, tasks, absent, find, legacy⟩ := clear ready
      rw [jobs]
      refine view.pass keys here fresh idle published find (fun _ _ => absent) ?_ ?_
      · intro kept
        cases visible : start.find chunk.key with
        | none => exact absent
        | some entry => exact absurd ⟨admitted, entry, visible, legacy entry visible⟩ kept
      · rw [tasks, listed] at waiting
        exact fun stores => stores.2.2.1 waiting
  | unsized cleared error admitted ready unlisted failed =>
      obtain ⟨published, jobs, tasks, absent, find, legacy⟩ := clear ready
      change IndexView config environment chunks start (reached + 1) cleared.jobs _
      rw [jobs]
      refine (view.pass keys here fresh idle published find (fun _ _ => absent) ?_ ?_)
      · intro kept
        cases visible : start.find chunk.key with
        | none => exact absent
        | some entry => exact absurd ⟨admitted, entry, visible, legacy entry visible⟩ kept
      · rintro ⟨_, _, _, ⟨diskMetadata, made⟩, _⟩
        rw [failed] at made
        cases made
  | refused cleared diskMetadata room dropped _ _ _ _ reserved =>
      unfold reserveDirect at reserved
      rw [unlimited] at reserved
      cases reserved
  | reserved cleared diskMetadata room dropped admitted ready unlisted made reserved =>
      obtain ⟨published, jobs, tasks, absent, find, legacy⟩ := clear ready
      have charged : room = (cleared.shared.enlist chunk.key).charge
          (blockFirstHeaderSize + diskMetadata.ioNbytes) := by
        unfold reserveDirect at reserved
        rw [unlimited] at reserved
        cases reserved
        rfl
      subst charged
      have free : chunk.key ∉ start.putTasks := by rwa [tasks, listed] at unlisted
      have added : IndexView config environment chunks start (reached + 1)
          (batch.jobs ++ [storeJob reached chunk.key diskMetadata])
          (reservedBatch cleared chunk.key ((cleared.shared.enlist chunk.key).charge
            (blockFirstHeaderSize + diskMetadata.ioNbytes)) dropped) :=
        view.reserve keys here fresh idle published find absent
          ⟨admitted, legacy, free, diskMetadata, made⟩ rfl rfl
      cases pipelined with
      | true =>
          rw [← jobs] at added
          exact added.withJobs _
      | false =>
          have invariant := holds.reserveChunk keys ran here ready unlisted made reserved
          rw [jobs] at invariant
          have settled := added.settle invariant
          rw [List.append_nil, ← jobs] at settled
          simp only [Bool.false_eq_true, if_false, settleJob_jobs]
          exact settled

theorem indexView_start (shared : Shared Key Payload) :
    IndexView config environment chunks shared 0 [] (startBatch shared chunks.length) where
  published := fun _ member => by cases member
  removed := by
    rintro key _ ⟨index, before, _⟩
    cases before
  others := fun _ _ _ => rfl
  stored := fun _ before => by cases before

theorem indexView_firstLoop (unlimited : config.maxXdsSize = none)
    (keys : (chunks.map DirectChunk.key).Nodup) : ∀ reached ≤ chunks.length, ∀ batch,
      firstLoop config environment pipelined chunks reached start = some batch →
        IndexView config environment chunks start reached batch.jobs batch := by
  intro reached
  induction reached with
  | zero =>
      intro _ batch ran
      cases ran
      exact indexView_start start
  | succ reached ih =>
      intro inside batch ran
      have here : chunks[reached]? = some chunks[reached] := List.getElem?_eq_getElem inside
      rw [firstLoop_succ here] at ran
      obtain ⟨before, earlier, stored⟩ := Option.bind_eq_some_iff.mp ran
      have within := Nat.le_of_succ_le inside
      exact (ih within before earlier).step unlimited keys here earlier
        (batchInvariant_firstLoop keys reached within before earlier)
        (chunkStep_of_storeChunk stored)

theorem IndexView.settleAll (keys : (chunks.map DirectChunk.key).Nodup)
    (holds : BatchInvariant config environment pipelined chunks start reached pending batch)
    (view : IndexView config environment chunks start reached pending batch) :
    IndexView config environment chunks start reached []
      (pending.foldl (settleJob config environment) batch) := by
  induction pending generalizing batch with
  | nil => exact view
  | cons job pending ih =>
      have invariant : BatchInvariant config environment pipelined chunks start reached
          ([] ++ job :: pending) batch := holds
      have first : IndexView config environment chunks start reached ([] ++ job :: pending)
          batch := view
      exact ih (invariant.settle keys) (first.settle invariant)

variable (environment pipelined start) in
/-- Without a size limit the first loop always comes to its end. -/
theorem exists_firstLoop (unlimited : config.maxXdsSize = none) :
    ∀ reached ≤ chunks.length,
      ∃ batch, firstLoop config environment pipelined chunks reached start = some batch := by
  intro reached
  induction reached with
  | zero => exact fun _ => ⟨_, rfl⟩
  | succ reached ih =>
      intro inside
      obtain ⟨batch, ran⟩ := ih (Nat.le_of_succ_le inside)
      rw [firstLoop_succ (List.getElem?_eq_getElem inside), ran, Option.bind_some]
      unfold storeChunk attemptChunk reserveDirect
      rw [unlimited]
      simp only [Option.map_some]
      repeat' split
      all_goals exact ⟨_, rfl⟩

/-! ### Both modes -/

/-- What a reader sees of an entry: everything but which object it is. -/
def Entry.content (entry : Entry Key) : EntryInfo Key × ℤ := (entry.toEntryInfo, entry.pinCount)

/-- Whether a chunk succeeds, in terms of the state before the call. -/
def Succeeds (config : Config Key Payload) (environment : DirectStoreEnvironment Key)
    (start : Shared Key Payload) (index : ℕ) (chunk : DirectChunk Key Descriptor) : Prop :=
  Stores config environment start index chunk ∨ (chunk.Admitted config ∧
    ∃ entry, start.find chunk.key = some entry ∧ entry.diskMetadata.isSome = true)

theorem results_iff_succeeds {mode : DirectStoreMode} (unlimited : config.maxXdsSize = none)
    (keys : (chunks.map DirectChunk.key).Nodup) (enabled : mode.directStoreEnabled = true)
    (outcome : DirectPutOutcome config environment chunks start mode batch)
    (view : IndexView config environment chunks start chunks.length [] batch) {index : ℕ}
    (here : chunks[index]? = some chunk) :
    batch.results[index]? = some true ↔ Succeeds config environment start index chunk := by
  have inside := (List.getElem?_eq_some_iff.mp here).1
  obtain ⟨reached, ran⟩ := exists_firstLoop environment (mode.pipelined chunks) start unlimited index
    inside.le
  have invariant := batchInvariant_firstLoop keys index inside.le reached ran
  have before := (indexView_firstLoop unlimited keys index inside.le reached ran).find_here keys
    here (invariant.key_new keys here).2.1
  rw [outcome.results index chunk here, enabled, and_iff_right rfl, residentWhenReached_iff ran,
    before, Succeeds, ← view.stored index inside chunk here]
  simp

variable (environment start) in
/-- The call, and its two invariants at its end. -/
theorem exists_batchedDirectPut (mode : DirectStoreMode) (unlimited : config.maxXdsSize = none)
    (keys : (chunks.map DirectChunk.key).Nodup) (enabled : mode.directStoreEnabled = true) :
    ∃ batch, batchedDirectPut config environment mode chunks start = some batch ∧
      DirectPutOutcome config environment chunks start mode batch ∧
      IndexView config environment chunks start chunks.length [] batch := by
  obtain ⟨first, looped⟩ := exists_firstLoop environment (mode.pipelined chunks) start unlimited
    chunks.length le_rfl
  have invariant := batchInvariant_firstLoop keys chunks.length le_rfl first looped
  have view := (indexView_firstLoop unlimited keys chunks.length le_rfl first looped).settleAll
    keys invariant
  have ran : batchedDirectPut config environment mode chunks start =
      some (first.jobs.foldl (settleJob config environment) first) := by
    rw [batchedDirectPut, enabled, looped]
    rfl
  exact ⟨_, ran, directPutOutcome_of_batchedDirectPut keys ran, view⟩

theorem content_eq {one other : DirectBatch Key Payload} {mode mode' : DirectStoreMode}
    (keys : (chunks.map DirectChunk.key).Nodup)
    (first : DirectPutOutcome config environment chunks start mode one)
    (second : DirectPutOutcome config environment chunks start mode' other)
    (view : IndexView config environment chunks start chunks.length [] one)
    (view' : IndexView config environment chunks start chunks.length [] other) (key : Key) :
    (one.shared.find key).map Entry.content = (other.shared.find key).map Entry.content := by
  have published : ∀ {batch batch' : DirectBatch Key Payload} {mode : DirectStoreMode},
      DirectPutOutcome config environment chunks start mode batch →
      IndexView config environment chunks start chunks.length [] batch →
      IndexView config environment chunks start chunks.length [] batch' →
      key ∈ batch.published.map Prod.fst → key ∈ batch'.published.map Prod.fst := by
    intro batch batch' mode outcome left right member
    obtain ⟨entry, listed, rfl⟩ := List.mem_map.mp member
    obtain ⟨index, inside, chunk, here, named, _⟩ := outcome.published entry listed
    have stores := (left.stored index inside chunk here).mp (.inl (named ▸ member))
    have there := (right.stored index inside chunk here).mpr stores
    simpa [named] using there
  by_cases listed : key ∈ one.published.map Prod.fst
  · obtain ⟨entry, member, rfl⟩ := List.mem_map.mp listed
    obtain ⟨entry', member', same⟩ := List.mem_map.mp (published first view view' listed)
    obtain ⟨visible, found, info, pins⟩ := view.published entry member
    obtain ⟨visible', found', info', pins'⟩ := view'.published entry' member'
    obtain ⟨index, _, chunk, here, named, file, stored⟩ := first.published entry member
    obtain ⟨index', _, chunk', here', named', file', stored'⟩ := second.published entry' member'
    obtain rfl := index_unique keys here here' (named.trans (same.symm.trans named'.symm))
    rw [same] at found' stored'
    have infos := (Prod.mk.inj (Except.ok.inj (stored.symm.trans stored'))).2
    rw [found, found', Option.map_some, Option.map_some, Entry.content, Entry.content, info, info',
      pins, pins', infos]
  · have unlisted : key ∉ other.published.map Prod.fst := fun member =>
      listed (published second view' view member)
    by_cases removed : RemovedBefore config chunks start chunks.length key
    · rw [view.removed key listed removed, view'.removed key unlisted removed]
    · rw [view.others key listed removed, view'.others key unlisted removed]

/-- **A batch of direct puts keeps the accounts**, and without a size limit both
modes do the same. -/
theorem batchedDirectPut_accounted (config : Config Key Payload)
    (environment : DirectStoreEnvironment Key) (chunks : List (DirectChunk Key Descriptor))
    (start : Shared Key Payload) (keys : (chunks.map DirectChunk.key).Nodup) :
    (∀ mode batch, batchedDirectPut config environment mode chunks start = some batch →
      DirectPutOutcome config environment chunks start mode batch) ∧
    (config.maxXdsSize = none → ∀ enabled, ∃ sequential pipelined,
      batchedDirectPut config environment ⟨enabled, false⟩ chunks start = some sequential ∧
      batchedDirectPut config environment ⟨enabled, true⟩ chunks start = some pipelined ∧
      sequential.results = pipelined.results ∧
      ∀ key, (sequential.shared.find key).map Entry.content =
        (pipelined.shared.find key).map Entry.content) := by
  refine ⟨fun mode batch ran => directPutOutcome_of_batchedDirectPut keys ran,
    fun unlimited enabled => ?_⟩
  cases enabled with
  | false => exact ⟨_, _, rfl, rfl, rfl, fun _ => rfl⟩
  | true =>
      obtain ⟨sequential, ran, first, view⟩ := exists_batchedDirectPut environment start
        ⟨true, false⟩ unlimited keys rfl
      obtain ⟨pipelined, ran', second, view'⟩ := exists_batchedDirectPut environment start
        ⟨true, true⟩ unlimited keys rfl
      refine ⟨sequential, pipelined, ran, ran', List.ext_getElem? fun index => ?_,
        content_eq keys first second view view'⟩
      by_cases inside : index < chunks.length
      · have here : chunks[index]? = some chunks[index] := List.getElem?_eq_getElem inside
        have same := (results_iff_succeeds unlimited keys rfl first view here).trans
          (results_iff_succeeds unlimited keys rfl second view' here).symm
        have left : index < sequential.results.length := by rw [first.length]; exact inside
        have right : index < pipelined.results.length := by rw [second.length]; exact inside
        rw [List.getElem?_eq_getElem left, List.getElem?_eq_getElem right] at same ⊢
        rw [Option.some.injEq, Option.some.injEq] at same
        exact congrArg some (Bool.eq_iff_iff.mpr same)
      · rw [List.getElem?_eq_none (by rw [first.length]; omega),
          List.getElem?_eq_none (by rw [second.length]; omega)]

/-! ### A batch with a failure, and a chunk without a descriptor -/

/-- A backend with direct stores. -/
def directConfig : Config ℕ ℕ :=
  { plainConfig with backend := { plainBackend with directEnabled := true } }

/-- The first transaction succeeds, the others fail. -/
def firstStored : DirectStoreEnvironment ℕ where
  candidates := fun _ => []
  transaction := fun index => if index = 0 then .ok () else .error (.osError "disk is full")

theorem batchedDirectPut_accounted_two :
    ∃ batch, batchedDirectPut directConfig firstStored ⟨true, true⟩
        [⟨0, some ()⟩, ⟨1, some ()⟩] emptyState.shared = some batch ∧
      batch.results = [true, false] ∧ DirectPutOutcome directConfig firstStored
        [⟨0, some ()⟩, ⟨1, some ()⟩] emptyState.shared ⟨true, true⟩ batch := by
  have done : (batchedDirectPut directConfig firstStored ⟨true, true⟩
      [⟨0, some ()⟩, ⟨1, some ()⟩] emptyState.shared).map DirectBatch.results =
        some [true, false] := by decide
  obtain ⟨batch, ran, results⟩ := Option.map_eq_some_iff.mp done
  exact ⟨batch, ran, results, (batchedDirectPut_accounted directConfig firstStored
    [⟨0, some ()⟩, ⟨1, some ()⟩] emptyState.shared (by decide)).1 ⟨true, true⟩ batch ran⟩

/-- A key that is resident as block-first, put again without a descriptor. -/
theorem results_fail_without_descriptor :
    ∃ first second : DirectBatch ℕ ℕ,
      batchedDirectPut directConfig firstStored ⟨true, false⟩ [⟨0, some ()⟩] emptyState.shared =
        some first ∧
      batchedDirectPut directConfig firstStored ⟨true, false⟩
        ([⟨0, none⟩] : List (DirectChunk ℕ Unit)) first.shared = some second ∧
      ¬ (second.results[0]? = some true ↔ 0 ∈ second.published.map Prod.fst ∨
        ResidentWhenReached directConfig firstStored false
          ([⟨0, none⟩] : List (DirectChunk ℕ Unit)) first.shared 0 ⟨0, none⟩) := by
  have done : ((batchedDirectPut directConfig firstStored ⟨true, false⟩ [⟨0, some ()⟩]
      emptyState.shared).bind fun first =>
        (batchedDirectPut directConfig firstStored ⟨true, false⟩
          ([⟨0, none⟩] : List (DirectChunk ℕ Unit)) first.shared).map fun second =>
            (second.results, (first.shared.find 0).any fun entry => entry.diskMetadata.isSome)) =
      some ([false], true) := by decide
  obtain ⟨first, ran, rest⟩ := Option.bind_eq_some_iff.mp done
  obtain ⟨second, ran', facts⟩ := Option.map_eq_some_iff.mp rest
  obtain ⟨results, resident⟩ := Prod.mk.inj facts
  obtain ⟨entry, found, blockFirst⟩ := (Option.any_eq_true _ _).mp resident
  refine ⟨first, second, ran, ran', fun same => ?_⟩
  have failed := same.mpr (.inr ⟨startBatch first.shared 1, entry, rfl, found, blockFirst⟩)
  rw [results] at failed
  cases failed

end LMCacheHcu.Xds
