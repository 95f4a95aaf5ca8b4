import LMCacheHcu.LocalDisk.Accounting
import LMCacheHcu.LocalDisk.WrittenFiles

/-! # Batched loads of the local disk backend

A batch reads its files in order while other threads may remove any of the keys. It
stops at the first file that fails: from there on it only unpins the keys that are
still indexed and gives the memory objects back. For a file that was read it looks
the key up twice, once without `disk_lock` and once with it, and does not expect the
key to be gone.
-/

namespace LMCacheHcu.LocalDisk

open Storage

variable {Key : Type} [DecidableEq Key]

/-! ### The call -/

/-- One entry of the zipped lists, with what its file has when it is read, how the read
goes, and what the `os.remove` raises that `remove` makes after a failed read. -/
structure LoadItem (Key : Type) where
  key : Key
  memObj : ℕ
  byteArray : List Byte
  file : Option (List Byte)
  reads : ReadCalls
  unlinking : Option Failure

/-- `read_file` returns `True`. -/
def LoadItem.loads (item : LoadItem Key) : Bool := (item.reads.readFile item.file item.byteArray).1

inductive LoadError
  | keyError
  | osRemove (failure : Failure)
deriving DecidableEq, Repr

/-- Where the loop is, in the round of its first item that is left. -/
inductive Phase (Key : Type)
  | reading
  /-- in `read_file`, before `self.remove(key)` -/
  | removing
  /-- at the write of `self.usage -= payload_size`, with the lock held -/
  | popping (key : Key) (entry : DiskEntry) (value : ℤ)
  /-- before `os.remove(path)` -/
  | unlinking
  /-- before the index entry of a failed item is unpinned -/
  | dropping
  /-- before the memory object of a failed item is given back -/
  | releasing
  /-- before `self.dict[key].cached_positions` -/
  | recovering
  /-- before `self.disk_lock.acquire()` -/
  | locking
  /-- before `self.dict[key].unpin()`, with the lock held -/
  | unpinning
  /-- before `self.disk_lock.release()` -/
  | unlocking
  | raised (error : LoadError)

/-- The backend, the other threads' jobs and the batch. `pin_count` and
`cached_positions` are fields of the index entries; the lists are logs. -/
structure Batch (Key : Type) [DecidableEq Key] extends State Key where
  pinCount : Key → ℤ
  cachedPositions : Key → Option (List ℕ)
  /-- of the metadata of memory objects -/
  objectPositions : ℕ → Option (List ℕ)
  rest : List (LoadItem Key)
  phase : Phase Key
  failed : Bool
  loaded : List ℕ
  unpinnedKeys : List Key
  unpinnedObjects : List ℕ
  releasedObjects : List ℕ

namespace Batch

variable (batch : Batch Key)

/-- `unpin` of an index entry. -/
def unpinKey (key : Key) : Batch Key :=
  { batch with
    pinCount := Function.update batch.pinCount key (batch.pinCount key - 1)
    unpinnedKeys := batch.unpinnedKeys ++ [key] }

/-- Take or release `disk_lock`. -/
def setLock (locked : Bool) : Batch Key := { batch with disk := { batch.disk with locked := locked } }

/-- One step of the round of an item. -/
def loadItem (item : LoadItem Key) (rest : List (LoadItem Key)) : Option (Batch Key) :=
  match batch.phase with
  | .raised _ => none
  | .reading =>
      some { batch with phase :=
        if batch.failed then .dropping else if item.loads then .recovering else .removing }
  | .removing =>
      (advance batch.disk false (.remove item.key true)).map fun moved =>
        match moved.2 with
        | .removing key entry value =>
            { batch with disk := moved.1, phase := .popping key entry value }
        | _ => { batch with disk := moved.1, phase := .dropping, failed := true }
  | .popping key entry value =>
      (advance batch.disk false (.removing key entry value)).map fun moved =>
        { batch with disk := moved.1, phase := .unlinking }
  | .unlinking =>
      match item.unlinking with
      | none | some .fileNotFound => some { batch with phase := .dropping, failed := true }
      | some failure => some { batch with phase := .raised (.osRemove failure) }
  | .dropping =>
      if batch.disk.locked then none
      else
        match batch.disk.find item.key with
        | some _ => some { batch.unpinKey item.key with phase := .releasing }
        | none => some { batch with phase := .releasing }
  | .releasing =>
      some { batch with
        unpinnedObjects := batch.unpinnedObjects ++ [item.memObj]
        releasedObjects := batch.releasedObjects ++ [item.memObj]
        rest := rest
        phase := .reading }
  | .recovering =>
      match batch.disk.find item.key with
      | none => some { batch with phase := .raised .keyError }
      | some _ =>
          some { batch with
            objectPositions := Function.update batch.objectPositions item.memObj
              (batch.cachedPositions item.key)
            phase := .locking }
  | .locking =>
      if batch.disk.locked then none
      else some { batch.setLock true with phase := .unpinning }
  | .unpinning =>
      match batch.disk.find item.key with
      | none => some { batch with phase := .raised .keyError }
      | some _ => some { batch.unpinKey item.key with phase := .unlocking }
  | .unlocking =>
      some { batch.setLock false with
        loaded := batch.loaded ++ [item.memObj]
        rest := rest
        phase := .reading }

/-- One step of `_hcu_batched_async_load_bytes_from_disk`. -/
def load : Option (Batch Key) :=
  match batch.rest with
  | [] => none
  | item :: rest => batch.loadItem item rest

end Batch

inductive LoadEvent (Key : Type)
  | load
  /-- another thread calls `remove` -/
  | remove (key : Key) (force : Bool)
  /-- another thread's job makes a step -/
  | advance (index : ℕ)

/-- A step of the batch or of a concurrent removal. -/
def loadStep (batch : Batch Key) : LoadEvent Key → Option (Batch Key)
  | .load => batch.load
  | .remove key force => (step batch.toState (.remove key force)).map fun next =>
      { batch with toState := next }
  | .advance index => (step batch.toState (.advance index false)).map fun next =>
      { batch with toState := next }

/-! ### What is to hold, and when -/

def Job.isRemoval : Job Key → Bool
  | .remove _ _ | .removing _ _ _ | .removed => true
  | _ => false

/-- A call at its start, with removals in progress. -/
structure Batch.Starts (items : List (LoadItem Key)) (batch : Batch Key) : Prop where
  rest : batch.rest = items
  phase : batch.phase = .reading
  failed : batch.failed = false
  logs : batch.loaded = [] ∧ batch.unpinnedKeys = [] ∧ batch.unpinnedObjects = [] ∧
    batch.releasedObjects = []
  removals : ∀ job ∈ batch.jobs, job.isRemoval = true
  holder : batch.disk.locked = true → ∃ job ∈ batch.jobs, job.locks ≠ 0

/-- Steps that the loop has left to do at most. -/
def Phase.rank : Phase Key → ℕ
  | .reading => 8
  | .removing | .recovering => 7
  | .popping _ _ _ | .locking => 6
  | .unlinking | .unpinning => 5
  | .dropping | .unlocking => 4
  | .releasing => 3
  | .raised _ => 0

def Batch.remaining (batch : Batch Key) : ℕ := 9 * batch.rest.length + batch.phase.rank

/-- **The property.** Nothing is raised, the call goes on whenever the lock is free,
and when it returns it has the longest prefix of files that were read; every other
memory object was unpinned and released once, and every key that is still indexed was
unpinned once for each of its items. -/
structure LoadsPrefix (items : List (LoadItem Key)) (start batch : Batch Key) : Prop where
  raises : ∀ error, batch.phase ≠ .raised error
  goesOn : batch.rest ≠ [] →
    (∃ next, loadStep batch .load = some next ∧ next.remaining < batch.remaining) ∨
      ∃ index next, loadStep batch (.advance index) = some next
  loaded : batch.rest = [] → batch.loaded = (items.takeWhile LoadItem.loads).map LoadItem.memObj
  released : batch.rest = [] →
    batch.unpinnedObjects = (items.dropWhile LoadItem.loads).map LoadItem.memObj ∧
      batch.releasedObjects = (items.dropWhile LoadItem.loads).map LoadItem.memObj
  unpinned : batch.rest = [] → ∀ key, (batch.disk.find key).isSome = true →
    batch.unpinnedKeys.count key = (items.map LoadItem.key).count key ∧
      batch.pinCount key = start.pinCount key - (items.map LoadItem.key).count key

/-- **The condition.** A key that the loop looks up for a file it has read is indexed,
and the `os.remove` after a failed read raises nothing but `FileNotFoundError`. -/
def Batch.finds (batch : Batch Key) : Bool :=
  match batch.rest with
  | [] => true
  | item :: _ =>
      match batch.phase with
      | .recovering | .unpinning => (batch.disk.find item.key).isSome
      | .unlinking => item.unlinking = none || item.unlinking = some .fileNotFound
      | _ => true

def FindsKeys (batch : Batch Key) : LoadEvent Key → Prop
  | .load => batch.finds = true
  | .remove _ _ | .advance _ => True

instance (batch : Batch Key) (event : LoadEvent Key) : Decidable (FindsKeys batch event) := by
  cases event <;> simp only [FindsKeys] <;> infer_instance

/-! ### The invariant -/

/-- What the phase says of the item in work. -/
def Phase.Fits (phase : Phase Key) (failed : Bool) (rest : List (LoadItem Key)) : Prop :=
  match phase with
  | .reading => True
  | .recovering | .locking | .unpinning | .unlocking =>
      failed = false ∧ ∃ item later, rest = item :: later ∧ item.loads = true
  | .removing | .popping _ _ _ | .unlinking =>
      failed = false ∧ ∃ item later, rest = item :: later ∧ item.loads = false
  | .dropping | .releasing => failed = true ∧ rest ≠ []
  | .raised _ => False

/-- The loop holds the lock. -/
def Phase.holds : Phase Key → Bool
  | .popping _ _ _ | .unpinning | .unlocking => true
  | _ => false

/-- The key of the item in work has been unpinned. -/
def Batch.ahead (batch : Batch Key) : List Key :=
  match batch.phase with
  | .releasing | .unlocking => (batch.rest.take 1).map LoadItem.key
  | _ => []

/-- The items that are done are some that were read and some from the first one on
that was not. -/
structure Loading (items : List (LoadItem Key)) (start batch : Batch Key)
    (good bad : List (LoadItem Key)) : Prop where
  items : items = good ++ bad ++ batch.rest
  loads : ∀ item ∈ good, item.loads = true
  running : batch.failed = false → bad = []
  stopped : batch.failed = true → ∃ first later, bad ++ batch.rest = first :: later ∧
    first.loads = false
  fits : batch.phase.Fits batch.failed batch.rest
  loaded : batch.loaded = good.map LoadItem.memObj
  unpinnedObjects : batch.unpinnedObjects = bad.map LoadItem.memObj
  releasedObjects : batch.releasedObjects = bad.map LoadItem.memObj
  pins : ∀ key, batch.pinCount key = start.pinCount key - batch.unpinnedKeys.count key
  unpinned : ∀ key, (batch.disk.find key).isSome = true →
    batch.unpinnedKeys.count key =
      ((good ++ bad).map LoadItem.key).count key + batch.ahead.count key
  removals : ∀ job ∈ batch.jobs, job.isRemoval = true
  holder : batch.disk.locked = true → batch.phase.holds = true ∨ ∃ job ∈ batch.jobs, job.locks ≠ 0

/-- A call in some state of its work. -/
def Underway (items : List (LoadItem Key)) (start batch : Batch Key) : Prop :=
  ∃ good bad, Loading items start batch good bad

/-! ### Steps of the other threads -/

/-- A step of a removal takes nothing into the index, and it leaves the lock with its
own job or where it was. -/
theorem advance_removal {disk next : Disk Key} {job moved : Job Key}
    (removal : job.isRemoval = true) (advanced : advance disk false job = some (next, moved)) :
    moved.isRemoval = true ∧
      (∀ key, (next.find key).isSome = true → (disk.find key).isSome = true) ∧
      (next.locked = true → moved.locks ≠ 0 ∨ disk.locked = true ∧ job.locks = 0) := by
  cases job with
  | remove key force =>
      simp only [advance] at advanced
      split at advanced
      · cases advanced
      · rename_i unlocked
        split at advanced
        · cases advanced
          exact ⟨rfl, fun _ => id, fun locked => absurd locked unlocked⟩
        · cases advanced
          exact ⟨rfl, fun _ => id, fun _ => .inl one_ne_zero⟩
  | removing key entry value =>
      cases advanced
      refine ⟨rfl, fun other present => ?_, fun locked => absurd locked Bool.false_ne_true⟩
      by_cases same : other = key
      · subst same
        rw [Disk.find, AList.lookup_erase] at present
        cases present
      · rwa [Disk.find, AList.lookup_erase_ne same] at present
  | removed => cases advanced
  | queued _ | adding _ _ | writing _ | subtracting _ _ | dropping _ | publishing _ | unlisting _
  | saved _ | failed _ => cases removal

section Steps

variable {items good bad : List (LoadItem Key)} {start batch next : Batch Key}

/-- The other threads only take keys out of the index. -/
theorem Loading.others (loading : Loading items start batch good bad) {state : State Key}
    (shrinks : ∀ key, (state.disk.find key).isSome = true → (batch.disk.find key).isSome = true)
    (removals : ∀ job ∈ state.jobs, job.isRemoval = true)
    (holder : state.disk.locked = true →
      batch.phase.holds = true ∨ ∃ job ∈ state.jobs, job.locks ≠ 0) :
    Loading items start { batch with toState := state } good bad :=
  { loading with
    unpinned := fun key present => loading.unpinned key (shrinks key present)
    removals := removals
    holder := holder }

theorem Loading.remove (loading : Loading items start batch good bad) {key : Key} {force : Bool}
    (stepped : loadStep batch (.remove key force) = some next) :
    Loading items start next good bad := by
  obtain rfl := Option.some.inj stepped
  refine loading.others (fun _ => id) (fun job member => ?_) fun locked => ?_
  · rcases List.mem_append.mp member with old | new
    · exact loading.removals job old
    · rw [List.mem_singleton.mp new]
      rfl
  · refine (loading.holder locked).imp_right ?_
    rintro ⟨job, member, holds⟩
    exact ⟨job, List.mem_append_left _ member, holds⟩

theorem Loading.advance (loading : Loading items start batch good bad) {index : ℕ}
    (stepped : loadStep batch (.advance index) = some next) :
    Loading items start next good bad := by
  obtain ⟨state, advanced, rfl⟩ := Option.map_eq_some_iff.mp stepped
  obtain ⟨job, here, moves⟩ := Option.bind_eq_some_iff.mp advanced
  obtain ⟨⟨disk, moved⟩, made, rfl⟩ := Option.map_eq_some_iff.mp moves
  have member := List.mem_of_getElem? here
  obtain ⟨removal, shrinks, lock⟩ := advance_removal (loading.removals job member) made
  refine loading.others shrinks (fun other inside => ?_) fun locked => ?_
  · rcases List.mem_or_eq_of_mem_set inside with old | rfl
    · exact loading.removals other old
    · exact removal
  · rcases lock locked with holds | ⟨before, idle⟩
    · exact .inr ⟨moved, Runs.mem_set_self here moved, holds⟩
    · refine (loading.holder before).imp_right ?_
      rintro ⟨other, inside, holds⟩
      rcases Runs.eq_or_mem_set here moved inside with rfl | still
      · exact absurd idle holds
      · exact ⟨other, still, holds⟩

/-- The phases in which an item is checked or its file is removed change nothing that
the invariant counts. -/
theorem Loading.moves (loading : Loading items start batch good bad) {disk : Disk Key}
    {phase : Phase Key} {failed : Bool}
    (shrinks : ∀ key, (disk.find key).isSome = true → (batch.disk.find key).isSome = true)
    (fits : phase.Fits failed batch.rest) (running : failed = false → batch.failed = false)
    (stopped : failed = true → batch.failed = true ∨
      ∃ item later, batch.rest = item :: later ∧ item.loads = false)
    (ahead : { batch with disk := disk, phase := phase, failed := failed }.ahead = batch.ahead)
    (holder : disk.locked = true → phase.holds = true ∨ ∃ job ∈ batch.jobs, job.locks ≠ 0) :
    Loading items start { batch with disk := disk, phase := phase, failed := failed } good bad :=
  { loading with
    running := fun goesOn => loading.running (running goesOn)
    stopped := fun stops => by
      cases before : batch.failed with
      | true => exact loading.stopped before
      | false =>
          obtain ⟨item, later, same, fails⟩ := (stopped stops).resolve_left (by simp [before])
          exact ⟨item, later, by rw [loading.running before, same]; rfl, fails⟩
    fits := fits
    unpinned := fun key present => by
      rw [ahead]
      exact loading.unpinned key (shrinks key present)
    holder := holder }

variable {item : LoadItem Key} {later : List (LoadItem Key)}

/-- The next file is read, unless one has failed. -/
theorem Loading.reading (loading : Loading items start batch good bad)
    (left : batch.rest = item :: later) (phase : batch.phase = .reading)
    (stepped : batch.loadItem item later = some next) : Loading items start next good bad := by
  simp only [Batch.loadItem, phase, Option.some.injEq] at stepped
  subst stepped
  have moved {target : Phase Key} (fits : target.Fits batch.failed batch.rest)
      (nothing : { batch with phase := target }.ahead = batch.ahead) :
      Loading items start { batch with phase := target } good bad :=
    loading.moves (fun _ => id) fits id .inl nothing fun locked =>
      .inr ((loading.holder locked).resolve_left (by simp [phase, Phase.holds]))
  by_cases failed : batch.failed = true
  · rw [if_pos failed]
    exact moved ⟨failed, by simp [left]⟩ (by simp only [Batch.ahead, phase])
  · rw [if_neg failed]
    have running := Bool.eq_false_of_not_eq_true failed
    by_cases loads : item.loads = true
    · rw [if_pos loads]
      exact moved ⟨running, item, later, left, loads⟩ (by simp only [Batch.ahead, phase])
    · rw [if_neg loads]
      have fails := Bool.eq_false_of_not_eq_true loads
      exact moved ⟨running, item, later, left, fails⟩ (by simp only [Batch.ahead, phase])

/-- A failed read removes its own key. -/
theorem Loading.removing (loading : Loading items start batch good bad)
    (left : batch.rest = item :: later) (phase : batch.phase = .removing)
    (stepped : batch.loadItem item later = some next) : Loading items start next good bad := by
  have fits := loading.fits
  rw [phase] at fits
  obtain ⟨running, first, others, same, fails⟩ := fits
  simp only [Batch.loadItem, phase, LocalDisk.advance] at stepped
  split at stepped
  · cases stepped
  · rename_i unlocked
    split at stepped
    · cases stepped
      apply loading.moves (fun _ => id)
      · exact ⟨rfl, by simp [left]⟩
      · intro goesOn
        cases goesOn
      · exact fun _ => .inr ⟨first, others, same, fails⟩
      · simp only [Batch.ahead, phase]
      · exact fun locked => absurd locked unlocked
    · cases stepped
      refine loading.moves ?_ ?_ ?_ ?_ ?_ ?_
      · exact fun _ => id
      · exact ⟨running, first, others, same, fails⟩
      · exact id
      · exact .inl
      · simp only [Batch.ahead, phase]
      · exact fun _ => .inl rfl

theorem Loading.popping (loading : Loading items start batch good bad)
    {key : Key} {entry : DiskEntry} {value : ℤ} (phase : batch.phase = .popping key entry value)
    (stepped : batch.loadItem item later = some next) : Loading items start next good bad := by
  have fits := loading.fits
  rw [phase] at fits
  obtain ⟨running, first, others, same, fails⟩ := fits
  simp only [Batch.loadItem, phase] at stepped
  cases popped : LocalDisk.advance batch.disk false (.removing key entry value) with
  | none =>
      rw [popped] at stepped
      cases stepped
  | some moved =>
      rw [popped] at stepped
      cases stepped
      obtain ⟨-, shrinks, -⟩ := advance_removal rfl popped
      cases popped
      apply loading.moves shrinks
      · exact ⟨running, first, others, same, fails⟩
      · exact id
      · exact .inl
      · simp only [Batch.ahead, phase]
      · exact fun locked => nomatch locked

theorem Loading.unlinking (loading : Loading items start batch good bad)
    (left : batch.rest = item :: later) (phase : batch.phase = .unlinking)
    (finds : batch.finds = true) (stepped : batch.loadItem item later = some next) :
    Loading items start next good bad := by
  have fits := loading.fits
  rw [phase] at fits
  obtain ⟨running, first, others, same, fails⟩ := fits
  have moved : Loading items start { batch with phase := .dropping, failed := true } good bad := by
    apply loading.moves (fun _ => id)
    · exact ⟨rfl, by simp [left]⟩
    · exact fun goesOn => nomatch goesOn
    · exact fun _ => .inr ⟨first, others, same, fails⟩
    · simp only [Batch.ahead, phase]
    · exact fun locked =>
        .inr ((loading.holder locked).resolve_left (by simp [phase, Phase.holds]))
  simp only [Batch.finds, left, phase, Bool.or_eq_true, decide_eq_true_eq] at finds
  simp only [Batch.loadItem, phase] at stepped
  rcases finds with nothing | missing
  · rw [nothing] at stepped
    cases stepped
    exact moved
  · rw [missing] at stepped
    cases stepped
    exact moved

/-- Unpinning a key in the index counts it, and nothing else is counted. -/
theorem Loading.pins_unpinKey (loading : Loading items start batch good bad) (key other : Key) :
    (batch.unpinKey key).pinCount other =
      start.pinCount other - (batch.unpinKey key).unpinnedKeys.count other := by
  have before := loading.pins other
  simp only [Batch.unpinKey, Function.update_apply, List.count_append, List.count_singleton,
    beq_iff_eq]
  by_cases same : other = key
  · subst same
    rw [if_pos rfl, if_pos rfl, before]
    omega
  · rw [if_neg same, if_neg (Ne.symm same), before]
    omega

/-- The index entry of a failed item is unpinned if it is still there. -/
theorem Loading.dropping (loading : Loading items start batch good bad)
    (left : batch.rest = item :: later) (phase : batch.phase = .dropping)
    (stepped : batch.loadItem item later = some next) : Loading items start next good bad := by
  have fits := loading.fits
  rw [phase] at fits
  have before := loading.unpinned
  simp only [Batch.ahead, phase, List.count_nil, Nat.add_zero] at before
  simp only [Batch.loadItem, phase] at stepped
  split at stepped
  · cases stepped
  · rename_i unlocked
    split at stepped
    · obtain rfl := Option.some.inj stepped
      exact { loading with
        fits := fits
        pins := loading.pins_unpinKey item.key
        unpinned := fun key present => by
          have counted := before key present
          simp only [Batch.ahead, Batch.unpinKey, left, List.count_append, List.take_succ_cons,
            List.take_zero, List.map_cons, List.map_nil]
          omega
        holder := fun locked => absurd locked unlocked }
    · rename_i gone
      obtain rfl := Option.some.inj stepped
      exact { loading with
        fits := fits
        unpinned := fun key present => by
          have counted := before key present
          have other : item.key ≠ key := by
            rintro rfl
            simp [gone] at present
          simp only [Batch.ahead, left, List.take_succ_cons, List.take_zero, List.map_cons,
            List.map_nil, List.count_singleton, beq_iff_eq, if_neg other, Nat.add_zero]
          exact counted
        holder := fun locked => absurd locked unlocked }

/-- The memory object of a failed item is given back. -/
theorem Loading.releasing (loading : Loading items start batch good bad)
    (left : batch.rest = item :: later) (phase : batch.phase = .releasing)
    (stepped : batch.loadItem item later = some next) :
    Loading items start next good (bad ++ [item]) := by
  have fits := loading.fits
  rw [phase] at fits
  simp only [Batch.loadItem, phase] at stepped
  obtain rfl := Option.some.inj stepped
  have same : bad ++ [item] ++ later = bad ++ batch.rest := by rw [left, List.append_assoc]; rfl
  exact { loading with
    items := by
      rw [loading.items, List.append_assoc, List.append_assoc, ← same]
    running := fun goesOn => absurd fits.1 (by rw [goesOn]; exact Bool.false_ne_true)
    stopped := fun stops => by
      rw [same]
      exact loading.stopped stops
    fits := trivial
    unpinnedObjects := by
      rw [loading.unpinnedObjects, List.map_append]
      rfl
    releasedObjects := by
      rw [loading.releasedObjects, List.map_append]
      rfl
    unpinned := fun key present => by
      have counted := loading.unpinned key present
      simp only [Batch.ahead, phase, left, List.take_succ_cons, List.take_zero, List.map_cons,
        List.map_nil] at counted
      simp only [Batch.ahead, List.count_nil, Nat.add_zero, ← List.append_assoc, List.map_append,
        List.map_cons, List.map_nil, List.count_append]
      rw [List.map_append, List.count_append] at counted
      omega
    holder := fun locked =>
      .inr ((loading.holder locked).resolve_left (by simp [phase, Phase.holds])) }

/-- The first look at the index for a file that was read. -/
theorem Loading.recovering (loading : Loading items start batch good bad)
    (phase : batch.phase = .recovering) (present : (batch.disk.find item.key).isSome = true)
    (stepped : batch.loadItem item later = some next) : Loading items start next good bad := by
  have fits := loading.fits
  rw [phase] at fits
  obtain ⟨entry, found⟩ := Option.isSome_iff_exists.mp present
  simp only [Batch.loadItem, phase, found] at stepped
  obtain rfl := Option.some.inj stepped
  exact { loading with
    fits := fits
    unpinned := fun key here => by
      have counted := loading.unpinned key here
      simpa only [Batch.ahead, phase] using counted
    holder := fun locked =>
      .inr ((loading.holder locked).resolve_left (by simp [phase, Phase.holds])) }

theorem Loading.locking (loading : Loading items start batch good bad)
    (phase : batch.phase = .locking) (stepped : batch.loadItem item later = some next) :
    Loading items start next good bad := by
  have fits := loading.fits
  rw [phase] at fits
  simp only [Batch.loadItem, phase] at stepped
  split at stepped
  · cases stepped
  · obtain rfl := Option.some.inj stepped
    exact { loading with
      fits := fits
      unpinned := fun key here => by
        have counted := loading.unpinned key here
        simp only [Batch.ahead, phase] at counted ⊢
        exact counted
      holder := fun _ => .inl rfl }

/-- The second look, under the lock. -/
theorem Loading.unpinning (loading : Loading items start batch good bad)
    (left : batch.rest = item :: later) (phase : batch.phase = .unpinning)
    (present : (batch.disk.find item.key).isSome = true)
    (stepped : batch.loadItem item later = some next) : Loading items start next good bad := by
  have fits := loading.fits
  rw [phase] at fits
  obtain ⟨entry, found⟩ := Option.isSome_iff_exists.mp present
  simp only [Batch.loadItem, phase, found] at stepped
  obtain rfl := Option.some.inj stepped
  exact { loading with
    fits := fits
    pins := loading.pins_unpinKey item.key
    unpinned := fun key here => by
      have counted := loading.unpinned key here
      simp only [Batch.ahead, phase, List.count_nil, Nat.add_zero] at counted
      simp only [Batch.ahead, Batch.unpinKey, left, List.count_append, List.take_succ_cons,
        List.take_zero, List.map_cons, List.map_nil]
      omega
    holder := fun _ => .inl rfl }

/-- A file that was read is in the list of the results. -/
theorem Loading.unlocking (loading : Loading items start batch good bad)
    (left : batch.rest = item :: later) (phase : batch.phase = .unlocking)
    (stepped : batch.loadItem item later = some next) :
    Loading items start next (good ++ [item]) bad := by
  have fits := loading.fits
  rw [phase] at fits
  obtain ⟨running, first, others, same, loads⟩ := fits
  obtain ⟨rfl, rfl⟩ := List.cons.inj (left.symm.trans same)
  have nothing := loading.running running
  subst nothing
  simp only [Batch.loadItem, phase] at stepped
  obtain rfl := Option.some.inj stepped
  exact { loading with
    items := by
      have split := loading.items
      rw [left] at split
      rw [split]
      simp only [List.append_nil, List.append_assoc, List.singleton_append]
    loads := fun other member => by
      rcases List.mem_append.mp member with old | new
      · exact loading.loads other old
      · rw [List.mem_singleton.mp new]
        exact loads
    running := fun _ => rfl
    stopped := fun stops => absurd (running.symm.trans stops) Bool.false_ne_true
    fits := trivial
    loaded := by
      rw [loading.loaded, List.map_append]
      rfl
    unpinned := fun key here => by
      have counted := loading.unpinned key here
      simp only [Batch.ahead, phase, left, List.take_succ_cons, List.take_zero, List.map_cons,
        List.map_nil, List.append_nil] at counted
      simp only [Batch.ahead, Batch.setLock, List.count_nil, Nat.add_zero, List.append_nil,
        List.map_append, List.map_cons, List.map_nil, List.count_append]
      exact counted
    holder := fun locked => nomatch locked }

/-- **A step of the batch.** It keeps the invariant when the loop finds what it looks up. -/
theorem Loading.load (loading : Loading items start batch good bad) (finds : batch.finds = true)
    (stepped : batch.load = some next) : Underway items start next := by
  cases left : batch.rest with
  | nil =>
      rw [Batch.load, left] at stepped
      cases stepped
  | cons item later =>
      rw [Batch.load, left] at stepped
      cases phase : batch.phase with
      | reading => exact ⟨good, bad, loading.reading left phase stepped⟩
      | removing => exact ⟨good, bad, loading.removing left phase stepped⟩
      | popping key entry value => exact ⟨good, bad, loading.popping phase stepped⟩
      | unlinking => exact ⟨good, bad, loading.unlinking left phase finds stepped⟩
      | dropping => exact ⟨good, bad, loading.dropping left phase stepped⟩
      | releasing => exact ⟨good, bad ++ [item], loading.releasing left phase stepped⟩
      | recovering =>
          simp only [Batch.finds, left, phase] at finds
          exact ⟨good, bad, loading.recovering phase finds stepped⟩
      | locking => exact ⟨good, bad, loading.locking phase stepped⟩
      | unpinning =>
          simp only [Batch.finds, left, phase] at finds
          exact ⟨good, bad, loading.unpinning left phase finds stepped⟩
      | unlocking => exact ⟨good ++ [item], bad, loading.unlocking left phase stepped⟩
      | raised error =>
          have fits := loading.fits
          rw [phase] at fits
          exact fits.elim

theorem Loading.step {event : LoadEvent Key} (loading : Loading items start batch good bad)
    (finds : FindsKeys batch event) (stepped : loadStep batch event = some next) :
    Underway items start next := by
  cases event with
  | load => exact loading.load finds stepped
  | remove key force => exact ⟨good, bad, loading.remove stepped⟩
  | advance index => exact ⟨good, bad, loading.advance stepped⟩

theorem Batch.Starts.loading (starts : start.Starts items) : Loading items start start [] [] := by
  obtain ⟨loaded, unpinnedKeys, unpinnedObjects, releasedObjects⟩ := starts.logs
  exact {
    items := starts.rest.symm
    loads := fun item member => absurd member List.not_mem_nil
    running := fun _ => rfl
    stopped := fun stops => absurd (starts.failed.symm.trans stops) Bool.false_ne_true
    fits := by
      rw [starts.phase]
      trivial
    loaded := loaded
    unpinnedObjects := unpinnedObjects
    releasedObjects := releasedObjects
    pins := fun key => by
      rw [unpinnedKeys, List.count_nil]
      simp
    unpinned := fun key _ => by
      rw [unpinnedKeys, Batch.ahead, starts.phase]
      rfl
    removals := starts.removals
    holder := fun locked => .inr (starts.holder locked) }

/-! ### The loop goes on -/

/-- A phase of the same item with a lower rank. -/
theorem remaining_lt {before after : Batch Key} (lower : after.phase.rank < before.phase.rank)
    (same : after.rest = before.rest) : after.remaining < before.remaining := by
  unfold Batch.remaining
  rw [same]
  omega

/-- The next item. -/
theorem remaining_lt_of_rest {before after : Batch Key} (left : before.rest = item :: later)
    (same : after.rest = later) (first : after.phase = .reading) :
    after.remaining < before.remaining := by
  unfold Batch.remaining
  rw [left, same, first, List.length_cons, Phase.rank]
  omega

/-- A step of the batch leaves it less to do. -/
theorem remaining_load (stepped : batch.load = some next) : next.remaining < batch.remaining := by
  cases left : batch.rest with
  | nil =>
      rw [Batch.load, left] at stepped
      cases stepped
  | cons item later =>
      rw [Batch.load, left] at stepped
      cases phase : batch.phase with
      | reading =>
          simp only [Batch.loadItem, phase] at stepped
          obtain rfl := Option.some.inj stepped
          refine remaining_lt ?_ rfl
          dsimp only
          rw [phase]
          split
          · simp [Phase.rank]
          · split <;> simp [Phase.rank]
      | removing =>
          simp only [Batch.loadItem, phase] at stepped
          obtain ⟨moved, -, rfl⟩ := Option.map_eq_some_iff.mp stepped
          split
          · exact remaining_lt (by simp [phase, Phase.rank]) rfl
          · exact remaining_lt (by simp [phase, Phase.rank]) rfl
      | popping key entry value =>
          simp only [Batch.loadItem, phase] at stepped
          obtain ⟨moved, -, rfl⟩ := Option.map_eq_some_iff.mp stepped
          exact remaining_lt (by simp [phase, Phase.rank]) rfl
      | unlinking | recovering | unpinning =>
          simp only [Batch.loadItem, phase] at stepped
          split at stepped <;> obtain rfl := Option.some.inj stepped <;>
            exact remaining_lt (by simp [phase, Phase.rank]) rfl
      | dropping =>
          simp only [Batch.loadItem, phase] at stepped
          split at stepped
          · cases stepped
          · split at stepped <;> obtain rfl := Option.some.inj stepped <;>
              exact remaining_lt (by simp [phase, Phase.rank]) rfl
      | locking =>
          simp only [Batch.loadItem, phase] at stepped
          split at stepped
          · cases stepped
          · obtain rfl := Option.some.inj stepped
            exact remaining_lt (by simp [phase, Phase.rank]) rfl
      | releasing =>
          simp only [Batch.loadItem, phase] at stepped
          obtain rfl := Option.some.inj stepped
          exact remaining_lt_of_rest left rfl rfl
      | unlocking =>
          simp only [Batch.loadItem, phase] at stepped
          obtain rfl := Option.some.inj stepped
          exact remaining_lt_of_rest left rfl rfl
      | raised error =>
          simp only [Batch.loadItem, phase] at stepped
          cases stepped

/-- The batch can make a step unless it waits for the lock. -/
theorem exists_load (left : batch.rest ≠ []) (running : ∀ error, batch.phase ≠ .raised error)
    (free : batch.disk.locked = true → batch.phase.holds = true) :
    ∃ next, batch.load = some next := by
  obtain ⟨item, later, left⟩ := List.exists_cons_of_ne_nil left
  rw [Batch.load, left]
  dsimp only
  have unlocked (idle : batch.phase.holds = false) : ¬ batch.disk.locked = true :=
    fun locked => absurd (idle.symm.trans (free locked)) Bool.false_ne_true
  cases phase : batch.phase with
  | raised error => exact absurd phase (running error)
  | reading | popping _ _ _ | releasing | unlocking =>
      simp only [Batch.loadItem, phase]
      exact ⟨_, rfl⟩
  | removing =>
      simp only [Batch.loadItem, phase, LocalDisk.advance,
        if_neg (unlocked (by rw [phase]; rfl))]
      split <;> exact ⟨_, rfl⟩
  | locking =>
      simp only [Batch.loadItem, phase, if_neg (unlocked (by rw [phase]; rfl))]
      exact ⟨_, rfl⟩
  | dropping =>
      simp only [Batch.loadItem, phase, if_neg (unlocked (by rw [phase]; rfl))]
      split <;> exact ⟨_, rfl⟩
  | unlinking | recovering | unpinning =>
      simp only [Batch.loadItem, phase]
      split <;> exact ⟨_, rfl⟩

/-- The batch goes on, or a removal that holds the lock does. -/
theorem Loading.goesOn (loading : Loading items start batch good bad) (left : batch.rest ≠ []) :
    (∃ next, loadStep batch .load = some next ∧ next.remaining < batch.remaining) ∨
      ∃ index next, loadStep batch (.advance index) = some next := by
  have running : ∀ error, batch.phase ≠ .raised error := by
    intro error phase
    have fits := loading.fits
    rw [phase] at fits
    exact fits
  by_cases free : batch.disk.locked = true → batch.phase.holds = true
  · obtain ⟨next, stepped⟩ := exists_load left running free
    exact .inl ⟨next, stepped, remaining_load stepped⟩
  · obtain ⟨locked, idle⟩ := Classical.not_imp.mp free
    obtain ⟨job, member, holds⟩ := (loading.holder locked).resolve_left idle
    obtain ⟨index, here⟩ := List.mem_iff_getElem?.mp member
    refine .inr ⟨index, ?_⟩
    cases job with
    | removing key entry value =>
        simp only [loadStep, LocalDisk.step, here, Option.bind_some, LocalDisk.advance,
          Option.map_some]
        exact ⟨_, rfl⟩
    | remove _ _ | removed | queued _ | adding _ _ | writing _ | subtracting _ _ | dropping _
    | publishing _ | unlisting _ | saved _ | failed _ => exact absurd rfl holds

/-- What the call returns. -/
theorem Loading.returned (loading : Loading items start batch good bad) (finished : batch.rest = []) :
    items.takeWhile LoadItem.loads = good ∧ items.dropWhile LoadItem.loads = bad := by
  have split := loading.items
  rw [finished, List.append_nil] at split
  rw [split, List.takeWhile_append_of_pos loading.loads, List.dropWhile_append_of_pos loading.loads]
  cases failed : batch.failed with
  | false =>
      rw [loading.running failed]
      exact ⟨List.append_nil good, rfl⟩
  | true =>
      obtain ⟨first, later, same, fails⟩ := loading.stopped failed
      rw [finished, List.append_nil] at same
      have stops : ¬ first.loads = true := by simp [fails]
      rw [same, List.takeWhile_cons_of_neg stops, List.dropWhile_cons_of_neg stops]
      exact ⟨List.append_nil good, rfl⟩

/-- **Batched loads.** In a run in which the loop finds the keys that it looks up, the
call raises nothing, goes on, and returns the longest prefix of files that were read
with everything else given back once. -/
theorem loadsPrefix_of_reaches (starts : start.Starts items)
    (reached : Runs.Reaches loadStep FindsKeys start batch) : LoadsPrefix items start batch := by
  have underway : Underway items start batch :=
    reached.invariant ⟨[], [], starts.loading⟩ fun _ _ _ ⟨_, _, before⟩ finds stepped =>
      before.step finds stepped
  obtain ⟨good, bad, loading⟩ := underway
  refine ⟨fun error phase => ?_, loading.goesOn, fun finished => ?_, fun finished => ?_,
    fun finished key present => ?_⟩
  · have fits := loading.fits
    rw [phase] at fits
    exact fits
  · rw [(loading.returned finished).1]
    exact loading.loaded
  · rw [(loading.returned finished).2]
    exact ⟨loading.unpinnedObjects, loading.releasedObjects⟩
  · have counted := loading.unpinned key present
    have split := loading.items
    have nothing : batch.ahead = [] := by
      unfold Batch.ahead
      rw [finished]
      split <;> rfl
    rw [finished, List.append_nil] at split
    rw [nothing, List.count_nil, Nat.add_zero, ← split] at counted
    exact ⟨counted, by rw [loading.pins key, counted]⟩

end Steps

/-! ### Runs of one batch -/

/-- A file of one byte that is there when it is read, under key 0. -/
def oneByteItem (memObj : ℕ) (file : Option (List Byte)) : LoadItem ℕ where
  key := 0
  memObj := memObj
  byteArray := [0]
  file := file
  reads := ⟨none, id, fun _ => le_rfl⟩
  unlinking := none

/-- A batch over an index with the key 0, which is pinned once for each item. -/
def oneKeyBatch (items : List (LoadItem ℕ)) : Batch ℕ where
  disk := ⟨AList.singleton 0 pagePut.entry, 1, 4096, [], [], false⟩
  jobs := []
  pinCount := fun _ => items.length
  cachedPositions := fun _ => none
  objectPositions := fun _ => none
  rest := items
  phase := .reading
  failed := false
  loaded := []
  unpinnedKeys := []
  unpinnedObjects := []
  releasedObjects := []

theorem oneKeyBatch_starts (items : List (LoadItem ℕ)) : (oneKeyBatch items).Starts items :=
  ⟨rfl, rfl, rfl, ⟨rfl, rfl, rfl, rfl⟩, fun _ member => absurd member List.not_mem_nil,
    fun locked => nomatch locked⟩

/-- The second of two files is missing. -/
theorem loadsPrefix_of_reaches_twoItems : ∃ batch : Batch ℕ,
    (batch.rest = [] ∧ batch.loaded = [7] ∧ batch.releasedObjects = [8]) ∧
      LoadsPrefix [oneByteItem 7 (some [1]), oneByteItem 8 none]
        (oneKeyBatch [oneByteItem 7 (some [1]), oneByteItem 8 none]) batch := by
  have done : (Runs.execute loadStep FindsKeys (List.replicate 11 .load)
      (oneKeyBatch [oneByteItem 7 (some [1]), oneByteItem 8 none])).map (fun batch =>
        (batch.rest.length, batch.loaded, batch.releasedObjects)) = some (0, [7], [8]) := by
    decide
  obtain ⟨batch, executed, results⟩ := Option.map_eq_some_iff.mp done
  simp only [Prod.mk.injEq, List.length_eq_zero_iff] at results
  exact ⟨batch, results, loadsPrefix_of_reaches (oneKeyBatch_starts _)
    (Runs.reaches_of_execute .refl executed)⟩

omit [DecidableEq Key] in
theorem Phase.raised_of_rank {phase : Phase Key} (last : phase.rank = 0) :
    ∃ error, phase = .raised error := by
  cases phase with
  | raised error => exact ⟨error, rfl⟩
  | reading | removing | popping _ _ _ | unlinking | dropping | releasing | recovering | locking
  | unpinning | unlocking => simp [Phase.rank] at last

/-- A run of one item to an exception. -/
theorem raises_of_events {locked : Bool} {events : List (LoadEvent ℕ)}
    (done : (Runs.execute loadStep (fun _ _ => True) events
      (oneKeyBatch [oneByteItem 7 (some [1])])).map (fun batch =>
        (batch.phase.rank, batch.disk.locked)) = some (0, locked)) :
    ∃ batch : Batch ℕ, Runs.Reaches loadStep (fun _ _ => True)
        (oneKeyBatch [oneByteItem 7 (some [1])]) batch ∧ batch.disk.locked = locked ∧
      ¬ LoadsPrefix [oneByteItem 7 (some [1])] (oneKeyBatch [oneByteItem 7 (some [1])]) batch := by
  obtain ⟨batch, executed, results⟩ := Option.map_eq_some_iff.mp done
  obtain ⟨last, lock⟩ := Prod.mk.inj results
  refine ⟨batch, Runs.reaches_of_execute .refl executed, lock, fun loads => ?_⟩
  obtain ⟨error, raised⟩ := Phase.raised_of_rank last
  exact loads.raises error raised

/-- A removal behind the read makes the call raise, before the lock is taken or with
the lock, which then stays. -/
theorem not_loadsPrefix_removed :
    (∃ batch : Batch ℕ, Runs.Reaches loadStep (fun _ _ => True)
        (oneKeyBatch [oneByteItem 7 (some [1])]) batch ∧ batch.disk.locked = false ∧
      ¬ LoadsPrefix [oneByteItem 7 (some [1])] (oneKeyBatch [oneByteItem 7 (some [1])]) batch) ∧
    ∃ batch : Batch ℕ, Runs.Reaches loadStep (fun _ _ => True)
        (oneKeyBatch [oneByteItem 7 (some [1])]) batch ∧ batch.disk.locked = true ∧
      ¬ LoadsPrefix [oneByteItem 7 (some [1])] (oneKeyBatch [oneByteItem 7 (some [1])]) batch := by
  constructor
  · exact @raises_of_events _ [.load, .remove 0 true, .advance 0, .advance 0, .load] (by decide)
  · exact @raises_of_events _
      [.load, .load, .remove 0 true, .advance 0, .advance 0, .load, .load] (by decide)

end LMCacheHcu.LocalDisk
