import LMCacheHcu.Foundation.Runs
import LMCacheHcu.Xds.Transitions

/-! # The size counter

`current_cache_size` ought to be the size of all entries and of all reservations
of puts in flight. Every operation moves it together with the index or with a
reservation, but four of the places that end or take a reservation do not look
whether the key has an entry, or whether the counter has changed meanwhile.
-/

namespace LMCacheHcu.Xds

open Storage

variable {Key Payload : Type} [DecidableEq Key]

/-- What a put in flight has reserved. -/
def Job.reservation : Job Key Payload → ℤ
  | .trackPut _ size | .savePut _ size | .saveSidecar _ size | .publishPut _ size _ _
  | .undoPut _ size | .directTrack _ size | .directSave _ size | .directPublish _ size _
  | .directRollback _ size => size
  | .unlink _ next => next.reservation
  | _ => 0

/-- The counter is what the entries and the reservations add up to. -/
def Accounted (state : State Key Payload) : Prop :=
  state.shared.currentCacheSize =
    state.shared.totalSize + (state.jobs.map Job.reservation).sum

instance (state : State Key Payload) : Decidable (Accounted state) :=
  inferInstanceAs (Decidable (_ = _))

/-- An unlocked `+=` finds the counter as it read it; a put that publishes its
entry or gives up finds no entry of its key. -/
def Job.keepsAccount (shared : Shared Key Payload) (choice : Choice Key) :
    Job Key Payload → Bool
  | .addPut _ _ value => decide (shared.currentCacheSize = value)
  | .publishPut put _ _ _ => decide (choice = .fail) || (shared.find put.key).isNone
  | .directPublish key _ _ => decide (choice = .fail) || (shared.find key).isNone
  | .undoPut key _ => (shared.find key).isNone
  | _ => true

/-- The condition on a step, and on the state before it. -/
def KeepsAccount (state : State Key Payload) : Event Key → Prop
  | .submit _ => True
  | .advance index choice =>
      (state.jobs[index]?).all fun job => job.keepsAccount state.shared choice

instance (state : State Key Payload) (event : Event Key) : Decidable (KeepsAccount state event) :=
  match event with
  | .submit _ => .isTrue trivial
  | .advance _ _ => inferInstanceAs (Decidable (_ = true))

/-! ### The counter against the index -/

namespace Shared

variable {shared : Shared Key Payload}

/-- What the counter has beyond the sizes of the entries. -/
def surplus (shared : Shared Key Payload) : ℤ := shared.currentCacheSize - shared.totalSize

theorem surplus_charge (size : ℤ) : (shared.charge size).surplus = shared.surplus + size := by
  simp only [surplus, charge, totalSize]
  ring

theorem surplus_discard (key : Key) :
    (shared.discard key).surplus = shared.surplus + shared.entrySize key := by
  simp only [surplus, discard, totalSize, entrySize]
  cases found : shared.find key with
  | none =>
      rw [Ledger.erase_of_notMem _ (AList.lookup_eq_none.mp found)]
      simp
  | some entry =>
      rw [Ledger.total_erase _ _ found]
      simp only [Option.map_some, Option.getD_some]
      ring

theorem surplus_popCredit (key : Key) : (shared.popCredit key).surplus = shared.surplus := by
  rw [popCredit, surplus_charge, surplus_discard]
  ring

theorem surplus_index (key : Key) (info : EntryInfo Key) :
    (shared.index key info).surplus = shared.surplus + shared.entrySize key - info.size := by
  simp only [surplus, index, totalSize, entrySize]
  cases found : shared.find key with
  | none =>
      rw [Ledger.total_insert_of_notMem _ _ _ (AList.lookup_eq_none.mp found)]
      simp only [Option.map_none, Option.getD_none]
      ring
  | some entry =>
      rw [Ledger.total_insert _ _ _ found]
      simp only [Option.map_some, Option.getD_some]
      ring

theorem entrySize_of_absent {key : Key} (absent : shared.find key = none) :
    shared.entrySize key = 0 := by
  rw [entrySize, absent]
  rfl

theorem surplus_replace (key : Key) (info : EntryInfo Key) :
    (((shared.charge (-shared.entrySize key)).index key info).charge info.size).surplus =
      shared.surplus := by
  have size : (shared.charge (-shared.entrySize key)).entrySize key = shared.entrySize key := rfl
  rw [surplus_charge, surplus_index, surplus_charge, size]
  ring

theorem surplus_indexLegacy (key : Key) (info : EntryInfo Key) :
    (shared.indexLegacy key info).surplus = shared.surplus := by
  unfold indexLegacy
  split
  · rfl
  · exact surplus_replace key info

theorem surplus_addPins (key : Key) (count : ℤ) :
    (shared.addPins key count).surplus = shared.surplus := by
  unfold addPins
  split
  · rfl
  · rename_i entry found
    simp only [surplus, totalSize]
    rw [Ledger.total_insert _ _ _ found]
    ring

/-- Eviction takes entries off the index and the counter, and reserves the room
when it has made enough. -/
theorem surplus_evictLoop {maxXdsSize requiredSize : ℤ} {candidates : List Key}
    {next : Shared Key Payload} {before paths : List (DataPath Key)} {success : Bool}
    (evicted : evictLoop maxXdsSize requiredSize candidates shared before =
      some (next, paths, success)) :
    next.surplus = shared.surplus + if success then requiredSize else 0 := by
  induction candidates generalizing shared before with
  | nil =>
      simp only [evictLoop] at evicted
      split at evicted <;> cases evicted
      · exact surplus_charge requiredSize
      · exact (add_zero _).symm
  | cons candidate candidates ih =>
      simp only [evictLoop] at evicted
      split at evicted
      · cases evicted
        exact surplus_charge requiredSize
      split at evicted
      · cases evicted
      split at evicted
      · have popped : ((shared.popCredit candidate).untrack candidate).surplus = shared.surplus :=
          surplus_popCredit candidate
        rw [ih evicted, popped]
      · cases evicted

end Shared

/-! ### Reservations are the sizes of the entries -/

/-- What a put has reserved is the size of the entry that it will publish. -/
def Job.Sized (config : Config Key Payload) : Job Key Payload → Prop
  | .addPut put size _ | .trackPut put size | .savePut put size | .saveSidecar put size =>
      config.requiredStoreSize put = .ok size
  | .publishPut put size path diskMetadata =>
      (config.newEntry put size path diskMetadata).size = size
  | .directTrack _ size | .directSave _ size =>
      ∃ diskMetadata, config.backend.makeDirectBlockFirstMetadata = .ok diskMetadata ∧
        size = blockFirstHeaderSize + diskMetadata.ioNbytes
  | .directPublish _ size info => info.size = size
  | .unlink _ next => next.Sized config
  | _ => True

variable {config : Config Key Payload} {shared next : Shared Key Payload} {choice : Choice Key}
  {job after : Job Key Payload}

omit [DecidableEq Key] in
/-- The header and the aligned payload of a block-first chunk are what
`_required_store_size` reserves for it. -/
theorem saveData_size {put : StagedPut Key} {size : ℤ} {file : DataFile Payload}
    {diskMetadata : BlockFirstDiskMetadata} (required : config.requiredStoreSize put = .ok size)
    (saved : config.saveData put = .ok (file, some diskMetadata)) :
    blockFirstHeaderSize + diskMetadata.ioNbytes = size := by
  simp only [Config.saveData, Config.requiredStoreSize, Checked.bind_ok] at saved required
  obtain ⟨blockFirst, used, saved⟩ := saved
  obtain ⟨_, used', required⟩ := required
  obtain rfl := Except.ok.inj (used.symm.trans used')
  split at saved
  · rename_i useBlockFirst
    rw [if_pos useBlockFirst] at required
    simp only [Checked.bind_ok, Checked.return_ok, Checked.mapError_ok, Prod.mk.injEq,
      Option.some.injEq] at saved required
    obtain ⟨made, created, _, rfl⟩ := saved
    obtain ⟨aligned, computed, rfl⟩ := required
    have metadata := createdFor_of_create (Checked.mapError_ok.mp created)
    have ioNbytes := metadata.ioNbytes
    have nbytes : (config.chunk put.key).nbytes = made.payloadNbytes := by
      rw [metadata.payloadNbytes, Chunk.nbytes, Nat.cast_list_prod]
      rfl
    rw [← nbytes, computed] at ioNbytes
    rw [Except.ok.inj ioNbytes]
  · have none := congrArg Prod.snd (Checked.return_ok.mp saved)
    cases none

omit [DecidableEq Key] in
theorem blockFirstEntry_size {path : DataPath Key} {diskMetadata : BlockFirstDiskMetadata}
    {info : EntryInfo Key} (made : blockFirstEntry path diskMetadata = .ok info) :
    info.size = blockFirstHeaderSize + diskMetadata.ioNbytes := by
  simp only [blockFirstEntry, Checked.bind_ok, Checked.return_ok] at made
  obtain ⟨_, _, rfl⟩ := made
  rfl

theorem Transition.sized (moved : Transition config shared choice job next after)
    (sized : job.Sized config) : after.Sized config := by
  cases moved with
  | putUnlimited put size required => exact required
  | putEvicted put size _ _ _ required => exact required
  | putAdded | putTracked | saveLegacy => exact sized
  | saveBlockFirst put size file diskMetadata _ saved => exact saveData_size sized saved
  | sidecarSaved => rfl
  | directUnlimited key diskMetadata made => exact ⟨diskMetadata, made, rfl⟩
  | directEvicted key diskMetadata _ _ _ made => exact ⟨diskMetadata, made, rfl⟩
  | directTracked => exact sized
  | directSaved key size diskMetadata info _ made named =>
      obtain ⟨other, made', rfl⟩ := sized
      obtain rfl := Except.ok.inj (made.symm.trans made')
      exact blockFirstEntry_size named
  | unlinkedAll | unlinkFailed | unlinked => exact sized
  | _ => trivial

/-! ### One step -/

theorem surplus_advanceItem {item moved : LoadItem Key Payload} {outcome : ReadOutcome}
    (advanced : advanceItem config shared item outcome = some (next, moved)) :
    next.surplus = shared.surplus := by
  unfold advanceItem at advanced
  split at advanced
  · split at advanced <;> cases advanced <;> rfl
  · cases advanced
    rfl
  · split at advanced <;> cases advanced <;> rfl
  · cases advanced
    exact Shared.surplus_popCredit item.key
  · cases advanced

theorem surplus_evicts {requiredSize : ℤ} {paths : List (DataPath Key)} {success : Bool}
    {candidates : List Key}
    (evicts : Evicts config shared choice requiredSize next paths success candidates) :
    next.surplus = shared.surplus + if success then requiredSize else 0 := by
  obtain ⟨_, loop⟩ := evicts.loop
  exact Shared.surplus_evictLoop loop

/-- A step that meets the condition moves the counter by what it moves the index
and the reservation of its job. -/
theorem Transition.surplus_reservation (moved : Transition config shared choice job next after)
    (sized : job.Sized config) (keeps : job.keepsAccount shared choice = true) :
    next.surplus - after.reservation = shared.surplus - job.reservation := by
  cases moved with
  | putEvicted put size next paths candidates _ evicts =>
      rw [surplus_evicts evicts]
      simp only [if_true, Job.reservation]
      ring
  | putRefused put size next paths candidates evicts =>
      rw [surplus_evicts evicts]
      simp only [Bool.false_eq_true, if_false, Job.reservation]
      ring
  | putAdded put size value =>
      have current : shared.currentCacheSize = value := of_decide_eq_true keeps
      simp only [Shared.surplus, Shared.totalSize, Job.reservation, current]
      ring
  | published put size path diskMetadata proceeds =>
      have absent : shared.find put.key = none := by
        simpa [Job.keepsAccount, proceeds] using keeps
      have entry : (config.newEntry put size path diskMetadata).size = size := sized
      rw [Shared.insertKey, absent]
      simp only [Option.isSome_none, Bool.false_eq_true, if_false, Job.reservation,
        Shared.surplus_index, Shared.entrySize_of_absent absent, entry]
      ring
  | putUndone key size =>
      have absent : shared.find key = none := by simpa [Job.keepsAccount] using keeps
      simp only [Job.reservation, Shared.surplus_charge, Shared.surplus_discard,
        Shared.entrySize_of_absent absent]
      ring
  | directRemoved key entry found =>
      have popped : ((shared.popCredit key).untrack key).surplus = shared.surplus :=
        Shared.surplus_popCredit key
      rw [popped]
      rfl
  | directUnlimited key diskMetadata made =>
      simp only [Job.reservation, Shared.surplus_charge]
      ring
  | directEvicted key diskMetadata next paths candidates _ evicts =>
      rw [surplus_evicts evicts]
      simp only [if_true, Job.reservation]
      ring
  | directRefused key size next paths candidates evicts =>
      rw [surplus_evicts evicts]
      simp only [Bool.false_eq_true, if_false, Job.reservation]
      ring
  | directPublished key size info proceeds =>
      have absent : shared.find key = none := by
        simpa [Job.keepsAccount, proceeds] using keeps
      have entry : info.size = size := sized
      simp only [Job.reservation, Shared.surplus_index, Shared.entrySize_of_absent absent, entry]
      ring
  | directRolledBack key size =>
      simp only [Job.reservation, Shared.surplus_charge]
      ring
  | removed key entry found =>
      have popped : ((shared.popCredit key).untrack key).surplus = shared.surplus :=
        Shared.surplus_popCredit key
      rw [popped]
      rfl
  | indexedBlockFirst key info =>
      rw [Shared.indexBlockFirst, Shared.surplus_replace]
      rfl
  | indexedLegacy key info =>
      rw [Shared.surplus_indexLegacy]
      rfl
  | unlinked file pending rest proceeds => cases file <;> rfl
  | loadAdvanced keys items index outcome item next moved _ _ advanced =>
      rw [surplus_advanceItem advanced]
      rfl
  | pinned key =>
      rw [Shared.pin, Shared.surplus_addPins]
      rfl
  | unpinned key =>
      rw [Shared.unpin, Shared.surplus_addPins]
      rfl
  | _ => rfl

/-! ### Whole runs -/

/-- The invariant of careful runs. -/
structure Balanced (config : Config Key Payload) (state : State Key Payload) : Prop where
  accounted : Accounted state
  sized : ∀ job ∈ state.jobs, job.Sized config

theorem Balanced.step {state next : State Key Payload} {event : Event Key}
    (balanced : Balanced config state) (keeps : KeepsAccount state event)
    (stepped : step config state event = some next) : Balanced config next := by
  obtain ⟨accounted, sized⟩ := balanced
  rcases step_cases stepped with ⟨operation, rfl, _, rfl⟩ |
    ⟨index, choice, job, moved, rfl, here, transition, jobs⟩
  · have idle : (operation.start : Job Key Payload).reservation = 0 ∧
        (operation.start : Job Key Payload).Sized config := by
      cases operation <;> exact ⟨rfl, trivial⟩
    refine ⟨?_, fun job member => ?_⟩
    · rw [Accounted, List.map_append, List.sum_append, List.map_singleton, List.sum_singleton,
        idle.1, add_zero]
      exact accounted
    · rcases List.mem_append.mp member with old | new
      · exact sized job old
      · rw [List.mem_singleton.mp new]
        exact idle.2
  · have jobSized := sized job (List.mem_of_getElem? here)
    have jobKeeps : job.keepsAccount state.shared choice = true := by
      rw [KeepsAccount, here] at keeps
      exact keeps
    have change := transition.surplus_reservation jobSized jobKeeps
    have sum := Runs.sum_map_set Job.reservation here moved
    refine ⟨?_, fun other member => ?_⟩
    · rw [← jobs] at sum
      simp only [Accounted, Shared.surplus] at accounted change ⊢
      omega
    · rw [jobs] at member
      rcases List.mem_or_eq_of_mem_set member with old | new
      · exact sized other old
      · rw [new]
        exact transition.sized jobSized

theorem balanced_initial (dataFiles : DataPath Key → Option (DataFile Payload))
    (sidecars : DataPath Key → Option Sidecar) :
    Balanced config (initial dataFiles sidecars) :=
  ⟨rfl, fun _ member => by cases member⟩

/-- A backend without block-first files. -/
def plainBackend : XdsBackend where
  metadata :=
    { identity := ⟨"model", 1, 0, 1, 1⟩
      blockSize := 1
      chunkSize := 1
      getShapes := fun tokens => [[2, 1, tokens, 1]]
      getDtypes := [.uint8] }
  directEnabled := false
  dstDevice := ⟨.cuda, none⟩
  signature := LayoutFields.dtype
  codec := .failing "no header"
  driver := .complete

/-- POSIX mode without a size limit. The payload of a key is the key. -/
def plainConfig : Config ℕ ℕ where
  backend := plainBackend
  blockFirstEnabled := false
  xdsBuffer := false
  maxXdsSize := none
  chunk := fun key => ⟨[2, 1, 1, 1], .uint8, key⟩

/-- A new backend with no files. -/
def emptyState : State ℕ ℕ := initial (fun _ => none) fun _ => none

/-- A put of key 0 from its start to its end, as the job with this index. -/
def putEvents (index : ℕ) : List (Event ℕ) :=
  .submit (.submitPutTask ⟨0, 4096⟩) :: List.replicate 11 (.advance index .proceed)

end LMCacheHcu.Xds
