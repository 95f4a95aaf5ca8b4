import LMCacheHcu.Xds.Accounting

/-! # The cache policy and the index

The policy picks its candidates among the keys that it tracks. It is told of a
put before the save and of an eviction with the pop, but not of every entry that
comes or goes: the scan adds entries, and failed saves and failed loads pop
them, without a word to the policy.
-/

namespace LMCacheHcu.Xds

open Storage

variable {Key Payload : Type} [DecidableEq Key]

/-! ### Hits -/

/-- A state of the machine, the hits that callers have yet to report for entries
they have looked up, and the untracked keys for which a hit was reported. -/
structure PolicyState (Key Payload : Type) [DecidableEq Key] where
  state : State Key Payload
  pending : List Key
  missed : List Key

/-- `get_blocking`, `batched_direct_get` and the lookups of a request look an
entry up first; `update_on_hit` comes later, in `touch_cache` for a request. -/
inductive PolicyEvent (Key : Type)
  | operation (event : Event Key)
  | lookup (key : Key)
  | hit (index : ℕ)

/-- The keys that a locked region reports a hit for. -/
def Job.hits (shared : Shared Key Payload) (choice : Choice Key) : Job Key Payload → List Key
  | .publishPut put _ _ _ =>
      if choice ≠ .fail ∧ (shared.find put.key).isSome then [put.key] else []
  | .captureLoads keys => keys.filter fun key => (shared.find key).isSome
  | _ => []

/-- The keys that a put will report a hit for, after its lookup. -/
def Job.lateHits (shared : Shared Key Payload) : Job Key Payload → List Key
  | .lookupPut ⟨key, _⟩ | .directPut key =>
      if (shared.find key).any fun existing => existing.diskMetadata.isSome then [key] else []
  | _ => []

def lockedHits (state : State Key Payload) : Event Key → List Key
  | .submit _ => []
  | .advance index choice => ((state.jobs[index]?).map (Job.hits state.shared choice)).getD []

def lateHits (state : State Key Payload) : Event Key → List Key
  | .submit _ => []
  | .advance index _ => ((state.jobs[index]?).map (Job.lateHits state.shared)).getD []

/-- A step of the machine, a lookup, or a call of `update_on_hit`. -/
def policyStep (config : Config Key Payload) (policy : PolicyState Key Payload) :
    PolicyEvent Key → Option (PolicyState Key Payload)
  | .operation event => (step config policy.state event).map fun next =>
      { state := next
        pending := policy.pending ++ lateHits policy.state event
        missed := policy.missed ++
          (lockedHits policy.state event).filter fun key => key ∉ policy.state.shared.tracked }
  | .lookup key =>
      some { policy with
        pending := policy.pending ++ if (policy.state.shared.find key).isSome then [key] else [] }
  | .hit index => (policy.pending[index]?).map fun key =>
      { policy with
        pending := policy.pending.eraseIdx index
        missed := policy.missed ++ if key ∈ policy.state.shared.tracked then [] else [key] }

def initialPolicy (dataFiles : DataPath Key → Option (DataFile Payload))
    (sidecars : DataPath Key → Option Sidecar) : PolicyState Key Payload :=
  ⟨initial dataFiles sidecars, [], []⟩

/-! ### The property and the condition -/

/-- The key of a put that the policy has been told of and that has not ended. -/
def Job.flight : Job Key Payload → Option Key
  | .savePut put _ | .saveSidecar put _ | .publishPut put _ _ _ => some put.key
  | .undoPut key _ | .directSave key _ | .directPublish key _ _ | .directRollback key _
  | .directUntrack key => some key
  | .unlink _ next => next.flight
  | _ => none

/-- **The policy agrees with the index.** Without a put in flight it tracks a key
exactly when the key has an entry; every entry can become a candidate at any
time; and no hit was reported for an untracked key. -/
structure PolicyAgrees (policy : PolicyState Key Payload) : Prop where
  settled : ∀ key, (∀ job ∈ policy.state.jobs, job.flight ≠ some key) →
    (key ∈ policy.state.shared.tracked ↔ (policy.state.shared.find key).isSome)
  candidates : ∀ key entry, policy.state.shared.find key = some entry →
    key ∈ policy.state.shared.tracked
  hits : policy.missed = []

/-- An entry is added only for a tracked key; a failed save and a failed load
find nothing to pop, or the key untracked; a failed direct put untracks a key
without an entry. -/
def Job.notifies (shared : Shared Key Payload) (choice : Choice Key) : Job Key Payload → Bool
  | .publishPut put _ _ _ => decide (choice = .fail) || decide (put.key ∈ shared.tracked)
  | .directPublish key _ _ => decide (choice = .fail) || decide (key ∈ shared.tracked)
  | .undoPut key _ => decide (key ∉ shared.tracked)
  | .directUntrack key => (shared.find key).isNone
  | .indexBlockFirst key _ | .indexLegacy key _ => decide (key ∈ shared.tracked)
  | .loading _ items =>
      match choice with
      | .item index _ => (items[index]?).all fun item =>
          match item.stage with
          | .failing _ => (shared.find item.key).isNone
          | _ => true
      | _ => true
  | _ => true

/-- The condition on a step, and on the state before it. -/
def KeepsPolicy (policy : PolicyState Key Payload) : PolicyEvent Key → Prop
  | .operation (.submit _) => True
  | .operation (.advance index choice) =>
      (policy.state.jobs[index]?).all fun job => job.notifies policy.state.shared choice
  | .lookup _ => True
  | .hit index => (policy.pending[index]?).all fun key => (policy.state.shared.find key).isSome

instance (policy : PolicyState Key Payload) (event : PolicyEvent Key) :
    Decidable (KeepsPolicy policy event) :=
  match event with
  | .operation (.submit _) => .isTrue trivial
  | .operation (.advance _ _) => inferInstanceAs (Decidable (_ = true))
  | .lookup _ => .isTrue trivial
  | .hit _ => inferInstanceAs (Decidable (_ = true))

variable {config : Config Key Payload} {shared next : Shared Key Payload} {choice : Choice Key}
  {job after : Job Key Payload}

/-! ### What a step does to the tracked keys -/

/-- Every entry has a tracked key. -/
def ResidentsTracked (shared : Shared Key Payload) : Prop :=
  ∀ key, (shared.find key).isSome → key ∈ shared.tracked

/-- A tracked key without an entry after a step has a put in flight, which the
step's job carries on, or had none with the job and no entry before. -/
def TracksFlights (shared : Shared Key Payload) (job : Job Key Payload)
    (next : Shared Key Payload) (after : Job Key Payload) : Prop :=
  ∀ key ∈ next.tracked, (next.find key).isSome ∨ after.flight = some key ∨
    (key ∈ shared.tracked ∧ shared.find key = none ∧ job.flight ≠ some key)

/-- A step that leaves the keys of the index and the tracked keys alone. -/
theorem policy_of_same (index : ∀ key, (next.find key).isSome = (shared.find key).isSome)
    (tracked : next.tracked = shared.tracked)
    (flight : ∀ key, job.flight = some key → after.flight = some key) :
    (ResidentsTracked shared → ResidentsTracked next) ∧ TracksFlights shared job next after := by
  constructor
  · intro residents key found
    rw [index] at found
    rw [tracked]
    exact residents key found
  · intro key member
    rw [tracked] at member
    rw [index]
    by_cases resident : (shared.find key).isSome = true
    · exact .inl resident
    · by_cases flying : job.flight = some key
      · exact .inr (.inl (flight key flying))
      · exact .inr (.inr ⟨member, by simpa using resident, flying⟩)

/-- A step that changes one key, and after which this key has an entry exactly
when it is tracked. -/
theorem policy_of_key (key : Key) (settled : (next.find key).isSome ↔ key ∈ next.tracked)
    (others : ∀ other, other ≠ key → next.find other = shared.find other ∧
      (other ∈ next.tracked ↔ other ∈ shared.tracked))
    (flight : ∀ other, job.flight = some other → other = key) :
    (ResidentsTracked shared → ResidentsTracked next) ∧ TracksFlights shared job next after := by
  constructor
  · intro residents other found
    by_cases same : other = key
    · subst same
      exact settled.mp found
    · obtain ⟨index, tracked⟩ := others other same
      rw [index] at found
      exact tracked.mpr (residents other found)
  · intro other member
    by_cases same : other = key
    · subst same
      exact .inl (settled.mpr member)
    · obtain ⟨index, tracked⟩ := others other same
      rw [index]
      by_cases resident : (shared.find other).isSome = true
      · exact .inl resident
      · exact .inr (.inr ⟨tracked.mp member, by simpa using resident,
          fun flying => same (flight other flying)⟩)

/-- A step that adds an entry of a tracked key. -/
theorem policy_of_index (shared : Shared Key Payload) {key : Key} {info : EntryInfo Key} (tracked : key ∈ shared.tracked)
    (flight : ∀ other, job.flight = some other → other = key) :
    (ResidentsTracked shared → ResidentsTracked (shared.index key info)) ∧
      TracksFlights shared job (shared.index key info) after := by
  refine policy_of_key key ?_ ?_ flight
  · rw [Shared.find_index, if_pos rfl]
    exact iff_of_true rfl tracked
  · intro other differ
    rw [Shared.find_index, if_neg differ]
    exact ⟨rfl, Iff.rfl⟩

namespace Shared

@[simp] theorem mem_tracked_track (key other : Key) :
    other ∈ (shared.track key).tracked ↔ other = key ∨ other ∈ shared.tracked :=
  Finset.mem_insert

@[simp] theorem mem_tracked_untrack (key other : Key) :
    other ∈ (shared.untrack key).tracked ↔ other ≠ key ∧ other ∈ shared.tracked :=
  Finset.mem_erase

@[simp] theorem tracked_popCredit (key : Key) : (shared.popCredit key).tracked = shared.tracked :=
  rfl

/-- Popping a key with a word to the policy. -/
theorem find_popUntrack (key other : Key) :
    ((shared.popCredit key).untrack key).find other =
      if other = key then none else shared.find other :=
  find_popCredit key other

theorem isSome_find_addPins (key : Key) (count : ℤ) (other : Key) :
    ((shared.addPins key count).find other).isSome = (shared.find other).isSome := by
  rw [find_addPins, Option.isSome_map]

theorem tracked_addPins (key : Key) (count : ℤ) :
    (shared.addPins key count).tracked = shared.tracked := by
  unfold addPins
  split <;> rfl

/-- Eviction pops and untracks the same keys. -/
theorem evictLoop_tracked {maxXdsSize requiredSize : ℤ} {candidates : List Key}
    {before paths : List (DataPath Key)} {success : Bool}
    (evicted : evictLoop maxXdsSize requiredSize candidates shared before =
      some (next, paths, success)) :
    (∀ key ∈ next.tracked, key ∈ shared.tracked ∧ next.find key = shared.find key) ∧
      ∀ key, (next.find key).isSome → next.find key = shared.find key ∧
        (key ∈ shared.tracked → key ∈ next.tracked) := by
  induction candidates generalizing shared before with
  | nil =>
      simp only [evictLoop] at evicted
      split at evicted <;> cases evicted
      · exact ⟨fun _ member => ⟨member, rfl⟩, fun _ _ => ⟨rfl, id⟩⟩
      · exact ⟨fun _ member => ⟨member, rfl⟩, fun _ _ => ⟨rfl, id⟩⟩
  | cons candidate candidates ih =>
      simp only [evictLoop] at evicted
      split at evicted
      · cases evicted
        exact ⟨fun _ member => ⟨member, rfl⟩, fun _ _ => ⟨rfl, id⟩⟩
      split at evicted
      · cases evicted
      split at evicted
      · obtain ⟨tracked, resident⟩ := ih evicted
        constructor
        · intro key member
          obtain ⟨before, same⟩ := tracked key member
          obtain ⟨other, before⟩ := (mem_tracked_untrack ..).mp before
          rw [find_popUntrack, if_neg other] at same
          exact ⟨before, same⟩
        · intro key found
          obtain ⟨same, kept⟩ := resident key found
          rw [same, find_popUntrack] at found
          have other : key ≠ candidate := by
            rintro rfl
            rw [if_pos rfl] at found
            cases found
          rw [find_popUntrack, if_neg other] at same
          exact ⟨same, fun member => kept ((mem_tracked_untrack ..).mpr ⟨other, member⟩)⟩
      · cases evicted

end Shared

/-- Eviction, for the policy. -/
theorem policy_of_evicts {requiredSize : ℤ} {paths : List (DataPath Key)} {success : Bool}
    {candidates : List Key}
    (evicts : Evicts config shared choice requiredSize next paths success candidates)
    (idle : job.flight = none) :
    (ResidentsTracked shared → ResidentsTracked next) ∧ TracksFlights shared job next after := by
  obtain ⟨_, loop⟩ := evicts.loop
  obtain ⟨tracked, resident⟩ := Shared.evictLoop_tracked loop
  constructor
  · intro all key found
    obtain ⟨same, kept⟩ := resident key found
    exact kept (all key (same ▸ found))
  · intro key member
    obtain ⟨before, same⟩ := tracked key member
    rw [same]
    by_cases present : (shared.find key).isSome = true
    · exact .inl present
    · exact .inr (.inr ⟨before, by simpa using present, by rw [idle]; simp⟩)

/-- Telling the policy of a put. -/
theorem policy_of_track {key : Key} (idle : job.flight = none) (flies : after.flight = some key) :
    (ResidentsTracked shared → ResidentsTracked (shared.track key)) ∧
      TracksFlights shared job (shared.track key) after := by
  constructor
  · intro residents other found
    exact (Shared.mem_tracked_track ..).mpr (.inr (residents other found))
  · intro other member
    by_cases same : other = key
    · exact .inr (.inl (same ▸ flies))
    · have before := ((Shared.mem_tracked_track ..).mp member).resolve_left same
      by_cases resident : (shared.find other).isSome = true
      · exact .inl resident
      · exact .inr (.inr ⟨before, by simpa using resident, by rw [idle]; simp⟩)

/-- Popping an entry with a word to the policy. -/
theorem policy_of_popUntrack {key : Key} (idle : job.flight = none) :
    (ResidentsTracked shared → ResidentsTracked ((shared.popCredit key).untrack key)) ∧
      TracksFlights shared job ((shared.popCredit key).untrack key) after := by
  refine policy_of_key key ?_ ?_ (by rw [idle]; simp)
  · rw [Shared.find_popUntrack, if_pos rfl, Shared.mem_tracked_untrack]
    simp
  · intro other differ
    rw [Shared.find_popUntrack, if_neg differ, Shared.mem_tracked_untrack]
    exact ⟨rfl, and_iff_right differ⟩

/-- A load that finds no entry to pop changes neither the index nor the policy. -/
theorem same_of_advanceItem {item moved : LoadItem Key Payload} {outcome : ReadOutcome}
    (advanced : advanceItem config shared item outcome = some (next, moved))
    (absent : ∀ entry, item.stage = .failing entry → shared.find item.key = none) :
    (∀ key, next.find key = shared.find key) ∧ next.tracked = shared.tracked := by
  unfold advanceItem at advanced
  split at advanced
  · split at advanced <;> cases advanced <;> exact ⟨fun _ => rfl, rfl⟩
  · cases advanced
    exact ⟨fun _ => rfl, rfl⟩
  · split at advanced <;> cases advanced <;> exact ⟨fun _ => rfl, rfl⟩
  · rename_i entry object captured failing _ _
    cases advanced
    refine ⟨fun key => ?_, rfl⟩
    change (shared.popCredit item.key).find key = shared.find key
    rw [Shared.find_popCredit]
    split
    · rename_i same
      rw [same, absent entry failing]
    · rfl
  · cases advanced

/-- **What one step does.** Cases on the ways in which a job can go on. -/
theorem Transition.policy (moved : Transition config shared choice job next after)
    (notifies : job.notifies shared choice = true) :
    (ResidentsTracked shared → ResidentsTracked next) ∧ TracksFlights shared job next after := by
  cases moved with
  | putEvicted _ _ _ _ _ _ evicts | putRefused _ _ _ _ _ evicts
  | directEvicted _ _ _ _ _ _ evicts | directRefused _ _ _ _ _ evicts =>
      exact policy_of_evicts evicts rfl
  | putTracked | directTracked => exact policy_of_track rfl rfl
  | published put size path diskMetadata proceeds =>
      have tracked : put.key ∈ shared.tracked := by
        simpa [Job.notifies, proceeds] using notifies
      have flight : ∀ other, some put.key = some other → other = put.key :=
        fun other same => (Option.some.inj same).symm
      unfold Shared.insertKey
      split
      · rename_i resident
        exact policy_of_key put.key (iff_of_true resident tracked)
          (fun _ _ => ⟨rfl, Iff.rfl⟩) flight
      · exact policy_of_index shared tracked flight
  | putUndone key size =>
      have untracked : key ∉ shared.tracked := of_decide_eq_true notifies
      refine policy_of_key key ?_ ?_ fun other same => (Option.some.inj same).symm
      · rw [Shared.find_charge, Shared.find_discard, if_pos rfl]
        exact iff_of_false (by simp) untracked
      · intro other differ
        rw [Shared.find_charge, Shared.find_discard, if_neg differ]
        exact ⟨rfl, Iff.rfl⟩
  | directPublished key size info proceeds =>
      have tracked : key ∈ shared.tracked := by simpa [Job.notifies, proceeds] using notifies
      exact policy_of_index shared tracked fun other same => (Option.some.inj same).symm
  | directUntracked key =>
      have absent : shared.find key = none := Option.isNone_iff_eq_none.mp notifies
      refine policy_of_key key ?_ ?_ fun other same => (Option.some.inj same).symm
      · rw [Shared.mem_tracked_untrack]
        simp [show (shared.untrack key).find key = none from absent]
      · intro other differ
        exact ⟨rfl, (Shared.mem_tracked_untrack ..).trans (and_iff_right differ)⟩
  | directRemoved | removed => exact policy_of_popUntrack rfl
  | indexedBlockFirst key info =>
      have tracked : key ∈ shared.tracked := of_decide_eq_true notifies
      exact policy_of_index (shared.charge (-shared.entrySize key)) tracked
        fun _ flying => nomatch flying
  | indexedLegacy key info =>
      have tracked : key ∈ shared.tracked := of_decide_eq_true notifies
      unfold Shared.indexLegacy
      split
      · exact policy_of_same (fun _ => rfl) rfl fun _ flying => flying
      · exact policy_of_index (shared.charge (-shared.entrySize key)) tracked
          fun _ flying => nomatch flying
  | loadAdvanced keys items index outcome item next moved chosen here advanced =>
      obtain ⟨same, tracked⟩ := same_of_advanceItem advanced fun entry failing => by
        simpa [Job.notifies, chosen, here, failing] using notifies
      exact policy_of_same (fun key => by rw [same]) tracked fun _ flying => flying
  | unlinked file => cases file <;> exact policy_of_same (fun _ => rfl) rfl fun _ flying => flying
  | pinned key | unpinned key =>
      exact policy_of_same (fun other => Shared.isSome_find_addPins ..) (Shared.tracked_addPins ..)
        fun _ flying => flying
  | _ => exact policy_of_same (fun _ => rfl) rfl fun _ flying => flying

/-! ### Whole runs -/

/-- The invariant of careful runs. -/
structure PolicyKept (policy : PolicyState Key Payload) : Prop where
  residents : ResidentsTracked policy.state.shared
  flights : ∀ key ∈ policy.state.shared.tracked, (policy.state.shared.find key).isSome ∨
    ∃ job ∈ policy.state.jobs, job.flight = some key
  hits : policy.missed = []

theorem PolicyKept.agrees {policy : PolicyState Key Payload} (kept : PolicyKept policy) :
    PolicyAgrees policy where
  settled := fun key grounded => ⟨fun tracked => (kept.flights key tracked).resolve_right
    fun ⟨job, member, flying⟩ => grounded job member flying, kept.residents key⟩
  candidates := fun key entry found => kept.residents key (by rw [found]; rfl)
  hits := kept.hits

/-- The keys of the hits of a step have entries. -/
theorem find_of_mem_lockedHits {state : State Key Payload} {event : Event Key} {key : Key}
    (member : key ∈ lockedHits state event) : (state.shared.find key).isSome := by
  cases event with
  | submit => cases member
  | advance index choice =>
      cases here : state.jobs[index]? with
      | none =>
          rw [lockedHits, here] at member
          cases member
      | some job =>
          rw [lockedHits, here] at member
          change key ∈ job.hits state.shared choice at member
          unfold Job.hits at member
          split at member
          · split at member
            · rename_i resident
              rw [List.mem_singleton.mp member]
              exact resident.2
            · cases member
          · exact (List.mem_filter.mp member).2
          · cases member

theorem PolicyKept.step {policy next : PolicyState Key Payload} {event : PolicyEvent Key}
    (kept : PolicyKept policy) (keeps : KeepsPolicy policy event)
    (stepped : policyStep config policy event = some next) : PolicyKept next := by
  obtain ⟨residents, flights, noMiss⟩ := kept
  cases event with
  | lookup key =>
      cases stepped
      exact ⟨residents, flights, noMiss⟩
  | hit index =>
      obtain ⟨key, here, rfl⟩ := Option.map_eq_some_iff.mp stepped
      have resident : (policy.state.shared.find key).isSome = true := by
        simpa [KeepsPolicy, here] using keeps
      refine ⟨residents, flights, ?_⟩
      simp [noMiss, residents key resident]
  | operation event =>
      obtain ⟨state, moved, rfl⟩ := Option.map_eq_some_iff.mp stepped
      have quiet : (lockedHits policy.state event).filter
          (fun key => key ∉ policy.state.shared.tracked) = [] := by
        rw [List.filter_eq_nil_iff]
        intro key member
        simpa using residents key (find_of_mem_lockedHits member)
      rcases step_cases moved with ⟨operation, rfl, _, rfl⟩ |
        ⟨index, choice, job, after, rfl, here, transition, jobs⟩
      · refine ⟨residents, fun key tracked => ?_, by simp only [noMiss, quiet, List.append_nil]⟩
        refine (flights key tracked).imp_right fun ⟨job, member, flying⟩ => ?_
        exact ⟨job, List.mem_append_left _ member, flying⟩
      · have notifies : job.notifies policy.state.shared choice = true := by
          simpa [KeepsPolicy, here] using keeps
        obtain ⟨keepsResidents, tracks⟩ := transition.policy notifies
        refine ⟨keepsResidents residents, fun key tracked => ?_,
          by simp only [noMiss, quiet, List.append_nil]⟩
        rcases tracks key tracked with present | flying | ⟨before, absent, other⟩
        · exact .inl present
        · refine .inr ⟨after, ?_, flying⟩
          rw [jobs]
          exact List.mem_set (List.getElem?_eq_some_iff.mp here).1 after
        · right
          obtain ⟨pilot, member, flying⟩ := (flights key before).resolve_left (by simp [absent])
          obtain ⟨place, there⟩ := List.getElem?_of_mem member
          have differ : index ≠ place := by
            rintro rfl
            rw [here, Option.some.injEq] at there
            exact other (there ▸ flying)
          refine ⟨pilot, ?_, flying⟩
          rw [jobs]
          exact List.mem_of_getElem? ((List.getElem?_set_ne differ).trans there)

theorem policyKept_initial (dataFiles : DataPath Key → Option (DataFile Payload))
    (sidecars : DataPath Key → Option Sidecar) :
    PolicyKept (initialPolicy dataFiles sidecars) where
  residents := fun key found => by cases found
  flights := fun key tracked => absurd tracked (Finset.notMem_empty key)
  hits := rfl

/-- The two files of a legacy chunk of key 0. -/
def legacyData (path : DataPath ℕ) : Option (DataFile ℕ) :=
  if path = keyToPath 0 false then some ⟨none, 4096, plainConfig.chunk 0⟩ else none

def legacySidecars (path : DataPath ℕ) : Option Sidecar :=
  if path = keyToPath 0 false then some (.valid [2, 1, 1, 1] .uint8 4096) else none

end LMCacheHcu.Xds
