import LMCacheHcu.Xds.Accounting

/-! # Pinned entries

A pin is a count in the entry object, and several operations put a new object in
the place of an entry. A key stays safe from eviction as long as no operation
does so for a key with more pins than unpins; an operation that does forgets the
pins at once.
-/

namespace LMCacheHcu.Xds

open Storage

variable {Key Payload : Type} [DecidableEq Key]

/-! ### Pinning in one locked region -/

namespace Shared

variable (shared : Shared Key Payload)

/-- `contains(key, pin=True)`. -/
def contains (key : Key) : Shared Key Payload × Bool := (shared.pin key, (shared.find key).isSome)

/-- `batched_async_contains(keys, pin=True)`: pin the hits before the first miss,
and count them. -/
def batchedAsyncContains : List Key → Shared Key Payload → Shared Key Payload × ℕ
  | [], shared => (shared, 0)
  | key :: keys, shared =>
      if (shared.contains key).2 then
        let rest := batchedAsyncContains keys (shared.contains key).1
        (rest.1, rest.2 + 1)
      else (shared, 0)

end Shared

/-! ### The ledger of pins -/

/-- A state of the machine, and for every key the number of its pins less the
number of its unpins so far. -/
structure PinnedState (Key Payload : Type) [DecidableEq Key] where
  state : State Key Payload
  pins : Key → ℤ

/-- What a step counts for a key. The pin of an absent key answers `False`. -/
def Job.countsPins (shared : Shared Key Payload) (key : Key) : Job Key Payload → ℤ
  | .pinKey pinned => if pinned = key ∧ (shared.find key).isSome then 1 else 0
  | .unpinKey unpinned => if unpinned = key then -1 else 0
  | _ => 0

def countPins (state : State Key Payload) (key : Key) : Event Key → ℤ
  | .submit _ => 0
  | .advance index _ => ((state.jobs[index]?).map (Job.countsPins state.shared key)).getD 0

/-- A step of the machine, with the ledger. -/
def stepPins (config : Config Key Payload) (pinned : PinnedState Key Payload)
    (event : Event Key) : Option (PinnedState Key Payload) :=
  (step config pinned.state event).map fun next =>
    ⟨next, fun key => pinned.pins key + countPins pinned.state key event⟩

def initialPins (dataFiles : DataPath Key → Option (DataFile Payload))
    (sidecars : DataPath Key → Option Sidecar) : PinnedState Key Payload :=
  ⟨initial dataFiles sidecars, fun _ => 0⟩

/-- **The property.** An entry whose key has more pins than unpins is not
evictable. -/
def NonEvictable (pinned : PinnedState Key Payload) : Prop :=
  ∀ key entry, pinned.state.shared.find key = some entry → 0 < pinned.pins key →
    entry.canEvict = false

/-- No entry object is put in for a key with more pins than unpins. -/
def Job.keepsPins (config : Config Key Payload) (shared : Shared Key Payload) (pins : Key → ℤ)
    (choice : Choice Key) (job : Job Key Payload) : Bool :=
  !job.inserts shared choice || (job.publishes config).all fun published =>
    decide (pins published.1 ≤ 0)

/-- The condition on a step, and on the state before it. -/
def KeepsPins (config : Config Key Payload) (pinned : PinnedState Key Payload) : Event Key → Prop
  | .submit _ => True
  | .advance index choice => (pinned.state.jobs[index]?).all fun job =>
      job.keepsPins config pinned.state.shared pinned.pins choice

instance (config : Config Key Payload) (pinned : PinnedState Key Payload) (event : Event Key) :
    Decidable (KeepsPins config pinned event) :=
  match event with
  | .submit _ => .isTrue trivial
  | .advance _ _ => inferInstanceAs (Decidable (_ = true))

variable {config : Config Key Payload} {pinned next : PinnedState Key Payload}
  {event : Event Key}

/-! ### Careful runs -/

/-- Every entry carries at least the pins of the ledger. -/
def CarriesPins (pinned : PinnedState Key Payload) : Prop :=
  ∀ key entry, pinned.state.shared.find key = some entry → pinned.pins key ≤ entry.pinCount

theorem CarriesPins.nonEvictable (carries : CarriesPins pinned) : NonEvictable pinned := by
  intro key entry found held
  exact decide_eq_false (not_le.mpr (held.trans_le (carries key entry found)))

/-- What the ledger counts for a key that is in the index, its entry gets. -/
theorem countsPins_of_find {shared : Shared Key Payload} {job : Job Key Payload} {key : Key}
    {entry : Entry Key} (found : shared.find key = some entry) :
    job.countsPins shared key = job.pins key := by
  cases job <;> simp [Job.countsPins, Job.pins, found]

theorem countsPins_of_publishes {shared : Shared Key Payload}
    {job : Job Key Payload} {key : Key} {published : Key × EntryInfo Key}
    (publishes : job.publishes config = some published) : job.countsPins shared key = 0 := by
  unfold Job.publishes at publishes
  split at publishes <;> first | rfl | cases publishes

theorem stepPins_some (stepped : stepPins config pinned event = some next) :
    step config pinned.state event = some next.state ∧
      ∀ key, next.pins key = pinned.pins key + countPins pinned.state key event := by
  obtain ⟨state, moved, rfl⟩ := Option.map_eq_some_iff.mp stepped
  exact ⟨moved, fun _ => rfl⟩

theorem countPins_advance {state : State Key Payload} {index : ℕ} {choice : Choice Key}
    {job : Job Key Payload} (here : state.jobs[index]? = some job) (key : Key) :
    countPins state key (.advance index choice) = job.countsPins state.shared key := by
  rw [countPins, here]
  rfl

theorem CarriesPins.step (carries : CarriesPins pinned) (keeps : KeepsPins config pinned event)
    (stepped : stepPins config pinned event = some next) : CarriesPins next := by
  obtain ⟨moved, ledger⟩ := stepPins_some stepped
  intro key entry found
  rw [ledger]
  rcases step_cases moved with ⟨operation, rfl, _, started⟩ |
    ⟨index, choice, job, after, rfl, here, transition, _⟩
  · rw [started] at found
    rw [countPins, add_zero]
    exact carries key entry found
  · rw [countPins_advance here]
    rcases transition.entryOrigin found with ⟨before, earlier, rfl⟩ |
      ⟨info, publishes, inserts, rfl⟩
    · rw [countsPins_of_find earlier]
      exact add_le_add_left (carries key before earlier) _
    · rw [countsPins_of_publishes publishes, add_zero]
      rw [KeepsPins, here] at keeps
      simpa [Job.keepsPins, inserts, publishes] using keeps

theorem carriesPins_initial (dataFiles : DataPath Key → Option (DataFile Payload))
    (sidecars : DataPath Key → Option Sidecar) :
    CarriesPins (initialPins dataFiles sidecars) :=
  fun _ _ found => by cases found

/-- **Pinned keys stay in careful runs.** Whatever the operations interleaved, as
long as each step meets the condition. -/
theorem nonEvictable_of_reaches {dataFiles : DataPath Key → Option (DataFile Payload)}
    {sidecars : DataPath Key → Option Sidecar}
    (reached : Runs.Reaches (stepPins config) (KeepsPins config) (initialPins dataFiles sidecars)
      pinned) : NonEvictable pinned :=
  (reached.invariant (carriesPins_initial dataFiles sidecars)
    fun _ _ _ carries keeps stepped => carries.step keeps stepped).nonEvictable

/-- A step that does not meet the condition makes a pinned entry evictable. -/
theorem not_nonEvictable_of_insert (careless : ¬ KeepsPins config pinned event)
    (stepped : stepPins config pinned event = some next) : ¬ NonEvictable next := by
  obtain ⟨moved, ledger⟩ := stepPins_some stepped
  rcases step_cases moved with ⟨operation, rfl, _, _⟩ |
    ⟨index, choice, job, after, rfl, here, transition, _⟩
  · exact absurd trivial careless
  · have inserts : job.inserts pinned.state.shared choice = true ∧ ∃ key info,
        job.publishes config = some (key, info) ∧ 0 < pinned.pins key := by
      simpa [KeepsPins, here, Job.keepsPins, Option.all_eq_false] using careless
    obtain ⟨inserts, key, info, publishes, held⟩ := inserts
    intro safe
    have fresh := transition.inserted publishes inserts
    have evictable := safe key _ fresh (by
      rw [ledger, countPins_advance here, countsPins_of_publishes publishes, add_zero]
      exact held)
    cases evictable

/-! ### Batches of pins are runs of pins -/

/-- Pin one key, as an operation of its own. -/
theorem reaches_pin (config : Config Key Payload) (pinned : PinnedState Key Payload) (key : Key) :
    ∃ final, Runs.Reaches (stepPins config) (KeepsPins config) pinned final ∧
      final.state.shared = pinned.state.shared.pin key ∧
      ∀ other, final.pins other = pinned.pins other +
        if key = other ∧ (pinned.state.shared.find other).isSome then 1 else 0 := by
  have here : (pinned.state.jobs ++ [Job.pinKey key])[pinned.state.jobs.length]? =
      some (Job.pinKey key) := by simp
  refine ⟨⟨⟨pinned.state.shared.pin key, (pinned.state.jobs ++ [Job.pinKey key]).set
    pinned.state.jobs.length .done⟩, _⟩, ?_, rfl, fun _ => rfl⟩
  have submitted : stepPins config pinned (.submit (.pin key)) =
      some ⟨⟨pinned.state.shared, pinned.state.jobs ++ [.pinKey key]⟩, pinned.pins⟩ := by
    simp [stepPins, step, Operation.admissible, Operation.start, countPins]
  have started : Runs.Reaches (stepPins config) (KeepsPins config) pinned
      ⟨⟨pinned.state.shared, pinned.state.jobs ++ [.pinKey key]⟩, pinned.pins⟩ :=
    Runs.Reaches.refl.tail (show KeepsPins config pinned (.submit (.pin key)) from trivial) submitted
  have met : KeepsPins config ⟨⟨pinned.state.shared, pinned.state.jobs ++ [.pinKey key]⟩,
      pinned.pins⟩ (.advance pinned.state.jobs.length .proceed) := by
    rw [KeepsPins, here]
    rfl
  apply started.tail met
  simp [stepPins, step, advance, countPins, Job.countsPins]

/-- **A batch pins its hits one after the other.** -/
theorem reaches_batchedAsyncContains (keys : List Key) (pinned : PinnedState Key Payload) :
    ∃ final, Runs.Reaches (stepPins config) (KeepsPins config) pinned final ∧
      final.state.shared = (Shared.batchedAsyncContains keys pinned.state.shared).1 ∧
      ∀ key, final.pins key = pinned.pins key +
        (keys.take (Shared.batchedAsyncContains keys pinned.state.shared).2).count key := by
  induction keys generalizing pinned with
  | nil => exact ⟨pinned, .refl, rfl, fun _ => (add_zero _).symm⟩
  | cons key keys ih =>
      by_cases hit : (pinned.state.shared.find key).isSome = true
      · obtain ⟨middle, first, same, ledger⟩ := reaches_pin config pinned key
        obtain ⟨final, rest, shared, total⟩ := ih middle
        rw [same] at shared total
        refine ⟨final, first.trans rest, ?_, fun other => ?_⟩
        · simpa [Shared.batchedAsyncContains, Shared.contains, hit] using shared
        · rw [total, ledger]
          by_cases this : key = other
          · subst this
            simp [Shared.batchedAsyncContains, Shared.contains, hit]
            ring
          · simp [Shared.batchedAsyncContains, Shared.contains, hit, this]
      · exact ⟨pinned, .refl, by simp [Shared.batchedAsyncContains, Shared.contains, hit],
          by simp [Shared.batchedAsyncContains, Shared.contains, hit]⟩

/-! ### A pinned key, and a scan that finds its sidecar -/

/-- Key 0 is put and pinned once. -/
def pinEvents : List (Event ℕ) :=
  putEvents 0 ++ [.submit (.pin 0), .advance 1 .proceed]

/-- A new backend with no files. -/
def emptyPins : PinnedState ℕ ℕ := initialPins (fun _ => none) fun _ => none

theorem nonEvictable_of_reaches_pin :
    ∃ pinned, Runs.execute (stepPins plainConfig) (KeepsPins plainConfig) pinEvents emptyPins =
      some pinned ∧ 0 < pinned.pins 0 ∧ (pinned.state.shared.find 0).isSome = true ∧
        NonEvictable pinned := by
  have done : (Runs.execute (stepPins plainConfig) (KeepsPins plainConfig) pinEvents
      emptyPins).map (fun pinned => (pinned.pins 0, (pinned.state.shared.find 0).isSome)) =
      some (1, true) := by decide
  obtain ⟨pinned, executed, facts⟩ := Option.map_eq_some_iff.mp done
  obtain ⟨once, visible⟩ := Prod.mk.inj facts
  exact ⟨pinned, executed, by rw [once]; decide, visible,
    nonEvictable_of_reaches (Runs.reaches_of_execute .refl executed)⟩

/-- The scan of the sidecar puts a new entry in, and the pin is lost. -/
theorem nonEvictable_fails_scan :
    ∃ pinned, Runs.Reaches (stepPins plainConfig) (fun _ _ => True) emptyPins pinned ∧
      ¬ NonEvictable pinned := by
  have done : (Runs.execute (stepPins plainConfig) (fun _ _ => True)
      (pinEvents ++ [.submit (.readMetadata 0), .advance 2 .proceed, .advance 2 .proceed])
      emptyPins).map (fun pinned => (pinned.pins 0,
        (pinned.state.shared.find 0).map Entry.canEvict)) = some (1, some true) := by decide
  obtain ⟨pinned, executed, facts⟩ := Option.map_eq_some_iff.mp done
  obtain ⟨once, evictable⟩ := Prod.mk.inj facts
  obtain ⟨entry, found, evictable⟩ := Option.map_eq_some_iff.mp evictable
  refine ⟨pinned, Runs.reaches_of_execute .refl executed, fun safe => ?_⟩
  rw [safe 0 entry found (by rw [once]; decide)] at evictable
  cases evictable

end LMCacheHcu.Xds
