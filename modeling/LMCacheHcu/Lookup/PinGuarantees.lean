import LMCacheHcu.Foundation.Runs
import LMCacheHcu.Lookup.PinnedLookups
import LMCacheHcu.Lookup.XdsLookups

/-! # Pins are returned

A ledger beside the engine counts, for each lookup id, the pins that backends
have taken for it and those that were returned when it was unpinned, both as
changes of the backends' own counts. Between lookups and unpins the backends
change in other ways: keys come and unpinned keys go.
-/

namespace LMCacheHcu.Lookup

open LMCacheHcu.Prefetch

variable {LookupId Name Key Obj State Change : Type} [DecidableEq LookupId] [DecidableEq Name]
  [DecidableEq Key] {events : EventManager LookupId (Future Key Obj)}

/-- A state of the engine with its ledger, and the ids that were to be unpinned
since their last lookup. -/
structure LedgerState (Name State : Type) (events : EventManager LookupId (Future Key Obj)) where
  state : PinState Name State events
  taken : LookupId → Name → Key → ℤ
  released : LookupId → Name → Key → ℤ
  unpinned : LookupId → Bool

inductive PinEvent (LookupId Name Key Change : Type)
  | lookup (call : LookupCall LookupId Name Key)
  | lookupUnpin (lookupId : LookupId)
  | waitForSave (requests : List LookupId)
  | change (name : Name) (change : Change)

namespace LookupEngine

variable (engine : LookupEngine Name Key State Change) (kvRole : KvRole)

/-- A lookup, with the pins that the backends took. -/
def ledgerLookup (call : LookupCall LookupId Name Key) (ledger : LedgerState Name State events) :
    LedgerState Name State events :=
  let next := (engine.lookup call ledger.state).1
  { ledger with
    state := next
    taken := Function.update ledger.taken call.lookupId fun name key =>
      ledger.taken call.lookupId name key +
        (engine.storageManager.pinCount next.storage name key -
          engine.storageManager.pinCount ledger.state.storage name key)
    unpinned := Function.update ledger.unpinned call.lookupId false }

/-- An unpin, with the pins that the backends gave up. -/
def ledgerUnpin (lookupId : LookupId) (ledger : LedgerState Name State events) :
    LedgerState Name State events :=
  let next := engine.lookupUnpin lookupId ledger.state
  { ledger with
    state := next
    released := Function.update ledger.released lookupId fun name key =>
      ledger.released lookupId name key +
        (engine.storageManager.pinCount ledger.state.storage name key -
          engine.storageManager.pinCount next.storage name key)
    unpinned := Function.update ledger.unpinned lookupId true }

/-- The save step of the connector is where its requests are to be unpinned,
whatever its role. -/
def ledgerSave (requests : List LookupId) (ledger : LedgerState Name State events) :
    LedgerState Name State events :=
  if kvRole = .kvConsumer then
    { ledger with
      unpinned := fun lookupId => ledger.unpinned lookupId || decide (lookupId ∈ requests) }
  else requests.foldl (fun ledger lookupId => engine.ledgerUnpin lookupId ledger) ledger

/-- One step of the engine. -/
def stepPins (ledger : LedgerState Name State events) :
    PinEvent LookupId Name Key Change → Option (LedgerState Name State events)
  | .lookup call => some (engine.ledgerLookup call ledger)
  | .lookupUnpin lookupId => some (engine.ledgerUnpin lookupId ledger)
  | .waitForSave requests => some (engine.ledgerSave kvRole requests ledger)
  | .change name change =>
      some { ledger with
        state := { ledger.state with
          storage := Function.update ledger.state.storage name
            ((engine.storageManager.backend name).change change (ledger.state.storage name)) } }

/-- A new engine. -/
def initialLedger (stores : Name → State) (loading : LoadingState events) :
    LedgerState Name State events where
  state := ⟨∅, loading, stores⟩
  taken _ _ _ := 0
  released _ _ _ := 0
  unpinned _ := true

/-- **The property.** The pins that were taken for a lookup and not yet released
are those recorded for it; an unpin leaves none of them; and no key is pinned
when every id is unpinned. -/
structure PinsConserved (ledger : LedgerState Name State events) : Prop where
  recorded (lookupId : LookupId) (name : Name) (key : Key) :
    ledger.taken lookupId name key - ledger.released lookupId name key =
      engine.pinsOf ledger.state lookupId name key
  releasedOnce (lookupId : LookupId) : ledger.unpinned lookupId = true → ∀ name key,
    ledger.released lookupId name key = ledger.taken lookupId name key
  drained : (∀ lookupId, ledger.unpinned lookupId = true) → ∀ name key,
    engine.storageManager.pinCount ledger.state.storage name key = 0

/-- The condition on a step: a lookup loses no pin, and a consumer saves no
request that has pins. -/
def LosesNoPin (ledger : LedgerState Name State events) :
    PinEvent LookupId Name Key Change → Prop
  | .lookup call => engine.losesNoPin call ledger.state = true
  | .waitForSave requests => kvRole = .kvConsumer → ∀ lookupId ∈ requests,
      engine.holdsPins ledger.state lookupId = false
  | .lookupUnpin _ | .change _ _ => True

instance (ledger : LedgerState Name State events) (event : PinEvent LookupId Name Key Change) :
    Decidable (engine.LosesNoPin kvRole ledger event) :=
  match event with
  | .lookup _ => inferInstanceAs (Decidable (_ = true))
  | .waitForSave _ => inferInstanceAs (Decidable (_ → _))
  | .lookupUnpin _ | .change _ _ => .isTrue trivial

/-- The ledger beside `wait_for_save`. -/
theorem state_ledgerSave (requests : List LookupId) (ledger : LedgerState Name State events) :
    (engine.ledgerSave kvRole requests ledger).state =
      engine.waitForSave kvRole requests ledger.state := by
  unfold ledgerSave waitForSave
  split
  · rfl
  · induction requests generalizing ledger with
    | nil => rfl
    | cons lookupId requests ih => exact ih (engine.ledgerUnpin lookupId ledger)

/-! ### The invariant -/

/-- What every careful step keeps. -/
structure Sound (ledger : LedgerState Name State events) : Prop where
  accounted : engine.Accounted ledger.state
  registered : engine.Registered ledger.state
  recorded (lookupId : LookupId) (name : Name) (key : Key) :
    ledger.taken lookupId name key - ledger.released lookupId name key =
      engine.pinsOf ledger.state lookupId name key
  unpinned (lookupId : LookupId) : ledger.unpinned lookupId = true → ∀ name key,
    engine.pinsOf ledger.state lookupId name key = 0

variable {engine kvRole} {ledger next : LedgerState Name State events}

theorem Balanced.accounted {lookupId : LookupId} {before after : PinState Name State events}
    (balanced : engine.Balanced lookupId before after) (accounted : engine.Accounted before) :
    engine.Accounted after := by
  intro name key
  have pinned := balanced.pinned name key
  have total := balanced.total name key
  rw [accounted] at pinned
  linarith

theorem Sound.conserved (sound : engine.Sound ledger) : engine.PinsConserved ledger where
  recorded := sound.recorded
  releasedOnce lookupId unpinned name key := by
    have recorded := sound.recorded lookupId name key
    rw [sound.unpinned lookupId unpinned] at recorded
    linarith
  drained unpinned name key := by
    rw [sound.accounted]
    refine Ledger.total_eq_zero _ _ fun lookupId mapping here => ?_
    have none := sound.unpinned lookupId (unpinned lookupId) name key
    rwa [pinsOf, here, Option.map_some, Option.getD_some] at none

theorem Sound.ledgerLookup {call : LookupCall LookupId Name Key} (sound : engine.Sound ledger)
    (safe : engine.losesNoPin call ledger.state = true) :
    engine.Sound (engine.ledgerLookup call ledger) := by
  have balanced := balanced_lookup safe
  refine ⟨balanced.accounted sound.accounted, balanced.registered sound.registered,
    fun lookupId name key => ?_, fun lookupId unpinned name key => ?_⟩
  · simp only [LookupEngine.ledgerLookup]
    by_cases same : lookupId = call.lookupId
    · subst same
      rw [Function.update_self]
      linarith [sound.recorded call.lookupId name key, balanced.pinned name key]
    · rw [Function.update_of_ne same, balanced.frame lookupId same]
      exact sound.recorded lookupId name key
  · simp only [LookupEngine.ledgerLookup] at unpinned ⊢
    by_cases same : lookupId = call.lookupId
    · subst same
      rw [Function.update_self] at unpinned
      cases unpinned
    · rw [Function.update_of_ne same] at unpinned
      rw [balanced.frame lookupId same]
      exact sound.unpinned lookupId unpinned name key

theorem Sound.ledgerUnpin (sound : engine.Sound ledger) (lookupId : LookupId) :
    engine.Sound (engine.ledgerUnpin lookupId ledger) := by
  obtain ⟨balanced, none⟩ := balanced_lookupUnpin sound.accounted sound.registered lookupId
  refine ⟨balanced.accounted sound.accounted, balanced.registered sound.registered,
    fun other name key => ?_, fun other unpinned name key => ?_⟩
  · simp only [LookupEngine.ledgerUnpin]
    by_cases same : other = lookupId
    · subst same
      rw [Function.update_self]
      linarith [sound.recorded other name key, balanced.pinned name key]
    · rw [Function.update_of_ne same, balanced.frame other same]
      exact sound.recorded other name key
  · simp only [LookupEngine.ledgerUnpin] at unpinned ⊢
    by_cases same : other = lookupId
    · subst same
      exact none name key
    · rw [Function.update_of_ne same] at unpinned
      rw [balanced.frame other same]
      exact sound.unpinned other unpinned name key

theorem Sound.ledgerSave {requests : List LookupId} (sound : engine.Sound ledger)
    (safe : kvRole = .kvConsumer → ∀ lookupId ∈ requests,
      engine.holdsPins ledger.state lookupId = false) :
    engine.Sound (engine.ledgerSave kvRole requests ledger) := by
  unfold LookupEngine.ledgerSave
  split
  · rename_i consumer
    refine ⟨sound.accounted, sound.registered, sound.recorded, fun lookupId unpinned => ?_⟩
    rcases (Bool.or_eq_true ..).mp unpinned with before | saved
    · exact sound.unpinned lookupId before
    · exact pinsOf_of_not_holdsPins (safe consumer lookupId (of_decide_eq_true saved))
  · clear safe
    induction requests generalizing ledger with
    | nil => exact sound
    | cons lookupId requests ih => exact ih (sound.ledgerUnpin lookupId)

omit [DecidableEq LookupId] in
/-- Keys come and go between lookups. -/
theorem pinCount_change {state : PinState Name State events} (accounted : engine.Accounted state)
    (changed : Name) (change : Change) (name : Name) (key : Key) :
    engine.storageManager.pinCount (Function.update state.storage changed
        ((engine.storageManager.backend changed).change change (state.storage changed))) name key =
      engine.storageManager.pinCount state.storage name key := by
  have nonneg : 0 ≤ engine.storageManager.pinCount state.storage name key := by
    rw [accounted]
    exact Ledger.total_nonneg _ _ fun mapping => StorageManager.recorded_nonneg mapping name key
  by_cases same : name = changed
  · subst same
    rw [StorageManager.pinCount, Function.update_self]
    exact (engine.storageManager.backend name).pinCount_change change _ key nonneg
  · rw [StorageManager.pinCount, Function.update_of_ne same, StorageManager.pinCount]

theorem Sound.step {event : PinEvent LookupId Name Key Change} (sound : engine.Sound ledger)
    (safe : engine.LosesNoPin kvRole ledger event)
    (stepped : engine.stepPins kvRole ledger event = some next) : engine.Sound next := by
  cases event with
  | lookup call =>
      obtain rfl := Option.some.inj stepped
      exact sound.ledgerLookup safe
  | lookupUnpin lookupId =>
      obtain rfl := Option.some.inj stepped
      exact sound.ledgerUnpin lookupId
  | waitForSave requests =>
      obtain rfl := Option.some.inj stepped
      exact sound.ledgerSave safe
  | change name change =>
      obtain rfl := Option.some.inj stepped
      refine ⟨fun other key => ?_, sound.registered, sound.recorded, sound.unpinned⟩
      rw [pinCount_change sound.accounted, sound.accounted]
      rfl

theorem sound_initialLedger {stores : Name → State} {loading : LoadingState events}
    (fresh : ∀ name key, engine.storageManager.pinCount stores name key = 0) :
    engine.Sound (initialLedger stores loading) where
  accounted name key := fresh name key
  registered lookupId mapping found := by cases found
  recorded _ _ _ := rfl
  unpinned _ _ _ _ := rfl

/-- **Pins are conserved in careful runs.** From a start at which no key is
pinned, whatever is looked up, unpinned, saved and changed. -/
theorem pinsConserved_of_reaches {stores : Name → State} {loading : LoadingState events}
    (fresh : ∀ name key, engine.storageManager.pinCount stores name key = 0)
    (reached : Runs.Reaches (engine.stepPins kvRole) (engine.LosesNoPin kvRole)
      (initialLedger stores loading) ledger) : engine.PinsConserved ledger :=
  (reached.invariant (sound_initialLedger fresh)
    fun _ _ _ sound safe stepped => sound.step safe stepped).conserved

end LookupEngine

/-! ### A lookup with its save, and lookups whose pins are lost -/

inductive Place
  | xds
  | gds
  | pd
deriving DecidableEq

/-- XDS in front of a backend that ignores pins. -/
def xdsAndGds : StorageManager Place ℕ (Xds.Shared ℕ ℕ) (XdsChange ℕ) where
  storageBackends := [.xds, .gds]
  backend place := if place = .xds then xdsPinBackend else unpinnedBackend
  pdBackend := .pd
  nodup := by decide
  pd_ignores := rfl

/-- The layers of chunk `n` are the keys `10 * n` and `10 * n + 1`. -/
def smallEngine (useLayerwise : Bool) : LookupEngine Place ℕ (Xds.Shared ℕ ℕ) (XdsChange ℕ) where
  storageManager := xdsAndGds
  useLayerwise := useLayerwise
  numLayers := 2
  splitLayers key := [10 * key, 10 * key + 1]
  length_splitLayers _ := rfl

def emptyIndex : Xds.Shared ℕ ℕ where
  hotCache := ∅
  currentCacheSize := 0
  putTasks := []
  tracked := ∅
  dataFiles _ := none
  sidecars _ := none
  nextStamp := 0
  nextObject := 0
  released := []

def emptyLedger : LedgerState Place (Xds.Shared ℕ ℕ)
    (EventManager.dictionary ℕ (Future ℕ ℕ)) :=
  LookupEngine.initialLedger (fun _ => emptyIndex) ⟨fun _ => none, [], [], []⟩

/-- Put a key at a backend. -/
def putAt (place : Place) (key : ℕ) : PinEvent ℕ Place ℕ (XdsChange ℕ) :=
  .change place (.insertKey key ⟨⟨key, .legacy⟩, 4096, [2, 1, 1, 1], .uint8, none⟩)

/-- A lookup of the chunks 0, 1 and 2 under the id 7. -/
def lookupSeven : PinEvent ℕ Place ℕ (XdsChange ℕ) :=
  .lookup ⟨true, fun _ => true, 7, true, [⟨0, 0, 256⟩, ⟨1, 256, 512⟩, ⟨2, 512, 768⟩]⟩

/-- Chunk 0 is at XDS and chunk 1 at the other backend; the save step unpins. -/
theorem pinsConserved_of_reaches_save :
    ∃ ledger, Runs.execute ((smallEngine false).stepPins .kvBoth)
        ((smallEngine false).LosesNoPin .kvBoth)
        [putAt .xds 0, putAt .gds 1, lookupSeven, .waitForSave [7]] emptyLedger = some ledger ∧
      ledger.taken 7 .xds 0 = 1 ∧ ledger.released 7 .xds 0 = 1 ∧
      (smallEngine false).PinsConserved ledger := by
  have done : (Runs.execute ((smallEngine false).stepPins .kvBoth)
      ((smallEngine false).LosesNoPin .kvBoth)
      [putAt .xds 0, putAt .gds 1, lookupSeven, .waitForSave [7]] emptyLedger).map
        (fun ledger => (ledger.taken 7 .xds 0, ledger.released 7 .xds 0)) = some (1, 1) := by decide
  obtain ⟨ledger, executed, facts⟩ := Option.map_eq_some_iff.mp done
  obtain ⟨taken, released⟩ := Prod.mk.inj facts
  refine ⟨ledger, executed, taken, released,
    LookupEngine.pinsConserved_of_reaches (fun name key => ?_)
      (Runs.reaches_of_execute .refl executed)⟩
  cases name <;> rfl

/-- A pin of the id 7 that is left when the id is unpinned. -/
theorem not_pinsConserved_of_execute {useLayerwise : Bool} {kvRole : KvRole}
    (run : List (PinEvent ℕ Place ℕ (XdsChange ℕ))) (key : ℕ)
    (done : (Runs.execute ((smallEngine useLayerwise).stepPins kvRole) (fun _ _ => True) run
      emptyLedger).map (fun ledger => (ledger.unpinned 7,
        ledger.taken 7 .xds key - ledger.released 7 .xds key)) = some (true, 1)) :
    ∃ ledger, Runs.Reaches ((smallEngine useLayerwise).stepPins kvRole) (fun _ _ => True)
      emptyLedger ledger ∧ ¬ (smallEngine useLayerwise).PinsConserved ledger := by
  obtain ⟨ledger, executed, facts⟩ := Option.map_eq_some_iff.mp done
  obtain ⟨unpinned, left⟩ := Prod.mk.inj facts
  refine ⟨ledger, Runs.reaches_of_execute .refl executed, fun conserved => ?_⟩
  rw [conserved.releasedOnce 7 unpinned] at left
  simp at left

/-- Pins are lost when an id is looked up twice, when a chunk has one layer at
XDS and the other elsewhere, and when a consumer saves. -/
theorem pinsConserved_fails :
    (∃ ledger, Runs.Reaches ((smallEngine false).stepPins .kvBoth) (fun _ _ => True) emptyLedger
      ledger ∧ ¬ (smallEngine false).PinsConserved ledger) ∧
    (∃ ledger, Runs.Reaches ((smallEngine true).stepPins .kvBoth) (fun _ _ => True) emptyLedger
      ledger ∧ ¬ (smallEngine true).PinsConserved ledger) ∧
    ∃ ledger, Runs.Reaches ((smallEngine false).stepPins .kvConsumer) (fun _ _ => True) emptyLedger
      ledger ∧ ¬ (smallEngine false).PinsConserved ledger :=
  ⟨not_pinsConserved_of_execute [putAt .xds 0, lookupSeven, lookupSeven, .lookupUnpin 7] 0
      (by decide),
    not_pinsConserved_of_execute [putAt .xds 0, putAt .gds 1, lookupSeven, .lookupUnpin 7] 0
      (by decide),
    not_pinsConserved_of_execute [putAt .xds 0, lookupSeven, .waitForSave [7]] 0
      (by decide)⟩

end LMCacheHcu.Lookup
