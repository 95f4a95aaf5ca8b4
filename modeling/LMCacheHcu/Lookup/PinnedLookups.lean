import LMCacheHcu.Lookup.BlockMapping
import LMCacheHcu.Prefetch.AsyncRetrieve

/-! # Lookups that pin

A lookup pins what it finds and remembers the pins under its id; `lookup_unpin`
returns what is remembered. With layerwise storage every chunk is looked up by
the keys of its layers, and the lookup ends at the first chunk that does not have
all of them in one place.
-/

namespace LMCacheHcu.Lookup

open LMCacheHcu.Engine LMCacheHcu.Prefetch

variable {LookupId Name Key Obj State Change : Type} [DecidableEq LookupId] [DecidableEq Name]
  [DecidableEq Key]

/-- The parts of the engine that lookups read. -/
structure LookupEngine (Name Key State Change : Type) [DecidableEq Key] where
  storageManager : StorageManager Name Key State Change
  useLayerwise : Bool
  numLayers : ℕ
  splitLayers : Key → List Key
  length_splitLayers (key : Key) : (splitLayers key).length = numLayers

/-- A call of `lookup`; `active` is what freeze mode, the bypass set and the
search range let through. -/
structure LookupCall (LookupId Name Key : Type) where
  healthy : Bool
  active : Name → Bool
  lookupId : LookupId
  pin : Bool
  chunks : List (ChunkInfo Key)

variable {events : EventManager LookupId (Future Key Obj)}

/-- The engine's record of pins, its loading events, and its backends. -/
abbrev PinState (Name State : Type) (events : EventManager LookupId (Future Key Obj)) :=
  LookupState Name (Name → State) events

/-- `lookup_pins[lookup_id][location].extend(keys)`. -/
def extendPins (lookupId : LookupId) (location : Name) (keys : List Key)
    (lookupPins : AList fun _ : LookupId => AList fun _ : Name => List Key) :
    AList fun _ : LookupId => AList fun _ : Name => List Key :=
  let mapping := (lookupPins.lookup lookupId).getD ∅
  lookupPins.insert lookupId (mapping.insert location ((mapping.lookup location).getD [] ++ keys))

namespace LookupEngine

variable (engine : LookupEngine Name Key State Change)

/-- The one location that has all layers of a chunk. -/
def hitLocation (contained : StorageManager.Contained Name Key State) : Option Name :=
  match contained.blockMapping.entries with
  | [⟨location, _⟩] => if contained.totalHitChunks = engine.numLayers then some location else none
  | _ => none

/-- The loop of a layerwise lookup over the chunks. -/
def lookupLayers (call : LookupCall LookupId Name Key) :
    List (ChunkInfo Key) → ℕ → PinState Name State events → PinState Name State events × ℕ
  | [], res, state => (state, res)
  | chunk :: chunks, res, state =>
      let keyAllLayers := engine.splitLayers chunk.key
      let contained :=
        engine.storageManager.batchedContains call.active keyAllLayers call.pin state.storage
      let state := { state with storage := contained.stores }
      match engine.hitLocation contained with
      | none => (state, res)
      | some location =>
          lookupLayers call chunks chunk.stop
            (if call.pin then
              { state with
                lookupPins := extendPins call.lookupId location keyAllLayers state.lookupPins }
            else state)

/-- `lookup`: the state it leaves and the number of tokens found. -/
def lookup (call : LookupCall LookupId Name Key) (state : PinState Name State events) :
    PinState Name State events × ℕ :=
  if !call.healthy then (state, 0)
  else if engine.useLayerwise then engine.lookupLayers call call.chunks 0 state
  else
    let contained := engine.storageManager.batchedContains call.active
      (call.chunks.map ChunkInfo.key) call.pin state.storage
    let lookupPins :=
      if call.pin && !contained.blockMapping.entries.isEmpty then
        state.lookupPins.insert call.lookupId contained.blockMapping
      else state.lookupPins
    ({ state with lookupPins, storage := contained.stores },
      (call.chunks.take contained.totalHitChunks).foldl (fun _ chunk => chunk.stop) 0)

/-- `lookup_unpin`. -/
def lookupUnpin (lookupId : LookupId) (state : PinState Name State events) :
    PinState Name State events :=
  Prefetch.lookupUnpin (fun keys location => engine.storageManager.batchedUnpin keys [location])
    lookupId state

end LookupEngine

/-- `kv_role` of the connector. -/
inductive KvRole
  | kvProducer
  | kvConsumer
  | kvBoth
deriving DecidableEq, Repr

namespace LookupEngine

variable (engine : LookupEngine Name Key State Change)

/-- The unpins of the connector's `wait_for_save`, for the requests that its loop
reaches. -/
def waitForSave (kvRole : KvRole) (requests : List LookupId) (state : PinState Name State events) :
    PinState Name State events :=
  if kvRole = .kvConsumer then state
  else requests.foldl (fun state lookupId => engine.lookupUnpin lookupId state) state

/-! ### What is recorded -/

/-- The pins recorded for a lookup. -/
def pinsOf (state : PinState Name State events) (lookupId : LookupId) (name : Name) (key : Key) :
    ℤ :=
  ((state.lookupPins.lookup lookupId).map
    fun mapping => engine.storageManager.recorded mapping name key).getD 0

def totalPins (state : PinState Name State events) (name : Name) (key : Key) : ℤ :=
  Ledger.total (fun mapping => engine.storageManager.recorded mapping name key) state.lookupPins

/-- Every location of the record is a registered backend. -/
def Registered (state : PinState Name State events) : Prop :=
  ∀ lookupId mapping, state.lookupPins.lookup lookupId = some mapping →
    ∀ name ∈ mapping, name ∈ engine.storageManager.storageBackends

/-- A change for one lookup: every pin that is taken is recorded, and every pin
that is returned leaves the record. -/
structure Balanced (lookupId : LookupId) (before after : PinState Name State events) : Prop where
  pinned (name : Name) (key : Key) :
    engine.storageManager.pinCount after.storage name key -
        engine.storageManager.pinCount before.storage name key =
      engine.pinsOf after lookupId name key - engine.pinsOf before lookupId name key
  total (name : Name) (key : Key) :
    engine.totalPins after name key - engine.totalPins before name key =
      engine.pinsOf after lookupId name key - engine.pinsOf before lookupId name key
  frame (other : LookupId) : other ≠ lookupId → engine.pinsOf after other = engine.pinsOf before other
  registered : engine.Registered before → engine.Registered after

variable {engine} {lookupId : LookupId} {before middle after : PinState Name State events}

theorem Balanced.trans (first : engine.Balanced lookupId before middle)
    (second : engine.Balanced lookupId middle after) : engine.Balanced lookupId before after where
  pinned name key := by linarith [first.pinned name key, second.pinned name key]
  total name key := by linarith [first.total name key, second.total name key]
  frame other different := (second.frame other different).trans (first.frame other different)
  registered here := second.registered (first.registered here)

/-- The record stays as it is. -/
theorem Balanced.of_same (same : after.lookupPins = before.lookupPins)
    (pinned : ∀ name key, engine.storageManager.pinCount after.storage name key =
      engine.storageManager.pinCount before.storage name key) :
    engine.Balanced lookupId before after where
  pinned name key := by rw [pinned, pinsOf, pinsOf, same, sub_self, sub_self]
  total name key := by rw [totalPins, totalPins, pinsOf, pinsOf, same, sub_self, sub_self]
  frame other _ := by
    funext name key
    rw [pinsOf, pinsOf, same]
  registered here := by
    rw [Registered, same]
    exact here

/-- The record gets a new mapping. -/
theorem Balanced.of_insert {mapping : AList fun _ : Name => List Key}
    (inserted : after.lookupPins = before.lookupPins.insert lookupId mapping)
    (pinned : ∀ name key, engine.storageManager.pinCount after.storage name key =
      engine.storageManager.pinCount before.storage name key +
        (engine.storageManager.recorded mapping name key - engine.pinsOf before lookupId name key))
    (names : engine.Registered before →
      ∀ name ∈ mapping, name ∈ engine.storageManager.storageBackends) :
    engine.Balanced lookupId before after := by
  have own (name : Name) (key : Key) : engine.pinsOf after lookupId name key =
      engine.storageManager.recorded mapping name key := by
    rw [pinsOf, inserted, AList.lookup_insert, Option.map_some, Option.getD_some]
  refine ⟨fun name key => ?_, fun name key => ?_, fun other different => ?_,
    fun here other found present => ?_⟩
  · rw [pinned, own]
    ring
  · rw [totalPins, inserted, Ledger.total_insert_getD, own, totalPins, pinsOf]
    ring
  · funext name key
    rw [pinsOf, inserted, AList.lookup_insert_ne different, pinsOf]
  · rw [inserted] at present
    by_cases same : other = lookupId
    · subst same
      rw [AList.lookup_insert] at present
      obtain rfl := Option.some.inj present
      exact names here
    · rw [AList.lookup_insert_ne same] at present
      exact here other found present

/-! ### Lookups that lose no pin -/

section Lookups

variable (engine)

/-- No backend of the mapping pins. -/
def pinsNothing (mapping : AList fun _ : Name => List Key) : Bool :=
  mapping.entries.all fun entry => !(engine.storageManager.backend entry.1).implementsPins

/-- Pins are recorded for a lookup. -/
def holdsPins (state : PinState Name State events) (lookupId : LookupId) : Bool :=
  (state.lookupPins.lookup lookupId).any fun mapping => mapping.entries.any fun entry =>
    (engine.storageManager.backend entry.1).implementsPins && !entry.2.isEmpty

/-- The layers of a chunk, as they are before the lookup. -/
def layersOf (call : LookupCall LookupId Name Key) (stores : Name → State) (chunk : ChunkInfo Key) :
    StorageManager.Contained Name Key State :=
  engine.storageManager.batchedContains call.active (engine.splitLayers chunk.key) false stores

/-- The chunk at which a layerwise lookup ends. -/
def missedChunk (call : LookupCall LookupId Name Key) (stores : Name → State)
    (chunks : List (ChunkInfo Key)) : Option (ChunkInfo Key) :=
  chunks.find? fun chunk => (engine.hitLocation (engine.layersOf call stores chunk)).isNone

/-- The condition under which a lookup loses no pin: no pinning backend has the
first layers of the chunk at which a layerwise lookup ends; a lookup of whole
chunks finds nothing, or its id has no pins yet. -/
def losesNoPin (call : LookupCall LookupId Name Key) (state : PinState Name State events) : Bool :=
  !call.healthy || !call.pin ||
    if engine.useLayerwise then
      (engine.missedChunk call state.storage call.chunks).all fun chunk =>
        engine.pinsNothing (engine.layersOf call state.storage chunk).blockMapping
    else
      (engine.storageManager.batchedContains call.active (call.chunks.map ChunkInfo.key) false
        state.storage).blockMapping.entries.isEmpty || !engine.holdsPins state call.lookupId

variable {engine}

theorem recorded_of_pinsNothing {mapping : AList fun _ : Name => List Key}
    (nothing : engine.pinsNothing mapping = true) (name : Name) (key : Key) :
    engine.storageManager.recorded mapping name key = 0 := by
  by_cases present : name ∈ mapping
  · obtain ⟨keys, here⟩ := Option.isSome_iff_exists.mp (AList.lookup_isSome.mpr present)
    have ignores := List.all_eq_true.mp nothing _ (AList.mem_lookup_iff.mp here)
    rw [StorageManager.recorded, if_neg (by simpa using ignores)]
  · exact StorageManager.recorded_of_notMem present key

theorem pinsOf_of_not_holdsPins {state : PinState Name State events}
    (nothing : engine.holdsPins state lookupId = false) (name : Name) (key : Key) :
    engine.pinsOf state lookupId name key = 0 := by
  cases here : state.lookupPins.lookup lookupId with
  | none => rw [pinsOf, here, Option.map_none, Option.getD_none]
  | some mapping =>
      rw [pinsOf, here, Option.map_some, Option.getD_some, StorageManager.recorded]
      rw [holdsPins, here, Option.any_some, List.any_eq_false] at nothing
      cases found : mapping.lookup name with
      | none => simp
      | some keys =>
          have := nothing _ (AList.mem_lookup_iff.mp found)
          by_cases implements : (engine.storageManager.backend name).implementsPins
          · have empty : keys = [] := by simpa [implements] using this
            simp [empty]
          · simp [implements]

/-- A chunk that one location has: its mapping names the location with all layers. -/
theorem hitLocation_some {active : Name → Bool} {keys : List Key} {pin : Bool}
    {stores : Name → State} {location : Name} (length : keys.length = engine.numLayers)
    (hit : engine.hitLocation
      (engine.storageManager.batchedContains active keys pin stores) = some location) :
    (engine.storageManager.batchedContains active keys pin stores).blockMapping.entries =
      [⟨location, keys⟩] := by
  unfold hitLocation at hit
  split at hit
  · rename_i only found single
    split at hit
    · rename_i full
      obtain rfl := Option.some.inj hit
      rw [single, StorageManager.batchedContains_single active keys pin stores single
        (full.trans length.symm)]
    · cases hit
  · cases hit

variable (engine) in
omit [DecidableEq Name] in
theorem hitLocation_congr {left right : StorageManager.Contained Name Key State}
    (total : left.totalHitChunks = right.totalHitChunks)
    (mapping : left.blockMapping = right.blockMapping) :
    engine.hitLocation left = engine.hitLocation right := by
  rw [hitLocation, hitLocation, total, mapping]

variable (engine) in
theorem recorded_of_single {mapping : AList fun _ : Name => List Key} {location : Name}
    {keys : List Key} (single : mapping.entries = [⟨location, keys⟩]) (name : Name) (key : Key) :
    engine.storageManager.recorded mapping name key =
      if name = location ∧ (engine.storageManager.backend location).implementsPins then
        (keys.count key : ℤ) else 0 := by
  have same : mapping = (∅ : AList fun _ : Name => List Key).insert location keys :=
    AList.ext (single.trans (by rfl))
  rw [same, StorageManager.recorded_insert, StorageManager.recorded_empty]
  by_cases here : name = location
  · subst here
    simp
  · simp [here]

/-- The layers of a chunk that one location has are pinned and recorded. -/
theorem balanced_extendPins {state : PinState Name State events} {active : Name → Bool}
    {keys : List Key} {location : Name}
    (single : (engine.storageManager.batchedContains active keys true
      state.storage).blockMapping.entries = [⟨location, keys⟩]) :
    engine.Balanced lookupId state { state with
      storage := (engine.storageManager.batchedContains active keys true state.storage).stores
      lookupPins := extendPins lookupId location keys state.lookupPins } := by
  have gained := recorded_of_single engine single
  have before (name : Name) (key : Key) : engine.pinsOf state lookupId name key =
      engine.storageManager.recorded ((state.lookupPins.lookup lookupId).getD ∅) name key := by
    cases here : state.lookupPins.lookup lookupId with
    | none => simp [pinsOf, here]
    | some mapping => simp [pinsOf, here]
  refine Balanced.of_insert rfl (fun name key => ?_) fun here name present => ?_
  · rw [StorageManager.pinCount_batchedContains, if_pos rfl, gained, StorageManager.recorded_insert,
      before]
    by_cases same : name = location
    · subst same
      cases implements : (engine.storageManager.backend name).implementsPins <;>
        simp [StorageManager.recorded, implements, List.count_append]
    · simp [same]
  · rcases (AList.mem_insert _).mp present with rfl | old
    · apply StorageManager.mem_storageBackends active keys true state.storage
      rw [AList.mem_keys, AList.keys, single]
      simp
    · cases found : state.lookupPins.lookup lookupId with
      | none => simp [found] at old
      | some mapping =>
          rw [found] at old
          exact here lookupId mapping found name old

/-- A lookup of one chunk leaves the pins of a mapping that pins nothing. -/
theorem balanced_of_pinsNothing {state : PinState Name State events} {active : Name → Bool}
    {keys : List Key} {pin : Bool}
    (nothing : pin = true → engine.pinsNothing
      (engine.storageManager.batchedContains active keys pin state.storage).blockMapping = true) :
    engine.Balanced lookupId state { state with
      storage := (engine.storageManager.batchedContains active keys pin state.storage).stores } := by
  refine Balanced.of_same rfl fun name key => ?_
  rw [StorageManager.pinCount_batchedContains]
  cases pin with
  | false => simp
  | true => rw [if_pos rfl, recorded_of_pinsNothing (nothing rfl), add_zero]

theorem balanced_lookupLayers {call : LookupCall LookupId Name Key} {stores : Name → State}
    {chunks : List (ChunkInfo Key)} {res : ℕ} {state : PinState Name State events}
    (same : engine.storageManager.SameHits state.storage stores)
    (nothing : call.pin = true → ∀ chunk ∈ engine.missedChunk call stores chunks,
      engine.pinsNothing (engine.layersOf call stores chunk).blockMapping = true) :
    engine.Balanced call.lookupId state (engine.lookupLayers call chunks res state).1 := by
  induction chunks generalizing res state with
  | nil => exact Balanced.of_same rfl fun _ _ => rfl
  | cons chunk chunks ih =>
      obtain ⟨total, mapping, kept⟩ := StorageManager.batchedContains_congr engine.storageManager call.active
        (engine.splitLayers chunk.key) call.pin same false
      have found := hitLocation_congr engine total mapping
      simp only [lookupLayers]
      cases hit : engine.hitLocation (engine.storageManager.batchedContains call.active
          (engine.splitLayers chunk.key) call.pin state.storage) with
      | none =>
          have missed : engine.missedChunk call stores (chunk :: chunks) = some chunk := by
            rw [missedChunk, List.find?_cons_of_pos]
            rw [layersOf, ← found, hit]
            rfl
          refine balanced_of_pinsNothing fun pins => ?_
          rw [mapping]
          exact nothing pins chunk missed
      | some location =>
          have later : engine.missedChunk call stores (chunk :: chunks) =
              engine.missedChunk call stores chunks := by
            rw [missedChunk, List.find?_cons_of_neg, missedChunk]
            rw [layersOf, ← found, hit]
            simp
          rw [later] at nothing
          simp only
          cases pins : call.pin with
          | false =>
              rw [pins] at kept
              refine (balanced_of_pinsNothing fun pinned => ?_).trans (ih (kept.trans same) nothing)
              cases pinned
          | true =>
              rw [pins] at kept hit
              have single := hitLocation_some (engine.length_splitLayers chunk.key) hit
              exact (balanced_extendPins single).trans (ih (kept.trans same) nothing)

/-- **A lookup that loses no pin** records every pin it takes. -/
theorem balanced_lookup {call : LookupCall LookupId Name Key} {state : PinState Name State events}
    (safe : engine.losesNoPin call state = true) :
    engine.Balanced call.lookupId state (engine.lookup call state).1 := by
  unfold lookup
  by_cases unhealthy : call.healthy = false
  · simp only [unhealthy, Bool.not_false, ↓reduceIte]
    exact Balanced.of_same rfl fun _ _ => rfl
  · replace unhealthy : call.healthy = true := by simpa using unhealthy
    rw [losesNoPin, unhealthy, Bool.not_true, Bool.false_or] at safe
    simp only [unhealthy, Bool.not_true, Bool.false_eq_true, ↓reduceIte]
    split
    · rename_i layerwise
      rw [if_pos layerwise] at safe
      refine balanced_lookupLayers (fun _ _ => rfl) fun pins chunk missed => ?_
      rw [pins, Bool.not_true, Bool.false_or, Option.mem_def.mp missed] at safe
      exact safe
    · rename_i whole
      rw [if_neg whole] at safe
      have mapping := (StorageManager.batchedContains_congr engine.storageManager
        call.active (call.chunks.map ChunkInfo.key) call.pin
        (fun _ _ => rfl : engine.storageManager.SameHits state.storage state.storage) false).2.1
      rw [← mapping] at safe
      cases pins : call.pin with
      | false =>
          simp only [Bool.false_and, Bool.false_eq_true, ↓reduceIte]
          exact balanced_of_pinsNothing fun pinned => by cases pinned
      | true =>
          rw [pins, Bool.not_true, Bool.false_or] at safe
          cases found : (engine.storageManager.batchedContains call.active
              (call.chunks.map ChunkInfo.key) true state.storage).blockMapping.entries.isEmpty with
          | true =>
              simp only [Bool.true_and, Bool.not_true, Bool.false_eq_true, ↓reduceIte]
              refine balanced_of_pinsNothing fun _ => ?_
              rw [pinsNothing, List.isEmpty_iff.mp found]
              rfl
          | false =>
              rw [found, Bool.false_or, Bool.not_eq_true'] at safe
              simp only [Bool.true_and, Bool.not_false, ↓reduceIte]
              refine Balanced.of_insert rfl (fun name key => ?_) fun _ _ mapped =>
                StorageManager.mem_storageBackends _ _ _ _ mapped
              rw [StorageManager.pinCount_batchedContains, if_pos rfl,
                pinsOf_of_not_holdsPins safe, sub_zero]

end Lookups

/-! ### Unpinning -/

/-- The pins of a backend are those that the record has. -/
def Accounted (engine : LookupEngine Name Key State Change)
    (state : PinState Name State events) : Prop :=
  ∀ name key, engine.storageManager.pinCount state.storage name key = engine.totalPins state name key

theorem recorded_eq_dlookup (mapping : AList fun _ : Name => List Key) (name : Name) (key : Key) :
    engine.storageManager.recorded mapping name key =
      if (engine.storageManager.backend name).implementsPins then
        (((List.dlookup name mapping.entries).getD []).count key : ℤ) else 0 := rfl

variable (engine) in
/-- Unpinning the locations one after the other. -/
theorem pinCount_unpinLocations {entries : List (Sigma fun _ : Name => List Key)}
    (distinct : entries.NodupKeys) (registered : ∀ entry ∈ entries,
      entry.1 ∈ engine.storageManager.storageBackends) (stores : Name → State)
    (held : ∀ name, (engine.storageManager.backend name).implementsPins → ∀ key,
      (((List.dlookup name entries).getD []).count key : ℤ) ≤
        engine.storageManager.pinCount stores name key) (name : Name) (key : Key) :
    engine.storageManager.pinCount (entries.foldl
        (fun stores entry => engine.storageManager.batchedUnpin entry.2 [entry.1] stores) stores)
          name key =
      engine.storageManager.pinCount stores name key -
        if (engine.storageManager.backend name).implementsPins then
          (((List.dlookup name entries).getD []).count key : ℤ) else 0 := by
  induction entries generalizing stores with
  | nil => simp
  | cons entry entries ih =>
      obtain ⟨location, keys⟩ := entry
      obtain ⟨absent, distinct⟩ := List.nodupKeys_cons.mp distinct
      have rest : List.dlookup location entries = none := List.dlookup_eq_none.mpr absent
      have first := StorageManager.pinCount_batchedUnpin engine.storageManager
        (fun implements key => by simpa using held location implements key)
        (registered _ (List.mem_cons_self ..))
      rw [List.foldl_cons, ih distinct (fun entry member =>
        registered entry (List.mem_cons_of_mem _ member)) _, first]
      · by_cases same : name = location
        · subst same
          simp [rest]
        · simp [same]
      · intro other implements key
        rw [first]
        by_cases same : other = location
        · subst same
          simpa [rest, implements] using held other implements key
        · simpa [same] using held other implements key

/-- **An unpin returns what is recorded.** -/
theorem balanced_lookupUnpin {state : PinState Name State events} (accounted : engine.Accounted state)
    (registered : engine.Registered state) (lookupId : LookupId) :
    engine.Balanced lookupId state (engine.lookupUnpin lookupId state) ∧
      ∀ name key, engine.pinsOf (engine.lookupUnpin lookupId state) lookupId name key = 0 := by
  unfold lookupUnpin Prefetch.lookupUnpin
  cases here : state.lookupPins.lookup lookupId with
  | none =>
      simp only
      split <;> exact ⟨Balanced.of_same rfl fun _ _ => rfl, fun _ _ => by simp [pinsOf, here]⟩
  | some mapping =>
      have own (name : Name) (key : Key) : engine.pinsOf state lookupId name key =
          engine.storageManager.recorded mapping name key := by
        rw [pinsOf, here, Option.map_some, Option.getD_some]
      have held (name : Name) (key : Key) : engine.storageManager.recorded mapping name key ≤
          engine.storageManager.pinCount state.storage name key := by
        rw [accounted, ← own]
        exact Ledger.lookup_le_total _ _
          (fun mapping => StorageManager.recorded_nonneg mapping name key) lookupId
      have released (name : Name) (key : Key) := pinCount_unpinLocations engine
        mapping.nodupKeys (fun entry member => registered lookupId mapping here entry.1
          (AList.mem_keys.mpr (List.mem_keys_of_mem member))) state.storage
        (fun name implements key => by
          simpa [recorded_eq_dlookup, implements] using held name key) name key
      refine ⟨⟨fun name key => ?_, fun name key => ?_, fun other different => ?_,
        fun before other found present => ?_⟩, fun name key => ?_⟩
      · rw [released, own, recorded_eq_dlookup]
        simp [pinsOf]
      · simp only [totalPins, Ledger.total_erase_getD, pinsOf, AList.lookup_erase, Option.map_none,
          Option.getD_none]
        ring
      · funext name key
        simp only [pinsOf, AList.lookup_erase_ne different]
      · by_cases same : other = lookupId
        · subst same
          simp at present
        · rw [AList.lookup_erase_ne same] at present
          exact before other found present
      · simp [pinsOf]

end LookupEngine

end LMCacheHcu.Lookup
