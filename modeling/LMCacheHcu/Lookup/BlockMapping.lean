import LMCacheHcu.Foundation.Ledger
import Mathlib.Logic.Function.Basic

/-! # Sharing out the keys of a lookup

`StorageManager.batched_contains` asks the active backends one after the other
for the keys that the earlier ones did not have. Each answers with the number of
keys it has before its first miss, and pins these. The block mapping says which
backend has which of the keys.
-/

namespace LMCacheHcu.Lookup

/-- A storage backend as lookups see it. Backends without eviction ignore pins.
Whatever else changes a backend leaves the pins of its keys alone. -/
structure PinBackend (Key State Change : Type) [DecidableEq Key] where
  /-- The state after the call, and the number of keys before the first miss. -/
  batchedContains : List Key → Bool → State → State × ℕ
  unpin : Key → State → State
  change : Change → State → State
  pinCount : State → Key → ℤ
  implementsPins : Bool
  hits_le (keys : List Key) (pin : Bool) (state : State) :
    (batchedContains keys pin state).2 ≤ keys.length
  hits_pin (keys : List Key) (pin : Bool) (state : State) :
    (batchedContains keys pin state).2 = (batchedContains keys false state).2
  hits_after (keys later : List Key) (pin : Bool) (state : State) :
    (batchedContains later false (batchedContains keys pin state).1).2 =
      (batchedContains later false state).2
  pinCount_batchedContains (keys : List Key) (pin : Bool) (state : State) (key : Key) :
    pinCount (batchedContains keys pin state).1 key = pinCount state key +
      if implementsPins && pin then
        ((keys.take (batchedContains keys pin state).2).count key : ℤ) else 0
  pinCount_unpin (unpinned : Key) (state : State) (key : Key) : 0 < pinCount state unpinned →
    pinCount (unpin unpinned state) key = pinCount state key - if unpinned = key then 1 else 0
  pinCount_change (change' : Change) (state : State) (key : Key) : 0 ≤ pinCount state key →
    pinCount (change change' state) key = pinCount state key
  pinCount_of_ignored (state : State) (key : Key) : implementsPins = false →
    pinCount state key = 0

variable {Name Key State Change : Type} [DecidableEq Name] [DecidableEq Key]

/-- The number of keys before the first one the backend does not have. -/
def PinBackend.hits (backend : PinBackend Key State Change) (keys : List Key) (state : State) :
    ℕ := (backend.batchedContains keys false state).2

/-- The backends registered with a storage manager. A PD backend ignores pins. -/
structure StorageManager (Name Key State Change : Type) [DecidableEq Key] where
  storageBackends : List Name
  backend : Name → PinBackend Key State Change
  pdBackend : Name
  nodup : storageBackends.Nodup
  pd_ignores : (backend pdBackend).implementsPins = false

namespace StorageManager

variable (manager : StorageManager Name Key State Change)

/-- What a `batched_contains` hands back, with the states of the backends. -/
structure Contained (Name Key State : Type) where
  stores : Name → State
  totalHitChunks : ℕ
  blockMapping : AList fun _ : Name => List Key

/-- The loop of `batched_contains` over the active backends, with the keys no
backend had yet. -/
def containsLoop (totalKeys : ℕ) (pin : Bool) : List Name → List Key →
    Contained Name Key State → Contained Name Key State
  | [], _, progress => progress
  | name :: names, keys, progress =>
      let pinInBackend := if name ≠ manager.pdBackend then pin else false
      let answer :=
        (manager.backend name).batchedContains keys pinInBackend (progress.stores name)
      let stores := Function.update progress.stores name answer.1
      if answer.2 = 0 then containsLoop totalKeys pin names keys { progress with stores }
      else
        let found : Contained Name Key State :=
          { stores
            totalHitChunks := progress.totalHitChunks + answer.2
            blockMapping := progress.blockMapping.insert name (keys.take answer.2) }
        if found.totalHitChunks = totalKeys then found
        else containsLoop totalKeys pin names (keys.drop answer.2) found

/-- `get_active_storage_backends`: the registered backends that freeze mode, the
bypass set and the search range let through. -/
def activeBackends (active : Name → Bool) : List Name := manager.storageBackends.filter active

/-- `batched_contains`. -/
def batchedContains (active : Name → Bool) (keys : List Key) (pin : Bool) (stores : Name → State) :
    Contained Name Key State :=
  manager.containsLoop keys.length pin (manager.activeBackends active) keys ⟨stores, 0, ∅⟩

/-- `batched_unpin`. -/
def batchedUnpin (keys : List Key) (locations : List Name) (stores : Name → State) :
    Name → State :=
  manager.storageBackends.foldl
    (fun stores name =>
      if name ∈ locations then
        Function.update stores name
          (keys.foldl (fun state key => (manager.backend name).unpin key state) (stores name))
      else stores)
    stores

/-- The pins that a block mapping stands for. -/
def recorded (mapping : AList fun _ : Name => List Key) (name : Name) (key : Key) : ℤ :=
  if (manager.backend name).implementsPins then (((mapping.lookup name).getD []).count key : ℤ)
  else 0

def pinCount (stores : Name → State) (name : Name) (key : Key) : ℤ :=
  (manager.backend name).pinCount (stores name) key

/-! ### Answers -/

/-- Two states of the backends in which every lookup has the same hits. -/
def SameHits (stores other : Name → State) : Prop :=
  ∀ name keys, (manager.backend name).hits keys (stores name) =
    (manager.backend name).hits keys (other name)

variable {manager}

omit [DecidableEq Name] in
theorem SameHits.symm {stores other : Name → State} (same : manager.SameHits stores other) :
    manager.SameHits other stores :=
  fun name keys => (same name keys).symm

omit [DecidableEq Name] in
theorem SameHits.trans {stores middle other : Name → State}
    (first : manager.SameHits stores middle) (second : manager.SameHits middle other) :
    manager.SameHits stores other :=
  fun name keys => (first name keys).trans (second name keys)

variable (manager) in
theorem sameHits_update (stores : Name → State) (name : Name) (keys : List Key) (pin : Bool) :
    manager.SameHits
      (Function.update stores name ((manager.backend name).batchedContains keys pin (stores name)).1)
      stores := by
  intro other later
  by_cases same : other = name
  · subst same
    rw [Function.update_self]
    exact (manager.backend other).hits_after keys later pin (stores other)
  · rw [Function.update_of_ne same]

variable (manager) in
theorem containsLoop_nil (totalKeys : ℕ) (pin : Bool) (keys : List Key)
    (progress : Contained Name Key State) :
    manager.containsLoop totalKeys pin [] keys progress = progress := rfl

variable (manager) in
theorem containsLoop_cons (totalKeys : ℕ) (pin : Bool) (name : Name) (names : List Name)
    (keys : List Key) (progress : Contained Name Key State) :
    manager.containsLoop totalKeys pin (name :: names) keys progress =
      let pinInBackend := if name ≠ manager.pdBackend then pin else false
      let answer :=
        (manager.backend name).batchedContains keys pinInBackend (progress.stores name)
      let stores := Function.update progress.stores name answer.1
      if answer.2 = 0 then
        manager.containsLoop totalKeys pin names keys { progress with stores }
      else
        let found : Contained Name Key State :=
          { stores
            totalHitChunks := progress.totalHitChunks + answer.2
            blockMapping := progress.blockMapping.insert name (keys.take answer.2) }
        if found.totalHitChunks = totalKeys then found
        else manager.containsLoop totalKeys pin names (keys.drop answer.2) found := rfl

/-- Pinning and earlier lookups do not change what the loop finds. -/
theorem containsLoop_congr (totalKeys : ℕ) (pin pin' : Bool) (names : List Name)
    (keys : List Key) {stores other : Name → State} (same : manager.SameHits stores other)
    (total : ℕ) (mapping : AList fun _ : Name => List Key) :
    (manager.containsLoop totalKeys pin names keys ⟨stores, total, mapping⟩).totalHitChunks =
        (manager.containsLoop totalKeys pin' names keys ⟨other, total, mapping⟩).totalHitChunks ∧
      (manager.containsLoop totalKeys pin names keys ⟨stores, total, mapping⟩).blockMapping =
        (manager.containsLoop totalKeys pin' names keys ⟨other, total, mapping⟩).blockMapping ∧
      manager.SameHits (manager.containsLoop totalKeys pin names keys ⟨stores, total, mapping⟩).stores
        stores := by
  induction names generalizing keys stores other total mapping with
  | nil => exact ⟨rfl, rfl, fun _ _ => rfl⟩
  | cons name names ih =>
      simp only [containsLoop_cons]
      generalize (if name ≠ manager.pdBackend then pin else false) = inBackend
      generalize (if name ≠ manager.pdBackend then pin' else false) = inBackend'
      have answers : ((manager.backend name).batchedContains keys inBackend' (other name)).2 =
          ((manager.backend name).batchedContains keys inBackend (stores name)).2 := by
        rw [(manager.backend name).hits_pin keys inBackend,
          (manager.backend name).hits_pin keys inBackend']
        exact (same name keys).symm
      have kept := sameHits_update manager stores name keys inBackend
      have both := (kept.trans same).trans (sameHits_update manager other name keys inBackend').symm
      rw [answers]
      split
      · obtain ⟨hits, shared, rest⟩ := ih keys both total mapping
        exact ⟨hits, shared, rest.trans kept⟩
      · split
        · exact ⟨rfl, rfl, kept⟩
        · obtain ⟨hits, shared, rest⟩ := ih (keys.drop _) both _ _
          exact ⟨hits, shared, rest.trans kept⟩

/-! ### What the mapping shares out -/

omit [DecidableEq Key] in
/-- The backends still to be asked have no keys in the mapping. -/
theorem notMem_insert {mapping : AList fun _ : Name => List Key} {asked : Name}
    {names : List Name} (fresh : ∀ name ∈ asked :: names, name ∉ mapping)
    (notLater : asked ∉ names) (keys : List Key) :
    ∀ name ∈ names, name ∉ mapping.insert asked keys := by
  intro name member present
  rcases (AList.mem_insert _).mp present with same | old
  · exact notLater (same ▸ member)
  · exact fresh name (List.mem_cons_of_mem _ member) old

theorem mem_containsLoop {totalKeys : ℕ} {pin : Bool} {names : List Name} {keys : List Key}
    {progress : Contained Name Key State} {name : Name}
    (mapped : name ∈ (manager.containsLoop totalKeys pin names keys progress).blockMapping) :
    name ∈ names ∨ name ∈ progress.blockMapping := by
  induction names generalizing keys progress with
  | nil => exact .inr mapped
  | cons asked names ih =>
      have inserted {found : List Key}
          (present : name ∈ progress.blockMapping.insert asked found) :
          name ∈ asked :: names ∨ name ∈ progress.blockMapping :=
        ((AList.mem_insert _).mp present).imp_left (fun same => by rw [same]; simp)
      simp only [containsLoop_cons] at mapped
      generalize (if asked ≠ manager.pdBackend then pin else false) = inBackend at mapped
      split at mapped
      · exact (ih mapped).imp_left (List.mem_cons_of_mem _)
      · split at mapped
        · exact inserted mapped
        · exact (ih mapped).elim (fun later => .inl (List.mem_cons_of_mem _ later)) inserted

variable (manager) in
/-- The keys of the mapping, in the order the backends were asked, are the keys
of the hits. -/
theorem containsLoop_keys (totalKeys : ℕ) (pin : Bool) {names : List Name} (distinct : names.Nodup)
    (keys : List Key) (stores : Name → State) (total : ℕ)
    (mapping : AList fun _ : Name => List Key) (fresh : ∀ name ∈ names, name ∉ mapping) :
    ∃ hits ≤ keys.length,
      (manager.containsLoop totalKeys pin names keys ⟨stores, total, mapping⟩).totalHitChunks =
        total + hits ∧
      ((manager.containsLoop totalKeys pin names keys
          ⟨stores, total, mapping⟩).blockMapping.entries.reverse.map Sigma.snd).flatten =
        (mapping.entries.reverse.map Sigma.snd).flatten ++ keys.take hits := by
  induction names generalizing keys stores total mapping with
  | nil => exact ⟨0, Nat.zero_le _, rfl, by rw [List.take_zero, List.append_nil]; rfl⟩
  | cons name names ih =>
      obtain ⟨notLater, distinct⟩ := List.nodup_cons.mp distinct
      simp only [containsLoop_cons]
      generalize answered : (manager.backend name).batchedContains keys
        (if name ≠ manager.pdBackend then pin else false) (stores name) = answer
      have few : answer.2 ≤ keys.length := by
        rw [← answered]
        exact (manager.backend name).hits_le ..
      have later := notMem_insert fresh notLater (keys.take answer.2)
      have added : ((mapping.insert name (keys.take answer.2)).entries.reverse.map
          Sigma.snd).flatten =
            (mapping.entries.reverse.map Sigma.snd).flatten ++ keys.take answer.2 := by
        rw [AList.entries_insert_of_notMem (fresh name (List.mem_cons_self ..))]
        simp
      split
      · exact ih distinct keys _ total mapping fun other member =>
          fresh other (List.mem_cons_of_mem _ member)
      · split
        · exact ⟨answer.2, few, rfl, added⟩
        · obtain ⟨hits, most, sum, flat⟩ := ih distinct (keys.drop answer.2)
            (Function.update stores name answer.1) (total + answer.2) _ later
          refine ⟨answer.2 + hits, ?_, ?_, ?_⟩
          · rw [List.length_drop] at most
            omega
          · rw [sum, Nat.add_assoc]
          · rw [flat, added, List.append_assoc, List.take_add]

theorem recorded_insert (mapping : AList fun _ : Name => List Key) (location : Name)
    (keys : List Key) (name : Name) (key : Key) :
    manager.recorded (mapping.insert location keys) name key =
      if name = location then
        if (manager.backend name).implementsPins then (keys.count key : ℤ) else 0
      else manager.recorded mapping name key := by
  by_cases same : name = location
  · subst same
    simp only [recorded, AList.lookup_insert, Option.getD_some, ↓reduceIte]
  · simp only [recorded, AList.lookup_insert_ne same, same, ↓reduceIte]

@[simp] theorem recorded_empty (name : Name) (key : Key) : manager.recorded ∅ name key = 0 := by
  simp [recorded]

theorem recorded_nonneg (mapping : AList fun _ : Name => List Key) (name : Name) (key : Key) :
    0 ≤ manager.recorded mapping name key := by
  unfold recorded
  split <;> omega

theorem recorded_of_notMem {mapping : AList fun _ : Name => List Key} {name : Name}
    (absent : name ∉ mapping) (key : Key) : manager.recorded mapping name key = 0 := by
  simp [recorded, AList.lookup_eq_none.mpr absent]

variable (manager) in
/-- The pins of one backend in the loop; a PD backend has none. -/
theorem pinCount_update (keys : List Key) (pin : Bool) (stores : Name → State) (asked name : Name)
    (key : Key) :
    let answer := (manager.backend asked).batchedContains keys
      (if asked ≠ manager.pdBackend then pin else false) (stores asked)
    manager.pinCount (Function.update stores asked answer.1) name key =
      manager.pinCount stores name key +
        if pin ∧ name = asked ∧ (manager.backend asked).implementsPins then
          ((keys.take answer.2).count key : ℤ) else 0 := by
  intro answer
  by_cases same : name = asked
  · subst same
    have pinned : ((manager.backend name).implementsPins &&
        if name ≠ manager.pdBackend then pin else false) =
          decide (pin ∧ (manager.backend name).implementsPins) := by
      by_cases pd : name = manager.pdBackend
      · have ignores := manager.pd_ignores
        rw [← pd] at ignores
        simp [ignores]
      · simp [pd, Bool.and_comm]
    rw [pinCount, Function.update_self, (manager.backend name).pinCount_batchedContains, pinned]
    simp [pinCount, answer]
  · simp [pinCount, same]

variable (manager) in
/-- **The mapping records the pins.** A lookup pins the keys of its mapping, each
at the backend that has it. -/
theorem pinCount_containsLoop (totalKeys : ℕ) (pin : Bool) {names : List Name}
    (distinct : names.Nodup) (keys : List Key) (stores : Name → State) (total : ℕ)
    (mapping : AList fun _ : Name => List Key) (fresh : ∀ name ∈ names, name ∉ mapping)
    (name : Name) (key : Key) :
    manager.pinCount
        (manager.containsLoop totalKeys pin names keys ⟨stores, total, mapping⟩).stores name key =
      manager.pinCount stores name key + if pin then
        manager.recorded (manager.containsLoop totalKeys pin names keys
          ⟨stores, total, mapping⟩).blockMapping name key - manager.recorded mapping name key
      else 0 := by
  induction names generalizing keys stores total mapping with
  | nil => simp [containsLoop_nil]
  | cons asked names ih =>
      obtain ⟨notLater, distinct⟩ := List.nodup_cons.mp distinct
      have pinned := pinCount_update manager keys pin stores asked name key
      simp only [containsLoop_cons]
      generalize (manager.backend asked).batchedContains keys
        (if asked ≠ manager.pdBackend then pin else false) (stores asked) = answer at pinned ⊢
      have later := notMem_insert fresh notLater (keys.take answer.2)
      -- what the mapping gains is what the backend has pinned
      have gained : manager.pinCount (Function.update stores asked answer.1) name key =
          manager.pinCount stores name key + if pin then
            manager.recorded (mapping.insert asked (keys.take answer.2)) name key -
              manager.recorded mapping name key else 0 := by
        rw [pinned, recorded_insert]
        by_cases same : name = asked
        · subst same
          rw [recorded_of_notMem (fresh name (List.mem_cons_self ..))]
          cases pin <;> simp
        · simp [same]
      split
      · rename_i none
        rw [ih distinct keys _ total mapping fun other member =>
          fresh other (List.mem_cons_of_mem _ member), pinned, none]
        simp
      · split
        · exact gained
        · rw [ih distinct _ _ _ _ later, gained]
          cases pin
          · simp
          · simp only [↓reduceIte]
            ring

/-! ### The operations -/

variable (active : Name → Bool) (keys : List Key) (pin : Bool) (stores : Name → State)

/-- The backends that a mapping names are registered. -/
theorem mem_storageBackends {name : Name}
    (mapped : name ∈ (manager.batchedContains active keys pin stores).blockMapping) :
    name ∈ manager.storageBackends :=
  (mem_containsLoop mapped).elim (fun member => (List.mem_filter.mp member).1)
    fun member => absurd member (AList.notMem_empty name)

variable (manager) in
/-- What a lookup finds does not depend on pins. -/
theorem batchedContains_congr {stores other : Name → State} (same : manager.SameHits stores other)
    (pin' : Bool) :
    (manager.batchedContains active keys pin stores).totalHitChunks =
        (manager.batchedContains active keys pin' other).totalHitChunks ∧
      (manager.batchedContains active keys pin stores).blockMapping =
        (manager.batchedContains active keys pin' other).blockMapping ∧
      manager.SameHits (manager.batchedContains active keys pin stores).stores stores :=
  containsLoop_congr _ pin pin' _ keys same 0 ∅

theorem pinCount_batchedContains (name : Name) (key : Key) :
    manager.pinCount (manager.batchedContains active keys pin stores).stores name key =
      manager.pinCount stores name key + if pin then
        manager.recorded (manager.batchedContains active keys pin stores).blockMapping name key
      else 0 := by
  have pinned := pinCount_containsLoop manager keys.length pin
    (manager.nodup.filter active) keys stores 0 ∅ (fun name _ => AList.notMem_empty name) name key
  rwa [recorded_empty, sub_zero] at pinned

/-- A single backend that has every key has them all. -/
theorem batchedContains_single {location : Name} {found : List Key}
    (single : (manager.batchedContains active keys pin stores).blockMapping.entries =
      [⟨location, found⟩])
    (full : (manager.batchedContains active keys pin stores).totalHitChunks = keys.length) :
    found = keys := by
  obtain ⟨hits, _, total, shared⟩ := containsLoop_keys manager keys.length pin
    (manager.nodup.filter active) keys stores 0 ∅ fun name _ => AList.notMem_empty name
  rw [batchedContains, activeBackends] at single full
  rw [single] at shared
  rw [total, zero_add] at full
  rw [full, List.take_length] at shared
  simpa using shared

end StorageManager

/-! ### Unpinning -/

/-- Unpin keys that are pinned often enough. -/
theorem PinBackend.pinCount_unpinAll (backend : PinBackend Key State Change) {keys : List Key}
    {state : State}
    (held : backend.implementsPins → ∀ key, (keys.count key : ℤ) ≤ backend.pinCount state key)
    (key : Key) :
    backend.pinCount (keys.foldl (fun state key => backend.unpin key state) state) key =
      backend.pinCount state key -
        if backend.implementsPins then (keys.count key : ℤ) else 0 := by
  cases implements : backend.implementsPins with
  | false =>
      rw [backend.pinCount_of_ignored _ key implements, backend.pinCount_of_ignored _ key implements]
      rfl
  | true =>
      replace held := held implements
      simp only [↓reduceIte]
      induction keys generalizing state with
      | nil => simp
      | cons first keys ih =>
          have unpinned := backend.pinCount_unpin first state
          have enough : 0 < backend.pinCount state first := by
            have := held first
            rw [List.count_cons_self] at this
            omega
          have remain (key : Key) :
              (keys.count key : ℤ) ≤ backend.pinCount (backend.unpin first state) key := by
            have := held key
            rw [unpinned key enough]
            rw [List.count_cons] at this
            by_cases same : first = key <;> simp [same] at this ⊢ <;> omega
          rw [List.foldl_cons, ih remain, unpinned key enough, List.count_cons]
          by_cases same : first = key <;> simp [same]
          ring

namespace StorageManager

variable {manager : StorageManager Name Key State Change}

/-- Each registered backend in the range unpins once. -/
theorem foldl_unpin_apply (unpinAll : Name → State → State) {names : List Name}
    (distinct : names.Nodup) (locations : List Name) (stores : Name → State) (name : Name) :
    names.foldl (fun stores name =>
        if name ∈ locations then Function.update stores name (unpinAll name (stores name))
        else stores) stores name =
      if name ∈ names ∧ name ∈ locations then unpinAll name (stores name) else stores name := by
  induction names generalizing stores with
  | nil => simp
  | cons first names ih =>
      obtain ⟨notLater, distinct⟩ := List.nodup_cons.mp distinct
      rw [List.foldl_cons, ih distinct]
      by_cases same : name = first
      · subst same
        by_cases inRange : name ∈ locations <;> simp [notLater, inRange]
      · by_cases inRange : first ∈ locations <;> simp [same, inRange]

variable (manager) in
/-- Unpin the keys of one location. -/
theorem pinCount_batchedUnpin {keys : List Key} {location : Name} {stores : Name → State}
    (held : (manager.backend location).implementsPins →
      ∀ key, (keys.count key : ℤ) ≤ manager.pinCount stores location key)
    (registered : location ∈ manager.storageBackends) (name : Name) (key : Key) :
    manager.pinCount (manager.batchedUnpin keys [location] stores) name key =
      manager.pinCount stores name key -
        if name = location ∧ (manager.backend location).implementsPins then
          (keys.count key : ℤ) else 0 := by
  rw [pinCount, batchedUnpin, foldl_unpin_apply
    (fun name state => keys.foldl (fun state key => (manager.backend name).unpin key state) state)
    manager.nodup]
  by_cases same : name = location
  · subst same
    simp only [registered, List.mem_singleton, and_self, ↓reduceIte, true_and]
    exact (manager.backend name).pinCount_unpinAll held key
  · simp [same, pinCount]

end StorageManager

end LMCacheHcu.Lookup
