import LMCacheHcu.Foundation.WhileLoop
import LMCacheHcu.Xds.State

/-! # Eviction

`_eviction` asks the cache policy for candidates until there is room for the new
entry or no candidate is left. The policy is not part of the repository: it is a
parameter, with what the loop relies on as a structure of its own.
-/

namespace LMCacheHcu.Xds

open Storage WhileLoop

variable {Key Payload : Type} [DecidableEq Key]

/-! ### The policy -/

/-- The part of a cache policy that eviction uses. -/
structure CachePolicy (Key : Type) where
  State : Type
  getEvictCandidates : State → (AList fun _ : Key => Entry Key) → ℕ → List Key × State
  updateOnForceEvict : State → Key → State

/-- A policy whose candidates are distinct evictable entries of the cache, as
long as its state agrees with the cache, which asking and evicting preserve. -/
structure CachePolicy.Honest (policy : CachePolicy Key)
    (Agrees : policy.State → (AList fun _ : Key => Entry Key) → Prop) : Prop where
  distinct : ∀ state cache, Agrees state cache → (policy.getEvictCandidates state cache 1).1.Nodup
  evictable : ∀ state cache, Agrees state cache →
    ∀ key ∈ (policy.getEvictCandidates state cache 1).1,
      ∃ entry, cache.lookup key = some entry ∧ entry.canEvict = true
  asked : ∀ state cache, Agrees state cache →
    Agrees (policy.getEvictCandidates state cache 1).2 cache
  evicted : ∀ state cache key, Agrees state cache → key ∈ cache →
    Agrees (policy.updateOnForceEvict state key) (cache.erase key)

/-! ### The loop -/

/-- The state of the loop. The code keeps the paths of the evicted entries. -/
structure EvictState (policy : CachePolicy Key) (Payload : Type) where
  policyState : policy.State
  shared : Shared Key Payload
  evicted : List (Key × Entry Key)

variable (policy : CachePolicy Key)

/-- Pop one candidate, tell the policy, and credit its size. -/
def EvictState.pop {policy : CachePolicy Key} (state : EvictState policy Payload) (key : Key)
    (entry : Entry Key) : EvictState policy Payload where
  policyState := policy.updateOnForceEvict state.policyState key
  shared := (state.shared.popCredit key).untrack key
  evicted := state.evicted ++ [(key, entry)]

/-- The loop over the candidates of one pass; the key is the one of a `KeyError`. -/
def popCandidates : List Key → EvictState policy Payload → EvictState policy Payload × Option Key
  | [], state => (state, none)
  | key :: keys, state =>
      match state.shared.find key with
      | none => (state, some key)
      | some entry => popCandidates keys (state.pop key entry)

/-- How the loop ends. -/
inductive EvictionEnd (Key : Type)
  | room
  | noCandidates
  | keyError (key : Key)
deriving DecidableEq

/-- One pass of the loop. -/
def evictionPass (maxXdsSize requiredSize : ℤ) (state : EvictState policy Payload) :
    Pass (EvictState policy Payload) (EvictState policy Payload × EvictionEnd Key) :=
  if state.shared.currentCacheSize + requiredSize ≤ maxXdsSize then .leave (state, .room)
  else
    let asked := policy.getEvictCandidates state.policyState state.shared.hotCache 1
    if asked.1 = [] then .leave ({ state with policyState := asked.2 }, .noCandidates)
    else
      match popCandidates policy asked.1 { state with policyState := asked.2 } with
      | (next, none) => .again next
      | (next, some key) => .leave (next, .keyError key)

/-- The unlinks behind the lock. A file that the system does not remove stays. -/
def unlinkEvicted (refuses : FilePath Key → Bool) (evicted : List (Key × Entry Key))
    (shared : Shared Key Payload) : Shared Key Payload :=
  (evicted.flatMap fun item => [FilePath.sidecar item.2.path, .data item.2.path]).foldl
    (fun shared file => if refuses file then shared else shared.unlinkFile file) shared

/-- What follows the loop: the reservation and the unlinks, or the exception. -/
def finishEviction {policy : CachePolicy Key} (refuses : FilePath Key → Bool) (requiredSize : ℤ) :
    EvictState policy Payload × EvictionEnd Key → EvictState policy Payload × Except Key Bool
  | (state, .room) =>
      ({ state with
          shared := unlinkEvicted refuses state.evicted (state.shared.charge requiredSize) },
        .ok true)
  | (state, .noCandidates) =>
      ({ state with shared := unlinkEvicted refuses state.evicted state.shared }, .ok false)
  | (state, .keyError key) => (state, .error key)

/-- `_eviction`, for a bounded number of passes of its loop. -/
def eviction (refuses : FilePath Key → Bool) (maxXdsSize requiredSize : ℤ) (passes : ℕ)
    (policyState : policy.State) (shared : Shared Key Payload) :
    Option (EvictState policy Payload × Except Key Bool) :=
  (run (evictionPass policy maxXdsSize requiredSize) passes ⟨policyState, shared, []⟩).map
    (finishEviction refuses requiredSize)

variable {policy} {Agrees : policy.State → (AList fun _ : Key => Entry Key) → Prop}
  {before : Shared Key Payload} {state : EvictState policy Payload}
  {maxXdsSize requiredSize : ℤ}

/-! ### One pop -/

/-- What the loop has done so far. -/
structure Evicting (Agrees : policy.State → (AList fun _ : Key => Entry Key) → Prop)
    (before : Shared Key Payload) (state : EvictState policy Payload) : Prop where
  agrees : Agrees state.policyState state.shared.hotCache
  distinct : (state.evicted.map Prod.fst).Nodup
  evictable : ∀ item ∈ state.evicted,
    before.find item.1 = some item.2 ∧ item.2.canEvict = true
  index : ∀ key, state.shared.find key =
    if key ∈ state.evicted.map Prod.fst then none else before.find key
  counter : state.shared.currentCacheSize =
    before.currentCacheSize - (state.evicted.map fun item => item.2.size).sum

theorem EvictState.find_pop (key other : Key) (entry : Entry Key) :
    (state.pop key entry).shared.find other =
      if other = key then none else state.shared.find other :=
  state.shared.find_popCredit key other

theorem EvictState.length_pop {key : Key} {entry : Entry Key}
    (here : state.shared.find key = some entry) :
    (state.pop key entry).shared.hotCache.keys.length + 1 = state.shared.hotCache.keys.length := by
  have member : key ∈ state.shared.hotCache := AList.lookup_isSome.mp (by
    rw [← Shared.find, here]
    rfl)
  have erased : (state.pop key entry).shared.hotCache.keys = state.shared.hotCache.keys.erase key :=
    AList.keys_erase key state.shared.hotCache
  rw [erased]
  exact List.length_erase_add_one member

theorem Evicting.pop (honest : policy.Honest Agrees) (evicting : Evicting Agrees before state)
    {key : Key} {entry : Entry Key} (here : state.shared.find key = some entry)
    (evictable : entry.canEvict = true) : Evicting Agrees before (state.pop key entry) := by
  have index := evicting.index key
  rw [here] at index
  have fresh : key ∉ state.evicted.map Prod.fst := by
    intro known
    rw [if_pos known] at index
    cases index
  rw [if_neg fresh] at index
  have keys : (state.pop key entry).evicted.map Prod.fst =
      state.evicted.map Prod.fst ++ [key] := List.map_append
  refine ⟨?_, ?_, ?_, fun other => ?_, ?_⟩
  · apply honest.evicted _ _ _ evicting.agrees
    exact AList.lookup_isSome.mp (by rw [← Shared.find, here]; rfl)
  · rw [keys, ← List.concat_eq_append]
    exact evicting.distinct.concat fresh
  · intro item member
    rcases List.mem_append.mp member with earlier | this
    · exact evicting.evictable item earlier
    · obtain rfl := List.mem_singleton.mp this
      exact ⟨index.symm, evictable⟩
  · rw [EvictState.find_pop, evicting.index, keys]
    simp only [List.mem_append, List.mem_singleton]
    by_cases same : other = key
    · rw [if_pos same, if_pos (.inr same)]
    · simp only [same, or_false, if_false]
  · have size : state.shared.entrySize key = entry.size := by
      rw [Shared.entrySize, here]
      rfl
    have credited : (state.pop key entry).shared.currentCacheSize =
        state.shared.currentCacheSize + -state.shared.entrySize key := rfl
    rw [credited, size, evicting.counter]
    simp only [EvictState.pop, List.map_append, List.map_cons, List.map_nil, List.sum_append,
      List.sum_cons, List.sum_nil]
    ring

/-! ### One pass -/

/-- Distinct evictable candidates are all popped. -/
theorem Evicting.popCandidates (honest : policy.Honest Agrees)
    (evicting : Evicting Agrees before state) {keys : List Key} (distinct : keys.Nodup)
    (present : ∀ key ∈ keys, ∃ entry, state.shared.find key = some entry ∧
      entry.canEvict = true) :
    ∃ next, popCandidates policy keys state = (next, none) ∧ Evicting Agrees before next ∧
      next.shared.hotCache.keys.length + keys.length = state.shared.hotCache.keys.length := by
  induction keys generalizing state with
  | nil => exact ⟨state, rfl, evicting, rfl⟩
  | cons key keys ih =>
      obtain ⟨⟨entry, here, evictable⟩, others⟩ := List.forall_mem_cons.mp present
      obtain ⟨fresh, rest⟩ := List.nodup_cons.mp distinct
      have still : ∀ other ∈ keys, ∃ entry', (state.pop key entry).shared.find other =
          some entry' ∧ entry'.canEvict = true := by
        intro other member
        rw [EvictState.find_pop, if_neg fun same : other = key => fresh (same ▸ member)]
        exact others other member
      obtain ⟨next, popped, kept, shrinks⟩ := ih (evicting.pop honest here evictable) rest still
      refine ⟨next, ?_, kept, ?_⟩
      · rw [Xds.popCandidates, here]
        exact popped
      · have shorter := EvictState.length_pop here
        rw [List.length_cons]
        omega

/-- Asking the policy changes nothing but its state. -/
theorem Evicting.ask (honest : policy.Honest Agrees) (evicting : Evicting Agrees before state) :
    Evicting Agrees before { state with
      policyState :=
        (policy.getEvictCandidates state.policyState state.shared.hotCache 1).2 } where
  agrees := honest.asked _ _ evicting.agrees
  distinct := evicting.distinct
  evictable := evicting.evictable
  index := evicting.index
  counter := evicting.counter

/-- What holds when the loop ends: it never ends with a key error, and it ends
with room exactly when the credited counter leaves room. -/
def Ended (Agrees : policy.State → (AList fun _ : Key => Entry Key) → Prop)
    (before : Shared Key Payload) (maxXdsSize requiredSize : ℤ)
    (result : EvictState policy Payload × EvictionEnd Key) : Prop :=
  Evicting Agrees before result.1 ∧
    ((result.2 = .room ∧ result.1.shared.currentCacheSize + requiredSize ≤ maxXdsSize) ∨
      (result.2 = .noCandidates ∧
        maxXdsSize < result.1.shared.currentCacheSize + requiredSize))

/-- **The loop is total.** Each pass that goes on has popped an entry. -/
theorem total_evictionPass (honest : policy.Honest Agrees) (before : Shared Key Payload)
    (maxXdsSize requiredSize : ℤ) :
    Total (evictionPass policy maxXdsSize requiredSize) (Evicting Agrees before)
      (fun state => state.shared.hotCache.keys.length)
      (Ended Agrees before maxXdsSize requiredSize) where
  again := by
    intro state next evicting step
    unfold evictionPass at step
    simp only at step
    split at step
    · cases step
    split at step
    · cases step
    rename_i some
    obtain ⟨after, popped, kept, shrinks⟩ := (evicting.ask honest).popCandidates honest
      (honest.distinct _ _ evicting.agrees) (honest.evictable _ _ evicting.agrees)
    rw [popped] at step
    cases step
    have positive := List.length_pos_iff.mpr some
    exact ⟨kept, by simp only at shrinks; omega⟩
  leave := by
    intro state result evicting step
    unfold evictionPass at step
    simp only at step
    split at step
    · rename_i room
      cases step
      exact ⟨evicting, .inl ⟨rfl, room⟩⟩
    rename_i pressed
    split at step
    · cases step
      exact ⟨evicting.ask honest, .inr ⟨rfl, not_le.mp pressed⟩⟩
    obtain ⟨after, popped, _⟩ := (evicting.ask honest).popCandidates honest
      (honest.distinct _ _ evicting.agrees) (honest.evictable _ _ evicting.agrees)
    rw [popped] at step
    cases step

/-! ### The loop of the machine -/

/-- The machine has evicted the same entries when it was given the same candidates. -/
def Follows (maxXdsSize requiredSize : ℤ) (before : Shared Key Payload)
    (state : EvictState policy Payload) : Prop :=
  ∀ later, before.evictLoop maxXdsSize requiredSize (state.evicted.map Prod.fst ++ later) [] =
    state.shared.evictLoop maxXdsSize requiredSize later
      (state.evicted.map fun item => item.2.path)

theorem Follows.pop (follows : Follows maxXdsSize requiredSize before state)
    (pressed : ¬ state.shared.currentCacheSize + requiredSize ≤ maxXdsSize) {key : Key}
    {entry : Entry Key} (here : state.shared.find key = some entry)
    (evictable : entry.canEvict = true) :
    Follows maxXdsSize requiredSize before (state.pop key entry) := by
  intro later
  have step := follows (key :: later)
  rw [Shared.evictLoop, if_neg pressed] at step
  simp only [here, evictable, if_true] at step
  simp only [EvictState.pop, List.map_append, List.map_cons, List.map_nil, List.append_assoc,
    List.singleton_append]
  exact step

/-- A policy that names one candidate, as it is asked to. -/
def CachePolicy.Single (policy : CachePolicy Key) : Prop :=
  ∀ state cache, (policy.getEvictCandidates state cache 1).1.length ≤ 1

theorem Follows.again (honest : policy.Honest Agrees) (single : policy.Single)
    (evicting : Evicting Agrees before state)
    (follows : Follows maxXdsSize requiredSize before state) {next : EvictState policy Payload}
    (step : evictionPass policy maxXdsSize requiredSize state = .again next) :
    Follows maxXdsSize requiredSize before next := by
  have few := single state.policyState state.shared.hotCache
  have evictable := honest.evictable _ _ evicting.agrees
  unfold evictionPass at step
  simp only at step
  split at step
  · cases step
  rename_i pressed
  split at step
  · cases step
  rename_i nonempty
  obtain ⟨key, named⟩ := List.length_eq_one_iff.mp
    (le_antisymm few (List.length_pos_iff.mpr nonempty))
  obtain ⟨entry, here, canEvict⟩ := evictable key (named ▸ List.mem_cons_self)
  have found : state.shared.find key = some entry := here
  have asked : Follows maxXdsSize requiredSize before { state with
      policyState :=
        (policy.getEvictCandidates state.policyState state.shared.hotCache 1).2 } := follows
  rw [named] at step
  simp only [popCandidates, found] at step
  cases step
  exact asked.pop pressed found canEvict

theorem Follows.leave (follows : Follows maxXdsSize requiredSize before state)
    {result : EvictState policy Payload × EvictionEnd Key}
    (step : evictionPass policy maxXdsSize requiredSize state = .leave result)
    (orderly : ∀ key, result.2 ≠ .keyError key) :
    Follows maxXdsSize requiredSize before result.1 := by
  unfold evictionPass at step
  simp only at step
  split at step
  · cases step
    exact follows
  split at step
  · cases step
    exact follows
  split at step
  · cases step
  · cases step
    exact absurd rfl (orderly _)

/-! ### The whole loop -/

theorem Ended.orderly {result : EvictState policy Payload × EvictionEnd Key}
    (ended : Ended Agrees before maxXdsSize requiredSize result) (key : Key) :
    result.2 ≠ .keyError key := by
  intro failed
  rcases ended.2 with ⟨room, _⟩ | ⟨none, _⟩
  · rw [room] at failed
    cases failed
  · rw [none] at failed
    cases failed

/-- Where the loop ends, and what follows then. -/
theorem exists_ended (honest : policy.Honest Agrees) (refuses : FilePath Key → Bool)
    (maxXdsSize requiredSize : ℤ) {policyState : policy.State} {before : Shared Key Payload}
    (agrees : Agrees policyState before.hotCache) :
    ∃ result, Ended Agrees before maxXdsSize requiredSize result ∧
      (policy.Single → Follows maxXdsSize requiredSize before result.1) ∧
      ∀ passes, before.hotCache.keys.length < passes →
        eviction policy refuses maxXdsSize requiredSize passes policyState before =
          some (finishEviction refuses requiredSize result) := by
  have start : Evicting Agrees before ⟨policyState, before, []⟩ :=
    ⟨agrees, List.nodup_nil, fun item member => absurd member List.not_mem_nil, fun key => rfl,
      (sub_zero _).symm⟩
  have loop := total_evictionPass honest before maxXdsSize requiredSize
  have total : Total (evictionPass policy maxXdsSize requiredSize)
      (fun state => Evicting Agrees before state ∧
        (policy.Single → Follows maxXdsSize requiredSize before state))
      (fun state => state.shared.hotCache.keys.length)
      (fun result => Ended Agrees before maxXdsSize requiredSize result ∧
        (policy.Single → Follows maxXdsSize requiredSize before result.1)) := by
    refine ⟨fun state next holds step => ?_, fun state result holds step => ?_⟩
    · obtain ⟨kept, smaller⟩ := loop.again state next holds.1 step
      exact ⟨⟨kept, fun single => (holds.2 single).again honest single holds.1 step⟩, smaller⟩
    · have ended := loop.leave state result holds.1 step
      exact ⟨ended, fun single => (holds.2 single).leave step ended.orderly⟩
  obtain ⟨result, ⟨ended, follows⟩, runs⟩ :=
    total.exists_result ⟨start, fun _ later => rfl⟩
  refine ⟨result, ended, follows, fun passes enough => ?_⟩
  rw [eviction, runs passes enough]
  rfl

/-! ### The unlinks -/

/-- Unlinking touches neither the index nor the counter. -/
theorem unlinkEvicted_index (refuses : FilePath Key → Bool) (evicted : List (Key × Entry Key))
    (shared : Shared Key Payload) :
    (unlinkEvicted refuses evicted shared).hotCache = shared.hotCache ∧
      (unlinkEvicted refuses evicted shared).currentCacheSize = shared.currentCacheSize := by
  unfold unlinkEvicted
  generalize (evicted.flatMap fun item =>
    [FilePath.sidecar item.2.path, .data item.2.path]) = files
  induction files generalizing shared with
  | nil => exact ⟨rfl, rfl⟩
  | cons file files ih =>
      rw [List.foldl_cons]
      obtain ⟨index, counter⟩ := ih (if refuses file then shared else shared.unlinkFile file)
      rw [index, counter]
      split
      · exact ⟨rfl, rfl⟩
      · cases file <;> exact ⟨rfl, rfl⟩

/-! ### The whole eviction -/

/-- What `_eviction` has done when it returns. -/
structure Evicted (before after : Shared Key Payload) (maxXdsSize requiredSize : ℤ)
    (evicted : List (Key × Entry Key)) (success : Bool) : Prop where
  /-- No entry is popped twice. -/
  distinct : (evicted.map Prod.fst).Nodup
  /-- The popped entries were in the index and evictable. -/
  evictable : ∀ item ∈ evicted, before.find item.1 = some item.2 ∧ item.2.canEvict = true
  /-- They are the ones that are gone. -/
  index : ∀ key, after.find key =
    if key ∈ evicted.map Prod.fst then none else before.find key
  /-- Their sizes are credited, and the reservation is made on success only. -/
  counter : after.currentCacheSize = before.currentCacheSize -
    (evicted.map fun item => item.2.size).sum + if success then requiredSize else 0
  room : success = true ↔ before.currentCacheSize -
    (evicted.map fun item => item.2.size).sum + requiredSize ≤ maxXdsSize

theorem Evicting.evicted (evicting : Evicting Agrees before state) {after : Shared Key Payload}
    {success : Bool} (index : after.hotCache = state.shared.hotCache)
    (counter : after.currentCacheSize =
      state.shared.currentCacheSize + if success then requiredSize else 0)
    (room : success = true ↔ state.shared.currentCacheSize + requiredSize ≤ maxXdsSize) :
    Evicted before after maxXdsSize requiredSize state.evicted success where
  distinct := evicting.distinct
  evictable := evicting.evictable
  index key := by
    rw [← evicting.index key]
    exact congrArg (AList.lookup key) index
  counter := by rw [counter, evicting.counter]
  room := by rw [room, evicting.counter]

/-- **Eviction.** With an honest policy it returns after at most one pass for
each entry, and has popped evictable entries only. -/
theorem eviction_returns (honest : policy.Honest Agrees) (refuses : FilePath Key → Bool)
    (maxXdsSize requiredSize : ℤ) {policyState : policy.State} {before : Shared Key Payload}
    (agrees : Agrees policyState before.hotCache) :
    ∃ final success, Evicted before final.shared maxXdsSize requiredSize final.evicted success ∧
      ∀ passes, before.hotCache.keys.length < passes →
        eviction policy refuses maxXdsSize requiredSize passes policyState before =
          some (final, .ok success) := by
  obtain ⟨⟨state, ending⟩, ⟨evicting, ends⟩, _, runs⟩ :=
    exists_ended honest refuses maxXdsSize requiredSize agrees
  simp only at evicting ends
  rcases ends with ⟨rfl, room⟩ | ⟨rfl, pressed⟩
  · obtain ⟨index, counter⟩ := unlinkEvicted_index refuses state.evicted
      (state.shared.charge requiredSize)
    exact ⟨(finishEviction refuses requiredSize (state, .room)).1, true,
      evicting.evicted index counter (iff_of_true rfl room), runs⟩
  · obtain ⟨index, counter⟩ := unlinkEvicted_index refuses state.evicted state.shared
    exact ⟨(finishEviction refuses requiredSize (state, .noCandidates)).1, false,
      evicting.evicted index (counter.trans (add_zero _).symm)
        (iff_of_false Bool.false_ne_true (not_le.mpr pressed)), runs⟩

/-- The policy that evicts the entries in the order in which they came. A new
entry is the first of the list. -/
def oldestFirst (Key : Type) : CachePolicy Key where
  State := Unit
  getEvictCandidates _ cache count :=
    (((cache.entries.reverse.filter fun entry => entry.2.canEvict).map Sigma.fst).take count, ())
  updateOnForceEvict _ _ := ()

theorem oldestFirst_honest : (oldestFirst Key).Honest fun _ _ => True where
  distinct _ cache _ := by
    have nodup : (cache.entries.map Sigma.fst).Nodup := cache.nodupKeys
    have backwards : (cache.entries.reverse.map Sigma.fst).Nodup := by
      rw [List.map_reverse]
      exact List.nodup_reverse.mpr nodup
    exact backwards.sublist ((List.take_sublist _ _).trans (List.filter_sublist.map _))
  evictable _ cache _ key member := by
    obtain ⟨⟨_, entry⟩, listed, rfl⟩ := List.mem_map.mp (List.mem_of_mem_take member)
    obtain ⟨inside, evictable⟩ := List.mem_filter.mp listed
    exact ⟨entry, List.mem_dlookup cache.nodupKeys (List.mem_reverse.mp inside), evictable⟩
  asked _ _ _ := trivial
  evicted _ _ _ _ _ := trivial

/-- An index with a pinned entry of 5 bytes and an older one of 7 bytes. -/
def onePinned : Shared ℕ Unit where
  hotCache := ((∅ : AList fun _ : ℕ => Entry ℕ).insert 0
    ⟨⟨⟨0, .legacy⟩, 7, [], .float16, none⟩, 0, 0⟩).insert 1
      ⟨⟨⟨1, .legacy⟩, 5, [], .float16, none⟩, 1, 1⟩
  currentCacheSize := 12
  putTasks := []
  tracked := {0, 1}
  dataFiles _ := none
  sidecars _ := none
  nextStamp := 2
  nextObject := 0
  released := []

theorem eviction_returns_onePinned :
    ∃ final success, Evicted onePinned final.shared 12 6 final.evicted success ∧
      ∀ passes, onePinned.hotCache.keys.length < passes →
        eviction (oldestFirst ℕ) (fun _ => false) 12 6 passes () onePinned =
          some (final, .ok success) :=
  eviction_returns oldestFirst_honest (fun _ => false) 12 6 trivial

/-- **Refinement.** With a policy that names one candidate, `_eviction` is the
machine's loop on the keys that it has evicted, and the unlinks. -/
theorem eviction_refines (honest : policy.Honest Agrees) (single : policy.Single)
    (refuses : FilePath Key → Bool) (maxXdsSize requiredSize : ℤ) {policyState : policy.State}
    {before : Shared Key Payload} (agrees : Agrees policyState before.hotCache) :
    ∃ final success locked,
      before.evictLoop maxXdsSize requiredSize (final.evicted.map Prod.fst) [] =
        some (locked, final.evicted.map fun item => item.2.path, success) ∧
      final.shared = unlinkEvicted refuses final.evicted locked ∧
      ∀ passes, before.hotCache.keys.length < passes →
        eviction policy refuses maxXdsSize requiredSize passes policyState before =
          some (final, .ok success) := by
  obtain ⟨⟨state, ending⟩, ⟨_, ends⟩, follows, runs⟩ :=
    exists_ended honest refuses maxXdsSize requiredSize agrees
  have same := follows single []
  rw [List.append_nil, Shared.evictLoop] at same
  simp only at ends same
  rcases ends with ⟨rfl, room⟩ | ⟨rfl, pressed⟩
  · rw [if_pos room] at same
    exact ⟨(finishEviction refuses requiredSize (state, .room)).1, true, _, same, rfl, runs⟩
  · rw [if_neg (not_le.mpr pressed)] at same
    exact ⟨(finishEviction refuses requiredSize (state, .noCandidates)).1, false, _, same, rfl,
      runs⟩

end LMCacheHcu.Xds
