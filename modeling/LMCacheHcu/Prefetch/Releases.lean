import LMCacheHcu.Prefetch.AsyncRetrieve
import LMCacheHcu.Prefetch.Responses

/-! # One release for every prefetched object

The objects that a prefetch delivers are let go of when the loading event is
cleaned up, one by one and all of them. What a retrieve releases before that
comes on top, so an object is released once only if the retrieve released none.
-/

namespace LMCacheHcu.Prefetch

open LMCacheHcu.Engine

variable {LookupId Location Key Obj Storage : Type}

/-- What the engine relies on: an event is found under its id until it is
popped, with the status it was last given. -/
structure EventManager.Lawful {Result : Type} (manager : EventManager LookupId Result) : Prop where
  future_add : ∀ lookupId future events,
    manager.getEventFuture (manager.addEvent lookupId future events) lookupId = some future
  future_update : ∀ lookupId status events,
    manager.getEventFuture (manager.updateEventStatus lookupId status events) lookupId =
      manager.getEventFuture events lookupId
  status_update : ∀ lookupId status future events,
    manager.getEventFuture events lookupId = some future →
      manager.getEventStatus (manager.updateEventStatus lookupId status events) lookupId = status
  future_pop : ∀ lookupId future events, manager.getEventStatus events lookupId = .done →
    manager.getEventFuture events lookupId = some future →
      (manager.popEvent lookupId events).1 = some future

theorem EventManager.dictionary_lawful (LookupId Result : Type) [DecidableEq LookupId] :
    (EventManager.dictionary LookupId Result).Lawful where
  future_add := by
    intro lookupId future (events : LookupId → Option (EventStatus × Result))
    exact congrArg (Option.map Prod.snd) (Function.update_self lookupId _ events)
  future_update := by
    intro lookupId status (events : LookupId → Option (EventStatus × Result))
    refine (congrArg (Option.map Prod.snd) (Function.update_self lookupId _ events)).trans ?_
    change _ = Option.map Prod.snd (events lookupId)
    cases events lookupId <;> rfl
  status_update := by
    intro lookupId status future (events : LookupId → Option (EventStatus × Result)) here
    obtain ⟨event, found, -⟩ := Option.map_eq_some_iff.mp here
    refine (congrArg (fun event => (Option.map Prod.fst event).getD .notFound)
      (Function.update_self lookupId _ events)).trans ?_
    rw [found]
    rfl
  future_pop lookupId future events _ here := here

/-- No loading event is registered under the id. -/
def Unregistered {Result : Type} (manager : EventManager LookupId Result) (lookupId : LookupId)
    (events : manager.State) : Prop :=
  manager.getEventStatus events lookupId = .notFound ∧
    manager.getEventFuture events lookupId = none

/-- The objects that the loading tasks of a lookup deliver. -/
def deliveredObjs (backends : List (PrefetchBackend Key Obj)) (keys : List Key) : List Obj :=
  (lookupTiers keys.length backends keys 0).flatMap LoadingTask.results

/-- The same objects with the keys that `gather_with_keys` gives them. -/
def deliveredPairs (backends : List (PrefetchBackend Key Obj)) (keys : List Key) :
    List (Key × Obj) :=
  (lookupTiers keys.length backends keys 0).flatMap fun task => task.keys.zip task.results

def deliveredKeys (backends : List (PrefetchBackend Key Obj)) (keys : List Key) : List Key :=
  (deliveredPairs backends keys).map Prod.fst

/-- Every one of the objects was released once and unpinned once in between. -/
structure ReleasedOnce {manager : EventManager LookupId (Future Key Obj)} (objs : List Obj)
    (before after : LoadingState manager) : Prop where
  released : after.refCountDowns.Perm (before.refCountDowns ++ objs)
  unpinned : after.unpins.Perm (before.unpins ++ objs)

/-- The chunks a retrieve asks for take every delivered key before the first
key that was not delivered. A retrieve that processes no tokens, or whose mask
is misaligned, need not take any. -/
def AsyncRetrieveCall.UsesAll (call : AsyncRetrieveCall Key) (delivered : List Key)
    [DecidableEq Key] : Prop :=
  call.healthy = true → call.passive = false → ∀ chunkInfos, call.tokenChunks = .ok chunkInfos →
    ∀ key ∈ delivered, key ∈ (chunkInfos.map ChunkInfo.key).takeWhile (· ∈ delivered)

def Ending.UsesAll [DecidableEq Key] (ending : Ending Key) (delivered : List Key) : Prop :=
  match ending with
  | .retrieved call => call.UsesAll delivered
  | .aborted => True

/-! ### The future of a lookup -/

theorem length_results_le (numTotalChunks : Nat) (backends : List (PrefetchBackend Key Obj))
    (keys : List Key) (numTotalHitChunks : Nat) :
    ∀ task ∈ lookupTiers numTotalChunks backends keys numTotalHitChunks,
      task.results.length ≤ task.keys.length := by
  induction backends generalizing keys numTotalHitChunks with
  | nil => simp [lookupTiers]
  | cons backend backends ih =>
      intro task member
      rw [lookupTiers] at member
      split at member
      · exact ih keys numTotalHitChunks task member
      · rcases List.mem_cons.mp member with rfl | later
        · exact backend.get_le _
        · split at later
          · cases later
          · exact ih _ _ task later

theorem deliveredPairs_objs (backends : List (PrefetchBackend Key Obj)) (keys : List Key) :
    (deliveredPairs backends keys).map Prod.snd = deliveredObjs backends keys := by
  rw [deliveredPairs, deliveredObjs, List.map_flatMap]
  refine List.flatMap_congr fun task member => ?_
  exact List.map_snd_zip (length_results_le _ _ _ _ task member)

theorem flatten_gatherWithKeys (backends : List (PrefetchBackend Key Obj)) (keys : List Key) :
    (gatherWithKeys (lookupTiers keys.length backends keys 0)).flatten =
      (deliveredPairs backends keys).map fun pair => TierItem.pair pair.1 pair.2 := by
  rw [gatherWithKeys_eq_keyed, flatten_keyed, deliveredPairs, List.flatMap_def]

variable {manager : EventManager LookupId (Future Key Obj)}

/-- On pairs the tier loop changes nothing, whatever it ends with. -/
theorem countRetrieved_state (res : List (List (Key × Obj))) (tierExpectedChunks : List Nat)
    (total : Nat) (state : LoadingState manager) :
    (countRetrieved (keyed res) tierExpectedChunks total state).1 = state := by
  induction res generalizing tierExpectedChunks total with
  | nil => rfl
  | cons tier later ih =>
      cases tierExpectedChunks with
      | nil => rfl
      | cons expected tierExpectedChunks =>
          rw [show keyed (tier :: later) =
            (tier.map fun pair => TierItem.pair pair.1 pair.2) :: keyed later from rfl,
            countRetrieved]
          split
          · rw [flatten_keyed, releaseItems_pairs]
            cases later.flatten.isEmpty <;> rfl
          · exact ih _ _

/-- The callback marks the event as done; on pairs it never gets to release
anything, even when it does not answer. -/
theorem prefetchAllDoneCallback_pairs (res : List (List (Key × Obj))) (lookupId : LookupId)
    (cumChunkLengthsTotal tierExpectedChunks : List Nat) (state : LoadingState manager) :
    let after := (prefetchAllDoneCallback (.ok (keyed res)) lookupId cumChunkLengthsTotal
      tierExpectedChunks state).1
    after.events = manager.updateEventStatus lookupId .done state.events ∧
      after.refCountDowns = state.refCountDowns ∧ after.unpins = state.unpins := by
  simp only [prefetchAllDoneCallback]
  have kept := countRetrieved_state res tierExpectedChunks 0
    { state with events := manager.updateEventStatus lookupId .done state.events }
  split
  · rename_i counted
    rw [counted] at kept
    cases kept
    exact ⟨rfl, rfl, rfl⟩
  · rename_i counted
    rw [counted] at kept
    cases kept
    split <;> exact ⟨rfl, rfl, rfl⟩

/-! ### What a retrieve releases -/

section Retrieve

variable [DecidableEq Key]

theorem memoryObjMap_pairs (pairs : List (Key × Obj)) (map : AList fun _ : Key => Obj) :
    memoryObjMap (pairs.map fun pair => TierItem.pair pair.1 pair.2) map =
      .ok (pairs.foldl (fun map pair => map.insert pair.1 pair.2) map) := by
  induction pairs generalizing map with
  | nil => rfl
  | cons pair pairs ih => exact ih _

theorem mem_foldl_insert (pairs : List (Key × Obj)) (map : AList fun _ : Key => Obj) (key : Key) :
    key ∈ pairs.foldl (fun map pair => map.insert pair.1 pair.2) map ↔
      key ∈ pairs.map Prod.fst ∨ key ∈ map := by
  induction pairs generalizing map with
  | nil => simp
  | cons pair pairs ih =>
      rw [List.foldl_cons, ih, AList.mem_insert, List.map_cons, List.mem_cons]
      tauto

theorem takeDelivered_usedKeys (sizes : KvSizes Obj) (map : AList fun _ : Key => Obj)
    (chunkInfos : List (ChunkInfo Key)) (progress : AsyncProgress Key Obj) :
    (takeDelivered sizes map chunkInfos progress).usedKeys =
      progress.usedKeys ++ (chunkInfos.map ChunkInfo.key).takeWhile (· ∈ map) := by
  induction chunkInfos generalizing progress with
  | nil => simp [takeDelivered]
  | cons chunk more ih =>
      rw [takeDelivered, List.map_cons, List.takeWhile_cons]
      cases found : map.lookup chunk.key with
      | none =>
          have absent : chunk.key ∉ map := AList.lookup_eq_none.mp found
          simp [absent]
      | some memoryObj =>
          have present : chunk.key ∈ map := AList.lookup_isSome.mp (by rw [found]; rfl)
          simp only [ih, present, decide_true, ↓reduceIte]
          simp

theorem unusedObjs_eq_nil_iff (map : AList fun _ : Key => Obj) (usedKeys : List Key) :
    unusedObjs map usedKeys = [] ↔ ∀ key ∈ map, key ∈ usedKeys := by
  rw [unusedObjs, List.map_eq_nil_iff, List.filter_eq_nil_iff]
  constructor
  · intro filtered key present
    obtain ⟨entry, member, rfl⟩ := List.mem_map.mp (AList.mem_keys.mp present)
    simpa using filtered entry member
  · intro used entry member
    simpa using used entry.1 (AList.mem_keys.mpr (List.mem_map_of_mem member))

/-- **A retrieve releases nothing exactly when it uses every delivered key.** -/
theorem retrieveReleases_eq_nil_iff (sizes : KvSizes Obj) (lookupId : LookupId)
    (call : AsyncRetrieveCall Key) (state : LoadingState manager) (future : Future Key Obj)
    (here : manager.getEventFuture state.events lookupId = some future)
    (pairs : List (Key × Obj))
    (shaped : future.flatten = pairs.map fun pair => TierItem.pair pair.1 pair.2) :
    retrieveReleases sizes lookupId call state = [] ↔ call.UsesAll (pairs.map Prod.fst) := by
  have present (key : Key) :
      key ∈ pairs.foldl (fun map pair => map.insert pair.1 pair.2)
        (∅ : AList fun _ : Key => Obj) ↔ key ∈ pairs.map Prod.fst := by
    rw [mem_foldl_insert]
    simp
  rw [retrieveReleases, here, retrieve]
  cases healthy : call.healthy with
  | false => simp [AsyncRetrieveCall.UsesAll, healthy]
  | true =>
      cases passive : call.passive with
      | true => simp [AsyncRetrieveCall.UsesAll, passive]
      | false =>
          cases chunked : call.tokenChunks with
          | error failure =>
              simp [AsyncRetrieveCall.UsesAll, chunked, asyncProcessTokensInternal, shaped,
                memoryObjMap_pairs, bind, Except.bind]
          | ok chunkInfos =>
              have used := takeDelivered_usedKeys sizes
                (pairs.foldl (fun map pair => map.insert pair.1 pair.2) ∅) chunkInfos
                ⟨List.replicate call.numTokens false, [], 0, []⟩
              have unused := unusedObjs_eq_nil_iff
                (pairs.foldl (fun map pair => map.insert pair.1 pair.2) ∅)
                ((chunkInfos.map ChunkInfo.key).takeWhile (· ∈ pairs.map Prod.fst))
              simp only [present, List.nil_append] at used unused
              simpa [AsyncRetrieveCall.UsesAll, healthy, passive, chunked,
                asyncProcessTokensInternal, shaped, memoryObjMap_pairs, bind, Except.bind, pure,
                Except.pure, used] using unused

end Retrieve

/-! ### The cleanup -/

theorem unpinItems_pairs (pairs : List (Key × Obj)) (state : LoadingState manager) :
    unpinItems (pairs.map fun pair => TierItem.pair pair.1 pair.2) state = { state with
      unpins := state.unpins ++ pairs.map Prod.snd
      refCountDowns := state.refCountDowns ++ pairs.map Prod.snd } := by
  induction pairs generalizing state with
  | nil => simp [unpinItems]
  | cons pair pairs ih => simp [unpinItems, ih]

/-- A cleanup lets go of every object of a finished event once. -/
theorem cleanupMemoryObjs_pairs (lawful : manager.Lawful) {lookupId : LookupId}
    {future : Future Key Obj} {pairs : List (Key × Obj)}
    (shaped : future.flatten = pairs.map fun pair => TierItem.pair pair.1 pair.2)
    (state : LoadingState manager)
    (finished : manager.getEventStatus state.events lookupId = .done)
    (here : manager.getEventFuture state.events lookupId = some future) :
    (cleanupMemoryObjs lookupId state).refCountDowns =
        state.refCountDowns ++ pairs.map Prod.snd ∧
      (cleanupMemoryObjs lookupId state).unpins = state.unpins ++ pairs.map Prod.snd := by
  have popped := lawful.future_pop lookupId future state.events finished here
  rw [cleanupMemoryObjs, if_neg (not_not_intro finished)]
  split
  · rename_i events missing
    rw [missing] at popped
    cases popped
  · rename_i memoryObjs events taken
    rw [taken] at popped
    cases popped
    rw [shaped, unpinItems_pairs]
    exact ⟨rfl, rfl⟩

/-! ### Whole runs -/

/-- What a prefetch with a hit leaves: the finished event of its pairs, and no
release. -/
theorem asyncLookupAndPrefetch_hit (lawful : manager.Lawful)
    (backends : List (PrefetchBackend Key Obj)) (lookupId : LookupId) (keys : List Key)
    (cumChunkLengths : List Nat) (state : LoadingState manager)
    (hit : lookupTiers keys.length backends keys 0 ≠ []) :
    let loaded := (asyncLookupAndPrefetch backends lookupId keys cumChunkLengths state).1
    manager.getEventStatus loaded.events lookupId = .done ∧
      manager.getEventFuture loaded.events lookupId =
        some (gatherWithKeys (lookupTiers keys.length backends keys 0)) ∧
      loaded.refCountDowns = state.refCountDowns ∧ loaded.unpins = state.unpins := by
  have unfolded : (asyncLookupAndPrefetch backends lookupId keys cumChunkLengths state).1 =
      (prefetchAllDoneCallback
        (.ok (gatherWithKeys (lookupTiers keys.length backends keys 0))) lookupId cumChunkLengths
        ((lookupTiers keys.length backends keys 0).map fun task => task.keys.length)
        { state with
          events := manager.addEvent lookupId
            (gatherWithKeys (lookupTiers keys.length backends keys 0)) state.events }).1 := by
    rw [asyncLookupAndPrefetch, if_neg (by simpa using hit)]
  have added := lawful.future_add lookupId
    (gatherWithKeys (lookupTiers keys.length backends keys 0)) state.events
  rw [gatherWithKeys_eq_keyed] at unfolded
  obtain ⟨events, refCountDowns, unpins⟩ := prefetchAllDoneCallback_pairs
    ((lookupTiers keys.length backends keys 0).map fun task => task.keys.zip task.results)
    lookupId cumChunkLengths
    ((lookupTiers keys.length backends keys 0).map fun task => task.keys.length)
    { state with
      events := manager.addEvent lookupId
        (keyed ((lookupTiers keys.length backends keys 0).map fun task =>
          task.keys.zip task.results)) state.events }
  rw [gatherWithKeys_eq_keyed] at added ⊢
  intro loaded
  rw [show loaded = _ from unfolded]
  refine ⟨?_, ?_, refCountDowns, unpins⟩
  · rw [events]
    exact lawful.status_update _ _ _ _ added
  · rw [events, lawful.future_update]
    exact added

variable [DecidableEq LookupId] [DecidableEq Key]

/-- The end of a run whose prefetch had a hit: every delivered object is let go
of by the cleanup, after whatever the retrieve has released. -/
theorem prefetchRun_hit (lawful : manager.Lawful)
    (batchedUnpin : List Key → Location → Storage → Storage) (sizes : KvSizes Obj)
    (backends : List (PrefetchBackend Key Obj)) (lookupId : LookupId) (keys : List Key)
    (cumChunkLengths : List Nat) (ending : Ending Key)
    (state : LookupState Location Storage manager) (unpinned : lookupId ∉ state.lookupPins)
    (hit : lookupTiers keys.length backends keys 0 ≠ []) :
    ∃ released : List Obj,
      (released = [] ↔ ending.UsesAll (deliveredKeys backends keys)) ∧
      (prefetchRun batchedUnpin sizes backends lookupId keys cumChunkLengths ending
        state).loading.refCountDowns =
          state.loading.refCountDowns ++ released ++ deliveredObjs backends keys ∧
      (prefetchRun batchedUnpin sizes backends lookupId keys cumChunkLengths ending
        state).loading.unpins = state.loading.unpins ++ deliveredObjs backends keys := by
  obtain ⟨finished, here, refCountDowns, unpins⟩ := asyncLookupAndPrefetch_hit lawful backends
    lookupId keys cumChunkLengths state.loading hit
  have shaped := flatten_gatherWithKeys backends keys
  cases ending with
  | aborted =>
      obtain ⟨down, unpin⟩ := cleanupMemoryObjs_pairs lawful shaped _ finished here
      rw [refCountDowns, deliveredPairs_objs] at down
      rw [unpins, deliveredPairs_objs] at unpin
      exact ⟨[], by simp [Ending.UsesAll], by simpa [prefetchRun] using down, unpin⟩
  | retrieved call =>
      refine ⟨retrieveReleases sizes lookupId call
        (asyncLookupAndPrefetch backends lookupId keys cumChunkLengths state.loading).1,
        retrieveReleases_eq_nil_iff sizes lookupId call _ _ here _ shaped, ?_⟩
      obtain ⟨down, unpin⟩ := cleanupMemoryObjs_pairs lawful shaped
        { (asyncLookupAndPrefetch backends lookupId keys cumChunkLengths state.loading).1 with
          refCountDowns := (asyncLookupAndPrefetch backends lookupId keys cumChunkLengths
            state.loading).1.refCountDowns ++ retrieveReleases sizes lookupId call
              (asyncLookupAndPrefetch backends lookupId keys cumChunkLengths state.loading).1 }
        finished here
      have missing : state.lookupPins.lookup lookupId = none := AList.lookup_eq_none.mpr unpinned
      have registered : manager.getEventStatus (asyncLookupAndPrefetch backends lookupId keys
          cumChunkLengths state.loading).1.events lookupId ≠ .notFound := by
        rw [finished]
        decide
      simp only [prefetchRun, lookupUnpin, missing, ne_eq, registered, not_false_eq_true,
        ↓reduceIte]
      rw [down, unpin, refCountDowns, unpins, deliveredPairs_objs]
      exact ⟨rfl, rfl⟩

/-- A prefetch without a hit delivers nothing, and nothing is released. -/
theorem prefetchRun_miss (batchedUnpin : List Key → Location → Storage → Storage)
    (sizes : KvSizes Obj) (backends : List (PrefetchBackend Key Obj)) (lookupId : LookupId)
    (keys : List Key) (cumChunkLengths : List Nat) (ending : Ending Key)
    (state : LookupState Location Storage manager) (unpinned : lookupId ∉ state.lookupPins)
    (unregistered : Unregistered manager lookupId state.loading.events)
    (miss : lookupTiers keys.length backends keys 0 = []) :
    (prefetchRun batchedUnpin sizes backends lookupId keys cumChunkLengths ending
        state).loading.refCountDowns = state.loading.refCountDowns ∧
      (prefetchRun batchedUnpin sizes backends lookupId keys cumChunkLengths ending
        state).loading.unpins = state.loading.unpins := by
  obtain ⟨notFound, absent⟩ := unregistered
  have missing : state.lookupPins.lookup lookupId = none := AList.lookup_eq_none.mpr unpinned
  have quiet (call : AsyncRetrieveCall Key) (loading : LoadingState manager)
      (same : loading.events = state.loading.events) :
      retrieveReleases sizes lookupId call loading = [] := by
    rw [retrieveReleases, same, absent, retrieve]
    split
    · rename_i returned
      split at returned
      · cases returned
        rfl
      · cases returned
        rfl
    · rfl
  cases ending with
  | aborted =>
      simp [prefetchRun, asyncLookupAndPrefetch, miss, cleanupMemoryObjs, notFound]
  | retrieved call =>
      simp [prefetchRun, asyncLookupAndPrefetch, miss, lookupUnpin, missing, notFound, quiet]

/-- A backend that has both chunks of a request. -/
def holdsTwo : PrefetchBackend Nat Nat where
  batchedAsyncContains keys := min 2 keys.length
  batchedGetNonBlocking keys := keys.map (· + 10)
  contains_le keys := by omega
  get_le keys := by simp

def wholeRequest : AsyncRetrieveCall Nat where
  healthy := true
  passive := false
  removeAfterRetrieve := false
  numTokens := 8
  tokenChunks := .ok [⟨0, 0, 4⟩, ⟨1, 4, 8⟩]

/-- The first chunk is masked out: the serving engine has it already. -/
def secondChunkOnly : AsyncRetrieveCall Nat where
  healthy := true
  passive := false
  removeAfterRetrieve := false
  numTokens := 8
  tokenChunks := .ok [⟨1, 4, 8⟩]

def freshLookups :
    LookupState Unit Unit (EventManager.dictionary Nat (Prefetch.Future Nat Nat)) where
  lookupPins := (∅ : AList fun _ : Nat => AList fun _ : Unit => List Nat)
  loading := freshLoading
  storage := ()

end LMCacheHcu.Prefetch
