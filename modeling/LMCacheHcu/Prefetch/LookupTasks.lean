import Mathlib.Tactic

/-! # Looking up and prefetching the chunks of one request

`StorageManager.async_lookup_and_prefetch` asks the active backends in turn for
the chunks that the earlier ones did not have, starts one loading task for each
backend with a hit (a tier), and registers the gathered tasks as the loading
event of the lookup. When all tasks are done, `prefetch_all_done_callback`
counts what really arrived and answers the scheduler.
-/

namespace LMCacheHcu.Prefetch

/-- `EventStatus` of the event manager. -/
inductive EventStatus
  | ongoing
  | done
  | notFound
deriving DecidableEq, Repr

/-- The loading events of the event manager, which is not part of the
repository. -/
structure EventManager (LookupId Future : Type) where
  State : Type
  addEvent : LookupId → Future → State → State
  updateEventStatus : LookupId → EventStatus → State → State
  getEventStatus : State → LookupId → EventStatus
  getEventFuture : State → LookupId → Option Future
  popEvent : LookupId → State → Option Future × State

/-- An event manager that keeps the events in a dictionary. -/
def EventManager.dictionary (LookupId Future : Type) [DecidableEq LookupId] :
    EventManager LookupId Future where
  State := LookupId → Option (EventStatus × Future)
  addEvent lookupId future events := Function.update events lookupId (some (.ongoing, future))
  updateEventStatus lookupId status events :=
    Function.update events lookupId ((events lookupId).map fun event => (status, event.2))
  getEventStatus events lookupId := ((events lookupId).map Prod.fst).getD .notFound
  getEventFuture events lookupId := (events lookupId).map Prod.snd
  popEvent lookupId events :=
    ((events lookupId).map Prod.snd, Function.update events lookupId none)

/-- The exceptions that leave the callback. -/
inductive CallbackError
  | attributeError
  | indexError
  | taskFailed
deriving DecidableEq, Repr

/-- What the list of one tier may hold: the bare objects that a loading task
returns, or the pairs that `gather_with_keys` makes of them. -/
inductive TierItem (Key Obj : Type)
  | memoryObj (obj : Obj)
  | pair (key : Key) (obj : Obj)
deriving DecidableEq, Repr

variable {LookupId Key Obj : Type}

/-- `item.ref_count_down()`: a tuple has no such method. -/
def TierItem.refCountDown : TierItem Key Obj → Except CallbackError Obj
  | .memoryObj obj => .ok obj
  | .pair _ _ => .error .attributeError

/-- The result of the gathered loading tasks: one list for each tier. -/
abbrev Future (Key Obj : Type) := List (List (TierItem Key Obj))

/-- What the loading of requests leaves behind: the events, the responses sent
to the scheduler, and the calls of `ref_count_down` and `unpin`. -/
structure LoadingState (manager : EventManager LookupId (Future Key Obj)) where
  events : manager.State
  responses : List (LookupId × Nat)
  refCountDowns : List Obj
  unpins : List Obj

variable {manager : EventManager LookupId (Future Key Obj)}

/-- The release loop over the tiers after a short one. -/
def releaseItems : List (TierItem Key Obj) → LoadingState manager →
    LoadingState manager × Option CallbackError
  | [], state => (state, none)
  | item :: items, state =>
      match item.refCountDown with
      | .error failure => (state, some failure)
      | .ok obj => releaseItems items { state with refCountDowns := state.refCountDowns ++ [obj] }

/-- The loop over the tiers, which leaves at the first short one. -/
def countRetrieved : Future Key Obj → List Nat → Nat → LoadingState manager →
    LoadingState manager × Except CallbackError Nat
  | [], _, total, state => (state, .ok total)
  | _ :: _, [], _, state => (state, .error .indexError)
  | tier :: later, expected :: tiersExpected, total, state =>
      if tier.length < expected then
        match releaseItems later.flatten state with
        | (released, none) => (released, .ok (total + tier.length))
        | (released, some failure) => (released, .error failure)
      else countRetrieved later tiersExpected (total + tier.length) state

/-- `prefetch_all_done_callback` of a manager with a lookup server: the state it
leaves and the exception it ends with. -/
def prefetchAllDoneCallback (task : Except CallbackError (Future Key Obj)) (lookupId : LookupId)
    (cumChunkLengthsTotal tierExpectedChunks : List Nat) (state : LoadingState manager) :
    LoadingState manager × Option CallbackError :=
  let state := { state with events := manager.updateEventStatus lookupId .done state.events }
  match task with
  | .error failure => (state, some failure)
  | .ok res =>
      match countRetrieved res tierExpectedChunks 0 state with
      | (state, .error failure) => (state, some failure)
      | (state, .ok totalRetrievedChunks) =>
          match cumChunkLengthsTotal[totalRetrievedChunks]? with
          | none => (state, some .indexError)
          | some retrievedLength =>
              ({ state with responses := state.responses ++ [(lookupId, retrievedLength)] }, none)

/-! ### The lookup -/

/-- An active backend during one lookup: how many leading keys it has, and the
objects its loading task will return for them. -/
structure PrefetchBackend (Key Obj : Type) where
  batchedAsyncContains : List Key → Nat
  batchedGetNonBlocking : List Key → List Obj
  contains_le : ∀ keys, batchedAsyncContains keys ≤ keys.length
  get_le : ∀ keys, (batchedGetNonBlocking keys).length ≤ keys.length

/-- A loading task: the keys it was started for and the objects it returns. -/
structure LoadingTask (Key Obj : Type) where
  keys : List Key
  results : List Obj
deriving DecidableEq, Repr

/-- The loop over the active backends; it ends early once every chunk is hit. -/
def lookupTiers (numTotalChunks : Nat) : List (PrefetchBackend Key Obj) → List Key → Nat →
    List (LoadingTask Key Obj)
  | [], _, _ => []
  | backend :: backends, keys, numTotalHitChunks =>
      let numHitChunks := backend.batchedAsyncContains keys
      if numHitChunks = 0 then lookupTiers numTotalChunks backends keys numTotalHitChunks
      else
        let backendKeys := keys.take numHitChunks
        ⟨backendKeys, backend.batchedGetNonBlocking backendKeys⟩ ::
          if numTotalHitChunks + numHitChunks = numTotalChunks then []
          else lookupTiers numTotalChunks backends (keys.drop numHitChunks)
            (numTotalHitChunks + numHitChunks)

/-- `gather_with_keys`: the results of every task, each zipped with its key. -/
def gatherWithKeys (tasks : List (LoadingTask Key Obj)) : Future Key Obj :=
  tasks.map fun task => List.zipWith TierItem.pair task.keys task.results

/-- `async_lookup_and_prefetch` up to the end of its callback: without a hit the
scheduler is answered at once, else the gathered tasks become the loading event
of the lookup and the callback runs on their results. -/
def asyncLookupAndPrefetch (backends : List (PrefetchBackend Key Obj)) (lookupId : LookupId)
    (keys : List Key) (cumChunkLengths : List Nat) (state : LoadingState manager) :
    LoadingState manager × Option CallbackError :=
  let tasks := lookupTiers keys.length backends keys 0
  if tasks.isEmpty then
    ({ state with responses := state.responses ++ [(lookupId, 0)] }, none)
  else
    prefetchAllDoneCallback (.ok (gatherWithKeys tasks)) lookupId cumChunkLengths
      (tasks.map fun task => task.keys.length)
      { state with events := manager.addEvent lookupId (gatherWithKeys tasks) state.events }

/-- The backends share out a prefix of the keys. -/
theorem flatten_lookupTiers_keys (numTotalChunks : Nat)
    (backends : List (PrefetchBackend Key Obj)) (keys : List Key) (numTotalHitChunks : Nat) :
    ((lookupTiers numTotalChunks backends keys numTotalHitChunks).map
      LoadingTask.keys).flatten <+: keys := by
  induction backends generalizing keys numTotalHitChunks with
  | nil => simp [lookupTiers]
  | cons backend backends ih =>
      rw [lookupTiers]
      split
      · exact ih keys numTotalHitChunks
      · split
        · simpa using List.take_prefix _ keys
        · rw [List.map_cons, List.flatten_cons]
          conv_rhs => rw [← List.take_append_drop (backend.batchedAsyncContains keys) keys]
          exact (List.prefix_append_right_inj _).mpr (ih _ _)

/-- The tiers never expect more chunks than the lookup has keys. -/
theorem sum_lookupTiers_le (backends : List (PrefetchBackend Key Obj)) (keys : List Key) :
    ((lookupTiers keys.length backends keys 0).map fun task => task.keys.length).sum ≤
      keys.length := by
  have shared := (flatten_lookupTiers_keys keys.length backends keys 0).length_le
  rwa [List.length_flatten, List.map_map] at shared

end LMCacheHcu.Prefetch
