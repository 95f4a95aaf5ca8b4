import LMCacheHcu.Prefetch.LookupTasks

/-! # The answer to the scheduler

The chunks of a lookup are shared out over the tiers in order, so the chunks a
request can use are those before the first one that did not arrive. This module
says what the callback should send and release for given results, and for which
results it does.
-/

namespace LMCacheHcu.Prefetch

variable {LookupId Key Obj Item : Type}

/-- For every chunk that a tier expects, whether its result holds it. -/
def retrievedFlags (res : List (List Item)) (tierExpectedChunks : List Nat) : List Bool :=
  (List.zipWith (fun tier expected =>
    List.replicate tier.length true ++ List.replicate (expected - tier.length) false)
    res tierExpectedChunks).flatten

/-- The number of chunks before the first one that was not retrieved. -/
def contiguousChunks (res : List (List Item)) (tierExpectedChunks : List Nat) : Nat :=
  ((retrievedFlags res tierExpectedChunks).takeWhile id).length

/-- The tiers after the first one that is short. -/
def tiersAfterShort (res : List (List Item)) (tierExpectedChunks : List Nat) : List (List Item) :=
  res.drop ((res.zip tierExpectedChunks).findIdx (fun tier => tier.1.length < tier.2) + 1)

/-- **What a callback owes.** It raises nothing, sends one response, with the
token count of the contiguous prefix of retrieved chunks, and releases every
object of the tiers after the first short one once. -/
structure Answered {manager : EventManager LookupId (Future Key Obj)} (lookupId : LookupId)
    (cumChunkLengthsTotal tierExpectedChunks : List Nat) (res : List (List (Key × Obj)))
    (before : LoadingState manager) (outcome : LoadingState manager × Option CallbackError) :
    Prop where
  silent : outcome.2 = none
  responded : ∃ retrievedLength,
    cumChunkLengthsTotal[contiguousChunks res tierExpectedChunks]? = some retrievedLength ∧
      outcome.1.responses = before.responses ++ [(lookupId, retrievedLength)]
  released : outcome.1.refCountDowns.Perm
    (before.refCountDowns ++ (tiersAfterShort res tierExpectedChunks).flatten.map Prod.snd)

/-- The results of the tiers as `gather_with_keys` shapes them. -/
def keyed (res : List (List (Key × Obj))) : Future Key Obj :=
  res.map fun tier => tier.map fun pair => TierItem.pair pair.1 pair.2

theorem gatherWithKeys_eq_keyed (tasks : List (LoadingTask Key Obj)) :
    gatherWithKeys tasks = keyed (tasks.map fun task => task.keys.zip task.results) := by
  simp only [gatherWithKeys, keyed, List.map_map]
  refine List.map_congr_left fun task _ => ?_
  simp [List.zip, List.map_zipWith]

/-! ### The contiguous prefix, tier by tier -/

theorem retrievedFlags_cons (tier : List Item) (res : List (List Item)) (expected : Nat)
    (tierExpectedChunks : List Nat) :
    retrievedFlags (tier :: res) (expected :: tierExpectedChunks) =
      List.replicate tier.length true ++ (List.replicate (expected - tier.length) false ++
        retrievedFlags res tierExpectedChunks) := by
  simp [retrievedFlags]

theorem takeWhile_replicate_true (count : Nat) (flags : List Bool) :
    (List.replicate count true ++ flags).takeWhile id =
      List.replicate count true ++ flags.takeWhile id := by
  rw [List.takeWhile_append_of_pos]
  simp

theorem contiguousChunks_short {tier : List Item} {expected : Nat}
    (short : tier.length < expected) (res : List (List Item)) (tierExpectedChunks : List Nat) :
    contiguousChunks (tier :: res) (expected :: tierExpectedChunks) = tier.length := by
  obtain ⟨missing, counted⟩ : ∃ missing, expected - tier.length = missing + 1 :=
    ⟨expected - tier.length - 1, by omega⟩
  rw [contiguousChunks, retrievedFlags_cons, takeWhile_replicate_true, counted,
    List.replicate_succ]
  simp

theorem contiguousChunks_full {tier : List Item} {expected : Nat} (full : tier.length = expected)
    (res : List (List Item)) (tierExpectedChunks : List Nat) :
    contiguousChunks (tier :: res) (expected :: tierExpectedChunks) =
      tier.length + contiguousChunks res tierExpectedChunks := by
  rw [contiguousChunks, retrievedFlags_cons, takeWhile_replicate_true, full, Nat.sub_self]
  simp [contiguousChunks]

theorem tiersAfterShort_short {tier : List Item} {expected : Nat} (short : tier.length < expected)
    (res : List (List Item)) (tierExpectedChunks : List Nat) :
    tiersAfterShort (tier :: res) (expected :: tierExpectedChunks) = res := by
  simp [tiersAfterShort, List.findIdx_cons, short]

theorem tiersAfterShort_full {tier : List Item} {expected : Nat} (full : tier.length = expected)
    (res : List (List Item)) (tierExpectedChunks : List Nat) :
    tiersAfterShort (tier :: res) (expected :: tierExpectedChunks) =
      tiersAfterShort res tierExpectedChunks := by
  simp [tiersAfterShort, List.findIdx_cons, full]

/-! ### The loop over the tiers -/

variable {manager : EventManager LookupId (Future Key Obj)}

/-- The release loop meets a pair first, and a pair cannot be released. -/
theorem releaseItems_pairs (pairs : List (Key × Obj)) (state : LoadingState manager) :
    releaseItems (pairs.map fun pair => TierItem.pair pair.1 pair.2) state =
      (state, if pairs.isEmpty then none else some .attributeError) := by
  cases pairs with
  | nil => rfl
  | cons pair pairs => rfl

theorem flatten_keyed (res : List (List (Key × Obj))) :
    (keyed res).flatten = res.flatten.map fun pair => TierItem.pair pair.1 pair.2 := by
  rw [keyed, List.map_flatten]

/-- **The tier loop counts the contiguous prefix**, unless a tier after the
first short one delivered something: then it raises at the first such object.
It releases nothing in either case. -/
theorem countRetrieved_keyed {res : List (List (Key × Obj))} {tierExpectedChunks : List Nat}
    (delivered : List.Forall₂ (fun tier expected => tier.length ≤ expected) res tierExpectedChunks)
    (total : Nat) (state : LoadingState manager) :
    countRetrieved (keyed res) tierExpectedChunks total state =
      (state, if (tiersAfterShort res tierExpectedChunks).flatten.isEmpty
        then .ok (total + contiguousChunks res tierExpectedChunks)
        else .error .attributeError) := by
  induction delivered generalizing total with
  | nil => simp [keyed, countRetrieved, tiersAfterShort, contiguousChunks, retrievedFlags]
  | @cons tier expected later tierExpectedChunks within delivered ih =>
      rw [show keyed (tier :: later) = (tier.map fun pair => TierItem.pair pair.1 pair.2) ::
        keyed later from rfl, countRetrieved, List.length_map]
      by_cases short : tier.length < expected
      · rw [if_pos short, flatten_keyed, releaseItems_pairs, tiersAfterShort_short short,
          contiguousChunks_short short]
        cases later.flatten.isEmpty <;> rfl
      · have full : tier.length = expected := by omega
        rw [if_neg short, ih, tiersAfterShort_full full, contiguousChunks_full full,
          Nat.add_assoc]

theorem contiguousChunks_le {res : List (List Item)} {tierExpectedChunks : List Nat}
    (delivered : List.Forall₂ (fun tier expected => tier.length ≤ expected)
      res tierExpectedChunks) :
    contiguousChunks res tierExpectedChunks ≤ tierExpectedChunks.sum := by
  induction delivered with
  | nil => simp [contiguousChunks, retrievedFlags]
  | @cons tier expected later tierExpectedChunks within delivered ih =>
      rw [List.sum_cons]
      by_cases short : tier.length < expected
      · rw [contiguousChunks_short short]
        omega
      · rw [contiguousChunks_full (by omega)]
        omega

/-- What the callback does with pairs, in full. -/
theorem prefetchAllDoneCallback_keyed {res : List (List (Key × Obj))}
    {tierExpectedChunks cumChunkLengthsTotal : List Nat}
    (delivered : List.Forall₂ (fun tier expected => tier.length ≤ expected) res tierExpectedChunks)
    (cumulative : tierExpectedChunks.sum < cumChunkLengthsTotal.length) (lookupId : LookupId)
    (state : LoadingState manager) :
    prefetchAllDoneCallback (.ok (keyed res)) lookupId cumChunkLengthsTotal tierExpectedChunks
        state =
      let loaded := { state with
        events := manager.updateEventStatus lookupId .done state.events }
      if (tiersAfterShort res tierExpectedChunks).flatten.isEmpty then
        ({ loaded with responses := loaded.responses ++
          [(lookupId, cumChunkLengthsTotal.getD (contiguousChunks res tierExpectedChunks) 0)] },
          none)
      else (loaded, some .attributeError) := by
  have inside := Nat.lt_of_le_of_lt (contiguousChunks_le delivered) cumulative
  rw [prefetchAllDoneCallback]
  simp only [countRetrieved_keyed delivered, Nat.zero_add]
  cases (tiersAfterShort res tierExpectedChunks).flatten.isEmpty with
  | false => rfl
  | true =>
      simp only [↓reduceIte, List.getD_eq_getElem?_getD, List.getElem?_eq_getElem inside,
        Option.getD_some]

/-- **The callback answers the scheduler exactly when it has nothing to
release.** For results of pairs, as `gather_with_keys` makes them, the response
is sent and the surplus objects are released if and only if the tiers after the
first short one delivered no object at all. -/
theorem prefetchAllDoneCallback_answered_iff {res : List (List (Key × Obj))}
    {tierExpectedChunks cumChunkLengthsTotal : List Nat}
    (delivered : List.Forall₂ (fun tier expected => tier.length ≤ expected) res tierExpectedChunks)
    (cumulative : tierExpectedChunks.sum < cumChunkLengthsTotal.length) (lookupId : LookupId)
    (state : LoadingState manager) :
    Answered lookupId cumChunkLengthsTotal tierExpectedChunks res state
        (prefetchAllDoneCallback (.ok (keyed res)) lookupId cumChunkLengthsTotal
          tierExpectedChunks state) ↔
      ∀ tier ∈ tiersAfterShort res tierExpectedChunks, tier = [] := by
  have inside := Nat.lt_of_le_of_lt (contiguousChunks_le delivered) cumulative
  have nothing : (∀ tier ∈ tiersAfterShort res tierExpectedChunks, tier = []) ↔
      (tiersAfterShort res tierExpectedChunks).flatten = [] := List.flatten_eq_nil_iff.symm
  rw [prefetchAllDoneCallback_keyed delivered cumulative, nothing]
  constructor
  · intro answered
    by_contra surplus
    have silent := answered.silent
    simp [surplus] at silent
  · intro idle
    simp only [idle, List.isEmpty_nil, ↓reduceIte]
    exact {
      silent := rfl
      responded := ⟨cumChunkLengthsTotal[contiguousChunks res tierExpectedChunks],
        List.getElem?_eq_getElem inside, by
          simp only [List.getD_eq_getElem?_getD, List.getElem?_eq_getElem inside,
            Option.getD_some]⟩
      released := by simp [idle] }

/-- A run before the callback: nothing was sent or released. -/
def freshLoading : LoadingState (EventManager.dictionary Nat (Future Nat Nat)) :=
  ⟨fun _ => none, [], [], []⟩

theorem prefetchAllDoneCallback_answered_lastTier :
    Answered 0 [0, 256, 512, 768, 1024, 1280] [3, 2] [[(0, 10), (1, 11), (2, 12)], [(3, 13)]]
      freshLoading (prefetchAllDoneCallback
        (.ok (keyed [[(0, 10), (1, 11), (2, 12)], [(3, 13)]])) 0
        [0, 256, 512, 768, 1024, 1280] [3, 2] freshLoading) :=
  (prefetchAllDoneCallback_answered_iff (by simp) (by decide) 0 freshLoading).mpr (by decide)

/-- The second case of the callback's own comment: the middle tier lost a chunk
and the last one delivered its two. -/
theorem answered_fails_lostChunk : ¬ Answered 0
    [0, 256, 512, 768, 1024, 1280, 1536, 1792] [3, 2, 2]
    [[(0, 10), (1, 11), (2, 12)], [(3, 13)], [(5, 15), (6, 16)]]
    freshLoading (prefetchAllDoneCallback
      (.ok (keyed [[(0, 10), (1, 11), (2, 12)], [(3, 13)], [(5, 15), (6, 16)]])) 0
      [0, 256, 512, 768, 1024, 1280, 1536, 1792] [3, 2, 2] freshLoading) := by
  intro answered
  have silent := answered.silent
  cases silent

end LMCacheHcu.Prefetch
