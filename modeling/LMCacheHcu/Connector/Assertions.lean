import LMCacheHcu.Connector.Scheduler
import LMCacheHcu.Foundation.Runs

/-! # The assertions about cached tokens

`update_state_after_alloc` asserts that vLLM allocates exactly the tokens that
the load spec calls for, and `build_connector_meta` that a request resumed from
preemption has a load spec that explains its computed tokens. The number that
vLLM is given was adjusted on the way, while the load spec keeps the hit as it was.
-/

namespace LMCacheHcu.Connector

open LMCacheHcu.Lookup (KvRole)

variable {Token Lookups : Type}

/-- The assertions that compare token counts. -/
def SchedulerError.isTokenAssertion : SchedulerError → Bool
  | .tokenCountMismatch | .preemptedWithoutLoadSpec | .computedTokensMismatch => true
  | _ => false

def FailsAssertion {Result : Type} (result : Except SchedulerError Result) : Prop :=
  ∃ failure, result = .error failure ∧ failure.isTokenAssertion

/-- A waiting request on its way into a round: vLLM's local hit, whether blocks can
be allocated for it, and whether it is resumed from preemption. -/
structure Admission (Token : Type) where
  request : Request Token
  numLocalTokens : Nat
  allocated : Bool
  resumed : Bool
  blockIds : BlockIds
  numScheduledTokens : Nat

variable (config : SchedulerConfig Token) (client : LookupClient Token Lookups)

/-- vLLM's `NewRequestData.from_request`. -/
def Request.newData (request : Request Token) (blockIds : BlockIds) : NewRequestData Token where
  reqId := request.requestId
  promptTokenIds := request.promptTokenIds
  blockIds := blockIds
  numComputedTokens := request.numComputedTokens
  mmHashes := request.mmHashes
  mmPositions := request.mmPositions
  kvTransferParams := request.kvTransferParams

namespace Admission

/-- vLLM counts the local and the external tokens as computed. -/
def admitted (admission : Admission Token) (numExternalTokens : Int) : Request Token :=
  { admission.request with
    numComputedTokens := (admission.numLocalTokens + numExternalTokens).toNat }

def output (admission : Admission Token) (numExternalTokens : Int) : SchedulerOutput Token where
  finishedReqIds := []
  scheduledNewReqs :=
    if admission.resumed then []
    else [(admission.admitted numExternalTokens).newData admission.blockIds]
  scheduledCachedReqs :=
    if admission.resumed then [⟨admission.request.requestId, some admission.blockIds, true⟩] else []
  numScheduledTokens := fun _ => admission.numScheduledTokens

/-- The calls of one scheduling round for a waiting request. It stays in the queue
while its lookup is under way and when no blocks can be allocated. -/
def schedule (admission : Admission Token) (state : SchedulerState Token Lookups) :
    Except SchedulerError (SchedulerState Token Lookups × List (ReqMeta Token)) :=
  match getNumNewMatchedTokens config client admission.request admission.numLocalTokens state with
  | (state, none) => .ok (state, [])
  | (state, some numExternalTokens) =>
      if !admission.allocated then .ok (state, [])
      else do
        let state ← updateStateAfterAlloc client admission.request numExternalTokens state
        buildConnectorMeta config (fun _ => admission.admitted numExternalTokens)
          (admission.output numExternalTokens) state

/-- The load spec of a resumed request explains its computed tokens: the request
is looked up, and what it hits is loaded as a whole or not needed at all. -/
def SpecExplains (admission : Admission Token) (state : SchedulerState Token Lookups) : Prop :=
  looksUp config client admission.request.requestId ∧
    ∀ hit, (numExternalHitTokens config client admission.request state).2 = some hit →
      hit ≤ admission.numLocalTokens ∨
        hit ≠ admission.request.numTokens ∧
          config.minRetrieveTokens ≤ (hit : Int) - admission.numLocalTokens

/-- What the assertions need: a scheduled request that is resumed, and was tracked
before, has a load spec that explains its computed tokens. -/
def AssertionsMet (admission : Admission Token) (state : SchedulerState Token Lookups) : Prop :=
  admission.allocated → admission.resumed →
    (state.requestTrackers admission.request.requestId).isSome →
      admission.SpecExplains config client state

end Admission

/-! ### Runs of the scheduler side -/

/-- The calls that vLLM makes, and the changes of the lookup client's own state. -/
inductive SchedulerCall (Token Lookups : Type)
  | getNumNewMatchedTokens (request : Request Token) (numComputedTokens : Nat)
  | updateStateAfterAlloc (request : Request Token) (numExternalTokens : Int)
  | buildConnectorMeta (requests : String → Request Token) (output : SchedulerOutput Token)
  | lookupsAnswered (lookups : Lookups)

def SchedulerCall.step (state : SchedulerState Token Lookups) :
    SchedulerCall Token Lookups → Option (SchedulerState Token Lookups)
  | .getNumNewMatchedTokens request numComputedTokens =>
      some (Connector.getNumNewMatchedTokens config client request numComputedTokens state).1
  | .updateStateAfterAlloc request numExternalTokens =>
      match Connector.updateStateAfterAlloc client request numExternalTokens state with
      | .ok after => some after
      | .error _ => none
  | .buildConnectorMeta requests output =>
      match Connector.buildConnectorMeta config requests output state with
      | .ok (after, _) => some after
      | .error _ => none
  | .lookupsAnswered lookups => some { state with lookups }

/-- Requests that are never looked up have no load spec. -/
def OnlyLookedUp (state : SchedulerState Token Lookups) : Prop :=
  ∀ reqId, looksUp config client reqId = false → state.loadSpecs reqId = none

variable {config} {client}

theorem OnlyLookedUp.of_concerns {state after : SchedulerState Token Lookups} {reqId : String}
    (only : OnlyLookedUp config client state) (concerns : Concerns reqId state after) :
    OnlyLookedUp config client after := fun other ignored =>
  (concerns.loadSpecs other).elim (fun kept => kept.trans (only other ignored)) id

theorem OnlyLookedUp.getNumNewMatchedTokens {state : SchedulerState Token Lookups}
    (only : OnlyLookedUp config client state) (request : Request Token) (numComputedTokens : Nat) :
    OnlyLookedUp config client
      (getNumNewMatchedTokens config client request numComputedTokens state).1 := by
  intro reqId ignored
  have kept := congrFun (numExternalHitTokens_keeps config client state request).1 reqId
  unfold Connector.getNumNewMatchedTokens
  split
  · exact only reqId ignored
  · rename_i found
    split
    · rename_i after answered
      rw [answered] at kept
      exact kept.trans (only reqId ignored)
    · rename_i after hit answered
      rw [answered] at kept
      have other : reqId ≠ request.requestId := by
        rintro rfl
        simp [ignored] at found
      simp only [Function.update_of_ne other]
      exact kept.trans (only reqId ignored)

theorem OnlyLookedUp.updateStateAfterAlloc {state after : SchedulerState Token Lookups}
    (only : OnlyLookedUp config client state) {request : Request Token} {numExternalTokens : Int}
    (updated : updateStateAfterAlloc client request numExternalTokens state = .ok after) :
    OnlyLookedUp config client after := by
  obtain ⟨_, _, loadSpecs⟩ := updateStateAfterAlloc_ok updated
  intro reqId ignored
  rw [loadSpecs]
  by_cases same : reqId = request.requestId
  · subst same
    rw [Function.update_self, only _ ignored, Option.map_none]
  · rw [Function.update_of_ne same, only reqId ignored]

theorem OnlyLookedUp.buildConnectorMeta {state after : SchedulerState Token Lookups}
    (only : OnlyLookedUp config client state) {requests : String → Request Token}
    {output : SchedulerOutput Token} {reqMetas : List (ReqMeta Token)}
    (built : buildConnectorMeta config requests output state = .ok (after, reqMetas)) :
    OnlyLookedUp config client after := by
  refine buildConnectorMeta_ok (OnlyLookedUp config client) only built (fun _ _ before => before)
    (fun _ _ _ _ _ before made => before.of_concerns (buildNewRequest_concerns made)) ?_
  intro cached _ before next reqMeta holds made
  obtain ⟨_, _, _, _, _, _, _, _, concerns⟩ := buildCachedRequest_ok made
  exact holds.of_concerns concerns

/-- No call records a load spec for a request that is not looked up. -/
theorem onlyLookedUp_of_reaches {lookups : Lookups} {state : SchedulerState Token Lookups}
    (reached : Runs.Reaches (SchedulerCall.step config client) (fun _ _ => True)
      (SchedulerState.initial lookups) state) : OnlyLookedUp config client state := by
  refine reached.invariant (fun _ _ => rfl) fun middle next call only _ stepped => ?_
  cases call with
  | getNumNewMatchedTokens request numComputedTokens =>
      cases stepped
      exact only.getNumNewMatchedTokens request numComputedTokens
  | updateStateAfterAlloc request numExternalTokens =>
      simp only [SchedulerCall.step] at stepped
      split at stepped
      · rename_i updated
        cases stepped
        exact only.updateStateAfterAlloc updated
      · cases stepped
  | buildConnectorMeta requests output =>
      simp only [SchedulerCall.step] at stepped
      split at stepped
      · rename_i built
        cases stepped
        exact only.buildConnectorMeta built
      · cases stepped
  | lookupsAnswered lookups =>
      cases stepped
      exact only

/-! ### Where assertions can fail -/

@[simp] theorem failsAssertion_ok {Result : Type} (result : Result) :
    ¬ FailsAssertion (.ok result : Except SchedulerError Result) := by
  rintro ⟨_, failed, _⟩
  cases failed

@[simp] theorem failsAssertion_error {Result : Type} (failure : SchedulerError) :
    FailsAssertion (.error failure : Except SchedulerError Result) ↔ failure.isTokenAssertion := by
  constructor
  · rintro ⟨_, failed, assertion⟩
    cases failed
    exact assertion
  · exact fun assertion => ⟨failure, rfl, assertion⟩

instance {Result : Type} : (result : Except SchedulerError Result) →
    Decidable (FailsAssertion result)
  | .ok result => isFalse (failsAssertion_ok result)
  | .error failure => decidable_of_iff _ (failsAssertion_error failure).symm

theorem failsAssertion_bind {First Result : Type} {first : Except SchedulerError First}
    {next : First → Except SchedulerError Result} :
    FailsAssertion (first >>= next) ↔
      FailsAssertion first ∨ ∃ value, first = .ok value ∧ FailsAssertion (next value) := by
  cases first with
  | error failure =>
      change FailsAssertion (.error failure : Except SchedulerError Result) ↔ _
      simp
  | ok value =>
      rw [Checked.ok_bind]
      simp

theorem track_asserts_nothing (state : SchedulerState Token Lookups) (reqId : String)
    (tracker : RequestTracker Token) (loadSpec : Option LoadSpec) :
    ¬ FailsAssertion (SchedulerState.track config state reqId tracker loadSpec) := by
  unfold SchedulerState.track
  split <;> simp [SchedulerError.isTokenAssertion]

theorem buildNewRequest_asserts_nothing (numScheduledTokens : Nat)
    (newRequest : NewRequestData Token) (state : SchedulerState Token Lookups) :
    ¬ FailsAssertion (buildNewRequest config numScheduledTokens newRequest state) := by
  unfold buildNewRequest
  split
  · simp
  · rw [failsAssertion_bind]
    rintro (failed | ⟨tracker, _, failed⟩)
    · unfold RequestTracker.fromNewRequest at failed
      rw [failsAssertion_bind] at failed
      rcases failed with failed | ⟨_, _, failed⟩
      · unfold BlockIds.ofNewRequest at failed
        split at failed <;> simp [SchedulerError.isTokenAssertion] at failed
      · exact failsAssertion_ok _ failed
    · exact track_asserts_nothing _ _ _ _ failed

variable (config) in
/-- Scheduling a known request again fails an assertion exactly when it is resumed
and its load spec does not explain its computed tokens. -/
theorem buildCachedRequest_asserts {state : SchedulerState Token Lookups}
    (request : Request Token) (numScheduledTokens : Nat) {cached : CachedRequestData}
    (known : state.unfinishedRequests cached.reqId = true) :
    FailsAssertion (buildCachedRequest config request numScheduledTokens cached state) ↔
      (state.requestTrackers cached.reqId).isSome ∧
        FailsAssertion (checkPreempted cached.preempted (state.loadSpecs cached.reqId)
          request.numComputedTokens) := by
  unfold buildCachedRequest
  split
  · rename_i absent
    simp [absent, SchedulerError.isTokenAssertion]
  · rename_i tracker present
    rw [if_neg (by simp [known]), failsAssertion_bind, present]
    simp only [Option.isSome_some, true_and, or_iff_left_iff_imp]
    rintro ⟨_, _, failed⟩
    rw [failsAssertion_bind] at failed
    rcases failed with failed | ⟨_, _, failed⟩
    · -- the tokens of a resumed request are always handed over
      unfold RequestTracker.update at failed
      cases preempted : cached.preempted <;> simp [preempted] at failed
    · exact absurd failed (track_asserts_nothing _ _ _ _)

theorem Admission.admitted_numComputedTokens (admission : Admission Token)
    (numExternalTokens : Int) :
    (admission.admitted numExternalTokens).numComputedTokens =
      (admission.numLocalTokens + numExternalTokens).toNat := rfl

/-- A round of one request fails an assertion exactly when the request is resumed,
is tracked, and its load spec does not explain its computed tokens. -/
theorem buildConnectorMeta_asserts {state : SchedulerState Token Lookups}
    (admission : Admission Token) (numExternalTokens : Int)
    (known : state.unfinishedRequests admission.request.requestId = true) :
    FailsAssertion (buildConnectorMeta config (fun _ => admission.admitted numExternalTokens)
        (admission.output numExternalTokens) state) ↔
      admission.resumed ∧ (state.requestTrackers admission.request.requestId).isSome ∧
        FailsAssertion (checkPreempted true (state.loadSpecs admission.request.requestId)
          (admission.numLocalTokens + numExternalTokens).toNat) := by
  cases resumed : admission.resumed with
  | false =>
      simp only [buildConnectorMeta, Admission.output, resumed, buildAll, List.foldl_nil,
        failsAssertion_bind, Bool.false_eq_true, ↓reduceIte, false_and, iff_false]
      rintro ((failed | ⟨_, _, failed | ⟨_, _, failed⟩⟩) | ⟨_, _, failed | ⟨_, _, failed⟩⟩)
      · exact buildNewRequest_asserts_nothing _ _ _ failed
      all_goals exact failsAssertion_ok _ failed
  | true =>
      have asserts := buildCachedRequest_asserts config (admission.admitted numExternalTokens)
        admission.numScheduledTokens (show state.unfinishedRequests
          (CachedRequestData.mk admission.request.requestId (some admission.blockIds) true).reqId =
            true from known)
      rw [← Admission.admitted_numComputedTokens admission, ← asserts]
      simp only [buildConnectorMeta, Admission.output, resumed, buildAll, List.foldl_nil,
        failsAssertion_bind, ↓reduceIte, true_and]
      constructor
      · rintro (failed | ⟨_, ran, (failed | ⟨_, _, failed | ⟨_, _, failed⟩⟩) | ⟨_, _, failed⟩⟩)
        · exact absurd failed (failsAssertion_ok _)
        · cases ran
          exact failed
        all_goals exact absurd failed (failsAssertion_ok _)
      · exact fun failed => .inr ⟨_, rfl, .inl (.inl failed)⟩

theorem getNumNewMatchedTokens_pending {state : SchedulerState Token Lookups}
    {request : Request Token} (numComputedTokens : Nat)
    (found : looksUp config client request.requestId = true)
    (answered : (numExternalHitTokens config client request state).2 = none) :
    (getNumNewMatchedTokens config client request numComputedTokens state).2 = none := by
  unfold getNumNewMatchedTokens
  rw [if_neg (by simp [found])]
  split
  · rfl
  · rename_i answer
    rw [answer] at answered
    cases answered

theorem getNumNewMatchedTokens_hit {state : SchedulerState Token Lookups}
    {request : Request Token} {hit : Nat} (numComputedTokens : Nat)
    (found : looksUp config client request.requestId = true)
    (answered : (numExternalHitTokens config client request state).2 = some hit) :
    (getNumNewMatchedTokens config client request numComputedTokens state).2 =
        some (numNewMatched config request hit numComputedTokens) ∧
      (getNumNewMatchedTokens config client request numComputedTokens state).1.requestTrackers =
        state.requestTrackers ∧
      (getNumNewMatchedTokens config client request numComputedTokens state).1.loadSpecs
        request.requestId = some ⟨numComputedTokens, hit, false⟩ := by
  have kept := (numExternalHitTokens_keeps config client state request).2
  unfold getNumNewMatchedTokens
  rw [if_neg (by simp [found])]
  split
  · rename_i pending
    rw [pending] at answered
    cases answered
  · rename_i answer
    rw [answer] at answered kept
    cases answered
    exact ⟨rfl, kept, Function.update_self ..⟩

/-- vLLM is told the tokens to allocate, or nothing. -/
theorem numNewMatched_cases (request : Request Token) (hit numComputedTokens : Nat) :
    numNewMatched config request hit numComputedTokens = 0 ∨
      numNewMatched config request hit numComputedTokens =
        needToAllocate request hit numComputedTokens := by
  simp only [numNewMatched]
  split
  · exact .inl rfl
  · exact .inr rfl

/-- The computed tokens are the larger of the two counts exactly when the hit is
not needed, or loaded as a whole. -/
theorem computedTokens_explained_iff (request : Request Token) (hit numLocalTokens : Nat) :
    (numLocalTokens + numNewMatched config request hit numLocalTokens).toNat =
        max hit numLocalTokens ↔
      hit ≤ numLocalTokens ∨
        hit ≠ request.numTokens ∧ config.minRetrieveTokens ≤ (hit : Int) - numLocalTokens := by
  unfold numNewMatched belowMinRetrieve needToAllocate
  simp only [Bool.or_eq_true, Bool.and_eq_true, decide_eq_true_eq]
  split <;> split <;> omega

theorem checkPreempted_asserts (loadSpec : LoadSpec) (numComputedTokens : Nat) :
    FailsAssertion (checkPreempted true (some loadSpec) numComputedTokens) ↔
      numComputedTokens ≠ max loadSpec.lmcacheCachedTokens loadSpec.vllmCachedTokens := by
  by_cases explained : numComputedTokens =
      max loadSpec.lmcacheCachedTokens loadSpec.vllmCachedTokens
  · simp [checkPreempted, explained]
  · simp [checkPreempted, explained, SchedulerError.isTokenAssertion]

variable (config) in
/-- The recorded load spec calls for what vLLM is told, unless it is told nothing. -/
theorem recorded_agrees {state : SchedulerState Token Lookups} {request : Request Token}
    {hit numLocalTokens : Nat}
    (recorded : state.loadSpecs request.requestId = some ⟨numLocalTokens, hit, false⟩) :
    ∀ loadSpec, state.loadSpecs request.requestId = some loadSpec →
      numNewMatched config request hit numLocalTokens = 0 ∨
        numNewMatched config request hit numLocalTokens =
          loadSpec.lmcacheCachedTokens - loadSpec.vllmCachedTokens -
            if loadSpec.lmcacheCachedTokens = request.numTokens then 1 else 0 := by
  intro loadSpec present
  obtain rfl := Option.some.inj (recorded.symm.trans present)
  exact numNewMatched_cases request hit numLocalTokens

theorem checkPreempted_setCanLoad (preempted canLoad : Bool) (loadSpec : Option LoadSpec)
    (numComputedTokens : Nat) :
    checkPreempted preempted (loadSpec.map fun loadSpec => { loadSpec with canLoad })
        numComputedTokens =
      checkPreempted preempted loadSpec numComputedTokens := by
  cases preempted <;> cases loadSpec <;> rfl

variable (config client) in
/-- Allocation and round of a request that vLLM was given the right number for. -/
theorem admit_asserts {state : SchedulerState Token Lookups} (admission : Admission Token)
    (numExternalTokens : Int)
    (agrees : ∀ loadSpec, state.loadSpecs admission.request.requestId = some loadSpec →
      numExternalTokens = 0 ∨ numExternalTokens =
        loadSpec.lmcacheCachedTokens - loadSpec.vllmCachedTokens -
          if loadSpec.lmcacheCachedTokens = admission.request.numTokens then 1 else 0) :
    FailsAssertion (updateStateAfterAlloc client admission.request numExternalTokens state >>=
        buildConnectorMeta config (fun _ => admission.admitted numExternalTokens)
          (admission.output numExternalTokens)) ↔
      admission.resumed ∧ (state.requestTrackers admission.request.requestId).isSome ∧
        FailsAssertion (checkPreempted true (state.loadSpecs admission.request.requestId)
          (admission.numLocalTokens + numExternalTokens).toNat) := by
  obtain ⟨after, updated⟩ := exists_updateStateAfterAlloc client admission.request agrees
  obtain ⟨trackers, unfinished, loadSpecs⟩ := updateStateAfterAlloc_ok updated
  have known : after.unfinishedRequests admission.request.requestId = true := by
    rw [unfinished, Function.update_self]
  rw [updated, Checked.ok_bind, buildConnectorMeta_asserts admission numExternalTokens known, trackers, loadSpecs,
    Function.update_self, checkPreempted_setCanLoad]

/-- **When the assertions hold.** In every state that the connector can be in, a
scheduling round of a request fails none of the assertions about cached tokens
exactly when, resumed from preemption, the request is looked up and its hit is
either no more than the local one or loaded as a whole. -/
theorem schedule_assertions_iff {lookups : Lookups} {state : SchedulerState Token Lookups}
    (reached : Runs.Reaches (SchedulerCall.step config client) (fun _ _ => True)
      (SchedulerState.initial lookups) state) (admission : Admission Token) :
    ¬ FailsAssertion (admission.schedule config client state) ↔
      admission.AssertionsMet config client state := by
  have only := onlyLookedUp_of_reaches reached
  unfold Admission.schedule Admission.AssertionsMet Admission.SpecExplains
  cases found : looksUp config client admission.request.requestId with
  | false =>
      have absent := only _ found
      have ignored : getNumNewMatchedTokens config client admission.request
          admission.numLocalTokens state = (state, some 0) := by
        simp [getNumNewMatchedTokens, found]
      rw [ignored]
      cases allocated : admission.allocated with
      | false => simp
      | true =>
          have asserts := admit_asserts config client admission 0 fun loadSpec present => by
            rw [absent] at present
            cases present
          simp only [Bool.not_true, Bool.false_eq_true, ↓reduceIte, asserts, absent]
          simp [checkPreempted, SchedulerError.isTokenAssertion]
  | true =>
      cases answered : (numExternalHitTokens config client admission.request state).2 with
      | none =>
          have pending := getNumNewMatchedTokens_pending admission.numLocalTokens found answered
          generalize getNumNewMatchedTokens config client admission.request
            admission.numLocalTokens state = result at pending
          obtain ⟨after, told⟩ := result
          simp only at pending
          subst pending
          simp
      | some hit =>
          obtain ⟨matched, trackers, recorded⟩ :=
            getNumNewMatchedTokens_hit admission.numLocalTokens found answered
          generalize getNumNewMatchedTokens config client admission.request
            admission.numLocalTokens state = result at matched trackers recorded
          obtain ⟨after, told⟩ := result
          simp only at matched trackers recorded
          subst matched
          cases allocated : admission.allocated with
          | false => simp
          | true =>
              have asserts := admit_asserts config client admission _ (recorded_agrees config recorded)
              simp only [Bool.not_true, Bool.false_eq_true, ↓reduceIte, asserts, trackers,
                recorded, checkPreempted_asserts, ne_eq, computedTokens_explained_iff, not_and,
                not_not, Option.some.injEq, forall_eq', true_and, forall_const]

/-! ### Resumed requests -/

/-- A request of eight tokens, scheduled for the first time or, with four local
tokens, resumed from preemption. -/
def eightTokens (resumed : Bool) : Admission Nat where
  request := ⟨"req", 0, List.range 8, List.range 8, 0, [], [], none, none⟩
  numLocalTokens := if resumed then 4 else 0
  allocated := true
  resumed := resumed
  blockIds := .tuple [[0, 1]]
  numScheduledTokens := if resumed then 1 else 8

/-- The request is scheduled for the first time; later `hit` tokens can be found. -/
def firstRound (hit : Nat) : List (SchedulerCall Nat Nat) :=
  [.getNumNewMatchedTokens (eightTokens false).request 0,
    .updateStateAfterAlloc (eightTokens false).request 0,
    .buildConnectorMeta (fun _ => (eightTokens false).request) ((eightTokens false).output 0),
    .lookupsAnswered hit]

/-- With a hit of six tokens, four of them local, two are loaded. -/
theorem schedule_assertions_resumed :
    ∃ state, Runs.execute (SchedulerCall.step (smallScheduler .kvBoth 0) countingClient)
        (fun _ _ => True) (firstRound 6) (.initial 0) = some state ∧
      ¬ FailsAssertion ((eightTokens true).schedule (smallScheduler .kvBoth 0) countingClient
        state) := by
  have done : (Runs.execute (SchedulerCall.step (smallScheduler .kvBoth 0) countingClient)
      (fun _ _ => True) (firstRound 6) (.initial 0)).map SchedulerState.lookups = some 6 := by
    decide
  obtain ⟨state, executed, found⟩ := Option.map_eq_some_iff.mp done
  have reached := Runs.reaches_of_execute .refl executed
  refine ⟨state, executed, (schedule_assertions_iff reached _).mpr fun _ _ _ => ⟨by decide, ?_⟩⟩
  intro hit answered
  have six : hit = 6 := by
    simpa [numExternalHitTokens, countingClient, found, eq_comm] using answered
  subst six
  decide

/-- A round that ends with a failed assertion, after the first round. -/
theorem exists_failsAssertion {kvRole : KvRole} {minRetrieveTokens : Int} (hit : Nat)
    (done : (Runs.execute (SchedulerCall.step (smallScheduler kvRole minRetrieveTokens)
      countingClient) (fun _ _ => True) (firstRound hit) (.initial 0)).map
        (fun state => decide (FailsAssertion ((eightTokens true).schedule
          (smallScheduler kvRole minRetrieveTokens) countingClient state))) = some true) :
    ∃ state, Runs.Reaches (SchedulerCall.step (smallScheduler kvRole minRetrieveTokens)
        countingClient) (fun _ _ => True) (.initial 0) state ∧
      FailsAssertion ((eightTokens true).schedule (smallScheduler kvRole minRetrieveTokens)
        countingClient state) := by
  obtain ⟨state, executed, fails⟩ := Option.map_eq_some_iff.mp done
  exact ⟨state, Runs.reaches_of_execute .refl executed, of_decide_eq_true fails⟩

/-- A resumed request fails an assertion when it hits all its tokens, when its hit
is below the minimum to retrieve, and at a producer without reuse. -/
theorem schedule_fails_assertion :
    (∃ state, Runs.Reaches (SchedulerCall.step (smallScheduler .kvBoth 0) countingClient)
        (fun _ _ => True) (.initial 0) state ∧
      FailsAssertion ((eightTokens true).schedule (smallScheduler .kvBoth 0) countingClient
        state)) ∧
    (∃ state, Runs.Reaches (SchedulerCall.step (smallScheduler .kvBoth 4) countingClient)
        (fun _ _ => True) (.initial 0) state ∧
      FailsAssertion ((eightTokens true).schedule (smallScheduler .kvBoth 4) countingClient
        state)) ∧
    ∃ state, Runs.Reaches (SchedulerCall.step (smallScheduler .kvProducer 0) countingClient)
        (fun _ _ => True) (.initial 0) state ∧
      FailsAssertion ((eightTokens true).schedule (smallScheduler .kvProducer 0) countingClient
        state) :=
  ⟨exists_failsAssertion 8 (by decide), exists_failsAssertion 6 (by decide),
    exists_failsAssertion 0 (by decide)⟩

end LMCacheHcu.Connector
