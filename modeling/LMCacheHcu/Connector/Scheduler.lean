import LMCacheHcu.Connector.RequestMeta
import LMCacheHcu.Foundation.Checked
import LMCacheHcu.Lookup.PinnedLookups
import Mathlib.Logic.Function.Basic

/-! # The scheduler side of the connector

vLLM's scheduler asks the connector how many tokens of a waiting request LMCache
can load (`get_num_new_matched_tokens`), tells it when blocks were allocated
(`update_state_after_alloc`), and has it describe every scheduled request for the
workers (`build_connector_meta`). In between the connector keeps one load spec and
one tracker for each request, and live references to vLLM's own request objects.
-/

namespace LMCacheHcu.Connector

open LMCacheHcu.Lookup (KvRole)

variable {Token Lookups : Type}

/-- The exceptions of the scheduler side. -/
inductive SchedulerError
  | keyError
  | indexError
  | valueError
  | preemptedWithoutTokens
  | tokenCountMismatch
  | preemptedWithoutLoadSpec
  | computedTokensMismatch
  | requestMeta (failure : ConnectorError)
deriving DecidableEq, Repr

/-- `disagg_spec` of a request's transfer parameters. -/
structure DisaggParams where
  reqId : String
  receiverHost : String
  receiverInitPort : Nat
  receiverAllocPort : Nat
deriving DecidableEq, Repr

/-- vLLM's `Request`, as far as the connector reads it. -/
structure Request (Token : Type) where
  requestId : String
  priority : Int := 0
  promptTokenIds : List Token
  allTokenIds : List Token
  numComputedTokens : Nat
  mmHashes : List String := []
  mmPositions : List PlaceholderRange := []
  kvTransferParams : Option (List (String × ConfigValue)) := none
  disaggParams : Option DisaggParams := none
deriving DecidableEq, Repr

def Request.numTokens (request : Request Token) : Nat := request.allTokenIds.length

/-- `extract_request_configs`: the `lmcache.` entries, if there are any. -/
def extractRequestConfigs (kvTransferParams : Option (List (String × ConfigValue))) :
    Option (List (String × ConfigValue)) :=
  match (kvTransferParams.getD []).filter fun entry => entry.1.startsWith "lmcache." with
  | [] => none
  | configs => some configs

/-- Block ids as vLLM versions hand them over: a tuple of groups, or a list that
may be nested. -/
inductive BlockIds
  | tuple (groups : List (List Nat))
  | list (elems : List (Nat ⊕ List Nat))
deriving DecidableEq, Repr

/-- `NewRequestData`. -/
structure NewRequestData (Token : Type) where
  reqId : String
  promptTokenIds : List Token
  blockIds : BlockIds
  numComputedTokens : Nat
  mmHashes : List String := []
  mmPositions : List PlaceholderRange := []
  kvTransferParams : Option (List (String × ConfigValue)) := none
deriving DecidableEq, Repr

/-- One entry of `CachedRequestData`. -/
structure CachedRequestData where
  reqId : String
  newBlockIds : Option BlockIds
  preempted : Bool
deriving DecidableEq, Repr

structure SchedulerOutput (Token : Type) where
  finishedReqIds : List String
  scheduledNewReqs : List (NewRequestData Token)
  scheduledCachedReqs : List CachedRequestData
  numScheduledTokens : String → Nat

/-- The lookup client, which is not part of the repository. `none` in the lookup
cache is its answer -1, and an inner `none` a lookup that is still under way. -/
structure LookupClient (Token Lookups : Type) where
  supportsProducerReuse : Bool
  lookupCache : Lookups → String → Option (Option Nat)
  lookup : List Token → String → Option (List (String × ConfigValue)) → Lookups →
    Lookups × Option Nat
  clearLookupStatus : String → Lookups → Lookups

structure SchedulerConfig (Token : Type) extends ConnectorConfig Token where
  kvRole : KvRole
  forceSkipSave : Bool
  priorityLimit : Option Int
  minRetrieveTokens : Int
  skipLastNTokens : Nat

/-- What the connector keeps between the calls. `unfinishedRequests` holds live
references, so it says here which requests are known; what they are is vLLM's. -/
structure SchedulerState (Token Lookups : Type) where
  loadSpecs : String → Option LoadSpec
  unfinishedRequests : String → Bool
  requestTrackers : String → Option (RequestTracker Token)
  requestsPriority : String → Option Int
  tmpDisaggTracker : String → Option DisaggSpec
  lookups : Lookups

/-- A connector that has served no request. -/
def SchedulerState.initial (lookups : Lookups) : SchedulerState Token Lookups where
  loadSpecs _ := none
  unfinishedRequests _ := false
  requestTrackers _ := none
  requestsPriority _ := none
  tmpDisaggTracker _ := none
  lookups := lookups

/-! ### Trackers -/

/-- The block ids of a new request: the first group. -/
def BlockIds.ofNewRequest : BlockIds → Except SchedulerError (List Nat)
  | .tuple [] | .list [] => .error .indexError
  | .tuple (group :: _) | .list (.inr group :: _) => .ok group
  | .list (.inl block :: elems) =>
      .ok (block :: elems.flatMap fun elem => elem.elim (fun other => [other]) id)

/-- The block ids that an update adds: the first group, or the flattened list. -/
def BlockIds.ofUpdate : Option BlockIds → List Nat
  | none | some (.tuple []) => []
  | some (.tuple (group :: _)) => group
  | some (.list elems) => elems.flatMap fun elem => elem.elim (fun block => [block]) id

namespace RequestTracker

/-- `RequestTracker.from_new_request`. -/
def fromNewRequest (newRequest : NewRequestData Token) (numTokensToCompute lmcacheCachedTokens : Nat)
    (disaggSpec : Option DisaggSpec) (skipSave : Bool) :
    Except SchedulerError (RequestTracker Token) := do
  let unfoldedBlockIds ← newRequest.blockIds.ofNewRequest
  return {
    reqId := newRequest.reqId
    promptLen := newRequest.promptTokenIds.length
    tokenIds := newRequest.promptTokenIds.take numTokensToCompute
    allocatedBlockIds := unfoldedBlockIds
    numSavedTokens := lmcacheCachedTokens
    disaggSpec := disaggSpec
    mmHashes := some newRequest.mmHashes
    mmPositions := some newRequest.mmPositions
    requestConfigs := extractRequestConfigs newRequest.kvTransferParams
    skipSave := skipSave }

/-- `RequestTracker.update`. -/
def update (tracker : RequestTracker Token) (newTokenIds : List Token)
    (newBlockIds : Option BlockIds) (preempted : Bool)
    (lmcacheCachedTokens vllmCachedTokens : Nat) (allTokenIds : Option (List Token)) :
    Except SchedulerError (RequestTracker Token) := do
  let newBlockIds := BlockIds.ofUpdate newBlockIds
  let scheduled ←
    if preempted then
      match allTokenIds with
      | none => .error .preemptedWithoutTokens
      | some allTokenIds =>
          let numComputedTokens := max lmcacheCachedTokens vllmCachedTokens
          let numTokensNeeded :=
            max (numComputedTokens + newTokenIds.length) lmcacheCachedTokens
          .ok { tracker with
            allocatedBlockIds := newBlockIds
            numSavedTokens := lmcacheCachedTokens
            tokenIds := allTokenIds.take numTokensNeeded }
    else
      .ok { tracker with
        allocatedBlockIds := tracker.allocatedBlockIds ++ newBlockIds
        tokenIds := tracker.tokenIds ++ newTokenIds }
  -- a single token counts as decoding, also when it is a chunk of the prompt
  return if newTokenIds.length = 1 then { scheduled with isDecodePhase := true } else scheduled

/-- The truncation of `build_connector_meta`: when vLLM has computed fewer tokens
than the tracker holds, those are kept for which there are slots. -/
def rollBack (blockSize : Nat) (allTokenIds : List Token) (numCurrentTokens : Nat)
    (tracker : RequestTracker Token) : RequestTracker Token :=
  if numCurrentTokens < tracker.tokenIds.length then
    let numTokenSlots := tracker.allocatedBlockIds.length * blockSize
    let tokensToKeep := if numTokenSlots < numCurrentTokens then numTokenSlots else numCurrentTokens
    { tracker with
      tokenIds := allTokenIds.take tokensToKeep
      numSavedTokens := min tracker.numSavedTokens tokensToKeep }
  else tracker

variable (tracker : RequestTracker Token) (newTokenIds : List Token)
  (newBlockIds : Option BlockIds) (lmcacheCachedTokens vllmCachedTokens : Nat)

/-- The update of a request that keeps running. -/
theorem update_running (allTokenIds : Option (List Token)) :
    tracker.update newTokenIds newBlockIds false lmcacheCachedTokens vllmCachedTokens allTokenIds =
      .ok { tracker with
        allocatedBlockIds := tracker.allocatedBlockIds ++ BlockIds.ofUpdate newBlockIds
        tokenIds := tracker.tokenIds ++ newTokenIds
        isDecodePhase := tracker.isDecodePhase || decide (newTokenIds.length = 1) } := by
  by_cases single : newTokenIds.length = 1
  · simp [update, single, pure, Except.pure, bind, Except.bind]
  · simp [update, single, pure, Except.pure, bind, Except.bind]

/-- The update of a request that is resumed from preemption. -/
theorem update_resumed (allTokenIds : List Token) :
    tracker.update newTokenIds newBlockIds true lmcacheCachedTokens vllmCachedTokens
        (some allTokenIds) =
      .ok { tracker with
        allocatedBlockIds := BlockIds.ofUpdate newBlockIds
        numSavedTokens := lmcacheCachedTokens
        tokenIds := allTokenIds.take (max (max lmcacheCachedTokens vllmCachedTokens +
          newTokenIds.length) lmcacheCachedTokens)
        isDecodePhase := tracker.isDecodePhase || decide (newTokenIds.length = 1) } := by
  by_cases single : newTokenIds.length = 1
  · simp [update, single, pure, Except.pure, bind, Except.bind]
  · simp [update, single, pure, Except.pure, bind, Except.bind]

end RequestTracker

/-! ### Before a request is scheduled -/

section Calls

variable (config : SchedulerConfig Token) (client : LookupClient Token Lookups)

/-- Mock requests of DP attention are ignored. -/
def isMock (requestId : String) : Bool := requestId.startsWith "mock_req"

/-- A producer looks nothing up unless its client supports reuse. -/
def looksUp (requestId : String) : Bool :=
  !isMock requestId && !(config.kvRole == .kvProducer && !client.supportsProducerReuse)

/-- The tokens that are looked up. -/
def lookupTokenIds (request : Request Token) : List Token :=
  let tokenIds :=
    if request.mmHashes.isEmpty || request.mmPositions.isEmpty then request.allTokenIds
    else config.applyMmHashes request.promptTokenIds request.mmHashes request.mmPositions
  if 0 < config.skipLastNTokens then tokenIds.take (tokenIds.length - config.skipLastNTokens)
  else tokenIds

/-- The hit tokens of a request, from the lookup cache or by a new lookup. -/
def numExternalHitTokens (request : Request Token) (state : SchedulerState Token Lookups) :
    SchedulerState Token Lookups × Option Nat :=
  match client.lookupCache state.lookups request.requestId with
  | some answer => (state, answer)
  | none =>
      let (lookups, answer) := client.lookup (lookupTokenIds config request) request.requestId
        (extractRequestConfigs request.kvTransferParams) state.lookups
      ({ state with
        requestsPriority :=
          Function.update state.requestsPriority request.requestId (some request.priority)
        lookups }, answer)

/-- The tokens to allocate for a hit. After a full hit the last token has to be
computed again. -/
def needToAllocate (request : Request Token) (hitTokens numComputedTokens : Nat) : Int :=
  (hitTokens : Int) - numComputedTokens - if hitTokens = request.numTokens then 1 else 0

def belowMinRetrieve (needed : Int) : Bool :=
  decide (0 < config.minRetrieveTokens) && decide (needed < config.minRetrieveTokens)

/-- What the scheduler is told for a hit. -/
def numNewMatched (request : Request Token) (hitTokens numComputedTokens : Nat) : Int :=
  let needed := needToAllocate request hitTokens numComputedTokens
  if belowMinRetrieve config needed || decide (needed ≤ 0) then 0 else needed

/-- `get_num_new_matched_tokens`; `none` while a lookup is under way. -/
def getNumNewMatchedTokens (request : Request Token) (numComputedTokens : Nat)
    (state : SchedulerState Token Lookups) : SchedulerState Token Lookups × Option Int :=
  if !looksUp config client request.requestId then (state, some 0)
  else
    match numExternalHitTokens config client request state with
    | (state, none) => (state, none)
    | (state, some hitTokens) =>
        ({ state with
          loadSpecs := Function.update state.loadSpecs request.requestId
            (some ⟨numComputedTokens, hitTokens, false⟩) },
          some (numNewMatched config request hitTokens numComputedTokens))

/-- The `DisaggSpec` that transfer parameters ask for. -/
def DisaggParams.spec (params : DisaggParams) : DisaggSpec where
  reqId := params.reqId
  receiverId := params.receiverHost ++ toString params.receiverInitPort
  receiverHost := params.receiverHost
  receiverInitPort := params.receiverInitPort
  receiverAllocPort := params.receiverAllocPort
  isLastPrefill := false
  numTransferredTokens := 0

/-- `update_state_after_alloc`. -/
def updateStateAfterAlloc (request : Request Token) (numExternalTokens : Int)
    (state : SchedulerState Token Lookups) : Except SchedulerError (SchedulerState Token Lookups) :=
  let state := { state with
    lookups := client.clearLookupStatus request.requestId state.lookups
    tmpDisaggTracker :=
      match request.disaggParams with
      | none => state.tmpDisaggTracker
      | some params =>
          Function.update state.tmpDisaggTracker request.requestId (some params.spec)
    unfinishedRequests := Function.update state.unfinishedRequests request.requestId true }
  match state.loadSpecs request.requestId with
  | none => .ok state
  | some loadSpec =>
      let setCanLoad (canLoad : Bool) : SchedulerState Token Lookups := { state with
        loadSpecs := Function.update state.loadSpecs request.requestId
          (some { loadSpec with canLoad }) }
      let recalcLast : Int := if loadSpec.lmcacheCachedTokens = request.numTokens then 1 else 0
      if numExternalTokens = 0 then .ok (setCanLoad false)
      else if numExternalTokens ≠
          loadSpec.lmcacheCachedTokens - loadSpec.vllmCachedTokens - recalcLast then
        .error .tokenCountMismatch
      else .ok (setCanLoad true)

/-! ### A scheduling round -/

/-- The state after a tracker was changed and described. -/
def SchedulerState.track (state : SchedulerState Token Lookups) (reqId : String)
    (tracker : RequestTracker Token) (loadSpec : Option LoadSpec) :
    Except SchedulerError (SchedulerState Token Lookups × Option (ReqMeta Token)) :=
  match fromRequestTracker config.toConnectorConfig tracker loadSpec with
  | .error failure => .error (.requestMeta failure)
  | .ok (reqMeta, tracker) =>
      .ok ({ state with
        requestTrackers := Function.update state.requestTrackers reqId (some tracker) },
        reqMeta)

/-- `skip_save` of a new request: a consumer saves nothing, and no connector saves
a request beyond the priority limit. -/
def skipsSave (requestPriority : Int) : Bool :=
  (config.kvRole == .kvConsumer || config.forceSkipSave) ||
    config.priorityLimit.any fun limit => limit < requestPriority

/-- A newly scheduled request in `build_connector_meta`. -/
def buildNewRequest (numScheduledTokens : Nat) (newRequest : NewRequestData Token)
    (state : SchedulerState Token Lookups) :
    Except SchedulerError (SchedulerState Token Lookups × Option (ReqMeta Token)) :=
  if isMock newRequest.reqId then .ok (state, none)
  else do
    let loadSpec := state.loadSpecs newRequest.reqId
    let numTokensToCompute := newRequest.numComputedTokens + numScheduledTokens
    let lmcacheCachedTokens := (loadSpec.map LoadSpec.lmcacheCachedTokens).getD 0
    let requestPriority := (state.requestsPriority newRequest.reqId).getD 0
    let tracker ← RequestTracker.fromNewRequest newRequest numTokensToCompute lmcacheCachedTokens
      (state.tmpDisaggTracker newRequest.reqId) (skipsSave config requestPriority)
    SchedulerState.track config { state with
      loadSpecs := Function.update state.loadSpecs newRequest.reqId none
      requestsPriority := Function.update state.requestsPriority newRequest.reqId none
      tmpDisaggTracker := Function.update state.tmpDisaggTracker newRequest.reqId none }
      newRequest.reqId tracker loadSpec

/-- The assertions about a request that is resumed from preemption. -/
def checkPreempted (preempted : Bool) (loadSpec : Option LoadSpec) (numComputedTokens : Nat) :
    Except SchedulerError Unit :=
  match preempted, loadSpec with
  | false, _ => .ok ()
  | true, none => .error .preemptedWithoutLoadSpec
  | true, some loadSpec =>
      if numComputedTokens = max loadSpec.lmcacheCachedTokens loadSpec.vllmCachedTokens then .ok ()
      else .error .computedTokensMismatch

/-- A request scheduled again in `build_connector_meta`; `request` is what the
live reference shows. -/
def buildCachedRequest (request : Request Token) (numScheduledTokens : Nat)
    (cached : CachedRequestData) (state : SchedulerState Token Lookups) :
    Except SchedulerError (SchedulerState Token Lookups × Option (ReqMeta Token)) :=
  match state.requestTrackers cached.reqId with
  | none => .error .keyError
  | some tracker =>
      if !state.unfinishedRequests cached.reqId then .error .valueError
      else do
        let numCurrentTokens := request.numComputedTokens
        let newTokenIds := (request.allTokenIds.drop numCurrentTokens).take numScheduledTokens
        let loadSpec := state.loadSpecs cached.reqId
        checkPreempted cached.preempted loadSpec request.numComputedTokens
        let tracker :=
          tracker.rollBack config.blockSize request.allTokenIds numCurrentTokens
        let tracker ← tracker.update newTokenIds cached.newBlockIds cached.preempted
          ((loadSpec.map LoadSpec.lmcacheCachedTokens).getD 0)
          ((loadSpec.map LoadSpec.vllmCachedTokens).getD 0)
          (if cached.preempted then some request.allTokenIds else none)
        SchedulerState.track config { state with
          loadSpecs := Function.update state.loadSpecs cached.reqId none }
          cached.reqId tracker loadSpec

/-- Run the rounds of a list of requests and collect their metadata. -/
def buildAll {Item : Type}
    (build : Item → SchedulerState Token Lookups →
      Except SchedulerError (SchedulerState Token Lookups × Option (ReqMeta Token))) :
    List Item → SchedulerState Token Lookups →
      Except SchedulerError (SchedulerState Token Lookups × List (ReqMeta Token))
  | [], state => .ok (state, [])
  | item :: items, state => do
      let (state, reqMeta) ← build item state
      let (state, later) ← buildAll build items state
      return (state, reqMeta.toList ++ later)

def SchedulerState.finish (state : SchedulerState Token Lookups) (reqId : String) :
    SchedulerState Token Lookups :=
  { state with
    requestTrackers := Function.update state.requestTrackers reqId none
    unfinishedRequests := Function.update state.unfinishedRequests reqId false }

/-- `build_connector_meta`; `requests` is what the live references show. -/
def buildConnectorMeta (requests : String → Request Token) (output : SchedulerOutput Token)
    (state : SchedulerState Token Lookups) :
    Except SchedulerError (SchedulerState Token Lookups × List (ReqMeta Token)) := do
  let state := output.finishedReqIds.foldl SchedulerState.finish state
  let (state, newMeta) ← buildAll
    (fun newRequest => buildNewRequest config (output.numScheduledTokens newRequest.reqId)
      newRequest) output.scheduledNewReqs state
  let (state, cachedMeta) ← buildAll
    (fun cached => buildCachedRequest config (requests cached.reqId)
      (output.numScheduledTokens cached.reqId) cached) output.scheduledCachedReqs state
  return (state, newMeta ++ cachedMeta)

end Calls

/-! ### What the calls change -/

section Effects

variable {config : SchedulerConfig Token} {client : LookupClient Token Lookups}
  {state after : SchedulerState Token Lookups} {reqId : String}

variable (config client state) in
/-- A lookup changes neither load specs nor trackers. -/
theorem numExternalHitTokens_keeps (request : Request Token) :
    (numExternalHitTokens config client request state).1.loadSpecs = state.loadSpecs ∧
      (numExternalHitTokens config client request state).1.requestTrackers =
        state.requestTrackers := by
  unfold numExternalHitTokens
  split <;> exact ⟨rfl, rfl⟩

variable (config client state) in
theorem getNumNewMatchedTokens_requestTrackers (request : Request Token)
    (numComputedTokens : Nat) :
    (getNumNewMatchedTokens config client request numComputedTokens state).1.requestTrackers =
      state.requestTrackers := by
  have kept := (numExternalHitTokens_keeps config client state request).2
  unfold getNumNewMatchedTokens
  split
  · rfl
  · split
    · rename_i pending
      rwa [pending] at kept
    · rename_i answered
      rwa [answered] at kept

theorem updateStateAfterAlloc_ok {request : Request Token} {numExternalTokens : Int}
    (updated : updateStateAfterAlloc client request numExternalTokens state = .ok after) :
    after.requestTrackers = state.requestTrackers ∧
      after.unfinishedRequests =
        Function.update state.unfinishedRequests request.requestId true ∧
      after.loadSpecs = Function.update state.loadSpecs request.requestId
        ((state.loadSpecs request.requestId).map fun loadSpec =>
          { loadSpec with canLoad := decide (numExternalTokens ≠ 0) }) := by
  unfold updateStateAfterAlloc at updated
  simp only at updated
  split at updated
  · rename_i absent
    cases updated
    refine ⟨rfl, rfl, ?_⟩
    rw [absent, Option.map_none, ← absent, Function.update_eq_self]
  · rename_i loadSpec present
    split at updated
    · rename_i zero
      cases updated
      simp [present, zero]
    · rename_i nonzero
      obtain ⟨_, updated⟩ := Checked.check_ok.mp updated
      cases updated
      simp [present, nonzero]

variable (client) in
/-- The call returns when the number is the one the load spec calls for. -/
theorem exists_updateStateAfterAlloc (request : Request Token) {numExternalTokens : Int}
    (agrees : ∀ loadSpec, state.loadSpecs request.requestId = some loadSpec →
      numExternalTokens = 0 ∨ numExternalTokens =
        loadSpec.lmcacheCachedTokens - loadSpec.vllmCachedTokens -
          if loadSpec.lmcacheCachedTokens = request.numTokens then 1 else 0) :
    ∃ after, updateStateAfterAlloc client request numExternalTokens state = .ok after := by
  unfold updateStateAfterAlloc
  simp only
  split
  · exact ⟨_, rfl⟩
  · rename_i loadSpec present
    rcases agrees loadSpec present with zero | same
    · exact ⟨_, if_pos zero⟩
    · by_cases zero : numExternalTokens = 0
      · exact ⟨_, if_pos zero⟩
      · rw [if_neg zero, if_neg (not_not.mpr same)]
        exact ⟨_, rfl⟩

/-- A step of `build_connector_meta` concerns one request. -/
structure Concerns (reqId : String) (before after : SchedulerState Token Lookups) : Prop where
  requestTrackers : ∀ other, other ≠ reqId →
    after.requestTrackers other = before.requestTrackers other
  unfinishedRequests : after.unfinishedRequests = before.unfinishedRequests
  loadSpecs : ∀ other, after.loadSpecs other = before.loadSpecs other ∨ after.loadSpecs other = none

theorem Concerns.of_update {tracker : RequestTracker Token}
    (requestTrackers : after.requestTrackers =
      Function.update state.requestTrackers reqId (some tracker))
    (unfinishedRequests : after.unfinishedRequests = state.unfinishedRequests)
    (loadSpecs : after.loadSpecs = Function.update state.loadSpecs reqId none) :
    Concerns reqId state after where
  requestTrackers other different := by rw [requestTrackers, Function.update_of_ne different]
  unfinishedRequests := unfinishedRequests
  loadSpecs other := by
    by_cases same : other = reqId
    · exact .inr (by rw [loadSpecs, same, Function.update_self])
    · exact .inl (by rw [loadSpecs, Function.update_of_ne same])

theorem track_ok {tracker : RequestTracker Token} {loadSpec : Option LoadSpec}
    {reqMeta : Option (ReqMeta Token)}
    (tracked : SchedulerState.track config state reqId tracker loadSpec = .ok (after, reqMeta)) :
    ∃ saved, fromRequestTracker config.toConnectorConfig tracker loadSpec = .ok (reqMeta, saved) ∧
      after = { state with
        requestTrackers := Function.update state.requestTrackers reqId (some saved) } := by
  unfold SchedulerState.track at tracked
  split at tracked
  · cases tracked
  · rename_i made
    cases tracked
    exact ⟨_, made, rfl⟩

theorem buildNewRequest_ok {numScheduledTokens : Nat} {newRequest : NewRequestData Token}
    {reqMeta : Option (ReqMeta Token)} (real : isMock newRequest.reqId = false)
    (built : buildNewRequest config numScheduledTokens newRequest state = .ok (after, reqMeta)) :
    ∃ tracker saved,
      RequestTracker.fromNewRequest newRequest
          (newRequest.numComputedTokens + numScheduledTokens)
          (((state.loadSpecs newRequest.reqId).map LoadSpec.lmcacheCachedTokens).getD 0)
          (state.tmpDisaggTracker newRequest.reqId)
          (skipsSave config ((state.requestsPriority newRequest.reqId).getD 0)) = .ok tracker ∧
        fromRequestTracker config.toConnectorConfig tracker (state.loadSpecs newRequest.reqId) =
          .ok (reqMeta, saved) ∧
        after.requestTrackers =
          Function.update state.requestTrackers newRequest.reqId (some saved) ∧
        Concerns newRequest.reqId state after := by
  unfold buildNewRequest at built
  rw [if_neg (by simp [real])] at built
  obtain ⟨tracker, made, built⟩ := Checked.bind_ok.mp built
  obtain ⟨saved, described, rfl⟩ := track_ok built
  exact ⟨tracker, saved, made, described, rfl, .of_update rfl rfl rfl⟩

theorem buildNewRequest_concerns {numScheduledTokens : Nat} {newRequest : NewRequestData Token}
    {reqMeta : Option (ReqMeta Token)}
    (built : buildNewRequest config numScheduledTokens newRequest state = .ok (after, reqMeta)) :
    Concerns newRequest.reqId state after := by
  cases mock : isMock newRequest.reqId with
  | false =>
      obtain ⟨_, _, _, _, _, concerns⟩ := buildNewRequest_ok mock built
      exact concerns
  | true =>
      rw [buildNewRequest, if_pos mock] at built
      cases built
      exact ⟨fun _ _ => rfl, rfl, fun _ => .inl rfl⟩

theorem buildCachedRequest_ok {request : Request Token} {numScheduledTokens : Nat}
    {cached : CachedRequestData} {reqMeta : Option (ReqMeta Token)}
    (built : buildCachedRequest config request numScheduledTokens cached state =
      .ok (after, reqMeta)) :
    ∃ tracker updated saved, state.requestTrackers cached.reqId = some tracker ∧
      checkPreempted cached.preempted (state.loadSpecs cached.reqId)
        request.numComputedTokens = .ok () ∧
      (tracker.rollBack config.blockSize request.allTokenIds request.numComputedTokens).update
          ((request.allTokenIds.drop request.numComputedTokens).take numScheduledTokens)
          cached.newBlockIds cached.preempted
          (((state.loadSpecs cached.reqId).map LoadSpec.lmcacheCachedTokens).getD 0)
          (((state.loadSpecs cached.reqId).map LoadSpec.vllmCachedTokens).getD 0)
          (if cached.preempted then some request.allTokenIds else none) = .ok updated ∧
      fromRequestTracker config.toConnectorConfig updated (state.loadSpecs cached.reqId) =
        .ok (reqMeta, saved) ∧
      after.requestTrackers = Function.update state.requestTrackers cached.reqId (some saved) ∧
      Concerns cached.reqId state after := by
  unfold buildCachedRequest at built
  split at built
  · cases built
  · rename_i tracker present
    split at built
    · cases built
    · obtain ⟨_, checked, built⟩ := Checked.bind_ok.mp built
      obtain ⟨updated, changed, built⟩ := Checked.bind_ok.mp built
      obtain ⟨saved, described, rfl⟩ := track_ok built
      exact ⟨tracker, updated, saved, present, checked, changed, described, rfl,
        .of_update rfl rfl rfl⟩

/-- What every request of a list preserves, all of them preserve. -/
theorem buildAll_ok {Item : Type} (holds : SchedulerState Token Lookups → Prop)
    {build : Item → SchedulerState Token Lookups →
      Except SchedulerError (SchedulerState Token Lookups × Option (ReqMeta Token))}
    {items : List Item} {reqMetas : List (ReqMeta Token)}
    (built : buildAll build items state = .ok (after, reqMetas)) (initial : holds state)
    (preserved : ∀ item ∈ items, ∀ before next reqMeta, holds before →
      build item before = .ok (next, reqMeta) → holds next) : holds after := by
  induction items generalizing state reqMetas with
  | nil =>
      cases built
      exact initial
  | cons item items ih =>
      obtain ⟨⟨next, reqMeta⟩, first, built⟩ := Checked.bind_ok.mp built
      obtain ⟨⟨final, later⟩, rest, returned⟩ := Checked.bind_ok.mp built
      cases returned
      exact ih rest (preserved item (List.mem_cons_self ..) state next reqMeta initial first)
        fun other member => preserved other (List.mem_cons_of_mem _ member)

/-- What the end of a request, a new request and a request scheduled again
preserve, a whole round preserves. -/
theorem buildConnectorMeta_ok (holds : SchedulerState Token Lookups → Prop)
    {requests : String → Request Token} {output : SchedulerOutput Token}
    {reqMetas : List (ReqMeta Token)} (initial : holds state)
    (built : buildConnectorMeta config requests output state = .ok (after, reqMetas))
    (finished : ∀ reqId before, holds before → holds (before.finish reqId))
    (new : ∀ newRequest ∈ output.scheduledNewReqs, ∀ before next reqMeta, holds before →
      buildNewRequest config (output.numScheduledTokens newRequest.reqId) newRequest before =
        .ok (next, reqMeta) → holds next)
    (cached : ∀ cached ∈ output.scheduledCachedReqs, ∀ before next reqMeta, holds before →
      buildCachedRequest config (requests cached.reqId) (output.numScheduledTokens cached.reqId)
        cached before = .ok (next, reqMeta) → holds next) : holds after := by
  have ended (reqIds : List String) (before : SchedulerState Token Lookups)
      (unfinished : holds before) : holds (reqIds.foldl SchedulerState.finish before) := by
    induction reqIds generalizing before with
    | nil => exact unfinished
    | cons reqId reqIds ih => exact ih _ (finished reqId before unfinished)
  obtain ⟨⟨middle, newMeta⟩, news, built⟩ := Checked.bind_ok.mp built
  obtain ⟨⟨final, cachedMeta⟩, cacheds, returned⟩ := Checked.bind_ok.mp built
  cases returned
  exact buildAll_ok holds cacheds (buildAll_ok holds news (ended _ state initial) new) cached

end Effects

/-! ### A small connector -/

/-- A connector with chunks of four tokens. -/
def smallScheduler (kvRole : KvRole) (minRetrieveTokens : Int) : SchedulerConfig Nat where
  blockSize := 4
  chunkSize := 4
  discardPartialChunks := true
  saveDecodeCache := false
  applyMmHashes := plainTokens
  blockSize_pos := Nat.succ_pos 3
  chunkSize_pos := Nat.succ_pos 3
  length_applyMmHashes := length_plainTokens
  kvRole := kvRole
  forceSkipSave := false
  priorityLimit := none
  minRetrieveTokens := minRetrieveTokens
  skipLastNTokens := 0

/-- A client whose state is the number of tokens that it finds. -/
def countingClient : LookupClient Nat Nat where
  supportsProducerReuse := false
  lookupCache _ _ := none
  lookup _ _ _ hit := (hit, some hit)
  clearLookupStatus _ hit := hit

end LMCacheHcu.Connector
