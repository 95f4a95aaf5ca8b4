import LMCacheHcu.Connector.Scheduler
import LMCacheHcu.Foundation.Runs

/-! # The tokens of a tracker

A chunk key hashes the tokens of the tracker, and its slots are where vLLM keeps
the KV of the request's tokens at the same positions. The two belong together as
long as the tracker holds a prefix of the request. Trackers are sliced, extended,
replaced and truncated from live references, while vLLM appends tokens and may
reset the number of computed ones.
-/

namespace LMCacheHcu.Connector

variable {Token Lookups : Type}

/-- The connector next to vLLM's request objects. `built` is what the last event
told the workers. -/
structure ConnectorWorld (Token Lookups : Type) where
  requests : String → Request Token
  scheduler : SchedulerState Token Lookups
  built : List (ReqMeta Token)

/-- vLLM changes one of its requests or calls the connector. A round of
`build_connector_meta` is one event for each request in it. -/
inductive ConnectorEvent (Token Lookups : Type)
  | requestChanged (request : Request Token)
  | lookupsAnswered (lookups : Lookups)
  | getNumNewMatchedTokens (reqId : String) (numComputedTokens : Nat)
  | updateStateAfterAlloc (reqId : String) (numExternalTokens : Int)
  | finished (reqId : String)
  | scheduledNew (newRequest : NewRequestData Token) (numScheduledTokens : Nat)
  | scheduledCached (cached : CachedRequestData) (numScheduledTokens : Nat)

variable (config : SchedulerConfig Token) (client : LookupClient Token Lookups)

namespace ConnectorWorld

/-- The world after a request of a round. -/
def afterBuild (world : ConnectorWorld Token Lookups) :
    Except SchedulerError (SchedulerState Token Lookups × Option (ReqMeta Token)) →
      Option (ConnectorWorld Token Lookups)
  | .ok (scheduler, reqMeta) => some { world with scheduler, built := reqMeta.toList }
  | .error _ => none

def step (world : ConnectorWorld Token Lookups) :
    ConnectorEvent Token Lookups → Option (ConnectorWorld Token Lookups)
  | .requestChanged request =>
      some { world with
        requests := Function.update world.requests request.requestId request
        built := [] }
  | .lookupsAnswered lookups =>
      some { world with scheduler := { world.scheduler with lookups }, built := [] }
  | .getNumNewMatchedTokens reqId numComputedTokens =>
      some { world with
        scheduler := (getNumNewMatchedTokens config client (world.requests reqId)
          numComputedTokens world.scheduler).1
        built := [] }
  | .updateStateAfterAlloc reqId numExternalTokens =>
      world.afterBuild ((updateStateAfterAlloc client (world.requests reqId) numExternalTokens
        world.scheduler).map fun scheduler => (scheduler, none))
  | .finished reqId => some { world with scheduler := world.scheduler.finish reqId, built := [] }
  | .scheduledNew newRequest numScheduledTokens =>
      world.afterBuild (buildNewRequest config numScheduledTokens newRequest world.scheduler)
  | .scheduledCached cached numScheduledTokens =>
      world.afterBuild (buildCachedRequest config (world.requests cached.reqId)
        numScheduledTokens cached world.scheduler)

/-- What vLLM promises, and that no truncation is capped by the slots of the
tracker. Tokens of a tracked request are only appended, a new request is scheduled
with its prompt, and a running one has no more tokens computed than were scheduled. -/
def TokensKept (world : ConnectorWorld Token Lookups) : ConnectorEvent Token Lookups → Prop
  | .requestChanged request =>
      (world.scheduler.requestTrackers request.requestId).isSome →
        (world.requests request.requestId).allTokenIds <+: request.allTokenIds
  | .scheduledNew newRequest _ =>
      newRequest.promptTokenIds <+: (world.requests newRequest.reqId).allTokenIds
  | .scheduledCached cached _ =>
      cached.preempted = false →
        ∀ tracker ∈ world.scheduler.requestTrackers cached.reqId,
          (world.requests cached.reqId).numComputedTokens ≤ tracker.tokenIds.length ∧
            ((world.requests cached.reqId).numComputedTokens < tracker.tokenIds.length →
              (world.requests cached.reqId).numComputedTokens ≤
                tracker.allocatedBlockIds.length * config.blockSize)
  | _ => True

instance [DecidableEq Token] (world : ConnectorWorld Token Lookups)
    (event : ConnectorEvent Token Lookups) : Decidable (world.TokensKept config event) := by
  cases event <;> unfold TokensKept <;> infer_instance

end ConnectorWorld

/-- The tokens of the metadata: a prefix of the request's, with its multimodal
hashes applied. -/
def hashedTokens (tracker : RequestTracker Token) (tokenIds : List Token) : List Token :=
  match tracker.mmHashes, tracker.mmPositions with
  | some (hash :: hashes), some positions =>
      config.applyMmHashes tokenIds (hash :: hashes) positions
  | _, _ => tokenIds

/-- The metadata names the first tokens of the request and the slots of the blocks
that hold these positions. -/
def DescribesTokens (request : Request Token) (tracker : RequestTracker Token)
    (reqMeta : ReqMeta Token) : Prop :=
  ∃ count ≤ request.allTokenIds.length,
    reqMeta.tokenIds = hashedTokens config tracker (request.allTokenIds.take count) ∧
      reqMeta.slotMapping.length ≤ count ∧
      ∀ token < reqMeta.slotMapping.length, reqMeta.slotMapping[token]? =
        (tracker.allocatedBlockIds[token / config.blockSize]?).map fun block =>
          token % config.blockSize + block * config.blockSize

namespace ConnectorWorld

/-- Every tracker holds a prefix of its request, and so does what is built from it. -/
structure TokensMatch (world : ConnectorWorld Token Lookups) : Prop where
  tracked : ∀ reqId tracker, world.scheduler.requestTrackers reqId = some tracker →
    tracker.reqId = reqId ∧ tracker.tokenIds <+: (world.requests reqId).allTokenIds
  described : ∀ reqMeta ∈ world.built, ∃ tracker,
    world.scheduler.requestTrackers reqMeta.reqId = some tracker ∧
      DescribesTokens config (world.requests reqMeta.reqId) tracker reqMeta

end ConnectorWorld

variable {config} {client}

/-! ### One request of a round -/

namespace RequestTracker

variable {tracker : RequestTracker Token} {allTokenIds : List Token} {numCurrentTokens : Nat}

/-- A truncation that is not capped leaves the computed tokens. -/
theorem rollBack_tokenIds {blockSize : Nat} (tracked : tracker.tokenIds <+: allTokenIds)
    (computed : numCurrentTokens ≤ tracker.tokenIds.length)
    (room : numCurrentTokens < tracker.tokenIds.length →
      numCurrentTokens ≤ tracker.allocatedBlockIds.length * blockSize) :
    (tracker.rollBack blockSize allTokenIds numCurrentTokens).tokenIds =
      allTokenIds.take numCurrentTokens := by
  unfold rollBack
  split
  · rename_i fewer
    simp only [if_neg (Nat.not_lt.mpr (room fewer))]
  · rename_i all
    have same : numCurrentTokens = tracker.tokenIds.length := by omega
    rw [same]
    exact List.prefix_iff_eq_take.mp tracked

theorem rollBack_reqId (blockSize : Nat) :
    (tracker.rollBack blockSize allTokenIds numCurrentTokens).reqId = tracker.reqId := by
  unfold rollBack
  split <;> rfl

end RequestTracker

/-- What a tracker is turned into: the metadata of its fields, if the request loads
or saves anything, and a tracker that differs in the saved tokens only. -/
theorem fromRequestTracker_ok {config : ConnectorConfig Token}
    {tracker saved : RequestTracker Token} {loadSpec : Option LoadSpec}
    {reqMeta : Option (ReqMeta Token)}
    (described : fromRequestTracker config tracker loadSpec = .ok (reqMeta, saved)) :
    saved = { tracker with
        numSavedTokens :=
          if skipSave config tracker then tracker.numSavedTokens
          else numTokensToSave config tracker } ∧
      (reqMeta = none → skipSave config tracker) ∧
      ∀ built, reqMeta = some built →
        metaTokenIds config tracker = .ok built.tokenIds ∧ built.reqId = tracker.reqId ∧
          built.isLastPrefill = isLastPrefill tracker ∧
          built.disaggSpec = tracker.disaggSpec ∧
          built.saveSpec = some ⟨tracker.numSavedTokens, !skipSave config tracker⟩ := by
  unfold fromRequestTracker at described
  split at described
  · rename_i skips
    cases described
    have skipped : skipSave config tracker = true := by
      rw [Bool.and_eq_true] at skips
      exact skips.1
    rw [if_pos skipped]
    exact ⟨rfl, fun _ => skipped, by simp⟩
  · obtain ⟨tokenIds, kept, returned⟩ := Checked.bind_ok.mp described
    cases returned
    refine ⟨?_, by simp, ?_⟩
    · split
      · rfl
      · rfl
    · rintro built ⟨⟩
      exact ⟨kept, rfl, rfl, rfl, rfl⟩

theorem metaTokenIds_ok {tracker : RequestTracker Token} {tokenIds : List Token}
    (kept : metaTokenIds config.toConnectorConfig tracker = .ok tokenIds) :
    tokenIds = hashedTokens config tracker
      (tracker.tokenIds.take (numTokensToSave config.toConnectorConfig tracker)) := by
  unfold metaTokenIds at kept
  unfold hashedTokens
  cases hashed : tracker.mmHashes with
  | none =>
      simp only [hashed, Except.ok.injEq] at kept
      exact kept.symm
  | some hashes =>
      cases hashes with
      | nil =>
          simp only [hashed, Except.ok.injEq] at kept
          exact kept.symm
      | cons hash hashes =>
          cases positioned : tracker.mmPositions with
          | none =>
              simp only [hashed, positioned] at kept
              cases kept
          | some positions =>
              simp only [hashed, positioned, Except.ok.injEq] at kept
              exact kept.symm

/-- Metadata built from a prefix of a request describes its tokens. -/
theorem describesTokens_of_prefix {request : Request Token} {tracker saved : RequestTracker Token}
    {loadSpec : Option LoadSpec} {reqMeta : ReqMeta Token}
    (built : fromRequestTracker config.toConnectorConfig tracker loadSpec =
      .ok (some reqMeta, saved))
    (tracked : tracker.tokenIds <+: request.allTokenIds) :
    DescribesTokens config request saved reqMeta := by
  obtain ⟨rfl, _, fields⟩ := fromRequestTracker_ok built
  obtain ⟨kept, _⟩ := fields reqMeta rfl
  obtain ⟨_, long, slots⟩ := fromRequestTracker_some built
  have few := numTokensToSave_le config.toConnectorConfig tracker
  refine ⟨numTokensToSave config.toConnectorConfig tracker, few.trans tracked.length_le, ?_, ?_, ?_⟩
  · have same : tracker.tokenIds.take (numTokensToSave config.toConnectorConfig tracker) =
        request.allTokenIds.take (numTokensToSave config.toConnectorConfig tracker) := by
      conv_lhs => rw [List.prefix_iff_eq_take.mp tracked]
      rw [List.take_take, Nat.min_eq_left few]
    rw [metaTokenIds_ok kept, same]
    rfl
  · rw [slots]
    exact List.length_take_le ..
  · intro token inside
    rw [slots] at inside ⊢
    rw [List.length_take] at inside
    rw [List.getElem?_take_of_lt (by omega), getElem?_blockSlots config.blockSize_pos]

namespace ConnectorWorld

variable {world next : ConnectorWorld Token Lookups}

theorem afterBuild_eq_some
    {result : Except SchedulerError (SchedulerState Token Lookups × Option (ReqMeta Token))} :
    world.afterBuild result = some next ↔ ∃ scheduler reqMeta, result = .ok (scheduler, reqMeta) ∧
      { world with scheduler, built := reqMeta.toList } = next := by
  cases result with
  | error failure => simp [afterBuild]
  | ok result => simp [afterBuild, Prod.ext_iff]

/-- The tracked tokens decide, as long as nothing was built. -/
theorem TokensMatch.of_requestTrackers {requests : String → Request Token}
    {scheduler : SchedulerState Token Lookups}
    (tracked : ∀ reqId tracker, scheduler.requestTrackers reqId = some tracker →
      tracker.reqId = reqId ∧ tracker.tokenIds <+: (requests reqId).allTokenIds) :
    TokensMatch config ⟨requests, scheduler, []⟩ :=
  ⟨tracked, fun _ member => absurd member List.not_mem_nil⟩

/-- A request is tracked and described. -/
theorem TokensMatch.track (holds : world.TokensMatch config) {reqId : String}
    {scheduler : SchedulerState Token Lookups} {tracker saved : RequestTracker Token}
    {loadSpec : Option LoadSpec} {reqMeta : Option (ReqMeta Token)}
    (described : fromRequestTracker config.toConnectorConfig tracker loadSpec = .ok (reqMeta, saved))
    (named : tracker.reqId = reqId) (tracked : tracker.tokenIds <+: (world.requests reqId).allTokenIds)
    (trackers : scheduler.requestTrackers =
      Function.update world.scheduler.requestTrackers reqId (some saved)) :
    TokensMatch config { world with scheduler, built := reqMeta.toList } := by
  obtain ⟨rfl, _, fields⟩ := fromRequestTracker_ok described
  constructor
  · intro other found present
    simp only [trackers] at present
    by_cases same : other = reqId
    · subst same
      rw [Function.update_self] at present
      cases present
      exact ⟨named, tracked⟩
    · rw [Function.update_of_ne same] at present
      exact holds.tracked other found present
  · intro built member
    obtain rfl := Option.mem_toList.mp member
    obtain ⟨_, sameId, _⟩ := fields built rfl
    rw [sameId, named]
    simp only [trackers]
    exact ⟨_, Function.update_self .., describesTokens_of_prefix described tracked⟩

/-- A new request is tracked with a prefix of its prompt. -/
theorem TokensMatch.scheduledNew (holds : world.TokensMatch config)
    {newRequest : NewRequestData Token} {numScheduledTokens : Nat}
    {scheduler : SchedulerState Token Lookups} {reqMeta : Option (ReqMeta Token)}
    (prompt : newRequest.promptTokenIds <+: (world.requests newRequest.reqId).allTokenIds)
    (built : buildNewRequest config numScheduledTokens newRequest world.scheduler =
      .ok (scheduler, reqMeta)) :
    TokensMatch config { world with scheduler, built := reqMeta.toList } := by
  cases mock : isMock newRequest.reqId with
  | true =>
      rw [buildNewRequest, if_pos mock] at built
      cases built
      exact .of_requestTrackers holds.tracked
  | false =>
      obtain ⟨tracker, saved, made, described, trackers, _⟩ := buildNewRequest_ok mock built
      obtain ⟨_, _, returned⟩ := Checked.bind_ok.mp made
      cases returned
      exact holds.track described rfl ((List.take_prefix ..).trans prompt) trackers

/-- A request scheduled again is extended, or tracked anew when it is resumed. -/
theorem TokensMatch.scheduledCached (holds : world.TokensMatch config)
    {cached : CachedRequestData} {numScheduledTokens : Nat}
    {scheduler : SchedulerState Token Lookups} {reqMeta : Option (ReqMeta Token)}
    (kept : world.TokensKept config (.scheduledCached cached numScheduledTokens))
    (built : buildCachedRequest config (world.requests cached.reqId) numScheduledTokens cached
      world.scheduler = .ok (scheduler, reqMeta)) :
    TokensMatch config { world with scheduler, built := reqMeta.toList } := by
  obtain ⟨tracker, updated, saved, present, _, changed, described, trackers, _⟩ :=
    buildCachedRequest_ok built
  obtain ⟨named, tracked⟩ := holds.tracked _ _ present
  cases preempted : cached.preempted with
  | true =>
      rw [preempted, if_pos rfl, RequestTracker.update_resumed] at changed
      cases changed
      exact holds.track described (by simpa using (RequestTracker.rollBack_reqId _).trans named)
        (List.take_prefix ..) trackers
  | false =>
      obtain ⟨computed, room⟩ := kept preempted tracker present
      rw [preempted, RequestTracker.update_running] at changed
      cases changed
      refine holds.track described (by simpa using (RequestTracker.rollBack_reqId _).trans named)
        ?_ trackers
      simp only [RequestTracker.rollBack_tokenIds tracked computed room]
      rw [← List.take_add]
      exact List.take_prefix ..

/-- Every step that keeps the tokens keeps trackers at prefixes. -/
theorem TokensMatch.step (holds : world.TokensMatch config) {event : ConnectorEvent Token Lookups}
    (kept : world.TokensKept config event) (stepped : world.step config client event = some next) :
    next.TokensMatch config := by
  cases event with
  | requestChanged request =>
      cases stepped
      refine .of_requestTrackers fun reqId tracker present => ?_
      obtain ⟨named, tracked⟩ := holds.tracked reqId tracker present
      by_cases same : reqId = request.requestId
      · subst same
        rw [Function.update_self]
        exact ⟨named, tracked.trans (kept (Option.isSome_of_eq_some present))⟩
      · rw [Function.update_of_ne same]
        exact ⟨named, tracked⟩
  | lookupsAnswered lookups =>
      cases stepped
      exact .of_requestTrackers holds.tracked
  | getNumNewMatchedTokens reqId numComputedTokens =>
      cases stepped
      refine .of_requestTrackers ?_
      rw [getNumNewMatchedTokens_requestTrackers]
      exact holds.tracked
  | updateStateAfterAlloc reqId numExternalTokens =>
      simp only [ConnectorWorld.step] at stepped
      cases updated : updateStateAfterAlloc client (world.requests reqId) numExternalTokens
          world.scheduler with
      | error failure =>
          rw [updated] at stepped
          cases stepped
      | ok scheduler =>
          rw [updated] at stepped
          cases stepped
          refine .of_requestTrackers ?_
          rw [(updateStateAfterAlloc_ok updated).1]
          exact holds.tracked
  | finished reqId =>
      cases stepped
      refine .of_requestTrackers fun other tracker present => ?_
      by_cases same : other = reqId
      · subst same
        simp [SchedulerState.finish] at present
      · simp only [SchedulerState.finish, Function.update_of_ne same] at present
        exact holds.tracked other tracker present
  | scheduledNew newRequest numScheduledTokens =>
      obtain ⟨scheduler, reqMeta, built, rfl⟩ := afterBuild_eq_some.mp stepped
      exact holds.scheduledNew kept built
  | scheduledCached cached numScheduledTokens =>
      obtain ⟨scheduler, reqMeta, built, rfl⟩ := afterBuild_eq_some.mp stepped
      exact holds.scheduledCached kept built

variable (config client) in
/-- A list of requests that are built one after the other is a run of events. -/
theorem reaches_of_buildAll {Item : Type} (world : ConnectorWorld Token Lookups)
    (event : Item → ConnectorEvent Token Lookups)
    {build : Item → SchedulerState Token Lookups →
      Except SchedulerError (SchedulerState Token Lookups × Option (ReqMeta Token))}
    (steps : ∀ item (before : ConnectorWorld Token Lookups), before.requests = world.requests →
      before.step config client (event item) = before.afterBuild (build item before.scheduler))
    {items : List Item} {scheduler : SchedulerState Token Lookups}
    {reqMetas : List (ReqMeta Token)}
    (built : buildAll build items world.scheduler = .ok (scheduler, reqMetas)) :
    ∃ last, Runs.Reaches (step config client) (fun _ _ => True) world
      { world with scheduler, built := last } := by
  induction items generalizing world reqMetas with
  | nil =>
      cases built
      exact ⟨world.built, .refl⟩
  | cons item items ih =>
      obtain ⟨⟨middle, reqMeta⟩, first, built⟩ := Checked.bind_ok.mp built
      obtain ⟨⟨final, later⟩, rest, returned⟩ := Checked.bind_ok.mp built
      cases returned
      have stepped : world.step config client (event item) =
          some { world with scheduler := middle, built := reqMeta.toList } := by
        rw [steps item world rfl, first]
        rfl
      obtain ⟨last, reached⟩ :=
        ih { world with scheduler := middle, built := reqMeta.toList } steps rest
      exact ⟨last, (Runs.Reaches.refl.tail trivial stepped).trans reached⟩

/-- **A round is a run.** The requests of one `build_connector_meta` take their steps
one after the other, while vLLM's requests stay as they are. -/
theorem reaches_of_buildConnectorMeta {output : SchedulerOutput Token}
    {scheduler : SchedulerState Token Lookups} {reqMetas : List (ReqMeta Token)}
    (built : buildConnectorMeta config world.requests output world.scheduler =
      .ok (scheduler, reqMetas)) :
    ∃ last, Runs.Reaches (step config client) (fun _ _ => True) world
      { world with scheduler, built := last } := by
  have ended (reqIds : List String) (before : ConnectorWorld Token Lookups) :
      ∃ last, Runs.Reaches (step config client) (fun _ _ => True) before
        { before with
          scheduler := reqIds.foldl SchedulerState.finish before.scheduler
          built := last } := by
    induction reqIds generalizing before with
    | nil => exact ⟨before.built, .refl⟩
    | cons reqId reqIds ih =>
        have stepped : before.step config client (.finished reqId) =
          some { before with scheduler := before.scheduler.finish reqId, built := [] } := rfl
        obtain ⟨last, reached⟩ := ih _
        exact ⟨last, (Runs.Reaches.refl.tail trivial stepped).trans reached⟩
  obtain ⟨⟨middle, newMeta⟩, news, built⟩ := Checked.bind_ok.mp built
  obtain ⟨⟨final, cachedMeta⟩, cacheds, returned⟩ := Checked.bind_ok.mp built
  cases returned
  obtain ⟨first, finished⟩ := ended output.finishedReqIds world
  obtain ⟨second, scheduled⟩ := reaches_of_buildAll config client
    { world with
      scheduler := output.finishedReqIds.foldl SchedulerState.finish world.scheduler
      built := first }
    (fun newRequest => .scheduledNew newRequest (output.numScheduledTokens newRequest.reqId))
    (fun _ _ _ => rfl) news
  obtain ⟨third, again⟩ := reaches_of_buildAll config client
    { world with scheduler := middle, built := second }
    (fun cached => .scheduledCached cached (output.numScheduledTokens cached.reqId))
    (fun _ before same => by rw [step, same]) cacheds
  exact ⟨third, (finished.trans scheduled).trans again⟩

/-- **Trackers hold prefixes.** In every run in which vLLM keeps its promises and no
truncation is capped, after every step each tracker holds a prefix of its request,
and what is built names these tokens and the slots of their positions. -/
theorem tokensMatch_of_reaches {requests : String → Request Token} {lookups : Lookups}
    (reached : Runs.Reaches (step config client) (TokensKept config)
      ⟨requests, .initial lookups, []⟩ world) : world.TokensMatch config :=
  reached.invariant (.of_requestTrackers fun _ _ absent => nomatch absent)
    fun _ _ _ holds kept stepped => holds.step kept stepped

/-- vLLM's request of eight tokens. -/
def eightTokenRequest (numComputedTokens : Nat) : Request Nat :=
  ⟨"req", 0, List.range 8, List.range 8, numComputedTokens, [], [], none, none⟩

/-- Six tokens are scheduled with the given blocks, of which vLLM takes some back
before it schedules the rest. -/
def rolledBack (blockIds : List Nat) (numComputedTokens : Nat) : List (ConnectorEvent Nat Nat) :=
  [.updateStateAfterAlloc "req" 0,
    .scheduledNew ⟨"req", List.range 8, .tuple [blockIds], 0, [], [], none⟩ 6,
    .requestChanged (eightTokenRequest numComputedTokens),
    .scheduledCached ⟨"req", none, false⟩ (8 - numComputedTokens)]

def startWorld : ConnectorWorld Nat Nat := ⟨fun _ => eightTokenRequest 0, .initial 0, []⟩

/-- Five tokens of two blocks are kept, and three scheduled. -/
theorem tokensMatch_of_reaches_rolledBack :
    ∃ world, Runs.execute (step (smallScheduler .kvBoth 0) countingClient)
        (TokensKept (smallScheduler .kvBoth 0)) (rolledBack [0, 1] 5) startWorld = some world ∧
      (world.scheduler.requestTrackers "req").map RequestTracker.tokenIds = some (List.range 8) ∧
      world.TokensMatch (smallScheduler .kvBoth 0) := by
  have done : (Runs.execute (step (smallScheduler .kvBoth 0) countingClient)
      (TokensKept (smallScheduler .kvBoth 0)) (rolledBack [0, 1] 5) startWorld).map
        (fun world => (world.scheduler.requestTrackers "req").map RequestTracker.tokenIds) =
          some (some (List.range 8)) := by decide
  obtain ⟨world, executed, tokens⟩ := Option.map_eq_some_iff.mp done
  exact ⟨world, executed, tokens,
    tokensMatch_of_reaches (Runs.reaches_of_execute .refl executed)⟩

/-- Five tokens are computed, but the tracker has slots for four: the fifth is
missing among the tokens that are kept. -/
theorem tokensMatch_fails_capped :
    ∃ world, Runs.Reaches (step (smallScheduler .kvBoth 0) countingClient) (fun _ _ => True)
        startWorld world ∧
      (∃ tracker, world.scheduler.requestTrackers "req" = some tracker ∧
        tracker.tokenIds = [0, 1, 2, 3, 5, 6, 7]) ∧
      ¬ world.TokensMatch (smallScheduler .kvBoth 0) := by
  have done : (Runs.execute (step (smallScheduler .kvBoth 0) countingClient) (fun _ _ => True)
      (rolledBack [0] 5) startWorld).map (fun world =>
        ((world.scheduler.requestTrackers "req").map RequestTracker.tokenIds,
          (world.requests "req").allTokenIds)) =
            some (some [0, 1, 2, 3, 5, 6, 7], List.range 8) := by decide
  obtain ⟨world, executed, facts⟩ := Option.map_eq_some_iff.mp done
  obtain ⟨tokens, all⟩ := Prod.mk.inj facts
  obtain ⟨tracker, present, kept⟩ := Option.map_eq_some_iff.mp tokens
  refine ⟨world, Runs.reaches_of_execute .refl executed, ⟨tracker, present, kept⟩, fun holds => ?_⟩
  have tracked := (holds.tracked "req" tracker present).2
  rw [kept, all] at tracked
  revert tracked
  decide

end ConnectorWorld

end LMCacheHcu.Connector
