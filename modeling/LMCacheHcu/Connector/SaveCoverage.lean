import LMCacheHcu.Connector.TokenPrefix
import LMCacheHcu.Foundation.RangeMask

/-! # What is offered to the store

After each step the worker hands the new tokens of every request to
`LMCacheEngine.store`. How far a request was saved is a number of the scheduler's
tracker: it starts at the initial hit, says how many tokens a save may skip and
when the next save is due, and moves on with every save.
-/

namespace LMCacheHcu.Connector

open LMCacheHcu.Lookup (KvRole)

variable {Token Lookups : Type}

/-- The arguments of one call of the engine's `store`. -/
structure StoreCall (Token : Type) where
  tokenIds : List Token
  mask : List Bool
  slotMapping : List Nat
  offset : Nat
  transferSpec : Option DisaggSpec
  requestConfigs : Option (List (String × ConfigValue))
  reqId : String
deriving DecidableEq, Repr

/-- The tokens that a call stores. -/
def StoreCall.Offers (call : StoreCall Token) (token : Nat) : Prop :=
  call.mask[token]? = some true

variable (config : SchedulerConfig Token) (client : LookupClient Token Lookups)
  (enableBlending : Bool)

/-- The leading tokens that a save skips, cut to whole chunks. -/
def skipLeadingTokens (reqMeta : ReqMeta Token) (saveSpec : SaveSpec) : Nat :=
  match config.kvRole, reqMeta.disaggSpec with
  | .kvProducer, some disaggSpec => min saveSpec.skipLeadingTokens disaggSpec.numTransferredTokens
  | _, _ => saveSpec.skipLeadingTokens

/-- The call that `wait_for_save` makes for one request, if it makes one. Metadata
without a save spec does not occur. -/
def storeCall (reqMeta : ReqMeta Token) : Option (StoreCall Token) :=
  match reqMeta.saveSpec with
  | none => none
  | some saveSpec =>
      if config.kvRole = .kvConsumer then none
      else if saveSpec.canSave = false ∧ config.kvRole ≠ .kvProducer then none
      else if reqMeta.slotMapping.length ≠ reqMeta.tokenIds.length then none
      else
        let skipLeading := skipLeadingTokens config reqMeta saveSpec
        if skipLeading = reqMeta.tokenIds.length then none
        else
          let skipLeading := skipLeading / config.chunkSize * config.chunkSize
          let storeMask :=
            RangeMask.fillRange (List.replicate reqMeta.tokenIds.length true) 0 skipLeading false
          let tokenLen :=
            if reqMeta.isLastPrefill || enableBlending then reqMeta.tokenIds.length
            else reqMeta.tokenIds.length / config.chunkSize * config.chunkSize
          some
            { tokenIds := reqMeta.tokenIds.take tokenLen
              mask := storeMask.take tokenLen
              slotMapping := reqMeta.slotMapping.take tokenLen
              offset := skipLeading
              transferSpec :=
                if reqMeta.isLastPrefill then
                  reqMeta.disaggSpec.map fun disaggSpec => { disaggSpec with isLastPrefill := true }
                else reqMeta.disaggSpec
              requestConfigs := reqMeta.requestConfigs
              reqId := reqMeta.reqId }

/-! ### Runs of one request -/

/-- The saves of one request: the hit it started with and the calls so far. -/
structure SaveWorld (Token Lookups : Type) where
  connector : ConnectorWorld Token Lookups
  initialHit : Nat
  calls : List (StoreCall Token)

namespace SaveWorld

/-- The initial hit of the request, if the event schedules it for the first time. -/
def startingHit (world : SaveWorld Token Lookups) (reqId : String) :
    ConnectorEvent Token Lookups → Option Nat
  | .scheduledNew newRequest _ =>
      if newRequest.reqId = reqId ∧ isMock reqId = false then
        some (((world.connector.scheduler.loadSpecs reqId).map
          LoadSpec.lmcacheCachedTokens).getD 0)
      else none
  | _ => none

def step (reqId : String) (world : SaveWorld Token Lookups)
    (event : ConnectorEvent Token Lookups) : Option (SaveWorld Token Lookups) :=
  (world.connector.step config client event).map fun connector =>
    { connector
      initialHit := (world.startingHit reqId event).getD world.initialHit
      calls := (if (world.startingHit reqId event).isSome then [] else world.calls) ++
        (connector.built.filter fun reqMeta => reqMeta.reqId = reqId).filterMap
          (storeCall config enableBlending) }

/-- The request is saved and neither resumed nor rolled back, its blocks hold the
tokens scheduled so far, and a single token is scheduled again only when decoding
saves or no full chunk of the prompt is still to be offered. -/
def SaveKept (reqId : String) (world : SaveWorld Token Lookups) :
    ConnectorEvent Token Lookups → Prop
  | .scheduledNew newRequest numScheduledTokens =>
      newRequest.reqId = reqId →
        world.connector.scheduler.tmpDisaggTracker reqId = none ∧
        skipsSave config ((world.connector.scheduler.requestsPriority reqId).getD 0) = false ∧
        ((((extractRequestConfigs newRequest.kvTransferParams).getD []).lookup
          "lmcache.skip_save").any ConfigValue.truthy) = false ∧
        ∀ blocks ∈ newRequest.blockIds.ofNewRequest.toOption,
          (newRequest.promptTokenIds.take
            (newRequest.numComputedTokens + numScheduledTokens)).length ≤
              blocks.length * config.blockSize
  | .scheduledCached cached numScheduledTokens =>
      cached.reqId = reqId →
        cached.preempted = false ∧
        ∀ tracker ∈ world.connector.scheduler.requestTrackers reqId,
          let request := world.connector.requests reqId
          let newTokenIds :=
            (request.allTokenIds.drop request.numComputedTokens).take numScheduledTokens
          request.numComputedTokens = tracker.tokenIds.length ∧
          tracker.tokenIds.length + newTokenIds.length ≤
            (tracker.allocatedBlockIds.length + (BlockIds.ofUpdate cached.newBlockIds).length) *
              config.blockSize ∧
          (newTokenIds.length = 1 → config.saveDecodeCache ∨
            tracker.promptLen / config.chunkSize * config.chunkSize ≤
              max tracker.tokenIds.length world.initialHit)
  | _ => True

instance (reqId : String) (world : SaveWorld Token Lookups) (event : ConnectorEvent Token Lookups) :
    Decidable (world.SaveKept config reqId event) :=
  match event with
  | .scheduledNew .. | .scheduledCached .. => by unfold SaveKept; infer_instance
  | .requestChanged _ | .lookupsAnswered _ | .getNumNewMatchedTokens .. | .updateStateAfterAlloc ..
  | .finished _ => .isTrue trivial

/-- **Save coverage** of a request: no gap up to the saved tokens, and all full
chunks of the prompt once it is scheduled. -/
structure Covered (world : SaveWorld Token Lookups) (tracker : RequestTracker Token) : Prop where
  noGap : ∀ token, world.initialHit ≤ token → token < tracker.numSavedTokens →
    ∃ call ∈ world.calls, call.Offers token
  prompt : tracker.promptLen ≤ tracker.tokenIds.length → ∀ chunk,
    world.initialHit < (chunk + 1) * config.chunkSize →
    (chunk + 1) * config.chunkSize ≤ tracker.promptLen →
      ∃ call ∈ world.calls, ∀ token, chunk * config.chunkSize ≤ token →
        token < (chunk + 1) * config.chunkSize → call.Offers token

end SaveWorld

/-! ### Whole chunks -/

section Chunks

variable {chunkSize saved length : Nat}

/-- Up to the boundary all full chunks are saved. -/
theorem wholeChunks_le_of_lt_boundary (positive : 0 < chunkSize)
    (short : length < chunkBoundary saved chunkSize) : length / chunkSize * chunkSize ≤ saved := by
  have near := (chunkBoundary_bounds saved positive).2
  have below : length / chunkSize * chunkSize < chunkBoundary saved chunkSize :=
    (Nat.div_mul_le_self _ _).trans_lt short
  -- both are multiples of the chunk size, so they are a chunk apart
  have apart : (length / chunkSize + 1) * chunkSize ≤ chunkBoundary saved chunkSize :=
    Nat.mul_le_mul_right chunkSize (Nat.lt_of_mul_lt_mul_right below)
  rw [Nat.add_mul, Nat.one_mul] at apart
  omega

/-- From the boundary on there is a full chunk to save. -/
theorem lt_wholeChunks_of_boundary_le (positive : 0 < chunkSize)
    (long : chunkBoundary saved chunkSize ≤ length) : saved < length / chunkSize * chunkSize := by
  have above := (chunkBoundary_bounds saved positive).1
  have whole : chunkBoundary saved chunkSize ≤ length / chunkSize * chunkSize :=
    Nat.mul_le_mul_right chunkSize ((Nat.le_div_iff_mul_le positive).mpr long)
  omega

/-- A chunk that ends after a position starts after the chunks before it. -/
theorem wholeChunks_le_start (chunk : Nat) (after : saved < (chunk + 1) * chunkSize) :
    saved / chunkSize * chunkSize ≤ chunk * chunkSize :=
  Nat.mul_le_mul_right chunkSize (Nat.lt_succ_iff.mp (Nat.div_lt_of_lt_mul (by
    rwa [Nat.mul_comm] at after)))

/-- A full chunk ends with the last full chunk at the latest. -/
theorem chunk_le_wholeChunks (positive : 0 < chunkSize) {chunk : Nat}
    (full : (chunk + 1) * chunkSize ≤ length) :
    (chunk + 1) * chunkSize ≤ length / chunkSize * chunkSize :=
  Nat.mul_le_mul_right chunkSize ((Nat.le_div_iff_mul_le positive).mpr full)

end Chunks

variable {config} {client} {enableBlending}

/-- The call for metadata that is to be saved stores all tokens from the skipped
chunks on. -/
theorem exists_storeCall {reqMeta : ReqMeta Token} {skipped : Nat}
    (producing : config.kvRole ≠ .kvConsumer) (saves : reqMeta.saveSpec = some ⟨skipped, true⟩)
    (unshared : reqMeta.disaggSpec = none)
    (slots : reqMeta.slotMapping.length = reqMeta.tokenIds.length)
    (partly : skipped ≠ reqMeta.tokenIds.length)
    (whole : reqMeta.isLastPrefill = false →
      reqMeta.tokenIds.length / config.chunkSize * config.chunkSize = reqMeta.tokenIds.length) :
    ∃ call, storeCall config enableBlending reqMeta = some call ∧ ∀ token, call.Offers token ↔
      skipped / config.chunkSize * config.chunkSize ≤ token ∧
        token < reqMeta.tokenIds.length := by
  have skips : skipLeadingTokens config reqMeta ⟨skipped, true⟩ = skipped := by
    unfold skipLeadingTokens
    rw [unshared]
    split
    · rename_i absent
      cases absent
    · rfl
  have tokenLen : (if reqMeta.isLastPrefill || enableBlending then reqMeta.tokenIds.length
      else reqMeta.tokenIds.length / config.chunkSize * config.chunkSize) =
        reqMeta.tokenIds.length := by
    split
    · rfl
    · rename_i cut
      exact whole (by simp_all)
  unfold storeCall
  simp only [saves, if_neg producing, Bool.true_eq_false, false_and, ↓reduceIte, slots, ne_eq,
    not_true_eq_false, skips, partly, tokenLen, Option.some.injEq, exists_eq_left']
  intro token
  simp only [StoreCall.Offers]
  rw [List.take_of_length_le (by simp), RangeMask.clearHead_true_iff,
    RangeMask.replicate_true_iff]
  exact And.comm

/-- A request that is saved and neither resumed nor rolled back: everything from
the initial hit up to the saved tokens was offered. -/
structure Saving (config : SchedulerConfig Token) (initialHit : Nat)
    (calls : List (StoreCall Token)) (tracker : RequestTracker Token) : Prop where
  producing : config.kvRole ≠ .kvConsumer
  unshared : tracker.disaggSpec = none
  unskipped : tracker.skipSave = false ∧ requestSkip tracker = false
  room : tracker.tokenIds.length ≤ tracker.allocatedBlockIds.length * config.blockSize
  hit_le : initialHit ≤ tracker.numSavedTokens
  noGap : ∀ token, initialHit ≤ token → token < tracker.numSavedTokens →
    ∃ call ∈ calls, call.Offers token
  chunks : ∀ chunk, initialHit < (chunk + 1) * config.chunkSize →
    (chunk + 1) * config.chunkSize ≤ tracker.numSavedTokens →
      ∃ call ∈ calls, ∀ token, chunk * config.chunkSize ≤ token →
        token < (chunk + 1) * config.chunkSize → call.Offers token
  /-- Decoding ends the saves when the prompt is saved, or not at all. -/
  decoding : tracker.isDecodePhase → config.saveDecodeCache ∨
    tracker.promptLen / config.chunkSize * config.chunkSize ≤ tracker.numSavedTokens

/-- All full chunks are saved, of the tokens so far or at least of the prompt. -/
def Saved (config : SchedulerConfig Token) (tracker : RequestTracker Token) : Prop :=
  tracker.promptLen / config.chunkSize * config.chunkSize ≤ tracker.numSavedTokens ∨
    tracker.tokenIds.length / config.chunkSize * config.chunkSize ≤ tracker.numSavedTokens

namespace Saving

variable {initialHit : Nat} {calls : List (StoreCall Token)} {tracker saved : RequestTracker Token}
  {loadSpec : Option LoadSpec} {reqMeta : Option (ReqMeta Token)}

/-- More calls offer no less. -/
theorem mono (saving : Saving config initialHit calls tracker) {more : List (StoreCall Token)}
    (kept : ∀ call ∈ calls, call ∈ more) : Saving config initialHit more tracker where
  producing := saving.producing
  unshared := saving.unshared
  unskipped := saving.unskipped
  room := saving.room
  hit_le := saving.hit_le
  noGap token above below :=
    have ⟨call, member, offers⟩ := saving.noGap token above below
    ⟨call, kept call member, offers⟩
  chunks chunk above below :=
    have ⟨call, member, offers⟩ := saving.chunks chunk above below
    ⟨call, kept call member, offers⟩
  decoding := saving.decoding

/-- Why a round saves nothing: there is no full chunk to save, or decoding does
not save. -/
theorem skipSave_iff (saving : Saving config initialHit calls tracker) :
    skipSave config.toConnectorConfig tracker ↔
      0 < tracker.numSavedTokens ∧
          tracker.tokenIds.length < chunkBoundary tracker.numSavedTokens config.chunkSize ∨
        tracker.isDecodePhase ∧ config.saveDecodeCache = false := by
  simp [skipSave, saving.unshared, saving.unskipped]

/-- A round that saves nothing has nothing left to save. -/
theorem saved_of_skipSave (saving : Saving config initialHit calls tracker)
    (skips : skipSave config.toConnectorConfig tracker) : Saved config tracker := by
  rcases saving.skipSave_iff.mp skips with ⟨_, short⟩ | ⟨decode, never⟩
  · exact .inr (wholeChunks_le_of_lt_boundary config.chunkSize_pos short)
  · rcases saving.decoding decode with always | saved
    · rw [never] at always
      cases always
    · exact .inl saved

/-- A round that saves moves the count on, unless there are no tokens to save yet. -/
theorem numSavedTokens_lt (saving : Saving config initialHit calls tracker)
    (saves : skipSave config.toConnectorConfig tracker = false) :
    tracker.tokenIds.length / config.chunkSize * config.chunkSize ≤
        numTokensToSave config.toConnectorConfig tracker ∧
      (tracker.numSavedTokens < numTokensToSave config.toConnectorConfig tracker ∨
        tracker.numSavedTokens = 0) := by
  have whole : tracker.tokenIds.length / config.chunkSize * config.chunkSize ≤
      numTokensToSave config.toConnectorConfig tracker := by
    unfold numTokensToSave
    split
    · exact le_rfl
    · exact Nat.div_mul_le_self _ _
  refine ⟨whole, ?_⟩
  by_cases none : tracker.numSavedTokens = 0
  · exact .inr none
  · have reached : chunkBoundary tracker.numSavedTokens config.chunkSize ≤
        tracker.tokenIds.length := by
      by_contra short
      have skips := saving.skipSave_iff.mpr (.inl ⟨by omega, by omega⟩)
      rw [saves] at skips
      cases skips
    exact .inl ((lt_wholeChunks_of_boundary_le config.chunkSize_pos reached).trans_le whole)

/-- The call of a round that saves. -/
theorem exists_call (saving : Saving config initialHit calls tracker) (enableBlending : Bool)
    {built : ReqMeta Token}
    (saves : skipSave config.toConnectorConfig tracker = false)
    (described : fromRequestTracker config.toConnectorConfig tracker loadSpec =
      .ok (some built, saved))
    (partly : tracker.numSavedTokens ≠ numTokensToSave config.toConnectorConfig tracker) :
    ∃ call, storeCall config enableBlending built = some call ∧ ∀ token, call.Offers token ↔
      tracker.numSavedTokens / config.chunkSize * config.chunkSize ≤ token ∧
        token < numTokensToSave config.toConnectorConfig tracker := by
  obtain ⟨_, _, fields⟩ := fromRequestTracker_ok described
  obtain ⟨_, _, last, disagg, spec⟩ := fields built rfl
  obtain ⟨_, long, slots⟩ := fromRequestTracker_some described
  have few := numTokensToSave_le config.toConnectorConfig tracker
  rw [saves] at spec
  rw [← long] at partly ⊢
  refine exists_storeCall saving.producing spec (disagg.trans saving.unshared) ?_ partly ?_
  · rw [slots, List.length_take, length_blockSlots, long]
    have room := saving.room
    omega
  · intro prefill
    rw [long, numTokensToSave, ← last, prefill]
    simp [Nat.mul_div_cancel _ config.chunkSize_pos]

/-- A call for everything after the saved chunks extends the coverage. -/
theorem extend (saving : Saving config initialHit calls tracker) {call : StoreCall Token}
    (member : call ∈ calls) {upTo : Nat} (forward : tracker.numSavedTokens ≤ upTo)
    (offers : ∀ token, call.Offers token ↔
      tracker.numSavedTokens / config.chunkSize * config.chunkSize ≤ token ∧ token < upTo) :
    Saving config initialHit calls { tracker with numSavedTokens := upTo } where
  producing := saving.producing
  unshared := saving.unshared
  unskipped := saving.unskipped
  room := saving.room
  hit_le := saving.hit_le.trans forward
  noGap token above below := by
    by_cases old : token < tracker.numSavedTokens
    · exact saving.noGap token above old
    · have skipped := Nat.div_mul_le_self tracker.numSavedTokens config.chunkSize
      exact ⟨call, member, (offers token).mpr ⟨by omega, below⟩⟩
  chunks chunk above below := by
    by_cases old : (chunk + 1) * config.chunkSize ≤ tracker.numSavedTokens
    · exact saving.chunks chunk above old
    · have start := wholeChunks_le_start chunk (Nat.lt_of_not_le old)
      exact ⟨call, member, fun token first last =>
        (offers token).mpr ⟨start.trans first, last.trans_le below⟩⟩
  decoding decode := (saving.decoding decode).imp_right fun saved => saved.trans forward

/-- **One round.** The metadata of a round and the call that it leads to keep the
coverage; the saved tokens move on to all full chunks. -/
theorem describe (saving : Saving config initialHit calls tracker) (enableBlending : Bool)
    (described : fromRequestTracker config.toConnectorConfig tracker loadSpec =
      .ok (reqMeta, saved)) :
    Saving config initialHit
        (calls ++ reqMeta.toList.filterMap (storeCall config enableBlending)) saved ∧
      Saved config saved ∧ tracker.numSavedTokens ≤ saved.numSavedTokens := by
  have more := saving.mono fun call member =>
    List.mem_append_left (reqMeta.toList.filterMap (storeCall config enableBlending)) member
  obtain ⟨after, some_, _⟩ := fromRequestTracker_ok described
  cases skips : skipSave config.toConnectorConfig tracker with
  | true =>
      rw [skips, if_pos rfl] at after
      subst after
      exact ⟨more, saving.saved_of_skipSave skips, le_rfl⟩
  | false =>
      rw [skips, if_neg Bool.false_ne_true] at after
      obtain ⟨whole, moved⟩ := saving.numSavedTokens_lt skips
      have kept : tracker.numSavedTokens ≤ numTokensToSave config.toConnectorConfig tracker := by
        omega
      cases reqMeta with
      | none =>
          rw [some_ rfl] at skips
          cases skips
      | some built =>
          subst after
          refine ⟨?_, .inr whole, kept⟩
          by_cases partly : tracker.numSavedTokens =
              numTokensToSave config.toConnectorConfig tracker
          · rw [← partly]
            exact more
          · obtain ⟨call, made, offers⟩ := saving.exists_call enableBlending skips described partly
            exact more.extend (List.mem_append_right _ (by simp [made])) kept offers

/-- A request that starts with a hit has offered nothing, and has nothing to offer. -/
theorem start {newRequest : NewRequestData Token} {numTokens : Nat} (hit : Nat) {blocks : List Nat}
    {disaggSpec : Option DisaggSpec} {priority : Int}
    (unshared : disaggSpec = none) (unforced : Connector.skipsSave config priority = false)
    (unskipped : (((extractRequestConfigs newRequest.kvTransferParams).getD []).lookup
      "lmcache.skip_save").any ConfigValue.truthy = false)
    (room : (newRequest.promptTokenIds.take numTokens).length ≤ blocks.length * config.blockSize) :
    Saving config hit []
      { reqId := newRequest.reqId
        promptLen := newRequest.promptTokenIds.length
        tokenIds := newRequest.promptTokenIds.take numTokens
        allocatedBlockIds := blocks
        numSavedTokens := hit
        disaggSpec := disaggSpec
        mmHashes := some newRequest.mmHashes
        mmPositions := some newRequest.mmPositions
        requestConfigs := extractRequestConfigs newRequest.kvTransferParams
        skipSave := Connector.skipsSave config priority } where
  producing consumer := by simp [Connector.skipsSave, consumer] at unforced
  unshared := unshared
  unskipped := ⟨unforced, unskipped⟩
  room := room
  hit_le := le_rfl
  noGap token above below := absurd above (Nat.not_le.mpr below)
  chunks chunk above below := absurd above (Nat.not_lt.mpr below)
  decoding decode := absurd decode Bool.false_ne_true

/-- The update of a running request whose blocks hold the new tokens. -/
theorem update (saving : Saving config initialHit calls tracker) (done : Saved config tracker)
    {newTokenIds : List Token} {newBlockIds : List Nat}
    (room : tracker.tokenIds.length + newTokenIds.length ≤
      (tracker.allocatedBlockIds.length + newBlockIds.length) * config.blockSize)
    (single : newTokenIds.length = 1 → config.saveDecodeCache ∨
      tracker.promptLen / config.chunkSize * config.chunkSize ≤
        max tracker.tokenIds.length initialHit) :
    Saving config initialHit calls
      { tracker with
        allocatedBlockIds := tracker.allocatedBlockIds ++ newBlockIds
        tokenIds := tracker.tokenIds ++ newTokenIds
        isDecodePhase := tracker.isDecodePhase || decide (newTokenIds.length = 1) } where
  producing := saving.producing
  unshared := saving.unshared
  unskipped := saving.unskipped
  room := by simpa only [List.length_append] using room
  hit_le := saving.hit_le
  noGap := saving.noGap
  chunks := saving.chunks
  decoding decode := by
    rcases Bool.or_eq_true_iff.mp decode with before | now
    · exact saving.decoding before
    · refine (single (of_decide_eq_true now)).imp_right fun reached => ?_
      -- a prompt that is scheduled, or hit, up to its last full chunk is saved up to there
      rcases le_max_iff.mp reached with scheduled | hit
      · rcases done with saved | saved
        · exact saved
        · exact (Nat.mul_le_mul_right config.chunkSize
            ((Nat.le_div_iff_mul_le config.chunkSize_pos).mpr scheduled)).trans saved
      · exact hit.trans saving.hit_le

end Saving

/-- Whether an event builds the tracker of a request. -/
def ConnectorEvent.Schedules (reqId : String) : ConnectorEvent Token Lookups → Prop
  | .scheduledNew newRequest _ => newRequest.reqId = reqId ∧ isMock reqId = false
  | .scheduledCached cached _ => cached.reqId = reqId
  | _ => False

/-- Other events leave the tracker of the request alone, or end the request. -/
theorem ConnectorWorld.step_same {world next : ConnectorWorld Token Lookups}
    {event : ConnectorEvent Token Lookups} {reqId : String}
    (stepped : world.step config client event = some next) (other : ¬ event.Schedules reqId)
    (tracker : RequestTracker Token)
    (present : next.scheduler.requestTrackers reqId = some tracker) :
    world.scheduler.requestTrackers reqId = some tracker := by
  cases event with
  | requestChanged request =>
      cases stepped
      exact present
  | lookupsAnswered lookups =>
      cases stepped
      exact present
  | getNumNewMatchedTokens asked numComputedTokens =>
      cases stepped
      rwa [getNumNewMatchedTokens_requestTrackers] at present
  | updateStateAfterAlloc allocated numExternalTokens =>
      obtain ⟨scheduler, reqMeta, updated, rfl⟩ := afterBuild_eq_some.mp stepped
      cases made : updateStateAfterAlloc client (world.requests allocated) numExternalTokens
          world.scheduler with
      | error failure =>
          rw [made] at updated
          cases updated
      | ok after =>
          rw [made] at updated
          cases updated
          rwa [(updateStateAfterAlloc_ok made).1] at present
  | finished ended =>
      cases stepped
      by_cases same : reqId = ended
      · subst same
        simp [SchedulerState.finish] at present
      · simpa only [SchedulerState.finish, Function.update_of_ne same] using present
  | scheduledNew newRequest numScheduledTokens =>
      obtain ⟨scheduler, reqMeta, built, rfl⟩ := afterBuild_eq_some.mp stepped
      by_cases same : reqId = newRequest.reqId
      · subst same
        have mock : isMock newRequest.reqId = true := by
          simpa [ConnectorEvent.Schedules] using other
        rw [buildNewRequest, if_pos mock] at built
        cases built
        exact present
      · exact ((buildNewRequest_concerns built).requestTrackers reqId same).symm.trans present
  | scheduledCached cached numScheduledTokens =>
      obtain ⟨scheduler, reqMeta, built, rfl⟩ := afterBuild_eq_some.mp stepped
      obtain ⟨_, _, _, _, _, _, _, _, concerns⟩ := buildCachedRequest_ok built
      exact (concerns.requestTrackers reqId fun same => other same.symm).symm.trans present

namespace SaveWorld

variable {reqId : String} {world next : SaveWorld Token Lookups}
  {event : ConnectorEvent Token Lookups}

/-- The tracker of the request keeps its name, and what it has saved was offered. -/
def Tracked (config : SchedulerConfig Token) (reqId : String)
    (world : SaveWorld Token Lookups) : Prop :=
  ∀ tracker, world.connector.scheduler.requestTrackers reqId = some tracker →
    tracker.reqId = reqId ∧ Saving config world.initialHit world.calls tracker ∧
      Saved config tracker

/-- What is built from the tracker of a request is the request's. -/
theorem filter_built {tracker saved : RequestTracker Token} {loadSpec : Option LoadSpec}
    {reqMeta : Option (ReqMeta Token)}
    (described : fromRequestTracker config.toConnectorConfig tracker loadSpec =
      .ok (reqMeta, saved)) (named : tracker.reqId = reqId) :
    (reqMeta.toList.filter fun built => built.reqId = reqId) = reqMeta.toList := by
  obtain ⟨_, _, fields⟩ := fromRequestTracker_ok described
  rw [List.filter_eq_self]
  intro built member
  obtain ⟨_, same, _⟩ := fields built (Option.mem_toList.mp member)
  exact decide_eq_true (same.trans named)

/-- The saved tokens of the request from one state to another. -/
def SavesOn (reqId : String) (world next : SaveWorld Token Lookups) : Prop :=
  ∀ tracker later, world.connector.scheduler.requestTrackers reqId = some tracker →
    next.connector.scheduler.requestTrackers reqId = some later →
      tracker.numSavedTokens ≤ later.numSavedTokens

/-- A step that does not schedule the request. -/
theorem Tracked.of_same (tracked : world.Tracked config reqId)
    (stepped : world.step config client enableBlending reqId event = some next)
    (other : ¬ event.Schedules reqId) : next.Tracked config reqId ∧ SavesOn reqId world next := by
  obtain ⟨connector, moved, rfl⟩ := Option.map_eq_some_iff.mp stepped
  have same := ConnectorWorld.step_same moved other
  have going : world.startingHit reqId event = none := by
    cases event with
    | scheduledNew newRequest numScheduledTokens => exact if_neg other
    | _ => rfl
  constructor
  · intro tracker present
    obtain ⟨named, saving, saved⟩ := tracked tracker (same tracker present)
    simp only [going, Option.getD_none, Option.isSome_none, Bool.false_eq_true, ↓reduceIte]
    exact ⟨named, saving.mono fun call member => List.mem_append_left _ member, saved⟩
  · intro tracker later present after
    cases present.symm.trans (same later after)
    exact le_rfl

/-- The request is scheduled for the first time. -/
theorem Tracked.scheduledNew {newRequest : NewRequestData Token} {numScheduledTokens : Nat}
    (named : newRequest.reqId = reqId) (real : isMock reqId = false)
    (kept : world.SaveKept config reqId (.scheduledNew newRequest numScheduledTokens))
    (stepped : world.step config client enableBlending reqId
      (.scheduledNew newRequest numScheduledTokens) = some next) :
    next.Tracked config reqId := by
  subst named
  obtain ⟨connector, moved, rfl⟩ := Option.map_eq_some_iff.mp stepped
  obtain ⟨scheduler, reqMeta, built, rfl⟩ := ConnectorWorld.afterBuild_eq_some.mp moved
  obtain ⟨unshared, unforced, unskipped, room⟩ := kept rfl
  obtain ⟨tracker, saved, made, described, trackers, _⟩ := buildNewRequest_ok real built
  obtain ⟨blocks, unfolded, returned⟩ := Checked.bind_ok.mp made
  cases returned
  intro later present
  simp only [trackers, Function.update_self] at present
  cases present
  have saving := Saving.start (((world.connector.scheduler.loadSpecs newRequest.reqId).map
    LoadSpec.lmcacheCachedTokens).getD 0) unshared unforced unskipped
      (room blocks (by rw [unfolded]; rfl))
  obtain ⟨covered, done, _⟩ := saving.describe enableBlending described
  have starts : world.startingHit newRequest.reqId
      (.scheduledNew newRequest numScheduledTokens) =
        some (((world.connector.scheduler.loadSpecs newRequest.reqId).map
          LoadSpec.lmcacheCachedTokens).getD 0) := by
    simp [startingHit, real]
  simp only [starts, Option.getD_some, Option.isSome_some, ↓reduceIte, filter_built described rfl]
  obtain ⟨rfl, _, _⟩ := fromRequestTracker_ok described
  exact ⟨rfl, covered, done⟩

/-- The request is scheduled again. -/
theorem Tracked.scheduledCached {cached : CachedRequestData} {numScheduledTokens : Nat}
    (tracked : world.Tracked config reqId) (named : cached.reqId = reqId)
    (kept : world.SaveKept config reqId (.scheduledCached cached numScheduledTokens))
    (stepped : world.step config client enableBlending reqId
      (.scheduledCached cached numScheduledTokens) = some next) :
    next.Tracked config reqId ∧ SavesOn reqId world next := by
  subst named
  obtain ⟨connector, moved, rfl⟩ := Option.map_eq_some_iff.mp stepped
  obtain ⟨scheduler, reqMeta, built, rfl⟩ := ConnectorWorld.afterBuild_eq_some.mp moved
  obtain ⟨tracker, updated, saved, present, _, changed, described, trackers, _⟩ :=
    buildCachedRequest_ok built
  obtain ⟨running, steps⟩ := kept rfl
  obtain ⟨computed, room, single⟩ := steps tracker present
  obtain ⟨named, saving, done⟩ := tracked tracker present
  -- nothing was rolled back, and the tokens are appended
  rw [running, RequestTracker.rollBack, if_neg (by omega), RequestTracker.update_running] at changed
  cases changed
  obtain ⟨covered, whole, forward⟩ :=
    (saving.update done room single).describe enableBlending described
  constructor
  · intro later found
    simp only [trackers, Function.update_self] at found
    cases found
    simp only [startingHit, Option.getD_none, Option.isSome_none, Bool.false_eq_true, ↓reduceIte,
      filter_built described named]
    obtain ⟨rfl, _, _⟩ := fromRequestTracker_ok described
    exact ⟨named, covered, whole⟩
  · intro before later found after
    cases present.symm.trans found
    simp only [trackers, Function.update_self] at after
    cases after
    exact forward

/-- Every step that meets the condition keeps what is known of the request, and
unless the request starts anew, its saved tokens. -/
theorem Tracked.step (tracked : world.Tracked config reqId)
    (kept : world.SaveKept config reqId event)
    (stepped : world.step config client enableBlending reqId event = some next) :
    next.Tracked config reqId ∧
      (world.startingHit reqId event = none → SavesOn reqId world next) := by
  by_cases schedules : event.Schedules reqId
  · cases event with
    | scheduledNew newRequest numScheduledTokens =>
        refine ⟨Tracked.scheduledNew schedules.1 schedules.2 kept stepped, fun going => ?_⟩
        simp only [ConnectorEvent.Schedules] at schedules
        rw [startingHit, if_pos schedules] at going
        cases going
    | scheduledCached cached numScheduledTokens =>
        obtain ⟨after, forward⟩ := tracked.scheduledCached schedules kept stepped
        exact ⟨after, fun _ => forward⟩
    | _ => exact absurd schedules id
  · obtain ⟨after, forward⟩ := tracked.of_same stepped schedules
    exact ⟨after, fun _ => forward⟩

/-- What is known of a request between its steps covers it. -/
theorem Tracked.covered (tracked : world.Tracked config reqId) {tracker : RequestTracker Token}
    (present : world.connector.scheduler.requestTrackers reqId = some tracker) :
    world.Covered config tracker := by
  obtain ⟨_, saving, saved⟩ := tracked tracker present
  refine ⟨saving.noGap, fun scheduled chunk above full => saving.chunks chunk above ?_⟩
  have last := chunk_le_wholeChunks config.chunkSize_pos full
  rcases saved with prompt | tokens
  · exact last.trans prompt
  · exact (last.trans (Nat.mul_le_mul_right config.chunkSize (Nat.div_le_div_right scheduled))).trans
      tokens

/-- **Save coverage.** In every run whose steps meet the condition, what was handed
to the store leaves no gap up to the saved tokens and has every full chunk of the
prompt once that is scheduled; no further step lowers the number of saved tokens. -/
theorem covered_of_reaches {start : SaveWorld Token Lookups}
    (fresh : start.connector.scheduler.requestTrackers reqId = none)
    (reached : Runs.Reaches (step config client enableBlending reqId) (SaveKept config reqId)
      start world) :
    (∀ tracker, world.connector.scheduler.requestTrackers reqId = some tracker →
      world.Covered config tracker) ∧
    ∀ event next, world.SaveKept config reqId event →
      world.step config client enableBlending reqId event = some next →
        world.startingHit reqId event = none → SavesOn reqId world next := by
  have tracked : world.Tracked config reqId := by
    refine reached.invariant (fun tracker present => ?_) fun _ _ _ before kept stepped =>
      (before.step kept stepped).1
    rw [fresh] at present
    cases present
  exact ⟨fun tracker present => tracked.covered present,
    fun event next kept stepped => (tracked.step kept stepped).2⟩

/-! ### Prompts in small steps -/

/-- vLLM's request with a prompt of nine tokens. -/
def nineTokenRequest (numComputedTokens : Nat) : Request Nat :=
  ⟨"req", 0, List.range 9, List.range 9, numComputedTokens, [], [], none, none⟩

/-- The prompt is scheduled in three steps. -/
def threeSteps (first second third : Nat) : List (ConnectorEvent Nat Nat) :=
  [.updateStateAfterAlloc "req" 0,
    .scheduledNew ⟨"req", List.range 9, .tuple [[0, 1, 2]], 0, [], [], none⟩ first,
    .requestChanged (nineTokenRequest first),
    .scheduledCached ⟨"req", none, false⟩ second,
    .requestChanged (nineTokenRequest (first + second)),
    .scheduledCached ⟨"req", none, false⟩ third]

def unsaved : SaveWorld Nat Nat := ⟨⟨fun _ => nineTokenRequest 0, .initial 0, []⟩, 0, []⟩

/-- What can be seen of a run. -/
def summary (world : SaveWorld Nat Nat) : Option (Nat × Nat × Nat) × List (Nat × Nat) :=
  ((world.connector.scheduler.requestTrackers "req").map fun tracker =>
      (tracker.promptLen, tracker.tokenIds.length, tracker.numSavedTokens),
    world.calls.map fun call => (call.offset, call.tokenIds.length))

/-- Three, five and one token: both chunks are stored in the second step. -/
theorem covered_of_reaches_threeSteps :
    ∃ world, Runs.execute (step (smallScheduler .kvBoth 0) countingClient false "req")
        (SaveKept (smallScheduler .kvBoth 0) "req") (threeSteps 3 5 1) unsaved = some world ∧
      summary world = (some (9, 9, 8), [(0, 8)]) ∧
      ∀ tracker, world.connector.scheduler.requestTrackers "req" = some tracker →
        world.Covered (smallScheduler .kvBoth 0) tracker := by
  have done : (Runs.execute (step (smallScheduler .kvBoth 0) countingClient false "req")
      (SaveKept (smallScheduler .kvBoth 0) "req") (threeSteps 3 5 1) unsaved).map summary =
        some (some (9, 9, 8), [(0, 8)]) := by decide
  obtain ⟨world, executed, seen⟩ := Option.map_eq_some_iff.mp done
  exact ⟨world, executed, seen,
    (covered_of_reaches rfl (Runs.reaches_of_execute .refl executed)).1⟩

/-- Three, one and five tokens: the single token counts as decoding, and nothing of
the prompt is ever stored. -/
theorem covered_fails_singleToken :
    ∃ world, Runs.Reaches (step (smallScheduler .kvBoth 0) countingClient false "req")
        (fun _ _ => True) unsaved world ∧
      ∃ tracker, world.connector.scheduler.requestTrackers "req" = some tracker ∧
        ¬ world.Covered (smallScheduler .kvBoth 0) tracker := by
  have done : (Runs.execute (step (smallScheduler .kvBoth 0) countingClient false "req")
      (fun _ _ => True) (threeSteps 3 1 5) unsaved).map (fun world =>
        (summary world, world.initialHit)) = some ((some (9, 9, 0), []), 0) := by decide
  obtain ⟨world, executed, facts⟩ := Option.map_eq_some_iff.mp done
  obtain ⟨seen, hit⟩ := Prod.mk.inj facts
  obtain ⟨tracked, calls⟩ := Prod.mk.inj seen
  obtain ⟨tracker, present, counts⟩ := Option.map_eq_some_iff.mp tracked
  obtain ⟨promptLen, scheduled, _⟩ := by simpa using counts
  refine ⟨world, Runs.reaches_of_execute .refl executed, tracker, present, fun covered => ?_⟩
  obtain ⟨call, member, _⟩ := covered.prompt (by omega) 0
    (by rw [hit]; decide) (by rw [promptLen]; decide)
  rw [List.map_eq_nil_iff.mp calls] at member
  exact List.not_mem_nil member

end SaveWorld

end LMCacheHcu.Connector
