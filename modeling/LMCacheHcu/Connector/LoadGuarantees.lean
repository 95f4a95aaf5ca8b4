import LMCacheHcu.Connector.StartLoad

/-! # Which failed loads are reported

The count that `start_load_kv` tests includes the tokens of the first chunk that
vLLM already had, and the mask it looks at ends with the token list, which may
have been cut to whole chunks. Below, a missing token of the load range is told
from a token whose loss the connector notices; the blocks added to
`_invalid_block_ids` are exactly those of the latter.
-/

namespace LMCacheHcu.Connector

variable {Token : Type} {config : ConnectorConfig Token}

/-- A request of a batch together with the tracker it was made from. -/
structure ScheduledRequest (config : ConnectorConfig Token) where
  tracker : RequestTracker Token
  updated : RequestTracker Token
  loadSpec : Option LoadSpec
  metadata : ReqMeta Token
  built : fromRequestTracker config tracker loadSpec = .ok (some metadata, updated)

namespace ScheduledRequest

/-- The KV block that vLLM allocated for one token of the request. -/
def kvBlock (request : ScheduledRequest config) (token : Nat) : Option Nat :=
  request.tracker.allocatedBlockIds[token / config.blockSize]?

/-- The mask that the engine returns for the request. -/
def retMask (request : ScheduledRequest config) (engine : LMCacheEngine Token) (index : Nat)
    (loadSpec : LoadSpec) : List Bool :=
  engine.retrieve index (retrieveCall config request.metadata loadSpec)

/-- The block holds a token that LMCache should have loaded and did not. -/
def Lost (request : ScheduledRequest config) (engine : LMCacheEngine Token) (index block : Nat) :
    Prop :=
  ∃ loadSpec token, request.loadSpec.filter LoadSpec.canLoad = some loadSpec ∧
    loadSpec.vllmCachedTokens ≤ token ∧ token < loadSpec.lmcacheCachedTokens ∧
    (request.retMask engine index loadSpec)[token]? ≠ some true ∧
    request.kvBlock token = some block

/-- The loss of a token in the block shows: the request misses more tokens of
its load range than it retrieved before that range, and the token is one that
the call asked for, so it lies within the kept tokens. -/
def Noticed (request : ScheduledRequest config) (engine : LMCacheEngine Token)
    (index block : Nat) : Prop :=
  ∃ loadSpec token, request.loadSpec.filter LoadSpec.canLoad = some loadSpec ∧
    ((request.retMask engine index loadSpec).take loadSpec.vllmCachedTokens).count true <
      RangeMask.unmarked (request.retMask engine index loadSpec)
        loadSpec.vllmCachedTokens loadSpec.lmcacheCachedTokens ∧
    maskedTokenCount config loadSpec ≤ token ∧ token < loadSpec.lmcacheCachedTokens ∧
    token < numTokensToSave config request.tracker ∧
    (request.retMask engine index loadSpec)[token]? ≠ some true ∧
    request.kvBlock token = some block

end ScheduledRequest

/-- A completed `start_load_kv` that loads whole requests. -/
structure LoadRun (config : ConnectorConfig Token) (engine : LMCacheEngine Token) where
  requests : List (ScheduledRequest config)
  before : LoadState Token
  after : LoadState Token
  completed : startLoadKv config .synchronous engine true
    (requests.map ScheduledRequest.metadata) before = .ok after

namespace LoadRun

variable {engine : LMCacheEngine Token} (run : LoadRun config engine)

/-- Every block that holds a token not loaded is invalid afterwards. -/
def FailuresReported : Prop :=
  ∀ (index : Nat) (request : ScheduledRequest config) (block : Nat),
    run.requests[index]? = some request → request.Lost engine index block →
      block ∈ run.after.invalidBlockIds

/-- Every block that holds a token not loaded was invalid already, or some
request of the batch loses a token of it and notices. -/
def FailuresNoticed : Prop :=
  ∀ (index : Nat) (request : ScheduledRequest config) (block : Nat),
    run.requests[index]? = some request → request.Lost engine index block →
      block ∈ run.before.invalidBlockIds ∨
        ∃ (other : Nat) (witness : ScheduledRequest config),
          run.requests[other]? = some witness ∧ witness.Noticed engine other block

end LoadRun

/-! ### One request -/

/-- The blocks that a request at one position of the batch adds. -/
def reportedBlocks (config : ConnectorConfig Token) (engine : LMCacheEngine Token)
    (entry : ReqMeta Token × Nat) : Finset Nat :=
  match entry.1.loadable with
  | none => ∅
  | some loadSpec =>
      checkResult config (retrieveCall config entry.1 loadSpec) loadSpec
        (engine.retrieve entry.2 (retrieveCall config entry.1 loadSpec))

/-- The slot of a kept token lies in the block allocated for the token. -/
theorem ScheduledRequest.slot_block (request : ScheduledRequest config) {token : Nat}
    (kept : token < numTokensToSave config request.tracker) (block : Nat) :
    (∃ slot : Nat, request.metadata.slotMapping[token]? = some slot ∧
      slot / config.blockSize = block) ↔ request.kvBlock token = some block := by
  obtain ⟨_, _, slots⟩ := fromRequestTracker_some request.built
  rw [slots, List.getElem?_take_of_lt kept, getElem?_blockSlots config.blockSize_pos]
  have inBlock : ∀ number : Nat,
      (token % config.blockSize + number * config.blockSize) / config.blockSize = number := by
    intro number
    rw [Nat.add_mul_div_right _ _ config.blockSize_pos,
      Nat.div_eq_of_lt (Nat.mod_lt _ config.blockSize_pos), Nat.zero_add]
  unfold ScheduledRequest.kvBlock
  cases request.tracker.allocatedBlockIds[token / config.blockSize]? with
  | none => simp
  | some number => simp [inBlock]

/-- The blocks added for a request are those of the tokens it notices. -/
theorem mem_reportedBlocks_iff (engine : LMCacheEngine Token) (index : Nat)
    (request : ScheduledRequest config) (block : Nat) :
    block ∈ reportedBlocks config engine (request.metadata, index) ↔
      request.Noticed engine index block := by
  obtain ⟨specs, kept, _⟩ := fromRequestTracker_some request.built
  unfold reportedBlocks ScheduledRequest.Noticed ReqMeta.loadable
  rw [specs]
  cases request.loadSpec.filter LoadSpec.canLoad with
  | none => simp
  | some loadSpec =>
      simp only [Option.some.injEq, exists_and_left, exists_eq_left']
      have long := engine.aligned index (retrieveCall config request.metadata loadSpec)
      have matching := long.trans (length_retrieveCall_mask config request.metadata loadSpec).symm
      have short : (request.retMask engine index loadSpec).length ≤
          loadSpec.lmcacheCachedTokens := long.trans_le (List.length_take_le _ _)
      have failed := count_short_iff loadSpec.vllmCachedTokens short
      have asked := retrieveCall_mask_true_iff config request.metadata loadSpec
      rw [kept] at asked
      simp only [checkResult]
      rw [← failed]
      split
      · rename_i fell
        rw [mem_recordFailedBlocks matching]
        constructor
        · rintro ⟨token, expected, lost, slot, here, named⟩
          obtain ⟨cached, inside, reached⟩ := (asked token).mp expected
          simp only [retrieveCall, List.getElem?_take_of_lt cached] at here
          exact ⟨fell, token, reached, cached, inside, lost,
            (request.slot_block inside block).mp ⟨slot, here, named⟩⟩
        · rintro ⟨_, token, reached, cached, inside, lost, named⟩
          obtain ⟨slot, here, inBlock⟩ := (request.slot_block inside block).mpr named
          refine ⟨token, (asked token).mpr ⟨cached, inside, reached⟩, lost, slot, ?_, inBlock⟩
          simpa only [retrieveCall, List.getElem?_take_of_lt cached] using here
      · rename_i enough
        simp only [Finset.notMem_empty, false_iff, not_and]
        exact fun fell => absurd fell enough

/-- When vLLM's cached tokens are whole chunks and the kept tokens cover the
cached ones, a request notices every token it loses. -/
theorem ScheduledRequest.noticed_of_aligned (request : ScheduledRequest config)
    (engine : LMCacheEngine Token) (index : Nat)
    (aligned : ∀ loadSpec ∈ request.loadSpec, config.chunkSize ∣ loadSpec.vllmCachedTokens ∧
      loadSpec.lmcacheCachedTokens ≤ numTokensToSave config request.tracker)
    {block : Nat} (lost : request.Lost engine index block) :
    request.Noticed engine index block := by
  obtain ⟨loadSpec, token, loads, above, below, unloaded, here⟩ := lost
  obtain ⟨whole, covered⟩ := aligned loadSpec (Option.filter_eq_some_iff.mp loads).1
  have masked : maskedTokenCount config loadSpec = loadSpec.vllmCachedTokens :=
    Nat.div_mul_cancel whole
  have nothingBefore :
      ((request.retMask engine index loadSpec).take loadSpec.vllmCachedTokens).count true = 0 := by
    rw [List.count_eq_zero]
    intro marked
    obtain ⟨early, marks⟩ := List.mem_iff_getElem?.mp marked
    have before : early < loadSpec.vllmCachedTokens := by
      have inside := (List.getElem?_eq_some_iff.mp marks).1
      rw [List.length_take] at inside
      omega
    rw [List.getElem?_take_of_lt before] at marks
    have asked := engine.requested index _
      (length_retrieveCall_mask config request.metadata loadSpec) early marks
    obtain ⟨inside, reached⟩ := (retrieveCall_mask_true_iff config request.metadata loadSpec
      early).mp asked
    omega
  refine ⟨loadSpec, token, loads, ?_, ?_, below, ?_, unloaded, here⟩
  · rw [nothingBefore]
    exact RangeMask.unmarked_pos above below unloaded
  · rwa [masked]
  · exact below.trans_le covered

/-! ### A whole batch -/

theorem loadRequest_invalid {engine : LMCacheEngine Token} {last : Option Nat}
    {state next : LoadState Token} {entry : ReqMeta Token × Nat}
    (loaded : loadRequest config .synchronous engine last state entry = .ok next) :
    next.invalidBlockIds = state.invalidBlockIds ∪ reportedBlocks config engine entry := by
  unfold loadRequest at loaded
  unfold reportedBlocks
  cases loads : entry.1.loadable with
  | none =>
      simp only [loads] at loaded
      cases loaded
      exact (Finset.union_empty _).symm
  | some loadSpec =>
      simp only [loads] at loaded
      by_cases lengths : entry.1.tokenIds.length ≠ entry.1.slotMapping.length
      · rw [if_pos lengths] at loaded
        cases loaded
      · rw [if_neg lengths] at loaded
        cases loaded
        rfl

theorem loadRequests_invalid {engine : LMCacheEngine Token} {last : Option Nat}
    (entries : List (ReqMeta Token × Nat)) {before after : LoadState Token}
    (loaded : entries.foldlM (loadRequest config .synchronous engine last) before = .ok after)
    (block : Nat) :
    block ∈ after.invalidBlockIds ↔
      block ∈ before.invalidBlockIds ∨
        ∃ entry ∈ entries, block ∈ reportedBlocks config engine entry := by
  induction entries generalizing before with
  | nil =>
      cases loaded
      simp
  | cons entry entries ih =>
      rw [List.foldlM_cons] at loaded
      cases first : loadRequest config .synchronous engine last before entry with
      | error _ =>
          rw [first] at loaded
          cases loaded
      | ok next =>
          rw [first] at loaded
          rw [ih loaded, loadRequest_invalid first, Finset.mem_union]
          simp only [List.mem_cons, exists_eq_or_imp]
          exact or_assoc

/-- The invalid blocks after a batch are those from before and the blocks of
the tokens whose loss some request notices. -/
theorem LoadRun.mem_after_iff {engine : LMCacheEngine Token} (run : LoadRun config engine)
    (block : Nat) :
    block ∈ run.after.invalidBlockIds ↔
      block ∈ run.before.invalidBlockIds ∨
        ∃ (index : Nat) (request : ScheduledRequest config),
          run.requests[index]? = some request ∧ request.Noticed engine index block := by
  rw [loadRequests_invalid _ run.completed]
  apply or_congr_right
  constructor
  · rintro ⟨⟨metadata, index⟩, member, reported⟩
    rw [List.mem_zipIdx_iff_getElem?, List.getElem?_map, Option.map_eq_some_iff] at member
    obtain ⟨request, here, rfl⟩ := member
    exact ⟨index, request, here, (mem_reportedBlocks_iff engine index request block).mp reported⟩
  · rintro ⟨index, request, here, noticed⟩
    refine ⟨(request.metadata, index), ?_,
      (mem_reportedBlocks_iff engine index request block).mpr noticed⟩
    rw [List.mem_zipIdx_iff_getElem?, List.getElem?_map, here]
    rfl

/-- **Which failed loads are reported.** After a completed batch every block
with a token that was not loaded is invalid exactly when each such block was
invalid before or contains a token whose loss some request notices. -/
theorem failuresReported_iff {engine : LMCacheEngine Token} (run : LoadRun config engine) :
    run.FailuresReported ↔ run.FailuresNoticed := by
  unfold LoadRun.FailuresReported LoadRun.FailuresNoticed
  simp only [run.mem_after_iff]

/-- Chunks of four tokens in blocks of two. -/
def smallConfig : ConnectorConfig Nat where
  blockSize := 2
  chunkSize := 4
  discardPartialChunks := false
  saveDecodeCache := false
  applyMmHashes := plainTokens
  blockSize_pos := by decide
  chunkSize_pos := by decide
  length_applyMmHashes := length_plainTokens

/-- Nine tokens asked for from the fifth on: one whole chunk and a partial one. -/
def nineTokens : TokenDatabase Nat Nat where
  processTokens tokens mask :=
    if fits : tokens.length = 9 ∧
        mask = [false, false, false, false, true, true, true, true, true] then
      { numTokens := 9
        chunkInfos := [⟨0, 4, 8⟩, ⟨1, 8, 9⟩]
        nonempty := by decide
        consecutive := by decide
        bounded := by decide }
    else
      { numTokens := tokens.length
        chunkInfos := []
        nonempty := by simp
        consecutive := by simp
        bounded := by simp }
  numTokens_eq tokens mask := by
    split
    · rename_i fits
      exact fits.1.symm
    · rfl
  unmasked tokens mask _ chunk member token above below := by
    split at member
    · rename_i fits
      rw [fits.2]
      have range : 4 ≤ token ∧ token < 9 := by
        simp only [List.mem_cons, List.not_mem_nil, or_false] at member
        rcases member with rfl | rfl <;> simp only at above below <;> omega
      obtain ⟨from4, to9⟩ := range
      interval_cases token <;> rfl
    · simp at member

/-- The storage holds the whole chunk and has lost the partial one. -/
def lossyEngine : LMCacheEngine Nat :=
  .ofRetrieve ⟨id, id⟩ nineTokens fun _ => ⟨true, some [()], [], Engine.losesSecond⟩

/-- Six of the nine tokens are cached in vLLM, all nine in LMCache. -/
def overlapRequest : ScheduledRequest smallConfig where
  tracker :=
    { reqId := "overlap"
      promptLen := 9
      tokenIds := List.range 9
      allocatedBlockIds := List.range 5
      numSavedTokens := 9 }
  updated :=
    { reqId := "overlap"
      promptLen := 9
      tokenIds := List.range 9
      allocatedBlockIds := List.range 5
      numSavedTokens := 9 }
  loadSpec := some ⟨6, 9, true⟩
  metadata :=
    { reqId := "overlap"
      tokenIds := List.range 9
      slotMapping := List.range 9
      isLastPrefill := true
      saveSpec := some ⟨9, false⟩
      loadSpec := some ⟨6, 9, true⟩
      disaggSpec := none
      requestConfigs := none }
  built := by rfl

def overlapRun : LoadRun smallConfig lossyEngine where
  requests := [overlapRequest]
  before := ⟨∅, [], []⟩
  after := ⟨∅, [], []⟩
  completed := by rfl

/-- The four tokens retrieved with the first chunk outnumber the three that
vLLM lacked, so the block of the lost ninth token is not reported. -/
theorem failuresReported_fails_overlapRun : ¬ overlapRun.FailuresReported := by
  intro reported
  have lost : overlapRequest.Lost lossyEngine 0 4 :=
    ⟨⟨6, 9, true⟩, 8, rfl, by decide, by decide, by decide, rfl⟩
  exact absurd (reported 0 overlapRequest 4 rfl lost) (Finset.notMem_empty 4)

end LMCacheHcu.Connector
