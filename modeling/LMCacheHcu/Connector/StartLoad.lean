import LMCacheHcu.Connector.RequestMeta
import LMCacheHcu.Engine.RetrieveGuarantees
import Mathlib.Data.Finset.Union

/-! # Loading a batch and reporting what is missing

The worker side of the vLLM connector. `start_load_kv` asks the engine for the
cached tokens of every scheduled request and compares the number of tokens the
engine marked with the number vLLM still lacked. Only when the count falls short
does it look at the mask and add the blocks of the missing tokens to
`_invalid_block_ids`, from which vLLM recomputes them.
-/

namespace LMCacheHcu.Connector

variable {Token : Type}

/-- The arguments of one call of the engine's `retrieve`. -/
structure RetrieveCall (Token : Type) where
  tokens : List Token
  mask : List Bool
  slotMapping : List Nat
  vllmCachedTokens : Nat
  requestConfigs : Option (List (String × ConfigValue))
  reqId : String
deriving DecidableEq, Repr

/-- The engine as the connector sees it: the mask that each call of a batch
returns, one entry for each token and marks only where some were asked for. -/
structure LMCacheEngine (Token : Type) where
  retrieve : Nat → RetrieveCall Token → List Bool
  aligned : ∀ index call, (retrieve index call).length = call.tokens.length
  requested : ∀ index call, call.mask.length = call.tokens.length → ∀ token : Nat,
    (retrieve index call)[token]? = some true → call.mask[token]? = some true

/-- How the connector loads: whole requests, or layer by layer, in the latter
case with or without blending. -/
inductive LoadMode
  | synchronous
  | layerwise (enableBlending : Bool)
deriving DecidableEq, Repr

/-- What `start_load_kv` changes in the connector. A layerwise retriever comes
with its `sync` argument. -/
structure LoadState (Token : Type) where
  invalidBlockIds : Finset Nat
  layerwiseRetrievers : List (RetrieveCall Token × Bool)
  blended : List (RetrieveCall Token)
deriving DecidableEq

variable (config : ConnectorConfig Token)

/-- vLLM's cached tokens rounded down to whole chunks. -/
def maskedTokenCount (loadSpec : LoadSpec) : Nat :=
  loadSpec.vllmCachedTokens / config.chunkSize * config.chunkSize

def tokenMask (request : ReqMeta Token) (loadSpec : LoadSpec) : List Bool :=
  RangeMask.fillRange (List.replicate request.tokenIds.length true) 0
    (maskedTokenCount config loadSpec) false

def retrieveCall (request : ReqMeta Token) (loadSpec : LoadSpec) : RetrieveCall Token where
  tokens := request.tokenIds.take loadSpec.lmcacheCachedTokens
  mask := (tokenMask config request loadSpec).take loadSpec.lmcacheCachedTokens
  slotMapping := request.slotMapping.take loadSpec.lmcacheCachedTokens
  vllmCachedTokens := loadSpec.vllmCachedTokens
  requestConfigs := request.requestConfigs
  reqId := request.reqId

/-- `record_failed_blocks`: the blocks of the tokens expected and not returned. -/
def recordFailedBlocks (blockSize : Nat) (expectedMask retMask : List Bool)
    (slotMapping : List Nat) : Finset Nat :=
  if expectedMask.length = 0 then ∅
  else if retMask.length ≠ expectedMask.length then ∅
  else
    let missingMask := List.zipWith (fun expected returned => expected && !returned)
      expectedMask retMask
    let missingIndices := (List.range missingMask.length).filter fun token =>
      missingMask[token]? = some true
    let slots :=
      if missingMask.length < slotMapping.length then slotMapping.take missingMask.length
      else slotMapping
    (missingIndices.filterMap fun token => slots[token]?.map (· / blockSize)).toFinset

/-- The blocks to report for one retrieved request, after the comparison of the
two counts. The expected count is a Python difference and may be negative. -/
def checkResult (call : RetrieveCall Token) (loadSpec : LoadSpec) (retMask : List Bool) :
    Finset Nat :=
  let numRetrievedTokens : Int := retMask.count true
  let numExpectedTokens : Int := loadSpec.lmcacheCachedTokens - loadSpec.vllmCachedTokens
  if numRetrievedTokens < numExpectedTokens then
    recordFailedBlocks config.blockSize call.mask retMask call.slotMapping
  else ∅

/-- The load spec of a request that is to be loaded. -/
def ReqMeta.loadable (request : ReqMeta Token) : Option LoadSpec :=
  request.loadSpec.filter LoadSpec.canLoad

/-- The position of the last request that loads. -/
def lastIdx (requests : List (ReqMeta Token)) : Option Nat :=
  ((requests.zipIdx.filter fun entry => entry.1.loadable.isSome).getLast?).map Prod.snd

/-- The loop body of `start_load_kv` for the request at one position. -/
def loadRequest (mode : LoadMode) (engine : LMCacheEngine Token) (last : Option Nat)
    (state : LoadState Token) (entry : ReqMeta Token × Nat) :
    Except ConnectorError (LoadState Token) :=
  match entry.1.loadable with
  | none => .ok state
  | some loadSpec =>
      if entry.1.tokenIds.length ≠ entry.1.slotMapping.length then .error .slotMappingLength
      else
        let call := retrieveCall config entry.1 loadSpec
        match mode with
        | .layerwise true => .ok { state with blended := state.blended ++ [call] }
        | .layerwise false =>
            .ok { state with
              layerwiseRetrievers :=
                state.layerwiseRetrievers ++ [(call, decide (last = some entry.2))] }
        | .synchronous =>
            let retTokenMask := engine.retrieve entry.2 call
            .ok { state with
              invalidBlockIds :=
                state.invalidBlockIds ∪ checkResult config call loadSpec retTokenMask }

/-- `start_load_kv`. Without attention metadata there is nothing to load. -/
def startLoadKv (mode : LoadMode) (engine : LMCacheEngine Token) (hasAttnMetadata : Bool)
    (requests : List (ReqMeta Token)) (state : LoadState Token) :
    Except ConnectorError (LoadState Token) :=
  if hasAttnMetadata then
    requests.zipIdx.foldlM (loadRequest config mode engine (lastIdx requests))
      { state with layerwiseRetrievers := [] }
  else .ok state

/-! ### The engine behind the connector -/

section Engine

open LMCacheHcu.Engine

/-- The chunks of a token list that a mask asks for. -/
structure TokenDatabase (Token Key : Type) where
  processTokens : List Token → List Bool → RequestChunks Key
  numTokens_eq : ∀ tokens mask, (processTokens tokens mask).numTokens = tokens.length
  unmasked : ∀ tokens mask, mask.length = tokens.length →
    ∀ chunk ∈ (processTokens tokens mask).chunkInfos, ∀ token, chunk.start ≤ token →
      token < chunk.stop → mask[token]? = some true

/-- What the engine's health, its lookup pins and its storage are at one call. -/
structure EngineMoment (Location Key Obj : Type) where
  healthy : Bool
  lookupPins : Option (List Location)
  backends : List (Location × (List Key → Nat))
  manager : StorageManager Location Key Obj

variable {Location Key Obj : Type}

def retrievedMask (sizes : KvSizes Obj) (database : TokenDatabase Token Key)
    (moment : EngineMoment Location Key Obj) (call : RetrieveCall Token) : List Bool :=
  match Engine.retrieve moment.healthy false sizes moment.manager moment.lookupPins
      moment.backends (database.processTokens call.tokens call.mask) with
  | .ok result => result.retMask
  | .error _ => []

/-- Every retrieve of the engine answers a connector's call as the connector
expects, whatever the storage holds at that moment. -/
def LMCacheEngine.ofRetrieve (sizes : KvSizes Obj) (database : TokenDatabase Token Key)
    (moments : Nat → EngineMoment Location Key Obj) : LMCacheEngine Token where
  retrieve index := retrievedMask sizes database (moments index)
  aligned index call := by
    obtain ⟨result, returned, long, _⟩ := retrieve_retMask (moments index).healthy false sizes
      (moments index).manager (moments index).lookupPins (moments index).backends
      (database.processTokens call.tokens call.mask)
    rw [retrievedMask, returned, ← database.numTokens_eq call.tokens call.mask]
    exact long
  requested index call matching token marked := by
    obtain ⟨result, returned, _, covered⟩ := retrieve_retMask (moments index).healthy false sizes
      (moments index).manager (moments index).lookupPins (moments index).backends
      (database.processTokens call.tokens call.mask)
    rw [retrievedMask, returned] at marked
    obtain ⟨chunk, member, above, below⟩ := covered token marked
    exact database.unmasked call.tokens call.mask matching chunk member token above below

end Engine

/-! ### What one request reports -/

theorem tokenMask_true_iff (request : ReqMeta Token) (loadSpec : LoadSpec) (token : Nat) :
    (tokenMask config request loadSpec)[token]? = some true ↔
      token < request.tokenIds.length ∧ maskedTokenCount config loadSpec ≤ token := by
  unfold tokenMask
  rw [RangeMask.getElem?_fillRange]
  by_cases inside : token < request.tokenIds.length
  · simp [inside]
  · simp [inside]

theorem length_tokenMask (request : ReqMeta Token) (loadSpec : LoadSpec) :
    (tokenMask config request loadSpec).length = request.tokenIds.length := by
  rw [tokenMask, RangeMask.length_fillRange, List.length_replicate]

theorem length_retrieveCall_mask (request : ReqMeta Token) (loadSpec : LoadSpec) :
    (retrieveCall config request loadSpec).mask.length =
      (retrieveCall config request loadSpec).tokens.length := by
  simp only [retrieveCall, List.length_take, length_tokenMask]

/-- A call asks for the tokens from the last whole cached chunk on, up to the
cached tokens and within the token list. -/
theorem retrieveCall_mask_true_iff (request : ReqMeta Token) (loadSpec : LoadSpec) (token : Nat) :
    (retrieveCall config request loadSpec).mask[token]? = some true ↔
      token < loadSpec.lmcacheCachedTokens ∧ token < request.tokenIds.length ∧
        maskedTokenCount config loadSpec ≤ token := by
  by_cases cached : token < loadSpec.lmcacheCachedTokens
  · simp only [retrieveCall, List.getElem?_take_of_lt cached, tokenMask_true_iff, cached, true_and]
  · simp [retrieveCall, cached]

/-- The count test fails exactly when more tokens of the load range are missing
than tokens were retrieved before it. -/
theorem count_short_iff {retMask : List Bool} (start : Nat) {stop : Nat}
    (short : retMask.length ≤ stop) :
    ((retMask.count true : Nat) : Int) < (stop : Int) - start ↔
      (retMask.take start).count true < RangeMask.unmarked retMask start stop := by
  by_cases ordered : start ≤ stop
  · have balance := RangeMask.count_true_add_unmarked retMask ordered short
    omega
  · rw [RangeMask.unmarked_of_le retMask (by omega)]
    omega

theorem mem_recordFailedBlocks {blockSize : Nat} {expectedMask retMask : List Bool}
    {slotMapping : List Nat} (matching : retMask.length = expectedMask.length) (block : Nat) :
    block ∈ recordFailedBlocks blockSize expectedMask retMask slotMapping ↔
      ∃ token : Nat, expectedMask[token]? = some true ∧ retMask[token]? ≠ some true ∧
        ∃ slot : Nat, slotMapping[token]? = some slot ∧ slot / blockSize = block := by
  unfold recordFailedBlocks
  by_cases nothing : expectedMask.length = 0
  · rw [if_pos nothing]
    simp [List.length_eq_zero_iff.mp nothing]
  · rw [if_neg nothing, if_neg (not_not.mpr matching)]
    have missing : ∀ token : Nat, (List.zipWith (fun expected returned => expected && !returned)
        expectedMask retMask)[token]? = some true ↔
          expectedMask[token]? = some true ∧ retMask[token]? ≠ some true := by
      intro token
      rw [List.getElem?_zipWith]
      by_cases inside : token < expectedMask.length
      · have returned : token < retMask.length := by omega
        simp [inside, returned]
      · simp [inside]
    simp only [List.mem_toFinset, List.mem_filterMap, List.mem_filter, List.mem_range,
      List.length_zipWith, matching, Nat.min_self, decide_eq_true_eq, missing]
    constructor
    · rintro ⟨token, ⟨inside, expected, lost⟩, named⟩
      obtain ⟨slot, here, rfl⟩ := Option.map_eq_some_iff.mp named
      refine ⟨token, expected, lost, slot, ?_, rfl⟩
      split at here
      · rwa [List.getElem?_take_of_lt inside] at here
      · exact here
    · rintro ⟨token, expected, lost, slot, here, rfl⟩
      have inside := (List.getElem?_eq_some_iff.mp expected).1
      refine ⟨token, ⟨inside, expected, lost⟩, Option.map_eq_some_iff.mpr ⟨slot, ?_, rfl⟩⟩
      split
      · rwa [List.getElem?_take_of_lt inside]
      · exact here

end LMCacheHcu.Connector
