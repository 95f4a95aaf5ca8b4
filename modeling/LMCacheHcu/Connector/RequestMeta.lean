import Mathlib.Data.List.Basic
import Mathlib.Tactic

/-! # The metadata of one scheduled request

The scheduler side of the vLLM connector. A request tracker holds the tokens
scheduled so far and the KV blocks allocated for them; `from_request_tracker`
turns it into the metadata that the worker loads and saves from. The token list
may be cut to whole chunks on the way, and the slot mapping is cut with it,
while the load spec is passed through as the scheduler made it.
-/

namespace LMCacheHcu.Connector

/-- Which tokens of a request vLLM and LMCache hold. -/
structure LoadSpec where
  vllmCachedTokens : Nat
  lmcacheCachedTokens : Nat
  canLoad : Bool
deriving DecidableEq, Repr

structure SaveSpec where
  skipLeadingTokens : Nat
  canSave : Bool
deriving DecidableEq, Repr

structure DisaggSpec where
  reqId : String
  receiverId : String
  receiverHost : String
  receiverInitPort : Nat
  receiverAllocPort : Nat
  isLastPrefill : Bool
  numTransferredTokens : Nat
deriving DecidableEq, Repr

/-- The position of one multimodal item in the token list. -/
structure PlaceholderRange where
  offset : Nat
  length : Nat
deriving DecidableEq, Repr

/-- A value of the `lmcache.*` entries of a request's transfer parameters. -/
inductive ConfigValue
  | flag (value : Bool)
  | number (value : Int)
  | text (value : String)
deriving DecidableEq, Repr

/-- Python truth of a configuration value. -/
def ConfigValue.truthy : ConfigValue → Bool
  | flag value => value
  | number value => value ≠ 0
  | text value => value ≠ ""

/-- The fields of `RequestTracker` that the request metadata is made from. -/
structure RequestTracker (Token : Type) where
  reqId : String
  promptLen : Nat
  tokenIds : List Token
  allocatedBlockIds : List Nat
  numSavedTokens : Nat := 0
  disaggSpec : Option DisaggSpec := none
  mmHashes : Option (List String) := none
  mmPositions : Option (List PlaceholderRange) := none
  requestConfigs : Option (List (String × ConfigValue)) := none
  isDecodePhase : Bool := false
  skipSave : Bool := false
deriving DecidableEq, Repr

structure ReqMeta (Token : Type) where
  reqId : String
  tokenIds : List Token
  slotMapping : List Nat
  isLastPrefill : Bool
  saveSpec : Option SaveSpec
  loadSpec : Option LoadSpec
  disaggSpec : Option DisaggSpec
  requestConfigs : Option (List (String × ConfigValue))
deriving DecidableEq, Repr

/-- The assertions of the connector that can fail. -/
inductive ConnectorError
  | mmHashesWithoutPositions
  | slotMappingLength
deriving DecidableEq, Repr

/-- The connector's settings. vLLM's block size and LMCache's chunk size are
positive; `applyMmHashes` overwrites placeholder tokens in place. -/
structure ConnectorConfig (Token : Type) where
  blockSize : Nat
  chunkSize : Nat
  discardPartialChunks : Bool
  saveDecodeCache : Bool
  applyMmHashes : List Token → List String → List PlaceholderRange → List Token
  blockSize_pos : 0 < blockSize
  chunkSize_pos : 0 < chunkSize
  length_applyMmHashes : ∀ tokens hashes positions,
    (applyMmHashes tokens hashes positions).length = tokens.length

variable {Token : Type}

/-- The tokens of requests without multimodal inputs. -/
def plainTokens (tokens : List Token) (_ : List String) (_ : List PlaceholderRange) : List Token :=
  tokens

theorem length_plainTokens (tokens : List Token) (hashes : List String)
    (positions : List PlaceholderRange) :
    (plainTokens tokens hashes positions).length = tokens.length := rfl

/-- The least multiple of the chunk size above the saved tokens. -/
def chunkBoundary (numSavedTokens chunkSize : Nat) : Nat :=
  (numSavedTokens + 1 + chunkSize - 1) / chunkSize * chunkSize

/-- Whether `lmcache.skip_save` is set in the request's own configuration. -/
def requestSkip (tracker : RequestTracker Token) : Bool :=
  ((tracker.requestConfigs.getD []).lookup "lmcache.skip_save").any ConfigValue.truthy

/-- Whether this round saves nothing. A disaggregated request always saves. -/
def skipSave (config : ConnectorConfig Token) (tracker : RequestTracker Token) : Bool :=
  tracker.disaggSpec.isNone &&
    (tracker.skipSave ||
      (decide (0 < tracker.numSavedTokens) &&
        decide (tracker.tokenIds.length <
          chunkBoundary tracker.numSavedTokens config.chunkSize)) ||
      (tracker.isDecodePhase && !config.saveDecodeCache) ||
      requestSkip tracker)

def isLastPrefill (tracker : RequestTracker Token) : Bool :=
  tracker.promptLen ≤ tracker.tokenIds.length

/-- The tokens that the metadata keeps: all of them in the last prefill when
partial chunks are saved, whole chunks otherwise. -/
def numTokensToSave (config : ConnectorConfig Token) (tracker : RequestTracker Token) : Nat :=
  if !isLastPrefill tracker || config.discardPartialChunks then
    tracker.tokenIds.length / config.chunkSize * config.chunkSize
  else tracker.tokenIds.length

/-- The kept tokens, with the multimodal hashes applied. -/
def metaTokenIds (config : ConnectorConfig Token) (tracker : RequestTracker Token) :
    Except ConnectorError (List Token) :=
  let tokenIds := tracker.tokenIds.take (numTokensToSave config tracker)
  match tracker.mmHashes with
  | none | some [] => .ok tokenIds
  | some hashes =>
      match tracker.mmPositions with
      | none => .error .mmHashesWithoutPositions
      | some positions => .ok (config.applyMmHashes tokenIds hashes positions)

/-- The slots of the allocated blocks, block by block. -/
def blockSlots (blockSize : Nat) (allocatedBlockIds : List Nat) : List Nat :=
  allocatedBlockIds.flatMap fun block =>
    (List.range blockSize).map fun offset => offset + block * blockSize

/-- `ReqMeta.from_request_tracker`: the metadata, if the request loads or saves
anything, and the tracker with its count of saved tokens moved on. -/
def fromRequestTracker (config : ConnectorConfig Token) (tracker : RequestTracker Token)
    (loadSpec : Option LoadSpec) :
    Except ConnectorError (Option (ReqMeta Token) × RequestTracker Token) :=
  if skipSave config tracker && loadSpec.isNone then .ok (none, tracker)
  else do
    let tokenIds ← metaTokenIds config tracker
    let saved :=
      if skipSave config tracker then tracker
      else { tracker with numSavedTokens := numTokensToSave config tracker }
    return (some
      { reqId := tracker.reqId
        tokenIds := tokenIds
        slotMapping :=
          (blockSlots config.blockSize tracker.allocatedBlockIds).take tokenIds.length
        isLastPrefill := isLastPrefill tracker
        saveSpec := some ⟨tracker.numSavedTokens, !skipSave config tracker⟩
        loadSpec := loadSpec
        disaggSpec := tracker.disaggSpec
        requestConfigs := tracker.requestConfigs }, saved)

/-! ### What the metadata says about tokens and slots -/

/-- The saved tokens stay short of the boundary, by at most one chunk. -/
theorem chunkBoundary_bounds (numSavedTokens : Nat) {chunkSize : Nat} (positive : 0 < chunkSize) :
    numSavedTokens < chunkBoundary numSavedTokens chunkSize ∧
      chunkBoundary numSavedTokens chunkSize ≤ numSavedTokens + chunkSize := by
  unfold chunkBoundary
  have whole := Nat.div_add_mod (numSavedTokens + 1 + chunkSize - 1) chunkSize
  have rest := Nat.mod_lt (numSavedTokens + 1 + chunkSize - 1) positive
  rw [Nat.mul_comm] at whole
  omega

theorem numTokensToSave_le (config : ConnectorConfig Token) (tracker : RequestTracker Token) :
    numTokensToSave config tracker ≤ tracker.tokenIds.length := by
  unfold numTokensToSave
  split
  · exact Nat.div_mul_le_self _ _
  · exact le_rfl

theorem length_metaTokenIds {config : ConnectorConfig Token} {tracker : RequestTracker Token}
    {tokenIds : List Token} (kept : metaTokenIds config tracker = .ok tokenIds) :
    tokenIds.length = numTokensToSave config tracker := by
  have short := numTokensToSave_le config tracker
  unfold metaTokenIds at kept
  split at kept
  · cases kept
    exact List.length_take_of_le short
  · cases kept
    exact List.length_take_of_le short
  · split at kept
    · cases kept
    · cases kept
      rw [config.length_applyMmHashes]
      exact List.length_take_of_le short

theorem length_blockSlots (blockSize : Nat) (allocatedBlockIds : List Nat) :
    (blockSlots blockSize allocatedBlockIds).length = allocatedBlockIds.length * blockSize := by
  simp [blockSlots]

/-- Slot number `token` of the mapping lies in the block allocated for that token. -/
theorem getElem?_blockSlots {blockSize : Nat} (positive : 0 < blockSize)
    (allocatedBlockIds : List Nat) (token : Nat) :
    (blockSlots blockSize allocatedBlockIds)[token]? =
      (allocatedBlockIds[token / blockSize]?).map fun block =>
        token % blockSize + block * blockSize := by
  induction allocatedBlockIds generalizing token with
  | nil => simp [blockSlots]
  | cons block blocks ih =>
      simp only [blockSlots, List.flatMap_cons] at ih ⊢
      by_cases inside : token < blockSize
      · rw [List.getElem?_append_left (by simpa using inside), Nat.div_eq_of_lt inside,
          Nat.mod_eq_of_lt inside]
        simp [inside]
      · have reached : blockSize ≤ token := Nat.le_of_not_lt inside
        rw [List.getElem?_append_right (by simpa using reached)]
        simp only [List.length_map, List.length_range]
        rw [ih (token - blockSize), Nat.div_eq_sub_div positive reached,
          List.getElem?_cons_succ, Nat.mod_eq_sub_mod reached]

/-- The fields of the metadata, whenever there is one. -/
theorem fromRequestTracker_some {config : ConnectorConfig Token}
    {tracker after : RequestTracker Token} {loadSpec : Option LoadSpec} {request : ReqMeta Token}
    (built : fromRequestTracker config tracker loadSpec = .ok (some request, after)) :
    request.loadSpec = loadSpec ∧
      request.tokenIds.length = numTokensToSave config tracker ∧
      request.slotMapping = (blockSlots config.blockSize tracker.allocatedBlockIds).take
        (numTokensToSave config tracker) := by
  unfold fromRequestTracker at built
  split at built
  · cases built
  · cases kept : metaTokenIds config tracker with
    | error _ =>
        rw [kept] at built
        cases built
    | ok tokenIds =>
        rw [kept] at built
        cases built
        have long := length_metaTokenIds kept
        exact ⟨rfl, long, by rw [long]⟩

end LMCacheHcu.Connector
