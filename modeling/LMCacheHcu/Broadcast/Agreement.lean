import LMCacheHcu.Broadcast.FirstRank
import LMCacheHcu.Engine.RetrieveGuarantees
import LMCacheHcu.Prefetch.AsyncRetrieve

/-! # Ranks in step, with one result

The passive ranks stay in step with the first rank when they have its health and
its token processing returns. They hold its chunks then; they have its mask when
the mask marks exactly the tokens of these chunks.
-/

namespace LMCacheHcu.Broadcast

open LMCacheHcu.Engine LMCacheHcu.Collective

variable {Metadata Dict Key Failure : Type} {format : MetadataFormat Metadata Dict}

/-- A rank that reports retrieved tokens. -/
def Reports (outcome : RankOutcome) : Prop := ∃ result, outcome = .ok result ∧ true ∈ result.retMask

/-- All ranks that report retrieved tokens hold the same mask and chunks. -/
def Agree (outcomes : List RankOutcome) : Prop :=
  ∀ left ∈ outcomes, ∀ right ∈ outcomes, Reports left → Reports right → left = right

/-- **The property.** However the ranks proceed, every broadcast of the first
rank is received by every passive rank, no rank is left waiting, and the results
agree. The list has the health of each passive rank. -/
def BroadcastsMatch (first : FirstRank format Key Failure) (numTokens : ℕ) (passive : List Bool) :
    Prop :=
  ∃ outcomes, InStep first.broadcasts (passive.map (passiveRetrieve format numTokens)) outcomes ∧
    Agree (first.outcome numTokens :: outcomes)

/-- The mask of the token processing marks the tokens of its chunks, unless one of
the two marks nothing. -/
def MasksAgree {Obj : Type} (numTokens : ℕ) (processed : Processed Key Obj) : Prop :=
  true ∈ processed.retMask →
    true ∈ markChunks (List.replicate numTokens false) processed.reorderedChunks →
      processed.retMask = markChunks (List.replicate numTokens false) processed.reorderedChunks

/-- The first rank gets to its broadcasts. -/
def FirstRank.sends (first : FirstRank format Key Failure) : Bool :=
  first.healthy && first.processing.isOk

/-- The condition: the passive ranks are healthy exactly when the first rank gets
to its broadcasts, and the masks agree then. -/
structure RanksAlike (first : FirstRank format Key Failure) (numTokens : ℕ)
    (passive : List Bool) : Prop where
  health : ∀ healthy ∈ passive, healthy = first.sends
  masks : passive ≠ [] → first.healthy = true → ∀ processed, first.processing = .ok processed →
    MasksAgree numTokens processed

/-! ### One passive rank -/

theorem consume_passive_unhealthy (numTokens : ℕ) :
    (passiveRetrieve format numTokens false).consume [] =
      some (.ok ⟨List.replicate numTokens false, []⟩) := rfl

theorem not_reports_replicate (numTokens : ℕ) (chunks : List (ℕ × ℕ × List UInt8)) :
    ¬ Reports (.ok ⟨List.replicate numTokens false, chunks⟩) := by
  rintro ⟨result, same, marked⟩
  obtain rfl := Except.ok.inj same
  exact absurd (List.eq_of_mem_replicate marked) (by decide)

/-- What a passive rank has when it is in step. -/
def passiveOutcome (first : FirstRank format Key Failure) (numTokens : ℕ) : RankOutcome :=
  match first.healthy, first.processing with
  | true, .ok processed =>
      .ok ⟨markChunks (List.replicate numTokens false) processed.reorderedChunks,
        processed.reorderedChunks.map heldChunk⟩
  | _, _ => .ok ⟨List.replicate numTokens false, []⟩

/-- A passive rank stays in step with a first rank that broadcasts if it is
healthy, and with one that does not if it is not. -/
theorem consume_passive (first : FirstRank format Key Failure) (numTokens : ℕ) (healthy : Bool) :
    (passiveRetrieve format numTokens healthy).consume first.broadcasts =
      if healthy = first.sends then some (passiveOutcome first numTokens) else none := by
  obtain ⟨firstHealthy, processing⟩ := first
  cases firstHealthy with
  | false =>
      cases healthy with
      | false => rfl
      | true => rfl
  | true =>
      cases processing with
      | error failure =>
          cases healthy with
          | false => rfl
          | true => rfl
      | ok processed =>
          cases healthy with
          | false => rfl
          | true =>
              simp only [FirstRank.broadcasts, passiveRetrieve, ↓reduceIte,
                consume_receiveMemoryObjs]
              rfl

/-! ### All ranks -/

theorem agree_iff {first : RankOutcome} {other : RankOutcome} {outcomes : List RankOutcome}
    (nonempty : outcomes ≠ []) (same : ∀ outcome ∈ outcomes, outcome = other) :
    Agree (first :: outcomes) ↔ (Reports first → Reports other → first = other) := by
  constructor
  · intro agree reports reported
    obtain ⟨outcome, member⟩ := List.exists_mem_of_ne_nil outcomes nonempty
    obtain rfl := same outcome member
    exact agree first (List.mem_cons_self ..) outcome (List.mem_cons_of_mem _ member) reports
      reported
  · intro agree left leftMember right rightMember leftReports rightReports
    rcases List.mem_cons.mp leftMember with rfl | leftLater <;>
      rcases List.mem_cons.mp rightMember with rfl | rightLater
    · rfl
    · rw [same right rightLater] at rightReports ⊢
      exact agree leftReports rightReports
    · rw [same left leftLater] at leftReports ⊢
      exact (agree rightReports leftReports).symm
    · rw [same left leftLater, same right rightLater]

/-- The first rank and a passive rank in step agree when their masks do. -/
theorem firstRank_agrees_iff (first : FirstRank format Key Failure) (numTokens : ℕ) :
    (Reports (first.outcome numTokens) → Reports (passiveOutcome first numTokens) →
        first.outcome numTokens = passiveOutcome first numTokens) ↔
      (first.healthy = true → ∀ processed, first.processing = .ok processed →
        MasksAgree numTokens processed) := by
  obtain ⟨healthy, processing⟩ := first
  have silent := not_reports_replicate numTokens []
  cases healthy with
  | false =>
      simp only [FirstRank.outcome, Bool.false_eq_true, ↓reduceIte, false_implies, iff_true]
      exact fun reports => absurd reports silent
  | true =>
      cases processing with
      | error failure =>
          simp only [FirstRank.outcome, passiveOutcome, ↓reduceIte, reduceCtorEq, false_implies,
            implies_true, iff_true]
          exact fun _ reports => absurd reports silent
      | ok processed =>
          simp only [FirstRank.outcome, passiveOutcome, ↓reduceIte, Except.ok.injEq, forall_eq',
            forall_const, MasksAgree, Reports, exists_eq_left', RankResult.mk.injEq, and_true]

variable {first : FirstRank format Key Failure} {numTokens : ℕ} {passive : List Bool}

theorem BroadcastsMatch.ranksAlike (broadcast : BroadcastsMatch first numTokens passive) :
    RanksAlike first numTokens passive := by
  obtain ⟨outcomes, inStep, agree⟩ := broadcast
  rw [inStep_iff, List.map_map] at inStep
  have each (healthy : Bool) (member : healthy ∈ passive) :
      healthy = first.sends ∧ passiveOutcome first numTokens ∈ outcomes := by
    have paired := List.mem_map_of_mem
      (f := (fun receiver => receiver.consume first.broadcasts) ∘ passiveRetrieve format numTokens)
      member
    rw [inStep, Function.comp_apply, consume_passive] at paired
    obtain ⟨outcome, present, same⟩ := List.mem_map.mp paired
    split at same
    · rename_i alike
      exact ⟨alike, Option.some.inj same ▸ present⟩
    · cases same
  refine ⟨fun healthy member => (each healthy member).1, fun nonempty => ?_⟩
  obtain ⟨healthy, member⟩ := List.exists_mem_of_ne_nil passive nonempty
  rw [← firstRank_agrees_iff]
  exact agree _ (List.mem_cons_self ..) _ (List.mem_cons_of_mem _ (each healthy member).2)

theorem RanksAlike.broadcastsMatch (alike : RanksAlike first numTokens passive) :
    BroadcastsMatch first numTokens passive := by
  refine ⟨passive.map fun _ => passiveOutcome first numTokens, ?_, ?_⟩
  · rw [inStep_iff, List.map_map, List.map_map]
    refine List.map_congr_left fun healthy member => ?_
    rw [Function.comp_apply, consume_passive, if_pos (alike.health healthy member)]
    rfl
  · by_cases alone : passive = []
    · subst alone
      intro left leftMember right rightMember _ _
      rw [List.mem_singleton.mp leftMember, List.mem_singleton.mp rightMember]
    · have same (outcome : RankOutcome)
          (member : outcome ∈ passive.map fun _ => passiveOutcome first numTokens) :
          outcome = passiveOutcome first numTokens := by
        obtain ⟨_, _, rfl⟩ := List.mem_map.mp member
        rfl
      rw [agree_iff (by simpa using alone) same, firstRank_agrees_iff]
      exact alike.masks alone

/-- **The broadcast matches** exactly when the ranks are alike. -/
theorem broadcastsMatch_iff (first : FirstRank format Key Failure) (numTokens : ℕ)
    (passive : List Bool) :
    BroadcastsMatch first numTokens passive ↔ RanksAlike first numTokens passive :=
  ⟨BroadcastsMatch.ranksAlike, RanksAlike.broadcastsMatch⟩

/-! ### Masks of the token processing -/

theorem markChunks_true_iff {Obj : Type} (mask : List Bool) (chunks : List (ProcessedChunk Key Obj))
    (token : ℕ) :
    (markChunks mask chunks)[token]? = some true ↔ mask[token]? = some true ∨
      token < mask.length ∧ ∃ chunk ∈ chunks, chunk.start ≤ token ∧ token < chunk.stop := by
  induction chunks generalizing mask with
  | nil => simp [markChunks]
  | cons chunk chunks ih =>
      change (markChunks (RangeMask.fillRange mask chunk.start chunk.stop true)
        chunks)[token]? = some true ↔ _
      rw [ih, RangeMask.fillRange_true_iff, RangeMask.length_fillRange]
      have inside : mask[token]? = some true → token < mask.length := fun marked =>
        (List.getElem?_eq_some_iff.mp marked).1
      simp only [List.mem_cons, exists_eq_or_imp]
      tauto

theorem length_markChunks {Obj : Type} (mask : List Bool)
    (chunks : List (ProcessedChunk Key Obj)) : (markChunks mask chunks).length = mask.length := by
  induction chunks generalizing mask with
  | nil => rfl
  | cons chunk chunks ih => exact (ih _).trans (RangeMask.length_fillRange ..)

section Async

open Prefetch

variable {Obj : Type} [DecidableEq Key] (sizes : KvSizes Obj) (future : Option (Future Key Obj))
  (numTokens : ℕ) (tokenChunks : Except RetrieveError (List (ChunkInfo Key)))

/-- The token processing of the first rank with async loading. -/
def asyncProcessing : Except RetrieveError (Processed Key Obj) :=
  (asyncProcessTokensInternal sizes future numTokens tokenChunks).map fun processed =>
    ⟨processed.retMask, processed.chunks⟩

theorem takeDelivered_retMask (map : AList fun _ : Key => Obj) (chunks : List (ChunkInfo Key))
    {mask : List Bool} {progress : AsyncProgress Key Obj}
    (marked : progress.retMask = markChunks mask progress.chunks) :
    (takeDelivered sizes map chunks progress).retMask =
      markChunks mask (takeDelivered sizes map chunks progress).chunks := by
  induction chunks generalizing progress with
  | nil => exact marked
  | cons chunk chunks ih =>
      rw [takeDelivered]
      split
      · exact marked
      · apply ih
        change RangeMask.fillRange progress.retMask chunk.start chunk.stop true = _
        rw [marked, markChunks, markChunks, List.foldl_append]
        rfl

/-- With async loading the mask marks exactly the tokens of the chunks. -/
theorem retMask_asyncProcessing {processed : Processed Key Obj}
    (returned : asyncProcessing sizes future numTokens tokenChunks = .ok processed) :
    processed.retMask = markChunks (List.replicate numTokens false) processed.reorderedChunks := by
  unfold asyncProcessing asyncProcessTokensInternal at returned
  cases future with
  | none =>
      obtain rfl := Except.ok.inj returned
      rfl
  | some keyedMemoryObjs =>
      simp only at returned
      cases keyed : memoryObjMap keyedMemoryObjs.flatten (∅ : AList fun _ : Key => Obj) with
      | error failure =>
          rw [keyed] at returned
          cases returned
      | ok map =>
          rw [keyed] at returned
          cases tokenChunks with
          | error failure => cases returned
          | ok chunkInfos =>
              obtain rfl := Except.ok.inj returned
              exact takeDelivered_retMask sizes map chunkInfos rfl

end Async

/-- **With async loading** the broadcast matches whenever the passive ranks are
healthy exactly when the first rank gets to it. -/
theorem broadcastsMatch_async_iff [DecidableEq Key] (healthy : Bool)
    (sizes : KvSizes (MemoryObj format)) (future : Option (Prefetch.Future Key (MemoryObj format)))
    (numTokens : ℕ) (tokenChunks : Except Prefetch.RetrieveError (List (ChunkInfo Key)))
    (passive : List Bool) :
    BroadcastsMatch ⟨healthy, asyncProcessing sizes future numTokens tokenChunks⟩ numTokens
        passive ↔
      ∀ other ∈ passive,
        other = (healthy && (asyncProcessing sizes future numTokens tokenChunks).isOk) := by
  constructor
  · exact fun broadcast => broadcast.ranksAlike.health
  · intro health
    have alike : RanksAlike ⟨healthy, asyncProcessing sizes future numTokens tokenChunks⟩ numTokens
        passive :=
      ⟨health, fun _ _ processed returned _ _ =>
        retMask_asyncProcessing sizes future numTokens tokenChunks returned⟩
    exact alike.broadcastsMatch

section Sync

variable {Location Obj : Type} (sizes : KvSizes Obj) (manager : StorageManager Location Key Obj)

/-- The token processing of the first rank with synchronous loading. -/
def syncProcessing (lookupPins : Option (List Location))
    (backends : List (Location × (List Key → Nat))) (request : RequestChunks Key) :
    Except ProcessError (Processed Key Obj) :=
  (processTokensInternal sizes manager lookupPins backends request).map fun progress =>
    ⟨progress.retMask, progress.reorderedChunks⟩

/-- Every obtained block that starts before the last location's failed block was
loaded into an object, and does not end where the failed one starts. -/
def ServedByChunks (locations : List (BlockOutcomes Key Obj)) : Prop :=
  ∀ entry ∈ locations.flatMap obtained,
    (∀ last ∈ (failures locations).getLast?, entry.1.start < last.start) →
      (∃ memoryObj, entry.2 = .loaded memoryObj) ∧
        ∀ last ∈ (failures locations).getLast?, entry.1.stop < last.start

variable {request : RequestChunks Key} (mapping : BlockMapping Location request)

theorem loadedChunk_some {entry : ChunkInfo Key × Outcome Obj} {chunk : ProcessedChunk Key Obj}
    (loaded : loadedChunk entry = some chunk) :
    entry.2 = .loaded chunk.memoryObj ∧ entry.1.start = chunk.start ∧
      entry.1.stop = chunk.stop := by
  unfold loadedChunk at loaded
  split at loaded
  · rename_i memoryObj here
    obtain rfl := Option.some.inj loaded
    exact ⟨here, rfl, rfl⟩
  · cases loaded

/-- With synchronous loading the mask marks exactly the tokens of the chunks when
the chunks serve every obtained block, and only then. -/
theorem retMask_sync_iff :
    (cutAtFailure (settled sizes manager mapping)).retMask =
        markChunks (List.replicate request.numTokens false)
          (cutAtFailure (settled sizes manager mapping)).reorderedChunks ↔
      ServedByChunks (mapping.locations manager) := by
  have ordered : InOrder ((mapping.locations manager).flatMap obtained) :=
    (mapping.inOrder manager).sublist (obtained_sublist _)
  have marked (token : ℕ) : (markChunks (List.replicate request.numTokens false)
      (cutAtFailure (settled sizes manager mapping)).reorderedChunks)[token]? = some true ↔
        token < request.numTokens ∧ ∃ chunk ∈
          (cutAtFailure (settled sizes manager mapping)).reorderedChunks,
            chunk.start ≤ token ∧ token < chunk.stop := by
    rw [markChunks_true_iff, List.length_replicate]
    simp [RangeMask.replicate_false_not_true]
  constructor
  · intro same entry member before
    have room := ordered.nonempty entry member
    have here := (finalMask_iff sizes manager mapping entry.1.start).mpr
      ⟨⟨entry, member, le_rfl, room⟩, before⟩
    rw [same, marked] at here
    obtain ⟨_, chunk, held, covers⟩ := here
    obtain ⟨loaded, early⟩ := (mem_finalChunks_iff sizes manager mapping chunk).mp held
    obtain ⟨source, obtained, made⟩ := List.mem_filterMap.mp loaded
    obtain ⟨outcome, start, stop⟩ := loadedChunk_some made
    obtain rfl := ordered.eq_of_covers member obtained ⟨le_rfl, room⟩
      (by rw [start, stop]; exact covers)
    exact ⟨⟨chunk.memoryObj, outcome⟩, fun last final => stop ▸ early last final⟩
  · intro served
    apply RangeMask.ext_true
    · rw [length_finalMask, length_markChunks, List.length_replicate]
    · intro token
      rw [marked, finalMask_iff]
      constructor
      · rintro ⟨⟨entry, member, above, below⟩, before⟩
        obtain ⟨⟨memoryObj, loaded⟩, early⟩ := served entry member fun last final =>
          Nat.lt_of_le_of_lt above (before last final)
        have inside := mapping.bounded manager entry ((obtained_sublist _).subset member)
        exact ⟨Nat.lt_of_lt_of_le below inside, _, (mem_finalChunks_iff sizes manager mapping _).mpr
          ⟨mem_loadedChunks member loaded, early⟩, above, below⟩
      · rintro ⟨_, chunk, held, above, below⟩
        obtain ⟨loaded, early⟩ := (mem_finalChunks_iff sizes manager mapping chunk).mp held
        obtain ⟨source, obtained, made⟩ := List.mem_filterMap.mp loaded
        obtain ⟨_, start, stop⟩ := loadedChunk_some made
        exact ⟨⟨source, obtained, start ▸ above, stop ▸ below⟩, fun last final =>
          below.trans (early last final)⟩

end Sync

/-! ### Ranks that are left waiting, and masks that differ -/

/-- Metadata that is the size itself. -/
def sizeFormat : MetadataFormat ℕ ℕ := ⟨id, id, id, fun _ => rfl⟩

/-- Three chunks of four tokens. -/
def threeChunks : RequestChunks ℕ where
  numTokens := 12
  chunkInfos := [⟨0, 0, 4⟩, ⟨1, 4, 8⟩, ⟨2, 8, 12⟩]
  nonempty := by decide
  consecutive := by decide
  bounded := by decide

/-- A location that loses the third chunk. -/
def losesThird : StorageManager Unit ℕ (MemoryObj sizeFormat) where
  supportsDirectIo _ := false
  batchedDirectGet _ blocks := List.replicate blocks.length false
  batchedGet _ keys := keys.map fun key => if key = 2 then none else some ⟨1, [7], rfl⟩
  direct_aligned := length_noDirectGet
  get_aligned _ _ := List.length_map _

/-- A healthy first rank that loads `threeChunks` from it. -/
def losesThirdRank : FirstRank sizeFormat ℕ ProcessError where
  healthy := true
  processing := syncProcessing ⟨id, fun _ => 1⟩ losesThird (some [()]) [] threeChunks

/-- A passive rank waits for an unhealthy first rank, the first rank for an
unhealthy passive one; and after a lost chunk the passive mask is too short. -/
theorem broadcastsMatch_fails :
    ¬ BroadcastsMatch { losesThirdRank with healthy := false } 12 [true] ∧
      ¬ BroadcastsMatch losesThirdRank 12 [true, false] ∧
      ¬ BroadcastsMatch losesThirdRank 12 [true] := by
  refine ⟨fun broadcast => ?_, fun broadcast => ?_, fun broadcast => ?_⟩
  · exact absurd (broadcast.ranksAlike.health true (by decide)) (by decide)
  · exact absurd (broadcast.ranksAlike.health false (by decide)) (by decide)
  · have masks := broadcast.ranksAlike.masks (by decide) rfl
      ⟨List.replicate 8 true ++ List.replicate 4 false, [⟨0, ⟨1, [7], rfl⟩, 0, 4⟩]⟩ rfl
    exact absurd (masks (by decide) (by decide)) (by decide)

end LMCacheHcu.Broadcast
