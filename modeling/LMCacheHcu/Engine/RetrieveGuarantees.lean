import LMCacheHcu.Engine.ChunkOutcomes
import Mathlib.Data.List.TakeWhile

/-! # What a synchronous retrieve promises, and when

A retrieve should mark exactly the run of chunks before the earliest failure,
mark no chunk whose data it did not obtain, and drop every reference it was
given. The code keeps the start of one failed block only, the last one, and
filters the obtained chunks strictly against it. The two results below say for
which answers of the locations this is enough.
-/

namespace LMCacheHcu.Engine

variable {Location Key Obj : Type}

/-- An ordered assignment of a prefix of the requested chunks to locations. -/
structure BlockMapping (Location : Type) {Key : Type} (request : RequestChunks Key) where
  entries : List (Location × List (ChunkInfo Key))
  covers : entries.flatMap Prod.snd <+: request.chunkInfos

namespace BlockMapping

variable {request : RequestChunks Key} (mapping : BlockMapping Location request)
  (manager : StorageManager Location Key Obj)

/-- The outcomes of the mapped blocks, location by location. -/
def locations : List (BlockOutcomes Key Obj) := mapping.entries.map (locationOutcomes manager)

/-- The outcomes of the mapped blocks in request order. -/
def outcomes : BlockOutcomes Key Obj := (mapping.locations manager).flatten

/-- The memory objects that the fallback reads of a retrieve return. -/
def fetchedObjs : List Obj :=
  mapping.entries.flatMap fun entry => (fallbackMemoryObjs manager entry.1 entry.2).filterMap id

end BlockMapping

theorem mapBlocks_prefix (chunkInfos : List (ChunkInfo Key))
    (backends : List (Location × (List Key → Nat))) (keys : List Key) (totalHitChunks : Nat) :
    (mapBlocks chunkInfos backends keys totalHitChunks).flatMap Prod.snd <+:
      chunkInfos.drop totalHitChunks := by
  induction backends generalizing keys totalHitChunks with
  | nil => exact List.nil_prefix
  | cons backend backends ih =>
      obtain ⟨name, batchedContains⟩ := backend
      simp only [mapBlocks]
      split
      · exact ih keys totalHitChunks
      · rw [List.flatMap_cons]
        conv_rhs =>
          rw [← List.take_append_drop (batchedContains keys) (chunkInfos.drop totalHitChunks),
            List.drop_drop]
        rw [List.prefix_append_right_inj]
        split
        · exact List.nil_prefix
        · exact ih _ _

/-- The mapping that a retrieve selects, from the lookup's pins or from the
backends, assigns a prefix of the request. -/
def BlockMapping.select (lookupPins : Option (List Location))
    (backends : List (Location × (List Key → Nat))) (request : RequestChunks Key) :
    BlockMapping Location request where
  entries := selectBlockMapping lookupPins backends request.chunkInfos
  covers := by
    have matched : (getBlockMapping backends request.chunkInfos).flatMap Prod.snd <+:
        request.chunkInfos := mapBlocks_prefix request.chunkInfos backends _ 0
    unfold selectBlockMapping
    split
    · simp
    · exact matched

/-- A healthy retrieve is its token processing on the selected mapping. -/
theorem retrieve_healthy (removeAfterRetrieve : Bool) (sizes : KvSizes Obj)
    (manager : StorageManager Location Key Obj) (lookupPins : Option (List Location))
    (backends : List (Location × (List Key → Nat))) (request : RequestChunks Key) :
    retrieve true removeAfterRetrieve sizes manager lookupPins backends request =
      (processBlocks sizes manager request.numTokens
        (BlockMapping.select lookupPins backends request).entries).map
          (finishRetrieve removeAfterRetrieve) := by
  unfold retrieve processTokensInternal BlockMapping.select
  cases processBlocks sizes manager request.numTokens
    (selectBlockMapping lookupPins backends request.chunkInfos) <;> rfl

/-- A list of block outcomes in request order: nonempty ranges, each ending
before the next one starts. -/
structure InOrder (outcomes : BlockOutcomes Key Obj) : Prop where
  nonempty : ∀ entry ∈ outcomes, entry.1.start < entry.1.stop
  apart : outcomes.Pairwise fun before after => before.1.stop ≤ after.1.start

/-- Every token marked in the returned mask belongs to a block whose data was
obtained, and the marked tokens are the blocks before the earliest failure. -/
structure MaskExact (outcomes : BlockOutcomes Key Obj) (progress : Progress Key Obj) : Prop where
  backed : ∀ token, progress.retMask[token]? = some true →
    ∃ entry ∈ outcomes, (entry.1.start ≤ token ∧ token < entry.1.stop) ∧
      (entry.2 = .direct ∨ ∃ memoryObj, entry.2 = .loaded memoryObj ∧
        ⟨entry.1.key, memoryObj, entry.1.start, entry.1.stop⟩ ∈ progress.reorderedChunks)
  run : ∀ token, progress.retMask[token]? = some true ↔
    ∃ entry ∈ outcomes.takeWhile fun entry => entry.2.found,
      entry.1.start ≤ token ∧ token < entry.1.stop

/-- No block was obtained between the first failed block and the last
location's failed block, and the block that ends where the latter starts was
not loaded by the fallback. -/
def FailuresAdjacent (locations : List (BlockOutcomes Key Obj)) : Prop :=
  ∀ first ∈ (failures locations).head?, ∀ last ∈ (failures locations).getLast?,
    ∀ entry ∈ locations.flatMap obtained,
      (first.start < entry.1.start → last.start < entry.1.start) ∧
        (entry.1.stop = last.start → entry.2 = .direct)

/-- Every block loaded by the fallback ends strictly before the last
location's failed block. -/
def LoadedBeforeFailure (locations : List (BlockOutcomes Key Obj)) : Prop :=
  ∀ last ∈ (failures locations).getLast?, ∀ entry ∈ locations.flatMap obtained,
    ∀ memoryObj, entry.2 = .loaded memoryObj → entry.1.stop < last.start

/-- Two chunks of four tokens. -/
def twoChunks : RequestChunks Nat where
  numTokens := 8
  chunkInfos := [⟨0, 0, 4⟩, ⟨1, 4, 8⟩]
  nonempty := by decide
  consecutive := by decide
  bounded := by decide

/-- A staged location that finds the first chunk and loses the second. -/
def losesSecond : StorageManager Unit Nat Nat where
  supportsDirectIo _ := false
  batchedDirectGet _ blocks := List.replicate blocks.length false
  batchedGet _ keys := keys.map fun key => if key = 0 then some 7 else none
  direct_aligned := length_noDirectGet
  get_aligned _ _ := List.length_map _

def twoChunksMapping : BlockMapping Unit twoChunks where
  entries := [((), twoChunks.chunkInfos)]
  covers := by simp

/-- The mask of `losesSecond` on `twoChunks`: four tokens marked, nothing kept
for the copy and nothing released. -/
theorem twoChunks_progress :
    processBlocks ⟨id, id⟩ losesSecond twoChunks.numTokens twoChunksMapping.entries =
      .ok ⟨[true, true, true, true, false, false, false, false], [], 7, some 4, []⟩ := by
  decide

/-! ### Order -/

theorem RequestChunks.pairwise_apart (request : RequestChunks Key) :
    request.chunkInfos.Pairwise fun before after => before.stop ≤ after.start := by
  obtain ⟨_, chunks, nonempty, consecutive, bounded⟩ := request
  change chunks.Pairwise fun before after => before.stop ≤ after.start
  clear bounded
  induction chunks with
  | nil => exact List.Pairwise.nil
  | cons head tail ih =>
      have tailPairwise := ih (fun chunk member => nonempty chunk (List.mem_cons_of_mem _ member))
        consecutive.tail
      refine List.Pairwise.cons ?_ tailPairwise
      intro chunk member
      cases tail with
      | nil => exact (List.not_mem_nil member).elim
      | cons next rest =>
          have joined : head.stop = next.start := consecutive.rel
          rcases List.mem_cons.mp member with rfl | later
          · exact joined.le
          · have ordered := (List.pairwise_cons.mp tailPairwise).1 chunk later
            have room := nonempty next (List.mem_cons_of_mem _ (List.mem_cons_self ..))
            omega

theorem BlockMapping.outcomes_chunks {request : RequestChunks Key}
    (mapping : BlockMapping Location request) (manager : StorageManager Location Key Obj) :
    (mapping.outcomes manager).map Prod.fst = mapping.entries.flatMap Prod.snd := by
  unfold BlockMapping.outcomes BlockMapping.locations
  induction mapping.entries with
  | nil => rfl
  | cons entry entries ih =>
      rw [List.map_cons, List.flatten_cons, List.map_append, List.flatMap_cons, ih,
        locationOutcomes_chunks]

theorem BlockMapping.inOrder {request : RequestChunks Key}
    (mapping : BlockMapping Location request) (manager : StorageManager Location Key Obj) :
    InOrder (mapping.outcomes manager) where
  nonempty entry member := by
    apply request.nonempty
    apply mapping.covers.subset
    rw [← mapping.outcomes_chunks manager]
    exact List.mem_map_of_mem member
  apart := by
    have ordered := request.pairwise_apart.sublist mapping.covers.sublist
    rw [← mapping.outcomes_chunks manager, List.pairwise_map] at ordered
    exact ordered

theorem BlockMapping.bounded {request : RequestChunks Key}
    (mapping : BlockMapping Location request) (manager : StorageManager Location Key Obj) :
    ∀ entry ∈ mapping.outcomes manager, entry.1.stop ≤ request.numTokens := by
  intro entry member
  apply request.bounded
  apply mapping.covers.subset
  rw [← mapping.outcomes_chunks manager]
  exact List.mem_map_of_mem member

namespace InOrder

variable {outcomes : BlockOutcomes Key Obj}

theorem sublist {smaller : BlockOutcomes Key Obj} (ordered : InOrder outcomes)
    (kept : smaller.Sublist outcomes) : InOrder smaller :=
  ⟨fun entry member => ordered.nonempty entry (kept.subset member), ordered.apart.sublist kept⟩

/-- Two entries are the same or their ranges follow one another. -/
theorem eq_or_apart (ordered : InOrder outcomes) {left right : ChunkInfo Key × Outcome Obj}
    (leftMember : left ∈ outcomes) (rightMember : right ∈ outcomes) :
    left = right ∨ left.1.stop ≤ right.1.start ∨ right.1.stop ≤ left.1.start := by
  have apart := ordered.apart
  clear ordered
  induction outcomes with
  | nil => exact (List.not_mem_nil leftMember).elim
  | cons head tail ih =>
      rw [List.pairwise_cons] at apart
      rcases List.mem_cons.mp leftMember with rfl | leftTail
      · rcases List.mem_cons.mp rightMember with rfl | rightTail
        · exact Or.inl rfl
        · exact Or.inr (Or.inl (apart.1 right rightTail))
      · rcases List.mem_cons.mp rightMember with rfl | rightTail
        · exact Or.inr (Or.inr (apart.1 left leftTail))
        · exact ih leftTail rightTail apart.2

/-- At most one entry covers a token. -/
theorem eq_of_covers (ordered : InOrder outcomes) {left right : ChunkInfo Key × Outcome Obj}
    (leftMember : left ∈ outcomes) (rightMember : right ∈ outcomes) {token : Nat}
    (leftCovers : left.1.start ≤ token ∧ token < left.1.stop)
    (rightCovers : right.1.start ≤ token ∧ token < right.1.stop) : left = right := by
  rcases ordered.eq_or_apart leftMember rightMember with same | before | after
  · exact same
  · omega
  · omega

end InOrder

/-! ### Failed and obtained blocks -/

theorem obtained_sublist (locations : List (BlockOutcomes Key Obj)) :
    (locations.flatMap obtained).Sublist locations.flatten := by
  induction locations with
  | nil => exact List.Sublist.refl _
  | cons outcomes locations ih =>
      rw [List.flatMap_cons, List.flatten_cons]
      exact (List.takeWhile_sublist _).append ih

theorem found_of_mem {outcomes : BlockOutcomes Key Obj} {entry : ChunkInfo Key × Outcome Obj}
    (member : entry ∈ obtained outcomes) : entry.2.found = true :=
  List.mem_takeWhile_imp (p := fun entry : ChunkInfo Key × Outcome Obj => entry.2.found) member

theorem found_of_mem_obtained {locations : List (BlockOutcomes Key Obj)}
    {entry : ChunkInfo Key × Outcome Obj} (member : entry ∈ locations.flatMap obtained) :
    entry.2.found = true := by
  obtain ⟨outcomes, _, inside⟩ := List.mem_flatMap.mp member
  exact found_of_mem inside

/-- A location with a missing block is its obtained blocks, that block, and a rest. -/
theorem eq_obtained_append {outcomes : BlockOutcomes Key Obj} {chunk : ChunkInfo Key}
    (missing : firstMissing outcomes = some chunk) :
    ∃ tail, outcomes = obtained outcomes ++ (chunk, .missing) :: tail := by
  unfold firstMissing unread at missing
  obtain ⟨head, atHead, rfl⟩ := Option.map_eq_some_iff.mp missing
  obtain ⟨tail, split⟩ := List.head?_eq_some_iff.mp atHead
  have notFound : head.2.found = false := by
    have stopped := List.head?_dropWhile_not (fun entry => entry.2.found) outcomes
    rw [atHead] at stopped
    simpa using stopped
  have lost : head = (head.1, .missing) := by
    obtain ⟨chunk, outcome⟩ := head
    cases outcome with
    | missing => rfl
    | direct => simp at notFound
    | loaded memoryObj => simp at notFound
  refine ⟨tail, ?_⟩
  rw [← lost, ← split]
  exact List.takeWhile_append_dropWhile.symm

theorem obtained_eq_self {outcomes : BlockOutcomes Key Obj}
    (missing : firstMissing outcomes = none) : obtained outcomes = outcomes := by
  unfold firstMissing unread at missing
  rw [Option.map_eq_none_iff, List.head?_eq_none_iff] at missing
  have split := List.takeWhile_append_dropWhile (p := fun entry => entry.2.found) (l := outcomes)
  rwa [missing, List.append_nil] at split

theorem failures_mem {locations : List (BlockOutcomes Key Obj)} {chunk : ChunkInfo Key}
    (member : chunk ∈ failures locations) : (chunk, .missing) ∈ locations.flatten := by
  obtain ⟨outcomes, inside, missing⟩ := List.mem_filterMap.mp member
  obtain ⟨tail, split⟩ := eq_obtained_append missing
  refine List.mem_flatten.mpr ⟨outcomes, inside, ?_⟩
  rw [split]
  exact List.mem_append_right _ (List.mem_cons_self ..)

theorem failures_sublist (locations : List (BlockOutcomes Key Obj)) :
    (failures locations).Sublist (locations.flatten.map Prod.fst) := by
  induction locations with
  | nil => exact List.Sublist.refl _
  | cons outcomes locations ih =>
      rw [List.flatten_cons, List.map_append]
      cases missing : firstMissing outcomes with
      | none =>
          simp only [failures, List.filterMap_cons, missing]
          exact ih.trans (List.sublist_append_right _ _)
      | some chunk =>
          simp only [failures, List.filterMap_cons, missing]
          obtain ⟨tail, split⟩ := eq_obtained_append missing
          have here : [chunk].Sublist (outcomes.map Prod.fst) := by
            rw [List.singleton_sublist, split, List.map_append]
            exact List.mem_append_right _ (List.mem_cons_self ..)
          exact here.append ih

theorem failures_increasing {locations : List (BlockOutcomes Key Obj)}
    (ordered : InOrder locations.flatten) :
    ((failures locations).map ChunkInfo.start).Pairwise (· < ·) := by
  rw [List.pairwise_map]
  have strict : (locations.flatten.map Prod.fst).Pairwise fun before after =>
      before.start < after.start := by
    rw [List.pairwise_map]
    apply ordered.apart.imp_of_mem
    intro before after beforeMember _ apart
    exact (ordered.nonempty before beforeMember).trans_le apart
  exact strict.sublist (failures_sublist locations)

/-- An obtained block lies wholly on one side of a failed one. -/
theorem obtained_beside_failure {locations : List (BlockOutcomes Key Obj)}
    (ordered : InOrder locations.flatten) {entry : ChunkInfo Key × Outcome Obj}
    (member : entry ∈ locations.flatMap obtained) {failed : ChunkInfo Key}
    (failure : failed ∈ failures locations) :
    entry.1.stop ≤ failed.start ∨ failed.stop ≤ entry.1.start := by
  have inside := (obtained_sublist locations).subset member
  rcases ordered.eq_or_apart inside (failures_mem failure) with same | apart
  · have found := found_of_mem_obtained member
    rw [same] at found
    simp at found
  · exact apart

/-- The run before the earliest failure is what was obtained before it. -/
theorem mem_run_iff {locations : List (BlockOutcomes Key Obj)}
    (ordered : InOrder locations.flatten) (entry : ChunkInfo Key × Outcome Obj) :
    (entry ∈ locations.flatten.takeWhile fun entry => entry.2.found) ↔
      entry ∈ locations.flatMap obtained ∧
        ∀ first ∈ (failures locations).head?, entry.1.start < first.start := by
  induction locations with
  | nil => simp
  | cons outcomes locations ih =>
      rw [List.flatten_cons] at ordered ⊢
      have tailIh := ih (ordered.sublist (List.sublist_append_right _ _))
      have across := (List.pairwise_append.mp ordered.apart).2.2
      cases missing : firstMissing outcomes with
      | none =>
          have whole := obtained_eq_self missing
          have allFound : ∀ entry ∈ outcomes, entry.2.found = true := by
            intro entry member
            rw [← whole] at member
            exact found_of_mem member
          rw [List.takeWhile_append_of_pos allFound, List.mem_append, tailIh, List.flatMap_cons,
            whole, List.mem_append]
          have same : failures (outcomes :: locations) = failures locations := by
            simp only [failures, List.filterMap_cons, missing]
          rw [same]
          constructor
          · rintro (here | ⟨later, before⟩)
            · refine ⟨Or.inl here, fun first atHead => ?_⟩
              have follows := across entry here _ (failures_mem (List.mem_of_mem_head? atHead))
              exact (ordered.nonempty entry (List.mem_append_left _ here)).trans_le follows
            · exact ⟨Or.inr later, before⟩
          · rintro ⟨here | later, before⟩
            · exact Or.inl here
            · exact Or.inr ⟨later, before⟩
      | some chunk =>
          obtain ⟨tail, split⟩ := eq_obtained_append missing
          have stops : (outcomes ++ locations.flatten).takeWhile (fun entry => entry.2.found) =
              obtained outcomes := by
            have found : ∀ entry ∈ obtained outcomes, entry.2.found = true :=
              fun entry member => found_of_mem member
            conv_lhs => rw [split, List.append_assoc, List.takeWhile_append_of_pos found]
            simp
          have head : (failures (outcomes :: locations)).head? = some chunk := by
            simp only [failures, List.filterMap_cons, missing, List.head?_cons]
          rw [stops, head, List.flatMap_cons, List.mem_append]
          have lost : (chunk, Outcome.missing) ∈ outcomes := by
            rw [split]
            exact List.mem_append_right _ (List.mem_cons_self ..)
          have ahead : ∀ entry ∈ obtained outcomes, entry.1.start < chunk.start := by
            have localOrder := ordered.sublist (List.sublist_append_left outcomes locations.flatten)
            intro entry member
            have apart := localOrder.apart
            rw [split, List.pairwise_append] at apart
            exact (localOrder.nonempty entry ((List.takeWhile_sublist _).subset member)).trans_le
              (apart.2.2 entry member _ (List.mem_cons_self ..))
          constructor
          · intro here
            refine ⟨Or.inl here, fun first atHead => ?_⟩
            obtain rfl := Option.mem_some_iff.mp atHead
            exact ahead entry here
          · rintro ⟨here | later, before⟩
            · exact here
            · have follows := across _ lost _ ((obtained_sublist locations).subset later)
              have room := ordered.nonempty _ (List.mem_append_left _ lost)
              have below := before chunk (Option.mem_some_iff.mpr rfl)
              simp only at follows room
              omega

/-! ### The final mask and chunk list -/

section Final

variable (sizes : KvSizes Obj) (manager : StorageManager Location Key Obj)
  {request : RequestChunks Key} (mapping : BlockMapping Location request)

/-- The local variables after the last location. -/
def settled : Progress Key Obj :=
  (mapping.locations manager).foldl (settle sizes) (Progress.initial request.numTokens)

theorem processBlocks_eq : processBlocks sizes manager request.numTokens mapping.entries =
    .ok (cutAtFailure (settled sizes manager mapping)) := by
  unfold processBlocks
  rw [processLocations_eq]
  rfl

theorem settled_lastFailed : (settled sizes manager mapping).lastFailedBlockStart =
    ((failures (mapping.locations manager)).getLast?).map ChunkInfo.start := by
  unfold settled
  rw [foldl_settle_lastFailed, ← List.getLast?_map]
  exact foldl_laterFailure _ (failures_increasing (mapping.inOrder manager))

theorem settled_reorderedChunks : (settled sizes manager mapping).reorderedChunks =
    ((mapping.locations manager).flatMap obtained).filterMap loadedChunk := by
  unfold settled
  rw [foldl_settle_reorderedChunks]
  rfl

theorem settled_retMask_iff (token : Nat) :
    (settled sizes manager mapping).retMask[token]? = some true ↔
      ∃ entry ∈ (mapping.locations manager).flatMap obtained,
        entry.1.start ≤ token ∧ token < entry.1.stop := by
  unfold settled
  rw [foldl_settle_retMask, markAll_true_iff]
  have blank := RangeMask.replicate_false_not_true request.numTokens token
  simp only [Progress.initial, blank, false_or, List.length_replicate, and_iff_right_iff_imp]
  rintro ⟨entry, member, _, below⟩
  exact below.trans_le (mapping.bounded manager entry ((obtained_sublist _).subset member))

/-- Tokens marked in the returned mask: obtained, and before the last failure. -/
theorem finalMask_iff (token : Nat) :
    (cutAtFailure (settled sizes manager mapping)).retMask[token]? = some true ↔
      (∃ entry ∈ (mapping.locations manager).flatMap obtained,
        entry.1.start ≤ token ∧ token < entry.1.stop) ∧
        ∀ last ∈ (failures (mapping.locations manager)).getLast?, token < last.start := by
  have failed := settled_lastFailed sizes manager mapping
  cases final : (failures (mapping.locations manager)).getLast? with
  | none =>
      rw [final, Option.map_none] at failed
      simp only [cutAtFailure, failed, settled_retMask_iff, Option.mem_def, reduceCtorEq,
        false_implies, implies_true, and_true]
  | some last =>
      rw [final, Option.map_some] at failed
      simp only [cutAtFailure, failed, RangeMask.clearTail_true_iff, settled_retMask_iff,
        Option.mem_def, Option.some.injEq, forall_eq']

/-- Chunks returned for the copy: loaded, and ending before the last failure. -/
theorem mem_finalChunks_iff (chunk : ProcessedChunk Key Obj) :
    chunk ∈ (cutAtFailure (settled sizes manager mapping)).reorderedChunks ↔
      chunk ∈ ((mapping.locations manager).flatMap obtained).filterMap loadedChunk ∧
        ∀ last ∈ (failures (mapping.locations manager)).getLast?, chunk.stop < last.start := by
  have failed := settled_lastFailed sizes manager mapping
  cases final : (failures (mapping.locations manager)).getLast? with
  | none =>
      rw [final, Option.map_none] at failed
      simp only [cutAtFailure, failed, settled_reorderedChunks, Option.mem_def, reduceCtorEq,
        false_implies, implies_true, and_true]
  | some last =>
      rw [final, Option.map_some] at failed
      simp only [cutAtFailure, failed, List.mem_filter, settled_reorderedChunks,
        decide_eq_true_eq, Option.mem_def, Option.some.injEq, forall_eq']

theorem length_finalMask :
    (cutAtFailure (settled sizes manager mapping)).retMask.length = request.numTokens := by
  have long : (settled sizes manager mapping).retMask.length = request.numTokens := by
    unfold settled
    rw [foldl_settle_retMask, length_markAll]
    exact List.length_replicate
  unfold cutAtFailure
  split
  · exact long
  · simpa only [RangeMask.length_fillRange] using long

end Final

/-- **The mask of a retrieve.** A retrieve always returns, healthy or not; its
mask has one entry for each token and marks only tokens of requested chunks. -/
theorem retrieve_retMask (healthy removeAfterRetrieve : Bool) (sizes : KvSizes Obj)
    (manager : StorageManager Location Key Obj) (lookupPins : Option (List Location))
    (backends : List (Location × (List Key → Nat))) (request : RequestChunks Key) :
    ∃ result, retrieve healthy removeAfterRetrieve sizes manager lookupPins backends request =
        .ok result ∧ result.retMask.length = request.numTokens ∧
      ∀ token, result.retMask[token]? = some true →
        ∃ chunk ∈ request.chunkInfos, chunk.start ≤ token ∧ token < chunk.stop := by
  cases healthy with
  | false =>
      refine ⟨_, rfl, List.length_replicate, fun token marked => ?_⟩
      exact absurd marked (RangeMask.replicate_false_not_true _ token)
  | true =>
      let mapping := BlockMapping.select lookupPins backends request
      rw [retrieve_healthy, processBlocks_eq sizes manager mapping]
      refine ⟨_, rfl, length_finalMask sizes manager mapping, fun token marked => ?_⟩
      obtain ⟨⟨entry, member, inside⟩, _⟩ := (finalMask_iff sizes manager mapping token).mp marked
      have mapped := List.mem_map_of_mem (f := Prod.fst) ((obtained_sublist _).subset member)
      change entry.1 ∈ (mapping.outcomes manager).map Prod.fst at mapped
      rw [mapping.outcomes_chunks manager] at mapped
      exact ⟨entry.1, mapping.covers.subset mapped, inside⟩

theorem mem_loadedChunks {outcomes : BlockOutcomes Key Obj}
    {entry : ChunkInfo Key × Outcome Obj} (member : entry ∈ outcomes) {memoryObj : Obj}
    (loaded : entry.2 = .loaded memoryObj) :
    ⟨entry.1.key, memoryObj, entry.1.start, entry.1.stop⟩ ∈ outcomes.filterMap loadedChunk := by
  refine List.mem_filterMap.mpr ⟨entry, member, ?_⟩
  simp only [loadedChunk, loaded]

/-- The earliest failed block starts no later than the last one. -/
theorem head_le_last {locations : List (BlockOutcomes Key Obj)}
    (ordered : InOrder locations.flatten) {first last : ChunkInfo Key}
    (atHead : first ∈ (failures locations).head?)
    (atLast : last ∈ (failures locations).getLast?) : first.start ≤ last.start := by
  have increasing := failures_increasing ordered
  obtain ⟨tail, split⟩ := List.head?_eq_some_iff.mp atHead
  have member : last ∈ failures locations := List.mem_of_getLast? atLast
  rw [split] at member increasing
  rcases List.mem_cons.mp member with rfl | later
  · exact le_rfl
  · rw [List.map_cons, List.pairwise_cons] at increasing
    exact (increasing.1 _ (List.mem_map_of_mem later)).le

theorem exists_head_of_last {failed : List (ChunkInfo Key)} {last : ChunkInfo Key}
    (atLast : last ∈ failed.getLast?) : ∃ first, first ∈ failed.head? := by
  cases failed with
  | nil => simp at atLast
  | cons first rest => exact ⟨first, rfl⟩

/-! ### The mask -/

section Mask

variable (sizes : KvSizes Obj) (manager : StorageManager Location Key Obj)
  {request : RequestChunks Key} (mapping : BlockMapping Location request)

theorem adjacent_of_maskExact
    (sound : MaskExact (mapping.outcomes manager)
      (cutAtFailure (settled sizes manager mapping))) :
    FailuresAdjacent (mapping.locations manager) := by
  intro first atHead last atLast entry member
  have ordered := mapping.inOrder manager
  have inside : entry ∈ mapping.outcomes manager := (obtained_sublist _).subset member
  have room := ordered.nonempty entry inside
  have beside := obtained_beside_failure ordered member (List.mem_of_getLast? atLast)
  have lastRoom := ordered.nonempty _ (failures_mem (List.mem_of_getLast? atLast))
  -- an obtained block before the last failure has its first token marked
  have marked : entry.1.stop ≤ last.start →
      (cutAtFailure (settled sizes manager mapping)).retMask[entry.1.start]? = some true := by
    intro before
    refine (finalMask_iff sizes manager mapping _).mpr ⟨⟨entry, member, le_rfl, room⟩, ?_⟩
    intro other otherLast
    obtain rfl := Option.mem_unique atLast otherLast
    omega
  constructor
  · intro afterFirst
    rcases beside with before | after
    · obtain ⟨other, otherRun, covers⟩ := (sound.run _).mp (marked before)
      obtain ⟨otherObtained, ahead⟩ := (mem_run_iff ordered other).mp otherRun
      obtain rfl := ordered.eq_of_covers ((obtained_sublist _).subset otherObtained) inside covers
        ⟨le_rfl, room⟩
      exact absurd (ahead first atHead) afterFirst.le.not_gt
    · simp only at lastRoom
      omega
  · intro touches
    obtain ⟨other, otherInside, covers, source⟩ := sound.backed _ (marked touches.le)
    obtain rfl := ordered.eq_of_covers otherInside inside covers ⟨le_rfl, room⟩
    rcases source with direct | ⟨memoryObj, _, kept⟩
    · exact direct
    · have short := ((mem_finalChunks_iff sizes manager mapping _).mp kept).2 last atLast
      simp only at short
      omega

theorem maskExact_of_adjacent (adjacent : FailuresAdjacent (mapping.locations manager)) :
    MaskExact (mapping.outcomes manager) (cutAtFailure (settled sizes manager mapping)) := by
  have ordered := mapping.inOrder manager
  constructor
  · intro token marked
    obtain ⟨⟨entry, member, covers⟩, beforeLast⟩ := (finalMask_iff ..).mp marked
    refine ⟨entry, (obtained_sublist _).subset member, covers, ?_⟩
    have found := found_of_mem_obtained member
    cases outcome : entry.2 with
    | missing => simp [outcome] at found
    | direct => exact Or.inl rfl
    | loaded memoryObj =>
        refine Or.inr ⟨memoryObj, rfl, (mem_finalChunks_iff ..).mpr
          ⟨mem_loadedChunks member outcome, ?_⟩⟩
        intro last atLast
        obtain ⟨first, atHead⟩ := exists_head_of_last atLast
        have touching := (adjacent first atHead last atLast entry member).2
        have below := beforeLast last atLast
        have lastRoom := ordered.nonempty _ (failures_mem (List.mem_of_getLast? atLast))
        rcases obtained_beside_failure ordered member (List.mem_of_getLast? atLast) with
          before | after
        · rcases before.lt_or_eq with strict | equal
          · exact strict
          · rw [outcome] at touching
            exact absurd (touching equal) (by simp)
        · simp only at lastRoom
          omega
  · intro token
    rw [finalMask_iff]
    constructor
    · rintro ⟨⟨entry, member, covers⟩, beforeLast⟩
      refine ⟨entry, (mem_run_iff ordered entry).mpr ⟨member, ?_⟩, covers⟩
      intro first atHead
      obtain ⟨last, atLast⟩ : ∃ last, last ∈ (failures (mapping.locations manager)).getLast? := by
        have nonempty := List.ne_nil_of_mem (List.mem_of_mem_head? atHead)
        exact ⟨_, List.getLast?_eq_some_getLast nonempty⟩
      by_contra late
      have room := ordered.nonempty _ ((obtained_sublist _).subset member)
      rcases obtained_beside_failure ordered member (List.mem_of_mem_head? atHead) with
        before | after
      · omega
      · have firstRoom := ordered.nonempty _ (failures_mem (List.mem_of_mem_head? atHead))
        simp only at firstRoom
        have beyond := (adjacent first atHead last atLast entry member).1 (by omega)
        have below := beforeLast last atLast
        omega
    · rintro ⟨entry, run, covers⟩
      obtain ⟨member, ahead⟩ := (mem_run_iff ordered entry).mp run
      refine ⟨⟨entry, member, covers⟩, ?_⟩
      intro last atLast
      obtain ⟨first, atHead⟩ := exists_head_of_last atLast
      have firstBeforeLast := head_le_last ordered atHead atLast
      have before := ahead first atHead
      rcases obtained_beside_failure ordered member (List.mem_of_mem_head? atHead) with
        apart | apart
      · omega
      · have firstRoom := ordered.nonempty _ (failures_mem (List.mem_of_mem_head? atHead))
        simp only at firstRoom
        omega

/-- **The mask of a retrieve.** For every answer of the locations the mask is
the obtained run before the earliest failure, and backed by data, exactly when
the failures of different locations lie next to each other and no block loaded
by the fallback touches the last of them. -/
theorem processBlocks_maskExact_iff :
    ∃ progress, processBlocks sizes manager request.numTokens mapping.entries = .ok progress ∧
      (MaskExact (mapping.outcomes manager) progress ↔
        FailuresAdjacent (mapping.locations manager)) :=
  ⟨_, processBlocks_eq sizes manager mapping,
    adjacent_of_maskExact sizes manager mapping, maskExact_of_adjacent sizes manager mapping⟩

end Mask

/-- One location, the second of two chunks missing: the first chunk stays
marked although its object has been dropped from the chunks to copy. -/
theorem maskExact_fails_twoChunks : ∃ progress,
    processBlocks ⟨id, id⟩ losesSecond twoChunks.numTokens twoChunksMapping.entries =
      .ok progress ∧ ¬ MaskExact (twoChunksMapping.outcomes losesSecond) progress := by
  refine ⟨_, twoChunks_progress, fun sound => ?_⟩
  obtain ⟨entry, member, covers, source⟩ := sound.backed 0 rfl
  have listed : twoChunksMapping.outcomes losesSecond =
      [(⟨0, 0, 4⟩, .loaded 7), (⟨1, 4, 8⟩, .missing)] := by decide
  rw [listed] at member
  rcases source with direct | ⟨_, _, kept⟩
  · rcases List.mem_pair.mp member with rfl | rfl <;> simp at direct
  · exact List.not_mem_nil kept

/-! ### The references -/

section References

variable (sizes : KvSizes Obj) (manager : StorageManager Location Key Obj)
  {request : RequestChunks Key} (mapping : BlockMapping Location request)

theorem fetchedObjs_eq :
    mapping.fetchedObjs manager = (mapping.locations manager).flatMap loadedObjs := by
  unfold BlockMapping.fetchedObjs BlockMapping.locations
  induction mapping.entries with
  | nil => rfl
  | cons entry entries ih =>
      rw [List.flatMap_cons, List.map_cons, List.flatMap_cons, ih, locationOutcomes_loadedObjs]

theorem settled_released : (settled sizes manager mapping).released =
    (mapping.locations manager).flatMap fun outcomes => loadedObjs (unread outcomes) := by
  unfold settled
  rw [foldl_settle_released]
  rfl

theorem loadedObjs_split (outcomes : BlockOutcomes Key Obj) :
    loadedObjs outcomes = loadedObjs (obtained outcomes) ++ loadedObjs (unread outcomes) := by
  unfold loadedObjs
  rw [← List.map_append, ← List.filterMap_append]
  exact congrArg (fun outcomes => (List.filterMap loadedChunk outcomes).map _)
    List.takeWhile_append_dropWhile.symm

/-- Every fetched object is either released inside the loop or obtained. -/
theorem fetchedObjs_perm :
    (mapping.fetchedObjs manager).Perm ((settled sizes manager mapping).released ++
      (settled sizes manager mapping).reorderedChunks.map ProcessedChunk.memoryObj) := by
  have obtainedObjs : (settled sizes manager mapping).reorderedChunks.map
      ProcessedChunk.memoryObj =
        (mapping.locations manager).flatMap fun outcomes => loadedObjs (obtained outcomes) := by
    rw [settled_reorderedChunks, List.filterMap_flatMap, List.map_flatMap]
    rfl
  rw [fetchedObjs_eq, settled_released, obtainedObjs]
  refine List.Perm.trans ?_ List.perm_append_comm
  refine List.Perm.trans ?_ (List.flatMap_append_perm ..).symm
  rw [List.flatMap_congr fun outcomes _ => loadedObjs_split outcomes]

theorem finalChunks_sublist :
    (cutAtFailure (settled sizes manager mapping)).reorderedChunks.Sublist
      (settled sizes manager mapping).reorderedChunks := by
  unfold cutAtFailure
  split
  · exact List.Sublist.refl _
  · exact List.filter_sublist

theorem cutAtFailure_released (progress : Progress Key Obj) :
    (cutAtFailure progress).released = progress.released := by
  unfold cutAtFailure
  split <;> rfl

/-- The chunk filter drops nothing exactly when the loaded blocks end before
the last failure. -/
theorem finalChunks_eq_iff :
    (cutAtFailure (settled sizes manager mapping)).reorderedChunks =
        (settled sizes manager mapping).reorderedChunks ↔
      LoadedBeforeFailure (mapping.locations manager) := by
  constructor
  · intro whole last atLast entry member memoryObj loaded
    have kept := mem_loadedChunks member loaded
    rw [← settled_reorderedChunks sizes, ← whole] at kept
    exact ((mem_finalChunks_iff sizes manager mapping _).mp kept).2 last atLast
  · intro short
    unfold cutAtFailure
    have failed := settled_lastFailed sizes manager mapping
    cases final : (failures (mapping.locations manager)).getLast? with
    | none => simp only [final, Option.map_none] at failed; simp only [failed]
    | some last =>
        simp only [final, Option.map_some] at failed
        simp only [failed]
        rw [List.filter_eq_self]
        intro chunk member
        rw [settled_reorderedChunks] at member
        obtain ⟨entry, inside, loaded⟩ := List.mem_filterMap.mp member
        obtain ⟨info, outcome⟩ := entry
        cases outcome with
        | direct => simp at loaded
        | missing => simp at loaded
        | loaded memoryObj =>
            rw [loadedChunk_loaded, Option.some.injEq] at loaded
            subst loaded
            exact decide_eq_true (short last final _ inside memoryObj rfl)

/-- **The references of a retrieve.** Each object that the fallback reads
return is released exactly once by the time the retrieve returns, inside the
loop or by the final loop, exactly when the loaded blocks end before the last
failed block. -/
theorem retrieve_releases_iff (removeAfterRetrieve : Bool) :
    ∃ progress, processBlocks sizes manager request.numTokens mapping.entries = .ok progress ∧
      ((finishRetrieve removeAfterRetrieve progress).refCountDown.Perm
          (mapping.fetchedObjs manager) ↔
        LoadedBeforeFailure (mapping.locations manager)) := by
  refine ⟨_, processBlocks_eq sizes manager mapping, ?_⟩
  rw [← finalChunks_eq_iff sizes]
  have fetched := fetchedObjs_perm sizes manager mapping
  simp only [finishRetrieve, cutAtFailure_released]
  constructor
  · intro conserved
    have lengths := (conserved.trans fetched).length_eq
    simp only [List.length_append, List.length_map] at lengths
    exact (finalChunks_sublist sizes manager mapping).eq_of_length (by omega)
  · intro whole
    rw [whole]
    exact fetched.symm

end References

/-- On the same input the object of the first chunk is never released. -/
theorem releases_fail_twoChunks : ∃ progress,
    processBlocks ⟨id, id⟩ losesSecond twoChunks.numTokens twoChunksMapping.entries =
      .ok progress ∧ ¬ (finishRetrieve false progress).refCountDown.Perm
        (twoChunksMapping.fetchedObjs losesSecond) :=
  ⟨_, twoChunks_progress, by decide⟩

end LMCacheHcu.Engine
