import LMCacheHcu.Coherence.StoredRows

/-! # What a retrieve brings to the paged cache

The copies of a retrieve and the direct transfers before them fill the slots of the
tokens that vLLM does not have. Whenever it happens, the tokens that the returned
mask marks have their rows there, but for a chunk that was loaded and then left out
of the copies because it ends where the last failed block starts.
-/

namespace LMCacheHcu.Coherence

open Engine SlotRows

variable {Location Key Row : Type} {database : HashedChunks Key} {kv : List ℤ → Row}

/-! ### Copies -/

/-- The rows that `to_gpu` copies are those of the tokens that vLLM does not have. -/
theorem mem_toGpuRows {slotMapping : List ℤ} {vllmCached start stop : ℕ} {memory : ℕ → Row}
    {entry : ℤ × Row} :
    entry ∈ toGpuRows slotMapping vllmCached memory start stop ↔
      ∃ token, start ≤ token ∧ token < stop ∧ vllmCached ≤ token ∧
        slotMapping[token]? = some entry.1 ∧ memory (token - start) = entry.2 := by
  rw [toGpuRows, mem_drop_slotted]
  constructor
  · rintro ⟨index, skipped, here, row⟩
    have inside : start + index < stop := by
      have short := (List.getElem?_eq_some_iff.mp here).1
      rw [chunkSlots, List.length_drop, List.length_take] at short
      omega
    refine ⟨start + index, Nat.le_add_right .., inside, by omega, ?_, ?_⟩
    · rw [← here, ← getElem?_chunkSlots (Nat.le_add_right ..) inside, Nat.add_sub_cancel_left]
    · rw [Nat.add_sub_cancel_left, row]
  · rintro ⟨token, after, before, fresh, here, row⟩
    refine ⟨token - start, by omega, ?_, row⟩
    rw [getElem?_chunkSlots after before, here]

/-- The slot of a token after all copies, when every copied object with the token has
the same row for it. -/
theorem batchedToGpu_eq {wanted : Wanted database} (distinct : wanted.Distinct)
    {copied : List ((ℕ → Row) × ℕ × ℕ)} {paged : ℕ → Row} {token slot : ℕ} {row : Row}
    (here : wanted.slotMapping[token]? = some (slot : ℤ)) (fresh : wanted.vllmCached ≤ token)
    (right : ∀ object ∈ copied, object.2.1 ≤ token → token < object.2.2 →
      object.1 (token - object.2.1) = row)
    (written : (∃ object ∈ copied, object.2.1 ≤ token ∧ token < object.2.2) ∨ paged slot = row) :
    batchedToGpu wanted.slotMapping wanted.vllmCached copied paged slot = row := by
  rw [batchedToGpu, foldl_scatter]
  apply scatter_eq
  · intro entry member named
    obtain ⟨object, listed, inside⟩ := List.mem_flatMap.mp member
    obtain ⟨other, after, before, -, there, content⟩ := mem_toGpuRows.mp inside
    rw [named] at there
    obtain rfl := distinct _ _ _ here there
    rw [← content, right object listed after before]
  · refine written.imp_left fun ⟨object, listed, after, before⟩ => ?_
    exact List.mem_flatMap.mpr ⟨object, listed,
      mem_toGpuRows.mpr ⟨token, after, before, fresh, here, right object listed after before⟩⟩

/-- A slot of no token that is copied keeps its row. -/
theorem batchedToGpu_kept {wanted : Wanted database} {copied : List ((ℕ → Row) × ℕ × ℕ)}
    {paged : ℕ → Row} {slot : ℕ}
    (absent : ∀ object ∈ copied, ∀ token, object.2.1 ≤ token → token < object.2.2 →
      wanted.vllmCached ≤ token → wanted.slotMapping[token]? ≠ some (slot : ℤ)) :
    batchedToGpu wanted.slotMapping wanted.vllmCached copied paged slot = paged slot := by
  rw [batchedToGpu, foldl_scatter]
  apply scatter_of_notMem
  intro entry member named
  obtain ⟨object, listed, inside⟩ := List.mem_flatMap.mp member
  obtain ⟨token, after, before, fresh, here, -⟩ := mem_toGpuRows.mp inside
  rw [named] at here
  exact absent object listed token after before fresh here

/-! ### Answers -/

section Outcomes

variable {Obj : Type}

/-- Where an outcome comes from: a direct result, or the answer at the key's place. -/
theorem answer_of_mem_pairOutcomes {pairs : List (ChunkInfo Key × Bool)}
    {objs : List (Option Obj)} {entry : ChunkInfo Key × Outcome Obj}
    (member : entry ∈ pairOutcomes pairs objs) :
    (entry.2 = .direct → (entry.1, true) ∈ pairs) ∧
      ∀ memoryObj, entry.2 = .loaded memoryObj → (entry.1.key, some memoryObj) ∈
        (((pairs.filter fun pair => !pair.2).map Prod.fst).map ChunkInfo.key).zip objs := by
  induction pairs, objs using pairOutcomes.induct with
  | case1 objs => cases member
  | case2 chunk more objs ih =>
      rw [pairOutcomes] at member
      rcases List.mem_cons.mp member with rfl | later
      · refine ⟨fun _ => List.mem_cons_self, fun memoryObj loaded => ?_⟩
        cases loaded
      · exact ⟨fun direct => List.mem_cons_of_mem _ ((ih later).1 direct), (ih later).2⟩
  | case3 chunk more objs ih =>
      rw [pairOutcomes] at member
      rcases List.mem_cons.mp member with rfl | later
      · refine ⟨fun direct => ?_, fun memoryObj loaded => ?_⟩
        · cases direct
        · cases loaded
      · exact ⟨fun direct => List.mem_cons_of_mem _ ((ih later).1 direct),
          fun memoryObj loaded => List.mem_cons_of_mem _ ((ih later).2 memoryObj loaded)⟩
  | case4 chunk more stored objs ih =>
      rw [pairOutcomes] at member
      rcases List.mem_cons.mp member with rfl | later
      · refine ⟨fun direct => ?_, fun memoryObj loaded => ?_⟩
        · cases direct
        · cases loaded
          exact List.mem_cons_self
      · exact ⟨fun direct => List.mem_cons_of_mem _ ((ih later).1 direct),
          fun memoryObj loaded => List.mem_cons_of_mem _ ((ih later).2 memoryObj loaded)⟩
  | case5 chunk more => cases member

/-- An object was loaded from the answers of `batched_get` at the location. -/
theorem answered_of_loaded {manager : StorageManager Location Key Obj}
    {place : Location × List (ChunkInfo Key)} {chunk : ChunkInfo Key} {memoryObj : Obj}
    (member : (chunk, Outcome.loaded memoryObj) ∈ locationOutcomes manager place) :
    ∃ keys : List Key, (chunk.key, some memoryObj) ∈ keys.zip (manager.batchedGet place.1 keys) := by
  have answer := (answer_of_mem_pairOutcomes member).2 memoryObj rfl
  unfold fallbackMemoryObjs at answer
  simp only at answer
  split at answer
  · simp at answer
  · exact ⟨_, answer⟩

/-- A block was transferred by `batched_direct_get` at its location. -/
theorem transferred_of_direct {manager : StorageManager Location Key Obj}
    {place : Location × List (ChunkInfo Key)} {chunk : ChunkInfo Key}
    (member : (chunk, Outcome.direct) ∈ locationOutcomes manager place) :
    (chunk, true) ∈ place.2.zip (manager.batchedDirectGet place.1 place.2) := by
  have direct := (answer_of_mem_pairOutcomes member).1 rfl
  unfold directResults at direct
  split at direct
  · exact direct
  · exact absurd (List.eq_of_mem_replicate (List.of_mem_zip direct).2) (by decide)

end Outcomes

/-! ### Synchronous retrieves -/

namespace RetrieveCall

variable (call : RetrieveCall Location Row database)

/-- The token's chunk was loaded, and left out of the copies because the last failed
block starts where it ends. -/
def LeftOut (token : ℕ) : Prop :=
  ∃ last ∈ (failures (call.mapping.locations call.manager)).getLast?,
    ∃ entry ∈ (call.mapping.locations call.manager).flatMap obtained,
      (∃ memoryObj, entry.2 = .loaded memoryObj) ∧ entry.1.stop = last.start ∧
        entry.1.start ≤ token ∧ token < entry.1.stop

/-- The result of the call, after all locations. -/
def settledResult : RetrieveResult Key (ℕ → Row) :=
  finishRetrieve call.removeAfterRetrieve
    (cutAtFailure (settled call.sizes call.manager call.mapping))

theorem result_eq : call.result = .ok call.settledResult := by
  unfold result settledResult
  rw [retrieve_healthy]
  have processed := processBlocks_eq call.sizes call.manager call.mapping
  rw [mapping] at processed
  rw [processed]
  rfl

variable {call}

/-- The copied objects are those of the loaded blocks that end before the last failure. -/
theorem mem_copied {object : (ℕ → Row) × ℕ × ℕ} :
    object ∈ call.settledResult.copiedToGpu ↔
      ∃ entry ∈ (call.mapping.locations call.manager).flatMap obtained,
        entry.2 = .loaded object.1 ∧ entry.1.start = object.2.1 ∧ entry.1.stop = object.2.2 ∧
          ∀ last ∈ (failures (call.mapping.locations call.manager)).getLast?,
            entry.1.stop < last.start := by
  change object ∈ List.map _ _ ↔ _
  rw [List.mem_map]
  constructor
  · rintro ⟨chunk, kept, rfl⟩
    obtain ⟨listed, short⟩ := (mem_finalChunks_iff ..).mp kept
    obtain ⟨⟨info, outcome⟩, member, loaded⟩ := List.mem_filterMap.mp listed
    cases outcome with
    | direct => simp at loaded
    | missing => simp at loaded
    | loaded memoryObj =>
        rw [loadedChunk_loaded, Option.some.injEq] at loaded
        subst loaded
        exact ⟨_, member, rfl, rfl, rfl, short⟩
  · rintro ⟨entry, member, loaded, start, stop, short⟩
    refine ⟨⟨entry.1.key, object.1, entry.1.start, entry.1.stop⟩,
      (mem_finalChunks_iff ..).mpr ⟨mem_loadedChunks member loaded, short⟩, ?_⟩
    rw [start, stop]

/-- A mapped chunk is one of the request's tokens. -/
theorem mem_prefixChunks {chunk : ChunkInfo Key}
    (member : chunk ∈ call.mapping.entries.flatMap Prod.snd) :
    chunk ∈ database.prefixChunks call.ids :=
  (HashedChunks.suffix_of_processTokens call.processed).subset (call.mapping.covers.subset member)

theorem mem_mapped {entry : ChunkInfo Key × Outcome (ℕ → Row)}
    (member : entry ∈ (call.mapping.locations call.manager).flatMap obtained) :
    entry.1 ∈ call.mapping.entries.flatMap Prod.snd := by
  rw [← call.mapping.outcomes_chunks call.manager]
  exact List.mem_map_of_mem ((obtained_sublist _).subset member)

variable {world : CacheWorld Location Key Row}

/-- An obtained block brings right rows: in the object that was loaded, or in the
slots of its tokens. -/
theorem Promised.obtained_right (promised : call.Promised world)
    (coherent : Coherent kv database world) {entry : ChunkInfo Key × Outcome (ℕ → Row)}
    (member : entry ∈ (call.mapping.locations call.manager).flatMap obtained) :
    (∃ memoryObj, entry.2 = .loaded memoryObj ∧ RightRows kv call.ids entry.1 memoryObj) ∨
      entry.2 = .direct ∧ ∀ token slot, call.Fills entry.1 token slot →
        call.transferred slot = kv (call.ids.take (token + 1)) := by
  have known := mem_prefixChunks (mem_mapped member)
  have found := found_of_mem_obtained member
  obtain ⟨outcomes, listed, inside⟩ := List.mem_flatMap.mp member
  obtain ⟨place, placed, rfl⟩ := List.mem_map.mp listed
  have answered := (List.takeWhile_sublist _).subset inside
  obtain ⟨chunk, outcome⟩ := entry
  cases outcome with
  | missing => simp at found
  | loaded memoryObj =>
      left
      obtain ⟨keys, answer⟩ := answered_of_loaded answered
      have published := promised.answered place.1 keys chunk.key memoryObj answer
      exact ⟨memoryObj, rfl, coherent.published _ published _ _ known rfl⟩
  | direct =>
      right
      obtain ⟨content, published, transferred⟩ :=
        promised.transfers place placed chunk (transferred_of_direct answered)
      refine ⟨rfl, fun token slot fills => ?_⟩
      rw [transferred token slot fills]
      exact coherent.published _ published _ _ known rfl token fills.1 fills.2.1

/-- A marked token whose chunk is copied or transferred has its row. -/
theorem Promised.marked_right (promised : call.Promised world)
    (coherent : Coherent kv database world) {token slot : ℕ}
    (here : call.slotMapping[token]? = some (slot : ℤ)) (fresh : call.vllmCached ≤ token)
    (marked : call.settledResult.retMask[token]? = some true) (copied : ¬ call.LeftOut token) :
    (world.afterRetrieve call.toWanted call.transferred call.settledResult).paged slot =
      kv (call.ids.take (token + 1)) := by
  obtain ⟨⟨entry, member, after, before⟩, ahead⟩ := (finalMask_iff ..).mp marked
  apply batchedToGpu_eq promised.distinct here fresh
  · intro object listed objectAfter objectBefore
    obtain ⟨other, there, loaded, start, stop, -⟩ := mem_copied.mp listed
    rw [← start] at objectAfter ⊢
    rw [← stop] at objectBefore
    rcases promised.obtained_right coherent there with ⟨memoryObj, same, right⟩ | ⟨direct, -⟩
    · obtain rfl : object.1 = memoryObj := Outcome.loaded.inj (loaded.symm.trans same)
      exact right token objectAfter objectBefore
    · rw [loaded] at direct
      cases direct
  · rcases promised.obtained_right coherent member with ⟨memoryObj, loaded, -⟩ | ⟨-, transferred⟩
    · left
      refine ⟨(memoryObj, entry.1.start, entry.1.stop), mem_copied.mpr
        ⟨entry, member, loaded, rfl, rfl, fun last atLast => ?_⟩, after, before⟩
      -- the block lies before the failed one, and does not end where that starts
      have ordered := call.mapping.inOrder call.manager
      have lost := List.mem_of_getLast? atLast
      have room := ordered.nonempty _ (failures_mem lost)
      have below := ahead last atLast
      rcases obtained_beside_failure ordered member lost with apart | apart
      · refine lt_of_le_of_ne apart fun touches => copied ?_
        exact ⟨last, atLast, entry, member, ⟨memoryObj, loaded⟩, touches, after, before⟩
      · simp only at room
        omega
    · exact .inr (transferred token slot ⟨after, before, fresh, here⟩)

/-- A slot of no token that vLLM lacks keeps its row. -/
theorem Promised.kept (promised : call.Promised world) {slot : ℕ}
    (absent : ∀ token : ℕ, call.slotMapping[token]? = some (slot : ℤ) →
      token < call.vllmCached) :
    (world.afterRetrieve call.toWanted call.transferred call.settledResult).paged slot =
      world.paged slot := by
  have unnamed (token : ℕ) (fresh : call.vllmCached ≤ token) :
      call.slotMapping[token]? ≠ some (slot : ℤ) :=
    fun here => absurd (absent token here) (Nat.not_lt.mpr fresh)
  refine (batchedToGpu_kept fun _ _ token _ _ => unnamed token).trans ?_
  exact promised.confined slot fun _ _ token fills => unnamed token fills.2.2.1 fills.2.2.2

/-- The slot of a token left out of the copies has what the direct transfers left there. -/
theorem Promised.leftOut_kept (promised : call.Promised world) {token slot : ℕ}
    (here : call.slotMapping[token]? = some (slot : ℤ)) (leftOut : call.LeftOut token) :
    (world.afterRetrieve call.toWanted call.transferred call.settledResult).paged slot =
      call.transferred slot := by
  obtain ⟨last, atLast, entry, member, -, touches, after, before⟩ := leftOut
  refine batchedToGpu_kept fun object listed other objectAfter objectBefore _ there => ?_
  obtain rfl := promised.distinct token other slot here there
  obtain ⟨copied, inside, -, start, stop, short⟩ := mem_copied.mp listed
  rw [← start] at objectAfter
  rw [← stop] at objectBefore
  obtain rfl := (call.mapping.inOrder call.manager).eq_of_covers ((obtained_sublist _).subset member)
    ((obtained_sublist _).subset inside) ⟨after, before⟩ ⟨objectAfter, objectBefore⟩
  exact absurd touches (short last atLast).ne

/-- Without a missing block every token of the mapped chunks is marked. -/
theorem marked_of_found (found : failures (call.mapping.locations call.manager) = [])
    {chunk : ChunkInfo Key} (member : chunk ∈ call.mapping.entries.flatMap Prod.snd) {token : ℕ}
    (after : chunk.start ≤ token) (before : token < chunk.stop) :
    call.settledResult.retMask[token]? = some true := by
  refine (finalMask_iff ..).mpr ⟨?_, fun last atLast => ?_⟩
  · rw [← call.mapping.outcomes_chunks call.manager] at member
    obtain ⟨entry, inside, rfl⟩ := List.mem_map.mp member
    obtain ⟨outcomes, listed, there⟩ := List.mem_flatten.mp inside
    have whole : firstMissing outcomes = none := by
      rw [failures, List.filterMap_eq_nil_iff] at found
      exact found outcomes listed
    rw [← obtained_eq_self whole] at there
    exact ⟨entry, List.mem_flatMap.mpr ⟨outcomes, listed, there⟩, after, before⟩
  · rw [found] at atLast
    cases atLast

/-- Without a missing block no chunk is left out of the copies. -/
theorem not_leftOut_of_found (found : failures (call.mapping.locations call.manager) = [])
    (token : ℕ) : ¬ call.LeftOut token := by
  rintro ⟨last, atLast, -⟩
  rw [found] at atLast
  cases atLast

end RetrieveCall

/-! ### Retrieves in a run -/

/-- A token database with chunks of one token, whose keys are the prefixes themselves. -/
def prefixTokens : HashedChunks (List ℤ) where
  chunkHash := prefixHash
  prefixChunks ids := (List.range ids.length).map fun index : ℕ =>
    ⟨ids.take (index + 1), index, index + 1⟩
  firstStart ids chunk rest found := by
    cases ids with
    | nil => cases found
    | cons token more =>
        rw [List.length_cons, List.range_succ_eq_map, List.map_cons, List.cons.injEq] at found
        rw [← found.1]
  increasing ids := List.pairwise_map.mpr List.pairwise_lt_range
  processTokens input mask :=
    match mask, input with
    | _, .hashes _ _ => none
    | none, .tokens ids _ => some ((List.range ids.length).map fun index : ℕ =>
        ⟨ids.take (index + 1), index, index + 1⟩)
    | some mask, .tokens ids _ => some (((List.range ids.length).map fun index : ℕ =>
        (⟨ids.take (index + 1), index, index + 1⟩ : ChunkInfo (List ℤ))).filter fun chunk =>
          mask.count false ≤ chunk.start)
  processTokens_unmasked _ _ := rfl
  processTokens_masked _ _ _ _ processed := (Option.some.inj processed).symm
  convertTokensToList ids start stop := (ids.drop start).take (stop - start)
  convertTokensToList_eq _ _ _ := List.drop_take.symm

theorem prefixTokens_keyed : PrefixKeyed prefixTokens where
  within ids chunk member := by
    obtain ⟨index, inside, rfl⟩ := List.mem_map.mp member
    exact List.mem_range.mp inside
  identified ids others chunk member other there same := by
    obtain ⟨index, inside, rfl⟩ := List.mem_map.mp member
    obtain ⟨index', inside', rfl⟩ := List.mem_map.mp there
    have alike := congrArg List.length same
    simp only [List.length_take] at alike
    have short := List.mem_range.mp inside
    have short' := List.mem_range.mp inside'
    obtain rfl : index = index' := by omega
    have whole : ids.take (index + 1) = others.take (index + 1) := same
    exact ⟨by rw [whole], whole⟩

/-- The row of the last token of a prefix. -/
def sumRow (tokens : List ℤ) : ℤ := tokens.sum

/-- The cache after vLLM has computed the tokens 5 and 6 in the slots 3 and 4. -/
def computedRows (slot : ℕ) : ℤ := if slot = 3 then 5 else if slot = 4 then 11 else 0

/-- A store of the tokens 5 and 6. -/
def storeTwo : StoreCall Unit (List ℤ) ℤ where
  state := ⟨true, false, false, false⟩
  manager := ⟨false, fun chunks => List.replicate chunks.length false, fun _ => some fun _ => 0,
    fun _ => List.length_replicate⟩
  ids := [5, 6]
  device := none
  mask := none
  slotMapping := [3, 4]
  directLocation := ()
  directMemory _ _ := 0
  putLocations := [()]

/-- The rows of the second token that the store has read. -/
def secondRows : ℕ → ℤ := fromGpu [3, 4] computedRows 1 2 fun _ => 0

/-- A retrieve of the tokens 5, 6 and 7 to the slots 8 to 10, of which vLLM has the
first one. Its storage has the second and has lost the others. -/
def retrieveThree : RetrieveCall Unit ℤ prefixTokens where
  ids := [5, 6, 7]
  mask := some [false, true, true]
  slotMapping := [8, 9, 10]
  vllmCached := 1
  request := ⟨3, [⟨[5, 6], 1, 2⟩, ⟨[5, 6, 7], 2, 3⟩], by decide, by decide, by decide⟩
  numTokens_eq := rfl
  processed := rfl
  removeAfterRetrieve := false
  sizes := ⟨id, fun _ => 0⟩
  manager := ⟨fun _ => false, fun _ blocks => List.replicate blocks.length false,
    fun _ keys => keys.map fun key => if key = [5, 6] then some secondRows else none,
    length_noDirectGet, fun _ _ => List.length_map _⟩
  lookupPins := none
  backends := [((), fun _ => 1)]
  transferred _ := 0

def emptyWorld : CacheWorld Unit (List ℤ) ℤ := ⟨[], [], fun _ => 0⟩

/-- The storage after the store has landed, when vLLM has used its slots again. -/
def storedWorld : CacheWorld Unit (List ℤ) ℤ where
  published := [((), [5, 6], secondRows), ((), [5], fromGpu [3, 4] computedRows 0 1 fun _ => 0)]
  inFlight := []
  paged _ := 0

theorem runsTo_storedWorld : emptyWorld.RunsTo sumRow prefixTokens storedWorld := by
  let first : Unit × List ℤ × (ℕ → ℤ) := ((), [5], fromGpu [3, 4] computedRows 0 1 fun _ => 0)
  let second : Unit × List ℤ × (ℕ → ℤ) := ((), [5, 6], secondRows)
  have promised : storeTwo.Promised sumRow ⟨[], [], computedRows⟩ := by
    intro token _ inside
    match token, inside with
    | 0, _ => exact ⟨3, rfl, rfl⟩
    | 1, _ => exact ⟨4, rfl, rfl⟩
  have run {middle next : CacheWorld Unit (List ℤ) ℤ} (event : CacheEvent Unit ℤ prefixTokens)
      (reached : emptyWorld.RunsTo sumRow prefixTokens middle)
      (kept : Promised sumRow middle event) (stepped : middle.step event = some next) :
      emptyWorld.RunsTo sumRow prefixTokens next := reached.tail kept stepped
  have computed : emptyWorld.RunsTo sumRow prefixTokens ⟨[], [], computedRows⟩ :=
    run (.computed computedRows) .refl trivial rfl
  have stored : emptyWorld.RunsTo sumRow prefixTokens ⟨[], [first, second], computedRows⟩ :=
    run (.stored storeTwo) computed promised rfl
  have landed : emptyWorld.RunsTo sumRow prefixTokens ⟨[second, first], [], computedRows⟩ :=
    run (.landed 0) (run (.landed 0) stored trivial rfl) trivial rfl
  exact run (.computed fun _ => 0) landed trivial rfl

theorem emptyWorld_coherent : Coherent sumRow prefixTokens emptyWorld :=
  ⟨nofun, nofun⟩

theorem retrieveThree_promised : retrieveThree.Promised storedWorld where
  distinct := by
    intro token other slot here there
    have short := (List.getElem?_eq_some_iff.mp here).1
    have nodup : retrieveThree.slotMapping.Nodup := by decide
    exact (List.getElem?_inj short nodup).mp (here.trans there.symm)
  answered location keys key content answer := by
    have listed : retrieveThree.manager.batchedGet location keys = keys.map fun key =>
        if key = [5, 6] then some secondRows else none := rfl
    rw [listed, List.zip_map_right, List.mem_map] at answer
    obtain ⟨⟨left, right⟩, paired, same⟩ := answer
    obtain rfl : left = right := by
      obtain ⟨index, here⟩ := List.mem_iff_getElem?.mp paired
      rw [List.getElem?_zip_eq_some] at here
      exact Option.some.inj (here.1.symm.trans here.2)
    simp only [Prod.map_apply, id_eq, Prod.mk.injEq] at same
    obtain ⟨rfl, found⟩ := same
    split at found
    · rename_i second
      cases found
      rw [second]
      exact List.mem_cons_self
    · cases found
  transfers place placed chunk direct :=
    absurd (List.eq_of_mem_replicate (List.of_mem_zip direct).2) (by decide)
  confined _ _ := rfl

end LMCacheHcu.Coherence
