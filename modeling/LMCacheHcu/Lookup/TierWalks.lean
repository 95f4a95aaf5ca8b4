import LMCacheHcu.Foundation.Slices
import LMCacheHcu.Engine.ProcessTokens
import LMCacheHcu.Lookup.BlockMapping
import LMCacheHcu.Prefetch.LookupTasks

/-! # Three walks over the tiers

A synchronous lookup, a synchronous retrieve and an asynchronous lookup each walk
over the active backends and share out the keys, every backend taking the hits
among what the earlier ones left. `batched_contains` cuts the keys that are left,
`get_block_mapping` also counts its position in the chunk infos, and
`async_lookup_and_prefetch` cuts the keys and the cumulative chunk lengths. All
three share out the same slices.
-/

namespace LMCacheHcu.Lookup

open LMCacheHcu.Engine LMCacheHcu.Prefetch Slices

variable {Name Key Obj State Change : Type} [DecidableEq Name] [DecidableEq Key]

/-- One loading task that the asynchronous walk starts. -/
structure LoadingTier (Name Key : Type) where
  backendName : Name
  backendKeys : List Key
  cumChunkLengths : List ℕ
deriving DecidableEq, Repr

/-- The slice of the keys that goes to one backend. -/
structure TierSlice (Name : Type) where
  name : Name
  slice : Slice
deriving DecidableEq, Repr

namespace StorageManager

variable (manager : StorageManager Name Key State Change)

/-- The loop of `get_block_mapping`, with the keys no backend had yet. -/
def mappingLoop (chunkInfos : List (ChunkInfo Key)) (totalKeys : ℕ) : List Name → List Key → ℕ →
    (Name → State) → AList (fun _ : Name => List (ChunkInfo Key)) →
    (Name → State) × AList fun _ : Name => List (ChunkInfo Key)
  | [], _, _, stores, blockMapping => (stores, blockMapping)
  | name :: names, keys, totalHitChunks, stores, blockMapping =>
      let answer := (manager.backend name).batchedContains keys false (stores name)
      let stores := Function.update stores name answer.1
      if answer.2 = 0 then mappingLoop chunkInfos totalKeys names keys totalHitChunks stores blockMapping
      else
        let blockMapping :=
          blockMapping.insert name ((chunkInfos.drop totalHitChunks).take answer.2)
        if totalHitChunks + answer.2 = totalKeys then (stores, blockMapping)
        else mappingLoop chunkInfos totalKeys names (keys.drop answer.2) (totalHitChunks + answer.2)
          stores blockMapping

/-- `get_block_mapping`. -/
def getBlockMapping (active : Name → Bool) (chunkInfos : List (ChunkInfo Key))
    (stores : Name → State) : (Name → State) × AList fun _ : Name => List (ChunkInfo Key) :=
  let keys := chunkInfos.map ChunkInfo.key
  manager.mappingLoop chunkInfos keys.length (manager.activeBackends active) keys 0 stores ∅

/-- The loop of `async_lookup_and_prefetch`, with the keys and the cumulative
chunk lengths that are left. -/
def prefetchLoop (numTotalChunks : ℕ) (pin : Bool) : List Name → List Key → List ℕ → ℕ →
    (Name → State) → (Name → State) × List (LoadingTier Name Key)
  | [], _, _, _, stores => (stores, [])
  | name :: names, keys, cumChunkLengths, numTotalHitChunks, stores =>
      let answer := (manager.backend name).batchedContains keys pin (stores name)
      let stores := Function.update stores name answer.1
      if answer.2 = 0 then
        prefetchLoop numTotalChunks pin names keys cumChunkLengths numTotalHitChunks stores
      else
        let tier : LoadingTier Name Key :=
          ⟨name, keys.take answer.2, cumChunkLengths.take (answer.2 + 1)⟩
        let cumChunkLengths := cumChunkLengths.drop answer.2
        if numTotalHitChunks + answer.2 = numTotalChunks then (stores, [tier])
        else
          let later := prefetchLoop numTotalChunks pin names (keys.drop answer.2) cumChunkLengths
            (numTotalHitChunks + answer.2) stores
          (later.1, tier :: later.2)

/-- The loading tasks that `async_lookup_and_prefetch` starts. -/
def loadingTiers (active : Name → Bool) (keys : List Key) (cumChunkLengths : List ℕ) (pin : Bool)
    (stores : Name → State) : (Name → State) × List (LoadingTier Name Key) :=
  manager.prefetchLoop keys.length pin (manager.activeBackends active) keys cumChunkLengths 0 stores

/-! ### The slices -/

/-- The slices that a walk shares out when it starts at position `start`. -/
def tierSlices (stores : Name → State) : List Name → List Key → ℕ → List (TierSlice Name)
  | [], _, _ => []
  | name :: names, keys, start =>
      let hits := (manager.backend name).hits keys (stores name)
      if hits = 0 then tierSlices stores names keys start
      else ⟨name, start, start + hits⟩ :: tierSlices stores names (keys.drop hits) (start + hits)

variable {manager}

omit [DecidableEq Name] in
/-- After the last key there is nothing to share out. -/
theorem tierSlices_nil (stores : Name → State) (names : List Name) (start : ℕ) :
    manager.tierSlices stores names [] start = [] := by
  induction names with
  | nil => rfl
  | cons name names ih =>
      have none : (manager.backend name).hits [] (stores name) = 0 :=
        Nat.le_zero.mp ((manager.backend name).hits_le [] false (stores name))
      rw [tierSlices, none]
      exact ih

omit [DecidableEq Name] in
theorem tierSlices_names (stores : Name → State) (names : List Name) (keys : List Key)
    (start : ℕ) :
    ((manager.tierSlices stores names keys start).map TierSlice.name).Sublist names := by
  induction names generalizing keys start with
  | nil => exact List.Sublist.slnil
  | cons name names ih =>
      rw [tierSlices]
      split
      · exact (ih keys start).cons name
      · exact (ih _ _).cons_cons name

omit [DecidableEq Name] in
/-- What a backend answers in a walk does not depend on the pins taken so far. -/
theorem hits_of_sameHits {stores initial : Name → State} (same : manager.SameHits stores initial)
    (name : Name) (keys : List Key) (pin : Bool) :
    ((manager.backend name).batchedContains keys pin (stores name)).2 =
      (manager.backend name).hits keys (initial name) := by
  rw [(manager.backend name).hits_pin]
  exact same name keys

variable (manager)

omit [DecidableEq Name] in
/-- A backend never has more than the keys that are left. -/
theorem hits_inside {allKeys : List Key} {total : ℕ} (inside : total ≤ allKeys.length)
    (name : Name) (state : State) :
    total + (manager.backend name).hits (allKeys.drop total) state ≤ allKeys.length := by
  have few := (manager.backend name).hits_le (allKeys.drop total) false state
  rw [List.length_drop] at few
  unfold PinBackend.hits
  omega

omit [DecidableEq Key] in
/-- A dictionary lists a new key last. -/
theorem reverse_entries_insert {Value : Type} {mapping : AList fun _ : Name => Value} {name : Name}
    (absent : name ∉ mapping) (value : Value) :
    (mapping.insert name value).entries.reverse = mapping.entries.reverse ++ [⟨name, value⟩] := by
  rw [AList.entries_insert_of_notMem absent, List.reverse_cons]

/-- The slices of `batched_contains`. -/
theorem containsLoop_slices (allKeys : List Key) (pin : Bool) {initial : Name → State}
    {names : List Name} (distinct : names.Nodup) {stores : Name → State}
    (same : manager.SameHits stores initial) {total : ℕ} (inside : total ≤ allKeys.length)
    {mapping : AList fun _ : Name => List Key} (fresh : ∀ name ∈ names, name ∉ mapping) :
    let slices := manager.tierSlices initial names (allKeys.drop total) total
    let contained := manager.containsLoop allKeys.length pin names (allKeys.drop total)
      ⟨stores, total, mapping⟩
    contained.totalHitChunks ≤ allKeys.length ∧
      Contiguous total contained.totalHitChunks (slices.map TierSlice.slice) ∧
      contained.blockMapping.entries.reverse = mapping.entries.reverse ++
        slices.map fun tier => ⟨tier.name, tier.slice.of allKeys⟩ := by
  induction names generalizing stores total mapping with
  | nil => exact ⟨inside, Contiguous.nil total, (List.append_nil _).symm⟩
  | cons name names ih =>
      obtain ⟨notLater, distinct⟩ := List.nodup_cons.mp distinct
      have kept := (sameHits_update manager stores name (allKeys.drop total)
        (if name ≠ manager.pdBackend then pin else false)).trans same
      have most := manager.hits_inside inside name (initial name)
      simp only [containsLoop, tierSlices, hits_of_sameHits same] at ih ⊢
      generalize (manager.backend name).hits (allKeys.drop total) (initial name) = hits at most ⊢
      by_cases none : hits = 0
      · rw [if_pos none, if_pos none]
        exact ih distinct kept inside fun other member => fresh other (List.mem_cons_of_mem _ member)
      · rw [if_neg none, if_neg none, List.map_cons, List.map_cons, Slice.of_add, List.drop_drop]
        have added := reverse_entries_insert (fresh name (List.mem_cons_self ..))
          ((allKeys.drop total).take hits)
        have proper : total < total + hits := by omega
        split
        · -- the early end: no key is left for the later backends
          rename_i full
          rw [full, List.drop_length, tierSlices_nil, added]
          exact ⟨le_rfl, .cons (full ▸ proper) (.nil _), rfl⟩
        · obtain ⟨few, contiguous, entries⟩ := ih distinct kept most
            (notMem_insert fresh notLater ((allKeys.drop total).take hits))
          refine ⟨few, .cons proper contiguous, ?_⟩
          rw [entries, added, List.append_assoc]
          rfl

/-- The slices of `get_block_mapping`. -/
theorem mappingLoop_slices (chunkInfos : List (ChunkInfo Key)) {initial : Name → State}
    {names : List Name} (distinct : names.Nodup) {stores : Name → State}
    (same : manager.SameHits stores initial) {total : ℕ}
    (inside : total ≤ (chunkInfos.map ChunkInfo.key).length)
    {mapping : AList fun _ : Name => List (ChunkInfo Key)}
    (fresh : ∀ name ∈ names, name ∉ mapping) :
    let keys := chunkInfos.map ChunkInfo.key
    (manager.mappingLoop chunkInfos keys.length names (keys.drop total) total stores
        mapping).2.entries.reverse =
      mapping.entries.reverse ++ (manager.tierSlices initial names (keys.drop total) total).map
        fun tier => ⟨tier.name, tier.slice.of chunkInfos⟩ := by
  intro keys
  induction names generalizing stores total mapping with
  | nil => exact (List.append_nil _).symm
  | cons name names ih =>
      obtain ⟨notLater, distinct⟩ := List.nodup_cons.mp distinct
      have kept := (sameHits_update manager stores name (keys.drop total) false).trans same
      have most := manager.hits_inside inside name (initial name)
      simp only [mappingLoop, tierSlices, hits_of_sameHits same] at ih ⊢
      change total + (manager.backend name).hits (keys.drop total) (initial name) ≤ _ at most
      generalize (manager.backend name).hits (keys.drop total) (initial name) = hits at most ⊢
      by_cases none : hits = 0
      · rw [if_pos none, if_pos none]
        exact ih distinct kept inside fun other member => fresh other (List.mem_cons_of_mem _ member)
      · rw [if_neg none, if_neg none, List.map_cons, Slice.of_add, List.drop_drop]
        have added := reverse_entries_insert (fresh name (List.mem_cons_self ..))
          ((chunkInfos.drop total).take hits)
        split
        · rename_i full
          rw [full, List.drop_length, tierSlices_nil, added]
          rfl
        · rw [ih distinct kept most
            (notMem_insert fresh notLater ((chunkInfos.drop total).take hits)), added,
            List.append_assoc]
          rfl

/-- The slices of `async_lookup_and_prefetch`. -/
theorem prefetchLoop_slices (allKeys : List Key) (allLengths : List ℕ) (pin : Bool)
    {initial : Name → State} (names : List Name) {stores : Name → State}
    (same : manager.SameHits stores initial) {total : ℕ} (inside : total ≤ allKeys.length) :
    (manager.prefetchLoop allKeys.length pin names (allKeys.drop total) (allLengths.drop total)
        total stores).2 =
      (manager.tierSlices initial names (allKeys.drop total) total).map
        fun tier => ⟨tier.name, tier.slice.of allKeys, tier.slice.boundaries allLengths⟩ := by
  induction names generalizing stores total with
  | nil => rfl
  | cons name names ih =>
      have kept := (sameHits_update manager stores name (allKeys.drop total) pin).trans same
      have most := manager.hits_inside inside name (initial name)
      simp only [prefetchLoop, tierSlices, hits_of_sameHits same] at ih ⊢
      generalize (manager.backend name).hits (allKeys.drop total) (initial name) = hits at most ⊢
      by_cases none : hits = 0
      · rw [if_pos none, if_pos none]
        exact ih kept inside
      · rw [if_neg none, if_neg none, List.map_cons, Slice.of_add, Slice.boundaries_add,
          List.drop_drop, List.drop_drop]
        split
        · rename_i full
          rw [full, List.drop_length, tierSlices_nil]
          rfl
        · rw [ih kept most]

omit [DecidableEq Name] in
/-- The tasks of the walk are those of the prefetch model, whose backends answer
with a number only. -/
theorem lookupTiers_eq (backends : Name → PrefetchBackend Key Obj) {stores : Name → State}
    (answers : ∀ name keys, (backends name).batchedAsyncContains keys =
      (manager.backend name).hits keys (stores name))
    (allKeys : List Key) (names : List Name) {total : ℕ} (inside : total ≤ allKeys.length) :
    lookupTiers allKeys.length (names.map backends) (allKeys.drop total) total =
      (manager.tierSlices stores names (allKeys.drop total) total).map fun tier =>
        ⟨tier.slice.of allKeys, (backends tier.name).batchedGetNonBlocking
          (tier.slice.of allKeys)⟩ := by
  induction names generalizing total with
  | nil => rfl
  | cons name names ih =>
      have most := manager.hits_inside inside name (stores name)
      simp only [List.map_cons, lookupTiers, tierSlices, answers]
      generalize (manager.backend name).hits (allKeys.drop total) (stores name) = hits at most ⊢
      by_cases none : hits = 0
      · rw [if_pos none, if_pos none]
        exact ih inside
      · rw [if_neg none, if_neg none, List.map_cons, Slice.of_add, List.drop_drop]
        split
        · rename_i full
          rw [full, List.drop_length, tierSlices_nil]
          rfl
        · rw [ih most]

/-! ### Agreement -/

/-- The three walks share out the same slices. -/
structure WalksShare (active : Name → Bool) (chunkInfos : List (ChunkInfo Key))
    (cumChunkLengths : List ℕ) (pin pinPrefetch : Bool) (stores : Name → State)
    (slices : List (TierSlice Name)) : Prop where
  inOrder : (slices.map TierSlice.name).Sublist (manager.activeBackends active)
  disjoint : (slices.map TierSlice.slice).Pairwise fun before after => before.stop ≤ after.start
  nonempty : ∀ tier ∈ slices, tier.slice.start < tier.slice.stop
  contained : (manager.batchedContains active (chunkInfos.map ChunkInfo.key) pin
      stores).blockMapping.entries.reverse =
    slices.map fun tier => ⟨tier.name, tier.slice.of (chunkInfos.map ChunkInfo.key)⟩
  mapped : (manager.getBlockMapping active chunkInfos stores).2.entries.reverse =
    slices.map fun tier => ⟨tier.name, tier.slice.of chunkInfos⟩
  prefetched : (manager.loadingTiers active (chunkInfos.map ChunkInfo.key) cumChunkLengths
      pinPrefetch stores).2 =
    slices.map fun tier => ⟨tier.name, tier.slice.of (chunkInfos.map ChunkInfo.key),
      tier.slice.boundaries cumChunkLengths⟩
  /-- Together the slices are the hit prefix. -/
  hitPrefix : (slices.map fun tier => tier.slice.of (chunkInfos.map ChunkInfo.key)).flatten =
    (chunkInfos.map ChunkInfo.key).take (manager.batchedContains active
      (chunkInfos.map ChunkInfo.key) pin stores).totalHitChunks

end StorageManager

/-- A backend of which only the answers matter. -/
def PinBackend.answering (hits : List Key → ℕ) (hits_le : ∀ keys, hits keys ≤ keys.length) :
    PinBackend Key Unit Unit where
  batchedContains keys _ state := (state, hits keys)
  unpin _ state := state
  change _ state := state
  pinCount _ _ := 0
  implementsPins := false
  hits_le keys _ _ := hits_le keys
  hits_pin _ _ _ := rfl
  hits_after _ _ _ _ := rfl
  pinCount_batchedContains _ _ _ _ := rfl
  pinCount_unpin _ _ _ held := absurd held (lt_irrefl 0)
  pinCount_change _ _ _ _ := rfl
  pinCount_of_ignored _ _ _ := rfl

/-- A backend that stores the given keys. -/
def PinBackend.storing (stored : List Key) : PinBackend Key Unit Unit :=
  PinBackend.answering (fun keys => (keys.takeWhile (· ∈ stored)).length) fun keys =>
    (keys.takeWhile_sublist _).length_le

/-- Three tiers; the one in the middle has no key that the first leaves over. -/
def threeTiers : StorageManager String ℕ Unit Unit where
  storageBackends := ["LocalCPUBackend", "LocalDiskBackend", "XdsBackend"]
  backend name :=
    if name = "LocalCPUBackend" then .storing [0, 1]
    else if name = "XdsBackend" then .storing [2, 3] else .storing [0, 3]
  pdBackend := "PDBackend"
  nodup := by decide
  pd_ignores := rfl

/-- Five chunks of two tokens. -/
def fiveChunks : List (ChunkInfo ℕ) := (List.range 5).map fun i => ⟨i, 2 * i, 2 * i + 2⟩

example : (threeTiers.loadingTiers (fun _ => true) [0, 1, 2, 3, 4] [0, 2, 4, 6, 8, 10] true
    fun _ => ()).2 =
      [⟨"LocalCPUBackend", [0, 1], [0, 2, 4]⟩, ⟨"XdsBackend", [2, 3], [4, 6, 8]⟩] := by
  decide

end LMCacheHcu.Lookup
