import LMCacheHcu.Broadcast.Agreement
import LMCacheHcu.Coherence.RetrievedRows

/-! # What a prefetched retrieve brings

With async loading the objects were read when the lookup was made, and other stores
and retrieves come in between. The retrieve takes those of its leading chunks; all
tokens that it marks have their rows in the paged cache afterwards.
-/

namespace LMCacheHcu.Coherence

open Engine

variable {Location Key Row : Type} [DecidableEq Key] {database : HashedChunks Key}
  {kv : List ℤ → Row}

/-! ### Delivered objects -/

section Delivered

open Prefetch

variable {Obj : Type}

/-- An object of the map is one of the pairs. -/
theorem lookup_memoryObjMap {items : List (TierItem Key Obj)}
    {before after : AList fun _ : Key => Obj} (mapped : memoryObjMap items before = .ok after)
    {key : Key} {obj : Obj} (found : after.lookup key = some obj) :
    before.lookup key = some obj ∨ .pair key obj ∈ items := by
  induction items generalizing before with
  | nil =>
      cases mapped
      exact .inl found
  | cons item items ih =>
      cases item with
      | memoryObj other => cases mapped
      | pair name other =>
          rcases ih mapped with earlier | later
          · by_cases same : key = name
            · subst same
              rw [AList.lookup_insert, Option.some.injEq] at earlier
              rw [earlier]
              exact .inr List.mem_cons_self
            · rw [AList.lookup_insert_ne same] at earlier
              exact .inl earlier
          · exact .inr (List.mem_cons_of_mem _ later)

/-- The map has the keys of the pairs. -/
theorem mem_memoryObjMap {items : List (TierItem Key Obj)}
    {before after : AList fun _ : Key => Obj} (mapped : memoryObjMap items before = .ok after)
    (key : Key) : key ∈ after ↔ key ∈ before ∨ ∃ obj, .pair key obj ∈ items := by
  induction items generalizing before with
  | nil =>
      cases mapped
      simp
  | cons item items ih =>
      cases item with
      | memoryObj other => cases mapped
      | pair name other =>
          rw [ih mapped, AList.mem_insert]
          constructor
          · rintro ((rfl | earlier) | ⟨obj, later⟩)
            · exact .inr ⟨other, List.mem_cons_self⟩
            · exact .inl earlier
            · exact .inr ⟨obj, List.mem_cons_of_mem _ later⟩
          · rintro (earlier | ⟨obj, member⟩)
            · exact .inl (.inr earlier)
            · rcases List.mem_cons.mp member with same | later
              · cases same
                exact .inl (.inl rfl)
              · exact .inr ⟨obj, later⟩

/-- A chunk with its object of the map. -/
def deliveredChunk (map : AList fun _ : Key => Obj) (chunk : ChunkInfo Key) :
    Option (ProcessedChunk Key Obj) :=
  (map.lookup chunk.key).map fun memoryObj => ⟨chunk.key, memoryObj, chunk.start, chunk.stop⟩

/-- The loop takes the chunks before the first one without an object. -/
theorem takeDelivered_chunks (sizes : KvSizes Obj) (map : AList fun _ : Key => Obj)
    (chunks : List (ChunkInfo Key)) (progress : AsyncProgress Key Obj) :
    (takeDelivered sizes map chunks progress).chunks = progress.chunks ++
      (chunks.takeWhile fun chunk => chunk.key ∈ map).filterMap (deliveredChunk map) := by
  induction chunks generalizing progress with
  | nil => simp [takeDelivered]
  | cons chunk more ih =>
      rw [takeDelivered, List.takeWhile_cons]
      cases found : map.lookup chunk.key with
      | none =>
          have absent : chunk.key ∉ map := AList.lookup_eq_none.mp found
          simp [absent]
      | some memoryObj =>
          have present : chunk.key ∈ map := AList.lookup_isSome.mp (by rw [found]; rfl)
          have delivered : deliveredChunk map chunk =
              some ⟨chunk.key, memoryObj, chunk.start, chunk.stop⟩ := by
            rw [deliveredChunk, found, Option.map_some]
          simp only [ih, present, decide_true, if_true, List.filterMap_cons, delivered,
            List.append_assoc, List.singleton_append]

end Delivered

/-- In an ordered list the leading members with a property are those up to which all
have it. -/
theorem mem_takeWhile_iff {Member : Type*} {before : Member → Member → Prop} {xs : List Member}
    {test : Member → Bool} (ordered : xs.Pairwise fun left right => before left right ∧
      ¬ before right left) (reflexive : ∀ x, before x x) (x : Member) :
    x ∈ xs.takeWhile test ↔ x ∈ xs ∧ ∀ other ∈ xs, before other x → test other = true := by
  induction xs with
  | nil => simp
  | cons head tail ih =>
      obtain ⟨ahead, rest⟩ := List.pairwise_cons.mp ordered
      by_cases passes : test head = true
      · rw [List.takeWhile_cons_of_pos passes, List.mem_cons, List.mem_cons, ih rest]
        constructor
        · rintro (rfl | ⟨member, all⟩)
          · refine ⟨.inl rfl, fun other there earlier => ?_⟩
            rcases List.mem_cons.mp there with rfl | later
            · exact passes
            · exact absurd earlier (ahead other later).2
          · refine ⟨.inr member, fun other there earlier => ?_⟩
            rcases List.mem_cons.mp there with rfl | later
            · exact passes
            · exact all other later earlier
        · rintro ⟨rfl | member, all⟩
          · exact .inl rfl
          · exact .inr ⟨member, fun other later earlier =>
              all other (List.mem_cons_of_mem _ later) earlier⟩
      · rw [List.takeWhile_cons_of_neg passes]
        refine iff_of_false List.not_mem_nil fun ⟨member, all⟩ => passes ?_
        rcases List.mem_cons.mp member with rfl | later
        · exact all _ List.mem_cons_self (reflexive _)
        · exact all head List.mem_cons_self (ahead x later).1

omit [DecidableEq Key] in
/-- The chunks of a request start one after the other. -/
theorem Wanted.ordered (wanted : Wanted database) :
    wanted.request.chunkInfos.Pairwise fun left right =>
      left.start ≤ right.start ∧ ¬ right.start ≤ left.start := by
  have increasing := (database.increasing wanted.ids).sublist
    (HashedChunks.suffix_of_processTokens wanted.processed).sublist
  exact increasing.imp fun less => ⟨less.le, Nat.not_le.mpr less⟩

namespace AsyncCall

variable (call : AsyncCall Row database)

/-- The loading event has an object for the key. -/
def Delivered (key : Key) : Prop :=
  ∃ future, call.future = some future ∧ ∃ content, .pair key content ∈ future.flatten

variable {call}

open Prefetch Broadcast in
/-- An asynchronous retrieve takes the leading chunks with an object in its event. -/
theorem result_spec {result : RetrieveResult Key (ℕ → Row)} (ran : call.result = .ok result) :
    ∃ map : AList fun _ : Key => ℕ → Row, (∀ key, key ∈ map ↔ call.Delivered key) ∧
      (∀ key content, map.lookup key = some content →
        ∃ future, call.future = some future ∧ .pair key content ∈ future.flatten) ∧
      let taken := (call.request.chunkInfos.takeWhile fun chunk => chunk.key ∈ map).filterMap
        (deliveredChunk map)
      result.retMask = markChunks (List.replicate call.request.numTokens false) taken ∧
        result.copiedToGpu = taken.map fun chunk => (chunk.memoryObj, chunk.start, chunk.stop) := by
  unfold AsyncCall.result Prefetch.retrieve asyncProcessTokensInternal at ran
  simp only [Bool.not_true, Bool.or_self, Bool.false_eq_true, if_false] at ran
  cases arrived : call.future with
  | none =>
      rw [arrived] at ran
      obtain rfl := Except.ok.inj ran
      refine ⟨∅, fun key => iff_of_false (AList.notMem_empty key) ?_, ?_, ?_⟩
      · rintro ⟨future, here, -⟩
        rw [arrived] at here
        cases here
      · intro key content found
        cases found
      · have none_taken : (call.request.chunkInfos.takeWhile fun chunk =>
            chunk.key ∈ (∅ : AList fun _ : Key => ℕ → Row)) = [] := by
          cases call.request.chunkInfos with
          | nil => rfl
          | cons chunk more => simp
        rw [none_taken]
        exact ⟨rfl, rfl⟩
  | some future =>
      rw [arrived] at ran
      cases mapped : memoryObjMap future.flatten (∅ : AList fun _ : Key => ℕ → Row) with
      | error failure =>
          simp only [mapped] at ran
          cases ran
      | ok map =>
          simp only [mapped] at ran
          obtain rfl := Except.ok.inj ran
          refine ⟨map, fun key => ?_, fun key content found => ?_, ?_⟩
          · rw [mem_memoryObjMap mapped]
            constructor
            · rintro (nothing | ⟨content, member⟩)
              · exact absurd nothing (AList.notMem_empty key)
              · exact ⟨future, arrived, content, member⟩
            · rintro ⟨other, here, content, member⟩
              obtain rfl := Option.some.inj (arrived.symm.trans here)
              exact .inr ⟨content, member⟩
          · rcases lookup_memoryObjMap mapped found with nothing | member
            · cases nothing
            · exact ⟨future, rfl, member⟩
          · let progress : AsyncProgress Key (ℕ → Row) :=
              ⟨List.replicate call.request.numTokens false, [], 0, []⟩
            have chunks := takeDelivered_chunks call.sizes map call.request.chunkInfos progress
            have mask : (takeDelivered call.sizes map call.request.chunkInfos progress).retMask =
                markChunks (List.replicate call.request.numTokens false)
                  (takeDelivered call.sizes map call.request.chunkInfos progress).chunks :=
              takeDelivered_retMask call.sizes map _ rfl
            rw [chunks] at mask
            exact ⟨mask, congrArg _ chunks⟩

/-- The copied objects are those of the leading delivered chunks. -/
theorem mem_copied {result : RetrieveResult Key (ℕ → Row)} (ran : call.result = .ok result)
    {object : (ℕ → Row) × ℕ × ℕ} (member : object ∈ result.copiedToGpu) :
    ∃ chunk ∈ call.request.chunkInfos, chunk.start = object.2.1 ∧ chunk.stop = object.2.2 ∧
      ∃ future, call.future = some future ∧ .pair chunk.key object.1 ∈ future.flatten := by
  obtain ⟨map, -, content, -, copied⟩ := result_spec ran
  rw [copied] at member
  obtain ⟨taken, listed, rfl⟩ := List.mem_map.mp member
  obtain ⟨chunk, leading, delivered⟩ := List.mem_filterMap.mp listed
  obtain ⟨memoryObj, found, rfl⟩ := Option.map_eq_some_iff.mp delivered
  exact ⟨chunk, (List.takeWhile_sublist _).subset leading, rfl, rfl, content _ _ found⟩

/-- The marked tokens are those of the copied objects. -/
theorem marked_iff_copied {result : RetrieveResult Key (ℕ → Row)} (ran : call.result = .ok result)
    (token : ℕ) : result.retMask[token]? = some true ↔
      ∃ object ∈ result.copiedToGpu, object.2.1 ≤ token ∧ token < object.2.2 := by
  have bounded {object : (ℕ → Row) × ℕ × ℕ} (member : object ∈ result.copiedToGpu) :
      object.2.2 ≤ call.request.numTokens := by
    obtain ⟨chunk, there, -, stop, -⟩ := mem_copied ran member
    rw [← stop]
    exact call.request.bounded chunk there
  obtain ⟨map, -, -, mask, copied⟩ := result_spec ran
  rw [mask, Broadcast.markChunks_true_iff, List.length_replicate]
  have blank := RangeMask.replicate_false_not_true call.request.numTokens token
  simp only [blank, false_or]
  rw [copied] at bounded ⊢
  constructor
  · rintro ⟨-, chunk, taken, after, before⟩
    exact ⟨_, List.mem_map_of_mem taken, after, before⟩
  · rintro ⟨object, member, after, before⟩
    refine ⟨before.trans_le (bounded member), ?_⟩
    obtain ⟨chunk, taken, rfl⟩ := List.mem_map.mp member
    exact ⟨chunk, taken, after, before⟩

/-- The marked tokens are those of the chunks up to which everything was delivered. -/
theorem marked_iff_delivered {result : RetrieveResult Key (ℕ → Row)}
    (ran : call.result = .ok result) (token : ℕ) : result.retMask[token]? = some true ↔
      ∃ chunk ∈ call.request.chunkInfos, (chunk.start ≤ token ∧ token < chunk.stop) ∧
        ∀ other ∈ call.request.chunkInfos, other.start ≤ chunk.start →
          call.Delivered other.key := by
  rw [marked_iff_copied ran]
  obtain ⟨map, delivered, -, -, copied⟩ := result_spec ran
  have leading (chunk : ChunkInfo Key) :
      (chunk ∈ call.request.chunkInfos.takeWhile fun chunk => chunk.key ∈ map) ↔
        chunk ∈ call.request.chunkInfos ∧ ∀ other ∈ call.request.chunkInfos,
          other.start ≤ chunk.start → decide (other.key ∈ map) = true :=
    mem_takeWhile_iff call.ordered (fun _ => le_rfl) chunk
  simp only [decide_eq_true_eq, delivered] at leading
  rw [copied]
  constructor
  · rintro ⟨object, member, covers⟩
    obtain ⟨taken, listed, rfl⟩ := List.mem_map.mp member
    obtain ⟨chunk, first, found⟩ := List.mem_filterMap.mp listed
    obtain ⟨memoryObj, -, rfl⟩ := Option.map_eq_some_iff.mp found
    have all := (leading chunk).mp (by simpa only [delivered] using first)
    exact ⟨chunk, all.1, covers, all.2⟩
  · rintro ⟨chunk, member, covers, all⟩
    have first := (leading chunk).mpr ⟨member, all⟩
    have present := (delivered chunk.key).mpr (all chunk member le_rfl)
    obtain ⟨memoryObj, found⟩ := Option.isSome_iff_exists.mp (AList.lookup_isSome.mpr present)
    have taken : deliveredChunk map chunk =
        some ⟨chunk.key, memoryObj, chunk.start, chunk.stop⟩ := by
      rw [deliveredChunk, found, Option.map_some]
    refine ⟨_, List.mem_map_of_mem (List.mem_filterMap.mpr ⟨chunk, ?_, taken⟩), covers⟩
    simpa only [delivered] using first

variable {world : CacheWorld Location Key Row}

/-- Every copied object has the rows of its chunk's tokens. -/
theorem Promised.copied_right (promised : call.Promised world)
    (coherent : Coherent kv database world) {result : RetrieveResult Key (ℕ → Row)}
    (ran : call.result = .ok result) {object : (ℕ → Row) × ℕ × ℕ}
    (member : object ∈ result.copiedToGpu) {token : ℕ} (after : object.2.1 ≤ token)
    (before : token < object.2.2) :
    object.1 (token - object.2.1) = kv (call.ids.take (token + 1)) := by
  obtain ⟨chunk, there, start, stop, future, arrived, pair⟩ := mem_copied ran member
  obtain ⟨location, published⟩ := promised.delivered future arrived _ _ pair
  have known := (HashedChunks.suffix_of_processTokens call.processed).subset there
  rw [← start] at after ⊢
  rw [← stop] at before
  exact coherent.published _ published _ _ known rfl token after before

end AsyncCall

/-- **Every prefetched retrieve of every run brings the right rows.** Whatever happened
since its objects were read, a retrieve with async loading marks exactly the tokens of
the chunks up to which everything was delivered, fills the slots of those that vLLM
lacks with their rows, and leaves the slots of no such token alone. -/
theorem prefetched_right (keyed : PrefixKeyed database)
    {start world : CacheWorld Location Key Row} (coherent : Coherent kv database start)
    (reached : start.RunsTo kv database world) {call : AsyncCall Row database}
    (promised : call.Promised world) {result : RetrieveResult Key (ℕ → Row)}
    (ran : call.result = .ok result) :
    ∃ after, world.step (.retrievedAsync call) = some after ∧
      (∀ token, result.retMask[token]? = some true ↔
        ∃ chunk ∈ call.request.chunkInfos, (chunk.start ≤ token ∧ token < chunk.stop) ∧
          ∀ other ∈ call.request.chunkInfos, other.start ≤ chunk.start →
            call.Delivered other.key) ∧
      (∀ token slot : ℕ, call.slotMapping[token]? = some (slot : ℤ) → call.vllmCached ≤ token →
        result.retMask[token]? = some true → after.paged slot = kv (call.ids.take (token + 1))) ∧
      ∀ slot : ℕ, (∀ token : ℕ, call.slotMapping[token]? = some (slot : ℤ) →
        call.vllmCached ≤ token → result.retMask[token]? ≠ some true) →
          after.paged slot = world.paged slot := by
  have now := coherent.reached keyed reached
  have stepped : world.step (.retrievedAsync call) =
      some (world.afterRetrieve call.toWanted world.paged result) := by
    rw [CacheWorld.step, ran]
  refine ⟨_, stepped, AsyncCall.marked_iff_delivered ran, ?_, ?_⟩
  · intro token slot here fresh marked
    apply batchedToGpu_eq promised.distinct here fresh
    · intro object member after before
      exact promised.copied_right now ran member after before
    · exact .inl ((AsyncCall.marked_iff_copied ran token).mp marked)
  · intro slot absent
    refine batchedToGpu_kept fun object member token after before fresh here => ?_
    exact absent token here fresh
      ((AsyncCall.marked_iff_copied ran token).mpr ⟨object, member, after, before⟩)

/-- A retrieve of the same three tokens whose event has the second one twice. -/
def prefetchThree : AsyncCall ℤ prefixTokens where
  toWanted := retrieveThree.toWanted
  removeAfterRetrieve := false
  sizes := ⟨id, fun _ => 0⟩
  future := some [[.pair [5, 6] secondRows], [.pair [5, 6] secondRows]]

theorem prefetchThree_promised : prefetchThree.Promised storedWorld where
  distinct := retrieveThree_promised.distinct
  delivered future arrived key content member := by
    obtain rfl := Option.some.inj arrived
    refine ⟨(), ?_⟩
    simp only [List.flatten_cons, List.flatten_nil, List.append_nil, List.singleton_append,
      List.mem_cons, List.not_mem_nil, or_false, or_self, Prefetch.TierItem.pair.injEq] at member
    obtain ⟨rfl, rfl⟩ := member
    exact List.mem_cons_self

theorem prefetched_right_three : ∃ result after,
    prefetchThree.result = .ok result ∧ result.retMask = [false, true, false] ∧
      storedWorld.step (.retrievedAsync prefetchThree) = some after ∧ after.paged 9 = 11 ∧
        after.paged 8 = 0 := by
  let result : RetrieveResult (List ℤ) (ℕ → ℤ) :=
    ⟨[false, true, false], [(secondRows, 1, 2)], [], []⟩
  have ran : prefetchThree.result = .ok result := by rfl
  obtain ⟨after, stepped, -, right, kept⟩ := prefetched_right prefixTokens_keyed
    emptyWorld_coherent runsTo_storedWorld prefetchThree_promised ran
  refine ⟨result, after, ran, rfl, stepped, right 1 9 rfl le_rfl rfl, ?_⟩
  refine kept 8 fun token here fresh => ?_
  have first := prefetchThree_promised.distinct token 0 8 here rfl
  rw [first] at fresh
  exact absurd fresh (by decide)

end LMCacheHcu.Coherence
