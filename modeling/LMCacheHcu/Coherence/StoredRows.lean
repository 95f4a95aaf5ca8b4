import LMCacheHcu.Coherence.CacheWorld

/-! # What the storage holds is right

A store reads the rows of the tokens that it names, and a key names all tokens up to
the end of its chunk. So whatever lands in the storage is right for every request
with the key, however stores, retrieves, copies and the serving engine take turns.
-/

namespace LMCacheHcu.Coherence

open Engine SlotRows

variable {Location Key Row : Type} {database : HashedChunks Key} {kv : List ℤ → Row}

/-! ### Rows read from the paged cache -/

/-- The slot of a token, at its place in the chunk. -/
theorem getElem?_chunkSlots {slotMapping : List ℤ} {start stop token : ℕ} (after : start ≤ token)
    (before : token < stop) :
    (chunkSlots slotMapping start stop)[token - start]? = slotMapping[token]? := by
  rw [chunkSlots, List.getElem?_drop, Nat.add_sub_cancel' after, List.getElem?_take_of_lt before]

/-- `from_gpu` on a chunk whose slots hold the rows of its tokens. -/
theorem rightRows_fromGpu {slotMapping : List ℤ} {paged : ℕ → Row} {ids : List ℤ}
    {chunk : ChunkInfo Key} (memory : ℕ → Row)
    (held : ∀ token, chunk.start ≤ token → token < chunk.stop →
      ∃ slot : ℕ, slotMapping[token]? = some (slot : ℤ) ∧
        paged slot = kv (ids.take (token + 1))) :
    RightRows kv ids chunk (fromGpu slotMapping paged chunk.start chunk.stop memory) := by
  intro token after before
  obtain ⟨slot, here, row⟩ := held token after before
  rw [← getElem?_chunkSlots after before] at here
  rw [fromGpu, gather_of_getElem? here, row]

/-- A key stands for all requests that begin with the tokens up to the end of its
chunk, and their rows are the same. -/
theorem PrefixKeyed.rightContent (keyed : PrefixKeyed database) {ids : List ℤ}
    {chunk : ChunkInfo Key} (member : chunk ∈ database.prefixChunks ids) {content : ℕ → Row}
    (right : RightRows kv ids chunk content) : RightContent kv database chunk.key content := by
  intro others other there same
  obtain ⟨rfl, shared⟩ := keyed.identified ids others chunk member other there same.symm
  intro token after before
  have short : token + 1 ≤ chunk.stop := before
  have begun := congrArg (List.take (token + 1)) shared
  rw [List.take_take, List.take_take, min_eq_left short] at begun
  rw [right token after before, begun]

/-! ### Stores -/

/-- The loop of a store allocates memory for chunks that it is given. -/
theorem mem_allocated {Obj : Type} {input : StoreInput} {enabled : Bool}
    {allocate : ChunkInfo Key → Option Obj} {pairs : List (ChunkInfo Key × Bool)}
    {progress : StoreProgress Key Obj} {object : ChunkInfo Key × Obj}
    (member : object ∈ (storeChunks database input enabled allocate pairs progress).allocated) :
    object ∈ progress.allocated ∨ ∃ pair ∈ pairs, pair.1 = object.1 := by
  have queued : ∀ (progress : StoreProgress Key Obj) chunk,
      (progress.queue database input enabled chunk).allocated = progress.allocated := by
    intro progress chunk
    unfold StoreProgress.queue
    split <;> rfl
  induction pairs generalizing progress with
  | nil => exact .inl member
  | cons pair pairs ih =>
      have later {front : Prop} (found : front ∨ ∃ other ∈ pairs, other.1 = object.1) :
          front ∨ ∃ other ∈ pair :: pairs, other.1 = object.1 :=
        found.imp_right fun ⟨other, there, same⟩ => ⟨other, List.mem_cons_of_mem _ there, same⟩
      obtain ⟨chunk, direct⟩ := pair
      cases direct with
      | true =>
          have found := ih member
          rw [queued] at found
          exact later found
      | false =>
          rw [storeChunks] at member
          cases allocated : allocate chunk with
          | none =>
              rw [allocated] at member
              exact .inl member
          | some memory =>
              rw [allocated] at member
              rcases ih member with front | behind
              · rw [queued] at front
                rcases List.mem_append.mp front with earlier | here
                · exact .inl earlier
                · obtain rfl := List.mem_singleton.mp here
                  exact .inr ⟨(chunk, false), List.mem_cons_self, rfl⟩
              · exact later (.inr behind)

/-- A store hands chunks of its tokens to the storage, none of them masked. -/
theorem mem_handed {state : StoreState} {manager : StoreManager Key (ℕ → Row)} {ids : List ℤ}
    {device : Option Storage.Device} {mask : Option (List Bool)}
    {result : StoreResult Key (ℕ → Row)}
    (stored : Engine.store state database manager (.tokens ids device) mask = .ok result)
    {chunk : ChunkInfo Key}
    (member : chunk ∈ result.directPut ∨ ∃ object ∈ result.batchedPut, object.1 = chunk) :
    chunk ∈ database.prefixChunks ids ∧ firstToken mask ≤ chunk.start := by
  unfold Engine.store at stored
  split at stored
  · cases stored
    rcases member with direct | ⟨object, there, -⟩
    · cases direct
    · cases there
  · split at stored
    · cases stored
    · rename_i chunks processed
      simp only at stored
      split at stored
      · cases stored
      · cases stored
        -- the chunks that are not masked
        have given : chunk ∈ chunks := by
          rcases member with direct | ⟨object, there, rfl⟩
          · obtain ⟨pair, inside, rfl⟩ := List.mem_map.mp direct
            exact (List.of_mem_zip (List.mem_of_mem_filter inside)).1
          · rcases mem_allocated there with nothing | ⟨pair, inside, same⟩
            · cases nothing
            · rw [← same]
              exact (List.of_mem_zip inside).1
        refine ⟨(HashedChunks.suffix_of_processTokens processed).subset given, ?_⟩
        cases mask with
        | none => exact Nat.zero_le _
        | some mask =>
            rw [database.processTokens_masked ids device mask chunks processed] at given
            exact of_decide_eq_true (List.mem_filter.mp given).2

/-- What a store hands to the storage is right. -/
theorem Coherent.afterStore (keyed : PrefixKeyed database)
    {world : CacheWorld Location Key Row} (coherent : Coherent kv database world)
    {call : StoreCall Location Key Row} (promised : call.Promised kv world)
    {result : StoreResult Key (ℕ → Row)}
    (stored : Engine.store call.state database call.manager (.tokens call.ids call.device)
      call.mask = .ok result) :
    Coherent kv database (world.afterStore call result) := by
  have right {chunk : ChunkInfo Key}
      (member : chunk ∈ result.directPut ∨ ∃ object ∈ result.batchedPut, object.1 = chunk)
      (memory : ℕ → Row) : RightContent kv database chunk.key
        (fromGpu call.slotMapping world.paged chunk.start chunk.stop memory) := by
    obtain ⟨there, unmasked⟩ := mem_handed stored member
    refine keyed.rightContent there (rightRows_fromGpu memory fun token after before => ?_)
    exact promised token (unmasked.trans after) (before.trans_le (keyed.within _ _ there))
  refine ⟨fun item member => ?_, fun item member => ?_⟩
  · rcases List.mem_append.mp member with new | old
    · obtain ⟨chunk, direct, rfl⟩ := List.mem_map.mp new
      exact right (.inl direct) _
    · exact coherent.published item old
  · rcases List.mem_append.mp member with new | old
    · obtain ⟨object, put, listed⟩ := List.mem_flatMap.mp new
      obtain ⟨location, -, rfl⟩ := List.mem_map.mp listed
      exact right (.inr ⟨object, put, rfl⟩) _
    · exact coherent.inFlight item old

/-! ### Runs -/

variable [DecidableEq Key]

/-- Every event leaves the storage right. -/
theorem Coherent.step (keyed : PrefixKeyed database) {world after : CacheWorld Location Key Row}
    (coherent : Coherent kv database world) {event : CacheEvent Location Row database}
    (promised : Promised kv world event) (stepped : world.step event = some after) :
    Coherent kv database after := by
  cases event with
  | computed paged =>
      cases stepped
      exact ⟨coherent.published, coherent.inFlight⟩
  | stored call =>
      rw [CacheWorld.step] at stepped
      split at stepped
      · rename_i result stored
        cases stepped
        exact coherent.afterStore keyed promised stored
      · cases stepped
        exact coherent
  | landed index =>
      obtain ⟨item, there, rfl⟩ := Option.map_eq_some_iff.mp stepped
      refine ⟨fun other member => ?_, fun other member => ?_⟩
      · rcases List.mem_cons.mp member with rfl | old
        · exact coherent.inFlight other (List.mem_of_getElem? there)
        · exact coherent.published other old
      · exact coherent.inFlight other (List.mem_of_mem_eraseIdx member)
  | copied index location =>
      obtain ⟨item, there, rfl⟩ := Option.map_eq_some_iff.mp stepped
      refine ⟨fun other member => ?_, coherent.inFlight⟩
      rcases List.mem_cons.mp member with rfl | old
      · exact coherent.published item (List.mem_of_getElem? there)
      · exact coherent.published other old
  | retrieved call =>
      rw [CacheWorld.step] at stepped
      split at stepped <;> cases stepped
      · exact ⟨coherent.published, coherent.inFlight⟩
      · exact coherent
  | retrievedAsync call =>
      rw [CacheWorld.step] at stepped
      split at stepped <;> cases stepped
      · exact ⟨coherent.published, coherent.inFlight⟩
      · exact coherent

/-- Every run leaves the storage right. -/
theorem Coherent.reached (keyed : PrefixKeyed database) {start world : CacheWorld Location Key Row}
    (coherent : Coherent kv database start) (reached : start.RunsTo kv database world) :
    Coherent kv database world :=
  reached.invariant coherent fun _ _ _ holds promised stepped => holds.step keyed promised stepped

end LMCacheHcu.Coherence
