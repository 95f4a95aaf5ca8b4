import LMCacheHcu.Engine.ProcessTokens
import LMCacheHcu.Storage.Tensor
import Mathlib.Data.List.Sort

/-! # The events of a store

`LMCacheEngine.store` hands some chunks of a request directly to the storage and
then walks over all of them: it allocates a memory object for each of the others
and queues one `CacheStoreEvent` for every chunk on the way. The first failed
allocation ends the walk. The objects of the chunks before it go to
`batched_put`.
-/

namespace LMCacheHcu.Engine

/-- What a store is given: token ids, in a list or in a tensor on a device, or
the hashes of the chunks and the numbers of their tokens. -/
inductive StoreInput
  | tokens (ids : List ℤ) (device : Option Storage.Device)
  | hashes (hashes : List ℤ) (offsets : List ℕ)
deriving DecidableEq, Repr

inductive Medium
  | cpu
  | device (device : Storage.Device)
deriving DecidableEq, Repr

structure CacheStoreEvent where
  blockHashes : List ℤ
  parentBlockHash : Option ℤ
  tokenIds : List ℤ
  blockSize : ℕ
  medium : Medium
deriving DecidableEq, Repr

/-- The token database of an engine. A request's chunks begin with its first
token; a mask leaves out those in its leading run of False. -/
structure HashedChunks (Key : Type) where
  chunkHash : Key → ℤ
  prefixChunks : List ℤ → List (ChunkInfo Key)
  firstStart : ∀ tokens chunk rest, prefixChunks tokens = chunk :: rest → chunk.start = 0
  increasing : ∀ tokens, (prefixChunks tokens).Pairwise fun before after =>
    before.start < after.start
  /-- None is the `ValueError` for a mask that ends inside a chunk. -/
  processTokens : StoreInput → Option (List Bool) → Option (List (ChunkInfo Key))
  processTokens_unmasked : ∀ ids device,
    processTokens (.tokens ids device) none = some (prefixChunks ids)
  processTokens_masked : ∀ ids device mask chunks,
    processTokens (.tokens ids device) (some mask) = some chunks →
      chunks = (prefixChunks ids).filter fun chunk => mask.count false ≤ chunk.start
  convertTokensToList : List ℤ → ℕ → ℕ → List ℤ
  convertTokensToList_eq : ∀ ids start stop,
    convertTokensToList ids start stop = (ids.take stop).drop start

/-- The storage manager as a store sees it: the direct store, with one boolean
for every chunk, and the allocation of a chunk's memory object. -/
structure StoreManager (Key Obj : Type) where
  supportsDirectIo : Bool
  batchedDirectPut : List (ChunkInfo Key) → List Bool
  allocate : ChunkInfo Key → Option Obj
  direct_aligned : ∀ chunks, (batchedDirectPut chunks).length = chunks.length

/-- The state of the engine when a store starts. -/
structure StoreState where
  healthy : Bool
  passive : Bool
  frozen : Bool
  kvEventsEnabled : Bool
deriving DecidableEq, Repr

variable {Key Obj : Type}

/-- The local variables of `store`'s loop; `allocated` is `starts`, `ends`,
`keys` and `memory_objs`. -/
structure StoreProgress (Key Obj : Type) where
  allocated : List (ChunkInfo Key × Obj)
  kvEvents : List CacheStoreEvent
  prevKey : ℤ

section Loop

variable (database : HashedChunks Key) (input : StoreInput)

/-- The event of a chunk. -/
def storedEvent (prevKey : ℤ) (chunk : ChunkInfo Key) : CacheStoreEvent where
  blockHashes := [database.chunkHash chunk.key]
  parentBlockHash := if chunk.start = 0 then none else some prevKey
  tokenIds :=
    match input with
    | .tokens ids _ => database.convertTokensToList ids chunk.start chunk.stop
    | .hashes hashes _ => (hashes.take (chunk.stop + 1)).drop chunk.start
  blockSize := chunk.stop - chunk.start
  medium :=
    match input with
    | .tokens _ (some device) => .device device
    | _ => .cpu

/-- The end of an iteration of the loop. -/
def StoreProgress.queue (progress : StoreProgress Key Obj) (enabled : Bool)
    (chunk : ChunkInfo Key) : StoreProgress Key Obj :=
  if enabled then
    { progress with
      kvEvents := progress.kvEvents ++ [storedEvent database input progress.prevKey chunk]
      prevKey := database.chunkHash chunk.key }
  else progress

/-- The loop over the chunks and their direct results. -/
def storeChunks (enabled : Bool) (allocate : ChunkInfo Key → Option Obj) :
    List (ChunkInfo Key × Bool) → StoreProgress Key Obj → StoreProgress Key Obj
  | [], progress => progress
  | (chunk, true) :: more, progress =>
      storeChunks enabled allocate more (progress.queue database input enabled chunk)
  | (chunk, false) :: more, progress =>
      match allocate chunk with
      | none => progress
      | some memoryObj =>
          storeChunks enabled allocate more
            (StoreProgress.queue database input
              { progress with allocated := progress.allocated ++ [(chunk, memoryObj)] }
              enabled chunk)

end Loop

/-- What a store hands to the storage, and the events it queues. -/
structure StoreResult (Key Obj : Type) where
  directPut : List (ChunkInfo Key)
  batchedPut : List (ChunkInfo Key × Obj)
  kvEvents : List CacheStoreEvent

/-- The direct results of a store's chunks. -/
def StoreManager.directResults (manager : StoreManager Key Obj) (chunks : List (ChunkInfo Key)) :
    List Bool :=
  if !chunks.isEmpty && manager.supportsDirectIo then manager.batchedDirectPut chunks
  else List.replicate chunks.length false

/-- `LMCacheEngine.store`. -/
def store (state : StoreState) (database : HashedChunks Key) (manager : StoreManager Key Obj)
    (input : StoreInput) (mask : Option (List Bool)) :
    Except ProcessError (StoreResult Key Obj) :=
  if !state.healthy || state.passive || state.frozen then .ok ⟨[], [], []⟩
  else
    match database.processTokens input mask with
    | none => .error .valueError
    | some chunks =>
        let direct := manager.directResults chunks
        -- `zip(..., strict=True)` raises on lists of different lengths
        if chunks.length ≠ direct.length then .error .valueError
        else
          let progress := storeChunks database input state.kvEventsEnabled manager.allocate
            (chunks.zip direct) ⟨[], [], 0⟩
          .ok
            { directPut := ((chunks.zip direct).filter Prod.snd).map Prod.fst
              batchedPut := progress.allocated
              kvEvents := progress.kvEvents }

/-! ### What the events say -/

/-- The chunks that were handed to the storage, in the order of the request. -/
def StoreResult.handed (result : StoreResult Key Obj) : List (ChunkInfo Key) :=
  (result.directPut ++ result.batchedPut.map Prod.fst).mergeSort fun before after =>
    before.start ≤ after.start

/-- The hash of the chunk before a chunk in the prefix of a request. -/
def HashedChunks.parentHash (database : HashedChunks Key) (ids : List ℤ)
    (chunk : ChunkInfo Key) : Option ℤ :=
  ((database.prefixChunks ids).filter fun before => before.start < chunk.start).getLast?.map
    fun before => database.chunkHash before.key

/-- The event is the one of the chunk in a request. -/
structure Announces (database : HashedChunks Key) (ids : List ℤ) (event : CacheStoreEvent)
    (chunk : ChunkInfo Key) : Prop where
  blockHashes : event.blockHashes = [database.chunkHash chunk.key]
  parentBlockHash : event.parentBlockHash = database.parentHash ids chunk
  tokenIds : event.tokenIds = (ids.take chunk.stop).drop chunk.start
  blockSize : event.blockSize = chunk.stop - chunk.start

/-- **The events of a store are those of the chunks it handed to the storage.** -/
def EventsExact (database : HashedChunks Key) (ids : List ℤ) (result : StoreResult Key Obj) :
    Prop :=
  List.Forall₂ (Announces database ids) result.kvEvents result.handed

/-- The chunk was stored directly, or an object can be allocated for it. -/
def StoreManager.handles (manager : StoreManager Key Obj) (pair : ChunkInfo Key × Bool) : Bool :=
  pair.2 || (manager.allocate pair.1).isSome

/-- **When the events are exact.** No chunk after a failed allocation was stored
directly, and the first chunk of the walk begins the request or follows a chunk
with the placeholder's hash. -/
structure EventsFit (database : HashedChunks Key) (manager : StoreManager Key Obj)
    (ids : List ℤ) (chunks : List (ChunkInfo Key)) : Prop where
  noneLater : ∀ pair ∈ (chunks.zip (manager.directResults chunks)).dropWhile manager.handles,
    pair.2 = false
  placeholder : ∀ pair, (chunks.zip (manager.directResults chunks)).head? = some pair →
    manager.handles pair = true → pair.1.start = 0 ∨ database.parentHash ids pair.1 = some 0

/-! ### The loop -/

section Walk

variable (database : HashedChunks Key) (input : StoreInput)

/-- The events of a run of chunks. -/
def storedEvents : ℤ → List (ChunkInfo Key) → List CacheStoreEvent
  | _, [] => []
  | prevKey, chunk :: more =>
      storedEvent database input prevKey chunk :: storedEvents (database.chunkHash chunk.key) more

@[simp] theorem length_storedEvents (prevKey : ℤ) (chunks : List (ChunkInfo Key)) :
    (storedEvents database input prevKey chunks).length = chunks.length := by
  induction chunks generalizing prevKey with
  | nil => rfl
  | cons chunk more ih => exact congrArg (· + 1) (ih _)

/-- The loop queues the events of the chunks before the first failed allocation,
and keeps the objects of those that were not stored directly. -/
theorem storeChunks_eq (manager : StoreManager Key Obj) (pairs : List (ChunkInfo Key × Bool))
    (progress : StoreProgress Key Obj) :
    (storeChunks database input true manager.allocate pairs progress).kvEvents =
        progress.kvEvents ++
          storedEvents database input progress.prevKey
            ((pairs.takeWhile manager.handles).map Prod.fst) ∧
      (storeChunks database input true manager.allocate pairs progress).allocated.map Prod.fst =
        progress.allocated.map Prod.fst ++
          (((pairs.takeWhile manager.handles).filter fun pair => !pair.2).map Prod.fst) := by
  induction pairs generalizing progress with
  | nil => simp [storeChunks, storedEvents]
  | cons pair more ih =>
      obtain ⟨chunk, direct⟩ := pair
      cases direct with
      | true =>
          have handled : manager.handles (chunk, true) = true := rfl
          rw [storeChunks, (ih _).1, (ih _).2, List.takeWhile_cons_of_pos handled]
          simp [StoreProgress.queue, storedEvents]
      | false =>
          rw [storeChunks]
          cases object : manager.allocate chunk with
          | none =>
              have failed : ¬ manager.handles (chunk, false) = true := by
                simp [StoreManager.handles, object]
              rw [List.takeWhile_cons_of_neg failed]
              simp [storedEvents]
          | some memoryObj =>
              have handled : manager.handles (chunk, false) = true := by
                simp [StoreManager.handles, object]
              simp only
              rw [(ih _).1, (ih _).2, List.takeWhile_cons_of_pos handled]
              simp [StoreProgress.queue, storedEvents]

end Walk

/-! ### Parents -/

section Parents

variable {database : HashedChunks Key} {ids : List ℤ}

/-- The parent hash at a place of the request. -/
theorem parentHash_split {front back : List (ChunkInfo Key)} {chunk : ChunkInfo Key}
    (split : database.prefixChunks ids = front ++ chunk :: back) :
    database.parentHash ids chunk =
      front.getLast?.map fun before => database.chunkHash before.key := by
  have increasing := database.increasing ids
  rw [split, List.pairwise_append, List.pairwise_cons] at increasing
  obtain ⟨_, ⟨after, _⟩, before⟩ := increasing
  have kept : front.filter (fun each => each.start < chunk.start) = front :=
    List.filter_eq_self.mpr fun each member =>
      decide_eq_true (before each member chunk (List.mem_cons_self ..))
  have dropped : (chunk :: back).filter (fun each => each.start < chunk.start) = [] := by
    rw [List.filter_eq_nil_iff]
    intro each member
    rcases List.mem_cons.mp member with rfl | later
    · simp
    · simpa using (after each later).le
  rw [HashedChunks.parentHash, split, List.filter_append, kept, dropped, List.append_nil]

/-- A chunk starts the request exactly when no chunk is before it. -/
theorem start_eq_zero_iff {front back : List (ChunkInfo Key)} {chunk : ChunkInfo Key}
    (split : database.prefixChunks ids = front ++ chunk :: back) :
    chunk.start = 0 ↔ front = [] := by
  constructor
  · intro zero
    have increasing := database.increasing ids
    rw [split, List.pairwise_append] at increasing
    cases front with
    | nil => rfl
    | cons first rest =>
        have less := increasing.2.2 first (List.mem_cons_self ..) chunk (List.mem_cons_self ..)
        omega
  · rintro rfl
    exact database.firstStart ids chunk back split

/-- An event announces its chunk when it has the right parent. -/
theorem announces_iff (device : Option Storage.Device) (prevKey : ℤ) (chunk : ChunkInfo Key) :
    Announces database ids (storedEvent database (.tokens ids device) prevKey chunk) chunk ↔
      (if chunk.start = 0 then none else some prevKey) = database.parentHash ids chunk :=
  ⟨Announces.parentBlockHash, fun parent =>
    ⟨rfl, parent, database.convertTokensToList_eq .., rfl⟩⟩

/-- The events of a run of chunks that follows others are exact when the variable
has the hash of the one before. -/
theorem storedEvents_follow (device : Option Storage.Device)
    {front chunks back : List (ChunkInfo Key)} {before : ChunkInfo Key}
    (split : database.prefixChunks ids = front ++ before :: (chunks ++ back)) :
    List.Forall₂ (Announces database ids)
      (storedEvents database (.tokens ids device) (database.chunkHash before.key) chunks)
      chunks := by
  induction chunks generalizing front before with
  | nil => exact .nil
  | cons chunk more ih =>
      have shifted : database.prefixChunks ids =
          (front ++ [before]) ++ chunk :: (more ++ back) := by
        rw [split, List.append_assoc]
        rfl
      refine .cons ((announces_iff device _ chunk).mpr ?_) (ih shifted)
      have later : chunk.start ≠ 0 := fun zero =>
        List.append_ne_nil_of_right_ne_nil _ (List.cons_ne_nil _ _)
          ((start_eq_zero_iff shifted).mp zero)
      rw [parentHash_split shifted, if_neg later, List.getLast?_concat]
      rfl

/-- The events of a run of chunks are exact when the first of them has its parent. -/
theorem storedEvents_exact_iff (device : Option Storage.Device)
    {front chunks back : List (ChunkInfo Key)}
    (split : database.prefixChunks ids = front ++ (chunks ++ back)) :
    List.Forall₂ (Announces database ids)
        (storedEvents database (.tokens ids device) 0 chunks) chunks ↔
      ∀ chunk, chunks.head? = some chunk →
        chunk.start = 0 ∨ database.parentHash ids chunk = some 0 := by
  cases chunks with
  | nil => simp [storedEvents]
  | cons chunk more =>
      have rest : List.Forall₂ (Announces database ids)
          (storedEvents database (.tokens ids device) (database.chunkHash chunk.key) more) more :=
        storedEvents_follow device split
      rw [storedEvents, List.forall₂_cons, announces_iff]
      simp only [List.head?_cons, Option.some.injEq, forall_eq']
      constructor
      · rintro ⟨parent, _⟩
        by_cases zero : chunk.start = 0
        · exact .inl zero
        · rw [if_neg zero] at parent
          exact .inr parent.symm
      · rintro (zero | parent)
        · refine ⟨?_, rest⟩
          obtain rfl := (start_eq_zero_iff split).mp zero
          rw [if_pos zero, parentHash_split split]
          rfl
        · refine ⟨?_, rest⟩
          have later : chunk.start ≠ 0 := by
            intro zero
            obtain rfl := (start_eq_zero_iff split).mp zero
            rw [parentHash_split split] at parent
            cases parent
          rw [if_neg later, parent]

end Parents

/-! ### The chunks handed to the storage -/

section Handed

/-- In an increasing list the chunks from a start on are a suffix. -/
theorem filter_start_suffix {chunks : List (ChunkInfo Key)}
    (increasing : chunks.Pairwise fun before after => before.start < after.start) (least : ℕ) :
    chunks.filter (fun chunk => least ≤ chunk.start) <:+ chunks := by
  induction chunks with
  | nil => exact List.suffix_rfl
  | cons chunk more ih =>
      obtain ⟨after, later⟩ := List.pairwise_cons.mp increasing
      by_cases reached : least ≤ chunk.start
      · have all : ∀ each ∈ chunk :: more, decide (least ≤ each.start) = true := by
          intro each member
          rcases List.mem_cons.mp member with rfl | behind
          · exact decide_eq_true reached
          · exact decide_eq_true (reached.trans (after each behind).le)
        rw [List.filter_eq_self.mpr all]
      · rw [List.filter_cons_of_neg (by simpa using reached)]
        exact (ih later).trans (List.suffix_cons ..)

/-- The chunks of a masked request end the chunks of the request. -/
theorem HashedChunks.suffix_of_processTokens {database : HashedChunks Key} {ids : List ℤ}
    {device : Option Storage.Device} {mask : Option (List Bool)} {chunks : List (ChunkInfo Key)}
    (processed : database.processTokens (.tokens ids device) mask = some chunks) :
    chunks <:+ database.prefixChunks ids := by
  cases mask with
  | none =>
      rw [database.processTokens_unmasked, Option.some.injEq] at processed
      exact processed ▸ List.suffix_rfl
  | some mask =>
      rw [database.processTokens_masked ids device mask chunks processed]
      exact filter_start_suffix (database.increasing ids) _

theorem start_inj {chunks : List (ChunkInfo Key)}
    (increasing : chunks.Pairwise fun before after => before.start < after.start)
    {left right : ChunkInfo Key} (leftIn : left ∈ chunks) (rightIn : right ∈ chunks)
    (same : left.start = right.start) : left = right := by
  have distinct : (chunks.map ChunkInfo.start).Nodup :=
    (List.pairwise_map.mpr increasing).imp fun less => less.ne
  exact List.inj_on_of_nodup_map distinct leftIn rightIn same

/-- Sorting chunks of an increasing list puts them in its order. -/
theorem mergeSort_eq_of_sublist {chunks part handed : List (ChunkInfo Key)}
    (increasing : chunks.Pairwise fun before after => before.start < after.start)
    (inOrder : part.Sublist chunks) (same : handed.Perm part) :
    (handed.mergeSort fun before after => before.start ≤ after.start) = part := by
  have sorted : (handed.mergeSort fun before after => before.start ≤ after.start).Pairwise
      fun before after => before.start ≤ after.start := by
    refine (List.pairwise_mergeSort (fun first second third => ?_) (fun first second => ?_)
      handed).imp of_decide_eq_true
    · simp only [decide_eq_true_eq]
      exact le_trans
    · simpa using le_total first.start second.start
  have apart := increasing.sublist inOrder
  have perm : (handed.mergeSort fun before after => before.start ≤ after.start).Perm part :=
    (List.mergeSort_perm ..).trans same
  refine List.Perm.eq_of_pairwise (fun left right leftIn rightIn below above => ?_) sorted
    (apart.imp fun less => Nat.le_of_lt less) perm
  exact start_inj apart (perm.subset leftIn) rightIn (Nat.le_antisymm below above)

/-- The chunks handed to the storage: those of the walk, and then those stored
directly behind it. -/
theorem handed_eq {manager : StoreManager Key Obj} {chunks : List (ChunkInfo Key)}
    {direct : List Bool} (aligned : chunks.length = direct.length)
    (increasing : chunks.Pairwise fun before after => before.start < after.start)
    {result : StoreResult Key Obj}
    (directPut : result.directPut = ((chunks.zip direct).filter Prod.snd).map Prod.fst)
    (batchedPut : result.batchedPut.map Prod.fst =
      (((chunks.zip direct).takeWhile manager.handles).filter fun pair => !pair.2).map Prod.fst) :
    result.handed = ((chunks.zip direct).takeWhile manager.handles).map Prod.fst ++
      (((chunks.zip direct).dropWhile manager.handles).filter Prod.snd).map Prod.fst := by
  have first : (chunks.zip direct).map Prod.fst = chunks := List.map_fst_zip aligned.le
  have walk := List.takeWhile_append_dropWhile (p := manager.handles) (l := chunks.zip direct)
  refine mergeSort_eq_of_sublist increasing ?_ ?_
  · rw [← List.map_append]
    conv_rhs => rw [← first, ← walk]
    exact ((List.Sublist.refl _).append List.filter_sublist).map _
  · rw [directPut, batchedPut, ← List.map_append, ← List.map_append]
    refine List.Perm.map _ ?_
    conv_lhs =>
      rw [← walk, List.filter_append, List.append_assoc]
    have parts := List.filter_append_perm Prod.snd ((chunks.zip direct).takeWhile manager.handles)
    rw [walk]
    refine (List.perm_append_comm.append_left _).trans ?_
    rw [← List.append_assoc]
    exact parts.append_right _

/-- Nothing was stored directly behind the walk. -/
theorem later_eq_nil_iff (manager : StoreManager Key Obj) (pairs : List (ChunkInfo Key × Bool)) :
    ((pairs.dropWhile manager.handles).filter Prod.snd).map Prod.fst = [] ↔
      ∀ pair ∈ pairs.dropWhile manager.handles, pair.2 = false := by
  rw [List.map_eq_nil_iff, List.filter_eq_nil_iff]
  exact forall_congr' fun pair => imp_congr_right fun _ => .of_eq (Bool.not_eq_true _)

/-- The first chunk of the walk is the first of the request, when it is handled. -/
theorem forall_head_walk {manager : StoreManager Key Obj} {pairs : List (ChunkInfo Key × Bool)}
    {property : ChunkInfo Key → Prop} :
    (∀ chunk, ((pairs.takeWhile manager.handles).map Prod.fst).head? = some chunk →
        property chunk) ↔
      ∀ pair, pairs.head? = some pair → manager.handles pair = true → property pair.1 := by
  simp only [List.head?_map, List.head?_takeWhile, Option.map_eq_some_iff,
    Option.filter_eq_some_iff]
  constructor
  · intro all pair first handled
    exact all pair.1 ⟨pair, ⟨first, handled⟩, rfl⟩
  · rintro all _ ⟨pair, ⟨first, handled⟩, rfl⟩
    exact all pair first handled

end Handed

/-! ### The events of a store -/

/-- A store that is not turned away, after its walk. -/
theorem store_eq {state : StoreState} {database : HashedChunks Key}
    (manager : StoreManager Key Obj) {input : StoreInput} {mask : Option (List Bool)}
    {chunks : List (ChunkInfo Key)} (runs : state.healthy ∧ ¬ state.passive ∧ ¬ state.frozen)
    (enabled : state.kvEventsEnabled = true)
    (processed : database.processTokens input mask = some chunks) :
    chunks.length = (manager.directResults chunks).length ∧
      ∃ result, store state database manager input mask = .ok result ∧
        result.directPut =
          ((chunks.zip (manager.directResults chunks)).filter Prod.snd).map Prod.fst ∧
        result.kvEvents = storedEvents database input 0
          (((chunks.zip (manager.directResults chunks)).takeWhile manager.handles).map
            Prod.fst) ∧
        result.batchedPut.map Prod.fst =
          (((chunks.zip (manager.directResults chunks)).takeWhile manager.handles).filter
            fun pair => !pair.2).map Prod.fst := by
  have aligned : chunks.length = (manager.directResults chunks).length := by
    unfold StoreManager.directResults
    split
    · exact (manager.direct_aligned chunks).symm
    · exact List.length_replicate.symm
  have walked := storeChunks_eq database input manager
    (chunks.zip (manager.directResults chunks)) ⟨[], [], 0⟩
  obtain ⟨healthy, active, thawed⟩ := runs
  refine ⟨aligned, ⟨_, _, _⟩, ?_, rfl, walked⟩
  unfold store
  simp only [healthy, active, thawed, enabled, processed, aligned, Bool.not_true, Bool.or_self,
    Bool.false_eq_true, if_false, ne_eq, not_true_eq_false]

/-- The hash of a run of tokens, by the tokens before. -/
def prefixHash (tokens : List ℤ) : ℤ := tokens.foldl (fun hash token => 31 * hash + token) 7

/-- A token database with chunks of one token. -/
def singleTokens : HashedChunks ℤ where
  chunkHash := id
  prefixChunks ids := (List.range ids.length).map fun index : ℕ =>
    ⟨prefixHash (ids.take (index + 1)), index, index + 1⟩
  firstStart ids chunk rest found := by
    cases ids with
    | nil => cases found
    | cons token more =>
        rw [List.length_cons, List.range_succ_eq_map, List.map_cons, List.cons.injEq] at found
        rw [← found.1]
  increasing ids := List.pairwise_map.mpr List.pairwise_lt_range
  processTokens input mask :=
    match input with
    | .hashes _ _ => none
    | .tokens ids _ =>
        let chunks := (List.range ids.length).map fun index : ℕ =>
          ⟨prefixHash (ids.take (index + 1)), index, index + 1⟩
        match mask with
        | none => some chunks
        | some mask => some (chunks.filter fun chunk => mask.count false ≤ chunk.start)
  processTokens_unmasked _ _ := rfl
  processTokens_masked _ _ _ _ processed := (Option.some.inj processed).symm
  convertTokensToList ids start stop := (ids.take stop).drop start
  convertTokensToList_eq _ _ _ := rfl

/-- A storage without direct stores and with memory for every chunk. -/
def roomyStorage : StoreManager ℤ Unit where
  supportsDirectIo := false
  batchedDirectPut chunks := List.replicate chunks.length false
  allocate _ := some ()
  direct_aligned _ := List.length_replicate

end LMCacheHcu.Engine
