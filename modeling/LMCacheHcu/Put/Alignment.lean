import LMCacheHcu.Put.CopiedObjects

/-! # Keys and their copies

Skipped keys and the early end of the loop do not shift keys against objects:
each returned object has the content of the source that was paired with its key.
-/

namespace LMCacheHcu.Put

open WhileLoop

variable {Name Key Ref Format Data : Type}

/-! ### Queued copies -/

section Stream

variable [DecidableEq Ref] {stream : List (Ref × Ref)} {heap : Ref → Data}

theorem synchronize_of_notMem {ref : Ref} (other : ref ∉ stream.map Prod.snd) :
    synchronize stream heap ref = heap ref := by
  induction stream generalizing heap with
  | nil => rfl
  | cons copy stream ih =>
      rw [List.map_cons, List.mem_cons, not_or] at other
      have rest : synchronize (copy :: stream) heap ref =
          synchronize stream (Function.update heap copy.2 (heap copy.1)) ref := rfl
      rw [rest, ih other.2]
      exact Function.update_of_ne other.1 _ _

/-- Copies to distinct buffers that are no sources all arrive. -/
theorem synchronize_copied (heap : Ref → Data) (fresh : (stream.map Prod.snd).Nodup)
    (apart : ∀ source ∈ stream.map Prod.fst, source ∉ stream.map Prod.snd) :
    ∀ copy ∈ stream, synchronize stream heap copy.2 = heap copy.1 := by
  induction stream generalizing heap with
  | nil => exact fun copy member => absurd member List.not_mem_nil
  | cons copy stream ih =>
      obtain ⟨first, others⟩ := List.nodup_cons.mp fresh
      have rest : ∀ ref, synchronize (copy :: stream) heap ref =
          synchronize stream (Function.update heap copy.2 (heap copy.1)) ref := fun ref => rfl
      intro target member
      rw [rest]
      rcases List.mem_cons.mp member with rfl | later
      · rw [synchronize_of_notMem first, Function.update_self]
      · rw [ih _ others (fun source listed there =>
          apart source (List.mem_cons_of_mem _ listed) (List.mem_cons_of_mem _ there)) target later]
        refine Function.update_of_ne (fun same => ?_) _ _
        exact apart target.1 (List.mem_map_of_mem member) (same ▸ List.mem_cons_self)

end Stream

variable {backends : Backends Name Key Ref Format}

/-! ### The allocator -/

/-- What the copy relies on: an object that somebody holds keeps its buffer, and a
new object has a buffer that nobody holds. -/
structure Backends.Lawful (backends : Backends Name Key Ref Format)
    (held : backends.State → Set Ref) : Prop where
  contains_holds : ∀ state name key, held state ⊆ held (backends.contains state name key).2
  allocate_holds : ∀ state name request,
    held state ⊆ held (backends.allocate state name request).2
  allocate_fresh : ∀ state name request memoryObj,
    (backends.allocate state name request).1 = some memoryObj → memoryObj.ref ∉ held state ∧
      memoryObj.ref ∈ held (backends.allocate state name request).2
  submit_holds : ∀ state name keys objects,
    held state ⊆ held (backends.batchedSubmitPutTask state name keys objects)

/-! ### The loop over the keys -/

section Loop

variable (backends) (allocator : Name) (items : List (Key × MemoryObj Ref Format))
  (start : backends.State)

/-- The state in which the loop reaches its item number `turn`. -/
def turnState (turn : ℕ) : backends.State :=
  (copyItems backends allocator (items.take turn) start).state

/-- Whether the allocator holds a key when its turn comes. -/
def containedAt (turn : ℕ) (key : Key) : Bool :=
  (backends.contains (turnState backends allocator items start turn) allocator key).1

/-- The allocation for an item fails when its turn comes. -/
def AllocationFails (turn : ℕ) (item : Key × MemoryObj Ref Format) : Prop :=
  let answer := (backends.allocate (backends.contains
    (turnState backends allocator items start turn) allocator item.1).2 allocator
      ⟨item.2.shape, item.2.dtype, item.2.fmt, true, false⟩).1
  ∀ memoryObj, answer = some memoryObj → memoryObj.hasTensor = false

/-- The items before a position whose keys the allocator does not hold at their turn. -/
def missingItems (stop : ℕ) : List (Key × MemoryObj Ref Format) :=
  ((items.take stop).zipIdx.filter fun entry =>
    !containedAt backends allocator items start entry.2 entry.1.1).map Prod.fst

variable {backends allocator items start}

theorem missingItems_succ {turn : ℕ} {item : Key × MemoryObj Ref Format}
    (here : items[turn]? = some item) :
    missingItems backends allocator items start (turn + 1) =
      missingItems backends allocator items start turn ++
        if containedAt backends allocator items start turn item.1 then [] else [item] := by
  have length : (items.take turn).length = turn :=
    List.length_take_of_le (List.getElem?_eq_some_iff.mp here).1.le
  rw [missingItems, List.take_add_one, here, Option.toList_some, List.zipIdx_append, length,
    Nat.zero_add, List.filter_append, List.map_append]
  congr 1
  cases held : containedAt backends allocator items start turn item.1 <;> simp [held]

theorem missingItems_sublist (stop : ℕ) :
    (missingItems backends allocator items start stop).Sublist items := by
  have missing : (missingItems backends allocator items start stop).Sublist
      ((items.take stop).zipIdx.map Prod.fst) := List.filter_sublist.map Prod.fst
  rw [List.zipIdx_map_fst] at missing
  exact missing.trans (List.take_sublist _ _)

/-- With fixed contents of the allocator, these are the items of other keys. -/
theorem missingItems_of_fixed {contained : Key → Bool} (stop : ℕ)
    (fixed : ∀ turn key, containedAt backends allocator items start turn key = contained key) :
    missingItems backends allocator items start stop =
      (items.take stop).filter fun item => !contained item.1 := by
  have pairs := List.zipIdx_map_fst 0 (items.take stop)
  rw [← congrArg (List.filter fun item => !contained item.1) pairs, List.filter_map]
  simp only [missingItems, fixed]
  rfl

/-- What the loop has done before an item. -/
structure Progress (held : backends.State → Set Ref) (allocator : Name)
    (items : List (Key × MemoryObj Ref Format)) (start : backends.State) (done : ℕ)
    (copying : CopyState backends) : Prop where
  keys : copying.allocatedKeys = (missingItems backends allocator items start done).map Prod.fst
  sources : copying.stream.map Prod.fst =
    (missingItems backends allocator items start done).map fun item => item.2.ref
  objects : copying.stream.map Prod.snd = copying.allocatedObjects
  holds : held start ⊆ held copying.state
  objectsHeld : ∀ ref ∈ copying.allocatedObjects, ref ∈ held copying.state
  distinct : copying.allocatedObjects.Nodup
  fresh : ∀ ref ∈ copying.allocatedObjects, ref ∉ held start

variable {held : backends.State → Set Ref} {done : ℕ} {copying next : CopyState backends}
  {item : Key × MemoryObj Ref Format}

theorem turnState_eq
    (runs : forEach (copyItem backends allocator) (items.take done) (startCopy backends start) =
      .again copying) : turnState backends allocator items start done = copying.state := by
  rw [turnState, copyItems, runs]

/-- The allocator is asked in the state in which the loop reaches the item. -/
theorem containedAt_eq
    (runs : forEach (copyItem backends allocator) (items.take done) (startCopy backends start) =
      .again copying) (key : Key) :
    containedAt backends allocator items start done key =
      (backends.contains copying.state allocator key).1 := by
  rw [containedAt, turnState_eq runs]

/-- **One item** that is skipped or copied. -/
theorem Progress.step (lawful : backends.Lawful held)
    (progress : Progress held allocator items start done copying) (here : items[done]? = some item)
    (runs : forEach (copyItem backends allocator) (items.take done) (startCopy backends start) =
      .again copying)
    (step : copyItem backends allocator copying item = .again next) :
    Progress held allocator items start (done + 1) next := by
  have missing : missingItems backends allocator items start (done + 1) = _ :=
    missingItems_succ here
  have asked := lawful.contains_holds copying.state allocator item.1
  rw [containedAt_eq runs] at missing
  unfold copyItem at step
  simp only at step
  split at step
  · rename_i held
    cases step
    rw [if_pos held, List.append_nil] at missing
    exact ⟨missing ▸ progress.keys, missing ▸ progress.sources, progress.objects,
      progress.holds.trans asked, fun ref listed => asked (progress.objectsHeld ref listed),
      progress.distinct, progress.fresh⟩
  rename_i absent
  rw [if_neg absent] at missing
  generalize requested : (⟨item.2.shape, item.2.dtype, item.2.fmt, true, false⟩ :
    AllocateRequest Format) = request at step
  have kept := asked.trans (lawful.allocate_holds
    (backends.contains copying.state allocator item.1).2 allocator request)
  split at step
  · cases step
  rename_i memoryObj answered
  obtain ⟨unheld, nowHeld⟩ := lawful.allocate_fresh _ _ _ _ answered
  split at step
  · cases step
  cases step
  have new : memoryObj.ref ∉ copying.allocatedObjects := fun listed =>
    unheld (asked (progress.objectsHeld _ listed))
  refine ⟨?_, ?_, ?_, progress.holds.trans kept, fun ref listed => ?_, ?_, fun ref listed => ?_⟩
  · rw [missing, List.map_append, ← progress.keys]
    rfl
  · rw [missing, List.map_append, List.map_append, progress.sources]
    rfl
  · rw [List.map_append, progress.objects]
    rfl
  · rcases List.mem_append.mp listed with earlier | this
    · exact kept (progress.objectsHeld ref earlier)
    · rw [List.mem_singleton.mp this]
      exact nowHeld
  · have distinct := progress.distinct.concat new
    rwa [List.concat_eq_append] at distinct
  · rcases List.mem_append.mp listed with earlier | this
    · exact progress.fresh ref earlier
    · rw [List.mem_singleton.mp this]
      exact fun early => unheld (asked (progress.holds early))

/-- **The loop up to an item** that it reaches. -/
theorem progress_of_runs (lawful : backends.Lawful held) (inside : done ≤ items.length)
    (runs : forEach (copyItem backends allocator) (items.take done) (startCopy backends start) =
      .again copying) : Progress held allocator items start done copying := by
  refine forEach_invariant (Progress held allocator items start) ?_ ?_ inside runs
  · exact ⟨rfl, rfl, rfl, subset_rfl, fun ref listed => absurd listed List.not_mem_nil,
      List.nodup_nil, fun ref listed => absurd listed List.not_mem_nil⟩
  · exact fun done item state next here runs progress step => progress.step lawful here runs step

/-- An iteration that ends the loop is for a key that the allocator does not
hold, and its allocation fails; it adds nothing to the results. -/
theorem Progress.leave (lawful : backends.Lawful held)
    (progress : Progress held allocator items start done copying) {final : CopyState backends}
    (runs : forEach (copyItem backends allocator) (items.take done) (startCopy backends start) =
      .again copying)
    (step : copyItem backends allocator copying item = .leave final) :
    Progress held allocator items start done final ∧
      containedAt backends allocator items start done item.1 = false ∧
        AllocationFails backends allocator items start done item := by
  have asked := lawful.contains_holds copying.state allocator item.1
  rw [containedAt_eq runs, AllocationFails, turnState_eq runs]
  unfold copyItem at step
  simp only at step ⊢
  split at step
  · cases step
  rename_i absent
  generalize requested : (⟨item.2.shape, item.2.dtype, item.2.fmt, true, false⟩ :
    AllocateRequest Format) = request at step ⊢
  have kept := asked.trans (lawful.allocate_holds
    (backends.contains copying.state allocator item.1).2 allocator request)
  split at step
  · rename_i refused
    cases step
    refine ⟨{ progress with
      holds := progress.holds.trans kept
      objectsHeld := fun ref listed => kept (progress.objectsHeld ref listed) },
      Bool.eq_false_of_not_eq_true absent, fun memoryObj answered => ?_⟩
    exact absurd (refused.symm.trans answered) (by simp)
  rename_i memoryObj answered
  split at step
  · rename_i noTensor
    cases step
    refine ⟨{ progress with
      holds := progress.holds.trans kept
      objectsHeld := fun ref listed => kept (progress.objectsHeld ref listed) },
      Bool.eq_false_of_not_eq_true absent, fun other answered' => ?_⟩
    obtain rfl := Option.some.inj (answered.symm.trans answered')
    exact noTensor
  · cases step

variable (allocator items start)

/-- **The whole loop.** -/
theorem exists_progress (lawful : backends.Lawful held) :
    ∃ stop ≤ items.length,
      Progress held allocator items start stop (copyItems backends allocator items start) ∧
        (stop = items.length ∨ ∃ item, items[stop]? = some item ∧
          containedAt backends allocator items start stop item.1 = false ∧
            AllocationFails backends allocator items start stop item) := by
  obtain ⟨stop, inside, reached, runs, ends⟩ :=
    exists_stop (copyItem backends allocator) items (startCopy backends start)
  have progress := progress_of_runs lawful inside runs
  refine ⟨stop, inside, ?_⟩
  rcases ends with ⟨whole, all⟩ | ⟨item, final, here, leaves, all⟩
  · rw [copyItems, all]
    exact ⟨progress, .inl whole⟩
  · obtain ⟨kept, absent, fails⟩ := progress.leave lawful runs leaves
    rw [copyItems, all]
    exact ⟨kept, .inr ⟨item, here, absent, fails⟩⟩

end Loop

/-! ### The copies -/

section Copies

variable [DecidableEq Ref] {held : backends.State → Set Ref} {allocator : Name}
  {items : List (Key × MemoryObj Ref Format)} {start : backends.State} {stop : ℕ}
  {copying : CopyState backends}

/-- A copy changes no buffer that was held before. -/
theorem Progress.synchronize_held (progress : Progress held allocator items start stop copying)
    (heap : Ref → Data) {ref : Ref} (inside : ref ∈ held start) :
    synchronize copying.stream heap ref = heap ref := by
  apply synchronize_of_notMem
  rw [progress.objects]
  exact fun listed => progress.fresh ref listed inside

/-- The copies arrive when the sources were held. -/
theorem Progress.copied (progress : Progress held allocator items start stop copying)
    (sources : ∀ item ∈ items, item.2.ref ∈ held start) (heap : Ref → Data) :
    List.Forall₂ (fun item object => synchronize copying.stream heap object = heap item.2.ref)
      (missingItems backends allocator items start stop) copying.allocatedObjects := by
  have apart : ∀ source ∈ copying.stream.map Prod.fst, source ∉ copying.stream.map Prod.snd := by
    intro source listed
    rw [progress.sources] at listed
    obtain ⟨item, missing, rfl⟩ := List.mem_map.mp listed
    rw [progress.objects]
    exact fun there => progress.fresh _ there
      (sources item ((missingItems_sublist stop).subset missing))
  have arrived := synchronize_copied heap (progress.objects ▸ progress.distinct) apart
  have pairs : List.Forall₂ (fun source object => synchronize copying.stream heap object =
      heap source) (copying.stream.map Prod.fst) (copying.stream.map Prod.snd) := by
    rw [List.forall₂_map_left_iff, List.forall₂_map_right_iff, List.forall₂_same]
    exact arrived
  rw [progress.sources, progress.objects, List.forall₂_map_left_iff] at pairs
  exact pairs

/-- What `allocate_and_copy_objects` returns, up to the position `stop` where it
has ended. -/
structure AlignedCopies (allocator : Name) (items : List (Key × MemoryObj Ref Format))
    (start : backends.State) (heap : Ref → Data) (stop : ℕ)
    (result : CopyState backends × (Ref → Data)) : Prop where
  lengths : result.1.allocatedKeys.length = result.1.allocatedObjects.length
  /-- The keys are those of the items that the allocator did not hold, in order. -/
  keys : result.1.allocatedKeys =
    (missingItems backends allocator items start stop).map Prod.fst
  subsequence : (missingItems backends allocator items start stop).Sublist items
  /-- Each object has the content of the source that came with its key. -/
  copies : List.Forall₂ (fun item object => result.2 object = heap item.2.ref)
    (missingItems backends allocator items start stop) result.1.allocatedObjects
  /-- The loop has passed all items, or has met the first failed allocation. -/
  stops : stop = items.length ∨ ∃ item, items[stop]? = some item ∧
    containedAt backends allocator items start stop item.1 = false ∧
      AllocationFails backends allocator items start stop item

theorem Progress.alignedCopies (sources : ∀ item ∈ items, item.2.ref ∈ held start)
    (progress : Progress held allocator items start stop
      (copyItems backends allocator items start))
    (stops : stop = items.length ∨ ∃ item, items[stop]? = some item ∧
      containedAt backends allocator items start stop item.1 = false ∧
        AllocationFails backends allocator items start stop item) (heap : Ref → Data) :
    AlignedCopies allocator items start heap stop
      (copyItems backends allocator items start,
        synchronize (copyItems backends allocator items start).stream heap) where
  lengths := by
    have copied := (progress.copied sources heap).length_eq
    rw [progress.keys, List.length_map]
    exact copied
  keys := progress.keys
  subsequence := missingItems_sublist stop
  copies := progress.copied sources heap
  stops := stops

end Copies

/-! ### The submissions of a put -/

/-- Aligned copies belong to their keys. -/
theorem AlignedCopies.belong {keys : List Key} {memoryObjs : List (MemoryObj Ref Format)}
    {allocator : Name} {start : backends.State} {stop : ℕ} {now : Ref → Data}
    {result : CopyState backends × (Ref → Data)}
    (copies : AlignedCopies allocator (keys.zip memoryObjs) start now stop result) :
    ∀ pair ∈ result.1.allocatedKeys.zip result.1.allocatedObjects,
      ∃ source, (pair.1, source) ∈ keys.zip memoryObjs ∧ result.2 pair.2 = now source.ref := by
  intro pair member
  rw [copies.keys, List.zip_map_left] at member
  obtain ⟨⟨item, object⟩, listed, rfl⟩ := List.mem_map.mp member
  have missing := (List.of_mem_zip listed).1
  have same := (List.forall₂_iff_zip.mp copies.copies).2 listed
  exact ⟨item.2, copies.subsequence.subset missing, same⟩

section Put

variable [DecidableEq Name] [DecidableEq Ref]

/-- Each object has the content that the source of its key had at the start. -/
def Belong (keys : List Key) (memoryObjs : List (MemoryObj Ref Format)) (heap : Ref → Data)
    (pairs : List (Key × Ref)) (now : Ref → Data) : Prop :=
  ∀ pair ∈ pairs, ∃ source, (pair.1, source) ∈ keys.zip memoryObjs ∧
    now pair.2 = heap source.ref

/-- What holds between the backends of a put. -/
structure Aligned (held : backends.State → Set Ref) (keys : List Key)
    (memoryObjs : List (MemoryObj Ref Format)) (start : backends.State) (heap : Ref → Data)
    (put : PutState backends Data) : Prop where
  holds : held start ⊆ held put.state
  frame : ∀ ref ∈ held start, put.heap ref = heap ref
  entriesHeld : ∀ cname entry, put.objDict.lookup cname = some entry →
    ∀ ref ∈ entry.2, ref ∈ held put.state
  entries : ∀ cname entry, put.objDict.lookup cname = some entry →
    Belong keys memoryObjs heap (entry.1.zip entry.2) put.heap
  submissions : ∀ submission ∈ put.submissions,
    Belong keys memoryObjs heap (submission.keys.zip submission.objects) submission.heap

variable {held : backends.State → Set Ref} {keys : List Key}
  {memoryObjs : List (MemoryObj Ref Format)} {start : backends.State} {heap : Ref → Data}
  {put : PutState backends Data}

theorem Aligned.prepare (lawful : backends.Lawful held)
    (sources : ∀ memoryObj ∈ memoryObjs, memoryObj.ref ∈ held start)
    (aligned : Aligned held keys memoryObjs start heap put) (cname : Name) :
    Aligned held keys memoryObjs start heap (prepare backends keys memoryObjs put cname) := by
  unfold Put.prepare
  split
  · exact aligned
  obtain ⟨stop, _, progress, stops⟩ :=
    exists_progress cname (keys.zip memoryObjs) put.state lawful
  have paired : ∀ item ∈ keys.zip memoryObjs, item.2.ref ∈ held put.state := fun item member =>
    aligned.holds (sources item.2 (List.of_mem_zip member).2)
  have copies := progress.alignedCopies paired stops put.heap
  have kept : ∀ ref ∈ held put.state, synchronize
      (copyItems backends cname (keys.zip memoryObjs) put.state).stream put.heap ref =
        put.heap ref := fun ref inside => progress.synchronize_held put.heap inside
  refine ⟨aligned.holds.trans progress.holds, fun ref inside => ?_, fun other entry found => ?_,
    fun other entry found => ?_, aligned.submissions⟩
  · exact (kept ref (aligned.holds inside)).trans (aligned.frame ref inside)
  · by_cases same : other = cname
    · subst same
      obtain rfl := Option.some.inj ((AList.lookup_insert _).symm.trans found)
      exact progress.objectsHeld
    · have earlier := (AList.lookup_insert_ne same).symm.trans found
      exact fun ref listed => progress.holds (aligned.entriesHeld other entry earlier ref listed)
  · by_cases same : other = cname
    · subst same
      obtain rfl := Option.some.inj ((AList.lookup_insert _).symm.trans found)
      intro pair member
      obtain ⟨source, listed, copied⟩ := copies.belong pair member
      exact ⟨source, listed,
        copied.trans (aligned.frame _ (sources source (List.of_mem_zip listed).2))⟩
    · have earlier := (AList.lookup_insert_ne same).symm.trans found
      intro pair member
      obtain ⟨source, listed, content⟩ := aligned.entries other entry earlier pair member
      have inside := aligned.entriesHeld other entry earlier pair.2 (List.of_mem_zip member).2
      exact ⟨source, listed, (kept pair.2 inside).trans content⟩

theorem Aligned.putBackend (lawful : backends.Lawful held)
    (sources : ∀ memoryObj ∈ memoryObjs, memoryObj.ref ∈ held start)
    (aligned : Aligned held keys memoryObjs start heap put) (location : Option Name) (name : Name) :
    Aligned held keys memoryObjs start heap
      (putBackend backends keys memoryObjs location put name) := by
  unfold Put.putBackend
  split
  · exact aligned
  split
  · exact aligned
  have ready := aligned.prepare lawful sources (backends.getAllocatorBackend name)
  dsimp only
  generalize Put.prepare backends keys memoryObjs put (backends.getAllocatorBackend name) =
    next at ready ⊢
  have submitted := lawful.submit_holds next.state name
    ((next.objDict.lookup (backends.getAllocatorBackend name)).getD ([], [])).1
    ((next.objDict.lookup (backends.getAllocatorBackend name)).getD ([], [])).2
  refine ⟨ready.holds.trans submitted, ready.frame, fun other entry found ref listed =>
    submitted (ready.entriesHeld other entry found ref listed), ready.entries, ?_⟩
  intro submission member
  rcases List.mem_append.mp member with earlier | this
  · exact ready.submissions submission earlier
  · obtain rfl := List.mem_singleton.mp this
    cases found : next.objDict.lookup (backends.getAllocatorBackend name) with
    | none => simp only [Option.getD_none, List.zip_nil_left, Belong, List.not_mem_nil,
        IsEmpty.forall_iff, implies_true]
    | some entry =>
        simp only [Option.getD_some]
        exact ready.entries _ entry found

omit [DecidableEq Ref] in
/-- The caller's own objects belong to their keys. -/
theorem aligned_start (sources : ∀ memoryObj ∈ memoryObjs, memoryObj.ref ∈ held start)
    (allocator : Name) :
    Aligned held keys memoryObjs start heap
      { state := start
        heap := heap
        objDict := (∅ : AList fun _ : Name => List Key × List Ref).insert allocator
          (keys, memoryObjs.map MemoryObj.ref)
        submissions := []
        released := [] } := by
  have only : ∀ cname entry, ((∅ : AList fun _ : Name => List Key × List Ref).insert allocator
      (keys, memoryObjs.map MemoryObj.ref)).lookup cname = some entry →
        entry = (keys, memoryObjs.map MemoryObj.ref) := by
    intro cname entry found
    by_cases same : cname = allocator
    · subst same
      exact Option.some.inj (found.symm.trans (AList.lookup_insert _))
    · rw [AList.lookup_insert_ne same, AList.lookup_empty] at found
      cases found
  refine ⟨subset_rfl, fun ref _ => rfl, fun cname entry found => ?_, fun cname entry found => ?_,
    fun submission member => absurd member List.not_mem_nil⟩
  · obtain rfl := only cname entry found
    intro ref listed
    obtain ⟨memoryObj, member, rfl⟩ := List.mem_map.mp listed
    exact sources memoryObj member
  · obtain rfl := only cname entry found
    intro pair member
    rw [List.zip_map_right] at member
    obtain ⟨⟨key, source⟩, listed, rfl⟩ := List.mem_map.mp member
    exact ⟨source, listed, rfl⟩

/-- **A put submits each object under its own key.** -/
theorem submissions_belong (lawful : backends.Lawful held)
    (sources : ∀ memoryObj ∈ memoryObjs, memoryObj.ref ∈ held start) {location : Option Name}
    (returned : batchedPut backends keys memoryObjs location start heap = some put) :
    ∀ submission ∈ put.submissions,
      Belong keys memoryObjs heap (submission.keys.zip submission.objects) submission.heap := by
  obtain ⟨allocator, _, rfl⟩ := Option.map_eq_some_iff.mp returned
  have begins : Aligned held keys memoryObjs start heap _ := aligned_start sources allocator
  suffices whole : ∀ (names : List Name) (put : PutState backends Data),
      Aligned held keys memoryObjs start heap put → Aligned held keys memoryObjs start heap
        (names.foldl (Put.putBackend backends keys memoryObjs location) put) from
    (whole backends.storageBackends _ begins).submissions
  intro names
  induction names with
  | nil => exact fun put aligned => aligned
  | cons name names ih =>
      exact fun put aligned => ih _ (aligned.putBackend lawful sources location name)

omit [DecidableEq Ref] in
theorem zip_map_fst_sublist (keys : List Key) (memoryObjs : List (MemoryObj Ref Format)) :
    ((keys.zip memoryObjs).map Prod.fst).Sublist keys := by
  induction keys generalizing memoryObjs with
  | nil => exact List.Sublist.slnil
  | cons key keys ih =>
      cases memoryObjs with
      | nil => exact List.nil_sublist _
      | cons memoryObj memoryObjs => exact (ih memoryObjs).cons_cons key

/-- **Copies stay with their keys**, in the result of `allocate_and_copy_objects`
for any allocator and in everything that `batched_put` submits. With fixed
contents of the allocator, the keys are the missing ones before the first failed
allocation. -/
theorem copies_belong (lawful : backends.Lawful held)
    (sources : ∀ memoryObj ∈ memoryObjs, memoryObj.ref ∈ held start) (keys : List Key)
    (heap : Ref → Data) :
    (∀ allocator, ∃ stop ≤ (keys.zip memoryObjs).length,
      let result := allocateAndCopyObjects backends allocator keys memoryObjs start heap
      AlignedCopies allocator (keys.zip memoryObjs) start heap stop result ∧
        result.1.allocatedKeys.Sublist keys ∧
          ∀ contained : Key → Bool, (∀ turn key,
            containedAt backends allocator (keys.zip memoryObjs) start turn key = contained key) →
              result.1.allocatedKeys = (((keys.zip memoryObjs).take stop).filter fun item =>
                !contained item.1).map Prod.fst) ∧
      ∀ location put, batchedPut backends keys memoryObjs location start heap = some put →
        ∀ submission ∈ put.submissions,
          Belong keys memoryObjs heap (submission.keys.zip submission.objects) submission.heap := by
  refine ⟨fun allocator => ?_, fun location put returned => submissions_belong lawful sources returned⟩
  obtain ⟨stop, inside, progress, stops⟩ :=
    exists_progress allocator (keys.zip memoryObjs) start lawful
  have paired : ∀ item ∈ keys.zip memoryObjs, item.2.ref ∈ held start := fun item member =>
    sources item.2 (List.of_mem_zip member).2
  have copies := progress.alignedCopies paired stops heap
  refine ⟨stop, inside, copies, ?_, fun contained fixed => ?_⟩
  · refine List.Sublist.trans ?_ (zip_map_fst_sublist keys memoryObjs)
    exact copies.keys ▸ copies.subsequence.map Prod.fst
  · rw [← missingItems_of_fixed stop fixed]
    exact copies.keys

end Put

/-! ### An allocator of fresh numbers -/

/-- Two backends with one allocator, which hands out numbers up to a bound and
holds the key 7. -/
def countingBackends : Backends String ℕ ℕ Unit where
  State := ℕ
  allocatorBackend := some "local"
  storageBackends := ["local", "remote", "disk"]
  getAllocatorBackend name := if name = "local" then "local" else "pinned"
  bypassed _ _ := false
  contains state _ key := (decide (key = 7), state)
  allocate state _ _ := if state < 4 then (some ⟨state, true⟩, state + 1) else (none, state)
  batchedSubmitPutTask state _ _ _ := state

theorem countingBackends_lawful :
    countingBackends.Lawful fun state : ℕ => {ref : ℕ | ref < state} where
  contains_holds _ _ _ := subset_rfl
  allocate_holds state _ _ ref held := by
    simp only [countingBackends]
    split
    · exact Nat.lt_succ_of_lt held
    · exact held
  allocate_fresh state _ _ memoryObj answered := by
    simp only [countingBackends] at answered ⊢
    split at answered
    · rename_i room
      cases answered
      rw [if_pos room]
      exact ⟨Nat.lt_irrefl state, Nat.lt_succ_self state⟩
    · cases answered
  submit_holds _ _ _ _ := subset_rfl

/-- The middle one of three keys is held already, and so the third object is copied
to the second buffer. -/
theorem copies_belong_threeKeys :
    ∃ stop ≤ 3, (allocateAndCopyObjects countingBackends "pinned" [5, 7, 9]
        [⟨0, [2], .float16, ()⟩, ⟨1, [2], .float16, ()⟩, ⟨0, [2], .float16, ()⟩] (2 : ℕ)
          fun ref => ref + 10).1.allocatedKeys =
      (([(5, (⟨0, [2], .float16, ()⟩ : MemoryObj ℕ Unit)), (7, ⟨1, [2], .float16, ()⟩),
        (9, ⟨0, [2], .float16, ()⟩)].take stop).filter fun item => !decide (item.1 = 7)).map
          Prod.fst := by
  have sources : ∀ memoryObj ∈ ([⟨0, [2], .float16, ()⟩, ⟨1, [2], .float16, ()⟩,
      ⟨0, [2], .float16, ()⟩] : List (MemoryObj ℕ Unit)),
        memoryObj.ref ∈ {ref : ℕ | ref < (2 : ℕ)} := by
    simp
  obtain ⟨stop, inside, _, _, fixed⟩ :=
    (copies_belong countingBackends_lawful sources [5, 7, 9] fun ref => ref + 10).1 "pinned"
  exact ⟨stop, inside, fixed (fun key => decide (key = 7)) fun turn key => rfl⟩

end LMCacheHcu.Put
