import LMCacheHcu.Put.Alignment

/-! # What a put submits and releases

`batched_put` releases every object that it was given and every object that was
allocated for it once, also an object without a tensor. Each selected backend is
called once at its turn, with the entry of its allocator: the arguments of the put,
or the copies for this allocator.
-/

namespace LMCacheHcu.Put

open WhileLoop

variable {Name Key Ref Format Data : Type} {backends : Backends Name Key Ref Format}

/-! ### The allocated objects -/

/-- A record of the answers of `allocate`, which no other method changes. -/
structure Backends.Records (backends : Backends Name Key Ref Format)
    (allocated : backends.State → Multiset Ref) : Prop where
  contains : ∀ state name key, allocated (backends.contains state name key).2 = allocated state
  allocate : ∀ state name request, allocated (backends.allocate state name request).2 =
    allocated state + ((backends.allocate state name request).1.map Allocated.ref).elim 0
      fun ref => {ref}
  submit : ∀ state name keys objects,
    allocated (backends.batchedSubmitPutTask state name keys objects) = allocated state

section Copies

variable {allocated : backends.State → Multiset Ref}

/-- What the copying has allocated it keeps or has released. -/
def Balanced (allocated : backends.State → Multiset Ref) (before : Multiset Ref)
    (copying : CopyState backends) : Prop :=
  allocated copying.state =
    before + (copying.allocatedObjects : Multiset Ref) + (copying.released : Multiset Ref)

theorem Balanced.item (records : backends.Records allocated) {before : Multiset Ref}
    {copying : CopyState backends} (balanced : Balanced allocated before copying)
    (allocator : Name) (item : Key × MemoryObj Ref Format) :
    (∃ next, copyItem backends allocator copying item = .again next ∧
      Balanced allocated before next) ∨
      ∃ next, copyItem backends allocator copying item = .leave next ∧
        Balanced allocated before next := by
  have asked := records.contains copying.state allocator item.1
  unfold copyItem
  dsimp only
  split
  · exact .inl ⟨_, rfl, asked.trans balanced⟩
  have answered := records.allocate (backends.contains copying.state allocator item.1).2 allocator
    ⟨item.2.shape, item.2.dtype, item.2.fmt, true, false⟩
  rw [asked, balanced] at answered
  split
  · rename_i refused
    rw [refused] at answered
    exact .inr ⟨_, rfl, answered.trans (add_zero _)⟩
  rename_i memoryObj given
  rw [given] at answered
  simp only [Option.map_some, Option.elim_some] at answered
  split
  · refine .inr ⟨_, rfl, answered.trans ?_⟩
    rw [add_assoc]
    exact congrArg _ (Multiset.coe_add _ _)
  · refine .inl ⟨_, rfl, answered.trans ?_⟩
    rw [add_right_comm, add_assoc before]
    exact congrArg (before + · + _) (Multiset.coe_add _ _)

theorem balanced_copyItems (records : backends.Records allocated) (allocator : Name)
    (items : List (Key × MemoryObj Ref Format)) (start : backends.State) :
    Balanced allocated (allocated start) (copyItems backends allocator items start) := by
  suffices whole : ∀ copying, Balanced allocated (allocated start) copying →
      (∃ next, forEach (copyItem backends allocator) items copying = .again next ∧
        Balanced allocated (allocated start) next) ∨
        ∃ next, forEach (copyItem backends allocator) items copying = .leave next ∧
          Balanced allocated (allocated start) next by
    have begins : Balanced allocated (allocated start) (startCopy backends start) :=
      ((add_zero _).trans (add_zero _)).symm
    rcases whole _ begins with ⟨next, runs, balanced⟩ | ⟨next, runs, balanced⟩
    · rw [copyItems, runs]
      exact balanced
    · rw [copyItems, runs]
      exact balanced
  induction items with
  | nil => exact fun copying balanced => .inl ⟨copying, rfl, balanced⟩
  | cons item items ih =>
      intro copying balanced
      rw [forEach]
      rcases balanced.item records allocator item with ⟨next, step, kept⟩ | ⟨next, step, kept⟩
      · rw [step]
        exact ih next kept
      · rw [step]
        exact .inr ⟨next, rfl, kept⟩

end Copies

/-! ### The run over the backends -/

section Put

variable [DecidableEq Name] [DecidableEq Ref]

/-- What `batched_put` begins with. -/
def startPut (backends : Backends Name Key Ref Format) (allocator : Name) (keys : List Key)
    (memoryObjs : List (MemoryObj Ref Format)) (start : backends.State) (heap : Ref → Data) :
    PutState backends Data where
  state := start
  heap := heap
  objDict := (∅ : AList fun _ : Name => List Key × List Ref).insert allocator
    (keys, memoryObjs.map MemoryObj.ref)
  submissions := []
  released := []

/-- The put when backend number `turn` has its turn. -/
def turnPut (backends : Backends Name Key Ref Format) (allocator : Name) (keys : List Key)
    (memoryObjs : List (MemoryObj Ref Format)) (location : Option Name) (start : backends.State)
    (heap : Ref → Data) (turn : ℕ) : PutState backends Data :=
  (backends.storageBackends.take turn).foldl (putBackend backends keys memoryObjs location)
    (startPut backends allocator keys memoryObjs start heap)

/-- The backend is at the location, and is not bypassed at its turn. -/
def selected (location : Option Name) (put : PutState backends Data) (name : Name) : Bool :=
  !location.any (· ≠ name) && !backends.bypassed put.state name

/-- The objects of all entries. -/
def entryObjects (objDict : AList fun _ : Name => List Key × List Ref) : Multiset Ref :=
  ((objDict.entries.flatMap fun entry => entry.2.2 : List Ref) : Multiset Ref)

variable {allocator : Name} {keys : List Key} {memoryObjs : List (MemoryObj Ref Format)}
  {location : Option Name} {start : backends.State} {heap : Ref → Data}
  {put : PutState backends Data} {allocated : backends.State → Multiset Ref}
  {held : backends.State → Set Ref}

theorem turnPut_succ {turn : ℕ} {name : Name} (here : backends.storageBackends[turn]? = some name) :
    turnPut backends allocator keys memoryObjs location start heap (turn + 1) =
      putBackend backends keys memoryObjs location
        (turnPut backends allocator keys memoryObjs location start heap turn) name := by
  rw [turnPut, List.take_add_one, here, Option.toList_some, List.foldl_append]
  rfl

/-! ### The counts -/

/-- The objects of a put are released or are in an entry, and an entry is released
at the end. -/
def Accounts (allocated : backends.State → Multiset Ref) (start : backends.State)
    (memoryObjs : List (MemoryObj Ref Format)) (put : PutState backends Data) : Prop :=
  allocated start + (put.released : Multiset Ref) + entryObjects put.objDict =
    allocated put.state + (memoryObjs.map MemoryObj.ref : Multiset Ref)

omit [DecidableEq Ref] in
theorem entryObjects_insert {objDict : AList fun _ : Name => List Key × List Ref} {cname : Name}
    (absent : objDict.lookup cname = none) (entry : List Key × List Ref) :
    entryObjects (objDict.insert cname entry) =
      (entry.2 : Multiset Ref) + entryObjects objDict := by
  have missing : cname ∉ objDict := AList.lookup_eq_none.mp absent
  rw [entryObjects, AList.entries_insert_of_notMem missing, List.flatMap_cons, ← Multiset.coe_add,
    entryObjects]

theorem Accounts.prepare (records : backends.Records allocated)
    (accounts : Accounts allocated start memoryObjs put) (cname : Name) :
    Accounts allocated start memoryObjs (prepare backends keys memoryObjs put cname) := by
  unfold Put.prepare
  split
  · exact accounts
  rename_i absent
  have balanced : Balanced allocated (allocated put.state)
      (allocateAndCopyObjects backends cname keys memoryObjs put.state put.heap).1 :=
    balanced_copyItems records cname (keys.zip memoryObjs) put.state
  unfold Accounts Balanced at *
  dsimp only
  generalize (allocateAndCopyObjects backends cname keys memoryObjs put.state put.heap).1 = copied
    at balanced ⊢
  rw [balanced, entryObjects_insert absent, ← Multiset.coe_add]
  calc allocated start + ((put.released : Multiset Ref) + (copied.released : Multiset Ref)) +
        ((copied.allocatedObjects : Multiset Ref) + entryObjects put.objDict)
      = allocated start + (put.released : Multiset Ref) + entryObjects put.objDict +
          (copied.allocatedObjects : Multiset Ref) + (copied.released : Multiset Ref) := by abel
    _ = _ := by
      rw [accounts]
      abel

theorem Accounts.putBackend (records : backends.Records allocated)
    (accounts : Accounts allocated start memoryObjs put) (name : Name) :
    Accounts allocated start memoryObjs (putBackend backends keys memoryObjs location put name) := by
  unfold Put.putBackend
  split
  · exact accounts
  split
  · exact accounts
  have ready : Accounts allocated start memoryObjs
      (Put.prepare backends keys memoryObjs put (backends.getAllocatorBackend name)) :=
    accounts.prepare records _
  unfold Accounts at ready ⊢
  dsimp only
  rw [records.submit]
  exact ready

omit [DecidableEq Ref] in
theorem accounts_startPut (allocated : backends.State → Multiset Ref) :
    Accounts allocated start memoryObjs (startPut backends allocator keys memoryObjs start heap) := by
  have inserted := entryObjects_insert
    (AList.lookup_empty (β := fun _ : Name => List Key × List Ref) allocator)
    (keys, memoryObjs.map MemoryObj.ref)
  unfold Accounts startPut
  dsimp only
  rw [inserted]
  change allocated start + 0 + ((memoryObjs.map MemoryObj.ref : Multiset Ref) + 0) = _
  rw [add_zero, add_zero]

/-! ### The entries and the submissions -/

/-- The entry of an allocator: the arguments of the put for its own, and for another
one the copies that were made at the turn of some backend. -/
def EntryOf (backends : Backends Name Key Ref Format) (allocator : Name) (keys : List Key)
    (memoryObjs : List (MemoryObj Ref Format)) (location : Option Name) (start : backends.State)
    (heap : Ref → Data) (cname : Name) (entry : List Key × List Ref) : Prop :=
  (cname = allocator ∧ entry = (keys, memoryObjs.map MemoryObj.ref)) ∨
    cname ≠ allocator ∧ ∃ turn, ∃ stop ≤ (keys.zip memoryObjs).length,
      let put := turnPut backends allocator keys memoryObjs location start heap turn
      let result := allocateAndCopyObjects backends cname keys memoryObjs put.state put.heap
      AlignedCopies cname (keys.zip memoryObjs) put.state put.heap stop result ∧
        entry = (result.1.allocatedKeys, result.1.allocatedObjects)

/-- The backends before a turn that were selected at theirs. -/
def selectedBefore (backends : Backends Name Key Ref Format) (allocator : Name) (keys : List Key)
    (memoryObjs : List (MemoryObj Ref Format)) (location : Option Name) (start : backends.State)
    (heap : Ref → Data) (turn : ℕ) : List Name :=
  ((backends.storageBackends.take turn).zipIdx.filter fun backend => selected location
    (turnPut backends allocator keys memoryObjs location start heap backend.2) backend.1).map
      Prod.fst

theorem selectedBefore_succ {turn : ℕ} {name : Name}
    (here : backends.storageBackends[turn]? = some name) :
    selectedBefore backends allocator keys memoryObjs location start heap (turn + 1) =
      selectedBefore backends allocator keys memoryObjs location start heap turn ++
        if selected location
          (turnPut backends allocator keys memoryObjs location start heap turn) name then [name]
        else [] := by
  have length : (backends.storageBackends.take turn).length = turn :=
    List.length_take_of_le (List.getElem?_eq_some_iff.mp here).1.le
  rw [selectedBefore, List.take_add_one, here, Option.toList_some, List.zipIdx_append, length,
    Nat.zero_add, List.filter_append, List.map_append]
  congr 1
  cases chosen : selected location
    (turnPut backends allocator keys memoryObjs location start heap turn) name <;> simp [chosen]

/-- What holds before each turn. -/
structure Submitting (backends : Backends Name Key Ref Format) (allocator : Name)
    (keys : List Key) (memoryObjs : List (MemoryObj Ref Format)) (location : Option Name)
    (start : backends.State) (heap : Ref → Data) (turn : ℕ) (put : PutState backends Data) :
    Prop where
  own : put.objDict.lookup allocator = some (keys, memoryObjs.map MemoryObj.ref)
  entries : ∀ cname entry, put.objDict.lookup cname = some entry →
    EntryOf backends allocator keys memoryObjs location start heap cname entry
  names : put.submissions.map Submission.backend =
    selectedBefore backends allocator keys memoryObjs location start heap turn
  submissions : ∀ submission ∈ put.submissions,
    put.objDict.lookup (backends.getAllocatorBackend submission.backend) =
      some (submission.keys, submission.objects)

omit [DecidableEq Ref] in
theorem lookup_startPut {cname : Name} {entry : List Key × List Ref}
    (found : (startPut backends allocator keys memoryObjs start heap).objDict.lookup cname =
      some entry) : cname = allocator ∧ entry = (keys, memoryObjs.map MemoryObj.ref) := by
  by_cases same : cname = allocator
  · subst same
    exact ⟨rfl, Option.some.inj (found.symm.trans (AList.lookup_insert _))⟩
  · have empty := (AList.lookup_insert_ne same).symm.trans found
    rw [AList.lookup_empty] at empty
    cases empty

theorem submitting_startPut : Submitting backends allocator keys memoryObjs location start heap 0
    (startPut backends allocator keys memoryObjs start heap) where
  own := AList.lookup_insert _
  entries := fun _ _ found => .inl (lookup_startPut found)
  names := rfl
  submissions := fun _ member => absurd member List.not_mem_nil

/-- The caller's objects are held, and so are those of the entries, at every turn. -/
theorem aligned_turnPut (lawful : backends.Lawful held)
    (sources : ∀ memoryObj ∈ memoryObjs, memoryObj.ref ∈ held start) (turn : ℕ) :
    Aligned held keys memoryObjs start heap
      (turnPut backends allocator keys memoryObjs location start heap turn) := by
  unfold turnPut
  generalize backends.storageBackends.take turn = names
  have begins : Aligned held keys memoryObjs start heap
      (startPut backends allocator keys memoryObjs start heap) := aligned_start sources allocator
  generalize startPut backends allocator keys memoryObjs start heap = put at begins ⊢
  induction names generalizing put with
  | nil => exact begins
  | cons name names ih => exact ih _ (begins.putBackend lawful sources location name)

/-- The entry of an allocator is made at its first turn and stays. -/
theorem Submitting.prepare (lawful : backends.Lawful held)
    (sources : ∀ memoryObj ∈ memoryObjs, memoryObj.ref ∈ held start) {turn : ℕ}
    (submitting : Submitting backends allocator keys memoryObjs location start heap turn
      (turnPut backends allocator keys memoryObjs location start heap turn)) (cname : Name) :
    let put := turnPut backends allocator keys memoryObjs location start heap turn
    Submitting backends allocator keys memoryObjs location start heap turn
        (prepare backends keys memoryObjs put cname) ∧
      ∃ entry, (prepare backends keys memoryObjs put cname).objDict.lookup cname = some entry := by
  intro put
  have aligned : Aligned held keys memoryObjs start heap put := aligned_turnPut lawful sources turn
  unfold Put.prepare
  split
  · rename_i entry found
    exact ⟨submitting, entry, found⟩
  rename_i absent
  obtain ⟨stop, inside, progress, stops⟩ :=
    exists_progress cname (keys.zip memoryObjs) put.state lawful
  have paired : ∀ item ∈ keys.zip memoryObjs, item.2.ref ∈ held put.state := fun item member =>
    aligned.holds (sources item.2 (List.of_mem_zip member).2)
  have copies := progress.alignedCopies paired stops put.heap
  have other : cname ≠ allocator := by
    rintro rfl
    rw [submitting.own] at absent
    cases absent
  -- the other entries stay as they are
  have kept {name : Name} {entry : List Key × List Ref} (new : List Key × List Ref)
      (found : put.objDict.lookup name = some entry) :
      (put.objDict.insert cname new).lookup name = some entry := by
    have apart : name ≠ cname := by
      rintro rfl
      rw [absent] at found
      cases found
    exact (AList.lookup_insert_ne apart).trans found
  refine ⟨⟨kept _ submitting.own, fun name entry found => ?_, submitting.names,
    fun submission member => kept _ (submitting.submissions submission member)⟩, _,
    AList.lookup_insert _⟩
  by_cases same : name = cname
  · subst same
    obtain rfl := Option.some.inj ((AList.lookup_insert _).symm.trans found)
    exact .inr ⟨other, turn, stop, inside, copies, rfl⟩
  · exact submitting.entries name entry ((AList.lookup_insert_ne same).symm.trans found)

/-- **One turn.** -/
theorem Submitting.step (lawful : backends.Lawful held)
    (sources : ∀ memoryObj ∈ memoryObjs, memoryObj.ref ∈ held start) {turn : ℕ} {name : Name}
    (here : backends.storageBackends[turn]? = some name)
    (submitting : Submitting backends allocator keys memoryObjs location start heap turn
      (turnPut backends allocator keys memoryObjs location start heap turn)) :
    Submitting backends allocator keys memoryObjs location start heap (turn + 1)
      (turnPut backends allocator keys memoryObjs location start heap (turn + 1)) := by
  have names : selectedBefore backends allocator keys memoryObjs location start heap (turn + 1) =
      _ := selectedBefore_succ here
  have skipped (refused : selected location
      (turnPut backends allocator keys memoryObjs location start heap turn) name = false) :
      Submitting backends allocator keys memoryObjs location start heap (turn + 1)
        (turnPut backends allocator keys memoryObjs location start heap turn) := by
    rw [refused, if_neg Bool.false_ne_true, List.append_nil] at names
    exact ⟨submitting.own, submitting.entries, submitting.names.trans names.symm,
      submitting.submissions⟩
  rw [turnPut_succ here]
  unfold Put.putBackend
  split
  · rename_i elsewhere
    exact skipped (by rw [selected, elsewhere]; rfl)
  rename_i located
  split
  · rename_i bypassed
    exact skipped (by rw [selected, bypassed, Bool.not_true, Bool.and_false])
  rename_i active
  have chosen : selected location
      (turnPut backends allocator keys memoryObjs location start heap turn) name = true := by
    rw [selected, Bool.eq_false_of_not_eq_true located, Bool.eq_false_of_not_eq_true active]
    rfl
  rw [chosen, if_pos rfl] at names
  obtain ⟨ready, entry, found⟩ :=
    submitting.prepare lawful sources (backends.getAllocatorBackend name)
  dsimp only
  refine ⟨ready.own, ready.entries, ?_, fun submission member => ?_⟩
  · rw [List.map_append, ready.names]
    exact names.symm
  · rcases List.mem_append.mp member with earlier | this
    · exact ready.submissions submission earlier
    · obtain rfl := List.mem_singleton.mp this
      rw [found, Option.getD_some]

/-- **All turns.** -/
theorem submitting_turnPut (lawful : backends.Lawful held)
    (sources : ∀ memoryObj ∈ memoryObjs, memoryObj.ref ∈ held start) {turn : ℕ}
    (inside : turn ≤ backends.storageBackends.length) :
    Submitting backends allocator keys memoryObjs location start heap turn
      (turnPut backends allocator keys memoryObjs location start heap turn) := by
  induction turn with
  | zero => exact submitting_startPut
  | succ turn ih =>
      exact (ih (Nat.le_of_succ_le inside)).step lawful sources
        (List.getElem?_eq_getElem (Nat.lt_of_succ_le inside))

theorem accounts_turnPut (records : backends.Records allocated) (turn : ℕ) :
    Accounts allocated start memoryObjs
      (turnPut backends allocator keys memoryObjs location start heap turn) := by
  unfold turnPut
  generalize backends.storageBackends.take turn = names
  have begins : Accounts allocated start memoryObjs
      (startPut backends allocator keys memoryObjs start heap) := accounts_startPut allocated
  generalize startPut backends allocator keys memoryObjs start heap = put at begins ⊢
  induction names generalizing put with
  | nil => exact begins
  | cons name names ih => exact ih _ (begins.putBackend records name)

/-- **The put.** What is allocated and what was given is released once. The backends at
the location that are not bypassed at their turns are called, each once and in
order, with the entry of its allocator: the arguments of the put, or the aligned
copies. Every submitted object has the content that belongs to its key. -/
theorem batchedPut_releases (lawful : backends.Lawful held) (records : backends.Records allocated)
    (sources : ∀ memoryObj ∈ memoryObjs, memoryObj.ref ∈ held start)
    (returned : batchedPut backends keys memoryObjs location start heap = some put) :
    ∃ allocator, backends.allocatorBackend = some allocator ∧
      allocated start + (put.released : Multiset Ref) =
        allocated put.state + (memoryObjs.map MemoryObj.ref : Multiset Ref) ∧
      put.submissions.map Submission.backend = selectedBefore backends allocator keys memoryObjs
        location start heap backends.storageBackends.length ∧
      (∀ submission ∈ put.submissions,
        put.objDict.lookup (backends.getAllocatorBackend submission.backend) =
            some (submission.keys, submission.objects) ∧
          EntryOf backends allocator keys memoryObjs location start heap
            (backends.getAllocatorBackend submission.backend)
            (submission.keys, submission.objects)) ∧
      ∀ submission ∈ put.submissions,
        Belong keys memoryObjs heap (submission.keys.zip submission.objects) submission.heap := by
  have belong := submissions_belong lawful sources returned
  obtain ⟨allocator, named, rfl⟩ := Option.map_eq_some_iff.mp returned
  have whole : turnPut backends allocator keys memoryObjs location start heap
      backends.storageBackends.length = backends.storageBackends.foldl
        (putBackend backends keys memoryObjs location)
        (startPut backends allocator keys memoryObjs start heap) := by
    rw [turnPut, List.take_length]
  have submitting : Submitting backends allocator keys memoryObjs location start heap
      backends.storageBackends.length _ := submitting_turnPut lawful sources le_rfl
  have accounts : Accounts allocated start memoryObjs (turnPut backends allocator keys memoryObjs
      location start heap backends.storageBackends.length) := accounts_turnPut records _
  rw [whole] at submitting accounts
  refine ⟨allocator, named, ?_, submitting.names, fun submission member => ?_, belong⟩
  · refine Eq.trans ?_ accounts
    rw [add_assoc]
    exact congrArg (allocated start + ·) (Multiset.coe_add _ _).symm
  · have found := submitting.submissions submission member
    exact ⟨found, submitting.entries _ _ found⟩

end Put

theorem countingBackends_records : countingBackends.Records fun state : ℕ => Multiset.range state
    where
  contains _ _ _ := rfl
  allocate state _ _ := by
    simp only [countingBackends]
    split
    · exact (Multiset.range_succ (state : ℕ)).trans
        ((Multiset.singleton_add _ _).symm.trans (add_comm _ _))
    · exact (add_zero _).symm
  submit _ _ _ _ := rfl

/-- One object twice among three, two copies for the two backends with the other
allocator. -/
theorem batchedPut_releases_threeKeys :
    ∃ put, batchedPut countingBackends [5, 7, 9]
        [⟨0, [2], .float16, ()⟩, ⟨1, [2], .float16, ()⟩, ⟨0, [2], .float16, ()⟩] none (2 : ℕ)
          (fun ref => ref + 10) = some put ∧
      Multiset.range 2 + (put.released : Multiset ℕ) =
        Multiset.range (put.state : ℕ) + (([0, 1, 0] : List ℕ) : Multiset ℕ) := by
  have sources : ∀ memoryObj ∈ ([⟨0, [2], .float16, ()⟩, ⟨1, [2], .float16, ()⟩,
      ⟨0, [2], .float16, ()⟩] : List (MemoryObj ℕ Unit)),
        memoryObj.ref ∈ {ref : ℕ | ref < (2 : ℕ)} := by
    simp
  obtain ⟨put, returned⟩ : ∃ put, batchedPut countingBackends [5, 7, 9]
      [⟨0, [2], .float16, ()⟩, ⟨1, [2], .float16, ()⟩, ⟨0, [2], .float16, ()⟩] none (2 : ℕ)
        (fun ref => ref + 10) = some put := ⟨_, rfl⟩
  obtain ⟨_, _, counts, _⟩ :=
    batchedPut_releases countingBackends_lawful countingBackends_records sources returned
  exact ⟨put, returned, counts⟩

/-- The allocator of the disk holds the key already, so nothing is submitted for it. -/
theorem not_submitted_held :
    ¬ ∀ (keys : List ℕ) (memoryObjs : List (MemoryObj ℕ Unit))
      (put : PutState countingBackends ℕ), keys.length = memoryObjs.length →
      batchedPut countingBackends keys memoryObjs none (2 : ℕ) (fun ref => ref + 10) = some put →
        ∀ submission ∈ put.submissions, submission.keys = keys := by
  intro every
  have disk := every [7] [⟨0, [2], .float16, ()⟩] _ rfl rfl ⟨"disk", [], [], fun ref => ref + 10⟩
    (List.mem_cons_of_mem _ (List.mem_cons_of_mem _ List.mem_cons_self))
  cases disk

end LMCacheHcu.Put
