import LMCacheHcu.Layerwise.BufferContents

/-! # Every order of execution of a buffered load

Between two synchronisations the current stream works on one buffer and the load
stream on the other one. The old positions are the exception: they are filled with
zeros on the current stream, and the load stream writes them without waiting for it.
-/

namespace LMCacheHcu.Layerwise

open Generator Streams SlotRows

namespace LoadInput

variable {Row : Type} (input : LoadInput Row) (ops : RowOps Row) (cachePositions : Bool)

/-- What a load issues. -/
def loadIssues : List (LoadIssue Row) :=
  enqueueAll .current (openingOps cachePositions) ++
    (List.range' 0 (input.numLayers + 2)).flatMap (input.roundIssues cachePositions)

variable {input} {ops} {cachePositions}

/-- **The generator** yields once for each layer and twice more. Entries that an
abandoned run has left in `buffer_mapping` do not matter. -/
theorem WellFormed.run_bufferedToGpu (valid : input.WellFormed)
    {bufferMapping : OrderedDict ℕ Bool}
    (known : ∀ name ∈ bufferMapping.names, name < input.numLayers)
    (first resume finish : Option (List (ChunkObj Row))) :
    drive (bufferedToGpu (input.call cachePositions) bufferMapping)
        (first :: (input.objs.map some ++ [resume, finish])) =
      ⟨input.loadIssues cachePositions, List.replicate (input.numLayers + 2) (),
        .stopIteration⟩ := by
  have start : input.LoopAt 0 ⟨false, true, bufferMapping⟩ :=
    ⟨fun _ => ⟨rfl, rfl⟩, fun later => absurd later (by omega),
      fun name member => ⟨Nat.zero_le _, known name member⟩⟩
  have loop : (loadLoop (input.plan cachePositions) (List.range' 0 (input.numLayers + 2))
      ⟨false, true, bufferMapping⟩).run ((input.objs.drop 0).map some ++ [resume, finish]) =
        ⟨(List.range' 0 (input.numLayers + 2)).flatMap (input.roundIssues cachePositions),
          List.replicate (max (input.numLayers + 2 - 0) 1) (), .stopIteration⟩ :=
    valid.run_loadLoop (Nat.zero_add _) start (if_pos (Nat.zero_le _)).symm
  rw [List.drop_zero, Nat.sub_zero, Nat.max_eq_left (by omega)] at loop
  have layers : (input.plan cachePositions).numLayers = input.numLayers := rfl
  have opening : (if (input.plan cachePositions).cachePositions then
      enqueueAll .current [.zeroPositions] else [] : List (LoadIssue Row)) =
        enqueueAll .current (openingOps cachePositions) := by
    cases cachePositions <;> rfl
  rw [drive, bufferedToGpu, valid.plan_eq]
  dsimp only
  rw [Body.run_emitAll, List.range_eq_range', layers, loop, opening]
  rfl

/-! ### What may wait together -/

/-- Operations of the current stream on one buffer. -/
def ComputesOn (buffer : Bool) : DeviceOp Row → Prop
  | .rotateKeys target _ => target = buffer
  | .zeroRows target _ => target = buffer
  | .transfer source _ _ => source = buffer
  | _ => False

/-- Copies of the load stream into one buffer. -/
def Fills (buffer : Bool) : DeviceOp Row → Prop
  | .copyKeys target _ _ => target = buffer
  | .copyValues target _ _ => target = buffer
  | _ => False

/-- The fill with zeros overwrites cached positions. -/
def Overwrites : DeviceOp Row → DeviceOp Row → Prop
  | .zeroPositions, .setPositions _ _ => True
  | _, _ => False

theorem commute_of_buffers {buffer : Bool} {first second : DeviceOp Row}
    (computes : ComputesOn buffer first) (fills : Fills (!buffer) second) :
    Commute (Device.apply ops) first second := by
  have apart : buffer ≠ !buffer := (Bool.not_ne_self buffer).symm
  intro device
  cases second with
  | copyKeys target place rows =>
      obtain rfl : target = !buffer := fills
      cases first with
      | rotateKeys target position =>
          obtain rfl : target = buffer := computes
          simp only [Device.apply, Function.update_of_ne apart, Function.update_of_ne apart.symm,
            Function.update_comm apart]
      | zeroRows target gaps =>
          obtain rfl : target = buffer := computes
          simp only [Device.apply, Function.update_of_ne apart, Function.update_of_ne apart.symm,
            Function.update_comm apart]
      | transfer source layer slots =>
          obtain rfl : source = buffer := computes
          simp only [Device.apply, Function.update_of_ne apart]
      | _ => exact computes.elim
  | copyValues target place rows =>
      obtain rfl : target = !buffer := fills
      cases first with
      | rotateKeys target position => rfl
      | zeroRows target gaps =>
          obtain rfl : target = buffer := computes
          simp only [Device.apply, Function.update_of_ne apart, Function.update_of_ne apart.symm,
            Function.update_comm apart]
      | transfer source layer slots =>
          obtain rfl : source = buffer := computes
          simp only [Device.apply, Function.update_of_ne apart]
      | _ => exact computes.elim
  | _ => exact fills.elim

theorem commute_zeroPositions {buffer : Bool} {second : DeviceOp Row}
    (fills : Fills buffer second) :
    Commute (Device.apply ops) .zeroPositions second := by
  intro device
  cases second with
  | copyKeys target place rows => rfl
  | copyValues target place rows => rfl
  | _ => exact fills.elim

theorem mem_recoverOps {layer : ℕ} {op : DeviceOp Row}
    (member : op ∈ input.recoverOps cachePositions layer) : ComputesOn (bufferOf layer) op := by
  unfold recoverOps at member
  rcases List.mem_append.mp member with rotates | clears
  · split at rotates
    · obtain rfl := List.mem_singleton.mp rotates
      rfl
    · cases rotates
  · split at clears
    · cases clears
    · obtain rfl := List.mem_singleton.mp clears
      rfl

theorem mem_flushOps {layer : ℕ} {op : DeviceOp Row}
    (member : op ∈ input.flushOps cachePositions (layer + 2)) : ComputesOn (bufferOf layer) op := by
  unfold flushOps at member
  rw [if_pos (by omega)] at member
  obtain rfl := List.mem_singleton.mp member
  rfl

theorem mem_receiveOps {layer : ℕ} {op : DeviceOp Row}
    (member : op ∈ input.receiveOps cachePositions layer) :
    Fills (bufferOf layer) op ∨ layer = 0 ∧ Overwrites .zeroPositions op := by
  obtain ⟨entry, -, copies⟩ := List.mem_flatMap.mp member
  unfold chunkOps at copies
  rcases List.mem_append.mp copies with rows | positions
  · rcases List.mem_pair.mp rows with rfl | rfl
    · exact .inl rfl
    · exact .inl rfl
  · split at positions
    · next first =>
        obtain rfl := List.mem_singleton.mp positions
        exact .inr ⟨of_decide_eq_true (Bool.and_eq_true_iff.mp first).2, trivial⟩
    · cases positions

/-- The operations on a recovered layer do not touch the buffer of the next one. -/
theorem commute_later {layer : ℕ} {op load : DeviceOp Row}
    (computes : ComputesOn (bufferOf layer) op)
    (member : load ∈ input.receiveOps cachePositions (layer + 1)) :
    Commute (Device.apply ops) op load := by
  apply commute_of_buffers computes
  rw [← bufferOf_succ]
  exact (mem_receiveOps member).resolve_right fun first => absurd first.1 (Nat.succ_ne_zero _)

variable (input) (cachePositions) in
/-- What the current stream may still have to do before a round. -/
def currentBefore : ℕ → List (DeviceOp Row)
  | 0 => openingOps cachePositions
  | 1 => openingOps cachePositions
  | layer + 2 => input.recoverOps cachePositions layer

variable (input) (cachePositions) in
/-- What the load stream may still have to do before a round. -/
def loadBefore : ℕ → List (DeviceOp Row)
  | 0 => []
  | layer + 1 => input.receiveOps cachePositions layer

variable (input) (cachePositions) in
def waitingBefore (layer : ℕ) : List (GpuStream × DeviceOp Row) :=
  ((input.currentBefore cachePositions layer).map fun op => (.current, op)) ++
    (input.loadBefore cachePositions layer).map fun op => (.load, op)

/-- Operations of the two streams that wait together, in the order of a round. -/
theorem pairwise_streams {before loads after : List (DeviceOp Row)}
    (first : ∀ op ∈ before, ∀ load ∈ loads,
      Overwrites op load ∨ Commute (Device.apply ops) op load)
    (second : ∀ load ∈ loads, ∀ op ∈ after, Commute (Device.apply ops) op load) :
    (((before.map fun op => (GpuStream.current, op)) ++ loads.map fun op => (GpuStream.load, op)) ++
      after.map fun op => (GpuStream.current, op)).Pairwise
        (Independent (Device.apply ops) Overwrites) := by
  have alone (stream : GpuStream) (list : List (DeviceOp Row)) :
      (list.map fun op => (stream, op)).Pairwise (Independent (Device.apply ops) Overwrites) := by
    apply List.pairwise_map.mpr
    exact List.pairwise_of_forall fun _ _ different => absurd rfl different
  rw [List.pairwise_append, List.pairwise_append]
  refine ⟨⟨alone .current before, alone .load loads, ?_⟩, alone .current after, ?_⟩
  · intro left leftMember right rightMember _
    obtain ⟨op, member, rfl⟩ := List.mem_map.mp leftMember
    obtain ⟨load, loadMember, rfl⟩ := List.mem_map.mp rightMember
    exact first op member load loadMember
  · intro left leftMember right rightMember different
    obtain ⟨op, member, rfl⟩ := List.mem_map.mp rightMember
    rcases List.mem_append.mp leftMember with current | loads
    · obtain ⟨earlier, -, rfl⟩ := List.mem_map.mp current
      exact absurd rfl different
    · obtain ⟨load, loadMember, rfl⟩ := List.mem_map.mp loads
      exact .inr fun device => (second load loadMember op member device).symm

/-- What waits when a round synchronises, or when the loop ends. -/
theorem pairwise_waitingBefore (layer : ℕ) :
    (input.waitingBefore cachePositions layer ++
      (input.flushOps cachePositions layer).map fun op => (GpuStream.current, op)).Pairwise
        (Independent (Device.apply ops) Overwrites) := by
  apply pairwise_streams
  · intro op member load loadMember
    match layer with
    | 0 => cases loadMember
    | 1 =>
        have zero : op ∈ openingOps cachePositions := member
        unfold openingOps at zero
        split at zero
        · obtain rfl := List.mem_singleton.mp zero
          rcases mem_receiveOps loadMember with fills | ⟨-, overwritten⟩
          · exact .inr (commute_zeroPositions fills)
          · exact .inl overwritten
        · cases zero
    | layer + 2 => exact .inr (commute_later (mem_recoverOps member) loadMember)
  · intro load loadMember op member
    match layer with
    | 0 => cases loadMember
    | 1 => cases member
    | layer + 2 => exact commute_later (mem_flushOps member) loadMember

/-- **The streams stay apart** for the whole load. -/
theorem apart_rounds {rounds layer : ℕ} (upTo : layer + rounds = input.numLayers + 2)
    (begun : layer ≤ input.numLayers + 1) :
    Apart (Device.apply ops) Overwrites (input.waitingBefore cachePositions layer)
      ((List.range' layer rounds).flatMap (input.roundIssues cachePositions)) := by
  induction rounds generalizing layer with
  | zero => omega
  | succ rounds ih =>
      rw [List.range'_succ, List.flatMap_cons, roundIssues, List.append_assoc, List.append_assoc,
        apart_enqueueAll_append]
      by_cases recovers : 0 < layer ∧ layer ≤ input.numLayers
      · rw [if_pos recovers, List.cons_append]
        refine ⟨pairwise_waitingBefore layer, ?_⟩
        rw [apart_enqueueAll_append, apart_enqueueAll_append]
        have next : Apart _ _ (input.waitingBefore cachePositions (layer + 1)) _ :=
          ih (by omega) (by omega)
        obtain ⟨previous, rfl⟩ := Nat.exists_eq_add_of_lt recovers.1
        rw [zero_add] at next ⊢
        exact next
      · rw [if_neg recovers, List.nil_append, apart_enqueueAll_append]
        rcases Nat.eq_zero_or_pos layer with rfl | later
        · have next : Apart _ _ (input.waitingBefore cachePositions 1) _ :=
            ih (by omega) (by omega)
          have unflushed : input.flushOps cachePositions 0 = ([] : List (DeviceOp Row)) := rfl
          have waiting : input.waitingBefore cachePositions 0 =
            (openingOps cachePositions).map fun op => (.current, op) := List.append_nil _
          rw [unflushed, List.map_nil, List.append_nil, waiting]
          exact next
        · obtain rfl : layer = input.numLayers + 1 := by omega
          obtain rfl : rounds = 0 := by omega
          rw [receiveOps_of_le (Nat.le_succ _), List.map_nil, List.append_nil]
          exact pairwise_waitingBefore _

theorem apart_loadIssues :
    Apart (Device.apply ops) Overwrites [] (input.loadIssues cachePositions) := by
  have rounds : Apart (Device.apply ops) Overwrites (input.waitingBefore cachePositions 0) _ :=
    apart_rounds (Nat.zero_add (input.numLayers + 2)) (Nat.zero_le _)
  have waiting : input.waitingBefore cachePositions 0 =
    (openingOps cachePositions).map fun op => (.current, op) := List.append_nil _
  rw [loadIssues, apart_enqueueAll_append, List.nil_append, ← waiting]
  exact rounds

/-! ### The guarantees of a load -/

theorem inOrder_loadIssues :
    inOrder (input.loadIssues cachePositions) =
      (openingOps cachePositions ++ input.receiveOps cachePositions 0) ++
        (List.range' 1 (input.numLayers + 1)).flatMap (input.roundOps cachePositions) := by
  have first : input.roundOps cachePositions 0 = input.receiveOps cachePositions 0 := rfl
  rw [loadIssues, inOrder_append, inOrder_enqueueAll, inOrder_flatMap, List.range'_succ,
    List.flatMap_cons, ← List.append_assoc]
  simp only [inOrder_roundIssues, first]

/-- No round fills the old positions with zeros. -/
theorem not_overwrites {layer : ℕ} {op : DeviceOp Row}
    (member : op ∈ input.roundOps cachePositions layer) (earlier : DeviceOp Row) :
    ¬ Overwrites op earlier := by
  have other : op ≠ .zeroPositions := by
    rintro rfl
    unfold roundOps at member
    rcases List.mem_append.mp member with current | receives
    · rcases List.mem_append.mp current with flushes | recovers
      · unfold flushOps at flushes
        split at flushes
        · exact nomatch List.mem_singleton.mp flushes
        · cases flushes
      · split at recovers
        · exact mem_recoverOps recovers
        · cases recovers
    · exact (mem_receiveOps receives).elim id fun first => first.2
  cases op <;> first | exact fun overwrites => overwrites | exact absurd rfl other

/-- The order of issue fills the old positions before it writes them. -/
theorem kept_inOrder : (inOrder (input.loadIssues cachePositions)).Pairwise
    fun earlier later => ¬ Overwrites later earlier := by
  have rounds : inOrder (input.loadIssues cachePositions) = openingOps cachePositions ++
      (List.range' 0 (input.numLayers + 2)).flatMap (input.roundOps cachePositions) := by
    rw [loadIssues, inOrder_append, inOrder_enqueueAll, inOrder_flatMap]
    simp only [inOrder_roundIssues]
  have later (op : DeviceOp Row) (member : op ∈ (List.range' 0 (input.numLayers + 2)).flatMap
      (input.roundOps cachePositions)) (earlier : DeviceOp Row) : ¬ Overwrites op earlier := by
    obtain ⟨layer, -, inside⟩ := List.mem_flatMap.mp member
    exact not_overwrites inside earlier
  rw [rounds, List.pairwise_append]
  refine ⟨?_, List.pairwise_of_forall_mem_list fun earlier _ op member => later op member earlier,
    fun earlier _ op member => later op member earlier⟩
  cases cachePositions
  · exact .nil
  · exact List.pairwise_singleton _ _

/-- In the order of issue a load does what it should. -/
theorem WellFormed.loaded_inOrder (valid : input.WellFormed) (start : Device Row) :
    input.Before ops cachePositions input.cachedPosition start (input.numLayers + 2)
      ((inOrder (input.loadIssues cachePositions)).foldl (Device.apply ops) start) := by
  rw [inOrder_loadIssues, List.foldl_append]
  apply valid.loaded_rounds Nat.one_pos (Nat.add_comm 1 _)
  have opening : ((openingOps cachePositions).foldl (Device.apply ops) start).paged =
      start.paged := by
    cases cachePositions <;> rfl
  apply before_one
  · rw [List.foldl_append, ← opening]
    exact (receive_frame input ops cachePositions 0 _).2.2.1
  · intro _
    rw [List.foldl_append]
    exact valid.receive 0 _
  · rintro rfl chunkIndex chunk offset here inside
    exact valid.opening_positions start here inside

variable (ops) in
/-- Every order that fills the old positions before it writes them has the effect of
the order of issue. -/
theorem WellFormed.loaded_order (valid : input.WellFormed) (start : Device Row)
    {order : List (DeviceOp Row)} (executes : Executes (input.loadIssues cachePositions) [] order)
    (kept : order.Pairwise fun earlier later => ¬ Overwrites later earlier) :
    input.Before ops cachePositions input.cachedPosition start (input.numLayers + 2)
      (order.foldl (Device.apply ops) start) := by
  rw [executes.foldl_eq apart_loadIssues kept, List.map_nil, List.nil_append]
  exact valid.loaded_inOrder start

variable (ops) (cachePositions) in
/-- **The buffered load in every order of execution.** The generator ends after a
yield for each layer and two more, whatever an abandoned run has left. In every order
that the streams may choose and that fills the old positions with zeros before it
writes them, each layer of the paged cache is loaded, and nothing else changes. -/
theorem WellFormed.loads_in_every_order (valid : input.WellFormed)
    {bufferMapping : OrderedDict ℕ Bool}
    (known : ∀ name ∈ bufferMapping.names, name < input.numLayers)
    (first resume finish : Option (List (ChunkObj Row))) (start : Device Row) :
    let run := drive (bufferedToGpu (input.call cachePositions) bufferMapping)
      (first :: (input.objs.map some ++ [resume, finish]))
    run.ended = .stopIteration ∧ run.outs.length = input.numLayers + 2 ∧
      ∀ order, Executes run.events [] order →
        (order.Pairwise fun earlier later => ¬ Overwrites later earlier) → ∀ layer,
          (layer < input.numLayers →
            input.Loaded ops cachePositions input.cachedPosition layer (start.paged layer)
              ((order.foldl (Device.apply ops) start).paged layer)) ∧
          (input.numLayers ≤ layer →
            (order.foldl (Device.apply ops) start).paged layer = start.paged layer) := by
  rw [valid.run_bufferedToGpu known]
  refine ⟨rfl, List.length_replicate, fun order executes kept layer => ?_⟩
  have loaded := valid.loaded_order ops start executes kept
  exact ⟨fun inside => loaded.loaded layer inside (by omega),
    fun outside => loaded.untouched layer (.inl outside)⟩

/-- A load of two layers, with a gap between its chunks. -/
def twoChunks : LoadInput ℤ where
  chunks := [(1, 3), (4, 5)]
  slotMapping := [9, 7, 5, 3, 8]
  objs := List.replicate 2
    [⟨true, [10, 11], [20, 21], some [0, 1]⟩, ⟨true, [12], [22], some [6]⟩]

theorem twoChunks_wellFormed : twoChunks.WellFormed where
  nonempty := List.cons_ne_nil _ _
  ordered := by decide
  proper := by decide
  mapped := by decide
  distinct := fun _ _ _ here there =>
    (List.getElem?_inj (List.getElem?_eq_some_iff.mp here).1 (by decide)).mp (here.trans there.symm)
  holds := by
    intro layer member
    obtain rfl := List.eq_of_mem_replicate member
    exact .cons ⟨rfl, rfl, rfl⟩ (.cons ⟨rfl, rfl, rfl⟩ .nil)
  positions := by
    intro layer member
    obtain rfl := Option.some.inj member
    exact .cons ⟨_, rfl, rfl⟩ (.cons ⟨_, rfl, rfl⟩ .nil)

/-- Keys that are numbers, moved by the distance. -/
def shiftOps : RowOps ℤ where
  rotary old position key := key + position - old
  zero := 0

/-- An empty device, and a mapping that an abandoned run has left. -/
def emptyDevice : Device ℤ := ⟨fun _ _ => 0, fun _ _ => 0, fun _ => 5, fun _ _ _ => 0⟩

theorem loads_in_every_order_twoChunks :
    let run := drive (bufferedToGpu (twoChunks.call true) (OrderedDict.empty.insert 1 false))
      (none :: (twoChunks.objs.map some ++ [none, none]))
    run.ended = .stopIteration ∧ run.outs.length = 4 ∧
      twoChunks.Loaded shiftOps true twoChunks.cachedPosition 1 (emptyDevice.paged 1)
        (((inOrder run.events).foldl (Device.apply shiftOps) emptyDevice).paged 1) := by
  have known : ∀ name ∈ (OrderedDict.empty.insert 1 false : OrderedDict ℕ Bool).names,
    name < twoChunks.numLayers := by decide
  have load := twoChunks_wellFormed.loads_in_every_order shiftOps true known none none none
    emptyDevice
  have kept : (inOrder (twoChunks.loadIssues true)).Pairwise _ := kept_inOrder
  rw [twoChunks_wellFormed.run_bufferedToGpu known] at load ⊢
  exact ⟨rfl, rfl, (load.2.2 _ (executes_inOrder _) kept 1).1 (by decide)⟩

/-- **The lost positions.** The streams may fill the old positions with zeros after
the cached positions are written; then every key is moved as if its old position
were zero. -/
theorem WellFormed.positions_lost (valid : input.WellFormed)
    {bufferMapping : OrderedDict ℕ Bool}
    (known : ∀ name ∈ bufferMapping.names, name < input.numLayers)
    (first resume finish : Option (List (ChunkObj Row))) :
    ∃ order, Executes (drive (bufferedToGpu (input.call true) bufferMapping)
        (first :: (input.objs.map some ++ [resume, finish]))).events [] order ∧
      ∀ (start : Device Row), ∀ layer < input.numLayers,
        input.Loaded ops true (fun _ _ => 0) layer (start.paged layer)
          ((order.foldl (Device.apply ops) start).paged layer) := by
  rw [valid.run_bufferedToGpu known]
  refine ⟨input.receiveOps true 0 ++ (.zeroPositions ::
    (List.range' 1 (input.numLayers + 1)).flatMap (input.roundOps true)), ?_, ?_⟩
  · have later := executes_inOrder
      ((List.range' 1 (input.numLayers + 1)).flatMap (input.roundIssues true))
    rw [inOrder_flatMap] at later
    simp only [inOrder_roundIssues] at later
    have firstRound : input.roundIssues true 0 = enqueueAll .load (input.receiveOps true 0) := rfl
    rw [loadIssues, List.range'_succ, List.flatMap_cons, firstRound]
    apply Executes.enqueueAll
    apply Executes.enqueueAll
    rw [List.nil_append]
    apply Executes.executeAll
    · intro other member
      obtain ⟨op, -, rfl⟩ := List.mem_map.mp member
      exact nofun
    · have alone : Executes _ ([] ++ (GpuStream.current, DeviceOp.zeroPositions) :: []) _ :=
        .execute (fun _ none => nomatch none) later
      exact alone
  · intro start layer inside
    rw [List.foldl_append, List.foldl_cons]
    have opened : input.Before ops true (fun _ _ => 0) start 1
        (((input.receiveOps true 0).foldl (Device.apply ops) start).apply ops .zeroPositions) :=
      before_one (receive_frame input ops true 0 start).2.2.1
        (fun _ => (valid.receive 0 start).congr rfl rfl) fun _ _ _ _ _ _ => rfl
    have loaded := valid.loaded_rounds Nat.one_pos (Nat.add_comm 1 _) opened
    exact loaded.loaded layer inside (by omega)

theorem positions_lost_twoChunks :
    ∃ order, Executes (drive (bufferedToGpu (twoChunks.call true) .empty)
        (none :: (twoChunks.objs.map some ++ [none, none]))).events [] order ∧
      ∀ (start : Device ℤ), ∀ layer < twoChunks.numLayers,
        twoChunks.Loaded shiftOps true (fun _ _ => 0) layer (start.paged layer)
          ((order.foldl (Device.apply shiftOps) start).paged layer) :=
  twoChunks_wellFormed.positions_lost
    (fun _ member => absurd member List.not_mem_nil) none none none

end LoadInput

end LMCacheHcu.Layerwise
