import LMCacheHcu.Layerwise.BufferGuarantees
import LMCacheHcu.Layerwise.BufferStores

/-! # From the paged cache and back

A store leaves in every object the rows of its tokens and their positions. A load of
these objects, at the same places or at others, brings every row to the slot of its
token, with the key moved from the position at which it was stored.
-/

namespace LMCacheHcu.Layerwise

open Generator Streams SlotRows

variable {Row : Type}

/-- A store: the ranges of its chunks, the slots of all tokens, and the objects of
each layer. -/
structure StoreInput (Row : Type) where
  chunks : List (ℕ × ℕ)
  slotMapping : List ℤ
  objs : List (List (ChunkObj Row))

namespace StoreInput

variable (input : StoreInput Row)

def numLayers : ℕ := input.objs.length

def call : StoreCall where
  numLayers := input.numLayers
  cachePositions := true
  buffersAllocated := true
  starts := input.chunks.map fun chunk => (chunk.1 : ℤ)
  ends := input.chunks.map fun chunk => (chunk.2 : ℤ)
  slotMapping := some input.slotMapping

/-- Ranges of tokens that have slots, and for each layer one object of the right size
for every chunk. -/
structure WellFormed : Prop where
  nonempty : input.chunks ≠ []
  proper : ∀ chunk ∈ input.chunks, chunk.1 ≤ chunk.2
  mapped : ∀ chunk ∈ input.chunks, chunk.2 ≤ input.slotMapping.length
  holds : ∀ layer ∈ input.objs, List.Forall₂ LoadInput.Holds input.chunks layer

def positions (chunk : ℕ × ℕ) : List ℤ :=
  (List.range (chunk.2 - chunk.1)).map fun offset : ℕ => (chunk.1 : ℤ) + offset

/-- The slots of the chunks, one after the other. -/
def slots : List ℤ :=
  input.chunks.flatMap fun chunk =>
    (input.slotMapping.drop chunk.1).take (chunk.2 - chunk.1)

/-- The places of the chunks in the buffer. -/
def places : ℕ → List (ℕ × ℕ) → List (ℕ × ℕ)
  | _, [] => []
  | first, chunk :: chunks =>
      (first, first + (chunk.2 - chunk.1)) :: places (first + (chunk.2 - chunk.1)) chunks

def plan : StorePlan where
  numLayers := input.numLayers
  slots := input.slots
  bufStartsEnds := (places 0 input.chunks).map fun place => ((place.1 : ℤ), (place.2 : ℤ))
  oldPositions := input.chunks.map positions

/-- The copies of one chunk. -/
def chunkOps (layer chunkIndex : ℕ) (chunk place : ℕ × ℕ) : List StoreOp :=
  let rows := List.range' place.1 (place.2 - place.1)
  [.copyKeys layer chunkIndex rows, .copyValues layer chunkIndex rows,
    .notePositions layer chunkIndex (positions chunk)]

def chunksOps (layer : ℕ) : ℕ → ℕ → List (ℕ × ℕ) → List StoreOp
  | _, _, [] => []
  | chunkIndex, first, chunk :: chunks =>
      chunkOps layer chunkIndex chunk (first, first + (chunk.2 - chunk.1)) ++
        chunksOps layer (chunkIndex + 1) (first + (chunk.2 - chunk.1)) chunks

/-- What a layer issues. -/
def layerOps (layer : ℕ) : List StoreOp :=
  .gather layer input.slots :: chunksOps layer 0 0 input.chunks

variable {input}

/-! ### The run of the generator -/

theorem arange_natCast {chunk : ℕ × ℕ} (proper : chunk.1 ≤ chunk.2) :
    arange (chunk.1 : ℤ) (chunk.2 : ℤ) = .ok (positions chunk) := by
  have size : ((chunk.2 : ℤ) - chunk.1).toNat = chunk.2 - chunk.1 := by omega
  rw [arange, if_neg (by omega), size]
  rfl

theorem bufStartsEnds_natCast (first : ℕ) {chunks : List (ℕ × ℕ)}
    (proper : ∀ chunk ∈ chunks, chunk.1 ≤ chunk.2) :
    bufStartsEnds (first : ℤ) (chunks.map fun chunk => ((chunk.1 : ℤ), (chunk.2 : ℤ))) =
      (places first chunks).map fun place => ((place.1 : ℤ), (place.2 : ℤ)) := by
  induction chunks generalizing first with
  | nil => rfl
  | cons chunk chunks ih =>
      obtain ⟨head, rest⟩ := List.forall_mem_cons.mp proper
      have next : (first : ℤ) + chunk.2 - chunk.1 = (first + (chunk.2 - chunk.1) : ℕ) := by omega
      rw [List.map_cons, bufStartsEnds, next, ih _ rest]
      rfl

theorem WellFormed.plan_eq (valid : input.WellFormed) : input.call.plan = .ok input.plan := by
  have ranges : input.call.starts.zip input.call.ends =
      input.chunks.map fun chunk => ((chunk.1 : ℤ), (chunk.2 : ℤ)) := by
    simp only [call, List.zip_map']
  have collected (chunks : List (ℕ × ℕ)) (proper : ∀ chunk ∈ chunks, chunk.1 ≤ chunk.2) :
      (chunks.map fun chunk => ((chunk.1 : ℤ), (chunk.2 : ℤ))).mapM
        (fun range => arange range.1 range.2) = .ok (chunks.map positions) := by
    induction chunks with
    | nil => rfl
    | cons chunk chunks ih =>
        obtain ⟨head, rest⟩ := List.forall_mem_cons.mp proper
        rw [List.map_cons, List.mapM_cons, arange_natCast head, ih rest]
        rfl
  have slots : ((input.chunks.map fun chunk => ((chunk.1 : ℤ), (chunk.2 : ℤ))).flatMap
      fun range => pySlice input.slotMapping range.1 range.2) = input.slots := by
    rw [List.flatMap_map]
    apply List.flatMap_congr
    intro chunk member
    have mapped := valid.mapped chunk member
    have proper := valid.proper chunk member
    rw [pySlice, LoadInput.clampIndex_natCast mapped, LoadInput.clampIndex_natCast (by omega)]
  have some : input.chunks.map (fun chunk => ((chunk.1 : ℤ), (chunk.2 : ℤ))) ≠ [] := by
    rw [Ne, List.map_eq_nil_iff]
    exact valid.nonempty
  have placed := bufStartsEnds_natCast 0 valid.proper
  rw [Nat.cast_zero] at placed
  unfold StoreCall.plan
  rw [ranges]
  simp only [call, if_true, collected _ valid.proper, slots, placed, if_neg some]
  rfl

/-- Sending the chunks of a layer raises nothing. -/
theorem sendChunks_eq {numTokens layer : ℕ} (chunkIndex first : ℕ) {chunks : List (ℕ × ℕ)}
    {objs : List (ChunkObj Row)} (holds : List.Forall₂ LoadInput.Holds chunks objs)
    (fits : first + (chunks.map fun chunk => chunk.2 - chunk.1).sum ≤ numTokens) :
    sendChunks numTokens layer chunkIndex
        (((places first chunks).map fun place => ((place.1 : ℤ), (place.2 : ℤ))).zip
          (objs.zip (chunks.map positions))) =
      (chunksOps layer chunkIndex first chunks, none) := by
  induction holds generalizing chunkIndex first with
  | nil => rfl
  | @cons chunk obj chunks objs head _ ih =>
      rw [List.map_cons, List.sum_cons] at fits
      have rest := ih (chunkIndex + 1) (first + (chunk.2 - chunk.1)) (by omega)
      have count : first + (chunk.2 - chunk.1) - first = chunk.2 - chunk.1 := by omega
      have sent : sendChunk numTokens layer chunkIndex
          (((first : ℤ), ((first + (chunk.2 - chunk.1) : ℕ) : ℤ)), obj, positions chunk) =
            (chunkOps layer chunkIndex chunk (first, first + (chunk.2 - chunk.1)), none) := by
        unfold sendChunk chunkOps
        rw [LoadInput.clampIndex_natCast (by omega : first ≤ numTokens),
          LoadInput.clampIndex_natCast (by omega : first + (chunk.2 - chunk.1) ≤ numTokens)]
        simp only [broadcastTo, List.length_range', count, head.keys, head.values, if_true]
      rw [places, List.map_cons, List.map_cons, List.zip_cons_cons, List.zip_cons_cons, sendChunks,
        sent, rest]
      rfl

theorem WellFormed.length_slots (valid : input.WellFormed) :
    input.slots.length = (input.chunks.map fun chunk => chunk.2 - chunk.1).sum := by
  rw [slots, List.length_flatMap]
  congr 1
  apply List.map_congr_left
  intro chunk member
  have mapped := valid.mapped chunk member
  rw [List.length_take, List.length_drop]
  omega

/-- What the rounds of a store issue. -/
def roundIssues (input : StoreInput Row) (layer : ℕ) : List StoreIssue :=
  enqueueAll .store (input.layerOps layer) ++ [.synchronize]

theorem WellFormed.run_storeLoop (valid : input.WellFormed) {rounds layer : ℕ}
    (upTo : layer + rounds = input.numLayers) :
    (storeLoop input.plan input.objs (List.range' layer rounds)).run
        (List.replicate (rounds + 1) ()) =
      ⟨(List.range' layer rounds).flatMap input.roundIssues, List.replicate (rounds + 1) (),
        .stopIteration⟩ := by
  induction rounds generalizing layer with
  | zero => rfl
  | succ rounds ih =>
      have inside : layer < input.objs.length := by
        change layer < input.numLayers
        omega
      have holds := valid.holds _ (List.getElem_mem inside)
      have sent : sendChunks input.plan.slots.length layer 0
          (input.plan.bufStartsEnds.zip (input.objs[layer].zip input.plan.oldPositions)) =
            (chunksOps layer 0 0 input.chunks, none) :=
        sendChunks_eq 0 0 holds (by rw [Nat.zero_add]; exact valid.length_slots.ge)
      rw [List.range'_succ, storeLoop, List.getElem?_eq_getElem inside]
      dsimp only
      rw [sent]
      dsimp only
      rw [Body.run_emitAll, List.replicate_succ, Body.run_yield_cons, Body.run_emit,
        ih (by omega), List.flatMap_cons, roundIssues, List.append_assoc]
      rfl

/-! ### What a store leaves in the objects -/

/-- An object after a store, from what it was before: the rows at the slots of its
chunk's tokens, and their positions. -/
structure Stored (slotMapping : List ℤ) (paged : Bool → ℕ → Row) (chunk : ℕ × ℕ)
    (before after : ChunkObj Row) : Prop where
  isKv2td : after.isKv2td = before.isKv2td
  keysLength : after.keys.length = chunk.2 - chunk.1
  valuesLength : after.values.length = chunk.2 - chunk.1
  cachedPositions : after.cachedPositions = some (positions chunk)
  rows : ∀ offset slot : ℕ, offset < chunk.2 - chunk.1 →
    slotMapping[chunk.1 + offset]? = some (slot : ℤ) →
      after.keys[offset]? = some (paged false slot) ∧
        after.values[offset]? = some (paged true slot)

/-- The slots of a chunk stand at its place in the buffer. -/
theorem slots_place (slotMapping : List ℤ) {chunks : List (ℕ × ℕ)}
    (mapped : ∀ chunk ∈ chunks, chunk.2 ≤ slotMapping.length) {first chunkIndex : ℕ}
    {chunk place : ℕ × ℕ} (here : chunks[chunkIndex]? = some chunk)
    (there : (places first chunks)[chunkIndex]? = some place) :
    first ≤ place.1 ∧ place.2 - place.1 = chunk.2 - chunk.1 ∧
      ∀ offset < chunk.2 - chunk.1,
        (chunks.flatMap fun chunk => (slotMapping.drop chunk.1).take (chunk.2 - chunk.1))[
          place.1 - first + offset]? = slotMapping[chunk.1 + offset]? := by
  induction chunks generalizing first chunkIndex with
  | nil => cases here
  | cons head chunks ih =>
      obtain ⟨headMapped, restMapped⟩ := List.forall_mem_cons.mp mapped
      have size : ((slotMapping.drop head.1).take (head.2 - head.1)).length =
          head.2 - head.1 := by
        rw [List.length_take, List.length_drop]
        omega
      cases chunkIndex with
      | zero =>
          obtain rfl : head = chunk := Option.some.inj here
          obtain rfl : (first, first + (head.2 - head.1)) = place := Option.some.inj there
          refine ⟨le_rfl, Nat.add_sub_cancel_left _ _, fun offset inside => ?_⟩
          dsimp only
          rw [Nat.sub_self, Nat.zero_add, List.flatMap_cons,
            List.getElem?_append_left (by rw [size]; exact inside), List.getElem?_take,
            if_pos inside, List.getElem?_drop]
      | succ chunkIndex =>
          obtain ⟨after, same, known⟩ := ih restMapped here there
          refine ⟨by omega, same, fun offset inside => ?_⟩
          rw [List.flatMap_cons, List.getElem?_append_right (by rw [size]; omega), size,
            ← known offset inside]
          congr 1
          omega

variable (paged : ℕ → Bool → ℕ → Row)

/-- An object after its copies. -/
def sentObj (device : StoreDevice Row) (chunk place : ℕ × ℕ) (obj : ChunkObj Row) : ChunkObj Row :=
  let rows := List.range' place.1 (place.2 - place.1)
  { obj with
    keys := rows.map device.keys
    values := rows.map device.values
    cachedPositions := some (positions chunk) }

theorem foldl_chunkOps (layer chunkIndex : ℕ) (chunk place : ℕ × ℕ) (device : StoreDevice Row) :
    (chunkOps layer chunkIndex chunk place).foldl (StoreDevice.apply paged) device =
      device.updateObj layer chunkIndex (sentObj device chunk place) := by
  simp only [chunkOps, List.foldl_cons, List.foldl_nil, StoreDevice.apply,
    StoreDevice.updateObj, Function.update_self, Function.update_idem, sentObj]

/-- The copies of a layer change the objects of its chunks only. -/
theorem foldl_chunksOps (layer chunkIndex first : ℕ) (chunks : List (ℕ × ℕ))
    (device : StoreDevice Row) :
    let after := (chunksOps layer chunkIndex first chunks).foldl (StoreDevice.apply paged) device
    after.keys = device.keys ∧ after.values = device.values ∧
      (∀ other number, other ≠ layer ∨ number < chunkIndex ∨
        chunkIndex + chunks.length ≤ number → after.objs other number = device.objs other number) ∧
      ∀ offset chunk place, chunks[offset]? = some chunk →
        (places first chunks)[offset]? = some place →
          after.objs layer (chunkIndex + offset) =
            sentObj device chunk place (device.objs layer (chunkIndex + offset)) := by
  induction chunks generalizing chunkIndex first device with
  | nil => exact ⟨rfl, rfl, fun _ _ _ => rfl, fun _ _ _ none => nomatch none⟩
  | cons head chunks ih =>
      rw [chunksOps, List.foldl_append, foldl_chunkOps]
      have rest := ih (chunkIndex + 1) (first + (head.2 - head.1))
        (device.updateObj layer chunkIndex
          (sentObj device head (first, first + (head.2 - head.1))))
      dsimp only at rest ⊢
      obtain ⟨keys, values, kept, sent⟩ := rest
      refine ⟨keys, values, fun other number outside => ?_,
        fun offset chunk place here there => ?_⟩
      · rw [List.length_cons] at outside
        rw [kept other number (by omega), device.updateObj_of_ne _ (by omega)]
      · cases offset with
        | zero =>
            obtain rfl : head = chunk := Option.some.inj here
            obtain rfl : (first, first + (head.2 - head.1)) = place := Option.some.inj there
            exact (kept layer chunkIndex (.inr (.inl (Nat.lt_succ_self _)))).trans
              (device.updateObj_self layer chunkIndex _)
        | succ offset =>
            have moved := sent offset chunk place here there
            rw [device.updateObj_of_ne _ (.inr (by omega))] at moved
            rw [show chunkIndex + (offset + 1) = chunkIndex + 1 + offset by omega, moved]
            rfl

/-- **One layer of a store.** -/
theorem WellFormed.store_layer (valid : input.WellFormed) (layer : ℕ)
    (device : StoreDevice Row) :
    let after := (input.layerOps layer).foldl (StoreDevice.apply paged) device
    (∀ other number, other ≠ layer ∨ input.chunks.length ≤ number →
        after.objs other number = device.objs other number) ∧
      ∀ number chunk, input.chunks[number]? = some chunk →
        Stored input.slotMapping (paged layer) chunk (device.objs layer number)
          (after.objs layer number) := by
  rw [layerOps, List.foldl_cons]
  have copies := foldl_chunksOps paged layer 0 0 input.chunks
    (device.apply paged (.gather layer input.slots))
  dsimp only at copies ⊢
  obtain ⟨-, -, kept, sent⟩ := copies
  refine ⟨fun other number outside => kept other number (by omega), fun number chunk here => ?_⟩
  have long (first : ℕ) (chunks : List (ℕ × ℕ)) : (places first chunks).length = chunks.length := by
    induction chunks generalizing first with
    | nil => rfl
    | cons _ _ ih => exact congrArg (· + 1) (ih _)
  obtain ⟨place, there⟩ : ∃ place, (places 0 input.chunks)[number]? = some place := by
    have inside := (List.getElem?_eq_some_iff.mp here).1
    exact ⟨_, List.getElem?_eq_getElem (by rw [long]; exact inside)⟩
  obtain ⟨-, size, slotsOf⟩ := slots_place input.slotMapping valid.mapped here there
  have moved := sent number chunk place here there
  rw [Nat.zero_add] at moved
  rw [moved]
  refine ⟨rfl, ?_, ?_, rfl, fun offset slot inside mapped => ?_⟩
  · rw [sentObj, List.length_map, List.length_range', size]
  · rw [sentObj, List.length_map, List.length_range', size]
  · have gathered := slotsOf offset inside
    rw [Nat.sub_zero, mapped] at gathered
    have row (half : Bool) (old : ℕ → Row) :
        gather input.slots (paged layer half) old (place.1 + offset) =
          paged layer half slot := gather_of_getElem? gathered _ _
    have place' : (List.range' place.1 (place.2 - place.1))[offset]? = some (place.1 + offset) := by
      rw [List.getElem?_range' (by omega), Nat.one_mul]
    simp only [sentObj, List.getElem?_map, place', Option.map_some, StoreDevice.apply]
    exact ⟨congrArg some (row false _), congrArg some (row true _)⟩

theorem WellFormed.store_layers (valid : input.WellFormed) (rounds layer : ℕ)
    (device : StoreDevice Row) :
    let after := ((List.range' layer rounds).flatMap input.layerOps).foldl
      (StoreDevice.apply paged) device
    (∀ other number, other < layer ∨ layer + rounds ≤ other ∨ input.chunks.length ≤ number →
        after.objs other number = device.objs other number) ∧
      ∀ other number chunk, layer ≤ other → other < layer + rounds →
        input.chunks[number]? = some chunk →
          Stored input.slotMapping (paged other) chunk (device.objs other number)
            (after.objs other number) := by
  induction rounds generalizing layer device with
  | zero => exact ⟨fun _ _ _ => rfl, fun _ _ _ _ _ _ => by omega⟩
  | succ rounds ih =>
      rw [List.range'_succ, List.flatMap_cons, List.foldl_append]
      obtain ⟨kept, stored⟩ := valid.store_layer paged layer device
      obtain ⟨laterKept, laterStored⟩ := ih (layer + 1)
        ((input.layerOps layer).foldl (StoreDevice.apply paged) device)
      refine ⟨fun other number outside => ?_, fun other number chunk from_ upTo here => ?_⟩
      · rw [laterKept other number (by omega), kept other number (by omega)]
      · rcases Nat.eq_or_lt_of_le from_ with rfl | later
        · rw [laterKept layer number (.inl (Nat.lt_succ_self _))]
          exact stored number chunk here
        · have result := laterStored other number chunk later (by omega) here
          rwa [kept other number (.inl later.ne')] at result

variable (input) in
/-- What a store issues. -/
def storeIssues : List StoreIssue :=
  (List.range' 0 input.numLayers).flatMap input.roundIssues

theorem WellFormed.run_bufferedFromGpu (valid : input.WellFormed) :
    drive (bufferedFromGpu input.call input.objs) (() :: List.replicate (input.numLayers + 1) ()) =
      ⟨input.storeIssues, List.replicate (input.numLayers + 1) (), .stopIteration⟩ := by
  have layers : input.plan.numLayers = input.numLayers := rfl
  rw [drive, bufferedFromGpu, valid.plan_eq]
  dsimp only
  rw [List.range_eq_range', layers]
  exact valid.run_storeLoop (Nat.zero_add _)

/-- The single stream of a store leaves one order of execution. -/
theorem storeIssues_order {order : List StoreOp} (executes : Executes input.storeIssues [] order) :
    order = (List.range' 0 input.numLayers).flatMap input.layerOps := by
  have issued : ∀ issue ∈ input.storeIssues, issue.On GpuStream.store := by
    intro issue member
    obtain ⟨layer, -, inside⟩ := List.mem_flatMap.mp member
    rcases List.mem_append.mp inside with enqueued | last
    · exact on_enqueueAll issue enqueued
    · obtain rfl := List.mem_singleton.mp last
      trivial
  have rounds (layer : ℕ) : inOrder (input.roundIssues layer) = input.layerOps layer := by
    rw [roundIssues, inOrder_append, inOrder_enqueueAll]
    exact List.append_nil _
  rw [executes.eq_inOrder nofun issued, List.map_nil, List.nil_append, storeIssues,
    inOrder_flatMap]
  simp only [rounds]

/-- What a store leaves, in the order that its stream executes. -/
theorem WellFormed.stored_order (valid : input.WellFormed) {order : List StoreOp}
    (executes : Executes input.storeIssues [] order) (device : StoreDevice Row) :
    (∀ layer number, input.numLayers ≤ layer ∨ input.chunks.length ≤ number →
        (order.foldl (StoreDevice.apply paged) device).objs layer number =
          device.objs layer number) ∧
      ∀ layer < input.numLayers, ∀ number chunk, input.chunks[number]? = some chunk →
        Stored input.slotMapping (paged layer) chunk (device.objs layer number)
          ((order.foldl (StoreDevice.apply paged) device).objs layer number) := by
  obtain ⟨kept, stored⟩ := valid.store_layers paged input.numLayers 0 device
  rw [storeIssues_order executes]
  refine ⟨fun layer number outside => ?_, fun layer inside number chunk here => ?_⟩
  · exact kept layer number (by omega)
  · exact stored layer number chunk (Nat.zero_le _) (by omega) here

/-- **The buffered store.** The generator ends after a yield for each layer and one
more, and in the only order that its stream may choose each object gets the rows of its
chunk and their positions, while all other objects keep what they had. -/
theorem WellFormed.stores (valid : input.WellFormed) :
    let run := drive (bufferedFromGpu input.call input.objs)
      (() :: List.replicate (input.numLayers + 1) ())
    run.ended = .stopIteration ∧ run.outs.length = input.numLayers + 1 ∧
      ∀ order, Executes run.events [] order → ∀ device,
        (∀ layer number, input.numLayers ≤ layer ∨ input.chunks.length ≤ number →
          (order.foldl (StoreDevice.apply paged) device).objs layer number =
            device.objs layer number) ∧
        ∀ layer < input.numLayers, ∀ number chunk, input.chunks[number]? = some chunk →
          Stored input.slotMapping (paged layer) chunk (device.objs layer number)
            ((order.foldl (StoreDevice.apply paged) device).objs layer number) := by
  rw [valid.run_bufferedFromGpu]
  exact ⟨rfl, List.length_replicate, fun order executes device =>
    valid.stored_order paged executes device⟩

/-- A store of two layers. -/
def twoStored : StoreInput ℤ where
  chunks := [(0, 2), (2, 3)]
  slotMapping := [4, 0, 2]
  objs := List.replicate 2 [⟨true, [0, 0], [0, 0], none⟩, ⟨true, [0], [0], none⟩]

theorem twoStored_wellFormed : twoStored.WellFormed where
  nonempty := List.cons_ne_nil _ _
  proper := by decide
  mapped := by decide
  holds := by
    intro layer member
    obtain rfl := List.eq_of_mem_replicate member
    exact .cons ⟨rfl, rfl, rfl⟩ (.cons ⟨rfl, rfl, rfl⟩ .nil)

/-- Rows that are numbers, each different. -/
def cells (layer : ℕ) (half : Bool) (slot : ℕ) : ℤ :=
  100 * layer + (if half then 50 else 0) + slot

/-- Objects that have nothing yet. -/
def blankDevice : StoreDevice ℤ := ⟨fun _ => 0, fun _ => 0, fun _ _ => ⟨true, [], [], none⟩⟩

theorem stores_twoStored :
    let run := drive (bufferedFromGpu twoStored.call twoStored.objs) (() :: List.replicate 3 ())
    run.ended = .stopIteration ∧ run.outs.length = 3 ∧
      Stored [4, 0, 2] (cells 1) (0, 2) ⟨true, [], [], none⟩
        (((inOrder run.events).foldl (StoreDevice.apply cells) blankDevice).objs 1 0) := by
  have store := twoStored_wellFormed.stores cells
  exact ⟨store.1, store.2.1,
    (store.2.2 _ (executes_inOrder _) blankDevice).2 1 Nat.one_lt_two 0 (0, 2) rfl⟩

/-! ### The round trip -/

/-- The load of the stored objects, with the chunks at other places. -/
def reload (input : StoreInput Row) (chunks : List (ℕ × ℕ)) (slotMapping : List ℤ)
    (device : StoreDevice Row) : LoadInput Row where
  chunks := chunks
  slotMapping := slotMapping
  objs := (List.range input.numLayers).map fun layer =>
    (List.range input.chunks.length).map fun number => device.objs layer number

/-- The places of a load: those of a well-formed load, each chunk of the size that it
has in the store. -/
structure Places (input : StoreInput Row) (chunks : List (ℕ × ℕ)) (slotMapping : List ℤ) :
    Prop where
  ordered : chunks.Pairwise fun left right => left.2 ≤ right.1
  proper : ∀ chunk ∈ chunks, chunk.1 ≤ chunk.2
  mapped : ∀ chunk ∈ chunks, chunk.2 ≤ slotMapping.length
  distinct : ∀ token other slot : ℕ, slotMapping[token]? = some (slot : ℤ) →
    slotMapping[other]? = some (slot : ℤ) → token = other
  sizes : List.Forall₂ (fun stored loaded : ℕ × ℕ => stored.2 - stored.1 = loaded.2 - loaded.1)
    input.chunks chunks

variable {chunks : List (ℕ × ℕ)} {slotMapping : List ℤ} {device : StoreDevice Row}

/-- Stored objects can be loaded. -/
theorem WellFormed.reload_wellFormed (valid : input.WellFormed)
    (placed : input.Places chunks slotMapping)
    (stored : ∀ layer < input.numLayers, ∀ number chunk, input.chunks[number]? = some chunk →
      ∃ before paged, before.isKv2td = true ∧
        Stored input.slotMapping paged chunk before (device.objs layer number)) :
    (input.reload chunks slotMapping device).WellFormed := by
  have same := placed.sizes.length_eq
  have known {layer number : ℕ} (inside : layer < input.numLayers)
      (short : number < input.chunks.length) (long : number < chunks.length) :
      ∃ before paged, before.isKv2td = true ∧
        Stored input.slotMapping paged input.chunks[number] before (device.objs layer number) ∧
          input.chunks[number].2 - input.chunks[number].1 =
            chunks[number].2 - chunks[number].1 := by
    obtain ⟨before, paged, format, objs⟩ :=
      stored layer inside number _ (List.getElem?_eq_getElem short)
    exact ⟨before, paged, format, objs, placed.sizes.get short long⟩
  have layers {R : ℕ × ℕ → ChunkObj Row → Prop} {layer : ℕ}
      (each : ∀ number (short : number < input.chunks.length) (long : number < chunks.length),
        R chunks[number] (device.objs layer number)) :
      List.Forall₂ R chunks
        ((List.range input.chunks.length).map fun number => device.objs layer number) := by
    apply List.forall₂_iff_get.mpr
    refine ⟨by rw [List.length_map, List.length_range, same], fun number long short => ?_⟩
    rw [List.length_map, List.length_range] at short
    simp only [List.get_eq_getElem, List.getElem_map, List.getElem_range]
    exact each number short long
  refine ⟨?_, placed.ordered, placed.proper, placed.mapped, placed.distinct, ?_, ?_⟩
  · intro none
    have empty : chunks = [] := none
    rw [empty, List.length_nil] at same
    exact valid.nonempty (List.length_eq_zero_iff.mp same)
  · intro layer member
    obtain ⟨index, inside, rfl⟩ := List.mem_map.mp member
    apply layers
    intro number short long
    obtain ⟨before, paged, format, objs, sizes⟩ := known (List.mem_range.mp inside) short long
    exact ⟨objs.isKv2td.trans format, objs.keysLength.trans sizes, objs.valuesLength.trans sizes⟩
  · intro layer member
    have head : (input.reload chunks slotMapping device).objs[0]? = some layer := by
      rw [← List.head?_eq_getElem?]
      exact member
    obtain ⟨index, inside, rfl⟩ := List.mem_map.mp (List.mem_of_getElem? head)
    apply layers
    intro number short long
    obtain ⟨before, paged, format, objs, sizes⟩ := known (List.mem_range.mp inside) short long
    refine ⟨_, objs.cachedPositions, ?_⟩
    rw [positions, List.length_map, List.length_range, sizes]

theorem WellFormed.reload_order (valid : input.WellFormed)
    (formats : ∀ layer number, (device.objs layer number).isKv2td = true)
    (placed : input.Places chunks slotMapping) {order : List StoreOp}
    (executes : Executes input.storeIssues [] order) :
    (input.reload chunks slotMapping
      (order.foldl (StoreDevice.apply paged) device)).WellFormed := by
  have stored := (valid.stored_order paged executes device).2
  exact valid.reload_wellFormed placed fun layer inside number chunk here =>
    ⟨_, _, formats layer number, stored layer inside number chunk here⟩

/-- **The round trip.** Whatever order of execution the streams choose, storing chunks
of a paged cache and loading their objects at other places brings every row to the slot
of its token, with its key moved from its position in the store to that in the load. -/
theorem WellFormed.round_trip (valid : input.WellFormed)
    (formats : ∀ layer number, (device.objs layer number).isKv2td = true)
    (placed : input.Places chunks slotMapping) (ops : RowOps Row) (start : Device Row) :
    ∀ storeOrder, Executes (drive (bufferedFromGpu input.call input.objs)
        (() :: List.replicate (input.numLayers + 1) ())).events [] storeOrder →
      let load := input.reload chunks slotMapping
        (storeOrder.foldl (StoreDevice.apply paged) device)
      ∀ loadOrder, Executes (drive (bufferedToGpu (load.call true) .empty)
          (none :: (load.objs.map some ++ [none, none]))).events [] loadOrder →
        (loadOrder.Pairwise fun earlier later => ¬ LoadInput.Overwrites later earlier) →
        ∀ layer < input.numLayers, ∀ (number offset slot target : ℕ) (chunk place : ℕ × ℕ),
          input.chunks[number]? = some chunk → chunks[number]? = some place →
          offset < chunk.2 - chunk.1 →
          input.slotMapping[chunk.1 + offset]? = some (slot : ℤ) →
          slotMapping[place.1 + offset]? = some (target : ℤ) →
            (loadOrder.foldl (Device.apply ops) start).paged layer false target =
                ops.rotary (chunk.1 + offset : ℕ) (place.1 + offset : ℕ) (paged layer false slot) ∧
              (loadOrder.foldl (Device.apply ops) start).paged layer true target =
                paged layer true slot := by
  rw [valid.run_bufferedFromGpu]
  intro storeOrder stores load loadOrder loads kept layer inside number offset slot target
    chunk place here there short source arrives
  have stored := (valid.stored_order paged stores device).2
  have loadValid : load.WellFormed := valid.reload_order paged formats placed stores
  have layers : load.numLayers = input.numLayers := by
    simp only [LoadInput.numLayers, load, reload, List.length_map, List.length_range]
  rw [loadValid.run_bufferedToGpu fun _ member => absurd member List.not_mem_nil] at loads
  have result := (loadValid.loaded_order ops start loads kept).loaded layer (by omega) (by omega)
  have objOf (layer : ℕ) (inside : layer < input.numLayers) : load.objOf layer number =
      some ((storeOrder.foldl (StoreDevice.apply paged) device).objs layer number) := by
    have column := (List.getElem?_eq_some_iff.mp here).1
    simp only [LoadInput.objOf, load, reload, List.getElem?_map, List.getElem?_range inside,
      List.getElem?_range column, Option.map_some, Option.bind_some]
  have position : load.cachedPosition number offset = (chunk.1 + offset : ℕ) := by
    rw [LoadInput.cachedPosition, objOf 0 (by omega), Option.bind_some,
      (stored 0 (by omega) number chunk here).cachedPositions, Option.bind_some, positions,
      List.getElem?_map, List.getElem?_range short, Option.map_some, Option.getD_some,
      Nat.cast_add]
  have rows := (stored layer inside number chunk here).rows offset slot short source
  have loaded (row : Row) := result.rows number place _ offset target row there
    (objOf layer inside) arrives
  have key := (loaded _).1 rows.1
  rw [position] at key
  exact ⟨key, (loaded _).2 rows.2⟩

/-- The places of a load with a gap between the chunks. -/
theorem twoStored_places : twoStored.Places [(1, 3), (4, 5)] [9, 7, 5, 3, 8] where
  ordered := by decide
  proper := by decide
  mapped := by decide
  distinct := LoadInput.twoChunks_wellFormed.distinct
  sizes := .cons rfl (.cons rfl .nil)

theorem round_trip_twoStored :
    let stored := (inOrder (drive (bufferedFromGpu twoStored.call twoStored.objs)
      (() :: List.replicate (twoStored.numLayers + 1) ())).events).foldl
        (StoreDevice.apply cells) blankDevice
    let load := twoStored.reload [(1, 3), (4, 5)] [9, 7, 5, 3, 8] stored
    let loaded := (inOrder (drive (bufferedToGpu (load.call true) .empty)
      (none :: (load.objs.map some ++ [none, none]))).events).foldl
        (Device.apply LoadInput.shiftOps) LoadInput.emptyDevice
    loaded.paged 1 false 5 = 101 ∧ loaded.paged 1 true 5 = 150 := by
  intro stored load loaded
  have formats : ∀ layer number, (blankDevice.objs layer number).isKv2td = true := fun _ _ => rfl
  have storeEvents : (drive (bufferedFromGpu twoStored.call twoStored.objs)
      (() :: List.replicate (twoStored.numLayers + 1) ())).events = twoStored.storeIssues :=
    congrArg Run.events twoStored_wellFormed.run_bufferedFromGpu
  have valid : load.WellFormed := by
    apply twoStored_wellFormed.reload_order cells formats twoStored_places
    rw [← storeEvents]
    exact executes_inOrder _
  have kept : (inOrder (load.loadIssues true)).Pairwise _ := LoadInput.kept_inOrder
  have nothing : ∀ name ∈ (OrderedDict.empty : OrderedDict ℕ Bool).names,
    name < load.numLayers := fun _ member => absurd member List.not_mem_nil
  have loadEvents : (drive (bufferedToGpu (load.call true) .empty)
      (none :: (load.objs.map some ++ [none, none]))).events = load.loadIssues true :=
    congrArg Run.events (valid.run_bufferedToGpu nothing none none none)
  rw [← loadEvents] at kept
  have trip := twoStored_wellFormed.round_trip cells formats twoStored_places LoadInput.shiftOps
    LoadInput.emptyDevice _ (executes_inOrder _) _ (executes_inOrder _) kept 1 Nat.one_lt_two
    0 1 0 5 (0, 2) (1, 3) rfl rfl Nat.one_lt_two rfl rfl
  have key : LoadInput.shiftOps.rotary (0 + 1 : ℕ) (1 + 1 : ℕ) (cells 1 false 0) = 101 := rfl
  have value : cells 1 true 0 = 150 := rfl
  rw [← key, ← value]
  dsimp only at trip
  simp only [loaded, load, stored]
  exact trip

end StoreInput

end LMCacheHcu.Layerwise
