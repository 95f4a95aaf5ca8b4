import LMCacheHcu.Layerwise.BufferPipeline

/-! # What the buffered load pipeline leaves in the paged cache

The chunks of a load are ordered ranges of tokens. Whatever order of execution the
streams choose, each layer of the paged cache gets the rows of the chunks at the
slots of their tokens, keys moved to their new positions, and zeros at the slots of
the tokens between the chunks.
-/

namespace LMCacheHcu.Layerwise

open Generator Streams SlotRows

variable {Row : Type}

/-! ### The input of a load -/

/-- A load: the ranges of its chunks, the slots of all tokens, and the objects of
each layer. -/
structure LoadInput (Row : Type) where
  chunks : List (ℕ × ℕ)
  slotMapping : List ℤ
  objs : List (List (ChunkObj Row))

namespace LoadInput

variable (input : LoadInput Row)

def numLayers : ℕ := input.objs.length

def first : ℕ := ((input.chunks.head?).map Prod.fst).getD 0

def last : ℕ := ((input.chunks.getLast?).map Prod.snd).getD 0

def call (cachePositions : Bool) : LoadCall where
  numLayers := input.numLayers
  cachePositions := cachePositions
  buffersAllocated := true
  starts := input.chunks.map fun chunk => (chunk.1 : ℤ)
  ends := input.chunks.map fun chunk => (chunk.2 : ℤ)
  slotMapping := some input.slotMapping

/-- An object holds the rows of its chunk. -/
structure Holds (chunk : ℕ × ℕ) (obj : ChunkObj Row) : Prop where
  isKv2td : obj.isKv2td = true
  keys : obj.keys.length = chunk.2 - chunk.1
  values : obj.values.length = chunk.2 - chunk.1

/-- What the callers promise: ascending ranges of tokens that have slots, each slot
for one token, and for each layer one object of the right size for every chunk; the
objects of the first layer know their positions. -/
structure WellFormed : Prop where
  nonempty : input.chunks ≠ []
  ordered : input.chunks.Pairwise fun left right => left.2 ≤ right.1
  proper : ∀ chunk ∈ input.chunks, chunk.1 ≤ chunk.2
  mapped : ∀ chunk ∈ input.chunks, chunk.2 ≤ input.slotMapping.length
  distinct : ∀ token other slot : ℕ, input.slotMapping[token]? = some (slot : ℤ) →
    input.slotMapping[other]? = some (slot : ℤ) → token = other
  holds : ∀ layer ∈ input.objs, List.Forall₂ Holds input.chunks layer
  positions : ∀ layer ∈ input.objs.head?, List.Forall₂ (fun chunk obj =>
    ∃ positions, obj.cachedPositions = some positions ∧ positions.length = chunk.2 - chunk.1)
      input.chunks layer

variable {input}

/-- All chunks lie between the first start and the last end. -/
theorem WellFormed.between (valid : input.WellFormed) {chunk : ℕ × ℕ}
    (member : chunk ∈ input.chunks) : input.first ≤ chunk.1 ∧ chunk.2 ≤ input.last := by
  have proper := valid.proper
  have ordered := valid.ordered
  unfold first last
  constructor
  · cases chunks : input.chunks with
    | nil => rw [chunks] at member; cases member
    | cons head rest =>
        rw [chunks] at member ordered proper
        rw [List.head?_cons, Option.map_some, Option.getD_some]
        rcases List.mem_cons.mp member with rfl | later
        · exact le_rfl
        · exact (proper head List.mem_cons_self).trans (List.rel_of_pairwise_cons ordered later)
  · obtain ⟨front, final, chunks⟩ :=
      (List.eq_nil_or_concat input.chunks).resolve_left valid.nonempty
    rw [chunks] at member ordered proper ⊢
    rw [List.concat_eq_append] at *
    rw [List.getLast?_append, List.getLast?_singleton, Option.some_or, Option.map_some,
      Option.getD_some]
    rcases List.mem_append.mp member with earlier | same
    · have before := (List.pairwise_append.mp ordered).2.2 chunk earlier final (by simp)
      exact before.trans (proper final (by simp))
    · rw [List.mem_singleton.mp same]

variable (input) in
/-- The chunks by their places in the buffer. -/
def bufferRanges : List (ℕ × ℕ) :=
  input.chunks.map fun chunk => (chunk.1 - input.first, chunk.2 - input.first)

variable (input) in
/-- The loop data of a well-formed load. -/
def plan (cachePositions : Bool) : LoadPlan where
  numLayers := input.numLayers
  cachePositions := cachePositions
  ranges := input.chunks.map fun chunk => ((chunk.1 : ℤ), (chunk.2 : ℤ))
  first := input.first
  numAllTokens := input.last - input.first
  slots := (input.slotMapping.drop input.first).take (input.last - input.first)
  gaps := (List.range (input.last - input.first)).filter fun index =>
    ∀ range ∈ input.bufferRanges, ¬ (range.1 ≤ index ∧ index < range.2)

theorem clampIndex_natCast {length index : ℕ} (inside : index ≤ length) :
    clampIndex length (index : ℤ) = index := by
  unfold clampIndex
  rw [if_neg (by omega), Int.toNat_natCast, Nat.min_eq_left inside]

theorem WellFormed.clamp (valid : input.WellFormed) {chunk : ℕ × ℕ}
    (member : chunk ∈ input.chunks) :
    clampIndex (input.last - input.first) ((chunk.1 : ℤ) - input.first) =
        chunk.1 - input.first ∧
      clampIndex (input.last - input.first) ((chunk.2 : ℤ) - input.first) =
        chunk.2 - input.first := by
  have between := valid.between member
  have proper := valid.proper chunk member
  constructor
  · rw [show (chunk.1 : ℤ) - input.first = ((chunk.1 - input.first : ℕ) : ℤ) by omega,
      clampIndex_natCast (by omega)]
  · rw [show (chunk.2 : ℤ) - input.first = ((chunk.2 - input.first : ℕ) : ℤ) by omega,
      clampIndex_natCast (by omega)]

/-- The gap mask marks the positions of no range. -/
theorem gapMask_getD (numAllTokens : ℕ) (first : ℤ) (ranges : List (ℤ × ℤ)) {index : ℕ}
    (inside : index < numAllTokens) :
    (gapMask numAllTokens first ranges).getD index false = true ↔
      ∀ range ∈ ranges, ¬ (clampIndex numAllTokens (range.1 - first) ≤ index ∧
        index < clampIndex numAllTokens (range.2 - first)) := by
  have general (ranges : List (ℤ × ℤ)) (mask : List Bool) (long : mask.length = numAllTokens) :
      (ranges.foldl (fun mask range => mask.mapIdx fun index gap =>
          gap && !(clampIndex numAllTokens (range.1 - first) ≤ index &&
            index < clampIndex numAllTokens (range.2 - first))) mask).getD index false = true ↔
        mask.getD index false = true ∧
          ∀ range ∈ ranges, ¬ (clampIndex numAllTokens (range.1 - first) ≤ index ∧
            index < clampIndex numAllTokens (range.2 - first)) := by
    induction ranges generalizing mask with
    | nil => simp
    | cons range ranges ih =>
        rw [List.foldl_cons, ih _ (by rw [List.length_mapIdx, long]), List.forall_mem_cons,
          ← and_assoc]
        apply and_congr_left'
        rw [List.getD_eq_getElem?_getD, List.getD_eq_getElem?_getD, List.getElem?_mapIdx,
          List.getElem?_eq_getElem (long ▸ inside)]
        simp only [Option.map_some, Option.getD_some, Bool.and_eq_true, Bool.not_eq_true',
          Bool.and_eq_false_iff, decide_eq_false_iff_not]
        apply and_congr_right'
        omega
  unfold gapMask
  rw [general ranges _ List.length_replicate, List.getD_eq_getElem?_getD,
    List.getElem?_replicate, if_pos inside]
  exact and_iff_right rfl

theorem WellFormed.last_le (valid : input.WellFormed) :
    input.first ≤ input.last ∧ input.last ≤ input.slotMapping.length := by
  obtain ⟨chunk, rest, chunks⟩ := List.exists_cons_of_ne_nil valid.nonempty
  have member : chunk ∈ input.chunks := chunks ▸ List.mem_cons_self
  have between := valid.between member
  have proper := valid.proper chunk member
  refine ⟨by omega, ?_⟩
  have final := List.getLast_mem valid.nonempty
  have mapped := valid.mapped _ final
  unfold last
  rw [List.getLast?_eq_getLast_of_ne_nil valid.nonempty]
  exact mapped

theorem WellFormed.plan_eq (valid : input.WellFormed) (cachePositions : Bool) :
    (input.call cachePositions).plan = .ok (input.plan cachePositions) := by
  obtain ⟨firstLe, lastLe⟩ := valid.last_le
  obtain ⟨chunk, rest, chunks⟩ := List.exists_cons_of_ne_nil valid.nonempty
  have head : (input.call cachePositions).starts.head? = some (input.first : ℤ) := by
    simp only [call, first, chunks, List.map_cons, List.head?_cons, Option.map_some,
      Option.getD_some]
  have final : (input.call cachePositions).ends.getLast? = some (input.last : ℤ) := by
    simp only [call, last, List.getLast?_map]
    rw [List.getLast?_eq_getLast_of_ne_nil valid.nonempty]
    rfl
  have ranges : (input.call cachePositions).starts.zip (input.call cachePositions).ends =
      (input.plan cachePositions).ranges := by
    simp only [call, plan, List.zip_map']
  have slots : pySlice input.slotMapping (input.first : ℤ) (input.last : ℤ) =
      (input.plan cachePositions).slots := by
    simp only [pySlice, plan]
    rw [clampIndex_natCast lastLe, clampIndex_natCast (firstLe.trans lastLe)]
  have tokens : ((input.last : ℤ) - input.first).toNat = input.last - input.first := by omega
  unfold LoadCall.plan
  simp only [head, final, ranges, tokens]
  simp only [call, slots, if_true]
  rw [if_neg (by omega)]
  congr 1
  unfold plan
  congr 1
  apply List.filter_congr
  intro index member
  have inside := List.mem_range.mp member
  rw [Bool.eq_iff_iff, gapMask_getD _ _ _ inside, decide_eq_true_iff]
  simp only [bufferRanges, List.forall_mem_map]
  apply forall₂_congr
  intro chunk there
  rw [(valid.clamp there).1, (valid.clamp there).2]

/-! ### The operations of a load -/

/-- The copies of one chunk of a layer. -/
def chunkOps (cachePositions : Bool) (first layer : ℕ) (buffer : Bool) (chunk : ℕ × ℕ)
    (obj : ChunkObj Row) : List (DeviceOp Row) :=
  [.copyKeys buffer (chunk.1 - first) obj.keys, .copyValues buffer (chunk.1 - first) obj.values] ++
    if cachePositions && layer = 0 then
      [.setPositions (chunk.1 - first) (obj.cachedPositions.getD [])]
    else []

/-- Layers are received into the two buffers in turn. -/
def bufferOf (layer : ℕ) : Bool := layer % 2 = 0

theorem bufferOf_succ (layer : ℕ) : bufferOf (layer + 1) = !bufferOf layer := by
  unfold bufferOf
  rcases Nat.mod_two_eq_zero_or_one layer with even | odd
  · simp [Nat.add_mod, even]
  · simp [Nat.add_mod, odd]

variable (input) (cachePositions : Bool)

def receiveOps (layer : ℕ) : List (DeviceOp Row) :=
  (input.chunks.zip ((input.objs[layer]?).getD [])).flatMap fun entry =>
    chunkOps cachePositions input.first layer (bufferOf layer) entry.1 entry.2

def recoverOps (layer : ℕ) : List (DeviceOp Row) :=
  (if cachePositions then [.rotateKeys (bufferOf layer) input.first] else []) ++
    if (input.plan cachePositions).gaps = [] then []
    else [.zeroRows (bufferOf layer) (input.plan cachePositions).gaps]

def flushOps (layer : ℕ) : List (DeviceOp Row) :=
  if 1 < layer then
    [.transfer (bufferOf (layer - 2)) (layer - 2) (input.plan cachePositions).slots]
  else []

/-- What one round of the loop issues. -/
def roundIssues (layer : ℕ) : List (LoadIssue Row) :=
  enqueueAll .current (input.flushOps cachePositions layer) ++
    (if 0 < layer ∧ layer ≤ input.numLayers then
      .synchronize :: enqueueAll .current (input.recoverOps cachePositions (layer - 1))
    else []) ++ enqueueAll .load (input.receiveOps cachePositions layer)

variable {input} {cachePositions}

theorem receiveChunk_eq {plan : LoadPlan} {range : ℤ × ℤ} {chunk : ℕ × ℕ} {first layer : ℕ}
    {obj : ChunkObj Row} (caches : plan.cachePositions = cachePositions)
    (clamps : clampIndex plan.numAllTokens (range.1 - plan.first) = chunk.1 - first ∧
      clampIndex plan.numAllTokens (range.2 - plan.first) = chunk.2 - first)
    (inside : first ≤ chunk.1) (holds : Holds chunk obj)
    (positions : layer = 0 → ∃ positions, obj.cachedPositions = some positions ∧
      positions.length = chunk.2 - chunk.1) (buffer : Bool) :
    receiveChunk plan buffer layer range obj =
      (chunkOps cachePositions first layer buffer chunk obj, none) := by
  have size : chunk.2 - first - (chunk.1 - first) = chunk.2 - chunk.1 :=
    Nat.sub_sub_sub_cancel_right inside
  have copy {α : Type} {rows : List α} (long : rows.length = chunk.2 - chunk.1)
      (op : List α → DeviceOp Row) :
      checkedCopy (chunk.1 - first) (chunk.2 - first) rows op = .ok (op rows) := by
    simp only [checkedCopy, broadcastTo, size, long, if_true]
  unfold receiveChunk
  simp only [holds.isKv2td, clamps.1, clamps.2, copy holds.keys, copy holds.values,
    caches, Bool.not_true, Bool.false_eq_true, if_false, chunkOps]
  by_cases recovers : cachePositions = true ∧ layer = 0
  · obtain ⟨list, known, long⟩ := positions recovers.2
    simp only [recovers.1, recovers.2, decide_true, Bool.and_self, if_true, known, copy long,
      Option.getD_some]
    rfl
  · rw [← Bool.and_eq_true_iff.trans (and_congr_right' decide_eq_true_iff)] at recovers
    rw [if_neg recovers, if_neg recovers, List.append_nil]

/-- Receiving a layer of a well-formed load raises nothing. -/
theorem WellFormed.receiveChunks_eq (valid : input.WellFormed) {layer : ℕ}
    {objs : List (ChunkObj Row)} (here : input.objs[layer]? = some objs) :
    receiveChunks (input.plan cachePositions) (bufferOf layer) layer
        ((input.plan cachePositions).ranges.zip objs) =
      (input.receiveOps cachePositions layer, none) := by
  have general (chunks : List (ℕ × ℕ)) (objs : List (ChunkObj Row))
      (inside : ∀ chunk ∈ chunks, chunk ∈ input.chunks) (holds : List.Forall₂ Holds chunks objs)
      (positions : layer = 0 → List.Forall₂ (fun chunk obj => ∃ positions,
        obj.cachedPositions = some positions ∧ positions.length = chunk.2 - chunk.1) chunks objs) :
      receiveChunks (input.plan cachePositions) (bufferOf layer) layer
          ((chunks.map fun chunk => ((chunk.1 : ℤ), (chunk.2 : ℤ))).zip objs) =
        ((chunks.zip objs).flatMap fun entry =>
          chunkOps cachePositions input.first layer (bufferOf layer) entry.1 entry.2, none) := by
    induction holds with
    | nil => rfl
    | @cons chunk obj chunks objs first _ ih =>
        have member := inside chunk List.mem_cons_self
        have rest := ih (fun other there => inside other (List.mem_cons_of_mem _ there))
          fun zero => (List.forall₂_cons.mp (positions zero)).2
        have head : receiveChunk (input.plan cachePositions) (bufferOf layer) layer
            ((chunk.1 : ℤ), (chunk.2 : ℤ)) obj =
              (chunkOps cachePositions input.first layer (bufferOf layer) chunk obj, none) :=
          receiveChunk_eq rfl (valid.clamp member) (valid.between member).1 first
            (fun zero => (List.forall₂_cons.mp (positions zero)).1) (bufferOf layer)
        rw [List.map_cons, List.zip_cons_cons, receiveChunks, head, rest, List.zip_cons_cons,
          List.flatMap_cons]
  have holds := valid.holds objs (List.mem_of_getElem? here)
  rw [receiveOps, here, Option.getD_some]
  apply general input.chunks objs (fun _ member => member) holds
  rintro rfl
  exact valid.positions objs (by rw [List.head?_eq_getElem?, here]; rfl)

/-- The rounds after the last layer receive nothing. -/
theorem receiveOps_of_le {layer : ℕ} (beyond : input.numLayers ≤ layer) :
    input.receiveOps cachePositions layer = ([] : List (DeviceOp Row)) := by
  rw [receiveOps, List.getElem?_eq_none beyond, Option.getD_none, List.zip_nil_right]
  rfl

/-! ### The run of the generator -/

variable (input) in
/-- The loop variables before a round. -/
structure LoopAt (layer : ℕ) (loop : LoadLoop) : Prop where
  buffers : layer ≤ input.numLayers →
    loop.loadBuffer = bufferOf (layer - 1) ∧ loop.computeBuffer = !bufferOf (layer - 1)
  mapped : 1 < layer → layer ≤ input.numLayers + 1 →
    loop.bufferMapping.find (layer - 2) = some (bufferOf (layer - 2))
  names : ∀ name ∈ loop.bufferMapping.names, layer - 2 ≤ name ∧ name < input.numLayers

/-- The part of a round before its yield. -/
theorem LoopAt.round {layer : ℕ} {loop : LoadLoop} (at_ : input.LoopAt layer loop)
    (cachePositions : Bool) (inside : layer ≤ input.numLayers + 1) :
    ∃ flushed recovered : LoadLoop,
      flushLayer (input.plan cachePositions) layer loop =
        .ok (enqueueAll .current (input.flushOps cachePositions layer), flushed) ∧
      recoverLayer (input.plan cachePositions) layer flushed =
        ((if 0 < layer ∧ layer ≤ input.numLayers then
          .synchronize :: enqueueAll .current (input.recoverOps cachePositions (layer - 1))
        else [] : List (LoadIssue Row)), recovered) ∧
      (layer < input.numLayers → recovered.loadBuffer = bufferOf layer) ∧
      input.LoopAt (layer + 1) recovered := by
  obtain ⟨flushed, flush, same, kept⟩ : ∃ flushed : LoadLoop,
      flushLayer (input.plan cachePositions) layer loop =
        .ok ((enqueueAll .current (input.flushOps cachePositions layer) : List (LoadIssue Row)),
          flushed) ∧
      (flushed.loadBuffer = loop.loadBuffer ∧ flushed.computeBuffer = loop.computeBuffer) ∧
      ∀ name ∈ flushed.bufferMapping.names, layer - 1 ≤ name ∧ name < input.numLayers := by
    unfold flushLayer flushOps
    by_cases later : 1 < layer
    · rw [if_pos later, if_pos later, at_.mapped later inside]
      refine ⟨_, rfl, ⟨rfl, rfl⟩, fun name member => ?_⟩
      rw [OrderedDict.names_erase, List.mem_filter, decide_eq_true_iff] at member
      have bounds := at_.names name member.1
      omega
    · rw [if_neg later, if_neg later]
      refine ⟨_, rfl, ⟨rfl, rfl⟩, fun name member => ?_⟩
      have bounds := at_.names name member
      omega
  by_cases recovers : 0 < layer ∧ layer ≤ input.numLayers
  · have buffers := at_.buffers recovers.2
    refine ⟨flushed, ⟨flushed.loadBuffer, flushed.computeBuffer,
      flushed.bufferMapping.insert (layer - 1) flushed.loadBuffer⟩, flush, ?_, fun _ => ?_, ?_⟩
    · have enabled : 0 < layer ∧ layer ≤ (input.plan cachePositions).numLayers := recovers
      rw [recoverLayer, if_pos enabled, if_pos recovers, same.1, buffers.1]
      rfl
    · rw [same.2, buffers.2, ← bufferOf_succ, Nat.sub_add_cancel recovers.1]
    · refine ⟨fun _ => ?_, fun _ _ => ?_, fun name member => ?_⟩
      · rw [Nat.add_sub_cancel, same.1, same.2, buffers.1, buffers.2, ← bufferOf_succ,
          Nat.sub_add_cancel recovers.1]
        refine ⟨rfl, ?_⟩
        obtain ⟨previous, rfl⟩ := Nat.exists_eq_add_of_lt recovers.1
        rw [zero_add, Nat.add_sub_cancel, bufferOf_succ, Bool.not_not]
      · have previous : layer + 1 - 2 = layer - 1 := by omega
        rw [previous]
        dsimp only
        rw [OrderedDict.find_insert_self, same.1, buffers.1]
      · rcases OrderedDict.mem_names_insert member with rfl | old
        · omega
        · have bounds := kept name old
          omega
  · refine ⟨flushed, flushed, flush, ?_, fun less => ?_, ?_⟩
    · have disabled : ¬ (0 < layer ∧ layer ≤ (input.plan cachePositions).numLayers) := recovers
      rw [recoverLayer, if_neg disabled, if_neg recovers]
    · obtain rfl : layer = 0 := by omega
      exact same.1.trans (at_.buffers (Nat.zero_le _)).1
    · refine ⟨fun _ => ?_, fun _ _ => ?_, fun name member => ?_⟩
      · obtain rfl : layer = 0 := by omega
        rw [same.1, same.2]
        exact at_.buffers (Nat.zero_le _)
      · omega
      · have bounds := kept name member
        omega

/-- **The run of a load.** The generator is resumed once for each layer, once more
and once to its end; it issues the operations of its rounds. -/
theorem WellFormed.run_loadLoop (valid : input.WellFormed) {rounds layer : ℕ}
    (upTo : layer + rounds = input.numLayers + 2) {loop : LoadLoop}
    (at_ : input.LoopAt layer loop) {extra : List (Option (List (ChunkObj Row)))}
    (resumed : extra.length = if layer ≤ input.numLayers then 2 else 1) :
    (loadLoop (input.plan cachePositions) (List.range' layer rounds) loop).run
        ((input.objs.drop layer).map some ++ extra) =
      ⟨(List.range' layer rounds).flatMap (input.roundIssues cachePositions),
        List.replicate (max (input.numLayers + 2 - layer) 1) (), .stopIteration⟩ := by
  induction rounds generalizing layer loop extra with
  | zero =>
      have empty : loop.bufferMapping.entries = [] := by
        apply List.eq_nil_iff_forall_not_mem.mpr
        intro entry member
        have bounds := at_.names entry.1 (OrderedDict.mem_names_of_mem member)
        omega
      have drained : input.objs.drop layer = [] :=
        List.drop_eq_nil_iff.mpr (by unfold numLayers at upTo; omega)
      rw [if_neg (by omega)] at resumed
      obtain ⟨input', rfl⟩ := List.length_eq_one_iff.mp resumed
      rw [List.range'_zero, loadLoop, empty, drained]
      have one : max (input.numLayers + 2 - layer) 1 = 1 := by omega
      rw [one]
      rfl
  | succ rounds ih =>
      obtain ⟨flushed, recovered, flush, recover, buffer, next⟩ :=
        at_.round cachePositions (by omega)
      have long {extra : List (Option (List (ChunkObj Row)))}
          (resumed : extra.length = if layer + 1 ≤ input.numLayers then 2 else 1) :=
        ih (by omega) next resumed
      rw [List.range'_succ, loadLoop, flush]
      dsimp only
      rw [recover]
      dsimp only
      rw [Body.run_emitAll, List.flatMap_cons]
      by_cases receives : layer < input.numLayers
      · have here : input.objs[layer]? = some input.objs[layer] :=
          List.getElem?_eq_getElem receives
        have enabled : layer < (input.plan cachePositions).numLayers := receives
        have count : max (input.numLayers + 2 - layer) 1 =
            max (input.numLayers + 2 - (layer + 1)) 1 + 1 := by omega
        rw [if_pos receives.le] at resumed
        rw [if_pos enabled, List.drop_eq_getElem_cons receives, List.map_cons, List.cons_append,
          Body.run_yield_cons]
        dsimp only
        rw [buffer receives, valid.receiveChunks_eq here]
        dsimp only
        rw [Body.run_emitAll, long (by rw [resumed, if_pos (Nat.succ_le_of_lt receives)]), count,
          List.replicate_succ, roundIssues]
        simp only [List.append_assoc]
      · have disabled : ¬ layer < (input.plan cachePositions).numLayers := receives
        have noObjs : input.objs.drop layer = [] := List.drop_eq_nil_iff.mpr (not_lt.mp receives)
        have noObjs' : input.objs.drop (layer + 1) = [] :=
          List.drop_eq_nil_iff.mpr ((not_lt.mp receives).trans (Nat.le_succ _))
        have issues : input.roundIssues cachePositions layer =
            enqueueAll .current (input.flushOps cachePositions layer) ++
              (if 0 < layer ∧ layer ≤ input.numLayers then
                .synchronize :: enqueueAll .current (input.recoverOps cachePositions (layer - 1))
              else []) := by
          rw [roundIssues, receiveOps_of_le (not_lt.mp receives)]
          exact List.append_nil _
        rw [if_neg disabled, noObjs, List.map_nil, List.nil_append, issues]
        have rest {extra : List (Option (List (ChunkObj Row)))}
            (resumed : extra.length = if layer + 1 ≤ input.numLayers then 2 else 1) :
            (loadLoop (input.plan cachePositions) (List.range' (layer + 1) rounds) recovered).run
              extra = ⟨(List.range' (layer + 1) rounds).flatMap (input.roundIssues cachePositions),
                List.replicate (max (input.numLayers + 2 - (layer + 1)) 1) (), .stopIteration⟩ := by
          have run := long resumed
          rwa [noObjs', List.map_nil, List.nil_append] at run
        by_cases final : layer = input.numLayers
        · have yields : layer = (input.plan cachePositions).numLayers := final
          have count : max (input.numLayers + 2 - layer) 1 =
              max (input.numLayers + 2 - (layer + 1)) 1 + 1 := by omega
          rw [if_pos final.le] at resumed
          obtain ⟨resume, finish, rfl⟩ := List.length_eq_two.mp resumed
          rw [if_pos yields, Body.run_yield_cons, rest (by rw [if_neg (by omega)]; rfl), count,
            List.replicate_succ]
        · have silent : ¬ layer = (input.plan cachePositions).numLayers := final
          have count : max (input.numLayers + 2 - layer) 1 =
              max (input.numLayers + 2 - (layer + 1)) 1 := by omega
          rw [if_neg (by omega)] at resumed
          rw [if_neg silent, rest (by rw [resumed, if_neg (by omega)]), count]

end LoadInput

end LMCacheHcu.Layerwise
