import LMCacheHcu.Layerwise.BufferLoads

/-! # The rows in the buffers and in the paged cache

When the operations of a load are executed in the order of issue, a buffer holds
the rows of a layer as they are received, one round later the recovered rows, and
one round later these are in the paged cache.
-/

namespace LMCacheHcu.Layerwise

open Generator Streams SlotRows

namespace LoadInput

variable {Row : Type} (input : LoadInput Row)

/-- The object of a chunk in a layer. -/
def objOf (layer chunkIndex : ℕ) : Option (ChunkObj Row) :=
  (input.objs[layer]?).bind fun objs => objs[chunkIndex]?

/-- The position that a token of a chunk had when it was stored, by the object of
the first layer. -/
def cachedPosition (chunkIndex offset : ℕ) : ℤ :=
  ((input.objOf 0 chunkIndex).bind fun obj =>
    obj.cachedPositions.bind fun positions => positions[offset]?).getD 0

variable (ops : RowOps Row) (cachePositions : Bool)

/-- The key of a token, moved from its old position to `position`. -/
def movedKey (old position : ℤ) (key : Row) : Row :=
  if cachePositions then ops.rotary old position key else key

/-- A buffer with the rows of a layer as its objects have them. -/
def Received (layer : ℕ) (device : Device Row) : Prop :=
  ∀ (chunkIndex : ℕ) (chunk : ℕ × ℕ) (obj : ChunkObj Row) (offset : ℕ) (row : Row),
    input.chunks[chunkIndex]? = some chunk → input.objOf layer chunkIndex = some obj →
      (obj.keys[offset]? = some row →
          device.keys (bufferOf layer) (chunk.1 - input.first + offset) = row) ∧
        (obj.values[offset]? = some row →
          device.values (bufferOf layer) (chunk.1 - input.first + offset) = row)

/-- A buffer with the rows of a layer that may be read: keys at their new
positions, zeros between the chunks. -/
structure Recovered (old : ℕ → ℕ → ℤ) (layer : ℕ) (device : Device Row) : Prop where
  rows : ∀ (chunkIndex : ℕ) (chunk : ℕ × ℕ) (obj : ChunkObj Row) (offset : ℕ) (row : Row),
    input.chunks[chunkIndex]? = some chunk → input.objOf layer chunkIndex = some obj →
      (obj.keys[offset]? = some row →
          device.keys (bufferOf layer) (chunk.1 - input.first + offset) =
            movedKey ops cachePositions (old chunkIndex offset) (chunk.1 + offset : ℕ) row) ∧
        (obj.values[offset]? = some row →
          device.values (bufferOf layer) (chunk.1 - input.first + offset) = row)
  gaps : ∀ index ∈ (input.plan cachePositions).gaps,
    device.keys (bufferOf layer) index = ops.zero ∧
      device.values (bufferOf layer) index = ops.zero

/-- A layer of the paged cache after a load, from what it was before: every token
of a chunk has its key and its value in its slot, the tokens between the chunks have
zeros, and the slots of no token are as they were. -/
structure Loaded (old : ℕ → ℕ → ℤ) (layer : ℕ) (before after : Bool → ℕ → Row) : Prop where
  rows : ∀ (chunkIndex : ℕ) (chunk : ℕ × ℕ) (obj : ChunkObj Row) (offset slot : ℕ) (row : Row),
    input.chunks[chunkIndex]? = some chunk → input.objOf layer chunkIndex = some obj →
      input.slotMapping[chunk.1 + offset]? = some (slot : ℤ) →
        (obj.keys[offset]? = some row → after false slot =
            movedKey ops cachePositions (old chunkIndex offset) (chunk.1 + offset : ℕ) row) ∧
          (obj.values[offset]? = some row → after true slot = row)
  gaps : ∀ token slot : ℕ, input.first ≤ token → token < input.last →
    (∀ chunk ∈ input.chunks, ¬ (chunk.1 ≤ token ∧ token < chunk.2)) →
      input.slotMapping[token]? = some (slot : ℤ) → ∀ half, after half slot = ops.zero
  others : ∀ slot : ℕ, (∀ token, input.first ≤ token → token < input.last →
    input.slotMapping[token]? ≠ some (slot : ℤ)) → ∀ half, after half slot = before half slot

variable {input} {ops} {cachePositions}

/-! ### The rows of a chunk -/

theorem WellFormed.holds_obj (valid : input.WellFormed) {layer chunkIndex : ℕ} {chunk : ℕ × ℕ}
    {obj : ChunkObj Row} (here : input.chunks[chunkIndex]? = some chunk)
    (named : input.objOf layer chunkIndex = some obj) : Holds chunk obj := by
  obtain ⟨objs, row, inside⟩ := Option.bind_eq_some_iff.mp named
  have holds := valid.holds objs (List.mem_of_getElem? row)
  obtain ⟨short, rfl⟩ := List.getElem?_eq_some_iff.mp here
  obtain ⟨long, rfl⟩ := List.getElem?_eq_some_iff.mp inside
  exact List.Forall₂.get holds short long

variable (input) in
/-- The chunks of a layer with their objects. -/
def entries (layer : ℕ) : List ((ℕ × ℕ) × ChunkObj Row) :=
  input.chunks.zip ((input.objs[layer]?).getD [])

theorem mem_entries {layer chunkIndex : ℕ} {chunk : ℕ × ℕ} {obj : ChunkObj Row}
    (here : input.chunks[chunkIndex]? = some chunk)
    (named : input.objOf layer chunkIndex = some obj) : (chunk, obj) ∈ input.entries layer := by
  obtain ⟨objs, row, inside⟩ := Option.bind_eq_some_iff.mp named
  rw [entries, row, Option.getD_some]
  apply List.mem_of_getElem? (i := chunkIndex)
  rw [List.getElem?_zip_eq_some]
  exact ⟨here, inside⟩

/-- The places of the chunks in a buffer ascend. -/
theorem WellFormed.places_ordered (valid : input.WellFormed) {layer : ℕ} {α : Type}
    (rows : ChunkObj Row → List α)
    (sizes : ∀ entry ∈ input.entries layer, (rows entry.2).length = entry.1.2 - entry.1.1) :
    ((input.entries layer).map fun entry =>
      (entry.1.1 - input.first, rows entry.2)).Pairwise
        fun left right => left.1 + left.2.length ≤ right.1 := by
  have ordered : (input.entries layer).Pairwise fun left right => left.1.2 ≤ right.1.1 := by
    unfold entries
    cases row : input.objs[layer]? with
    | none => rw [Option.getD_none, List.zip_nil_right]; exact .nil
    | some objs =>
        have same := (valid.holds objs (List.mem_of_getElem? row)).length_eq
        rw [Option.getD_some]
        have heads := valid.ordered
        rw [← List.map_fst_zip same.le, List.pairwise_map] at heads
        exact heads
  rw [List.pairwise_map]
  apply ordered.imp_of_mem
  intro left right there member less
  have inside := valid.between (List.of_mem_zip there).1
  have proper := valid.proper _ (List.of_mem_zip there).1
  rw [sizes left there]
  omega

theorem WellFormed.entry_sizes (valid : input.WellFormed) {layer : ℕ}
    {entry : (ℕ × ℕ) × ChunkObj Row} (member : entry ∈ input.entries layer) :
    Holds entry.1 entry.2 := by
  unfold entries at member
  cases row : input.objs[layer]? with
  | none => rw [row, Option.getD_none, List.zip_nil_right] at member; cases member
  | some objs =>
      rw [row, Option.getD_some] at member
      exact List.forall₂_zip (valid.holds objs (List.mem_of_getElem? row)) member

/-! ### What the operations of a round do -/

/-- The copies of a layer go to one buffer, in the first layer also to the old
positions. -/
theorem foldl_chunkOps (first layer : ℕ) (buffer : Bool)
    (entries : List ((ℕ × ℕ) × ChunkObj Row)) (device : Device Row) :
    (entries.flatMap fun entry => chunkOps cachePositions first layer buffer entry.1 entry.2).foldl
        (Device.apply ops) device =
      { device with
        keys := Function.update device.keys buffer
          (overlayAll (entries.map fun entry => (entry.1.1 - first, entry.2.keys))
            (device.keys buffer))
        values := Function.update device.values buffer
          (overlayAll (entries.map fun entry => (entry.1.1 - first, entry.2.values))
            (device.values buffer))
        oldPositions :=
          if cachePositions && layer = 0 then
            overlayAll (entries.map fun entry =>
              (entry.1.1 - first, entry.2.cachedPositions.getD [])) device.oldPositions
          else device.oldPositions } := by
  induction entries generalizing device with
  | nil =>
      simp only [List.flatMap_nil, List.foldl_nil, List.map_nil, overlayAll,
        Function.update_eq_self, ite_self]
  | cons entry entries ih =>
      rw [List.flatMap_cons, List.foldl_append, ih]
      cases recovers : cachePositions && decide (layer = 0)
      · simp only [chunkOps, recovers, Bool.false_eq_true, if_false, List.cons_append,
          List.nil_append, List.foldl_cons, List.foldl_nil, Device.apply, List.map_cons,
          overlayAll, Function.update_self, Function.update_idem]
      · simp only [chunkOps, recovers, if_true, List.cons_append, List.nil_append,
          List.foldl_cons, List.foldl_nil, Device.apply, List.map_cons, overlayAll,
          Function.update_self, Function.update_idem]

/-- Receiving a layer puts its rows in its buffer. -/
theorem WellFormed.receive (valid : input.WellFormed) (layer : ℕ) (device : Device Row) :
    input.Received layer
      ((input.receiveOps cachePositions layer).foldl (Device.apply ops) device) := by
  intro chunkIndex chunk obj offset row here named
  have member := mem_entries here named
  have received : input.receiveOps cachePositions layer = (input.entries layer).flatMap
    fun entry => chunkOps cachePositions input.first layer (bufferOf layer) entry.1 entry.2 := rfl
  rw [received, foldl_chunkOps]
  dsimp only
  rw [Function.update_self, Function.update_self]
  refine ⟨fun inside => ?_, fun inside => ?_⟩
  · obtain ⟨short, rfl⟩ := List.getElem?_eq_some_iff.mp inside
    exact overlayAll_inside
      (valid.places_ordered ChunkObj.keys fun entry there => (valid.entry_sizes there).keys)
      (List.mem_map_of_mem member) short _
  · obtain ⟨short, rfl⟩ := List.getElem?_eq_some_iff.mp inside
    exact overlayAll_inside
      (valid.places_ordered ChunkObj.values fun entry there => (valid.entry_sizes there).values)
      (List.mem_map_of_mem member) short _

variable (input) (ops) (cachePositions) in
/-- Receiving a later layer changes its own buffer only. -/
theorem receive_frame (layer : ℕ) (device : Device Row) :
    let after := (input.receiveOps cachePositions layer).foldl (Device.apply ops) device
    after.keys (!bufferOf layer) = device.keys (!bufferOf layer) ∧
      after.values (!bufferOf layer) = device.values (!bufferOf layer) ∧
      after.paged = device.paged ∧
      (0 < layer → after.oldPositions = device.oldPositions) := by
  have received : input.receiveOps cachePositions layer = (input.entries layer).flatMap
    fun entry => chunkOps cachePositions input.first layer (bufferOf layer) entry.1 entry.2 := rfl
  have other : (!bufferOf layer) ≠ bufferOf layer := Bool.not_ne_self _
  rw [received, foldl_chunkOps]
  dsimp only
  rw [Function.update_of_ne other, Function.update_of_ne other]
  refine ⟨rfl, rfl, rfl, fun later => if_neg ?_⟩
  rw [decide_eq_false later.ne', Bool.and_false]
  exact Bool.false_ne_true

/-- Recovering a layer moves its keys, then clears the gaps. -/
theorem foldl_recoverOps (layer : ℕ) (device : Device Row) :
    (input.recoverOps cachePositions layer).foldl (Device.apply ops) device =
      { device with
        keys := Function.update device.keys (bufferOf layer) fun index =>
          if index ∈ (input.plan cachePositions).gaps then ops.zero
          else movedKey ops cachePositions (device.oldPositions index) (input.first + index)
            (device.keys (bufferOf layer) index)
        values := Function.update device.values (bufferOf layer) fun index =>
          if index ∈ (input.plan cachePositions).gaps then ops.zero
          else device.values (bufferOf layer) index } := by
  unfold recoverOps movedKey
  by_cases noGaps : (input.plan cachePositions).gaps = []
  · cases cachePositions <;>
      simp only [noGaps, if_true, if_false, Bool.false_eq_true, List.append_nil, List.foldl_nil,
        List.foldl_cons, Device.apply, List.not_mem_nil, Function.update_eq_self]
  · cases cachePositions <;>
      simp only [noGaps, if_true, if_false, Bool.false_eq_true, List.nil_append, List.cons_append,
        List.foldl_nil, List.foldl_cons, Device.apply, Function.update_self, Function.update_idem]

/-- A token of a chunk is at no gap. -/
theorem WellFormed.notMem_gaps (valid : input.WellFormed) {chunk : ℕ × ℕ}
    (member : chunk ∈ input.chunks) {offset : ℕ} (inside : offset < chunk.2 - chunk.1) :
    chunk.1 - input.first + offset ∉ (input.plan cachePositions).gaps := by
  intro gap
  have between := valid.between member
  have apart := of_decide_eq_true (List.mem_filter.mp gap).2
  apply apart (chunk.1 - input.first, chunk.2 - input.first) (List.mem_map_of_mem member)
  omega

/-- Recovering a received layer makes it readable. -/
theorem WellFormed.recover (valid : input.WellFormed) {layer : ℕ} {device : Device Row}
    {old : ℕ → ℕ → ℤ} (received : input.Received layer device)
    (positions : cachePositions = true → ∀ chunkIndex chunk offset,
      input.chunks[chunkIndex]? = some chunk → offset < chunk.2 - chunk.1 →
        device.oldPositions (chunk.1 - input.first + offset) = old chunkIndex offset) :
    input.Recovered ops cachePositions old layer
      ((input.recoverOps cachePositions layer).foldl (Device.apply ops) device) := by
  rw [foldl_recoverOps]
  refine ⟨fun chunkIndex chunk obj offset row here named => ?_, fun index gap => ?_⟩
  · have member := List.mem_of_getElem? here
    have holds := valid.holds_obj here named
    have between := valid.between member
    have rows := received chunkIndex chunk obj offset row here named
    dsimp only
    rw [Function.update_self, Function.update_self]
    refine ⟨fun inside => ?_, fun inside => ?_⟩
    · have short := holds.keys ▸ (List.getElem?_eq_some_iff.mp inside).1
      rw [if_neg (valid.notMem_gaps member short), rows.1 inside]
      have place : (input.first : ℤ) + (chunk.1 - input.first + offset : ℕ) =
        (chunk.1 + offset : ℕ) := by omega
      rw [place]
      unfold movedKey
      split
      · next moves => rw [positions moves chunkIndex chunk offset here short]
      · rfl
    · have short := holds.values ▸ (List.getElem?_eq_some_iff.mp inside).1
      rw [if_neg (valid.notMem_gaps member short), rows.2 inside]
  · dsimp only
    rw [Function.update_self, Function.update_self, if_pos gap, if_pos gap]
    exact ⟨rfl, rfl⟩

/-- Moving a recovered layer to the paged cache loads it. -/
theorem WellFormed.flush (valid : input.WellFormed) {layer : ℕ} {device : Device Row}
    {old : ℕ → ℕ → ℤ} (recovered : input.Recovered ops cachePositions old layer device) :
    input.Loaded ops cachePositions old layer (device.paged layer)
      ((device.apply ops (.transfer (bufferOf layer) layer
        (input.plan cachePositions).slots)).paged layer) := by
  have bounds := valid.last_le
  have slots (index : ℕ) : (input.plan cachePositions).slots[index]? =
      if index < input.last - input.first then input.slotMapping[input.first + index]?
      else none := by
    simp only [plan, List.getElem?_take, List.getElem?_drop]
  have known {token slot : ℕ} (there : input.first ≤ token) (inside : token < input.last)
      (mapped : input.slotMapping[token]? = some (slot : ℤ)) (half : Bool) :
      scatter (slotted (input.plan cachePositions).slots
        (if half then device.values (bufferOf layer) else device.keys (bufferOf layer)))
          (device.paged layer half) slot =
        (if half then device.values (bufferOf layer) else device.keys (bufferOf layer))
          (token - input.first) := by
    apply scatter_slotted
    · rw [slots, if_pos (by omega), Nat.add_sub_cancel' there, mapped]
    · intro other found
      rw [slots] at found
      split at found
      · have same := valid.distinct _ token slot found mapped
        omega
      · cases found
  simp only [Device.apply, Function.update_self]
  refine ⟨fun chunkIndex chunk obj offset slot row here named mapped => ?_,
    fun token slot there inside apart mapped half => ?_, fun slot absent half => ?_⟩
  · have member := List.mem_of_getElem? here
    have holds := valid.holds_obj here named
    have between := valid.between member
    have rows := recovered.rows chunkIndex chunk obj offset row here named
    refine ⟨fun inside => ?_, fun inside => ?_⟩
    · have short := holds.keys ▸ (List.getElem?_eq_some_iff.mp inside).1
      rw [known (by omega) (by omega) mapped, Nat.sub_add_comm between.1]
      exact rows.1 inside
    · have short := holds.values ▸ (List.getElem?_eq_some_iff.mp inside).1
      rw [known (by omega) (by omega) mapped, Nat.sub_add_comm between.1]
      exact rows.2 inside
  · have gap : token - input.first ∈ (input.plan cachePositions).gaps := by
      apply List.mem_filter.mpr
      refine ⟨List.mem_range.mpr (by omega), decide_eq_true ?_⟩
      intro range member
      obtain ⟨chunk, place, rfl⟩ := List.mem_map.mp member
      have between := valid.between place
      have outside := apart chunk place
      dsimp only
      omega
    have zeros := recovered.gaps _ gap
    rw [known there inside mapped]
    cases half
    · exact zeros.1
    · exact zeros.2
  · apply scatter_slotted_of_notMem
    intro member
    obtain ⟨index, found⟩ := List.mem_iff_getElem?.mp member
    rw [slots] at found
    split at found
    · exact absent (input.first + index) (by omega) (by omega) found
    · cases found

/-! ### Rounds in the order of issue -/

variable (input) (cachePositions) in
/-- The operations of a round, in the order of issue. -/
def roundOps (layer : ℕ) : List (DeviceOp Row) :=
  input.flushOps cachePositions layer ++
    (if 0 < layer ∧ layer ≤ input.numLayers then input.recoverOps cachePositions (layer - 1)
    else []) ++ input.receiveOps cachePositions layer

theorem inOrder_roundIssues (layer : ℕ) :
    inOrder (input.roundIssues cachePositions layer) = input.roundOps cachePositions layer := by
  unfold roundIssues roundOps
  rw [inOrder_append, inOrder_append, inOrder_enqueueAll, inOrder_enqueueAll]
  split
  · rw [inOrder, inOrder_enqueueAll]
  · rfl

variable (input) (ops) (cachePositions) in
/-- The device before a round, given the device before the first: the layer that was
received last, the one before it in the other buffer, and all earlier ones in the
paged cache. -/
structure Before (old : ℕ → ℕ → ℤ) (start : Device Row) (layer : ℕ) (device : Device Row) :
    Prop where
  received : ∀ current < input.numLayers, layer = current + 1 → input.Received current device
  recovered : ∀ current < input.numLayers, layer = current + 2 →
    input.Recovered ops cachePositions old current device
  positions : cachePositions = true → ∀ chunkIndex chunk offset,
    input.chunks[chunkIndex]? = some chunk → offset < chunk.2 - chunk.1 →
      device.oldPositions (chunk.1 - input.first + offset) = old chunkIndex offset
  loaded : ∀ current < input.numLayers, current + 2 < layer →
    input.Loaded ops cachePositions old current (start.paged current) (device.paged current)
  untouched : ∀ current, input.numLayers ≤ current ∨ layer ≤ current + 2 →
    device.paged current = start.paged current

theorem Received.congr {layer : ℕ} {device other : Device Row}
    (received : input.Received layer device)
    (keys : other.keys (bufferOf layer) = device.keys (bufferOf layer))
    (values : other.values (bufferOf layer) = device.values (bufferOf layer)) :
    input.Received layer other := by
  unfold Received
  rw [keys, values]
  exact received

theorem Recovered.congr {old : ℕ → ℕ → ℤ} {layer : ℕ} {device other : Device Row}
    (recovered : input.Recovered ops cachePositions old layer device)
    (keys : other.keys (bufferOf layer) = device.keys (bufferOf layer))
    (values : other.values (bufferOf layer) = device.values (bufferOf layer)) :
    input.Recovered ops cachePositions old layer other := by
  constructor
  · rw [keys, values]
    exact recovered.rows
  · rw [keys, values]
    exact recovered.gaps

/-- The first stage of a round changes one layer of the paged cache. -/
theorem WellFormed.flush_round (valid : input.WellFormed) {old : ℕ → ℕ → ℤ}
    {start device : Device Row} {layer : ℕ}
    (before : input.Before ops cachePositions old start layer device) :
    let after := (input.flushOps cachePositions layer).foldl (Device.apply ops) device
    after.keys = device.keys ∧ after.values = device.values ∧
      after.oldPositions = device.oldPositions ∧
      (∀ current < input.numLayers, current + 2 = layer →
        input.Loaded ops cachePositions old current (start.paged current)
          (after.paged current)) ∧
      ∀ current, current + 2 ≠ layer → after.paged current = device.paged current := by
  unfold flushOps
  by_cases later : 1 < layer
  · rw [if_pos later]
    refine ⟨rfl, rfl, rfl, fun current inside here => ?_, fun current elsewhere => ?_⟩
    · obtain rfl : current = layer - 2 := by omega
      rw [← before.untouched _ (.inr here.ge)]
      exact valid.flush (before.recovered _ inside here.symm)
    · have other : current ≠ layer - 2 := by omega
      exact Function.update_of_ne other _ _
  · rw [if_neg later]
    exact ⟨rfl, rfl, rfl, fun current _ here => absurd here (by omega), fun _ _ => rfl⟩

/-- **One round** moves every layer one stage on. -/
theorem WellFormed.before_succ (valid : input.WellFormed) {old : ℕ → ℕ → ℤ}
    {start device : Device Row} {layer : ℕ} (later : 0 < layer)
    (inside : layer ≤ input.numLayers + 1)
    (before : input.Before ops cachePositions old start layer device) :
    input.Before ops cachePositions old start (layer + 1)
      ((input.roundOps cachePositions layer).foldl (Device.apply ops) device) := by
  obtain ⟨sameKeys, sameValues, samePositions, flushed, kept⟩ := valid.flush_round before
  unfold roundOps
  rw [List.foldl_append, List.foldl_append]
  generalize (input.flushOps cachePositions layer).foldl (Device.apply ops) device = first at *
  have positions := before.positions
  rw [← samePositions] at positions
  -- the second stage leaves the paged cache and the positions alone
  obtain ⟨second, recovers, samePaged, positionsKept, recovered⟩ : ∃ second,
      (if 0 < layer ∧ layer ≤ input.numLayers then input.recoverOps cachePositions (layer - 1)
        else []).foldl (Device.apply ops) first = second ∧
      second.paged = first.paged ∧ second.oldPositions = first.oldPositions ∧
      (layer ≤ input.numLayers →
        input.Recovered ops cachePositions old (layer - 1) second) := by
    refine ⟨_, rfl, ?_⟩
    by_cases recovers : layer ≤ input.numLayers
    · rw [if_pos ⟨later, recovers⟩]
      have previous := before.received (layer - 1) (by omega) (by omega)
      have readable : input.Recovered ops cachePositions old (layer - 1) _ :=
        valid.recover (previous.congr (congrFun sameKeys _) (congrFun sameValues _)) positions
      refine ⟨?_, ?_, fun _ => readable⟩
      · rw [foldl_recoverOps]
      · rw [foldl_recoverOps]
    · rw [if_neg (fun enabled => recovers enabled.2)]
      exact ⟨rfl, rfl, fun enabled => absurd enabled recovers⟩
  rw [recovers]
  have frame := receive_frame input ops cachePositions layer second
  refine ⟨fun current inside next => ?_, fun current inside next => ?_,
    fun caches => ?_, fun current inside next => ?_, fun current outside => ?_⟩
  · obtain rfl := Nat.succ.inj next
    exact valid.receive layer second
  · obtain rfl : current = layer - 1 := by omega
    have buffers : (!bufferOf layer) = bufferOf (layer - 1) := by
      rw [← Nat.sub_add_cancel later, bufferOf_succ, Bool.not_not, Nat.add_sub_cancel]
    rw [buffers] at frame
    exact (recovered (by omega)).congr frame.1 frame.2.1
  · rw [frame.2.2.2 later, positionsKept]
    exact positions caches
  · rw [frame.2.2.1, samePaged]
    by_cases here : current + 2 = layer
    · exact flushed current inside here
    · rw [kept current here]
      exact before.loaded current inside (by omega)
  · rw [frame.2.2.1, samePaged, kept current (by omega)]
    exact before.untouched current (by omega)

/-- The rounds that are left take every layer to the paged cache. -/
theorem WellFormed.loaded_rounds (valid : input.WellFormed) {old : ℕ → ℕ → ℤ}
    {start device : Device Row} {layer rounds : ℕ} (later : 0 < layer)
    (upTo : layer + rounds = input.numLayers + 2)
    (before : input.Before ops cachePositions old start layer device) :
    input.Before ops cachePositions old start (input.numLayers + 2)
      (((List.range' layer rounds).flatMap (input.roundOps cachePositions)).foldl
        (Device.apply ops) device) := by
  induction rounds generalizing layer device with
  | zero =>
      obtain rfl : layer = input.numLayers + 2 := upTo
      exact before
  | succ rounds ih =>
      rw [List.range'_succ, List.flatMap_cons, List.foldl_append]
      exact ih (Nat.succ_pos _) (by omega) (valid.before_succ later (by omega) before)

/-- What is issued before the loop. -/
def openingOps (cachePositions : Bool) : List (DeviceOp Row) :=
  if cachePositions then [.zeroPositions] else []

/-- After the first round the first layer is in its buffer. -/
theorem before_one {old : ℕ → ℕ → ℤ}
    {start device : Device Row} (samePaged : device.paged = start.paged)
    (received : 0 < input.numLayers → input.Received 0 device)
    (positions : cachePositions = true → ∀ chunkIndex chunk offset,
      input.chunks[chunkIndex]? = some chunk → offset < chunk.2 - chunk.1 →
        device.oldPositions (chunk.1 - input.first + offset) = old chunkIndex offset) :
    input.Before ops cachePositions old start 1 device := by
  refine ⟨fun current inside here => ?_, fun _ _ here => ?_, positions, fun _ _ here => ?_,
    fun current _ => congrFun samePaged current⟩
  · obtain rfl : current = 0 := by omega
    exact received inside
  · omega
  · omega

/-- Receiving the first layer after the fill with zeros gives every token of a chunk
its cached position. -/
theorem WellFormed.opening_positions (valid : input.WellFormed) (start : Device Row)
    {chunkIndex offset : ℕ} {chunk : ℕ × ℕ} (here : input.chunks[chunkIndex]? = some chunk)
    (inside : offset < chunk.2 - chunk.1) :
    ((openingOps true ++ input.receiveOps true 0).foldl (Device.apply ops) start).oldPositions
        (chunk.1 - input.first + offset) = input.cachedPosition chunkIndex offset := by
  have received : input.receiveOps true 0 = (input.entries 0).flatMap
    fun entry => chunkOps true input.first 0 (bufferOf 0) entry.1 entry.2 := rfl
  rw [List.foldl_append, received, foldl_chunkOps]
  simp only [openingOps, if_true, List.foldl_cons, List.foldl_nil, Device.apply, decide_true,
    Bool.and_self]
  cases row : input.objs[0]? with
  | none =>
      have empty : input.entries 0 = [] := by
        rw [entries, row, Option.getD_none, List.zip_nil_right]
      rw [empty, cachedPosition, objOf, row]
      rfl
  | some objs =>
      have known := valid.positions objs (by rw [List.head?_eq_getElem?, row]; rfl)
      obtain ⟨short, rfl⟩ := List.getElem?_eq_some_iff.mp here
      have long : chunkIndex < objs.length := known.length_eq ▸ short
      obtain ⟨positions, cached, size⟩ := known.get short long
      have named : input.objOf 0 chunkIndex = some objs[chunkIndex] := by
        rw [objOf, row, Option.bind_some, List.getElem?_eq_getElem long]
      have sizes : ∀ entry ∈ input.entries 0,
          (entry.2.cachedPositions.getD []).length = entry.1.2 - entry.1.1 := by
        intro entry member
        rw [entries, row, Option.getD_some] at member
        obtain ⟨positions, cached, size⟩ := List.forall₂_zip known member
        rw [cached, Option.getD_some, size]
      have member := mem_entries here named
      have filled : offset < (objs[chunkIndex].cachedPositions.getD []).length := by
        rw [sizes _ member]
        exact inside
      have ordered := valid.places_ordered (fun obj => obj.cachedPositions.getD []) sizes
      have place := overlayAll_inside ordered (List.mem_map_of_mem member) filled fun _ => 0
      have cached : objs[chunkIndex].cachedPositions = some positions := cached
      rw [cachedPosition, named, Option.bind_some, place]
      simp only [cached, Option.getD_some, Option.bind_some]
      simp only [cached, Option.getD_some] at filled
      rw [List.getElem?_eq_getElem filled, Option.getD_some]

end LoadInput

end LMCacheHcu.Layerwise
