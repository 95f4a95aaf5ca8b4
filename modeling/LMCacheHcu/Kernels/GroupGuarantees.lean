import LMCacheHcu.Kernels.AddressingGuarantees
import LMCacheHcu.Kernels.GroupTransfers
import LMCacheHcu.Storage.LayoutBijection

/-! # Groups and their own tensors

The shapes and element types that are reported, and the pointer tables, list the
groups in one order, and the transfer of each group moves the rows of its own
layers when the first layer's pages are also theirs.
-/

namespace LMCacheHcu.Kernels

open RowMajor Storage

/-! ### The tensors of a group -/

/-- The tensors with a group's shape and element type. -/
def ownTensors (tensors : List Tensor) (group : KVLayerGroupInfo) : List Tensor :=
  tensors.filter fun tensor => decide (tensor.shape = group.shape ∧ tensor.dtype = group.dtype)

/-- Ascending indices choose their items in their order. -/
theorem filter_zipIdx_snd {α : Type} {items : List α} {indices : List ℕ}
    (ascending : indices.Pairwise (· < ·)) (inside : ∀ index ∈ indices, index < items.length) :
    (items.zipIdx.filter fun item => decide (item.2 ∈ indices)).map Prod.snd = indices := by
  have chosen : (items.zipIdx.filter fun item => decide (item.2 ∈ indices)).map Prod.snd =
      (List.range items.length).filter fun index => decide (index ∈ indices) := by
    rw [List.range_eq_range', ← List.zipIdx_map_snd 0 items, List.filter_map]
    rfl
  rw [chosen]
  refine List.Pairwise.eq_of_mem_iff (List.pairwise_lt_range.filter _) ascending fun index => ?_
  rw [List.mem_filter, List.mem_range, decide_eq_true_eq]
  exact ⟨And.right, fun member => ⟨inside index member, member⟩⟩

section Own

variable {kvCaches : List (String × LayerCache)} {groups : List KVLayerGroupInfo}
  {tensors : List Tensor} {group : KVLayerGroupInfo}

theorem Groups.index_lt (spec : Groups kvCaches groups) (listed : group ∈ groups) {index : ℕ}
    (member : index ∈ group.layerIndices) : index < kvCaches.length :=
  List.mem_range.mp (spec.once.mem_iff.mp (List.mem_flatMap.mpr ⟨group, listed, member⟩))

theorem Groups.exists_group (spec : Groups kvCaches groups) {index : ℕ}
    (inside : index < kvCaches.length) : ∃ group ∈ groups, index ∈ group.layerIndices :=
  List.mem_flatMap.mp (spec.once.mem_iff.mpr (List.mem_range.mpr inside))

variable (whole : kvCaches.map Prod.snd = tensors.map LayerCache.tensor)
include whole

theorem layer_getElem? (index : ℕ) :
    kvCaches[index]?.map Prod.snd = tensors[index]?.map LayerCache.tensor := by
  rw [← List.getElem?_map, whole, List.getElem?_map]

theorem length_eq : kvCaches.length = tensors.length := by
  have counts := congrArg List.length whole
  rwa [List.length_map, List.length_map] at counts

/-- The layers of a group are those with its shape and element type. -/
theorem Groups.mem_iff (spec : Groups kvCaches groups) (listed : group ∈ groups) {index : ℕ}
    {tensor : Tensor} (here : tensors[index]? = some tensor) :
    index ∈ group.layerIndices ↔ tensor.shape = group.shape ∧ tensor.dtype = group.dtype := by
  have inside : index < kvCaches.length := by
    rw [length_eq whole]
    exact (List.getElem?_eq_some_iff.mp here).1
  have layer := layer_getElem? whole index
  rw [here, Option.map_some] at layer
  obtain ⟨named, found, same⟩ := Option.map_eq_some_iff.mp layer
  rw [spec.alike group listed index inside, found, Option.map_some, same, LayerCache.groupKey,
    Option.some.injEq, Except.ok.injEq, Prod.mk.injEq]

theorem Groups.ownTensors_filter (spec : Groups kvCaches groups) (listed : group ∈ groups) :
    (tensors.zipIdx.filter fun layer => decide (layer.2 ∈ group.layerIndices)).map Prod.fst =
      ownTensors tensors group := by
  have chosen : tensors.zipIdx.filter (fun layer => decide (layer.2 ∈ group.layerIndices)) =
      tensors.zipIdx.filter ((fun tensor : Tensor =>
        decide (tensor.shape = group.shape ∧ tensor.dtype = group.dtype)) ∘ Prod.fst) := by
    refine List.filter_congr fun layer member => ?_
    exact decide_eq_decide.mpr
      (spec.mem_iff whole listed (List.mem_zipIdx_iff_getElem?.mp member))
  rw [chosen, ← List.filter_map, List.zipIdx_map_fst, ownTensors]

/-- A group's tensors are those of its layers, in their order. -/
theorem Groups.ownTensors_eq (spec : Groups kvCaches groups) (listed : group ∈ groups) :
    (ownTensors tensors group).map some = group.layerIndices.map fun index => tensors[index]? := by
  have inOrder := filter_zipIdx_snd (spec.ascending group listed) fun index member =>
    (length_eq whole).symm ▸ spec.index_lt listed member
  rw [← spec.ownTensors_filter whole listed, ← inOrder, List.map_map, List.map_map, inOrder]
  refine List.map_congr_left fun layer member => ?_
  exact (List.mem_zipIdx_iff_getElem?.mp (List.mem_filter.mp member).1).symm

theorem Groups.length_ownTensors (spec : Groups kvCaches groups) (listed : group ∈ groups) :
    (ownTensors tensors group).length = group.layerIndices.length := by
  have counts := congrArg List.length (spec.ownTensors_eq whole listed)
  rwa [List.length_map, List.length_map] at counts

/-- The table of a group has the pointers of its own tensors. -/
theorem Groups.groupTable_eq (spec : Groups kvCaches groups) (listed : group ∈ groups)
    (properties : LayerGroupProperties) :
    groupTable properties (kvCaches.map Prod.snd) group =
      .ok ((ownTensors tensors group).map fun tensor => (tensor.dataPtr : ℤ)) := by
  have pointers : ((kvCaches.map Prod.snd).zipIdx.filter
      fun layer => decide (layer.2 ∈ group.layerIndices)).mapM (fun layer => layer.1.dataPtr) =
        .ok ((ownTensors tensors group).map fun tensor => (tensor.dataPtr : ℤ)) := by
    rw [Checked.mapM_ok, whole, List.zipIdx_map, List.filter_map,
      ← spec.ownTensors_filter whole listed, List.map_map]
    simp only [List.forall₂_map_left_iff, List.forall₂_map_right_iff]
    exact List.forall₂_same.mpr fun layer _ => rfl
  have count : ((ownTensors tensors group).map fun tensor => (tensor.dataPtr : ℤ)).length =
      properties.numLayers group := by
    rw [List.length_map, spec.length_ownTensors whole listed, properties.numLayers_eq]
  have assigned : assignArray (properties.numLayers group)
      ((ownTensors tensors group).map fun tensor => (tensor.dataPtr : ℤ)) =
        .ok ((ownTensors tensors group).map fun tensor => (tensor.dataPtr : ℤ)) := by
    unfold assignArray
    exact if_pos count
  rw [groupTable, pointers, Checked.ok_bind, assigned]
  rfl

end Own

/-! ### The transfers of all groups -/

/-- The caches of an engine, by the distinct names of their layers, with a manager
that has no groups yet. -/
structure RegisteredCaches where
  kvCaches : List (String × LayerCache)
  named : (kvCaches.map Prod.fst).Nodup
  inside : ∀ layer ∈ kvCaches, ∀ tensor, layer.2 = .tensor tensor →
    tensor.dataPtr + tensor.numel * tensor.elementSize ≤ 9223372036854775808
  envValue : String
  metadata : GroupedMetadata
  fresh : metadata.kvLayerGroups = []
  useGpu : Bool

namespace RegisteredCaches

/-- The metadata when the manager has groups. -/
def grouped (caches : RegisteredCaches) (groups : List KVLayerGroupInfo) : GroupedMetadata :=
  { caches.metadata with kvLayerGroups := groups }

/-- A region of the shape and the element type is filled from the layers of the
group, through the table, and these are filled from it. -/
structure Serves (caches : RegisteredCaches) (numTokens : ℕ) (pointers : GroupPointers)
    (group : KVLayerGroupInfo) (shape : List ℕ) (dtype : DType) (table : List ℤ)
    (tensors : List Tensor) (format : GPUKVFormat) : Prop where
  layers : (group.layerIndices.map fun index => caches.kvCaches[index]?.map Prod.snd) =
    tensors.map fun tensor => some (.tensor tensor)
  formats : ∀ tensor ∈ tensors, layerFormat tensor = .ok format
  tableEq : table = tensors.map fun tensor => (tensor.dataPtr : ℤ)
  dtypeEq : dtype = group.dtype
  shapeEq : shape = [format.halves, tensors.length, numTokens,
    format.rowElements (format.dimsOf tensors.length group.shape)]
  moves : ∀ region : Tensor, region.shape = shape → region.dtype = dtype →
    MovesOwnRows pointers table region tensors format
      (format.dimsOf tensors.length group.shape) dtype numTokens

/-- The shapes, the element types and the tables list the groups in their order,
and so do the temporary buffers of whole chunks. -/
structure Lists (caches : RegisteredCaches) (properties : LayerGroupProperties) (numTokens : ℕ)
    (groups : List KVLayerGroupInfo) (shapes : List (List ℕ)) (pointers : GroupPointers) :
    Prop where
  reported : (caches.grouped groups).getShapes properties (some numTokens) = .ok shapes
  prepared : initializeKvCachePointers properties (caches.grouped groups) caches.useGpu
    (caches.kvCaches.map Prod.snd) = .ok pointers
  lengths : shapes.length = groups.length ∧
    (caches.grouped groups).getDtypes.length = groups.length ∧
    pointers.groupKvCachePointers.length = groups.length
  each : ∀ (index : ℕ) (group : KVLayerGroupInfo), groups[index]? = some group →
    ∃ shape dtype table tensors format,
    shapes[index]? = some shape ∧ (caches.grouped groups).getDtypes[index]? = some dtype ∧
    pointers.groupKvCachePointers[index]? = some table ∧
    (caches.useGpu = true → numTokens = caches.metadata.chunkSize →
      pointers.groupTmpBuffer[index]? = some (shape, dtype)) ∧
    caches.Serves numTokens pointers group shape dtype table tensors format

/-- The layers are grouped, and every group has its own region, table and rows. -/
def TransfersGroups (caches : RegisteredCaches) (properties : LayerGroupProperties)
    (numTokens : ℕ) : Prop :=
  ∃ groups, hcuBuildKvLayerGroups caches.metadata.kvLayerGroups caches.envValue caches.kvCaches =
      .ok groups ∧
    Groups caches.kvCaches groups ∧
    (groups ≠ [] → ∃ shapes pointers, caches.Lists properties numTokens groups shapes pointers)

/-- There are no layers; or they are grouped, all are tensors in a known format
with as many halves as the regions, and the sizes and the rows of each group fit
the format and the pages of the first layer. -/
def FitsFirstLayer (caches : RegisteredCaches) (numTokens : ℕ) : Prop :=
  caches.kvCaches = [] ∨ hcuStrToBool caches.envValue = false ∧
    ∃ (tensors : List Tensor) (first : Tensor) (format : GPUKVFormat),
      caches.kvCaches.map Prod.snd = tensors.map LayerCache.tensor ∧
      tensors.head? = some first ∧ layerFormat first = .ok format ∧
      ∀ tensor ∈ tensors, ∃ own, layerFormat tensor = .ok own ∧
        own.halves = caches.metadata.kvSize ∧
        GroupFits format (format.dimsOf 0 first.shape) own
          (own.dimsOf (tensors.countP fun other =>
            decide (other.shape = tensor.shape ∧ other.dtype = tensor.dtype)) tensor.shape)
          tensor.dtype numTokens

section Groups

variable {caches : RegisteredCaches} {properties : LayerGroupProperties}
  {groups : List KVLayerGroupInfo} {tensors : List Tensor} {first : Tensor}
  {group : KVLayerGroupInfo} {numTokens : ℕ} {pointers : GroupPointers}

theorem layerFormat_congr {tensor other : Tensor} (same : tensor.shape = other.shape) :
    layerFormat tensor = layerFormat other := by
  cases tensor
  cases other
  dsimp only at same
  subst same
  rfl

theorem groups_ne_nil (spec : Groups caches.kvCaches groups) (layers : caches.kvCaches ≠ []) :
    groups ≠ [] := by
  rintro rfl
  obtain ⟨group, listed, _⟩ := spec.exists_group (List.length_pos_of_ne_nil layers)
  exact absurd listed List.not_mem_nil

/-- Layers that are tensors are grouped. -/
theorem exists_groups (whole : caches.kvCaches.map Prod.snd = tensors.map LayerCache.tensor)
    (layers : caches.kvCaches ≠ []) (standard : hcuStrToBool caches.envValue = false) :
    ∃ groups, hcuBuildKvLayerGroups [] caches.envValue caches.kvCaches = .ok groups := by
  have keys : caches.kvCaches.mapM (fun layer => layer.2.groupKey) =
      .ok (tensors.map fun tensor => (tensor.shape, tensor.dtype)) := by
    have pairs : List.Forall₂ (fun cache key => LayerCache.groupKey cache = .ok key)
        (caches.kvCaches.map Prod.snd) (tensors.map fun tensor => (tensor.shape, tensor.dtype)) := by
      rw [whole, List.forall₂_map_left_iff, List.forall₂_map_right_iff]
      exact List.forall₂_same.mpr fun tensor _ => rfl
    rw [List.forall₂_map_left_iff] at pairs
    exact Checked.mapM_ok.mpr pairs
  exact ⟨_, (hcuBuildKvLayerGroups_eq layers standard).mpr ⟨_, keys, rfl⟩⟩

/-- What the set-up of the connector makes of tensors. -/
theorem initialize_iff (whole : caches.kvCaches.map Prod.snd = tensors.map LayerCache.tensor)
    (spec : Groups caches.kvCaches groups) (filled : groups ≠ [])
    (head : tensors.head? = some first) :
    initializeKvCachePointers properties (caches.grouped groups) caches.useGpu
        (caches.kvCaches.map Prod.snd) = .ok pointers ↔
      ∃ buffers format blocks size,
        groupTmpBuffers properties (caches.grouped groups) caches.useGpu = .ok buffers ∧
        layerFormat first = .ok format ∧ getNumBlocks first format = .ok blocks ∧
        getBlockSize first format = .ok size ∧
        pointers = ⟨buffers, groups.map fun group =>
          (ownTensors tensors group).map fun tensor => (tensor.dataPtr : ℤ), format, blocks,
            size⟩ := by
  have tables : groups.mapM (groupTable properties (caches.kvCaches.map Prod.snd)) =
      .ok (groups.map fun group =>
        (ownTensors tensors group).map fun tensor => (tensor.dataPtr : ℤ)) := by
    rw [Checked.mapM_ok, List.forall₂_map_right_iff]
    exact List.forall₂_same.mpr fun group listed => spec.groupTable_eq whole listed properties
  have listed : groups.isEmpty = false := List.isEmpty_eq_false_iff.mpr filled
  have same : (caches.grouped groups).kvLayerGroups = groups := rfl
  obtain ⟨rest, rfl⟩ := List.head?_eq_some_iff.mp head
  rw [whole, List.map_cons] at tables ⊢
  simp only [initializeKvCachePointers, same, listed, Bool.false_eq_true, if_false, tables,
    headCaches, Checked.bind_ok, Checked.ok_bind, Checked.mapError_ok, Checked.return_ok,
    layerFormat]
  constructor
  · rintro ⟨buffers, made, format, found, blocks, counted, size, sized, rfl⟩
    exact ⟨buffers, format, blocks, size, made, found, counted, sized, rfl⟩
  · rintro ⟨buffers, format, blocks, size, made, found, counted, sized, rfl⟩
    exact ⟨buffers, made, format, found, blocks, counted, size, sized, rfl⟩

theorem getShapes_eq (filled : groups ≠ []) (tokens : Option ℕ) :
    (caches.grouped groups).getShapes properties tokens = groups.mapM fun group => do
      let hiddenDimSize ← properties.hiddenDimSize group
      return [caches.metadata.kvSize, properties.numLayers group,
        tokens.getD caches.metadata.chunkSize, hiddenDimSize] := by
  have listed : groups.isEmpty = false := List.isEmpty_eq_false_iff.mpr filled
  have same : (caches.grouped groups).kvLayerGroups = groups := rfl
  simp only [GroupedMetadata.getShapes, same, listed, Bool.not_false, if_true]
  rfl

/-- The shape that is reported at a group's position. -/
theorem shape_of_getShapes {shapes : List (List ℕ)} {tokens : Option ℕ} (filled : groups ≠ [])
    (reported : (caches.grouped groups).getShapes properties tokens = .ok shapes) {index : ℕ}
    (here : groups[index]? = some group) {shape : List ℕ} (there : shapes[index]? = some shape) :
    ∃ hidden, properties.hiddenDimSize group = .ok hidden ∧
      shape = [caches.metadata.kvSize, group.layerIndices.length,
        tokens.getD caches.metadata.chunkSize, hidden] := by
  rw [getShapes_eq filled] at reported
  have made := Checked.mapM_getElem? reported here there
  rw [Checked.bind_ok] at made
  obtain ⟨hidden, sized, returned⟩ := made
  rw [Checked.return_ok, properties.numLayers_eq] at returned
  exact ⟨hidden, sized, returned.symm⟩

/-- The tensors that serve a group are its own. -/
theorem Serves.tensors_eq (whole : caches.kvCaches.map Prod.snd = tensors.map LayerCache.tensor)
    (spec : Groups caches.kvCaches groups) (listed : group ∈ groups) {shape : List ℕ}
    {dtype : DType} {table : List ℤ} {served : List Tensor} {format : GPUKVFormat}
    (serves : caches.Serves numTokens pointers group shape dtype table served format) :
    served = ownTensors tensors group := by
  have own := congrArg (List.map (Option.map LayerCache.tensor)) (spec.ownTensors_eq whole listed)
  have layers := serves.layers
  simp only [layer_getElem? whole] at layers
  rw [List.map_map, List.map_map] at own
  have equal : served.map (fun tensor => some (LayerCache.tensor tensor)) =
      (ownTensors tensors group).map fun tensor => some (LayerCache.tensor tensor) := by
    rw [← layers]
    exact own.symm
  exact List.map_injective_iff.mpr
    (fun one other same => LayerCache.tensor.inj (Option.some.inj same)) equal

/-- The launch for a group of tensors. -/
theorem groupLaunch (whole : caches.kvCaches.map Prod.snd = tensors.map LayerCache.tensor)
    (region : Tensor) {tensor : Tensor} {format own : GPUKVFormat} (listed : tensor ∈ tensors)
    (ofGroup : tensor.shape = group.shape ∧ tensor.dtype = group.dtype)
    (found : layerFormat first = .ok format) (ownFound : layerFormat tensor = .ok own)
    (pointerFormat : pointers.gpuKvFormat = format)
    (blocks : getNumBlocks first format = .ok pointers.numBlocks)
    (sizes : getBlockSize first format = .ok pointers.blockSize)
    (extents : region.shape = [own.halves, (ownTensors tensors group).length, numTokens,
      own.rowElements (own.dimsOf (ownTensors tensors group).length group.shape)])
    (elements : region.dtype = group.dtype) :
    GroupLaunch pointers (format.dimsOf 0 first.shape) region (ownTensors tensors group) own
      (own.dimsOf (ownTensors tensors group).length group.shape) group.dtype numTokens := by
  have firstShape := layerShape_of_format found 0
  have ownShape := layerShape_of_format ownFound (ownTensors tensors group).length
  have member : tensor ∈ ownTensors tensors group :=
    List.mem_filter.mpr ⟨listed, decide_eq_true ofGroup⟩
  refine ⟨pointerFormat ▸ firstShape.perLayer, ownShape.perLayer, ?_, ?_, ?_, ?_, ?_, ?_,
    elements⟩
  · exact Except.ok.inj (blocks.symm.trans firstShape.blocks)
  · exact Except.ok.inj (sizes.symm.trans firstShape.slots)
  · rw [GPUKVFormat.dimsOf_numLayers]
    exact List.length_pos_of_mem member
  · refine ⟨(GPUKVFormat.dimsOf_numLayers ..).symm, own, rfl, ownShape.perLayer.handled.2.1,
      ownShape.perLayer.handled.1, fun each inGroup => ?_⟩
    obtain ⟨same, dtypeEq⟩ := of_decide_eq_true (List.mem_filter.mp inGroup).2
    refine ⟨?_, dtypeEq⟩
    rw [same, ← ofGroup.1]
    exact ownShape.shape
  · intro each inGroup
    have cache : LayerCache.tensor each ∈ caches.kvCaches.map Prod.snd := by
      rw [whole]
      exact List.mem_map_of_mem (List.mem_filter.mp inGroup).1
    obtain ⟨layer, there, same⟩ := List.mem_map.mp cache
    exact caches.inside layer there each same
  · rw [extents, GPUKVFormat.dimsOf_numLayers]

/-! ### From the transfers to the sizes -/

/-- Every layer of a group that is served is a tensor. -/
theorem Lists.exists_tensors {shapes : List (List ℕ)}
    (lists : caches.Lists properties numTokens groups shapes pointers)
    (spec : Groups caches.kvCaches groups) :
    ∃ tensors : List Tensor,
      caches.kvCaches.map Prod.snd = tensors.map LayerCache.tensor := by
  have all : caches.kvCaches.map Prod.snd ∈ Set.range (List.map LayerCache.tensor) := by
    rw [Set.range_list_map]
    intro cache member
    obtain ⟨index, there⟩ := List.mem_iff_getElem?.mp member
    rw [List.getElem?_map] at there
    obtain ⟨layer, here, _⟩ := Option.map_eq_some_iff.mp there
    obtain ⟨group, listed, inGroup⟩ :=
      spec.exists_group (List.getElem?_eq_some_iff.mp here).1
    obtain ⟨position, found⟩ := List.mem_iff_getElem?.mp listed
    obtain ⟨_, _, _, tensors, _, _, _, _, _, serves⟩ := lists.each position group found
    have inside : some cache ∈ tensors.map fun tensor => some (LayerCache.tensor tensor) := by
      rw [← serves.layers, ← there]
      exact List.mem_map_of_mem inGroup
    obtain ⟨tensor, _, same⟩ := List.mem_map.mp inside
    exact ⟨tensor, Option.some.inj same⟩
  obtain ⟨tensors, same⟩ := all
  exact ⟨tensors, same.symm⟩

/-- The layers that are grouped with a tensor. -/
theorem exists_group_of_tensor
    (whole : caches.kvCaches.map Prod.snd = tensors.map LayerCache.tensor)
    (spec : Groups caches.kvCaches groups) {tensor : Tensor} (listed : tensor ∈ tensors) :
    ∃ group ∈ groups, tensor.shape = group.shape ∧ tensor.dtype = group.dtype := by
  obtain ⟨index, here⟩ := List.mem_iff_getElem?.mp listed
  have inside : index < caches.kvCaches.length := by
    rw [length_eq whole]
    exact (List.getElem?_eq_some_iff.mp here).1
  obtain ⟨group, inGroups, inGroup⟩ := spec.exists_group inside
  exact ⟨group, inGroups, (spec.mem_iff whole inGroups here).mp inGroup⟩

/-- The tensors that are grouped with a tensor, by their number. -/
theorem countP_eq {tensor : Tensor}
    (ofGroup : tensor.shape = group.shape ∧ tensor.dtype = group.dtype) :
    (tensors.countP fun other =>
      decide (other.shape = tensor.shape ∧ other.dtype = tensor.dtype)) =
        (ownTensors tensors group).length := by
  rw [List.countP_eq_length_filter, ownTensors, ofGroup.1, ofGroup.2]

theorem Lists.fits_tensor {shapes : List (List ℕ)} {format : GPUKVFormat}
    (lists : caches.Lists properties numTokens groups shapes pointers)
    (whole : caches.kvCaches.map Prod.snd = tensors.map LayerCache.tensor)
    (spec : Groups caches.kvCaches groups) (filled : groups ≠ [])
    (found : layerFormat first = .ok format) (pointerFormat : pointers.gpuKvFormat = format)
    (blocks : getNumBlocks first format = .ok pointers.numBlocks)
    (sizes : getBlockSize first format = .ok pointers.blockSize) {tensor : Tensor}
    (listed : tensor ∈ tensors) :
    ∃ own, layerFormat tensor = .ok own ∧ own.halves = caches.metadata.kvSize ∧
      GroupFits format (format.dimsOf 0 first.shape) own
        (own.dimsOf (tensors.countP fun other =>
          decide (other.shape = tensor.shape ∧ other.dtype = tensor.dtype)) tensor.shape)
        tensor.dtype numTokens := by
  obtain ⟨group, inGroups, ofGroup⟩ := exists_group_of_tensor whole spec listed
  obtain ⟨position, there⟩ := List.mem_iff_getElem?.mp inGroups
  obtain ⟨shape, dtype, table, served, own, shaped, _, _, _, serves⟩ :=
    lists.each position group there
  obtain rfl := serves.tensors_eq whole spec inGroups
  have member : tensor ∈ ownTensors tensors group :=
    List.mem_filter.mpr ⟨listed, decide_eq_true ofGroup⟩
  have ownFound := serves.formats tensor member
  obtain ⟨hidden, _, reported⟩ := shape_of_getShapes filled lists.reported there shaped
  have halves : own.halves = caches.metadata.kvSize :=
    (List.cons.inj (serves.shapeEq.symm.trans reported)).1
  obtain rfl := serves.dtypeEq
  have launch := groupLaunch whole (emptyTensor shape group.dtype ⟨.cpu, none⟩) listed ofGroup
    found ownFound pointerFormat blocks sizes serves.shapeEq rfl
  have moves := serves.moves (emptyTensor shape group.dtype ⟨.cpu, none⟩) rfl rfl
  rw [serves.tableEq] at moves
  have fits := launch.fits_of_moves moves
  rw [pointerFormat] at fits
  refine ⟨own, ownFound, halves, ?_⟩
  rw [countP_eq ofGroup, ofGroup.1, ofGroup.2]
  exact fits

/-! ### From the sizes to the transfers -/

variable (properties) in
/-- The shapes of groups of tensors in known formats are reported. -/
theorem exists_shapes (filled : groups ≠ []) (tokens : Option ℕ)
    (known : ∀ group ∈ groups, ∃ tensor own, layerFormat tensor = .ok own ∧
      tensor.shape = group.shape) :
    ∃ shapes, (caches.grouped groups).getShapes properties tokens = .ok shapes ∧
      shapes.length = groups.length := by
  have each : ∀ group ∈ groups, ∃ shape, (do
      let hiddenDimSize ← properties.hiddenDimSize group
      return [caches.metadata.kvSize, properties.numLayers group,
        tokens.getD caches.metadata.chunkSize, hiddenDimSize]) = .ok shape ∧ True := by
    intro group listed
    obtain ⟨tensor, own, found, same⟩ := known group listed
    rw [(layerShape_of_format found 0).hidden properties group same.symm, Checked.ok_bind]
    exact ⟨_, rfl, trivial⟩
  obtain ⟨shapes, returned, count, _⟩ := Checked.mapM_returns each
  rw [getShapes_eq filled]
  exact ⟨shapes, returned, count⟩

theorem getDtypes_eq (filled : groups ≠ []) :
    (caches.grouped groups).getDtypes = groups.map KVLayerGroupInfo.dtype := by
  have listed : groups.isEmpty = false := List.isEmpty_eq_false_iff.mpr filled
  have same : (caches.grouped groups).kvLayerGroups = groups := rfl
  simp only [GroupedMetadata.getDtypes, same, listed, Bool.not_false, if_true]

variable (properties) in
/-- The temporary buffers have the shapes and the element types of whole chunks. -/
theorem exists_buffers (filled : groups ≠ [])
    (known : ∀ group ∈ groups, ∃ tensor own, layerFormat tensor = .ok own ∧
      tensor.shape = group.shape) :
    ∃ buffers, groupTmpBuffers properties (caches.grouped groups) caches.useGpu = .ok buffers ∧
      (caches.useGpu = true → ∃ shapes,
        (caches.grouped groups).getShapes properties (some caches.metadata.chunkSize) =
          .ok shapes ∧
        buffers = shapes.zip (groups.map KVLayerGroupInfo.dtype)) := by
  obtain ⟨shapes, reported, count⟩ :=
    exists_shapes properties filled (some caches.metadata.chunkSize) known
  have chunk : (caches.grouped groups).chunkSize = caches.metadata.chunkSize := rfl
  unfold groupTmpBuffers
  rw [chunk, reported, getDtypes_eq filled]
  cases caches.useGpu with
  | false => exact ⟨[], rfl, fun gpu => by cases gpu⟩
  | true =>
      refine ⟨shapes.zip (groups.map KVLayerGroupInfo.dtype), ?_, fun _ => ⟨shapes, rfl, rfl⟩⟩
      rw [Checked.ok_bind, if_neg (by simp), if_neg (by rw [List.length_map, count]; simp)]
      rfl

theorem exists_tensor_of_group
    (whole : caches.kvCaches.map Prod.snd = tensors.map LayerCache.tensor)
    (spec : Groups caches.kvCaches groups) (listed : group ∈ groups) :
    ∃ tensor ∈ tensors, tensor.shape = group.shape ∧ tensor.dtype = group.dtype := by
  obtain ⟨index, inGroup⟩ := List.exists_mem_of_ne_nil _ (spec.nonempty group listed)
  have inside : index < tensors.length := by
    rw [← length_eq whole]
    exact spec.index_lt listed inGroup
  exact ⟨tensors[index], List.getElem_mem inside,
    (spec.mem_iff whole listed (List.getElem?_eq_getElem inside)).mp inGroup⟩

/-- Groups whose sizes and rows fit the first layer are served. -/
theorem exists_lists {format : GPUKVFormat}
    (whole : caches.kvCaches.map Prod.snd = tensors.map LayerCache.tensor)
    (spec : Groups caches.kvCaches groups) (filled : groups ≠ [])
    (head : tensors.head? = some first) (found : layerFormat first = .ok format)
    (fits : ∀ tensor ∈ tensors, ∃ own, layerFormat tensor = .ok own ∧
      own.halves = caches.metadata.kvSize ∧
      GroupFits format (format.dimsOf 0 first.shape) own
        (own.dimsOf (tensors.countP fun other =>
          decide (other.shape = tensor.shape ∧ other.dtype = tensor.dtype)) tensor.shape)
        tensor.dtype numTokens) :
    ∃ shapes pointers, caches.Lists properties numTokens groups shapes pointers := by
  have known : ∀ group ∈ groups, ∃ tensor own, layerFormat tensor = .ok own ∧
      tensor.shape = group.shape := by
    intro group listed
    obtain ⟨tensor, inside, same, _⟩ := exists_tensor_of_group whole spec listed
    obtain ⟨own, ownFound, _⟩ := fits tensor inside
    exact ⟨tensor, own, ownFound, same⟩
  obtain ⟨shapes, reported, count⟩ :=
    exists_shapes properties filled (some numTokens) known
  obtain ⟨buffers, buffered, chunks⟩ := exists_buffers properties filled known
  have firstShape := layerShape_of_format found 0
  have prepared := (initialize_iff whole spec filled head).mpr
    ⟨buffers, format, _, _, buffered, found, firstShape.blocks, firstShape.slots, rfl⟩
  refine ⟨shapes, _, reported, prepared, ⟨count, ?_, List.length_map ..⟩, ?_⟩
  · rw [getDtypes_eq filled, List.length_map]
  intro index group here
  have listed : group ∈ groups := List.mem_of_getElem? here
  obtain ⟨tensor, inside, ofGroup⟩ := exists_tensor_of_group whole spec listed
  obtain ⟨own, ownFound, halves, fit⟩ := fits tensor inside
  have ownShape := layerShape_of_format ownFound (ownTensors tensors group).length
  have there : index < shapes.length := by
    rw [count]
    exact (List.getElem?_eq_some_iff.mp here).1
  obtain ⟨hidden, sized, shapeEq⟩ :=
    shape_of_getShapes filled reported here (List.getElem?_eq_getElem there)
  have hiddenEq := Except.ok.inj (sized.symm.trans (ownShape.hidden properties group ofGroup.1.symm))
  rw [hiddenEq, ofGroup.1, ← halves, ← spec.length_ownTensors whole listed] at shapeEq
  rw [countP_eq ofGroup, ofGroup.1, ofGroup.2] at fit
  refine ⟨shapes[index], group.dtype,
    (ownTensors tensors group).map fun tensor => (tensor.dataPtr : ℤ), ownTensors tensors group,
    own, List.getElem?_eq_getElem there, ?_, ?_, ?_, ?_, ?_, rfl, rfl, shapeEq, ?_⟩
  · rw [getDtypes_eq filled, List.getElem?_map, here, Option.map_some]
  · rw [List.getElem?_map, here, Option.map_some]
  · intro gpu chunk
    obtain ⟨chunkShapes, chunkReported, rfl⟩ := chunks gpu
    rw [← chunk, reported] at chunkReported
    obtain rfl := Except.ok.inj chunkReported
    refine List.getElem?_zip_eq_some.mpr ⟨List.getElem?_eq_getElem there, ?_⟩
    rw [List.getElem?_map, here, Option.map_some]
  · have own := congrArg (List.map (Option.map LayerCache.tensor))
      (spec.ownTensors_eq whole listed)
    rw [List.map_map, List.map_map] at own
    simp only [layer_getElem? whole]
    exact own.symm
  · intro each inGroup
    rw [layerFormat_congr ((of_decide_eq_true (List.mem_filter.mp inGroup).2).1.trans
      ofGroup.1.symm)]
    exact ownFound
  · intro region extents elements
    rw [shapeEq] at extents
    exact (groupLaunch whole region inside ofGroup found ownFound rfl firstShape.blocks
      firstShape.slots extents elements).moves_of_fits fit

end Groups

theorem TransfersGroups.fitsFirstLayer {caches : RegisteredCaches}
    {properties : LayerGroupProperties} {numTokens : ℕ}
    (transfers : caches.TransfersGroups properties numTokens) :
    caches.FitsFirstLayer numTokens := by
  obtain ⟨groups, built, spec, derived⟩ := transfers
  rw [caches.fresh] at built
  refine or_iff_not_imp_left.mpr fun layers => ?_
  have filled := groups_ne_nil spec layers
  have standard : hcuStrToBool caches.envValue = false := by
    by_contra custom
    rw [hcuBuildKvLayerGroups, if_neg (by simp), if_neg (by simpa using layers),
      if_pos (by simpa using custom)] at built
    exact filled (Except.ok.inj built).symm
  obtain ⟨shapes, pointers, lists⟩ := derived filled
  obtain ⟨tensors, whole⟩ := lists.exists_tensors spec
  have someTensor : tensors ≠ [] := by
    rintro rfl
    exact layers (List.length_eq_zero_iff.mp (length_eq whole))
  obtain ⟨first, rest, rfl⟩ := List.exists_cons_of_ne_nil someTensor
  obtain ⟨buffers, format, blocks, size, _, found, counted, sized, rfl⟩ :=
    (initialize_iff whole spec filled rfl).mp lists.prepared
  exact ⟨standard, first :: rest, first, format, whole, rfl, found, fun tensor listed =>
    lists.fits_tensor whole spec filled found rfl counted sized listed⟩

theorem FitsFirstLayer.transfersGroups {caches : RegisteredCaches} {numTokens : ℕ}
    (fits : caches.FitsFirstLayer numTokens) (properties : LayerGroupProperties) :
    caches.TransfersGroups properties numTokens := by
  rw [TransfersGroups, caches.fresh]
  rcases fits with none | ⟨standard, tensors, first, format, whole, head, found, fits⟩
  · rw [none]
    exact ⟨[], rfl, .nil, fun filled => absurd rfl filled⟩
  · have layers : caches.kvCaches ≠ [] := by
      intro none
      rw [none] at whole
      obtain rfl := List.map_eq_nil_iff.mp whole.symm
      cases head
    obtain ⟨groups, built⟩ := exists_groups whole layers standard
    have spec := groups_of_built standard built
    exact ⟨groups, built, spec, fun filled => exists_lists whole spec filled head found fits⟩

/-- **Groups of layers.** All groups are listed in one order and moved between
their regions and the rows of their own layers exactly when their sizes and rows
fit the format and the pages of the first layer. -/
theorem transfersGroups_iff (caches : RegisteredCaches) (properties : LayerGroupProperties)
    (numTokens : ℕ) :
    caches.TransfersGroups properties numTokens ↔ caches.FitsFirstLayer numTokens :=
  ⟨TransfersGroups.fitsFirstLayer, fun fits => fits.transfersGroups properties⟩

/-! ### Groups with other numbers of blocks -/

/-- The elements of a row: heads times their size, or the size with MLA. -/
def hiddenDimOfShape : List ℕ → Except LayerGroupError ℕ
  | [_, _, _, heads, size] => .ok (heads * size)
  | [_, _, size] => .ok size
  | _ => .error (.raised .indexError)

theorem hiddenDimOfShape_mha (group : KVLayerGroupInfo) (first second third heads size : ℕ)
    (shape : group.shape = [first, second, third, heads, size]) :
    hiddenDimOfShape group.shape = .ok (heads * size) := by
  rw [shape]
  rfl

theorem hiddenDimOfShape_mla (group : KVLayerGroupInfo) (first second size : ℕ)
    (shape : group.shape = [first, second, size]) : hiddenDimOfShape group.shape = .ok size := by
  rw [shape]
  rfl

def shapeProperties : LayerGroupProperties where
  numLayers group := group.layerIndices.length
  hiddenDimSize group := hiddenDimOfShape group.shape
  numLayers_eq _ := rfl
  hiddenDimSize_mha := hiddenDimOfShape_mha
  hiddenDimSize_mla := hiddenDimOfShape_mla

/-- A flash-attention layer of four blocks of 16 tokens. -/
def shortLayer : Tensor :=
  denseHalf 65536 [2, 4, 16, 1, 8] [512, 128, 8, 8, 1] rfl (by decide)

/-- A flash-attention layer of eight blocks of 16 tokens. -/
def longLayer : Tensor :=
  denseHalf 131072 [2, 8, 16, 1, 8] [1024, 128, 8, 8, 1] rfl (by decide)

theorem shortAndLong_inside (layer : String × LayerCache)
    (member : layer ∈ [("layer.0", LayerCache.tensor shortLayer), ("layer.1", .tensor longLayer)])
    (tensor : Tensor) (same : layer.2 = .tensor tensor) :
    tensor.dataPtr + tensor.numel * tensor.elementSize ≤ 9223372036854775808 := by
  simp only [List.mem_cons, List.not_mem_nil, or_false] at member
  rcases member with rfl | rfl
  · obtain rfl := LayerCache.tensor.inj same
    decide
  · obtain rfl := LayerCache.tensor.inj same
    decide

theorem shortAndLong_named :
    ([("layer.0", LayerCache.tensor shortLayer), ("layer.1", .tensor longLayer)].map
      Prod.fst).Nodup := by
  decide

def unequalLayers : RegisteredCaches where
  kvCaches := [("layer.0", .tensor shortLayer), ("layer.1", .tensor longLayer)]
  named := shortAndLong_named
  inside := shortAndLong_inside
  envValue := "false"
  metadata := ⟨.bfloat16, (2, 2, 16, 1, 8), false, 16, []⟩
  fresh := rfl
  useGpu := false

/-- **Unequal layers.** The values of the long layer are 128 rows behind its keys
and are looked for 64 rows behind them. -/
theorem not_transfersGroups_unequalLayers :
    ¬ unequalLayers.TransfersGroups shapeProperties 1 := by
  intro transfers
  rcases transfers.fitsFirstLayer with none | ⟨_, tensors, first, format, whole, head, found, fits⟩
  · cases none
  · have both : tensors = [shortLayer, longLayer] :=
      List.map_injective_iff.mpr (fun one other same => LayerCache.tensor.inj same) whole.symm
    subst both
    obtain rfl : shortLayer = first := Option.some.inj head
    obtain rfl : GPUKVFormat.nlXTwoNbBsNhHs = format := Except.ok.inj found
    obtain ⟨own, ownFound, _, fit⟩ := fits longLayer (by simp)
    obtain rfl : GPUKVFormat.nlXTwoNbBsNhHs = own := Except.ok.inj ownFound
    have same := (fit.rows (by decide) (by decide) (by decide)).1
    exact absurd (same.slots rfl) (by decide)

end RegisteredCaches

end LMCacheHcu.Kernels
