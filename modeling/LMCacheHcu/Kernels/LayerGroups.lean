import LMCacheHcu.Foundation.Grouping
import LMCacheHcu.Kernels.PagedCache

/-! # Groups of layers

Layers with caches of one shape and element type form a group. The metadata
report a shape and an element type for each group, and the connector for groups
has a table of pointers for each, but one page size and one format for all.
-/

namespace LMCacheHcu.Kernels

open Storage

/-! ### The groups -/

/-- The cache of a layer: a tensor, or a tuple of a key and a value tensor. -/
inductive LayerCache
  | tensor (tensor : Tensor)
  | tuple (key value : Tensor)
deriving DecidableEq

/-- The exceptions of the set-up. -/
inductive LayerGroupError
  | raised (error : PointerError)
  | attributeError (message : String)
deriving DecidableEq, Repr

/-- `KVLayerGroupInfo`. -/
structure KVLayerGroupInfo where
  layerNames : List String
  layerIndices : List ℕ
  shape : List ℕ
  dtype : DType
deriving DecidableEq, Repr

/-- `str_to_bool` of a string. -/
def hcuStrToBool (val : String) : Bool :=
  decide (val.toLower ∈ ["true", "1", "yes", "on"])

/-- `nb, nh, bs, hs = k.shape` with another number of dimensions. -/
def unpackShapeError (count : ℕ) : LayerGroupError :=
  if count < 4 then .raised (.valueError s!"not enough values to unpack (expected 4, got {count})")
  else .raised (.valueError "too many values to unpack (expected 4)")

/-- The shape and element type that a layer is grouped by. -/
def LayerCache.groupKey : LayerCache → Except LayerGroupError (List ℕ × DType)
  | tensor whole => .ok (whole.shape, whole.dtype)
  | tuple key _ =>
      match key.shape with
      | [nb, nh, bs, hs] => .ok ([nb, 2, bs, nh, hs], key.dtype)
      | shape => .error (unpackShapeError shape.length)

/-- The index of the first layer of a group. -/
def getFirstLayerIndex (group : (List ℕ × DType) × List (String × ℕ)) : ℕ :=
  (group.2.head?.map Prod.snd).getD 0

/-- `_hcu_build_kv_layer_groups`, given the groups of the manager and the value of
`VLLM_HCU_USE_CUSTOM_FLASH_ATTN`: the groups that the manager has afterwards. -/
def hcuBuildKvLayerGroups (kvLayerGroups : List KVLayerGroupInfo) (envValue : String)
    (kvCaches : List (String × LayerCache)) : Except LayerGroupError (List KVLayerGroupInfo) := do
  if !kvLayerGroups.isEmpty then return kvLayerGroups
  if kvCaches.isEmpty then return kvLayerGroups
  if hcuStrToBool envValue then return kvLayerGroups
  let keys ← kvCaches.mapM fun layer => layer.2.groupKey
  let groupsDict := Grouping.groups (keys.zip ((kvCaches.map Prod.fst).zipIdx))
  let sortedGroups := groupsDict.insertionSort fun first second =>
    getFirstLayerIndex first ≤ getFirstLayerIndex second
  return sortedGroups.map fun group =>
    ⟨group.2.map Prod.fst, group.2.map Prod.snd, group.1.1, group.1.2⟩

/-! ### What is reported and prepared for them -/

/-- The properties of `KVLayerGroupInfo`, which is not part of the repository, as
its tests use them. -/
structure LayerGroupProperties where
  numLayers : KVLayerGroupInfo → ℕ
  hiddenDimSize : KVLayerGroupInfo → Except LayerGroupError ℕ
  numLayers_eq : ∀ group, numLayers group = group.layerIndices.length
  hiddenDimSize_mha : ∀ group first second third heads size,
    group.shape = [first, second, third, heads, size] → hiddenDimSize group = .ok (heads * size)
  hiddenDimSize_mla : ∀ group first second size,
    group.shape = [first, second, size] → hiddenDimSize group = .ok size

/-- What the shapes depend on in `LMCacheMetadata`. -/
structure GroupedMetadata where
  kvDtype : DType
  /-- number of layers, two, chunk size, heads, head size -/
  kvShape : ℕ × ℕ × ℕ × ℕ × ℕ
  useMla : Bool
  chunkSize : ℕ
  kvLayerGroups : List KVLayerGroupInfo

namespace GroupedMetadata

variable (metadata : GroupedMetadata)

/-- `get_dtypes`. -/
def getDtypes : List DType :=
  if !metadata.kvLayerGroups.isEmpty then metadata.kvLayerGroups.map KVLayerGroupInfo.dtype
  else [metadata.kvDtype]

def kvSize : ℕ := if metadata.useMla then 1 else 2

/-- `get_shapes`. -/
def getShapes (properties : LayerGroupProperties) (numTokens : Option ℕ) :
    Except LayerGroupError (List (List ℕ)) :=
  let numTokens := numTokens.getD metadata.chunkSize
  if !metadata.kvLayerGroups.isEmpty then
    metadata.kvLayerGroups.mapM fun group => do
      let hiddenDimSize ← properties.hiddenDimSize group
      return [metadata.kvSize, properties.numLayers group, numTokens, hiddenDimSize]
  else
    let (numLayer, two, _, numKvHead, headSize) := metadata.kvShape
    return [[two, numLayer, numTokens, numKvHead * headSize]]

end GroupedMetadata

/-- `data_ptr` of a layer's cache. -/
def LayerCache.dataPtr : LayerCache → Except LayerGroupError ℤ
  | tensor whole => .ok whole.dataPtr
  | tuple _ _ => .error (.attributeError "'tuple' object has no attribute 'data_ptr'")

/-- A list of caches by its first one, which alone is inspected. -/
def headCaches : List LayerCache → KVCaches
  | [] => .layers []
  | .tensor first :: _ => .layers [first]
  | .tuple key value :: _ => .pairs [(key, value)]

/-- What `VLLMPagedMemGPUConnectorV3` has after its set-up. -/
structure GroupPointers where
  groupTmpBuffer : List (List ℕ × DType)
  groupKvCachePointers : List (List ℤ)
  gpuKvFormat : GPUKVFormat
  numBlocks : ℕ
  blockSize : ℕ
deriving DecidableEq, Repr

def GroupPointers.pageBufferSize (pointers : GroupPointers) : ℕ :=
  pointers.numBlocks * pointers.blockSize

/-- The shapes and element types of the temporary buffers. -/
def groupTmpBuffers (properties : LayerGroupProperties) (metadata : GroupedMetadata)
    (useGpu : Bool) : Except LayerGroupError (List (List ℕ × DType)) := do
  if !useGpu then return []
  let tmpBufShapes ← metadata.getShapes properties (some metadata.chunkSize)
  let tmpBufDtypes := metadata.getDtypes
  if tmpBufShapes.length ≠ tmpBufDtypes.length then throw (.raised (.assertionError ""))
  return tmpBufShapes.zip tmpBufDtypes

/-- The table of a group. -/
def groupTable (properties : LayerGroupProperties) (kvCaches : List LayerCache)
    (group : KVLayerGroupInfo) : Except LayerGroupError (List ℤ) := do
  let pointers ← (kvCaches.zipIdx.filter fun layer => layer.2 ∈ group.layerIndices).mapM
    fun layer => layer.1.dataPtr
  (assignArray (properties.numLayers group) pointers).mapError .raised

/-- `_initialize_kv_cache_pointers`. -/
def initializeKvCachePointers (properties : LayerGroupProperties) (metadata : GroupedMetadata)
    (useGpu : Bool) (kvCaches : List LayerCache) : Except LayerGroupError GroupPointers := do
  if metadata.kvLayerGroups.isEmpty then throw (.raised (.assertionError ""))
  let groupTmpBuffer ← groupTmpBuffers properties metadata useGpu
  let groupKvCachePointers ← metadata.kvLayerGroups.mapM (groupTable properties kvCaches)
  let gpuKvFormat ← (discoverGpuKvFormat (headCaches kvCaches) .vllm).mapError .raised
  match kvCaches with
  | .tensor first :: _ => do
      let numBlocks ← (getNumBlocks first gpuKvFormat).mapError .raised
      let blockSize ← (getBlockSize first gpuKvFormat).mapError .raised
      return ⟨groupTmpBuffer, groupKvCachePointers, gpuKvFormat, numBlocks, blockSize⟩
  | _ => throw (.raised .indexError)

/-! ### The groups of a list of layers -/

/-- The groups partition the layers by shape and element type, in the order of
their first layers. -/
structure Groups (kvCaches : List (String × LayerCache)) (groups : List KVLayerGroupInfo) :
    Prop where
  once : (groups.flatMap KVLayerGroupInfo.layerIndices).Perm (List.range kvCaches.length)
  ascending : ∀ group ∈ groups, group.layerIndices.Pairwise (· < ·)
  nonempty : ∀ group ∈ groups, group.layerIndices ≠ []
  alike : ∀ group ∈ groups, ∀ index < kvCaches.length, index ∈ group.layerIndices ↔
    (kvCaches[index]?.map fun layer => layer.2.groupKey) = some (.ok (group.shape, group.dtype))
  named : ∀ group ∈ groups, group.layerNames.map some =
    group.layerIndices.map fun index => kvCaches[index]?.map Prod.fst
  ordered : groups.Pairwise fun first second =>
    ∀ one ∈ first.layerIndices.head?, ∀ other ∈ second.layerIndices.head?, one < other

theorem Groups.nil : Groups [] [] :=
  ⟨List.Perm.nil, by simp, by simp, by simp, by simp, List.Pairwise.nil⟩

section Building

variable {kvCaches : List (String × LayerCache)} {keys : List (List ℕ × DType)}

/-- The layers with their keys, as they are appended to the groups. -/
def keyedLayers (kvCaches : List (String × LayerCache)) (keys : List (List ℕ × DType)) :
    List ((List ℕ × DType) × (String × ℕ)) :=
  keys.zip (kvCaches.map Prod.fst).zipIdx

theorem keyedLayers_snd (same : keys.length = kvCaches.length) :
    (keyedLayers kvCaches keys).map Prod.snd = (kvCaches.map Prod.fst).zipIdx := by
  rw [keyedLayers, List.map_snd_zip]
  simp [same]

theorem indices_eq : ((kvCaches.map Prod.fst).zipIdx).map Prod.snd =
    List.range kvCaches.length := by
  rw [List.zipIdx_map_snd, List.length_map, List.range_eq_range']

/-- A keyed layer is the layer of its index, with its name and its key. -/
theorem mem_keyedLayers {key : List ℕ × DType} {name : String} {index : ℕ} :
    (key, (name, index)) ∈ keyedLayers kvCaches keys ↔
      keys[index]? = some key ∧ kvCaches[index]?.map Prod.fst = some name := by
  rw [keyedLayers, List.mem_iff_getElem?]
  constructor
  · rintro ⟨position, there⟩
    obtain ⟨here, pair⟩ := List.getElem?_zip_eq_some.mp there
    rw [List.getElem?_zipIdx, Option.map_eq_some_iff] at pair
    obtain ⟨found, named, same⟩ := pair
    rw [Nat.zero_add, Prod.mk.injEq] at same
    obtain ⟨rfl, rfl⟩ := same
    exact ⟨here, by rw [← List.getElem?_map, named]⟩
  · rintro ⟨here, named⟩
    refine ⟨index, List.getElem?_zip_eq_some.mpr ⟨here, ?_⟩⟩
    rw [List.getElem?_zipIdx, List.getElem?_map, named, Nat.zero_add]
    rfl

theorem leads_keyedLayers (same : keys.length = kvCaches.length) :
    Grouping.Leads (fun one other : String × ℕ => one.2 < other.2)
      (Grouping.groups (keyedLayers kvCaches keys)) := by
  refine Grouping.leads_groups ?_
  rw [keyedLayers_snd same, ← List.pairwise_map (f := Prod.snd), indices_eq]
  exact List.pairwise_lt_range

/-- The groups are in the order of their first layers before they are sorted. -/
theorem sortedGroups_eq (same : keys.length = kvCaches.length) :
    ((Grouping.groups (keyedLayers kvCaches keys)).insertionSort fun first second =>
      getFirstLayerIndex first ≤ getFirstLayerIndex second) =
        Grouping.groups (keyedLayers kvCaches keys) := by
  refine List.Pairwise.insertionSort_eq ((leads_keyedLayers same).imp_of_mem ?_)
  intro first second firstIn secondIn before
  have spec := Grouping.groups_spec (keyedLayers kvCaches keys)
  obtain ⟨one, _, firstEq⟩ := List.exists_cons_of_ne_nil (spec.nonempty first firstIn)
  obtain ⟨other, _, secondEq⟩ := List.exists_cons_of_ne_nil (spec.nonempty second secondIn)
  have less : one.2 < other.2 := before one (by rw [firstEq]; rfl) other (by rw [secondEq]; rfl)
  rw [getFirstLayerIndex, getFirstLayerIndex, firstEq, secondEq]
  exact less.le

/-- A group of layers with a key. -/
def layerGroup (made : (List ℕ × DType) × List (String × ℕ)) : KVLayerGroupInfo :=
  ⟨made.2.map Prod.fst, made.2.map Prod.snd, made.1.1, made.1.2⟩

/-- The groups that are built, when every layer has a key. -/
theorem hcuBuildKvLayerGroups_eq {envValue : String} {groups : List KVLayerGroupInfo}
    (layers : kvCaches ≠ []) (standard : hcuStrToBool envValue = false) :
    hcuBuildKvLayerGroups [] envValue kvCaches = .ok groups ↔
      ∃ keys, kvCaches.mapM (fun layer => layer.2.groupKey) = .ok keys ∧
        groups = (Grouping.groups (keyedLayers kvCaches keys)).map layerGroup := by
  have listed : kvCaches.isEmpty = false := List.isEmpty_eq_false_iff.mpr layers
  simp only [hcuBuildKvLayerGroups, List.isEmpty_nil, Bool.not_true, Bool.false_eq_true, if_false,
    listed, standard, Checked.bind_ok, Checked.return_ok]
  refine exists_congr fun keys => and_congr_right fun returned => ?_
  have sorted := sortedGroups_eq (Checked.length_mapM returned)
  rw [keyedLayers] at sorted ⊢
  rw [sorted]
  exact eq_comm

/-- **The groups.** -/
theorem groups_of_built {envValue : String} {groups : List KVLayerGroupInfo}
    (standard : hcuStrToBool envValue = false)
    (built : hcuBuildKvLayerGroups [] envValue kvCaches = .ok groups) :
    Groups kvCaches groups := by
  rcases eq_or_ne kvCaches [] with rfl | layers
  · obtain rfl : [] = groups := Except.ok.inj built
    exact .nil
  obtain ⟨keys, returned, rfl⟩ := (hcuBuildKvLayerGroups_eq layers standard).mp built
  have same : keys.length = kvCaches.length := Checked.length_mapM returned
  have spec := Grouping.groups_spec (keyedLayers kvCaches keys)
  have member {made : (List ℕ × DType) × List (String × ℕ)}
      (listed : made ∈ Grouping.groups (keyedLayers kvCaches keys)) (name : String) (index : ℕ) :
      (name, index) ∈ made.2 ↔
        keys[index]? = some made.1 ∧ kvCaches[index]?.map Prod.fst = some name := by
    rw [spec.members made listed, ← mem_keyedLayers]
    simp only [List.mem_map, List.mem_filter, decide_eq_true_eq]
    constructor
    · rintro ⟨⟨key, layer⟩, ⟨inside, rfl⟩, rfl⟩
      exact inside
    · exact fun inside => ⟨_, ⟨inside, rfl⟩, rfl⟩
  have key_eq {index : ℕ} (inside : index < kvCaches.length) (key : List ℕ × DType) :
      keys[index]? = some key ↔
        (kvCaches[index]?.map fun layer => layer.2.groupKey) = some (.ok key) := by
    have here := List.getElem?_eq_getElem inside
    have keyIn : index < keys.length := same ▸ inside
    have there : keys[index]? = some keys[index] := List.getElem?_eq_getElem keyIn
    have keyed := Checked.mapM_getElem? returned here there
    rw [here, there, Option.map_some, keyed, Option.some.injEq, Option.some.injEq]
    exact ⟨fun equal => congrArg _ equal, fun equal => Except.ok.inj equal⟩
  refine ⟨?_, ?_, ?_, ?_, ?_, ?_⟩
  · have perm := spec.perm.map Prod.snd
    rw [keyedLayers_snd same, indices_eq, List.map_flatMap] at perm
    rw [List.flatMap_map]
    exact perm
  · intro group listed
    obtain ⟨made, inside, rfl⟩ := List.mem_map.mp listed
    have sub : made.2.Sublist ((keyedLayers kvCaches keys).map Prod.snd) := by
      rw [spec.members made inside]
      exact List.filter_sublist.map _
    rw [keyedLayers_snd same] at sub
    refine List.Pairwise.sublist (sub.map Prod.snd) ?_
    rw [indices_eq]
    exact List.pairwise_lt_range
  · intro group listed
    obtain ⟨made, inside, rfl⟩ := List.mem_map.mp listed
    simpa [layerGroup] using spec.nonempty made inside
  · intro group listed index inRange
    obtain ⟨made, inside, rfl⟩ := List.mem_map.mp listed
    rw [← key_eq inRange]
    constructor
    · intro named
      obtain ⟨⟨name, _⟩, there, rfl⟩ := List.mem_map.mp named
      exact ((member inside name _).mp there).1
    · intro keyed
      refine List.mem_map.mpr ⟨(kvCaches[index].1, index), (member inside _ _).mpr ⟨keyed, ?_⟩, rfl⟩
      rw [List.getElem?_eq_getElem inRange, Option.map_some]
  · intro group listed
    obtain ⟨made, inside, rfl⟩ := List.mem_map.mp listed
    rw [layerGroup, List.map_map, List.map_map]
    refine List.map_congr_left fun layer there => ?_
    exact ((member inside layer.1 layer.2).mp there).2.symm
  · rw [List.pairwise_map]
    refine (leads_keyedLayers same).imp fun {first second} before one isOne other isOther => ?_
    rw [layerGroup, List.head?_map, Option.mem_def, Option.map_eq_some_iff] at isOne isOther
    obtain ⟨firstLayer, firstHead, rfl⟩ := isOne
    obtain ⟨secondLayer, secondHead, rfl⟩ := isOther
    exact before firstLayer firstHead secondLayer secondHead

end Building

end LMCacheHcu.Kernels
