import LMCacheHcu.Foundation.ExactFloats
import LMCacheHcu.Restart.Scan

/-! # Headers that a runtime accepts

`validate_runtime` compares a decoded header with the active engine, the shape and
the dtype field by field and everything else through the layout signature. A
signature is a digest of the canonical JSON of its fields, so headers of one
signature have the same fields when the digest is injective. The sizes are tied to
the runtime by the payload shape, whose product is exact for integers and up to
2⁵³ for JSON floats.
-/

namespace LMCacheHcu.Restart

open Storage Exceptions Python Text

variable {F : Type}

/-- The fields that `validate_runtime` signs for the engine. -/
def runtimeFields (identity : WorkerIdentity) (dtype : DType) (blockSize numLayers hiddenDim : ℤ) :
    LayoutFields where
  blockSize := blockSize
  dtype := dtype.name
  hiddenDim := hiddenDim
  layout := blockFirstLayout
  modelName := identity.modelName
  numLayers := numLayers
  pipelineParallelSize := identity.pipelineParallelSize
  tensorParallelSize := identity.tensorParallelSize
  workerId := identity.workerId
  worldSize := identity.worldSize

/-- `validate_runtime`, on decoded metadata. -/
def validateRuntime (runtime : HeaderRuntime F) (metadata : RawMetadata F) (logicalShape : List ℤ)
    (dtype : DType) (identity : WorkerIdentity) (blockSize : ℤ) :
    Except (Raised BlockFirstFormatError) Unit := do
  metadata.validate runtime
  match logicalShape[1]?, logicalShape[3]? with
  | some numLayers, some hiddenDim =>
      let expectedSignature ← builtin ((runtime.dumps
        (runtimeFields identity dtype blockSize numLayers hiddenDim).value).map runtime.sha256)
      if Value.equalItems runtime.floats metadata.logicalShape (logicalShape.map .int) = false then
        formatError ("logical shape mismatch: " ++ runtime.tupleText metadata.logicalShape ++
          " != " ++ tupleRepr logicalShape)
      else
        let recorded ← metadata.torchDtype
        if recorded ≠ dtype then
          formatError ("dtype mismatch: torch." ++ recorded.name ++ " != torch." ++ dtype.name)
        else if metadata.layoutSignature.equals runtime.floats (.text expectedSignature) = false then
          formatError "runtime layout signature mismatch"
        else return ()
  | _, _ => .error (.builtin .indexError)

/-- The scan's checks of its own engine are those of `validate_runtime`. -/
theorem validateRuntime_scan {Key : Type} (backend : ScanBackend Key F) (metadata : RawMetadata F)
    {logicalShape : List ℕ} {dtype : DType} (dims : 4 ≤ logicalShape.length)
    (shapes : backend.engine.getShapes backend.engine.chunkSize = [logicalShape])
    (dtypes : backend.engine.getDtypes = [dtype]) :
    backend.validateRuntime metadata logicalShape dtype =
      validateRuntime backend.header metadata (logicalShape.map Int.ofNat) dtype
        backend.engine.identity backend.engine.blockSize := by
  have dim (index : ℕ) (inside : index < 4) : (logicalShape.map Int.ofNat)[index]? =
      some ((logicalShape.map Int.ofNat).getD index 0) := by
    have bound : index < (logicalShape.map Int.ofNat).length := by
      rw [List.length_map]
      omega
    rw [List.getD_eq_getElem?_getD, List.getElem?_eq_getElem bound, Option.getD_some]
  have signed := backend.signature_computed logicalShape dtype shapes dtypes
  unfold ScanBackend.validateRuntime validateRuntime
  rw [dim 1 (by decide), dim 3 (by decide)]
  dsimp only
  have fields : runtimeFields backend.engine.identity dtype backend.engine.blockSize
      ((logicalShape.map Int.ofNat).getD 1 0) ((logicalShape.map Int.ofNat).getD 3 0) =
      engineLayout backend.engine.identity logicalShape dtype backend.engine.blockSize := rfl
  rw [fields, signed]
  rfl

/-! ### What the header has to say -/

variable (whole : F → ℤ → Prop)

/-- The byte size of a chunk. -/
def chunkBytes (chunkShape : List ℤ) (dtype : DType) : ℤ := chunkShape.prod * dtype.itemsize

/-- The sizes of the header are integers, as the annotations of its fields say, or the
chunk is so small that floats of JSON are exact. -/
def SizesExact (metadata : RawMetadata F) (chunkShape : List ℤ) (dtype : DType) : Prop :=
  (∀ size ∈ metadata.payloadNbytes :: metadata.payloadShape, size.isFloat = false) ∨
    chunkBytes chunkShape dtype + blockFirstAlignment ≤ exactLimit

/-- **The header is the runtime's.** -/
structure MatchesRuntime (metadata : RawMetadata F) (chunkShape : List ℤ) (dtype : DType)
    (identity : WorkerIdentity) (tokensPerBlock : ℤ) : Prop where
  layout : metadata.layout = .text blockFirstLayout
  version : metadata.version.IsInt whole blockFirstVersion
  modelName : metadata.modelName = .text identity.modelName
  worldSize : metadata.worldSize = .int identity.worldSize
  workerId : metadata.workerId = .int identity.workerId
  tensorParallelSize : metadata.tensorParallelSize = .int identity.tensorParallelSize
  pipelineParallelSize : metadata.pipelineParallelSize = .int identity.pipelineParallelSize
  blockSize : metadata.blockSize = .int tokensPerBlock
  torchDtype : metadata.torchDtype = .ok dtype
  logicalShape : List.Forall₂ (Value.IsInt whole) metadata.logicalShape chunkShape
  payloadShape : ∃ shape, blockFirstShape chunkShape tokensPerBlock = .ok shape ∧
    List.Forall₂ (Value.IsInt whole) metadata.payloadShape shape
  numLayers : ∃ dim, chunkShape[1]? = some dim ∧ metadata.numLayers = .int dim
  hiddenDim : ∃ dim, chunkShape[3]? = some dim ∧ metadata.hiddenDim = .int dim
  validTokens : ∃ dim, chunkShape[2]? = some dim ∧ metadata.validTokens.IsInt whole dim
  payloadNbytes : SizesExact metadata chunkShape dtype →
    metadata.payloadNbytes.IsInt whole (chunkBytes chunkShape dtype)
  ioNbytes : SizesExact metadata chunkShape dtype →
    ∃ aligned, alignUp (chunkBytes chunkShape dtype) blockFirstAlignment = .ok aligned ∧
      metadata.ioNbytes.IsInt whole aligned

/-! ### What acceptance says -/

section Accepted

variable {whole} {runtime : HeaderRuntime F} {metadata : RawMetadata F}

theorem unless_ok {α : Type} {condition : Prop} [Decidable condition] {message : String}
    {rest : Except (Raised BlockFirstFormatError) α} {result : α} :
    (if condition then formatError message else rest) = .ok result ↔
      ¬ condition ∧ rest = .ok result :=
  Checked.check_ok

/-- Canonical JSON of equal digests is of equal values. -/
theorem fields_of_digest (injective : Function.Injective runtime.sha256)
    {first second : Value F} {digest : String}
    (left : (runtime.dumps first).map runtime.sha256 = .ok digest)
    (right : (runtime.dumps second).map runtime.sha256 = .ok digest) : first = second := by
  have dumped {value : Value F} (signed : (runtime.dumps value).map runtime.sha256 = .ok digest) :
      ∃ bytes, runtime.dumps value = .ok bytes ∧ runtime.sha256 bytes = digest := by
    cases printed : runtime.dumps value with
    | error kind =>
        rw [printed] at signed
        cases signed
    | ok bytes =>
        rw [printed] at signed
        exact ⟨bytes, rfl, Except.ok.inj signed⟩
  obtain ⟨leftBytes, leftPrinted, leftDigest⟩ := dumped left
  obtain ⟨rightBytes, rightPrinted, rightDigest⟩ := dumped right
  have same : leftBytes = rightBytes := injective (leftDigest.trans rightDigest.symm)
  have leftLoaded := runtime.loads_dumps first leftBytes leftPrinted
  have rightLoaded := runtime.loads_dumps second rightBytes rightPrinted
  rw [same, rightLoaded] at leftLoaded
  exact (Except.ok.inj leftLoaded).symm

/-- The parts of `validate` that returned. -/
structure ValidParts (runtime : HeaderRuntime F) (metadata : RawMetadata F) (dtype : DType) :
    Prop where
  shapes : metadata.validateShapes runtime = .ok ()
  worker : metadata.validateWorker runtime = .ok ()
  torchDtype : metadata.torchDtype = .ok dtype
  sizes : metadata.validateSizes runtime dtype = .ok ()
  signature : ∃ expected, metadata.signature runtime dtype = .ok expected ∧
    metadata.layoutSignature = .text expected

theorem validate_ok (valid : metadata.validate runtime = .ok ()) :
    ∃ dtype, ValidParts runtime metadata dtype := by
  unfold RawMetadata.validate at valid
  simp only [Checked.bind_ok, builtin_ok, unless_ok, Bool.not_eq_false] at valid
  obtain ⟨_, shapes, _, worker, dtype, torchDtype, _, sizes, expected, signed, same, -⟩ := valid
  exact ⟨dtype, shapes, worker, torchDtype, sizes, expected, signed,
    Value.eq_of_equals_text same⟩

/-- The parts of `validateShapes` that returned. -/
structure ShapeParts (runtime : HeaderRuntime F) (metadata : RawMetadata F) : Prop where
  layout : metadata.layout.equals runtime.floats (.text blockFirstLayout) = true
  version : metadata.version.equals runtime.floats (.int blockFirstVersion) = true
  payload : ∃ expected, rawBlockFirstShape runtime metadata.logicalShape metadata.blockSize =
    .ok expected ∧ Value.equalItems runtime.floats metadata.payloadShape expected = true
  tokens : metadata.validTokens.equals runtime.floats (metadata.logicalDim 2) = true

theorem validateShapes_ok (valid : metadata.validateShapes runtime = .ok ()) :
    ShapeParts runtime metadata := by
  unfold RawMetadata.validateShapes at valid
  simp only [Checked.bind_ok, unless_ok, Bool.not_eq_false] at valid
  obtain ⟨hasLayout, expected, shape, payload, tokens, -⟩ := valid
  obtain ⟨layout, version⟩ := Bool.and_eq_true_iff.mp hasLayout
  exact ⟨layout, version, ⟨expected, shape, payload⟩, tokens⟩

/-- The parts of `validate_runtime` that returned. -/
structure RuntimeParts (runtime : HeaderRuntime F) (metadata : RawMetadata F)
    (chunkShape : List ℤ) (dtype : DType) (identity : WorkerIdentity) (blockSize : ℤ)
    (numLayers hiddenDim : ℤ) : Prop where
  valid : ValidParts runtime metadata dtype
  layers : chunkShape[1]? = some numLayers
  hidden : chunkShape[3]? = some hiddenDim
  shape : Value.equalItems runtime.floats metadata.logicalShape (chunkShape.map .int) = true
  fields : metadata.layoutFields dtype =
    (runtimeFields identity dtype blockSize numLayers hiddenDim).value

theorem validateRuntime_ok (injective : Function.Injective runtime.sha256)
    {chunkShape : List ℤ} {dtype : DType} {identity : WorkerIdentity} {blockSize : ℤ}
    (accepted : validateRuntime runtime metadata chunkShape dtype identity blockSize = .ok ()) :
    ∃ numLayers hiddenDim,
      RuntimeParts runtime metadata chunkShape dtype identity blockSize numLayers hiddenDim := by
  unfold validateRuntime at accepted
  rw [Checked.bind_ok] at accepted
  obtain ⟨_, valid, accepted⟩ := accepted
  split at accepted
  · rename_i numLayers hiddenDim layers hidden
    simp only [Checked.bind_ok, builtin_ok, unless_ok, Bool.not_eq_false, ne_eq, not_not]
      at accepted
    obtain ⟨digest, signed, shape, recorded, named, rfl, same, -⟩ := accepted
    obtain ⟨dtype', parts⟩ := validate_ok valid
    obtain rfl : dtype' = recorded := Except.ok.inj (parts.torchDtype.symm.trans named)
    obtain ⟨expected, ownSigned, ownSame⟩ := parts.signature
    -- Both digests are the one in the header.
    have digests : expected = digest := by
      rw [Value.eq_of_equals_text same] at ownSame
      exact (Value.text.inj ownSame).symm
    subst digests
    exact ⟨numLayers, hiddenDim, parts, layers, hidden, shape,
      fields_of_digest injective ownSigned signed⟩
  · cases accepted

/-! ### The shapes and the sizes -/

/-- The shape of the payload, from dimensions that count as the runtime's. -/
theorem rawBlockFirstShape_ok (promised : runtime.floats.Exact whole) {logical : List (Value F)}
    {chunkShape : List ℤ} {blockSize : ℤ} {expected : List (Value F)}
    (dims : List.Forall₂ (Value.IsInt whole) logical chunkShape)
    (returned : rawBlockFirstShape runtime logical (.int blockSize) = .ok expected) :
    ∃ shape, blockFirstShape chunkShape blockSize = .ok shape ∧ expected = shape.map .int := by
  have converted : logical.mapM (Value.toInt runtime.floats) = .ok chunkShape :=
    Checked.mapM_ok.mpr (dims.imp fun _ _ is => is.toInt promised)
  unfold rawBlockFirstShape at returned
  rw [Checked.bind_ok] at returned
  obtain ⟨_, same, returned⟩ := returned
  obtain rfl := Except.ok.inj (converted.symm.trans (builtin_ok.mp same))
  split at returned
  · rename_i numLayers numTokens hiddenDim
    simp only [Checked.bind_ok, builtin_ok, unless_ok, Value.operand_ok, Checked.return_ok]
      at returned
    obtain ⟨positive, _, counts, size, rest, remainder, divides, blocks, quotient, rfl⟩ := returned
    cases counts
    rw [Number.le_int, decide_eq_true_eq, not_le] at size
    have nonzero : blockSize ≠ 0 := size.ne'
    -- Both divisions are those of the typed check, since the block size is positive.
    obtain rfl : Number.int (numTokens.fmod blockSize) = rest := by
      rw [Number.mod, if_neg nonzero] at remainder
      exact Except.ok.inj remainder
    obtain rfl : Number.int (numTokens.fdiv blockSize) = blocks := by
      rw [Number.floorDiv, if_neg nonzero] at quotient
      exact Except.ok.inj quotient
    rw [Number.eq_int, decide_eq_false_iff_not, not_not,
      Int.fmod_eq_emod_of_nonneg _ size.le] at divides
    refine ⟨[numTokens / blockSize, numLayers, 2, blockSize, hiddenDim], ?_, ?_⟩
    · simp only [blockFirstShape, if_neg positive, if_neg size.not_ge, divides, ne_eq,
        not_true_eq_false, if_false]
    · rw [Int.fdiv_eq_ediv_of_nonneg _ size.le]
      rfl
  · cases returned

/-- The factors of a size denote what they count as. -/
theorem forall₂_denotes {small : Prop} {values : List (Value F)} {numbers : List (Number F)}
    {exact : List ℤ} (operands : values.mapM Value.operand = .ok numbers)
    (dims : List.Forall₂ (Value.IsInt whole) values exact)
    (typed : (∀ value ∈ values, value.isFloat = false) ∨ small) :
    List.Forall₂ (Number.Denotes whole small) numbers exact := by
  have counts := Checked.mapM_ok.mp operands
  clear operands
  induction dims generalizing numbers with
  | nil =>
      cases counts
      exact .nil
  | cons is _ ih =>
      cases counts with
      | cons first rest =>
          obtain ⟨number, found, denotes⟩ :=
            is.denotes (typed.imp_left fun each => each _ List.mem_cons_self)
          obtain rfl := Option.some.inj (found.symm.trans (Value.operand_ok.mp first))
          exact .cons denotes (ih (typed.imp_left fun each value member =>
            each value (List.mem_cons_of_mem _ member)) rest)

/-- Rounding up a size that is small or an integer. -/
theorem rawAlignUp_ok (promised : runtime.floats.Exact whole) {small : Prop} {size : Number F}
    {exact : ℤ} (is : size.Denotes whole small exact) (nonneg : 0 ≤ exact)
    (bound : small → exact + blockFirstAlignment ≤ exactLimit) {result : Number F}
    (returned : rawAlignUp runtime size = .ok result) :
    ∃ aligned, alignUp exact blockFirstAlignment = .ok aligned ∧ result.Is whole aligned := by
  simp only [rawAlignUp, blockFirstAlignment, Checked.bind_ok, builtin_ok, unless_ok] at returned
  simp only [blockFirstAlignment] at bound
  obtain ⟨-, shifted, shiftedOk, last, lastOk, count, countOk, resultOk⟩ := returned
  have limit : exactLimit = 2 ^ 53 := rfl
  have page : (Number.int 4096 : Number F).Denotes whole small 4096 := .inl rfl
  have one : (Number.int 1 : Number F).Denotes whole small 1 := .inl rfl
  obtain ⟨_, same, shiftedIs⟩ := promised.add.denotes rfl is page nonneg (by decide)
    fun holds => by
      have fits := bound holds
      refine ⟨?_, ?_, ?_⟩ <;> omega
  cases shiftedOk.symm.trans same
  obtain ⟨_, same, lastIs⟩ := promised.sub.denotes rfl shiftedIs one
    (by omega) one_pos fun holds => by
      have fits := bound holds
      refine ⟨?_, ?_, ?_⟩ <;> omega
  cases lastOk.symm.trans same
  have quotient : (exact + 4096 - 1).fdiv 4096 = (exact + 4096 - 1) / 4096 :=
    Int.fdiv_eq_ediv_of_nonneg _ (by decide)
  obtain ⟨_, same, countIs⟩ := promised.floorDiv.denotes rfl lastIs page (by omega) (by decide)
    fun holds => by
      have fits := bound holds
      rw [quotient]
      refine ⟨?_, ?_, ?_⟩ <;> omega
  cases countOk.symm.trans same
  rw [quotient] at countIs
  obtain ⟨_, same, resultIs⟩ := promised.mul.denotes rfl countIs page (by omega) (by decide)
    fun holds => by
      have fits := bound holds
      refine ⟨?_, ?_, ?_⟩ <;> omega
  cases resultOk.symm.trans same
  refine ⟨(exact + 4096 - 1) / 4096 * 4096, ?_, resultIs.is⟩
  rw [alignUp, if_neg (not_lt.mpr nonneg), if_neg (by decide)]
  rfl

/-- The sizes of a header whose payload shape counts as a positive shape. -/
theorem validateSizes_ok (promised : runtime.floats.Exact whole) {dtype : DType} {shape : List ℤ}
    (dims : List.Forall₂ (Value.IsInt whole) metadata.payloadShape shape)
    (positive : ∀ dim ∈ shape, 0 < dim)
    (typed : (∀ size ∈ metadata.payloadNbytes :: metadata.payloadShape, size.isFloat = false) ∨
      shape.prod * dtype.itemsize + blockFirstAlignment ≤ exactLimit)
    (valid : metadata.validateSizes runtime dtype = .ok ()) :
    metadata.payloadNbytes.IsInt whole (shape.prod * dtype.itemsize) ∧
      ∃ aligned, alignUp (shape.prod * dtype.itemsize) blockFirstAlignment = .ok aligned ∧
        metadata.ioNbytes.IsInt whole aligned := by
  simp only [RawMetadata.validateSizes, Checked.bind_ok, builtin_ok, unless_ok,
    Bool.not_eq_false, Value.operand_ok] at valid
  obtain ⟨factors, operands, count, product, expected, scaled, payload, size, sized, aligned,
    rounded, io, -⟩ := valid
  have prodPositive : 0 < shape.prod := List.prod_pos positive
  have itemPositive : (0 : ℤ) < dtype.itemsize := by cases dtype <;> decide
  have below : shape.prod ≤ shape.prod * dtype.itemsize :=
    le_mul_of_one_le_right prodPositive.le itemPositive
  have itemBelow : (dtype.itemsize : ℤ) ≤ shape.prod * dtype.itemsize :=
    le_mul_of_one_le_left itemPositive.le prodPositive
  have page : (0 : ℤ) ≤ blockFirstAlignment := by decide
  have factorsAre := forall₂_denotes operands dims
    (typed.imp_left fun each value member => each value (List.mem_cons_of_mem _ member))
  obtain ⟨_, same, countIs⟩ := promised.foldlM_mul factorsAre
    (.inl rfl : (Number.int 1).Denotes whole _ 1) one_pos positive fun fits => by linarith
  cases product.symm.trans same
  rw [one_mul] at countIs
  obtain ⟨_, same, expectedIs⟩ := promised.mul.denotes rfl countIs
    (.inl rfl : (Number.int (dtype.itemsize : ℤ)).Denotes whole _ _) prodPositive.le itemPositive
    fun fits => ⟨by linarith, by linarith, by linarith⟩
  cases scaled.symm.trans same
  have payloadIs : metadata.payloadNbytes.IsInt whole (shape.prod * dtype.itemsize) :=
    Value.isInt_of_equals promised payload (Number.isInt_value expectedIs.is)
  refine ⟨payloadIs, ?_⟩
  obtain ⟨_, found, sizeIs⟩ :=
    payloadIs.denotes (typed.imp_left fun each => each _ List.mem_cons_self)
  cases sized.symm.trans found
  obtain ⟨exact, alignedOk, alignedIs⟩ := rawAlignUp_ok promised sizeIs
    (mul_pos prodPositive itemPositive).le id rounded
  exact ⟨exact, alignedOk, Value.isInt_of_equals promised io (Number.isInt_value alignedIs)⟩

end Accepted

/-! ### Soundness -/

section Sound

variable {whole} {runtime : HeaderRuntime F} {metadata : RawMetadata F} {chunkShape : List ℤ}
  {dtype : DType} {identity : WorkerIdentity} {blockSize : ℤ}

theorem getElem?_logicalDim {index : ℕ} {dim : ℤ}
    (dims : List.Forall₂ (Value.IsInt whole) metadata.logicalShape chunkShape)
    (found : chunkShape[index]? = some dim) : (metadata.logicalDim index).IsInt whole dim := by
  obtain ⟨lengths, pointwise⟩ := List.forall₂_iff_zip.mp dims
  have inside : index < metadata.logicalShape.length := by
    rw [lengths]
    exact (List.getElem?_eq_some_iff.mp found).1
  have here : metadata.logicalShape[index]? = some (metadata.logicalDim index) := by
    rw [RawMetadata.logicalDim, List.getD_eq_getElem?_getD, List.getElem?_eq_getElem inside,
      Option.getD_some]
  exact pointwise (List.mem_iff_getElem?.mpr ⟨index, List.getElem?_zip_eq_some.mpr ⟨here, found⟩⟩)

/-- **What acceptance means.** An accepted header is the runtime's. -/
theorem matchesRuntime_of_accepted (promised : runtime.floats.Exact whole)
    (injective : Function.Injective runtime.sha256)
    (accepted : validateRuntime runtime metadata chunkShape dtype identity blockSize = .ok ()) :
    MatchesRuntime whole metadata chunkShape dtype identity blockSize := by
  obtain ⟨numLayers, hiddenDim, parts⟩ := validateRuntime_ok injective accepted
  have fields := parts.fields
  simp only [RawMetadata.layoutFields, LayoutFields.value, runtimeFields, Value.dict.injEq,
    List.cons.injEq, Prod.mk.injEq, true_and, and_true] at fields
  obtain ⟨blocks, hidden, model, layers, pipeline, tensor, worker, world⟩ := fields
  have dims := Value.forall₂_isInt_of_equalItems promised parts.shape
  have shapes := validateShapes_ok parts.valid.shapes
  obtain ⟨expected, returned, payload⟩ := shapes.payload
  rw [blocks] at returned
  obtain ⟨shape, shapeOk, rfl⟩ := rawBlockFirstShape_ok promised dims returned
  have payloadDims := Value.forall₂_isInt_of_equalItems promised payload
  obtain ⟨layerCount, tokens, width, chunkIs, layersPos, tokensPos, widthPos, blockPos, divides,
    shapeIs⟩ := blockFirstShape_ok.mp shapeOk
  have tokensAt : chunkShape[2]? = some tokens := by
    rw [chunkIs]
    rfl
  have positive : ∀ dim ∈ shape, 0 < dim := by
    have blocksPos : 0 < tokens / blockSize :=
      Int.ediv_pos_of_pos_of_dvd tokensPos blockPos.le (Int.dvd_of_emod_eq_zero divides)
    rw [shapeIs]
    simp only [List.forall_mem_cons, List.not_mem_nil, false_implies, implies_true, and_true]
    exact ⟨blocksPos, layersPos, two_pos, blockPos, widthPos⟩
  -- The blocks of the payload are the tokens of the chunk.
  have sameBytes : shape.prod * dtype.itemsize = chunkBytes chunkShape dtype := by
    have whole : tokens / blockSize * blockSize = tokens :=
      Int.ediv_mul_cancel (Int.dvd_of_emod_eq_zero divides)
    have prods : shape.prod = chunkShape.prod := by
      rw [shapeIs, chunkIs]
      simp only [List.prod_cons, List.prod_nil]
      calc tokens / blockSize * (layerCount * (2 * (blockSize * (width * 1))))
          = 2 * (layerCount * (tokens / blockSize * blockSize * (width * 1))) := by ring
        _ = 2 * (layerCount * (tokens * (width * 1))) := by rw [whole]
    rw [prods, chunkBytes]
  have sizes (exact : SizesExact metadata chunkShape dtype) := by
    rw [SizesExact, ← sameBytes] at exact
    exact validateSizes_ok promised payloadDims positive exact parts.valid.sizes
  rw [sameBytes] at sizes
  exact {
    layout := Value.eq_of_equals_text shapes.layout
    version := Value.isInt_of_equals promised shapes.version (Value.isInt_int _)
    modelName := model
    worldSize := world
    workerId := worker
    tensorParallelSize := tensor
    pipelineParallelSize := pipeline
    blockSize := blocks
    torchDtype := parts.valid.torchDtype
    logicalShape := dims
    payloadShape := ⟨shape, shapeOk, payloadDims⟩
    numLayers := ⟨numLayers, parts.layers, layers⟩
    hiddenDim := ⟨hiddenDim, parts.hidden, hidden⟩
    validTokens := ⟨tokens, tokensAt,
      Value.isInt_of_equals promised shapes.tokens (getElem?_logicalDim dims tokensAt)⟩
    payloadNbytes := fun exact => (sizes exact).1
    ioNbytes := fun exact => (sizes exact).2 }

theorem eq_of_forall₂_isInt {ints exact : List ℤ}
    (dims : List.Forall₂ (Value.IsInt whole) (ints.map .int) exact) : ints = exact := by
  rw [List.forall₂_map_left_iff] at dims
  refine List.forall₂_eq_eq_eq ▸ dims.imp fun left right is => ?_
  obtain ⟨number, counts, same⟩ := is
  cases counts
  exact same

/-- A header that `create` has made matches the runtime that it was made for only. -/
theorem eq_of_matchesRuntime {signature : LayoutFields → String} {shape : List ℕ}
    {written : BlockFirstDiskMetadata} {writer : WorkerIdentity} {writtenType : DType}
    {tokensPerBlock : ℕ}
    (created : BlockFirstDiskMetadata.create signature shape writtenType tokensPerBlock writer =
      .ok written)
    (same : MatchesRuntime whole (written.raw : RawMetadata F) chunkShape dtype identity blockSize) :
    shape.map Int.ofNat = chunkShape ∧ writtenType = dtype ∧ tokensPerBlock = blockSize ∧
      writer = identity := by
  simp only [BlockFirstDiskMetadata.create, Checked.bind_ok, Checked.return_ok] at created
  obtain ⟨payloadShape, -, ioNbytes, -, _, -, rfl⟩ := created
  have named := same.torchDtype
  rw [RawMetadata.torchDtype, BlockFirstDiskMetadata.raw] at named
  dsimp only at named
  rw [parseDtype_name] at named
  refine ⟨eq_of_forall₂_isInt same.logicalShape, Except.ok.inj named,
    Value.int.inj same.blockSize, ?_⟩
  obtain ⟨modelName, worldSize, workerId, tensorParallelSize, pipelineParallelSize⟩ := writer
  obtain rfl : modelName = identity.modelName := Value.text.inj same.modelName
  obtain rfl : worldSize = identity.worldSize := Value.int.inj same.worldSize
  obtain rfl : workerId = identity.workerId := Value.int.inj same.workerId
  obtain rfl : tensorParallelSize = identity.tensorParallelSize :=
    Value.int.inj same.tensorParallelSize
  obtain rfl : pipelineParallelSize = identity.pipelineParallelSize :=
    Value.int.inj same.pipelineParallelSize
  rfl

/-- **Only the runtime's own headers.** Everything in an accepted header that says
where a byte belongs is the runtime's, and no header that was made for another
worker, model, shape or dtype is accepted. -/
theorem validateRuntime_sound (promised : runtime.floats.Exact whole)
    (injective : Function.Injective runtime.sha256)
    (accepted : validateRuntime runtime metadata chunkShape dtype identity blockSize = .ok ()) :
    MatchesRuntime whole metadata chunkShape dtype identity blockSize ∧
      ∀ signature shape writtenType tokensPerBlock writer (written : BlockFirstDiskMetadata),
        BlockFirstDiskMetadata.create signature shape writtenType tokensPerBlock writer =
          .ok written → metadata = written.raw →
        shape.map Int.ofNat = chunkShape ∧ writtenType = dtype ∧ tokensPerBlock = blockSize ∧
          writer = identity := by
  have same := matchesRuntime_of_accepted promised injective accepted
  refine ⟨same, ?_⟩
  rintro signature shape writtenType tokensPerBlock writer written created rfl
  exact eq_of_matchesRuntime created same

/-- The digest of the small chunk's fields, and other texts for other bytes. -/
def smallDigest (bytes : List Byte) : String :=
  if bytes = smallFieldsJson then
    "86696b6621d7832c638a356b46deb4edfa9104b1fe189f91f5012d85cd920531"
  else String.ofList ('-' :: bytes.map fun byte => Char.ofNat byte.toNat)

theorem smallDigest_injective : Function.Injective smallDigest := by
  have chars : Function.Injective fun byte : Byte => Char.ofNat byte.toNat := by
    intro left right same
    have valid (byte : Byte) : (Char.ofNat byte.toNat).toNat = byte.toNat := by
      have isValid : byte.toNat.isValidChar := .inl (lt_of_lt_of_le byte.toNat_lt (by decide))
      rw [Char.ofNat, dif_pos isValid]
      rfl
    have codes : (Char.ofNat left.toNat).toNat = (Char.ofNat right.toNat).toNat := congrArg Char.toNat same
    rwa [valid, valid, UInt8.toNat_inj] at codes
  intro left right same
  by_cases first : left = smallFieldsJson <;> by_cases second : right = smallFieldsJson
  · exact first.trans second.symm
  · rw [smallDigest, smallDigest, if_pos first, if_neg second] at same
    exact absurd (congrArg String.toList same) (by simp)
  · rw [smallDigest, smallDigest, if_neg first, if_pos second] at same
    exact absurd (congrArg String.toList same) (by simp)
  · rw [smallDigest, smallDigest, if_neg first, if_neg second, String.ofList_inj,
      List.cons.injEq] at same
    exact List.map_injective_iff.mpr chars same.2

def digestingRuntime : HeaderRuntime Empty := { smallRuntime with sha256 := smallDigest }

/-- The header of the small chunk is accepted, and is the runtime's. -/
theorem validateRuntime_sound_small :
    validateRuntime digestingRuntime smallMetadata [2, 1, 2, 1] .uint8 ⟨"m", 1, 0, 1, 1⟩ 2 =
        .ok () ∧
      MatchesRuntime (fun float _ => float.elim) smallMetadata [2, 1, 2, 1] .uint8
        ⟨"m", 1, 0, 1, 1⟩ 2 := by
  have accepted : validateRuntime digestingRuntime smallMetadata [2, 1, 2, 1] .uint8
      ⟨"m", 1, 0, 1, 1⟩ 2 = .ok () := by decide +kernel
  exact ⟨accepted,
    (validateRuntime_sound (.ofEmpty _) smallDigest_injective accepted).1⟩

/-- Every entry that the scan reads from a block-first file is of a header that
matches the engine, in a file of the header's size. -/
theorem matchesRuntime_of_blockFirstEntry {Key : Type} {backend : ScanBackend Key F}
    (promised : backend.header.floats.Exact whole)
    (injective : Function.Injective backend.header.sha256) {filename : Text}
    {content : List Byte} {entry : FileEntry (RawMetadata F)} {logicalShape : List ℕ}
    (dims : 4 ≤ logicalShape.length)
    (shapes : backend.engine.getShapes backend.engine.chunkSize = [logicalShape])
    (dtypes : backend.engine.getDtypes = [dtype])
    (read : backend.blockFirstEntry filename content = .ok entry) :
    ∃ metadata, entry.diskMetadata = some metadata ∧
      MatchesRuntime whole metadata (logicalShape.map Int.ofNat) dtype backend.engine.identity
        backend.engine.blockSize := by
  unfold ScanBackend.blockFirstEntry at read
  rw [Checked.bind_ok] at read
  obtain ⟨metadata, -, checked⟩ := read
  simp only [ScanBackend.checkBlockFirst, shapes, dtypes, unless_ok, Checked.bind_ok, builtin_ok,
    Checked.return_ok] at checked
  obtain ⟨-, _, accepted, _, -, _, -, -, _, -, _, -, rfl⟩ := checked
  rw [validateRuntime_scan backend metadata dims shapes dtypes] at accepted
  exact ⟨metadata, rfl, matchesRuntime_of_accepted promised injective accepted⟩

end Sound

end LMCacheHcu.Restart
