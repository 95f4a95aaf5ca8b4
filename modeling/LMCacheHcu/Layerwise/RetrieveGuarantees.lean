import LMCacheHcu.Layerwise.RetrieveLayer

/-! # The layerwise retrieve protocol

The generator of a retrieve and the connector's generator are resumed in step.
What the retrieve needs of a connector is stated as a contract on its generator:
it takes one layer at each resumption, and after the last layer it can be
resumed once more. The connectors of the paged cache and of the buffer keep this
contract; the SGLang one returns instead of yielding a last time.
-/

namespace LMCacheHcu.Layerwise

open Generator

variable {Location Key Obj : Type}

/-- The objects released in a list of events. -/
def releaseCalls (events : List (LayerEvent Key Obj)) : List Obj :=
  events.filterMap fun
    | .refCountDown obj => some obj
    | _ => none

@[simp] theorem releaseCalls_append (first second : List (LayerEvent Key Obj)) :
    releaseCalls (first ++ second) = releaseCalls first ++ releaseCalls second :=
  List.filterMap_append

@[simp] theorem releaseCalls_refCountDowns (objs : List Obj) :
    releaseCalls (objs.map .refCountDown : List (LayerEvent Key Obj)) = objs := by
  induction objs with
  | nil => rfl
  | cons obj objs ih => exact congrArg (obj :: ·) ih

/-! ### The contract of a consumer -/

/-- A connector's generator that still takes `count` layers: a layer it accepts
is transferred without a release and the generator yields again; after the last
one it yields once more when `closes` holds, and else returns. -/
def Consumes (accepts : List Obj → Bool) (closes : Bool) : Nat → ToGpu Key Obj → Prop
  | 0, consumer =>
      ∃ events, releaseCalls events = [] ∧
        if closes then ∃ later, consumer none = Body.emitAll events (.yield () later)
        else consumer none = Body.emitAll events .stop
  | count + 1, consumer =>
      ∀ objs,
        if accepts objs then
          ∃ events later, releaseCalls events = [] ∧
            consumer (some objs) = Body.emitAll events (.yield () later) ∧
            Consumes accepts closes count later
        else consumer (some objs) = .raise .assertionError

/-- A body that comes to its next yield with such a generator. -/
def Opens (accepts : List Obj → Bool) (closes : Bool) (count : Nat)
    (body : Body (Option (List Obj)) Unit (LayerEvent Key Obj) PyError) : Prop :=
  ∃ events consumer, releaseCalls events = [] ∧ body = Body.emitAll events (.yield () consumer) ∧
    Consumes accepts closes count consumer

/-- The check of the received objects, for the chunks there are. -/
def ConnectorUse.accepts (use : ConnectorUse Obj) (objs : List Obj) : Bool :=
  (objs.take use.numChunks).all use.expectedFormat

theorem opens_loadPaged (use : ConnectorUse Obj) (closes : Bool)
    (afterLast : Body (Option (List Obj)) Unit (LayerEvent Key Obj) PyError)
    (closing : Consumes use.accepts closes 0 fun _ => afterLast) (layers : List Nat) :
    Opens use.accepts closes layers.length
      (loadPaged use (.yield () fun _ => afterLast) layers) := by
  induction layers with
  | nil => exact ⟨[], _, rfl, rfl, closing⟩
  | cons layer layers ih =>
      refine ⟨[], _, rfl, rfl, fun objs => ?_⟩
      obtain ⟨events, consumer, quiet, opened, consumes⟩ := ih
      by_cases accepted : use.accepts objs = true
      · rw [if_pos accepted]
        refine ⟨.toPaged layer (objs.take use.numChunks) :: events, consumer, quiet, ?_, consumes⟩
        unfold ConnectorUse.accepts at accepted
        simp only [accepted, ↓reduceIte, opened]
        rfl
      · rw [if_neg accepted]
        unfold ConnectorUse.accepts at accepted
        simp only [accepted]
        rfl

/-- The buffer connector's loop from a layer on: the layers still to come are
received one by one, and two more iterations empty the buffers. -/
theorem opens_loadLayers (use : ConnectorUse Obj) (count layer : Nat)
    (reaches : layer + count = use.numLayers) :
    Opens use.accepts true count
      (VLLMBufferLayerwiseGPUConnector.loadLayers use (List.range' layer (count + 2)) :
        Body _ _ (LayerEvent Key Obj) _) := by
  induction count generalizing layer with
  | zero =>
      obtain rfl : layer = use.numLayers := reaches
      refine ⟨if 1 < use.numLayers then [.bufferToPaged (use.numLayers - 2)] else [],
        fun _ => VLLMBufferLayerwiseGPUConnector.loadLayers use [use.numLayers + 1],
        by split <;> rfl, ?_, ?_⟩
      · simp only [List.range', VLLMBufferLayerwiseGPUConnector.loadLayers, lt_irrefl, ↓reduceIte]
      · refine ⟨if 1 < use.numLayers + 1 then [.bufferToPaged (use.numLayers + 1 - 2)] else [],
          by split <;> rfl, ?_⟩
        rw [if_pos rfl]
        refine ⟨fun _ => .stop, ?_⟩
        simp only [VLLMBufferLayerwiseGPUConnector.loadLayers]
        rw [if_neg (by omega : ¬use.numLayers + 1 < use.numLayers),
          if_neg (by omega : ¬use.numLayers + 1 = use.numLayers)]
  | succ count ih =>
      have inside : layer < use.numLayers := by omega
      obtain ⟨events, consumer, quiet, opened, consumes⟩ := ih (layer + 1) (by omega)
      refine ⟨if 1 < layer then [.bufferToPaged (layer - 2)] else [], _, by split <;> rfl, by
        rw [show count + 1 + 2 = (count + 2) + 1 from rfl, List.range'_succ]
        simp only [VLLMBufferLayerwiseGPUConnector.loadLayers, inside, ↓reduceIte]
        rfl, fun objs => ?_⟩
      by_cases accepted : use.accepts objs = true
      · rw [if_pos accepted]
        refine ⟨.toBuffer layer (objs.take use.numChunks) :: events, consumer, quiet, ?_, consumes⟩
        unfold ConnectorUse.accepts at accepted
        simp only [accepted, ↓reduceIte, opened]
        rfl
      · rw [if_neg accepted]
        unfold ConnectorUse.accepts at accepted
        simp only [accepted]
        rfl

namespace LayerwiseConnector

/-- Whether the connector yields once more after it has finished the last layer. -/
def closes : LayerwiseConnector → Bool
  | vllmBuffer _ => true
  | vllmPagedMem _ => true
  | sglang _ => false

/-- **What each connector keeps of the contract.** With its buffers at hand it
opens with the model's layers to take; only the SGLang connector does not close. -/
theorem opens_batchedToGpu (connector : LayerwiseConnector) (use : ConnectorUse Obj)
    (layered : 0 < use.numLayers)
    (ready : connector.needsBuffer = true → use.buffersAllocated = true) :
    Opens use.accepts connector.closes use.numLayers
      (connector.batchedToGpu use none : Body _ _ (LayerEvent Key Obj) _) := by
  cases connector with
  | vllmBuffer cachePositions =>
      have opened := @opens_loadLayers Key Obj use use.numLayers 0 (by omega)
      rw [← List.range_eq_range'] at opened
      change Opens _ _ _ (if (!use.buffersAllocated) = true then _ else _)
      rw [if_neg (by simp [ready rfl])]
      exact opened
  | vllmPagedMem useGpu =>
      have buffered : ¬(useGpu && !use.buffersAllocated) = true := by
        cases useGpu with
        | false => simp
        | true => simp [ready rfl]
      have opened := @opens_loadPaged Key Obj use true (.yield () fun _ => .stop)
        ⟨[], rfl, ⟨_, rfl⟩⟩ (List.range use.numLayers)
      rw [List.length_range] at opened
      change Opens _ _ _ (if (useGpu && !use.buffersAllocated) = true then _ else _)
      rw [if_neg buffered]
      exact opened
  | sglang useGpu =>
      have buffered : ¬(useGpu && !use.buffersAllocated) = true := by
        cases useGpu with
        | false => simp
        | true => simp [ready rfl]
      have opened := @opens_loadPaged Key Obj use false .stop ⟨[], rfl, rfl⟩
        (List.range use.numLayers)
      rw [List.length_range] at opened
      change Opens _ _ _ (if (useGpu && !use.buffersAllocated) = true then _ else
        if use.numLayers = 0 then _ else _)
      rw [if_neg buffered, if_neg layered.ne']
      exact opened

theorem batchedToGpu_unready (connector : LayerwiseConnector) (use : ConnectorUse Obj)
    (needs : connector.needsBuffer = true) (missing : use.buffersAllocated = false) :
    (connector.batchedToGpu use none : Body _ _ (LayerEvent Key Obj) _) =
      .raise .assertionError := by
  cases connector with
  | vllmBuffer cachePositions =>
      simp [batchedToGpu, VLLMBufferLayerwiseGPUConnector.batchedToGpu, missing]
  | vllmPagedMem useGpu =>
      obtain rfl : useGpu = true := needs
      simp [batchedToGpu, VLLMPagedMemLayerwiseGPUConnector.batchedToGpu, missing]
  | sglang useGpu =>
      obtain rfl : useGpu = true := needs
      simp [batchedToGpu, SGLangLayerwiseGPUConnector.batchedToGpu, missing]

end LayerwiseConnector

/-! ### The layer loop -/

/-- The task of a layer ends with objects that the connector accepts. -/
def Loads (result : Nat → Except PyError (List Obj)) (accepts : List Obj → Bool) (layer : Nat) :
    Prop :=
  ∃ objs, result layer = .ok objs ∧ accepts objs = true

/-- The objects that the task of a layer delivers. -/
def fetchedObjs (result : Nat → Except PyError (List Obj)) (layer : Nat) : List Obj :=
  match result layer with
  | .ok objs => objs
  | .error _ => []

section FetchLayers

variable {accepts : List Obj → Bool} {closes : Bool}

/-- The end of a retrieve, with the generator of a connector that has taken all
its layers: it survives exactly when that generator yields once more. -/
theorem run_finishLayers (retMask : List Bool) {memObjConsumer : ToGpu Key Obj}
    (consumes : Consumes accepts closes 0 memObjConsumer) :
    (closes = true →
      ((finishLayers retMask memObjConsumer).run [()]).ended = .suspended ∧
      ((finishLayers retMask memObjConsumer).run [()]).outs.getLast? = some (.retMask retMask) ∧
      releaseCalls ((finishLayers retMask memObjConsumer).run [()]).events = []) ∧
    (closes = false →
      ((finishLayers retMask memObjConsumer).run [()]).ended ≠ .suspended) := by
  obtain ⟨events, quiet, closing⟩ := consumes
  rw [finishLayers, Body.run_yield_cons]
  constructor
  · rintro rfl
    obtain ⟨later, resumed⟩ := closing
    rw [resumed, Body.within_emitAll, Body.run_emitAll, Body.within_yield]
    exact ⟨rfl, rfl, by simpa using quiet⟩
  · rintro rfl
    rw [if_neg (by decide)] at closing
    rw [closing, Body.within_emitAll, Body.run_emitAll, Body.within_stop]
    rintro ⟨⟩

variable (result : Nat → Except PyError (List Obj)) (retMask : List Bool)
  (keysLayerMajor : List (List Key))

/-- A loop whose layers all load, with a connector that closes: it is still
suspended after its last yield, has yielded the mask there, and has released the
objects of all its layers. -/
theorem run_fetchLayers_loads (layers : List Nat)
    (indexed : ∀ layer ∈ layers, layer < keysLayerMajor.length)
    (loads : ∀ layer ∈ layers, Loads result accepts layer) (toCountDown : List Obj)
    (memObjConsumer : ToGpu Key Obj)
    (consumes : Consumes accepts true layers.length memObjConsumer) :
    let run := (fetchLayers result retMask keysLayerMajor layers toCountDown memObjConsumer).run
      (List.replicate (layers.length + 1) ())
    run.ended = .suspended ∧ run.outs.getLast? = some (.retMask retMask) ∧
      releaseCalls run.events = toCountDown ++ layers.flatMap (fetchedObjs result) := by
  induction layers generalizing toCountDown memObjConsumer with
  | nil =>
      obtain ⟨ended, last, quiet⟩ :=
        (run_finishLayers retMask consumes).1 rfl
      simp only [fetchLayers, Body.run_emitAll, List.length_nil, Nat.zero_add,
        List.replicate_one, releaseCalls_append, releaseCalls_refCountDowns, quiet]
      exact ⟨ended, last, by simp⟩
  | cons layer layers ih =>
      obtain ⟨objs, delivered, accepted⟩ := loads layer List.mem_cons_self
      have taken := consumes objs
      rw [if_pos accepted] at taken
      obtain ⟨events, later, quiet, sent, consumes⟩ := taken
      obtain ⟨ended, last, released⟩ := ih
        (fun layer member => indexed layer (List.mem_cons_of_mem _ member))
        (fun layer member => loads layer (List.mem_cons_of_mem _ member))
        (toCountDown ++ objs) later consumes
      obtain ⟨keysLayer, here⟩ : ∃ keysLayer, keysLayerMajor[layer]? = some keysLayer :=
        ⟨_, List.getElem?_eq_getElem (indexed layer List.mem_cons_self)⟩
      have unfolded : fetchLayers result retMask keysLayerMajor (layer :: layers) toCountDown
          memObjConsumer = .emit (.batchedGet keysLayer)
            (.yield (if layer = 0 then .tokens (retMask.count true) else .nothing) fun _ =>
              Body.emitAll events (fetchLayers result retMask keysLayerMajor layers
                (toCountDown ++ objs) later)) := by
        simp only [fetchLayers, here, delivered, sent, Body.within_emitAll, Body.within_yield]
      rw [unfolded, List.length_cons, List.replicate_succ]
      simp only [Body.run_emit, Body.run_yield_cons, Body.run_emitAll]
      refine ⟨ended, ?_, ?_⟩
      · rw [List.getLast?_cons, last]
        rfl
      · change releaseCalls (events ++ _) = _
        rw [releaseCalls_append, quiet, List.nil_append, released, List.flatMap_cons,
          fetchedObjs, delivered, List.append_assoc]

/-- A loop with a layer that does not load, or with a connector that does not
close, ends with an exception. -/
theorem run_fetchLayers_fails (layers : List Nat) (toCountDown : List Obj)
    (memObjConsumer : ToGpu Key Obj)
    (consumes : Consumes accepts closes layers.length memObjConsumer)
    (fails : closes = true → ∃ layer ∈ layers, ¬Loads result accepts layer) :
    ((fetchLayers result retMask keysLayerMajor layers toCountDown memObjConsumer).run
      (List.replicate (layers.length + 1) ())).ended ≠ .suspended := by
  induction layers generalizing toCountDown memObjConsumer with
  | nil =>
      have open_ : closes = false := by
        by_contra closed
        obtain ⟨layer, member, -⟩ := fails (by simpa using closed)
        cases member
      simp only [fetchLayers, Body.run_emitAll, List.length_nil, Nat.zero_add,
        List.replicate_one]
      exact (run_finishLayers retMask consumes).2 open_
  | cons layer layers ih =>
      rw [List.length_cons, List.replicate_succ, fetchLayers]
      split
      · rintro ⟨⟩
      · rw [Body.run_emit, Body.run_yield_cons]
        split
        · rintro ⟨⟩
        · rename_i objs delivered
          have taken := consumes objs
          by_cases accepted : accepts objs = true
          · rw [if_pos accepted] at taken
            obtain ⟨events, later, quiet, sent, consumes⟩ := taken
            rw [sent, Body.within_emitAll, Body.run_emitAll, Body.within_yield]
            refine ih _ _ consumes fun closed => ?_
            obtain ⟨failing, member, unloaded⟩ := fails closed
            rcases List.mem_cons.mp member with rfl | later
            · exact absurd ⟨objs, delivered, accepted⟩ unloaded
            · exact ⟨failing, later, unloaded⟩
          · rw [if_neg accepted] at taken
            rw [taken, Body.within_raise]
            rintro ⟨⟩

end FetchLayers

/-! ### The lookup loop -/

section Lookup

variable {numLayers : Nat}

/-- The chunks before the first one that is not stored. -/
def leading (chunks : List (RetrieveChunk numLayers Location Key)) :
    List (RetrieveChunk numLayers Location Key) :=
  chunks.takeWhile fun chunk => chunk.currentLocation.isSome

/-- They are all stored at the same location. -/
def OneLocation (chunks : List (RetrieveChunk numLayers Location Key)) : Prop :=
  ∀ chunk ∈ leading chunks, ∀ other ∈ leading chunks,
    chunk.currentLocation = other.currentLocation

variable [DecidableEq Location]

theorem findChunks_cons (location : Option Location)
    (chunk : RetrieveChunk numLayers Location Key)
    (more : List (RetrieveChunk numLayers Location Key)) :
    findChunks location (chunk :: more) =
      match chunk.keysMultiLayer[0]? with
      | none => .error .indexError
      | some _ =>
          match chunk.currentLocation with
          | none => .ok []
          | some currentLocation =>
              match location with
              | none => do
                  let later ← findChunks (some currentLocation) more
                  return chunk :: later
              | some location =>
                  if location = currentLocation then do
                    let later ← findChunks (some location) more
                    return chunk :: later
                  else .error .assertionError := by
  cases location <;> rfl

theorem findChunks_noLayers (location : Option Location) (chunk : RetrieveChunk 0 Location Key)
    (more : List (RetrieveChunk 0 Location Key)) :
    findChunks location (chunk :: more) = .error .indexError := by
  have empty : chunk.keysMultiLayer = [] := List.length_eq_zero_iff.mp chunk.length_keys
  rw [findChunks_cons, empty]
  rfl

/-- After a first chunk, the loop keeps the leading chunks if they are all where
the first one is. -/
theorem findChunks_some (layered : 0 < numLayers) (location : Location)
    (chunks : List (RetrieveChunk numLayers Location Key)) :
    ((∀ chunk ∈ leading chunks, chunk.currentLocation = some location) →
      findChunks (some location) chunks = .ok (leading chunks)) ∧
    ((∃ chunk ∈ leading chunks, chunk.currentLocation ≠ some location) →
      findChunks (some location) chunks = .error .assertionError) := by
  induction chunks with
  | nil => exact ⟨fun _ => rfl, by rintro ⟨chunk, member, -⟩; cases member⟩
  | cons chunk more ih =>
      obtain ⟨key, first⟩ := chunk.toLayerChunk.exists_firstKey layered
      rw [findChunks_cons, first]
      cases found : chunk.currentLocation with
      | none =>
          have none_leading : leading (chunk :: more) = [] := by simp [leading, found]
          rw [none_leading]
          exact ⟨fun _ => rfl, by rintro ⟨other, member, -⟩; cases member⟩
      | some here =>
          have grown : leading (chunk :: more) = chunk :: leading more := by
            simp [leading, found]
          rw [grown]
          by_cases same : location = here
          · subst same
            simp only [↓reduceIte]
            refine ⟨fun alike => ?_, ?_⟩
            · rw [ih.1 fun other member => alike other (List.mem_cons_of_mem _ member)]
              rfl
            · rintro ⟨other, member, apart⟩
              rcases List.mem_cons.mp member with rfl | later
              · exact absurd found apart
              · rw [ih.2 ⟨other, later, apart⟩]
                rfl
          · simp only [same, ↓reduceIte]
            refine ⟨fun alike => ?_, fun _ => by trivial⟩
            have here_eq := alike chunk List.mem_cons_self
            rw [found, Option.some.injEq] at here_eq
            exact absurd here_eq.symm same

/-- **What the lookup finds.** The leading chunks, if they share one location. -/
theorem findChunks_none (layered : 0 < numLayers)
    (chunks : List (RetrieveChunk numLayers Location Key)) :
    (OneLocation chunks → findChunks none chunks = .ok (leading chunks)) ∧
      (¬OneLocation chunks → findChunks none chunks = .error .assertionError) := by
  cases chunks with
  | nil => exact ⟨fun _ => rfl, fun apart => absurd (by rintro _ ⟨⟩) apart⟩
  | cons chunk more =>
      obtain ⟨key, first⟩ := chunk.toLayerChunk.exists_firstKey layered
      rw [findChunks_cons, first]
      cases found : chunk.currentLocation with
      | none =>
          have none_leading : leading (chunk :: more) = [] := by simp [leading, found]
          rw [OneLocation, none_leading]
          exact ⟨fun _ => rfl, fun apart => absurd (by rintro _ ⟨⟩) apart⟩
      | some here =>
          have grown : leading (chunk :: more) = chunk :: leading more := by
            simp [leading, found]
          obtain ⟨kept, failed⟩ := findChunks_some layered here more
          rw [OneLocation, grown]
          constructor
          · intro alike
            have same : ∀ other ∈ leading more, other.currentLocation = some here := by
              intro other member
              rw [← found]
              exact alike other (List.mem_cons_of_mem _ member) chunk List.mem_cons_self
            simp only [kept same]
            rfl
          · intro apart
            have different : ∃ other ∈ leading more, other.currentLocation ≠ some here := by
              by_contra alike
              push Not at alike
              have all : ∀ other ∈ chunk :: leading more, other.currentLocation = some here := by
                intro other member
                rcases List.mem_cons.mp member with rfl | later
                · exact found
                · exact alike other later
              exact apart fun left leftIn right rightIn =>
                (all left leftIn).trans (all right rightIn).symm
            simp only [failed different]
            rfl

end Lookup

/-! ### The whole generator -/

section Whole

variable {numLayers : Nat} (moment : RetrieveMoment Obj)
  (connector : LayerwiseConnector) (numTokens : Nat)
  (chunks : List (RetrieveChunk numLayers Location Key))

/-- How the connector is used for the leading chunks. -/
def leadingUse : ConnectorUse Obj :=
  ⟨numLayers, (leading chunks).length, moment.buffersAllocated, moment.expectedFormat⟩

/-- **What the connector relies on.** Two resumptions at the start and one for
every layer leave the generator suspended, the last value is the mask of the
leading chunks' tokens, and every object fetched for any layer is released once. -/
structure RetrieveResumable (run : Run LayerOut (LayerEvent Key Obj) PyError) : Prop where
  suspended : run.ended = .suspended
  lastMask : run.outs.getLast? = some (.retMask (foundMask numTokens (leading chunks)))
  releasedOnce : (releaseCalls run.events).Perm
    ((List.range numLayers).flatMap (fetchedObjs moment.result))

/-- The leading chunks can be retrieved: there are some, at one location, the
connector closes and has its buffers, and every layer's task delivers objects
that the connector accepts. -/
structure Retrievable : Prop where
  healthy : moment.healthy = true
  layered : 0 < numLayers
  found : leading chunks ≠ []
  oneLocation : OneLocation chunks
  closes : connector.closes = true
  ready : connector.needsBuffer = true → moment.buffersAllocated = true
  loads : ∀ layer < numLayers, Loads moment.result (leadingUse moment chunks).accepts layer

/-- Without a chunk, the last resumption reads the unbound variable. -/
theorem run_retrieveFound_nil (retMask : List Bool) :
    ((retrieveFound moment connector retMask
      ([] : List (RetrieveChunk numLayers Location Key))).run
        (List.replicate (numLayers + 1) ())).ended = .raised .unboundLocalError := by
  have looped := Body.run_yieldTimes
    (.yield .nothing fun _ => .raise .unboundLocalError : RetrieveBody Key Obj) [()] .nothing
    numLayers (List.replicate numLayers ()) List.length_replicate
  rw [← List.replicate_succ'] at looped
  unfold retrieveFound
  rw [List.isEmpty_nil, if_pos rfl, looped]
  rfl

variable {chunks} in
theorem run_retrieveFound_unready (found : leading chunks ≠ []) (retMask : List Bool)
    (needs : connector.needsBuffer = true) (missing : moment.buffersAllocated = false) :
    ((retrieveFound moment connector retMask (leading chunks)).run
      (List.replicate (numLayers + 1) ())).ended = .raised .assertionError := by
  unfold retrieveFound
  rw [if_neg (by simpa using found),
    connector.batchedToGpu_unready _ needs missing]
  rfl

variable {chunks} in
/-- With its buffers at hand, the connector's generator opens and the layer loop
starts. -/
theorem retrieveFound_opened (layered : 0 < numLayers) (found : leading chunks ≠ [])
    (ready : connector.needsBuffer = true → moment.buffersAllocated = true)
    (retMask : List Bool) :
    ∃ events memObjConsumer, releaseCalls events = [] ∧
      Consumes (leadingUse moment chunks).accepts connector.closes (List.range numLayers).length
        memObjConsumer ∧
      retrieveFound moment connector retMask (leading chunks) = Body.emitAll events
        (fetchLayers moment.result retMask
          (layerMajor numLayers ((leading chunks).map fun chunk => chunk.keysMultiLayer))
          (List.range numLayers) [] memObjConsumer) := by
  obtain ⟨events, memObjConsumer, quiet, opened, consumes⟩ :=
    @LayerwiseConnector.opens_batchedToGpu Key Obj connector (leadingUse moment chunks) layered ready
  refine ⟨events, memObjConsumer, quiet, by rwa [List.length_range], ?_⟩
  rw [leadingUse] at opened
  unfold retrieveFound
  rw [if_neg (by simpa using found), opened, Body.within_emitAll,
    Body.within_yield]

variable [DecidableEq Location]

theorem retrieveRun_eq : retrieveRun moment connector numTokens chunks =
    (retrieveLayer moment connector numTokens chunks ()).run
      (List.replicate (numLayers + 1) ()) := rfl

/-- An unhealthy engine yields a mask and returns at the second resumption. -/
theorem retrieveRun_unhealthy (unhealthy : moment.healthy = false) :
    (retrieveRun moment connector numTokens chunks).ended = .stopIteration := by
  rw [retrieveRun_eq, retrieveLayer, unhealthy, List.replicate_succ]
  rfl

theorem retrieveRun_failed (healthy : moment.healthy = true) {failure : PyError}
    (failed : findChunks none chunks = .error failure) :
    (retrieveRun moment connector numTokens chunks).ended = .raised failure := by
  simp [retrieveRun_eq, retrieveLayer, healthy, failed]

theorem retrieveRun_found (healthy : moment.healthy = true)
    {found : List (RetrieveChunk numLayers Location Key)}
    (looked : findChunks none chunks = .ok found) :
    retrieveRun moment connector numTokens chunks =
      (retrieveFound moment connector (foundMask numTokens found) found).run
        (List.replicate (numLayers + 1) ()) := by
  simp [retrieveRun_eq, retrieveLayer, healthy, looked]

/-- A retrieve that can go through leaves the generator as the connector expects. -/
theorem retrieveRun_resumable (retrievable : Retrievable moment connector chunks) :
    RetrieveResumable moment numTokens chunks
      (retrieveRun moment connector numTokens chunks) := by
  obtain ⟨healthy, layered, found, oneLocation, closes, ready, loads⟩ := retrievable
  obtain ⟨events, memObjConsumer, quiet, consumes, opened⟩ :=
    retrieveFound_opened moment connector layered found ready
      (foundMask numTokens (leading chunks))
  rw [closes] at consumes
  obtain ⟨ended, last, released⟩ := run_fetchLayers_loads moment.result
    (foundMask numTokens (leading chunks))
    (layerMajor numLayers ((leading chunks).map fun chunk => chunk.keysMultiLayer))
    (List.range numLayers)
    (fun layer member => by simpa [layerMajor] using member)
    (fun layer member => loads layer (List.mem_range.mp member)) [] memObjConsumer consumes
  rw [List.length_range] at ended last released
  rw [retrieveRun_found moment connector numTokens chunks healthy
    ((findChunks_none layered chunks).1 oneLocation), opened, Body.run_emitAll]
  exact ⟨ended, last, by rw [releaseCalls_append, quiet, released, List.nil_append,
    List.nil_append]⟩

/-- A retrieve that cannot go through fails at one of its resumptions. -/
theorem retrieveRun_fails (stuck : ¬Retrievable moment connector chunks) :
    (retrieveRun moment connector numTokens chunks).ended ≠ .suspended := by
  by_cases healthy : moment.healthy = true
  swap
  · rw [retrieveRun_unhealthy moment connector numTokens chunks (by simpa using healthy)]
    rintro ⟨⟩
  by_cases layered : 0 < numLayers
  swap
  · obtain rfl : numLayers = 0 := by omega
    cases chunks with
    | nil =>
        rw [retrieveRun_found moment connector numTokens [] healthy rfl, run_retrieveFound_nil]
        rintro ⟨⟩
    | cons chunk more =>
        rw [retrieveRun_failed moment connector numTokens _ healthy
          (findChunks_noLayers none chunk more)]
        rintro ⟨⟩
  by_cases oneLocation : OneLocation chunks
  swap
  · rw [retrieveRun_failed moment connector numTokens chunks healthy
      ((findChunks_none layered chunks).2 oneLocation)]
    rintro ⟨⟩
  rw [retrieveRun_found moment connector numTokens chunks healthy
    ((findChunks_none layered chunks).1 oneLocation)]
  by_cases found : leading chunks = []
  · rw [found, run_retrieveFound_nil]
    rintro ⟨⟩
  by_cases ready : connector.needsBuffer = true → moment.buffersAllocated = true
  swap
  · push Not at ready
    rw [run_retrieveFound_unready moment connector found _ ready.1 (by simpa using ready.2)]
    rintro ⟨⟩
  obtain ⟨events, memObjConsumer, quiet, consumes, opened⟩ :=
    retrieveFound_opened moment connector layered found ready
      (foundMask numTokens (leading chunks))
  have fails : connector.closes = true → ∃ layer ∈ List.range numLayers,
      ¬Loads moment.result (leadingUse moment chunks).accepts layer := by
    intro closes
    by_contra loads
    push Not at loads
    exact stuck ⟨healthy, layered, found, oneLocation, closes, ready,
      fun layer inside => loads layer (List.mem_range.mpr inside)⟩
  have ended := run_fetchLayers_fails moment.result (foundMask numTokens (leading chunks))
    (layerMajor numLayers ((leading chunks).map fun chunk => chunk.keysMultiLayer))
    (List.range numLayers) []
    memObjConsumer consumes fails
  rw [List.length_range] at ended
  rw [opened, Body.run_emitAll]
  exact ended

end Whole

/-- Two layers of one chunk, stored at the only location. -/
def storedChunk : RetrieveChunk 2 Unit Nat where
  start := 0
  stop := 4
  keysMultiLayer := [0, 1]
  length_keys := by decide
  currentLocation := some ()

def readyMoment : RetrieveMoment Nat where
  healthy := true
  buffersAllocated := true
  expectedFormat _ := true
  result layer := .ok [layer]

end LMCacheHcu.Layerwise
