import Mathlib.Data.List.AList
import Mathlib.Tactic

/-! # The storage operations as programs

An operation of `StorageManager` reads the freeze flag and the bypass set under
their own locks and calls backends in between, so another thread may change the
modes at any of these points. Each operation is a tree of such steps; what the
operation does next may depend on the flags it read and on the answers of the
backends.
-/

namespace LMCacheHcu.Routing

/-- The backend methods that the operations call. A loading task runs
`batched_get_non_blocking` after the lookup that created it, and the layerwise
path calls the same method on a backend chosen by name. -/
inductive Method
  | contains (pin : Bool)
  | batchedContains (pin : Bool)
  | batchedAsyncContains (pin : Bool)
  | getBlocking
  | batchedGetBlocking
  | batchedSubmitPutTask
  | prefetchedGetNonBlocking
  | layerwiseGetNonBlocking
  | batchedDirectGet
  | batchedDirectPut
  | writeBack
  | allocatorContains
  | allocate
deriving DecidableEq, Repr

namespace Method

/-- Lookups and reads, which freeze mode restricts. -/
def retrieval : Method → Bool
  | contains _ | batchedContains _ | batchedAsyncContains _ | getBlocking | batchedGetBlocking
  | prefetchedGetNonBlocking | layerwiseGetNonBlocking | batchedDirectGet => true
  | batchedSubmitPutTask | batchedDirectPut | writeBack | allocatorContains | allocate => false

/-- The calls that an operation makes on a backend it has just checked. -/
def checked : Method → Bool
  | contains _ | batchedContains _ | batchedAsyncContains _ | getBlocking | batchedGetBlocking
  | batchedSubmitPutTask => true
  | prefetchedGetNonBlocking | layerwiseGetNonBlocking | batchedDirectGet | batchedDirectPut
  | writeBack | allocatorContains | allocate => false

end Method

/-- A call of a backend method with the keys it is made for. -/
structure Call (Name Key : Type) where
  target : Name
  method : Method
  keys : List Key
deriving DecidableEq, Repr

/-- What a backend answers: a number of hits, objects or flags. -/
inductive Answer (Obj : Type)
  | hits (count : Nat)
  | objs (values : List (Option Obj))
  | flags (values : List Bool)

variable {Name Key Obj : Type}

def Answer.hitCount : Answer Obj → Nat
  | hits count => count
  | _ => 0

def Answer.values : Answer Obj → List (Option Obj)
  | objs values => values
  | _ => []

/-- The steps of an operation. A check carries whether the filters of the
operation let it use the backend when the check passes. -/
inductive Program (Name Key Obj : Type)
  | checkFreeze (name : Name) (selected : Bool) (passed skipped : Program Name Key Obj)
  | checkBypass (name : Name) (selected : Bool) (passed skipped : Program Name Key Obj)
  | call (call : Call Name Key) (resume : Answer Obj → Program Name Key Obj)
  | spawn (task next : Program Name Key Obj)
  | done

/-- The registered backends in their order, and what the routing reads of them. -/
structure Backends (Name : Type) where
  storageBackends : List Name
  localCpuBackend : Name
  pdBackend : Name
  -- the manager's own allocator backend, and the one each backend allocates with
  allocatorBackend : Option Name
  getAllocatorBackend : Name → Name
  hasDirectGet : Name → Bool
  hasDirectPut : Name → Bool

/-- The filters of `get_active_storage_backends`; an empty search range does
not restrict. -/
structure Filter (Name : Type) where
  location : Option Name
  searchRange : List Name

variable [DecidableEq Name]

def Filter.selects (filter : Filter Name) (name : Name) : Bool :=
  (match filter.location with
    | none => true
    | some location => name = location) &&
  (filter.searchRange.isEmpty || name ∈ filter.searchRange)

/-- A loop over `get_active_storage_backends`. The body says what is done with a
backend, given the rest of the loop. -/
def activeStorageBackends (filter : Filter Name) {State : Type}
    (body : Name → State → (State → Program Name Key Obj) → Program Name Key Obj) :
    List Name → State → Program Name Key Obj
  | [], _ => .done
  | name :: names, state =>
      let next := activeStorageBackends filter body names
      .checkFreeze name (filter.selects name)
        (.checkBypass name (filter.selects name)
          (if filter.selects name then body name state next else next state) (next state))
        (next state)

variable (backends : Backends Name)

/-! ### Lookups -/

def contains (key : Key) (searchRange : List Name) (pin : Bool) : Program Name Key Obj :=
  activeStorageBackends ⟨none, searchRange⟩
    (fun name _ next =>
      .call ⟨name, .contains (if name ≠ backends.pdBackend then pin else false), [key]⟩
        fun answer => if 0 < answer.hitCount then .done else next ())
    backends.storageBackends ()

/-- The prefix loop of the batched lookups: the keys that remain and the number
of hits so far. -/
def batchedLookup (method : Name → Method) (totalKeys : Nat) (searchRange : List Name)
    (keys : List Key) : Program Name Key Obj :=
  activeStorageBackends ⟨none, searchRange⟩
    (fun name state next =>
      .call ⟨name, method name, state.1⟩ fun answer =>
        if answer.hitCount = 0 then next state
        else if state.2 + answer.hitCount = totalKeys then .done
        else next (state.1.drop answer.hitCount, state.2 + answer.hitCount))
    backends.storageBackends (keys, 0)

def batchedContains (keys : List Key) (searchRange : List Name) (pin : Bool) :
    Program Name Key Obj :=
  batchedLookup backends
    (fun name => .batchedContains (if name ≠ backends.pdBackend then pin else false))
    keys.length searchRange keys

def getBlockMapping (keys : List Key) : Program Name Key Obj :=
  batchedLookup backends (fun _ => .batchedContains false) keys.length [] keys

/-- `async_lookup_and_prefetch`: a backend with hits gets a loading task, which
reads it at a later time. -/
def asyncLookupAndPrefetch (keys : List Key) (searchRange : List Name) (pin : Bool) :
    Program Name Key Obj :=
  activeStorageBackends ⟨none, searchRange⟩
    (fun name state next =>
      .call ⟨name, .batchedAsyncContains pin, state.1⟩ fun answer =>
        if answer.hitCount = 0 then next state
        else
          .spawn (.call ⟨name, .prefetchedGetNonBlocking, state.1.take answer.hitCount⟩
              fun _ => .done)
            (if state.2 + answer.hitCount = keys.length then .done
            else next (state.1.drop answer.hitCount, state.2 + answer.hitCount)))
    backends.storageBackends (keys, 0)

/-! ### Reads -/

/-- Whether what was read from a backend is also put to the local CPU backend. -/
def writesBack (name : Name) : Bool :=
  name ≠ backends.localCpuBackend && name ≠ backends.pdBackend &&
    backends.localCpuBackend ∈ backends.storageBackends

def get (key : Key) (location : Option Name) : Program Name Key Obj :=
  activeStorageBackends ⟨location, []⟩
    (fun name _ next =>
      .call ⟨name, .getBlocking, [key]⟩ fun answer =>
        match answer.values with
        | some _ :: _ =>
            if writesBack backends name then
              .call ⟨backends.localCpuBackend, .writeBack, [key]⟩ fun _ => .done
            else .done
        | _ => next ())
    backends.storageBackends ()

def batchedGet (keys : List Key) (location : Option Name) : Program Name Key Obj :=
  activeStorageBackends ⟨location, []⟩
    (fun name _ next =>
      .call ⟨name, .batchedGetBlocking, keys⟩ fun answer =>
        if answer.values.isEmpty then next ()
        else if writesBack backends name && answer.values.all Option.isSome then
          .call ⟨backends.localCpuBackend, .writeBack, keys⟩ fun _ => .done
        else .done)
    backends.storageBackends ()

/-- `batched_direct_get`: the location is used as it is named. -/
def batchedDirectGet (keys : List Key) (numPlans : Nat) (location : Name) :
    Program Name Key Obj :=
  if numPlans = keys.length ∧ location ∈ backends.storageBackends ∧
      backends.hasDirectGet location = true then
    .call ⟨location, .batchedDirectGet, keys⟩ fun _ => .done
  else .done

/-- The layers of `layerwise_batched_get`, one call for each. -/
def fetchLayers (location : Name) : List (List Key) → Program Name Key Obj
  | [] => .done
  | keysMultiChunk :: layers =>
      .call ⟨location, .layerwiseGetNonBlocking, keysMultiChunk⟩ fun _ =>
        fetchLayers location layers

/-- `layerwise_batched_get`; a location that is not registered is a `KeyError`. -/
def layerwiseBatchedGet (keys : List (List Key)) (location : Option Name) :
    Program Name Key Obj :=
  let location := location.getD backends.localCpuBackend
  if location ∈ backends.storageBackends then fetchLayers location keys else .done

/-! ### Writes -/

/-- `allocate_and_copy_objects`: the keys for which memory could be allocated. -/
def allocateAndCopyObjects (allocator : Name) (next : List Key → Program Name Key Obj) :
    List Key → List Key → Program Name Key Obj
  | [], allocatedKeys => next allocatedKeys
  | key :: keys, allocatedKeys =>
      .call ⟨allocator, .allocatorContains, [key]⟩ fun held =>
        if 0 < held.hitCount then allocateAndCopyObjects allocator next keys allocatedKeys
        else
          .call ⟨allocator, .allocate, [key]⟩ fun answer =>
            match answer.values with
            | some _ :: _ =>
                allocateAndCopyObjects allocator next keys (allocatedKeys ++ [key])
            | _ => next allocatedKeys

/-- The loop of `batched_put` over all backends; `objDict` maps an allocator to
the keys it holds copies for. Only the bypass mode is checked here. -/
def putBackends (location : Option Name) (keys : List Key) :
    List Name → AList (fun _ : Name => List Key) → Program Name Key Obj
  | [], _ => .done
  | name :: names, objDict =>
      if location.any (· ≠ name) then putBackends location keys names objDict
      else
        .checkBypass name true
          (match objDict.lookup (backends.getAllocatorBackend name) with
            | some ks =>
                .call ⟨name, .batchedSubmitPutTask, ks⟩ fun _ =>
                  putBackends location keys names objDict
            | none =>
                allocateAndCopyObjects (backends.getAllocatorBackend name)
                  (fun ks =>
                    .call ⟨name, .batchedSubmitPutTask, ks⟩ fun _ =>
                      putBackends location keys names
                        (objDict.insert (backends.getAllocatorBackend name) ks))
                  keys [])
          (putBackends location keys names objDict)

/-- `batched_put`; without an allocator backend it raises before any call. -/
def batchedPut (keys : List Key) (location : Option Name) : Program Name Key Obj :=
  match backends.allocatorBackend with
  | none => .done
  | some allocator =>
      putBackends backends location keys backends.storageBackends
        ((∅ : AList fun _ : Name => List Key).insert allocator keys)

def batchedDirectPut (keys : List Key) (numPlans : Nat) (location : Option Name) :
    Program Name Key Obj :=
  match location with
  | none => .done
  | some location =>
      if numPlans = keys.length ∧ location ∈ backends.storageBackends ∧
          backends.hasDirectPut location = true then
        .call ⟨location, .batchedDirectPut, keys⟩ fun _ => .done
      else .done

/-- The storage operations with their arguments. -/
inductive Operation (Name Key : Type)
  | contains (key : Key) (searchRange : List Name) (pin : Bool)
  | batchedContains (keys : List Key) (searchRange : List Name) (pin : Bool)
  | batchedPut (keys : List Key) (location : Option Name)
  | batchedDirectPut (keys : List Key) (numPlans : Nat) (location : Option Name)
  | get (key : Key) (location : Option Name)
  | batchedGet (keys : List Key) (location : Option Name)
  | batchedDirectGet (keys : List Key) (numPlans : Nat) (location : Name)
  | layerwiseBatchedGet (keys : List (List Key)) (location : Option Name)
  | asyncLookupAndPrefetch (keys : List Key) (searchRange : List Name) (pin : Bool)
  | getBlockMapping (keys : List Key)

def Operation.program : Operation Name Key → Program Name Key Obj
  | contains key searchRange pin => Routing.contains backends key searchRange pin
  | batchedContains keys searchRange pin => Routing.batchedContains backends keys searchRange pin
  | batchedPut keys location => Routing.batchedPut backends keys location
  | batchedDirectPut keys numPlans location =>
      Routing.batchedDirectPut backends keys numPlans location
  | get key location => Routing.get backends key location
  | batchedGet keys location => Routing.batchedGet backends keys location
  | batchedDirectGet keys numPlans location =>
      Routing.batchedDirectGet backends keys numPlans location
  | layerwiseBatchedGet keys location => Routing.layerwiseBatchedGet backends keys location
  | asyncLookupAndPrefetch keys searchRange pin =>
      Routing.asyncLookupAndPrefetch backends keys searchRange pin
  | getBlockMapping keys => Routing.getBlockMapping backends keys

end LMCacheHcu.Routing
