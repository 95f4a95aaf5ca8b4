import LMCacheHcu.Foundation.WhileLoop
import LMCacheHcu.Storage.Tensor
import Mathlib.Data.List.AList

/-! # Copying objects for a backend

`batched_put` hands each backend the keys and the objects in memory of the
backend's own allocator. For another allocator than the one that holds the
objects, `allocate_and_copy_objects` makes copies: it skips the keys that the
allocator holds already, and stops when an allocation fails.
-/

namespace LMCacheHcu.Put

open Storage WhileLoop

variable {Name Key Ref Format Data : Type}

/-! ### Objects and backends -/

/-- What the copy reads of a memory object. The reference stands for its buffer. -/
structure MemoryObj (Ref Format : Type) where
  ref : Ref
  shape : List ℕ
  dtype : DType
  fmt : Format

/-- The arguments of `allocate`. -/
structure AllocateRequest (Format : Type) where
  shape : List ℕ
  dtype : DType
  fmt : Format
  eviction : Bool
  busyLoop : Bool

/-- An allocated object, with or without a tensor. -/
structure Allocated (Ref : Type) where
  ref : Ref
  hasTensor : Bool

/-- The backends of a storage manager, with everything that their methods may
read or change as one state. -/
structure Backends (Name Key Ref Format : Type) where
  State : Type
  allocatorBackend : Option Name
  storageBackends : List Name
  /-- the class name of `get_allocator_backend()` -/
  getAllocatorBackend : Name → Name
  bypassed : State → Name → Bool
  contains : State → Name → Key → Bool × State
  allocate : State → Name → AllocateRequest Format → Option (Allocated Ref) × State
  batchedSubmitPutTask : State → Name → List Key → List Ref → State

variable (backends : Backends Name Key Ref Format)

/-! ### `allocate_and_copy_objects` -/

/-- The state of the loop. The copies are queued on the stream, from a source to
a destination. -/
structure CopyState where
  state : backends.State
  stream : List (Ref × Ref)
  allocatedKeys : List Key
  allocatedObjects : List Ref
  released : List Ref

/-- One iteration of the loop. -/
def copyItem (allocator : Name) (copying : CopyState backends) (item : Key × MemoryObj Ref Format) :
    Pass (CopyState backends) (CopyState backends) :=
  let held := backends.contains copying.state allocator item.1
  if held.1 then .again { copying with state := held.2 }
  else
    let answer := backends.allocate held.2 allocator ⟨item.2.shape, item.2.dtype, item.2.fmt, true, false⟩
    match answer.1 with
    | none => .leave { copying with state := answer.2 }
    | some memoryObj =>
        if memoryObj.hasTensor = false then
          .leave { copying with
            state := answer.2
            released := copying.released ++ [memoryObj.ref] }
        else
          .again { copying with
            state := answer.2
            stream := copying.stream ++ [(item.2.ref, memoryObj.ref)]
            allocatedKeys := copying.allocatedKeys ++ [item.1]
            allocatedObjects := copying.allocatedObjects ++ [memoryObj.ref] }

def startCopy (state : backends.State) : CopyState backends := ⟨state, [], [], [], []⟩

/-- The loop over the paired keys and objects. -/
def copyItems (allocator : Name) (items : List (Key × MemoryObj Ref Format))
    (state : backends.State) : CopyState backends :=
  match forEach (copyItem backends allocator) items (startCopy backends state) with
  | .again copying => copying
  | .leave copying => copying

/-- `stream.synchronize()`: the queued copies are done, in their order. -/
def synchronize [DecidableEq Ref] (stream : List (Ref × Ref)) (heap : Ref → Data) : Ref → Data :=
  stream.foldl (fun heap copy => Function.update heap copy.2 (heap copy.1)) heap

/-- `allocate_and_copy_objects`. -/
def allocateAndCopyObjects [DecidableEq Ref] (allocator : Name) (keys : List Key)
    (srcMemoryObjs : List (MemoryObj Ref Format)) (state : backends.State) (heap : Ref → Data) :
    CopyState backends × (Ref → Data) :=
  let copied := copyItems backends allocator (keys.zip srcMemoryObjs) state
  (copied, synchronize copied.stream heap)

/-! ### `batched_put` -/

/-- A call of `batched_submit_put_task`, with the content of the memory then. -/
structure Submission (Name Key Ref Data : Type) where
  backend : Name
  keys : List Key
  objects : List Ref
  heap : Ref → Data

/-- The state of the loop over the backends. -/
structure PutState (Data : Type) [DecidableEq Name] where
  state : backends.State
  heap : Ref → Data
  objDict : AList fun _ : Name => List Key × List Ref
  submissions : List (Submission Name Key Ref Data)
  released : List Ref

variable [DecidableEq Name] [DecidableEq Ref]

/-- The keys and objects for the allocator of a backend, copied when they are
needed for the first time. -/
def prepare (keys : List Key) (memoryObjs : List (MemoryObj Ref Format))
    (put : PutState backends Data) (cname : Name) : PutState backends Data :=
  match put.objDict.lookup cname with
  | some _ => put
  | none =>
      let copied := allocateAndCopyObjects backends cname keys memoryObjs put.state put.heap
      { put with
        state := copied.1.state
        heap := copied.2
        objDict := put.objDict.insert cname (copied.1.allocatedKeys, copied.1.allocatedObjects)
        released := put.released ++ copied.1.released }

/-- One backend of the loop. -/
def putBackend (keys : List Key) (memoryObjs : List (MemoryObj Ref Format))
    (location : Option Name) (put : PutState backends Data) (name : Name) :
    PutState backends Data :=
  if location.any (· ≠ name) then put
  else if backends.bypassed put.state name then put
  else
    let cname := backends.getAllocatorBackend name
    let ready := prepare backends keys memoryObjs put cname
    let entry := (ready.objDict.lookup cname).getD ([], [])
    { ready with
      state := backends.batchedSubmitPutTask ready.state name entry.1 entry.2
      submissions := ready.submissions ++ [⟨name, entry.1, entry.2, ready.heap⟩] }

/-- `batched_put`. Without an allocator backend it raises. -/
def batchedPut (keys : List Key) (memoryObjs : List (MemoryObj Ref Format))
    (location : Option Name) (state : backends.State) (heap : Ref → Data) :
    Option (PutState backends Data) :=
  backends.allocatorBackend.map fun allocator =>
    let start : PutState backends Data :=
      { state := state
        heap := heap
        objDict := (∅ : AList fun _ : Name => List Key × List Ref).insert allocator
          (keys, memoryObjs.map MemoryObj.ref)
        submissions := []
        released := [] }
    let final := backends.storageBackends.foldl (putBackend backends keys memoryObjs location) start
    { final with
      released := final.released ++ final.objDict.entries.flatMap fun entry => entry.2.2 }

end LMCacheHcu.Put
