import LMCacheHcu.Foundation.Runs
import LMCacheHcu.Gds.Scan

/-! # The put tasks of the GDS backend

`submit_put_task` takes a reference and marks the key, and the `finally` of
`_async_save_bytes_to_disk` gives both back. Between the two the coroutine
chooses the layout, builds the path and makes the directory, all before the `try`,
and then saves: a legacy put writes two files, each under a temporary name that
it renames, and a block-first put writes one. The operations of several puts
interleave; the lock of the staging buffer orders those of block-first puts
further.
-/

namespace LMCacheHcu.Gds

open Storage Exceptions Text

variable {Key F Format : Type}

def blockFirstDataFileSuffixTmp : Text := ".BLOCK_FIRST_V1_TMP".toList

/-- `_use_block_first_for_tensor`. -/
def GdsBackend.useBlockFirstForTensor (backend : GdsBackend Key F Format) (shape : List ℕ) :
    Except (Raised BlockFirstFormatError) Bool :=
  if backend.blockFirstEnabled then
    match shape with
    | [2, _, tokens, _] => .ok (decide (tokens = backend.engine.chunkSize))
    | _ => formatError "block_first_v1 source must use logical [2, NL, T, D] layout"
  else .ok false

/-- The layout and the path of a put, which are computed before the `try`. -/
def GdsBackend.destination (backend : GdsBackend Key F Format) (key : Key) (shape : List ℕ) :
    Except (Raised BlockFirstFormatError) (Bool × Restart.KeyPath) := do
  let blockFirst ← backend.useBlockFirstForTensor shape
  let path ← builtin (backend.keyToPath key blockFirst)
  return (blockFirst, path)

/-- How far a put is, by the operation that comes next. -/
inductive Stage
  /-- submitted, and the coroutine has not run yet -/
  | submitted
  /-- the `open` of `_save_gds`, and what comes before it -/
  | openingData
  /-- writing the temporary data file, up to its `rename` -/
  | writingData
  /-- the `open` of `save_metadata` -/
  | openingSidecar
  /-- writing the temporary sidecar, up to its `rename` -/
  | writingSidecar
  /-- what comes before the `try` of `_save_block_first_gds` -/
  | preparingBlockFirst
  /-- the conversion, up to the `open` -/
  | openingBlockFirst
  /-- writing the temporary block-first file, up to its `replace` -/
  | writingBlockFirst
  /-- the `os.remove` of the handler -/
  | removing
  /-- `insert_key` -/
  | saved
  /-- the callback, whose exceptions are caught, and the `finally` -/
  | inserted
  /-- an exception on its way to the `finally` -/
  | unwinding
  | finished (success : Bool)
  /-- an exception has left the coroutine before its `try` -/
  | abandoned
deriving DecidableEq, Repr

/-- The coroutine has ended. -/
def Stage.isOver : Stage → Bool
  | .finished _ | .abandoned => true
  | _ => false

structure PutTask (Key : Type) where
  key : Key
  shape : List ℕ
  /-- the path of the data file, once it is built -/
  path : Text
  /-- the suffix of the temporary names, `".tmp" + rand_suffix(...)` -/
  tmp : Text
  stage : Stage
  /-- the number of `ref_count_down` calls for the reference that was taken -/
  releases : ℕ
deriving DecidableEq

namespace PutTask

variable (task : PutTask Key)

/-- The future is not done. -/
def InFlight : Prop := task.stage.isOver = false

instance : Decidable task.InFlight := inferInstanceAs (Decidable (_ = _))

def dataTmp : Text := task.path ++ task.tmp

def sidecarTmp : Text := task.path ++ metadataFileSuffix ++ task.tmp

def blockFirstTmp : Text := task.path ++ blockFirstDataFileSuffixTmp

/-- The temporary file that the task has opened. -/
def opened : Option Text :=
  match task.stage with
  | .writingData => some task.dataTmp
  | .writingSidecar => some task.sidecarTmp
  | .writingBlockFirst | .removing => some task.blockFirstTmp
  | _ => none

end PutTask

/-- The state of the backend: the tasks, `put_tasks`, the temporary files on disk,
the task whose entry `hot_cache` has for a key, and `metadata_dirs`. -/
structure PutState (Key : Type) [DecidableEq Key] where
  tasks : List (PutTask Key)
  putTasks : Finset Key
  temporaries : Finset Text
  maker : Key → Option ℕ
  metadataDirs : Finset Text

inductive PutEvent (Key : Type)
  | submit (key : Key) (shape : List ℕ)
  /-- the coroutine begins, with the random suffix, and makes the directory -/
  | start (id : ℕ) (suffix : Text) (made : Bool)
  /-- the next operation of the save succeeds -/
  | advance (id : ℕ)
  /-- it raises an exception -/
  | fail (id : ℕ)
  /-- the `finally` -/
  | finish (id : ℕ)

namespace PutState

variable [DecidableEq Key]

def initial : PutState Key := ⟨[], ∅, ∅, fun _ => none, ∅⟩

variable (state : PutState Key)

def set (id : ℕ) (task : PutTask Key) : PutState Key :=
  { state with tasks := state.tasks.set id task }

/-- `submit_put_task`. -/
def submitPutTask (key : Key) (shape : List ℕ) : PutState Key :=
  { state with
    tasks := state.tasks ++ [⟨key, shape, [], [], .submitted, 0⟩]
    putTasks := insert key state.putTasks }

/-- `_async_save_bytes_to_disk` up to its `try`. -/
def start (backend : GdsBackend Key F Format) (id : ℕ) (task : PutTask Key) (suffix : Text)
    (made : Bool) : PutState Key :=
  match backend.destination task.key task.shape with
  | .error _ => state.set id { task with stage := .abandoned }
  | .ok (blockFirst, path) =>
      if path.subdirKey ∉ state.metadataDirs ∧ made = false then
        state.set id { task with stage := .abandoned }
      else
        { state.set id { task with
            path := path.path
            tmp := ".tmp".toList ++ suffix
            stage := if blockFirst then .preparingBlockFirst else .openingData } with
          metadataDirs := insert path.subdirKey state.metadataDirs }

/-- The next operation of a save. A rename needs the temporary file. -/
def advance (id : ℕ) (task : PutTask Key) : Option (PutState Key) :=
  match task.stage with
  | .openingData => some { state.set id { task with stage := .writingData } with
      temporaries := insert task.dataTmp state.temporaries }
  | .writingData =>
      if task.dataTmp ∈ state.temporaries then
        some { state.set id { task with stage := .openingSidecar } with
          temporaries := state.temporaries.erase task.dataTmp }
      else none
  | .openingSidecar => some { state.set id { task with stage := .writingSidecar } with
      temporaries := insert task.sidecarTmp state.temporaries }
  | .writingSidecar =>
      if task.sidecarTmp ∈ state.temporaries then
        some { state.set id { task with stage := .saved } with
          temporaries := state.temporaries.erase task.sidecarTmp }
      else none
  | .preparingBlockFirst => some (state.set id { task with stage := .openingBlockFirst })
  | .openingBlockFirst => some { state.set id { task with stage := .writingBlockFirst } with
      temporaries := insert task.blockFirstTmp state.temporaries }
  | .writingBlockFirst =>
      if task.blockFirstTmp ∈ state.temporaries then
        some { state.set id { task with stage := .saved } with
          temporaries := state.temporaries.erase task.blockFirstTmp }
      else none
  -- The handler catches `FileNotFoundError` and raises the first exception again.
  | .removing => some { state.set id { task with stage := .unwinding } with
      temporaries := state.temporaries.erase task.blockFirstTmp }
  | .saved => some { state.set id { task with stage := .inserted } with
      maker := Function.update state.maker task.key (some id) }
  | .submitted | .inserted | .unwinding | .finished _ | .abandoned => none

/-- An operation of a save raises. Only `_save_block_first_gds` has a handler. -/
def fail (id : ℕ) (task : PutTask Key) : Option (PutState Key) :=
  match task.stage with
  | .openingData | .writingData | .openingSidecar | .writingSidecar | .preparingBlockFirst
  | .removing | .saved => some (state.set id { task with stage := .unwinding })
  | .openingBlockFirst | .writingBlockFirst => some (state.set id { task with stage := .removing })
  | .submitted | .inserted | .unwinding | .finished _ | .abandoned => none

/-- The `finally`. -/
def finish (id : ℕ) (task : PutTask Key) (success : Bool) : PutState Key :=
  { state.set id { task with stage := .finished success, releases := task.releases + 1 } with
    putTasks := state.putTasks.erase task.key }

/-- A step of the backend. -/
def step (backend : GdsBackend Key F Format) (state : PutState Key) :
    PutEvent Key → Option (PutState Key)
  | .submit key shape => some (state.submitPutTask key shape)
  | .start id suffix made => do
      let task ← state.tasks[id]?
      if task.stage = .submitted then some (state.start backend id task suffix made) else none
  | .advance id => do
      let task ← state.tasks[id]?
      state.advance id task
  | .fail id => do
      let task ← state.tasks[id]?
      state.fail id task
  | .finish id => do
      let task ← state.tasks[id]?
      match task.stage with
      | .inserted => some (state.finish id task true)
      | .unwinding => some (state.finish id task false)
      | _ => none

end PutState

end LMCacheHcu.Gds
