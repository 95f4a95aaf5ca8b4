import LMCacheHcu.Foundation.Ledger
import LMCacheHcu.Foundation.Runs
import LMCacheHcu.Storage.Tensor

/-! # The save tasks of the local disk backend

The backend class reserves disk space when a put is submitted and publishes the
entry of a written file; the save task between the two and `remove` are the
methods that this repository puts in their place. `usage` is changed by plain
`+=` and `-=`, which read the counter and write it later; `disk_lock` protects
the index and `current_cache_size`.
-/

namespace LMCacheHcu.LocalDisk

open Storage

/-- The memory object of a put. Its buffer has the bytes of its tensor. -/
structure MemoryObject where
  identity : ℕ
  shape : List ℕ
  dtype : DType
  bufferSize : ℤ
  physicalSize : ℤ
  covers : bufferSize = shape.prod * dtype.itemsize

/-- `DiskCacheMetadata`, as far as `remove` reads it. -/
structure DiskEntry where
  size : ℤ
  shape : Option (List ℕ)
  dtype : Option DType
deriving DecidableEq

/-- `payload_size`, as `remove` computes it. -/
def DiskEntry.payloadSize (entry : DiskEntry) : ℤ :=
  match entry.shape, entry.dtype with
  | some shape, some dtype => shape.prod * dtype.itemsize
  | _, _ => entry.size

variable {Key : Type} [DecidableEq Key]

structure Put (Key : Type) where
  key : Key
  object : MemoryObject

/-- The entry that `insert_key` makes for a put. -/
def Put.entry (put : Put Key) : DiskEntry :=
  ⟨put.object.physicalSize, some put.object.shape, some put.object.dtype⟩

/-- The state of the backend: `dict`, the two counters, the put tasks, the
objects on which puts have a reference, and whether `disk_lock` is held. -/
structure Disk (Key : Type) [DecidableEq Key] where
  dict : AList fun _ : Key => DiskEntry
  usage : ℤ
  currentCacheSize : ℤ
  putTasks : List Key
  references : List ℕ
  locked : Bool

/-- What is left to do of a put or a removal. -/
inductive Job (Key : Type)
  /-- submitted, before `async_save_bytes_to_disk` -/
  | queued (put : Put Key)
  /-- at the write of `self.usage += size` -/
  | adding (put : Put Key) (value : ℤ)
  /-- before `write_file` -/
  | writing (put : Put Key)
  /-- at the write of `self.usage -= size`, after a failed `write_file` -/
  | subtracting (put : Put Key) (value : ℤ)
  | dropping (put : Put Key)
  /-- before `insert_key` -/
  | publishing (put : Put Key)
  /-- before `remove_put_task` -/
  | unlisting (put : Put Key)
  | saved (put : Put Key)
  | failed (put : Put Key)
  | remove (key : Key) (force : Bool)
  /-- at the write of `self.usage -= payload_size`, with the lock held -/
  | removing (key : Key) (entry : DiskEntry) (value : ℤ)
  | removed

namespace Disk

variable (disk : Disk Key)

def find (key : Key) : Option DiskEntry := disk.dict.lookup key

/-- The sum of the physical sizes of the entries. -/
def totalSize : ℤ := Ledger.total DiskEntry.size disk.dict

/-- The sum of the payload sizes of the entries. -/
def totalPayload : ℤ := Ledger.total DiskEntry.payloadSize disk.dict

/-- `submit_put_task` of the backend class: reserve the physical size, take a
reference, and list the put. -/
def submitPutTask (put : Put Key) : Disk Key :=
  { disk with
    currentCacheSize := disk.currentCacheSize + put.object.physicalSize
    putTasks := disk.putTasks ++ [put.key]
    references := put.object.identity :: disk.references }

/-- `insert_key` of the backend class: publish the entry, in the place of one
that the key may have. -/
def insertKey (put : Put Key) : Disk Key :=
  { disk with dict := disk.dict.insert put.key put.entry }

/-- `ref_count_down`. -/
def release (put : Put Key) : Disk Key :=
  { disk with references := disk.references.erase put.object.identity }

/-- `disk_worker.remove_put_task`. -/
def removePutTask (put : Put Key) : Disk Key :=
  { disk with putTasks := disk.putTasks.erase put.key }

end Disk

/-- One step of a job; the flag is what `write_file` returns. -/
def advance (disk : Disk Key) (written : Bool) : Job Key → Option (Disk Key × Job Key)
  | .queued put => some (disk, .adding put disk.usage)
  | .adding put value => some ({ disk with usage := value + put.object.bufferSize }, .writing put)
  | .writing put =>
      if written then some (disk, .publishing put) else some (disk, .subtracting put disk.usage)
  | .subtracting put value =>
      some ({ disk with usage := value - put.object.bufferSize }, .dropping put)
  | .dropping put => some ((disk.release put).removePutTask put, .failed put)
  | .publishing put =>
      if disk.locked then none else some ((disk.release put).insertKey put, .unlisting put)
  | .unlisting put => some (disk.removePutTask put, .saved put)
  | .remove key _ =>
      if disk.locked then none
      else
        match disk.find key with
        | none => some (disk, .removed)
        | some entry =>
            -- With `force` `remove` debits the counter, without it the eviction that calls it.
            some ({ disk with
              currentCacheSize := disk.currentCacheSize - entry.size
              locked := true }, .removing key entry disk.usage)
  | .removing key entry value =>
      some ({ disk with
        usage := value - entry.payloadSize
        dict := disk.dict.erase key
        locked := false }, .removed)
  | .saved _ | .failed _ | .removed => none

/-- The backend and its jobs, the finished ones included. -/
structure State (Key : Type) [DecidableEq Key] where
  disk : Disk Key
  jobs : List (Job Key)

inductive Event (Key : Type)
  | submit (put : Put Key)
  /-- `remove`, or an eviction when it is not forced. -/
  | remove (key : Key) (force : Bool)
  | advance (index : ℕ) (written : Bool)

def step (state : State Key) : Event Key → Option (State Key)
  | .submit put =>
      if state.disk.locked then none
      else some ⟨state.disk.submitPutTask put, state.jobs ++ [.queued put]⟩
  | .remove key force => some { state with jobs := state.jobs ++ [.remove key force] }
  | .advance index written =>
      (state.jobs[index]?).bind fun job => (advance state.disk written job).map fun moved =>
        ⟨moved.1, state.jobs.set index moved.2⟩

/-- A new backend. -/
def State.initial : State Key := ⟨⟨∅, 0, 0, [], [], false⟩, []⟩

end LMCacheHcu.LocalDisk
