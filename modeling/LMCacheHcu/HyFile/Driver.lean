import LMCacheHcu.Foundation.Runs

/-! # The HyFile driver and what opens and closes it

A process has one driver, which `HIPFile` keeps in class attributes. Allocators
count themselves and the last one closes the driver; a backend in direct mode
opens the driver without counting itself and closes it too. A step below is one
region under `_lifecycle_lock`, or one step of a backend's constructor or of its
`close`, with what the calls into the library do.
-/

namespace LMCacheHcu.HyFile

/-- Which calls come back. The others raise. -/
structure Calls where
  opens : Bool
  pools : Bool
  registers : Bool
  deregisters : Bool
  closes : Bool
  /-- What the constructor does besides, up to its next step here. -/
  proceeds : Bool
deriving DecidableEq

/-- `_driver_opened` and `_global_registered_buffers`: size and reference count
by base pointer. -/
structure Driver where
  opened : Bool
  buffers : ℕ → Option (ℕ × ℕ)

namespace Driver

variable (driver : Driver) (calls : Calls)

/-- `init_driver`, and the same lines in `HIPFile.open`. -/
def initDriver : Option Driver :=
  if driver.opened then some driver
  else if calls.opens then some { driver with opened := true }
  else none

/-- `register_global_buffer`. -/
def registerGlobalBuffer (ptr size : ℕ) : Option Driver :=
  if driver.opened = false then none
  else
    match driver.buffers ptr with
    | some (oldSize, refcount) =>
        if oldSize ≠ size then none
        else some { driver with
          buffers := Function.update driver.buffers ptr (some (size, refcount + 1)) }
    | none =>
        if calls.registers then
          some { driver with buffers := Function.update driver.buffers ptr (some (size, 1)) }
        else none

/-- `deregister_global_buffer`. -/
def deregisterGlobalBuffer (ptr : ℕ) : Option Driver :=
  match driver.buffers ptr with
  | none => some driver
  | some (size, refcount) =>
      if 1 < refcount then
        some { driver with
          buffers := Function.update driver.buffers ptr (some (size, refcount - 1)) }
      else if calls.deregisters then
        some { driver with buffers := Function.update driver.buffers ptr none }
      else none

/-- `close_driver`. -/
def closeDriver : Option Driver :=
  if driver.opened then
    if calls.closes then some { driver with opened := false } else none
  else some driver

end Driver

/-! ### Allocators -/

/-- `HyFileMemoryAllocator`. -/
structure Allocator where
  basePointer : ℕ
  registered : Bool
  counted : Bool
deriving DecidableEq

/-- `_active_allocators` with the driver. -/
structure Lifecycle where
  driver : Driver
  activeAllocators : ℕ

namespace Lifecycle

variable (lifecycle : Lifecycle) (calls : Calls)

/-- `HyFileMemoryAllocator.__init__`; no allocator when it raises. -/
def newAllocator (ptr size : ℕ) : Lifecycle × Option Allocator :=
  let opensDriver := lifecycle.activeAllocators = 0
  let opened := if opensDriver then lifecycle.driver.initDriver calls else some lifecycle.driver
  let registered := opened.bind fun driver =>
    if calls.pools then driver.registerGlobalBuffer calls ptr size else none
  match registered with
  | some driver => (⟨driver, lifecycle.activeAllocators + 1⟩, some ⟨ptr, true, true⟩)
  | none =>
      let driver := opened.getD lifecycle.driver
      (⟨if opensDriver then (driver.closeDriver calls).getD driver else driver,
        lifecycle.activeAllocators⟩, none)

/-- `HyFileMemoryAllocator.close`, with whether it comes back. -/
def closeAllocator (allocator : Allocator) : Lifecycle × Allocator × Bool :=
  let deregistered :=
    if allocator.registered then
      lifecycle.driver.deregisterGlobalBuffer calls allocator.basePointer
    else some lifecycle.driver
  match deregistered with
  | none => (lifecycle, allocator, false)
  | some driver =>
      if allocator.counted = false then
        (⟨driver, lifecycle.activeAllocators⟩, { allocator with registered := false }, true)
      else
        let closed :=
          if lifecycle.activeAllocators = 1 then driver.closeDriver calls else some driver
        match closed with
        | none =>
            (⟨driver, lifecycle.activeAllocators⟩, { allocator with registered := false }, false)
        | some driver =>
            (⟨driver, lifecycle.activeAllocators - 1⟩,
              { allocator with registered := false, counted := false }, true)

end Lifecycle

/-! ### Backends -/

/-- What a backend on HyFile is configured for: with an allocator of its own,
or for direct transfers alone. -/
inductive Mode
  | staged (blockFirst direct : Bool)
  | directOnly
deriving DecidableEq

/-- How far the constructor or `close` of a backend is. -/
inductive Stage
  /-- before `initialize_allocator` -/
  | allocating
  /-- before `create_xds_interface` -/
  | probing
  /-- at the start of the guarded part -/
  | opening
  /-- before `_initialize_block_first_staging` -/
  | staging
  /-- in the handler of the guarded part -/
  | rollingBack
  /-- behind the guarded part -/
  | finishing
  | live
  | closing
  | closed
  /-- The constructor has raised: there is no backend. -/
  | failed
deriving DecidableEq

/-- `identity` of a direct allocation. -/
structure Registration where
  device : String
  base : ℕ
  nbytes : ℕ
deriving DecidableEq

/-- `XdsBackend`, as far as it owns the driver or buffers of it. -/
structure Backend where
  mode : Mode
  stage : Stage
  /-- `_direct_driver_owned` -/
  owned : Bool
  /-- `memory_allocator` -/
  main : Option Allocator
  /-- `_block_first_staging_allocator` -/
  stagingAllocator : Option Allocator
  /-- A staging allocator that the backend did not get to keep. -/
  spare : Option Allocator
  registrations : List Registration
  /-- The pointer of `_direct_edge_tensor`. -/
  edge : Option ℕ

/-- A backend at the start of its constructor. -/
def Backend.new (mode : Mode) : Backend := ⟨mode, .allocating, false, none, none, none, [], none⟩

/-- `direct_enabled`. -/
def Backend.directEnabled (backend : Backend) : Bool :=
  match backend.mode with
  | .staged blockFirst direct => blockFirst && direct
  | .directOnly => true

namespace Lifecycle

variable (lifecycle : Lifecycle) (calls : Calls) (backend : Backend)

/-- One step of the handler that cleans up after a failed constructor. -/
def rollBack : Lifecycle × Backend :=
  match backend.stagingAllocator with
  | some allocator =>
      match lifecycle.closeAllocator calls allocator with
      | (next, _, true) => (next, { backend with stagingAllocator := none })
      | (next, left, false) =>
          (next, { backend with stagingAllocator := some left, stage := .failed })
  | none =>
      if backend.owned then
        match lifecycle.driver.closeDriver calls with
        | none => (lifecycle, { backend with stage := .failed })
        | some driver => ({ lifecycle with driver := driver }, { backend with owned := false })
      else
        match backend.main with
        | some allocator =>
            let closed := lifecycle.closeAllocator calls allocator
            (closed.1, { backend with main := some closed.2.1, stage := .failed })
        | none => (lifecycle, { backend with stage := .failed })

/-- One step of `XdsBackend.__init__`, which may make an allocator of the given
size at the given address. -/
def construct (ptr size : ℕ) : Option (Lifecycle × Backend) :=
  match backend.stage, backend.mode with
  | .allocating, .directOnly => some (lifecycle, { backend with stage := .probing })
  | .allocating, .staged _ _ =>
      match lifecycle.newAllocator calls ptr size with
      | (next, none) => some (next, { backend with stage := .failed })
      | (next, some allocator) =>
          some (next, { backend with main := some allocator, stage := .probing })
  | .probing, _ =>
      some (lifecycle, { backend with stage := if calls.proceeds then .opening else .failed })
  | .opening, .directOnly =>
      match lifecycle.driver.initDriver calls with
      | none => some (lifecycle, { backend with stage := .rollingBack })
      | some driver =>
          some ({ lifecycle with driver := driver }, { backend with owned := true, stage := .staging })
  | .opening, .staged _ _ =>
      -- The preflight goes through `HIPFile.open`, whose failure it may survive.
      some ({ lifecycle with driver := (lifecycle.driver.initDriver calls).getD lifecycle.driver },
        { backend with stage := if calls.proceeds then .staging else .rollingBack })
  | .staging, .staged true _ =>
      match lifecycle.newAllocator calls ptr size with
      | (next, none) => some (next, { backend with stage := .rollingBack })
      | (next, some allocator) =>
          if calls.proceeds then
            some (next, { backend with stagingAllocator := some allocator, stage := .finishing })
          else some (next, { backend with spare := some allocator, stage := .rollingBack })
  | .staging, _ =>
      some (lifecycle, { backend with stage := if calls.proceeds then .finishing else .rollingBack })
  | .finishing, _ =>
      some (lifecycle, { backend with stage := if calls.proceeds then .live else .failed })
  | .rollingBack, _ => some (lifecycle.rollBack calls backend)
  | _, _ => none

/-- One step of `XdsBackend.close`, which starts again with what is left when a
step has raised. -/
def close : Lifecycle × Backend :=
  match backend.registrations with
  | registration :: rest =>
      match lifecycle.driver.deregisterGlobalBuffer calls registration.base with
      | none => (lifecycle, backend)
      | some driver => ({ lifecycle with driver := driver }, { backend with registrations := rest })
  | [] =>
      match backend.edge with
      | some ptr =>
          match lifecycle.driver.deregisterGlobalBuffer calls ptr with
          | none => (lifecycle, backend)
          | some driver => ({ lifecycle with driver := driver }, { backend with edge := none })
      | none =>
          match backend.stagingAllocator with
          | some allocator =>
              match lifecycle.closeAllocator calls allocator with
              | (next, _, true) => (next, { backend with stagingAllocator := none })
              | (next, left, false) => (next, { backend with stagingAllocator := some left })
          | none =>
              match backend.main with
              | some ⟨ptr, true, counted⟩ =>
                  let closed := lifecycle.closeAllocator calls ⟨ptr, true, counted⟩
                  (closed.1, { backend with main := some closed.2.1 })
              | some ⟨ptr, false, true⟩ =>
                  let closed := lifecycle.closeAllocator calls ⟨ptr, false, true⟩
                  (closed.1, { backend with main := some closed.2.1 })
              | _ =>
                  if backend.owned then
                    match lifecycle.driver.closeDriver calls with
                    | none => (lifecycle, backend)
                    | some driver =>
                        ({ lifecycle with driver := driver }, { backend with owned := false })
                  else (lifecycle, { backend with stage := .closed })

/-- `_ensure_direct_registration`, for one allocation. -/
def ensureDirectRegistration (registration : Registration) : Lifecycle × Backend :=
  if registration ∈ backend.registrations then (lifecycle, backend)
  else
    match lifecycle.driver.registerGlobalBuffer calls registration.base registration.nbytes with
    | none => (lifecycle, backend)
    | some driver =>
        ({ lifecycle with driver := driver },
          { backend with registrations := backend.registrations ++ [registration] })

/-- `_get_direct_edge_staging`. -/
def getDirectEdgeStaging (ptr size : ℕ) : Lifecycle × Backend :=
  if backend.edge.isSome then (lifecycle, backend)
  else
    match lifecycle.driver.registerGlobalBuffer calls ptr size with
    | none => (lifecycle, backend)
    | some driver => ({ lifecycle with driver := driver }, { backend with edge := some ptr })

end Lifecycle

/-! ### The process -/

/-- The allocators that the engine has made, and the backends. -/
structure Process where
  lifecycle : Lifecycle
  allocators : List Allocator
  backends : List Backend

/-- The allocators of a backend. -/
inductive Member
  | main
  | staging
  | spare
deriving DecidableEq

def Backend.member (backend : Backend) : Member → Option Allocator
  | .main => backend.main
  | .staging => backend.stagingAllocator
  | .spare => backend.spare

def Backend.setMember (backend : Backend) (allocator : Allocator) : Member → Backend
  | .main => { backend with main := some allocator }
  | .staging => { backend with stagingAllocator := some allocator }
  | .spare => { backend with spare := some allocator }

/-- What happens to one backend. -/
inductive BackendEvent
  | construct (ptr size : ℕ)
  | register (registration : Registration)
  | registerEdge (ptr size : ℕ)
  /-- `HIPFile.open`, in a transfer. -/
  | openFile
  | close
  /-- The close of an allocator that the backend does not hold: explicit, or by
  `__del__` once the constructor has failed. -/
  | collect (member : Member)
deriving DecidableEq

inductive Event
  | createAllocator (ptr size : ℕ) (calls : Calls)
  | closeAllocator (index : ℕ) (calls : Calls)
  | createBackend (mode : Mode)
  | backend (index : ℕ) (event : BackendEvent) (calls : Calls)
deriving DecidableEq

/-- One step of one backend. -/
def advance (lifecycle : Lifecycle) (backend : Backend) (calls : Calls) :
    BackendEvent → Option (Lifecycle × Backend)
  | .construct ptr size => lifecycle.construct calls backend ptr size
  | .register registration =>
      if backend.stage = .live ∧ backend.directEnabled then
        some (lifecycle.ensureDirectRegistration calls backend registration)
      else none
  | .registerEdge ptr size =>
      if backend.stage = .live ∧ backend.directEnabled then
        some (lifecycle.getDirectEdgeStaging calls backend ptr size)
      else none
  | .openFile =>
      if backend.stage = .live then
        some ({ lifecycle with
          driver := (lifecycle.driver.initDriver calls).getD lifecycle.driver }, backend)
      else none
  | .close =>
      if backend.stage = .live then some (lifecycle, { backend with stage := .closing })
      else if backend.stage = .closing then some (lifecycle.close calls backend)
      else none
  | .collect member =>
      if backend.stage = .failed ∨ member = .spare then
        (backend.member member).map fun allocator =>
          let closed := lifecycle.closeAllocator calls allocator
          (closed.1, backend.setMember closed.2.1 member)
      else none

def step (process : Process) : Event → Option Process
  | .createAllocator ptr size calls =>
      let made := process.lifecycle.newAllocator calls ptr size
      some { process with
        lifecycle := made.1
        allocators := process.allocators ++ made.2.toList }
  | .closeAllocator index calls =>
      (process.allocators[index]?).map fun allocator =>
        let closed := process.lifecycle.closeAllocator calls allocator
        { process with
          lifecycle := closed.1
          allocators := process.allocators.set index closed.2.1 }
  | .createBackend mode => some { process with backends := process.backends ++ [.new mode] }
  | .backend index event calls =>
      (process.backends[index]?).bind fun backend =>
        (advance process.lifecycle backend calls event).map fun moved =>
          { process with
            lifecycle := moved.1
            backends := process.backends.set index moved.2 }

/-- A process before its first owner. -/
def Process.initial : Process := ⟨⟨⟨false, fun _ => none⟩, 0⟩, [], []⟩

end LMCacheHcu.HyFile
