import LMCacheHcu.Foundation.OrderedDict
import LMCacheHcu.Foundation.Runs

/-! # The registry of storage backends

The storage manager creates its backends through a factory, closes and recreates
single ones while it runs, and closes all of them at the end. The factory calls
the upstream one, which is outside of this repository, and adds the XDS backend.
-/

namespace LMCacheHcu.Backends

/-- A backend object with what the manager and the factory read of it: its class,
the role of its `pd_config`, and the backend whose memory it allocates. -/
structure Backend where
  serial : ℕ
  className : String
  pdRole : String
  allocator : Option ℕ
deriving DecidableEq, Repr

/-- The Python exceptions of these paths; `other` stands for those of a
constructor or of a `close`. -/
inductive PyError
  | keyError
  | assertionError
  | valueError
  | other (message : String)
deriving DecidableEq, Repr

structure Config where
  localCpu : Bool
  enablePd : Bool
  enableAsyncLoading : Bool
  xdsPath : Option String
  xdsBufferSize : Option ℕ
  xdsCpuStore : Bool
  -- `direct_enabled` of the backend before its interface is probed
  xdsDirect : Bool
deriving DecidableEq, Repr

/-! ### The factory -/

/-- One construction of an XDS backend: the object, and the exception of a check
before or after those of its allocator. -/
structure XdsConstruction where
  serial : ℕ
  early : Option PyError
  late : Option PyError
deriving DecidableEq, Repr

/-- Without a buffer of its own and without direct transfers the backend borrows
the memory of the local CPU backend. -/
def Config.posixXds (config : Config) : Bool :=
  config.xdsBufferSize.isNone && !config.xdsDirect

/-- `XdsBackend.__init__`. -/
def xdsBackendInit (config : Config) (construction : XdsConstruction)
    (localCpuBackend : Option Backend) : Except PyError Backend :=
  match construction.early with
  | some failure => .error failure
  | none =>
      if config.xdsCpuStore && localCpuBackend.isNone then .error .valueError
      else if config.posixXds && localCpuBackend.isNone then .error .assertionError
      else match construction.late with
        | some failure => .error failure
        | none => .ok {
            serial := construction.serial
            className := "XdsBackend"
            pdRole := ""
            allocator := if config.posixXds || config.xdsCpuStore then
                localCpuBackend.map Backend.serial
              else none }

/-- What one call of the factory meets: the answer of the upstream factory, and
the construction of the XDS backend. -/
structure Creation where
  original : Except PyError (OrderedDict String Backend)
  xds : XdsConstruction

/-- The local CPU backend among new backends, by its name or else by its class. -/
def localCpuAmong (backends : OrderedDict String Backend) : Option Backend :=
  (backends.find "LocalCPUBackend").or
    (backends.values.find? fun backend => backend.className = "LocalCPUBackend")

/-- `_hcu_create_storage_backends`, after the answer of the upstream factory. -/
def hcuCreateStorageBackends (config : Config) (cudaWorker : Bool) (skip : List String)
    (creation : Creation) : Except PyError (OrderedDict String Backend) :=
  match creation.original with
  | .error failure => .error failure
  | .ok backends =>
      if config.xdsPath.isNone || "XdsBackend" ∈ backends.names || "XdsBackend" ∈ skip ||
          !cudaWorker then .ok backends
      else match xdsBackendInit config creation.xds (localCpuAmong backends) with
        | .error failure => .error failure
        | .ok xds => .ok (backends.insert "XdsBackend" xds)

/-- The backends that the upstream factory has made. -/
def Creation.upstream (creation : Creation) : List (String × Backend) :=
  match creation.original with
  | .error _ => []
  | .ok backends => backends.entries

/-! ### The manager -/

structure StorageManager where
  config : Config
  cudaWorker : Bool
  storageBackends : OrderedDict String Backend
  nonAllocatorBackends : List String
  localCpuBackend : Option Backend
  allocatorBackend : Option Backend

/-- `get_non_allocator_backends`. -/
def getNonAllocatorBackends (config : Config) (backends : OrderedDict String Backend) :
    List String :=
  (backends.entries.filter fun entry =>
    !(entry.1 = "LocalCPUBackend" && !config.localCpu) &&
      !(entry.1 = "PDBackend" && entry.2.pdRole = "sender")).map Prod.fst

/-- What an operation of the manager answers. -/
inductive Reply
  | closed (found : Bool)
  | created (classes : List (String × String))
  | raised (failure : PyError)
  | updated
deriving DecidableEq, Repr

namespace StorageManager

variable (manager : StorageManager)

/-- `create_backends`. -/
def createBackends (creation : Creation) : StorageManager × Reply :=
  match hcuCreateStorageBackends manager.config manager.cudaWorker
      manager.storageBackends.names creation with
  | .error failure => (manager, .raised failure)
  | .ok new =>
      let backends := manager.storageBackends.insertAll new.entries
      ({ manager with
          storageBackends := backends
          nonAllocatorBackends := getNonAllocatorBackends manager.config backends
          localCpuBackend := (backends.find "LocalCPUBackend").or manager.localCpuBackend },
        .created (new.entries.map fun entry => (entry.1, entry.2.className)))

/-- `close_backend`. An exception of the backend's `close` is only logged. -/
def closeBackend (name : String) : StorageManager × Reply :=
  match manager.storageBackends.find name with
  | none => (manager, .closed false)
  | some _ =>
      let backends := manager.storageBackends.erase name
      ({ manager with
          storageBackends := backends
          nonAllocatorBackends := getNonAllocatorBackends manager.config backends
          localCpuBackend :=
            if name = "LocalCPUBackend" then none else manager.localCpuBackend },
        .closed true)

/-- `recreate_backend`. When the factory raises, the backend is closed and out of
the registry, and the derived references are as before. -/
def recreateBackend (name : String) (creation : Creation) : StorageManager × Reply :=
  match manager.storageBackends.find name with
  | none => (manager, .raised .keyError)
  | some _ =>
      let rest := manager.storageBackends.erase name
      match hcuCreateStorageBackends manager.config manager.cudaWorker rest.names creation with
      | .error failure => ({ manager with storageBackends := rest }, .raised failure)
      | .ok new =>
          let backends := rest.insertAll new.entries
          ({ manager with
              storageBackends := backends
              nonAllocatorBackends := getNonAllocatorBackends manager.config backends
              localCpuBackend := match backends.find "LocalCPUBackend" with
                | some cpu => some cpu
                | none => if name = "LocalCPUBackend" then none else manager.localCpuBackend },
            .created (new.entries.map fun entry => (entry.1, entry.2.className)))

end StorageManager

/-- `_get_allocator_backend`. -/
def getAllocatorBackend (config : Config) (backends : OrderedDict String Backend) :
    Except PyError (Option Backend) :=
  if config.enablePd then
    match backends.find "PDBackend" with
    | none => .error .keyError
    | some backend => .ok (some backend)
  else .ok (backends.find "LocalCPUBackend")

/-- The allocator backend of a role; a scheduler has none. -/
def roleAllocatorBackend (config : Config) (scheduler : Bool)
    (backends : OrderedDict String Backend) : Except PyError (Option Backend) :=
  if scheduler then .ok none else getAllocatorBackend config backends

/-- `StorageManager.__init__`, as far as it concerns the backends. -/
def StorageManager.init (config : Config) (cudaWorker scheduler : Bool) (creation : Creation) :
    Except PyError StorageManager :=
  let (manager, reply) :=
    (StorageManager.mk config cudaWorker .empty [] none none).createBackends creation
  match reply with
  | .raised failure => .error failure
  | _ => do
      let allocator ← roleAllocatorBackend config scheduler manager.storageBackends
      if !config.enablePd && config.enableAsyncLoading && allocator.isNone then
        .error .assertionError
      else
        .ok { manager with
          nonAllocatorBackends := getNonAllocatorBackends config manager.storageBackends
          localCpuBackend := manager.storageBackends.find "LocalCPUBackend"
          allocatorBackend := allocator }

/-! ### Closing -/

/-- The backends that others allocate with. -/
def sharedAllocatorBackends : List String := ["LocalCPUBackend", "PDBackend"]

/-- The loop of `close` with the first failure so far: the backends whose `close`
it calls, and the failure that it raises at the end. -/
def closeLoop (raises : Backend → Option PyError) :
    List (String × Backend) → Option PyError → List Backend × Option PyError
  | [], closeError => ([], closeError)
  | (name, backend) :: entries, closeError =>
      if closeError.isSome ∧ name ∈ sharedAllocatorBackends then
        closeLoop raises entries closeError
      else
        let later := closeLoop raises entries (closeError.or (raises backend))
        (backend :: later.1, later.2)

theorem closeLoop_cons (raises : Backend → Option PyError) (name : String) (backend : Backend)
    (entries : List (String × Backend)) (closeError : Option PyError) :
    closeLoop raises ((name, backend) :: entries) closeError =
      if closeError.isSome ∧ name ∈ sharedAllocatorBackends then
        closeLoop raises entries closeError
      else
        (backend :: (closeLoop raises entries (closeError.or (raises backend))).1,
          (closeLoop raises entries (closeError.or (raises backend))).2) := rfl

/-- `StorageManager.close`. -/
def StorageManager.close (manager : StorageManager) (raises : Backend → Option PyError) :
    List Backend × Option PyError :=
  closeLoop raises manager.storageBackends.entries.reverse none

/-! ### Sessions -/

/-- A manager with the history of its backends: those that a factory has made,
those that were closed, and those whose factory call failed after making them. -/
structure Session where
  manager : StorageManager
  made : List Backend
  closed : List Backend
  dropped : List Backend

inductive ManagerCall
  | createBackends (creation : Creation)
  | closeBackend (name : String)
  | recreateBackend (name : String) (creation : Creation)
  -- a change of the configuration while the manager runs
  | updateConfig (config : Config)

/-- The registry after the closing part of an operation. Its names are those
that the factory skips. -/
def Session.existing (session : Session) : ManagerCall → OrderedDict String Backend
  | .closeBackend name | .recreateBackend name _ => session.manager.storageBackends.erase name
  | _ => session.manager.storageBackends

/-- The factory call of an operation, if it comes to one. -/
def Session.creation? (session : Session) : ManagerCall → Option Creation
  | .createBackends creation => some creation
  | .recreateBackend name creation =>
      if (session.manager.storageBackends.find name).isSome then some creation else none
  | _ => none

/-- What a factory call answers. -/
def Session.create (session : Session) (call : ManagerCall) (creation : Creation) :
    Except PyError (OrderedDict String Backend) :=
  hcuCreateStorageBackends session.manager.config session.manager.cudaWorker
    (session.existing call).names creation

/-- The backend that an operation closes. -/
def Session.closing (session : Session) : ManagerCall → List Backend
  | .closeBackend name | .recreateBackend name _ =>
      (session.manager.storageBackends.find name).toList
  | _ => []

def Session.reply (session : Session) : ManagerCall → StorageManager × Reply
  | .createBackends creation => session.manager.createBackends creation
  | .closeBackend name => session.manager.closeBackend name
  | .recreateBackend name creation => session.manager.recreateBackend name creation
  | .updateConfig config => ({ session.manager with config := config }, .updated)

/-- An operation with its effect on the history. -/
def step (session : Session) (call : ManagerCall) : Option Session :=
  some {
    manager := (session.reply call).1
    made := session.made ++ (session.creation? call).toList.flatMap fun creation =>
      match session.create call creation with
      | .error _ => creation.upstream.map Prod.snd
      | .ok new => new.values
    closed := session.closed ++ session.closing call
    dropped := session.dropped ++ (session.creation? call).toList.flatMap fun creation =>
      match session.create call creation with
      | .error _ => creation.upstream.map Prod.snd
      | .ok _ => [] }

/-! ### The contract of the upstream factory -/

/-- Each backend allocates with a local CPU backend that was there before it, or
with memory of its own. -/
def DependencyFirst : Option ℕ → List (String × Backend) → Prop
  | _, [] => True
  | cpu, (name, backend) :: entries =>
      (∀ serial ∈ backend.allocator, cpu = some serial) ∧
        DependencyFirst (if name = "LocalCPUBackend" then some backend.serial else cpu) entries

/-- **The upstream factory.** It makes new objects, none for a name that it is to
skip; the local CPU backend has its name; dependants come after it. -/
structure Creation.Lawful (creation : Creation) (made : List Backend)
    (existing : OrderedDict String Backend) : Prop where
  skips : ∀ entry ∈ creation.upstream, entry.1 ∉ existing.names
  fresh : (creation.xds.serial :: creation.upstream.map fun entry => entry.2.serial).Nodup
  unused : ∀ backend ∈ made, backend.serial ∉
    creation.xds.serial :: creation.upstream.map fun entry => entry.2.serial
  named : ∀ entry ∈ creation.upstream, entry.2.className = "LocalCPUBackend" →
    entry.1 = "LocalCPUBackend"
  dependencyFirst : DependencyFirst ((existing.find "LocalCPUBackend").map Backend.serial)
    creation.upstream

/-- The factory keeps its contract in the factory call of an operation. -/
def Session.Lawful (session : Session) (call : ManagerCall) : Prop :=
  ∀ creation ∈ session.creation? call, creation.Lawful session.made (session.existing call)

end LMCacheHcu.Backends
