import LMCacheHcu.HyFile.Driver

/-! # Who holds the driver open

Allocators are counted, and buffers have reference counts. Both agree with the
records of the owners in every run; that the driver is open exactly while it has
an owner also needs that no owner closes it while there is another.
-/

namespace LMCacheHcu.HyFile

/-! ### Shares of the owners -/

/-- The reference count of a buffer. -/
def Driver.refs (driver : Driver) (ptr : ℕ) : ℤ :=
  ((driver.buffers ptr).map fun entry => (entry.2 : ℤ)).getD 0

namespace Allocator

def counts (allocator : Allocator) : ℤ := if allocator.counted then 1 else 0

def holds (allocator : Allocator) (ptr : ℕ) : ℤ :=
  if allocator.registered ∧ allocator.basePointer = ptr then 1 else 0

/-- An allocator with a registered buffer is counted. -/
def Sound (allocator : Allocator) : Prop := allocator.registered = true → allocator.counted = true

end Allocator

namespace Backend

def allocators (backend : Backend) : List Allocator :=
  backend.main.toList ++ backend.stagingAllocator.toList ++ backend.spare.toList

def counts (backend : Backend) : ℤ := (backend.allocators.map Allocator.counts).sum

/-- A backend owns the driver from its call of `init_driver` to its call of
`close_driver`, unless its constructor fails in between. -/
def ownsDriver (backend : Backend) : Bool := backend.owned && backend.stage != .failed

def owns (backend : Backend) : ℤ := if backend.ownsDriver then 1 else 0

/-- How often the backend itself has registered a buffer. -/
def registered (backend : Backend) (ptr : ℕ) : ℤ :=
  (backend.registrations.map fun registration => if registration.base = ptr then 1 else 0).sum +
    if backend.edge = some ptr then 1 else 0

def holds (backend : Backend) (ptr : ℕ) : ℤ :=
  (backend.allocators.map fun allocator => allocator.holds ptr).sum + backend.registered ptr

end Backend

namespace Process

def counts (process : Process) : ℤ :=
  (process.allocators.map Allocator.counts).sum + (process.backends.map Backend.counts).sum

/-- The number of backends that own the driver. -/
def owns (process : Process) : ℤ := (process.backends.map Backend.owns).sum

def holds (process : Process) (ptr : ℕ) : ℤ :=
  (process.allocators.map fun allocator => allocator.holds ptr).sum +
    (process.backends.map fun backend => backend.holds ptr).sum

end Process

/-! ### What is to hold, and when -/

/-- There is a live allocator or a backend that owns the driver. -/
def Process.HasOwner (process : Process) : Prop :=
  (∃ allocator ∈ process.allocators, allocator.counted = true) ∨
    ∃ backend ∈ process.backends, backend.ownsDriver = true ∨
      ∃ allocator ∈ backend.allocators, allocator.counted = true

/-- The driver is open while it has an owner or a registered buffer, and closed
when it has no owner. -/
structure DriverHeld (process : Process) : Prop where
  owner : process.HasOwner → process.lifecycle.driver.opened = true
  directBackend : ∀ backend ∈ process.backends, backend.mode = .directOnly →
    backend.stage = .live → process.lifecycle.driver.opened = true
  buffer : ∀ ptr entry, process.lifecycle.driver.buffers ptr = some entry →
    process.lifecycle.driver.opened = true
  noOwner : ¬process.HasOwner → process.lifecycle.driver.opened = false

namespace Lifecycle

variable (lifecycle : Lifecycle) (owns : ℤ) (calls : Calls)

/-- A constructor that fails for the first allocator closes the driver: this
needs that no backend owns it and that the call comes back. -/
def creationSpares (ptr size : ℕ) : Bool :=
  decide (lifecycle.activeAllocators = 0 → (lifecycle.driver.initDriver calls).isSome →
    (lifecycle.newAllocator calls ptr size).2 = none → owns = 0 ∧ calls.closes = true)

/-- Whether the close of an allocator closes the driver. -/
def closesDriver (allocator : Allocator) : Bool :=
  allocator.counted && decide (lifecycle.activeAllocators = 1) && calls.closes &&
    (!allocator.registered ||
      (lifecycle.driver.deregisterGlobalBuffer calls allocator.basePointer).isSome)

/-- The last allocator to be closed closes the driver: this needs that no backend
owns it. -/
def closeSpares (allocator : Allocator) : Bool :=
  !lifecycle.closesDriver calls allocator || decide (owns = 0)

/-- A backend that owns the driver is its only owner. -/
def soleOwner : Bool := decide (lifecycle.activeAllocators = 0 ∧ owns = 1)

/-- The same for the handler of a failed constructor, whose call has to come back. -/
def rollBackSpares (backend : Backend) : Bool :=
  match backend.stagingAllocator with
  | some allocator => lifecycle.closeSpares owns calls allocator
  | none =>
      if backend.owned then calls.closes && lifecycle.soleOwner owns
      else backend.main.all (lifecycle.closeSpares owns calls)

/-- The same for a closing backend that has given its buffers back. -/
def closeMembersSpares (backend : Backend) : Bool :=
  match backend.stagingAllocator with
  | some allocator => lifecycle.closeSpares owns calls allocator
  | none =>
      if backend.main.any fun allocator => allocator.registered || allocator.counted then
        backend.main.all (lifecycle.closeSpares owns calls)
      else !backend.owned || !calls.closes || lifecycle.soleOwner owns

/-- The condition on a step of one backend. A constructor that fails behind its
guarded part leaves the driver open: this needs another owner. -/
def advanceSpares (backend : Backend) : BackendEvent → Bool
  | .construct ptr size =>
      match backend.stage, backend.mode with
      | .allocating, .staged _ _ | .staging, .staged true _ =>
          lifecycle.creationSpares owns calls ptr size
      | .finishing, _ =>
          calls.proceeds || !backend.owned || decide (1 < lifecycle.activeAllocators + owns)
      | .rollingBack, _ => lifecycle.rollBackSpares owns calls backend
      | _, _ => true
  | .close =>
      backend.stage != .closing || !backend.registrations.isEmpty || backend.edge.isSome ||
        lifecycle.closeMembersSpares owns calls backend
  | .collect member => (backend.member member).all (lifecycle.closeSpares owns calls)
  | _ => true

end Lifecycle

/-- No step closes the driver while it has another owner, and none loses the only
owner while the driver is open. -/
def sparesOwners (process : Process) : Event → Bool
  | .createAllocator ptr size calls => process.lifecycle.creationSpares process.owns calls ptr size
  | .closeAllocator index calls =>
      process.allocators[index]?.all (process.lifecycle.closeSpares process.owns calls)
  | .createBackend _ => true
  | .backend index event calls =>
      process.backends[index]?.all fun backend =>
        process.lifecycle.advanceSpares process.owns calls backend event

/-! ### One call of the driver -/

namespace Driver

variable {driver next : Driver} {calls : Calls}

/-- Every registered buffer has a reference. -/
def Positive (driver : Driver) : Prop := ∀ ptr entry, driver.buffers ptr = some entry → 1 ≤ entry.2

theorem initDriver_some (opened : driver.initDriver calls = some next) :
    next.opened = true ∧ next.buffers = driver.buffers := by
  simp only [initDriver] at opened
  split at opened
  · cases opened
    exact ⟨by assumption, rfl⟩
  · split at opened
    · cases opened
      exact ⟨rfl, rfl⟩
    · cases opened

/-- An open driver is left as it is. -/
theorem initDriver_of_opened (opened : driver.opened = true) :
    driver.initDriver calls = some driver := if_pos opened

theorem initDriver_none (raised : driver.initDriver calls = none) : driver.opened = false := by
  simp only [initDriver] at raised
  split at raised
  · cases raised
  · simpa using ‹¬driver.opened = true›

theorem closeDriver_some (closed : driver.closeDriver calls = some next) :
    next.opened = false ∧ next.buffers = driver.buffers := by
  simp only [closeDriver] at closed
  split at closed
  · split at closed
    · cases closed
      exact ⟨rfl, rfl⟩
    · cases closed
  · cases closed
    exact ⟨by simpa using ‹¬driver.opened = true›, rfl⟩

theorem closeDriver_none (raised : driver.closeDriver calls = none) :
    driver.opened = true ∧ calls.closes = false := by
  simp only [closeDriver] at raised
  split at raised
  · split at raised
    · cases raised
    · exact ⟨by assumption, by simpa using ‹¬calls.closes = true›⟩
  · cases raised

theorem refs_update (ptr : ℕ) (entry : Option (ℕ × ℕ)) (other : ℕ) (opened : Bool) :
    (⟨opened, Function.update driver.buffers ptr entry⟩ : Driver).refs other =
      if other = ptr then (entry.map fun entry => (entry.2 : ℤ)).getD 0 else driver.refs other := by
  by_cases same : other = ptr
  · simp only [same, refs, Function.update_self, if_true]
  · simp only [if_neg same, refs, Function.update_of_ne same]

theorem positive_update {ptr : ℕ} {entry : Option (ℕ × ℕ)} {opened : Bool}
    (positive : driver.Positive) (new : ∀ found, entry = some found → 1 ≤ found.2) :
    (⟨opened, Function.update driver.buffers ptr entry⟩ : Driver).Positive := by
  intro other found here
  by_cases same : other = ptr
  · subst same
    exact new found (by simpa using here)
  · exact positive other found (by simpa [Function.update_of_ne same] using here)

/-- A registration needs an open driver and adds one reference. -/
theorem registerGlobalBuffer_some {ptr size : ℕ} (positive : driver.Positive)
    (registered : driver.registerGlobalBuffer calls ptr size = some next) :
    driver.opened = true ∧ next.opened = true ∧ next.Positive ∧
      ∀ other, next.refs other = driver.refs other + if other = ptr then 1 else 0 := by
  simp only [registerGlobalBuffer] at registered
  split at registered
  · cases registered
  rename_i notClosed
  have opened : driver.opened = true := by simpa using notClosed
  split at registered
  · rename_i oldSize refcount found
    split at registered
    · cases registered
    cases registered
    refine ⟨opened, opened, positive_update positive (fun _ here => by cases here; simp),
      fun other => ?_⟩
    rw [refs_update]
    split
    · rename_i same
      subst same
      simp [refs, found]
    · simp
  · rename_i absent
    split at registered
    · cases registered
      refine ⟨opened, opened, positive_update positive (fun _ here => by cases here; simp),
        fun other => ?_⟩
      rw [refs_update]
      split
      · rename_i same
        subst same
        simp [refs, absent]
      · simp
    · cases registered

/-- A deregistration takes one reference away, if there is one. -/
theorem deregisterGlobalBuffer_some {ptr : ℕ} (positive : driver.Positive)
    (held : 0 < driver.refs ptr)
    (deregistered : driver.deregisterGlobalBuffer calls ptr = some next) :
    next.opened = driver.opened ∧ next.Positive ∧
      ∀ other, next.refs other = driver.refs other - if other = ptr then 1 else 0 := by
  simp only [deregisterGlobalBuffer] at deregistered
  split at deregistered
  · rename_i absent
    simp [refs, absent] at held
  · rename_i size refcount found
    have atLeast := positive ptr _ found
    split at deregistered
    · cases deregistered
      refine ⟨rfl, positive_update positive (fun _ here => by cases here; simp; omega),
        fun other => ?_⟩
      rw [refs_update]
      split
      · rename_i same
        subst same
        simp only [refs, found, Option.map_some, Option.getD_some]
        omega
      · simp
    · split at deregistered
      · cases deregistered
        refine ⟨rfl, positive_update positive (fun _ here => by cases here), fun other => ?_⟩
        rw [refs_update]
        split
        · rename_i same
          subst same
          simp only [refs, found, Option.map_some, Option.getD_some, Option.map_none,
            Option.getD_none]
          simp only at atLeast
          omega
        · simp
      · cases deregistered

end Driver

/-! ### One call of an allocator -/

/-- What the owners of the process have in common: while there are any, of which
some are backends, the driver is open. -/
structure Sane (lifecycle : Lifecycle) (owns : ℤ) : Prop where
  opened : lifecycle.driver.opened = true ↔ 0 < lifecycle.activeAllocators + owns
  positive : lifecycle.driver.Positive

/-- A step that changes one holder by so much keeps the common part in step. -/
structure Effect (owns : ℤ) (before after : Lifecycle) (counts ownsMore : ℤ) (holds : ℕ → ℤ) :
    Prop where
  active : (after.activeAllocators : ℤ) = before.activeAllocators + counts
  refs : ∀ ptr, after.driver.refs ptr = before.driver.refs ptr + holds ptr
  sane : Sane after (owns + ownsMore)

theorem Effect.trans {owns : ℤ} {before middle after : Lifecycle}
    {counts counts' ownsMore ownsMore' : ℤ} {holds holds' : ℕ → ℤ}
    (first : Effect owns before middle counts ownsMore holds)
    (second : Effect (owns + ownsMore) middle after counts' ownsMore' holds') :
    Effect owns before after (counts + counts') (ownsMore + ownsMore') (holds + holds') where
  active := by rw [second.active, first.active, add_assoc]
  refs ptr := by rw [second.refs, first.refs, Pi.add_apply, add_assoc]
  sane := by simpa only [add_assoc] using second.sane

namespace Lifecycle

variable {lifecycle next : Lifecycle} {owns : ℤ} {calls : Calls}

/-- A step that leaves the common part alone. -/
theorem effect_refl (sane : Sane lifecycle owns) : Effect owns lifecycle lifecycle 0 0 0 :=
  ⟨by simp, by simp, by simpa using sane⟩

/-- Closing the driver for its only owner. -/
theorem effect_closeDriver {driver : Driver} {ownsMore : ℤ} (sane : Sane lifecycle owns)
    (closed : lifecycle.driver.closeDriver calls = some driver)
    (only : lifecycle.activeAllocators + (owns + ownsMore) = 0) :
    Effect owns lifecycle { lifecycle with driver := driver } 0 ownsMore 0 := by
  obtain ⟨opened, buffers⟩ := Driver.closeDriver_some closed
  refine ⟨by simp, fun ptr => by simp [Driver.refs, buffers], ?_, ?_⟩
  · simp [opened, only]
  · simpa only [Driver.Positive, buffers] using sane.positive

/-- Opening the driver while it is open anyway. -/
theorem effect_openFile (sane : Sane lifecycle owns)
    (owner : 0 < lifecycle.activeAllocators + owns) :
    Effect owns lifecycle { lifecycle with
      driver := (lifecycle.driver.initDriver calls).getD lifecycle.driver } 0 0 0 := by
  rw [Driver.initDriver_of_opened (sane.opened.mpr owner)]
  exact effect_refl sane

theorem effect_initDriver {driver : Driver} (sane : Sane lifecycle owns) (nonneg : 0 ≤ owns)
    (opened : lifecycle.driver.initDriver calls = some driver) :
    Effect owns lifecycle { lifecycle with driver := driver } 0 1 0 := by
  obtain ⟨isOpen, buffers⟩ := Driver.initDriver_some opened
  refine ⟨by simp, fun ptr => by simp [Driver.refs, buffers], ?_, ?_⟩
  · simp only [isOpen, true_iff]
    omega
  · simpa only [Driver.Positive, buffers] using sane.positive

theorem effect_registerGlobalBuffer {driver : Driver} {ptr size : ℕ} (sane : Sane lifecycle owns)
    (registered : lifecycle.driver.registerGlobalBuffer calls ptr size = some driver) :
    Effect owns lifecycle { lifecycle with driver := driver } 0 0
      fun other => if other = ptr then 1 else 0 := by
  obtain ⟨wasOpen, isOpen, positive, refs⟩ :=
    Driver.registerGlobalBuffer_some sane.positive registered
  refine ⟨by simp, refs, ?_, positive⟩
  have owner := sane.opened.mp wasOpen
  simp only [isOpen, true_iff]
  omega

theorem effect_deregisterGlobalBuffer {driver : Driver} {ptr : ℕ} (sane : Sane lifecycle owns)
    (held : 0 < lifecycle.driver.refs ptr)
    (deregistered : lifecycle.driver.deregisterGlobalBuffer calls ptr = some driver) :
    Effect owns lifecycle { lifecycle with driver := driver } 0 0
      fun other => -if other = ptr then 1 else 0 := by
  obtain ⟨opened, positive, refs⟩ :=
    Driver.deregisterGlobalBuffer_some sane.positive held deregistered
  refine ⟨by simp, fun other => by rw [refs]; ring, ?_, positive⟩
  simpa only [opened, add_zero] using sane.opened

/-- A successful constructor adds the share of its allocator. -/
theorem newAllocator_some {ptr size : ℕ} {allocator : Allocator} (sane : Sane lifecycle owns)
    (nonneg : 0 ≤ owns)
    (made : lifecycle.newAllocator calls ptr size = (next, some allocator)) :
    allocator.Sound ∧ allocator.counted = true ∧
      Effect owns lifecycle next allocator.counts 0 allocator.holds := by
  simp only [newAllocator] at made
  split at made
  · rename_i driver registered
    cases made
    obtain ⟨opened, wasOpened, ready⟩ := Option.bind_eq_some_iff.mp registered
    split at ready
    · have same : opened.buffers = lifecycle.driver.buffers := by
        split at wasOpened
        · exact (Driver.initDriver_some wasOpened).2
        · cases wasOpened
          rfl
      have positive : opened.Positive := by
        simpa only [Driver.Positive, same] using sane.positive
      obtain ⟨_, isOpen, positive', refs⟩ := Driver.registerGlobalBuffer_some positive ready
      refine ⟨fun _ => rfl, rfl, by simp [Allocator.counts], fun other => ?_, ?_, positive'⟩
      · rw [refs]
        simp [Driver.refs, same, Allocator.holds, eq_comm]
      · simp only [isOpen, true_iff]
        push_cast
        omega
    · cases ready
  · cases made

/-- A failed constructor that spares the owners changes nothing for them. -/
theorem newAllocator_none {ptr size : ℕ} (sane : Sane lifecycle owns)
    (spares : lifecycle.creationSpares owns calls ptr size = true)
    (failed : lifecycle.newAllocator calls ptr size = (next, none)) :
    Effect owns lifecycle next 0 0 0 := by
  have spares := of_decide_eq_true spares
  rw [failed] at spares
  simp only [newAllocator] at failed
  split at failed
  · cases failed
  · cases failed
    by_cases first : lifecycle.activeAllocators = 0
    · simp only [if_pos first]
      cases opened : lifecycle.driver.initDriver calls with
      | none =>
          have closed := Driver.initDriver_none opened
          simp only [Option.getD_none, Driver.closeDriver, closed, Bool.false_eq_true, if_false,
            Option.getD_some]
          exact effect_refl sane
      | some driver =>
          obtain ⟨none, closes⟩ := spares first (by rw [opened]; rfl) rfl
          obtain ⟨isOpen, buffers⟩ := Driver.initDriver_some opened
          simp only [Option.getD_some, Driver.closeDriver, isOpen, closes, if_true]
          refine ⟨by simp, fun ptr => by simp [Driver.refs, buffers], ?_, ?_⟩
          · simp [first, none]
          · simpa only [Driver.Positive, buffers] using sane.positive
    · simp only [if_neg first, Option.getD_some]
      exact effect_refl sane

/-- The first half of a close, in which the buffer is given back. -/
theorem effect_giveBack {allocator : Allocator} {driver : Driver} (sane : Sane lifecycle owns)
    (held : ∀ ptr, allocator.holds ptr ≤ lifecycle.driver.refs ptr)
    (deregistered : (if allocator.registered then
      lifecycle.driver.deregisterGlobalBuffer calls allocator.basePointer
      else some lifecycle.driver) = some driver) :
    Effect owns lifecycle { lifecycle with driver := driver } 0 0 fun ptr => -allocator.holds ptr := by
  cases registered : allocator.registered with
  | true =>
      simp only [registered, if_true] at deregistered
      have own : 0 < lifecycle.driver.refs allocator.basePointer := by
        have atLeast := held allocator.basePointer
        simp only [Allocator.holds, registered, and_self, if_true] at atLeast
        omega
      have effect := effect_deregisterGlobalBuffer sane own deregistered
      simpa only [Allocator.holds, registered, true_and, eq_comm] using effect
  | false =>
      simp only [registered, Bool.false_eq_true, if_false] at deregistered
      cases deregistered
      have none : (fun ptr => -allocator.holds ptr) = (0 : ℕ → ℤ) := by
        funext ptr
        simp [Allocator.holds, registered]
      rw [none]
      exact effect_refl sane

/-- The second half, in which a counted allocator is taken off the count. -/
theorem effect_countDown {driver : Driver} (sane : Sane lifecycle owns) (nonneg : 0 ≤ owns)
    (active : 1 ≤ lifecycle.activeAllocators)
    (spares : lifecycle.activeAllocators = 1 → calls.closes = true → owns = 0)
    (closed : (if lifecycle.activeAllocators = 1 then lifecycle.driver.closeDriver calls
      else some lifecycle.driver) = some driver) :
    Effect owns lifecycle ⟨driver, lifecycle.activeAllocators - 1⟩ (-1) 0 0 := by
  have isOpen : lifecycle.driver.opened = true := sane.opened.mpr (by omega)
  by_cases last : lifecycle.activeAllocators = 1
  · rw [if_pos last] at closed
    have closes : calls.closes = true := by
      cases closes : calls.closes with
      | true => rfl
      | false => simp [Driver.closeDriver, isOpen, closes] at closed
    obtain ⟨opened, buffers⟩ := Driver.closeDriver_some closed
    refine ⟨by simp [last], fun ptr => by simp [Driver.refs, buffers], ?_, ?_⟩
    · simp [opened, last, spares last closes]
    · simpa only [Driver.Positive, buffers] using sane.positive
  · rw [if_neg last] at closed
    cases closed
    refine ⟨by push_cast [active]; ring, by simp, ?_, sane.positive⟩
    simp only [isOpen, true_iff]
    omega

/-- A close that spares the backends takes away the share that it frees. -/
theorem closeAllocator_effect {allocator left : Allocator} {done : Bool}
    (sane : Sane lifecycle owns) (nonneg : 0 ≤ owns) (sound : allocator.Sound)
    (active : allocator.counts ≤ lifecycle.activeAllocators)
    (held : ∀ ptr, allocator.holds ptr ≤ lifecycle.driver.refs ptr)
    (spares : lifecycle.closeSpares owns calls allocator = true)
    (closed : lifecycle.closeAllocator calls allocator = (next, left, done)) :
    left.Sound ∧ (done = true → left.counts = 0 ∧ left.holds = 0) ∧
      Effect owns lifecycle next (left.counts - allocator.counts) 0
        (fun ptr => left.holds ptr - allocator.holds ptr) := by
  simp only [closeAllocator] at closed
  split at closed
  · cases closed
    refine ⟨sound, by simp, ?_⟩
    simp only [sub_self]
    exact effect_refl sane
  rename_i driver deregistered
  have first := effect_giveBack sane held deregistered
  split at closed
  · rename_i uncounted
    cases closed
    refine ⟨fun _ => by contradiction, fun _ => ⟨by simp [Allocator.counts, uncounted], ?_⟩, ?_⟩
    · funext ptr
      simp [Allocator.holds]
    · simpa [Allocator.holds, Allocator.counts] using first
  rename_i isCounted
  have counted : allocator.counted = true := by simpa using isCounted
  have atLeast : 1 ≤ lifecycle.activeAllocators := by
    simp only [Allocator.counts, counted, if_true] at active
    omega
  split at closed
  · cases closed
    refine ⟨fun _ => by contradiction, by simp, ?_⟩
    simpa [Allocator.holds, Allocator.counts] using first
  · rename_i last closedDriver
    cases closed
    have spared : lifecycle.activeAllocators = 1 → calls.closes = true → owns = 0 := by
      intro last closes
      cases registered : allocator.registered with
      | false => simpa [closeSpares, closesDriver, counted, last, closes, registered] using spares
      | true =>
          simp only [registered, if_true] at deregistered
          simpa [closeSpares, closesDriver, counted, last, closes, registered, deregistered]
            using spares
    have given : Sane { lifecycle with driver := driver } owns := by simpa using first.sane
    have second := effect_countDown given nonneg atLeast spared closedDriver
    refine ⟨fun _ => by contradiction, fun _ => ⟨rfl, ?_⟩, ?_⟩
    · funext ptr
      simp [Allocator.holds]
    · have both := first.trans (by simpa using second)
      simpa [Allocator.holds, Allocator.counts, counted] using both

end Lifecycle

end LMCacheHcu.HyFile
