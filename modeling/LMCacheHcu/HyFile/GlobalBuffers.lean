import LMCacheHcu.HyFile.Driver

/-! # Global buffers

`HIPFile` registers a buffer with the driver once for all its handles and counts
who asked for it. The table of counts, the sizes in it and what the driver holds
are three views of one thing, and every library call between them may fail. A
device pointer and a size are what `c_void_p` and `c_size_t` hold.
-/

namespace LMCacheHcu.HyFile.GlobalBuffers

/-- `HIPfileError_t`, the answer of a library call. -/
structure HIPfileError where
  err : Int32
  hipErr : Int32
deriving DecidableEq

/-- The call has succeeded: `HIP_FILE_SUCCESS`. -/
def HIPfileError.success (error : HIPfileError) : Bool := error.err = 0

/-- `HIPfileException`, whose text is the one it is given. -/
structure HIPfileException where
  errorCode : Int32
  hipError : Int32
  message : String
deriving DecidableEq

/-- What `ctypes` raises on a library that it cannot load, or that lacks one of
the functions. -/
inductive LoadError
  | osError
  | attributeError
deriving DecidableEq

inductive Error
  | fileNotFoundError (message : String)
  | load (error : LoadError)
  | runtimeError (message : String)
  | valueError (message : String)
  | hipfileException (error : HIPfileException)
deriving DecidableEq

/-- What the system answers during one call. -/
structure Environment where
  /-- `os.path.exists` -/
  pathExists : String → Bool
  /-- `ctypes.CDLL` and `_setup_functions` -/
  loads : String → Except LoadError Unit
  /-- `hipFileBufRegister` -/
  bufRegister : HIPfileError
  /-- `hipFileBufDeregister` -/
  bufDeregister : HIPfileError

/-- A call into the driver, with its answer. -/
inductive DriverCall
  | bufRegister (devPtr size : UInt64) (flags : Int32) (answer : HIPfileError)
  | bufDeregister (devPtr : UInt64) (answer : HIPfileError)
deriving DecidableEq

/-- The class attributes of `HIPFile`, with the calls into the driver so far. -/
structure HIPFile where
  /-- `_lib_instance` is not `None`. -/
  libInstance : Bool
  /-- `_driver_opened` -/
  driverOpened : Bool
  /-- `_global_registered_buffers`: size and reference count by base pointer. -/
  globalRegisteredBuffers : UInt64 → Option (UInt64 × ℕ)
  driverCalls : List DriverCall

/-- How a call ends: it returns, or raises. -/
abbrev Outcome := Except Error Unit

/-- `hex`. -/
def hex (value : UInt64) : String := "0x" ++ String.ofList (Nat.toDigits 16 value.toNat)

/-! ### The library -/

/-- `HIPFileLib.__init__` without a path. -/
def hipFileLib (environment : Environment) : Outcome :=
  match ["/opt/hyhal/lib/libhyfile.so", "/usr/lib/libhyfile.so",
      "/usr/local/lib/libhyfile.so"].find? environment.pathExists with
  | none =>
      .error (.fileNotFoundError "Cannot find libhyfile.so. Please specify lib_path explicitly.")
  | some libPath => (environment.loads libPath).mapError .load

namespace HIPFile

variable (hipFile : HIPFile) (environment : Environment)

/-- `HIPFileLib.register_buffer`. -/
def registerBuffer (devPtr size : UInt64) (flags : Int32) : Outcome × HIPFile :=
  let err := environment.bufRegister
  let called := { hipFile with
    driverCalls := hipFile.driverCalls ++ [.bufRegister devPtr size flags err] }
  if err.err ≠ 0 then
    (.error (.hipfileException
      ⟨err.err, err.hipErr, s!"Failed to register buffer (ptr={hex devPtr})"⟩), called)
  else (.ok (), called)

/-- `HIPFileLib.deregister_buffer`. -/
def deregisterBuffer (devPtr : UInt64) : Outcome × HIPFile :=
  let err := environment.bufDeregister
  let called := { hipFile with
    driverCalls := hipFile.driverCalls ++ [.bufDeregister devPtr err] }
  if err.err ≠ 0 then
    (.error (.hipfileException
      ⟨err.err, err.hipErr, s!"Failed to deregister buffer (ptr={hex devPtr})"⟩), called)
  else (.ok (), called)

/-- An assignment to an entry of the table, or its removal. -/
def setBuffer (devPtr : UInt64) (entry : Option (UInt64 × ℕ)) : HIPFile :=
  { hipFile with
    globalRegisteredBuffers := Function.update hipFile.globalRegisteredBuffers devPtr entry }

/-- The library is loaded when it is missing. -/
def ensureLib : Outcome × HIPFile :=
  if hipFile.libInstance then (.ok (), hipFile)
  else
    match hipFileLib environment with
    | .error error => (.error error, hipFile)
    | .ok () => (.ok (), { hipFile with libInstance := true })

/-- The text of the refusal of another size. -/
def differentSize (devPtr oldSize size : UInt64) : String :=
  s!"Buffer {hex devPtr} already registered with different size: {oldSize} != {size}"

/-- `register_global_buffer`. -/
def registerGlobalBuffer (devPtr size : UInt64) (flags : Int32) : Outcome × HIPFile :=
  match hipFile.ensureLib environment with
  | (.error error, hipFile) => (.error error, hipFile)
  | (.ok (), hipFile) =>
      if !hipFile.driverOpened then
        (.error (.runtimeError "Driver not opened. Call HIPFile.init_driver() first."), hipFile)
      else
        match hipFile.globalRegisteredBuffers devPtr with
        | some (oldSize, refcount) =>
            if oldSize ≠ size then
              (.error (.valueError (differentSize devPtr oldSize size)), hipFile)
            else (.ok (), hipFile.setBuffer devPtr (some (size, refcount + 1)))
        | none =>
            match hipFile.registerBuffer environment devPtr size flags with
            | (.error error, hipFile) => (.error error, hipFile)
            | (.ok (), hipFile) => (.ok (), hipFile.setBuffer devPtr (some (size, 1)))

/-- `deregister_global_buffer`. -/
def deregisterGlobalBuffer (devPtr : UInt64) : Outcome × HIPFile :=
  match hipFile.globalRegisteredBuffers devPtr with
  | none => (.ok (), hipFile)
  | some (size, refcount) =>
      if refcount > 1 then (.ok (), hipFile.setBuffer devPtr (some (size, refcount - 1)))
      else
        let deregistered :=
          if hipFile.libInstance then hipFile.deregisterBuffer environment devPtr
          else (.ok (), hipFile)
        match deregistered with
        | (.error error, hipFile) => (.error error, hipFile)
        | (.ok (), hipFile) => (.ok (), hipFile.setBuffer devPtr none)

end HIPFile

/-! ### Sequences of calls -/

inductive Call
  | register (devPtr size : UInt64) (flags : Int32)
  | deregister (devPtr : UInt64)
deriving DecidableEq

/-- One call, with how it ends. -/
def perform (hipFile : HIPFile) (environment : Environment) : Call → Outcome × HIPFile
  | .register devPtr size flags => hipFile.registerGlobalBuffer environment devPtr size flags
  | .deregister devPtr => hipFile.deregisterGlobalBuffer environment devPtr

/-- The calls one after the other, whatever becomes of each. -/
def run : List (Call × Environment) → HIPFile → List (Call × Outcome) × HIPFile
  | [], hipFile => ([], hipFile)
  | (call, environment) :: calls, hipFile =>
      let performed := perform hipFile environment call
      let rest := run calls performed.2
      ((call, performed.1) :: rest.1, rest.2)

/-- What one call that ended so adds to the references to a buffer. -/
def countCall (devPtr : UInt64) (count : ℕ) : Call × Outcome → ℕ
  | (.register ptr _ _, .ok ()) => if ptr = devPtr then count + 1 else count
  | (.deregister ptr, .ok ()) => if ptr = devPtr then count - 1 else count
  | _ => count

/-- The references to a buffer: the registrations that returned, less those that
a later deregistration gave back. -/
def referenceCount (history : List (Call × Outcome)) (devPtr : UInt64) : ℕ :=
  history.foldl (countCall devPtr) 0

/-- What one call into the driver makes of the buffers that it holds. -/
def DriverCall.apply (buffers : UInt64 → Option UInt64) : DriverCall → UInt64 → Option UInt64
  | .bufRegister devPtr size _ answer =>
      if answer.success then Function.update buffers devPtr (some size) else buffers
  | .bufDeregister devPtr answer =>
      if answer.success then Function.update buffers devPtr none else buffers

/-- The buffers registered with the driver, with their sizes. -/
def driverBuffers (calls : List DriverCall) : UInt64 → Option UInt64 :=
  calls.foldl DriverCall.apply fun _ => none

/-- Before the first buffer. -/
def HIPFile.initial (libInstance driverOpened : Bool) : HIPFile :=
  ⟨libInstance, driverOpened, fun _ => none, []⟩

/-! ### What one call does -/

/-- A call into the driver that has changed nothing there. -/
def DriverCall.failed : DriverCall → Prop
  | .bufRegister _ _ _ answer => answer.success = false
  | .bufDeregister _ answer => answer.success = false

/-- The ways a call can go. -/
inductive Effect (hipFile : HIPFile) : Call → Outcome → HIPFile → Prop
  /-- The call raises, behind a failed call into the driver or before any. -/
  | raised {call : Call} (error : Error) (libInstance : Bool) (failed : List DriverCall)
      (all : ∀ driverCall ∈ failed, driverCall.failed)
      (kept : hipFile.libInstance = true → libInstance = true) :
      Effect hipFile call (.error error) { hipFile with
        libInstance := libInstance, driverCalls := hipFile.driverCalls ++ failed }
  | first {devPtr size : UInt64} {flags : Int32} {answer : HIPfileError}
      (absent : hipFile.globalRegisteredBuffers devPtr = none)
      (opened : hipFile.driverOpened = true) (succeeds : answer.success = true) :
      Effect hipFile (.register devPtr size flags) (.ok ())
        ({ hipFile with
          libInstance := true
          driverCalls := hipFile.driverCalls ++
            [DriverCall.bufRegister devPtr size flags answer] }.setBuffer devPtr (some (size, 1)))
  | again {devPtr size : UInt64} {flags : Int32} {refcount : ℕ}
      (present : hipFile.globalRegisteredBuffers devPtr = some (size, refcount)) :
      Effect hipFile (.register devPtr size flags) (.ok ())
        ({ hipFile with libInstance := true }.setBuffer devPtr (some (size, refcount + 1)))
  | unmatched {devPtr : UInt64} (absent : hipFile.globalRegisteredBuffers devPtr = none) :
      Effect hipFile (.deregister devPtr) (.ok ()) hipFile
  | fewer {devPtr size : UInt64} {refcount : ℕ}
      (present : hipFile.globalRegisteredBuffers devPtr = some (size, refcount))
      (several : 1 < refcount) :
      Effect hipFile (.deregister devPtr) (.ok ())
        (hipFile.setBuffer devPtr (some (size, refcount - 1)))
  | last {devPtr size : UInt64} {refcount : ℕ} {answer : HIPfileError}
      (present : hipFile.globalRegisteredBuffers devPtr = some (size, refcount))
      (single : refcount ≤ 1) (succeeds : answer.success = true) :
      Effect hipFile (.deregister devPtr) (.ok ())
        ({ hipFile with
          driverCalls := hipFile.driverCalls ++
            [DriverCall.bufDeregister devPtr answer] }.setBuffer devPtr none)
  /-- Without a library there is no driver to call. -/
  | forgotten {devPtr size : UInt64} {refcount : ℕ}
      (present : hipFile.globalRegisteredBuffers devPtr = some (size, refcount))
      (missing : hipFile.libInstance = false) :
      Effect hipFile (.deregister devPtr) (.ok ()) (hipFile.setBuffer devPtr none)

section Steps

variable (hipFile : HIPFile) (environment : Environment)

theorem ensureLib_cases :
    (∃ error, hipFile.ensureLib environment = (.error error, hipFile)) ∨
      hipFile.ensureLib environment = (.ok (), { hipFile with libInstance := true }) := by
  unfold HIPFile.ensureLib
  split
  · rename_i loaded
    right
    rw [← loaded]
  · split
    · exact .inl ⟨_, rfl⟩
    · exact .inr rfl

theorem registerBuffer_cases (devPtr size : UInt64) (flags : Int32) :
    (∃ error, environment.bufRegister.success = false ∧
      hipFile.registerBuffer environment devPtr size flags = (.error error, { hipFile with
        driverCalls := hipFile.driverCalls ++
          [.bufRegister devPtr size flags environment.bufRegister] })) ∨
    environment.bufRegister.success = true ∧
      hipFile.registerBuffer environment devPtr size flags = (.ok (), { hipFile with
        driverCalls := hipFile.driverCalls ++
          [.bufRegister devPtr size flags environment.bufRegister] }) := by
  by_cases success : environment.bufRegister.err = 0
  · right
    simp [HIPFile.registerBuffer, HIPfileError.success, success]
  · left
    simp [HIPFile.registerBuffer, HIPfileError.success, success]

theorem deregisterBuffer_cases (devPtr : UInt64) :
    (∃ error, environment.bufDeregister.success = false ∧
      hipFile.deregisterBuffer environment devPtr = (.error error, { hipFile with
        driverCalls := hipFile.driverCalls ++
          [.bufDeregister devPtr environment.bufDeregister] })) ∨
    environment.bufDeregister.success = true ∧
      hipFile.deregisterBuffer environment devPtr = (.ok (), { hipFile with
        driverCalls := hipFile.driverCalls ++
          [.bufDeregister devPtr environment.bufDeregister] }) := by
  by_cases success : environment.bufDeregister.err = 0
  · right
    simp [HIPFile.deregisterBuffer, HIPfileError.success, success]
  · left
    simp [HIPFile.deregisterBuffer, HIPfileError.success, success]

/-- A call that raises before the driver is called. -/
theorem Effect.refused (call : Call) (error : Error) (libInstance : Bool)
    (kept : hipFile.libInstance = true → libInstance = true) :
    Effect hipFile call (.error error) { hipFile with libInstance := libInstance } := by
  simpa using @Effect.raised hipFile call error libInstance []
    (fun _ member => absurd member List.not_mem_nil) kept

theorem registerGlobalBuffer_effect (devPtr size : UInt64) (flags : Int32) :
    Effect hipFile (.register devPtr size flags)
      (hipFile.registerGlobalBuffer environment devPtr size flags).1
      (hipFile.registerGlobalBuffer environment devPtr size flags).2 := by
  obtain ⟨error, failed⟩ | loaded := ensureLib_cases hipFile environment
  · simp only [HIPFile.registerGlobalBuffer, failed]
    exact Effect.refused hipFile _ error hipFile.libInstance id
  obtain ⟨libInstance, driverOpened, buffers, driverCalls⟩ := hipFile
  simp only [HIPFile.registerGlobalBuffer, loaded]
  cases driverOpened with
  | false => exact Effect.refused ⟨libInstance, false, buffers, driverCalls⟩ _ _ true fun _ => rfl
  | true =>
      simp only [Bool.not_true, Bool.false_eq_true, ↓reduceIte]
      cases held : buffers devPtr with
      | some entry =>
          obtain ⟨oldSize, refcount⟩ := entry
          by_cases same : oldSize = size
          · subst same
            simp only [ne_eq, not_true_eq_false, ↓reduceIte]
            exact .again held
          · simp only [ne_eq, same, not_false_eq_true, ↓reduceIte]
            exact Effect.refused ⟨libInstance, true, buffers, driverCalls⟩ _ _ true fun _ => rfl
      | none =>
          obtain ⟨error, fails, called⟩ | ⟨succeeds, called⟩ :=
            registerBuffer_cases ⟨true, true, buffers, driverCalls⟩ environment devPtr size flags
          · simp only [called]
            exact .raised error true [_] (List.forall_mem_singleton.mpr fails) fun _ => rfl
          · simp only [called]
            exact .first held rfl succeeds

theorem deregisterGlobalBuffer_effect (devPtr : UInt64) :
    Effect hipFile (.deregister devPtr) (hipFile.deregisterGlobalBuffer environment devPtr).1
      (hipFile.deregisterGlobalBuffer environment devPtr).2 := by
  cases held : hipFile.globalRegisteredBuffers devPtr with
  | none =>
      simp only [HIPFile.deregisterGlobalBuffer, held]
      exact .unmatched held
  | some entry =>
      obtain ⟨size, refcount⟩ := entry
      by_cases several : refcount > 1
      · simp only [HIPFile.deregisterGlobalBuffer, held, several, ↓reduceIte]
        exact .fewer held several
      simp only [HIPFile.deregisterGlobalBuffer, held, several, ↓reduceIte]
      cases loaded : hipFile.libInstance with
      | false =>
          simp only [Bool.false_eq_true, ↓reduceIte]
          exact .forgotten held loaded
      | true =>
          obtain ⟨error, fails, called⟩ | ⟨succeeds, called⟩ :=
            deregisterBuffer_cases hipFile environment devPtr
          · simp only [↓reduceIte, called]
            exact .raised error hipFile.libInstance [_] (List.forall_mem_singleton.mpr fails) id
          · simp only [↓reduceIte, called]
            exact .last held (by omega) succeeds

/-- **One call.** -/
theorem perform_effect (call : Call) :
    Effect hipFile call (perform hipFile environment call).1
      (perform hipFile environment call).2 := by
  cases call with
  | register devPtr size flags =>
      exact registerGlobalBuffer_effect hipFile environment devPtr size flags
  | deregister devPtr => exact deregisterGlobalBuffer_effect hipFile environment devPtr

end Steps

/-! ### The three views agree -/

/-- The table holds the buffers that are registered with the driver, with their
sizes there and their reference counts, and a buffer is registered while there
are references to it. -/
structure Counted (history : List (Call × Outcome)) (hipFile : HIPFile) : Prop where
  registered : ∀ devPtr, (driverBuffers hipFile.driverCalls devPtr).isSome ↔
    0 < referenceCount history devPtr
  table : ∀ devPtr, hipFile.globalRegisteredBuffers devPtr =
    (driverBuffers hipFile.driverCalls devPtr).map fun size =>
      (size, referenceCount history devPtr)
  /-- Only an opened driver has been given buffers. -/
  opened : ∀ devPtr, (hipFile.globalRegisteredBuffers devPtr).isSome →
    hipFile.libInstance = true ∧ hipFile.driverOpened = true

theorem counted_initial (libInstance driverOpened : Bool) :
    Counted [] (.initial libInstance driverOpened) where
  registered := fun _ => by simp [HIPFile.initial, driverBuffers, referenceCount]
  table := fun _ => rfl
  opened := fun _ present => by simp [HIPFile.initial] at present

@[simp] theorem referenceCount_concat (history : List (Call × Outcome)) (call : Call × Outcome)
    (devPtr : UInt64) :
    referenceCount (history ++ [call]) devPtr =
      countCall devPtr (referenceCount history devPtr) call := by
  simp [referenceCount]

@[simp] theorem driverBuffers_concat (calls : List DriverCall) (call : DriverCall) :
    driverBuffers (calls ++ [call]) = call.apply (driverBuffers calls) := by
  simp [driverBuffers]

@[simp] theorem countCall_error (devPtr : UInt64) (count : ℕ) (call : Call) (error : Error) :
    countCall devPtr count (call, .error error) = count := by
  cases call <;> rfl

/-- A call that returns counts for one buffer alone. -/
theorem referenceCount_returned (history : List (Call × Outcome)) {call : Call} {outcome : Outcome}
    {devPtr : UInt64} {count : ℕ} (counting : ℕ → ℕ)
    (returned : ∀ other before, countCall other before (call, outcome) =
      if devPtr = other then counting before else before)
    (here : counting (referenceCount history devPtr) = count) (other : UInt64) :
    referenceCount (history ++ [(call, outcome)]) other =
      if devPtr = other then count else referenceCount history other := by
  rw [referenceCount_concat, returned]
  by_cases same : devPtr = other
  · subst same
    simp only [↓reduceIte, here]
  · simp only [same, ↓reduceIte]

/-- Failed calls leave the driver as it was. -/
theorem driverBuffers_append_failed (calls : List DriverCall) {failed : List DriverCall}
    (all : ∀ call ∈ failed, call.failed) : driverBuffers (calls ++ failed) = driverBuffers calls := by
  induction failed generalizing calls with
  | nil => rw [List.append_nil]
  | cons call failed ih =>
      obtain ⟨here, rest⟩ := List.forall_mem_cons.mp all
      have unchanged : driverBuffers (calls ++ [call]) = driverBuffers calls := by
        rw [driverBuffers_concat]
        cases call <;> simp_all [DriverCall.apply, DriverCall.failed]
      rw [← List.singleton_append, ← List.append_assoc, ih _ rest, unchanged]

namespace Counted

variable {history : List (Call × Outcome)} {hipFile after : HIPFile} {call : Call}
  {outcome : Outcome} {devPtr size : UInt64} {refcount : ℕ}

theorem of_present (counted : Counted history hipFile)
    (present : hipFile.globalRegisteredBuffers devPtr = some (size, refcount)) :
    driverBuffers hipFile.driverCalls devPtr = some size ∧
      referenceCount history devPtr = refcount := by
  rw [counted.table, Option.map_eq_some_iff] at present
  obtain ⟨held, registered, same⟩ := present
  cases same
  exact ⟨registered, rfl⟩

theorem of_absent (counted : Counted history hipFile)
    (absent : hipFile.globalRegisteredBuffers devPtr = none) :
    driverBuffers hipFile.driverCalls devPtr = none ∧ referenceCount history devPtr = 0 := by
  rw [counted.table, Option.map_eq_none_iff] at absent
  refine ⟨absent, Nat.eq_zero_of_not_pos fun positive => ?_⟩
  have registered := (counted.registered devPtr).mpr positive
  rw [absent] at registered
  cases registered

theorem positive (counted : Counted history hipFile)
    (present : hipFile.globalRegisteredBuffers devPtr = some (size, refcount)) : 0 < refcount := by
  obtain ⟨registered, rfl⟩ := counted.of_present present
  exact (counted.registered devPtr).mp (by rw [registered]; rfl)

/-- A buffer that has an entry, or has just got one, has been given to an opened driver. -/
theorem opened_update (counted : Counted history hipFile) {entry : Option (UInt64 × ℕ)}
    (changed : after.globalRegisteredBuffers =
      Function.update hipFile.globalRegisteredBuffers devPtr entry)
    (flags : hipFile.libInstance = true → after.libInstance = true)
    (kept : after.driverOpened = hipFile.driverOpened)
    (here : entry.isSome → after.libInstance = true ∧ after.driverOpened = true) :
    ∀ other, (after.globalRegisteredBuffers other).isSome →
      after.libInstance = true ∧ after.driverOpened = true := by
  intro other present
  rw [changed] at present
  by_cases same : other = devPtr
  · subst same
    exact here (by simpa using present)
  · rw [Function.update_of_ne same] at present
    obtain ⟨loaded, opened⟩ := counted.opened other present
    exact ⟨flags loaded, kept.trans opened⟩

/-- Give one buffer another entry in all three views. -/
theorem update (counted : Counted history hipFile) (held : Option UInt64) (count : ℕ)
    (changed : after.globalRegisteredBuffers =
      Function.update hipFile.globalRegisteredBuffers devPtr (held.map fun size => (size, count)))
    (driver : driverBuffers after.driverCalls =
      Function.update (driverBuffers hipFile.driverCalls) devPtr held)
    (counts : ∀ other, referenceCount (history ++ [(call, outcome)]) other =
      if devPtr = other then count else referenceCount history other)
    (positive : held.isSome ↔ 0 < count)
    (flags : hipFile.libInstance = true → after.libInstance = true)
    (kept : after.driverOpened = hipFile.driverOpened)
    (here : held.isSome → after.libInstance = true ∧ after.driverOpened = true) :
    Counted (history ++ [(call, outcome)]) after where
  registered := by
    intro other
    rw [driver, counts]
    by_cases same : devPtr = other
    · subst same
      simpa using positive
    · simpa [same, Function.update_of_ne (Ne.symm same)] using counted.registered other
  table := by
    intro other
    rw [changed, driver, counts]
    by_cases same : devPtr = other
    · subst same
      simp
    · simpa [same, Function.update_of_ne (Ne.symm same)] using counted.table other
  opened := counted.opened_update changed flags kept (by simpa using here)

/-- **The step.** However a call goes, the views agree again behind it. -/
theorem step (counted : Counted history hipFile) (effect : Effect hipFile call outcome after) :
    Counted (history ++ [(call, outcome)]) after := by
  cases effect with
  | raised error libInstance failed all kept =>
      have same := driverBuffers_append_failed hipFile.driverCalls all
      refine ⟨fun devPtr => ?_, fun devPtr => ?_, fun devPtr present => ?_⟩
      · simpa [same] using counted.registered devPtr
      · simpa [same] using counted.table devPtr
      · obtain ⟨loaded, opened⟩ := counted.opened devPtr present
        exact ⟨kept loaded, opened⟩
  | @first devPtr size flags answer absent opened succeeds =>
      obtain ⟨-, none⟩ := counted.of_absent absent
      apply counted.update (some size) 1 rfl
      · simp [HIPFile.setBuffer, DriverCall.apply, succeeds]
      · exact referenceCount_returned history (· + 1) (fun _ _ => rfl) (by rw [none])
      · simp
      · exact fun _ => rfl
      · rfl
      · exact fun _ => ⟨rfl, opened⟩
  | @again devPtr size flags refcount present =>
      obtain ⟨registered, counts⟩ := counted.of_present present
      obtain ⟨-, opened⟩ := counted.opened devPtr (by rw [present]; rfl)
      apply counted.update (some size) (refcount + 1) rfl
      · exact (Function.update_eq_self_iff.mpr registered.symm).symm
      · exact referenceCount_returned history (· + 1) (fun _ _ => rfl) (by rw [counts])
      · simp
      · exact fun _ => rfl
      · rfl
      · exact fun _ => ⟨rfl, opened⟩
  | @unmatched devPtr absent =>
      obtain ⟨unregistered, none⟩ := counted.of_absent absent
      apply counted.update Option.none 0
      · exact (Function.update_eq_self_iff.mpr absent.symm).symm
      · exact (Function.update_eq_self_iff.mpr unregistered.symm).symm
      · exact referenceCount_returned history (· - 1) (fun _ _ => rfl) (by rw [none])
      · simp
      · exact id
      · rfl
      · exact fun present => absurd present (by simp)
  | @fewer devPtr size refcount present several =>
      obtain ⟨registered, counts⟩ := counted.of_present present
      apply counted.update (some size) (refcount - 1) rfl
      · exact (Function.update_eq_self_iff.mpr registered.symm).symm
      · exact referenceCount_returned history (· - 1) (fun _ _ => rfl) (by rw [counts])
      · simpa using several
      · exact id
      · rfl
      · exact fun _ => counted.opened devPtr (by rw [present]; rfl)
  | @last devPtr size refcount answer present single succeeds =>
      obtain ⟨-, counts⟩ := counted.of_present present
      apply counted.update Option.none 0 rfl
      · simp [HIPFile.setBuffer, DriverCall.apply, succeeds]
      · exact referenceCount_returned history (· - 1) (fun _ _ => rfl)
          (by rw [counts, Nat.sub_eq_zero_of_le single])
      · simp
      · exact id
      · rfl
      · exact fun present => absurd present (by simp)
  | @forgotten devPtr size refcount present missing =>
      have loaded := (counted.opened devPtr (by rw [present]; rfl)).1
      rw [missing] at loaded
      cases loaded

end Counted

theorem counted_run {history : List (Call × Outcome)} {hipFile : HIPFile}
    (counted : Counted history hipFile) (calls : List (Call × Environment)) :
    Counted (history ++ (run calls hipFile).1) (run calls hipFile).2 := by
  induction calls generalizing history hipFile with
  | nil => simpa [run] using counted
  | cons first calls ih =>
      obtain ⟨call, environment⟩ := first
      have stepped := counted.step (perform_effect hipFile environment call)
      simpa [run, List.append_assoc] using ih stepped

/-! ### Guarantees -/

/-- The driver gives a buffer up between two states. -/
def Deregisters (before after : HIPFile) (devPtr : UInt64) : Prop :=
  ∃ answer, answer.success = true ∧
    after.driverCalls = before.driverCalls ++ [.bufDeregister devPtr answer]

section Guarantees

variable {history : List (Call × Outcome)} {hipFile after : HIPFile} {call : Call}
  {outcome : Outcome}

/-- A call that raises leaves the table and the driver as they were. -/
theorem unchanged_of_raised (effect : Effect hipFile call outcome after) {error : Error}
    (raised : outcome = .error error) :
    after.globalRegisteredBuffers = hipFile.globalRegisteredBuffers ∧
      driverBuffers after.driverCalls = driverBuffers hipFile.driverCalls := by
  cases effect with
  | raised error libInstance failed all kept =>
      exact ⟨rfl, driverBuffers_append_failed hipFile.driverCalls all⟩
  | first | again | unmatched | fewer | last | forgotten => cases raised

/-- A buffer is given up with its last reference. -/
theorem deregisters_iff (counted : Counted history hipFile)
    (effect : Effect hipFile call outcome after) (devPtr : UInt64) :
    Deregisters hipFile after devPtr ↔ 0 < referenceCount history devPtr ∧
      referenceCount (history ++ [(call, outcome)]) devPtr = 0 := by
  rw [referenceCount_concat]
  cases effect with
  | raised error libInstance failed all kept =>
      rw [countCall_error]
      refine iff_of_false ?_ (by omega)
      rintro ⟨answer, succeeds, called⟩
      have here := all (.bufDeregister devPtr answer) (by
        rw [List.append_cancel_left called]
        exact List.mem_singleton_self _)
      exact Bool.false_ne_true (here.symm.trans succeeds)
  | @first ptr size flags answer absent opened succeeds =>
      refine iff_of_false ?_ ?_
      · rintro ⟨other, -, called⟩
        cases List.append_cancel_left called
      · simp only [countCall]
        split <;> omega
  | @again ptr size flags refcount present =>
      refine iff_of_false ?_ ?_
      · rintro ⟨other, -, called⟩
        simp [HIPFile.setBuffer] at called
      · simp only [countCall]
        split <;> omega
  | @unmatched ptr absent =>
      obtain ⟨-, none⟩ := counted.of_absent absent
      refine iff_of_false ?_ ?_
      · rintro ⟨other, -, called⟩
        simp at called
      · simp only [countCall]
        by_cases same : ptr = devPtr
        · subst same
          omega
        · simp only [same, ↓reduceIte]
          omega
  | @fewer ptr size refcount present several =>
      obtain ⟨-, counts⟩ := counted.of_present present
      refine iff_of_false ?_ ?_
      · rintro ⟨other, -, called⟩
        simp [HIPFile.setBuffer] at called
      · simp only [countCall]
        by_cases same : ptr = devPtr
        · subst same
          simp only [↓reduceIte]
          omega
        · simp only [same, ↓reduceIte]
          omega
  | @last ptr size refcount answer present single succeeds =>
      obtain ⟨-, counts⟩ := counted.of_present present
      have positive := counted.positive present
      by_cases same : ptr = devPtr
      · subst same
        refine iff_of_true ⟨answer, succeeds, rfl⟩ ?_
        simp only [countCall, ↓reduceIte]
        omega
      · refine iff_of_false ?_ ?_
        · rintro ⟨other, -, called⟩
          have here := List.append_cancel_left called
          simp only [List.cons.injEq, DriverCall.bufDeregister.injEq, and_true] at here
          exact same here.1
        · simp only [countCall, same, ↓reduceIte]
          omega
  | @forgotten ptr size refcount present missing =>
      obtain ⟨loaded, -⟩ := counted.opened ptr (by rw [present]; rfl)
      rw [missing] at loaded
      cases loaded

/-- A buffer is not registered again with another size. -/
theorem register_other_size (counted : Counted history hipFile) (environment : Environment)
    {devPtr oldSize size : UInt64} (flags : Int32)
    (registered : driverBuffers hipFile.driverCalls devPtr = some oldSize) (other : size ≠ oldSize) :
    perform hipFile environment (.register devPtr size flags) =
      (.error (.valueError (HIPFile.differentSize devPtr oldSize size)), hipFile) := by
  have present := counted.table devPtr
  rw [registered, Option.map_some] at present
  obtain ⟨loaded, opened⟩ := counted.opened devPtr (by rw [present]; rfl)
  have library : hipFile.ensureLib environment = (.ok (), hipFile) := by
    rw [HIPFile.ensureLib, loaded]
    rfl
  simp only [perform, HIPFile.registerGlobalBuffer, library, opened, present, Bool.not_true,
    Bool.false_eq_true, ↓reduceIte, ne_eq, Ne.symm other, not_false_eq_true]

end Guarantees

/-- **Global buffers.** Whatever calls have been made and however they ended, a
buffer is registered with the driver exactly while there are references to it,
and the table says so. The next call gives a buffer up exactly if it takes the
last reference, is refused for another size, and changes neither the table nor
the driver when it raises. -/
theorem globalBuffers_counted (libInstance driverOpened : Bool)
    (calls : List (Call × Environment)) (environment : Environment) (call : Call) :
    let history := (run calls (.initial libInstance driverOpened)).1
    let hipFile := (run calls (.initial libInstance driverOpened)).2
    let ended := perform hipFile environment call
    (∀ devPtr, ((driverBuffers hipFile.driverCalls devPtr).isSome ↔
        0 < referenceCount history devPtr) ∧
      hipFile.globalRegisteredBuffers devPtr =
        (driverBuffers hipFile.driverCalls devPtr).map fun size =>
          (size, referenceCount history devPtr)) ∧
    (∀ devPtr, Deregisters hipFile ended.2 devPtr ↔ 0 < referenceCount history devPtr ∧
      referenceCount (history ++ [(call, ended.1)]) devPtr = 0) ∧
    (∀ devPtr oldSize size flags, driverBuffers hipFile.driverCalls devPtr = some oldSize →
      size ≠ oldSize → perform hipFile environment (.register devPtr size flags) =
        (.error (.valueError (HIPFile.differentSize devPtr oldSize size)), hipFile)) ∧
    (∀ error, ended.1 = .error error →
      ended.2.globalRegisteredBuffers = hipFile.globalRegisteredBuffers ∧
        driverBuffers ended.2.driverCalls = driverBuffers hipFile.driverCalls) := by
  intro history hipFile ended
  have counted : Counted history hipFile := by
    simpa using counted_run (counted_initial libInstance driverOpened) calls
  have effect := perform_effect hipFile environment call
  refine ⟨fun devPtr => ⟨counted.registered devPtr, counted.table devPtr⟩, ?_, ?_, ?_⟩
  · exact deregisters_iff counted effect
  · intro devPtr oldSize size flags registered other
    exact register_other_size counted environment flags registered other
  · intro error raised
    exact unchanged_of_raised effect raised

/-! ### The driver as its owners see it -/

namespace HIPFile

/-- An entry of the table in plain numbers. -/
def plain (entry : UInt64 × ℕ) : ℕ × ℕ := (entry.1.toNat, entry.2)

/-- The table and the flag, by plain addresses. -/
def driver (hipFile : HIPFile) : Driver where
  opened := hipFile.driverOpened
  buffers := fun address =>
    if address < UInt64.size then
      (hipFile.globalRegisteredBuffers (UInt64.ofNat address)).map plain
    else none

@[simp] theorem driver_opened (hipFile : HIPFile) :
    hipFile.driver.opened = hipFile.driverOpened := rfl

@[simp] theorem driver_buffers (hipFile : HIPFile) (devPtr : UInt64) :
    hipFile.driver.buffers devPtr.toNat = (hipFile.globalRegisteredBuffers devPtr).map plain := by
  simp [driver, UInt64.toNat_lt_size]

theorem driver_setBuffer (hipFile : HIPFile) (devPtr : UInt64) (entry : Option (UInt64 × ℕ)) :
    (hipFile.setBuffer devPtr entry).driver = { hipFile.driver with
      buffers := Function.update hipFile.driver.buffers devPtr.toNat (entry.map plain) } := by
  have same : (hipFile.setBuffer devPtr entry).driver.buffers =
      Function.update hipFile.driver.buffers devPtr.toNat (entry.map plain) := by
    funext address
    by_cases here : address = devPtr.toNat
    · subst here
      simp [setBuffer]
    · rw [Function.update_of_ne here]
      simp only [driver, setBuffer]
      split
      · rename_i small
        rw [Function.update_of_ne]
        intro same
        apply here
        rw [← same, UInt64.toNat_ofNat_of_lt' small]
      · rfl
  exact congrArg (Driver.mk hipFile.driverOpened) same

end HIPFile

/-- The driver behind a call that returns. -/
def returned : Outcome × HIPFile → Option Driver
  | (.ok (), hipFile) => some hipFile.driver
  | (.error _, _) => none

/-- With the library loaded, `register_global_buffer` is the operation of `Driver`. -/
theorem returned_registerGlobalBuffer (hipFile : HIPFile) (environment : Environment)
    (calls : Calls) (devPtr size : UInt64) (flags : Int32) (loaded : hipFile.libInstance = true)
    (answers : calls.registers = environment.bufRegister.success) :
    returned (hipFile.registerGlobalBuffer environment devPtr size flags) =
      hipFile.driver.registerGlobalBuffer calls devPtr.toNat size.toNat := by
  have library : hipFile.ensureLib environment = (.ok (), hipFile) := by
    rw [HIPFile.ensureLib, loaded]
    rfl
  simp only [HIPFile.registerGlobalBuffer, library, Driver.registerGlobalBuffer,
    HIPFile.driver_opened, HIPFile.driver_buffers, answers]
  cases opened : hipFile.driverOpened with
  | false => simp [returned]
  | true =>
      simp only [Bool.not_true, Bool.false_eq_true, Bool.true_eq_false, ↓reduceIte]
      cases held : hipFile.globalRegisteredBuffers devPtr with
      | some entry =>
          obtain ⟨oldSize, refcount⟩ := entry
          by_cases same : oldSize = size
          · subst same
            simp [returned, HIPFile.driver_setBuffer, HIPFile.plain, opened]
          · have different : oldSize.toNat ≠ size.toNat :=
              fun equal => same (UInt64.toNat_inj.mp equal)
            simp [returned, HIPFile.plain, same, different]
      | none =>
          obtain ⟨error, fails, called⟩ | ⟨succeeds, called⟩ :=
            registerBuffer_cases hipFile environment devPtr size flags
          · simp [returned, called, fails]
          · simp only [returned, called, succeeds, HIPFile.driver_setBuffer, HIPFile.plain,
              HIPFile.driver_opened, opened, Option.map_none, Option.map_some, ↓reduceIte]
            rfl

/-- With the library loaded, `deregister_global_buffer` is the operation of `Driver`. -/
theorem returned_deregisterGlobalBuffer (hipFile : HIPFile) (environment : Environment)
    (calls : Calls) (devPtr : UInt64) (loaded : hipFile.libInstance = true)
    (answers : calls.deregisters = environment.bufDeregister.success) :
    returned (hipFile.deregisterGlobalBuffer environment devPtr) =
      hipFile.driver.deregisterGlobalBuffer calls devPtr.toNat := by
  rw [HIPFile.deregisterGlobalBuffer, Driver.deregisterGlobalBuffer, HIPFile.driver_buffers,
    answers]
  cases held : hipFile.globalRegisteredBuffers devPtr with
  | none => rfl
  | some entry =>
      obtain ⟨size, refcount⟩ := entry
      by_cases several : 1 < refcount
      · simp [returned, several, HIPFile.driver_setBuffer, HIPFile.plain]
      obtain ⟨error, fails, called⟩ | ⟨succeeds, called⟩ :=
        deregisterBuffer_cases hipFile environment devPtr
      · simp [returned, several, loaded, called, fails, HIPFile.plain]
      · simp [returned, several, loaded, called, succeeds, HIPFile.driver_setBuffer, HIPFile.plain]
        rfl

end LMCacheHcu.HyFile.GlobalBuffers
