import LMCacheHcu.Foundation.Runs
import LMCacheHcu.Routing.Operations

/-! # Operations under changing modes

Any number of operations run at once while other threads set the freeze flag and
the bypass set. A step of the machine is one mode change, the start of an
operation or one step of a running one; every call of a backend is recorded with
the modes at that time.
-/

namespace LMCacheHcu.Routing

open Runs

variable {Name Key Obj : Type} [DecidableEq Name]

/-- A running operation, and the backend that its last check let through and
that it has not called yet. -/
structure Thread (Name Key Obj : Type) where
  program : Program Name Key Obj
  freezeCleared : Option Name
  bypassCleared : Option Name

/-- A call with the modes at its time. -/
structure Dispatch (Name Key : Type) where
  call : Call Name Key
  frozen : Bool
  bypassed : Bool
deriving DecidableEq, Repr

structure RoutingState (Name Key Obj : Type) where
  freeze : Bool
  bypassedBackends : Finset Name
  threads : List (Thread Name Key Obj)
  dispatched : List (Dispatch Name Key)

inductive RoutingEvent (Name Key Obj : Type)
  | setFreeze (enabled : Bool)
  | setBackendBypass (name : Name) (bypassed : Bool)
  | start (operation : Operation Name Key)
  | advance (index : Nat) (answer : Answer Obj)

variable (backends : Backends Name)

/-- One step of a running operation. The answer is read by a call only. -/
def advanceThread (state : RoutingState Name Key Obj) (index : Nat)
    (thread : Thread Name Key Obj) (answer : Answer Obj) : Option (RoutingState Name Key Obj) :=
  match thread.program with
  | .done => none
  | .checkFreeze name selected passed skipped =>
      let next : Thread Name Key Obj :=
        if state.freeze && name ≠ backends.localCpuBackend then ⟨skipped, none, none⟩
        else ⟨passed, if selected then some name else none, none⟩
      some { state with threads := state.threads.set index next }
  | .checkBypass name selected passed skipped =>
      let next : Thread Name Key Obj :=
        if name ∈ state.bypassedBackends then ⟨skipped, none, none⟩
        else ⟨passed, thread.freezeCleared, if selected then some name else none⟩
      some { state with threads := state.threads.set index next }
  | .call call resume =>
      let next : Thread Name Key Obj :=
        if call.method.checked then ⟨resume answer, none, none⟩
        else { thread with program := resume answer }
      some { state with
        threads := state.threads.set index next
        dispatched := state.dispatched ++
          [⟨call, state.freeze, call.target ∈ state.bypassedBackends⟩] }
  | .spawn task next =>
      some { state with
        threads := state.threads.set index ⟨next, none, none⟩ ++ [⟨task, none, none⟩] }

def step (state : RoutingState Name Key Obj) :
    RoutingEvent Name Key Obj → Option (RoutingState Name Key Obj)
  | .setFreeze enabled => some { state with freeze := enabled }
  | .setBackendBypass name bypassed =>
      some { state with
        bypassedBackends := if bypassed then insert name state.bypassedBackends
          else state.bypassedBackends.erase name }
  | .start operation =>
      some { state with
        threads := state.threads ++ [⟨operation.program backends, none, none⟩] }
  | .advance index answer =>
      match state.threads[index]? with
      | none => none
      | some thread => advanceThread backends state index thread answer

/-- A call that respects the modes of its time: its backend is not bypassed, and
under freeze a retrieval goes to the local CPU backend only. -/
def Routed (dispatch : Dispatch Name Key) : Prop :=
  dispatch.bypassed = false ∧
    (dispatch.frozen = true → dispatch.call.method.retrieval = true →
      dispatch.call.target = backends.localCpuBackend)

instance (dispatch : Dispatch Name Key) : Decidable (Routed backends dispatch) :=
  inferInstanceAs (Decidable (_ ∧ (_ → _ → _)))

/-- The next step of a running operation is a call that it makes without a check. -/
def Thread.uncheckedCall (thread : Thread Name Key Obj) : Option (Call Name Key) :=
  match thread.program with
  | .call call _ => if call.method.checked then none else some call
  | _ => none

/-- **The steps that keep the routing.** A mode change closes no backend that a
running operation has checked and is about to call, and a call that is made
without a check goes to a backend that is open at that time. -/
def StepKeepsRouting (state : RoutingState Name Key Obj) : RoutingEvent Name Key Obj → Prop
  | .setFreeze enabled => enabled = true → ∀ thread ∈ state.threads,
      ∀ name ∈ thread.freezeCleared, name = backends.localCpuBackend
  | .setBackendBypass name bypassed => bypassed = true → ∀ thread ∈ state.threads,
      thread.bypassCleared ≠ some name
  | .start _ => True
  | .advance index _ => ∀ thread ∈ state.threads[index]?, ∀ call ∈ thread.uncheckedCall,
      Routed backends ⟨call, state.freeze, call.target ∈ state.bypassedBackends⟩

instance (state : RoutingState Name Key Obj) (event : RoutingEvent Name Key Obj) :
    Decidable (StepKeepsRouting backends state event) :=
  match event with
  | .setFreeze _ => inferInstanceAs (Decidable (_ → ∀ _ ∈ _, ∀ _ ∈ _, _))
  | .setBackendBypass _ _ => inferInstanceAs (Decidable (_ → ∀ _ ∈ _, _))
  | .start _ => inferInstanceAs (Decidable True)
  | .advance _ _ => inferInstanceAs (Decidable (∀ _ ∈ _, ∀ _ ∈ _, _))

/-- No operation is running and nothing was called; the modes are arbitrary. -/
def idle (freeze : Bool) (bypassedBackends : Finset Name) : RoutingState Name Key Obj where
  freeze := freeze
  bypassedBackends := bypassedBackends
  threads := []
  dispatched := []

end LMCacheHcu.Routing
