import LMCacheHcu.Xds.ProfiledDirectGet
import LMCacheHcu.Xds.ProfiledStagedPut

/-! # When profiles complete

The profile of a batch completes exactly when no exception leaves the batch and,
for a staged put, every save gets to its end. The handlers of direct transfers
do not name the exception that the library of the driver raises.
-/

namespace LMCacheHcu.Xds.Profiling

open Runs HyFile.GlobalBuffers

/-- **Completion of I/O profiles**, for staged puts in every order of their
saves, for direct puts and for direct gets. -/
theorem profiles_complete_iff {Key MemoryObj Descriptor : Type} (staged : StagedSwitches)
    (switches : DirectSwitches) :
    (∀ (keys : List Key) (memoryObjs : List MemoryObj) (calls : ℕ → SubmitCalls)
        (saves : ℕ → SaveCalls) (state : StagedPut (chunkCount keys memoryObjs)),
      Reaches (stagedStep staged calls saves) (fun _ _ => True)
        (stagedStart staged (chunkCount keys memoryObjs)) state → state.Over →
      (state.batch.profiled.Completes ↔
        (staged.ioProfileEnabled = true → 0 < chunkCount keys memoryObjs →
          StagedContained staged calls saves (chunkCount keys memoryObjs)))) ∧
    (∀ (keys : List Key) (descriptors : List (Option Descriptor)) (calls : ℕ → StoreCalls),
      (batchedDirectPut switches calls keys descriptors).2.Completes ↔
        (switches.directStoreEnabled = true → switches.ioProfileEnabled = true → 0 < keys.length →
          PutContained switches calls keys descriptors)) ∧
    (∀ (keys : List Key) (descriptors : List (Option Storage.DirectIODescriptor))
        (calls : ℕ → RetrieveCalls),
      (batchedDirectGet switches calls keys descriptors).2.Completes ↔
        (switches.ioProfileEnabled = true → 0 < keys.length →
          GetContained switches calls keys descriptors)) := by
  refine ⟨?_, ?_, ?_⟩
  · intro keys memoryObjs calls saves state reached finished
    exact staged_completes_iff staged calls saves reached finished
  · intro keys descriptors calls
    exact batchedDirectPut_completes_iff switches calls keys descriptors
  · intro keys descriptors calls
    exact batchedDirectGet_completes_iff switches calls keys descriptors

/-- A driver that refuses to register a buffer. -/
def refusing : Environment where
  pathExists := fun _ => true
  loads := fun _ => .ok ()
  bufRegister := ⟨5011, 0⟩
  bufDeregister := ⟨0, 0⟩

/-- What the library raises then. -/
def refusal : HIPfileException :=
  ⟨5011, 0, s!"Failed to register buffer (ptr={hex 4096})"⟩

/-- A backend that profiles its direct transfers. -/
def profiling : DirectSwitches := ⟨true, true, true, false, false, false⟩

/-- A chunk whose buffer cannot be registered; everything else succeeds. -/
def unregistered : StoreCalls where
  existing := none
  updateOnHit := .ok ()
  remove := .ok false
  existsInPutTasks := false
  makeDirectBlockFirstMetadata := .ok 4096
  evicts := fun _ => .ok true
  updateOnPut := .ok ()
  keyToPath := .ok ()
  submit := .ok ()
  runDirectStoreIo := .error (.hipFile (.hipfileException refusal))
  insertDirectKey := .ok ()
  updateOnForceEvict := .ok ()

/-- The exception leaves the direct put of one chunk, whose profile never completes. -/
theorem not_completes_unregistered :
    ((HIPFile.initial true true).registerGlobalBuffer refusing 4096 8192 1).1 =
        .error (.hipfileException refusal) ∧
      (batchedDirectPut profiling (fun _ => unregistered) [()] [some ()]).1 =
        .error (.hipFile (.hipfileException refusal)) ∧
      ¬ (batchedDirectPut profiling (fun _ => unregistered) [()] [some ()]).2.Completes := by
  refine ⟨rfl, rfl, fun completes => ?_⟩
  have once := (completes ⟨1, 0, 0, 0, 0, false⟩ rfl).1.once 0
  exact absurd once (by decide)

end LMCacheHcu.Xds.Profiling
