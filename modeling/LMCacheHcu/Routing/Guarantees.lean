import LMCacheHcu.Routing.Machine

/-! # Every call goes to an open backend

The operations check a backend before most of their calls: this is a property of
the programs alone. What a check has let through stays open until the call,
unless a mode change falls in between, so the remaining calls decide.
-/

namespace LMCacheHcu.Routing

open Runs

variable {Name Key Obj : Type}

/-- Every call that the program makes on a checked backend comes after its own
check, which is still valid at that point. -/
def Covered : Option Name → Option Name → Program Name Key Obj → Prop
  | _, _, .done => True
  | _, _, .checkFreeze name selected passed skipped =>
      Covered (if selected then some name else none) none passed ∧ Covered none none skipped
  | freezeCleared, _, .checkBypass name selected passed skipped =>
      Covered freezeCleared (if selected then some name else none) passed ∧
        Covered none none skipped
  | freezeCleared, bypassCleared, .call call resume =>
      if call.method.checked then
        bypassCleared = some call.target ∧
          (call.method.retrieval = true → freezeCleared = some call.target) ∧
          ∀ answer, Covered none none (resume answer)
      else ∀ answer, Covered freezeCleared bypassCleared (resume answer)
  | _, _, .spawn task next => Covered none none task ∧ Covered none none next

theorem covered_call {freezeCleared bypassCleared : Option Name} {call : Call Name Key}
    {resume : Answer Obj → Program Name Key Obj} :
    Covered freezeCleared bypassCleared (.call call resume) =
      if call.method.checked then
        bypassCleared = some call.target ∧
          (call.method.retrieval = true → freezeCleared = some call.target) ∧
          ∀ answer, Covered none none (resume answer)
      else ∀ answer, Covered freezeCleared bypassCleared (resume answer) := rfl

/-- A program that is covered is covered by more as well. -/
theorem Covered.mono {program : Program Name Key Obj} {freezeCleared bypassCleared : Option Name}
    (covered : Covered freezeCleared bypassCleared program) {freezeMore bypassMore : Option Name}
    (freezeKept : ∀ name, freezeCleared = some name → freezeMore = some name)
    (bypassKept : ∀ name, bypassCleared = some name → bypassMore = some name) :
    Covered freezeMore bypassMore program := by
  induction program generalizing freezeCleared bypassCleared freezeMore bypassMore with
  | done => trivial
  | checkFreeze name selected passed skipped _ _ => exact covered
  | checkBypass name selected passed skipped ih _ =>
      exact ⟨ih covered.1 freezeKept fun _ same => same, covered.2⟩
  | call call resume ih =>
      rw [covered_call] at covered ⊢
      by_cases checked : call.method.checked = true
      · rw [if_pos checked] at covered ⊢
        exact ⟨bypassKept _ covered.1, fun retrieval => freezeKept _ (covered.2.1 retrieval),
          covered.2.2⟩
      · rw [if_neg checked] at covered ⊢
        exact fun answer => ih answer (covered answer) freezeKept bypassKept
  | spawn task next _ _ => exact covered

/-- A call that is made without a check needs no cover, and keeps the cover. -/
theorem covered_unchecked {call : Call Name Key} {resume : Answer Obj → Program Name Key Obj}
    (unchecked : call.method.checked = false) (freezeCleared bypassCleared : Option Name)
    (later : ∀ answer, Covered freezeCleared bypassCleared (resume answer)) :
    Covered freezeCleared bypassCleared (.call call resume) := by
  rw [covered_call, unchecked]
  exact later

/-- A retrieval right after the checks of its backend is covered. -/
theorem covered_checked {name : Name} {method : Method} {keys : List Key}
    {resume : Answer Obj → Program Name Key Obj} (checked : method.checked = true)
    (later : ∀ answer, Covered none none (resume answer)) :
    Covered (some name) (some name) (.call ⟨name, method, keys⟩ resume) := by
  rw [covered_call, if_pos checked]
  exact ⟨rfl, fun _ => rfl, later⟩

/-! ### The operations -/

variable [DecidableEq Name]

/-- **The loop over the active backends checks what its body calls.** -/
theorem covered_activeStorageBackends {filter : Filter Name} {State : Type}
    {body : Name → State → (State → Program Name Key Obj) → Program Name Key Obj}
    (covers : ∀ name state next, (∀ later, Covered none none (next later)) →
      Covered (some name) (some name) (body name state next))
    (names : List Name) (state : State) :
    Covered none none (activeStorageBackends filter body names state) := by
  induction names generalizing state with
  | nil => trivial
  | cons name names ih =>
      rw [activeStorageBackends]
      refine ⟨⟨?_, ih state⟩, ih state⟩
      by_cases selected : filter.selects name = true
      · rw [if_pos selected, if_pos selected]
        exact covers name state _ ih
      · rw [if_neg selected, if_neg selected]
        exact ih state

variable (backends : Backends Name)

theorem covered_contains (key : Key) (searchRange : List Name) (pin : Bool) :
    Covered none none (contains backends key searchRange pin : Program Name Key Obj) := by
  refine covered_activeStorageBackends (fun name _ next later => ?_) _ _
  refine covered_checked rfl fun answer => ?_
  split
  · trivial
  · exact later ()

theorem covered_batchedLookup (method : Name → Method) (checked : ∀ name, (method name).checked)
    (totalKeys : Nat) (searchRange : List Name) (keys : List Key) :
    Covered none none
      (batchedLookup backends method totalKeys searchRange keys : Program Name Key Obj) := by
  refine covered_activeStorageBackends (fun name state next later => ?_) _ _
  refine covered_checked (checked name) fun answer => ?_
  split
  · exact later state
  · split
    · trivial
    · exact later _

theorem covered_asyncLookupAndPrefetch (keys : List Key) (searchRange : List Name) (pin : Bool) :
    Covered none none
      (asyncLookupAndPrefetch backends keys searchRange pin : Program Name Key Obj) := by
  refine covered_activeStorageBackends (fun name state next later => ?_) _ _
  refine covered_checked rfl fun answer => ?_
  split
  · exact later state
  · refine ⟨covered_unchecked rfl _ _ fun _ => trivial, ?_⟩
    split
    · trivial
    · exact later _

theorem covered_get (key : Key) (location : Option Name) :
    Covered none none (get backends key location : Program Name Key Obj) := by
  refine covered_activeStorageBackends (fun name _ next later => ?_) _ _
  refine covered_checked rfl fun answer => ?_
  split
  · split
    · exact covered_unchecked rfl _ _ fun _ => trivial
    · trivial
  · exact later ()

theorem covered_batchedGet (keys : List Key) (location : Option Name) :
    Covered none none (batchedGet backends keys location : Program Name Key Obj) := by
  refine covered_activeStorageBackends (fun name _ next later => ?_) _ _
  refine covered_checked rfl fun answer => ?_
  split
  · exact later ()
  · split
    · exact covered_unchecked rfl _ _ fun _ => trivial
    · trivial

omit [DecidableEq Name] in
theorem covered_fetchLayers (location : Name) (layers : List (List Key)) :
    Covered none none (fetchLayers location layers : Program Name Key Obj) := by
  induction layers with
  | nil => trivial
  | cons keysMultiChunk layers ih => exact covered_unchecked rfl _ _ fun _ => ih

omit [DecidableEq Name] in
/-- Allocating the copies keeps the cover for what comes after. -/
theorem covered_allocateAndCopyObjects (allocator : Name)
    {next : List Key → Program Name Key Obj} {freezeCleared bypassCleared : Option Name}
    (later : ∀ ks, Covered freezeCleared bypassCleared (next ks)) (keys allocatedKeys : List Key) :
    Covered freezeCleared bypassCleared
      (allocateAndCopyObjects allocator next keys allocatedKeys) := by
  induction keys generalizing allocatedKeys with
  | nil => exact later allocatedKeys
  | cons key keys ih =>
      refine covered_unchecked rfl _ _ fun held => ?_
      split
      · exact ih allocatedKeys
      · refine covered_unchecked rfl _ _ fun answer => ?_
        split
        · exact ih _
        · exact later allocatedKeys

theorem covered_putBackends (location : Option Name) (keys : List Key) (names : List Name)
    (objDict : AList fun _ : Name => List Key) :
    Covered none none (putBackends backends location keys names objDict :
      Program Name Key Obj) := by
  have submits (name : Name) (ks : List Key) (next : Program Name Key Obj)
      (later : Covered none none next) :
      Covered none (some name) (.call ⟨name, .batchedSubmitPutTask, ks⟩ fun _ => next) := by
    rw [covered_call, if_pos (by rfl : Method.batchedSubmitPutTask.checked = true)]
    exact ⟨rfl, fun retrieval => Bool.noConfusion retrieval, fun _ => later⟩
  induction names generalizing objDict with
  | nil => trivial
  | cons name names ih =>
      rw [putBackends]
      split
      · exact ih objDict
      · refine ⟨?_, ih objDict⟩
        change Covered none (some name) _
        split
        · exact submits name _ _ (ih objDict)
        · exact covered_allocateAndCopyObjects _ (fun ks => submits name ks _ (ih _)) keys []

/-- **Every operation checks before the calls that it makes on checked backends.** -/
theorem covered_program (operation : Operation Name Key) :
    Covered none none (operation.program backends : Program Name Key Obj) := by
  cases operation with
  | contains key searchRange pin => exact covered_contains backends key searchRange pin
  | batchedContains keys searchRange pin =>
      exact covered_batchedLookup backends _ (fun _ => rfl) _ searchRange keys
  | batchedPut keys location =>
      rw [Operation.program, batchedPut]
      split
      · trivial
      · exact covered_putBackends backends location keys _ _
  | batchedDirectPut keys numPlans location =>
      cases location with
      | none => trivial
      | some location =>
        rw [Operation.program, batchedDirectPut]
        split
        · exact covered_unchecked rfl _ _ fun _ => trivial
        · trivial
  | get key location => exact covered_get backends key location
  | batchedGet keys location => exact covered_batchedGet backends keys location
  | batchedDirectGet keys numPlans location =>
      rw [Operation.program, batchedDirectGet]
      split
      · exact covered_unchecked rfl _ _ fun _ => trivial
      · trivial
  | layerwiseBatchedGet keys location =>
      rw [Operation.program, layerwiseBatchedGet]
      split
      · exact covered_fetchLayers _ keys
      · trivial
  | asyncLookupAndPrefetch keys searchRange pin =>
      exact covered_asyncLookupAndPrefetch backends keys searchRange pin
  | getBlockMapping keys => exact covered_batchedLookup backends _ (fun _ => rfl) _ [] keys

/-! ### The run invariant -/

/-- What a running operation has been let through is still open, and it is
covered by it. -/
structure ThreadSound (freeze : Bool) (bypassedBackends : Finset Name)
    (thread : Thread Name Key Obj) : Prop where
  covered : Covered thread.freezeCleared thread.bypassCleared thread.program
  freezeOpen : ∀ name, thread.freezeCleared = some name → freeze = true →
    name = backends.localCpuBackend
  bypassOpen : ∀ name, thread.bypassCleared = some name → name ∉ bypassedBackends

structure RoutingSound (state : RoutingState Name Key Obj) : Prop where
  routed : ∀ dispatch ∈ state.dispatched, Routed backends dispatch
  threads : ∀ thread ∈ state.threads,
    ThreadSound backends state.freeze state.bypassedBackends thread

omit [DecidableEq Name] in
/-- An operation without a cleared backend is sound as soon as it is covered. -/
theorem threadSound_uncleared {freeze : Bool} {bypassedBackends : Finset Name}
    {program : Program Name Key Obj} (covered : Covered none none program) :
    ThreadSound backends freeze bypassedBackends ⟨program, none, none⟩ where
  covered := covered
  freezeOpen _ cleared := nomatch cleared
  bypassOpen _ cleared := nomatch cleared

omit [DecidableEq Name] in
theorem threadsSound_set {freeze : Bool} {bypassedBackends : Finset Name}
    {threads : List (Thread Name Key Obj)} {later : Thread Name Key Obj} {index : Nat}
    (sound : ∀ thread ∈ threads, ThreadSound backends freeze bypassedBackends thread)
    (laterSound : ThreadSound backends freeze bypassedBackends later) :
    ∀ thread ∈ threads.set index later,
      ThreadSound backends freeze bypassedBackends thread := by
  intro thread member
  rcases List.mem_or_eq_of_mem_set member with old | rfl
  · exact sound thread old
  · exact laterSound

variable {backends} {state next : RoutingState Name Key Obj}

/-- A step of an operation keeps it sound, and a call it makes is routed. -/
theorem RoutingSound.advanceThread {index : Nat} {thread : Thread Name Key Obj}
    {answer : Answer Obj} (sound : RoutingSound backends state)
    (running : state.threads[index]? = some thread)
    (unchecked : ∀ call, thread.uncheckedCall = some call →
      Routed backends ⟨call, state.freeze, call.target ∈ state.bypassedBackends⟩)
    (stepped : Routing.advanceThread backends state index thread answer = some next) :
    RoutingSound backends next := by
  obtain ⟨program, freezeCleared, bypassCleared⟩ := thread
  obtain ⟨covered, freezeOpen, bypassOpen⟩ :=
    sound.threads _ (List.mem_of_getElem? running)
  cases program with
  | done => cases stepped
  | checkFreeze name selected passed skipped =>
      cases stepped
      refine ⟨sound.routed, threadsSound_set backends sound.threads ?_⟩
      split
      · exact threadSound_uncleared backends covered.2
      · rename_i open_
        refine ⟨covered.1, fun other cleared frozen => ?_, fun other cleared => nomatch cleared⟩
        by_cases chosen : selected = true
        · simp only [chosen, ↓reduceIte, Option.some.injEq] at cleared
          subst cleared
          by_contra elsewhere
          exact open_ (by simp [show state.freeze = true from frozen, elsewhere])
        · simp [chosen] at cleared
  | checkBypass name selected passed skipped =>
      cases stepped
      refine ⟨sound.routed, threadsSound_set backends sound.threads ?_⟩
      split
      · exact threadSound_uncleared backends covered.2
      · rename_i open_
        refine ⟨covered.1, freezeOpen, fun other cleared => ?_⟩
        by_cases chosen : selected = true
        · simp only [chosen, ↓reduceIte, Option.some.injEq] at cleared
          exact cleared ▸ open_
        · simp [chosen] at cleared
  | call call resume =>
      cases stepped
      rw [covered_call] at covered
      by_cases checked : call.method.checked = true
      · rw [if_pos checked] at covered
        obtain ⟨cleared, retrieval, later⟩ := covered
        refine ⟨fun dispatch member => ?_, threadsSound_set backends sound.threads ?_⟩
        · rcases List.mem_append.mp member with old | new
          · exact sound.routed dispatch old
          · rw [List.mem_singleton] at new
            subst new
            exact ⟨by simpa using bypassOpen _ cleared, fun frozen reads =>
              freezeOpen _ (retrieval reads) frozen⟩
        · rw [if_pos checked]
          exact threadSound_uncleared backends (later answer)
      · rw [if_neg checked] at covered
        refine ⟨fun dispatch member => ?_, threadsSound_set backends sound.threads ?_⟩
        · rcases List.mem_append.mp member with old | new
          · exact sound.routed dispatch old
          · rw [List.mem_singleton] at new
            subst new
            exact unchecked call (by simp [Thread.uncheckedCall, checked])
        · rw [if_neg checked]
          exact ⟨covered answer, freezeOpen, bypassOpen⟩
  | spawn task later =>
      cases stepped
      refine ⟨sound.routed, fun thread member => ?_⟩
      rcases List.mem_append.mp member with old | new
      · exact threadsSound_set backends sound.threads
          (threadSound_uncleared backends covered.2) thread old
      · rw [List.mem_singleton] at new
        subst new
        exact threadSound_uncleared backends covered.1

theorem RoutingSound.step {event : RoutingEvent Name Key Obj} (sound : RoutingSound backends state)
    (kept : StepKeepsRouting backends state event)
    (stepped : Routing.step backends state event = some next) : RoutingSound backends next := by
  cases event with
  | setFreeze enabled =>
      cases stepped
      refine ⟨sound.routed, fun thread member => ?_⟩
      have before := sound.threads thread member
      exact ⟨before.covered, fun name cleared frozen => kept frozen thread member name cleared,
        before.bypassOpen⟩
  | setBackendBypass name bypassed =>
      cases stepped
      refine ⟨sound.routed, fun thread member => ?_⟩
      have before := sound.threads thread member
      refine ⟨before.covered, before.freezeOpen, fun other cleared closed => ?_⟩
      cases bypassed with
      | false => exact before.bypassOpen other cleared (Finset.mem_of_mem_erase closed)
      | true =>
          rcases Finset.mem_insert.mp closed with rfl | already
          · exact kept rfl thread member cleared
          · exact before.bypassOpen other cleared already
  | start operation =>
      cases stepped
      refine ⟨sound.routed, fun thread member => ?_⟩
      rcases List.mem_append.mp member with old | new
      · exact sound.threads thread old
      · rw [List.mem_singleton] at new
        subst new
        exact threadSound_uncleared backends (covered_program backends operation)
  | advance index answer =>
      rw [Routing.step] at stepped
      cases running : state.threads[index]? with
      | none =>
          rw [running] at stepped
          cases stepped
      | some thread =>
          rw [running] at stepped
          exact sound.advanceThread running (kept thread running) stepped

/-- A step that makes a call without a check on a closed backend records a
misrouted call at once. -/
theorem misrouted_of_unchecked {index : Nat} {thread : Thread Name Key Obj} {answer : Answer Obj}
    {call : Call Name Key} (running : state.threads[index]? = some thread)
    (unchecked : thread.uncheckedCall = some call)
    (closed : ¬Routed backends ⟨call, state.freeze, call.target ∈ state.bypassedBackends⟩) :
    ∃ next, Routing.step backends state (.advance index answer) = some next ∧
      ∃ dispatch ∈ next.dispatched, ¬Routed backends dispatch := by
  obtain ⟨program, freezeCleared, bypassCleared⟩ := thread
  cases program with
  | call made resume =>
      have same : made = call := by
        by_cases checked : made.method.checked = true
        · simp [Thread.uncheckedCall, checked] at unchecked
        · simpa [Thread.uncheckedCall, checked] using unchecked
      subst same
      refine ⟨_, by rw [Routing.step, running]; rfl, _, List.mem_append_right _
        (List.mem_singleton.mpr rfl), closed⟩
  | _ => cases unchecked

/-- A manager with the local CPU backend, named 0, and one other backend. -/
def twoBackends : Backends Nat where
  storageBackends := [0, 1]
  localCpuBackend := 0
  pdBackend := 2
  allocatorBackend := some 0
  getAllocatorBackend _ := 0
  hasDirectGet name := name = 1
  hasDirectPut name := name = 1

end LMCacheHcu.Routing
