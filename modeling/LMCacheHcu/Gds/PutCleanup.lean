import LMCacheHcu.Gds.PutTasks

/-! # What a put gives back

A put whose coroutine reaches its `try` gives back the reference and the mark. The
mark is one for all puts of a key, so it is right as long as the puts of a key do
not end one before the other, and a temporary file is left by a legacy save that
fails between the `open` and the `rename`.
-/

namespace LMCacheHcu.Gds

open Storage Exceptions Text Runs

variable {Key F Format : Type} [DecidableEq Key]

/-- **The property.** A put that is over has released its reference once, its key
is marked exactly while a put of the key is in flight, every temporary file is
open in a put in flight, and a put that failed has no entry. -/
structure Cleaned (state : PutState Key) : Prop where
  released : ∀ (id : ℕ) task, state.tasks[id]? = some task → task.stage.isOver = true →
    task.releases = 1
  marked : ∀ (id : ℕ) task, state.tasks[id]? = some task → task.stage.isOver = true →
    (task.key ∈ state.putTasks ↔ ∃ other ∈ state.tasks, other.key = task.key ∧ other.InFlight)
  temporaries : ∀ name ∈ state.temporaries,
    ∃ task ∈ state.tasks, task.InFlight ∧ task.opened = some name
  entries : ∀ (id : ℕ) task, state.tasks[id]? = some task →
    task.stage = .abandoned ∨ task.stage = .finished false → state.maker task.key ≠ some id

/-- The `try` is reached: the layout, the path and the directory are made. -/
def Starts (backend : GdsBackend Key F Format) (state : PutState Key) (task : PutTask Key)
    (made : Bool) : Prop :=
  match backend.destination task.key task.shape with
  | .ok (_, path) => path.subdirKey ∈ state.metadataDirs ∨ made = true
  | .error _ => False

instance (backend : GdsBackend Key F Format) (state : PutState Key) (task : PutTask Key)
    (made : Bool) : Decidable (Starts backend state task made) := by
  unfold Starts
  split <;> infer_instance

/-- **The condition on a step.** A coroutine that begins reaches its `try`, no
operation fails while a temporary file is open, unless it is one that the handler
of a block-first save removes, and a put ends as the last one of its key. -/
def Careful (backend : GdsBackend Key F Format) (state : PutState Key) : PutEvent Key → Prop
  | .submit _ _ | .advance _ => True
  | .start id _ made => ∀ task ∈ state.tasks[id]?, Starts backend state task made
  | .fail id => ∀ task ∈ state.tasks[id]?, task.stage ∉ [.writingData, .writingSidecar, .removing]
  | .finish id => ∀ task ∈ state.tasks[id]?, ∀ other ∈ state.tasks.eraseIdx id,
      other.key = task.key → ¬ other.InFlight

instance (backend : GdsBackend Key F Format) (state : PutState Key) (event : PutEvent Key) :
    Decidable (Careful backend state event) := by
  cases event <;> simp only [Careful] <;> infer_instance

/-! ### One operation of a put -/

/-- The coroutine has not come to its `finally`. -/
def Stage.isSaving : Stage → Bool
  | .inserted | .unwinding | .finished _ | .abandoned => false
  | _ => true

/-- A put goes on: it stays in flight, and the files on disk are those of before
but for the one that it has opened. -/
structure Progress (state next : PutState Key) (id : ℕ) (task moved : PutTask Key) : Prop where
  tasks : next.tasks = state.tasks.set id moved
  key : moved.key = task.key
  releases : moved.releases = task.releases
  saving : task.stage.isSaving = true
  after : moved.InFlight
  putTasks : next.putTasks = state.putTasks
  temporaries : ∀ name ∈ next.temporaries, moved.opened = some name ∨
    name ∈ state.temporaries ∧ task.opened ≠ some name
  maker : next.maker = state.maker ∨
    next.maker = Function.update state.maker task.key (some id) ∧ moved.stage = .inserted

section Operations

variable {state next : PutState Key} {id : ℕ} {task : PutTask Key}

/-- A put that opens, renames or removes nothing goes on. -/
theorem progress_set (saving : task.stage.isSaving = true) {moved : PutTask Key}
    (key : moved.key = task.key) (releases : moved.releases = task.releases)
    (after : moved.InFlight) (opened : task.opened = none ∨ task.opened = moved.opened) :
    Progress state (state.set id moved) id task moved where
  tasks := rfl
  key := key
  releases := releases
  saving := saving
  after := after
  putTasks := rfl
  temporaries := by
    intro name member
    rcases opened with none | same
    · exact .inr ⟨member, by rw [none]; exact fun same => nomatch same⟩
    · by_cases own : moved.opened = some name
      · exact .inl own
      · exact .inr ⟨member, by rw [same]; exact own⟩
  maker := .inl rfl

/-- A put opens a temporary file. -/
theorem progress_open (saving : task.stage.isSaving = true) {moved : PutTask Key}
    {name : Text} (key : moved.key = task.key) (releases : moved.releases = task.releases)
    (after : moved.InFlight) (before : task.opened = none) (opened : moved.opened = some name) :
    Progress state { state.set id moved with temporaries := insert name state.temporaries } id task
      moved where
  tasks := rfl
  key := key
  releases := releases
  saving := saving
  after := after
  putTasks := rfl
  temporaries := by
    intro other member
    rcases Finset.mem_insert.mp member with rfl | old
    · exact .inl opened
    · exact .inr ⟨old, by rw [before]; exact fun same => nomatch same⟩
  maker := .inl rfl

/-- A put renames or removes the temporary file that it has opened. -/
theorem progress_close (saving : task.stage.isSaving = true) {moved : PutTask Key}
    {name : Text} (key : moved.key = task.key) (releases : moved.releases = task.releases)
    (after : moved.InFlight) (before : task.opened = some name) :
    Progress state { state.set id moved with temporaries := state.temporaries.erase name } id task
      moved where
  tasks := rfl
  key := key
  releases := releases
  saving := saving
  after := after
  putTasks := rfl
  temporaries := by
    intro other member
    obtain ⟨differ, old⟩ := Finset.mem_erase.mp member
    refine .inr ⟨old, fun same => differ ?_⟩
    rw [before] at same
    exact (Option.some.inj same).symm
  maker := .inl rfl

/-- An operation that succeeds. -/
theorem progress_advance (stepped : state.advance id task = some next) :
    ∃ moved, Progress state next id task moved := by
  obtain ⟨key, shape, path, tmp, stage, releases⟩ := task
  unfold PutState.advance at stepped
  cases stage with
  | openingData | openingSidecar | openingBlockFirst =>
      cases stepped
      exact ⟨_, progress_open (by rfl) rfl rfl rfl rfl rfl⟩
  | writingData | writingSidecar | writingBlockFirst =>
      dsimp only at stepped
      split at stepped
      · cases stepped
        exact ⟨_, progress_close (by rfl) rfl rfl rfl rfl⟩
      · cases stepped
  | preparingBlockFirst =>
      cases stepped
      exact ⟨_, progress_set (by rfl) rfl rfl rfl (.inl rfl)⟩
  | removing =>
      cases stepped
      exact ⟨_, progress_close (by rfl) rfl rfl rfl rfl⟩
  | saved =>
      cases stepped
      exact ⟨_, { tasks := rfl, key := rfl, releases := rfl, saving := rfl, after := rfl,
                  putTasks := rfl, temporaries := fun _ old => .inr ⟨old, fun same => nomatch same⟩,
                  maker := .inr ⟨rfl, rfl⟩ }⟩
  | submitted | inserted | unwinding | finished _ | abandoned => cases stepped

/-- An operation that raises, with no temporary file open that is not removed. -/
theorem progress_fail (stepped : state.fail id task = some next)
    (careful : task.stage ∉ [.writingData, .writingSidecar, .removing]) :
    ∃ moved, Progress state next id task moved := by
  obtain ⟨key, shape, path, tmp, stage, releases⟩ := task
  unfold PutState.fail at stepped
  cases stage with
  | openingData | openingSidecar | preparingBlockFirst | saved | openingBlockFirst =>
      cases stepped
      exact ⟨_, progress_set (by rfl) rfl rfl rfl (.inl rfl)⟩
  | writingBlockFirst =>
      cases stepped
      exact ⟨_, progress_set (by rfl) rfl rfl rfl (.inr rfl)⟩
  | writingData | writingSidecar | removing => exact absurd (by simp) careful
  | submitted | inserted | unwinding | finished _ | abandoned => cases stepped

/-- A coroutine that reaches its `try`. -/
theorem progress_start {backend : GdsBackend Key F Format} {suffix : Text} {made : Bool}
    (submitted : task.stage = .submitted) (starts : Starts backend state task made) :
    ∃ moved, Progress state (state.start backend id task suffix made) id task moved := by
  obtain ⟨key, shape, path, tmp, stage, releases⟩ := task
  cases submitted
  unfold Starts at starts
  unfold PutState.start
  cases chosen : backend.destination key shape with
  | error failure =>
      rw [chosen] at starts
      exact starts.elim
  | ok destination =>
      obtain ⟨blockFirst, path⟩ := destination
      rw [chosen] at starts
      dsimp only at starts ⊢
      have there : ¬ (path.subdirKey ∉ state.metadataDirs ∧ made = false) := by
        rintro ⟨absent, refused⟩
        rcases starts with present | done
        · exact absent present
        · rw [done] at refused
          cases refused
      rw [if_neg there]
      have after : (PutTask.mk key shape path.path (".tmp".toList ++ suffix)
          (if blockFirst then .preparingBlockFirst else .openingData) releases).InFlight := by
        cases blockFirst <;> rfl
      exact ⟨_, { tasks := rfl, key := rfl, releases := rfl, saving := rfl, after := after,
                  putTasks := rfl, temporaries := fun _ old => .inr ⟨old, fun same => nomatch same⟩,
                  maker := .inl rfl }⟩

end Operations

/-! ### The invariant -/

/-- **The invariant.** No coroutine has ended before its `try`, each put has
released its reference when it is over and not before, and marks, temporary files
and entries are those of puts. -/
structure Tidy (state : PutState Key) : Prop where
  started : ∀ task ∈ state.tasks, task.stage ≠ .abandoned
  releases : ∀ task ∈ state.tasks, task.releases = if task.stage.isOver then 1 else 0
  marked : ∀ key, key ∈ state.putTasks ↔ ∃ task ∈ state.tasks, task.key = key ∧ task.InFlight
  temporaries : ∀ name ∈ state.temporaries, ∃ task ∈ state.tasks, task.opened = some name
  entries : ∀ key id, state.maker key = some id → ∃ task, state.tasks[id]? = some task ∧
    (task.stage = .inserted ∨ task.stage = .finished true)

theorem Tidy.initial : Tidy (PutState.initial : PutState Key) where
  started := fun _ member => nomatch member
  releases := fun _ member => nomatch member
  marked := fun key => iff_of_false (Finset.notMem_empty key) fun ⟨_, member, _⟩ => nomatch member
  temporaries := fun name member => absurd member (Finset.notMem_empty name)
  entries := fun _ _ made => nomatch made

theorem Stage.isOver_of_saving {stage : Stage} (saving : stage.isSaving = true) :
    stage.isOver = false := by
  cases stage <;> first | rfl | cases saving

omit [DecidableEq Key] in
theorem PutTask.inFlight_of_opened {task : PutTask Key} {name : Text}
    (opened : task.opened = some name) : task.InFlight := by
  obtain ⟨key, shape, path, tmp, stage, releases⟩ := task
  cases stage <;> first | rfl | cases opened

section Steps

variable {state next : PutState Key}

theorem Tidy.progress (tidy : Tidy state) {id : ℕ} {task moved : PutTask Key}
    (here : state.tasks[id]? = some task) (progress : Progress state next id task moved) :
    Tidy next := by
  have member := List.mem_of_getElem? here
  have going : task.InFlight := Stage.isOver_of_saving progress.saving
  have kept {other : PutTask Key} (there : other ∈ next.tasks) :
      other = moved ∨ other ∈ state.tasks := by
    rw [progress.tasks] at there
    exact (List.mem_or_eq_of_mem_set there).symm
  have self : moved ∈ next.tasks := by
    rw [progress.tasks]
    exact mem_set_self here moved
  have stays {other : PutTask Key} (there : other ∈ state.tasks) :
      other = task ∨ other ∈ next.tasks := by
    rw [progress.tasks]
    exact eq_or_mem_set here moved there
  refine ⟨fun other there => ?_, fun other there => ?_, fun key => ?_, fun name there => ?_,
    fun key position made => ?_⟩
  · rcases kept there with rfl | old
    · intro abandoned
      have after := progress.after
      unfold PutTask.InFlight at after
      rw [abandoned] at after
      cases after
    · exact tidy.started other old
  · rcases kept there with rfl | old
    · have after : other.stage.isOver = false := progress.after
      have before : task.stage.isOver = false := going
      rw [progress.releases, tidy.releases task member, before, after]
    · exact tidy.releases other old
  · rw [progress.putTasks, tidy.marked]
    constructor
    · rintro ⟨other, there, same, flying⟩
      rcases stays there with rfl | still
      · exact ⟨moved, self, progress.key.trans same, progress.after⟩
      · exact ⟨other, still, same, flying⟩
    · rintro ⟨other, there, same, flying⟩
      rcases kept there with rfl | old
      · exact ⟨task, member, progress.key.symm.trans same, going⟩
      · exact ⟨other, old, same, flying⟩
  · rcases progress.temporaries name there with own | ⟨old, apart⟩
    · exact ⟨moved, self, own⟩
    · obtain ⟨other, present, opened⟩ := tidy.temporaries name old
      rcases stays present with rfl | still
      · exact absurd opened apart
      · exact ⟨other, still, opened⟩
  · have before (made : state.maker key = some position) : ∃ other,
        next.tasks[position]? = some other ∧
          (other.stage = .inserted ∨ other.stage = .finished true) := by
      obtain ⟨other, there, stage⟩ := tidy.entries key position made
      have apart : id ≠ position := by
        rintro rfl
        rw [here, Option.some.injEq] at there
        subst there
        have saving := progress.saving
        rcases stage with stage | stage <;> rw [stage] at saving <;> cases saving
      refine ⟨other, ?_, stage⟩
      rw [progress.tasks, List.getElem?_set_ne apart]
      exact there
    rcases progress.maker with same | ⟨same, stage⟩
    · rw [same] at made
      exact before made
    · rw [same] at made
      by_cases key' : key = task.key
      · subst key'
        rw [Function.update_self, Option.some.injEq] at made
        subst made
        refine ⟨moved, ?_, .inl stage⟩
        rw [progress.tasks]
        exact List.getElem?_set_self (List.getElem?_eq_some_iff.mp here).1
      · rw [Function.update_of_ne key'] at made
        exact before made

theorem Tidy.submit (tidy : Tidy state) (key : Key) (shape : List ℕ) :
    Tidy (state.submitPutTask key shape) where
  started := by
    intro other there
    rcases List.mem_append.mp there with old | new
    · exact tidy.started other old
    · rw [List.mem_singleton.mp new]
      exact fun same => nomatch same
  releases := by
    intro other there
    rcases List.mem_append.mp there with old | new
    · exact tidy.releases other old
    · rw [List.mem_singleton.mp new]
      rfl
  marked := by
    intro other
    change other ∈ insert key state.putTasks ↔ _
    rw [Finset.mem_insert, tidy.marked]
    constructor
    · rintro (rfl | ⟨task, there, same, flying⟩)
      · exact ⟨_, List.mem_append_right _ List.mem_cons_self, rfl, rfl⟩
      · exact ⟨task, List.mem_append_left _ there, same, flying⟩
    · rintro ⟨task, there, same, flying⟩
      rcases List.mem_append.mp there with old | new
      · exact .inr ⟨task, old, same, flying⟩
      · rw [List.mem_singleton.mp new] at same
        exact .inl same.symm
  temporaries := by
    intro name there
    obtain ⟨task, present, opened⟩ := tidy.temporaries name there
    exact ⟨task, List.mem_append_left _ present, opened⟩
  entries := by
    intro other id made
    obtain ⟨task, there, stage⟩ := tidy.entries other id made
    refine ⟨task, ?_, stage⟩
    change (state.tasks ++ _)[id]? = some task
    rw [List.getElem?_append_left (List.getElem?_eq_some_iff.mp there).1]
    exact there

/-- A put ends as the last one of its key. -/
theorem Tidy.finish (tidy : Tidy state) {id : ℕ} {task : PutTask Key} {success : Bool}
    (here : state.tasks[id]? = some task)
    (stage : task.stage = .inserted ∧ success = true ∨ task.stage = .unwinding)
    (last : ∀ other ∈ state.tasks.eraseIdx id, other.key = task.key → ¬ other.InFlight) :
    Tidy (state.finish id task success) := by
  have member := List.mem_of_getElem? here
  have going : task.stage.isOver = false := by
    rcases stage with ⟨stage, -⟩ | stage <;> rw [stage] <;> rfl
  have closed (name : Text) : task.opened ≠ some name := by
    unfold PutTask.opened
    rcases stage with ⟨stage, -⟩ | stage <;> rw [stage] <;> exact fun same => nomatch same
  -- The tasks afterwards, by their positions.
  have kept {other : PutTask Key} (there : other ∈ (state.finish id task success).tasks) :
      other = { task with stage := .finished success, releases := task.releases + 1 } ∨
        other ∈ state.tasks.eraseIdx id := by
    obtain ⟨position, there⟩ := List.mem_iff_getElem?.mp there
    by_cases same : id = position
    · subst same
      refine .inl ?_
      rw [show (state.finish id task success).tasks[id]? = _ from
        List.getElem?_set_self (List.getElem?_eq_some_iff.mp here).1, Option.some.injEq] at there
      exact there.symm
    · rw [show (state.finish id task success).tasks[position]? = _ from
        List.getElem?_set_ne same] at there
      exact .inr (List.mem_eraseIdx_iff_getElem?.mpr ⟨position, Ne.symm same, there⟩)
  have stays {other : PutTask Key} (there : other ∈ state.tasks) :
      other = task ∨ other ∈ (state.finish id task success).tasks :=
    eq_or_mem_set here _ there
  refine ⟨fun other there => ?_, fun other there => ?_, fun key => ?_, fun name there => ?_,
    fun key position made => ?_⟩
  · rcases kept there with rfl | old
    · exact fun same => nomatch same
    · exact tidy.started other (List.mem_of_mem_eraseIdx old)
  · rcases kept there with rfl | old
    · have before := tidy.releases task member
      rw [going] at before
      exact congrArg (· + 1) before
    · exact tidy.releases other (List.mem_of_mem_eraseIdx old)
  · change key ∈ state.putTasks.erase task.key ↔ _
    rw [Finset.mem_erase, tidy.marked]
    constructor
    · rintro ⟨differ, other, there, same, flying⟩
      rcases stays there with rfl | still
      · exact absurd same.symm differ
      · exact ⟨other, still, same, flying⟩
    · rintro ⟨other, there, same, flying⟩
      rcases kept there with rfl | old
      · cases flying
      · refine ⟨?_, other, List.mem_of_mem_eraseIdx old, same, flying⟩
        rintro rfl
        exact last other old same flying
  · obtain ⟨other, present, opened⟩ := tidy.temporaries name there
    rcases stays present with rfl | still
    · exact absurd opened (closed name)
    · exact ⟨other, still, opened⟩
  · obtain ⟨other, there, entered⟩ := tidy.entries key position made
    by_cases same : id = position
    · subst same
      rw [here, Option.some.injEq] at there
      subst there
      refine ⟨_, List.getElem?_set_self (List.getElem?_eq_some_iff.mp here).1, .inr ?_⟩
      rcases stage with ⟨-, rfl⟩ | stage
      · rfl
      · rcases entered with entered | entered <;> rw [stage] at entered <;> cases entered
    · exact ⟨other, (List.getElem?_set_ne same).trans there, entered⟩

/-- **The step.** -/
theorem Tidy.step (tidy : Tidy state) {backend : GdsBackend Key F Format} {event : PutEvent Key}
    (careful : Careful backend state event) (stepped : state.step backend event = some next) :
    Tidy next := by
  cases event with
  | submit key shape =>
      cases stepped
      exact tidy.submit key shape
  | start id suffix made =>
      obtain ⟨task, here, stepped⟩ := Option.bind_eq_some_iff.mp stepped
      split at stepped
      · rename_i submitted
        cases stepped
        obtain ⟨moved, progress⟩ :
            ∃ moved, Progress state (state.start backend id task suffix made) id task moved :=
          progress_start submitted (careful task here)
        exact tidy.progress here progress
      · cases stepped
  | advance id =>
      obtain ⟨task, here, stepped⟩ := Option.bind_eq_some_iff.mp stepped
      obtain ⟨moved, progress⟩ := progress_advance stepped
      exact tidy.progress here progress
  | fail id =>
      obtain ⟨task, here, stepped⟩ := Option.bind_eq_some_iff.mp stepped
      obtain ⟨moved, progress⟩ := progress_fail stepped (careful task here)
      exact tidy.progress here progress
  | finish id =>
      obtain ⟨task, here, stepped⟩ := Option.bind_eq_some_iff.mp stepped
      cases stage : task.stage with
      | inserted =>
          rw [stage] at stepped
          cases stepped
          exact tidy.finish here (.inl ⟨stage, rfl⟩) (careful task here)
      | unwinding =>
          rw [stage] at stepped
          cases stepped
          exact tidy.finish here (.inr stage) (careful task here)
      | submitted | openingData | writingData | openingSidecar | writingSidecar
      | preparingBlockFirst | openingBlockFirst | writingBlockFirst | removing | saved
      | finished _ | abandoned =>
          rw [stage] at stepped
          cases stepped

/-- The invariant has the property. -/
theorem Tidy.cleaned (tidy : Tidy state) : Cleaned state where
  released := by
    intro id task here ended
    rw [tidy.releases task (List.mem_of_getElem? here), ended]
    rfl
  marked := fun id task _ _ => tidy.marked task.key
  temporaries := by
    intro name there
    obtain ⟨task, present, opened⟩ := tidy.temporaries name there
    exact ⟨task, present, PutTask.inFlight_of_opened opened, opened⟩
  entries := by
    rintro id task here (abandoned | failed) made
    · exact tidy.started task (List.mem_of_getElem? here) abandoned
    · obtain ⟨other, there, stage⟩ := tidy.entries task.key id made
      rw [here, Option.some.injEq] at there
      subst there
      rw [failed] at stage
      rcases stage with stage | stage <;> cases stage

end Steps

/-- **Cleanup.** In every run of careful steps the puts give back what they took. -/
theorem cleaned_of_reaches {backend : GdsBackend Key F Format} {state : PutState Key}
    (reached : Reaches (PutState.step backend) (Careful backend) .initial state) : Cleaned state :=
  (reached.invariant Tidy.initial fun _ _ _ tidy careful stepped =>
    tidy.step careful stepped).cleaned

/-- A put whose first write fails at the `open`, and another one that is saved. -/
def smallPutEvents : List (PutEvent Unit) :=
  [.submit () [2, 1, 2, 1], .start 0 ['A'] true, .fail 0, .finish 0,
    .submit () [2, 1, 2, 1], .start 1 ['B'] true, .advance 1, .advance 1, .advance 1, .advance 1,
    .advance 1, .finish 1]

theorem cleaned_of_reaches_small : ∃ state : PutState Unit,
    Runs.execute (PutState.step (smallGds ['a'])) (Careful (smallGds ['a'])) smallPutEvents
      .initial = some state ∧ Cleaned state := by
  obtain ⟨state, executed⟩ := Option.isSome_iff_exists.mp (by decide +kernel :
    (Runs.execute (PutState.step (smallGds ['a'])) (Careful (smallGds ['a'])) smallPutEvents
      .initial).isSome = true)
  exact ⟨state, executed, cleaned_of_reaches (reaches_of_execute .refl executed)⟩

/-- The put of a key `a_b` leaves the coroutine before its `try`. -/
theorem not_cleaned_underscore : ∃ state : PutState Unit,
    Reaches (PutState.step (smallGds ['a', '_', 'b'])) (fun _ _ => True) .initial state ∧
      ¬ Cleaned state := by
  have done : (Runs.execute (PutState.step (smallGds ['a', '_', 'b'])) (fun _ _ => True)
      [.submit () [2, 1, 2, 1], .start 0 ['A'] true] .initial).map PutState.tasks =
        some [⟨(), [2, 1, 2, 1], [], [], .abandoned, 0⟩] := by decide +kernel
  obtain ⟨state, executed, tasks⟩ := Option.map_eq_some_iff.mp done
  refine ⟨state, reaches_of_execute .refl executed, fun cleaned => ?_⟩
  have released := cleaned.released 0 ⟨(), [2, 1, 2, 1], [], [], .abandoned, 0⟩
    (by rw [tasks]; rfl) rfl
  cases released

end LMCacheHcu.Gds
