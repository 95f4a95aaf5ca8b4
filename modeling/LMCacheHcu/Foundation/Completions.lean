import Mathlib.Data.List.Perm.Basic
import Mathlib.Data.List.Range
import Mathlib.Tactic

/-! # Completion counters

The jobs of a batch report to a counter as they end, and it tells one of them
that the batch is complete. Each job reports once and the last one is told so
exactly when those that have reported are the jobs of the batch.

A job goes through loops, each of which ends it, hands it on to the next loop or
is left by an exception. What is left by one is short of a job.
-/

namespace LMCacheHcu.Completions

/-! ### Counters -/

/-- A counter of the jobs that have ended. -/
structure Counter where
  expected : ℕ
  completed : ℕ
  announced : Bool
deriving DecidableEq

namespace Counter

/-- One more job has ended, and whether it is told that the batch is complete. -/
def finish (counter : Counter) : Bool × Counter :=
  let counted := { counter with completed := counter.completed + 1 }
  if counted.expected ≤ counted.completed ∧ counted.announced = false then
    (true, { counted with announced := true })
  else (false, counted)

/-- The counter when so many jobs have ended. -/
def reached (expected completed : ℕ) : Counter :=
  ⟨expected, completed, decide (expected ≤ completed)⟩

theorem finish_reached (expected completed : ℕ) :
    (reached expected completed).finish =
      (decide (completed + 1 = expected), reached expected (completed + 1)) := by
  rcases Nat.lt_trichotomy (completed + 1) expected with early | rfl | late
  · simp [finish, reached, show ¬ expected ≤ completed + 1 by omega,
      show ¬ expected ≤ completed by omega, show ¬ completed + 1 = expected by omega]
  · simp [finish, reached]
  · simp [finish, reached, show expected ≤ completed + 1 by omega,
      show expected ≤ completed by omega, show ¬ completed + 1 = expected by omega]

end Counter

/-! ### Reports -/

variable {Job : Type*}

/-- What jobs are told that report one after the other. -/
def reports (expected : ℕ) (jobs : List Job) : List (Job × Bool) :=
  jobs.zipIdx.map fun job => (job.1, decide (job.2 + 1 = expected))

theorem reports_concat (expected : ℕ) (jobs : List Job) (job : Job) :
    reports expected (jobs ++ [job]) =
      reports expected jobs ++ [(job, decide (jobs.length + 1 = expected))] := by
  simp [reports, List.zipIdx_append]

@[simp] theorem map_fst_reports (expected : ℕ) (jobs : List Job) :
    (reports expected jobs).map Prod.fst = jobs := by
  simp [reports, Function.comp_def]

theorem reported_of_mem {expected : ℕ} {jobs : List Job} {report : Job × Bool}
    (member : report ∈ reports expected jobs) (told : report.2 = true) :
    expected ≤ jobs.length := by
  obtain ⟨⟨job, index⟩, listed, rfl⟩ := List.mem_map.mp member
  have bound := (List.mem_zipIdx listed).2.1
  simp only [decide_eq_true_eq] at told
  omega

/-- **Settled.** Each of the jobs `0`, …, `expected - 1` has reported once and no
other has, and the last report alone has been told that the batch is complete. -/
structure Settled (expected : ℕ) (told : List (ℕ × Bool)) : Prop where
  once : ∀ job, (told.map Prod.fst).count job = if job < expected then 1 else 0
  last : ∃ before final, told = before ++ [(final, true)] ∧ ∀ report ∈ before, report.2 = false

theorem count_range (expected job : ℕ) :
    (List.range expected).count job = if job < expected then 1 else 0 := by
  split
  · rename_i inside
    exact List.count_eq_one_of_mem List.nodup_range (List.mem_range.mpr inside)
  · rename_i outside
    exact List.count_eq_zero_of_not_mem fun member => outside (List.mem_range.mp member)

/-- A batch is settled exactly when its jobs are those that have reported. -/
theorem settled_reports_iff {expected : ℕ} (positive : 0 < expected) (jobs : List ℕ) :
    Settled expected (reports expected jobs) ↔ jobs.Perm (List.range expected) := by
  refine ⟨fun settled => ?_, fun complete => ⟨fun job => ?_, ?_⟩⟩
  · rw [List.perm_iff_count]
    intro job
    rw [count_range, ← settled.once job, map_fst_reports]
  · rw [map_fst_reports, complete.count_eq, count_range]
  · have length : jobs.length = expected := by simpa using complete.length_eq
    obtain rfl | ⟨before, final, rfl⟩ := List.eq_nil_or_concat' jobs
    · simp at length
      omega
    · rw [List.length_append, List.length_singleton] at length
      refine ⟨reports expected before, final, ?_, fun report member => ?_⟩
      · rw [reports_concat, decide_eq_true length]
      · cases told : report.2 with
        | false => rfl
        | true =>
            have late := reported_of_mem member told
            omega

/-! ### Loops -/

variable {State Failure Label Later : Type*}

/-- A loop over jobs, which an exception leaves. -/
def forEach (body : Job → State → Except Failure Unit × State) :
    List Job → State → Except Failure Unit × State
  | [], state => (.ok (), state)
  | job :: jobs, state =>
      match body job state with
      | (.ok (), next) => forEach body jobs next
      | (.error failure, next) => (.error failure, next)

/-- What every turn keeps, the loop keeps. -/
theorem forEach_kept {Kept : Type*} (kept : State → Kept)
    {body : Job → State → Except Failure Unit × State} (keeps : ∀ job state, kept (body job state).2 = kept state)
    (jobs : List Job) (state : State) : kept (forEach body jobs state).2 = kept state := by
  induction jobs generalizing state with
  | nil => rfl
  | cons job jobs ih =>
      have here := keeps job state
      rw [forEach]
      rcases stepped : body job state with ⟨_ | _, next⟩
      · rw [stepped] at here
        exact here
      · rw [stepped] at here
        exact (ih next).trans here

/-- What a loop reads off its jobs and states: the jobs under which it ends them,
the turns that let no exception through, and what is handed on to a later loop. -/
structure Account (Job State Label Later : Type*) where
  label : Job → Label
  contained : Job → Prop
  hands : Job → Option Later
  ended : State → List Label
  handed : State → List Later

/-- What one turn of a loop does with its job: it ends the job or hands it on,
unless it lets an exception through. -/
inductive Account.Turn (account : Account Job State Label Later) (job : Job) (state : State) :
    Except Failure Unit × State → Prop
  | ends {next : State} (contained : account.contained job) (kept : account.hands job = none)
      (ended : account.ended next = account.ended state ++ [account.label job])
      (handed : account.handed next = account.handed state) : account.Turn job state (.ok (), next)
  | handsOn {next : State} {later : Later} (contained : account.contained job)
      (hands : account.hands job = some later) (ended : account.ended next = account.ended state)
      (handed : account.handed next = account.handed state ++ [later]) :
      account.Turn job state (.ok (), next)
  | escapes {next : State} {failure : Failure} (escaped : ¬ account.contained job)
      (ended : account.ended next = account.ended state)
      (handed : account.handed next = account.handed state) :
      account.Turn job state (.error failure, next)

section Account

variable (account : Account Job State Label Later) {body : Job → State → Except Failure Unit × State}
  (turns : ∀ job state, account.Turn job state (body job state))
include turns

/-- A loop without escapes has ended some of its jobs and handed on the others. -/
theorem forEach_through {jobs : List Job} (all : ∀ job ∈ jobs, account.contained job)
    (state : State) :
    ∃ next, forEach body jobs state = (.ok (), next) ∧
      account.ended next = account.ended state ++
        (jobs.filter fun job => (account.hands job).isNone).map account.label ∧
      account.handed next = account.handed state ++ jobs.filterMap account.hands := by
  induction jobs generalizing state with
  | nil => exact ⟨state, rfl, by simp, by simp⟩
  | cons job jobs ih =>
      obtain ⟨here, rest⟩ := List.forall_mem_cons.mp all
      have turn := turns job state
      rcases stepped : body job state with ⟨outcome, middle⟩
      rw [stepped] at turn
      cases turn with
      | ends _ kept ended handed =>
          obtain ⟨next, ran, endedRest, handedRest⟩ := ih rest middle
          refine ⟨next, ?_, ?_, ?_⟩
          · rw [forEach, stepped]
            exact ran
          · simp [endedRest, ended, kept]
          · simp [handedRest, handed, kept]
      | handsOn _ hands ended handed =>
          obtain ⟨next, ran, endedRest, handedRest⟩ := ih rest middle
          refine ⟨next, ?_, ?_, ?_⟩
          · rw [forEach, stepped]
            exact ran
          · simp [endedRest, ended, hands]
          · simp [handedRest, handed, hands]
      | escapes escaped => exact absurd here escaped

/-- A loop with an escape is left short of a job. -/
theorem forEach_escapes {jobs : List Job} (escape : ¬ ∀ job ∈ jobs, account.contained job)
    (state : State) :
    ∃ failure next, forEach body jobs state = (.error failure, next) ∧
      (account.ended next).length + (account.handed next).length <
        (account.ended state).length + (account.handed state).length + jobs.length := by
  induction jobs generalizing state with
  | nil => exact absurd (List.forall_mem_nil _) escape
  | cons job jobs ih =>
      have turn := turns job state
      rcases stepped : body job state with ⟨outcome, middle⟩
      rw [stepped] at turn
      cases turn with
      | ends contained _ ended handed =>
          have later : ¬ ∀ job ∈ jobs, account.contained job :=
            fun rest => escape (List.forall_mem_cons.mpr ⟨contained, rest⟩)
          obtain ⟨failure, next, ran, short⟩ := ih later middle
          refine ⟨failure, next, ?_, ?_⟩
          · rw [forEach, stepped]
            exact ran
          · rw [ended, handed, List.length_append, List.length_singleton] at short
            rw [List.length_cons]
            omega
      | handsOn contained _ ended handed =>
          have later : ¬ ∀ job ∈ jobs, account.contained job :=
            fun rest => escape (List.forall_mem_cons.mpr ⟨contained, rest⟩)
          obtain ⟨failure, next, ran, short⟩ := ih later middle
          refine ⟨failure, next, ?_, ?_⟩
          · rw [forEach, stepped]
            exact ran
          · rw [ended, handed, List.length_append, List.length_singleton] at short
            rw [List.length_cons]
            omega
      | @escapes _ failure _ ended handed =>
          refine ⟨failure, middle, ?_, ?_⟩
          · rw [forEach, stepped]
          · rw [ended, handed, List.length_cons]
            omega

end Account

/-- The jobs that a loop has ended and those that it has handed on are its jobs. -/
theorem perm_ended_handed (label : Job → Label) (hands : Job → Option Later)
    (laterLabel : Later → Label)
    (keeps : ∀ job later, hands job = some later → laterLabel later = label job)
    (jobs : List Job) :
    ((jobs.filter fun job => (hands job).isNone).map label ++
      (jobs.filterMap hands).map laterLabel).Perm (jobs.map label) := by
  induction jobs with
  | nil => exact .refl _
  | cons job jobs ih =>
      cases handedOn : hands job with
      | none => simpa [handedOn] using ih.cons (label job)
      | some later =>
          have same := keeps job later handedOn
          rw [List.filterMap_cons_some handedOn, List.map_cons, same, List.map_cons,
            List.filter_cons_of_neg (by simp [handedOn])]
          exact List.perm_middle.trans (ih.cons (label job))

end LMCacheHcu.Completions
