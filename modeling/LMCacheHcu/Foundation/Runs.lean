import Mathlib.Algebra.BigOperators.Group.List.Basic
import Mathlib.Tactic

/-! # Runs of a machine

A machine is a partial step function on states and events. A run may be
restricted to steps that meet a condition on the event and the state before it;
what such steps preserve holds in every state that such a run reaches.
-/

namespace LMCacheHcu.Runs

variable {State Event : Type*}

/-- The states that a run reaches whose steps all meet the condition. -/
inductive Reaches (step : State → Event → Option State) (condition : State → Event → Prop)
    (start : State) : State → Prop
  | refl : Reaches step condition start start
  | tail {middle final : State} {event : Event} : Reaches step condition start middle →
      condition middle event → step middle event = some final →
        Reaches step condition start final

variable {step : State → Event → Option State} {condition : State → Event → Prop}

/-- What the start has and every such step keeps, every state reached has. -/
theorem Reaches.invariant {holds : State → Prop} {start final : State}
    (reached : Reaches step condition start final) (initial : holds start)
    (preserved : ∀ middle next event, holds middle → condition middle event →
      step middle event = some next → holds next) : holds final := by
  induction reached with
  | refl => exact initial
  | tail _ met stepped ih => exact preserved _ _ _ ih met stepped

theorem Reaches.trans {start middle final : State} (first : Reaches step condition start middle)
    (second : Reaches step condition middle final) : Reaches step condition start final := by
  induction second with
  | refl => exact first
  | tail _ met stepped ih => exact ih.tail met stepped

/-- A run under a condition is a run under a weaker one. -/
theorem Reaches.mono {weaker : State → Event → Prop} {start final : State}
    (reached : Reaches step condition start final)
    (implied : ∀ state event, condition state event → weaker state event) :
    Reaches step weaker start final := by
  induction reached with
  | refl => exact .refl
  | tail _ met stepped ih => exact ih.tail (implied _ _ met) stepped

/-- Take the steps of a list of events, as long as they meet the condition. -/
def execute (step : State → Event → Option State) (condition : State → Event → Prop)
    [∀ state event, Decidable (condition state event)] : List Event → State → Option State
  | [], state => some state
  | event :: events, state =>
      if condition state event then (step state event).bind (execute step condition events)
      else none

theorem reaches_of_execute [∀ state event, Decidable (condition state event)]
    {events : List Event} {start middle final : State}
    (before : Reaches step condition start middle)
    (executed : execute step condition events middle = some final) :
    Reaches step condition start final := by
  induction events generalizing middle with
  | nil =>
      cases executed
      exact before
  | cons event events ih =>
      rw [execute] at executed
      split at executed
      · rename_i met
        obtain ⟨next, stepped, rest⟩ := Option.bind_eq_some_iff.mp executed
        exact ih (before.tail met stepped) rest
      · cases executed

/-! ### Lists of threads -/

variable {Thread : Type*}

/-- Replacing one thread changes a sum over all threads by its part. -/
theorem sum_map_set (measure : Thread → ℤ) {threads : List Thread} {index : ℕ} {thread : Thread}
    (here : threads[index]? = some thread) (next : Thread) :
    ((threads.set index next).map measure).sum =
      (threads.map measure).sum - measure thread + measure next := by
  induction threads generalizing index with
  | nil => simp at here
  | cons first threads ih =>
      cases index with
      | zero =>
          obtain rfl : first = thread := by simpa using here
          simp only [List.set_cons_zero, List.map_cons, List.sum_cons]
          ring
      | succ index =>
          simp only [List.set_cons_succ, List.map_cons, List.sum_cons,
            ih (by simpa using here : threads[index]? = some thread)]
          ring

theorem sum_nonneg {measure : Thread → ℤ} (nonneg : ∀ thread, 0 ≤ measure thread)
    (threads : List Thread) : 0 ≤ (threads.map measure).sum :=
  List.sum_nonneg fun _ mapped => by
    obtain ⟨thread, _, rfl⟩ := List.mem_map.mp mapped
    exact nonneg thread

/-- Replacing one thread leaves the others in the list. -/
theorem eq_or_mem_set {threads : List Thread} {index : ℕ} {thread other : Thread}
    (here : threads[index]? = some thread) (next : Thread) (member : other ∈ threads) :
    other = thread ∨ other ∈ threads.set index next := by
  obtain ⟨position, there⟩ := List.mem_iff_getElem?.mp member
  by_cases same : position = index
  · subst same
    exact .inl (Option.some.inj (there.symm.trans here))
  · exact .inr (List.mem_of_getElem? ((List.getElem?_set_ne (Ne.symm same)).trans there))

theorem mem_set_self {threads : List Thread} {index : ℕ} {thread : Thread}
    (here : threads[index]? = some thread) (next : Thread) : next ∈ threads.set index next :=
  List.mem_set (List.getElem?_eq_some_iff.mp here).1 next

/-- A sum of nonnegative parts is at least each of them. -/
theorem le_sum_of_mem {measure : Thread → ℤ} (nonneg : ∀ thread, 0 ≤ measure thread)
    {threads : List Thread} {thread : Thread} (member : thread ∈ threads) :
    measure thread ≤ (threads.map measure).sum :=
  List.single_le_sum (fun _ mapped => by
    obtain ⟨other, _, rfl⟩ := List.mem_map.mp mapped
    exact nonneg other) _ (List.mem_map_of_mem member)

/-- A sum of nonnegative parts is positive when one of them is. -/
theorem sum_pos_iff {measure : Thread → ℤ} (nonneg : ∀ thread, 0 ≤ measure thread)
    (threads : List Thread) :
    0 < (threads.map measure).sum ↔ ∃ thread ∈ threads, 0 < measure thread := by
  induction threads with
  | nil => simp
  | cons first threads ih =>
      have head := nonneg first
      have tail := sum_nonneg nonneg threads
      simp only [List.map_cons, List.sum_cons, List.mem_cons, exists_eq_or_imp, ← ih]
      omega

end LMCacheHcu.Runs
