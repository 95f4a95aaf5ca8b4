import Mathlib.Tactic

/-! # Generators

The body of a generator is a tree: between two resumptions it emits events, then
it yields, returns or raises. A driver resumes it a number of times with given
inputs. One generator may resume another one inside its own body; when the inner
one returns at such a point, the outer one fails.
-/

namespace LMCacheHcu.Generator

/-- What a generator body still does. A resumption hands it the next input. -/
inductive Body (In Out Event Failure : Type*)
  | emit (event : Event) (next : Body In Out Event Failure)
  | yield (out : Out) (resume : In → Body In Out Event Failure)
  | stop
  | raise (failure : Failure)

/-- A generator that waits to be resumed. -/
abbrev Paused (In Out Event Failure : Type*) := In → Body In Out Event Failure

/-- How a driven generator is left. -/
inductive Ended (Failure : Type*)
  | suspended
  | stopIteration
  | raised (failure : Failure)
deriving DecidableEq, Repr

/-- What a driver sees: the events of the resumed stretches, the values yielded
and how the last stretch ended. -/
structure Run (Out Event Failure : Type*) where
  events : List Event
  outs : List Out
  ended : Ended Failure
deriving DecidableEq, Repr

variable {In Out Event Failure : Type*}

namespace Body

/-- Run a body and then resume it with the remaining inputs. -/
def run : Body In Out Event Failure → List In → Run Out Event Failure
  | emit event next, inputs =>
      let later := next.run inputs
      { later with events := event :: later.events }
  | yield out _, [] => ⟨[], [out], .suspended⟩
  | yield out resume, input :: inputs =>
      let later := (resume input).run inputs
      { later with outs := out :: later.outs }
  | stop, _ => ⟨[], [], .stopIteration⟩
  | raise failure, _ => ⟨[], [], .raised failure⟩

/-- Emit several events in order. -/
def emitAll (events : List Event) (next : Body In Out Event Failure) :
    Body In Out Event Failure :=
  events.foldr emit next

/-- `for _ in range(count): yield out`, then the rest of the body. -/
def yieldTimes (out : Out) (next : Body In Out Event Failure) :
    ℕ → Body In Out Event Failure
  | 0 => next
  | count + 1 => yield out fun _ => yieldTimes out next count

/-- Resume an inner generator inside an outer body. Its events are those of the
outer one; when it returns instead of yielding, the outer body raises. -/
def within {In' Out' : Type*} (returned : Failure)
    (next : Out' → Paused In' Out' Event Failure → Body In Out Event Failure) :
    Body In' Out' Event Failure → Body In Out Event Failure
  | emit event inner => emit event (within returned next inner)
  | yield out resume => next out resume
  | stop => raise returned
  | raise failure => raise failure

variable (next : Body In Out Event Failure) (inputs : List In)

@[simp] theorem run_emit (event : Event) :
    (emit event next).run inputs =
      { next.run inputs with events := event :: (next.run inputs).events } := rfl

@[simp] theorem run_stop : (stop : Body In Out Event Failure).run inputs =
    ⟨[], [], .stopIteration⟩ := rfl

@[simp] theorem run_raise (failure : Failure) :
    (raise failure : Body In Out Event Failure).run inputs = ⟨[], [], .raised failure⟩ := rfl

@[simp] theorem run_yield_nil (out : Out) (resume : Paused In Out Event Failure) :
    (yield out resume).run [] = ⟨[], [out], .suspended⟩ := rfl

@[simp] theorem run_yield_cons (out : Out) (resume : Paused In Out Event Failure) (input : In) :
    (yield out resume).run (input :: inputs) =
      { (resume input).run inputs with outs := out :: ((resume input).run inputs).outs } := rfl

@[simp] theorem run_emitAll (events : List Event) :
    (emitAll events next).run inputs =
      { next.run inputs with events := events ++ (next.run inputs).events } := by
  induction events with
  | nil => rfl
  | cons event events ih => rw [emitAll, List.foldr_cons, run_emit, ← emitAll, ih]; rfl

/-- A loop of yields answers that many resumptions before the body goes on. -/
theorem run_yieldTimes (out : Out) (count : ℕ) (first : List In)
    (long : first.length = count) :
    (yieldTimes out next count).run (first ++ inputs) =
      { next.run inputs with outs := List.replicate count out ++ (next.run inputs).outs } := by
  induction count generalizing first with
  | zero =>
      obtain rfl := List.length_eq_zero_iff.mp long
      rfl
  | succ count ih =>
      obtain ⟨input, rest, rfl⟩ := List.exists_cons_of_length_eq_add_one long
      rw [List.cons_append, yieldTimes, run_yield_cons, ih rest (by simpa using long)]
      rfl

@[simp] theorem within_emit {In' Out' : Type*} (returned : Failure)
    (continued : Out' → Paused In' Out' Event Failure → Body In Out Event Failure) (event : Event)
    (inner : Body In' Out' Event Failure) :
    within returned continued (emit event inner) =
      emit event (within returned continued inner) := rfl

@[simp] theorem within_yield {In' Out' : Type*} (returned : Failure)
    (continued : Out' → Paused In' Out' Event Failure → Body In Out Event Failure) (out : Out')
    (resume : Paused In' Out' Event Failure) :
    within returned continued (yield out resume) = continued out resume := rfl

@[simp] theorem within_stop {In' Out' : Type*} (returned : Failure)
    (continued : Out' → Paused In' Out' Event Failure → Body In Out Event Failure) :
    within returned continued (stop : Body In' Out' Event Failure) = raise returned := rfl

@[simp] theorem within_raise {In' Out' : Type*} (returned failure : Failure)
    (continued : Out' → Paused In' Out' Event Failure → Body In Out Event Failure) :
    within returned continued (raise failure : Body In' Out' Event Failure) = raise failure := rfl

@[simp] theorem within_emitAll {In' Out' : Type*} (returned : Failure)
    (continued : Out' → Paused In' Out' Event Failure → Body In Out Event Failure)
    (events : List Event) (inner : Body In' Out' Event Failure) :
    within returned continued (emitAll events inner) =
      emitAll events (within returned continued inner) := by
  induction events with
  | nil => rfl
  | cons event events ih => exact congrArg (emit event) ih

end Body

/-- Resume a waiting generator once for every input. -/
def drive (generator : Paused In Out Event Failure) : List In → Run Out Event Failure
  | [] => ⟨[], [], .suspended⟩
  | input :: inputs => (generator input).run inputs

/-- The next `count` resumptions with the same input. -/
def driveTimes (generator : Paused In Out Event Failure) (input : In) (count : ℕ) :
    Run Out Event Failure :=
  drive generator (List.replicate count input)

end LMCacheHcu.Generator
