import Mathlib.Tactic

/-! # Loops

A loop whose body goes on in a new state or leaves with a result: by its
condition, by `break` or by an exception. A `while` loop is run with a bound on
its passes; an invariant with a variant shows that a large enough bound makes no
difference. A loop over a list stops at the first item whose body leaves.
-/

namespace WhileLoop

/-- What one pass of the body does. -/
inductive Pass (σ ρ : Type*)
  | again (state : σ)
  | leave (result : ρ)

variable {σ ρ : Type*}

/-- The loop, cut off after a number of passes. -/
def run (body : σ → Pass σ ρ) : ℕ → σ → Option ρ
  | 0, _ => none
  | passes + 1, state =>
      match body state with
      | .again next => run body passes next
      | .leave result => some result

/-- Each pass that goes on keeps the invariant and makes the variant smaller, and
a pass that leaves has the postcondition. -/
structure Total (body : σ → Pass σ ρ) (inv : σ → Prop) (variant : σ → ℕ) (post : ρ → Prop) :
    Prop where
  again : ∀ state next, inv state → body state = .again next →
    inv next ∧ variant next < variant state
  leave : ∀ state result, inv state → body state = .leave result → post result

variable {body : σ → Pass σ ρ} {inv : σ → Prop} {variant : σ → ℕ} {post : ρ → Prop} {state : σ}

/-- **Total correctness.** -/
theorem Total.exists_result (total : Total body inv variant post) (holds : inv state) :
    ∃ result, post result ∧ ∀ passes, variant state < passes →
      run body passes state = some result := by
  induction bound : variant state using Nat.strong_induction_on generalizing state with
  | _ size ih =>
      cases step : body state with
      | leave result =>
          refine ⟨result, total.leave state result holds step, fun passes enough => ?_⟩
          obtain ⟨passes, rfl⟩ := Nat.exists_eq_succ_of_ne_zero (Nat.ne_zero_of_lt enough)
          simp only [run, step]
      | again next =>
          obtain ⟨kept, smaller⟩ := total.again state next holds step
          obtain ⟨result, meets, runs⟩ := ih (variant next) (bound ▸ smaller) kept rfl
          refine ⟨result, meets, fun passes enough => ?_⟩
          obtain ⟨passes, rfl⟩ := Nat.exists_eq_succ_of_ne_zero (Nat.ne_zero_of_lt enough)
          simp only [run, step]
          exact runs passes (by omega)

/-- **Partial correctness.** Whatever the bound is, a result comes from a pass that
leaves in a state with the invariant. -/
theorem post_of_run (inv : σ → Prop) (post : ρ → Prop) {passes : ℕ} {result : ρ}
    (holds : inv state)
    (again : ∀ state next, inv state → body state = .again next → inv next)
    (leave : ∀ state result, inv state → body state = .leave result → post result)
    (runs : run body passes state = some result) : post result := by
  induction passes generalizing state with
  | zero => cases runs
  | succ passes ih =>
      cases step : body state with
      | again next =>
          simp only [run, step] at runs
          exact ih (again state next holds step) runs
      | leave left =>
          simp only [run, step, Option.some.injEq] at runs
          exact runs ▸ leave state left holds step

/-! ### Loops over a list -/

variable {α : Type*}

def forEach (body : σ → α → Pass σ ρ) : List α → σ → Pass σ ρ
  | [], state => .again state
  | item :: items, state =>
      match body state item with
      | .again next => forEach body items next
      | .leave result => .leave result

variable {each : σ → α → Pass σ ρ} {items : List α} {start : σ}

theorem forEach_append (first second : List α) :
    forEach each (first ++ second) start =
      match forEach each first start with
      | .again next => forEach each second next
      | .leave result => .leave result := by
  induction first generalizing start with
  | nil => rfl
  | cons item first ih =>
      rw [List.cons_append, forEach, forEach]
      cases each start item with
      | again next => exact ih
      | leave result => rfl

/-- The state in which the loop reaches an item. -/
theorem forEach_concat (item : α) :
    forEach each (items ++ [item]) start =
      match forEach each items start with
      | .again next => each next item
      | .leave result => .leave result := by
  rw [forEach_append]
  cases forEach each items start with
  | leave result => rfl
  | again next =>
      simp only [forEach]
      cases each next item <;> rfl

/-- **The point where the loop stops**: behind the last item, or at the first one
whose body leaves. -/
theorem exists_stop (each : σ → α → Pass σ ρ) (items : List α) (start : σ) :
    ∃ stop ≤ items.length, ∃ reached, forEach each (items.take stop) start = .again reached ∧
      ((stop = items.length ∧ forEach each items start = .again reached) ∨
        ∃ item result, items[stop]? = some item ∧ each reached item = .leave result ∧
          forEach each items start = .leave result) := by
  induction items generalizing start with
  | nil => exact ⟨0, le_rfl, start, rfl, .inl ⟨rfl, rfl⟩⟩
  | cons item items ih =>
      cases step : each start item with
      | leave result =>
          exact ⟨0, Nat.zero_le _, start, rfl, .inr ⟨item, result, rfl, step, by
            rw [forEach, step]⟩⟩
      | again next =>
          obtain ⟨stop, inside, reached, upTo, ends⟩ := ih next
          refine ⟨stop + 1, Nat.succ_le_succ inside, reached, ?_, ?_⟩
          · rw [List.take_succ_cons, forEach, step]
            exact upTo
          · rw [forEach, step]
            rcases ends with ⟨whole, runs⟩ | ⟨last, result, here, leaves, runs⟩
            · exact .inl ⟨congrArg (· + 1) whole, runs⟩
            · exact .inr ⟨last, result, here, leaves, runs⟩

/-- An invariant that also says how many items are done. -/
theorem forEach_invariant (inv : ℕ → σ → Prop) (initial : inv 0 start)
    (step : ∀ done item state next, items[done]? = some item →
      forEach each (items.take done) start = .again state → inv done state →
      each state item = .again next → inv (done + 1) next)
    {done : ℕ} (inside : done ≤ items.length) {reached : σ}
    (runs : forEach each (items.take done) start = .again reached) : inv done reached := by
  induction done generalizing reached with
  | zero =>
      cases runs
      exact initial
  | succ done ih =>
      have here := List.getElem?_eq_getElem (Nat.lt_of_succ_le inside)
      rw [List.take_add_one, here, Option.toList_some, forEach_concat] at runs
      cases before : forEach each (items.take done) start with
      | leave result =>
          rw [before] at runs
          cases runs
      | again state =>
          rw [before] at runs
          exact step done _ state reached here before (ih (Nat.le_of_succ_le inside) before) runs

end WhileLoop
