import Mathlib.Tactic.Linarith
import LMCacheHcu.Foundation.PythonValues

/-! # Numbers with an exact integer value

A float of JSON may stand for an integer. Comparisons of Python are of exact
values, and an operation on two integers in binary64 is exact as long as its
operands and its result are not above 2⁵³. A number denotes an integer when it is
that integer, or when it is a float of that value and everything is small.
-/

namespace Python

open Exceptions

variable {F : Type} (whole : F → ℤ → Prop)

/-- The largest integer up to which binary64 has all of them. -/
def exactLimit : ℤ := 2 ^ 53

/-- The exact value of the number is the integer. -/
def Number.Is : Number F → ℤ → Prop
  | .int value, exact => value = exact
  | .float value, exact => whole value exact

/-- The value counts as a number of that exact value. -/
def Value.IsInt (value : Value F) (exact : ℤ) : Prop :=
  ∃ number, value.number? = some number ∧ number.Is whole exact

def Value.isFloat : Value F → Bool
  | .float _ => true
  | _ => false

/-- The operation is exact on integers up to the limit. -/
def ExactOn (operation : Number F → Number F → Except Builtin (Number F))
    (exact : ℤ → ℤ → ℤ) : Prop :=
  ∀ left right first second, left.Is whole first → right.Is whole second →
    0 ≤ first → first ≤ exactLimit → 0 < second → second ≤ exactLimit →
    exact first second ≤ exactLimit →
    ∃ result, operation left right = .ok result ∧ result.Is whole (exact first second)

/-- What Python promises of floats that stand for integers. -/
structure Floats.Exact (floats : Floats F) : Prop where
  toInt : ∀ value exact, whole value exact → floats.toInt value = .ok exact
  eq : ∀ left right exact, Number.eq floats left right = true → right.Is whole exact →
    left.Is whole exact
  add : ExactOn whole (Number.add floats) (· + ·)
  sub : ExactOn whole (Number.sub floats) (· - ·)
  mul : ExactOn whole (Number.mul floats) (· * ·)
  floorDiv : ExactOn whole (Number.floorDiv floats) Int.fdiv

/-- Without floats, an operation is exact when it is on integers. -/
theorem exactOn_ofEmpty {whole : Empty → ℤ → Prop}
    {operation : Number Empty → Number Empty → Except Builtin (Number Empty)} {exact : ℤ → ℤ → ℤ}
    (ints : ∀ first second, 0 < second →
      operation (.int first) (.int second) = .ok (.int (exact first second))) :
    ExactOn whole operation exact := by
  intro left right first second leftIs rightIs _ _ positive _ _
  cases left with
  | int left =>
      cases right with
      | int right =>
          cases leftIs
          cases rightIs
          exact ⟨_, ints first second positive, rfl⟩
      | float right => exact right.elim
  | float left => exact left.elim

theorem Floats.Exact.ofEmpty {whole : Empty → ℤ → Prop} (floats : Floats Empty) :
    floats.Exact whole where
  toInt := fun value => value.elim
  eq := by
    rintro (left | left) (right | right) exact same is
    · exact (of_decide_eq_true same).trans is
    · exact right.elim
    · exact left.elim
    · exact left.elim
  add := exactOn_ofEmpty fun _ _ _ => rfl
  sub := exactOn_ofEmpty fun _ _ _ => rfl
  mul := exactOn_ofEmpty fun _ _ _ => rfl
  floorDiv := exactOn_ofEmpty fun _ _ positive => if_neg positive.ne'

/-- The number is the integer, or a float of that value where everything is small. -/
def Number.Denotes (small : Prop) (number : Number F) (exact : ℤ) : Prop :=
  number = .int exact ∨ small ∧ number.Is whole exact

section Denotes

variable {whole} {small : Prop}

theorem Number.Denotes.is {number : Number F} {exact : ℤ}
    (denotes : number.Denotes whole small exact) : number.Is whole exact := by
  rcases denotes with rfl | ⟨-, is⟩
  · rfl
  · exact is

/-- An operation that is exact on integers, and on floats up to the limit. -/
theorem ExactOn.denotes
    {operation : Number F → Number F → Except Builtin (Number F)} {exact : ℤ → ℤ → ℤ}
    (upTo : ExactOn whole operation exact) {left right : Number F} {first second : ℤ}
    (ints : operation (.int first) (.int second) = .ok (.int (exact first second)))
    (leftIs : left.Denotes whole small first) (rightIs : right.Denotes whole small second)
    (nonneg : 0 ≤ first) (positive : 0 < second)
    (bounds : small → first ≤ exactLimit ∧ second ≤ exactLimit ∧
      exact first second ≤ exactLimit) :
    ∃ result, operation left right = .ok result ∧
      result.Denotes whole small (exact first second) := by
  have floats (holds : small) : ∃ result, operation left right = .ok result ∧
      result.Denotes whole small (exact first second) := by
    obtain ⟨firstFits, secondFits, resultFits⟩ := bounds holds
    obtain ⟨result, returned, is⟩ := upTo left right first second leftIs.is rightIs.is nonneg
      firstFits positive secondFits resultFits
    exact ⟨result, returned, .inr ⟨holds, is⟩⟩
  rcases leftIs with rfl | ⟨holds, -⟩
  · rcases rightIs with rfl | ⟨holds, -⟩
    · exact ⟨_, ints, .inl rfl⟩
    · exact floats holds
  · exact floats holds

/-- A product of positive factors, as `math.prod` takes it from a first one. -/
theorem Floats.Exact.foldlM_mul {floats : Floats F} (promised : floats.Exact whole)
    {numbers : List (Number F)} {factors : List ℤ} {start : Number F} {first : ℤ}
    (factorsAre : List.Forall₂ (Number.Denotes whole small) numbers factors)
    (startIs : start.Denotes whole small first) (positive : 0 < first)
    (positives : ∀ factor ∈ factors, 0 < factor)
    (bound : small → first * factors.prod ≤ exactLimit) :
    ∃ result, numbers.foldlM (Number.mul floats) start = .ok result ∧
      result.Denotes whole small (first * factors.prod) := by
  induction factorsAre generalizing start first with
  | nil => exact ⟨start, rfl, by rwa [List.prod_nil, mul_one]⟩
  | @cons number factor numbers factors is _ ih =>
      have factorPositive := positives factor List.mem_cons_self
      have restPositive : 0 < factors.prod :=
        List.prod_pos fun other member => positives other (List.mem_cons_of_mem _ member)
      rw [List.prod_cons, ← mul_assoc] at bound ⊢
      -- Each partial product is at most the whole one.
      have partialLe : first * factor ≤ first * factor * factors.prod :=
        le_mul_of_one_le_right (mul_pos positive factorPositive).le restPositive
      have firstLe : first ≤ first * factor := le_mul_of_one_le_right positive.le factorPositive
      have factorLe : factor ≤ first * factor := le_mul_of_one_le_left factorPositive.le positive
      obtain ⟨next, multiplied, nextIs⟩ := promised.mul.denotes (Number.mul_int floats first factor)
        startIs is positive.le factorPositive fun holds => by
          have := bound holds
          exact ⟨by linarith, by linarith, by linarith⟩
      rw [List.foldlM_cons, multiplied]
      exact ih nextIs (mul_pos positive factorPositive)
        (fun other member => positives other (List.mem_cons_of_mem _ member)) bound

theorem Number.isInt_value {number : Number F} {exact : ℤ} (is : number.Is whole exact) :
    number.value.IsInt whole exact := by
  cases number with
  | int value => exact ⟨.int value, rfl, is⟩
  | float value => exact ⟨.float value, rfl, is⟩

end Denotes

namespace Value

variable {whole} {floats : Floats F}

theorem isInt_int (value : ℤ) : (Value.int value : Value F).IsInt whole value :=
  ⟨.int value, rfl, rfl⟩

/-- A value that is not a float is the integer it counts as. -/
theorem IsInt.denotes {small : Prop} {value : Value F} {exact : ℤ} (is : value.IsInt whole exact)
    (typed : value.isFloat = false ∨ small) :
    ∃ number, value.number? = some number ∧ number.Denotes whole small exact := by
  obtain ⟨number, counts, numberIs⟩ := is
  refine ⟨number, counts, ?_⟩
  rcases typed with notFloat | holds
  · cases value with
    | bool truth | int truth =>
        cases counts
        exact .inl (congrArg Number.int numberIs)
    | float _ => cases notFloat
    | none | text _ | list _ | dict _ => cases counts
  · exact .inr ⟨holds, numberIs⟩

/-- What equals a number of an exact value has that value. -/
theorem isInt_of_equals (promised : floats.Exact whole) {left right : Value F} {exact : ℤ}
    (same : left.equals floats right = true) (is : right.IsInt whole exact) :
    left.IsInt whole exact := by
  obtain ⟨second, secondCounts, secondIs⟩ := is
  have numbers : ∃ first, left.number? = some first ∧ first.eq floats second = true := by
    unfold equals at same
    split at same
    · cases secondCounts
    · rw [secondCounts] at same
      cases counts : left.number? with
      | none =>
          rw [counts] at same
          cases same
      | some first =>
          rw [counts] at same
          exact ⟨first, rfl, same⟩
  obtain ⟨first, firstCounts, equal⟩ := numbers
  exact ⟨first, firstCounts, promised.eq first second exact equal secondIs⟩

/-- What equals a text is that text. -/
theorem eq_of_equals_text {value : Value F} {expected : String}
    (same : value.equals floats (.text expected) = true) : value = .text expected := by
  cases value with
  | text actual => rw [of_decide_eq_true same]
  | none | bool _ | int _ | float _ | list _ | dict _ => cases same

theorem forall₂_isInt_of_equalItems (promised : floats.Exact whole) {lefts : List (Value F)}
    {exact : List ℤ} (same : equalItems floats lefts (exact.map .int) = true) :
    List.Forall₂ (IsInt whole) lefts exact := by
  induction lefts generalizing exact with
  | nil =>
      cases exact with
      | nil => exact .nil
      | cons => cases same
  | cons left lefts ih =>
      cases exact with
      | nil => cases same
      | cons value exact =>
          obtain ⟨head, tail⟩ := Bool.and_eq_true_iff.mp same
          exact .cons (isInt_of_equals promised head (isInt_int value)) (ih tail)

/-- `int(value)` of a number of an exact value. -/
theorem IsInt.toInt (promised : floats.Exact whole) {value : Value F} {exact : ℤ}
    (is : value.IsInt whole exact) : value.toInt floats = .ok exact := by
  obtain ⟨number, counts, numberIs⟩ := is
  cases value with
  | bool truth | int truth =>
      cases counts
      exact congrArg Except.ok numberIs
  | float value =>
      cases counts
      exact promised.toInt value exact numberIs
  | none | text _ | list _ | dict _ => cases counts

end Value

end Python
