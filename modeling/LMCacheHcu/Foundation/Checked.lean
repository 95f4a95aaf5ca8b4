import Mathlib.Data.List.Forall2
import Mathlib.Tactic

/-! # Checks that raise

A function with checks is an `Except` computation. From the fact that one
returned, these rules read off that every check on its way passed and that
every computation it used returned.
-/

namespace Checked

variable {ε α β : Type}

theorem bind_ok {first : Except ε α} {next : α → Except ε β} {result : β} :
    (first >>= next) = .ok result ↔ ∃ value, first = .ok value ∧ next value = .ok result := by
  cases first with
  | error failure =>
      constructor
      · intro returned
        cases returned
      · rintro ⟨_, returned, _⟩
        cases returned
  | ok value =>
      constructor
      · exact fun returned => ⟨value, rfl, returned⟩
      · rintro ⟨_, returned, rest⟩
        cases returned
        exact rest

theorem ok_bind (value : α) (next : α → Except ε β) :
    ((.ok value : Except ε α) >>= next) = next value := rfl

theorem throw_bind (failure : ε) (next : α → Except ε β) :
    ((throw failure : Except ε α) >>= next) = .error failure := rfl

theorem check_ok {condition : Prop} [Decidable condition] {failure : ε} {rest : Except ε α}
    {result : α} :
    (if condition then .error failure else rest) = .ok result ↔
      ¬ condition ∧ rest = .ok result := by
  by_cases failed : condition
  · simp [failed]
  · simp [failed]

/-- The same for a check that ends a computation. -/
theorem last_check_ok {condition : Prop} [Decidable condition] {failure : ε} {rest : Except ε α}
    {result : α} :
    (if condition then throw failure else rest) = .ok result ↔
      ¬ condition ∧ rest = .ok result :=
  check_ok

theorem return_ok {value result : α} : (pure value : Except ε α) = .ok result ↔ value = result := by
  constructor
  · intro returned
    cases returned
    rfl
  · rintro rfl
    rfl

theorem mapError_ok {ε' : Type} {translate : ε → ε'} {compute : Except ε α} {result : α} :
    compute.mapError translate = .ok result ↔ compute = .ok result := by
  cases compute with
  | error failure =>
      constructor
      · intro returned
        cases returned
      · intro returned
        cases returned
  | ok value => rw [Except.mapError, Except.ok.injEq, Except.ok.injEq]

/-- A list of computations returns when each of them does. -/
theorem mapM_ok {items : List α} {compute : α → Except ε β} {results : List β} :
    items.mapM compute = .ok results ↔
      List.Forall₂ (fun item result => compute item = .ok result) items results := by
  induction items generalizing results with
  | nil =>
      rw [List.mapM_nil, return_ok, List.forall₂_nil_left_iff, eq_comm]
  | cons item items ih =>
      rw [List.mapM_cons, bind_ok, List.forall₂_cons_left_iff]
      refine exists_congr fun result => ?_
      simp only [bind_ok, return_ok, ih, exists_and_left, eq_comm (b := results)]

theorem length_mapM {items : List α} {compute : α → Except ε β} {results : List β}
    (returned : items.mapM compute = .ok results) : results.length = items.length :=
  (mapM_ok.mp returned).length_eq.symm

/-- The results are those of the items at the same positions. -/
theorem mapM_getElem? {items : List α} {compute : α → Except ε β} {results : List β}
    (returned : items.mapM compute = .ok results) {index : ℕ} {item : α} {result : β}
    (here : items[index]? = some item) (there : results[index]? = some result) :
    compute item = .ok result := by
  obtain ⟨_, pointwise⟩ := List.forall₂_iff_zip.mp (mapM_ok.mp returned)
  exact pointwise (List.mem_iff_getElem?.mpr ⟨index, List.getElem?_zip_eq_some.mpr ⟨here, there⟩⟩)

/-- When every computation returns something of a kind, all of them return together. -/
theorem mapM_returns {items : List α} {compute : α → Except ε β} {kind : β → Prop}
    (each : ∀ item ∈ items, ∃ result, compute item = .ok result ∧ kind result) :
    ∃ results, items.mapM compute = .ok results ∧ results.length = items.length ∧
      ∀ result ∈ results, kind result := by
  induction items with
  | nil => exact ⟨[], rfl, rfl, fun result member => absurd member List.not_mem_nil⟩
  | cons item items ih =>
      obtain ⟨⟨result, returned, first⟩, others⟩ := List.forall_mem_cons.mp each
      obtain ⟨results, rest, lengths, all⟩ := ih others
      refine ⟨result :: results, ?_, congrArg (· + 1) lengths, List.forall_mem_cons.mpr ⟨first, all⟩⟩
      rw [List.mapM_cons, returned, ok_bind, rest]
      rfl

/-- Checks of a list all pass when each of them does. -/
theorem forM_ok {items : List α} {check : α → Except ε Unit} :
    items.forM check = .ok () ↔ ∀ item ∈ items, check item = .ok () := by
  induction items with
  | nil => exact iff_of_true rfl fun item member => absurd member List.not_mem_nil
  | cons item items ih =>
      have unfolded : (item :: items).forM check = (check item >>= fun _ => items.forM check) := rfl
      rw [unfolded, bind_ok, List.forall_mem_cons, ← ih]
      constructor
      · rintro ⟨_, passed, rest⟩
        exact ⟨passed, rest⟩
      · rintro ⟨passed, rest⟩
        exact ⟨(), passed, rest⟩

/-! ### Computations without a reason -/

theorem mapM_some {items : List α} {compute : α → Option β} {results : List β} :
    items.mapM compute = some results ↔
      List.Forall₂ (fun item result => compute item = some result) items results := by
  induction items generalizing results with
  | nil =>
      rw [List.mapM_nil, List.forall₂_nil_left_iff, eq_comm (a := results)]
      exact Option.some_inj
  | cons item items ih =>
      rw [List.mapM_cons, Option.bind_eq_bind, Option.bind_eq_some_iff,
        List.forall₂_cons_left_iff]
      refine exists_congr fun result => ?_
      simp only [Option.bind_eq_bind, Option.bind_eq_some_iff, Option.pure_def, Option.some.injEq,
        ih, exists_and_left, eq_comm (b := results)]

theorem mapM_range_some {count : ℕ} {compute : ℕ → Option β} {result : ℕ → β} :
    (List.range count).mapM compute = some ((List.range count).map result) ↔
      ∀ index < count, compute index = some (result index) := by
  simp only [mapM_some, List.forall₂_map_right_iff, List.forall₂_same, List.mem_range]

/-- A list of computations that is defined has all of them defined. -/
theorem exists_of_mapM_some {items : List α} {compute : α → Option β} {results : List β}
    (defined : items.mapM compute = some results) {item : α} (member : item ∈ items) :
    ∃ result, compute item = some result := by
  have pointwise := mapM_some.mp defined
  clear defined
  induction pointwise with
  | nil => exact absurd member List.not_mem_nil
  | cons here _ ih =>
      rcases List.mem_cons.mp member with rfl | later
      · exact ⟨_, here⟩
      · exact ih later

/-- A loop whose computations each have one result, when they have one. -/
theorem mapM_range_iff {count : ℕ} {compute : ℕ → Option β} {defined : ℕ → Prop} {result : ℕ → β}
    (each : ∀ index < count, ∀ value,
      compute index = some value ↔ defined index ∧ value = result index) {results : List β} :
    (List.range count).mapM compute = some results ↔
      (∀ index < count, defined index) ∧ results = (List.range count).map result := by
  have whole (all : ∀ index < count, defined index) :
      (List.range count).mapM compute = some ((List.range count).map result) :=
    mapM_range_some.mpr fun index inside => (each index inside _).mpr ⟨all index inside, rfl⟩
  constructor
  · intro run
    have all : ∀ index < count, defined index := by
      intro index inside
      obtain ⟨value, made⟩ := exists_of_mapM_some run (List.mem_range.mpr inside)
      exact ((each index inside value).mp made).1
    exact ⟨all, Option.some.inj (run.symm.trans (whole all))⟩
  · rintro ⟨all, rfl⟩
    exact whole all

end Checked
