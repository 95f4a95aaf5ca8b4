import Mathlib.Algebra.BigOperators.Group.List.Basic
import Mathlib.Data.List.AList
import Mathlib.Tactic

/-! # Totals over an association list

The total of a measure over the values of a dictionary, and what inserting and
erasing do to it.
-/

namespace LMCacheHcu.Ledger

variable {Key Value : Type*}

/-- The sum of a measure over all values. -/
def total (measure : Value → ℤ) (entries : AList fun _ : Key => Value) : ℤ :=
  (entries.entries.map fun entry => measure entry.2).sum

@[simp] theorem total_empty (measure : Value → ℤ) :
    total measure (∅ : AList fun _ : Key => Value) = 0 := rfl

variable [DecidableEq Key] (measure : Value → ℤ) (entries : AList fun _ : Key => Value)

theorem total_insert_of_notMem {key : Key} (value : Value) (absent : key ∉ entries) :
    total measure (entries.insert key value) = total measure entries + measure value := by
  rw [total, AList.entries_insert_of_notMem absent, List.map_cons, List.sum_cons, add_comm]
  rfl

theorem erase_of_notMem {key : Key} (absent : key ∉ entries) : entries.erase key = entries :=
  AList.ext (List.kerase_of_notMem_keys absent)

theorem total_erase {key : Key} {value : Value} (here : entries.lookup key = some value) :
    total measure (entries.erase key) = total measure entries - measure value := by
  have member : key ∈ entries.entries.keys := AList.lookup_isSome.mp (by rw [here]; rfl)
  obtain ⟨found, before, after, fresh, split, erased⟩ := List.exists_of_kerase member
  have same : entries.lookup key = some found := by
    apply List.mem_dlookup entries.nodupKeys
    rw [split]
    exact List.mem_append_right _ (List.mem_cons_self ..)
  obtain rfl : value = found := Option.some.inj (here.symm.trans same)
  change ((List.kerase key entries.entries).map _).sum = (entries.entries.map _).sum - _
  rw [erased, split]
  simp only [List.map_append, List.map_cons, List.sum_append, List.sum_cons]
  ring

theorem total_insert {key : Key} {old : Value} (value : Value)
    (here : entries.lookup key = some old) :
    total measure (entries.insert key value) =
      total measure entries - measure old + measure value := by
  have absent : key ∉ entries.erase key := fun member => (AList.mem_erase.mp member).1 rfl
  have same : entries.insert key value = (entries.erase key).insert key value := by
    apply AList.ext
    rw [AList.entries_insert, AList.entries_insert_of_notMem absent]
    rfl
  rw [same, total_insert_of_notMem _ _ value absent, total_erase _ _ here]

/-- The part of a key is taken off and the part of the new value comes on. -/
theorem total_insert_getD (key : Key) (value : Value) :
    total measure (entries.insert key value) =
      total measure entries - ((entries.lookup key).map measure).getD 0 + measure value := by
  cases here : entries.lookup key with
  | none =>
      rw [total_insert_of_notMem _ _ value (AList.lookup_eq_none.mp here), Option.map_none,
        Option.getD_none, sub_zero]
  | some old => rw [total_insert _ _ value here, Option.map_some, Option.getD_some]

theorem total_erase_getD (key : Key) :
    total measure (entries.erase key) =
      total measure entries - ((entries.lookup key).map measure).getD 0 := by
  cases here : entries.lookup key with
  | none =>
      rw [erase_of_notMem _ (AList.lookup_eq_none.mp here), Option.map_none, Option.getD_none,
        sub_zero]
  | some value => rw [total_erase _ _ here, Option.map_some, Option.getD_some]

omit [DecidableEq Key] in
theorem total_nonneg (nonneg : ∀ value, 0 ≤ measure value) : 0 ≤ total measure entries :=
  List.sum_nonneg fun _ member => by
    obtain ⟨entry, _, rfl⟩ := List.mem_map.mp member
    exact nonneg entry.2

/-- A total is zero when every value measures zero. -/
theorem total_eq_zero
    (zero : ∀ key value, entries.lookup key = some value → measure value = 0) :
    total measure entries = 0 :=
  List.sum_eq_zero fun _ member => by
    obtain ⟨⟨key, value⟩, here, rfl⟩ := List.mem_map.mp member
    exact zero key value (AList.mem_lookup_iff.mpr here)

/-- The part of one key is at most the total. -/
theorem lookup_le_total (nonneg : ∀ value, 0 ≤ measure value) (key : Key) :
    ((entries.lookup key).map measure).getD 0 ≤ total measure entries := by
  have rest := total_nonneg measure (entries.erase key) nonneg
  rw [total_erase_getD] at rest
  linarith

end LMCacheHcu.Ledger
