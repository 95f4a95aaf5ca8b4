import Mathlib.Data.List.Basic
import Mathlib.Tactic

/-! # Boolean masks assigned on index ranges

A mask is a list of booleans. `fillRange` is the slice assignment of a
half-open index range, cut off at the end of the mask as slices are. The laws
here say what one assignment does at one index; everything else about masks
built from several assignments follows from them.
-/

namespace RangeMask

/-- Assign `value` to every index of `[start, stop)` that the mask has. -/
def fillRange (mask : List Bool) (start stop : Nat) (value : Bool) : List Bool :=
  mask.mapIdx fun index old => if start ≤ index ∧ index < stop then value else old

@[simp] theorem length_fillRange (mask : List Bool) (start stop : Nat) (value : Bool) :
    (fillRange mask start stop value).length = mask.length := by
  simp only [fillRange, List.length_mapIdx]

theorem getElem?_fillRange (mask : List Bool) (start stop : Nat) (value : Bool) (index : Nat) :
    (fillRange mask start stop value)[index]? =
      mask[index]?.map fun old => if start ≤ index ∧ index < stop then value else old := by
  simp only [fillRange, List.getElem?_mapIdx]

/-- Setting a range keeps exactly the old marks and the range's own indices. -/
theorem fillRange_true_iff (mask : List Bool) (start stop index : Nat) :
    (fillRange mask start stop true)[index]? = some true ↔
      index < mask.length ∧ (mask[index]? = some true ∨ start ≤ index ∧ index < stop) := by
  rw [getElem?_fillRange]
  by_cases inside : index < mask.length
  · by_cases ranged : start ≤ index ∧ index < stop
    · simp [inside, ranged]
    · simp [inside, ranged]
  · simp [inside]

/-- Clearing the tail of a mask keeps exactly the marks before the cut. -/
theorem clearTail_true_iff (mask : List Bool) (cut index : Nat) :
    (fillRange mask cut mask.length false)[index]? = some true ↔
      mask[index]? = some true ∧ index < cut := by
  rw [getElem?_fillRange]
  by_cases inside : index < mask.length
  · by_cases cutOff : cut ≤ index
    · simp [inside, cutOff]
    · have before : index < cut := Nat.lt_of_not_le cutOff
      simp [inside, cutOff, before]
  · simp [inside]

/-- Clearing the head of a mask keeps exactly the marks from the cut on. -/
theorem clearHead_true_iff (mask : List Bool) (cut index : Nat) :
    (fillRange mask 0 cut false)[index]? = some true ↔
      mask[index]? = some true ∧ cut ≤ index := by
  rw [getElem?_fillRange]
  by_cases inside : index < mask.length
  · by_cases cutOff : index < cut
    · simp [inside, cutOff]
    · have after : cut ≤ index := Nat.le_of_not_lt cutOff
      simp [inside, cutOff, after]
  · simp [inside]

theorem replicate_true_iff (length index : Nat) :
    (List.replicate length true)[index]? = some true ↔ index < length := by
  simp [List.getElem?_replicate]

theorem replicate_false_not_true (length index : Nat) :
    (List.replicate length false)[index]? ≠ some true := by
  simp [List.getElem?_replicate]

/-- Masks of one length with the same marks are equal. -/
theorem ext_true {left right : List Bool} (same : left.length = right.length)
    (marks : ∀ index : Nat, left[index]? = some true ↔ right[index]? = some true) :
    left = right := by
  apply List.ext_getElem same
  intro index inLeft inRight
  have here := marks index
  rw [List.getElem?_eq_getElem inLeft, List.getElem?_eq_getElem inRight, Option.some.injEq,
    Option.some.injEq] at here
  exact Bool.eq_iff_iff.mpr here

/-- How many indices of `[start, stop)` a mask leaves unmarked; indices beyond
the end of the mask count as unmarked. -/
def unmarked (mask : List Bool) (start stop : Nat) : Nat :=
  (List.range' start (stop - start)).countP fun index => mask[index]? ≠ some true

theorem count_true_add_unmarked_zero (mask : List Bool) {stop : Nat}
    (short : mask.length ≤ stop) : mask.count true + unmarked mask 0 stop = stop := by
  induction mask generalizing stop with
  | nil => simp [unmarked]
  | cons mark rest ih =>
      obtain ⟨stop, rfl⟩ : ∃ shorter, stop = shorter + 1 :=
        Nat.exists_eq_succ_of_ne_zero (by rintro rfl; simp at short)
      have tail := ih (Nat.le_of_succ_le_succ short)
      have shifted : unmarked (mark :: rest) 0 (stop + 1) =
          (if mark then 0 else 1) + unmarked rest 0 stop := by
        simp only [unmarked, Nat.sub_zero, ← List.range_eq_range']
        rw [List.range_succ_eq_map, List.countP_cons, List.countP_map]
        cases mark <;> simp [Function.comp_def, Nat.add_comm]
      rw [shifted]
      cases mark with
      | false =>
          simp only [Bool.false_eq_true, if_false, List.count_cons_of_ne (by decide : false ≠ true)]
          omega
      | true =>
          simp only [if_true, List.count_cons_self]
          omega

/-- The marks of a mask split at `start`: those before it, and the indices of
`[start, stop)` that are not unmarked. -/
theorem count_true_add_unmarked (mask : List Bool) {start stop : Nat} (ordered : start ≤ stop)
    (short : mask.length ≤ stop) :
    mask.count true + unmarked mask start stop =
      (mask.take start).count true + (stop - start) := by
  have split : mask.count true = (mask.take start).count true + (mask.drop start).count true := by
    rw [← List.count_append, List.take_append_drop]
  have moved : unmarked mask start stop = unmarked (mask.drop start) 0 (stop - start) := by
    simp only [unmarked, Nat.sub_zero, ← List.range_eq_range']
    rw [List.range'_eq_map_range, List.countP_map]
    simp only [Function.comp_def, List.getElem?_drop]
  have remains : (mask.drop start).length ≤ stop - start := by
    rw [List.length_drop]
    omega
  have rest := count_true_add_unmarked_zero (mask.drop start) remains
  omega

theorem unmarked_of_le (mask : List Bool) {start stop : Nat} (empty : stop ≤ start) :
    unmarked mask start stop = 0 := by
  rw [unmarked, Nat.sub_eq_zero_of_le empty]
  rfl

/-- One unmarked index of the range is enough for the count to be positive. -/
theorem unmarked_pos {mask : List Bool} {start stop index : Nat} (above : start ≤ index)
    (below : index < stop) (clear : mask[index]? ≠ some true) : 0 < unmarked mask start stop := by
  rw [unmarked, List.countP_pos_iff]
  refine ⟨index, ?_, by simpa using clear⟩
  rw [List.mem_range'_1]
  omega

end RangeMask
