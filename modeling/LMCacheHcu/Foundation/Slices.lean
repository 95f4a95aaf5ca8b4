import Mathlib.Data.List.Flatten
import Mathlib.Tactic.Ring

/-! # Slices that follow one another

A list is shared out in slices `xs[start:stop]`, each of which starts where the
one before it stops. A table of boundaries has one entry more than the list:
entry `i` is the position, in some other unit, at which element `i` starts.
-/

namespace Slices

/-- The elements from `start` up to `stop`. -/
structure Slice where
  start : ℕ
  stop : ℕ
deriving DecidableEq, Repr

namespace Slice

variable {α : Type*}

def of (slice : Slice) (xs : List α) : List α := (xs.drop slice.start).take (slice.stop - slice.start)

/-- The boundaries of the elements of a slice, the last one included. -/
def boundaries (slice : Slice) (table : List α) : List α :=
  (table.drop slice.start).take (slice.stop - slice.start + 1)

theorem of_add (start count : ℕ) (xs : List α) :
    Slice.of ⟨start, start + count⟩ xs = (xs.drop start).take count := by
  rw [of, Nat.add_sub_cancel_left]

theorem boundaries_add (start count : ℕ) (table : List α) :
    Slice.boundaries ⟨start, start + count⟩ table = (table.drop start).take (count + 1) := by
  rw [boundaries, Nat.add_sub_cancel_left]

theorem length_boundaries {slice : Slice} {table : List α} (ordered : slice.start ≤ slice.stop)
    (inside : slice.stop < table.length) :
    (slice.boundaries table).length = slice.stop - slice.start + 1 := by
  rw [boundaries, List.length_take, List.length_drop]
  omega

theorem boundaries_getElem? (slice : Slice) (table : List α) {i : ℕ}
    (inside : i ≤ slice.stop - slice.start) :
    (slice.boundaries table)[i]? = table[slice.start + i]? := by
  rw [boundaries, List.getElem?_take_of_lt (by omega), List.getElem?_drop]

theorem head?_boundaries (slice : Slice) (table : List α) :
    (slice.boundaries table).head? = table[slice.start]? := by
  rw [List.head?_eq_getElem?, slice.boundaries_getElem? table (Nat.zero_le _), Nat.add_zero]

theorem getLast?_boundaries {slice : Slice} {table : List α} (ordered : slice.start ≤ slice.stop)
    (inside : slice.stop < table.length) :
    (slice.boundaries table).getLast? = table[slice.stop]? := by
  rw [List.getLast?_eq_getElem?, length_boundaries ordered inside, Nat.add_sub_cancel,
    slice.boundaries_getElem? table le_rfl]
  congr 1
  omega

end Slice

/-- Nonempty slices that follow one another from `start` to `stop`. -/
inductive Contiguous : ℕ → ℕ → List Slice → Prop
  | nil (start : ℕ) : Contiguous start start []
  | cons {start middle stop : ℕ} {slices : List Slice} (nonempty : start < middle)
      (rest : Contiguous middle stop slices) : Contiguous start stop (⟨start, middle⟩ :: slices)

namespace Contiguous

variable {start stop : ℕ} {slices : List Slice}

theorem le (contiguous : Contiguous start stop slices) : start ≤ stop := by
  induction contiguous with
  | nil => exact le_rfl
  | cons nonempty _ ih => exact nonempty.le.trans ih

/-- Every slice is nonempty and lies in the range. -/
theorem inside (contiguous : Contiguous start stop slices) :
    ∀ slice ∈ slices, start ≤ slice.start ∧ slice.start < slice.stop ∧ slice.stop ≤ stop := by
  induction contiguous with
  | nil => simp
  | cons nonempty rest ih =>
      intro slice member
      rcases List.mem_cons.mp member with rfl | later
      · exact ⟨le_rfl, nonempty, rest.le⟩
      · obtain ⟨first, proper, last⟩ := ih slice later
        exact ⟨nonempty.le.trans first, proper, last⟩

/-- The slices are disjoint and in order. -/
theorem pairwise (contiguous : Contiguous start stop slices) :
    slices.Pairwise fun before after => before.stop ≤ after.start := by
  induction contiguous with
  | nil => exact List.Pairwise.nil
  | cons _ rest ih => exact List.pairwise_cons.mpr ⟨fun slice member => (rest.inside slice member).1, ih⟩

/-- The boundaries of a slice start with the last boundary of the slice before it. -/
theorem boundaries_isChain {α : Type*} {table : List α} (contiguous : Contiguous start stop slices)
    (inside : stop < table.length) :
    (slices.map fun slice => slice.boundaries table).IsChain fun before after =>
      after.head? = before.getLast? := by
  induction contiguous with
  | nil => exact List.IsChain.nil
  | cons nonempty rest ih =>
      cases rest with
      | nil => exact List.IsChain.singleton _
      | cons following rest =>
          refine List.isChain_cons_cons.mpr ⟨?_, ih inside⟩
          have last := rest.le
          rw [Slice.head?_boundaries, Slice.getLast?_boundaries nonempty.le]
          simp only
          omega

theorem head?_start (contiguous : Contiguous start stop slices) :
    ∀ slice ∈ slices.head?, slice.start = start := by
  cases contiguous with
  | nil => simp
  | cons _ _ => simp

/-- Together the slices are the range. -/
theorem flatten_of {α : Type*} (contiguous : Contiguous start stop slices) (xs : List α) :
    (slices.map fun slice => slice.of xs).flatten = Slice.of ⟨start, stop⟩ xs := by
  induction contiguous with
  | nil => simp [Slice.of]
  | @cons start middle stop slices nonempty rest ih =>
      have split : stop - start = (middle - start) + (stop - middle) := by
        have := rest.le
        omega
      have resume : start + (middle - start) = middle := by omega
      rw [List.map_cons, List.flatten_cons, ih]
      simp only [Slice.of]
      rw [split, List.take_add, List.drop_drop, resume]

end Contiguous

end Slices
