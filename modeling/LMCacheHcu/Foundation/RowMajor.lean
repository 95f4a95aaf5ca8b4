import Mathlib.Algebra.BigOperators.Group.List.Basic
import Mathlib.Data.List.Forall2
import Mathlib.Tactic

/-! # Row-major positions

Positions of the cells of a multidimensional array whose last index varies
fastest, and positions under arbitrary strides. A row-major position determines
its index, and every number below the size of the array is one; with these two
facts a contiguous byte range can be read as a set of cells and back.
-/

namespace RowMajor

/-- The index has one entry for each dimension, below that dimension. -/
def InRange (shape index : List ℕ) : Prop := List.Forall₂ (· < ·) index shape

instance (shape index : List ℕ) : Decidable (InRange shape index) :=
  inferInstanceAs (Decidable (List.Forall₂ _ _ _))

@[simp] theorem inRange_nil : InRange [] [] := List.Forall₂.nil

@[simp] theorem inRange_cons (dim coordinate : ℕ) (shape index : List ℕ) :
    InRange (dim :: shape) (coordinate :: index) ↔ coordinate < dim ∧ InRange shape index :=
  List.forall₂_cons

/-- An index into four dimensions has four entries. -/
theorem exists_of_inRange_four {dim dim₂ dim₃ dim₄ : ℕ} {index : List ℕ}
    (inside : InRange [dim, dim₂, dim₃, dim₄] index) :
    ∃ i < dim, ∃ j < dim₂, ∃ k < dim₃, ∃ l < dim₄, index = [i, j, k, l] := by
  obtain ⟨i, _, iIn, after, rfl⟩ := List.forall₂_cons_right_iff.mp inside
  obtain ⟨j, _, jIn, after', rfl⟩ := List.forall₂_cons_right_iff.mp after
  obtain ⟨k, _, kIn, last, rfl⟩ := List.forall₂_cons_right_iff.mp after'
  obtain ⟨l, _, lIn, done, rfl⟩ := List.forall₂_cons_right_iff.mp last
  rw [List.forall₂_nil_right_iff.mp done]
  exact ⟨i, iIn, j, jIn, k, kIn, l, lIn, rfl⟩

theorem exists_of_inRange_five {dim dim₂ dim₃ dim₄ dim₅ : ℕ} {index : List ℕ}
    (inside : InRange [dim, dim₂, dim₃, dim₄, dim₅] index) :
    ∃ i < dim, ∃ j < dim₂, ∃ k < dim₃, ∃ l < dim₄, ∃ m < dim₅, index = [i, j, k, l, m] := by
  obtain ⟨i, _, iIn, after, rfl⟩ := List.forall₂_cons_right_iff.mp inside
  obtain ⟨j, jIn, k, kIn, l, lIn, m, mIn, rfl⟩ := exists_of_inRange_four after
  exact ⟨i, iIn, j, jIn, k, kIn, l, lIn, m, mIn, rfl⟩

/-- The position of an index under given strides. -/
def strided : List ℕ → List ℕ → ℕ
  | stride :: strides, coordinate :: index => coordinate * stride + strided strides index
  | _, _ => 0

/-- The strides of a row-major array. -/
def denseStrides : List ℕ → List ℕ
  | [] => []
  | _ :: shape => shape.prod :: denseStrides shape

/-- The row-major position of an index. -/
def offset (shape index : List ℕ) : ℕ := strided (denseStrides shape) index

@[simp] theorem strided_cons (stride coordinate : ℕ) (strides index : List ℕ) :
    strided (stride :: strides) (coordinate :: index) =
      coordinate * stride + strided strides index := rfl

@[simp] theorem strided_nil (strides : List ℕ) : strided strides [] = 0 := by
  cases strides <;> rfl

@[simp] theorem offset_cons (dim coordinate : ℕ) (shape index : List ℕ) :
    offset (dim :: shape) (coordinate :: index) =
      coordinate * shape.prod + offset shape index := rfl

@[simp] theorem offset_nil (shape : List ℕ) : offset shape [] = 0 := strided_nil _

theorem strided_zeros (strides : List ℕ) (count : ℕ) :
    strided strides (List.replicate count 0) = 0 := by
  induction count generalizing strides with
  | zero => exact strided_nil strides
  | succ count ih =>
      cases strides with
      | nil => rfl
      | cons stride strides => rw [List.replicate_succ, strided_cons, Nat.zero_mul, ih]

/-- Only the second coordinate moves. -/
theorem strided_second (strides : List ℕ) (coordinate count : ℕ) :
    strided strides (0 :: coordinate :: List.replicate count 0) =
      coordinate * strides.getD 1 0 := by
  match strides with
  | [] => rfl
  | [stride] => simp [strided]
  | stride :: second :: rest => simp [strided_zeros]

/-! ### One coordinate -/

theorem digit_lt {high count low size : ℕ} (below : high < count) (inside : low < size) :
    high * size + low < count * size :=
  calc high * size + low < high * size + size := Nat.add_lt_add_left inside _
    _ = (high + 1) * size := (Nat.succ_mul high size).symm
    _ ≤ count * size := Nat.mul_le_mul_right size below

theorem digit_inj {high high' low low' size : ℕ} (inside : low < size) (inside' : low' < size)
    (same : high * size + low = high' * size + low') : high = high' ∧ low = low' := by
  have positive : 0 < size := Nat.zero_lt_of_lt inside
  have quotient := congrArg (· / size) same
  simp only [Nat.mul_comm _ size, Nat.mul_add_div positive, Nat.div_eq_of_lt inside,
    Nat.div_eq_of_lt inside', Nat.add_zero] at quotient
  subst quotient
  exact ⟨rfl, Nat.add_left_cancel same⟩

theorem digit_div {high low size : ℕ} (inside : low < size) : (high * size + low) / size = high := by
  rw [Nat.mul_comm, Nat.mul_add_div (Nat.zero_lt_of_lt inside), Nat.div_eq_of_lt inside,
    Nat.add_zero]

theorem digit_mod {high low size : ℕ} (inside : low < size) :
    (high * size + low) % size = low := by
  rw [Nat.mul_comm, Nat.mul_add_mod, Nat.mod_eq_of_lt inside]

theorem exists_digit {position count size : ℕ} (below : position < count * size) :
    ∃ high low, high < count ∧ low < size ∧ position = high * size + low := by
  have positive : 0 < size := Nat.pos_of_mul_pos_left (Nat.zero_lt_of_lt below)
  exact ⟨position / size, position % size, Nat.div_lt_of_lt_mul (by rwa [Nat.mul_comm] at below),
    Nat.mod_lt _ positive, (Nat.div_add_mod' position size).symm⟩

/-! ### Whole indices -/

theorem offset_lt {shape index : List ℕ} (inside : InRange shape index) :
    offset shape index < shape.prod := by
  induction inside with
  | nil => exact Nat.one_pos
  | cons below _ ih =>
      rw [offset_cons, List.prod_cons]
      exact digit_lt below ih

theorem offset_inj {shape index index' : List ℕ} (inside : InRange shape index)
    (inside' : InRange shape index') (same : offset shape index = offset shape index') :
    index = index' := by
  induction inside generalizing index' with
  | nil =>
      cases inside'
      rfl
  | cons below rest ih =>
      cases inside' with
      | cons below' rest' =>
          rw [offset_cons, offset_cons] at same
          obtain ⟨rfl, tail⟩ := digit_inj (offset_lt rest) (offset_lt rest') same
          rw [ih rest' tail]

/-- The leading coordinates choose a block of the trailing dimensions. -/
theorem offset_append {lead index : List ℕ} (inside : InRange lead index) (trail rest : List ℕ) :
    offset (lead ++ trail) (index ++ rest) = offset lead index * trail.prod + offset trail rest := by
  induction inside with
  | nil => simp
  | cons below _ ih =>
      simp only [List.cons_append, offset_cons, ih, List.prod_append]
      ring

theorem inRange_append {lead index trail rest : List ℕ} (inside : InRange lead index)
    (inside' : InRange trail rest) : InRange (lead ++ trail) (index ++ rest) := by
  induction inside with
  | nil => exact inside'
  | cons below _ ih => exact List.Forall₂.cons below ih

theorem exists_offset {shape : List ℕ} {position : ℕ} (below : position < shape.prod) :
    ∃ index, InRange shape index ∧ offset shape index = position := by
  induction shape generalizing position with
  | nil =>
      rw [List.prod_nil] at below
      exact ⟨[], inRange_nil, by rw [offset_nil]; omega⟩
  | cons dim shape ih =>
      rw [List.prod_cons] at below
      obtain ⟨high, low, highBelow, lowBelow, rfl⟩ := exists_digit below
      obtain ⟨index, inside, rfl⟩ := ih lowBelow
      exact ⟨high :: index, (inRange_cons ..).mpr ⟨highBelow, inside⟩, offset_cons ..⟩

/-- All positions are below a bound when the size is. -/
theorem forall_offset_lt_iff {shape : List ℕ} {bound : ℕ} :
    (∀ index, InRange shape index → offset shape index < bound) ↔ shape.prod ≤ bound := by
  constructor
  · intro below
    by_contra larger
    obtain ⟨index, inside, same⟩ := exists_offset (Nat.not_le.mp larger)
    exact absurd (below index inside) (by omega)
  · exact fun small index inside => (offset_lt inside).trans_le small

/-- All indices of an array, in row-major order. -/
def indices : List ℕ → List (List ℕ)
  | [] => [[]]
  | dim :: shape =>
      (List.range dim).flatMap fun coordinate => (indices shape).map (coordinate :: ·)

theorem mem_indices {shape index : List ℕ} : index ∈ indices shape ↔ InRange shape index := by
  induction shape generalizing index with
  | nil => cases index <;> simp [indices, InRange]
  | cons dim shape ih =>
      cases index with
      | nil => simp [indices, InRange]
      | cons coordinate index =>
          simp [indices, ih]

/-- Lists of one length that follow each other: entry `low` of list number `high`. -/
theorem getElem?_flatMap_range {α : Type*} (items : ℕ → List α) (count size : ℕ)
    (lengths : ∀ high, (items high).length = size) {high low : ℕ} (below : high < count)
    (inside : low < size) :
    ((List.range count).flatMap items)[high * size + low]? = (items high)[low]? := by
  induction count with
  | zero => exact absurd below (Nat.not_lt_zero _)
  | succ count ih =>
      have front : ((List.range count).flatMap items).length = count * size := by
        simp [List.length_flatMap, lengths]
      rw [List.range_succ, List.flatMap_append]
      rcases Nat.lt_succ_iff_lt_or_eq.mp below with earlier | rfl
      · rw [List.getElem?_append_left (front ▸ digit_lt earlier inside)]
        exact ih earlier
      · rw [List.getElem?_append_right (by omega), front, Nat.add_sub_cancel_left]
        simp

/-! ### Positions in an address range -/

/-- An address of a range of `count * size` bytes splits into a coordinate and
an address of a smaller range. -/
theorem exists_digit_address {base address : ℤ} {count size : ℕ} (above : base ≤ address)
    (below : address < base + ((count * size : ℕ) : ℤ)) :
    ∃ high low : ℕ, high < count ∧ low < size ∧ address = base + ((high * size + low : ℕ) : ℤ) := by
  have inside : (address - base).toNat < count * size := by omega
  obtain ⟨high, low, highBelow, lowBelow, split⟩ := exists_digit inside
  exact ⟨high, low, highBelow, lowBelow, by omega⟩

end RowMajor
