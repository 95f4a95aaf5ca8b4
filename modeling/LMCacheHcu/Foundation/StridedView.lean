import LMCacheHcu.Foundation.ByteCopy
import LMCacheHcu.Foundation.RowMajor

/-! # Strided views of a memory

A view names the elements of an array by a base address, an element size and
one stride for each dimension. Permuting the dimensions or splitting one changes
the view and no byte; copying one view into another moves each element to the
element of the same index.
-/

namespace RowMajor

open ByteCopy

/-- An array laid over a memory. -/
structure View where
  base : ℤ
  itemsize : ℕ
  shape : List ℕ
  strides : List ℕ
deriving DecidableEq, Repr

/-- A copy of `count` groups of `size` bytes, group by group. -/
theorem covers_groups (src dst : ℤ) (count size : ℕ) (origin address : ℤ) :
    (Copy.Covers ⟨src, dst, ((count * size : ℕ) : ℤ)⟩ address ∧
        Copy.origin ⟨src, dst, ((count * size : ℕ) : ℤ)⟩ address = origin) ↔
      ∃ group < count, ∃ low < size, address = dst + ((group * size + low : ℕ) : ℤ) ∧
        origin = src + ((group * size + low : ℕ) : ℤ) := by
  simp only [Copy.Covers, Copy.origin]
  constructor
  · rintro ⟨⟨above, below⟩, rfl⟩
    obtain ⟨group, low, groupIn, lowIn, rfl⟩ := exists_digit_address above below
    exact ⟨group, groupIn, low, lowIn, rfl, by omega⟩
  · rintro ⟨group, groupIn, low, lowIn, rfl, rfl⟩
    have bound := digit_lt groupIn lowIn
    exact ⟨⟨by omega, by omega⟩, by omega⟩

namespace View

/-- The address of an element. -/
def address (view : View) (index : List ℕ) : ℤ :=
  view.base + ((strided view.strides index * view.itemsize : ℕ) : ℤ)

/-- The view with its dimensions reordered. -/
def permute (view : View) (order : List ℕ) : View where
  base := view.base
  itemsize := view.itemsize
  shape := order.map fun axis => view.shape.getD axis 0
  strides := order.map fun axis => view.strides.getD axis 0

/-- The view with one dimension cut into groups of `inner`. -/
def split (view : View) (axis inner : ℕ) : View where
  base := view.base
  itemsize := view.itemsize
  shape := view.shape.take axis ++
    (view.shape.getD axis 0 / inner) :: inner :: view.shape.drop (axis + 1)
  strides := view.strides.take axis ++
    (inner * view.strides.getD axis 0) :: view.strides.getD axis 0 :: view.strides.drop (axis + 1)

/-- The copies that give every element of `target` the element of `source`
with the same index. -/
def copyFrom (target source : View) : List Copy :=
  (indices target.shape).map fun index =>
    ⟨source.address index, target.address index, target.itemsize⟩

/-- Copying a view moves byte number `low` of each element to byte `low` of the
element with the same index. -/
theorem moves_copyFrom (target source : View) (origin address : ℤ) :
    Moves (target.copyFrom source) origin address ↔
      ∃ index, InRange target.shape index ∧ ∃ low < target.itemsize,
        address = target.address index + (low : ℤ) ∧ origin = source.address index + (low : ℤ) := by
  simp only [copyFrom, moves_map, mem_indices, Copy.Covers, Copy.origin]
  refine exists_congr fun index => and_congr_right fun _ => ?_
  constructor
  · rintro ⟨⟨above, below⟩, rfl⟩
    exact ⟨(address - target.address index).toNat, by omega, by omega, by omega⟩
  · rintro ⟨low, inside, rfl, rfl⟩
    exact ⟨⟨by omega, by omega⟩, by omega⟩

/-- A dense view has its elements row by row. -/
def Dense (view : View) : Prop :=
  ∀ index, InRange view.shape index → strided view.strides index = offset view.shape index

theorem Dense.address_eq {view : View} (dense : view.Dense) {index : List ℕ}
    (inside : InRange view.shape index) (low : ℕ) :
    view.address index + (low : ℤ) =
      view.base + ((offset view.shape index * view.itemsize + low : ℕ) : ℤ) := by
  rw [address, dense index inside]
  push_cast
  ring

/-- In a dense view an address belongs to one byte of one element. -/
theorem Dense.address_inj {view : View} (dense : view.Dense) {index index' : List ℕ}
    (inside : InRange view.shape index) (inside' : InRange view.shape index') {low low' : ℕ}
    (small : low < view.itemsize) (small' : low' < view.itemsize)
    (same : view.address index + (low : ℤ) = view.address index' + (low' : ℤ)) :
    index = index' ∧ low = low' := by
  rw [dense.address_eq inside, dense.address_eq inside'] at same
  have positions : offset view.shape index * view.itemsize + low =
      offset view.shape index' * view.itemsize + low' := by omega
  obtain ⟨offsets, rfl⟩ := digit_inj small small' positions
  exact ⟨offset_inj inside inside' offsets, rfl⟩

/-- No two elements share a byte. -/
def Separate (view : View) : Prop :=
  ∀ index index' low low', InRange view.shape index → InRange view.shape index' →
    low < view.itemsize → low' < view.itemsize →
    view.address index + ((low : ℕ) : ℤ) = view.address index' + ((low' : ℕ) : ℤ) →
      index = index' ∧ low = low'

theorem Dense.separate {view : View} (dense : view.Dense) : view.Separate :=
  fun _ _ _ _ inside inside' small small' same => dense.address_inj inside inside' small small' same

/-- A copy into a view whose elements are separate delivers every element. -/
theorem Separate.copyFrom_apply {target : View} (separate : target.Separate) (source : View)
    {β : Type*} (origin memory : ℤ → β) {index : List ℕ} (inside : InRange target.shape index)
    {low : ℕ} (small : low < target.itemsize) :
    writeAll origin (target.copyFrom source) memory (target.address index + (low : ℤ)) =
      origin (source.address index + (low : ℤ)) := by
  apply writeAll_of_agree origin memory
    ((moves_copyFrom ..).mpr ⟨index, inside, low, small, rfl, rfl⟩)
  intro other moved
  obtain ⟨index', inside', low', small', same, rfl⟩ := (moves_copyFrom ..).mp moved
  obtain ⟨rfl, rfl⟩ := separate _ _ _ _ inside inside' small small' same
  rfl

theorem Dense.copyFrom_apply {target : View} (dense : target.Dense) (source : View) {β : Type*}
    (origin memory : ℤ → β) {index : List ℕ} (inside : InRange target.shape index) {low : ℕ}
    (small : low < target.itemsize) :
    writeAll origin (target.copyFrom source) memory (target.address index + (low : ℤ)) =
      origin (source.address index + (low : ℤ)) :=
  dense.separate.copyFrom_apply source origin memory inside small

/-! ### Slices -/

/-- The address is a byte of an element that has this coordinate in the dimension. -/
def SliceByte (view : View) (axis coordinate : ℕ) (address : ℤ) : Prop :=
  ∃ index, InRange view.shape index ∧ index[axis]? = some coordinate ∧
    ∃ low < view.itemsize, address = view.address index + (low : ℤ)

/-- Slices at different coordinates of the dimension share no byte. -/
def SlicesApart (view : View) (axis : ℕ) : Prop :=
  ∀ coordinate coordinate' address, view.SliceByte axis coordinate address →
    view.SliceByte axis coordinate' address → coordinate = coordinate'

theorem Dense.slicesApart {view : View} (dense : view.Dense) (axis : ℕ) :
    view.SlicesApart axis := by
  rintro coordinate coordinate' address ⟨index, inside, here, low, small, rfl⟩
    ⟨index', inside', here', low', small', same⟩
  obtain ⟨rfl, _⟩ := dense.address_inj inside inside' small small' same
  exact Option.some.inj (here.symm.trans here')

/-- A slice of a dense view along its first dimension is one byte range. -/
theorem Dense.sliceByte_zero {view : View} (dense : view.Dense) {count : ℕ} {shape : List ℕ}
    (extents : view.shape = count :: shape) {coordinate low : ℕ} (below : coordinate < count)
    (inside : low < shape.prod * view.itemsize) :
    view.SliceByte 0 coordinate
      (view.base + ((coordinate * (shape.prod * view.itemsize) + low : ℕ) : ℤ)) := by
  obtain ⟨position, rest, positionIn, restIn, rfl⟩ := exists_digit inside
  obtain ⟨index, indexIn, rfl⟩ := exists_offset positionIn
  have whole : InRange view.shape (coordinate :: index) := by
    rw [extents]
    exact (inRange_cons ..).mpr ⟨below, indexIn⟩
  refine ⟨coordinate :: index, whole, rfl, rest, restIn, ?_⟩
  rw [dense.address_eq whole, extents, offset_cons]
  push_cast
  ring

/-- A slice of a dense view along its second dimension is one byte range for
each coordinate of the first. -/
theorem Dense.sliceByte_one {view : View} (dense : view.Dense) {outer count : ℕ} {shape : List ℕ}
    (extents : view.shape = outer :: count :: shape) {first coordinate low : ℕ}
    (firstIn : first < outer) (below : coordinate < count)
    (inside : low < shape.prod * view.itemsize) :
    view.SliceByte 1 coordinate
      (view.base + (((first * count + coordinate) * (shape.prod * view.itemsize) + low : ℕ) : ℤ)) := by
  obtain ⟨position, rest, positionIn, restIn, rfl⟩ := exists_digit inside
  obtain ⟨index, indexIn, rfl⟩ := exists_offset positionIn
  have whole : InRange view.shape (first :: coordinate :: index) := by
    rw [extents]
    exact (inRange_cons ..).mpr ⟨firstIn, (inRange_cons ..).mpr ⟨below, indexIn⟩⟩
  refine ⟨first :: coordinate :: index, whole, rfl, rest, restIn, ?_⟩
  rw [dense.address_eq whole, extents, offset_cons, offset_cons, List.prod_cons]
  push_cast
  ring

end View

end RowMajor
