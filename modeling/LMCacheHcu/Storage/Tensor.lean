import LMCacheHcu.Foundation.StridedView

/-! # Tensors

What the storage code reads of a torch tensor: its device and element type, the
storage it is a view of, and the shape and strides of the view. The bytes are
not part of a tensor; they are in the memory that its addresses point into.
-/

namespace LMCacheHcu.Storage

open RowMajor

abbrev Byte := UInt8

/-- A memory, or the content of a file, by address. -/
abbrev Memory := ℤ → Byte

inductive DeviceType
  | cpu
  | cuda
  | metaOnly
deriving DecidableEq, Repr

structure Device where
  type : DeviceType
  index : Option ℕ
deriving DecidableEq, Repr

/-- `torch.dtype`. -/
inductive DType
  | uint8 | uint16 | uint32 | uint64
  | int8 | int16 | int32 | int64
  | float8E4m3fn | float8E4m3fnuz | float8E5m2 | float8E5m2fnuz
  | float16 | bfloat16 | float32 | float64
  | complex32 | complex64 | complex128
  | bool
deriving DecidableEq, Repr

namespace DType

/-- The name that torch prints after `torch.`. -/
def name : DType → String
  | uint8 => "uint8"
  | uint16 => "uint16"
  | uint32 => "uint32"
  | uint64 => "uint64"
  | int8 => "int8"
  | int16 => "int16"
  | int32 => "int32"
  | int64 => "int64"
  | float8E4m3fn => "float8_e4m3fn"
  | float8E4m3fnuz => "float8_e4m3fnuz"
  | float8E5m2 => "float8_e5m2"
  | float8E5m2fnuz => "float8_e5m2fnuz"
  | float16 => "float16"
  | bfloat16 => "bfloat16"
  | float32 => "float32"
  | float64 => "float64"
  | complex32 => "complex32"
  | complex64 => "complex64"
  | complex128 => "complex128"
  | bool => "bool"

def itemsize : DType → ℕ
  | uint8 | int8 | float8E4m3fn | float8E4m3fnuz | float8E5m2 | float8E5m2fnuz | bool => 1
  | uint16 | int16 | float16 | bfloat16 => 2
  | uint32 | int32 | float32 | complex32 => 4
  | uint64 | int64 | float64 | complex64 => 8
  | complex128 => 16

theorem itemsize_pos (dtype : DType) : 0 < dtype.itemsize := by
  cases dtype <;> decide

end DType

/-- The position of the last element of a strided array. -/
def lastPosition : List ℕ → List ℕ → ℕ
  | dim :: shape, stride :: strides => (dim - 1) * stride + lastPosition shape strides
  | _, _ => 0

/-- A tensor: a strided view of one storage, inside its bounds. -/
structure Tensor where
  device : Device
  dtype : DType
  /-- `untyped_storage().data_ptr()` -/
  storageBase : ℕ
  storageNbytes : ℕ
  /-- in elements -/
  storageOffset : ℕ
  shape : List ℕ
  stride : List ℕ
  ranked : stride.length = shape.length
  inStorage : shape.prod ≠ 0 →
    (storageOffset + lastPosition shape stride + 1) * dtype.itemsize ≤ storageNbytes
deriving DecidableEq

namespace Tensor

variable (tensor : Tensor)

def ndim : ℕ := tensor.shape.length

def numel : ℕ := tensor.shape.prod

def elementSize : ℕ := tensor.dtype.itemsize

def dataPtr : ℕ := tensor.storageBase + tensor.storageOffset * tensor.elementSize

/-- `shape[axis]`, for an axis that the tensor has. -/
def dim (axis : ℕ) : ℕ := tensor.shape.getD axis 0

/-- `stride(axis)`, for an axis that the tensor has. -/
def strideOf (axis : ℕ) : ℕ := tensor.stride.getD axis 0

def toView : View where
  base := tensor.dataPtr
  itemsize := tensor.elementSize
  shape := tensor.shape
  strides := tensor.stride

end Tensor

/-- Strides that differ from the dense ones only where a dimension is one. -/
def denseUpToUnits : List ℕ → List ℕ → Bool
  | [], _ => true
  | _ :: _, [] => false
  | dim :: shape, stride :: strides =>
      (decide (dim = 1) || decide (stride = shape.prod)) && denseUpToUnits shape strides

/-- `is_contiguous()`. -/
def Tensor.isContiguous (tensor : Tensor) : Bool :=
  decide (tensor.numel = 0) || denseUpToUnits tensor.shape tensor.stride

/-- Unit dimensions do not move an element, so such strides place every
element where dense ones do. -/
theorem strided_of_denseUpToUnits {shape strides index : List ℕ}
    (dense : denseUpToUnits shape strides = true) (inside : InRange shape index) :
    strided strides index = offset shape index := by
  induction inside generalizing strides with
  | nil => simp
  | cons below _ ih =>
      cases strides with
      | nil => simp [denseUpToUnits] at dense
      | cons stride strides =>
          simp only [denseUpToUnits, Bool.and_eq_true, Bool.or_eq_true, decide_eq_true_eq] at dense
          rw [strided_cons, offset_cons, ih dense.2]
          rcases dense.1 with unit | exactly
          · subst unit
            rw [Nat.lt_one_iff.mp below, Nat.zero_mul, Nat.zero_mul]
          · rw [exactly]

/-- The last element of a contiguous array is at its size minus one. -/
theorem lastPosition_add_one {shape strides : List ℕ} (positive : ∀ size ∈ shape, 0 < size)
    (dense : denseUpToUnits shape strides = true) : lastPosition shape strides + 1 = shape.prod := by
  induction shape generalizing strides with
  | nil => rfl
  | cons dim shape ih =>
      obtain ⟨dimPos, rest⟩ := List.forall_mem_cons.mp positive
      cases strides with
      | nil => simp [denseUpToUnits] at dense
      | cons stride strides =>
          simp only [denseUpToUnits, Bool.and_eq_true, Bool.or_eq_true, decide_eq_true_eq] at dense
          have moved : (dim - 1) * stride = (dim - 1) * shape.prod := by
            rcases dense.1 with unit | exactly
            · rw [unit, Nat.sub_self, Nat.zero_mul, Nat.zero_mul]
            · rw [exactly]
          rw [lastPosition, Nat.add_assoc, ih rest dense.2, moved, List.prod_cons, Nat.sub_mul,
            Nat.one_mul]
          exact Nat.sub_add_cancel (Nat.le_mul_of_pos_left _ dimPos)

theorem prod_pos_of_inRange {shape index : List ℕ} (inside : InRange shape index) :
    0 < shape.prod :=
  Nat.zero_lt_of_lt (offset_lt inside)

/-- The elements of a contiguous tensor lie row by row from its data pointer. -/
theorem Tensor.dense_of_contiguous {tensor : Tensor} (contiguous : tensor.isContiguous = true) :
    tensor.toView.Dense := by
  intro index inside
  have full := prod_pos_of_inRange inside
  simp only [Tensor.toView] at full inside ⊢
  unfold Tensor.isContiguous Tensor.numel at contiguous
  simp only [Nat.pos_iff_ne_zero.mp full, decide_false, Bool.false_or] at contiguous
  exact strided_of_denseUpToUnits contiguous inside

theorem Tensor.address_of_contiguous {tensor : Tensor} (contiguous : tensor.isContiguous = true)
    {index : List ℕ} (inside : InRange tensor.shape index) (low : ℕ) :
    tensor.toView.address index + (low : ℤ) =
      tensor.dataPtr + ((offset tensor.shape index * tensor.elementSize + low : ℕ) : ℤ) :=
  (dense_of_contiguous contiguous).address_eq inside low

end LMCacheHcu.Storage
