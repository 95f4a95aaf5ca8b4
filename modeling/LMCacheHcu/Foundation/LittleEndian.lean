import Mathlib.Data.Nat.Digits.Defs
import Mathlib.Tactic

/-! # Little-endian words

Numbers in a fixed count of bytes, the least significant one first.
-/

namespace LittleEndian

/-- The number that some bytes stand for. -/
def value (bytes : List UInt8) : ℕ := Nat.ofDigits 256 (bytes.map UInt8.toNat)

/-- The lowest bytes of a number. -/
def word : ℕ → ℕ → List UInt8
  | 0, _ => []
  | width + 1, number => UInt8.ofNat number :: word width (number / 256)

@[simp] theorem value_nil : value [] = 0 := rfl

@[simp] theorem value_cons (byte : UInt8) (bytes : List UInt8) :
    value (byte :: bytes) = byte.toNat + 256 * value bytes := by
  rw [value, List.map_cons, Nat.ofDigits_cons, value]

@[simp] theorem length_word (width number : ℕ) : (word width number).length = width := by
  induction width generalizing number with
  | zero => rfl
  | succ width ih => rw [word, List.length_cons, ih]

/-- A number that fits is read back from its word. -/
theorem value_word {width number : ℕ} (fits : number < 256 ^ width) :
    value (word width number) = number := by
  induction width generalizing number with
  | zero => exact (Nat.lt_one_iff.mp fits).symm
  | succ width ih =>
      have rest : number / 256 < 256 ^ width :=
        Nat.div_lt_of_lt_mul (by rwa [← pow_succ'])
      rw [word, value_cons, ih rest, UInt8.toNat_ofNat']
      exact Nat.mod_add_div number 256

/-! ### Several words in a row -/

/-- The words of the given width at the front of a buffer. -/
def values (width : ℕ) : ℕ → List UInt8 → List ℕ
  | 0, _ => []
  | count + 1, buffer => value (buffer.take width) :: values width count (buffer.drop width)

def words (width : ℕ) (numbers : List ℕ) : List UInt8 := numbers.flatMap (word width)

@[simp] theorem length_values (width count : ℕ) (buffer : List UInt8) :
    (values width count buffer).length = count := by
  induction count generalizing buffer with
  | zero => rfl
  | succ count ih => rw [values, List.length_cons, ih]

@[simp] theorem length_words (width : ℕ) (numbers : List ℕ) :
    (words width numbers).length = numbers.length * width := by
  induction numbers with
  | nil => rw [List.length_nil, Nat.zero_mul]; rfl
  | cons number numbers ih =>
      rw [words, List.flatMap_cons, List.length_append, length_word, ← words, ih, List.length_cons,
        Nat.succ_mul, Nat.add_comm]

/-- Numbers that fit are read back, whatever follows them. -/
theorem values_words {width : ℕ} {numbers : List ℕ} (fit : ∀ number ∈ numbers, number < 256 ^ width)
    (rest : List UInt8) : values width numbers.length (words width numbers ++ rest) = numbers := by
  induction numbers with
  | nil => rfl
  | cons number numbers ih =>
      have front : (word width number).length = width := length_word width number
      rw [words, List.flatMap_cons, ← words, List.append_assoc, List.length_cons, values,
        List.take_left' front, List.drop_left' front,
        value_word (fit number List.mem_cons_self),
        ih fun other member => fit other (List.mem_cons_of_mem number member)]

theorem words_cons (width number : ℕ) (numbers : List ℕ) :
    words width (number :: numbers) = word width number ++ words width numbers := rfl

theorem words_append (width : ℕ) (first second : List ℕ) :
    words width (first ++ second) = words width first ++ words width second := by
  rw [words, List.flatMap_append, words, words]

/-- One number of several, whatever follows them. -/
theorem value_take_drop_words_append {width : ℕ} {numbers : List ℕ}
    (fit : ∀ number ∈ numbers, number < 256 ^ width) (rest : List UInt8) {index number : ℕ}
    (here : numbers[index]? = some number) :
    value (((words width numbers ++ rest).drop (width * index)).take width) = number := by
  induction numbers generalizing index with
  | nil => exact nomatch here
  | cons first numbers ih =>
      have front : (word width first).length = width := length_word width first
      rw [words_cons, List.append_assoc]
      cases index with
      | zero =>
          cases here
          rw [Nat.mul_zero, List.drop_zero, List.take_left' front,
            value_word (fit _ List.mem_cons_self)]
      | succ index =>
          have later : width * (index + 1) = (word width first).length + width * index := by
            rw [front, Nat.mul_succ, Nat.add_comm]
          rw [later, List.drop_append, List.drop_of_length_le (by omega), List.nil_append,
            Nat.add_sub_cancel_left]
          exact ih (fun other member => fit other (List.mem_cons_of_mem first member)) here

end LittleEndian
