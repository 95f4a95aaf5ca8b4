import Mathlib.Tactic

/-! # Files as lists of bytes

A file has its bytes and nothing else. A write at an offset leaves the bytes around
it alone and fills a gap behind the end with zeros. A call of the system may write
less than it was asked for; a stream with a buffer asks for the rest again until
nothing is left or a call raises, and a single call does not. A file system has files
by name, and a rename puts a file in the place of one that has the new name.
-/

namespace ByteFiles

/-! ### Positions -/

/-- The bytes of a range of the file, as many as there are. -/
def readAt (content : List UInt8) (offset size : ℕ) : List UInt8 := (content.drop offset).take size

/-- Write some data at an offset. -/
def writeAt (content : List UInt8) (offset : ℕ) (data : List UInt8) : List UInt8 :=
  if data = [] then content
  else
    content.take offset ++ List.replicate (offset - content.length) 0 ++ data ++
      content.drop (offset + data.length)

theorem writeAt_zero (content data : List UInt8) :
    writeAt content 0 data = data ++ content.drop data.length := by
  unfold writeAt
  by_cases nothing : data = []
  · rw [if_pos nothing, nothing]
    rfl
  · rw [if_neg nothing, List.take_zero, Nat.zero_sub, List.replicate_zero, Nat.zero_add]
    rfl

/-- A file whose first bytes are overwritten by the beginning of some data reads as
the data exactly when the rest of it was there before. -/
theorem readAt_writeAt_take_iff {content data : List UInt8} {count : ℕ}
    (le : count ≤ data.length) :
    readAt (writeAt content 0 (data.take count)) 0 data.length = data ↔
      readAt content count (data.length - count) = data.drop count := by
  have size : (data.take count).length = count := List.length_take_of_le le
  have split : (data.take count ++ content.drop count).take data.length =
      data.take count ++ (content.drop count).take (data.length - count) := by
    rw [List.take_append, size, List.take_of_length_le (by omega)]
  rw [writeAt_zero, size, readAt, readAt, List.drop_zero, split]
  constructor
  · intro whole
    exact List.append_cancel_left (whole.trans (List.take_append_drop count data).symm)
  · intro rest
    rw [rest, List.take_append_drop]

/-! ### Counts -/

/-- How many bytes one call wrote of those it was asked for: some of them. -/
structure Count (asked : ℕ) where
  count : ℕ
  le : count ≤ asked
  progress : 0 < asked → 0 < count

variable {E : Type}

/-- The calls of a stream with a buffer, each for the rest that the ones before have
left: how many bytes they wrote, and what the last one raised. A stream makes at most
as many calls as it has bytes. -/
def writeRest (write : ℕ → (asked : ℕ) → Except E (Count asked)) :
    (rounds call asked : ℕ) → ℕ × Option E
  | 0, _, _ => (0, none)
  | _, _, 0 => (0, none)
  | rounds + 1, call, asked + 1 =>
      match write call (asked + 1) with
      | .error failure => (0, some failure)
      | .ok written =>
          let rest := writeRest write rounds (call + 1) (asked + 1 - written.count)
          (written.count + rest.1, rest.2)

/-- A stream that raises nothing has written everything, and one that raises has not. -/
theorem writeRest_total (write : ℕ → (asked : ℕ) → Except E (Count asked))
    {rounds asked : ℕ} (enough : asked ≤ rounds) (call : ℕ) :
    ((writeRest write rounds call asked).2 = none →
        (writeRest write rounds call asked).1 = asked) ∧
      ((writeRest write rounds call asked).2 ≠ none →
        (writeRest write rounds call asked).1 < asked) := by
  induction rounds generalizing call asked with
  | zero =>
      obtain rfl : asked = 0 := by omega
      exact ⟨fun _ => rfl, fun raised => absurd rfl raised⟩
  | succ rounds ih =>
      cases asked with
      | zero => exact ⟨fun _ => rfl, fun raised => absurd rfl raised⟩
      | succ asked =>
          simp only [writeRest]
          cases write call (asked + 1) with
          | error failure =>
              refine ⟨fun nothing => ?_, fun _ => Nat.succ_pos asked⟩
              cases nothing
          | ok written =>
              have progress := written.progress (Nat.succ_pos asked)
              have le := written.le
              obtain ⟨whole, less⟩ := @ih (asked + 1 - written.count) (by omega) (call + 1)
              refine ⟨fun nothing => ?_, fun raised => ?_⟩
              · have := whole nothing
                dsimp only
                omega
              · have := less raised
                dsimp only
                omega

/-! ### Files by name -/

abbrev Files (Name : Type) := Name → Option (List UInt8)

namespace Files

variable {Name : Type} [DecidableEq Name] (files : Files Name)

def store (name : Name) (content : List UInt8) : Files Name :=
  Function.update files name (some content)

def remove (name : Name) : Files Name := Function.update files name none

/-- Give a file that is there another name. -/
def rename (name new : Name) : Files Name :=
  match files name with
  | none => files
  | some content => (files.remove name).store new content

@[simp] theorem store_self (name : Name) (content : List UInt8) :
    files.store name content name = some content :=
  Function.update_self ..

theorem store_of_ne {name other : Name} (differ : other ≠ name) (content : List UInt8) :
    files.store name content other = files other :=
  Function.update_of_ne differ ..

@[simp] theorem rename_store_self (name new : Name) (content : List UInt8) :
    (files.store name content).rename name new new = some content := by
  rw [rename, store_self]
  exact store_self ..

/-- A file with neither name is left alone. -/
theorem rename_store_of_ne {name new other : Name} (differ : other ≠ name) (differ' : other ≠ new)
    (content : List UInt8) : (files.store name content).rename name new other = files other := by
  rw [rename, store_self]
  dsimp only
  rw [store_of_ne _ differ', remove, Function.update_of_ne differ, store_of_ne _ differ]

end Files

end ByteFiles
