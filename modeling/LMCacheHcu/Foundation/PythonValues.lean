import LMCacheHcu.Foundation.Exceptions

/-! # Python values as JSON decodes them

A decoded document has values of a few types, and code that expects one type may
meet any other. An operation on a value raises the exception that Python raises
for its type. Operations in which a float takes part are a parameter.
-/

namespace Python

open Exceptions

inductive Value (F : Type)
  | none
  | bool (value : Bool)
  | int (value : ℤ)
  | float (value : F)
  | text (value : String)
  | list (items : List (Value F))
  /-- in the order of the keys -/
  | dict (entries : List (String × Value F))

/-- The operand of an arithmetic operation. -/
inductive Number (F : Type)
  | int (value : ℤ)
  | float (value : F)

/-- Operations with a float on one side at least, and `int(text)`. -/
structure Floats (F : Type) where
  toInt : F → Except Builtin ℤ
  le : Number F → Number F → Bool
  lt : Number F → Number F → Bool
  eq : Number F → Number F → Bool
  add : Number F → Number F → Except Builtin (Number F)
  sub : Number F → Number F → Except Builtin (Number F)
  mul : Number F → Number F → Except Builtin (Number F)
  mod : Number F → Number F → Except Builtin (Number F)
  floorDiv : Number F → Number F → Except Builtin (Number F)
  intOfText : String → Except Builtin ℤ

variable {F : Type}

namespace Number

variable (floats : Floats F)

/-- The number as a value. -/
def value : Number F → Value F
  | .int number => .int number
  | .float number => .float number

def le : Number F → Number F → Bool
  | .int left, .int right => decide (left ≤ right)
  | left, right => floats.le left right

def lt : Number F → Number F → Bool
  | .int left, .int right => decide (left < right)
  | left, right => floats.lt left right

def eq : Number F → Number F → Bool
  | .int left, .int right => decide (left = right)
  | left, right => floats.eq left right

def add : Number F → Number F → Except Builtin (Number F)
  | .int left, .int right => .ok (.int (left + right))
  | left, right => floats.add left right

def sub : Number F → Number F → Except Builtin (Number F)
  | .int left, .int right => .ok (.int (left - right))
  | left, right => floats.sub left right

def mul : Number F → Number F → Except Builtin (Number F)
  | .int left, .int right => .ok (.int (left * right))
  | left, right => floats.mul left right

/-- `%`, with the sign of the divisor. -/
def mod : Number F → Number F → Except Builtin (Number F)
  | .int left, .int right =>
      if right = 0 then .error .zeroDivisionError else .ok (.int (left.fmod right))
  | left, right => floats.mod left right

/-- `//`. -/
def floorDiv : Number F → Number F → Except Builtin (Number F)
  | .int left, .int right =>
      if right = 0 then .error .zeroDivisionError else .ok (.int (left.fdiv right))
  | left, right => floats.floorDiv left right

/-- `min` of two numbers: the first one, unless the second is less. -/
def min (left right : Number F) : Number F := if right.lt floats left then right else left

/-- `math.prod`. -/
def prod (numbers : List (Number F)) : Except Builtin (Number F) :=
  numbers.foldlM (mul floats) (.int 1)

@[simp] theorem le_int (left right : ℤ) :
    (Number.int left).le floats (.int right) = decide (left ≤ right) := rfl

@[simp] theorem lt_int (left right : ℤ) :
    (Number.int left).lt floats (.int right) = decide (left < right) := rfl

@[simp] theorem eq_int (left right : ℤ) :
    (Number.int left).eq floats (.int right) = decide (left = right) := rfl

@[simp] theorem mul_int (left right : ℤ) :
    (Number.int left).mul floats (.int right) = .ok (.int (left * right)) := rfl

end Number

namespace Value

variable (floats : Floats F)

/-- The number that a value counts as. -/
def number? : Value F → Option (Number F)
  | .bool value => some (.int (if value then 1 else 0))
  | .int value => some (.int value)
  | .float value => some (.float value)
  | _ => Option.none

/-- A value as the operand of an operation on numbers. -/
def operand (value : Value F) : Except Builtin (Number F) :=
  match value.number? with
  | some number => .ok number
  | Option.none => .error .typeError

/-- `int(value)`. -/
def toInt : Value F → Except Builtin ℤ
  | .bool value => .ok (if value then 1 else 0)
  | .int value => .ok value
  | .float value => floats.toInt value
  | .text value => floats.intOfText value
  | .none | .list _ | .dict _ => .error .typeError

/-- `==`, when one side is a number or a text. -/
def equals (left right : Value F) : Bool :=
  match left, right with
  | .text first, .text second => decide (first = second)
  | _, _ =>
      match left.number?, right.number? with
      | some first, some second => first.eq floats second
      | _, _ => false

/-- `==` of two tuples with numbers on the right. -/
def equalItems : List (Value F) → List (Value F) → Bool
  | [], [] => true
  | left :: lefts, right :: rights => left.equals floats right && equalItems lefts rights
  | _, _ => false

/-- `tuple(value)`. -/
def items : Value F → Except Builtin (List (Value F))
  | .list items => .ok items
  | .text value => .ok (value.toList.map fun char => .text (String.singleton char))
  | .dict entries => .ok (entries.map fun entry => .text entry.1)
  | .none | .bool _ | .int _ | .float _ => .error .typeError

/-- `value[key]`, for a text as the key. -/
def getItem (key : String) : Value F → Except Builtin (Value F)
  | .dict entries =>
      match entries.lookup key with
      | some value => .ok value
      | Option.none => .error .keyError
  | _ => .error .typeError

/-- `value[index]`, for a position. -/
def getIndex (index : ℕ) : Value F → Except Builtin (Value F)
  | .list items =>
      match items[index]? with
      | some value => .ok value
      | Option.none => .error .indexError
  | .text value =>
      match value.toList[index]? with
      | some char => .ok (.text (String.singleton char))
      | Option.none => .error .indexError
  -- The keys of a decoded object are texts.
  | .dict _ => .error .keyError
  | .none | .bool _ | .int _ | .float _ => .error .typeError

@[simp] theorem number?_int (value : ℤ) : (Value.int value : Value F).number? = some (.int value) :=
  rfl

@[simp] theorem equals_int (left right : ℤ) :
    (Value.int left).equals floats (.int right) = decide (left = right) := rfl

@[simp] theorem equals_text (left right : String) :
    (Value.text left).equals floats (.text right) = decide (left = right) := rfl

theorem equalItems_ints (numbers : List ℤ) :
    equalItems floats (numbers.map .int) (numbers.map .int) = true := by
  induction numbers with
  | nil => rfl
  | cons number numbers ih =>
      rw [List.map_cons, equalItems, ih, Bool.and_true, equals_int]
      exact decide_eq_true rfl

theorem operand_ok {value : Value F} {number : Number F} :
    value.operand = .ok number ↔ value.number? = some number := by
  unfold operand
  cases value.number? with
  | none => exact iff_of_false (fun returned => nomatch returned) fun found => nomatch found
  | some other =>
      rw [Except.ok.injEq, Option.some.injEq]

theorem getItem_ok {key : String} {value item : Value F} :
    value.getItem key = .ok item ↔
      ∃ entries, value = .dict entries ∧ entries.lookup key = some item := by
  constructor
  · intro found
    cases value with
    | dict entries =>
        refine ⟨entries, rfl, ?_⟩
        dsimp only [getItem] at found
        cases present : entries.lookup key with
        | none =>
            rw [present] at found
            cases found
        | some other =>
            rw [present] at found
            exact congrArg some (Except.ok.inj found)
    | none | bool _ | int _ | float _ | text _ | list _ => cases found
  · rintro ⟨entries, rfl, present⟩
    simp only [getItem, present]

/-- A position that counts as a number is one of a list. -/
theorem getIndex_number {index : ℕ} {value item : Value F} {number : Number F}
    (found : value.getIndex index = .ok item) (counts : item.number? = some number) :
    ∃ items, value = .list items ∧ items[index]? = some item := by
  cases value with
  | list items =>
      refine ⟨items, rfl, ?_⟩
      dsimp only [getIndex] at found
      cases present : items[index]? with
      | none =>
          rw [present] at found
          cases found
      | some other =>
          rw [present] at found
          exact congrArg some (Except.ok.inj found)
  | text value =>
      dsimp only [getIndex] at found
      cases present : value.toList[index]? with
      | none =>
          rw [present] at found
          cases found
      | some char =>
          rw [present] at found
          cases found
          cases counts
  | none | bool _ | int _ | float _ | dict _ => cases found

section Same

variable [DecidableEq F]

mutual

/-- Whether two values have the same structure. -/
def same : Value F → Value F → Bool
  | .none, .none => true
  | .bool left, .bool right => decide (left = right)
  | .int left, .int right => decide (left = right)
  | .float left, .float right => decide (left = right)
  | .text left, .text right => decide (left = right)
  | .list left, .list right => sameItems left right
  | .dict left, .dict right => sameEntries left right
  | _, _ => false

def sameItems : List (Value F) → List (Value F) → Bool
  | [], [] => true
  | left :: lefts, right :: rights => same left right && sameItems lefts rights
  | _, _ => false

def sameEntries : List (String × Value F) → List (String × Value F) → Bool
  | [], [] => true
  | (key, left) :: lefts, (key', right) :: rights =>
      decide (key = key') && same left right && sameEntries lefts rights
  | _, _ => false

end

mutual

theorem same_iff : ∀ left right : Value F, same left right = true ↔ left = right
  | .none, right => by cases right <;> simp [same]
  | .bool _, right => by cases right <;> simp [same]
  | .int _, right => by cases right <;> simp [same]
  | .float _, right => by cases right <;> simp [same]
  | .text _, right => by cases right <;> simp [same]
  | .list items, right => by cases right <;> simp [same, sameItems_iff items]
  | .dict entries, right => by cases right <;> simp [same, sameEntries_iff entries]

theorem sameItems_iff : ∀ left right : List (Value F), sameItems left right = true ↔ left = right
  | [], right => by cases right <;> simp [sameItems]
  | item :: items, right => by
      cases right <;> simp [sameItems, same_iff item, sameItems_iff items]

theorem sameEntries_iff :
    ∀ left right : List (String × Value F), sameEntries left right = true ↔ left = right
  | [], right => by cases right <;> simp [sameEntries]
  | (key, value) :: entries, right => by
      rcases right with _ | ⟨⟨key', value'⟩, entries'⟩ <;>
        simp [sameEntries, same_iff value, sameEntries_iff entries]

end

instance : DecidableEq (Value F) := fun left right => decidable_of_iff _ (same_iff left right)

end Same

end Value

end Python
