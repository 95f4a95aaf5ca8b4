import Mathlib.Algebra.BigOperators.Group.Finset.Basic
import Mathlib.Algebra.BigOperators.Group.Finset.Piecewise
import Mathlib.Tactic

/-! # Accounts that change one key at a time

A machine keeps a value for some keys, and a balance. An event acts on one key, or on
none: it changes the value of the key and moves the balance, both as the value of that
key alone decides. What a run makes of a key then depends on the actions on this key in
their order, and not on what they were interleaved with; the balance is the sum of what
each key has contributed to it.
-/

namespace LMCacheHcu.KeyedAccounts

variable {State Event Key Action Value : Type*}

/-- What an action makes of the value of its key, and what it adds to the balance. -/
abbrev Effect (Action Value : Type*) := Action → Option Value → Option Value × ℤ

/-! ### The actions on one key -/

section Actions

variable (effect : Effect Action Value)

/-- The value after a list of actions, and what they have added to the balance. -/
def outcome : List Action → Option Value → Option Value × ℤ
  | [], value => (value, 0)
  | action :: actions, value =>
      let here := effect action value
      let rest := outcome actions here.1
      (rest.1, here.2 + rest.2)

/-- Each action finds a value that the guard lets it act on. -/
def Heeds (guard : Action → Option Value → Prop) : List Action → Option Value → Prop
  | [], _ => True
  | action :: actions, value => guard action value ∧ Heeds guard actions (effect action value).1

variable {effect}

/-- An invariant of guarded actions, over the actions so far, their value and their
contribution to the balance. -/
theorem Heeds.outcome_induction {guard : Action → Option Value → Prop}
    {holds : List Action → Option Value → ℤ → Prop} {start : Option Value}
    (initial : holds [] start 0)
    (preserved : ∀ done action value paid, holds done value paid → guard action value →
      holds (done ++ [action]) (effect action value).1 (paid + (effect action value).2))
    {actions : List Action} (heeds : Heeds effect guard actions start) :
    holds actions (outcome effect actions start).1 (outcome effect actions start).2 := by
  have general (actions done : List Action) (value : Option Value) (paid : ℤ)
      (before : holds done value paid) (rest : Heeds effect guard actions value) :
      holds (done ++ actions) (outcome effect actions value).1
        (paid + (outcome effect actions value).2) := by
    induction actions generalizing done value paid with
    | nil => simpa [outcome] using before
    | cons action actions ih =>
        have next := preserved done action value paid before rest.1
        have further := ih (done ++ [action]) _ _ next rest.2
        rw [List.append_assoc, List.singleton_append, add_assoc] at further
        exact further
  simpa using general actions [] start 0 initial heeds

end Actions

/-! ### The machine -/

/-- A machine whose events act on one key at a time. -/
structure Accounts (State Event Key Action Value : Type*) where
  step : State → Event → State
  value : State → Key → Option Value
  balance : State → ℤ
  acts : Event → Option (Key × Action)
  effect : Effect Action Value
  value_idle : ∀ state event key, acts event = none → value (step state event) key = value state key
  balance_idle : ∀ state event, acts event = none → balance (step state event) = balance state
  value_acted : ∀ state event key action, acts event = some (key, action) →
    value (step state event) key = (effect action (value state key)).1
  value_other : ∀ state event key action other, acts event = some (key, action) → other ≠ key →
    value (step state event) other = value state other
  balance_acted : ∀ state event key action, acts event = some (key, action) →
    balance (step state event) = balance state + (effect action (value state key)).2

namespace Accounts

variable [DecidableEq Key] (accounts : Accounts State Event Key Action Value)

/-- The actions of a run on one key. -/
def actionsOn (key : Key) (events : List Event) : List Action :=
  events.filterMap fun event =>
    (accounts.acts event).bind fun act => if act.1 = key then some act.2 else none

/-- Each event of a run finds a value that the guard of its key lets it act on. -/
def Careful (guard : Key → Action → Option Value → Prop) : List Event → State → Prop
  | [], _ => True
  | event :: events, state =>
      (∀ key action, accounts.acts event = some (key, action) →
        guard key action (accounts.value state key)) ∧
      Careful guard events (accounts.step state event)

variable {accounts}

theorem mem_actionsOn {key : Key} {events : List Event} {action : Action} :
    action ∈ accounts.actionsOn key events ↔
      ∃ event ∈ events, accounts.acts event = some (key, action) := by
  unfold actionsOn
  simp only [List.mem_filterMap, Option.bind_eq_some_iff, Option.ite_none_right_eq_some,
    Option.some.injEq, Prod.exists]
  constructor
  · rintro ⟨event, member, changed, other, acted, rfl, rfl⟩
    exact ⟨event, member, acted⟩
  · rintro ⟨event, member, acted⟩
    exact ⟨event, member, key, action, acted, rfl, rfl⟩

theorem actionsOn_cons_idle {event : Event} (idle : accounts.acts event = none) (key : Key)
    (events : List Event) :
    accounts.actionsOn key (event :: events) = accounts.actionsOn key events := by
  simp [actionsOn, idle]

theorem actionsOn_cons_acted {event : Event} {key : Key} {action : Action}
    (acted : accounts.acts event = some (key, action)) (events : List Event) :
    accounts.actionsOn key (event :: events) = action :: accounts.actionsOn key events := by
  simp [actionsOn, acted]

theorem actionsOn_cons_other {event : Event} {key other : Key} {action : Action}
    (acted : accounts.acts event = some (key, action)) (differ : other ≠ key)
    (events : List Event) :
    accounts.actionsOn other (event :: events) = accounts.actionsOn other events := by
  simp [actionsOn, acted, Ne.symm differ]

variable (accounts) in
/-- **The value of a key.** It is what the actions on this key make of it. -/
theorem value_run (key : Key) (events : List Event) (state : State) :
    accounts.value (events.foldl accounts.step state) key =
      (outcome accounts.effect (accounts.actionsOn key events) (accounts.value state key)).1 := by
  induction events generalizing state with
  | nil => rfl
  | cons event events ih =>
      rw [List.foldl_cons, ih]
      cases acts : accounts.acts event with
      | none => rw [accounts.value_idle state event key acts, actionsOn_cons_idle acts]
      | some act =>
          obtain ⟨changed, action⟩ := act
          by_cases same : key = changed
          · subst same
            rw [accounts.value_acted state event key action acts, actionsOn_cons_acted acts]
            rfl
          · rw [accounts.value_other state event changed action key acts same,
              actionsOn_cons_other acts same]

variable (accounts) in
/-- **The balance.** It is the sum of the contributions of the keys. -/
theorem balance_run (keys : Finset Key) (events : List Event) (state : State)
    (covered : ∀ event ∈ events, ∀ key action, accounts.acts event = some (key, action) →
      key ∈ keys) :
    accounts.balance (events.foldl accounts.step state) = accounts.balance state +
      ∑ key ∈ keys,
        (outcome accounts.effect (accounts.actionsOn key events) (accounts.value state key)).2 := by
  induction events generalizing state with
  | nil => simp [actionsOn, outcome]
  | cons event events ih =>
      have rest := ih (accounts.step state event) fun other member =>
        covered other (List.mem_cons_of_mem event member)
      rw [List.foldl_cons, rest]
      cases acts : accounts.acts event with
      | none =>
          rw [accounts.balance_idle state event acts]
          apply congrArg (accounts.balance state + ·)
          apply Finset.sum_congr rfl
          intro key _
          rw [accounts.value_idle state event key acts, actionsOn_cons_idle acts]
      | some act =>
          obtain ⟨changed, action⟩ := act
          have inside := covered event List.mem_cons_self changed action acts
          have part (key : Key) : (outcome accounts.effect (accounts.actionsOn key (event :: events))
              (accounts.value state key)).2 =
                (if key = changed then (accounts.effect action (accounts.value state changed)).2
                  else 0) +
                (outcome accounts.effect (accounts.actionsOn key events)
                  (accounts.value (accounts.step state event) key)).2 := by
            by_cases same : key = changed
            · subst same
              rw [actionsOn_cons_acted acts, if_pos rfl,
                accounts.value_acted state event key action acts]
              rfl
            · rw [actionsOn_cons_other acts same, if_neg same, zero_add,
                accounts.value_other state event changed action key acts same]
          rw [Finset.sum_congr rfl fun key _ => part key, Finset.sum_add_distrib,
            Finset.sum_ite_eq' keys changed, if_pos inside,
            accounts.balance_acted state event changed action acts]
          ring

/-- The actions of a careful run on a key heed the guard of the key. -/
theorem Careful.heeds {guard : Key → Action → Option Value → Prop} {events : List Event}
    {state : State} (careful : accounts.Careful guard events state) (key : Key) :
    Heeds accounts.effect (guard key) (accounts.actionsOn key events)
      (accounts.value state key) := by
  induction events generalizing state with
  | nil => trivial
  | cons event events ih =>
      have rest := ih careful.2
      cases acts : accounts.acts event with
      | none =>
          rw [accounts.value_idle state event key acts] at rest
          rw [actionsOn_cons_idle acts]
          exact rest
      | some act =>
          obtain ⟨changed, action⟩ := act
          by_cases same : key = changed
          · subst same
            rw [accounts.value_acted state event key action acts] at rest
            rw [actionsOn_cons_acted acts]
            exact ⟨careful.1 key action acts, rest⟩
          · rw [accounts.value_other state event changed action key acts same] at rest
            rw [actionsOn_cons_other acts same]
            exact rest

end Accounts

end LMCacheHcu.KeyedAccounts
