import Mathlib.Tactic

/-! # Asynchronous streams

A host issues operations to streams and goes on; each stream executes its own
operations in order, and nothing orders those of different streams but a
synchronisation, which waits for all of them. When operations of different
streams commute between two synchronisations, every order of execution has the
effect of the order of issue.
-/

namespace LMCacheHcu.Streams

variable {Stream Op State : Type*}

inductive Issue (Stream Op : Type*)
  | enqueue (stream : Stream) (op : Op)
  | synchronize
deriving DecidableEq, Repr

/-- The orders in which the operations may be executed, given those that are
issued and wait, in the order of issue. -/
inductive Executes : List (Issue Stream Op) → List (Stream × Op) → List Op → Prop
  | done : Executes [] [] []
  | enqueue {stream : Stream} {op : Op} {issues : List (Issue Stream Op)}
      {waiting : List (Stream × Op)} {order : List Op}
      (later : Executes issues (waiting ++ [(stream, op)]) order) :
      Executes (.enqueue stream op :: issues) waiting order
  | synchronize {issues : List (Issue Stream Op)} {order : List Op}
      (later : Executes issues [] order) : Executes (.synchronize :: issues) [] order
  | execute {issues : List (Issue Stream Op)} {before after : List (Stream × Op)}
      {stream : Stream} {op : Op} {order : List Op}
      (first : ∀ other ∈ before, other.1 ≠ stream)
      (later : Executes issues (before ++ after) order) :
      Executes issues (before ++ (stream, op) :: after) (op :: order)

/-- The operations in the order of issue. -/
def inOrder : List (Issue Stream Op) → List Op
  | [] => []
  | .enqueue _ op :: issues => op :: inOrder issues
  | .synchronize :: issues => inOrder issues

/-- Issue several operations to one stream. -/
def enqueueAll (stream : Stream) (ops : List Op) : List (Issue Stream Op) :=
  ops.map (.enqueue stream)

@[simp] theorem inOrder_append (first second : List (Issue Stream Op)) :
    inOrder (first ++ second) = inOrder first ++ inOrder second := by
  induction first with
  | nil => rfl
  | cons issue first ih =>
      cases issue with
      | enqueue stream op => exact congrArg (op :: ·) ih
      | synchronize => exact ih

@[simp] theorem inOrder_enqueueAll (stream : Stream) (ops : List Op) :
    inOrder (enqueueAll stream ops) = ops := by
  induction ops with
  | nil => rfl
  | cons op ops ih => exact congrArg (op :: ·) ih

theorem inOrder_flatMap {ι : Type*} (indices : List ι) (issues : ι → List (Issue Stream Op)) :
    inOrder (indices.flatMap issues) = indices.flatMap fun index => inOrder (issues index) := by
  induction indices with
  | nil => rfl
  | cons index indices ih => rw [List.flatMap_cons, inOrder_append, ih, List.flatMap_cons]

/-- The order of issue is one of the orders of execution. -/
theorem executes_inOrder (issues : List (Issue Stream Op)) :
    Executes issues [] (inOrder issues) := by
  induction issues with
  | nil => exact .done
  | cons issue issues ih =>
      cases issue with
      | enqueue stream op =>
          have alone : Executes issues ([] ++ (stream, op) :: []) (op :: inOrder issues) :=
            .execute (fun _ member => absurd member List.not_mem_nil) ih
          exact .enqueue alone
      | synchronize => exact .synchronize ih

theorem Executes.enqueueAll {stream : Stream} {ops : List Op} {issues : List (Issue Stream Op)}
    {waiting : List (Stream × Op)} {order : List Op}
    (later : Executes issues (waiting ++ ops.map fun op => (stream, op)) order) :
    Executes (enqueueAll stream ops ++ issues) waiting order := by
  induction ops generalizing waiting with
  | nil =>
      rw [List.map_nil, List.append_nil] at later
      exact later
  | cons op ops ih =>
      rw [List.map_cons, List.append_cons] at later
      exact .enqueue (ih later)

/-- A stream executes what it has, while the other ones wait. -/
theorem Executes.executeAll {stream : Stream} {ops : List Op} {issues : List (Issue Stream Op)}
    {before : List (Stream × Op)} {order : List Op}
    (others : ∀ other ∈ before, other.1 ≠ stream) (later : Executes issues before order) :
    Executes issues (before ++ ops.map fun op => (stream, op)) (ops ++ order) := by
  induction ops with
  | nil =>
      rw [List.map_nil, List.append_nil]
      exact later
  | cons op ops ih => exact .execute others ih

/-- What waits and what is issued is executed. -/
theorem Executes.perm {issues : List (Issue Stream Op)} {waiting : List (Stream × Op)}
    {order : List Op} (executes : Executes issues waiting order) :
    order.Perm (waiting.map Prod.snd ++ inOrder issues) := by
  induction executes with
  | done => exact .refl _
  | @enqueue stream op issues waiting order _ ih =>
      rw [List.map_append, List.append_assoc] at ih
      exact ih
  | synchronize _ ih => exact ih
  | @execute issues before after stream op order _ _ ih =>
      rw [List.map_append, List.append_assoc] at ih
      rw [List.map_append, List.map_cons, List.append_assoc, List.cons_append]
      exact (ih.cons op).trans List.perm_middle.symm

/-- The stream of an issue, a synchronisation has none. -/
def Issue.On (stream : Stream) : Issue Stream Op → Prop
  | .enqueue other _ => other = stream
  | .synchronize => True

theorem on_enqueueAll {stream : Stream} {ops : List Op} :
    ∀ issue ∈ enqueueAll stream ops, issue.On stream := by
  intro issue member
  obtain ⟨op, -, rfl⟩ := List.mem_map.mp member
  rfl

/-- A single stream executes in the order of issue. -/
theorem Executes.eq_inOrder {stream : Stream} {issues : List (Issue Stream Op)}
    {waiting : List (Stream × Op)} {order : List Op} (executes : Executes issues waiting order)
    (waits : ∀ entry ∈ waiting, entry.1 = stream) (issued : ∀ issue ∈ issues, issue.On stream) :
    order = waiting.map Prod.snd ++ inOrder issues := by
  induction executes with
  | done => rfl
  | @enqueue target op issues waiting order _ ih =>
      obtain ⟨rfl, later⟩ := List.forall_mem_cons.mp issued
      rw [ih (List.forall_mem_append.mpr ⟨waits, List.forall_mem_singleton.mpr rfl⟩) later,
        List.map_append, List.append_assoc]
      rfl
  | synchronize _ ih => exact ih nofun (List.forall_mem_cons.mp issued).2
  | @execute issues before after target op order first _ ih =>
      obtain rfl : target = stream := waits (target, op) (by simp)
      have none : before = [] := by
        apply List.eq_nil_iff_forall_not_mem.mpr
        intro entry member
        exact first entry member (waits entry (List.mem_append_left _ member))
      subst none
      rw [ih (fun entry member => waits entry (List.mem_cons_of_mem _ member)) issued]
      rfl

variable (apply : State → Op → State) (conflict : Op → Op → Prop)

/-- Two operations have the same effect in both orders. -/
def Commute (first second : Op) : Prop :=
  ∀ state, apply (apply state first) second = apply (apply state second) first

/-- Operations that may wait together on different streams commute, unless the
order of these two is known to be kept. -/
def Independent (first second : Stream × Op) : Prop :=
  first.1 ≠ second.1 → conflict first.2 second.2 ∨ Commute apply first.2 second.2

/-- Between two synchronisations, operations of different streams commute. -/
def Apart : List (Stream × Op) → List (Issue Stream Op) → Prop
  | waiting, [] => waiting.Pairwise (Independent apply conflict)
  | waiting, .enqueue stream op :: issues => Apart (waiting ++ [(stream, op)]) issues
  | waiting, .synchronize :: issues =>
      waiting.Pairwise (Independent apply conflict) ∧ Apart [] issues

variable {apply} {conflict}

theorem Apart.waiting_pairwise {waiting : List (Stream × Op)} {issues : List (Issue Stream Op)}
    (apart : Apart apply conflict waiting issues) :
    waiting.Pairwise (Independent apply conflict) := by
  induction issues generalizing waiting with
  | nil => exact apart
  | cons issue issues ih =>
      cases issue with
      | enqueue stream op => exact (List.pairwise_append.mp (ih apart)).1
      | synchronize => exact apart.1

/-- Fewer waiting operations are apart as well. -/
theorem Apart.sublist {waiting fewer : List (Stream × Op)} {issues : List (Issue Stream Op)}
    (apart : Apart apply conflict waiting issues) (sublist : fewer.Sublist waiting) :
    Apart apply conflict fewer issues := by
  induction issues generalizing waiting fewer with
  | nil => exact List.Pairwise.sublist sublist apart
  | cons issue issues ih =>
      cases issue with
      | enqueue stream op => exact ih apart (sublist.append (.refl _))
      | synchronize => exact ⟨apart.1.sublist sublist, apart.2⟩

theorem apart_enqueueAll_append {waiting : List (Stream × Op)} {stream : Stream} {ops : List Op}
    {issues : List (Issue Stream Op)} :
    Apart apply conflict waiting (enqueueAll stream ops ++ issues) ↔
      Apart apply conflict (waiting ++ ops.map fun op => (stream, op)) issues := by
  induction ops generalizing waiting with
  | nil => rw [List.map_nil, List.append_nil]; rfl
  | cons op ops ih =>
      change Apart apply conflict (waiting ++ [(stream, op)])
        (enqueueAll stream ops ++ issues) ↔ _
      rw [ih, List.append_assoc, List.map_cons]
      rfl

/-- An operation moves to the front over operations that it commutes with. -/
theorem foldl_apply_commute {ops : List Op} {op : Op}
    (commute : ∀ other ∈ ops, Commute apply other op) (state : State) :
    ops.foldl apply (apply state op) = apply (ops.foldl apply state) op := by
  induction ops generalizing state with
  | nil => rfl
  | cons first ops ih =>
      rw [List.foldl_cons, List.foldl_cons,
        ← ih (fun other member => commute other (List.mem_cons_of_mem _ member)),
        commute first List.mem_cons_self]

/-- **The order of execution does not matter** when the operations are apart and
the order keeps those that are in conflict in their order. -/
theorem Executes.foldl_eq {issues : List (Issue Stream Op)} {waiting : List (Stream × Op)}
    {order : List Op} (executes : Executes issues waiting order)
    (apart : Apart apply conflict waiting issues)
    (kept : order.Pairwise fun earlier later => ¬ conflict later earlier) (state : State) :
    order.foldl apply state = (waiting.map Prod.snd ++ inOrder issues).foldl apply state := by
  induction executes generalizing state with
  | done => rfl
  | @enqueue stream op issues waiting order _ ih =>
      rw [ih apart kept, List.map_append, List.append_assoc]
      rfl
  | synchronize _ ih => exact ih apart.2 kept state
  | @execute issues before after stream op order first rest ih =>
      have fewer : (before ++ after).Sublist (before ++ (stream, op) :: after) :=
        (List.Sublist.refl before).append (List.sublist_cons_self _ _)
      have commute : ∀ other ∈ before.map Prod.snd, Commute apply other op := by
        intro other member
        have later : other ∈ order := rest.perm.mem_iff.mpr (by
          rw [List.map_append]
          exact List.mem_append_left _ (List.mem_append_left _ member))
        obtain ⟨entry, inside, rfl⟩ := List.mem_map.mp member
        have pairs := (List.pairwise_append.mp apart.waiting_pairwise).2.2
        have independent := pairs entry inside (stream, op) List.mem_cons_self
        exact (independent (first entry inside)).resolve_left
          (List.rel_of_pairwise_cons kept later)
      rw [List.foldl_cons, ih (apart.sublist fewer) kept.of_cons]
      simp only [List.map_append, List.map_cons, List.append_assoc, List.cons_append,
        List.foldl_append, List.foldl_cons]
      rw [foldl_apply_commute commute]

end LMCacheHcu.Streams
