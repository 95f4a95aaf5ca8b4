import Mathlib.Tactic

/-! # Interleaved writers of one memory

Several jobs write to one memory, each by its own steps in order. In a
concurrent run any job that is not finished may make its next step. What such a
run leaves at an address is what one of the jobs leaves there, so all runs leave
the same memory exactly when the jobs agree on every address that more than one
of them writes.
-/

namespace Interleaving

/-! ### Merges of lists -/

section Merges

variable {α : Type*}

/-- The list takes its elements from the given lists, each in its order: at
every point one list that is not used up gives its next element. -/
inductive Interleaves : List (List α) → List α → Prop
  | nil {lists : List (List α)} (finished : ∀ list ∈ lists, list = []) : Interleaves lists []
  | cons {before after : List (List α)} {step : α} {rest merged : List α}
      (later : Interleaves (before ++ rest :: after) merged) :
      Interleaves (before ++ (step :: rest) :: after) (step :: merged)

/-- The elements of a merge are those of the lists. -/
theorem Interleaves.exists_mem {lists : List (List α)} {merged : List α}
    (run : Interleaves lists merged) {step : α} (member : step ∈ merged) :
    ∃ list ∈ lists, step ∈ list := by
  induction run with
  | nil finished => cases member
  | @cons before after first rest merged _ ih =>
      rcases List.mem_cons.mp member with rfl | later
      · exact ⟨step :: rest, by simp, List.mem_cons_self ..⟩
      · obtain ⟨list, listed, inside⟩ := ih later
        rcases List.mem_append.mp listed with earlier | here
        · exact ⟨list, List.mem_append_left _ earlier, inside⟩
        rcases List.mem_cons.mp here with rfl | behind
        · exact ⟨first :: list, by simp, List.mem_cons_of_mem _ inside⟩
        · exact ⟨list, List.mem_append_right _ (List.mem_cons_of_mem _ behind), inside⟩

/-- A list may give several elements at once. -/
theorem Interleaves.drain {before after : List (List α)} {rest merged : List α}
    (later : Interleaves (before ++ rest :: after) merged) (steps : List α) :
    Interleaves (before ++ (steps ++ rest) :: after) (steps ++ merged) := by
  induction steps with
  | nil => exact later
  | cons step steps ih => exact ih.cons

/-- Neighbouring lists may be used up one after the other. -/
theorem Interleaves.drainAll {before after : List (List α)} (lists : List (List α))
    {merged : List α}
    (later : Interleaves (before ++ (lists.map (fun _ => []) ++ after)) merged) :
    Interleaves (before ++ (lists ++ after)) (lists.flatten ++ merged) := by
  induction lists generalizing before with
  | nil => exact later
  | cons list lists ih =>
      rw [List.map_cons, List.cons_append, List.append_cons] at later
      have others := ih later
      rw [← List.append_cons] at others
      have first := others.drain list
      rwa [List.append_nil, ← List.append_assoc] at first

/-- Lists that are used up have one merge. -/
theorem interleaves_empties (lists : List (List α)) :
    Interleaves (lists.map fun _ => []) ([] : List α) := by
  refine .nil fun list member => ?_
  obtain ⟨_, _, rfl⟩ := List.mem_map.mp member
  rfl

/-- Using up the lists one after the other is a merge. -/
theorem interleaves_flatten (lists : List (List α)) : Interleaves lists lists.flatten := by
  have start := interleaves_empties lists
  rw [← List.append_nil (lists.map _), ← List.nil_append (lists.map _ ++ [])] at start
  have drained := start.drainAll lists
  rwa [List.nil_append, List.append_nil, List.append_nil] at drained

/-- Any of the lists can be the last. -/
theorem exists_interleaves_last {lists : List (List α)} {list : List α} (member : list ∈ lists) :
    ∃ earlier, Interleaves lists (earlier ++ list) := by
  obtain ⟨before, after, rfl⟩ := List.append_of_mem member
  have start := interleaves_empties (before ++ list :: after)
  rw [List.map_append, List.map_cons] at start
  have last := start.drain list
  rw [List.append_nil, List.append_cons, ← List.append_nil (after.map _)] at last
  have behind := last.drainAll after
  rw [List.append_nil, List.append_assoc, List.singleton_append, ← List.nil_append (before.map _),
    List.append_assoc] at behind
  have whole := behind.drainAll before
  rw [List.nil_append, ← List.append_assoc] at whole
  exact ⟨_, whole⟩

end Merges

/-! ### What runs leave in memory -/

section Memory

variable {α ι β : Type*} (patch : α → ι → Option β)

/-- The memory after one step, which puts a value where its patch has one. -/
def write (memory : ι → β) (step : α) : ι → β := fun address =>
  (patch step address).getD (memory address)

/-- The memory after steps in this order. -/
def writeSteps (memory : ι → β) (steps : List α) : ι → β := steps.foldl (write patch) memory

/-- The value that steps in this order leave at an address, if one of them writes it. -/
def final : List α → ι → Option β
  | [], _ => none
  | step :: steps, address => (final steps address).or (patch step address)

theorem final_nil (address : ι) : final patch [] address = none := rfl

theorem final_cons (step : α) (steps : List α) (address : ι) :
    final patch (step :: steps) address = (final patch steps address).or (patch step address) :=
  rfl

theorem writeSteps_eq (memory : ι → β) (steps : List α) (address : ι) :
    writeSteps patch memory steps address = (final patch steps address).getD (memory address) := by
  induction steps generalizing memory with
  | nil => rfl
  | cons step steps ih =>
      rw [writeSteps, List.foldl_cons]
      refine (ih (write patch memory step)).trans ?_
      rw [final_cons]
      cases final patch steps address with
      | none => rfl
      | some value => rfl

theorem final_append (first second : List α) (address : ι) :
    final patch (first ++ second) address =
      (final patch second address).or (final patch first address) := by
  induction first with
  | nil => rw [List.nil_append, final_nil, Option.or_none]
  | cons step first ih => rw [List.cons_append, final_cons, final_cons, ih, Option.or_assoc]

theorem final_eq_none {steps : List α} {address : ι} :
    final patch steps address = none ↔ ∀ step ∈ steps, patch step address = none := by
  induction steps with
  | nil => simp [final_nil]
  | cons step steps ih =>
      rw [final_cons, Option.or_eq_none_iff, ih, List.forall_mem_cons, and_comm]

/-- What a concurrent run leaves at an address, one of its jobs leaves there. -/
theorem Interleaves.final_cases {jobs : List (List α)} {merged : List α}
    (run : Interleaves jobs merged) (address : ι) :
    (final patch merged address = none ∧ ∀ job ∈ jobs, final patch job address = none) ∨
      ∃ job ∈ jobs, ∃ value, final patch job address = some value ∧
        final patch merged address = some value := by
  induction run with
  | nil finished =>
      refine .inl ⟨rfl, fun job member => ?_⟩
      rw [finished job member, final_nil]
  | @cons before after step rest merged _ ih =>
      rcases ih with ⟨unwritten, others⟩ | ⟨job, member, value, left, leaves⟩
      · -- the step is the only one that can write the address
        have alone : final patch (step :: rest) address = patch step address := by
          rw [final_cons, others rest (by simp), Option.none_or]
        have first : final patch (step :: merged) address = patch step address := by
          rw [final_cons, unwritten, Option.none_or]
        cases written : patch step address with
        | none =>
            refine .inl ⟨first.trans written, fun job member => ?_⟩
            rcases List.mem_append.mp member with earlier | here
            · exact others job (List.mem_append_left _ earlier)
            rcases List.mem_cons.mp here with rfl | later
            · exact alone.trans written
            · exact others job (List.mem_append_right _ (List.mem_cons_of_mem _ later))
        | some value =>
            exact .inr ⟨step :: rest, by simp, value, alone.trans written, first.trans written⟩
      · have stays : final patch (step :: merged) address = some value := by
          rw [final_cons, leaves, Option.some_or]
        rcases List.mem_append.mp member with earlier | here
        · exact .inr ⟨job, List.mem_append_left _ earlier, value, left, stays⟩
        rcases List.mem_cons.mp here with rfl | later
        · refine .inr ⟨step :: job, by simp, value, ?_, stays⟩
          rw [final_cons, left, Option.some_or]
        · exact .inr ⟨job, List.mem_append_right _ (List.mem_cons_of_mem _ later), value, left,
            stays⟩

/-- Jobs that write one address leave the same value there. -/
def Agree (jobs : List (List α)) : Prop :=
  ∀ left ∈ jobs, ∀ right ∈ jobs, ∀ address value value',
    final patch left address = some value → final patch right address = some value' →
      value = value'

variable {patch}

/-- When the jobs agree, two runs of them leave the same memory. -/
theorem Agree.writeSteps_eq {jobs : List (List α)} (agree : Agree patch jobs)
    {first second : List α} (run : Interleaves jobs first) (run' : Interleaves jobs second)
    (memory : ι → β) : writeSteps patch memory first = writeSteps patch memory second := by
  funext address
  rw [Interleaving.writeSteps_eq, Interleaving.writeSteps_eq]
  rcases run.final_cases patch address with
    ⟨unwritten, none⟩ | ⟨job, member, value, left, leaves⟩
  · rcases run'.final_cases patch address with
      ⟨unwritten', _⟩ | ⟨job, member, value, left, _⟩
    · rw [unwritten, unwritten']
    · rw [none job member] at left
      cases left
  · rcases run'.final_cases patch address with
      ⟨_, none⟩ | ⟨job', member', value', left', leaves'⟩
    · rw [none job member] at left
      cases left
    · rw [leaves, leaves', agree job member job' member' address value value' left left']

/-- **Order does not matter** exactly when jobs that write one address leave the
same value there. -/
theorem forall_interleaves_iff (jobs : List (List α)) (memory : ι → β) :
    (∀ merged, Interleaves jobs merged →
        writeSteps patch memory merged = writeSteps patch memory jobs.flatten) ↔
      Agree patch jobs := by
  constructor
  · intro same left leftIn right rightIn address value value' leaves leaves'
    obtain ⟨earlier, run⟩ := exists_interleaves_last leftIn
    obtain ⟨earlier', run'⟩ := exists_interleaves_last rightIn
    have ended := congrFun ((same _ run).trans (same _ run').symm) address
    rw [writeSteps_eq, writeSteps_eq, final_append, final_append, leaves, leaves'] at ended
    exact ended
  · intro agree merged run
    exact agree.writeSteps_eq run (interleaves_flatten jobs) memory

/-- Jobs of which no two write one address agree. -/
theorem agree_of_pairwise {jobs : List (List α)}
    (apart : jobs.Pairwise fun left right => ∀ address,
      final patch left address = none ∨ final patch right address = none) : Agree patch jobs := by
  let same : List α → List α → Prop := fun left right => ∀ address value value',
    final patch left address = some value → final patch right address = some value' →
      value = value'
  have symmetric : Std.Symm same := ⟨fun left right agree address value value' leaves leaves' =>
    (agree address value' value leaves' leaves).symm⟩
  have itself : ∀ job ∈ jobs, same job job := fun job _ address value value' leaves leaves' =>
    Option.some.inj (leaves.symm.trans leaves')
  have different : jobs.Pairwise same := by
    refine apart.imp fun {left right} separate address value value' leaves leaves' => ?_
    rcases separate address with none | none
    · rw [none] at leaves
      cases leaves
    · rw [none] at leaves'
      cases leaves'
  exact fun left leftIn right rightIn => different.forall_of_forall itself leftIn rightIn

end Memory

end Interleaving
