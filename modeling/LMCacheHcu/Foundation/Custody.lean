import Mathlib.Tactic

/-! # Files in the custody of several threads

Threads create and delete files while an index refers to some of them. A thread
claims the files that it is about to hand to the index, and has a list of files
that it will still delete. A file that the index holds or a thread claims is in
custody; it must be present, and nobody may be about to delete it. The rule
below says which steps of one thread keep this.
-/

namespace LMCacheHcu.Custody

variable {File Thread : Type*} (claims deletes : Thread → List File)

/-- The files in custody are present and safe. -/
def Kept (held present : File → Prop) (threads : List Thread) : Prop :=
  ∀ file, (held file ∨ ∃ thread ∈ threads, file ∈ claims thread) →
    present file ∧ ∀ thread ∈ threads, file ∉ deletes thread

/-- What one thread may do: hand over what it claims, claim what is present and
safe, plan to delete what is not in custody, and delete what it planned to. -/
structure ThreadStep (held present held' present' : File → Prop) (threads : List Thread)
    (index : ℕ) (thread next : Thread) : Prop where
  handsOver : ∀ file, held' file → held file ∨ file ∈ claims thread
  newClaims : ∀ file ∈ claims next, file ∈ claims thread ∨
    (present' file ∧ ∀ other ∈ threads, file ∉ deletes other)
  newDeletes : ∀ file ∈ deletes next, file ∈ deletes thread ∨
    (¬ held' file ∧ (∀ other ∈ threads.eraseIdx index, file ∉ claims other) ∧
      file ∉ claims next)
  remains : ∀ file, present file → present' file ∨ file ∈ deletes thread

theorem eq_or_mem_eraseIdx_of_mem_set {threads : List Thread} {index : ℕ} {next other : Thread}
    (member : other ∈ threads.set index next) : other = next ∨ other ∈ threads.eraseIdx index := by
  induction threads generalizing index with
  | nil => simp at member
  | cons first threads ih =>
      cases index with
      | zero =>
          rw [List.set_cons_zero] at member
          exact List.mem_cons.mp member
      | succ index =>
          rw [List.set_cons_succ] at member
          rcases List.mem_cons.mp member with rfl | later
          · exact .inr (List.mem_cons_self ..)
          · rcases ih later with same | old
            · exact .inl same
            · exact .inr (List.mem_cons_of_mem _ old)

variable {claims deletes} {held present held' present' : File → Prop} {threads : List Thread}
  {index : ℕ} {thread next : Thread}

/-- A new thread that claims nothing and plans nothing. -/
theorem Kept.append (kept : Kept claims deletes held present threads) (idle : claims next = [])
    (harmless : deletes next = []) : Kept claims deletes held present (threads ++ [next]) := by
  intro file custody
  have before : held file ∨ ∃ thread ∈ threads, file ∈ claims thread := by
    rcases custody with holds | ⟨claimant, member, claimed⟩
    · exact .inl holds
    · rcases List.mem_append.mp member with old | new
      · exact .inr ⟨claimant, old, claimed⟩
      · rw [List.mem_singleton.mp new, idle] at claimed
        cases claimed
  obtain ⟨here, spared⟩ := kept file before
  refine ⟨here, fun deleter member => ?_⟩
  rcases List.mem_append.mp member with old | new
  · exact spared deleter old
  · rw [List.mem_singleton.mp new, harmless]
    exact List.not_mem_nil

/-- Such a step keeps the files in custody present and safe. -/
theorem Kept.step (kept : Kept claims deletes held present threads)
    (here : threads[index]? = some thread)
    (step : ThreadStep claims deletes held present held' present' threads index thread next) :
    Kept claims deletes held' present' (threads.set index next) := by
  have own := List.mem_of_getElem? here
  have others : ∀ other ∈ threads.eraseIdx index, other ∈ threads := fun other member =>
    List.mem_of_mem_eraseIdx member
  intro file custody
  have source : (held file ∨ ∃ thread ∈ threads, file ∈ claims thread) ∨
      (file ∈ claims next ∧ present' file ∧ ∀ other ∈ threads, file ∉ deletes other) := by
    rcases custody with holds | ⟨claimant, member, claimed⟩
    · rcases step.handsOver file holds with before | mine
      · exact .inl (.inl before)
      · exact .inl (.inr ⟨thread, own, mine⟩)
    · rcases eq_or_mem_eraseIdx_of_mem_set member with rfl | other
      · rcases step.newClaims file claimed with mine | fresh
        · exact .inl (.inr ⟨thread, own, mine⟩)
        · exact .inr ⟨claimed, fresh⟩
      · exact .inl (.inr ⟨claimant, others claimant other, claimed⟩)
  have safe : present' file ∧ ∀ other ∈ threads, file ∉ deletes other := by
    rcases source with before | ⟨_, fresh⟩
    · obtain ⟨here, spared⟩ := kept file before
      exact ⟨(step.remains file here).resolve_right (spared thread own), spared⟩
    · exact fresh
  refine ⟨safe.1, fun deleter member deleted => ?_⟩
  rcases eq_or_mem_eraseIdx_of_mem_set member with rfl | other
  · rcases step.newDeletes file deleted with planned | ⟨unheld, unclaimed, notMine⟩
    · exact safe.2 thread own planned
    · rcases custody with holds | ⟨claimant, member, claimed⟩
      · exact unheld holds
      · rcases eq_or_mem_eraseIdx_of_mem_set member with rfl | other
        · exact notMine claimed
        · exact unclaimed claimant other claimed
  · exact safe.2 deleter (others deleter other) deleted

end LMCacheHcu.Custody
