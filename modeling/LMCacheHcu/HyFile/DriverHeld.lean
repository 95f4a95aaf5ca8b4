import LMCacheHcu.HyFile.BackendSteps

/-! # The driver over runs of a process

In a run whose steps spare the other owners the driver is open exactly while it
has an owner. Without that condition a last allocator closes it under a backend.
-/

namespace LMCacheHcu.HyFile

/-- The count, the references and the driver agree with the records. -/
structure Balanced (process : Process) : Prop where
  sane : Sane process.lifecycle process.owns
  active : (process.lifecycle.activeAllocators : ℤ) = process.counts
  refs : ∀ ptr, process.lifecycle.driver.refs ptr = process.holds ptr
  allocators : ∀ allocator ∈ process.allocators, allocator.Sound
  backends : ∀ backend ∈ process.backends, backend.Sound

theorem Allocator.counts_pos {allocator : Allocator} :
    0 < allocator.counts ↔ allocator.counted = true := by
  rw [counts]
  split <;> simp_all

theorem Allocator.registered_of_holds {allocator : Allocator} {ptr : ℕ}
    (holds : 0 < allocator.holds ptr) : allocator.registered = true := by
  rw [Allocator.holds] at holds
  split at holds
  · exact (by assumption : _ ∧ _).1
  · omega

namespace Backend

variable {backend : Backend}

theorem owns_pos : 0 < backend.owns ↔ backend.ownsDriver = true := by
  rw [owns]
  split <;> simp_all

theorem counts_pos : 0 < backend.counts ↔
    ∃ allocator ∈ backend.allocators, allocator.counted = true := by
  simp only [counts, Runs.sum_pos_iff Allocator.counts_nonneg, Allocator.counts_pos]

/-- A backend that holds a buffer has a share in the driver. -/
theorem Sound.owner_of_holds (sound : backend.Sound) {ptr : ℕ} (holds : 0 < backend.holds ptr) :
    0 < backend.counts + backend.owns := by
  have owns := backend.owns_nonneg
  by_cases own : 0 < backend.registered ptr
  · have some : backend.registrations ≠ [] ∨ backend.edge ≠ none := by
      by_contra neither
      push Not at neither
      simp [registered, neither.1, neither.2] at own
    apply sound.owner_of_needs
    by_cases live : backend.stage = .live
    · simp [NeedsDriver, live]
    · by_cases closing : backend.stage = .closing
      · simpa [NeedsDriver, closing] using some
      · obtain ⟨registrations, edge⟩ := sound.idle live closing
        rcases some with nonempty | present
        · exact absurd registrations nonempty
        · exact absurd edge present
  · have members : 0 < (backend.allocators.map fun allocator => allocator.holds ptr).sum := by
      rw [Backend.holds] at holds
      omega
    obtain ⟨allocator, member, positive⟩ :=
      (Runs.sum_pos_iff (fun allocator => allocator.holds_nonneg ptr) _).mp members
    have counted := sound.members allocator member (Allocator.registered_of_holds positive)
    have counts := counts_pos.mpr ⟨allocator, member, counted⟩
    omega

end Backend

namespace Process

theorem holds_nonneg_backends (process : Process) (ptr : ℕ) :
    0 ≤ (process.backends.map fun backend => backend.holds ptr).sum :=
  Runs.sum_nonneg (fun backend => backend.holds_nonneg ptr) _

theorem holds_nonneg_allocators (process : Process) (ptr : ℕ) :
    0 ≤ (process.allocators.map fun allocator => allocator.holds ptr).sum :=
  Runs.sum_nonneg (fun allocator => allocator.holds_nonneg ptr) _

theorem owns_nonneg (process : Process) : 0 ≤ process.owns := Runs.sum_nonneg Backend.owns_nonneg _

end Process

namespace Balanced

variable {process : Process}

theorem initial : Balanced .initial where
  sane := ⟨by simp [Process.initial, Process.owns], by simp [Process.initial, Driver.Positive]⟩
  active := rfl
  refs _ := rfl
  allocators := by simp [Process.initial]
  backends := by simp [Process.initial]

theorem part (balanced : Balanced process) {backend : Backend}
    (member : backend ∈ process.backends) : Part process.lifecycle process.owns backend where
  sane := balanced.sane
  sound := balanced.backends backend member
  counts := by
    rw [balanced.active, Process.counts]
    have inside := Runs.le_sum_of_mem Backend.counts_nonneg member
    have others : 0 ≤ (process.allocators.map Allocator.counts).sum :=
      Runs.sum_nonneg Allocator.counts_nonneg _
    omega
  owns := Runs.le_sum_of_mem Backend.owns_nonneg member
  holds ptr := by
    rw [balanced.refs, Process.holds]
    have inside := Runs.le_sum_of_mem (fun backend => backend.holds_nonneg ptr) member
    have others := process.holds_nonneg_allocators ptr
    omega

/-- Whoever has a share in the driver is an owner of it. -/
theorem hasOwner_iff (balanced : Balanced process) :
    process.HasOwner ↔ 0 < (process.lifecycle.activeAllocators : ℤ) + process.owns := by
  have allocators : 0 ≤ (process.allocators.map Allocator.counts).sum :=
    Runs.sum_nonneg Allocator.counts_nonneg _
  have backends : 0 ≤ (process.backends.map Backend.counts).sum := Runs.sum_nonneg Backend.counts_nonneg _
  have owners := process.owns_nonneg
  have some : 0 < (process.lifecycle.activeAllocators : ℤ) + process.owns ↔
      0 < (process.allocators.map Allocator.counts).sum ∨
        0 < (process.backends.map Backend.counts).sum ∨ 0 < process.owns := by
    rw [balanced.active, Process.counts]
    omega
  rw [some, Process.owns, Runs.sum_pos_iff Allocator.counts_nonneg, Runs.sum_pos_iff Backend.counts_nonneg,
    Runs.sum_pos_iff Backend.owns_nonneg, Process.HasOwner]
  simp only [Allocator.counts_pos, Backend.counts_pos, Backend.owns_pos]
  constructor
  · rintro (allocator | ⟨backend, member, owned | counted⟩)
    · exact .inl allocator
    · exact .inr (.inr ⟨backend, member, owned⟩)
    · exact .inr (.inl ⟨backend, member, counted⟩)
  · rintro (allocator | ⟨backend, member, counted⟩ | ⟨backend, member, owned⟩)
    · exact .inl allocator
    · exact .inr ⟨backend, member, .inr counted⟩
    · exact .inr ⟨backend, member, .inl owned⟩

theorem driverHeld (balanced : Balanced process) : DriverHeld process where
  owner owner := balanced.sane.opened.mpr (balanced.hasOwner_iff.mp owner)
  directBackend backend member _ live := by
    have needs : backend.NeedsDriver := by simp [Backend.NeedsDriver, live]
    exact balanced.sane.opened.mpr ((balanced.part member).owner needs)
  buffer ptr entry registered := by
    have references := balanced.sane.positive ptr entry registered
    have held : 0 < process.holds ptr := by
      rw [← balanced.refs, Driver.refs, registered]
      simpa [Nat.one_le_iff_ne_zero, Nat.pos_iff_ne_zero] using references
    apply balanced.sane.opened.mpr
    by_cases own : 0 < (process.allocators.map fun allocator => allocator.holds ptr).sum
    · obtain ⟨allocator, member, positive⟩ :=
        (Runs.sum_pos_iff (fun allocator => allocator.holds_nonneg ptr) _).mp own
      have counted :=
        balanced.allocators allocator member (Allocator.registered_of_holds positive)
      exact balanced.hasOwner_iff.mp (.inl ⟨allocator, member, counted⟩)
    · have others : 0 < (process.backends.map fun backend => backend.holds ptr).sum := by
        rw [Process.holds] at held
        omega
      obtain ⟨backend, member, positive⟩ :=
        (Runs.sum_pos_iff (fun backend => backend.holds_nonneg ptr) _).mp others
      have part := balanced.part member
      have share := part.sound.owner_of_holds positive
      have counts := part.counts
      have owns := part.owns
      omega
  noOwner none := by
    rw [balanced.hasOwner_iff, ← balanced.sane.opened] at none
    simpa using none

theorem allocator_counts_le (balanced : Balanced process) {allocator : Allocator}
    (member : allocator ∈ process.allocators) :
    allocator.counts ≤ process.lifecycle.activeAllocators := by
  have inside := Runs.le_sum_of_mem Allocator.counts_nonneg member
  have others : 0 ≤ (process.backends.map Backend.counts).sum := Runs.sum_nonneg Backend.counts_nonneg _
  rw [balanced.active, Process.counts]
  omega

theorem allocator_holds_le (balanced : Balanced process) {allocator : Allocator}
    (member : allocator ∈ process.allocators) (ptr : ℕ) :
    allocator.holds ptr ≤ process.lifecycle.driver.refs ptr := by
  have inside := Runs.le_sum_of_mem (fun allocator => allocator.holds_nonneg ptr) member
  have others := process.holds_nonneg_backends ptr
  rw [balanced.refs, Process.holds]
  omega

/-- The constructor of an allocator appends what it has made. -/
theorem createAllocator (balanced : Balanced process) {after : Lifecycle}
    {made : Option Allocator} (sound : ∀ allocator ∈ made, allocator.Sound)
    (effect : Effect process.owns process.lifecycle after ((made.map Allocator.counts).getD 0) 0
      fun ptr => (made.map fun allocator => allocator.holds ptr).getD 0) :
    Balanced { process with
      lifecycle := after
      allocators := process.allocators ++ made.toList } where
  sane := by simpa [Process.owns] using effect.sane
  active := by
    rw [effect.active, balanced.active]
    cases made <;> simp [Process.counts]
    ring
  refs ptr := by
    rw [effect.refs, balanced.refs]
    cases made <;> simp [Process.holds]
    ring
  allocators allocator member := by
    rcases List.mem_append.mp member with old | new
    · exact balanced.allocators allocator old
    · exact sound allocator (by simpa using new)
  backends := balanced.backends

/-- A step that spares the other owners keeps the balance. -/
theorem step (balanced : Balanced process) {event : Event} {next : Process}
    (spares : sparesOwners process event = true) (stepped : step process event = some next) :
    Balanced next := by
  cases event with
  | createAllocator ptr size calls =>
      cases stepped
      rcases made : process.lifecycle.newAllocator calls ptr size with ⟨after, none | allocator⟩
      · exact balanced.createAllocator (by simp)
          (Lifecycle.newAllocator_none balanced.sane spares made)
      · obtain ⟨sound, -, effect⟩ :=
          Lifecycle.newAllocator_some balanced.sane process.owns_nonneg made
        exact balanced.createAllocator (by simpa using sound) effect
  | closeAllocator index calls =>
      obtain ⟨allocator, here, result⟩ := Option.map_eq_some_iff.mp stepped
      rcases closed : process.lifecycle.closeAllocator calls allocator with ⟨after, left, done⟩
      simp only [closed] at result
      cases result
      have member := List.mem_of_getElem? here
      simp only [sparesOwners, here, Option.all_some] at spares
      obtain ⟨leftSound, -, effect⟩ := Lifecycle.closeAllocator_effect balanced.sane
        process.owns_nonneg (balanced.allocators _ member) (balanced.allocator_counts_le member)
        (balanced.allocator_holds_le member) spares closed
      exact
        { sane := by simpa [Process.owns] using effect.sane
          active := by
            rw [effect.active, balanced.active]
            simp only [Process.counts, Runs.sum_map_set Allocator.counts here]
            ring
          refs := fun ptr => by
            rw [effect.refs, balanced.refs]
            simp only [Process.holds, Runs.sum_map_set (fun allocator => allocator.holds ptr) here]
            ring
          allocators := fun other inside => by
            rcases List.mem_or_eq_of_mem_set inside with old | rfl
            · exact balanced.allocators other old
            · exact leftSound
          backends := balanced.backends }
  | createBackend mode =>
      cases stepped
      exact
        { sane := by
            simpa [Process.owns, Backend.new, Backend.owns, Backend.ownsDriver] using balanced.sane
          active := by
            rw [balanced.active]
            simp [Process.counts, Backend.new, Backend.counts_eq]
          refs := fun ptr => by
            rw [balanced.refs]
            simp [Process.holds, Backend.new, Backend.holds_eq, Backend.registered]
          allocators := balanced.allocators
          backends := fun backend member => by
            rcases List.mem_append.mp member with old | new
            · exact balanced.backends backend old
            · rw [List.mem_singleton.mp new]
              exact .new mode }
  | backend index event calls =>
      obtain ⟨backend, here, result⟩ := Option.bind_eq_some_iff.mp stepped
      obtain ⟨⟨after, moved⟩, advanced, rfl⟩ := Option.map_eq_some_iff.mp result
      simp only [sparesOwners, here, Option.all_some] at spares
      obtain ⟨sound, effect⟩ :=
        (balanced.part (List.mem_of_getElem? here)).advances spares advanced
      exact
        { sane := by
            have sum := Runs.sum_map_set Backend.owns here moved
            have owns : process.owns + (moved.owns - backend.owns) =
                ((process.backends.set index moved).map Backend.owns).sum := by
              rw [sum, Process.owns]
              ring
            rw [Process.owns, ← owns]
            exact effect.sane
          active := by
            rw [effect.active, balanced.active]
            simp only [Process.counts, Runs.sum_map_set Backend.counts here]
            ring
          refs := fun ptr => by
            rw [effect.refs, balanced.refs]
            simp only [Process.holds, Runs.sum_map_set (fun backend => backend.holds ptr) here]
            ring
          allocators := balanced.allocators
          backends := fun other inside => by
            rcases List.mem_or_eq_of_mem_set inside with old | rfl
            · exact balanced.backends other old
            · exact sound }

end Balanced

/-- **The driver over a run.** While every step that closes the driver finds no
other owner, the driver is open exactly while it has an owner. -/
theorem driverHeld_of_reaches {process : Process}
    (reached : Runs.Reaches step (fun process event => sparesOwners process event = true) .initial
      process) : DriverHeld process :=
  (reached.invariant Balanced.initial fun _ _ _ balanced spares stepped =>
    balanced.step spares stepped).driverHeld

/-- No call raises. -/
def Calls.returning : Calls := ⟨true, true, true, true, true, true⟩

/-- A backend in direct mode and an allocator beside it. -/
def directBeside : List Event :=
  .createBackend .directOnly ::
    List.replicate 5 (.backend 0 (.construct 0 0) .returning) ++ [.createAllocator 4096 8192 .returning]

/-- A run of both with a buffer of the backend and a second allocator that comes
and goes. -/
def bothRun : List Event :=
  directBeside ++ [.createAllocator 16384 8192 .returning,
    .backend 0 (.register ⟨"cuda:0", 65536, 8192⟩) .returning, .closeAllocator 1 .returning]

theorem driverHeld_of_reaches_both : ∃ process,
    Runs.execute step (fun process event => sparesOwners process event = true) bothRun .initial =
      some process ∧ DriverHeld process := by
  obtain ⟨process, executed⟩ : ∃ process, Runs.execute step
      (fun process event => sparesOwners process event = true) bothRun .initial = some process :=
    Option.isSome_iff_exists.mp (by decide)
  exact ⟨process, executed, driverHeld_of_reaches (Runs.reaches_of_execute .refl executed)⟩

/-- The last allocator closes the driver under a live backend in direct mode. -/
theorem not_driverHeld_lastAllocator : ∃ process,
    Runs.Reaches step (fun _ _ => True) .initial process ∧ ¬DriverHeld process := by
  obtain ⟨process, executed⟩ : ∃ process, Runs.execute step (fun _ _ => True)
      (directBeside ++ [.closeAllocator 0 .returning]) .initial = some process :=
    Option.isSome_iff_exists.mp (by decide)
  refine ⟨process, Runs.reaches_of_execute .refl executed, fun held => ?_⟩
  cases executed
  have isOpen := held.directBackend _ (List.mem_singleton_self _) rfl rfl
  exact absurd isOpen (by decide)

end LMCacheHcu.HyFile
