import LMCacheHcu.HyFile.Ownership

/-! # The steps of a backend

What the constructor of a backend establishes stage by stage, and that each step
of the constructor, of a registration or of `close` changes the common counts by
what it changes of the backend's own share.
-/

namespace LMCacheHcu.HyFile

/-! ### Backends that need the driver -/

namespace Backend

variable {backend : Backend}

/-- The backend or its allocator keeps the driver open. -/
def Supported (backend : Backend) : Prop :=
  backend.owned = true ∨ ∃ allocator, backend.main = some allocator ∧ allocator.counted = true

/-- The backend may use the driver, or has buffers that are registered with it. -/
def NeedsDriver (backend : Backend) : Prop :=
  match backend.stage with
  | .probing | .opening => backend.mode ≠ .directOnly
  | .staging | .finishing | .live => True
  | .closing => backend.registrations ≠ [] ∨ backend.edge ≠ none
  | _ => False

/-- What the constructor establishes stage by stage. -/
structure Sound (backend : Backend) : Prop where
  members : ∀ allocator ∈ backend.allocators, allocator.Sound
  idle : backend.stage ≠ .live → backend.stage ≠ .closing →
    backend.registrations = [] ∧ backend.edge = none
  supported : backend.NeedsDriver → backend.Supported
  owner : backend.owned = true → backend.mode = .directOnly ∧ backend.stage ≠ .allocating ∧
    backend.stage ≠ .probing ∧ backend.stage ≠ .opening
  bare : backend.mode = .directOnly → backend.allocators = []
  noMain : backend.stage = .allocating → backend.main = none
  noStaging : backend.stage = .allocating ∨ backend.stage = .probing ∨ backend.stage = .opening ∨
    backend.stage = .staging → backend.stagingAllocator = none ∧ backend.spare = none

theorem counts_eq (backend : Backend) : backend.counts =
    (backend.main.map Allocator.counts).getD 0 +
      (backend.stagingAllocator.map Allocator.counts).getD 0 +
        (backend.spare.map Allocator.counts).getD 0 := by
  simp only [counts, allocators]
  cases backend.main <;> cases backend.stagingAllocator <;> cases backend.spare <;> simp [add_assoc]

theorem holds_eq (backend : Backend) (ptr : ℕ) : backend.holds ptr =
    (backend.main.map fun allocator => allocator.holds ptr).getD 0 +
      (backend.stagingAllocator.map fun allocator => allocator.holds ptr).getD 0 +
        (backend.spare.map fun allocator => allocator.holds ptr).getD 0 +
          backend.registered ptr := by
  simp only [holds, allocators]
  cases backend.main <;> cases backend.stagingAllocator <;> cases backend.spare <;> simp [add_assoc]

theorem mem_allocators {allocator : Allocator} : allocator ∈ backend.allocators ↔
    backend.main = some allocator ∨ backend.stagingAllocator = some allocator ∨
      backend.spare = some allocator := by
  simp [allocators]

end Backend

theorem Allocator.counts_nonneg (allocator : Allocator) : 0 ≤ allocator.counts := by
  rw [counts]
  split <;> simp

theorem Allocator.holds_nonneg (allocator : Allocator) (ptr : ℕ) : 0 ≤ allocator.holds ptr := by
  rw [holds]
  split <;> simp

namespace Backend

theorem counts_nonneg (backend : Backend) : 0 ≤ backend.counts :=
  Runs.sum_nonneg Allocator.counts_nonneg _

theorem owns_nonneg (backend : Backend) : 0 ≤ backend.owns := by
  rw [owns]
  split <;> simp

theorem registered_nonneg (backend : Backend) (ptr : ℕ) : 0 ≤ backend.registered ptr := by
  have registrations : 0 ≤ (backend.registrations.map fun registration =>
      if registration.base = ptr then (1 : ℤ) else 0).sum :=
    Runs.sum_nonneg (fun _ => by split <;> simp) _
  have edge : (0 : ℤ) ≤ if backend.edge = some ptr then 1 else 0 := by split <;> simp
  rw [registered]
  omega

theorem holds_nonneg (backend : Backend) (ptr : ℕ) : 0 ≤ backend.holds ptr :=
  add_nonneg (Runs.sum_nonneg (fun allocator => allocator.holds_nonneg ptr) _)
    (backend.registered_nonneg ptr)

variable {backend : Backend}

/-- A backend that needs the driver has a share in it. -/
theorem Sound.owner_of_needs (sound : backend.Sound) (needs : backend.NeedsDriver) :
    0 < backend.counts + backend.owns := by
  have counts := backend.counts_nonneg
  have owns := backend.owns_nonneg
  rcases sound.supported needs with owned | ⟨allocator, main, counted⟩
  · have alive : backend.stage ≠ .failed := by
      intro failed
      simp [NeedsDriver, failed] at needs
    have one : backend.owns = 1 := by simp [Backend.owns, ownsDriver, owned, alive]
    omega
  · have part := Runs.le_sum_of_mem Allocator.counts_nonneg (mem_allocators.mpr (.inl main))
    have one : allocator.counts = 1 := by simp [Allocator.counts, counted]
    rw [Backend.counts] at counts ⊢
    omega

end Backend

/-- A backend as a part of a process: its shares are part of what the process
has counted. -/
structure Part (lifecycle : Lifecycle) (owns : ℤ) (backend : Backend) : Prop where
  sane : Sane lifecycle owns
  sound : backend.Sound
  counts : backend.counts ≤ lifecycle.activeAllocators
  owns : backend.owns ≤ owns
  holds : ∀ ptr, backend.holds ptr ≤ lifecycle.driver.refs ptr

/-- A step of a backend that keeps the common part in step with its shares. -/
structure Advances (owns : ℤ) (before after : Lifecycle) (old new : Backend) : Prop where
  sound : new.Sound
  effect : Effect owns before after (new.counts - old.counts) (new.owns - old.owns)
    (fun ptr => new.holds ptr - old.holds ptr)

namespace Part

variable {lifecycle next : Lifecycle} {owns : ℤ} {backend moved : Backend} {calls : Calls}

theorem nonneg (part : Part lifecycle owns backend) : 0 ≤ owns :=
  backend.owns_nonneg.trans part.owns

/-- A backend that needs the driver finds it open. -/
theorem owner (part : Part lifecycle owns backend) (needs : backend.NeedsDriver) :
    0 < lifecycle.activeAllocators + owns := by
  have own := part.sound.owner_of_needs needs
  have counts := part.counts
  have owned := part.owns
  omega

/-- The close of one of the backend's allocators. -/
theorem closeMember (part : Part lifecycle owns backend) {allocator left : Allocator} {done : Bool}
    (member : allocator ∈ backend.allocators)
    (spares : lifecycle.closeSpares owns calls allocator = true)
    (closed : lifecycle.closeAllocator calls allocator = (next, left, done)) :
    left.Sound ∧ (done = true → left.counts = 0 ∧ left.holds = 0) ∧
      Effect owns lifecycle next (left.counts - allocator.counts) 0
        (fun ptr => left.holds ptr - allocator.holds ptr) := by
  refine Lifecycle.closeAllocator_effect part.sane part.nonneg (part.sound.members _ member)
    ?_ (fun ptr => ?_) spares closed
  · exact (Runs.le_sum_of_mem Allocator.counts_nonneg member).trans part.counts
  · have inside := Runs.le_sum_of_mem (fun allocator => allocator.holds_nonneg ptr) member
    have all := part.holds ptr
    have direct := backend.registered_nonneg ptr
    rw [Backend.holds] at all
    omega

end Part

/-! ### One step of a backend -/

theorem Effect.advances {owns : ℤ} {before after : Lifecycle} {counts ownsMore : ℤ}
    {holds : ℕ → ℤ} {old new : Backend} (effect : Effect owns before after counts ownsMore holds)
    (sound : new.Sound) (sameCounts : new.counts = old.counts + counts)
    (sameOwns : new.owns = old.owns + ownsMore)
    (sameHolds : ∀ ptr, new.holds ptr = old.holds ptr + holds ptr) :
    Advances owns before after old new where
  sound := sound
  effect := by
    have counts : new.counts - old.counts = counts := by omega
    have owned : new.owns - old.owns = ownsMore := by omega
    have held : (fun ptr => new.holds ptr - old.holds ptr) = holds := by
      funext ptr
      rw [sameHolds]
      ring
    rw [counts, owned, held]
    exact effect

namespace Backend.Sound

variable {backend : Backend}

theorem new (mode : Mode) : (Backend.new mode).Sound where
  members := by simp [Backend.new, Backend.allocators]
  idle := by simp [Backend.new]
  supported := by simp [Backend.new, Backend.NeedsDriver]
  owner := by simp [Backend.new]
  bare := by simp [Backend.new, Backend.allocators]
  noMain := by simp [Backend.new]
  noStaging := by simp [Backend.new]

/-- A backend without buffers of its own goes on to another stage. -/
theorem moveTo (sound : backend.Sound)
    (empty : backend.registrations = [] ∧ backend.edge = none) {stage : Stage}
    (supported : ({ backend with stage := stage } : Backend).NeedsDriver → backend.Supported)
    (owner : backend.owned = true →
      stage ≠ .allocating ∧ stage ≠ .probing ∧ stage ≠ .opening)
    (noStaging : stage = .probing ∨ stage = .opening ∨ stage = .staging →
      backend.stagingAllocator = none ∧ backend.spare = none)
    (started : stage ≠ .allocating) : ({ backend with stage := stage } : Backend).Sound where
  members := sound.members
  idle _ _ := empty
  supported := supported
  owner owned := ⟨(sound.owner owned).1, owner owned⟩
  bare := sound.bare
  noMain := fun first => absurd first started
  noStaging := by
    rintro (first | later)
    · exact absurd first started
    · exact noStaging later

/-- The constructor of a backend has failed, or is to be rolled back. -/
theorem giveUp (sound : backend.Sound)
    (empty : backend.registrations = [] ∧ backend.edge = none) {stage : Stage}
    (ended : stage = .failed ∨ stage = .rollingBack) :
    ({ backend with stage := stage } : Backend).Sound := by
  refine sound.moveTo empty ?_ ?_ ?_ ?_ <;> rcases ended with rfl | rfl <;>
    simp [Backend.NeedsDriver]

/-- An allocator of the backend is replaced by what its close has left of it. -/
theorem setMember (sound : backend.Sound) {member : Member} {allocator left : Allocator}
    (found : backend.member member = some allocator) (leftSound : left.Sound)
    (spared : member = .main → ¬backend.NeedsDriver) : (backend.setMember left member).Sound := by
  have held : backend.mode ≠ .directOnly := by
    intro direct
    have inside : allocator ∈ backend.allocators := by
      rw [Backend.mem_allocators]
      cases member
      · exact .inl found
      · exact .inr (.inl found)
      · exact .inr (.inr found)
    rw [sound.bare direct] at inside
    cases inside
  cases member with
  | main =>
      exact
        { members := fun other here => by
            rcases Backend.mem_allocators.mp here with main | staging | spare
            · cases main
              exact leftSound
            · exact sound.members other (Backend.mem_allocators.mpr (.inr (.inl staging)))
            · exact sound.members other (Backend.mem_allocators.mpr (.inr (.inr spare)))
          idle := sound.idle
          supported := fun needs => absurd needs (spared rfl)
          owner := sound.owner
          bare := fun direct => absurd direct held
          noMain := fun first => by
            rw [Backend.member, sound.noMain first] at found
            cases found
          noStaging := sound.noStaging }
  | staging =>
      exact
        { members := fun other here => by
            rcases Backend.mem_allocators.mp here with main | staging | spare
            · exact sound.members other (Backend.mem_allocators.mpr (.inl main))
            · cases staging
              exact leftSound
            · exact sound.members other (Backend.mem_allocators.mpr (.inr (.inr spare)))
          idle := sound.idle
          supported := sound.supported
          owner := sound.owner
          bare := fun direct => absurd direct held
          noMain := sound.noMain
          noStaging := fun early => by
            rw [Backend.member, (sound.noStaging early).1] at found
            cases found }
  | spare =>
      exact
        { members := fun other here => by
            rcases Backend.mem_allocators.mp here with main | staging | spare
            · exact sound.members other (Backend.mem_allocators.mpr (.inl main))
            · exact sound.members other (Backend.mem_allocators.mpr (.inr (.inl staging)))
            · cases spare
              exact leftSound
          idle := sound.idle
          supported := sound.supported
          owner := sound.owner
          bare := fun direct => absurd direct held
          noMain := sound.noMain
          noStaging := fun early => by
            rw [Backend.member, (sound.noStaging early).2] at found
            cases found }

/-- A backend with its own allocator is ready to open the storage interface. -/
theorem addMain (sound : backend.Sound) (stage : backend.stage = .allocating)
    (staged : backend.mode ≠ .directOnly) {allocator : Allocator} (new : allocator.Sound)
    (counted : allocator.counted = true) :
    ({ backend with main := some allocator, stage := .probing } : Backend).Sound where
  members := by
    obtain ⟨noStaging, noSpare⟩ := sound.noStaging (.inl stage)
    intro other here
    rcases Backend.mem_allocators.mp here with main | staging | spare
    · cases main
      exact new
    · simp [noStaging] at staging
    · simp [noSpare] at spare
  idle _ _ := sound.idle (by simp [stage]) (by simp [stage])
  supported _ := .inr ⟨allocator, rfl, counted⟩
  owner owned := absurd stage (sound.owner owned).2.1
  bare direct := absurd direct staged
  noMain := by simp
  noStaging _ := sound.noStaging (.inl stage)

/-- The constructor gets a staging allocator, and keeps it or fails with it. -/
theorem addStaging (sound : backend.Sound) (stage : backend.stage = .staging)
    (staged : backend.mode ≠ .directOnly) {allocator : Allocator} (new : allocator.Sound) :
    ({ backend with stagingAllocator := some allocator, stage := .finishing } : Backend).Sound ∧
      ({ backend with spare := some allocator, stage := .rollingBack } : Backend).Sound := by
  obtain ⟨noStaging, noSpare⟩ := sound.noStaging (.inr (.inr (.inr stage)))
  have empty := sound.idle (by simp [stage]) (by simp [stage])
  have members : ∀ other, backend.main = some other → other.Sound := fun other main =>
    sound.members other (Backend.mem_allocators.mpr (.inl main))
  constructor
  · exact
      { members := by
          intro other here
          rcases Backend.mem_allocators.mp here with main | staging | spare
          · exact members other main
          · cases staging
            exact new
          · simp [noSpare] at spare
        idle := fun _ _ => empty
        supported := fun _ => sound.supported (by simp [Backend.NeedsDriver, stage])
        owner := fun owned => ⟨(sound.owner owned).1, by simp⟩
        bare := fun direct => absurd direct staged
        noMain := by simp
        noStaging := by simp }
  · exact
      { members := by
          intro other here
          rcases Backend.mem_allocators.mp here with main | staging | spare
          · exact members other main
          · simp [noStaging] at staging
          · cases spare
            exact new
        idle := fun _ _ => empty
        supported := by simp [Backend.NeedsDriver]
        owner := fun owned => ⟨(sound.owner owned).1, by simp⟩
        bare := fun direct => absurd direct staged
        noMain := by simp
        noStaging := by simp }

/-- A direct backend has opened the driver. -/
theorem own (sound : backend.Sound) (stage : backend.stage = .opening)
    (direct : backend.mode = .directOnly) :
    ({ backend with owned := true, stage := .staging } : Backend).Sound where
  members := sound.members
  idle _ _ := sound.idle (by simp [stage]) (by simp [stage])
  supported _ := .inl rfl
  owner _ := ⟨direct, by simp⟩
  bare := sound.bare
  noMain := by simp
  noStaging _ := sound.noStaging (.inr (.inr (.inl stage)))

end Backend.Sound

namespace Advances

variable {lifecycle next after : Lifecycle} {owns : ℤ} {backend middle moved : Backend}
  {calls : Calls}

theorem trans (first : Advances owns lifecycle next backend middle)
    (second : Advances (owns + (middle.owns - backend.owns)) next after middle moved) :
    Advances owns lifecycle after backend moved := by
  have both := first.effect.trans second.effect
  refine both.advances second.sound (by ring) (by ring) fun ptr => ?_
  simp only [Pi.add_apply]
  ring

/-- A step that only changes the stage, and loses no driver. -/
theorem moves (sane : Sane lifecycle owns) {stage : Stage}
    (sound : ({ backend with stage := stage } : Backend).Sound) (alive : backend.stage ≠ .failed)
    (kept : stage = .failed → backend.owned = false) :
    Advances owns lifecycle lifecycle backend { backend with stage := stage } := by
  refine (Lifecycle.effect_refl sane).advances sound ?_ ?_ fun ptr => ?_
  · simp [Backend.counts_eq]
  · by_cases failed : stage = .failed
    · simp [Backend.owns, Backend.ownsDriver, kept failed]
    · simp [Backend.owns, Backend.ownsDriver, failed, alive]
  · simp [Backend.holds_eq, Backend.registered]

/-- A staging allocator that is closed can be forgotten. -/
theorem dropsStaging (sane : Sane lifecycle owns) (sound : backend.Sound) {left : Allocator}
    (staging : backend.stagingAllocator = some left) (counts : left.counts = 0)
    (holds : left.holds = 0) :
    Advances owns lifecycle lifecycle backend { backend with stagingAllocator := none } := by
  have fewer : ∀ allocator ∈ ({ backend with stagingAllocator := none } : Backend).allocators,
      allocator ∈ backend.allocators := by
    intro allocator member
    rw [Backend.mem_allocators] at member ⊢
    rcases member with main | none | spare
    · exact .inl main
    · cases none
    · exact .inr (.inr spare)
  refine (Lifecycle.effect_refl sane).advances ?_ ?_ ?_ fun ptr => ?_
  · exact
      { members := fun allocator member => sound.members allocator (fewer allocator member)
        idle := sound.idle
        supported := sound.supported
        owner := sound.owner
        bare := fun direct => List.eq_nil_iff_forall_not_mem.mpr fun allocator member => by
          have inside := fewer allocator member
          rw [sound.bare direct] at inside
          cases inside
        noMain := sound.noMain
        noStaging := fun early => ⟨rfl, (sound.noStaging early).2⟩ }
  · simp [Backend.counts_eq, staging, counts]
  · simp [Backend.owns, Backend.ownsDriver]
  · simp [Backend.holds_eq, Backend.registered, staging, holds]

end Advances

namespace Part

variable {lifecycle next : Lifecycle} {owns : ℤ} {backend moved : Backend} {calls : Calls}

/-- The close of one of the backend's allocators, the main one only when nothing
needs it. -/
theorem closes (part : Part lifecycle owns backend) {member : Member} {allocator left : Allocator}
    {done : Bool} (found : backend.member member = some allocator)
    (spared : member = .main → ¬backend.NeedsDriver)
    (spares : lifecycle.closeSpares owns calls allocator = true)
    (closed : lifecycle.closeAllocator calls allocator = (next, left, done)) :
    (done = true → left.counts = 0 ∧ left.holds = 0) ∧
      Advances owns lifecycle next backend (backend.setMember left member) := by
  have inside : allocator ∈ backend.allocators := by
    rw [Backend.mem_allocators]
    cases member
    · exact .inl found
    · exact .inr (.inl found)
    · exact .inr (.inr found)
  obtain ⟨leftSound, none, effect⟩ := part.closeMember inside spares closed
  refine ⟨none, effect.advances (part.sound.setMember found leftSound spared) ?_ ?_ fun ptr => ?_⟩
  · cases member <;> simp only [Backend.member] at found <;>
      simp [Backend.setMember, Backend.counts_eq, found] <;> ring
  · cases member <;> simp [Backend.setMember, Backend.owns, Backend.ownsDriver]
  · cases member <;> simp only [Backend.member] at found <;>
      simp [Backend.setMember, Backend.holds_eq, Backend.registered, found] <;> ring

/-- A backend with an allocator does not own the driver itself. -/
theorem unowned (part : Part lifecycle owns backend) {allocator : Allocator}
    (inside : allocator ∈ backend.allocators) : backend.owned = false := by
  cases owned : backend.owned with
  | false => rfl
  | true =>
      rw [part.sound.bare (part.sound.owner owned).1] at inside
      cases inside

/-- The only owner closes the driver, which nothing needs any more. -/
theorem closesDriver (part : Part lifecycle owns backend) {driver : Driver}
    (owned : backend.owned = true) (alive : backend.stage ≠ .failed)
    (unneeded : ¬backend.NeedsDriver) (sole : lifecycle.soleOwner owns = true)
    (closed : lifecycle.driver.closeDriver calls = some driver) :
    Advances owns lifecycle { lifecycle with driver := driver } backend
      { backend with owned := false } := by
  obtain ⟨active, one⟩ := of_decide_eq_true sole
  have only : (lifecycle.activeAllocators : ℤ) + (owns + -1) = 0 := by omega
  have sound := part.sound
  refine (Lifecycle.effect_closeDriver part.sane closed only).advances ?_ ?_ ?_ fun ptr => ?_
  · exact
      { members := sound.members
        idle := sound.idle
        supported := fun needs => absurd needs unneeded
        owner := by simp
        bare := sound.bare
        noMain := sound.noMain
        noStaging := sound.noStaging }
  · simp [Backend.counts_eq]
  · simp [Backend.owns, Backend.ownsDriver, owned, alive]
  · simp [Backend.holds_eq, Backend.registered]

theorem rollBack (part : Part lifecycle owns backend) (stage : backend.stage = .rollingBack)
    (spares : lifecycle.rollBackSpares owns calls backend = true)
    (rolled : lifecycle.rollBack calls backend = (next, moved)) :
    Advances owns lifecycle next backend moved := by
  have sound := part.sound
  have alive : backend.stage ≠ .failed := by simp [stage]
  have unneeded : ¬backend.NeedsDriver := by simp [Backend.NeedsDriver, stage]
  have empty := sound.idle (by simp [stage]) (by simp [stage])
  simp only [Lifecycle.rollBack] at rolled
  simp only [Lifecycle.rollBackSpares] at spares
  split at rolled
  · rename_i allocator staging
    simp only [staging] at spares
    split at rolled
    · rename_i left closed
      cases rolled
      obtain ⟨none, first⟩ := part.closes (show backend.member .staging = _ from staging) (by simp) spares closed
      obtain ⟨counts, holds⟩ := none rfl
      exact first.trans (.dropsStaging first.effect.sane first.sound rfl counts holds)
    · rename_i left closed
      cases rolled
      obtain ⟨-, first⟩ := part.closes (show backend.member .staging = _ from staging) (by simp) spares closed
      have unowned := part.unowned (Backend.mem_allocators.mpr (.inr (.inl staging)))
      exact first.trans (.moves first.effect.sane (first.sound.giveUp empty (.inl rfl)) alive
        fun _ => unowned)
  · rename_i staging
    simp only [staging] at spares
    split at rolled
    · rename_i owned
      simp only [owned, if_true, Bool.and_eq_true] at spares
      split at rolled
      · rename_i raised
        rw [(Driver.closeDriver_none raised).2] at spares
        cases spares.1
      · rename_i driver closed
        cases rolled
        exact part.closesDriver owned alive unneeded spares.2 closed
    · rename_i isUnowned
      have unowned : backend.owned = false := by simpa using isUnowned
      split at rolled
      · rename_i allocator main
        rcases closed : lifecycle.closeAllocator calls allocator with ⟨after, left, done⟩
        simp only [closed] at rolled
        cases rolled
        simp only [unowned, main, Bool.false_eq_true, if_false, Option.all_some] at spares
        obtain ⟨-, first⟩ := part.closes (show backend.member .main = _ from main)
          (fun _ => unneeded) spares closed
        exact first.trans (.moves first.effect.sane (first.sound.giveUp empty (.inl rfl)) alive
          fun _ => unowned)
      · cases rolled
        exact .moves part.sane (sound.giveUp empty (.inl rfl)) alive fun _ => unowned

/-- A failed allocation leaves the backend as it is. -/
theorem allocationFails (part : Part lifecycle owns backend) {ptr size : ℕ}
    (spares : lifecycle.creationSpares owns calls ptr size = true)
    (failed : lifecycle.newAllocator calls ptr size = (next, none)) :
    Advances owns lifecycle next backend backend :=
  (Lifecycle.newAllocator_none part.sane spares failed).advances part.sound (by simp) (by simp)
    (by simp)

/-- Behind the guarded part a failed constructor leaves the driver to the others. -/
theorem abandons (part : Part lifecycle owns backend) (stage : backend.stage = .finishing)
    (others : backend.owned = true → 1 < (lifecycle.activeAllocators : ℤ) + owns) :
    Advances owns lifecycle lifecycle backend { backend with stage := .failed } := by
  have empty := part.sound.idle (by simp [stage]) (by simp [stage])
  have gone := part.sound.giveUp empty (.inl rfl)
  by_cases owned : backend.owned = true
  · have isOpen := part.sane.opened
    have more := others owned
    have effect : Effect owns lifecycle lifecycle 0 (-1) 0 := by
      refine ⟨by simp, by simp, ?_, part.sane.positive⟩
      rw [isOpen]
      omega
    refine effect.advances gone ?_ ?_ fun ptr => ?_
    · simp [Backend.counts_eq]
    · simp [Backend.owns, Backend.ownsDriver, owned, stage]
    · simp [Backend.holds_eq, Backend.registered]
  · exact .moves part.sane gone (by simp [stage]) fun _ => by simpa using owned

/-- Before the driver is opened the backend does not own it. -/
theorem unowned_of_early (part : Part lifecycle owns backend)
    (early : backend.stage = .allocating ∨ backend.stage = .probing ∨ backend.stage = .opening) :
    backend.owned = false := by
  cases owned : backend.owned with
  | false => rfl
  | true =>
      obtain ⟨_, notAllocating, notProbing, notOpening⟩ := part.sound.owner owned
      rcases early with stage | stage | stage
      · exact absurd stage notAllocating
      · exact absurd stage notProbing
      · exact absurd stage notOpening

theorem construct (part : Part lifecycle owns backend) {ptr size : ℕ}
    (spares : lifecycle.advanceSpares owns calls backend (.construct ptr size) = true)
    (constructed : lifecycle.construct calls backend ptr size = some (next, moved)) :
    Advances owns lifecycle next backend moved := by
  have sound := part.sound
  have empty := sound.idle
  simp only [Lifecycle.construct] at constructed
  simp only [Lifecycle.advanceSpares] at spares
  split at constructed
  · -- `allocating`, direct
    rename_i stage mode
    cases constructed
    refine .moves part.sane (sound.moveTo (empty (by simp [stage]) (by simp [stage])) ?_ ?_ ?_ ?_)
      (by simp [stage]) (by simp)
    · simp [Backend.NeedsDriver, mode]
    · exact fun owned => absurd stage (sound.owner owned).2.1
    · exact fun _ => sound.noStaging (.inl stage)
    · simp
  · -- `allocating`, staged
    rename_i blockFirst direct stage mode
    simp only [stage, mode] at spares
    split at constructed
    · rename_i made
      cases constructed
      have first := part.allocationFails spares made
      exact first.trans (.moves first.effect.sane
        (sound.giveUp (empty (by simp [stage]) (by simp [stage])) (.inl rfl)) (by simp [stage])
        fun _ => part.unowned_of_early (.inl stage))
    · rename_i allocator made
      cases constructed
      obtain ⟨newSound, counted, effect⟩ := Lifecycle.newAllocator_some part.sane part.nonneg made
      have noMain := sound.noMain stage
      refine effect.advances (sound.addMain stage (by simp [mode]) newSound counted) ?_ ?_
        fun ptr => ?_
      · simp [Backend.counts_eq, noMain]
        ring
      · simp [Backend.owns, Backend.ownsDriver, stage]
      · simp [Backend.holds_eq, Backend.registered, noMain]
        ring
  · -- `probing`
    rename_i stage
    cases constructed
    have unowned := part.unowned_of_early (.inr (.inl stage))
    refine .moves part.sane ?_ (by simp [stage]) fun _ => unowned
    split
    · refine sound.moveTo (empty (by simp [stage]) (by simp [stage])) ?_ ?_ ?_ ?_
      · exact fun needs => sound.supported (by simpa [Backend.NeedsDriver, stage] using needs)
      · simp [unowned]
      · exact fun _ => sound.noStaging (.inr (.inl stage))
      · simp
    · exact sound.giveUp (empty (by simp [stage]) (by simp [stage])) (.inl rfl)
  · -- `opening`, direct
    rename_i stage mode
    have unowned := part.unowned_of_early (.inr (.inr stage))
    split at constructed
    · cases constructed
      exact .moves part.sane (sound.giveUp (empty (by simp [stage]) (by simp [stage])) (.inr rfl))
        (by simp [stage]) (by simp)
    · rename_i driver opened
      cases constructed
      refine (Lifecycle.effect_initDriver part.sane part.nonneg opened).advances
        (sound.own stage mode) ?_ ?_ fun ptr => ?_
      · simp [Backend.counts_eq]
      · simp [Backend.owns, Backend.ownsDriver, unowned]
      · simp [Backend.holds_eq, Backend.registered]
  · -- `opening`, staged
    rename_i blockFirst direct stage mode
    cases constructed
    have needs : backend.NeedsDriver := by simp [Backend.NeedsDriver, stage, mode]
    have first : Advances owns lifecycle { lifecycle with
        driver := (lifecycle.driver.initDriver calls).getD lifecycle.driver } backend backend :=
      (Lifecycle.effect_openFile part.sane (part.owner needs)).advances sound (by simp) (by simp)
        (by simp)
    refine first.trans (.moves first.effect.sane ?_ (by simp [stage])
      fun _ => part.unowned_of_early (.inr (.inr stage)))
    split
    · refine sound.moveTo (empty (by simp [stage]) (by simp [stage])) ?_ ?_ ?_ ?_
      · exact fun _ => sound.supported needs
      · simp
      · exact fun _ => sound.noStaging (.inr (.inr (.inl stage)))
      · simp
    · exact sound.giveUp (empty (by simp [stage]) (by simp [stage])) (.inr rfl)
  · -- `staging`, with a staging allocator
    rename_i direct stage mode
    simp only [stage, mode] at spares
    obtain ⟨noStaging, noSpare⟩ := sound.noStaging (.inr (.inr (.inr stage)))
    split at constructed
    · rename_i made
      cases constructed
      have first := part.allocationFails spares made
      exact first.trans (.moves first.effect.sane
        (sound.giveUp (empty (by simp [stage]) (by simp [stage])) (.inr rfl)) (by simp [stage])
        (by simp))
    · rename_i allocator made
      obtain ⟨newSound, -, effect⟩ := Lifecycle.newAllocator_some part.sane part.nonneg made
      obtain ⟨keeps, fails⟩ := sound.addStaging stage (by simp [mode]) newSound
      split at constructed
      · cases constructed
        refine effect.advances keeps ?_ ?_ fun ptr => ?_
        · simp [Backend.counts_eq, noStaging]
          ring
        · simp [Backend.owns, Backend.ownsDriver, stage]
        · simp [Backend.holds_eq, Backend.registered, noStaging]
          ring
      · cases constructed
        refine effect.advances fails ?_ ?_ fun ptr => ?_
        · simp [Backend.counts_eq, noSpare]
        · simp [Backend.owns, Backend.ownsDriver, stage]
        · simp [Backend.holds_eq, Backend.registered, noSpare]
          ring
  · -- `staging`, without
    rename_i stage _
    cases constructed
    refine .moves part.sane ?_ (by simp [stage]) (by split <;> simp)
    split
    · refine sound.moveTo (empty (by simp [stage]) (by simp [stage])) ?_ ?_ ?_ ?_
      · exact fun _ => sound.supported (by simp [Backend.NeedsDriver, stage])
      · simp
      · simp
      · simp
    · exact sound.giveUp (empty (by simp [stage]) (by simp [stage])) (.inr rfl)
  · -- `finishing`
    rename_i stage
    cases constructed
    cases proceeds : calls.proceeds with
    | true =>
        refine .moves part.sane ?_ (by simp [stage]) (by simp)
        refine sound.moveTo (empty (by simp [stage]) (by simp [stage])) ?_ ?_ ?_ ?_
        · exact fun _ => sound.supported (by simp [Backend.NeedsDriver, stage])
        · simp
        · simp
        · simp
    | false =>
        simp only [stage, proceeds] at spares
        refine part.abandons stage fun owned => ?_
        simpa [owned] using spares
  · -- `rollingBack`
    rename_i stage
    simp only [stage] at spares
    exact part.rollBack stage spares (Option.some.inj constructed)
  · cases constructed

/-- A backend that is live or closing has registered a buffer once more. -/
theorem registers (part : Part lifecycle owns backend) {driver : Driver} {ptr size : ℕ}
    (stage : backend.stage = .live)
    (registered : lifecycle.driver.registerGlobalBuffer calls ptr size = some driver)
    {registrations : List Registration} {edge : Option ℕ}
    (more : ∀ other, ({ backend with registrations := registrations, edge := edge } :
      Backend).registered other = backend.registered other + if other = ptr then 1 else 0) :
    Advances owns lifecycle { lifecycle with driver := driver } backend
      { backend with registrations := registrations, edge := edge } := by
  have sound := part.sound
  refine (Lifecycle.effect_registerGlobalBuffer part.sane registered).advances ?_ ?_ ?_
    fun other => ?_
  · exact
      { members := sound.members
        idle := fun notLive => absurd stage notLive
        supported := fun _ => sound.supported (by simp [Backend.NeedsDriver, stage])
        owner := sound.owner
        bare := sound.bare
        noMain := sound.noMain
        noStaging := sound.noStaging }
  · simp [Backend.counts_eq]
  · simp [Backend.owns, Backend.ownsDriver]
  · simp only [Backend.holds_eq, more]
    ring

theorem ensureDirectRegistration (part : Part lifecycle owns backend) {registration : Registration}
    (stage : backend.stage = .live)
    (ensured : lifecycle.ensureDirectRegistration calls backend registration = (next, moved)) :
    Advances owns lifecycle next backend moved := by
  have stays : Advances owns lifecycle lifecycle backend backend :=
    (Lifecycle.effect_refl part.sane).advances part.sound (by simp) (by simp) (by simp)
  simp only [Lifecycle.ensureDirectRegistration] at ensured
  split at ensured
  · cases ensured
    exact stays
  split at ensured
  · cases ensured
    exact stays
  · rename_i driver registered
    cases ensured
    refine part.registers stage registered fun other => ?_
    simp only [Backend.registered, List.map_append, List.map_cons, List.map_nil, List.sum_append,
      List.sum_cons, List.sum_nil, add_zero, eq_comm (a := other)]
    ring

theorem getDirectEdgeStaging (part : Part lifecycle owns backend) {ptr size : ℕ}
    (stage : backend.stage = .live)
    (ensured : lifecycle.getDirectEdgeStaging calls backend ptr size = (next, moved)) :
    Advances owns lifecycle next backend moved := by
  have stays : Advances owns lifecycle lifecycle backend backend :=
    (Lifecycle.effect_refl part.sane).advances part.sound (by simp) (by simp) (by simp)
  simp only [Lifecycle.getDirectEdgeStaging] at ensured
  split at ensured
  · cases ensured
    exact stays
  rename_i noEdge
  split at ensured
  · cases ensured
    exact stays
  · rename_i driver registered
    cases ensured
    refine part.registers stage registered fun other => ?_
    have none : backend.edge = none := by simpa using noEdge
    simp only [Backend.registered, none, Option.some.injEq, eq_comm (a := other), reduceCtorEq,
      if_false, add_zero]

/-- A closing backend has given back one of its own registrations. -/
theorem givesBack (part : Part lifecycle owns backend) {driver : Driver} {ptr : ℕ}
    (stage : backend.stage = .closing)
    (deregistered : lifecycle.driver.deregisterGlobalBuffer calls ptr = some driver)
    (needs : backend.NeedsDriver) {registrations : List Registration} {edge : Option ℕ}
    (fewer : ∀ other, backend.registered other = ({ backend with
      registrations := registrations, edge := edge } : Backend).registered other +
        if other = ptr then 1 else 0) :
    Advances owns lifecycle { lifecycle with driver := driver } backend
      { backend with registrations := registrations, edge := edge } := by
  have sound := part.sound
  have held : 0 < lifecycle.driver.refs ptr := by
    have holds := part.holds ptr
    have less := fewer ptr
    have rest := Backend.registered_nonneg
      { backend with registrations := registrations, edge := edge } ptr
    have members : 0 ≤ (backend.allocators.map fun allocator => allocator.holds ptr).sum :=
      Runs.sum_nonneg (fun allocator => allocator.holds_nonneg ptr) _
    rw [Backend.holds] at holds
    rw [if_pos rfl] at less
    omega
  refine (Lifecycle.effect_deregisterGlobalBuffer part.sane held deregistered).advances ?_ ?_ ?_
    fun other => ?_
  · exact
      { members := sound.members
        idle := fun _ notClosing => absurd stage notClosing
        supported := fun _ => sound.supported needs
        owner := sound.owner
        bare := sound.bare
        noMain := sound.noMain
        noStaging := sound.noStaging }
  · simp [Backend.counts_eq]
  · simp [Backend.owns, Backend.ownsDriver]
  · simp only [Backend.holds_eq, fewer]
    ring

theorem close (part : Part lifecycle owns backend) (stage : backend.stage = .closing)
    (spares : lifecycle.advanceSpares owns calls backend .close = true)
    (closed : lifecycle.close calls backend = (next, moved)) :
    Advances owns lifecycle next backend moved := by
  have stays : Advances owns lifecycle lifecycle backend backend :=
    (Lifecycle.effect_refl part.sane).advances part.sound (by simp) (by simp) (by simp)
  simp only [Lifecycle.close] at closed
  split at closed
  · rename_i registration rest registrations
    split at closed
    · cases closed
      exact stays
    · rename_i driver deregistered
      cases closed
      refine part.givesBack stage deregistered
        (by simp [Backend.NeedsDriver, stage, registrations]) fun other => ?_
      simp only [Backend.registered, registrations, List.map_cons, List.sum_cons,
        eq_comm (a := other)]
      ring
  rename_i registrations
  split at closed
  · rename_i ptr edge
    split at closed
    · cases closed
      exact stays
    · rename_i driver deregistered
      cases closed
      refine part.givesBack stage deregistered (by simp [Backend.NeedsDriver, stage, edge])
        fun other => ?_
      simp only [Backend.registered, edge, Option.some.injEq, eq_comm (a := other), reduceCtorEq,
        if_false, add_zero]
  rename_i edge
  have unneeded : ¬backend.NeedsDriver := by
    simp [Backend.NeedsDriver, stage, registrations, edge]
  have spares : lifecycle.closeMembersSpares owns calls backend = true := by
    simpa [Lifecycle.advanceSpares, stage, registrations, edge] using spares
  simp only [Lifecycle.closeMembersSpares] at spares
  split at closed
  · rename_i allocator staging
    simp only [staging] at spares
    split at closed
    · rename_i left done
      cases closed
      obtain ⟨none, first⟩ :=
        part.closes (show backend.member .staging = _ from staging) (by simp) spares done
      obtain ⟨counts, holds⟩ := none rfl
      exact first.trans (.dropsStaging first.effect.sane first.sound rfl counts holds)
    · rename_i left raised
      cases closed
      exact (part.closes (show backend.member .staging = _ from staging) (by simp) spares raised).2
  rename_i staging
  simp only [staging] at spares
  have mainCloses : ∀ allocator, backend.main = some allocator →
      (allocator.registered || allocator.counted) = true →
      (next, moved) = ((lifecycle.closeAllocator calls allocator).1,
        { backend with main := some (lifecycle.closeAllocator calls allocator).2.1 }) →
      Advances owns lifecycle next backend moved := by
    intro allocator main isOpen result
    rcases done : lifecycle.closeAllocator calls allocator with ⟨after, left, completed⟩
    rw [done] at result
    cases result
    simp only [main, Option.any_some, isOpen, if_true, Option.all_some] at spares
    exact (part.closes (show backend.member .main = _ from main) (fun _ => unneeded) spares done).2
  split at closed
  · rename_i main
    exact mainCloses _ main rfl closed.symm
  · rename_i main
    exact mainCloses _ main rfl closed.symm
  · rename_i notRegistered notCounted
    have shut : (backend.main.any fun allocator =>
        allocator.registered || allocator.counted) = false := by
      cases main : backend.main with
      | none => rfl
      | some allocator =>
          rcases allocator with ⟨ptr, registered, counted⟩
          cases registered with
          | true => exact absurd main (notRegistered ptr counted)
          | false =>
              cases counted with
              | true => exact absurd main (notCounted ptr)
              | false => rfl
    simp only [shut, Bool.false_eq_true, if_false] at spares
    split at closed
    · rename_i owned
      split at closed
      · cases closed
        exact stays
      · rename_i driver driverClosed
        cases closed
        cases closes : calls.closes with
        | true =>
            exact part.closesDriver owned (by simp [stage]) unneeded
              (by simpa [owned, closes] using spares) driverClosed
        | false =>
            have owns : backend.owns = 1 := by
              simp [Backend.owns, Backend.ownsDriver, owned, stage]
            have isOpen := part.sane.opened.mpr (by have := part.owns; omega)
            simp [Driver.closeDriver, isOpen, closes] at driverClosed
    · rename_i isUnowned
      cases closed
      have sound := part.sound
      refine .moves part.sane (sound.moveTo ⟨registrations, edge⟩ ?_ ?_ ?_ ?_) (by simp [stage])
        (by simp)
      all_goals simp [Backend.NeedsDriver]

theorem advances (part : Part lifecycle owns backend) {event : BackendEvent}
    (spares : lifecycle.advanceSpares owns calls backend event = true)
    (advanced : advance lifecycle backend calls event = some (next, moved)) :
    Advances owns lifecycle next backend moved := by
  have sound := part.sound
  cases event with
  | construct ptr size => exact part.construct spares advanced
  | register registration =>
      simp only [advance] at advanced
      split at advanced
      · rename_i allowed
        exact part.ensureDirectRegistration allowed.1 (Option.some.inj advanced)
      · cases advanced
  | registerEdge ptr size =>
      simp only [advance] at advanced
      split at advanced
      · rename_i allowed
        exact part.getDirectEdgeStaging allowed.1 (Option.some.inj advanced)
      · cases advanced
  | openFile =>
      simp only [advance] at advanced
      split at advanced
      · rename_i stage
        cases advanced
        exact (Lifecycle.effect_openFile part.sane
          (part.owner (by simp [Backend.NeedsDriver, stage]))).advances sound (by simp) (by simp)
            (by simp)
      · cases advanced
  | close =>
      simp only [advance] at advanced
      split at advanced
      · rename_i stage
        cases advanced
        have supported := sound.supported (by simp [Backend.NeedsDriver, stage])
        refine .moves part.sane ?_ (by simp [stage]) (by simp)
        exact
          { members := sound.members
            idle := fun _ notClosing => absurd rfl notClosing
            supported := fun _ => supported
            owner := fun owned => ⟨(sound.owner owned).1, by simp⟩
            bare := sound.bare
            noMain := by simp
            noStaging := by simp }
      split at advanced
      · rename_i stage
        exact part.close stage spares (Option.some.inj advanced)
      · cases advanced
  | collect member =>
      simp only [advance] at advanced
      split at advanced
      · rename_i gone
        obtain ⟨allocator, found, result⟩ := Option.map_eq_some_iff.mp advanced
        rcases closed : lifecycle.closeAllocator calls allocator with ⟨after, left, done⟩
        simp only [closed] at result
        cases result
        simp only [Lifecycle.advanceSpares, found, Option.all_some] at spares
        refine (part.closes found (fun main => ?_) spares closed).2
        rcases gone with failed | spare
        · simp [Backend.NeedsDriver, failed]
        · rw [spare] at main
          cases main
      · cases advanced

end Part

end LMCacheHcu.HyFile
