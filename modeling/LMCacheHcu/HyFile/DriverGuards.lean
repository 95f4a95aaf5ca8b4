import LMCacheHcu.Foundation.Monitor

/-! # The guards of the driver

Transfers through the driver are made inside `_read_driver_guard` or
`_write_driver_guard`, which share a reader count, a writer flag and a condition
variable. A write section excludes every other section, and a guard that is left
wakes whoever may enter.
-/

namespace LMCacheHcu.HyFile

open Monitor

/-- The two guards. -/
inductive DriverMode
  | read
  | write
deriving DecidableEq, Repr

/-- `_driver_readers` and `_driver_writer`. -/
structure DriverFlags where
  readers : ℤ
  writer : Bool
deriving DecidableEq, Repr

/-- `_read_driver_guard` and `_write_driver_guard`, around `_driver_condition`. -/
def driverGuards : Monitor DriverFlags DriverMode where
  accepts := fun _ => true
  admits := fun flags mode =>
    match mode with
    | .read => !flags.writer
    | .write => !(flags.writer || flags.readers ≠ 0)
  enter := fun flags mode =>
    match mode with
    | .read => { flags with readers := flags.readers + 1 }
    | .write => { flags with writer := true }
  leave := fun flags mode =>
    match mode with
    | .read => { flags with readers := flags.readers - 1 }
    | .write => { flags with writer := false }
  notifies := fun flags mode =>
    match mode with
    | .read => decide (flags.readers = 0)
    | .write => true

/-- The flags describe the sections that are held, and a writer is alone. -/
structure DriverFlags.Describes (flags : DriverFlags) (held : Multiset DriverMode) : Prop where
  readers : flags.readers = held.count .read
  writer : flags.writer = decide (DriverMode.write ∈ held)
  exclusive : DriverMode.write ∈ held → held = {.write}

theorem describes_nil : DriverFlags.Describes ⟨0, false⟩ 0 where
  readers := rfl
  writer := rfl
  exclusive := fun member => absurd member (Multiset.notMem_zero _)

theorem driverGuards_keeps : driverGuards.Keeps (fun _ => True) DriverFlags.Describes where
  enter := by
    intro flags held mode describes _ _ admits
    cases mode with
    | read =>
        have none : DriverMode.write ∉ held := by
          intro member
          simp [driverGuards, describes.writer, member] at admits
        refine ⟨?_, ?_, ?_⟩
        · simp [driverGuards, describes.readers]
        · simp [driverGuards, describes.writer]
        · simp [none]
    | write =>
        obtain ⟨none, idle⟩ : flags.writer = false ∧ flags.readers = 0 := by
          simpa [driverGuards] using admits
        have empty : held = 0 := by
          refine Multiset.eq_zero_of_forall_notMem fun mode member => ?_
          cases mode with
          | read =>
              have some := Multiset.count_pos.mpr member
              have counted := describes.readers
              omega
          | write =>
              rw [describes.writer] at none
              simp [member] at none
        subst empty
        exact ⟨by simpa [driverGuards] using describes.readers, by simp [driverGuards],
          fun _ => rfl⟩
  leave := by
    intro flags held mode describes
    cases mode with
    | read =>
        have none : DriverMode.write ∉ held := by
          intro member
          have alone := describes.exclusive (Multiset.mem_cons_of_mem member)
          have reads : DriverMode.read ∈ ({.write} : Multiset DriverMode) :=
            alone ▸ Multiset.mem_cons_self ..
          cases Multiset.mem_singleton.mp reads
        refine ⟨?_, ?_, fun member => absurd member none⟩
        · simp [driverGuards, describes.readers]
        · simp [driverGuards, describes.writer]
    | write =>
        have alone := describes.exclusive (Multiset.mem_cons_self ..)
        have empty : held = 0 := by
          rw [← Multiset.cons_zero] at alone
          exact (Multiset.cons_inj_right _).mp alone
        subst empty
        exact ⟨by simpa [driverGuards] using describes.readers, by simp [driverGuards],
          fun member => absurd member (Multiset.notMem_zero _)⟩

theorem driverGuards_wakes : driverGuards.Wakes (fun _ => True) DriverFlags.Describes where
  enter := by
    intro flags held mode other describes _ _ admits refuses
    have counted := describes.readers
    cases mode with
    | read =>
        cases other with
        | read => exact refuses
        | write =>
            simp only [driverGuards, Bool.not_eq_false', Bool.or_eq_true, decide_eq_true_eq]
              at refuses ⊢
            exact .inr (by omega)
    | write => cases other <;> rfl
  leave := by
    intro flags held mode other describes _ silent refuses
    cases mode with
    | read =>
        cases other with
        | read => exact refuses
        | write => simpa [driverGuards, or_comm] using fun _ => of_decide_eq_false silent
    | write => cases silent

/-! ### What the guards guarantee -/

abbrev DriverWorld := World DriverFlags DriverMode

/-- No thread is in a section beside a writer, the count is that of the threads in
read sections, and whoever an exit has let in is notified by it. -/
structure DriverWorld.Guarded (world : DriverWorld) : Prop where
  exclusive : ∀ (index other : ℕ) (thread thread' : Thread DriverMode), index ≠ other →
    world.threads[index]? = some thread → world.threads[other]? = some thread' →
      thread.within = some .write → thread'.within = none
  readers : world.shared.readers =
    world.threads.countP fun thread => thread.within = some .read
  notified : ∀ (index sleeper : ℕ) (mode other : DriverMode) (next : DriverWorld),
    world.threads[index]? = some (.notifying mode) →
      world.threads[sleeper]? = some (.asleep other) →
      driverGuards.admits world.shared other = true →
      driverGuards.step world (.notify index) = some next →
        next.threads[sleeper]? = some (.entering other)
  sleeping : (∀ mode, .notifying mode ∉ world.threads) → ∀ mode, .asleep mode ∈ world.threads →
    driverGuards.admits world.shared mode = false

/-- The class starts without readers and without a writer. -/
def DriverWorld.start (count : ℕ) : DriverWorld := World.start ⟨0, false⟩ count

/-- **The driver guards.** Every interleaving of any number of threads keeps the
guarantees, whether or not the bodies raise. -/
theorem guarded_of_reaches {count : ℕ} {world : DriverWorld}
    (reached : Runs.Reaches driverGuards.step (Monitor.Calls fun _ => True)
      (DriverWorld.start count) world) : world.Guarded := by
  have kept := kept_of_reaches driverGuards_keeps driverGuards_wakes describes_nil reached
  refine ⟨?_, ?_, ?_, ?_⟩
  · intro index other thread thread' apart here there writes
    have both := add_held_le here there apart
    have writer : thread.held = {.write} := by rw [Thread.held, writes, Option.elim_some]
    rw [writer] at both
    have alone : world.held = {.write} := kept.fits.exclusive <|
      Multiset.mem_of_le both (Multiset.mem_add.mpr (.inl (Multiset.mem_singleton_self _)))
    rw [alone] at both
    have nothing : thread'.held = 0 := by
      have bound := Multiset.card_le_card both
      rw [Multiset.card_add, Multiset.card_singleton] at bound
      exact Multiset.card_eq_zero.mp (by omega)
    cases inside : thread'.within with
    | none => rfl
    | some mode =>
        rw [Thread.held, inside, Option.elim_some] at nothing
        exact absurd nothing (Multiset.singleton_ne_zero mode)
  · rw [kept.fits.readers, count_held]
  · intro index sleeper mode other next here sleeps admits stepped
    exact kept.wakes_sleeper here sleeps admits stepped
  · intro silent mode sleeps
    rcases kept.sleepers mode sleeps with refuses | ⟨other, there, _⟩
    · exact refuses
    · exact absurd there (silent other)

/-- A reader comes while another thread writes, sleeps, and is let in by the
writer's exit after an exception. -/
def readerBehindWriter : List (Monitor.Event DriverMode) :=
  [.call 0 .write, .lock 0, .check 0, .enter 0, .call 1 .read, .lock 1, .check 1, .finish 0 true,
    .lock 0, .update 0]

def exitingWriter : DriverWorld := ⟨⟨0, false⟩, [.notifying .write, .asleep .read]⟩

theorem guarded_exitingWriter : exitingWriter.Guarded :=
  guarded_of_reaches (Runs.reaches_of_execute (Runs.Reaches.refl)
    (by decide : Runs.execute driverGuards.step (Monitor.Calls fun _ => True) readerBehindWriter
      (DriverWorld.start 2) = some exitingWriter))

end LMCacheHcu.HyFile
