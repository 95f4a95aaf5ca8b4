import LMCacheHcu.Foundation.Runs
import Mathlib.Tactic

/-! # Monitors

Threads share data under one lock and one condition variable. A thread that wants
to enter takes the lock, and sleeps without it while the data do not admit the
thread. When its section ends or raises, it takes the lock again, gives back what
it took, and may notify all sleepers. The data fit the sections that are held in
every reachable world, and no thread sleeps that the data admit.
-/

open LMCacheHcu

/-- What the operations of a monitor do to the shared data. A call that is not
accepted raises before it asks for the lock. -/
structure Monitor (Shared Mode : Type*) where
  accepts : Mode → Bool
  admits : Shared → Mode → Bool
  enter : Shared → Mode → Shared
  leave : Shared → Mode → Shared
  notifies : Shared → Mode → Bool

namespace Monitor

/-- Where a thread is. It has the lock where it checks the condition, is admitted,
updates the data and notifies. -/
inductive Thread (Mode : Type*)
  | outside
  | entering (mode : Mode)
  | checking (mode : Mode)
  | admitted (mode : Mode)
  | asleep (mode : Mode)
  | inside (mode : Mode)
  | leaving (mode : Mode)
  | updating (mode : Mode)
  | notifying (mode : Mode)
deriving DecidableEq, Repr

namespace Thread

variable {Mode : Type*}

def mode? : Thread Mode → Option Mode
  | outside => none
  | entering mode | checking mode | admitted mode | asleep mode | inside mode | leaving mode
  | updating mode | notifying mode => some mode

def locks : Thread Mode → Bool
  | checking _ | admitted _ | updating _ | notifying _ => true
  | outside | entering _ | asleep _ | inside _ | leaving _ => false

/-- The section that the thread is in, from its entry to the update at its end. -/
def within : Thread Mode → Option Mode
  | inside mode | leaving mode | updating mode => some mode
  | outside | entering _ | checking _ | admitted _ | asleep _ | notifying _ => none

def held (thread : Thread Mode) : Multiset Mode := thread.within.elim 0 fun mode => {mode}

/-- A notified thread asks for the lock. -/
def awake : Thread Mode → Thread Mode
  | asleep mode => entering mode
  | thread => thread

theorem held_awake (thread : Thread Mode) : thread.awake.held = thread.held := by
  cases thread <;> rfl

theorem locks_awake (thread : Thread Mode) : thread.awake.locks = thread.locks := by
  cases thread <;> rfl

theorem mode?_awake (thread : Thread Mode) : thread.awake.mode? = thread.mode? := by
  cases thread <;> rfl

theorem awake_ne_asleep (thread : Thread Mode) (mode : Mode) : thread.awake ≠ asleep mode := by
  cases thread <;> exact nofun

theorem awake_eq_admitted {thread : Thread Mode} {mode : Mode}
    (admitted : thread.awake = .admitted mode) : thread = .admitted mode := by
  cases thread <;> simp_all [awake]

end Thread

structure World (Shared Mode : Type*) where
  shared : Shared
  threads : List (Thread Mode)
deriving DecidableEq, Repr

namespace World

variable {Shared Mode : Type*}

/-- Any number of threads, none of them in the monitor. -/
def start (shared : Shared) (count : ℕ) : World Shared Mode :=
  ⟨shared, List.replicate count .outside⟩

def move (world : World Shared Mode) (index : ℕ) (next : Thread Mode) : World Shared Mode :=
  { world with threads := world.threads.set index next }

/-- The sections that are held. -/
def held (world : World Shared Mode) : Multiset Mode := (world.threads.map Thread.held).sum

def unlocked (world : World Shared Mode) : Bool := world.threads.all fun thread => !thread.locks

end World

/-- A thread's next step. The end of a section is the same with and without an
exception. -/
inductive Event (Mode : Type*)
  | call (index : ℕ) (mode : Mode)
  | lock (index : ℕ)
  | check (index : ℕ)
  | enter (index : ℕ)
  | finish (index : ℕ) (raised : Bool)
  | update (index : ℕ)
  | notify (index : ℕ)
deriving DecidableEq, Repr

variable {Shared Mode : Type*} (monitor : Monitor Shared Mode)

def step (world : World Shared Mode) : Event Mode → Option (World Shared Mode)
  | .call index mode =>
      match world.threads[index]? with
      | some .outside =>
          some (if monitor.accepts mode then world.move index (.entering mode) else world)
      | _ => none
  | .lock index =>
      if world.unlocked then
        match world.threads[index]? with
        | some (.entering mode) => some (world.move index (.checking mode))
        | some (.leaving mode) => some (world.move index (.updating mode))
        | _ => none
      else none
  | .check index =>
      match world.threads[index]? with
      | some (.checking mode) =>
          some (world.move index (if monitor.admits world.shared mode then .admitted mode
            else .asleep mode))
      | _ => none
  | .enter index =>
      match world.threads[index]? with
      | some (.admitted mode) =>
          some ⟨monitor.enter world.shared mode, world.threads.set index (.inside mode)⟩
      | _ => none
  | .finish index _ =>
      match world.threads[index]? with
      | some (.inside mode) => some (world.move index (.leaving mode))
      | _ => none
  | .update index =>
      match world.threads[index]? with
      | some (.updating mode) =>
          some ⟨monitor.leave world.shared mode, world.threads.set index (.notifying mode)⟩
      | _ => none
  | .notify index =>
      match world.threads[index]? with
      | some (.notifying mode) =>
          let threads := world.threads.set index .outside
          some ⟨world.shared,
            if monitor.notifies world.shared mode then threads.map Thread.awake else threads⟩
      | _ => none

/-- The calls are of these modes. -/
def Calls (allowed : Mode → Prop) (_ : World Shared Mode) : Event Mode → Prop
  | .call _ mode => allowed mode
  | _ => True

instance (allowed : Mode → Prop) [DecidablePred allowed] (world : World Shared Mode)
    (event : Event Mode) : Decidable (Calls allowed world event) :=
  match event with
  | .call _ mode => inferInstanceAs (Decidable (allowed mode))
  | .lock _ | .check _ | .enter _ | .finish _ _ | .update _ | .notify _ => .isTrue trivial

/-! ### What a step does -/

/-- A thread goes on while the data stay as they are. -/
inductive Moved (world : World Shared Mode) (index : ℕ) :
    Event Mode → Thread Mode → Thread Mode → Prop
  | call {mode} (accepted : monitor.accepts mode = true) :
      Moved world index (.call index mode) .outside (.entering mode)
  | lockEntering {mode} (free : world.unlocked = true) :
      Moved world index (.lock index) (.entering mode) (.checking mode)
  | lockLeaving {mode} (free : world.unlocked = true) :
      Moved world index (.lock index) (.leaving mode) (.updating mode)
  | goIn {mode} (admits : monitor.admits world.shared mode = true) :
      Moved world index (.check index) (.checking mode) (.admitted mode)
  | sleep {mode} (refuses : monitor.admits world.shared mode = false) :
      Moved world index (.check index) (.checking mode) (.asleep mode)
  | finish {mode raised} :
      Moved world index (.finish index raised) (.inside mode) (.leaving mode)

variable {monitor} {world next : World Shared Mode} {event : Event Mode}

theorem step_cases (stepped : monitor.step world event = some next) :
    next = world ∨
      (∃ index thread after, world.threads[index]? = some thread ∧
        Moved monitor world index event thread after ∧ next = world.move index after) ∨
      (∃ index mode, world.threads[index]? = some (.admitted mode) ∧ event = .enter index ∧
        next = ⟨monitor.enter world.shared mode, world.threads.set index (.inside mode)⟩) ∨
      (∃ index mode, world.threads[index]? = some (.updating mode) ∧ event = .update index ∧
        next = ⟨monitor.leave world.shared mode, world.threads.set index (.notifying mode)⟩) ∨
      ∃ index mode, world.threads[index]? = some (.notifying mode) ∧ event = .notify index ∧
        next = ⟨world.shared,
          if monitor.notifies world.shared mode then
            (world.threads.set index .outside).map Thread.awake
          else world.threads.set index .outside⟩ := by
  cases event with
  | call index mode =>
      simp only [step] at stepped
      split at stepped
      · rename_i here
        cases stepped
        cases accepted : monitor.accepts mode with
        | false => exact .inl rfl
        | true => exact .inr (.inl ⟨index, _, _, here, .call accepted, rfl⟩)
      · cases stepped
  | lock index =>
      simp only [step] at stepped
      split at stepped
      · rename_i free
        split at stepped
        · rename_i here
          cases stepped
          exact .inr (.inl ⟨index, _, _, here, .lockEntering free, rfl⟩)
        · rename_i here
          cases stepped
          exact .inr (.inl ⟨index, _, _, here, .lockLeaving free, rfl⟩)
        · cases stepped
      · cases stepped
  | check index =>
      simp only [step] at stepped
      split at stepped
      · rename_i mode here
        cases stepped
        cases admits : monitor.admits world.shared mode with
        | false => exact .inr (.inl ⟨index, _, _, here, .sleep admits, rfl⟩)
        | true => exact .inr (.inl ⟨index, _, _, here, .goIn admits, rfl⟩)
      · cases stepped
  | enter index =>
      simp only [step] at stepped
      split at stepped
      · rename_i here
        cases stepped
        exact .inr (.inr (.inl ⟨index, _, here, rfl, rfl⟩))
      · cases stepped
  | finish index raised =>
      simp only [step] at stepped
      split at stepped
      · rename_i here
        cases stepped
        exact .inr (.inl ⟨index, _, _, here, .finish, rfl⟩)
      · cases stepped
  | update index =>
      simp only [step] at stepped
      split at stepped
      · rename_i here
        cases stepped
        exact .inr (.inr (.inr (.inl ⟨index, _, here, rfl, rfl⟩)))
      · cases stepped
  | notify index =>
      simp only [step] at stepped
      split at stepped
      · rename_i here
        cases stepped
        exact .inr (.inr (.inr (.inr ⟨index, _, here, rfl, rfl⟩)))
      · cases stepped

/-! ### The sections that are held -/

/-- Replacing one thread exchanges its section. -/
theorem held_set {threads : List (Thread Mode)} {index : ℕ} {thread : Thread Mode}
    (here : threads[index]? = some thread) (after : Thread Mode) :
    ((threads.set index after).map Thread.held).sum + thread.held =
      (threads.map Thread.held).sum + after.held := by
  induction threads generalizing index with
  | nil => cases here
  | cons first threads ih =>
      cases index with
      | zero =>
          obtain rfl := Option.some.inj here
          simp only [List.set_cons_zero, List.map_cons, List.sum_cons]
          rw [add_right_comm, add_comm after.held, add_right_comm, add_right_comm]
      | succ index =>
          simp only [List.set_cons_succ, List.map_cons, List.sum_cons, add_assoc, ih here]

theorem held_move {index : ℕ} {thread after : Thread Mode}
    (here : world.threads[index]? = some thread) (same : after.held = thread.held) :
    (world.move index after).held = world.held := by
  have moved := held_set here after
  rw [same] at moved
  exact add_right_cancel moved

theorem held_le {threads : List (Thread Mode)} {index : ℕ} {thread : Thread Mode}
    (here : threads[index]? = some thread) : thread.held ≤ (threads.map Thread.held).sum := by
  have removed := held_set here .outside
  exact Multiset.le_iff_exists_add.mpr ⟨_, ((add_comm ..).trans (removed.trans (add_zero _))).symm⟩

/-- The sections of two threads are held together. -/
theorem add_held_le {index index' : ℕ} {thread thread' : Thread Mode}
    (here : world.threads[index]? = some thread) (there : world.threads[index']? = some thread')
    (apart : index ≠ index') : thread.held + thread'.held ≤ world.held := by
  have removed := held_set here .outside
  have stays : (world.threads.set index .outside)[index']? = some thread' :=
    (List.getElem?_set_ne apart).trans there
  calc thread.held + thread'.held
      ≤ thread.held + ((world.threads.set index .outside).map Thread.held).sum :=
        add_le_add_right (held_le stays) _
    _ = world.held := (add_comm ..).trans (removed.trans (add_zero _))

theorem count_held [DecidableEq Mode] (world : World Shared Mode) (mode : Mode) :
    world.held.count mode = world.threads.countP fun thread => thread.within = some mode := by
  unfold World.held
  induction world.threads with
  | nil => rfl
  | cons thread threads ih =>
      rw [List.map_cons, List.sum_cons, Multiset.count_add, ih, List.countP_cons, add_comm]
      congr 1
      cases here : thread.within with
      | none => simp [Thread.held, here]
      | some other => simp [Thread.held, here, Multiset.count_singleton, eq_comm]

/-! ### What a run keeps -/

/-- The data fit the held sections: entries and ends of sections keep it so. -/
structure Keeps (monitor : Monitor Shared Mode) (allowed : Mode → Prop)
    (fits : Shared → Multiset Mode → Prop) : Prop where
  enter : ∀ shared held mode, fits shared held → allowed mode → monitor.accepts mode = true →
    monitor.admits shared mode = true → fits (monitor.enter shared mode) (mode ::ₘ held)
  leave : ∀ shared held mode, fits shared (mode ::ₘ held) → fits (monitor.leave shared mode) held

/-- An entry admits nobody who was not admitted before, and the end of a section
does so only when it notifies. -/
structure Wakes (monitor : Monitor Shared Mode) (allowed : Mode → Prop)
    (fits : Shared → Multiset Mode → Prop) : Prop where
  enter : ∀ shared held mode other, fits shared held → allowed mode → allowed other →
    monitor.admits shared mode = true → monitor.admits shared other = false →
      monitor.admits (monitor.enter shared mode) other = false
  leave : ∀ shared held mode other, fits shared (mode ::ₘ held) → allowed other →
    monitor.notifies (monitor.leave shared mode) mode = false →
      monitor.admits shared other = false →
        monitor.admits (monitor.leave shared mode) other = false

/-- At most one thread has the lock. -/
def Alone (threads : List (Thread Mode)) : Prop :=
  ∀ (index index' : ℕ) (thread thread' : Thread Mode), threads[index]? = some thread →
    threads[index']? = some thread' → thread.locks = true → thread'.locks = true → index = index'

/-- What holds in every reachable world. -/
structure Kept (monitor : Monitor Shared Mode) (allowed : Mode → Prop)
    (fits : Shared → Multiset Mode → Prop) (world : World Shared Mode) : Prop where
  fits : fits world.shared world.held
  allowed : ∀ thread ∈ world.threads, ∀ mode, thread.mode? = some mode →
    allowed mode ∧ monitor.accepts mode = true
  alone : Alone world.threads
  admitted : ∀ mode, .admitted mode ∈ world.threads → monitor.admits world.shared mode = true
  sleepers : ∀ mode, .asleep mode ∈ world.threads → monitor.admits world.shared mode = false ∨
    ∃ other, .notifying other ∈ world.threads ∧ monitor.notifies world.shared other = true

variable {allowed : Mode → Prop} {fits : Shared → Multiset Mode → Prop}

theorem kept_start {shared : Shared} (initial : fits shared 0) (count : ℕ) :
    Kept monitor allowed fits (World.start shared count) := by
  have outside : ∀ thread ∈ (World.start shared count : World Shared Mode).threads,
      thread = .outside := fun thread member => List.eq_of_mem_replicate member
  refine ⟨?_, ?_, ?_, ?_, ?_⟩
  · have none : (World.start shared count : World Shared Mode).held = 0 := by
      rw [World.held, World.start, List.map_replicate, List.sum_replicate]
      exact nsmul_zero count
    rwa [none]
  · intro thread member mode hasMode
    rw [outside thread member] at hasMode
    cases hasMode
  · intro index index' thread thread' here _ locks _
    rw [outside thread (List.mem_of_getElem? here)] at locks
    cases locks
  · intro mode member
    cases outside _ member
  · intro mode member
    cases outside _ member

/-- A thread behind a replaced one is that one or another. -/
theorem mem_move {index : ℕ} {after other : Thread Mode}
    (member : other ∈ (world.move index after).threads) : other = after ∨ other ∈ world.threads :=
  (List.mem_or_eq_of_mem_set member).symm

/-- The lock stays with at most one thread when it passes from a thread that had it,
or is taken while it is free. -/
theorem alone_set {threads : List (Thread Mode)} {index : ℕ} {thread after : Thread Mode}
    (here : threads[index]? = some thread) (alone : Alone threads)
    (taken : after.locks = true →
      thread.locks = true ∨ threads.all (fun thread => !thread.locks) = true) :
    Alone (threads.set index after) := by
  -- a thread elsewhere that has the lock is at the replaced one's place
  have other : ∀ place (found : Thread Mode), place ≠ index →
      (threads.set index after)[place]? = some found → found.locks = true →
        after.locks = true → False := by
    intro place found apart there locks takes
    rw [List.getElem?_set_ne apart.symm] at there
    rcases taken takes with had | free
    · exact apart (alone place index found thread there here locks had)
    · have unlocked := List.all_eq_true.mp free found (List.mem_of_getElem? there)
      simp [locks] at unlocked
  have self : ∀ found, (threads.set index after)[index]? = some found → found = after := by
    intro found there
    rw [List.getElem?_set_self (List.getElem?_eq_some_iff.mp here).1] at there
    exact (Option.some.inj there).symm
  intro first second left right there there' locks locks'
  by_cases one : first = index
  · by_cases two : second = index
    · rw [one, two]
    · subst one
      rw [self left there] at locks
      exact (other second right two there' locks' locks).elim
  · by_cases two : second = index
    · subst two
      rw [self right there'] at locks'
      exact (other first left one there locks locks').elim
    · rw [List.getElem?_set_ne (Ne.symm one)] at there
      rw [List.getElem?_set_ne (Ne.symm two)] at there'
      exact alone first second left right there there' locks locks'

theorem Kept.moved (kept : Kept monitor allowed fits world) {index : ℕ} {thread after : Thread Mode}
    (here : world.threads[index]? = some thread)
    (moved : Moved monitor world index event thread after) (met : Calls allowed world event) :
    Kept monitor allowed fits (world.move index after) := by
  have own := kept.allowed thread (List.mem_of_getElem? here)
  have section_ : after.held = thread.held := by cases moved <;> rfl
  have modes : ∀ mode, after.mode? = some mode → allowed mode ∧ monitor.accepts mode = true := by
    intro mode hasMode
    cases moved with
    | call accepted =>
        cases hasMode
        exact ⟨met, accepted⟩
    | _ => exact own mode hasMode
  refine ⟨?_, ?_, ?_, ?_, ?_⟩
  · rw [held_move here section_]
    exact kept.fits
  · intro other member mode hasMode
    rcases mem_move member with rfl | before
    · exact modes mode hasMode
    · exact kept.allowed other before mode hasMode
  · apply alone_set here kept.alone
    intro takes
    cases moved with
    | lockEntering free => exact .inr free
    | lockLeaving free => exact .inr free
    | goIn _ => exact .inl rfl
    | call _ | sleep _ | finish => cases takes
  · intro mode member
    rcases mem_move member with rfl | before
    · cases moved with
      | goIn admits => exact admits
    · exact kept.admitted mode before
  · intro mode member
    rcases mem_move member with rfl | before
    · cases moved with
      | sleep refuses => exact .inl refuses
    · rcases kept.sleepers mode before with refuses | ⟨other, there, notifies⟩
      · exact .inl refuses
      · refine .inr ⟨other, ?_, notifies⟩
        rcases Runs.eq_or_mem_set here after there with rfl | stays
        · cases moved
        · exact stays

/-- The thread that has the lock is the only one that notifies. -/
theorem Kept.not_notifying (kept : Kept monitor allowed fits world) {index : ℕ}
    {thread : Thread Mode} (here : world.threads[index]? = some thread)
    (locks : thread.locks = true) {other : Mode} (there : .notifying other ∈ world.threads) :
    thread = .notifying other := by
  obtain ⟨place, found⟩ := List.mem_iff_getElem?.mp there
  obtain rfl := kept.alone index place thread _ here found locks rfl
  exact Option.some.inj (here.symm.trans found)

/-- Nobody but the thread that has the lock is admitted. -/
theorem Kept.not_admitted (kept : Kept monitor allowed fits world) {index : ℕ}
    {thread after : Thread Mode} (here : world.threads[index]? = some thread)
    (locks : thread.locks = true) {mode : Mode}
    (member : .admitted mode ∈ world.threads.set index after) (differs : after ≠ .admitted mode) :
    False := by
  obtain ⟨place, there⟩ := List.mem_iff_getElem?.mp member
  by_cases same : place = index
  · subst same
    rw [List.getElem?_set_self (List.getElem?_eq_some_iff.mp here).1] at there
    exact differs (Option.some.inj there)
  · rw [List.getElem?_set_ne (Ne.symm same)] at there
    exact same (kept.alone place index _ thread there here rfl locks)

theorem Kept.allowed_set (kept : Kept monitor allowed fits world) {index : ℕ}
    {thread after : Thread Mode} (here : world.threads[index]? = some thread)
    (modes : ∀ mode, after.mode? = some mode → thread.mode? = some mode) :
    ∀ other ∈ world.threads.set index after, ∀ mode, other.mode? = some mode →
      allowed mode ∧ monitor.accepts mode = true := by
  intro other member mode hasMode
  rcases List.mem_or_eq_of_mem_set member with before | rfl
  · exact kept.allowed other before mode hasMode
  · exact kept.allowed thread (List.mem_of_getElem? here) mode (modes mode hasMode)

/-- The sleepers stay as they are when another thread is replaced. -/
theorem asleep_of_mem_set {threads : List (Thread Mode)} {index : ℕ} {after : Thread Mode}
    {mode : Mode} (member : .asleep mode ∈ threads.set index after)
    (differs : after ≠ .asleep mode) : .asleep mode ∈ threads :=
  (List.mem_or_eq_of_mem_set member).resolve_right differs.symm

theorem Kept.entered (kept : Kept monitor allowed fits world)
    (keeps : monitor.Keeps allowed fits) (wakes : monitor.Wakes allowed fits) {index : ℕ}
    {mode : Mode} (here : world.threads[index]? = some (.admitted mode)) :
    Kept monitor allowed fits
      ⟨monitor.enter world.shared mode, world.threads.set index (.inside mode)⟩ := by
  have own := List.mem_of_getElem? here
  obtain ⟨allow, accepted⟩ := kept.allowed _ own mode rfl
  have admits := kept.admitted mode own
  refine ⟨?_, ?_, ?_, ?_, ?_⟩
  · have held : ((world.threads.set index (.inside mode)).map Thread.held).sum =
        mode ::ₘ world.held := by
      have exchanged := held_set here (.inside mode)
      rw [← Multiset.singleton_add, add_comm]
      exact (add_zero _).symm.trans exchanged
    rw [World.held, held]
    exact keeps.enter _ _ mode kept.fits allow accepted admits
  · exact kept.allowed_set here fun _ same => same
  · exact alone_set here kept.alone nofun
  · exact fun other member => (kept.not_admitted here rfl member nofun).elim
  · intro other member
    have before := asleep_of_mem_set member nofun
    have allowOther := (kept.allowed _ before other rfl).1
    rcases kept.sleepers other before with refuses | ⟨notifier, there, _⟩
    · exact .inl (wakes.enter _ _ mode other kept.fits allow allowOther admits refuses)
    · cases kept.not_notifying here rfl there

theorem Kept.updated (kept : Kept monitor allowed fits world)
    (keeps : monitor.Keeps allowed fits) (wakes : monitor.Wakes allowed fits) {index : ℕ}
    {mode : Mode} (here : world.threads[index]? = some (.updating mode)) :
    Kept monitor allowed fits
      ⟨monitor.leave world.shared mode, world.threads.set index (.notifying mode)⟩ := by
  have held : world.held =
      mode ::ₘ ((world.threads.set index (.notifying mode)).map Thread.held).sum := by
    have exchanged := held_set here (.notifying mode)
    rw [World.held, ← Multiset.singleton_add, add_comm]
    exact (add_zero _).symm.trans exchanged.symm
  have fitted := kept.fits
  rw [held] at fitted
  refine ⟨keeps.leave _ _ mode fitted, ?_, ?_, ?_, ?_⟩
  · exact kept.allowed_set here fun _ same => same
  · exact alone_set here kept.alone fun _ => .inl rfl
  · exact fun other member => (kept.not_admitted here rfl member nofun).elim
  · intro other member
    have before := asleep_of_mem_set member nofun
    have allowOther := (kept.allowed _ before other rfl).1
    rcases kept.sleepers other before with refuses | ⟨notifier, there, _⟩
    · cases notified : monitor.notifies (monitor.leave world.shared mode) mode with
      | false => exact .inl (wakes.leave _ _ mode other fitted allowOther notified refuses)
      | true => exact .inr ⟨mode, Runs.mem_set_self here _, notified⟩
    · cases kept.not_notifying here rfl there

theorem Kept.notified (kept : Kept monitor allowed fits world) {index : ℕ} {mode : Mode}
    (here : world.threads[index]? = some (.notifying mode)) :
    Kept monitor allowed fits ⟨world.shared,
      if monitor.notifies world.shared mode then
        (world.threads.set index .outside).map Thread.awake
      else world.threads.set index .outside⟩ := by
  have held : ((world.threads.set index .outside).map Thread.held).sum = world.held :=
    held_move here rfl
  have alone : Alone (world.threads.set index .outside) := alone_set here kept.alone nofun
  have modes : ∀ other ∈ world.threads.set index .outside, ∀ mode, other.mode? = some mode →
      allowed mode ∧ monitor.accepts mode = true := kept.allowed_set here nofun
  have fitted := kept.fits
  rw [← held] at fitted
  cases notifies : monitor.notifies world.shared mode with
  | false =>
      refine ⟨fitted, modes, alone, ?_, ?_⟩
      · exact fun other member => (kept.not_admitted here rfl member nofun).elim
      · intro other member
        rcases kept.sleepers other (asleep_of_mem_set member nofun) with
          refuses | ⟨notifier, there, would⟩
        · exact .inl refuses
        · cases kept.not_notifying here rfl there
          rw [notifies] at would
          cases would
  | true =>
      have places (place : ℕ) (thread : Thread Mode)
          (there : ((world.threads.set index .outside).map Thread.awake)[place]? = some thread) :
          ∃ before, (world.threads.set index .outside)[place]? = some before ∧
            before.awake = thread := by
        rw [List.getElem?_map] at there
        exact Option.map_eq_some_iff.mp there
      refine ⟨?_, ?_, ?_, ?_, ?_⟩
      · have same : (((world.threads.set index .outside).map Thread.awake).map
            Thread.held).sum = ((world.threads.set index .outside).map Thread.held).sum := by
          rw [List.map_map]
          exact congrArg List.sum (List.map_congr_left fun thread _ => Thread.held_awake thread)
        rw [← same] at fitted
        exact fitted
      · intro other member mode hasMode
        obtain ⟨before, there, rfl⟩ := List.mem_map.mp member
        rw [Thread.mode?_awake] at hasMode
        exact modes before there mode hasMode
      · intro first second left right there there' locks locks'
        obtain ⟨before, found, rfl⟩ := places first left there
        obtain ⟨before', found', rfl⟩ := places second right there'
        rw [Thread.locks_awake] at locks locks'
        exact alone first second before before' found found' locks locks'
      · intro other member
        obtain ⟨before, there, awake⟩ := List.mem_map.mp member
        rw [Thread.awake_eq_admitted awake] at there
        exact (kept.not_admitted here rfl there nofun).elim
      · intro other member
        obtain ⟨before, _, awake⟩ := List.mem_map.mp member
        exact (Thread.awake_ne_asleep before other awake).elim

/-- **The step.** -/
theorem Kept.step (kept : Kept monitor allowed fits world) (keeps : monitor.Keeps allowed fits)
    (wakes : monitor.Wakes allowed fits) (met : Calls allowed world event)
    (stepped : monitor.step world event = some next) : Kept monitor allowed fits next := by
  rcases step_cases stepped with rfl | ⟨index, thread, after, here, moved, rfl⟩ |
    ⟨index, mode, here, _, rfl⟩ | ⟨index, mode, here, _, rfl⟩ | ⟨index, mode, here, _, rfl⟩
  · exact kept
  · exact kept.moved here moved met
  · exact kept.entered keeps wakes here
  · exact kept.updated keeps wakes here
  · exact kept.notified here

/-- **Runs.** -/
theorem kept_of_reaches {shared : Shared} {count : ℕ} (keeps : monitor.Keeps allowed fits)
    (wakes : monitor.Wakes allowed fits) (initial : fits shared 0)
    (reached : Runs.Reaches monitor.step (Calls allowed) (World.start shared count) world) :
    Kept monitor allowed fits world :=
  reached.invariant (kept_start initial count) fun _ _ _ kept met stepped =>
    kept.step keeps wakes met stepped

/-- **No lost wake-up.** When an exit has made a sleeper admissible, it notifies the
sleeper before it gives the lock back. -/
theorem Kept.wakes_sleeper (kept : Kept monitor allowed fits world) {index sleeper : ℕ}
    {mode other : Mode} (here : world.threads[index]? = some (.notifying mode))
    (sleeps : world.threads[sleeper]? = some (.asleep other))
    (admits : monitor.admits world.shared other = true)
    (stepped : monitor.step world (.notify index) = some next) :
    next.threads[sleeper]? = some (.entering other) := by
  have notifies : monitor.notifies world.shared mode = true := by
    rcases kept.sleepers other (List.mem_of_getElem? sleeps) with refuses | ⟨notifier, there, would⟩
    · rw [admits] at refuses
      cases refuses
    · cases kept.not_notifying here rfl there
      exact would
  have apart : index ≠ sleeper := by
    rintro rfl
    cases here.symm.trans sleeps
  simp only [Monitor.step, here, notifies, if_true, Option.some.injEq] at stepped
  rw [← stepped, List.getElem?_map, List.getElem?_set_ne apart, sleeps]
  rfl

/-- A thread that the data admit gets in while the lock is free. -/
theorem reaches_inside {index : ℕ} {mode : Mode} (outside : world.threads[index]? = some .outside)
    (free : world.unlocked = true) (allow : allowed mode) (accepted : monitor.accepts mode = true)
    (admits : monitor.admits world.shared mode = true) :
    Runs.Reaches monitor.step (Calls allowed) world
      ⟨monitor.enter world.shared mode, world.threads.set index (.inside mode)⟩ := by
  have inside := (List.getElem?_eq_some_iff.mp outside).1
  have here (thread : Thread Mode) : (world.threads.set index thread)[index]? = some thread :=
    List.getElem?_set_self inside
  have called : monitor.step world (.call index mode) = some (world.move index (.entering mode)) := by
    simp only [Monitor.step, outside, accepted, if_true]
  have unlocked : (world.move index (.entering mode)).unlocked = true := by
    refine List.all_eq_true.mpr fun thread member => ?_
    rcases mem_move member with rfl | before
    · rfl
    · exact List.all_eq_true.mp free thread before
  have locked : monitor.step (world.move index (.entering mode)) (.lock index) =
      some (world.move index (.checking mode)) := by
    simp only [Monitor.step, unlocked, if_true]
    simp only [World.move, here, List.set_set]
  have checked : monitor.step (world.move index (.checking mode)) (.check index) =
      some (world.move index (.admitted mode)) := by
    simp only [Monitor.step, World.move, here, admits, if_true, List.set_set]
  have entered : monitor.step (world.move index (.admitted mode)) (.enter index) =
      some ⟨monitor.enter world.shared mode, world.threads.set index (.inside mode)⟩ := by
    simp only [Monitor.step, World.move, here, List.set_set]
  have calls : Calls allowed world (.call index mode) := allow
  have first := Runs.Reaches.tail .refl calls called
  have second := first.tail (by trivial) locked
  have third := second.tail (by trivial) checked
  exact third.tail (by trivial) entered

end Monitor
