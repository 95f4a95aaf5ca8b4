import LMCacheHcu.Foundation.Monitor

/-! # The weighted semaphore

`WeightedSemaphore` limits the chunks of concurrent retrievals. Up to half of the
budget is shared by small acquisitions; a larger one waits until nothing is taken,
and takes everything. The counter alone does not show whether a large acquisition
is active: it is zero then, which an acquisition of no chunks does not mind, and
with a budget of one chunk zero is also the full count.
-/

namespace LMCacheHcu.Prefetch

open Monitor

/-- `_concurrent_budget_cap`. -/
def concurrentBudgetCap (chunkBudget : ℕ) : ℕ := chunkBudget / 2

/-- `acquire` and `release` around `_cond`, on `_current_chunks`. -/
def weightedSemaphore (chunkBudget : ℕ) : Monitor ℤ ℕ where
  accepts := fun n => decide (n ≤ chunkBudget)
  admits := fun currentChunks n =>
    if n ≤ concurrentBudgetCap chunkBudget then decide ((n : ℤ) ≤ currentChunks)
    else decide (currentChunks = concurrentBudgetCap chunkBudget)
  enter := fun currentChunks n =>
    if n ≤ concurrentBudgetCap chunkBudget then currentChunks - n else 0
  leave := fun currentChunks n =>
    if n ≤ concurrentBudgetCap chunkBudget then currentChunks + n
    else concurrentBudgetCap chunkBudget
  notifies := fun _ _ => true

abbrev SemaphoreWorld := World ℤ ℕ

def SemaphoreWorld.start (chunkBudget count : ℕ) : SemaphoreWorld :=
  World.start (concurrentBudgetCap chunkBudget : ℤ) count

/-- The small holders stay below the cap, a large holder is alone, and the counter
is in range and full again when nobody holds chunks. -/
structure SemaphoreWorld.Bounded (chunkBudget : ℕ) (world : SemaphoreWorld) : Prop where
  small : (world.held.filter fun n => n ≤ concurrentBudgetCap chunkBudget).sum ≤
    concurrentBudgetCap chunkBudget
  oversized : ∀ n ∈ world.held, concurrentBudgetCap chunkBudget < n → world.held = {n}
  nonneg : 0 ≤ world.shared
  capped : world.shared ≤ concurrentBudgetCap chunkBudget
  released : world.held = 0 → world.shared = concurrentBudgetCap chunkBudget

/-- What the counter says about the holders. -/
structure Counts (chunkBudget : ℕ) (allowed : Set ℕ) (currentChunks : ℤ)
    (held : Multiset ℕ) : Prop where
  allowed : ∀ n ∈ held, n ∈ allowed
  accepted : ∀ n ∈ held, n ≤ chunkBudget
  counter : (∃ n, concurrentBudgetCap chunkBudget < n ∧ held = {n} ∧ currentChunks = 0) ∨
    (∀ n ∈ held, n ≤ concurrentBudgetCap chunkBudget) ∧ 0 ≤ currentChunks ∧
      currentChunks + held.sum = concurrentBudgetCap chunkBudget

/-- No acquisition is large, or the counter shows every holder. -/
def Telling (chunkBudget : ℕ) (allowed : Set ℕ) : Prop :=
  (∀ n ∈ allowed, n ≤ chunkBudget → n ≤ concurrentBudgetCap chunkBudget) ∨
    2 ≤ chunkBudget ∧ 0 ∉ allowed

section Run

variable {chunkBudget : ℕ} {allowed : Set ℕ}

/-- With a large acquisition about, the counter shows every holder. -/
theorem Telling.of_oversized (telling : Telling chunkBudget allowed) {n : ℕ} (allow : n ∈ allowed)
    (accepted : n ≤ chunkBudget) (large : concurrentBudgetCap chunkBudget < n) :
    0 < concurrentBudgetCap chunkBudget ∧ 0 ∉ allowed := by
  rcases telling with small | ⟨budget, positive⟩
  · exact absurd (small n allow accepted) (not_le.mpr large)
  · exact ⟨Nat.div_pos budget Nat.zero_lt_two, positive⟩

theorem weightedSemaphore_keeps (telling : Telling chunkBudget allowed) :
    (weightedSemaphore chunkBudget).Keeps (· ∈ allowed) (Counts chunkBudget allowed) where
  enter := by
    intro currentChunks held n counts allow accepted admits
    have accepted : n ≤ chunkBudget := of_decide_eq_true accepted
    have members : ∀ m ∈ n ::ₘ held, m ∈ allowed ∧ m ≤ chunkBudget := by
      intro m member
      rcases Multiset.mem_cons.mp member with rfl | before
      · exact ⟨allow, accepted⟩
      · exact ⟨counts.allowed m before, counts.accepted m before⟩
    refine ⟨fun m member => (members m member).1, fun m member => (members m member).2, ?_⟩
    by_cases small : n ≤ concurrentBudgetCap chunkBudget
    · simp only [weightedSemaphore, if_pos small, decide_eq_true_eq] at admits ⊢
      rcases counts.counter with ⟨m, large, rfl, rfl⟩ | ⟨smalls, _, total⟩
      · -- only an acquisition of no chunks is admitted beside a large one
        have held := Multiset.mem_singleton_self m
        have positive := (telling.of_oversized (counts.allowed m held) (counts.accepted m held)
          large).2
        obtain rfl : n = 0 := by omega
        exact absurd allow positive
      · refine .inr ⟨fun m member => ?_, by omega, ?_⟩
        · rcases Multiset.mem_cons.mp member with rfl | before
          · exact small
          · exact smalls m before
        · rw [Multiset.sum_cons, Nat.cast_add]
          omega
    · have large := not_le.mp small
      obtain ⟨room, positive⟩ := telling.of_oversized allow accepted large
      simp only [weightedSemaphore, if_neg small, decide_eq_true_eq] at admits ⊢
      have empty : held = 0 := by
        rcases counts.counter with ⟨m, _, _, none⟩ | ⟨_, _, total⟩
        · omega
        · refine Multiset.eq_zero_of_forall_notMem fun m member => ?_
          have part := Multiset.single_le_sum (fun _ _ => Nat.zero_le _) m member
          obtain rfl : m = 0 := by omega
          exact positive (counts.allowed 0 member)
      subst empty
      exact .inl ⟨n, large, rfl, trivial⟩
  leave := by
    intro currentChunks held n counts
    refine ⟨fun m member => counts.allowed m (Multiset.mem_cons_of_mem member),
      fun m member => counts.accepted m (Multiset.mem_cons_of_mem member), .inr ?_⟩
    rcases counts.counter with ⟨m, large, alone, rfl⟩ | ⟨smalls, nonneg, total⟩
    · obtain ⟨rfl, rfl⟩ : n = m ∧ held = 0 := by
        have same : n = m := Multiset.mem_singleton.mp (alone ▸ Multiset.mem_cons_self n held)
        subst same
        exact ⟨rfl, (Multiset.cons_inj_right n).mp alone⟩
      simp only [weightedSemaphore, if_neg (not_le.mpr large)]
      simp
    · have small := smalls n (Multiset.mem_cons_self n held)
      rw [Multiset.sum_cons, Nat.cast_add] at total
      simp only [weightedSemaphore, if_pos small]
      exact ⟨fun m member => smalls m (Multiset.mem_cons_of_mem member), by omega, by omega⟩

theorem weightedSemaphore_wakes :
    (weightedSemaphore chunkBudget).Wakes (· ∈ allowed) (Counts chunkBudget allowed) where
  enter := by
    intro currentChunks held n other counts _ _ admits refuses
    have capped : currentChunks ≤ concurrentBudgetCap chunkBudget := by
      rcases counts.counter with ⟨_, _, _, none⟩ | ⟨_, _, total⟩
      · omega
      · omega
    simp only [weightedSemaphore] at admits refuses ⊢
    split_ifs at admits refuses ⊢ <;> simp only [decide_eq_true_eq, decide_eq_false_iff_not]
      at admits refuses ⊢ <;> omega
  leave := fun _ _ _ _ _ _ silent => nomatch silent

theorem Counts.bounded {world : SemaphoreWorld}
    (counts : Counts chunkBudget allowed world.shared world.held) : world.Bounded chunkBudget := by
  rcases counts.counter with ⟨n, large, alone, none⟩ | ⟨smalls, nonneg, total⟩
  · refine ⟨?_, ?_, none.ge, by omega, fun empty => ?_⟩
    · rw [alone, Multiset.filter_singleton, if_neg (not_le.mpr large)]
      exact Nat.zero_le _
    · intro m member _
      rw [alone] at member
      rw [alone, Multiset.mem_singleton.mp member]
    · rw [alone] at empty
      exact absurd empty (Multiset.singleton_ne_zero n)
  · refine ⟨?_, ?_, nonneg, by omega, fun empty => ?_⟩
    · rw [Multiset.filter_eq_self.mpr smalls]
      omega
    · exact fun m member large => absurd (smalls m member) (not_le.mpr large)
    · rw [empty, Multiset.sum_zero] at total
      simpa using total

/-- Nothing waits when nothing is held, once the last exit has notified. -/
theorem not_asleep_of_released (telling : Telling chunkBudget allowed) {count : ℕ}
    {world : SemaphoreWorld}
    (reached : Runs.Reaches (weightedSemaphore chunkBudget).step (Calls (· ∈ allowed))
      (SemaphoreWorld.start chunkBudget count) world)
    (released : world.held = 0) (silent : ∀ n, .notifying n ∉ world.threads) (n : ℕ) :
    .asleep n ∉ world.threads := by
  intro sleeps
  have initial : Counts chunkBudget allowed (concurrentBudgetCap chunkBudget : ℤ) 0 :=
    ⟨by simp, by simp, .inr ⟨by simp, by simp, by simp⟩⟩
  have kept := kept_of_reaches (weightedSemaphore_keeps telling) weightedSemaphore_wakes initial
    reached
  have full := kept.fits.bounded.released released
  rcases kept.sleepers n sleeps with refuses | ⟨other, there, _⟩
  · simp only [weightedSemaphore, full] at refuses
    split_ifs at refuses with small
    · exact of_decide_eq_false refuses (Int.ofNat_le.mpr small)
    · exact of_decide_eq_false refuses trivial
  · exact silent other there

/-- Two acquisitions that the counter admits one after the other. -/
theorem reaches_both {n m : ℕ} (allow : n ∈ allowed) (allow' : m ∈ allowed)
    (accepted : n ≤ chunkBudget) (accepted' : m ≤ chunkBudget)
    (admits : (weightedSemaphore chunkBudget).admits (concurrentBudgetCap chunkBudget) n = true)
    (admits' : (weightedSemaphore chunkBudget).admits ((weightedSemaphore chunkBudget).enter
      (concurrentBudgetCap chunkBudget) n) m = true) :
    ∃ world, Runs.Reaches (weightedSemaphore chunkBudget).step (Calls (· ∈ allowed))
      (SemaphoreWorld.start chunkBudget 2) world ∧ world.held = {n, m} := by
  let cap : ℤ := concurrentBudgetCap chunkBudget
  let taken := (weightedSemaphore chunkBudget).enter cap n
  let first : SemaphoreWorld := ⟨taken, [.inside n, .outside]⟩
  let last : SemaphoreWorld :=
    ⟨(weightedSemaphore chunkBudget).enter taken m, [.inside n, .inside m]⟩
  have one : Runs.Reaches (weightedSemaphore chunkBudget).step (Calls (· ∈ allowed))
      (SemaphoreWorld.start chunkBudget 2) first :=
    reaches_inside (show _[0]? = _ from rfl) rfl allow (decide_eq_true accepted) admits
  have two : Runs.Reaches (weightedSemaphore chunkBudget).step (Calls (· ∈ allowed)) first last :=
    reaches_inside (show _[1]? = _ from rfl) rfl allow' (decide_eq_true accepted') admits'
  exact ⟨last, one.trans two, rfl⟩

/-- **The exact condition.** The holders stay within their bounds in every
interleaving, for any number of tasks, if and only if no acquisition is large, or
the budget is at least two and none is of zero chunks. -/
theorem bounded_iff (chunkBudget : ℕ) (allowed : Set ℕ) :
    (∀ (count : ℕ) (world : SemaphoreWorld),
      Runs.Reaches (weightedSemaphore chunkBudget).step (Calls (· ∈ allowed))
        (SemaphoreWorld.start chunkBudget count) world → world.Bounded chunkBudget) ↔
      Telling chunkBudget allowed := by
  constructor
  · intro bounded
    by_contra hidden
    rw [Telling, not_or, not_and_or, not_not] at hidden
    obtain ⟨large, which⟩ := hidden
    push Not at large
    obtain ⟨n, allow, accepted, large⟩ := large
    have admits : (weightedSemaphore chunkBudget).admits (concurrentBudgetCap chunkBudget) n =
        true := by
      simp [weightedSemaphore, not_le.mpr large]
    -- a second acquisition that the counter does not tell from no holder
    obtain ⟨m, allow', accepted', admits'⟩ : ∃ m ∈ allowed, m ≤ chunkBudget ∧
        (weightedSemaphore chunkBudget).admits ((weightedSemaphore chunkBudget).enter
          (concurrentBudgetCap chunkBudget) n) m = true := by
      rcases which with tiny | zero
      · have cap : concurrentBudgetCap chunkBudget = 0 := Nat.div_eq_of_lt (not_le.mp tiny)
        rw [cap] at large
        exact ⟨n, allow, accepted, by simp [weightedSemaphore, cap, large.ne']⟩
      · exact ⟨0, zero, Nat.zero_le _, by simp [weightedSemaphore, not_le.mpr large]⟩
    obtain ⟨world, reached, held⟩ := reaches_both allow allow' accepted accepted' admits admits'
    have alone := (bounded 2 world reached).oversized n (by simp [held]) large
    rw [held] at alone
    simpa using congrArg Multiset.card alone
  · intro telling count world reached
    have initial : Counts chunkBudget allowed (concurrentBudgetCap chunkBudget : ℤ) 0 :=
      ⟨by simp, by simp, .inr ⟨by simp, by simp, by simp⟩⟩
    exact (kept_of_reaches (weightedSemaphore_keeps telling) weightedSemaphore_wakes initial
      reached).fits.bounded

/-- With a budget of one chunk, two tasks hold it at the same time. -/
theorem not_bounded_one :
    ¬ ∀ (count : ℕ) (world : SemaphoreWorld),
      Runs.Reaches (weightedSemaphore 1).step (Calls (· ∈ ({1} : Set ℕ))) (SemaphoreWorld.start 1 count)
        world → world.Bounded 1 := by
  intro bounded
  obtain ⟨world, reached, held⟩ := reaches_both (Set.mem_singleton 1) (Set.mem_singleton 1) le_rfl le_rfl
    (by decide) (by decide)
  have alone := (bounded 2 world reached).oversized 1 (by simp [held]) (by decide)
  rw [held] at alone
  exact absurd alone (by decide)

end Run

end LMCacheHcu.Prefetch
