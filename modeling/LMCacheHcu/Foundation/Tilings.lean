import LMCacheHcu.Foundation.Checked

/-! # Ranges that tile a range

Each item has a half-open range of integers. Items cover a range exactly when
every position of it lies in the range of one item and no item reaches outside;
this does not depend on their order. Items that begin where the one before them
ends cover the range from the first beginning to the last end.
-/

namespace Tilings

variable {α β : Type*} (first last : α → ℤ)

/-- The position lies in the range of the item. -/
def Contains (position : ℤ) (item : α) : Prop := first item ≤ position ∧ position < last item

instance (position : ℤ) (item : α) : Decidable (Contains first last position item) :=
  inferInstanceAs (Decidable (_ ∧ _))

/-- The number of items whose range has the position. -/
def coverage (items : List α) (position : ℤ) : ℕ :=
  items.countP fun item => decide (Contains first last position item)

/-- **Exact cover.** Each position of the range lies in one item, and each other
position in none. -/
def CoversOnce (items : List α) (start stop : ℤ) : Prop :=
  ∀ position, coverage first last items position =
    if start ≤ position ∧ position < stop then 1 else 0

/-- Nonempty items, each of which begins where the one before it ends. -/
inductive Tiles : ℤ → ℤ → List α → Prop
  | nil (position : ℤ) : Tiles position position []
  | cons {start stop : ℤ} {item : α} {rest : List α} (begins : first item = start)
      (nonempty : first item < last item) (follows : Tiles (last item) stop rest) :
      Tiles start stop (item :: rest)

variable {first last} {items : List α} {start middle stop : ℤ}

@[simp] theorem coverage_nil (position : ℤ) : coverage first last [] position = 0 := rfl

theorem coverage_cons (item : α) (items : List α) (position : ℤ) :
    coverage first last (item :: items) position =
      coverage first last items position + if Contains first last position item then 1 else 0 := by
  simp only [coverage, List.countP_cons, decide_eq_true_eq]

theorem coverage_pos {position : ℤ} {item : α} (member : item ∈ items)
    (inside : Contains first last position item) : 0 < coverage first last items position :=
  List.countP_pos_iff.mpr ⟨item, member, decide_eq_true inside⟩

theorem CoversOnce.perm {others : List α} (covers : CoversOnce first last items start stop)
    (same : items.Perm others) : CoversOnce first last others start stop := by
  intro position
  rw [← covers position]
  exact (same.countP_eq _).symm

/-- The range is what its items contain. -/
theorem CoversOnce.exists_contains_iff (covers : CoversOnce first last items start stop)
    {position : ℤ} : (∃ item ∈ items, Contains first last position item) ↔
      start ≤ position ∧ position < stop := by
  have counted := covers position
  constructor
  · rintro ⟨item, member, inside⟩
    by_contra outside
    rw [if_neg outside] at counted
    exact (coverage_pos member inside).ne' counted
  · intro inside
    rw [if_pos inside] at counted
    have positive : 0 < coverage first last items position := by omega
    obtain ⟨item, member, contains⟩ := List.countP_pos_iff.mp positive
    exact ⟨item, member, of_decide_eq_true contains⟩

namespace Tiles

theorem le (tiles : Tiles first last start stop items) : start ≤ stop := by
  induction tiles with
  | nil => exact le_rfl
  | cons begins nonempty _ ih => exact begins.ge.trans (nonempty.le.trans ih)

/-- Every item is nonempty and lies in the range. -/
theorem inside (tiles : Tiles first last start stop items) :
    ∀ item ∈ items, start ≤ first item ∧ first item < last item ∧ last item ≤ stop := by
  induction tiles with
  | nil => simp
  | cons begins nonempty follows ih =>
      intro item member
      rcases List.mem_cons.mp member with rfl | later
      · exact ⟨begins.ge, nonempty, follows.le⟩
      · obtain ⟨low, proper, high⟩ := ih item later
        exact ⟨by omega, proper, high⟩

theorem append {others : List α} (tiles : Tiles first last start middle items)
    (following : Tiles first last middle stop others) :
    Tiles first last start stop (items ++ others) := by
  induction tiles with
  | nil => exact following
  | cons begins nonempty _ ih => exact .cons begins nonempty (ih following)

/-- The last item ends where the range does. -/
theorem concat_iff {item : α} :
    Tiles first last start stop (items ++ [item]) ↔
      Tiles first last start (first item) items ∧ first item < last item ∧ last item = stop := by
  constructor
  · intro tiles
    induction items generalizing start with
    | nil =>
        cases tiles with
        | cons begins nonempty follows =>
            cases follows
            exact ⟨begins ▸ .nil _, nonempty, rfl⟩
    | cons head items ih =>
        cases tiles with
        | cons begins nonempty follows =>
            obtain ⟨earlier, proper, stops⟩ := ih follows
            exact ⟨.cons begins nonempty earlier, proper, stops⟩
  · rintro ⟨earlier, proper, rfl⟩
    exact earlier.append (.cons rfl proper (.nil _))

/-- **Tiles cover.** -/
theorem coversOnce (tiles : Tiles first last start stop items) :
    CoversOnce first last items start stop := by
  intro position
  induction tiles with
  | nil => rw [coverage_nil, if_neg (by omega)]
  | @cons start stop item rest begins nonempty follows ih =>
      have bound := follows.le
      rw [coverage_cons, ih]
      by_cases before : position < last item
      · rw [if_neg (by omega), zero_add]
        exact if_congr (by unfold Contains; omega) rfl rfl
      · rw [if_neg fun inside : Contains _ _ _ _ => before inside.2, add_zero]
        exact if_congr (by omega) rfl rfl

/-- The items are in order. -/
theorem pairwise (tiles : Tiles first last start stop items) :
    items.Pairwise fun before after => last before ≤ first after := by
  induction tiles with
  | nil => exact List.Pairwise.nil
  | cons _ _ follows ih =>
      exact List.pairwise_cons.mpr ⟨fun item member => (follows.inside item member).1, ih⟩

/-- The lengths of the items add up to the length of the range. -/
theorem sum_lengths (tiles : Tiles first last start stop items) :
    (items.map fun item => last item - first item).sum = stop - start := by
  induction tiles with
  | nil => simp
  | cons begins _ _ ih =>
      rw [List.map_cons, List.sum_cons, ih, ← begins]
      ring

/-- Groups of items tile a range when each group tiles one step of it. -/
theorem flatMap_zipIdx {sources : List β} {begin_ : ℕ} {group : β × ℕ → List α}
    (boundary : ℕ → ℤ) (each : ∀ source ∈ sources.zipIdx begin_,
      Tiles first last (boundary source.2) (boundary (source.2 + 1)) (group source)) :
    Tiles first last (boundary begin_) (boundary (begin_ + sources.length))
      ((sources.zipIdx begin_).flatMap group) := by
  induction sources generalizing begin_ with
  | nil => exact .nil _
  | cons source sources ih =>
      rw [List.zipIdx_cons] at each
      obtain ⟨here, later⟩ := List.forall_mem_cons.mp each
      have rest := here.append (ih later)
      rw [Nat.add_right_comm] at rest
      exact rest

end Tiles

/-! ### Checking a tiling in one pass -/

variable {ε : Type}

/-- A check that is given where an item has to begin, and that answers where the
next one has to. What else it requires of an item is a predicate of its own. -/
def Checks (first last : α → ℤ) (required : α → Prop) (check : ℤ → α → Except ε ℤ) : Prop :=
  ∀ position item next, check position item = .ok next ↔
    first item = position ∧ first item < last item ∧ required item ∧ last item = next

/-- **The pass.** It succeeds exactly on tilings of required items. -/
theorem Checks.foldlM_ok {required : α → Prop} {check : ℤ → α → Except ε ℤ}
    (checks : Checks first last required check) :
    items.foldlM check start = .ok stop ↔
      Tiles first last start stop items ∧ ∀ item ∈ items, required item := by
  induction items generalizing start with
  | nil =>
      rw [List.foldlM_nil, Checked.return_ok]
      constructor
      · rintro rfl
        exact ⟨.nil _, by simp⟩
      · rintro ⟨tiles, _⟩
        cases tiles
        rfl
  | cons item items ih =>
      rw [List.foldlM_cons, Checked.bind_ok]
      constructor
      · rintro ⟨next, passed, rest⟩
        obtain ⟨begins, nonempty, meets, rfl⟩ := (checks _ _ _).mp passed
        obtain ⟨tiles, all⟩ := ih.mp rest
        exact ⟨.cons begins nonempty tiles, List.forall_mem_cons.mpr ⟨meets, all⟩⟩
      · rintro ⟨tiles, all⟩
        cases tiles with
        | cons begins nonempty follows =>
            obtain ⟨meets, all⟩ := List.forall_mem_cons.mp all
            exact ⟨last item, (checks _ _ _).mpr ⟨begins, nonempty, meets, rfl⟩,
              ih.mpr ⟨follows, all⟩⟩

end Tilings
