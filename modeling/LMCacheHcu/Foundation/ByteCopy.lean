import Mathlib.Tactic

/-! # Copying byte ranges

A memory is a function from addresses to bytes. A list of copies moves ranges
of one memory into another, one after the other, later copies overwriting
earlier ones. What such a list does at one address depends only on the copies
that cover it: none, and the address keeps its byte; some, and it has the byte
that the last of them delivers, whichever that is when they all agree.
-/

namespace ByteCopy

variable {β : Type*}

/-- One range of a source and its place in a destination. -/
structure Copy where
  src : ℤ
  dst : ℤ
  size : ℤ
deriving DecidableEq, Repr

/-- The destination range of the copy contains the address. -/
def Copy.Covers (copy : Copy) (address : ℤ) : Prop :=
  copy.dst ≤ address ∧ address < copy.dst + copy.size

instance (copy : Copy) (address : ℤ) : Decidable (copy.Covers address) :=
  inferInstanceAs (Decidable (_ ∧ _))

/-- The source address that a copy moves to an address it covers. -/
def Copy.origin (copy : Copy) (address : ℤ) : ℤ := copy.src + (address - copy.dst)

/-- The destination after one copy. -/
def Copy.write (source : ℤ → β) (memory : ℤ → β) (copy : Copy) : ℤ → β := fun address =>
  if copy.Covers address then source (copy.origin address) else memory address

/-- The destination after a list of copies from one unchanging source. -/
def writeAll (source : ℤ → β) (copies : List Copy) (memory : ℤ → β) : ℤ → β :=
  copies.foldl (Copy.write source) memory

@[simp] theorem writeAll_nil (source memory : ℤ → β) : writeAll source [] memory = memory := rfl

@[simp] theorem writeAll_cons (source memory : ℤ → β) (copy : Copy) (copies : List Copy) :
    writeAll source (copy :: copies) memory =
      writeAll source copies (copy.write source memory) := rfl

theorem writeAll_append (source memory : ℤ → β) (first second : List Copy) :
    writeAll source (first ++ second) memory =
      writeAll source second (writeAll source first memory) :=
  List.foldl_append ..

/-- Some copy of the list moves the source address to the destination address. -/
def Moves (copies : List Copy) (origin address : ℤ) : Prop :=
  ∃ copy ∈ copies, copy.Covers address ∧ copy.origin address = origin

@[simp] theorem not_moves_nil (origin address : ℤ) : ¬ Moves [] origin address := by
  simp [Moves]

theorem moves_cons (copy : Copy) (copies : List Copy) (origin address : ℤ) :
    Moves (copy :: copies) origin address ↔
      (copy.Covers address ∧ copy.origin address = origin) ∨ Moves copies origin address := by
  simp only [Moves, List.mem_cons, exists_eq_or_imp]

theorem moves_append (first second : List Copy) (origin address : ℤ) :
    Moves (first ++ second) origin address ↔
      Moves first origin address ∨ Moves second origin address := by
  simp only [Moves, List.mem_append, or_and_right, exists_or]

theorem moves_flatMap {ι : Type*} (items : List ι) (copies : ι → List Copy) (origin address : ℤ) :
    Moves (items.flatMap copies) origin address ↔
      ∃ item ∈ items, Moves (copies item) origin address := by
  simp only [Moves, List.mem_flatMap]
  constructor
  · rintro ⟨copy, ⟨item, member, inside⟩, moved⟩
    exact ⟨item, member, copy, inside, moved⟩
  · rintro ⟨item, member, copy, inside, moved⟩
    exact ⟨copy, ⟨item, member, inside⟩, moved⟩

theorem moves_map {ι : Type*} (items : List ι) (copy : ι → Copy) (origin address : ℤ) :
    Moves (items.map copy) origin address ↔
      ∃ item ∈ items, (copy item).Covers address ∧ (copy item).origin address = origin := by
  simp only [Moves, List.mem_map, exists_exists_and_eq_and]

theorem moves_shift (copies : List Copy) (shift origin address : ℤ) :
    Moves (copies.map fun copy => { copy with src := copy.src + shift }) origin address ↔
      Moves copies (origin - shift) address := by
  rw [moves_map]
  refine exists_congr fun copy => and_congr_right fun _ => and_congr_right fun _ => ?_
  simp only [Copy.origin]
  constructor
  · intro same
    omega
  · intro same
    omega

/-- The order of the copies does not matter to what they move. -/
theorem moves_perm {copies others : List Copy} (same : copies.Perm others) (origin address : ℤ) :
    Moves copies origin address ↔ Moves others origin address := by
  simp only [Moves, same.mem_iff]

/-- An address to which nothing is moved keeps its byte. -/
theorem writeAll_of_not_moved (source : ℤ → β) {copies : List Copy} (memory : ℤ → β) {address : ℤ}
    (unmoved : ∀ origin, ¬ Moves copies origin address) :
    writeAll source copies memory address = memory address := by
  induction copies generalizing memory with
  | nil => rfl
  | cons copy copies ih =>
      simp only [moves_cons, not_or] at unmoved
      rw [writeAll_cons, ih _ fun origin => (unmoved origin).2]
      exact if_neg fun covers => (unmoved _).1 ⟨covers, rfl⟩

/-- An address to which something is moved has a byte that is moved to it. -/
theorem exists_writeAll_of_moved (source : ℤ → β) {copies : List Copy} (memory : ℤ → β)
    {origin address : ℤ} (moved : Moves copies origin address) :
    ∃ last, Moves copies last address ∧ writeAll source copies memory address = source last := by
  induction copies generalizing memory origin with
  | nil => exact absurd moved (not_moves_nil _ _)
  | cons copy copies ih =>
      rw [writeAll_cons]
      by_cases later : ∃ other, Moves copies other address
      · obtain ⟨other, again⟩ := later
        obtain ⟨last, final, value⟩ := ih (copy.write source memory) again
        exact ⟨last, (moves_cons ..).mpr (.inr final), value⟩
      · push Not at later
        rcases (moves_cons ..).mp moved with ⟨covers, _⟩ | again
        · refine ⟨_, (moves_cons ..).mpr (.inl ⟨covers, rfl⟩), ?_⟩
          rw [writeAll_of_not_moved source _ later]
          exact if_pos covers
        · exact absurd again (later origin)

/-- When everything moved to an address is one byte, the address has that byte. -/
theorem writeAll_of_agree (source : ℤ → β) {copies : List Copy} (memory : ℤ → β)
    {origin address : ℤ} {value : β} (moved : Moves copies origin address)
    (agree : ∀ other, Moves copies other address → source other = value) :
    writeAll source copies memory address = value := by
  obtain ⟨last, final, delivered⟩ := exists_writeAll_of_moved source memory moved
  rw [delivered]
  exact agree last final

/-- Copies that move one byte to the place of every chosen coordinate leave all
of these bytes in place exactly when coordinates that share a place have the
same byte, and they change no other address. -/
theorem writeAll_places {ι : Type*} {source : ℤ → β} (memory : ℤ → β) {copies : List Copy}
    {chosen : ι → Prop} {place origin : ι → ℤ} {value : ι → β}
    (moves : ∀ from' address, Moves copies from' address ↔
      ∃ coordinate, chosen coordinate ∧ address = place coordinate ∧ from' = origin coordinate)
    (delivers : ∀ coordinate, chosen coordinate → source (origin coordinate) = value coordinate) :
    ((∀ coordinate, chosen coordinate →
        writeAll source copies memory (place coordinate) = value coordinate) ↔
      ∀ left right, chosen left → chosen right → place left = place right →
        value left = value right) ∧
    ∀ address, (∀ coordinate, chosen coordinate → address ≠ place coordinate) →
      writeAll source copies memory address = memory address := by
  refine ⟨⟨?_, ?_⟩, ?_⟩
  · intro restored left right inLeft inRight same
    rw [← restored left inLeft, ← restored right inRight, same]
  · intro agree coordinate inside
    refine writeAll_of_agree source memory ((moves _ _).mpr ⟨coordinate, inside, rfl, rfl⟩) ?_
    intro other moved
    obtain ⟨another, inAnother, same, rfl⟩ := (moves _ _).mp moved
    rw [delivers another inAnother]
    exact agree another coordinate inAnother inside same.symm
  · intro address outside
    refine writeAll_of_not_moved source memory fun other moved => ?_
    obtain ⟨coordinate, inside, same, _⟩ := (moves _ _).mp moved
    exact outside coordinate inside same

/-- Copies from a source act as shifted copies from another source, when the
bytes they read are those of the other source at the shifted addresses. -/
theorem writeAll_shift {source : ℤ → β} (source' : ℤ → β) {copies : List Copy}
    (memory : ℤ → β) (shift : ℤ)
    (same : ∀ copy ∈ copies, ∀ address, copy.Covers address →
      source (copy.origin address) = source' (copy.origin address + shift)) :
    writeAll source copies memory =
      writeAll source' (copies.map fun copy => { copy with src := copy.src + shift }) memory := by
  induction copies generalizing memory with
  | nil => rfl
  | cons copy copies ih =>
      have first : copy.write source memory =
          Copy.write source' memory { copy with src := copy.src + shift } := by
        funext address
        by_cases covers : copy.Covers address
        · have moved := same copy (List.mem_cons_self ..) address covers
          have shifted : copy.origin address + shift =
              Copy.origin { copy with src := copy.src + shift } address := by
            simp only [Copy.origin]
            ring
          rw [shifted] at moved
          exact (if_pos covers).trans (moved.trans (if_pos covers).symm)
        · exact (if_neg covers).trans (if_neg covers).symm
      rw [List.map_cons, writeAll_cons, writeAll_cons, first]
      exact ih _ fun other member => same other (List.mem_cons_of_mem _ member)

/-! ### Copies within one memory -/

/-- The memory after a list of copies that each read what the earlier ones left. -/
def moveAll (copies : List Copy) (memory : ℤ → β) : ℤ → β :=
  copies.foldl (fun memory copy => copy.write memory memory) memory

/-- Copies within one memory act as copies from the memory before, when no
destination lies in a range that is read. -/
theorem moveAll_eq_writeAll {copies : List Copy} (memory : ℤ → β)
    (apart : ∀ copy ∈ copies, ∀ address, copy.Covers address →
      ∀ other ∈ copies, ¬ other.Covers (copy.origin address)) :
    moveAll copies memory = writeAll memory copies memory := by
  have general : ∀ (rest : List Copy) (current : ℤ → β), (∀ copy ∈ rest, copy ∈ copies) →
      (∀ copy ∈ copies, ∀ address, copy.Covers address →
        current (copy.origin address) = memory (copy.origin address)) →
      moveAll rest current = writeAll memory rest current := by
    intro rest
    induction rest with
    | nil => exact fun _ _ _ => rfl
    | cons copy rest ih =>
        intro current within kept
        have here := within copy (List.mem_cons_self ..)
        have same : copy.write current current = copy.write memory current := by
          funext address
          unfold Copy.write
          split
          · rename_i covers
            exact kept copy here address covers
          · rfl
        change moveAll rest (copy.write current current) = _
        rw [writeAll_cons, ← same]
        refine ih _ (fun other member => within other (List.mem_cons_of_mem _ member)) ?_
        intro other member address covers
        rw [← kept other member address covers]
        exact if_neg (apart other member address covers copy here)
  exact general copies memory (fun _ member => member) fun _ _ _ _ => rfl

end ByteCopy
