import Mathlib.Data.Int.Notation
import Mathlib.Logic.Function.Basic
import Mathlib.Data.List.Basic
import Mathlib.Tactic

/-! # Rows by slots

A cache of rows is written and read through slots: a scatter brings each row to its
slot, a gather takes it from there, and an entry with a negative slot is passed over.
A sequence is also overwritten piece by piece.
-/

namespace LMCacheHcu.SlotRows

variable {Row : Type*}

/-! ### Scatter and gather -/

/-- Write rows to their slots, one after the other. -/
def scatter (entries : List (ℤ × Row)) (cache : ℕ → Row) : ℕ → Row :=
  entries.foldl (fun cache entry =>
    if entry.1 < 0 then cache else Function.update cache entry.1.toNat entry.2) cache

/-- Read the row at a slot; without one, keep what was there. -/
def gather (slots : List ℤ) (cache : ℕ → Row) (old : ℕ → Row) : ℕ → Row := fun index =>
  match slots[index]? with
  | none => old index
  | some slot => if slot < 0 then old index else cache slot.toNat

theorem scatter_append (first second : List (ℤ × Row)) (cache : ℕ → Row) :
    scatter (first ++ second) cache = scatter second (scatter first cache) :=
  List.foldl_append

/-- Scatters one after the other are one scatter. -/
theorem foldl_scatter {Part : Type*} (entriesOf : Part → List (ℤ × Row)) (parts : List Part)
    (cache : ℕ → Row) :
    parts.foldl (fun cache part => scatter (entriesOf part) cache) cache =
      scatter (parts.flatMap entriesOf) cache := by
  induction parts generalizing cache with
  | nil => rfl
  | cons part parts ih => rw [List.foldl_cons, ih, List.flatMap_cons, scatter_append]

/-- A slot holds a row in the end when it is the only one that is written there, and
it is written or was there before. -/
theorem scatter_eq {entries : List (ℤ × Row)} {cache : ℕ → Row} {slot : ℕ} {row : Row}
    (unique : ∀ entry ∈ entries, entry.1 = (slot : ℤ) → entry.2 = row)
    (written : ((slot : ℤ), row) ∈ entries ∨ cache slot = row) :
    scatter entries cache slot = row := by
  induction entries generalizing cache with
  | nil => exact written.resolve_left List.not_mem_nil
  | cons entry entries ih =>
      obtain ⟨head, rest⟩ := List.forall_mem_cons.mp unique
      rw [scatter, List.foldl_cons, ← scatter]
      apply ih rest
      by_cases here : entry.1 = (slot : ℤ)
      · right
        rw [here, if_neg (by omega), Int.toNat_natCast, Function.update_self]
        exact head here
      · have kept : (if entry.1 < 0 then cache
            else Function.update cache entry.1.toNat entry.2) slot = cache slot := by
          split
          · rfl
          · rw [Function.update_of_ne]
            omega
        rw [kept]
        refine written.imp_left fun member => ?_
        rcases List.mem_cons.mp member with rfl | later
        · exact absurd rfl here
        · exact later

/-- A slot that no entry names keeps its row. -/
theorem scatter_of_notMem {entries : List (ℤ × Row)} {cache : ℕ → Row} {slot : ℕ}
    (absent : ∀ entry ∈ entries, entry.1 ≠ (slot : ℤ)) :
    scatter entries cache slot = cache slot :=
  scatter_eq (fun entry member here => absurd here (absent entry member)) (.inr rfl)

/-- The rows of a buffer with their slots. -/
def slotted (slots : List ℤ) (rows : ℕ → Row) : List (ℤ × Row) :=
  slots.zipIdx.map fun entry => (entry.1, rows entry.2)

theorem mem_slotted {slots : List ℤ} {rows : ℕ → Row} {entry : ℤ × Row} :
    entry ∈ slotted slots rows ↔ ∃ index, slots[index]? = some entry.1 ∧ rows index = entry.2 := by
  unfold slotted
  rw [List.mem_map]
  constructor
  · rintro ⟨⟨slot, index⟩, member, rfl⟩
    exact ⟨index, List.mem_zipIdx_iff_getElem?.mp member, rfl⟩
  · rintro ⟨index, here, row⟩
    exact ⟨(entry.1, index), List.mem_zipIdx_iff_getElem?.mpr here, by rw [row]⟩

/-- The rows after the first ones. -/
theorem mem_drop_slotted {slots : List ℤ} {rows : ℕ → Row} {skip : ℕ} {entry : ℤ × Row} :
    entry ∈ (slotted slots rows).drop skip ↔
      ∃ index, skip ≤ index ∧ slots[index]? = some entry.1 ∧ rows index = entry.2 := by
  have listed : ∀ index, (slotted slots rows)[index]? =
      (slots[index]?).map fun slot => (slot, rows index) := by
    intro index
    rw [slotted, List.getElem?_map, List.getElem?_zipIdx, Option.map_map, Nat.zero_add]
    rfl
  rw [List.mem_iff_getElem?]
  constructor
  · rintro ⟨index, here⟩
    rw [List.getElem?_drop, listed] at here
    obtain ⟨slot, there, rfl⟩ := Option.map_eq_some_iff.mp here
    exact ⟨skip + index, Nat.le_add_right .., there, rfl⟩
  · rintro ⟨index, after, there, row⟩
    refine ⟨index - skip, ?_⟩
    rw [List.getElem?_drop, listed, Nat.add_sub_cancel' after, there, Option.map_some, row]

/-- The row of a buffer whose slot no other row has. -/
theorem scatter_slotted {slots : List ℤ} {index slot : ℕ} (here : slots[index]? = some (slot : ℤ))
    (alone : ∀ other, slots[other]? = some (slot : ℤ) → other = index) (rows cache : ℕ → Row) :
    scatter (slotted slots rows) cache slot = rows index := by
  apply scatter_eq
  · intro entry member named
    obtain ⟨other, there, row⟩ := mem_slotted.mp member
    rw [named] at there
    rw [← row, alone other there]
  · exact .inl (mem_slotted.mpr ⟨index, here, rfl⟩)

theorem scatter_slotted_of_notMem {slots : List ℤ} {slot : ℕ} (absent : (slot : ℤ) ∉ slots)
    (rows cache : ℕ → Row) : scatter (slotted slots rows) cache slot = cache slot := by
  apply scatter_of_notMem
  intro entry member named
  obtain ⟨index, here, -⟩ := mem_slotted.mp member
  exact absent (named ▸ List.mem_of_getElem? here)

theorem gather_of_getElem? {slots : List ℤ} {index slot : ℕ} (here : slots[index]? = some (slot : ℤ))
    (cache old : ℕ → Row) : gather slots cache old index = cache slot := by
  rw [gather, here]
  exact if_neg (by omega)

/-! ### Overlays -/

/-- A list written over a sequence from some index on. -/
def overlay (first : ℕ) (xs : List Row) (old : ℕ → Row) : ℕ → Row := fun index =>
  if first ≤ index then (xs[index - first]?).getD (old index) else old index

theorem overlay_inside {first : ℕ} {xs : List Row} {offset : ℕ} (inside : offset < xs.length)
    (old : ℕ → Row) : overlay first xs old (first + offset) = xs[offset] := by
  rw [overlay, if_pos (Nat.le_add_right _ _), Nat.add_sub_cancel_left,
    List.getElem?_eq_getElem inside, Option.getD_some]

theorem overlay_outside {first index : ℕ} {xs : List Row} (old : ℕ → Row)
    (outside : index < first ∨ first + xs.length ≤ index) :
    overlay first xs old index = old index := by
  rw [overlay]
  split
  · rw [List.getElem?_eq_none (by omega), Option.getD_none]
  · rfl

/-- Pieces that are written one after the other. -/
def overlayAll (pieces : List (ℕ × List Row)) (old : ℕ → Row) : ℕ → Row :=
  pieces.foldl (fun rows piece => overlay piece.1 piece.2 rows) old

theorem overlayAll_outside {pieces : List (ℕ × List Row)} {index : ℕ}
    (outside : ∀ piece ∈ pieces, index < piece.1 ∨ piece.1 + piece.2.length ≤ index)
    (old : ℕ → Row) : overlayAll pieces old index = old index := by
  induction pieces generalizing old with
  | nil => rfl
  | cons piece pieces ih =>
      rw [overlayAll, List.foldl_cons, ← overlayAll,
        ih (fun other member => outside other (List.mem_cons_of_mem _ member)),
        overlay_outside old (outside piece List.mem_cons_self)]

/-- Of pieces in ascending order each keeps its place. -/
theorem overlayAll_inside {pieces : List (ℕ × List Row)}
    (ordered : pieces.Pairwise fun left right => left.1 + left.2.length ≤ right.1)
    {piece : ℕ × List Row} (member : piece ∈ pieces) {offset : ℕ}
    (inside : offset < piece.2.length) (old : ℕ → Row) :
    overlayAll pieces old (piece.1 + offset) = piece.2[offset] := by
  induction pieces generalizing old with
  | nil => cases member
  | cons head pieces ih =>
      rw [overlayAll, List.foldl_cons, ← overlayAll]
      rcases List.mem_cons.mp member with rfl | later
      · rw [overlayAll_outside, overlay_inside inside]
        intro other there
        have after := List.rel_of_pairwise_cons ordered there
        omega
      · exact ih ordered.of_cons later _

end LMCacheHcu.SlotRows
