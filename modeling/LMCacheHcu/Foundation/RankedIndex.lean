import Mathlib.Order.Lattice
import Mathlib.Data.List.Basic
import Mathlib.Logic.Function.Basic

/-! # An index that keeps the entries of the highest rank

Records come to an index one at a time. A record takes the place of the entry of
its key, unless that one has a higher rank. Of records with different ranks the
highest one is left, whatever the order in which they came.
-/

namespace RankedIndex

variable {Key Entry Rank : Type} [DecidableEq Key] [LinearOrder Rank] (rank : Entry → Rank)

/-- One record comes to the index. -/
def offer (index : Key → Option Entry) (record : Key × Entry) : Key → Option Entry :=
  Function.update index record.1 <|
    match index record.1 with
    | some held => if rank record.2 < rank held then some held else some record.2
    | none => some record.2

/-- The index holds nothing but records, and for each of them an entry of its key
that has no lower rank. -/
structure IsMax (records : List (Key × Entry)) (index : Key → Option Entry) : Prop where
  origin : ∀ key entry, index key = some entry → (key, entry) ∈ records
  upper : ∀ key entry, (key, entry) ∈ records →
    ∃ held, index key = some held ∧ rank entry ≤ rank held

/-- Two records of one key with one rank are the same. -/
def Unambiguous (records : List (Key × Entry)) : Prop :=
  ∀ key first second, (key, first) ∈ records → (key, second) ∈ records →
    rank first = rank second → first = second

variable {rank} {records : List (Key × Entry)} {index : Key → Option Entry}

omit [DecidableEq Key] in
theorem IsMax.nil : IsMax rank ([] : List (Key × Entry)) fun _ => none where
  origin := fun _ _ found => nomatch found
  upper := fun _ _ member => nomatch member

theorem offer_of_ne {record : Key × Entry} {key : Key} (differ : key ≠ record.1) :
    offer rank index record key = index key :=
  Function.update_of_ne differ _ _

/-- The key of the record holds the record or what it held before, whichever has
the higher rank. -/
theorem offer_self (rank : Entry → Rank) (index : Key → Option Entry) (record : Key × Entry) :
    ∃ held, offer rank index record record.1 = some held ∧ rank record.2 ≤ rank held ∧
      (∀ before, index record.1 = some before → rank before ≤ rank held) ∧
      (held = record.2 ∨ index record.1 = some held) := by
  unfold offer
  rw [Function.update_self]
  cases present : index record.1 with
  | none =>
      exact ⟨record.2, rfl, le_refl _, (fun before found => nomatch found), .inl rfl⟩
  | some held =>
      dsimp only
      by_cases lower : rank record.2 < rank held
      · rw [if_pos lower]
        refine ⟨held, rfl, le_of_lt lower, fun before found => ?_, .inr rfl⟩
        rw [Option.some.inj found]
      · rw [if_neg lower]
        refine ⟨record.2, rfl, le_refl _, fun before found => ?_, .inl rfl⟩
        rw [← Option.some.inj found]
        exact not_lt.mp lower

/-- **The step.** -/
theorem IsMax.offer (isMax : IsMax rank records index) (record : Key × Entry) :
    IsMax rank (record :: records) (RankedIndex.offer rank index record) where
  origin := by
    intro key entry found
    by_cases same : key = record.1
    · subst same
      obtain ⟨held, holds, -, -, source⟩ := offer_self rank index record
      rw [holds, Option.some.injEq] at found
      subst found
      rcases source with new | old
      · rw [new]
        exact List.mem_cons_self
      · exact List.mem_cons_of_mem record (isMax.origin _ _ old)
    · rw [offer_of_ne same] at found
      exact List.mem_cons_of_mem record (isMax.origin _ _ found)
  upper := by
    intro key entry member
    obtain ⟨held, holds, above, kept, -⟩ := offer_self rank index record
    rcases List.mem_cons.mp member with same | before
    · rw [← same] at holds above
      exact ⟨held, same ▸ holds, above⟩
    · obtain ⟨other, found, bound⟩ := isMax.upper key entry before
      by_cases same : key = record.1
      · subst same
        exact ⟨held, holds, bound.trans (kept other found)⟩
      · exact ⟨other, (offer_of_ne same).trans found, bound⟩

/-- **The run.** -/
theorem IsMax.foldl (isMax : IsMax rank records index) (later : List (Key × Entry)) :
    IsMax rank (later.reverse ++ records) (later.foldl (RankedIndex.offer rank) index) := by
  induction later generalizing records index with
  | nil => exact isMax
  | cons record later ih =>
      rw [List.reverse_cons, List.append_assoc]
      exact ih (isMax.offer record)

omit [DecidableEq Key] in
/-- The highest record of a key is the one that the index holds. -/
theorem IsMax.eq_some (isMax : IsMax rank records index) (unambiguous : Unambiguous rank records)
    {key : Key} {entry : Entry} (member : (key, entry) ∈ records)
    (highest : ∀ other, (key, other) ∈ records → rank other ≤ rank entry) :
    index key = some entry := by
  obtain ⟨held, found, bound⟩ := isMax.upper key entry member
  have there := isMax.origin key held found
  rw [found, unambiguous key held entry there member (le_antisymm (highest held there) bound)]

end RankedIndex
