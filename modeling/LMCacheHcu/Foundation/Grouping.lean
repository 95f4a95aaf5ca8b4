import Mathlib.Tactic

/-! # Grouping by a key

Items with a key are appended, one after the other, to the group of their key;
an item whose key is new starts a group behind the others. The groups have the
items of their keys in the given order, and come in the order of their first
items.
-/

namespace Grouping

variable {κ α : Type*} [DecidableEq κ]

/-- Append a value to the group of a key. -/
def append (key : κ) (value : α) : List (κ × List α) → List (κ × List α)
  | [] => [(key, [value])]
  | group :: rest =>
      if group.1 = key then (key, group.2 ++ [value]) :: rest
      else group :: append key value rest

/-- The groups of a list of items. -/
def groups (items : List (κ × α)) : List (κ × List α) :=
  items.foldl (fun made item => append item.1 item.2 made) []

theorem groups_append_singleton (items : List (κ × α)) (item : κ × α) :
    groups (items ++ [item]) = append item.1 item.2 (groups items) := by
  rw [groups, List.foldl_append]
  rfl

/-- A value goes to the end of its group, or starts the last one. -/
theorem append_cases (key : κ) (value : α) (made : List (κ × List α)) :
    (∃ before values after, made = before ++ (key, values) :: after ∧
        append key value made = before ++ (key, values ++ [value]) :: after) ∨
      key ∉ made.map Prod.fst ∧ append key value made = made ++ [(key, [value])] := by
  induction made with
  | nil => exact .inr ⟨List.not_mem_nil, rfl⟩
  | cons group rest ih =>
      rw [append]
      by_cases same : group.1 = key
      · rw [if_pos same]
        exact .inl ⟨[], group.2, rest, by rw [← same]; rfl, rfl⟩
      · rw [if_neg same]
        rcases ih with ⟨before, values, after, split, appended⟩ | ⟨absent, appended⟩
        · refine .inl ⟨group :: before, values, after, ?_, ?_⟩
          · rw [split, List.cons_append]
          · rw [appended, List.cons_append]
        · refine .inr ⟨?_, by rw [appended, List.cons_append]⟩
          rw [List.map_cons, List.mem_cons, not_or]
          exact ⟨Ne.symm same, absent⟩

/-- What the groups of a list of items are. -/
structure Spec (items : List (κ × α)) (made : List (κ × List α)) : Prop where
  nonempty : ∀ group ∈ made, group.2 ≠ []
  members : ∀ group ∈ made, group.2 = (items.filter (·.1 = group.1)).map Prod.snd
  distinct : (made.map Prod.fst).Nodup
  complete : ∀ item ∈ items, item.1 ∈ made.map Prod.fst
  perm : (made.flatMap Prod.snd).Perm (items.map Prod.snd)

namespace Spec

variable {items : List (κ × α)} {made : List (κ × List α)}

theorem value_mem (spec : Spec items made) {group : κ × List α} (member : group ∈ made)
    {value : α} (inside : value ∈ group.2) : value ∈ items.map Prod.snd := by
  rw [spec.members group member] at inside
  obtain ⟨item, kept, rfl⟩ := List.mem_map.mp inside
  exact List.mem_map_of_mem (List.mem_filter.mp kept).1

/-- The items of a key that is not the last item's are as before. -/
theorem filter_other {key : κ} {item : κ × α} (other : item.1 ≠ key) :
    (items ++ [item]).filter (·.1 = key) = items.filter (·.1 = key) := by
  rw [List.filter_append, List.filter_cons_of_neg (by simpa using other), List.filter_nil,
    List.append_nil]

theorem filter_same (item : κ × α) :
    (items ++ [item]).filter (·.1 = item.1) = items.filter (·.1 = item.1) ++ [item] := by
  rw [List.filter_append, List.filter_cons_of_pos (by simp), List.filter_nil]

theorem step (spec : Spec items made) (item : κ × α) :
    Spec (items ++ [item]) (append item.1 item.2 made) := by
  have keys : ∀ each ∈ items ++ [item], each.1 ∈ made.map Prod.fst ∨ each = item := by
    intro each member
    rcases List.mem_append.mp member with earlier | last
    · exact .inl (spec.complete each earlier)
    · exact .inr (List.mem_singleton.mp last)
  rcases append_cases item.1 item.2 made with ⟨before, values, after, rfl, appended⟩ |
      ⟨absent, appended⟩
  · have distinct := spec.distinct
    rw [List.map_append, List.map_cons] at distinct
    have apart : ∀ group ∈ before ++ after, item.1 ≠ group.1 := by
      intro group member same
      rw [List.nodup_append, List.nodup_cons] at distinct
      rcases List.mem_append.mp member with inBefore | inAfter
      · exact distinct.2.2 group.1 (List.mem_map_of_mem inBefore) item.1
          (List.mem_cons_self ..) same.symm
      · exact distinct.2.1.1 (same ▸ List.mem_map_of_mem inAfter)
    have cases (group : κ × List α)
        (member : group ∈ before ++ (item.1, values ++ [item.2]) :: after) :
        group = (item.1, values ++ [item.2]) ∨ group ∈ before ++ after := by
      simp only [List.mem_append, List.mem_cons] at member ⊢
      tauto
    have old (group : κ × List α) (member : group ∈ before ++ after) :
        group ∈ before ++ (item.1, values) :: after := by
      simp only [List.mem_append, List.mem_cons] at member ⊢
      tauto
    rw [appended]
    refine ⟨?_, ?_, ?_, ?_, ?_⟩
    · intro group member
      rcases cases group member with rfl | kept
      · simp
      · exact spec.nonempty group (old group kept)
    · intro group member
      rcases cases group member with rfl | kept
      · rw [filter_same, List.map_append, ← spec.members (item.1, values) (by simp)]
        rfl
      · rw [filter_other (apart group kept)]
        exact spec.members group (old group kept)
    · rw [List.map_append, List.map_cons]
      exact distinct
    · intro each member
      have known : (before ++ (item.1, values ++ [item.2]) :: after).map Prod.fst =
          (before ++ (item.1, values) :: after).map Prod.fst := by
        rw [List.map_append, List.map_append, List.map_cons, List.map_cons]
      rw [known]
      rcases keys each member with there | rfl
      · exact there
      · simp
    · have perm := spec.perm
      rw [List.flatMap_append, List.flatMap_cons] at perm ⊢
      rw [List.map_append, List.map_singleton]
      refine List.Perm.trans ?_ (perm.append_right [item.2])
      rw [List.append_assoc, List.append_assoc, List.append_assoc]
      refine List.Perm.append_left _ (List.Perm.append_left _ ?_)
      exact List.perm_append_comm
  · rw [appended]
    have new : items.filter (·.1 = item.1) = [] := by
      rw [List.filter_eq_nil_iff]
      intro each member same
      exact absent (of_decide_eq_true same ▸ spec.complete each member)
    refine ⟨?_, ?_, ?_, ?_, ?_⟩
    · intro group member
      rcases List.mem_append.mp member with earlier | last
      · exact spec.nonempty group earlier
      · rw [List.mem_singleton.mp last]
        exact List.cons_ne_nil _ _
    · intro group member
      rcases List.mem_append.mp member with earlier | last
      · have other : item.1 ≠ group.1 := fun same =>
          absent (same ▸ List.mem_map_of_mem earlier)
        rw [filter_other other]
        exact spec.members group earlier
      · rw [List.mem_singleton.mp last, filter_same, new]
        rfl
    · rw [List.map_append, List.map_singleton, List.nodup_append]
      refine ⟨spec.distinct, List.nodup_singleton _, ?_⟩
      intro key known other last same
      rw [List.mem_singleton] at last
      exact absent (last ▸ same ▸ known)
    · intro each member
      rw [List.map_append]
      rcases keys each member with there | rfl
      · exact List.mem_append_left _ there
      · simp
    · rw [List.flatMap_append, List.map_append, List.map_singleton, List.flatMap_singleton]
      exact spec.perm.append_right _

end Spec

/-- **The groups of a list of items.** -/
theorem groups_spec (items : List (κ × α)) : Spec items (groups items) := by
  induction items using List.reverseRecOn with
  | nil =>
      exact ⟨fun _ member => absurd member List.not_mem_nil,
        fun _ member => absurd member List.not_mem_nil, List.nodup_nil,
        fun _ member => absurd member List.not_mem_nil, List.Perm.nil⟩
  | append_singleton items item ih =>
      rw [groups_append_singleton]
      exact ih.step item

/-- The first items of the groups stand in a relation. -/
def Leads (r : α → α → Prop) (made : List (κ × List α)) : Prop :=
  made.Pairwise fun first second => ∀ one ∈ first.2.head?, ∀ other ∈ second.2.head?, r one other

/-- **The groups come in the order of their first items.** -/
theorem leads_groups {r : α → α → Prop} {items : List (κ × α)}
    (ordered : (items.map Prod.snd).Pairwise r) : Leads r (groups items) := by
  induction items using List.reverseRecOn with
  | nil => exact List.Pairwise.nil
  | append_singleton items item ih =>
      rw [List.map_append, List.pairwise_append] at ordered
      have leads := ih ordered.1
      have spec := groups_spec items
      rw [groups_append_singleton]
      rcases append_cases item.1 item.2 (groups items) with
        ⟨before, values, after, split, appended⟩ | ⟨_, appended⟩
      · have filled : values ≠ [] := spec.nonempty (item.1, values) (by rw [split]; simp)
        have head : (values ++ [item.2]).head? = values.head? :=
          List.head?_append_of_ne_nil _ filled
        rw [appended]
        rw [Leads, split, List.pairwise_append, List.pairwise_cons] at leads
        rw [Leads, List.pairwise_append, List.pairwise_cons, head]
        refine ⟨leads.1, leads.2.1, fun first member second other => ?_⟩
        rcases List.mem_cons.mp other with rfl | later
        · rw [head]
          exact leads.2.2 first member _ (List.mem_cons_self ..)
        · exact leads.2.2 first member second (List.mem_cons_of_mem _ later)
      · rw [appended, Leads, List.pairwise_append]
        refine ⟨leads, List.pairwise_singleton _ _, fun first member second last => ?_⟩
        rw [List.mem_singleton.mp last]
        rintro one lead other same
        obtain rfl : item.2 = other := Option.some.inj same
        exact ordered.2.2 one (spec.value_mem member (List.mem_of_head? lead)) _
          (List.mem_singleton_self _)

end Grouping
