import Mathlib.Tactic

/-! # Dictionaries in the order of insertion

A dictionary keeps its entries in the order in which their names were first set:
a new name goes to the end, a name that is set again keeps its place, and an
erased name leaves the order of the others as it was.
-/

namespace LMCacheHcu

@[ext] structure OrderedDict (Name Value : Type*) where
  entries : List (Name × Value)
  nodup : (entries.map Prod.fst).Nodup

namespace OrderedDict

variable {Name Value : Type*}

def empty : OrderedDict Name Value := ⟨[], List.nodup_nil⟩

def names (dict : OrderedDict Name Value) : List Name := dict.entries.map Prod.fst

def values (dict : OrderedDict Name Value) : List Value := dict.entries.map Prod.snd

theorem mem_names_of_mem {dict : OrderedDict Name Value} {entry : Name × Value}
    (member : entry ∈ dict.entries) : entry.1 ∈ dict.names :=
  List.mem_map_of_mem member

/-- A name has one value. -/
theorem eq_of_mem {dict : OrderedDict Name Value} {name : Name} {value other : Value}
    (here : (name, value) ∈ dict.entries) (there : (name, other) ∈ dict.entries) :
    value = other :=
  congrArg Prod.snd (List.inj_on_of_nodup_map dict.nodup here there rfl)

variable [DecidableEq Name]

def find (dict : OrderedDict Name Value) (name : Name) : Option Value :=
  (dict.entries.find? fun entry => entry.1 = name).map Prod.snd

def erase (dict : OrderedDict Name Value) (name : Name) : OrderedDict Name Value where
  entries := dict.entries.filter fun entry => entry.1 ≠ name
  nodup := dict.nodup.sublist (List.filter_sublist.map _)

/-- `dict[name] = value`. -/
def insert (dict : OrderedDict Name Value) (name : Name) (value : Value) :
    OrderedDict Name Value :=
  if present : name ∈ dict.names then
    { entries := dict.entries.map fun entry => if entry.1 = name then (name, value) else entry
      nodup := by
        have same : (dict.entries.map fun entry =>
            if entry.1 = name then (name, value) else entry).map Prod.fst =
              dict.entries.map Prod.fst := by
          rw [List.map_map]
          apply List.map_congr_left
          intro entry _
          by_cases here : entry.1 = name <;> simp [here]
        rw [same]
        exact dict.nodup }
  else
    { entries := dict.entries ++ [(name, value)]
      nodup := by
        rw [List.map_append, List.map_singleton]
        exact dict.nodup.append (List.nodup_singleton name) (by simpa [names] using present) }

/-- Set the entries of a list one after the other. -/
def insertAll (dict : OrderedDict Name Value) (entries : List (Name × Value)) :
    OrderedDict Name Value :=
  entries.foldl (fun dict entry => dict.insert entry.1 entry.2) dict

@[simp] theorem entries_erase (dict : OrderedDict Name Value) (name : Name) :
    (dict.erase name).entries = dict.entries.filter fun entry => entry.1 ≠ name := rfl

theorem entries_insert_of_notMem {dict : OrderedDict Name Value} {name : Name}
    (absent : name ∉ dict.names) (value : Value) :
    (dict.insert name value).entries = dict.entries ++ [(name, value)] := by
  rw [insert, dif_neg absent]

theorem find_eq_some_iff {dict : OrderedDict Name Value} {name : Name} {value : Value} :
    dict.find name = some value ↔ (name, value) ∈ dict.entries := by
  rw [find, Option.map_eq_some_iff]
  constructor
  · rintro ⟨⟨found, _⟩, here, rfl⟩
    have same : found = name := by simpa using List.find?_some here
    subst same
    exact List.mem_of_find?_eq_some here
  · intro member
    have some : (dict.entries.find? fun entry => entry.1 = name).isSome :=
      List.find?_isSome.mpr ⟨_, member, by simp⟩
    obtain ⟨⟨found, other⟩, here⟩ := Option.isSome_iff_exists.mp some
    have same : found = name := by simpa using List.find?_some here
    subst same
    exact ⟨_, here, eq_of_mem (List.mem_of_find?_eq_some here) member⟩

theorem find_eq_none_iff {dict : OrderedDict Name Value} {name : Name} :
    dict.find name = none ↔ name ∉ dict.names := by
  rw [find, Option.map_eq_none_iff, List.find?_eq_none, names, List.mem_map]
  constructor
  · intro others ⟨entry, member, same⟩
    exact others entry member (decide_eq_true same)
  · intro absent entry member same
    exact absent ⟨entry, member, of_decide_eq_true same⟩

theorem mem_erase {dict : OrderedDict Name Value} {name : Name} {entry : Name × Value} :
    entry ∈ (dict.erase name).entries ↔ entry ∈ dict.entries ∧ entry.1 ≠ name := by
  simp [List.mem_filter]

theorem erase_of_notMem {dict : OrderedDict Name Value} {name : Name}
    (absent : name ∉ dict.names) : dict.erase name = dict := by
  apply OrderedDict.ext
  rw [entries_erase, List.filter_eq_self]
  intro entry member
  exact decide_eq_true fun named => absent (named ▸ mem_names_of_mem member)

theorem names_erase (dict : OrderedDict Name Value) (name : Name) :
    (dict.erase name).names = dict.names.filter (· ≠ name) := by
  rw [names, names, entries_erase, List.filter_map]
  rfl

theorem find_erase_self (dict : OrderedDict Name Value) (name : Name) :
    (dict.erase name).find name = none := by
  rw [find_eq_none_iff, names_erase]
  simp

theorem find_erase_of_ne {dict : OrderedDict Name Value} {name other : Name}
    (differ : other ≠ name) : (dict.erase name).find other = dict.find other := by
  apply Option.ext
  intro value
  rw [find_eq_some_iff, find_eq_some_iff, mem_erase]
  exact and_iff_left differ

theorem find_insert_self (dict : OrderedDict Name Value) (name : Name) (value : Value) :
    (dict.insert name value).find name = some value := by
  rw [find_eq_some_iff]
  by_cases present : name ∈ dict.names
  · rw [insert, dif_pos present]
    obtain ⟨entry, member, named⟩ := List.mem_map.mp present
    exact List.mem_map.mpr ⟨entry, member, if_pos named⟩
  · rw [entries_insert_of_notMem present]
    exact List.mem_append_right _ (List.mem_singleton_self _)

theorem mem_names_insert {dict : OrderedDict Name Value} {name other : Name} {value : Value}
    (member : other ∈ (dict.insert name value).names) : other = name ∨ other ∈ dict.names := by
  by_cases present : name ∈ dict.names
  · rw [insert, dif_pos present] at member
    obtain ⟨entry, replaced, rfl⟩ := List.mem_map.mp member
    obtain ⟨old, inside, rfl⟩ := List.mem_map.mp replaced
    split
    · exact .inl rfl
    · exact .inr (mem_names_of_mem inside)
  · rw [names, entries_insert_of_notMem present, List.map_append, List.mem_append,
      List.map_singleton, List.mem_singleton] at member
    exact member.symm

/-- Erasing a name takes exactly its entry out. -/
theorem perm_erase {dict : OrderedDict Name Value} {name : Name} {value : Value}
    (here : dict.find name = some value) :
    dict.entries.Perm ((name, value) :: (dict.erase name).entries) := by
  have nodup := List.Nodup.of_map _ dict.nodup
  have nodupErased := List.Nodup.of_map _ (dict.erase name).nodup
  have absent : (name, value) ∉ (dict.erase name).entries := fun member =>
    (mem_erase.mp member).2 rfl
  rw [List.perm_ext_iff_of_nodup nodup (List.nodup_cons.mpr ⟨absent, nodupErased⟩)]
  intro entry
  rw [List.mem_cons, mem_erase]
  constructor
  · intro member
    by_cases same : entry.1 = name
    · obtain ⟨found, other⟩ := entry
      obtain rfl : found = name := same
      exact .inl (congrArg _ (eq_of_mem member (find_eq_some_iff.mp here)))
    · exact .inr ⟨member, same⟩
  · rintro (rfl | kept)
    · exact find_eq_some_iff.mp here
    · exact kept.1

/-- New names go to the end, in their order. -/
theorem entries_insertAll {entries : List (Name × Value)} (nodup : (entries.map Prod.fst).Nodup)
    {dict : OrderedDict Name Value} (apart : ∀ entry ∈ entries, entry.1 ∉ dict.names) :
    (dict.insertAll entries).entries = dict.entries ++ entries := by
  induction entries generalizing dict with
  | nil => exact (List.append_nil _).symm
  | cons entry entries ih =>
      rw [List.map_cons, List.nodup_cons] at nodup
      have grown := entries_insert_of_notMem (apart entry List.mem_cons_self) entry.2
      have further : ∀ other ∈ entries, other.1 ∉ (dict.insert entry.1 entry.2).names := by
        intro other member
        rw [names, grown, List.map_append, List.mem_append, List.map_singleton,
          List.mem_singleton, not_or]
        exact ⟨apart other (List.mem_cons_of_mem _ member),
          fun same => nodup.1 (same ▸ List.mem_map_of_mem member)⟩
      rw [insertAll, List.foldl_cons, ← insertAll, ih nodup.2 further, grown, List.append_assoc]
      rfl

end OrderedDict

end LMCacheHcu
