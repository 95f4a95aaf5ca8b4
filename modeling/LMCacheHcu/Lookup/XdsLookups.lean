import LMCacheHcu.Lookup.BlockMapping
import LMCacheHcu.Xds.State

/-! # Lookups of the XDS backend

The index of the XDS backend as a backend that pins, and a backend without
eviction beside it.
-/

namespace LMCacheHcu.Lookup

open LMCacheHcu.Xds

variable {Key Payload : Type} [DecidableEq Key]

/-- `batched_contains`: the loop of the interface over `contains`, up to the
first miss. -/
def containsXds (pin : Bool) : List Key → Shared Key Payload → Shared Key Payload × ℕ
  | [], shared => (shared, 0)
  | key :: keys, shared =>
      if (shared.find key).isSome then
        let rest := containsXds pin keys (if pin then shared.pin key else shared)
        (rest.1, rest.2 + 1)
      else (shared, 0)

/-- The pin count of a key, zero without an entry. -/
def pinCountXds (shared : Shared Key Payload) (key : Key) : ℤ :=
  ((shared.find key).map fun entry => entry.pinCount).getD 0

/-- What puts and evictions do to the index between lookups. -/
inductive XdsChange (Key : Type)
  | insertKey (key : Key) (info : EntryInfo Key)
  | evict (key : Key)

/-- Only entries that are not pinned are evicted. -/
def XdsChange.apply : XdsChange Key → Shared Key Payload → Shared Key Payload
  | .insertKey key info, shared => shared.insertKey key info
  | .evict key, shared =>
      if (shared.find key).any Entry.canEvict then (shared.popCredit key).untrack key else shared

theorem isSome_find_pin (shared : Shared Key Payload) (key other : Key) :
    ((shared.pin key).find other).isSome = (shared.find other).isSome := by
  rw [Shared.pin, Shared.find_addPins, Option.isSome_map]

theorem pinCountXds_addPins {shared : Shared Key Payload} {key : Key}
    (here : (shared.find key).isSome = true) (count : ℤ) (other : Key) :
    pinCountXds (shared.addPins key count) other =
      pinCountXds shared other + if key = other then count else 0 := by
  rw [pinCountXds, Shared.find_addPins, pinCountXds]
  by_cases same : key = other
  · subst same
    obtain ⟨entry, found⟩ := Option.isSome_iff_exists.mp here
    simp [found]
  · cases shared.find other <;> simp [same, Ne.symm same]

theorem containsXds_cons (pin : Bool) (key : Key) (keys : List Key) (shared : Shared Key Payload) :
    containsXds pin (key :: keys) shared =
      if (shared.find key).isSome then
        let rest := containsXds pin keys (if pin then shared.pin key else shared)
        (rest.1, rest.2 + 1)
      else (shared, 0) := rfl

theorem containsXds_le (pin : Bool) (keys : List Key) (shared : Shared Key Payload) :
    (containsXds pin keys shared).2 ≤ keys.length := by
  induction keys generalizing shared with
  | nil => exact Nat.le_refl 0
  | cons key keys ih =>
      rw [containsXds_cons]
      split
      · exact Nat.succ_le_succ (ih _)
      · exact Nat.zero_le _

/-- The hits depend on which keys have an entry. -/
theorem containsXds_congr (pin pin' : Bool) (keys : List Key) {shared other : Shared Key Payload}
    (same : ∀ key, (shared.find key).isSome = (other.find key).isSome) :
    (containsXds pin keys shared).2 = (containsXds pin' keys other).2 := by
  induction keys generalizing shared other with
  | nil => rfl
  | cons key keys ih =>
      simp only [containsXds_cons, same key]
      split
      · refine congrArg (· + 1) (ih fun later => ?_)
        cases pin <;> cases pin' <;> simp [isSome_find_pin, same]
      · rfl

theorem isSome_find_containsXds (pin : Bool) (keys : List Key) (shared : Shared Key Payload)
    (key : Key) : ((containsXds pin keys shared).1.find key).isSome = (shared.find key).isSome := by
  induction keys generalizing shared with
  | nil => rfl
  | cons first keys ih =>
      simp only [containsXds_cons]
      split
      · rw [ih]
        cases pin <;> simp [isSome_find_pin]
      · rfl

theorem pinCountXds_containsXds (pin : Bool) (keys : List Key) (shared : Shared Key Payload)
    (key : Key) :
    pinCountXds (containsXds pin keys shared).1 key = pinCountXds shared key +
      if pin then ((keys.take (containsXds pin keys shared).2).count key : ℤ) else 0 := by
  induction keys generalizing shared with
  | nil => cases pin <;> exact (add_zero _).symm
  | cons first keys ih =>
      simp only [containsXds_cons]
      split
      · rename_i here
        rw [ih]
        cases pin with
        | false => simp
        | true =>
            simp only [↓reduceIte, Shared.pin, pinCountXds_addPins here, List.take_succ_cons,
              List.count_cons]
            by_cases same : first = key <;> simp [same]
            ring
      · simp

theorem pinCountXds_apply (change : XdsChange Key) (shared : Shared Key Payload) (key : Key)
    (nonneg : 0 ≤ pinCountXds shared key) :
    pinCountXds (change.apply shared) key = pinCountXds shared key := by
  cases change with
  | insertKey inserted info =>
      rw [XdsChange.apply, Shared.insertKey]
      split
      · rfl
      · rename_i fresh
        rw [pinCountXds, Shared.find_index, pinCountXds]
        by_cases same : key = inserted
        · subst same
          simp only [Bool.not_eq_true, Option.isSome_eq_false_iff, Option.isNone_iff_eq_none]
            at fresh
          simp [fresh]
        · simp [same]
  | evict evicted =>
      rw [XdsChange.apply]
      split
      · rename_i free
        change pinCountXds (shared.popCredit evicted) key = _
        rw [pinCountXds, Shared.find_popCredit]
        by_cases same : key = evicted
        · subst same
          obtain ⟨entry, found, free⟩ := (Option.any_eq_true ..).mp free
          have unpinned : entry.pinCount ≤ 0 := of_decide_eq_true free
          simp only [pinCountXds, found, Option.map_some, Option.getD_some] at nonneg
          simp [pinCountXds, found, le_antisymm unpinned nonneg]
        · rw [if_neg same, pinCountXds]
      · rfl

/-- The XDS backend. -/
def xdsPinBackend : PinBackend Key (Shared Key Payload) (XdsChange Key) where
  batchedContains keys pin shared := containsXds pin keys shared
  unpin key shared := shared.unpin key
  change := XdsChange.apply
  pinCount := pinCountXds
  implementsPins := true
  hits_le keys pin shared := containsXds_le pin keys shared
  hits_pin keys pin shared := containsXds_congr pin false keys fun _ => rfl
  hits_after keys later pin shared :=
    containsXds_congr false false later (isSome_find_containsXds pin keys shared)
  pinCount_batchedContains keys pin shared key := by
    simpa using pinCountXds_containsXds pin keys shared key
  pinCount_unpin unpinned shared key pinned := by
    have here : (shared.find unpinned).isSome = true := by
      cases found : shared.find unpinned with
      | none => simp [pinCountXds, found] at pinned
      | some entry => rfl
    rw [Shared.unpin, pinCountXds_addPins here]
    split <;> ring
  pinCount_change := pinCountXds_apply
  pinCount_of_ignored _ _ ignored := by cases ignored

/-- A backend over the same index that has no eviction and ignores pins. -/
def unpinnedBackend : PinBackend Key (Shared Key Payload) (XdsChange Key) where
  batchedContains keys _ shared := containsXds false keys shared
  unpin _ shared := shared
  change := XdsChange.apply
  pinCount _ _ := 0
  implementsPins := false
  hits_le keys _ shared := containsXds_le false keys shared
  hits_pin _ _ _ := rfl
  hits_after keys later _ shared :=
    containsXds_congr false false later (isSome_find_containsXds false keys shared)
  pinCount_batchedContains _ _ _ _ := by simp
  pinCount_unpin _ _ _ pinned := absurd pinned (lt_irrefl 0)
  pinCount_change _ _ _ _ := rfl
  pinCount_of_ignored _ _ _ := rfl

end LMCacheHcu.Lookup
