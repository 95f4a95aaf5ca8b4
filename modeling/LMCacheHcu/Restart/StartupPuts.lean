import LMCacheHcu.Foundation.KeyedAccounts
import LMCacheHcu.Restart.Scan

/-! # Puts beside the startup scan

The scan of a new backend runs in threads of its own, and puts are accepted meanwhile.
Both change `hot_cache` and `current_cache_size` in short regions under `hot_lock`. A
run is the list of the visits of the scan and of the regions of the puts, in the order
in which they take the lock: the two readers and `insert_key` each have their own rule
for a key that is already there.
-/

namespace LMCacheHcu.Restart

open Storage Exceptions KeyedAccounts

/-! ### The regions of a put -/

section Regions

variable {Key M : Type} [DecidableEq Key]

namespace HotIndex

variable (index : HotIndex Key M)

/-- `current_cache_size += size`. -/
def charge (size : ℤ) : HotIndex Key M :=
  { index with currentCacheSize := index.currentCacheSize + size }

/-- `insert_key`: a key that is there keeps its entry, and nothing is credited. -/
def insertKey (key : Key) (entry : FileEntry M) : HotIndex Key M :=
  match index.find key with
  | some _ => index
  | none => { index with hotCache := index.hotCache.insert key entry }

/-- `_insert_direct_key`. -/
def insertDirectKey (key : Key) (entry : FileEntry M) : HotIndex Key M :=
  { index with hotCache := index.hotCache.insert key entry }

/-- `hot_cache.pop(key, None)`. -/
def discard (key : Key) : HotIndex Key M := { index with hotCache := index.hotCache.erase key }

/-- A round of the loop in `_eviction`, and `remove`: pop a key and credit its size. -/
def popCredit (key : Key) : HotIndex Key M := (index.discard key).charge (-index.sizeOf key)

variable {index}

@[simp] theorem find_charge (size : ℤ) (key : Key) : (index.charge size).find key = index.find key :=
  rfl

@[simp] theorem find_insertDirectKey (key : Key) (entry : FileEntry M) :
    (index.insertDirectKey key entry).find key = some entry :=
  AList.lookup_insert index.hotCache

theorem find_insertDirectKey_of_ne {key other : Key} (differ : other ≠ key) (entry : FileEntry M) :
    (index.insertDirectKey key entry).find other = index.find other :=
  AList.lookup_insert_ne differ

@[simp] theorem find_discard (key : Key) : (index.discard key).find key = none :=
  AList.lookup_erase _ _

theorem find_discard_of_ne {key other : Key} (differ : other ≠ key) :
    (index.discard key).find other = index.find other :=
  AList.lookup_erase_ne differ

end HotIndex

/-- What a put does under the lock. -/
inductive PutRegion (M : Type)
  /-- The reservation. The unlocked `+=` of a backend without a size limit counts as one
  region too. -/
  | reserve (size : ℤ)
  /-- Eviction for a put, or the removal of a legacy entry before a direct put. -/
  | pop
  | insertKey (entry : FileEntry M)
  /-- A direct put brings a block-first entry. -/
  | insertDirectKey (entry : FileEntry M) (layout : entry.diskMetadata.isSome = true)
  /-- The handler of a failed save in `_async_save_bytes_to_storage`. -/
  | undo (size : ℤ)
  /-- `_rollback_direct_store`. -/
  | rollback (size : ℤ)

namespace PutRegion

def run (key : Key) (index : HotIndex Key M) : PutRegion M → HotIndex Key M
  | reserve size => index.charge size
  | pop => index.popCredit key
  | insertKey entry => index.insertKey key entry
  | insertDirectKey entry _ => index.insertDirectKey key entry
  | undo size => (index.discard key).charge (-size)
  | rollback size => index.charge (-size)

/-- The entry that a region brings. -/
def entry : PutRegion M → Option (FileEntry M)
  | insertKey entry | insertDirectKey entry _ => some entry
  | _ => none

/-- What a region adds to the reservations that no entry has taken up. -/
def opens : PutRegion M → ℤ
  | reserve size => size
  | pop => 0
  | insertKey entry | insertDirectKey entry _ => -entry.size
  | undo size | rollback size => -size

end PutRegion

end Regions

/-! ### What a file says of itself -/

/-- What a visit of a file comes to. -/
inductive Finding (Key M : Type)
  | nothing
  | blockFirst (key : Key) (entry : FileEntry M)
  | legacy (key : Key) (entry : FileEntry M)
  /-- An exception that ends the thread. -/
  | stops

section Findings

variable {Key F : Type}

namespace Finding

/-- The result of a read of a file of the key. -/
def ofRead {Declared M : Type} (make : Key → FileEntry M → Finding Key M) (key : Key) :
    Except (Raised Declared) (FileEntry M) → Finding Key M
  | .ok entry => make key entry
  | .error (.builtin _) => .stops
  | .error (.declared _) => .nothing

/-- What the index makes of it. -/
def index {M : Type} [DecidableEq Key] (subdirKey : Text) (index : HotIndex Key M) :
    Finding Key M → HotIndex Key M
  | blockFirst key entry => index.put key subdirKey entry
  | legacy key entry => (index.putLegacy key subdirKey entry).1
  | nothing | stops => index

end Finding

namespace ScanBackend

variable (backend : ScanBackend Key F)

/-- What the visit of a file comes to, apart from its effect. -/
def finding (visit : Visit) : Finding Key (RawMetadata F) :=
  if visit.l1Dir.length = dirSize ∧ visit.l2Dir.length = dirSize then
    match classify visit.name with
    | .blockFirst =>
        if backend.blockFirstEnabled then
          match backend.ownKey blockFirstDataFileSuffix visit.name with
          | none => .nothing
          | some key => .ofRead .blockFirst key
              (backend.blockFirstEntry (backend.visitPath visit) visit.content)
        else .nothing
    | .sidecar =>
        match backend.ownKey (dataFileSuffix ++ metadataFileSuffix) visit.name with
        | none => .nothing
        | some key => .ofRead .legacy key
            (sidecarEntry backend.sidecar backend.xdsBuffer (backend.visitPath visit) visit.content)
    | .temporary | .data | .foreign => .nothing
  else .nothing

variable {backend} [DecidableEq Key]

/-- What follows a read, as a finding. -/
theorem afterRead_ofRead {Declared : Type} {make : Key → FileEntry (RawMetadata F) →
      Finding Key (RawMetadata F)} {key : Key} {state : ScanState Key F} {visit : Visit}
    {subdirKey : Text} {result returned : Except (Raised Declared) (FileEntry (RawMetadata F))}
    {index : HotIndex Key (RawMetadata F)}
    (read : (∃ entry other, result = .ok entry ∧ returned = .ok other ∧
        index = (make key entry).index subdirKey state.index) ∨
      ∃ failure, result = .error failure ∧ returned = .error failure ∧ index = state.index) :
    (afterRead state visit (index, returned)).index =
        (Finding.ofRead make key result).index subdirKey state.index ∧
      ((afterRead state visit (index, returned)).stopped = state.stopped ∨
        Finding.ofRead make key result = .stops ∧
          (afterRead state visit (index, returned)).stopped = visit.l1Dir :: state.stopped) := by
  rcases read with ⟨entry, other, rfl, rfl, rfl⟩ | ⟨failure, rfl, rfl, rfl⟩
  · exact ⟨rfl, .inl rfl⟩
  · cases failure with
    | declared error => exact ⟨rfl, .inl rfl⟩
    | builtin error => exact ⟨rfl, .inr ⟨rfl, rfl⟩⟩

/-- A visit of a thread that runs: the index takes the finding, and the thread stops
only where the finding says so. -/
theorem scanVisit_finding {state : ScanState Key F} {visit : Visit}
    (running : visit.l1Dir ∉ state.stopped) :
    (backend.scanVisit state visit).index =
        (backend.finding visit).index (visit.l1Dir ++ visit.l2Dir) state.index ∧
      ((backend.scanVisit state visit).stopped = state.stopped ∨
        backend.finding visit = .stops ∧
          (backend.scanVisit state visit).stopped = visit.l1Dir :: state.stopped) := by
  have idle : state.index = (Finding.nothing : Finding Key (RawMetadata F)).index
      (visit.l1Dir ++ visit.l2Dir) state.index := rfl
  unfold scanVisit finding
  rw [if_neg running]
  by_cases named : visit.l1Dir.length = dirSize ∧ visit.l2Dir.length = dirSize
  · rw [if_pos named, if_pos named]
    cases sort : classify visit.name with
    | blockFirst =>
        by_cases enabled : backend.blockFirstEnabled = true
        · rw [scanFile_blockFirst sort enabled]
          dsimp only
          rw [if_pos enabled]
          cases own : backend.ownKey blockFirstDataFileSuffix visit.name with
          | none => exact ⟨idle, .inl rfl⟩
          | some key =>
              rw [Option.elim_some, readBlockFirstMetadata]
              cases read : backend.blockFirstEntry (backend.visitPath visit) visit.content with
              | ok entry => exact afterRead_ofRead (.inl ⟨entry, entry, rfl, rfl, rfl⟩)
              | error failure => exact afterRead_ofRead (.inr ⟨failure, rfl, rfl, rfl⟩)
        · rw [scanFile, sort]
          dsimp only
          rw [if_neg enabled, if_neg enabled]
          exact ⟨idle, .inl rfl⟩
    | sidecar =>
        rw [scanFile_sidecar sort]
        dsimp only
        cases own : backend.ownKey (dataFileSuffix ++ metadataFileSuffix) visit.name with
        | none => exact ⟨idle, .inl rfl⟩
        | some key =>
            rw [Option.elim_some, readMetadata]
            cases read : sidecarEntry (M := RawMetadata F) backend.sidecar backend.xdsBuffer
                (backend.visitPath visit) visit.content with
            | ok entry => exact afterRead_ofRead (.inl ⟨entry, _, rfl, rfl, rfl⟩)
            | error failure => exact afterRead_ofRead (.inr ⟨failure, rfl, rfl, rfl⟩)
    | temporary | data | foreign =>
        rw [scanFile, sort]
        exact ⟨idle, .inl rfl⟩
  · rw [if_neg named, if_neg named]
    exact ⟨idle, .inl rfl⟩

end ScanBackend

end Findings

/-! ### Runs -/

/-- A thread of the scan comes to a file, or a put to one of its regions. -/
inductive StartupEvent (Key F : Type)
  | visit (visit : Visit)
  | put (key : Key) (region : PutRegion (RawMetadata F))

/-- What an event does to the entry of a key. -/
inductive KeyAction (M : Type)
  | blockFirst (entry : FileEntry M)
  | legacy (entry : FileEntry M)
  | put (region : PutRegion M)

/-- The size that an entry counts for. -/
def sizeOfEntry {M : Type} (value : Option (FileEntry M)) : ℤ :=
  (value.map FileEntry.size).getD 0

/-- What an action makes of the entry of its key, and of `current_cache_size`. -/
def KeyAction.effect {M : Type} : Effect (KeyAction M) (FileEntry M)
  | .blockFirst entry, value => (some entry, entry.size - sizeOfEntry value)
  | .legacy entry, value =>
      if value.any fun previous => previous.diskMetadata.isSome then (value, 0)
      else (some entry, entry.size - sizeOfEntry value)
  | .put (.reserve size), value => (value, size)
  | .put .pop, value => (none, -sizeOfEntry value)
  | .put (.insertKey entry), value => (some (value.getD entry), 0)
  | .put (.insertDirectKey entry _), _ => (some entry, 0)
  | .put (.undo size), _ => (none, -size)
  | .put (.rollback size), value => (value, -size)

namespace ScanBackend

variable {Key F : Type} (backend : ScanBackend Key F)

def acts : StartupEvent Key F → Option (Key × KeyAction (RawMetadata F))
  | .visit visit =>
      match backend.finding visit with
      | .blockFirst key entry => some (key, .blockFirst entry)
      | .legacy key entry => some (key, .legacy entry)
      | .nothing | .stops => none
  | .put key region => some (key, .put region)

variable [DecidableEq Key]

def startupStep (state : ScanState Key F) : StartupEvent Key F → ScanState Key F
  | .visit visit => backend.scanVisit state visit
  | .put key region => { state with index := region.run key state.index }

/-- A run of a new backend. -/
def startup (events : List (StartupEvent Key F)) : ScanState Key F :=
  events.foldl backend.startupStep ScanState.start

/-- A step on the index alone, as if every thread was running. -/
def indexStep (index : HotIndex Key (RawMetadata F)) :
    StartupEvent Key F → HotIndex Key (RawMetadata F)
  | .visit visit => (backend.finding visit).index (visit.l1Dir ++ visit.l2Dir) index
  | .put key region => region.run key index

variable {backend}

/-- An event acts on its key as the effect of its action says. -/
theorem indexStep_acted (index : HotIndex Key (RawMetadata F)) {event : StartupEvent Key F}
    {key : Key} {action : KeyAction (RawMetadata F)}
    (acted : backend.acts event = some (key, action)) :
    (backend.indexStep index event).find key = (action.effect (index.find key)).1 ∧
      (∀ other, other ≠ key → (backend.indexStep index event).find other = index.find other) ∧
      (backend.indexStep index event).currentCacheSize =
        index.currentCacheSize + (action.effect (index.find key)).2 := by
  have size : index.sizeOf key = sizeOfEntry (index.find key) := rfl
  cases event with
  | visit visit =>
      unfold indexStep
      unfold acts at acted
      dsimp only at acted ⊢
      cases finding : backend.finding visit with
      | nothing | stops =>
          rw [finding] at acted
          cases acted
      | blockFirst found entry =>
          rw [finding] at acted
          cases acted
          refine ⟨HotIndex.find_put .., fun other differ => HotIndex.find_put_of_ne _ differ .., ?_⟩
          simp only [Finding.index, HotIndex.put, KeyAction.effect, size]
          ring
      | legacy found entry =>
          rw [finding] at acted
          cases acted
          simp only [Finding.index, HotIndex.putLegacy, KeyAction.effect]
          cases present : index.find key with
          | none =>
              refine ⟨HotIndex.find_put .., fun other differ =>
                HotIndex.find_put_of_ne _ differ .., ?_⟩
              simp only [HotIndex.put, size, present, Option.any_none, Bool.false_eq_true, if_false]
              ring
          | some previous =>
              dsimp only
              by_cases blockFirst : previous.diskMetadata.isSome = true
              · simp [blockFirst, present]
              · rw [if_neg blockFirst, Option.any_some, if_neg blockFirst]
                refine ⟨HotIndex.find_put .., fun other differ =>
                  HotIndex.find_put_of_ne _ differ .., ?_⟩
                simp only [HotIndex.put, size, present]
                ring
  | put changed region =>
      cases acted
      unfold indexStep
      cases region with
      | reserve charged | rollback charged => exact ⟨rfl, fun _ _ => rfl, rfl⟩
      | pop =>
          exact ⟨HotIndex.find_discard key, fun _ differ => HotIndex.find_discard_of_ne differ, rfl⟩
      | undo charged =>
          exact ⟨HotIndex.find_discard key, fun _ differ => HotIndex.find_discard_of_ne differ, rfl⟩
      | insertDirectKey entry =>
          exact ⟨HotIndex.find_insertDirectKey key entry,
            fun _ differ => HotIndex.find_insertDirectKey_of_ne differ entry, (add_zero _).symm⟩
      | insertKey entry =>
          simp only [PutRegion.run, HotIndex.insertKey, KeyAction.effect, add_zero]
          cases present : index.find key with
          | none =>
              exact ⟨HotIndex.find_insertDirectKey key entry,
                fun _ differ => HotIndex.find_insertDirectKey_of_ne differ entry, rfl⟩
          | some previous => exact ⟨present, fun _ _ => rfl, rfl⟩

/-- An event that acts on no key changes nothing. -/
theorem indexStep_idle (index : HotIndex Key (RawMetadata F)) {event : StartupEvent Key F}
    (idle : backend.acts event = none) : backend.indexStep index event = index := by
  cases event with
  | visit visit =>
      unfold acts at idle
      unfold indexStep
      dsimp only at idle ⊢
      cases finding : backend.finding visit with
      | nothing | stops => rfl
      | blockFirst | legacy =>
          rw [finding] at idle
          cases idle
  | put => cases idle

variable (backend)

/-- The index as accounts of the keys. -/
def accounts : Accounts (HotIndex Key (RawMetadata F)) (StartupEvent Key F) Key
    (KeyAction (RawMetadata F)) (FileEntry (RawMetadata F)) where
  step := backend.indexStep
  value := HotIndex.find
  balance := HotIndex.currentCacheSize
  acts := backend.acts
  effect := KeyAction.effect
  value_idle index _ _ idle := by rw [indexStep_idle index idle]
  balance_idle index _ idle := by rw [indexStep_idle index idle]
  value_acted index _ _ _ acted := (indexStep_acted index acted).1
  value_other index _ _ _ other acted := (indexStep_acted index acted).2.1 other
  balance_acted index _ _ _ acted := (indexStep_acted index acted).2.2

end ScanBackend

end LMCacheHcu.Restart
