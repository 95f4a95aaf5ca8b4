import LMCacheHcu.Foundation.RankedIndex
import LMCacheHcu.Gds.SidecarContainment

/-! # Runs of the GDS scan

Each file describes a record or none, and the index admits the records: one from a
block-first file has the higher rank. As long as no thread stops, the index of a
run holds the highest records that the visited files describe.
-/

namespace LMCacheHcu.Gds

open Storage Exceptions Python Text RankedIndex
open Restart (Visit)

variable {Key F Format : Type}

/-- Block-first entries have the higher rank. -/
def DiskCacheMetadata.rank (entry : DiskCacheMetadata F Format) : Bool := entry.diskMetadata.isSome

namespace GdsBackend

variable (backend : GdsBackend Key F Format)

/-- The key and the entry that a visited file describes. -/
def record (visit : Visit) : Option (Key × DiskCacheMetadata F Format) :=
  if visit.l1Dir.length = 2 ∧ visit.l2Dir.length = 2 then
    match backend.classify visit.name with
    | .blockFirst =>
        if backend.blockFirstEnabled then
          match backend.keyOfBlockFirst visit.name,
            backend.blockFirstEntry (backend.visitPath visit) visit.content with
          | some key, .ok entry => some (key, entry)
          | _, _ => none
        else none
    | .sidecar =>
        match backend.keyOfSidecar visit.name,
          sidecarEntry backend.sidecar (backend.visitPath visit) visit.content with
        | some key, .ok entry => some (key, entry)
        | _, _ => none
    | .other => none
  else none

end GdsBackend

variable {backend : GdsBackend Key F Format}

theorem rank_of_sidecar {filename : Text} {content : List Byte}
    {entry : DiskCacheMetadata F Format}
    (read : sidecarEntry backend.sidecar filename content = .ok entry) : entry.rank = false := by
  obtain ⟨_, _, _, _, _, rfl⟩ := sidecarEntry_ok.mp read
  rfl

theorem rank_of_blockFirst {filename : Text} {content : List Byte}
    {entry : DiskCacheMetadata F Format}
    (read : backend.blockFirstEntry filename content = .ok entry) : entry.rank = true := by
  unfold GdsBackend.blockFirstEntry at read
  rw [Checked.bind_ok] at read
  obtain ⟨metadata, -, read⟩ := read
  unfold formatError at read
  rw [Checked.check_ok] at read
  obtain ⟨-, read⟩ := read
  split at read
  · simp only [Checked.bind_ok, Checked.check_ok, Checked.return_ok] at read
    obtain ⟨_, -, _, -, _, -, -, _, -, _, -, rfl⟩ := read
    rfl
  · cases read

variable [DecidableEq Key] {cache : HotCache Key F Format} {key : Key} {subdirKey : Text}
  {entry : DiskCacheMetadata F Format}

/-- A block-first entry is admitted. -/
theorem find_put_eq_offer (blockFirst : entry.rank = true) :
    (cache.put key subdirKey entry).find = offer DiskCacheMetadata.rank cache.find (key, entry) := by
  funext other
  by_cases same : other = key
  · subst same
    unfold offer
    rw [HotCache.find_put, Function.update_self]
    cases cache.find other with
    | none => rfl
    | some held =>
        dsimp only
        rw [blockFirst, if_neg (not_lt.mpr (Bool.le_true _))]
  · rw [HotCache.find_put_of_ne _ same, offer_of_ne same]

/-- A legacy entry is admitted. -/
theorem find_putLegacy_eq_offer (legacy : entry.rank = false) :
    (cache.putLegacy key subdirKey entry).1.find =
      offer DiskCacheMetadata.rank cache.find (key, entry) := by
  funext other
  rcases cache.putLegacy_cases key subdirKey entry with
    ⟨previous, found, blockFirst, same⟩ | ⟨replaced, same⟩
  · rw [same]
    by_cases here : other = key
    · subst here
      have above : entry.rank < previous.rank := by
        rw [legacy, show previous.rank = true from blockFirst]
        decide
      unfold offer
      rw [Function.update_self, found]
      dsimp only
      rw [if_pos above]
    · rw [offer_of_ne here]
  · rw [same]
    by_cases here : other = key
    · subst here
      unfold offer
      rw [HotCache.find_put, Function.update_self]
      cases found : cache.find other with
      | none => rfl
      | some held =>
          dsimp only
          rw [show held.rank = false from replaced held found, legacy, if_neg (lt_irrefl _)]
    · rw [HotCache.find_put_of_ne _ here, offer_of_ne here]

/-- The index after one visit whose thread is running. -/
theorem find_scanVisit {state : ScanState Key F Format} {visit : Visit}
    (running : visit.l1Dir ∉ state.stopped) :
    (backend.scanVisit state visit).cache.find =
      match backend.record visit with
      | some record => offer DiskCacheMetadata.rank state.cache.find record
      | none => state.cache.find := by
  have after {Declared : Type} (handled : Builtin → Bool)
      (read : HotCache Key F Format × Except (Raised Declared) (DiskCacheMetadata F Format)) :
      (GdsBackend.afterRead handled state visit read).cache = read.1 := by
    unfold GdsBackend.afterRead
    split
    · split <;> rfl
    · rfl
  unfold GdsBackend.scanVisit GdsBackend.record
  rw [if_neg running]
  by_cases dirs : visit.l1Dir.length = 2 ∧ visit.l2Dir.length = 2
  · rw [if_pos dirs, if_pos dirs]
    unfold GdsBackend.scanFile
    cases class' : backend.classify visit.name with
    | other => rfl
    | blockFirst =>
        dsimp only
        by_cases enabled : backend.blockFirstEnabled = true
        · rw [if_pos enabled, if_pos enabled]
          cases named : backend.keyOfBlockFirst visit.name with
          | none => rfl
          | some key =>
              dsimp only
              rw [after]
              unfold GdsBackend.readBlockFirstMetadata
              cases read : backend.blockFirstEntry (backend.visitPath visit) visit.content with
              | error failure => rfl
              | ok entry => exact find_put_eq_offer (rank_of_blockFirst read)
        · rw [if_neg enabled, if_neg enabled]
    | sidecar =>
        dsimp only
        cases named : backend.keyOfSidecar visit.name with
        | none => rfl
        | some key =>
            dsimp only
            rw [after]
            unfold readMetadata
            cases read : sidecarEntry backend.sidecar (backend.visitPath visit) visit.content with
            | error failure => rfl
            | ok entry => exact find_putLegacy_eq_offer (rank_of_sidecar read)
  · rw [if_neg dirs, if_neg dirs]

/-- No thread stops at the file. -/
def GdsBackend.Quiet (backend : GdsBackend Key F Format) (visit : Visit) : Prop :=
  ∀ state : ScanState Key F Format, (backend.scanVisit state visit).stopped = state.stopped

/-- **The index of a run.** Of quiet files it holds the highest records. -/
theorem isMax_scanMetadata {visits : List Visit} (quiet : ∀ visit ∈ visits, backend.Quiet visit)
    {records : List (Key × DiskCacheMetadata F Format)} {state : ScanState Key F Format}
    (running : state.stopped = []) (isMax : IsMax DiskCacheMetadata.rank records state.cache.find) :
    IsMax DiskCacheMetadata.rank ((visits.filterMap backend.record).reverse ++ records)
      (backend.scanMetadata state visits).cache.find := by
  induction visits generalizing records state with
  | nil => exact isMax
  | cons visit visits ih =>
      have going : visit.l1Dir ∉ state.stopped := by
        rw [running]
        exact List.not_mem_nil
      have find : (backend.scanVisit state visit).cache.find = _ := find_scanVisit going
      have running := (quiet visit List.mem_cons_self state).trans running
      have later := fun other member => quiet other (List.mem_cons_of_mem visit member)
      cases found : backend.record visit with
      | none =>
          rw [found] at find
          rw [List.filterMap_cons_none found]
          exact ih later running (find ▸ isMax)
      | some record =>
          rw [found] at find
          rw [List.filterMap_cons_some found, List.reverse_cons, List.append_assoc]
          exact ih later running (find ▸ isMax.offer record)

end LMCacheHcu.Gds
