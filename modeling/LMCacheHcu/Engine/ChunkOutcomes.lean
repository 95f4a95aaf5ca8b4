import LMCacheHcu.Engine.ProcessTokens
import Mathlib.Data.List.Perm.Basic

/-! # What a location's answers amount to

The direct results and the fallback objects of one location are two lists that
the code walks with two cursors. Paired up they say, block by block, whether
the block was transferred directly, loaded into an object or not found. The
loops of `_process_tokens_internal` then read: keep the blocks before the first
missing one, remember where that one starts, release the objects after it.
-/

namespace LMCacheHcu.Engine

/-- The fate of one block at its location. -/
inductive Outcome (Obj : Type)
  | direct
  | loaded (memoryObj : Obj)
  | missing
deriving DecidableEq, Repr

def Outcome.found {Obj : Type} : Outcome Obj → Bool
  | .missing => false
  | _ => true

@[simp] theorem Outcome.found_direct {Obj : Type} : (direct : Outcome Obj).found = true := rfl

@[simp] theorem Outcome.found_loaded {Obj : Type} (memoryObj : Obj) :
    (loaded memoryObj).found = true := rfl

@[simp] theorem Outcome.found_missing {Obj : Type} : (missing : Outcome Obj).found = false := rfl

variable {Location Key Obj : Type}

/-- The blocks of one location with their outcomes, in order. -/
abbrev BlockOutcomes (Key Obj : Type) := List (ChunkInfo Key × Outcome Obj)

/-- Pair every block that fell back with its fallback object. -/
def pairOutcomes : List (ChunkInfo Key × Bool) → List (Option Obj) → BlockOutcomes Key Obj
  | [], _ => []
  | (chunk, true) :: more, objs => (chunk, .direct) :: pairOutcomes more objs
  | (chunk, false) :: more, none :: objs => (chunk, .missing) :: pairOutcomes more objs
  | (chunk, false) :: more, some memoryObj :: objs =>
      (chunk, .loaded memoryObj) :: pairOutcomes more objs
  | (_, false) :: _, [] => []

def locationOutcomes (manager : StorageManager Location Key Obj)
    (entry : Location × List (ChunkInfo Key)) : BlockOutcomes Key Obj :=
  pairOutcomes (entry.2.zip (directResults manager entry.1 entry.2))
    (fallbackMemoryObjs manager entry.1 entry.2)

/-- The blocks before the location's first missing one. -/
def obtained (outcomes : BlockOutcomes Key Obj) : BlockOutcomes Key Obj :=
  outcomes.takeWhile fun entry => entry.2.found

/-- The blocks from the location's first missing one on. -/
def unread (outcomes : BlockOutcomes Key Obj) : BlockOutcomes Key Obj :=
  outcomes.dropWhile fun entry => entry.2.found

def firstMissing (outcomes : BlockOutcomes Key Obj) : Option (ChunkInfo Key) :=
  (unread outcomes).head?.map Prod.fst

/-- The chunk of an entry with the object that holds it, when there is one. -/
def loadedChunk (entry : ChunkInfo Key × Outcome Obj) : Option (ProcessedChunk Key Obj) :=
  match entry.2 with
  | .loaded memoryObj => some ⟨entry.1.key, memoryObj, entry.1.start, entry.1.stop⟩
  | _ => none

@[simp] theorem loadedChunk_direct (chunk : ChunkInfo Key) :
    loadedChunk (chunk, (.direct : Outcome Obj)) = none := rfl

@[simp] theorem loadedChunk_missing (chunk : ChunkInfo Key) :
    loadedChunk (chunk, (.missing : Outcome Obj)) = none := rfl

@[simp] theorem loadedChunk_loaded (chunk : ChunkInfo Key) (memoryObj : Obj) :
    loadedChunk (chunk, .loaded memoryObj) =
      some ⟨chunk.key, memoryObj, chunk.start, chunk.stop⟩ := rfl

def loadedObjs (outcomes : BlockOutcomes Key Obj) : List Obj :=
  (outcomes.filterMap loadedChunk).map ProcessedChunk.memoryObj

/-- The bytes that a retrieve counts for one obtained block. -/
def entryBytes (sizes : KvSizes Obj) (entry : ChunkInfo Key × Outcome Obj) : Nat :=
  match entry.2 with
  | .direct => sizes.tokenBytes (entry.1.stop - entry.1.start)
  | .loaded memoryObj => sizes.getSize memoryObj
  | .missing => 0

/-- The marks that a list of obtained blocks leaves in a mask. -/
def markAll (mask : List Bool) (outcomes : BlockOutcomes Key Obj) : List Bool :=
  outcomes.foldl (fun mask entry => RangeMask.fillRange mask entry.1.start entry.1.stop true) mask

/-- The effect of one location on the local variables. -/
def settle (sizes : KvSizes Obj) (progress : Progress Key Obj)
    (outcomes : BlockOutcomes Key Obj) : Progress Key Obj where
  retMask := markAll progress.retMask (obtained outcomes)
  reorderedChunks := progress.reorderedChunks ++ (obtained outcomes).filterMap loadedChunk
  totKvSize := progress.totKvSize + ((obtained outcomes).map (entryBytes sizes)).sum
  lastFailedBlockStart :=
    match firstMissing outcomes with
    | none => progress.lastFailedBlockStart
    | some chunk => laterFailure progress.lastFailedBlockStart chunk.start
  released := progress.released ++ loadedObjs (unread outcomes)

/-! ### One location -/

theorem pairOutcomes_chunks : ∀ (pairs : List (ChunkInfo Key × Bool)) (objs : List (Option Obj)),
    objs.length = (pairs.filter fun pair => !pair.2).length →
      (pairOutcomes pairs objs).map Prod.fst = pairs.map Prod.fst
  | [], _, _ => by simp only [pairOutcomes, List.map_nil]
  | (chunk, true) :: more, objs, aligned => by
      simp only [pairOutcomes, List.map_cons]
      rw [pairOutcomes_chunks more objs (by simpa using aligned)]
  | (chunk, false) :: more, none :: objs, aligned => by
      simp only [pairOutcomes, List.map_cons]
      rw [pairOutcomes_chunks more objs (by simpa using aligned)]
  | (chunk, false) :: more, some memoryObj :: objs, aligned => by
      simp only [pairOutcomes, List.map_cons]
      rw [pairOutcomes_chunks more objs (by simpa using aligned)]
  | (chunk, false) :: more, [], aligned => by simp at aligned

theorem pairOutcomes_loadedObjs :
    ∀ (pairs : List (ChunkInfo Key × Bool)) (objs : List (Option Obj)),
      objs.length = (pairs.filter fun pair => !pair.2).length →
        loadedObjs (pairOutcomes pairs objs) = objs.filterMap id
  | [], objs, aligned => by
      have empty : objs = [] := List.length_eq_zero_iff.mp (by simpa using aligned)
      subst empty
      rfl
  | (chunk, true) :: more, objs, aligned => by
      rw [← pairOutcomes_loadedObjs more objs (by simpa using aligned)]
      rfl
  | (chunk, false) :: more, none :: objs, aligned => by
      have tail := pairOutcomes_loadedObjs more objs (by simpa using aligned)
      simpa [pairOutcomes, loadedObjs, List.filterMap_cons] using tail
  | (chunk, false) :: more, some memoryObj :: objs, aligned => by
      have tail := pairOutcomes_loadedObjs more objs (by simpa using aligned)
      simpa [pairOutcomes, loadedObjs, List.filterMap_cons] using tail
  | (chunk, false) :: more, [], aligned => by simp at aligned

/-- The inner loop settles its blocks up to the first missing one and hands
back exactly the objects after it. -/
theorem scanBlocks_eq (sizes : KvSizes Obj) :
    ∀ (pairs : List (ChunkInfo Key × Bool)) (objs : List (Option Obj))
      (progress : Progress Key Obj),
      objs.length = (pairs.filter fun pair => !pair.2).length →
        ∃ rest, scanBlocks sizes pairs objs progress =
            .ok ({ settle sizes progress (pairOutcomes pairs objs) with
              released := progress.released }, rest) ∧
          rest.filterMap id = loadedObjs (unread (pairOutcomes pairs objs)) := by
  intro pairs
  induction pairs with
  | nil =>
      intro objs progress aligned
      have empty : objs = [] := List.length_eq_zero_iff.mp (by simpa using aligned)
      subst empty
      exact ⟨[], by simp [scanBlocks, settle, pairOutcomes, obtained, unread, firstMissing,
        markAll], rfl⟩
  | cons pair more ih =>
      obtain ⟨chunk, direct⟩ := pair
      intro objs progress aligned
      cases direct with
      | true =>
          obtain ⟨rest, ran, left⟩ := ih objs
            { progress with
              totKvSize := progress.totKvSize + sizes.tokenBytes (chunk.stop - chunk.start)
              retMask := RangeMask.fillRange progress.retMask chunk.start chunk.stop true }
            (by simpa using aligned)
          refine ⟨rest, ?_, by simpa [pairOutcomes, unread, List.dropWhile_cons] using left⟩
          rw [scanBlocks, ran]
          simp [settle, pairOutcomes, obtained, unread, firstMissing, markAll, entryBytes,
            List.filterMap_cons, List.takeWhile_cons, List.dropWhile_cons, Nat.add_assoc]
      | false =>
          cases objs with
          | nil => simp at aligned
          | cons answer objs =>
              cases answer with
              | none =>
                  -- the loop leaves here, so nothing after the block is looked at
                  refine ⟨objs, ?_, ?_⟩
                  · simp [scanBlocks, settle, pairOutcomes, obtained, unread, firstMissing,
                      markAll]
                  · have tail := pairOutcomes_loadedObjs more objs (by simpa using aligned)
                    simpa [pairOutcomes, unread, loadedObjs, List.dropWhile_cons,
                      List.filterMap_cons] using tail.symm
              | some memoryObj =>
                  obtain ⟨rest, ran, left⟩ := ih objs
                    { progress with
                      reorderedChunks := progress.reorderedChunks ++
                        [⟨chunk.key, memoryObj, chunk.start, chunk.stop⟩]
                      totKvSize := progress.totKvSize + sizes.getSize memoryObj
                      retMask :=
                        RangeMask.fillRange progress.retMask chunk.start chunk.stop true }
                    (by simpa using aligned)
                  refine ⟨rest, ?_, by
                    simpa [pairOutcomes, unread, List.dropWhile_cons] using left⟩
                  rw [scanBlocks, ran]
                  simp [settle, pairOutcomes, obtained, unread, firstMissing, markAll,
                    entryBytes, List.takeWhile_cons, List.dropWhile_cons, Nat.add_assoc]

theorem length_directResults (manager : StorageManager Location Key Obj) (location : Location)
    (blocks : List (ChunkInfo Key)) :
    (directResults manager location blocks).length = blocks.length := by
  unfold directResults
  split
  · exact manager.direct_aligned location blocks
  · exact List.length_replicate

theorem length_fallbackMemoryObjs (manager : StorageManager Location Key Obj)
    (location : Location) (blocks : List (ChunkInfo Key)) :
    (fallbackMemoryObjs manager location blocks).length =
      ((blocks.zip (directResults manager location blocks)).filter fun pair => !pair.2).length := by
  unfold fallbackMemoryObjs fallbackBlocks
  simp only
  split
  · rename_i empty
    rw [List.isEmpty_iff, List.map_eq_nil_iff] at empty
    rw [empty]
    rfl
  · rw [manager.get_aligned, List.length_map, List.length_map]

theorem locationOutcomes_chunks (manager : StorageManager Location Key Obj)
    (entry : Location × List (ChunkInfo Key)) :
    (locationOutcomes manager entry).map Prod.fst = entry.2 := by
  rw [locationOutcomes, pairOutcomes_chunks _ _ (length_fallbackMemoryObjs manager _ _)]
  exact List.map_fst_zip (length_directResults manager _ _).ge

theorem locationOutcomes_loadedObjs (manager : StorageManager Location Key Obj)
    (entry : Location × List (ChunkInfo Key)) :
    loadedObjs (locationOutcomes manager entry) =
      (fallbackMemoryObjs manager entry.1 entry.2).filterMap id :=
  pairOutcomes_loadedObjs _ _ (length_fallbackMemoryObjs manager _ _)

theorem processLocation_eq (sizes : KvSizes Obj) (manager : StorageManager Location Key Obj)
    (progress : Progress Key Obj) (entry : Location × List (ChunkInfo Key)) :
    processLocation sizes manager progress entry =
      .ok (settle sizes progress (locationOutcomes manager entry)) := by
  obtain ⟨rest, ran, left⟩ := scanBlocks_eq sizes
    (entry.2.zip (directResults manager entry.1 entry.2))
    (fallbackMemoryObjs manager entry.1 entry.2) progress
    (length_fallbackMemoryObjs manager entry.1 entry.2)
  have aligned : ¬ entry.2.length ≠ (directResults manager entry.1 entry.2).length := by
    rw [length_directResults]
    exact fun different => different rfl
  simp only [processLocation, aligned, ↓reduceIte, ran]
  change Except.ok _ = _
  rw [left]
  rfl

/-! ### All locations -/

theorem processLocations_eq (sizes : KvSizes Obj) (manager : StorageManager Location Key Obj)
    (mapping : List (Location × List (ChunkInfo Key))) (progress : Progress Key Obj) :
    mapping.foldlM (processLocation sizes manager) progress =
      .ok ((mapping.map (locationOutcomes manager)).foldl (settle sizes) progress) := by
  induction mapping generalizing progress with
  | nil => rfl
  | cons entry mapping ih =>
      rw [List.foldlM_cons, processLocation_eq]
      exact ih _

/-- The first missing block of every location that has one. -/
def failures (locations : List (BlockOutcomes Key Obj)) : List (ChunkInfo Key) :=
  locations.filterMap firstMissing

section Fold

variable (sizes : KvSizes Obj) (locations : List (BlockOutcomes Key Obj))
  (progress : Progress Key Obj)

theorem foldl_settle_retMask :
    (locations.foldl (settle sizes) progress).retMask =
      markAll progress.retMask (locations.flatMap obtained) := by
  induction locations generalizing progress with
  | nil => rfl
  | cons outcomes locations ih =>
      rw [List.foldl_cons, ih, List.flatMap_cons]
      simp only [settle, markAll, List.foldl_append]

theorem foldl_settle_reorderedChunks :
    (locations.foldl (settle sizes) progress).reorderedChunks =
      progress.reorderedChunks ++ (locations.flatMap obtained).filterMap loadedChunk := by
  induction locations generalizing progress with
  | nil => simp
  | cons outcomes locations ih =>
      rw [List.foldl_cons, ih]
      simp only [settle, List.flatMap_cons, List.filterMap_append, List.append_assoc]

theorem foldl_settle_released :
    (locations.foldl (settle sizes) progress).released =
      progress.released ++ locations.flatMap fun outcomes => loadedObjs (unread outcomes) := by
  induction locations generalizing progress with
  | nil => simp
  | cons outcomes locations ih =>
      rw [List.foldl_cons, ih]
      simp only [settle, List.flatMap_cons, List.append_assoc]

theorem foldl_settle_lastFailed :
    (locations.foldl (settle sizes) progress).lastFailedBlockStart =
      ((failures locations).map ChunkInfo.start).foldl laterFailure
        progress.lastFailedBlockStart := by
  induction locations generalizing progress with
  | nil => rfl
  | cons outcomes locations ih =>
      rw [List.foldl_cons, ih]
      cases missing : firstMissing outcomes <;>
        simp [settle, failures, missing]

end Fold

/-- On increasing starts the latest failure is the last one. -/
theorem foldl_laterFailure (starts : List Nat) (increasing : starts.Pairwise (· < ·)) :
    starts.foldl laterFailure none = starts.getLast? := by
  induction starts using List.reverseRecOn with
  | nil => rfl
  | append_singleton front last ih =>
      rw [List.pairwise_append] at increasing
      rw [List.foldl_append, ih increasing.1, List.getLast?_concat]
      cases final : front.getLast? with
      | none => rfl
      | some previous =>
          have before : previous < last :=
            increasing.2.2 previous (List.mem_of_getLast? final) last (List.mem_singleton_self last)
          simp [laterFailure, before]

theorem markAll_true_iff (mask : List Bool) (outcomes : BlockOutcomes Key Obj) (token : Nat) :
    (markAll mask outcomes)[token]? = some true ↔
      mask[token]? = some true ∨ token < mask.length ∧
        ∃ entry ∈ outcomes, entry.1.start ≤ token ∧ token < entry.1.stop := by
  induction outcomes generalizing mask with
  | nil => simp [markAll]
  | cons entry outcomes ih =>
      change (markAll (RangeMask.fillRange mask entry.1.start entry.1.stop true)
        outcomes)[token]? = some true ↔ _
      rw [ih, RangeMask.fillRange_true_iff, RangeMask.length_fillRange]
      have inside : mask[token]? = some true → token < mask.length := fun marked =>
        (List.getElem?_eq_some_iff.mp marked).1
      simp only [List.mem_cons, exists_eq_or_imp]
      tauto

theorem length_markAll (mask : List Bool) (outcomes : BlockOutcomes Key Obj) :
    (markAll mask outcomes).length = mask.length := by
  induction outcomes generalizing mask with
  | nil => rfl
  | cons entry outcomes ih =>
      exact (ih _).trans (RangeMask.length_fillRange ..)

end LMCacheHcu.Engine
