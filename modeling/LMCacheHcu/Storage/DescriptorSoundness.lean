import LMCacheHcu.Storage.DescriptorChecks

/-! # Validated descriptors

What a reader of a descriptor relies on: the parts of the transfer cover the
declared logical blocks exactly once, stay inside the memory they name, and move
the declared tokens. Every descriptor that `validate` accepts has it.
-/

namespace LMCacheHcu.Storage

open Tilings

namespace DirectIODescriptor

variable (descriptor : DirectIODescriptor)

/-- The descriptor transfers the token: in the slots of its leading edge, or in
a block of one of its runs. -/
def Transfers (token : ℤ) : Prop :=
  (∃ edge, descriptor.leadingEdge = some edge ∧
    edge.logicalBlock * descriptor.blockSize + edge.tokenOffset ≤ token ∧
    token < edge.logicalBlock * descriptor.blockSize + edge.tokenOffset + edge.tokenCount) ∨
  ∃ run ∈ descriptor.runs, Contains DirectIOBlockRun.logicalBlockStart
    DirectIOBlockRun.logicalBlockStop (token / descriptor.blockSize) run

/-- A sound descriptor made of runs. -/
structure RunsSound : Prop where
  inOrder : descriptor.runs.Pairwise fun before after =>
    before.logicalBlockStop ≤ after.logicalBlockStart
  covered : CoversOnce DirectIOBlockRun.logicalBlockStart DirectIOBlockRun.logicalBlockStop
    descriptor.runs descriptor.logicalBlockStart
    (descriptor.logicalBlockStart + descriptor.logicalBlockCount)
  runInside : ∀ run ∈ descriptor.runs, 0 < run.blockCount ∧ 0 ≤ run.physicalBlockStart ∧
    (run.physicalBlockStart + run.blockCount) * descriptor.blockNbytes ≤
      descriptor.allocationNbytes
  edgeInside : ∀ edge, descriptor.leadingEdge = some edge → 0 ≤ edge.physicalBlock ∧
    (edge.physicalBlock + 1) * descriptor.blockNbytes ≤ descriptor.allocationNbytes ∧
    0 < edge.tokenOffset ∧ 0 < edge.tokenCount ∧
    edge.tokenOffset + edge.tokenCount = descriptor.blockSize
  tokens : ∀ token, descriptor.Transfers token ↔ descriptor.validTokenStart ≤ token ∧
    token < descriptor.validTokenStart + descriptor.validTokenCount

/-- A segment inside the allocation that it names, in whole units of 4 KiB. -/
structure SegmentInside (segment : DirectIOByteSegment) (allocation : DirectIOAllocation) :
    Prop where
  nonempty : 0 < segment.nbytes
  offset : 0 ≤ segment.allocationOffset
  fits : segment.allocationOffset + segment.nbytes ≤ allocation.nbytes
  device : allocation.device = descriptor.device
  aligned : blockFirstAlignment ∣ segment.fileOffset ∧
    blockFirstAlignment ∣ segment.allocationOffset ∧ blockFirstAlignment ∣ segment.nbytes
  base : 0 < allocation.base ∧ blockFirstAlignment ∣ allocation.base

/-- A sound descriptor made of byte segments. -/
structure SegmentsSound : Prop where
  covered : CoversOnce DirectIOByteSegment.fileOffset DirectIOByteSegment.fileStop
    descriptor.byteSegments (descriptor.blockOffset descriptor.logicalBlockStart)
    (descriptor.blockOffset (descriptor.logicalBlockStart + descriptor.logicalBlockCount))
  segmentInside : ∀ segment ∈ descriptor.byteSegments, 0 ≤ segment.allocationIndex ∧
    ∃ allocation, descriptor.allocations[segment.allocationIndex.toNat]? = some allocation ∧
      descriptor.SegmentInside segment allocation

variable {descriptor} {requireCuda : Bool}

/-! ### Runs -/

/-- Blocks up to the capacity lie inside the allocation. -/
theorem inside_of_le_capacity (positive : 0 < descriptor.blockNbytes) {stop : ℤ}
    (fits : stop ≤ descriptor.physicalBlockCapacity) :
    stop * descriptor.blockNbytes ≤ descriptor.allocationNbytes :=
  (Int.le_ediv_iff_mul_le positive).mp fits

/-- The tokens of the blocks of the runs. -/
theorem RunsValid.tokens_of_runs (valid : descriptor.RunsValid) (positive : 0 < descriptor.blockSize)
    (token : ℤ) :
    (∃ run ∈ descriptor.runs, Contains DirectIOBlockRun.logicalBlockStart
      DirectIOBlockRun.logicalBlockStop (token / descriptor.blockSize) run) ↔
      descriptor.logicalBlockStart * descriptor.blockSize ≤ token ∧
        token < (descriptor.logicalBlockStart + descriptor.logicalBlockCount) *
          descriptor.blockSize := by
  rw [valid.tiles.coversOnce.exists_contains_iff, Int.le_ediv_iff_mul_le positive,
    Int.ediv_lt_iff_lt_mul positive]

/-- **The transferred tokens.** Without an edge they are those of the declared
blocks; an edge adds the rest of the block before. -/
theorem RunsValid.tokens (valid : descriptor.RunsValid) (basics : descriptor.Basics requireCuda)
    (token : ℤ) :
    descriptor.Transfers token ↔ descriptor.validTokenStart ≤ token ∧
      token < descriptor.validTokenStart + descriptor.validTokenCount := by
  have size := basics.blockSize
  have count := mul_nonneg basics.logicalBlockCount size.le
  have total : (descriptor.logicalBlockStart + descriptor.logicalBlockCount) *
      descriptor.blockSize = descriptor.logicalBlockStart * descriptor.blockSize +
        descriptor.logicalBlockCount * descriptor.blockSize := by ring
  unfold Transfers
  rw [valid.tokens_of_runs size, total]
  cases leading : descriptor.leadingEdge with
  | none =>
      obtain ⟨start, declared⟩ := valid.unedged leading
      rw [start, declared]
      simp
  | some edge =>
      obtain ⟨edgeValid, declared⟩ := valid.edged edge leading
      -- the declared blocks begin where the block of the edge ends
      have follows : descriptor.logicalBlockStart * descriptor.blockSize =
          edge.logicalBlock * descriptor.blockSize + descriptor.blockSize := by
        rw [edgeValid.follows]
        ring
      have rest := edgeValid.tokenCount
      have start := edgeValid.validTokenStart
      obtain ⟨above, below⟩ := edgeValid.tokenOffset
      simp only [Option.some.injEq, exists_eq_left']
      omega

theorem RunsValid.sound (valid : descriptor.RunsValid) (basics : descriptor.Basics requireCuda) :
    descriptor.RunsSound where
  inOrder := valid.tiles.pairwise
  covered := valid.tiles.coversOnce
  runInside run member := by
    obtain ⟨begins, proper, stops⟩ := valid.tiles.inside run member
    obtain ⟨physical, fits⟩ := valid.inside run member
    unfold DirectIOBlockRun.logicalBlockStop at proper
    exact ⟨by omega, physical, inside_of_le_capacity basics.blockNbytes fits⟩
  edgeInside edge leading := by
    obtain ⟨edgeValid, -⟩ := valid.edged edge leading
    obtain ⟨physical, fits⟩ := edgeValid.physicalBlock
    obtain ⟨above, below⟩ := edgeValid.tokenOffset
    have count := edgeValid.tokenCount
    exact ⟨physical, inside_of_le_capacity basics.blockNbytes (by omega), above, by omega,
      by omega⟩
  tokens := valid.tokens basics

/-! ### Byte segments -/

/-- Sorting changes the order of the segments, and not which bytes they cover. -/
theorem sortedSegments_perm : descriptor.sortedSegments.Perm descriptor.byteSegments :=
  List.perm_insertionSort _ _

theorem SegmentsValid.sound (valid : descriptor.SegmentsValid requireCuda true) :
    descriptor.SegmentsSound where
  covered := valid.tiles.coversOnce.perm sortedSegments_perm
  segmentInside segment member := by
    have checked := valid.segments segment member
    obtain ⟨nonnegative, known⟩ := checked.known
    have index : segment.allocationIndex.toNat < descriptor.allocations.length := by omega
    obtain ⟨fileAligned, offsetAligned, nbytesAligned⟩ := checked.aligned rfl
    have proper := (valid.tiles.inside segment (sortedSegments_perm.mem_iff.mpr member)).2.1
    unfold DirectIOByteSegment.fileStop at proper
    have allocation := valid.allocations _ (List.getElem_mem index)
    refine ⟨nonnegative, _, List.getElem?_eq_getElem index, ?_⟩
    exact {
      nonempty := by omega
      offset := checked.allocationOffset
      fits := checked.inside _ (List.getElem?_eq_getElem index)
      device := allocation.device
      aligned := ⟨Int.dvd_of_emod_eq_zero fileAligned, Int.dvd_of_emod_eq_zero offsetAligned,
        Int.dvd_of_emod_eq_zero nbytesAligned⟩
      base := ⟨allocation.base, Int.dvd_of_emod_eq_zero (allocation.aligned rfl).1⟩ }

/-- **Soundness of `validate`.** -/
theorem sound_of_validate (accepted : descriptor.validate requireCuda true = .ok ()) :
    (descriptor.byteSegments ≠ [] → descriptor.SegmentsSound) ∧
      (descriptor.byteSegments = [] → descriptor.RunsSound) := by
  obtain ⟨basics, runs, segments⟩ := validate_ok.mp accepted
  exact ⟨fun present => (segments present).sound, fun absent => (runs absent).1.sound basics⟩

/-- Two whole blocks behind the second half of block 4, from blocks of 4 KiB. -/
def edgeDescriptor : DirectIODescriptor where
  direction := .retrieve
  device := ⟨.cuda, some 0⟩
  allocationBase := 8192
  allocationNbytes := 32768
  engineGroupId := 0
  blockNbytes := 4096
  blockSize := 2
  logicalBlockStart := 5
  logicalBlockCount := 2
  validTokenStart := 9
  validTokenCount := 5
  runs := [⟨5, 7, 1⟩, ⟨6, 0, 1⟩]
  leadingEdge := some ⟨4, 3, 1, 1⟩
  lifetimeToken := some []

/-- One block from two allocations, with the second half of the file first. -/
def outOfOrderDescriptor : DirectIODescriptor where
  direction := .retrieve
  device := ⟨.cuda, some 0⟩
  allocationBase := 8192
  allocationNbytes := 8192
  engineGroupId := 0
  blockNbytes := 8192
  blockSize := 2
  logicalBlockStart := 1
  logicalBlockCount := 1
  validTokenStart := 2
  validTokenCount := 2
  runs := []
  lifetimeToken := some []
  allocations := [⟨⟨.cuda, some 0⟩, 8192, 8192, some []⟩, ⟨⟨.cuda, some 0⟩, 65536, 8192, some []⟩]
  byteSegments := [⟨16384, 1, 4096, 4096⟩, ⟨12288, 0, 0, 4096⟩]

theorem sound_of_validate_edge_and_segments :
    edgeDescriptor.RunsSound ∧ outOfOrderDescriptor.SegmentsSound := by
  have edge : edgeDescriptor.validate true true = .ok () := rfl
  have segments : outOfOrderDescriptor.validate true true = .ok () := rfl
  exact ⟨(sound_of_validate edge).2 rfl, (sound_of_validate segments).1 (by decide)⟩

end DirectIODescriptor

end LMCacheHcu.Storage
