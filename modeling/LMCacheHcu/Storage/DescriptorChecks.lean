import LMCacheHcu.Foundation.Tilings
import LMCacheHcu.Storage.DirectIO

/-! # What `validate` requires of a descriptor

Each part of the checks as a proposition about the descriptor. The pass over the
runs, and the pass over the segments sorted by their offset in the file, succeed
exactly on lists that tile the declared range.
-/

namespace LMCacheHcu.Storage

open Tilings

/-! ### The ranges of runs and segments -/

/-- The logical block behind a run. -/
def DirectIOBlockRun.logicalBlockStop (run : DirectIOBlockRun) : ℤ :=
  run.logicalBlockStart + run.blockCount

/-- The file offset behind a segment. -/
def DirectIOByteSegment.fileStop (segment : DirectIOByteSegment) : ℤ :=
  segment.fileOffset + segment.nbytes

/-- Runs in the order of the file that tile a range of logical blocks. -/
abbrev RunsTile (start stop : ℤ) (runs : List DirectIOBlockRun) : Prop :=
  Tiles DirectIOBlockRun.logicalBlockStart DirectIOBlockRun.logicalBlockStop start stop runs

/-- Segments in the order of the file that tile a range of its bytes. -/
abbrev SegmentsTile (start stop : ℤ) (segments : List DirectIOByteSegment) : Prop :=
  Tiles DirectIOByteSegment.fileOffset DirectIOByteSegment.fileStop start stop segments

namespace DirectIODescriptor

variable (descriptor : DirectIODescriptor)

/-- The blocks that fit into the allocation. -/
def physicalBlockCapacity : ℤ := descriptor.allocationNbytes / descriptor.blockNbytes

/-- The checks that all descriptors share. -/
structure Basics (requireCuda : Bool) : Prop where
  device : requireCuda = true → descriptor.device.type = .cuda
  allocationBase : 0 < descriptor.allocationBase
  allocationNbytes : 0 < descriptor.allocationNbytes
  engineGroupId : 0 ≤ descriptor.engineGroupId
  blockNbytes : 0 < descriptor.blockNbytes
  blockSize : 0 < descriptor.blockSize
  logicalBlockStart : 0 ≤ descriptor.logicalBlockStart
  logicalBlockCount : 0 ≤ descriptor.logicalBlockCount
  transferable : descriptor.logicalBlockCount = 0 → descriptor.leadingEdge ≠ none
  lifetimeToken : descriptor.lifetimeToken.isNone = false
  synchronous : descriptor.synchronous = true
  filePayloadOffset : descriptor.filePayloadOffset = blockFirstHeaderSize

/-- The checks of the physical blocks of a run. -/
def RunInside (run : DirectIOBlockRun) : Prop :=
  0 ≤ run.physicalBlockStart ∧ run.physicalBlockStart + run.blockCount ≤
    descriptor.physicalBlockCapacity

/-- The checks of the leading edge. -/
structure EdgeValid (edge : DirectIOLeadingEdge) : Prop where
  direction : descriptor.direction = .retrieve
  logicalBlock : 0 ≤ edge.logicalBlock
  physicalBlock : 0 ≤ edge.physicalBlock ∧ edge.physicalBlock < descriptor.physicalBlockCapacity
  tokenOffset : 0 < edge.tokenOffset ∧ edge.tokenOffset < descriptor.blockSize
  tokenCount : edge.tokenCount = descriptor.blockSize - edge.tokenOffset
  follows : descriptor.logicalBlockStart = edge.logicalBlock + 1
  validTokenStart : descriptor.validTokenStart =
    edge.logicalBlock * descriptor.blockSize + edge.tokenOffset

/-- The checks of a descriptor made of runs, but for the alignment. -/
structure RunsValid : Prop where
  tiles : RunsTile descriptor.logicalBlockStart
    (descriptor.logicalBlockStart + descriptor.logicalBlockCount) descriptor.runs
  inside : ∀ run ∈ descriptor.runs, descriptor.RunInside run
  unedged : descriptor.leadingEdge = none →
    descriptor.validTokenStart = descriptor.logicalBlockStart * descriptor.blockSize ∧
      descriptor.validTokenCount = descriptor.logicalBlockCount * descriptor.blockSize
  edged : ∀ edge, descriptor.leadingEdge = some edge → descriptor.EdgeValid edge ∧
    descriptor.validTokenCount =
      edge.tokenCount + descriptor.logicalBlockCount * descriptor.blockSize

/-- The values that have to be multiples of 4 KiB are. -/
def FieldsAligned (requireAlignment : Bool) : Prop :=
  requireAlignment = true → ∀ field ∈ descriptor.alignedFields, field.2 % blockFirstAlignment = 0

/-- The checks of one allocation of a byte-segment descriptor. -/
structure AllocationValid (requireCuda requireAlignment : Bool) (allocation : DirectIOAllocation) :
    Prop where
  cuda : requireCuda = true → allocation.device.type = .cuda
  device : allocation.device = descriptor.device
  base : 0 < allocation.base
  nbytes : 0 < allocation.nbytes
  lifetimeToken : allocation.lifetimeToken.isNone = false
  aligned : requireAlignment = true → allocation.base % blockFirstAlignment = 0 ∧
    allocation.nbytes % blockFirstAlignment = 0

/-- The checks of one segment, but for its place in the file. -/
structure SegmentValid (requireAlignment : Bool) (segment : DirectIOByteSegment) : Prop where
  known : 0 ≤ segment.allocationIndex ∧
    segment.allocationIndex < descriptor.allocations.length
  allocationOffset : 0 ≤ segment.allocationOffset
  inside : ∀ allocation, descriptor.allocations[segment.allocationIndex.toNat]? = some allocation →
    segment.allocationOffset + segment.nbytes ≤ allocation.nbytes
  aligned : requireAlignment = true → segment.fileOffset % blockFirstAlignment = 0 ∧
    segment.allocationOffset % blockFirstAlignment = 0 ∧ segment.nbytes % blockFirstAlignment = 0

/-- The segments in the order in which they are checked. -/
def sortedSegments : List DirectIOByteSegment :=
  descriptor.byteSegments.insertionSort fun before after => before.fileOffset ≤ after.fileOffset

/-- The file offset of a logical block. -/
def blockOffset (logicalBlock : ℤ) : ℤ :=
  descriptor.filePayloadOffset + logicalBlock * descriptor.blockNbytes

/-- The checks of a descriptor made of byte segments. -/
structure SegmentsValid (requireCuda requireAlignment : Bool) : Prop where
  direction : descriptor.direction = .retrieve
  runs : descriptor.runs = []
  leadingEdge : descriptor.leadingEdge = none
  registered : descriptor.allocations ≠ []
  validTokenStart : descriptor.validTokenStart = descriptor.logicalBlockStart * descriptor.blockSize
  validTokenCount : descriptor.validTokenCount = descriptor.logicalBlockCount * descriptor.blockSize
  allocations : ∀ allocation ∈ descriptor.allocations,
    descriptor.AllocationValid requireCuda requireAlignment allocation
  tiles : SegmentsTile (descriptor.blockOffset descriptor.logicalBlockStart)
    (descriptor.blockOffset (descriptor.logicalBlockStart + descriptor.logicalBlockCount))
    descriptor.sortedSegments
  segments : ∀ segment ∈ descriptor.byteSegments, descriptor.SegmentValid requireAlignment segment

variable {descriptor} {requireCuda requireAlignment : Bool}

/-! ### The pass over the runs -/

theorem validateRun_ok {reached next : ℤ × ℤ} {run : DirectIOBlockRun} :
    descriptor.validateRun reached run = .ok next ↔
      run.logicalBlockStart = reached.1 ∧ run.logicalBlockStart < run.logicalBlockStop ∧
        descriptor.RunInside run ∧
        (reached.1 + run.blockCount, reached.2 + run.blockCount) = next := by
  simp only [validateRun, Checked.throw_bind, Checked.check_ok, Checked.return_ok, not_or, not_not,
    not_lt, not_le, RunInside, physicalBlockCapacity, DirectIOBlockRun.logicalBlockStop]
  constructor
  · rintro ⟨⟨begins, physical, positive⟩, fits, rfl⟩
    exact ⟨begins, by omega, ⟨physical, fits⟩, rfl⟩
  · rintro ⟨begins, positive, ⟨physical, fits⟩, rfl⟩
    exact ⟨⟨begins, physical, by omega⟩, fits, rfl⟩

/-- The count of transferred blocks goes along with the expected block. -/
theorem validateRun_foldlM_ok {runs : List DirectIOBlockRun} {position count : ℤ}
    {reached : ℤ × ℤ} :
    runs.foldlM descriptor.validateRun (position, count) = .ok reached ↔
      RunsTile position reached.1 runs ∧ (∀ run ∈ runs, descriptor.RunInside run) ∧
        reached.2 = count + (reached.1 - position) := by
  induction runs generalizing position count with
  | nil =>
      rw [List.foldlM_nil, Checked.return_ok]
      constructor
      · rintro rfl
        exact ⟨.nil _, by simp, by simp⟩
      · rintro ⟨tiles, _, counted⟩
        obtain ⟨stop, total⟩ := reached
        cases tiles
        simpa using counted.symm
  | cons run runs ih =>
      rw [List.foldlM_cons, Checked.bind_ok]
      constructor
      · rintro ⟨next, passed, rest⟩
        obtain ⟨begins, positive, inside, rfl⟩ := validateRun_ok.mp passed
        obtain ⟨tiles, all, counted⟩ := ih.mp rest
        have stops : run.logicalBlockStop = position + run.blockCount := by
          rw [DirectIOBlockRun.logicalBlockStop, begins]
        refine ⟨.cons begins positive (stops ▸ tiles), List.forall_mem_cons.mpr ⟨inside, all⟩, ?_⟩
        rw [counted]
        ring
      · rintro ⟨tiles, all, counted⟩
        cases tiles with
        | cons begins positive follows =>
            obtain ⟨inside, all⟩ := List.forall_mem_cons.mp all
            have stops : run.logicalBlockStop = position + run.blockCount := by
              rw [DirectIOBlockRun.logicalBlockStop, begins]
            refine ⟨_, validateRun_ok.mpr ⟨begins, positive, inside, rfl⟩,
              ih.mpr ⟨stops ▸ follows, all, ?_⟩⟩
            rw [counted]
            ring

theorem validateEdge_ok {edge : DirectIOLeadingEdge} {tokens : ℤ} :
    descriptor.validateEdge edge = .ok tokens ↔ descriptor.EdgeValid edge ∧
      edge.tokenCount + descriptor.logicalBlockCount * descriptor.blockSize = tokens := by
  simp only [validateEdge, Checked.throw_bind, Checked.check_ok, Checked.return_ok, not_or,
    not_not, not_lt, not_le]
  constructor
  · rintro ⟨direction, ⟨logical, physical, fits, above, below, count⟩, follows, start, rfl⟩
    exact ⟨⟨direction, logical, ⟨physical, fits⟩, ⟨above, below⟩, count, follows, start⟩, rfl⟩
  · rintro ⟨valid, rfl⟩
    exact ⟨valid.direction, ⟨valid.logicalBlock, valid.physicalBlock.1, valid.physicalBlock.2,
      valid.tokenOffset.1, valid.tokenOffset.2, valid.tokenCount⟩, valid.follows,
      valid.validTokenStart, rfl⟩

theorem alignedFields_ok :
    (if requireAlignment then
      (descriptor.alignedFields.forM fun field =>
        if field.2 % blockFirstAlignment ≠ 0 then
          throw (.valueError s!"direct I/O {field.1} is not 4 KiB aligned: {field.2}")
        else pure () : Except DirectIOError Unit)
      else pure ()) = .ok () ↔ descriptor.FieldsAligned requireAlignment := by
  unfold FieldsAligned
  cases requireAlignment with
  | false => exact iff_of_true rfl fun required => absurd required Bool.false_ne_true
  | true =>
      rw [if_pos rfl, Checked.forM_ok]
      simp only [Checked.last_check_ok, not_not, Checked.return_ok, and_true, forall_const]

/-- There are runs exactly when blocks are declared. -/
theorem RunsValid.nonempty (valid : descriptor.RunsValid) :
    (!descriptor.runs.isEmpty) = decide (0 < descriptor.logicalBlockCount) := by
  have tiles := valid.tiles
  cases runs : descriptor.runs with
  | nil =>
      rw [runs] at tiles
      have length := tiles.sum_lengths
      simp only [List.map_nil, List.sum_nil] at length
      have declared : descriptor.logicalBlockCount = 0 := by omega
      simp [declared]
  | cons run others =>
      rw [runs] at tiles
      obtain ⟨begins, proper, stops⟩ := tiles.inside run List.mem_cons_self
      have declared : 0 < descriptor.logicalBlockCount := by omega
      simp [declared]

/-- The pass over the runs that a valid descriptor takes. -/
theorem RunsValid.pass (valid : descriptor.RunsValid) :
    descriptor.runs.foldlM descriptor.validateRun (descriptor.logicalBlockStart, 0) =
      .ok (descriptor.logicalBlockStart + descriptor.logicalBlockCount,
        descriptor.logicalBlockCount) :=
  validateRun_foldlM_ok.mpr ⟨valid.tiles, valid.inside, by ring⟩

/-- **The checks of runs.** -/
theorem validateRuns_ok :
    descriptor.validateRuns requireAlignment = .ok () ↔ descriptor.RunsValid ∧
      descriptor.FieldsAligned requireAlignment := by
  unfold validateRuns
  constructor
  · intro accepted
    obtain ⟨⟨stop, transferred⟩, passed, rest⟩ := Checked.bind_ok.mp accepted
    obtain ⟨tiles, inside, total⟩ := validateRun_foldlM_ok.mp passed
    simp only [Checked.throw_bind, Checked.check_ok, not_not] at rest tiles total
    obtain ⟨counted, -, rest⟩ := rest
    have stops : stop = descriptor.logicalBlockStart + descriptor.logicalBlockCount := by omega
    subst stops
    cases leading : descriptor.leadingEdge with
    | none =>
        simp only [leading, Checked.check_ok, Checked.bind_ok,
          Checked.return_ok, not_not, alignedFields_ok] at rest
        obtain ⟨start, _, rfl, count, aligned⟩ := rest
        exact ⟨⟨tiles, inside, fun _ => ⟨start, count⟩,
          fun edge present => absurd (leading.symm.trans present) (by simp)⟩, aligned⟩
    | some edge =>
        simp only [leading, Checked.check_ok, Checked.bind_ok, not_not,
          alignedFields_ok] at rest
        obtain ⟨_, checked, count, aligned⟩ := rest
        obtain ⟨valid, rfl⟩ := validateEdge_ok.mp checked
        refine ⟨⟨tiles, inside, fun absent => absurd (leading.symm.trans absent) (by simp),
          fun other present => ?_⟩, aligned⟩
        obtain rfl := Option.some.inj (leading.symm.trans present)
        exact ⟨valid, count⟩
  · rintro ⟨valid, aligned⟩
    rw [valid.pass]
    simp only [Checked.ok_bind, Checked.throw_bind, Checked.check_ok, not_not]
    refine ⟨trivial, valid.nonempty, ?_⟩
    cases leading : descriptor.leadingEdge with
    | none =>
        obtain ⟨start, count⟩ := valid.unedged leading
        simp only [Checked.check_ok, Checked.bind_ok, Checked.return_ok,
          not_not, alignedFields_ok]
        exact ⟨start, _, rfl, count, aligned⟩
    | some edge =>
        obtain ⟨edgeValid, count⟩ := valid.edged edge leading
        simp only [Checked.check_ok, Checked.bind_ok, not_not,
          alignedFields_ok]
        exact ⟨_, validateEdge_ok.mpr ⟨edgeValid, count.symm⟩, rfl, aligned⟩

/-! ### The pass over the segments -/

theorem validateAllocation_ok {allocation : DirectIOAllocation} :
    descriptor.validateAllocation requireCuda requireAlignment allocation = .ok () ↔
      descriptor.AllocationValid requireCuda requireAlignment allocation := by
  simp only [validateAllocation, Checked.throw_bind, Checked.check_ok, Checked.last_check_ok,
    Checked.return_ok, and_true, not_or, not_not, not_le, not_and, Bool.not_eq_true]
  constructor
  · rintro ⟨cuda, device, ⟨base, nbytes⟩, lifetime, aligned⟩
    exact ⟨cuda, device, base, nbytes, lifetime, aligned⟩
  · intro valid
    exact ⟨valid.cuda, valid.device, ⟨valid.base, valid.nbytes⟩, valid.lifetimeToken,
      valid.aligned⟩

/-- The check of a segment as a check of a tiling. -/
theorem validateSegment_checks :
    Checks DirectIOByteSegment.fileOffset DirectIOByteSegment.fileStop
      (descriptor.SegmentValid requireAlignment) (descriptor.validateSegment requireAlignment) := by
  intro position segment next
  simp only [validateSegment, Checked.throw_bind, Checked.check_ok, Checked.return_ok, not_or,
    not_not, not_lt, not_le, not_and, Bool.not_eq_true, DirectIOByteSegment.fileStop,
    Option.any_eq_false_iff_get, decide_eq_false_iff_not]
  constructor
  · rintro ⟨begins, known, ⟨offset, positive, inside⟩, aligned, rfl⟩
    refine ⟨begins, by omega, ⟨known, offset, fun allocation here => ?_, aligned⟩, by rw [begins]⟩
    have bound := inside (by rw [here]; rfl)
    simpa [here] using bound
  · rintro ⟨begins, positive, valid, rfl⟩
    refine ⟨begins, valid.known, ⟨valid.allocationOffset, by omega, fun present => ?_⟩,
      valid.aligned, by rw [begins]⟩
    have bound := valid.inside _ (Option.some_get present).symm
    simpa using bound

theorem validateByteSegments_ok :
    descriptor.validateByteSegments requireCuda requireAlignment = .ok () ↔
      descriptor.SegmentsValid requireCuda requireAlignment ∧ descriptor.byteSegments ≠ [] := by
  simp only [validateByteSegments, Checked.throw_bind, Checked.check_ok, Checked.last_check_ok,
    Checked.bind_ok, Checked.return_ok, and_true, not_or, not_not,
    validateSegment_checks.foldlM_ok]
  constructor
  · rintro ⟨direction, ⟨runs, edge⟩, ⟨registered, segments⟩, start, count, ⟨⟩, allocations, stop,
      ⟨tiles, valid⟩, rfl⟩
    refine ⟨⟨direction, runs, edge, registered, start, count, fun allocation member => ?_, tiles,
      fun segment member => valid segment ((List.mem_insertionSort _).mpr member)⟩, segments⟩
    exact validateAllocation_ok.mp (Checked.forM_ok.mp allocations allocation member)
  · rintro ⟨valid, segments⟩
    have allocations := Checked.forM_ok.mpr fun allocation member =>
      validateAllocation_ok.mpr (valid.allocations allocation member)
    exact ⟨valid.direction, ⟨valid.runs, valid.leadingEdge⟩, ⟨valid.registered, segments⟩,
      valid.validTokenStart, valid.validTokenCount, (), allocations, _,
      ⟨valid.tiles, fun segment member => valid.segments segment
        ((List.mem_insertionSort _).mp member)⟩, rfl⟩

/-! ### The whole check -/

/-- **What `validate` accepts.** -/
theorem validate_ok :
    descriptor.validate requireCuda requireAlignment = .ok () ↔
      descriptor.Basics requireCuda ∧
        (descriptor.byteSegments = [] → descriptor.RunsValid ∧
          descriptor.FieldsAligned requireAlignment) ∧
        (descriptor.byteSegments ≠ [] → descriptor.SegmentsValid requireCuda requireAlignment) := by
  have parts : (if descriptor.byteSegments.isEmpty then descriptor.validateRuns requireAlignment
      else descriptor.validateByteSegments requireCuda requireAlignment) = .ok () ↔
      (descriptor.byteSegments = [] → descriptor.RunsValid ∧
          descriptor.FieldsAligned requireAlignment) ∧
        (descriptor.byteSegments ≠ [] → descriptor.SegmentsValid requireCuda requireAlignment) := by
    by_cases empty : descriptor.byteSegments = []
    · rw [if_pos (List.isEmpty_iff.mpr empty), validateRuns_ok]
      simp only [empty, forall_const, ne_eq, not_true_eq_false, IsEmpty.forall_iff, and_true]
    · rw [if_neg (List.isEmpty_iff.not.mpr empty), validateByteSegments_ok]
      simp only [empty, ne_eq, not_false_eq_true, forall_const, IsEmpty.forall_iff, and_true,
        true_and]
  simp only [validate, Checked.throw_bind, Checked.check_ok, not_or, not_not, not_and, not_lt,
    not_le, Bool.not_eq_true, Bool.not_eq_false, parts]
  constructor
  · rintro ⟨device, ⟨base, nbytes⟩, group, ⟨block, size⟩, ⟨start, count⟩, some, lifetime, sync,
      payload, rest⟩
    exact ⟨⟨device, base, nbytes, group, block, size, start, count, some, lifetime, sync, payload⟩,
      rest⟩
  · rintro ⟨basics, rest⟩
    exact ⟨basics.device, ⟨basics.allocationBase, basics.allocationNbytes⟩, basics.engineGroupId,
      ⟨basics.blockNbytes, basics.blockSize⟩,
      ⟨basics.logicalBlockStart, basics.logicalBlockCount⟩, basics.transferable,
      basics.lifetimeToken, basics.synchronous, basics.filePayloadOffset, rest⟩

end DirectIODescriptor

end LMCacheHcu.Storage
