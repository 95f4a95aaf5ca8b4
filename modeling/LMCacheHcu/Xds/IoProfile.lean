import LMCacheHcu.Foundation.Completions
import LMCacheHcu.Foundation.Exceptions
import LMCacheHcu.HyFile.GlobalBuffers

/-! # I/O profiles of batches

A profiled batch counts its chunks as they end; whoever ends the last one logs
the profile. Several threads end chunks, one after the other under the lock of
the profile. The fields that only the logged text reads are left out.
-/

namespace LMCacheHcu.Xds.Profiling

open Completions

/-! ### The profile -/

/-- `XDSIOProfile`. -/
structure XDSIOProfile where
  expectedChunks : ℕ
  successfulChunks : ℕ
  failedChunks : ℕ
  fallbackCount : ℕ
  completedChunks : ℕ
  logged : Bool
deriving DecidableEq

namespace XDSIOProfile

variable (profile : XDSIOProfile)

/-- `record_descriptor`, which counts a chunk without a descriptor as a fallback. -/
def recordDescriptor {Descriptor : Type} (descriptor : Option Descriptor) : XDSIOProfile :=
  if descriptor.isNone then { profile with fallbackCount := profile.fallbackCount + 1 }
  else profile

/-- `finish_chunk`. -/
def finishChunk (success fallback : Bool) : Bool × XDSIOProfile :=
  let profile := { profile with completedChunks := profile.completedChunks + 1 }
  let profile :=
    if success then { profile with successfulChunks := profile.successfulChunks + 1 }
    else { profile with failedChunks := profile.failedChunks + 1 }
  let profile :=
    if fallback then { profile with fallbackCount := profile.fallbackCount + 1 } else profile
  let complete := decide (profile.completedChunks ≥ profile.expectedChunks)
  if complete && !profile.logged then (true, { profile with logged := true })
  else (false, profile)

/-- The chunks of the profile as a counter. -/
def counter : Counter := ⟨profile.expectedChunks, profile.completedChunks, profile.logged⟩

theorem counter_finishChunk (success fallback : Bool) :
    (profile.finishChunk success fallback).1 = profile.counter.finish.1 ∧
      (profile.finishChunk success fallback).2.counter = profile.counter.finish.2 := by
  obtain ⟨expected, successful, failed, fallbacks, completed, logged⟩ := profile
  by_cases complete : expected ≤ completed + 1 <;> cases logged <;> cases success <;>
    cases fallback <;> simp [finishChunk, counter, Counter.finish, complete]

theorem totals_finishChunk (success fallback : Bool) :
    (profile.finishChunk success fallback).2.successfulChunks +
        (profile.finishChunk success fallback).2.failedChunks =
      profile.successfulChunks + profile.failedChunks + 1 := by
  obtain ⟨expected, successful, failed, fallbacks, completed, logged⟩ := profile
  by_cases complete : expected ≤ completed + 1 <;> cases logged <;> cases success <;>
    cases fallback <;> simp [finishChunk, complete] <;> omega

end XDSIOProfile

/-- A call of `_finish_io_profile`, with the chunk that it is for and whether
`finish_chunk` returned true. -/
structure FinishCall where
  chunk : ℕ
  success : Bool
  fallback : Bool
  reported : Bool
deriving DecidableEq

/-- The profile of so many chunks has counted the calls. -/
structure XDSIOProfile.Counts (profile : XDSIOProfile) (chunks : ℕ) (calls : List FinishCall) :
    Prop where
  counter : profile.counter = .reached chunks calls.length
  reports : calls.map (fun call => (call.chunk, call.reported)) =
    Completions.reports chunks (calls.map FinishCall.chunk)
  totals : profile.successfulChunks + profile.failedChunks = profile.completedChunks

/-- The profile of a batch, if it has one, with the calls that ended its chunks. -/
structure Profiled (chunks : ℕ) where
  profile : Option XDSIOProfile
  calls : List FinishCall
  counts : ∀ counted, profile = some counted → counted.Counts chunks calls

variable {chunks : ℕ} {profile : XDSIOProfile} {calls : List FinishCall}

theorem counts_new (positive : 0 < chunks) :
    XDSIOProfile.Counts ⟨chunks, 0, 0, 0, 0, false⟩ chunks [] where
  counter := by simpa [XDSIOProfile.counter, Counter.reached] using positive.ne'
  reports := rfl
  totals := rfl

theorem counts_of_none (calls : List FinishCall) (counted : XDSIOProfile)
    (same : none = some counted) : counted.Counts chunks calls := by
  cases same

theorem counts_of_some (counts : profile.Counts chunks calls) (counted : XDSIOProfile)
    (same : some profile = some counted) : counted.Counts chunks calls := by
  cases same
  exact counts

theorem counts_recordDescriptor {Descriptor : Type} (counts : profile.Counts chunks calls)
    (descriptor : Option Descriptor) :
    (profile.recordDescriptor descriptor).Counts chunks calls := by
  cases descriptor with
  | none => exact ⟨counts.counter, counts.reports, counts.totals⟩
  | some _ => exact counts

theorem counts_finishChunk (counts : profile.Counts chunks calls) (chunk : ℕ)
    (success fallback : Bool) :
    (profile.finishChunk success fallback).2.Counts chunks
      (calls ++ [⟨chunk, success, fallback, (profile.finishChunk success fallback).1⟩]) := by
  obtain ⟨told, counted⟩ := profile.counter_finishChunk success fallback
  rw [counts.counter, Counter.finish_reached] at told counted
  have completed : (profile.finishChunk success fallback).2.completedChunks = calls.length + 1 :=
    congrArg Counter.completed counted
  have before : profile.completedChunks = calls.length := congrArg Counter.completed counts.counter
  refine ⟨?_, ?_, ?_⟩
  · rw [counted, List.length_append, List.length_singleton]
  · rw [List.map_append, List.map_append, List.map_singleton, List.map_singleton, reports_concat,
      counts.reports, told, List.length_map]
  · rw [profile.totals_finishChunk, completed, counts.totals, before]

namespace Profiled

/-- `_new_io_profile`. -/
def newIoProfile (ioProfileEnabled : Bool) (chunks : ℕ) : Profiled chunks :=
  if enabled : ioProfileEnabled = true ∧ 0 < chunks then
    ⟨some ⟨chunks, 0, 0, 0, 0, false⟩, [], counts_of_some (counts_new enabled.2)⟩
  else ⟨none, [], counts_of_none []⟩

variable (profiled : Profiled chunks)

/-- `record_descriptor`, when there is a profile. -/
def recordDescriptor {Descriptor : Type} (descriptor : Option Descriptor) : Profiled chunks :=
  match profiled with
  | ⟨none, calls, _⟩ => ⟨none, calls, counts_of_none calls⟩
  | ⟨some profile, calls, counts⟩ =>
      ⟨some (profile.recordDescriptor descriptor), calls,
        counts_of_some (counts_recordDescriptor (counts profile rfl) descriptor)⟩

/-- `_finish_io_profile`, for one chunk. -/
def finishIoProfile (chunk : ℕ) (success fallback : Bool) : Profiled chunks :=
  match profiled with
  | ⟨none, calls, _⟩ => ⟨none, calls ++ [⟨chunk, success, fallback, false⟩], counts_of_none _⟩
  | ⟨some profile, calls, counts⟩ =>
      ⟨some (profile.finishChunk success fallback).2,
        calls ++ [⟨chunk, success, fallback, (profile.finishChunk success fallback).1⟩],
        counts_of_some (counts_finishChunk (counts profile rfl) chunk success fallback)⟩

/-- The chunks that have ended, in order. -/
def ended : List ℕ := profiled.calls.map FinishCall.chunk

@[simp] theorem ended_newIoProfile (ioProfileEnabled : Bool) (chunks : ℕ) :
    (newIoProfile ioProfileEnabled chunks).ended = [] := by
  unfold newIoProfile
  split <;> rfl

theorem isSome_newIoProfile (ioProfileEnabled : Bool) (chunks : ℕ) :
    (newIoProfile ioProfileEnabled chunks).profile.isSome ↔
      ioProfileEnabled = true ∧ 0 < chunks := by
  unfold newIoProfile
  split <;> simp [*]

@[simp] theorem ended_recordDescriptor {Descriptor : Type} (descriptor : Option Descriptor) :
    (profiled.recordDescriptor descriptor).ended = profiled.ended := by
  obtain ⟨_ | profile, calls, counts⟩ := profiled <;> rfl

@[simp] theorem isSome_recordDescriptor {Descriptor : Type} (descriptor : Option Descriptor) :
    (profiled.recordDescriptor descriptor).profile.isSome = profiled.profile.isSome := by
  obtain ⟨_ | profile, calls, counts⟩ := profiled <;> rfl

@[simp] theorem ended_finishIoProfile (chunk : ℕ) (success fallback : Bool) :
    (profiled.finishIoProfile chunk success fallback).ended = profiled.ended ++ [chunk] := by
  obtain ⟨_ | profile, calls, counts⟩ := profiled <;> simp [finishIoProfile, ended]

@[simp] theorem isSome_finishIoProfile (chunk : ℕ) (success fallback : Bool) :
    (profiled.finishIoProfile chunk success fallback).profile.isSome =
      profiled.profile.isSome := by
  obtain ⟨_ | profile, calls, counts⟩ := profiled <;> rfl

/-- **Completes.** If the batch has a profile, `finish_chunk` has been called
exactly once for each of its chunks, the last of these calls alone has reported
completion, and successful and failed chunks make up the completed ones. -/
def Completes : Prop :=
  ∀ profile, profiled.profile = some profile →
    Settled chunks (profiled.calls.map fun call => (call.chunk, call.reported)) ∧
      profile.successfulChunks + profile.failedChunks = profile.completedChunks

/-- A profile completes exactly when its chunks are those that have ended. -/
theorem completes_iff (positive : 0 < chunks) :
    profiled.Completes ↔ (profiled.profile.isSome → profiled.ended.Perm (List.range chunks)) := by
  constructor
  · intro completes present
    obtain ⟨profile, here⟩ := Option.isSome_iff_exists.mp present
    rw [← settled_reports_iff positive]
    rw [ended, ← (profiled.counts profile here).reports]
    exact (completes profile here).1
  · intro complete profile here
    have counts := profiled.counts profile here
    refine ⟨?_, counts.totals⟩
    rw [counts.reports]
    exact (settled_reports_iff positive _).mpr (complete (by rw [here]; rfl))

/-- A batch with a profile completes under the condition under which its chunks end. -/
theorem completes_iff_of_perm {enabled contained : Prop}
    (present : profiled.profile.isSome = true ↔ enabled ∧ 0 < chunks)
    (ends : profiled.profile.isSome = true →
      (profiled.ended.Perm (List.range chunks) ↔ contained)) :
    profiled.Completes ↔ (enabled → 0 < chunks → contained) := by
  by_cases here : profiled.profile.isSome = true
  · obtain ⟨on, positive⟩ := present.mp here
    rw [completes_iff profiled positive, ends here]
    exact ⟨fun complete _ _ => complete here, fun contained _ => contained on positive⟩
  · refine iff_of_true (fun profile some => ?_) fun on positive => ?_
    · exact absurd (by rw [some]; rfl) here
    · exact absurd (present.mpr ⟨on, positive⟩) here

end Profiled

/-! ### Exceptions -/

/-- What an operation raises. -/
inductive Raised
  | blockFirstFormatError
  | osError
  /-- The library of the driver. -/
  | hipFile (error : HyFile.GlobalBuffers.Error)
  | builtin (error : Exceptions.Builtin)
  /-- An exception of another class, none of them below. -/
  | other (className : String)
deriving DecidableEq

/-- The exception is a `BlockFirstFormatError`, `OSError`, `RuntimeError` or
`ValueError`, as the handlers of direct transfers name them. -/
def Raised.named : Raised → Bool
  | .blockFirstFormatError => true
  | .osError => true
  | .hipFile (.fileNotFoundError _) => true
  | .hipFile (.load .osError) => true
  | .hipFile (.load .attributeError) => false
  | .hipFile (.runtimeError _) => true
  | .hipFile (.valueError _) => true
  | .hipFile (.hipfileException _) => false
  | .builtin .runtimeError => true
  | .builtin .recursionError => true
  | .builtin .valueError => true
  | .builtin .jsonDecodeError => true
  | .builtin .unicodeDecodeError => true
  | .builtin .unicodeEncodeError => true
  | .builtin _ => false
  | .other _ => false

/-- How a call ends: it returns, or raises. -/
abbrev Answer (Value : Type) := Except Raised Value

/-! ### Batches of direct transfers -/

/-- The results of a batch so far, and the jobs that wait for a later loop. -/
structure ProfiledBatch (chunks : ℕ) (Job : Type) where
  profiled : Profiled chunks
  results : List Bool
  jobs : List Job

namespace ProfiledBatch

variable {Job : Type} (batch : ProfiledBatch chunks Job)

/-- The chunk has failed. -/
def fail (index : ℕ) (fallback : Bool) : ProfiledBatch chunks Job :=
  { batch with profiled := batch.profiled.finishIoProfile index false fallback }

/-- The chunk has succeeded. -/
def succeed (index : ℕ) : ProfiledBatch chunks Job :=
  { batch with
    results := batch.results.set index true
    profiled := batch.profiled.finishIoProfile index true false }

/-- The chunk waits for a later loop. -/
def queue (job : Job) : ProfiledBatch chunks Job := { batch with jobs := batch.jobs ++ [job] }

/-- The chunks that have ended. -/
def ended : List ℕ := batch.profiled.ended

/-- The batch has a profile. -/
def present : Bool := batch.profiled.profile.isSome

/-- What one turn of a loop does with the chunk: unless it lets an exception
through, the chunk ends or waits for a later loop. -/
inductive Turn (index : ℕ) (contained : Prop) (waits : Option Job) :
    Answer Unit × ProfiledBatch chunks Job → Prop
  | fails (fallback : Bool) (here : contained) (ends : waits = none) :
      Turn index contained waits (.ok (), batch.fail index fallback)
  | succeeds (here : contained) (ends : waits = none) :
      Turn index contained waits (.ok (), batch.succeed index)
  | queues (job : Job) (here : contained) (later : waits = some job) :
      Turn index contained waits (.ok (), batch.queue job)
  | raises (exc : Raised) (escapes : ¬ contained) :
      Turn index contained waits (.error exc, batch)

variable {batch : ProfiledBatch chunks Job} {index : ℕ} {contained : Prop} {waits : Option Job}
  {turned : Answer Unit × ProfiledBatch chunks Job}

theorem Turn.congr {other : Prop} {laterWaits : Option Job}
    (turn : batch.Turn index contained waits turned) (same : contained ↔ other)
    (equal : waits = laterWaits) : batch.Turn index other laterWaits turned := by
  rw [← equal, ← same]
  exact turn

/-- A turn neither makes nor drops the profile. -/
theorem Turn.present (turn : batch.Turn index contained waits turned) :
    turned.2.present = batch.present := by
  cases turn with
  | fails fallback | succeeds => simp [ProfiledBatch.present, fail, succeed]
  | queues job | raises exc => rfl

section Loops

variable {Chunk : Type} {label : Chunk → ℕ} {contained : Chunk → Prop} {waits : Chunk → Option Job}
  {body : Chunk → ProfiledBatch chunks Job → Answer Unit × ProfiledBatch chunks Job}

/-- The account of a loop whose chunks may wait for a later one. -/
def account (label : Chunk → ℕ) (contained : Chunk → Prop) (waits : Chunk → Option Job) :
    Account Chunk (ProfiledBatch chunks Job) ℕ Job := ⟨label, contained, waits, ended, jobs⟩

/-- The account of a loop that ends all of its chunks. -/
def lastAccount (label : Chunk → ℕ) (contained : Chunk → Prop) :
    Account Chunk (ProfiledBatch chunks Job) ℕ Empty :=
  ⟨label, contained, fun _ => none, ended, fun _ => []⟩

theorem Turn.accounted {chunk : Chunk}
    (turn : batch.Turn (label chunk) (contained chunk) (waits chunk) turned) :
    (account label contained waits).Turn chunk batch turned := by
  cases turn with
  | fails fallback here ends =>
      exact .ends here ends (Profiled.ended_finishIoProfile _ _ _ _) rfl
  | succeeds here ends => exact .ends here ends (Profiled.ended_finishIoProfile _ _ _ _) rfl
  | queues job here later => exact .handsOn here later rfl rfl
  | raises exc escapes => exact .escapes escapes rfl rfl

theorem Turn.lastAccounted {chunk : Chunk}
    (turn : batch.Turn (label chunk) (contained chunk) none turned) :
    (lastAccount label contained).Turn chunk batch turned := by
  cases turn with
  | fails fallback here => exact .ends here rfl (Profiled.ended_finishIoProfile _ _ _ _) rfl
  | succeeds here => exact .ends here rfl (Profiled.ended_finishIoProfile _ _ _ _) rfl
  | queues job here later => cases later
  | raises exc escapes => exact .escapes escapes rfl rfl

/-- The chunks that a loop without escapes has ended and those that wait are its chunks. -/
theorem loop_through (turns : ∀ chunk (batch : ProfiledBatch chunks Job),
      batch.Turn (label chunk) (contained chunk) (waits chunk) (body chunk batch))
    {laterLabel : Job → ℕ}
    (keeps : ∀ chunk job, waits chunk = some job → laterLabel job = label chunk)
    {list : List Chunk} (all : ∀ chunk ∈ list, contained chunk)
    (batch : ProfiledBatch chunks Job) (idle : batch.jobs = []) :
    ∃ next, forEach body list batch = (.ok (), next) ∧ next.jobs = list.filterMap waits ∧
      (next.ended ++ next.jobs.map laterLabel).Perm (batch.ended ++ list.map label) := by
  obtain ⟨next, ran, ended, handed⟩ :=
    forEach_through (account label contained waits)
      (fun chunk batch => (turns chunk batch).accounted) all batch
  have waiting : next.jobs = list.filterMap waits := by
    simpa [account, idle] using handed
  have endedHere : next.ended = batch.ended ++ _ := ended
  refine ⟨next, ran, waiting, ?_⟩
  rw [waiting, endedHere, List.append_assoc]
  exact (perm_ended_handed label waits laterLabel keeps list).append_left _

/-- A loop with an escape is left short of a chunk. -/
theorem loop_escapes (turns : ∀ chunk (batch : ProfiledBatch chunks Job),
      batch.Turn (label chunk) (contained chunk) (waits chunk) (body chunk batch))
    {list : List Chunk} (escape : ¬ ∀ chunk ∈ list, contained chunk)
    (batch : ProfiledBatch chunks Job) (idle : batch.jobs = []) :
    ∃ raised next, forEach body list batch = (.error raised, next) ∧
      next.ended.length < batch.ended.length + list.length := by
  obtain ⟨raised, next, ran, short⟩ :=
    forEach_escapes (account label contained waits)
      (fun chunk batch => (turns chunk batch).accounted) escape batch
  refine ⟨raised, next, ran, ?_⟩
  change next.ended.length + next.jobs.length < batch.ended.length + batch.jobs.length + _ at short
  rw [idle, List.length_nil] at short
  omega

/-- A last loop completes the batch exactly when no exception leaves it. -/
theorem lastLoop_perm_iff (turns : ∀ chunk (batch : ProfiledBatch chunks Job),
      batch.Turn (label chunk) (contained chunk) none (body chunk batch))
    {list : List Chunk} {batch : ProfiledBatch chunks Job}
    (all : (batch.ended ++ list.map label).Perm (List.range chunks)) :
    (forEach body list batch).2.ended.Perm (List.range chunks) ↔
      ∀ chunk ∈ list, contained chunk := by
  by_cases through : ∀ chunk ∈ list, contained chunk
  · obtain ⟨next, ran, ended, -⟩ :=
      forEach_through (lastAccount label contained)
        (fun chunk batch => (turns chunk batch).lastAccounted) through batch
    have endedHere : next.ended = batch.ended ++ list.map label := by
      simpa [lastAccount] using ended
    rw [ran, endedHere]
    exact iff_of_true all through
  · obtain ⟨raised, next, ran, short⟩ :=
      forEach_escapes (lastAccount label contained)
        (fun chunk batch => (turns chunk batch).lastAccounted) through batch
    refine iff_of_false (fun complete => ?_) through
    have length : next.ended.length = chunks := by simpa [ran] using complete.length_eq
    have total := all.length_eq
    change next.ended.length + 0 < batch.ended.length + 0 + list.length at short
    rw [List.length_append, List.length_map, List.length_range] at total
    omega

end Loops

end ProfiledBatch

end LMCacheHcu.Xds.Profiling
