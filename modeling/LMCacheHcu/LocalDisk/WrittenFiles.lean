import LMCacheHcu.Foundation.ByteFiles
import LMCacheHcu.LocalDisk.SaveTasks

/-! # The files of the local disk backend

`write_file` writes a buffer with one `os.write` on a descriptor that bypasses the
page cache when the size is a multiple of the block size, and through a buffered
stream otherwise. Only the stream asks again after a short count, and only the
stream truncates the file before. `read_file` counts what it reads.
-/

namespace LMCacheHcu.LocalDisk

open Storage ByteFiles

/-- The attributes of the backend that its file methods read. -/
structure DiskIO where
  osDiskBs : ℕ
  useOdirect : Bool

/-- The size is written and read with `O_DIRECT`. -/
def DiskIO.direct (io : DiskIO) (size : ℕ) : Bool :=
  decide (size % io.osDiskBs = 0) && io.useOdirect

/-- The exceptions that the handlers of the file methods tell apart. -/
inductive Failure
  | fileNotFound
  | permission
  | os
  | unexpected
deriving DecidableEq, Repr

/-! ### Writing -/

/-- What the calls of one `write_file` return or raise: the opening, the one
`os.write`, the raw writes of the stream, the closing, and the `os.remove` of the
cleanup. `elapsed` is the difference of the two clock readings. -/
structure WriteCalls where
  opening : Option Failure
  osWrite : (asked : ℕ) → Except Failure { count : ℕ // count ≤ asked }
  rawWrite : ℕ → (asked : ℕ) → Except Failure (Count asked)
  closing : Option Failure
  removes : Bool
  elapsed : ℚ

inductive WriteOutcome
  | returned (written : Bool)
  /-- of the division by the elapsed time -/
  | raisedZeroDivisionError
deriving DecidableEq, Repr

namespace WriteCalls

variable (calls : WriteCalls) (io : DiskIO) (buffer : List Byte) (before : Option (List Byte))

/-- What the stream's raw writes do with a buffer of the size. -/
def stream (size : ℕ) : ℕ × Option Failure := writeRest calls.rawWrite size 0 size

/-- The body of the `try`: the file afterwards, and what was raised. An exception of
the closing takes the place of an earlier one. -/
def attempt : Option (List Byte) × Option Failure :=
  match calls.opening with
  | some failure => (before, some failure)
  | none =>
      if io.direct buffer.length then
        -- Opened without `O_TRUNC`: the bytes behind the written ones stay.
        match calls.osWrite buffer.length with
        | .error failure => (some (before.getD []), some (calls.closing.getD failure))
        | .ok count => (some (writeAt (before.getD []) 0 (buffer.take count)), calls.closing)
      else
        let written := calls.stream buffer.length
        (some (buffer.take written.1), calls.closing.or written.2)

/-- `_hcu_cleanup_partial_file`. -/
def cleanupPartialFile (file : Option (List Byte)) : Option (List Byte) :=
  if calls.removes then none else file

/-- What the handlers do with the file. -/
def handle (failure : Failure) (file : Option (List Byte)) : Option (List Byte) :=
  match failure with
  | .fileNotFound => file
  | .permission | .os | .unexpected => calls.cleanupPartialFile file

/-- `_hcu_write_file`: the file afterwards, and the outcome. -/
def writeFile : Option (List Byte) × WriteOutcome :=
  match calls.attempt io buffer before with
  | (file, some failure) => (calls.handle failure file, .returned false)
  | (file, none) =>
      (file, if calls.elapsed = 0 then .raisedZeroDivisionError else .returned true)

end WriteCalls

/-! ### Reading -/

/-- What the calls of one `read_file` return or raise: an exception, or how many of
the bytes there are `readinto` returns. -/
structure ReadCalls where
  raising : Option Failure
  readinto : ℕ → ℕ
  readinto_le : ∀ available, readinto available ≤ available

/-- Reads that raise nothing and return all the bytes there are. -/
structure ReadCalls.Full (calls : ReadCalls) : Prop where
  raising : calls.raising = none
  readinto : ∀ available, calls.readinto available = available

/-- `_hcu_read_file`, in either branch: the result, and the buffer afterwards. A
result of `False` follows `self.remove(key)`. -/
def ReadCalls.readFile (calls : ReadCalls) (file : Option (List Byte)) (buffer : List Byte) :
    Bool × List Byte :=
  match file, calls.raising with
  | some content, none =>
      let bytesRead := calls.readinto (min buffer.length content.length)
      (decide (bytesRead = buffer.length), content.take bytesRead ++ buffer.drop bytesRead)
  | _, _ => (false, buffer)

/-! ### The save task -/

variable {Key : Type} [DecidableEq Key]

/-- A put with the bytes of its buffer. -/
structure BufferedPut (Key : Type) extends Put Key where
  byteArray : List Byte
  sized : object.bufferSize = byteArray.length

namespace Disk

variable (disk : Disk Key)

/-- `_hcu_async_save_bytes_to_disk` without other tasks: the backend afterwards. The
callback is not modelled, its exceptions are caught. -/
def asyncSaveBytesToDisk (put : Put Key) (outcome : WriteOutcome) : Disk Key :=
  let added := { disk with usage := disk.usage + put.object.bufferSize }
  match outcome with
  | .raisedZeroDivisionError => added
  | .returned false =>
      ({ added with usage := added.usage - put.object.bufferSize }.release put).removePutTask put
  | .returned true => ((added.release put).insertKey put).removePutTask put

end Disk

/-- Steps of a job while no other one runs. -/
def advanceAlone (written : Bool) : ℕ → Disk Key → Job Key → Option (Disk Key × Job Key)
  | 0, disk, job => some (disk, job)
  | count + 1, disk, job => (advance disk written job).bind fun moved =>
      advanceAlone written count moved.1 moved.2

/-- The save task is its job's five steps. -/
theorem advanceAlone_queued {disk : Disk Key} (unlocked : disk.locked = false) (put : Put Key)
    (written : Bool) : advanceAlone written 5 disk (.queued put) =
      some (disk.asyncSaveBytesToDisk put (.returned written),
        if written then .saved put else .failed put) := by
  obtain ⟨dict, usage, currentCacheSize, putTasks, references, locked⟩ := disk
  cases unlocked
  cases written with
  | false => rfl
  | true => rfl

/-! ### What is to hold, and when -/

section Guarantee

variable (calls : WriteCalls) (io : DiskIO) (buffer : List Byte) (before : Option (List Byte))

/-- There is no part of the buffer at the path: no file, the one before, or all of it. -/
def NoPartialFile (file : Option (List Byte)) : Prop :=
  file = none ∨ file = before ∨ file = some buffer

/-- **The property.** A reported success is read back by a full read of the same
length; otherwise no entry is published and no partial file is left. -/
structure RoundTrips (disk : Disk Key) (put : BufferedPut Key) : Prop where
  readBack : (calls.writeFile io put.byteArray before).2 = .returned true →
    ∀ (reads : ReadCalls) (buffer : List Byte), reads.Full →
      buffer.length = put.byteArray.length →
      reads.readFile (calls.writeFile io put.byteArray before).1 buffer = (true, put.byteArray)
  unpublished : (calls.writeFile io put.byteArray before).2 ≠ .returned true →
    (disk.asyncSaveBytesToDisk put.toPut (calls.writeFile io put.byteArray before).2).dict =
      disk.dict
  noPartialFile : (calls.writeFile io put.byteArray before).2 ≠ .returned true →
    NoPartialFile put.byteArray before (calls.writeFile io put.byteArray before).1

/-- **The condition.** The one `os.write` that reports success wrote everything, or the
file had the rest of the buffer behind it already; and what a failure leaves is
removed, or it is the file before or the whole buffer. -/
structure WritesWhole : Prop where
  counted : io.direct buffer.length = true → calls.opening = none → calls.closing = none →
    calls.elapsed ≠ 0 → ∀ count, calls.osWrite buffer.length = .ok count →
      readAt (before.getD []) count (buffer.length - count) = buffer.drop count
  timed : io.direct buffer.length = true → calls.opening = none → calls.closing = none →
    calls.elapsed = 0 → ∀ count, calls.osWrite buffer.length = .ok count →
      NoPartialFile buffer before (some (writeAt (before.getD []) 0 (buffer.take count)))
  cleaned : ∀ failure, (calls.attempt io buffer before).2 = some failure →
    failure ≠ .fileNotFound ∧ calls.removes = true ∨
      NoPartialFile buffer before (calls.attempt io buffer before).1

variable {calls io buffer before}

/-- A full read returns the bytes that the file has. -/
theorem readFile_iff {reads : ReadCalls} (full : reads.Full) {content expected buffer : List Byte}
    (same : buffer.length = expected.length) :
    reads.readFile (some content) buffer = (true, expected) ↔
      readAt content 0 expected.length = expected := by
  simp only [ReadCalls.readFile, full.raising, full.readinto, same, readAt, List.drop_zero,
    Prod.mk.injEq, decide_eq_true_eq, min_eq_left_iff]
  constructor
  · rintro ⟨enough, bytes⟩
    rwa [min_eq_left enough, List.drop_of_length_le same.le, List.append_nil] at bytes
  · intro bytes
    have enough : expected.length ≤ content.length := by
      have size := congrArg List.length bytes
      rw [List.length_take] at size
      omega
    refine ⟨enough, ?_⟩
    rw [min_eq_left enough, List.drop_of_length_le same.le, List.append_nil, bytes]

theorem attempt_direct (direct : io.direct buffer.length = true) (opened : calls.opening = none)
    {count : { count : ℕ // count ≤ buffer.length }}
    (wrote : calls.osWrite buffer.length = .ok count) :
    calls.attempt io buffer before =
      (some (writeAt (before.getD []) 0 (buffer.take count)), calls.closing) := by
  simp only [WriteCalls.attempt, opened, direct, wrote, if_true]

/-- An attempt that raises nothing is one call of `os.write`, or the whole buffer. -/
theorem attempt_none (returned : (calls.attempt io buffer before).2 = none) :
    io.direct buffer.length = true ∧ calls.opening = none ∧ calls.closing = none ∧
        (∃ count, calls.osWrite buffer.length = .ok count ∧
          (calls.attempt io buffer before).1 =
            some (writeAt (before.getD []) 0 (buffer.take count))) ∨
      (calls.attempt io buffer before).1 = some buffer := by
  unfold WriteCalls.attempt at returned ⊢
  cases opened : calls.opening with
  | some failure =>
      rw [opened] at returned
      cases returned
  | none =>
      rw [opened] at returned
      dsimp only at returned ⊢
      by_cases direct : io.direct buffer.length = true
      · rw [if_pos direct] at returned ⊢
        cases wrote : calls.osWrite buffer.length with
        | error failure =>
            rw [wrote] at returned
            cases returned
        | ok count =>
            rw [wrote] at returned
            exact .inl ⟨direct, rfl, returned, count, rfl, rfl⟩
      · rw [if_neg direct] at returned ⊢
        obtain ⟨-, nothing⟩ := Option.or_eq_none_iff.mp returned
        have whole := (writeRest_total calls.rawWrite le_rfl 0).1 nothing
        refine .inr ?_
        rw [WriteCalls.stream, whole, List.take_length]

theorem writeFile_some {failure : Failure}
    (raised : (calls.attempt io buffer before).2 = some failure) :
    calls.writeFile io buffer before =
      (calls.handle failure (calls.attempt io buffer before).1, .returned false) := by
  unfold WriteCalls.writeFile
  cases attempted : calls.attempt io buffer before with
  | mk file result =>
      rw [attempted] at raised
      cases raised
      rfl

theorem writeFile_none (returned : (calls.attempt io buffer before).2 = none) :
    calls.writeFile io buffer before = ((calls.attempt io buffer before).1,
      if calls.elapsed = 0 then .raisedZeroDivisionError else .returned true) := by
  unfold WriteCalls.writeFile
  cases attempted : calls.attempt io buffer before with
  | mk file result =>
      rw [attempted] at returned
      cases returned
      rfl

/-- What the handlers leave is no part of the buffer exactly when they clean up or
there was none. -/
theorem noPartialFile_handle {failure : Failure} {file : Option (List Byte)} :
    NoPartialFile buffer before (calls.handle failure file) ↔
      failure ≠ .fileNotFound ∧ calls.removes = true ∨ NoPartialFile buffer before file := by
  have cleanup : NoPartialFile buffer before (calls.cleanupPartialFile file) ↔
      calls.removes = true ∨ NoPartialFile buffer before file := by
    unfold WriteCalls.cleanupPartialFile
    by_cases removes : calls.removes = true
    · rw [if_pos removes]
      exact iff_of_true (.inl rfl) (.inl removes)
    · rw [if_neg removes, or_iff_right removes]
  cases failure with
  | fileNotFound => exact (or_iff_right fun cleaned => cleaned.1 rfl).symm
  | permission | os | unexpected =>
      rw [WriteCalls.handle, cleanup]
      simp only [ne_eq, reduceCtorEq, not_false_eq_true, true_and]

/-- **Round trips of the local disk.** A save is read back or leaves nothing behind
exactly when the writes are whole. -/
theorem roundTrips_iff (calls : WriteCalls) (io : DiskIO) (before : Option (List Byte))
    (disk : Disk Key) (put : BufferedPut Key) :
    RoundTrips calls io before disk put ↔ WritesWhole calls io put.byteArray before := by
  constructor
  · intro trips
    refine ⟨fun direct opened closed elapsed count wrote => ?_,
      fun direct opened closed elapsed count wrote => ?_, fun failure raised => ?_⟩
    · have attempted : calls.attempt io put.byteArray before = _ := attempt_direct direct opened wrote
      have written : calls.writeFile io put.byteArray before = (_, _) :=
        writeFile_none (by rw [attempted, closed])
      rw [attempted, if_neg elapsed] at written
      have readBack := trips.readBack (congrArg Prod.snd written)
        ⟨none, id, fun _ => le_rfl⟩ put.byteArray ⟨rfl, fun _ => rfl⟩ rfl
      rw [written, readFile_iff ⟨rfl, fun _ => rfl⟩ rfl] at readBack
      exact (readAt_writeAt_take_iff count.2).mp readBack
    · have attempted : calls.attempt io put.byteArray before = _ := attempt_direct direct opened wrote
      have written : calls.writeFile io put.byteArray before = (_, _) :=
        writeFile_none (by rw [attempted, closed])
      rw [attempted, if_pos elapsed] at written
      have left := trips.noPartialFile (by rw [written]; simp)
      rwa [written] at left
    · have written := writeFile_some raised
      have left := trips.noPartialFile (by rw [written]; simp)
      rw [written] at left
      exact noPartialFile_handle.mp left
  · intro whole
    cases result : (calls.attempt io put.byteArray before).2 with
    | some failure =>
        have written := writeFile_some result
        refine ⟨fun reported => ?_, fun _ => ?_, fun _ => ?_⟩
        · rw [written] at reported
          cases reported
        · rw [written]
          rfl
        · rw [written]
          exact noPartialFile_handle.mpr (whole.cleaned failure result)
    | none =>
        have written := writeFile_none result
        by_cases elapsed : calls.elapsed = 0
        · rw [if_pos elapsed] at written
          refine ⟨fun reported => ?_, fun _ => ?_, fun _ => ?_⟩
          · rw [written] at reported
            cases reported
          · rw [written]
            rfl
          · rw [written]
            rcases attempt_none result with ⟨direct, opened, closed, count, wrote, left⟩ | left
            · rw [left]
              exact whole.timed direct opened closed elapsed count wrote
            · exact .inr (.inr left)
        · rw [if_neg elapsed] at written
          refine ⟨fun _ reads buffer full same => ?_, fun failed => ?_, fun failed => ?_⟩
          · rw [written]
            rcases attempt_none result with ⟨direct, opened, closed, count, wrote, left⟩ | left
            · rw [left, readFile_iff full same]
              exact (readAt_writeAt_take_iff count.2).mpr
                (whole.counted direct opened closed elapsed count wrote)
            · rw [left, readFile_iff full same]
              exact List.take_length
          · exact absurd (congrArg Prod.snd written) failed
          · exact absurd (congrArg Prod.snd written) failed

/-- One page, written over a page of zeros by an `os.write` of 512 bytes. -/
def shortWrite : WriteCalls where
  opening := none
  osWrite := fun asked => .ok ⟨min 512 asked, Nat.min_le_right ..⟩
  rawWrite := fun _ asked => .ok ⟨asked, le_rfl, id⟩
  closing := none
  removes := true
  elapsed := 1

def onePagePut : BufferedPut ℕ where
  key := 0
  object := ⟨0, [4096], .uint8, 4096, 4096, by decide⟩
  byteArray := List.replicate 4096 1
  sized := by rw [List.length_replicate]; rfl

/-- The short write is reported as a success, and most of the page read back is old. -/
theorem not_roundTrips_shortWrite :
    ¬ RoundTrips shortWrite ⟨4096, true⟩ (some (List.replicate 4096 0)) State.initial.disk
      onePagePut := by
  intro trips
  have readBack := trips.readBack (by decide +kernel) ⟨none, id, fun _ => le_rfl⟩
    onePagePut.byteArray ⟨rfl, fun _ => rfl⟩ rfl
  exact absurd readBack (by decide +kernel)

end Guarantee

end LMCacheHcu.LocalDisk
