import LMCacheHcu.Foundation.ByteFiles
import LMCacheHcu.Foundation.WhileLoop

/-! # Publishing a file by a rename

A file is written piece after piece under a temporary name, its size is checked, it is
closed and renamed. A call of the system writes some of the bytes that it is asked for,
none of them, or raises; a loop asks for the rest of a piece again. Whatever is raised,
a handler closes the file if it is still open, removes it and raises again. What the
handler's own calls raise ends the handler.
-/

namespace ByteFiles

open WhileLoop

variable {E : Type}

/-- What the calls of one publication raise or write. `write` is by the number of the
call. `closingAgain` is the close in the handler. -/
structure PublishCalls (E : Type) where
  opening : Option E
  write : ℕ → (asked : ℕ) → Except E { count : ℕ // count ≤ asked }
  stat : Option E
  closing : Option E
  closingAgain : Option E
  replacing : Option E
  removing : Option E

/-- Some data to write, and what is raised when a call writes none of its rest. -/
structure Piece (E : Type) where
  data : List UInt8
  noProgress : (written : ℕ) → E

/-- The file behind the descriptor, and the number of the next call that writes to it. -/
structure OpenFile where
  call : ℕ
  content : List UInt8

/-- The data of a piece, if it can be made. -/
def dataOf : Except E (Piece E) → List UInt8
  | .ok piece => piece.data
  | .error _ => []

namespace PublishCalls

variable (calls : PublishCalls E)

/-! ### Writing a piece -/

structure Writing where
  written : ℕ
  file : OpenFile

def writePass (piece : Piece E) (state : Writing) : Pass Writing (Option E × OpenFile) :=
  if state.written < piece.data.length then
    match calls.write state.file.call (piece.data.length - state.written) with
    | .error failure => .leave (some failure, state.file)
    | .ok count =>
        if (count : ℕ) = 0 then .leave (some (piece.noProgress state.written), state.file)
        else
          .again ⟨state.written + count, state.file.call + 1,
            state.file.content ++ (piece.data.drop state.written).take count⟩
  else .leave (none, state.file)

/-- The loop, cut off after a number of passes. -/
def writeAll (passes : ℕ) (piece : Piece E) (file : OpenFile) : Option (Option E × OpenFile) :=
  run (calls.writePass piece) passes ⟨0, file⟩

/-- The calls from a number on each write something, until nothing is left of the bytes.
The last number is that of the next call. -/
inductive Writes : ℕ → ℕ → ℕ → Prop
  | done (call : ℕ) : Writes call 0 call
  | more {call asked next : ℕ} {count : { count : ℕ // count ≤ asked }}
      (wrote : calls.write call asked = .ok count) (progress : 0 < (count : ℕ))
      (rest : Writes (call + 1) (asked - count) next) : Writes call asked next

variable {calls}

theorem writes_iff {call asked next : ℕ} (left : 0 < asked) :
    calls.Writes call asked next ↔ ∃ count : { count : ℕ // count ≤ asked },
      calls.write call asked = .ok count ∧ 0 < (count : ℕ) ∧
        calls.Writes (call + 1) (asked - count) next := by
  constructor
  · intro writes
    cases writes with
    | done => exact absurd left (lt_irrefl 0)
    | more wrote progress rest => exact ⟨_, wrote, progress, rest⟩
  · rintro ⟨count, wrote, progress, rest⟩
    exact .more wrote progress rest

/-- What has been written is a part of the piece, and the calls to come decide. -/
structure WritingInv (calls : PublishCalls E) (piece : Piece E) (before : OpenFile)
    (state : Writing) : Prop where
  inside : state.written ≤ piece.data.length
  content : state.file.content = before.content ++ piece.data.take state.written
  rest : ∀ next, calls.Writes before.call piece.data.length next ↔
    calls.Writes state.file.call (piece.data.length - state.written) next

/-- All of the piece is written, or a call is to blame. -/
structure PieceDone (calls : PublishCalls E) (piece : Piece E) (before : OpenFile)
    (result : Option E × OpenFile) : Prop where
  whole : result.1 = none → result.2.content = before.content ++ piece.data ∧
    calls.Writes before.call piece.data.length result.2.call
  raised : result.1 ≠ none → ∀ next, ¬ calls.Writes before.call piece.data.length next

/-- The loop makes progress with each pass that goes on. -/
theorem total_writePass (calls : PublishCalls E) (piece : Piece E) (before : OpenFile) :
    Total (calls.writePass piece) (WritingInv calls piece before)
      (fun state => piece.data.length - state.written) (PieceDone calls piece before) where
  again := by
    rintro ⟨written, call, content⟩ next ⟨inside, contents, rest⟩ step
    dsimp only at inside contents rest ⊢
    unfold writePass at step
    dsimp only at step
    by_cases left : written < piece.data.length
    · rw [if_pos left] at step
      cases wrote : calls.write call (piece.data.length - written) with
      | error failure =>
          rw [wrote] at step
          cases step
      | ok count =>
          rw [wrote] at step
          dsimp only at step
          by_cases none : (count : ℕ) = 0
          · rw [if_pos none] at step
            cases step
          · rw [if_neg none] at step
            cases step
            have le := count.property
            refine ⟨⟨by dsimp only; omega, ?_, fun next => ?_⟩, by dsimp only; omega⟩
            · dsimp only
              rw [contents, List.append_assoc, ← List.take_add]
            · rw [rest next, writes_iff (by omega)]
              dsimp only
              rw [← Nat.sub_sub]
              constructor
              · rintro ⟨other, same, _, more⟩
                rw [wrote, Except.ok.injEq] at same
                rwa [same]
              · exact fun more => ⟨count, wrote, Nat.pos_of_ne_zero none, more⟩
    · rw [if_neg left] at step
      cases step
  leave := by
    rintro ⟨written, call, content⟩ result ⟨inside, contents, rest⟩ step
    dsimp only at inside contents rest
    unfold writePass at step
    dsimp only at step
    by_cases left : written < piece.data.length
    · rw [if_pos left] at step
      cases wrote : calls.write call (piece.data.length - written) with
      | error failure =>
          rw [wrote] at step
          cases step
          refine ⟨nofun, fun _ next => ?_⟩
          rw [rest next, writes_iff (by omega)]
          rintro ⟨count, same, _⟩
          rw [wrote] at same
          cases same
      | ok count =>
          rw [wrote] at step
          dsimp only at step
          by_cases none : (count : ℕ) = 0
          · rw [if_pos none] at step
            cases step
            refine ⟨nofun, fun _ next => ?_⟩
            rw [rest next, writes_iff (by omega)]
            rintro ⟨other, same, progress, _⟩
            rw [wrote, Except.ok.injEq] at same
            rw [← same] at progress
            omega
          · rw [if_neg none] at step
            cases step
    · rw [if_neg left] at step
      cases step
      obtain rfl : written = piece.data.length := by omega
      refine ⟨fun _ => ⟨?_, ?_⟩, fun raised => absurd rfl raised⟩
      · rw [contents, List.take_length]
      · rw [rest, Nat.sub_self]
        exact .done call

theorem writeAll_spec (calls : PublishCalls E) (piece : Piece E) (before : OpenFile) :
    ∃ result, PieceDone calls piece before result ∧
      ∀ passes, piece.data.length < passes → calls.writeAll passes piece before = some result := by
  have initial : WritingInv calls piece before ⟨0, before⟩ :=
    ⟨Nat.zero_le _, by rw [List.take_zero, List.append_nil], fun _ => Iff.rfl⟩
  exact (total_writePass calls piece before).exists_result initial

/-! ### Writing all pieces -/

variable (calls)

/-- The loops over the pieces. A piece is made when its turn comes. -/
def writePieces (passes : ℕ) :
    List (Except E (Piece E)) → OpenFile → Option (Option E × OpenFile)
  | [], file => some (none, file)
  | .error failure :: _, file => some (some failure, file)
  | .ok piece :: pieces, file =>
      match calls.writeAll passes piece file with
      | none => none
      | some (some failure, reached) => some (some failure, reached)
      | some (none, reached) => writePieces passes pieces reached

/-- Each piece can be made, and the calls write all of it. -/
def WritesPieces : List (Except E (Piece E)) → ℕ → Prop
  | [], _ => True
  | .error _ :: _, _ => False
  | .ok piece :: pieces, call =>
      ∃ next, calls.Writes call piece.data.length next ∧ WritesPieces pieces next

variable {calls}

theorem writes_unique {call asked next other : ℕ} (writes : calls.Writes call asked next)
    (writes' : calls.Writes call asked other) : next = other := by
  induction writes with
  | done call =>
      cases writes' with
      | done => rfl
      | @more _ _ _ count _ progress _ => exact absurd progress (Nat.not_lt.mpr count.property)
  | @more call asked next count wrote progress rest ih =>
      obtain ⟨other, same, _, rest'⟩ :=
        (writes_iff (progress.trans_le count.property)).mp writes'
      rw [wrote, Except.ok.injEq] at same
      rw [← same] at rest'
      exact ih rest'

/-- **The written file.** The loops end, and without an exception exactly when each call
wrote something; then the file has all the data. -/
theorem writePieces_spec (calls : PublishCalls E) (pieces : List (Except E (Piece E)))
    (before : OpenFile) : ∃ result : Option E × OpenFile,
      (result.1 = none ↔ calls.WritesPieces pieces before.call) ∧
      (result.1 = none → result.2.content = before.content ++ pieces.flatMap dataOf) ∧
      ∀ passes, (∀ piece ∈ pieces, (dataOf piece).length < passes) →
        calls.writePieces passes pieces before = some result := by
  induction pieces generalizing before with
  | nil =>
      exact ⟨(none, before), iff_of_true rfl trivial, fun _ => (List.append_nil _).symm,
        fun _ _ => rfl⟩
  | cons first pieces ih =>
      cases first with
      | error failure =>
          exact ⟨(some failure, before), iff_of_false nofun id, nofun, fun _ _ => rfl⟩
      | ok piece =>
          obtain ⟨⟨failure, reached⟩, ⟨whole, raised⟩, runs⟩ := writeAll_spec calls piece before
          cases failure with
          | some failure =>
              refine ⟨(some failure, reached), iff_of_false nofun ?_, nofun,
                fun passes enough => ?_⟩
              · rintro ⟨next, writes, _⟩
                exact raised nofun next writes
              · rw [writePieces, runs passes (enough _ List.mem_cons_self)]
          | none =>
              obtain ⟨content, writes⟩ := whole rfl
              obtain ⟨result, returns, contents, rest⟩ := ih reached
              refine ⟨result, returns.trans ⟨fun others => ⟨_, writes, others⟩, ?_⟩, fun none => ?_,
                fun passes enough => ?_⟩
              · rintro ⟨next, writes', others⟩
                rwa [writes_unique writes writes']
              · rw [contents none, content, List.append_assoc]
                rfl
              · rw [writePieces, runs passes (enough _ List.mem_cons_self)]
                exact rest passes fun other member => enough other (List.mem_cons_of_mem _ member)

end PublishCalls

/-! ### Publishing -/

variable {Name : Type} [DecidableEq Name]

/-- What is to be published, and under which names. -/
structure Publication (E Name : Type) where
  tmp : Name
  path : Name
  pieces : List (Except E (Piece E))
  size : ℤ
  wrongSize : (actual : ℕ) → E

/-- How the body ends: the exception, whether the handler finds a descriptor, and the
files. -/
structure Attempt (E Name : Type) where
  raised : Option E
  descriptor : Bool
  files : Files Name

namespace Publication

variable (publication : Publication E Name) (calls : PublishCalls E) (before : Files Name)

def content : List UInt8 := publication.pieces.flatMap dataOf

/-- The size is checked and the file is closed. -/
def close (file : OpenFile) : Option E :=
  calls.stat.or <|
    (if (file.content.length : ℤ) ≠ publication.size then
      some (publication.wrongSize file.content.length) else none).or calls.closing

/-- The body behind the loops. -/
def finish (raised : Option E) (file : OpenFile) : Attempt E Name :=
  let written := before.store publication.tmp file.content
  match raised.or (publication.close calls file) with
  | some failure => ⟨some failure, true, written⟩
  | none =>
      match calls.replacing with
      | some failure => ⟨some failure, false, written⟩
      | none => ⟨none, false, written.rename publication.tmp publication.path⟩

/-- The body. -/
def attempt (passes : ℕ) : Option (Attempt E Name) :=
  match calls.opening with
  | some failure => some ⟨some failure, false, before⟩
  | none => (calls.writePieces passes publication.pieces ⟨0, []⟩).map fun reached =>
      publication.finish calls before reached.1 reached.2

/-- The handler: what it raises, and the files. A file that is not there is passed over. -/
def handle (failure : E) (descriptor : Bool) (files : Files Name) : E × Files Name :=
  match if descriptor then calls.closingAgain else none with
  | some masking => (masking, files)
  | none =>
      match files publication.tmp with
      | none => (failure, files)
      | some _ =>
          match calls.removing with
          | some masking => (masking, files)
          | none => (failure, files.remove publication.tmp)

/-- What is raised in the end, and the files. -/
def settle (attempt : Attempt E Name) : Option E × Files Name :=
  match attempt.raised with
  | none => (none, attempt.files)
  | some failure =>
      let handled := publication.handle calls failure attempt.descriptor attempt.files
      (some handled.1, handled.2)

def publish (passes : ℕ) : Option (Option E × Files Name) :=
  (publication.attempt calls before passes).map (publication.settle calls)

/-! ### What is to hold, and when -/

/-- **The property.** The file is published whole, or nothing has changed at its name
and nothing is left under the temporary one. -/
structure Atomic (outcome : Option E × Files Name) : Prop where
  published : outcome.1 = none → outcome.2 publication.path = some publication.content
  unchanged : outcome.1 ≠ none → outcome.2 publication.path = before publication.path
  cleaned : outcome.1 ≠ none → outcome.2 publication.tmp = none

/-- No call of the body raises before the rename, and each that writes, writes something. -/
structure Closes : Prop where
  writes : calls.WritesPieces publication.pieces 0
  stat : calls.stat = none
  closing : calls.closing = none

/-- **The condition.** Where the body fails with the file open, the handler can close
it; where it leaves a file, the handler can remove it. -/
structure CleansUp : Prop where
  closesAgain : calls.opening = none → ¬ publication.Closes calls → calls.closingAgain = none
  removes : (calls.opening = none ∧ ¬ (publication.Closes calls ∧ calls.replacing = none)) ∨
    (calls.opening ≠ none ∧ before publication.tmp ≠ none) → calls.removing = none

variable {publication calls before}

omit [DecidableEq Name] in
theorem close_eq_none_iff {file : OpenFile} (sized : (file.content.length : ℤ) = publication.size) :
    publication.close calls file = none ↔ calls.stat = none ∧ calls.closing = none := by
  rw [close, if_neg (not_not.mpr sized), Option.or_eq_none_iff, Option.none_or]

/-- The handler leaves the file at the name alone. -/
theorem handle_path (differ : publication.tmp ≠ publication.path) (failure : E) (descriptor : Bool)
    (files : Files Name) : (publication.handle calls failure descriptor files).2 publication.path =
      files publication.path := by
  unfold handle
  split
  · rfl
  · split
    · rfl
    · split
      · rfl
      · exact Function.update_of_ne differ.symm ..

/-- The temporary file is gone after the handler when there was none, or when the calls
that are made raise nothing. -/
theorem handle_tmp_iff (failure : E) (descriptor : Bool) (files : Files Name) :
    (publication.handle calls failure descriptor files).2 publication.tmp = none ↔
      files publication.tmp = none ∨
        (descriptor = true → calls.closingAgain = none) ∧ calls.removing = none := by
  unfold handle
  cases there : files publication.tmp with
  | none =>
      refine iff_of_true ?_ (.inl rfl)
      split
      · exact there
      · exact there
  | some content =>
      cases descriptor with
      | false =>
          cases removing : calls.removing with
          | some masking => simp [there]
          | none => simp [Files.remove]
      | true =>
          cases closing : calls.closingAgain with
          | some masking => simp [there]
          | none =>
              cases removing : calls.removing with
              | some masking => simp [there]
              | none => simp [Files.remove]

/-- A failing body that has left the file at the name alone. -/
theorem atomic_settle_iff (differ : publication.tmp ≠ publication.path)
    {failure : E} {descriptor : Bool} {files : Files Name}
    (same : files publication.path = before publication.path) :
    publication.Atomic before (publication.settle calls ⟨some failure, descriptor, files⟩) ↔
      files publication.tmp = none ∨
        (descriptor = true → calls.closingAgain = none) ∧ calls.removing = none := by
  rw [← handle_tmp_iff failure]
  constructor
  · exact fun atomic => atomic.cleaned nofun
  · exact fun gone => ⟨nofun, fun _ => (handle_path differ ..).trans same, fun _ => gone⟩

theorem atomic_finish_iff (differ : publication.tmp ≠ publication.path)
    (opened : calls.opening = none) {raised : Option E} {file : OpenFile}
    (writes : raised = none ↔ calls.WritesPieces publication.pieces 0)
    (whole : raised = none → file.content = publication.content)
    (sized : calls.WritesPieces publication.pieces 0 →
      (publication.content.length : ℤ) = publication.size) :
    publication.Atomic before
        (publication.settle calls (publication.finish calls before raised file)) ↔
      publication.CleansUp calls before := by
  have stored : before.store publication.tmp file.content publication.path =
      before publication.path := Files.store_of_ne _ differ.symm _
  have there : before.store publication.tmp file.content publication.tmp ≠ none := by
    rw [Files.store_self]
    exact nofun
  have closes : raised.or (publication.close calls file) = none ↔ publication.Closes calls := by
    rw [Option.or_eq_none_iff]
    constructor
    · rintro ⟨returned, closed⟩
      obtain ⟨stat, closing⟩ := (close_eq_none_iff (by
        rw [whole returned]
        exact sized (writes.mp returned))).mp closed
      exact ⟨writes.mp returned, stat, closing⟩
    · rintro ⟨written, stat, closing⟩
      have returned := writes.mpr written
      refine ⟨returned, (close_eq_none_iff ?_).mpr ⟨stat, closing⟩⟩
      rw [whole returned]
      exact sized written
  unfold finish
  dsimp only
  cases closed : raised.or (publication.close calls file) with
  | some failure =>
      have fails : ¬ publication.Closes calls := by
        rw [← closes, closed]
        exact nofun
      dsimp only
      rw [atomic_settle_iff differ stored, or_iff_right there]
      constructor
      · rintro ⟨closesAgain, removes⟩
        exact ⟨fun _ _ => closesAgain rfl, fun _ => removes⟩
      · rintro ⟨closesAgain, removes⟩
        exact ⟨fun _ => closesAgain opened fails, removes (.inl ⟨opened, fun both => fails both.1⟩)⟩
  | none =>
      have done : publication.Closes calls := closes.mp closed
      dsimp only
      cases replacing : calls.replacing with
      | some failure =>
          dsimp only
          rw [atomic_settle_iff differ stored, or_iff_right there]
          constructor
          · rintro ⟨_, removes⟩
            exact ⟨fun _ fails => absurd done fails, fun _ => removes⟩
          · rintro ⟨_, removes⟩
            refine ⟨nofun, removes (.inl ⟨opened, fun both => ?_⟩)⟩
            rw [replacing] at both
            cases both.2
      | none =>
          dsimp only
          have returned := writes.mpr done.writes
          refine iff_of_true ⟨fun _ => ?_, fun raised => absurd rfl raised,
            fun raised => absurd rfl raised⟩ ⟨fun _ fails => absurd done fails, ?_⟩
          · dsimp only [settle]
            rw [Files.rename_store_self, whole returned]
          · rintro (⟨_, fails⟩ | ⟨refused, _⟩)
            · exact absurd ⟨done, replacing⟩ fails
            · exact absurd opened refused

/-- **When a publication is atomic.** It always ends, with large enough bounds on its
loops. -/
theorem publish_spec (calls : PublishCalls E) (before : Files Name)
    (differ : publication.tmp ≠ publication.path)
    (sized : calls.WritesPieces publication.pieces 0 →
      (publication.content.length : ℤ) = publication.size) :
    ∃ outcome, (∀ passes, (∀ piece ∈ publication.pieces, (dataOf piece).length < passes) →
        publication.publish calls before passes = some outcome) ∧
      (publication.Atomic before outcome ↔ publication.CleansUp calls before) := by
  cases opening : calls.opening with
  | some failure =>
      refine ⟨publication.settle calls ⟨some failure, false, before⟩, fun passes _ => ?_, ?_⟩
      · rw [publish, attempt, opening]
        rfl
      rw [atomic_settle_iff differ rfl]
      constructor
      · intro cleaned
        refine ⟨fun opened => ?_, ?_⟩
        · rw [opening] at opened
          cases opened
        · rintro (⟨opened, _⟩ | ⟨_, there⟩)
          · rw [opening] at opened
            cases opened
          · rcases cleaned with gone | ⟨_, removes⟩
            · exact absurd gone there
            · exact removes
      · rintro ⟨_, removes⟩
        by_cases there : before publication.tmp = none
        · exact .inl there
        · refine .inr ⟨nofun, removes (.inr ⟨?_, there⟩)⟩
          rw [opening]
          exact nofun
  | none =>
      obtain ⟨⟨raised, file⟩, writes, whole, runs⟩ :=
        calls.writePieces_spec publication.pieces ⟨0, []⟩
      refine ⟨publication.settle calls (publication.finish calls before raised file),
        fun passes enough => ?_, ?_⟩
      · rw [publish, attempt, opening, runs passes enough]
        rfl
      · exact atomic_finish_iff differ opening writes whole sized

end Publication

end ByteFiles
