import LMCacheHcu.Foundation.Runs
import LMCacheHcu.Gds.LegacyStore

/-! # Legacy loads of the GDS backend

`_load_bytes_from_disk_with_memory` looks a key up, reads its file into the memory
object and compares what the read returns with the size. The copy from a mapping of the
file returns the size whatever the length of the file; exceptions of a read leave the
function with the object; and the key is popped without a default after a negative
count. Several loads of a key run at the same time.
-/

namespace LMCacheHcu.Gds

open Storage ByteCopy Runs

/-! ### The read -/

/-- What the calls of one read answer: the count of the cuFile read for the bytes there
are, unless opening or reading raises, whether the file can be opened and mapped, and the
code of `cudaMemcpy`. -/
structure ReadCalls where
  cufileRead : (available : ℕ) → Option { count : ℤ // count ≤ available }
  maps : Bool
  cudaMemcpy : ℤ

/-- How `_load_gds` ends, with the content of the file and the memory if it returns. -/
inductive GdsRead
  | returned (content : FileImage) (ret : ℤ) (memory : Memory)
  | raised
  | faulted

namespace GdsTransfer

variable (io : GdsTransfer)

/-- The bytes of the tensor that the file has behind the metadata. -/
def available (object : LegacyObject io) (content : FileImage) : ℕ :=
  min object.nbytes (content.size - metadataMaxSize).toNat

/-- `_load_gds` of the bytes behind the metadata. -/
def loadGds (object : LegacyObject io) (file : Option FileImage) (calls : ReadCalls)
    (memory : Memory) : GdsRead :=
  match file with
  | none => .raised
  | some content =>
      match io.library with
      | .cufile =>
          match calls.cufileRead (io.available object content) with
          | none => .raised
          | some count => .returned content count (Copy.write content.content memory
              ⟨metadataMaxSize, io.addr object + io.devOffset object, (count : ℤ).toNat⟩)
      | .cudart =>
          -- An empty file cannot be mapped, and behind its last page a mapping has nothing.
          if calls.maps = false ∨ content.size ≤ 0 ∨ io.addr object = 0 then .raised
          else if 0 < object.nbytes ∧
              content.mappedSize io.page < metadataMaxSize + object.nbytes then .faulted
          else if calls.cudaMemcpy ≠ 0 then .raised
          else .returned content object.nbytes (Copy.write content.mapping memory
            ⟨metadataMaxSize, io.addr object + io.devOffset object, object.nbytes⟩)

end GdsTransfer

/-! ### Loads of a backend -/

/-- How far a load is. -/
inductive LoadStage
  /-- before the lookup -/
  | entered
  | reading
  /-- before `self.hot_cache.pop(key)` -/
  | popping
  /-- the object is returned; with the content of the file at the read, and the memory -/
  | returned (content : FileImage) (memory : Memory)
  /-- `None` is returned -/
  | missed
  /-- an exception has left the function -/
  | raised
  | faulted

/-- The function has ended. -/
def LoadStage.isOver : LoadStage → Bool
  | .entered | .reading | .popping => false
  | _ => true

/-- A load into a memory object, with the number of its `ref_count_down` calls. -/
structure Load (io : GdsTransfer) (Key : Type) where
  key : Key
  object : LegacyObject io
  stage : LoadStage
  releases : ℕ

section Machine

variable {io : GdsTransfer} {Key : Type}

namespace Load

variable (load : Load io Key)

/-- Return `None` after `ref_count_down`. -/
def miss : Load io Key := { load with stage := .missed, releases := load.releases + 1 }

/-- What follows a read. -/
def afterRead (result : GdsRead) : Load io Key :=
  match result with
  | .raised => { load with stage := .raised }
  | .faulted => { load with stage := .faulted }
  | .returned content ret memory =>
      if ret ≠ load.object.nbytes then
        if ret < 0 then { load with stage := .popping } else load.miss
      else { load with stage := .returned content memory }

end Load

/-- The keys with a legacy entry in `hot_cache`, and the loads. -/
structure LoadState (io : GdsTransfer) (Key : Type) where
  hotCache : Finset Key
  loads : List (Load io Key)

inductive LoadEvent (io : GdsTransfer) (Key : Type)
  /-- a put or the scan sets the entry of a key -/
  | publish (key : Key)
  /-- a load is called with a memory object, which is valid or not -/
  | enter (key : Key) (object : LegacyObject io) (valid : Bool)
  | look (id : ℕ)
  /-- the read, with the file of the path at that time -/
  | read (id : ℕ) (file : Option FileImage) (calls : ReadCalls) (memory : Memory)
  | pop (id : ℕ)

namespace LoadState

def initial : LoadState io Key := ⟨∅, []⟩

variable [DecidableEq Key] (state : LoadState io Key)

def set (id : ℕ) (load : Load io Key) : LoadState io Key :=
  { state with loads := state.loads.set id load }

/-- The lookup of a load. -/
def look (id : ℕ) (load : Load io Key) : LoadState io Key :=
  if load.key ∈ state.hotCache then state.set id { load with stage := .reading }
  else state.set id load.miss

/-- The pop of a load with a negative count, which raises `KeyError` without the key. -/
def pop (id : ℕ) (load : Load io Key) : LoadState io Key :=
  if load.key ∈ state.hotCache then
    { state.set id load.miss with hotCache := state.hotCache.erase load.key }
  else state.set id { load with stage := .raised }

/-- A step of the backend. -/
def step (state : LoadState io Key) : LoadEvent io Key → Option (LoadState io Key)
  | .publish key => some { state with hotCache := insert key state.hotCache }
  | .enter key object valid =>
      some { state with loads :=
        state.loads ++ [⟨key, object, if valid then .entered else .missed, 0⟩] }
  | .look id => do
      let load ← state.loads[id]?
      match load.stage with
      | .entered => some (state.look id load)
      | _ => none
  | .read id file calls memory => do
      let load ← state.loads[id]?
      match load.stage with
      | .reading =>
          some (state.set id (load.afterRead (io.loadGds load.object file calls memory)))
      | _ => none
  | .pop id => do
      let load ← state.loads[id]?
      match load.stage with
      | .popping => some (state.pop id load)
      | _ => none

end LoadState

/-! ### What is to hold, and when -/

/-- **The property of a load.** An object is returned with all its bytes from the file,
it is released once when it is not returned, and the load raises nothing. -/
def Load.Sound (load : Load io Key) : Prop :=
  match load.stage with
  | .entered | .reading | .popping => load.releases = 0
  | .returned content memory => load.releases = 0 ∧
      HasBytes content ⟨metadataMaxSize, load.object.dataPtr, load.object.nbytes⟩ memory
  | .missed => load.releases = 1
  | .raised | .faulted => False

/-- The calls of a read raise nothing, and a file that is copied from a mapping has all
the bytes of the tensor. -/
def GdsTransfer.ReadsEnough (io : GdsTransfer) (object : LegacyObject io) (file : Option FileImage)
    (calls : ReadCalls) : Prop :=
  ∃ content, file = some content ∧
    match io.library with
    | .cufile => (calls.cufileRead (io.available object content)).isSome
    | .cudart => calls.maps = true ∧ 0 < content.size ∧ io.addr object ≠ 0 ∧
        calls.cudaMemcpy = 0 ∧
        (0 < object.nbytes → metadataMaxSize + object.nbytes ≤ content.size)

/-- **The condition of a step.** Loads are called with valid objects, reads read enough,
and the key of a load with a negative count is still there when it is popped. -/
def LoadState.Careful (state : LoadState io Key) : LoadEvent io Key → Prop
  | .publish _ | .look _ => True
  | .enter _ _ valid => valid = true
  | .read id file calls _ => ∀ load, state.loads[id]? = some load →
      io.ReadsEnough load.object file calls
  | .pop id => ∀ load, state.loads[id]? = some load → load.key ∈ state.hotCache

/-! ### One load -/

variable {load : Load io Key}

theorem Load.afterRead_returned (load : Load io Key) (content : FileImage) (ret : ℤ)
    (memory : Memory) : load.afterRead (.returned content ret memory) =
      if ret ≠ load.object.nbytes then
        if ret < 0 then { load with stage := .popping } else load.miss
      else { load with stage := .returned content memory } :=
  rfl

theorem Load.sound_miss (unreleased : load.releases = 0) : load.miss.Sound :=
  congrArg Nat.succ unreleased

/-- A mapping has at least the bytes of its file. -/
theorem size_le_mappedSize (io : GdsTransfer) (content : FileImage) :
    content.size ≤ content.mappedSize io.page := by
  have positive : (0 : ℤ) < io.page := Int.natCast_pos.mpr io.page_pos
  have split := Int.ediv_mul_add_emod (content.size + io.page - 1) io.page
  have below := Int.emod_lt_of_pos (content.size + io.page - 1) positive
  unfold FileImage.mappedSize
  omega

/-- After a cuFile read of some of the bytes there are a load is sound. -/
theorem Load.sound_afterRead_count (unreleased : load.releases = 0) {content : FileImage}
    {count : ℤ} (le : count ≤ io.available load.object content) {memory : Memory} :
    (load.afterRead (.returned content count (Copy.write content.content memory
      ⟨metadataMaxSize, load.object.dataPtr, count.toNat⟩))).Sound := by
  rw [Load.afterRead_returned]
  by_cases whole : count = load.object.nbytes
  · rw [if_neg (not_not.mpr whole), whole, Int.toNat_natCast]
    refine ⟨unreleased, hasBytes_write memory fun asked => ?_⟩
    unfold GdsTransfer.available at le
    dsimp only at asked ⊢
    omega
  · rw [if_pos whole]
    by_cases negative : count < 0
    · rw [if_pos negative]
      exact unreleased
    · rw [if_neg negative]
      exact Load.sound_miss unreleased

/-- After a copy from a mapping a load is sound when the file has the bytes. -/
theorem Load.sound_afterRead_mapping (unreleased : load.releases = 0) {content : FileImage}
    {calls : ReadCalls} {memory : Memory} :
    (load.afterRead
      (if calls.maps = false ∨ content.size ≤ 0 ∨ io.addr load.object = 0 then .raised
      else if 0 < load.object.nbytes ∧
          content.mappedSize io.page < metadataMaxSize + load.object.nbytes then .faulted
      else if calls.cudaMemcpy ≠ 0 then .raised
      else .returned content load.object.nbytes (Copy.write content.mapping memory
        ⟨metadataMaxSize, load.object.dataPtr, load.object.nbytes⟩))).Sound ↔
    calls.maps = true ∧ 0 < content.size ∧ io.addr load.object ≠ 0 ∧ calls.cudaMemcpy = 0 ∧
      (0 < load.object.nbytes → metadataMaxSize + load.object.nbytes ≤ content.size) := by
  have mapped := size_le_mappedSize io content
  by_cases refused : calls.maps = false ∨ content.size ≤ 0 ∨ io.addr load.object = 0
  · rw [if_pos refused]
    refine iff_of_false id ?_
    rintro ⟨maps, nonempty, there, -⟩
    rcases refused with unmapped | empty | absent
    · exact absurd (unmapped.symm.trans maps) Bool.false_ne_true
    · omega
    · exact there absent
  rw [if_neg refused]
  obtain ⟨maps, nonempty, there⟩ :
      calls.maps = true ∧ 0 < content.size ∧ io.addr load.object ≠ 0 := by
    simpa using refused
  by_cases faults : 0 < load.object.nbytes ∧
      content.mappedSize io.page < metadataMaxSize + load.object.nbytes
  · rw [if_pos faults]
    refine iff_of_false id ?_
    rintro ⟨-, -, -, -, enough⟩
    have := enough faults.1
    omega
  rw [if_neg faults]
  by_cases failed : calls.cudaMemcpy ≠ 0
  · rw [if_pos failed]
    exact iff_of_false id fun enough => failed enough.2.2.2.1
  rw [if_neg failed]
  rw [Load.afterRead_returned, if_neg (not_not.mpr rfl)]
  constructor
  · rintro ⟨-, bytes⟩
    refine ⟨maps, nonempty, there, not_not.mp failed, fun asked => ?_⟩
    exact bytes.inFile (Int.natCast_pos.mpr asked)
  · rintro ⟨-, -, -, -, enough⟩
    exact ⟨unreleased, hasBytes_mapping memory fun asked => enough (Int.natCast_pos.mp asked)⟩

/-- A load stays sound through its read exactly when the read reads enough. -/
theorem Load.sound_afterRead_iff (unreleased : load.releases = 0) (file : Option FileImage)
    (calls : ReadCalls) (memory : Memory) :
    (load.afterRead (io.loadGds load.object file calls memory)).Sound ↔
      io.ReadsEnough load.object file calls := by
  cases file with
  | none =>
      refine iff_of_false id ?_
      rintro ⟨_, ⟨⟩, -⟩
  | some content =>
      have enough : io.ReadsEnough load.object (some content) calls ↔ match io.library with
          | .cufile => (calls.cufileRead (io.available load.object content)).isSome
          | .cudart => calls.maps = true ∧ 0 < content.size ∧ io.addr load.object ≠ 0 ∧
              calls.cudaMemcpy = 0 ∧
              (0 < load.object.nbytes → metadataMaxSize + load.object.nbytes ≤ content.size) := by
        constructor
        · rintro ⟨_, ⟨⟩, enough⟩
          exact enough
        · exact fun enough => ⟨content, rfl, enough⟩
      rw [enough]
      unfold GdsTransfer.loadGds
      rw [io.addr_add_devOffset]
      cases library : io.library with
      | cufile =>
          dsimp only
          cases counted : calls.cufileRead (io.available load.object content) with
          | none => exact iff_of_false id Bool.false_ne_true
          | some count =>
              refine iff_of_true ?_ rfl
              exact load.sound_afterRead_count unreleased count.2
      | cudart =>
          dsimp only
          exact load.sound_afterRead_mapping unreleased

/-! ### Runs -/

theorem Load.unreleased (sound : load.Sound) (running : load.stage.isOver = false) :
    load.releases = 0 := by
  unfold Load.Sound at sound
  cases stage : load.stage with
  | entered | reading | popping =>
      rw [stage] at sound
      exact sound
  | returned content memory => rw [stage] at running; cases running
  | missed => rw [stage] at running; cases running
  | raised => rw [stage] at running; cases running
  | faulted => rw [stage] at running; cases running

/-- All loads are as they should be. -/
def LoadsSound (state : LoadState io Key) : Prop := ∀ load ∈ state.loads, load.Sound

variable {state next : LoadState io Key}

/-- What a step does: it leaves the loads alone, appends one that is called, or
moves one that is running. -/
inductive Moved (state next : LoadState io Key) : LoadEvent io Key → Prop
  | publish {key : Key} (same : next.loads = state.loads) : Moved state next (.publish key)
  | enter {key : Key} {object : LegacyObject io} {valid : Bool}
      (called : next.loads =
        state.loads ++ [⟨key, object, if valid then .entered else .missed, 0⟩]) :
      Moved state next (.enter key object valid)
  | look {id : ℕ} {load moved : Load io Key} (here : state.loads[id]? = some load)
      (running : load.stage.isOver = false) (sound : load.releases = 0 → moved.Sound)
      (loads : next.loads = state.loads.set id moved) : Moved state next (.look id)
  | read {id : ℕ} {file : Option FileImage} {calls : ReadCalls} {memory : Memory}
      {load : Load io Key} (here : state.loads[id]? = some load)
      (running : load.stage.isOver = false)
      (loads : next.loads = state.loads.set id
        (load.afterRead (io.loadGds load.object file calls memory))) :
      Moved state next (.read id file calls memory)
  | pop {id : ℕ} {load moved : Load io Key} (here : state.loads[id]? = some load)
      (running : load.stage.isOver = false) (ended : moved.stage.isOver = true)
      (sound : load.releases = 0 → (moved.Sound ↔ load.key ∈ state.hotCache))
      (loads : next.loads = state.loads.set id moved) : Moved state next (.pop id)

theorem LoadsSound.set (sound : LoadsSound state) {id : ℕ} {load moved : Load io Key}
    (here : state.loads[id]? = some load) (running : load.stage.isOver = false)
    (still : load.releases = 0 → moved.Sound) (loads : next.loads = state.loads.set id moved) :
    LoadsSound next := by
  intro other member
  rw [loads] at member
  rcases List.mem_or_eq_of_mem_set member with before | rfl
  · exact sound other before
  · exact still (Load.unreleased (sound load (List.mem_of_getElem? here)) running)

/-- A read that does not read enough ends the load. -/
theorem Load.isOver_afterRead (unreleased : load.releases = 0) {result : GdsRead}
    (unsound : ¬ (load.afterRead result).Sound) : (load.afterRead result).stage.isOver = true := by
  cases result with
  | raised | faulted => rfl
  | returned content ret memory =>
      rw [Load.afterRead_returned] at unsound ⊢
      split at unsound
      · rename_i short
        rw [if_pos short]
        split at unsound
        · exact absurd unreleased unsound
        · exact absurd (Load.sound_miss unreleased) unsound
      · rename_i whole
        rw [if_neg whole]
        rfl

variable [DecidableEq Key]

theorem moved_of_step {event : LoadEvent io Key} (stepped : state.step event = some next) :
    Moved state next event := by
  cases event with
  | publish key =>
      cases stepped
      exact .publish rfl
  | enter key object valid =>
      cases stepped
      exact .enter rfl
  | look id =>
      obtain ⟨load, here, looked⟩ := Option.bind_eq_some_iff.mp stepped
      cases stage : load.stage <;> rw [stage] at looked <;> cases looked
      have running : load.stage.isOver = false := by rw [stage]; rfl
      unfold LoadState.look
      by_cases there : load.key ∈ state.hotCache
      · rw [if_pos there]
        refine .look here running ?_ rfl
        exact fun quiet => quiet
      · rw [if_neg there]
        exact .look here running Load.sound_miss rfl
  | read id file calls memory =>
      obtain ⟨load, here, read⟩ := Option.bind_eq_some_iff.mp stepped
      cases stage : load.stage <;> rw [stage] at read <;> cases read
      exact .read here (by rw [stage]; rfl) rfl
  | pop id =>
      obtain ⟨load, here, popped⟩ := Option.bind_eq_some_iff.mp stepped
      cases stage : load.stage <;> rw [stage] at popped <;> cases popped
      have running : load.stage.isOver = false := by rw [stage]; rfl
      unfold LoadState.pop
      by_cases there : load.key ∈ state.hotCache
      · rw [if_pos there]
        exact .pop here running rfl (fun quiet => iff_of_true (Load.sound_miss quiet) there) rfl
      · rw [if_neg there]
        refine .pop here running ?_ ?_ rfl
        · rfl
        · exact fun _ => iff_of_false not_false there

/-- One careful step. -/
theorem LoadsSound.step (sound : LoadsSound state) {event : LoadEvent io Key}
    (careful : state.Careful event) (stepped : state.step event = some next) :
    LoadsSound next := by
  cases moved_of_step stepped with
  | publish same =>
      unfold LoadsSound
      rw [same]
      exact sound
  | enter called =>
      rename_i key object valid
      obtain rfl : valid = true := careful
      intro load member
      rw [called] at member
      rcases List.mem_append.mp member with before | last
      · exact sound load before
      · rw [List.mem_singleton.mp last]
        rfl
  | look here running still loads => exact sound.set here running still loads
  | read here running loads =>
      apply sound.set here running ?_ loads
      intro quiet
      exact (Load.sound_afterRead_iff quiet _ _ _).mpr (careful _ here)
  | pop here running _ still loads =>
      apply sound.set here running ?_ loads
      intro quiet
      exact (still quiet).mpr (careful _ here)

/-- A step that is not careful leaves a load that is over and not sound. -/
theorem LoadsSound.exists_of_careless (sound : LoadsSound state) {event : LoadEvent io Key}
    (careless : ¬ state.Careful event) (stepped : state.step event = some next) :
    ∃ (id : ℕ) (load : Load io Key), next.loads[id]? = some load ∧
      load.stage.isOver = true ∧ ¬ load.Sound := by
  have set {id : ℕ} {load moved : Load io Key} (here : state.loads[id]? = some load)
      (loads : next.loads = state.loads.set id moved) : next.loads[id]? = some moved := by
    rw [loads, List.getElem?_set_self (List.getElem?_eq_some_iff.mp here).1]
  cases moved_of_step stepped with
  | publish _ | look _ _ _ _ => exact absurd trivial careless
  | enter called =>
      rename_i key object valid
      obtain rfl : valid = false := Bool.eq_false_of_not_eq_true careless
      refine ⟨state.loads.length, ⟨key, object, .missed, 0⟩, ?_, rfl, Nat.zero_ne_one⟩
      rw [called]
      exact List.getElem?_concat_length
  | read here running loads =>
      rename_i id file calls memory load
      have quiet := Load.unreleased (sound load (List.mem_of_getElem? here)) running
      have unsound : ¬ (load.afterRead (io.loadGds load.object file calls memory)).Sound := by
        rw [Load.sound_afterRead_iff quiet]
        intro enough
        apply careless
        intro other there
        obtain rfl := Option.some.inj (here.symm.trans there)
        exact enough
      exact ⟨id, _, set here loads, Load.isOver_afterRead quiet unsound, unsound⟩
  | pop here running ended still loads =>
      rename_i id load moved
      have quiet := Load.unreleased (sound load (List.mem_of_getElem? here)) running
      refine ⟨id, moved, set here loads, ended, fun kept => careless ?_⟩
      intro other there
      obtain rfl := Option.some.inj (here.symm.trans there)
      exact (still quiet).mp kept

/-- A load that is over stays as it is. -/
theorem getElem?_of_step {event : LoadEvent io Key} (stepped : state.step event = some next)
    {id : ℕ} (here : state.loads[id]? = some load) (ended : load.stage.isOver = true) :
    next.loads[id]? = some load := by
  have set {other : ℕ} {running moved : Load io Key} (there : state.loads[other]? = some running)
      (runs : running.stage.isOver = false) (loads : next.loads = state.loads.set other moved) :
      next.loads[id]? = some load := by
    have differ : other ≠ id := by
      rintro rfl
      obtain rfl := Option.some.inj (there.symm.trans here)
      exact absurd (runs.symm.trans ended) Bool.false_ne_true
    rw [loads, List.getElem?_set_ne differ]
    exact here
  cases moved_of_step stepped with
  | publish same => exact same ▸ here
  | enter called =>
      rw [called, List.getElem?_append_left (List.getElem?_eq_some_iff.mp here).1]
      exact here
  | look there runs _ loads | read there runs loads | pop there runs _ _ loads =>
      exact set there runs loads

/-- **Legacy transfers.** A store publishes nothing but whole files exactly when its
transfer brings the bytes of the tensor. In runs of careful steps, whatever loads run at
the same time, all loads are sound; a step that is not careful leaves one that never is. -/
theorem legacyTransfers_iff {F Format : Type} (runtime : SidecarRuntime F Format) (io : GdsTransfer)
    (Key : Type) [DecidableEq Key] :
    (∀ (chunk : LegacyChunk io Format) (calls : SaveCalls) (memory : Memory),
      PublishesWhole runtime chunk calls memory ↔
        (ReachesPublish runtime chunk calls → TransfersTensor chunk calls memory)) ∧
    (∀ state : LoadState io Key, Reaches LoadState.step LoadState.Careful .initial state →
      LoadsSound state) ∧
    ∀ (state next final : LoadState io Key) (event : LoadEvent io Key), LoadsSound state →
      ¬ state.Careful event → state.step event = some next →
      Reaches LoadState.step (fun _ _ => True) next final → ¬ LoadsSound final := by
  refine ⟨fun chunk calls memory => publishesWhole_iff, fun state reached => ?_, ?_⟩
  · apply reached.invariant
    · exact fun load member => nomatch member
    · intro middle after event sound careful stepped
      exact sound.step careful stepped
  · intro state next final event sound careless stepped reached all
    obtain ⟨id, load, here, ended, unsound⟩ :=
      LoadsSound.exists_of_careless sound careless stepped
    have stays : final.loads[id]? = some load := by
      apply reached.invariant here
      intro middle after event there _ moved
      exact getElem?_of_step moved there ended
    exact unsound (all load (List.mem_of_getElem? stays))

end Machine

/-! ### Small transfers -/

/-- A backend without a base pointer. -/
def boundless (library : TransferLibrary) : GdsTransfer := ⟨library, none, 4096, Nat.succ_pos 4095⟩

/-- Four bytes at address 8, with an offset of 4 in their allocator. -/
def fourBytes (library : TransferLibrary) : LegacyObject (boundless library) where
  dataPtr := 8
  address := 4
  nbytes := 4
  placed := fun _ pointer => nomatch pointer

def fourByteChunk (library : TransferLibrary) : LegacyChunk (boundless library) Unit where
  toLegacyObject := fourBytes library
  shape := [2, 1, 2, 1]
  dtype := .uint8
  fmt := ()
  sized := rfl

/-- Calls that raise nothing, with a count of the cuFile write. -/
def quietSave (count : ℤ) : SaveCalls := ⟨true, some count, true, 0, true, true⟩

/-- A memory with the bytes of the tensor, and others behind them. -/
def numbered : Memory := fun address => if address < 12 then 1 else 2

/-- Calls of a cuFile read that returns a negative count. -/
def failedRead : ReadCalls := ⟨fun _ => some ⟨-1, by omega⟩, true, 0⟩

/-- Calls that copy from a mapping of the file. -/
def mappedRead : ReadCalls := ⟨fun _ => none, true, 0⟩

/-- The metadata and three of the four bytes of a tensor. -/
def cutFile : FileImage := ⟨4099, fun _ => 1⟩

theorem reachesPublish_fourByteChunk (library : TransferLibrary) (count : ℤ) :
    ReachesPublish smallSidecarRuntime (fourByteChunk library) (quietSave count) where
  packs := ⟨_, packMetadata_ok.mpr
    ⟨"U8", smallJson, rfl, smallDumps_smallDocument, by decide +kernel, rfl⟩⟩
  creates := rfl
  renames := rfl
  savesMetadata := rfl

/-- Two loads of one key that both get a negative count. -/
def failingLoads : List (LoadEvent (boundless .cufile) Unit) :=
  [.publish (), .enter () (fourBytes .cufile) true, .enter () (fourBytes .cufile) true, .look 0,
    .look 1, .read 0 (some cutFile) failedRead numbered, .read 1 (some cutFile) failedRead numbered,
    .pop 0, .pop 1]

/-- A load of the cut file through a mapping. -/
def cutLoad : List (LoadEvent (boundless .cudart) Unit) :=
  [.publish (), .enter () (fourBytes .cudart) true, .look 0,
    .read 0 (some cutFile) mappedRead numbered]

/-- One load before its read. -/
def oneReading : LoadState (boundless .cudart) Unit where
  hotCache := {()}
  loads := [⟨(), fourBytes .cudart, .reading, 0⟩]

/-- A load of a whole file through a mapping returns its object. -/
theorem legacyTransfers_iff_wholeFile : ∃ state : LoadState (boundless .cudart) Unit,
    (∃ load content memory, state.loads = [load] ∧ load.stage = .returned content memory) ∧
      LoadsSound state := by
  have published : Reaches LoadState.step LoadState.Careful .initial
      (⟨{()}, []⟩ : LoadState (boundless .cudart) Unit) :=
    Reaches.refl.tail (show LoadState.Careful _ (.publish ()) from trivial) rfl
  have entered := published.tail
    (show LoadState.Careful _ (.enter () (fourBytes .cudart) true) from rfl) rfl
  have looked : Reaches LoadState.step LoadState.Careful .initial oneReading :=
    entered.tail (show LoadState.Careful _ (.look 0) from trivial) rfl
  have enough : oneReading.Careful (.read 0 (some ⟨4100, fun _ => 1⟩) mappedRead numbered) := by
    rintro load ⟨⟩
    exact ⟨_, rfl, rfl, by decide, by decide, rfl, fun _ => by decide⟩
  exact ⟨_, ⟨_, _, _, rfl, rfl⟩,
    (legacyTransfers_iff smallSidecarRuntime (boundless .cudart) Unit).2.1 _
      (looked.tail enough rfl)⟩

/-- A store with a short cuFile write publishes, and so does one that copies from behind
the tensor; the second of two failing loads raises; and a load through a mapping returns
an object of which the file lacks a byte. -/
theorem not_legacyTransfers :
    ¬ PublishesWhole smallSidecarRuntime (fourByteChunk .cufile) (quietSave 3) numbered ∧
    ¬ PublishesWhole smallSidecarRuntime (fourByteChunk .cudart) (quietSave 4) numbered ∧
    (∃ state : LoadState (boundless .cufile) Unit,
      Reaches LoadState.step (fun _ _ => True) .initial state ∧ ¬ LoadsSound state) ∧
    ∃ state : LoadState (boundless .cudart) Unit,
      Reaches LoadState.step (fun _ _ => True) .initial state ∧ ¬ LoadsSound state := by
  refine ⟨fun whole => ?_, fun whole => ?_, ?_, ?_⟩
  · have transfers := publishesWhole_iff.mp whole (reachesPublish_fourByteChunk .cufile 3)
    exact absurd (transfers.cufile rfl 3 rfl) (by decide)
  · have transfers := publishesWhole_iff.mp whole (reachesPublish_fourByteChunk .cudart 4)
    have copied := transfers.cudart rfl rfl (by decide) rfl 0 (by decide)
    exact absurd copied (by decide)
  · refine ⟨_, reaches_of_execute .refl (show execute _ _ failingLoads _ = some _ from rfl),
      fun sound => ?_⟩
    exact sound ⟨(), fourBytes .cufile, .raised, 0⟩ (List.mem_cons_of_mem _ List.mem_cons_self)
  · refine ⟨_, reaches_of_execute .refl (show execute _ _ cutLoad _ = some _ from rfl),
      fun sound => ?_⟩
    obtain ⟨-, bytes⟩ := sound _ List.mem_cons_self
    exact absurd (bytes.inFile (by decide)) (by decide)

end LMCacheHcu.Gds
