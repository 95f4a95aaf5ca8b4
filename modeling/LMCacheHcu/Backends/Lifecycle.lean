import LMCacheHcu.Backends.Ownership

/-! # The guarantees of the registry

Over every sequence of operations on the storage manager, whatever its factory
calls answer: what is closed and how often, which derived references are in
step with the registry, and in which order allocators and dependants go.
-/

namespace LMCacheHcu.Backends

open Runs

variable {start session : Session}

/-! ### A session -/

/-- A worker whose XDS backend allocates with the local CPU backend. -/
def posixConfig : Config where
  localCpu := true
  enablePd := false
  enableAsyncLoading := true
  xdsPath := some "/xds"
  xdsBufferSize := none
  xdsCpuStore := false
  xdsDirect := false

/-- The upstream factory makes the two backends on which the XDS backend builds. -/
def firstCreation : Creation where
  original := .ok ⟨[("LocalCPUBackend", ⟨1, "LocalCPUBackend", "", none⟩),
    ("LocalDiskBackend", ⟨2, "LocalDiskBackend", "", some 1⟩)], by decide⟩
  xds := ⟨3, none, none⟩

def posixBackends : OrderedDict String Backend where
  entries := [("LocalCPUBackend", ⟨1, "LocalCPUBackend", "", none⟩),
    ("LocalDiskBackend", ⟨2, "LocalDiskBackend", "", some 1⟩),
    ("XdsBackend", ⟨3, "XdsBackend", "", some 1⟩)]
  nodup := by decide

def posixSession : Session where
  manager := {
    config := posixConfig
    cudaWorker := true
    storageBackends := posixBackends
    nonAllocatorBackends := ["LocalCPUBackend", "LocalDiskBackend", "XdsBackend"]
    localCpuBackend := some ⟨1, "LocalCPUBackend", "", none⟩
    allocatorBackend := some ⟨1, "LocalCPUBackend", "", none⟩ }
  made := posixBackends.values
  closed := []
  dropped := []

theorem firstCreation_lawful : firstCreation.Lawful [] .empty where
  skips := by decide
  fresh := by decide
  unused := by decide
  named := by decide
  dependencyFirst := ⟨by decide, by decide, trivial⟩

theorem posixSession_started : posixSession.Started where
  exists_init := ⟨posixConfig, true, false, firstCreation, posixBackends, firstCreation_lawful,
    rfl, rfl, rfl⟩
  closed := rfl
  dropped := rfl

/-- A later factory call, which makes an XDS backend at most. -/
def emptyCreation : Creation where
  original := .ok .empty
  xds := ⟨4, none, none⟩

/-- The XDS backend is to be recreated. -/
def recreateXds : ManagerCall := .recreateBackend "XdsBackend" emptyCreation

theorem recreateXds_lawful : posixSession.Lawful recreateXds := by
  intro creation called
  obtain rfl : emptyCreation = creation := Option.some.inj called
  exact {
    skips := by decide
    fresh := by decide
    unused := by decide
    named := by decide
    dependencyFirst := trivial }

def recreatedSession : Session := (step posixSession recreateXds).getD posixSession

theorem recreatedSession_reached : Reaches step Session.Lawful posixSession recreatedSession :=
  Reaches.refl.tail recreateXds_lawful rfl

def closedCpuSession : Session :=
  (step posixSession (.closeBackend "LocalCPUBackend")).getD posixSession

theorem closeCpu_lawful : posixSession.Lawful (.closeBackend "LocalCPUBackend") :=
  fun _ called => nomatch called
/-! ### Closed once -/

theorem Sound.made_nodup (sound : Sound session) : session.made.Nodup :=
  List.Nodup.of_map _ sound.serials

/-- The final `close` passes over this backend: it is a shared allocator, and a
backend registered after it has failed to close. -/
def StorageManager.LeftOpen (manager : StorageManager) (raises : Backend → Option PyError)
    (backend : Backend) : Prop :=
  ∃ before name after, manager.storageBackends.entries = before ++ (name, backend) :: after ∧
    name ∈ sharedAllocatorBackends ∧
      ∃ later ∈ after, later.2 ∈ (manager.close raises).1 ∧ (raises later.2).isSome

theorem close_sublist (manager : StorageManager) (raises : Backend → Option PyError) :
    (manager.close raises).1.Sublist manager.storageBackends.values.reverse := by
  have sublist := closeLoop_sublist raises manager.storageBackends.entries.reverse none
  rwa [List.map_reverse] at sublist

theorem mem_close_iff {manager : StorageManager} (nodup : manager.storageBackends.values.Nodup)
    (raises : Backend → Option PyError) {backend : Backend}
    (registered : backend ∈ manager.storageBackends.values) :
    backend ∈ (manager.close raises).1 ↔ ¬ manager.LeftOpen raises backend := by
  have position {before after : List (String × Backend)} {name : String}
      (split : manager.storageBackends.entries = before ++ (name, backend) :: after) :
      backend ∈ (manager.close raises).1 ↔ ¬ (name ∈ sharedAllocatorBackends ∧
        ∃ later ∈ after, later.2 ∈ (manager.close raises).1 ∧ (raises later.2).isSome) := by
    have reversed : manager.storageBackends.entries.reverse =
        after.reverse ++ (name, backend) :: before.reverse := by
      rw [split, List.reverse_append, List.reverse_cons, List.append_assoc,
        List.singleton_append]
    have distinct := List.nodup_reverse.mpr nodup
    rw [OrderedDict.values, ← List.map_reverse, reversed] at distinct
    have calls : (manager.close raises).1 = (closeLoop raises after.reverse none).1 ++
        (closeLoop raises ((name, backend) :: before.reverse)
          (closeLoop raises after.reverse none).2).1 := by
      rw [StorageManager.close, reversed, closeLoop_append]
    have here : backend ∈ (closeLoop raises (after.reverse ++ (name, backend) :: before.reverse)
        none).1 ↔ _ := mem_closeLoop_iff raises distinct
    rw [← reversed] at here
    refine here.trans (not_congr (and_congr_right fun _ => ?_))
    rw [closeLoop_error, Option.none_or, List.findSome?_isSome_iff]
    constructor
    · rintro ⟨later, called, failed⟩
      have inside := (closeLoop_sublist raises after.reverse none).subset called
      obtain ⟨entry, member, rfl⟩ := List.mem_map.mp inside
      exact ⟨entry, List.mem_reverse.mp member, calls ▸ List.mem_append_left _ called, failed⟩
    · rintro ⟨later, member, called, failed⟩
      refine ⟨later.2, ?_, failed⟩
      rw [calls, List.mem_append] at called
      refine called.resolve_right fun others => ?_
      have inside := (closeLoop_sublist raises _ _).subset others
      rw [List.map_append] at distinct
      exact List.disjoint_of_nodup_append distinct
        (List.mem_map_of_mem (List.mem_reverse.mpr member)) inside
  constructor
  · rintro called ⟨before, name, after, split, left⟩
    exact (position split).mp called left
  · intro closed
    obtain ⟨⟨name, _⟩, member, rfl⟩ := List.mem_map.mp registered
    obtain ⟨before, after, split⟩ := List.append_of_mem member
    exact (position split).mpr fun left => closed ⟨before, name, after, split, left⟩

/-- **Every backend is closed once.** Over the operations of a session and its
final `close`, no backend is closed twice. A backend that a factory call has made
is closed, unless that call failed afterwards or the final `close` passes over it;
`close` raises the first failure. -/
theorem backends_closed_once (started : start.Started)
    (reached : Reaches step Session.Lawful start session) (raises : Backend → Option PyError) :
    (session.closed ++ (session.manager.close raises).1).Nodup ∧
      (∀ backend ∈ session.made,
        backend ∈ session.closed ++ (session.manager.close raises).1 ↔
          backend ∉ session.dropped ∧ ¬ session.manager.LeftOpen raises backend) ∧
      (session.manager.close raises).2 = (session.manager.close raises).1.findSome? raises := by
  have sound := sound_of_reaches started reached
  have nodup := sound.ledger.nodup_iff.mp sound.made_nodup
  obtain ⟨values, history, apart⟩ := List.nodup_append'.mp nodup
  obtain ⟨closed, _, closedApart⟩ := List.nodup_append'.mp history
  have calls := close_sublist session.manager raises
  have callsRegistered {backend : Backend} (called : backend ∈ (session.manager.close raises).1) :
      backend ∈ session.manager.storageBackends.values :=
    List.mem_reverse.mp (calls.subset called)
  refine ⟨?_, fun backend made => ?_, ?_⟩
  · apply closed.append ((List.nodup_reverse.mpr values).sublist calls)
    intro backend before after
    exact apart (callsRegistered after) (List.mem_append_left _ before)
  · have leftRegistered : session.manager.LeftOpen raises backend →
        backend ∈ session.manager.storageBackends.values := by
      rintro ⟨before, name, after, split, _⟩
      rw [OrderedDict.values, split]
      simp
    rw [List.mem_append]
    rcases List.mem_append.mp (sound.ledger.mem_iff.mp made) with registered | other
    · have unclosed : backend ∉ session.closed := fun closed =>
        apart registered (List.mem_append_left _ closed)
      have undropped : backend ∉ session.dropped := fun dropped =>
        apart registered (List.mem_append_right _ dropped)
      rw [or_iff_right unclosed, mem_close_iff values raises registered]
      exact (and_iff_right undropped).symm
    · have unregistered : backend ∉ session.manager.storageBackends.values := fun registered =>
        apart registered other
      rw [or_iff_left fun called => unregistered (callsRegistered called),
        and_iff_left fun left => unregistered (leftRegistered left)]
      rcases List.mem_append.mp other with before | dropped
      · exact iff_of_true before fun dropped => closedApart before dropped
      · exact iff_of_false (fun before => closedApart before dropped) (not_not_intro dropped)
  · rw [StorageManager.close, closeLoop_error, Option.none_or]

theorem backends_closed_once_recreated :
    (recreatedSession.closed ++ (recreatedSession.manager.close fun backend =>
        if backend.serial = 2 then some (.other "disk") else none).1).Nodup ∧
      (recreatedSession.manager.close fun backend =>
        if backend.serial = 2 then some (.other "disk") else none).2 = some (.other "disk") :=
  have guarantees := backends_closed_once posixSession_started recreatedSession_reached
    fun backend => if backend.serial = 2 then some (.other "disk") else none
  ⟨guarantees.1, guarantees.2.2.trans rfl⟩

/-! ### Dependants first -/

/-- **Dependants go first.** When the final `close` closes a backend, each
registered backend that borrows its memory was closed before, without a failure. -/
theorem dependants_closed_first (started : start.Started)
    (reached : Reaches step Session.Lawful start session) (raises : Backend → Option PyError)
    {before after : List Backend} {lender borrower : Backend}
    (calls : (session.manager.close raises).1 = before ++ lender :: after)
    (registered : borrower ∈ session.manager.storageBackends.values)
    (borrows : borrower.allocator = some lender.serial) :
    borrower ∈ before ∧ raises borrower = none := by
  have sound := sound_of_reaches started reached
  obtain ⟨entry, member, rfl⟩ := List.mem_map.mp registered
  have serials := (sound.ledger.map Backend.serial).nodup_iff.mp sound.serials
  rw [List.map_append, map_serial_values] at serials
  have reversed := List.nodup_reverse.mpr serials.of_append_left
  rw [← List.map_reverse] at reversed
  apply closeLoop_dependants raises (List.pairwise_reverse.mpr sound.ordered)
    (fun entry there => sound.unborrowed entry (List.mem_reverse.mp there)) reversed
    (fun borrower there lender here =>
      sound.named borrower (List.mem_reverse.mp there) lender (List.mem_reverse.mp here))
    calls (List.mem_reverse.mpr member) borrows

theorem dependants_closed_first_posix :
    (⟨2, "LocalDiskBackend", "", some 1⟩ : Backend) ∈
      [⟨3, "XdsBackend", "", some 1⟩, ⟨2, "LocalDiskBackend", "", some 1⟩] ∧
        (none : Option PyError) = none :=
  dependants_closed_first posixSession_started .refl (fun _ => none)
    (rfl : (posixSession.manager.close fun _ => none).1 = [⟨3, "XdsBackend", "", some 1⟩,
      ⟨2, "LocalDiskBackend", "", some 1⟩] ++ ⟨1, "LocalCPUBackend", "", none⟩ :: [])
    (by decide : (⟨2, "LocalDiskBackend", "", some 1⟩ : Backend) ∈
      posixSession.manager.storageBackends.values) rfl

/-! ### Allocators stay open -/

/-- Each registered backend allocates with memory of its own or of a registered
backend. -/
def AllocatorsRegistered (session : Session) : Prop :=
  ∀ borrower ∈ session.manager.storageBackends.values, ∀ serial ∈ borrower.allocator,
    serial ∈ session.manager.storageBackends.values.map Backend.serial

/-- The operation closes no backend that a remaining one borrows from. -/
def Session.SparesAllocators (session : Session) (call : ManagerCall) : Prop :=
  ∀ lender ∈ session.closing call, ∀ borrower ∈ (session.existing call).values,
    borrower.allocator ≠ some lender.serial

/-- The values after an operation: what it leaves, then what it adds. -/
theorem step_values {next : Session} {call : ManagerCall} (lawful : session.Lawful call)
    (stepped : step session call = some next) :
    ∃ new, next.manager.storageBackends.entries = (session.existing call).entries ++ new ∧
      DependencyFirst (((session.existing call).find "LocalCPUBackend").map Backend.serial)
        new := by
  rcases step_cases lawful stepped with ⟨registry, _⟩ | ⟨new, added, registry, _⟩
  · exact ⟨[], by rw [registry, List.append_nil], trivial⟩
  · exact ⟨new.entries, registry, added.dependencyFirst⟩

/-- A spared allocator stays registered, one that is not is gone. -/
theorem allocatorsRegistered_step {next : Session} {call : ManagerCall} (sound : Sound session)
    (registered : AllocatorsRegistered session) (lawful : session.Lawful call)
    (stepped : step session call = some next) :
    AllocatorsRegistered next ↔ session.SparesAllocators call := by
  obtain ⟨new, entries, first⟩ := step_values lawful stepped
  have values : next.manager.storageBackends.values =
      (session.existing call).values ++ new.map Prod.snd := by
    rw [OrderedDict.values, entries, List.map_append]
    rfl
  have before := perm_existing session call
  constructor
  · intro kept lender closing borrower member borrows
    have sound' := sound.step lawful stepped
    have serials := (sound'.ledger.map Backend.serial).nodup_iff.mp sound'.serials
    rw [List.map_append] at serials
    apply List.disjoint_of_nodup_append serials
      (kept borrower (values ▸ List.mem_append_left _ member) lender.serial borrows)
    rw [closed_step stepped]
    exact List.mem_map_of_mem (List.mem_append_left _ (List.mem_append_right _ closing))
  · intro spares borrower member serial borrows
    rw [values, List.map_append, List.mem_append]
    rw [values, List.mem_append] at member
    rcases member with old | added
    · have lenders := registered borrower
        (before.mem_iff.mpr (List.mem_append_right _ old)) serial borrows
      obtain ⟨lender, there, rfl⟩ := List.mem_map.mp lenders
      rcases List.mem_append.mp (before.mem_iff.mp there) with closing | remains
      · exact absurd borrows (spares lender closing borrower old)
      · exact .inl (List.mem_map_of_mem remains)
    · obtain ⟨entry, inside, rfl⟩ := List.mem_map.mp added
      rcases first.borrowed inside borrows with current | ⟨lender, there, _, rfl⟩
      · obtain ⟨cpu, found, rfl⟩ := Option.map_eq_some_iff.mp current
        exact .inl (List.mem_map_of_mem (mem_names_values (OrderedDict.find_eq_some_iff.mp found)))
      · exact .inr (List.mem_map_of_mem (List.mem_map_of_mem there))

theorem allocatorsRegistered_of_started (started : start.Started) :
    AllocatorsRegistered start := by
  obtain ⟨config, cudaWorker, scheduler, creation, new, lawful, created, built, _⟩ :=
    started.exists_init
  obtain ⟨_, registry, _⟩ := init_ok created built
  have added := added_of_lawful lawful created
  have values : start.manager.storageBackends.values = new.values :=
    congrArg (List.map Prod.snd) registry
  intro borrower member serial borrows
  rw [values] at member ⊢
  obtain ⟨entry, inside, rfl⟩ := List.mem_map.mp member
  rcases added.dependencyFirst.borrowed inside borrows with none | ⟨lender, there, _, rfl⟩
  · cases none
  · exact List.mem_map_of_mem (mem_names_values there)

/-- **Allocators stay open.** As long as no operation closes a backend that a
remaining one borrows from, every registered backend has its allocator in the
registry; the first operation that does so leaves one without. -/
theorem allocators_registered_iff (started : start.Started)
    (reached : Reaches step (fun session call => session.Lawful call ∧
      session.SparesAllocators call) start session) :
    AllocatorsRegistered session ∧
      ∀ call next, session.Lawful call → step session call = some next →
        (AllocatorsRegistered next ↔ session.SparesAllocators call) := by
  have sound := sound_of_reaches started (reached.mono fun _ _ both => both.1)
  have registered : AllocatorsRegistered session := by
    induction reached with
    | refl => exact allocatorsRegistered_of_started started
    | tail before met stepped ih =>
        have earlier := sound_of_reaches started (before.mono fun _ _ both => both.1)
        exact (allocatorsRegistered_step earlier (ih earlier) met.1 stepped).mpr met.2
  exact ⟨registered, fun call next lawful stepped =>
    allocatorsRegistered_step sound registered lawful stepped⟩

theorem allocators_registered_iff_posix :
    AllocatorsRegistered posixSession ∧ ¬ AllocatorsRegistered closedCpuSession :=
  have guarantees := allocators_registered_iff posixSession_started .refl
  ⟨guarantees.1, fun kept =>
    (guarantees.2 _ _ closeCpu_lawful (rfl : step posixSession
      (.closeBackend "LocalCPUBackend") = some closedCpuSession)).mp kept
        ⟨1, "LocalCPUBackend", "", none⟩ (by decide) ⟨2, "LocalDiskBackend", "", some 1⟩
          (by decide) rfl⟩

/-! ### Derived references -/

/-- The references that the manager derives from its registry are up to date. -/
structure InSync (manager : StorageManager) : Prop where
  nonAllocator : manager.nonAllocatorBackends =
    getNonAllocatorBackends manager.config manager.storageBackends
  localCpu : manager.localCpuBackend = manager.storageBackends.find "LocalCPUBackend"

/-- What keeps the derived references up to date: a change of the configuration
that does not change what is derived, and a recreation that succeeds or fails for a
backend that nothing refers to. -/
def Session.KeepsReferences (session : Session) : ManagerCall → Prop
  | .updateConfig config => getNonAllocatorBackends config session.manager.storageBackends =
      getNonAllocatorBackends session.manager.config session.manager.storageBackends
  | .recreateBackend name creation => name ∈ session.manager.storageBackends.names →
      (∃ new, session.create (.recreateBackend name creation) creation = .ok new) ∨
        (name ∉ session.manager.nonAllocatorBackends ∧ name ≠ "LocalCPUBackend")
  | _ => True

theorem getNonAllocatorBackends_erase (config : Config) (backends : OrderedDict String Backend)
    (name : String) : getNonAllocatorBackends config (backends.erase name) =
      (getNonAllocatorBackends config backends).filter (· ≠ name) := by
  unfold getNonAllocatorBackends
  rw [OrderedDict.entries_erase, List.filter_comm, List.filter_map]
  rfl

/-- Adding backends loses no name. -/
theorem find_insertAll_none {made : List Backend} {existing new : OrderedDict String Backend}
    (added : Added made existing new) {name : String}
    (absent : (existing.insertAll new.entries).find name = none) : existing.find name = none := by
  rw [OrderedDict.find_eq_none_iff] at absent ⊢
  refine fun inside => absent ?_
  rw [OrderedDict.names, OrderedDict.entries_insertAll new.nodup added.apart, List.map_append]
  exact List.mem_append_left _ inside

theorem inSync_step {next : Session} {call : ManagerCall} (inSync : InSync session.manager)
    (lawful : session.Lawful call) (stepped : step session call = some next) :
    InSync next.manager ↔ session.KeepsReferences call := by
  have manager : next.manager = (session.reply call).1 := by
    obtain rfl := Option.some.inj stepped
    rfl
  rw [manager]
  cases call with
  | updateConfig config =>
      constructor
      · intro kept
        exact kept.nonAllocator.symm.trans inSync.nonAllocator
      · intro same
        exact ⟨inSync.nonAllocator.trans same.symm, inSync.localCpu⟩
  | createBackends creation =>
      refine iff_of_true ?_ trivial
      have added {new : OrderedDict String Backend} (created : hcuCreateStorageBackends
          session.manager.config session.manager.cudaWorker session.manager.storageBackends.names
            creation = .ok new) : Added session.made session.manager.storageBackends new :=
        added_of_lawful (lawful creation rfl) created
      simp only [Session.reply, StorageManager.createBackends]
      cases created : hcuCreateStorageBackends session.manager.config session.manager.cudaWorker
          session.manager.storageBackends.names creation with
      | error failure => exact inSync
      | ok new =>
          refine ⟨rfl, ?_⟩
          dsimp only
          cases found : (session.manager.storageBackends.insertAll new.entries).find
              "LocalCPUBackend" with
          | some cpu => rfl
          | none =>
              rw [inSync.localCpu, find_insertAll_none (added created) found]
              rfl
  | closeBackend name =>
      refine iff_of_true ?_ trivial
      simp only [Session.reply, StorageManager.closeBackend]
      split
      · exact inSync
      · refine ⟨rfl, ?_⟩
        dsimp only
        split
        · rename_i isCpu
          exact isCpu ▸ (OrderedDict.find_erase_self _ _).symm
        · rename_i other
          rw [OrderedDict.find_erase_of_ne (Ne.symm other)]
          exact inSync.localCpu
  | recreateBackend name creation =>
      simp only [Session.reply, StorageManager.recreateBackend]
      cases found : session.manager.storageBackends.find name with
      | none =>
          exact iff_of_true inSync fun registered =>
            absurd registered (OrderedDict.find_eq_none_iff.mp found)
      | some backend =>
          have registered : name ∈ session.manager.storageBackends.names :=
            OrderedDict.mem_names_of_mem (OrderedDict.find_eq_some_iff.mp found)
          cases created : hcuCreateStorageBackends session.manager.config
              session.manager.cudaWorker (session.manager.storageBackends.erase name).names
              creation with
          | error failure =>
              have failed : ¬ ∃ new, session.create (.recreateBackend name creation) creation =
                  .ok new := by
                rintro ⟨new, made⟩
                cases created.symm.trans made
              constructor
              · intro kept _
                refine .inr ⟨fun listed => ?_, fun isCpu => ?_⟩
                · have shorter := kept.nonAllocator
                  rw [getNonAllocatorBackends_erase, ← inSync.nonAllocator] at shorter
                  dsimp only at shorter
                  rw [shorter] at listed
                  simpa using (List.mem_filter.mp listed).2
                · have gone := kept.localCpu
                  dsimp only at gone
                  rw [inSync.localCpu, ← isCpu, found, OrderedDict.find_erase_self] at gone
                  cases gone
              · intro keeps
                obtain ⟨unlisted, notCpu⟩ := (keeps registered).resolve_left failed
                refine ⟨?_, ?_⟩
                · dsimp only
                  rw [getNonAllocatorBackends_erase, ← inSync.nonAllocator]
                  refine (List.filter_eq_self.mpr fun other member => ?_).symm
                  exact decide_eq_true fun same => unlisted (same ▸ member)
                · dsimp only
                  rw [OrderedDict.find_erase_of_ne (Ne.symm notCpu)]
                  exact inSync.localCpu
          | ok new =>
              refine iff_of_true ⟨rfl, ?_⟩ fun _ => .inl ⟨new, created⟩
              have added : Added session.made (session.manager.storageBackends.erase name) new :=
                added_of_lawful
                  (lawful creation (by simp only [Session.creation?, found, Option.isSome_some,
                    if_true, Option.mem_def])) created
              dsimp only
              cases cpu : ((session.manager.storageBackends.erase name).insertAll
                  new.entries).find "LocalCPUBackend" with
              | some backend => rfl
              | none =>
                  dsimp only
                  split
                  · rfl
                  · rename_i notCpu
                    rw [inSync.localCpu, ← OrderedDict.find_erase_of_ne (Ne.symm notCpu)]
                    exact find_insertAll_none added cpu

/-- **The derived references.** In a run whose operations all keep them, the list
of storage names and the local CPU backend are those of the registry in every
state; the next operation leaves them so exactly when it keeps them. -/
theorem references_in_sync_iff (started : start.Started)
    (reached : Reaches step (fun session call => session.Lawful call ∧
      session.KeepsReferences call) start session) :
    InSync session.manager ∧
      ∀ call next, session.Lawful call → step session call = some next →
        (InSync next.manager ↔ session.KeepsReferences call) := by
  obtain ⟨config, cudaWorker, scheduler, creation, new, _, created, built, _⟩ :=
    started.exists_init
  obtain ⟨same, _, nonAllocator, localCpu, _⟩ := init_ok created built
  have inSync : InSync session.manager :=
    reached.invariant ⟨same ▸ nonAllocator, localCpu⟩ fun _ _ _ held met stepped =>
      (inSync_step held met.1 stepped).mpr met.2
  exact ⟨inSync, fun call next lawful stepped => inSync_step inSync lawful stepped⟩

theorem references_in_sync_iff_posix :
    InSync posixSession.manager ∧ ¬ InSync recreatedSession.manager :=
  have guarantees := references_in_sync_iff posixSession_started .refl
  ⟨guarantees.1, fun kept =>
    ((guarantees.2 _ _ recreateXds_lawful (rfl : step posixSession recreateXds =
      some recreatedSession)).mp kept (by decide)).elim (fun ⟨_, made⟩ => nomatch made)
        fun unlisted => unlisted.1 (by decide)⟩

/-! ### The allocator of the manager -/

/-- The name under which the manager looks its allocator up. -/
def Config.allocatorName (config : Config) : String :=
  if config.enablePd then "PDBackend" else "LocalCPUBackend"

/-- An entry stays through the closing part of an operation or is the one closed. -/
theorem mem_existing_or_closing {call : ManagerCall} {entry : String × Backend}
    (member : entry ∈ session.manager.storageBackends.entries) :
    entry ∈ (session.existing call).entries ∨ entry.2 ∈ session.closing call := by
  cases call with
  | closeBackend name | recreateBackend name creation =>
      by_cases same : entry.1 = name
      · have found : session.manager.storageBackends.find name = some entry.2 :=
          OrderedDict.find_eq_some_iff.mpr (same ▸ member)
        exact .inr (by rw [Session.closing, found]; exact List.mem_singleton_self _)
      · exact .inl (OrderedDict.mem_erase.mpr ⟨member, same⟩)
  | _ => exact .inl member

theorem allocatorBackend_step {next : Session} {call : ManagerCall}
    (stepped : step session call = some next) :
    next.manager.allocatorBackend = session.manager.allocatorBackend := by
  obtain rfl := Option.some.inj stepped
  change (session.reply call).1.allocatorBackend = _
  cases call with
  | updateConfig config => rfl
  | createBackends creation =>
      simp only [Session.reply, StorageManager.createBackends]
      cases hcuCreateStorageBackends session.manager.config session.manager.cudaWorker
        session.manager.storageBackends.names creation <;> rfl
  | closeBackend name =>
      simp only [Session.reply, StorageManager.closeBackend]
      cases session.manager.storageBackends.find name <;> rfl
  | recreateBackend name creation =>
      simp only [Session.reply, StorageManager.recreateBackend]
      cases session.manager.storageBackends.find name with
      | none => rfl
      | some backend =>
          cases hcuCreateStorageBackends session.manager.config session.manager.cudaWorker
            (session.manager.storageBackends.erase name).names creation <;> rfl

/-- At construction the allocator is registered under its name. -/
theorem allocator_of_started (started : start.Started) {allocator : Backend}
    (taken : start.manager.allocatorBackend = some allocator) :
    (start.manager.config.allocatorName, allocator) ∈ start.manager.storageBackends.entries := by
  obtain ⟨config, cudaWorker, scheduler, creation, new, _, created, built, _⟩ :=
    started.exists_init
  obtain ⟨same, _, _, _, allocators⟩ := init_ok created built
  have found := allocators.resolve_left fun none => nomatch taken.symm.trans none
  rw [taken, getAllocatorBackend] at found
  rw [← OrderedDict.find_eq_some_iff, same, Config.allocatorName]
  cases enabled : config.enablePd with
  | true =>
      simp only [enabled, if_true] at found ⊢
      split at found
      · cases found
      · rename_i backend here
        rw [here]
        exact Except.ok.inj found
  | false =>
      simp only [enabled, Bool.false_eq_true, if_false] at found ⊢
      exact Except.ok.inj found

/-- **The allocator of the manager.** It is taken at construction and never looked
up again: in every state it is the registered backend of its name exactly as long
as no operation has closed it, and it stays the allocator after that. -/
theorem allocator_registered_iff (started : start.Started)
    (reached : Reaches step Session.Lawful start session) :
    session.manager.allocatorBackend = start.manager.allocatorBackend ∧
      ∀ allocator ∈ start.manager.allocatorBackend,
        (session.manager.storageBackends.find start.manager.config.allocatorName = some allocator ↔
          allocator ∉ session.closed) := by
  have sound := sound_of_reaches started reached
  have kept : session.manager.allocatorBackend = start.manager.allocatorBackend ∧
      ∀ allocator ∈ start.manager.allocatorBackend,
        (start.manager.config.allocatorName, allocator) ∈ session.manager.storageBackends.entries ∨
          allocator ∈ session.closed := by
    clear sound
    induction reached with
    | refl => exact ⟨rfl, fun allocator taken => .inl (allocator_of_started started taken)⟩
    | tail _ lawful stepped ih =>
        refine ⟨(allocatorBackend_step stepped).trans ih.1, fun allocator taken => ?_⟩
        obtain ⟨new, entries, _⟩ := step_values lawful stepped
        rw [entries, closed_step stepped, List.mem_append, List.mem_append]
        rcases ih.2 allocator taken with registered | closed
        · exact (mem_existing_or_closing registered).imp .inl .inr
        · exact .inr (.inl closed)
  refine ⟨kept.1, fun allocator taken => ?_⟩
  rw [OrderedDict.find_eq_some_iff]
  refine ⟨fun registered closed => ?_, (kept.2 allocator taken).resolve_right⟩
  have nodup := sound.ledger.nodup_iff.mp sound.made_nodup
  exact List.disjoint_of_nodup_append nodup (mem_names_values registered)
    (List.mem_append_left _ closed)

theorem allocator_registered_iff_closed :
    closedCpuSession.manager.allocatorBackend = some ⟨1, "LocalCPUBackend", "", none⟩ ∧
      closedCpuSession.manager.storageBackends.find "LocalCPUBackend" ≠
        some ⟨1, "LocalCPUBackend", "", none⟩ :=
  have guarantees := allocator_registered_iff posixSession_started
    (Reaches.refl.tail closeCpu_lawful rfl : Reaches step Session.Lawful posixSession
      closedCpuSession)
  ⟨guarantees.1, fun registered =>
    (guarantees.2 ⟨1, "LocalCPUBackend", "", none⟩ rfl).mp registered (by decide)⟩

/-! ### Recreating the XDS backend -/

/-- The XDS backend allocates with the local CPU backend. -/
def Config.xdsBorrows (config : Config) : Bool := config.posixXds || config.xdsCpuStore

theorem xdsBackendInit_none_iff {config : Config} {construction : XdsConstruction} :
    (∃ xds, xdsBackendInit config construction none = .ok xds) ↔
      config.xdsBorrows = false ∧ construction.early = none ∧ construction.late = none := by
  unfold xdsBackendInit Config.xdsBorrows
  cases construction.early with
  | some failure => simp
  | none =>
      cases config.xdsCpuStore with
      | true => simp
      | false =>
          cases config.posixXds with
          | true => simp
          | false => cases construction.late <;> simp

/-- While a local CPU backend is registered, a factory call makes no other. -/
theorem localCpuAmong_eq_none {creation : Creation} {made : List Backend}
    {existing backends : OrderedDict String Backend} (lawful : creation.Lawful made existing)
    (original : creation.original = .ok backends) (cpu : "LocalCPUBackend" ∈ existing.names) :
    localCpuAmong backends = none := by
  by_contra found
  obtain ⟨backend, here⟩ := Option.ne_none_iff_exists'.mp found
  have upstream : creation.upstream = backends.entries := by rw [Creation.upstream, original]
  exact lawful.skips _ (upstream ▸ localCpuAmong_mem lawful original here) cpu

/-- **Recreating the XDS backend.** The factory looks for a local CPU backend among
the backends that it has just made. While one is registered none is made, so an
XDS backend that allocates with it is closed and then not made again: the
operation raises. -/
theorem recreate_xds_iff {creation : Creation} {backends : OrderedDict String Backend}
    (lawful : session.Lawful (.recreateBackend "XdsBackend" creation))
    (xds : "XdsBackend" ∈ session.manager.storageBackends.names)
    (cpu : "LocalCPUBackend" ∈ session.manager.storageBackends.names)
    (wanted : session.manager.config.xdsPath.isSome ∧ session.manager.cudaWorker)
    (upstream : creation.original = .ok backends) (own : "XdsBackend" ∉ backends.names) :
    ("XdsBackend" ∈
        (session.reply (.recreateBackend "XdsBackend" creation)).1.storageBackends.names ↔
      session.manager.config.xdsBorrows = false ∧ creation.xds.early = none ∧
        creation.xds.late = none) ∧
      ("XdsBackend" ∉
          (session.reply (.recreateBackend "XdsBackend" creation)).1.storageBackends.names →
        ∃ failure,
          (session.reply (.recreateBackend "XdsBackend" creation)).2 = .raised failure) := by
  obtain ⟨registered, found⟩ : ∃ registered,
      session.manager.storageBackends.find "XdsBackend" = some registered :=
    Option.ne_none_iff_exists'.mp fun none => OrderedDict.find_eq_none_iff.mp none xds
  have keeps : creation.Lawful session.made (session.manager.storageBackends.erase "XdsBackend") :=
    lawful creation (by
      simp only [Session.creation?, found, Option.isSome_some, if_true, Option.mem_def])
  have cpuKept : "LocalCPUBackend" ∈
      (session.manager.storageBackends.erase "XdsBackend").names := by
    rw [OrderedDict.names_erase, List.mem_filter]
    exact ⟨cpu, by decide⟩
  have erased : "XdsBackend" ∉ (session.manager.storageBackends.erase "XdsBackend").names :=
    OrderedDict.find_eq_none_iff.mp (OrderedDict.find_erase_self _ _)
  have factory : hcuCreateStorageBackends session.manager.config session.manager.cudaWorker
      (session.manager.storageBackends.erase "XdsBackend").names creation =
        (xdsBackendInit session.manager.config creation.xds none).map
          (backends.insert "XdsBackend") := by
    have adds : ¬ (session.manager.config.xdsPath.isNone || "XdsBackend" ∈ backends.names ||
        "XdsBackend" ∈ (session.manager.storageBackends.erase "XdsBackend").names ||
          !session.manager.cudaWorker) = true := by
      simp [own, erased, wanted.2, Option.isSome_iff_ne_none.mp wanted.1]
    unfold hcuCreateStorageBackends
    simp only [upstream, if_neg adds, localCpuAmong_eq_none keeps upstream cpuKept]
    cases xdsBackendInit session.manager.config creation.xds none <;> rfl
  rw [← xdsBackendInit_none_iff]
  cases init : xdsBackendInit session.manager.config creation.xds none with
  | error failure =>
      simp only [Session.reply, StorageManager.recreateBackend, found, factory, init, Except.map]
      refine ⟨iff_of_false erased fun fits => ?_, fun _ => ⟨failure, rfl⟩⟩
      obtain ⟨_, made⟩ := fits
      cases made
  | ok made =>
      simp only [Session.reply, StorageManager.recreateBackend, found, factory, init, Except.map]
      have added := added_of_lawful keeps (by rw [factory, init]; rfl)
      have inside : "XdsBackend" ∈ ((session.manager.storageBackends.erase "XdsBackend").insertAll
          (backends.insert "XdsBackend" made).entries).names := by
        rw [OrderedDict.names, OrderedDict.entries_insertAll (OrderedDict.nodup _) added.apart,
          OrderedDict.entries_insert_of_notMem own]
        simp
      exact ⟨iff_of_true inside ⟨made, rfl⟩, fun absent => absurd inside absent⟩

theorem recreate_xds_iff_posix :
    "XdsBackend" ∉ recreatedSession.manager.storageBackends.names ∧
      ∃ failure, (posixSession.reply recreateXds).2 = .raised failure :=
  have guarantees := recreate_xds_iff recreateXds_lawful (by decide) (by decide) (by decide)
    (rfl : emptyCreation.original = .ok .empty) (by decide)
  have gone := fun inside => Bool.noConfusion (guarantees.1.mp inside).1
  ⟨gone, guarantees.2 gone⟩

end LMCacheHcu.Backends
