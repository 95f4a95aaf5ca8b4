import LMCacheHcu.Backends.Registry

/-! # What becomes of every backend

Each backend that a factory call hands to the registry is closed exactly once,
by an operation or by the final `close`; dependants are closed before the
allocator that they borrow from.
-/

namespace LMCacheHcu.Backends

open Runs

/-! ### One factory call -/

/-- What a successful factory call adds. -/
structure Added (made : List Backend) (existing new : OrderedDict String Backend) : Prop where
  apart : ∀ entry ∈ new.entries, entry.1 ∉ existing.names
  serials : (new.values.map Backend.serial).Nodup
  unused : ∀ backend ∈ made, backend.serial ∉ new.values.map Backend.serial
  dependencyFirst : DependencyFirst ((existing.find "LocalCPUBackend").map Backend.serial)
    new.entries

/-- The local CPU backend that the entries end with. -/
def lastCpu : Option ℕ → List (String × Backend) → Option ℕ
  | cpu, [] => cpu
  | cpu, (name, backend) :: entries =>
      lastCpu (if name = "LocalCPUBackend" then some backend.serial else cpu) entries

theorem dependencyFirst_append {cpu : Option ℕ} {entries more : List (String × Backend)} :
    DependencyFirst cpu (entries ++ more) ↔
      DependencyFirst cpu entries ∧ DependencyFirst (lastCpu cpu entries) more := by
  induction entries generalizing cpu with
  | nil => exact (iff_of_eq (true_and _)).symm
  | cons entry entries ih =>
      obtain ⟨name, backend⟩ := entry
      exact (and_congr_right fun _ => ih).trans and_assoc.symm

theorem lastCpu_of_mem {entries : List (String × Backend)}
    (nodup : (entries.map Prod.fst).Nodup) {backend : Backend}
    (member : ("LocalCPUBackend", backend) ∈ entries) (cpu : Option ℕ) :
    lastCpu cpu entries = some backend.serial := by
  have absent (cpu : Option ℕ) (rest : List (String × Backend))
      (none : "LocalCPUBackend" ∉ rest.map Prod.fst) : lastCpu cpu rest = cpu := by
    induction rest generalizing cpu with
    | nil => rfl
    | cons entry rest ih =>
        obtain ⟨name, other⟩ := entry
        simp only [List.map_cons, List.mem_cons, not_or] at none
        rw [lastCpu, if_neg (Ne.symm none.1), ih _ none.2]
  induction entries generalizing cpu with
  | nil => cases member
  | cons entry entries ih =>
      obtain ⟨name, other⟩ := entry
      rw [List.map_cons, List.nodup_cons] at nodup
      rw [lastCpu]
      rcases List.mem_cons.mp member with same | later
      · obtain ⟨rfl, rfl⟩ := Prod.mk.inj same
        rw [if_pos rfl, absent _ _ nodup.1]
      · exact ih nodup.2 later _

/-- The XDS backend borrows from a local CPU backend of the same factory call. -/
theorem xdsBackendInit_ok {config : Config} {construction : XdsConstruction}
    {localCpuBackend : Option Backend} {xds : Backend}
    (made : xdsBackendInit config construction localCpuBackend = .ok xds) :
    xds.serial = construction.serial ∧
      ∀ serial ∈ xds.allocator, ∃ cpu, localCpuBackend = some cpu ∧ cpu.serial = serial := by
  unfold xdsBackendInit at made
  split at made
  · cases made
  split at made
  · cases made
  split at made
  · cases made
  split at made
  · cases made
  obtain rfl := Except.ok.inj made
  refine ⟨rfl, fun serial borrowed => ?_⟩
  dsimp only at borrowed
  split at borrowed
  · exact Option.map_eq_some_iff.mp borrowed
  · cases borrowed

/-- A new backend that is taken for the local CPU backend has its name. -/
theorem localCpuAmong_mem {creation : Creation} {made : List Backend}
    {existing backends : OrderedDict String Backend} (lawful : creation.Lawful made existing)
    (original : creation.original = .ok backends) {cpu : Backend}
    (found : localCpuAmong backends = some cpu) :
    ("LocalCPUBackend", cpu) ∈ backends.entries := by
  have upstream : creation.upstream = backends.entries := by rw [Creation.upstream, original]
  rw [localCpuAmong, Option.or_eq_some_iff] at found
  rcases found with byName | ⟨_, byClass⟩
  · exact OrderedDict.find_eq_some_iff.mp byName
  · obtain ⟨⟨name, backend⟩, member, rfl⟩ := List.mem_map.mp (List.mem_of_find?_eq_some byClass)
    have named := lawful.named _ (upstream ▸ member) (by simpa using List.find?_some byClass)
    obtain rfl : name = "LocalCPUBackend" := named
    exact member

/-- The two forms of a successful factory call. -/
theorem create_ok {config : Config} {cudaWorker : Bool} {skip : List String}
    {creation : Creation} {new : OrderedDict String Backend}
    (made : hcuCreateStorageBackends config cudaWorker skip creation = .ok new) :
    creation.original = .ok new ∨
      ∃ backends xds, creation.original = .ok backends ∧ "XdsBackend" ∉ backends.names ∧
        "XdsBackend" ∉ skip ∧ new = backends.insert "XdsBackend" xds ∧
          xdsBackendInit config creation.xds (localCpuAmong backends) = .ok xds := by
  unfold hcuCreateStorageBackends at made
  split at made
  · cases made
  rename_i backends original
  split at made
  · obtain rfl := Except.ok.inj made
    exact .inl original
  · rename_i adds
    simp only [Bool.or_eq_true, decide_eq_true_eq, not_or] at adds
    split at made
    · cases made
    · rename_i xds built
      obtain rfl := Except.ok.inj made
      exact .inr ⟨backends, xds, original, adds.1.1.2, adds.1.2, rfl, built⟩

/-- A factory call that keeps the contract adds new backends under new names. -/
theorem added_of_lawful {config : Config} {cudaWorker : Bool} {creation : Creation}
    {made : List Backend} {existing new : OrderedDict String Backend}
    (lawful : creation.Lawful made existing)
    (created : hcuCreateStorageBackends config cudaWorker existing.names creation = .ok new) :
    Added made existing new := by
  rcases create_ok created with original | ⟨backends, xds, original, absent, skipped, rfl, built⟩
  · have upstream : creation.upstream = new.entries := by rw [Creation.upstream, original]
    have serials : new.values.map Backend.serial =
        creation.upstream.map fun entry => entry.2.serial := by
      rw [upstream, OrderedDict.values, List.map_map]
      rfl
    exact {
      apart := upstream ▸ lawful.skips
      serials := serials ▸ (List.nodup_cons.mp lawful.fresh).2
      unused := fun backend member inside =>
        lawful.unused backend member (List.mem_cons_of_mem _ (serials ▸ inside))
      dependencyFirst := upstream ▸ lawful.dependencyFirst }
  · have upstream : creation.upstream = backends.entries := by rw [Creation.upstream, original]
    have entries := OrderedDict.entries_insert_of_notMem absent xds
    obtain ⟨serial, borrows⟩ := xdsBackendInit_ok built
    have serials : (backends.insert "XdsBackend" xds).values.map Backend.serial =
        (creation.upstream.map fun entry => entry.2.serial) ++ [creation.xds.serial] := by
      rw [upstream, OrderedDict.values, entries, List.map_map, List.map_append,
        List.map_singleton, ← serial]
      rfl
    refine { apart := ?_, serials := ?_, unused := ?_, dependencyFirst := ?_ }
    · rw [entries]
      intro entry member
      rcases List.mem_append.mp member with old | same
      · exact lawful.skips entry (upstream ▸ old)
      · rw [List.mem_singleton.mp same]
        exact skipped
    · rw [serials]
      exact (List.perm_append_singleton _ _).nodup_iff.mpr lawful.fresh
    · intro backend member inside
      rw [serials] at inside
      exact lawful.unused backend member ((List.perm_append_singleton _ _).mem_iff.mp inside)
    · rw [entries, dependencyFirst_append]
      refine ⟨upstream ▸ lawful.dependencyFirst, fun serial borrowed => ?_, trivial⟩
      obtain ⟨cpu, found, rfl⟩ := borrows serial borrowed
      exact lastCpu_of_mem backends.nodup (localCpuAmong_mem lawful original found) _

/-! ### Operations on the registry -/

theorem existing_of_none {session : Session} {call : ManagerCall}
    (idle : session.closing call = []) :
    session.existing call = session.manager.storageBackends := by
  cases call with
  | closeBackend name | recreateBackend name creation =>
      apply OrderedDict.erase_of_notMem
      rw [← OrderedDict.find_eq_none_iff]
      exact Option.toList_eq_nil_iff.mp idle
  | _ => rfl

/-- An operation closes one backend at most, and takes it out of the registry. -/
theorem perm_existing (session : Session) (call : ManagerCall) :
    session.manager.storageBackends.values.Perm
      (session.closing call ++ (session.existing call).values) := by
  cases call with
  | closeBackend name | recreateBackend name creation =>
      cases found : session.manager.storageBackends.find name with
      | none =>
          rw [existing_of_none (by rw [Session.closing, found]; rfl), Session.closing, found]
          exact .refl _
      | some backend =>
          rw [Session.closing, found]
          exact (OrderedDict.perm_erase found).map Prod.snd
  | _ => exact .refl _

/-- What an operation leaves in the registry. -/
theorem reply_registry (session : Session) (call : ManagerCall) :
    (session.reply call).1.storageBackends =
      match session.creation? call with
      | none => session.existing call
      | some creation =>
          match session.create call creation with
          | .error _ => session.existing call
          | .ok new => (session.existing call).insertAll new.entries := by
  cases call with
  | updateConfig config => rfl
  | createBackends creation =>
      simp only [Session.reply, StorageManager.createBackends, Session.creation?, Session.create,
        Session.existing]
      cases hcuCreateStorageBackends session.manager.config session.manager.cudaWorker
        session.manager.storageBackends.names creation <;> rfl
  | closeBackend name =>
      simp only [Session.reply, StorageManager.closeBackend, Session.creation?]
      split
      · rename_i absent
        exact (OrderedDict.erase_of_notMem (OrderedDict.find_eq_none_iff.mp absent)).symm
      · rfl
  | recreateBackend name creation =>
      simp only [Session.reply, StorageManager.recreateBackend, Session.creation?]
      cases found : session.manager.storageBackends.find name with
      | none => exact (OrderedDict.erase_of_notMem (OrderedDict.find_eq_none_iff.mp found)).symm
      | some backend =>
          simp only [Option.isSome_some, if_true, Session.create, Session.existing]
          cases hcuCreateStorageBackends session.manager.config session.manager.cudaWorker
            (session.manager.storageBackends.erase name).names creation <;> rfl

/-- An operation without a successful factory call, or one that adds backends. -/
theorem step_cases {session next : Session} {call : ManagerCall}
    (lawful : session.Lawful call) (stepped : step session call = some next) :
    (next.manager.storageBackends = session.existing call ∧
        ∃ lost, next.made = session.made ++ lost ∧ next.dropped = session.dropped ++ lost ∧
          (lost.map Backend.serial).Nodup ∧
            ∀ backend ∈ session.made, backend.serial ∉ lost.map Backend.serial) ∨
      ∃ new, Added session.made (session.existing call) new ∧
        next.manager.storageBackends.entries = (session.existing call).entries ++ new.entries ∧
          next.made = session.made ++ new.values ∧ next.dropped = session.dropped := by
  have registry := reply_registry session call
  obtain rfl := Option.some.inj stepped
  cases factory : session.creation? call with
  | none =>
      simp only [factory] at registry
      refine .inl ⟨registry, [], ?_, ?_, List.nodup_nil, fun _ _ => List.not_mem_nil⟩ <;>
        simp only [Option.toList_none, List.flatMap_nil]
  | some creation =>
      have keeps := lawful creation factory
      cases created : session.create call creation with
      | error failure =>
          simp only [factory, created] at registry
          have serials : (creation.upstream.map Prod.snd).map Backend.serial =
              creation.upstream.map fun entry => entry.2.serial := by
            rw [List.map_map]
            rfl
          refine .inl ⟨registry, creation.upstream.map Prod.snd, ?_, ?_, ?_, ?_⟩
          · simp only [created, Option.toList_some, List.flatMap_singleton]
          · simp only [created, Option.toList_some, List.flatMap_singleton]
          · rw [serials]
            exact (List.nodup_cons.mp keeps.fresh).2
          · intro backend member inside
            exact keeps.unused backend member (List.mem_cons_of_mem _ (serials ▸ inside))
      | ok new =>
          simp only [factory, created] at registry
          have added := added_of_lawful keeps created
          refine .inr ⟨new, added, ?_, ?_, ?_⟩
          · rw [registry]
            exact OrderedDict.entries_insertAll new.nodup added.apart
          · simp only [created, Option.toList_some, List.flatMap_singleton]
          · simp only [created, Option.toList_some, List.flatMap_singleton,
              List.append_nil]

/-! ### The invariant -/

/-- Every backend made is registered, closed or dropped, one of the three and
once. A registered backend borrows from one that was made before it, and from
registered ones only under the name of the local CPU backend. -/
structure Sound (session : Session) : Prop where
  serials : (session.made.map Backend.serial).Nodup
  ledger : session.made.Perm
    (session.manager.storageBackends.values ++ (session.closed ++ session.dropped))
  known : ∀ entry ∈ session.manager.storageBackends.entries, ∀ serial ∈ entry.2.allocator,
    serial ∈ session.made.map Backend.serial
  ordered : session.manager.storageBackends.entries.Pairwise fun earlier later =>
    earlier.2.allocator ≠ some later.2.serial
  unborrowed : ∀ entry ∈ session.manager.storageBackends.entries,
    entry.2.allocator ≠ some entry.2.serial
  named : ∀ borrower ∈ session.manager.storageBackends.entries,
    ∀ lender ∈ session.manager.storageBackends.entries,
      borrower.2.allocator = some lender.2.serial → lender.1 = "LocalCPUBackend"

theorem mem_names_values {dict : OrderedDict String Backend} {entry : String × Backend}
    (member : entry ∈ dict.entries) : entry.2 ∈ dict.values :=
  List.mem_map_of_mem member

theorem Sound.registered_made {session : Session} (sound : Sound session)
    {entry : String × Backend} (member : entry ∈ session.manager.storageBackends.entries) :
    entry.2 ∈ session.made :=
  sound.ledger.mem_iff.mpr (List.mem_append_left _ (mem_names_values member))

theorem map_serial_values (dict : OrderedDict String Backend) :
    dict.values.map Backend.serial = dict.entries.map fun entry => entry.2.serial := by
  rw [OrderedDict.values, List.map_map]
  rfl

/-- A registered object has one entry. -/
theorem Sound.entry_unique {session : Session} (sound : Sound session)
    {entry other : String × Backend} (member : entry ∈ session.manager.storageBackends.entries)
    (there : other ∈ session.manager.storageBackends.entries)
    (same : entry.2.serial = other.2.serial) : entry = other := by
  have serials := (sound.ledger.map Backend.serial).nodup_iff.mp sound.serials
  rw [List.map_append, map_serial_values] at serials
  exact List.inj_on_of_nodup_map serials.of_append_left member there same

/-- Where the borrowed serials of added backends come from. -/
theorem DependencyFirst.borrowed {cpu : Option ℕ} {entries : List (String × Backend)}
    (first : DependencyFirst cpu entries) {entry : String × Backend} (member : entry ∈ entries)
    {serial : ℕ} (borrowed : entry.2.allocator = some serial) :
    cpu = some serial ∨
      ∃ lender ∈ entries, lender.1 = "LocalCPUBackend" ∧ lender.2.serial = serial := by
  induction entries generalizing cpu with
  | nil => cases member
  | cons head entries ih =>
      obtain ⟨name, backend⟩ := head
      rcases List.mem_cons.mp member with rfl | later
      · exact .inl (first.1 serial borrowed)
      · rcases ih first.2 later with before | ⟨lender, inside, named⟩
        · split at before
          · rename_i isCpu
            exact .inr ⟨_, List.mem_cons_self, isCpu, Option.some.inj before⟩
          · exact .inl before
        · exact .inr ⟨lender, List.mem_cons_of_mem _ inside, named⟩

/-- Added backends do not borrow from themselves or from later ones. -/
theorem DependencyFirst.pairwise {cpu : Option ℕ} {entries : List (String × Backend)}
    (first : DependencyFirst cpu entries)
    (serials : (entries.map fun entry => entry.2.serial).Nodup)
    (apart : ∀ serial ∈ cpu, serial ∉ entries.map fun entry => entry.2.serial) :
    (entries.Pairwise fun earlier later => earlier.2.allocator ≠ some later.2.serial) ∧
      ∀ entry ∈ entries, entry.2.allocator ≠ some entry.2.serial := by
  induction entries generalizing cpu with
  | nil => exact ⟨.nil, fun _ member => absurd member List.not_mem_nil⟩
  | cons head entries ih =>
      obtain ⟨name, backend⟩ := head
      rw [List.map_cons, List.nodup_cons] at serials
      have here (entry : String × Backend) (member : entry ∈ (name, backend) :: entries) :
          backend.allocator ≠ some entry.2.serial := fun borrowed =>
        apart _ (first.1 _ borrowed) (List.mem_map_of_mem member)
      obtain ⟨pairwise, unborrowed⟩ := ih first.2 serials.2 fun serial current => by
        split at current
        · obtain rfl := Option.some.inj current
          exact serials.1
        · exact fun inside => apart serial current (List.mem_cons_of_mem _ inside)
      refine ⟨.cons (fun entry later => here entry (List.mem_cons_of_mem _ later)) pairwise,
        List.forall_mem_cons.mpr ⟨here _ List.mem_cons_self, unborrowed⟩⟩

/-- The registry after the closing part of an operation is part of the registry. -/
theorem existing_sublist (session : Session) (call : ManagerCall) :
    (session.existing call).entries.Sublist session.manager.storageBackends.entries := by
  cases call with
  | closeBackend name | recreateBackend name creation => exact List.filter_sublist
  | _ => exact List.Sublist.refl _

theorem closed_step {session next : Session} {call : ManagerCall}
    (stepped : step session call = some next) :
    next.closed = session.closed ++ session.closing call := by
  obtain rfl := Option.some.inj stepped
  rfl

/-- What an operation closes and keeps makes up what was registered. -/
theorem Sound.ledger_existing {session : Session} (sound : Sound session) (call : ManagerCall) :
    session.made.Perm ((session.existing call).values ++
      ((session.closed ++ session.closing call) ++ session.dropped)) := by
  calc
    session.made.Perm _ := sound.ledger
    List.Perm _ ((session.closing call ++ (session.existing call).values) ++
        (session.closed ++ session.dropped)) :=
      (perm_existing session call).append_right _
    List.Perm _ _ := by
      rw [← Multiset.coe_eq_coe]
      simp only [← Multiset.coe_add]
      abel

theorem Sound.step {session next : Session} {call : ManagerCall} (sound : Sound session)
    (lawful : session.Lawful call) (stepped : step session call = some next) : Sound next := by
  have ledger := sound.ledger_existing call
  have sublist := existing_sublist session call
  have closed := closed_step stepped
  rcases step_cases lawful stepped with
    ⟨registry, lost, made, dropped, nodup, unused⟩ | ⟨new, added, registry, made, dropped⟩
  · exact {
      serials := by
        rw [made, List.map_append]
        refine sound.serials.append nodup fun serial old new => ?_
        obtain ⟨backend, member, rfl⟩ := List.mem_map.mp old
        exact unused backend member new
      ledger := by
        rw [made, dropped, closed, registry]
        rw [← List.append_assoc, ← List.append_assoc, List.append_assoc _ _ session.dropped]
        exact ledger.append_right lost
      known := fun entry member serial borrowed => by
        rw [made, List.map_append]
        exact List.mem_append_left _
          (sound.known entry (sublist.subset (registry ▸ member)) serial borrowed)
      ordered := registry ▸ sound.ordered.sublist sublist
      unborrowed := fun entry member =>
        sound.unborrowed entry (sublist.subset (registry ▸ member))
      named := fun borrower member lender there =>
        sound.named borrower (sublist.subset (registry ▸ member)) lender
          (sublist.subset (registry ▸ there)) }
  · have serials : (new.entries.map fun entry => entry.2.serial).Nodup :=
      map_serial_values new ▸ added.serials
    have cpuMade : ∀ serial ∈ ((session.existing call).find "LocalCPUBackend").map Backend.serial,
        ∃ lender ∈ session.manager.storageBackends.entries,
          lender.1 = "LocalCPUBackend" ∧ lender.2.serial = serial := by
      intro serial found
      obtain ⟨cpu, here, rfl⟩ := Option.map_eq_some_iff.mp found
      exact ⟨_, sublist.subset (OrderedDict.find_eq_some_iff.mp here), rfl, rfl⟩
    have fresh : ∀ serial ∈ session.made.map Backend.serial,
        serial ∉ new.entries.map fun entry => entry.2.serial := by
      intro serial old
      obtain ⟨backend, member, rfl⟩ := List.mem_map.mp old
      exact map_serial_values new ▸ added.unused backend member
    obtain ⟨pairwise, unborrowed⟩ := added.dependencyFirst.pairwise serials fun serial current => by
      obtain ⟨lender, there, _, rfl⟩ := cpuMade serial current
      exact fresh _ (List.mem_map_of_mem (sound.registered_made there))
    have old (entry : String × Backend) (member : entry ∈ (session.existing call).entries) :
        entry ∈ session.manager.storageBackends.entries := sublist.subset member
    have madeValues : next.made.map Backend.serial =
        session.made.map Backend.serial ++ new.entries.map fun entry => entry.2.serial := by
      rw [made, List.map_append, map_serial_values]
    exact {
      serials := by
        rw [madeValues]
        exact sound.serials.append serials fun serial before after => fresh serial before after
      ledger := by
        have values : next.manager.storageBackends.values =
            (session.existing call).values ++ new.values := by
          rw [OrderedDict.values, registry, List.map_append]
          rfl
        rw [made, dropped, closed, values]
        refine (ledger.append_right new.values).trans ?_
        rw [← Multiset.coe_eq_coe]
        simp only [← Multiset.coe_add]
        abel
      known := fun entry member serial borrowed => by
        rw [madeValues]
        rcases List.mem_append.mp (registry ▸ member) with before | after
        · exact List.mem_append_left _ (sound.known entry (old entry before) serial borrowed)
        · rcases added.dependencyFirst.borrowed after borrowed with
            current | ⟨lender, inside, _, rfl⟩
          · obtain ⟨lender, there, _, rfl⟩ := cpuMade serial current
            exact List.mem_append_left _ (List.mem_map_of_mem (sound.registered_made there))
          · exact List.mem_append_right _ (List.mem_map_of_mem inside)
      ordered := by
        rw [registry, List.pairwise_append]
        refine ⟨sound.ordered.sublist sublist, pairwise, ?_⟩
        intro earlier before later after borrowed
        exact fresh _ (sound.known earlier (old earlier before) _ borrowed)
          (List.mem_map_of_mem after)
      unborrowed := fun entry member => by
        rcases List.mem_append.mp (registry ▸ member) with before | after
        · exact sound.unborrowed entry (old entry before)
        · exact unborrowed entry after
      named := fun borrower member lender there borrowed => by
        have madeSerial {entry : String × Backend}
            (before : entry ∈ (session.existing call).entries) :
            entry.2.serial ∈ session.made.map Backend.serial :=
          List.mem_map_of_mem (sound.registered_made (old entry before))
        have source : (∃ entry ∈ session.manager.storageBackends.entries,
              entry.1 = "LocalCPUBackend" ∧ entry.2.serial = lender.2.serial) ∨
            (∃ entry ∈ new.entries, entry.1 = "LocalCPUBackend" ∧
              entry.2.serial = lender.2.serial) ∨ borrower ∈ (session.existing call).entries := by
          rcases List.mem_append.mp (registry ▸ member) with before | after
          · exact .inr (.inr before)
          · rcases added.dependencyFirst.borrowed after borrowed with current | inside
            · exact .inl (cpuMade _ current)
            · exact .inr (.inl inside)
        rcases List.mem_append.mp (registry ▸ there) with lenderOld | lenderNew
        · rcases source with ⟨entry, inside, isCpu, same⟩ | ⟨entry, inside, _, same⟩ | before
          · exact sound.entry_unique inside (old lender lenderOld) same ▸ isCpu
          · exact absurd (List.mem_map.mpr ⟨entry, inside, same⟩) (fresh _ (madeSerial lenderOld))
          · exact sound.named borrower (old borrower before) lender (old lender lenderOld) borrowed
        · have isNew := List.mem_map_of_mem (f := fun entry : String × Backend => entry.2.serial)
            lenderNew
          rcases source with ⟨entry, inside, _, same⟩ | ⟨entry, inside, isCpu, same⟩ | before
          · have isOld := List.mem_map_of_mem (f := Backend.serial) (sound.registered_made inside)
            exact absurd (same ▸ isNew) (fresh _ isOld)
          · exact List.inj_on_of_nodup_map serials inside lenderNew same ▸ isCpu
          · exact absurd isNew (fresh _ (sound.known borrower (old borrower before) _ borrowed)) }

/-! ### Construction -/

/-- A session that begins with a constructed manager. -/
structure Session.Started (session : Session) : Prop where
  exists_init : ∃ config cudaWorker scheduler creation new,
    creation.Lawful [] .empty ∧
      hcuCreateStorageBackends config cudaWorker [] creation = .ok new ∧
      StorageManager.init config cudaWorker scheduler creation = .ok session.manager ∧
      session.made = new.values
  closed : session.closed = []
  dropped : session.dropped = []

/-- The manager that a construction gives. -/
theorem init_ok {config : Config} {cudaWorker scheduler : Bool} {creation : Creation}
    {new : OrderedDict String Backend} {manager : StorageManager}
    (created : hcuCreateStorageBackends config cudaWorker [] creation = .ok new)
    (built : StorageManager.init config cudaWorker scheduler creation = .ok manager) :
    manager.config = config ∧ manager.storageBackends.entries = new.entries ∧
      manager.nonAllocatorBackends = getNonAllocatorBackends config manager.storageBackends ∧
      manager.localCpuBackend = manager.storageBackends.find "LocalCPUBackend" ∧
      (manager.allocatorBackend = none ∨
        getAllocatorBackend config manager.storageBackends = .ok manager.allocatorBackend) := by
  have named : (OrderedDict.empty : OrderedDict String Backend).names = [] := rfl
  unfold StorageManager.init StorageManager.createBackends at built
  simp only [named, created] at built
  have entries : ((OrderedDict.empty : OrderedDict String Backend).insertAll new.entries).entries =
      new.entries :=
    OrderedDict.entries_insertAll new.nodup fun _ _ => List.not_mem_nil
  cases allocator : roleAllocatorBackend config scheduler
      (OrderedDict.empty.insertAll new.entries) with
  | error failure =>
      rw [allocator] at built
      cases built
  | ok backend =>
      rw [allocator] at built
      dsimp only [Bind.bind, Except.bind] at built
      split at built
      · cases built
      · obtain rfl := Except.ok.inj built
        refine ⟨rfl, entries, rfl, rfl, ?_⟩
        cases scheduler with
        | true => exact .inl (Except.ok.inj allocator).symm
        | false => exact .inr allocator

theorem sound_of_started {session : Session} (started : session.Started) : Sound session := by
  obtain ⟨config, cudaWorker, scheduler, creation, new, lawful, created, built, made⟩ :=
    started.exists_init
  obtain ⟨_, registry, _⟩ := init_ok created built
  have added := added_of_lawful lawful created
  have serials : (new.entries.map fun entry => entry.2.serial).Nodup :=
    map_serial_values new ▸ added.serials
  have noCpu : ((OrderedDict.empty : OrderedDict String Backend).find "LocalCPUBackend").map
      Backend.serial = none := rfl
  have first := noCpu ▸ added.dependencyFirst
  obtain ⟨pairwise, unborrowed⟩ := first.pairwise serials fun _ none => nomatch none
  have borrowed {entry : String × Backend} (member : entry ∈ new.entries) {serial : ℕ}
      (borrows : entry.2.allocator = some serial) :
      ∃ lender ∈ new.entries, lender.1 = "LocalCPUBackend" ∧ lender.2.serial = serial :=
    (first.borrowed member borrows).resolve_left nofun
  have values : session.manager.storageBackends.values = new.values :=
    congrArg (List.map Prod.snd) registry
  exact {
    serials := made ▸ added.serials
    ledger := by
      rw [started.closed, started.dropped, values, made, List.append_nil, List.append_nil]
    known := fun entry member serial borrows => by
      obtain ⟨lender, inside, _, rfl⟩ := borrowed (registry ▸ member) borrows
      exact made ▸ List.mem_map_of_mem (mem_names_values inside)
    ordered := registry ▸ pairwise
    unborrowed := registry ▸ unborrowed
    named := fun borrower member lender there borrows => by
      obtain ⟨other, inside, isCpu, same⟩ := borrowed (registry ▸ member) borrows
      exact List.inj_on_of_nodup_map serials inside (registry ▸ there) same ▸ isCpu }

theorem sound_of_reaches {start session : Session} (started : start.Started)
    (reached : Reaches step Session.Lawful start session) : Sound session :=
  reached.invariant (sound_of_started started) fun _ _ _ sound lawful stepped =>
    sound.step lawful stepped

/-! ### The final close -/

section Closing

variable (raises : Backend → Option PyError)

/-- After a failure no shared allocator is closed. -/
theorem closeLoop_failed {entries : List (String × Backend)} {closeError : Option PyError}
    (failed : closeError.isSome) {backend : Backend}
    (called : backend ∈ (closeLoop raises entries closeError).1) :
    ∃ entry ∈ entries, entry.2 = backend ∧ entry.1 ∉ sharedAllocatorBackends := by
  induction entries generalizing closeError with
  | nil => cases called
  | cons entry entries ih =>
      obtain ⟨name, other⟩ := entry
      rw [closeLoop_cons] at called
      split at called
      · obtain ⟨entry, member, rest⟩ := ih failed called
        exact ⟨entry, List.mem_cons_of_mem _ member, rest⟩
      · rename_i unshared
        rcases List.mem_cons.mp called with rfl | later
        · exact ⟨_, List.mem_cons_self, rfl, fun shared => unshared ⟨failed, shared⟩⟩
        · obtain ⟨entry, member, rest⟩ :=
            ih (by rw [Option.isSome_or, failed, Bool.true_or]) later
          exact ⟨entry, List.mem_cons_of_mem _ member, rest⟩

theorem closeLoop_sublist (entries : List (String × Backend)) (closeError : Option PyError) :
    (closeLoop raises entries closeError).1.Sublist (entries.map Prod.snd) := by
  induction entries generalizing closeError with
  | nil => exact .refl _
  | cons entry entries ih =>
      obtain ⟨name, backend⟩ := entry
      rw [closeLoop_cons]
      split
      · exact (ih closeError).cons backend
      · exact (ih _).cons_cons backend

/-- The failure raised at the end is the first one. -/
theorem closeLoop_error (entries : List (String × Backend)) (closeError : Option PyError) :
    (closeLoop raises entries closeError).2 =
      closeError.or ((closeLoop raises entries closeError).1.findSome? raises) := by
  induction entries generalizing closeError with
  | nil => exact (Option.or_none).symm
  | cons entry entries ih =>
      obtain ⟨name, backend⟩ := entry
      rw [closeLoop_cons]
      split
      · exact ih closeError
      · rw [ih, Option.or_assoc]
        congr 1
        rw [List.findSome?_cons]
        cases raises backend <;> rfl

theorem closeLoop_append (entries more : List (String × Backend)) (closeError : Option PyError) :
    (closeLoop raises (entries ++ more) closeError).1 =
      (closeLoop raises entries closeError).1 ++
        (closeLoop raises more (closeLoop raises entries closeError).2).1 := by
  induction entries generalizing closeError with
  | nil => rfl
  | cons entry entries ih =>
      obtain ⟨name, backend⟩ := entry
      rw [List.cons_append, closeLoop_cons, closeLoop_cons]
      split
      · exact ih closeError
      · exact congrArg (backend :: ·) (ih _)

/-- An entry is left out when it is shared and a backend closed before it failed. -/
theorem mem_closeLoop_iff {before after : List (String × Backend)} {name : String}
    {backend : Backend} {closeError : Option PyError}
    (nodup : ((before ++ (name, backend) :: after).map Prod.snd).Nodup) :
    backend ∈ (closeLoop raises (before ++ (name, backend) :: after) closeError).1 ↔
      ¬ (name ∈ sharedAllocatorBackends ∧ (closeLoop raises before closeError).2.isSome) := by
  rw [List.map_append, List.map_cons, List.nodup_middle, List.nodup_cons, List.mem_append,
    not_or] at nodup
  have absent (closeError : Option PyError) : backend ∉ (closeLoop raises after closeError).1 :=
    fun member => nodup.1.2 ((closeLoop_sublist raises after closeError).subset member)
  have earlier : backend ∉ (closeLoop raises before closeError).1 := fun member =>
    nodup.1.1 ((closeLoop_sublist raises before closeError).subset member)
  rw [closeLoop_append, List.mem_append, or_iff_right earlier, closeLoop_cons]
  split
  · rename_i skipped
    exact iff_of_false (absent _) (not_not_intro skipped.symm)
  · rename_i kept
    exact iff_of_true List.mem_cons_self fun both => kept both.symm

/-- Dependants are closed before the allocator that they borrow from, without a
failure. -/
theorem closeLoop_dependants {entries : List (String × Backend)} {closeError : Option PyError}
    (ordered : entries.Pairwise fun first later => later.2.allocator ≠ some first.2.serial)
    (unborrowed : ∀ entry ∈ entries, entry.2.allocator ≠ some entry.2.serial)
    (serials : (entries.map fun entry => entry.2.serial).Nodup)
    (named : ∀ borrower ∈ entries, ∀ lender ∈ entries,
      borrower.2.allocator = some lender.2.serial → lender.1 = "LocalCPUBackend")
    {before after : List Backend} {lender : Backend}
    (calls : (closeLoop raises entries closeError).1 = before ++ lender :: after)
    {borrower : String × Backend} (member : borrower ∈ entries)
    (borrows : borrower.2.allocator = some lender.serial) :
    borrower.2 ∈ before ∧ raises borrower.2 = none := by
  induction entries generalizing closeError before with
  | nil => cases member
  | cons entry entries ih =>
      obtain ⟨name, backend⟩ := entry
      rw [List.map_cons, List.nodup_cons] at serials
      -- a failure before the lender leaves the lender out
      have unfailed (closeError : Option PyError) {rest : List Backend}
          (later : (closeLoop raises entries closeError).1 = rest ++ lender :: after)
          (head : borrower = (name, backend)) : closeError.isSome = false := by
        by_contra failed
        have called : lender ∈ (closeLoop raises entries closeError).1 := later ▸ by simp
        obtain ⟨other, there, again, unshared⟩ :=
          closeLoop_failed raises ((Bool.not_eq_false _).mp failed) called
        have isCpu := named borrower member other (List.mem_cons_of_mem _ there) (again ▸ borrows)
        exact unshared (isCpu ▸ by decide)
      have inner (closeError : Option PyError) {rest : List Backend}
          (later : (closeLoop raises entries closeError).1 = rest ++ lender :: after)
          (inside : borrower ∈ entries) : borrower.2 ∈ rest ∧ raises borrower.2 = none :=
        ih ordered.of_cons (fun entry there => unborrowed entry (List.mem_cons_of_mem _ there))
          serials.2 (fun first there second here =>
            named first (List.mem_cons_of_mem _ there) second (List.mem_cons_of_mem _ here))
          later inside
      rw [closeLoop_cons] at calls
      split at calls
      · rename_i skipped
        rcases List.mem_cons.mp member with head | inside
        · exact absurd skipped.1 (by simp [unfailed closeError calls head])
        · exact inner closeError calls inside
      · cases before with
        | nil =>
            obtain ⟨rfl, _⟩ := List.cons.inj calls
            rcases List.mem_cons.mp member with rfl | inside
            · exact absurd borrows (unborrowed _ List.mem_cons_self)
            · exact absurd borrows (List.rel_of_pairwise_cons ordered inside)
        | cons first rest =>
            obtain ⟨rfl, later⟩ := List.cons.inj calls
            rcases List.mem_cons.mp member with rfl | inside
            · have unraised := unfailed _ later rfl
              rw [Option.isSome_or, Bool.or_eq_false_iff] at unraised
              exact ⟨List.mem_cons_self, by simpa using unraised.2⟩
            · exact (inner _ later inside).imp_left (List.mem_cons_of_mem _)

end Closing

end LMCacheHcu.Backends
