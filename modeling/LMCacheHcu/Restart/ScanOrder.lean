import LMCacheHcu.Restart.Recovery
import LMCacheHcu.Restart.StartupPuts

/-! # The scan in any order

Two runs of a new backend, with the same files and the same puts, end with the same
entries and the same counter, whatever the order of the visits, under conditions on the
files and on the regions of the puts. The regions of a put that bring an entry or take
it back do not credit one that the scan has put there meanwhile, and this is where the
order comes in.
-/

namespace LMCacheHcu.Restart

open Storage Exceptions KeyedAccounts

variable {Key F : Type}

/-! ### The files -/

section Files

variable (backend : ScanBackend Key F) (files : List Visit)

/-- The files have a valid one of the key in the block-first layout. -/
def BlockFirstFile (key : Key) (entry : FileEntry (RawMetadata F)) : Prop :=
  ∃ visit ∈ files, backend.finding visit = .blockFirst key entry

/-- The files have a valid sidecar of the key. -/
def LegacyFile (key : Key) (entry : FileEntry (RawMetadata F)) : Prop :=
  ∃ visit ∈ files, backend.finding visit = .legacy key entry

/-- The files have a valid one of the key. -/
def Described (key : Key) : Prop :=
  ∃ entry, BlockFirstFile backend files key entry ∨ LegacyFile backend files key entry

/-- **The condition on the files.** A file that ends its thread has no valid file beside
it; a key has one valid block-first file at most, and without one a valid sidecar at
most. -/
structure FilesApart : Prop where
  alone : ∀ visit ∈ files, backend.finding visit = .stops → ∀ other ∈ files,
    other.l1Dir = visit.l1Dir → backend.acts (.visit other) = none
  oneBlockFirst : ∀ key first second, BlockFirstFile backend files key first →
    BlockFirstFile backend files key second → first = second
  oneLegacy : ∀ key first second, LegacyFile backend files key first →
    LegacyFile backend files key second → (∀ entry, ¬ BlockFirstFile backend files key entry) →
      first = second

variable {backend files}

theorem checkBlockFirst_isSome {filename : Text} {size : ℕ} {metadata : RawMetadata F}
    {entry : FileEntry (RawMetadata F)}
    (checked : backend.checkBlockFirst filename size metadata = .ok entry) :
    entry.diskMetadata = some metadata := by
  simp only [ScanBackend.checkBlockFirst] at checked
  split at checked
  · cases checked
  split at checked
  · simp only [Checked.bind_ok] at checked
    obtain ⟨_, -, _, -, _, -, checked⟩ := checked
    split at checked
    · cases checked
    · simp only [Checked.bind_ok, Checked.return_ok] at checked
      obtain ⟨_, -, _, -, rfl⟩ := checked
      rfl
  · cases checked

/-- The layout that a finding claims is that of its entry. -/
def Finding.Layouts {M : Type} : Finding Key M → Prop
  | .blockFirst _ entry => entry.diskMetadata.isSome = true
  | .legacy _ entry => entry.diskMetadata = none
  | .nothing | .stops => True

theorem Finding.ofRead_layouts {Declared M : Type} {make : Key → FileEntry M → Finding Key M}
    {key : Key} {result : Except (Raised Declared) (FileEntry M)}
    (each : ∀ entry, result = .ok entry → (make key entry).Layouts) :
    (Finding.ofRead make key result).Layouts := by
  match result with
  | .ok entry => exact each entry rfl
  | .error (.builtin _) => trivial
  | .error (.declared _) => trivial

variable (backend) in
theorem finding_layouts (visit : Visit) : (backend.finding visit).Layouts := by
  unfold ScanBackend.finding
  split
  · split
    · split
      · split
        · trivial
        · apply Finding.ofRead_layouts
          intro entry read
          simp only [ScanBackend.blockFirstEntry, Checked.bind_ok] at read
          obtain ⟨metadata, -, checked⟩ := read
          change entry.diskMetadata.isSome = true
          rw [checkBlockFirst_isSome checked]
          rfl
      · trivial
    · split
      · trivial
      · apply Finding.ofRead_layouts
        intro entry read
        obtain ⟨_, _, -, -, -, -, -, -, rfl⟩ := sidecarEntry_ok.mp read
        rfl
    all_goals trivial
  · trivial

theorem BlockFirstFile.isSome {key : Key} {entry : FileEntry (RawMetadata F)}
    (present : BlockFirstFile backend files key entry) : entry.diskMetadata.isSome = true := by
  obtain ⟨visit, -, found⟩ := present
  have layouts := finding_layouts backend visit
  rw [found] at layouts
  exact layouts

theorem LegacyFile.eq_none {key : Key} {entry : FileEntry (RawMetadata F)}
    (present : LegacyFile backend files key entry) : entry.diskMetadata = none := by
  obtain ⟨visit, -, found⟩ := present
  have layouts := finding_layouts backend visit
  rw [found] at layouts
  exact layouts

theorem acts_visit {key : Key} {visit : Visit} {action : KeyAction (RawMetadata F)} :
    backend.acts (.visit visit) = some (key, action) ↔
      (∃ entry, backend.finding visit = .blockFirst key entry ∧ action = .blockFirst entry) ∨
        ∃ entry, backend.finding visit = .legacy key entry ∧ action = .legacy entry := by
  simp only [ScanBackend.acts]
  cases finding : backend.finding visit <;> grind

end Files

/-! ### The runs -/

section Runs

/-- The visits of a run. -/
def visitsOf (events : List (StartupEvent Key F)) : List Visit :=
  events.filterMap fun
    | .visit visit => some visit
    | .put _ _ => none

variable [DecidableEq Key]

/-- What the puts of a run do with a key. -/
def regionsOn (key : Key) (events : List (StartupEvent Key F)) :
    List (PutRegion (RawMetadata F)) :=
  events.filterMap fun
    | .visit _ => none
    | .put changed region => if changed = key then some region else none

/-- What the puts of a key have reserved and not taken up at the end of a run. -/
def unsettled (key : Key) (events : List (StartupEvent Key F)) : ℤ :=
  ((regionsOn key events).map PutRegion.opens).sum

variable (backend : ScanBackend Key F) (files : List Visit)

/-- What a region of a put may find. A key with a valid file has no entry where a put
brings one, pops one or takes one back, and a failed save takes no block-first entry. -/
def Allows (key : Key) : PutRegion (RawMetadata F) → Option (FileEntry (RawMetadata F)) → Prop
  | .pop, value | .insertKey _, value | .insertDirectKey _ _, value =>
      Described backend files key → value = none
  | .undo _, value => (Described backend files key → value = none) ∧
      ∀ entry, value = some entry → entry.diskMetadata = none
  | .reserve _, _ | .rollback _, _ => True

/-- The condition on each step of a run, and on the state before it. -/
def KeepsOrder (state : ScanState Key F) : StartupEvent Key F → Prop
  | .visit _ => True
  | .put key region => Allows backend files key region (state.index.find key)

def KeepsOrderFrom : List (StartupEvent Key F) → ScanState Key F → Prop
  | [], _ => True
  | event :: events, state => KeepsOrder backend files state event ∧
      KeepsOrderFrom events (backend.startupStep state event)

/-- A run that visits the files, each step of which meets the condition. -/
structure CarefulStartup (events : List (StartupEvent Key F)) : Prop where
  visits : (visitsOf events).Perm files
  keeps : KeepsOrderFrom backend files events ScanBackend.ScanState.start

/-- The puts of a key bring legacy entries only. -/
def LegacyPuts (key : Key) (events : List (StartupEvent Key F)) : Prop :=
  ∀ region ∈ regionsOn key events, ∀ entry, region.entry = some entry → entry.diskMetadata = none

/-- Two runs have the same puts. Where the scan was first, a put of a key with a valid
file may be turned away in one of them. Then its reservations are settled in both, and
without a block-first file the puts are of the legacy layout. -/
def SamePuts (first second : List (StartupEvent Key F)) : Prop :=
  ∀ key, regionsOn key first = regionsOn key second ∨
    (unsettled key first = 0 ∧ unsettled key second = 0) ∧
      ((∃ entry, BlockFirstFile backend files key entry) ∨
        (∃ entry, LegacyFile backend files key entry) ∧ LegacyPuts key first ∧ LegacyPuts key second)

/-! ### The property -/

/-- Two runs end with the same entries and the same counter. -/
def SameEnd (first second : List (StartupEvent Key F)) : Prop :=
  (∀ key, (backend.startup first).index.find key = (backend.startup second).index.find key) ∧
    (backend.startup first).index.currentCacheSize =
      (backend.startup second).index.currentCacheSize

def HoldsBlockFirst (index : HotIndex Key (RawMetadata F)) (key : Key) : Prop :=
  ∃ entry, index.find key = some entry ∧ entry.diskMetadata.isSome = true

/-- A key that has a block-first entry keeps one, until an eviction or a removal pops it. -/
def BlockFirstStays (events : List (StartupEvent Key F)) : Prop :=
  ∀ before between after, events = before ++ (between ++ after) → ∀ key,
    .put key .pop ∉ between → HoldsBlockFirst (backend.startup before).index key →
      HoldsBlockFirst (backend.startup (before ++ between)).index key

/-- **The claim for a backend.** For all files and puts, and all orders of the visits
among them, block-first entries stay and the order does not matter. -/
def StartupOrdered : Prop :=
  ∀ files first second, (visitsOf first).Perm files → (visitsOf second).Perm files →
    (∀ key, regionsOn key first = regionsOn key second) →
      BlockFirstStays backend first ∧ SameEnd backend first second

end Runs

/-- The condition on an action, as a guard of the accounts: a visit is of a file. -/
def guard (backend : ScanBackend Key F) (files : List Visit) (key : Key) :
    KeyAction (RawMetadata F) → Option (FileEntry (RawMetadata F)) → Prop
  | .put region, value => Allows backend files key region value
  | .blockFirst entry, _ => BlockFirstFile backend files key entry
  | .legacy entry, _ => LegacyFile backend files key entry

section Guarantee

variable [DecidableEq Key] {backend : ScanBackend Key F} {files : List Visit}

/-! ### Stopped threads do not matter -/

/-- A thread has stopped at a file of the scan. -/
def StoppedBy (backend : ScanBackend Key F) (files : List Visit) (state : ScanState Key F) : Prop :=
  ∀ dir ∈ state.stopped, ∃ visit ∈ files, backend.finding visit = .stops ∧ visit.l1Dir = dir

/-- Where a thread has stopped, the file that it would come to next acts on no key. -/
theorem startupStep_index (apart : FilesApart backend files) {state : ScanState Key F}
    (stoppedBy : StoppedBy backend files state) {event : StartupEvent Key F}
    (inFiles : ∀ visit, event = .visit visit → visit ∈ files) :
    (backend.startupStep state event).index = backend.indexStep state.index event ∧
      StoppedBy backend files (backend.startupStep state event) := by
  cases event with
  | put key region => exact ⟨rfl, stoppedBy⟩
  | visit visit =>
      have member := inFiles visit rfl
      by_cases stopped : visit.l1Dir ∈ state.stopped
      · have stays : backend.scanVisit state visit = state := if_pos stopped
        obtain ⟨other, there, stops, same⟩ := stoppedBy _ stopped
        have idle := apart.alone other there stops visit member same.symm
        simp only [ScanBackend.startupStep, stays]
        exact ⟨(ScanBackend.indexStep_idle state.index idle).symm, stoppedBy⟩
      · have visited : (backend.scanVisit state visit).index =
              (backend.finding visit).index (visit.l1Dir ++ visit.l2Dir) state.index ∧ _ :=
          ScanBackend.scanVisit_finding stopped
        obtain ⟨index, goesOn | ⟨stops, next⟩⟩ := visited
        · refine ⟨index, fun dir here => stoppedBy dir ?_⟩
          rwa [ScanBackend.startupStep, goesOn] at here
        · refine ⟨index, fun dir here => ?_⟩
          rw [ScanBackend.startupStep, next] at here
          rcases List.mem_cons.mp here with rfl | before
          · exact ⟨visit, member, stops, rfl⟩
          · exact stoppedBy dir before

/-- A run of the backend is a run of the accounts, and a careful one where it meets the
condition. -/
theorem KeepsOrderFrom.careful (apart : FilesApart backend files)
    {events : List (StartupEvent Key F)} (inFiles : ∀ visit ∈ visitsOf events, visit ∈ files)
    {state : ScanState Key F} (stoppedBy : StoppedBy backend files state)
    (keeps : KeepsOrderFrom backend files events state) :
    (events.foldl backend.startupStep state).index =
        events.foldl backend.accounts.step state.index ∧
      backend.accounts.Careful (guard backend files) events state.index := by
  induction events generalizing state with
  | nil => exact ⟨rfl, trivial⟩
  | cons event events ih =>
      have first : ∀ visit, event = .visit visit → visit ∈ files := by
        rintro visit rfl
        exact inFiles visit List.mem_cons_self
      have rest : ∀ visit ∈ visitsOf events, visit ∈ files := by
        intro visit member
        obtain ⟨other, there, same⟩ := List.mem_filterMap.mp member
        exact inFiles visit (List.mem_filterMap.mpr ⟨other, List.mem_cons_of_mem event there, same⟩)
      obtain ⟨index, further⟩ := startupStep_index apart stoppedBy first
      obtain ⟨run, careful⟩ := ih rest further keeps.2
      rw [index] at run careful
      refine ⟨run, ?_, careful⟩
      intro key action acted
      cases event with
      | visit visit =>
          rcases acts_visit.mp acted with ⟨entry, found, rfl⟩ | ⟨entry, found, rfl⟩
          · exact ⟨visit, first visit rfl, found⟩
          · exact ⟨visit, first visit rfl, found⟩
      | put changed region =>
          cases acted
          exact keeps.1

end Guarantee

/-! ### One key -/

section OneKey

variable {backend : ScanBackend Key F} {files : List Visit}

/-- The entry that an action brings. -/
def KeyAction.entry {M : Type} : KeyAction M → Option (FileEntry M)
  | .blockFirst entry | .legacy entry => some entry
  | .put region => region.entry

def KeyAction.opens {M : Type} : KeyAction M → ℤ
  | .blockFirst _ | .legacy _ => 0
  | .put region => region.opens

/-- **The invariant of a key that the files describe.** Its entry is that of the
block-first file once this one was visited. Where the files have none, it is the
block-first entry that a put has brought, or else that of the sidecar. The counter holds
the size of the entry and what is reserved. -/
structure Placed (backend : ScanBackend Key F) (files : List Visit) (key : Key)
    (done : List (KeyAction (RawMetadata F))) (value : Option (FileEntry (RawMetadata F)))
    (paid : ℤ) : Prop where
  ofFiles : ∀ action ∈ done, ∀ entry,
    (action = .blockFirst entry → BlockFirstFile backend files key entry) ∧
      (action = .legacy entry → LegacyFile backend files key entry)
  vacant : value = none → ∀ action ∈ done, action.entry = none
  origin : ∀ entry, value = some entry → ∃ action ∈ done, action.entry = some entry
  blockFirst : ∀ entry, .blockFirst entry ∈ done → value = some entry
  published : (∀ other, ¬ BlockFirstFile backend files key other) → ∀ region entry,
    .put region ∈ done → region.entry = some entry → entry.diskMetadata.isSome = true →
      value = some entry
  legacy : (∀ other, ¬ BlockFirstFile backend files key other) →
    (∀ region entry, .put region ∈ done → region.entry = some entry →
      entry.diskMetadata = none) → ∀ entry, .legacy entry ∈ done → value = some entry
  paid : paid = sizeOfEntry value + (done.map KeyAction.opens).sum

section Placed

variable {key : Key} {done : List (KeyAction (RawMetadata F))}
  {value : Option (FileEntry (RawMetadata F))} {paid : ℤ}

theorem sum_opens_concat (action : KeyAction (RawMetadata F)) :
    ((done ++ [action]).map KeyAction.opens).sum = (done.map KeyAction.opens).sum + action.opens := by
  rw [List.map_append, List.sum_append, List.map_singleton, List.sum_singleton]

/-- A visit among the actions is of a file of the key when the others are. -/
theorem Placed.ofFiles_concat (placed : Placed backend files key done value paid)
    {action : KeyAction (RawMetadata F)} (allowed : guard backend files key action value) :
    ∀ other ∈ done ++ [action], ∀ entry,
      (other = .blockFirst entry → BlockFirstFile backend files key entry) ∧
        (other = .legacy entry → LegacyFile backend files key entry) := by
  intro other member entry
  rcases List.mem_append.mp member with before | here
  · exact placed.ofFiles other before entry
  · obtain rfl := List.mem_singleton.mp here
    constructor
    · rintro rfl
      exact allowed
    · rintro rfl
      exact allowed

/-- An action that brings no entry and leaves the one that is there. -/
theorem Placed.keep (placed : Placed backend files key done value paid)
    {region : PutRegion (RawMetadata F)}
    (allowed : guard backend files key (.put region) value) (brings : region.entry = none) :
    Placed backend files key (done ++ [.put region]) value (paid + region.opens) where
  ofFiles := placed.ofFiles_concat allowed
  vacant := by
    intro absent action member
    rcases List.mem_append.mp member with before | here
    · exact placed.vacant absent action before
    · rw [List.mem_singleton.mp here]
      exact brings
  origin := by
    intro entry present
    obtain ⟨action, member, same⟩ := placed.origin entry present
    exact ⟨action, List.mem_append_left _ member, same⟩
  blockFirst := by
    intro entry member
    apply placed.blockFirst entry
    simpa using member
  published := by
    intro without other entry member same layout
    rcases List.mem_append.mp member with before | here
    · exact placed.published without other entry before same layout
    · cases List.mem_singleton.mp here
      rw [brings] at same
      cases same
  legacy := by
    intro without plain entry member
    apply placed.legacy without fun other entry before =>
      plain other entry (List.mem_append_left _ before)
    simpa using member
  paid := by
    rw [placed.paid, sum_opens_concat, KeyAction.opens]
    ring

/-- A put brings the first entry of the key. -/
theorem Placed.bring (placed : Placed backend files key done none paid)
    {region : PutRegion (RawMetadata F)}
    (allowed : guard backend files key (.put region) none) {entry : FileEntry (RawMetadata F)}
    (brings : region.entry = some entry) (takesUp : region.opens = -entry.size) :
    Placed backend files key (done ++ [.put region]) (some entry) paid where
  ofFiles := placed.ofFiles_concat allowed
  vacant := nofun
  origin := by
    intro other same
    cases same
    exact ⟨.put region, by simp, brings⟩
  blockFirst := by
    intro other member
    have before : .blockFirst other ∈ done := by simpa using member
    cases placed.blockFirst other before
  published := by
    intro _ other found member same _
    rcases List.mem_append.mp member with before | here
    · have nothing := placed.vacant rfl _ before
      rw [KeyAction.entry, same] at nothing
      cases nothing
    · cases List.mem_singleton.mp here
      rw [← same, brings]
  legacy := by
    intro _ _ other member
    have before : .legacy other ∈ done := by simpa using member
    cases placed.vacant rfl _ before
  paid := by
    rw [placed.paid, sum_opens_concat, KeyAction.opens, takesUp]
    simp only [sizeOfEntry, Option.map_none, Option.map_some, Option.getD_none, Option.getD_some]
    ring

/-- The block-first file of the key is visited. -/
theorem Placed.visitBlockFirst (placed : Placed backend files key done value paid)
    (apart : FilesApart backend files) {entry : FileEntry (RawMetadata F)}
    (present : BlockFirstFile backend files key entry) :
    Placed backend files key (done ++ [.blockFirst entry]) (some entry)
      (paid + (entry.size - sizeOfEntry value)) where
  ofFiles := placed.ofFiles_concat present
  vacant := nofun
  origin := fun _ same => ⟨.blockFirst entry, by simp, same⟩
  blockFirst := by
    intro other member
    have allowed : guard backend files key (.blockFirst entry) value := present
    have there := (placed.ofFiles_concat allowed _ member other).1 rfl
    exact congrArg some (apart.oneBlockFirst key _ _ present there)
  published := fun without => absurd present (without entry)
  legacy := fun without => absurd present (without entry)
  paid := by
    rw [placed.paid, sum_opens_concat, KeyAction.opens]
    simp only [sizeOfEntry, Option.map_some, Option.getD_some]
    ring

/-- A sidecar of the key is visited where a block-first entry is. -/
theorem Placed.passSidecar (placed : Placed backend files key done value paid)
    {entry previous : FileEntry (RawMetadata F)} (found : value = some previous)
    (layout : previous.diskMetadata.isSome = true)
    (present : LegacyFile backend files key entry) :
    Placed backend files key (done ++ [.legacy entry]) value (paid + 0) where
  ofFiles := placed.ofFiles_concat present
  vacant := by
    rw [found]
    nofun
  origin := by
    intro other here
    obtain ⟨action, member, same⟩ := placed.origin other here
    exact ⟨action, List.mem_append_left _ member, same⟩
  blockFirst := by
    intro other member
    apply placed.blockFirst other
    simpa using member
  published := by
    intro without region other member
    apply placed.published without region other
    simpa using member
  legacy := by
    -- The entry that is there was brought by a block-first file or by a put.
    intro without plain
    obtain ⟨action, member, same⟩ := placed.origin previous found
    have ofFile := placed.ofFiles action member previous
    cases action with
    | blockFirst other =>
        cases same
        exact absurd (ofFile.1 rfl) (without previous)
    | legacy other =>
        cases same
        rw [(ofFile.2 rfl).eq_none] at layout
        cases layout
    | put region =>
        rw [plain region previous (List.mem_append_left _ member) same] at layout
        cases layout
  paid := by
    rw [placed.paid, sum_opens_concat, KeyAction.opens]
    ring

/-- A sidecar of the key is visited where no block-first entry is. -/
theorem Placed.visitSidecar (placed : Placed backend files key done value paid)
    (apart : FilesApart backend files) {entry : FileEntry (RawMetadata F)}
    (other : ∀ previous, value = some previous → previous.diskMetadata = none)
    (present : LegacyFile backend files key entry) :
    Placed backend files key (done ++ [.legacy entry]) (some entry)
      (paid + (entry.size - sizeOfEntry value)) where
  ofFiles := placed.ofFiles_concat present
  vacant := nofun
  origin := fun _ same => ⟨.legacy entry, by simp, same⟩
  blockFirst := by
    intro found member
    have before : .blockFirst found ∈ done := by simpa using member
    have layout := ((placed.ofFiles _ before found).1 rfl).isSome
    rw [other found (placed.blockFirst found before)] at layout
    cases layout
  published := by
    intro without region found member same layout
    have before : .put region ∈ done := by simpa using member
    rw [other found (placed.published without region found before same layout)] at layout
    cases layout
  legacy := by
    intro without _ found member
    have allowed : guard backend files key (.legacy entry) value := present
    have there := (placed.ofFiles_concat allowed _ member found).2 rfl
    exact congrArg some (apart.oneLegacy key _ _ present there without)
  paid := by
    rw [placed.paid, sum_opens_concat, KeyAction.opens]
    simp only [sizeOfEntry, Option.map_some, Option.getD_some]
    ring

/-- An action that meets the condition keeps the invariant. -/
theorem Placed.step (placed : Placed backend files key done value paid)
    (apart : FilesApart backend files) (described : Described backend files key)
    {action : KeyAction (RawMetadata F)} (allowed : guard backend files key action value) :
    Placed backend files key (done ++ [action]) (action.effect value).1
      (paid + (action.effect value).2) := by
  cases action with
  | blockFirst entry => exact placed.visitBlockFirst apart allowed
  | legacy entry =>
      cases value with
      | none => exact placed.visitSidecar apart (nofun) allowed
      | some previous =>
          by_cases layout : previous.diskMetadata.isSome = true
          · have effect : (KeyAction.legacy entry).effect (some previous) = (some previous, 0) :=
              if_pos layout
            rw [effect]
            exact placed.passSidecar rfl layout allowed
          · have effect : (KeyAction.legacy entry).effect (some previous) =
                (some entry, entry.size - sizeOfEntry (some previous)) := if_neg layout
            rw [effect]
            apply placed.visitSidecar apart _ allowed
            intro other found
            cases found
            simpa using layout
  | put region =>
      cases region with
      | reserve size | rollback size => exact placed.keep allowed rfl
      | pop =>
          obtain rfl : value = none := allowed described
          exact placed.keep allowed rfl
      | undo size =>
          obtain rfl : value = none := allowed.1 described
          exact placed.keep allowed rfl
      | insertKey entry | insertDirectKey entry =>
          obtain rfl : value = none := allowed described
          simp only [KeyAction.effect, Option.getD_none, add_zero]
          exact placed.bring allowed rfl rfl

variable (backend files key) in
theorem placed_nil : Placed backend files key [] none 0 where
  ofFiles := fun _ member => nomatch member
  vacant := fun _ _ member => nomatch member
  origin := nofun
  blockFirst := fun _ member => nomatch member
  published := fun _ _ _ member => nomatch member
  legacy := fun _ _ _ member => nomatch member
  paid := rfl

/-- The actions of a run on a key that the files describe. -/
theorem placed_of_heeds (apart : FilesApart backend files)
    (described : Described backend files key) {actions : List (KeyAction (RawMetadata F))}
    (heeds : Heeds KeyAction.effect (guard backend files key) actions none) :
    Placed backend files key actions (outcome KeyAction.effect actions none).1
      (outcome KeyAction.effect actions none).2 :=
  heeds.outcome_induction (placed_nil backend files key)
    fun _ _ _ _ placed allowed => placed.step apart described allowed

end Placed

end OneKey

/-! ### Two runs -/

section TwoRuns

variable [DecidableEq Key] {backend : ScanBackend Key F} {files : List Visit} {key : Key}
  {events : List (StartupEvent Key F)}

omit [DecidableEq Key] in
theorem mem_visitsOf {visit : Visit} : visit ∈ visitsOf events ↔ .visit visit ∈ events := by
  unfold visitsOf
  rw [List.mem_filterMap]
  constructor
  · rintro ⟨event, member, same⟩
    cases event with
    | visit other =>
        cases same
        exact member
    | put => cases same
  · exact fun member => ⟨_, member, rfl⟩

theorem mem_regionsOn {region : PutRegion (RawMetadata F)} :
    region ∈ regionsOn key events ↔ .put key region ∈ events := by
  unfold regionsOn
  rw [List.mem_filterMap]
  constructor
  · rintro ⟨event, member, same⟩
    cases event with
    | visit other => cases same
    | put changed other =>
        dsimp only at same
        split at same
        · rename_i here
          cases same
          rwa [here] at member
        · cases same
  · exact fun member => ⟨_, member, if_pos rfl⟩

/-- The actions of a run that visits the files. -/
theorem mem_actionsOn_startup (visits : (visitsOf events).Perm files)
    {action : KeyAction (RawMetadata F)} :
    action ∈ backend.accounts.actionsOn key events ↔
      (∃ entry, BlockFirstFile backend files key entry ∧ action = .blockFirst entry) ∨
      (∃ entry, LegacyFile backend files key entry ∧ action = .legacy entry) ∨
        ∃ region ∈ regionsOn key events, action = .put region := by
  rw [Accounts.mem_actionsOn]
  simp only [BlockFirstFile, LegacyFile, ← visits.mem_iff, mem_visitsOf, mem_regionsOn]
  constructor
  · rintro ⟨event, member, acted⟩
    cases event with
    | visit visit =>
        rcases acts_visit.mp acted with ⟨entry, found, same⟩ | ⟨entry, found, same⟩
        · exact .inl ⟨entry, ⟨visit, member, found⟩, same⟩
        · exact .inr (.inl ⟨entry, ⟨visit, member, found⟩, same⟩)
    | put changed region =>
        cases acted
        exact .inr (.inr ⟨region, member, rfl⟩)
  · rintro (⟨entry, ⟨visit, member, found⟩, rfl⟩ | ⟨entry, ⟨visit, member, found⟩, rfl⟩ |
      ⟨region, member, rfl⟩)
    · exact ⟨.visit visit, member, acts_visit.mpr (.inl ⟨entry, found, rfl⟩)⟩
    · exact ⟨.visit visit, member, acts_visit.mpr (.inr ⟨entry, found, rfl⟩)⟩
    · exact ⟨.put key region, member, rfl⟩

/-- What the actions on a key open is what its puts open. -/
theorem sum_opens_actionsOn (backend : ScanBackend Key F) (key : Key)
    (events : List (StartupEvent Key F)) :
    ((backend.accounts.actionsOn key events).map KeyAction.opens).sum = unsettled key events := by
  unfold unsettled
  induction events with
  | nil => rfl
  | cons event events ih =>
      cases event with
      | visit visit =>
          have puts : regionsOn key (.visit visit :: events) = regionsOn key events := rfl
          rw [puts, ← ih]
          cases acts : backend.acts (.visit visit) with
          | none => rw [Accounts.actionsOn_cons_idle acts]
          | some act =>
              obtain ⟨changed, action⟩ := act
              by_cases same : key = changed
              · subst same
                rw [Accounts.actionsOn_cons_acted acts, List.map_cons, List.sum_cons]
                rcases acts_visit.mp acts with ⟨entry, -, rfl⟩ | ⟨entry, -, rfl⟩ <;>
                  exact zero_add _
              · rw [Accounts.actionsOn_cons_other acts same]
      | put changed region =>
          have acts : backend.acts (.put changed region) = some (changed, .put region) := rfl
          by_cases same : key = changed
          · subst same
            have puts : regionsOn key (.put key region :: events) =
                region :: regionsOn key events := by simp [regionsOn]
            rw [Accounts.actionsOn_cons_acted acts, puts, List.map_cons, List.map_cons,
              List.sum_cons, List.sum_cons, ih]
            rfl
          · have puts : regionsOn key (.put changed region :: events) = regionsOn key events := by
              simp [regionsOn, Ne.symm same]
            rw [Accounts.actionsOn_cons_other acts same, puts, ih]

/-- Only puts act on a key that no file describes. -/
theorem actionsOn_undescribed (unknown : ¬ Described backend files key)
    (inFiles : ∀ visit ∈ visitsOf events, visit ∈ files) :
    backend.accounts.actionsOn key events = (regionsOn key events).map .put := by
  induction events with
  | nil => rfl
  | cons event events ih =>
      have rest := ih fun visit member => inFiles visit
        (mem_visitsOf.mpr (List.mem_cons_of_mem event (mem_visitsOf.mp member)))
      cases event with
      | visit visit =>
          have puts : regionsOn key (.visit visit :: events) = regionsOn key events := rfl
          have file := inFiles visit (mem_visitsOf.mpr List.mem_cons_self)
          rw [puts, ← rest]
          cases acts : backend.acts (.visit visit) with
          | none => exact Accounts.actionsOn_cons_idle acts key events
          | some act =>
              obtain ⟨changed, action⟩ := act
              apply Accounts.actionsOn_cons_other acts
              rintro rfl
              rcases acts_visit.mp acts with ⟨entry, found, -⟩ | ⟨entry, found, -⟩
              · exact unknown ⟨entry, .inl ⟨visit, file, found⟩⟩
              · exact unknown ⟨entry, .inr ⟨visit, file, found⟩⟩
      | put changed region =>
          have acts : backend.acts (.put changed region) = some (changed, .put region) := rfl
          by_cases same : key = changed
          · subst same
            have puts : regionsOn key (.put key region :: events) =
                region :: regionsOn key events := by simp [regionsOn]
            rw [Accounts.actionsOn_cons_acted acts, puts, rest, List.map_cons]
          · have puts : regionsOn key (.put changed region :: events) = regionsOn key events := by
              simp [regionsOn, Ne.symm same]
            rw [Accounts.actionsOn_cons_other acts same, puts, rest]

theorem CarefulStartup.inFiles (careful : CarefulStartup backend files events) :
    ∀ visit ∈ visitsOf events, visit ∈ files :=
  fun _ member => careful.visits.mem_iff.mp member

theorem CarefulStartup.run (careful : CarefulStartup backend files events)
    (apart : FilesApart backend files) :
    (backend.startup events).index = events.foldl backend.accounts.step .empty ∧
      backend.accounts.Careful (guard backend files) events .empty :=
  careful.keeps.careful apart careful.inFiles (fun _ member => nomatch member)

/-- The invariant of a described key at the end of a careful run. -/
theorem CarefulStartup.placed (careful : CarefulStartup backend files events)
    (apart : FilesApart backend files) (described : Described backend files key) :
    Placed backend files key (backend.accounts.actionsOn key events)
      (outcome KeyAction.effect (backend.accounts.actionsOn key events) none).1
      (outcome KeyAction.effect (backend.accounts.actionsOn key events) none).2 :=
  placed_of_heeds apart described ((careful.run apart).2.heeds key)

theorem put_mem_actionsOn (visits : (visitsOf events).Perm files)
    {region : PutRegion (RawMetadata F)} :
    .put region ∈ backend.accounts.actionsOn key events ↔ region ∈ regionsOn key events := by
  rw [mem_actionsOn_startup visits]
  simp

/-- A key with a block-first file has the entry of that file. -/
theorem CarefulStartup.value_blockFirst (careful : CarefulStartup backend files events)
    (apart : FilesApart backend files) {entry : FileEntry (RawMetadata F)}
    (present : BlockFirstFile backend files key entry) :
    (outcome KeyAction.effect (backend.accounts.actionsOn key events) none).1 = some entry :=
  (careful.placed apart ⟨entry, .inl present⟩).blockFirst entry
    ((mem_actionsOn_startup careful.visits).mpr (.inl ⟨entry, present, rfl⟩))

/-- A key with a sidecar alone has the entry of the sidecar, when its puts are of the
same layout. -/
theorem CarefulStartup.value_legacy (careful : CarefulStartup backend files events)
    (apart : FilesApart backend files) {entry : FileEntry (RawMetadata F)}
    (present : LegacyFile backend files key entry)
    (without : ∀ other, ¬ BlockFirstFile backend files key other)
    (plain : LegacyPuts key events) :
    (outcome KeyAction.effect (backend.accounts.actionsOn key events) none).1 = some entry :=
  (careful.placed apart ⟨entry, .inr present⟩).legacy without
    (fun region other member => plain region ((put_mem_actionsOn careful.visits).mp member) other)
    entry ((mem_actionsOn_startup careful.visits).mpr (.inr (.inl ⟨entry, present, rfl⟩)))

section Same

variable {first second : List (StartupEvent Key F)}

/-- A key that the files describe has the same entry in both runs. -/
theorem value_same (apart : FilesApart backend files)
    (one : CarefulStartup backend files first) (two : CarefulStartup backend files second)
    (puts : SamePuts backend files first second) (described : Described backend files key) :
    (outcome KeyAction.effect (backend.accounts.actionsOn key first) none).1 =
      (outcome KeyAction.effect (backend.accounts.actionsOn key second) none).1 := by
  by_cases file : ∃ entry, BlockFirstFile backend files key entry
  · obtain ⟨entry, present⟩ := file
    rw [one.value_blockFirst apart present, two.value_blockFirst apart present]
  · have without : ∀ entry, ¬ BlockFirstFile backend files key entry := not_exists.mp file
    obtain ⟨entry, layout⟩ := described
    have sidecar := layout.resolve_left (without entry)
    have ofLegacy (plain : LegacyPuts key first) (plain' : LegacyPuts key second) :
        (outcome KeyAction.effect (backend.accounts.actionsOn key first) none).1 =
          (outcome KeyAction.effect (backend.accounts.actionsOn key second) none).1 := by
      rw [one.value_legacy apart sidecar without plain, two.value_legacy apart sidecar without plain']
    rcases puts key with same | ⟨-, blockFirst | ⟨-, plain, plain'⟩⟩
    · by_cases plain : LegacyPuts key first
      · exact ofLegacy plain (by rwa [LegacyPuts, ← same])
      · unfold LegacyPuts at plain
        push Not at plain
        obtain ⟨region, member, other, brings, layout⟩ := plain
        have isSome := Option.isSome_iff_ne_none.mpr layout
        have described : Described backend files key := ⟨entry, .inr sidecar⟩
        rw [(one.placed apart described).published without region other
            ((put_mem_actionsOn one.visits).mpr member) brings isSome,
          (two.placed apart described).published without region other
            ((put_mem_actionsOn two.visits).mpr (same ▸ member)) brings isSome]
    · exact absurd blockFirst file
    · exact ofLegacy plain plain'

/-- **One key in two runs.** A careful run makes the same of it, and it contributes the
same to the counter. -/
theorem outcome_same (apart : FilesApart backend files)
    (one : CarefulStartup backend files first) (two : CarefulStartup backend files second)
    (puts : SamePuts backend files first second) (key : Key) :
    outcome KeyAction.effect (backend.accounts.actionsOn key first) none =
      outcome KeyAction.effect (backend.accounts.actionsOn key second) none := by
  by_cases described : Described backend files key
  · have settled : unsettled key first = unsettled key second := by
      rcases puts key with same | ⟨⟨closed, closed'⟩, -⟩
      · rw [unsettled, same, unsettled]
      · rw [closed, closed']
    have value := value_same apart one two puts described
    apply Prod.ext value
    rw [(one.placed apart described).paid, (two.placed apart described).paid, value,
      sum_opens_actionsOn, sum_opens_actionsOn, settled]
  · have same : regionsOn key first = regionsOn key second := by
      rcases puts key with same | ⟨-, ⟨entry, present⟩ | ⟨⟨entry, present⟩, -⟩⟩
      · exact same
      · exact absurd ⟨entry, .inl present⟩ described
      · exact absurd ⟨entry, .inr present⟩ described
    rw [actionsOn_undescribed described one.inFiles, actionsOn_undescribed described two.inFiles,
      same]

/-- Two careful runs with the same files and puts end in the same way. -/
theorem sameEnd_of_careful (apart : FilesApart backend files)
    (one : CarefulStartup backend files first) (two : CarefulStartup backend files second)
    (puts : SamePuts backend files first second) : SameEnd backend first second := by
  have keys := outcome_same apart one two puts
  let acted := ((first ++ second).filterMap fun event =>
    (backend.acts event).map Prod.fst).toFinset
  have covered : ∀ event ∈ first ++ second, ∀ key action,
      backend.acts event = some (key, action) → key ∈ acted := by
    intro event member key action acts
    apply List.mem_toFinset.mpr
    apply List.mem_filterMap.mpr
    exact ⟨event, member, by rw [acts]; rfl⟩
  have oneCovered := fun event member => covered event (List.mem_append_left second member)
  have twoCovered := fun event member => covered event (List.mem_append_right first member)
  rw [SameEnd, (one.run apart).1, (two.run apart).1]
  constructor
  · intro key
    calc (first.foldl backend.accounts.step .empty).find key
        = (outcome KeyAction.effect (backend.accounts.actionsOn key first) none).1 :=
          backend.accounts.value_run key first .empty
      _ = (outcome KeyAction.effect (backend.accounts.actionsOn key second) none).1 :=
          congrArg Prod.fst (keys key)
      _ = (second.foldl backend.accounts.step .empty).find key :=
          (backend.accounts.value_run key second .empty).symm
  · calc (first.foldl backend.accounts.step .empty).currentCacheSize
        = 0 + ∑ key ∈ acted,
            (outcome KeyAction.effect (backend.accounts.actionsOn key first) none).2 :=
          backend.accounts.balance_run acted first .empty oneCovered
      _ = 0 + ∑ key ∈ acted,
            (outcome KeyAction.effect (backend.accounts.actionsOn key second) none).2 := by
          simp only [keys]
      _ = (second.foldl backend.accounts.step .empty).currentCacheSize :=
          (backend.accounts.balance_run acted second .empty twoCovered).symm

end Same

/-! ### Block-first entries stay -/

/-- One step, from any state. -/
theorem holdsBlockFirst_step {state : ScanState Key F} {event : StartupEvent Key F}
    (keeps : KeepsOrder backend files state event) (unpopped : event ≠ .put key .pop)
    (holds : HoldsBlockFirst state.index key) :
    HoldsBlockFirst (backend.startupStep state event).index key := by
  obtain ⟨entry, found, layout⟩ := holds
  cases event with
  | visit visit =>
      by_cases stopped : visit.l1Dir ∈ state.stopped
      · have stays : backend.startupStep state (.visit visit) = state := if_pos stopped
        rw [stays]
        exact ⟨entry, found, layout⟩
      · have index : (backend.startupStep state (.visit visit)).index =
            backend.indexStep state.index (.visit visit) :=
          (ScanBackend.scanVisit_finding stopped).1
        rw [index]
        cases acts : backend.acts (.visit visit) with
        | none =>
            rw [ScanBackend.indexStep_idle state.index acts]
            exact ⟨entry, found, layout⟩
        | some act =>
            obtain ⟨changed, action⟩ := act
            obtain ⟨acted, others, -⟩ := ScanBackend.indexStep_acted state.index acts
            by_cases same : key = changed
            · subst same
              rcases acts_visit.mp acts with ⟨other, finding, rfl⟩ | ⟨other, finding, rfl⟩
              · have layouts := finding_layouts backend visit
                rw [finding] at layouts
                exact ⟨other, acted, layouts⟩
              · refine ⟨entry, acted.trans ?_, layout⟩
                rw [found]
                exact congrArg Prod.fst (if_pos layout)
            · exact ⟨entry, (others key same).trans found, layout⟩
  | put changed region =>
      have acts : backend.acts (.put changed region) = some (changed, .put region) := rfl
      obtain ⟨acted, others, -⟩ := ScanBackend.indexStep_acted state.index acts
      by_cases same : key = changed
      · subst same
        rw [found] at acted
        cases region with
        | reserve size | rollback size | insertKey brought => exact ⟨entry, acted, layout⟩
        | pop => exact absurd rfl unpopped
        | insertDirectKey brought direct => exact ⟨brought, acted, direct⟩
        | undo size =>
            rw [keeps.2 entry found] at layout
            cases layout
      · exact ⟨entry, (others key same).trans found, layout⟩

theorem KeepsOrderFrom.append {before after : List (StartupEvent Key F)} {state : ScanState Key F}
    (keeps : KeepsOrderFrom backend files (before ++ after) state) :
    KeepsOrderFrom backend files after (before.foldl backend.startupStep state) := by
  induction before generalizing state with
  | nil => exact keeps
  | cons event before ih => exact ih keeps.2

/-- A whole run, from any state. -/
theorem holdsBlockFirst_run {between after : List (StartupEvent Key F)} {state : ScanState Key F}
    (keeps : KeepsOrderFrom backend files (between ++ after) state)
    (unpopped : .put key .pop ∉ between) (holds : HoldsBlockFirst state.index key) :
    HoldsBlockFirst (between.foldl backend.startupStep state).index key := by
  induction between generalizing state with
  | nil => exact holds
  | cons event between ih =>
      have here : event ≠ .put key .pop := fun same => unpopped (same ▸ List.mem_cons_self)
      exact ih keeps.2 (fun member => unpopped (List.mem_cons_of_mem event member))
        (holdsBlockFirst_step keeps.1 here holds)

theorem blockFirstStays_of_keeps
    (keeps : KeepsOrderFrom backend files events ScanBackend.ScanState.start) :
    BlockFirstStays backend events := by
  rintro before between after rfl key unpopped holds
  rw [ScanBackend.startup, List.foldl_append]
  exact holdsBlockFirst_run keeps.append unpopped holds

end TwoRuns

/-! ### The files of completed puts -/

section Restarted

variable {backend : ScanBackend Key F}

/-- What the reader of its layout finds in the file of a put. -/
def Put.reading (put : Put backend) (key : Key) : Finding Key (RawMetadata F) :=
  match put with
  | .legacy put => .ofRead .legacy key (sidecarEntry backend.sidecar backend.xdsBuffer
      (backend.visitPath (Put.legacy put).file) (Put.legacy put).file.content)
  | .blockFirst put => .ofRead .blockFirst key (backend.blockFirstEntry
      (backend.visitPath (Put.blockFirst put).file) (Put.blockFirst put).file.content)

/-- The finding of a file with the suffix of a put, by its key. -/
theorem Put.finding_eq {put : Put backend}
    (named : put.file.l1Dir.length = dirSize ∧ put.file.l2Dir.length = dirSize) :
    backend.finding put.file =
      (backend.ownKey put.suffix put.file.name).elim .nothing put.reading := by
  rw [ScanBackend.finding, if_pos named, put.classify_file]
  cases put with
  | legacy put =>
      simp only [Put.isBlockFirst, Bool.false_eq_true, if_false, Put.suffix]
      cases backend.ownKey (dataFileSuffix ++ metadataFileSuffix) (Put.legacy put).file.name <;> rfl
  | blockFirst put =>
      simp only [Put.isBlockFirst, if_true, put.enabled, Put.suffix]
      cases backend.ownKey blockFirstDataFileSuffix (Put.blockFirst put).file.name <;> rfl

/-- What the file of a put says of itself. -/
theorem Put.finding_file (put : Put backend) :
    (put.Reached ∧ backend.finding put.file =
        if put.isBlockFirst then .blockFirst put.key put.entry else .legacy put.key put.entry) ∨
      backend.finding put.file = .nothing := by
  by_cases named : put.file.l1Dir.length = dirSize ∧ put.file.l2Dir.length = dirSize
  · rw [put.finding_eq named]
    by_cases own : put.Own
    · refine .inl ⟨⟨own, named⟩, ?_⟩
      rw [Put.ownKey_of_own own, Option.elim_some]
      cases put with
      | legacy put =>
          change Finding.ofRead .legacy _ _ = _
          rw [put.sidecarEntry_file]
          rfl
      | blockFirst put =>
          change Finding.ofRead .blockFirst _ _ = _
          rw [put.blockFirstEntry_file]
          rfl
    · rw [Put.ownKey_of_other own]
      exact .inr rfl
  · exact .inr (if_neg named)

/-- The files that completed puts have left meet the condition on the files. -/
theorem filesApart_of_restarted {puts : List (Put backend)} {files : List Visit}
    (restarted : Restarted backend puts files) : FilesApart backend files := by
  have known (visit : Visit) (member : visit ∈ files) : backend.finding visit = .nothing ∨
      ∃ put ∈ puts, backend.finding visit =
        if put.isBlockFirst then .blockFirst put.key put.entry else .legacy put.key put.entry := by
    rcases restarted.described visit member with ⟨put, there, rfl⟩ | ⟨notBlockFirst, notSidecar⟩
    · exact put.finding_file.symm.imp_right fun reached => ⟨put, there, reached.2⟩
    · refine .inl ?_
      unfold ScanBackend.finding
      split
      · cases sort : classify visit.name with
        | blockFirst => exact absurd sort notBlockFirst
        | sidecar => exact absurd sort notSidecar
        | temporary | data | foreign => rfl
      · rfl
  have ofLayout (blockFirst : Bool) {key : Key} {entry : FileEntry (RawMetadata F)} {visit : Visit}
      (member : visit ∈ files)
      (found : backend.finding visit = if blockFirst then .blockFirst key entry
        else .legacy key entry) :
      ∃ put ∈ puts, put.key = key ∧ put.isBlockFirst = blockFirst ∧ put.entry = entry := by
    rcases known visit member with nothing | ⟨put, there, tells⟩
    · rw [nothing] at found
      cases blockFirst <;> cases found
    · rw [tells] at found
      refine ⟨put, there, ?_⟩
      cases layout : put.isBlockFirst <;> rw [layout] at found <;> cases blockFirst <;>
        cases found <;> exact ⟨rfl, rfl, rfl⟩
  have one (blockFirst : Bool) {key : Key} {first second : FileEntry (RawMetadata F)}
      {visit other : Visit} (member : visit ∈ files) (there : other ∈ files)
      (found : backend.finding visit = if blockFirst then .blockFirst key first
        else .legacy key first)
      (found' : backend.finding other = if blockFirst then .blockFirst key second
        else .legacy key second) : first = second := by
    obtain ⟨put, here, key', layout, rfl⟩ := ofLayout blockFirst member found
    obtain ⟨put', here', rfl, layout', rfl⟩ := ofLayout blockFirst there found'
    rw [restarted.latest put here put' here' key' (layout.trans layout'.symm)]
  constructor
  · intro visit member stops
    rcases known visit member with nothing | ⟨put, -, tells⟩
    · rw [nothing] at stops
      cases stops
    · rw [tells] at stops
      split at stops <;> cases stops
  · rintro key first second ⟨visit, member, found⟩ ⟨other, there, found'⟩
    exact one true member there found found'
  · rintro key first second ⟨visit, member, found⟩ ⟨other, there, found'⟩ -
    exact one false member there found found'

end Restarted

/-! ### A small startup -/

section Small

/-- The sidecar of the small put. -/
abbrev smallFile : Visit := (Put.legacy (smallPut 0)).file

end Small

end LMCacheHcu.Restart
