import LMCacheHcu.Connector.Scheduler

/-! # The block table of a running request

Some scheduler paths report the blocks that a request newly got, others its whole
table again. The patched `RequestTracker.update` takes a report that begins with the
current table for the whole table. It compares and keeps the report as it comes, while
the original update flattens a nested list.
-/

namespace LMCacheHcu.Connector

variable {Token : Type}

/-- What a list of block ids holds: ids, or lists of ids. -/
abbrev BlockEntry := Nat ⊕ List Nat

/-- `_hcu_flatten_block_ids`. -/
def hcuFlattenBlockIds : Option BlockIds → Option (List BlockEntry)
  | none => none
  | some (.tuple []) => some []
  | some (.tuple (group :: _)) => some (group.map .inl)
  | some (.list elems) => some elems

/-- `_hcu_same_block_prefix`. -/
def hcuSameBlockPrefix (lhs rhs : Option (List BlockEntry)) : Bool :=
  match lhs, rhs with
  | some lhs, some rhs =>
      if rhs.length < lhs.length then false
      else (lhs.zip rhs).all fun pair => decide (pair.1 = pair.2)
  | _, _ => false

/-- A tracker with the `allocated_block_ids` that the guard leaves, which may hold lists. -/
structure GuardedTracker (Token : Type) where
  tracker : RequestTracker Token
  allocatedBlockIds : List BlockEntry
deriving DecidableEq, Repr

/-- `_hcu_update_with_block_table_guard`. -/
def RequestTracker.updateWithBlockTableGuard (tracker : RequestTracker Token)
    (newTokenIds : List Token) (newBlockIds : Option BlockIds) (preempted : Bool)
    (lmcacheCachedTokens vllmCachedTokens : Nat) (allTokenIds : Option (List Token)) :
    Except SchedulerError (GuardedTracker Token) := do
  let oldBlockIds := some (tracker.allocatedBlockIds.map .inl)
  let incomingBlockIds := hcuFlattenBlockIds newBlockIds
  let updated ← tracker.update newTokenIds newBlockIds preempted lmcacheCachedTokens
    vllmCachedTokens allTokenIds
  let kept : GuardedTracker Token := ⟨updated, updated.allocatedBlockIds.map .inl⟩
  if preempted then return kept
  match incomingBlockIds with
  | none => return kept
  | some incoming =>
      if hcuSameBlockPrefix oldBlockIds incomingBlockIds then
        return { kept with allocatedBlockIds := incoming }
      else return kept

/-! ### What a report means -/

/-- The blocks that the request newly got, or all its blocks. -/
inductive BlockReport
  | newlyAllocated
  | wholeTable
deriving DecidableEq, Repr

/-- The request's table after a report. A report of no blocks changes nothing. -/
def BlockReport.tableAfter (report : BlockReport) (blockTable : List Nat)
    (newBlockIds : Option BlockIds) : List Nat :=
  match report, BlockIds.ofUpdate newBlockIds with
  | _, [] => blockTable
  | .newlyAllocated, blocks => blockTable ++ blocks
  | .wholeTable, blocks => blocks

/-- No list is nested in the report. -/
def Unnested (newBlockIds : Option BlockIds) : Prop :=
  ∀ entries, hcuFlattenBlockIds newBlockIds = some entries → ∀ entry ∈ entries, entry.isLeft = true

/-- The guard tells the two meanings apart: a report of new blocks does not begin
with the current table, unless that is empty, and a whole table does begin with it;
and what the guard puts in place of the table is not nested. -/
def BlockReport.Recognised (report : BlockReport) (blockTable : List Nat)
    (newBlockIds : Option BlockIds) : Prop :=
  if blockTable = [] then Unnested newBlockIds
  else match report, BlockIds.ofUpdate newBlockIds with
    | _, [] => True
    | .newlyAllocated, _ =>
        ∀ entries, hcuFlattenBlockIds newBlockIds = some entries →
          ¬ blockTable.map .inl <+: entries
    | .wholeTable, blocks => Unnested newBlockIds ∧ blockTable <+: blocks

/-! ### What the guard leaves -/

theorem hcuSameBlockPrefix_iff {lhs rhs : List BlockEntry} :
    hcuSameBlockPrefix (some lhs) (some rhs) = true ↔ lhs <+: rhs := by
  induction lhs generalizing rhs with
  | nil => simp [hcuSameBlockPrefix]
  | cons left lhs ih =>
      cases rhs with
      | nil => simp [hcuSameBlockPrefix]
      | cons right rhs =>
          rw [List.cons_prefix_cons, ← ih]
          simp only [hcuSameBlockPrefix, List.length_cons, Nat.add_lt_add_iff_right,
            List.zip_cons_cons, List.all_cons, Bool.if_false_left, Bool.and_eq_true,
            decide_eq_true_eq]
          exact and_left_comm

/-- The ids in the report are the ones that the original update takes from it. -/
theorem ofUpdate_eq_flatMap (newBlockIds : Option BlockIds) :
    BlockIds.ofUpdate newBlockIds = ((hcuFlattenBlockIds newBlockIds).getD []).flatMap
      fun entry => entry.elim (fun block => [block]) id := by
  rcases newBlockIds with _ | ((_ | ⟨group, groups⟩) | elems)
  · rfl
  · rfl
  · change group = (group.map Sum.inl).flatMap _
    rw [List.flatMap_map]
    exact (List.flatMap_singleton' group).symm
  · rfl

theorem flatMap_map_inl (blocks : List Nat) :
    (blocks.map Sum.inl).flatMap (fun entry : BlockEntry => entry.elim (fun block => [block]) id) =
      blocks := by
  rw [List.flatMap_map]
  exact List.flatMap_singleton' blocks

theorem eq_map_inl_of_unnested {entries : List BlockEntry}
    (unnested : ∀ entry ∈ entries, entry.isLeft = true) :
    entries = (entries.flatMap fun entry => entry.elim (fun block => [block]) id).map .inl := by
  induction entries with
  | nil => rfl
  | cons entry entries ih =>
      obtain ⟨here, later⟩ := List.forall_mem_cons.mp unnested
      obtain ⟨block, rfl⟩ := Sum.isLeft_iff.mp here
      exact congrArg (Sum.inl block :: ·) (ih later)

section Update

variable (tracker : RequestTracker Token) (newTokenIds : List Token)
  (newBlockIds : Option BlockIds) (lmcacheCachedTokens vllmCachedTokens : Nat)
  (allTokenIds : Option (List Token))

/-- The table that an update of a request that keeps running leaves. -/
def guardedTable (blockTable : List Nat) (newBlockIds : Option BlockIds) : List BlockEntry :=
  match hcuFlattenBlockIds newBlockIds with
  | none => blockTable.map .inl
  | some entries =>
      if blockTable.map .inl <+: entries then entries
      else (blockTable ++ BlockIds.ofUpdate newBlockIds).map .inl

/-- **The guarded update.** -/
theorem updateWithBlockTableGuard_running :
    ∃ updated, tracker.update newTokenIds newBlockIds false lmcacheCachedTokens vllmCachedTokens
        allTokenIds = .ok updated ∧
      tracker.updateWithBlockTableGuard newTokenIds newBlockIds false lmcacheCachedTokens
        vllmCachedTokens allTokenIds =
        .ok ⟨updated, guardedTable tracker.allocatedBlockIds newBlockIds⟩ := by
  refine ⟨_, tracker.update_running newTokenIds newBlockIds lmcacheCachedTokens vllmCachedTokens
    allTokenIds, ?_⟩
  simp only [RequestTracker.updateWithBlockTableGuard, RequestTracker.update_running,
    Bool.false_eq_true, if_false]
  cases incoming : hcuFlattenBlockIds newBlockIds with
  | none =>
      have none : BlockIds.ofUpdate newBlockIds = [] := by
        rw [ofUpdate_eq_flatMap, incoming]
        rfl
      simp only [guardedTable, incoming, none, List.append_nil]
      rfl
  | some entries =>
      simp only [guardedTable, incoming]
      by_cases full : tracker.allocatedBlockIds.map .inl <+: entries
      · simp only [hcuSameBlockPrefix_iff.mpr full, if_pos full]
        rfl
      · have different := mt hcuSameBlockPrefix_iff.mp full
        simp only [if_neg full]
        exact if_neg different

end Update

/-! ### When the table is the request's -/

section Tables

variable {blockTable : List Nat} {newBlockIds : Option BlockIds}

theorem map_inl_injective : Function.Injective (List.map (Sum.inl : Nat → BlockEntry)) :=
  List.map_injective_iff.mpr Sum.inl_injective

/-- A report is not nested exactly when it is the list of its ids. -/
theorem unnested_iff {entries : List BlockEntry}
    (incoming : hcuFlattenBlockIds newBlockIds = some entries) :
    Unnested newBlockIds ↔ entries = (BlockIds.ofUpdate newBlockIds).map .inl := by
  rw [ofUpdate_eq_flatMap, incoming]
  constructor
  · exact fun unnested => eq_map_inl_of_unnested (unnested entries incoming)
  · intro same others flat entry member
    cases incoming.symm.trans flat
    rw [same] at member
    obtain ⟨_, _, rfl⟩ := List.mem_map.mp member
    rfl

/-- A report that begins with the table has its ids behind the table. -/
theorem prefix_ofUpdate {entries : List BlockEntry}
    (incoming : hcuFlattenBlockIds newBlockIds = some entries)
    (full : blockTable.map .inl <+: entries) : blockTable <+: BlockIds.ofUpdate newBlockIds := by
  obtain ⟨rest, rfl⟩ := full
  rw [ofUpdate_eq_flatMap, incoming, Option.getD_some, List.flatMap_append, flatMap_map_inl]
  exact List.prefix_append ..

/-- **The exact condition**, for the table alone. -/
theorem guardedTable_eq_iff (report : BlockReport) :
    guardedTable blockTable newBlockIds = (report.tableAfter blockTable newBlockIds).map .inl ↔
      report.Recognised blockTable newBlockIds := by
  cases incoming : hcuFlattenBlockIds newBlockIds with
  | none =>
      have none : BlockIds.ofUpdate newBlockIds = [] := by
        rw [ofUpdate_eq_flatMap, incoming]
        rfl
      have unnested : Unnested newBlockIds := by
        intro entries some
        cases incoming.symm.trans some
      simp [guardedTable, BlockReport.tableAfter, BlockReport.Recognised, incoming, none, unnested]
  | some entries =>
      have flat := unnested_iff incoming
      simp only [guardedTable, incoming, BlockReport.Recognised]
      by_cases empty : blockTable = []
      · -- everything begins with an empty table
        subst empty
        have after : report.tableAfter [] newBlockIds = BlockIds.ofUpdate newBlockIds := by
          cases blocks : BlockIds.ofUpdate newBlockIds with
          | nil => cases report <;> simp [BlockReport.tableAfter, blocks]
          | cons => cases report <;> simp [BlockReport.tableAfter, blocks]
        rw [List.map_nil, if_pos List.nil_prefix, if_pos rfl, flat, after]
      · have longer (others : List Nat) : blockTable ++ others ≠ others := by
          intro same
          exact empty (List.append_left_eq_self.mp same)
        rw [if_neg empty]
        cases blocks : BlockIds.ofUpdate newBlockIds with
        | nil =>
            have other : ¬ blockTable.map .inl <+: entries := by
              intro full
              exact empty (List.prefix_nil.mp (blocks ▸ prefix_ofUpdate incoming full))
            rw [if_neg other, List.append_nil]
            cases report <;> simp [BlockReport.tableAfter, blocks]
        | cons block rest =>
            rw [blocks] at flat
            by_cases full : blockTable.map .inl <+: entries
            · rw [if_pos full]
              have begins := prefix_ofUpdate incoming full
              rw [blocks] at begins
              cases report with
              | newlyAllocated =>
                  refine iff_of_false (fun same => ?_) fun other => other entries rfl full
                  -- the ids in the report would be the table and themselves
                  have ids := ofUpdate_eq_flatMap newBlockIds
                  rw [incoming, Option.getD_some, same, flatMap_map_inl] at ids
                  simp only [BlockReport.tableAfter, blocks] at ids
                  exact longer _ ids.symm
              | wholeTable =>
                  simp only [BlockReport.tableAfter, blocks, flat]
                  exact (and_iff_left begins).symm
            · rw [if_neg full]
              cases report with
              | newlyAllocated =>
                  simp only [BlockReport.tableAfter, blocks, true_iff]
                  intro others same
                  cases same
                  exact full
              | wholeTable =>
                  simp only [BlockReport.tableAfter, blocks, flat]
                  refine iff_of_false (fun same => longer _ (map_inl_injective same)) ?_
                  rintro ⟨rfl, begins⟩
                  exact full (begins.map Sum.inl)

end Tables

/-- **The exact condition.** An update of a request that keeps running succeeds, and it
leaves the request's table, flat and with every block once in its place, if and only
if the guard recognises the report. -/
theorem updateWithBlockTableGuard_iff (tracker : RequestTracker Token) (newTokenIds : List Token)
    (newBlockIds : Option BlockIds) (lmcacheCachedTokens vllmCachedTokens : Nat)
    (allTokenIds : Option (List Token)) (report : BlockReport) :
    (∃ guarded, tracker.updateWithBlockTableGuard newTokenIds newBlockIds false
        lmcacheCachedTokens vllmCachedTokens allTokenIds = .ok guarded ∧
      guarded.allocatedBlockIds =
        (report.tableAfter tracker.allocatedBlockIds newBlockIds).map .inl) ↔
      report.Recognised tracker.allocatedBlockIds newBlockIds := by
  obtain ⟨updated, _, guarded⟩ := updateWithBlockTableGuard_running tracker newTokenIds newBlockIds
    lmcacheCachedTokens vllmCachedTokens allTokenIds
  rw [guarded, ← guardedTable_eq_iff]
  constructor
  · rintro ⟨_, same, right⟩
    cases same
    exact right
  · exact fun right => ⟨_, rfl, right⟩

/-- A request with one block, whose whole table comes as one group in a list. -/
def nestedTracker : RequestTracker Nat where
  reqId := "request"
  promptLen := 32
  tokenIds := List.range 16
  allocatedBlockIds := [1]

/-- The first block is in the table twice. -/
theorem not_tableAfter_nested :
    ¬ ∀ (tracker : RequestTracker Nat) (newTokenIds : List Nat) (newBlockIds : Option BlockIds)
      (report : BlockReport),
      (report = .wholeTable → tracker.allocatedBlockIds <+: BlockIds.ofUpdate newBlockIds) →
      ∃ guarded, tracker.updateWithBlockTableGuard newTokenIds newBlockIds false 0 0 none =
          .ok guarded ∧
        guarded.allocatedBlockIds =
          (report.tableAfter tracker.allocatedBlockIds newBlockIds).map .inl := by
  intro right
  obtain ⟨guarded, updated, whole⟩ := right nestedTracker [16] (some (.list [.inr [1, 2]]))
    .wholeTable fun _ => by decide
  have twice : nestedTracker.updateWithBlockTableGuard [16] (some (.list [.inr [1, 2]])) false 0 0
      none = .ok ⟨{ nestedTracker with
        tokenIds := List.range 17
        allocatedBlockIds := [1, 1, 2]
        isDecodePhase := true }, [.inl 1, .inl 1, .inl 2]⟩ := by decide
  cases twice.symm.trans updated
  exact absurd whole (by decide)

end LMCacheHcu.Connector
