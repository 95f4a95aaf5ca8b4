import LMCacheHcu.Foundation.Runs

/-! # Broadcasts of one root

A root broadcasts messages to any number of other ranks, each of which is a
program that asks for one message after the other. The calls of the ranks pair up
in order, but every rank proceeds at its own pace. A call pairs with a message of
its own kind only, for a tensor also of its own size; a rank at any other call
waits for ever.
-/

namespace LMCacheHcu.Collective

/-- One broadcast of the root. -/
inductive Message (Object : Type)
  | object (value : Object)
  | tensor (bytes : List UInt8)

/-- What another rank still does. -/
inductive Receiver (Object Result : Type)
  | done (result : Result)
  | object (resume : Object → Receiver Object Result)
  | tensor (size : ℕ) (resume : List UInt8 → Receiver Object Result)

variable {Object Result : Type}

/-- A call that pairs with a message. -/
def Receiver.accept : Receiver Object Result → Message Object → Option (Receiver Object Result)
  | .object resume, .object value => some (resume value)
  | .tensor size resume, .tensor bytes =>
      if bytes.length = size then some (resume bytes) else none
  | _, _ => none

/-- The result of a rank that pairs all its calls with all the messages. -/
def Receiver.consume : Receiver Object Result → List (Message Object) → Option Result
  | .done result, [] => some result
  | _, [] => none
  | receiver, message :: messages =>
      match receiver.accept message with
      | none => none
      | some next => next.consume messages

/-- The messages still to be sent, and for each rank those on their way to it. -/
structure Group (Object Result : Type) where
  unsent : List (Message Object)
  ranks : List (List (Message Object) × Receiver Object Result)

inductive Event
  | send
  | receive (rank : ℕ)

namespace Group

/-- One step of one rank. -/
def step (group : Group Object Result) : Event → Option (Group Object Result)
  | .send =>
      match group.unsent with
      | [] => none
      | message :: unsent =>
          some ⟨unsent, group.ranks.map fun rank => (rank.1 ++ [message], rank.2)⟩
  | .receive rank =>
      match group.ranks[rank]? with
      | some (message :: queue, receiver) =>
          (receiver.accept message).map fun next =>
            { group with ranks := group.ranks.set rank (queue, next) }
      | _ => none

def start (messages : List (Message Object)) (receivers : List (Receiver Object Result)) :
    Group Object Result :=
  ⟨messages, receivers.map fun receiver => ([], receiver)⟩

/-- Every message has arrived and every rank is done. -/
def finished (results : List Result) : Group Object Result :=
  ⟨[], results.map fun result => ([], .done result)⟩

/-- No rank can take a step. -/
def Stuck (group : Group Object Result) : Prop := ∀ event, group.step event = none

abbrev Reaches : Group Object Result → Group Object Result → Prop :=
  Runs.Reaches step fun _ _ => True

/-- What each rank will have when it pairs with all the messages before it. -/
def prospects (group : Group Object Result) : List (Option Result) :=
  group.ranks.map fun rank => rank.2.consume (rank.1 ++ group.unsent)

variable {group next : Group Object Result} {event : Event}

/-- A step is a broadcast, or the next call of one rank. -/
theorem step_cases (stepped : group.step event = some next) :
    (∃ message unsent, event = .send ∧ group.unsent = message :: unsent ∧
      next = ⟨unsent, group.ranks.map fun rank => (rank.1 ++ [message], rank.2)⟩) ∨
    ∃ rank message queue receiver resumed, event = .receive rank ∧
      group.ranks[rank]? = some (message :: queue, receiver) ∧
      receiver.accept message = some resumed ∧
      next = { group with ranks := group.ranks.set rank (queue, resumed) } := by
  cases event with
  | send =>
      unfold step at stepped
      dsimp only at stepped
      split at stepped
      · cases stepped
      · rename_i message unsent waiting
        exact .inl ⟨message, unsent, rfl, waiting, (Option.some.inj stepped).symm⟩
  | receive rank =>
      unfold step at stepped
      dsimp only at stepped
      split at stepped
      · rename_i message queue receiver here
        obtain ⟨resumed, accepted, rfl⟩ := Option.map_eq_some_iff.mp stepped
        exact .inr ⟨rank, message, queue, receiver, resumed, rfl, here, accepted, rfl⟩
      · cases stepped

/-- The prospects of the ranks never change. -/
theorem prospects_step (stepped : group.step event = some next) :
    next.prospects = group.prospects := by
  rcases step_cases stepped with ⟨message, unsent, _, waiting, rfl⟩ |
    ⟨rank, message, queue, receiver, resumed, _, here, accepted, rfl⟩
  · simp only [prospects, List.map_map, waiting]
    refine List.map_congr_left fun rank _ => ?_
    simp
  · simp only [prospects]
    apply List.ext_getElem?
    intro other
    rw [List.getElem?_map, List.getElem?_map, List.getElem?_set]
    by_cases same : rank = other
    · subst same
      rw [here]
      obtain ⟨inside, _⟩ := List.getElem?_eq_some_iff.mp here
      simp [inside, Receiver.consume, accepted]
    · simp [same]

theorem prospects_of_reaches (reached : Reaches group next) :
    next.prospects = group.prospects := by
  induction reached with
  | refl => rfl
  | tail _ _ stepped ih => exact (prospects_step stepped).trans ih

/-! ### Every run ends -/

/-- The steps that are left: each message is sent once and received by each rank. -/
def work (group : Group Object Result) : ℕ :=
  group.unsent.length * (group.ranks.length + 1) + (group.ranks.map fun rank => rank.1.length).sum

theorem work_step (stepped : group.step event = some next) : next.work < group.work := by
  rcases step_cases stepped with ⟨message, unsent, _, waiting, rfl⟩ |
    ⟨rank, message, queue, receiver, resumed, _, here, accepted, rfl⟩
  · have longer : ((group.ranks.map fun rank => (rank.1 ++ [message], rank.2)).map
        fun rank => rank.1.length).sum =
          (group.ranks.map fun rank => rank.1.length).sum + group.ranks.length := by
      rw [List.map_map]
      generalize group.ranks = ranks
      induction ranks with
      | nil => rfl
      | cons rank ranks ih =>
          simp only [List.map_cons, List.sum_cons, ih, Function.comp_apply, List.length_append,
            List.length_cons, List.length_nil]
          omega
    simp only [work, longer, List.length_map, waiting, List.length_cons]
    ring_nf
    omega
  · have shorter := Runs.sum_map_set
      (fun rank : List (Message Object) × Receiver Object Result => (rank.1.length : ℤ)) here
      (queue, resumed)
    have cast (ranks : List (List (Message Object) × Receiver Object Result)) :
        (ranks.map fun rank => (rank.1.length : ℤ)).sum =
          ((ranks.map fun rank => rank.1.length).sum : ℕ) := by
      rw [Nat.cast_list_sum, List.map_map]
      rfl
    rw [cast, cast] at shorter
    simp only [work, List.length_set, List.length_cons] at shorter ⊢
    omega

/-- Some run goes on until no rank can take a step. -/
theorem exists_stuck (group : Group Object Result) :
    ∃ final, Reaches group final ∧ final.Stuck := by
  induction steps : group.work using Nat.strong_induction_on generalizing group with
  | _ steps ih =>
      by_cases stuck : group.Stuck
      · exact ⟨group, .refl, stuck⟩
      · obtain ⟨event, moves⟩ := not_forall.mp stuck
        obtain ⟨next, stepped⟩ := Option.ne_none_iff_exists'.mp moves
        obtain ⟨final, reached, ended⟩ := ih next.work (steps ▸ work_step stepped) next rfl
        exact ⟨final, (Runs.Reaches.refl.tail trivial stepped).trans reached, ended⟩

/-! ### Ranks in step -/

/-- A rank at which nothing moves has all its messages, or will never be done. -/
theorem consume_of_stuck (stuck : group.Stuck) {rank : ℕ} {queue : List (Message Object)}
    {receiver : Receiver Object Result} (here : group.ranks[rank]? = some (queue, receiver))
    {result : Result} (hopeful : receiver.consume queue = some result) :
    queue = [] ∧ receiver = .done result := by
  cases queue with
  | nil =>
      cases receiver with
      | done found => exact ⟨rfl, by rw [Option.some.inj hopeful]⟩
      | object _ => cases hopeful
      | tensor _ _ => cases hopeful
  | cons message queue =>
      have waits := stuck (.receive rank)
      simp only [step, here, Option.map_eq_none_iff] at waits
      simp [Receiver.consume, waits] at hopeful

theorem unsent_of_stuck (stuck : group.Stuck) : group.unsent = [] := by
  have waits := stuck .send
  unfold step at waits
  dsimp only at waits
  split at waits
  · assumption
  · cases waits

theorem eq_finished_iff (stuck : group.Stuck) (results : List Result) :
    group = finished results ↔ group.prospects = results.map some := by
  constructor
  · rintro rfl
    simp [finished, prospects, Receiver.consume]
  · intro same
    have sent := unsent_of_stuck stuck
    obtain ⟨unsent, ranks⟩ := group
    obtain rfl : unsent = [] := sent
    refine congrArg (Group.mk []) (List.ext_getElem? fun rank => ?_)
    have prospect := congrArg (·[rank]?) same
    simp only [prospects, List.getElem?_map, List.append_nil] at prospect ⊢
    cases here : ranks[rank]? with
    | none =>
        rw [here] at prospect
        cases found : results[rank]? with
        | none => rfl
        | some result => simp [found] at prospect
    | some entry =>
        rw [here] at prospect
        cases found : results[rank]? with
        | none => simp [found] at prospect
        | some result =>
            obtain ⟨empty, ended⟩ := consume_of_stuck stuck here
              (by simpa [found] using prospect : entry.2.consume entry.1 = some result)
            simp [← empty, ← ended]

end Group

/-- However the ranks proceed, they end with all messages received and with these
results. -/
def InStep (messages : List (Message Object)) (receivers : List (Receiver Object Result))
    (results : List Result) : Prop :=
  ∀ final, (Group.start messages receivers).Reaches final → final.Stuck →
    final = Group.finished results

/-- **Ranks stay in step** exactly when each of them pairs with all the messages
by itself. -/
theorem inStep_iff {messages : List (Message Object)} {receivers : List (Receiver Object Result)}
    {results : List Result} :
    InStep messages receivers results ↔
      receivers.map (fun receiver => receiver.consume messages) = results.map some := by
  have begins : (Group.start messages receivers).prospects =
      receivers.map fun receiver => receiver.consume messages := by
    simp [Group.start, Group.prospects, Function.comp_def]
  constructor
  · intro inStep
    obtain ⟨final, reached, stuck⟩ := (Group.start messages receivers).exists_stuck
    rw [← begins, ← Group.prospects_of_reaches reached, ← Group.eq_finished_iff stuck]
    exact inStep final reached stuck
  · intro prospects final reached stuck
    rw [Group.eq_finished_iff stuck, Group.prospects_of_reaches reached, begins, prospects]

end LMCacheHcu.Collective
