import PyBulletin.Session.Bystanders

set_option autoImplicit false

namespace PyBulletin.Session.Traffic

open PyBulletin.Foundation
open PyBulletin.Store
open PyBulletin.Forward

/-! # Who a message is from

A terminal and the web server write the call of their user as the sender.  A neighbour may
write what it likes, and its call then stands at the beginning of the path.
-/

/-- A user has given the message in, under its own call. -/
def Submitted (events : List Event) (msg : Message) : Prop :=
  ∃ caller messages typed, .command caller (.send messages) ∈ events ∧ typed ∈ messages ∧
    msg = { typed with fromCall := caller.call }

/-- The row is a message that a user here has sent. -/
structure SentHere (events : List Event) (row : Row) : Prop where
  author : ∃ caller messages msg, .command caller (.send messages) ∈ events ∧ msg ∈ messages ∧
    row.fromCall = Text.upper caller.call ∧ row.bid = msg.bid ∧ row.msgType = msg.msgType ∧
    row.createdAt = msg.createdAt
  path : Extends "" row.forwardPath

/-- The row is a message that a neighbour has delivered in the run. -/
structure Relayed (codec : Codec) (start : State) (events : List Event) (neighbor : Neighbor)
    (row : Row) : Prop where
  received : SomeStep (step codec) (fun state event => Receives codec state event neighbor row.id)
    start events
  path : Extends neighbor.call row.forwardPath

/-- A session with the neighbour has been opened. -/
def Connected (events : List Event) (neighbor : Neighbor) : Prop :=
  ∃ nodeCall calling, .connect nodeCall neighbor calling ∈ events

/-- What is under way was asked for in the events. -/
structure Asked (events : List Event) (state : State) : Prop where
  pending : ∀ task ∈ state.tasks, ∀ msg, task.pending = some (.insert msg) → Submitted events msg
  todo : ∀ task ∈ state.tasks, ∀ msg, .write (.insert msg) ∈ task.todo → Submitted events msg
  links : ∀ link ∈ state.links, Connected events link.neighbor

variable {store : BBSStore} {op : Operation}

/-- Only a message that was sent is inserted. -/
theorem write_of_insert {decision : Decision} {msg : Message}
    (checked : decision.check store = some (.insert msg)) : decision = .write (.insert msg) := by
  have onMessage {id : Nat} {caller : Caller} (allowed : Allowed store caller id (.insert msg)) :
      decision = .write (.insert msg) := absurd allowed.1 (Option.some_ne_none id).symm
  cases decision with
  | readOne caller id => exact onMessage (readOne_allowed checked)
  | killOne caller id => exact onMessage (killOne_allowed checked)
  | webRead caller id => exact onMessage (webRead_allowed checked)
  | webKill caller id => exact onMessage (webKill_allowed checked)
  | killListed row => simp [Decision.check] at checked
  | editTerminal caller id subject body =>
      simp only [Decision.check, editTerminal] at checked
      split at checked <;> simp at checked
  | moveOne id toCall atBbs => simp [Decision.check, moveOne] at checked
  | dropForward id bbs => simp [Decision.check, dropForward] at checked
  | webEdit caller id subject body =>
      simp only [Decision.check, webEdit] at checked
      split at checked <;> simp at checked
  | write operation =>
      cases checked
      rfl

theorem submitted_of_decisions {caller : Caller} {command : Command} {events : List Event}
    {msg : Message} (given : .command caller command ∈ events)
    (listed : .write (.insert msg) ∈ command.decisions store caller) : Submitted events msg := by
  cases command with
  | send messages =>
      obtain ⟨typed, among, same⟩ := List.mem_map.mp listed
      cases same
      exact ⟨caller, messages, typed, given, among, rfl⟩
  | _ => simp [Command.decisions] at listed

section Steps

variable {codec : Codec} {state next : State} {event : Event} {events : List Event}

theorem asked_tasks (asked : Asked events state) (given : event ∈ events)
    (stepped : step codec state event = some next) :
    ∀ task ∈ next.tasks, ∀ msg,
      (task.pending = some (.insert msg) → Submitted events msg) ∧
        (.write (.insert msg) ∈ task.todo → Submitted events msg) := by
  have before (task : Task) (listed : task ∈ state.tasks) (msg : Message) :=
    And.intro (asked.pending task listed msg) (asked.todo task listed msg)
  cases event with
  | command caller command =>
      cases stepped
      intro task listed msg
      rcases List.mem_append.mp listed with old | new
      · exact before task old msg
      · cases List.mem_singleton.mp new
        exact ⟨fun pending => absurd pending (Option.some_ne_none _).symm,
          submitted_of_decisions given⟩
  | resume i now =>
      rcases resume_cases stepped with ⟨decision, todo, found, _, rfl⟩ | ⟨op, todo, found, _, rfl⟩
      all_goals
        have resumed := before _ (List.mem_of_getElem? found)
        intro task listed msg
        rcases List.mem_or_eq_of_mem_set listed with old | rfl
      · exact before task old msg
      · refine ⟨fun checked => (resumed msg).2 ?_, fun later => (resumed msg).2 ?_⟩
        · rw [write_of_insert checked]
          exact List.mem_cons_self
        · exact List.mem_cons_of_mem _ later
      · exact before task old msg
      · exact ⟨fun pending => absurd pending (Option.some_ne_none _).symm, (resumed msg).2⟩
  | connect nodeCall neighbor calling | cleanup cutoffs =>
      cases stepped
      exact before
  | arrive i data =>
      obtain ⟨link, _, rfl⟩ := Option.map_eq_some_iff.mp stepped
      exact before
  | forward i silence now =>
      rw [step] at stepped
      cases found : state.links[i]? with
      | none => simp [found] at stepped
      | some link =>
          simp only [found] at stepped
          obtain ⟨moved, _, rfl⟩ := Option.map_eq_some_iff.mp stepped
          exact before

theorem connected_links (connected : ∀ link ∈ state.links, Connected events link.neighbor)
    (given : event ∈ events) (stepped : step codec state event = some next) :
    ∀ link ∈ next.links, Connected events link.neighbor := by
  cases event with
  | command caller command | cleanup cutoffs =>
      cases stepped
      exact connected
  | resume i now =>
      rcases resume_cases stepped with ⟨_, _, _, _, rfl⟩ | ⟨_, _, _, _, rfl⟩ <;> exact connected
  | connect nodeCall neighbor calling =>
      cases stepped
      intro link listed
      rcases List.mem_append.mp listed with old | new
      · exact connected link old
      · cases List.mem_singleton.mp new
        exact ⟨nodeCall, calling, given⟩
  | arrive i data =>
      obtain ⟨link, found, rfl⟩ := Option.map_eq_some_iff.mp stepped
      intro other listed
      rcases List.mem_or_eq_of_mem_set listed with old | rfl
      · exact connected other old
      · exact connected link (List.mem_of_getElem? found)
  | forward i silence now =>
      rw [step] at stepped
      cases found : state.links[i]? with
      | none => simp [found] at stepped
      | some link =>
          simp only [found] at stepped
          obtain ⟨⟨written, after⟩, moved, rfl⟩ := Option.map_eq_some_iff.mp stepped
          intro other listed
          rcases List.mem_or_eq_of_mem_set listed with old | rfl
          · exact connected other old
          · rw [(ForwardSession.step_effect moved).1.neighbor]
            exact connected link (List.mem_of_getElem? found)

theorem asked_step (asked : Asked events state) (given : event ∈ events)
    (stepped : step codec state event = some next) : Asked events next where
  pending task listed msg := (asked_tasks asked given stepped task listed msg).1
  todo task listed msg := (asked_tasks asked given stepped task listed msg).2
  links := connected_links asked.links given stepped

/-- A row behind a step goes on with an earlier one, or is a message of a user, or is one that
a neighbour has just delivered. -/
theorem author_step {row : Row} (asked : Asked events state)
    (stepped : step codec state event = some next) (listed : row ∈ next.store.messages) :
    (∃ old ∈ state.store.messages, Continues old row) ∨ SentHere events row ∨
      ∃ neighbor, Connected events neighbor ∧ Receives codec state event neighbor row.id ∧
        Extends neighbor.call row.forwardPath := by
  cases row_step stepped listed with
  | kept stored => exact .inl ⟨row, stored, .refl row⟩
  | written op old _ _ _ stored continues => exact .inl ⟨old, stored, continues⟩
  | forwarded old call _ stored same =>
      rw [same]
      exact .inl ⟨old, stored, rfl, rfl, rfl, rfl, rfl, .append .refl call⟩
  | sent msg runs new =>
      have submitted : Submitted events msg := by
        cases event with
        | resume i now =>
            obtain ⟨task, found, pending⟩ := Option.bind_eq_some_iff.mp runs
            exact asked.pending task (List.mem_of_getElem? found) msg pending
        | forward i silence now =>
            obtain ⟨_, _, same⟩ := Option.map_eq_some_iff.mp runs
            cases same
        | _ => cases runs
      obtain ⟨caller, messages, typed, given, among, rfl⟩ := submitted
      subst new
      exact .inr (.inl ⟨⟨caller, messages, typed, given, among, rfl, rfl, rfl, rfl⟩, .refl⟩)
  | received msg neighbor receives new =>
      obtain ⟨i, silence, now, link, _, _, _, found, rfl, _⟩ := id receives
      subst new
      exact .inr (.inr ⟨link.neighbor, asked.links link (List.mem_of_getElem? found), receives, .refl⟩)

end Steps

section Runs

variable {codec : Codec} {start final : State} {events given : List Event} {row later : Row}

theorem SentHere.continues (sent : SentHere events row) (continues : Continues row later) :
    SentHere events later := by
  obtain ⟨caller, messages, msg, listed, among, from_, bid, msgType, created⟩ := sent.author
  exact ⟨⟨caller, messages, msg, listed, among, continues.fromCall.trans from_,
    continues.bid.trans bid, continues.msgType.trans msgType, continues.createdAt.trans created⟩,
    sent.path.trans continues.path⟩

theorem author_run (asked : Asked given start) (among : ∀ event ∈ events, event ∈ given)
    (completed : run (step codec) start events = some final) (listed : row ∈ final.store.messages) :
    (∃ old ∈ start.store.messages, Continues old row) ∨ SentHere given row ∨
      ∃ neighbor, Connected given neighbor ∧ Relayed codec start events neighbor row := by
  induction events generalizing start with
  | nil =>
      cases completed
      exact .inl ⟨row, listed, .refl row⟩
  | cons event events ih =>
      obtain ⟨next, stepped, rest⟩ := run_cons completed
      have here := among event List.mem_cons_self
      have others : ∀ event ∈ events, event ∈ given := fun other later =>
        among other (List.mem_cons_of_mem _ later)
      rcases ih (asked_step asked here stepped) others rest with
        ⟨between, stored, continues⟩ | sent | ⟨neighbor, connected, relayed⟩
      · rcases author_step asked stepped stored with
          ⟨old, before, first⟩ | sent | ⟨neighbor, connected, receives, path⟩
        · exact .inl ⟨old, before, first.trans continues⟩
        · exact .inr (.inl (sent.continues continues))
        · refine .inr (.inr ⟨neighbor, connected, .inl ?_, path.trans continues.path⟩)
          rw [continues.id]
          exact receives
      · exact .inr (.inl sent)
      · exact .inr (.inr ⟨neighbor, connected, .inr ⟨next, stepped, relayed.received⟩, relayed.path⟩)

/-- No user can send in the name of another: a message in the store was there at the start, or
a user has sent it and its call is the sender, or a neighbour has delivered it and the path of
the message begins with the call of the neighbour. -/
theorem authors_known {store : BBSStore} (completed : run (step codec) (begin store) events = some final)
    (listed : row ∈ final.store.messages) :
    (∃ old ∈ store.messages, Continues old row) ∨ SentHere events row ∨
      ∃ neighbor, Connected events neighbor ∧ Relayed codec (begin store) events neighbor row := by
  have asked : Asked events (begin store) :=
    ⟨fun _ listed => absurd listed List.not_mem_nil, fun _ listed => absurd listed List.not_mem_nil,
      fun _ listed => absurd listed List.not_mem_nil⟩
  exact author_run asked (fun _ listed => listed) completed listed

/-- The addressee sends a letter in the name of its writer, and stands there as the sender. -/
theorem authors_known_posing :
    ∃ final row, run (step bareCodec) (begin letterStore)
        [.command addressee (.send [{ letter with bid := "2_N0AAA" }]), .resume 0 today,
          .resume 0 today] = some final ∧
      row ∈ final.store.messages ∧ row.id = 2 ∧ row.fromCall = addressee.call := by
  obtain ⟨final, completed, numbers⟩ := Option.map_eq_some_iff.mp
    (by decide +kernel : (run (step bareCodec) (begin letterStore)
      [.command addressee (.send [{ letter with bid := "2_N0AAA" }]), .resume 0 today,
        .resume 0 today]).map (fun state => state.store.messages.map Row.id) = some [1, 2])
  obtain ⟨row, listed, number⟩ : ∃ row ∈ final.store.messages, row.id = 2 :=
    List.mem_map.mp (numbers ▸ by decide)
  refine ⟨final, row, completed, listed, number, ?_⟩
  rcases authors_known completed listed with ⟨old, stored, continues⟩ |
    ⟨⟨caller, messages, msg, given, _, sender, _⟩, _⟩ | ⟨neighbor, ⟨nodeCall, calling, given⟩, _⟩
  · have issued := letterStore.issued old stored
    have one : letterStore.sequence = 1 := rfl
    have same := continues.id
    omega
  · simp only [List.mem_cons, List.not_mem_nil, or_false, reduceCtorEq, Event.command.injEq] at given
    rw [sender, given.1]
    decide
  · simp at given

end Runs

end PyBulletin.Session.Traffic
