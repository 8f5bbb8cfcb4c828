import PyBulletin.Session.Lasting

set_option autoImplicit false

namespace PyBulletin.Session.Traffic

open PyBulletin.Foundation
open PyBulletin.Store
open PyBulletin.Forward

/-- What readers do: `R`, `RA`, a request by web, and the next step of one of these. -/
inductive Reading where
  | read (caller : Caller) (ids : List Nat)
  | readAll (caller : Caller)
  | webRead (caller : Caller) (id : Nat)
  | resume (task : Nat) (now : DateTime)

/-- The new messages to the caller, which `RA` reads. -/
def newFor (store : BBSStore) (caller : Caller) : List Nat :=
  (store.messages.filter fun row =>
    row.toCall = Text.upper caller.call ∧ row.status = statusNew).map Row.id

def Reading.event (store : BBSStore) : Reading → Event
  | .read caller ids => .command caller (.read ids)
  | .readAll caller => .command caller (.read (newFor store caller))
  | .webRead caller id => .command caller (.webRead id)
  | .resume task now => .resume task now

variable (codec : Codec)

def readStep (state : State) (reading : Reading) : Option State :=
  step codec state (reading.event state.store)

/-- The write that a step makes. -/
def writes (state : State) (reading : Reading) : Option Operation :=
  operation codec state (reading.event state.store)

/-- A private message that is marked as read was read by its addressee. -/
def Addressed (state : State) : Prop :=
  ∀ row ∈ state.store.messages, row.msgType = msgPrivate → row.status = statusRead →
    row.readBy = row.toCall

/-- The step shows a message to a user because it is new to be marked as read. -/
def Opens (id : Nat) (call : Text) (state : State) (reading : Reading) : Prop :=
  ∃ task now decision todo, reading = .resume task now ∧
    state.tasks[task]? = some { pending := none, todo := decision :: todo } ∧
    decision.check state.store = some (.markRead id call)

/-- A step that marks a private message as read ends a reading of its addressee. -/
def MarksForAddressee (state : State) (reading : Reading) : Prop :=
  ∀ id byCall row, writes codec state reading = some (.markRead id byCall) →
    row ∈ state.store.messages → row.id = id → row.msgType = msgPrivate →
    row.status ≠ statusKilled → Text.upper byCall = row.toCall

/-- A reader who is not the addressee leaves a new private message as it is. -/
def LeavesNew (state : State) (reading : Reading) : Prop :=
  ∀ id byCall row next, writes codec state reading = some (.markRead id byCall) →
    row ∈ state.store.messages → row.id = id → row.msgType = msgPrivate → row.status = statusNew →
    Text.upper byCall ≠ row.toCall → readStep codec state reading = some next →
    next.store.statusOf id = some statusNew

/-- Read means read by the recipient. -/
structure ReadMeansReceived (start : State) (readings : List Reading) : Prop where
  recorded : Throughout (readStep codec) Addressed start readings
  opened : ∀ front reached row, front <+: readings →
    run (readStep codec) start front = some reached → row ∈ reached.store.messages →
    row.msgType = msgPrivate → row.status = statusRead →
    start.store.statusOf row.id = some statusRead ∨
      SomeStep (readStep codec)
        (fun state reading => ∃ call, Text.upper call = row.toCall ∧ Opens row.id call state reading)
        start front
  unread : EveryStep (readStep codec) (LeavesNew codec) start readings

/-- A task of a reader. -/
structure Task.Reads (task : Task) : Prop where
  pending : ∀ op, task.pending = some op → ∃ id byCall, op = .markRead id byCall
  todo : ∀ decision ∈ task.todo,
    ∃ caller id, decision = .readOne caller id ∨ decision = .webRead caller id

def OnlyReads (state : State) : Prop := ∀ task ∈ state.tasks, task.Reads

/-- A check of a reader comes to a mark or to nothing. -/
theorem check_marks {store : BBSStore} {decision : Decision} {caller : Caller} {id : Nat} {op : Operation}
    (reads : decision = .readOne caller id ∨ decision = .webRead caller id)
    (checked : decision.check store = some op) : op = .markRead id caller.call := by
  rcases reads with rfl | rfl
  · simp only [Decision.check, Traffic.readOne] at checked
    split at checked
    · cases checked
    · split at checked
      · cases checked
      · split at checked
        · cases checked
        · split at checked <;> cases checked
          rfl
  · simp only [Decision.check, Traffic.webRead] at checked
    split at checked
    · cases checked
    · split at checked
      · cases checked
      · split at checked
        · cases checked
        · split at checked <;> cases checked
          rfl

variable {codec} {state next : State} {reading : Reading}

/-- What a step of readers does: it begins, looks at a message, or makes its mark. -/
theorem readStep_cases (stepped : readStep codec state reading = some next) :
    (∃ task : Task, task.pending = none ∧
      (∀ decision ∈ task.todo, ∃ caller id, decision = .readOne caller id ∨ decision = .webRead caller id) ∧
      writes codec state reading = none ∧ next = { state with tasks := state.tasks ++ [task] }) ∨
    (∃ i now decision todo, reading = .resume i now ∧
      state.tasks[i]? = some { pending := none, todo := decision :: todo } ∧
      writes codec state reading = none ∧
      next = { state with
        tasks := state.tasks.set i { pending := decision.check state.store, todo } }) ∨
    (∃ i now op todo, reading = .resume i now ∧ state.tasks[i]? = some { pending := some op, todo } ∧
      writes codec state reading = some op ∧
      next = { state with
        store := op.apply now state.store, tasks := state.tasks.set i { todo } }) := by
  cases reading with
  | read caller ids =>
      cases stepped
      refine .inl ⟨⟨none, _⟩, rfl, fun decision listed => ?_, rfl, rfl⟩
      obtain ⟨id, _, rfl⟩ := List.mem_map.mp listed
      exact ⟨caller, id, .inl rfl⟩
  | readAll caller =>
      cases stepped
      refine .inl ⟨⟨none, _⟩, rfl, fun decision listed => ?_, rfl, rfl⟩
      obtain ⟨id, _, rfl⟩ := List.mem_map.mp listed
      exact ⟨caller, id, .inl rfl⟩
  | webRead caller id =>
      cases stepped
      refine .inl ⟨⟨none, _⟩, rfl, fun decision listed => ?_, rfl, rfl⟩
      exact ⟨caller, id, .inr (List.mem_singleton.mp listed)⟩
  | resume i now =>
      rcases resume_cases stepped with ⟨decision, todo, found, idle, rfl⟩ |
        ⟨op, todo, found, runs, rfl⟩
      · exact .inr (.inl ⟨i, now, decision, todo, rfl, found, idle, rfl⟩)
      · exact .inr (.inr ⟨i, now, op, todo, rfl, found, runs, rfl⟩)

theorem onlyReads_step (reads : OnlyReads state) (stepped : readStep codec state reading = some next) :
    OnlyReads next := by
  rcases readStep_cases stepped with ⟨task, idle, todo, _, rfl⟩ |
    ⟨i, now, decision, todo, _, found, _, rfl⟩ | ⟨i, now, op, todo, _, found, _, rfl⟩
  · intro other listed
    rcases List.mem_append.mp listed with old | new
    · exact reads other old
    · rw [List.mem_singleton.mp new]
      exact ⟨fun op pending => (nomatch idle.symm.trans pending), todo⟩
  · have task := reads _ (List.mem_of_getElem? found)
    intro other listed
    rcases List.mem_or_eq_of_mem_set listed with old | rfl
    · exact reads other old
    · obtain ⟨caller, id, looks⟩ := task.todo decision List.mem_cons_self
      exact ⟨fun op checked => ⟨id, caller.call, check_marks looks checked⟩,
        fun other listed => task.todo other (List.mem_cons_of_mem _ listed)⟩
  · have task := reads _ (List.mem_of_getElem? found)
    intro other listed
    rcases List.mem_or_eq_of_mem_set listed with old | rfl
    · exact reads other old
    · exact ⟨nofun, task.todo⟩

/-- A row behind a step is one from before it, or one that the step has marked. -/
theorem row_cases (reads : OnlyReads state) (stepped : readStep codec state reading = some next)
    {row : Row} (listed : row ∈ next.store.messages) :
    row ∈ state.store.messages ∨
      ∃ byCall now, ∃ old ∈ state.store.messages, writes codec state reading = some (.markRead old.id byCall) ∧
        old.status ≠ statusKilled ∧
        row = { old with status := statusRead, readBy := Text.upper byCall, readAt := some now } := by
  rcases readStep_cases stepped with ⟨_, _, _, _, rfl⟩ | ⟨_, _, _, _, _, _, _, rfl⟩ |
    ⟨i, now, op, todo, _, found, wrote, rfl⟩
  · exact .inl listed
  · exact .inl listed
  · obtain ⟨id, byCall, rfl⟩ := (reads _ (List.mem_of_getElem? found)).pending op rfl
    rcases BBSStore.mem_markRead listed with old | ⟨old, stored, rfl, live, same⟩
    · exact .inl old
    · exact .inr ⟨byCall, now, old, stored, wrote, live, same⟩

theorem addressed_step (reads : OnlyReads state) (addressed : Addressed state)
    (marks : MarksForAddressee codec state reading) (stepped : readStep codec state reading = some next) :
    Addressed next := by
  intro row listed isPrivate read
  rcases row_cases reads stepped listed with old | ⟨byCall, now, old, stored, wrote, live, rfl⟩
  · exact addressed row old isPrivate read
  · exact marks old.id byCall old wrote stored rfl isPrivate live

/-- A mark of someone else is a wrong record. -/
theorem not_addressed_step (against : ¬ MarksForAddressee codec state reading) :
    ∃ next, readStep codec state reading = some next ∧ ¬ Addressed next := by
  simp only [MarksForAddressee, not_forall] at against
  obtain ⟨id, byCall, row, wrote, stored, rfl, isPrivate, live, other⟩ := against
  cases reading with
  | resume i now =>
      obtain ⟨⟨pending, todo⟩, found, same⟩ := Option.bind_eq_some_iff.mp wrote
      cases same
      have stepped : readStep codec state (.resume i now) = some { state with
          store := state.store.markRead row.id byCall now, tasks := state.tasks.set i { todo } } := by
        simp only [readStep, Reading.event, step, found]
        rfl
      refine ⟨_, stepped, fun addressed => other ?_⟩
      exact addressed _ (BBSStore.markRead_mem stored live byCall now) isPrivate rfl
  | _ => cases wrote

/-- Some task waits to mark the message. -/
def Waits (state : State) (key : Nat × Text) : Prop :=
  ∃ task ∈ state.tasks, task.pending = some (.markRead key.1 key.2)

theorem waits_step {key : Nat × Text} (stepped : readStep codec state reading = some next)
    (waits : Waits next key) : Opens key.1 key.2 state reading ∨ Waits state key := by
  obtain ⟨task, listed, pending⟩ := waits
  rcases readStep_cases stepped with ⟨begun, idle, _, _, rfl⟩ |
    ⟨i, now, decision, todo, same, found, _, rfl⟩ | ⟨i, now, op, todo, _, found, _, rfl⟩
  · rcases List.mem_append.mp listed with old | new
    · exact .inr ⟨task, old, pending⟩
    · rw [List.mem_singleton.mp new, idle] at pending
      cases pending
  · rcases List.mem_or_eq_of_mem_set listed with old | rfl
    · exact .inr ⟨task, old, pending⟩
    · exact .inl ⟨i, now, decision, todo, same, found, pending⟩
  · rcases List.mem_or_eq_of_mem_set listed with old | rfl
    · exact .inr ⟨task, old, pending⟩
    · cases pending

/-- A private message to the call that is marked as read. -/
def MarkedAsRead (state : State) (key : Nat × Text) : Prop :=
  ∃ row ∈ state.store.messages, row.id = key.1 ∧ row.toCall = key.2 ∧ row.msgType = msgPrivate ∧
    row.status = statusRead

/-- The step marks a private message to the call. -/
def Marks (codec : Codec) (state : State) (reading : Reading) (key : Nat × Text) : Prop :=
  ∃ byCall, ∃ row ∈ state.store.messages, writes codec state reading = some (.markRead key.1 byCall) ∧
    row.id = key.1 ∧ row.toCall = key.2 ∧ row.msgType = msgPrivate ∧ row.status ≠ statusKilled

theorem markedAsRead_step {key : Nat × Text} (reads : OnlyReads state)
    (stepped : readStep codec state reading = some next) (marked : MarkedAsRead next key) :
    Marks codec state reading key ∨ MarkedAsRead state key := by
  obtain ⟨row, listed, number, recipient, isPrivate, read⟩ := marked
  rcases row_cases reads stepped listed with old | ⟨byCall, now, old, stored, wrote, live, rfl⟩
  · exact .inr ⟨row, old, number, recipient, isPrivate, read⟩
  · refine .inl ⟨byCall, old, stored, ?_, number, recipient, isPrivate, live⟩
    rw [wrote]
    exact congrArg (fun id => some (Operation.markRead id byCall)) number

theorem waits_of_writes {id : Nat} {byCall : Text}
    (wrote : writes codec state reading = some (.markRead id byCall)) : Waits state (id, byCall) := by
  cases reading with
  | resume i now =>
      obtain ⟨task, found, pending⟩ := Option.bind_eq_some_iff.mp wrote
      exact ⟨task, List.mem_of_getElem? found, pending⟩
  | _ => cases wrote

/-- In runs that mark for addressees, what is marked was opened by its addressee. -/
theorem opened_of_marks {start reached : State} {readings : List Reading} (idle : start.tasks = [])
    (meets : EveryStep (readStep codec) (MarksForAddressee codec) start readings)
    (completed : run (readStep codec) start readings = some reached) {key : Nat × Text}
    (marked : MarkedAsRead reached key) :
    MarkedAsRead start key ∨
      SomeStep (readStep codec)
        (fun state reading => ∃ call, Text.upper call = key.2 ∧ Opens key.1 call state reading)
        start readings := by
  have initial : OnlyReads start := fun task listed => by
    rw [idle] at listed
    cases listed
  have traced (state : State) (reading : Reading) (next : State) (key : Nat × Text)
      (reads : OnlyReads state) (stepped : readStep codec state reading = some next)
      (marked : MarkedAsRead next key) :
      Marks codec state reading key ∨ (MarkedAsRead state key ∧ ¬ False) :=
    (markedAsRead_step reads stepped marked).imp_right fun before => ⟨before, not_false⟩
  have waited (state : State) (reading : Reading) (next : State) (key : Nat × Text)
      (stepped : readStep codec state reading = some next) (waits : Waits next key) :
      Opens key.1 key.2 state reading ∨ (Waits state key ∧ ¬ False) :=
    (waits_step stepped waits).imp_right fun before => ⟨before, not_false⟩
  rcases marked_since_of (fun _ _ _ => onlyReads_step) traced initial completed marked with
    ⟨before, _⟩ | ⟨front, reading, back, middle, next, rfl, ran, stepped, marks, _⟩
  · exact .inl before
  right
  obtain ⟨byCall, row, stored, wrote, number, recipient, isPrivate, live⟩ := marks
  have recorded : Text.upper byCall = key.2 :=
    ((meets.behind ran).1 key.1 byCall row wrote stored number isPrivate live).trans recipient
  rcases marked_since waited ran (waits_of_writes wrote) with
    ⟨⟨task, listed, _⟩, _⟩ | ⟨earlier, opening, later, before, _, rfl, reached, _, opens, _⟩
  · rw [idle] at listed
    cases listed
  · rw [List.append_assoc]
    exact SomeStep.of_run reached ⟨byCall, recorded, opens⟩

/-- Read means read by the recipient in exactly the runs that mark private messages for their
addressees only. -/
theorem readMeansReceived_iff (codec : Codec) (store : BBSStore) (recorded : Addressed (begin store))
    (readings : List Reading) :
    ReadMeansReceived codec (begin store) readings ↔
      EveryStep (readStep codec) (MarksForAddressee codec) (begin store) readings := by
  have kept (state : State) (reading : Reading) (next : State)
      (kept : OnlyReads state ∧ Addressed state) (marks : MarksForAddressee codec state reading)
      (stepped : readStep codec state reading = some next) : OnlyReads next ∧ Addressed next :=
    ⟨onlyReads_step kept.1 stepped, addressed_step kept.1 kept.2 marks stepped⟩
  have throughout : Throughout (readStep codec) Addressed (begin store) readings ↔
      EveryStep (readStep codec) (MarksForAddressee codec) (begin store) readings :=
    throughout_iff_everyStep kept (fun _ kept => kept.2) (fun _ _ _ against => not_addressed_step against)
      ⟨fun task listed => absurd listed List.not_mem_nil, recorded⟩ readings
  constructor
  · intro received
    exact throughout.mp received.recorded
  · intro meets
    refine ⟨throughout.mpr meets, fun front reached row ofRun completed listed isPrivate read => ?_, ?_⟩
    · have marked : MarkedAsRead reached (row.id, row.toCall) := ⟨row, listed, rfl, rfl, isPrivate, read⟩
      rcases opened_of_marks rfl (meets.of_prefix ofRun) completed marked with ⟨old, stored, number, _, _, was⟩ | opened
      · left
        have same : old.id = row.id := number
        rw [BBSStore.statusOf, ← same, BBSStore.getMessage_of_mem stored, Option.map_some, was]
      · exact .inr opened
    · refine meets.mono fun state reading marks id byCall row next wrote stored number isPrivate new other => ?_
      refine absurd (marks id byCall row wrote stored number isPrivate ?_) other
      rw [new]
      decide

theorem letter_read :
    ReadMeansReceived bareCodec (begin letterStore)
        [.readAll addressee, .resume 0 today, .resume 0 today] ↔
      EveryStep (readStep bareCodec) (MarksForAddressee bareCodec) (begin letterStore)
        [.readAll addressee, .resume 0 today, .resume 0 today] :=
  readMeansReceived_iff bareCodec letterStore (by
    intro row listed _ read
    cases listed with
    | head => cases read
    | tail _ listed => cases listed) _

/-- A sysop reads a new letter to someone else. -/
theorem letter_read_by_operator :
    ¬ ∀ (codec : Codec) (store : BBSStore), Addressed (begin store) → ∀ readings,
      ReadMeansReceived codec (begin store) readings := by
  intro claimed
  have recorded : Addressed (begin letterStore) := by
    intro row listed _ read
    cases listed with
    | head => cases read
    | tail _ listed => cases listed
  obtain ⟨final, completed, read⟩ := Option.map_eq_some_iff.mp
    (by decide +kernel : (run (readStep bareCodec) (begin letterStore)
      [.read operator [1], .resume 0 today, .resume 0 today]).map
        (fun state => (state.store.getMessage 1).map fun row => (row.msgType, row.status, row.readBy, row.toCall)) =
      some (some (msgPrivate, statusRead, "W3BBS".toList, "N0AAA".toList)))
  obtain ⟨row, found, columns⟩ := Option.map_eq_some_iff.mp read
  have wrong := (claimed bareCodec letterStore recorded _).recorded _ final List.prefix_rfl completed row
    (BBSStore.getMessage_id found).1
  simp only [Prod.mk.injEq] at columns
  obtain ⟨isPrivate, status, reader, recipient⟩ := columns
  rw [reader, recipient] at wrong
  exact absurd (wrong isPrivate status) (by decide)

end PyBulletin.Session.Traffic
