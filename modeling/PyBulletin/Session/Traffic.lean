import PyBulletin.Forward.Effect
import PyBulletin.Foundation.Run

set_option autoImplicit false

namespace PyBulletin.Session.Traffic

open PyBulletin.Foundation
open PyBulletin.Store
open PyBulletin.Forward

/-! # Commands, requests and forwarding sessions on one store

A front end looks at a message first and writes to the store later; what the others do
in between is not looked at again.  A step is what runs between two suspensions of the
program.
-/

/-- The user of a terminal session or of a web session. -/
structure Caller where
  call : Text
  privilege : Text
deriving DecidableEq

namespace Caller

def isSysop (caller : Caller) : Bool := caller.privilege = privSysop

/-- `call in (msg.from_call, msg.to_call)` -/
def isParty (caller : Caller) (msg : Row) : Bool :=
  caller.call = msg.fromCall ∨ caller.call = msg.toCall

end Caller

/-- The calls of the store that write to `messages`. -/
inductive Operation where
  | insert (msg : Message)
  | markRead (id : Nat) (byCall : Text)
  | kill (id : Nat)
  | hold (id : Nat)
  | release (id : Nat)
  | markForwarded (id : Nat)
  | update (id : Nat) (subject body editedBy : Text)
  | move (id : Nat) (toCall atBbs : Text)
  | appendPath (id : Nat) (call : Text)

def Operation.apply (now : DateTime) (store : BBSStore) : Operation → BBSStore
  | .insert msg => (store.insertMessage msg statusNew).1
  | .markRead id byCall => store.markRead id byCall now
  | .kill id => store.killMessage id
  | .hold id => store.holdMessage id
  | .release id => store.releaseMessage id
  | .markForwarded id => store.markForwarded id
  | .update id subject body editedBy => store.updateMessage id subject body editedBy now
  | .move id toCall atBbs => store.moveMessage id toCall atBbs
  | .appendPath id call => store.appendForwardPath id call

/-! Each function is the part of a handler up to its write to the store, which it returns,
unless the handler ends without one.
-/

section Checks

variable (store : BBSStore) (caller : Caller) (id : Nat)

/-- `CommandEngine._read_one`, up to the end of the pager. -/
def readOne : Option Operation :=
  match store.getMessage id with
  | none => none
  | some msg =>
      if msg.status = statusKilled then none
      else if msg.msgType = msgPrivate ∧ ¬ (caller.isParty msg ∨ caller.isSysop) then none
      else if msg.msgType = msgPrivate ∧ msg.status = statusNew then some (.markRead id caller.call)
      else none

/-- `CommandEngine._kill_one` -/
def killOne : Option Operation :=
  match store.getMessage id with
  | none => none
  | some msg =>
      if msg.status = statusHeld then none
      else if ¬ (caller.isParty msg ∨ caller.isSysop) then none
      else some (.kill id)

/-- `_cmd_edit_terminal` and `_cmd_edit_body`; `none` keeps the subject or the body. -/
def editTerminal (subject body : Option Text) : Option Operation :=
  match store.getMessage id with
  | none => none
  | some msg =>
      if msg.status = statusKilled then none
      else some (.update id (subject.getD msg.subject) (body.getD msg.body) caller.call)

/-- `_cmd_move` -/
def moveOne (toCall atBbs : Text) : Option Operation :=
  (store.getMessage id).map fun _ => .move id toCall atBbs

/-- `_cmd_forward_drop` -/
def dropForward (bbs : Text) : Option Operation :=
  (store.getMessage id).map fun _ => .appendPath id bbs

/-- `WebApp._read_message` -/
def webRead : Option Operation :=
  match store.getMessage id with
  | none => none
  | some msg =>
      if msg.status = statusKilled ∧ ¬ caller.isSysop then none
      else if msg.msgType = msgPrivate ∧ ¬ caller.isSysop ∧ ¬ caller.isParty msg then none
      else if msg.msgType = msgPrivate ∧ msg.status = statusNew then some (.markRead id caller.call)
      else none

/-- `WebApp._kill_message` -/
def webKill : Option Operation :=
  match store.getMessage id with
  | none => none
  | some msg => if ¬ caller.isSysop ∧ ¬ caller.isParty msg then none else some (.kill id)

/-- `WebApp._edit_message`, after the check on the privilege. -/
def webEdit (subject body : Option Text) : Option Operation :=
  match store.getMessage id with
  | none => none
  | some msg =>
      let subject := Text.strip (subject.getD msg.subject)
      if subject = [] then none
      else some (.update id subject (body.getD msg.body) caller.call)

end Checks

/-- What a front end is about to look at. -/
inductive Decision where
  | readOne (caller : Caller) (id : Nat)
  | killOne (caller : Caller) (id : Nat)
  | killListed (msg : Row)
  | editTerminal (caller : Caller) (id : Nat) (subject body : Option Text)
  | moveOne (id : Nat) (toCall atBbs : Text)
  | dropForward (id : Nat) (bbs : Text)
  | webRead (caller : Caller) (id : Nat)
  | webKill (caller : Caller) (id : Nat)
  | webEdit (caller : Caller) (id : Nat) (subject body : Option Text)
  | write (operation : Operation)

/-- The operation that comes out.  A listed message is checked as it was listed, and
holding, releasing and sending check no message at all. -/
def Decision.check (store : BBSStore) : Decision → Option Operation
  | .readOne caller id => Traffic.readOne store caller id
  | .killOne caller id => Traffic.killOne store caller id
  | .killListed msg => if msg.status ≠ statusKilled then some (.kill msg.id) else none
  | .editTerminal caller id subject body => Traffic.editTerminal store caller id subject body
  | .moveOne id toCall atBbs => Traffic.moveOne store id toCall atBbs
  | .dropForward id bbs => Traffic.dropForward store id bbs
  | .webRead caller id => Traffic.webRead store caller id
  | .webKill caller id => Traffic.webKill store caller id
  | .webEdit caller id subject body => Traffic.webEdit store caller id subject body
  | .write operation => some operation

/-- The criteria of `_cmd_kill_bulk`. -/
inductive Bulk where
  | fromCall (call : Text)
  | toCall (call : Text)
  | atBbs (bbs : Text)
  | forwarded
  | ofType (msgType : Text)

/-- The test of the `list_messages` for a criterion. -/
def Bulk.lists (row : Row) : Bulk → Bool
  | .fromCall call => row.fromCall = Text.upper call ∧ row.status ≠ statusKilled
  | .toCall call => row.toCall = Text.upper call ∧ row.status ≠ statusKilled
  | .atBbs bbs => Text.upper row.atBbs = Text.upper bbs ∧ row.status ≠ statusKilled
  | .forwarded => row.status = statusForwarded
  | .ofType msgType => row.msgType = msgType ∧ row.status ≠ statusKilled

/-- What a user types at a terminal, or requests by web. -/
inductive Command where
  | read (ids : List Nat)
  | kill (ids : List Nat)
  | killMine
  | killBulk (bulk : Bulk)
  | hold (ids : List Nat)
  | release (ids : List Nat)
  | edit (id : Nat) (subject body : Option Text)
  | move (id : Nat) (toCall atBbs : Text)
  | dropForward (id : Nat) (bbs : Text)
  | send (messages : List Message)
  | webRead (id : Nat)
  | webKill (id : Nat)
  | webHold (id : Nat)
  | webRelease (id : Nat)
  | webEdit (id : Nat) (subject body : Option Text)

/-- What a command goes through; nothing where the caller may not give it. -/
def Command.decisions (store : BBSStore) (caller : Caller) : Command → List Decision
  | .read ids => ids.map (.readOne caller)
  | .kill ids => ids.map (.killOne caller)
  | .killMine =>
      (store.messages.filter fun row => row.toCall = Text.upper caller.call ∧
        row.msgType = msgPrivate ∧ row.status ≠ statusKilled).map fun row => .killOne caller row.id
  | .killBulk bulk =>
      if caller.isSysop then (store.messages.filter bulk.lists).map .killListed else []
  | .hold ids => if caller.isSysop then ids.map fun id => .write (.hold id) else []
  | .release ids => if caller.isSysop then ids.map fun id => .write (.release id) else []
  | .edit id subject body => if caller.isSysop then [.editTerminal caller id subject body] else []
  | .move id toCall atBbs => if caller.isSysop then [.moveOne id toCall atBbs] else []
  | .dropForward id bbs => if caller.isSysop then [.dropForward id bbs] else []
  | .send messages =>
      messages.map fun msg => .write (.insert { msg with fromCall := caller.call })
  | .webRead id => [.webRead caller id]
  | .webKill id => [.webKill caller id]
  | .webHold id => if caller.isSysop then [.write (.hold id)] else []
  | .webRelease id => if caller.isSysop then [.write (.release id)] else []
  | .webEdit id subject body => if caller.isSysop then [.webEdit caller id subject body] else []

/-- A command under way: the write it has decided on and waits to make, and what it has
not looked at yet. -/
structure Task where
  pending : Option Operation := none
  todo : List Decision

structure State where
  store : BBSStore
  tasks : List Task
  links : List ForwardSession

inductive Event where
  | command (caller : Caller) (command : Command)
  | resume (task : Nat) (now : DateTime)
  | connect (nodeCall : Text) (neighbor : Neighbor) (calling : Bool)
  | arrive (link : Nat) (data : Bytes)
  | forward (link : Nat) (silence : Silence) (now : DateTime)
  | cleanup (cutoffs : BBSStore.Cutoffs)

variable (codec : Codec)

def step (state : State) : Event → Option State
  | .command caller command =>
      some { state with
        tasks := state.tasks ++ [{ todo := command.decisions state.store caller }] }
  | .resume i now =>
      match state.tasks[i]? with
      | none => none
      | some { pending := some operation, todo } =>
          some { state with
            store := operation.apply now state.store
            tasks := state.tasks.set i { todo } }
      | some { pending := none, todo := decision :: todo } =>
          some { state with
            tasks := state.tasks.set i { pending := decision.check state.store, todo } }
      | some { pending := none, todo := [] } => none
  | .connect nodeCall neighbor caller =>
      some { state with links := state.links ++ [{ nodeCall, neighbor, caller }] }
  | .arrive i data =>
      (state.links[i]?).map fun link =>
        { state with links := state.links.set i { link with inbox := link.inbox ++ data } }
  | .forward i silence now =>
      match state.links[i]? with
      | none => none
      | some link =>
          (link.step codec now silence state.store).map fun (store, link) =>
            { state with store, links := state.links.set i link }
  | .cleanup cutoffs => some { state with store := state.store.cleanupExpired cutoffs }

def begin (store : BBSStore) : State := ⟨store, [], []⟩

/-- The message that the next step of a forwarding session marks. -/
def marks (link : ForwardSession) : Option Nat :=
  match link.stage with
  | .sending (msg :: _) _ => (codec.encode link.useB2f msg).map fun _ => msg.id
  | _ => none

/-- The operation on an existing message that an event runs. -/
def operation (state : State) : Event → Option Operation
  | .resume i _ => (state.tasks[i]?).bind Task.pending
  | .forward i _ _ => ((state.links[i]?).bind (marks codec)).map .markForwarded
  | _ => none

/-- The status of message `id` after an operation, where it was `status`. -/
def Operation.status (id : Nat) (status : Text) : Operation → Text
  | .markRead target _ =>
      if id = target then if status ≠ statusKilled then statusRead else status else status
  | .kill target => if id = target then statusKilled else status
  | .hold target => if id = target then statusHeld else status
  | .release target => if id = target then statusNew else status
  | .markForwarded target => if id = target then statusForwarded else status
  | _ => status

variable {codec} {store : BBSStore} {state next : State} {event : Event} {id : Nat} {status : Text}

theorem status_apply (known : store.statusOf id = some status) (now : DateTime)
    (operation : Operation) :
    (operation.apply now store).statusOf id = some (operation.status id status) := by
  cases operation with
  | insert msg => exact BBSStore.statusOf_insertMessage known msg statusNew
  | markRead target byCall => exact BBSStore.statusOf_markRead known byCall now
  | kill target => exact BBSStore.statusOf_updateMessageStatus known statusKilled
  | hold target => exact BBSStore.statusOf_updateMessageStatus known statusHeld
  | release target => exact BBSStore.statusOf_updateMessageStatus known statusNew
  | markForwarded target => exact BBSStore.statusOf_updateMessageStatus known statusForwarded
  | update target subject body editedBy =>
      exact BBSStore.statusOf_updateMessage known target subject body editedBy now
  | move target toCall atBbs => exact BBSStore.statusOf_moveMessage known target toCall atBbs
  | appendPath target call => exact BBSStore.statusOf_appendForwardPath known target call

section Links

variable {link after : ForwardSession} {now : DateTime} {silence : Silence} {written : BBSStore}

theorem marks_cases {target : Nat} (marked : marks codec link = some target) :
    ∃ msg accepted incoming block, link.stage = .sending (msg :: accepted) incoming ∧
      codec.encode link.useB2f msg = some block ∧ msg.id = target := by
  rw [marks] at marked
  split at marked
  · rename_i msg accepted incoming stage
    obtain ⟨block, encoded, same⟩ := Option.map_eq_some_iff.mp marked
    exact ⟨msg, accepted, incoming, block, stage, encoded, same⟩
  · cases marked

theorem step_sending {msg : Row} {accepted : List Row} {incoming : List Proposal}
    (stage : link.stage = .sending (msg :: accepted) incoming) :
    link.step codec now silence store =
      some ((link.transmitted codec store msg).1,
        { (link.transmitted codec store msg).2 with stage := .sending accepted incoming }) := by
  cases link
  cases stage
  rfl

theorem step_marked {target : Nat} (marked : marks codec link = some target) :
    ∃ after, link.step codec now silence store =
      some ((store.markForwarded target).appendForwardPath target link.nodeCall, after) := by
  obtain ⟨msg, accepted, incoming, block, stage, encoded, rfl⟩ := marks_cases marked
  rw [step_sending stage, ForwardSession.transmitted, encoded]
  exact ⟨_, rfl⟩

theorem status_link (known : store.statusOf id = some status)
    (stepped : link.step codec now silence store = some (written, after)) :
    written.statusOf id = some
      (((marks codec link).map Operation.markForwarded).elim status (Operation.status id status)) := by
  cases marked : marks codec link with
  | some target =>
      obtain ⟨other, same⟩ := @step_marked codec store link now silence target marked
      rw [same] at stepped
      cases stepped
      exact BBSStore.statusOf_appendForwardPath
        (BBSStore.statusOf_updateMessageStatus known statusForwarded) target link.nodeCall
  | none =>
      cases (ForwardSession.step_effect stepped).2 with
      | quiet wrote => rw [wrote, known]; rfl
      | sent msg accepted incoming stage =>
          have failed : codec.encode link.useB2f msg = none := by
            simpa [marks, stage] using marked
          rw [step_sending stage, ForwardSession.transmitted, failed] at stepped
          cases stepped
          exact known
      | received msg inserted messages sequence wrote =>
          rw [wrote]
          exact BBSStore.statusOf_appendForwardPath (BBSStore.statusOf_append known messages) _ _

end Links

/-- A task that goes on writes what it has decided, or decides again on the store as it is. -/
theorem resume_cases {i : Nat} {now : DateTime}
    (stepped : step codec state (.resume i now) = some next) :
    (∃ decision todo, state.tasks[i]? = some { pending := none, todo := decision :: todo } ∧
      operation codec state (.resume i now) = none ∧
      next = { state with
        tasks := state.tasks.set i { pending := decision.check state.store, todo } }) ∨
    (∃ op todo, state.tasks[i]? = some { pending := some op, todo } ∧
      operation codec state (.resume i now) = some op ∧
      next = { state with
        store := op.apply now state.store, tasks := state.tasks.set i { todo } }) := by
  rw [step] at stepped
  rw [operation]
  cases found : state.tasks[i]? with
  | none => simp [found] at stepped
  | some task =>
      obtain ⟨pending, todo⟩ := task
      cases pending with
      | some op =>
          simp only [found] at stepped
          cases stepped
          exact .inr ⟨op, todo, rfl, rfl, rfl⟩
      | none =>
          cases todo with
          | nil => simp [found] at stepped
          | cons decision todo =>
              simp only [found] at stepped
              cases stepped
              exact .inl ⟨decision, todo, rfl, rfl, rfl⟩

/-- Every step but a cleanup leaves a message with the status that its operation gives. -/
theorem status_step (known : state.store.statusOf id = some status)
    (stepped : step codec state event = some next) (kept : ∀ cutoffs, event ≠ .cleanup cutoffs) :
    next.store.statusOf id =
      some ((operation codec state event).elim status (Operation.status id status)) := by
  cases event with
  | command caller command =>
      cases stepped
      exact known
  | resume i now =>
      rcases resume_cases stepped with ⟨decision, todo, _, idle, rfl⟩ | ⟨op, todo, _, runs, rfl⟩
      · rw [idle]
        exact known
      · rw [runs]
        exact status_apply known now op
  | connect nodeCall neighbor calling =>
      cases stepped
      exact known
  | arrive i data =>
      obtain ⟨link, _, rfl⟩ := Option.map_eq_some_iff.mp stepped
      exact known
  | forward i silence now =>
      rw [step] at stepped
      rw [operation]
      cases found : state.links[i]? with
      | none => simp [found] at stepped
      | some link =>
          simp only [found] at stepped
          obtain ⟨⟨written, after⟩, moved, rfl⟩ := Option.map_eq_some_iff.mp stepped
          exact status_link known moved
  | cleanup cutoffs => exact absurd rfl (kept cutoffs)

/-- An event that runs an operation is enabled. -/
theorem step_operation {op : Operation} (runs : operation codec state event = some op) :
    ∃ next, step codec state event = some next := by
  cases event with
  | resume i now =>
      obtain ⟨⟨pending, todo⟩, found, same⟩ := Option.bind_eq_some_iff.mp runs
      cases same
      exact Option.isSome_iff_exists.mp (by simp only [step, found, Option.isSome_some])
  | forward i silence now =>
      obtain ⟨target, marked, _⟩ := Option.map_eq_some_iff.mp runs
      obtain ⟨link, found, same⟩ := Option.bind_eq_some_iff.mp marked
      obtain ⟨after, stepped⟩ := @step_marked codec state.store link now silence target same
      exact Option.isSome_iff_exists.mp
        (by simp only [step, found, stepped, Option.map_some, Option.isSome_some])
  | command caller command => cases runs
  | connect nodeCall neighbor calling => cases runs
  | arrive i data => cases runs
  | cleanup cutoffs => cases runs

/-- The status lasts through a step, or the step is allowed to end it. -/
def Keeps (codec : Codec) (status : Text) (Frees : State → Event → Nat → Prop) (state : State)
    (event : Event) : Prop :=
  ∀ next id, step codec state event = some next → state.store.statusOf id = some status →
    next.store.statusOf id = some status ∨ Frees state event id

/-- Outside of cleanups, what ends a status is the operation on a message that has it. -/
theorem keeps_iff {Frees : State → Event → Nat → Prop}
    (cleaned : ∀ cutoffs state id, state.store.statusOf id = some status →
      (state.store.cleanupExpired cutoffs).statusOf id = some status ∨
        Frees state (.cleanup cutoffs) id) :
    Keeps codec status Frees state event ↔
      ∀ op id, operation codec state event = some op → state.store.statusOf id = some status →
        op.status id status = status ∨ Frees state event id := by
  constructor
  · intro keeps op id runs known
    obtain ⟨next, stepped⟩ := step_operation runs
    have written := status_step known stepped fun cutoffs same => by
      subst same
      cases runs
    rw [runs] at written
    rcases keeps next id stepped known with kept | freed
    · exact .inl (Option.some.inj (written.symm.trans kept))
    · exact .inr freed
  · intro meets next id stepped known
    by_cases cleanup : ∃ cutoffs, event = .cleanup cutoffs
    · obtain ⟨cutoffs, rfl⟩ := cleanup
      cases stepped
      exact cleaned cutoffs state id known
    · have written := status_step known stepped fun cutoffs same => cleanup ⟨cutoffs, same⟩
      cases runs : operation codec state event with
      | none =>
          rw [runs] at written
          exact .inl written
      | some op =>
          rw [runs] at written
          rcases meets op id runs known with kept | freed
          · exact .inl (written.trans (congrArg some kept))
          · exact .inr freed

end PyBulletin.Session.Traffic
