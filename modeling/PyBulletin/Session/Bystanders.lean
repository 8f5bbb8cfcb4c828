import PyBulletin.Session.Integrity

set_option autoImplicit false

namespace PyBulletin.Session.Traffic

open PyBulletin.Foundation
open PyBulletin.Store
open PyBulletin.Forward

/-! # What others cannot do to a message

Nobody but the two parties and the sysops has a command that writes to a message.  Sessions
forward it, and the cleanup deletes it.
-/

/-- The caller neither runs the station nor is a party of the message. -/
structure Caller.Outside (caller : Caller) (row : Row) : Prop where
  isSysop : caller.isSysop = false
  isParty : caller.isParty row = false

/-- The event is no command of a party or a sysop. -/
def FromOutside (row : Row) : Event → Prop
  | .command caller _ => caller.Outside row
  | _ => True

/-- The row has at most been forwarded. -/
def Passed (row now : Row) : Prop :=
  ∃ status path, now = { row with status, forwardPath := path } ∧
    (status = row.status ∨ status = statusForwarded) ∧ Extends row.forwardPath path

theorem Passed.refl (row : Row) : Passed row row :=
  ⟨row.status, row.forwardPath, rfl, .inl rfl, .refl⟩

/-- What is left to decide cannot end in a write to the message. -/
def Decision.Harmless (row : Row) : Decision → Prop
  | .readOne caller _ | .killOne caller _ | .webRead caller _ | .webKill caller _ =>
      caller.Outside row
  | .write (.insert _) => True
  | _ => False

structure Task.Harmless (row : Row) (task : Task) : Prop where
  pending : ∀ op, task.pending = some op → op.target ≠ some row.id
  todo : ∀ decision ∈ task.todo, decision.Harmless row

/-- Nobody is about to write to the message, and it has at most been forwarded. -/
structure Spared (row : Row) (state : State) : Prop where
  issued : row.id ≤ state.store.sequence
  passed : ∀ now ∈ state.store.messages, now.id = row.id → Passed row now
  tasks : ∀ task ∈ state.tasks, task.Harmless row

variable {row : Row} {store : BBSStore} {caller : Caller}

theorem harmless_decisions (outside : caller.Outside row) (command : Command) :
    ∀ decision ∈ command.decisions store caller, decision.Harmless row := by
  have user := outside.isSysop
  cases command with
  | killMine =>
      intro decision listed
      obtain ⟨other, _, rfl⟩ := List.mem_map.mp listed
      exact outside
  | read | kill | webRead | webKill => simp [Command.decisions, Decision.Harmless, outside]
  | send messages => simp [Command.decisions, Decision.Harmless]
  | _ => simp [Command.decisions, user]

/-- The operation is on the message, which the caller may read and kill. -/
def Allowed (store : BBSStore) (caller : Caller) (id : Nat) (op : Operation) : Prop :=
  op.target = some id ∧ ∃ msg, store.getMessage id = some msg ∧ (caller.isParty msg ∨ caller.isSysop)

section Checks

variable {id : Nat} {op : Operation}

theorem readOne_allowed (checked : readOne store caller id = some op) : Allowed store caller id op := by
  rw [readOne] at checked
  cases found : store.getMessage id with
  | none => simp [found] at checked
  | some msg =>
      simp only [found, Option.ite_none_left_eq_some, Option.ite_none_right_eq_some] at checked
      obtain ⟨_, allowed, read, same⟩ := checked
      cases same
      exact ⟨rfl, msg, found, Classical.not_not.mp fun refused => allowed ⟨read.1, refused⟩⟩

theorem killOne_allowed (checked : killOne store caller id = some op) : Allowed store caller id op := by
  rw [killOne] at checked
  cases found : store.getMessage id with
  | none => simp [found] at checked
  | some msg =>
      simp only [found, Option.ite_none_left_eq_some] at checked
      obtain ⟨_, allowed, same⟩ := checked
      cases same
      exact ⟨rfl, msg, found, Classical.not_not.mp allowed⟩

theorem webRead_allowed (checked : webRead store caller id = some op) : Allowed store caller id op := by
  rw [webRead] at checked
  cases found : store.getMessage id with
  | none => simp [found] at checked
  | some msg =>
      simp only [found, Option.ite_none_left_eq_some, Option.ite_none_right_eq_some] at checked
      obtain ⟨_, allowed, read, same⟩ := checked
      cases same
      refine ⟨rfl, msg, found, ?_⟩
      by_cases sysop : caller.isSysop
      · exact .inr sysop
      · exact .inl (by simpa [read.1, sysop] using allowed)

theorem webKill_allowed (checked : webKill store caller id = some op) : Allowed store caller id op := by
  rw [webKill] at checked
  cases found : store.getMessage id with
  | none => simp [found] at checked
  | some msg =>
      simp only [found, Option.ite_none_left_eq_some] at checked
      obtain ⟨allowed, same⟩ := checked
      cases same
      refine ⟨rfl, msg, found, ?_⟩
      by_cases sysop : caller.isSysop
      · exact .inr sysop
      · exact .inl (by simpa [sysop] using allowed)

end Checks

theorem check_harmless {decision : Decision} {op : Operation}
    (passed : ∀ now ∈ store.messages, now.id = row.id → Passed row now)
    (harmless : decision.Harmless row) (checked : decision.check store = some op) :
    op.target ≠ some row.id := by
  have spared {caller : Caller} {id : Nat} (outside : caller.Outside row)
      (allowed : Allowed store caller id op) : op.target ≠ some row.id := by
    obtain ⟨target, msg, found, allowed⟩ := allowed
    obtain ⟨stored, number⟩ := BBSStore.getMessage_id found
    intro same
    cases target.symm.trans same
    obtain ⟨status, path, rfl, _, _⟩ := passed msg stored number
    rcases allowed with party | sysop
    · exact Bool.false_ne_true (outside.isParty.symm.trans party)
    · exact Bool.false_ne_true (outside.isSysop.symm.trans sysop)
  cases decision with
  | readOne caller id => exact spared harmless (readOne_allowed checked)
  | killOne caller id => exact spared harmless (killOne_allowed checked)
  | webRead caller id => exact spared harmless (webRead_allowed checked)
  | webKill caller id => exact spared harmless (webKill_allowed checked)
  | write operation =>
      cases checked
      cases op with
      | insert msg => exact Option.some_ne_none _ |>.symm
      | _ => exact harmless.elim
  | _ => exact harmless.elim

section Steps

variable {codec : Codec} {state next : State} {event : Event}

theorem spared_tasks (spared : Spared row state) (outside : FromOutside row event)
    (stepped : step codec state event = some next) : ∀ task ∈ next.tasks, task.Harmless row := by
  cases event with
  | command caller command =>
      cases stepped
      intro task listed
      rcases List.mem_append.mp listed with old | new
      · exact spared.tasks task old
      · cases List.mem_singleton.mp new
        exact ⟨fun op pending => absurd pending (Option.some_ne_none op).symm, harmless_decisions outside command⟩
  | resume i now =>
      rcases resume_cases stepped with ⟨decision, todo, found, _, rfl⟩ | ⟨op, todo, found, _, rfl⟩
      all_goals
        have before := spared.tasks _ (List.mem_of_getElem? found)
        intro task listed
        rcases List.mem_or_eq_of_mem_set listed with old | rfl
      · exact spared.tasks task old
      · have harmless := before.todo decision List.mem_cons_self
        exact ⟨fun op checked => check_harmless spared.passed harmless checked,
          fun later among => before.todo later (List.mem_cons_of_mem _ among)⟩
      · exact spared.tasks task old
      · exact ⟨fun op pending => absurd pending (Option.some_ne_none op).symm, before.todo⟩
  | connect nodeCall neighbor calling | cleanup cutoffs =>
      cases stepped
      exact spared.tasks
  | arrive i data =>
      obtain ⟨link, _, rfl⟩ := Option.map_eq_some_iff.mp stepped
      exact spared.tasks
  | forward i silence now =>
      rw [step] at stepped
      cases found : state.links[i]? with
      | none => simp [found] at stepped
      | some link =>
          simp only [found] at stepped
          obtain ⟨moved, _, rfl⟩ := Option.map_eq_some_iff.mp stepped
          exact spared.tasks

/-- The rows of the message behind a step are those from before, or a session has forwarded it. -/
theorem spared_row (spared : Spared row state) (stepped : step codec state event = some next)
    {now : Row} (listed : now ∈ next.store.messages) (same : now.id = row.id) :
    now ∈ state.store.messages ∨ Forwards codec state event row.id ∧ Passed row now := by
  cases row_step stepped listed with
  | kept stored => exact .inl stored
  | written op old runs resumed target stored continues =>
      obtain ⟨i, at_, rfl⟩ := resumed
      obtain ⟨task, found, pending⟩ := Option.bind_eq_some_iff.mp runs
      have never := (spared.tasks task (List.mem_of_getElem? found)).pending op pending
      exact absurd (target.trans (congrArg some (continues.id.symm.trans same))) never
  | forwarded old call forwards stored same_ =>
      subst same_
      obtain ⟨status, path, rfl, _, grown⟩ := spared.passed old stored same
      refine .inr ⟨forwards, statusForwarded, _, rfl, .inr rfl, grown.append call⟩
  | sent msg _ new =>
      have number : now.id = state.store.sequence + 1 := new ▸ rfl
      have issued := spared.issued
      omega
  | received msg _ _ new =>
      have number : now.id = state.store.sequence + 1 := new ▸ rfl
      have issued := spared.issued
      omega

theorem spared_step (spared : Spared row state) (outside : FromOutside row event)
    (stepped : step codec state event = some next) : Spared row next where
  issued := spared.issued.trans (sequence_step stepped)
  passed now listed same := by
    rcases spared_row spared stepped listed same with before | ⟨_, passed⟩
    · exact spared.passed now before same
    · exact passed
  tasks := spared_tasks spared outside stepped

end Steps

variable {codec : Codec} {final : State} {events : List Event}

theorem spared_begin (stored : row ∈ store.messages) : Spared row (begin store) where
  issued := store.issued row stored
  passed _ listed same := store.eq_of_id listed stored same ▸ .refl row
  tasks _ listed := absurd listed List.not_mem_nil

theorem spared_run {start : State} (spared : Spared row start)
    (outside : ∀ event ∈ events, FromOutside row event)
    (completed : run (step codec) start events = some final) :
    Spared row final ∧ ∀ now ∈ final.store.messages, now.id = row.id →
      now ∈ start.store.messages ∨
        SomeStep (step codec) (fun state event => Forwards codec state event row.id) start events := by
  induction events generalizing start with
  | nil =>
      cases completed
      exact ⟨spared, fun now listed _ => .inl listed⟩
  | cons event events ih =>
      obtain ⟨next, stepped, rest⟩ := run_cons completed
      have first := outside event List.mem_cons_self
      have others : ∀ event ∈ events, FromOutside row event := fun other among =>
        outside other (List.mem_cons_of_mem _ among)
      obtain ⟨after, rows⟩ := ih (spared_step spared first stepped) others rest
      refine ⟨after, fun now listed same => ?_⟩
      rcases rows now listed same with between | later
      · rcases spared_row spared stepped between same with before | ⟨forwards, _⟩
        · exact .inl before
        · exact .inr (.inl forwards)
      · exact .inr (.inr ⟨next, stepped, later⟩)

/-- As long as only users are at work who are neither parties of the message nor sysops,
however many, it keeps all it had, unless a session forwards it, which sets its status and
appends to its path, or the cleanup deletes it. -/
theorem bystanders_leave {now : Row} (stored : row ∈ store.messages)
    (outside : ∀ event ∈ events, FromOutside row event)
    (completed : run (step codec) (begin store) events = some final)
    (listed : now ∈ final.store.messages) (same : now.id = row.id) :
    Passed row now ∧ (now = row ∨
      SomeStep (step codec) (fun state event => Forwards codec state event row.id) (begin store)
        events) := by
  obtain ⟨spared, rows⟩ := spared_run (spared_begin stored) outside completed
  refine ⟨spared.passed now listed same, (rows now listed same).imp_left fun before => ?_⟩
  exact store.eq_of_id before stored same

def stranger : Caller := ⟨"N0BBB", privUser⟩

def letterRow : Row := BBSStore.empty.inserted letter statusNew

/-- Someone else reads the letter and kills it, without an effect. -/
theorem bystanders_leave_stranger :
    ∃ final, run (step bareCodec) (begin letterStore)
        [.command stranger (.read [1]), .command stranger (.kill [1]), .resume 0 today,
          .resume 1 today] = some final ∧
      ∀ now ∈ final.store.messages, now.id = 1 → Passed letterRow now := by
  have stored : letterRow ∈ letterStore.messages := List.mem_singleton.mpr rfl
  have outside : stranger.Outside letterRow := ⟨by decide, by decide⟩
  obtain ⟨final, completed⟩ := Option.isSome_iff_exists.mp
    (by decide +kernel : (run (step bareCodec) (begin letterStore)
      [.command stranger (.read [1]), .command stranger (.kill [1]), .resume 0 today,
        .resume 1 today]).isSome = true)
  refine ⟨final, completed, fun now listed same => ?_⟩
  refine (bystanders_leave stored (fun event among => ?_) completed listed same).1
  simp only [List.mem_cons, List.not_mem_nil, or_false] at among
  rcases among with rfl | rfl | rfl | rfl
  · exact outside
  · exact outside
  · exact trivial
  · exact trivial

end PyBulletin.Session.Traffic
