import PyBulletin.Session.Lasting
import Mathlib.Logic.Relation

set_option autoImplicit false

namespace PyBulletin.Session.Traffic

open PyBulletin.Foundation
open PyBulletin.Store
open PyBulletin.Forward

/-! # What becomes of a message

A write changes a row in columns that are not its identity, or adds a row under a new
number, or deletes rows.  Where a row of the store comes from is said once, for one step.
-/

/-- The path has been appended to. -/
def Extends : Text → Text → Prop :=
  Relation.ReflTransGen fun path longer => ∃ call, longer = BBSStore.extendedPath path call

theorem Extends.append {path longer : Text} (extends_ : Extends path longer) (call : Text) :
    Extends path (BBSStore.extendedPath longer call) :=
  Relation.ReflTransGen.tail extends_ ⟨call, rfl⟩

/-- The row is the same message later on. -/
structure Continues (row now : Row) : Prop where
  id : now.id = row.id
  bid : now.bid = row.bid
  msgType : now.msgType = row.msgType
  fromCall : now.fromCall = row.fromCall
  createdAt : now.createdAt = row.createdAt
  path : Extends row.forwardPath now.forwardPath

theorem Continues.refl (row : Row) : Continues row row :=
  ⟨rfl, rfl, rfl, rfl, rfl, .refl⟩

theorem Continues.trans {row later now : Row} (first : Continues row later)
    (second : Continues later now) : Continues row now where
  id := second.id.trans first.id
  bid := second.bid.trans first.bid
  msgType := second.msgType.trans first.msgType
  fromCall := second.fromCall.trans first.fromCall
  createdAt := second.createdAt.trans first.createdAt
  path := first.path.trans second.path

/-- The message whose row the operation updates. -/
def Operation.target : Operation → Option Nat
  | .insert _ => none
  | .markRead id _ | .kill id | .hold id | .release id | .markForwarded id | .update id _ _ _ |
    .move id _ _ | .appendPath id _ => some id

/-- What the UPDATE of an operation makes of the row. -/
def Operation.change (now : DateTime) (row : Row) : Operation → Row
  | .insert _ => row
  | .markRead _ byCall =>
      if row.status ≠ statusKilled then
        { row with status := statusRead, readBy := Text.upper byCall, readAt := some now }
      else row
  | .kill _ => { row with status := statusKilled }
  | .hold _ => { row with status := statusHeld }
  | .release _ => { row with status := statusNew }
  | .markForwarded _ => { row with status := statusForwarded }
  | .update _ subject body editedBy => BBSStore.edited subject body editedBy now row
  | .move _ toCall atBbs => { row with toCall, atBbs := Text.upper atBbs }
  | .appendPath _ call => { row with forwardPath := BBSStore.extendedPath row.forwardPath call }

theorem continues_change (now : DateTime) (row : Row) (op : Operation) :
    Continues row (op.change now row) := by
  cases op with
  | markRead id byCall =>
      rw [Operation.change]
      split
      · exact ⟨rfl, rfl, rfl, rfl, rfl, .refl⟩
      · exact .refl row
  | appendPath id call => exact ⟨rfl, rfl, rfl, rfl, rfl, .append .refl call⟩
  | _ => exact ⟨rfl, rfl, rfl, rfl, rfl, .refl⟩

section Operations

variable {store : BBSStore} {row : Row} {op : Operation} {now : DateTime}

theorem apply_update {id : Nat} (target : op.target = some id) :
    op.apply now store = store.update id (fun row => op.change now row)
      fun row => ⟨(continues_change now row op).id, (continues_change now row op).bid⟩ := by
  cases op with
  | insert msg => cases target
  | _ => cases target; rfl

theorem insert_of_target (none_ : op.target = none) : ∃ msg, op = .insert msg := by
  cases op with
  | insert msg => exact ⟨msg, rfl⟩
  | _ => cases none_

/-- A row behind an operation was there, or is one that the operation has written. -/
theorem row_apply (listed : row ∈ (op.apply now store).messages) :
    row ∈ store.messages ∨
      (∃ old ∈ store.messages, op.target = some old.id ∧ Continues old row) ∨
      ∃ msg, op = .insert msg ∧ row = store.inserted msg statusNew := by
  cases target : op.target with
  | none =>
      obtain ⟨msg, rfl⟩ := insert_of_target target
      rw [Operation.apply, BBSStore.insertMessage] at listed
      split at listed
      · rcases List.mem_append.mp listed with kept | new
        · exact .inl kept
        · exact .inr (.inr ⟨msg, rfl, List.mem_singleton.mp new⟩)
      · exact .inl listed
  | some id =>
      rw [apply_update target] at listed
      by_cases same : row.id = id
      · obtain ⟨old, stored, number, rfl⟩ := BBSStore.mem_update_id _ _ listed same
        exact .inr (.inl ⟨old, stored, congrArg some number.symm, continues_change now old op⟩)
      · exact .inl ((BBSStore.mem_update _ _ same).mp listed)

theorem sequence_apply : store.sequence ≤ (op.apply now store).sequence := by
  cases target : op.target with
  | none =>
      obtain ⟨msg, rfl⟩ := insert_of_target target
      rw [Operation.apply, BBSStore.insertMessage]
      split <;> exact Nat.le_succ _
  | some id =>
      rw [apply_update target]
      exact Nat.le_refl _

end Operations

/-- A session serves the neighbour with the call, and the step has the message from it. -/
def Receives (codec : Codec) (state : State) (event : Event) (neighbor : Neighbor) (id : Nat) : Prop :=
  ∃ i silence now link written after, event = .forward i silence now ∧ state.links[i]? = some link ∧
    link.neighbor = neighbor ∧ link.step codec now silence state.store = some (written, after) ∧
    after.received = link.received ++ [id]

/-- A forwarding session marks the message. -/
def Forwards (codec : Codec) (state : State) (event : Event) (id : Nat) : Prop :=
  ∃ i silence now link, event = .forward i silence now ∧ state.links[i]? = some link ∧
    marks codec link = some id

/-- Where a row behind a step comes from. -/
inductive ComesFrom (codec : Codec) (state : State) (event : Event) (row : Row) : Prop where
  | kept (stored : row ∈ state.store.messages)
  | written (op : Operation) (old : Row) (runs : operation codec state event = some op)
      (resumed : ∃ i now, event = .resume i now) (target : op.target = some old.id)
      (stored : old ∈ state.store.messages) (continues : Continues old row)
  | forwarded (old : Row) (call : Text) (forwards : Forwards codec state event old.id)
      (stored : old ∈ state.store.messages)
      (same : row = { old with
        status := statusForwarded, forwardPath := BBSStore.extendedPath old.forwardPath call })
  | sent (msg : Message) (runs : operation codec state event = some (.insert msg))
      (new : row = state.store.inserted msg statusNew)
  | received (msg : Message) (neighbor : Neighbor)
      (receives : Receives codec state event neighbor (state.store.sequence + 1))
      (new : row = { state.store.inserted msg statusNew with
        forwardPath := BBSStore.extendedPath "" neighbor.call })

section Steps

variable {codec : Codec} {state next : State} {event : Event} {row : Row}

theorem row_link {i : Nat} {silence : Silence} {now : DateTime} {link after : ForwardSession}
    {written : BBSStore} (found : state.links[i]? = some link)
    (stepped : link.step codec now silence state.store = some (written, after))
    (listed : row ∈ written.messages) : ComesFrom codec state (.forward i silence now) row := by
  cases (ForwardSession.step_effect stepped).2 with
  | quiet wrote =>
      rw [wrote] at listed
      exact .kept listed
  | sent msg accepted incoming stage wrote =>
      cases encoded : codec.encode link.useB2f msg with
      | none =>
          rw [step_sending stage, ForwardSession.transmitted, encoded] at stepped
          cases stepped
          exact .kept listed
      | some block =>
          have marked : marks codec link = some msg.id := by
            rw [marks, stage]
            exact Option.map_eq_some_iff.mpr ⟨block, encoded, rfl⟩
          rw [wrote] at listed
          by_cases same : row.id = msg.id
          · obtain ⟨middle, among, number, rfl⟩ := BBSStore.mem_appendForwardPath_id listed same
            obtain ⟨old, stored, known, rfl⟩ := BBSStore.mem_markForwarded_id among number
            exact .forwarded old link.nodeCall ⟨i, silence, now, link, rfl, found, known ▸ marked⟩
              stored rfl
          · exact .kept ((BBSStore.mem_markForwarded same).mp
              ((BBSStore.mem_appendForwardPath same).mp listed))
  | received msg inserted messages sequence wrote sent received =>
      rw [wrote] at listed
      by_cases same : row.id = state.store.sequence + 1
      · obtain ⟨new, among, number, rfl⟩ := BBSStore.mem_appendForwardPath_id listed same
        rw [messages] at among
        rcases List.mem_append.mp among with old | last
        · have issued := state.store.issued new old
          omega
        · cases List.mem_singleton.mp last
          exact .received msg link.neighbor
            ⟨i, silence, now, link, written, after, rfl, found, rfl, stepped, received⟩ rfl
      · have among := (BBSStore.mem_appendForwardPath same).mp listed
        rw [messages] at among
        rcases List.mem_append.mp among with old | last
        · exact .kept old
        · cases List.mem_singleton.mp last
          exact absurd rfl same

theorem row_step (stepped : step codec state event = some next) (listed : row ∈ next.store.messages) :
    ComesFrom codec state event row := by
  cases event with
  | command caller command | connect nodeCall neighbor calling =>
      cases stepped
      exact .kept listed
  | arrive i data =>
      obtain ⟨link, _, rfl⟩ := Option.map_eq_some_iff.mp stepped
      exact .kept listed
  | cleanup cutoffs =>
      cases stepped
      exact .kept (List.mem_filter.mp listed).1
  | resume i now =>
      rcases resume_cases stepped with ⟨decision, todo, _, idle, rfl⟩ | ⟨op, todo, _, runs, rfl⟩
      · exact .kept listed
      · rcases row_apply listed with kept | ⟨old, stored, target, continues⟩ | ⟨msg, rfl, new⟩
        · exact .kept kept
        · exact .written op old runs ⟨i, now, rfl⟩ target stored continues
        · exact .sent msg runs new
  | forward i silence now =>
      rw [step] at stepped
      cases found : state.links[i]? with
      | none => simp [found] at stepped
      | some link =>
          simp only [found] at stepped
          obtain ⟨⟨written, after⟩, moved, rfl⟩ := Option.map_eq_some_iff.mp stepped
          exact row_link found moved listed

theorem sequence_link {silence : Silence} {now : DateTime} {link after : ForwardSession}
    {store written : BBSStore} (stepped : link.step codec now silence store = some (written, after)) :
    store.sequence ≤ written.sequence := by
  cases (ForwardSession.step_effect stepped).2 with
  | quiet wrote => rw [wrote]
  | sent msg accepted incoming stage wrote =>
      rw [wrote]
      exact Nat.le_refl _
  | received msg inserted messages sequence wrote =>
      have same : (inserted.appendForwardPath (store.sequence + 1) link.neighbor.call).sequence =
        inserted.sequence := rfl
      rw [wrote, same, sequence]
      exact Nat.le_succ _

theorem sequence_step (stepped : step codec state event = some next) :
    state.store.sequence ≤ next.store.sequence := by
  cases event with
  | command caller command | connect nodeCall neighbor calling | cleanup cutoffs =>
      cases stepped
      exact Nat.le_refl _
  | arrive i data =>
      obtain ⟨link, _, rfl⟩ := Option.map_eq_some_iff.mp stepped
      exact Nat.le_refl _
  | resume i now =>
      rcases resume_cases stepped with ⟨decision, todo, _, idle, rfl⟩ | ⟨op, todo, _, runs, rfl⟩
      · exact Nat.le_refl _
      · exact sequence_apply
  | forward i silence now =>
      rw [step] at stepped
      cases found : state.links[i]? with
      | none => simp [found] at stepped
      | some link =>
          simp only [found] at stepped
          obtain ⟨⟨written, after⟩, moved, rfl⟩ := Option.map_eq_some_iff.mp stepped
          exact sequence_link moved

/-- A row comes from the message that had its number, or has a number of its own. -/
theorem continues_step (stepped : step codec state event = some next)
    (listed : row ∈ next.store.messages) :
    (∃ old ∈ state.store.messages, Continues old row) ∨ row.id = state.store.sequence + 1 := by
  cases row_step stepped listed with
  | kept stored => exact .inl ⟨row, stored, .refl row⟩
  | written op old _ _ _ stored continues => exact .inl ⟨old, stored, continues⟩
  | forwarded old call _ stored same =>
      rw [same]
      exact .inl ⟨old, stored, rfl, rfl, rfl, rfl, rfl, .append .refl call⟩
  | sent msg _ new => exact .inr (new ▸ rfl)
  | received msg _ _ new => exact .inr (new ▸ rfl)

end Steps

/-- The store holds, later on, what the earlier one held, and new messages under new numbers. -/
structure Later (earlier later : BBSStore) : Prop where
  sequence : earlier.sequence ≤ later.sequence
  rows : ∀ row ∈ later.messages, row.id ≤ earlier.sequence →
    ∃ old ∈ earlier.messages, Continues old row

theorem Later.refl (store : BBSStore) : Later store store :=
  ⟨Nat.le_refl _, fun row stored _ => ⟨row, stored, .refl row⟩⟩

theorem Later.trans {earlier middle later : BBSStore} (first : Later earlier middle)
    (second : Later middle later) : Later earlier later := by
  refine ⟨first.sequence.trans second.sequence, fun row listed issued => ?_⟩
  obtain ⟨between, stored, continues⟩ := second.rows row listed (issued.trans first.sequence)
  obtain ⟨old, before, since⟩ := first.rows between stored (continues.id ▸ issued)
  exact ⟨old, before, since.trans continues⟩

section Runs

variable {codec : Codec} {start final : State} {events : List Event} {row : Row}

theorem later_step {state next : State} {event : Event} (stepped : step codec state event = some next) :
    Later state.store next.store := by
  refine ⟨sequence_step stepped, fun row listed issued => ?_⟩
  rcases continues_step stepped listed with old | new
  · exact old
  · omega

/-- Whoever writes to the store and in whatever order, a number that has been given out stays
with its message, and what the message is does not change. -/
theorem numbers_permanent (completed : run (step codec) start events = some final) :
    Later start.store final.store := by
  refine @run_preserves _ _ _ (fun state => Later start.store state.store) ?_ start final events
    (.refl start.store) completed
  intro state event next held stepped
  exact held.trans (later_step stepped)

end Runs

/-- The addressee kills the letter. -/
theorem numbers_permanent_killed :
    ∃ final, run (step bareCodec) (begin letterStore)
        [.command addressee (.kill [1]), .resume 0 today, .resume 0 today] = some final ∧
      Later letterStore final.store := by
  obtain ⟨final, completed⟩ := Option.isSome_iff_exists.mp
    (by decide +kernel : (run (step bareCodec) (begin letterStore)
      [.command addressee (.kill [1]), .resume 0 today, .resume 0 today]).isSome = true)
  exact ⟨final, completed, numbers_permanent completed⟩

end PyBulletin.Session.Traffic
