import PyBulletin.Forward.Effect
import PyBulletin.Foundation.Run
import Mathlib.Data.List.Basic

set_option autoImplicit false

namespace PyBulletin.Forward

open PyBulletin.Foundation
open PyBulletin.Store

/-- The messages of a session that are chosen and not sent yet. -/
def Stage.toGo : Stage → List Row
  | .proposing outgoing _ | .awaitingFs outgoing => outgoing
  | .collecting accepted _ | .responding accepted _ | .sending accepted _ => accepted
  | _ => []

/-- `_select_outgoing` has run. -/
def Stage.chosen : Stage → Bool
  | .greeting | .awaitingSid | .awaitingPrompt | .prompting | .selecting => false
  | _ => true

namespace ForwardSession

/-- What a session has sent and is to send. -/
def plan (session : ForwardSession) : List Nat :=
  session.sent ++ session.stage.toGo.map Row.id

/-- The other side accepts every proposal, and every block can be written. -/
def accepts (codec : Codec) (silence : Silence) (session : ForwardSession) : Bool :=
  match session.stage with
  | .awaitingFs outgoing =>
      match readLine silence session.inbox with
      | .line text _ =>
          (List.range outgoing.length).all fun i => (parseFsResponse text)[i]? = some '+'
      | _ => true
  | .sending (msg :: _) _ => (codec.encode session.useB2f msg).isSome
  | _ => true

theorem acceptedOut_all {outgoing : List Row} {responses : List Char}
    (all : ∀ i < outgoing.length, responses[i]? = some '+') :
    acceptedOut outgoing responses = outgoing := by
  have each : ∀ entry ∈ outgoing.zipIdx,
      (if responses[entry.2]? = some '+' then some entry.1 else none) = some entry.1 := by
    intro entry listed
    rw [if_pos (all entry.2 (List.snd_lt_of_mem_zipIdx listed))]
  rw [acceptedOut]
  exact (List.filterMap_congr each).trans (by rw [List.filterMap_eq_map', List.zipIdx_map_fst])

variable {codec : Codec} {now : DateTime} {silence : Silence} {store next : BBSStore}
  {session after : ForwardSession}

theorem Effect.sent_early (effect : Effect store next session after)
    (early : session.stage.chosen = false) : after.sent = session.sent := by
  cases effect with
  | quiet _ sent => exact sent
  | sent _ _ _ stage => simp [stage, Stage.chosen] at early
  | received _ _ _ _ _ sent => exact sent

/-- How one step moves the plan of a session, if the other side accepts. -/
inductive Planned (store next : BBSStore) (session after : ForwardSession) : Prop where
  | broken (returned : after.stage.returned) (open_ : after.stage ≠ .finished)
  | early (early : session.stage.chosen = false) (later : after.stage.chosen = false)
  | choosing (early : session.stage.chosen = false) (later : after.stage.chosen)
      (same : next = store)
      (chosen : after.stage.toGo = selectOutgoing session.nodeCall session.neighbor store)
  | late (early : session.stage.chosen) (later : after.stage.chosen)
      (same : after.plan = session.plan)

theorem plan_congr (sent : after.sent = session.sent)
    (toGo : after.stage.toGo = session.stage.toGo) : after.plan = session.plan := by
  rw [plan, plan, sent, toGo]

theorem step_planned (accepting : accepts codec silence session)
    (stepped : step codec now silence store session = some (next, after)) :
    Planned store next session after := by
  cases at_ : session.stage with
  | greeting | prompting =>
      simp only [step, at_, Option.some.injEq, Prod.mk.injEq] at stepped
      obtain ⟨rfl, rfl⟩ := stepped
      exact .early (by rw [at_]; rfl) rfl
  | awaitingSid =>
      obtain ⟨_, ⟨rest, _, rfl⟩ | ⟨text, rest, _, rfl⟩⟩ :=
        read_cases (reads_awaitingSid at_) stepped
      · exact .broken rfl (by simp)
      · refine .early (by rw [at_]; rfl) ?_
        simp only [greeted]
        split <;> rfl
  | awaitingPrompt =>
      obtain ⟨_, ⟨rest, _, rfl⟩ | ⟨text, rest, _, rfl⟩⟩ :=
        read_cases (reads_awaitingPrompt at_) stepped
      · exact .broken rfl (by simp)
      · by_cases none_ : text = []
        · refine .broken ?_ ?_ <;> simp [prompted, none_, Stage.returned]
        · refine .early (by rw [at_]; rfl) ?_
          simp only [prompted, if_neg none_]
          split <;> rfl
  | selecting =>
      simp only [step, at_, Option.some.injEq, Prod.mk.injEq] at stepped
      obtain ⟨rfl, rfl⟩ := stepped
      exact .choosing (by rw [at_]; rfl) rfl rfl rfl
  | proposing outgoing left =>
      cases left <;> simp only [step, at_, Option.some.injEq, Prod.mk.injEq] at stepped <;>
        obtain ⟨rfl, rfl⟩ := stepped <;>
        exact .late (by rw [at_]; rfl) rfl (plan_congr rfl (by rw [at_]; rfl))
  | awaitingFs outgoing =>
      obtain ⟨_, ⟨rest, _, rfl⟩ | ⟨text, rest, line, rfl⟩⟩ :=
        read_cases (reads_awaitingFs at_) stepped
      · exact .broken rfl (by simp)
      · have all : ∀ i < outgoing.length, (parseFsResponse text)[i]? = some '+' := by
          simpa [accepts, at_, line] using accepting
        exact .late (by rw [at_]; rfl) rfl
          (plan_congr rfl (by rw [at_]; exact acceptedOut_all all))
  | collecting accepted incoming =>
      obtain ⟨_, ⟨rest, _, rfl⟩ | ⟨text, rest, _, rfl⟩⟩ :=
        read_cases (reads_collecting at_) stepped
      · exact .broken rfl (by simp)
      · have goesOn : (({ session with inbox := rest }).collected accepted incoming text).stage =
            .responding accepted incoming ∨
            ∃ more, (({ session with inbox := rest }).collected accepted incoming text).stage =
              .collecting accepted more := by
          simp only [collected]
          split
          · exact .inl rfl
          · split
            · exact .inr ⟨_, rfl⟩
            · exact .inr ⟨_, rfl⟩
        rcases goesOn with same | ⟨more, same⟩
        · exact .late (by rw [at_]; rfl) (by rw [same]; rfl) (plan_congr rfl (by rw [same, at_]; rfl))
        · exact .late (by rw [at_]; rfl) (by rw [same]; rfl) (plan_congr rfl (by rw [same, at_]; rfl))
  | responding accepted incoming =>
      cases incoming <;> simp only [step, at_, Option.some.injEq, Prod.mk.injEq] at stepped <;>
        obtain ⟨rfl, rfl⟩ := stepped <;>
        exact .late (by rw [at_]; rfl) rfl (plan_congr rfl (by rw [at_]; rfl))
  | sending accepted incoming =>
      cases accepted with
      | nil =>
          simp only [step, at_, Option.some.injEq, Prod.mk.injEq] at stepped
          obtain ⟨rfl, rfl⟩ := stepped
          exact .late (by rw [at_]; rfl) rfl (plan_congr rfl (by rw [at_]; rfl))
      | cons msg accepted =>
          rw [accepts, at_] at accepting
          obtain ⟨block, encoded⟩ := Option.isSome_iff_exists.mp accepting
          simp only [step, at_, transmitted, encoded, Option.some.injEq, Prod.mk.injEq] at stepped
          obtain ⟨rfl, rfl⟩ := stepped
          refine .late (by rw [at_]; rfl) rfl ?_
          simp [plan, at_, Stage.toGo]
  | receiving left =>
      cases left with
      | nil =>
          simp only [step, at_, Option.some.injEq, Prod.mk.injEq] at stepped
          obtain ⟨rfl, rfl⟩ := stepped
          exact .late (by rw [at_]; rfl) rfl (plan_congr rfl (by rw [at_]; rfl))
      | cons prop left =>
          obtain ⟨_, ⟨rest, _, rfl⟩ | ⟨text, rest, _, rfl⟩⟩ :=
            read_cases (reads_receiving at_) stepped
          · exact .late (by rw [at_]; rfl) rfl (plan_congr rfl (by rw [at_]; rfl))
          · rcases headed_cases { session with inbox := rest } prop left text with
              same | ⟨_, binary, size, same⟩
            · rw [same]
              exact .late (by rw [at_]; rfl) rfl (plan_congr rfl (by rw [at_]; rfl))
            · rw [same]
              exact .late (by rw [at_]; rfl) rfl (plan_congr rfl (by rw [at_]; rfl))
  | receivingData binary size prop left =>
      simp only [step, at_] at stepped
      cases found : readExactly silence size session.inbox with
      | waiting => simp [found] at stepped
      | failed rest =>
          simp only [found, Option.some.injEq, Prod.mk.injEq] at stepped
          obtain ⟨rfl, rfl⟩ := stepped
          exact .late (by rw [at_]; rfl) rfl (plan_congr rfl (by rw [at_]; rfl))
      | data data rest =>
          simp only [found, Option.some.injEq] at stepped
          rcases stored_cases codec store
            { session with inbox := rest, stage := .receivingData binary size prop left }
            binary data prop left with same | failed | ⟨msg, id, inserted, _, same⟩
          · rw [same] at stepped
            cases stepped
            exact .late (by rw [at_]; rfl) rfl (plan_congr rfl (by rw [at_]; rfl))
          · rw [stepped] at failed
            exact .broken (by rw [failed]; rfl) (by rw [failed]; simp)
          · rw [same] at stepped
            cases stepped
            exact .late (by rw [at_]; rfl) rfl (plan_congr rfl (by rw [at_]; rfl))
  | quitting =>
      simp only [step, at_, Option.some.injEq, Prod.mk.injEq] at stepped
      obtain ⟨rfl, rfl⟩ := stepped
      exact .late (by rw [at_]; rfl) rfl (plan_congr rfl (by rw [at_]; rfl))
  | finished | aborted | failed => simp [step, at_] at stepped

end ForwardSession

/-- A pass: the neighbours still to come, the session that is under way, and those that are
over. -/
structure Pass where
  store : BBSStore
  left : List Neighbor
  session : Option ForwardSession
  served : List ForwardSession

namespace Pass

inductive Event where
  | turn
  | arrive (data : Bytes)
  | advance (now : DateTime) (silence : Silence)
  | close

/-- The pass begins with the enabled neighbours in the order of the configuration. -/
def start (enabled : Bool) (neighbors : List Neighbor) (store : BBSStore) : Pass where
  store
  left := if enabled then neighbors.filter Neighbor.enabled else []
  session := none
  served := []

variable (codec : Codec) (nodeCall : Text) (due : Neighbor → Bool)

/-- `due` is whether the neighbour's schedule matches when its turn comes and a connection
comes about. -/
def step (pass : Pass) : Event → Option Pass
  | .turn =>
      match pass.session, pass.left with
      | none, neighbor :: left =>
          some { pass with
            left
            session := if due neighbor then some { nodeCall, neighbor, caller := true } else none }
      | _, _ => none
  | .arrive data =>
      pass.session.map fun session =>
        { pass with session := some { session with inbox := session.inbox ++ data } }
  | .advance now silence =>
      pass.session.bind fun session =>
        (ForwardSession.step codec now silence pass.store session).map fun (store, session) =>
          { pass with store, session := some session }
  | .close =>
      pass.session.bind fun session =>
        if session.stage.returned then
          some { pass with session := none, served := pass.served ++ [session] }
        else none

/-- `run_once` has returned. -/
def returned (pass : Pass) : Bool := pass.session.isNone ∧ pass.left = []

/-- What `run_once` returns; a session that raised does not count. -/
def totals (pass : Pass) : Nat × Nat :=
  let counted := pass.served.filter fun session => ¬ session.stage matches .failed
  ((counted.map fun session => session.sent.length).sum,
    (counted.map fun session => session.received.length).sum)

/-- Every neighbour accepts all proposals, every block can be written, and every session
comes to its end. -/
def accepts (pass : Pass) : Event → Bool
  | .advance _ silence => pass.session.all fun session => session.accepts codec silence
  | .close => pass.session.all fun session => session.stage.isFinished
  | _ => true

/-- Every step of the run is accepted. -/
abbrev Accepting (pass : Pass) (event : Event) : Prop := pass.accepts codec event

variable {codec nodeCall due} {pass next : Pass} {event : Event}

/-- The neighbours served, being served and still to be served. -/
def order (due : Neighbor → Bool) (pass : Pass) : List Neighbor :=
  (pass.served ++ pass.session.toList).map ForwardSession.neighbor ++ pass.left.filter due

theorem step_order (stepped : step codec nodeCall due pass event = some next) :
    next.order due = pass.order due := by
  cases event with
  | turn =>
      cases idle : pass.session with
      | some session => simp [step, idle] at stepped
      | none =>
          cases left : pass.left with
          | nil => simp [step, idle, left] at stepped
          | cons neighbor others =>
              simp only [step, idle, left, Option.some.injEq] at stepped
              subst stepped
              cases turn : due neighbor <;> simp [order, idle, left, turn]
  | arrive data =>
      obtain ⟨session, active, rfl⟩ := Option.map_eq_some_iff.mp stepped
      simp [order, active]
  | advance now silence =>
      obtain ⟨session, active, stepped⟩ := Option.bind_eq_some_iff.mp stepped
      obtain ⟨⟨store, after⟩, moved, rfl⟩ := Option.map_eq_some_iff.mp stepped
      simp [order, active, (ForwardSession.step_effect moved).1.neighbor]
  | close =>
      obtain ⟨session, active, stepped⟩ := Option.bind_eq_some_iff.mp stepped
      split at stepped
      · cases stepped
        simp [order, active]
      · cases stepped

theorem run_order {events : List Event} {start : Pass}
    (completed : run (step codec nodeCall due) start events = some pass) :
    pass.order due = start.order due :=
  run_preserves (fun _ _ _ same stepped => (step_order stepped).trans same) rfl completed

section Message

variable (nodeCall : Text) (msg : Row)

/-- The sessions so far: the first that selects the message has sent it once, and no other
has. -/
def First (served : List ForwardSession) : Prop :=
  (∀ session ∈ served, selects nodeCall session.neighbor msg = false ∧ msg.id ∉ session.sent) ∨
    ∃ front first back, served = front ++ first :: back ∧
      (∀ session ∈ front, selects nodeCall session.neighbor msg = false ∧ msg.id ∉ session.sent) ∧
      selects nodeCall first.neighbor msg ∧ first.sent.count msg.id = 1 ∧
      ∀ session ∈ back, msg.id ∉ session.sent

def sentIds (sessions : List ForwardSession) : List Nat := sessions.flatMap ForwardSession.sent

/-- What is known of the message while the sessions of a pass go well. -/
structure Tracked (pass : Pass) : Prop where
  issued : msg.id ≤ pass.store.sequence
  waiting : msg.id ∉ sentIds (pass.served ++ pass.session.toList) → msg ∈ pass.store.messages
  marked : msg.id ∈ sentIds (pass.served ++ pass.session.toList) →
    ∀ row ∈ pass.store.messages, row.id = msg.id → row.status = statusForwarded
  own : ∀ session ∈ pass.session, session.nodeCall = nodeCall
  early : ∀ session ∈ pass.session, session.stage.chosen = false → session.sent = []
  planned : ∀ session ∈ pass.session, session.stage.chosen →
    session.plan.count msg.id =
      if selects nodeCall session.neighbor msg ∧ msg.id ∉ sentIds pass.served then 1 else 0
  first : First nodeCall msg pass.served

/-- The invariant of a pass. -/
def Sound (pass : Pass) : Prop :=
  (∃ session ∈ pass.session, session.stage.returned ∧ session.stage ≠ .finished) ∨
    Tracked nodeCall msg pass

variable {nodeCall msg}

theorem First.not_sent {served : List ForwardSession} (first : First nodeCall msg served)
    (none_ : msg.id ∉ sentIds served) :
    ∀ session ∈ served, selects nodeCall session.neighbor msg = false ∧ msg.id ∉ session.sent := by
  rcases first with fresh | ⟨front, first, back, rfl, _, _, once, _⟩
  · exact fresh
  · have sent : msg.id ∈ first.sent := List.count_pos_iff.mp (by omega)
    exact absurd (List.mem_flatMap.mpr ⟨first, by simp, sent⟩) none_

theorem First.append {served : List ForwardSession} (first : First nodeCall msg served)
    {session : ForwardSession}
    (count : session.sent.count msg.id =
      if selects nodeCall session.neighbor msg ∧ msg.id ∉ sentIds served then 1 else 0) :
    First nodeCall msg (served ++ [session]) := by
  by_cases fresh : msg.id ∈ sentIds served
  · rw [if_neg (by simp [fresh])] at count
    have none_ : msg.id ∉ session.sent := List.count_eq_zero.mp count
    rcases first with fresh' | ⟨front, first, back, rfl, before, chosen, once, behind⟩
    · obtain ⟨other, listed, sent⟩ := List.mem_flatMap.mp fresh
      exact absurd sent (fresh' other listed).2
    · refine .inr ⟨front, first, back ++ [session], by simp, before, chosen, once, ?_⟩
      intro other listed
      rcases List.mem_append.mp listed with old | new
      · exact behind other old
      · rwa [List.mem_singleton.mp new]
  · have before := first.not_sent fresh
    cases chosen : selects nodeCall session.neighbor msg with
    | true =>
        rw [if_pos ⟨chosen, fresh⟩] at count
        exact .inr ⟨served, session, [], by simp, before, chosen, count, by simp⟩
    | false =>
        rw [if_neg (by simp [chosen])] at count
        refine .inl fun other listed => ?_
        rcases List.mem_append.mp listed with old | new
        · exact before other old
        · rw [List.mem_singleton.mp new]
          exact ⟨chosen, List.count_eq_zero.mp count⟩

/-- A selection takes the message at most once, and only while it is new. -/
theorem count_selectOutgoing {store : BBSStore} (neighbor : Neighbor) (sent : Prop)
    [Decidable sent] (new : msg.status = statusNew) (waiting : ¬ sent → msg ∈ store.messages)
    (marked : sent → ∀ row ∈ store.messages, row.id = msg.id → row.status = statusForwarded) :
    ((selectOutgoing nodeCall neighbor store).map Row.id).count msg.id =
      if selects nodeCall neighbor msg ∧ ¬ sent then 1 else 0 := by
  have once : ((selectOutgoing nodeCall neighbor store).map Row.id).Nodup := by
    have ordered : (selectOutgoing nodeCall neighbor store).Pairwise fun first second =>
        first.id < second.id := (store.ordered.filter _).filter _
    exact List.pairwise_map.mpr (ordered.imp Nat.ne_of_lt)
  have listed : msg.id ∈ (selectOutgoing nodeCall neighbor store).map Row.id ↔
      selects nodeCall neighbor msg ∧ ¬ sent := by
    constructor
    · intro listed
      obtain ⟨row, chosen, same⟩ := List.mem_map.mp listed
      obtain ⟨among, chosen⟩ := List.mem_filter.mp chosen
      obtain ⟨stored, status⟩ := List.mem_filter.mp among
      have fresh : ¬ sent := fun sent => by
        rw [marked sent row stored same] at status
        exact absurd status (by decide)
      rw [store.eq_of_id stored (waiting fresh) same] at chosen
      exact ⟨chosen, fresh⟩
    · rintro ⟨chosen, fresh⟩
      have among : msg ∈ store.withStatus statusNew :=
        List.mem_filter.mpr ⟨waiting fresh, by simp [new]⟩
      exact List.mem_map.mpr ⟨msg, List.mem_filter.mpr ⟨among, chosen⟩, rfl⟩
  rw [once.count]
  simp only [listed]

theorem forall_none {P : ForwardSession → Prop} :
    ∀ session ∈ (none : Option ForwardSession), P session :=
  fun session listed => absurd listed (Option.not_mem_none session)

theorem tracked_start (enabled : Bool) (neighbors : List Neighbor) {store : BBSStore}
    (stored : msg ∈ store.messages) : Tracked nodeCall msg (start enabled neighbors store) :=
  ⟨store.issued msg stored, fun _ => stored, by simp [start, sentIds], forall_none, forall_none,
    forall_none, .inl fun _ listed => absurd listed List.not_mem_nil⟩

theorem sentIds_append (served : List ForwardSession) (session : ForwardSession) :
    sentIds (served ++ [session]) = sentIds served ++ session.sent := by
  simp [sentIds]

theorem Tracked.advance {pass : Pass} (tracked : Tracked nodeCall msg pass)
    (new : msg.status = statusNew) {session after : ForwardSession} {now : DateTime}
    {silence : Silence} {store : BBSStore} (active : pass.session = some session)
    (accepting : session.accepts codec silence)
    (moved : ForwardSession.step codec now silence pass.store session = some (store, after)) :
    Sound nodeCall msg { pass with store, session := some after } := by
  obtain ⟨ends, effect⟩ := ForwardSession.step_effect moved
  obtain ⟨issued, more, sent, row⟩ := effect.row tracked.issued
  have waiting := tracked.waiting
  have marked := tracked.marked
  have own := tracked.own session active
  simp only [active, Option.toList_some, sentIds_append, List.mem_append, not_or] at waiting marked
  -- what is known of the row does not depend on where the session stands
  have now_ : (msg.id ∉ sentIds (pass.served ++ [after]) → msg ∈ store.messages) ∧
      (msg.id ∈ sentIds (pass.served ++ [after]) →
        ∀ row ∈ store.messages, row.id = msg.id → row.status = statusForwarded) := by
    simp only [sentIds_append, sent, List.mem_append, not_or]
    rcases row with ⟨other, same⟩ | ⟨this, forwarded⟩
    · refine ⟨fun unsent => (same msg rfl).mpr (waiting ⟨unsent.1, unsent.2.1⟩), ?_⟩
      intro listed row stored known
      have before := listed.imp_right fun listed => listed.resolve_right other
      exact marked before row ((same row known).mp stored) known
    · exact ⟨fun unsent => absurd this unsent.2.2, fun _ => forwarded⟩
  have early (early : session.stage.chosen = false) : after.sent = [] := by
    rw [effect.sent_early early]
    exact tracked.early session active early
  have tracks (planned : after.stage.chosen → after.plan.count msg.id =
      if selects nodeCall after.neighbor msg ∧ msg.id ∉ sentIds pass.served then 1 else 0)
      (unsent : after.stage.chosen = false → after.sent = []) :
      Sound nodeCall msg { pass with store, session := some after } := by
    refine .inr ⟨issued, now_.1, now_.2, ?_, ?_, ?_, tracked.first⟩
    · rintro _ ⟨⟩
      exact ends.nodeCall.trans own
    · rintro _ ⟨⟩
      exact unsent
    · rintro _ ⟨⟩
      exact planned
  cases ForwardSession.step_planned accepting moved with
  | broken returned open_ => exact .inl ⟨after, rfl, returned, open_⟩
  | early before behind => exact tracks (fun late => by simp [behind] at late) fun _ => early before
  | choosing before behind same chosen =>
      refine tracks (fun _ => ?_) fun late => by simp [behind] at late
      have nothing := tracked.early session active before
      rw [ForwardSession.plan, early before, List.nil_append, chosen, own, ends.neighbor]
      refine count_selectOutgoing _ _ new (fun unsent => waiting ⟨unsent, ?_⟩)
        fun listed => marked (.inl listed)
      simp [nothing]
  | late before behind same =>
      refine tracks (fun _ => ?_) fun early => by simp [behind] at early
      rw [same, ends.neighbor]
      exact tracked.planned session active before

theorem Sound.step {pass next : Pass} {event : Event} (sound : Sound nodeCall msg pass)
    (new : msg.status = statusNew) (accepting : pass.Accepting codec event)
    (stepped : pass.step codec nodeCall due event = some next) : Sound nodeCall msg next := by
  cases event with
  | turn =>
      cases idle : pass.session with
      | some session => simp [Pass.step, idle] at stepped
      | none =>
          cases left : pass.left with
          | nil => simp [Pass.step, idle, left] at stepped
          | cons neighbor others =>
              simp only [Pass.step, idle, left, Option.some.injEq] at stepped
              subst stepped
              rcases sound with ⟨session, active, _⟩ | tracked
              · simp [idle] at active
              have sessions : ∀ session ∈ (if due neighbor then
                  some { nodeCall, neighbor, caller := true : ForwardSession } else none),
                  session = { nodeCall, neighbor, caller := true } := by
                intro session begun
                split at begun
                · exact (Option.some.inj begun).symm
                · cases begun
              have none_ : sentIds (pass.served ++ (if due neighbor then
                  some { nodeCall, neighbor, caller := true : ForwardSession } else none).toList) =
                  sentIds (pass.served ++ pass.session.toList) := by
                split <;> simp [sentIds, idle]
              refine .inr ⟨tracked.issued, none_ ▸ tracked.waiting, none_ ▸ tracked.marked,
                ?_, ?_, ?_, tracked.first⟩
              · intro session begun
                rw [sessions session begun]
              · intro session begun _
                rw [sessions session begun]
              · intro session begun late
                rw [sessions session begun] at late
                cases late
  | arrive data =>
      obtain ⟨session, active, rfl⟩ := Option.map_eq_some_iff.mp stepped
      rcases sound with ⟨_, listed, broken⟩ | tracked
      · rw [active] at listed
        cases listed
        exact .inl ⟨_, rfl, broken⟩
      · have same : sentIds (pass.served ++ [{ session with inbox := session.inbox ++ data }]) =
            sentIds (pass.served ++ pass.session.toList) := by
          rw [active, Option.toList_some, sentIds_append, sentIds_append]
        refine .inr ⟨tracked.issued, fun unsent => tracked.waiting (same ▸ unsent),
          fun sent => tracked.marked (same ▸ sent), ?_, ?_, ?_, tracked.first⟩
        · rintro _ ⟨⟩
          exact tracked.own session active
        · rintro _ ⟨⟩
          exact tracked.early session active
        · rintro _ ⟨⟩
          exact tracked.planned session active
  | advance now silence =>
      obtain ⟨session, active, stepped⟩ := Option.bind_eq_some_iff.mp stepped
      obtain ⟨⟨store, after⟩, moved, rfl⟩ := Option.map_eq_some_iff.mp stepped
      rcases sound with ⟨_, listed, returned, _⟩ | tracked
      · rw [active] at listed
        cases listed
        simp [ForwardSession.step_returned returned] at moved
      · rw [Pass.Accepting, Pass.accepts, active] at accepting
        exact tracked.advance new active accepting moved
  | close =>
      obtain ⟨session, active, stepped⟩ := Option.bind_eq_some_iff.mp stepped
      have ended : session.stage = .finished := by
        rw [Pass.Accepting, Pass.accepts, active, Option.all_some] at accepting
        exact Stage.eq_of_isFinished accepting
      split at stepped
      · cases stepped
        rcases sound with ⟨_, listed, _, open_⟩ | tracked
        · rw [active] at listed
          cases listed
          exact absurd ended open_
        · have same : sentIds (pass.served ++ [session]) =
              sentIds (pass.served ++ pass.session.toList) := by
            rw [active, Option.toList_some]
          have count := tracked.planned session active (by rw [ended]; rfl)
          rw [ForwardSession.plan, ended] at count
          simp only [Stage.toGo, List.map_nil, List.append_nil] at count
          refine .inr ⟨tracked.issued, fun unsent => tracked.waiting ?_,
            fun sent => tracked.marked ?_, forall_none, forall_none, forall_none,
            tracked.first.append count⟩
          · rw [← same]
            simpa using unsent
          · rw [← same]
            simpa using sent
      · cases stepped

theorem run_sound {enabled : Bool} {neighbors : List Neighbor} {store : BBSStore}
    {events : List Event} (stored : msg ∈ store.messages) (new : msg.status = statusNew)
    (accepting : EveryStep (step codec nodeCall due) (Accepting codec)
      (start enabled neighbors store) events)
    (completed : run (step codec nodeCall due) (start enabled neighbors store) events =
      some pass) : Sound nodeCall msg pass :=
  run_preserves_of_everyStep (fun _ _ _ sound accepts stepped => sound.step new accepts stepped)
    (.inr (tracked_start enabled neighbors stored)) accepting completed

/-- The first session that selects a message is the only one that sends it. -/
theorem First.all_iff {served : List ForwardSession} (first : First nodeCall msg served) :
    (∀ session ∈ served, selects nodeCall session.neighbor msg →
        session.sent.count msg.id = 1) ↔
      (served.filter fun session => selects nodeCall session.neighbor msg).length ≤ 1 := by
  have none_ {sessions : List ForwardSession}
      (others : ∀ session ∈ sessions, selects nodeCall session.neighbor msg = false) :
      (sessions.filter fun session => selects nodeCall session.neighbor msg) = [] :=
    List.filter_eq_nil_iff.mpr fun session listed => by simp [others session listed]
  rcases first with fresh | ⟨front, first, back, rfl, before, chosen, once, behind⟩
  · rw [none_ fun session listed => (fresh session listed).1]
    simp only [List.length_nil, Nat.zero_le, iff_true]
    intro session listed chosen
    rw [(fresh session listed).1] at chosen
    cases chosen
  · rw [List.filter_append, none_ fun session listed => (before session listed).1,
      List.nil_append, List.filter_cons, if_pos chosen, List.length_cons]
    constructor
    · intro all
      have others : ∀ session ∈ back, selects nodeCall session.neighbor msg = false := by
        intro session listed
        by_contra chosen
        have count := all session (by simp [listed]) (Bool.not_eq_false _ ▸ chosen)
        rw [List.count_eq_zero.mpr (behind session listed)] at count
        cases count
      rw [none_ others]
      simp
    · intro single session listed this
      rcases List.mem_append.mp listed with old | new
      · rw [(before session old).1] at this
        cases this
      · rcases List.mem_cons.mp new with rfl | new
        · exact once
        · have some_ : 0 < (back.filter fun session =>
              selects nodeCall session.neighbor msg).length :=
            List.length_pos_of_mem (List.mem_filter.mpr ⟨new, this⟩)
          omega

/-- How often a message went to a neighbour. -/
def timesSent (pass : Pass) (call : Text) (id : Nat) : Nat :=
  (sentIds (pass.served.filter fun session => session.neighbor.call = call)).count id

/-- A neighbour that is to get the message: neither its call nor this node's is in the path,
and it has a matching category. -/
def Matching (nodeCall : Text) (neighbor : Neighbor) (msg : Row) : Prop :=
  Text.upper nodeCall ∉ Text.words (Text.upper msg.forwardPath) ∧
    Text.upper neighbor.call ∉ Text.words (Text.upper msg.forwardPath) ∧
    hasCategory neighbor msg.toCall

instance (neighbor : Neighbor) : Decidable (Matching nodeCall neighbor msg) :=
  inferInstanceAs (Decidable (_ ∧ _))

theorem selects_iff_matching (kind : msg.msgType = msgBulletin ∨ msg.msgType = msgNts)
    (neighbor : Neighbor) : selects nodeCall neighbor msg ↔ Matching nodeCall neighbor msg := by
  have other : msg.msgType ≠ msgPrivate := by
    rcases kind with kind | kind <;> rw [kind] <;> decide
  rw [selects, Matching, if_neg other, if_pos kind]
  split
  · simp_all
  · split
    · simp_all
    · simp_all

theorem timesSent_of_distinct (distinct : (pass.served.map fun session =>
      session.neighbor.call).Nodup) {session : ForwardSession} (listed : session ∈ pass.served)
    (id : Nat) : pass.timesSent session.neighbor.call id = session.sent.count id := by
  have only (sessions : List ForwardSession)
      (distinct : (sessions.map fun session => session.neighbor.call).Nodup)
      (listed : session ∈ sessions) :
      (sessions.filter fun other => other.neighbor.call = session.neighbor.call) = [session] := by
    obtain ⟨front, back, rfl⟩ := List.append_of_mem listed
    simp only [List.map_append, List.map_cons, List.nodup_append, List.nodup_cons] at distinct
    obtain ⟨_, ⟨notBehind, _⟩, apart⟩ := distinct
    have before : (front.filter fun other => other.neighbor.call = session.neighbor.call) = [] :=
      List.filter_eq_nil_iff.mpr fun other among => by
        simpa using apart _ (List.mem_map_of_mem among) _ List.mem_cons_self
    have behind : (back.filter fun other => other.neighbor.call = session.neighbor.call) = [] :=
      List.filter_eq_nil_iff.mpr fun other among same =>
        notBehind (List.mem_map.mpr ⟨other, among, of_decide_eq_true same⟩)
    rw [List.filter_append, before, List.nil_append, List.filter_cons, if_pos (by simp), behind]
  rw [timesSent, only pass.served distinct listed]
  simp [sentIds]

theorem served_neighbors {neighbors : List Neighbor} {store : BBSStore} {events : List Event}
    (completed : run (step codec nodeCall due) (start true neighbors store) events = some pass)
    (returned : pass.returned) :
    pass.served.map ForwardSession.neighbor = (neighbors.filter Neighbor.enabled).filter due := by
  have same := run_order completed
  simp only [Pass.returned, Bool.decide_and, Bool.and_eq_true, decide_eq_true_eq,
    Option.isNone_iff_eq_none] at returned
  simpa [order, start, returned.1, returned.2] using same

/-- A message goes to every matching neighbour of a pass exactly once, if and only if there is
at most one. -/
theorem flooded_iff {neighbors : List Neighbor} {store : BBSStore} {events : List Event}
    (distinct : (neighbors.map Neighbor.call).Nodup)
    (accepting : EveryStep (step codec nodeCall due) (Accepting codec)
      (start true neighbors store) events)
    (completed : run (step codec nodeCall due) (start true neighbors store) events = some pass)
    (returned : pass.returned) (stored : msg ∈ store.messages) (new : msg.status = statusNew)
    (kind : msg.msgType = msgBulletin ∨ msg.msgType = msgNts) :
    (∀ neighbor ∈ neighbors, neighbor.enabled → due neighbor → Matching nodeCall neighbor msg →
        pass.timesSent neighbor.call msg.id = 1) ↔
      (neighbors.filter fun neighbor =>
        neighbor.enabled ∧ due neighbor ∧ Matching nodeCall neighbor msg).length ≤ 1 := by
  have served := served_neighbors completed returned
  have idle : pass.session = none := by
    simp only [Pass.returned, Bool.decide_and, Bool.and_eq_true, decide_eq_true_eq,
      Option.isNone_iff_eq_none] at returned
    exact returned.1
  have first : First nodeCall msg pass.served := by
    rcases run_sound stored new accepting completed with ⟨session, active, _⟩ | tracked
    · simp [idle] at active
    · exact tracked.first
  have calls : (pass.served.map fun session => session.neighbor.call).Nodup := by
    have sub : (((neighbors.filter Neighbor.enabled).filter due).map Neighbor.call).Sublist
        (neighbors.map Neighbor.call) :=
      (List.filter_sublist.trans List.filter_sublist).map _
    have same : (pass.served.map fun session => session.neighbor.call) =
        (pass.served.map ForwardSession.neighbor).map Neighbor.call := by simp
    rw [same, served]
    exact distinct.sublist sub
  have counts : (neighbors.filter fun neighbor =>
      neighbor.enabled ∧ due neighbor ∧ Matching nodeCall neighbor msg).length =
      (pass.served.filter fun session => selects nodeCall session.neighbor msg).length := by
    have mapped : (pass.served.map ForwardSession.neighbor).filter (selects nodeCall · msg) =
        (pass.served.filter fun session => selects nodeCall session.neighbor msg).map
          ForwardSession.neighbor := by
      rw [List.filter_map]
      rfl
    rw [← List.length_map ForwardSession.neighbor, ← mapped, served, List.filter_filter,
      List.filter_filter]
    congr 1
    refine List.filter_congr fun neighbor _ => ?_
    rw [Bool.eq_iff_iff]
    simp [← selects_iff_matching kind neighbor, and_comm]
  rw [counts, ← first.all_iff]
  constructor
  · intro all session listed chosen
    have among : session.neighbor ∈ (neighbors.filter Neighbor.enabled).filter due :=
      served ▸ List.mem_map_of_mem listed
    obtain ⟨among, turn⟩ := List.mem_filter.mp among
    obtain ⟨among, enabled⟩ := List.mem_filter.mp among
    rw [← timesSent_of_distinct calls listed]
    exact all _ among enabled turn ((selects_iff_matching kind _).mp chosen)
  · intro all neighbor listed enabled turn matching
    have among : neighbor ∈ pass.served.map ForwardSession.neighbor :=
      served ▸ List.mem_filter.mpr ⟨List.mem_filter.mpr ⟨listed, enabled⟩, turn⟩
    obtain ⟨session, member, rfl⟩ := List.mem_map.mp among
    rw [timesSent_of_distinct calls member]
    exact all session member ((selects_iff_matching kind _).mpr matching)

end Message

/-- A neighbour's turn: its lines arrive at once, and the session takes its steps. -/
def serving (response : Text) (steps : Nat) : List Event :=
  [.turn, .arrive (lineBytes "[N0FAR-FBB7.0-FHM$]" ++ lineBytes ">" ++ lineBytes response ++
      lineBytes "FF")] ++
    List.replicate steps (.advance ⟨2026, 1, 1, 0, 0, 0⟩ .live) ++ [.close]

/-- One neighbour with the category of the bulletin. -/
theorem flooded_single : ∃ pass,
    run (step bareCodec "N0AAA" fun _ => true)
      (start true [{ call := "N0BBB" }] (bulletinStore "1_N0AAA")) (serving "FS +" 13) =
        some pass ∧
      ∀ neighbor ∈ [({ call := "N0BBB" } : Neighbor)], neighbor.enabled → true →
        Matching "N0AAA" neighbor (bulletinRow "1_N0AAA") →
        pass.timesSent neighbor.call (bulletinRow "1_N0AAA").id = 1 := by
  have ends : (run (step bareCodec "N0AAA" fun _ => true)
      (start true [{ call := "N0BBB" }] (bulletinStore "1_N0AAA")) (serving "FS +" 13)).map
        Pass.returned = some true := by
    decide +kernel
  obtain ⟨pass, completed, returned⟩ := Option.map_eq_some_iff.mp ends
  exact ⟨pass, completed, (flooded_iff (by decide) (by decide +kernel) completed returned
    (bulletinRow_mem _) rfl (.inl rfl)).mpr (by decide +kernel)⟩

/-- Of two neighbours with the category of a bulletin the second does not get it. -/
theorem second_neighbor_left_out :
    ¬ ∀ (codec : Codec) (nodeCall : Text) (due : Neighbor → Bool) (neighbors : List Neighbor)
      (store : BBSStore) (events : List Event) (pass : Pass) (msg : Row),
      (neighbors.map Neighbor.call).Nodup →
      EveryStep (step codec nodeCall due) (Accepting codec) (start true neighbors store) events →
      run (step codec nodeCall due) (start true neighbors store) events = some pass →
      pass.returned → msg ∈ store.messages → msg.status = statusNew →
      msg.msgType = msgBulletin ∨ msg.msgType = msgNts →
      ∀ neighbor ∈ neighbors, neighbor.enabled → due neighbor → Matching nodeCall neighbor msg →
        pass.timesSent neighbor.call msg.id = 1 := by
  intro floods
  have ends : (run (step bareCodec "N0AAA" fun _ => true)
      (start true [{ call := "N0BBB" }, { call := "N0CCC" }] (bulletinStore "1_N0AAA"))
        (serving "FS +" 13 ++ serving "FS " 11)).map
          (fun pass => (pass.returned, pass.timesSent "N0CCC" 1)) = some (true, 0) := by
    decide +kernel
  obtain ⟨pass, completed, result⟩ := Option.map_eq_some_iff.mp ends
  obtain ⟨returned, never⟩ := Prod.mk.inj result
  have once := floods bareCodec "N0AAA" (fun _ => true) _ _ _ pass (bulletinRow "1_N0AAA")
    (by decide) (by decide +kernel) completed returned (bulletinRow_mem _) rfl (.inl rfl)
    { call := "N0CCC" } (by simp) rfl rfl (by decide +kernel)
  exact absurd (never.symm.trans once) (by decide)

end Pass

end PyBulletin.Forward
