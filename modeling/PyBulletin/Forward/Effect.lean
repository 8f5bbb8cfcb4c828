import PyBulletin.Forward.Hearing

set_option autoImplicit false

namespace PyBulletin.Forward

open PyBulletin.Foundation
open PyBulletin.Store

/-- `_run` has returned or raised. -/
def Stage.returned : Stage → Bool
  | .finished | .aborted | .failed => true
  | _ => false

def Stage.isSelecting : Stage → Bool
  | .selecting => true
  | _ => false

def Stage.isFinished : Stage → Bool
  | .finished => true
  | _ => false

theorem Stage.eq_of_isFinished {stage : Stage} (ended : stage.isFinished) : stage = .finished := by
  cases stage <;> first | rfl | cases ended

namespace ForwardSession

/-- The traces that a step leaves in the store and in the counters of the session. -/
inductive Effect (store next : BBSStore) (session after : ForwardSession) : Prop where
  | quiet (wrote : next = store) (sent : after.sent = session.sent)
      (received : after.received = session.received)
  | sent (msg : Row) (accepted : List Row) (incoming : List Proposal)
      (stage : session.stage = .sending (msg :: accepted) incoming)
      (wrote : next = (store.markForwarded msg.id).appendForwardPath msg.id session.nodeCall)
      (sent : after.sent = session.sent ++ [msg.id])
      (received : after.received = session.received)
  | received (msg : Message) (inserted : BBSStore)
      (messages : inserted.messages = store.messages ++ [store.inserted msg statusNew])
      (sequence : inserted.sequence = store.sequence + 1)
      (wrote : next = inserted.appendForwardPath (store.sequence + 1) session.neighbor.call)
      (sent : after.sent = session.sent)
      (received : after.received = session.received ++ [store.sequence + 1])

variable {codec : Codec} {now : DateTime} {silence : Silence} {store next : BBSStore}
  {session after : ForwardSession}

/-- A step that reads a line. -/
theorem read_cases {reads : Text → ForwardSession → ForwardSession} {broken : Stage}
    (did : step codec now silence store session = reading silence store session reads broken)
    (stepped : step codec now silence store session = some (next, after)) :
    next = store ∧
      ((∃ rest, rest <:+ session.inbox ∧ after = { session with inbox := rest, stage := broken }) ∨
        ∃ text rest, readLine silence session.inbox = .line text rest ∧
          after = reads text { session with inbox := rest }) := by
  rw [stepped, reading] at did
  cases line : readLine silence session.inbox with
  | waiting => simp [line] at did
  | overrun rest =>
      simp only [line, Option.some.injEq, Prod.mk.injEq] at did
      exact ⟨did.1, .inl ⟨rest, readLine_overrun_suffix line, did.2⟩⟩
  | line text rest =>
      simp only [line, Option.some.injEq, Prod.mk.injEq] at did
      exact ⟨did.1, .inr ⟨text, rest, rfl, did.2⟩⟩

/-- A session keeps its two ends and its role. -/
structure SameEnds (session after : ForwardSession) : Prop where
  nodeCall : after.nodeCall = session.nodeCall
  neighbor : after.neighbor = session.neighbor
  caller : after.caller = session.caller

theorem read_effect {reads : Text → ForwardSession → ForwardSession} {broken : Stage}
    (did : step codec now silence store session = reading silence store session reads broken)
    (untouched : ∀ text session, Untouched session (reads text session))
    (stepped : step codec now silence store session = some (next, after)) :
    SameEnds session after ∧ Effect store next session after := by
  obtain ⟨same, ⟨rest, _, rfl⟩ | ⟨text, rest, _, rfl⟩⟩ := read_cases did stepped
  · exact ⟨⟨rfl, rfl, rfl⟩, .quiet same rfl rfl⟩
  · have kept := untouched text { session with inbox := rest }
    exact ⟨⟨kept.nodeCall, kept.neighbor, kept.caller⟩, .quiet same kept.sent kept.received⟩

theorem stored_effect {binary : Bool} {data : Bytes} {prop : Proposal} {left : List Proposal}
    (same : stored codec store session binary data prop left = (next, after)) :
    SameEnds session after ∧ Effect store next session after := by
  rw [stored] at same
  cases decoded : codec.decode binary data with
  | none =>
      simp only [decoded, Prod.mk.injEq] at same
      obtain ⟨rfl, rfl⟩ := same
      exact ⟨⟨rfl, rfl, rfl⟩, .quiet rfl rfl rfl⟩
  | some msg =>
      simp only [decoded] at same
      generalize (if msg.bid = [] then { msg with bid := prop.bid } else msg) = msg at same
      split at same
      · cases same
        exact ⟨⟨rfl, rfl, rfl⟩, .quiet rfl rfl rfl⟩
      · rename_i fresh
        obtain ⟨inserted, messages, sequence, placed⟩ :=
          BBSStore.insertMessage_fresh statusNew (Bool.eq_false_iff.mpr fresh)
        rw [placed] at same
        cases same
        exact ⟨⟨rfl, rfl, rfl⟩, .received msg inserted messages sequence rfl rfl rfl⟩

theorem transmitted_effect {msg : Row} {accepted : List Row} {incoming : List Proposal}
    (at_ : session.stage = .sending (msg :: accepted) incoming) {kept : ForwardSession}
    (same : transmitted codec store session msg = (next, kept)) :
    SameEnds session { kept with stage := .sending accepted incoming } ∧
      Effect store next session { kept with stage := .sending accepted incoming } := by
  rw [transmitted] at same
  split at same
  · cases same
    exact ⟨⟨rfl, rfl, rfl⟩, .quiet rfl rfl rfl⟩
  · cases same
    exact ⟨⟨rfl, rfl, rfl⟩, .sent msg accepted incoming at_ rfl rfl rfl⟩

/-- What one step does. -/
theorem step_effect (stepped : step codec now silence store session = some (next, after)) :
    SameEnds session after ∧ Effect store next session after := by
  cases at_ : session.stage with
  | awaitingSid =>
      exact read_effect (reads_awaitingSid at_) (fun _ _ => ⟨rfl, rfl, rfl, rfl, rfl, rfl⟩) stepped
  | awaitingPrompt =>
      exact read_effect (reads_awaitingPrompt at_) (fun _ _ => ⟨rfl, rfl, rfl, rfl, rfl, rfl⟩) stepped
  | awaitingFs outgoing =>
      exact read_effect (reads_awaitingFs at_) (fun _ _ => ⟨rfl, rfl, rfl, rfl, rfl, rfl⟩) stepped
  | collecting accepted incoming =>
      exact read_effect (reads_collecting at_) (fun _ _ => ⟨rfl, rfl, rfl, rfl, rfl, rfl⟩) stepped
  | receiving left =>
      cases left with
      | nil =>
          simp only [step, at_, Option.some.injEq, Prod.mk.injEq] at stepped
          obtain ⟨rfl, rfl⟩ := stepped
          exact ⟨⟨rfl, rfl, rfl⟩, .quiet rfl rfl rfl⟩
      | cons prop left =>
          exact read_effect (reads_receiving at_) (fun _ _ => ⟨rfl, rfl, rfl, rfl, rfl, rfl⟩) stepped
  | receivingData binary size prop left =>
      simp only [step, at_] at stepped
      cases found : readExactly silence size session.inbox with
      | waiting => simp [found] at stepped
      | failed rest =>
          simp only [found, Option.some.injEq, Prod.mk.injEq] at stepped
          obtain ⟨rfl, rfl⟩ := stepped
          exact ⟨⟨rfl, rfl, rfl⟩, .quiet rfl rfl rfl⟩
      | data data rest =>
          simp only [found, Option.some.injEq] at stepped
          obtain ⟨ends, effect⟩ := stored_effect stepped
          refine ⟨⟨ends.nodeCall, ends.neighbor, ends.caller⟩, ?_⟩
          cases effect with
          | quiet wrote sent received => exact .quiet wrote sent received
          | sent msg accepted incoming stage => cases stage
          | received msg inserted messages sequence wrote sent received =>
              exact .received msg inserted messages sequence wrote sent received
  | sending accepted incoming =>
      cases accepted with
      | nil =>
          simp only [step, at_, Option.some.injEq, Prod.mk.injEq] at stepped
          obtain ⟨rfl, rfl⟩ := stepped
          exact ⟨⟨rfl, rfl, rfl⟩, .quiet rfl rfl rfl⟩
      | cons msg accepted =>
          simp only [step, at_, Option.some.injEq, Prod.mk.injEq] at stepped
          obtain ⟨rfl, rfl⟩ := stepped
          exact transmitted_effect at_ rfl
  | responding accepted incoming =>
      cases incoming <;> simp only [step, at_, Option.some.injEq, Prod.mk.injEq] at stepped <;>
        obtain ⟨rfl, rfl⟩ := stepped <;> exact ⟨⟨rfl, rfl, rfl⟩, .quiet rfl rfl rfl⟩
  | proposing outgoing left =>
      cases left <;> simp only [step, at_, Option.some.injEq, Prod.mk.injEq] at stepped <;>
        obtain ⟨rfl, rfl⟩ := stepped <;> exact ⟨⟨rfl, rfl, rfl⟩, .quiet rfl rfl rfl⟩
  | greeting | prompting | selecting | quitting =>
      simp only [step, at_, Option.some.injEq, Prod.mk.injEq] at stepped
      obtain ⟨rfl, rfl⟩ := stepped
      exact ⟨⟨rfl, rfl, rfl⟩, .quiet rfl rfl rfl⟩
  | finished | aborted | failed => simp [step, at_] at stepped

theorem step_returned (returned : session.stage.returned) :
    step codec now silence store session = none := by
  cases at_ : session.stage <;> simp [at_, Stage.returned] at returned <;> simp [step, at_]

/-- A message is only touched by being sent, and is then marked. -/
theorem Effect.row (effect : Effect store next session after) {id : Nat}
    (issued : id ≤ store.sequence) : id ≤ next.sequence ∧ ∃ more, after.sent = session.sent ++ more ∧
      (id ∉ more ∧ (∀ row : Row, row.id = id → (row ∈ next.messages ↔ row ∈ store.messages)) ∨
        id ∈ more ∧ ∀ row ∈ next.messages, row.id = id → row.status = statusForwarded) := by
  cases effect with
  | quiet wrote sent =>
      subst wrote
      exact ⟨issued, [], by rw [sent, List.append_nil], .inl ⟨List.not_mem_nil, fun _ _ => .rfl⟩⟩
  | sent msg accepted incoming stage wrote sent =>
      subst wrote
      refine ⟨issued, [msg.id], sent, ?_⟩
      by_cases same : id = msg.id
      · refine .inr ⟨by simp [same], fun row listed known => ?_⟩
        obtain ⟨old, stored, this, rfl⟩ :=
          BBSStore.mem_appendForwardPath_id listed (known.trans same)
        obtain ⟨older, _, _, rfl⟩ := BBSStore.mem_markForwarded_id stored this
        rfl
      · refine .inl ⟨by simp [same], fun row known => ?_⟩
        have other : row.id ≠ msg.id := known ▸ same
        exact (BBSStore.mem_appendForwardPath other).trans (BBSStore.mem_markForwarded other)
  | received msg inserted messages sequence wrote sent =>
      subst wrote
      refine ⟨by simp [BBSStore.appendForwardPath, BBSStore.update, sequence]; omega, [],
        by rw [sent, List.append_nil], .inl ⟨List.not_mem_nil, fun row known => ?_⟩⟩
      have other : row.id ≠ store.sequence + 1 := by omega
      refine (BBSStore.mem_appendForwardPath other).trans ?_
      rw [messages, List.mem_append, List.mem_singleton]
      refine ⟨fun listed => listed.resolve_right fun same => other ?_, .inl⟩
      rw [same]
      rfl

/-- A path only grows. -/
theorem Effect.path (effect : Effect store next session after) {row : Row}
    (issued : row.id ≤ store.sequence) (listed : row ∈ next.messages) :
    ∃ old ∈ store.messages, old.id = row.id ∧ (row.forwardPath = old.forwardPath ∨
      ∃ call, row.forwardPath = BBSStore.extendedPath old.forwardPath call) := by
  cases effect with
  | quiet wrote =>
      subst wrote
      exact ⟨row, listed, rfl, .inl rfl⟩
  | sent msg accepted incoming stage wrote =>
      subst wrote
      by_cases same : row.id = msg.id
      · obtain ⟨old, stored, this, rfl⟩ := BBSStore.mem_appendForwardPath_id listed same
        obtain ⟨older, among, _, rfl⟩ := BBSStore.mem_markForwarded_id stored this
        exact ⟨older, among, rfl, .inr ⟨_, rfl⟩⟩
      · have stored :=
          (BBSStore.mem_markForwarded same).mp ((BBSStore.mem_appendForwardPath same).mp listed)
        exact ⟨row, stored, rfl, .inl rfl⟩
  | received msg inserted messages sequence wrote =>
      subst wrote
      have stored := (BBSStore.mem_appendForwardPath (by omega)).mp listed
      rw [messages, List.mem_append, List.mem_singleton] at stored
      rcases stored with stored | same
      · exact ⟨row, stored, rfl, .inl rfl⟩
      · rw [same] at issued
        exact absurd issued (Nat.not_succ_le_self _)

end ForwardSession

/-- Blocks that hold the body alone. -/
def bareCodec : Codec where
  encode _ msg :=
    some (lineBytes (("F+ " : Text) ++ Nat.toDigits 10 msg.body.length) ++ encodeAscii msg.body)
  decode _ data :=
    some { bid := "", msgType := msgBulletin, fromCall := "N0FAR", toCall := "WW", atBbs := ""
           subject := "", body := decodeAscii data, createdAt := none }

/-- A bulletin to all the world. -/
def bulletin (bid : Text) : Message where
  bid
  msgType := msgBulletin
  fromCall := "N0AAA"
  toCall := "WW"
  atBbs := ""
  subject := "Hello"
  body := "Hello"
  createdAt := none

def bulletinRow (bid : Text) : Row := BBSStore.empty.inserted (bulletin bid) statusNew

def bulletinStore (bid : Text) : BBSStore :=
  (BBSStore.empty.insertMessage (bulletin bid) statusNew).1

theorem bulletinRow_mem (bid : Text) : bulletinRow bid ∈ (bulletinStore bid).messages := by
  have fresh : BBSStore.empty.hasBid (bulletin bid).bid = false := rfl
  obtain ⟨inserted, messages, _, placed⟩ := BBSStore.insertMessage_fresh statusNew fresh
  rw [bulletinStore, placed, messages]
  exact List.mem_append_right _ List.mem_cons_self

end PyBulletin.Forward
