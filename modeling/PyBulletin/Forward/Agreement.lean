import PyBulletin.Forward.Deadlock

set_option autoImplicit false

namespace PyBulletin.Forward

open PyBulletin.Foundation
open PyBulletin.Store

namespace Side

variable {x y : Side}

/-- The messages of `x` that are to go over to `y`. -/
def due (x y : Side) : List Row :=
  x.outgoing.filter fun msg => ¬ y.store.hasBid msg.bid ∧ msg.size ≤ maxMsgBytes

theorem mem_due {msg : Row} : msg ∈ x.due y ↔
    msg ∈ x.outgoing ∧ y.store.hasBid msg.bid = false ∧ msg.size ≤ maxMsgBytes := by
  simp [due]

/-- Proposals of one line leave nothing unread. -/
theorem unread_nil (single : ∀ msg ∈ y.outgoing, SingleLine msg) : x.unread y = [] := by
  rw [unread]
  cases heard : hear (y.offer x) with
  | more => rfl
  | failed => rfl
  | heard all left => exact hear_single single heard

end Side

namespace Joint

variable {x y : Side} {joint : Joint}

/-- Both sessions have come to their end. -/
def finished (joint : Joint) : Bool :=
  match joint.a.session.stage, joint.b.session.stage with
  | .finished, .finished => true
  | _, _ => false

theorem stages_of_finished (finished : joint.finished) :
    joint.a.session.stage = .finished ∧ joint.b.session.stage = .finished := by
  simp only [Joint.finished] at finished
  split at finished
  · rename_i atA atB
    exact ⟨atA, atB⟩
  · cases finished

/-- What the session owes in the direction from `x`, at A, to `y`, at B. -/
structure Agreed (x y : Side) (joint : Joint) : Prop where
  delivered : ∀ msg ∈ x.due y,
    (joint.b.store.messages.filter fun row => row.bid = msg.bid).length = 1
  counted : joint.a.session.sent.length = joint.b.session.received.length
  marked : ∀ msg ∈ x.store.messages, msg.status ≠ statusForwarded →
    ((∃ row ∈ joint.a.store.messages, row.id = msg.id ∧ row.status = statusForwarded) ↔
      msg ∈ x.due y)

theorem together_of_finished (opposite : y.caller = !x.caller) {turns : List Turn}
    (completed : run step (start x y) turns = some joint)
    (finished : joint.finished) : joint.Together x y := by
  obtain ⟨finishedA, finishedB⟩ := stages_of_finished finished
  rcases sound_run opposite completed with broken | broken | together
  · rw [finishedA] at broken
    cases broken
  · rw [finishedB] at broken
    cases broken
  · exact together

/-- A message that is due does not arrive. -/
theorem Agreed.due_nil (agreed : joint.Agreed x y) (together : joint.Together x y) :
    x.due y = [] := by
  have counted := agreed.counted
  rw [together.ownA.sent] at counted
  have nothing : joint.b.session.received = [] := List.length_eq_zero_iff.mp counted.symm
  by_contra some_
  obtain ⟨msg, listed⟩ := List.exists_mem_of_ne_nil _ some_
  have once := agreed.delivered msg listed
  rw [together.ownB.store nothing] at once
  obtain ⟨row, stored⟩ := List.exists_mem_of_length_pos (Nat.lt_of_lt_of_eq Nat.one_pos once.symm)
  obtain ⟨stored, same⟩ := List.mem_filter.mp stored
  exact BBSStore.bid_ne_of_not_hasBid (Side.mem_due.mp listed).2.1 row stored (of_decide_eq_true same)

/-- Where nothing is due and nothing has come in, nothing is owed. -/
theorem agreed_of_idle (together : joint.Together x y) (due : x.due y = [])
    (receivedA : joint.a.session.received = []) (receivedB : joint.b.session.received = []) :
    joint.Agreed x y := by
  refine ⟨fun msg listed => ?_, ?_, fun msg stored fresh => ?_⟩
  · rw [due] at listed
    exact absurd listed List.not_mem_nil
  · rw [together.ownA.sent, receivedB]
  · rw [together.ownA.store receivedA, due]
    refine ⟨?_, fun listed => absurd listed List.not_mem_nil⟩
    rintro ⟨row, listed, same, forwarded⟩
    rw [x.store.eq_of_id listed stored same] at forwarded
    exact absurd forwarded fresh

/-- Two sessions that finish have agreed only where no message was due on either side; and
there they have, if no proposal holds a line feed. -/
theorem run_agreed (opposite : y.caller = !x.caller) {turns : List Turn}
    (completed : run step (start x y) turns = some joint) (finished : joint.finished) :
    (joint.Agreed x y ∧ joint.swap.Agreed y x → x.due y = [] ∧ y.due x = []) ∧
      ((∀ msg ∈ x.outgoing ++ y.outgoing, SingleLine msg) → x.due y = [] ∧ y.due x = [] →
        joint.Agreed x y ∧ joint.swap.Agreed y x) := by
  have together := together_of_finished opposite completed finished
  constructor
  · rintro ⟨forth, back⟩
    exact ⟨forth.due_nil together, back.due_nil together.swap⟩
  · rintro single ⟨forth, back⟩
    have unreadA : x.unread y = [] :=
      Side.unread_nil fun msg listed => single msg (List.mem_append_right _ listed)
    have unreadB : y.unread x = [] :=
      Side.unread_nil fun msg listed => single msg (List.mem_append_left _ listed)
    have receivedA := together.ownA.nothing (.inr unreadA)
    have receivedB := together.ownB.nothing (.inr unreadB)
    exact ⟨agreed_of_idle together forth receivedA receivedB,
      agreed_of_idle together.swap back receivedB receivedA⟩

/-- The turns of two sessions with one proposal each. -/
def bothPropose : List Turn :=
  [.a, .b, .a, .b, .b, .a, .a, .a, .a, .b, .b, .a] ++
    [.b, .a, .a, .a, .a, .a, .b, .b, .b, .b, .b, .b]

/-- The same bulletin on both sides. -/
theorem same_bulletin_agreed : ∃ joint,
    run step (start (bareCaller (bulletinStore "1_N0AAA"))
      (bareAnswerer (bulletinStore "1_N0AAA"))) bothPropose = some joint ∧ joint.finished ∧
      joint.Agreed (bareCaller (bulletinStore "1_N0AAA"))
        (bareAnswerer (bulletinStore "1_N0AAA")) := by
  have ends : (run step (start (bareCaller (bulletinStore "1_N0AAA"))
      (bareAnswerer (bulletinStore "1_N0AAA"))) bothPropose).map (·.finished) = some true := by
    decide +kernel
  obtain ⟨joint, completed, finished⟩ := Option.map_eq_some_iff.mp ends
  have agreed := (run_agreed rfl completed finished).2 (by decide +kernel) (by decide +kernel)
  exact ⟨joint, completed, finished, agreed.1⟩

/-- A new bulletin of the caller's is not there when both sides have finished. -/
theorem bulletin_is_not_delivered :
    ¬ ∀ (x y : Side) (turns : List Turn) (joint : Joint), x.caller = true → y.caller = false →
      run step (start x y) turns = some joint → joint.finished →
      joint.Agreed x y ∧ joint.swap.Agreed y x := by
  intro agree
  have ends : (run step (start (bareCaller (bulletinStore "1_N0AAA"))
      (bareAnswerer (bulletinStore "1_N0BBB"))) bothPropose).map (·.finished) = some true := by
    decide +kernel
  obtain ⟨joint, completed, finished⟩ := Option.map_eq_some_iff.mp ends
  have agreed := (agree _ _ _ joint rfl rfl completed finished).1
  have nothing := agreed.due_nil (together_of_finished rfl completed finished)
  exact absurd nothing (by decide +kernel)

end Joint

end PyBulletin.Forward
