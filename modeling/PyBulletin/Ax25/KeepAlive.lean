import PyBulletin.Ax25.Link

set_option autoImplicit false

namespace PyBulletin.Ax25

open PyBulletin.Foundation

/-! # Keep-alive polls

A T3 expiry sends an RR with the poll bit and starts T1.  `_handle_rr` does not look at the bit.
-/

def Side.other : Side → Side
  | .a => .b
  | .b => .a

namespace Link

variable {link next polled final : Link} {side : Side} {events : List (Side × LinkEvent)}

def conn (link : Link) : Side → AX25Connection
  | .a => link.a
  | .b => link.b

/-- Both ends are connected and have nothing to send, agree on the sequence variables, and no
frame is in flight. -/
structure Synchronised (link : Link) : Prop where
  up : ∀ side, (link.conn side).state = .connected
  agreed : ∀ side, (link.conn side).vs = (link.conn side.other).vr
  acked : ∀ side, (link.conn side).va = (link.conn side).vs
  queued : ∀ side, (link.conn side).txQueue = []
  drained : ∀ side, (link.conn side).sent = []
  ab : link.ab = []
  ba : link.ba = []

structure Quiet (link : Link) : Prop where
  ab : link.ab = []
  ba : link.ba = []
  timers : ∀ side, (link.conn side).t1Armed = false

/-- After a T3 expiry at `side`, delivering what is in flight can bring the link to rest. -/
def Answers (link : Link) (side : Side) : Prop :=
  ∀ polled, link.step (side, .t3Expire) = some polled →
    ∃ events final, (∀ event ∈ events, event.2 = .deliver) ∧
      run step polled events = some final ∧ final.Quiet

@[simp] theorem swap_swap (link : Link) : link.swap.swap = link := rfl

theorem step_swap (link : Link) (side : Side) (event : LinkEvent) :
    link.swap.step (side.other, event) = (link.step (side, event)).map swap := by
  cases side with
  | a => rfl
  | b => simp [step, Side.other, Function.comp_def]

theorem run_swap (completed : run step link events = some final) :
    run step link.swap (events.map fun event => (event.1.other, event.2)) = some final.swap := by
  induction events generalizing link with
  | nil =>
      cases completed
      rfl
  | cons event events ih =>
      obtain ⟨next, stepped, rest⟩ := run_cons completed
      rw [List.map_cons, run, step_swap, stepped]
      exact ih rest

theorem conn_swap (link : Link) (side : Side) : link.swap.conn side = link.conn side.other := by
  cases side <;> rfl

theorem Quiet.swap (quiet : link.Quiet) : link.swap.Quiet where
  ab := quiet.ba
  ba := quiet.ab
  timers := fun side => by simpa only [conn_swap] using quiet.timers side.other

theorem Synchronised.swap (synchronised : link.Synchronised) : link.swap.Synchronised where
  up := fun side => by simpa only [conn_swap] using synchronised.up side.other
  agreed := fun side => by simpa only [conn_swap] using synchronised.agreed side.other
  acked := fun side => by simpa only [conn_swap] using synchronised.acked side.other
  queued := fun side => by simpa only [conn_swap] using synchronised.queued side.other
  drained := fun side => by simpa only [conn_swap] using synchronised.drained side.other
  ab := synchronised.ba
  ba := synchronised.ab

theorem Answers.swap (answers : link.Answers side) : link.swap.Answers side.other := by
  intro polled stepped
  rw [step_swap] at stepped
  obtain ⟨before, moved, rfl⟩ := Option.map_eq_some_iff.mp stepped
  obtain ⟨events, final, delivers, completed, quiet⟩ := answers before moved
  refine ⟨events.map fun event => (event.1.other, event.2), final.swap, ?_, ?_, quiet.swap⟩
  · intro event listed
    obtain ⟨event, among, rfl⟩ := List.mem_map.mp listed
    exact delivers event among
  · exact run_swap completed

/-- A acknowledges nothing new, and B has nothing to send. -/
theorem handleRr_idle {conn : AX25Connection} {frame : AX25Frame}
    (connected : conn.state = .connected) (acked : conn.va = conn.vs) (queued : conn.txQueue = [])
    (nr : frame.nr = conn.va) :
    conn.handleRr frame = { conn with peerBusy := false, t1Armed := false, t3Armed := true } := by
  have kept : AX25Connection.dropAcked conn.va conn.va conn.unacked = conn.unacked := by
    rw [AX25Connection.dropAcked, if_pos rfl]
  simp only [AX25Connection.handleRr, if_neg (not_not.mpr connected), AX25Connection.updateVa, nr,
    kept]
  rw [if_pos acked]
  simp only [AX25Connection.pumpTx, AX25Connection.stopT1, AX25Connection.stopT3,
    AX25Connection.startT3, connected, queued]
  rfl

/-- A waits for an answer to its poll, and B, which has nothing to send, may not have seen it. -/
structure Polling (link : Link) : Prop where
  armed : link.a.t1Armed = true
  ba : link.ba = []
  ab : ∀ frame ∈ link.ab, frame.frameType = .rr ∧ frame.nr = link.b.va
  up : link.b.state = .connected
  acked : link.b.va = link.b.vs
  queued : link.b.txQueue = []
  drained : link.b.sent = []

theorem Polling.deliver (polling : link.Polling)
    (stepped : link.step (side, .deliver) = some next) : next.Polling := by
  cases side with
  | a => simp [step, stepA, polling.ba] at stepped
  | b =>
      obtain ⟨swapped, moved, rfl⟩ := Option.map_eq_some_iff.mp stepped
      cases flight : link.ab with
      | nil => simp [stepA, Link.swap, flight] at moved
      | cons frame rest =>
          obtain ⟨⟨kind, nr⟩, others⟩ := List.forall_mem_cons.mp (flight ▸ polling.ab)
          have read := handleRr_idle polling.up polling.acked polling.queued nr
          have handled : link.b.handleFrame frame = link.b.handleRr frame := by
            simp only [AX25Connection.handleFrame, kind]
          simp only [stepA, Link.swap, flight, AX25Connection.step, handled, read, Option.map_some,
            Option.some.injEq, settle] at moved
          subst moved
          exact ⟨polling.armed, by simp [Link.swap, polling.ba, polling.drained], others,
            polling.up, polling.acked, polling.queued, rfl⟩

theorem Polling.unanswered (polling : link.Polling) (delivers : ∀ event ∈ events, event.2 = .deliver)
    (completed : run step link events = some final) : ¬ final.Quiet := by
  induction events generalizing link with
  | nil =>
      cases completed
      intro quiet
      exact absurd (quiet.timers .a) (by simp [conn, polling.armed])
  | cons event events ih =>
      obtain ⟨first, others⟩ := List.forall_mem_cons.mp delivers
      obtain ⟨next, stepped, rest⟩ := run_cons completed
      obtain ⟨side, event⟩ := event
      obtain rfl : event = .deliver := first
      exact ih (polling.deliver stepped) others rest

theorem Synchronised.polls (synchronised : link.Synchronised) (armed : link.a.t3Armed = true) :
    ∃ polled, link.step (.a, .t3Expire) = some polled ∧ polled.Polling := by
  have up : link.a.state = .connected := synchronised.up .a
  have agreed : link.b.vs = link.a.vr := synchronised.agreed .b
  have drained : link.a.sent = [] := synchronised.drained .a
  refine ⟨link.settle link.a.t3Expire, by simp [step, stepA, AX25Connection.step, armed], ?_⟩
  have expired : link.a.t3Expire =
      (link.a.stopT3.send (.rr link.a.makeDest link.a.makeSrc link.a.vr true true)).startT1 := by
    simp only [AX25Connection.t3Expire]
    exact if_pos up
  rw [expired]
  refine ⟨rfl, synchronised.ba, ?_, synchronised.up .b, synchronised.acked .b,
    synchronised.queued .b, synchronised.drained .b⟩
  intro frame flying
  have one : frame = .rr link.a.makeDest link.a.makeSrc link.a.vr true true := by
    simpa [settle, synchronised.ab, AX25Connection.startT1, AX25Connection.send,
      AX25Connection.stopT3, drained] using flying
  subst one
  refine ⟨AX25Frame.frameType_rr _, (AX25Frame.nr_rr _).trans ?_⟩
  rw [← agreed]
  exact (synchronised.acked .b).symm

theorem Synchronised.unanswered (synchronised : link.Synchronised)
    (armed : link.a.t3Armed = true) : ¬ link.Answers .a := by
  intro answers
  obtain ⟨polled, stepped, polling⟩ := synchronised.polls armed
  obtain ⟨events, final, delivers, completed, quiet⟩ := answers polled stepped
  exact polling.unanswered delivers completed quiet

/-- No poll is answered: T1 stays armed at the end that sent it. -/
theorem poll_unanswered (synchronised : link.Synchronised) (side : Side)
    (armed : (link.conn side).t3Armed = true) : ¬ link.Answers side := by
  cases side with
  | a => exact synchronised.unanswered armed
  | b => exact fun answers => synchronised.swap.unanswered armed answers.swap

private def west : AX25Address := { callsign := "AI3I" }
private def east : AX25Address := { callsign := "W3BBS" }

/-- The two ends of a link that has just been set up. -/
private def fresh (localAddr remoteAddr : AX25Address) : AX25Connection :=
  { AX25Connection.init localAddr remoteAddr with
    state := .connected, t3Armed := true, connectedEvent := true }

private def freshLink : Link := { a := fresh west east, b := fresh east west }

theorem freshLink_synchronised : freshLink.Synchronised := by
  constructor <;> first | rfl | exact fun side => by cases side <;> rfl

theorem freshLink_unanswered : ¬ freshLink.Answers .b :=
  poll_unanswered freshLink_synchronised .b rfl

/-- The poll is delivered, and T1 runs on at the end that sent it. -/
theorem freshLink_polls :
    freshLink.Synchronised ∧ ¬ freshLink.Answers .a ∧
      ∃ final, run step freshLink [(.a, .t3Expire), (.b, .deliver)] = some final ∧
        final.ab = [] ∧ final.ba = [] ∧ final.a.t1Armed = true :=
  ⟨freshLink_synchronised, freshLink_synchronised.unanswered rfl, _, rfl, rfl, rfl, rfl⟩

end Link

end PyBulletin.Ax25
