import PyBulletin.Foundation.Faultless
import PyBulletin.Ax25.KeepAlive

set_option autoImplicit false

namespace PyBulletin.Ax25

open PyBulletin.Foundation

/-- A connected end that may send.  `_local_busy` is never set. -/
structure Working (conn : AX25Connection) : Prop where
  connected : conn.state = .connected
  peerFree : conn.peerBusy = false
  localFree : conn.localBusy = false
  positive : 0 < conn.paclen

/-- An I or RR frame: what a working end sends while nothing is lost. -/
def Ordinary (frame : AX25Frame) : Prop := frame.frameType = .i ∨ frame.frameType = .rr

/-- `conn`, with `channel` in flight, is the near end of the Go-Back-N link. -/
structure Plays (channel : List AX25Frame) (written : Bytes) (conn : AX25Connection)
    (link : GoBackN.Link Bytes) : Prop where
  mirrors : Mirrors link.far link.back channel conn link.near link.out
  ledger : Ledger conn link.near.accepted written
  working : Working conn
  plain : ∀ frame ∈ conn.sent, Ordinary frame

section Plays

variable {channel : List AX25Frame} {written : Bytes} {conn : AX25Connection}
variable {link : GoBackN.Link Bytes}

theorem Plays.timers (plays : Plays channel written conn link) (t1Armed t3Armed : Bool) :
    Plays channel written { conn with t1Armed := t1Armed, t3Armed := t3Armed } link where
  mirrors := ⟨plays.mirrors.good, { plays.mirrors.tracks with }, plays.mirrors.carried⟩
  ledger := { plays.ledger with }
  working := { plays.working with }
  plain := plays.plain

theorem Plays.sendAck (plays : Plays channel written conn link) (pf command : Bool) :
    Plays channel written (conn.send (.rr conn.makeDest conn.makeSrc conn.vr pf command))
      { link with out := link.out ++ [.ack link.near.received] } where
  mirrors :=
    plays.mirrors.send
      (.ack _ (.inl (AX25Frame.frameType_rr _))
        ((AX25Frame.nr_rr _).trans plays.mirrors.tracks.vr))
      (plays.mirrors.good.action (.sendAck _))
  ledger := { plays.ledger with }
  working := { plays.working with }
  plain := by
    intro frame listed
    rcases List.mem_append.mp listed with before | new
    · exact plays.plain frame before
    · rw [List.mem_singleton.mp new]
      exact .inr (AX25Frame.frameType_rr _)

/-- One chunk leaves the queue. -/
theorem Plays.sendNew {data : Bytes} {queue : List Bytes}
    (plays : Plays channel written { conn with txQueue := data :: queue } link)
    (room : ¬ windowSize ≤ (conn.vs - conn.va).val) (armed : Bool) :
    ¬ link.near.acked + windowSize ≤ link.near.sent ∧
      Plays channel written
        { conn with
          unacked := Function.update conn.unacked conn.vs
            (some (.iframe conn.makeDest conn.makeSrc conn.vs conn.vr data))
          vs := conn.vs + 1
          t1Armed := armed
          txQueue := queue
          sent := conn.sent ++ [.iframe conn.makeDest conn.makeSrc conn.vs conn.vr data] }
        { link with
          near := { link.near with sent := link.near.sent + 1 }
          out := link.out ++ [.data link.near.sent data link.near.received] } := by
  have mirrors := plays.mirrors
  have order := mirrors.order
  have distance := mirrors.room
  have space : link.near.sent < link.near.acked + windowSize := by
    simp only [ahead] at distance
    omega
  have stored : link.near.accepted[link.near.sent]? = some data := by
    have head := congrArg List.head? mirrors.tracks.queued
    simpa using head.symm
  have rest : queue = link.near.accepted.drop (link.near.sent + 1) := by
    have tail := congrArg List.tail mirrors.tracks.queued
    simpa using tail
  have carries : Carries (.iframe conn.makeDest conn.makeSrc conn.vs conn.vr data)
      (.data link.near.sent data link.near.received) :=
    .data _ _ (AX25Frame.frameType_iframe _ _)
      ((AX25Frame.ns_iframe _ _).trans mirrors.tracks.vs)
      ((AX25Frame.nr_iframe _ _).trans mirrors.tracks.vr)
  refine ⟨Nat.not_le.mpr space, ⟨?_, ?_, ?_⟩, { plays.ledger with }, { plays.working with }, ?_⟩
  · exact mirrors.good.action (.sendNew _ data space stored)
  · rw [rest]
    exact { mirrors.tracks.sendNew armed order space stored with }
  · exact mirrors.carry carries
  · intro frame listed
    rcases List.mem_append.mp listed with before | new
    · exact plays.plain frame before
    · rw [List.mem_singleton.mp new]
      exact .inl (AX25Frame.frameType_iframe _ _)

theorem Plays.pumpQueue (queue : List Bytes)
    (plays : Plays channel written { conn with txQueue := queue } link) :
    Plays channel written (conn.pumpQueue queue) (link.pumpQueue windowSize queue) := by
  induction queue generalizing conn link with
  | nil => exact plays
  | cons data queue ih =>
      rw [AX25Connection.pumpQueue, GoBackN.Link.pumpQueue]
      split
      next full =>
        have distance := plays.mirrors.room
        have order := plays.mirrors.order
        rw [if_pos]
        · exact plays
        · simp only [ahead] at distance
          simp only [windowSize] at full ⊢
          omega
      next room =>
        rw [if_neg (plays.sendNew room true).1]
        apply ih
        split
        · exact (plays.sendNew room conn.t1Armed).2
        · exact (plays.sendNew room true).2

theorem Plays.pumpTx (plays : Plays channel written conn link) :
    Plays channel written conn.pumpTx (link.pump windowSize) := by
  have working := plays.working
  unfold AX25Connection.pumpTx GoBackN.Link.pump
  rw [if_neg (by simp [working.connected, working.peerFree]), ← plays.mirrors.tracks.queued]
  exact Plays.pumpQueue conn.txQueue plays

/-- The I frame in sequence is taken and acknowledged. -/
theorem Plays.acceptI {number ack : Nat} {frame : AX25Frame}
    {rest : List (GoBackN.Packet Bytes)} (plays : Plays channel written conn link)
    (head : link.back = .data number frame.info ack :: rest)
    (next : number = link.near.received) (ns : frame.ns = seqNumber number)
    (nr : frame.nr = seqNumber ack) :
    Plays channel written ((conn.updateVa frame.nr).acceptI frame)
      (link.take (.data number frame.info ack) rest) := by
  have mirrors := plays.mirrors
  have good := mirrors.good.action (.receive _ _ _ head)
  rw [head] at mirrors
  obtain ⟨lower, upper⟩ := mirrors.ack_bounds rfl
  have updated := mirrors.tracks.updateVa mirrors.window lower upper
  have inSequence : frame.ns = conn.vr := by rw [ns, next, mirrors.tracks.vr]
  have free : ¬ conn.localBusy = true := by simp [plays.working.localFree]
  simp only [GoBackN.Peer.receive, if_pos next] at good
  rw [← nr] at updated
  have received : Plays channel written
      (if frame.info ≠ [] then
        { conn.updateVa frame.nr with vr := (conn.updateVa frame.nr).vr + 1 }.putRx frame.info
      else { conn.updateVa frame.nr with vr := (conn.updateVa frame.nr).vr + 1 })
      { link with
        near := { link.near with
          acked := ack, received := link.near.received + 1
          delivered := link.near.delivered ++ [frame.info] }
        back := rest } := by
    refine ⟨⟨good, updated.deliver frame.info, ?_⟩, ?_, ?_, ?_⟩
    · split <;> exact mirrors.carried
    · split <;> exact { plays.ledger with }
    · split <;> exact { plays.working with }
    · split <;> exact plays.plain
  have answered := received.sendAck false false
  simp only [AX25Connection.acceptI, GoBackN.Link.take, GoBackN.Packet.answer,
    GoBackN.Peer.receive, if_pos next]
  rw [if_pos (by exact inSequence), if_pos (by split <;> exact free)]
  exact answered

theorem Plays.receiveAck {number : Nat} {frame : AX25Frame} {rest : List (GoBackN.Packet Bytes)}
    (plays : Plays channel written conn link) (head : link.back = .ack number :: rest)
    (nr : frame.nr = seqNumber number) :
    Plays channel written (conn.updateVa frame.nr) (link.take (.ack number) rest) := by
  have mirrors := plays.mirrors
  rw [head] at mirrors
  simp only [GoBackN.Link.take, GoBackN.Packet.answer, List.append_nil]
  exact ⟨mirrors.receiveAck nr, { plays.ledger with }, { plays.working with }, plays.plain⟩

/-- What the peer sends is handled as the packet it carries. -/
theorem Plays.handleFrame {frame : AX25Frame} {packet : GoBackN.Packet Bytes}
    {rest : List (GoBackN.Packet Bytes)} (plays : Plays channel written conn link)
    (head : link.back = packet :: rest) (carries : Carries frame packet) (ordinary : Ordinary frame)
    (ordered : GoBackN.Ordered windowSize link) :
    Plays channel written (conn.handleFrame frame) ((link.take packet rest).pump windowSize) := by
  have up : ¬ conn.state ≠ .connected := not_not.mpr plays.working.connected
  unfold AX25Connection.handleFrame
  cases carries with
  | data number ack kind ns nr =>
      have next := (ordered.in_sequence head).1
      have accepted := (plays.timers conn.t1Armed true).acceptI head next ns nr
      simp only [kind, AX25Connection.handleI, if_neg up]
      apply Plays.pumpTx
      split
      · exact accepted.timers false _
      · exact accepted
  | ack number kind nr =>
      have acked := plays.receiveAck head nr
      have rr : frame.frameType = .rr := by
        rcases ordinary with data | rr
        · rcases kind with kind | kind | kind <;> rw [data] at kind <;> contradiction
        · exact rr
      have same : { conn with peerBusy := false } = conn := by rw [← plays.working.peerFree]
      simp only [rr, AX25Connection.handleRr, if_neg up, same]
      apply Plays.pumpTx
      split
      · exact acked.timers false true
      · exact acked.timers _ true
  | control kind =>
      rcases ordinary with data | rr
      · rw [data] at kind
        contradiction
      · rw [rr] at kind
        contradiction

theorem Plays.t3Expire (plays : Plays channel written conn link) :
    Plays channel written conn.t3Expire
      { link with out := link.out ++ [.ack link.near.received] } := by
  have stopped := plays.timers conn.t1Armed false
  have connected : conn.stopT3.state = .connected := plays.working.connected
  unfold AX25Connection.t3Expire
  rw [if_pos connected]
  exact (stopped.sendAck true true).timers true _

theorem Plays.write (plays : Plays channel written conn link) (data : Bytes) :
    Plays channel (written ++ data) ((conn.write data).getD conn)
      (link.move windowSize (.accept ((AX25Connection.chunks conn.paclen data).getD []))) := by
  have working := plays.working
  obtain ⟨pieces, cut, together⟩ := chunks_flatten working.positive data
  have complete : (link.near.accepted ++ pieces).flatten = written ++ data := by
    rw [List.flatten_append, together, plays.ledger.whole working.connected working.positive]
  unfold AX25Connection.write
  rw [if_neg (not_not.mpr working.connected), cut]
  apply Plays.pumpTx
  exact ⟨plays.mirrors.queue pieces,
    { plays.ledger with
      whole := fun _ _ => complete
      stalled := fun stuck => absurd working.positive (Int.not_lt.mpr stuck)
      honest := complete ▸ List.prefix_rfl },
    { working with }, plays.plain⟩

end Plays

/-- No frame is lost and no T1 expires. -/
def Undisturbed : LinkEvent → Prop
  | .write _ | .deliver | .t3Expire => True
  | .lose | .t1Expire => False

namespace Link

variable {link next start final : Link} {abstract : GoBackN.Link Bytes}

/-- The link is a faultless Go-Back-N link, and both ends are at work. -/
structure Serving (link : Link) (abstract : GoBackN.Link Bytes) : Prop where
  refines : link.Refines abstract
  faultless : GoBackN.Faultless windowSize abstract
  workingA : Working link.a
  workingB : Working link.b
  ordinaryAB : ∀ frame ∈ link.ab, Ordinary frame
  ordinaryBA : ∀ frame ∈ link.ba, Ordinary frame

theorem Refines.swap (refines : link.Refines abstract) : link.swap.Refines abstract.mirror where
  good := refines.good.mirror
  tracksA := refines.tracksB
  tracksB := refines.tracksA
  carriedAB := refines.carriedBA
  carriedBA := refines.carriedAB
  ledgerA := refines.ledgerB
  ledgerB := refines.ledgerA
  drainedA := refines.drainedB
  drainedB := refines.drainedA

theorem Serving.swap (serving : link.Serving abstract) : link.swap.Serving abstract.mirror where
  refines := serving.refines.swap
  faultless := serving.faultless.mirror
  workingA := serving.workingB
  workingB := serving.workingA
  ordinaryAB := serving.ordinaryBA
  ordinaryBA := serving.ordinaryAB

/-- What an event at A means to the Go-Back-N link. -/
def moveOf (link : Link) : LinkEvent → GoBackN.Move Bytes
  | .write data => .accept ((AX25Connection.chunks link.a.paclen data).getD [])
  | .deliver => .receive
  | .t3Expire => if link.a.t3Armed then .poll else .rest
  | .lose | .t1Expire => .rest

/-- An event that cannot happen changes nothing. -/
def happen (link : Link) (event : Side × LinkEvent) : Link := (link.step event).getD link

def turnOf (link : Link) : Side × LinkEvent → GoBackN.End × GoBackN.Move Bytes
  | (.a, event) => (.near, link.moveOf event)
  | (.b, event) => (.far, link.swap.moveOf event)

theorem Serving.plays (serving : link.Serving abstract) :
    Plays link.ab link.writtenA link.a abstract where
  mirrors := serving.refines.mirrors
  ledger := serving.refines.ledgerA
  working := serving.workingA
  plain := by simp [serving.refines.drainedA]

theorem Serving.settle {conn : AX25Connection} {ba : List AX25Frame} {written : Bytes}
    {later : GoBackN.Link Bytes} (serving : link.Serving abstract)
    (plays : Plays link.ab written conn later) (faultless : GoBackN.Faultless windowSize later)
    (far : later.far = abstract.far) (carried : List.Forall₂ Carries ba later.back)
    (ordinary : ∀ frame ∈ ba, Ordinary frame) :
    ({ link with ba := ba, writtenA := written }.settle conn).Serving later where
  refines :=
    { good := faultless.ordered.good
      tracksA := { plays.mirrors.tracks with }
      tracksB := by rw [far]; exact serving.refines.tracksB
      carriedAB := plays.mirrors.carried
      carriedBA := carried
      ledgerA := { plays.ledger with }
      ledgerB := by rw [far]; exact serving.refines.ledgerB
      drainedA := rfl
      drainedB := serving.refines.drainedB }
  faultless := faultless
  workingA := { plays.working with }
  workingB := serving.workingB
  ordinaryAB := by
    intro frame listed
    rcases List.mem_append.mp listed with before | new
    · exact serving.ordinaryAB frame before
    · exact plays.plain frame new
  ordinaryBA := ordinary

theorem Serving.stepA {event : LinkEvent} (serving : link.Serving abstract)
    (calm : Undisturbed event) :
    ((link.stepA event).getD link).Serving (abstract.move windowSize (link.moveOf event)) := by
  have faultless := serving.faultless.move (link.moveOf event)
  have far := (GoBackN.move_sends windowSize abstract (link.moveOf event)).1
  cases event with
  | write data =>
      have waits : link.moveOf (.write data) ≠ .receive := by simp [moveOf]
      have back := (GoBackN.move_waits windowSize abstract waits).1
      exact serving.settle (serving.plays.write data) faultless far
        (by rw [back]; exact serving.refines.carriedBA) serving.ordinaryBA
  | deliver =>
      cases arrived : link.ba with
      | nil =>
          have empty : abstract.back = [] := by
            have carried := serving.refines.carriedBA
            rw [arrived] at carried
            exact List.forall₂_nil_left_iff.mp carried
          have still : abstract.move windowSize .receive = abstract := by
            rw [GoBackN.Link.move, empty]
          simp only [Link.stepA, arrived, moveOf, still, Option.getD_none]
          exact serving
      | cons frame rest =>
          obtain ⟨packet, back, head, carries, carried⟩ := serving.refines.arrived arrived
          have ordinary := serving.ordinaryBA
          rw [arrived] at ordinary
          have handled := serving.plays.handleFrame head carries (ordinary frame (by simp))
            serving.faultless.ordered
          have moved : abstract.move windowSize .receive =
              (abstract.take packet back).pump windowSize := by
            rw [GoBackN.Link.move, head]
          have left := (GoBackN.move_receive windowSize head).1
          simp only [moveOf] at faultless far
          simp only [Link.stepA, arrived, moveOf]
          rw [moved] at faultless far left ⊢
          exact serving.settle handled faultless far (by rw [left]; exact carried)
            fun frame listed => ordinary frame (by simp [listed])
  | t3Expire =>
      cases armed : link.a.t3Armed with
      | false =>
          simpa [Link.stepA, AX25Connection.step, moveOf, armed, GoBackN.Link.move] using serving
      | true =>
          simp only [moveOf, armed, if_true] at faultless far ⊢
          simp only [Link.stepA, AX25Connection.step, armed, if_true]
          exact serving.settle serving.plays.t3Expire faultless far serving.refines.carriedBA
            serving.ordinaryBA
  | lose => exact calm.elim
  | t1Expire => exact calm.elim

theorem Serving.happen {event : Side × LinkEvent} (serving : link.Serving abstract)
    (calm : Undisturbed event.2) :
    (link.happen event).Serving (abstract.turn windowSize (link.turnOf event)) := by
  obtain ⟨side, event⟩ := event
  cases side with
  | a => exact serving.stepA calm
  | b =>
      have swapped := (serving.swap.stepA calm).swap
      have same : link.happen (.b, event) = ((link.swap.stepA event).getD link.swap).swap := by
        rw [Link.happen, step]
        cases link.swap.stepA event <;> rfl
      rw [same]
      exact swapped

/-- The Go-Back-N link before any traffic. -/
def idle : GoBackN.Link Bytes := ⟨⟨[], 0, 0, 0, []⟩, ⟨[], 0, 0, 0, []⟩, [], []⟩

theorem Initial.serving (initial : start.Initial) (workingA : Working start.a)
    (workingB : Working start.b) : start.Serving idle where
  refines :=
    { good := by constructor <;> constructor <;> simp [idle]
      tracksA := initial.freshA.tracks
      tracksB := initial.freshB.tracks
      carriedAB := by rw [initial.ab]; exact .nil
      carriedBA := by rw [initial.ba]; exact .nil
      ledgerA := by rw [initial.writtenA]; exact initial.freshA.ledger
      ledgerB := by rw [initial.writtenB]; exact initial.freshB.ledger
      drainedA := initial.freshA.sent
      drainedB := initial.freshB.sent }
  faultless :=
    { ordered := ⟨by constructor <;> constructor <;> simp [idle], ⟨rfl, rfl⟩, ⟨rfl, rfl⟩⟩
      fullNear := .inl (Nat.le_refl _)
      fullFar := .inl (Nat.le_refl _) }
  workingA := workingA
  workingB := workingB
  ordinaryAB := by simp [initial.ab]
  ordinaryBA := by simp [initial.ba]

/-- What A has sent the far end as chunks, B has as bytes. -/
theorem Serving.received_eq (serving : link.Serving abstract) :
    received link.b = abstract.far.delivered.flatten := by
  rw [received, serving.refines.tracksB.delivered, List.flatten_filter_ne_nil]

theorem Serving.written_eq (serving : link.Serving abstract) :
    link.writtenA = abstract.near.accepted.flatten :=
  (serving.refines.ledgerA.whole serving.workingA.connected serving.workingA.positive).symm

/-- Nothing is in flight towards either end, and A has nothing to send or to send again. -/
theorem Serving.idle_whole (serving : link.Serving abstract) (ab : link.ab = []) (ba : link.ba = []) :
    received link.b = link.writtenA ∧ link.a.va = link.a.vs ∧ link.a.txQueue = [] := by
  have out : abstract.out = [] := by
    have carried := serving.refines.carriedAB
    rw [ab] at carried
    exact List.forall₂_nil_left_iff.mp carried
  have back : abstract.back = [] := by
    have carried := serving.refines.carriedBA
    rw [ba] at carried
    exact List.forall₂_nil_left_iff.mp carried
  obtain ⟨acked, sent, delivered⟩ := serving.faultless.idle (by decide) out back
  refine ⟨?_, ?_, ?_⟩
  · rw [serving.received_eq, serving.written_eq, delivered]
  · rw [serving.refines.tracksA.va, serving.refines.tracksA.vs, acked]
  · rw [serving.refines.tracksA.queued, sent, List.drop_length]

theorem run_serving {events : List (Side × LinkEvent)} (calm : ∀ event ∈ events, Undisturbed event.2)
    (serving : ∃ abstract, start.Serving abstract)
    (completed : run Link.step start events = some final) : ∃ abstract, final.Serving abstract := by
  induction events generalizing start with
  | nil =>
      cases completed
      exact serving
  | cons event events ih =>
      obtain ⟨next, stepped, rest⟩ := run_cons completed
      obtain ⟨abstract, before⟩ := serving
      have after := before.happen (calm event (by simp))
      rw [Link.happen, stepped] at after
      exact ih (fun other listed => calm other (by simp [listed])) ⟨_, after⟩ rest

/-- A link that loses nothing comes to rest only when everything has arrived and been
acknowledged, and its ends stay connected. -/
theorem rest_received {events : List (Side × LinkEvent)} (initial : start.Initial)
    (workingA : Working start.a) (workingB : Working start.b)
    (calm : ∀ event ∈ events, Undisturbed event.2)
    (completed : run Link.step start events = some final) :
    final.a.state = .connected ∧ final.b.state = .connected ∧
      (final.ab = [] → final.ba = [] →
        received final.b = final.writtenA ∧ received final.a = final.writtenB ∧
          final.a.va = final.a.vs ∧ final.a.txQueue = [] ∧
          final.b.va = final.b.vs ∧ final.b.txQueue = []) := by
  obtain ⟨abstract, serving⟩ := run_serving calm ⟨_, initial.serving workingA workingB⟩ completed
  refine ⟨serving.workingA.connected, serving.workingB.connected, fun ab ba => ?_⟩
  obtain ⟨arrivedB, ackedA, queueA⟩ := serving.idle_whole ab ba
  obtain ⟨arrivedA, ackedB, queueB⟩ := serving.swap.idle_whole ba ab
  exact ⟨arrivedB, arrivedA, ackedA, queueA, ackedB, queueB⟩

private def working (localAddr remoteAddr : AX25Address) : AX25Connection :=
  { AX25Connection.init localAddr remoteAddr 2 with state := .connected, t3Armed := true }

private def pair : Link :=
  { a := working { callsign := "N0A" } { callsign := "N0B" }
    b := working { callsign := "N0B" } { callsign := "N0A" } }

private theorem pair_initial : pair.Initial :=
  ⟨⟨rfl, rfl, rfl, rfl, rfl, rfl, rfl⟩, ⟨rfl, rfl, rfl, rfl, rfl, rfl, rfl⟩, rfl, rfl, rfl, rfl⟩

private theorem pair_working : Working pair.a ∧ Working pair.b :=
  ⟨⟨rfl, rfl, rfl, by decide⟩, ⟨rfl, rfl, rfl, by decide⟩⟩

/-- Two chunks and a keep-alive. -/
private def conversation : List (Side × LinkEvent) :=
  [(.a, .write [1, 2, 3]), (.b, .deliver), (.b, .deliver), (.a, .t3Expire), (.a, .deliver),
    (.a, .deliver), (.b, .deliver)]

theorem rest_received_conversation :
    ∃ final, run Link.step pair conversation = some final ∧ received final.b = [1, 2, 3] ∧
      received final.b = final.writtenA ∧ final.a.va = final.a.vs := by
  obtain ⟨final, completed, ab, ba, received⟩ : ∃ final,
      run Link.step pair conversation = some final ∧ final.ab = [] ∧ final.ba = [] ∧
        Link.received final.b = [1, 2, 3] :=
    ⟨_, rfl, by rfl, by rfl, by decide⟩
  have calm : ∀ event ∈ conversation, Undisturbed event.2 := by simp [conversation, Undisturbed]
  obtain ⟨_, _, whole⟩ := rest_received pair_initial pair_working.1 pair_working.2 calm completed
  obtain ⟨arrived, _, acked, _⟩ := whole ab ba
  exact ⟨final, completed, received, arrived, acked⟩

/-- The turns of the Go-Back-N link along the course of the two connections. -/
def turns (start : Link) (schedule : Nat → Side × LinkEvent) (n : Nat) :
    GoBackN.End × GoBackN.Move Bytes :=
  (course happen schedule start n).turnOf (schedule n)

variable {schedule : Nat → Side × LinkEvent}

theorem course_serving (calm : ∀ n, Undisturbed (schedule n).2)
    (serving : start.Serving abstract) (n : Nat) :
    (course happen schedule start n).Serving
      (course (GoBackN.Link.turn windowSize) (start.turns schedule) abstract n) := by
  induction n with
  | zero => exact serving
  | succ n ih => exact ih.happen (calm n)

/-- Whatever A has written at some time, B has received at a later one. -/
theorem Serving.arrives (schedule : Nat → Side × LinkEvent) (calm : ∀ n, Undisturbed (schedule n).2)
    (fairA : Recurs schedule (· = (.a, .deliver))) (fairB : Recurs schedule (· = (.b, .deliver)))
    (serving : start.Serving abstract) (n : Nat) :
    ∃ m, n ≤ m ∧ (course Link.happen schedule start n).writtenA <+:
      received (course Link.happen schedule start m).b := by
  have far : Recurs (start.turns schedule) (· = (.far, .receive)) := by
    intro n
    obtain ⟨m, le, mine⟩ := fairB n
    exact ⟨m, le, by simp only [turns, mine, turnOf, moveOf]⟩
  have near : Recurs (start.turns schedule) (· = (.near, .receive)) := by
    intro n
    obtain ⟨m, le, mine⟩ := fairA n
    exact ⟨m, le, by simp only [turns, mine, turnOf, moveOf]⟩
  obtain ⟨m, le, delivered⟩ :=
    GoBackN.delivered_leads (by decide) serving.faultless far near n
  refine ⟨m, le, ?_⟩
  rw [(course_serving calm serving n).written_eq, (course_serving calm serving m).received_eq]
  obtain ⟨more, split⟩ := delivered
  rw [← split, List.flatten_append]
  exact List.prefix_append _ _

/-- The same events with the ends exchanged. -/
def exchanged (schedule : Nat → Side × LinkEvent) (n : Nat) : Side × LinkEvent :=
  ((schedule n).1.other, (schedule n).2)

theorem course_swap (n : Nat) :
    course happen (exchanged schedule) start.swap n = (course happen schedule start n).swap := by
  induction n with
  | zero => rfl
  | succ n ih =>
      rw [course, ih, exchanged, happen, step_swap, course, happen]
      cases (course happen schedule start n).step (schedule n) <;> rfl

theorem recurs_exchanged {side : Side} (fair : Recurs schedule (· = (side, .deliver))) :
    Recurs (exchanged schedule) (· = (side.other, .deliver)) := by
  intro n
  obtain ⟨m, le, mine⟩ := fair n
  exact ⟨m, le, by rw [exchanged, mine]⟩

/-- On a link that loses nothing and goes on delivering in both directions, whatever either
side has written at some time arrives. -/
theorem eventually_received (initial : start.Initial) (workingA : Working start.a)
    (workingB : Working start.b) (calm : ∀ n, Undisturbed (schedule n).2)
    (fairA : Recurs schedule (· = (.a, .deliver))) (fairB : Recurs schedule (· = (.b, .deliver)))
    (n : Nat) :
    (∃ m, n ≤ m ∧ (course happen schedule start n).writtenA <+:
      received (course happen schedule start m).b) ∧
    ∃ m, n ≤ m ∧ (course happen schedule start n).writtenB <+:
      received (course happen schedule start m).a := by
  have serving := initial.serving workingA workingB
  refine ⟨serving.arrives schedule calm fairA fairB n, ?_⟩
  obtain ⟨m, le, arrived⟩ := serving.swap.arrives (exchanged schedule)
    (fun n => calm n) (recurs_exchanged fairB) (recurs_exchanged fairA) n
  rw [course_swap, course_swap] at arrived
  exact ⟨m, le, arrived⟩

/-- A writes, and from then on both sides take turns to deliver. -/
private def alternating (n : Nat) : Side × LinkEvent :=
  if n = 0 then (.a, .write [1, 2, 3]) else if n % 2 = 0 then (.a, .deliver) else (.b, .deliver)

theorem eventually_received_alternating :
    ∃ m, 1 ≤ m ∧ [1, 2, 3] <+: received (course happen alternating pair m).b := by
  have calm (n : Nat) : Undisturbed (alternating n).2 := by
    unfold alternating
    split
    · trivial
    · split <;> trivial
  have fairA : Recurs alternating (· = (.a, .deliver)) := fun n =>
    ⟨2 * n + 2, by omega, by simp [alternating]⟩
  have fairB : Recurs alternating (· = (.b, .deliver)) := fun n =>
    ⟨2 * n + 1, by omega, by simp [alternating]⟩
  exact (eventually_received pair_initial pair_working.1 pair_working.2 calm fairA fairB 1).1

end Link

end PyBulletin.Ax25
