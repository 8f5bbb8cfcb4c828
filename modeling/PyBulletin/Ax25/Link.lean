import Mathlib.Data.List.Forall2
import PyBulletin.Foundation.GoBackN
import PyBulletin.Ax25.Window

set_option autoImplicit false

namespace PyBulletin.Ax25

open PyBulletin.Foundation

/-- `a` sends on `ab` and receives from `ba`.  `writtenA` and `writtenB` record the bytes of
the `write` events. -/
structure Link where
  a : AX25Connection
  b : AX25Connection
  ab : List AX25Frame := []
  ba : List AX25Frame := []
  writtenA : Bytes := []
  writtenB : Bytes := []

inductive Side where
  | a | b

inductive LinkEvent where
  | write (data : Bytes)
  | deliver
  | lose
  | t1Expire
  | t3Expire

namespace Link

variable (link : Link)

def swap : Link :=
  { a := link.b, b := link.a, ab := link.ba, ba := link.ab
    writtenA := link.writtenB, writtenB := link.writtenA }

/-- Frames handed to `send_frame_cb` enter the channel in order. -/
def settle (conn : AX25Connection) : Link :=
  { link with a := { conn with sent := [] }, ab := link.ab ++ conn.sent }

/-- An event at side A: `deliver` and `lose` take the head frame of the channel
towards A. -/
def stepA : LinkEvent → Option Link
  | .write data =>
      (link.a.step (.write data)).map
        { link with writtenA := link.writtenA ++ data }.settle
  | .deliver =>
      match link.ba with
      | [] => none
      | frame :: rest => (link.a.step (.receive frame)).map { link with ba := rest }.settle
  | .lose =>
      match link.ba with
      | [] => none
      | _ :: rest => some { link with ba := rest }
  | .t1Expire => (link.a.step .t1Expire).map link.settle
  | .t3Expire => (link.a.step .t3Expire).map link.settle

def step (link : Link) : Side × LinkEvent → Option Link
  | (.a, event) => link.stepA event
  | (.b, event) => (link.swap.stepA event).map swap

end Link

/-- The wire form of an unbounded sequence number. -/
def seqNumber (n : Nat) : Seq := Fin.ofNat 8 n

theorem seqNumber_succ (n : Nat) : seqNumber n + 1 = seqNumber (n + 1) := by
  apply Fin.ext
  simp only [seqNumber, Fin.val_add, Fin.val_ofNat]
  omega

theorem ahead_seqNumber {start n : Nat} (later : start ≤ n) (near : n < start + 8) :
    ahead (seqNumber start) (seqNumber n) = n - start := by
  simp only [ahead, seqNumber, Fin.val_sub, Fin.val_ofNat]
  omega

theorem seqNumber_eq_iff {m n : Nat} : seqNumber m = seqNumber n ↔ m % 8 = n % 8 := by
  simp only [seqNumber, Fin.ext_iff, Fin.val_ofNat]

/-- What a frame in flight means to the abstract protocol. -/
inductive Carries : AX25Frame → GoBackN.Packet Bytes → Prop where
  | data {frame : AX25Frame} (number ack : Nat) (kind : frame.frameType = .i)
      (ns : frame.ns = seqNumber number) (nr : frame.nr = seqNumber ack) :
      Carries frame (.data number frame.info ack)
  | ack {frame : AX25Frame} (number : Nat)
      (kind : frame.frameType = .rr ∨ frame.frameType = .rnr ∨ frame.frameType = .rej)
      (nr : frame.nr = seqNumber number) : Carries frame (.ack number)
  | control {frame : AX25Frame} (kind : frame.frameType = .dm) : Carries frame .control

/-- The counters of `conn` are those of `peer` modulo 8, its queues hold what the
peer has accepted and delivered. -/
structure Tracks (conn : AX25Connection) (peer : GoBackN.Peer Bytes) : Prop where
  vs : conn.vs = seqNumber peer.sent
  vr : conn.vr = seqNumber peer.received
  va : conn.va = seqNumber peer.acked
  unacked : ∀ n, peer.acked ≤ n → n < peer.sent →
    ∃ nr payload,
      conn.unacked (seqNumber n) =
          some (.iframe conn.makeDest conn.makeSrc (seqNumber n) nr payload) ∧
        peer.accepted[n]? = some payload
  queued : conn.txQueue = peer.accepted.drop peer.sent
  delivered : conn.rxQueue.filter (· ≠ []) = peer.delivered.filter (· ≠ [])

/-- `conn`, with `channel` already in flight towards `far`, is the near end of a
Go-Back-N link in good order. -/
structure Mirrors (far : GoBackN.Peer Bytes) (back : List (GoBackN.Packet Bytes))
    (channel : List AX25Frame) (conn : AX25Connection)
    (near : GoBackN.Peer Bytes) (out : List (GoBackN.Packet Bytes)) : Prop where
  good : GoBackN.Good windowSize ⟨near, far, out, back⟩
  tracks : Tracks conn near
  carried : List.Forall₂ Carries (channel ++ conn.sent) out

/-- What `written`, the bytes passed to `write`, has to do with the chunks `conn`
queued for them: all of them while connected, none with a `paclen` that makes no
chunks, and nothing more after the connection has given up. -/
structure Ledger (conn : AX25Connection) (accepted : List Bytes) (written : Bytes) : Prop where
  settled : conn.state = .connected ∨ conn.state = .disconnected
  whole : conn.state = .connected → 0 < conn.paclen → accepted.flatten = written
  stalled : conn.paclen ≤ 0 → accepted = []
  honest : accepted.flatten <+: written

/-- `conn` mirrors some near end that has accepted chunks of `written`. -/
def Serves (far : GoBackN.Peer Bytes) (back : List (GoBackN.Packet Bytes))
    (channel : List AX25Frame) (written : Bytes) (conn : AX25Connection) : Prop :=
  ∃ near out, Ledger conn near.accepted written ∧ Mirrors far back channel conn near out

section Serves

variable {far near : GoBackN.Peer Bytes} {back out : List (GoBackN.Packet Bytes)}
variable {channel : List AX25Frame} {written : Bytes} {conn : AX25Connection}

/-- A step that does not write keeps the ledger, whether or not it gives up. -/
theorem Ledger.later {next : AX25Connection} {accepted : List Bytes}
    (ledger : Ledger conn accepted written) (paclen : next.paclen = conn.paclen)
    (state : next.state = conn.state ∨ next.state = .disconnected) :
    Ledger next accepted written where
  settled := by
    rcases state with same | gone
    · rw [same]
      exact ledger.settled
    · exact .inr gone
  whole := by
    intro connected positive
    rcases state with same | gone
    · exact ledger.whole (same ▸ connected) (paclen ▸ positive)
    · rw [gone] at connected
      contradiction
  stalled := by
    rw [paclen]
    exact ledger.stalled
  honest := ledger.honest

theorem Tracks.putSentinel (tracks : Tracks conn near) : Tracks (conn.putRx []) near :=
  { tracks with
    delivered := by simpa [AX25Connection.putRx] using tracks.delivered }

theorem Mirrors.order (mirrors : Mirrors far back channel conn near out) :
    near.acked ≤ near.sent :=
  Nat.le_trans mirrors.good.1.acked_le mirrors.good.1.received_le

theorem Mirrors.window (mirrors : Mirrors far back channel conn near out) :
    near.sent ≤ near.acked + 7 :=
  mirrors.good.1.window_le

theorem Mirrors.carry {frame : AX25Frame} {packet : GoBackN.Packet Bytes}
    (mirrors : Mirrors far back channel conn near out) (carries : Carries frame packet) :
    List.Forall₂ Carries (channel ++ (conn.sent ++ [frame])) (out ++ [packet]) := by
  rw [← List.append_assoc]
  exact List.rel_append mirrors.carried (.cons carries .nil)

theorem Mirrors.send {frame : AX25Frame} {packet : GoBackN.Packet Bytes}
    (mirrors : Mirrors far back channel conn near out) (carries : Carries frame packet)
    (good : GoBackN.Good windowSize ⟨near, far, out ++ [packet], back⟩) :
    Mirrors far back channel (conn.send frame) near (out ++ [packet]) where
  good := good
  tracks := { mirrors.tracks with }
  carried := mirrors.carry carries

/-- An RR, RNR or REJ with the current V(R). -/
theorem Serves.acknowledge {frame : AX25Frame}
    (serves : Serves far back channel written conn)
    (kind : frame.frameType = .rr ∨ frame.frameType = .rnr ∨ frame.frameType = .rej)
    (nr : frame.nr = conn.vr) : Serves far back channel written (conn.send frame) := by
  obtain ⟨near, out, ledger, mirrors⟩ := serves
  have carries : Carries frame (.ack near.received) := .ack _ kind (nr.trans mirrors.tracks.vr)
  exact ⟨near, _, { ledger with }, mirrors.send carries (mirrors.good.action (.sendAck _))⟩

theorem Serves.report (serves : Serves far back channel written conn) (pf command : Bool) :
    Serves far back channel written
      (conn.send (.rr conn.makeDest conn.makeSrc conn.vr pf command)) :=
  serves.acknowledge (.inl (AX25Frame.frameType_rr _)) (AX25Frame.nr_rr _)

theorem Serves.refuse {frame : AX25Frame} (serves : Serves far back channel written conn)
    (kind : frame.frameType = .dm) : Serves far back channel written (conn.send frame) := by
  obtain ⟨near, out, ledger, mirrors⟩ := serves
  exact ⟨near, _, { ledger with }, mirrors.send (.control kind) (mirrors.good.action (.sendControl _))⟩

/-- Timers, flags and the retry counter take no part in the relation, and the
connection may give up at any time. -/
theorem Serves.frame_irrelevant {next : AX25Connection}
    (serves : Serves far back channel written conn)
    (state : next.state = conn.state ∨ next.state = .disconnected)
    (same : next =
      { conn with
        state := next.state, retryCount := next.retryCount
        t1Armed := next.t1Armed, t3Armed := next.t3Armed
        connectedEvent := next.connectedEvent, disconnectedEvent := next.disconnectedEvent
        peerBusy := next.peerBusy, localBusy := next.localBusy }) :
    Serves far back channel written next := by
  obtain ⟨near, out, ledger, mirrors⟩ := serves
  have kept := ledger.later (by rw [same]) state
  rw [same] at kept ⊢
  exact ⟨near, out, kept, mirrors.good, { mirrors.tracks with }, mirrors.carried⟩

theorem Serves.settled (serves : Serves far back channel written conn) :
    conn.state = .connected ∨ conn.state = .disconnected := by
  obtain ⟨_, _, ledger, _⟩ := serves
  exact ledger.settled

theorem Serves.putSentinel (serves : Serves far back channel written conn) :
    Serves far back channel written (conn.putRx []) := by
  obtain ⟨near, out, ledger, mirrors⟩ := serves
  exact ⟨near, out, { ledger with }, mirrors.good, mirrors.tracks.putSentinel, mirrors.carried⟩

theorem Mirrors.room (mirrors : Mirrors far back channel conn near out) :
    ahead conn.va conn.vs = near.sent - near.acked := by
  have window := mirrors.window
  rw [mirrors.tracks.va, mirrors.tracks.vs]
  exact ahead_seqNumber mirrors.order (by omega)

theorem Tracks.sendNew {data : Bytes} (tracks : Tracks conn near) (armed : Bool)
    (order : near.acked ≤ near.sent) (room : near.sent < near.acked + windowSize)
    (stored : near.accepted[near.sent]? = some data) :
    Tracks
      { conn with
        unacked := Function.update conn.unacked conn.vs
          (some (.iframe conn.makeDest conn.makeSrc conn.vs conn.vr data))
        vs := conn.vs + 1
        t1Armed := armed
        txQueue := near.accepted.drop (near.sent + 1)
        sent := conn.sent ++ [.iframe conn.makeDest conn.makeSrc conn.vs conn.vr data] }
      { near with sent := near.sent + 1 } where
  vs := by
    dsimp only
    rw [tracks.vs, seqNumber_succ]
  vr := tracks.vr
  va := tracks.va
  queued := rfl
  delivered := tracks.delivered
  unacked := by
    intro n unacked outstanding
    dsimp only at unacked outstanding ⊢
    rw [tracks.vs]
    by_cases last : n = near.sent
    · subst last
      exact ⟨conn.vr, data, by simp [AX25Connection.makeDest, AX25Connection.makeSrc], stored⟩
    · have other : seqNumber n ≠ seqNumber near.sent := by
        rw [Ne, seqNumber_eq_iff]
        simp only [windowSize] at room
        omega
      rw [Function.update_of_ne other]
      exact tracks.unacked n unacked (by omega)

theorem Serves.pumpQueue (queue : List Bytes)
    (serves : Serves far back channel written { conn with txQueue := queue }) :
    Serves far back channel written (conn.pumpQueue queue) := by
  induction queue generalizing conn with
  | nil => exact serves
  | cons data queue ih =>
      rw [AX25Connection.pumpQueue]
      split
      · exact serves
      next room =>
        apply ih
        obtain ⟨near, out, ledger, mirrors⟩ := serves
        have order := mirrors.order
        have distance := mirrors.room
        have space : near.sent < near.acked + windowSize := by
          simp only [ahead] at distance
          omega
        have stored : near.accepted[near.sent]? = some data := by
          have head := congrArg List.head? mirrors.tracks.queued
          simpa using head.symm
        have rest : queue = near.accepted.drop (near.sent + 1) := by
          have tail := congrArg List.tail mirrors.tracks.queued
          simpa using tail
        have advanced := mirrors.good.action (.sendNew _ data space stored)
        have carries : Carries
            (.iframe conn.makeDest conn.makeSrc conn.vs conn.vr data)
            (.data near.sent data near.received) :=
          .data _ _ (AX25Frame.frameType_iframe _ _)
            ((AX25Frame.ns_iframe _ _).trans mirrors.tracks.vs)
            ((AX25Frame.nr_iframe _ _).trans mirrors.tracks.vr)
        have carried := mirrors.carry carries
        rw [rest]
        refine ⟨{ near with sent := near.sent + 1 }, _, ?_, advanced, ?_, ?_⟩
        · split <;> exact { ledger with }
        · split
          · exact { mirrors.tracks.sendNew conn.t1Armed order space stored with }
          · exact { mirrors.tracks.sendNew true order space stored with }
        · split <;> exact carried

theorem Serves.pumpTx (serves : Serves far back channel written conn) :
    Serves far back channel written conn.pumpTx := by
  unfold AX25Connection.pumpTx
  split
  · exact serves
  · exact Serves.pumpQueue conn.txQueue serves

@[simp] theorem retransmitFrom_paclen (conn : AX25Connection) (seq : Seq) :
    (conn.retransmitFrom seq).paclen = conn.paclen := by
  obtain ⟨_, _, same⟩ := AX25Connection.retransmitFrom_frame conn seq
  rw [same]

theorem Tracks.renew {n : Nat} {nr : Seq} {payload : Bytes} (tracks : Tracks conn near)
    (window : near.sent ≤ near.acked + 7) (unacked : near.acked ≤ n) (outstanding : n < near.sent)
    (stored : near.accepted[n]? = some payload) :
    Tracks
      { conn with
        unacked := Function.update conn.unacked (seqNumber n)
          (some (.iframe conn.makeDest conn.makeSrc (seqNumber n) nr payload)) }
      near :=
  { tracks with
    unacked := by
      intro m started pending
      by_cases same : m = n
      · subst same
        exact ⟨nr, payload, by simp [AX25Connection.makeDest, AX25Connection.makeSrc], stored⟩
      · have other : seqNumber m ≠ seqNumber n := by
          rw [Ne, seqNumber_eq_iff]
          omega
        dsimp only
        rw [Function.update_of_ne other]
        exact tracks.unacked m started pending }

/-- Retransmission from any outstanding number repeats chunks that were accepted
at their own numbers. -/
theorem Mirrors.retransmitFrom {n : Nat} (mirrors : Mirrors far back channel conn near out)
    (unacked : near.acked ≤ n) (known : n ≤ near.sent) :
    ∃ after, Mirrors far back channel (conn.retransmitFrom (seqNumber n)) near after := by
  obtain ⟨count, left⟩ := Nat.exists_eq_add_of_le known
  induction count generalizing conn n out with
  | zero =>
      have finished : seqNumber n = conn.vs := by
        rw [mirrors.tracks.vs, left, Nat.add_zero]
      rw [AX25Connection.retransmitFrom, if_pos finished]
      exact ⟨out, mirrors⟩
  | succ count ih =>
      have window := mirrors.window
      have pending : seqNumber n ≠ conn.vs := by
        rw [mirrors.tracks.vs, Ne, seqNumber_eq_iff]
        omega
      obtain ⟨nr, payload, found, stored⟩ := mirrors.tracks.unacked n unacked (by omega)
      rw [AX25Connection.retransmitFrom, if_neg pending, found]
      simp only [AX25Frame.withNr_iframe]
      rw [seqNumber_succ]
      have carries : Carries
          (.iframe conn.makeDest conn.makeSrc (seqNumber n) conn.vr payload)
          (.data n payload near.received) :=
        .data _ _ (AX25Frame.frameType_iframe _ _) (AX25Frame.ns_iframe _ _)
          ((AX25Frame.nr_iframe _ _).trans mirrors.tracks.vr)
      have good := mirrors.good.action (.resend _ n payload unacked (by dsimp only; omega) stored)
      have renewed : Mirrors far back channel
          { conn with
            unacked := Function.update conn.unacked (seqNumber n)
              (some (.iframe conn.makeDest conn.makeSrc (seqNumber n) conn.vr payload)) }
          near out :=
        ⟨mirrors.good, mirrors.tracks.renew window unacked (by omega) stored, mirrors.carried⟩
      exact ih (renewed.send carries good) (by omega) (by omega) (by omega)

theorem Serves.retransmitAll (serves : Serves far back channel written conn) :
    Serves far back channel written (conn.retransmitFrom conn.va) := by
  obtain ⟨near, out, ledger, mirrors⟩ := serves
  obtain ⟨after, resent⟩ := mirrors.retransmitFrom (Nat.le_refl _) mirrors.order
  rw [← mirrors.tracks.va] at resent
  have kept := ledger.later (retransmitFrom_paclen conn conn.va)
    (.inl (AX25Connection.retransmitFrom_state conn conn.va))
  exact ⟨near, after, kept, resent⟩

theorem Tracks.updateVa {n : Nat} (tracks : Tracks conn near)
    (window : near.sent ≤ near.acked + 7) (lower : near.acked ≤ n) (upper : n ≤ near.sent) :
    Tracks (conn.updateVa (seqNumber n)) { near with acked := n } :=
  { tracks with
    va := rfl
    unacked := by
      intro m started outstanding
      dsimp only at started outstanding
      obtain ⟨nr, payload, found, stored⟩ := tracks.unacked m (by omega) outstanding
      have kept : ¬ ahead conn.va (seqNumber m) < ahead conn.va (seqNumber n) := by
        rw [tracks.va, ahead_seqNumber (by omega) (by omega),
          ahead_seqNumber lower (by omega)]
        omega
      refine ⟨nr, payload, ?_, stored⟩
      simp only [AX25Connection.updateVa, AX25Connection.dropAcked_apply, kept, if_false]
      exact found }

/-- The head of the channel acknowledges a number in the window. -/
theorem Mirrors.ack_bounds {packet : GoBackN.Packet Bytes} {n : Nat}
    (mirrors : Mirrors far (packet :: back) channel conn near out)
    (acks : packet.ack? = some n) : near.acked ≤ n ∧ n ≤ near.sent := by
  have bounds := mirrors.good.1.acks_bounds n (by simp [acks])
  exact ⟨bounds.1, Nat.le_trans bounds.2 mirrors.good.1.received_le⟩

theorem Mirrors.receiveAck {n : Nat} {nr : Seq}
    (mirrors : Mirrors far (.ack n :: back) channel conn near out) (same : nr = seqNumber n) :
    Mirrors far back channel (conn.updateVa nr) { near with acked := n } out := by
  obtain ⟨lower, upper⟩ := mirrors.ack_bounds rfl
  subst same
  exact ⟨mirrors.good.action (.receive ⟨near, far, out, _⟩ (.ack n) back rfl),
    mirrors.tracks.updateVa mirrors.window lower upper, mirrors.carried⟩

/-- A supervisory or DM frame taken without effect, as a loss. -/
theorem Mirrors.ignore {packet : GoBackN.Packet Bytes}
    (mirrors : Mirrors far (packet :: back) channel conn near out) :
    Mirrors far back channel conn near out :=
  ⟨mirrors.good.action (.lose _ _ _ rfl), mirrors.tracks, mirrors.carried⟩

theorem Tracks.deliver (tracks : Tracks conn near) (payload : Bytes) :
    Tracks
      (if payload ≠ [] then { conn with vr := conn.vr + 1 }.putRx payload
        else { conn with vr := conn.vr + 1 })
      { near with
        received := near.received + 1, delivered := near.delivered ++ [payload] } := by
  have counted : conn.vr + 1 = seqNumber (near.received + 1) := by
    rw [tracks.vr, seqNumber_succ]
  split
  next nonempty =>
    refine { tracks with vr := counted, delivered := ?_ }
    simp only [AX25Connection.putRx, List.filter_append, tracks.delivered]
  next empty =>
    refine { tracks with vr := counted, delivered := ?_ }
    simp only [List.filter_append, tracks.delivered, not_not.mp empty]
    simp

theorem Mirrors.acceptI {number ack : Nat} {frame : AX25Frame}
    (mirrors : Mirrors far (.data number frame.info ack :: back) channel conn near out)
    (ledger : Ledger conn near.accepted written)
    (ns : frame.ns = seqNumber number) (nr : frame.nr = seqNumber ack) :
    Serves far back channel written ((conn.updateVa frame.nr).acceptI frame) := by
  obtain ⟨lower, upper⟩ := mirrors.ack_bounds rfl
  have updated := mirrors.tracks.updateVa mirrors.window lower upper
  have good := mirrors.good.action
    (.receive ⟨near, far, out, _⟩ (.data number frame.info ack) back rfl)
  have sameCounter : frame.ns = conn.vr ↔ number = near.received := by
    rw [ns, mirrors.tracks.vr, seqNumber_eq_iff]
    exact mirrors.good.2.number_congr (by decide)
  rw [nr]
  unfold AX25Connection.acceptI
  split
  next inSequence =>
    have next := sameCounter.mp inSequence
    simp only [GoBackN.Peer.receive, next, if_true] at good
    have delivered : Serves far back channel written _ :=
      ⟨{ near with
          acked := ack
          received := near.received + 1, delivered := near.delivered ++ [frame.info] },
        out, by split <;> exact { ledger with }, ⟨good, updated.deliver frame.info, by
        split <;> exact mirrors.carried⟩⟩
    dsimp only at delivered ⊢
    generalize (if frame.info ≠ [] then _ else _ : AX25Connection) = received at delivered ⊢
    split
    · exact delivered.report false false
    · exact delivered.acknowledge (.inr (.inl (AX25Frame.frameType_rnr _))) (AX25Frame.nr_rnr _)
  next outOfSequence =>
    have skipped : number ≠ near.received := fun equal => outOfSequence (sameCounter.mpr equal)
    simp only [GoBackN.Peer.receive, skipped, if_false] at good
    have kept : Serves far back channel written (conn.updateVa (seqNumber ack)) :=
      ⟨{ near with acked := ack }, out, { ledger with }, good, updated, mirrors.carried⟩
    exact kept.acknowledge (.inr (.inr (AX25Frame.frameType_rej _))) (AX25Frame.nr_rej _)

theorem Serves.handleFrame {frame : AX25Frame} {packet : GoBackN.Packet Bytes}
    (ledger : Ledger conn near.accepted written)
    (mirrors : Mirrors far (packet :: back) channel conn near out)
    (carries : Carries frame packet) :
    Serves far back channel written (conn.handleFrame frame) := by
  have ignored : Serves far back channel written conn := ⟨near, out, ledger, mirrors.ignore⟩
  unfold AX25Connection.handleFrame
  cases carries with
  | data number ack kind ns nr =>
      simp only [kind]
      unfold AX25Connection.handleI
      split
      · exact ignored.refuse AX25Frame.frameType_dm
      · apply Serves.pumpTx
        have restarted : Mirrors far (.data number frame.info ack :: back) channel
            conn.stopT3.startT3 near out :=
          ⟨mirrors.good, { mirrors.tracks with }, mirrors.carried⟩
        have kept : Ledger conn.stopT3.startT3 near.accepted written := { ledger with }
        have accepted := restarted.acceptI kept ns nr
        split
        · exact accepted.frame_irrelevant (.inl rfl) rfl
        · exact accepted
  | ack number kind nr =>
      have updated : Serves far back channel written (conn.updateVa frame.nr) :=
        ⟨{ near with acked := number }, out, { ledger with }, mirrors.receiveAck nr⟩
      rcases kind with kind | kind | kind <;> simp only [kind]
      · unfold AX25Connection.handleRr
        split
        · exact ignored
        · apply Serves.pumpTx
          split <;> exact updated.frame_irrelevant (.inl rfl) rfl
      · unfold AX25Connection.handleRnr
        split
        · exact ignored
        · exact updated.frame_irrelevant (.inl rfl) rfl
      · unfold AX25Connection.handleRej
        split
        · exact ignored
        · have stopped : Serves far back channel written (conn.updateVa frame.nr).stopT1 :=
            updated.frame_irrelevant (.inl rfl) rfl
          have resent := stopped.retransmitAll
          dsimp only
          split
          · exact resent.frame_irrelevant (.inl rfl) rfl
          · exact resent
  | control kind =>
      simp only [kind]
      exact (ignored.frame_irrelevant (.inr rfl) rfl).putSentinel

theorem Serves.t1Expire (serves : Serves far back channel written conn) :
    Serves far back channel written conn.t1Expire := by
  have stopped : Serves far back channel written conn.stopT1 :=
    serves.frame_irrelevant (.inl rfl) rfl
  have settled := stopped.settled
  unfold AX25Connection.t1Expire
  generalize conn.stopT1 = conn at stopped settled
  dsimp only
  split
  case h_1 awaiting | h_2 awaiting => simp [awaiting] at settled
  case h_3 =>
      split
      · have counted : Serves far back channel written
            { conn with retryCount := conn.retryCount + 1 } :=
          stopped.frame_irrelevant (.inl rfl) rfl
        split
        · exact (counted.frame_irrelevant (.inr rfl) rfl).putSentinel
        · exact counted.retransmitAll.frame_irrelevant (.inl rfl) rfl
      · exact (stopped.report true true).frame_irrelevant (.inl rfl) rfl
  case h_4 => exact stopped

theorem Serves.t3Expire (serves : Serves far back channel written conn) :
    Serves far back channel written conn.t3Expire := by
  have stopped : Serves far back channel written conn.stopT3 :=
    serves.frame_irrelevant (.inl rfl) rfl
  unfold AX25Connection.t3Expire
  dsimp only
  split
  · exact (stopped.report true true).frame_irrelevant (.inl rfl) rfl
  · exact stopped

private theorem slices_flatten (data : Bytes) (step count : Nat) :
    ((List.range count).map fun j => (data.drop (j * step)).take step).flatten =
      data.take (count * step) := by
  induction count with
  | zero => simp
  | succ count ih =>
      rw [List.range_succ, List.map_append, List.flatten_append, ih, Nat.succ_mul, List.take_add]
      simp

/-- With a positive `paclen`, the chunks of `write` make up the data again. -/
theorem chunks_flatten {paclen : Int} (positive : 0 < paclen) (data : Bytes) :
    ∃ pieces, AX25Connection.chunks paclen data = some pieces ∧ pieces.flatten = data := by
  unfold AX25Connection.chunks
  rw [if_neg (by omega), if_neg (by omega)]
  refine ⟨_, rfl, ?_⟩
  rw [slices_flatten]
  apply List.take_of_length_le
  have wide : 0 < paclen.toNat := by omega
  have covered : max 1 data.length + paclen.toNat - 1 <
      (max 1 data.length + paclen.toNat - 1) / paclen.toNat * paclen.toNat + paclen.toNat :=
    Nat.lt_div_mul_add wide
  unfold AX25Connection.rangeLength
  omega

theorem Mirrors.queue (mirrors : Mirrors far back channel conn near out) (pieces : List Bytes) :
    Mirrors far back channel { conn with txQueue := conn.txQueue ++ pieces }
      { near with accepted := near.accepted ++ pieces } out where
  good := mirrors.good.action (.accept _ pieces)
  carried := mirrors.carried
  tracks :=
    { mirrors.tracks with
      queued := by
        have known : near.sent ≤ near.accepted.length := mirrors.good.1.sent_le
        rw [List.drop_append_of_le_length known, mirrors.tracks.queued]
      unacked := by
        intro n unacked outstanding
        obtain ⟨nr, payload, found, stored⟩ := mirrors.tracks.unacked n unacked outstanding
        refine ⟨nr, payload, found, ?_⟩
        rw [List.getElem?_append_left (List.getElem?_eq_some_iff.mp stored).1]
        exact stored }

theorem Serves.write (serves : Serves far back channel written conn) (data : Bytes) :
    Serves far back channel (written ++ data) ((conn.write data).getD conn) := by
  obtain ⟨near, out, ledger, mirrors⟩ := serves
  have longer : near.accepted.flatten <+: written ++ data :=
    ledger.honest.trans (List.prefix_append _ _)
  unfold AX25Connection.write
  split
  next gone =>
    exact ⟨near, out, { ledger with whole := fun connected => absurd connected gone, honest := longer },
      mirrors⟩
  next connected =>
    rcases Int.lt_or_le 0 conn.paclen with positive | stuck
    · obtain ⟨pieces, cut, together⟩ := chunks_flatten positive data
      have complete : (near.accepted ++ pieces).flatten = written ++ data := by
        rw [List.flatten_append, together, ledger.whole (not_not.mp connected) positive]
      rw [cut]
      apply Serves.pumpTx
      exact ⟨_, out,
        { ledger with
          whole := fun _ _ => complete
          stalled := fun stuck => absurd positive (Int.not_lt.mpr stuck)
          honest := complete ▸ List.prefix_rfl },
        mirrors.queue pieces⟩
    · have nothing := ledger.stalled stuck
      have silent : Ledger conn near.accepted (written ++ data) :=
        { ledger with
          whole := fun _ positive => absurd positive (by omega)
          honest := longer }
      unfold AX25Connection.chunks
      split
      · exact ⟨near, out, silent, mirrors⟩
      next nonzero =>
        rw [if_pos (by omega)]
        apply Serves.pumpTx
        have queued := mirrors.queue []
        simp only [List.append_nil] at queued ⊢
        exact ⟨near, out, { silent with }, queued⟩

end Serves

namespace Link

variable {link next start final : Link} {abstract : GoBackN.Link Bytes}

/-- The link refines a Go-Back-N link in good order. -/
structure Refines (link : Link) (abstract : GoBackN.Link Bytes) : Prop where
  good : GoBackN.Good windowSize abstract
  tracksA : Tracks link.a abstract.near
  tracksB : Tracks link.b abstract.far
  carriedAB : List.Forall₂ Carries link.ab abstract.out
  carriedBA : List.Forall₂ Carries link.ba abstract.back
  ledgerA : Ledger link.a abstract.near.accepted link.writtenA
  ledgerB : Ledger link.b abstract.far.accepted link.writtenB
  drainedA : link.a.sent = []
  drainedB : link.b.sent = []

def Synced (link : Link) : Prop := ∃ abstract, link.Refines abstract

theorem Synced.swap (synced : link.Synced) : link.swap.Synced := by
  obtain ⟨abstract, refines⟩ := synced
  exact ⟨abstract.mirror,
    { good := refines.good.mirror
      tracksA := refines.tracksB, tracksB := refines.tracksA
      carriedAB := refines.carriedBA, carriedBA := refines.carriedAB
      ledgerA := refines.ledgerB, ledgerB := refines.ledgerA
      drainedA := refines.drainedB, drainedB := refines.drainedA }⟩

theorem Refines.mirrors (refines : link.Refines abstract) :
    Mirrors abstract.far abstract.back link.ab link.a abstract.near abstract.out where
  good := refines.good
  tracks := refines.tracksA
  carried := by
    rw [refines.drainedA, List.append_nil]
    exact refines.carriedAB

/-- An event at A that serves the same far end restores the invariant. -/
theorem Refines.settle {ba : List AX25Frame} {back : List (GoBackN.Packet Bytes)}
    {written : Bytes} {conn : AX25Connection} (refines : link.Refines abstract)
    (carried : List.Forall₂ Carries ba back)
    (serves : Serves abstract.far back link.ab written conn) :
    ({ link with ba := ba, writtenA := written }.settle conn).Synced := by
  obtain ⟨near, out, ledger, mirrors⟩ := serves
  exact ⟨⟨near, abstract.far, out, back⟩,
    { good := mirrors.good
      tracksA := { mirrors.tracks with }, tracksB := refines.tracksB
      carriedAB := mirrors.carried, carriedBA := carried
      ledgerA := { ledger with }, ledgerB := refines.ledgerB
      drainedA := rfl, drainedB := refines.drainedB }⟩

/-- What arrives carries a packet of the abstract link. -/
theorem Refines.arrived (refines : link.Refines abstract) {frame : AX25Frame} {rest : List AX25Frame}
    (arrived : link.ba = frame :: rest) :
    ∃ packet back, abstract.back = packet :: back ∧ Carries frame packet ∧ List.Forall₂ Carries rest back := by
  have carried := refines.carriedBA
  rw [arrived] at carried
  cases inFlight : abstract.back with
  | nil => rw [inFlight] at carried; contradiction
  | cons packet back =>
      rw [inFlight] at carried
      obtain ⟨carries, carried⟩ := List.forall₂_cons.mp carried
      exact ⟨packet, back, rfl, carries, carried⟩

theorem Synced.stepA {event : LinkEvent} (synced : link.Synced)
    (stepped : link.stepA event = some next) : next.Synced := by
  obtain ⟨abstract, refines⟩ := synced
  have serves : Serves abstract.far abstract.back link.ab link.writtenA link.a :=
    ⟨abstract.near, abstract.out, refines.ledgerA, refines.mirrors⟩
  cases event with
  | write data =>
      cases stepped
      exact refines.settle refines.carriedBA (serves.write data)
  | deliver =>
      cases arrived : link.ba with
      | nil => simp [Link.stepA, arrived] at stepped
      | cons frame rest =>
          simp only [Link.stepA, arrived] at stepped
          cases stepped
          obtain ⟨packet, back, inFlight, carries, carried⟩ := refines.arrived arrived
          have mirrors := refines.mirrors
          rw [inFlight] at mirrors
          exact refines.settle carried (Serves.handleFrame refines.ledgerA mirrors carries)
  | lose =>
      cases arrived : link.ba with
      | nil => simp [Link.stepA, arrived] at stepped
      | cons frame rest =>
          simp only [Link.stepA, arrived] at stepped
          cases stepped
          obtain ⟨packet, back, inFlight, -, carried⟩ := refines.arrived arrived
          have mirrors := refines.mirrors
          rw [inFlight] at mirrors
          exact ⟨⟨abstract.near, abstract.far, abstract.out, back⟩,
            { refines with good := mirrors.ignore.good, carriedBA := carried }⟩
  | t1Expire =>
      obtain ⟨after, moved, rfl⟩ := Option.map_eq_some_iff.mp stepped
      obtain ⟨-, rfl⟩ := AX25Connection.step_t1Expire moved
      exact refines.settle refines.carriedBA serves.t1Expire
  | t3Expire =>
      obtain ⟨after, moved, rfl⟩ := Option.map_eq_some_iff.mp stepped
      obtain ⟨-, rfl⟩ := AX25Connection.step_t3Expire moved
      exact refines.settle refines.carriedBA serves.t3Expire

theorem Synced.step {event : Side × LinkEvent} (synced : link.Synced)
    (stepped : link.step event = some next) : next.Synced := by
  obtain ⟨side, event⟩ := event
  cases side with
  | a => exact synced.stepA stepped
  | b =>
      obtain ⟨swapped, moved, rfl⟩ := Option.map_eq_some_iff.mp stepped
      exact (synced.swap.stepA moved).swap

/-- One end right after the connection is established, before any traffic. -/
structure Fresh (conn : AX25Connection) : Prop where
  connected : conn.state = .connected
  vs : conn.vs = 0
  vr : conn.vr = 0
  va : conn.va = 0
  txQueue : conn.txQueue = []
  rxQueue : conn.rxQueue = []
  sent : conn.sent = []

/-- Both ends fresh and nothing in flight; the timers, flags, addresses and
`paclen` of the two ends are arbitrary. -/
structure Initial (link : Link) : Prop where
  freshA : Fresh link.a
  freshB : Fresh link.b
  ab : link.ab = []
  ba : link.ba = []
  writtenA : link.writtenA = []
  writtenB : link.writtenB = []

theorem Fresh.tracks {conn : AX25Connection} (fresh : Fresh conn) :
    Tracks conn ⟨[], 0, 0, 0, []⟩ where
  vs := fresh.vs
  vr := fresh.vr
  va := fresh.va
  unacked := by
    intro n _ outstanding
    exact absurd outstanding (Nat.not_lt_zero n)
  queued := fresh.txQueue
  delivered := by rw [fresh.rxQueue]

theorem Fresh.ledger {conn : AX25Connection} (fresh : Fresh conn) : Ledger conn [] [] where
  settled := .inl fresh.connected
  whole := fun _ _ => rfl
  stalled := fun _ => rfl
  honest := List.prefix_rfl

theorem Initial.synced (initial : start.Initial) : start.Synced := by
  let idle : GoBackN.Peer Bytes := ⟨[], 0, 0, 0, []⟩
  have flow : GoBackN.Flow windowSize idle idle [] [] := by constructor <;> simp [idle]
  exact ⟨⟨idle, idle, [], []⟩,
    { good := ⟨flow, flow⟩
      tracksA := initial.freshA.tracks, tracksB := initial.freshB.tracks
      carriedAB := by rw [initial.ab]; exact .nil
      carriedBA := by rw [initial.ba]; exact .nil
      ledgerA := by rw [initial.writtenA]; exact initial.freshA.ledger
      ledgerB := by rw [initial.writtenB]; exact initial.freshB.ledger
      drainedA := initial.freshA.sent, drainedB := initial.freshB.sent }⟩

/-- The bytes of the chunks in the receive queue that are not the end-of-stream
sentinel. -/
def received (conn : AX25Connection) : Bytes := (conn.rxQueue.filter (· ≠ [])).flatten

theorem Synced.received (synced : link.Synced) :
    received link.b <+: link.writtenA := by
  obtain ⟨abstract, refines⟩ := synced
  have delivered := refines.good.1.delivered_isPrefix
  have dropEmpty (chunks : List Bytes) : (chunks.filter (· ≠ [])).flatten = chunks.flatten := by
    induction chunks with
    | nil => rfl
    | cons chunk chunks ih => by_cases empty : chunk = [] <;> simp_all
  unfold Link.received
  rw [refines.tracksB.delivered, dropEmpty]
  obtain ⟨rest, split⟩ := delivered
  refine List.IsPrefix.trans ?_ refines.ledgerA.honest
  rw [← split, List.flatten_append]
  exact List.prefix_append _ _

/-- Go-Back-N safety: at every point of every run, what either side has received
is a prefix of what the other has written. -/
theorem received_prefix_written {events : List (Side × LinkEvent)} (initial : start.Initial)
    (completed : run Link.step start events = some final) :
    received final.b <+: final.writtenA ∧ received final.a <+: final.writtenB := by
  have synced : final.Synced :=
    run_preserves (fun _ _ _ synced stepped => synced.step stepped) initial.synced completed
  exact ⟨synced.received, synced.swap.received⟩

private def established (localAddr remoteAddr : AX25Address) : AX25Connection :=
  { AX25Connection.init localAddr remoteAddr 2 with state := .connected, t3Armed := true }

private def beginning : Link :=
  { a := established { callsign := "N0A" } { callsign := "N0B" }
    b := established { callsign := "N0B" } { callsign := "N0A" } }

private def exchange : List (Side × LinkEvent) :=
  [(.a, .write [1, 2, 3]), (.b, .deliver), (.b, .write [9]), (.b, .deliver), (.a, .lose),
    (.a, .deliver)]

/-- Two chunks from A and one from B, with A's first acknowledgement lost. -/
theorem received_prefix_written_exchange :
    ∃ final, run Link.step beginning exchange = some final ∧
      received final.b = [1, 2, 3] ∧ received final.a = [9] ∧
      received final.b <+: final.writtenA ∧ received final.a <+: final.writtenB := by
  have fresh (localAddr remoteAddr : AX25Address) : Fresh (established localAddr remoteAddr) :=
    ⟨rfl, rfl, rfl, rfl, rfl, rfl, rfl⟩
  have initial : beginning.Initial := ⟨fresh _ _, fresh _ _, rfl, rfl, rfl, rfl⟩
  obtain ⟨final, completed, receivedB, receivedA⟩ : ∃ final,
      run Link.step beginning exchange = some final ∧
        received final.b = [1, 2, 3] ∧ received final.a = [9] :=
    ⟨_, rfl, by decide, by decide⟩
  exact ⟨final, completed, receivedB, receivedA, received_prefix_written initial completed⟩

end Link

end PyBulletin.Ax25
