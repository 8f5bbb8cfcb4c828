import PyBulletin.Ax25.Transmit

set_option autoImplicit false

namespace PyBulletin.Ax25

open PyBulletin.Foundation

private theorem ahead_empty (va nr : Seq) : ahead va nr ≤ ahead va va → nr = va := by
  revert va nr
  decide

private theorem ahead_full (va vs : Seq) : windowSize ≤ ahead va vs →
    va ≠ vs ∧ ahead va vs = windowSize := by
  revert va vs
  decide

namespace AX25Connection

/-- While connected, pending data is under T1, and data waits in the queue only for a
busy peer or a full window. -/
def NoStall (conn : AX25Connection) : Prop :=
  conn.state = .connected →
    (((∃ key, (conn.unacked key).isSome) ∨ conn.txQueue ≠ []) → conn.t1Armed = true) ∧
    (conn.peerBusy = false → conn.txQueue ≠ [] → ahead conn.va conn.vs = windowSize)

/-- The steps that leave data behind: `_handle_sabm` and `_handle_rej` do not pump the
queue, `_handle_i` stops T1 also while the peer is busy, and nothing starts T1 for what is
written then. -/
def Stalls (conn : AX25Connection) : Event → Prop
  | .receive frame =>
      match frame.frameType with
      | .sabm => conn.txQueue ≠ []
      | .rej =>
          conn.state = .connected ∧ conn.txQueue ≠ [] ∧
            (frame.nr = conn.vs ∨
              conn.peerBusy = false ∧ ahead frame.nr conn.vs < windowSize)
      | .i =>
          conn.state = .connected ∧ conn.txQueue ≠ [] ∧ conn.peerBusy = true ∧
            frame.nr = conn.vs
      | _ => False
  | .write data =>
      conn.state = .connected ∧ conn.peerBusy = true ∧ conn.t1Armed = false ∧
        ∃ pieces, chunks conn.paclen data = some pieces ∧ conn.txQueue ++ pieces ≠ []
  | _ => False

variable {conn next : AX25Connection}

/-- `NoStall` in terms of the counters. -/
structure Moving (conn : AX25Connection) : Prop where
  timed : conn.va ≠ conn.vs ∨ conn.txQueue ≠ [] → conn.t1Armed = true
  full : conn.peerBusy = false → conn.txQueue ≠ [] → ahead conn.va conn.vs = windowSize

/-- What runs without a stall keep. -/
structure Flowing (conn : AX25Connection) : Prop where
  window : Outstanding conn
  moving : conn.state = .connected → Moving conn

theorem Flowing.noStall (flowing : Flowing conn) : NoStall conn := by
  intro connected
  have moving := flowing.moving connected
  refine ⟨fun pending => moving.timed ?_, moving.full⟩
  rcases pending with ⟨key, present⟩ | queued
  · left
    intro empty
    have inside := (flowing.window.keys key).mp present
    rw [empty] at inside
    simp [ahead] at inside
  · exact .inr queued

theorem pumpQueue_moving (timed : conn.va ≠ conn.vs → conn.t1Armed = true)
    (queue : List Bytes) : Moving (conn.pumpQueue queue) := by
  induction queue generalizing conn with
  | nil => exact ⟨fun pending => timed (by simpa [pumpQueue] using pending), by simp [pumpQueue]⟩
  | cons data queue ih =>
      rw [pumpQueue]
      split
      · rename_i full
        obtain ⟨apart, exact_⟩ := ahead_full conn.va conn.vs full
        exact ⟨fun _ => timed apart, fun _ _ => exact_⟩
      · apply ih
        intro _
        split
        · assumption
        · rfl

theorem pumpTx_moving (connected : conn.state = .connected) (ready : conn.peerBusy = false)
    (timed : conn.va ≠ conn.vs → conn.t1Armed = true) : Moving conn.pumpTx := by
  have open_ : ¬ (conn.state ≠ .connected ∨ conn.peerBusy = true) := by simp [connected, ready]
  rw [pumpTx, if_neg open_]
  exact pumpQueue_moving timed conn.txQueue

theorem pumpTx_busy (busy : conn.peerBusy = true) : conn.pumpTx = conn := by
  rw [pumpTx, if_pos (.inr busy)]

theorem Moving.timed_within (moving : Moving conn) {nr : Seq}
    (within : ahead conn.va nr ≤ ahead conn.va conn.vs) (more : nr ≠ conn.vs) :
    conn.t1Armed = true := by
  apply moving.timed
  left
  intro empty
  rw [empty] at within
  exact more (ahead_empty conn.vs nr within)

theorem Moving.handleI (moving : Moving conn) (connected : conn.state = .connected)
    {frame : AX25Frame} (within : ahead conn.va frame.nr ≤ ahead conn.va conn.vs)
    (regular : conn.txQueue ≠ [] → conn.peerBusy = true → frame.nr ≠ conn.vs) :
    Moving (conn.handleI frame) := by
  have open_ : ¬ conn.state ≠ .connected := not_not.mpr connected
  simp only [AX25Connection.handleI, if_neg open_]
  split
  · rename_i acked
    have same : frame.nr = conn.vs := by simpa [updateVa, startT3, stopT3] using acked
    cases busy : conn.peerBusy with
    | false =>
        apply pumpTx_moving
        · simpa [stopT1, updateVa, startT3, stopT3] using connected
        · simpa [stopT1, updateVa, startT3, stopT3] using busy
        · intro apart
          exact absurd acked apart
    | true =>
        have empty : conn.txQueue = [] := by
          by_contra queued
          exact regular queued busy same
        rw [pumpTx_busy (by simpa [stopT1, updateVa, startT3, stopT3] using busy)]
        refine ⟨fun pending => ?_, fun ready => ?_⟩
        · rcases pending with apart | queued
          · exact absurd acked apart
          · exact absurd empty (by simpa [stopT1, updateVa, startT3, stopT3] using queued)
        · exact absurd ready (by simp [stopT1, updateVa, startT3, stopT3, busy])
  · rename_i more
    have armed := moving.timed_within within
      (by simpa [updateVa, startT3, stopT3] using more)
    cases busy : conn.peerBusy with
    | false =>
        apply pumpTx_moving
        · simpa [updateVa, startT3, stopT3] using connected
        · simpa [updateVa, startT3, stopT3] using busy
        · intro _
          simpa [updateVa, startT3, stopT3] using armed
    | true =>
        rw [pumpTx_busy (by simpa [updateVa, startT3, stopT3] using busy)]
        refine ⟨fun _ => by simpa [updateVa, startT3, stopT3] using armed, fun ready => ?_⟩
        exact absurd ready (by simp [updateVa, startT3, stopT3, busy])

theorem Moving.handleRr (moving : Moving conn) (connected : conn.state = .connected)
    {frame : AX25Frame} (within : ahead conn.va frame.nr ≤ ahead conn.va conn.vs) :
    Moving (conn.handleRr frame) := by
  have open_ : ¬ conn.state ≠ .connected := not_not.mpr connected
  simp only [AX25Connection.handleRr, if_neg open_]
  split
  · rename_i acked
    exact pumpTx_moving connected rfl fun apart => absurd acked apart
  · rename_i more
    exact pumpTx_moving connected rfl fun _ => moving.timed_within within more

theorem handleRej_frame (connected : conn.state = .connected) (frame : AX25Frame) :
    (conn.handleRej frame).va = frame.nr ∧ (conn.handleRej frame).vs = conn.vs ∧
      (conn.handleRej frame).txQueue = conn.txQueue ∧
      (conn.handleRej frame).peerBusy = conn.peerBusy ∧
      (conn.handleRej frame).state = .connected ∧
      ((conn.handleRej frame).t1Armed = true ↔ conn.vs ≠ frame.nr) := by
  have open_ : ¬ conn.state ≠ .connected := not_not.mpr connected
  simp only [AX25Connection.handleRej, if_neg open_]
  split
  · rename_i more
    simp only [retransmitFrom_vs, retransmitFrom_va, stopT1, updateVa] at more
    simp [startT1, stopT1, updateVa, connected, more]
  · rename_i acked
    simp only [retransmitFrom_vs, retransmitFrom_va, stopT1, updateVa] at acked
    simp [stopT1, updateVa, connected, not_not.mp acked]

theorem handleRej_moving (connected : conn.state = .connected) {frame : AX25Frame}
    (regular : conn.txQueue ≠ [] → frame.nr ≠ conn.vs ∧
      (conn.peerBusy = false → windowSize ≤ ahead frame.nr conn.vs)) :
    Moving (conn.handleRej frame) := by
  obtain ⟨va, vs, queue, busy, _, armed⟩ := handleRej_frame connected frame
  constructor
  · intro pending
    rw [va, vs, queue] at pending
    rcases pending with apart | queued
    · exact armed.mpr apart.symm
    · exact armed.mpr (regular queued).1.symm
  · intro ready queued
    rw [busy] at ready
    rw [queue] at queued
    rw [va, vs]
    exact (ahead_full frame.nr conn.vs ((regular queued).2 ready)).2

theorem Flowing.handleFrame_moving (flowing : Flowing conn) {frame : AX25Frame}
    (within : ¬ OutOfWindow conn (.receive frame)) (regular : ¬ Stalls conn (.receive frame))
    (connected : (conn.handleFrame frame).state = .connected) :
    Moving (conn.handleFrame frame) := by
  cases kind : frame.frameType with
  | sabm =>
      have empty : conn.txQueue = [] := by simpa [Stalls, kind] using regular
      have queue : conn.handleSabm.txQueue = conn.txQueue := by
        simp only [AX25Connection.handleSabm]
        split <;> rfl
      simp only [AX25Connection.handleFrame, kind]
      constructor
      · intro pending
        rw [queue, empty] at pending
        simp [AX25Connection.handleSabm, resetCounters, startT3] at pending
      · intro _ queued
        exact absurd (queue.trans empty) queued
  | ua =>
      simp only [AX25Connection.handleFrame, kind] at connected ⊢
      rw [AX25Connection.handleUa] at connected ⊢
      cases state : conn.state with
      | awaitingConnect =>
          apply pumpTx_moving
          · simp [resetCounters, startT3]
          · simp [resetCounters, startT3]
          · intro apart
            simp [resetCounters, startT3] at apart
      | connected =>
          simp only [state] at connected ⊢
          exact flowing.moving state
      | awaitingRelease | disconnected => simp [state, putRx] at connected
  | disc | dm =>
      simp [AX25Connection.handleFrame, kind, AX25Connection.handleDisc,
        AX25Connection.handleDm, putRx] at connected
  | i =>
      simp only [AX25Connection.handleFrame, kind] at connected ⊢
      by_cases state : conn.state = .connected
      · have inside := within_window within state (.inl kind)
        apply (flowing.moving state).handleI state inside
        intro queued busy same
        simp [Stalls, kind, state, queued, busy, same] at regular
      · simp [AX25Connection.handleI, state, send] at connected
  | rr =>
      simp only [AX25Connection.handleFrame, kind] at connected ⊢
      by_cases state : conn.state = .connected
      · exact (flowing.moving state).handleRr state
          (within_window within state (.inr (.inl kind)))
      · simp [AX25Connection.handleRr, state] at connected
  | rnr =>
      simp only [AX25Connection.handleFrame, kind] at connected ⊢
      by_cases state : conn.state = .connected
      · have open_ : ¬ conn.state ≠ .connected := not_not.mpr state
        rw [AX25Connection.handleRnr, if_neg open_]
        exact ⟨fun _ => rfl, fun ready => by cases ready⟩
      · simp [AX25Connection.handleRnr, state] at connected
  | rej =>
      simp only [AX25Connection.handleFrame, kind] at connected ⊢
      by_cases state : conn.state = .connected
      · apply handleRej_moving state
        intro queued
        simp only [Stalls, kind, state, queued, ne_eq, not_false_eq_true, true_and, not_or,
          not_and, Nat.not_lt] at regular
        exact regular
      · simp [AX25Connection.handleRej, state] at connected
  | ui =>
      simp only [AX25Connection.handleFrame, kind] at connected ⊢
      split at connected
      · rename_i info
        have moving := flowing.moving connected
        rw [if_pos info]
        exact ⟨moving.timed, moving.full⟩
      · rename_i info
        rw [if_neg info]
        exact flowing.moving connected
  | frmr | unknown =>
      simp only [AX25Connection.handleFrame, kind] at connected ⊢
      exact flowing.moving connected

theorem Flowing.write_moving (flowing : Flowing conn) {data : Bytes}
    (regular : ¬ Stalls conn (.write data))
    (connected : ((conn.write data).getD conn).state = .connected) :
    Moving ((conn.write data).getD conn) := by
  rw [AX25Connection.write] at connected ⊢
  by_cases state : conn.state = .connected
  · have moving := flowing.moving state
    have open_ : ¬ conn.state ≠ .connected := not_not.mpr state
    rw [if_neg open_]
    cases cut : chunks conn.paclen data with
    | none => exact moving
    | some pieces =>
        simp only [Option.map_some, Option.getD_some]
        cases busy : conn.peerBusy with
        | false =>
            apply pumpTx_moving
            · exact state
            · rfl
            · exact fun apart => moving.timed (.inl apart)
        | true =>
            rw [pumpTx_busy rfl]
            refine ⟨fun pending => ?_, fun ready => absurd ready (by simp)⟩
            rcases pending with apart | queued
            · exact moving.timed (.inl apart)
            · by_contra stopped
              exact regular ⟨state, busy, by simpa using stopped, pieces, cut, queued⟩
  · rw [if_pos state] at connected
    exact absurd connected state

theorem Flowing.t1Expire_moving (flowing : Flowing conn)
    (connected : conn.t1Expire.state = .connected) : Moving conn.t1Expire := by
  rw [AX25Connection.t1Expire] at connected ⊢
  cases state : conn.stopT1.state with
  | connected =>
      have moving := flowing.moving state
      simp only [state] at connected ⊢
      split
      · split
        · rename_i more last
          rw [if_pos more, if_pos last] at connected
          cases connected
        · refine ⟨fun _ => rfl, ?_⟩
          simpa [startT1, stopT1] using moving.full
      · exact ⟨fun _ => rfl, moving.full⟩
  | awaitingConnect | awaitingRelease =>
      simp only [state] at connected
      split at connected <;> cases connected
  | disconnected =>
      simp only [state] at connected
      cases connected

theorem Flowing.t3Expire_moving (flowing : Flowing conn)
    (connected : conn.t3Expire.state = .connected) : Moving conn.t3Expire := by
  simp only [AX25Connection.t3Expire] at connected ⊢
  split at connected
  · rename_i state
    rw [if_pos state]
    exact ⟨fun _ => rfl, (flowing.moving state).full⟩
  · rename_i state
    exact absurd connected state

theorem Flowing.step (flowing : Flowing conn) {event : Event} (regular : ¬ Stalls conn event)
    (stepped : conn.stepWithin event = some next) : Flowing next := by
  obtain ⟨within, stepped⟩ := stepWithin_eq_some.mp stepped
  refine ⟨flowing.window.step within stepped, fun connected => ?_⟩
  cases event with
  | receive frame =>
      cases stepped
      exact flowing.handleFrame_moving within regular connected
  | write data =>
      cases stepped
      exact flowing.write_moving regular connected
  | t1Expire =>
      obtain ⟨-, rfl⟩ := step_t1Expire stepped
      exact flowing.t1Expire_moving connected
  | t3Expire =>
      obtain ⟨-, rfl⟩ := step_t3Expire stepped
      exact flowing.t3Expire_moving connected
  | connect =>
      cases stepped
      by_cases down : conn.state = .disconnected
      · simp [AX25Connection.connect, down, send, startT1] at connected
      · simp only [AX25Connection.connect, ne_eq, down, not_false_eq_true, if_true,
          Option.getD_none] at connected ⊢
        exact flowing.moving connected
  | disconnect =>
      cases stepped
      rw [AX25Connection.disconnect] at connected ⊢
      split at connected
      · rename_i shut
        rw [if_pos shut]
        exact flowing.moving connected
      · cases connected

theorem stalled_rej {frame : AX25Frame} (kind : frame.frameType = .rej)
    (stalls : Stalls conn (.receive frame)) : ¬ NoStall (conn.handleFrame frame) := by
  simp only [Stalls, kind] at stalls
  obtain ⟨connected, queued, held⟩ := stalls
  obtain ⟨va, vs, queue, busy, up, armed⟩ := handleRej_frame connected frame
  simp only [AX25Connection.handleFrame, kind]
  intro noStall
  obtain ⟨timed, full⟩ := noStall up
  rcases held with acked | ⟨ready, room⟩
  · exact armed.mp (timed (.inr (by rwa [queue]))) acked.symm
  · have filled := full (by rwa [busy]) (by rwa [queue])
    rw [va, vs] at filled
    omega

theorem stalled_sabm {frame : AX25Frame} (kind : frame.frameType = .sabm)
    (queued : conn.txQueue ≠ []) : ¬ NoStall (conn.handleFrame frame) := by
  have queue : conn.handleSabm.txQueue = conn.txQueue := by
    simp only [AX25Connection.handleSabm]
    split <;> rfl
  simp only [AX25Connection.handleFrame, kind]
  intro noStall
  have filled := (noStall rfl).2 rfl (by rwa [queue])
  simp [AX25Connection.handleSabm, resetCounters, startT3, windowSize, ahead] at filled

theorem stalled_i {frame : AX25Frame} (kind : frame.frameType = .i)
    (stalls : Stalls conn (.receive frame)) : ¬ NoStall (conn.handleFrame frame) := by
  simp only [Stalls, kind] at stalls
  obtain ⟨connected, queued, busy, acked⟩ := stalls
  have open_ : ¬ conn.state ≠ .connected := not_not.mpr connected
  have same : ((conn.stopT3.startT3.updateVa frame.nr).acceptI frame).va =
      ((conn.stopT3.startT3.updateVa frame.nr).acceptI frame).vs := by
    simpa [updateVa, startT3, stopT3] using acked
  simp only [AX25Connection.handleFrame, kind, AX25Connection.handleI, if_neg open_,
    if_pos same]
  rw [pumpTx_busy (by simpa [stopT1, updateVa, startT3, stopT3] using busy)]
  intro noStall
  have armed := (noStall (by simpa [stopT1, updateVa, startT3, stopT3] using connected)).1
    (.inr (by simpa [stopT1, updateVa, startT3, stopT3] using queued))
  cases armed

theorem stalled_write {data : Bytes} (stalls : Stalls conn (.write data)) :
    ¬ NoStall ((conn.write data).getD conn) := by
  obtain ⟨connected, busy, stopped, pieces, cut, queued⟩ := stalls
  have open_ : ¬ conn.state ≠ .connected := not_not.mpr connected
  simp only [AX25Connection.write, if_neg open_, cut, Option.map_some, Option.getD_some]
  rw [pumpTx_busy (by exact busy)]
  intro noStall
  have armed := (noStall connected).1 (.inr queued)
  rw [show conn.t1Armed = true from armed] at stopped
  cases stopped

theorem Stalls.stalled {event : Event} (stalls : Stalls conn event)
    (within : ¬ OutOfWindow conn event) :
    ∃ next, conn.stepWithin event = some next ∧ ¬ NoStall next := by
  simp only [stepWithin_eq_some]
  cases event with
  | receive frame =>
      refine ⟨_, ⟨within, rfl⟩, ?_⟩
      cases kind : frame.frameType with
      | sabm => exact stalled_sabm kind (by simpa [Stalls, kind] using stalls)
      | rej => exact stalled_rej kind stalls
      | i => exact stalled_i kind stalls
      | ua | disc | dm | rr | rnr | ui | frmr | unknown => simp [Stalls, kind] at stalls
  | write data => exact ⟨_, ⟨within, rfl⟩, stalled_write stalls⟩
  | t1Expire | t3Expire | connect | disconnect => exact absurd stalls id

/-- A link never stalls in exactly the runs that avoid the stalling steps. -/
theorem no_stall_iff (localAddr remoteAddr : AX25Address) (paclen : Int)
    (events : List Event) :
    Throughout stepWithin NoStall (init localAddr remoteAddr paclen) events ↔
      EveryStep stepWithin (fun conn event => OutOfWindow conn event ∨ ¬ Stalls conn event)
        (init localAddr remoteAddr paclen) events := by
  have initial : Flowing (init localAddr remoteAddr paclen) :=
    ⟨Outstanding.reset (init localAddr remoteAddr paclen), fun connected => nomatch connected⟩
  refine throughout_iff_everyStep ?_ (fun _ flowing => flowing.noStall) ?_ initial events
  · intro conn event next flowing meets stepped
    rcases meets with beyond | regular
    · exact absurd beyond (stepWithin_eq_some.mp stepped).1
    · exact flowing.step regular stepped
  · intro conn event _ against
    simp only [not_or, not_not] at against
    exact against.2.stalled against.1

/-- Eight chunks are written, seven are in flight, and the SABM is repeated: the eighth
stays in the queue of an empty window. -/
theorem repeated_sabm_stalls :
    ¬ ∀ (localAddr remoteAddr : AX25Address) (paclen : Int) (events : List Event),
      Throughout stepWithin NoStall (init localAddr remoteAddr paclen) events := by
  intro claimed
  let node : AX25Address := { callsign := "W3BBS" }
  let station : AX25Address := { callsign := "AI3I" }
  let events : List Event :=
    [.receive (.sabm node station), .write [0, 1, 2, 3, 4, 5, 6, 7],
      .receive (.sabm node station)]
  have stuck : (run stepWithin (init node station 1) events).any fun reached =>
      reached.state = .connected ∧ reached.peerBusy = false ∧ reached.txQueue ≠ [] ∧
        ahead reached.va reached.vs ≠ windowSize := by
    decide +kernel
  obtain ⟨reached, completed, holds⟩ := Option.any_eq_true _ _ |>.mp stuck
  obtain ⟨connected, ready, queued, room⟩ := of_decide_eq_true holds
  have noStall := claimed node station 1 events events reached List.prefix_rfl completed
  exact room ((noStall connected).2 ready queued)

end AX25Connection

end PyBulletin.Ax25
