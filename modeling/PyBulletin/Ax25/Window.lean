import PyBulletin.Foundation.Run
import PyBulletin.Ax25.Connection

set_option autoImplicit false

namespace PyBulletin.Ax25

open PyBulletin.Foundation

/-- Distance from `start` to `seq` going up modulo 8. -/
abbrev ahead (start seq : Seq) : Nat := (seq - start).val

private theorem ahead_succ (nr seq key : Seq) : seq ≠ nr →
    (ahead seq key < ahead seq nr ↔
      key = seq ∨ ahead (seq + 1) key < ahead (seq + 1) nr) := by
  revert nr seq key
  decide

theorem ahead_extend (va vs key : Seq) : ahead va vs < 7 →
    (ahead va key < ahead va (vs + 1) ↔ key = vs ∨ ahead va key < ahead va vs) := by
  revert va vs key
  decide

theorem ahead_advance (va nr vs key : Seq) : ahead va nr ≤ ahead va vs →
    (ahead nr key < ahead nr vs ↔ ahead va key < ahead va vs ∧ ¬ ahead va key < ahead va nr) := by
  revert va nr vs key
  decide

private theorem ahead_count (va vs : Seq) :
    (List.finRange 8).countP (fun key => ahead va key < ahead va vs) ≤ windowSize := by
  revert va vs
  decide

namespace AX25Connection

variable {conn : AX25Connection}

/-- `_update_va` removes exactly the frames from V(A) up to N(R). -/
theorem dropAcked_apply (nr seq : Seq) (unacked : Seq → Option AX25Frame) (key : Seq) :
    dropAcked nr seq unacked key = if ahead seq key < ahead seq nr then none else unacked key := by
  induction seq, unacked using dropAcked.induct nr with
  | case1 unacked => simp [dropAcked, ahead]
  | case2 seq unacked different ih =>
      rw [dropAcked, if_neg different, ih]
      by_cases same : key = seq
      · subst same
        simp [ahead_succ nr key key different]
      · simp [ahead_succ nr seq key different, same]

/-- The invariant: the keys of `_unacked` are V(A), ..., V(S)-1 modulo
8, there are at most seven, and each maps to an I frame with that N(S). -/
structure SendWindow (conn : AX25Connection) : Prop where
  keys : ∀ key, (conn.unacked key).isSome ↔ ahead conn.va key < ahead conn.va conn.vs
  few : (List.finRange 8).countP (fun key => (conn.unacked key).isSome) ≤ windowSize
  frames : ∀ key frame, conn.unacked key = some frame → frame.frameType = .i ∧ frame.ns = key

/-- The form in which the handlers keep the window: every queued frame is the I
frame this connection builds for its key. -/
structure Outstanding (conn : AX25Connection) : Prop where
  keys : ∀ key, (conn.unacked key).isSome ↔ ahead conn.va key < ahead conn.va conn.vs
  built : ∀ key frame, conn.unacked key = some frame →
    ∃ nr info, frame = .iframe conn.makeDest conn.makeSrc key nr info

theorem Outstanding.sendWindow (window : Outstanding conn) : SendWindow conn where
  keys := window.keys
  few := by
    have counted := ahead_count conn.va conn.vs
    have same : (fun key => (conn.unacked key).isSome) =
        fun key => decide (ahead conn.va key < ahead conn.va conn.vs) := by
      funext key
      exact Bool.eq_iff_iff.mpr (by simpa using window.keys key)
    rw [same]
    exact counted
  frames := by
    intro key frame found
    obtain ⟨nr, info, rfl⟩ := window.built key frame found
    exact ⟨AX25Frame.frameType_iframe _ _, AX25Frame.ns_iframe _ _⟩

theorem Outstanding.reset (conn : AX25Connection) : Outstanding conn.resetCounters where
  keys := by simp [resetCounters, ahead]
  built := by simp [resetCounters]

theorem Outstanding.updateVa (window : Outstanding conn) {nr : Seq}
    (within : ahead conn.va nr ≤ ahead conn.va conn.vs) : Outstanding (conn.updateVa nr) where
  keys := by
    intro key
    simp only [AX25Connection.updateVa, dropAcked_apply, ahead_advance _ _ _ key within]
    split
    next acked => simp [acked]
    next kept => simp [window.keys key, kept]
  built := by
    intro key frame found
    simp only [AX25Connection.updateVa, dropAcked_apply] at found
    split at found
    · contradiction
    · exact window.built key frame found

theorem Outstanding.pumpQueue (window : Outstanding conn) (queue : List Bytes) :
    Outstanding (conn.pumpQueue queue) := by
  induction queue generalizing conn with
  | nil => exact ⟨window.keys, window.built⟩
  | cons data queue ih =>
      rw [AX25Connection.pumpQueue]
      split
      · exact ⟨window.keys, window.built⟩
      next room =>
        apply ih
        have pushed : Outstanding { conn with
            unacked := Function.update conn.unacked conn.vs
              (some (.iframe conn.makeDest conn.makeSrc conn.vs conn.vr data))
            vs := conn.vs + 1 } := by
          constructor
          · intro key
            have extended := ahead_extend conn.va conn.vs key (by
              simpa [windowSize] using room)
            simp only [Function.update_apply, extended]
            by_cases same : key = conn.vs
            · simp [same]
            · simp [same, window.keys key]
          · intro key frame found
            simp only [Function.update_apply] at found
            split at found
            next same =>
              cases found
              exact ⟨conn.vr, data, by rw [same]; rfl⟩
            next => exact window.built key frame found
        split <;> exact ⟨pushed.keys, pushed.built⟩

theorem Outstanding.pumpTx (window : Outstanding conn) : Outstanding conn.pumpTx := by
  unfold AX25Connection.pumpTx
  split
  · exact window
  · exact window.pumpQueue conn.txQueue

theorem Outstanding.retransmitFrom (window : Outstanding conn) (seq : Seq) :
    Outstanding (conn.retransmitFrom seq) := by
  induction conn, seq using retransmitFrom.induct with
  | case1 conn => rwa [AX25Connection.retransmitFrom, if_pos rfl]
  | case2 conn seq different absent ih =>
      rw [AX25Connection.retransmitFrom, if_neg different, absent]
      exact ih window
  | case3 conn seq different frame found renewed ih =>
      rw [AX25Connection.retransmitFrom, if_neg different, found]
      apply ih
      constructor
      · intro key
        simp only [send, Function.update_apply]
        by_cases same : key = seq
        · subst same
          have present := window.keys key
          rw [found] at present
          simpa using present
        · simp only [same, if_false]
          exact window.keys key
      · intro key other stored
        simp only [send, Function.update_apply] at stored
        split at stored
        next same =>
          obtain ⟨nr, info, rfl⟩ := window.built seq frame found
          refine ⟨conn.vr, info, ?_⟩
          rw [← Option.some.inj stored, same]
          exact AX25Frame.withNr_iframe _ _ _
        next => exact window.built key other stored

inductive Event where
  | receive (frame : AX25Frame)
  | write (data : Bytes)
  | t1Expire
  | t3Expire
  | connect
  | disconnect

/-- One event, run to completion.  A timer can only expire while it is armed; a
`write` that raises and a refused `connect` leave the connection as it was. -/
def step (conn : AX25Connection) : Event → Option AX25Connection
  | .receive frame => some (conn.handleFrame frame)
  | .write data => some ((conn.write data).getD conn)
  | .t1Expire => if conn.t1Armed then some conn.t1Expire else none
  | .t3Expire => if conn.t3Armed then some conn.t3Expire else none
  | .connect => some (conn.connect.getD conn)
  | .disconnect => some conn.disconnect

theorem step_t1Expire {conn next : AX25Connection} (stepped : conn.step .t1Expire = some next) :
    conn.t1Armed = true ∧ next = conn.t1Expire := by
  simp only [step] at stepped
  split at stepped
  next armed => exact ⟨armed, (Option.some.inj stepped).symm⟩
  · contradiction

theorem step_t3Expire {conn next : AX25Connection} (stepped : conn.step .t3Expire = some next) :
    conn.t3Armed = true ∧ next = conn.t3Expire := by
  simp only [step] at stepped
  split at stepped
  next armed => exact ⟨armed, (Option.some.inj stepped).symm⟩
  · contradiction

/-- The frame acknowledges something outside V(A)..V(S) and the connection is in
the state that reads its N(R). -/
def OutOfWindow (conn : AX25Connection) : Event → Prop
  | .receive frame =>
      conn.state = .connected ∧
        (frame.frameType = .i ∨ frame.frameType = .rr ∨ frame.frameType = .rnr ∨
          frame.frameType = .rej) ∧
        ahead conn.va conn.vs < ahead conn.va frame.nr
  | _ => False

theorem Outstanding.acceptI (window : Outstanding conn) (frame : AX25Frame) :
    Outstanding (conn.acceptI frame) := by
  unfold AX25Connection.acceptI
  split
  · dsimp only
    split <;> split <;> exact ⟨window.keys, window.built⟩
  · exact ⟨window.keys, window.built⟩

theorem Outstanding.handleI (window : Outstanding conn) {frame : AX25Frame}
    (within : conn.state = .connected → ahead conn.va frame.nr ≤ ahead conn.va conn.vs) :
    Outstanding (conn.handleI frame) := by
  unfold AX25Connection.handleI
  split
  · exact ⟨window.keys, window.built⟩
  next connected =>
    have restarted : Outstanding conn.stopT3.startT3 := ⟨window.keys, window.built⟩
    have accepted := (restarted.updateVa (within (not_not.mp connected))).acceptI frame
    apply Outstanding.pumpTx
    split
    · exact ⟨accepted.keys, accepted.built⟩
    · exact accepted

theorem Outstanding.handleRr (window : Outstanding conn) {frame : AX25Frame}
    (within : conn.state = .connected → ahead conn.va frame.nr ≤ ahead conn.va conn.vs) :
    Outstanding (conn.handleRr frame) := by
  unfold AX25Connection.handleRr
  split
  · exact window
  next connected =>
    have ready : Outstanding { conn with peerBusy := false } := ⟨window.keys, window.built⟩
    have acked := ready.updateVa (within (not_not.mp connected))
    apply Outstanding.pumpTx
    split <;> exact ⟨acked.keys, acked.built⟩

theorem Outstanding.handleRnr (window : Outstanding conn) {frame : AX25Frame}
    (within : conn.state = .connected → ahead conn.va frame.nr ≤ ahead conn.va conn.vs) :
    Outstanding (conn.handleRnr frame) := by
  unfold AX25Connection.handleRnr
  split
  · exact window
  next connected =>
    have busy : Outstanding { conn with peerBusy := true } := ⟨window.keys, window.built⟩
    have acked := busy.updateVa (within (not_not.mp connected))
    exact ⟨acked.keys, acked.built⟩

theorem Outstanding.handleRej (window : Outstanding conn) {frame : AX25Frame}
    (within : conn.state = .connected → ahead conn.va frame.nr ≤ ahead conn.va conn.vs) :
    Outstanding (conn.handleRej frame) := by
  unfold AX25Connection.handleRej
  split
  · exact window
  next connected =>
    have acked := window.updateVa (within (not_not.mp connected))
    have stopped : Outstanding (conn.updateVa frame.nr).stopT1 := ⟨acked.keys, acked.built⟩
    have resent := stopped.retransmitFrom frame.nr
    dsimp only
    split
    · exact ⟨resent.keys, resent.built⟩
    · exact resent

theorem Outstanding.handleUa (window : Outstanding conn) : Outstanding conn.handleUa := by
  unfold AX25Connection.handleUa
  split
  · apply Outstanding.pumpTx
    have reset := Outstanding.reset { conn.stopT1 with state := .connected }
    exact ⟨reset.keys, reset.built⟩
  · exact ⟨window.keys, window.built⟩
  · exact window

theorem Outstanding.handleSabm (conn : AX25Connection) : Outstanding conn.handleSabm := by
  unfold AX25Connection.handleSabm
  constructor
  · simp [resetCounters, startT3, ahead]
  · simp [resetCounters, startT3]

/-- Received frames keep the window as long as their N(R) lies within it. -/
theorem Outstanding.handleFrame (window : Outstanding conn) {frame : AX25Frame}
    (within : ¬ OutOfWindow conn (.receive frame)) : Outstanding (conn.handleFrame frame) := by
  have bound (numbered : frame.frameType = .i ∨ frame.frameType = .rr ∨
      frame.frameType = .rnr ∨ frame.frameType = .rej) :
      conn.state = .connected → ahead conn.va frame.nr ≤ ahead conn.va conn.vs := by
    intro connected
    by_contra beyond
    exact within ⟨connected, numbered, by omega⟩
  unfold AX25Connection.handleFrame
  cases kind : frame.frameType with
  | i => exact window.handleI (bound (by simp [kind]))
  | rr => exact window.handleRr (bound (by simp [kind]))
  | rnr => exact window.handleRnr (bound (by simp [kind]))
  | rej => exact window.handleRej (bound (by simp [kind]))
  | sabm => exact Outstanding.handleSabm conn
  | ua => exact window.handleUa
  | ui =>
      dsimp only
      split
      · exact ⟨window.keys, window.built⟩
      · exact window
  | disc | dm => exact ⟨window.keys, window.built⟩
  | frmr | unknown => exact window

theorem Outstanding.write (window : Outstanding conn) (data : Bytes) :
    Outstanding ((conn.write data).getD conn) := by
  unfold AX25Connection.write
  split
  · exact window
  · cases chunks conn.paclen data with
    | none => exact window
    | some pieces =>
        have queued : Outstanding { conn with txQueue := conn.txQueue ++ pieces } :=
          ⟨window.keys, window.built⟩
        exact queued.pumpTx

theorem Outstanding.t1Expire (window : Outstanding conn) : Outstanding conn.t1Expire := by
  have stopped : Outstanding conn.stopT1 := ⟨window.keys, window.built⟩
  unfold AX25Connection.t1Expire
  generalize conn.stopT1 = conn at stopped
  dsimp only
  split
  case h_1 | h_2 => split <;> exact ⟨stopped.keys, stopped.built⟩
  case h_3 =>
      split
      · split
        · exact ⟨stopped.keys, stopped.built⟩
        · have counted : Outstanding { conn with retryCount := conn.retryCount + 1 } :=
            ⟨stopped.keys, stopped.built⟩
          have resent := counted.retransmitFrom conn.va
          exact ⟨resent.keys, resent.built⟩
      · exact ⟨stopped.keys, stopped.built⟩
  case h_4 => exact stopped

theorem Outstanding.step (window : Outstanding conn) {event : Event} {next : AX25Connection}
    (within : ¬ OutOfWindow conn event) (stepped : conn.step event = some next) :
    Outstanding next := by
  cases event with
  | receive frame =>
      cases stepped
      exact window.handleFrame within
  | write data =>
      cases stepped
      exact window.write data
  | t1Expire =>
      obtain ⟨-, rfl⟩ := step_t1Expire stepped
      exact window.t1Expire
  | t3Expire =>
      obtain ⟨-, rfl⟩ := step_t3Expire stepped
      unfold AX25Connection.t3Expire
      dsimp only
      split <;> exact ⟨window.keys, window.built⟩
  | connect =>
      cases stepped
      unfold AX25Connection.connect
      split <;> exact ⟨window.keys, window.built⟩
  | disconnect =>
      cases stepped
      unfold AX25Connection.disconnect
      split
      · exact window
      · exact ⟨window.keys, window.built⟩

theorem pumpQueue_frame (conn : AX25Connection) (queue : List Bytes) :
    ∃ unacked vs sent txQueue t1Armed,
      conn.pumpQueue queue = { conn with unacked, vs, sent, txQueue, t1Armed } := by
  induction queue generalizing conn with
  | nil => exact ⟨conn.unacked, conn.vs, conn.sent, [], conn.t1Armed, rfl⟩
  | cons data queue ih =>
      rw [pumpQueue]
      split
      · exact ⟨conn.unacked, conn.vs, conn.sent, data :: queue, conn.t1Armed, rfl⟩
      · dsimp only
        split
        all_goals
          obtain ⟨unacked, vs, sent, txQueue, t1Armed, same⟩ := ih _
          exact ⟨unacked, vs, sent, txQueue, t1Armed, same⟩

theorem pumpTx_frame (conn : AX25Connection) :
    ∃ unacked vs sent txQueue t1Armed,
      conn.pumpTx = { conn with unacked, vs, sent, txQueue, t1Armed } := by
  rw [pumpTx]
  split
  · exact ⟨conn.unacked, conn.vs, conn.sent, conn.txQueue, conn.t1Armed, rfl⟩
  · exact pumpQueue_frame conn conn.txQueue

theorem retransmitFrom_frame (conn : AX25Connection) (seq : Seq) :
    ∃ unacked sent, conn.retransmitFrom seq = { conn with unacked, sent } := by
  induction conn, seq using retransmitFrom.induct with
  | case1 conn => exact ⟨conn.unacked, conn.sent, by rw [retransmitFrom, if_pos rfl]⟩
  | case2 conn seq different absent ih =>
      obtain ⟨unacked, sent, same⟩ := ih
      exact ⟨unacked, sent, by rw [retransmitFrom, if_neg different, absent, same]⟩
  | case3 conn seq different frame found renewed ih =>
      obtain ⟨unacked, sent, same⟩ := ih
      refine ⟨unacked, sent, ?_⟩
      rw [retransmitFrom, if_neg different, found]
      exact same

theorem acceptI_frame (conn : AX25Connection) (frame : AX25Frame) :
    ∃ vr rxQueue sent, conn.acceptI frame = { conn with vr, rxQueue, sent } := by
  rw [acceptI]
  split
  · dsimp only
    split <;> split <;> exact ⟨_, _, _, rfl⟩
  · exact ⟨conn.vr, conn.rxQueue, _, rfl⟩

@[simp] theorem pumpTx_va (conn : AX25Connection) : conn.pumpTx.va = conn.va := by
  obtain ⟨_, _, _, _, _, same⟩ := pumpTx_frame conn
  rw [same]

@[simp] theorem retransmitFrom_va (conn : AX25Connection) (seq : Seq) :
    (conn.retransmitFrom seq).va = conn.va := by
  obtain ⟨_, _, same⟩ := retransmitFrom_frame conn seq
  rw [same]

@[simp] theorem pumpTx_state (conn : AX25Connection) : conn.pumpTx.state = conn.state := by
  obtain ⟨_, _, _, _, _, same⟩ := pumpTx_frame conn
  rw [same]

@[simp] theorem retransmitFrom_state (conn : AX25Connection) (seq : Seq) :
    (conn.retransmitFrom seq).state = conn.state := by
  obtain ⟨_, _, same⟩ := retransmitFrom_frame conn seq
  rw [same]

@[simp] theorem acceptI_va (conn : AX25Connection) (frame : AX25Frame) :
    (conn.acceptI frame).va = conn.va := by
  obtain ⟨_, _, _, same⟩ := acceptI_frame conn frame
  rw [same]

@[simp] theorem acceptI_state (conn : AX25Connection) (frame : AX25Frame) :
    (conn.acceptI frame).state = conn.state := by
  obtain ⟨_, _, _, same⟩ := acceptI_frame conn frame
  rw [same]

/-- Every numbered frame moves V(A) to its N(R), whatever that is. -/
theorem handleFrame_va {frame : AX25Frame} (connected : conn.state = .connected)
    (numbered : frame.frameType = .i ∨ frame.frameType = .rr ∨ frame.frameType = .rnr ∨
      frame.frameType = .rej) :
    (conn.handleFrame frame).va = frame.nr := by
  rcases numbered with kind | kind | kind | kind <;> simp only [handleFrame, kind]
  · simp only [handleI, connected, ne_eq, not_true_eq_false, if_false, pumpTx_va]
    split <;> simp [stopT1, updateVa]
  · simp only [handleRr, connected, ne_eq, not_true_eq_false, if_false, pumpTx_va]
    split <;> rfl
  · simp [handleRnr, connected, startT1, stopT1, updateVa]
  · simp only [handleRej, connected, ne_eq, not_true_eq_false, if_false]
    split <;> simp [startT1, stopT1, updateVa]

/-- What the window invariant asks of a run: it holds in every connected state
reached, and a N(R) outside the window does not move V(A). -/
def WindowKept (start : AX25Connection) (events : List Event) : Prop :=
  (∀ front reached, front <+: events → run step start front = some reached →
    reached.state = .connected → SendWindow reached) ∧
  EveryStep step (fun conn event => OutOfWindow conn event →
    ∀ next, conn.step event = some next → next.va = conn.va) start events

/-- The window is kept in exactly the runs in which no connected step receives
an acknowledgement from outside V(A)..V(S). -/
theorem windowKept_iff_within (localAddr remoteAddr : AX25Address) (paclen : Int)
    (events : List Event) :
    WindowKept (init localAddr remoteAddr paclen) events ↔
      EveryStep step (fun conn event => ¬ OutOfWindow conn event)
        (init localAddr remoteAddr paclen) events := by
  constructor
  · intro kept
    refine kept.2.mono ?_
    intro conn event unmoved beyond
    cases event with
    | receive frame =>
        have moved := unmoved beyond _ rfl
        rw [handleFrame_va beyond.1 beyond.2.1] at moved
        have outside := beyond.2.2
        rw [moved] at outside
        simp [ahead] at outside
    | write | t1Expire | t3Expire | connect | disconnect => exact beyond
  · intro within
    refine ⟨?_, within.mono fun conn event inside beyond => absurd beyond inside⟩
    intro front reached ofRun completed _
    have initial : Outstanding (init localAddr remoteAddr paclen) :=
      Outstanding.reset (init localAddr remoteAddr paclen)
    exact (run_preserves_of_everyStep
      (fun conn event next window inside stepped => window.step inside stepped)
      initial (within.of_prefix ofRun) completed).sendWindow

/-- A lone RR with N(R) = 5 on a fresh connection: V(A) becomes 5 although
nothing was ever sent. -/
theorem stray_rr_moves_va :
    ¬ ∀ (localAddr remoteAddr : AX25Address) (paclen : Int) (events : List Event),
      WindowKept (init localAddr remoteAddr paclen) events := by
  intro claimed
  let node : AX25Address := { callsign := "W3BBS" }
  let station : AX25Address := { callsign := "AI3I" }
  let answer : AX25Frame := .rr node station 5
  let opened := (init node station).handleSabm
  have accepted : (init node station).step (.receive (.sabm node station)) = some opened := by
    simp [step, handleFrame, opened]
  have kept := claimed node station 236 [.receive (.sabm node station), .receive answer]
  have number : answer.nr = 5 := AX25Frame.nr_rr 5
  have kind : answer.frameType = .rr := AX25Frame.frameType_rr 5
  have beyond : OutOfWindow opened (.receive answer) := by
    refine ⟨rfl, .inr (.inl kind), ?_⟩
    rw [number]
    decide
  have unmoved := (kept.2.2 opened accepted).1 beyond _ rfl
  rw [handleFrame_va rfl (.inr (.inl kind)), number] at unmoved
  exact absurd unmoved (by decide)

end AX25Connection

end PyBulletin.Ax25
