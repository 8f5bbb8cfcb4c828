import Mathlib.Data.List.Basic
import PyBulletin.Ax25.Transmit

set_option autoImplicit false

namespace PyBulletin.Ax25

open PyBulletin.Foundation

private theorem reach_ahead (start seq : Seq) : start + Fin.ofNat 8 (ahead start seq) = seq := by
  revert start seq
  decide

private theorem ahead_split (va nr vs : Seq) : ahead va nr ≤ ahead va vs →
    ahead va vs = ahead va nr + ahead nr vs := by
  revert va nr vs
  decide

private theorem ahead_succ_end (va vs : Seq) : ahead va vs < windowSize →
    ahead va (vs + 1) = ahead va vs + 1 := by
  revert va vs
  decide

private theorem ahead_reach (start : Seq) {k : Nat} (small : k < 8) :
    ahead start (start + Fin.ofNat 8 k) = k := by
  have all : ∀ (start : Seq) (k : Fin 8), ahead start (start + Fin.ofNat 8 k.val) = k.val := by
    decide
  exact all start ⟨k, small⟩

private theorem ahead_lt (start seq : Seq) : ahead start seq < 8 := (seq - start).isLt

/-- The data of the frames `start`, `start + 1`, ..., those of them that are kept. -/
def payloads (unacked : Seq → Option AX25Frame) (start : Seq) (count : Nat) : List Bytes :=
  (List.range count).filterMap fun k => (unacked (start + Fin.ofNat 8 k)).map AX25Frame.info

theorem payloads_congr {left right : Seq → Option AX25Frame} {start : Seq} {count : Nat}
    (same : ∀ k < count, (left (start + Fin.ofNat 8 k)).map AX25Frame.info =
      (right (start + Fin.ofNat 8 k)).map AX25Frame.info) :
    payloads left start count = payloads right start count :=
  List.filterMap_congr fun k member => same k (List.mem_range.mp member)

theorem payloads_add (unacked : Seq → Option AX25Frame) (start : Seq) (first second : Nat) :
    payloads unacked start (first + second) =
      payloads unacked start first ++ payloads unacked (start + Fin.ofNat 8 first) second := by
  have shift (k : Nat) : start + Fin.ofNat 8 (first + k) =
      start + Fin.ofNat 8 first + Fin.ofNat 8 k := by
    apply Fin.ext
    simp only [Fin.val_add, Fin.val_ofNat]
    omega
  rw [payloads, List.range_add, List.filterMap_append, List.filterMap_map]
  congr 1
  exact List.filterMap_congr fun k _ => by rw [Function.comp_apply, shift]

namespace AX25Connection

/-- The chunks in `_unacked`, oldest first. -/
def inFlight (conn : AX25Connection) : List Bytes :=
  payloads conn.unacked conn.va (ahead conn.va conn.vs)

variable {conn next : AX25Connection}

theorem inFlight_updateVa {nr : Seq} (within : ahead conn.va nr ≤ ahead conn.va conn.vs) :
    conn.inFlight =
      payloads conn.unacked conn.va (ahead conn.va nr) ++ (conn.updateVa nr).inFlight := by
  rw [inFlight, ahead_split conn.va nr conn.vs within, payloads_add, reach_ahead]
  congr 1
  apply payloads_congr
  intro k inside
  have later : ahead nr (nr + Fin.ofNat 8 k) < ahead nr conn.vs := by
    rwa [ahead_reach nr (Nat.lt_trans inside (ahead_lt nr conn.vs))]
  have kept := ((ahead_advance conn.va nr conn.vs _ within).mp later).2
  simp only [updateVa, dropAcked_apply, if_neg kept]

theorem inFlight_push {data : Bytes} {frame : AX25Frame} (carries : frame.info = data)
    (room : ahead conn.va conn.vs < windowSize) :
    payloads (Function.update conn.unacked conn.vs (some frame)) conn.va
        (ahead conn.va (conn.vs + 1)) =
      conn.inFlight ++ [data] := by
  rw [ahead_succ_end _ _ room, payloads_add, reach_ahead]
  congr 1
  · apply payloads_congr
    intro k inside
    have other : conn.va + Fin.ofNat 8 k ≠ conn.vs := by
      intro same
      have distance := ahead_reach conn.va (Nat.lt_trans inside (ahead_lt conn.va conn.vs))
      rw [same] at distance
      omega
    rw [Function.update_of_ne other]
  · simp [payloads, carries, Fin.ofNat]

theorem pumpQueue_balance (conn : AX25Connection) (queue : List Bytes) :
    (conn.pumpQueue queue).inFlight ++ (conn.pumpQueue queue).txQueue =
      conn.inFlight ++ queue := by
  induction queue generalizing conn with
  | nil => rfl
  | cons data queue ih =>
      rw [pumpQueue]
      split
      · rfl
      · rename_i room
        rw [ih]
        have pushed := @inFlight_push conn data
          (.iframe conn.makeDest conn.makeSrc conn.vs conn.vr data) rfl
          (by simpa [ahead] using room)
        rw [← List.singleton_append (l := queue), ← List.append_assoc]
        congr 1
        split <;> exact pushed

theorem pumpTx_balance (conn : AX25Connection) :
    conn.pumpTx.inFlight ++ conn.pumpTx.txQueue = conn.inFlight ++ conn.txQueue := by
  rw [pumpTx]
  split
  · rfl
  · exact pumpQueue_balance conn conn.txQueue

theorem retransmitFrom_info (conn : AX25Connection) (seq key : Seq) :
    ((conn.retransmitFrom seq).unacked key).map AX25Frame.info =
      (conn.unacked key).map AX25Frame.info := by
  induction conn, seq using retransmitFrom.induct with
  | case1 conn => rw [retransmitFrom, if_pos rfl]
  | case2 conn seq different absent ih => rwa [retransmitFrom, if_neg different, absent]
  | case3 conn seq different frame found renewed ih =>
      rw [retransmitFrom, if_neg different, found]
      rw [ih]
      by_cases same : key = seq
      · simp [send, same, found, renewed, AX25Frame.withNr]
      · simp [send, same]

theorem inFlight_retransmitFrom (conn : AX25Connection) (seq : Seq) :
    (conn.retransmitFrom seq).inFlight = conn.inFlight := by
  rw [inFlight, retransmitFrom_va, retransmitFrom_vs]
  exact payloads_congr fun k _ => retransmitFrom_info conn seq _

/-- The step has put an end-of-stream chunk into the reader's queue. -/
def Ends (conn next : AX25Connection) : Prop := [] ∈ next.rxQueue.drop conn.rxQueue.length

instance (conn next : AX25Connection) : Decidable (Ends conn next) :=
  inferInstanceAs (Decidable (_ ∈ _))

/-- The chunks a `write` accepts. -/
def acceptedBy (conn : AX25Connection) : Event → List Bytes
  | .write data =>
      if conn.state = .connected then (chunks conn.paclen data).getD [] else []
  | _ => []

/-- The chunks that a received N(R) acknowledges. -/
def ackedBy (conn : AX25Connection) : Event → List Bytes
  | .receive frame =>
      if conn.state = .connected ∧ (frame.frameType = .i ∨ frame.frameType = .rr ∨
          frame.frameType = .rnr ∨ frame.frameType = .rej) then
        payloads conn.unacked conn.va (ahead conn.va frame.nr)
      else []
  | _ => []

/-- A connection with its accounts since the last end of stream: the chunks left in the
queue then, the chunks accepted and the chunks acknowledged.  `up` says that the link has
come up since. -/
structure Trace where
  conn : AX25Connection
  up : Bool
  stale : List Bytes
  accepted : List Bytes
  acked : List Bytes

namespace Trace

def init (localAddr remoteAddr : AX25Address) (paclen : Int) : Trace :=
  ⟨.init localAddr remoteAddr paclen, false, [], [], []⟩

/-- The accounts after `event` has made the connection `next`. -/
def advance (trace : Trace) (event : Event) (next : AX25Connection) : Trace :=
  if Ends trace.conn next then ⟨next, false, next.txQueue, [], []⟩
  else
    { conn := next
      up := trace.up || next.state = .connected
      stale := trace.stale
      accepted := trace.accepted ++ trace.conn.acceptedBy event
      acked := trace.acked ++ trace.conn.ackedBy event }

def step (trace : Trace) (event : Event) : Option Trace :=
  (trace.conn.stepWithin event).map (trace.advance event)

/-- While the link is up every accepted chunk is acknowledged, in flight or queued, in
the order of the writes. -/
def Conserved (trace : Trace) : Prop :=
  trace.conn.state = .connected →
    trace.acked ++ trace.conn.inFlight ++ trace.conn.txQueue = trace.stale ++ trace.accepted

/-- A SABM on a link that has come up and has chunks in flight. -/
def Resets (trace : Trace) : Event → Prop
  | .receive frame =>
      frame.frameType = .sabm ∧ trace.up = true ∧ trace.conn.inFlight ≠ []
  | _ => False

end Trace

def Open (conn : AX25Connection) : Prop :=
  conn.state = .connected ∨ conn.state = .awaitingRelease

/-- Every step but a received SABM.  `carries`: nothing gets lost.  `closes`: the reader
is told.  `opens`: a connection attempt succeeds. -/
inductive Moves (conn next : AX25Connection) (accepted acked : List Bytes) : Prop where
  | carries (silent : ¬ Ends conn next) (opened : Open conn → Open next)
      (up : next.state = .connected → conn.state = .connected)
      (balance : conn.inFlight ++ conn.txQueue ++ accepted =
        acked ++ next.inFlight ++ next.txQueue)
      (idle : conn.state ≠ .connected →
        next.txQueue = conn.txQueue ∧ accepted = [] ∧ acked = [])
  | closes (ends : Ends conn next) (down : next.state ≠ .connected)
  | opens (silent : ¬ Ends conn next) (attempt : conn.state = .awaitingConnect)
      (up : next.state = .connected)
      (balance : next.inFlight ++ next.txQueue = conn.txQueue)
      (none_accepted : accepted = []) (none_acked : acked = [])

theorem silent_of_same (same : next.rxQueue = conn.rxQueue) : ¬ Ends conn next := by
  simp [Ends, same]

theorem silent_of_put {info : Bytes} (data : info ≠ [])
    (put : next.rxQueue = conn.rxQueue ++ [info]) : ¬ Ends conn next := by
  simpa [Ends, put] using Ne.symm data

theorem ends_of_put (put : next.rxQueue = conn.rxQueue ++ [[]]) : Ends conn next := by
  simp [Ends, put]

theorem Moves.still (silent : ¬ Ends conn next) (opened : Open conn → Open next)
    (up : next.state = .connected → conn.state = .connected)
    (flight : next.inFlight = conn.inFlight) (queue : next.txQueue = conn.txQueue) :
    Moves conn next [] [] :=
  .carries silent opened up (by simp [flight, queue]) fun _ => ⟨queue, rfl, rfl⟩

/-- The usual case: the connection stays in its state. -/
theorem Moves.stays (silent : ¬ Ends conn next) (state : next.state = conn.state)
    (flight : next.inFlight = conn.inFlight) (queue : next.txQueue = conn.txQueue) :
    Moves conn next [] [] :=
  .still silent (by rw [Open, Open, state]; exact id) (fun up => state.symm.trans up) flight queue

theorem inFlight_congr (va : next.va = conn.va) (vs : next.vs = conn.vs)
    (unacked : next.unacked = conn.unacked) : next.inFlight = conn.inFlight := by
  rw [inFlight, inFlight, va, vs, unacked]

/-- The counters start again: nothing is in flight. -/
theorem inFlight_reset (va : next.va = 0) (vs : next.vs = 0) : next.inFlight = [] := by
  simp [inFlight, va, vs, ahead, payloads]

theorem handleSabm_opens (conn : AX25Connection) :
    ¬ Ends conn conn.handleSabm ∧ conn.handleSabm.state = .connected ∧
      conn.handleSabm.inFlight = [] ∧ conn.handleSabm.txQueue = conn.txQueue := by
  refine ⟨silent_of_same ?_, rfl, inFlight_reset rfl rfl, ?_⟩
  · simp only [handleSabm]
    split <;> rfl
  · simp only [handleSabm]
    split <;> rfl

theorem handleUa_moves (conn : AX25Connection) : Moves conn conn.handleUa [] [] := by
  rw [handleUa]
  cases state : conn.state with
  | awaitingConnect =>
      refine .opens (silent_of_same ?_) state ?_ ?_ rfl rfl
      · simp [resetCounters, startT3, stopT1]
      · simp [resetCounters, startT3]
      · rw [pumpTx_balance, inFlight_reset rfl rfl]
        rfl
  | awaitingRelease => exact .closes (ends_of_put rfl) (by simp [putRx])
  | connected | disconnected => exact .stays (silent_of_same rfl) rfl rfl rfl

theorem acceptI_silent (conn : AX25Connection) (frame : AX25Frame) :
    ¬ Ends conn (conn.acceptI frame) := by
  rw [acceptI]
  split
  · dsimp only
    split
    · rename_i data
      split <;> exact silent_of_put data rfl
    · split <;> exact silent_of_same rfl
  · exact silent_of_same rfl

/-- A frame that acknowledges, and then may let the queue move on. -/
theorem Moves.acknowledge {frame : AX25Frame} (connected : conn.state = .connected)
    (within : ahead conn.va frame.nr ≤ ahead conn.va conn.vs) (silent : ¬ Ends conn next)
    (state : next.state = conn.state)
    (balance : next.inFlight ++ next.txQueue =
      (conn.updateVa frame.nr).inFlight ++ conn.txQueue) :
    Moves conn next [] (payloads conn.unacked conn.va (ahead conn.va frame.nr)) := by
  refine .carries silent (fun _ => .inl (state.trans connected)) (fun _ => connected) ?_
    fun down => absurd connected down
  rw [inFlight_updateVa within, List.append_nil, List.append_assoc, ← balance,
    List.append_assoc]

theorem handleI_moves (connected : conn.state = .connected) {frame : AX25Frame}
    (within : ahead conn.va frame.nr ≤ ahead conn.va conn.vs) :
    Moves conn (conn.handleI frame) []
      (payloads conn.unacked conn.va (ahead conn.va frame.nr)) := by
  have open_ : ¬ conn.state ≠ .connected := not_not.mpr connected
  simp only [handleI, if_neg open_]
  have silent : ¬ Ends conn ((conn.stopT3.startT3.updateVa frame.nr).acceptI frame) :=
    acceptI_silent (conn.stopT3.startT3.updateVa frame.nr) frame
  have flight : ((conn.stopT3.startT3.updateVa frame.nr).acceptI frame).inFlight =
      (conn.updateVa frame.nr).inFlight :=
    inFlight_congr (acceptI_va _ frame) (acceptI_vs _ frame) (acceptI_unacked _ frame)
  have queue : ((conn.stopT3.startT3.updateVa frame.nr).acceptI frame).txQueue =
      conn.txQueue := acceptI_txQueue _ frame
  apply Moves.acknowledge connected within
  · rw [Ends, pumpTx_rxQueue]
    split <;> exact silent
  · rw [pumpTx_state]
    split <;> exact acceptI_state _ frame
  · rw [pumpTx_balance, ← flight, ← queue]
    split <;> rfl

theorem handleRr_moves (connected : conn.state = .connected) {frame : AX25Frame}
    (within : ahead conn.va frame.nr ≤ ahead conn.va conn.vs) :
    Moves conn (conn.handleRr frame) []
      (payloads conn.unacked conn.va (ahead conn.va frame.nr)) := by
  have open_ : ¬ conn.state ≠ .connected := not_not.mpr connected
  simp only [handleRr, if_neg open_]
  apply Moves.acknowledge connected within
  · apply silent_of_same
    rw [pumpTx_rxQueue]
    split <;> rfl
  · rw [pumpTx_state]
    split <;> rfl
  · rw [pumpTx_balance]
    split <;> rfl

theorem handleRnr_moves (connected : conn.state = .connected) {frame : AX25Frame}
    (within : ahead conn.va frame.nr ≤ ahead conn.va conn.vs) :
    Moves conn (conn.handleRnr frame) []
      (payloads conn.unacked conn.va (ahead conn.va frame.nr)) := by
  have open_ : ¬ conn.state ≠ .connected := not_not.mpr connected
  rw [handleRnr, if_neg open_]
  exact .acknowledge connected within (silent_of_same rfl) rfl rfl

theorem handleRej_moves (connected : conn.state = .connected) {frame : AX25Frame}
    (within : ahead conn.va frame.nr ≤ ahead conn.va conn.vs) :
    Moves conn (conn.handleRej frame) []
      (payloads conn.unacked conn.va (ahead conn.va frame.nr)) := by
  have open_ : ¬ conn.state ≠ .connected := not_not.mpr connected
  simp only [handleRej, if_neg open_]
  have flight : ((conn.updateVa frame.nr).stopT1.retransmitFrom frame.nr).inFlight =
      (conn.updateVa frame.nr).inFlight := inFlight_retransmitFrom _ frame.nr
  have queue : ((conn.updateVa frame.nr).stopT1.retransmitFrom frame.nr).txQueue =
      conn.txQueue := retransmitFrom_txQueue _ frame.nr
  apply Moves.acknowledge connected within
  · apply silent_of_same
    split <;> exact retransmitFrom_rxQueue _ frame.nr
  · split <;> exact retransmitFrom_state _ frame.nr
  · rw [← flight, ← queue]
    split <;> rfl

/-- The four numbered frames on a connection that is not up. -/
theorem numbered_still (down : conn.state ≠ .connected) {frame : AX25Frame}
    (numbered : frame.frameType = .i ∨ frame.frameType = .rr ∨ frame.frameType = .rnr ∨
      frame.frameType = .rej) :
    Moves conn (conn.handleFrame frame) [] [] := by
  rcases numbered with kind | kind | kind | kind
  · simp only [handleFrame, kind, handleI, if_pos down]
    exact .stays (silent_of_same rfl) rfl rfl rfl
  · simp only [handleFrame, kind, handleRr, if_pos down]
    exact .stays (silent_of_same rfl) rfl rfl rfl
  · simp only [handleFrame, kind, handleRnr, if_pos down]
    exact .stays (silent_of_same rfl) rfl rfl rfl
  · simp only [handleFrame, kind, handleRej, if_pos down]
    exact .stays (silent_of_same rfl) rfl rfl rfl

theorem handleFrame_moves {frame : AX25Frame} (within : ¬ OutOfWindow conn (.receive frame))
    (other : frame.frameType ≠ .sabm) :
    Moves conn (conn.handleFrame frame) [] (conn.ackedBy (.receive frame)) := by
  by_cases numbered : frame.frameType = .i ∨ frame.frameType = .rr ∨ frame.frameType = .rnr ∨
      frame.frameType = .rej
  · by_cases connected : conn.state = .connected
    · have inside := within_window within connected numbered
      rw [ackedBy, if_pos ⟨connected, numbered⟩]
      rcases numbered with kind | kind | kind | kind
      · simpa only [handleFrame, kind] using handleI_moves connected inside
      · simpa only [handleFrame, kind] using handleRr_moves connected inside
      · simpa only [handleFrame, kind] using handleRnr_moves connected inside
      · simpa only [handleFrame, kind] using handleRej_moves connected inside
    · rw [ackedBy, if_neg fun both => connected both.1]
      exact numbered_still connected numbered
  · rw [ackedBy, if_neg fun both => numbered both.2]
    cases kind : frame.frameType with
    | i | rr | rnr | rej => simp [kind] at numbered
    | sabm => exact absurd kind other
    | ua =>
        simp only [handleFrame, kind]
        exact handleUa_moves conn
    | disc =>
        simp only [handleFrame, kind]
        exact .closes (ends_of_put rfl) (by simp [handleDisc, putRx])
    | dm =>
        simp only [handleFrame, kind]
        exact .closes (ends_of_put rfl) (by simp [handleDm, putRx])
    | ui =>
        simp only [handleFrame, kind]
        split
        · rename_i data
          exact .stays (silent_of_put data rfl) rfl rfl rfl
        · exact .stays (silent_of_same rfl) rfl rfl rfl
    | frmr | unknown =>
        simp only [handleFrame, kind]
        exact .stays (silent_of_same rfl) rfl rfl rfl

theorem write_moves (conn : AX25Connection) (data : Bytes) :
    Moves conn ((conn.write data).getD conn) (conn.acceptedBy (.write data)) [] := by
  rw [write, acceptedBy]
  by_cases connected : conn.state = .connected
  · rw [if_neg (not_not.mpr connected), if_pos connected]
    cases chunks conn.paclen data with
    | none => exact .stays (silent_of_same rfl) rfl rfl rfl
    | some pieces =>
        simp only [Option.map_some, Option.getD_some]
        refine .carries (silent_of_same (pumpTx_rxQueue _))
          (fun _ => .inl ((pumpTx_state _).trans connected)) (fun _ => connected) ?_
          fun down => absurd connected down
        rw [List.nil_append, pumpTx_balance, List.append_assoc]
        rfl
  · rw [if_pos connected, if_neg connected]
    exact .stays (silent_of_same rfl) rfl rfl rfl

theorem t1Expire_moves (conn : AX25Connection) : Moves conn conn.t1Expire [] [] := by
  rw [t1Expire]
  cases state : conn.stopT1.state with
  | awaitingConnect =>
      have shut : ¬ Open conn := by simp [Open, show conn.state = .awaitingConnect from state]
      dsimp only
      split
      · exact .still (silent_of_same rfl) (fun opened => absurd opened shut)
          (fun up => nomatch up) rfl rfl
      · exact .stays (silent_of_same rfl) state.symm rfl rfl
  | awaitingRelease =>
      dsimp only
      split
      · exact .closes (ends_of_put rfl) (by simp [putRx])
      · exact .stays (silent_of_same rfl) state.symm rfl rfl
  | connected =>
      dsimp only
      split
      · split
        · exact .closes (ends_of_put rfl) (by simp [linkFailure, putRx])
        · refine .stays (silent_of_same ?_) ?_ ?_ ?_
          · simp [startT1, stopT1]
          · simpa [startT1, stopT1] using state.symm
          · exact inFlight_retransmitFrom _ _
          · simp [startT1, stopT1]
      · exact .stays (silent_of_same rfl) rfl rfl rfl
  | disconnected => exact .stays (silent_of_same rfl) rfl rfl rfl

theorem t3Expire_moves (conn : AX25Connection) : Moves conn conn.t3Expire [] [] := by
  simp only [t3Expire]
  split <;> exact .stays (silent_of_same rfl) rfl rfl rfl

theorem connect_moves (conn : AX25Connection) : Moves conn (conn.connect.getD conn) [] [] := by
  by_cases down : conn.state = .disconnected
  · have shut : ¬ Open conn := by simp [Open, down]
    simp only [connect, if_neg (not_not.mpr down), Option.getD_some]
    exact .still (silent_of_same rfl) (fun opened => absurd opened shut)
      (fun up => nomatch up) rfl rfl
  · simp only [connect, if_pos down, Option.getD_none]
    exact .stays (silent_of_same rfl) rfl rfl rfl

theorem disconnect_moves (conn : AX25Connection) : Moves conn conn.disconnect [] [] := by
  rw [disconnect]
  split
  · exact .stays (silent_of_same rfl) rfl rfl rfl
  · exact .still (silent_of_same rfl) (fun _ => .inr rfl) (fun up => nomatch up) rfl rfl

theorem step_moves {event : Event} (within : ¬ OutOfWindow conn event)
    (other : ∀ frame, event = .receive frame → frame.frameType ≠ .sabm)
    (stepped : conn.step event = some next) :
    Moves conn next (conn.acceptedBy event) (conn.ackedBy event) := by
  cases event with
  | receive frame =>
      cases stepped
      exact handleFrame_moves within (other frame rfl)
  | write data =>
      cases stepped
      exact write_moves conn data
  | t1Expire =>
      obtain ⟨-, rfl⟩ := step_t1Expire stepped
      exact t1Expire_moves conn
  | t3Expire =>
      obtain ⟨-, rfl⟩ := step_t3Expire stepped
      exact t3Expire_moves conn
  | connect =>
      cases stepped
      exact connect_moves conn
  | disconnect =>
      cases stepped
      exact disconnect_moves conn

namespace Trace

variable {trace after : Trace}

/-- While the link is up the accounts balance; otherwise only the queue is left. -/
structure Accounted (trace : Trace) : Prop where
  window : Outstanding trace.conn
  opened : trace.up = true → Open trace.conn
  balance : trace.up = true →
    trace.acked ++ trace.conn.inFlight ++ trace.conn.txQueue = trace.stale ++ trace.accepted
  down : trace.up = false → trace.conn.state ≠ .connected
  empty : trace.up = false →
    trace.stale = trace.conn.txQueue ∧ trace.accepted = [] ∧ trace.acked = []

theorem Accounted.conserved (accounted : Accounted trace) : Conserved trace := by
  intro connected
  apply accounted.balance
  cases up : trace.up with
  | true => rfl
  | false => exact absurd connected (accounted.down up)

theorem Accounted.moves (accounted : Accounted trace) {next : AX25Connection}
    {event : Event} (window : Outstanding next)
    (moves : Moves trace.conn next (trace.conn.acceptedBy event)
      (trace.conn.ackedBy event)) :
    Accounted (trace.advance event next) := by
  rw [advance]
  cases moves with
  | closes ends down =>
      rw [if_pos ends]
      exact ⟨window, fun up => (nomatch up), fun up => (nomatch up), fun _ => down,
        fun _ => ⟨rfl, rfl, rfl⟩⟩
  | carries silent opened up balance idle =>
      rw [if_neg silent]
      cases live : trace.up with
      | true =>
          have before := accounted.balance live
          refine ⟨window, fun _ => opened (accounted.opened live), fun _ => ?_,
            fun down => by simp at down, fun down => by simp at down⟩
          calc trace.acked ++ trace.conn.ackedBy event ++ next.inFlight ++ next.txQueue
              = trace.acked ++ (trace.conn.ackedBy event ++ next.inFlight ++ next.txQueue) := by
                simp only [List.append_assoc]
            _ = trace.acked ++ trace.conn.inFlight ++ trace.conn.txQueue ++
                  trace.conn.acceptedBy event := by
                rw [← balance]
                simp only [List.append_assoc]
            _ = trace.stale ++ (trace.accepted ++ trace.conn.acceptedBy event) := by
                rw [before, List.append_assoc]
      | false =>
          have shut := accounted.down live
          have down : next.state ≠ .connected := fun connected => shut (up connected)
          obtain ⟨queue, noneAccepted, noneAcked⟩ := idle shut
          obtain ⟨stale, accepted, acked⟩ := accounted.empty live
          refine ⟨window, fun again => ?_, fun again => ?_, fun _ => down, fun _ => ?_⟩
          · simp [down] at again
          · simp [down] at again
          · simp [queue, stale, accepted, acked, noneAccepted, noneAcked]
  | opens silent attempt connected balance noneAccepted noneAcked =>
      rw [if_neg silent]
      cases live : trace.up with
      | true =>
          have opened := accounted.opened live
          simp [Open, attempt] at opened
      | false =>
          obtain ⟨stale, accepted, acked⟩ := accounted.empty live
          refine ⟨window, fun _ => .inl connected, fun _ => ?_, fun down => ?_, fun down => ?_⟩
          · simpa [accepted, acked, noneAccepted, noneAcked, stale] using balance
          · simp [connected] at down
          · simp [connected] at down

theorem Accounted.sabm (accounted : Accounted trace) {frame : AX25Frame}
    (window : Outstanding trace.conn.handleSabm) (kind : frame.frameType = .sabm)
    (kept : trace.up = true → trace.conn.inFlight = []) :
    Accounted (trace.advance (.receive frame) trace.conn.handleSabm) := by
  obtain ⟨silent, connected, flight, queue⟩ := handleSabm_opens trace.conn
  have none_acked : trace.conn.ackedBy (.receive frame) = [] := by simp [ackedBy, kind]
  rw [advance, if_neg silent]
  refine ⟨window, fun _ => .inl connected, fun _ => ?_, fun down => ?_, fun down => ?_⟩
  · simp only [acceptedBy, none_acked, List.append_nil, flight, queue]
    cases live : trace.up with
    | true =>
        have before := accounted.balance live
        rwa [kept live, List.append_nil] at before
    | false =>
        obtain ⟨stale, accepted, acked⟩ := accounted.empty live
        simp [stale, accepted, acked]
  · simp [connected] at down
  · simp [connected] at down

theorem Accounted.step (accounted : Accounted trace) {event : Event}
    (kept : ¬ Resets trace event) (stepped : trace.step event = some after) :
    Accounted after := by
  obtain ⟨next, moved, rfl⟩ := Option.map_eq_some_iff.mp stepped
  obtain ⟨within, moved⟩ := stepWithin_eq_some.mp moved
  have window := accounted.window.step within moved
  by_cases sabm : ∃ frame, event = .receive frame ∧ frame.frameType = .sabm
  · obtain ⟨frame, rfl, kind⟩ := sabm
    have same : next = trace.conn.handleSabm := by
      simpa [AX25Connection.step, handleFrame, kind] using moved.symm
    subst same
    apply accounted.sabm window kind
    intro live
    by_contra flying
    exact kept ⟨kind, live, flying⟩
  · exact accounted.moves window
      (step_moves within (fun frame received kind => sabm ⟨frame, received, kind⟩) moved)

theorem Resets.loses {event : Event} (resets : Resets trace event)
    (accounted : Accounted trace) : ∃ after, trace.step event = some after ∧ ¬ Conserved after := by
  cases event with
  | receive frame =>
      obtain ⟨kind, live, flying⟩ := resets
      obtain ⟨silent, connected, flight, queue⟩ := handleSabm_opens trace.conn
      have moved : trace.conn.stepWithin (.receive frame) = some trace.conn.handleSabm := by
        refine stepWithin_eq_some.mpr ⟨fun beyond => ?_, ?_⟩
        · simp [OutOfWindow, kind] at beyond
        · simp [AX25Connection.step, handleFrame, kind]
      refine ⟨_, by rw [Trace.step, moved, Option.map_some], fun conserved => ?_⟩
      have none_acked : trace.conn.ackedBy (.receive frame) = [] := by simp [ackedBy, kind]
      rw [advance, if_neg silent] at conserved
      have balance := conserved connected
      simp only [acceptedBy, none_acked, List.append_nil, flight, queue] at balance
      rw [← accounted.balance live] at balance
      have lengths := congrArg List.length balance
      simp only [List.length_append] at lengths
      exact flying (List.length_eq_zero_iff.mp (by omega))
  | write | t1Expire | t3Expire | connect | disconnect => exact absurd resets id

/-- No chunk disappears in exactly the runs in which no SABM arrives while chunks of the
link are in flight. -/
theorem conserved_iff (localAddr remoteAddr : AX25Address) (paclen : Int)
    (events : List Event) :
    Throughout step Conserved (init localAddr remoteAddr paclen) events ↔
      EveryStep step (fun trace event => ¬ Resets trace event)
        (init localAddr remoteAddr paclen) events := by
  have initial : Accounted (init localAddr remoteAddr paclen) :=
    ⟨Outstanding.reset (AX25Connection.init localAddr remoteAddr paclen),
      fun up => (nomatch up), fun up => (nomatch up), fun _ connected => (nomatch connected),
      fun _ => ⟨rfl, rfl, rfl⟩⟩
  refine throughout_iff_everyStep (fun _ _ _ accounted kept stepped => accounted.step kept stepped)
    (fun _ accounted => accounted.conserved) ?_ initial events
  intro trace event accounted against
  exact (not_not.mp against).loses accounted

/-- The UA was late and the peer repeats its SABM: the greeting is gone. -/
theorem repeated_sabm_loses_data :
    ¬ ∀ (localAddr remoteAddr : AX25Address) (paclen : Int) (events : List Event),
      Throughout step Conserved (init localAddr remoteAddr paclen) events := by
  intro claimed
  let node : AX25Address := { callsign := "W3BBS" }
  let station : AX25Address := { callsign := "AI3I" }
  let events : List Event :=
    [.receive (.sabm node station), .write [72, 105], .receive (.sabm node station)]
  have lost : (run step (init node station 236) events).any fun reached =>
      reached.conn.state = .connected ∧ reached.accepted = [[72, 105]] ∧ reached.acked = [] ∧
        reached.conn.inFlight = [] ∧ reached.conn.txQueue = [] := by
    decide +kernel
  obtain ⟨reached, completed, holds⟩ := Option.any_eq_true _ _ |>.mp lost
  obtain ⟨connected, accepted, acked, flight, queue⟩ := of_decide_eq_true holds
  have conserved := claimed node station 236 events events reached List.prefix_rfl completed
  have balance := conserved connected
  rw [acked, flight, queue, accepted] at balance
  have lengths := congrArg List.length balance
  simp at lengths

end Trace

end AX25Connection

end PyBulletin.Ax25
