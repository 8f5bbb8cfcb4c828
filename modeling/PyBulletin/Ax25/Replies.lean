import PyBulletin.Ax25.Suffix

set_option autoImplicit false

namespace PyBulletin.Ax25

open PyBulletin.Foundation

/-- Frames that open or close a link, with what their answers may still cost. -/
def FrameType.control : FrameType → Nat
  | .sabm | .disc => 2
  | .ua => 1
  | _ => 0

namespace AX25Connection

/-- A frame from this end of the link to the other. -/
def Ours (conn : AX25Connection) (frame : AX25Frame) : Prop :=
  frame.dest.callsign = conn.remoteAddr.callsign ∧ frame.dest.ssid = conn.remoteAddr.ssid ∧
    frame.src.callsign = conn.localAddr.callsign ∧ frame.src.ssid = conn.localAddr.ssid

/-- `next` has sent `out` since `conn`. -/
structure Sends (conn next : AX25Connection) (out : List AX25Frame) : Prop where
  sent : next.sent = conn.sent ++ out
  ours : ∀ frame ∈ out, Ours conn frame
  localAddr : next.localAddr = conn.localAddr
  remoteAddr : next.remoteAddr = conn.remoteAddr

variable {conn next : AX25Connection} {count : Nat} {out more : List AX25Frame}

theorem Sends.nothing (sent : next.sent = conn.sent) (localAddr : next.localAddr = conn.localAddr)
    (remoteAddr : next.remoteAddr = conn.remoteAddr) : Sends conn next [] :=
  ⟨by simp [sent], by simp, localAddr, remoteAddr⟩

theorem Sends.one {frame : AX25Frame} (sent : next.sent = conn.sent ++ [frame])
    (ours : Ours conn frame) (localAddr : next.localAddr = conn.localAddr)
    (remoteAddr : next.remoteAddr = conn.remoteAddr) : Sends conn next [frame] :=
  ⟨sent, by simpa using ours, localAddr, remoteAddr⟩

theorem Sends.trans {last : AX25Connection} (first : Sends conn next out)
    (second : Sends next last more) : Sends conn last (out ++ more) where
  sent := by rw [second.sent, first.sent, List.append_assoc]
  ours := by
    intro frame member
    rcases List.mem_append.mp member with early | late
    · exact first.ours frame early
    · have ours := second.ours frame late
      rwa [Ours, first.localAddr, first.remoteAddr] at ours
  localAddr := second.localAddr.trans first.localAddr
  remoteAddr := second.remoteAddr.trans first.remoteAddr

/-- The same frames, counted from or up to a connection that differs elsewhere. -/
theorem Sends.congr {before after : AX25Connection} (sends : Sends conn next out)
    (sentBefore : before.sent = conn.sent) (localBefore : before.localAddr = conn.localAddr)
    (remoteBefore : before.remoteAddr = conn.remoteAddr) (sentAfter : after.sent = next.sent)
    (localAfter : after.localAddr = next.localAddr)
    (remoteAfter : after.remoteAddr = next.remoteAddr) : Sends before after out where
  sent := by rw [sentAfter, sends.sent, sentBefore]
  ours := by
    intro frame member
    rw [Ours, localBefore, remoteBefore]
    exact sends.ours frame member
  localAddr := by rw [localAfter, sends.localAddr, localBefore]
  remoteAddr := by rw [remoteAfter, sends.remoteAddr, remoteBefore]

/-- One I frame, and then what `final` sends. -/
theorem Sends.iframe_first {pushed final : AX25Connection} (frame : AX25Frame)
    (first : Sends conn pushed [frame]) (kind : frame.frameType = .i)
    (rest : ∃ out, Sends pushed final out ∧ ∀ sent ∈ out, sent.frameType = .i) :
    ∃ out, Sends conn final out ∧ ∀ sent ∈ out, sent.frameType = .i := by
  obtain ⟨out, sends, numbered⟩ := rest
  refine ⟨[frame] ++ out, first.trans sends, fun sent member => ?_⟩
  rcases List.mem_append.mp member with early | late
  · rw [List.mem_singleton.mp early]
    exact kind
  · exact numbered sent late

theorem pumpQueue_sends (conn : AX25Connection) (queue : List Bytes) :
    ∃ out, Sends conn (conn.pumpQueue queue) out ∧ ∀ frame ∈ out, frame.frameType = .i := by
  induction queue generalizing conn with
  | nil => exact ⟨[], .nothing rfl rfl rfl, by simp⟩
  | cons data queue ih =>
      rw [pumpQueue]
      split
      · exact ⟨[], .nothing rfl rfl rfl, by simp⟩
      · dsimp only
        split
        all_goals
          refine Sends.iframe_first
            (.iframe conn.makeDest conn.makeSrc conn.vs conn.vr data) ?_
            (AX25Frame.frameType_iframe conn.vs conn.vr) (ih _)
          exact .one rfl ⟨rfl, rfl, rfl, rfl⟩ rfl rfl

theorem pumpTx_sends (conn : AX25Connection) :
    ∃ out, Sends conn conn.pumpTx out ∧ ∀ frame ∈ out, frame.frameType = .i := by
  rw [pumpTx]
  split
  · exact ⟨[], .nothing rfl rfl rfl, by simp⟩
  · exact pumpQueue_sends conn conn.txQueue

theorem pumpQueue_length (conn : AX25Connection) (queue : List Bytes) :
    (conn.pumpQueue queue).txQueue.length ≤ queue.length := by
  induction queue generalizing conn with
  | nil => exact Nat.le_refl _
  | cons data queue ih =>
      rw [pumpQueue]
      split
      · exact Nat.le_refl _
      · exact Nat.le_succ_of_le (ih _)

/-- The pump takes something from the queue or does nothing. -/
theorem pumpTx_calm (conn : AX25Connection) :
    conn.pumpTx = conn ∨ conn.pumpTx.txQueue.length < conn.txQueue.length := by
  rw [pumpTx]
  split
  · exact .inl rfl
  · cases queue : conn.txQueue with
    | nil =>
        left
        rw [pumpQueue, ← queue]
    | cons data rest =>
        rw [pumpQueue]
        split
        · left
          rw [← queue]
        · right
          exact Nat.lt_succ_of_le (pumpQueue_length _ rest)

/-- Retransmission goes up from `seq`: it sends kept frames only, and `seq` itself if that
is kept. -/
theorem Suffix.retransmitFrom_sends (suffix : Suffix conn count) (seq : Seq) :
    ∃ out, Sends conn (conn.retransmitFrom seq) out ∧ (∀ frame ∈ out, frame.frameType = .i) ∧
      ((conn.unacked seq).isSome → ∃ frame ∈ out, frame.ns = seq) ∧
      (count = 0 → out = []) := by
  induction conn, seq using retransmitFrom.induct with
  | case1 conn =>
      rw [AX25Connection.retransmitFrom, if_pos rfl]
      refine ⟨[], .nothing rfl rfl rfl, by simp, fun present => ?_, fun _ => rfl⟩
      have ahead_ := ((suffix.keys conn.vs).mp present).1
      simp [ahead] at ahead_
  | case2 conn seq different absent ih =>
      rw [AX25Connection.retransmitFrom, if_neg different, absent]
      obtain ⟨out, sends, numbered, _, empty⟩ := ih suffix
      exact ⟨out, sends, numbered, by simp, empty⟩
  | case3 conn seq different frame found renewed ih =>
      rw [AX25Connection.retransmitFrom, if_neg different, found]
      obtain ⟨nr, info, rfl⟩ := suffix.built seq frame found
      obtain ⟨out, sends, numbered, _, empty⟩ := ih (suffix.renew found)
      refine ⟨renewed :: out, ?_, ?_, fun _ => ⟨renewed, by simp, ?_⟩, fun none_ => ?_⟩
      · have first : Sends conn ({ conn with
            unacked := Function.update conn.unacked seq (some renewed) }.send renewed)
              [renewed] := by
          refine .one rfl ?_ rfl rfl
          simp only [renewed, AX25Frame.withNr_iframe]
          exact ⟨rfl, rfl, rfl, rfl⟩
        exact first.trans sends
      · intro frame member
        rcases List.mem_cons.mp member with rfl | late
        · simp only [renewed, AX25Frame.withNr_iframe, AX25Frame.frameType_iframe]
        · exact numbered frame late
      · simp only [renewed, AX25Frame.withNr_iframe, AX25Frame.ns_iframe]
      · subst none_
        have present := (suffix.keys seq).mp (by simp [found])
        omega

/-- The answer to an I frame: RR or RNR for the next number, or REJ for the one that
is missing. -/
def Acknowledges (conn : AX25Connection) (frame ack : AX25Frame) : Prop :=
  if frame.ns = conn.vr then
    (ack.frameType = .rr ∨ ack.frameType = .rnr) ∧ ack.nr = conn.vr + 1
  else ack.frameType = .rej ∧ ack.nr = conn.vr

theorem acceptI_sends (conn : AX25Connection) (frame : AX25Frame) :
    ∃ ack, Acknowledges conn frame ack ∧ Sends conn (conn.acceptI frame) [ack] := by
  rw [acceptI]
  by_cases next : frame.ns = conn.vr
  · rw [if_pos next]
    dsimp only
    split <;> split
    all_goals
      refine ⟨_, ?_, .one rfl ⟨rfl, rfl, rfl, rfl⟩ rfl rfl⟩
      simp [Acknowledges, next, AX25Connection.putRx]
  · rw [if_neg next]
    refine ⟨_, ?_, .one rfl ⟨rfl, rfl, rfl, rfl⟩ rfl rfl⟩
    simp [Acknowledges, next]

/-- What an acknowledgement alone makes of a connected link. -/
structure Settled (conn : AX25Connection) (nr : Seq) (next : AX25Connection) : Prop where
  state : next.state = .connected
  va : next.va = nr
  vs : next.vs = conn.vs
  kept : ∀ key, (next.unacked key).isSome = ((conn.updateVa nr).unacked key).isSome
  queue : next.txQueue = conn.txQueue

/-- The pump at the end of a handler that has sent `out` so far. -/
theorem Settled.pumpTx {nr : Seq} {ready : AX25Connection} (settled : Settled conn nr ready)
    (first : Sends conn ready out) :
    ∃ more, Sends conn ready.pumpTx (out ++ more) ∧ (∀ sent ∈ more, sent.frameType = .i) ∧
      (ready.pumpTx.txQueue.length < conn.txQueue.length ∨
        more = [] ∧ Settled conn nr ready.pumpTx) := by
  obtain ⟨more, sends, numbered⟩ := pumpTx_sends ready
  refine ⟨more, first.trans sends, numbered, ?_⟩
  rcases pumpTx_calm ready with same | shorter
  · right
    rw [same]
    have sent := sends.sent
    rw [same] at sent
    exact ⟨by simpa using sent, settled⟩
  · left
    rwa [settled.queue] at shorter

theorem handleI_answer (connected : conn.state = .connected) (frame : AX25Frame) :
    ∃ ack more, Acknowledges conn frame ack ∧ Sends conn (conn.handleI frame) (ack :: more) ∧
      (∀ sent ∈ more, sent.frameType = .i) ∧
      ((conn.handleI frame).txQueue.length < conn.txQueue.length ∨
        more = [] ∧ Settled conn frame.nr (conn.handleI frame)) := by
  simp only [handleI, if_neg (not_not.mpr connected)]
  obtain ⟨ack, acknowledges, first⟩ := acceptI_sends (conn.stopT3.startT3.updateVa frame.nr) frame
  obtain ⟨vr, rxQueue, sent, accepted⟩ :=
    acceptI_frame (conn.stopT3.startT3.updateVa frame.nr) frame
  rw [accepted] at first ⊢
  refine ⟨ack, ?_⟩
  simp only [show Acknowledges conn frame ack from acknowledges, true_and]
  split
  · refine @Settled.pumpTx conn [ack] frame.nr _ ?_ ?_
    · exact ⟨connected, rfl, rfl, fun _ => rfl, rfl⟩
    · exact first.congr rfl rfl rfl rfl rfl rfl
  · refine @Settled.pumpTx conn [ack] frame.nr _ ?_ ?_
    · exact ⟨connected, rfl, rfl, fun _ => rfl, rfl⟩
    · exact first.congr rfl rfl rfl rfl rfl rfl

theorem handleRr_answer (connected : conn.state = .connected) (frame : AX25Frame) :
    ∃ more, Sends conn (conn.handleRr frame) ([] ++ more) ∧
      (∀ sent ∈ more, sent.frameType = .i) ∧
      ((conn.handleRr frame).txQueue.length < conn.txQueue.length ∨
        more = [] ∧ Settled conn frame.nr (conn.handleRr frame)) := by
  simp only [handleRr, if_neg (not_not.mpr connected)]
  split
  · refine @Settled.pumpTx conn [] frame.nr _ ?_ ?_
    · exact ⟨connected, rfl, rfl, fun _ => rfl, rfl⟩
    · exact .nothing rfl rfl rfl
  · refine @Settled.pumpTx conn [] frame.nr _ ?_ ?_
    · exact ⟨connected, rfl, rfl, fun _ => rfl, rfl⟩
    · exact .nothing rfl rfl rfl

theorem handleRnr_answer (connected : conn.state = .connected) (frame : AX25Frame) :
    Sends conn (conn.handleRnr frame) [] ∧ Settled conn frame.nr (conn.handleRnr frame) := by
  rw [handleRnr, if_neg (not_not.mpr connected)]
  exact ⟨.nothing rfl rfl rfl, connected, rfl, rfl, fun _ => rfl, rfl⟩

theorem retransmitFrom_isSome (conn : AX25Connection) (seq key : Seq) :
    ((conn.retransmitFrom seq).unacked key).isSome = (conn.unacked key).isSome := by
  induction conn, seq using retransmitFrom.induct with
  | case1 conn => rw [retransmitFrom, if_pos rfl]
  | case2 conn seq different absent ih => rwa [retransmitFrom, if_neg different, absent]
  | case3 conn seq different frame found renewed ih =>
      rw [retransmitFrom, if_neg different, found, ih]
      by_cases same : key = seq
      · simp [send, same, found]
      · simp [send, same]

theorem Suffix.handleRej_answer (suffix : Suffix conn count)
    (connected : conn.state = .connected) (frame : AX25Frame) :
    ∃ out, Sends conn (conn.handleRej frame) out ∧ (∀ sent ∈ out, sent.frameType = .i) ∧
      (((conn.updateVa frame.nr).unacked frame.nr).isSome → ∃ sent ∈ out, sent.ns = frame.nr) ∧
      (conn.remaining frame.nr count = 0 → out = []) ∧
      Settled conn frame.nr (conn.handleRej frame) := by
  have stopped : Suffix (conn.updateVa frame.nr).stopT1 (conn.remaining frame.nr count) :=
    (suffix.updateVa frame.nr).congr rfl rfl rfl rfl rfl
  obtain ⟨out, sends, numbered, again, empty⟩ := stopped.retransmitFrom_sends frame.nr
  have settled : Settled conn frame.nr
      ((conn.updateVa frame.nr).stopT1.retransmitFrom frame.nr) := by
    refine ⟨?_, ?_, ?_, fun key => retransmitFrom_isSome _ frame.nr key, ?_⟩
    · exact (retransmitFrom_state _ frame.nr).trans connected
    · exact retransmitFrom_va _ frame.nr
    · exact retransmitFrom_vs _ frame.nr
    · exact retransmitFrom_txQueue _ frame.nr
  simp only [handleRej, if_neg (not_not.mpr connected)]
  split
  · exact ⟨out, sends.congr rfl rfl rfl rfl rfl rfl, numbered, again, empty, settled.state,
      settled.va, settled.vs, settled.kept, settled.queue⟩
  · exact ⟨out, sends.congr rfl rfl rfl rfl rfl rfl, numbered, again, empty, settled⟩

end AX25Connection

end PyBulletin.Ax25
