import PyBulletin.Ax25.Transmit

set_option autoImplicit false

namespace PyBulletin.Ax25

open PyBulletin.Foundation

/-- Distances between two numbers, seen from a third. -/
theorem ahead_via (va key vs : Seq) :
    ahead va key = (ahead va vs + 8 - ahead key vs) % 8 := by
  revert va key vs
  decide

theorem ahead_lt_eight (start seq : Seq) : ahead start seq < 8 := (seq - start).isLt

private theorem ahead_advanced (key vs : Seq) : ahead key (vs + 1) = (ahead key vs + 1) % 8 := by
  revert key vs
  decide

theorem ahead_eq_zero {start seq : Seq} : ahead start seq = 0 ↔ start = seq := by
  revert start seq
  decide

namespace AX25Connection

/-- `_unacked` holds the last `count` frames before V(S), all of them sent by this
connection.  Without a bound on the received N(R) they need not start at V(A). -/
structure Suffix (conn : AX25Connection) (count : Nat) : Prop where
  within : count ≤ ahead conn.va conn.vs
  keys : ∀ key, (conn.unacked key).isSome ↔ 0 < ahead key conn.vs ∧ ahead key conn.vs ≤ count
  built : ∀ key frame, conn.unacked key = some frame →
    ∃ nr info, frame = .iframe conn.makeDest conn.makeSrc key nr info

/-- How many of `count` frames an acknowledgement leaves. -/
def remaining (conn : AX25Connection) (nr : Seq) (count : Nat) : Nat :=
  if ahead nr conn.vs ≤ ahead conn.va conn.vs then min count (ahead nr conn.vs) else 0

variable {conn : AX25Connection} {count : Nat}

theorem remaining_le (conn : AX25Connection) (nr : Seq) (count : Nat) :
    conn.remaining nr count ≤ count := by
  rw [remaining]
  split <;> omega

theorem Suffix.congr {next : AX25Connection} (suffix : Suffix conn count)
    (va : next.va = conn.va) (vs : next.vs = conn.vs) (unacked : next.unacked = conn.unacked)
    (localAddr : next.localAddr = conn.localAddr)
    (remoteAddr : next.remoteAddr = conn.remoteAddr) : Suffix next count where
  within := by rw [va, vs]; exact suffix.within
  keys := by rw [vs, unacked]; exact suffix.keys
  built := by
    rw [unacked, makeDest, makeSrc, localAddr, remoteAddr]
    exact suffix.built

theorem Suffix.empty {next : AX25Connection} (unacked : next.unacked = fun _ => none) :
    Suffix next 0 where
  within := Nat.zero_le _
  keys := by
    intro key
    simp only [unacked, Option.isSome_none, Bool.false_eq_true, false_iff]
    omega
  built := by simp [unacked]

theorem Suffix.updateVa (suffix : Suffix conn count) (nr : Seq) :
    Suffix (conn.updateVa nr) (conn.remaining nr count) where
  within := by
    rw [remaining]
    split
    · exact Nat.min_le_right _ _
    · exact Nat.zero_le _
  keys := by
    intro key
    have present := suffix.keys key
    have within := suffix.within
    have bound := ahead_lt_eight conn.va conn.vs
    have keyBound := ahead_lt_eight key conn.vs
    have nrBound := ahead_lt_eight nr conn.vs
    simp only [AX25Connection.updateVa, dropAcked_apply, remaining]
    rw [ahead_via conn.va key conn.vs, ahead_via conn.va nr conn.vs]
    split
    · simp only [Option.isSome_none, Bool.false_eq_true, false_iff]
      split <;> omega
    · rw [present]
      split <;> omega
  built := by
    intro key frame found
    simp only [AX25Connection.updateVa, dropAcked_apply] at found
    split at found
    · cases found
    · exact suffix.built key frame found

theorem Suffix.push (suffix : Suffix conn count) (nr : Seq) (data : Bytes)
    (room : ahead conn.va conn.vs < windowSize) {next : AX25Connection}
    (va : next.va = conn.va) (vs : next.vs = conn.vs + 1)
    (unacked : next.unacked = Function.update conn.unacked conn.vs
      (some (.iframe conn.makeDest conn.makeSrc conn.vs nr data)))
    (localAddr : next.localAddr = conn.localAddr)
    (remoteAddr : next.remoteAddr = conn.remoteAddr) : Suffix next (count + 1) where
  within := by
    have within := suffix.within
    rw [va, vs, ahead_advanced]
    simp only [windowSize] at room
    omega
  keys := by
    intro key
    have within := suffix.within
    have keyBound := ahead_lt_eight key conn.vs
    simp only [windowSize] at room
    rw [vs, unacked, ahead_advanced]
    by_cases same : key = conn.vs
    · subst same
      have zero : ahead conn.vs conn.vs = 0 := ahead_eq_zero.mpr rfl
      simp only [Function.update_self, Option.isSome_some, true_iff, zero]
      omega
    · have apart : ahead key conn.vs ≠ 0 := fun zero => same (ahead_eq_zero.mp zero)
      rw [Function.update_of_ne same, suffix.keys key]
      omega
  built := by
    intro key frame found
    rw [unacked] at found
    rw [makeDest, makeSrc, localAddr, remoteAddr]
    by_cases same : key = conn.vs
    · subst same
      rw [Function.update_self] at found
      cases found
      exact ⟨nr, data, rfl⟩
    · rw [Function.update_of_ne same] at found
      exact suffix.built key frame found

theorem Suffix.pumpQueue (suffix : Suffix conn count) (queue : List Bytes) :
    ∃ later, Suffix (conn.pumpQueue queue) later := by
  induction queue generalizing conn count with
  | nil => exact ⟨count, suffix.congr rfl rfl rfl rfl rfl⟩
  | cons data queue ih =>
      rw [AX25Connection.pumpQueue]
      split
      · exact ⟨count, suffix.congr rfl rfl rfl rfl rfl⟩
      · rename_i room
        have free : ahead conn.va conn.vs < windowSize := by simpa using room
        refine ih (?_ : Suffix _ (count + 1))
        split <;> exact suffix.push conn.vr data free rfl rfl rfl rfl rfl

theorem Suffix.pumpTx (suffix : Suffix conn count) : ∃ later, Suffix conn.pumpTx later := by
  rw [AX25Connection.pumpTx]
  split
  · exact ⟨count, suffix⟩
  · exact suffix.pumpQueue conn.txQueue

theorem Suffix.renew (suffix : Suffix conn count) {seq : Seq} {frame : AX25Frame}
    (found : conn.unacked seq = some frame) :
    Suffix ({ conn with
      unacked := Function.update conn.unacked seq (some (frame.withNr conn.vr)) }.send
        (frame.withNr conn.vr)) count where
  within := suffix.within
  keys := by
    intro key
    by_cases same : key = seq
    · subst same
      have present := suffix.keys key
      rw [found] at present
      simpa [AX25Connection.send] using present
    · simpa only [AX25Connection.send, Function.update_of_ne same] using suffix.keys key
  built := by
    intro key other stored
    by_cases same : key = seq
    · subst same
      simp only [AX25Connection.send, Function.update_self, Option.some.injEq] at stored
      obtain ⟨nr, info, rfl⟩ := suffix.built key frame found
      exact ⟨conn.vr, info, by rw [← stored]; exact AX25Frame.withNr_iframe _ _ _⟩
    · simp only [AX25Connection.send, Function.update_of_ne same] at stored
      exact suffix.built key other stored

theorem Suffix.retransmitFrom (suffix : Suffix conn count) (seq : Seq) :
    Suffix (conn.retransmitFrom seq) count := by
  induction conn, seq using retransmitFrom.induct with
  | case1 conn => rwa [AX25Connection.retransmitFrom, if_pos rfl]
  | case2 conn seq different absent ih =>
      rw [AX25Connection.retransmitFrom, if_neg different, absent]
      exact ih suffix
  | case3 conn seq different frame found renewed ih =>
      rw [AX25Connection.retransmitFrom, if_neg different, found]
      exact ih (suffix.renew found)

theorem Suffix.handleFrame (suffix : Suffix conn count) (frame : AX25Frame) :
    ∃ later, Suffix (conn.handleFrame frame) later := by
  rw [AX25Connection.handleFrame]
  cases kind : frame.frameType with
  | sabm => exact ⟨0, .empty rfl⟩
  | ua =>
      dsimp only
      rw [handleUa]
      cases state : conn.state with
      | awaitingConnect =>
          have reset : Suffix { { conn.stopT1 with state := .connected }.resetCounters.startT3 with
            connectedEvent := true } 0 := .empty rfl
          exact reset.pumpTx
      | awaitingRelease | connected | disconnected =>
          exact ⟨count, suffix.congr rfl rfl rfl rfl rfl⟩
  | disc | dm => exact ⟨count, suffix.congr rfl rfl rfl rfl rfl⟩
  | i =>
      dsimp only
      rw [handleI]
      split
      · exact ⟨count, suffix.congr rfl rfl rfl rfl rfl⟩
      · have acked := suffix.updateVa frame.nr
        obtain ⟨vr, rxQueue, sent, accepted⟩ :=
          acceptI_frame (conn.stopT3.startT3.updateVa frame.nr) frame
        dsimp only
        rw [accepted]
        split
        · exact Suffix.pumpTx (acked.congr rfl rfl rfl rfl rfl)
        · exact Suffix.pumpTx (acked.congr rfl rfl rfl rfl rfl)
  | rr =>
      dsimp only
      rw [handleRr]
      split
      · exact ⟨count, suffix⟩
      · have acked := suffix.updateVa frame.nr
        dsimp only
        split
        · exact Suffix.pumpTx (acked.congr rfl rfl rfl rfl rfl)
        · exact Suffix.pumpTx (acked.congr rfl rfl rfl rfl rfl)
  | rnr =>
      dsimp only
      rw [handleRnr]
      split
      · exact ⟨count, suffix⟩
      · exact ⟨_, (suffix.updateVa frame.nr).congr rfl rfl rfl rfl rfl⟩
  | rej =>
      dsimp only
      rw [handleRej]
      split
      · exact ⟨count, suffix⟩
      · have stopped : Suffix (conn.updateVa frame.nr).stopT1 (conn.remaining frame.nr count) :=
          (suffix.updateVa frame.nr).congr rfl rfl rfl rfl rfl
        have resent := stopped.retransmitFrom frame.nr
        dsimp only
        split
        · exact ⟨_, resent.congr rfl rfl rfl rfl rfl⟩
        · exact ⟨_, resent⟩
  | ui =>
      dsimp only
      split <;> exact ⟨count, suffix.congr rfl rfl rfl rfl rfl⟩
  | frmr | unknown => exact ⟨count, suffix⟩

theorem Suffix.t1Expire (suffix : Suffix conn count) : ∃ later, Suffix conn.t1Expire later := by
  have stopped : Suffix conn.stopT1 count := suffix.congr rfl rfl rfl rfl rfl
  rw [AX25Connection.t1Expire]
  generalize conn.stopT1 = conn at stopped
  dsimp only
  split
  case h_1 | h_2 => split <;> exact ⟨count, stopped.congr rfl rfl rfl rfl rfl⟩
  case h_3 =>
      split
      · split
        · exact ⟨count, stopped.congr rfl rfl rfl rfl rfl⟩
        · have counted : Suffix { conn with retryCount := conn.retryCount + 1 } count :=
            stopped.congr rfl rfl rfl rfl rfl
          have resent := counted.retransmitFrom conn.va
          exact ⟨count, resent.congr rfl rfl rfl rfl rfl⟩
      · exact ⟨count, stopped.congr rfl rfl rfl rfl rfl⟩
  case h_4 => exact ⟨count, stopped⟩

/-- Every event keeps the frames together, also one with an N(R) outside the window. -/
theorem Suffix.step (suffix : Suffix conn count) {event : Event} {next : AX25Connection}
    (stepped : conn.step event = some next) : ∃ later, Suffix next later := by
  cases event with
  | receive frame =>
      cases stepped
      exact suffix.handleFrame frame
  | write data =>
      cases stepped
      rw [write]
      split
      · exact ⟨count, suffix⟩
      · cases chunks conn.paclen data with
        | none => exact ⟨count, suffix⟩
        | some pieces =>
            have queued : Suffix { conn with txQueue := conn.txQueue ++ pieces } count :=
              suffix.congr rfl rfl rfl rfl rfl
            exact queued.pumpTx
  | t1Expire =>
      obtain ⟨-, rfl⟩ := step_t1Expire stepped
      exact suffix.t1Expire
  | t3Expire =>
      obtain ⟨-, rfl⟩ := step_t3Expire stepped
      simp only [t3Expire]
      split <;> exact ⟨count, suffix.congr rfl rfl rfl rfl rfl⟩
  | connect =>
      cases stepped
      rw [connect]
      split <;> exact ⟨count, suffix.congr rfl rfl rfl rfl rfl⟩
  | disconnect =>
      cases stepped
      rw [disconnect]
      split <;> exact ⟨count, suffix.congr rfl rfl rfl rfl rfl⟩

end AX25Connection

end PyBulletin.Ax25
