import PyBulletin.Ax25.Transmit

set_option autoImplicit false

namespace PyBulletin.Ax25

open PyBulletin.Foundation

namespace AX25Connection

/-- Timers stopped, the waiting callers told, and the reader woken once. -/
structure TornDown (conn next : AX25Connection) : Prop where
  t1 : next.t1Armed = false
  t3 : next.t3Armed = false
  event : next.disconnectedEvent = true
  reader : next.rxQueue = conn.rxQueue ++ [[]]

/-- Every step into DISCONNECTED tears the link down completely, and
`_disconnected_event` is set in that state only. -/
def TeardownComplete (start : AX25Connection) (events : List Event) : Prop :=
  EveryStep step (fun conn event => ∀ next, conn.step event = some next →
    conn.state ≠ .disconnected → next.state = .disconnected → TornDown conn next) start events ∧
  Throughout step (fun conn => conn.disconnectedEvent = true → conn.state = .disconnected)
    start events

/-- The last retry of a connection attempt. -/
def GivesUp (conn : AX25Connection) : Event → Prop
  | .t1Expire =>
      conn.t1Armed = true ∧ conn.state = .awaitingConnect ∧ maxRetries ≤ conn.retryCount
  | _ => False

/-- A SABM or a `connect` on a connection that has been torn down before. -/
def Reopens (conn : AX25Connection) : Event → Prop
  | .receive frame => conn.disconnectedEvent = true ∧ frame.frameType = .sabm
  | .connect => conn.disconnectedEvent = true ∧ conn.state = .disconnected
  | _ => False

variable {conn next : AX25Connection}

structure Orderly (conn : AX25Connection) : Prop where
  t3 : conn.t3Armed = true → conn.state = .connected
  event : conn.disconnectedEvent = true → conn.state = .disconnected

/-- What every step but the two exceptions does to a connection. -/
structure Settles (conn next : AX25Connection) : Prop where
  orderly : Orderly next
  closes : conn.state ≠ .disconnected → next.state = .disconnected → TornDown conn next

theorem Orderly.stays (orderly : Orderly conn) (state : next.state = conn.state)
    (event : next.disconnectedEvent = conn.disconnectedEvent)
    (t3 : next.t3Armed = conn.t3Armed ∨ conn.state = .connected) : Settles conn next where
  orderly :=
    { t3 := by
        rcases t3 with same | connected
        · rw [state, same]
          exact orderly.t3
        · exact fun _ => state.trans connected
      event := by rw [state, event]; exact orderly.event }
  closes before after := absurd (state.symm.trans after) before

theorem TornDown.settles (torn : TornDown conn next) (down : next.state = .disconnected) :
    Settles conn next where
  orderly := ⟨fun armed => absurd armed (by simp [torn.t3]), fun _ => down⟩
  closes _ _ := torn

theorem Settles.opens (t3 : next.t3Armed = true → next.state = .connected)
    (event : next.disconnectedEvent = false) (opened : next.state ≠ .disconnected) :
    Settles conn next where
  orderly := ⟨t3, fun set => absurd set (by simp [event])⟩
  closes _ down := absurd down opened

theorem Orderly.unset (orderly : Orderly conn) (state : conn.state ≠ .disconnected) :
    conn.disconnectedEvent = false := by
  cases set : conn.disconnectedEvent with
  | false => rfl
  | true => exact absurd (orderly.event set) state

theorem Orderly.t3_stopped (orderly : Orderly conn) (state : conn.state ≠ .connected) :
    conn.t3Armed = false := by
  cases armed : conn.t3Armed with
  | false => rfl
  | true => exact absurd (orderly.t3 armed) state

theorem handleSabm_settles (fresh : conn.disconnectedEvent = false) :
    Settles conn conn.handleSabm := by
  refine .opens (fun _ => rfl) ?_ (by simp [AX25Connection.handleSabm, startT3, resetCounters])
  simp only [AX25Connection.handleSabm]
  split <;> exact fresh

theorem Orderly.handleUa (orderly : Orderly conn) : Settles conn conn.handleUa := by
  rw [AX25Connection.handleUa]
  cases state : conn.state with
  | awaitingConnect =>
      have unset := orderly.unset (by simp [state])
      refine .opens ?_ ?_ ?_
      · simp [resetCounters, startT3]
      · simpa [resetCounters, startT3, stopT1] using unset
      · simp [resetCounters, startT3]
  | awaitingRelease =>
      have stopped := orderly.t3_stopped (by simp [state])
      exact TornDown.settles ⟨rfl, stopped, rfl, rfl⟩ rfl
  | connected | disconnected => exact orderly.stays rfl rfl (.inl rfl)

theorem Orderly.handleI (orderly : Orderly conn) (frame : AX25Frame) :
    Settles conn (conn.handleI frame) := by
  rw [AX25Connection.handleI]
  split
  · exact orderly.stays rfl rfl (.inl rfl)
  · rename_i connected
    refine orderly.stays ?_ ?_ (.inr (not_not.mp connected))
    · simp only [pumpTx_state]
      split <;> simp [stopT1, updateVa, startT3, stopT3]
    · simp only [pumpTx_disconnectedEvent]
      split <;> simp [stopT1, updateVa, startT3, stopT3]

theorem Orderly.handleRr (orderly : Orderly conn) (frame : AX25Frame) :
    Settles conn (conn.handleRr frame) := by
  rw [AX25Connection.handleRr]
  split
  · exact orderly.stays rfl rfl (.inl rfl)
  · rename_i connected
    refine orderly.stays ?_ ?_ (.inr (not_not.mp connected))
    · simp only [pumpTx_state]
      split <;> rfl
    · simp only [pumpTx_disconnectedEvent]
      split <;> rfl

theorem Orderly.handleRnr (orderly : Orderly conn) (frame : AX25Frame) :
    Settles conn (conn.handleRnr frame) := by
  rw [AX25Connection.handleRnr]
  split <;> exact orderly.stays rfl rfl (.inl rfl)

theorem Orderly.handleRej (orderly : Orderly conn) (frame : AX25Frame) :
    Settles conn (conn.handleRej frame) := by
  rw [AX25Connection.handleRej]
  split
  · exact orderly.stays rfl rfl (.inl rfl)
  · dsimp only
    split
    all_goals
      refine orderly.stays ?_ ?_ (.inl ?_) <;> simp [startT1, stopT1, updateVa]

theorem Orderly.handleFrame (orderly : Orderly conn) {frame : AX25Frame}
    (fresh : ¬ Reopens conn (.receive frame)) : Settles conn (conn.handleFrame frame) := by
  rw [AX25Connection.handleFrame]
  cases kind : frame.frameType with
  | sabm =>
      have unset : conn.disconnectedEvent = false := by
        simpa [Reopens, kind] using fresh
      exact handleSabm_settles unset
  | ua => exact orderly.handleUa
  | disc | dm => exact TornDown.settles ⟨rfl, rfl, rfl, rfl⟩ rfl
  | i => exact orderly.handleI frame
  | rr => exact orderly.handleRr frame
  | rnr => exact orderly.handleRnr frame
  | rej => exact orderly.handleRej frame
  | ui =>
      dsimp only
      split <;> exact orderly.stays rfl rfl (.inl rfl)
  | frmr | unknown => exact orderly.stays rfl rfl (.inl rfl)

theorem Orderly.t1Expire (orderly : Orderly conn) (armed : conn.t1Armed = true)
    (going : ¬ GivesUp conn .t1Expire) : Settles conn conn.t1Expire := by
  rw [AX25Connection.t1Expire]
  cases state : conn.stopT1.state with
  | awaitingConnect =>
      have more : ¬ maxRetries < conn.stopT1.retryCount + 1 := by
        intro last
        exact going ⟨armed, state, Nat.le_of_lt_succ last⟩
      simp only [if_neg more]
      exact orderly.stays state.symm rfl (.inl rfl)
  | awaitingRelease =>
      have other : conn.state ≠ .connected := by
        rw [show conn.state = .awaitingRelease from state]
        decide
      dsimp only
      split
      · exact TornDown.settles ⟨rfl, orderly.t3_stopped other, rfl, rfl⟩ rfl
      · exact orderly.stays state.symm rfl (.inl rfl)
  | connected =>
      dsimp only
      split
      · split
        · exact TornDown.settles ⟨rfl, rfl, rfl, rfl⟩ rfl
        · refine orderly.stays ?_ ?_ (.inl ?_)
          · simpa [startT1, stopT1] using state.symm
          · simp [startT1, stopT1]
          · simp [startT1, stopT1]
      · exact orderly.stays rfl rfl (.inl rfl)
  | disconnected => exact orderly.stays rfl rfl (.inl rfl)

theorem Orderly.t3Expire (orderly : Orderly conn) : Settles conn conn.t3Expire := by
  simp only [AX25Connection.t3Expire]
  split
  · rename_i connected
    exact orderly.stays rfl rfl (.inr connected)
  · have stopped : Orderly conn.stopT3 := ⟨fun armed => (nomatch armed), orderly.event⟩
    exact ⟨stopped, fun before after => absurd after before⟩

theorem Orderly.connect (orderly : Orderly conn) (fresh : ¬ Reopens conn .connect) :
    Settles conn (conn.connect.getD conn) := by
  rw [AX25Connection.connect]
  split
  · exact orderly.stays rfl rfl (.inl rfl)
  · rename_i down
    have unset : conn.disconnectedEvent = false := by
      simpa [Reopens, not_not.mp down] using fresh
    have stopped := orderly.t3_stopped (by simp [not_not.mp down])
    exact .opens (fun armed => absurd armed (by simp [send, startT1, stopped])) unset
      (by simp [send, startT1])

theorem Orderly.disconnect (orderly : Orderly conn) : Settles conn conn.disconnect := by
  rw [AX25Connection.disconnect]
  split
  · exact orderly.stays rfl rfl (.inl rfl)
  · rename_i open_
    have up : conn.state ≠ .disconnected := by
      intro down
      exact open_ ⟨by simp [down], by simp [down]⟩
    exact .opens (fun armed => nomatch armed) (orderly.unset up) (by simp [send, startT1])

theorem Orderly.write (orderly : Orderly conn) (data : Bytes) :
    Settles conn ((conn.write data).getD conn) := by
  rw [AX25Connection.write]
  split
  · exact orderly.stays rfl rfl (.inl rfl)
  · cases chunks conn.paclen data with
    | none => exact orderly.stays rfl rfl (.inl rfl)
    | some pieces => refine orderly.stays ?_ ?_ (.inl ?_) <;> simp

theorem Orderly.step (orderly : Orderly conn) {event : Event}
    (regular : ¬ (GivesUp conn event ∨ Reopens conn event))
    (stepped : conn.step event = some next) : Settles conn next := by
  cases event with
  | receive frame =>
      cases stepped
      exact orderly.handleFrame fun reopens => regular (.inr reopens)
  | write data =>
      cases stepped
      exact orderly.write data
  | t1Expire =>
      obtain ⟨armed, rfl⟩ := step_t1Expire stepped
      exact orderly.t1Expire armed fun last => regular (.inl last)
  | t3Expire =>
      obtain ⟨-, rfl⟩ := step_t3Expire stepped
      exact orderly.t3Expire
  | connect =>
      cases stepped
      exact orderly.connect fun reopens => regular (.inr reopens)
  | disconnect =>
      cases stepped
      exact orderly.disconnect

theorem GivesUp.leaves {event : Event} (last : GivesUp conn event) :
    ∃ next, conn.step event = some next ∧ conn.state ≠ .disconnected ∧
      next.state = .disconnected ∧ next.rxQueue = conn.rxQueue := by
  cases event with
  | t1Expire =>
      obtain ⟨armed, awaiting, retries⟩ := last
      refine ⟨conn.t1Expire, by rw [AX25Connection.step, if_pos armed], by simp [awaiting], ?_⟩
      have exceeded : maxRetries < conn.retryCount + 1 := Nat.lt_succ_of_le retries
      simp [AX25Connection.t1Expire, stopT1, awaiting, exceeded]
  | receive | write | t3Expire | connect | disconnect => exact absurd last id

theorem Reopens.leaves {event : Event} (again : Reopens conn event) :
    ∃ next, conn.step event = some next ∧ next.disconnectedEvent = true ∧
      next.state ≠ .disconnected := by
  cases event with
  | receive frame =>
      obtain ⟨set, kind⟩ := again
      refine ⟨conn.handleSabm, by simp [AX25Connection.step, AX25Connection.handleFrame, kind],
        ?_, by simp [AX25Connection.handleSabm, startT3, resetCounters]⟩
      simp only [AX25Connection.handleSabm]
      split <;> exact set
  | connect =>
      obtain ⟨set, down⟩ := again
      refine ⟨conn.connect.getD conn, rfl, ?_, ?_⟩
      · simpa [AX25Connection.connect, down, send, startT1] using set
      · simp [AX25Connection.connect, down, send, startT1]
  | write | t1Expire | t3Expire | disconnect => exact absurd again id

/-- Teardown is complete in exactly the runs in which no connection attempt runs
out of retries and no connection is used again after its end. -/
theorem teardown_complete_iff (localAddr remoteAddr : AX25Address) (paclen : Int)
    (events : List Event) :
    TeardownComplete (init localAddr remoteAddr paclen) events ↔
      EveryStep step (fun conn event => ¬ (GivesUp conn event ∨ Reopens conn event))
        (init localAddr remoteAddr paclen) events := by
  have initial : Orderly (init localAddr remoteAddr paclen) :=
    ⟨fun armed => (nomatch armed), fun set => (nomatch set)⟩
  rw [TeardownComplete, throughout_iff, and_iff_right initial.event, ← everyStep_and]
  refine everyStep_congr ?_
    (fun _ _ _ orderly regular stepped => (Orderly.step orderly regular stepped).orderly)
    initial events
  intro conn event orderly
  constructor
  · rintro ⟨closes, unset⟩ (last | again)
    · obtain ⟨next, stepped, before, after, reader⟩ := last.leaves
      have torn := closes next stepped before after
      rw [torn.reader] at reader
      simp at reader
    · obtain ⟨next, stepped, set, up⟩ := again.leaves
      exact up (unset next stepped set)
  · intro regular
    exact ⟨fun _ stepped => (orderly.step regular stepped).closes,
      fun _ stepped => (orderly.step regular stepped).orderly.event⟩

/-- A refused attempt, and a new one: the waiting caller is told at once that the
connection is down. -/
theorem second_attempt_fails_at_once :
    ¬ ∀ (localAddr remoteAddr : AX25Address) (paclen : Int) (events : List Event),
      TeardownComplete (init localAddr remoteAddr paclen) events := by
  intro claimed
  let node : AX25Address := { callsign := "W3BBS" }
  let station : AX25Address := { callsign := "AI3I" }
  have complete := claimed node station 236 [.connect, .receive (.dm node station), .connect]
  have refused : ∃ reached, run step (init node station)
      [.connect, .receive (.dm node station), .connect] = some reached ∧
        reached.disconnectedEvent = true ∧ reached.state = .awaitingConnect := by
    refine ⟨_, rfl, ?_, ?_⟩ <;> decide
  obtain ⟨reached, completed, set, awaiting⟩ := refused
  have down := complete.2 _ reached List.prefix_rfl completed set
  rw [awaiting] at down
  cases down

end AX25Connection

end PyBulletin.Ax25
