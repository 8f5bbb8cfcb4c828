import PyBulletin.Ax25.Transmit

set_option autoImplicit false

namespace PyBulletin.Ax25

open PyBulletin.Foundation

/-! # Retries

`_retry_count` counts T1 expiries with something outstanding.  It is cleared when a link is set
up and by nothing else.
-/

namespace AX25Connection

variable {conn next : AX25Connection} {frame : AX25Frame} {event : Event} {events : List Event}

/-- A received frame moves V(A). -/
def Advances (conn : AX25Connection) : Event → Prop
  | .receive frame =>
      conn.state = .connected ∧
        (frame.frameType = .i ∨ frame.frameType = .rr ∨ frame.frameType = .rnr ∨
          frame.frameType = .rej) ∧
        frame.nr ≠ conn.va
  | _ => False

instance (conn : AX25Connection) : (event : Event) → Decidable (conn.Advances event)
  | .receive _ => inferInstanceAs (Decidable (_ ∧ _))
  | .write _ | .t1Expire | .t3Expire | .connect | .disconnect => isFalse id

/-- `silent` counts the T1 expiries since a frame last moved V(A). -/
structure Watched where
  conn : AX25Connection
  silent : Nat := 0

def Watched.silentAfter (watched : Watched) (event : Event) : Nat :=
  if watched.conn.Advances event then 0
  else
    match event with
    | .t1Expire => watched.silent + 1
    | _ => watched.silent

def Watched.step (watched : Watched) (event : Event) : Option Watched :=
  (watched.conn.step event).map fun next => ⟨next, watched.silentAfter event⟩

/-- If the link fails now, V(A) has not moved between the last `maxRetries + 1` T1 expiries. -/
def Watched.Patient (watched : Watched) : Prop :=
  ∀ next, watched.conn.state = .connected → watched.step .t1Expire = some next →
    next.conn.state = .disconnected → maxRetries + 1 ≤ next.silent

/-- No expiry is counted that came before V(A) last moved. -/
def Watched.Counted (watched : Watched) : Prop := watched.conn.retryCount ≤ watched.silent

/-- V(A) moves only while no expiry has been counted. -/
def Watched.Prompt (watched : Watched) (event : Event) : Prop :=
  watched.conn.Advances event → watched.conn.retryCount = 0

instance (watched : Watched) (event : Event) : Decidable (watched.Prompt event) :=
  inferInstanceAs (Decidable (_ → _))

@[simp] theorem pumpTx_retryCount (conn : AX25Connection) :
    conn.pumpTx.retryCount = conn.retryCount := by
  obtain ⟨_, _, _, _, _, same⟩ := pumpTx_frame conn
  rw [same]

@[simp] theorem retransmitFrom_retryCount (conn : AX25Connection) (seq : Seq) :
    (conn.retransmitFrom seq).retryCount = conn.retryCount := by
  obtain ⟨_, _, same⟩ := retransmitFrom_frame conn seq
  rw [same]

@[simp] theorem acceptI_retryCount (conn : AX25Connection) (frame : AX25Frame) :
    (conn.acceptI frame).retryCount = conn.retryCount := by
  obtain ⟨_, _, _, same⟩ := acceptI_frame conn frame
  rw [same]

/-- A frame leaves the count alone or clears it. -/
theorem handleFrame_retryCount (conn : AX25Connection) (frame : AX25Frame) :
    (conn.handleFrame frame).retryCount = conn.retryCount ∨
      (conn.handleFrame frame).retryCount = 0 := by
  unfold handleFrame
  cases frame.frameType with
  | sabm => exact .inr rfl
  | ua =>
      simp only [handleUa]
      split
      · exact .inr (pumpTx_retryCount _)
      · exact .inl rfl
      · exact .inl rfl
  | disc | dm | frmr | unknown => exact .inl rfl
  | i =>
      simp only [handleI]
      split
      · exact .inl rfl
      · left
        rw [pumpTx_retryCount]
        split <;> exact acceptI_retryCount _ frame
  | rr =>
      simp only [handleRr]
      split
      · exact .inl rfl
      · left
        rw [pumpTx_retryCount]
        split <;> rfl
  | rnr =>
      simp only [handleRnr]
      split <;> exact .inl rfl
  | rej =>
      simp only [handleRej]
      split
      · exact .inl rfl
      · left
        split <;> exact retransmitFrom_retryCount _ frame.nr
  | ui =>
      dsimp only
      split <;> exact .inl rfl

theorem t1Expire_retryCount (conn : AX25Connection) :
    conn.t1Expire.retryCount ≤ conn.retryCount + 1 := by
  unfold t1Expire
  dsimp only
  split
  · split <;> exact Nat.le_refl _
  · split <;> exact Nat.le_refl _
  · split
    · split
      · exact Nat.le_refl _
      · exact Nat.le_of_eq (retransmitFrom_retryCount _ _)
    · exact Nat.le_succ _
  · exact Nat.le_succ _

/-- With something outstanding a T1 expiry is counted, and the link is given up or everything
is sent again. -/
theorem t1Expire_outstanding (connected : conn.state = .connected)
    (outstanding : conn.vs ≠ conn.va) :
    conn.t1Expire =
      if maxRetries < conn.retryCount + 1 then
        { conn.stopT1 with retryCount := conn.retryCount + 1 }.linkFailure
      else
        ({ conn.stopT1 with retryCount := conn.retryCount + 1 }.retransmitFrom conn.va).startT1 := by
  have up : conn.stopT1.state = .connected := connected
  simp only [t1Expire, up]
  exact if_pos outstanding

/-- With nothing outstanding a T1 expiry polls the peer. -/
theorem t1Expire_idle (connected : conn.state = .connected) (idle : conn.vs = conn.va) :
    conn.t1Expire =
      (conn.stopT1.send (.rr conn.makeDest conn.makeSrc conn.vr true true)).startT1 := by
  have up : conn.stopT1.state = .connected := connected
  simp only [t1Expire, up]
  exact if_neg (not_not.mpr idle)

/-- A link fails on a T1 expiry beyond the limit. -/
theorem t1Expire_fails (connected : conn.state = .connected)
    (failed : conn.t1Expire.state = .disconnected) : maxRetries ≤ conn.retryCount := by
  by_contra few
  have room : ¬ maxRetries < conn.retryCount + 1 := by omega
  have alive : conn.t1Expire.state = .connected := by
    by_cases idle : conn.vs = conn.va
    · rw [t1Expire_idle connected idle]
      exact connected
    · rw [t1Expire_outstanding connected idle, if_neg room]
      exact (retransmitFrom_state _ _).trans connected
  rw [alive] at failed
  contradiction

/-- One step adds an expiry to the count at most where it adds one to `silent`. -/
theorem step_retryCount (stepped : conn.step event = some next) :
    next.retryCount ≤ conn.retryCount ∨
      event = .t1Expire ∧ next.retryCount ≤ conn.retryCount + 1 := by
  cases event with
  | receive frame =>
      cases stepped
      rcases handleFrame_retryCount conn frame with same | cleared
      · exact .inl (Nat.le_of_eq same)
      · left
        rw [cleared]
        exact Nat.zero_le _
  | write data =>
      cases stepped
      left
      unfold write
      split
      · exact Nat.le_refl _
      · cases chunks conn.paclen data with
        | none => exact Nat.le_refl _
        | some pieces => exact Nat.le_of_eq (pumpTx_retryCount _)
  | t1Expire =>
      obtain ⟨-, rfl⟩ := step_t1Expire stepped
      exact .inr ⟨rfl, t1Expire_retryCount conn⟩
  | t3Expire =>
      obtain ⟨-, rfl⟩ := step_t3Expire stepped
      left
      unfold t3Expire
      dsimp only
      split <;> exact Nat.le_refl _
  | connect =>
      cases stepped
      left
      unfold connect
      split
      · exact Nat.le_refl _
      · exact Nat.zero_le _
  | disconnect =>
      cases stepped
      left
      unfold disconnect
      split <;> exact Nat.le_refl _

section Watching

variable {watched later : Watched}

@[simp] theorem Watched.silentAfter_t1Expire (watched : Watched) :
    watched.silentAfter .t1Expire = watched.silent + 1 := if_neg id

theorem Watched.Counted.step (counted : watched.Counted) (prompt : watched.Prompt event)
    (stepped : watched.step event = some later) : later.Counted := by
  obtain ⟨next, moved, rfl⟩ := Option.map_eq_some_iff.mp stepped
  unfold Counted at counted ⊢
  dsimp only
  rcases step_retryCount moved with fewer | ⟨rfl, more⟩
  · unfold silentAfter
    split
    · rename_i advances
      exact Nat.le_trans fewer (Nat.le_of_eq (prompt advances))
    · have kept := Nat.le_trans fewer counted
      cases event with
      | t1Expire => exact Nat.le_succ_of_le kept
      | _ => exact kept
  · rw [silentAfter_t1Expire]
    exact Nat.le_trans more (Nat.succ_le_succ counted)

theorem Watched.Counted.patient (counted : watched.Counted) : watched.Patient := by
  intro later connected stepped failed
  obtain ⟨next, moved, rfl⟩ := Option.map_eq_some_iff.mp stepped
  obtain ⟨-, rfl⟩ := step_t1Expire moved
  have many := t1Expire_fails connected failed
  rw [silentAfter_t1Expire]
  exact Nat.succ_le_succ (Nat.le_trans many counted)

/-- A link is given up only after a long silence, as long as V(A) never moves after a counted
expiry. -/
theorem patient_of_prompt (localAddr remoteAddr : AX25Address) (paclen : Int)
    (events : List Event)
    (prompt : EveryStep Watched.step Watched.Prompt ⟨.init localAddr remoteAddr paclen, 0⟩ events) :
    Throughout Watched.step Watched.Patient ⟨.init localAddr remoteAddr paclen, 0⟩ events := by
  intro front reached ofRun completed
  have preserved : ∀ watched event later, Watched.Counted watched → watched.Prompt event →
      watched.step event = some later → later.Counted :=
    fun _ _ _ counted prompt stepped => counted.step prompt stepped
  have initial : Watched.Counted ⟨.init localAddr remoteAddr paclen, 0⟩ := Nat.le_refl 0
  exact (run_preserves_of_everyStep preserved initial (prompt.of_prefix ofRun) completed).patient

theorem Advances.connected (advances : conn.Advances event) : conn.state = .connected := by
  cases event with
  | receive frame => exact advances.1
  | _ => exact advances.elim

theorem Advances.step (advances : conn.Advances event) :
    ∃ next, conn.step event = some next ∧ next.state = .connected ∧
      next.retryCount = conn.retryCount := by
  cases event with
  | receive frame =>
      obtain ⟨connected, kind, -⟩ := advances
      refine ⟨conn.handleFrame frame, rfl, ?_⟩
      have still := not_not.mpr connected
      rcases kind with kind | kind | kind | kind
      · simp only [handleFrame, kind, handleI, if_neg still, pumpTx_state, pumpTx_retryCount]
        constructor
        · split <;> exact (acceptI_state _ frame).trans connected
        · split <;> exact acceptI_retryCount _ frame
      · simp only [handleFrame, kind, handleRr, if_neg still, pumpTx_state, pumpTx_retryCount]
        split <;> exact ⟨connected, rfl⟩
      · simp only [handleFrame, kind, handleRnr, if_neg still]
        exact ⟨connected, rfl⟩
      · simp only [handleFrame, kind, handleRej, if_neg still]
        have state := retransmitFrom_state (conn.updateVa frame.nr).stopT1 frame.nr
        have count := retransmitFrom_retryCount (conn.updateVa frame.nr).stopT1 frame.nr
        split <;> exact ⟨state.trans connected, count⟩
  | _ => exact advances.elim

/-- A connection that waits for an acknowledgement with T1 running. -/
structure Waiting (conn : AX25Connection) (count : Nat) : Prop where
  connected : conn.state = .connected
  outstanding : conn.vs ≠ conn.va
  armed : conn.t1Armed = true
  count : conn.retryCount = count

theorem Waiting.step {count : Nat} (waiting : Waiting conn count) (room : count < maxRetries) :
    Waiting conn.t1Expire (count + 1) := by
  have fits : ¬ maxRetries < conn.retryCount + 1 := by
    rw [waiting.count]
    omega
  rw [t1Expire_outstanding waiting.connected waiting.outstanding, if_neg fits]
  constructor
  · exact (retransmitFrom_state _ _).trans waiting.connected
  · have vs := retransmitFrom_vs { conn.stopT1 with retryCount := conn.retryCount + 1 } conn.va
    have va := retransmitFrom_va { conn.stopT1 with retryCount := conn.retryCount + 1 } conn.va
    simp only [startT1, vs, va]
    exact waiting.outstanding
  · rfl
  · rw [← waiting.count]
    exact retransmitFrom_retryCount _ _

/-- It takes only the expiries that are left of the limit to give a waiting connection up. -/
theorem Waiting.impatient {count : Nat} (waiting : Waiting watched.conn count)
    (early : watched.silent + (maxRetries - count) < maxRetries) :
    ∃ events later, run Watched.step watched events = some later ∧ ¬ later.Patient := by
  induction h : maxRetries - count generalizing watched count with
  | zero =>
      refine ⟨[], watched, rfl, fun patient => ?_⟩
      have spent : maxRetries < watched.conn.retryCount + 1 := by
        rw [waiting.count]
        omega
      have gone : watched.conn.t1Expire.state = .disconnected := by
        rw [t1Expire_outstanding waiting.connected waiting.outstanding, if_pos spent]
        rfl
      have stepped : watched.step .t1Expire =
          some ⟨watched.conn.t1Expire, watched.silentAfter .t1Expire⟩ := by
        simp only [Watched.step, AX25Connection.step, waiting.armed, if_true, Option.map_some]
      have long : maxRetries + 1 ≤ watched.silentAfter .t1Expire :=
        patient _ waiting.connected stepped gone
      rw [Watched.silentAfter_t1Expire] at long
      omega
  | succ n ih =>
      have later : Waiting watched.conn.t1Expire (count + 1) := waiting.step (by omega)
      obtain ⟨events, last, completed, impatient⟩ :=
        @ih ⟨watched.conn.t1Expire, watched.silent + 1⟩ (count + 1) later
          (show watched.silent + 1 + (maxRetries - (count + 1)) < maxRetries by omega) (by omega)
      refine ⟨.t1Expire :: events, last, ?_, impatient⟩
      simp only [run, Watched.step, AX25Connection.step, waiting.armed, if_true, Option.map_some,
        Watched.silentAfter_t1Expire]
      exact completed

/-- Wherever V(A) moves after a counted expiry, the link can go on to be given up too early. -/
theorem late_advance_impatient (advances : watched.conn.Advances event)
    (late : 0 < watched.conn.retryCount) :
    ∃ events later, run Watched.step watched (event :: events) = some later ∧ ¬ later.Patient := by
  obtain ⟨next, moved, connected, count⟩ := advances.step
  -- An RNR that acknowledges nothing in particular starts T1 with something outstanding.
  let frame : AX25Frame := .rnr next.makeDest next.makeSrc (next.vs + 1)
  have kind : frame.frameType = .rnr := AX25Frame.frameType_rnr _
  have handled : next.handleFrame frame =
      ({ next with peerBusy := true }.updateVa frame.nr).stopT1.startT1 := by
    simp only [handleFrame, kind, handleRnr, if_neg (not_not.mpr connected)]
  have waiting : Waiting (next.handleFrame frame) watched.conn.retryCount := by
    rw [handled]
    refine ⟨connected, ?_, rfl, count⟩
    show next.vs ≠ frame.nr
    rw [AX25Frame.nr_rnr]
    generalize next.vs = vs
    revert vs
    decide
  have reset : watched.silentAfter event = 0 := if_pos advances
  have silent : Watched.silentAfter ⟨next, 0⟩ (.receive frame) = 0 := by
    unfold Watched.silentAfter
    split <;> rfl
  obtain ⟨events, later, completed, impatient⟩ :=
    @Waiting.impatient ⟨next.handleFrame frame, 0⟩ _ waiting
      (show 0 + (maxRetries - watched.conn.retryCount) < maxRetries by
        simp only [maxRetries]
        omega)
  refine ⟨.receive frame :: events, later, ?_, impatient⟩
  simp only [run, Watched.step, moved, reset, Option.map_some]
  simp only [AX25Connection.step, Option.map_some, silent]
  exact completed

end Watching

/-- Each T1 expiry counts towards the limit. -/
def Retrying (conn : AX25Connection) : Prop :=
  conn.state = .awaitingConnect ∨ conn.state = .awaitingRelease ∨
    conn.state = .connected ∧ conn.vs ≠ conn.va

def expiries (events : List Event) : Nat :=
  events.countP fun
    | .t1Expire => true
    | _ => false

/-- Left to its timers, the connection is given up by its `maxRetries + 1`st T1 expiry, and until
then T1 stays armed. -/
def Detects (conn : AX25Connection) : Prop :=
  ∀ events next, (∀ event ∈ events, event = .t1Expire ∨ event = .t3Expire) →
    run step conn events = some next →
      next.state = .disconnected ∨ next.t1Armed = true ∧ expiries events ≤ maxRetries

theorem Retrying.t1Expire (retrying : Retrying conn) :
    conn.t1Expire.state = .disconnected ∨
      Retrying conn.t1Expire ∧ conn.t1Expire.t1Armed = true ∧
        conn.t1Expire.retryCount = conn.retryCount + 1 ∧ conn.retryCount + 1 ≤ maxRetries := by
  by_cases spent : maxRetries < conn.retryCount + 1
  · left
    rcases retrying with state | state | ⟨state, outstanding⟩
    · simp only [AX25Connection.t1Expire, stopT1, state, if_pos spent]
    · simp only [AX25Connection.t1Expire, stopT1, state, if_pos spent]
      rfl
    · rw [t1Expire_outstanding state outstanding, if_pos spent]
      rfl
  · right
    rw [and_iff_left (Nat.le_of_not_lt spent)]
    rcases retrying with state | state | ⟨state, outstanding⟩
    · simp only [AX25Connection.t1Expire, stopT1, state, if_neg spent]
      exact ⟨.inl rfl, rfl, rfl⟩
    · simp only [AX25Connection.t1Expire, stopT1, state, if_neg spent]
      exact ⟨.inr (.inl rfl), rfl, rfl⟩
    · rw [t1Expire_outstanding state outstanding, if_neg spent]
      refine ⟨.inr (.inr ⟨?_, ?_⟩), rfl, ?_⟩
      · exact (retransmitFrom_state _ _).trans state
      · have vs := retransmitFrom_vs { conn.stopT1 with retryCount := conn.retryCount + 1 } conn.va
        have va := retransmitFrom_va { conn.stopT1 with retryCount := conn.retryCount + 1 } conn.va
        simp only [startT1, vs, va]
        exact outstanding
      · exact retransmitFrom_retryCount _ _

theorem Retrying.t3Expire (retrying : Retrying conn) (armed : conn.t1Armed = true) :
    Retrying conn.t3Expire ∧ conn.t3Expire.t1Armed = true ∧
      conn.t3Expire.retryCount = conn.retryCount := by
  unfold AX25Connection.t3Expire
  dsimp only
  split
  · exact ⟨retrying, rfl, rfl⟩
  · exact ⟨retrying, armed, rfl⟩

theorem timers_gone (gone : conn.state = .disconnected)
    (timers : ∀ event ∈ events, event = .t1Expire ∨ event = .t3Expire)
    (completed : run step conn events = some next) : next.state = .disconnected := by
  induction events generalizing conn with
  | nil =>
      cases completed
      exact gone
  | cons event events ih =>
      obtain ⟨timer, others⟩ := List.forall_mem_cons.mp timers
      obtain ⟨middle, stepped, rest⟩ := run_cons completed
      refine ih ?_ others rest
      rcases timer with rfl | rfl
      · obtain ⟨-, rfl⟩ := step_t1Expire stepped
        simp only [t1Expire, stopT1, gone]
      · rw [(step_t3Expire stepped).2, t3Expire, if_neg (by simp [stopT3, gone])]
        exact gone

/-- As long as a retrying connection is not given up, its expiries fit into the limit. -/
theorem Retrying.timers (retrying : Retrying conn) (armed : conn.t1Armed = true)
    (timers : ∀ event ∈ events, event = .t1Expire ∨ event = .t3Expire)
    (completed : run step conn events = some next) :
    next.state = .disconnected ∨
      next.t1Armed = true ∧
        (expiries events = 0 ∨ conn.retryCount + expiries events ≤ maxRetries) := by
  induction events generalizing conn with
  | nil =>
      cases completed
      exact .inr ⟨armed, .inl rfl⟩
  | cons event events ih =>
      obtain ⟨timer, others⟩ := List.forall_mem_cons.mp timers
      obtain ⟨middle, stepped, rest⟩ := run_cons completed
      rcases timer with rfl | rfl
      · obtain ⟨-, rfl⟩ := step_t1Expire stepped
        have counted : expiries (.t1Expire :: events) = expiries events + 1 := by simp [expiries]
        rcases retrying.t1Expire with gone | ⟨again, rearmed, count, room⟩
        · exact .inl (timers_gone gone others rest)
        · refine (ih again rearmed others rest).imp_right fun ⟨armed, fits⟩ => ⟨armed, .inr ?_⟩
          omega
      · rw [(step_t3Expire stepped).2] at rest
        obtain ⟨again, rearmed, count⟩ := retrying.t3Expire armed
        have counted : expiries (.t3Expire :: events) = expiries events := by simp [expiries]
        rw [counted, ← count]
        exact ih again rearmed others rest

/-- An idle connection polls for as long as its timers run. -/
theorem idle_polls (connected : conn.state = .connected) (idle : conn.vs = conn.va)
    (armed : conn.t1Armed = true) (n : Nat) :
    ∃ next, run step conn (List.replicate n .t1Expire) = some next ∧ next.state = .connected := by
  induction n generalizing conn with
  | zero => exact ⟨conn, rfl, connected⟩
  | succ n ih =>
      have polled := t1Expire_idle connected idle
      have up : conn.t1Expire.state = .connected := by
        rw [polled]
        exact connected
      have even : conn.t1Expire.vs = conn.t1Expire.va := by
        rw [polled]
        exact idle
      have rearmed : conn.t1Expire.t1Armed = true := by
        rw [polled]
        rfl
      obtain ⟨next, completed, still⟩ := ih up even rearmed
      refine ⟨next, ?_, still⟩
      rw [List.replicate_succ, run, step, if_pos armed]
      exact completed

theorem idle_undetected (connected : conn.state = .connected) (idle : conn.vs = conn.va)
    (armed : conn.t1Armed = true) : ¬ Detects conn := by
  intro detects
  obtain ⟨next, completed, still⟩ := idle_polls connected idle armed (maxRetries + 1)
  have timers : ∀ event ∈ List.replicate (maxRetries + 1) Event.t1Expire,
      event = .t1Expire ∨ event = .t3Expire :=
    fun event listed => .inl (List.eq_of_mem_replicate listed)
  rcases detects _ next timers completed with gone | ⟨-, few⟩
  · rw [still] at gone
    contradiction
  · exact absurd few (by decide)

/-- A dead peer is detected unless the connection is only polling it. -/
theorem detects_iff (live : conn.state ≠ .disconnected) (armed : conn.t1Armed = true) :
    Detects conn ↔ ¬ (conn.state = .connected ∧ conn.vs = conn.va) := by
  constructor
  · rintro detects ⟨connected, idle⟩
    exact idle_undetected connected idle armed detects
  · intro busy events next timers completed
    have retrying : Retrying conn := by
      cases state : conn.state with
      | disconnected => exact absurd state live
      | awaitingConnect => exact .inl state
      | awaitingRelease => exact .inr (.inl state)
      | connected => exact .inr (.inr ⟨state, fun idle => busy ⟨state, idle⟩⟩)
    refine (retrying.timers armed timers completed).imp_right fun ⟨armed, fits⟩ => ⟨armed, ?_⟩
    omega

private def caller : AX25Address := { callsign := "AI3I" }
private def called : AX25Address := { callsign := "W3BBS" }

/-- A call that nobody answers. -/
private def calling : AX25Connection :=
  { init caller called with state := .awaitingConnect, t1Armed := true }

theorem unanswered_detected : Detects calling :=
  (detects_iff (by decide) rfl).mpr (by decide)

/-- A link whose peer has gone away, when T3 has expired. -/
theorem lost_carrier_undetected :
    ∃ conn, run step (init caller called)
        [.connect, .receive (.ua caller called), .t3Expire] = some conn ∧
      conn.state = .connected ∧ conn.t1Armed = true ∧ ¬ Detects conn :=
  ⟨_, rfl, rfl, rfl, idle_undetected rfl rfl rfl⟩

/-- A frame is lost, sent again after a T1 expiry and acknowledged. -/
private def recovery (nr : Seq) : List Event :=
  [.write [0x41], .t1Expire, .receive (.rr caller called nr)]

private def opened : List Event := [.connect, .receive (.ua caller called)]

private def recoveries : List Event :=
  opened ++ [1, 2, 3, 4, 5, 6, 7, 0, 1, 2].flatMap recovery ++ [.write [0x41]]

private def silence : List Event :=
  opened ++ [.write [0x41], .receive (.rr caller called 1), .write [0x42]] ++
    List.replicate 10 .t1Expire

theorem silence_patient :
    Throughout Watched.step Watched.Patient ⟨.init caller called 236, 0⟩ silence :=
  patient_of_prompt _ _ _ _ (by decide +kernel)

theorem recoveries_lost :
    ((run Watched.step ⟨.init caller called, 0⟩ recoveries).bind fun watched =>
        (watched.step .t1Expire).map fun next =>
          (watched.conn.state, next.conn.state, next.silent)) =
      some (.connected, .disconnected, 1) := by
  decide +kernel

/-- The eleventh lost frame takes the link down, though the ten before it were recovered. -/
theorem recoveries_impatient :
    ¬ Throughout Watched.step Watched.Patient ⟨.init caller called, 0⟩ recoveries := by
  intro patient
  obtain ⟨watched, completed, ended⟩ := Option.bind_eq_some_iff.mp recoveries_lost
  obtain ⟨next, stepped, outcome⟩ := Option.map_eq_some_iff.mp ended
  simp only [Prod.mk.injEq] at outcome
  obtain ⟨up, down, silent⟩ := outcome
  have long := patient recoveries watched List.prefix_rfl completed next up stepped down
  rw [silent] at long
  contradiction

end AX25Connection

end PyBulletin.Ax25
