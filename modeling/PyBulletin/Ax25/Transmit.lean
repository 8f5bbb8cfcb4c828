import PyBulletin.Ax25.Window

set_option autoImplicit false

namespace PyBulletin.Ax25

open PyBulletin.Foundation

namespace AX25Connection

variable {conn : AX25Connection}

@[simp] theorem pumpTx_rxQueue (conn : AX25Connection) :
    (conn.pumpTx).rxQueue = conn.rxQueue := by
  obtain ⟨_, _, _, _, _, same⟩ := pumpTx_frame conn
  rw [same]

@[simp] theorem pumpTx_t3Armed (conn : AX25Connection) :
    (conn.pumpTx).t3Armed = conn.t3Armed := by
  obtain ⟨_, _, _, _, _, same⟩ := pumpTx_frame conn
  rw [same]

@[simp] theorem pumpTx_disconnectedEvent (conn : AX25Connection) :
    (conn.pumpTx).disconnectedEvent = conn.disconnectedEvent := by
  obtain ⟨_, _, _, _, _, same⟩ := pumpTx_frame conn
  rw [same]

@[simp] theorem pumpTx_peerBusy (conn : AX25Connection) :
    (conn.pumpTx).peerBusy = conn.peerBusy := by
  obtain ⟨_, _, _, _, _, same⟩ := pumpTx_frame conn
  rw [same]

@[simp] theorem pumpTx_vr (conn : AX25Connection) :
    (conn.pumpTx).vr = conn.vr := by
  obtain ⟨_, _, _, _, _, same⟩ := pumpTx_frame conn
  rw [same]

@[simp] theorem retransmitFrom_rxQueue (conn : AX25Connection) (seq : Seq) :
    (conn.retransmitFrom seq).rxQueue = conn.rxQueue := by
  obtain ⟨_, _, same⟩ := retransmitFrom_frame conn seq
  rw [same]

@[simp] theorem retransmitFrom_t3Armed (conn : AX25Connection) (seq : Seq) :
    (conn.retransmitFrom seq).t3Armed = conn.t3Armed := by
  obtain ⟨_, _, same⟩ := retransmitFrom_frame conn seq
  rw [same]

@[simp] theorem retransmitFrom_disconnectedEvent (conn : AX25Connection) (seq : Seq) :
    (conn.retransmitFrom seq).disconnectedEvent = conn.disconnectedEvent := by
  obtain ⟨_, _, same⟩ := retransmitFrom_frame conn seq
  rw [same]

@[simp] theorem retransmitFrom_peerBusy (conn : AX25Connection) (seq : Seq) :
    (conn.retransmitFrom seq).peerBusy = conn.peerBusy := by
  obtain ⟨_, _, same⟩ := retransmitFrom_frame conn seq
  rw [same]

@[simp] theorem retransmitFrom_vr (conn : AX25Connection) (seq : Seq) :
    (conn.retransmitFrom seq).vr = conn.vr := by
  obtain ⟨_, _, same⟩ := retransmitFrom_frame conn seq
  rw [same]

@[simp] theorem retransmitFrom_vs (conn : AX25Connection) (seq : Seq) :
    (conn.retransmitFrom seq).vs = conn.vs := by
  obtain ⟨_, _, same⟩ := retransmitFrom_frame conn seq
  rw [same]

@[simp] theorem retransmitFrom_txQueue (conn : AX25Connection) (seq : Seq) :
    (conn.retransmitFrom seq).txQueue = conn.txQueue := by
  obtain ⟨_, _, same⟩ := retransmitFrom_frame conn seq
  rw [same]

@[simp] theorem retransmitFrom_t1Armed (conn : AX25Connection) (seq : Seq) :
    (conn.retransmitFrom seq).t1Armed = conn.t1Armed := by
  obtain ⟨_, _, same⟩ := retransmitFrom_frame conn seq
  rw [same]

@[simp] theorem acceptI_t1Armed (conn : AX25Connection) (frame : AX25Frame) :
    (conn.acceptI frame).t1Armed = conn.t1Armed := by
  obtain ⟨_, _, _, same⟩ := acceptI_frame conn frame
  rw [same]

@[simp] theorem acceptI_t3Armed (conn : AX25Connection) (frame : AX25Frame) :
    (conn.acceptI frame).t3Armed = conn.t3Armed := by
  obtain ⟨_, _, _, same⟩ := acceptI_frame conn frame
  rw [same]

@[simp] theorem acceptI_disconnectedEvent (conn : AX25Connection) (frame : AX25Frame) :
    (conn.acceptI frame).disconnectedEvent = conn.disconnectedEvent := by
  obtain ⟨_, _, _, same⟩ := acceptI_frame conn frame
  rw [same]

@[simp] theorem acceptI_peerBusy (conn : AX25Connection) (frame : AX25Frame) :
    (conn.acceptI frame).peerBusy = conn.peerBusy := by
  obtain ⟨_, _, _, same⟩ := acceptI_frame conn frame
  rw [same]

@[simp] theorem acceptI_vs (conn : AX25Connection) (frame : AX25Frame) :
    (conn.acceptI frame).vs = conn.vs := by
  obtain ⟨_, _, _, same⟩ := acceptI_frame conn frame
  rw [same]

@[simp] theorem acceptI_txQueue (conn : AX25Connection) (frame : AX25Frame) :
    (conn.acceptI frame).txQueue = conn.txQueue := by
  obtain ⟨_, _, _, same⟩ := acceptI_frame conn frame
  rw [same]

@[simp] theorem acceptI_unacked (conn : AX25Connection) (frame : AX25Frame) :
    (conn.acceptI frame).unacked = conn.unacked := by
  obtain ⟨_, _, _, same⟩ := acceptI_frame conn frame
  rw [same]

instance (conn : AX25Connection) : (event : Event) → Decidable (OutOfWindow conn event)
  | .receive _ => inferInstanceAs (Decidable (_ ∧ _ ∧ _))
  | .write _ | .t1Expire | .t3Expire | .connect | .disconnect =>
      inferInstanceAs (Decidable False)

/-- `step` for a peer that acknowledges nothing outside V(A)..V(S). -/
def stepWithin (conn : AX25Connection) (event : Event) : Option AX25Connection :=
  if OutOfWindow conn event then none else conn.step event

theorem stepWithin_eq_some {next : AX25Connection} {event : Event} :
    conn.stepWithin event = some next ↔
      ¬ OutOfWindow conn event ∧ conn.step event = some next := by
  rw [stepWithin]
  split
  · rename_i beyond
    simp [beyond]
  · rename_i within
    simp [within]

/-- The N(R) of a numbered frame that a connected peer may send. -/
theorem within_window {frame : AX25Frame} (within : ¬ OutOfWindow conn (.receive frame))
    (connected : conn.state = .connected)
    (numbered : frame.frameType = .i ∨ frame.frameType = .rr ∨ frame.frameType = .rnr ∨
      frame.frameType = .rej) :
    ahead conn.va frame.nr ≤ ahead conn.va conn.vs := by
  by_contra beyond
  exact within ⟨connected, numbered, by omega⟩

end AX25Connection

end PyBulletin.Ax25
