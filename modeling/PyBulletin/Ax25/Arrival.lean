import PyBulletin.Ax25.Conservation
import PyBulletin.Ax25.Link

set_option autoImplicit false

namespace PyBulletin.Ax25

open PyBulletin.Foundation

section Outstanding

variable {conn : AX25Connection} {near : GoBackN.Peer Bytes}

/-- From any number in the window on, the kept frames hold what the peer accepted. -/
theorem Tracks.payloads {n count : Nat} (tracks : Tracks conn near) (unacked : near.acked ≤ n)
    (outstanding : n + count ≤ near.sent) :
    payloads conn.unacked (seqNumber n) count = (near.accepted.drop n).take count := by
  induction count generalizing n with
  | zero => simp [Ax25.payloads]
  | succ count ih =>
      obtain ⟨nr, payload, found, stored⟩ := tracks.unacked n unacked (by omega)
      have first : Ax25.payloads conn.unacked (seqNumber n) 1 = [payload] := by
        simp [Ax25.payloads, List.range_succ, found]
      have next : seqNumber n + Fin.ofNat 8 1 = seqNumber (n + 1) := seqNumber_succ n
      have later := ih (n := n + 1) (by omega) (by omega)
      rw [Nat.add_comm count 1, payloads_add, first, next, later]
      rw [List.getElem?_eq_some_iff] at stored
      obtain ⟨inside, rfl⟩ := stored
      rw [List.drop_eq_getElem_cons inside, Nat.add_comm 1 count, List.take_succ_cons]
      rfl

theorem Tracks.inFlight (tracks : Tracks conn near) (order : near.acked ≤ near.sent)
    (window : near.sent ≤ near.acked + 7) :
    conn.inFlight = (near.accepted.drop near.acked).take (near.sent - near.acked) := by
  have distance : ahead conn.va conn.vs = near.sent - near.acked := by
    rw [tracks.va, tracks.vs]
    exact ahead_seqNumber order (by omega)
  rw [AX25Connection.inFlight, distance, tracks.va]
  exact tracks.payloads (Nat.le_refl _) (by omega)

end Outstanding

namespace Link

variable {link start final : Link} {abstract : GoBackN.Link Bytes}

/-- Every byte A has written is at B, in a frame A keeps to send again, or still queued,
in this order; B has taken `ahead va vr` of the frames A keeps. -/
def Accounted (link : Link) : Prop :=
  link.a.state = .connected → 0 < link.a.paclen →
    link.writtenA = received link.b ++
      (link.a.inFlight.drop (ahead link.a.va link.b.vr)).flatten ++ link.a.txQueue.flatten

theorem Refines.received_eq (refines : link.Refines abstract) :
    received link.b = (abstract.near.accepted.take abstract.far.received).flatten := by
  rw [received, refines.tracksB.delivered, List.flatten_filter_ne_nil, refines.good.1.delivered_eq]

theorem Refines.accounted (refines : link.Refines abstract) : link.Accounted := by
  intro connected positive
  have flow := refines.good.1
  have acked := flow.acked_le
  have known := flow.received_le
  have window : abstract.near.sent ≤ abstract.near.acked + 7 := flow.window_le
  have taken : ahead link.a.va link.b.vr = abstract.far.received - abstract.near.acked := by
    rw [refines.tracksA.va, refines.tracksB.vr]
    exact ahead_seqNumber acked (by omega)
  have kept : link.a.inFlight.drop (ahead link.a.va link.b.vr) =
      (abstract.near.accepted.drop abstract.far.received).take
        (abstract.near.sent - abstract.far.received) := by
    rw [refines.tracksA.inFlight (by omega) window, taken, List.drop_take, List.drop_drop]
    congr 1
    · omega
    · congr 1
      omega
  have queued : link.a.txQueue = (abstract.near.accepted.drop abstract.far.received).drop
      (abstract.near.sent - abstract.far.received) := by
    rw [refines.tracksA.queued, List.drop_drop]
    congr 1
    omega
  rw [refines.received_eq, kept, queued, ← refines.ledgerA.whole connected positive]
  rw [List.append_assoc, ← List.flatten_append, List.take_append_drop, ← List.flatten_append,
    List.take_append_drop]

theorem run_synced {events : List (Side × LinkEvent)} (initial : start.Initial)
    (completed : run Link.step start events = some final) : final.Synced :=
  run_preserves (fun _ _ _ synced stepped => synced.step stepped) initial.synced completed

/-- Whatever the link loses, no byte is lost: at every point of every run each side that is
still connected can tell where all its bytes are. -/
theorem written_accounted {events : List (Side × LinkEvent)} (initial : start.Initial)
    (completed : run Link.step start events = some final) :
    final.Accounted ∧ final.swap.Accounted := by
  have synced := run_synced initial completed
  obtain ⟨abstract, refines⟩ := synced
  obtain ⟨mirrored, swapped⟩ := Synced.swap ⟨abstract, refines⟩
  exact ⟨refines.accounted, swapped.accounted⟩

private def opened (localAddr remoteAddr : AX25Address) : AX25Connection :=
  { AX25Connection.init localAddr remoteAddr 2 with state := .connected, t3Armed := true }

private def joined : Link :=
  { a := opened { callsign := "N0A" } { callsign := "N0B" }
    b := opened { callsign := "N0B" } { callsign := "N0A" } }

/-- Two chunks, the second of them lost before the first is acknowledged. -/
private def halved : List (Side × LinkEvent) :=
  [(.a, .write [1, 2, 3]), (.b, .deliver), (.b, .lose)]

theorem written_accounted_halved :
    ∃ final, run Link.step joined halved = some final ∧
      final.a.state = .connected ∧ received final.b = [1, 2] ∧
      final.a.inFlight = [[1, 2], [3]] ∧ final.Accounted ∧ final.swap.Accounted := by
  have fresh (localAddr remoteAddr : AX25Address) : Fresh (opened localAddr remoteAddr) :=
    ⟨rfl, rfl, rfl, rfl, rfl, rfl, rfl⟩
  have initial : joined.Initial := ⟨fresh _ _, fresh _ _, rfl, rfl, rfl, rfl⟩
  obtain ⟨final, completed, connected, received, kept⟩ : ∃ final,
      run Link.step joined halved = some final ∧
        final.a.state = .connected ∧ Link.received final.b = [1, 2] ∧
        final.a.inFlight = [[1, 2], [3]] :=
    ⟨_, rfl, rfl, by decide, by decide⟩
  exact ⟨final, completed, connected, received, kept, written_accounted initial completed⟩

end Link

end PyBulletin.Ax25
