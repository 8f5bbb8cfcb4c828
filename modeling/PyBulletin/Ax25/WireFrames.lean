import PyBulletin.Ax25.FrameRoundTrip
import PyBulletin.Ax25.Transmit

set_option autoImplicit false

namespace PyBulletin.Ax25

open PyBulletin.Foundation

/-- The frames the factories build for a connection between two stations. -/
inductive Made (dest src : AX25Address) : AX25Frame → Prop where
  | sabm : Made dest src (.sabm dest src)
  | ua : Made dest src (.ua dest src)
  | disc : Made dest src (.disc dest src)
  | dm : Made dest src (.dm dest src)
  | rr (nr : Seq) (pf command : Bool) : Made dest src (.rr dest src nr pf command)
  | rnr (nr : Seq) (pf command : Bool) : Made dest src (.rnr dest src nr pf command)
  | rej (nr : Seq) (pf command : Bool) : Made dest src (.rej dest src nr pf command)
  | iframe (ns nr : Seq) (info : Bytes) : Made dest src (.iframe dest src ns nr info)

theorem Made.addresses {dest src : AX25Address} {frame : AX25Frame} (made : Made dest src frame) :
    ∃ toward away, frame.addresses =
      [{ dest with ch := toward }, { src with ch := away }] := by
  cases made with
  | sabm | ua | disc | dm | iframe => exact ⟨_, _, rfl⟩
  | rr nr pf command | rnr nr pf command | rej nr pf command => exact ⟨command, !command, rfl⟩

/-- Between stations whose calls fit an address field, every frame is read back. -/
theorem Made.regular {dest src : AX25Address} {frame : AX25Frame} (made : Made dest src frame)
    (destRegular : dest.Regular) (srcRegular : src.Regular) : frame.Regular where
  addresses := by
    obtain ⟨toward, away, both⟩ := made.addresses
    rw [both]
    simp only [List.forall_mem_cons, List.not_mem_nil, false_implies, implies_true, and_true]
    exact ⟨⟨destRegular.chars, destRegular.short, destRegular.ssid⟩,
      ⟨srcRegular.chars, srcRegular.short, srcRegular.ssid⟩⟩
  pid := by
    cases made with
    | iframe ns nr info => exact ⟨fun _ => .inl (AX25Frame.frameType_iframe ns nr), fun _ => rfl⟩
    | _ =>
        constructor
        · intro present
          cases present
        · intro kind
          simp at kind
  info := by
    cases made with
    | iframe ns nr info => simp
    | _ => exact fun _ _ _ => rfl

namespace AX25Connection

/-- All the connection has sent or keeps are frames of the factories, for its own stations. -/
structure Fluent (dest src : AX25Address) (conn : AX25Connection) : Prop where
  toward : conn.makeDest = dest
  away : conn.makeSrc = src
  sent : ∀ frame ∈ conn.sent, Made dest src frame
  kept : ∀ key frame, conn.unacked key = some frame →
    ∃ ns nr info, frame = .iframe dest src ns nr info

variable {conn next : AX25Connection} {dest src : AX25Address}

theorem Fluent.congr (fluent : Fluent dest src conn) (sent : next.sent = conn.sent)
    (unacked : next.unacked = conn.unacked) (localAddr : next.localAddr = conn.localAddr)
    (remoteAddr : next.remoteAddr = conn.remoteAddr) : Fluent dest src next where
  toward := by rw [← fluent.toward, makeDest, remoteAddr]; rfl
  away := by rw [← fluent.away, makeSrc, localAddr]; rfl
  sent := by
    rw [sent]
    exact fluent.sent
  kept := by
    rw [unacked]
    exact fluent.kept

theorem Fluent.send {frame : AX25Frame} (fluent : Fluent dest src conn)
    (made : Made conn.makeDest conn.makeSrc frame) : Fluent dest src (conn.send frame) where
  toward := fluent.toward
  away := fluent.away
  sent := by
    intro other listed
    rcases List.mem_append.mp listed with before | new
    · exact fluent.sent other before
    · rw [List.mem_singleton.mp new, ← fluent.toward, ← fluent.away]
      exact made
  kept := fluent.kept

theorem Fluent.forget (fluent : Fluent dest src conn) : Fluent dest src conn.resetCounters where
  toward := fluent.toward
  away := fluent.away
  sent := fluent.sent
  kept := by
    intro key frame found
    cases found

theorem Fluent.updateVa (fluent : Fluent dest src conn) (nr : Seq) :
    Fluent dest src (conn.updateVa nr) where
  toward := fluent.toward
  away := fluent.away
  sent := fluent.sent
  kept := by
    intro key frame found
    simp only [AX25Connection.updateVa, dropAcked_apply] at found
    split at found
    · cases found
    · exact fluent.kept key frame found

theorem Fluent.keep {key : Seq} {ns nr : Seq} {info : Bytes} (fluent : Fluent dest src conn) :
    Fluent dest src { conn with
      unacked := Function.update conn.unacked key
        (some (.iframe conn.makeDest conn.makeSrc ns nr info)) } where
  toward := fluent.toward
  away := fluent.away
  sent := fluent.sent
  kept := by
    intro other frame found
    simp only [Function.update_apply] at found
    split at found
    · cases found
      exact ⟨ns, nr, info, by rw [fluent.toward, fluent.away]⟩
    · exact fluent.kept other frame found

theorem Fluent.pumpQueue (fluent : Fluent dest src conn) (queue : List Bytes) :
    Fluent dest src (conn.pumpQueue queue) := by
  induction queue generalizing conn with
  | nil => exact fluent.congr rfl rfl rfl rfl
  | cons data queue ih =>
      rw [AX25Connection.pumpQueue]
      split
      · exact fluent.congr rfl rfl rfl rfl
      · apply ih
        have pushed := (@Fluent.keep conn dest src conn.vs conn.vs conn.vr data fluent).send
          (.iframe conn.vs conn.vr data)
        split <;> exact pushed.congr rfl rfl rfl rfl

theorem Fluent.pumpTx (fluent : Fluent dest src conn) : Fluent dest src conn.pumpTx := by
  rw [AX25Connection.pumpTx]
  split
  · exact fluent
  · exact fluent.pumpQueue conn.txQueue

theorem Fluent.retransmitFrom (fluent : Fluent dest src conn) (seq : Seq) :
    Fluent dest src (conn.retransmitFrom seq) := by
  induction conn, seq using retransmitFrom.induct with
  | case1 conn => rwa [AX25Connection.retransmitFrom, if_pos rfl]
  | case2 conn seq different absent ih =>
      rw [AX25Connection.retransmitFrom, if_neg different, absent]
      exact ih fluent
  | case3 conn seq different frame found renewed ih =>
      rw [AX25Connection.retransmitFrom, if_neg different, found]
      apply ih
      obtain ⟨ns, nr, info, same⟩ := fluent.kept seq frame found
      have again : renewed = .iframe conn.makeDest conn.makeSrc ns conn.vr info := by
        simp only [renewed, same, AX25Frame.withNr_iframe, fluent.toward, fluent.away]
      rw [again]
      exact (@Fluent.keep conn dest src seq ns conn.vr info fluent).send (.iframe ns conn.vr info)

theorem Fluent.acceptI (fluent : Fluent dest src conn) (frame : AX25Frame) :
    Fluent dest src (conn.acceptI frame) := by
  rw [AX25Connection.acceptI]
  split
  · dsimp only
    split <;> split
    all_goals
      first
        | exact Fluent.send (fluent.congr rfl rfl rfl rfl) (.rr _ false false)
        | exact Fluent.send (fluent.congr rfl rfl rfl rfl) (.rnr _ false false)
  · exact fluent.send (.rej _ false false)

theorem Fluent.handleFrame (fluent : Fluent dest src conn) (frame : AX25Frame) :
    Fluent dest src (conn.handleFrame frame) := by
  rw [AX25Connection.handleFrame]
  cases kind : frame.frameType with
  | sabm =>
      dsimp only
      rw [handleSabm]
      have answered := (fluent.forget.send .ua)
      split
      · exact (answered.forget).congr rfl rfl rfl rfl
      · exact ((fluent.send .ua).forget).congr rfl rfl rfl rfl
  | ua =>
      dsimp only
      rw [handleUa]
      split
      · exact Fluent.pumpTx (fluent.forget.congr rfl rfl rfl rfl)
      · exact fluent.congr rfl rfl rfl rfl
      · exact fluent
  | disc =>
      dsimp only
      rw [handleDisc]
      exact (fluent.send .ua).congr rfl rfl rfl rfl
  | dm => exact fluent.congr rfl rfl rfl rfl
  | i =>
      dsimp only
      rw [handleI]
      split
      · exact fluent.send .dm
      · have timed : Fluent dest src conn.stopT3.startT3 := fluent.congr rfl rfl rfl rfl
        have accepted := (timed.updateVa frame.nr).acceptI frame
        apply Fluent.pumpTx
        split
        · exact accepted.congr rfl rfl rfl rfl
        · exact accepted
  | rr =>
      dsimp only
      rw [handleRr]
      split
      · exact fluent
      · apply Fluent.pumpTx
        split <;> exact (fluent.updateVa frame.nr).congr rfl rfl rfl rfl
  | rnr =>
      dsimp only
      rw [handleRnr]
      split
      · exact fluent
      · exact (fluent.updateVa frame.nr).congr rfl rfl rfl rfl
  | rej =>
      dsimp only
      rw [handleRej]
      split
      · exact fluent
      · have stopped : Fluent dest src (conn.updateVa frame.nr).stopT1 :=
          (fluent.updateVa frame.nr).congr rfl rfl rfl rfl
        have resent := stopped.retransmitFrom frame.nr
        dsimp only
        split
        · exact resent.congr rfl rfl rfl rfl
        · exact resent
  | ui =>
      dsimp only
      split
      · exact fluent.congr rfl rfl rfl rfl
      · exact fluent
  | frmr | unknown => exact fluent

theorem Fluent.t1Expire (fluent : Fluent dest src conn) : Fluent dest src conn.t1Expire := by
  have stopped : Fluent dest src conn.stopT1 := fluent.congr rfl rfl rfl rfl
  rw [AX25Connection.t1Expire]
  generalize conn.stopT1 = conn at stopped
  dsimp only
  split
  case h_1 =>
      split
      · exact stopped.congr rfl rfl rfl rfl
      · exact (stopped.send .sabm).congr rfl rfl rfl rfl
  case h_2 =>
      split
      · exact stopped.congr rfl rfl rfl rfl
      · exact (stopped.send .disc).congr rfl rfl rfl rfl
  case h_3 =>
      split
      · split
        · exact stopped.congr rfl rfl rfl rfl
        · have counted : Fluent dest src { conn with retryCount := conn.retryCount + 1 } :=
            stopped.congr rfl rfl rfl rfl
          exact (counted.retransmitFrom conn.va).congr rfl rfl rfl rfl
      · exact (stopped.send (.rr conn.vr true true)).congr rfl rfl rfl rfl
  case h_4 => exact stopped

/-- No event makes a connection send or keep a frame of any other kind. -/
theorem Fluent.step (fluent : Fluent dest src conn) {event : Event}
    (stepped : conn.step event = some next) : Fluent dest src next := by
  cases event with
  | receive frame =>
      cases stepped
      exact fluent.handleFrame frame
  | write data =>
      cases stepped
      rw [write]
      split
      · exact fluent
      · cases chunks conn.paclen data with
        | none => exact fluent
        | some pieces =>
            have queued : Fluent dest src { conn with txQueue := conn.txQueue ++ pieces } :=
              fluent.congr rfl rfl rfl rfl
            exact queued.pumpTx
  | t1Expire =>
      obtain ⟨-, rfl⟩ := step_t1Expire stepped
      exact fluent.t1Expire
  | t3Expire =>
      obtain ⟨-, rfl⟩ := step_t3Expire stepped
      simp only [t3Expire]
      split
      · exact (fluent.send (.rr conn.vr true true)).congr rfl rfl rfl rfl
      · exact fluent.congr rfl rfl rfl rfl
  | connect =>
      cases stepped
      rw [connect]
      split
      · exact fluent
      · exact (fluent.send .sabm).congr rfl rfl rfl rfl
  | disconnect =>
      cases stepped
      rw [disconnect]
      split
      · exact fluent
      · exact (fluent.send .disc).congr rfl rfl rfl rfl

/-- A connection looks at the control byte and the information field of a frame only. -/
theorem handleFrame_congr (conn : AX25Connection) {first second : AX25Frame}
    (control : first.control = second.control) (info : first.info = second.info) :
    conn.handleFrame first = conn.handleFrame second := by
  obtain ⟨dest, src, repeaters, byte, pid, data⟩ := first
  obtain ⟨_, _, _, _, _, _⟩ := second
  cases control
  cases info
  rfl

end AX25Connection

end PyBulletin.Ax25
