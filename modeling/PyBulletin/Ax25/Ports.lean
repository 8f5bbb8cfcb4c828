import PyBulletin.Ax25.Replies
import PyBulletin.Ax25.Addressing

set_option autoImplicit false

namespace PyBulletin.Ax25

open PyBulletin.Foundation

namespace AX25Connection

/-- What has been sent, and what may be sent again, goes from this end of the link to the
other. -/
structure Own (conn : AX25Connection) : Prop where
  sent : ∀ frame ∈ conn.sent, conn.Ours frame
  unacked : ∀ seq frame, conn.unacked seq = some frame → conn.Ours frame

/-- A step from `conn` to `next` sends nothing else. -/
structure Keeps (conn next : AX25Connection) : Prop where
  own : conn.Own → next.Own
  localAddr : next.localAddr = conn.localAddr
  remoteAddr : next.remoteAddr = conn.remoteAddr

section Keeps

variable {conn middle next : AX25Connection} {frame : AX25Frame}

theorem Ours.congr (ours : conn.Ours frame) (localAddr : next.localAddr = conn.localAddr)
    (remoteAddr : next.remoteAddr = conn.remoteAddr) : next.Ours frame := by
  rw [Ours, localAddr, remoteAddr]
  exact ours

theorem Keeps.trans (first : Keeps conn middle) (second : Keeps middle next) : Keeps conn next :=
  ⟨fun own => second.own (first.own own), second.localAddr.trans first.localAddr,
    second.remoteAddr.trans first.remoteAddr⟩

theorem Keeps.silent (sent : next.sent = conn.sent)
    (fewer : ∀ seq frame, next.unacked seq = some frame → conn.unacked seq = some frame)
    (localAddr : next.localAddr = conn.localAddr) (remoteAddr : next.remoteAddr = conn.remoteAddr) :
    Keeps conn next := by
  refine ⟨fun own => ⟨fun frame listed => ?_, fun seq frame kept => ?_⟩, localAddr, remoteAddr⟩
  · rw [sent] at listed
    exact (own.sent frame listed).congr localAddr remoteAddr
  · exact (own.unacked seq frame (fewer seq frame kept)).congr localAddr remoteAddr

theorem Keeps.one (sent : next.sent = conn.sent ++ [frame])
    (fewer : ∀ seq frame, next.unacked seq = some frame → conn.unacked seq = some frame)
    (localAddr : next.localAddr = conn.localAddr) (remoteAddr : next.remoteAddr = conn.remoteAddr)
    (ours : conn.Ours frame) : Keeps conn next := by
  refine ⟨fun own => ⟨fun other listed => ?_, fun seq other kept => ?_⟩, localAddr, remoteAddr⟩
  · rw [sent] at listed
    rcases List.mem_append.mp listed with before | new
    · exact (own.sent other before).congr localAddr remoteAddr
    · rw [List.mem_singleton.mp new]
      exact ours.congr localAddr remoteAddr
  · exact (own.unacked seq other (fewer seq other kept)).congr localAddr remoteAddr

theorem keeps_store (seq : Seq) (ours : conn.Ours frame) :
    Keeps conn { conn with unacked := Function.update conn.unacked seq (some frame) } := by
  refine ⟨fun own => ⟨own.sent, fun key other kept => ?_⟩, rfl, rfl⟩
  by_cases same : key = seq
  · subst same
    simp only [Function.update_self, Option.some.injEq] at kept
    exact kept ▸ ours
  · simp only [Function.update_of_ne same] at kept
    exact own.unacked key other kept

theorem keeps_updateVa (nr : Seq) : Keeps conn (conn.updateVa nr) := by
  refine .silent rfl (fun seq frame kept => ?_) rfl rfl
  simp only [updateVa, dropAcked_apply] at kept
  split at kept
  · cases kept
  · exact kept

theorem keeps_pumpQueue (queue : List Bytes) : Keeps conn (conn.pumpQueue queue) := by
  induction queue generalizing conn with
  | nil => exact .silent rfl (fun _ _ => id) rfl rfl
  | cons data queue ih =>
      rw [pumpQueue]
      split
      · exact .silent rfl (fun _ _ => id) rfl rfl
      · have ours : conn.Ours (.iframe conn.makeDest conn.makeSrc conn.vs conn.vr data) :=
          ⟨rfl, rfl, rfl, rfl⟩
        dsimp only
        split
        all_goals
          refine .trans ((keeps_store conn.vs ours).trans ?_) ih
          exact .one rfl (fun _ _ => id) rfl rfl ours

theorem keeps_pumpTx : Keeps conn conn.pumpTx := by
  rw [pumpTx]
  split
  · exact .silent rfl (fun _ _ => id) rfl rfl
  · exact keeps_pumpQueue conn.txQueue

theorem keeps_retransmitFrom (seq : Seq) : Keeps conn (conn.retransmitFrom seq) := by
  induction conn, seq using retransmitFrom.induct with
  | case1 conn =>
      rw [retransmitFrom, if_pos rfl]
      exact .silent rfl (fun _ _ => id) rfl rfl
  | case2 conn seq different absent ih => rwa [retransmitFrom, if_neg different, absent]
  | case3 conn seq different frame found renewed ih =>
      rw [retransmitFrom, if_neg different, found]
      refine ⟨fun own => ?_, ih.localAddr, ih.remoteAddr⟩
      have ours : conn.Ours renewed := own.unacked seq frame found
      have sent : Keeps conn ({ conn with
          unacked := Function.update conn.unacked seq (some renewed) }.send renewed) :=
        (keeps_store seq ours).trans (.one rfl (fun _ _ => id) rfl rfl ours)
      exact ih.own (sent.own own)

theorem keeps_acceptI : Keeps conn (conn.acceptI frame) := by
  obtain ⟨ack, -, sends⟩ := acceptI_sends conn frame
  obtain ⟨vr, rxQueue, sent, same⟩ := acceptI_frame conn frame
  refine .one sends.sent (fun seq kept present => ?_) sends.localAddr sends.remoteAddr
    (sends.ours ack (List.mem_singleton_self ack))
  rw [same] at present
  exact present

/-- T1 is stopped once everything has been acknowledged. -/
theorem keeps_settle : Keeps conn (if conn.va = conn.vs then conn.stopT1 else conn) := by
  split <;> exact .silent rfl (fun _ _ => id) rfl rfl

theorem keeps_handleI : Keeps conn (conn.handleI frame) := by
  rw [handleI]
  split
  · exact .one rfl (fun _ _ => id) rfl rfl ⟨rfl, rfl, rfl, rfl⟩
  · have restarted : Keeps conn conn.stopT3.startT3 := .silent rfl (fun _ _ => id) rfl rfl
    exact (((restarted.trans (keeps_updateVa frame.nr)).trans keeps_acceptI).trans
      keeps_settle).trans keeps_pumpTx

theorem keeps_handleRr : Keeps conn (conn.handleRr frame) := by
  rw [handleRr]
  split
  · exact .silent rfl (fun _ _ => id) rfl rfl
  · have free : Keeps conn { conn with peerBusy := false } := .silent rfl (fun _ _ => id) rfl rfl
    refine .trans ?_ keeps_pumpTx
    refine .trans ((free.trans (keeps_updateVa frame.nr)).trans keeps_settle) ?_
    exact .silent rfl (fun _ _ => id) rfl rfl

theorem keeps_handleRnr : Keeps conn (conn.handleRnr frame) := by
  rw [handleRnr]
  split
  · exact .silent rfl (fun _ _ => id) rfl rfl
  · have busy : Keeps conn { conn with peerBusy := true } := .silent rfl (fun _ _ => id) rfl rfl
    refine (busy.trans (keeps_updateVa frame.nr)).trans ?_
    exact .silent rfl (fun _ _ => id) rfl rfl

theorem keeps_handleRej : Keeps conn (conn.handleRej frame) := by
  rw [handleRej]
  split
  · exact .silent rfl (fun _ _ => id) rfl rfl
  · have stopped : Keeps (conn.updateVa frame.nr) (conn.updateVa frame.nr).stopT1 :=
      .silent rfl (fun _ _ => id) rfl rfl
    refine (((keeps_updateVa frame.nr).trans stopped).trans (keeps_retransmitFrom frame.nr)).trans ?_
    dsimp only
    split <;> exact .silent rfl (fun _ _ => id) rfl rfl

theorem keeps_handleSabm : Keeps conn conn.handleSabm := by
  unfold handleSabm
  dsimp only
  split
  · exact .one rfl (fun _ _ kept => by cases kept) rfl rfl ⟨rfl, rfl, rfl, rfl⟩
  · exact .one rfl (fun _ _ kept => by cases kept) rfl rfl ⟨rfl, rfl, rfl, rfl⟩

theorem keeps_handleUa : Keeps conn conn.handleUa := by
  unfold handleUa
  split
  · refine .trans ?_ keeps_pumpTx
    exact .silent rfl (fun _ _ kept => by cases kept) rfl rfl
  · exact .silent rfl (fun _ _ => id) rfl rfl
  · exact .silent rfl (fun _ _ => id) rfl rfl

theorem keeps_handleDisc : Keeps conn conn.handleDisc :=
  .one rfl (fun _ _ => id) rfl rfl ⟨rfl, rfl, rfl, rfl⟩

theorem keeps_handleFrame : Keeps conn (conn.handleFrame frame) := by
  rw [handleFrame]
  split
  · exact keeps_handleSabm
  · exact keeps_handleUa
  · exact keeps_handleDisc
  · exact .silent rfl (fun _ _ => id) rfl rfl
  · exact keeps_handleI
  · exact keeps_handleRr
  · exact keeps_handleRnr
  · exact keeps_handleRej
  · split <;> exact .silent rfl (fun _ _ => id) rfl rfl
  · exact .silent rfl (fun _ _ => id) rfl rfl
  · exact .silent rfl (fun _ _ => id) rfl rfl

theorem keeps_t1Expire : Keeps conn conn.t1Expire := by
  have counted : Keeps conn { conn.stopT1 with retryCount := conn.stopT1.retryCount + 1 } :=
    .silent rfl (fun _ _ => id) rfl rfl
  unfold t1Expire
  dsimp only
  split
  · split
    · exact .silent rfl (fun _ _ => id) rfl rfl
    · exact .one rfl (fun _ _ => id) rfl rfl ⟨rfl, rfl, rfl, rfl⟩
  · split
    · exact .silent rfl (fun _ _ => id) rfl rfl
    · exact .one rfl (fun _ _ => id) rfl rfl ⟨rfl, rfl, rfl, rfl⟩
  · split
    · split
      · exact .silent rfl (fun _ _ => id) rfl rfl
      · refine (counted.trans (keeps_retransmitFrom conn.va)).trans ?_
        exact .silent rfl (fun _ _ => id) rfl rfl
    · exact .one rfl (fun _ _ => id) rfl rfl ⟨rfl, rfl, rfl, rfl⟩
  · exact .silent rfl (fun _ _ => id) rfl rfl

theorem keeps_t3Expire : Keeps conn conn.t3Expire := by
  unfold t3Expire
  dsimp only
  split
  · exact .one rfl (fun _ _ => id) rfl rfl ⟨rfl, rfl, rfl, rfl⟩
  · exact .silent rfl (fun _ _ => id) rfl rfl

theorem keeps_disconnect : Keeps conn conn.disconnect := by
  rw [disconnect]
  split
  · exact .silent rfl (fun _ _ => id) rfl rfl
  · exact .one rfl (fun _ _ => id) rfl rfl ⟨rfl, rfl, rfl, rfl⟩

theorem keeps_write {data : Bytes} (written : conn.write data = some next) : Keeps conn next := by
  rw [write] at written
  split at written
  · cases written
    exact .silent rfl (fun _ _ => id) rfl rfl
  · obtain ⟨pieces, -, rfl⟩ := Option.map_eq_some_iff.mp written
    refine .trans ?_ keeps_pumpTx
    exact .silent rfl (fun _ _ => id) rfl rfl

theorem keeps_step {event : Event} (other : event ≠ .connect) (stepped : conn.step event = some next) :
    Keeps conn next := by
  cases event with
  | receive frame =>
      cases stepped
      exact keeps_handleFrame
  | write data =>
      cases stepped
      cases written : conn.write data with
      | none => exact .silent rfl (fun _ _ => id) rfl rfl
      | some next => exact keeps_write written
  | t1Expire =>
      obtain ⟨-, rfl⟩ := step_t1Expire stepped
      exact keeps_t1Expire
  | t3Expire =>
      obtain ⟨-, rfl⟩ := step_t3Expire stepped
      exact keeps_t3Expire
  | connect => exact absurd rfl other
  | disconnect =>
      cases stepped
      exact keeps_disconnect

end Keeps

end AX25Connection

namespace AX25Router

/-- A frame for the node, from `station`, that came in on `port`. -/
structure Calls (heard : AX25Frame → Nat → Prop) (start : AX25Router) (station : AX25Address)
    (port : Nat) (frame : AX25Frame) : Prop where
  heard : heard frame port
  meant : start.notForUs frame.dest = false
  callsign : station.callsign = frame.src.callsign
  ssid : station.ssid = frame.src.ssid

/-- The session answers a SABM on the port that the SABM came in on. -/
structure Pinned (heard : AX25Frame → Nat → Prop) (start : AX25Router) (session : Session) :
    Prop where
  own : session.conn.Own
  callsign : session.conn.localAddr.callsign = start.localAddr.callsign
  ssid : session.conn.localAddr.ssid = start.localAddr.ssid
  opened : ∃ sabm, Calls heard start session.conn.remoteAddr session.port sabm ∧
    sabm.frameType = .sabm

/-- `frame` goes out in the node's name, to a station on a port that the station has called on:
with the SABM of a session, or with the frame that a DM refuses. -/
structure Replies (heard : AX25Frame → Nat → Prop) (start : AX25Router) (frame : AX25Frame)
    (port : Nat) : Prop where
  callsign : frame.src.callsign = start.localAddr.callsign
  ssid : frame.src.ssid = start.localAddr.ssid
  called : ∃ call, Calls heard start frame.dest port call ∧
    (call.frameType = .sabm ∨ frame.frameType = .dm)

/-- The invariant of a router that has started as `start`. -/
structure Routed (heard : AX25Frame → Nat → Prop) (start router : AX25Router) : Prop where
  localAddr : router.localAddr = start.localAddr
  nodeAlias : router.nodeAlias = start.nodeAlias
  pinned : ∀ session ∈ router.sessions, Pinned heard start session
  replies : ∀ entry ∈ router.sent, Replies heard start entry.1 entry.2

section Routed

variable {heard : AX25Frame → Nat → Prop} {start router next : AX25Router} {session : Session}
variable {frame : AX25Frame} {now port index : Nat}

/-- What a session sends goes out on its port. -/
theorem Pinned.replies {act : AX25Connection → AX25Connection} (pinned : Pinned heard start session)
    (keeps : session.conn.Keeps (act session.conn)) (sent : frame ∈ (act session.conn).sent) :
    Replies heard start frame session.port := by
  obtain ⟨destCallsign, destSsid, srcCallsign, srcSsid⟩ := (keeps.own pinned.own).sent frame sent
  rw [keeps.remoteAddr] at destCallsign destSsid
  rw [keeps.localAddr] at srcCallsign srcSsid
  obtain ⟨sabm, calls, kind⟩ := pinned.opened
  exact ⟨srcCallsign.trans pinned.callsign, srcSsid.trans pinned.ssid, sabm,
    ⟨calls.heard, calls.meant, destCallsign.trans calls.callsign, destSsid.trans calls.ssid⟩,
    .inl kind⟩

theorem Pinned.act {act : AX25Connection → AX25Connection} (pinned : Pinned heard start session)
    (keeps : session.conn.Keeps (act session.conn)) :
    Pinned heard start { session with conn := { act session.conn with sent := [] } } where
  own := ⟨by simp, (keeps.own pinned.own).unacked⟩
  callsign := by
    dsimp only
    rw [keeps.localAddr]
    exact pinned.callsign
  ssid := by
    dsimp only
    rw [keeps.localAddr]
    exact pinned.ssid
  opened := by
    dsimp only
    rw [keeps.remoteAddr]
    exact pinned.opened

theorem Routed.update {act : AX25Connection → AX25Connection} (routed : Routed heard start router)
    (keeps : ∀ session, router.sessions[index]? = some session →
      session.conn.Keeps (act session.conn)) :
    Routed heard start (router.update index act) where
  localAddr := routed.localAddr
  nodeAlias := routed.nodeAlias
  pinned := by
    intro session listed
    obtain ⟨place, here⟩ := List.mem_iff_getElem?.mp listed
    simp only [AX25Router.update, List.getElem?_modify] at here
    obtain ⟨before, stored, same⟩ := Option.map_eq_some_iff.mp here
    have pinned := routed.pinned before (List.mem_of_getElem? stored)
    split at same
    · next this =>
        subst this
        exact same ▸ pinned.act (keeps before stored)
    · exact same ▸ pinned
  replies := by
    intro entry listed
    rcases List.mem_append.mp listed with before | new
    · exact routed.replies entry before
    · cases found : router.sessions[index]? with
      | none => simp [found] at new
      | some session =>
          rw [found] at new
          obtain ⟨frame, sent, rfl⟩ := List.mem_map.mp new
          exact (routed.pinned session (List.mem_of_getElem? found)).replies (keeps session found)
            sent

theorem Routed.setTask {change : TaskState → TaskState} (routed : Routed heard start router) :
    Routed heard start (router.setTask index change) where
  localAddr := routed.localAddr
  nodeAlias := routed.nodeAlias
  pinned := by
    intro session listed
    obtain ⟨place, here⟩ := List.mem_iff_getElem?.mp listed
    simp only [AX25Router.setTask, List.getElem?_modify] at here
    obtain ⟨before, stored, same⟩ := Option.map_eq_some_iff.mp here
    have pinned := routed.pinned before (List.mem_of_getElem? stored)
    split at same
    · rw [← same]
      exact { pinned with }
    · exact same ▸ pinned
  replies := routed.replies

/-- The tables of the router and its log take no part. -/
theorem Routed.congr (routed : Routed heard start router) (localAddr : next.localAddr = router.localAddr)
    (nodeAlias : next.nodeAlias = router.nodeAlias) (sessions : next.sessions = router.sessions)
    (sent : next.sent = router.sent) : Routed heard start next where
  localAddr := localAddr.trans routed.localAddr
  nodeAlias := nodeAlias.trans routed.nodeAlias
  pinned := sessions ▸ routed.pinned
  replies := sent ▸ routed.replies

theorem Routed.meant (routed : Routed heard start router) (dest : AX25Address) :
    router.notForUs dest = start.notForUs dest := by
  simp only [notForUs, routed.localAddr, routed.nodeAlias]

theorem own_init (localAddr remoteAddr : AX25Address) (paclen : Int) :
    (AX25Connection.init localAddr remoteAddr paclen).Own :=
  ⟨by simp [AX25Connection.init], by simp [AX25Connection.init]⟩

theorem Routed.openSession (routed : Routed heard start router) (srcKey : Text)
    (kind : frame.frameType = .sabm) (came : heard frame port)
    (meant : start.notForUs frame.dest = false) :
    Routed heard start (router.openSession frame srcKey port) := by
  have entered {ready : AX25Router} (routed : Routed heard start ready) (conn : AX25Connection)
      (same : conn = ready.opening frame) :
      Routed heard start ((ready.enlist ⟨srcKey, port, conn, .running⟩).update
        ready.sessions.length fun conn => conn.handleFrame frame) := by
    refine .update ⟨routed.localAddr, routed.nodeAlias, fun session listed => ?_, routed.replies⟩
      fun session _ => AX25Connection.keeps_handleFrame
    rcases List.mem_append.mp listed with before | new
    · exact routed.pinned session before
    · rw [List.mem_singleton.mp new, same]
      have callsign := congrArg AX25Address.callsign routed.localAddr
      have ssid := congrArg AX25Address.ssid routed.localAddr
      exact ⟨own_init _ _ _, callsign, ssid, frame, ⟨came, meant, rfl, rfl⟩, kind⟩
  cases stored : router.sessionTasks srcKey with
  | none =>
      have same : router.openSession frame srcKey port =
          (router.enlist ⟨srcKey, port, router.opening frame, .running⟩).update
            router.sessions.length fun conn => conn.handleFrame frame := by
        rw [AX25Router.openSession, stored]
        rfl
      rw [same]
      exact entered routed _ rfl
  | some old =>
      have same : router.openSession frame srcKey port =
          ((router.setTask old cancelTask).enlist
            ⟨srcKey, port, (router.setTask old cancelTask).opening frame, .running⟩).update
              (router.setTask old cancelTask).sessions.length fun conn => conn.handleFrame frame := by
        rw [AX25Router.openSession, stored]
        rfl
      have cancelled : Routed heard start (router.setTask old cancelTask) := routed.setTask
      rw [same]
      exact entered cancelled _ rfl

theorem Routed.handleFrame (routed : Routed heard start router) (came : heard frame port) :
    Routed heard start (router.handleFrame now frame port) := by
  have logged : Routed heard start (router.hear now frame.src port) :=
    routed.congr (by simp only [hear]) (by simp only [hear]) (sessions_hear ..) (sent_hear ..)
  unfold AX25Router.handleFrame
  generalize router.hear now frame.src port = router at logged ⊢
  dsimp only
  split
  · exact logged
  · next ours =>
      have meant : start.notForUs frame.dest = false := by
        rw [← logged.meant]
        simpa using ours
      split
      · exact logged
      · next kind =>
          rw [handleSabm]
          split
          · exact logged.openSession _ kind came meant
          · split
            · exact logged.update fun session _ => AX25Connection.keeps_handleFrame
            · exact logged.openSession _ kind came meant
      · split
        · refine ⟨logged.localAddr, logged.nodeAlias, logged.pinned, fun entry listed => ?_⟩
          rcases List.mem_append.mp listed with before | new
          · exact logged.replies entry before
          · rw [List.mem_singleton.mp new]
            have callsign := congrArg AX25Address.callsign logged.localAddr
            have ssid := congrArg AX25Address.ssid logged.localAddr
            exact ⟨callsign, ssid, frame, ⟨came, meant, rfl, rfl⟩, .inr AX25Frame.frameType_dm⟩
        · exact logged.update fun session _ => AX25Connection.keeps_handleFrame

theorem keeps_finish (conn : AX25Connection) : conn.Keeps (finish conn) := by
  rw [finish]
  split
  · exact AX25Connection.keeps_disconnect
  · exact .silent rfl (fun _ _ => id) rfl rfl

theorem Routed.step {event : Event} (routed : Routed heard start router)
    (came : ∀ now frame port, event = .receive now frame port → heard frame port)
    (stepped : router.step event = some next) : Routed heard start next := by
  cases event with
  | receive now frame port =>
      cases stepped
      exact routed.handleFrame (came now frame port rfl)
  | complete index started =>
      simp only [AX25Router.step] at stepped
      split at stepped
      · cases stepped
      · split at stepped
        · cases stepped
          exact (routed.update fun session _ => keeps_finish session.conn).setTask
        · cases stepped
          exact (routed.update fun session _ => keeps_finish session.conn).setTask
        · cases stepped
          exact routed.setTask
        · cases stepped
  | callback index =>
      simp only [AX25Router.step] at stepped
      split at stepped
      · cases stepped
      · split at stepped
        · cases stepped
          have reported : Routed heard start (router.setTask index fun _ => .reported) :=
            routed.setTask
          exact reported.congr rfl rfl rfl rfl
        · cases stepped
  | connection index event =>
      simp only [AX25Router.step] at stepped
      split at stepped
      · cases stepped
      · cases stepped
      · cases stepped
      · next session other found _ called =>
          obtain ⟨conn, moved, rfl⟩ := Option.map_eq_some_iff.mp stepped
          refine routed.update fun other same => ?_
          rw [found] at same
          cases same
          exact AX25Connection.keeps_step (by rintro rfl; exact called rfl) moved

/-- Whatever a node sends goes out in its own name, on a port and to a station that has called
the node on that port: with the SABM that opened the session, or with a frame that a DM
refuses. -/
theorem replies_on_port {nodeCall nodeAlias : Text} {paclen : Int} {events : List Event}
    {final : AX25Router} (completed : run step (init nodeCall nodeAlias paclen) events = some final) :
    ∀ entry ∈ final.sent,
      Replies (fun frame port => ∃ now, Event.receive now frame port ∈ events)
        (init nodeCall nodeAlias paclen) entry.1 entry.2 := by
  let heard (frame : AX25Frame) (port : Nat) : Prop := ∃ now, Event.receive now frame port ∈ events
  have routed : Routed heard (init nodeCall nodeAlias paclen) final :=
    @run_preserves_of_everyStep _ _ step
      (fun _ event => ∀ now frame port, event = .receive now frame port → heard frame port)
      (Routed heard (init nodeCall nodeAlias paclen))
      (fun _ _ _ routed came stepped => routed.step came stepped) _ _ _
      ⟨rfl, rfl, by simp [init], by simp [init]⟩
      (EveryStep.of_forall fun event listed now frame port same => ⟨now, same ▸ listed⟩) completed
  exact routed.replies

/-- AI3I calls on port 2, an RR of W1AW comes in on port 5, and the session of AI3I writes. -/
private def twoPorts : List Event :=
  [.receive 0 (.sabm { callsign := "W3BBS" } { callsign := "AI3I" }) 2,
    .receive 1 (.rr { callsign := "W3BBS" } { callsign := "W1AW" } 0) 5,
    .connection 0 (.write [87, 51])]

theorem replies_on_port_two : ∃ final, run step (init "W3BBS" "" 236) twoPorts = some final ∧
    (final.sent.map fun (frame, port) => (frame.frameType, port)) = [(.ua, 2), (.dm, 5), (.i, 2)] ∧
    ∀ entry ∈ final.sent,
      Replies (fun frame port => ∃ now, Event.receive now frame port ∈ twoPorts)
        (init "W3BBS" "" 236) entry.1 entry.2 := by
  have ends : (run step (init "W3BBS" "" 236) twoPorts).map
      (fun final => final.sent.map fun (frame, port) => (frame.frameType, port)) =
        some [(.ua, 2), (.dm, 5), (.i, 2)] := by
    decide +kernel
  obtain ⟨final, completed, sent⟩ := Option.map_eq_some_iff.mp ends
  exact ⟨final, completed, sent, replies_on_port completed⟩

end Routed

end AX25Router

end PyBulletin.Ax25
