import PyBulletin.Ax25.Replies
import PyBulletin.Ax25.Router

set_option autoImplicit false

namespace PyBulletin.Ax25

open PyBulletin.Foundation

def stationKey (address : AX25Address) : Text := Text.upper address.str

theorem stationKey_eq {first second : AX25Address} (same : first.matchesAddress second) :
    stationKey first = stationKey second := by
  simp only [AX25Address.matchesAddress, decide_eq_true_eq] at same
  simp only [stationKey, AX25Address.str, same.2]
  split
  · simp only [Text.upper, List.map_append]
    rw [show first.callsign.map Char.toUpper = second.callsign.map Char.toUpper from same.1]
  · exact same.1

theorem matchesAddress_refl (address : AX25Address) : address.matchesAddress address := by
  simp [AX25Address.matchesAddress]

theorem matchesAddress_congr {first second other : AX25Address}
    (callsign : first.callsign = second.callsign) (ssid : first.ssid = second.ssid)
    (same : second.matchesAddress other) : first.matchesAddress other := by
  simpa only [AX25Address.matchesAddress, callsign, ssid] using same

/-- A frame from the station `src` to the station `dest`. -/
def Towards (src dest : AX25Address) (frame : AX25Frame) : Prop :=
  frame.src.matchesAddress src ∧ frame.dest.matchesAddress dest

/-- A connection that the node `own` may hold for the node `other`: all it has sent is in
the channel. -/
structure Linked (own other : AX25Address) (conn : AX25Connection) : Prop where
  drained : conn.sent = []
  frames : ∃ count, conn.Suffix count
  localAddr : conn.localAddr.matchesAddress own
  remoteAddr : conn.remoteAddr.matchesAddress other

theorem Linked.towards {own other : AX25Address} {conn : AX25Connection}
    (linked : Linked own other conn) {frame : AX25Frame}
    (ours : conn.Ours frame) : Towards own other frame :=
  ⟨matchesAddress_congr ours.2.2.1 ours.2.2.2 linked.localAddr,
    matchesAddress_congr ours.1 ours.2.1 linked.remoteAddr⟩

namespace AX25Router

/-- The connection under a station's key. -/
def peer (router : AX25Router) (key : Text) : Option AX25Connection :=
  (router.connections key).bind fun index => router.sessions[index]?.map Session.conn

/-- What a router state says about `other`: a connection that is listed exists and is one
between the two nodes. -/
structure Peered (router : AX25Router) (other : AX25Address) : Prop where
  drained : router.sent = []
  linked : ∀ index, router.connections (stationKey other) = some index →
    ∃ session, router.sessions[index]? = some session ∧
      Linked router.localAddr other session.conn

variable {router : AX25Router} {other : AX25Address} {frame : AX25Frame}

theorem Peered.of_peer (peered : Peered router other) {conn : AX25Connection}
    (found : router.peer (stationKey other) = some conn) :
    ∃ index session, router.connections (stationKey other) = some index ∧
      router.sessions[index]? = some session ∧ session.conn = conn ∧
      Linked router.localAddr other conn := by
  obtain ⟨index, listed, found⟩ := Option.bind_eq_some_iff.mp found
  obtain ⟨session, stored, rfl⟩ := Option.map_eq_some_iff.mp found
  obtain ⟨same, also, linked⟩ := peered.linked index listed
  rw [stored] at also
  cases also
  exact ⟨index, session, listed, stored, rfl, linked⟩

end AX25Router

/-- What the connection of one node for the other does with a delivered frame, and what
is sent. -/
inductive Reacts (own other : AX25Address) (frame : AX25Frame) :
    Option AX25Connection → Option AX25Connection → List AX25Frame → Prop where
  | ignored (before : Option AX25Connection) (kind : frame.frameType = .ui) :
      Reacts own other frame before before []
  | refused (dm : AX25Frame) (kind : frame.frameType ≠ .ui) (noSabm : frame.frameType ≠ .sabm)
      (reply : dm.frameType = .dm) : Reacts own other frame none none [dm]
  | opened (before : Option AX25Connection) (conn : AX25Connection) (ua : AX25Frame)
      (kind : frame.frameType = .sabm) (reply : ua.frameType = .ua)
      (empty : conn.txQueue = []) : Reacts own other frame before (some conn) [ua]
  | received (conn : AX25Connection) (kind : frame.frameType ≠ .ui)
      (linked : Linked own other conn) :
      Reacts own other frame (some conn)
        (some { conn.handleFrame frame with sent := [] }) (conn.handleFrame frame).sent

/-- What the answers to control frames may still cost. -/
def controls (frames : List AX25Frame) : Nat :=
  (frames.map fun frame => frame.frameType.control).sum

theorem controls_of_data {out : List AX25Frame} (numbered : ∀ sent ∈ out, sent.frameType = .i) :
    controls out = 0 := by
  induction out with
  | nil => rfl
  | cons sent out ih =>
      have rest := ih fun later member => numbered later (by simp [member])
      have head : sent.frameType.control = 0 := by
        rw [numbered sent (by simp)]
        rfl
      simp only [controls] at rest
      simp [controls, head, rest]

/-- Every answer goes to the other end, and control frames beget fewer. -/
theorem handleFrame_sends {conn : AX25Connection} {count : Nat} (suffix : conn.Suffix count)
    (frame : AX25Frame) :
    ∃ out, conn.Sends (conn.handleFrame frame) out ∧
      controls out ≤ frame.frameType.control - 1 := by
  have silent : ∀ next : AX25Connection, next.sent = conn.sent →
      next.localAddr = conn.localAddr → next.remoteAddr = conn.remoteAddr →
      ∃ out, conn.Sends next out ∧ controls out ≤ frame.frameType.control - 1 :=
    fun next sent local_ remote => ⟨[], .nothing sent local_ remote, Nat.zero_le _⟩
  have numbered {next : AX25Connection} {out : List AX25Frame} (sends : conn.Sends next out)
      (data : ∀ sent ∈ out, sent.frameType = .i) :
      ∃ out, conn.Sends next out ∧ controls out ≤ frame.frameType.control - 1 :=
    ⟨out, sends, by rw [controls_of_data data]; exact Nat.zero_le _⟩
  rw [AX25Connection.handleFrame]
  cases kind : frame.frameType with
  | sabm =>
      have ours : conn.Ours (.ua conn.makeDest conn.makeSrc) := ⟨rfl, rfl, rfl, rfl⟩
      refine ⟨[.ua conn.makeDest conn.makeSrc], ?_, by simp [controls, FrameType.control]⟩
      dsimp only
      rw [AX25Connection.handleSabm]
      split
      · exact .one rfl ours rfl rfl
      · exact .one rfl ours rfl rfl
  | ua =>
      rw [kind] at silent numbered
      dsimp only
      rw [AX25Connection.handleUa]
      split
      · obtain ⟨out, sends, data⟩ := AX25Connection.pumpTx_sends
          { { conn.stopT1 with state := .connected }.resetCounters.startT3 with
            connectedEvent := true }
        exact numbered (sends.congr rfl rfl rfl rfl rfl rfl) data
      · exact silent _ rfl rfl rfl
      · exact silent _ rfl rfl rfl
  | disc =>
      refine ⟨[.ua conn.makeDest conn.makeSrc], .one rfl ⟨rfl, rfl, rfl, rfl⟩ rfl rfl, ?_⟩
      simp [controls, FrameType.control]
  | dm =>
      rw [kind] at silent
      exact silent _ rfl rfl rfl
  | i =>
      rw [kind] at numbered
      dsimp only
      by_cases connected : conn.state = .connected
      · obtain ⟨ack, more, acknowledges, sends, data, _⟩ :=
          AX25Connection.handleI_answer connected frame
        refine ⟨ack :: more, sends, ?_⟩
        have cheap : ack.frameType.control = 0 := by
          rw [AX25Connection.Acknowledges] at acknowledges
          split at acknowledges
          · rcases acknowledges.1 with kind | kind <;> rw [kind] <;> rfl
          · rw [acknowledges.1]
            rfl
        have rest := controls_of_data data
        simp only [controls] at rest
        simp [controls, cheap, rest]
      · rw [AX25Connection.handleI, if_pos connected]
        refine ⟨[.dm conn.makeDest conn.makeSrc], .one rfl ⟨rfl, rfl, rfl, rfl⟩ rfl rfl, ?_⟩
        simp [controls, FrameType.control]
  | rr =>
      rw [kind] at silent numbered
      dsimp only
      by_cases connected : conn.state = .connected
      · obtain ⟨more, sends, data, _⟩ := AX25Connection.handleRr_answer connected frame
        exact numbered sends data
      · rw [AX25Connection.handleRr, if_pos connected]
        exact silent _ rfl rfl rfl
  | rnr =>
      rw [kind] at silent numbered
      dsimp only
      by_cases connected : conn.state = .connected
      · exact numbered (AX25Connection.handleRnr_answer connected frame).1 (by simp)
      · rw [AX25Connection.handleRnr, if_pos connected]
        exact silent _ rfl rfl rfl
  | rej =>
      rw [kind] at silent numbered
      dsimp only
      by_cases connected : conn.state = .connected
      · obtain ⟨out, sends, data, _⟩ := suffix.handleRej_answer connected frame
        exact numbered sends data
      · rw [AX25Connection.handleRej, if_pos connected]
        exact silent _ rfl rfl rfl
  | ui =>
      rw [kind] at silent
      dsimp only
      split <;> exact silent _ rfl rfl rfl
  | frmr | unknown =>
      rw [kind] at silent
      exact silent _ rfl rfl rfl

theorem Linked.handleFrame {own other : AX25Address} {conn : AX25Connection}
    (linked : Linked own other conn) (frame : AX25Frame) :
    Linked own other { conn.handleFrame frame with sent := [] } := by
  obtain ⟨count, suffix⟩ := linked.frames
  obtain ⟨later, next⟩ := suffix.handleFrame frame
  obtain ⟨out, sends, _⟩ := handleFrame_sends suffix frame
  refine ⟨rfl, ⟨later, next.congr rfl rfl rfl rfl rfl⟩, ?_, ?_⟩
  · exact matchesAddress_congr (by rw [sends.localAddr]) (by rw [sends.localAddr]) linked.localAddr
  · exact matchesAddress_congr (by rw [sends.remoteAddr]) (by rw [sends.remoteAddr])
      linked.remoteAddr

/-- All that a linked connection sends goes to the other node. -/
theorem Linked.sent_towards {own other : AX25Address} {conn : AX25Connection}
    (linked : Linked own other conn) (frame : AX25Frame) :
    ∀ sent ∈ (conn.handleFrame frame).sent, Towards own other sent := by
  obtain ⟨count, suffix⟩ := linked.frames
  obtain ⟨out, sends, _⟩ := handleFrame_sends suffix frame
  rw [sends.sent, linked.drained, List.nil_append]
  exact fun sent member => linked.towards (sends.ours sent member)

namespace AX25Router

variable {router : AX25Router} {other : AX25Address} {frame : AX25Frame} {key : Text}

theorem peer_update {index : Nat} {session : Session}
    (listed : router.connections key = some index)
    (stored : router.sessions[index]? = some session) (act : AX25Connection → AX25Connection) :
    (router.update index act).peer key = some { act session.conn with sent := [] } := by
  have same : (router.update index act).connections key = some index := listed
  rw [peer, same, Option.bind_some, sessions_update, stored]
  simp

theorem sent_update {index : Nat} {session : Session}
    (stored : router.sessions[index]? = some session) (act : AX25Connection → AX25Connection) :
    (router.update index act).sent.map Prod.fst =
      router.sent.map Prod.fst ++ (act session.conn).sent := by
  simp [update, stored, Function.comp_def]

theorem Peered.of_found {conn : AX25Connection} (drained : router.sent = [])
    (found : router.peer (stationKey other) = some conn)
    (linked : Linked router.localAddr other conn) : Peered router other where
  drained := drained
  linked := by
    intro index listed
    obtain ⟨same, also, found⟩ := Option.bind_eq_some_iff.mp found
    rw [listed] at also
    cases also
    obtain ⟨session, stored, rfl⟩ := Option.map_eq_some_iff.mp found
    exact ⟨session, stored, linked⟩

/-- What a router makes of a frame from the node `other`. -/
structure Handled (router : AX25Router) (other : AX25Address) (frame : AX25Frame)
    (next : AX25Router) : Prop where
  localAddr : next.localAddr = router.localAddr
  reacts : Reacts router.localAddr other frame (router.peer (stationKey other))
    (next.peer (stationKey other)) (next.sent.map Prod.fst)
  peered : Peered { next with sent := [] } other
  towards : ∀ sent ∈ next.sent.map Prod.fst, Towards router.localAddr other sent

theorem Peered.update (peered : Peered router other) {index : Nat}
    (listed : router.connections (stationKey other) = some index) (kind : frame.frameType ≠ .ui) :
    Handled router other frame (router.update index fun conn => conn.handleFrame frame) := by
  obtain ⟨session, stored, linked⟩ := peered.linked index listed
  have found : router.peer (stationKey other) = some session.conn := by
    rw [peer, listed, Option.bind_some, stored]
    rfl
  have after := peer_update listed stored fun conn => conn.handleFrame frame
  have sent := sent_update stored fun conn => conn.handleFrame frame
  rw [peered.drained, List.map_nil, List.nil_append] at sent
  refine ⟨rfl, ?_, .of_found rfl after (linked.handleFrame frame), ?_⟩
  · rw [found, after, sent]
    exact .received session.conn kind linked
  · rw [sent]
    exact linked.sent_towards frame

/-- The state in which a SABM's new connection `conn` has been entered. -/
def entered (router : AX25Router) (key : Text) (port : Nat) (conn : AX25Connection) :
    AX25Router :=
  let cleared := match router.sessionTasks key with
    | none => router
    | some old => router.setTask old cancelTask
  { cleared with
    sessions := cleared.sessions ++ [Session.mk key port conn .running]
    connPort := Function.update cleared.connPort key (some port)
    connections := Function.update cleared.connections key (some router.sessions.length) }

theorem entered_frame (router : AX25Router) (key : Text) (port : Nat) (conn : AX25Connection) :
    (router.entered key port conn).localAddr = router.localAddr ∧
      (router.entered key port conn).sent = router.sent ∧
      (router.entered key port conn).connections key = some router.sessions.length ∧
      (router.entered key port conn).sessions[router.sessions.length]? =
        some (Session.mk key port conn .running) := by
  rw [entered]
  cases router.sessionTasks key with
  | none => simp
  | some old =>
      refine ⟨rfl, rfl, Function.update_self .., ?_⟩
      have length : (router.setTask old cancelTask).sessions.length = router.sessions.length := by
        simp [setTask]
      dsimp only
      rw [← length, List.getElem?_concat_length]

theorem openSession_eq (router : AX25Router) (frame : AX25Frame) (key : Text) (port : Nat) :
    router.openSession frame key port =
      let conn := AX25Connection.init
        { callsign := router.localAddr.callsign, ssid := router.localAddr.ssid }
        { callsign := frame.src.callsign, ssid := frame.src.ssid } router.paclen
      let answered := (router.entered key port conn).update router.sessions.length fun conn =>
        conn.handleFrame frame
      { answered with
        sessionTasks := Function.update answered.sessionTasks key
          (some router.sessions.length) } := by
  unfold openSession entered
  cases router.sessionTasks key with
  | none => rfl
  | some old =>
      have length : (router.setTask old cancelTask).sessions.length = router.sessions.length := by
        simp [setTask]
      simp only [length]
      rfl

theorem Peered.openSession (peered : Peered router other) (port : Nat)
    (source : frame.src.matchesAddress other) (kind : frame.frameType = .sabm) :
    Handled router other frame (router.openSession frame (stationKey other) port) := by
  rw [openSession_eq]
  dsimp only
  generalize fresh : AX25Connection.init
    { callsign := router.localAddr.callsign, ssid := router.localAddr.ssid }
    { callsign := frame.src.callsign, ssid := frame.src.ssid } router.paclen = conn
  have linked : Linked router.localAddr other conn := by
    subst fresh
    exact ⟨rfl, ⟨0, .empty rfl⟩,
      matchesAddress_congr rfl rfl (matchesAddress_refl router.localAddr),
      matchesAddress_congr rfl rfl source⟩
  have answer : (conn.handleFrame frame).sent = [.ua conn.makeDest conn.makeSrc] := by
    subst fresh
    simp [AX25Connection.handleFrame, kind, AX25Connection.handleSabm,
      AX25Connection.resetCounters, AX25Connection.startT3, AX25Connection.send,
      AX25Connection.init]
  have empty : (conn.handleFrame frame).txQueue = [] := by
    subst fresh
    simp [AX25Connection.handleFrame, kind, AX25Connection.handleSabm,
      AX25Connection.resetCounters, AX25Connection.startT3, AX25Connection.send,
      AX25Connection.init]
  obtain ⟨localAddr, drained, listed, stored⟩ :=
    entered_frame router (stationKey other) port conn
  have after := peer_update listed stored fun conn => conn.handleFrame frame
  have sent := sent_update stored fun conn => conn.handleFrame frame
  rw [drained, peered.drained, List.map_nil, List.nil_append, answer] at sent
  refine ⟨localAddr, ?_, .of_found rfl after ?_, ?_⟩
  · have reacts : Reacts router.localAddr other frame (router.peer (stationKey other))
        (some { conn.handleFrame frame with sent := [] }) [.ua conn.makeDest conn.makeSrc] :=
      .opened _ _ _ kind AX25Frame.frameType_ua empty
    rw [← after, ← sent] at reacts
    exact reacts
  · rw [show ((router.entered (stationKey other) port conn).update router.sessions.length
      fun conn => conn.handleFrame frame).localAddr = router.localAddr from localAddr]
    exact linked.handleFrame frame
  · have towards := linked.sent_towards frame
    rw [answer, ← sent] at towards
    exact towards

theorem hear_eq (router : AX25Router) (now : Nat) (src : AX25Address) (port : Nat) :
    ∃ heard, router.hear now src port = { router with heard } :=
  ⟨_, rfl⟩

theorem openSession_nodeAlias (router : AX25Router) (frame : AX25Frame) (key : Text)
    (port : Nat) : (router.openSession frame key port).nodeAlias = router.nodeAlias := by
  unfold openSession
  cases router.sessionTasks key with
  | none => rfl
  | some old => rfl

theorem handleFrame_nodeAlias (router : AX25Router) (now : Nat) (frame : AX25Frame)
    (port : Nat) : (router.handleFrame now frame port).nodeAlias = router.nodeAlias := by
  obtain ⟨log, logged⟩ := hear_eq router now frame.src port
  simp only [handleFrame, logged]
  split
  · rfl
  · split
    · rfl
    · rw [handleSabm]
      split
      · exact openSession_nodeAlias _ _ _ _
      · split
        · rfl
        · exact openSession_nodeAlias _ _ _ _
    · split <;> rfl

theorem handleFrame_handled (peered : Peered router other)
    (source : frame.src.matchesAddress other) (accepted : router.notForUs frame.dest = false)
    (now port : Nat) :
    Handled router other frame (router.handleFrame now frame port) := by
  have key : Text.upper frame.src.str = stationKey other := stationKey_eq source
  obtain ⟨log, logged⟩ := hear_eq router now frame.src port
  have heard : Peered { router with heard := log } other := ⟨peered.drained, peered.linked⟩
  have ours : ({ router with heard := log } : AX25Router).notForUs frame.dest = false := accepted
  have still (same : frame.frameType = .ui) :
      Handled router other frame { router with heard := log } := by
    refine ⟨rfl, ?_, ⟨rfl, peered.linked⟩, ?_⟩
    · rw [show ({ router with heard := log } : AX25Router).sent = [] from peered.drained]
      exact .ignored _ same
    · rw [show ({ router with heard := log } : AX25Router).sent = [] from peered.drained]
      simp
  have listed (index : Nat) (found : router.connections (stationKey other) = some index)
      (kind : frame.frameType ≠ .ui) :
      Handled router other frame (({ router with heard := log } : AX25Router).update index fun conn =>
        conn.handleFrame frame) := by
    have handled : Handled { router with heard := log } other frame
        (({ router with heard := log } : AX25Router).update index fun conn =>
          conn.handleFrame frame) := heard.update found kind
    exact ⟨handled.localAddr, handled.reacts, handled.peered, handled.towards⟩
  have refusal (missing : router.connections (stationKey other) = none)
      (kind : frame.frameType ≠ .ui) (noSabm : frame.frameType ≠ .sabm) :
      Handled router other frame { router with
        heard := log
        sent := ({ router with heard := log } : AX25Router).sent ++
          [(.dm { callsign := frame.src.callsign, ssid := frame.src.ssid }
            { callsign := router.localAddr.callsign, ssid := router.localAddr.ssid }, port)] } := by
    have absent : router.peer (stationKey other) = none := by rw [peer, missing]; rfl
    have after : ({ router with heard := log } : AX25Router).peer (stationKey other) = none := absent
    refine ⟨rfl, ?_, ⟨rfl, peered.linked⟩, ?_⟩
    · rw [show ({ router with heard := log } : AX25Router).sent = [] from peered.drained, absent]
      have reacts : Reacts router.localAddr other frame none none
          [.dm { callsign := frame.src.callsign, ssid := frame.src.ssid }
            { callsign := router.localAddr.callsign, ssid := router.localAddr.ssid }] :=
        .refused _ kind noSabm AX25Frame.frameType_dm
      rw [← after] at reacts
      exact absent ▸ reacts
    · rw [show ({ router with heard := log } : AX25Router).sent = [] from peered.drained]
      simp only [List.nil_append, List.map_cons, List.map_nil, List.mem_singleton]
      rintro sent rfl
      exact ⟨matchesAddress_congr rfl rfl (matchesAddress_refl router.localAddr),
        matchesAddress_congr rfl rfl source⟩
  simp only [handleFrame, logged, ours, Bool.false_eq_true, if_false, key]
  cases kind : frame.frameType with
  | ui => exact still kind
  | sabm =>
      have opened := heard.openSession port source kind
      dsimp only
      rw [handleSabm]
      cases found : ({ router with heard := log } : AX25Router).connections (stationKey other) with
      | none =>
          exact ⟨opened.localAddr, opened.reacts, opened.peered, opened.towards⟩
      | some existing =>
          dsimp only
          split
          · exact listed existing found (by simp [kind])
          · exact ⟨opened.localAddr, opened.reacts, opened.peered, opened.towards⟩
  | i | rr | rnr | rej | ua | disc | dm | frmr | unknown =>
      dsimp only
      cases found : ({ router with heard := log } : AX25Router).connections (stationKey other) with
      | none => exact refusal found (by simp [kind]) (by simp [kind])
      | some index => exact listed index found (by simp [kind])

/-- Every connection has given its frames to the link, and keeps the unacknowledged ones
together. -/
def Sound (router : AX25Router) : Prop :=
  ∀ session ∈ router.sessions, session.conn.sent = [] ∧ ∃ count, session.conn.Suffix count

theorem Sound.of_sessions {next : AX25Router} (sound : Sound router)
    (same : next.sessions = router.sessions) : Sound next := by
  rw [Sound, same]
  exact sound

theorem Sound.update (sound : Sound router) (index : Nat) {act : AX25Connection → AX25Connection}
    (acts : ∀ session, router.sessions[index]? = some session →
      ∃ count, (act session.conn).Suffix count) : Sound (router.update index act) := by
  intro session among
  obtain ⟨other, found⟩ := List.mem_iff_getElem?.mp among
  rw [sessions_update] at found
  obtain ⟨before, was, rfl⟩ := Option.map_eq_some_iff.mp found
  split
  next same =>
    subst same
    obtain ⟨count, suffix⟩ := acts before was
    exact ⟨rfl, count, suffix.congr rfl rfl rfl rfl rfl⟩
  next => exact sound before (List.mem_iff_getElem?.mpr ⟨other, was⟩)

theorem Sound.setTask (sound : Sound router) (index : Nat) (change : TaskState → TaskState) :
    Sound (router.setTask index change) := by
  intro session among
  obtain ⟨other, found⟩ := List.mem_iff_getElem?.mp among
  rw [sessions_setTask] at found
  obtain ⟨before, was, rfl⟩ := Option.map_eq_some_iff.mp found
  have kept := sound before (List.mem_iff_getElem?.mpr ⟨other, was⟩)
  split <;> exact kept

theorem Sound.receive (sound : Sound router) (index : Nat) (frame : AX25Frame) :
    Sound (router.update index fun conn => conn.handleFrame frame) := by
  refine sound.update index fun session found => ?_
  obtain ⟨_, count, suffix⟩ := sound session (List.mem_iff_getElem?.mpr ⟨index, found⟩)
  exact suffix.handleFrame frame

theorem Sound.openSession (sound : Sound router) (frame : AX25Frame) (key : Text) (port : Nat) :
    Sound (router.openSession frame key port) := by
  rw [openSession_eq]
  refine Sound.of_sessions (Sound.receive ?_ router.sessions.length frame) rfl
  have cleared : Sound (match router.sessionTasks key with
      | none => router
      | some old => router.setTask old cancelTask) := by
    cases router.sessionTasks key with
    | none => exact sound
    | some old => exact sound.setTask old cancelTask
  intro session among
  rcases List.mem_append.mp among with early | late
  · exact cleared session early
  · rw [List.mem_singleton.mp late]
    exact ⟨rfl, 0, .empty rfl⟩

theorem Sound.handleFrame (sound : Sound router) (now : Nat) (frame : AX25Frame) (port : Nat) :
    Sound (router.handleFrame now frame port) := by
  obtain ⟨log, logged⟩ := hear_eq router now frame.src port
  have heard : Sound { router with heard := log } := sound
  simp only [AX25Router.handleFrame, logged]
  split
  · exact heard
  · split
    · exact heard
    · rw [handleSabm]
      split
      · exact heard.openSession frame _ port
      · split
        · exact heard.receive _ frame
        · exact heard.openSession frame _ port
    · split
      · exact heard
      · exact heard.receive _ frame

theorem Sound.step (sound : Sound router) {event : Event} {next : AX25Router}
    (stepped : router.step event = some next) : Sound next := by
  cases event with
  | receive now frame port =>
      cases stepped
      exact sound.handleFrame now frame port
  | complete index started =>
      have finished : Sound (router.update index finish) := by
        refine sound.update index fun session found => ?_
        obtain ⟨_, count, suffix⟩ := sound session (List.mem_iff_getElem?.mpr ⟨index, found⟩)
        rw [finish]
        split
        · rw [AX25Connection.disconnect]
          split <;> exact ⟨count, suffix.congr rfl rfl rfl rfl rfl⟩
        · exact ⟨count, suffix⟩
      obtain ⟨_, _, ⟨_, _, rfl⟩ | ⟨_, _, rfl⟩⟩ := step_complete stepped
      · exact finished.setTask index _
      · exact sound.setTask index _
  | callback index =>
      obtain ⟨_, _, _, rfl⟩ := step_callback stepped
      exact Sound.of_sessions (sound.setTask index fun _ => .reported) rfl
  | connection index event =>
      obtain ⟨session, after, present, _, _, moved, rfl⟩ := step_connection stepped
      obtain ⟨_, count, suffix⟩ := sound session (List.mem_iff_getElem?.mpr ⟨index, present⟩)
      exact sound.update index fun _ _ => suffix.step moved

/-- From its start on, a router's connections are such as `Linked` asks for. -/
theorem reachable_sound (nodeCall nodeAlias : Text) (paclen : Int) {events : List Event}
    (completed : run AX25Router.step (init nodeCall nodeAlias paclen) events = some router) :
    Sound router :=
  run_preserves (fun _ _ _ sound stepped => Sound.step sound stepped)
    (fun _ among => absurd among List.not_mem_nil) completed

end AX25Router

end PyBulletin.Ax25
