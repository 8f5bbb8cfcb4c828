import PyBulletin.Ax25.Window

set_option autoImplicit false

namespace PyBulletin.Ax25

open PyBulletin.Foundation

/-- The task of a session: `cancelling` after `cancel()`, `finished` once its
coroutine is over, `reported` once its done-callback has run. -/
inductive TaskState where
  | running | cancelling | finished | reported
deriving DecidableEq, Repr

/-- One connection created by a SABM, the KISS port its frames go out on, and the
session task spawned for it. -/
structure Session where
  key : Text
  port : Nat
  conn : AX25Connection
  task : TaskState

/-- `sessions` holds every session ever created, oldest first; the three tables
refer to them by index.  `sent` is the traffic towards the KISS link. -/
structure AX25Router where
  localAddr : AX25Address
  nodeAlias : Text
  paclen : Int
  sessions : List Session := []
  connections : Text → Option Nat := fun _ => none
  sessionTasks : Text → Option Nat := fun _ => none
  connPort : Text → Option Nat := fun _ => none
  heard : List (Nat × Text × Nat) := []
  sent : List (AX25Frame × Nat) := []

def heardMax : Nat := 200

namespace AX25Router

/-- `__init__`. -/
def init (nodeCall nodeAlias : Text) (paclen : Int) : AX25Router :=
  { localAddr := .parse nodeCall, nodeAlias, paclen }

variable (router : AX25Router)

/-- Appending to a deque of bounded length drops entries from its other end. -/
def hear (now : Nat) (src : AX25Address) (port : Nat) : AX25Router :=
  let heard := router.heard ++ [(now, Text.upper src.str, port)]
  { router with heard := heard.drop (heard.length - heardMax) }

/-- Let one connection act; what it sends goes out on the port pinned to it. -/
def update (index : Nat) (act : AX25Connection → AX25Connection) : AX25Router :=
  let traffic := match router.sessions[index]? with
    | none => []
    | some session => (act session.conn).sent.map fun frame => (frame, session.port)
  { router with
    sessions := router.sessions.modify index fun session =>
      { session with conn := { act session.conn with sent := [] } }
    sent := router.sent ++ traffic }

def setTask (index : Nat) (change : TaskState → TaskState) : AX25Router :=
  { router with
    sessions := router.sessions.modify index fun session =>
      { session with task := change session.task } }

def isConnected (index : Nat) : Bool :=
  router.sessions[index]?.any fun session => session.conn.state = .connected

/-- `old_task.cancel()` unless the task is done. -/
def cancelTask : TaskState → TaskState
  | .running => .cancelling
  | other => other

/-- The part of `_handle_sabm` that replaces whatever the station had. -/
def openSession (frame : AX25Frame) (srcKey : Text) (port : Nat) : AX25Router :=
  let router := match router.sessionTasks srcKey with
    | none => router
    | some old => router.setTask old cancelTask
  let localAddr : AX25Address :=
    { callsign := router.localAddr.callsign, ssid := router.localAddr.ssid }
  let remote : AX25Address := { callsign := frame.src.callsign, ssid := frame.src.ssid }
  let conn := AX25Connection.init localAddr remote router.paclen
  let index := router.sessions.length
  let router :=
    { router with
      sessions := router.sessions ++ [Session.mk srcKey port conn .running]
      connPort := Function.update router.connPort srcKey (some port)
      connections := Function.update router.connections srcKey (some index) }
  let router := router.update index fun conn => conn.handleFrame frame
  { router with sessionTasks := Function.update router.sessionTasks srcKey (some index) }

def handleSabm (frame : AX25Frame) (srcKey : Text) (port : Nat) : AX25Router :=
  match router.connections srcKey with
  | none => router.openSession frame srcKey port
  | some existing =>
      if router.isConnected existing then
        router.update existing fun conn => conn.handleFrame frame
      else router.openSession frame srcKey port

/-- An address that is neither ours nor, where an alias is configured, the alias. -/
def notForUs (dest : AX25Address) : Bool :=
  !dest.matchesAddress router.localAddr &&
    (router.nodeAlias ≠ [] && !(AX25Address.parse router.nodeAlias).matchesAddress dest)

def handleFrame (now : Nat) (frame : AX25Frame) (port : Nat) : AX25Router :=
  let router := router.hear now frame.src port
  if router.notForUs frame.dest then router
  else
    let srcKey := Text.upper frame.src.str
    match frame.frameType with
    | .ui => router
    | .sabm => router.handleSabm frame srcKey port
    | _ =>
        match router.connections srcKey with
        | none =>
            let dest : AX25Address := { callsign := frame.src.callsign, ssid := frame.src.ssid }
            let src : AX25Address :=
              { callsign := router.localAddr.callsign, ssid := router.localAddr.ssid }
            { router with sent := router.sent ++ [(.dm dest src, port)] }
        | some index => router.update index fun conn => conn.handleFrame frame

def cleanup (srcKey : Text) : AX25Router :=
  { router with
    connections := Function.update router.connections srcKey none
    sessionTasks := Function.update router.sessionTasks srcKey none
    connPort := Function.update router.connPort srcKey none }

/-- `complete` ends the coroutine of a session task; `started` is false only for
a task cancelled before its first step, whose `finally` clause does not run.
`callback` runs the done-callback.  `connection` is anything else that happens to
a connection: its timers and the calls of its session. -/
inductive Event where
  | receive (now : Nat) (frame : AX25Frame) (port : Nat)
  | complete (index : Nat) (started : Bool)
  | callback (index : Nat)
  | connection (index : Nat) (event : AX25Connection.Event)

/-- The `finally` clause of `_run_session`. -/
def finish (conn : AX25Connection) : AX25Connection :=
  if conn.state = .connected then conn.disconnect else conn

def step (router : AX25Router) : Event → Option AX25Router
  | .receive now frame port => some (router.handleFrame now frame port)
  | .complete index started =>
      match router.sessions[index]? with
      | none => none
      | some session =>
          match session.task, started with
          | .running, true | .cancelling, true =>
              some ((router.update index finish).setTask index fun _ => .finished)
          | .cancelling, false => some (router.setTask index fun _ => .finished)
          | _, _ => none
  | .callback index =>
      match router.sessions[index]? with
      | none => none
      | some session =>
          if session.task = .finished then
            some ((router.setTask index fun _ => .reported).cleanup session.key)
          else none
  | .connection index event =>
      match router.sessions[index]?, event with
      | none, _ | _, .receive _ | _, .connect => none
      | some session, event =>
          (session.conn.step event).map fun next => router.update index fun _ => next

/-- `next` is no more connected than `conn`, and not about to become so. -/
structure Fades (conn next : AX25Connection) : Prop where
  passive : conn.state ≠ .awaitingConnect → next.state ≠ .awaitingConnect
  connected : conn.state ≠ .awaitingConnect → next.state = .connected → conn.state = .connected

theorem Fades.of_state {conn next : AX25Connection} (same : next.state = conn.state) :
    Fades conn next :=
  ⟨fun passive => same ▸ passive, fun _ connected => same ▸ connected⟩

theorem Fades.of_down {conn next : AX25Connection}
    (down : next.state = .disconnected ∨ next.state = .awaitingRelease) : Fades conn next := by
  rcases down with down | down <;> constructor <;> simp [down]

theorem Fades.trans {conn middle next : AX25Connection} (first : Fades conn middle)
    (second : Fades middle next) : Fades conn next :=
  ⟨fun passive => second.passive (first.passive passive),
    fun passive connected =>
      first.connected passive (second.connected (first.passive passive) connected)⟩

section Fades

variable {conn : AX25Connection}

theorem handleFrame_fades {frame : AX25Frame} (other : frame.frameType ≠ .sabm) :
    Fades conn (conn.handleFrame frame) := by
  unfold AX25Connection.handleFrame
  cases kind : frame.frameType with
  | sabm => exact absurd kind other
  | i =>
      dsimp only
      unfold AX25Connection.handleI
      split
      · exact .of_state rfl
      · apply Fades.of_state
        simp only [AX25Connection.pumpTx_state]
        split <;> exact AX25Connection.acceptI_state _ frame
  | rr =>
      dsimp only
      unfold AX25Connection.handleRr
      split
      · exact .of_state rfl
      · apply Fades.of_state
        simp only [AX25Connection.pumpTx_state]
        split <;> rfl
  | rnr =>
      dsimp only
      unfold AX25Connection.handleRnr
      split <;> exact .of_state rfl
  | rej =>
      dsimp only
      unfold AX25Connection.handleRej
      split
      · exact .of_state rfl
      · apply Fades.of_state
        dsimp only
        split <;> exact AX25Connection.retransmitFrom_state _ frame.nr
  | ua =>
      dsimp only
      unfold AX25Connection.handleUa
      split
      next awaiting => exact ⟨fun passive => absurd awaiting passive,
        fun passive => absurd awaiting passive⟩
      · exact .of_down (.inl rfl)
      · exact .of_state rfl
  | disc | dm => exact .of_down (.inl rfl)
  | ui =>
      dsimp only
      split <;> exact .of_state rfl
  | frmr | unknown => exact .of_state rfl

theorem t1Expire_fades : Fades conn conn.t1Expire := by
  apply Fades.trans (.of_state rfl : Fades conn conn.stopT1)
  unfold AX25Connection.t1Expire
  generalize conn.stopT1 = conn
  dsimp only
  split
  case h_1 | h_2 =>
      split
      · exact .of_down (.inl rfl)
      · exact .of_state rfl
  case h_3 =>
      split
      · split
        · exact .of_down (.inl rfl)
        · exact .of_state (AX25Connection.retransmitFrom_state _ conn.va)
      · exact .of_state rfl
  case h_4 => exact .of_state rfl

theorem disconnect_fades : Fades conn conn.disconnect := by
  unfold AX25Connection.disconnect
  split
  · exact .of_state rfl
  · exact .of_down (.inr rfl)

theorem finish_fades : Fades conn (finish conn) := by
  unfold finish
  split
  · exact disconnect_fades
  · exact .of_state rfl

theorem finish_closes (conn : AX25Connection) : (finish conn).state ≠ .connected := by
  unfold finish
  split
  next connected => simp [AX25Connection.disconnect, connected, AX25Connection.startT1,
      AX25Connection.send]
  next other => exact other

/-- The events of a connection other than received frames and `connect`. -/
theorem step_fades {event : AX25Connection.Event} {next : AX25Connection}
    (received : ∀ frame, event ≠ .receive frame) (connect : event ≠ .connect)
    (stepped : conn.step event = some next) : Fades conn next := by
  cases event with
  | receive frame => exact absurd rfl (received frame)
  | connect => exact absurd rfl connect
  | write data =>
      cases stepped
      unfold AX25Connection.write
      split
      · exact .of_state rfl
      · cases AX25Connection.chunks conn.paclen data with
        | none => exact .of_state rfl
        | some pieces => exact .of_state (AX25Connection.pumpTx_state _)
  | t1Expire =>
      obtain ⟨-, rfl⟩ := AX25Connection.step_t1Expire stepped
      exact t1Expire_fades
  | t3Expire =>
      obtain ⟨-, rfl⟩ := AX25Connection.step_t3Expire stepped
      unfold AX25Connection.t3Expire
      dsimp only
      split <;> exact .of_state rfl
  | disconnect =>
      cases stepped
      exact disconnect_fades

end Fades

variable {router}

theorem step_complete {index : Nat} {started : Bool} {next : AX25Router}
    (stepped : router.step (.complete index started) = some next) :
    ∃ session, router.sessions[index]? = some session ∧
      ((started = true ∧ (session.task = .running ∨ session.task = .cancelling) ∧
          next = (router.update index finish).setTask index fun _ => .finished) ∨
        (started = false ∧ session.task = .cancelling ∧
          next = router.setTask index fun _ => .finished)) := by
  simp only [step] at stepped
  split at stepped
  · contradiction
  next session present =>
    refine ⟨session, present, ?_⟩
    split at stepped
    next running =>
      cases stepped
      exact .inl ⟨rfl, .inl running, rfl⟩
    next cancelling =>
      cases stepped
      exact .inl ⟨rfl, .inr cancelling, rfl⟩
    next cancelling =>
      cases stepped
      exact .inr ⟨rfl, cancelling, rfl⟩
    · contradiction

theorem step_callback {index : Nat} {next : AX25Router}
    (stepped : router.step (.callback index) = some next) :
    ∃ session, router.sessions[index]? = some session ∧ session.task = .finished ∧
      next = (router.setTask index fun _ => .reported).cleanup session.key := by
  simp only [step] at stepped
  split at stepped
  · contradiction
  next session present =>
    split at stepped
    next finished =>
      cases stepped
      exact ⟨session, present, finished, rfl⟩
    · contradiction

theorem step_connection {index : Nat} {event : AX25Connection.Event} {next : AX25Router}
    (stepped : router.step (.connection index event) = some next) :
    ∃ session after, router.sessions[index]? = some session ∧
      (∀ frame, event ≠ .receive frame) ∧ event ≠ .connect ∧
      session.conn.step event = some after ∧ next = router.update index fun _ => after := by
  simp only [step] at stepped
  split at stepped
  · contradiction
  · contradiction
  · contradiction
  next session present received connect =>
    obtain ⟨after, moved, rfl⟩ := Option.map_eq_some_iff.mp stepped
    exact ⟨session, after, present, received, connect, moved, rfl⟩

def keyAt (router : AX25Router) (index : Nat) : Option Text :=
  router.sessions[index]?.map Session.key

/-- `index` is the newest session created by a SABM from `key`. -/
structure Newest (router : AX25Router) (key : Text) (index : Nat) : Prop where
  created : router.keyAt index = some key
  last : ∀ later, index < later → router.keyAt later ≠ some key

/-- The tables lead to the newest session of a station while it is connected. -/
def Bookkept (router : AX25Router) : Prop :=
  ∀ key index, Newest router key index → router.isConnected index →
    router.connections key = some index ∧ router.sessionTasks key = some index

theorem Newest.unique {key : Text} {first second : Nat} (one : Newest router key first)
    (two : Newest router key second) : first = second := by
  rcases Nat.lt_trichotomy first second with before | same | after
  · exact absurd two.created (one.last second before)
  · exact same
  · exact absurd one.created (two.last first after)

theorem Newest.congr {other : AX25Router} {key : Text} {index : Nat}
    (newest : Newest other key index) (same : ∀ index, other.keyAt index = router.keyAt index) :
    Newest router key index where
  created := same index ▸ newest.created
  last := fun later after => same later ▸ newest.last later after

theorem sessions_update (router : AX25Router) (index : Nat)
    (act : AX25Connection → AX25Connection) (other : Nat) :
    (router.update index act).sessions[other]? =
      router.sessions[other]?.map fun session =>
        if index = other then { session with conn := { act session.conn with sent := [] } }
        else session := by
  simp [update, List.getElem?_modify]

theorem sessions_setTask (router : AX25Router) (index : Nat) (change : TaskState → TaskState)
    (other : Nat) :
    (router.setTask index change).sessions[other]? =
      router.sessions[other]?.map fun session =>
        if index = other then { session with task := change session.task } else session := by
  simp [setTask, List.getElem?_modify]

@[simp] theorem keyAt_update (router : AX25Router) (index : Nat)
    (act : AX25Connection → AX25Connection) (other : Nat) :
    (router.update index act).keyAt other = router.keyAt other := by
  simp only [keyAt, sessions_update, Option.map_map]
  congr 1
  funext session
  simp only [Function.comp_apply]
  split <;> rfl

@[simp] theorem keyAt_setTask (router : AX25Router) (index : Nat)
    (change : TaskState → TaskState) (other : Nat) :
    (router.setTask index change).keyAt other = router.keyAt other := by
  simp only [keyAt, sessions_setTask, Option.map_map]
  congr 1
  funext session
  simp only [Function.comp_apply]
  split <;> rfl

/-- What a connected newest session is owed. -/
structure Listed (router : AX25Router) (index : Nat) (session : Session) : Prop where
  connection : router.connections session.key = some index
  sessionTask : router.sessionTasks session.key = some index
  running : session.task = .running

/-- The invariant behind `Bookkept`. -/
structure Kept (router : AX25Router) : Prop where
  current : ∀ key index, router.connections key = some index → Newest router key index
  owner : ∀ key index, router.sessionTasks key = some index → router.keyAt index = some key
  passive : ∀ (index : Nat) (session : Session), router.sessions[index]? = some session →
    session.conn.state ≠ .awaitingConnect
  live : ∀ (index : Nat) (session : Session), router.sessions[index]? = some session →
    Newest router session.key index → session.conn.state = .connected →
    Listed router index session

theorem isConnected_iff {index : Nat} :
    router.isConnected index ↔
      ∃ session, router.sessions[index]? = some session ∧ session.conn.state = .connected := by
  unfold isConnected
  cases router.sessions[index]? <;> simp

theorem Kept.bookkept (kept : Kept router) : Bookkept router := by
  intro key index newest connected
  obtain ⟨session, found, state⟩ := isConnected_iff.mp connected
  have same : session.key = key := by
    have created := newest.created
    simpa [keyAt, found] using created
  subst same
  have listed := kept.live index session found newest state
  exact ⟨listed.connection, listed.sessionTask⟩

theorem Kept.init (nodeCall nodeAlias : Text) (paclen : Int) :
    Kept (init nodeCall nodeAlias paclen) := by
  unfold AX25Router.init
  constructor <;> simp

/-- The heard log, the ports and the traffic take no part in the invariant. -/
theorem Kept.congr {other : AX25Router} (kept : Kept router)
    (sessions : other.sessions = router.sessions)
    (connections : other.connections = router.connections)
    (sessionTasks : other.sessionTasks = router.sessionTasks) : Kept other := by
  have keys (index : Nat) : other.keyAt index = router.keyAt index := by
    rw [keyAt, sessions, keyAt]
  constructor
  · intro key index listed
    rw [connections] at listed
    exact (kept.current key index listed).congr fun index => (keys index).symm
  · intro key index listed
    rw [sessionTasks] at listed
    rw [keys]
    exact kept.owner key index listed
  · rw [sessions]
    exact kept.passive
  · intro index session found newest connected
    rw [sessions] at found
    have listed := kept.live index session found (newest.congr keys) connected
    exact ⟨connections ▸ listed.connection, sessionTasks ▸ listed.sessionTask, listed.running⟩

theorem Kept.update {index : Nat} {act : AX25Connection → AX25Connection} (kept : Kept router)
    (acts : ∀ session, router.sessions[index]? = some session →
      (act session.conn).state ≠ .awaitingConnect ∧
        ((act session.conn).state = .connected → Newest router session.key index →
          Listed router index session)) :
    Kept (router.update index act) where
  current := by
    intro key other listed
    have newest := kept.current key other listed
    exact newest.congr (by simp)
  owner := by
    intro key other listed
    simpa using kept.owner key other listed
  passive := by
    intro other session found
    simp only [sessions_update, Option.map_eq_some_iff] at found
    obtain ⟨before, was, rfl⟩ := found
    split
    next same =>
      subst same
      exact (acts before was).1
    next => exact kept.passive other before was
  live := by
    intro other session found newest connected
    simp only [sessions_update, Option.map_eq_some_iff] at found
    obtain ⟨before, was, rfl⟩ := found
    by_cases same : index = other
    · subst same
      simp only [if_true] at newest connected ⊢
      have listed := (acts before was).2 connected (newest.congr (by simp))
      exact ⟨listed.connection, listed.sessionTask, listed.running⟩
    · simp only [same, if_false] at newest connected ⊢
      have listed := kept.live other before was (newest.congr (by simp)) connected
      exact ⟨listed.connection, listed.sessionTask, listed.running⟩

/-- A connection that fades keeps the tables right. -/
theorem Kept.updateFading {index : Nat} {act : AX25Connection → AX25Connection}
    (kept : Kept router)
    (fades : ∀ session, router.sessions[index]? = some session →
      Fades session.conn (act session.conn)) :
    Kept (router.update index act) := by
  apply kept.update
  intro session found
  have passive := kept.passive index session found
  exact ⟨(fades session found).passive passive, fun connected newest =>
    kept.live index session found newest ((fades session found).connected passive connected)⟩

theorem Kept.setTask {index : Nat} {change : TaskState → TaskState} (kept : Kept router)
    (idle : ∀ session, router.sessions[index]? = some session →
      Newest router session.key index → session.conn.state ≠ .connected) :
    Kept (router.setTask index change) where
  current := by
    intro key other listed
    have newest := kept.current key other listed
    exact newest.congr (by simp)
  owner := by
    intro key other listed
    simpa using kept.owner key other listed
  passive := by
    intro other session found
    simp only [sessions_setTask, Option.map_eq_some_iff] at found
    obtain ⟨before, was, rfl⟩ := found
    split <;> exact kept.passive other before was
  live := by
    intro other session found newest connected
    simp only [sessions_setTask, Option.map_eq_some_iff] at found
    obtain ⟨before, was, rfl⟩ := found
    by_cases same : index = other
    · subst same
      simp only [if_true] at newest connected
      exact absurd connected (idle before was (newest.congr (by simp)))
    · simp only [same, if_false] at newest connected ⊢
      have listed := kept.live other before was (newest.congr (by simp)) connected
      exact ⟨listed.connection, listed.sessionTask, listed.running⟩

/-- Removing a station's entries is safe unless its newest session is connected. -/
theorem Kept.cleanup {key : Text} (kept : Kept router)
    (idle : ∀ index, Newest router key index → ¬ router.isConnected index) :
    Kept (router.cleanup key) where
  current := by
    intro other index listed
    by_cases same : other = key
    · subst same
      simp [AX25Router.cleanup] at listed
    · simp only [AX25Router.cleanup, Function.update_of_ne same] at listed
      have newest := kept.current other index listed
      exact newest.congr fun _ => rfl
  owner := by
    intro other index listed
    by_cases same : other = key
    · subst same
      simp [AX25Router.cleanup] at listed
    · simp only [AX25Router.cleanup, Function.update_of_ne same] at listed
      exact kept.owner other index listed
  passive := kept.passive
  live := by
    intro index session found newest connected
    have before : Newest router session.key index := newest.congr fun _ => rfl
    have listed := kept.live index session found before connected
    have different : session.key ≠ key := by
      intro same
      exact idle index (same ▸ before) (isConnected_iff.mpr ⟨session, found, connected⟩)
    refine ⟨?_, ?_, listed.running⟩
    · simp only [AX25Router.cleanup, Function.update_of_ne different]
      exact listed.connection
    · simp only [AX25Router.cleanup, Function.update_of_ne different]
      exact listed.sessionTask

/-- Enter a session that is not connected yet as the newest of its station. -/
def enlist (router : AX25Router) (session : Session) : AX25Router :=
  { router with
    sessions := router.sessions ++ [session]
    connPort := Function.update router.connPort session.key (some session.port)
    connections := Function.update router.connections session.key (some router.sessions.length)
    sessionTasks := Function.update router.sessionTasks session.key (some router.sessions.length) }

theorem keyAt_enlist (router : AX25Router) (session : Session) (index : Nat) :
    (router.enlist session).keyAt index =
      if index = router.sessions.length then some session.key else router.keyAt index := by
  unfold keyAt enlist
  rcases Nat.lt_trichotomy index router.sessions.length with old | new | beyond
  · rw [List.getElem?_append_left old, if_neg (by omega)]
  · subst new
    simp
  · rw [if_neg (by omega), List.getElem?_eq_none (by simp; omega),
      List.getElem?_eq_none (by omega)]

theorem keyAt_lt {key : Text} {index : Nat} (found : router.keyAt index = some key) :
    index < router.sessions.length := by
  obtain ⟨session, present, _⟩ := Option.map_eq_some_iff.mp found
  exact (List.getElem?_eq_some_iff.mp present).1

theorem newest_enlist (router : AX25Router) (session : Session) :
    Newest (router.enlist session) session.key router.sessions.length where
  created := by simp [keyAt_enlist]
  last := by
    intro later after stored
    rw [keyAt_enlist, if_neg (by omega)] at stored
    have known := keyAt_lt stored
    omega

theorem Newest.enlist {key : Text} {index : Nat} {session : Session}
    (newest : Newest router key index) (different : key ≠ session.key) :
    Newest (router.enlist session) key index where
  created := by
    have known := keyAt_lt newest.created
    rw [keyAt_enlist, if_neg (by omega)]
    exact newest.created
  last := by
    intro later after
    rw [keyAt_enlist]
    split
    · exact fun same => different (Option.some.inj same).symm
    · exact newest.last later after

theorem Newest.of_enlist {key : Text} {index : Nat} {session : Session}
    (newest : Newest (router.enlist session) key index)
    (old : index < router.sessions.length) : key ≠ session.key ∧ Newest router key index := by
  have created := newest.created
  rw [keyAt_enlist, if_neg (by omega)] at created
  refine ⟨?_, created, ?_⟩
  · intro same
    have last := newest.last router.sessions.length old
    rw [keyAt_enlist, if_pos rfl] at last
    exact last (congrArg some same.symm)
  · intro later after stored
    have known := keyAt_lt stored
    have last := newest.last later after
    rw [keyAt_enlist, if_neg (by omega)] at last
    exact last stored

theorem Kept.enlist {session : Session} (kept : Kept router)
    (down : session.conn.state = .disconnected) : Kept (router.enlist session) where
  current := by
    intro key index listed
    by_cases same : key = session.key
    · subst same
      simp only [AX25Router.enlist, Function.update_self, Option.some.injEq] at listed
      subst listed
      exact newest_enlist router session
    · simp only [AX25Router.enlist, Function.update_of_ne same] at listed
      exact (kept.current key index listed).enlist same
  owner := by
    intro key index listed
    by_cases same : key = session.key
    · subst same
      simp only [AX25Router.enlist, Function.update_self, Option.some.injEq] at listed
      subst listed
      exact (newest_enlist router session).created
    · simp only [AX25Router.enlist, Function.update_of_ne same] at listed
      have owned := kept.owner key index listed
      have known := keyAt_lt owned
      rw [keyAt_enlist, if_neg (by omega)]
      exact owned
  passive := by
    intro index other found
    rcases List.mem_append.mp (List.mem_of_getElem? found) with old | new
    · obtain ⟨place, present⟩ := List.mem_iff_getElem?.mp old
      exact kept.passive place other present
    · rw [List.mem_singleton.mp new, down]
      exact fun impossible => nomatch impossible
  live := by
    intro index other found newest connected
    rcases Nat.lt_or_ge index router.sessions.length with old | new
    · have before : router.sessions[index]? = some other := by
        simpa only [AX25Router.enlist, List.getElem?_append_left old] using found
      obtain ⟨different, wasNewest⟩ := newest.of_enlist old
      have listed := kept.live index other before wasNewest connected
      refine ⟨?_, ?_, listed.running⟩
      · simp only [AX25Router.enlist, Function.update_of_ne different]
        exact listed.connection
      · simp only [AX25Router.enlist, Function.update_of_ne different]
        exact listed.sessionTask
    · have last : other = session := by
        rw [AX25Router.enlist] at found
        rw [List.getElem?_append_right new] at found
        exact List.mem_singleton.mp (List.mem_of_getElem? found)
      rw [last, down] at connected
      contradiction

/-- A SABM always leaves its connection connected. -/
theorem handleFrame_sabm {frame : AX25Frame} (kind : frame.frameType = .sabm)
    (conn : AX25Connection) : (conn.handleFrame frame).state = .connected := by
  simp only [AX25Connection.handleFrame, kind]
  rfl

theorem Kept.openSession {frame : AX25Frame} {srcKey : Text} {port : Nat} (kept : Kept router)
    (kind : frame.frameType = .sabm)
    (idle : ∀ index, Newest router srcKey index → ¬ router.isConnected index) :
    Kept (router.openSession frame srcKey port) := by
  have cancelled : Kept
      (match router.sessionTasks srcKey with
        | none => router
        | some old => router.setTask old cancelTask) := by
    cases listed : router.sessionTasks srcKey with
    | none => exact kept
    | some old =>
        apply kept.setTask
        intro session found newest connected
        have owned := kept.owner srcKey old listed
        simp only [keyAt, found, Option.map_some, Option.some.injEq] at owned
        exact idle old (owned ▸ newest) (isConnected_iff.mpr ⟨session, found, connected⟩)
  unfold AX25Router.openSession
  generalize (match router.sessionTasks srcKey with
    | none => router
    | some old => router.setTask old cancelTask) = ready at cancelled
  let session : Session :=
    { key := srcKey, port
      conn := .init
        { callsign := ready.localAddr.callsign, ssid := ready.localAddr.ssid }
        { callsign := frame.src.callsign, ssid := frame.src.ssid } ready.paclen
      task := .running }
  have enlisted : Kept (ready.enlist session) := cancelled.enlist rfl
  change Kept ((ready.enlist session).update ready.sessions.length fun conn =>
    conn.handleFrame frame)
  apply enlisted.update
  intro new found
  have same : new = session := by
    simpa [AX25Router.enlist] using found.symm
  subst same
  refine ⟨?_, fun _ _ => ⟨?_, ?_, rfl⟩⟩
  · rw [handleFrame_sabm kind]
    exact fun impossible => nomatch impossible
  · simp [AX25Router.enlist]
  · simp [AX25Router.enlist]

theorem Kept.handleSabm {frame : AX25Frame} {srcKey : Text} {port : Nat} (kept : Kept router)
    (kind : frame.frameType = .sabm) : Kept (router.handleSabm frame srcKey port) := by
  have listed {index : Nat} (newest : Newest router srcKey index)
      (connected : router.isConnected index) : router.connections srcKey = some index :=
    (kept.bookkept srcKey index newest connected).1
  unfold AX25Router.handleSabm
  split
  next absent =>
    apply kept.openSession kind
    intro index newest connected
    rw [listed newest connected] at absent
    contradiction
  next existing present =>
    split
    next up =>
      apply kept.updateFading
      intro session found
      obtain ⟨other, stored, connected⟩ := isConnected_iff.mp up
      rw [found] at stored
      cases stored
      exact .of_state ((handleFrame_sabm kind _).trans connected.symm)
    next down =>
      apply kept.openSession kind
      intro index newest connected
      rw [listed newest connected] at present
      cases present
      exact down connected

theorem Kept.handleFrame {now port : Nat} {frame : AX25Frame} (kept : Kept router) :
    Kept (router.handleFrame now frame port) := by
  have heard : Kept (router.hear now frame.src port) := by
    unfold AX25Router.hear
    exact kept.congr rfl rfl rfl
  unfold AX25Router.handleFrame
  generalize router.hear now frame.src port = router at heard
  dsimp only
  split
  · exact heard
  · cases kind : frame.frameType with
    | ui => exact heard
    | sabm => exact heard.handleSabm kind
    | _ =>
        dsimp only
        split
        · exact Kept.congr heard rfl rfl rfl
        · apply heard.updateFading
          intro session _
          apply handleFrame_fades
          rw [kind]
          exact fun impossible => nomatch impossible

/-- The done-callback of a session is about to run while a newer session of the
same station is connected. -/
def Stale (router : AX25Router) : Event → Prop
  | .callback index =>
      ∃ session newest, router.sessions[index]? = some session ∧ session.task = .finished ∧
        newest ≠ index ∧ Newest router session.key newest ∧ router.isConnected newest
  | _ => False

theorem Kept.complete {index : Nat} {started : Bool} {next : AX25Router} (kept : Kept router)
    (stepped : router.step (.complete index started) = some next) : Kept next := by
  obtain ⟨session, present, ⟨_, _, rfl⟩ | ⟨_, cancelling, rfl⟩⟩ := step_complete stepped
  · have finished : Kept (router.update index finish) :=
      kept.updateFading fun session _ => finish_fades
    apply finished.setTask
    intro after found _ connected
    simp only [sessions_update, present, if_true, Option.map_some, Option.some.injEq] at found
    subst found
    exact finish_closes session.conn connected
  · apply kept.setTask
    intro other found newest connected
    have listed := kept.live index other found newest connected
    rw [present] at found
    cases found
    rw [listed.running] at cancelling
    contradiction

theorem Kept.callback {index : Nat} {next : AX25Router} (kept : Kept router)
    (fresh : ¬ Stale router (.callback index))
    (stepped : router.step (.callback index) = some next) : Kept next := by
  obtain ⟨session, present, finished, rfl⟩ := step_callback stepped
  have idle (newest : Nat) (isNewest : Newest router session.key newest) :
      ¬ router.isConnected newest := by
    intro connected
    by_cases same : newest = index
    · subst same
      obtain ⟨other, found, state⟩ := isConnected_iff.mp connected
      rw [present] at found
      cases found
      have listed := kept.live newest session present isNewest state
      rw [listed.running] at finished
      contradiction
    · exact fresh ⟨session, newest, present, finished, same, isNewest, connected⟩
  have reported : Kept (router.setTask index fun _ => .reported) := by
    apply kept.setTask
    intro other found newest connected
    have same : other.key = session.key := by
      rw [present] at found
      cases found
      rfl
    exact idle index (same ▸ newest) (isConnected_iff.mpr ⟨other, found, connected⟩)
  apply reported.cleanup
  intro newest isNewest connected
  have before : Newest router session.key newest :=
    isNewest.congr (keyAt_setTask router index fun _ => .reported)
  obtain ⟨after, found, state⟩ := isConnected_iff.mp connected
  simp only [sessions_setTask, Option.map_eq_some_iff] at found
  obtain ⟨was, stored, rfl⟩ := found
  refine idle newest before (isConnected_iff.mpr ⟨was, stored, ?_⟩)
  split at state <;> exact state

theorem Kept.step {event : Event} {next : AX25Router} (kept : Kept router)
    (fresh : ¬ Stale router event) (stepped : router.step event = some next) : Kept next := by
  cases event with
  | receive now frame port =>
      cases stepped
      exact kept.handleFrame
  | complete index started => exact kept.complete stepped
  | callback index => exact kept.callback fresh stepped
  | connection index event =>
      obtain ⟨session, after, present, received, connect, moved, rfl⟩ := step_connection stepped
      apply kept.updateFading
      intro other found
      rw [present] at found
      cases found
      exact step_fades received connect moved

/-- A stale callback removes the entries of the connected newest session. -/
theorem Stale.breaks {event : Event} (stale : Stale router event) :
    ∃ next, router.step event = some next ∧ ¬ Bookkept next := by
  cases event with
  | callback index =>
      obtain ⟨session, newest, present, finished, different, isNewest, connected⟩ := stale
      refine ⟨(router.setTask index fun _ => .reported).cleanup session.key,
        by simp [step, present, finished], ?_⟩
      intro bookkept
      obtain ⟨other, found, state⟩ := isConnected_iff.mp connected
      have still : Newest ((router.setTask index fun _ => .reported).cleanup session.key)
          session.key newest :=
        isNewest.congr fun other => (keyAt_setTask router index (fun _ => .reported) other).symm
      have up : ((router.setTask index fun _ => .reported).cleanup session.key).isConnected
          newest := by
        refine isConnected_iff.mpr ⟨other, ?_, state⟩
        change (router.setTask index fun _ => .reported).sessions[newest]? = some other
        rw [sessions_setTask, found, Option.map_some, if_neg (Ne.symm different)]
      have entry := (bookkept session.key newest still up).1
      simp [cleanup] at entry
  | receive | complete | connection => exact stale.elim

/-- The tables are right throughout a run exactly when no done-callback of an
older session runs while a newer one of the same station is connected. -/
theorem bookkept_iff_no_stale_callback (nodeCall nodeAlias : Text) (paclen : Int)
    (events : List Event) :
    Throughout step Bookkept (init nodeCall nodeAlias paclen) events ↔
      EveryStep step (fun router event => ¬ Stale router event)
        (init nodeCall nodeAlias paclen) events :=
  throughout_iff_everyStep (fun _ _ _ kept fresh stepped => kept.step fresh stepped)
    (fun _ kept => kept.bookkept)
    (fun _ _ _ stale => (Classical.not_not.mp stale).breaks)
    (Kept.init nodeCall nodeAlias paclen) events

private def nodeAddr : AX25Address := { callsign := "W3BBS" }
private def stationAddr : AX25Address := { callsign := "AI3I" }

/-- A station connects, disconnects and connects again; then the task of its
first session ends and reports. -/
private def reconnect : List Event :=
  [.receive 0 (.sabm nodeAddr stationAddr) 0, .receive 1 (.disc nodeAddr stationAddr) 0,
    .receive 2 (.sabm nodeAddr stationAddr) 0, .complete 0 true, .callback 0]

/-- The callback of the first session removes the entries of the second, which is
connected. -/
theorem reconnect_unlists_session :
    ¬ ∀ (nodeCall nodeAlias : Text) (paclen : Int) (events : List Event),
      Throughout step Bookkept (init nodeCall nodeAlias paclen) events := by
  intro claimed
  obtain ⟨final, completed, connected, sessions, entry⟩ : ∃ final,
      run step (init "W3BBS" [] 128) reconnect = some final ∧
        final.isConnected 1 ∧ final.sessions.map Session.key = [↑"AI3I", ↑"AI3I"] ∧
        final.connections "AI3I" = none :=
    ⟨_, rfl, by decide, by decide, by decide⟩
  have kept := claimed "W3BBS" [] 128 reconnect reconnect final List.prefix_rfl completed
  have newest : Newest final "AI3I" 1 := by
    have keys (index : Nat) : final.keyAt index = ([↑"AI3I", ↑"AI3I"] : List Text)[index]? := by
      rw [← sessions, List.getElem?_map, keyAt]
    constructor
    · rw [keys]
      rfl
    · intro later after
      rw [keys, List.getElem?_eq_none after]
      exact fun impossible => nomatch impossible
  have listed := (kept "AI3I" 1 newest connected).1
  rw [entry] at listed
  contradiction

end AX25Router

end PyBulletin.Ax25
