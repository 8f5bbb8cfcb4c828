import PyBulletin.Transport.Chat
import PyBulletin.Transport.Switching

set_option autoImplicit false

namespace PyBulletin.Transport.Conference

open PyBulletin.Foundation

/-! # WebSocket participants

`handle_ws` and the conference methods it calls, in the same rooms as the terminal sessions.
The locks of the hub and of the rooms are never held across an `await`, so that entering and
leaving a room from a WebSocket are single steps.
-/

/-- `conf_room` and `conf_key`, with the room whose queue the drain task reads. -/
structure Conf where
  name : Text
  key : Nat
  room : Nat

/-- What `handle_ws` does behind `_leave_conf`. -/
inductive AfterLeave where
  | join (roomName : Text)
  | left
  | finish

/-- The `await`s of `handle_ws`: the greeting, `recv`, any other `send_json`, and the end of the
drain task in `_leave_conf`. -/
inductive WsAwait where
  | hello
  | recv
  | send
  | drained (next : AfterLeave)

inductive ClientPhase where
  | absent
  | waiting (await : WsAwait)
  | ended

structure Client where
  phase : ClientPhase
  call : Text
  conf : Option Conf

/-- The messages `handle_ws` tells apart. -/
inductive Message where
  | ping
  | join (room : Option Text)
  | message (text : Text)
  | leave
  | other

/-- What `ConferenceRoom.handle_ws_input` makes of a text. -/
inductive WsInput where
  | reply
  | switch (roomName : Text)
  | again
  | say

def wsInput (text : Text) : WsInput :=
  let stripped := Text.strip text
  let upper := Text.upper stripped
  if upper ∈ whoCmds ∨ upper ∈ listCmds then .reply
  else if ("/J " : Text).isPrefixOf upper ∨ ("/JOIN " : Text).isPrefixOf upper then
    match Text.splitWord stripped with
    | some (_, some room) => if Text.strip room ≠ [] then .switch (Text.strip room) else .again
    | _ => .again
  else .say

/-- `put_nowait` of a sender on its own queue. -/
def Room.echo (room : Room) (key : Nat) (text : Text) : Room :=
  { room with
    parts := room.parts.map fun part =>
      if part.key = key ∧ part.queue.length < queueDepth then
        { part with queue := part.queue ++ [text] }
      else part }

def Room.find (room : Room) (key : Nat) : Option Participant := room.parts.find? (·.key = key)

def hasJoined (call room : Text) : Text :=
  "*** ".toList ++ call ++ " has joined ".toList ++ room ++ "\r\n".toList

def hasLeft (call room : Text) : Text :=
  "*** ".toList ++ call ++ " has left ".toList ++ room ++ "\r\n".toList

def quoted (call text : Text) : Text :=
  "[".toList ++ call ++ "] ".toList ++ text ++ "\r\n".toList

namespace Hub

variable (hub : Hub)

def onRoom (room : Nat) (f : Room → Room) : Hub :=
  { hub with rooms := Function.update hub.rooms room (f (hub.rooms room)) }

/-- `_get_or_create` -/
def roomNamed (name : Text) : Hub × Nat :=
  match hub.table name with
  | some room => (hub, room)
  | none =>
      ({ hub with
          table := Function.update hub.table name (some hub.count)
          rooms := Function.update hub.rooms hub.count ⟨name, []⟩
          count := hub.count + 1 }, hub.count)

/-- `enter_room_ws` and `join_ws` -/
def enterRoomWs (roomName call : Text) (key : Nat) : Hub × Nat :=
  let (hub, room) := hub.roomNamed (norm roomName)
  let hub := hub.onRoom room (·.add ⟨key, Text.upper call, []⟩)
  (hub.onRoom room (·.broadcast (hasJoined (Text.upper call) (hub.rooms room).name) (some key)), room)

/-- `leave_ws` -/
def leaveWs (room key : Nat) : Hub :=
  match (hub.rooms room).find key with
  | none => hub
  | some part =>
      (hub.onRoom room (·.pop key)).onRoom room
        (·.broadcast (hasLeft part.callsign (hub.rooms room).name) none)

/-- `leave_room_ws` -/
def leaveRoomWs (roomName : Text) (key : Nat) : Hub :=
  match hub.table (norm roomName) with
  | none => hub
  | some room => (hub.leaveWs room key).maybeRemove (norm roomName)

/-- `send_ws` -/
def sendWs (room key : Nat) (text : Text) : Hub :=
  match (hub.rooms room).find key with
  | none => hub
  | some part =>
      (hub.onRoom room (·.echo key (quoted part.callsign text))).onRoom room
        (·.broadcast (quoted part.callsign text) (some key))

end Hub

/-- The terminal sessions have even numbers; `keys` counts the odd ones given to WebSocket
participants. -/
structure Floor where
  hub : Hub
  clients : Nat → Client
  keys : Nat

def wsKey (n : Nat) : Nat := 2 * n + 1

namespace Floor

variable (floor : Floor) (c : Nat)

def setClient (client : Client) : Floor :=
  { floor with clients := Function.update floor.clients c client }

def await (await : WsAwait) : Floor :=
  floor.setClient c { floor.clients c with phase := .waiting await }

/-- `_join_conf` up to its `send_json` -/
def joinConf (roomName : Text) : Floor :=
  let client := floor.clients c
  let (hub, room) := floor.hub.enterRoomWs roomName client.call (wsKey floor.keys)
  { hub, keys := floor.keys + 1
    clients := Function.update floor.clients c
      { client with
        phase := .waiting .send, conf := some ⟨roomName, wsKey floor.keys, room⟩ } }

/-- Behind `_leave_conf`, which has forgotten the room. -/
def afterLeave (next : AfterLeave) : Floor :=
  let client := { floor.clients c with conf := none }
  match next with
  | .join roomName => (floor.setClient c client).joinConf c roomName
  | .left => floor.setClient c { client with phase := .waiting .send }
  | .finish => floor.setClient c { client with phase := .ended }

/-- `_leave_conf`, up to its wait for the drain task if there is one. -/
def leaveConf (next : AfterLeave) : Floor :=
  match (floor.clients c).conf with
  | some conf =>
      { floor with hub := floor.hub.leaveRoomWs conf.name conf.key }.await c (.drained next)
  | none => floor.afterLeave c next

/-- The body of the loop of `handle_ws`. -/
def receive : Message → Floor
  | .ping => floor.await c .send
  | .join room =>
      let name := match room with
        | some name => if name = [] then defaultRoom else name
        | none => defaultRoom
      match (floor.clients c).conf with
      | some _ => floor.leaveConf c (.join name)
      | none => floor.joinConf c name
  | .message text =>
      match (floor.clients c).conf with
      | none => floor
      | some conf =>
          let text := Text.strip text
          if text = [] then floor
          else
            match floor.hub.table (norm conf.name) with
            | none => floor
            | some room =>
                match wsInput text with
                | .reply => floor.await c .send
                | .switch roomName => floor.leaveConf c (.join roomName)
                | .again => floor
                | .say => { floor with hub := floor.hub.sendWs room conf.key text }
  | .leave => floor.leaveConf c .left
  | .other => floor

end Floor

inductive FloorEvent where
  | terminal (event : Event)
  | connect (c : Nat) (call : Text)
  | resume (c : Nat)
  | message (c : Nat) (message : Message)
  /-- `recv` returns `None`, or the socket is closed. -/
  | closed (c : Nat)
  /-- The drain task takes a text from the queue. -/
  | drain (c : Nat)
  /-- The awaited call raises, or the handler is cancelled. -/
  | raise (c : Nat)

namespace Floor

def step (floor : Floor) : FloorEvent → Option Floor
  | .terminal event =>
      if event.session % 2 = 0 then
        (Conference.step floor.hub event).map fun hub => { floor with hub }
      else none
  | .connect c call =>
      match (floor.clients c).phase with
      | .absent => some (floor.setClient c ⟨.waiting .hello, call, none⟩)
      | _ => none
  | .resume c =>
      match (floor.clients c).phase with
      | .waiting .hello | .waiting .send => some (floor.await c .recv)
      | .waiting (.drained next) => some (floor.afterLeave c next)
      | _ => none
  | .message c message =>
      match (floor.clients c).phase with
      | .waiting .recv => some (floor.receive c message)
      | _ => none
  | .closed c =>
      match (floor.clients c).phase with
      | .waiting .recv => some (floor.leaveConf c .finish)
      | _ => none
  | .drain c =>
      match (floor.clients c).conf with
      | some conf =>
          ((floor.hub.rooms conf.room).get conf.key).map fun room =>
            { floor with hub := floor.hub.onRoom conf.room fun _ => room }
      | none => none
  | .raise c =>
      let client := floor.clients c
      match client.phase with
      | .waiting (.drained next) =>
          -- The exception of the drain task comes out of `_leave_conf` again in the `finally`.
          let floor := floor.setClient c { client with phase := .ended }
          match next, client.conf with
          | .finish, _ | _, none => some floor
          | _, some conf =>
              some { floor with hub := floor.hub.leaveRoomWs conf.name conf.key }
      | .waiting _ => some (floor.leaveConf c .finish)
      | _ => none

/-- Nobody is connected. -/
def empty : Floor := ⟨Conference.empty, fun _ => ⟨.absent, [], none⟩, 0⟩

end Floor

/-- The operation of a terminal session. -/
def Hub.effectOf (hub : Hub) : Event → Effect
  | .enter _ _ _ | .raise _ => .nothing
  | .wake s received _ => if received then .get (hub.sessions s).room s else .nothing
  | .resume s =>
      let session := hub.sessions s
      match session.phase with
      | .waiting .getRoom =>
          match hub.table session.name with
          | some _ => .nothing
          | none => .create hub.count session.name
      | .waiting .join => .add session.room s (Text.upper session.call)
      | .waiting .announce => .say session.room (hub.joined s) (some s)
      | .waiting (.say msg) => .say session.room msg (some s)
      | .waiting (.leave _) => .pop session.room s
      | .waiting (.farewell _) => .say session.room (hub.gone s) none
      | _ => .nothing

namespace Hub

variable (hub : Hub)

def foundingEffects (name : Text) : List Effect :=
  match hub.table name with
  | some _ => []
  | none => [.create hub.count name]

def enterEffects (roomName call : Text) (key : Nat) : List Effect :=
  let (found, room) := hub.roomNamed (norm roomName)
  hub.foundingEffects (norm roomName) ++
    [.add room key (Text.upper call),
      .say room (hasJoined (Text.upper call) (found.rooms room).name) (some key)]

def leaveEffects (roomName : Text) (key : Nat) : List Effect :=
  match hub.table (norm roomName) with
  | none => []
  | some room =>
      match (hub.rooms room).find key with
      | none => []
      | some part =>
          [.pop room key, .say room (hasLeft part.callsign (hub.rooms room).name) none]

def sendEffects (room key : Nat) (text : Text) : List Effect :=
  match (hub.rooms room).find key with
  | none => []
  | some part => [.say room (quoted part.callsign text) none]

end Hub

namespace Floor

variable (floor : Floor) (c : Nat)

def joinEffects (roomName : Text) : List Effect :=
  floor.hub.enterEffects roomName (floor.clients c).call (wsKey floor.keys)

def leaveEffects (next : AfterLeave) : List Effect :=
  match (floor.clients c).conf, next with
  | some conf, _ => floor.hub.leaveEffects conf.name conf.key
  | none, .join roomName => floor.joinEffects c roomName
  | none, _ => []

def receiveEffects : Message → List Effect
  | .ping | .other => []
  | .join room =>
      let name := match room with
        | some name => if name = [] then defaultRoom else name
        | none => defaultRoom
      match (floor.clients c).conf with
      | some _ => floor.leaveEffects c (.join name)
      | none => floor.joinEffects c name
  | .message text =>
      match (floor.clients c).conf with
      | none => []
      | some conf =>
          let text := Text.strip text
          if text = [] then []
          else
            match floor.hub.table (norm conf.name) with
            | none => []
            | some room =>
                match wsInput text with
                | .reply | .again => []
                | .switch roomName => floor.leaveEffects c (.join roomName)
                | .say => floor.hub.sendEffects room conf.key text
  | .leave => floor.leaveEffects c .left

def effectsOf : FloorEvent → List Effect
  | .terminal event => [floor.hub.effectOf event]
  | .connect _ _ => []
  | .resume c =>
      match (floor.clients c).phase with
      | .waiting (.drained (.join roomName)) => floor.joinEffects c roomName
      | _ => []
  | .message c message => floor.receiveEffects c message
  | .closed c => floor.leaveEffects c .finish
  | .drain c =>
      match (floor.clients c).conf with
      | some conf => [.get conf.room conf.key]
      | none => []
  | .raise c =>
      match (floor.clients c).phase, (floor.clients c).conf with
      | .waiting (.drained .finish), _ => []
      | .waiting (.drained _), some conf => floor.hub.leaveEffects conf.name conf.key
      | .waiting (.drained _), none => []
      | _, _ => floor.leaveEffects c .finish

end Floor

section Rooms

variable {hub after : Hub} {floor next : Floor} {c : Nat}

@[simp] theorem rooms_maybeRemove (hub : Hub) (name : Text) :
    (hub.maybeRemove name).rooms = hub.rooms := by
  rw [Hub.maybeRemove]
  split
  · split <;> rfl
  · rfl

/-- A terminal session does one operation. -/
theorem rooms_step {event : Event} (stepped : step hub event = some after) :
    after.rooms = (hub.effectOf event).onRooms hub.rooms := by
  cases event with
  | enter s roomName callsign =>
      simp only [step] at stepped
      split at stepped
      · cases stepped
        rfl
      · cases stepped
  | raise s =>
      simp only [step] at stepped
      split at stepped
      · cases stepped
        rfl
      · cases stepped
  | wake s received input =>
      simp only [step] at stepped
      split at stepped
      · cases received with
        | true =>
            simp only [if_true] at stepped
            obtain ⟨room, got, rfl⟩ := Option.map_eq_some_iff.mp stepped
            simp only [Hub.effectOf, if_true, Effect.onRooms, got, Option.getD_some]
            rfl
        | false =>
            simp only [Bool.false_eq_true, if_false] at stepped
            split at stepped
            · cases stepped
              rfl
            · cases stepped
      · cases stepped
  | resume s =>
      simp only [step] at stepped
      split at stepped
      next await phase =>
        cases await with
        | wait => cases stepped
        | getRoom =>
            cases stepped
            cases found : hub.table (hub.sessions s).name <;>
              simp [Hub.effectOf, phase, Hub.getOrCreate, found, Hub.setPhase, Effect.onRooms]
        | remove =>
            cases stepped
            simp only [Hub.effectOf, phase]
            exact rooms_maybeRemove hub _
        | _ =>
            cases stepped
            simp only [Hub.effectOf, phase]
            rfl
      · cases stepped

theorem echo_broadcast (room : Room) (key : Nat) (text : Text) :
    (room.echo key text).broadcast text (some key) = room.broadcast text none := by
  simp only [Room.echo, Room.broadcast, List.map_map]
  congr 1
  refine List.map_congr_left fun part _ => ?_
  simp only [Function.comp_apply]
  by_cases mine : part.key = key
  · by_cases place : part.queue.length < queueDepth <;> simp [mine, place]
  · simp [mine]

theorem rooms_leaveRoomWs (hub : Hub) (roomName : Text) (key : Nat) :
    (hub.leaveRoomWs roomName key).rooms =
      (hub.leaveEffects roomName key).foldl Effect.onRooms hub.rooms := by
  simp only [Hub.leaveRoomWs, Hub.leaveEffects]
  cases hub.table (norm roomName) with
  | none => rfl
  | some room =>
      simp only [rooms_maybeRemove, Hub.leaveWs]
      cases (hub.rooms room).find key <;> rfl

theorem rooms_enterRoomWs (hub : Hub) (roomName call : Text) (key : Nat) :
    (hub.enterRoomWs roomName call key).1.rooms =
      (hub.enterEffects roomName call key).foldl Effect.onRooms hub.rooms := by
  simp only [Hub.enterRoomWs, Hub.enterEffects, Hub.foundingEffects, Hub.roomNamed]
  cases hub.table (norm roomName) with
  | some room => simp [Effect.onRooms, Hub.onRoom, Room.add]
  | none => simp [Effect.onRooms, Hub.onRoom, Room.add]

theorem rooms_sendWs (hub : Hub) (room key : Nat) (text : Text) :
    (hub.sendWs room key text).rooms =
      (hub.sendEffects room key text).foldl Effect.onRooms hub.rooms := by
  simp only [Hub.sendWs, Hub.sendEffects]
  cases (hub.rooms room).find key with
  | none => rfl
  | some part =>
      simp only [Hub.onRoom, Function.update_self, Function.update_idem, echo_broadcast,
        List.foldl_cons, List.foldl_nil, Effect.onRooms]

theorem rooms_joinConf (floor : Floor) (c : Nat) (roomName : Text) :
    (floor.joinConf c roomName).hub.rooms =
      (floor.joinEffects c roomName).foldl Effect.onRooms floor.hub.rooms :=
  rooms_enterRoomWs floor.hub roomName (floor.clients c).call (wsKey floor.keys)

theorem rooms_afterLeave (floor : Floor) (c : Nat) (roomName : Text) :
    (floor.afterLeave c (.join roomName)).hub.rooms =
      (floor.joinEffects c roomName).foldl Effect.onRooms floor.hub.rooms := by
  have same : (floor.setClient c { floor.clients c with conf := none }).joinEffects c roomName =
      floor.joinEffects c roomName := by
    simp [Floor.joinEffects, Floor.setClient]
  rw [← same]
  exact rooms_joinConf _ c roomName

theorem rooms_leaveConf (floor : Floor) (c : Nat) (next : AfterLeave) :
    (floor.leaveConf c next).hub.rooms =
      (floor.leaveEffects c next).foldl Effect.onRooms floor.hub.rooms := by
  cases joined : (floor.clients c).conf with
  | some conf =>
      simp only [Floor.leaveConf, Floor.leaveEffects, joined]
      exact rooms_leaveRoomWs floor.hub conf.name conf.key
  | none =>
      cases next with
      | join roomName =>
          simp only [Floor.leaveConf, Floor.leaveEffects, joined]
          exact rooms_afterLeave floor c roomName
      | left =>
          simp only [Floor.leaveConf, Floor.leaveEffects, joined]
          rfl
      | finish =>
          simp only [Floor.leaveConf, Floor.leaveEffects, joined]
          rfl

theorem rooms_receive (floor : Floor) (c : Nat) (message : Message) :
    (floor.receive c message).hub.rooms =
      (floor.receiveEffects c message).foldl Effect.onRooms floor.hub.rooms := by
  cases message with
  | ping => rfl
  | other => rfl
  | leave => exact rooms_leaveConf floor c .left
  | join room =>
      simp only [Floor.receive, Floor.receiveEffects]
      split
      · exact rooms_leaveConf floor c _
      · exact rooms_joinConf floor c _
  | message text =>
      simp only [Floor.receive, Floor.receiveEffects]
      split
      · rfl
      next conf joined =>
        split
        · rfl
        · cases found : floor.hub.table (norm conf.name) with
          | none => rfl
          | some room =>
              cases input : wsInput (Text.strip text) with
              | reply => rfl
              | again => rfl
              | switch roomName => exact rooms_leaveConf floor c _
              | say => exact rooms_sendWs floor.hub _ _ _

/-- Every step does the operations it is said to do, in this order. -/
theorem rooms_floorStep {event : FloorEvent} (stepped : floor.step event = some next) :
    next.hub.rooms = (floor.effectsOf event).foldl Effect.onRooms floor.hub.rooms := by
  cases event with
  | terminal event =>
      simp only [Floor.step] at stepped
      split at stepped
      · obtain ⟨hub, moved, rfl⟩ := Option.map_eq_some_iff.mp stepped
        exact rooms_step moved
      · cases stepped
  | connect c call =>
      simp only [Floor.step] at stepped
      split at stepped
      · cases stepped
        rfl
      · cases stepped
  | resume c =>
      simp only [Floor.step] at stepped
      split at stepped
      next phase =>
        cases stepped
        simp only [Floor.effectsOf, phase]
        rfl
      next phase =>
        cases stepped
        simp only [Floor.effectsOf, phase]
        rfl
      next after phase =>
        cases stepped
        simp only [Floor.effectsOf, phase]
        cases after with
        | join roomName => exact rooms_afterLeave floor c roomName
        | left => rfl
        | finish => rfl
      · cases stepped
  | message c message =>
      simp only [Floor.step] at stepped
      split at stepped
      · cases stepped
        exact rooms_receive floor c message
      · cases stepped
  | closed c =>
      simp only [Floor.step] at stepped
      split at stepped
      · cases stepped
        exact rooms_leaveConf floor c .finish
      · cases stepped
  | drain c =>
      simp only [Floor.step] at stepped
      split at stepped
      next conf joined =>
        obtain ⟨room, got, rfl⟩ := Option.map_eq_some_iff.mp stepped
        simp only [Floor.effectsOf, joined, List.foldl_cons, List.foldl_nil, Effect.onRooms, got,
          Option.getD_some]
        rfl
      · cases stepped
  | raise c =>
      cases phase : (floor.clients c).phase with
      | absent => simp [Floor.step, phase] at stepped
      | ended => simp [Floor.step, phase] at stepped
      | waiting await =>
          cases await with
          | hello | recv | send =>
              simp only [Floor.step, phase, Option.some.injEq] at stepped
              rw [← stepped]
              simp only [Floor.effectsOf, phase]
              exact rooms_leaveConf floor c .finish
          | drained after =>
              cases joined : (floor.clients c).conf with
              | none =>
                  cases after <;>
                    simp only [Floor.step, phase, joined, Option.some.injEq] at stepped <;>
                    rw [← stepped] <;> simp only [Floor.effectsOf, phase, joined] <;> rfl
              | some conf =>
                  cases after with
                  | finish =>
                      simp only [Floor.step, phase, Option.some.injEq] at stepped
                      rw [← stepped]
                      simp only [Floor.effectsOf, phase]
                      rfl
                  | join roomName | left =>
                      simp only [Floor.step, phase, joined, Option.some.injEq] at stepped
                      rw [← stepped]
                      simp only [Floor.effectsOf, phase, joined]
                      exact rooms_leaveRoomWs floor.hub conf.name conf.key

end Rooms

end PyBulletin.Transport.Conference
