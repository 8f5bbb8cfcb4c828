import Mathlib.Logic.Function.Basic
import PyBulletin.Foundation.Lines
import PyBulletin.Foundation.Run

set_option autoImplicit false

namespace PyBulletin.Transport.Conference

open PyBulletin.Foundation

/-! # Conference rooms

Sessions of terminals in `enter_room`, each at the `await` it waits for.  The body of an
`async with` on a lock awaits nothing, so that locks are not part of the state; a session
may still be cancelled where it asks for one. -/

def defaultRoom : Text := "CONF"

/-- `_QUEUE_DEPTH` -/
def queueDepth : Nat := 64

def exitCmds : List Text := ["/Q", "/EXIT", "/X", "B", "BYE", "Q", "QUIT"]

def whoCmds : List Text := ["/WHO", "/W"]

def listCmds : List Text := ["/ROOMS", "/L"]

/-- `_norm` -/
def norm (name : Text) : Text :=
  let cleaned := ((Text.upper name).filter fun c => c.isUpper ∨ c.isDigit).take 16
  if cleaned = [] then defaultRoom else cleaned

/-- A participant, with the number of its session as its key. -/
structure Participant where
  key : Nat
  callsign : Text
  queue : List Text
deriving DecidableEq

structure Room where
  name : Text
  parts : List Participant
deriving DecidableEq

namespace Room

variable (room : Room)

def keys : List Nat := room.parts.map Participant.key

/-- `put_nowait` on each queue that is not full. -/
def broadcast (text : Text) (excludeKey : Option Nat) : Room :=
  { room with
    parts := room.parts.map fun part =>
      if some part.key ≠ excludeKey ∧ part.queue.length < queueDepth then
        { part with queue := part.queue ++ [text] }
      else part }

def add (part : Participant) : Room := { room with parts := room.parts ++ [part] }

def pop (key : Nat) : Room := { room with parts := room.parts.filter (·.key ≠ key) }

/-- `queue.get()` of a participant. -/
def get (key : Nat) : Option Room :=
  if room.parts.any fun part => part.key = key ∧ part.queue ≠ [] then
    some { room with
      parts := room.parts.map fun part =>
        if part.key = key then { part with queue := part.queue.tail } else part }
  else none

end Room

/-- How the read of a line ends. -/
inductive Input where
  | line (text : Text)
  | error
  | cancelled

/-- The `await`s of `enter_room`, `run_session` and `_run_loop`.  Behind the loop, `raised`
says that an exception is on its way. -/
inductive Await where
  | getRoom
  | join
  | welcome
  | announce
  | wait
  | deliver (input : Option Input)
  | who
  | whoList
  | rooms
  | echo (msg : Text)
  | say (msg : Text)
  | leave (raised : Bool)
  | farewell (raised : Bool)
  | left (raised : Bool)
  | remove

inductive Phase where
  | absent
  | waiting (await : Await)
  | ended (raised : Bool)

structure Session where
  phase : Phase
  call : Text
  name : Text
  room : Nat

inductive Command where
  | leave
  | who
  | rooms
  | again
  | say (text : Text)

/-- What `_run_loop` makes of a line. -/
def command (line : Text) : Command :=
  let stripped := Text.strip line
  let upper := Text.upper stripped
  if upper ∈ exitCmds then .leave
  else if upper ∈ whoCmds then .who
  else if upper ∈ listCmds then .rooms
  else if ("/J " : Text).isPrefixOf upper ∨ ("/JOIN " : Text).isPrefixOf upper then
    match Text.splitWord stripped with
    | some (_, some room) => if Text.strip room ≠ [] then .leave else .again
    | _ => .again
  else if stripped = [] ∨ upper = ("\x1a" : Text) then .again
  else .say stripped

/-- The `await` that the end of a read leads to. -/
def handle (call : Text) : Option Input → Await
  | none => .wait
  | some .error => .leave false
  | some .cancelled => .leave true
  | some (.line text) =>
      match command text with
      | .leave => .leave false
      | .who => .who
      | .rooms => .rooms
      | .again => .wait
      | .say text => .echo ("[".toList ++ call ++ "] ".toList ++ text ++ "\r\n".toList)

/-- Where an exception at an `await` leads: out of `enter_room`, or into the `finally`. -/
def Await.raised : Await → Phase
  | .getRoom | .join | .welcome | .announce => .ended true
  | .wait | .deliver _ | .who | .whoList | .rooms | .echo _ | .say _ => .waiting (.leave true)
  | .leave _ | .farewell _ | .left _ | .remove => .ended true

structure Hub where
  table : Text → Option Nat
  rooms : Nat → Room
  count : Nat
  sessions : Nat → Session

namespace Hub

variable (hub : Hub) (s : Nat)

def setPhase (phase : Phase) : Hub :=
  { hub with sessions := Function.update hub.sessions s { hub.sessions s with phase } }

@[simp] theorem phase_setPhase (phase : Phase) :
    ((hub.setPhase s phase).sessions s).phase = phase := by
  simp [setPhase]

/-- Changes the room a session is in. -/
def setRoom (f : Room → Room) : Hub :=
  { hub with
    rooms := Function.update hub.rooms (hub.sessions s).room (f (hub.rooms (hub.sessions s).room)) }

@[simp] theorem rooms_setRoom_self (f : Room → Room) :
    (hub.setRoom s f).rooms (hub.sessions s).room = f (hub.rooms (hub.sessions s).room) :=
  Function.update_self ..

theorem rooms_setRoom_of_ne {room : Nat} (other : room ≠ (hub.sessions s).room)
    (f : Room → Room) : (hub.setRoom s f).rooms room = hub.rooms room :=
  Function.update_of_ne other ..

/-- `_get_or_create` for the name the session asks for. -/
def getOrCreate : Hub :=
  let session := hub.sessions s
  match hub.table session.name with
  | some room => { hub with sessions := Function.update hub.sessions s { session with room } }
  | none =>
      { table := Function.update hub.table session.name (some hub.count)
        rooms := Function.update hub.rooms hub.count ⟨session.name, []⟩
        count := hub.count + 1
        sessions := Function.update hub.sessions s { session with room := hub.count } }

/-- `_maybe_remove` -/
def maybeRemove (name : Text) : Hub :=
  match hub.table name with
  | some room =>
      if (hub.rooms room).parts = [] then
        { hub with table := Function.update hub.table name none }
      else hub
  | none => hub

def joined : Text :=
  "*** ".toList ++ Text.upper (hub.sessions s).call ++ " has joined ".toList ++
    (hub.rooms (hub.sessions s).room).name ++ "\r\n".toList

def gone : Text :=
  "*** ".toList ++ Text.upper (hub.sessions s).call ++ " has left ".toList ++
    (hub.rooms (hub.sessions s).room).name ++ "\r\n".toList

/-- A session goes on behind an `await`.  `run_session` returns nothing, so that a room to
switch to is never one. -/
def resume : Await → Option Hub
  | .getRoom => some ((hub.getOrCreate s).setPhase s (.waiting .join))
  | .join =>
      let part : Participant := ⟨s, Text.upper (hub.sessions s).call, []⟩
      some ((hub.setRoom s (·.add part)).setPhase s (.waiting .welcome))
  | .welcome => some (hub.setPhase s (.waiting .announce))
  | .announce =>
      some ((hub.setRoom s (·.broadcast (hub.joined s) (some s))).setPhase s (.waiting .wait))
  | .wait => none
  | .deliver input =>
      some (hub.setPhase s (.waiting (handle (Text.upper (hub.sessions s).call) input)))
  | .who => some (hub.setPhase s (.waiting .whoList))
  | .whoList | .rooms => some (hub.setPhase s (.waiting .wait))
  | .echo msg => some (hub.setPhase s (.waiting (.say msg)))
  | .say msg => some ((hub.setRoom s (·.broadcast msg (some s))).setPhase s (.waiting .wait))
  | .leave raised =>
      some ((hub.setRoom s (·.pop s)).setPhase s (.waiting (.farewell raised)))
  | .farewell raised =>
      some ((hub.setRoom s (·.broadcast (hub.gone s) none)).setPhase s (.waiting (.left raised)))
  | .left raised => some (hub.setPhase s (if raised then .ended true else .waiting .remove))
  | .remove => some ((hub.maybeRemove (hub.sessions s).name).setPhase s (.ended false))

end Hub

inductive Event where
  | enter (s : Nat) (roomName callsign : Text)
  | resume (s : Nat)
  /-- The wait of the loop ends: with a text of the queue, the end of a read or both. -/
  | wake (s : Nat) (received : Bool) (input : Option Input)
  /-- The callback that is awaited raises, or the session is cancelled. -/
  | raise (s : Nat)

def step (hub : Hub) : Event → Option Hub
  | .enter s roomName callsign =>
      match (hub.sessions s).phase with
      | .absent =>
          some { hub with
            sessions := Function.update hub.sessions s
              ⟨.waiting .getRoom, callsign, norm roomName, 0⟩ }
      | _ => none
  | .resume s =>
      match (hub.sessions s).phase with
      | .waiting await => hub.resume s await
      | _ => none
  | .wake s received input =>
      match (hub.sessions s).phase with
      | .waiting .wait =>
          if received then
            ((hub.rooms (hub.sessions s).room).get s).map fun room =>
              (hub.setRoom s fun _ => room).setPhase s (.waiting (.deliver input))
          else if input.isSome then
            some (hub.setPhase s (.waiting (handle (Text.upper (hub.sessions s).call) input)))
          else none
      | _ => none
  | .raise s =>
      match (hub.sessions s).phase with
      | .waiting await => some (hub.setPhase s await.raised)
      | _ => none

/-- Nobody has entered a room. -/
def empty : Hub where
  table _ := none
  rooms _ := ⟨[], []⟩
  count := 0
  sessions _ := ⟨.absent, [], [], 0⟩

end PyBulletin.Transport.Conference
