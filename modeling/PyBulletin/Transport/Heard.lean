import PyBulletin.Transport.WebChat

set_option autoImplicit false

namespace PyBulletin.Transport.Conference

open PyBulletin.Foundation

/-! # What the participants hear

A run of the rooms with the record beside it, which no step looks at.
-/

structure Recorded where
  floor : Floor
  chat : Chat

namespace Recorded

def step (recorded : Recorded) (event : FloorEvent) : Option Recorded :=
  (recorded.floor.step event).map fun floor =>
    ⟨floor, (recorded.floor.effectsOf event).foldl Chat.apply recorded.chat⟩

def empty : Recorded :=
  ⟨Floor.empty, ⟨Floor.empty.hub.rooms, fun _ => [], fun _ => none, fun _ => [], fun _ => 0⟩⟩

end Recorded

/-- The key that an operation adds to a room. -/
def Effect.adds : Effect → Option Nat
  | .add _ key _ => some key
  | _ => none

/-- The session has never been listed. -/
def Phase.outside : Phase → Bool
  | .absent | .waiting .getRoom | .waiting .join => true
  | _ => false

section Operations

variable {chat : Chat} {effect : Effect} {effects : List Effect} {key : Nat}

theorem rooms_foldl (effects : List Effect) (chat : Chat) :
    (effects.foldl Chat.apply chat).rooms = effects.foldl Effect.onRooms chat.rooms := by
  induction effects generalizing chat with
  | nil => rfl
  | cons effect effects ih =>
      have first : (chat.apply effect).rooms = effect.onRooms chat.rooms := by
        cases effect <;> rfl
      rw [List.foldl_cons, List.foldl_cons, ih, first]

theorem entered_apply (others : effect.adds ≠ some key) :
    (chat.apply effect).entered key = chat.entered key := by
  cases effect with
  | add room new call => exact Function.update_of_ne (fun same => others (congrArg some same.symm)) ..
  | nothing => rfl
  | create room name => rfl
  | say room text excludeKey => rfl
  | pop room new => rfl
  | get room new => rfl

theorem admits_of_quiet (quiet : effect.adds = none) : chat.Admits effect := by
  cases effect with
  | add room new call => cases quiet
  | _ => trivial

theorem Chat.Ordered.quiet (ordered : chat.Ordered) (quiet : ∀ effect ∈ effects, effect.adds = none) :
    (effects.foldl Chat.apply chat).Ordered ∧
      (effects.foldl Chat.apply chat).entered = chat.entered := by
  induction effects generalizing chat with
  | nil => exact ⟨ordered, rfl⟩
  | cons effect effects ih =>
      have none_ : effect.adds = none := quiet effect (by simp)
      obtain ⟨after, same⟩ := ih (ordered.apply (admits_of_quiet none_))
        fun other listed => quiet other (by simp [listed])
      refine ⟨after, same.trans ?_⟩
      funext key
      exact entered_apply (by simp [none_])

/-- A WebSocket participant comes in with a new key. -/
theorem Chat.Ordered.enter (ordered : chat.Ordered) (new : chat.entered key = none) (hub : Hub)
    (roomName call : Text) :
    ((hub.enterEffects roomName call key).foldl Chat.apply chat).Ordered ∧
      ∀ other, other ≠ key →
        ((hub.enterEffects roomName call key).foldl Chat.apply chat).entered other =
          chat.entered other := by
  have quiet : ∀ effect ∈ hub.foundingEffects (norm roomName), effect.adds = none := by
    intro effect listed
    rw [Hub.foundingEffects] at listed
    split at listed
    · cases listed
    · rw [List.mem_singleton.mp listed]
      rfl
  obtain ⟨founded, same⟩ := ordered.quiet quiet
  rw [Hub.enterEffects, List.foldl_append]
  refine ⟨(founded.add ?_).say, fun other differs => ?_⟩
  · rw [same]
    exact new
  · rw [← same]
    exact Function.update_of_ne differs ..

end Operations

section Keys

variable {hub after : Hub} {floor next : Floor} {s : Nat} {event : Event}

theorem outside_of_adds (adds : (hub.effectOf event).adds = some s) :
    s = event.session ∧ (hub.sessions s).phase.outside := by
  cases event with
  | enter s' roomName callsign => cases adds
  | raise s' => cases adds
  | wake s' received input =>
      simp only [Hub.effectOf] at adds
      split at adds <;> cases adds
  | resume s' =>
      cases phase : (hub.sessions s').phase with
      | absent => simp [Hub.effectOf, phase, Effect.adds] at adds
      | ended raised => simp [Hub.effectOf, phase, Effect.adds] at adds
      | waiting await =>
          cases await with
          | getRoom =>
              simp only [Hub.effectOf, phase] at adds
              split at adds <;> cases adds
          | join =>
              simp only [Hub.effectOf, phase, Effect.adds, Option.some.injEq] at adds
              subst adds
              exact ⟨rfl, by rw [phase]; rfl⟩
          | _ => simp [Hub.effectOf, phase, Effect.adds] at adds

theorem handle_inside (call : Text) (input : Option Input) :
    (Phase.waiting (handle call input)).outside = false := by
  rcases input with - | text | - | - <;> try rfl
  rw [handle]
  cases command text <;> rfl

/-- A terminal session steps, and once listed it does not become new again. -/
theorem sessions_step (stepped : step hub event = some after) :
    ∃ session, after.sessions = Function.update hub.sessions event.session session ∧
      (session.phase.outside → (hub.sessions event.session).phase.outside ∧
        (hub.effectOf event).adds = none) := by
  cases event with
  | enter s' roomName callsign =>
      simp only [step] at stepped
      split at stepped
      next absent =>
        cases stepped
        exact ⟨_, rfl, fun _ => ⟨by rw [Event.session, absent]; rfl, rfl⟩⟩
      · cases stepped
  | raise s' =>
      simp only [step] at stepped
      split at stepped
      next await phase =>
        cases stepped
        refine ⟨_, rfl, fun outside => ?_⟩
        cases await <;> cases outside
      · cases stepped
  | wake s' received input =>
      simp only [step] at stepped
      split at stepped
      · split at stepped
        · obtain ⟨room, got, rfl⟩ := Option.map_eq_some_iff.mp stepped
          exact ⟨_, rfl, fun outside => by cases outside⟩
        · split at stepped
          · cases stepped
            exact ⟨_, rfl, fun outside => by rw [handle_inside] at outside; cases outside⟩
          · cases stepped
      · cases stepped
  | resume s' =>
      simp only [step] at stepped
      split at stepped
      next await phase =>
        cases await with
        | wait => cases stepped
        | getRoom =>
            cases stepped
            have here : (hub.sessions s').phase.outside := by rw [phase]; rfl
            cases found : hub.table (hub.sessions s').name with
            | some room =>
                refine ⟨{ hub.sessions s' with phase := .waiting .join, room }, ?_, ?_⟩
                · simp [Hub.getOrCreate, found, Hub.setPhase, Event.session]
                · exact fun _ => ⟨here, by simp [Hub.effectOf, phase, found, Effect.adds]⟩
            | none =>
                refine ⟨{ hub.sessions s' with phase := .waiting .join, room := hub.count }, ?_, ?_⟩
                · simp [Hub.getOrCreate, found, Hub.setPhase, Event.session]
                · exact fun _ => ⟨here, by simp [Hub.effectOf, phase, found, Effect.adds]⟩
        | remove =>
            cases stepped
            refine ⟨{ hub.sessions s' with phase := .ended false }, ?_, fun outside => by cases outside⟩
            rw [Hub.setPhase, (hub.maybeRemove_kept (hub.sessions s').name).2.2]
            rfl
        | deliver input =>
            cases stepped
            exact ⟨_, rfl, fun outside => by rw [handle_inside] at outside; cases outside⟩
        | left raised =>
            cases stepped
            refine ⟨_, rfl, fun outside => ?_⟩
            cases raised <;> cases outside
        | _ =>
            cases stepped
            exact ⟨_, rfl, fun outside => by cases outside⟩
      · cases stepped

end Keys

/-- A client leaves the terminal sessions alone, and adds no key that was given before. -/
inductive Floor.Turns (floor next : Floor) (effects : List Effect) : Prop where
  | quiet (sessions : next.hub.sessions = floor.hub.sessions) (keys : next.keys = floor.keys)
      (silent : ∀ effect ∈ effects, effect.adds = none)
  | joins (sessions : next.hub.sessions = floor.hub.sessions) (keys : next.keys = floor.keys + 1)
      (roomName call : Text)
      (enters : effects = floor.hub.enterEffects roomName call (wsKey floor.keys))

namespace Floor

variable {floor next : Floor} {c : Nat}

theorem Turns.rest {clients : Nat → Client} : floor.Turns ⟨floor.hub, clients, floor.keys⟩ [] :=
  .quiet rfl rfl fun _ listed => by cases listed

theorem sessions_leaveRoomWs (hub : Hub) (roomName : Text) (key : Nat) :
    (hub.leaveRoomWs roomName key).sessions = hub.sessions := by
  rw [Hub.leaveRoomWs]
  split
  · rfl
  · rw [(Hub.maybeRemove_kept _ _).2.2, Hub.leaveWs]
    split <;> rfl

theorem sessions_sendWs (hub : Hub) (room key : Nat) (text : Text) :
    (hub.sendWs room key text).sessions = hub.sessions := by
  rw [Hub.sendWs]
  split <;> rfl

theorem sessions_enterRoomWs (hub : Hub) (roomName call : Text) (key : Nat) :
    (hub.enterRoomWs roomName call key).1.sessions = hub.sessions := by
  simp only [Hub.enterRoomWs, Hub.roomNamed]
  cases hub.table (norm roomName) <;> rfl

theorem quiet_leaveEffects (hub : Hub) (roomName : Text) (key : Nat) :
    ∀ effect ∈ hub.leaveEffects roomName key, effect.adds = none := by
  intro effect listed
  simp only [Hub.leaveEffects] at listed
  split at listed
  · cases listed
  · split at listed
    · cases listed
    · rcases List.mem_pair.mp listed with rfl | rfl <;> rfl

theorem Turns.leaves (floor : Floor) (clients : Nat → Client) (roomName : Text) (key : Nat) :
    floor.Turns ⟨floor.hub.leaveRoomWs roomName key, clients, floor.keys⟩
      (floor.hub.leaveEffects roomName key) :=
  .quiet (sessions_leaveRoomWs ..) rfl (quiet_leaveEffects _ _ _)

theorem turns_joinConf (floor : Floor) (c : Nat) (roomName : Text) :
    floor.Turns (floor.joinConf c roomName) (floor.joinEffects c roomName) :=
  .joins (sessions_enterRoomWs ..) rfl _ _ rfl

theorem turns_afterLeave (floor : Floor) (c : Nat) (roomName : Text) :
    floor.Turns (floor.afterLeave c (.join roomName)) (floor.joinEffects c roomName) :=
  .joins (sessions_enterRoomWs ..) rfl _ _ rfl

theorem turns_leaveConf (floor : Floor) (c : Nat) (next : AfterLeave) :
    floor.Turns (floor.leaveConf c next) (floor.leaveEffects c next) := by
  cases joined : (floor.clients c).conf with
  | some conf =>
      simp only [leaveConf, leaveEffects, joined]
      exact .leaves ..
  | none =>
      simp only [leaveConf, leaveEffects, joined]
      cases next with
      | join roomName => exact turns_afterLeave floor c roomName
      | left => exact .rest
      | finish => exact .rest

theorem turns_receive (floor : Floor) (c : Nat) (message : Message) :
    floor.Turns (floor.receive c message) (floor.receiveEffects c message) := by
  cases message with
  | ping => exact .rest
  | other => exact .rest
  | leave => exact turns_leaveConf floor c .left
  | join room =>
      simp only [receive, receiveEffects]
      split
      · exact turns_leaveConf floor c _
      · exact turns_joinConf floor c _
  | message text =>
      simp only [receive, receiveEffects]
      split
      · exact .rest
      next conf joined =>
        split
        · exact .rest
        · cases floor.hub.table (norm conf.name) with
          | none => exact .rest
          | some room =>
              cases wsInput (Text.strip text) with
              | reply => exact .rest
              | again => exact .rest
              | switch roomName => exact turns_leaveConf floor c _
              | say =>
                  refine .quiet (sessions_sendWs ..) rfl fun effect listed => ?_
                  simp only [Hub.sendEffects] at listed
                  split at listed
                  · cases listed
                  · rw [List.mem_singleton.mp listed]
                    rfl

theorem turns_step {event : FloorEvent} (web : ∀ terminal, event ≠ .terminal terminal)
    (stepped : floor.step event = some next) : floor.Turns next (floor.effectsOf event) := by
  cases event with
  | terminal event => exact absurd rfl (web event)
  | connect c call =>
      simp only [step] at stepped
      split at stepped
      · cases stepped
        exact .rest
      · cases stepped
  | resume c =>
      simp only [step] at stepped
      split at stepped
      next phase =>
        cases stepped
        simp only [effectsOf, phase]
        exact .rest
      next phase =>
        cases stepped
        simp only [effectsOf, phase]
        exact .rest
      next after phase =>
        cases stepped
        simp only [effectsOf, phase]
        cases after with
        | join roomName => exact turns_afterLeave floor c roomName
        | left => exact .rest
        | finish => exact .rest
      · cases stepped
  | message c message =>
      simp only [step] at stepped
      split at stepped
      · cases stepped
        exact turns_receive floor c message
      · cases stepped
  | closed c =>
      simp only [step] at stepped
      split at stepped
      · cases stepped
        exact turns_leaveConf floor c .finish
      · cases stepped
  | drain c =>
      simp only [step] at stepped
      split at stepped
      next conf joined =>
        obtain ⟨room, got, rfl⟩ := Option.map_eq_some_iff.mp stepped
        simp only [effectsOf, joined]
        refine .quiet rfl rfl fun effect listed => ?_
        rw [List.mem_singleton.mp listed]
        rfl
      · cases stepped
  | raise c =>
      cases phase : (floor.clients c).phase with
      | absent => simp [step, phase] at stepped
      | ended => simp [step, phase] at stepped
      | waiting await =>
          cases await with
          | hello | recv | send =>
              simp only [step, phase, Option.some.injEq] at stepped
              rw [← stepped]
              simp only [effectsOf, phase]
              exact turns_leaveConf floor c .finish
          | drained after =>
              cases joined : (floor.clients c).conf with
              | none =>
                  cases after <;> simp only [step, phase, joined, Option.some.injEq] at stepped <;>
                    rw [← stepped] <;> simp only [effectsOf, phase, joined] <;> exact .rest
              | some conf =>
                  cases after with
                  | finish =>
                      simp only [step, phase, Option.some.injEq] at stepped
                      rw [← stepped]
                      simp only [effectsOf, phase]
                      exact .rest
                  | join roomName | left =>
                      simp only [step, phase, joined, Option.some.injEq] at stepped
                      rw [← stepped]
                      simp only [effectsOf, phase, joined]
                      exact .leaves ..

end Floor

/-- The record is of these rooms, and the keys that may still be added are not in it. -/
structure Recorded.Kept (recorded : Recorded) : Prop where
  rooms : recorded.chat.rooms = recorded.floor.hub.rooms
  ordered : recorded.chat.Ordered
  sessions : ∀ s, s % 2 = 0 → (recorded.floor.hub.sessions s).phase.outside →
    recorded.chat.entered s = none
  keys : ∀ n, recorded.floor.keys ≤ n → recorded.chat.entered (wsKey n) = none

namespace Recorded

variable {recorded next : Recorded}

theorem kept_empty : empty.Kept where
  rooms := rfl
  ordered :=
    { entered := fun _ _ listed => by cases listed
      nodup := fun _ => List.nodup_nil
      follows := fun _ _ listed => by cases listed
      heard := fun _ => List.Sublist.refl _
      starts := fun _ _ _ entered => by cases entered
      unused := fun _ _ => ⟨rfl, rfl⟩ }
  sessions _ _ _ := rfl
  keys _ _ := rfl

theorem Kept.terminal {event : Event} {hub : Hub} (kept : recorded.Kept)
    (even : event.session % 2 = 0) (stepped : Conference.step recorded.floor.hub event = some hub) :
    Kept ⟨{ recorded.floor with hub }, recorded.chat.apply (recorded.floor.hub.effectOf event)⟩ := by
  obtain ⟨session, sessions, stays⟩ := sessions_step stepped
  have adds (s : Nat) (differs : s ≠ event.session) :
      (recorded.floor.hub.effectOf event).adds ≠ some s :=
    fun adds => differs (outside_of_adds adds).1
  refine ⟨?_, kept.ordered.apply ?_, ?_, ?_⟩
  · have rooms := rooms_foldl [recorded.floor.hub.effectOf event] recorded.chat
    simp only [List.foldl_cons, List.foldl_nil, kept.rooms] at rooms
    exact rooms.trans (rooms_step stepped).symm
  · cases effect : recorded.floor.hub.effectOf event with
    | add room key call =>
        have adds : (recorded.floor.hub.effectOf event).adds = some key := by rw [effect]; rfl
        obtain ⟨rfl, outside⟩ := outside_of_adds adds
        exact kept.sessions _ even outside
    | _ => trivial
  · intro s evenly outside
    dsimp only at outside
    rw [sessions] at outside
    by_cases mine : s = event.session
    · subst mine
      rw [Function.update_self] at outside
      obtain ⟨before, none_⟩ := stays outside
      refine (entered_apply ?_).trans (kept.sessions _ evenly before)
      simp [none_]
    · rw [Function.update_of_ne mine] at outside
      exact (entered_apply (adds s mine)).trans (kept.sessions s evenly outside)
  · intro n new
    have odd : wsKey n ≠ event.session := by
      rw [wsKey]
      omega
    exact (entered_apply (adds _ odd)).trans (kept.keys n new)

theorem Kept.step {event : FloorEvent} (kept : recorded.Kept)
    (stepped : recorded.step event = some next) : next.Kept := by
  obtain ⟨floor, moved, rfl⟩ := Option.map_eq_some_iff.mp stepped
  by_cases terminal : ∃ own, event = .terminal own
  · obtain ⟨own, rfl⟩ := terminal
    simp only [Floor.step] at moved
    split at moved
    next even =>
      obtain ⟨hub, went, rfl⟩ := Option.map_eq_some_iff.mp moved
      exact kept.terminal even went
    · cases moved
  · have rooms := rooms_foldl (recorded.floor.effectsOf event) recorded.chat
    rw [kept.rooms, ← rooms_floorStep moved] at rooms
    cases Floor.turns_step (fun own same => terminal ⟨own, same⟩) moved with
    | quiet sessions keys silent =>
        obtain ⟨ordered, entered⟩ := kept.ordered.quiet silent
        refine ⟨rooms, ordered, fun s even outside => ?_, fun n new => ?_⟩
        · rw [sessions] at outside
          rw [entered]
          exact kept.sessions s even outside
        · rw [keys] at new
          rw [entered]
          exact kept.keys n new
    | joins sessions keys roomName call enters =>
        rw [enters] at rooms ⊢
        obtain ⟨ordered, entered⟩ :=
          kept.ordered.enter (kept.keys _ (Nat.le_refl _)) recorded.floor.hub roomName call
        refine ⟨rooms, ordered, fun s even outside => ?_, fun n new => ?_⟩
        · rw [sessions] at outside
          refine (entered s ?_).trans (kept.sessions s even outside)
          rw [wsKey]
          omega
        · rw [keys] at new
          refine (entered (wsKey n) ?_).trans (kept.keys n (by omega))
          simp only [wsKey, ne_eq]
          omega

/-- In every run of terminal sessions and WebSocket clients, whoever is in a room has heard,
and has waiting in its queue, what was said there since it came, in this order and without what
came while its queue was full. -/
theorem heard_in_order {events : List FloorEvent} (completed : run step empty events = some recorded) :
    recorded.chat.rooms = recorded.floor.hub.rooms ∧
      (∀ key, (recorded.chat.heard key).Sublist (recorded.chat.said key)) ∧
      ∀ room, ∀ part ∈ (recorded.floor.hub.rooms room).parts,
        (recorded.chat.heard part.key ++ part.queue).Sublist (recorded.chat.said part.key) ∧
        (recorded.chat.heard part.key).length + part.queue.length +
          recorded.chat.missed part.key = (recorded.chat.said part.key).length ∧
        part.queue.length ≤ queueDepth ∧
        (recorded.chat.missed part.key = 0 →
          recorded.chat.heard part.key ++ part.queue = recorded.chat.said part.key) := by
  have kept : recorded.Kept :=
    run_preserves (fun _ _ _ kept stepped => kept.step stepped) kept_empty completed
  refine ⟨kept.rooms, kept.ordered.heard, fun room part listed => ?_⟩
  rw [← kept.rooms] at listed
  have follows := kept.ordered.follows room part listed
  exact ⟨follows.order, follows.counted, follows.bounded, follows.whole⟩

/-- A client joins a room, a terminal session comes in, and the client says something. -/
private def meeting : List FloorEvent :=
  [.connect 0 "AB1C", .resume 0, .message 0 (.join none), .resume 0,
    .terminal (.enter 0 "conf" "XY2Z"), .terminal (.resume 0), .terminal (.resume 0),
    .terminal (.resume 0), .terminal (.resume 0), .drain 0, .message 0 (.message "Hi")]

theorem heard_in_order_meeting : ∃ recorded, run step empty meeting = some recorded ∧
    recorded.chat.heard 1 ++ ["[AB1C] Hi\r\n".toList] = recorded.chat.said 1 ∧
      recorded.chat.heard 1 = ["*** XY2Z has joined CONF\r\n".toList] := by
  obtain ⟨recorded, completed, listed, missed, heard⟩ :
      ∃ recorded, run step empty meeting = some recorded ∧
        ⟨1, "AB1C", ["[AB1C] Hi\r\n".toList]⟩ ∈ (recorded.floor.hub.rooms 0).parts ∧
        recorded.chat.missed 1 = 0 ∧
        recorded.chat.heard 1 = ["*** XY2Z has joined CONF\r\n".toList] :=
    ⟨_, rfl, by decide, by decide, by decide⟩
  exact ⟨recorded, completed, ((heard_in_order completed).2.2 0 _ listed).2.2.2 missed, heard⟩

end Recorded

end PyBulletin.Transport.Conference
