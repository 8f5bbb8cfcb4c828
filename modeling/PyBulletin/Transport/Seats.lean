import PyBulletin.Transport.Heard

set_option autoImplicit false

namespace PyBulletin.Transport.Conference

open PyBulletin.Foundation

/-! # Where the clients are

A client is inside a room from the end of `enter_room_ws` to the start of `leave_room_ws`.
-/

def Client.inside (client : Client) : Option Conf :=
  match client.phase with
  | .waiting .hello | .waiting .recv | .waiting .send => client.conf
  | _ => none

/-- The rooms list the clients that are inside, and no other, each under a key of its own. -/
structure Floor.Seats (floor : Floor) : Prop where
  listed : ∀ c conf, (floor.clients c).inside = some conf →
    floor.hub.table (norm conf.name) = some conf.room ∧ conf.key ∈ (floor.hub.rooms conf.room).keys
  known : ∀ room key, key % 2 = 1 → key ∈ (floor.hub.rooms room).keys →
    ∃ c conf, (floor.clients c).inside = some conf ∧ conf.key = key ∧ conf.room = room
  given : ∀ c conf, (floor.clients c).conf = some conf → ∃ n, n < floor.keys ∧ conf.key = wsKey n
  apart : ∀ c d conf other, (floor.clients c).conf = some conf →
    (floor.clients d).conf = some other → conf.key = other.key → c = d
  numbered : ∀ name room, floor.hub.table name = some room → room < floor.hub.count

theorem Client.conf_of_inside {client : Client} {conf : Conf} (inside : client.inside = some conf) :
    client.conf = some conf := by
  rw [Client.inside] at inside
  split at inside
  · exact inside
  · exact inside
  · exact inside
  · cases inside

theorem wsKey_odd (n : Nat) : wsKey n % 2 = 1 := by
  rw [wsKey]
  omega

section Keys

variable {hub after : Hub} {room key other : Nat}

theorem keys_echo (room : Room) (key : Nat) (text : Text) : (room.echo key text).keys = room.keys := by
  rw [Room.keys, Room.echo, List.map_map]
  refine List.map_congr_left fun part _ => ?_
  simp only [Function.comp_apply]
  split <;> rfl

theorem mem_keys_add (room : Room) (part : Participant) :
    other ∈ (room.add part).keys ↔ other ∈ room.keys ∨ other = part.key := by
  simp [Room.add, Room.keys]

theorem mem_keys_pop (room : Room) : other ∈ (room.pop key).keys ↔ other ∈ room.keys ∧ other ≠ key := by
  simp only [Room.pop, Room.keys, List.mem_map, List.mem_filter, decide_eq_true_eq]
  constructor
  · rintro ⟨part, ⟨among, differs⟩, rfl⟩
    exact ⟨⟨part, among, rfl⟩, differs⟩
  · rintro ⟨⟨part, among, rfl⟩, differs⟩
    exact ⟨part, ⟨among, differs⟩, rfl⟩

theorem keys_onRoom {f : Room → Room} (same : (f (hub.rooms room)).keys = (hub.rooms room).keys)
    (at_ : Nat) : ((hub.onRoom room f).rooms at_).keys = (hub.rooms at_).keys := by
  by_cases here : at_ = room
  · simp only [here, Hub.onRoom, Function.update_self, same]
  · simp only [Hub.onRoom, Function.update_of_ne here]

theorem mem_of_find {room : Room} {part : Participant} (found : room.find key = some part) :
    key ∈ room.keys := by
  have mine : part.key = key := by
    have holds := List.find?_some found
    simpa using holds
  rw [← mine]
  exact List.mem_map_of_mem (List.mem_of_find?_eq_some found)

theorem find_of_mem {room : Room} (listed : key ∈ room.keys) : ∃ part, room.find key = some part := by
  obtain ⟨part, among, mine⟩ := List.mem_map.mp listed
  cases found : room.find key with
  | some part => exact ⟨part, rfl⟩
  | none =>
      have nobody := List.find?_eq_none.mp found part among
      simp [mine] at nobody

/-- A key leaves the one room where it can be. -/
theorem mem_leaveRoomWs (name : Text)
    (only : ∀ at_, key ∈ (hub.rooms at_).keys → hub.table (norm name) = some at_) (at_ : Nat) :
    other ∈ ((hub.leaveRoomWs name key).rooms at_).keys ↔
      other ∈ (hub.rooms at_).keys ∧ other ≠ key := by
  have elsewhere (nowhere : key ∉ (hub.rooms at_).keys) :
      other ∈ (hub.rooms at_).keys ↔ other ∈ (hub.rooms at_).keys ∧ other ≠ key :=
    ⟨fun listed => ⟨listed, fun same => nowhere (same ▸ listed)⟩, And.left⟩
  rw [Hub.leaveRoomWs]
  split
  next none_ =>
    refine elsewhere fun listed => ?_
    rw [only at_ listed] at none_
    cases none_
  next room found =>
    rw [rooms_maybeRemove, Hub.leaveWs]
    by_cases here : at_ = room
    · subst here
      split
      next nobody =>
        refine elsewhere fun listed => ?_
        obtain ⟨part, somebody⟩ := find_of_mem listed
        rw [somebody] at nobody
        cases nobody
      next part somebody =>
        simp only [Hub.onRoom, Function.update_self, Hub.keys_broadcast]
        exact mem_keys_pop _
    · have nowhere : key ∉ (hub.rooms at_).keys := fun listed =>
        here (Option.some.inj ((only at_ listed).symm.trans found))
      split
      · exact elsewhere nowhere
      · simp only [Hub.onRoom, Function.update_of_ne here]
        exact elsewhere nowhere

/-- A room that lists somebody stays in the table. -/
theorem table_keeps {name named : Text} (found : hub.table named = some room)
    (somebody : (hub.rooms room).parts ≠ []) : (hub.maybeRemove name).table named = some room := by
  rw [Hub.maybeRemove]
  split
  next there among =>
    split
    next nobody =>
      by_cases same : named = name
      · rw [same, among] at found
        cases found
        exact absurd nobody somebody
      · exact (Function.update_of_ne same ..).trans found
    · exact found
  · exact found

theorem parts_of_keys {room : Room} (listed : key ∈ room.keys) : room.parts ≠ [] := by
  intro nobody
  rw [Room.keys, nobody] at listed
  cases listed

end Keys

section Terminal

variable {hub after : Hub} {event : Event}

theorem table_step (stepped : step hub event = some after) :
    after.table = hub.table ∧ after.count = hub.count ∨
      (∃ name, hub.table name = none ∧
        after.table = Function.update hub.table name (some hub.count) ∧
        after.count = hub.count + 1) ∨
      ∃ name, after.table = (hub.maybeRemove name).table ∧ after.count = hub.count := by
  cases event with
  | enter s roomName callsign =>
      simp only [step] at stepped
      split at stepped
      · cases stepped
        exact .inl ⟨rfl, rfl⟩
      · cases stepped
  | raise s =>
      simp only [step] at stepped
      split at stepped
      · cases stepped
        exact .inl ⟨rfl, rfl⟩
      · cases stepped
  | wake s received input =>
      simp only [step] at stepped
      split at stepped
      · split at stepped
        · obtain ⟨room, got, rfl⟩ := Option.map_eq_some_iff.mp stepped
          exact .inl ⟨rfl, rfl⟩
        · split at stepped
          · cases stepped
            exact .inl ⟨rfl, rfl⟩
          · cases stepped
      · cases stepped
  | resume s =>
      simp only [step] at stepped
      split at stepped
      next await phase =>
        cases await with
        | wait => cases stepped
        | getRoom =>
            cases stepped
            cases found : hub.table (hub.sessions s).name with
            | some room =>
                refine .inl ?_
                simp [Hub.getOrCreate, found, Hub.setPhase]
            | none =>
                refine .inr (.inl ⟨_, found, ?_⟩)
                simp [Hub.getOrCreate, found, Hub.setPhase]
        | remove =>
            cases stepped
            exact .inr (.inr ⟨_, rfl, (Hub.maybeRemove_kept _ _).2.1⟩)
        | _ =>
            cases stepped
            exact .inl ⟨rfl, rfl⟩
      · cases stepped

/-- The operation founds the next room, or is about this one session. -/
def Effect.Within (hub : Hub) (s : Nat) : Effect → Prop
  | .create room _ => room = hub.count
  | .add _ key _ | .pop _ key => key = s
  | _ => True

theorem effectOf_within (hub : Hub) (event : Event) : (hub.effectOf event).Within hub event.session := by
  cases event with
  | enter s roomName callsign => trivial
  | raise s => trivial
  | wake s received input =>
      simp only [Hub.effectOf]
      split <;> trivial
  | resume s =>
      simp only [Hub.effectOf]
      split
      · split
        · trivial
        · rfl
      all_goals first | rfl | trivial

/-- The keys of other sessions stay where they are. -/
theorem mem_onRooms {effect : Effect} {s key : Nat} (within : effect.Within hub s)
    (other : key ≠ s) (unused : key ∉ (hub.rooms hub.count).keys) (room : Nat) :
    key ∈ (effect.onRooms hub.rooms room).keys ↔ key ∈ (hub.rooms room).keys := by
  cases effect with
  | nothing => exact Iff.rfl
  | create at_ name =>
      cases within
      by_cases here : room = hub.count
      · rw [here, Effect.onRooms, Function.update_self]
        constructor
        · intro listed
          cases listed
        · exact fun listed => absurd listed unused
      · rw [Effect.onRooms, Function.update_of_ne here]
  | add at_ new call =>
      cases within
      by_cases here : room = at_
      · rw [here, Effect.onRooms, Function.update_self, mem_keys_add]
        simp [other]
      · rw [Effect.onRooms, Function.update_of_ne here]
  | pop at_ old =>
      cases within
      by_cases here : room = at_
      · rw [here, Effect.onRooms, Function.update_self, mem_keys_pop]
        simp [other]
      · rw [Effect.onRooms, Function.update_of_ne here]
  | say at_ text excludeKey =>
      by_cases here : room = at_
      · rw [here, Effect.onRooms, Function.update_self, Hub.keys_broadcast]
      · rw [Effect.onRooms, Function.update_of_ne here]
  | get at_ reader =>
      by_cases here : room = at_
      · rw [here, Effect.onRooms, Function.update_self]
        cases got : (hub.rooms at_).get reader with
        | none => exact Iff.rfl
        | some after => rw [Option.getD_some, (Hub.get_keys got).1]
      · rw [Effect.onRooms, Function.update_of_ne here]

end Terminal

namespace Floor

variable {floor next : Floor} {c : Nat}

@[simp] theorem clients_setClient (floor : Floor) (c : Nat) (client : Client) :
    (floor.setClient c client).clients = Function.update floor.clients c client := rfl

theorem seats_empty : empty.Seats where
  listed c conf inside := by cases inside
  known room key odd listed := by cases listed
  given c conf joined := by cases joined
  apart c d conf other joined := by cases joined
  numbered name room found := by cases found

theorem Seats.unused (seats : floor.Seats) {key : Nat} (odd : key % 2 = 1) {room : Nat}
    (new : floor.hub.count ≤ room) : key ∉ (floor.hub.rooms room).keys := by
  intro listed
  obtain ⟨c, conf, inside, -, rfl⟩ := seats.known room key odd listed
  have old := seats.numbered _ _ (seats.listed c conf inside).1
  omega

theorem Seats.around (seats : floor.Seats) {hub : Hub}
    (keys : ∀ room key, key % 2 = 1 →
      (key ∈ (hub.rooms room).keys ↔ key ∈ (floor.hub.rooms room).keys))
    (table : ∀ name room, floor.hub.table name = some room → (floor.hub.rooms room).parts ≠ [] →
      hub.table name = some room)
    (numbered : ∀ name room, hub.table name = some room → room < hub.count) :
    Seats { floor with hub } where
  listed c conf inside := by
    obtain ⟨found, listed⟩ := seats.listed c conf inside
    obtain ⟨n, -, same⟩ := seats.given c conf (Client.conf_of_inside inside)
    have odd : conf.key % 2 = 1 := by rw [same]; exact wsKey_odd n
    exact ⟨table _ _ found (parts_of_keys listed), (keys _ _ odd).mpr listed⟩
  known room key odd listed := seats.known room key odd ((keys room key odd).mp listed)
  given := seats.given
  apart := seats.apart
  numbered := numbered

theorem Seats.terminal (seats : floor.Seats) {event : Event} {hub : Hub}
    (even : event.session % 2 = 0) (stepped : Conference.step floor.hub event = some hub) :
    Seats { floor with hub } := by
  refine seats.around ?_ ?_ ?_
  · intro room key odd
    have other : key ≠ event.session := by
      intro same
      omega
    rw [rooms_step stepped]
    exact mem_onRooms (effectOf_within floor.hub event) other (seats.unused odd (Nat.le_refl _)) room
  · intro name room found somebody
    rcases table_step stepped with ⟨table, -⟩ | ⟨new, none_, table, -⟩ | ⟨removed, table, -⟩
    · rw [table]
      exact found
    · rw [table]
      by_cases same : name = new
      · rw [same, none_] at found
        cases found
      · exact (Function.update_of_ne same ..).trans found
    · rw [table]
      exact table_keeps found somebody
  · intro name room found
    rcases table_step stepped with ⟨table, count⟩ | ⟨new, -, table, count⟩ | ⟨removed, table, count⟩
    · rw [table] at found
      rw [count]
      exact seats.numbered name room found
    · rw [table] at found
      rw [count]
      by_cases same : name = new
      · rw [same, Function.update_self] at found
        cases found
        exact Nat.lt_succ_self _
      · rw [Function.update_of_ne same] at found
        exact Nat.lt_succ_of_lt (seats.numbered name room found)
    · rw [table] at found
      rw [count]
      exact seats.numbered name room (Hub.table_maybeRemove found).1

theorem Seats.goes (seats : floor.Seats) {client : Client}
    (conf : ∀ conf, client.conf = some conf → (floor.clients c).conf = some conf)
    (inside : client.inside = (floor.clients c).inside) : (floor.setClient c client).Seats := by
  have inner (d : Nat) :
      ((floor.setClient c client).clients d).inside = (floor.clients d).inside := by
    by_cases mine : d = c
    · rw [mine, clients_setClient, Function.update_self, inside]
    · rw [clients_setClient, Function.update_of_ne mine]
  have joined (d : Nat) (own : Conf) (joined : ((floor.setClient c client).clients d).conf = some own) :
      (floor.clients d).conf = some own := by
    by_cases mine : d = c
    · subst mine
      rw [clients_setClient, Function.update_self] at joined
      exact conf own joined
    · rw [clients_setClient, Function.update_of_ne mine] at joined
      exact joined
  refine ⟨?_, ?_, ?_, ?_, seats.numbered⟩
  · intro d own within
    rw [inner] at within
    exact seats.listed d own within
  · intro room key odd listed
    obtain ⟨d, own, within, same⟩ := seats.known room key odd listed
    exact ⟨d, own, (inner d).trans within, same⟩
  · exact fun d own holds => seats.given d own (joined d own holds)
  · exact fun d e own other holds also same =>
      seats.apart d e own other (joined d own holds) (joined e other also) same

theorem Seats.leaves (seats : floor.Seats) {conf : Conf} (joined : (floor.clients c).conf = some conf)
    {client : Client} (same : client.conf = some conf) (outside : client.inside = none) :
    Seats ({ floor with hub := floor.hub.leaveRoomWs conf.name conf.key }.setClient c client) := by
  obtain ⟨n, -, key⟩ := seats.given c conf joined
  have odd : conf.key % 2 = 1 := by rw [key]; exact wsKey_odd n
  have only (room : Nat) (listed : conf.key ∈ (floor.hub.rooms room).keys) :
      floor.hub.table (norm conf.name) = some room := by
    obtain ⟨d, own, inside, sameKey, rfl⟩ := seats.known room _ odd listed
    obtain rfl := seats.apart d c own conf (Client.conf_of_inside inside) joined sameKey
    rw [Client.conf_of_inside inside] at joined
    cases joined
    exact (seats.listed d conf inside).1
  have keys (room other : Nat) := @mem_leaveRoomWs floor.hub conf.key other conf.name only room
  have others (d : Nat) (differs : d ≠ c) {own : Conf} (inside : (floor.clients d).inside = some own) :
      own.key ≠ conf.key :=
    fun sameKey => differs (seats.apart d c own conf (Client.conf_of_inside inside) joined sameKey)
  have kept (d : Nat) (held : Conf)
      (holds : (Function.update floor.clients c client d).conf = some held) :
      (floor.clients d).conf = some held := by
    by_cases mine : d = c
    · subst mine
      rw [Function.update_self, same] at holds
      rw [joined, holds]
    · rw [Function.update_of_ne mine] at holds
      exact holds
  have table : ∃ left : Hub, (floor.hub.leaveRoomWs conf.name conf.key) = left.maybeRemove (norm conf.name) ∧
      left.table = floor.hub.table ∧ left.count = floor.hub.count := by
    rw [Hub.leaveRoomWs]
    split
    next none_ => exact ⟨floor.hub, by rw [Hub.maybeRemove, none_], rfl, rfl⟩
    next room found =>
      refine ⟨_, rfl, ?_⟩
      rw [Hub.leaveWs]
      split <;> exact ⟨rfl, rfl⟩
  obtain ⟨left, leaves, table, count⟩ := table
  refine ⟨?_, ?_, ?_, ?_, ?_⟩
  · intro d held inside
    by_cases mine : d = c
    · subst mine
      rw [clients_setClient, Function.update_self, outside] at inside
      cases inside
    · rw [clients_setClient, Function.update_of_ne mine] at inside
      obtain ⟨found, listed⟩ := seats.listed d held inside
      have stays := (keys held.room held.key).mpr ⟨listed, others d mine inside⟩
      refine ⟨?_, stays⟩
      rw [leaves, rooms_maybeRemove] at stays
      dsimp only [setClient]
      rw [leaves]
      exact table_keeps (by rw [table]; exact found) (parts_of_keys stays)
  · intro room key odd listed
    obtain ⟨listed, differs⟩ := (keys room key).mp listed
    obtain ⟨d, held, inside, sameKey, here⟩ := seats.known room key odd listed
    have mine : d ≠ c := by
      rintro rfl
      rw [Client.conf_of_inside inside] at joined
      cases joined
      exact differs sameKey.symm
    exact ⟨d, held, by rw [clients_setClient, Function.update_of_ne mine]; exact inside, sameKey, here⟩
  · exact fun d held holds => seats.given d held (kept d held holds)
  · exact fun d e held other holds also sameKey =>
      seats.apart d e held other (kept d held holds) (kept e other also) sameKey
  · intro name room found
    dsimp only [setClient] at found ⊢
    rw [leaves] at found ⊢
    rw [(Hub.maybeRemove_kept _ _).2.1, count]
    have before := (Hub.table_maybeRemove found).1
    rw [table] at before
    exact seats.numbered name room before

end Floor

/-- The key is listed in the room of this name, which was in the table or is new. -/
structure Hub.Entered (hub after : Hub) (name : Text) (room key : Nat) : Prop where
  found : after.table name = some room
  table : ∀ other at_, hub.table other = some at_ → after.table other = some at_
  only : ∀ other at_, after.table other = some at_ → hub.table other = some at_ ∨ at_ = room
  fits : room < after.count
  count : hub.count ≤ after.count
  listed : key ∈ (after.rooms room).keys
  kept : ∀ at_ other, at_ < hub.count → other ∈ (hub.rooms at_).keys → other ∈ (after.rooms at_).keys
  among : ∀ at_ other, other ∈ (after.rooms at_).keys →
    other ∈ (hub.rooms at_).keys ∨ at_ = room ∧ other = key

/-- Somebody is added to a room of the table and announced there. -/
theorem Hub.entered_onRoom {hub : Hub} {name text : Text} {room key : Nat} {part : Participant}
    (found : hub.table name = some room) (fits : room < hub.count) (mine : part.key = key) :
    hub.Entered ((hub.onRoom room (·.add part)).onRoom room (·.broadcast text (some key)))
      name room key := by
  have keys (at_ : Nat) : (((hub.onRoom room (·.add part)).onRoom room
      (·.broadcast text (some key))).rooms at_).keys =
        if at_ = room then ((hub.rooms room).add part).keys else (hub.rooms at_).keys := by
    rw [keys_onRoom (keys_broadcast ..)]
    by_cases here : at_ = room
    · simp only [here, onRoom, Function.update_self, if_true]
    · simp only [here, onRoom, Function.update_of_ne here, if_false]
  refine ⟨found, fun _ _ same => same, fun _ _ same => .inl same, fits, Nat.le_refl _, ?_, ?_, ?_⟩
  · rw [keys, if_pos rfl, mem_keys_add]
    exact .inr mine.symm
  · intro at_ other _ before
    rw [keys]
    split
    next here =>
      rw [here] at before
      exact (mem_keys_add _ _).mpr (.inl before)
    · exact before
  · intro at_ other among
    rw [keys] at among
    split at among
    next here =>
      rw [mem_keys_add, mine] at among
      rw [here]
      exact among.imp_right fun same => ⟨rfl, same⟩
    · exact .inl among

theorem Hub.entered_enterRoomWs (hub : Hub) (roomName call : Text) (key : Nat)
    (numbered : ∀ name room, hub.table name = some room → room < hub.count) :
    hub.Entered (hub.enterRoomWs roomName call key).1 (norm roomName)
      (hub.enterRoomWs roomName call key).2 key := by
  cases found : hub.table (norm roomName) with
  | some room =>
      simp only [enterRoomWs, roomNamed, found]
      exact entered_onRoom found (numbered _ _ found) rfl
  | none =>
      simp only [enterRoomWs, roomNamed, found]
      have after := @entered_onRoom
        { hub with
          table := Function.update hub.table (norm roomName) (some hub.count)
          rooms := Function.update hub.rooms hub.count ⟨norm roomName, []⟩
          count := hub.count + 1 }
        (norm roomName) (hasJoined (Text.upper call) (norm roomName)) hub.count key
        ⟨key, Text.upper call, []⟩ (Function.update_self ..) (Nat.lt_succ_self _) rfl
      have named : (((⟨norm roomName, []⟩ : Room).add ⟨key, Text.upper call, []⟩)).name =
        norm roomName := rfl
      simp only [onRoom, Function.update_self, named] at after ⊢
      refine ⟨after.found, ?_, ?_, after.fits, Nat.le_succ _, after.listed, ?_, ?_⟩
      · intro other at_ before
        refine after.table other at_ ?_
        by_cases same : other = norm roomName
        · rw [same, found] at before
          cases before
        · exact (Function.update_of_ne same ..).trans before
      · intro other at_ there
        rcases after.only other at_ there with before | here
        · by_cases same : other = norm roomName
          · rw [same] at before
            dsimp only at before
            rw [Function.update_self] at before
            exact .inr (Option.some.inj before).symm
          · exact .inl ((Function.update_of_ne same ..).symm.trans before)
        · exact .inr here
      · intro at_ other old before
        refine after.kept at_ other (Nat.lt_succ_of_lt old) ?_
        dsimp only
        rw [Function.update_of_ne (Nat.ne_of_lt old)]
        exact before
      · intro at_ other there
        rcases after.among at_ other there with before | here
        · by_cases new : at_ = hub.count
          · subst new
            dsimp only at before
            rw [Function.update_self] at before
            cases before
          · dsimp only at before
            rw [Function.update_of_ne new] at before
            exact .inl before
        · exact .inr here

namespace Floor

variable {floor next : Floor} {c : Nat}

theorem Seats.joins (seats : floor.Seats) (outside : (floor.clients c).inside = none)
    (roomName : Text) : (floor.joinConf c roomName).Seats := by
  have entered := floor.hub.entered_enterRoomWs roomName (floor.clients c).call (wsKey floor.keys)
    seats.numbered
  simp only [joinConf]
  generalize floor.hub.enterRoomWs roomName (floor.clients c).call (wsKey floor.keys) = result
    at entered ⊢
  obtain ⟨hub, room⟩ := result
  have old (d : Nat) (conf : Conf) (joined : (floor.clients d).conf = some conf) :
      conf.key ≠ wsKey floor.keys := by
    obtain ⟨n, before, same⟩ := seats.given d conf joined
    rw [same]
    simp only [wsKey, ne_eq]
    omega
  refine ⟨?_, ?_, ?_, ?_, ?_⟩
  · intro d conf inside
    by_cases mine : d = c
    · subst mine
      simp only [Function.update_self, Client.inside, Option.some.injEq] at inside
      rw [← inside]
      exact ⟨entered.found, entered.listed⟩
    · simp only [Function.update_of_ne mine] at inside
      obtain ⟨found, listed⟩ := seats.listed d conf inside
      exact ⟨entered.table _ _ found,
        entered.kept _ _ (seats.numbered _ _ found) listed⟩
  · intro at_ key odd listed
    rcases entered.among at_ key listed with before | ⟨rfl, rfl⟩
    · obtain ⟨d, conf, inside, same⟩ := seats.known at_ key odd before
      have mine : d ≠ c := by
        rintro rfl
        rw [outside] at inside
        cases inside
      exact ⟨d, conf, by simp only [Function.update_of_ne mine]; exact inside, same⟩
    · exact ⟨c, _, by simp only [Function.update_self]; rfl, rfl, rfl⟩
  · intro d conf joined
    by_cases mine : d = c
    · subst mine
      simp only [Function.update_self, Option.some.injEq] at joined
      rw [← joined]
      exact ⟨floor.keys, Nat.lt_succ_self _, rfl⟩
    · simp only [Function.update_of_ne mine] at joined
      obtain ⟨n, before, same⟩ := seats.given d conf joined
      exact ⟨n, Nat.lt_succ_of_lt before, same⟩
  · intro d e conf other joined also same
    by_cases mine : d = c
    · by_cases too : e = c
      · rw [mine, too]
      · subst mine
        simp only [Function.update_self, Function.update_of_ne too, Option.some.injEq] at joined also
        rw [← joined] at same
        exact absurd same.symm (old e other also)
    · by_cases too : e = c
      · subst too
        simp only [Function.update_self, Function.update_of_ne mine, Option.some.injEq] at joined also
        rw [← also] at same
        exact absurd same (old d conf joined)
      · simp only [Function.update_of_ne mine, Function.update_of_ne too] at joined also
        exact seats.apart d e conf other joined also same
  · intro name at_ found
    rcases entered.only name at_ found with before | rfl
    · exact Nat.lt_of_lt_of_le (seats.numbered name at_ before) entered.count
    · exact entered.fits

theorem inside_of_none {client : Client} (none_ : client.conf = none) : client.inside = none := by
  rw [Client.inside]
  split <;> first | exact none_ | rfl

theorem Seats.afterLeave (seats : floor.Seats) (outside : (floor.clients c).inside = none)
    (next : AfterLeave) : (floor.afterLeave c next).Seats := by
  cases next with
  | join roomName =>
      have left : (floor.setClient c { floor.clients c with conf := none }).Seats :=
        seats.goes (fun conf joined => by cases joined) (by rw [inside_of_none rfl, outside])
      refine left.joins ?_ roomName
      rw [clients_setClient, Function.update_self]
      exact inside_of_none rfl
  | left =>
      exact seats.goes (fun conf joined => by cases joined) (by rw [inside_of_none rfl, outside])
  | finish =>
      exact seats.goes (fun conf joined => by cases joined) (by rw [inside_of_none rfl, outside])

theorem Seats.leaveConf (seats : floor.Seats) (next : AfterLeave) : (floor.leaveConf c next).Seats := by
  cases joined : (floor.clients c).conf with
  | some conf =>
      simp only [Floor.leaveConf, joined]
      exact seats.leaves joined joined rfl
  | none =>
      simp only [Floor.leaveConf, joined]
      exact seats.afterLeave (inside_of_none joined) next

theorem Seats.await (seats : floor.Seats) {before : WsAwait}
    (phase : (floor.clients c).phase = .waiting before)
    (within : before = .hello ∨ before = .recv ∨ before = .send) {after : WsAwait}
    (stays : after = .recv ∨ after = .send) : (floor.await c after).Seats := by
  refine seats.goes (fun conf joined => joined) ?_
  rcases within with rfl | rfl | rfl <;> rcases stays with rfl | rfl <;>
    simp only [Client.inside, phase]

theorem Seats.say (seats : floor.Seats) (room key : Nat) (text : Text) :
    Seats { floor with hub := floor.hub.sendWs room key text } := by
  have same : (floor.hub.sendWs room key text).table = floor.hub.table ∧
      (floor.hub.sendWs room key text).count = floor.hub.count := by
    rw [Hub.sendWs]
    split <;> exact ⟨rfl, rfl⟩
  refine seats.around (fun at_ other _ => ?_) ?_ ?_
  · rw [Hub.sendWs]
    split
    · exact Iff.rfl
    · rw [keys_onRoom (Hub.keys_broadcast ..), keys_onRoom (keys_echo ..)]
  · intro name at_ found _
    rw [same.1]
    exact found
  · intro name at_ found
    rw [same.1] at found
    rw [same.2]
    exact seats.numbered name at_ found

theorem Seats.receive (seats : floor.Seats) (phase : (floor.clients c).phase = .waiting .recv)
    (message : Message) : (floor.receive c message).Seats := by
  have answered : (floor.await c .send).Seats := seats.await phase (by simp) (by simp)
  cases message with
  | ping => exact answered
  | other => exact seats
  | leave => exact seats.leaveConf .left
  | join room =>
      simp only [Floor.receive]
      split
      · exact seats.leaveConf _
      next none_ => exact seats.joins (inside_of_none none_) _
  | message text =>
      simp only [Floor.receive]
      split
      · exact seats
      next conf joined =>
        split
        · exact seats
        · split
          · exact seats
          · split
            · exact answered
            · exact seats.leaveConf _
            · exact seats
            · exact seats.say _ _ _

theorem Seats.step {event : FloorEvent} (seats : floor.Seats) (stepped : floor.step event = some next) :
    next.Seats := by
  cases event with
  | terminal event =>
      simp only [Floor.step] at stepped
      split at stepped
      next even =>
        obtain ⟨hub, moved, rfl⟩ := Option.map_eq_some_iff.mp stepped
        exact seats.terminal even moved
      · cases stepped
  | connect c call =>
      simp only [Floor.step] at stepped
      split at stepped
      next absent =>
        cases stepped
        refine seats.goes (fun conf joined => by cases joined) ?_
        rw [inside_of_none rfl, Client.inside, absent]
      · cases stepped
  | resume c =>
      simp only [Floor.step] at stepped
      split at stepped
      next phase =>
        cases stepped
        exact seats.await phase (by simp) (by simp)
      next phase =>
        cases stepped
        exact seats.await phase (by simp) (by simp)
      next after phase =>
        cases stepped
        exact seats.afterLeave (by rw [Client.inside, phase]) after
      · cases stepped
  | message c message =>
      simp only [Floor.step] at stepped
      split at stepped
      next phase =>
        cases stepped
        exact seats.receive phase message
      · cases stepped
  | closed c =>
      simp only [Floor.step] at stepped
      split at stepped
      · cases stepped
        exact seats.leaveConf .finish
      · cases stepped
  | drain c =>
      simp only [Floor.step] at stepped
      split at stepped
      next conf joined =>
        obtain ⟨room, got, rfl⟩ := Option.map_eq_some_iff.mp stepped
        refine seats.around (fun at_ other _ => ?_) (fun _ _ found _ => found) seats.numbered
        rw [keys_onRoom (Hub.get_keys got).1]
      · cases stepped
  | raise c =>
      cases phase : (floor.clients c).phase with
      | absent => simp [Floor.step, phase] at stepped
      | ended => simp [Floor.step, phase] at stepped
      | waiting await =>
          cases await with
          | hello | recv | send =>
              simp only [Floor.step, phase, Option.some.injEq] at stepped
              rw [← stepped]
              exact seats.leaveConf .finish
          | drained after =>
              have ends (conf : Option Conf) (same : (floor.clients c).conf = conf) :
                  (floor.setClient c ⟨.ended, (floor.clients c).call, conf⟩).Seats :=
                seats.goes (fun own joined => same.trans joined) (by simp only [Client.inside, phase])
              cases joined : (floor.clients c).conf with
              | none =>
                  cases after <;>
                    simp only [Floor.step, phase, joined, Option.some.injEq] at stepped <;>
                    rw [← stepped] <;> exact ends none joined
              | some conf =>
                  cases after with
                  | finish =>
                      simp only [Floor.step, phase, Option.some.injEq] at stepped
                      rw [← stepped]
                      exact ends _ rfl
                  | join roomName | left =>
                      simp only [Floor.step, phase, joined, Option.some.injEq] at stepped
                      rw [← stepped]
                      exact seats.leaves joined rfl rfl

/-- A run has a record. -/
theorem recorded_run {events : List FloorEvent} (chat : Chat)
    (completed : run Floor.step floor events = some next) :
    ∃ after, run Recorded.step ⟨floor, chat⟩ events = some ⟨next, after⟩ := by
  induction events generalizing floor chat with
  | nil =>
      cases completed
      exact ⟨chat, rfl⟩
  | cons event events ih =>
      obtain ⟨middle, stepped, rest⟩ := run_cons completed
      obtain ⟨after, completed⟩ := ih ((floor.effectsOf event).foldl Chat.apply chat) rest
      refine ⟨after, ?_⟩
      rw [run, Recorded.step, stepped]
      exact completed

/-- In every run, whatever is raised and wherever clients are cut off: a client that is inside a
room is listed there once, and its room is the one of the table; whoever is listed under a key
of a WebSocket client is one that is inside this room, and no two of them have the same key. -/
theorem clients_seated {events : List FloorEvent} (completed : run Floor.step empty events = some floor) :
    (∀ c conf, (floor.clients c).inside = some conf →
      floor.hub.table (norm conf.name) = some conf.room ∧
        (floor.hub.rooms conf.room).keys.count conf.key = 1) ∧
    (∀ room n, wsKey n ∈ (floor.hub.rooms room).keys →
      ∃ c conf, (floor.clients c).inside = some conf ∧ conf.key = wsKey n ∧ conf.room = room) ∧
    ∀ c d conf other, (floor.clients c).inside = some conf → (floor.clients d).inside = some other →
      conf.key = other.key → c = d := by
  have seats : floor.Seats :=
    run_preserves (fun _ _ _ seats stepped => seats.step stepped) seats_empty completed
  obtain ⟨chat, recorded⟩ := recorded_run Recorded.empty.chat completed
  have kept : Recorded.Kept ⟨floor, chat⟩ :=
    run_preserves (fun _ _ _ kept stepped => kept.step stepped) Recorded.kept_empty recorded
  have nodup (room : Nat) : (floor.hub.rooms room).keys.Nodup := by
    have before := kept.ordered.nodup room
    rw [kept.rooms] at before
    exact before
  refine ⟨fun c conf inside => ?_, fun room n listed => ?_, fun c d conf other one two same => ?_⟩
  · obtain ⟨found, listed⟩ := seats.listed c conf inside
    exact ⟨found, List.count_eq_one_of_mem (nodup conf.room) listed⟩
  · exact seats.known room (wsKey n) (wsKey_odd n) listed
  · exact seats.apart c d conf other (Client.conf_of_inside one) (Client.conf_of_inside two) same

/-- A client joins a room, its socket breaks, and the drain task has failed as well. -/
private def brokenSocket : List FloorEvent :=
  [.connect 0 "AB1C", .resume 0, .message 0 (.join none), .resume 0, .raise 0, .raise 0]

theorem clients_seated_broken : ∃ floor, run Floor.step empty brokenSocket = some floor ∧
    ∀ room, wsKey 0 ∉ (floor.hub.rooms room).keys := by
  obtain ⟨floor, completed, ended, others⟩ : ∃ floor, run Floor.step empty brokenSocket = some floor ∧
      (floor.clients 0).inside = none ∧ ∀ c, c ≠ 0 → floor.clients c = empty.clients c := by
    refine ⟨_, rfl, rfl, fun c other => ?_⟩
    simp [other, Floor.receive, Floor.leaveConf, Floor.joinConf, Floor.await, empty, Floor.setClient]
  refine ⟨floor, completed, fun room listed => ?_⟩
  obtain ⟨c, conf, inside, -⟩ := (clients_seated completed).2.1 room 0 listed
  by_cases first : c = 0
  · rw [first, ended] at inside
    cases inside
  · rw [others c first] at inside
    cases inside

end Floor

end PyBulletin.Transport.Conference
