import PyBulletin.Transport.Conference

set_option autoImplicit false

namespace PyBulletin.Transport.Conference

open PyBulletin.Foundation

/-! # Who is in a room

A session is listed in its room from `join` to the first `await` of the `finally`, and it
holds the room from `_get_or_create` to the end of `enter_room`. -/

def Await.listed : Await → Bool
  | .getRoom | .join | .farewell _ | .left _ | .remove => false
  | _ => true

def Phase.listed : Phase → Bool
  | .waiting await => await.listed
  | _ => false

def Phase.holding : Phase → Bool
  | .waiting .getRoom => false
  | .waiting _ => true
  | _ => false

def Phase.over : Phase → Bool
  | .ended _ => true
  | _ => false

namespace Hub

def Holds (hub : Hub) (s room : Nat) : Prop :=
  (hub.sessions s).phase.holding ∧ (hub.sessions s).room = room

/-- No room lists a session that has ended, and a room without participants is in the table
only while a session holds it. -/
structure Clean (hub : Hub) : Prop where
  unlisted : ∀ s, (hub.sessions s).phase.over → ∀ room, s ∉ (hub.rooms room).keys
  removed : ∀ name room, hub.table name = some room → (hub.rooms room).parts = [] →
    ∃ s, hub.Holds s room

/-- Another session holds the room of this one, or the room is not in the table any more. -/
def Spared (hub : Hub) (s : Nat) : Prop :=
  (∃ other, other ≠ s ∧ hub.Holds other (hub.sessions s).room) ∨
    ∀ name, hub.table name ≠ some (hub.sessions s).room

/-- An exception at an `await` is harmless in `_get_or_create` and in the loop.  The welcome
text, the announcement and the lock of the `finally` must not raise; elsewhere the room is
left to another session. -/
def mayRaise (hub : Hub) (s : Nat) : Await → Prop
  | .welcome | .announce | .leave _ => False
  | .join | .farewell _ | .left _ | .remove => hub.Spared s
  | _ => True

def Harmless (hub : Hub) : Event → Prop
  | .raise s =>
      match (hub.sessions s).phase with
      | .waiting await => hub.mayRaise s await
      | _ => True
  | .resume s =>
      match (hub.sessions s).phase with
      | .waiting (.left true) => hub.Spared s
      | _ => True
  | _ => True

/-- The invariant: the rooms list the sessions that are between `join` and `leave`, every
room in the table is held, under its name, and the next room is a new one. -/
structure Sound (hub : Hub) : Prop where
  listed : ∀ room s, s ∈ (hub.rooms room).keys ↔
    (hub.sessions s).phase.listed ∧ (hub.sessions s).room = room
  held : ∀ name room, hub.table name = some room → ∃ s, hub.Holds s room
  named : ∀ name room, hub.table name = some room → (hub.rooms room).name = name
  fits : ∀ s room, hub.Holds s room → (hub.rooms room).name = (hub.sessions s).name
  fresh : ∀ s room, hub.Holds s room → room < hub.count

theorem holding_of_listed {phase : Phase} (listed : phase.listed) : phase.holding := by
  cases phase with
  | waiting await => cases await <;> first | rfl | cases listed
  | absent => cases listed
  | ended raised => cases listed

variable {hub next : Hub} {s : Nat}

theorem not_listed_of_over {phase : Phase} (ended : phase.over) : ¬ phase.listed := by
  cases phase with
  | ended raised => simp [Phase.listed]
  | absent => cases ended
  | waiting await => cases ended

theorem Sound.clean (sound : hub.Sound) : hub.Clean where
  unlisted s ended room listed := not_listed_of_over ended ((sound.listed room s).mp listed).1
  removed name room found _ := sound.held name room found

theorem sound_empty : empty.Sound where
  listed room s := by
    constructor
    · intro listed
      cases listed
    · rintro ⟨listed, -⟩
      cases listed
  held name room found := by cases found
  named name room found := by cases found
  fits s room holds := by cases holds.1
  fresh s room holds := by cases holds.1

section Moves

variable {session : Session}
  (sessions : next.sessions = Function.update hub.sessions s session)

include sessions

theorem holds_of_ne {other room : Nat} (differs : other ≠ s) :
    next.Holds other room ↔ hub.Holds other room := by
  rw [Holds, Holds, sessions, Function.update_of_ne differs]

theorem holds_self {room : Nat} :
    next.Holds s room ↔ session.phase.holding ∧ session.room = room := by
  rw [Holds, sessions, Function.update_self]

/-- The rooms list a session as its phase says, and the others as before. -/
theorem listed_update (sound : hub.Sound)
    (others : ∀ room other, other ≠ s →
      (other ∈ (next.rooms room).keys ↔ other ∈ (hub.rooms room).keys))
    (own : ∀ room, s ∈ (next.rooms room).keys ↔ session.phase.listed ∧ session.room = room)
    (room other : Nat) : other ∈ (next.rooms room).keys ↔
      (next.sessions other).phase.listed ∧ (next.sessions other).room = room := by
  by_cases same : other = s
  · rw [same, own, sessions, Function.update_self]
  · rw [others room other same, sound.listed, sessions, Function.update_of_ne same]

theorem Sound.move (sound : hub.Sound) (table : next.table = hub.table)
    (count : next.count = hub.count)
    (names : ∀ room, (next.rooms room).name = (hub.rooms room).name)
    (others : ∀ room other, other ≠ s →
      (other ∈ (next.rooms room).keys ↔ other ∈ (hub.rooms room).keys))
    (own : ∀ room, s ∈ (next.rooms room).keys ↔ session.phase.listed ∧ session.room = room)
    (holding : session.phase.holding = (hub.sessions s).phase.holding)
    (same : session.phase.holding →
      session.room = (hub.sessions s).room ∧ session.name = (hub.sessions s).name) :
    next.Sound := by
  have holds (other room : Nat) : next.Holds other room ↔ hub.Holds other room := by
    by_cases this : other = s
    · rw [this, holds_self sessions, Holds, ← holding]
      constructor
      · rintro ⟨holds, at_⟩
        exact ⟨holds, (same holds).1 ▸ at_⟩
      · rintro ⟨holds, at_⟩
        exact ⟨holds, (same holds).1.trans at_⟩
    · exact holds_of_ne sessions this
  constructor
  · exact listed_update sessions sound others own
  · intro name room found
    rw [table] at found
    obtain ⟨other, holder⟩ := sound.held name room found
    exact ⟨other, (holds other room).mpr holder⟩
  · intro name room found
    rw [table] at found
    rw [names]
    exact sound.named name room found
  · intro other room holder
    rw [names, sound.fits other room ((holds other room).mp holder)]
    by_cases this : other = s
    · rw [this] at holder
      rw [this, sessions, Function.update_self, (same ((holds_self sessions).mp holder).1).2]
    · rw [sessions, Function.update_of_ne this]
  · intro other room holder
    rw [count]
    exact sound.fresh other room ((holds other room).mp holder)

theorem Sound.release (sound : hub.Sound) (count : next.count = hub.count)
    (rooms : next.rooms = hub.rooms) (apart : ¬ session.phase.holding)
    (before : ¬ (hub.sessions s).phase.listed)
    (table : ∀ name room, next.table name = some room → hub.table name = some room ∧
      ∃ other, other ≠ s ∧ hub.Holds other room) : next.Sound := by
  have holds {other room : Nat} (holder : next.Holds other room) :
      other ≠ s ∧ hub.Holds other room := by
    have differs : other ≠ s := by
      rintro rfl
      exact apart ((holds_self sessions).mp holder).1
    exact ⟨differs, (holds_of_ne sessions differs).mp holder⟩
  constructor
  · refine listed_update sessions sound (fun room other _ => by rw [rooms]) fun room => ?_
    rw [rooms, sound.listed]
    constructor
    · rintro ⟨listed, -⟩
      exact (before listed).elim
    · rintro ⟨listed, -⟩
      exact (apart (holding_of_listed listed)).elim
  · intro name room found
    obtain ⟨-, other, differs, holder⟩ := table name room found
    exact ⟨other, (holds_of_ne sessions differs).mpr holder⟩
  · intro name room found
    rw [rooms]
    exact sound.named name room (table name room found).1
  · intro other room holder
    obtain ⟨differs, holder⟩ := holds holder
    rw [rooms, sound.fits other room holder, sessions, Function.update_of_ne differs]
  · intro other room holder
    rw [count]
    exact sound.fresh other room (holds holder).2

end Moves

section Steps

variable {phase : Phase}

theorem Sound.setPhase (sound : hub.Sound)
    (listed : phase.listed = (hub.sessions s).phase.listed)
    (holding : phase.holding = (hub.sessions s).phase.holding) : (hub.setPhase s phase).Sound := by
  refine sound.move rfl rfl rfl (fun _ => rfl) (fun _ _ _ => Iff.rfl) (fun room => ?_) holding
    fun _ => ⟨rfl, rfl⟩
  rw [listed]
  exact sound.listed room s

theorem Sound.setRoom {f : Room → Room} (sound : hub.Sound)
    (keys : (f (hub.rooms (hub.sessions s).room)).keys = (hub.rooms (hub.sessions s).room).keys)
    (name : (f (hub.rooms (hub.sessions s).room)).name = (hub.rooms (hub.sessions s).room).name) :
    (hub.setRoom s f).Sound := by
  have same (room : Nat) : ((hub.setRoom s f).rooms room).keys = (hub.rooms room).keys ∧
      ((hub.setRoom s f).rooms room).name = (hub.rooms room).name := by
    by_cases this : room = (hub.sessions s).room
    · rw [this, rooms_setRoom_self]
      exact ⟨keys, name⟩
    · rw [rooms_setRoom_of_ne _ _ this]
      exact ⟨rfl, rfl⟩
  have kept : (hub.setRoom s f).sessions =
      Function.update hub.sessions s (hub.sessions s) := by
    rw [Function.update_eq_self]
    rfl
  refine sound.move kept rfl rfl (fun room => (same room).2)
    (fun room _ _ => by rw [(same room).1]) (fun room => ?_) rfl fun _ => ⟨rfl, rfl⟩
  rw [(same room).1]
  exact sound.listed room s

theorem name_setRoom {f : Room → Room} (named : ∀ room, (f room).name = room.name) (room : Nat) :
    ((hub.setRoom s f).rooms room).name = (hub.rooms room).name := by
  by_cases this : room = (hub.sessions s).room
  · rw [this, rooms_setRoom_self, named]
  · rw [rooms_setRoom_of_ne _ _ this]

theorem keys_broadcast (room : Room) (text : Text) (excludeKey : Option Nat) :
    (room.broadcast text excludeKey).keys = room.keys := by
  rw [Room.keys, Room.broadcast, List.map_map]
  refine List.map_congr_left fun part _ => ?_
  simp only [Function.comp_apply]
  split <;> rfl

theorem get_keys {room got : Room} {key : Nat} (taken : room.get key = some got) :
    got.keys = room.keys ∧ got.name = room.name := by
  rw [Room.get] at taken
  split at taken
  · cases taken
    refine ⟨?_, rfl⟩
    rw [Room.keys, List.map_map]
    refine List.map_congr_left fun part _ => ?_
    simp only [Function.comp_apply]
    split <;> rfl
  · cases taken

theorem Sound.enter (sound : hub.Sound) (absent : (hub.sessions s).phase = .absent)
    (roomName callsign : Text) :
    Sound { hub with
      sessions := Function.update hub.sessions s ⟨.waiting .getRoom, callsign, roomName, 0⟩ } := by
  refine sound.move rfl rfl rfl (fun _ => rfl) (fun _ _ _ => Iff.rfl) (fun room => ?_) ?_ ?_
  · rw [sound.listed, absent]
    constructor
    · rintro ⟨listed, -⟩
      cases listed
    · rintro ⟨listed, -⟩
      cases listed
  · rw [absent]
    rfl
  · rintro holding
    cases holding

theorem Sound.join (sound : hub.Sound) (waits : (hub.sessions s).phase = .waiting .join)
    (part : Participant) (key : part.key = s) :
    ((hub.setRoom s (·.add part)).setPhase s (.waiting .welcome)).Sound := by
  have rooms (room : Nat) : ((hub.setRoom s (·.add part)).rooms room).keys =
      (hub.rooms room).keys ++ if room = (hub.sessions s).room then [s] else [] := by
    by_cases this : room = (hub.sessions s).room
    · rw [if_pos this, this, rooms_setRoom_self]
      simp [Room.add, Room.keys, key]
    · rw [if_neg this, List.append_nil, rooms_setRoom_of_ne _ _ this]
  have sessions : ((hub.setRoom s (·.add part)).setPhase s (.waiting .welcome)).sessions =
      Function.update hub.sessions s { hub.sessions s with phase := .waiting .welcome } := rfl
  have names := @name_setRoom hub s (·.add part) fun _ => rfl
  refine sound.move sessions rfl rfl names (fun room other differs => ?_)
    (fun room => ?_) ?_ fun _ => ⟨rfl, rfl⟩
  · change other ∈ ((hub.setRoom s (·.add part)).rooms room).keys ↔ _
    rw [rooms, List.mem_append]
    split <;> simp [differs]
  · change s ∈ ((hub.setRoom s (·.add part)).rooms room).keys ↔ _
    rw [rooms, List.mem_append, sound.listed, waits]
    by_cases this : room = (hub.sessions s).room
    · simp [Phase.listed, Await.listed, this]
    · simp [Phase.listed, Await.listed, this, Ne.symm this]
  · rw [waits]
    rfl

theorem Sound.leave {raised : Bool} (sound : hub.Sound)
    (waits : (hub.sessions s).phase = .waiting (.leave raised)) :
    ((hub.setRoom s (·.pop s)).setPhase s (.waiting (.farewell raised))).Sound := by
  have rooms (room other : Nat) : other ∈ ((hub.setRoom s (·.pop s)).rooms room).keys ↔
      other ∈ (hub.rooms room).keys ∧ (room = (hub.sessions s).room → other ≠ s) := by
    by_cases this : room = (hub.sessions s).room
    · rw [this, rooms_setRoom_self]
      simp only [Room.pop, Room.keys, List.mem_map, List.mem_filter, decide_eq_true_eq, true_imp_iff]
      constructor
      · rintro ⟨part, ⟨listed, differs⟩, rfl⟩
        exact ⟨⟨part, listed, rfl⟩, differs⟩
      · rintro ⟨⟨part, listed, rfl⟩, differs⟩
        exact ⟨part, ⟨listed, differs⟩, rfl⟩
    · rw [rooms_setRoom_of_ne _ _ this]
      simp [this]
  have sessions : ((hub.setRoom s (·.pop s)).setPhase s (.waiting (.farewell raised))).sessions =
      Function.update hub.sessions s
        { hub.sessions s with phase := .waiting (.farewell raised) } := rfl
  have names := @name_setRoom hub s (·.pop s) fun _ => rfl
  refine sound.move sessions rfl rfl names (fun room other differs => ?_)
    (fun room => ?_) ?_ fun _ => ⟨rfl, rfl⟩
  · exact (rooms room other).trans (and_iff_left fun _ => differs)
  · refine (rooms room s).trans ?_
    rw [sound.listed]
    constructor
    · rintro ⟨⟨-, here⟩, differs⟩
      exact absurd rfl (differs here.symm)
    · rintro ⟨listed, -⟩
      cases listed
  · rw [waits]
    rfl

/-- The session has got a room under the name it asks for, which was in the table or is new. -/
structure Acquires (hub next : Hub) (s : Nat) (session : Session) : Prop where
  phase : session.phase = .waiting .join
  sessions : next.sessions = Function.update hub.sessions s session
  name : (next.rooms session.room).name = session.name
  fits : session.room < next.count
  count : hub.count ≤ next.count
  table : ∀ name room, next.table name = some room →
    hub.table name = some room ∨ session.name = name ∧ session.room = room
  rooms : ∀ room < hub.count, next.rooms room = hub.rooms room
  empty : ∀ room, hub.count ≤ room →
    next.rooms room = hub.rooms room ∨ (next.rooms room).keys = []

theorem acquires_getOrCreate
    (filed : ∀ room, hub.table (hub.sessions s).name = some room →
      (hub.rooms room).name = (hub.sessions s).name ∧ room < hub.count) :
    ∃ session, Acquires hub ((hub.getOrCreate s).setPhase s (.waiting .join)) s session := by
  cases found : hub.table (hub.sessions s).name with
  | some room =>
      refine ⟨{ hub.sessions s with phase := .waiting .join, room := room }, rfl, ?_, ?_, ?_, ?_,
        ?_, ?_, ?_⟩ <;> simp only [Hub.getOrCreate, found, Hub.setPhase]
      · simp
      · exact (filed room found).1
      · exact (filed room found).2
      · exact le_rfl
      · exact fun name room before => .inl before
      · exact fun _ _ => trivial
      · exact fun _ _ => .inl trivial
  | none =>
      refine ⟨{ hub.sessions s with phase := .waiting .join, room := hub.count }, rfl, ?_, ?_, ?_, ?_,
        ?_, ?_, ?_⟩ <;> simp only [Hub.getOrCreate, found, Hub.setPhase]
      · simp
      · rw [Function.update_self]
      · omega
      · omega
      · intro name room before
        by_cases this : name = (hub.sessions s).name
        · rw [this, Function.update_self] at before
          exact .inr ⟨this.symm, Option.some.inj before⟩
        · rw [Function.update_of_ne this] at before
          exact .inl before
      · intro room old
        exact Function.update_of_ne (by omega) _ _
      · intro room new
        by_cases this : room = hub.count
        · rw [this, Function.update_self]
          exact .inr rfl
        · exact .inl (Function.update_of_ne this _ _)

theorem Sound.getOrCreate (sound : hub.Sound)
    (waits : (hub.sessions s).phase = .waiting .getRoom) :
    ((hub.getOrCreate s).setPhase s (.waiting .join)).Sound := by
  obtain ⟨session, got⟩ := @acquires_getOrCreate hub s fun room found => by
    obtain ⟨other, holder⟩ := sound.held _ room found
    exact ⟨sound.named _ room found, sound.fresh other room holder⟩
  generalize (hub.getOrCreate s).setPhase s (.waiting .join) = next at got
  have old {other room : Nat} (holder : hub.Holds other room) : next.Holds other room := by
    refine (holds_of_ne got.sessions ?_).mpr holder
    rintro rfl
    have holding := holder.1
    rw [waits] at holding
    cases holding
  have keys (room : Nat) : (next.rooms room).keys = (hub.rooms room).keys := by
    by_cases this : room < hub.count
    · rw [got.rooms room this]
    · rcases got.empty room (Nat.le_of_not_lt this) with same | none_
      · rw [same]
      · rw [none_]
        refine (List.eq_nil_iff_forall_not_mem.mpr fun other listed => ?_).symm
        obtain ⟨phase, here⟩ := (sound.listed room other).mp listed
        exact this (sound.fresh other room ⟨holding_of_listed phase, here⟩)
  have cases_ {other room : Nat} (holder : next.Holds other room) :
      other = s ∧ session.room = room ∨
        other ≠ s ∧ hub.Holds other room ∧ next.rooms room = hub.rooms room := by
    by_cases this : other = s
    · rw [this] at holder
      exact .inl ⟨this, ((holds_self got.sessions).mp holder).2⟩
    · have before := (holds_of_ne got.sessions this).mp holder
      exact .inr ⟨this, before, got.rooms room (sound.fresh other room before)⟩
  constructor
  · refine listed_update got.sessions sound (fun room other _ => by rw [keys]) fun room => ?_
    rw [keys, sound.listed, waits, got.phase]
    simp [Phase.listed, Await.listed]
  · intro name room found
    rcases got.table name room found with before | ⟨-, here⟩
    · obtain ⟨other, holder⟩ := sound.held name room before
      exact ⟨other, old holder⟩
    · exact ⟨s, (holds_self got.sessions).mpr ⟨by rw [got.phase]; rfl, here⟩⟩
  · intro name' room found
    rcases got.table name' room found with before | ⟨called, here⟩
    · obtain ⟨other, holder⟩ := sound.held name' room before
      rw [got.rooms room (sound.fresh other room holder), sound.named name' room before]
    · rw [← here, got.name, called]
  · intro other room holder
    rcases cases_ holder with ⟨rfl, here⟩ | ⟨differs, before, same⟩
    · rw [← here, got.name, got.sessions, Function.update_self]
    · rw [same, sound.fits other room before, got.sessions, Function.update_of_ne differs]
  · intro other room holder
    rcases cases_ holder with ⟨rfl, here⟩ | ⟨-, before, -⟩
    · exact here ▸ got.fits
    · exact (sound.fresh other room before).trans_le got.count

/-- The session ends by an exception, and another one has the room. -/
theorem Sound.abandon (sound : hub.Sound) (unlisted : ¬ (hub.sessions s).phase.listed)
    (spared : hub.Spared s) : (hub.setPhase s (.ended true)).Sound := by
  have sessions : (hub.setPhase s (.ended true)).sessions =
      Function.update hub.sessions s { hub.sessions s with phase := .ended true } := rfl
  refine sound.release sessions rfl rfl (by simp [Phase.holding]) unlisted fun name room found =>
    ⟨found, ?_⟩
  obtain ⟨other, holder⟩ := sound.held name room found
  by_cases this : other = s
  · rw [this] at holder
    rw [← holder.2] at found ⊢
    rcases spared with shared | gone
    · exact shared
    · exact absurd found (gone name)
  · exact ⟨other, this, holder⟩

theorem maybeRemove_kept (hub : Hub) (name : Text) :
    (hub.maybeRemove name).rooms = hub.rooms ∧ (hub.maybeRemove name).count = hub.count ∧
      (hub.maybeRemove name).sessions = hub.sessions := by
  rw [Hub.maybeRemove]
  split
  · split <;> exact ⟨rfl, rfl, rfl⟩
  · exact ⟨rfl, rfl, rfl⟩

/-- A room that is left in the table under the name has participants. -/
theorem table_maybeRemove {name other : Text} {room : Nat}
    (found : (hub.maybeRemove name).table other = some room) :
    hub.table other = some room ∧ (other = name → (hub.rooms room).parts ≠ []) := by
  rw [Hub.maybeRemove] at found
  split at found
  · next room' here =>
      split at found
      · by_cases this : other = name
        · rw [this] at found
          simp at found
        · dsimp only at found
          rw [Function.update_of_ne this] at found
          exact ⟨found, fun same => absurd same this⟩
      · next some_ =>
          refine ⟨found, fun same => ?_⟩
          rw [same, here] at found
          exact Option.some.inj found ▸ some_
  · next none_ =>
      refine ⟨found, fun same => ?_⟩
      rw [same, none_] at found
      cases found

theorem Sound.finish (sound : hub.Sound) (waits : (hub.sessions s).phase = .waiting .remove) :
    ((hub.maybeRemove (hub.sessions s).name).setPhase s (.ended false)).Sound := by
  obtain ⟨rooms, count, kept⟩ := hub.maybeRemove_kept (hub.sessions s).name
  have sessions : ((hub.maybeRemove (hub.sessions s).name).setPhase s (.ended false)).sessions =
      Function.update hub.sessions s { hub.sessions s with phase := .ended false } := by
    rw [Hub.setPhase, kept]
  have unlisted : ¬ (hub.sessions s).phase.listed := by
    rw [waits]
    simp [Phase.listed, Await.listed]
  refine sound.release sessions count rooms (by simp [Phase.holding]) unlisted
    fun name room found => ?_
  obtain ⟨before, some_⟩ := table_maybeRemove found
  refine ⟨before, ?_⟩
  obtain ⟨other, holder⟩ := sound.held name room before
  by_cases this : other = s
  · rw [this] at holder
    have named : name = (hub.sessions s).name :=
      (sound.named name room before).symm.trans (sound.fits s room holder)
    obtain ⟨part, among⟩ := List.exists_mem_of_ne_nil _ (some_ named)
    obtain ⟨phase, here⟩ := (sound.listed room part.key).mp (List.mem_map_of_mem among)
    refine ⟨part.key, ?_, holding_of_listed phase, here⟩
    intro same
    rw [same] at phase
    exact unlisted phase
  · exact ⟨other, this, holder⟩

end Steps

theorem handle_listed (call : Text) (input : Option Input) :
    (handle call input).listed ∧ (Phase.waiting (handle call input)).holding := by
  rcases input with - | text | - | - <;> try exact ⟨rfl, rfl⟩
  rw [handle]
  cases command text <;> exact ⟨rfl, rfl⟩

theorem Sound.resume {await : Await} (sound : hub.Sound)
    (waits : (hub.sessions s).phase = .waiting await)
    (harmless : hub.Harmless (.resume s)) (moved : hub.resume s await = some next) :
    next.Sound := by
  have phase {following : Await} (listed : following.listed = await.listed)
      (holding : (Phase.waiting following).holding = (Phase.waiting await).holding) :
      (hub.setPhase s (.waiting following)).Sound :=
    sound.setPhase (by rw [waits]; exact listed) (by rw [waits]; exact holding)
  have speak {following : Await} (text : Text) (key : Option Nat)
      (listed : following.listed = await.listed)
      (holding : (Phase.waiting following).holding = (Phase.waiting await).holding) :
      ((hub.setRoom s (·.broadcast text key)).setPhase s (.waiting following)).Sound := by
    have told : (hub.setRoom s (·.broadcast text key)).Sound :=
      sound.setRoom (keys_broadcast ..) rfl
    have same : ((hub.setRoom s (·.broadcast text key)).sessions s).phase = .waiting await := waits
    exact told.setPhase (by rw [same]; exact listed) (by rw [same]; exact holding)
  cases await <;> cases moved
  case getRoom => exact sound.getOrCreate waits
  case join => exact sound.join waits _ rfl
  case welcome => exact phase rfl rfl
  case announce => exact speak _ _ rfl rfl
  case deliver input => exact phase (handle_listed _ _).1 (handle_listed _ _).2
  case who => exact phase rfl rfl
  case whoList => exact phase rfl rfl
  case rooms => exact phase rfl rfl
  case echo msg => exact phase rfl rfl
  case say msg => exact speak _ _ rfl rfl
  case leave raised => exact sound.leave waits
  case farewell raised => exact speak _ _ rfl rfl
  case left raised =>
      cases raised with
      | false => exact phase rfl rfl
      | true =>
          simp only [Harmless, waits] at harmless
          exact sound.abandon (by rw [waits]; simp [Phase.listed, Await.listed]) harmless
  case remove => exact sound.finish waits

theorem Sound.raise {await : Await} (sound : hub.Sound)
    (waits : (hub.sessions s).phase = .waiting await) (harmless : hub.mayRaise s await) :
    (hub.setPhase s await.raised).Sound := by
  cases await
  case welcome | announce | leave => exact harmless.elim
  case getRoom => exact sound.setPhase (by rw [waits]; rfl) (by rw [waits]; rfl)
  case join | farewell | left | remove =>
    exact sound.abandon (by rw [waits]; simp [Phase.listed, Await.listed]) harmless
  all_goals exact sound.setPhase (by rw [waits]; rfl) (by rw [waits]; rfl)

theorem Sound.step {event : Event} (sound : hub.Sound) (harmless : hub.Harmless event)
    (moved : step hub event = some next) : next.Sound := by
  cases event with
  | enter s roomName callsign =>
      rw [Conference.step] at moved
      split at moved
      · next absent =>
          cases moved
          exact sound.enter absent _ _
      · cases moved
  | resume s =>
      rw [Conference.step] at moved
      split at moved
      · next await waits => exact sound.resume waits harmless moved
      · cases moved
  | wake s received input =>
      rw [Conference.step] at moved
      split at moved
      · next waits =>
          split at moved
          · obtain ⟨room, taken, rfl⟩ := Option.map_eq_some_iff.mp moved
            have got : (hub.setRoom s fun _ => room).Sound :=
              sound.setRoom (get_keys taken).1 (get_keys taken).2
            have same : ((hub.setRoom s fun _ => room).sessions s).phase = .waiting .wait := waits
            exact got.setPhase (by rw [same]; rfl) (by rw [same]; rfl)
          · split at moved
            · cases moved
              obtain ⟨listed, holding⟩ := handle_listed (Text.upper (hub.sessions s).call) input
              exact sound.setPhase (by rw [waits]; exact listed) (by rw [waits]; exact holding)
            · cases moved
      · cases moved
  | raise s =>
      rw [Conference.step] at moved
      split at moved
      · next await waits =>
          cases moved
          simp only [Harmless, waits] at harmless
          exact sound.raise waits harmless
      · cases moved

/-- An exception that ends a session which is listed leaves it in its room. -/
theorem Sound.not_clean_of_listed (sound : hub.Sound) (listed : (hub.sessions s).phase.listed) :
    ¬ (hub.setPhase s (.ended true)).Clean := by
  intro clean
  refine clean.unlisted s ?_ (hub.sessions s).room ((sound.listed _ s).mpr ⟨listed, rfl⟩)
  rw [phase_setPhase]
  rfl

/-- An exception that ends a session which is not spared leaves an empty room behind. -/
theorem Sound.not_clean_of_alone (sound : hub.Sound) (unlisted : ¬ (hub.sessions s).phase.listed)
    (alone : ¬ hub.Spared s) : ¬ (hub.setPhase s (.ended true)).Clean := by
  intro clean
  rw [Spared, not_or] at alone
  obtain ⟨others, kept⟩ := alone
  push Not at others kept
  obtain ⟨name, found⟩ := kept
  have sessions : (hub.setPhase s (.ended true)).sessions =
      Function.update hub.sessions s { hub.sessions s with phase := .ended true } := rfl
  have empty : (hub.rooms (hub.sessions s).room).parts = [] := by
    refine List.eq_nil_iff_forall_not_mem.mpr fun part among => ?_
    obtain ⟨phase, here⟩ := (sound.listed _ part.key).mp (List.mem_map_of_mem among)
    have differs : part.key ≠ s := by
      intro same
      rw [same] at phase
      exact unlisted phase
    exact others part.key differs ⟨holding_of_listed phase, here⟩
  obtain ⟨other, holder⟩ := clean.removed name _ found empty
  by_cases this : other = s
  · rw [this] at holder
    exact absurd ((holds_self sessions).mp holder).1 (by simp [Phase.holding])
  · exact others other this ((holds_of_ne sessions this).mp holder)

/-- A step that is not harmless leaves a table that is not clean. -/
theorem Sound.breaks {event : Event} (sound : hub.Sound) (harmful : ¬ hub.Harmless event) :
    ∃ next, Conference.step hub event = some next ∧ ¬ next.Clean := by
  cases event with
  | enter s roomName callsign => exact (harmful trivial).elim
  | wake s received input => exact (harmful trivial).elim
  | resume s =>
      rw [Harmless] at harmful
      split at harmful
      · next waits =>
          refine ⟨hub.setPhase s (.ended true), by rw [Conference.step, waits]; rfl, ?_⟩
          exact sound.not_clean_of_alone (by rw [waits]; simp [Phase.listed, Await.listed]) harmful
      · exact (harmful trivial).elim
  | raise s =>
      rw [Harmless] at harmful
      split at harmful
      · next await waits =>
          refine ⟨hub.setPhase s await.raised, by rw [Conference.step, waits], ?_⟩
          cases await
          case welcome | announce | leave => exact sound.not_clean_of_listed (by rw [waits]; rfl)
          case join | farewell | left | remove =>
            exact sound.not_clean_of_alone (by rw [waits]; simp [Phase.listed, Await.listed])
              harmful
          all_goals exact (harmful trivial).elim
      · exact (harmful trivial).elim

end Hub

/-- The rooms are clean after every step of a run exactly if none of its steps is an
exception in the wrong place. -/
theorem clean_iff_harmless (events : List Event) :
    Throughout step Hub.Clean empty events ↔ EveryStep step Hub.Harmless empty events :=
  throughout_iff_everyStep (fun _ _ _ sound harmless moved => sound.step harmless moved)
    (fun _ sound => sound.clean) (fun _ _ sound harmful => sound.breaks harmful)
    Hub.sound_empty events

/-- A session enters a room and the welcome text cannot be sent. -/
def deadOnArrival : List Event :=
  [.enter 0 "CONF" "AB1C", .resume 0, .resume 0, .raise 0]

/-- The session has ended, and its room lists it. -/
theorem listed_for_ever : ¬ Throughout step Hub.Clean empty deadOnArrival := by
  intro clean
  obtain ⟨hub, reached, ended, listed⟩ : ∃ hub, run step empty deadOnArrival = some hub ∧
      (hub.sessions 0).phase.over ∧ 0 ∈ (hub.rooms 0).keys :=
    ⟨_, rfl, rfl, List.mem_cons_self⟩
  exact (clean deadOnArrival hub List.prefix_rfl reached).unlisted 0 ended 0 listed

end PyBulletin.Transport.Conference
