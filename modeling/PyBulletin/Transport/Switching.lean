import PyBulletin.Transport.Membership

set_option autoImplicit false

namespace PyBulletin.Transport.Conference

open PyBulletin.Foundation

/-! # Switching rooms

Where the lines of a session want it to be, and where it is. -/

/-- A line that leaves the conference. -/
def exits (line : Text) : Prop := Text.upper (Text.strip line) ∈ exitCmds

instance (line : Text) : Decidable (exits line) := inferInstanceAs (Decidable (_ ∈ _))

/-- The `new_room` of `/J` and `/JOIN`, where it is not blank. -/
def newRoom (line : Text) : Option Text :=
  let stripped := Text.strip line
  let upper := Text.upper stripped
  if ("/J " : Text).isPrefixOf upper ∨ ("/JOIN " : Text).isPrefixOf upper then
    match Text.splitWord stripped with
    | some (_, some room) => if Text.strip room ≠ [] then some (Text.strip room) else none
    | _ => none
  else none

inductive Whereabouts where
  | outside
  | inRoom (name : Text)
  | gone
  deriving DecidableEq

namespace Whereabouts

/-- Where a line leads to. -/
def read (place : Whereabouts) (line : Text) : Whereabouts :=
  if exits line then .gone
  else
    match newRoom line with
    | some room => .inRoom (norm room)
    | none => place

/-- Where a line leads to in `enter_room`, which never gets to know of a room to switch to. -/
def hear (place : Whereabouts) (line : Text) : Whereabouts :=
  if exits line ∨ (newRoom line).isSome then .gone else place

/-- What an event does to the whereabouts of session `s`, where `turn` is what a line does. -/
def follow (turn : Whereabouts → Text → Whereabouts) (s : Nat) (place : Whereabouts) :
    Event → Whereabouts
  | .enter t roomName _ => if t = s then .inRoom (norm roomName) else place
  | .wake t _ (some (.line text)) => if t = s then turn place text else place
  | _ => place

end Whereabouts

/-- The room that the session has named last, or the end of its conference. -/
def whereabouts (s : Nat) (events : List Event) : Whereabouts :=
  events.foldl (Whereabouts.follow Whereabouts.read s) .outside

/-- The session waits for its next line, or it is not in `enter_room`. -/
def Phase.settled : Phase → Bool
  | .waiting .wait | .absent | .ended _ => true
  | _ => false

/-- A settled session is where its lines want it to be: a participant of that room and of no other,
or back from `enter_room` after an exit command. -/
def Hub.Follows (hub : Hub) (s : Nat) : Whereabouts → Prop
  | .outside => (hub.sessions s).phase = .absent
  | .inRoom name =>
      (hub.sessions s).phase = .waiting .wait ∧
        ∃ room, (hub.rooms room).name = name ∧ ∀ other, s ∈ (hub.rooms other).keys ↔ other = room
  | .gone => (hub.sessions s).phase = .ended false ∧ ∀ room, s ∉ (hub.rooms room).keys

/-- An exception where the session waits, or a read that fails. -/
def Disturbs (s : Nat) : Event → Prop
  | .raise t => t = s
  | .wake t _ (some .error) | .wake t _ (some .cancelled) => t = s
  | _ => False

/-- A line `/J r` or `/JOIN r` of the session. -/
def Switches (s : Nat) : Event → Prop
  | .wake t _ (some (.line text)) => t = s ∧ (newRoom text).isSome
  | _ => False

instance (s : Nat) : (event : Event) → Decidable (Disturbs s event)
  | .raise _ | .wake _ _ (some .error) | .wake _ _ (some .cancelled) => inferInstanceAs (Decidable (_ = _))
  | .enter .. | .resume _ | .wake _ _ none | .wake _ _ (some (.line _)) => isFalse id

instance (s : Nat) : (event : Event) → Decidable (Switches s event)
  | .wake _ _ (some (.line _)) => inferInstanceAs (Decidable (_ ∧ _))
  | .enter .. | .resume _ | .raise _ | .wake _ _ none | .wake _ _ (some .error)
  | .wake _ _ (some .cancelled) => isFalse id

theorem newRoom_of_mem {line : Text} {cmds : List Text}
    (other : ∀ cmd ∈ cmds, ¬ (("/J " : Text).isPrefixOf cmd ∨ ("/JOIN " : Text).isPrefixOf cmd))
    (listed : Text.upper (Text.strip line) ∈ cmds) : newRoom line = none :=
  if_neg (other _ listed)

theorem newRoom_of_exits {line : Text} (out : exits line) : newRoom line = none :=
  newRoom_of_mem (by decide) out

/-- An exit command and a switch are the same to the loop. -/
theorem command_leave (line : Text) :
    command line = .leave ↔ exits line ∨ (newRoom line).isSome := by
  rw [command, exits]
  split
  · next out => simp [out]
  · next stays =>
      simp only [stays, false_or]
      split
      · next who => simp [newRoom_of_mem (by decide) who]
      · split
        · next rooms => simp [newRoom_of_mem (by decide) rooms]
        · rw [newRoom]
          split
          · split
            · split <;> simp [*]
            · simp
          · split <;> simp

/-- Where a session that waits here is, or will be at once. -/
def Await.place (name : Text) : Await → Whereabouts
  | .deliver (some (.line text)) => (Whereabouts.inRoom name).hear text
  | .deliver (some .error) | .deliver (some .cancelled) => .gone
  | .leave _ | .farewell _ | .left _ | .remove => .gone
  | _ => .inRoom name

def Session.place (session : Session) : Whereabouts :=
  match session.phase with
  | .absent => .outside
  | .waiting await => await.place session.name
  | .ended _ => .gone

theorem handle_place (call name : Text) (input : Option Input) :
    (handle call input).place name = (Await.deliver input).place name := by
  match input with
  | none | some .error | some .cancelled => rfl
  | some (.line text) =>
      change (handle call (some (.line text))).place name = (Whereabouts.inRoom name).hear text
      rw [Whereabouts.hear]
      have leave := command_leave text
      rw [handle]
      cases said : command text with
      | leave => simp [Await.place, ← leave, said]
      | who | rooms | again | say => simp [Await.place, ← leave, said]

/-- The session that an event is about. -/
def Event.session : Event → Nat
  | .enter s _ _ | .resume s | .wake s _ _ | .raise s => s

section Steps

variable {hub next : Hub} {s t : Nat} {await : Await} {event : Event}

theorem sessions_setPhase_of_ne (other : t ≠ s) (hub : Hub) (phase : Phase) :
    (hub.setPhase t phase).sessions s = hub.sessions s :=
  Function.update_of_ne other.symm ..

theorem sessions_getOrCreate_of_ne (other : t ≠ s) (hub : Hub) :
    (hub.getOrCreate t).sessions s = hub.sessions s := by
  rw [Hub.getOrCreate]
  split <;> exact Function.update_of_ne other.symm ..

theorem session_getOrCreate (hub : Hub) :
    ((hub.getOrCreate s).sessions s).name = (hub.sessions s).name := by
  rw [Hub.getOrCreate]
  split <;> simp

theorem sessions_resume_of_ne (other : t ≠ s) (moved : hub.resume t await = some next) :
    next.sessions s = hub.sessions s := by
  cases await with
  | wait => cases moved
  | getRoom =>
      cases moved
      rw [sessions_setPhase_of_ne other, sessions_getOrCreate_of_ne other]
  | remove =>
      cases moved
      rw [sessions_setPhase_of_ne other, (Hub.maybeRemove_kept _ _).2.2]
  | _ =>
      cases moved
      exact sessions_setPhase_of_ne other ..

/-- A step leaves the other sessions as they are. -/
theorem sessions_step_of_ne (other : event.session ≠ s) (moved : step hub event = some next) :
    next.sessions s = hub.sessions s := by
  cases event with
  | enter t roomName callsign =>
      rw [step] at moved
      split at moved
      · cases moved
        exact Function.update_of_ne (Ne.symm other) ..
      · cases moved
  | resume t =>
      rw [step] at moved
      split at moved
      · exact sessions_resume_of_ne other moved
      · cases moved
  | wake t received input =>
      rw [step] at moved
      split at moved
      · split at moved
        · obtain ⟨room, -, rfl⟩ := Option.map_eq_some_iff.mp moved
          exact sessions_setPhase_of_ne other ..
        · split at moved
          · cases moved
            exact sessions_setPhase_of_ne other ..
          · cases moved
      · cases moved
  | raise t =>
      rw [step] at moved
      split at moved
      · cases moved
        exact sessions_setPhase_of_ne other ..
      · cases moved

theorem place_setPhase (hub : Hub) (phase : Phase) :
    ((hub.setPhase s phase).sessions s).place = Session.place { hub.sessions s with phase } :=
  congrArg Session.place (Function.update_self ..)

theorem place_resume (waits : (hub.sessions s).phase = .waiting await)
    (moved : hub.resume s await = some next) : (next.sessions s).place = (hub.sessions s).place := by
  rw [Session.place.eq_def (hub.sessions s), waits]
  cases await with
  | wait => cases moved
  | getRoom =>
      cases moved
      rw [place_setPhase]
      exact congrArg Whereabouts.inRoom (session_getOrCreate hub)
  | deliver input =>
      cases moved
      rw [place_setPhase]
      exact handle_place ..
  | left raised =>
      cases moved
      rw [place_setPhase]
      cases raised <;> rfl
  | remove =>
      cases moved
      rw [place_setPhase]
      rfl
  | _ =>
      cases moved
      rw [place_setPhase]
      rfl

/-- Undisturbed, a session goes where its lines lead to by what the loop makes of them. -/
theorem place_step (undisturbed : ¬ Disturbs s event) (moved : step hub event = some next) :
    (next.sessions s).place = (hub.sessions s).place.follow Whereabouts.hear s event := by
  by_cases own : event.session = s
  · subst own
    cases event with
    | enter t roomName callsign =>
        rw [step] at moved
        split at moved
        · cases moved
          change (Function.update hub.sessions t _ t).place = _
          rw [Function.update_self]
          exact (if_pos rfl).symm
        · cases moved
    | resume t =>
        rw [step] at moved
        split at moved
        · next waits => exact place_resume waits moved
        · cases moved
    | wake t received input =>
        have turn (next : Hub) (place : (next.sessions t).place =
            (Await.deliver input).place (hub.sessions t).name) (waits : (hub.sessions t).phase = .waiting .wait) :
            (next.sessions t).place =
              (hub.sessions t).place.follow Whereabouts.hear t (.wake t received input) := by
          have here : (hub.sessions t).place = .inRoom (hub.sessions t).name := by
            rw [Session.place, waits]
            rfl
          rw [place, here]
          rcases input with _ | text | _ | _
          · rfl
          · exact (if_pos rfl).symm
          · exact absurd rfl undisturbed
          · exact absurd rfl undisturbed
        rw [step] at moved
        split at moved
        · next waits =>
            split at moved
            · obtain ⟨room, -, rfl⟩ := Option.map_eq_some_iff.mp moved
              refine turn _ ?_ waits
              rw [place_setPhase]
              rfl
            · split at moved
              · cases moved
                refine turn _ ?_ waits
                rw [place_setPhase]
                exact handle_place ..
              · cases moved
        · cases moved
    | raise t => exact absurd rfl undisturbed
  · rw [sessions_step_of_ne own moved]
    cases event with
    | enter t roomName callsign => exact (if_neg own).symm
    | resume t => rfl
    | wake t received input =>
        rcases input with _ | text | _ | _
        · rfl
        · exact (if_neg own).symm
        · rfl
        · rfl
    | raise t => rfl

end Steps

/-- No exception is on its way. -/
def Phase.calm : Phase → Bool
  | .waiting (.leave raised) | .waiting (.farewell raised) | .waiting (.left raised) => !raised
  | .waiting (.deliver (some .cancelled)) => false
  | .ended raised => !raised
  | _ => true

/-- The table has rooms under their names, session `s` is in its room only while it is listed, and
the room has the name it has asked for. -/
structure Hub.Placed (hub : Hub) (s : Nat) : Prop where
  calm : (hub.sessions s).phase.calm
  filed : ∀ name room, hub.table name = some room →
    (hub.rooms room).name = name ∧ room < hub.count
  listed : ∀ room, s ∈ (hub.rooms room).keys ↔
    (hub.sessions s).phase.listed ∧ (hub.sessions s).room = room
  held : (hub.sessions s).phase.holding →
    (hub.rooms (hub.sessions s).room).name = (hub.sessions s).name ∧ (hub.sessions s).room < hub.count

namespace Hub

variable {hub next : Hub} {s t : Nat} {await : Await} {phase : Phase}

theorem placed_empty : empty.Placed s where
  calm := rfl
  filed name room found := by cases found
  listed room := by
    constructor
    · intro listed
      cases listed
    · rintro ⟨listed, -⟩
      cases listed
  held holding := by cases holding

namespace Placed

theorem move (placed : hub.Placed s) (count : next.count = hub.count)
    (names : ∀ room, (next.rooms room).name = (hub.rooms room).name)
    (table : ∀ name room, next.table name = some room → hub.table name = some room)
    (calm : (next.sessions s).phase.calm)
    (listed : ∀ room, s ∈ (next.rooms room).keys ↔
      (next.sessions s).phase.listed ∧ (next.sessions s).room = room)
    (held : (next.sessions s).phase.holding → (hub.sessions s).phase.holding ∧
      (next.sessions s).room = (hub.sessions s).room ∧ (next.sessions s).name = (hub.sessions s).name) :
    next.Placed s where
  calm := calm
  filed name room found := by
    rw [names, count]
    exact placed.filed name room (table name room found)
  listed := listed
  held holding := by
    obtain ⟨before, room, name⟩ := held holding
    rw [room, name, names, count]
    exact placed.held before

theorem setPhase (placed : hub.Placed s) (calm : t = s → phase.calm)
    (listed : t = s → phase.listed = (hub.sessions s).phase.listed)
    (holding : t = s → phase.holding → (hub.sessions s).phase.holding) :
    (hub.setPhase t phase).Placed s := by
  by_cases own : t = s
  · subst own
    have session : (hub.setPhase t phase).sessions t = { hub.sessions t with phase } :=
      Function.update_self ..
    refine placed.move rfl (fun _ => rfl) (fun _ _ found => found) ?_ (fun room => ?_) ?_
    · rw [session]
      exact calm rfl
    · rw [session]
      dsimp only
      rw [listed rfl]
      exact placed.listed room
    · rw [session]
      exact fun holds => ⟨holding rfl holds, rfl, rfl⟩
  · have session := sessions_setPhase_of_ne own hub phase
    refine placed.move rfl (fun _ => rfl) (fun _ _ found => found) ?_ (fun room => ?_) ?_
    · rw [session]
      exact placed.calm
    · rw [session]
      exact placed.listed room
    · rw [session]
      exact fun holds => ⟨holds, rfl, rfl⟩

theorem setRoom {f : Room → Room} (placed : hub.Placed s)
    (name : (f (hub.rooms (hub.sessions t).room)).name = (hub.rooms (hub.sessions t).room).name)
    (keys : s ∈ (f (hub.rooms (hub.sessions t).room)).keys ↔
      s ∈ (hub.rooms (hub.sessions t).room).keys) : (hub.setRoom t f).Placed s := by
  have same (room : Nat) : ((hub.setRoom t f).rooms room).name = (hub.rooms room).name ∧
      (s ∈ ((hub.setRoom t f).rooms room).keys ↔ s ∈ (hub.rooms room).keys) := by
    by_cases this : room = (hub.sessions t).room
    · rw [this, rooms_setRoom_self]
      exact ⟨name, keys⟩
    · rw [rooms_setRoom_of_ne _ _ this]
      exact ⟨rfl, Iff.rfl⟩
  exact placed.move rfl (fun room => (same room).1) (fun _ _ found => found) placed.calm
    (fun room => (same room).2.trans (placed.listed room)) fun holds => ⟨holds, rfl, rfl⟩

theorem enter (placed : hub.Placed s) (absent : (hub.sessions t).phase = .absent) {session : Session}
    (waits : session.phase = .waiting .getRoom) :
    Placed { hub with sessions := Function.update hub.sessions t session } s := by
  by_cases own : t = s
  · subst own
    refine placed.move rfl (fun _ => rfl) (fun _ _ found => found) ?_ (fun room => ?_) ?_ <;>
      dsimp only <;> rw [Function.update_self, waits]
    · rfl
    · rw [placed.listed, absent]
      simp [Phase.listed, Await.listed]
    · exact fun holds => by cases holds
  · refine placed.move rfl (fun _ => rfl) (fun _ _ found => found) ?_ (fun room => ?_) ?_ <;>
      dsimp only <;> rw [Function.update_of_ne (Ne.symm own)]
    · exact placed.calm
    · exact placed.listed room
    · exact fun holds => ⟨holds, rfl, rfl⟩

theorem join (placed : hub.Placed s) (waits : (hub.sessions s).phase = .waiting .join)
    {part : Participant} (key : part.key = s) :
    ((hub.setRoom s (·.add part)).setPhase s (.waiting .welcome)).Placed s := by
  have session : ((hub.setRoom s (·.add part)).setPhase s (.waiting .welcome)).sessions s =
      { hub.sessions s with phase := .waiting .welcome } := Function.update_self ..
  refine placed.move rfl (@name_setRoom hub s (·.add part) fun _ => rfl) (fun _ _ found => found)
    ?_ (fun room => ?_) ?_
  · rw [session]
    rfl
  · rw [session]
    change s ∈ ((hub.setRoom s (·.add part)).rooms room).keys ↔ _
    by_cases this : room = (hub.sessions s).room
    · rw [this, rooms_setRoom_self]
      simp [Room.add, Room.keys, key, Phase.listed, Await.listed]
    · rw [rooms_setRoom_of_ne _ _ this, placed.listed, waits]
      simp [Phase.listed, Await.listed, Ne.symm this]
  · rw [session, waits]
    exact fun _ => ⟨rfl, rfl, rfl⟩

theorem leave {raised : Bool} (placed : hub.Placed s)
    (waits : (hub.sessions s).phase = .waiting (.leave raised)) :
    ((hub.setRoom s (·.pop s)).setPhase s (.waiting (.farewell raised))).Placed s := by
  have session : ((hub.setRoom s (·.pop s)).setPhase s (.waiting (.farewell raised))).sessions s =
      { hub.sessions s with phase := .waiting (.farewell raised) } := Function.update_self ..
  refine placed.move rfl (@name_setRoom hub s (·.pop s) fun _ => rfl) (fun _ _ found => found)
    ?_ (fun room => ?_) ?_
  · have calm := placed.calm
    rw [waits] at calm
    rw [session]
    exact calm
  · rw [session]
    change s ∈ ((hub.setRoom s (·.pop s)).rooms room).keys ↔ _
    by_cases this : room = (hub.sessions s).room
    · rw [this, rooms_setRoom_self]
      simp [Room.pop, Room.keys, Phase.listed, Await.listed]
    · rw [rooms_setRoom_of_ne _ _ this, placed.listed]
      simp [Phase.listed, Await.listed, Ne.symm this]
  · rw [session, waits]
    exact fun _ => ⟨rfl, rfl, rfl⟩

theorem getOrCreate (placed : hub.Placed s) (waits : (hub.sessions t).phase = .waiting .getRoom) :
    ((hub.getOrCreate t).setPhase t (.waiting .join)).Placed s := by
  obtain ⟨session, got⟩ := @acquires_getOrCreate hub t fun room found => placed.filed _ room found
  generalize (hub.getOrCreate t).setPhase t (.waiting .join) = next at got
  have keys (room : Nat) : s ∈ (next.rooms room).keys ↔ s ∈ (hub.rooms room).keys := by
    by_cases this : room < hub.count
    · rw [got.rooms room this]
    · have apart : s ∉ (hub.rooms room).keys := by
        intro listed
        obtain ⟨phase, here⟩ := (placed.listed room).mp listed
        exact this (here ▸ (placed.held (holding_of_listed phase)).2)
      rcases got.empty room (Nat.le_of_not_lt this) with same | none_
      · rw [same]
      · rw [none_]
        exact iff_of_false List.not_mem_nil apart
  have filed (name : Text) (room : Nat) (found : next.table name = some room) :
      (next.rooms room).name = name ∧ room < next.count := by
    rcases got.table name room found with before | ⟨called, here⟩
    · obtain ⟨named, old⟩ := placed.filed name room before
      exact ⟨by rw [got.rooms room old, named], old.trans_le got.count⟩
    · rw [← here, ← called]
      exact ⟨got.name, got.fits⟩
  by_cases own : t = s
  · subst own
    have now_ : next.sessions t = session := by rw [got.sessions, Function.update_self]
    refine ⟨?_, filed, fun room => ?_, fun _ => ?_⟩
    · rw [now_, got.phase]
      rfl
    · rw [keys, placed.listed, now_, waits, got.phase]
      simp [Phase.listed, Await.listed]
    · rw [now_]
      exact ⟨got.name, got.fits⟩
  · have now_ : next.sessions s = hub.sessions s := by
      rw [got.sessions, Function.update_of_ne (Ne.symm own)]
    refine ⟨?_, filed, fun room => ?_, fun holds => ?_⟩
    · rw [now_]
      exact placed.calm
    · rw [keys, now_]
      exact placed.listed room
    · rw [now_] at holds ⊢
      obtain ⟨named, old⟩ := placed.held holds
      exact ⟨by rw [got.rooms _ old, named], old.trans_le got.count⟩

theorem remove (placed : hub.Placed s) (waits : (hub.sessions t).phase = .waiting .remove) :
    ((hub.maybeRemove (hub.sessions t).name).setPhase t (.ended false)).Placed s := by
  obtain ⟨rooms, count, kept⟩ := hub.maybeRemove_kept (hub.sessions t).name
  have cut : (hub.maybeRemove (hub.sessions t).name).Placed s := by
    refine placed.move count (fun room => by rw [rooms])
      (fun name room found => (table_maybeRemove found).1) ?_ (fun room => ?_) ?_
    · rw [kept]
      exact placed.calm
    · rw [rooms, kept]
      exact placed.listed room
    · rw [kept]
      exact fun holds => ⟨holds, rfl, rfl⟩
  refine cut.setPhase (fun _ => rfl) ?_ (fun _ holds => nomatch holds)
  rintro rfl
  rw [kept, waits]
  rfl

theorem handle_calm (call : Text) {input : Option Input}
    (calm : (Phase.waiting (.deliver input)).calm) : (Phase.waiting (handle call input)).calm := by
  match input with
  | none | some .error => rfl
  | some .cancelled => cases calm
  | some (.line text) =>
      rw [handle]
      cases command text <;> rfl

theorem resume (placed : hub.Placed s) (waits : (hub.sessions t).phase = .waiting await)
    (moved : hub.resume t await = some next) : next.Placed s := by
  have own {phase : Phase} (same : t = s) (calm : (Phase.waiting await).calm → phase.calm) : phase.calm := by
    have before := placed.calm
    rw [← same, waits] at before
    exact calm before
  -- The session goes on, in the room or outside it as before.
  have phase {following : Await}
      (calm : (Phase.waiting await).calm → (Phase.waiting following).calm)
      (listed : following.listed = await.listed)
      (holding : (Phase.waiting following).holding → (Phase.waiting await).holding) :
      (hub.setPhase t (.waiting following)).Placed s := by
    refine placed.setPhase (own · calm) ?_ ?_
    · rintro rfl
      rw [waits]
      exact listed
    · rintro rfl
      rw [waits]
      exact holding
  have speak {following : Await} (text : Text) (key : Option Nat)
      (calm : (Phase.waiting await).calm → (Phase.waiting following).calm)
      (listed : following.listed = await.listed)
      (holding : (Phase.waiting following).holding → (Phase.waiting await).holding) :
      ((hub.setRoom t (·.broadcast text key)).setPhase t (.waiting following)).Placed s := by
    have told : (hub.setRoom t (·.broadcast text key)).Placed s :=
      placed.setRoom rfl (by rw [keys_broadcast])
    refine told.setPhase (own · calm) ?_ ?_
    · rintro rfl
      exact listed.trans (congrArg Phase.listed waits.symm)
    · rintro rfl holds
      exact (congrArg Phase.holding waits).trans (holding holds)
  cases await <;> cases moved
  case getRoom => exact placed.getOrCreate waits
  case join =>
    by_cases this : t = s
    · subst this
      exact placed.join waits rfl
    · have other : (hub.setRoom t (·.add ⟨t, Text.upper (hub.sessions t).call, []⟩)).Placed s :=
        placed.setRoom rfl (by simp [Room.add, Room.keys, Ne.symm this])
      exact other.setPhase (absurd · this) (absurd · this) (absurd · this)
  case welcome => exact phase (fun _ => rfl) rfl id
  case announce => exact speak _ _ (fun _ => rfl) rfl id
  case deliver input =>
    exact phase (handle_calm _) (handle_listed _ _).1 fun _ => rfl
  case who => exact phase (fun _ => rfl) rfl id
  case whoList => exact phase (fun _ => rfl) rfl id
  case rooms => exact phase (fun _ => rfl) rfl id
  case echo msg => exact phase (fun _ => rfl) rfl id
  case say msg => exact speak _ _ (fun _ => rfl) rfl id
  case leave raised =>
    by_cases this : t = s
    · subst this
      exact placed.leave waits
    · have other : (hub.setRoom t (·.pop t)).Placed s := by
        refine placed.setRoom rfl ?_
        simp only [Room.pop, Room.keys, List.mem_map, List.mem_filter, decide_eq_true_eq]
        constructor
        · rintro ⟨part, ⟨listed, -⟩, key⟩
          exact ⟨part, listed, key⟩
        · rintro ⟨part, listed, rfl⟩
          exact ⟨part, ⟨listed, Ne.symm this⟩, rfl⟩
      exact other.setPhase (absurd · this) (absurd · this) (absurd · this)
  case farewell raised => exact speak _ _ id rfl id
  case left raised =>
    cases raised with
    | false => exact phase (fun _ => rfl) rfl id
    | true =>
        refine placed.setPhase (own · id) ?_ fun _ holds => by cases holds
        rintro rfl
        rw [waits]
        rfl
  case remove => exact placed.remove waits

theorem step {event : Event} (placed : hub.Placed s) (undisturbed : ¬ Disturbs s event)
    (moved : Conference.step hub event = some next) : next.Placed s := by
  cases event with
  | enter t roomName callsign =>
      rw [Conference.step] at moved
      split at moved
      · next absent =>
          cases moved
          exact placed.enter absent rfl
      · cases moved
  | resume t =>
      rw [Conference.step] at moved
      split at moved
      · next await waits => exact placed.resume waits moved
      · cases moved
  | wake t received input =>
      have calm : t = s → (Phase.waiting (.deliver input)).calm := by
        rintro rfl
        rcases input with _ | text | _ | _
        · rfl
        · rfl
        · rfl
        · exact absurd rfl undisturbed
      rw [Conference.step] at moved
      split at moved
      · next waits =>
          split at moved
          · obtain ⟨room, taken, rfl⟩ := Option.map_eq_some_iff.mp moved
            have got : (hub.setRoom t fun _ => room).Placed s :=
              placed.setRoom (get_keys taken).2 (by rw [(get_keys taken).1])
            refine got.setPhase calm ?_ ?_
            · rintro rfl
              exact (congrArg Phase.listed waits).symm
            · rintro rfl _
              exact congrArg Phase.holding waits
          · split at moved
            · cases moved
              obtain ⟨listed, holding⟩ := handle_listed (Text.upper (hub.sessions t).call) input
              refine placed.setPhase (fun own => handle_calm _ (calm own)) ?_ ?_
              · rintro rfl
                rw [waits]
                exact listed
              · rintro rfl _
                rw [waits]
                rfl
            · cases moved
      · cases moved
  | raise t =>
      rw [Conference.step] at moved
      split at moved
      · next await waits =>
          cases moved
          have other : t ≠ s := fun own => undisturbed own
          exact placed.setPhase (absurd · other) (absurd · other) (absurd · other)
      · cases moved

/-- A settled session is in one place. -/
theorem follows_iff (placed : hub.Placed s) (settled : (hub.sessions s).phase.settled)
    {place : Whereabouts} : hub.Follows s place ↔ place = (hub.sessions s).place := by
  have listed := placed.listed
  have held := placed.held
  have calm := placed.calm
  rw [Session.place]
  cases phase : (hub.sessions s).phase with
  | absent => cases place <;> simp [Follows, phase]
  | ended raised =>
      rw [phase] at listed calm
      cases raised with
      | true => cases calm
      | false => cases place <;> simp [Follows, phase, listed, Phase.listed]
  | waiting await =>
      rw [phase] at settled listed held
      cases await with
      | wait =>
          obtain ⟨named, -⟩ := held rfl
          cases place with
          | outside => simp [Follows, phase, Await.place]
          | gone => simp [Follows, phase, Await.place]
          | inRoom name =>
              simp only [Follows, phase, true_and, Await.place, Whereabouts.inRoom.injEq]
              constructor
              · rintro ⟨room, rfl, only⟩
                have here : (hub.sessions s).room = room := (only _).mp ((listed _).mpr ⟨rfl, rfl⟩)
                rw [← here, named]
              · rintro rfl
                refine ⟨(hub.sessions s).room, named, fun other => ?_⟩
                rw [listed]
                exact ⟨fun here => here.2.symm, fun here => ⟨rfl, here.symm⟩⟩
      | _ => cases settled

end Placed

end Hub

section Runs

variable {start final : Hub} {s : Nat} {events : List Event}

theorem placed_run (placed : start.Placed s) (undisturbed : ∀ event ∈ events, ¬ Disturbs s event)
    (ran : run step start events = some final) :
    final.Placed s ∧ (final.sessions s).place =
      events.foldl (Whereabouts.follow Whereabouts.hear s) (start.sessions s).place := by
  induction events generalizing start with
  | nil =>
      cases ran
      exact ⟨placed, rfl⟩
  | cons event events ih =>
      obtain ⟨next, moved, rest⟩ := run_cons ran
      have calm := undisturbed event List.mem_cons_self
      rw [List.foldl_cons, ← place_step calm moved]
      exact ih (placed.step calm moved) (fun later listed => undisturbed later (List.mem_cons_of_mem _ listed))
        rest

/-- A session that is gone reads no more lines. -/
theorem follow_gone {hub next : Hub} {event : Event} (gone : (hub.sessions s).place = .gone)
    (moved : step hub event = some next) (turn : Whereabouts → Text → Whereabouts) (place : Whereabouts) :
    place.follow turn s event = place := by
  cases event with
  | resume t | raise t => rfl
  | enter t roomName callsign =>
      refine if_neg ?_
      rintro rfl
      rw [step] at moved
      split at moved
      · next absent =>
          rw [Session.place, absent] at gone
          cases gone
      · cases moved
  | wake t received input =>
      rcases input with _ | text | _ | _
      · rfl
      · refine if_neg ?_
        rintro rfl
        rw [step] at moved
        split at moved
        · next waits =>
            rw [Session.place, waits] at gone
            cases gone
        · cases moved
      · rfl
      · rfl

theorem foldl_gone (gone : (start.sessions s).place = .gone)
    (undisturbed : ∀ event ∈ events, ¬ Disturbs s event) (ran : run step start events = some final)
    (turn : Whereabouts → Text → Whereabouts) (place : Whereabouts) :
    events.foldl (Whereabouts.follow turn s) place = place := by
  induction events generalizing start with
  | nil => rfl
  | cons event events ih =>
      obtain ⟨next, moved, rest⟩ := run_cons ran
      have still : (next.sessions s).place = .gone := by
        rw [place_step (undisturbed event List.mem_cons_self) moved, gone]
        exact follow_gone gone moved ..
      rw [List.foldl_cons, follow_gone gone moved]
      exact ih still (fun later listed => undisturbed later (List.mem_cons_of_mem _ listed)) rest

/-- Only a line that switches leads elsewhere than it should. -/
theorem follow_read_eq {event : Event} (stays : ¬ Switches s event) (place : Whereabouts) :
    place.follow Whereabouts.read s event = place.follow Whereabouts.hear s event := by
  match event with
  | .resume _ | .raise _ | .enter .. | .wake _ _ none | .wake _ _ (some .error)
  | .wake _ _ (some .cancelled) => rfl
  | .wake t received (some (.line text)) =>
      by_cases own : t = s
      · have none_ : newRoom text = none := by
          by_contra some_
          exact stays ⟨own, Option.isSome_iff_ne_none.mpr some_⟩
        simp [Whereabouts.follow, Whereabouts.read, Whereabouts.hear, none_]
      · exact (if_neg own).trans (if_neg own).symm

theorem follow_switch {event : Event} (switches : Switches s event) (place : Whereabouts) :
    (∃ room, place.follow Whereabouts.read s event = .inRoom (norm room)) ∧
      place.follow Whereabouts.hear s event = .gone := by
  match event, switches with
  | .wake t received (some (.line text)), ⟨own, some_⟩ =>
      obtain ⟨room, named⟩ := Option.isSome_iff_exists.mp some_
      have stays : ¬ exits text := fun out => by simp [newRoom_of_exits out] at named
      refine ⟨⟨room, (if_pos own).trans ?_⟩, (if_pos own).trans (if_pos (.inr some_))⟩
      rw [Whereabouts.read, if_neg stays, named]

theorem foldl_read_iff (undisturbed : ∀ event ∈ events, ¬ Disturbs s event)
    (ran : run step start events = some final) :
    events.foldl (Whereabouts.follow Whereabouts.read s) (start.sessions s).place =
        events.foldl (Whereabouts.follow Whereabouts.hear s) (start.sessions s).place ↔
      ∀ event ∈ events, ¬ Switches s event := by
  induction events generalizing start with
  | nil => simp
  | cons event events ih =>
      obtain ⟨next, moved, rest⟩ := run_cons ran
      have calm := undisturbed event List.mem_cons_self
      have later : ∀ event ∈ events, ¬ Disturbs s event :=
        fun event listed => undisturbed event (List.mem_cons_of_mem _ listed)
      have goes := place_step calm moved
      rw [List.foldl_cons, List.foldl_cons, List.forall_mem_cons]
      by_cases switches : Switches s event
      · obtain ⟨⟨room, wanted⟩, left⟩ := follow_switch switches (start.sessions s).place
        rw [left] at goes
        rw [wanted, left, foldl_gone goes later rest, foldl_gone goes later rest]
        simp [switches]
      · rw [follow_read_eq switches, ← goes, ih later rest]
        simp [switches]

/-- Whenever it is settled, the session is where its lines have led it. -/
def FollowsLines (s : Nat) (events : List Event) : Prop :=
  ∀ front hub, front <+: events → run step empty front = some hub →
    (hub.sessions s).phase.settled → hub.Follows s (whereabouts s front)

/-- A session without exceptions that has come to rest was where its lines led it all the time
exactly if no line of it was a switch. -/
theorem follows_lines_iff (ran : run step empty events = some final)
    (settled : (final.sessions s).phase.settled)
    (undisturbed : ∀ event ∈ events, ¬ Disturbs s event) :
    FollowsLines s events ↔ ∀ event ∈ events, ¬ Switches s event := by
  have follows {front : List Event} {hub : Hub} (among : ∀ event ∈ front, ¬ Disturbs s event)
      (reached : run step empty front = some hub) (settled : (hub.sessions s).phase.settled) :
      hub.Follows s (whereabouts s front) ↔ ∀ event ∈ front, ¬ Switches s event := by
    obtain ⟨placed, place⟩ := placed_run Hub.placed_empty among reached
    rw [placed.follows_iff settled, place]
    exact foldl_read_iff among reached
  constructor
  · intro all
    exact (follows undisturbed ran settled).mp (all events final List.prefix_rfl ran settled)
  · intro stays front hub ofRun reached settled
    exact (follows (fun event listed => undisturbed event (ofRun.subset listed)) reached settled).mpr
      fun event listed => stays event (ofRun.subset listed)

/-- The `await`s from here to the next line, or to the end. -/
def Await.ahead : Await → Nat
  | .wait => 0
  | .announce | .say _ | .whoList | .rooms | .remove => 1
  | .welcome | .echo _ | .who | .left _ => 2
  | .join | .farewell _ => 3
  | .getRoom | .leave _ => 4
  | .deliver _ => 5

theorem ahead_handle (call : Text) (input : Option Input) : (handle call input).ahead < 5 := by
  match input with
  | none | some .error | some .cancelled => simp [handle, Await.ahead]
  | some (.line text) =>
      rw [handle]
      cases command text <;> simp [Await.ahead]

/-- Each `await` but that for a line is followed by one closer to it, or by the end. -/
theorem resume_ahead {hub : Hub} {await : Await} (waits : (hub.sessions s).phase = .waiting await)
    (busy : await ≠ .wait) :
    ∃ next, step hub (.resume s) = some next ∧
      ((next.sessions s).phase.settled ∨
        ∃ following, (next.sessions s).phase = .waiting following ∧ following.ahead < await.ahead) := by
  have goes (next : Hub) (phase : Phase) (moved : hub.resume s await = some (next.setPhase s phase))
      (closer : phase.settled ∨ ∃ following, phase = .waiting following ∧ following.ahead < await.ahead) :
      ∃ next, step hub (.resume s) = some next ∧
        ((next.sessions s).phase.settled ∨
          ∃ following, (next.sessions s).phase = .waiting following ∧
            following.ahead < await.ahead) := by
    refine ⟨next.setPhase s phase, ?_, ?_⟩
    · rw [step, waits]
      exact moved
    · rwa [Hub.phase_setPhase]
  cases await with
  | wait => exact absurd rfl busy
  | deliver input => exact goes _ _ rfl (.inr ⟨_, rfl, ahead_handle _ _⟩)
  | left raised =>
      cases raised with
      | true => exact goes _ _ rfl (.inl rfl)
      | false => exact goes _ _ rfl (.inr ⟨_, rfl, Nat.lt_succ_self _⟩)
  | remove => exact goes _ _ rfl (.inl rfl)
  | _ => exact goes _ _ rfl (.inr ⟨_, rfl, Nat.lt_succ_self _⟩)

/-- Left to itself a session comes to rest. -/
theorem comes_to_rest (s : Nat) (hub : Hub) :
    ∃ n next, run step hub (List.replicate n (.resume s)) = some next ∧
      (next.sessions s).phase.settled := by
  suffices ∀ left hub, (∀ await, (hub.sessions s).phase = .waiting await → await.ahead ≤ left) →
      ∃ n next, run step hub (List.replicate n (.resume s)) = some next ∧
        (next.sessions s).phase.settled by
    refine this 5 hub fun await _ => ?_
    cases await <;> simp [Await.ahead]
  intro left
  induction left with
  | zero =>
      intro hub near
      refine ⟨0, hub, rfl, ?_⟩
      cases phase : (hub.sessions s).phase with
      | absent | ended => rfl
      | waiting await =>
          have none_ := near await phase
          cases await <;> first | rfl | simp [Await.ahead] at none_
  | succ left ih =>
      intro hub near
      by_cases settled : (hub.sessions s).phase.settled
      · exact ⟨0, hub, rfl, settled⟩
      · cases phase : (hub.sessions s).phase with
        | absent | ended =>
            rw [phase] at settled
            exact absurd rfl settled
        | waiting await =>
            have busy : await ≠ .wait := by
              rintro rfl
              rw [phase] at settled
              exact settled rfl
            obtain ⟨next, moved, closer⟩ := resume_ahead phase busy
            have nearer : ∀ await, (next.sessions s).phase = .waiting await → await.ahead ≤ left := by
              intro following waits
              rcases closer with done | ⟨other, same, less⟩
              · rw [waits] at done
                cases following <;> first | exact Nat.zero_le _ | cases done
              · have := near await phase
                cases waits.symm.trans same
                omega
            obtain ⟨n, last, ran, done⟩ := ih next nearer
            exact ⟨n + 1, last, by rw [List.replicate_succ, run, moved]; exact ran, done⟩

end Runs

/-- A session enters a room and comes to its first line. -/
def atFirstLine : List Event :=
  [.enter 0 "CONF" "AB1C", .resume 0, .resume 0, .resume 0, .resume 0]

def switching : List Event :=
  atFirstLine ++ [.wake 0 false (some (.line "/J DX"))] ++ List.replicate 4 (.resume 0)

def chatting : List Event :=
  atFirstLine ++ [.wake 0 false (some (.line "Hello")), .resume 0, .resume 0]

/-- The session is back from `enter_room` though it has named another room. -/
theorem switch_ends_conference : ¬ FollowsLines 0 switching := by
  intro follows
  obtain ⟨hub, ran, ended⟩ : ∃ hub, run step empty switching = some hub ∧
      (hub.sessions 0).phase = .ended false := ⟨_, rfl, rfl⟩
  have wanted : whereabouts 0 switching = .inRoom "DX" := by decide
  have here := follows switching hub List.prefix_rfl ran (by rw [ended]; rfl)
  rw [wanted, Hub.Follows, ended] at here
  exact nomatch here.1

theorem chat_follows : FollowsLines 0 chatting := by
  obtain ⟨hub, ran, settled⟩ : ∃ hub, run step empty chatting = some hub ∧
      (hub.sessions 0).phase.settled := ⟨_, rfl, rfl⟩
  exact (follows_lines_iff ran settled (by decide)).mpr (by decide)

end PyBulletin.Transport.Conference
