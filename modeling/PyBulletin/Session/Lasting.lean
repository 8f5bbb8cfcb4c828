import PyBulletin.Session.Traffic

set_option autoImplicit false

namespace PyBulletin.Session.Traffic

open PyBulletin.Foundation
open PyBulletin.Store
open PyBulletin.Forward

/-! # Killed and held messages

Only `mark_read` looks at the status that it overwrites, and only at the killed one.
-/

def Killed (state : State) (id : Nat) : Prop := state.store.statusOf id = some statusKilled

def Held (state : State) (id : Nat) : Prop := state.store.statusOf id = some statusHeld

instance (state : State) (id : Nat) : Decidable (Killed state id) :=
  inferInstanceAs (Decidable (_ = _))

instance (state : State) (id : Nat) : Decidable (Held state id) :=
  inferInstanceAs (Decidable (_ = _))

/-- The retention cleanup deletes the message. -/
def Deletes (state : State) (event : Event) (id : Nat) : Prop :=
  ∃ cutoffs, event = .cleanup cutoffs ∧ (state.store.cleanupExpired cutoffs).statusOf id = none

/-- The event runs `release_message` on the message. -/
def Releases (codec : Codec) (state : State) (event : Event) (id : Nat) : Prop :=
  operation codec state event = some (.release id)

/-- The operations that would write another status over the one of a killed message. -/
def Operation.revives (id : Nat) : Operation → Bool
  | .hold target | .release target | .markForwarded target => id = target
  | _ => false

/-- The operations besides `release_message` that would end a hold. -/
def Operation.unholds (id : Nat) : Operation → Bool
  | .kill target | .markRead target _ | .markForwarded target => id = target
  | _ => false

/-- No message is held, released or marked as forwarded while it is killed. -/
def SparesKilled (codec : Codec) (state : State) (event : Event) : Prop :=
  ∀ op id, operation codec state event = some op → Killed state id → op.revives id = false

/-- No message is killed, marked as read or marked as forwarded while it is held. -/
def SparesHeld (codec : Codec) (state : State) (event : Event) : Prop :=
  ∀ op id, operation codec state event = some op → Held state id → op.unholds id = false

variable {codec : Codec} {state : State} {event : Event} {op : Operation} {id : Nat}

theorem status_killed : op.status id statusKilled = statusKilled ↔ op.revives id = false := by
  have held : statusHeld ≠ statusKilled := by decide
  have new : statusNew ≠ statusKilled := by decide
  have forwarded : statusForwarded ≠ statusKilled := by decide
  cases op <;> simp [Operation.status, Operation.revives, held, new, forwarded]

theorem status_held :
    op.status id statusHeld = statusHeld ∨ op = .release id ↔ op.unholds id = false := by
  have forwarded : statusForwarded ≠ statusHeld := by decide
  cases op with
  | release target =>
      simp only [Operation.status, Operation.unholds, iff_true]
      by_cases same : id = target
      · exact .inr (same ▸ rfl)
      · exact .inl (if_neg same)
  | _ => simp [Operation.status, Operation.unholds, killed_ne_held, killed_ne_held.symm, read_ne_held,
      forwarded]

theorem keeps_killed_iff :
    Keeps codec statusKilled Deletes state event ↔ SparesKilled codec state event := by
  have cleaned (cutoffs : BBSStore.Cutoffs) (state : State) (id : Nat)
      (known : state.store.statusOf id = some statusKilled) :
      (state.store.cleanupExpired cutoffs).statusOf id = some statusKilled ∨
        Deletes state (.cleanup cutoffs) id := by
    rcases BBSStore.statusOf_cleanupExpired known cutoffs with kept | gone
    · exact .inl kept
    · exact .inr ⟨cutoffs, rfl, gone⟩
  rw [keeps_iff cleaned]
  constructor
  · intro meets op id runs killed
    rcases meets op id runs killed with kept | ⟨cutoffs, rfl, _⟩
    · exact status_killed.mp kept
    · cases runs
  · intro spares op id runs known
    exact .inl (status_killed.mpr (spares op id runs known))

theorem keeps_held_iff :
    Keeps codec statusHeld (Releases codec) state event ↔ SparesHeld codec state event := by
  have cleaned (cutoffs : BBSStore.Cutoffs) (state : State) (id : Nat)
      (known : state.store.statusOf id = some statusHeld) :
      (state.store.cleanupExpired cutoffs).statusOf id = some statusHeld ∨
        Releases codec state (.cleanup cutoffs) id :=
    .inl (BBSStore.statusOf_cleanupExpired_held known cutoffs)
  rw [keeps_iff cleaned]
  have released {op : Operation} {id : Nat} (runs : operation codec state event = some op) :
      Releases codec state event id ↔ op = .release id := by
    rw [Releases, runs, Option.some.injEq]
  constructor
  · intro meets op id runs held
    have ends := meets op id runs held
    rw [released runs] at ends
    exact status_held.mp ends
  · intro spares op id runs known
    rw [released runs]
    exact status_held.mpr (spares op id runs known)

/-- A letter and its reader, for runs on one message. -/
def letter : Message where
  bid := "1_W1AW"
  msgType := msgPrivate
  fromCall := "W1AW"
  toCall := "N0AAA"
  atBbs := ""
  subject := "Hello"
  body := "Hello"
  createdAt := none

def letterStore : BBSStore := (BBSStore.empty.insertMessage letter statusNew).1

def addressee : Caller := ⟨"N0AAA", privUser⟩

def operator : Caller := ⟨"W3BBS", privSysop⟩

def today : DateTime := ⟨2026, 1, 1, 12, 0, 0⟩

/-- Killed messages stay killed until they are deleted, in exactly the runs that never
hold, release or mark as forwarded a killed message. -/
theorem killed_lasts_iff (codec : Codec) (start : State) (events : List Event) :
    Lasting (step codec) Killed Deletes start events ↔
      EveryStep (step codec) (SparesKilled codec) start events := by
  rw [lasting_iff]
  exact everyStep_congr (fun _ _ _ => keeps_killed_iff) (fun _ _ _ _ _ _ => trivial) trivial events

/-- `SR` brings a killed letter back. -/
theorem released_after_kill :
    ¬ ∀ (codec : Codec) (start : State) (events : List Event),
      Lasting (step codec) Killed Deletes start events := by
  intro claimed
  let front : List Event := [.command addressee (.kill [1]), .resume 0 today, .resume 0 today]
  let back : List Event := [.command operator (.release [1]), .resume 1 today, .resume 1 today]
  obtain ⟨middle, killed, status⟩ := Option.map_eq_some_iff.mp
    (by decide +kernel : (run (step bareCodec) (begin letterStore) front).map
      (fun state => state.store.statusOf 1) = some (some statusKilled))
  obtain ⟨final, released, after⟩ := Option.map_eq_some_iff.mp
    (by decide +kernel : (run (step bareCodec) (begin letterStore) (front ++ back)).map
      (fun state => state.store.statusOf 1) = some (some statusNew))
  rw [run_split, killed, Option.bind_some] at released
  rcases claimed bareCodec _ _ front back [] middle final 1 rfl killed released status with
    kept | deleted
  · rw [Killed, after] at kept
    exact absurd kept (by decide)
  · obtain ⟨event, listed, _, cutoffs, rfl, _⟩ := deleted.exists_mem
    simp [back] at listed

/-- Held messages stay held until they are released, in exactly the runs that never
kill, mark as read or mark as forwarded a held message. -/
theorem held_lasts_iff (codec : Codec) (start : State) (events : List Event) :
    Lasting (step codec) Held (Releases codec) start events ↔
      EveryStep (step codec) (SparesHeld codec) start events := by
  rw [lasting_iff]
  exact everyStep_congr (fun _ _ _ => keeps_held_iff) (fun _ _ _ _ _ _ => trivial) trivial events

/-- The letter is held while its reader is in the pager. -/
theorem read_while_held :
    ¬ ∀ (codec : Codec) (start : State) (events : List Event),
      Lasting (step codec) Held (Releases codec) start events := by
  intro claimed
  let front : List Event := [.command addressee (.read [1]), .resume 0 today,
    .command operator (.hold [1]), .resume 1 today, .resume 1 today]
  obtain ⟨middle, held, status⟩ := Option.map_eq_some_iff.mp
    (by decide +kernel : (run (step bareCodec) (begin letterStore) front).map
      (fun state => (state.store.statusOf 1,
        ((state.tasks[0]?).bind Task.pending).map (Operation.revives 1))) =
      some (some statusHeld, some false))
  obtain ⟨final, read, after⟩ := Option.map_eq_some_iff.mp
    (by decide +kernel : (run (step bareCodec) (begin letterStore)
      (front ++ [.resume 0 today])).map (fun state => state.store.statusOf 1) =
      some (some statusRead))
  rw [run_split, held, Option.bind_some] at read
  obtain ⟨marked, pending⟩ := Prod.mk.inj status
  rcases claimed bareCodec _ _ front [.resume 0 today] [] middle final 1 rfl held read marked with
    kept | released | ⟨_, _, later⟩
  · rw [Held, after] at kept
    exact absurd kept (by decide)
  · rw [show (middle.tasks[0]?).bind Task.pending = some (.release 1) from released] at pending
    exact absurd pending (by decide)
  · exact later

end PyBulletin.Session.Traffic
