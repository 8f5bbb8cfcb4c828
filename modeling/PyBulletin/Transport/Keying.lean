import PyBulletin.Foundation.Run

set_option autoImplicit false

namespace PyBulletin.Transport.Keying

open PyBulletin.Foundation

/-! # The transmitter's key

`_tx_loop` and `_tx_loop_pyaudio`, which differ in the stream they write to only.  Each await is
a place where the loop can be cancelled and where what it waits for may raise.
-/

/-- The `await`s of the loop. -/
inductive Await where
  | payload
  | keyUp
  | leadIn
  | audio
  | leadOut
  deriving DecidableEq

/-- `none` for a loop that has come to its end. -/
abbrev Place := Option Await

/-- `keyed` is the local flag, `handed` a call `set_keyed(True)` that a thread has still to carry
out, and `lastCommand` the last command that took effect. -/
structure Transmitter where
  place : Place := some .payload
  keyed : Bool := false
  handed : Bool := false
  lastCommand : Option Bool := none
  deriving DecidableEq

inductive Event where
  /-- A frame is taken from the queue, and can be modulated or not. -/
  | frame (modulates : Bool)
  /-- The thread carries out `set_keyed(True)`. -/
  | takesEffect
  /-- What the loop waits for is done. -/
  | completes
  | raises
  | cancelled
  deriving DecidableEq

namespace Transmitter

variable (tx : Transmitter)

/-- `if keyed: ptt.set_keyed_blocking(False)` -/
def release : Transmitter := if tx.keyed then { tx with lastCommand := some false } else tx

/-- What follows an await that has ended well. -/
def proceed : Await → Option Transmitter
  | .payload => none
  | .keyUp => if tx.handed then none else some { tx with place := some .leadIn, keyed := true }
  | .leadIn => some { tx with place := some .audio }
  | .audio => some { tx with place := some .leadOut }
  | .leadOut => some { tx.release with place := some .payload }

/-- The handler of exceptions and the `finally`; a call that raised has been given up. -/
def fail (await : Await) : Transmitter :=
  if await = .payload then { tx with place := none }
  else { { tx with handed := false }.release with place := some .payload }

/-- A cancelled loop does not wait for the thread. -/
def cancel (await : Await) : Transmitter :=
  if await = .payload then { tx with place := none }
  else { tx.release with place := none, keyed := false }

def step (tx : Transmitter) : Event → Option Transmitter
  | .takesEffect => if tx.handed then some { tx with handed := false, lastCommand := some true } else none
  | .frame modulates =>
      if tx.place = some .payload then
        if modulates then some { tx with place := some .keyUp, keyed := false, handed := true }
        else some { tx with place := none }
      else none
  | .completes => tx.place.bind tx.proceed
  | .raises => tx.place.map tx.fail
  | .cancelled => tx.place.map tx.cancel

/-- The loop has ended or waits for the next frame. -/
def Idle : Prop := tx.place = none ∨ tx.place = some .payload

/-- An idle transmitter is not keyed. -/
def Released : Prop := tx.Idle → tx.lastCommand ≠ some true

/-- The key goes down while the loop waits for it, and once it has, the loop gets to know. -/
def Noticed (tx : Transmitter) : Event → Prop
  | .takesEffect => tx.handed = true → tx.place = some .keyUp
  | .raises | .cancelled => tx.place = some .keyUp → tx.lastCommand ≠ some true
  | .frame _ | .completes => True

instance : Decidable tx.Idle := inferInstanceAs (Decidable (_ ∨ _))

instance : (event : Event) → Decidable (tx.Noticed event)
  | .takesEffect => inferInstanceAs (Decidable (_ → _))
  | .raises | .cancelled => inferInstanceAs (Decidable (_ → _))
  | .frame _ | .completes => isTrue trivial

/-- What holds at each place as long as the loop notices. -/
def Sound : Prop :=
  match tx.place with
  | none => tx.lastCommand ≠ some true
  | some .payload => tx.handed = false ∧ tx.lastCommand ≠ some true
  | some .keyUp => tx.keyed = false
  | some .leadIn | some .audio | some .leadOut => tx.handed = false ∧ tx.keyed = true

variable {tx} {next : Transmitter} {event : Event} {await : Await}

theorem Sound.released (sound : tx.Sound) : tx.Released := by
  rintro (place | place)
  · rwa [Sound, place] at sound
  · rw [Sound, place] at sound
    exact sound.2

theorem Sound.frame (sound : tx.Sound) {modulates : Bool}
    (stepped : tx.step (.frame modulates) = some next) : next.Sound := by
  obtain ⟨place, stepped⟩ := Option.ite_none_right_eq_some.mp stepped
  rw [Sound, place] at sound
  cases modulates with
  | true =>
      cases stepped
      exact rfl
  | false =>
      cases stepped
      exact sound.2

theorem Sound.takesEffect (sound : tx.Sound) (noticed : tx.Noticed .takesEffect)
    (stepped : tx.step .takesEffect = some next) : next.Sound := by
  obtain ⟨handed, stepped⟩ := Option.ite_none_right_eq_some.mp stepped
  have place := noticed handed
  rw [Sound, place] at sound
  cases stepped
  rw [Sound]
  dsimp only
  rw [place]
  exact sound

theorem Sound.proceed (sound : tx.Sound) (place : tx.place = some await)
    (stepped : tx.proceed await = some next) : next.Sound := by
  rw [Sound, place] at sound
  cases await with
  | payload => cases stepped
  | keyUp =>
      obtain ⟨waits, stepped⟩ := Option.ite_none_left_eq_some.mp stepped
      cases stepped
      exact ⟨Bool.eq_false_iff.mpr waits, rfl⟩
  | leadIn =>
      cases stepped
      exact sound
  | audio =>
      cases stepped
      exact sound
  | leadOut =>
      cases stepped
      rw [release, if_pos sound.2]
      exact ⟨sound.1, nofun⟩

theorem Sound.fail (sound : tx.Sound) (place : tx.place = some await)
    (noticed : tx.place = some .keyUp → tx.lastCommand ≠ some true) : (tx.fail await).Sound := by
  rw [Sound, place] at sound
  cases await with
  | payload => exact sound.2
  | keyUp =>
      have shut : ¬ tx.keyed = true := Bool.eq_false_iff.mp sound
      rw [Transmitter.fail, if_neg (by decide), release, if_neg shut]
      exact ⟨rfl, noticed place⟩
  | leadIn | audio | leadOut =>
      rw [Transmitter.fail, if_neg (by decide), release, if_pos sound.2]
      exact ⟨rfl, nofun⟩

theorem Sound.cancel (sound : tx.Sound) (place : tx.place = some await)
    (noticed : tx.place = some .keyUp → tx.lastCommand ≠ some true) : (tx.cancel await).Sound := by
  rw [Sound, place] at sound
  cases await with
  | payload => exact sound.2
  | keyUp =>
      have shut : ¬ tx.keyed = true := Bool.eq_false_iff.mp sound
      rw [Transmitter.cancel, if_neg (by decide), release, if_neg shut]
      exact noticed place
  | leadIn | audio | leadOut =>
      rw [Transmitter.cancel, if_neg (by decide), release, if_pos sound.2]
      exact nofun

theorem Sound.step (sound : tx.Sound) (noticed : tx.Noticed event)
    (stepped : tx.step event = some next) : next.Sound := by
  cases event with
  | frame modulates => exact sound.frame stepped
  | takesEffect => exact sound.takesEffect noticed stepped
  | completes =>
      obtain ⟨await, place, moved⟩ := Option.bind_eq_some_iff.mp stepped
      exact sound.proceed place moved
  | raises =>
      obtain ⟨await, place, rfl⟩ := Option.map_eq_some_iff.mp stepped
      exact sound.fail place noticed
  | cancelled =>
      obtain ⟨await, place, rfl⟩ := Option.map_eq_some_iff.mp stepped
      exact sound.cancel place noticed

/-- A call that is still in the hands of a thread away from its await is one of a loop that has
been cancelled. -/
theorem Sound.ended_of_handed (sound : tx.Sound) (handed : tx.handed = true)
    (other : tx.place ≠ some .keyUp) : tx.place = none := by
  cases place : tx.place with
  | none => rfl
  | some await =>
      rw [Sound, place] at sound
      cases await with
      | keyUp => exact absurd place other
      | payload | leadIn | audio | leadOut =>
          rw [handed] at sound
          exact nomatch sound.1

/-- A key that goes down unnoticed stays down. -/
theorem Sound.unnoticed (sound : tx.Sound) (against : ¬ tx.Noticed event) :
    ∃ next, tx.step event = some next ∧ ¬ next.Released := by
  cases event with
  | frame modulates => exact absurd trivial against
  | completes => exact absurd trivial against
  | takesEffect =>
      obtain ⟨handed, other⟩ := Classical.not_imp.mp against
      have ended := sound.ended_of_handed handed other
      exact ⟨_, if_pos handed, fun released => released (.inl ended) rfl⟩
  | raises =>
      obtain ⟨place, down⟩ := Classical.not_imp.mp against
      rw [Sound, place] at sound
      refine ⟨tx.fail .keyUp, by rw [Transmitter.step, place]; rfl, fun released => down ?_⟩
      have last := released (.inr rfl)
      rwa [Transmitter.fail, if_neg (by decide), release, if_neg (Bool.eq_false_iff.mp sound)] at last
  | cancelled =>
      obtain ⟨place, down⟩ := Classical.not_imp.mp against
      rw [Sound, place] at sound
      refine ⟨tx.cancel .keyUp, by rw [Transmitter.step, place]; rfl, fun released => down ?_⟩
      have last := released (.inl rfl)
      rwa [Transmitter.cancel, if_neg (by decide), release, if_neg (Bool.eq_false_iff.mp sound)] at last

/-- The key is up whenever the loop ends or waits for a frame, exactly in the runs in which it
goes down under the eyes of the loop. -/
theorem released_throughout_iff (events : List Event) :
    Throughout step Released {} events ↔ EveryStep step Noticed {} events := by
  have initial : Sound {} := ⟨rfl, nofun⟩
  exact throughout_iff_everyStep
    (fun _ _ _ (sound : Sound _) noticed stepped => sound.step noticed stepped)
    (fun _ sound => sound.released) (fun _ _ sound against => sound.unnoticed against) initial events

/-- The loop is cancelled while it waits for the key, which is down by then. -/
theorem cancelled_keyed :
    ¬ Throughout step Released {} [.frame true, .takesEffect, .cancelled] := by
  intro released
  exact released _ _ List.prefix_rfl rfl (.inl rfl) rfl

end Transmitter

end PyBulletin.Transport.Keying
