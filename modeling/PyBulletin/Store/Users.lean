import PyBulletin.Store.Models

set_option autoImplicit false

namespace PyBulletin.Store

open PyBulletin.Foundation

/-- What fits an INTEGER column; `upsert_user` raises on anything else. -/
def fitsColumn (n : Int) : Prop := -(2 ^ 63) ≤ n ∧ n < 2 ^ 63

instance (n : Int) : Decidable (fitsColumn n) := inferInstanceAs (Decidable (_ ∧ _))

def storable (user : User) : Prop := fitsColumn user.msgBase ∧ fitsColumn user.pageLength

instance (user : User) : Decidable (storable user) := inferInstanceAs (Decidable (_ ∧ _))

theorem storable.passwordHash {user : User} (fits : storable user) (passwordHash : Text) :
    storable { user with passwordHash } := fits

/-- The rows of `users`, each under its own callsign in capitals. -/
structure UserTable where
  find : Text → Option User
  keyed : ∀ call row, find call = some row → row.call.upper = call
  fits : ∀ call row, find call = some row → storable row

namespace UserTable

def empty : UserTable where
  find _ := none
  keyed _ _ found := by cases found
  fits _ _ found := by cases found

def getUser (users : UserTable) (call : Text) : Option User := users.find call.upper

/-- What `upsert_user` writes: a new row, or every column but `created_at`. -/
def merged (users : UserTable) (user : User) : User :=
  let row := { user with call := user.call.upper }
  match users.find user.call.upper with
  | none => row
  | some old => { row with createdAt := old.createdAt }

theorem merged_call (users : UserTable) (user : User) :
    (users.merged user).call = user.call.upper := by
  rw [merged]
  split <;> rfl

theorem merged_storable {user : User} (fits : storable user) (users : UserTable) :
    storable (users.merged user) := by
  rw [merged]
  split <;> exact fits

def upsertUser (users : UserTable) (user : User) (fits : storable user) : UserTable where
  find call := if call = user.call.upper then some (users.merged user) else users.find call
  keyed call row found := by
    split at found
    · rename_i same
      cases found
      rw [merged_call, Text.upper_upper, same]
    · exact users.keyed call row found
  fits call row found := by
    split at found
    · cases found
      exact merged_storable fits users
    · exact users.fits call row found

/-- `set_privilege`: an UPDATE of the one row, if it is there. -/
def setPrivilege (users : UserTable) (call privilege : Text) : UserTable where
  find other :=
    if other = call.upper then
      (users.find other).map fun row => { row with privilege }
    else users.find other
  keyed other row found := by
    split at found
    · obtain ⟨old, stored, rfl⟩ := Option.map_eq_some_iff.mp found
      exact users.keyed other old stored
    · exact users.keyed other row found
  fits other row found := by
    split at found
    · obtain ⟨old, stored, rfl⟩ := Option.map_eq_some_iff.mp found
      exact users.fits other old stored
    · exact users.fits other row found

def deleteUser (users : UserTable) (call : Text) : UserTable where
  find other := if other = call.upper then none else users.find other
  keyed other row found := by
    split at found
    · cases found
    · exact users.keyed other row found
  fits other row found := by
    split at found
    · cases found
    · exact users.fits other row found

/-- `record_login`: the row after a login, created by the first one. -/
def loggedIn (users : UserTable) (call peer : Text) (now : DateTime) : User :=
  match users.getUser call.upper with
  | none =>
      { User.new call.upper privUser "" now with lastLoginAt := some now, lastLoginPeer := peer }
  | some row =>
      { row with lastLoginAt := some now, lastLoginPeer := peer, lastSeen := now }

theorem new_storable (call privilege passwordHash : Text) (now : DateTime) :
    storable (User.new call privilege passwordHash now) := by
  simp only [storable, fitsColumn, User.new]
  decide

theorem loggedIn_storable (users : UserTable) (call peer : Text) (now : DateTime) :
    storable (users.loggedIn call peer now) := by
  rw [loggedIn]
  cases stored : users.getUser call.upper with
  | none => exact new_storable call.upper privUser [] now
  | some row => exact users.fits call.upper.upper row stored

def recordLogin (users : UserTable) (call peer : Text) (now : DateTime) : UserTable × User :=
  let user := users.loggedIn call peer now
  (users.upsertUser user (users.loggedIn_storable call peer now), user)

end UserTable

end PyBulletin.Store
