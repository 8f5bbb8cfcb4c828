import Mathlib.Logic.Function.Basic
import PyBulletin.Store.Users

set_option autoImplicit false

namespace PyBulletin.Store

open PyBulletin.Foundation

/-! # The account fields of the users

What the operations on accounts are for, apart from how the table carries them out.
-/

/-- The fields that say what a user may do. -/
structure Account where
  privilege : Text
  passwordHash : Text
  deriving DecidableEq

/-- The accounts by callsign in capitals. -/
abbrev Ledger := Text → Option Account

namespace Ledger

def create (ledger : Ledger) (key : Text) (account : Account) : Ledger :=
  Function.update ledger key (some ((ledger key).getD account))

def setPrivilege (ledger : Ledger) (key privilege : Text) : Ledger :=
  Function.update ledger key ((ledger key).map fun account => { account with privilege })

def setPassword (ledger : Ledger) (key passwordHash : Text) : Ledger :=
  Function.update ledger key ((ledger key).map fun account => { account with passwordHash })

def remove (ledger : Ledger) (key : Text) : Ledger :=
  Function.update ledger key none

end Ledger

def User.account (user : User) : Account := ⟨user.privilege, user.passwordHash⟩

namespace UserTable

def accounts (users : UserTable) : Ledger := fun call => (users.find call).map User.account

theorem accounts_of_find {users : UserTable} {call : Text} {row : User}
    (found : users.find call = some row) : users.accounts call = some row.account := by
  simp [accounts, found]

theorem upsertUser_accounts (users : UserTable) (user : User) (fits : storable user) :
    (users.upsertUser user fits).accounts =
      Function.update users.accounts user.call.upper (some user.account) := by
  funext call
  by_cases same : call = user.call.upper
  · have account : (users.merged user).account = user.account := by
      rw [merged]
      split <;> rfl
    simp [accounts, upsertUser, same, account]
  · simp [accounts, upsertUser, same]

theorem setPrivilege_accounts (users : UserTable) (call privilege : Text) :
    (users.setPrivilege call privilege).accounts =
      users.accounts.setPrivilege call.upper privilege := by
  funext other
  by_cases same : other = call.upper
  · cases found : users.find call.upper with
    | none => simp [accounts, setPrivilege, Ledger.setPrivilege, same, found]
    | some row => simp [accounts, setPrivilege, Ledger.setPrivilege, same, found, User.account]
  · simp [accounts, setPrivilege, Ledger.setPrivilege, same]

theorem deleteUser_accounts (users : UserTable) (call : Text) :
    (users.deleteUser call).accounts = users.accounts.remove call.upper := by
  funext other
  by_cases same : other = call.upper
  · simp [accounts, deleteUser, Ledger.remove, same]
  · simp [accounts, deleteUser, Ledger.remove, same]

theorem recordLogin_accounts (users : UserTable) (call peer : Text) (now : DateTime) :
    (users.recordLogin call peer now).1.accounts =
      users.accounts.create call.upper ⟨privUser, ""⟩ := by
  have key : (users.loggedIn call peer now).call.upper = call.upper := by
    cases found : users.getUser call.upper with
    | none => simp [loggedIn, found, User.new, Text.upper_upper]
    | some row =>
        have own := users.keyed call.upper.upper row found
        simpa [loggedIn, found, Text.upper_upper] using own
  rw [recordLogin, upsertUser_accounts, key, Ledger.create]
  cases found : users.getUser call.upper with
  | none =>
      have stored : users.accounts call.upper = none := by
        simpa [accounts, getUser, Text.upper_upper] using found
      simp [loggedIn, found, stored, User.new, User.account]
  | some row =>
      have stored : users.accounts call.upper = some row.account := by
        rw [← Text.upper_upper]
        exact accounts_of_find found
      simp [loggedIn, found, stored, User.account]

end UserTable

end PyBulletin.Store
