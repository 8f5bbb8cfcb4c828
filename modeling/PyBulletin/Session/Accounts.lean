import PyBulletin.Foundation.Run
import PyBulletin.Command.Profile
import PyBulletin.Store.Ledger
import PyBulletin.Web.Users

set_option autoImplicit false

namespace PyBulletin.Session.Accounts

open PyBulletin.Foundation
open PyBulletin.Store
open PyBulletin.Command

/-! # Connected users and the table of users

Every session holds the record of its login and profile commands write that record.
The sysop's requests write the table in the meantime.  A step is what runs between
two suspensions of the program.
-/

/-- `due` is what the operations so far were to make of the accounts. -/
structure State where
  users : UserTable
  sessions : List User
  due : Ledger

inductive Event where
  | login (call peer : Text) (now : DateTime)
  | command (session : Nat) (typed : ProfileCommand)
  | setPrivilege (call privilege : Text)
  | resetPassword (call password : Text) (salt : Bytes)
  | createUser (call password privilege : Text) (salt : Bytes) (now : DateTime)
  | deleteUser (call : Text)

variable (pbkdf2 : Auth.Kdf)

/-- A profile command in the session with the record `user`.  The record in memory
changes also when `upsert_user` raises. -/
def typeCommand (state : State) (session : Nat) (typed : ProfileCommand) (user : User) : State :=
  match typed.apply pbkdf2 user with
  | none => state
  | some written =>
      if fits : storable written then
        { users := state.users.upsertUser written fits
          sessions := state.sessions.set session written
          due :=
            match typed.sets pbkdf2 user with
            | none => state.due
            | some passwordHash => state.due.setPassword user.call.upper passwordHash }
      else { state with sessions := state.sessions.set session written }

/-- A request that is answered with an error changes nothing. -/
def request (state : State) (users : Option UserTable) (due : Ledger) : State :=
  match users with
  | none => state
  | some users => { state with users, due }

def step (state : State) : Event → Option State
  | .login call peer now =>
      let (users, user) := state.users.recordLogin call peer now
      some { users
             sessions := state.sessions ++ [user]
             due := state.due.create call.upper ⟨privUser, ""⟩ }
  | .command session typed =>
      (state.sessions[session]?).map fun user => typeCommand pbkdf2 state session typed user
  | .setPrivilege call privilege =>
      some (request state (Web.setPrivilege state.users call privilege)
        (state.due.setPrivilege call.upper privilege.strip))
  | .resetPassword call password salt =>
      some (request state (Web.resetPassword pbkdf2 state.users call password salt)
        (state.due.setPassword call.upper (Auth.hashPassword pbkdf2 salt password)))
  | .createUser call password privilege salt now =>
      let user := Web.createdUser pbkdf2 (Text.upper call.strip) password privilege salt now
      some (request state (Web.createUser pbkdf2 state.users call password privilege salt now)
        (state.due.create user.call user.account))
  | .deleteUser call =>
      some (request state (Web.deleteUser state.users call) (state.due.remove call.upper))

def begin (users : UserTable) : State := ⟨users, [], users.accounts⟩

/-- The table holds the account data that was last set on purpose. -/
def Kept (state : State) : Prop := state.users.accounts = state.due

/-- The row that a profile command overwrites is there and has the privilege of the
session's record, and its password hash too unless the command sets it. -/
def Fresh (state : State) : Event → Prop
  | .command session typed =>
      ∀ user written, state.sessions[session]? = some user →
        typed.apply pbkdf2 user = some written → storable written →
          ∃ row, state.users.find user.call.upper = some row ∧
            row.privilege = user.privilege ∧
            (typed.sets pbkdf2 user = none → row.passwordHash = user.passwordHash)
  | _ => True

variable {pbkdf2} {state next : State}

theorem Kept.setPrivilege (kept : Kept state) (call privilege : Text) :
    Kept (request state (Web.setPrivilege state.users call privilege)
      (state.due.setPrivilege call.upper privilege.strip)) := by
  by_cases valid : Web.isPrivilege privilege.strip
  · simp only [Kept, request, Web.setPrivilege, if_pos valid]
    rw [UserTable.setPrivilege_accounts, Text.upper_upper, kept]
  · simpa only [request, Web.setPrivilege, if_neg valid] using kept

theorem Kept.deleteUser (kept : Kept state) (call : Text) :
    Kept (request state (Web.deleteUser state.users call) (state.due.remove call.upper)) := by
  simp only [Kept, request, Web.deleteUser]
  rw [UserTable.deleteUser_accounts, kept]

theorem Kept.createUser (kept : Kept state) (call password privilege : Text) (salt : Bytes)
    (now : DateTime) :
    let user := Web.createdUser pbkdf2 (Text.upper call.strip) password privilege salt now
    Kept (request state (Web.createUser pbkdf2 state.users call password privilege salt now)
      (state.due.create user.call user.account)) := by
  intro user
  cases created : Web.createUser pbkdf2 state.users call password privilege salt now with
  | none => exact kept
  | some users =>
      simp only [Web.createUser] at created
      split at created
      · cases created
      · split at created
        · cases created
        · split at created
          · cases created
          · rename_i absent
            cases created
            have key : user.call.upper = user.call := Text.upper_upper _
            have free : state.due user.call = none := by
              rw [← kept, ← key, UserTable.accounts]
              simpa [UserTable.getUser, user, Web.createdUser, User.new] using absent
            simp only [Kept, request]
            rw [UserTable.upsertUser_accounts, key, kept, Ledger.create, free, Option.getD_none]

theorem Kept.resetPassword (kept : Kept state) (call password : Text) (salt : Bytes) :
    Kept (request state (Web.resetPassword pbkdf2 state.users call password salt)
      (state.due.setPassword call.upper (Auth.hashPassword pbkdf2 salt password))) := by
  cases reset : Web.resetPassword pbkdf2 state.users call password salt with
  | none => exact kept
  | some users =>
      simp only [Web.resetPassword] at reset
      split at reset
      · cases reset
      · split at reset
        · cases reset
        · rename_i row found
          cases reset
          have key : row.call.upper = call.upper := by
            rw [state.users.keyed _ row found, Text.upper_upper]
          have stored : state.due call.upper = some row.account := by
            rw [← kept, ← Text.upper_upper]
            exact UserTable.accounts_of_find found
          simp only [Kept, request]
          rw [UserTable.upsertUser_accounts, key, kept, Ledger.setPassword, stored]
          rfl

theorem typeCommand_accounts {session : Nat} {typed : ProfileCommand} {user written : User}
    (changed : typed.apply pbkdf2 user = some written) (fits : storable written) :
    (typeCommand pbkdf2 state session typed user).users.accounts =
      Function.update state.users.accounts user.call.upper
        (some ⟨user.privilege, (typed.sets pbkdf2 user).getD user.passwordHash⟩) := by
  obtain ⟨sameCall, samePrivilege, hash⟩ := ProfileCommand.apply_account changed
  simp only [typeCommand, changed, dif_pos fits]
  rw [UserTable.upsertUser_accounts, sameCall, User.account, samePrivilege, hash]

theorem typeCommand_due {session : Nat} {typed : ProfileCommand} {user written : User}
    (changed : typed.apply pbkdf2 user = some written) (fits : storable written) :
    (typeCommand pbkdf2 state session typed user).due =
      Function.update state.due user.call.upper
        ((state.due user.call.upper).map fun account =>
          ⟨account.privilege, (typed.sets pbkdf2 user).getD account.passwordHash⟩) := by
  simp only [typeCommand, changed, dif_pos fits]
  cases set : typed.sets pbkdf2 user with
  | none => simp
  | some passwordHash => simp [Ledger.setPassword]

theorem Kept.command (kept : Kept state) {session : Nat} {typed : ProfileCommand} {user : User}
    (connected : state.sessions[session]? = some user)
    (fresh : Fresh pbkdf2 state (.command session typed)) :
    Kept (typeCommand pbkdf2 state session typed user) := by
  cases changed : typed.apply pbkdf2 user with
  | none => simpa only [typeCommand, changed] using kept
  | some written =>
      by_cases fits : storable written
      · obtain ⟨row, found, privilege, hash⟩ := fresh user written connected changed fits
        have stored : state.due user.call.upper = some row.account := by
          rw [← kept]
          exact UserTable.accounts_of_find found
        rw [Kept, typeCommand_accounts changed fits, typeCommand_due changed fits, kept, stored]
        cases set : typed.sets pbkdf2 user with
        | none => simp [User.account, privilege, hash set]
        | some passwordHash => simp [User.account, privilege]
      · simpa only [typeCommand, changed, dif_neg fits, Kept] using kept

theorem Kept.step (kept : Kept state) {event : Event} (fresh : Fresh pbkdf2 state event)
    (stepped : step pbkdf2 state event = some next) : Kept next := by
  cases event with
  | login call peer now =>
      cases stepped
      exact (UserTable.recordLogin_accounts state.users call peer now).trans (by rw [kept])
  | command session typed =>
      obtain ⟨user, connected, rfl⟩ := Option.map_eq_some_iff.mp stepped
      exact kept.command connected fresh
  | setPrivilege call privilege =>
      cases stepped
      exact kept.setPrivilege call privilege
  | resetPassword call password salt =>
      cases stepped
      exact kept.resetPassword call password salt
  | createUser call password privilege salt now =>
      cases stepped
      exact kept.createUser call password privilege salt now
  | deleteUser call =>
      cases stepped
      exact kept.deleteUser call

/-- A stale record is written over what the sysop has set. -/
theorem Kept.lost (kept : Kept state) {event : Event} (stale : ¬ Fresh pbkdf2 state event) :
    ∃ next, Accounts.step pbkdf2 state event = some next ∧ ¬ Kept next := by
  cases event with
  | command session typed =>
      simp only [Fresh, not_forall] at stale
      obtain ⟨user, written, connected, changed, fits, stale⟩ := stale
      refine ⟨typeCommand pbkdf2 state session typed user, by simp [Accounts.step, connected], ?_⟩
      intro after
      apply stale
      have same := congrFun after user.call.upper
      rw [typeCommand_accounts changed fits, typeCommand_due changed fits, ← kept] at same
      cases found : state.users.find user.call.upper with
      | none => simp [UserTable.accounts, found] at same
      | some row =>
          refine ⟨row, rfl, ?_⟩
          simp only [Function.update_self, UserTable.accounts_of_find found, Option.map_some,
            Option.some.injEq, Account.mk.injEq, User.account] at same
          refine ⟨same.1.symm, fun set => ?_⟩
          rw [set] at same
          exact same.2.symm
  | login => exact absurd trivial stale
  | setPrivilege => exact absurd trivial stale
  | resetPassword => exact absurd trivial stale
  | createUser => exact absurd trivial stale
  | deleteUser => exact absurd trivial stale

/-- No update of the accounts is lost in exactly the runs in which every profile
command finds in the table what its session has in memory. -/
theorem kept_throughout_iff (pbkdf2 : Auth.Kdf) (users : UserTable) (events : List Event) :
    Throughout (step pbkdf2) Kept (begin users) events ↔
      EveryStep (step pbkdf2) (Fresh pbkdf2) (begin users) events :=
  have initial : Kept (begin users) := rfl
  throughout_iff_everyStep (fun _ _ _ (kept : Kept _) fresh stepped => kept.step fresh stepped)
    (fun _ kept => kept) (fun _ _ kept stale => kept.lost stale) initial events

private def noon : DateTime := ⟨2026, 1, 1, 12, 0, 0⟩

/-- A sysop logs in, is made an ordinary user, and toggles the expert mode. -/
private def demotion : List Event :=
  [.login "K1ABC" "peer" noon, .setPrivilege "K1ABC" "sysop", .login "K1ABC" "peer" noon,
    .setPrivilege "K1ABC" "user", .command 1 .x]

theorem demoted_sysop_is_back :
    ¬ ∀ (pbkdf2 : Auth.Kdf) (users : UserTable) (events : List Event),
      Throughout (step pbkdf2) Kept (begin users) events := by
  intro claimed
  have kept := claimed (fun _ salt _ _ => salt) UserTable.empty demotion demotion _
    List.prefix_rfl rfl
  have same := congrFun kept "K1ABC"
  revert same
  decide

end PyBulletin.Session.Accounts
