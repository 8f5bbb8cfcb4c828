import PyBulletin.Auth
import PyBulletin.Store.Models

set_option autoImplicit false

namespace PyBulletin.Command

open PyBulletin.Foundation
open PyBulletin.Store

/-! # Profile commands

A profile command changes the `User` that the session holds since its login and
writes it with `upsert_user`.  Each is a function from that record to the record it
writes, `none` where it writes nothing.
-/

/-- `NL`, `NQ` and the like: the value is the argument or else the answer to a prompt,
where an empty answer changes nothing. -/
def setField (shorten : Text → Text) (assign : User → Text → User) (args answer : Text)
    (user : User) : Option User :=
  if args.strip ≠ [] then some (assign user (shorten args.strip))
  else if shorten answer.strip = [] then none
  else some (assign user (shorten answer.strip))

def cmdNh : Text → Text → User → Option User :=
  setField (·.take 40) fun user name => { user with displayName := name }

def cmdNl : Text → Text → User → Option User :=
  setField (fun value => value.upper.take 6) fun user locator => { user with locator }

def cmdNq : Text → Text → User → Option User :=
  setField (·.take 40) fun user city => { user with city }

def cmdNz : Text → Text → User → Option User :=
  setField (·.take 10) fun user zipCode => { user with zipCode }

def cmdNb : Text → Text → User → Option User :=
  setField (fun value => value.upper.take 12) fun user home => { user with homeBbs := home }

def cmdExpertToggle (user : User) : Option User :=
  some { user with expertMode := !user.expertMode }

/-- `N`; `listed` are the numbers of the messages it has shown. -/
def cmdNew (listed : List Int) (user : User) : Option User :=
  match listed.max? with
  | none => none
  | some highest => some { user with msgBase := highest }

/-- The options of `O` that are kept in the record. -/
def setOption (param value : Text) (user : User) : Option User :=
  if param = "PAGER" ∧ (value.upper = "ON" ∨ value.upper = "OFF") then
    some { user with pageLength := if value.upper = "ON" then 24 else 0 }
  else if (param = "LINES" ∨ param = "PAGER") ∧ value.isDigits then
    (Text.parseInt value).map fun lines => { user with pageLength := max 0 lines }
  else if param = "EXPERT" ∧ (value.upper = "ON" ∨ value.upper = "OFF") then
    some { user with expertMode := value.upper = "ON" }
  else if param = "LANG" ∧ value ≠ [] then
    some { user with language := Text.upper (value.take 5) }
  else if param = "BASE" ∨ param = "MSGBASE" then
    (Text.parseInt value).map fun base => { user with msgBase := base }
  else none

variable (pbkdf2 : Auth.Kdf)

/-- The three hidden answers to `O PW`, and the salt of the new hash. -/
structure PasswordDialog where
  old : Text
  new : Text
  confirm : Text
  salt : Bytes

/-- The hash that `O PW` sets, if the dialog goes well. -/
def newHash (dialog : PasswordDialog) (user : User) : Option Text :=
  if Auth.verifyPassword pbkdf2 dialog.old user.passwordHash ≠ some true then none
  else if dialog.new.length < 6 then none
  else if dialog.new ≠ dialog.confirm then none
  else some (Auth.hashPassword pbkdf2 dialog.salt dialog.new)

def changePassword (dialog : PasswordDialog) (user : User) : Option User :=
  (newHash pbkdf2 dialog user).map fun passwordHash => { user with passwordHash }

def asksPassword (param : Text) : Prop := param = "PW" ∨ param = "PASSWORD"

instance (param : Text) : Decidable (asksPassword param) :=
  inferInstanceAs (Decidable (_ ∨ _))

def cmdOptions (args : Text) (dialog : PasswordDialog) (user : User) : Option User :=
  match args.splitWord with
  | none => none
  | some (word, rest) =>
      if asksPassword word.upper then changePassword pbkdf2 dialog user
      else setOption word.upper (Text.strip (rest.getD [])) user

/-- A profile command with everything that is typed during it. -/
inductive ProfileCommand where
  | nh (args answer : Text)
  | nl (args answer : Text)
  | nq (args answer : Text)
  | nz (args answer : Text)
  | nb (args answer : Text)
  | x
  | n (listed : List Int)
  | o (args : Text) (dialog : PasswordDialog)

namespace ProfileCommand

/-- The record after the command, `none` if the command does not touch it. -/
def apply : ProfileCommand → User → Option User
  | nh args answer => cmdNh args answer
  | nl args answer => cmdNl args answer
  | nq args answer => cmdNq args answer
  | nz args answer => cmdNz args answer
  | nb args answer => cmdNb args answer
  | x => cmdExpertToggle
  | n listed => cmdNew listed
  | o args dialog => cmdOptions pbkdf2 args dialog

/-- The hash that the command is there to set. -/
def sets : ProfileCommand → User → Option Text
  | o args dialog, user =>
      match args.splitWord with
      | none => none
      | some (word, _) =>
          if asksPassword word.upper then newHash pbkdf2 dialog user else none
  | _, _ => none

end ProfileCommand

variable {pbkdf2}

/-- The fields that no profile command but `O PW` changes. -/
def SameAccount (user written : User) : Prop :=
  written.call = user.call ∧ written.privilege = user.privilege ∧
    written.passwordHash = user.passwordHash

theorem setField_written {shorten : Text → Text} {assign : User → Text → User} {args answer : Text}
    {user written : User} (changed : setField shorten assign args answer user = some written) :
    ∃ value, written = assign user value := by
  simp only [setField] at changed
  split at changed
  · cases changed
    exact ⟨_, rfl⟩
  · split at changed
    · cases changed
    · cases changed
      exact ⟨_, rfl⟩

theorem cmdNew_written {listed : List Int} {user written : User}
    (changed : cmdNew listed user = some written) :
    ∃ highest, written = { user with msgBase := highest } := by
  cases highest : listed.max? with
  | none => simp [cmdNew, highest] at changed
  | some number =>
      simp only [cmdNew, highest, Option.some.injEq] at changed
      exact ⟨number, changed.symm⟩

theorem setOption_written {param value : Text} {user written : User}
    (changed : setOption param value user = some written) :
    ∃ pageLength expertMode language msgBase,
      written = { user with pageLength, expertMode, language, msgBase } := by
  simp only [setOption] at changed
  split at changed
  · cases changed
    exact ⟨_, _, _, _, rfl⟩
  · split at changed
    · obtain ⟨lines, _, rfl⟩ := Option.map_eq_some_iff.mp changed
      exact ⟨_, _, _, _, rfl⟩
    · split at changed
      · cases changed
        exact ⟨_, _, _, _, rfl⟩
      · split at changed
        · cases changed
          exact ⟨_, _, _, _, rfl⟩
        · split at changed
          · obtain ⟨base, _, rfl⟩ := Option.map_eq_some_iff.mp changed
            exact ⟨_, _, _, _, rfl⟩
          · cases changed

theorem setField_sameAccount {shorten : Text → Text} {assign : User → Text → User}
    {args answer : Text} {user written : User}
    (changed : setField shorten assign args answer user = some written)
    (harmless : ∀ user value, SameAccount user (assign user value)) :
    SameAccount user written := by
  obtain ⟨value, rfl⟩ := setField_written changed
  exact harmless user value

theorem cmdNew_sameAccount {listed : List Int} {user written : User}
    (changed : cmdNew listed user = some written) : SameAccount user written := by
  obtain ⟨highest, rfl⟩ := cmdNew_written changed
  exact ⟨rfl, rfl, rfl⟩

theorem setOption_sameAccount {param value : Text} {user written : User}
    (changed : setOption param value user = some written) : SameAccount user written := by
  obtain ⟨_, _, _, _, rfl⟩ := setOption_written changed
  exact ⟨rfl, rfl, rfl⟩

theorem cmdOptions_account {args : Text} {dialog : PasswordDialog} {user written : User}
    (changed : cmdOptions pbkdf2 args dialog user = some written) :
    written.call = user.call ∧ written.privilege = user.privilege ∧
      written.passwordHash =
        ((ProfileCommand.o args dialog).sets pbkdf2 user).getD user.passwordHash := by
  cases split : args.splitWord with
  | none => simp [cmdOptions, split] at changed
  | some words =>
      obtain ⟨word, rest⟩ := words
      simp only [cmdOptions, split] at changed
      by_cases asks : asksPassword word.upper
      · rw [if_pos asks] at changed
        obtain ⟨passwordHash, hash, rfl⟩ := Option.map_eq_some_iff.mp changed
        simp [ProfileCommand.sets, split, asks, hash]
      · rw [if_neg asks] at changed
        obtain ⟨sameCall, samePrivilege, sameHash⟩ := setOption_sameAccount changed
        simp [ProfileCommand.sets, split, asks, sameCall, samePrivilege, sameHash]

/-- A profile command keeps the callsign and the privilege of the record it read, and
the password hash unless it is there to set it. -/
theorem ProfileCommand.apply_account {typed : ProfileCommand} {user written : User}
    (changed : typed.apply pbkdf2 user = some written) :
    written.call = user.call ∧ written.privilege = user.privilege ∧
      written.passwordHash = (typed.sets pbkdf2 user).getD user.passwordHash := by
  cases typed <;> simp only [apply, cmdNh, cmdNl, cmdNq, cmdNz, cmdNb] at changed
  case x =>
    cases changed
    exact ⟨rfl, rfl, rfl⟩
  case n listed => exact cmdNew_sameAccount changed
  case o args dialog => exact cmdOptions_account changed
  all_goals exact setField_sameAccount changed fun _ _ => ⟨rfl, rfl, rfl⟩

end PyBulletin.Command
