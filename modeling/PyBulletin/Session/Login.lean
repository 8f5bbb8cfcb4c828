import PyBulletin.Foundation.Run
import PyBulletin.Web.Authority

set_option autoImplicit false

namespace PyBulletin.Session.Login

open PyBulletin.Foundation
open PyBulletin.Store
open PyBulletin.Web

/-! # The two logins

`BBSSession._authenticate` asks at a terminal, `WebApp._login` takes a request.  A step is
what runs between two suspensions of the program.
-/

def maxAuthAttempts : Nat := 3

/-- A session that came into existence: its call, the password that was supplied for it and
the hash that the record of the call had then. -/
structure Opening where
  call : Text
  password : Text
  stored : Option Text

/-- Where `_authenticate` stands; it gives up by ending. -/
inductive Stage where
  | askCall (attempt : Nat)
  | askPassword (attempt : Nat) (call : Text)
  | recording (opening : Opening)
  | opened (user : User)
  | ended

/-- `continue` -/
def nextAttempt (attempt : Nat) : Stage :=
  if attempt + 1 < maxAuthAttempts then .askCall (attempt + 1) else .ended

def leaves : List Text := ["B", "BYE", "Q", "QUIT"]

/-- The line with the callsign. -/
def enterCall (requirePassword : Bool) (users : UserDirectory) (attempt : Nat) (line : Text) :
    Stage :=
  let call := Text.upper (Text.strip line)
  if call = [] then nextAttempt attempt
  else if call ∈ leaves then .ended
  else if ¬ Auth.isValidCall call then nextAttempt attempt
  else if requirePassword then .askPassword attempt call
  else .recording ⟨call, "", (users.getUser call).map User.passwordHash⟩

variable (pbkdf2 : Auth.Kdf)

/-- The line with the password; an exception ends the session. -/
def enterPassword (users : UserDirectory) (attempt : Nat) (call password : Text) : Stage :=
  match users.getUser call with
  | none => nextAttempt attempt
  | some user =>
      if user.passwordHash = [] then nextAttempt attempt
      else
        match Auth.verifyPassword pbkdf2 password user.passwordHash with
        | none => .ended
        | some false => nextAttempt attempt
        | some true => .recording ⟨call, password, some user.passwordHash⟩

structure Terminal where
  peer : Text
  stage : Stage

/-- `openings` lists the sessions in the order in which they came into existence. -/
structure State where
  app : WebApp
  terminals : List Terminal
  openings : List Opening

/-- `others` is what the rest of the program makes of the tables. -/
inductive Event where
  | connect (peer : Text)
  | line (terminal : Nat) (text : Text)
  | resume (terminal : Nat) (now : DateTime)
  | request (world : World) (req : HTTPRequest)
  | others (database : Database)

variable (python : Library) (requirePassword : Bool)

/-- The fields of a login request. -/
def credentials (req : HTTPRequest) : Option (Text × Text) :=
  match python.dictionary req "Invalid JSON" true with
  | .error _ => none
  | .ok fields =>
      some (python.upper (Text.strip (python.field fields "call" "")),
        python.field fields "password" "")

/-- The session that a login request opens, which its answer shows. -/
def openedBy (world : World) (app : WebApp) (req : HTTPRequest) : List Opening :=
  match WebApp.Route.ofRequest python req,
      (WebApp.handleRequest python pbkdf2 world app req).2 with
  | .login, .response ⟨_, .login session⟩ =>
      [⟨session.call, ((credentials python req).map Prod.snd).getD "",
        (app.database.users.getUser session.call).map User.passwordHash⟩]
  | _, _ => []

/-- `record_login` -/
def recordLogin (state : State) (terminal : Nat) (peer : Text) (opening : Opening)
    (now : DateTime) : State :=
  let users := state.app.database.users
  let user := users.loggedIn opening.call peer now
  { app := state.app.withUsers (users.upsertUser user (users.loggedIn_storable opening.call peer now))
    terminals := state.terminals.set terminal ⟨peer, .opened user⟩
    openings := state.openings ++ [opening] }

def step (state : State) : Event → Option State
  | .connect peer => some { state with terminals := state.terminals ++ [⟨peer, .askCall 0⟩] }
  | .line i text =>
      match state.terminals[i]? with
      | some ⟨peer, .askCall attempt⟩ =>
          let stage := enterCall requirePassword state.app.database.users attempt text
          some { state with terminals := state.terminals.set i ⟨peer, stage⟩ }
      | some ⟨peer, .askPassword attempt call⟩ =>
          let stage := enterPassword pbkdf2 state.app.database.users attempt call text
          some { state with terminals := state.terminals.set i ⟨peer, stage⟩ }
      | _ => none
  | .resume i now =>
      match state.terminals[i]? with
      | some ⟨peer, .recording opening⟩ => some (recordLogin state i peer opening now)
      | _ => none
  | .request world req =>
      some { state with
        app := (WebApp.handleRequest python pbkdf2 world state.app req).1
        openings := state.openings ++ openedBy pbkdf2 python world state.app req }
  | .others database => some { state with app := { state.app with database } }

def begin (app : WebApp) : State := ⟨app, [], []⟩

/-- The password was right for the hash of the record. -/
def Verified (opening : Opening) : Prop :=
  ∃ hash, opening.stored = some hash ∧
    Auth.verifyPassword pbkdf2 opening.password hash = some true

/-- Every session came into existence with the right password. -/
def Authentic (state : State) : Prop := ∀ opening ∈ state.openings, Verified pbkdf2 opening

/-- Whatever waits for `record_login` has passed the check too. -/
structure Sound (state : State) : Prop where
  authentic : Authentic pbkdf2 state
  recording : ∀ terminal ∈ state.terminals, ∀ opening,
    terminal.stage = .recording opening → Verified pbkdf2 opening

/-- No web login names a record without a password hash. -/
def Hashed (state : State) : Event → Prop
  | .request _ req => WebApp.Route.ofRequest python req = .login →
      ∀ call password user, credentials python req = some (call, password) → call ≠ [] →
        state.app.database.users.getUser call = some user → user.passwordHash ≠ []
  | _ => True

variable {pbkdf2} {python} {state next : State}

theorem nextAttempt_ne {attempt : Nat} {opening : Opening} :
    nextAttempt attempt ≠ .recording opening := by
  rw [nextAttempt]
  split <;> nofun

/-- A node that requires passwords lets nobody in by the callsign alone. -/
theorem enterCall_ne {users : UserDirectory} {attempt : Nat} {line : Text} {opening : Opening} :
    enterCall true users attempt line ≠ .recording opening := by
  rw [enterCall]
  split
  · exact nextAttempt_ne
  · split
    · nofun
    · split
      · exact nextAttempt_ne
      · nofun

theorem enterPassword_verified {users : UserDirectory} {attempt : Nat} {call password : Text}
    {opening : Opening}
    (recording : enterPassword pbkdf2 users attempt call password = .recording opening) :
    Verified pbkdf2 opening := by
  rw [enterPassword] at recording
  split at recording
  · exact absurd recording nextAttempt_ne
  · split at recording
    · exact absurd recording nextAttempt_ne
    · split at recording
      · cases recording
      · exact absurd recording nextAttempt_ne
      · rename_i user _ _ _ verified
        cases recording
        exact ⟨user.passwordHash, rfl, verified⟩

/-- A terminal moves to a stage that is not about to record a login, or is so rightly. -/
theorem Sound.set (sound : Sound pbkdf2 state) (i : Nat) (peer : Text) {stage : Stage}
    (checked : ∀ opening, stage = .recording opening → Verified pbkdf2 opening) :
    Sound pbkdf2 { state with terminals := state.terminals.set i ⟨peer, stage⟩ } where
  authentic := sound.authentic
  recording terminal listed opening recording := by
    rcases List.mem_or_eq_of_mem_set listed with old | rfl
    · exact sound.recording terminal old opening recording
    · exact checked opening recording

theorem Sound.recordLogin (sound : Sound pbkdf2 state) {i : Nat} {peer : Text} {opening : Opening}
    (found : state.terminals[i]? = some ⟨peer, .recording opening⟩) (now : DateTime) :
    Sound pbkdf2 (recordLogin state i peer opening now) where
  authentic other listed := by
    rcases List.mem_append.mp listed with old | new
    · exact sound.authentic other old
    · rw [List.mem_singleton.mp new]
      exact sound.recording _ (List.mem_of_getElem? found) opening rfl
  recording terminal listed other recording := by
    rcases List.mem_or_eq_of_mem_set listed with old | rfl
    · exact sound.recording terminal old other recording
    · cases recording

section Requests

variable {world : World} {app : WebApp} {req : HTTPRequest} {call password : Text} {user : User}

/-- A login whose fields can be read: what it answers, and for whom. -/
theorem login_answer (typed : credentials python req = some (call, password))
    {status : Nat} {session : WebSession}
    (answered : (WebApp.login python pbkdf2 world app req).2 = .response ⟨status, .login session⟩) :
    call ≠ [] ∧ session.call = call ∧ ∃ user, app.database.users.getUser call = some user ∧
      (user.passwordHash = [] ∨
        Auth.verifyPassword pbkdf2 password user.passwordHash = some true) := by
  rw [credentials] at typed
  rw [WebApp.login, WebApp.withFields] at answered
  cases parsed : python.dictionary req "Invalid JSON" true with
  | error outcome =>
      rw [parsed] at typed
      cases typed
  | ok fields =>
      simp only [parsed, Option.some.injEq, Prod.mk.injEq] at typed answered
      obtain ⟨rfl, rfl⟩ := typed
      split at answered
      · cases answered
      · rename_i named
        split at answered
        · cases answered
        · rename_i user stored
          split at answered
          · rename_i open_
            cases answered
            exact ⟨named, python.capital _, user, stored, .inl open_⟩
          · split at answered
            · cases answered
            · cases answered
            · rename_i verified
              cases answered
              exact ⟨named, python.capital _, user, stored, .inr verified⟩

theorem login_open (typed : credentials python req = some (call, password)) (named : call ≠ [])
    (stored : app.database.users.getUser call = some user) (bare : user.passwordHash = []) :
    ∃ session, session.call = call ∧
      (WebApp.login python pbkdf2 world app req).2 = .response { data := .login session } := by
  rw [credentials] at typed
  rw [WebApp.login, WebApp.withFields]
  cases parsed : python.dictionary req "Invalid JSON" true with
  | error outcome =>
      rw [parsed] at typed
      cases typed
  | ok fields =>
      simp only [parsed, Option.some.injEq, Prod.mk.injEq] at typed
      obtain ⟨rfl, rfl⟩ := typed
      simp only [if_neg named, stored, if_pos bare]
      exact ⟨_, python.capital _, rfl⟩

theorem login_unread (unread : credentials python req = none) {status : Nat}
    {session : WebSession} :
    (WebApp.login python pbkdf2 world app req).2 ≠ .response ⟨status, .login session⟩ := by
  intro answered
  rw [credentials] at unread
  rw [WebApp.login, WebApp.withFields] at answered
  cases parsed : python.dictionary req "Invalid JSON" true with
  | error outcome =>
      rw [parsed] at answered
      rcases Library.dictionary_error parsed with rfl | rfl <;> cases answered
  | ok fields =>
      rw [parsed] at unread
      cases unread

/-- What a request opens: a session of a login for a record without a hash or with the
right password. -/
theorem openedBy_cases {opening : Opening} (listed : opening ∈ openedBy pbkdf2 python world app req) :
    WebApp.Route.ofRequest python req = .login ∧
      ∃ call password user, credentials python req = some (call, password) ∧ call ≠ [] ∧
        app.database.users.getUser call = some user ∧
        opening = ⟨call, password, some user.passwordHash⟩ ∧
        (user.passwordHash = [] ∨
          Auth.verifyPassword pbkdf2 password user.passwordHash = some true) := by
  rw [openedBy] at listed
  split at listed
  · rename_i status session route answered
    rw [WebApp.handleRequest, route] at answered
    dsimp only at answered
    cases typed : credentials python req with
    | none => exact absurd answered (login_unread typed)
    | some fields =>
        obtain ⟨call, password⟩ := fields
        obtain ⟨named, same, user, stored, passed⟩ := login_answer typed answered
        refine ⟨route, call, password, user, rfl, named, stored, ?_, passed⟩
        rw [List.mem_singleton.mp listed, same, stored, typed]
        rfl
  · cases listed

theorem openedBy_open (route : WebApp.Route.ofRequest python req = .login)
    (typed : credentials python req = some (call, password)) (named : call ≠ [])
    (stored : app.database.users.getUser call = some user) (bare : user.passwordHash = []) :
    openedBy pbkdf2 python world app req = [⟨call, password, some []⟩] := by
  obtain ⟨session, same, answered⟩ := @login_open pbkdf2 python world app req call password user
    typed named stored bare
  have run : (WebApp.handleRequest python pbkdf2 world app req).2 =
      .response { data := .login session } := by
    rw [WebApp.handleRequest, route]
    exact answered
  rw [openedBy, route, run, typed]
  dsimp only
  rw [same, stored, ← bare]
  rfl

end Requests

theorem not_verified_bare (call password : Text) :
    ¬ Verified pbkdf2 ⟨call, password, some []⟩ := by
  rintro ⟨hash, same, verified⟩
  cases same
  cases verified

theorem Sound.step (sound : Sound pbkdf2 state) {event : Event}
    (hashed : Hashed python state event)
    (stepped : step pbkdf2 python true state event = some next) : Sound pbkdf2 next := by
  cases event with
  | connect peer =>
      cases stepped
      refine ⟨sound.authentic, fun terminal listed opening recording => ?_⟩
      rcases List.mem_append.mp listed with old | new
      · exact sound.recording terminal old opening recording
      · rw [List.mem_singleton.mp new] at recording
        cases recording
  | line i text =>
      rw [Login.step] at stepped
      split at stepped
      · cases stepped
        exact sound.set i _ fun _ recording => absurd recording enterCall_ne
      · cases stepped
        exact sound.set i _ fun _ recording => enterPassword_verified recording
      · cases stepped
  | resume i now =>
      rw [Login.step] at stepped
      split at stepped
      · rename_i peer opening found
        cases stepped
        exact sound.recordLogin found now
      · cases stepped
  | request world req =>
      cases stepped
      refine ⟨fun opening listed => ?_, sound.recording⟩
      rcases List.mem_append.mp listed with old | new
      · exact sound.authentic opening old
      · obtain ⟨route, call, password, user, typed, named, stored, rfl, bare | verified⟩ :=
          openedBy_cases new
        · exact absurd bare (hashed route call password user typed named stored)
        · exact ⟨user.passwordHash, rfl, verified⟩
  | others database =>
      cases stepped
      exact ⟨sound.authentic, sound.recording⟩

/-- A web login for a record without a hash opens a session with no check. -/
theorem Sound.opens (event : Event) (bare : ¬ Hashed python state event) :
    ∃ next, Login.step pbkdf2 python true state event = some next ∧ ¬ Authentic pbkdf2 next := by
  cases event with
  | request world req =>
      simp only [Hashed, not_forall, not_not] at bare
      obtain ⟨route, call, password, user, typed, named, stored, empty⟩ := bare
      refine ⟨_, rfl, fun authentic => ?_⟩
      have opened := @openedBy_open pbkdf2 python world state.app req call password user route typed
        named stored empty
      have listed : (⟨call, password, some []⟩ : Opening) ∈
          state.openings ++ openedBy pbkdf2 python world state.app req := by
        rw [opened]
        exact List.mem_append_right _ List.mem_cons_self
      exact not_verified_bare call password (authentic _ listed)
  | connect => exact absurd trivial bare
  | line => exact absurd trivial bare
  | resume => exact absurd trivial bare
  | others => exact absurd trivial bare

theorem sound_begin (app : WebApp) : Sound pbkdf2 (begin app) where
  authentic _ listed := absurd listed List.not_mem_nil
  recording _ listed := absurd listed List.not_mem_nil

/-- With passwords required, every session comes into existence with the right password in
exactly the runs in which no web login names a record without a hash. -/
theorem authentic_throughout_iff (pbkdf2 : Auth.Kdf) (python : Library) (app : WebApp)
    (events : List Event) :
    Throughout (step pbkdf2 python true) (Authentic pbkdf2) (begin app) events ↔
      EveryStep (step pbkdf2 python true) (Hashed python) (begin app) events :=
  throughout_iff_everyStep (fun _ _ _ (sound : Sound pbkdf2 _) hashed stepped => sound.step hashed stepped)
    (fun _ sound => sound.authentic) (fun _ event _ bare => Sound.opens event bare)
    (sound_begin app) events

/-- The record that an open node makes of a first login. -/
def oneGuest : WebApp :=
  Authority.oneSysop.withUsers (UserDirectory.empty.upsertUser (.new "W3BBS" privUser "" Authority.noon)
    (UserTable.new_storable _ _ _ _))

/-- The user has never set a password, and any is good enough. -/
theorem guest_by_any_password :
    ¬ ∀ (pbkdf2 : Auth.Kdf) (python : Library) (app : WebApp) (events : List Event),
      Throughout (step pbkdf2 python true) (Authentic pbkdf2) (begin app) events := by
  intro claimed
  let python := Authority.twoBodies
  let req := Authority.post "/api/auth/login" [] Authority.loginBody
  let login := Event.request (Authority.still 0) req
  obtain ⟨user, stored, empty⟩ := Option.map_eq_some_iff.mp
    (by decide +kernel : (oneGuest.database.users.getUser "W3BBS").map User.passwordHash = some [])
  have typed : credentials python req = some ("W3BBS".toList, "letmein".toList) := by
    decide +kernel
  have route : WebApp.Route.ofRequest python req = .login := by decide +kernel
  have bare : ¬ Hashed python (begin oneGuest) login := fun hashed =>
    hashed route _ _ user typed (by decide) stored empty
  let kdf : Auth.Kdf := fun _ salt _ _ => salt
  obtain ⟨next, stepped, against⟩ := @Sound.opens kdf python (begin oneGuest) login bare
  exact against (claimed kdf python oneGuest [login] [login] next List.prefix_rfl
    (by simp [run, stepped]))

end PyBulletin.Session.Login
