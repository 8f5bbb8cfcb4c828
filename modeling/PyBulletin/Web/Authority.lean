import PyBulletin.Foundation.Run
import PyBulletin.Web.Access

set_option autoImplicit false

namespace PyBulletin.Web.Authority

open PyBulletin.Foundation
open PyBulletin.Store
open PyBulletin.Web.WebApp

/-! A token keeps the privilege that its login has found, for as long as it is valid.  The
table of users goes its own way meanwhile.  A request to connect to a neighbor has its session
found at once and writes later, as long as its forwarding session runs.
-/

/-- A request that awaits a forwarding session: the token that it came with, and the session
found under it. -/
structure Call where
  token : Text
  session : WebSession
  neighbor : ForwardNeighborConfig

def Call.key (call : Call) : Text × WebSession := (call.token, call.session)

structure State where
  app : WebApp
  calls : List Call

/-- `forwards` is what the forwarding session of a waiting request makes of the tables, `others`
what terminals, the scheduler and maintenance make of them. -/
inductive Event where
  | request (world : World) (req : HTTPRequest)
  | forwards (call : Nat) (database : Database)
  | answers (call : Nat)
  | setPrivilege (call privilege : Text)
  | deleteUser (call : Text)
  | others (database : Database)
  | prune (time : Rat)

/-- The request waits if its handler does. -/
def waiting (req : HTTPRequest) (session : Option WebSession) : Outcome → List Call
  | .forwarding neighbor => (session.map fun session => ⟨req.token, session, neighbor⟩).toList
  | _ => []

variable (python : Library) (pbkdf2 : Auth.Kdf)

def step (state : State) : Event → Option State
  | .request world req =>
      let (app, outcome) := handleRequest python pbkdf2 world state.app req
      some ⟨app, state.calls ++ waiting req (resolved world state.app req) outcome⟩
  | .forwards i database =>
      (state.calls[i]?).map fun _ => { state with app := { state.app with database } }
  | .answers i => (state.calls[i]?).map fun _ => { state with calls := state.calls.eraseIdx i }
  | .setPrivilege call privilege =>
      some { state with
        app := state.app.withUsers (state.app.database.users.setPrivilege call privilege) }
  | .deleteUser call =>
      some { state with app := state.app.withUsers (state.app.database.users.deleteUser call) }
  | .others database => some { state with app := { state.app with database } }
  | .prune time =>
      some { state with app := { state.app with sessions := state.app.sessions.prune time } }

/-- An endpoint for sysops changes the store or the configuration. -/
def Acts (state : State) : Event → Prop
  | .request world req =>
      (∃ endpoint, Route.ofRequest python req = .endpoint endpoint ∧ sysopOnly endpoint) ∧
        ((handleRequest python pbkdf2 world state.app req).1.database ≠ state.app.database ∨
          (handleRequest python pbkdf2 world state.app req).1.config ≠ state.app.config)
  | .forwards i database => i < state.calls.length ∧ database ≠ state.app.database
  | _ => False

/-- The token and the session of the request that is served. -/
def actor (state : State) : Event → Option (Text × WebSession)
  | .request world req => (resolved world state.app req).map fun session => (req.token, session)
  | .forwards i _ => (state.calls[i]?).map Call.key
  | _ => none

/-- A user whose record says at this moment that they are a sysop. -/
def IsSysop (state : State) (call : Text) : Prop :=
  ∃ user, state.app.database.users.getUser call = some user ∧ user.privilege = privSysop

/-- Whoever acts at an endpoint for sysops is one at this moment. -/
def Current (state : State) (event : Event) : Prop :=
  Acts python pbkdf2 state event →
    ∃ key, actor state event = some key ∧ IsSysop state key.2.call

/-- The event is a login that opens the session under the token. -/
def Opens (state : State) (event : Event) (key : Text × WebSession) : Prop :=
  ∃ world req user, event = .request world req ∧ Route.ofRequest python req = .login ∧
    state.app.database.users.getUser key.2.call = some user ∧ key.1 = world.token ∧
    key.2 = .opened world.token key.2.call user.privilege world.time

/-- The event is a logout with the token. -/
def Closes (_ : State) (event : Event) (key : Text × WebSession) : Prop :=
  ∃ world req, event = .request world req ∧ Route.ofRequest python req = .logout ∧
    req.token ≠ [] ∧ req.token = key.1

/-- The event is a request with the token, for which the session is found. -/
def Asks (state : State) (event : Event) (key : Text × WebSession) : Prop :=
  ∃ world req, event = .request world req ∧ req.token = key.1 ∧
    resolved world state.app req = some key.2 ∧ world.time ≤ key.2.expiresAt

def Open (state : State) (key : Text × WebSession) : Prop :=
  state.app.sessions.find key.1 = some key.2

/-- A request of the session waits. -/
def Waits (state : State) (key : Text × WebSession) : Prop := ∃ call ∈ state.calls, call.key = key

/-- The run has a login of a sysop under the token, which is followed by no logout; the request
behind the run has the session found, within a day of the login. -/
def Entitled (start : State) (events : List Event) (asking : Event) (key : Text × WebSession) :
    Prop :=
  ∃ front login back before after asked, events = front ++ login :: back ∧
    run (step python pbkdf2) start front = some before ∧
    step python pbkdf2 before login = some after ∧
    run (step python pbkdf2) after back = some asked ∧
    Opens python before login key ∧ IsSysop before key.2.call ∧
    EveryStep (step python pbkdf2) (fun state event => ¬ Closes python state event key) after back ∧
    Asks asked asking key ∧ key.2.expiresAt = key.2.createdAt + sessionTtl

variable {python} {pbkdf2} {world : World} {app : WebApp} {state next start : State}
  {req : HTTPRequest} {session : Option WebSession} {event : Event} {key : Text × WebSession}

def KeepsSessions (app : WebApp) (reply : Reply) : Prop := reply.1.sessions = app.sessions

theorem keeps_same {outcome : Outcome} : KeepsSessions app (app, outcome) := rfl

theorem asUser_keeps {serve : WebSession → Reply} (served : ∀ user, KeepsSessions app (serve user)) :
    KeepsSessions app (asUser app session serve) := by
  cases session with
  | none => exact keeps_same
  | some user => exact served user

theorem asSysop_keeps {serve : WebSession → Reply} (served : ∀ user, KeepsSessions app (serve user)) :
    KeepsSessions app (asSysop app session serve) := by
  cases session with
  | none => exact keeps_same
  | some user =>
      rw [asSysop]
      split
      · exact served user
      · exact keeps_same

theorem withFields_keeps {bad : Text} {catches : Bool} {serve : List (Text × Json) → Reply}
    (served : ∀ fields, KeepsSessions app (serve fields)) :
    KeepsSessions app (withFields python app req bad catches serve) := by
  rw [withFields]
  split
  · exact keeps_same
  · exact served _

theorem withMessage_keeps {id : Nat} {serve : Row → Reply}
    (served : ∀ msg, KeepsSessions app (serve msg)) :
    KeepsSessions app (withMessage app id serve) := by
  rw [withMessage]
  split
  · split
    · exact keeps_same
    · exact served _
  · exact keeps_same

theorem readMessage_keeps (id : Nat) : KeepsSessions app (readMessage world app session id) := by
  rw [readMessage]
  refine asUser_keeps fun user => withMessage_keeps fun msg => ?_
  split
  · exact keeps_same
  · split
    · exact keeps_same
    · dsimp only
      split <;> rfl

theorem sendMessage_keeps :
    KeepsSessions app (sendMessage python world app req session) := by
  rw [sendMessage]
  refine asUser_keeps fun user => withFields_keeps fun fields => ?_
  dsimp only
  split
  · exact keeps_same
  · split
    · exact keeps_same
    · split <;> rfl

theorem editMessage_keeps (id : Nat) :
    KeepsSessions app (editMessage python world app req session id) := by
  rw [editMessage]
  refine asSysop_keeps fun user => withMessage_keeps fun msg => withFields_keeps fun fields => ?_
  dsimp only
  split
  · exact keeps_same
  · generalize app.database.mail.updateMessage _ _ _ _ _ = mail
    have kept : KeepsSessions (app.withMail mail) (withMessage (app.withMail mail) id
        fun updated => (app.withMail mail, .json (.message (msgDetail updated)))) :=
      withMessage_keeps fun _ => rfl
    exact kept

theorem createUser_keeps :
    KeepsSessions app (WebApp.createUser python pbkdf2 world app req session) := by
  rw [WebApp.createUser]
  refine asSysop_keeps fun user => withFields_keeps fun fields => ?_
  dsimp only
  split
  · exact keeps_same
  · split
    · exact keeps_same
    · split
      · exact keeps_same
      · rfl

theorem resetPassword_keeps (call : Text) :
    KeepsSessions app (WebApp.resetPassword python pbkdf2 world app req session call) := by
  rw [WebApp.resetPassword]
  refine asSysop_keeps fun user => withFields_keeps fun fields => ?_
  dsimp only
  split
  · exact keeps_same
  · split
    · exact keeps_same
    · rfl

theorem addNeighbor_keeps : KeepsSessions app (addNeighbor python app req session) := by
  rw [addNeighbor]
  refine asSysop_keeps fun user => withFields_keeps fun fields => ?_
  dsimp only
  split
  · exact keeps_same
  · split
    · exact keeps_same
    · split
      · exact keeps_same
      · rfl

theorem updateNeighbor_keeps (call : Text) :
    KeepsSessions app (updateNeighbor python app req session call) := by
  rw [updateNeighbor]
  refine asSysop_keeps fun user => ?_
  split
  · exact keeps_same
  · split
    · exact keeps_same
    · exact keeps_same
    · rfl

theorem connectNeighbor_keeps (call : Text) :
    KeepsSessions app (connectNeighbor app session call) := by
  rw [connectNeighbor]
  refine asSysop_keeps fun user => ?_
  split <;> exact keeps_same

theorem serve_keeps (endpoint : Endpoint) :
    KeepsSessions app (serve python pbkdf2 world app req session endpoint) := by
  cases endpoint with
  | readMessage id => exact readMessage_keeps id
  | sendMessage => exact sendMessage_keeps
  | editMessage id => exact editMessage_keeps id
  | createUser => exact createUser_keeps
  | resetPassword call => exact resetPassword_keeps call
  | addNeighbor => exact addNeighbor_keeps
  | updateNeighbor call => exact updateNeighbor_keeps call
  | connectNeighbor call => exact connectNeighbor_keeps call
  | listMessages =>
      rw [serve, listMessages]
      refine asUser_keeps fun user => ?_
      split
      · dsimp only
        split <;> exact keeps_same
      · exact keeps_same
  | killMessage id =>
      rw [serve, killMessage]
      refine asUser_keeps fun user => withMessage_keeps fun msg => ?_
      split
      · exact keeps_same
      · rfl
  | holdRelease id action =>
      rw [serve, holdRelease]
      refine asSysop_keeps fun user => ?_
      split
      · rfl
      · exact keeps_same
  | listUsers =>
      rw [serve, listUsers]
      refine asSysop_keeps fun user => ?_
      split
      · exact keeps_same
      · split <;> exact keeps_same
  | getUser call =>
      rw [serve, getUser]
      refine asUser_keeps fun user => ?_
      split
      · exact keeps_same
      · split <;> exact keeps_same
  | deleteUser call =>
      rw [serve, WebApp.deleteUser]
      exact asSysop_keeps fun _ => rfl
  | setPrivilege call =>
      rw [serve, WebApp.setPrivilege]
      refine asSysop_keeps fun user => withFields_keeps fun fields => ?_
      dsimp only
      split
      · rfl
      · exact keeps_same
  | listNeighbors =>
      rw [serve, listNeighbors]
      exact asSysop_keeps fun _ => keeps_same
  | deleteNeighbor call =>
      rw [serve, deleteNeighbor]
      refine asSysop_keeps fun user => ?_
      dsimp only
      split
      · exact keeps_same
      · rfl
  | wpLookup =>
      rw [serve, wpLookup]
      refine asUser_keeps fun user => ?_
      dsimp only
      split
      · exact keeps_same
      · split <;> exact keeps_same
  | stats =>
      rw [serve, stats]
      refine asUser_keeps fun user => ?_
      split <;> exact keeps_same
  | getConfig =>
      rw [serve, getConfig]
      exact asSysop_keeps fun _ => keeps_same
  | setConfig =>
      rw [serve, setConfig]
      exact asSysop_keeps fun user => withFields_keeps fun fields => rfl
  | conferenceStatus =>
      rw [serve, conferenceStatus]
      exact asUser_keeps fun _ => keeps_same
  | overlong => exact keeps_same
  | unknown => exact keeps_same

theorem find_restrict {sessions : SessionStore} {keep : Text → WebSession → Bool}
    (found : (sessions.restrict keep).find key.1 = some key.2) :
    sessions.find key.1 = some key.2 ∧ keep key.1 key.2 :=
  Option.filter_eq_some_iff.mp found

theorem find_getFromRequest {sessions : SessionStore} {time : Rat}
    (found : (sessions.getFromRequest req time).1.find key.1 = some key.2) :
    sessions.find key.1 = some key.2 := by
  rw [SessionStore.getFromRequest] at found
  split at found
  · exact found
  · rw [SessionStore.get] at found
    split at found
    · exact found
    · split at found
      · exact (find_restrict found).1
      · exact found

theorem login_sessions
    (found : (login python pbkdf2 world app req).1.sessions.find key.1 = some key.2) :
    app.sessions.find key.1 = some key.2 ∨
      ∃ user, app.database.users.getUser key.2.call = some user ∧ key.1 = world.token ∧
        key.2 = .opened world.token key.2.call user.privilege world.time := by
  have opened {call : Text} {user : User} (capital : Text.upper call = call)
      (stored : app.database.users.getUser call = some user)
      (created : (app.sessions.create world.token call user.privilege world.time).find key.1 =
        some key.2) :
      app.sessions.find key.1 = some key.2 ∨
        ∃ user, app.database.users.getUser key.2.call = some user ∧ key.1 = world.token ∧
          key.2 = .opened world.token key.2.call user.privilege world.time := by
    rw [SessionStore.create] at created
    dsimp only at created
    split at created
    · rename_i same
      have session := (Option.some.inj created).symm
      have owner : key.2.call = call := by rw [session, WebSession.opened, capital]
      exact .inr ⟨user, by rw [owner, stored], same, by rw [owner, session]⟩
    · exact .inl created
  rw [login, withFields] at found
  split at found
  · exact .inl found
  · dsimp only at found
    split at found
    · exact .inl found
    · split at found
      · exact .inl found
      · rename_i user stored
        split at found
        · exact opened (python.capital _) stored found
        · split at found
          · exact .inl found
          · exact .inl found
          · exact opened (python.capital _) stored found

theorem logout_sessions
    (found : (logout app req).1.sessions.find key.1 = some key.2) :
    app.sessions.find key.1 = some key.2 ∧ ¬ (req.token ≠ [] ∧ req.token = key.1) := by
  rw [logout] at found
  dsimp only at found
  split at found
  · rename_i missing
    exact ⟨found, fun closes => closes.1 missing⟩
  · obtain ⟨kept, other⟩ := find_restrict found
    exact ⟨kept, fun closes => of_decide_eq_true other closes.2.symm⟩

theorem handleRequest_endpoint {endpoint : Endpoint}
    (route : Route.ofRequest python req = .endpoint endpoint) :
    handleRequest python pbkdf2 world app req = serve python pbkdf2 world
      { app with sessions := (app.sessions.getFromRequest req world.time).1 } req
      (resolved world app req) endpoint := by
  rw [handleRequest, route]

/-- A token that is valid after a step was so before it or was opened by it. -/
theorem open_traced (state : State) (event : Event) (next : State) (key : Text × WebSession)
    (stepped : step python pbkdf2 state event = some next) (marked : Open next key) :
    Opens python state event key ∨ (Open state key ∧ ¬ Closes python state event key) := by
  cases event with
  | request world req =>
      have served : next.app = (handleRequest python pbkdf2 world state.app req).1 := by
        cases stepped
        rfl
      rw [Open, served] at marked
      have silent (route : Route.ofRequest python req ≠ .logout) :
          ¬ Closes python state (.request world req) key := by
        rintro ⟨_, _, same, closing, _⟩
        cases same
        exact route closing
      cases route : Route.ofRequest python req with
      | login =>
          rw [handleRequest, route] at marked
          rcases login_sessions marked with kept | ⟨user, stored, token, session⟩
          · exact .inr ⟨kept, silent (by simp [route])⟩
          · exact .inl ⟨world, req, user, rfl, route, stored, token, session⟩
      | logout =>
          rw [handleRequest, route] at marked
          obtain ⟨kept, open_⟩ := logout_sessions marked
          refine .inr ⟨kept, ?_⟩
          rintro ⟨_, _, same, _, closes⟩
          cases same
          exact open_ closes
      | health =>
          rw [handleRequest, route] at marked
          exact .inr ⟨marked, silent (by simp [route])⟩
      | static file =>
          rw [handleRequest, route] at marked
          dsimp only at marked
          rw [static_eq] at marked
          exact .inr ⟨marked, silent (by simp [route])⟩
      | endpoint endpoint =>
          rw [handleRequest_endpoint route] at marked
          rw [serve_keeps endpoint] at marked
          exact .inr ⟨find_getFromRequest marked, silent (by simp [route])⟩
  | forwards i database =>
      obtain ⟨_, _, rfl⟩ := Option.map_eq_some_iff.mp stepped
      exact .inr ⟨marked, by rintro ⟨_, _, same, _⟩; cases same⟩
  | answers i =>
      obtain ⟨_, _, rfl⟩ := Option.map_eq_some_iff.mp stepped
      exact .inr ⟨marked, by rintro ⟨_, _, same, _⟩; cases same⟩
  | prune time =>
      cases stepped
      exact .inr ⟨(find_restrict marked).1, by rintro ⟨_, _, same, _⟩; cases same⟩
  | setPrivilege call privilege =>
      cases stepped
      exact .inr ⟨marked, by rintro ⟨_, _, same, _⟩; cases same⟩
  | deleteUser call =>
      cases stepped
      exact .inr ⟨marked, by rintro ⟨_, _, same, _⟩; cases same⟩
  | others database =>
      cases stepped
      exact .inr ⟨marked, by rintro ⟨_, _, same, _⟩; cases same⟩

/-- Only the session of a sysop acts at the endpoints for sysops. -/
theorem acts_session (acts : Acts python pbkdf2 state (.request world req)) :
    ∃ user, resolved world state.app req = some user ∧ user.privilege = privSysop := by
  obtain ⟨⟨endpoint, route, only⟩, changed⟩ := acts
  rw [handleRequest_endpoint route] at changed
  cases found : resolved world state.app req with
  | none =>
      rw [found, serve_none] at changed
      exact absurd changed (by simp)
  | some user =>
      refine ⟨user, rfl, ?_⟩
      by_contra common
      have plain : user.isSysop = false := by simpa [WebSession.isSysop] using common
      rw [found, serve_sysopOnly plain only] at changed
      exact absurd changed (by simp)

theorem mem_waiting {call : Call}
    (listed : call ∈ waiting req (resolved world app req)
      (handleRequest python pbkdf2 world app req).2) :
    call.token = req.token ∧ resolved world app req = some call.session ∧
      call.session.privilege = privSysop := by
  cases outcome : (handleRequest python pbkdf2 world app req).2 with
  | forwarding neighbor =>
      rw [outcome, waiting] at listed
      cases found : resolved world app req with
      | none =>
          rw [found] at listed
          cases listed
      | some user =>
          rw [found, Option.map_some, Option.toList_some, List.mem_singleton] at listed
          subst listed
          refine ⟨rfl, rfl, ?_⟩
          by_contra common
          have plain : user.isSysop = false := by simpa [WebSession.isSysop] using common
          exact absurd outcome ((confined found plain).answered neighbor)
  | response _ | none | raised =>
      rw [outcome] at listed
      cases listed

theorem asks_resolved {user : WebSession} (found : resolved world state.app req = some user) :
    Asks state (.request world req) (req.token, user) := by
  obtain ⟨_, live, _⟩ := SessionStore.getFromRequest_eq_some found
  exact ⟨world, req, rfl, rfl, found, live⟩

/-- A request that waits after a step did so before it or came in with it. -/
theorem waits_traced (state : State) (event : Event) (next : State) (key : Text × WebSession)
    (stepped : step python pbkdf2 state event = some next) (marked : Waits next key) :
    (Asks state event key ∧ key.2.privilege = privSysop) ∨ (Waits state key ∧ ¬ False) := by
  obtain ⟨call, listed, rfl⟩ := marked
  cases event with
  | request world req =>
      cases stepped
      rcases List.mem_append.mp listed with old | new
      · exact .inr ⟨⟨call, old, rfl⟩, not_false⟩
      · obtain ⟨token, found, sysop⟩ := mem_waiting new
        have asks := asks_resolved found
        rw [← token] at asks
        exact .inl ⟨asks, sysop⟩
  | forwards i database =>
      obtain ⟨_, _, rfl⟩ := Option.map_eq_some_iff.mp stepped
      exact .inr ⟨⟨call, listed, rfl⟩, not_false⟩
  | answers i =>
      obtain ⟨_, _, rfl⟩ := Option.map_eq_some_iff.mp stepped
      exact .inr ⟨⟨call, List.mem_of_mem_eraseIdx listed, rfl⟩, not_false⟩
  | setPrivilege _ _ | deleteUser _ | others _ | prune _ =>
      cases stepped
      exact .inr ⟨⟨call, listed, rfl⟩, not_false⟩

/-- Two bodies in ASCII, and what they are in JSON. -/
def loginBody : Text := "\x7b\"call\": \"W3BBS\", \"password\": \"letmein\"\x7d"

def motdBody : Text := "\x7b\"motd\": \"Bye\"\x7d"

def twoBodies : Library where
  loads body :=
    if body = Forward.encodeAscii loginBody then
      .value (.object [("call", .string "W3BBS"), ("password", .string "letmein")])
    else if body = Forward.encodeAscii motdBody then .value (.object [("motd", .string "Bye")])
    else .invalid
  parseQsl _ := []
  isDecimal := Char.isDigit
  int := Text.parseInt
  upper := Text.upper
  capital := Text.upper_upper
  repr _ := ""
  isTrue _ := true

def noon : DateTime := ⟨2026, 1, 1, 12, 0, 0⟩

def still (time : Rat) : World where
  time
  now := noon
  token := "token"
  salt := [0]
  bid := "1_W3BBS"
  static _ := none

def post (path : Text) (headers : List (Text × Text)) (body : Text) : HTTPRequest where
  method := "POST"
  path
  query := ""
  headers
  body := Forward.encodeAscii body

/-- A node with one sysop and one neighbor; the hash is the one of `letmein` where the key is
the salt. -/
def oneSysop : WebApp where
  database := {
    mail := .empty
    users := UserDirectory.empty.upsertUser
      (.new "W3BBS" privSysop "pbkdf2:1:00:00" noon) (UserTable.new_storable _ _ _ _)
    wpEntries := []
    neighbors := [] }
  config := {
    node := ⟨"W3BBS", "NODE", "Sysop", "Here", "FN20", "Hello", "pyBulletin", "Welcome", "", "H", true⟩
    neighbors := [{ call := "N0BBB" }]
    maxMessageBodyBytes := 32768 }
  conference := none
  sessions := .empty

private def demotion : List Event :=
  [.request (still 0) (post "/api/auth/login" [] loginBody), .setPrivilege "W3BBS" privUser]

private def tokenHeader : List (Text × Text) := [("authorization", "Bearer token")]

private def farewell : HTTPRequest := post "/api/config" tokenHeader motdBody

private def saltKdf : Auth.Kdf := fun _ salt _ _ => salt

private def morning : State := ⟨oneSysop, []⟩

/-- The sysop is made an ordinary user and changes the configuration an hour later. -/
theorem farewell_acts :
    ∃ state, run (step twoBodies saltKdf) morning demotion = some state ∧
      Acts twoBodies saltKdf state (.request (still 3600) farewell) ∧
      (actor state (.request (still 3600) farewell)).map (·.2.call) = some ("W3BBS" : Text) ∧
      (state.app.database.users.getUser "W3BBS").map User.privilege = some privUser := by
  obtain ⟨state, reached, facts⟩ := Option.map_eq_some_iff.mp
    (by decide +kernel : (run (step twoBodies saltKdf) morning demotion).map (fun state =>
      ((actor state (.request (still 3600) farewell)).map (·.2.call),
        (state.app.database.users.getUser "W3BBS").map User.privilege, state.app.config.node.motd,
        (handleRequest twoBodies saltKdf (still 3600) state.app farewell).1.config.node.motd)) =
      some (some "W3BBS".toList, some privUser, "Hello".toList, "Bye".toList))
  simp only [Prod.mk.injEq] at facts
  obtain ⟨known, demoted, before, after⟩ := facts
  refine ⟨state, reached, ⟨⟨.setConfig, by decide +kernel, rfl⟩, .inr fun same => ?_⟩, known, demoted⟩
  rw [same, before] at after
  exact absurd after (by decide)

theorem demoted_sysop_acts :
    ¬ ∀ (python : Library) (pbkdf2 : Auth.Kdf) (start : State) (events : List Event),
      (∀ token, start.app.sessions.find token = none) → start.calls = [] →
        EveryStep (step python pbkdf2) (Current python pbkdf2) start events := by
  intro claimed
  obtain ⟨state, reached, acts, known, demoted⟩ := farewell_acts
  have meets := claimed twoBodies saltKdf morning (demotion ++ [.request (still 3600) farewell])
    (fun _ => rfl) rfl
  have current := (meets.behind reached).1
  obtain ⟨key, found, user, stored, sysop⟩ := current acts
  rw [found, Option.map_some, Option.some.injEq] at known
  rw [known] at stored
  rw [stored, Option.map_some, Option.some.injEq, sysop] at demoted
  exact absurd demoted (by decide)

theorem run_behind {front back : List Event} {middle final : State}
    (completed : run (step python pbkdf2) start (front ++ event :: back) = some final)
    (reached : run (step python pbkdf2) start front = some middle)
    (stepped : step python pbkdf2 middle event = some next) :
    run (step python pbkdf2) next back = some final := by
  rw [run_split, reached, Option.bind_some, run, stepped] at completed
  exact completed

/-- A session that is found for a request was opened by a login of the run. -/
theorem Asks.entitled {events : List Event} (asks : Asks state event key)
    (sysop : key.2.privilege = privSysop)
    (empty : ∀ token, start.app.sessions.find token = none)
    (completed : run (step python pbkdf2) start events = some state) :
    Entitled python pbkdf2 start events event key := by
  obtain ⟨world, req, rfl, token, found, live⟩ := asks
  obtain ⟨stored, _, _⟩ := SessionStore.getFromRequest_eq_some found
  have opened : Open state key := by
    rw [Open, ← token]
    exact stored
  rcases marked_since open_traced completed opened with
    ⟨early, _⟩ | ⟨front, login, back, before, after, rfl, reached, stepped, opens, lasting⟩
  · cases (empty key.1).symm.trans early
  · have behind := run_behind completed reached stepped
    obtain ⟨opening, request, user, _, _, listed, _, stamped⟩ := id opens
    have privilege : key.2.privilege = user.privilege := congrArg WebSession.privilege stamped
    have created : key.2.createdAt = opening.time := congrArg WebSession.createdAt stamped
    have expires : key.2.expiresAt = opening.time + sessionTtl :=
      congrArg WebSession.expiresAt stamped
    refine ⟨front, login, back, before, after, state, rfl, reached, stepped, behind, opens,
      ⟨user, listed, privilege.symm.trans sysop⟩, lasting, ⟨world, req, rfl, token, found, live⟩, ?_⟩
    rw [created, expires]

/-- Whoever acts at an endpoint for sysops came in within a day from a login as a sysop and before
a logout with the token: with the request that acts, or with the one that forwards now. -/
theorem acts_since (python : Library) (pbkdf2 : Auth.Kdf) (start state : State)
    (events : List Event) (event : Event)
    (empty : ∀ token, start.app.sessions.find token = none) (idle : start.calls = [])
    (completed : run (step python pbkdf2) start events = some state)
    (acts : Acts python pbkdf2 state event) :
    ∃ key asked asking rest, actor state event = some key ∧
      events ++ [event] = asked ++ asking :: rest ∧
      (rest = [] ∨ ∃ i database, event = .forwards i database) ∧
      Entitled python pbkdf2 start asked asking key := by
  cases event with
  | request world req =>
      obtain ⟨user, found, sysop⟩ := acts_session acts
      refine ⟨(req.token, user), events, .request world req, [], ?_, rfl, .inl rfl,
        (asks_resolved found).entitled sysop empty completed⟩
      rw [actor, found, Option.map_some]
  | forwards i database =>
      have bound : i < state.calls.length := acts.1
      have waits : Waits state state.calls[i].key := ⟨_, List.getElem_mem bound, rfl⟩
      rcases marked_since waits_traced completed waits with
        ⟨⟨_, early, _⟩, _⟩ | ⟨front, asking, back, before, after, rfl, reached, _, asked, _⟩
      · rw [idle] at early
        cases early
      · refine ⟨_, front, asking, back ++ [.forwards i database], ?_, by simp,
          .inr ⟨i, database, rfl⟩, asked.1.entitled asked.2 empty reached⟩
        rw [actor, List.getElem?_eq_getElem bound, Option.map_some]
  | answers _ | setPrivilege _ _ | deleteUser _ | others _ | prune _ => exact absurd acts id

private def departure : List Event :=
  [.request (still 0) (post "/api/auth/login" [] loginBody),
    .request (still 60) (post "/api/neighbors/n0bbb/connect" tokenHeader ""),
    .request (still 120) (post "/api/auth/logout" tokenHeader "")]

/-- A forwarding session still writes when the sysop who has asked for it is logged out. -/
theorem departed_sysop_forwards :
    ∃ state key asked asking rest, run (step twoBodies saltKdf) morning departure = some state ∧
      state.app.sessions.find "token" = none ∧
      departure ++ [.forwards 0 (oneSysop.withUsers .empty).database] = asked ++ asking :: rest ∧
      Entitled twoBodies saltKdf morning asked asking key := by
  obtain ⟨state, reached, facts⟩ := Option.map_eq_some_iff.mp
    (by decide +kernel : (run (step twoBodies saltKdf) morning departure).map (fun state =>
      (state.calls.length, (state.app.sessions.find "token").isNone,
        (state.app.database.users.getUser "W3BBS").isSome)) = some (1, true, true))
  simp only [Prod.mk.injEq] at facts
  obtain ⟨one, gone, known⟩ := facts
  have acts : Acts twoBodies saltKdf state (.forwards 0 (oneSysop.withUsers .empty).database) := by
    refine ⟨by omega, fun same => ?_⟩
    rw [← same] at known
    exact absurd known (by decide +kernel)
  obtain ⟨key, asked, asking, rest, _, split, _, entitled⟩ :=
    acts_since twoBodies saltKdf morning state departure _ (fun _ => rfl) rfl reached acts
  exact ⟨state, key, asked, asking, rest, reached, Option.isNone_iff_eq_none.mp gone, split, entitled⟩

end PyBulletin.Web.Authority
