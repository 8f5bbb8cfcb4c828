import PyBulletin.Web.Protocol

set_option autoImplicit false

namespace PyBulletin.Web

open PyBulletin.Foundation
open PyBulletin.Store

/-! # The web application

A handler runs on the state of the application to its end, or up to the forwarding session that
it awaits.  `handleRequest` finds the endpoint of a request; what depends on the session is left
to the endpoint.
-/

namespace WebApp

variable (python : Library) (pbkdf2 : Auth.Kdf) (world : World)

section Handlers

variable (app : WebApp) (req : HTTPRequest) (session : Option WebSession)

def asUser (serve : WebSession → Reply) : Reply :=
  match session with
  | none => (app, .forbidden)
  | some session => serve session

def asSysop (serve : WebSession → Reply) : Reply :=
  match session with
  | none => (app, .forbidden)
  | some session => if session.isSysop then serve session else (app, .forbidden)

/-- A reply from the fields of the body. -/
def withFields (bad : Text) (catches : Bool) (serve : List (Text × Json) → Reply) : Reply :=
  match python.dictionary req bad catches with
  | .error outcome => (app, outcome)
  | .ok fields => serve fields

/-- A reply from message `id`; a number that SQLite cannot hold raises. -/
def withMessage (id : Nat) (serve : Row → Reply) : Reply :=
  if fitsColumn id then
    match app.database.mail.getMessage id with
    | none => (app, .notFound)
    | some msg => serve msg
  else (app, .raised)

def login : Reply :=
  withFields python app req "Invalid JSON" true fun fields =>
    let call := python.upper (Text.strip (python.field fields "call" ""))
    let password := python.field fields "password" ""
    if call = [] then (app, .badRequest "call required")
    else
      match app.database.users.getUser call with
      | none => (app, .unauthorized)
      | some user =>
          let opened : Reply :=
            ({ app with sessions := app.sessions.create world.token call user.privilege world.time },
              .json (.login (.opened world.token call user.privilege world.time)))
          if user.passwordHash = [] then opened
          else
            match Auth.verifyPassword pbkdf2 password user.passwordHash with
            | none => (app, .raised)
            | some false => (app, .unauthorized)
            | some true => opened

def logout : Reply :=
  ({ app with sessions := if req.token = [] then app.sessions else app.sessions.revoke req.token },
    .json (.ok true))

def health : Reply := (app, .json (.health app.config.node.nodeCall app.config.node.motd))

def static (file : Text) : Reply :=
  match world.static file with
  | none => (app, .notFound)
  | some data => (app, .json (.content data))

def listMessages : Reply :=
  asUser app session fun _ =>
    match python.int ((python.queryParam req "limit").getD "100"),
        python.int ((python.queryParam req "since").getD "0") with
    | some limit, some sinceId =>
        let toCall := python.upper ((python.queryParam req "to").getD "")
        let search := (python.queryParam req "search").getD ""
        let query : MessageQuery := {
          msgType := python.queryParam req "type"
          status := python.queryParam req "status"
          sinceId
          toCall := if toCall = [] then none else some toCall
          search := if search = [] then none else some search
          limit := min limit 500 }
        match app.database.mail.listMessages query with
        | none => (app, .raised)
        | some msgs => (app, .json (.messages (msgs.map msgSummary)))
    | _, _ => (app, .raised)

def readMessage (id : Nat) : Reply :=
  asUser app session fun session =>
    withMessage app id fun msg =>
      if msg.status = statusKilled ∧ ¬ session.isSysop then (app, .notFound)
      else if msg.msgType = msgPrivate ∧ ¬ session.isSysop ∧
          ¬ (session.call = msg.toCall ∨ session.call = msg.fromCall) then (app, .forbidden)
      else
        let read :=
          if msg.msgType = msgPrivate ∧ msg.status = statusNew then
            app.withMail (app.database.mail.markRead id session.call world.now)
          else app
        (read, .json (.message (msgDetail msg)))

/-- The message that `_send_message` builds. -/
def composed (session : WebSession) (toCall atBbs subject text msgType : Text) : Store.Message where
  bid := world.bid
  msgType :=
    if msgType = msgPrivate ∨ msgType = msgBulletin ∨ msgType = msgNts then msgType else msgPrivate
  fromCall := session.call
  toCall
  atBbs
  subject
  body := text
  createdAt := some world.now

def sendMessage : Reply :=
  asUser app session fun session =>
    withFields python app req "Invalid JSON" false fun fields =>
      let toCall := python.upper (Text.strip (python.field fields "to" ""))
      let atBbs := python.upper (Text.strip (python.field fields "at_bbs" ""))
      let subject := Text.strip (python.field fields "subject" "")
      let text := python.field fields "body" ""
      let msgType := python.upper (python.field fields "type" msgPrivate)
      if toCall = [] ∨ subject = [] then (app, .badRequest "to and subject required")
      else if app.config.maxMessageBodyBytes < BBSStore.utf8Length text then
        (app, .badRequest ("Body exceeds " ++
          toString app.config.maxMessageBodyBytes ++ " bytes" : String))
      else
        let msg := composed world session toCall atBbs subject text msgType
        match app.database.mail.insertMessage msg statusNew with
        | (mail, none) => (app.withMail mail, .raised)
        | (mail, some id) => (app.withMail mail, .response ⟨201, .sent id⟩)

def editMessage (id : Nat) : Reply :=
  asSysop app session fun session =>
    withMessage app id fun msg =>
      withFields python app req "Invalid JSON" false fun fields =>
        let subject := Text.strip (python.field fields "subject" msg.subject)
        let text := python.field fields "body" msg.body
        if subject = [] then (app, .badRequest "subject required")
        else
          let mail := app.database.mail.updateMessage id subject text session.call world.now
          withMessage (app.withMail mail) id fun updated =>
            (app.withMail mail, .json (.message (msgDetail updated)))

def killMessage (id : Nat) : Reply :=
  asUser app session fun session =>
    withMessage app id fun msg =>
      if ¬ session.isSysop ∧ ¬ (session.call = msg.fromCall ∨ session.call = msg.toCall) then
        (app, .forbidden)
      else (app.withMail (app.database.mail.killMessage id), .json (.ok true))

def holdRelease (id : Nat) (action : Text) : Reply :=
  asSysop app session fun _ =>
    if fitsColumn id then
      let mail :=
        if action = "hold" then app.database.mail.holdMessage id
        else app.database.mail.releaseMessage id
      (app.withMail mail, .json (.ok (app.database.mail.getMessage id).isSome))
    else (app, .raised)

def listUsers : Reply :=
  asSysop app session fun _ =>
    match python.int ((python.queryParam req "limit").getD "200") with
    | none => (app, .raised)
    | some limit =>
        match app.database.users.listUsers (python.queryParam req "search")
            (python.queryParam req "privilege") (min limit 1000) with
        | none => (app, .raised)
        | some users => (app, .json (.users (users.map userSummary)))

def getUser (call : Text) : Reply :=
  asUser app session fun session =>
    if ¬ session.isSysop ∧ session.call ≠ Text.upper call then (app, .forbidden)
    else
      match app.database.users.getUser call with
      | none => (app, .notFound)
      | some user => (app, .json (.user (userDetail user)))

def deleteUser (call : Text) : Reply :=
  asSysop app session fun _ =>
    (app.withUsers (app.database.users.deleteUser call),
      .json (.ok (app.database.users.getUser call).isSome))

def setPrivilege (call : Text) : Reply :=
  asSysop app session fun _ =>
    withFields python app req "Bad request" true fun fields =>
      let privilege := Text.strip (python.field fields "privilege" "")
      if isPrivilege privilege then
        (app.withUsers (app.database.users.setPrivilege (Text.upper call) privilege),
          .json (.ok (app.database.users.getUser call).isSome))
      else (app, .badRequest "Invalid privilege level")

def createUser : Reply :=
  asSysop app session fun _ =>
    withFields python app req "Invalid JSON" true fun fields =>
      let call := python.upper (Text.strip (python.field fields "call" ""))
      let password := python.field fields "password" ""
      let privilege := python.field fields "privilege" privUser
      if call = [] ∨ ¬ Auth.isValidCall call then (app, .badRequest "Invalid callsign")
      else if password.length < 6 then
        (app, .badRequest "Password must be at least 6 characters")
      else
        match app.database.users.getUser call with
        | some _ => (app, .conflict (("User " : Text) ++ call ++ " already exists".toList))
        | none =>
            let user := createdUser pbkdf2 call password privilege world.salt world.now
            (app.withUsers (app.database.users.upsertUser user
                (createdUser_storable pbkdf2 call password privilege world.salt world.now)),
              .response ⟨201, .call call⟩)

def resetPassword (call : Text) : Reply :=
  asSysop app session fun _ =>
    withFields python app req "Invalid JSON" true fun fields =>
      let password := python.field fields "password" ""
      if password.length < 6 then (app, .badRequest "Password must be at least 6 characters")
      else
        match found : app.database.users.getUser (Text.upper call) with
        | none => (app, .notFound)
        | some user =>
            (app.withUsers (app.database.users.upsertUser
                { user with passwordHash := Auth.hashPassword pbkdf2 world.salt password }
                ((app.database.users.fits (Text.upper (Text.upper call)) user found).passwordHash _)),
              .json (.ok true))

/-- The neighbors of the configuration with their runtime state. -/
def neighborRecords : List (ForwardNeighborConfig × Option ForwardNeighbor) :=
  app.config.neighbors.map fun neighbor =>
    (neighbor, app.database.neighbors.find? fun row => row.call = neighbor.call)

def listNeighbors : Reply :=
  asSysop app session fun _ => (app, .json (.neighbors app.neighborRecords))

/-- The fields that a body may set, in the order in which they are looked up; `none` is a
`TypeError`. -/
def neighborFields :
    List (Text × (ForwardNeighborConfig → Json → Option ForwardNeighborConfig)) :=
  [("address", fun neighbor value => some { neighbor with address := python.str value }),
    ("protocol", fun neighbor value => some { neighbor with protocol := python.str value }),
    ("schedule", fun neighbor value => some { neighbor with schedule := python.str value }),
    ("categories", fun neighbor value => value.items.map fun items =>
      { neighbor with categories := items.map fun item => python.upper (python.str item) }),
    ("bin_mode", fun neighbor value => some { neighbor with binMode := python.isTrue value }),
    ("enabled", fun neighbor value => some { neighbor with enabled := python.isTrue value })]

/-- The neighbor after the assignments, and whether none of them raised. -/
def assignFields (body : Json) (neighbor : ForwardNeighborConfig) :
    List (Text × (ForwardNeighborConfig → Json → Option ForwardNeighborConfig)) →
      ForwardNeighborConfig × Bool
  | [] => (neighbor, true)
  | (name, assign) :: fields =>
      match body.get name with
      | .error _ => (neighbor, false)
      | .ok none => assignFields body neighbor fields
      | .ok (some value) =>
          match assign neighbor value with
          | none => (neighbor, false)
          | some neighbor => assignFields body neighbor fields

def addNeighbor : Reply :=
  asSysop app session fun _ =>
    withFields python app req "Invalid JSON" false fun fields =>
      let call := python.upper (Text.strip (python.field fields "call" ""))
      if call = [] then (app, .badRequest "call required")
      else if app.config.neighbors.any fun neighbor => neighbor.call = call then
        (app, .conflict (("Neighbor " : Text) ++ call ++ " already exists".toList))
      else
        match assignFields (.object fields) { call } (neighborFields python) with
        | (_, false) => (app, .raised)
        | (neighbor, true) =>
            (app.withNeighbors (app.config.neighbors ++ [neighbor]), .response ⟨201, .call call⟩)

/-- A body that raises on the way leaves the assignments before it in the configuration. -/
def updateNeighbor (call : Text) : Reply :=
  asSysop app session fun _ =>
    match app.config.neighbors.find? fun neighbor => neighbor.call = call with
    | none => (app, .notFound)
    | some neighbor =>
        match python.loads req.body with
        | .invalid => (app, .badRequest "Invalid JSON")
        | .raised => (app, .raised)
        | .value body =>
            let (changed, done) := assignFields body neighbor (neighborFields python)
            let place := app.config.neighbors.findIdx fun neighbor => neighbor.call = call
            (app.withNeighbors (app.config.neighbors.set place changed),
              if done then .json (.ok true) else .raised)

def deleteNeighbor (call : Text) : Reply :=
  asSysop app session fun _ =>
    let after := app.config.neighbors.filter fun neighbor => neighbor.call ≠ call
    if after.length = app.config.neighbors.length then (app, .notFound)
    else (app.withNeighbors after, .json (.ok true))

def connectNeighbor (call : Text) : Reply :=
  asSysop app session fun _ =>
    match app.config.neighbors.find? fun neighbor => neighbor.call = call ∧ neighbor.enabled with
    | none => (app, .notFound)
    | some neighbor => (app, .forwarding neighbor)

/-- What `_connect_neighbor` answers once `run_outgoing` has come to its end. -/
def connected : Except Text (Nat × Nat) → Outcome
  | .error text => .response ⟨502, .error text⟩
  | .ok (sent, received) => .json (.forwarded sent received)

def wpLookup : Reply :=
  asUser app session fun _ =>
    let call := python.upper (Text.strip ((python.queryParam req "call").getD ""))
    if call = [] then (app, .json (.wpCount app.database.wpEntries.length))
    else
      match app.database.getWpEntry call with
      | none => (app, .notFound (("No WP entry for " : Text) ++ call))
      | some entry => (app, .json (.wpEntry entry))

/-- The ten users who have logged in last, out of the first 200. -/
def recentLogins : List User :=
  let loggedIn := (limited 200 app.database.users.rows).filter fun user => user.lastLoginAt.isSome
  (loggedIn.mergeSort fun first second =>
    (first.lastLoginAt.bind fun one => second.lastLoginAt.map fun two => !one.before two).getD true).take 10

def statsOf (recent : List Row) : Stats where
  node := app.config.node.nodeCall
  qth := app.config.node.qth
  total := app.database.mail.countMessages
  newPrivate := app.database.mail.countWith msgPrivate statusNew
  newBulletin := app.database.mail.countWith msgBulletin statusNew
  newNts := app.database.mail.countWith msgNts statusNew
  users := app.database.users.rows.length
  wpEntries := app.database.wpEntries.length
  recentMessages := recent.reverse.map msgSummary
  recentLogins := app.recentLogins.map fun user => (user.call, user.lastLoginAt, user.lastLoginPeer)
  neighbors := app.neighborRecords

def stats : Reply :=
  asUser app session fun _ =>
    match app.database.mail.listMessages { limit := 10, reverse := true } with
    | none => (app, .raised)
    | some recent => (app, .json (.stats (app.statsOf recent)))

def conferenceStatus : Reply :=
  asUser app session fun _ => (app, .json (.rooms app.conference))

def getConfig : Reply :=
  asSysop app session fun _ => (app, .json (.config app.config.node))

/-- The assignment of `_ALLOWED` fields. -/
def setField (node : NodeConfig) (name value : Text) : NodeConfig :=
  if name = "motd" then { node with motd := value }
  else if name = "welcome_title" then { node with welcomeTitle := value }
  else if name = "welcome_body" then { node with welcomeBody := value }
  else if name = "login_tip" then { node with loginTip := value }
  else if name = "owner_name" then { node with ownerName := value }
  else if name = "qth" then { node with qth := value }
  else if name = "node_locator" then { node with nodeLocator := value }
  else if name = "branding_name" then { node with brandingName := value }
  else node

def setConfig : Reply :=
  asSysop app session fun _ =>
    withFields python app req "Bad request" false fun fields =>
      let node := fields.foldl (fun node (name, value) => setField node name (python.str value))
        app.config.node
      ({ app with config := { app.config with node } }, .json (.ok true))

end Handlers

/-- What is left of a path between two texts, if there is something and all of it is of
one kind of characters. -/
def pathArgument (front back : Text) (kind : Char → Bool) (path : Text) : Option Text :=
  if front.isPrefixOf path then
    let argument := (path.drop front.length).takeWhile kind
    if argument ≠ [] ∧ path = front ++ argument ++ back then some argument else none
  else none

/-- The endpoints behind the session. -/
inductive Endpoint where
  | listMessages
  | sendMessage
  | readMessage (id : Nat)
  | editMessage (id : Nat)
  | killMessage (id : Nat)
  | holdRelease (id : Nat) (action : Text)
  | listUsers
  | createUser
  | getUser (call : Text)
  | deleteUser (call : Text)
  | setPrivilege (call : Text)
  | resetPassword (call : Text)
  | listNeighbors
  | addNeighbor
  | updateNeighbor (call : Text)
  | deleteNeighbor (call : Text)
  | connectNeighbor (call : Text)
  | wpLookup
  | stats
  | getConfig
  | setConfig
  | conferenceStatus
  | overlong
  | unknown
  deriving DecidableEq

namespace Endpoint

def isCallChar (c : Char) : Bool := Auth.isUpper c ∨ c.isDigit ∨ c = '-'

def isNeighborChar (c : Char) : Bool := c.isAlphanum ∨ c = '-'

/-- An endpoint with the number of a message in its path; `int` raises on one that is too
long. -/
def ofNumber (digits : Text) (endpoint : Nat → Option Endpoint) : Option Endpoint :=
  match python.int digits with
  | none => some overlong
  | some id => endpoint id.toNat

def ofMessage (m p : Text) : Option Endpoint :=
  (pathArgument "/api/messages/" "" python.isDecimal p).bind fun digits =>
    ofNumber python digits fun id =>
      if m = "GET" then some (readMessage id)
      else if m = "PUT" then some (editMessage id)
      else if m = "DELETE" then some (killMessage id)
      else none

def ofHold (m p action : Text) : Option Endpoint :=
  (pathArgument "/api/messages/" ('/' :: action) python.isDecimal p).bind fun digits =>
    if m = "POST" then ofNumber python digits fun id => some (holdRelease id action) else none

def ofUser (m p : Text) : Option Endpoint :=
  (pathArgument "/api/users/" "" isCallChar p).bind fun call =>
    if m = "GET" then some (getUser call)
    else if m = "DELETE" then some (deleteUser call)
    else none

def ofNeighbor (m p : Text) : Option Endpoint :=
  (pathArgument "/api/neighbors/" "" isNeighborChar p).bind fun call =>
    if m = "PUT" then some (updateNeighbor (Text.upper call))
    else if m = "DELETE" then some (deleteNeighbor (Text.upper call))
    else none

/-- An endpoint for one method, with an argument in its path. -/
def ofPath (m p method front back : Text) (kind : Char → Bool) (endpoint : Text → Endpoint) :
    Option Endpoint :=
  (pathArgument front back kind p).bind fun argument =>
    if m = method then some (endpoint argument) else none

/-- An endpoint for one method and one path. -/
def fixed (m p method path : Text) (endpoint : Endpoint) : Option Endpoint :=
  if m = method ∧ p = path then some endpoint else none

/-- The tests of `handle_request` behind the session, in their order. -/
def ofRequest (m p : Text) : Endpoint :=
  (fixed m p "GET" "/api/messages" listMessages <|>
    fixed m p "POST" "/api/messages" sendMessage <|>
    ofMessage python m p <|>
    ofHold python m p "hold" <|>
    ofHold python m p "release" <|>
    fixed m p "GET" "/api/users" listUsers <|>
    fixed m p "POST" "/api/users" createUser <|>
    ofUser m p <|>
    ofPath m p "POST" "/api/users/" "/privilege" isCallChar setPrivilege <|>
    ofPath m p "POST" "/api/users/" "/password" isCallChar resetPassword <|>
    fixed m p "GET" "/api/neighbors" listNeighbors <|>
    fixed m p "POST" "/api/neighbors" addNeighbor <|>
    ofNeighbor m p <|>
    ofPath m p "POST" "/api/neighbors/" "/connect" isNeighborChar
      (fun call => connectNeighbor (Text.upper call)) <|>
    fixed m p "GET" "/api/wp" wpLookup <|>
    fixed m p "GET" "/api/stats" stats <|>
    fixed m p "GET" "/api/config" getConfig <|>
    fixed m p "POST" "/api/config" setConfig <|>
    fixed m p "GET" "/api/conference" conferenceStatus).getD unknown

end Endpoint

/-- `req.path.rstrip("/") or "/"` -/
def routed (req : HTTPRequest) : Text :=
  let path := (req.path.reverse.dropWhile (· = '/')).reverse
  if path = [] then "/" else path

inductive Route where
  | login
  | logout
  | health
  | static (file : Text)
  | endpoint (endpoint : Endpoint)
  deriving DecidableEq

/-- The tests of `handle_request` in their order. -/
def Route.ofRequest (req : HTTPRequest) : Route :=
  let p := routed req
  let m := req.method
  if m = "POST" ∧ p = "/api/auth/login" then login
  else if m = "POST" ∧ p = "/api/auth/logout" then logout
  else if m = "GET" ∧ p = "/api/health" then health
  else if m = "GET" ∧ (p = "/" ∨ p = "") then static "index.html"
  else if m = "GET" ∧ (p = "/sysop" ∨ p = "/sysop/") then static "sysop.html"
  else endpoint (Endpoint.ofRequest python m p)

section Dispatch

variable (app : WebApp) (req : HTTPRequest)

def serve (session : Option WebSession) : Endpoint → Reply
  | .listMessages => listMessages python app req session
  | .sendMessage => sendMessage python world app req session
  | .readMessage id => readMessage world app session id
  | .editMessage id => editMessage python world app req session id
  | .killMessage id => killMessage app session id
  | .holdRelease id action => holdRelease app session id action
  | .listUsers => listUsers python app req session
  | .createUser => createUser python pbkdf2 world app req session
  | .getUser call => getUser app session call
  | .deleteUser call => deleteUser app session call
  | .setPrivilege call => setPrivilege python app req session call
  | .resetPassword call => resetPassword python pbkdf2 world app req session call
  | .listNeighbors => listNeighbors app session
  | .addNeighbor => addNeighbor python app req session
  | .updateNeighbor call => updateNeighbor python app req session call
  | .deleteNeighbor call => deleteNeighbor app session call
  | .connectNeighbor call => connectNeighbor app session call
  | .wpLookup => wpLookup python app req session
  | .stats => stats app session
  | .getConfig => getConfig app session
  | .setConfig => setConfig python app req session
  | .conferenceStatus => conferenceStatus app session
  | .overlong => (app, .raised)
  | .unknown => (app, .none)

/-- The session that `handle_request` resolves. -/
def resolved : Option WebSession := (app.sessions.getFromRequest req world.time).2

def handleRequest : Reply :=
  match Route.ofRequest python req with
  | .login => login python pbkdf2 world app req
  | .logout => logout app req
  | .health => health app
  | .static file => static world app file
  | .endpoint endpoint =>
      let sessions := (app.sessions.getFromRequest req world.time).1
      serve python pbkdf2 world { app with sessions } req (resolved world app req) endpoint

end Dispatch

end WebApp

end PyBulletin.Web
