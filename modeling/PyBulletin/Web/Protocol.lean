import PyBulletin.Auth
import PyBulletin.Forward.Session
import PyBulletin.Store.Query
import PyBulletin.Web.Sessions
import PyBulletin.Web.Users

set_option autoImplicit false

namespace PyBulletin.Web

open PyBulletin.Foundation
open PyBulletin.Store

inductive Json where
  | null
  | bool (value : Bool)
  | number (literal : Text)
  | string (value : Text)
  | array (items : List Json)
  | object (fields : List (Text × Json))

/-- A value, a `JSONDecodeError` or another exception. -/
inductive Loaded where
  | value (json : Json)
  | invalid
  | raised

/-- Functions of Python's library: `json.loads`, `urllib.parse.parse_qsl`, the digits of
the pattern `\d`, `int` and `upper` of a text, and `repr` and `bool` of a JSON value.  No
letter from `a` to `z` is left by `upper`, so that the store finds nothing more to change. -/
structure Library where
  loads : Bytes → Loaded
  parseQsl : Text → List (Text × Text)
  isDecimal : Char → Bool
  int : Text → Option Int
  upper : Text → Text
  capital : ∀ text, Text.upper (upper text) = upper text
  repr : Json → Text
  isTrue : Json → Bool

structure ForwardNeighborConfig extends Forward.Neighbor where
  protocol : Text := "b2"

/-- The fields of `NodeConfig` that are shown, set or checked by web. -/
structure NodeConfig where
  nodeCall : Text
  nodeAlias : Text
  ownerName : Text
  qth : Text
  nodeLocator : Text
  motd : Text
  brandingName : Text
  welcomeTitle : Text
  welcomeBody : Text
  loginTip : Text
  requirePassword : Bool

structure AppConfig where
  node : NodeConfig
  neighbors : List ForwardNeighborConfig
  maxMessageBodyBytes : Int

/-- What a request meets: the clocks, what it draws at random, the BID that `generate_bid`
finds, and the files. -/
structure World where
  time : Rat
  now : DateTime
  token : Text
  salt : Bytes
  bid : Text
  static : Text → Option Bytes

/-- `_msg_summary` -/
structure MessageSummary where
  id : Nat
  bid : Text
  msgType : Text
  status : Text
  fromCall : Text
  toCall : Text
  atBbs : Text
  subject : Text
  size : Nat
  createdAt : Option DateTime

/-- `_msg_detail` -/
structure MessageDetail extends MessageSummary where
  body : Text
  forwardPath : Text
  readBy : Text
  readAt : Option DateTime
  expiresAt : Option DateTime
  editedBy : Text
  editedAt : Option DateTime

/-- `_user_summary` -/
structure UserSummary where
  call : Text
  displayName : Text
  privilege : Text
  homeBbs : Text
  lastSeen : DateTime
  lastLoginAt : Option DateTime
  lastLoginPeer : Text

/-- `_user_detail` -/
structure UserDetail extends UserSummary where
  email : Text
  address : Text
  locator : Text
  city : Text
  zipCode : Text
  msgBase : Int
  pageLength : Int
  expertMode : Bool
  language : Text
  createdAt : DateTime

structure Stats where
  node : Text
  qth : Text
  total : Nat
  newPrivate : Nat
  newBulletin : Nat
  newNts : Nat
  users : Nat
  wpEntries : Nat
  recentMessages : List MessageSummary
  recentLogins : List (Text × Option DateTime × Text)
  neighbors : List (ForwardNeighborConfig × Option ForwardNeighbor)

inductive Payload where
  | error (text : Text)
  | content (data : Bytes)
  | ok (done : Bool)
  | login (session : WebSession)
  | health (node motd : Text)
  | messages (summaries : List MessageSummary)
  | message (detail : MessageDetail)
  | sent (id : Nat)
  | users (summaries : List UserSummary)
  | user (detail : UserDetail)
  | call (call : Text)
  | neighbors (records : List (ForwardNeighborConfig × Option ForwardNeighbor))
  | forwarded (sent received : Nat)
  | wpCount (count : Nat)
  | wpEntry (entry : WPEntry)
  | stats (stats : Stats)
  | rooms (rooms : Option (List (Text × List Text)))
  | config (node : NodeConfig)

structure HTTPResponse where
  status : Nat := 200
  data : Payload

/-- `none` is the answer "not found" that the server puts in, `raised` its answer "internal
error".  A handler that is `forwarding` has not answered: it awaits `run_outgoing`. -/
inductive Outcome where
  | response (response : HTTPResponse)
  | none
  | raised
  | forwarding (neighbor : ForwardNeighborConfig)

namespace Outcome

def json (data : Payload) : Outcome := response { data }

def forbidden : Outcome := response ⟨403, .error "Forbidden"⟩

def notFound (text : Text := "Not found") : Outcome := response ⟨404, .error text⟩

def badRequest (text : Text := "Bad request") : Outcome := response ⟨400, .error text⟩

def unauthorized : Outcome := response ⟨401, .error "Invalid credentials"⟩

def conflict (text : Text) : Outcome := response ⟨409, .error text⟩

end Outcome

def msgSummary (m : Row) : MessageSummary where
  id := m.id
  bid := m.bid
  msgType := m.msgType
  status := m.status
  fromCall := m.fromCall
  toCall := m.toCall
  atBbs := m.atBbs
  subject := m.subject
  size := m.size
  createdAt := m.createdAt

def msgDetail (m : Row) : MessageDetail where
  toMessageSummary := msgSummary m
  body := m.body
  forwardPath := m.forwardPath
  readBy := m.readBy
  readAt := m.readAt
  expiresAt := m.expiresAt
  editedBy := m.editedBy
  editedAt := m.editedAt

def userSummary (u : User) : UserSummary where
  call := u.call
  displayName := u.displayName
  privilege := u.privilege
  homeBbs := u.homeBbs
  lastSeen := u.lastSeen
  lastLoginAt := u.lastLoginAt
  lastLoginPeer := u.lastLoginPeer

def userDetail (u : User) : UserDetail where
  toUserSummary := userSummary u
  email := u.email
  address := u.address
  locator := u.locator
  city := u.city
  zipCode := u.zipCode
  msgBase := u.msgBase
  pageLength := u.pageLength
  expertMode := u.expertMode
  language := u.language
  createdAt := u.createdAt

structure WebApp where
  database : Database
  config : AppConfig
  conference : Option (List (Text × List Text))
  sessions : SessionStore

/-- The application after the request, and the answer. -/
abbrev Reply := WebApp × Outcome

namespace WebApp

def withMail (app : WebApp) (mail : BBSStore) : WebApp :=
  { app with database := { app.database with mail } }

def withUsers (app : WebApp) (users : UserDirectory) : WebApp :=
  { app with database := { app.database with users } }

def withNeighbors (app : WebApp) (neighbors : List ForwardNeighborConfig) : WebApp :=
  { app with config := { app.config with neighbors } }

end WebApp

namespace Library

variable (python : Library)

/-- `str(value)` -/
def str : Json → Text
  | .string value => value
  | json => python.repr json

/-- `str(body.get(name, default))` -/
def field (fields : List (Text × Json)) (name default : Text) : Text :=
  ((fields.lookup name).map python.str).getD default

/-- The body as a dictionary.  A body of another kind raises `AttributeError`, which some
handlers catch together with the `JSONDecodeError`. -/
def dictionary (req : HTTPRequest) (bad : Text) (catches : Bool) :
    Except Outcome (List (Text × Json)) :=
  match python.loads req.body with
  | .value (.object fields) => .ok fields
  | .value _ => .error (if catches then .badRequest bad else .raised)
  | .invalid => .error (.badRequest bad)
  | .raised => .error .raised

/-- `dict(parse_qsl(query)).get(name)` -/
def queryParam (req : HTTPRequest) (name : Text) : Option Text :=
  (python.parseQsl req.query).reverse.lookup name

theorem dictionary_error {python : Library} {req : HTTPRequest} {bad : Text} {catches : Bool}
    {outcome : Outcome}
    (failed : python.dictionary req bad catches = .error outcome) :
    outcome = .badRequest bad ∨ outcome = .raised := by
  rw [dictionary] at failed
  split at failed
  · cases failed
  · cases failed
    cases catches
    · exact .inr rfl
    · exact .inl rfl
  · cases failed
    exact .inl rfl
  · cases failed
    exact .inr rfl

end Library

/-- `body[name]` if `name in body`; an error is a `TypeError`. -/
def Json.get (name : Text) : Json → Except Unit (Option Json)
  | .object fields => .ok (fields.lookup name)
  | .array items =>
      if items.any fun | .string value => value = name | _ => false then .error () else .ok none
  | .string value => if name <:+: value then .error () else .ok none
  | _ => .error ()

/-- What `for x in value` runs over. -/
def Json.items : Json → Option (List Json)
  | .array items => some items
  | .string value => some (value.map fun c => .string [c])
  | .object fields => some (fields.map fun (name, _) => .string name)
  | _ => none

end PyBulletin.Web
