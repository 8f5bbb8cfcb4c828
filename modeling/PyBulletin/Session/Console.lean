import PyBulletin.Foundation.Stateful
import PyBulletin.Store.Bid
import PyBulletin.Web.Protocol

set_option autoImplicit false

namespace PyBulletin.Session

open PyBulletin.Foundation
open PyBulletin.Store

structure FileEntry where
  filename : Text
  area : Text
  description : Text
  owner : Text
  size : Nat
  createdAt : DateTime
  downloads : Nat

/-- A value that is put into a string of the catalogue. -/
inductive Field where
  | text (value : Text)
  | number (value : Int)

inductive Output where
  | text (value : Text)
  | raw (data : Bytes)
  deriving DecidableEq

/-- The configuration, as far as terminals look at it. -/
structure Config extends Web.AppConfig where
  showStatusAfterLogin : Bool
  forwardEnabled : Bool

/-- A line of the heard list: the call, the port and the minutes since. -/
structure Heard where
  call : Text
  port : Nat
  minutes : Nat

/-- What a conference makes of the lines that are left: how it ends, what it sends and
which lines it leaves. -/
abbrev Conference := Nat → Text → Text → List Text → Outcome Unit × List Output × List Text

/-- What surrounds a session.  The clock and the other functions of a number are asked with
the number of questions before; `none` from the catalogue is an exception.  The readers
differ at the end of the connection: `TelnetReader` returns empty lines for ever,
`AX25Reader` waits. -/
structure Node where
  config : Config
  strings : Text → List (Text × Field) → Option Text
  pbkdf2 : Auth.Kdf
  clock : Nat → DateTime
  salt : Nat → Bytes
  version : Text
  peer : Text
  channel : Text
  telnet : Bool
  heard : Option (Nat → List Heard)
  conference : Option Conference
  sendFile : Nat → Bytes → Text → List Text → Option Bool × List Output × List Text
  receiveFile : Nat → List Text → Option (Option Bytes) × List Output × List Text
  writable : Text → Bool
  runOutgoing : Nat → Web.ForwardNeighborConfig → Database → Database × Except Text (Nat × Nat)

structure Console where
  database : Database
  prefs : Text → Text → Option Text
  startup : Text → List Text
  files : List FileEntry
  disk : Text → Text → Option Bytes
  user : Option User
  unread : List Text
  sent : List Output
  asked : Nat

namespace Console

variable (console : Console)

def withMail (mail : BBSStore) : Console :=
  { console with database := { console.database with mail } }

def withUsers (users : UserDirectory) : Console :=
  { console with database := { console.database with users } }

def withWp (wpEntries : List WPEntry) : Console :=
  { console with database := { console.database with wpEntries } }

end Console

/-- What a session does. -/
abbrev Talk (α : Type) := Stateful Console α

variable (node : Node)

def send (text : Text) : Talk Unit :=
  Stateful.modify fun console => { console with sent := console.sent ++ [.text text] }

def sendRaw (data : Bytes) : Talk Unit :=
  Stateful.modify fun console => { console with sent := console.sent ++ [.raw data] }

def readline : Talk Text where
  run _ console :=
    match console.unread with
    | line :: unread => (.returned line, { console with unread })
    | [] => (if node.telnet then .returned [] else .pending, console)
  settled _ _ := rfl

/-- `IAC WILL ECHO` and `IAC WONT ECHO` -/
def hideEcho : Bytes := [255, 251, 1]
def showEcho : Bytes := [255, 252, 1]

/-- `_readline_hidden`; `AX25Writer.send_raw` sends nothing. -/
def readlineHidden : Talk Text := do
  if node.telnet then sendRaw hideEcho
  let line ← readline node
  if node.telnet then sendRaw showEcho
  send "\r\n"
  return line

/-- `strings.get(key, **fields)` -/
def string (key : Text) (fields : List (Text × Field)) : Talk Text :=
  (node.strings key fields).elim Stateful.raise pure

/-- `send(strings.get(key, **fields))` -/
def say (key : Text) (fields : List (Text × Field)) : Talk Unit := do
  send (← string node key fields)

/-- The user of the session; before the login it raises `AttributeError`. -/
def me : Talk User := do
  let user ← Stateful.get Console.user
  user.elim Stateful.raise pure

/-- The next answer of a function that is asked again and again. -/
def ask {α : Type} (answer : Nat → α) : Talk α := do
  let asked ← Stateful.get Console.asked
  Stateful.modify fun console => { console with asked := asked + 1 }
  return answer asked

def now : Talk DateTime := ask node.clock

/-- `_CTRL_Z` and the other lines that end a text. -/
def endsText (line : Text) : Bool :=
  Text.strip line ∈ (["/EX", "/ex", "\x1a", "***"] : List Text)

/-- The lines of `send_paged` behind `count` visible ones that wait in `page`. -/
def sendPages (length : Int) : List Text → List Text → Nat → Talk Unit
  | [], page, _ => if page = [] then pure () else send (['\n'].intercalate page)
  | line :: lines, page, count => do
      let count := if Text.strip line = [] then count else count + 1
      if length ≤ count then do
        send (['\n'].intercalate (page ++ [line]))
        say node "connect.page_break" []
        let answer ← readline node
        if Text.upper (Text.strip answer) = "A" then say node "error.aborted" []
        else sendPages length lines [] 0
      else sendPages length lines (page ++ [line]) count

def sendPaged (text : Text) : Talk Unit := do
  let user ← Stateful.get Console.user
  let length := (user.map User.pageLength).getD 24
  if length ≤ 0 then send text
  else sendPages node length (text.splitOn '\n') [] 0

/-- An operation that raises unless its arguments fit, as a number that SQLite cannot hold
raises `OverflowError`. -/
def guarded {α : Type} (fits : Prop) [Decidable fits] (x : Talk α) : Talk α :=
  if fits then x else Stateful.raise

def getMessage (id : Int) : Talk (Option Row) :=
  guarded (fitsColumn id) (Stateful.get fun console =>
    if 0 ≤ id then console.database.mail.getMessage id.toNat else none)

def listMessages (query : MessageQuery) : Talk (List Row) := do
  let listed ← Stateful.get fun console => console.database.mail.listMessages query
  listed.elim Stateful.raise pure

/-- The arguments of `count_messages`, which takes an empty text as no argument. -/
structure CountQuery where
  toCall : Text := ""
  msgType : Text := ""
  status : Text := ""

def CountQuery.selects (query : CountQuery) (row : Row) : Bool :=
  (query.toCall = [] ∨ row.toCall = Text.upper query.toCall) ∧
    (query.msgType = [] ∨ row.msgType = query.msgType) ∧
    (if query.status = [] then row.status ≠ statusKilled else row.status = query.status)

def countMessages (query : CountQuery) : Talk Nat :=
  Stateful.get fun console => (console.database.mail.messages.filter query.selects).length

/-- An UPDATE of one message. -/
def updateMail (id : Int) (change : BBSStore → Nat → BBSStore) : Talk Unit :=
  guarded (fitsColumn id) (Stateful.modify fun console =>
    if 0 ≤ id then console.withMail (change console.database.mail id.toNat) else console)

/-- `insert_message` of a message without a number and a BID. -/
def insertMessage (msg : Message) : Talk Nat := do
  let date ← now node
  let bid ← Stateful.reading fun console =>
    console.database.mail.generateBid date (if msg.fromCall = [] then "BBS" else msg.fromCall)
  let inserted ← Stateful.get fun console =>
    console.database.mail.insertMessage { msg with bid } statusNew
  Stateful.modify fun console => console.withMail inserted.1
  inserted.2.elim Stateful.raise pure

def getUser (call : Text) : Talk (Option User) :=
  Stateful.get fun console => console.database.users.getUser call

/-- `upsert_user` -/
def upsertUser (user : User) : Talk Unit :=
  if fits : storable user then
    Stateful.modify fun console => console.withUsers (console.database.users.upsertUser user fits)
  else Stateful.raise

/-- A change to the record that the session holds, and to its row. -/
def saveUser (user : User) : Talk Unit := do
  Stateful.modify fun console => { console with user := some user }
  upsertUser user

def getWpEntry (call : Text) : Talk (Option WPEntry) :=
  Stateful.get fun console => console.database.getWpEntry call

/-- `upsert_wp_entry` -/
def upsertWpEntry (entry : WPEntry) : Talk Unit :=
  Stateful.modify fun console =>
    let others := console.database.wpEntries.filter fun row => row.call ≠ Text.upper entry.call
    console.withWp (others ++ [{ entry with call := Text.upper entry.call }])

/-! A property that no output changes is kept by all that only sends, and every property by what only
looks at the state. -/

section Keeping

open PyBulletin.Foundation.Stateful

variable {P : Console → Prop} {node : Node}

instance (key : Text) (fields : List (Text × Field)) : Keeps P (string node key fields) := by
  unfold string
  infer_instance

instance (key : Text) (fields : List (Text × Field)) [∀ text, Keeps P (send text)] :
    Keeps P (say node key fields) := by
  unfold say
  infer_instance

instance : Keeps P me := by
  unfold me
  infer_instance

instance {α : Type} {fits : Prop} [Decidable fits] {x : Talk α} [Keeps P x] : Keeps P (guarded fits x) := by
  unfold guarded
  infer_instance

instance (number : Int) : Keeps P (getMessage number) := by
  unfold getMessage
  infer_instance

instance (query : MessageQuery) : Keeps P (listMessages query) := by
  unfold listMessages
  infer_instance

instance (query : CountQuery) : Keeps P (countMessages query) := by
  unfold countMessages
  infer_instance

instance (call : Text) : Keeps P (getUser call) := by
  unfold getUser
  infer_instance

instance (call : Text) : Keeps P (getWpEntry call) := by
  unfold getWpEntry
  infer_instance

end Keeping

end PyBulletin.Session
