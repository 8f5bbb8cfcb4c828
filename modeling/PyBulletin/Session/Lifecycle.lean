import PyBulletin.Command.Engine
import PyBulletin.Session.Login

set_option autoImplicit false

namespace PyBulletin.Session

open PyBulletin.Foundation
open PyBulletin.Store
open PyBulletin.Command

variable (node : Node)

def sendBanner : Talk Unit := do
  say node "connect.banner"
    [("branding", .text node.config.node.brandingName), ("node_call", .text node.config.node.nodeCall)]
  if node.config.node.motd = [] then pure ()
  else say node "connect.motd" [("motd", .text node.config.node.motd)]
  say node "connect.login_tip" [("login_tip", .text node.config.node.loginTip)]

/-- `record_login` -/
def recordLogin (call : Text) : Talk Unit := do
  let date ← now node
  Stateful.modify fun console =>
    let user := console.database.users.loggedIn call node.peer date
    { console.withUsers (console.database.users.upsertUser user
        (console.database.users.loggedIn_storable call node.peer date)) with user := some user }

/-- What the password says: an answer to send, or the login. -/
def checkPassword (call : Text) : Talk Bool := do
  say node "auth.enter_password" []
  let password ← readlineHidden node
  let user ← getUser call
  let hash := (user.map User.passwordHash).getD []
  if hash = [] then do
    say node "auth.not_registered" []
    return false
  else (Auth.verifyPassword node.pbkdf2 password hash).elim Stateful.raise fun verified =>
    if verified then do
      recordLogin node call
      return true
    else do
      say node "auth.bad_password" []
      return false

/-- `_authenticate`, with the attempts that are left. -/
def authenticate : Nat → Talk Bool
  | 0 => do
      say node "auth.locked_out" []
      return false
  | left + 1 => do
      say node "auth.enter_call" []
      let call := Text.upper (Text.strip (← readline node))
      if call = [] then authenticate left
      else if call ∈ Login.leaves then return false
      else if Auth.isValidCall call = false then do
        say node "auth.bad_call" []
        authenticate left
      else if node.config.node.requirePassword then do
        if ← checkPassword node call then return true else authenticate left
      else do
        recordLogin node call
        return true

def postLogin : Talk Unit := do
  let user ← me
  let newMail ← countMessages { toCall := user.call, status := statusNew }
  say node "connect.session_info" [("call", .text user.call), ("new_mail", .number newMail)]
  if node.config.showStatusAfterLogin then do
    let total ← countMessages {}
    Engine.sendAll ["  Node   : ", node.config.node.nodeCall, "  (", node.config.node.qth, ")\r\n",
      "  Msgs   : ", Engine.decimal total, " total, ", Engine.decimal newMail, " new for you\r\n"]

def prompt : Talk Unit := do
  let user ← me
  let promptChar : Text := if user.privilege = privSysop then "#" else ">"
  if user.expertMode then
    say node "connect.prompt_expert"
      [("node_call", .text node.config.node.nodeCall), ("prompt_char", .text promptChar)]
  else do
    let new ← countMessages { toCall := user.call, status := statusNew }
    let suffix : Text := if new = 0 then [] else Engine.joined ["(", Engine.decimal new, ")"]
    say node "connect.prompt" [("node_call", .text node.config.node.nodeCall),
      ("prompt_char", .text promptChar), ("suffix", .text suffix)]

def goodbyes : List Text := ["B", "BYE", "Q", "QUIT", "G", "GB", "GE"]

def isGoodbye (line : Text) : Bool := (Text.splitWord line).any fun (word, _) => Text.upper word ∈ goodbyes

/-- What the loop makes of a line: it goes on, or it breaks. -/
def answerLine (line : Text) : Talk (Unit ⊕ Unit) :=
  if line = [] then return .inl ()
  else if isGoodbye line then return .inr ()
  else do
    (Engine.dispatch node line).rescue (say node "error.internal" [])
    return .inl ()

/-- One turn of `_command_loop`. -/
def turn : Talk (Unit ⊕ Unit) := do
  prompt node
  answerLine node (Text.strip (← readline node))

def commandLoop : Talk Unit := Stateful.loop (fun _ => turn node) ()

def getStartupCommands (call : Text) : Talk (List Text) :=
  Stateful.get fun console => console.startup (Text.upper call)

/-- `run`, behind the login. -/
def session : Talk Unit := do
  postLogin node
  let user ← me
  let startup ← getStartupCommands user.call
  startup.forM (Engine.dispatch node)
  commandLoop node
  say node "connect.goodbye" [("node_call", .text node.config.node.nodeCall)]

def run : Talk Unit := do
  sendBanner node
  if ← authenticate node Login.maxAuthAttempts then session node else pure ()

def bareNode : Node where
  config := {
    node := {
      nodeCall := "W1AW"
      nodeAlias := ""
      ownerName := ""
      qth := ""
      nodeLocator := ""
      motd := ""
      brandingName := ""
      welcomeTitle := ""
      welcomeBody := ""
      loginTip := ""
      requirePassword := false }
    neighbors := []
    maxMessageBodyBytes := 32768
    showStatusAfterLogin := false
    forwardEnabled := false }
  strings key _ := some key
  pbkdf2 _ _ _ _ := []
  clock _ := ⟨2026, 1, 1, 12, 0, 0⟩
  salt _ := []
  version := "1"
  peer := "10.0.0.1"
  channel := "telnet"
  telnet := true
  heard := none
  conference := none
  sendFile _ _ _ lines := (none, [], lines)
  receiveFile _ lines := (none, [], lines)
  writable _ := false
  runOutgoing _ _ database := (database, .ok (0, 0))

/-- The terminal of a user, in front of these messages and with these lines to come. -/
def terminal (mail : BBSStore) (user : User) (fits : storable user) (unread : List Text) : Console where
  database := {
    mail
    users := UserDirectory.empty.upsertUser user fits
    wpEntries := []
    neighbors := [] }
  prefs _ _ := none
  startup _ := []
  files := []
  disk _ _ := none
  user := some user
  unread
  sent := []
  asked := 0

end PyBulletin.Session
