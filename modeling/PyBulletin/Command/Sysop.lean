import PyBulletin.Command.Mailing
import PyBulletin.Command.Station

set_option autoImplicit false

namespace PyBulletin.Command.Engine

open PyBulletin.Foundation
open PyBulletin.Store
open PyBulletin.Session

variable (node : Node)

/-- What `KK` makes of its argument: a query, a BBS, or a line that explains it. -/
inductive Bulk where
  | query (query : MessageQuery)
  | bbs (call : Text)
  | refused (usage : Text)

/-- `K>`, `K<` and `K@` with the call that follows. -/
def Bulk.naming (call usage : Text) (bulk : Text → Bulk) : Bulk :=
  if Text.strip call = [] then .refused usage else bulk (Text.strip call)

def Bulk.ofArgument (arg : Text) : Bulk :=
  match arg with
  | '>' :: call => naming call "\r\n  Usage: K> <callsign>\r\n" fun call =>
      .query { fromCall := some call }
  | '<' :: call => naming call "\r\n  Usage: K< <callsign>\r\n" fun call => .query { toCall := some call }
  | '@' :: call => naming call "\r\n  Usage: K@ <bbs>\r\n" bbs
  | ['F'] => .query { status := some statusForwarded }
  | ['T'] => .query { msgType := some msgNts }
  | ['B'] => .query { msgType := some msgBulletin }
  | ['P'] => .query { msgType := some msgPrivate }
  | [] => .refused "\r\n  Usage: KK <T|B|P|F>  or  K> <call>  K< <call>  K@ <bbs>\r\n"
  | _ => .refused "\r\n  Unknown KK option. Use: T B P F or K>/K</K@\r\n"

def killAll (msgs : List Row) : Talk Unit :=
  if msgs.isEmpty then send "\r\n  No messages match.\r\n"
  else do
    let live := msgs.filter fun msg => msg.status ≠ statusKilled
    live.forM fun msg => updateMail msg.id BBSStore.killMessage
    sendAll ["\r\n  ", decimal live.length, " message(s) killed.\r\n"]

def cmdKillBulk (args : Text) : Talk Unit :=
  ifSysop node
    (match Bulk.ofArgument (Text.upper (Text.strip args)) with
    | .refused usage => send usage
    | .query query => do killAll (← listMessages query)
    | .bbs call => do
        let msgs ← listMessages {}
        killAll (msgs.filter fun msg => Text.upper msg.atBbs = call))

/-- The lines up to the one that ends the text, or `none` after `/AB`. -/
def readBody : Talk (Option (List Text)) :=
  Stateful.loop (fun lines => do
    let line ← readline node
    if Text.strip line ∈ (["/AB", "/ab"] : List Text) then return .inr none
    else if endsText line then return .inr (some lines)
    else return .inl (lines ++ [line])) []

/-- A message that may be edited, in the hands of a sysop. -/
def withEditable (usage args : Text) (serve : Int → Row → Talk Unit) : Talk Unit :=
  ifSysop node (withFirst node usage args fun id msg =>
    if msg.status = statusKilled then say node "read.killed" [("id", .number id)] else serve id msg)

/-- The new body is read and written. -/
def rewriteBody (id : Int) (msg : Row) (subject done : Text) : Talk Unit := do
  (← readBody node).elim (say node "error.aborted" []) fun lines => do
    let body := if lines = [] then msg.body else Text.strip (['\n'].intercalate lines)
    let user ← me
    let date ← now node
    updateMail id fun mail id => mail.updateMessage id subject body user.call date
    sendAll ["\r\n  Message ", decimal id, done]

def cmdEditTerminal (args : Text) : Talk Unit :=
  withEditable node "\r\n  Usage: ED <msg#>\r\n" args fun id msg => do
    sendAll ["\r\n  Editing message ", decimal id, "\r\n", "  Current subject: ", msg.subject, "\r\n",
      "  New subject (blank to keep): "]
    let typed := Text.strip (← readline node)
    sendAll ["\r\n  Current body (", decimal msg.size, " bytes) follows.\r\n",
      "  Enter new body, /EX to finish, /AB to abort:\r\n\r\n"]
    sendAll [withReturns msg.body, "\r\n"]
    send "\r\n  --- Enter new body (blank line = keep current) ---\r\n"
    rewriteBody node id msg (filled typed msg.subject) " updated.\r\n"

def cmdEditBody (args : Text) : Talk Unit :=
  withEditable node "\r\n  Usage: EM <msg#>\r\n" args fun id msg => do
    sendAll ["\r\n  Editing body of message ", decimal id, "\r\n", "  Current body (",
      decimal msg.size, " bytes) follows:\r\n\r\n"]
    sendAll [withReturns msg.body, "\r\n"]
    send "\r\n  --- Enter new body, /EX to finish, /AB to abort ---\r\n"
    rewriteBody node id msg msg.subject " body updated.\r\n"

/-- A command with a number, which names a message, and a rest. -/
def withNumbered (usage args : Text) (serve : Int → Text → Talk Unit) : Talk Unit :=
  ifSysop node ((numberAnd args).elim (send usage) fun (id, rest) => do
    if (← getMessage id).isNone then say node "read.not_found" [("id", .number id)]
    else serve id rest)

def cmdMove (args : Text) : Talk Unit :=
  withNumbered node "\r\n  Usage: MOVE <msg#> <callsign[@bbs]>\r\n" args fun id rest => do
    let (toCall, atBbs) := destination rest
    updateMail id fun mail id => mail.moveMessage id toCall atBbs
    sendAll ["\r\n  Message ", decimal id, " moved to ", toCall, if atBbs = [] then [] else '@' :: atBbs,
      ".\r\n"]

def cmdForwardDrop (args : Text) : Talk Unit :=
  withNumbered node "\r\n  Usage: FD <msg#> <bbs>\r\n" args fun id rest => do
    let bbs := Text.upper (Text.strip rest)
    updateMail id fun mail id => mail.appendForwardPath id bbs
    sendAll ["\r\n  Msg ", decimal id, " marked as already forwarded to ", bbs, ".\r\n"]

/-- `SH` and `SR` -/
def changeStatus (usage args : Text) (change : BBSStore → Nat → BBSStore) (done missing : Text) :
    Talk Unit :=
  ifSysop node (withIds usage args fun ids => ids.forM fun id => do
    let found ← getMessage id
    updateMail id change
    sendAll ["\r\n  Message ", decimal id, if found.isSome then done else missing])

def cmdSysopHold (args : Text) : Talk Unit :=
  changeStatus node "\r\n  Usage: SH <msg#> [msg# ...]\r\n" args BBSStore.holdMessage " held.\r\n"
    " not found.\r\n"

def cmdSysopRelease (args : Text) : Talk Unit :=
  changeStatus node "\r\n  Usage: SR <msg#> [msg# ...]\r\n" args BBSStore.releaseMessage " released.\r\n"
    " not found or not held.\r\n"

def runForward (neighbor : Web.ForwardNeighborConfig) : Talk (Nat × Nat) := do
  sendAll ["\r\n  Forwarding to ", neighbor.call, " ...\r\n"]
  let outgoing ← ask node.runOutgoing
  let (database, result) ← Stateful.get fun console => outgoing neighbor console.database
  Stateful.modify fun console => { console with database }
  match result with
  | .ok (sent, received) => do
      sendAll ["  ", neighbor.call, ": sent ", decimal sent, ", received ", decimal received, "\r\n"]
      return (sent, received)
  | .error reason => do
      sendAll ["  ", neighbor.call, ": failed — ", reason, "\r\n"]
      return (0, 0)

def cmdForward (args : Text) : Talk Unit :=
  ifSysop node
    (if node.config.forwardEnabled = false ∨ node.config.neighbors.isEmpty then
      send "\r\n  Forwarding is not configured on this node.\r\n"
    else
      let target := Text.upper (Text.strip args)
      let neighbors := node.config.neighbors.filter fun neighbor =>
        neighbor.enabled ∧ (target = [] ∨ Text.upper neighbor.call = target)
      if neighbors.isEmpty then
        if target = [] then send "\r\n  No enabled neighbors configured.\r\n"
        else sendAll ["\r\n  No enabled neighbor: ", target, "\r\n"]
      else do
        let (sent, received) ← neighbors.foldlM (fun (sent, received) neighbor => do
          let (out, in_) ← runForward node neighbor
          return (sent + out, received + in_)) (0, 0)
        sendAll ["\r\n  Forward complete: ", decimal sent, " sent, ", decimal received, " received.\r\n"])

/-- The messages that `FL` lists. -/
def pendingForward (filter : Text) (bulletins privates : List Row) : List Row :=
  let nodeCall := (Text.upper node.config.node.nodeCall).takeWhile (· ≠ '-')
  let remote := privates.filter fun msg => msg.atBbs ≠ [] ∧ Text.upper msg.atBbs ≠ nodeCall
  (bulletins ++ remote).filter fun msg => filter = [] ∨ Text.upper msg.atBbs = filter

def cmdForwardList (args : Text) : Talk Unit :=
  ifSysop node do
    let filter := Text.upper (Text.strip args)
    let bulletins ← listMessages { status := some statusNew, msgType := some msgBulletin }
    let privates ← listMessages { status := some statusNew, msgType := some msgPrivate }
    let pending := pendingForward node filter bulletins privates
    if pending.isEmpty then
      sendAll ["\r\n  No messages pending forward", if filter = [] then [] else joined [" to ", filter],
        ".\r\n"]
    else
      let rows := pending.map fun msg =>
        joined ["  ", rightIn 5 (decimal msg.id), "  ", msg.msgType, msg.status, "  ",
          leftIn 12 (msg.toCall.take 12), " ", leftIn 10 (msg.atBbs.take 10), " ",
          leftIn 10 (msg.fromCall.take 10), "  ", msg.subject.take 30, "\r\n"]
      sendPaged node (joined [table ["\r\n  ", rightIn 5 "#", "  TS  ", leftIn 12 "To", " ",
        leftIn 10 "At BBS", " ", leftIn 10 "From", "  Subject\r\n"] 65 rows,
        "\r\n  ", decimal pending.length, " message(s) pending.\r\n"])

def cmdForwardPath (args : Text) : Talk Unit :=
  ifSysop node (withFirst node "\r\n  Usage: FN <msg#>\r\n" args fun _ msg =>
    sendAll ["\r\n  Msg ", decimal msg.id, ": ", msg.toCall, atRoute msg, "  [", msg.status, "]\r\n",
      "  Forward path: ",
      filled ((" → " : Text).intercalate (Text.words msg.forwardPath)) "(none)", "\r\n"])

def lastLogin (shown : DateTime → Text) (user : User) : Text := dateOr "never" shown user.lastLoginAt

def cmdUsers (args : Text) : Talk Unit :=
  ifSysop node do
    let search := Text.strip args
    let users ← listUsers (if search = [] then none else some search) none 100
    if users.isEmpty then send "\r\n  No users found.\r\n"
    else
      let rows := users.map fun user =>
        joined ["  ", leftIn 10 user.call, " ", leftIn 6 user.privilege, " ",
          leftIn 20 (user.displayName.take 20), " ", lastLogin toMinute user, "\r\n"]
      sendPaged node (joined [table ["\r\n  ", leftIn 10 "Call", " ", leftIn 6 "Priv", " ",
        leftIn 20 "Name", " ", leftIn 20 "Last login", "\r\n"] 60 rows,
        "\r\n  ", decimal users.length, " user(s).\r\n"])

/-- The user that a command names. -/
def withUser (usage args : Text) (serve : User → Talk Unit) : Talk Unit :=
  ifSysop node
    (let call := Text.upper (Text.strip args)
    if call = [] then send usage
    else do
      (← getUser call).elim (sendAll ["\r\n  User ", call, " not found.\r\n"]) serve)

def cmdUserDetail (args : Text) : Talk Unit :=
  withUser node "\r\n  Usage: DU <callsign>\r\n" args fun user => do
    let call := Text.upper (Text.strip args)
    let msgs ← countMessages { toCall := call }
    let new ← countMessages { toCall := call, status := statusNew }
    sendAll [labelled "\r\n  Callsign  : " user.call,
      labelled "  Name      : " (filled user.displayName "(not set)"),
      labelled "  Privilege : " (filled user.privilege "user"),
      labelled "  Home BBS  : " (filled user.homeBbs "(not set)"),
      labelled "  Locator   : " (filled user.locator "(not set)"),
      labelled "  City/QTH  : " (filled user.city "(not set)"),
      labelled "  ZIP       : " (filled user.zipCode "(not set)"),
      labelled "  Language  : " (filled user.language "en"),
      labelled "  Expert    : " (if user.expertMode then "on" else "off"),
      labelled "  Msg base  : " (decimal user.msgBase),
      labelled "  Last login: " (lastLogin toMinuteUtc user),
      "  Messages  : ", decimal msgs, " total, ", decimal new, " new\r\n"]

def cmdSysopList : Talk Unit :=
  ifSysop node do
    let users ← listUsers none (some privSysop) (-1)
    if users.isEmpty then send "\r\n  No sysop users found.\r\n"
    else
      let rows := users.map fun user =>
        joined ["  ", leftIn 12 user.call, " ", leftIn 24 (user.displayName.take 24), "  ",
          lastLogin toMinute user, "\r\n"]
      sendAll [table ["\r\n  ", leftIn 12 "Call", " ", leftIn 24 "Name", "  Last login\r\n"] 55 rows,
        "\r\n  ", decimal users.length, " sysop(s).\r\n"]

/-- `_prompt` -/
def promptFor (label current : Text) : Talk Text := do
  sendAll ["  ", label, " [", filled current "(none)", "]: "]
  return filled (Text.strip (← readline node)) current

def lower (text : Text) : Text := text.map Char.toLower

/-- The privilege that `EU` sets. -/
def chosenPrivilege (typed current : Text) : Text :=
  if typed = privUser ∨ typed = privSysop then typed else current

def cmdUserEdit (args : Text) : Talk Unit :=
  withUser node "\r\n  Usage: EU <callsign>\r\n" args fun user => do
    sendAll ["\r\n  Editing user ", user.call, "  (blank = keep current)\r\n\r\n"]
    let displayName ← promptFor node "Name     " user.displayName
    let homeBbs ← promptFor node "Home BBS " user.homeBbs
    let locator ← promptFor node "Locator  " user.locator
    let city ← promptFor node "City/QTH " user.city
    let zipCode ← promptFor node "ZIP      " user.zipCode
    let language ← promptFor node "Language " (filled user.language "en")
    sendAll ["  Privilege [", filled user.privilege "user", "] (user/sysop/blank): "]
    let typed := lower (Text.strip (← readline node))
    upsertUser { user with
      displayName
      homeBbs := Text.upper homeBbs
      locator := Text.upper locator
      city
      zipCode
      language := lower language
      privilege := chosenPrivilege typed user.privilege }
    sendAll ["\r\n  User ", user.call, " updated.\r\n"]

def cmdWpEdit (args : Text) : Talk Unit :=
  ifSysop node
    (let call := Text.upper (Text.strip args)
    if call = [] then send "\r\n  Usage: IE <callsign>\r\n"
    else do
      let entry ← getWpEntry call
      sendAll ["\r\n  Editing WP record for ", call, "  (blank = keep current)\r\n\r\n"]
      let name ← promptFor node "Name     " ((entry.map WPEntry.name).getD [])
      let homeBbs ← promptFor node "Home BBS " ((entry.map WPEntry.homeBbs).getD [])
      editWp node call fun entry =>
        { entry with name, homeBbs := Text.upper homeBbs, sourceBbs := node.config.node.nodeCall }
      sendAll ["\r\n  WP record for ", call, " updated.\r\n"])

end PyBulletin.Command.Engine
