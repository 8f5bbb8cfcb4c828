import PyBulletin.Command.Display
import PyBulletin.Command.Profile

set_option autoImplicit false

namespace PyBulletin.Command.Engine

open PyBulletin.Foundation
open PyBulletin.Store
open PyBulletin.Session

variable (node : Node)

def aliases (canonical : Text) (verbs : List Text) : List (Text × Text) :=
  verbs.map fun verb => (verb, canonical)

/-- `_HELP_ALIASES` -/
def helpAliases : List (Text × Text) :=
  aliases "R" ["RP", "RA"] ++
    aliases "L" ["LL", "LM", "LB", "LT", "LH", "LK", "LF", "LY", "LW", "LS", "LD", "LN", "LR"] ++
    aliases "S" ["SC"] ++ aliases "K" ["KM", "KK"] ++ aliases "SH" ["EM", "ED", "MV", "$"] ++
    aliases "Y" ["YG", "YU", "YL"] ++ aliases "N" ["NH", "NL", "NQ", "NZ", "NB"] ++
    aliases "I" ["P", "WS", "BB"] ++ aliases "IL" ["IL", "IE"] ++ aliases "W" ["ME"] ++
    aliases "V" ["DT", "NS"] ++ aliases "O" ["X"] ++ aliases "U" ["DU", "DS", "EU"] ++
    aliases "F" ["FL", "FN", "FD", "FS"]

def cmdHelp (args : Text) : Talk Unit :=
  let cmd := Text.upper (Text.strip args)
  if cmd = [] then say node "help.compact" []
  else if cmd = "?" then say node "help.short" []
  else do
    let key := joined ["help.cmd.", (helpAliases.lookup cmd).getD cmd]
    let text ← string node key []
    if text = key then sendAll ["\r\nNo detailed help for ", cmd, ".\r\n"] else send text

def cmdVersion : Talk Unit :=
  say node "info.version" [("branding", .text node.config.node.brandingName),
    ("version", .text node.version), ("node_call", .text node.config.node.nodeCall),
    ("qth", .text node.config.node.qth)]

/-- The first of the texts that is not empty. -/
def firstFilled (texts : List Text) : Text := (texts.find? (· ≠ [])).getD []

/-- What the user's own record and the white pages say about a call. -/
def wpDetails (call : Text) (entry : Option WPEntry) (user : Option User) (withZip : Bool) : Text :=
  let name := firstFilled [(user.map User.displayName).getD [], (entry.map WPEntry.name).getD []]
  let home := firstFilled [(user.map User.homeBbs).getD [], (entry.map WPEntry.homeBbs).getD []]
  let zipCode := if withZip then (user.map User.zipCode).getD [] else []
  let parts := [name, if home = [] then [] else '@' :: home, (user.map User.locator).getD [],
    (user.map User.city).getD [], zipCode]
  ("  " : Text).intercalate (call :: parts.filter (· ≠ []))

def wpLookup (call : Text) : Talk Unit := do
  let entry ← getWpEntry call
  let user ← getUser call
  if entry.isNone ∧ user.isNone then say node "info.wp_not_found" [("call", .text call)]
  else say node "info.wp_card" [("details", .text (wpDetails call entry user false))]

def cmdInfo (args : Text) : Talk Unit :=
  let call := Text.upper (Text.strip args)
  if call = [] then do
    say node "info.bbs_info" [("branding", .text node.config.node.brandingName),
      ("node_call", .text node.config.node.nodeCall), ("qth", .text node.config.node.qth),
      ("owner", .text node.config.node.ownerName)]
    cmdVersion node
  else wpLookup node call

/-- `count_wp_entries` -/
def countWpEntries : Talk Nat := Stateful.get fun console => console.database.wpEntries.length

def cmdWp (args : Text) : Talk Unit :=
  let call := Text.upper (Text.strip args)
  if call = [] then do
    let count ← countWpEntries
    say node "info.wp_count" [("count", .number count)]
  else wpLookup node call

/-- `search_wp` -/
def searchWp (term : Text) : Talk (List WPEntry) :=
  Stateful.get fun console =>
    let pattern := ['%'] ++ Text.upper term ++ ['%']
    limited 50 ((console.database.wpEntries.filter fun entry =>
      like pattern (Text.upper entry.call) ∨ like pattern (Text.upper entry.name)).mergeSort
        fun first second => first.call ≤ second.call)

def cmdWpSearch (args : Text) : Talk Unit :=
  let term := Text.strip args
  if term = [] then say node "error.usage" [("cmd", .text "WS <name>")]
  else do
    let entries ← searchWp term
    if entries.isEmpty then say node "info.wp_search_none" [("term", .text term)]
    else do
      let rows ← entries.foldlM (fun rows entry => do
        return rows ++ (← string node "info.wp_search_row" [("call", .text entry.call),
          ("name", .text (entry.name.take 20)), ("home_bbs", .text entry.homeBbs)])) "\r\n".toList
      let finish ← string node "list.end" [("count", .number entries.length)]
      sendPaged node (rows ++ finish)

def cmdDatetime : Talk Unit := do
  let date ← now node
  sendAll ["\r\n  ", toSecond date, " UTC\r\n"]

def countUsers : Talk Nat := Stateful.get fun console => console.database.users.rows.length

def cmdStats : Talk Unit := do
  let total ← countMessages {}
  let newPrivate ← countMessages { status := statusNew, msgType := msgPrivate }
  let newBulletin ← countMessages { status := statusNew, msgType := msgBulletin }
  let users ← countUsers
  let entries ← countWpEntries
  let neighbors : Text :=
    if node.config.neighbors.isEmpty then []
    else joined ["  Neighbors: ", (", " : Text).intercalate (node.config.neighbors.map (·.call)), "\r\n"]
  sendAll ["\r\n", "  Node     : ", node.config.node.nodeCall, "  (", node.config.node.qth, ")\r\n",
    "  Messages : ", decimal total, " total  ", decimal newPrivate, " new private  ",
    decimal newBulletin, " new bulletins\r\n", "  Users    : ", decimal users, "\r\n",
    "  WP entries: ", decimal entries, "\r\n", neighbors]

def cmdWhoami : Talk Unit := do
  let user ← me
  sendAll [labelled "\r\n  Callsign : " user.call,
    labelled "  Name     : " (filled user.displayName "(not set)"),
    labelled "  Privilege: " (filled user.privilege "user"),
    labelled "  Home BBS : " (filled user.homeBbs node.config.node.nodeCall),
    labelled "  Msg base : " (decimal user.msgBase)]

def cmdBbsList : Talk Unit :=
  if node.config.neighbors.isEmpty then send "\r\n  No neighbor nodes configured.\r\n"
  else send (table
    ["\r\n  ", leftIn 12 "Call", " ", leftIn 24 "Address", " ", leftIn 14 "Schedule", "  Status\r\n"] 64
    (node.config.neighbors.map fun neighbor =>
      joined ["  ", leftIn 12 neighbor.call, " ",
        leftIn 24 ((filled neighbor.address "(RF)").take 24), " ", leftIn 14 neighbor.schedule, "  ",
        if neighbor.enabled then "enabled" else "disabled", "\r\n"]))

def cmdWho : Talk Unit := do
  let user ← me
  let date ← now node
  sendAll ["\r\n  ", user.call, "  ", node.peer, "  [", node.channel, "]  ", toMinuteUtc date, "\r\n"]

def cmdHeard : Talk Unit :=
  node.heard.elim (send "\r\n  Heard list only available on RF (AX.25) sessions.\r\n") fun heard => do
    let entries ← ask heard
    if entries.isEmpty then send "\r\n  No stations heard recently.\r\n"
    else send (table ["\r\n  Recently heard stations:\r\n"] 42
      ((entries.drop (entries.length - 20)).reverse.map fun entry =>
        joined ["  ", leftIn 10 entry.call, "  port ", decimal entry.port, "  ",
          rightIn 4 (decimal entry.minutes), " min ago\r\n"]))

/-- A profile command: its prompt if there is no argument, the record and the answer. -/
def setProfile (field : Text) (value : User → Text) (change : Text → Text → User → Option User)
    (args : Text) (publish : User → Talk Unit) : Talk Unit := do
  let user ← me
  let answer ←
    if Text.strip args = [] then do
      say node "profile.prompt" [("field", .text field), ("current", .text (value user))]
      readline node
    else pure []
  (change args answer user).elim (pure ()) fun written => do
    saveUser written
    publish written
    say node "profile.set" [("field", .text field), ("value", .text (value written))]

/-- A change to the white pages record of a call, which may be a new one. -/
def editWp (call : Text) (change : WPEntry → WPEntry) : Talk Unit := do
  let date ← now node
  let entry ← getWpEntry call
  upsertWpEntry (change (entry.getD
    { call, homeBbs := [], name := [], updatedAt := date, sourceBbs := [] }))

def cmdNh (args : Text) : Talk Unit :=
  setProfile node "Name" User.displayName Command.cmdNh args fun user =>
    editWp node user.call fun entry =>
      { entry with
        name := user.displayName
        homeBbs := filled user.homeBbs node.config.node.nodeCall
        sourceBbs := node.config.node.nodeCall }

def cmdNl (args : Text) : Talk Unit :=
  setProfile node "Locator" User.locator Command.cmdNl args fun _ => pure ()

def cmdNq (args : Text) : Talk Unit :=
  setProfile node "QTH" User.city Command.cmdNq args fun _ => pure ()

def cmdNz (args : Text) : Talk Unit :=
  setProfile node "ZIP" User.zipCode Command.cmdNz args fun _ => pure ()

def cmdNb (args : Text) : Talk Unit :=
  setProfile node "Home BBS" User.homeBbs Command.cmdNb args fun user =>
    editWp node user.call fun entry =>
      { entry with homeBbs := user.homeBbs, sourceBbs := node.config.node.nodeCall }

def onOff (state : Bool) : Text := if state then "ON" else "OFF"

def cmdExpertToggle : Talk Unit := do
  let user ← me
  (Command.cmdExpertToggle user).elim (pure ()) fun written => do
    saveUser written
    sendAll ["\r\n  Expert mode ", onOff written.expertMode, ".\r\n"]

def showOptions (user : User) : Talk Unit := do
  say node "options.header" [("call", .text user.call)]
  say node "options.paging"
    [("state", .text (onOff (0 < user.pageLength))), ("lines", .number user.pageLength)]
  say node "options.expert_mode" [("state", .text (onOff user.expertMode))]
  say node "options.language" [("lang", .text user.language)]
  say node "options.msg_base" [("base", .number user.msgBase)]

def askHidden (label : Text) : Talk Text := do
  sendAll ["  ", rightIn 16 label, ": "]
  readlineHidden node

/-- `_change_password` -/
def changePassword : Talk Unit := do
  let user ← me
  let old ← askHidden node "Current password"
  (Auth.verifyPassword node.pbkdf2 old user.passwordHash).elim Stateful.raise fun verified =>
    if verified = false then send "  Incorrect password.\r\n"
    else do
      let new ← askHidden node "New password"
      if new.length < 6 then send "  Password must be at least 6 characters.\r\n"
      else do
        let confirm ← askHidden node "Confirm password"
        if new ≠ confirm then send "  Passwords do not match.\r\n"
        else do
          let salt ← ask node.salt
          saveUser { user with passwordHash := Auth.hashPassword node.pbkdf2 salt new }
          send "  Password changed successfully.\r\n"

/-- `set_user_pref` -/
def setUserPref (call key value : Text) : Talk Unit :=
  Stateful.modify fun console =>
    { console with
      prefs := fun other name =>
        if other = Text.upper call ∧ name = key then some value else console.prefs other name }

/-- `O` with a parameter that is not the password.  A number of lines that is too long for
`int` raises. -/
def setOption (param value : Text) (user : User) : Talk Unit :=
  if (param = "COLS" ∨ param = "WIDTH") ∧ Text.isDigits value then do
    setUserPref user.call "cols" value
    sendAll ["\r\n  Terminal width set to ", value, ".\r\n"]
  else if (param = "LINES" ∨ param = "PAGER") ∧ Text.isDigits value ∧ Text.parseInt value = none then
    Stateful.raise
  else (Command.setOption param value user).elim (say node "options.invalid" []) fun written => do
    saveUser written
    say node "options.changed" []

def cmdOptions (args : Text) : Talk Unit := do
  let user ← me
  (Text.splitWord args).elim (showOptions node user) fun (word, rest) =>
    if Command.asksPassword (Text.upper word) then changePassword node
    else setOption node (Text.upper word) (Text.strip (rest.getD [])) user

def cmdWpDetail (args : Text) : Talk Unit :=
  let call := Text.upper (Text.strip args)
  if call = [] then send "\r\n  Usage: IL <callsign>\r\n"
  else do
    let entry ← getWpEntry call
    let user ← getUser call
    if entry.isNone ∧ user.isNone then say node "info.wp_not_found" [("call", .text call)]
    else say node "info.wp_detail" [("details", .text (wpDetails call entry user true)),
      ("source", .text (firstFilled [(entry.map WPEntry.sourceBbs).getD [], node.config.node.nodeCall])),
      ("updated", .text (dateOr "?" toMinute (entry.map WPEntry.updatedAt)))]

/-- `list_users(privilege=PRIV_SYSOP)` -/
def listUsers (search privilege : Option Text) (limit : Int) : Talk (List User) := do
  let users ← Stateful.get fun console => console.database.users.listUsers search privilege limit
  users.elim Stateful.raise pure

def pageSysops (user : User) : Talk Unit := do
  let sysops ← listUsers none (some privSysop) (-1)
  let body := joined [user.call, " is requesting System Operator assistance (connected from ",
    node.peer, ").\r\n"]
  sysops.forM fun sysop => do
    let date ← now node
    let _ ← insertMessage node {
      bid := []
      msgType := msgPrivate
      fromCall := user.call
      toCall := sysop.call
      atBbs := []
      subject := joined ["PAGE from ", user.call]
      body
      createdAt := some date }
    pure ()

def cmdPageSysop : Talk Unit := do
  let user ← me
  (pageSysops node user).rescue (pure ())
  say node "sysop.paged" []

/-- `list_files` -/
def listFiles (area : Option Text) : Talk (List FileEntry) :=
  Stateful.get fun console =>
    (console.files.filter fun file => area.all fun area => file.area = area).mergeSort
      fun first second =>
        first.area < second.area ∨ (first.area = second.area ∧ first.filename ≤ second.filename)

def cmdYappList (args : Text) : Talk Unit := do
  let area := Text.strip args
  let files ← listFiles (if area = [] then none else some area)
  if files.isEmpty then
    sendAll ["\r\n  No files available", if area = [] then [] else joined [" in area '", area, "'"], ".\r\n"]
  else sendPaged node (table
    ["\r\n  ", leftIn 24 "Filename", " ", rightIn 8 "Size", "  ", leftIn 12 "Area", "  Description\r\n"] 70
    (files.map fun file =>
      joined ["  ", leftIn 24 (file.filename.take 24), " ", rightIn 8 (decimal file.size), "  ",
        leftIn 12 ((filled file.area "general").take 12), "  ", file.description.take 30, "\r\n"]))

/-- A transfer that takes over the terminal. -/
def takeOver {α : Type} (transfer : Nat → List Text → Option α × List Output × List Text) :
    Talk α := do
  let done ← ask transfer
  let lines ← Stateful.get Console.unread
  Stateful.modify fun console =>
    { console with unread := (done lines).2.2, sent := console.sent ++ (done lines).2.1 }
  (done lines).1.elim Stateful.raise pure

/-- `increment_downloads` -/
def incrementDownloads (filename area : Text) : Talk Unit :=
  Stateful.modify fun console =>
    { console with
      files := console.files.map fun file =>
        if file.filename = filename ∧ file.area = area then { file with downloads := file.downloads + 1 }
        else file }

/-- `get_file_entry(filename)` -/
def getFileEntry (filename : Text) : Talk (Option FileEntry) :=
  Stateful.get fun console => console.files.find? fun file => file.filename = filename ∧ file.area = []

/-- The file itself, if it exists. -/
def readFile (filename : Text) : Talk (Option Bytes) :=
  Stateful.get fun console => console.disk [] filename

def sendStored (filename : Text) (data : Bytes) : Talk Unit := do
  sendAll ["\r\n  Starting YAPP transfer: ", filename, " (", decimal data.length, " bytes)\r\n"]
  let done ← takeOver fun asked => node.sendFile asked data filename
  if done then do
    incrementDownloads filename []
    send "\r\n  Transfer complete.\r\n"
  else send "\r\n  Transfer aborted or failed.\r\n"

def cmdYappGet (args : Text) : Talk Unit :=
  let filename := Text.strip args
  if filename = [] then send "\r\n  Usage: YG <filename>\r\n"
  else do
    let entry ← getFileEntry filename
    let data ← readFile filename
    if entry.isNone then sendAll ["\r\n  File not found: ", filename, "\r\n"]
    else data.elim (sendAll ["\r\n  File not available: ", filename, "\r\n"]) (sendStored node filename)

/-- `Path(filename).name` -/
def pathName (filename : Text) : Text :=
  ((filename.splitOn '/').filter fun part => part ≠ [] ∧ part ≠ ("." : Text)).getLast?.getD []

/-- `upsert_file_entry` -/
def upsertFileEntry (entry : FileEntry) : Talk Unit :=
  Stateful.modify fun console =>
    let same (file : FileEntry) : Bool := file.filename = entry.filename ∧ file.area = entry.area
    { console with
      files :=
        if console.files.any same then
          console.files.map fun file =>
            if same file then { entry with createdAt := file.createdAt } else file
        else console.files ++ [entry] }

def writeFile (filename : Text) (data : Bytes) : Talk Unit :=
  guarded (node.writable filename) (Stateful.modify fun console =>
    { console with
      disk := fun area name =>
        if area = [] ∧ name = filename then some data else console.disk area name })

def cmdYappUpload (args : Text) : Talk Unit := do
  let filename := ((Text.splitWord args).map Prod.fst).getD []
  if filename = [] then send "\r\n  Usage: YU <filename>\r\n"
  else if pathName filename ≠ filename then send "\r\n  Invalid filename.\r\n"
  else do
    sendAll ["\r\n  Ready to receive '", filename, "' via YAPP.\r\n  (ok)\r\n"]
    let received ← takeOver node.receiveFile
    received.elim (send "\r\n  Upload aborted or failed.\r\n") fun data => do
      writeFile node filename data
      let user ← me
      let date ← now node
      upsertFileEntry {
        filename
        area := []
        description := []
        owner := user.call
        size := data.length
        createdAt := date
        downloads := 0 }
      sendAll ["\r\n  File received: ", filename, " (", decimal data.length, " bytes)\r\n"]

def defaultRoom : Text := "CONF"

/-- `hub.enter_room`, with what the others in the room do. -/
def enterRoom (conference : Conference) (room call : Text) : Talk Unit := do
  let meeting ← ask conference
  Stateful.mk
    (fun _ console =>
      let (outcome, sent, unread) := meeting room call console.unread
      (outcome, { console with unread, sent := console.sent ++ sent }))
    (fun _ _ => rfl)

def cmdConference (args : Text) : Talk Unit :=
  node.conference.elim (send "\r\n  Conference not available on this node.\r\n") fun conference => do
    let user ← me
    enterRoom conference (filled (Text.strip args) defaultRoom) user.call

end PyBulletin.Command.Engine
