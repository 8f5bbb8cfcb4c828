import PyBulletin.Command.Display

set_option autoImplicit false

namespace PyBulletin.Command.Engine

open PyBulletin.Foundation
open PyBulletin.Store
open PyBulletin.Session

variable (node : Node)

def typeName (msgType : Text) : Text :=
  if msgType = msgPrivate then "Private"
  else if msgType = msgBulletin then "Bulletin"
  else if msgType = msgNts then "NTS"
  else "?"

/-- The text that `_read_one` sends in pages. -/
def messageText (id : Int) (msg : Row) : Talk Text := do
  let sender ← string node "read.header_from" [("from_call", .text msg.fromCall)]
  let recipient ← string node "read.header_to" [("to_call", .text msg.toCall)]
  let route ←
    if msg.atBbs = [] then pure [] else string node "read.header_at" [("at_bbs", .text msg.atBbs)]
  let date ← string node "read.header_date" [("date", .text (dateOr "?" toMinuteUtc msg.createdAt))]
  let subject ← string node "read.header_subject" [("subject", .text msg.subject)]
  let bid ← string node "read.header_bid" [("bid", .text msg.bid)]
  let size ← string node "read.header_size" [("size", .number msg.size)]
  let separator ← string node "read.separator" []
  let edited : Text :=
    if msg.editedBy = [] then []
    else joined ["\r\n[Edited by ", msg.editedBy, " on ", dateOr "?" toMinuteUtc msg.editedAt, "]\r\n"]
  let footer ← string node "read.footer" [("id", .number id), ("type", .text (typeName msg.msgType))]
  return joined [sender, recipient, route, date, subject, bid, size, separator, withReturns msg.body,
    edited, footer]

/-- Personal mail is for the addressee, the sender and sysops. -/
def mayRead (user : User) (msg : Row) : Prop :=
  msg.msgType = msgPrivate →
    user.call = msg.toCall ∨ user.call = msg.fromCall ∨ user.privilege = privSysop

instance (user : User) (msg : Row) : Decidable (mayRead user msg) :=
  inferInstanceAs (Decidable (_ → _))

/-- The part of `_read_one` behind its checks. -/
def showMessage (id : Int) (msg : Row) : Talk Unit := do
  sendPaged node (← messageText node id msg)
  if msg.msgType = msgPrivate ∧ msg.status = statusNew then do
    let user ← me
    let date ← now node
    updateMail id fun mail id => mail.markRead id user.call date

def readOne (id : Int) : Talk Unit := do
  match ← getMessage id with
  | none => say node "read.not_found" [("id", .number id)]
  | some msg =>
      let user ← me
      if msg.status = statusKilled then say node "read.killed" [("id", .number id)]
      else if mayRead user msg then showMessage node id msg
      else say node "read.not_yours" [("id", .number id)]

def cmdRead (args : Text) : Talk Unit :=
  ifCan node capRead (withIds "\r\n  Usage: R <msg#> [msg# ...]\r\n" args fun ids =>
    ids.forM (readOne node))

def cmdReadAll : Talk Unit :=
  ifCan node capRead do
    let user ← me
    let msgs ← listMessages { toCall := some user.call, status := some statusNew }
    let ids := msgs.map fun msg => (msg.id : Int)
    if ids = [] then say node "list.no_msgs" [] else ids.forM (readOne node)

def maxBodyLines : Nat := 500

/-- The lines of the body, with `left` more to come at most; `none` if they are too long. -/
def composeBody (limit : Int) : Nat → List Text → Talk (Option (List Text))
  | 0, lines => return some lines
  | left + 1, lines => do
      let line ← readline node
      if endsText line then return some lines
      else if limit < ((lines ++ [line]).map BBSStore.utf8Length).sum then do
        say node "send.too_large" [("max", .number limit)]
        return none
      else composeBody limit left (lines ++ [line])

/-- The argument of a command or else the answer to a prompt. -/
def argumentOr (key args : Text) : Talk Text :=
  if Text.strip args = [] then do
    say node key []
    return Text.strip (← readline node)
  else return Text.strip args

/-- `Message(...)` with its default time -/
def newMessage (msgType toCall atBbs subject body : Text) : Talk Message := do
  let user ← me
  let date ← now node
  return { bid := [], msgType, fromCall := user.call, toCall, atBbs, subject, body,
           createdAt := some date }

/-- The last part of `_compose`. -/
def composeText (msgType toCall atBbs subject : Text) : Talk Unit := do
  say node "send.enter_body" []
  match ← composeBody node node.config.maxMessageBodyBytes maxBodyLines [] with
  | none => pure ()
  | some lines =>
      let msg ← newMessage node msgType toCall atBbs subject (['\n'].intercalate lines)
      let id ← insertMessage node msg
      say node "send.saved" [("id", .number id)]

/-- Only private mail goes to a BBS. -/
def askRoute (msgType : Text) : Talk Text :=
  if msgType = msgPrivate then do
    say node "send.enter_at" []
    return Text.upper (Text.strip (← readline node))
  else return []

/-- A subject that is given is not asked for. -/
def askSubject (given : Text) : Talk Text :=
  if given = [] then do
    say node "send.enter_subject" []
    return Text.strip (← readline node)
  else do
    sendAll ["\r\n  Subject: ", given, "\r\n"]
    return given

/-- `_compose` -/
def compose (toArg msgType given : Text) : Talk Unit :=
  ifCan node capSend do
    let toCall := Text.upper (← argumentOr node "send.enter_to" toArg)
    if toCall = [] then say node "error.aborted" []
    else do
      let atBbs ← askRoute node msgType
      let subject ← askSubject node given
      if subject = [] then say node "error.aborted" []
      else composeText node msgType toCall atBbs subject

def cmdSendPrivate (args : Text) : Talk Unit := compose node args msgPrivate []
def cmdSendBulletin (args : Text) : Talk Unit := compose node args msgBulletin []
def cmdSendNts (args : Text) : Talk Unit := compose node args msgNts []

def replySubject (subject : Text) : Text :=
  if (("RE:" : Text)).isPrefixOf (Text.upper subject) then subject else ("Re: " : Text) ++ subject

def cmdReply (args : Text) : Talk Unit :=
  ifCan node capSend (withFirst node "\r\n  Usage: RP <msg#>\r\n" args fun _ msg =>
    compose node msg.fromCall msgPrivate (replySubject msg.subject))

/-- `call[@bbs]` -/
def destination (text : Text) : Text × Text :=
  let dest := Text.upper (Text.strip text)
  (dest.takeWhile (· ≠ '@'), (dest.dropWhile (· ≠ '@')).drop 1)

/-- The number and the rest of the arguments of `SC`, `MV` and `FD`. -/
def numberAnd (args : Text) : Option (Int × Text) :=
  match Text.splitWord args with
  | some (word, some rest) => (Text.parseInt word).map fun id => (id, rest)
  | _ => none

def copyUsage : Text := "\r\n  Usage: SC <msg#> <callsign[@bbs]>\r\n"

def cmdCopyMessage (args : Text) : Talk Unit :=
  ifCan node capSend ((numberAnd args).elim (send copyUsage) fun (id, rest) => do
    let (toCall, atBbs) := destination rest
    match ← getMessage id with
    | none => say node "read.not_found" [("id", .number id)]
    | some source =>
        let msg ← newMessage node msgPrivate toCall atBbs source.subject source.body
        let copied ← insertMessage node msg
        sendAll ["\r\n  Message ", decimal id, " copied to ", toCall, " as #", decimal copied, ".\r\n"])

def mayKill (user : User) (msg : Row) : Prop :=
  user.call = msg.fromCall ∨ user.call = msg.toCall ∨ user.privilege = privSysop

instance (user : User) (msg : Row) : Decidable (mayKill user msg) :=
  inferInstanceAs (Decidable (_ ∨ _))

def killOne (id : Int) : Talk Unit := do
  match ← getMessage id with
  | none => say node "kill.not_found" [("id", .number id)]
  | some msg =>
      let user ← me
      if msg.status = statusHeld then say node "kill.held" [("id", .number id)]
      else if mayKill user msg then do
        updateMail id BBSStore.killMessage
        say node "kill.ok" [("id", .number id)]
      else say node "kill.not_yours" []

def cmdKill (args : Text) : Talk Unit :=
  withIds "\r\n  Usage: K <msg#> [msg# ...]\r\n" args fun ids => ids.forM (killOne node)

def cmdKillMine : Talk Unit := do
  let user ← me
  let msgs ← listMessages { toCall := some user.call, msgType := some msgPrivate }
  let ids := msgs.map fun msg => (msg.id : Int)
  if ids = [] then say node "list.no_msgs" [] else ids.forM (killOne node)

/-- `@bbs` if there is a BBS -/
def atRoute (msg : Row) : Text := if msg.atBbs = [] then [] else '@' :: msg.atBbs

def cmdMsgStatus (args : Text) : Talk Unit :=
  withFirst node "\r\n  Usage: $ <msg#>\r\n" args fun _ msg =>
    sendAll ["\r\n  Msg    : ", decimal msg.id, "  (", msg.msgType, ")  [", msg.status, "]\r\n",
      labelled "  BID    : " msg.bid,
      "  From   : ", msg.fromCall, "  →  ", msg.toCall, atRoute msg, "\r\n",
      labelled "  Date   : " (dateOr "?" toMinuteUtc msg.createdAt),
      labelled "  Subject: " msg.subject,
      labelled "  Path   : " (filled msg.forwardPath "(none)")]

end PyBulletin.Command.Engine
