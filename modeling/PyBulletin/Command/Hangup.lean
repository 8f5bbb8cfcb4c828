import PyBulletin.Foundation.Outcomes
import PyBulletin.Session.Lifecycle
import PyBulletin.Store.BidSearch

set_option autoImplicit false

namespace PyBulletin.Command.Engine

open PyBulletin.Foundation
open PyBulletin.Foundation.Stateful
open PyBulletin.Store
open PyBulletin.Session

/-! Over telnet `readline` never waits: at the end of the input it returns the empty text.  So a
command waits for ever only in a loop of its own, in the conference, or in the search for a free
BID. -/

/-- The session reads with `TelnetReader`. -/
class OverTelnet (node : Node) : Prop where
  telnet : node.telnet = true

/-- The computation ends from everywhere. -/
abbrev Finishes {α : Type} (x : Talk α) : Prop := Ends (fun _ : Console => True) x

variable {P : Console → Prop} {node : Node} {α : Type}

instance (text : Text) : Ends P (send text) := ⟨fun _ _ => ⟨0, nofun⟩⟩

instance (data : Bytes) : Ends P (sendRaw data) := ⟨fun _ _ => ⟨0, nofun⟩⟩

instance [telnet : OverTelnet node] : Ends P (readline node) where
  ends console _ := by
    refine ⟨0, ?_⟩
    simp only [readline, telnet.telnet, if_true]
    cases console.unread <;> nofun

instance (key : Text) (fields : List (Text × Field)) : Ends P (string node key fields) := by
  unfold string
  infer_instance

instance (key : Text) (fields : List (Text × Field)) : Ends P (say node key fields) := by
  unfold say
  infer_instance

instance : Ends P me := by
  unfold me
  infer_instance

instance (parts : List Text) : Ends P (sendAll parts) := by
  unfold sendAll
  infer_instance

instance (answer : Nat → α) : Ends P (ask answer) := ⟨fun _ _ => ⟨0, nofun⟩⟩

instance : Ends P (now node) := by
  unfold now
  infer_instance

instance {fits : Prop} [Decidable fits] {x : Talk α} [Ends P x] : Ends P (guarded fits x) := by
  unfold guarded
  infer_instance

instance (number : Int) : Ends P (getMessage number) := by
  unfold getMessage
  infer_instance

instance (query : MessageQuery) : Ends P (listMessages query) := by
  unfold listMessages
  infer_instance

instance (query : CountQuery) : Ends P (countMessages query) := by
  unfold countMessages
  infer_instance

instance (call : Text) : Ends P (getUser call) := by
  unfold getUser
  infer_instance

instance (call : Text) : Ends P (getWpEntry call) := by
  unfold getWpEntry
  infer_instance

instance (number : Int) (change : BBSStore → Nat → BBSStore) : Ends P (updateMail number change) := by
  unfold updateMail
  infer_instance

instance (user : User) : Ends P (upsertUser user) := by
  unfold upsertUser
  split <;> infer_instance

instance (entry : WPEntry) : Ends P (upsertWpEntry entry) := ⟨fun _ _ => ⟨0, nofun⟩⟩

instance (capability : Text) (serve : Talk Unit) [Ends P serve] : Ends P (ifCan node capability serve) := by
  unfold ifCan
  infer_instance

instance (serve : Talk Unit) [Ends P serve] : Ends P (ifSysop node serve) := by
  unfold ifSysop
  infer_instance

instance (usage args : Text) (serve : List Int → Talk Unit) [∀ ids, Ends P (serve ids)] :
    Ends P (withIds usage args serve) := by
  unfold withIds
  infer_instance

/-- What is done with a message that may be there. -/
instance ends_found (number : Int) (missing : Talk Unit) (serve : Row → Talk Unit)
    [Ends P missing] [∀ row, Ends P (serve row)] :
    Ends P (getMessage number >>= fun found =>
      match found with
      | none => missing
      | some msg => serve msg) := by
  have served (found : Option Row) : Ends P
      (match found with
      | none => missing
      | some msg => serve msg) := by
    cases found <;> infer_instance
  infer_instance

instance (usage args : Text) (serve : Int → Row → Talk Unit)
    [∀ number row, Ends P (serve number row)] : Ends P (withFirst node usage args serve) := by
  unfold withFirst
  infer_instance

section Telnet

variable [telnet : OverTelnet node]

instance : Finishes (readlineHidden node) := by
  unfold readlineHidden
  infer_instance

instance (length : Int) (lines page : List Text) (count : Nat) :
    Finishes (sendPages node length lines page count) := by
  induction lines generalizing page count with
  | nil =>
      unfold sendPages
      infer_instance
  | cons line lines ih =>
      unfold sendPages
      infer_instance

instance (text : Text) : Finishes (sendPaged node text) := by
  unfold sendPaged
  infer_instance

instance (user : User) : Finishes (saveUser user) := by
  unfold saveUser
  infer_instance

instance (rows : List Row) : Finishes (listText node rows) := by
  unfold listText formatListRow
  infer_instance

instance (rows : List Row) : Finishes (sendList node rows) := by
  unfold sendList
  infer_instance

instance (query : MessageQuery) : Finishes (cmdListOf node query) := by
  unfold cmdListOf
  infer_instance

instance (call : Text) (change : WPEntry → WPEntry) : Finishes (editWp node call change) := by
  unfold editWp
  infer_instance

instance (field : Text) (value : User → Text) (change : Text → Text → User → Option User)
    (args : Text) (publish : User → Talk Unit) [∀ user, Finishes (publish user)] :
    Finishes (setProfile node field value change args publish) := by
  unfold setProfile
  infer_instance

instance (label : Text) : Finishes (askHidden node label) := by
  unfold askHidden
  infer_instance

set_option synthInstance.maxSize 512 in
instance : Finishes (changePassword node) := by
  unfold changePassword
  infer_instance

instance (args : Text) : Finishes (cmdOptions node args) := by
  unfold cmdOptions showOptions setOption setUserPref
  infer_instance

instance (number : Int) (msg : Row) : Finishes (messageText node number msg) := by
  unfold messageText
  infer_instance

instance (number : Int) : Finishes (readOne node number) := by
  unfold readOne showMessage
  infer_instance

instance (number : Int) : Finishes (killOne node number) := by
  unfold killOne
  infer_instance

instance (other : Text) : Finishes (wpLookup node other) := by
  unfold wpLookup
  infer_instance

instance (search privilege : Option Text) (limit : Int) : Finishes (listUsers search privilege limit) := by
  unfold listUsers
  infer_instance

instance {Result : Type} (transfer : Nat → List Text → Option Result × List Output × List Text) :
    Finishes (takeOver transfer) := by
  unfold takeOver
  infer_instance

instance (filename area : Text) : Finishes (incrementDownloads filename area) := ⟨fun _ _ => ⟨0, nofun⟩⟩

instance (entry : FileEntry) : Finishes (upsertFileEntry entry) := ⟨fun _ _ => ⟨0, nofun⟩⟩

instance (filename : Text) (data : Bytes) : Finishes (writeFile node filename data) := by
  unfold writeFile
  infer_instance

instance (filename : Text) (data : Bytes) : Finishes (sendStored node filename data) := by
  unfold sendStored
  infer_instance

instance (neighbor : Web.ForwardNeighborConfig) : Finishes (runForward node neighbor) := by
  have told (result : Except Text (Nat × Nat)) : Finishes
      (match result with
      | .ok (sent, received) => do
          sendAll ["  ", neighbor.call, ": sent ", decimal sent, ", received ", decimal received, "\r\n"]
          return (sent, received)
      | .error reason => do
          sendAll ["  ", neighbor.call, ": failed — ", reason, "\r\n"]
          return (0, 0)) := by
    cases result <;> infer_instance
  unfold runForward
  infer_instance

instance (args : Text) : Finishes (cmdKillBulk node args) := by
  have killed (msgs : List Row) : Finishes (killAll msgs) := by
    unfold killAll
    infer_instance
  have chosen (bulk : Bulk) : Finishes
      (match bulk with
      | .refused usage => send usage
      | .query query => do killAll (← listMessages query)
      | .bbs call => do
          let msgs ← listMessages {}
          killAll (msgs.filter fun msg => Text.upper msg.atBbs = call)) := by
    cases bulk <;> infer_instance
  unfold cmdKillBulk
  infer_instance

instance (label current : Text) : Finishes (promptFor node label current) := by
  unfold promptFor
  infer_instance

set_option synthInstance.maxSize 512 in
instance (args : Text) : Finishes (cmdUserEdit node args) := by
  unfold cmdUserEdit withUser
  infer_instance

set_option synthInstance.maxSize 512 in
instance (args : Text) : Finishes (cmdYappUpload node args) := by
  unfold cmdYappUpload
  infer_instance

/-- The handlers that may not come to an end: `readBody` takes the end of the input for empty
lines, the conference is a parameter, and the others insert a message, whose BID has to be found. -/
def lasting : List Handler :=
  [.editBody, .editTerminal, .conference, .reply, .sendPrivate, .sendBulletin, .sendNts, .copyMessage,
    .pageSysop]

/-- Whatever lines are left, all other commands end. -/
theorem perform_finishes (args : Text) {handler : Handler} (short : handler ∉ lasting) :
    Finishes (perform node args handler) := by
  cases handler with
  | editBody | editTerminal | conference | reply | sendPrivate | sendBulletin | sendNts
  | copyMessage | pageSysop => exact absurd (by decide) short
  | _ =>
      dsimp only [perform, cmdHelp, cmdVersion, cmdInfo, cmdWp, cmdNew, cmdReadAll, cmdList,
        cmdListNewLogin, cmdListReverse, cmdListLast, cmdListMine, cmdListBulletins, cmdListNts,
        cmdListHeld, cmdListKilled, cmdListForwarded, cmdListRead, cmdListWw, cmdListSearch, cmdListDate,
        cmdListFrom, cmdRead, cmdKill, cmdKillMine, cmdMsgStatus, cmdNh, cmdNl, cmdNq, cmdNz, cmdNb,
        cmdForward, cmdForwardList, cmdForwardPath, cmdForwardDrop, cmdMove, cmdSysopHold,
        cmdSysopRelease, cmdDatetime, cmdStats, cmdWhoami, cmdExpertToggle, cmdBbsList, cmdWho, cmdHeard,
        cmdWpSearch, cmdUsers, cmdUserDetail, cmdSysopList, cmdWpDetail, cmdWpEdit, cmdYappList,
        cmdYappGet, withNumbered, changeStatus, withUser, countUsers, countWpEntries,
        searchWp, listFiles, getFileEntry, readFile]
      infer_instance

/-- The line calls for none of the commands that may last. -/
def Short (line : Text) : Prop :=
  ∀ verb args handler rest, verbOf line = some (verb, args) →
    resolve verb args = some (handler, rest) → handler ∉ lasting

theorem dispatch_finishes {line : Text} (short : Short line) : Finishes (dispatch node line) := by
  unfold dispatch
  refine @Ends.ite _ _ _ _ _ _ _ Ends.pure ?_
  cases words : verbOf line with
  | none => exact Ends.raise
  | some word =>
      obtain ⟨verb, args⟩ := word
      rw [Option.elim_some]
      dsimp only
      cases found : resolve verb args with
      | none =>
          rw [Option.elim_none]
          infer_instance
      | some served =>
          obtain ⟨handler, rest⟩ := served
          exact perform_finishes rest (short _ _ _ _ words found)

end Telnet

section Mail

variable {mail : BBSStore}

/-- The mail is this one. -/
def MailIs (mail : BBSStore) (console : Console) : Prop := console.database.mail = mail

/-- Not all BIDs of any call and time are taken. -/
def Roomy (mail : BBSStore) : Prop :=
  ∀ date call, ∃ i, mail.hasBid (Writers.candidate (BBSStore.bidBase date call) i) = false

instance (text : Text) : Keeps (MailIs mail) (send text) := ⟨fun _ _ begun => begun⟩

instance : Keeps (MailIs mail) (readline node) where
  kept fuel console begun := by
    obtain ⟨_, _, _, _, _, _, _ | ⟨line, unread⟩, _, _⟩ := console <;> exact begun

instance (answer : Nat → α) : Keeps (MailIs mail) (ask answer) := ⟨fun _ _ begun => begun⟩

instance : Keeps (MailIs mail) (now node) := by
  unfold now
  infer_instance

theorem Roomy.insert_ends (roomy : Roomy mail) (msg : Message) :
    Ends (MailIs mail) (insertMessage node msg) := by
  have searched (date : DateTime) (call : Text) : Ends (MailIs mail)
      (Stateful.reading fun console : Console => console.database.mail.generateBid date call) := by
    refine ⟨fun console same => ?_⟩
    have least := Nat.find_spec (roomy date call)
    obtain ⟨fuel, found⟩ := BBSStore.generateBid_returns.mpr ⟨Nat.find (roomy date call),
      fun i lower => by simpa using Nat.find_min (roomy date call) lower, least, rfl⟩
    refine ⟨fuel, ?_⟩
    change ((console.database.mail.generateBid date call).run fuel) ≠ _
    rw [MailIs] at same
    rw [same, found]
    nofun
  have stored (inserted : BBSStore × Option Nat) : Ends (MailIs mail) (do
      Stateful.modify fun console : Console => console.withMail inserted.1
      inserted.2.elim Stateful.raise pure : Talk Nat) := by
    refine ⟨fun _ _ => ⟨0, ?_⟩⟩
    cases inserted.2 <;> nofun
  unfold insertMessage
  infer_instance

/-- Behind the insertion any mail will do. -/
theorem Roomy.insert_then_ends (roomy : Roomy mail) (msg : Message) {next : Nat → Talk Unit}
    (ends : ∀ id, Finishes (next id)) : Ends (MailIs mail) (insertMessage node msg >>= next) where
  ends console same := bind_returns_iff.mpr
    ⟨(roomy.insert_ends msg).ends console same, fun id after _ => (ends id).ends after trivial⟩

instance keeps_composeBody (limit : Int) (left : Nat) (lines : List Text) :
    Keeps (MailIs mail) (composeBody node limit left lines) := by
  induction left generalizing lines with
  | zero =>
      unfold composeBody
      infer_instance
  | succ left ih =>
      unfold composeBody
      infer_instance

variable [telnet : OverTelnet node]

/-- The body of a message has a last line at the latest when it has all it may have. -/
instance ends_composeBody (limit : Int) (left : Nat) (lines : List Text) :
    Ends (MailIs mail) (composeBody node limit left lines) := by
  induction left generalizing lines with
  | zero =>
      unfold composeBody
      infer_instance
  | succ left ih =>
      unfold composeBody
      infer_instance

variable (node) in
theorem Roomy.composeText_ends (roomy : Roomy mail) (msgType toCall atBbs subject : Text) :
    Ends (MailIs mail) (composeText node msgType toCall atBbs subject) := by
  have saved (msg : Message) : Ends (MailIs mail) (insertMessage node msg >>= fun id =>
      say node "send.saved" [("id", .number id)]) :=
    roomy.insert_then_ends msg fun _ => inferInstance
  unfold composeText newMessage
  refine @Ends.bind _ _ _ _ _ _ inferInstance inferInstance fun _ => ?_
  refine @Ends.bind _ _ _ _ _ _ inferInstance inferInstance fun lines => ?_
  cases lines with
  | none => exact Ends.pure
  | some lines => infer_instance

variable (node) in
theorem Roomy.compose_ends (roomy : Roomy mail) (toArg msgType given : Text) :
    Ends (MailIs mail) (compose node toArg msgType given) := by
  have written (toCall atBbs subject : Text) :=
    roomy.composeText_ends node msgType toCall atBbs subject
  have asked (toCall : Text) : Ends (MailIs mail) (do
      let atBbs ← askRoute node msgType
      let subject ← askSubject node given
      if subject = [] then say node "error.aborted" []
      else composeText node msgType toCall atBbs subject) := by
    unfold askRoute askSubject
    infer_instance
  unfold compose argumentOr
  infer_instance

/-- The commands that compose a message or copy one end if the mail has room for a BID. -/
theorem Roomy.perform_ends (roomy : Roomy mail) (args : Text) {handler : Handler}
    (sends : handler ∈ ([.reply, .sendPrivate, .sendBulletin, .sendNts, .copyMessage] : List Handler)) :
    Ends (MailIs mail) (perform node args handler) := by
  have composed (toArg msgType given : Text) := roomy.compose_ends node toArg msgType given
  cases handler with
  | sendPrivate | sendBulletin | sendNts => exact composed _ _ _
  | reply =>
      unfold perform cmdReply
      infer_instance
  | copyMessage =>
      have copied (msg : Message) (id : Int) (toCall : Text) : Ends (MailIs mail)
          (insertMessage node msg >>= fun copied => sendAll
            ["\r\n  Message ", decimal id, " copied to ", toCall, " as #", decimal copied, ".\r\n"]) :=
        roomy.insert_then_ends msg fun _ => inferInstance
      unfold perform cmdCopyMessage newMessage
      infer_instance
  | _ => exact absurd sends (by decide)

end Mail

/-- `ED` and `EM` take the end of the input for one more empty line, again and again. -/
theorem readBody_at_end [telnet : OverTelnet node] {console : Console} (ended : console.unread = []) :
    ¬ Returns (readBody node) console := by
  refine loop_endless (fun _ later => later.unread = []) (fun fuel lines later still => ?_) ended
  refine ⟨lines ++ [[]], later, ?_, still⟩
  have read : (readline node).run fuel later = (.returned [], later) := by
    simp only [readline, still, telnet.telnet, if_true]
  rw [run_bind, read]
  rfl

end PyBulletin.Command.Engine
