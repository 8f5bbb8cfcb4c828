import PyBulletin.Session.Lifecycle

set_option autoImplicit false

namespace PyBulletin.Command.Engine

open PyBulletin.Foundation
open PyBulletin.Foundation.Stateful
open PyBulletin.Store
open PyBulletin.Session

/-- The session of a user whose record has this login. -/
def Since (login : Option DateTime) (console : Console) : Prop :=
  ∃ user, console.user = some user ∧ user.lastLoginAt = login

variable {login : Option DateTime} {node : Node} {α : Type}

theorem since_modify {change : Console → Console}
    (same : ∀ console, (change console).user = console.user) : Keeps (Since login) (modify change) where
  kept _ console begun := by
    obtain ⟨user, signedIn, since⟩ := begun
    exact ⟨user, (same console).trans signedIn, since⟩

instance (text : Text) : Keeps (Since login) (send text) := since_modify fun _ => rfl

instance (data : Bytes) : Keeps (Since login) (sendRaw data) := since_modify fun _ => rfl

instance : Keeps (Since login) (readline node) where
  kept fuel console begun := by
    obtain ⟨_, _, _, _, _, _, _ | ⟨line, unread⟩, _, _⟩ := console <;> exact begun

instance : Keeps (Since login) (readlineHidden node) := by
  unfold readlineHidden
  infer_instance

theorem since_me {next : User → Talk α}
    (keeps : ∀ user : User, user.lastLoginAt = login → Keeps (Since login) (next user)) :
    Keeps (Since login) (me >>= next) where
  kept fuel console begun := by
    obtain ⟨user, signedIn, since⟩ := begun
    have told : (me >>= next).run fuel console = (next user).run fuel console := by
      change following _ ((console.user.elim raise pure : Talk User).run fuel console) = _
      rw [signedIn]
      rfl
    rw [told]
    exact (keeps user since).kept fuel console ⟨user, signedIn, since⟩

instance (answer : Nat → α) : Keeps (Since login) (ask answer) := by
  have counted (asked : Nat) : Keeps (Since login)
      (modify fun console : Console => { console with asked := asked + 1 }) :=
    since_modify fun _ => rfl
  unfold ask
  infer_instance

instance : Keeps (Since login) (now node) := by
  unfold now
  infer_instance

instance (length : Int) (lines page : List Text) (count : Nat) :
    Keeps (Since login) (sendPages node length lines page count) := by
  induction lines generalizing page count with
  | nil =>
      unfold sendPages
      infer_instance
  | cons line lines ih =>
      unfold sendPages
      infer_instance

instance (text : Text) : Keeps (Since login) (sendPaged node text) := by
  unfold sendPaged
  infer_instance

instance (number : Int) (change : BBSStore → Nat → BBSStore) :
    Keeps (Since login) (updateMail number change) := by
  have changed : Keeps (Since login) (modify fun console : Console =>
      if 0 ≤ number then console.withMail (change console.database.mail number.toNat) else console) :=
    since_modify fun console => by split <;> rfl
  unfold updateMail
  infer_instance

instance (msg : Message) : Keeps (Since login) (insertMessage node msg) := by
  have stored (mail : BBSStore) : Keeps (Since login)
      (modify fun console : Console => console.withMail mail) := since_modify fun _ => rfl
  unfold insertMessage
  infer_instance

instance (user : User) : Keeps (Since login) (upsertUser user) := by
  unfold upsertUser
  split
  · exact since_modify fun _ => rfl
  · infer_instance

theorem since_saveUser {user : User} (since : user.lastLoginAt = login) :
    Keeps (Since login) (saveUser user) := by
  have remembered : Keeps (Since login)
      (modify fun console : Console => { console with user := some user }) :=
    ⟨fun _ _ _ => ⟨user, rfl, since⟩⟩
  unfold saveUser
  infer_instance

instance (entry : WPEntry) : Keeps (Since login) (upsertWpEntry entry) := since_modify fun _ => rfl

/-- What is done with a message that may be there. -/
instance since_found (number : Int) (missing : Talk Unit) (serve : Row → Talk Unit)
    [Keeps (Since login) missing] [∀ row, Keeps (Since login) (serve row)] :
    Keeps (Since login) (getMessage number >>= fun found =>
      match found with
      | none => missing
      | some msg => serve msg) := by
  have served (found : Option Row) : Keeps (Since login)
      (match found with
      | none => missing
      | some msg => serve msg) := by
    cases found <;> infer_instance
  infer_instance

instance (usage args : Text) (serve : Int → Row → Talk Unit)
    [∀ number row, Keeps (Since login) (serve number row)] :
    Keeps (Since login) (withFirst node usage args serve) := by
  unfold withFirst
  infer_instance

instance (rows : List Row) : Keeps (Since login) (listText node rows) := by
  unfold listText formatListRow
  infer_instance

instance (rows : List Row) : Keeps (Since login) (sendList node rows) := by
  unfold sendList
  infer_instance

instance (query : MessageQuery) : Keeps (Since login) (cmdListOf node query) := by
  unfold cmdListOf
  infer_instance

theorem since_change {user : User} (since : user.lastLoginAt = login) {choice : Option User}
    (same : ∀ written, choice = some written → written.lastLoginAt = user.lastLoginAt)
    {nothing : Talk Unit} [Keeps (Since login) nothing] {rest : User → Talk Unit}
    [∀ written, Keeps (Since login) (rest written)] :
    Keeps (Since login) (choice.elim nothing fun written =>
      saveUser written >>= fun _ => rest written) := by
  cases choice with
  | none => assumption
  | some written =>
      have saved := since_saveUser ((same written rfl).trans since)
      exact Keeps.bind

instance : Keeps (Since login) (cmdNew node) := by
  have advanced (rows : List Row) : Keeps (Since login) (me >>= fun user =>
      (Command.cmdNew (rows.map fun msg => (msg.id : Int)) user).elim (pure ()) saveUser) := by
    refine since_me fun user since => ?_
    cases changed : Command.cmdNew (rows.map fun msg => (msg.id : Int)) user with
    | none => exact Keeps.pure
    | some written =>
        obtain ⟨highest, rfl⟩ := cmdNew_written changed
        exact since_saveUser since
  unfold cmdNew
  infer_instance

instance (call : Text) (change : WPEntry → WPEntry) : Keeps (Since login) (editWp node call change) := by
  unfold editWp
  infer_instance

theorem since_setProfile {field : Text} {value : User → Text} {shorten : Text → Text}
    {assign : User → Text → User} {args : Text} {publish : User → Talk Unit}
    (harmless : ∀ user value, (assign user value).lastLoginAt = user.lastLoginAt)
    [∀ user, Keeps (Since login) (publish user)] :
    Keeps (Since login) (setProfile node field value (setField shorten assign) args publish) := by
  unfold setProfile
  refine since_me fun user since => ?_
  have changed (answer : Text) : Keeps (Since login)
      ((setField shorten assign args answer user).elim (pure ()) fun written => do
        saveUser written
        publish written
        say node "profile.set" [("field", .text field), ("value", .text (value written))]) := by
    refine since_change since fun written same => ?_
    obtain ⟨value, rfl⟩ := setField_written same
    exact harmless user value
  infer_instance

instance : Keeps (Since login) cmdExpertToggle := by
  unfold cmdExpertToggle
  refine since_me fun user since => since_change since fun written changed => ?_
  cases changed
  rfl

instance (label : Text) : Keeps (Since login) (askHidden node label) := by
  unfold askHidden
  infer_instance

instance : Keeps (Since login) (changePassword node) := by
  unfold changePassword
  refine since_me fun user since => ?_
  have saved (passwordHash : Text) : Keeps (Since login) (saveUser { user with passwordHash }) :=
    since_saveUser since
  infer_instance

instance (args : Text) : Keeps (Since login) (cmdOptions node args) := by
  unfold cmdOptions
  refine since_me fun user since => ?_
  have set (param value : Text) : Keeps (Since login) (setOption node param value user) := by
    have written : Keeps (Since login) (setUserPref user.call "cols" value) := since_modify fun _ => rfl
    have changed : Keeps (Since login)
        ((Command.setOption param value user).elim (say node "options.invalid" []) fun written => do
          saveUser written
          say node "options.changed" []) := by
      refine since_change since fun written same => ?_
      obtain ⟨_, _, _, _, rfl⟩ := setOption_written same
      rfl
    unfold setOption
    infer_instance
  have shown : Keeps (Since login) (showOptions node user) := by
    unfold showOptions
    infer_instance
  infer_instance

instance (number : Int) (msg : Row) : Keeps (Since login) (messageText node number msg) := by
  unfold messageText
  infer_instance

instance (number : Int) : Keeps (Since login) (readOne node number) := by
  unfold readOne showMessage
  infer_instance

instance (limit : Int) (left : Nat) (lines : List Text) :
    Keeps (Since login) (composeBody node limit left lines) := by
  induction left generalizing lines with
  | zero =>
      unfold composeBody
      infer_instance
  | succ left ih =>
      unfold composeBody
      infer_instance

instance (msgType toCall atBbs subject text : Text) :
    Keeps (Since login) (newMessage node msgType toCall atBbs subject text) := by
  unfold newMessage
  infer_instance

instance (msgType toCall atBbs subject : Text) :
    Keeps (Since login) (composeText node msgType toCall atBbs subject) := by
  have stored (lines : Option (List Text)) : Keeps (Since login)
      (match lines with
      | none => pure ()
      | some lines => do
          let msg ← newMessage node msgType toCall atBbs subject (['\n'].intercalate lines)
          let id ← insertMessage node msg
          say node "send.saved" [("id", .number id)]) := by
    cases lines <;> infer_instance
  unfold composeText
  infer_instance

instance (toArg msgType given : Text) : Keeps (Since login) (compose node toArg msgType given) := by
  unfold compose argumentOr askRoute askSubject
  infer_instance

instance (number : Int) : Keeps (Since login) (killOne node number) := by
  unfold killOne
  infer_instance

instance (other : Text) : Keeps (Since login) (wpLookup node other) := by
  unfold wpLookup
  infer_instance

instance (search privilege : Option Text) (limit : Int) :
    Keeps (Since login) (listUsers search privilege limit) := by
  unfold listUsers
  infer_instance

instance {Result : Type} (transfer : Nat → List Text → Option Result × List Output × List Text) :
    Keeps (Since login) (takeOver transfer) := by
  have taken (sent : List Output) (unread : List Text) : Keeps (Since login)
      (modify fun console : Console => { console with unread, sent := console.sent ++ sent }) :=
    since_modify fun _ => rfl
  unfold takeOver
  infer_instance

instance (filename area : Text) : Keeps (Since login) (incrementDownloads filename area) :=
  since_modify fun _ => rfl

instance (entry : FileEntry) : Keeps (Since login) (upsertFileEntry entry) := since_modify fun _ => rfl

instance (filename : Text) (data : Bytes) : Keeps (Since login) (writeFile node filename data) := by
  have written : Keeps (Since login) (modify fun console : Console =>
      { console with
        disk := fun area name =>
          if area = [] ∧ name = filename then some data else console.disk area name }) :=
    since_modify fun _ => rfl
  unfold writeFile
  infer_instance

instance (conference : Conference) (room other : Text) :
    Keeps (Since login) (enterRoom conference room other) := by
  have met (meeting : Text → Text → List Text → Outcome Unit × List Output × List Text) :
      Keeps (Since login) (Stateful.mk
        (fun _ console =>
          let (outcome, sent, unread) := meeting room other console.unread
          (outcome, { console with unread, sent := console.sent ++ sent }))
        (fun _ _ => rfl)) := ⟨fun _ _ begun => begun⟩
  unfold enterRoom
  infer_instance

instance (neighbor : Web.ForwardNeighborConfig) : Keeps (Since login) (runForward node neighbor) := by
  have replaced (database : Database) : Keeps (Since login)
      (modify fun console : Console => { console with database }) := since_modify fun _ => rfl
  have told (result : Except Text (Nat × Nat)) : Keeps (Since login)
      (match result with
      | .ok (sent, received) => do
          sendAll ["  ", neighbor.call, ": sent ", decimal sent, ", received ", decimal received, "\r\n"]
          return (sent, received)
      | .error reason => do
          sendAll ["  ", neighbor.call, ": failed — ", reason, "\r\n"]
          return (0, 0)) := by
    cases result <;> infer_instance
  unfold runForward
  infer_instance

instance (number : Int) (msg : Row) (subject done : Text) :
    Keeps (Since login) (rewriteBody node number msg subject done) := by
  unfold rewriteBody readBody
  infer_instance

instance (args : Text) : Keeps (Since login) (cmdKillBulk node args) := by
  have killed (msgs : List Row) : Keeps (Since login) (killAll msgs) := by
    unfold killAll
    infer_instance
  have chosen (bulk : Bulk) : Keeps (Since login)
      (match bulk with
      | .refused usage => send usage
      | .query query => do killAll (← listMessages query)
      | .bbs call => do
          let msgs ← listMessages {}
          killAll (msgs.filter fun msg => Text.upper msg.atBbs = call)) := by
    cases bulk <;> infer_instance
  unfold cmdKillBulk
  infer_instance

instance (label current : Text) : Keeps (Since login) (promptFor node label current) := by
  unfold promptFor
  infer_instance

set_option synthInstance.maxSize 512 in
instance (args : Text) : Keeps (Since login) (cmdUserEdit node args) := by
  unfold cmdUserEdit withUser
  infer_instance

instance (filename : Text) (data : Bytes) : Keeps (Since login) (sendStored node filename data) := by
  unfold sendStored
  infer_instance

instance (args : Text) (handler : Handler) : Keeps (Since login) (perform node args handler) := by
  cases handler with
  | nh | nl | nq | nz | nb => exact since_setProfile fun _ _ => rfl
  | copyMessage =>
      unfold perform cmdCopyMessage
      infer_instance
  | _ =>
      dsimp only [perform, cmdHelp, cmdVersion, cmdInfo, cmdWp, cmdReadAll, cmdList, cmdListNewLogin,
        cmdListReverse, cmdListLast, cmdListMine, cmdListBulletins, cmdListNts, cmdListHeld, cmdListKilled,
        cmdListForwarded, cmdListRead, cmdListWw, cmdListSearch, cmdListDate, cmdListFrom, cmdRead,
        cmdReply, cmdSendPrivate, cmdSendBulletin, cmdSendNts, cmdKill, cmdKillMine, cmdMsgStatus,
        cmdForward, cmdForwardList, cmdForwardPath, cmdForwardDrop, cmdEditBody, cmdEditTerminal, cmdMove,
        cmdSysopHold, cmdSysopRelease, cmdDatetime, cmdStats, cmdWhoami, cmdBbsList, cmdWho, cmdHeard,
        cmdWpSearch, cmdUsers, cmdUserDetail, cmdSysopList, cmdWpDetail, cmdWpEdit, cmdYappList,
        cmdYappGet, cmdYappUpload, cmdConference, cmdPageSysop, withEditable, withNumbered, changeStatus,
        withUser, countUsers, countWpEntries, searchWp, pageSysops, listFiles, getFileEntry, readFile]
      infer_instance

instance (line : Text) : Keeps (Since login) (dispatch node line) := by
  have served (route : Option (Handler × Text)) : Keeps (Since login)
      (route.elim (say node "error.unknown_cmd" []) fun (handler, args) => perform node args handler) := by
    cases route <;> dsimp only [Option.elim] <;> infer_instance
  have resolved (words : Option (Text × Text)) : Keeps (Since login)
      (words.elim Stateful.raise fun (verb, args) =>
        (resolve verb args).elim (say node "error.unknown_cmd" []) fun (handler, args) =>
          perform node args handler) := by
    cases words <;> dsimp only [Option.elim_none, Option.elim_some] <;> infer_instance
  unfold dispatch
  infer_instance

instance (line : Text) : Keeps (Since login) (answerLine node line) := by
  unfold answerLine
  infer_instance

end PyBulletin.Command.Engine
