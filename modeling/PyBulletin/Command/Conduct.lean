import PyBulletin.Command.Outlook

set_option autoImplicit false

namespace PyBulletin.Command.Engine

open PyBulletin.Foundation
open PyBulletin.Foundation.Stateful
open PyBulletin.Store
open PyBulletin.Session
open PyBulletin.Session.Outlook

variable {o : Outlook} {node : Node}

instance (parts : List Text) : Blind o.related (sendAll parts) := by
  unfold sendAll
  infer_instance

instance blind_ifCan (capability : Text) (serve : Talk Unit) [Blind o.related serve] :
    Blind o.related (ifCan node capability serve) := by
  unfold ifCan
  infer_instance

/-- The user is no sysop, whatever a sysop would get. -/
instance (serve : Talk Unit) : Blind o.related (ifSysop node serve) := by
  unfold ifSysop
  refine blind_me fun user own => ?_
  rw [if_neg (own.privilege_eq ▸ o.plain)]
  infer_instance

instance blind_withIds (usage args : Text) (serve : List Int → Talk Unit)
    [∀ ids, Blind o.related (serve ids)] :
    Blind o.related (withIds usage args serve) := by
  unfold withIds
  infer_instance

/-- A command that does not look at the body of the message it names. -/
theorem blind_withFirst {usage args : Text} {serve : Int → Row → Talk Unit}
    (same : ∀ number row body, serve number { row with body } = serve number row)
    (blind : ∀ number row, Blind o.related (serve number row)) :
    Blind o.related (withFirst node usage args serve) := by
  unfold withFirst
  refine @blind_withIds _ _ _ _ fun ids => ?_
  refine blind_getMessage inferInstance (fun row _ _ => blind _ row) fun row body _ _ => ?_
  change Twin _ Eq (serve (ids.headD 0) row) (serve (ids.headD 0) { row with body })
  rw [same _ row body]
  exact (blind _ row).twin

theorem formatListRow_veil (row : Row) : formatListRow node (o.veil row) = formatListRow node row := by
  obtain ⟨other, same⟩ := o.redacts row
  rw [same]
  rfl

theorem listText_veil (rows : List Row) :
    listText node (rows.map o.veil) = listText node rows := by
  simp only [listText, List.foldlM_map, formatListRow_veil, List.length_map]

theorem sendList_veil (rows : List Row) :
    sendList node (rows.map o.veil) = sendList node rows := by
  simp only [sendList, listText_veil, List.map_eq_nil_iff]

theorem ids_veil (rows : List Row) :
    ((rows.map o.veil).map fun row => (row.id : Int)) = rows.map fun row => (row.id : Int) := by
  rw [List.map_map]
  congr 1
  funext row
  rw [Function.comp_apply, (veil_keys row).1]

instance (row : Row) : Blind o.related (formatListRow node row) := by
  unfold formatListRow
  infer_instance

instance (rows : List Row) : Blind o.related (listText node rows) := by
  unfold listText
  infer_instance

instance (rows : List Row) : Blind o.related (sendList node rows) := by
  unfold sendList
  infer_instance

instance (query : MessageQuery) :
    Blind o.related (listMessages query >>= fun rows => sendList node rows) :=
  blind_listMessages sendList_veil inferInstance

instance (query : MessageQuery) : Blind o.related (cmdListOf node query) := by
  unfold cmdListOf
  infer_instance

instance (args : Text) : Blind o.related (cmdListLast node args) := by
  have reversed (query : MessageQuery) : Blind o.related
      (listMessages query >>= fun msgs => sendList node msgs.reverse) := by
    refine blind_listMessages (fun rows => ?_) inferInstance
    rw [← List.map_reverse, sendList_veil]
  unfold cmdListLast
  infer_instance

theorem unseen_veil (msgs others : List Row) :
    unseen (msgs.map o.veil) (others.map o.veil) =
      (unseen msgs others).map o.veil := by
  simp only [unseen, List.filter_map, List.all_map]
  congr 2
  funext row
  simp only [Function.comp_apply, (veil_keys row).1]
  congr 1
  funext msg
  rw [Function.comp_apply, (veil_keys msg).1]

instance (args : Text) : Blind o.related (cmdListSearch node args) := by
  have found (one two three : MessageQuery) : Blind o.related (do
      let msgs ← listMessages one
      let fromMsgs ← listMessages two
      let toMsgs ← listMessages three
      let found := msgs ++ unseen msgs fromMsgs
      let all := found ++ unseen found toMsgs
      sendList node (all.mergeSort fun first second => first.id ≤ second.id)) := by
    refine ⟨(o.listed one).bind fun msgs _ same => ?_⟩
    refine (o.listed two).bind fun fromMsgs _ same' => ?_
    refine (o.listed three).bind fun toMsgs _ same'' => ?_
    subst same same' same''
    have gathered (msgs fromMsgs toMsgs : List Row) :
        sendList node ((msgs.map o.veil ++
            unseen (msgs.map o.veil) (fromMsgs.map o.veil) ++
            unseen (msgs.map o.veil ++
              unseen (msgs.map o.veil) (fromMsgs.map o.veil))
                (toMsgs.map o.veil)).mergeSort fun first second => first.id ≤ second.id) =
          sendList node ((msgs ++ unseen msgs fromMsgs ++
            unseen (msgs ++ unseen msgs fromMsgs) toMsgs).mergeSort
              fun first second => first.id ≤ second.id) := by
      rw [unseen_veil, ← List.map_append, unseen_veil, ← List.map_append,
        ← List.map_mergeSort (fun first _ second _ => by
          rw [(veil_keys first).1, (veil_keys second).1]), sendList_veil]
    rw [gathered]
    exact Blind.twin
  unfold cmdListSearch
  infer_instance

/-- A profile command keeps the account. -/
theorem Own.written {call privilege : Text} {user written : User} (own : Own call privilege user)
    (same : Command.SameAccount user written) : Own call privilege written where
  call_eq := same.1.trans own.call_eq
  privilege_eq := same.2.1.trans own.privilege_eq

/-- What happens to the record after a change that keeps the account. -/
theorem blind_change {user : User} (own : Own o.call o.privilege user) {choice : Option User}
    (same : ∀ written, choice = some written → SameAccount user written) {nothing : Talk Unit}
    [Blind o.related nothing] {rest : User → Talk Unit}
    (blind : ∀ written, Own o.call o.privilege written → Blind o.related (rest written)) :
    Blind o.related (choice.elim nothing fun written => saveUser written >>= fun _ => rest written) := by
  cases choice with
  | none => assumption
  | some written =>
      have kept := Own.written own (same written rfl)
      have saved := o.saved kept
      have after := blind written kept
      exact Blind.bind

instance : Blind o.related (cmdNew node) := by
  unfold cmdNew
  have listed (query : MessageQuery) : Blind o.related
      (listMessages query >>= fun msgs =>
        if msgs = [] then say node "list.no_msgs" []
        else do
          sendPaged node (← listText node msgs)
          let user ← me
          (Command.cmdNew (msgs.map fun msg => (msg.id : Int)) user).elim (pure ()) saveUser) := by
    refine blind_listMessages (fun rows => ?_) fun rows => ?_
    · simp only [listText_veil, ids_veil, List.map_eq_nil_iff]
    · have advanced : Blind o.related (me >>= fun user =>
          (Command.cmdNew (rows.map fun msg => (msg.id : Int)) user).elim (pure ()) saveUser) := by
        refine blind_me fun user own => ?_
        cases changed : Command.cmdNew (rows.map fun msg => (msg.id : Int)) user with
        | none => exact Blind.pure
        | some written => exact o.saved (Own.written own (cmdNew_sameAccount changed))
      infer_instance
  infer_instance

theorem blind_setProfile {field : Text} {value : User → Text} {shorten : Text → Text}
    {assign : User → Text → User} {args : Text} {publish : User → Talk Unit}
    (harmless : ∀ user value, SameAccount user (assign user value))
    (blind : ∀ user, Own o.call o.privilege user → Blind o.related (publish user)) :
    Blind o.related (setProfile node field value (setField shorten assign) args publish) := by
  unfold setProfile
  refine blind_me fun user own => ?_
  have changed (answer : Text) : Blind o.related
      ((setField shorten assign args answer user).elim (pure ()) fun written => do
        saveUser written
        publish written
        say node "profile.set" [("field", .text field), ("value", .text (value written))]) := by
    refine blind_change own (fun _ same => setField_sameAccount same harmless) fun written kept => ?_
    have published := blind written kept
    infer_instance
  infer_instance

/-- A user writes to the white pages under the own call. -/
theorem blind_editWp {user : User} (own : Own o.call o.privilege user) {change : WPEntry → WPEntry}
    (same : ∀ entry, (change entry).call = entry.call) :
    Blind o.related (editWp node user.call change) := by
  have edited (date : DateTime) : Blind o.related (getWpEntry user.call >>= fun entry =>
      upsertWpEntry (change (entry.getD
        { call := user.call, homeBbs := [], name := [], updatedAt := date, sourceBbs := [] }))) := by
    have looked : Bodiless fun console => console.database.getWpEntry user.call := fun _ _ _ => rfl
    refine ⟨(o.viewed looked).bind fun entry other found => ?_⟩
    obtain ⟨same', console, found⟩ := found
    subst same'
    refine (o.published ?_).twin
    rw [same]
    cases other with
    | none => exact congrArg Text.upper own.call_eq
    | some entry =>
        have named : entry.call = Text.upper user.call := by simpa using List.find?_some found
        rw [Option.getD_some, named, Text.upper_upper, own.call_eq]
  unfold editWp
  infer_instance

instance : Blind o.related cmdExpertToggle := by
  unfold cmdExpertToggle
  refine blind_me fun user own => ?_
  refine blind_change own (fun written changed => ?_) fun _ _ => inferInstance
  cases changed
  exact ⟨rfl, rfl, rfl⟩

instance (label : Text) : Blind o.related (askHidden node label) := by
  unfold askHidden
  infer_instance

instance : Blind o.related (changePassword node) := by
  unfold changePassword
  refine blind_me fun user own => ?_
  have saved (passwordHash : Text) : Blind o.related (saveUser { user with passwordHash }) :=
    o.saved ⟨own.call_eq, own.privilege_eq⟩
  infer_instance

instance (call' key value : Text) : Blind o.related (setUserPref call' key value) :=
  o.apart ⟨fun _ _ _ => rfl, fun _ _ => rfl⟩

theorem blind_setOption {param value : Text} {user : User} (own : Own o.call o.privilege user) :
    Blind o.related (setOption node param value user) := by
  have changed : Blind o.related
      ((Command.setOption param value user).elim (say node "options.invalid" []) fun written => do
        saveUser written
        say node "options.changed" []) :=
    blind_change own (fun _ same => setOption_sameAccount same) fun _ _ => inferInstance
  unfold setOption
  infer_instance

instance (args : Text) : Blind o.related (cmdOptions node args) := by
  unfold cmdOptions
  refine blind_me fun user own => ?_
  cases Text.splitWord args with
  | none =>
      change Blind _ (showOptions node user)
      unfold showOptions
      infer_instance
  | some words =>
      have set : Blind o.related
          (setOption node (Text.upper words.1) (Text.strip (words.2.getD [])) user) :=
        blind_setOption own
      exact Blind.ite

instance (number : Int) (msg : Row) : Blind o.related (messageText node number msg) := by
  unfold messageText
  infer_instance

/-- A private message that is shown is from the user or to the user. -/
theorem blind_showMessage {number : Int} {row : Row} (known : o.known number row)
    (parties : row.msgType = msgPrivate → row.fromCall = o.call ∨ row.toCall = o.call) :
    Blind o.related (showMessage node number row) := by
  unfold showMessage
  by_cases fresh : row.msgType = msgPrivate ∧ row.status = statusNew
  · have marked : Blind o.related (Session.me >>= fun user => now node >>= fun date =>
        updateMail number fun mail id => mail.markRead id user.call date) := by
      refine blind_me fun user own => ?_
      rw [own.call_eq]
      have written := o.marked known fresh.2 (parties fresh.1)
      infer_instance
    simp only [if_pos fresh]
    infer_instance
  · simp only [if_neg fresh]
    infer_instance

theorem parties_of_mayRead {user : User} {row : Row} (own : Own o.call o.privilege user)
    (allowed : mayRead user row) (isPrivate : row.msgType = msgPrivate) :
    row.fromCall = o.call ∨ row.toCall = o.call := by
  rcases allowed isPrivate with recipient | sender | sysop
  · exact .inr (recipient.symm.trans own.call_eq)
  · exact .inl (sender.symm.trans own.call_eq)
  · exact absurd (own.privilege_eq.symm.trans sysop) o.plain

/-- A hidden message is not for the user to read. -/
theorem not_mayRead {user : User} {row : Row} (hidden : Hidden o.call row)
    (own : Own o.call o.privilege user) : ¬ mayRead user row := fun allowed =>
  (parties_of_mayRead own allowed hidden.isPrivate).elim hidden.notFrom hidden.notTo

instance (number : Int) : Blind o.related (readOne node number) := by
  unfold readOne
  refine blind_getMessage inferInstance (fun row known _ => ?_) fun row body _ hidden => ?_
  · refine blind_me fun user own => ?_
    by_cases allowed : mayRead user row
    · have shown := @blind_showMessage o node number row known (parties_of_mayRead own allowed)
      simp only [if_pos allowed]
      infer_instance
    · simp only [if_neg allowed]
      infer_instance
  · refine o.me.bind fun user _ same => ?_
    rw [same.1]
    have shut : ¬ mayRead user { row with body } :=
      not_mayRead ⟨hidden.isPrivate, hidden.notFrom, hidden.notTo⟩ same.2
    simp only [if_neg (not_mayRead hidden same.2), if_neg shut]
    exact Blind.twin

instance : Blind o.related (cmdReadAll node) := by
  have listed (query : MessageQuery) : Blind o.related
      (listMessages query >>= fun msgs =>
        if msgs.map (fun msg => (msg.id : Int)) = [] then say node "list.no_msgs" []
        else (msgs.map fun msg => (msg.id : Int)).forM (readOne node)) :=
    blind_listMessages (fun rows => by simp only [ids_veil]) inferInstance
  unfold cmdReadAll
  infer_instance

instance (limit : Int) (left : Nat) (lines : List Text) :
    Blind o.related (composeBody node limit left lines) := by
  induction left generalizing lines with
  | zero =>
      unfold composeBody
      infer_instance
  | succ left ih =>
      unfold composeBody
      infer_instance

instance (msgType toCall atBbs subject text : Text) :
    Blind o.related (newMessage node msgType toCall atBbs subject text) := by
  unfold newMessage
  infer_instance

instance (msgType toCall atBbs subject : Text) :
    Blind o.related (composeText node msgType toCall atBbs subject) := by
  have stored (lines : Option (List Text)) : Blind o.related
      (match lines with
      | none => pure ()
      | some lines => do
          let msg ← newMessage node msgType toCall atBbs subject (['\n'].intercalate lines)
          let id ← insertMessage node msg
          say node "send.saved" [("id", .number id)]) := by
    cases lines with
    | none => exact Blind.pure
    | some lines => infer_instance
  unfold composeText
  infer_instance

instance (key args : Text) : Blind o.related (argumentOr node key args) := by
  unfold argumentOr
  infer_instance

instance (msgType : Text) : Blind o.related (askRoute node msgType) := by
  unfold askRoute
  infer_instance

instance (given : Text) : Blind o.related (askSubject node given) := by
  unfold askSubject
  infer_instance

instance (toArg msgType given : Text) : Blind o.related (compose node toArg msgType given) := by
  unfold compose
  infer_instance

instance (args : Text) : Blind o.related (cmdReply node args) := by
  unfold cmdReply
  have replied : Blind o.related (withFirst node "\r\n  Usage: RP <msg#>\r\n" args
      fun _ msg => compose node msg.fromCall msgPrivate (replySubject msg.subject)) :=
    blind_withFirst (fun _ _ _ => rfl) inferInstance
  infer_instance

theorem blind_kill {number : Int} {row : Row} (known : o.known number row) :
    Blind o.related (Session.me >>= fun user =>
      if row.status = statusHeld then say node "kill.held" [("id", .number number)]
      else if mayKill user row then
        updateMail number BBSStore.killMessage >>= fun _ =>
          say node "kill.ok" [("id", .number number)]
      else say node "kill.not_yours" []) := by
  refine blind_me fun user own => ?_
  by_cases held : row.status = statusHeld
  · rw [if_pos held]
    infer_instance
  rw [if_neg held]
  by_cases allowed : mayKill user row
  · have parties : row.fromCall = o.call ∨ row.toCall = o.call := by
      rcases allowed with sender | recipient | sysop
      · exact .inl (sender.symm.trans own.call_eq)
      · exact .inr (recipient.symm.trans own.call_eq)
      · exact absurd (own.privilege_eq.symm.trans sysop) o.plain
    have killed := o.killed known held parties
    rw [if_pos allowed]
    infer_instance
  · rw [if_neg allowed]
    infer_instance

instance (number : Int) : Blind o.related (killOne node number) := by
  unfold killOne
  exact blind_getMessage inferInstance (fun row known _ => blind_kill known)
    fun row _ known _ => (blind_kill known).twin

instance : Blind o.related (cmdKillMine node) := by
  have listed (query : MessageQuery) : Blind o.related
      (listMessages query >>= fun msgs =>
        if msgs.map (fun msg => (msg.id : Int)) = [] then say node "list.no_msgs" []
        else (msgs.map fun msg => (msg.id : Int)).forM (killOne node)) :=
    blind_listMessages (fun rows => by simp only [ids_veil]) inferInstance
  unfold cmdKillMine
  infer_instance

instance : Blind o.related countUsers := view fun _ _ _ => rfl

instance : Blind o.related countWpEntries := view fun _ _ _ => rfl

instance (term : Text) : Blind o.related (searchWp term) := view fun _ _ _ => rfl

instance (other : Text) : Blind o.related (wpLookup node other) := by
  unfold wpLookup
  infer_instance

instance (search privilege : Option Text) (limit : Int) :
    Blind o.related (listUsers search privilege limit) := by
  have listed : Blind o.related
      (get fun console => console.database.users.listUsers search privilege limit) :=
    view fun _ _ _ => rfl
  unfold listUsers
  infer_instance

instance (user : User) : Blind o.related (pageSysops node user) := by
  unfold pageSysops
  infer_instance

instance (area : Option Text) : Blind o.related (listFiles area) := view fun _ _ _ => rfl

instance {Result : Type} (transfer : Nat → List Text → Option Result × List Output × List Text) :
    Blind o.related (takeOver transfer) := by
  have taken (sent : List Output) (unread : List Text) : Blind o.related
      (modify fun console : Console => { console with unread, sent := console.sent ++ sent }) :=
    o.apart ⟨fun _ _ _ => rfl, fun _ _ => rfl⟩
  unfold takeOver
  infer_instance

instance (filename area : Text) : Blind o.related (incrementDownloads filename area) :=
  o.apart ⟨fun _ _ _ => rfl, fun _ _ => rfl⟩

instance (entry : FileEntry) : Blind o.related (upsertFileEntry entry) :=
  o.apart ⟨fun _ _ _ => rfl, fun _ _ => rfl⟩

instance (filename : Text) (data : Bytes) : Blind o.related (writeFile node filename data) := by
  have written : Blind o.related (modify fun console : Console =>
      { console with
        disk := fun area name =>
          if area = [] ∧ name = filename then some data else console.disk area name }) :=
    o.apart ⟨fun _ _ _ => rfl, fun _ _ => rfl⟩
  unfold writeFile
  infer_instance

instance (filename : Text) : Blind o.related (getFileEntry filename) := view fun _ _ _ => rfl

instance (filename : Text) : Blind o.related (readFile filename) := view fun _ _ _ => rfl

instance (conference : Conference) (room other : Text) :
    Blind o.related (enterRoom conference room other) := by
  have met (meeting : Text → Text → List Text → Outcome Unit × List Output × List Text) :
      Blind o.related (Stateful.mk
        (fun _ console =>
          let (outcome, sent, unread) := meeting room other console.unread
          (outcome, { console with unread, sent := console.sent ++ sent }))
        (fun _ _ => rfl)) := by
    exact o.apart ⟨fun _ _ _ => rfl, fun _ _ => rfl⟩
  unfold enterRoom
  infer_instance

instance (args : Text) : Blind o.related (cmdMsgStatus node args) := by
  unfold cmdMsgStatus
  exact blind_withFirst (fun _ _ _ => rfl) inferInstance

instance (filename : Text) (data : Bytes) : Blind o.related (sendStored node filename data) := by
  unfold sendStored
  infer_instance

/-- The number of the message that a line copies. -/
def copied (line : Text) : Option Int := do
  let (verb, args) ← verbOf line
  let (handler, args) ← resolve verb args
  if handler = .copyMessage then (numberAnd args).map Prod.fst else none

/-- `SC` copies a body, so it goes the same way on messages whose bodies are not veiled. -/
theorem blind_copyMessage {args : Text}
    (clear : ∀ number rest row, numberAnd args = some (number, rest) → o.known number row →
      o.veil row = row) : Blind o.related (cmdCopyMessage node args) := by
  unfold cmdCopyMessage
  refine @blind_ifCan _ _ _ _ ?_
  cases given : numberAnd args with
  | none => exact inferInstanceAs (Blind o.related (send copyUsage))
  | some words =>
      obtain ⟨number, rest⟩ := words
      refine ⟨(o.looked number).bind fun found other same => ?_⟩
      obtain ⟨rfl, known⟩ := same
      cases found with
      | none => exact Blind.twin
      | some row =>
          have same : o.veil row = row := clear number rest row given (known row rfl)
          rw [Option.map_some, same]
          exact Blind.twin

/-- A command goes the same way whatever hidden messages say, if it copies none of them. -/
theorem perform_blind {handler : Handler} {args : Text}
    (clear : handler = .copyMessage → ∀ number rest row, numberAnd args = some (number, rest) →
      o.known number row → o.veil row = row) : Blind o.related (perform node args handler) := by
  cases handler with
  | copyMessage => exact blind_copyMessage (clear rfl)
  | nh => exact blind_setProfile (fun _ _ => ⟨rfl, rfl, rfl⟩) fun _ own => blind_editWp own fun _ => rfl
  | nb => exact blind_setProfile (fun _ _ => ⟨rfl, rfl, rfl⟩) fun _ own => blind_editWp own fun _ => rfl
  | nl => exact blind_setProfile (fun _ _ => ⟨rfl, rfl, rfl⟩) fun _ _ => inferInstance
  | nq => exact blind_setProfile (fun _ _ => ⟨rfl, rfl, rfl⟩) fun _ _ => inferInstance
  | nz => exact blind_setProfile (fun _ _ => ⟨rfl, rfl, rfl⟩) fun _ _ => inferInstance
  | _ =>
      dsimp only [perform, cmdHelp, cmdVersion, cmdInfo, cmdWp, cmdList, cmdListNewLogin, cmdListReverse,
        cmdListMine, cmdListBulletins, cmdListNts, cmdListHeld, cmdListKilled, cmdListForwarded,
        cmdListRead, cmdListWw, cmdListDate, cmdListFrom, cmdRead, cmdSendPrivate, cmdSendBulletin,
        cmdSendNts, cmdKill, cmdKillBulk, cmdForward, cmdForwardList, cmdForwardPath, cmdForwardDrop,
        cmdEditBody, cmdEditTerminal, cmdMove, cmdSysopHold, cmdSysopRelease, cmdDatetime, cmdStats,
        cmdWhoami, cmdBbsList, cmdWho, cmdHeard, cmdWpSearch, cmdUsers, cmdUserDetail, cmdSysopList,
        cmdUserEdit, cmdWpDetail, cmdWpEdit, cmdYappList, cmdYappGet, cmdYappUpload, cmdConference, cmdPageSysop,
        withEditable, withNumbered, changeStatus, withUser]
      infer_instance

theorem dispatch_blind {line : Text}
    (clear : ∀ number row, copied line = some number → o.known number row → o.veil row = row) :
    Blind o.related (dispatch node line) := by
  have served (words : Option (Text × Text)) (given : verbOf line = words) : Blind o.related
      (words.elim Stateful.raise fun (verb, args) =>
        (resolve verb args).elim (say node "error.unknown_cmd" []) fun (handler, args) =>
          perform node args handler) := by
    cases words with
    | none => exact Blind.raise
    | some words =>
        obtain ⟨verb, args⟩ := words
        dsimp only [Option.elim_some]
        cases found : resolve verb args with
        | none => exact inferInstanceAs (Blind o.related (say node "error.unknown_cmd" []))
        | some route =>
            obtain ⟨handler, args'⟩ := route
            refine perform_blind fun copying number rest row numbered => clear number row ?_
            have copies : handler = .copyMessage := copying
            have named : numberAnd args' = some (number, rest) := numbered
            simp [copied, given, found, copies, named]
  have found := served (verbOf line) rfl
  unfold dispatch
  infer_instance

theorem answerLine_blind {line : Text}
    (clear : ∀ number row, copied line = some number → o.known number row → o.veil row = row) :
    Blind o.related (answerLine node line) := by
  have dispatched := @dispatch_blind o node line clear
  unfold answerLine
  infer_instance

instance : Blind o.related (prompt node) := by
  unfold prompt
  infer_instance

end PyBulletin.Command.Engine
