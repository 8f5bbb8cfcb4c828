import PyBulletin.Command.Composing

set_option autoImplicit false

namespace PyBulletin.Command.Engine

open PyBulletin.Foundation
open PyBulletin.Foundation.Stateful
open PyBulletin.Store
open PyBulletin.Session
open PyBulletin.Web

/-- What is given, or else the answer to a prompt, with the lines behind it. -/
def answered (telnet : Bool) (given : Text) (unread : List Text) : Option (Text × List Text) :=
  if given = [] then (nextLine telnet unread).map fun (line, unread) => (Text.strip line, unread)
  else some (given, unread)

/-- The BBS of a private message, with the lines behind it. -/
def routed (telnet : Bool) (msgType : Text) (unread : List Text) : Option (Text × List Text) :=
  if msgType = msgPrivate then
    (nextLine telnet unread).map fun (line, unread) => (Text.upper (Text.strip line), unread)
  else some ([], unread)

/-- The lines behind those that `_compose` takes for its heading; `none` if it does not come to the
text. -/
def headed (telnet : Bool) (toArg msgType given : Text) (unread : List Text) : Option (List Text) :=
  (answered telnet (Text.strip toArg) unread).bind fun (toCall, unread) =>
    if Text.upper toCall = [] then none
    else
      (routed telnet msgType unread).bind fun (_, unread) =>
        (answered telnet given unread).bind fun (subject, unread) =>
          if subject = [] then none else some unread

/-- The commands that enter a text. -/
inductive SendCommand where
  | sendPrivate (args : Text)
  | sendBulletin (args : Text)
  | sendNts (args : Text)
  | reply (args : Text)

namespace SendCommand

def talk (node : Node) : SendCommand → Talk Unit
  | sendPrivate args => cmdSendPrivate node args
  | sendBulletin args => cmdSendBulletin node args
  | sendNts args => cmdSendNts node args
  | reply args => cmdReply node args

/-- The addressee, the type and the subject that the command gives to `_compose`. -/
def handed (mail : BBSStore) : SendCommand → Option (Text × Text × Text)
  | sendPrivate args => some (args, msgPrivate, [])
  | sendBulletin args => some (args, msgBulletin, [])
  | sendNts args => some (args, msgNts, [])
  | reply args =>
      (parseIdList args).head?.bind fun id =>
        if fitsColumn id ∧ 0 ≤ id then
          (mail.getMessage id.toNat).map fun msg => (msg.fromCall, msgPrivate, replySubject msg.subject)
        else none

/-- The lines that are left for the text, if the command comes to one. -/
def heading (node : Node) (console : Console) (command : SendCommand) : Option (List Text) :=
  (command.handed console.database.mail).bind fun (toArg, msgType, given) =>
    headed node.telnet toArg msgType given console.unread

/-- The lines of that text. -/
def entered (node : Node) (console : Console) (command : SendCommand) : Option (List Text) :=
  (command.heading node console).bind (typed node.telnet)

end SendCommand

section Heading

variable {node : Node} {console : Console}

/-- The computation asks the terminal and gives this answer, or waits for it. -/
def Answers (console : Console) (talk : Talk Text) (answer : Option (Text × List Text)) : Prop :=
  ∃ sent, ∀ fuel, talk.run fuel console =
    match answer with
    | some (text, unread) => (.returned text, { console with sent, unread })
    | none => (.pending, { console with sent })

/-- The computation comes to the text of a message with these lines unread, or stores nothing. -/
def Enters (node : Node) (console : Console) (talk : Talk Unit) : Option (List Text) → Prop
  | some unread => ∃ sent msgType toCall atBbs subject, ∀ fuel, talk.run fuel console =
      (composeText node msgType toCall atBbs subject).run fuel { console with sent, unread }
  | none => ∀ fuel, (talk.run fuel console).2.database.mail.messages = console.database.mail.messages

variable {talk : Talk Unit} {heading : Option (List Text)} {user : User}

theorem Enters.of_run {talk' : Talk Unit} (enters : Enters node console talk' heading)
    (same : ∀ fuel, talk.run fuel console = talk'.run fuel console) : Enters node console talk heading := by
  cases heading with
  | none =>
      intro fuel
      rw [same]
      exact enters fuel
  | some unread =>
      obtain ⟨sent, msgType, toCall, atBbs, subject, comes⟩ := enters
      exact ⟨sent, msgType, toCall, atBbs, subject, fun fuel => (same fuel).trans (comes fuel)⟩

theorem Answers.enters {ask : Talk Text} {answer : Option (Text × List Text)} {next : Text → Talk Unit}
    {heading : Text × List Text → Option (List Text)} (answers : Answers console ask answer)
    (follows : ∀ text unread sent,
      Enters node { console with sent, unread } (next text) (heading (text, unread))) :
    Enters node console (ask >>= next) (answer.bind heading) := by
  obtain ⟨sent, ran⟩ := answers
  cases answer with
  | none =>
      intro fuel
      rw [run_bind, ran]
      rfl
  | some found =>
      obtain ⟨text, unread⟩ := found
      have behind := follows text unread sent
      have same (fuel : Nat) : (ask >>= next).run fuel console =
          (next text).run fuel { console with sent, unread } := by
        rw [run_bind, ran]
        rfl
      rw [Option.bind_some]
      cases entry : heading (text, unread) with
      | none =>
          intro fuel
          rw [entry] at behind
          rw [same]
          exact behind fuel
      | some rest =>
          rw [entry] at behind
          obtain ⟨later, msgType, toCall, atBbs, subject, comes⟩ := behind
          exact ⟨later, msgType, toCall, atBbs, subject, fun fuel => (same fuel).trans (comes fuel)⟩

theorem enters_say (key : Text) (fields : List (Text × Session.Field)) :
    Enters node console (say node key fields) none := by
  have told : Keeps (fun later : Console =>
      later.database.mail.messages = console.database.mail.messages) (say node key fields) :=
    keeps_say fun _ _ begun => begun
  exact fun fuel => told.kept fuel console rfl

theorem Enters.ifCan (signedIn : console.user = some user) (enters : Enters node console talk heading) :
    Enters node console (Engine.ifCan node capSend talk) heading := by
  have allowed : accessAllowed user.call capSend = true := by
    rw [accessAllowed, show defaultAccessAllowed capSend = true by decide]
    simp
  refine enters.of_run fun fuel => ?_
  rw [Engine.ifCan, run_me signedIn, if_pos allowed]

section Prompted

variable (prompts : ∀ key, (node.strings key []).isSome)

include prompts

theorem answers_prompt (key : Text) (shape : Text → Text) :
    Answers console (do say node key []; return shape (← readline node))
      ((nextLine node.telnet console.unread).map fun (line, unread) => (shape line, unread)) := by
  obtain ⟨prompted, prompt⟩ := Option.isSome_iff_exists.mp (prompts key)
  refine ⟨console.sent ++ [.text prompted], fun fuel => ?_⟩
  rw [run_bind, run_prompt prompt]
  let asked : Console := { console with sent := console.sent ++ [.text prompted] }
  cases next : nextLine node.telnet console.unread with
  | some found => exact @run_readline node asked _ _ _ next _ fuel
  | none => exact @run_readline_waits node asked _ next _ fuel

theorem answers_argument (key args : Text) :
    Answers console (argumentOr node key args)
      (answered node.telnet (Text.strip args) console.unread) := by
  rw [argumentOr, answered]
  by_cases blank : Text.strip args = []
  · rw [if_pos blank, if_pos blank]
    exact answers_prompt prompts key Text.strip
  · rw [if_neg blank, if_neg blank]
    exact ⟨console.sent, fun _ => rfl⟩

theorem answers_route (msgType : Text) :
    Answers console (askRoute node msgType) (routed node.telnet msgType console.unread) := by
  rw [askRoute, routed]
  by_cases toBbs : msgType = msgPrivate
  · rw [if_pos toBbs, if_pos toBbs]
    exact answers_prompt prompts "send.enter_at" fun line => Text.upper (Text.strip line)
  · rw [if_neg toBbs, if_neg toBbs]
    exact ⟨console.sent, fun _ => rfl⟩

theorem answers_subject (given : Text) :
    Answers console (askSubject node given) (answered node.telnet given console.unread) := by
  rw [askSubject, answered]
  by_cases blank : given = []
  · rw [if_pos blank, if_pos blank]
    exact answers_prompt prompts "send.enter_subject" Text.strip
  · rw [if_neg blank, if_neg blank]
    exact ⟨_, fun _ => rfl⟩

theorem compose_enters (signedIn : console.user = some user) (toArg msgType given : Text) :
    Enters node console (compose node toArg msgType given)
      (headed node.telnet toArg msgType given console.unread) := by
  refine Enters.ifCan signedIn ((answers_argument prompts "send.enter_to" toArg).enters ?_)
  intro toCall unread sent
  dsimp only
  by_cases nobody : Text.upper toCall = []
  · rw [if_pos nobody, if_pos nobody]
    exact enters_say "error.aborted" []
  · rw [if_neg nobody, if_neg nobody]
    refine (answers_route prompts msgType).enters fun atBbs unread sent => ?_
    refine (answers_subject prompts given).enters fun subject unread sent => ?_
    dsimp only
    by_cases untitled : subject = []
    · rw [if_pos untitled, if_pos untitled]
      exact enters_say "error.aborted" []
    · rw [if_neg untitled, if_neg untitled]
      exact ⟨sent, _, _, _, _, fun _ => rfl⟩

/-- Every command that enters a text does so by `_compose`. -/
theorem SendCommand.enters (signedIn : console.user = some user) (command : SendCommand) :
    Enters node console (command.talk node) (command.heading node console) := by
  cases command with
  | sendPrivate args => exact compose_enters prompts signedIn args msgPrivate []
  | sendBulletin args => exact compose_enters prompts signedIn args msgBulletin []
  | sendNts args => exact compose_enters prompts signedIn args msgNts []
  | reply args =>
      refine Enters.ifCan signedIn ?_
      rw [withFirst, withIds, SendCommand.heading, SendCommand.handed]
      cases parseIdList args with
      | nil => exact fun _ => rfl
      | cons id ids =>
          rw [if_neg (List.cons_ne_nil id ids), List.head?_cons, List.headD_cons, Option.bind_some]
          by_cases fits : fitsColumn id
          · have found (next : Option Row → Talk Unit) (fuel : Nat) :
                (getMessage id >>= next).run fuel console =
                  (next (if 0 ≤ id then console.database.mail.getMessage id.toNat else none)).run fuel
                    console := by
              rw [run_bind, getMessage, guarded, if_pos fits]
              rfl
            by_cases natural : 0 ≤ id
            · rw [if_pos ⟨fits, natural⟩]
              simp only [natural, if_true] at found
              cases listed : console.database.mail.getMessage id.toNat with
              | some msg =>
                  rw [listed] at found
                  exact (compose_enters prompts signedIn msg.fromCall msgPrivate
                    (replySubject msg.subject)).of_run (found _)
              | none =>
                  rw [listed] at found
                  exact (enters_say "read.not_found" [("id", .number id)]).of_run (found _)
            · rw [if_neg fun within => natural within.2]
              simp only [natural, if_false] at found
              exact (enters_say "read.not_found" [("id", .number id)]).of_run (found _)
          · rw [if_neg fun within => fits within.1]
            intro fuel
            rw [run_bind, getMessage, guarded, if_neg fits]
            rfl

end Prompted

end Heading

section Entered

variable {node : Node} {console : Console} {msgType toCall atBbs subject : Text} {lines : List Text}
  {command : SendCommand}

theorem SendCommand.unsigned (signedIn : console.user = none) (command : SendCommand) (fuel : Nat) :
    ((command.talk node).run fuel console).2.database.mail.messages =
      console.database.mail.messages := by
  have raised (serve : Talk Unit) : ((ifCan node capSend serve).run fuel console).2 = console := by
    rw [ifCan, run_bind]
    change (following _ ((console.user.elim raise pure : Talk User).run fuel console)).2 = _
    rw [signedIn]
    rfl
  cases command with
  | sendPrivate args | sendBulletin args | sendNts args | reply args =>
      exact congrArg (fun after => after.database.mail.messages) (raised _)

section Prompted

variable (prompts : ∀ key, (node.strings key []).isSome)

include prompts

/-- Lines that come to no end are waited for, unless they are too long. -/
theorem composeText_waits (entry : typed node.telnet console.unread = none) (fuel : Nat) :
    ((composeText node msgType toCall atBbs subject).run fuel console).2.database.mail.messages =
      console.database.mail.messages := by
  obtain ⟨prompted, prompt⟩ := Option.isSome_iff_exists.mp (prompts "send.enter_body")
  obtain ⟨plain, waits, few⟩ := typed_none entry
  have supplied := @supplies_append node.telnet console.unread []
  rw [List.append_nil] at supplied
  obtain ⟨left, room⟩ := Nat.exists_eq_add_of_lt few
  by_cases long : console.unread ≠ [] ∧ node.config.maxMessageBodyBytes < bytesOf console.unread
  · obtain ⟨_, later, -, -, -, ran⟩ :=
      @composeBody_tooLarge node console _ _ [] _ supplied plain long.1 long.2 (left + 1)
    rw [← Nat.add_assoc, ← room] at ran
    exact (refuses_composeText prompt ran).same fuel
  · have fits : console.unread = [] ∨
        (bytesOf ([] ++ console.unread) : Int) ≤ node.config.maxMessageBodyBytes := by
      rw [List.nil_append, ← Int.not_lt]
      exact not_and_or.mp long |>.imp_left Classical.not_not.mp
    have ended : nextLine node.telnet [] = none := by
      rw [nextLine, waits]
      rfl
    have waited (sent : List Output) :
        (composeBody node node.config.maxMessageBodyBytes maxBodyLines []).run fuel { console with sent } =
          (.pending, { console with sent, unread := [] }) := by
      rw [room, Nat.add_assoc]
      exact (@composeBody_ahead node { console with sent } _ _ _ _ supplied plain fits (left + 1) fuel).trans
        (@run_readline_waits node { console with sent, unread := [] } _ ended _ fuel)
    rw [run_composeText prompt, waited]
    rfl

/-- A command stores nothing but a text that its loop has counted and found short enough. -/
theorem SendCommand.messages_cases (command : SendCommand) (fuel : Nat) :
    let after := ((command.talk node).run fuel console).2
    after.database.mail.messages = console.database.mail.messages ∨
      Storable node console ∧ ∃ lines ∈ command.entered node console,
        (lines = [] ∨ bytesOf lines ≤ node.config.maxMessageBodyBytes) ∧
        Gains console.database.mail after.database.mail (['\n'].intercalate lines) := by
  cases signedIn : console.user with
  | none => exact .inl (command.unsigned signedIn fuel)
  | some user =>
      have enters := SendCommand.enters prompts signedIn command
      cases come : command.heading node console with
      | none =>
          rw [come] at enters
          exact .inl (enters fuel)
      | some unread =>
          rw [come] at enters
          obtain ⟨sent, msgType, toCall, atBbs, subject, ran⟩ := enters
          dsimp only
          rw [ran]
          cases entry : typed node.telnet unread with
          | none => exact .inl (@composeText_waits node { console with sent, unread } _ _ _ _ prompts entry fuel)
          | some lines =>
              obtain ⟨prompted, prompt⟩ := Option.isSome_iff_exists.mp (prompts "send.enter_body")
              have taken : command.entered node console = some lines := by
                rw [SendCommand.entered, come]
                exact entry
              by_cases fits : lines = [] ∨ (bytesOf lines : Int) ≤ node.config.maxMessageBodyBytes
              · have takes := @composeText_takes node { console with sent, unread } msgType toCall atBbs
                  subject prompted lines prompt entry fits
                exact (takes.sound fuel).imp_right fun ⟨storable, gains⟩ =>
                  ⟨storable, lines, taken, fits, gains⟩
              · obtain ⟨some_, long⟩ := not_or.mp fits
                obtain ⟨_, _, -, -, refused⟩ := @composeText_refuses node { console with sent, unread } msgType
                  toCall atBbs subject prompted lines prompt entry some_ (Int.not_le.mp long)
                exact .inl (refused.same fuel)

theorem SendCommand.stores (storable : Storable node console) (entry : command.entered node console = some lines)
    (fits : lines = [] ∨ bytesOf lines ≤ node.config.maxMessageBodyBytes) :
    ∃ fuel, Gains console.database.mail ((command.talk node).run fuel console).2.database.mail
      (['\n'].intercalate lines) := by
  obtain ⟨user, signedIn, -⟩ := id storable
  have enters := SendCommand.enters prompts signedIn command
  obtain ⟨unread, come, entry⟩ := Option.bind_eq_some_iff.mp entry
  rw [come] at enters
  obtain ⟨sent, msgType, toCall, atBbs, subject, ran⟩ := enters
  obtain ⟨prompted, prompt⟩ := Option.isSome_iff_exists.mp (prompts "send.enter_body")
  have takes := @composeText_takes node { console with sent, unread } msgType toCall atBbs subject prompted
    lines prompt entry fits
  simp only [ran]
  exact takes.stores storable

end Prompted

end Entered

section Sizes

variable {limit : Int} {before after : BBSStore} {text : Text} {lines : List Text}

/-- What is new in the store is within the limit. -/
def Bounded (limit : Int) (before after : BBSStore) : Prop :=
  ∀ row ∈ after.messages, row ∉ before.messages → (row.size : Int) ≤ limit

theorem bounded_same (same : after.messages = before.messages) : Bounded limit before after :=
  fun _ listed new => absurd (same ▸ listed) new

theorem Gains.size_le_iff (gains : Gains before after text) :
    Bounded limit before after ↔ (BBSStore.utf8Length text : Int) ≤ limit := by
  obtain ⟨row, -, size, rows⟩ := gains
  rw [← size]
  constructor
  · intro bounded
    refine bounded row (by rw [rows]; exact List.mem_append_right _ (List.mem_singleton_self row)) ?_
    intro old
    have ordered := after.ordered
    rw [rows] at ordered
    exact Nat.lt_irrefl _ ((List.pairwise_append.mp ordered).2.2 row old row (List.mem_singleton_self row))
  · intro fits new listed fresh
    rw [rows] at listed
    rcases List.mem_append.mp listed with old | last
    · exact absurd old fresh
    · rwa [List.mem_singleton.mp last]

theorem gains_of_inserted {msg : Store.Message} {id : Option Nat} (fresh : before.hasBid msg.bid = false)
    (inserted : before.insertMessage msg statusNew = (after, id)) : Gains before after msg.body := by
  obtain ⟨mail, rows, -, did⟩ := BBSStore.insertMessage_fresh statusNew fresh
  rw [did] at inserted
  cases inserted
  exact ⟨_, rfl, rfl, rows⟩

theorem bounded_inserted {msg : Store.Message} {id : Option Nat}
    (fits : (BBSStore.utf8Length msg.body : Int) ≤ limit)
    (inserted : before.insertMessage msg statusNew = (after, id)) : Bounded limit before after := by
  by_cases fresh : before.hasBid msg.bid = false
  · exact (gains_of_inserted fresh inserted).size_le_iff.mpr fits
  · rw [BBSStore.insertMessage, dif_neg fresh] at inserted
    cases inserted
    exact bounded_same rfl

/-- The joined lines have one byte more for every line but the last. -/
theorem utf8Length_joined (lines : List Text) :
    BBSStore.utf8Length (['\n'].intercalate lines) = bytesOf lines + (lines.length - 1) := by
  induction lines with
  | nil => rfl
  | cons line lines ih =>
      cases lines with
      | nil => simp [BBSStore.utf8Length]
      | cons next lines =>
          rw [List.intercalate_cons_cons, BBSStore.utf8Length, List.map_append, List.map_append,
            List.sum_append, List.sum_append]
          change BBSStore.utf8Length line + 1 + BBSStore.utf8Length (['\n'].intercalate (next :: lines)) = _
          simp only [ih, bytesOf_cons, List.length_cons]
          omega

end Sizes

/-- A request to `/api/messages` with this text and with all else that it needs. -/
structure Post (text : Text) where
  python : Library
  world : World
  app : WebApp
  session : WebSession
  req : HTTPRequest
  fields : List (Text × Json)
  parsed : python.dictionary req "Invalid JSON" false = .ok fields
  body : python.field fields "body" "" = text
  addressed : python.upper (Text.strip (python.field fields "to" "")) ≠ []
  titled : Text.strip (python.field fields "subject" "") ≠ []
  fresh : app.database.mail.hasBid world.bid = false

namespace Post

variable {text : Text} (post : Post text)

def before : BBSStore := post.app.database.mail

def after : BBSStore :=
  (WebApp.sendMessage post.python post.world post.app post.req (some post.session)).1.database.mail

theorem gains_iff : Gains post.before post.after text ↔
    (BBSStore.utf8Length text : Int) ≤ post.app.config.maxMessageBodyBytes := by
  have complete : ¬ (post.python.upper (Text.strip (post.python.field post.fields "to" "")) = [] ∨
      Text.strip (post.python.field post.fields "subject" "") = []) :=
    not_or.mpr ⟨post.addressed, post.titled⟩
  rw [after, WebApp.sendMessage, WebApp.asUser, WebApp.withFields]
  simp only [post.parsed, if_neg complete, post.body]
  by_cases long : post.app.config.maxMessageBodyBytes < BBSStore.utf8Length text
  · rw [if_pos long]
    exact iff_of_false (fun gains => gains.ne rfl) (Int.not_le.mpr long)
  · rw [if_neg long]
    refine iff_of_true ?_ (Int.not_lt.mp long)
    split
    · rename_i mail inserted
      exact gains_of_inserted post.fresh inserted
    · rename_i mail id inserted
      exact gains_of_inserted post.fresh inserted

end Post

def plainPost (limit : Int) (text : Text) : Post text where
  python := {
    loads _ := .value (.object [("to", .string "W1AW"), ("subject", .string "Hello"), ("body", .string text)])
    parseQsl _ := []
    isDecimal := Char.isDigit
    int := Text.parseInt
    repr _ := ""
    isTrue _ := true
    upper := Text.upper
    capital := Text.upper_upper }
  world := Authority.still 0
  app := { Authority.oneSysop with
    config := { Authority.oneSysop.config with maxMessageBodyBytes := limit } }
  session := .opened "token" "W1AW" privUser 0
  req := Authority.post "/api/messages" [] ""
  fields := [("to", .string "W1AW"), ("subject", .string "Hello"), ("body", .string text)]
  parsed := rfl
  body := rfl
  addressed := (by decide : Text.upper (Text.strip "W1AW") ≠ [])
  titled := (by decide : Text.strip "Hello" ≠ [])
  fresh := rfl

/-- The web accepts the text under this limit. -/
def WebAccepts (limit : Int) (text : Text) : Prop :=
  ∀ post : Post text, post.app.config.maxMessageBodyBytes = limit → Gains post.before post.after text

theorem webAccepts_iff {limit : Int} {text : Text} :
    WebAccepts limit text ↔ (BBSStore.utf8Length text : Int) ≤ limit := by
  constructor
  · intro accepts
    exact (plainPost limit text).gains_iff.mp (accepts (plainPost limit text) rfl)
  · intro fits post same
    exact post.gains_iff.mpr (same ▸ fits)

theorem sendMessage_bounded (python : Library) (world : World) (app : WebApp) (req : HTTPRequest)
    (session : Option WebSession) :
    Bounded app.config.maxMessageBodyBytes app.database.mail
      (WebApp.sendMessage python world app req session).1.database.mail := by
  cases session with
  | none => exact bounded_same rfl
  | some session =>
      rw [WebApp.sendMessage, WebApp.asUser, WebApp.withFields]
      cases python.dictionary req "Invalid JSON" false with
      | error outcome => exact bounded_same rfl
      | ok fields =>
          dsimp only
          split
          · exact bounded_same rfl
          · split
            · exact bounded_same rfl
            · rename_i long
              split
              · rename_i mail inserted
                exact bounded_inserted (Int.not_lt.mp long) inserted
              · rename_i mail id inserted
                exact bounded_inserted (Int.not_lt.mp long) inserted

/-- No message that comes in by the command or by a request has a body over the limit, and what the
command takes for a text is stored exactly if the web accepts it. -/
structure LimitHeld (node : Node) (console : Console) (command : SendCommand) : Prop where
  terminal : ∀ fuel, Bounded node.config.maxMessageBodyBytes console.database.mail
    ((command.talk node).run fuel console).2.database.mail
  web : ∀ python world app req session,
    app.config.maxMessageBodyBytes = node.config.maxMessageBodyBytes →
    Bounded node.config.maxMessageBodyBytes app.database.mail
      (WebApp.sendMessage python world app req session).1.database.mail
  agree : Storable node console → ∀ lines ∈ command.entered node console,
    (∃ fuel, Gains console.database.mail ((command.talk node).run fuel console).2.database.mail
      (['\n'].intercalate lines)) ↔
    WebAccepts node.config.maxMessageBodyBytes (['\n'].intercalate lines)

/-- The lines of the text are too long by themselves, or short enough with what joins them. -/
def FarFromLimit (node : Node) (console : Console) (command : SendCommand) : Prop :=
  Storable node console → ∀ lines ∈ command.entered node console,
    lines ≠ [] ∧ node.config.maxMessageBodyBytes < bytesOf lines ∨
      (bytesOf lines + (lines.length - 1) : Nat) ≤ node.config.maxMessageBodyBytes

theorem limit_held_iff (node : Node) (console : Console) (command : SendCommand)
    (prompts : ∀ key, (node.strings key []).isSome) :
    LimitHeld node console command ↔ FarFromLimit node console command := by
  constructor
  · intro held storable lines entry
    by_contra near
    obtain ⟨short, long⟩ := not_or.mp near
    have fits : lines = [] ∨ (bytesOf lines : Int) ≤ node.config.maxMessageBodyBytes := by
      by_cases none_ : lines = []
      · exact .inl none_
      · exact .inr (Int.not_lt.mp fun exceeds => short ⟨none_, exceeds⟩)
    obtain ⟨fuel, gains⟩ := SendCommand.stores prompts storable entry fits
    rw [← utf8Length_joined] at long
    exact long (gains.size_le_iff.mp (held.terminal fuel))
  · intro far
    constructor
    · intro fuel
      rcases SendCommand.messages_cases prompts command fuel with same | ⟨storable, lines, entry, fits, gains⟩
      · exact bounded_same same
      · rw [gains.size_le_iff, utf8Length_joined]
        rcases far storable lines entry with ⟨some_, exceeds⟩ | within
        · exact absurd exceeds (Int.not_lt.mpr (fits.resolve_left some_))
        · exact within
    · intro python world app req session same
      rw [← same]
      exact sendMessage_bounded python world app req session
    · intro storable lines entry
      rw [webAccepts_iff, utf8Length_joined]
      rcases far storable lines entry with ⟨some_, exceeds⟩ | within
      · refine iff_of_false ?_ (by omega)
        rintro ⟨fuel, gains⟩
        rcases SendCommand.messages_cases prompts command fuel with same | ⟨-, lines', entry', fits, -⟩
        · exact gains.ne same
        · cases Option.some.inj (entry.symm.trans entry')
          exact absurd exceeds (Int.not_lt.mpr (fits.resolve_left some_))
      · refine iff_of_true (SendCommand.stores prompts storable entry (.inr ?_)) within
        omega

theorem four_bytes_within :
    LimitHeld terseNode (typing ["Hello", "ab", "c", "/EX"]) (.sendBulletin "ALL") := by
  refine (limit_held_iff _ _ _ fun _ => rfl).mpr fun _ lines entry => .inr ?_
  obtain rfl : lines = ["ab", "c"] := Option.some.inj (entry.symm.trans (by decide))
  decide

/-- Four bytes in two lines make five. -/
theorem five_bytes_stored :
    ¬ LimitHeld terseNode (typing ["Hello", "ab", "cd", "/EX"]) (.sendBulletin "ALL") := by
  intro held
  obtain ⟨row, listed, long⟩ : ∃ row ∈ ((SendCommand.talk terseNode (.sendBulletin "ALL")).run 1
      (typing ["Hello", "ab", "cd", "/EX"])).2.database.mail.messages, 4 < row.size := by
    decide +kernel
  have within := held.terminal 1 row listed List.not_mem_nil
  change (row.size : Int) ≤ 4 at within
  omega

end PyBulletin.Command.Engine
