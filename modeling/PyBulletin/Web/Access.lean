import PyBulletin.Web.App

set_option autoImplicit false

namespace PyBulletin.Web.WebApp

open PyBulletin.Foundation
open PyBulletin.Store

variable {python : Library} {pbkdf2 : Auth.Kdf} {world : World} {app : WebApp}
  {req : HTTPRequest} {session : WebSession} {endpoint : Endpoint}

/-- The answer to a request without a session. -/
def refusal : Endpoint → Outcome
  | .overlong => .raised
  | .unknown => .none
  | _ => .forbidden

theorem serve_none : serve python pbkdf2 world app req none endpoint = (app, refusal endpoint) := by
  cases endpoint <;> rfl

/-- Apart from the session table, the request changes nothing, and the answer is the one
that any other application with the same public fields would give; no forwarding begins. -/
structure Anonymous (python : Library) (pbkdf2 : Auth.Kdf) (world : World) (app : WebApp)
    (req : HTTPRequest) : Prop where
  database : (handleRequest python pbkdf2 world app req).1.database = app.database
  config : (handleRequest python pbkdf2 world app req).1.config = app.config
  conference : (handleRequest python pbkdf2 world app req).1.conference = app.conference
  answered : ∀ neighbor, (handleRequest python pbkdf2 world app req).2 ≠ .forwarding neighbor
  blind : ∀ other : WebApp, other.sessions = app.sessions →
    other.config.node.nodeCall = app.config.node.nodeCall →
    other.config.node.motd = app.config.node.motd →
      (handleRequest python pbkdf2 world other req).2 = (handleRequest python pbkdf2 world app req).2

/-- A route that leaves everything but the sessions as it is. -/
theorem Anonymous.of_run {sessions : SessionStore} {answer : WebApp → Outcome}
    (run : ∀ other : WebApp, other.sessions = app.sessions →
      handleRequest python pbkdf2 world other req = ({ other with sessions }, answer other))
    (answered : ∀ neighbor, answer app ≠ .forwarding neighbor)
    (blind : ∀ other : WebApp, other.config.node.nodeCall = app.config.node.nodeCall →
      other.config.node.motd = app.config.node.motd → answer other = answer app) :
    Anonymous python pbkdf2 world app req where
  database := by rw [run app rfl]
  config := by rw [run app rfl]
  conference := by rw [run app rfl]
  answered := by rwa [run app rfl]
  blind other same call motd := by rw [run other same, run app rfl, blind other call motd]

/-- The answer of `_static`. -/
def fileOutcome (world : World) (file : Text) : Outcome :=
  ((world.static file).map fun data => Outcome.json (.content data)).getD .notFound

theorem static_eq (file : Text) : static world app file = (app, fileOutcome world file) := by
  rw [static, fileOutcome]
  cases world.static file <;> rfl

theorem fileOutcome_ne (file : Text) (neighbor : ForwardNeighborConfig) :
    fileOutcome world file ≠ .forwarding neighbor := by
  rw [fileOutcome]
  cases world.static file <;> exact nofun

theorem refusal_ne (endpoint : Endpoint) (neighbor : ForwardNeighborConfig) :
    refusal endpoint ≠ .forwarding neighbor := by
  cases endpoint <;> exact nofun

theorem anonymous (missing : resolved world app req = none)
    (stranger : Route.ofRequest python req ≠ .login)
    (present : Route.ofRequest python req ≠ .logout) :
    Anonymous python pbkdf2 world app req := by
  cases route : Route.ofRequest python req with
  | login => exact absurd route stranger
  | logout => exact absurd route present
  | health =>
      have run (other : WebApp) (same : other.sessions = app.sessions) :
          handleRequest python pbkdf2 world other req = ({ other with sessions := app.sessions },
            .json (.health other.config.node.nodeCall other.config.node.motd)) := by
        simp only [handleRequest, route, ← same]
        rfl
      refine .of_run run (fun _ => nofun) fun other call motd => ?_
      rw [call, motd]
  | static file =>
      have run (other : WebApp) (same : other.sessions = app.sessions) :
          handleRequest python pbkdf2 world other req =
            ({ other with sessions := app.sessions }, fileOutcome world file) := by
        simp only [handleRequest, route, static_eq, ← same]
      exact .of_run run (fileOutcome_ne file) fun _ _ _ => rfl
  | endpoint endpoint =>
      have run (other : WebApp) (same : other.sessions = app.sessions) :
          handleRequest python pbkdf2 world other req =
            ({ other with sessions := (app.sessions.getFromRequest req world.time).1 },
              refusal endpoint) := by
        have unknown : resolved world other req = none := by
          rw [resolved, same]
          exact missing
        simp only [handleRequest, route, unknown, serve_none, same]
      exact .of_run run (refusal_ne endpoint) fun _ _ _ => rfl

/-- The message is from the user of the session or to them. -/
def IsParty (session : WebSession) (row : Row) : Prop :=
  session.call = row.fromCall ∨ session.call = row.toCall

/-- What a request of the session may make of the application. -/
inductive Effect (app : WebApp) (session : WebSession) : WebApp → Prop where
  | unchanged : Effect app session app
  | read (id : Nat) (msg : Row) (now : DateTime)
      (stored : app.database.mail.getMessage id = some msg) (party : IsParty session msg) :
      Effect app session (app.withMail (app.database.mail.markRead id session.call now))
  | killed (id : Nat) (msg : Row) (stored : app.database.mail.getMessage id = some msg)
      (party : IsParty session msg) :
      Effect app session (app.withMail (app.database.mail.killMessage id))
  | sent (msg : Store.Message) (mail : BBSStore) (id : Option Nat) (own : msg.fromCall = session.call)
      (inserted : app.database.mail.insertMessage msg statusNew = (mail, id)) :
      Effect app session (app.withMail mail)

theorem asSysop_plain (plain : session.isSysop = false) (serve : WebSession → Reply) :
    asSysop app (some session) serve = (app, .forbidden) := by
  simp [asSysop, plain]

/-- The endpoints that only serve sysops. -/
def sysopOnly : Endpoint → Bool
  | .editMessage _ | .holdRelease _ _ | .listUsers | .createUser | .deleteUser _
  | .setPrivilege _ | .resetPassword _ | .listNeighbors | .addNeighbor | .updateNeighbor _
  | .deleteNeighbor _ | .connectNeighbor _ | .getConfig | .setConfig => true
  | _ => false

theorem serve_sysopOnly (plain : session.isSysop = false) (only : sysopOnly endpoint) :
    serve python pbkdf2 world app req (some session) endpoint = (app, .forbidden) := by
  cases endpoint with
  | editMessage id => rw [serve, editMessage, asSysop_plain plain]
  | holdRelease id action => rw [serve, holdRelease, asSysop_plain plain]
  | listUsers => rw [serve, listUsers, asSysop_plain plain]
  | createUser => rw [serve, createUser, asSysop_plain plain]
  | deleteUser call => rw [serve, deleteUser, asSysop_plain plain]
  | setPrivilege call => rw [serve, setPrivilege, asSysop_plain plain]
  | resetPassword call => rw [serve, resetPassword, asSysop_plain plain]
  | listNeighbors => rw [serve, listNeighbors, asSysop_plain plain]
  | addNeighbor => rw [serve, addNeighbor, asSysop_plain plain]
  | updateNeighbor call => rw [serve, updateNeighbor, asSysop_plain plain]
  | deleteNeighbor call => rw [serve, deleteNeighbor, asSysop_plain plain]
  | connectNeighbor call => rw [serve, connectNeighbor, asSysop_plain plain]
  | getConfig => rw [serve, getConfig, asSysop_plain plain]
  | setConfig => rw [serve, setConfig, asSysop_plain plain]
  | _ => cases only

theorem withFields_effect {bad : Text} {catches : Bool} {serve : List (Text × Json) → Reply}
    (served : ∀ fields, Effect app session (serve fields).1) :
    Effect app session (withFields python app req bad catches serve).1 := by
  rw [withFields]
  cases python.dictionary req bad catches with
  | error outcome => exact .unchanged
  | ok fields => exact served fields

theorem withMessage_effect {id : Nat} {serve : Row → Reply}
    (served : ∀ msg, app.database.mail.getMessage id = some msg →
      Effect app session (serve msg).1) :
    Effect app session (withMessage app id serve).1 := by
  rw [withMessage]
  split
  · split
    · exact .unchanged
    · rename_i msg stored
      exact served msg stored
  · exact .unchanged

theorem readMessage_effect (plain : session.isSysop = false) (id : Nat) :
    Effect app session (readMessage world app (some session) id).1 := by
  rw [readMessage, asUser]
  refine withMessage_effect fun msg stored => ?_
  split
  · exact .unchanged
  · split
    · exact .unchanged
    · rename_i allowed
      dsimp only
      split
      · rename_i unread
        have party : IsParty session msg := by
          by_contra stranger
          apply allowed
          exact ⟨unread.1, by simp [plain], fun either => stranger either.symm⟩
        exact .read id msg world.now stored party
      · exact .unchanged

theorem killMessage_effect (plain : session.isSysop = false) (id : Nat) :
    Effect app session (killMessage app (some session) id).1 := by
  rw [killMessage, asUser]
  refine withMessage_effect fun msg stored => ?_
  split
  · exact .unchanged
  · rename_i allowed
    have party : IsParty session msg := by
      by_contra stranger
      exact allowed ⟨by simp [plain], stranger⟩
    exact .killed id msg stored party

theorem sendMessage_effect :
    Effect app session (sendMessage python world app req (some session)).1 := by
  rw [sendMessage, asUser]
  refine withFields_effect fun fields => ?_
  dsimp only
  split
  · exact .unchanged
  · split
    · exact .unchanged
    · split
      · rename_i mail inserted
        exact .sent _ mail none rfl inserted
      · rename_i mail id inserted
        exact .sent _ mail (some id) rfl inserted

theorem serve_effect (plain : session.isSysop = false) :
    Effect app session (serve python pbkdf2 world app req (some session) endpoint).1 := by
  by_cases only : sysopOnly endpoint
  · rw [serve_sysopOnly plain only]
    exact .unchanged
  cases endpoint with
  | readMessage id => exact readMessage_effect plain id
  | killMessage id => exact killMessage_effect plain id
  | sendMessage => exact sendMessage_effect
  | listMessages =>
      simp only [serve, listMessages, asUser]
      split
      · split <;> exact .unchanged
      · exact .unchanged
  | getUser call =>
      simp only [serve, getUser, asUser]
      split
      · exact .unchanged
      · split <;> exact .unchanged
  | wpLookup =>
      simp only [serve, wpLookup, asUser]
      split
      · exact .unchanged
      · split <;> exact .unchanged
  | stats =>
      simp only [serve, stats, asUser]
      split <;> exact .unchanged
  | conferenceStatus => exact .unchanged
  | overlong => exact .unchanged
  | unknown => exact .unchanged
  | _ => exact absurd rfl only

/-- A private message that is neither from the user of the session nor to them. -/
def Concealed (session : WebSession) (row : Row) : Prop :=
  row.msgType = msgPrivate ∧ ¬ IsParty session row

instance (session : WebSession) (row : Row) : Decidable (IsParty session row) :=
  inferInstanceAs (Decidable (_ ∨ _))

instance (session : WebSession) (row : Row) : Decidable (Concealed session row) :=
  inferInstanceAs (Decidable (_ ∧ _))

/-- The row with another body, if it is concealed from the session. -/
def rewritten (session : WebSession) (secret : Nat → Text) (row : Row) : Row :=
  if Concealed session row then { row with body := secret row.id } else row

variable {secret : Nat → Text}

theorem rewritten_body (row : Row) : ∃ body, rewritten session secret row = { row with body } := by
  rw [rewritten]
  split
  · exact ⟨secret row.id, rfl⟩
  · exact ⟨row.body, rfl⟩

theorem rewritten_keys (row : Row) :
    (rewritten session secret row).id = row.id ∧ (rewritten session secret row).bid = row.bid := by
  obtain ⟨body, same⟩ := @rewritten_body session secret row
  rw [same]
  exact ⟨rfl, rfl⟩

theorem msgSummary_rewritten (row : Row) :
    msgSummary (rewritten session secret row) = msgSummary row := by
  obtain ⟨body, same⟩ := @rewritten_body session secret row
  rw [same]
  rfl

theorem selects_rewritten (query : MessageQuery) (row : Row) :
    query.selects (rewritten session secret row) = query.selects row := by
  obtain ⟨body, same⟩ := @rewritten_body session secret row
  rw [same]
  rfl

/-- The application with other texts in the messages concealed from the session. -/
def withSecret (app : WebApp) (session : WebSession) (secret : Nat → Text) : WebApp :=
  app.withMail (app.database.mail.amend (rewritten session secret) rewritten_keys)

theorem listMessages_rewritten (query : MessageQuery) :
    ((app.withSecret session secret).database.mail.listMessages query).map (List.map msgSummary) =
      (app.database.mail.listMessages query).map (List.map msgSummary) := by
  have rows := @BBSStore.listMessages_amend app.database.mail (rewritten session secret)
    rewritten_keys query (selects_rewritten query)
  have summaries : msgSummary ∘ rewritten session secret = msgSummary :=
    funext fun row => msgSummary_rewritten row
  simp only [withSecret, withMail, rows, Option.map_map, List.map_comp_map, summaries]

theorem listMessages_secret :
    (listMessages python (app.withSecret session secret) req (some session)).2 =
      (listMessages python app req (some session)).2 := by
  simp only [listMessages, asUser]
  split
  · generalize query : MessageQuery.mk _ _ _ _ _ _ _ _ _ = asked
    have rows := @listMessages_rewritten app session secret asked
    cases plainly : app.database.mail.listMessages asked <;>
      cases secretly : (app.withSecret session secret).database.mail.listMessages asked <;>
      simp_all
  · rfl

theorem statsOf_secret (recent : List Row) :
    (app.withSecret session secret).statsOf (recent.map (rewritten session secret)) =
      app.statsOf recent := by
  have counts {test : Row → Bool} (same : ∀ row, test (rewritten session secret row) = test row) :
      ((app.withSecret session secret).database.mail.messages.filter test).length =
        (app.database.mail.messages.filter test).length := by
    rw [withSecret, withMail, BBSStore.filter_amend same, List.length_map]
  have total : (app.withSecret session secret).database.mail.countMessages =
      app.database.mail.countMessages := by
    refine counts fun row => ?_
    obtain ⟨body, same⟩ := @rewritten_body session secret row
    rw [same]
  have news (msgType : Text) :
      (app.withSecret session secret).database.mail.countWith msgType statusNew =
        app.database.mail.countWith msgType statusNew := by
    refine counts fun row => ?_
    obtain ⟨body, same⟩ := @rewritten_body session secret row
    rw [same]
  have summaries : (recent.map (rewritten session secret)).reverse.map msgSummary =
      recent.reverse.map msgSummary := by
    rw [← List.map_reverse, List.map_map]
    congr 1
    exact funext fun row => msgSummary_rewritten row
  simp only [statsOf, total, news, summaries]
  rfl

theorem stats_secret :
    (stats (app.withSecret session secret) (some session)).2 = (stats app (some session)).2 := by
  have rows := @BBSStore.listMessages_amend app.database.mail (rewritten session secret)
    rewritten_keys { limit := 10, reverse := true } (selects_rewritten _)
  simp only [stats, asUser]
  rw [show (app.withSecret session secret).database.mail.listMessages
    { limit := 10, reverse := true } = _ from rows]
  cases app.database.mail.listMessages { limit := 10, reverse := true } with
  | none => rfl
  | some recent => exact congrArg (fun stats => Outcome.json (.stats stats)) (statsOf_secret recent)

theorem withMessage_secret {id : Nat} {plainly secretly : Row → Reply}
    (same : ∀ msg, app.database.mail.getMessage id = some msg →
      (secretly (rewritten session secret msg)).2 = (plainly msg).2) :
    (withMessage (app.withSecret session secret) id secretly).2 =
      (withMessage app id plainly).2 := by
  have stored : (app.withSecret session secret).database.mail.getMessage id =
      (app.database.mail.getMessage id).map (rewritten session secret) :=
    @BBSStore.getMessage_amend app.database.mail (rewritten session secret) rewritten_keys id
  rw [withMessage, withMessage, stored]
  split
  · cases found : app.database.mail.getMessage id with
    | none => rfl
    | some msg => exact same msg found
  · rfl

theorem readMessage_secret (plain : session.isSysop = false) (id : Nat) :
    (readMessage world (app.withSecret session secret) (some session) id).2 =
      (readMessage world app (some session) id).2 := by
  rw [readMessage, readMessage, asUser, asUser]
  refine withMessage_secret fun msg _ => ?_
  by_cases concealed : Concealed session msg
  · -- A concealed message is refused, whatever its body is.
    have stranger : ¬ (session.call = msg.toCall ∨ session.call = msg.fromCall) :=
      fun either => concealed.2 either.symm
    have common : ¬ session.isSysop = true := by simp [plain]
    rw [rewritten, if_pos concealed]
    dsimp only
    by_cases killed : msg.status = statusKilled
    · rw [if_pos ⟨killed, common⟩, if_pos ⟨killed, common⟩]
    · rw [if_neg fun both => killed both.1, if_pos ⟨concealed.1, common, stranger⟩,
        if_neg fun both => killed both.1, if_pos ⟨concealed.1, common, stranger⟩]
  · rw [rewritten, if_neg concealed]
    split
    · rfl
    · split <;> rfl

theorem killMessage_secret (id : Nat) :
    (killMessage (app.withSecret session secret) (some session) id).2 =
      (killMessage app (some session) id).2 := by
  rw [killMessage, killMessage, asUser, asUser]
  refine withMessage_secret fun msg _ => ?_
  obtain ⟨body, same⟩ := @rewritten_body session secret msg
  rw [same]
  split <;> rfl

theorem sendMessage_secret :
    (sendMessage python world (app.withSecret session secret) req (some session)).2 =
      (sendMessage python world app req (some session)).2 := by
  rw [sendMessage, sendMessage, asUser, asUser, withFields, withFields]
  cases python.dictionary req "Invalid JSON" false with
  | error outcome => rfl
  | ok fields =>
      dsimp only
      split
      · rfl
      · rw [show (app.withSecret session secret).config = app.config from rfl]
        split
        · rfl
        · generalize composed world session _ _ _ _ _ = msg
          have number : ((app.withSecret session secret).database.mail.insertMessage msg
              statusNew).2 = (app.database.mail.insertMessage msg statusNew).2 :=
            @BBSStore.insertMessage_amend app.database.mail (rewritten session secret) rewritten_keys msg
              statusNew
          cases plainly : app.database.mail.insertMessage msg statusNew with
          | mk mail id =>
              cases secretly : (app.withSecret session secret).database.mail.insertMessage msg
                  statusNew with
              | mk other written =>
                  rw [plainly, secretly] at number
                  cases number
                  cases id <;> rfl

/-- The answer does not depend on the bodies of the messages that are concealed. -/
theorem serve_secret (plain : session.isSysop = false) :
    (serve python pbkdf2 world (app.withSecret session secret) req (some session) endpoint).2 =
      (serve python pbkdf2 world app req (some session) endpoint).2 := by
  by_cases only : sysopOnly endpoint
  · rw [serve_sysopOnly plain only, serve_sysopOnly plain only]
  cases endpoint with
  | listMessages => exact listMessages_secret
  | readMessage id => exact readMessage_secret plain id
  | killMessage id => exact killMessage_secret id
  | sendMessage => exact sendMessage_secret
  | stats => exact stats_secret
  | getUser call =>
      rw [serve, serve, getUser, getUser, asUser, asUser]
      split
      · rfl
      · rw [show (app.withSecret session secret).database.users = app.database.users from rfl]
        split <;> rfl
  | wpLookup =>
      rw [serve, serve, wpLookup, wpLookup, asUser, asUser]
      dsimp only
      split
      · rfl
      · rw [Database.getWpEntry, Database.getWpEntry]
        rw [show (app.withSecret session secret).database.wpEntries = app.database.wpEntries from rfl]
        split <;> rfl
  | conferenceStatus => rfl
  | overlong => rfl
  | unknown => rfl
  | _ => exact absurd rfl only

section Effects

variable {after : WebApp}

/-- An UPDATE of one message of the user's. -/
theorem kept_update {store updated : BBSStore} {id : Nat} {msg : Row} {change : Row → Row}
    (wrote : updated.messages = store.messages.map fun row => if row.id = id then change row else row)
    (stored : store.getMessage id = some msg) (party : IsParty session msg)
    (columns : ∀ row, change row = { row with
      status := (change row).status, readBy := (change row).readBy, readAt := (change row).readAt })
    (row : Row) (listed : row ∈ store.messages) :
    ∃ written ∈ updated.messages, written = row ∨ IsParty session row ∧ written = { row with
      status := written.status
      readBy := written.readBy
      readAt := written.readAt } := by
  rw [wrote]
  refine ⟨_, List.mem_map_of_mem listed, ?_⟩
  by_cases same : row.id = id
  · rw [if_pos same]
    obtain ⟨known, number⟩ := BBSStore.getMessage_id stored
    have own : row = msg := store.eq_of_id listed known (same.trans number.symm)
    exact .inr ⟨own ▸ party, columns row⟩
  · exact .inl (if_neg same)

theorem old_update {store updated : BBSStore} {id : Nat} {change : Row → Row}
    (wrote : updated.messages = store.messages.map fun row => if row.id = id then change row else row)
    (same : ∀ row, (change row).id = row.id) {row : Row} (listed : row ∈ updated.messages) :
    ∃ old ∈ store.messages, old.id = row.id := by
  rw [wrote] at listed
  obtain ⟨old, stored, rfl⟩ := List.mem_map.mp listed
  refine ⟨old, stored, ?_⟩
  split
  · exact (same old).symm
  · rfl

theorem Effect.kept (effect : Effect app session after) (row : Row)
    (listed : row ∈ app.database.mail.messages) :
    ∃ written ∈ after.database.mail.messages, written = row ∨ IsParty session row ∧
      written = { row with
        status := written.status
        readBy := written.readBy
        readAt := written.readAt } := by
  cases effect with
  | unchanged => exact ⟨row, listed, .inl rfl⟩
  | read id msg now stored party =>
      refine kept_update rfl stored party (fun row => ?_) row listed
      split <;> rfl
  | killed id msg stored party =>
      exact kept_update rfl stored party (fun _ => rfl) row listed
  | sent msg mail id own inserted =>
      refine ⟨row, ?_, .inl rfl⟩
      rw [BBSStore.insertMessage] at inserted
      split at inserted
      · cases inserted
        exact List.mem_append_left _ listed
      · cases inserted
        exact listed

theorem Effect.created (capital : Text.upper session.call = session.call)
    (effect : Effect app session after) (row : Row) (listed : row ∈ after.database.mail.messages) :
    (∃ old ∈ app.database.mail.messages, old.id = row.id) ∨ row.fromCall = session.call := by
  cases effect with
  | unchanged => exact .inl ⟨row, listed, rfl⟩
  | read id msg now stored party =>
      refine .inl (old_update rfl (fun row => ?_) listed)
      split <;> rfl
  | killed id msg stored party =>
      refine .inl (old_update rfl (fun row => ?_) listed)
      rfl
  | sent msg mail id own inserted =>
      rw [BBSStore.insertMessage] at inserted
      split at inserted
      · cases inserted
        rcases List.mem_append.mp listed with old | new
        · exact .inl ⟨row, old, rfl⟩
        · right
          rw [List.mem_singleton.mp new, BBSStore.inserted, own, capital]
      · cases inserted
        exact .inl ⟨row, listed, rfl⟩

theorem Effect.frame (effect : Effect app session after) :
    after.database.users = app.database.users ∧
      after.database.neighbors = app.database.neighbors ∧ after.config = app.config := by
  cases effect <;> exact ⟨rfl, rfl, rfl⟩

end Effects

/-- The answer shows no message but those that the user of the session may read, and it does not
wait for a forwarding session. -/
structure Discreet (app : WebApp) (session : WebSession) (outcome : Outcome) : Prop where
  shown : ∀ detail, outcome = .json (.message detail) →
    ∃ row ∈ app.database.mail.messages, detail = msgDetail row ∧ ¬ Concealed session row
  answered : ∀ neighbor, outcome ≠ .forwarding neighbor

theorem discreet_other {outcome : Outcome} (shown : ∀ detail, outcome ≠ .json (.message detail))
    (answered : ∀ neighbor, outcome ≠ .forwarding neighbor) : Discreet app session outcome :=
  ⟨fun detail same => absurd same (shown detail), answered⟩

theorem withFields_discreet {bad : Text} {catches : Bool} {serve : List (Text × Json) → Reply}
    (served : ∀ fields, Discreet app session (serve fields).2) :
    Discreet app session (withFields python app req bad catches serve).2 := by
  rw [withFields]
  cases failed : python.dictionary req bad catches with
  | error outcome =>
      rcases Library.dictionary_error failed with rfl | rfl <;> exact discreet_other nofun nofun
  | ok fields => exact served fields

theorem withMessage_discreet {id : Nat} {serve : Row → Reply}
    (served : ∀ msg ∈ app.database.mail.messages, Discreet app session (serve msg).2) :
    Discreet app session (withMessage app id serve).2 := by
  rw [withMessage]
  split
  · split
    · exact discreet_other nofun nofun
    · rename_i msg stored
      exact served msg (BBSStore.getMessage_id stored).1
  · exact discreet_other nofun nofun

theorem readMessage_discreet (plain : session.isSysop = false) (id : Nat) :
    Discreet app session (readMessage world app (some session) id).2 := by
  rw [readMessage, asUser]
  refine withMessage_discreet fun msg listed => ?_
  split
  · exact discreet_other nofun nofun
  · split
    · exact discreet_other nofun nofun
    · rename_i allowed
      refine ⟨fun detail answered => ?_, nofun⟩
      cases answered
      refine ⟨msg, listed, rfl, fun concealed => allowed ?_⟩
      exact ⟨concealed.1, by simp [plain], fun either => concealed.2 either.symm⟩

theorem serve_discreet (plain : session.isSysop = false) :
    Discreet app session (serve python pbkdf2 world app req (some session) endpoint).2 := by
  by_cases only : sysopOnly endpoint
  · rw [serve_sysopOnly plain only]
    exact discreet_other nofun nofun
  cases endpoint with
  | readMessage id => exact readMessage_discreet plain id
  | listMessages =>
      rw [serve, listMessages, asUser]
      split
      · dsimp only
        split <;> exact discreet_other nofun nofun
      · exact discreet_other nofun nofun
  | killMessage id =>
      rw [serve, killMessage, asUser]
      refine withMessage_discreet fun msg _ => ?_
      split <;> exact discreet_other nofun nofun
  | sendMessage =>
      rw [serve, sendMessage, asUser]
      refine withFields_discreet fun fields => ?_
      dsimp only
      split
      · exact discreet_other nofun nofun
      · split
        · exact discreet_other nofun nofun
        · split <;> exact discreet_other nofun nofun
  | stats =>
      rw [serve, stats, asUser]
      split <;> exact discreet_other nofun nofun
  | getUser call =>
      rw [serve, getUser, asUser]
      split
      · exact discreet_other nofun nofun
      · split <;> exact discreet_other nofun nofun
  | wpLookup =>
      rw [serve, wpLookup, asUser]
      dsimp only
      split
      · exact discreet_other nofun nofun
      · split <;> exact discreet_other nofun nofun
  | conferenceStatus => exact discreet_other nofun nofun
  | overlong => exact discreet_other nofun nofun
  | unknown => exact discreet_other nofun nofun
  | _ => exact absurd rfl only

/-- The request of a session changes messages only as its user may: it marks their own as
read or killed and sends in their name, and it begins no forwarding.  What it answers is no body
of a message between others, and the same whatever those bodies are. -/
structure Confined (python : Library) (pbkdf2 : Auth.Kdf) (world : World) (app : WebApp)
    (req : HTTPRequest) (session : WebSession) : Prop where
  users : (handleRequest python pbkdf2 world app req).1.database.users = app.database.users
  neighbors : (handleRequest python pbkdf2 world app req).1.database.neighbors =
    app.database.neighbors
  config : (handleRequest python pbkdf2 world app req).1.config = app.config
  kept : ∀ row ∈ app.database.mail.messages,
    ∃ written ∈ (handleRequest python pbkdf2 world app req).1.database.mail.messages,
      written = row ∨ IsParty session row ∧ written = { row with
        status := written.status
        readBy := written.readBy
        readAt := written.readAt }
  created : ∀ row ∈ (handleRequest python pbkdf2 world app req).1.database.mail.messages,
    (∃ old ∈ app.database.mail.messages, old.id = row.id) ∨ row.fromCall = session.call
  shown : ∀ detail, (handleRequest python pbkdf2 world app req).2 = .json (.message detail) →
    ∃ row ∈ app.database.mail.messages, detail = msgDetail row ∧ ¬ Concealed session row
  answered : ∀ neighbor, (handleRequest python pbkdf2 world app req).2 ≠ .forwarding neighbor
  blind : ∀ secret,
    (handleRequest python pbkdf2 world (app.withSecret session secret) req).2 =
      (handleRequest python pbkdf2 world app req).2

/-- A request that is not about messages: it may change the sessions, and it answers with
no message. -/
structure Apart (app : WebApp) (reply : Reply) : Prop where
  kept : reply.1 = { app with sessions := reply.1.sessions }
  shown : ∀ detail, reply.2 ≠ .json (.message detail)
  answered : ∀ neighbor, reply.2 ≠ .forwarding neighbor

theorem login_apart : Apart app (login python pbkdf2 world app req) := by
  rw [login, withFields]
  cases failed : python.dictionary req "Invalid JSON" true with
  | error outcome =>
      rcases Library.dictionary_error failed with rfl | rfl <;> exact ⟨rfl, nofun, nofun⟩
  | ok fields =>
      dsimp only
      split
      · exact ⟨rfl, nofun, nofun⟩
      · split
        · exact ⟨rfl, nofun, nofun⟩
        · split
          · exact ⟨rfl, nofun, nofun⟩
          · split <;> exact ⟨rfl, nofun, nofun⟩

theorem login_secret :
    (login python pbkdf2 world (app.withSecret session secret) req).2 =
      (login python pbkdf2 world app req).2 := by
  rw [login, login, withFields, withFields]
  cases python.dictionary req "Invalid JSON" true with
  | error outcome => rfl
  | ok fields =>
      dsimp only
      rw [show (app.withSecret session secret).database.users = app.database.users from rfl]
      split
      · rfl
      · split
        · rfl
        · split
          · rfl
          · split <;> rfl

theorem logout_apart : Apart app (logout app req) := ⟨rfl, nofun, nofun⟩

theorem health_apart : Apart app (health app) := ⟨rfl, nofun, nofun⟩

theorem static_apart (file : Text) : Apart app (static world app file) := by
  rw [static_eq]
  refine ⟨rfl, fun _ => ?_, fileOutcome_ne file⟩
  rw [fileOutcome]
  cases world.static file <;> exact nofun

theorem Confined.of_apart
    (apart : Apart app (handleRequest python pbkdf2 world app req))
    (blind : ∀ secret, (handleRequest python pbkdf2 world (app.withSecret session secret) req).2 =
      (handleRequest python pbkdf2 world app req).2) :
    Confined python pbkdf2 world app req session where
  users := by rw [apart.kept]
  neighbors := by rw [apart.kept]
  config := by rw [apart.kept]
  kept row listed := ⟨row, by rwa [apart.kept], .inl rfl⟩
  created row listed := .inl ⟨row, by rwa [apart.kept] at listed, rfl⟩
  shown detail answered := absurd answered (apart.shown detail)
  answered := apart.answered
  blind := blind

theorem Confined.of_serve (plain : session.isSysop = false)
    (capital : Text.upper session.call = session.call)
    (run : ∀ secret, handleRequest python pbkdf2 world (app.withSecret session secret) req =
      serve python pbkdf2 world (app.withSecret session secret) req (some session) endpoint)
    (plainly : handleRequest python pbkdf2 world app req =
      serve python pbkdf2 world app req (some session) endpoint) :
    Confined python pbkdf2 world app req session := by
  have effect : Effect app session (handleRequest python pbkdf2 world app req).1 := by
    rw [plainly]
    exact serve_effect plain
  obtain ⟨users, neighbors, config⟩ := effect.frame
  have discreet : Discreet app session (handleRequest python pbkdf2 world app req).2 := by
    rw [plainly]
    exact serve_discreet plain
  refine ⟨users, neighbors, config, effect.kept, effect.created capital, discreet.shown,
    discreet.answered, ?_⟩
  · intro secret
    rw [run, plainly]
    exact serve_secret plain

/-- The reply to a request whose session is known. -/
def replied (python : Library) (pbkdf2 : Auth.Kdf) (world : World) (req : HTTPRequest)
    (session : WebSession) (app : WebApp) : Route → Reply
  | .login => login python pbkdf2 world app req
  | .logout => logout app req
  | .health => health app
  | .static file => static world app file
  | .endpoint endpoint => serve python pbkdf2 world app req (some session) endpoint

theorem handleRequest_found (found : resolved world app req = some session) :
    handleRequest python pbkdf2 world app req =
      replied python pbkdf2 world req session app (Route.ofRequest python req) := by
  obtain ⟨_, _, same⟩ := SessionStore.getFromRequest_eq_some found
  rw [handleRequest, found, same]
  cases Route.ofRequest python req <;> rfl

theorem confined (found : resolved world app req = some session)
    (plain : session.isSysop = false) : Confined python pbkdf2 world app req session := by
  have plainly := @handleRequest_found python pbkdf2 world app req session found
  have secretly (secret : Nat → Text) :=
    @handleRequest_found python pbkdf2 world (app.withSecret session secret) req session found
  cases route : Route.ofRequest python req with
  | login =>
      rw [route] at plainly
      refine .of_apart (plainly ▸ login_apart) fun secret => ?_
      rw [plainly, secretly, route]
      exact login_secret
  | logout =>
      rw [route] at plainly
      refine .of_apart (plainly ▸ logout_apart) fun secret => ?_
      rw [plainly, secretly, route]
      rfl
  | health =>
      rw [route] at plainly
      refine .of_apart (plainly ▸ health_apart) fun secret => ?_
      rw [plainly, secretly, route]
      rfl
  | static file =>
      rw [route] at plainly
      refine .of_apart (plainly ▸ static_apart file) fun secret => ?_
      rw [plainly, secretly, route]
      simp only [replied, static_eq]
  | endpoint endpoint =>
      rw [route] at plainly
      obtain ⟨stored, _⟩ := SessionStore.getFromRequest_eq_some found
      refine .of_serve plain (app.sessions.capital _ session stored) (fun secret => ?_) plainly
      rw [secretly, route]
      rfl

/-- Every request keeps to what its session allows. -/
theorem handleRequest_authorised (python : Library) (pbkdf2 : Auth.Kdf) (world : World)
    (app : WebApp) (req : HTTPRequest) :
    (resolved world app req = none → Route.ofRequest python req ≠ .login →
        Route.ofRequest python req ≠ .logout → Anonymous python pbkdf2 world app req) ∧
      ∀ session, resolved world app req = some session → session.isSysop = false →
        Confined python pbkdf2 world app req session :=
  ⟨anonymous, fun _ => confined⟩

end PyBulletin.Web.WebApp
