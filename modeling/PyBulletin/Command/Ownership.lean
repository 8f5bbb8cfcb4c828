import PyBulletin.Command.Conduct

set_option autoImplicit false

namespace PyBulletin.Session

open PyBulletin.Foundation
open PyBulletin.Foundation.Stateful
open PyBulletin.Store
open PyBulletin.Command.Engine

/-- The row is as it was, but for the columns that reading and killing write to a message
from the user or to the user. -/
structure OwnChange (call : Text) (old row : Row) : Prop where
  others : old.fromCall ≠ call → old.toCall ≠ call → row = old
  columns : row = { old with status := row.status, readBy := row.readBy, readAt := row.readAt }
  held : row.status = statusHeld ↔ old.status = statusHeld

theorem OwnChange.refl (call : Text) (row : Row) : OwnChange call row row where
  others _ _ := rfl
  columns := rfl
  held := Iff.rfl

/-- Since `start`, the user has changed nothing but what is the user's own. -/
structure Changes (call : Text) (privilege : Text) (start now : Database) : Prop where
  messages : ∀ id old, start.mail.getMessage id = some old →
    ∃ row, now.mail.getMessage id = some row ∧ OwnChange call old row
  fresh : ∀ id row, start.mail.getMessage id = none → now.mail.getMessage id = some row →
    row.status ≠ statusHeld
  users : ∀ other, Text.upper other ≠ Text.upper call →
    now.users.getUser other = start.users.getUser other
  whitePages : ∀ other, Text.upper other ≠ Text.upper call →
    now.getWpEntry other = start.getWpEntry other
  own : ∃ row, now.users.getUser call = some row ∧ row.privilege = privilege

/-- The session is the user's, and it has changed what is its own. -/
structure Framed (call privilege : Text) (start : Database) (console : Console) : Prop where
  user : ∃ user, console.user = some user ∧ Own call privilege user
  changes : Changes call privilege start console.database

section Framed

variable {call privilege : Text} {start : Database} {α : Type}

/-- The row that is found under a number is one of the start, apart from what may change, or a
new one. -/
def Known (start : Database) (number : Int) (row : Row) : Prop :=
  0 ≤ number ∧ ∀ old, start.mail.getMessage number.toNat = some old →
    old.fromCall = row.fromCall ∧ old.toCall = row.toCall ∧
      (row.status = statusHeld ↔ old.status = statusHeld)

theorem Changes.known {now : Database} (changes : Changes call privilege start now) {number : Int}
    {row : Row} (natural : 0 ≤ number) (found : now.mail.getMessage number.toNat = some row) :
    Known start number row := by
  refine ⟨natural, fun old stored => ?_⟩
  obtain ⟨row', found', change⟩ := changes.messages number.toNat old stored
  rw [found] at found'
  cases found'
  have columns := change.columns
  refine ⟨?_, ?_, change.held⟩
  · rw [columns]
  · rw [columns]

/-- An UPDATE of a message from the user or to the user that keeps holds. -/
theorem Changes.update {now : Database} (changes : Changes call privilege start now) {target : Nat}
    {change : Row → Row} {keys : ∀ row, (change row).id = row.id ∧ (change row).bid = row.bid}
    (columns : ∀ row, change row = { row with
      status := (change row).status, readBy := (change row).readBy, readAt := (change row).readAt })
    (parties : ∀ old, start.mail.getMessage target = some old → old.fromCall = call ∨ old.toCall = call)
    (held : ∀ old, start.mail.getMessage target = some old → old.status ≠ statusHeld)
    (unheld : ∀ row, row.status ≠ statusHeld → (change row).status ≠ statusHeld) :
    Changes call privilege start { now with mail := now.mail.update target change keys } where
  messages id old stored := by
    obtain ⟨row, found, kept⟩ := changes.messages id old stored
    simp only [BBSStore.getMessage_update, found]
    by_cases here : id = target
    · subst here
      rw [if_pos rfl]
      have free : row.status ≠ statusHeld := fun same => held old stored (kept.held.mp same)
      refine ⟨change row, rfl, ?_, ?_, ?_⟩
      · intro notFrom notTo
        exact absurd (parties old stored) (not_or.mpr ⟨notFrom, notTo⟩)
      · rw [columns row, kept.columns]
      · exact iff_of_false (unheld row free) (held old stored)
    · rw [if_neg here]
      exact ⟨row, rfl, kept⟩
  fresh id row missing found := by
    rw [BBSStore.getMessage_update] at found
    split at found
    · obtain ⟨old, stored, rfl⟩ := Option.map_eq_some_iff.mp found
      exact unheld old (changes.fresh id old missing stored)
    · exact changes.fresh id row missing found
  users := changes.users
  whitePages := changes.whitePages
  own := changes.own

/-- A message that is found behind an INSERT was there or is the new one. -/
theorem getMessage_of_insertMessage {mail : BBSStore} {msg : Message} {status : Text} {id : Nat}
    {row : Row} (found : (mail.insertMessage msg status).1.getMessage id = some row) :
    mail.getMessage id = some row ∨ row.status = status := by
  rw [BBSStore.insertMessage] at found
  split at found
  · obtain ⟨listed, rfl⟩ := BBSStore.getMessage_id found
    rcases List.mem_append.mp listed with old | new
    · exact .inl (BBSStore.getMessage_of_mem old)
    · rw [List.mem_singleton.mp new]
      exact .inr rfl
  · exact .inl found

theorem Changes.insert {now : Database} (changes : Changes call privilege start now) (msg : Message) :
    Changes call privilege start { now with mail := (now.mail.insertMessage msg statusNew).1 } where
  messages id old stored := by
    obtain ⟨row, found, kept⟩ := changes.messages id old stored
    exact ⟨row, BBSStore.getMessage_insertMessage _ found msg statusNew, kept⟩
  fresh id row missing found := by
    rcases getMessage_of_insertMessage found with old | new
    · exact changes.fresh id row missing old
    · rw [new]
      decide
  users := changes.users
  whitePages := changes.whitePages
  own := changes.own

theorem Changes.upsert {now : Database} (changes : Changes call privilege start now) {user : User}
    (own : Own call privilege user) (fits : storable user) :
    Changes call privilege start { now with users := now.users.upsertUser user fits } where
  messages := changes.messages
  fresh := changes.fresh
  users other different := by
    have away : Text.upper other ≠ Text.upper user.call := by rwa [own.call_eq]
    rw [← changes.users other different]
    exact if_neg away
  whitePages := changes.whitePages
  own := by
    have here : Text.upper call = Text.upper user.call := by rw [own.call_eq]
    refine ⟨now.users.merged user, if_pos here, ?_⟩
    rw [UserTable.merged]
    split <;> exact own.privilege_eq

theorem Changes.publish {now : Database} (changes : Changes call privilege start now) {entry : WPEntry}
    (own : Text.upper entry.call = Text.upper call) :
    Changes call privilege start { now with
      wpEntries := (now.wpEntries.filter fun row => row.call ≠ Text.upper entry.call) ++
        [{ entry with call := Text.upper entry.call }] } where
  messages := changes.messages
  fresh := changes.fresh
  users := changes.users
  whitePages other different := by
    rw [← changes.whitePages other different]
    have away : Text.upper entry.call ≠ Text.upper other := fun same =>
      different (same.symm.trans own)
    simp only [Database.getWpEntry, List.find?_append, List.find?_filter, List.find?_cons,
      decide_eq_false away, List.find?_nil, Option.or_none]
    congr 1
    funext row
    by_cases named : row.call = Text.upper other
    · simp [named, Ne.symm away]
    · simp [named]
  own := changes.own

theorem framed_apart {x : Talk α} (apart : Apart x) : Keeps (Framed call privilege start) x where
  kept fuel console begun := by
    obtain ⟨user, changes⟩ := begun
    rw [← apart.sameUser fuel] at user
    rw [← apart.sameDatabase fuel] at changes
    exact ⟨user, changes⟩

theorem framed_saveUser {user : User} (own : Own call privilege user) :
    Keeps (Framed call privilege start) (saveUser user) where
  kept fuel console begun := by
    have remembered : Framed call privilege start { console with user := some user } :=
      ⟨⟨user, rfl, own⟩, begun.changes⟩
    by_cases fits : storable user
    · have written : (saveUser user).run fuel console = (.returned (),
          { console with user := some user }.withUsers (console.database.users.upsertUser user fits)) := by
        simp only [saveUser, upsertUser, dif_pos fits]
        rfl
      rw [written]
      exact ⟨remembered.user, begun.changes.upsert own fits⟩
    · have refused : (saveUser user).run fuel console = (.raised, { console with user := some user }) := by
        simp only [saveUser, upsertUser, dif_neg fits]
        rfl
      rw [refused]
      exact remembered

theorem framed_insertMessage (node : Node) (msg : Message) :
    Keeps (Framed call privilege start) (insertMessage node msg) := by
  have asked : Keeps (Framed call privilege start) (now node) :=
    framed_apart ⟨fun _ _ _ => rfl, fun _ _ => rfl⟩
  have named (date : DateTime) (sender : Text) : Keeps (Framed call privilege start)
      (reading fun console => console.database.mail.generateBid date sender) :=
    ⟨fun _ _ begun => begun⟩
  have stored (bid : Text) : Keeps (Framed call privilege start)
      ((get fun console => console.database.mail.insertMessage { msg with bid } statusNew) >>=
        fun inserted => modify (fun console => console.withMail inserted.1) >>=
          fun _ => inserted.2.elim raise pure) := by
    refine ⟨fun fuel console begun => ?_⟩
    have written : Framed call privilege start
        (console.withMail (console.database.mail.insertMessage { msg with bid } statusNew).1) :=
      ⟨begun.user, begun.changes.insert { msg with bid }⟩
    have ended : Keeps (Framed call privilege start)
        ((console.database.mail.insertMessage { msg with bid } statusNew).2.elim
          (raise : Talk Nat) pure) := inferInstance
    exact ended.kept fuel _ written
  unfold insertMessage
  infer_instance

theorem framed_updateMail {number : Int} {row : Row} {change : Row → Row}
    {keys : ∀ row, (change row).id = row.id ∧ (change row).bid = row.bid}
    (known : Known start number row) (free : row.status ≠ statusHeld)
    (parties : row.fromCall = call ∨ row.toCall = call)
    (columns : ∀ row, change row = { row with
      status := (change row).status, readBy := (change row).readBy, readAt := (change row).readAt })
    (unheld : ∀ row, row.status ≠ statusHeld → (change row).status ≠ statusHeld) :
    Keeps (Framed call privilege start)
      (updateMail number fun mail target => mail.update target change keys) where
  kept fuel console begun := by
    obtain ⟨natural, same⟩ := known
    simp only [updateMail, guarded, if_pos natural]
    by_cases fits : fitsColumn number
    · rw [if_pos fits]
      refine ⟨begun.user, begun.changes.update columns (fun old stored => ?_) (fun old stored => ?_) unheld⟩
      · obtain ⟨sender, recipient, _⟩ := same old stored
        rwa [sender, recipient]
      · obtain ⟨_, _, held⟩ := same old stored
        exact fun same => free (held.mpr same)
    · rw [if_neg fits]
      exact begun

/-- What a session that changes only its own may be told and may do. -/
def ownOutlook (call privilege : Text) (start : Database) (plain : privilege ≠ privSysop) : Outlook where
  call
  privilege
  plain
  related console other := other = console ∧ Framed call privilege start console
  veil := id
  known := Known start
  redacts row := ⟨row.body, rfl⟩
  hides _ := .inl rfl
  apart apart := (framed_apart apart).blind
  viewed _ _ console other related := by
    obtain ⟨rfl, framed⟩ := related
    exact ⟨⟨rfl, _, rfl⟩, rfl, framed⟩
  me fuel console other related := by
    obtain ⟨rfl, framed⟩ := related
    obtain ⟨user, remembered, own⟩ := framed.user
    have found : me.run fuel other = (.returned user, other) := by
      change (other.user.elim raise pure : Talk User).run fuel other = _
      rw [remembered]
      rfl
    rw [found]
    exact ⟨⟨rfl, own⟩, rfl, framed⟩
  saved own := (framed_saveUser own).blind
  published own := Keeps.blind ⟨fun _ _ begun => ⟨begun.user, begun.changes.publish own⟩⟩
  looked number fuel console other related := by
    obtain ⟨rfl, framed⟩ := related
    unfold getMessage guarded
    split
    · refine ⟨⟨(congrFun Option.map_id _).symm, fun row found => ?_⟩, rfl, framed⟩
      split at found
      · exact framed.changes.known ‹_› found
      · cases found
    · exact ⟨trivial, rfl, framed⟩
  listed query fuel console other related := by
    obtain ⟨rfl, framed⟩ := related
    have ended (choice : Option (List Row)) :
        let x : Talk (List Row) := choice.elim raise pure
        Alike (fun rows other => other = rows.map id) (x.run fuel other).1 (x.run fuel other).1 ∧
          (x.run fuel other).2 = (x.run fuel other).2 ∧
            Framed call privilege start (x.run fuel other).2 := by
      cases choice with
      | none => exact ⟨trivial, rfl, framed⟩
      | some rows => exact ⟨(List.map_id rows).symm, rfl, framed⟩
    exact ended (other.database.mail.listMessages query)
  inserted node msg := (framed_insertMessage node msg).blind
  killed {number row} known free parties := Keeps.blind
    (@framed_updateMail call privilege start number row (fun row => { row with status := statusKilled })
      (fun _ => ⟨rfl, rfl⟩) known free parties (fun _ => rfl) fun _ _ => killed_ne_held)
  marked known new parties date := Keeps.blind
    (framed_updateMail known (by rw [new]; decide) parties
      (fun row => by split <;> rfl) fun row free => by
        split
        · exact read_ne_held
        · exact free)

theorem commandLoop_blind {o : Outlook} (node : Node) (open_ : o.veil = id) :
    Blind o.related (commandLoop node) := by
  have answered (line : Text) : Blind o.related (answerLine node line) :=
    answerLine_blind fun _ _ _ _ => congrFun open_ _
  have turned : Blind o.related (turn node) := by
    unfold turn
    infer_instance
  unfold commandLoop
  infer_instance

theorem session_blind {o : Outlook} (node : Node) (open_ : o.veil = id) : Blind o.related (session node) := by
  have looped := commandLoop_blind node open_
  have dispatched (line : Text) : Blind o.related (dispatch node line) :=
    dispatch_blind fun _ _ _ _ => congrFun open_ _
  have started (call : Text) : Blind o.related (getStartupCommands call) :=
    o.apart ⟨fun _ _ _ => rfl, fun _ _ => rfl⟩
  have greeted : Blind o.related (postLogin node) := by
    unfold postLogin
    infer_instance
  unfold session
  infer_instance

end Framed

/-- A session that is not a sysop's, whose record is the stored one, changes only what is
the user's own, at every moment and whatever is typed. -/
theorem session_changes_own (node : Node) (console : Console) (user : User)
    (begun : console.user = some user) (cached : console.database.users.getUser user.call = some user)
    (plain : user.privilege ≠ privSysop) (fuel : Nat) :
    Changes user.call user.privilege console.database
        ((commandLoop node).run fuel console).2.database ∧
      Changes user.call user.privilege console.database ((session node).run fuel console).2.database := by
  have framed : Framed user.call user.privilege console.database console := by
    refine ⟨⟨user, begun, rfl, rfl⟩, fun id old stored => ⟨old, stored, .refl _ _⟩, ?_, fun _ _ => rfl,
      fun _ _ => rfl, user, cached, rfl⟩
    intro id row missing found
    rw [missing] at found
    cases found
  have kept {x : Talk Unit}
      (blind : Blind (ownOutlook user.call user.privilege console.database plain).related x) :
      Changes user.call user.privilege console.database (x.run fuel console).2.database :=
    (Blind.keeps blind).kept fuel console framed |>.changes
  exact ⟨kept (commandLoop_blind node rfl), kept (session_blind node rfl)⟩

/-- A letter from W1AW. -/
def letterTo (toCall bid : Text) : Message where
  bid
  msgType := msgPrivate
  fromCall := "W1AW"
  toCall
  atBbs := ""
  subject := "Hello"
  body := "Hello"
  createdAt := none

def recipient : User := User.new "N0AAA" privUser "" ⟨2026, 1, 1, 8, 0, 0⟩

/-- A letter to another station and one to N0AAA, who asks to kill both. -/
def recipientTerminal : Console :=
  let first := (BBSStore.empty.insertMessage (letterTo "W3BBS" "1_W1AW") statusNew).1
  let second := (first.insertMessage (letterTo "N0AAA" "2_W1AW") statusNew).1
  terminal second recipient (UserTable.new_storable _ _ _ _) ["K 1", "K 2", "NH Ann", "B"]

theorem recipient_changes_own :
    ((commandLoop bareNode).run 5 recipientTerminal).2.database.mail.messages.map Row.status =
        [statusNew, statusKilled] ∧
      Changes "N0AAA" privUser recipientTerminal.database
        ((commandLoop bareNode).run 5 recipientTerminal).2.database ∧
      Changes "N0AAA" privUser recipientTerminal.database
        ((session bareNode).run 5 recipientTerminal).2.database :=
  ⟨by rfl, session_changes_own bareNode recipientTerminal recipient rfl rfl (by decide) 5⟩

end PyBulletin.Session
