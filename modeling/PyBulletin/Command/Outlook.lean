import PyBulletin.Session.Lifecycle

set_option autoImplicit false

namespace PyBulletin.Session

open PyBulletin.Foundation
open PyBulletin.Foundation.Stateful
open PyBulletin.Store

/-! # What the session of a user is free to do

A relation between consoles that the operations of a session keep, as long as it stays with
what a user may see and write who is no sysop.  The commands are checked once against any
such relation.
-/

/-- The record of the user of a session. -/
structure Own (call privilege : Text) (user : User) : Prop where
  call_eq : user.call = call
  privilege_eq : user.privilege = privilege

/-- A private message that is neither from `call` nor to it. -/
structure Hidden (call : Text) (row : Row) : Prop where
  isPrivate : row.msgType = msgPrivate
  notFrom : row.fromCall ≠ call
  notTo : row.toCall ≠ call

/-- A computation that has nothing to do with the database and the user. -/
structure Apart {α : Type} (x : Talk α) : Prop where
  anyDatabase : ∀ fuel console database,
    x.run fuel { console with database } =
      ((x.run fuel console).1, { (x.run fuel console).2 with database })
  sameUser : ∀ fuel console, (x.run fuel console).2.user = console.user

theorem Apart.sameDatabase {α : Type} {x : Talk α} (apart : Apart x) (fuel : Nat) (console : Console) :
    (x.run fuel console).2.database = console.database := by
  have again := apart.anyDatabase fuel console console.database
  exact congrArg (fun result => result.2.database) again

/-- A rewriting of bodies. -/
def Redacts (change : Row → Row) : Prop := ∀ row, ∃ body, change row = { row with body }

theorem Redacts.keys {change : Row → Row} (redacts : Redacts change) (row : Row) :
    (change row).id = row.id ∧ (change row).bid = row.bid := by
  obtain ⟨body, same⟩ := redacts row
  rw [same]
  exact ⟨rfl, rfl⟩

/-- A part of the console that shows no bodies. -/
def Bodiless {α : Type} (view : Console → α) : Prop :=
  ∀ (console : Console) (change : Row → Row) (redacts : Redacts change),
    view (console.withMail (console.database.mail.amend change redacts.keys)) = view console

theorem bodiless_count (query : CountQuery) :
    Bodiless fun console => (console.database.mail.messages.filter query.selects).length := by
  intro console change redacts
  have same (row : Row) : query.selects (change row) = query.selects row := by
    obtain ⟨body, same⟩ := redacts row
    rw [same]
    rfl
  simp only [Console.withMail]
  rw [BBSStore.filter_amend same, List.length_map]

/-- The relation, how the rows of a message that both consoles list differ, and what is known
of the row that is found under a number. -/
structure Outlook where
  call : Text
  privilege : Text
  plain : privilege ≠ privSysop
  related : Console → Console → Prop
  veil : Row → Row
  known : Int → Row → Prop
  redacts : Redacts veil
  hides : ∀ {number : Int} {row : Row}, known number row → veil row = row ∨ Hidden call row
  apart : ∀ {α : Type} {x : Talk α}, Apart x → Blind related x
  viewed : ∀ {α : Type} {view : Console → α}, Bodiless view →
    Twin related (fun value other => other = value ∧ ∃ console, view console = value) (get view)
      (get view)
  me : Twin related (fun user other => other = user ∧ Own call privilege user) me me
  saved : ∀ {user : User}, Own call privilege user → Blind related (saveUser user)
  published : ∀ {entry : WPEntry}, Text.upper entry.call = Text.upper call →
    Blind related (upsertWpEntry entry)
  looked : ∀ number : Int,
    Twin related
      (fun found other => other = found.map veil ∧ ∀ row, found = some row → known number row)
      (getMessage number) (getMessage number)
  listed : ∀ query : MessageQuery,
    Twin related (fun rows other => other = rows.map veil) (listMessages query) (listMessages query)
  inserted : ∀ (node : Node) (msg : Message), Blind related (insertMessage node msg)
  killed : ∀ {number : Int} {row : Row}, known number row → row.status ≠ statusHeld →
    row.fromCall = call ∨ row.toCall = call → Blind related (updateMail number BBSStore.killMessage)
  marked : ∀ {number : Int} {row : Row}, known number row → row.status = statusNew →
    row.fromCall = call ∨ row.toCall = call → ∀ date,
      Blind related (updateMail number fun mail id => mail.markRead id call date)

namespace Outlook

variable {o : Outlook} {α : Type} {node : Node}

theorem view {view : Console → α} (bodiless : Bodiless view) : Blind o.related (get view) where
  twin := (o.viewed bodiless).mono fun _ _ same => same.1.symm

instance : Blind o.related (get Console.user) := view fun _ _ _ => rfl
instance : Blind o.related (get Console.asked) := view fun _ _ _ => rfl
instance : Blind o.related (get Console.unread) := view fun _ _ _ => rfl

instance (text : Text) : Blind o.related (send text) := o.apart ⟨fun _ _ _ => rfl, fun _ _ => rfl⟩

instance (data : Bytes) : Blind o.related (sendRaw data) := o.apart ⟨fun _ _ _ => rfl, fun _ _ => rfl⟩

instance : Blind o.related (readline node) := by
  refine o.apart ⟨fun fuel console database => ?_, fun fuel console => ?_⟩
  · obtain ⟨_, _, _, _, _, _, _ | ⟨line, unread⟩, _, _⟩ := console <;> rfl
  · obtain ⟨_, _, _, _, _, _, _ | ⟨line, unread⟩, _, _⟩ := console <;> rfl

instance : Blind o.related (readlineHidden node) := by
  unfold readlineHidden
  infer_instance

instance (key : Text) (fields : List (Text × Field)) : Blind o.related (string node key fields) := by
  unfold string
  infer_instance

instance (key : Text) (fields : List (Text × Field)) : Blind o.related (say node key fields) := by
  unfold say
  infer_instance

instance : Blind o.related Session.me where
  twin := o.me.mono fun _ _ same => same.1.symm

theorem blind_me {next : User → Talk α}
    (own : ∀ user, Own o.call o.privilege user → Blind o.related (next user)) :
    Blind o.related (Session.me >>= next) where
  twin := o.me.bind fun user _ same => by
    rw [same.1]
    exact (own user same.2).twin

instance (answer : Nat → α) : Blind o.related (ask answer) := by
  have counted (asked : Nat) : Blind o.related
      (modify fun console : Console => { console with asked := asked + 1 }) :=
    o.apart ⟨fun _ _ _ => rfl, fun _ _ => rfl⟩
  unfold ask
  infer_instance

instance : Blind o.related (now node) := by
  unfold now
  infer_instance

instance (length : Int) (lines page : List Text) (count : Nat) :
    Blind o.related (sendPages node length lines page count) := by
  induction lines generalizing page count with
  | nil =>
      unfold sendPages
      infer_instance
  | cons line lines ih =>
      unfold sendPages
      infer_instance

instance (text : Text) : Blind o.related (sendPaged node text) := by
  unfold sendPaged
  infer_instance

instance {fits : Prop} [Decidable fits] {x : Talk α} [Blind o.related x] :
    Blind o.related (guarded fits x) := by
  unfold guarded
  infer_instance

theorem veil_keys (row : Row) : (o.veil row).id = row.id ∧ (o.veil row).bid = row.bid :=
  o.redacts.keys row

theorem blind_getMessage {number : Int} {next : Option Row → Talk α}
    (missing : Blind o.related (next none))
    (plain : ∀ row, o.known number row → o.veil row = row → Blind o.related (next (some row)))
    (hidden : ∀ row body, o.known number row → Hidden o.call row →
      Twin o.related Eq (next (some row)) (next (some { row with body }))) :
    Blind o.related (getMessage number >>= next) where
  twin := (o.looked number).bind fun found other same => by
    obtain ⟨rfl, known⟩ := same
    cases found with
    | none => exact missing.twin
    | some row =>
        rw [Option.map_some]
        have found := known row rfl
        rcases o.hides found with seen | secret
        · rw [seen]
          exact (plain row found seen).twin
        · obtain ⟨body, same⟩ := o.redacts row
          rw [same]
          exact hidden row body found secret

theorem blind_listMessages {query : MessageQuery} {next : List Row → Talk α}
    (same : ∀ rows, next (rows.map o.veil) = next rows)
    (blind : ∀ rows, Blind o.related (next rows)) :
    Blind o.related (listMessages query >>= next) where
  twin := (o.listed query).bind fun rows other veil => by
    rw [veil, same]
    exact (blind rows).twin

instance (query : CountQuery) : Blind o.related (countMessages query) := view (bodiless_count query)

instance (call : Text) : Blind o.related (getUser call) := view fun _ _ _ => rfl

instance (call : Text) : Blind o.related (getWpEntry call) := view fun _ _ _ => rfl

instance (msg : Message) : Blind o.related (insertMessage node msg) := o.inserted node msg

end Outlook

end PyBulletin.Session
