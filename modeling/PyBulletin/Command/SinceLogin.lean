import PyBulletin.Command.Listed
import PyBulletin.Command.LoginTime

set_option autoImplicit false

namespace PyBulletin.Command.Engine

open PyBulletin.Foundation
open PyBulletin.Foundation.Stateful
open PyBulletin.Store
open PyBulletin.Session

/-! # Messages since the login

A user comes, goes and comes again.  `record_login` writes the time of the second login over
that of the first, and `LN` looks at what the session holds.
-/

/-- What becomes of the tables outside of a session: a message comes in, or the rest of the
program does something else. -/
inductive Elsewhere where
  | arrival (msg : Message) (status : Text)
  | other (change : Database → Database)

def Elsewhere.apply (database : Database) : Elsewhere → Database
  | .arrival msg status => { database with mail := (database.mail.insertMessage msg status).1 }
  | .other change => change database

/-- What happens during a session; a line is answered with a bound on the turns of loops. -/
inductive Happening where
  | line (fuel : Nat) (text : Text)
  | elsewhere (event : Elsewhere)

def Happening.apply (node : Node) (console : Console) : Happening → Console
  | .line fuel text => ((answerLine node text).run fuel console).2
  | .elsewhere event => { console with database := event.apply console.database }

/-- A terminal behind `record_login`. -/
def loggedInAt (node : Node) (call : Text) (terminal : Console) : Console :=
  ((recordLogin node call).run 0 terminal).2

/-- One session: where it comes from and what happens during it. -/
structure Visit where
  node : Node
  terminal : Console
  events : List Happening

namespace Visit

variable (visit : Visit) (call : Text)

def time : DateTime := visit.node.clock visit.terminal.asked

/-- Where the session of the user stands behind the events, on these tables at first. -/
def console (database : Database) : Console :=
  visit.events.foldl (Happening.apply visit.node)
    (loggedInAt visit.node call { visit.terminal with database })

theorem since_login (database : Database) : Since (some visit.time) (visit.console call database) := by
  have begun : Since (some visit.time)
      (loggedInAt visit.node call { visit.terminal with database }) := by
    refine ⟨database.users.loggedIn call visit.node.peer visit.time, rfl, ?_⟩
    rw [UserTable.loggedIn]
    split <;> rfl
  rw [console]
  generalize loggedInAt visit.node call { visit.terminal with database } = console at begun
  induction visit.events generalizing console with
  | nil => exact begun
  | cons event events ih =>
      refine ih _ ?_
      cases event with
      | line fuel text => exact Keeps.kept fuel console begun
      | elsewhere event => exact begun

end Visit

/-- Two visits of a user, with what happens between them. -/
structure Revisit where
  call : Text
  tables : Database
  first : Visit
  between : List Elsewhere
  second : Visit

namespace Revisit

variable (visits : Revisit)

/-- The session of the second visit. -/
def console : Console :=
  visits.second.console visits.call
    (visits.between.foldl Elsewhere.apply (visits.first.console visits.call visits.tables).database)

def messages : List Row := visits.console.database.mail.messages

end Revisit

/-- The messages that were created after a time. -/
def createdAfter (date : DateTime) (row : Row) : Bool :=
  row.status ≠ statusKilled && row.createdAt.any date.before

variable (visits : Revisit)

theorem lists_cmdListNewLogin :
    Lists cmdListNewLogin visits.second.node visits.console
      (visits.messages.filter (createdAfter visits.second.time)) := by
  obtain ⟨user, signedIn, since⟩ : Since (some visits.second.time) visits.console :=
    visits.second.since_login visits.call _
  refine ⟨visits.console.asked, fun strings fuel => ?_⟩
  have selects : ({ afterDate := some visits.second.time } : MessageQuery).selects =
      createdAfter visits.second.time := by
    funext row
    simp [MessageQuery.selects, createdAfter]
  rw [cmdListNewLogin, run_me signedIn, since, cmdListOf, run_ifRead signedIn,
    run_listMessages rfl rfl rfl, selects]
  rfl

theorem before_trans {first second third : DateTime} (less : first.before second)
    (more : second.before third) : first.before third := by
  simp only [DateTime.before, decide_eq_true_eq] at less more ⊢
  omega

theorem createdAfter_iff {first second : DateTime} (later : first.before second) (row : Row) :
    createdAfter second row = createdAfter first row ↔
      (row.status ≠ statusKilled → ∀ created ∈ row.createdAt, first.before created →
        second.before created) := by
  rw [createdAfter, createdAfter]
  by_cases live : row.status = statusKilled
  · simp [live]
  · cases row.createdAt with
    | none => simp
    | some created =>
        have behind := @before_trans first second created later
        simp only [live, ne_eq, not_false_eq_true, decide_true, Bool.true_and, Option.any_some,
          true_implies, Option.mem_def, Option.some.injEq, forall_eq']
        revert behind
        generalize first.before created = early
        generalize second.before created = late
        revert early late
        decide

/-- `LN` lists what came since the visit before exactly if nothing came until this visit. -/
theorem cmdListNewLogin_since_iff (later : visits.first.time.before visits.second.time) :
    Lists cmdListNewLogin visits.second.node visits.console
        (visits.messages.filter (createdAfter visits.first.time)) ↔
      ∀ row ∈ visits.messages, row.status ≠ statusKilled → ∀ created ∈ row.createdAt,
        visits.first.time.before created → visits.second.time.before created := by
  refine (lists_cmdListNewLogin visits).filter_iff.trans ?_
  exact forall₂_congr fun row _ => createdAfter_iff later row

def guest : Console := { listenerTerminal .empty with user := none }

/-- A visit on a day of January, before noon. -/
def visitOn (day : Nat) (events : List Happening) : Visit where
  node := { bareNode with clock := fun _ => ⟨2026, 1, day, 8, 0, 0⟩ }
  terminal := guest
  events := events

def bulletinOn (day : Nat) : Elsewhere :=
  .arrival
    { bid := "1_W1AW", msgType := msgBulletin, fromCall := "W1AW", toCall := "ALL", atBbs := "",
      subject := "Hello", body := "Hello", createdAt := some ⟨2026, 1, day, 12, 0, 0⟩ } statusNew

theorem later_bulletin_listed :
    let visits : Revisit := {
      call := "N0AAA"
      tables := guest.database
      first := visitOn 1 []
      between := []
      second := visitOn 3 [.elsewhere (bulletinOn 3)] }
    Lists cmdListNewLogin visits.second.node visits.console
      (visits.messages.filter (createdAfter visits.first.time)) := by
  refine (cmdListNewLogin_since_iff _ (by decide)).mpr ?_
  decide

/-- A bulletin that came between two visits is not listed. -/
theorem bulletin_between_missing :
    ¬ ∀ visits : Revisit, visits.first.time.before visits.second.time →
      Lists cmdListNewLogin visits.second.node visits.console
        (visits.messages.filter (createdAfter visits.first.time)) := by
  intro claimed
  have listed := claimed {
    call := "N0AAA"
    tables := guest.database
    first := visitOn 1 []
    between := [bulletinOn 2]
    second := visitOn 3 [] } (by decide)
  have agree := (lists_cmdListNewLogin _).filter_iff.mp listed
  revert agree
  decide

end PyBulletin.Command.Engine
