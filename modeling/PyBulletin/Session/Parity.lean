import PyBulletin.Session.Lifecycle
import PyBulletin.Web.Authority

set_option autoImplicit false

namespace PyBulletin.Session

open PyBulletin.Foundation
open PyBulletin.Foundation.Stateful
open PyBulletin.Store
open PyBulletin.Command.Engine
open PyBulletin.Web
open PyBulletin.Web.Authority (noon oneSysop still)

/-- `R` shows the message that has the number. -/
structure Reads (console : Console) (number : Int) (msg : Row) : Prop where
  fits : fitsColumn number
  natural : 0 ≤ number
  listed : console.database.mail.getMessage number.toNat = some msg
  live : msg.status ≠ statusKilled
  mine : ∃ user, console.user = some user ∧ mayRead user msg

/-- `K` kills the message that has the number. -/
structure Kills (console : Console) (number : Int) (msg : Row) : Prop where
  fits : fitsColumn number
  natural : 0 ≤ number
  listed : console.database.mail.getMessage number.toNat = some msg
  free : msg.status ≠ statusHeld
  mine : ∃ user, console.user = some user ∧ mayKill user msg

section Terminal

variable {node : Node} {console : Console} {number : Int} {msg : Row} {user : User} {α : Type}

theorem run_getMessage (fits : fitsColumn number) (natural : 0 ≤ number)
    (listed : console.database.mail.getMessage number.toNat = some msg) (next : Option Row → Talk α)
    (fuel : Nat) : (getMessage number >>= next).run fuel console = (next (some msg)).run fuel console := by
  change following _ ((getMessage number).run fuel console) = _
  rw [getMessage, guarded, if_pos fits]
  change (next (if 0 ≤ number then console.database.mail.getMessage number.toNat else none)).run fuel
    console = _
  rw [if_pos natural, listed]

theorem run_me (signedIn : console.user = some user) (next : User → Talk α) (fuel : Nat) :
    (me >>= next).run fuel console = (next user).run fuel console := by
  change following _ ((console.user.elim raise pure : Talk User).run fuel console) = _
  rw [signedIn]
  rfl

/-- Every user has the capability that `R` asks for. -/
theorem run_cmdRead (signedIn : console.user = some user) (args : Text) (fuel : Nat) :
    (cmdRead node args).run fuel console =
      (withIds "\r\n  Usage: R <msg#> [msg# ...]\r\n".toList args fun ids =>
        ids.forM (readOne node)).run fuel console := by
  have allowed : accessAllowed user.call capRead = true := by
    rw [accessAllowed, show defaultAccessAllowed capRead = true by decide]
    simp
  rw [cmdRead, ifCan, run_me signedIn, if_pos allowed]

/-- What `R` does with a message that it shows. -/
theorem readOne_shows (reads : Reads console number msg) (fuel : Nat) :
    (readOne node number).run fuel console = (showMessage node number msg).run fuel console := by
  obtain ⟨user, signedIn, mine⟩ := reads.mine
  rw [readOne, run_getMessage reads.fits reads.natural reads.listed, run_me signedIn,
    if_neg reads.live, if_pos mine]

theorem readOne_refuses (fits : fitsColumn number) (natural : 0 ≤ number)
    (listed : console.database.mail.getMessage number.toNat = some msg)
    (signedIn : console.user = some user) (closed : ¬ Reads console number msg) :
    ∃ key ∈ (["read.killed".toList, "read.not_yours".toList] : List Text), ∀ fuel,
      (readOne node number).run fuel console =
        (say node key [("id".toList, .number number)]).run fuel console := by
  by_cases dead : msg.status = statusKilled
  · refine ⟨_, .head _, fun fuel => ?_⟩
    rw [readOne, run_getMessage fits natural listed, run_me signedIn, if_pos dead]
  · refine ⟨_, .tail _ (.head _), fun fuel => ?_⟩
    have shut : ¬ mayRead user msg := fun mine =>
      closed ⟨fits, natural, listed, dead, user, signedIn, mine⟩
    rw [readOne, run_getMessage fits natural listed, run_me signedIn, if_neg dead, if_neg shut]

/-- What `K` does with a message that it kills. -/
theorem killOne_kills (kills : Kills console number msg) (fuel : Nat) :
    (killOne node number).run fuel console =
      (updateMail number BBSStore.killMessage >>= fun _ =>
        say node "kill.ok".toList [("id".toList, .number number)]).run fuel console := by
  obtain ⟨user, signedIn, mine⟩ := kills.mine
  rw [killOne, run_getMessage kills.fits kills.natural kills.listed, run_me signedIn,
    if_neg kills.free, if_pos mine]

theorem killOne_refuses (fits : fitsColumn number) (natural : 0 ≤ number)
    (listed : console.database.mail.getMessage number.toNat = some msg)
    (signedIn : console.user = some user) (closed : ¬ Kills console number msg) (fuel : Nat) :
    (killOne node number).run fuel console =
        (say node "kill.held".toList [("id".toList, .number number)]).run fuel console ∨
      (killOne node number).run fuel console = (say node "kill.not_yours".toList []).run fuel console := by
  by_cases held : msg.status = statusHeld
  · left
    rw [killOne, run_getMessage fits natural listed, run_me signedIn, if_pos held]
  · right
    have shut : ¬ mayKill user msg := fun mine =>
      closed ⟨fits, natural, listed, held, user, signedIn, mine⟩
    rw [killOne, run_getMessage fits natural listed, run_me signedIn, if_neg held, if_neg shut]

end Terminal

section Requests

variable {app : WebApp} {world : World} {session : WebSession} {number : Nat} {msg : Row}

theorem readMessage_iff (listed : app.database.mail.getMessage number = some msg) :
    (app.readMessage world (some session) number).2 = .json (.message (msgDetail msg)) ↔
      fitsColumn number ∧ ¬ (msg.status = statusKilled ∧ ¬ session.isSysop) ∧
        ¬ (msg.msgType = msgPrivate ∧ ¬ session.isSysop ∧
          ¬ (session.call = msg.toCall ∨ session.call = msg.fromCall)) := by
  simp only [WebApp.readMessage, WebApp.asUser, WebApp.withMessage, listed]
  by_cases fits : fitsColumn number
  · rw [if_pos fits]
    by_cases dead : msg.status = statusKilled ∧ ¬ session.isSysop
    · rw [if_pos dead]
      exact iff_of_false (fun same => by cases same) fun open_ => open_.2.1 dead
    rw [if_neg dead]
    by_cases shut : msg.msgType = msgPrivate ∧ ¬ session.isSysop ∧
        ¬ (session.call = msg.toCall ∨ session.call = msg.fromCall)
    · rw [if_pos shut]
      exact iff_of_false (fun same => by cases same) fun open_ => open_.2.2 shut
    · rw [if_neg shut]
      exact iff_of_true rfl ⟨fits, dead, shut⟩
  · rw [if_neg fits]
    exact iff_of_false (fun same => by cases same) fun open_ => fits open_.1

theorem killMessage_iff (listed : app.database.mail.getMessage number = some msg) :
    app.killMessage (some session) number =
        (app.withMail (app.database.mail.killMessage number), .json (.ok true)) ↔
      fitsColumn number ∧ ¬ (¬ session.isSysop ∧
        ¬ (session.call = msg.fromCall ∨ session.call = msg.toCall)) := by
  simp only [WebApp.killMessage, WebApp.asUser, WebApp.withMessage, listed]
  by_cases fits : fitsColumn number
  · rw [if_pos fits]
    by_cases shut : ¬ session.isSysop ∧ ¬ (session.call = msg.fromCall ∨ session.call = msg.toCall)
    · rw [if_pos shut]
      exact iff_of_false (fun same => by cases (Prod.mk.inj same).2) fun open_ => open_.2 shut
    · rw [if_neg shut]
      exact iff_of_true rfl ⟨fits, shut⟩
  · rw [if_neg fits]
    exact iff_of_false (fun same => by cases (Prod.mk.inj same).2) fun open_ => fits open_.1

end Requests

/-- A terminal session and a web session of one caller on one store. -/
structure SameCaller (console : Console) (app : WebApp) (user : User) (session : WebSession) : Prop where
  signedIn : console.user = some user
  call : session.call = user.call
  privilege : session.privilege = user.privilege
  mail : app.database.mail = console.database.mail

/-- Terminal and web take the same decisions on messages that are neither killed nor held.
Killed messages are shown to no terminal, and by web to sysops. -/
theorem same_decisions (console : Console) (app : WebApp) (world : World) (user : User)
    (session : WebSession) (number : Nat) (msg : Row) (same : SameCaller console app user session)
    (listed : console.database.mail.getMessage number = some msg) :
    (msg.status ≠ statusKilled →
      (Reads console number msg ↔
        (app.readMessage world (some session) number).2 = .json (.message (msgDetail msg)))) ∧
    (msg.status = statusKilled → ¬ Reads console number msg ∧
      ((app.readMessage world (some session) number).2 = .json (.message (msgDetail msg)) ↔
        fitsColumn number ∧ session.privilege = privSysop)) ∧
    (msg.status ≠ statusHeld →
      (Kills console number msg ↔ app.killMessage (some session) number =
        (app.withMail (app.database.mail.killMessage number), .json (.ok true)))) := by
  have stored : app.database.mail.getMessage number = some msg := by rw [same.mail, listed]
  have sysop : session.isSysop = true ↔ user.privilege = privSysop := by
    rw [WebSession.isSysop, same.privilege, decide_eq_true_iff]
  have own (record : User) (signedIn : console.user = some record) : record = user :=
    Option.some.inj (signedIn.symm.trans same.signedIn)
  refine ⟨fun live => ?_, fun dead => ⟨fun reads => reads.live dead, ?_⟩, fun free => ?_⟩
  · rw [readMessage_iff stored, same.call, sysop]
    constructor
    · rintro ⟨fits, _, _, _, record, signedIn, mine⟩
      obtain rfl := own record signedIn
      refine ⟨fits, fun gone => live gone.1, fun stranger => ?_⟩
      obtain ⟨isPrivate, plain, other⟩ := stranger
      rcases mine isPrivate with recipient | sender | operator
      · exact other (.inl recipient)
      · exact other (.inr sender)
      · exact plain operator
    · rintro ⟨fits, _, open_⟩
      refine ⟨fits, Int.natCast_nonneg number, listed, live, user, same.signedIn, fun isPrivate => ?_⟩
      by_contra shut
      simp only [not_or] at shut
      exact open_ ⟨isPrivate, shut.2.2, not_or.mpr ⟨shut.1, shut.2.1⟩⟩
  · rw [readMessage_iff stored, sysop, ← same.privilege]
    constructor
    · rintro ⟨fits, open_, _⟩
      exact ⟨fits, Classical.not_not.mp fun plain => open_ ⟨dead, plain⟩⟩
    · rintro ⟨fits, operator⟩
      exact ⟨fits, fun gone => gone.2 operator, fun gone => gone.2.1 operator⟩
  · rw [killMessage_iff stored, same.call, sysop]
    constructor
    · rintro ⟨fits, _, _, _, record, signedIn, mine⟩
      obtain rfl := own record signedIn
      refine ⟨fits, fun stranger => ?_⟩
      obtain ⟨plain, other⟩ := stranger
      rcases mine with sender | recipient | operator
      · exact other (.inl sender)
      · exact other (.inr recipient)
      · exact plain operator
    · rintro ⟨fits, open_⟩
      refine ⟨fits, Int.natCast_nonneg number, listed, free, user, same.signedIn, ?_⟩
      by_contra shut
      simp only [mayKill, not_or] at shut
      exact open_ ⟨shut.2.2, not_or.mpr ⟨shut.1, shut.2.1⟩⟩

def letterOf (status : Text) : BBSStore :=
  ((BBSStore.empty.insertMessage
    { bid := "1_W1AW", msgType := msgPrivate, fromCall := "W1AW", toCall := "N0AAA", atBbs := "",
      subject := "Hello", body := "Hello", createdAt := none } statusNew).1).updateMessageStatus 1 status

def operator : User := User.new "W3BBS" privSysop "" noon

def operatorTerminal (mail : BBSStore) : Console :=
  terminal mail operator (UserTable.new_storable _ _ _ _) []

def operatorSession : WebSession := .opened "token" "W3BBS" privSysop 0

theorem operator_decisions :
    ∃ msg, (letterOf statusNew).getMessage 1 = some msg ∧
    (msg.status ≠ statusKilled →
      (Reads (operatorTerminal (letterOf statusNew)) (1 : Nat) msg ↔
        ((oneSysop.withMail (letterOf statusNew)).readMessage (still 0) (some operatorSession) 1).2 =
          .json (.message (msgDetail msg)))) ∧
    (msg.status = statusKilled → ¬ Reads (operatorTerminal (letterOf statusNew)) (1 : Nat) msg ∧
      (((oneSysop.withMail (letterOf statusNew)).readMessage (still 0) (some operatorSession) 1).2 =
          .json (.message (msgDetail msg)) ↔
        fitsColumn (1 : Nat) ∧ operatorSession.privilege = privSysop)) ∧
    (msg.status ≠ statusHeld →
      (Kills (operatorTerminal (letterOf statusNew)) (1 : Nat) msg ↔
        (oneSysop.withMail (letterOf statusNew)).killMessage (some operatorSession) 1 =
          ((oneSysop.withMail (letterOf statusNew)).withMail ((letterOf statusNew).killMessage 1),
            .json (.ok true)))) :=
  ⟨_, rfl, same_decisions (operatorTerminal (letterOf statusNew)) (oneSysop.withMail (letterOf statusNew))
    (still 0) operator operatorSession 1 _ ⟨rfl, rfl, rfl, rfl⟩ rfl⟩

/-- A killed letter, which the web shows to a sysop and the terminal does not. -/
theorem killed_letter_shown :
    ¬ ∀ (console : Console) (app : WebApp) (world : World) (user : User) (session : WebSession)
      (number : Nat) (msg : Row), SameCaller console app user session →
      console.database.mail.getMessage number = some msg →
      (Reads console number msg ↔
        (app.readMessage world (some session) number).2 = .json (.message (msgDetail msg))) := by
  intro claimed
  obtain ⟨msg, found⟩ : ∃ msg, (letterOf statusKilled).getMessage 1 = some msg := ⟨_, rfl⟩
  have dead : msg.status = statusKilled := by
    cases found
    rfl
  have shown := (claimed (operatorTerminal (letterOf statusKilled)) (oneSysop.withMail (letterOf statusKilled))
    (still 0) operator operatorSession 1 msg ⟨rfl, rfl, rfl, rfl⟩ found).mpr
    ((readMessage_iff found).mpr ⟨by decide, fun gone => gone.2 rfl, fun gone => gone.2.1 rfl⟩)
  exact shown.live dead

end PyBulletin.Session
