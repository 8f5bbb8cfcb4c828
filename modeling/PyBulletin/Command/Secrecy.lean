import Mathlib.Logic.Relation
import PyBulletin.Command.Conduct

set_option autoImplicit false

namespace PyBulletin.Session

open PyBulletin.Foundation
open PyBulletin.Foundation.Stateful
open PyBulletin.Store
open PyBulletin.Command.Engine

/-! # What a terminal shows of a message between others

Two consoles differ in the body of one private message, which the user of the session has
neither sent nor received.  A session goes the same way on both and leaves them different in
that body only, unless it copies the message.
-/

/-- The row with another body, if it is message `id`. -/
def veiled (id : Nat) (body : Text) (row : Row) : Row := if row.id = id then { row with body } else row

theorem veiled_redacts (id : Nat) (body : Text) : Redacts (veiled id body) := by
  intro row
  rw [veiled]
  split
  · exact ⟨body, rfl⟩
  · exact ⟨row.body, rfl⟩

section Veiled

variable {id : Nat} {body : Text} {row : Row}

theorem veiled_other (other : row.id ≠ id) : veiled id body row = row := if_neg other

theorem veiled_commute {change : Row → Row} (same : ∀ row, (change row).id = row.id)
    (blind : ∀ row body, change { row with body } = { change row with body }) (row : Row) :
    change (veiled id body row) = veiled id body (change row) := by
  rw [veiled, veiled]
  by_cases target : row.id = id
  · rw [if_pos target, if_pos ((same row).trans target)]
    exact blind row body
  · rw [if_neg target, if_neg fun other => target ((same row).symm.trans other)]

theorem selects_veiled (query : MessageQuery) : query.selects (veiled id body row) = query.selects row := by
  obtain ⟨other, same⟩ := veiled_redacts id body row
  rw [same]
  rfl

end Veiled

def Console.withBody (id : Nat) (body : Text) (console : Console) : Console :=
  console.withMail (console.database.mail.amend (veiled id body) (veiled_redacts id body).keys)

/-- The user of the session is no sysop, and message `id` is hidden from the user. -/
structure Guarded (call privilege : Text) (id : Nat) (console : Console) : Prop where
  user : ∃ user, console.user = some user ∧ Own call privilege user
  message : ∃ row, console.database.mail.getMessage id = some row ∧ Hidden call row

/-- The consoles differ in the body of the hidden message. -/
def Differ (call privilege : Text) (id : Nat) (body : Text) (console other : Console) : Prop :=
  other = console.withBody id body ∧ Guarded call privilege id console

section Operations

variable {call privilege : Text} {id : Nat} {body : Text} {α : Type}

theorem differ_apart {x : Talk α} (apart : Apart x) : Blind (Differ call privilege id body) x where
  twin fuel console other differ := by
    obtain ⟨rfl, guarded⟩ := differ
    have same : x.run fuel (console.withBody id body) =
        ((x.run fuel console).1, (x.run fuel console).2.withBody id body) := by
      have database := apart.sameDatabase fuel console
      simp only [Console.withBody, Console.withMail, database]
      exact apart.anyDatabase fuel console _
    rw [same]
    refine ⟨?_, rfl, ?_, ?_⟩
    · cases (x.run fuel console).1 <;> trivial
    · rw [apart.sameUser]
      exact guarded.user
    · rw [apart.sameDatabase]
      exact guarded.message

theorem differ_me :
    Twin (Differ call privilege id body) (fun user other => other = user ∧ Own call privilege user)
      me me := by
  have known : Twin (Differ call privilege id body)
      (fun user other => other = user ∧ ∃ record, user = some record ∧ Own call privilege record)
      (get Console.user) (get Console.user) :=
    twin_get fun console other differ => by
      obtain ⟨rfl, guarded⟩ := differ
      exact ⟨rfl, guarded.user⟩
  refine known.bind fun user other same => ?_
  obtain ⟨rfl, record, rfl, own⟩ := same
  exact twin_pure ⟨rfl, own⟩

theorem differ_modify {change : Console → Console}
    (same : ∀ console, change (console.withBody id body) = (change console).withBody id body)
    (guarded : ∀ console, Guarded call privilege id console → Guarded call privilege id (change console)) :
    Blind (Differ call privilege id body) (modify change) where
  twin := twin_modify fun console other differ => by
    rw [differ.1]
    exact ⟨same console, guarded console differ.2⟩

theorem differ_saveUser {user : User} (own : Own call privilege user) :
    Blind (Differ call privilege id body) (saveUser user) := by
  have remembered : Blind (Differ call privilege id body)
      (modify fun console : Console => { console with user := some user }) :=
    differ_modify (fun _ => rfl) fun _ guarded => ⟨⟨user, rfl, own⟩, guarded.message⟩
  have stored : Blind (Differ call privilege id body) (upsertUser user) := by
    unfold upsertUser
    split
    · exact differ_modify (fun _ => rfl) fun _ guarded => ⟨guarded.user, guarded.message⟩
    · infer_instance
  unfold saveUser
  infer_instance

theorem differ_getMessage (number : Int) :
    Twin (Differ call privilege id body)
      (fun found other => other = found.map (veiled id body) ∧
        ∀ row, found = some row → (row.id : Int) = number ∧ (row.id = id → Hidden call row))
      (getMessage number) (getMessage number) := by
  unfold getMessage guarded
  split
  · refine twin_get fun console other differ => ?_
    obtain ⟨rfl, _, row, stored, hidden⟩ := differ
    by_cases natural : 0 ≤ number
    · simp only [if_pos natural]
      refine ⟨@BBSStore.getMessage_amend console.database.mail (veiled id body)
        (veiled_redacts id body).keys number.toNat, fun listed found => ?_⟩
      have named := (BBSStore.getMessage_id found).2
      refine ⟨by omega, fun same => ?_⟩
      rw [← named, same, stored] at found
      cases found
      exact hidden
    · simp only [if_neg natural]
      exact ⟨rfl, nofun⟩
  · exact fun _ _ _ differ => ⟨trivial, differ⟩

theorem differ_listMessages (query : MessageQuery) :
    Twin (Differ call privilege id body) (fun rows other => other = rows.map (veiled id body))
      (listMessages query) (listMessages query) := by
  have listed : Twin (Differ call privilege id body)
      (fun rows other => other = rows.map (List.map (veiled id body)))
      (get fun console => console.database.mail.listMessages query)
      (get fun console => console.database.mail.listMessages query) :=
    twin_get fun console other differ => by
      rw [differ.1]
      exact @BBSStore.listMessages_amend console.database.mail (veiled id body)
        (veiled_redacts id body).keys query fun _ => selects_veiled query
  refine listed.bind fun rows other same => ?_
  subst same
  cases rows with
  | none => exact Blind.raise.twin
  | some rows => exact twin_pure rfl

theorem differ_updateMail {number : Int} {change : Row → Row}
    {keys : ∀ row, (change row).id = row.id ∧ (change row).bid = row.bid}
    (blind : ∀ row body, change { row with body } = { change row with body })
    (hidden : ∀ row, Hidden call row → Hidden call (change row)) :
    Blind (Differ call privilege id body)
      (updateMail number fun mail target => mail.update target change keys) := by
  have changed : Blind (Differ call privilege id body) (modify fun console : Console =>
      if 0 ≤ number then console.withMail (console.database.mail.update number.toNat change keys)
      else console) := by
    refine differ_modify (fun console => ?_) fun console guarded => ?_
    · split
      · simp only [Console.withBody, Console.withMail]
        rw [BBSStore.update_amend (veiled_commute (fun row => (keys row).1) blind)]
      · rfl
    · split
      · obtain ⟨user, row, stored, secret⟩ := guarded
        refine ⟨user, ?_⟩
        simp only [Console.withMail, BBSStore.getMessage_update, stored]
        split
        · exact ⟨change row, rfl, hidden row secret⟩
        · exact ⟨row, rfl, secret⟩
      · exact guarded
  unfold updateMail guarded
  infer_instance

theorem differ_inserted (msg : Message) :
    Twin (Differ call privilege id body)
      (fun inserted other => other.2 = inserted.2 ∧
        other.1 = inserted.1.amend (veiled id body) (veiled_redacts id body).keys ∧
          ∃ row, inserted.1.getMessage id = some row ∧ Hidden call row)
      (get fun console => console.database.mail.insertMessage msg statusNew)
      (get fun console => console.database.mail.insertMessage msg statusNew) :=
  twin_get fun console other differ => by
    obtain ⟨rfl, _, row, stored, hidden⟩ := differ
    have old : console.database.mail.sequence + 1 ≠ id := by
      obtain ⟨listed, number⟩ := BBSStore.getMessage_id stored
      have issued := console.database.mail.issued row listed
      omega
    exact ⟨@BBSStore.insertMessage_amend console.database.mail (veiled id body)
      (veiled_redacts id body).keys msg statusNew, BBSStore.insertMessage_store_amend (veiled_other old), row,
      BBSStore.getMessage_insertMessage _ stored msg statusNew, hidden⟩

theorem differ_insertMessage (node : Node) (msg : Message) :
    Blind (Differ call privilege id body) (insertMessage node msg) := by
  have dated : Blind (Differ call privilege id body) (now node) :=
    differ_apart ⟨fun _ _ _ => rfl, fun _ _ => rfl⟩
  have named (date : DateTime) (sender : Text) : Blind (Differ call privilege id body)
      (reading fun console => console.database.mail.generateBid date sender) := by
    refine ⟨fun fuel console other differ => ?_⟩
    have same : other.database.mail.generateBid date sender =
        console.database.mail.generateBid date sender := by
      rw [differ.1]
      simp only [BBSStore.generateBid, Console.withBody, Console.withMail, BBSStore.hasBid_amend]
    simp only [reading, same]
    refine ⟨?_, differ⟩
    cases (console.database.mail.generateBid date sender).run fuel <;> trivial
  have stored (bid : Text) : Blind (Differ call privilege id body)
      ((get fun console => console.database.mail.insertMessage { msg with bid } statusNew) >>=
        fun inserted => modify (fun console => console.withMail inserted.1) >>=
          fun _ => inserted.2.elim raise pure) := by
    refine ⟨(differ_inserted { msg with bid }).bind fun inserted other same => ?_⟩
    obtain ⟨number, mail, known⟩ := same
    refine Twin.bind (V := Eq) (twin_modify fun console other differ => ?_) fun _ _ _ => ?_
    · rw [differ.1, mail]
      exact ⟨rfl, differ.2.user, known⟩
    · rw [number]
      exact Blind.elim.twin
  unfold insertMessage
  infer_instance

/-- What a session may be told and may do that must not tell the two bodies apart. -/
def secretOutlook (call privilege : Text) (id : Nat) (body : Text) (plain : privilege ≠ privSysop) :
    Outlook where
  call
  privilege
  plain
  related := Differ call privilege id body
  veil := veiled id body
  known number row := (row.id : Int) = number ∧ (row.id = id → Hidden call row)
  redacts := veiled_redacts id body
  hides {_ row} known := by
    by_cases target : row.id = id
    · exact .inr (known.2 target)
    · exact .inl (veiled_other target)
  apart := differ_apart
  viewed bodiless := twin_get fun console other differ => by
    rw [differ.1]
    exact ⟨bodiless console _ (veiled_redacts id body), console, rfl⟩
  me := differ_me
  saved := differ_saveUser
  published _ := differ_modify (fun _ => rfl) fun _ guarded => ⟨guarded.user, guarded.message⟩
  looked := differ_getMessage
  listed := differ_listMessages
  inserted := differ_insertMessage
  killed {number _} _ _ _ :=
    @differ_updateMail call privilege id body number (fun row => { row with status := statusKilled })
      (fun _ => ⟨rfl, rfl⟩) (fun _ _ => rfl) fun _ hidden => ⟨hidden.isPrivate, hidden.notFrom, hidden.notTo⟩
  marked _ _ _ _ := differ_updateMail (fun _ _ => by dsimp only; split <;> rfl) fun _ hidden => by
    split <;> exact ⟨hidden.isPrivate, hidden.notFrom, hidden.notTo⟩

end Operations

section Prompts

variable (node : Node)

/-- The prompts that the loop comes to from one of them. -/
def Prompts : Console → Console → Prop :=
  Relation.ReflTransGen fun console later => ∃ fuel, (turn node).run fuel console = (.returned (.inl ()), later)

/-- The number of the message that the next line copies. -/
def copiesNext (console : Console) : Option Int := console.unread.head?.bind fun line => copied (Text.strip line)

variable {node} {lines : List Text}

instance (text : Text) : Keeps (fun console : Console => console.unread = lines) (send text) :=
  ⟨fun _ _ begun => begun⟩

/-- A prompt reads nothing. -/
instance : Keeps (fun console : Console => console.unread = lines) (prompt node) := by
  unfold prompt
  infer_instance

theorem prompt_outlook {o : Outlook} {number : Nat} :
    Twin (fun console other => o.related console other ∧ copiesNext console ≠ some (number : Int)) Eq
      (prompt node) (prompt node) := by
  refine Blind.twin.and_keeps ⟨fun fuel console apart => ?_⟩
  have kept : ((prompt node).run fuel console).2.unread = console.unread :=
    Keeps.kept (P := fun later : Console => later.unread = console.unread) fuel console rfl
  rwa [copiesNext, kept]

variable {call privilege : Text} {id : Nat} {body : Text} {console : Console}

/-- The line behind a prompt is answered the same way, if it does not copy the message. -/
theorem answer_differ (plain : privilege ≠ privSysop) (guarded : Guarded call privilege id console)
    (free : copiesNext console ≠ some (id : Int)) (fuel : Nat) :
    let x := readline node >>= fun line => answerLine node (Text.strip line)
    Alike Eq (x.run fuel console).1 (x.run fuel (console.withBody id body)).1 ∧
      Differ call privilege id body (x.run fuel console).2 (x.run fuel (console.withBody id body)).2 := by
  let o := secretOutlook call privilege id body plain
  have answered (line : Text) (later : Console) (secret : Guarded call privilege id later)
      (free : copied line ≠ some (id : Int)) :
      Alike Eq ((answerLine node line).run fuel later).1
          ((answerLine node line).run fuel (later.withBody id body)).1 ∧
        Differ call privilege id body ((answerLine node line).run fuel later).2
          ((answerLine node line).run fuel (later.withBody id body)).2 := by
    refine (@answerLine_blind o node line fun number row named known => veiled_other fun same => ?_).twin
      fuel later _ ⟨rfl, secret⟩
    rw [named, ← known.1, same] at free
    exact free rfl
  obtain ⟨database, prefs, startup, files, disk, user, unread, sent, asked⟩ := console
  cases unread with
  | nil =>
      cases telnet : node.telnet with
      | false =>
          have waits (later : Console) (none : later.unread = []) :
              (readline node >>= fun line => answerLine node (Text.strip line)).run fuel later =
                (.pending, later) := by
            change following _ ((readline node).run fuel later) = _
            simp only [readline, none, telnet]
            rfl
          dsimp only
          rw [waits _ rfl, waits _ rfl]
          exact ⟨trivial, rfl, guarded⟩
      | true =>
          have reads (later : Console) (none : later.unread = []) :
              (readline node >>= fun line => answerLine node (Text.strip line)).run fuel later =
                (answerLine node []).run fuel later := by
            change following _ ((readline node).run fuel later) = _
            simp only [readline, none, telnet]
            rfl
          dsimp only
          rw [reads _ rfl, reads _ rfl]
          exact answered [] _ guarded fun copies => by cases copies
  | cons line unread =>
      exact answered (Text.strip line) ⟨database, prefs, startup, files, disk, user, unread, sent, asked⟩
        ⟨guarded.user, guarded.message⟩ free

/-- One turn at a prompt whose line does not copy the message. -/
theorem turn_differ (plain : privilege ≠ privSysop) (guarded : Guarded call privilege id console)
    (free : copiesNext console ≠ some (id : Int)) (fuel : Nat) :
    Alike Eq ((turn node).run fuel console).1 ((turn node).run fuel (console.withBody id body)).1 ∧
      Differ call privilege id body ((turn node).run fuel console).2
        ((turn node).run fuel (console.withBody id body)).2 := by
  let o := secretOutlook call privilege id body plain
  have prompted := @prompt_outlook node o id fuel console (console.withBody id body)
    ⟨⟨rfl, guarded⟩, free⟩
  have whole (later : Console) : (turn node).run fuel later =
      following (fun _ => (readline node >>= fun line => answerLine node (Text.strip line)).run fuel)
        ((prompt node).run fuel later) := rfl
  rw [whole, whole]
  generalize (prompt node).run fuel console = first at prompted ⊢
  generalize (prompt node).run fuel (console.withBody id body) = second at prompted ⊢
  obtain ⟨alike, differ, still⟩ := prompted
  rcases first with ⟨_ | _ | value, later⟩ <;> rcases second with ⟨_ | _ | value', later'⟩ <;>
    try exact alike.elim
  · exact ⟨trivial, differ⟩
  · exact ⟨trivial, differ⟩
  · obtain ⟨rfl, secret⟩ := differ
    exact answer_differ plain secret still fuel

/-- The loop goes the same way, if no prompt that it comes to is given a line that copies the
message. -/
theorem turns_differ (plain : privilege ≠ privSysop) (guarded : Guarded call privilege id console)
    (free : ∀ later, Prompts node console later → copiesNext later ≠ some (id : Int)) (fuel left : Nat) :
    let step (_ : Unit) := turn node
    Alike Eq (turns step fuel left () console).1 (turns step fuel left () (console.withBody id body)).1 ∧
      Differ call privilege id body (turns step fuel left () console).2
        (turns step fuel left () (console.withBody id body)).2 := by
  intro step
  induction left generalizing console with
  | zero => exact ⟨trivial, rfl, guarded⟩
  | succ left ih =>
      have turned := @turn_differ node call privilege id body console plain guarded (free console .refl) fuel
      simp only [turns, step]
      rcases ran : (turn node).run fuel console with ⟨_ | _ | value, later⟩ <;>
        rcases same : (turn node).run fuel (console.withBody id body) with ⟨_ | _ | value', later'⟩ <;>
        rw [ran, same] at turned <;> obtain ⟨alike, differ⟩ := turned <;> try exact alike.elim
      · exact ⟨trivial, differ⟩
      · exact ⟨trivial, differ⟩
      · cases alike
        cases value with
        | inl next =>
            obtain ⟨rfl, secret⟩ := differ
            exact ih secret fun last reached => free last (.head ⟨fuel, ran⟩ reached)
        | inr result => exact ⟨rfl, differ⟩

end Prompts

/-- A session of a user who is no sysop goes the same way whatever a private message between
others says, in every run whose prompts are given no line that copies the message: at every
moment the consoles differ in that body only. -/
theorem commandLoop_confidential (node : Node) (console : Console) (user : User) (id : Nat) (row : Row)
    (body : Text) (begun : console.user = some user) (plain : user.privilege ≠ privSysop)
    (stored : console.database.mail.getMessage id = some row) (hidden : Hidden user.call row)
    (free : ∀ later, Prompts node console later → copiesNext later ≠ some (id : Int)) (fuel : Nat) :
    (commandLoop node).run fuel (console.withBody id body) =
      (((commandLoop node).run fuel console).1, ((commandLoop node).run fuel console).2.withBody id body) := by
  have guarded : Guarded user.call user.privilege id console := ⟨⟨user, begun, rfl, rfl⟩, row, stored, hidden⟩
  obtain ⟨alike, same, _⟩ :=
    @turns_differ node user.call user.privilege id body console plain guarded free fuel fuel
  refine Prod.ext ?_ same
  change (turns _ fuel fuel () _).1 = (turns _ fuel fuel () _).1
  generalize (turns _ fuel fuel () console).1 = first at alike ⊢
  generalize (turns _ fuel fuel () (console.withBody id body)).1 = second at alike ⊢
  rcases first with _ | _ | value <;> rcases second with _ | _ | value' <;> try exact alike.elim
  · rfl
  · rfl
  · rfl

/-- The terminal of N0AAA at a BBS with a letter from W1AW to W2BBB. -/
def bystander (lines : List Text) : Console :=
  terminal (BBSStore.empty.insertMessage
    { bid := "1_W1AW", msgType := msgPrivate, fromCall := "W1AW", toCall := "W2BBB", atBbs := "",
      subject := "Hello", body := "Hello", createdAt := none } statusNew).1
    (User.new "N0AAA" privUser "" ⟨2026, 1, 1, 12, 0, 0⟩) (UserTable.new_storable _ _ _ _) lines

/-- A turn that ends with no fuel leads to one prompt at most. -/
theorem Prompts.behind {node : Node} {console next later : Console} {outcome : Outcome (Unit ⊕ Unit)}
    (ran : (turn node).run 0 console = (outcome, next)) (done : outcome ≠ .pending)
    (reached : Prompts node console later) :
    later = console ∨ outcome = .returned (.inl ()) ∧ Prompts node next later := by
  rcases Relation.ReflTransGen.cases_head reached with rfl | ⟨middle, ⟨fuel, turned⟩, rest⟩
  · exact .inl rfl
  · have settled := (turn node).settled (Nat.zero_le fuel) (by rwa [ran])
    rw [turned, ran] at settled
    obtain ⟨same, rfl⟩ := Prod.mk.inj settled
    exact .inr ⟨same.symm, rest⟩

theorem bystander_reads_nothing :
    (commandLoop bareNode).run 5 ((bystander ["R 1", "B"]).withBody 1 "World") =
      (((commandLoop bareNode).run 5 (bystander ["R 1", "B"])).1,
        ((commandLoop bareNode).run 5 (bystander ["R 1", "B"])).2.withBody 1 "World") := by
  refine commandLoop_confidential bareNode _ _ 1 _ "World" rfl (by decide) rfl
    ⟨rfl, by decide, by decide⟩ (fun later reached => ?_) 5
  have first : (turn bareNode).run 0 (bystander ["R 1", "B"]) = (.returned (.inl ()), _) := rfl
  rcases reached.behind first nofun with rfl | ⟨_, reached⟩
  · decide +kernel
  rcases @Prompts.behind bareNode _ _ later (.returned (.inr ())) rfl nofun reached with rfl | ⟨left, _⟩
  · decide +kernel
  · cases left

/-- `SC` copies a letter between others, and the copy is the user's to read. -/
theorem letter_told :
    ¬ ∀ (node : Node) (console : Console) (user : User) (id : Nat) (row : Row) (body : Text),
      console.user = some user → user.privilege ≠ privSysop →
      console.database.mail.getMessage id = some row → Hidden user.call row → ∀ fuel,
        (commandLoop node).run fuel (console.withBody id body) =
          (((commandLoop node).run fuel console).1,
            ((commandLoop node).run fuel console).2.withBody id body) := by
  intro claimed
  have same := claimed bareNode (bystander ["SC 1 W3BBS", "R 2", "B"]) _ 1 _ "World" rfl (by decide) rfl
    ⟨rfl, by decide, by decide⟩ 5
  have told : ((commandLoop bareNode).run 5
        ((bystander ["SC 1 W3BBS", "R 2", "B"]).withBody 1 "World")).2.sent ≠
      ((commandLoop bareNode).run 5 (bystander ["SC 1 W3BBS", "R 2", "B"])).2.sent := by
    decide +kernel
  rw [same] at told
  exact told rfl

end PyBulletin.Session
