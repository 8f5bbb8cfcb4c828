import PyBulletin.Command.Hangup
import PyBulletin.Command.Secrecy

set_option autoImplicit false

namespace PyBulletin.Session

open PyBulletin.Foundation
open PyBulletin.Foundation.Stateful
open PyBulletin.Store
open PyBulletin.Command

variable (node : Node)

/-- `run`, up to the login. -/
def login : Talk Bool := do
  sendBanner node
  authenticate node Login.maxAuthAttempts

/-- `run`, up to the first prompt; whether it comes to one. -/
def opening : Talk Bool := do
  if ← login node then do
    postLogin node
    let user ← me
    let startup ← getStartupCommands user.call
    startup.forM (Engine.dispatch node)
    return true
  else return false

/-- The loop and what follows it. -/
def closing : Talk Unit := do
  commandLoop node
  say node "connect.goodbye" [("node_call", .text node.config.node.nodeCall)]

/-- The next line is there, and it says goodbye. -/
def goodbyeNext (console : Console) : Bool :=
  console.unread.head?.any fun line => isGoodbye (Text.strip line)

/-- The loop does not go on behind this prompt: a goodbye comes, or an exception. -/
def Leaves (console : Console) : Prop :=
  goodbyeNext console ∨ ∃ after, (turn node).ComesTo console .raised after

variable {node} {console : Console}

instance {P : Console → Prop} [∀ text, Keeps P (send text)] : Ends P (prompt node) := by
  unfold prompt
  infer_instance

theorem run_eq : run node = opening node >>= fun opened => if opened then closing node else pure () := by
  rw [opening, login, bind_assoc, bind_assoc]
  refine congrArg (sendBanner node >>= ·) (funext fun _ => congrArg _ (funext fun opened => ?_))
  cases opened with
  | false => rfl
  | true =>
      simp only [if_true, session, bind_assoc]
      rfl

theorem prompt_unread {outcome : Outcome Unit} {middle : Console}
    (comes : (prompt node).ComesTo console outcome middle) : middle.unread = console.unread := by
  obtain ⟨-, fuel, ran⟩ := comes
  have kept := Keeps.kept (P := fun later : Console => later.unread = console.unread) (x := prompt node)
    fuel console rfl
  rwa [ran] at kept

/-- A line is answered with the end of the loop only where it says goodbye. -/
theorem answerLine_goodbye {line : Text} {middle after : Console}
    (comes : (answerLine node line).ComesTo middle (.returned (.inr ())) after) : isGoodbye line := by
  rw [answerLine] at comes
  split at comes
  · cases (comesTo_pure.mp comes).1
  · split at comes
    · assumption
    · rcases bind_comesTo comes with ⟨raised, -⟩ | ⟨_, _, -, last⟩
      · cases raised
      · cases (comesTo_pure.mp last).1

theorem answerLine_of_goodbye {line : Text} (goodbye : isGoodbye line) (middle : Console) :
    (answerLine node line).ComesTo middle (.returned (.inr ())) middle := by
  have some_ : line ≠ [] := by
    rintro rfl
    cases goodbye
  rw [answerLine, if_neg some_, if_pos goodbye]
  exact comesTo_pure.mpr ⟨rfl, rfl⟩

/-- What is read is the next line, or nothing. -/
theorem readline_comesTo {line : Text} {after : Console}
    (comes : (readline node).ComesTo console (.returned line) after) :
    console.unread.head? = some line ∨ line = [] := by
  obtain ⟨-, fuel, read⟩ := comes
  cases lines : console.unread with
  | cons next unread =>
      simp only [readline, lines] at read
      cases read
      exact .inl rfl
  | nil =>
      simp only [readline, lines] at read
      cases telnet : node.telnet <;> rw [telnet] at read <;> cases read
      exact .inr rfl

/-- The loop ends at a prompt with a goodbye only. -/
theorem goodbyeNext_of_turn {after : Console}
    (comes : (turn node).ComesTo console (.returned (.inr ())) after) : goodbyeNext console := by
  rcases bind_comesTo comes with ⟨raised, -⟩ | ⟨_, middle, prompted, rest⟩
  · cases raised
  · rcases bind_comesTo rest with ⟨raised, -⟩ | ⟨line, _, read, answered⟩
    · cases raised
    · have goodbye := answerLine_goodbye answered
      rw [goodbyeNext, ← prompt_unread prompted]
      rcases readline_comesTo read with next | rfl
      · rwa [next]
      · cases goodbye

/-- At a prompt with a goodbye the loop does not go on. -/
theorem turn_of_goodbyeNext (next : goodbyeNext console) :
    ∃ outcome after, (turn node).ComesTo console outcome after ∧ outcome ≠ .returned (.inl ()) := by
  obtain ⟨outcome, middle, prompted⟩ := returns_iff.mp (Ends.returns (x := prompt node) console)
  cases outcome with
  | pending => exact absurd rfl prompted.1
  | raised => exact ⟨.raised, middle, prompted.bind_raised, by simp⟩
  | returned _ =>
      rw [goodbyeNext, ← prompt_unread prompted] at next
      cases lines : middle.unread with
      | nil =>
          rw [lines] at next
          cases next
      | cons line unread =>
          rw [lines] at next
          have read : (readline node).ComesTo middle (.returned line) { middle with unread } := by
            refine ⟨by simp, 0, ?_⟩
            simp only [readline, lines]
          exact ⟨_, _, prompted.bind (read.bind (answerLine_of_goodbye next _)), by simp⟩

theorem commandLoop_returns_iff :
    Returns (commandLoop node) console ↔ ∃ later, Prompts node console later ∧ Leaves node later := by
  rw [commandLoop, loop_returns_iff]
  refine exists_congr fun later => and_congr_right fun _ => ?_
  constructor
  · rintro ⟨outcome, after, comes, ends⟩
    match outcome, comes, ends with
    | .pending, comes, _ => exact absurd rfl comes.1
    | .raised, comes, _ => exact .inr ⟨after, comes⟩
    | .returned (.inl ()), _, ends => exact absurd rfl ends
    | .returned (.inr ()), comes, _ => exact .inl (goodbyeNext_of_turn comes)
  · rintro (goodbye | ⟨after, raised⟩)
    · exact turn_of_goodbyeNext goodbye
    · exact ⟨.raised, after, raised, nofun⟩

theorem closing_returns_iff :
    Returns (closing node) console ↔ ∃ last, Prompts node console last ∧ Leaves node last := by
  rw [← commandLoop_returns_iff]
  exact bind_returns_iff.trans (and_iff_left fun _ after _ => Ends.returns after)

/-- A session ends exactly if all before its first prompt ends, and it comes to a prompt that it
leaves, if it comes to one at all. -/
theorem run_returns_iff (node : Node) (console : Console) :
    Returns (run node) console ↔
      ∃ outcome later, (opening node).ComesTo console outcome later ∧
        (outcome = .returned true → ∃ last, Prompts node later last ∧ Leaves node last) := by
  rw [run_eq, bind_returns_iff, returns_iff]
  constructor
  · rintro ⟨⟨outcome, later, begun⟩, rest⟩
    refine ⟨outcome, later, begun, ?_⟩
    rintro rfl
    exact closing_returns_iff.mp (rest true later begun)
  · rintro ⟨outcome, later, begun, left⟩
    refine ⟨⟨outcome, later, begun⟩, fun opened after comes => ?_⟩
    obtain ⟨rfl, rfl⟩ := begun.unique comes
    cases opened with
    | false => exact (Ends.returns later : Returns (Pure.pure () : Talk Unit) later)
    | true => exact closing_returns_iff.mpr (left rfl)

section Telnet

variable {user : User}

instance (call : Text) : Engine.Finishes (recordLogin node call) := by
  unfold recordLogin
  infer_instance

instance [Engine.OverTelnet node] (call : Text) : Engine.Finishes (checkPassword node call) := by
  have judged (choice : Option Bool) : Engine.Finishes
      (choice.elim Stateful.raise fun verified =>
        if verified then do
          recordLogin node call
          return true
        else do
          say node "auth.bad_password" []
          return false : Talk Bool) := inferInstance
  unfold checkPassword
  infer_instance

instance [Engine.OverTelnet node] (left : Nat) : Engine.Finishes (authenticate node left) := by
  induction left with
  | zero =>
      unfold authenticate
      infer_instance
  | succ left ih =>
      unfold authenticate
      infer_instance

instance [Engine.OverTelnet node] : Engine.Finishes (login node) := by
  unfold login sendBanner
  infer_instance

/-- The login itself ends whatever comes. -/
theorem login_returns (telnet : node.telnet = true) (console : Console) : Returns (login node) console :=
  have : Engine.OverTelnet node := ⟨telnet⟩
  Ends.returns console

/-- No startup command of anyone is one that may last. -/
def StartsShort (console : Console) : Prop :=
  ∀ call, ∀ line ∈ console.startup call, Engine.Short line

section Startup

instance (text : Text) : Keeps StartsShort (send text) := ⟨fun _ _ begun => begun⟩

instance (data : Bytes) : Keeps StartsShort (sendRaw data) := ⟨fun _ _ begun => begun⟩

instance : Keeps StartsShort (readline node) where
  kept fuel console begun := by
    obtain ⟨_, _, _, _, _, _, _ | ⟨line, unread⟩, _, _⟩ := console <;> exact begun

instance : Keeps StartsShort (readlineHidden node) := by
  unfold readlineHidden
  infer_instance

instance (call : Text) : Keeps StartsShort (recordLogin node call) := ⟨fun _ _ begun => begun⟩

instance (call : Text) : Keeps StartsShort (checkPassword node call) := by
  unfold checkPassword
  infer_instance

instance (left : Nat) : Keeps StartsShort (authenticate node left) := by
  induction left with
  | zero =>
      unfold authenticate
      infer_instance
  | succ left ih =>
      unfold authenticate
      infer_instance

instance : Keeps StartsShort (login node) := by
  unfold login sendBanner
  infer_instance

instance : Keeps StartsShort (postLogin node) := by
  unfold postLogin
  infer_instance

variable (node) in
theorem startup_ends [Engine.OverTelnet node] (call : Text) :
    Ends StartsShort (getStartupCommands call >>= fun startup => do
      startup.forM (Engine.dispatch node)
      return true) where
  ends console short := by
    have listed : (getStartupCommands call).ComesTo console (.returned (console.startup call.upper)) console :=
      ⟨nofun, 0, rfl⟩
    rw [listed.bind_returns]
    have each := short call.upper
    generalize console.startup call.upper = lines at each
    have run : Engine.Finishes (lines.forM (Engine.dispatch node)) := by
      induction lines with
      | nil => exact Ends.pure
      | cons line lines ih =>
          obtain ⟨first, others⟩ := List.forall_mem_cons.mp each
          have served : Engine.Finishes (Engine.dispatch node line) := Engine.dispatch_finishes first
          have rest := ih others
          exact Ends.bind
    exact Ends.returns console

end Startup

/-- Over telnet all that comes before the first prompt ends. -/
theorem opening_returns (telnet : node.telnet = true) (short : StartsShort console) :
    Returns (opening node) console := by
  have : Engine.OverTelnet node := ⟨telnet⟩
  have served (user : User) := startup_ends node user.call
  have begun : Ends StartsShort (login node) := ⟨fun console _ => login_returns telnet console⟩
  have greeted : Ends StartsShort (postLogin node) := by
    unfold postLogin
    infer_instance
  have whole : Ends StartsShort (opening node) := by
    unfold opening
    infer_instance
  exact whole.ends console short

/-- A user is signed in, and no line is left. -/
structure AtEnd (user : User) (console : Console) : Prop where
  signedIn : console.user = some user
  ended : console.unread = []

theorem prompt_at_end (complete : ∀ key fields, (node.strings key fields).isSome)
    (at_ : AtEnd user console) :
    ∃ middle, (prompt node).ComesTo console (.returned ()) middle ∧ AtEnd user middle := by
  have sends (text : Text) : Keeps (AtEnd user) (send text) :=
    ⟨fun _ _ begun => ⟨begun.signedIn, begun.ended⟩⟩
  have keeps : Keeps (AtEnd user) (prompt node) := by
    unfold prompt say string me countMessages
    infer_instance
  have spoken (key : Text) (fields : List (Text × Field)) : Calm (say node key fields) := by
    obtain ⟨text, found⟩ := Option.isSome_iff_exists.mp (complete key fields)
    unfold say string send
    rw [found, Option.elim_some]
    infer_instance
  obtain ⟨outcome, middle, prompted⟩ := returns_iff.mp (Ends.returns (x := prompt node) console)
  have still : AtEnd user middle := by
    obtain ⟨-, fuel, ran⟩ := prompted
    have kept := keeps.kept fuel console at_
    rwa [ran] at kept
  cases outcome with
  | pending => exact absurd rfl prompted.1
  | returned _ => exact ⟨middle, prompted, still⟩
  | raised =>
      have told : me.ComesTo console (.returned user) console := by
        refine ⟨nofun, 0, ?_⟩
        change (console.user.elim raise pure : Talk User).run 0 console = _
        rw [at_.signedIn]
        rfl
      unfold prompt countMessages at prompted
      rcases bind_comesTo prompted with ⟨-, failed⟩ | ⟨other, later, -, -, fuel, ran⟩
      · cases (failed.unique told).1
      · exact absurd (congrArg Prod.fst ran) (Calm.calm fuel later)

theorem turn_at_end (telnet : node.telnet = true)
    (complete : ∀ key fields, (node.strings key fields).isSome) (at_ : AtEnd user console) :
    ∃ later, (turn node).ComesTo console (.returned (.inl ())) later ∧ AtEnd user later := by
  obtain ⟨middle, prompted, still⟩ := prompt_at_end complete at_
  have read : (readline node).ComesTo middle (.returned []) middle := by
    refine ⟨nofun, 0, ?_⟩
    simp only [readline, still.ended, telnet, if_true]
  exact ⟨middle, prompted.bind (read.bind (comesTo_pure.mpr ⟨rfl, rfl⟩)), still⟩

theorem prompts_at_end (telnet : node.telnet = true)
    (complete : ∀ key fields, (node.strings key fields).isSome) (at_ : AtEnd user console)
    {last : Console} (reached : Prompts node console last) : AtEnd user last := by
  induction reached with
  | refl => exact at_
  | tail _ turned ih =>
      obtain ⟨later, comes, still⟩ := turn_at_end telnet complete ih
      have goes : (turn node).ComesTo _ (.returned (.inl ())) _ := ⟨nofun, turned⟩
      rwa [(goes.unique comes).2]

/-- Where the input has ended, the loop goes on for ever. -/
theorem commandLoop_at_end (telnet : node.telnet = true)
    (complete : ∀ key fields, (node.strings key fields).isSome) (at_ : AtEnd user console) :
    ¬ Returns (commandLoop node) console := by
  rw [commandLoop_returns_iff]
  rintro ⟨last, reached, leaves⟩
  have still := prompts_at_end telnet complete at_ reached
  rcases leaves with goodbye | ⟨after, raised⟩
  · rw [goodbyeNext, still.ended] at goodbye
    cases goodbye
  · obtain ⟨later, comes, -⟩ := turn_at_end telnet complete still
    cases (raised.unique comes).1

end Telnet

/-! The login over AX.25, where a line that does not come is waited for. -/

section Login

/-- The password lets nobody in; an exception in `verify_password` ends the session. -/
def refuses (node : Node) (users : UserDirectory) (call password : Text) : Bool :=
  let hash := ((users.getUser call).map User.passwordHash).getD []
  hash = [] ∨ Auth.verifyPassword node.pbkdf2 password hash = some false

/-- Whether the login comes to an end with so many attempts left and these lines to come. -/
def loginEnds (node : Node) (users : UserDirectory) : Nat → List Text → Bool
  | 0, _ => true
  | _ + 1, [] => false
  | left + 1, line :: lines =>
      let call := Text.upper (Text.strip line)
      if call = [] then loginEnds node users left lines
      else if call ∈ Login.leaves then true
      else if Auth.isValidCall call = false then loginEnds node users left lines
      else if node.config.node.requirePassword then
        match lines with
        | [] => false
        | password :: lines => !refuses node users call password || loginEnds node users left lines
      else true

/-- These lines are to come, and the users are these. -/
structure Faces (users : UserDirectory) (lines : List Text) (console : Console) : Prop where
  users : console.database.users = users
  unread : console.unread = lines

variable {users : UserDirectory} {lines : List Text} {line : Text}

theorem say_faces (complete : ∀ key fields, (node.strings key fields).isSome)
    (faces : Faces users lines console) (key : Text) (fields : List (Text × Field)) :
    ∃ later, (say node key fields).ComesTo console (.returned ()) later ∧ Faces users lines later := by
  obtain ⟨text, found⟩ := Option.isSome_iff_exists.mp (complete key fields)
  refine ⟨{ console with sent := console.sent ++ [.text text] }, ⟨nofun, 0, ?_⟩, faces.users, faces.unread⟩
  rw [say, string, found]
  rfl

variable (node) in
theorem readline_faces (faces : Faces users (line :: lines) console) :
    ∃ later, (readline node).ComesTo console (.returned line) later ∧ Faces users lines later := by
  refine ⟨{ console with unread := lines }, ⟨nofun, 0, ?_⟩, faces.users, rfl⟩
  simp only [readline, faces.unread]

theorem readline_waits (ax25 : node.telnet = false) (faces : Faces users [] console) {α : Type}
    (next : Text → Talk α) : ¬ Returns (readline node >>= next) console := by
  rintro ⟨fuel, done⟩
  rw [run_bind] at done
  simp only [readline, faces.unread, ax25] at done
  exact done rfl

/-- There is no echo to hide over AX.25. -/
theorem readlineHidden_ax25 (ax25 : node.telnet = false) :
    readlineHidden node = readline node >>= fun line => do
      send "\r\n"
      return line := by
  refine Stateful.ext (funext fun fuel => funext fun state => ?_)
  simp only [readlineHidden, ax25, Bool.false_eq_true, if_false]

variable (ax25 : node.telnet = false) (complete : ∀ key fields, (node.strings key fields).isSome)

include ax25 complete

theorem checkPassword_waits (faces : Faces users [] console) {α : Type} (call : Text)
    (next : Bool → Talk α) : ¬ Returns (checkPassword node call >>= next) console := by
  obtain ⟨asked, said, still⟩ := say_faces complete faces "auth.enter_password" []
  rw [checkPassword, bind_assoc, said.bind_returns, bind_assoc, readlineHidden_ax25 ax25, bind_assoc]
  exact readline_waits ax25 still _

/-- A password that is there is checked, and its line is gone. -/
theorem checkPassword_faces (faces : Faces users (line :: lines) console) (call : Text) :
    ∃ outcome later, (checkPassword node call).ComesTo console outcome later ∧
      (outcome = .returned false ↔ refuses node users call line = true) ∧
      (outcome = .returned false → Faces users lines later) := by
  obtain ⟨asked, said, still⟩ := say_faces complete faces "auth.enter_password" []
  obtain ⟨typed, read, rest⟩ := readline_faces node still
  have hidden : (readlineHidden node).ComesTo asked (.returned line)
      { typed with sent := typed.sent ++ [.text "\r\n"] } := by
    rw [readlineHidden_ax25 ax25]
    exact read.bind ⟨nofun, 0, rfl⟩
  have behind : Faces users lines { typed with sent := typed.sent ++ [.text "\r\n"] } :=
    ⟨rest.users, rest.unread⟩
  generalize ({ typed with sent := typed.sent ++ [.text "\r\n"] } : Console) = middle at hidden behind
  have told : (getUser call).ComesTo middle (.returned (users.getUser call)) middle :=
    ⟨nofun, 0, by rw [← behind.users]; rfl⟩
  rw [refuses]
  have front {outcome : Outcome Bool} {later : Console}
      (judged : Stateful.ComesTo
        (let hash := ((users.getUser call).map User.passwordHash).getD []
        if hash = [] then do
          say node "auth.not_registered" []
          return false
        else (Auth.verifyPassword node.pbkdf2 line hash).elim Stateful.raise fun verified =>
          if verified then do
            recordLogin node call
            return true
          else do
            say node "auth.bad_password" []
            return false : Talk Bool) middle outcome later) :
      (checkPassword node call).ComesTo console outcome later :=
    said.bind (hidden.bind (told.bind judged))
  have turnedAway (key : Text) : ∃ later, Stateful.ComesTo
      (do
        say node key []
        return false : Talk Bool) middle (.returned false) later ∧ Faces users lines later := by
    obtain ⟨later, answered, same⟩ := say_faces complete behind key []
    exact ⟨later, answered.bind (comesTo_pure.mpr ⟨rfl, rfl⟩), same⟩
  dsimp only at front ⊢
  by_cases bare : ((users.getUser call).map User.passwordHash).getD [] = []
  · obtain ⟨later, answered, same⟩ := turnedAway "auth.not_registered"
    rw [if_pos bare] at front
    exact ⟨_, later, front answered, by simp [bare], fun _ => same⟩
  · rw [if_neg bare] at front
    cases verified : Auth.verifyPassword node.pbkdf2 line
        (((users.getUser call).map User.passwordHash).getD []) with
    | none =>
        rw [verified] at front
        exact ⟨.raised, middle, front ⟨nofun, 0, rfl⟩, by simp [bare], nofun⟩
    | some right =>
        rw [verified, Option.elim_some] at front
        cases right with
        | false =>
            obtain ⟨later, answered, same⟩ := turnedAway "auth.bad_password"
            exact ⟨_, later, front answered, by simp [bare], fun _ => same⟩
        | true =>
            exact ⟨.returned true, _, front ⟨nofun, 0, rfl⟩, by simp [bare], nofun⟩

theorem authenticate_returns_iff (left : Nat) (faces : Faces users lines console) :
    Returns (authenticate node left) console ↔ loginEnds node users left lines = true := by
  induction left generalizing lines console with
  | zero =>
      rw [loginEnds]
      refine iff_of_true ?_ rfl
      unfold authenticate
      exact Ends.returns console
  | succ left ih =>
      obtain ⟨asked, said, still⟩ := say_faces complete faces "auth.enter_call" []
      rw [authenticate, said.bind_returns]
      cases lines with
      | nil => exact iff_of_false (readline_waits ax25 still _) nofun
      | cons line lines =>
          obtain ⟨typed, read, rest⟩ := readline_faces node still
          rw [read.bind_returns]
          unfold loginEnds
          dsimp only
          split
          · exact ih rest
          · split
            · exact iff_of_true (Ends.returns typed) rfl
            · split
              · obtain ⟨told, answered, same⟩ := say_faces complete rest "auth.bad_call" []
                rw [answered.bind_returns]
                exact ih same
              · split
                · cases lines with
                  | nil => exact iff_of_false (checkPassword_waits ax25 complete rest _ _) nofun
                  | cons password lines =>
                      obtain ⟨outcome, later, checked, refused, kept⟩ :=
                        checkPassword_faces ax25 complete rest (Text.upper (Text.strip line))
                      match outcome, checked, refused, kept with
                      | .pending, checked, _, _ => exact absurd rfl checked.1
                      | .raised, checked, refused, _ =>
                          have accepts := mt refused.mpr nofun
                          refine iff_of_true (returns_iff.mpr ⟨_, _, checked.bind_raised⟩) ?_
                          simp [accepts]
                      | .returned true, checked, refused, _ =>
                          have accepts := mt refused.mpr nofun
                          rw [checked.bind_returns, if_pos rfl]
                          exact iff_of_true (Ends.returns later) (by simp [accepts])
                      | .returned false, checked, refused, kept =>
                          rw [checked.bind_returns, if_neg nofun]
                          simp only [refused.mp rfl, Bool.not_true, Bool.false_or]
                          exact ih (kept rfl)
                · exact iff_of_true (Ends.returns typed) rfl

/-- Over AX.25 the login ends exactly if its lines come. -/
theorem login_returns_iff :
    Returns (login node) console ↔
      loginEnds node console.database.users Login.maxAuthAttempts console.unread = true := by
  have begun : Faces console.database.users console.unread console := ⟨rfl, rfl⟩
  obtain ⟨first, said, faces⟩ := say_faces complete begun "connect.banner"
    [("branding", .text node.config.node.brandingName), ("node_call", .text node.config.node.nodeCall)]
  have welcomed : ∃ later, (sendBanner node).ComesTo console (.returned ()) later ∧
      Faces console.database.users console.unread later := by
    obtain ⟨second, told, still⟩ := say_faces complete faces "connect.motd"
      [("motd", .text node.config.node.motd)]
    by_cases quiet : node.config.node.motd = []
    · obtain ⟨last, tipped, same⟩ := say_faces complete faces "connect.login_tip"
        [("login_tip", .text node.config.node.loginTip)]
      refine ⟨last, said.bind ?_, same⟩
      rw [if_pos quiet]
      exact (comesTo_pure.mpr ⟨rfl, rfl⟩).bind tipped
    · obtain ⟨last, tipped, same⟩ := say_faces complete still "connect.login_tip"
        [("login_tip", .text node.config.node.loginTip)]
      refine ⟨last, said.bind ?_, same⟩
      rw [if_neg quiet]
      exact told.bind tipped
  obtain ⟨later, sent, still⟩ := welcomed
  rw [login, sent.bind_returns]
  exact authenticate_returns_iff ax25 complete _ still

end Login

/-- One who types a call and is gone. -/
def visitor : Console :=
  { terminal .empty (User.new "AI3I" privUser "" ⟨2026, 1, 1, 12, 0, 0⟩) (UserTable.new_storable _ _ _ _)
      ["AI3I"] with user := none }

/-- The session of a user who hangs up at the prompt does not end. -/
theorem hung_up_at_prompt : ¬ Returns (run bareNode) visitor := by
  rw [run_eq, bind_returns_iff]
  rintro ⟨-, rest⟩
  have opened : ((opening bareNode).run 0 visitor).1 = .returned true := by
    decide
  have begun : (opening bareNode).ComesTo visitor (.returned true) ((opening bareNode).run 0 visitor).2 :=
    ⟨nofun, 0, Prod.ext opened rfl⟩
  obtain ⟨user, signedIn⟩ := Option.isSome_iff_exists.mp
    (by decide : ((opening bareNode).run 0 visitor).2.user.isSome)
  exact commandLoop_at_end rfl (fun _ _ => rfl) ⟨signedIn, by decide⟩
    (bind_returns_iff.mp (rest true _ begun)).1

end PyBulletin.Session
