import PyBulletin.Foundation.Outcomes
import PyBulletin.Session.Parity
import PyBulletin.Store.BidSearch

set_option autoImplicit false

namespace PyBulletin.Command.Engine

open PyBulletin.Foundation
open PyBulletin.Foundation.Stateful
open PyBulletin.Store
open PyBulletin.Session

/-- The bytes that the loop of `_compose` counts. -/
def bytesOf (lines : List Text) : Nat := (lines.map BBSStore.utf8Length).sum

@[simp] theorem bytesOf_nil : bytesOf [] = 0 := rfl

@[simp] theorem bytesOf_cons (line : Text) (lines : List Text) :
    bytesOf (line :: lines) = BBSStore.utf8Length line + bytesOf lines := rfl

@[simp] theorem bytesOf_append (front back : List Text) :
    bytesOf (front ++ back) = bytesOf front + bytesOf back := by
  rw [bytesOf, List.map_append, List.sum_append]
  rfl

/-- Blank lines count nothing. -/
theorem bytesOf_blank (n : Nat) : bytesOf (List.replicate n []) = 0 := by
  induction n with
  | zero => rfl
  | succ n ih => rw [List.replicate_succ, bytesOf_cons, ih]; rfl

/-- The next line, with those behind it. -/
def nextLine (telnet : Bool) : List Text → Option (Text × List Text)
  | line :: unread => some (line, unread)
  | [] => if telnet then some ([], []) else none

/-- The input gives these lines first, and the rest behind them. -/
def Supplies (telnet : Bool) : List Text → List Text → List Text → Prop
  | unread, [], rest => unread = rest
  | unread, line :: front, rest =>
      ∃ later, nextLine telnet unread = some (line, later) ∧ Supplies telnet later front rest

section Input

variable {telnet : Bool} {node : Node} {console : Console} {unread front rest lines : List Text}
  {line : Text} {limit : Int} {α : Type}

theorem supplies_append (front rest : List Text) : Supplies telnet (front ++ rest) front rest := by
  induction front with
  | nil => rfl
  | cons line front ih => exact ⟨_, rfl, ih⟩

/-- A terminal that has hung up sends blank lines. -/
theorem supplies_blank (n : Nat) : Supplies true [] (List.replicate n []) [] := by
  induction n with
  | zero => rfl
  | succ n ih => exact ⟨[], rfl, ih⟩

theorem Supplies.append {middle back : List Text} (first : Supplies telnet unread front middle)
    (second : Supplies telnet middle back rest) : Supplies telnet unread (front ++ back) rest := by
  induction front generalizing unread with
  | nil =>
      cases first
      exact second
  | cons line front ih =>
      obtain ⟨later, next, first⟩ := first
      exact ⟨later, next, ih first⟩

/-- Lines that have been sent come one after the other. -/
theorem Supplies.split (supplied : Supplies telnet unread front rest)
    (sent : front.length ≤ unread.length) : unread = front ++ rest := by
  induction front generalizing unread with
  | nil => exact supplied
  | cons line front ih =>
      obtain ⟨later, next, supplied⟩ := supplied
      cases unread with
      | nil => simp at sent
      | cons first unread =>
          cases next
          rw [ih supplied (Nat.le_of_succ_le_succ sent)]
          rfl

/-- As many lines as the loop takes, with the blank ones of a terminal that has hung up. -/
def fullText (unread : List Text) : List Text :=
  unread.take maxBodyLines ++ List.replicate (maxBodyLines - unread.length) []

theorem length_fullText (unread : List Text) : (fullText unread).length = maxBodyLines := by
  rw [fullText, List.length_append, List.length_take, List.length_replicate]
  omega

theorem bytesOf_fullText (unread : List Text) :
    bytesOf (fullText unread) = bytesOf (unread.take maxBodyLines) := by
  rw [fullText, bytesOf_append, bytesOf_blank, Nat.add_zero]

theorem plain_fullText (plain : ∀ line ∈ unread.take maxBodyLines, endsText line = false) :
    ∀ line ∈ fullText unread, endsText line = false := by
  intro line listed
  rcases List.mem_append.mp listed with typed | blank
  · exact plain line typed
  · rw [List.eq_of_mem_replicate blank]
    decide

theorem supplies_fullText (enough : telnet ∨ maxBodyLines ≤ unread.length) :
    Supplies telnet unread (fullText unread) (unread.drop maxBodyLines) := by
  by_cases long : maxBodyLines ≤ unread.length
  · have supplied := @supplies_append telnet (unread.take maxBodyLines) (unread.drop maxBodyLines)
    rwa [List.take_append_drop, ← List.append_nil (unread.take maxBodyLines), ← List.replicate_zero,
      ← Nat.sub_eq_zero_of_le long] at supplied
  · have short : unread.length ≤ maxBodyLines := Nat.le_of_not_le long
    have supplied := @supplies_append telnet unread []
    rw [List.append_nil] at supplied
    rw [fullText, List.take_of_length_le short, List.drop_of_length_le short]
    obtain rfl : telnet = true := enough.resolve_right long
    exact supplied.append (supplies_blank _)

/-- The lines that the loop takes as a text: those before the terminator, or as many as there is room
for. -/
def typed (telnet : Bool) (unread : List Text) : Option (List Text) :=
  match unread.findIdx? endsText with
  | some k => some (unread.take (min k maxBodyLines))
  | none => if telnet ∨ maxBodyLines ≤ unread.length then some (fullText unread) else none

/-- The lines behind those of the text. -/
def leftover (unread : List Text) : List Text :=
  match unread.findIdx? endsText with
  | some k => unread.drop (min (k + 1) maxBodyLines)
  | none => unread.drop maxBodyLines

theorem typed_supplied (entry : typed telnet unread = some lines) :
    ∃ rest, Supplies telnet unread lines rest ∧ (∀ line ∈ lines, endsText line = false) ∧
      (lines.length = maxBodyLines ∧ rest = leftover unread ∨ lines.length < maxBodyLines ∧
        ∃ line, nextLine telnet rest = some (line, leftover unread) ∧ endsText line) := by
  rw [typed] at entry
  rw [leftover]
  cases found : unread.findIdx? endsText with
  | some k =>
      simp only [found, Option.some.injEq] at entry ⊢
      subst entry
      obtain ⟨bound, ends, before⟩ := List.findIdx?_eq_some_iff_getElem.mp found
      have supplied := @supplies_append telnet (unread.take (min k maxBodyLines))
        (unread.drop (min k maxBodyLines))
      rw [List.take_append_drop] at supplied
      refine ⟨_, supplied, fun line listed => ?_, ?_⟩
      · obtain ⟨i, early, rfl⟩ := List.mem_take_iff_getElem.mp listed
        exact Bool.not_eq_true _ ▸ before i (by omega)
      · rw [List.length_take]
        by_cases few : k < maxBodyLines
        · rw [Nat.min_eq_left (Nat.le_of_lt few), Nat.min_eq_left few, List.drop_eq_getElem_cons bound]
          exact .inr ⟨by omega, _, rfl, ends⟩
        · have many : maxBodyLines ≤ k := Nat.le_of_not_lt few
          rw [Nat.min_eq_right many, Nat.min_eq_right (Nat.le_succ_of_le many)]
          exact .inl ⟨Nat.min_eq_left (many.trans (Nat.le_of_lt bound)), rfl⟩
  | none =>
      simp only [found, Option.ite_none_right_eq_some, Option.some.injEq] at entry ⊢
      obtain ⟨enough, rfl⟩ := entry
      exact ⟨_, supplies_fullText enough, plain_fullText fun line listed =>
        List.findIdx?_eq_none_iff.mp found line (List.mem_of_mem_take listed),
        .inl ⟨length_fullText unread, rfl⟩⟩

/-- Lines that come to no end are few, and more may follow. -/
theorem typed_none (entry : typed telnet unread = none) :
    (∀ line ∈ unread, endsText line = false) ∧ telnet = false ∧ unread.length < maxBodyLines := by
  rw [typed] at entry
  cases found : unread.findIdx? endsText with
  | some k => simp [found] at entry
  | none =>
      simp only [found, ite_eq_right_iff, reduceCtorEq, imp_false, not_or, Bool.not_eq_true,
        Nat.not_le] at entry
      exact ⟨List.findIdx?_eq_none_iff.mp found, entry⟩

theorem run_readline (next : nextLine node.telnet console.unread = some (line, rest))
    (then_ : Text → Talk α) (fuel : Nat) :
    (readline node >>= then_).run fuel console = (then_ line).run fuel { console with unread := rest } := by
  cases lines : console.unread with
  | cons first unread =>
      rw [lines] at next
      cases next
      rw [run_bind, readline]
      simp only [lines]
      rfl
  | nil =>
      rw [lines, nextLine] at next
      split at next
      · next telnet =>
          cases next
          rw [run_bind, readline]
          simp only [lines, telnet, if_true]
          rw [← lines]
          rfl
      · cases next

theorem run_readline_waits (next : nextLine node.telnet console.unread = none) (then_ : Text → Talk α)
    (fuel : Nat) : (readline node >>= then_).run fuel console = (.pending, console) := by
  cases lines : console.unread with
  | cons first unread =>
      rw [lines] at next
      cases next
  | nil =>
      rw [lines, nextLine] at next
      split at next
      · cases next
      · next waits =>
          rw [run_bind, readline]
          simp only [lines, waits, Bool.false_eq_true, if_false]
          rfl

theorem run_prompt {key prompted : Text} (prompt : node.strings key [] = some prompted) (fuel : Nat) :
    (say node key []).run fuel console =
      (.returned (), { console with sent := console.sent ++ [.text prompted] }) := by
  rw [say, string]
  change (((node.strings key []).elim raise pure : Talk Text) >>= send).run fuel console = _
  rw [prompt]
  rfl

/-- The loop takes lines that neither end the text nor make it too long. -/
theorem composeBody_ahead (supplied : Supplies node.telnet console.unread front rest)
    (plain : ∀ line ∈ front, endsText line = false) (fits : front = [] ∨ bytesOf (lines ++ front) ≤ limit)
    (left fuel : Nat) :
    (composeBody node limit (front.length + left) lines).run fuel console =
      (composeBody node limit left (lines ++ front)).run fuel { console with unread := rest } := by
  induction front generalizing console lines with
  | nil =>
      cases supplied
      rw [List.append_nil, List.length_nil, Nat.zero_add]
  | cons line front ih =>
      obtain ⟨later, next, supplied⟩ := supplied
      have whole : (bytesOf (lines ++ line :: front) : Int) ≤ limit := fits.resolve_left (by simp)
      simp only [bytesOf_append, bytesOf_cons] at whole
      have short : ¬ limit < (((lines ++ [line]).map BBSStore.utf8Length).sum : Nat) := by
        change ¬ limit < (bytesOf (lines ++ [line]) : Int)
        simp only [bytesOf_append, bytesOf_cons, bytesOf_nil]
        omega
      have more : (bytesOf (lines ++ [line] ++ front) : Int) ≤ limit := by
        simp only [bytesOf_append, bytesOf_cons, bytesOf_nil]
        omega
      rw [List.length_cons, Nat.add_right_comm, composeBody, run_readline next,
        if_neg (by simp [plain line List.mem_cons_self]), if_neg short,
        @ih { console with unread := later } (lines ++ [line]) supplied
          (fun line listed => plain line (List.mem_cons_of_mem _ listed)) (.inr more),
        List.append_assoc]
      rfl

theorem composeBody_ends (next : nextLine node.telnet console.unread = some (line, rest))
    (ends : endsText line) (left fuel : Nat) :
    (composeBody node limit (left + 1) lines).run fuel console =
      (.returned (some lines), { console with unread := rest }) := by
  rw [composeBody, run_readline next, if_pos ends]
  rfl

/-- What the loop says of a text that is too long. -/
def tooLarge (node : Node) (limit : Int) : Talk (Option (List Text)) := do
  say node "send.too_large" [("max", .number limit)]
  return none

/-- The loop ends with the first line that makes the text too long. -/
theorem composeBody_tooLarge (supplied : Supplies node.telnet console.unread front rest)
    (plain : ∀ line ∈ front, endsText line = false) (some_ : front ≠ [])
    (long : limit < bytesOf (lines ++ front)) (left : Nat) :
    ∃ short later, short <+: front ∧ short ≠ [] ∧ Supplies node.telnet console.unread short later ∧
      ∀ sent fuel, (composeBody node limit (front.length + left) lines).run fuel { console with sent } =
        (tooLarge node limit).run fuel { console with sent, unread := later } := by
  induction front generalizing console lines with
  | nil => exact absurd rfl some_
  | cons line front ih =>
      obtain ⟨later, next, supplied⟩ := supplied
      have goes : endsText line = false := plain line List.mem_cons_self
      rw [List.length_cons, Nat.add_right_comm]
      by_cases now_ : limit < (((lines ++ [line]).map BBSStore.utf8Length).sum : Nat)
      · refine ⟨[line], later, ⟨front, rfl⟩, by simp, ⟨later, next, rfl⟩, fun sent fuel => ?_⟩
        rw [composeBody, @run_readline node { console with sent } _ _ _ next, if_neg (by simp [goes]),
          if_pos now_]
        rfl
      · have more : limit < (bytesOf (lines ++ [line] ++ front) : Int) := by
          rw [List.append_assoc]
          exact long
        have behind : front ≠ [] := by
          rintro rfl
          rw [List.append_nil] at more
          exact now_ more
        obtain ⟨short, last, ofFront, -, took, ran⟩ :=
          @ih { console with unread := later } (lines ++ [line]) supplied
            (fun line listed => plain line (List.mem_cons_of_mem _ listed)) behind more
        refine ⟨line :: short, last, List.cons_prefix_cons.mpr ⟨rfl, ofFront⟩, by simp,
          ⟨later, next, took⟩, fun sent fuel => ?_⟩
        rw [composeBody, @run_readline node { console with sent } _ _ _ next, if_neg (by simp [goes]),
          if_neg now_]
        exact ran sent fuel

end Input

/-- What `_compose` does with the lines of a text. -/
def storeText (node : Node) (msgType toCall atBbs subject : Text) (lines : List Text) : Talk Unit := do
  let msg ← newMessage node msgType toCall atBbs subject (['\n'].intercalate lines)
  let id ← insertMessage node msg
  say node "send.saved" [("id", .number id)]

theorem composeText_eq (node : Node) (msgType toCall atBbs subject : Text) :
    composeText node msgType toCall atBbs subject =
      say node "send.enter_body" [] >>= fun _ =>
        composeBody node node.config.maxMessageBodyBytes maxBodyLines [] >>= fun lines =>
          lines.elim (pure ()) (storeText node msgType toCall atBbs subject) := by
  rw [composeText]
  refine congrArg _ (funext fun _ => congrArg _ (funext fun lines => ?_))
  cases lines <;> rfl

/-- There is a BID for a message that the user writes now. -/
def Storable (node : Node) (console : Console) : Prop :=
  ∃ user, console.user = some user ∧
    console.database.mail.FindsBid (node.clock (console.asked + 1))
      (if user.call = [] then "BBS" else user.call)

/-- The store gets one message, with this text. -/
def Gains (before after : BBSStore) (text : Text) : Prop :=
  ∃ row : Row, row.body = text ∧ row.size = BBSStore.utf8Length text ∧
    after.messages = before.messages ++ [row]

theorem Gains.ne {before after : BBSStore} {text : Text} (gains : Gains before after text) :
    after.messages ≠ before.messages := by
  obtain ⟨row, -, -, rows⟩ := gains
  intro same
  exact List.cons_ne_nil row [] (List.self_eq_append_right.mp (same.symm.trans rows))

section Storing

variable {node : Node} {console : Console} {msgType toCall atBbs subject : Text} {lines : List Text}

theorem keeps_say {P : Console → Prop} {key : Text} {fields : List (Text × Field)}
    (sends : ∀ console text, P console → P { console with sent := console.sent ++ [.text text] }) :
    Keeps P (say node key fields) := by
  have sent (text : Text) : Keeps P (send text) := ⟨fun _ console begun => sends console text begun⟩
  infer_instance

/-- The end of `_compose`, where it has a BID. -/
def storeUnder (node : Node) (msg : Message) (bid : Text) : Talk Unit := do
  let inserted ← Stateful.get fun console =>
    console.database.mail.insertMessage { msg with bid } statusNew
  Stateful.modify fun console => console.withMail inserted.1
  let id ← inserted.2.elim Stateful.raise pure
  say node "send.saved" [("id", .number (id : Nat))]

variable {user : User}

theorem run_storeText (signedIn : console.user = some user) (fuel : Nat) :
    (storeText node msgType toCall atBbs subject lines).run fuel console =
      following (fun bid => (storeUnder node
          { bid := [], msgType, fromCall := user.call, toCall, atBbs, subject,
            body := ['\n'].intercalate lines, createdAt := some (node.clock console.asked) } bid).run fuel)
        ((console.database.mail.generateBid (node.clock (console.asked + 1))
          (if user.call = [] then "BBS" else user.call)).run fuel,
          { console with asked := console.asked + 2 }) := by
  rw [storeText, newMessage, bind_assoc, run_me signedIn]
  simp only [insertMessage, bind_assoc]
  rfl

theorem messages_storeUnder {msg : Message} {bid : Text}
    (fresh : console.database.mail.hasBid bid = false) (fuel : Nat) :
    ((storeUnder node msg bid).run fuel console).2.database.mail.messages =
      console.database.mail.messages ++ [console.database.mail.inserted { msg with bid } statusNew] := by
  obtain ⟨inserted, rows, -, did⟩ := @BBSStore.insertMessage_fresh console.database.mail { msg with bid }
    statusNew fresh
  have said (id : Nat) : Keeps (fun later : Console => later.database.mail.messages = inserted.messages)
      (say node "send.saved" [("id", .number id)]) := keeps_say fun _ _ begun => begun
  rw [← rows]
  change (((console.database.mail.insertMessage { msg with bid } statusNew).2.elim raise pure >>= fun id =>
      say node "send.saved" [("id", .number (id : Nat))] : Talk Unit).run fuel
        (console.withMail (console.database.mail.insertMessage { msg with bid } statusNew).1)).2.database.mail.messages = _
  rw [did]
  exact (said _).kept fuel _ rfl

/-- A text is stored as one message with its lines joined, exactly if there is a BID. -/
theorem messages_storeText (fuel : Nat) :
    let after := ((storeText node msgType toCall atBbs subject lines).run fuel console).2
    after.database.mail.messages = console.database.mail.messages ∨
      Storable node console ∧
        Gains console.database.mail after.database.mail (['\n'].intercalate lines) := by
  cases signedIn : console.user with
  | none =>
      left
      rw [storeText, newMessage, bind_assoc]
      change (following _ ((console.user.elim raise pure : Talk User).run fuel console)).2.database.mail.messages = _
      rw [signedIn]
      rfl
  | some user =>
      rw [run_storeText signedIn]
      cases ran : (console.database.mail.generateBid (node.clock (console.asked + 1))
          (if user.call = [] then "BBS" else user.call)).run fuel with
      | pending | raised => exact .inl rfl
      | returned bid =>
          have returned : Fueled.Returns _ bid := ⟨fuel, ran⟩
          obtain ⟨m, -, fresh, rfl⟩ := BBSStore.generateBid_returns.mp returned
          right
          exact ⟨⟨user, signedIn, _, returned, BBSStore.candidate_length _ _, fresh⟩, _, rfl, rfl,
            @messages_storeUnder node { console with asked := console.asked + 2 } _ _ fresh fuel⟩

theorem storeText_stores (storable : Storable node console) :
    ∃ fuel, Gains console.database.mail
      ((storeText node msgType toCall atBbs subject lines).run fuel console).2.database.mail
      (['\n'].intercalate lines) := by
  obtain ⟨user, signedIn, bid, ⟨fuel, ran⟩, -, fresh⟩ := storable
  refine ⟨fuel, ?_⟩
  rw [run_storeText signedIn, ran]
  exact ⟨_, rfl, rfl, @messages_storeUnder node { console with asked := console.asked + 2 } _ _ fresh fuel⟩

theorem unread_storeText (fuel : Nat) :
    ((storeText node msgType toCall atBbs subject lines).run fuel console).2.unread = console.unread := by
  have told {key : Text} {fields : List (Text × Field)} :
      Keeps (fun later : Console => later.unread = console.unread) (say node key fields) :=
    keeps_say fun _ _ begun => begun
  have mailed (mail : BBSStore) : Keeps (fun later : Console => later.unread = console.unread)
      (Stateful.modify fun later : Console => later.withMail mail) := ⟨fun _ _ begun => begun⟩
  have asks : Keeps (fun later : Console => later.unread = console.unread) (now node) :=
    ⟨fun _ _ begun => begun⟩
  have whole : Keeps (fun later : Console => later.unread = console.unread)
      (storeText node msgType toCall atBbs subject lines) := by
    unfold storeText newMessage insertMessage
    infer_instance
  exact whole.kept fuel console rfl

end Storing

/-- The computation leaves these lines unread and stores the text, if there is a BID. -/
structure Takes (node : Node) (console : Console) (talk : Talk Unit) (lines rest : List Text) : Prop where
  left : ∀ fuel, (talk.run fuel console).2.unread = rest
  sound : ∀ fuel, (talk.run fuel console).2.database.mail.messages = console.database.mail.messages ∨
    Storable node console ∧
      Gains console.database.mail (talk.run fuel console).2.database.mail (['\n'].intercalate lines)
  stores : Storable node console → ∃ fuel,
    Gains console.database.mail (talk.run fuel console).2.database.mail (['\n'].intercalate lines)

/-- The computation leaves these lines unread and stores nothing. -/
structure Refuses (console : Console) (talk : Talk Unit) (rest : List Text) : Prop where
  left : ∀ fuel, (talk.run fuel console).2.unread = rest
  same : ∀ fuel, (talk.run fuel console).2.database.mail.messages = console.database.mail.messages

section Ends

variable {node : Node} {console : Console} {msgType toCall atBbs subject prompted : Text}
  {lines front rest : List Text}

theorem run_composeText (prompt : node.strings "send.enter_body" [] = some prompted) (fuel : Nat) :
    (composeText node msgType toCall atBbs subject).run fuel console =
      following (fun lines => (lines.elim (pure ()) (storeText node msgType toCall atBbs subject)).run fuel)
        ((composeBody node node.config.maxMessageBodyBytes maxBodyLines []).run fuel
          { console with sent := console.sent ++ [.text prompted] }) := by
  rw [composeText_eq, run_bind, run_prompt prompt]
  rfl

theorem takes_composeText (prompt : node.strings "send.enter_body" [] = some prompted)
    (collected : ∀ sent fuel, (composeBody node node.config.maxMessageBodyBytes maxBodyLines []).run fuel
      { console with sent } = (.returned (some lines), { console with sent, unread := rest })) :
    Takes node console (composeText node msgType toCall atBbs subject) lines rest := by
  let behind : Console := { console with sent := console.sent ++ [.text prompted], unread := rest }
  have ran (fuel : Nat) : (composeText node msgType toCall atBbs subject).run fuel console =
      (storeText node msgType toCall atBbs subject lines).run fuel behind := by
    rw [run_composeText prompt, collected]
    rfl
  constructor
  · intro fuel
    rw [ran]
    exact unread_storeText fuel
  · intro fuel
    rw [ran]
    exact @messages_storeText node behind msgType toCall atBbs subject lines fuel
  · intro storable
    simp only [ran]
    exact @storeText_stores node behind msgType toCall atBbs subject lines storable

theorem refuses_composeText (prompt : node.strings "send.enter_body" [] = some prompted)
    (refused : ∀ sent fuel, (composeBody node node.config.maxMessageBodyBytes maxBodyLines []).run fuel
      { console with sent } =
        (tooLarge node node.config.maxMessageBodyBytes).run fuel { console with sent, unread := rest }) :
    Refuses console (composeText node msgType toCall atBbs subject) rest := by
  have told : Keeps (fun later : Console =>
      later.unread = rest ∧ later.database.mail.messages = console.database.mail.messages)
      (say node "send.too_large" [("max", .number node.config.maxMessageBodyBytes)]) :=
    keeps_say fun _ _ begun => begun
  let behind : Console := { console with sent := console.sent ++ [.text prompted], unread := rest }
  have ran (fuel : Nat) : (composeText node msgType toCall atBbs subject).run fuel console =
      (say node "send.too_large" [("max", .number node.config.maxMessageBodyBytes)]).run fuel behind := by
    rw [run_composeText prompt, refused, tooLarge, run_bind]
    generalize (say node "send.too_large" [("max", .number node.config.maxMessageBodyBytes)]).run fuel _ =
      result
    rcases result with ⟨_ | _ | value, after⟩ <;> rfl
  constructor
  · intro fuel
    rw [ran]
    exact (told.kept fuel behind ⟨rfl, rfl⟩).1
  · intro fuel
    rw [ran]
    exact (told.kept fuel behind ⟨rfl, rfl⟩).2

/-- A text that is short enough is taken, with its terminator. -/
theorem composeText_takes (prompt : node.strings "send.enter_body" [] = some prompted)
    (entry : typed node.telnet console.unread = some lines)
    (fits : lines = [] ∨ bytesOf lines ≤ node.config.maxMessageBodyBytes) :
    Takes node console (composeText node msgType toCall atBbs subject) lines
      (leftover console.unread) := by
  obtain ⟨rest, supplied, plain, ended⟩ := typed_supplied entry
  have ahead (sent : List Output) := @composeBody_ahead node { console with sent } lines rest [] _
    supplied plain fits
  refine takes_composeText prompt fun sent fuel => ?_
  rcases ended with ⟨full, rfl⟩ | ⟨few, line, next, ends⟩
  · rw [← full]
    exact ahead sent 0 fuel
  · obtain ⟨left, room⟩ := Nat.exists_eq_add_of_lt few
    rw [room, Nat.add_assoc, ahead]
    exact composeBody_ends next ends left fuel

/-- A text that is too long is refused before it ends. -/
theorem composeText_refuses (prompt : node.strings "send.enter_body" [] = some prompted)
    (entry : typed node.telnet console.unread = some lines) (some_ : lines ≠ [])
    (long : node.config.maxMessageBodyBytes < bytesOf lines) :
    ∃ short later, short <+: lines ∧ Supplies node.telnet console.unread short later ∧
      Refuses console (composeText node msgType toCall atBbs subject) later := by
  obtain ⟨rest, supplied, plain, ended⟩ := typed_supplied entry
  have few : lines.length ≤ maxBodyLines := ended.elim (fun full => full.1.le) fun less => less.1.le
  obtain ⟨left, room⟩ := Nat.exists_eq_add_of_le few
  obtain ⟨short, later, ofLines, -, took, ran⟩ :=
    @composeBody_tooLarge node console lines rest [] _ supplied plain some_ long left
  rw [← room] at ran
  exact ⟨short, later, ofLines, took, refuses_composeText prompt ran⟩

end Ends

/-- The terminal of KB3XYZ with these lines to come. -/
def typing (lines : List Text) : Console :=
  terminal .empty (User.new "KB3XYZ" privUser "" ⟨2026, 1, 1, 12, 0, 0⟩) (UserTable.new_storable _ _ _ _)
    lines

/-- A node for texts of no more than four bytes. -/
def terseNode : Node := { bareNode with config := { bareNode.config with maxMessageBodyBytes := 4 } }

end PyBulletin.Command.Engine
