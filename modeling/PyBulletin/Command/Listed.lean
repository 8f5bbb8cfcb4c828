import PyBulletin.Session.Parity

set_option autoImplicit false

namespace PyBulletin.Command.Engine

open PyBulletin.Foundation
open PyBulletin.Foundation.Stateful
open PyBulletin.Store
open PyBulletin.Session

/-- The command hands these rows to `_send_list`, whatever the catalogue makes of them.  It
may have asked for the time before. -/
def Lists (command : Node → Talk Unit) (node : Node) (console : Console) (rows : List Row) : Prop :=
  ∃ asked, ∀ strings fuel,
    (command { node with strings }).run fuel console =
      (sendList { node with strings } rows).run fuel { console with asked }

def namesMessage (id : Nat) : Text × Field → Bool
  | (name, .number n) => name = "id" ∧ n = id
  | _ => false

/-- A catalogue with empty texts and none for one message. -/
def silentOn (id : Nat) (_ : Text) (fields : List (Text × Field)) : Option Text :=
  if fields.any (namesMessage id) then none else some []

section Telling

variable {node : Node} {id : Nat}

theorem string_silent (key : Text) (fields : List (Text × Field)) :
    Session.string { node with strings := silentOn id } key fields =
      if fields.any (namesMessage id) then raise else pure [] := by
  rw [Session.string]
  change (silentOn id key fields).elim raise pure = _
  rw [silentOn]
  split <;> rfl

theorem calm_say {key : Text} {fields : List (Text × Field)}
    (other : fields.any (namesMessage id) = false) :
    Calm (say { node with strings := silentOn id } key fields) := by
  have text : Calm (Session.string { node with strings := silentOn id } key fields) := by
    rw [string_silent, other]
    exact Calm.pure
  rw [say]
  have sent (text : Text) : Calm (send text) := Calm.modify
  infer_instance

theorem formatListRow_silent (row : Row) :
    formatListRow { node with strings := silentOn id } row = if row.id = id then raise else pure [] := by
  rw [formatListRow, string_silent]
  congr 1
  simp [namesMessage]

theorem rows_silent {rows : List Row} (fuel : Nat) (console : Console) {text : Text} :
    ((rows.foldlM (fun text msg => do
        return text ++ (← formatListRow { node with strings := silentOn id } msg)) text :
          Talk Text).run fuel console) =
      if id ∈ rows.map (·.id) then (.raised, console) else (.returned text, console) := by
  induction rows generalizing text with
  | nil => rfl
  | cons row rows ih =>
      rw [List.foldlM_cons, formatListRow_silent]
      by_cases same : row.id = id
      · rw [if_pos same, if_pos (by simp [same])]
        rfl
      · rw [if_neg same]
        change (List.foldlM _ (text ++ []) rows : Talk Text).run fuel console = _
        rw [List.append_nil, ih]
        simp only [List.map_cons, List.mem_cons, Ne.symm same, false_or]

theorem listText_silent {rows : List Row} (fuel : Nat) (console : Console) :
    ((listText { node with strings := silentOn id } rows).run fuel console) =
      if id ∈ rows.map (·.id) then (.raised, console) else (.returned [], console) := by
  simp only [listText, string_silent]
  change following _ ((List.foldlM _ [] rows : Talk Text).run fuel console) = _
  rw [rows_silent]
  by_cases inside : id ∈ rows.map (·.id)
  · rw [if_pos inside]
    rfl
  · rw [if_neg inside]
    rfl

instance calm_sendPages (length : Int) (lines page : List Text) (count : Nat) :
    Calm (sendPages { node with strings := silentOn id } length lines page count) := by
  have sent (text : Text) : Calm (send text) := Calm.modify
  induction lines generalizing page count with
  | nil =>
      rw [sendPages]
      infer_instance
  | cons line lines ih =>
      have broken : Calm (say { node with strings := silentOn id } "connect.page_break" []) :=
        calm_say rfl
      have aborted : Calm (say { node with strings := silentOn id } "error.aborted" []) :=
        calm_say rfl
      have answered : Calm (readline { node with strings := silentOn id }) := by
        refine ⟨fun fuel console => ?_⟩
        rw [readline]
        dsimp only
        split
        · rintro ⟨⟩
        · split <;> rintro ⟨⟩
      rw [sendPages]
      infer_instance

/-- The list is not sent if and only if the message without a text is in it. -/
theorem sendList_silent {rows : List Row} (fuel : Nat) (console : Console) :
    ((sendList { node with strings := silentOn id } rows).run fuel console).1 = .raised ↔
      id ∈ rows.map (·.id) := by
  rw [sendList]
  by_cases none : rows = []
  · rw [if_pos none, none]
    exact iff_of_false ((calm_say rfl).calm fuel console) List.not_mem_nil
  · rw [if_neg none]
    change (following _ ((listText { node with strings := silentOn id } rows).run fuel console)).1 =
      .raised ↔ _
    rw [listText_silent]
    by_cases inside : id ∈ rows.map (·.id)
    · rw [if_pos inside]
      exact iff_of_true rfl inside
    · rw [if_neg inside]
      refine iff_of_false ?_ inside
      have sent (text : Text) : Calm (send text) := Calm.modify
      have paged (text : Text) : Calm (sendPaged { node with strings := silentOn id } text) := by
        rw [sendPaged]
        infer_instance
      exact (paged []).calm fuel console

end Telling

section Rows

variable {command : Node → Talk Unit} {node : Node} {console : Console}

theorem Lists.ids {rows others : List Row} (listed : Lists command node console rows)
    (again : Lists command node console others) (id : Nat) :
    id ∈ rows.map (·.id) ↔ id ∈ others.map (·.id) := by
  obtain ⟨first, sent⟩ := listed
  obtain ⟨second, sentAgain⟩ := again
  rw [← sendList_silent 0 { console with asked := first },
    ← sendList_silent 0 { console with asked := second }, ← sent, ← sentAgain]

/-- A command that lists the messages with one property lists those with another exactly if
the two agree on every message. -/
theorem Lists.filter_iff {p q : Row → Bool}
    (listed : Lists command node console (console.database.mail.messages.filter p)) :
    Lists command node console (console.database.mail.messages.filter q) ↔
      ∀ row ∈ console.database.mail.messages, p row = q row := by
  constructor
  · intro again row stored
    have inBoth (test : Row → Bool) :
        row.id ∈ (console.database.mail.messages.filter test).map (·.id) ↔ test row := by
      rw [List.mem_map]
      constructor
      · rintro ⟨other, member, same⟩
        obtain ⟨found, holds⟩ := List.mem_filter.mp member
        rwa [← BBSStore.eq_of_id _ found stored same]
      · exact fun holds => ⟨row, List.mem_filter.mpr ⟨stored, holds⟩, rfl⟩
    rw [Bool.eq_iff_iff, ← inBoth p, ← inBoth q]
    exact listed.ids again row.id
  · intro agree
    rwa [← List.filter_congr agree]

end Rows

section Queries

variable {node : Node} {console : Console} {user : User} {α : Type}

/-- Every user has the capability that the list commands ask for. -/
theorem run_ifRead (signedIn : console.user = some user) (serve : Talk Unit) (fuel : Nat) :
    (ifCan node capRead serve).run fuel console = serve.run fuel console := by
  have allowed : accessAllowed user.call capRead = true := by
    rw [accessAllowed, show defaultAccessAllowed capRead = true by decide]
    simp
  rw [ifCan, run_me signedIn, if_pos allowed]

/-- A query without a first number and a limit. -/
theorem run_listMessages {query : MessageQuery} (all : query.sinceId = 0) (unlimited : query.limit = -1)
    (forth : query.reverse = false) (next : List Row → Talk α) (fuel : Nat) :
    (listMessages query >>= next).run fuel console =
      (next (console.database.mail.messages.filter query.selects)).run fuel console := by
  have answer : console.database.mail.listMessages query =
      some (console.database.mail.messages.filter query.selects) := by
    rw [BBSStore.listMessages, if_pos (by rw [all, unlimited]; decide), unlimited, forth]
    rfl
  change following _
    (((console.database.mail.listMessages query).elim raise pure : Talk (List Row)).run fuel console) = _
  rw [answer]
  rfl

end Queries

def bulletinAt (createdAt : DateTime) (subject : Text) : BBSStore :=
  (BBSStore.empty.insertMessage
    { bid := "1_W1AW", msgType := msgBulletin, fromCall := "W1AW", toCall := "ALL", atBbs := "",
      subject, body := "Hello", createdAt := some createdAt } statusNew).1

def listener : User := User.new "N0AAA" privUser "" ⟨2025, 12, 1, 8, 0, 0⟩

def listenerTerminal (mail : BBSStore) : Console :=
  terminal mail listener (UserTable.new_storable _ _ _ _) []

end PyBulletin.Command.Engine
