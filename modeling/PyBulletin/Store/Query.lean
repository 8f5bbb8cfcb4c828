import Mathlib.Data.Char
import Mathlib.Data.List.Lex
import PyBulletin.Store.Mail
import PyBulletin.Store.Users

set_option autoImplicit false

namespace PyBulletin.Store

open PyBulletin.Foundation

/-- SQLite's `text LIKE pattern`, which ignores the case of ASCII letters. -/
def like : Text → Text → Bool
  | [], text => text = []
  | letter :: pattern, text =>
      if letter = '%' then text.tails.any (like pattern)
      else
        match text with
        | [] => false
        | c :: text => (letter = '_' ∨ letter.toLower = c.toLower) ∧ like pattern text

/-- `LIMIT ?`; a negative number limits nothing. -/
def limited {Row : Type} (limit : Int) (rows : List Row) : List Row :=
  if limit < 0 then rows else rows.take limit.toNat

/-- The arguments of `list_messages` that a caller gives; no limit is a negative one. -/
structure MessageQuery where
  msgType : Option Text := none
  status : Option Text := none
  sinceId : Int := 0
  toCall : Option Text := none
  fromCall : Option Text := none
  afterDate : Option DateTime := none
  search : Option Text := none
  limit : Int := -1
  reverse : Bool := false

def MessageQuery.selects (query : MessageQuery) (row : Row) : Bool :=
  (query.toCall.all fun call => row.toCall = Text.upper call) &&
    (query.fromCall.all fun call => row.fromCall = Text.upper call) &&
    (query.msgType.all fun msgType => row.msgType = msgType) &&
    (match query.status with
      | some status => row.status = status
      | none => row.status ≠ statusKilled) &&
    (query.sinceId = 0 ∨ query.sinceId < row.id) &&
    (query.afterDate.all fun date => row.createdAt.any date.before) &&
    query.search.all fun search => like (['%'] ++ search ++ ['%']) row.subject

namespace BBSStore

variable (store : BBSStore)

/-- `none` is the `OverflowError` on a number that SQLite cannot hold. -/
def listMessages (query : MessageQuery) : Option (List Row) :=
  if fitsColumn query.sinceId ∧ fitsColumn query.limit then
    let rows := store.messages.filter query.selects
    some (limited query.limit (if query.reverse then rows.reverse else rows))
  else none

/-- `count_messages()` -/
def countMessages : Nat := (store.messages.filter fun row => row.status ≠ statusKilled).length

/-- `count_messages(msg_type=..., status=...)` -/
def countWith (msgType status : Text) : Nat :=
  (store.messages.filter fun row => row.msgType = msgType ∧ row.status = status).length

/-- Every row rewritten in columns other than its keys. -/
def amend (change : Row → Row)
    (keys : ∀ row, (change row).id = row.id ∧ (change row).bid = row.bid) : BBSStore where
  messages := store.messages.map change
  sequence := store.sequence
  ordered := by
    refine List.pairwise_map.mpr (store.ordered.imp ?_)
    intro first second less
    rwa [(keys first).1, (keys second).1]
  issued row listed := by
    obtain ⟨old, stored, rfl⟩ := List.mem_map.mp listed
    rw [(keys old).1]
    exact store.issued old stored
  unique := by
    refine List.pairwise_map.mpr (store.unique.imp ?_)
    intro first second different
    rwa [(keys first).2, (keys second).2]

section amend

variable {store} {change : Row → Row}
  {keys : ∀ row, (change row).id = row.id ∧ (change row).bid = row.bid}

theorem getMessage_amend (id : Nat) :
    (store.amend change keys).getMessage id = (store.getMessage id).map change := by
  have same : ((fun row : Row => decide (row.id = id)) ∘ change) =
      fun row => decide (row.id = id) := by
    funext row
    rw [Function.comp_apply, (keys row).1]
  rw [getMessage, amend, List.find?_map, same, getMessage]

theorem hasBid_amend (bid : Text) : (store.amend change keys).hasBid bid = store.hasBid bid := by
  rw [hasBid, hasBid, amend, List.any_map]
  congr 1
  funext row
  rw [Function.comp_apply, (keys row).2]

/-- The number that a message gets depends on the BIDs alone. -/
theorem insertMessage_amend (msg : Message) (status : Text) :
    ((store.amend change keys).insertMessage msg status).2 = (store.insertMessage msg status).2 := by
  rw [insertMessage, insertMessage]
  by_cases fresh : store.hasBid msg.bid = false
  · rw [dif_pos fresh, dif_pos (by rw [hasBid_amend, fresh])]
    rfl
  · rw [dif_neg fresh, dif_neg (by rwa [hasBid_amend])]

theorem eq_of_messages {first second : BBSStore} (messages : first.messages = second.messages)
    (sequence : first.sequence = second.sequence) : first = second := by
  cases first
  cases second
  cases messages
  cases sequence
  rfl

/-- An UPDATE before the rewriting or behind it, where the two agree on the row. -/
theorem update_amend {id : Nat} {written : Row → Row}
    {kept : ∀ row, (written row).id = row.id ∧ (written row).bid = row.bid}
    (commute : ∀ row, written (change row) = change (written row)) :
    (store.amend change keys).update id written kept =
      (store.update id written kept).amend change keys := by
  refine eq_of_messages ?_ rfl
  simp only [update, amend, List.map_map]
  congr 1
  funext row
  simp only [Function.comp_apply, (keys row).1, commute]
  split <;> rfl

theorem insertMessage_store_amend {msg : Message} {status : Text}
    (same : change (store.inserted msg status) = store.inserted msg status) :
    ((store.amend change keys).insertMessage msg status).1 =
      (store.insertMessage msg status).1.amend change keys := by
  rw [insertMessage, insertMessage]
  by_cases fresh : store.hasBid msg.bid = false
  · rw [dif_pos fresh, dif_pos (by rw [hasBid_amend, fresh])]
    refine eq_of_messages ?_ rfl
    simp only [amend, List.map_append, List.map_cons, List.map_nil, same]
    rfl
  · rw [dif_neg fresh, dif_neg (by rwa [hasBid_amend])]
    exact eq_of_messages rfl rfl

theorem filter_amend {test : Row → Bool} (same : ∀ row, test (change row) = test row) :
    (store.amend change keys).messages.filter test = (store.messages.filter test).map change := by
  rw [amend, List.filter_map]
  congr 2
  funext row
  exact same row

theorem limited_map {Row Shown : Type} (limit : Int) (shown : Row → Shown) (rows : List Row) :
    limited limit (rows.map shown) = (limited limit rows).map shown := by
  rw [limited, limited]
  split
  · rfl
  · exact List.map_take.symm

theorem listMessages_amend {query : MessageQuery}
    (same : ∀ row, query.selects (change row) = query.selects row) :
    (store.amend change keys).listMessages query =
      (store.listMessages query).map (List.map change) := by
  rw [listMessages, listMessages, filter_amend same]
  split
  · dsimp only
    split
    · rw [← List.map_reverse, limited_map]
      rfl
    · rw [limited_map]
      rfl
  · rfl

end amend

theorem getMessage_insertMessage {id : Nat} {row : Row} (known : store.getMessage id = some row)
    (msg : Message) (status : Text) : (store.insertMessage msg status).1.getMessage id = some row := by
  rw [insertMessage]
  split
  · rw [getMessage, List.find?_append]
    rw [getMessage] at known
    rw [known]
    rfl
  · exact known

end BBSStore

/-- The rows of `users` with the index on their calls. -/
structure UserDirectory extends UserTable where
  calls : List Text
  sorted : calls.Pairwise (· < ·)
  listed : ∀ call, call ∈ calls ↔ (find call).isSome

namespace UserDirectory

variable (users : UserDirectory)

def empty : UserDirectory where
  toUserTable := .empty
  calls := []
  sorted := .nil
  listed call := by simp [UserTable.empty]

def rows : List User := users.calls.filterMap users.find

/-- `list_users` -/
def listUsers (search privilege : Option Text) (limit : Int) : Option (List User) :=
  if fitsColumn limit then
    some (limited limit (users.rows.filter fun user =>
      (search.all fun search => search = [] ∨ like (['%'] ++ search ++ ['%']) user.call ∨
        like (['%'] ++ search ++ ['%']) user.displayName) &&
      privilege.all fun privilege => user.privilege = privilege))
  else none

/-- The index with one more call. -/
def withCall (call : Text) : List Text :=
  users.calls.filter (· < call) ++ call :: users.calls.filter (call < ·)

theorem mem_withCall {call other : Text} :
    other ∈ users.withCall call ↔ other = call ∨ other ∈ users.calls := by
  simp only [withCall, List.mem_append, List.mem_cons, List.mem_filter, decide_eq_true_eq]
  rcases lt_trichotomy other call with less | rfl | greater
  · simp [less, less.not_gt, less.ne]
  · simp
  · simp [greater, greater.not_gt, greater.ne']

theorem withCall_sorted (call : Text) : (users.withCall call).Pairwise (· < ·) := by
  refine List.pairwise_append.mpr ⟨users.sorted.filter _, ?_, ?_⟩
  · refine List.pairwise_cons.mpr ⟨fun other listed => ?_, users.sorted.filter _⟩
    simpa using (List.mem_filter.mp listed).2
  · intro first before second behind
    have less : first < call := by simpa using (List.mem_filter.mp before).2
    rcases List.mem_cons.mp behind with rfl | after
    · exact less
    · have greater : call < second := by simpa using (List.mem_filter.mp after).2
      exact less.trans greater

def upsertUser (user : User) (fits : storable user) : UserDirectory where
  toUserTable := users.toUserTable.upsertUser user fits
  calls := users.withCall user.call.upper
  sorted := users.withCall_sorted user.call.upper
  listed call := by
    rw [mem_withCall, UserTable.upsertUser]
    by_cases same : call = user.call.upper
    · simp [same]
    · simp [same, users.listed call]

def setPrivilege (call privilege : Text) : UserDirectory where
  toUserTable := users.toUserTable.setPrivilege call privilege
  calls := users.calls
  sorted := users.sorted
  listed other := by
    rw [users.listed, UserTable.setPrivilege]
    by_cases same : other = call.upper
    · simp [same]
    · simp [same]

def deleteUser (call : Text) : UserDirectory where
  toUserTable := users.toUserTable.deleteUser call
  calls := users.calls.filter (· ≠ call.upper)
  sorted := users.sorted.filter _
  listed other := by
    rw [List.mem_filter, users.listed, UserTable.deleteUser]
    by_cases same : other = call.upper
    · simp [same]
    · simp [same]

end UserDirectory

structure WPEntry where
  call : Text
  homeBbs : Text
  name : Text
  updatedAt : DateTime
  sourceBbs : Text

structure ForwardNeighbor where
  call : Text
  lastConnectAt : Option DateTime
  lastSuccessAt : Option DateTime
  msgsSent : Nat
  msgsReceived : Nat
  sessionActive : Bool
  enabled : Bool

/-- The tables that the web interface looks at. -/
structure Database where
  mail : BBSStore
  users : UserDirectory
  wpEntries : List WPEntry
  neighbors : List ForwardNeighbor

def Database.getWpEntry (database : Database) (call : Text) : Option WPEntry :=
  database.wpEntries.find? fun entry => entry.call = Text.upper call

end PyBulletin.Store
