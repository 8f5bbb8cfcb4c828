import PyBulletin.Store.Models

set_option autoImplicit false

namespace PyBulletin.Store

open PyBulletin.Foundation

def msgPrivate : Text := "P"
def msgBulletin : Text := "B"
def msgNts : Text := "T"

def statusNew : Text := "N"
def statusRead : Text := "Y"
def statusKilled : Text := "K"
def statusHeld : Text := "H"
def statusForwarded : Text := "F"

theorem killed_ne_held : statusKilled ≠ statusHeld := by decide

theorem read_ne_held : statusRead ≠ statusHeld := by decide

/-- A row of `messages`. -/
structure Row extends Message where
  id : Nat
  status : Text
  size : Nat
  forwardPath : Text
  readBy : Text
  readAt : Option DateTime
  expiresAt : Option DateTime := none
  editedBy : Text := ""
  editedAt : Option DateTime := none

/-- The rows in the order of their ids, and the last id given out. -/
structure BBSStore where
  messages : List Row
  sequence : Nat
  ordered : messages.Pairwise fun first second => first.id < second.id
  issued : ∀ row ∈ messages, row.id ≤ sequence
  unique : messages.Pairwise fun first second => first.bid ≠ second.bid

namespace BBSStore

def empty : BBSStore where
  messages := []
  sequence := 0
  ordered := .nil
  issued _ listed := absurd listed List.not_mem_nil
  unique := .nil

variable (store : BBSStore)

def hasBid (bid : Text) : Bool := store.messages.any fun row => row.bid = bid

def getMessage (id : Nat) : Option Row := store.messages.find? fun row => row.id = id

/-- `list_messages(status=...)`. -/
def withStatus (status : Text) : List Row := store.messages.filter fun row => row.status = status

/-- `len(text.encode("utf-8", errors="replace"))` -/
def utf8Length (text : Text) : Nat := (text.map Char.utf8Size).sum

/-- The row that `insert_message` writes for a message without a number. -/
def inserted (msg : Message) (status : Text) : Row :=
  { msg with
    fromCall := Text.upper msg.fromCall
    toCall := Text.upper msg.toCall
    atBbs := Text.upper msg.atBbs
    id := store.sequence + 1
    status
    size := utf8Length msg.body
    forwardPath := ""
    readBy := ""
    readAt := none }

/-- `next_message_id`. -/
def nextMessageId : BBSStore :=
  { store with
    sequence := store.sequence + 1
    issued := fun row listed => Nat.le_succ_of_le (store.issued row listed) }

theorem bid_ne_of_not_hasBid {store : BBSStore} {bid : Text} (fresh : store.hasBid bid = false) :
    ∀ row ∈ store.messages, row.bid ≠ bid := by
  simpa [hasBid] using fresh

theorem eq_of_id {first second : Row} (listed : first ∈ store.messages)
    (other : second ∈ store.messages) (same : first.id = second.id) : first = second := by
  have forth : store.messages.Pairwise fun first second => first.id = second.id → first = second :=
    store.ordered.imp fun less same => absurd same (Nat.ne_of_lt less)
  have back : store.messages.Pairwise
      (flip fun first second => first.id = second.id → first = second) :=
    store.ordered.imp fun less same => absurd same.symm (Nat.ne_of_lt less)
  exact List.Pairwise.forall_of_forall_of_flip (fun _ _ _ => rfl) forth back listed
    other same

/-- `insert_message` of a message that has a BID but no number.  It takes the next number
even where the BID is taken, which raises `IntegrityError`. -/
def insertMessage (msg : Message) (status : Text) : BBSStore × Option Nat :=
  if fresh : store.hasBid msg.bid = false then
    ({ messages := store.messages ++ [store.inserted msg status]
       sequence := store.sequence + 1
       ordered := by
         refine List.pairwise_append.mpr ⟨store.ordered, List.pairwise_singleton _ _, ?_⟩
         intro row listed new same
         rw [List.mem_singleton.mp same]
         exact Nat.lt_succ_of_le (store.issued row listed)
       issued := by
         intro row listed
         rcases List.mem_append.mp listed with old | new
         · exact Nat.le_succ_of_le (store.issued row old)
         · rw [List.mem_singleton.mp new]
           exact Nat.le_refl _
       unique := by
         refine List.pairwise_append.mpr ⟨store.unique, List.pairwise_singleton _ _, ?_⟩
         intro row listed new same
         rw [List.mem_singleton.mp same]
         exact bid_ne_of_not_hasBid fresh row listed },
      some (store.sequence + 1))
  else (store.nextMessageId, none)

theorem insertMessage_fresh {store : BBSStore} {msg : Message} (status : Text)
    (fresh : store.hasBid msg.bid = false) :
    ∃ inserted : BBSStore, inserted.messages = store.messages ++ [store.inserted msg status] ∧
      inserted.sequence = store.sequence + 1 ∧
      store.insertMessage msg status = (inserted, some (store.sequence + 1)) := by
  rw [insertMessage, dif_pos fresh]
  exact ⟨_, rfl, rfl, rfl⟩

/-- An UPDATE of the row `id` in columns other than its keys. -/
def update (id : Nat) (change : Row → Row)
    (keys : ∀ row, (change row).id = row.id ∧ (change row).bid = row.bid) : BBSStore where
  messages := store.messages.map fun row => if row.id = id then change row else row
  sequence := store.sequence
  ordered := by
    refine List.pairwise_map.mpr (store.ordered.imp ?_)
    intro first second less
    split <;> split <;> simpa only [keys] using less
  issued := by
    intro row listed
    obtain ⟨old, stored, rfl⟩ := List.mem_map.mp listed
    split
    · rw [(keys old).1]
      exact store.issued old stored
    · exact store.issued old stored
  unique := by
    refine List.pairwise_map.mpr (store.unique.imp ?_)
    intro first second different
    split <;> split <;> simpa only [keys] using different

theorem mem_update {store : BBSStore} {id : Nat} (change : Row → Row)
    (keys : ∀ row, (change row).id = row.id ∧ (change row).bid = row.bid) {row : Row}
    (other : row.id ≠ id) : row ∈ (store.update id change keys).messages ↔ row ∈ store.messages := by
  constructor
  · intro listed
    obtain ⟨old, stored, rfl⟩ := List.mem_map.mp listed
    split at other
    · rename_i same
      exact absurd ((keys old).1.trans same) other
    · rename_i same
      rwa [if_neg same]
  · intro stored
    exact List.mem_map.mpr ⟨row, stored, if_neg other⟩

theorem mem_update_id {store : BBSStore} {id : Nat} (change : Row → Row)
    (keys : ∀ row, (change row).id = row.id ∧ (change row).bid = row.bid) {row : Row}
    (listed : row ∈ (store.update id change keys).messages) (same : row.id = id) :
    ∃ old ∈ store.messages, old.id = id ∧ row = change old := by
  obtain ⟨old, stored, rfl⟩ := List.mem_map.mp listed
  split at same
  · rename_i this
    exact ⟨old, stored, this, if_pos this⟩
  · exact absurd same ‹_›

def updateMessageStatus (id : Nat) (status : Text) : BBSStore :=
  store.update id (fun row => { row with status }) fun _ => ⟨rfl, rfl⟩

def markForwarded (id : Nat) : BBSStore := store.updateMessageStatus id statusForwarded

def extendedPath (path call : Text) : Text :=
  if path = [] then call else Text.strip (path ++ [' '] ++ call)

def appendForwardPath (id : Nat) (call : Text) : BBSStore :=
  store.update id (fun row => { row with forwardPath := extendedPath row.forwardPath call })
    fun _ => ⟨rfl, rfl⟩

theorem mem_markForwarded {store : BBSStore} {id : Nat} {row : Row} (other : row.id ≠ id) :
    row ∈ (store.markForwarded id).messages ↔ row ∈ store.messages :=
  mem_update (fun row => { row with status := statusForwarded }) (fun _ => ⟨rfl, rfl⟩) other

theorem mem_appendForwardPath {store : BBSStore} {id : Nat} {call : Text} {row : Row}
    (other : row.id ≠ id) :
    row ∈ (store.appendForwardPath id call).messages ↔ row ∈ store.messages :=
  mem_update (fun row => { row with forwardPath := extendedPath row.forwardPath call })
    (fun _ => ⟨rfl, rfl⟩) other

theorem mem_markForwarded_id {store : BBSStore} {id : Nat} {row : Row}
    (listed : row ∈ (store.markForwarded id).messages) (same : row.id = id) :
    ∃ old ∈ store.messages, old.id = id ∧ row = { old with status := statusForwarded } :=
  mem_update_id (fun row => { row with status := statusForwarded }) (fun _ => ⟨rfl, rfl⟩) listed same

theorem mem_appendForwardPath_id {store : BBSStore} {id : Nat} {call : Text} {row : Row}
    (listed : row ∈ (store.appendForwardPath id call).messages) (same : row.id = id) :
    ∃ old ∈ store.messages, old.id = id ∧
      row = { old with forwardPath := extendedPath old.forwardPath call } :=
  mem_update_id (fun row => { row with forwardPath := extendedPath row.forwardPath call })
    (fun _ => ⟨rfl, rfl⟩) listed same

def killMessage (id : Nat) : BBSStore := store.updateMessageStatus id statusKilled

def holdMessage (id : Nat) : BBSStore := store.updateMessageStatus id statusHeld

def releaseMessage (id : Nat) : BBSStore := store.updateMessageStatus id statusNew

/-- `mark_read`, which leaves a killed message alone. -/
def markRead (id : Nat) (byCall : Text) (now : DateTime) : BBSStore :=
  store.update id
    (fun row =>
      if row.status ≠ statusKilled then
        { row with status := statusRead, readBy := Text.upper byCall, readAt := some now }
      else row)
    fun row => by split <;> exact ⟨rfl, rfl⟩

/-- A row behind `mark_read` is one from before, or the marked one. -/
theorem mem_markRead {store : BBSStore} {id : Nat} {byCall : Text} {now : DateTime} {row : Row}
    (listed : row ∈ (store.markRead id byCall now).messages) :
    row ∈ store.messages ∨
      ∃ old ∈ store.messages, old.id = id ∧ old.status ≠ statusKilled ∧
        row = { old with status := statusRead, readBy := Text.upper byCall, readAt := some now } := by
  obtain ⟨old, stored, rfl⟩ := List.mem_map.mp listed
  dsimp only
  split
  · rename_i here
    split
    · exact .inr ⟨old, stored, here, ‹_›, rfl⟩
    · exact .inl stored
  · exact .inl stored

theorem markRead_mem {store : BBSStore} {row : Row} (stored : row ∈ store.messages)
    (live : row.status ≠ statusKilled) (byCall : Text) (now : DateTime) :
    { row with status := statusRead, readBy := Text.upper byCall, readAt := some now } ∈
      (store.markRead row.id byCall now).messages := by
  refine List.mem_map.mpr ⟨row, stored, ?_⟩
  dsimp only
  rw [if_pos rfl, if_pos live]

/-- What `update_message` writes. -/
def edited (subject body editedBy : Text) (editedAt : DateTime) (row : Row) : Row :=
  { row with subject, body, size := utf8Length body, editedBy, editedAt := some editedAt }

def updateMessage (id : Nat) (subject body editedBy : Text) (editedAt : DateTime) : BBSStore :=
  store.update id (edited subject body editedBy editedAt) fun _ => ⟨rfl, rfl⟩

/-- The UPDATE of `_cmd_move`. -/
def moveMessage (id : Nat) (toCall atBbs : Text) : BBSStore :=
  store.update id (fun row => { row with toCall, atBbs := Text.upper atBbs }) fun _ => ⟨rfl, rfl⟩

/-- The cutoffs that `cleanup_expired` computes from its retention times. -/
structure Cutoffs where
  personal : DateTime
  bulletin : DateTime
  nts : DateTime
  killed : DateTime

/-- `created_at < cutoff`, which is not true of a NULL. -/
def createdBefore (row : Row) (cutoff : DateTime) : Bool :=
  match row.createdAt with
  | none => false
  | some created => created.before cutoff

/-- The WHERE clauses of the DELETEs of `cleanup_expired`. -/
def expired (cutoffs : Cutoffs) (row : Row) : Bool :=
  (row.msgType = msgPrivate ∧ createdBefore row cutoffs.personal ∧ row.status ≠ statusHeld) ∨
    (row.msgType = msgBulletin ∧ createdBefore row cutoffs.bulletin ∧ row.status ≠ statusHeld) ∨
    (row.msgType = msgNts ∧ createdBefore row cutoffs.nts ∧ row.status ≠ statusHeld) ∨
    (row.status = statusKilled ∧ createdBefore row cutoffs.killed)

def cleanupExpired (cutoffs : Cutoffs) : BBSStore where
  messages := store.messages.filter fun row => !expired cutoffs row
  sequence := store.sequence
  ordered := store.ordered.filter _
  issued row listed := store.issued row (List.mem_filter.mp listed).1
  unique := store.unique.filter _

/-- The status of message `id`, if there is one. -/
def statusOf (id : Nat) : Option Text := (store.getMessage id).map Row.status

section statusOf

variable {store} {id target : Nat} {status : Text} {change : Row → Row}
  {keys : ∀ row, (change row).id = row.id ∧ (change row).bid = row.bid}

theorem getMessage_id {row : Row} (found : store.getMessage id = some row) :
    row ∈ store.messages ∧ row.id = id :=
  ⟨List.mem_of_find?_eq_some found, by simpa using List.find?_some found⟩

theorem getMessage_of_mem {row : Row} (listed : row ∈ store.messages) :
    store.getMessage row.id = some row := by
  cases found : store.getMessage row.id with
  | none =>
      have other := List.find?_eq_none.mp found row listed
      simp at other
  | some other =>
      obtain ⟨stored, same⟩ := getMessage_id found
      rw [store.eq_of_id stored listed same]

theorem getMessage_update :
    (store.update target change keys).getMessage id =
      if id = target then (store.getMessage id).map change else store.getMessage id := by
  have same : ((fun row : Row => decide (row.id = id)) ∘
      fun row => if row.id = target then change row else row) = fun row => decide (row.id = id) := by
    funext row
    simp only [Function.comp_apply]
    split
    · rw [(keys row).1]
    · rfl
  rw [getMessage, update, List.find?_map, same]
  cases found : store.messages.find? fun row => decide (row.id = id) with
  | none => simp [getMessage, found]
  | some row =>
      have number := (getMessage_id found).2
      rw [getMessage, found, Option.map_some, Option.map_some, number]
      split <;> rfl

theorem statusOf_update (known : store.statusOf id = some status) (change : Row → Row)
    (keys : ∀ row, (change row).id = row.id ∧ (change row).bid = row.bid) (written : Text → Text)
    (same : ∀ row, (change row).status = written row.status) :
    (store.update target change keys).statusOf id =
      some (if id = target then written status else status) := by
  obtain ⟨row, found, rfl⟩ := Option.map_eq_some_iff.mp known
  rw [statusOf, getMessage_update, found]
  split
  · exact congrArg some (same row)
  · rfl

theorem statusOf_updateMessageStatus (known : store.statusOf id = some status) (written : Text) :
    (store.updateMessageStatus target written).statusOf id =
      some (if id = target then written else status) :=
  statusOf_update known _ _ (fun _ => written) fun _ => rfl

theorem statusOf_markRead (known : store.statusOf id = some status) (byCall : Text)
    (now : DateTime) :
    (store.markRead target byCall now).statusOf id =
      some (if id = target then if status ≠ statusKilled then statusRead else status
        else status) := by
  refine statusOf_update known _ _
    (fun status => if status ≠ statusKilled then statusRead else status) fun row => ?_
  split <;> rfl

theorem statusOf_kept (known : store.statusOf id = some status) (change : Row → Row)
    (keys : ∀ row, (change row).id = row.id ∧ (change row).bid = row.bid)
    (same : ∀ row, (change row).status = row.status) :
    (store.update target change keys).statusOf id = some status := by
  rw [statusOf_update known change keys (fun status => status) same, ite_self]

theorem statusOf_appendForwardPath (known : store.statusOf id = some status) (target : Nat)
    (call : Text) : (store.appendForwardPath target call).statusOf id = some status :=
  statusOf_kept known (fun row => { row with forwardPath := extendedPath row.forwardPath call })
    (fun _ => ⟨rfl, rfl⟩) fun _ => rfl

theorem statusOf_updateMessage (known : store.statusOf id = some status) (target : Nat)
    (subject body editedBy : Text) (editedAt : DateTime) :
    (store.updateMessage target subject body editedBy editedAt).statusOf id = some status :=
  statusOf_kept known (edited subject body editedBy editedAt) (fun _ => ⟨rfl, rfl⟩) fun _ => rfl

theorem statusOf_moveMessage (known : store.statusOf id = some status) (target : Nat)
    (toCall atBbs : Text) : (store.moveMessage target toCall atBbs).statusOf id = some status :=
  statusOf_kept known (fun row => { row with toCall, atBbs := Text.upper atBbs })
    (fun _ => ⟨rfl, rfl⟩) fun _ => rfl

theorem statusOf_append {longer : BBSStore} {more : List Row}
    (known : store.statusOf id = some status) (messages : longer.messages = store.messages ++ more) :
    longer.statusOf id = some status := by
  obtain ⟨row, found, rfl⟩ := Option.map_eq_some_iff.mp known
  have front : store.messages.find? (fun row => decide (row.id = id)) = some row := found
  rw [statusOf, getMessage, messages, List.find?_append, front]
  rfl

theorem statusOf_insertMessage (known : store.statusOf id = some status) (msg : Message)
    (written : Text) : (store.insertMessage msg written).1.statusOf id = some status := by
  rw [insertMessage]
  split
  · exact statusOf_append known rfl
  · exact known

theorem statusOf_cleanupExpired (known : store.statusOf id = some status) (cutoffs : Cutoffs) :
    (store.cleanupExpired cutoffs).statusOf id = some status ∨
      (store.cleanupExpired cutoffs).statusOf id = none := by
  obtain ⟨row, found, rfl⟩ := Option.map_eq_some_iff.mp known
  obtain ⟨stored, rfl⟩ := getMessage_id found
  by_cases gone : expired cutoffs row
  · right
    rw [statusOf, Option.map_eq_none_iff]
    refine List.find?_eq_none.mpr fun other listed same => ?_
    obtain ⟨kept, young⟩ := List.mem_filter.mp listed
    rw [store.eq_of_id kept stored (by simpa using same), gone] at young
    cases young
  · left
    have listed : row ∈ (store.cleanupExpired cutoffs).messages :=
      List.mem_filter.mpr ⟨stored, by simpa using gone⟩
    rw [statusOf, getMessage_of_mem listed]
    rfl

theorem statusOf_cleanupExpired_held (held : store.statusOf id = some statusHeld)
    (cutoffs : Cutoffs) : (store.cleanupExpired cutoffs).statusOf id = some statusHeld := by
  obtain ⟨row, found, status⟩ := Option.map_eq_some_iff.mp held
  obtain ⟨stored, rfl⟩ := getMessage_id found
  have kept : expired cutoffs row = false := by
    have other : statusHeld ≠ statusKilled := by decide
    simp [expired, status, other]
  have listed : row ∈ (store.cleanupExpired cutoffs).messages :=
    List.mem_filter.mpr ⟨stored, by rw [kept]; rfl⟩
  rw [statusOf, getMessage_of_mem listed, Option.map_some, status]

end statusOf

end BBSStore

end PyBulletin.Store
