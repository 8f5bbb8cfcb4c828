import PyBulletin.Foundation.Fair
import PyBulletin.Store.Bid

set_option autoImplicit false

namespace PyBulletin.Store.Writers

open PyBulletin.Foundation

/-! # Writers on one database

`insert_message` takes a number, looks for a free BID and inserts the row, each in a critical
section of its own.  Other writers may come between.
-/

/-- The tables that the writers share, with the rows in the order of their insertion. -/
structure Tables where
  rows : List Row
  sequence : Nat

def hasBid (rows : List Row) (bid : Text) : Bool := rows.any fun row => row.bid = bid

/-- The BID that `generate_bid` tries after `suffix` others. -/
def candidate (base : Text) : Nat → Text
  | 0 => base.take 12
  | suffix + 1 => BBSStore.suffixed base (suffix + 1)

/-- Where a call of `insert_message` stands.  It ends with a row or an `IntegrityError`. -/
inductive Phase where
  | called
  | probing (id : Nat) (base : Text) (suffix : Nat)
  | chosen (id : Nat) (bid : Text)
  | stored (row : Row)
  | refused

structure Writer where
  msg : Message
  phase : Phase

/-- The row that the INSERT writes. -/
def newRow (msg : Message) (id : Nat) (bid : Text) : Row :=
  { msg with
    bid
    fromCall := Text.upper msg.fromCall
    toCall := Text.upper msg.toCall
    atBbs := Text.upper msg.atBbs
    id
    status := statusNew
    size := BBSStore.utf8Length msg.body
    forwardPath := ""
    readBy := ""
    readAt := none }

/-- The next critical section of a writer, with the clock behind it. -/
def advance (date : DateTime) (tables : Tables) (writer : Writer) : Tables × Writer :=
  match writer.phase with
  | .called =>
      let id := tables.sequence + 1
      let sender : Text := if writer.msg.fromCall = [] then "BBS" else writer.msg.fromCall
      ({ tables with sequence := id },
        { writer with phase := .probing id (BBSStore.bidBase date sender) 0 })
  | .probing id base suffix =>
      if hasBid tables.rows (candidate base suffix) then
        (tables, { writer with phase := .probing id base (suffix + 1) })
      else (tables, { writer with phase := .chosen id (candidate base suffix) })
  | .chosen id bid =>
      if tables.rows.any fun row => row.id = id ∨ row.bid = bid then
        (tables, { writer with phase := .refused })
      else
        let row := newRow writer.msg id bid
        ({ tables with rows := tables.rows ++ [row] }, { writer with phase := .stored row })
  | .stored _ => (tables, writer)
  | .refused => (tables, writer)

structure Work where
  tables : Tables
  writers : List Writer

/-- A turn of one of the writers. -/
def turn (work : Work) (move : Nat × DateTime) : Work :=
  match work.writers[move.1]? with
  | none => work
  | some writer =>
      let (tables, writer) := advance move.2 work.tables writer
      { tables, writers := work.writers.set move.1 writer }

/-- The calls that are made at the same time. -/
def begin (store : BBSStore) (messages : List Message) : Work where
  tables := { rows := store.messages, sequence := store.sequence }
  writers := messages.map fun msg => { msg, phase := .called }

def Writer.row (writer : Writer) : Option Row :=
  match writer.phase with
  | .stored row => some row
  | _ => none

/-- The number of a message that is not in the table yet. -/
def Writer.number (writer : Writer) : Option Nat :=
  match writer.phase with
  | .probing id _ _ => some id
  | .chosen id _ => some id
  | _ => none

/-- All calls have completed, with numbers and BIDs of their own, and each message is in the
table once. -/
structure AllStored (store : BBSStore) (messages : List Message) (work : Work) : Prop where
  complete : ∀ writer ∈ work.writers, ∃ row, writer.phase = .stored row
  messages : work.writers.map Writer.msg = messages
  once : work.tables.rows.Perm (store.messages ++ work.writers.filterMap Writer.row)
  ids : (work.tables.rows.map Row.id).Nodup
  bids : (work.tables.rows.map fun row => row.bid).Nodup

/-- The writer looks for a BID while one that it has still to try is free, and inserts no BID
that another writer has found free before. -/
def Meets (work : Work) (i : Nat) : Prop :=
  ∀ writer, work.writers[i]? = some writer →
    match writer.phase with
    | .probing _ base suffix =>
        ∃ later, suffix ≤ later ∧ hasBid work.tables.rows (candidate base later) = false
    | .chosen _ bid => ∀ (j : Nat) other id, work.writers[j]? = some other → j ≠ i →
        other.phase ≠ .chosen id bid
    | _ => True

section Turns

variable {work : Work} {move : Nat × DateTime} {writer : Writer}

theorem turn_eq (found : work.writers[move.1]? = some writer) :
    turn work move =
      { tables := (advance move.2 work.tables writer).1,
        writers := work.writers.set move.1 (advance move.2 work.tables writer).2 } := by
  rw [turn, found]

/-- A writer behind a turn is the one whose turn it was, or as before. -/
theorem writer_cases (found : work.writers[move.1]? = some writer) {j : Nat} {other : Writer}
    (behind : (turn work move).writers[j]? = some other) :
    j = move.1 ∧ other = (advance move.2 work.tables writer).2 ∨
      j ≠ move.1 ∧ work.writers[j]? = some other := by
  rw [turn_eq found, List.getElem?_set] at behind
  split at behind
  · split at behind
    · cases behind
      exact .inl ⟨‹move.1 = j›.symm, rfl⟩
    · cases behind
  · exact .inr ⟨Ne.symm ‹_›, behind⟩

theorem writer_behind (found : work.writers[move.1]? = some writer) :
    (turn work move).writers[move.1]? = some (advance move.2 work.tables writer).2 := by
  rw [turn_eq found, List.getElem?_set_self (List.getElem?_eq_some_iff.mp found).1]

theorem other_behind {j : Nat} (other : j ≠ move.1) :
    (turn work move).writers[j]? = work.writers[j]? := by
  rw [turn]
  split
  · rfl
  · exact List.getElem?_set_ne (Ne.symm other)

/-- The row that the INSERT of a writer adds, if it is its turn to insert one. -/
def added (tables : Tables) (writer : Writer) : Option Row :=
  match writer.phase with
  | .chosen id bid =>
      if tables.rows.any fun row => row.id = id ∨ row.bid = bid then none
      else some (newRow writer.msg id bid)
  | _ => none

theorem advance_rows (date : DateTime) (tables : Tables) (writer : Writer) :
    (advance date tables writer).1.rows = tables.rows ++ (added tables writer).toList := by
  obtain ⟨msg, phase⟩ := writer
  cases phase with
  | called => simp [advance, added]
  | probing id base suffix =>
      simp only [advance, added, Option.toList_none, List.append_nil]
      split <;> rfl
  | chosen id bid =>
      simp only [advance, added]
      split
      · simp
      · rfl
  | stored row => simp [advance, added]
  | refused => simp [advance, added]

theorem turn_rows (work : Work) (move : Nat × DateTime) :
    work.tables.rows <+: (turn work move).tables.rows := by
  cases found : work.writers[move.1]? with
  | none => simp [turn, found]
  | some writer =>
      rw [turn_eq found, advance_rows]
      exact List.prefix_append _ _

theorem hasBid_of_prefix {rows longer : List Row} (front : rows <+: longer) {bid : Text}
    (taken : hasBid rows bid = true) : hasBid longer bid = true := by
  obtain ⟨row, listed, same⟩ := List.any_eq_true.mp taken
  exact List.any_eq_true.mpr ⟨row, front.subset listed, same⟩

def Doomed (rows : List Row) (writer : Writer) : Prop :=
  match writer.phase with
  | .refused => True
  | .chosen _ bid => hasBid rows bid = true
  | .probing _ base suffix => ∀ later, suffix ≤ later → hasBid rows (candidate base later) = true
  | _ => False

theorem doomed_of_prefix {rows longer : List Row} (front : rows <+: longer)
    (doomed : Doomed rows writer) : Doomed longer writer := by
  obtain ⟨msg, phase⟩ := writer
  cases phase with
  | probing id base suffix => exact fun later from_ => hasBid_of_prefix front (doomed later from_)
  | chosen id bid => exact hasBid_of_prefix front doomed
  | refused => exact trivial
  | _ => exact doomed

theorem doomed_advance (date : DateTime) {tables : Tables} (doomed : Doomed tables.rows writer) :
    Doomed tables.rows (advance date tables writer).2 := by
  obtain ⟨msg, phase⟩ := writer
  cases phase with
  | probing id base suffix =>
      have taken := doomed suffix le_rfl
      simp only [advance, taken, if_true]
      exact fun later from_ => doomed later (by omega)
  | chosen id bid =>
      obtain ⟨row, listed, same⟩ := List.any_eq_true.mp doomed
      have refused : (tables.rows.any fun row => row.id = id ∨ row.bid = bid) = true :=
        List.any_eq_true.mpr ⟨row, listed, by simp at same ⊢; exact .inr same⟩
      simp only [advance, refused, if_true]
      trivial
  | refused => exact trivial
  | _ => exact doomed.elim

theorem doomed_turn (work : Work) (move : Nat × DateTime) {i : Nat}
    (doomed : ∃ writer, work.writers[i]? = some writer ∧ Doomed work.tables.rows writer) :
    ∃ writer, (turn work move).writers[i]? = some writer ∧ Doomed (turn work move).tables.rows writer := by
  obtain ⟨writer, found, doomed⟩ := doomed
  by_cases here : i = move.1
  · subst here
    exact ⟨_, writer_behind found, doomed_of_prefix (turn_rows work move) (doomed_advance move.2 doomed)⟩
  · exact ⟨writer, by rwa [other_behind here], doomed_of_prefix (turn_rows work move) doomed⟩

theorem stored_turn (work : Work) (move : Nat × DateTime) {i : Nat}
    (stored : ∃ writer row, work.writers[i]? = some writer ∧ writer.phase = .stored row) :
    ∃ writer row, (turn work move).writers[i]? = some writer ∧ writer.phase = .stored row := by
  obtain ⟨⟨msg, phase⟩, row, found, same⟩ := stored
  cases same
  by_cases here : i = move.1
  · subst here
    exact ⟨_, row, writer_behind found, rfl⟩
  · exact ⟨_, row, by rwa [other_behind here], rfl⟩

/-- A turn against the condition dooms a writer, and the one whose turn it is has not stored
its message before. -/
theorem doomed_of_not_meets (against : ¬ Meets work move.1) :
    (∃ writer, work.writers[move.1]? = some writer ∧ ∀ row, writer.phase ≠ .stored row) ∧
      ∃ (i : Nat) (writer : Writer), (turn work move).writers[i]? = some writer ∧
        Doomed (turn work move).tables.rows writer := by
  simp only [Meets, not_forall] at against
  obtain ⟨⟨msg, phase⟩, found, against⟩ := against
  cases phase with
  | probing id base suffix =>
      refine ⟨⟨_, found, nofun⟩, move.1, doomed_turn work move ⟨_, found, fun later from_ => ?_⟩⟩
      simpa using not_exists.mp against later ∘ And.intro from_
  | chosen id bid =>
      refine ⟨⟨_, found, nofun⟩, ?_⟩
      simp only [not_forall, not_not] at against
      obtain ⟨j, ⟨msg', phase'⟩, id', other, different, rfl⟩ := against
      by_cases refused : (work.tables.rows.any fun row => row.id = id ∨ row.bid = bid) = true
      · refine ⟨move.1, _, writer_behind found, ?_⟩
        simp only [advance, refused, if_true]
        trivial
      · refine ⟨j, _, (other_behind different).trans other, ?_⟩
        have inserts : added work.tables ⟨msg, .chosen id bid⟩ = some (newRow msg id bid) := if_neg refused
        rw [Doomed, turn_eq found, advance_rows, inserts]
        exact List.any_eq_true.mpr ⟨newRow msg id bid, List.mem_append_right _ (List.mem_singleton_self _),
          decide_eq_true rfl⟩
  | _ => exact absurd trivial against

end Turns

structure Sound (store : BBSStore) (messages : List Message) (work : Work) : Prop where
  messages : work.writers.map Writer.msg = messages
  once : work.tables.rows.Perm (store.messages ++ work.writers.filterMap Writer.row)
  ids : (work.tables.rows.map Row.id).Nodup
  bids : (work.tables.rows.map fun row => row.bid).Nodup
  issued : ∀ row ∈ work.tables.rows, row.id ≤ work.tables.sequence
  numbered : ∀ (i : Nat) writer id, work.writers[i]? = some writer → writer.number = some id →
    id ≤ work.tables.sequence ∧ ∀ row ∈ work.tables.rows, row.id ≠ id
  distinct : ∀ (i j : Nat) first second id, work.writers[i]? = some first →
    work.writers[j]? = some second → i ≠ j → first.number = some id → second.number ≠ some id
  free : ∀ (i : Nat) writer id bid, work.writers[i]? = some writer → writer.phase = .chosen id bid →
    hasBid work.tables.rows bid = false
  going : ∀ (i : Nat) writer, work.writers[i]? = some writer → writer.phase ≠ .refused

section Sound

variable {store : BBSStore} {messages : List Message} {work : Work} {move : Nat × DateTime}
  {writer : Writer}

theorem begin_sound (store : BBSStore) (messages : List Message) :
    Sound store messages (begin store messages) := by
  have called (i : Nat) (writer : Writer) (found : (begin store messages).writers[i]? = some writer) :
      writer.phase = .called := by
    obtain ⟨msg, _, rfl⟩ := List.mem_map.mp (List.mem_of_getElem? found)
    rfl
  have unnumbered {i : Nat} {writer : Writer} {id : Nat}
      (found : (begin store messages).writers[i]? = some writer) (number : writer.number = some id) :
      False := by
    simp only [Writer.number, called i writer found] at number
    cases number
  refine ⟨?_, ?_, ?_, ?_, store.issued, ?_, ?_, ?_, ?_⟩
  · simp [begin, Function.comp_def]
  · have none_ : (begin store messages).writers.filterMap Writer.row = [] := by
      simp [begin, Writer.row]
    rw [none_, List.append_nil]
    exact .refl _
  · exact List.pairwise_map.mpr (store.ordered.imp Nat.ne_of_lt)
  · exact List.pairwise_map.mpr store.unique
  · exact fun i writer id found number => (unnumbered found number).elim
  · exact fun i j first second id found _ _ number => (unnumbered found number).elim
  · intro i writer id bid found chosen
    rw [called i writer found] at chosen
    cases chosen
  · intro i writer found refused
    rw [called i writer found] at refused
    cases refused

theorem perm_filterMap_set {α β : Type} {row : α → Option β} {items : List α} {i : Nat} {old : α}
    (new : α) (found : items[i]? = some old) (missing : row old = none) :
    ((items.set i new).filterMap row).Perm (items.filterMap row ++ (row new).toList) := by
  induction items generalizing i with
  | nil => cases found
  | cons item items ih =>
      cases i with
      | zero =>
          cases found
          rw [List.set_cons_zero, List.filterMap_cons, List.filterMap_cons, missing]
          cases row new with
          | none => simp
          | some added => exact (List.perm_append_singleton added _).symm
      | succ i =>
          rw [List.set_cons_succ, List.filterMap_cons, List.filterMap_cons]
          cases row item with
          | none => exact ih found
          | some added => exact (ih found).cons added

theorem map_set {α β : Type} {key : α → β} {items : List α} {i : Nat} {old new : α}
    (found : items[i]? = some old) (same : key new = key old) :
    (items.set i new).map key = items.map key := by
  induction items generalizing i with
  | nil => cases found
  | cons item items ih =>
      cases i with
      | zero =>
          cases found
          rw [List.set_cons_zero, List.map_cons, List.map_cons, same]
      | succ i => rw [List.set_cons_succ, List.map_cons, List.map_cons, ih found]

theorem sound_quiet (sound : Sound store messages work) (found : work.writers[move.1]? = some writer)
    (quiet : (advance move.2 work.tables writer).1.rows = work.tables.rows)
    (sequence : work.tables.sequence ≤ (advance move.2 work.tables writer).1.sequence)
    (same : (advance move.2 work.tables writer).2.msg = writer.msg)
    (rows : writer.row = none ∧ (advance move.2 work.tables writer).2.row = none)
    (number : ∀ id, (advance move.2 work.tables writer).2.number = some id →
      writer.number = some id ∨ id = work.tables.sequence + 1 ∧
        (advance move.2 work.tables writer).1.sequence = id)
    (free : ∀ id bid, (advance move.2 work.tables writer).2.phase = .chosen id bid →
      hasBid work.tables.rows bid = false)
    (going : (advance move.2 work.tables writer).2.phase ≠ .refused) :
    Sound store messages (turn work move) := by
  have rowsEq : (turn work move).tables.rows = work.tables.rows := by rw [turn_eq found, quiet]
  have sequenceEq : (turn work move).tables.sequence =
      (advance move.2 work.tables writer).1.sequence := by rw [turn_eq found]
  have newer {j : Nat} {other : Writer} {id : Nat} (listed : work.writers[j]? = some other)
      (numbered : other.number = some id) : id ≤ work.tables.sequence :=
    (sound.numbered j other id listed numbered).1
  refine ⟨?_, ?_, by rw [rowsEq]; exact sound.ids, by rw [rowsEq]; exact sound.bids, ?_, ?_, ?_, ?_, ?_⟩
  · rw [turn_eq found, map_set found same, sound.messages]
  · rw [rowsEq, turn_eq found]
    refine sound.once.trans (List.Perm.append_left _ ?_)
    have moved := perm_filterMap_set (advance move.2 work.tables writer).2 found rows.1
    rw [rows.2, Option.toList_none, List.append_nil] at moved
    exact moved.symm
  · intro row listed
    rw [rowsEq] at listed
    rw [sequenceEq]
    exact (sound.issued row listed).trans sequence
  · intro j other id behind numbered
    rw [rowsEq, sequenceEq]
    rcases writer_cases found behind with ⟨rfl, rfl⟩ | ⟨_, before⟩
    · rcases number id numbered with old | ⟨rfl, last⟩
      · obtain ⟨le, unused⟩ := sound.numbered _ _ _ found old
        exact ⟨le.trans sequence, unused⟩
      · refine ⟨last.ge, fun row listed same => ?_⟩
        have issued := sound.issued row listed
        omega
    · obtain ⟨le, unused⟩ := sound.numbered _ _ _ before numbered
      exact ⟨le.trans sequence, unused⟩
  · intro i j first second id one two different numbered again
    rcases writer_cases found one with ⟨rfl, rfl⟩ | ⟨_, before⟩
    · rcases writer_cases found two with ⟨rfl, _⟩ | ⟨_, behind⟩
      · exact different rfl
      · rcases number id numbered with old | ⟨rfl, _⟩
        · exact sound.distinct _ _ _ _ _ found behind different old again
        · have le := newer behind again
          omega
    · rcases writer_cases found two with ⟨rfl, rfl⟩ | ⟨_, behind⟩
      · rcases number id again with old | ⟨rfl, _⟩
        · exact sound.distinct _ _ _ _ _ before found different numbered old
        · have le := newer before numbered
          omega
      · exact sound.distinct _ _ _ _ _ before behind different numbered again
  · intro j other id bid behind chosen
    rw [rowsEq]
    rcases writer_cases found behind with ⟨rfl, rfl⟩ | ⟨_, before⟩
    · exact free id bid chosen
    · exact sound.free j other id bid before chosen
  · intro j other behind
    rcases writer_cases found behind with ⟨rfl, rfl⟩ | ⟨_, before⟩
    · exact going
    · exact sound.going j other before

theorem turn_idle (idle : ∀ writer, work.writers[move.1]? = some writer →
    advance move.2 work.tables writer = (work.tables, writer)) : turn work move = work := by
  cases found : work.writers[move.1]? with
  | none => rw [turn, found]
  | some writer =>
      obtain ⟨inside, rfl⟩ := List.getElem?_eq_some_iff.mp found
      rw [turn_eq found, idle _ found, List.set_getElem_self]

/-- The INSERT of a writer finds its number and its BID free. -/
theorem advance_chosen {msg : Message} {id : Nat} {bid : Text} (sound : Sound store messages work)
    {i : Nat} (found : work.writers[i]? = some ⟨msg, .chosen id bid⟩) (date : DateTime) :
    advance date work.tables ⟨msg, .chosen id bid⟩ =
      ({ work.tables with rows := work.tables.rows ++ [newRow msg id bid] },
        ⟨msg, .stored (newRow msg id bid)⟩) := by
  have unlisted : ∀ row ∈ work.tables.rows, row.bid ≠ bid := by
    simpa [hasBid] using sound.free _ _ id bid found rfl
  refine if_neg ?_
  rw [List.any_eq_true]
  rintro ⟨row, listed, same⟩
  rcases of_decide_eq_true same with number | named
  · exact (sound.numbered _ _ id found rfl).2 row listed number
  · exact unlisted row listed named

theorem sound_insert {msg : Message} {id : Nat} {bid : Text} (sound : Sound store messages work)
    (found : work.writers[move.1]? = some ⟨msg, .chosen id bid⟩)
    (alone : ∀ (j : Nat) other id, work.writers[j]? = some other → j ≠ move.1 →
      other.phase ≠ .chosen id bid) : Sound store messages (turn work move) := by
  obtain ⟨issued, unused⟩ := sound.numbered _ _ id found rfl
  have unlisted : ∀ row ∈ work.tables.rows, row.bid ≠ bid := by
    simpa [hasBid] using sound.free _ _ id bid found rfl
  have advanced := advance_chosen sound found move.2
  have behind : turn work move =
      { tables := { work.tables with rows := work.tables.rows ++ [newRow msg id bid] },
        writers := work.writers.set move.1 ⟨msg, .stored (newRow msg id bid)⟩ } := by
    rw [turn_eq found, advanced]
  have others {j : Nat} {other : Writer} (there : (turn work move).writers[j]? = some other) :
      other.phase = .stored (newRow msg id bid) ∨ j ≠ move.1 ∧ work.writers[j]? = some other := by
    rcases writer_cases found there with ⟨_, rfl⟩ | before
    · rw [advanced]
      exact .inl rfl
    · exact .inr before
  have unnumbered {other : Writer} {number : Nat} (stored : other.phase = .stored (newRow msg id bid)) :
      other.number ≠ some number := by
    simp only [Writer.number, stored]
    exact nofun
  refine ⟨?_, ?_, ?_, ?_, ?_, ?_, ?_, ?_, ?_⟩
  · rw [behind]
    exact (@map_set _ _ Writer.msg _ _ _ ⟨msg, .stored (newRow msg id bid)⟩ found rfl).trans sound.messages
  · rw [behind]
    refine (sound.once.append_right _).trans ?_
    rw [List.append_assoc]
    exact List.Perm.append_left _
      (@perm_filterMap_set _ _ Writer.row _ _ _ ⟨msg, .stored (newRow msg id bid)⟩ found rfl).symm
  · rw [behind, List.map_append]
    refine List.nodup_append.mpr ⟨sound.ids, List.pairwise_singleton _ _, fun number listed other new => ?_⟩
    obtain ⟨row, stored, rfl⟩ := List.mem_map.mp listed
    rw [List.mem_singleton.mp new]
    exact unused row stored
  · rw [behind, List.map_append]
    refine List.nodup_append.mpr ⟨sound.bids, List.pairwise_singleton _ _, fun name listed other new => ?_⟩
    obtain ⟨row, stored, rfl⟩ := List.mem_map.mp listed
    rw [List.mem_singleton.mp new]
    exact unlisted row stored
  · intro row listed
    rw [behind] at listed ⊢
    rcases List.mem_append.mp listed with old | new
    · exact sound.issued row old
    · rw [List.mem_singleton.mp new]
      exact issued
  · intro j other number there numbered
    rcases others there with stored | ⟨different, before⟩
    · exact absurd numbered (unnumbered stored)
    · obtain ⟨le, apart⟩ := sound.numbered j other number before numbered
      rw [behind]
      refine ⟨le, fun row listed => ?_⟩
      rcases List.mem_append.mp listed with old | new
      · exact apart row old
      · rw [List.mem_singleton.mp new]
        rintro rfl
        exact sound.distinct _ _ _ _ _ before found different numbered rfl
  · intro i j first second number one two different numbered
    rcases others one with stored | ⟨_, before⟩
    · exact absurd numbered (unnumbered stored)
    rcases others two with stored | ⟨_, after⟩
    · exact unnumbered stored
    · exact sound.distinct _ _ _ _ _ before after different numbered
  · intro j other number name there chosen
    rcases others there with stored | ⟨different, before⟩
    · rw [stored] at chosen
      cases chosen
    · have apart : bid ≠ name := by
        rintro rfl
        exact alone j other number before different chosen
      rw [behind, hasBid, List.any_append, ← hasBid, sound.free j other number name before chosen]
      simp [newRow, apart]
  · intro j other there
    rcases others there with stored | ⟨_, before⟩
    · rw [stored]
      exact nofun
    · exact sound.going j other before

theorem sound_turn (sound : Sound store messages work) (meets : Meets work move.1) :
    Sound store messages (turn work move) := by
  cases found : work.writers[move.1]? with
  | none =>
      rw [turn, found]
      exact sound
  | some writer =>
      obtain ⟨msg, phase⟩ := writer
      cases phase with
      | called =>
          refine sound_quiet sound found rfl (Nat.le_succ _) rfl ⟨rfl, rfl⟩ ?_ nofun nofun
          intro id numbered
          cases numbered
          exact .inr ⟨rfl, rfl⟩
      | probing id base suffix =>
          by_cases taken : hasBid work.tables.rows (candidate base suffix) = true
          · have advanced : advance move.2 work.tables ⟨msg, .probing id base suffix⟩ =
                (work.tables, ⟨msg, .probing id base (suffix + 1)⟩) := if_pos taken
            refine sound_quiet sound found ?_ ?_ ?_ ?_ ?_ ?_ ?_ <;> rw [advanced]
            · exact ⟨rfl, rfl⟩
            · exact fun _ numbered => .inl numbered
            · exact nofun
            · exact nofun
          · have advanced : advance move.2 work.tables ⟨msg, .probing id base suffix⟩ =
                (work.tables, ⟨msg, .chosen id (candidate base suffix)⟩) := if_neg taken
            refine sound_quiet sound found ?_ ?_ ?_ ?_ ?_ ?_ ?_ <;> rw [advanced]
            · exact ⟨rfl, rfl⟩
            · exact fun _ numbered => .inl numbered
            · rintro _ _ ⟨⟩
              simpa using taken
            · exact nofun
      | chosen id bid => exact sound_insert sound found (meets _ found)
      | stored row =>
          rw [turn_idle fun writer same => by rw [found] at same; cases same; rfl]
          exact sound
      | refused => exact absurd rfl (sound.going _ _ found)

end Sound

section Fair

variable {store : BBSStore} {messages : List Message} {schedule : Nat → Nat × DateTime}

/-- The work behind `n` turns. -/
def workAt (store : BBSStore) (messages : List Message) (schedule : Nat → Nat × DateTime) (n : Nat) :
    Work := course turn schedule (begin store messages) n

/-- Each writer comes to its turn again and again. -/
def Fair (schedule : Nat → Nat × DateTime) (count : Nat) : Prop :=
  ∀ i, i < count → Recurs schedule fun move => move.1 = i

theorem sound_workAt (meets : ∀ n, Meets (workAt store messages schedule n) (schedule n).1) (n : Nat) :
    Sound store messages (workAt store messages schedule n) :=
  course_invariant (fun n sound => sound_turn sound (meets n)) (begin_sound store messages) n

theorem rows_cases (work : Work) (move : Nat × DateTime) :
    (turn work move).tables.rows = work.tables.rows ∨
      work.tables.rows.length < (turn work move).tables.rows.length := by
  obtain ⟨more, same⟩ := turn_rows work move
  cases more with
  | nil => exact .inl (by rw [← same, List.append_nil])
  | cons row more =>
      right
      rw [← same, List.length_append, List.length_cons]
      omega

/-- No writer is doomed, as its turn comes again. -/
theorem undoomed (meets : ∀ n, Meets (workAt store messages schedule n) (schedule n).1) {i n : Nat}
    (fair : Recurs schedule fun move => move.1 = i) {writer : Writer}
    (found : (workAt store messages schedule n).writers[i]? = some writer) :
    ¬ Doomed (workAt store messages schedule n).tables.rows writer := by
  intro doomed
  obtain ⟨m, le, rfl⟩ := fair n
  have lasts : ∃ writer, (workAt store messages schedule m).writers[(schedule m).1]? = some writer ∧
      Doomed (workAt store messages schedule m).tables.rows writer :=
    @course_keeps _ _ turn schedule (begin store messages)
      (fun work => ∃ writer, work.writers[(schedule m).1]? = some writer ∧ Doomed work.tables.rows writer)
      (fun work move => doomed_turn work move) n m le ⟨writer, found, doomed⟩
  obtain ⟨⟨msg, phase⟩, there, still⟩ := lasts
  have sound := sound_workAt meets m
  cases phase with
  | probing id base suffix =>
      obtain ⟨later, from_, free⟩ := meets m _ there
      exact Bool.false_ne_true (free.symm.trans (still later from_))
  | chosen id bid => exact Bool.false_ne_true ((sound.free _ _ id bid there rfl).symm.trans still)
  | refused => exact sound.going _ _ there rfl
  | _ => exact still

/-- The rows are still these, and the writer has to try no more than `rank` more BIDs, or has
found one. -/
def Stage (rows : List Row) (i : Nat) (work : Work) (rank : Nat) : Prop :=
  work.tables.rows = rows ∧ ∃ writer, work.writers[i]? = some writer ∧
    match writer.phase with
    | .probing _ base suffix =>
        ∃ later, suffix ≤ later ∧ hasBid rows (candidate base later) = false ∧ later + 1 ≤ suffix + rank
    | .chosen _ _ => True
    | _ => False

/-- The rows are still these, and the writer has not begun. -/
def Waiting (rows : List Row) (i : Nat) (work : Work) (_ : Nat) : Prop :=
  work.tables.rows = rows ∧ ∃ writer, work.writers[i]? = some writer ∧ writer.phase = .called

/-- A turn of another writer changes the rows or leaves the stage of this one. -/
theorem stage_steady {rows : List Row} {i rank : Nat} {work : Work} {move : Nat × DateTime}
    (stage : Stage rows i work rank) (other : move.1 ≠ i) :
    rows.length < (turn work move).tables.rows.length ∨ Stage rows i (turn work move) rank := by
  obtain ⟨rfl, writer, found, there⟩ := stage
  rcases rows_cases work move with same | longer
  · exact .inr ⟨same, writer, by rwa [other_behind (Ne.symm other)], there⟩
  · exact .inl longer

/-- The turn of a writer that is looking for a BID or has found one. -/
theorem stage_falls (meets : ∀ n, Meets (workAt store messages schedule n) (schedule n).1)
    {rows : List Row} {n rank : Nat}
    (stage : Stage rows (schedule n).1 (workAt store messages schedule n) rank) :
    rows.length < (workAt store messages schedule (n + 1)).tables.rows.length ∨
      ∃ lower, lower < rank ∧
        Stage rows (schedule n).1 (workAt store messages schedule (n + 1)) lower := by
  obtain ⟨rfl, ⟨msg, phase⟩, found, there⟩ := stage
  have behind := writer_behind found
  have after : workAt store messages schedule (n + 1) =
    turn (workAt store messages schedule n) (schedule n) := rfl
  cases phase with
  | probing id base suffix =>
      right
      obtain ⟨later, from_, free, near⟩ := there
      rw [after]
      by_cases taken : hasBid (workAt store messages schedule n).tables.rows (candidate base suffix) = true
      · have advanced : advance (schedule n).2 (workAt store messages schedule n).tables
            ⟨msg, .probing id base suffix⟩ = ((workAt store messages schedule n).tables,
              ⟨msg, .probing id base (suffix + 1)⟩) := if_pos taken
        have further : suffix ≠ later := by
          rintro rfl
          exact Bool.false_ne_true (free.symm.trans taken)
        refine ⟨rank - 1, by omega, ?_, _, behind, ?_⟩
        · rw [turn_eq found, advanced]
        · rw [advanced]
          exact ⟨later, by omega, free, by omega⟩
      · have advanced : advance (schedule n).2 (workAt store messages schedule n).tables
            ⟨msg, .probing id base suffix⟩ = ((workAt store messages schedule n).tables,
              ⟨msg, .chosen id (candidate base suffix)⟩) := if_neg taken
        refine ⟨rank - 1, by omega, ?_, _, behind, ?_⟩
        · rw [turn_eq found, advanced]
        · rw [advanced]
          trivial
  | chosen id bid =>
      left
      rw [after, turn_eq found, advance_chosen (sound_workAt meets n) found, List.length_append]
      exact Nat.lt_succ_self _
  | _ => exact there.elim

theorem stage_leads (meets : ∀ n, Meets (workAt store messages schedule n) (schedule n).1) {i n rank : Nat}
    {rows : List Row} (fair : Recurs schedule fun move => move.1 = i)
    (begun : Stage rows i (workAt store messages schedule n) rank) :
    ∃ m, n ≤ m ∧ rows.length < (workAt store messages schedule m).tables.rows.length := by
  refine @leads_to _ _ turn schedule (begin store messages) (fun move => move.1 = i) (Stage rows i)
    (fun work => rows.length < work.tables.rows.length) fair
    (fun _ _ stage other => stage_steady stage other) ?_ n rank begun
  rintro n rank stage rfl
  exact stage_falls meets stage

/-- A writer that has not begun will, if no row is inserted before. -/
theorem waiting_leads {i n : Nat} {rows : List Row} (fair : Recurs schedule fun move => move.1 = i)
    (begun : Waiting rows i (workAt store messages schedule n) 0) :
    ∃ m, n ≤ m ∧ (rows.length < (workAt store messages schedule m).tables.rows.length ∨
      (workAt store messages schedule m).tables.rows = rows ∧
        ∃ msg id base, (workAt store messages schedule m).writers[i]? =
          some ⟨msg, .probing id base 0⟩) := by
  refine @leads_to _ _ turn schedule (begin store messages) (fun move => move.1 = i) (Waiting rows i)
    (fun work => rows.length < work.tables.rows.length ∨ work.tables.rows = rows ∧
      ∃ msg id base, work.writers[i]? = some ⟨msg, .probing id base 0⟩) fair ?_ ?_ n 0 begun
  · rintro n rank ⟨rfl, writer, found, called⟩ other
    rcases rows_cases (workAt store messages schedule n) (schedule n) with same | longer
    · exact .inr ⟨same, writer, (other_behind (Ne.symm other)).trans found, called⟩
    · exact .inl (.inl longer)
  · rintro n rank ⟨rfl, ⟨msg, phase⟩, found, rfl⟩ rfl
    have begins := writer_behind found
    refine .inl (.inr ⟨?_, msg, _, _, begins⟩)
    exact congrArg (fun work => work.tables.rows) (turn_eq found)

/-- A message that is not stored yet is followed by a row that was not there. -/
theorem grows (meets : ∀ n, Meets (workAt store messages schedule n) (schedule n).1) {i n : Nat}
    (fair : Recurs schedule fun move => move.1 = i) {writer : Writer}
    (found : (workAt store messages schedule n).writers[i]? = some writer)
    (unstored : ∀ row, writer.phase ≠ .stored row) :
    ∃ m, n ≤ m ∧ (workAt store messages schedule n).tables.rows.length <
      (workAt store messages schedule m).tables.rows.length := by
  have probes {n : Nat} {msg : Message} {id : Nat} {base : Text} {suffix : Nat}
      (found : (workAt store messages schedule n).writers[i]? = some ⟨msg, .probing id base suffix⟩) :
      ∃ m, n ≤ m ∧ (workAt store messages schedule n).tables.rows.length <
        (workAt store messages schedule m).tables.rows.length := by
    have alive := undoomed meets fair found
    simp only [Doomed, not_forall] at alive
    obtain ⟨later, from_, free⟩ := alive
    exact @stage_leads _ _ _ meets _ _ (later + 1) _ fair
      ⟨rfl, _, found, later, from_, by simpa using free, by omega⟩
  obtain ⟨msg, phase⟩ := writer
  cases phase with
  | called =>
      obtain ⟨m, le, longer | ⟨same, msg', id, base, begun⟩⟩ := waiting_leads fair ⟨rfl, _, found, rfl⟩
      · exact ⟨m, le, longer⟩
      · obtain ⟨last, further, longer⟩ := probes begun
        exact ⟨last, le.trans further, same ▸ longer⟩
  | probing id base suffix => exact probes found
  | chosen id bid => exact @stage_leads _ _ _ meets _ _ 0 _ fair ⟨rfl, _, found, trivial⟩
  | stored row => exact absurd rfl (unstored row)
  | refused => exact absurd rfl ((sound_workAt meets n).going _ _ found)

theorem length_writers {work : Work} (sound : Sound store messages work) :
    work.writers.length = messages.length := by
  rw [← sound.messages, List.length_map]

theorem rows_le {work : Work} (sound : Sound store messages work) :
    work.tables.rows.length ≤ store.messages.length + messages.length := by
  rw [sound.once.length_eq, List.length_append]
  have fewer := List.length_filterMap_le Writer.row work.writers
  rw [length_writers sound] at fewer
  omega

theorem ends (meets : ∀ n, Meets (workAt store messages schedule n) (schedule n).1)
    (fair : Fair schedule messages.length) (n : Nat) :
    ∃ m, AllStored store messages (workAt store messages schedule m) := by
  generalize left : store.messages.length + messages.length -
    (workAt store messages schedule n).tables.rows.length = rank
  induction rank using Nat.strongRecOn generalizing n with
  | ind rank ih =>
      have sound := sound_workAt meets n
      by_cases complete : ∀ writer ∈ (workAt store messages schedule n).writers,
          ∃ row, writer.phase = .stored row
      · exact ⟨n, complete, sound.messages, sound.once, sound.ids, sound.bids⟩
      · simp only [not_forall] at complete
        obtain ⟨writer, listed, unstored⟩ := complete
        obtain ⟨i, inside, found⟩ := List.getElem_of_mem listed
        have turns := fair i (length_writers sound ▸ inside)
        obtain ⟨m, le, longer⟩ := grows meets turns (List.getElem?_eq_some_iff.mpr ⟨inside, found⟩)
          (not_exists.mp unstored)
        have bound := rows_le (sound_workAt meets m)
        exact ih _ (by omega) m rfl

theorem length_workAt (n : Nat) : (workAt store messages schedule n).writers.length = messages.length := by
  have kept (work : Work) (move : Nat × DateTime) (same : work.writers.length = messages.length) :
      (turn work move).writers.length = messages.length := by
    rw [turn]
    split
    · exact same
    · rw [List.length_set, same]
  exact @course_invariant _ _ turn schedule (begin store messages)
    (fun work => work.writers.length = messages.length) (fun n => kept _ _) (List.length_map _) n

theorem meets_of_allStored {n m : Nat} (all : AllStored store messages (workAt store messages schedule n)) :
    Meets (workAt store messages schedule m) (schedule m).1 := by
  by_contra against
  obtain ⟨⟨writer, found, unstored⟩, i, other, behind, doomed⟩ := doomed_of_not_meets against
  rcases Nat.lt_or_ge m n with before | after
  · obtain ⟨⟨msg, phase⟩, there, still⟩ := @course_keeps _ _ turn schedule (begin store messages)
      (fun work => ∃ writer, work.writers[i]? = some writer ∧ Doomed work.tables.rows writer)
      (fun work move => doomed_turn work move) (m + 1) n before ⟨other, behind, doomed⟩
    obtain ⟨row, stored⟩ := all.complete _ (List.mem_of_getElem? there)
    cases stored
    exact still
  · have listed (j : Nat) (inside : j < (workAt store messages schedule n).writers.length) :
        ∃ writer row, (workAt store messages schedule m).writers[j]? = some writer ∧
          writer.phase = .stored row := by
      obtain ⟨row, stored⟩ := all.complete _ (List.getElem_mem inside)
      exact @course_keeps _ _ turn schedule (begin store messages)
        (fun work => ∃ writer row, work.writers[j]? = some writer ∧ writer.phase = .stored row)
        (fun work move => stored_turn work move) n m after
        ⟨_, row, List.getElem?_eq_some_iff.mpr ⟨inside, rfl⟩, stored⟩
    have inside : (schedule m).1 < (workAt store messages schedule n).writers.length := by
      rw [length_workAt n, ← length_workAt m]
      exact (List.getElem?_eq_some_iff.mp found).1
    obtain ⟨same, row, there, stored⟩ := listed _ inside
    rw [found] at there
    cases there
    exact unstored row stored

end Fair

/-- Calls of `insert_message` at the same time all store their messages in exactly those
schedules where each writer looks for a BID while one that it has still to try is free, and
inserts no BID that another has found free and not inserted yet. -/
theorem inserts_succeed_iff (store : BBSStore) (messages : List Message)
    (schedule : Nat → Nat × DateTime) (fair : Fair schedule messages.length) :
    (∃ n, AllStored store messages (workAt store messages schedule n)) ↔
      ∀ n, Meets (workAt store messages schedule n) (schedule n).1 :=
  ⟨fun ⟨_, all⟩ _ => meets_of_allStored all, fun meets => ends meets fair 0⟩

def noon : DateTime := ⟨2026, 1, 1, 12, 0, 0⟩

/-- Turn about between two writers within one second. -/
def inTurn (n : Nat) : Nat × DateTime := (n % 2, noon)

theorem inTurn_fair : Fair inTurn 2 := by
  intro i inside n
  refine ⟨2 * n + i, by omega, ?_⟩
  change (2 * n + i) % 2 = i
  omega

def note (fromCall : Text) : Message where
  bid := ""
  msgType := msgPrivate
  fromCall
  toCall := "N0AAA"
  atBbs := ""
  subject := "Hello"
  body := "Hello"
  createdAt := none

/-- Two calls within one second are stored by the sixth turn, and no turn gets in the way of
the other call. -/
theorem notes_succeed :
    AllStored .empty [note "W1AW", note "W3BBS"]
        (workAt .empty [note "W1AW", note "W3BBS"] inTurn 6) ∧
      ∀ n, Meets (workAt .empty [note "W1AW", note "W3BBS"] inTurn n) (inTurn n).1 := by
  have stored : AllStored .empty [note "W1AW", note "W3BBS"]
      (workAt .empty [note "W1AW", note "W3BBS"] inTurn 6) := by
    constructor
    · exact List.forall_mem_cons.mpr ⟨⟨_, rfl⟩, List.forall_mem_singleton.mpr ⟨_, rfl⟩⟩
    · rfl
    · exact .refl _
    · decide
    · decide
  exact ⟨stored, (inserts_succeed_iff .empty [note "W1AW", note "W3BBS"] inTurn inTurn_fair).mp
    ⟨6, stored⟩⟩

/-- Two messages from one call within one second. -/
theorem notes_collide :
    ¬ ∀ (store : BBSStore) (messages : List Message) (schedule : Nat → Nat × DateTime),
      Fair schedule messages.length → ∃ n, AllStored store messages (workAt store messages schedule n) := by
  intro claimed
  obtain ⟨n, all⟩ := claimed .empty [note "W1AW", note "W1AW"] inTurn inTurn_fair
  have meets := @meets_of_allStored _ _ _ n 4 all
  obtain ⟨first, found, chosen⟩ : ∃ writer,
      (workAt .empty [note "W1AW", note "W1AW"] inTurn 4).writers[0]? = some writer ∧
        writer.phase = .chosen 1 "W1AW26010112" := ⟨_, rfl, by rfl⟩
  obtain ⟨second, found', chosen'⟩ : ∃ writer,
      (workAt .empty [note "W1AW", note "W1AW"] inTurn 4).writers[1]? = some writer ∧
        writer.phase = .chosen 2 "W1AW26010112" := ⟨_, rfl, by rfl⟩
  have alone := meets first found
  rw [chosen] at alone
  exact alone 1 second 2 found' (by decide) chosen'

end PyBulletin.Store.Writers
