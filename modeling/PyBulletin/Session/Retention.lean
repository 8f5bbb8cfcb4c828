import Mathlib.Data.List.Basic
import PyBulletin.Session.Traffic
import PyBulletin.Store.Users

set_option autoImplicit false

namespace PyBulletin.Session.Retention

open PyBulletin.Foundation
open PyBulletin.Store
open PyBulletin.Session.Traffic

def isLeap (year : Nat) : Bool := year % 4 = 0 ∧ (year % 100 ≠ 0 ∨ year % 400 = 0)

/-- The days of a year before the first of a month. -/
def daysBeforeMonth (year month : Nat) : Nat :=
  ([0, 31, 59, 90, 120, 151, 181, 212, 243, 273, 304, 334].getD (month - 1) 0) +
    if 2 < month ∧ isLeap year then 1 else 0

/-- `toordinal` -/
def ordinal (date : DateTime) : Nat :=
  let before := date.year - 1
  before * 365 + before / 4 - before / 100 + before / 400 + daysBeforeMonth date.year date.month + date.day

/-- `int(date.timestamp())` -/
def epoch (date : DateTime) : Int :=
  (((ordinal date : Int) - 719163) * 24 + date.hour) * 3600 + date.minute * 60 + date.second

example : epoch ⟨1970, 1, 1, 0, 0, 0⟩ = 0 := by decide
example : epoch ⟨2026, 3, 1, 12, 0, 1⟩ = 1772366401 := by decide

structure RetentionConfig where
  personalMailDays : Int := 30
  bulletinDays : Int := 14
  ntsDays : Int := 7
  killedDays : Int := 1

/-- `days * 86400` -/
def seconds (days : Int) : Int := days * 86400

/-- `DELETE FROM messages WHERE ...` with the `rowcount`. -/
def deleteWhere (store : BBSStore) (test : Row → Bool) : BBSStore × Nat :=
  ({ messages := store.messages.filter fun row => !test row
     sequence := store.sequence
     ordered := store.ordered.filter _
     issued := fun row listed => store.issued row (List.mem_filter.mp listed).1
     unique := store.unique.filter _ },
    (store.messages.filter test).length)

/-- `created_at < cutoff` -/
def createdBefore (cutoff : Int) (row : Row) : Bool := row.createdAt.any fun date => epoch date < cutoff

/-- A DELETE with its cutoff, which SQLite must be able to hold. -/
structure Delete where
  cutoff : Int
  test : Row → Bool

def ofType (msgType : Text) (cutoff : Int) : Delete where
  cutoff
  test row := row.msgType = msgType ∧ createdBefore cutoff row ∧ row.status ≠ statusHeld

def ofKilled (cutoff : Int) : Delete where
  cutoff
  test row := row.status = statusKilled ∧ createdBefore cutoff row

/-- The DELETEs one after the other; `none` is the `OverflowError` on a cutoff. -/
def deleteAll : BBSStore → Nat → List Delete → BBSStore × Option Nat
  | store, total, [] => (store, some total)
  | store, total, delete :: deletes =>
      if fitsColumn delete.cutoff then
        let (store, count) := deleteWhere store delete.test
        deleteAll store (total + count) deletes
      else (store, none)

def deletes (now : Int) (config : RetentionConfig) : List Delete :=
  [ofType msgPrivate (now - seconds config.personalMailDays),
    ofType msgBulletin (now - seconds config.bulletinDays),
    ofType msgNts (now - seconds config.ntsDays),
    ofKilled (now - seconds config.killedDays)]

/-- `cleanup_expired` with the clock at `now`. -/
def cleanupExpired (store : BBSStore) (now : Int) (config : RetentionConfig) : BBSStore × Option Nat :=
  deleteAll store 0 (deletes now config)

/-- The store, and when messages were killed last, which no column tells. -/
structure History where
  store : BBSStore
  killedAt : Nat → Option Int

inductive Event where
  | write (now : DateTime) (operation : Operation)
  | cleanup (now : DateTime) (config : RetentionConfig)

def step (history : History) : Event → Option History
  | .write now operation =>
      some {
        store := operation.apply now history.store
        killedAt :=
          match operation with
          | .kill id => fun other => if other = id then some (epoch now) else history.killedAt other
          | _ => history.killedAt }
  | .cleanup now config => some { history with store := (cleanupExpired history.store (epoch now) config).1 }

def begin : History := ⟨.empty, fun _ => none⟩

section Windows

variable (config : RetentionConfig) (now : Int) (row : Row)

/-- The window of a type, in days. -/
def window (msgType : Text) : Option Int :=
  if msgType = msgPrivate then some config.personalMailDays
  else if msgType = msgBulletin then some config.bulletinDays
  else if msgType = msgNts then some config.ntsDays
  else none

/-- Younger than the window of its type. -/
def Young : Prop :=
  ∀ days date, window config row.msgType = some days → row.createdAt = some date →
    now - epoch date < seconds days

/-- Older than the window of its type. -/
def Old : Prop :=
  ∃ days date, window config row.msgType = some days ∧ row.createdAt = some date ∧
    seconds days < now - epoch date

/-- Killed less than `killed_days` ago. -/
def KilledLately (history : History) : Prop :=
  row.status = statusKilled ∧
    ∃ time, history.killedAt row.id = some time ∧ now - time < seconds config.killedDays

/-- The cleanup keeps what its windows say, removes the rest and counts it. -/
structure Respects (history : History) (result : BBSStore × Option Nat) : Prop where
  held : ∀ row ∈ history.store.messages, row.status = statusHeld → row ∈ result.1.messages
  live : ∀ row ∈ history.store.messages, row.status ≠ statusKilled → Young config now row →
    row ∈ result.1.messages
  killed : ∀ row ∈ history.store.messages, KilledLately config now row history → Young config now row →
    row ∈ result.1.messages
  old : ∀ row ∈ history.store.messages, row.status ≠ statusHeld → Old config now row →
    row ∉ result.1.messages
  counted : result.1.messages.Sublist history.store.messages ∧
    ∃ count, result.2 = some count ∧ result.1.messages.length + count = history.store.messages.length

/-- SQLite can hold the cutoffs, and every message that was killed lately, and is younger than
the window of its type, was created no longer than `killed_days` ago. -/
def Condition (history : History) : Prop :=
  (∀ delete ∈ deletes now config, fitsColumn delete.cutoff) ∧
    ∀ row ∈ history.store.messages, KilledLately config now row history → Young config now row →
      createdBefore (now - seconds config.killedDays) row = false

end Windows

theorem deleteAll_fits {store : BBSStore} {total : Nat} {list : List Delete}
    (fit : ∀ delete ∈ list, fitsColumn delete.cutoff) :
    (deleteAll store total list).1.messages =
        store.messages.filter (fun row => list.all fun delete => !delete.test row) ∧
      ∃ count, (deleteAll store total list).2 = some (total + count) ∧
        (deleteAll store total list).1.messages.length + count = store.messages.length := by
  induction list generalizing store total with
  | nil =>
      refine ⟨?_, 0, rfl, rfl⟩
      exact (List.filter_eq_self.mpr fun _ _ => rfl).symm
  | cons delete list ih =>
      have here := fit delete List.mem_cons_self
      obtain ⟨rows, count, counted, length⟩ :=
        @ih (deleteWhere store delete.test).1 (total + (deleteWhere store delete.test).2)
          fun other listed => fit other (List.mem_cons_of_mem _ listed)
      rw [deleteAll, if_pos here]
      refine ⟨?_, (deleteWhere store delete.test).2 + count, ?_, ?_⟩
      · rw [rows, deleteWhere, List.filter_filter]
        congr 1
        funext row
        rw [List.all_cons, Bool.and_comm]
      · rw [counted, Nat.add_assoc]
      · have split := @List.length_eq_length_filter_add _ store.messages delete.test
        simp only [deleteWhere] at length ⊢
        omega

theorem deleteAll_unfit {store : BBSStore} {total : Nat} {list : List Delete}
    (unfit : ¬ ∀ delete ∈ list, fitsColumn delete.cutoff) : (deleteAll store total list).2 = none := by
  induction list generalizing store total with
  | nil => exact absurd (fun _ listed => absurd listed List.not_mem_nil) unfit
  | cons delete list ih =>
      rw [deleteAll]
      split
      · refine ih fun fit => unfit fun other listed => ?_
        rcases List.mem_cons.mp listed with rfl | rest
        · assumption
        · exact fit other rest
      · rfl

section Cleanup

variable {config : RetentionConfig} {now : Int} {history : History} {row : Row}

theorem createdBefore_iff {cutoff : Int} :
    createdBefore cutoff row = true ↔ ∃ date, row.createdAt = some date ∧ epoch date < cutoff := by
  simp [createdBefore, Option.any_eq_true]

/-- One of the first three DELETEs removes a row if it is not held and old. -/
theorem typed_iff :
    ((ofType msgPrivate (now - seconds config.personalMailDays)).test row ||
      (ofType msgBulletin (now - seconds config.bulletinDays)).test row ||
      (ofType msgNts (now - seconds config.ntsDays)).test row) = true ↔
      row.status ≠ statusHeld ∧ Old config now row := by
  have bulletin : msgBulletin ≠ msgPrivate := by decide
  have ntsPrivate : msgNts ≠ msgPrivate := by decide
  have ntsBulletin : msgNts ≠ msgBulletin := by decide
  simp only [ofType, Bool.or_eq_true, decide_eq_true_eq, createdBefore_iff, Old, window]
  constructor
  · rintro ((⟨type, ⟨date, created, less⟩, free⟩ | ⟨type, ⟨date, created, less⟩, free⟩) |
      ⟨type, ⟨date, created, less⟩, free⟩)
    · exact ⟨free, _, date, if_pos type, created, by omega⟩
    · exact ⟨free, _, date, by rw [type, if_neg bulletin, if_pos rfl], created, by omega⟩
    · exact ⟨free, _, date, by rw [type, if_neg ntsPrivate, if_neg ntsBulletin, if_pos rfl], created,
        by omega⟩
  · rintro ⟨free, days, date, wide, created, less⟩
    split at wide
    · cases wide
      exact .inl (.inl ⟨‹_›, ⟨date, created, by omega⟩, free⟩)
    · split at wide
      · cases wide
        exact .inl (.inr ⟨‹_›, ⟨date, created, by omega⟩, free⟩)
      · split at wide
        · cases wide
          exact .inr ⟨‹_›, ⟨date, created, by omega⟩, free⟩
        · cases wide

/-- What the cleanup leaves. -/
theorem mem_cleanupExpired {store : BBSStore}
    (fit : ∀ delete ∈ deletes now config, fitsColumn delete.cutoff) :
    row ∈ (cleanupExpired store now config).1.messages ↔
      row ∈ store.messages ∧ ¬ (row.status ≠ statusHeld ∧ Old config now row) ∧
        ¬ (row.status = statusKilled ∧ createdBefore (now - seconds config.killedDays) row = true) := by
  rw [cleanupExpired, (deleteAll_fits fit).1, List.mem_filter, ← typed_iff]
  simp only [deletes, List.all_cons, List.all_nil, Bool.and_true, ofKilled, Bool.and_eq_true,
    Bool.not_eq_true', Bool.or_eq_true, not_or, Bool.not_eq_true, decide_eq_false_iff_not, and_assoc]

theorem not_old_of_young (young : Young config now row) : ¬ Old config now row := by
  rintro ⟨days, date, wide, created, more⟩
  have less := young days date wide created
  omega

theorem respects_iff :
    Respects config now history (cleanupExpired history.store now config) ↔
      Condition config now history := by
  constructor
  · intro respects
    have fit : ∀ delete ∈ deletes now config, fitsColumn delete.cutoff := by
      by_contra unfit
      obtain ⟨count, counted, _⟩ := respects.counted.2
      rw [cleanupExpired, deleteAll_unfit unfit] at counted
      cases counted
    refine ⟨fit, fun row listed lately young => ?_⟩
    have kept := ((mem_cleanupExpired fit).mp (respects.killed row listed lately young)).2.2
    simpa [lately.1] using kept
  · rintro ⟨fit, spared⟩
    refine ⟨?_, ?_, ?_, ?_, ?_⟩
    · intro row listed held
      refine (mem_cleanupExpired fit).mpr ⟨listed, fun gone => gone.1 held, fun gone => ?_⟩
      exact killed_ne_held (gone.1.symm.trans held)
    · intro row listed live young
      exact (mem_cleanupExpired fit).mpr
        ⟨listed, fun gone => not_old_of_young young gone.2, fun gone => live gone.1⟩
    · intro row listed lately young
      refine (mem_cleanupExpired fit).mpr
        ⟨listed, fun gone => not_old_of_young young gone.2, fun gone => ?_⟩
      rw [spared row listed lately young] at gone
      cases gone.2
    · intro row listed free old kept
      exact ((mem_cleanupExpired fit).mp kept).2.1 ⟨free, old⟩
    · obtain ⟨rows, count, counted, length⟩ := @deleteAll_fits history.store 0 _ fit
      refine ⟨?_, count, ?_, length⟩
      · rw [cleanupExpired, rows]
        exact List.filter_sublist
      · rw [cleanupExpired, counted, Nat.zero_add]

end Cleanup

/-- In every history the cleanups respect their windows exactly if each meets the condition. -/
theorem cleanups_respect_iff (events : List Event) :
    EveryStep step (fun history event => ∀ now config, event = .cleanup now config →
        Respects config (epoch now) history (cleanupExpired history.store (epoch now) config))
        begin events ↔
      EveryStep step (fun history event => ∀ now config, event = .cleanup now config →
        Condition config (epoch now) history) begin events := by
  refine everyStep_congr (fun history event (_ : True) => ?_) (fun _ _ _ _ _ _ => trivial) trivial events
  exact forall₂_congr fun now config => imp_congr_right fun _ => respects_iff

def report : Message where
  bid := "1_W1AW"
  msgType := msgPrivate
  fromCall := "W1AW"
  toCall := "N0AAA"
  atBbs := ""
  subject := "Hello"
  body := "Hello"
  createdAt := some ⟨2026, 1, 1, 12, 0, 0⟩

/-- A letter of five days is killed and deleted within the same hour. -/
theorem purged_at_once :
    ¬ ∀ events, EveryStep step (fun history event => ∀ now config, event = .cleanup now config →
      Respects config (epoch now) history (cleanupExpired history.store (epoch now) config))
      begin events := by
  intro claimed
  have respects := (claimed [.write ⟨2026, 1, 1, 12, 0, 0⟩ (.insert report),
    .write ⟨2026, 1, 6, 12, 0, 0⟩ (.kill 1), .cleanup ⟨2026, 1, 6, 13, 0, 0⟩ {}]).2 _ rfl |>.2 _ rfl |>.1
      _ _ rfl
  have kept := respects.killed _ (.head _) ⟨rfl, _, rfl, by decide⟩ (by
    rintro days date ⟨⟩ ⟨⟩
    decide)
  have gone : (cleanupExpired ((BBSStore.empty.insertMessage report statusNew).1.killMessage 1)
      (epoch ⟨2026, 1, 6, 13, 0, 0⟩) {}).1.messages = [] := by decide +kernel
  exact absurd (gone ▸ kept) List.not_mem_nil

end PyBulletin.Session.Retention
