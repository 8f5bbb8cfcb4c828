import PyBulletin.Command.Listed
import PyBulletin.Foundation.Lines
import PyBulletin.Store.BidSearch

set_option autoImplicit false

namespace PyBulletin.Store.DateTime

open PyBulletin.Foundation

/-- Neither is before the other. -/
def sameSecond (first second : DateTime) : Bool := !first.before second && !second.before first

theorem before_asymm {first second : DateTime} (less : first.before second) :
    second.before first = false := by
  simp only [before, decide_eq_true_eq, decide_eq_false_iff_not] at less ⊢
  omega

/-- Behind the second time, or not before it: that is a question of one second. -/
theorem before_eq_iff {first second : DateTime} :
    second.before first = !first.before second ↔ first.sameSecond second = false := by
  have asymm := @before_asymm first second
  rw [sameSecond]
  revert asymm
  generalize first.before second = less
  generalize second.before first = greater
  revert less greater
  decide

theorem padded_length_of_lt {width n : Nat} (one : 0 < width) (fits : n < 10 ^ width) :
    (padded width n).length = width := by
  have digits := (Nat.length_toDigits_le_iff (b := 10) (n := n) (by decide) one).mpr fits
  simp only [padded, List.length_append, List.length_replicate]
  omega

theorem parseInt_padded {width n : Nat} (one : 0 < width) (fits : n < 10 ^ width)
    (short : width ≤ Text.maxIntDigits) : Text.parseInt (padded width n) = some (n : Int) := by
  have digits : ∀ c ∈ padded width n, 48 ≤ c.toNat ∧ c.toNat ≤ 57 := by
    intro c listed
    rcases List.mem_append.mp listed with filling | digit
    · rw [List.eq_of_mem_replicate filling]
      decide
    · exact Text.digit_bounds digit
  have value : Nat.ofDigitChars 10 (padded width n) 0 = n := by
    rw [padded, Nat.ofDigitChars_append, Nat.ofDigitChars_replicate_zero, Nat.mul_zero,
      Nat.ofDigitChars_ten_toDigits]
  have length := padded_length_of_lt one fits
  rw [Text.parseInt_numeral _ digits, length, if_neg (by omega), value]
  intro none
  rw [none, List.length_nil] at length
  omega

end PyBulletin.Store.DateTime

namespace PyBulletin.Command.Engine

open PyBulletin.Foundation
open PyBulletin.Foundation.Stateful
open PyBulletin.Store
open PyBulletin.Store.DateTime
open PyBulletin.Session

inductive DateForm where
  | mmdd
  | yymmdd
  | yyyymmdd

namespace DateForm

def write (date : DateTime) : DateForm → Text
  | mmdd => padded 2 date.month ++ padded 2 date.day
  | yymmdd => padded 2 (date.year % 100) ++ padded 2 date.month ++ padded 2 date.day
  | yyyymmdd => padded 4 date.year ++ padded 2 date.month ++ padded 2 date.day

/-- The years whose dates can be written so; `today` tells the year of `MMDD`. -/
def covers (today date : DateTime) : DateForm → Prop
  | mmdd => date.year = today.year
  | yymmdd => 2000 ≤ date.year ∧ date.year < 2100
  | yyyymmdd => True

end DateForm

/-- The beginning of a day of the calendar. -/
def Midnight (date : DateTime) : Prop := dateOf date.year date.month date.day = some date

instance (date : DateTime) : Decidable (Midnight date) := inferInstanceAs (Decidable (_ = _))

theorem Midnight.bounds {date : DateTime} (midnight : Midnight date) :
    date.year ≤ 9999 ∧ date.month ≤ 12 ∧ date.day ≤ 31 := by
  simp only [Midnight, dateOf, Option.ite_none_right_eq_some] at midnight
  obtain ⟨⟨-, year, -, month, -, day⟩, -⟩ := midnight
  have longest (february : Int) (short : february ≤ 31) (index : Nat) :
      [31, february, 31, 30, 31, 30, 31, 31, 30, 31, 30, 31].getD index 0 ≤ 31 := by
    rw [List.getD_eq_getElem?_getD]
    cases found : [31, february, 31, 30, 31, 30, 31, 31, 30, 31, 30, 31][index]? with
    | none => decide
    | some days =>
        have listed := List.mem_of_getElem? found
        simp only [List.mem_cons, List.not_mem_nil, or_false] at listed
        rw [Option.getD_some]
        omega
  have shortest (leap : Prop) [Decidable leap] : (if leap then 29 else 28 : Int) ≤ 31 := by
    split <;> decide
  have days := Int.le_trans day (longest _ (shortest _) _)
  exact ⟨by omega, by omega, by omega⟩

/-- A number that is written between other texts, by the places where it begins and ends. -/
theorem parseInt_slice (front back : Text) {width n start stop : Nat} (one : 0 < width)
    (fits : n < 10 ^ width) (short : width ≤ Text.maxIntDigits) (begins : front.length = start)
    (ends : start + width = stop) :
    Text.parseInt (((front ++ (padded width n ++ back)).take stop).drop start) = some (n : Int) := by
  have whole : (front ++ padded width n).length = stop := by
    rw [List.length_append, begins, padded_length_of_lt one fits, ends]
  rw [← List.append_assoc, ← whole, List.take_left, ← begins, List.drop_left,
    parseInt_padded one fits short]

/-- A date is read as it was written. -/
theorem listDate_write {today date : DateTime} {form : DateForm} (midnight : Midnight date)
    (covers : form.covers today date) : listDate today (form.write date) = some date := by
  obtain ⟨year, month, day⟩ := midnight.bounds
  have monthLength : (padded 2 date.month).length = 2 := padded_length_of_lt (by decide) (by omega)
  have dayLength : (padded 2 date.day).length = 2 := padded_length_of_lt (by decide) (by omega)
  have monthAt (front back : Text) {start : Nat} (begins : front.length = start) :=
    parseInt_slice front back (n := date.month) (by decide : 0 < 2) (by omega) (by decide) begins rfl
  have dayAt (front : Text) {start : Nat} (begins : front.length = start) :=
    parseInt_slice front [] (n := date.day) (by decide : 0 < 2) (by omega) (by decide) begins rfl
  simp only [List.append_nil] at dayAt
  cases form with
  | mmdd =>
      have length : (DateForm.mmdd.write date).length = 4 := by
        rw [DateForm.write, List.length_append, monthLength, dayLength]
      have monthRead : Text.parseInt (((padded 2 date.month ++ padded 2 date.day).take 2).drop 0) =
          some (date.month : Int) := monthAt [] _ rfl
      have same : date.year = today.year := covers
      simp only [listDate, length]
      rw [DateForm.write, dayAt _ monthLength, monthRead, ← same]
      exact midnight
  | yymmdd =>
      have short : date.year % 100 < 10 ^ 2 := by omega
      have yearLength : (padded 2 (date.year % 100)).length = 2 := padded_length_of_lt (by decide) short
      have front : (padded 2 (date.year % 100) ++ padded 2 date.month).length = 4 := by
        rw [List.length_append, yearLength, monthLength]
      have length : (DateForm.yymmdd.write date).length = 6 := by
        rw [DateForm.write, List.length_append, front, dayLength]
      have yearRead : Text.parseInt (((padded 2 (date.year % 100) ++
          (padded 2 date.month ++ padded 2 date.day)).take 2).drop 0) =
            some ((date.year % 100 : Nat) : Int) :=
        parseInt_slice [] _ (by decide) short (by decide) rfl rfl
      obtain ⟨first, last⟩ : 2000 ≤ date.year ∧ date.year < 2100 := covers
      have century : (2000 + (date.year % 100 : Nat) : Int) = date.year := by omega
      simp only [listDate, length]
      rw [DateForm.write, dayAt _ front, List.append_assoc, monthAt _ _ yearLength, yearRead]
      change dateOf (2000 + (date.year % 100 : Nat)) date.month date.day = _
      rw [century]
      exact midnight
  | yyyymmdd =>
      have short : date.year < 10 ^ 4 := by omega
      have yearLength : (padded 4 date.year).length = 4 := padded_length_of_lt (by decide) short
      have front : (padded 4 date.year ++ padded 2 date.month).length = 6 := by
        rw [List.length_append, yearLength, monthLength]
      have length : (DateForm.yyyymmdd.write date).length = 8 := by
        rw [DateForm.write, List.length_append, front, dayLength]
      have yearRead : Text.parseInt (((padded 4 date.year ++
          (padded 2 date.month ++ padded 2 date.day)).take 4).drop 0) = some (date.year : Int) :=
        parseInt_slice [] _ (by decide) short (by decide) rfl rfl
      simp only [listDate, length]
      rw [DateForm.write, dayAt _ front, List.append_assoc, monthAt _ _ yearLength, yearRead]
      exact midnight

section List

variable {node : Node} {console : Console} {user : User} {date : DateTime} {args : Text}

/-- `LD` lists what is behind the first second of the date. -/
theorem lists_cmdListDate (signedIn : console.user = some user)
    (read : listDate (node.clock console.asked) (Text.strip args) = some date) :
    Lists (fun node => cmdListDate node args) node console
      (console.database.mail.messages.filter ({ afterDate := some date } : MessageQuery).selects) := by
  refine ⟨console.asked + 1, fun strings fuel => ?_⟩
  have filled : Text.strip args ≠ [] := by
    intro none
    rw [none] at read
    cases read
  change (cmdListDate { node with strings } args).run fuel console = _
  rw [cmdListDate, run_ifRead signedIn, if_neg filled]
  change ((listDate (node.clock console.asked) (Text.strip args)).elim _ _ : Talk Unit).run fuel
    { console with asked := console.asked + 1 } = _
  rw [read]
  exact run_listMessages rfl rfl rfl _ fuel

/-- The messages from the first second of the date on. -/
def sinceDate (date : DateTime) (row : Row) : Bool :=
  row.status ≠ statusKilled && row.createdAt.any fun created => !created.before date

theorem selects_iff_sinceDate (date : DateTime) (row : Row) :
    ({ afterDate := some date } : MessageQuery).selects row = sinceDate date row ↔
      (row.status ≠ statusKilled → ∀ created ∈ row.createdAt, created.sameSecond date = false) := by
  have selects : ({ afterDate := some date } : MessageQuery).selects row =
      (row.status ≠ statusKilled && row.createdAt.any date.before) := by
    simp [MessageQuery.selects]
  rw [selects, sinceDate]
  by_cases live : row.status = statusKilled
  · simp [live]
  · cases row.createdAt with
    | none => simp
    | some created => simpa [live] using @before_eq_iff created date

/-- `LD` lists the messages from the beginning of the date on exactly if no message came in the
first second. -/
theorem cmdListDate_inclusive_iff {today : DateTime} {form : DateForm}
    (signedIn : console.user = some user) (clock : node.clock console.asked = today)
    (midnight : Midnight date) (covers : form.covers today date)
    (typed : Text.strip args = form.write date) :
    Lists (fun node => cmdListDate node args) node console
        (console.database.mail.messages.filter (sinceDate date)) ↔
      ∀ row ∈ console.database.mail.messages, row.status ≠ statusKilled →
        ∀ created ∈ row.createdAt, created.sameSecond date = false := by
  have read : listDate (node.clock console.asked) (Text.strip args) = some date := by
    rw [clock, typed, listDate_write midnight covers]
  have listed := lists_cmdListDate signedIn read
  rw [listed.filter_iff]
  exact forall₂_congr fun row _ => selects_iff_sinceDate date row

end List

def newYear : DateTime := ⟨2026, 1, 1, 0, 0, 0⟩

theorem new_year_listed :
    Lists (fun node => cmdListDate node "0101") bareNode
      (listenerTerminal (bulletinAt ⟨2026, 1, 1, 0, 0, 1⟩ "Happy new year"))
      ((bulletinAt ⟨2026, 1, 1, 0, 0, 1⟩ "Happy new year").messages.filter (sinceDate newYear)) :=
  (@cmdListDate_inclusive_iff bareNode _ listener newYear "0101".toList ⟨2026, 1, 1, 12, 0, 0⟩ .mmdd
    rfl rfl (by decide) rfl (by decide)).mpr (by decide)

/-- A bulletin of the first second of a day is not in the list of that day. -/
theorem first_second_missing :
    ¬ ∀ (node : Node) (console : Console) (user : User) (today date : DateTime) (form : DateForm)
      (args : Text), console.user = some user → node.clock console.asked = today → Midnight date →
      form.covers today date → Text.strip args = form.write date →
      Lists (fun node => cmdListDate node args) node console
        (console.database.mail.messages.filter (sinceDate date)) := by
  intro claimed
  have listed := claimed bareNode (listenerTerminal (bulletinAt newYear "Happy new year")) listener
    ⟨2026, 1, 1, 12, 0, 0⟩ newYear .mmdd "0101" rfl rfl (by decide) rfl (by decide)
  have truly := @lists_cmdListDate bareNode (listenerTerminal (bulletinAt newYear "Happy new year"))
    listener newYear "0101".toList rfl (by decide)
  have agree := truly.filter_iff.mp listed
  revert agree
  decide

end PyBulletin.Command.Engine
