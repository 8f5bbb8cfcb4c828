import PyBulletin.Foundation.Lines
import PyBulletin.Store.Models

set_option autoImplicit false

namespace PyBulletin.Forward.Cron

open PyBulletin.Foundation
open PyBulletin.Store

/-! # Schedules

`none` is a `ValueError`.  `int` is the built-in function, which also reads the digits of other
scripts; nothing here depends on what it accepts.
-/

/-- The first value that is not `neutral` decides. -/
def shortCircuit (neutral : Bool) : List (Option Bool) → Option Bool
  | [] => some neutral
  | some value :: rest => if value = neutral then shortCircuit neutral rest else some value
  | none :: _ => none

/-- `a and b and …` -/
abbrev conjunction : List (Option Bool) → Option Bool := shortCircuit true

/-- `a or b or …` -/
abbrev disjunction : List (Option Bool) → Option Bool := shortCircuit false

section ShortCircuit

variable {neutral : Bool} {values : List (Option Bool)}

theorem shortCircuit_neutral :
    shortCircuit neutral values = some neutral ↔ ∀ value ∈ values, value = some neutral := by
  induction values with
  | nil => simp [shortCircuit]
  | cons value values ih =>
      match value with
      | none => simp [shortCircuit]
      | some value =>
          rw [shortCircuit]
          split
          · rename_i same
            simp [same, ih]
          · rename_i different
            simp [different]

theorem shortCircuit_other :
    shortCircuit neutral values = some (!neutral) ↔
      ∃ front back, values = front ++ some (!neutral) :: back ∧
        ∀ value ∈ front, value = some neutral := by
  induction values with
  | nil => simp [shortCircuit]
  | cons value values ih =>
      by_cases same : value = some neutral
      · rw [same, shortCircuit, if_pos rfl, ih]
        constructor
        · rintro ⟨front, back, rfl, all⟩
          exact ⟨some neutral :: front, back, rfl, List.forall_mem_cons.mpr ⟨rfl, all⟩⟩
        · rintro ⟨front, back, shape, all⟩
          cases front with
          | nil => simp at shape
          | cons first front =>
              rw [List.cons_append, List.cons.injEq] at shape
              exact ⟨front, back, shape.2, (List.forall_mem_cons.mp all).2⟩
      · have decides : shortCircuit neutral (value :: values) = value := by
          match value, same with
          | none, _ => rfl
          | some value, same =>
              rw [shortCircuit, if_neg fun equal => same (congrArg some equal)]
        rw [decides]
        constructor
        · rintro rfl
          exact ⟨[], values, rfl, List.forall_mem_nil _⟩
        · rintro ⟨front, back, shape, all⟩
          cases front with
          | nil => exact (List.cons.inj shape).1
          | cons first front =>
              rw [List.cons_append, List.cons.injEq] at shape
              exact absurd (shape.1.trans (all first List.mem_cons_self)) same

theorem shortCircuit_settled (settled : ∀ value ∈ values, value ≠ none) :
    shortCircuit neutral values ≠ none := by
  induction values with
  | nil => simp [shortCircuit]
  | cons value values ih =>
      obtain ⟨first, others⟩ := List.forall_mem_cons.mp settled
      match value, first with
      | some value, _ =>
          rw [shortCircuit]
          split
          · exact ih others
          · exact Option.some_ne_none value

end ShortCircuit

variable (int : Text → Option Int)

/-- The days of the years before `year`. -/
def daysBeforeYear (year : Nat) : Nat :=
  let past := year - 1
  past * 365 + past / 4 - past / 100 + past / 400

def isLeap (year : Nat) : Bool := year % 4 = 0 ∧ (year % 100 ≠ 0 ∨ year % 400 = 0)

def daysInMonth (year month : Nat) : Nat :=
  if month = 2 then if isLeap year then 29 else 28
  else if month = 4 ∨ month = 6 ∨ month = 9 ∨ month = 11 then 30
  else 31

/-- `weekday()`, with Monday as 0. -/
def weekday (date : DateTime) : Nat :=
  let months := ((List.range date.month).drop 1).map (daysInMonth date.year)
  (daysBeforeYear date.year + months.sum + date.day + 6) % 7

/-- One pass of the loop of `_field`: whether the part returns `True`.  The second bound of a
range is only converted for a value that has passed the first. -/
def fieldPart (value lo : Int) (part : Text) : Option Bool :=
  let part := Text.strip part
  if ("*/" : Text).isPrefixOf part then
    (int (part.drop 2)).map fun step => 0 < step ∧ (value - lo) % step = 0
  else if '-' ∈ part ∧ ¬ ("-" : Text).isPrefixOf part then
    let (a, b) := Text.partition '-' part
    (int a).bind fun a => if a ≤ value then (int b).map (value ≤ ·) else some false
  else (int part).map (· = value)

/-- `_field`; it does not use its upper bound. -/
def field (spec : Text) (value lo : Int) : Option Bool :=
  if spec = "*" then some true
  else disjunction ((spec.splitOn ',').map (fieldPart int value lo))

/-- `_matches` -/
def evaluate (expr : Text) (date : DateTime) : Option Bool :=
  match Text.words (Text.strip expr) with
  | [minute, hour, dom, month, dow] =>
      conjunction [field int minute date.minute 0, field int hour date.hour 0,
        field int dom date.day 1, field int month date.month 1, field int dow (weekday date) 0]
  | _ => some true

/-- `matches` -/
def matchesAt (expr : Text) (date : DateTime) : Bool := (evaluate int expr date).getD true

/-- `*/n`, `n-m` and `n`. -/
inductive Item where
  | every (step : Int)
  | range (first last : Int)
  | exact (n : Int)

/-- The item that a part is, if it has one of the three forms. -/
def readItem (part : Text) : Option Item :=
  let part := Text.strip part
  if ("*/" : Text).isPrefixOf part then
    (int (part.drop 2)).bind fun step => if 0 < step then some (.every step) else none
  else if '-' ∈ part ∧ ¬ ("-" : Text).isPrefixOf part then do
    return .range (← int (Text.partition '-' part).1) (← int (Text.partition '-' part).2)
  else (int part).map .exact

/-- A step counts from the first value of the field. -/
def Item.Denotes (lo : Int) : Item → Int → Prop
  | .every step, value => (value - lo) % step = 0
  | .range first last, value => first ≤ value ∧ value ≤ last
  | .exact n, value => value = n

def Contains (value lo : Int) (part : Text) : Prop :=
  ∃ item, readItem int part = some item ∧ item.Denotes lo value

/-- A field: its text, the value the time has there, and the first value of the field. -/
structure Column where
  spec : Text
  value : Int
  lo : Int
deriving DecidableEq

def Column.parts (column : Column) : List Text := column.spec.splitOn ','

def columns (expr : Text) (date : DateTime) : List Column :=
  List.zipWith (fun spec (value, lo) => ⟨spec, value, lo⟩) (Text.words (Text.strip expr))
    [(date.minute, 0), (date.hour, 0), (date.day, 1), (date.month, 1), (weekday date, 0)]

def Formed (spec : Text) : Prop :=
  spec = "*" ∨ ∀ part ∈ spec.splitOn ',', (readItem int part).isSome

instance (spec : Text) : Decidable (Formed int spec) := inferInstanceAs (Decidable (_ ∨ _))

def Column.Denotes (column : Column) : Prop :=
  column.spec = "*" ∨ ∃ part ∈ column.parts, Contains int column.value column.lo part

/-- Five fields of the documented form. -/
structure Documented (expr : Text) : Prop where
  five : (Text.words (Text.strip expr)).length = 5
  formed : ∀ spec ∈ Text.words (Text.strip expr), Formed int spec

/-- The times a `datetime` can tell. -/
structure Valid (date : DateTime) : Prop where
  year : 1 ≤ date.year ∧ date.year ≤ 9999
  month : 1 ≤ date.month ∧ date.month ≤ 12
  day : 1 ≤ date.day ∧ date.day ≤ daysInMonth date.year date.month
  hour : date.hour < 24
  minute : date.minute < 60
  second : date.second < 60

/-- A documented schedule matches the times it denotes, any other text every time. -/
structure Agrees (expr : Text) : Prop where
  documented : Documented int expr → ∀ date, Valid date →
    (matchesAt int expr date = true ↔ ∀ column ∈ columns expr date, column.Denotes int)
  undocumented : ¬ Documented int expr → ∀ date, Valid date → matchesAt int expr date = true

/-- A bound or number that a comparison with the value needs is none. -/
def Unreadable (value : Int) (part : Text) : Prop :=
  let part := Text.strip part
  if ("*/" : Text).isPrefixOf part then int (part.drop 2) = none
  else if '-' ∈ part ∧ ¬ ("-" : Text).isPrefixOf part then
    let (a, b) := Text.partition '-' part
    int a = none ∨ (∃ first, int a = some first ∧ first ≤ value) ∧ int b = none
  else int part = none

/-- The part can be compared with the value, and is for others. -/
def Excludes (value lo : Int) (part : Text) : Prop :=
  ¬ Unreadable int value part ∧ ¬ Contains int value lo part

/-- All parts of the field exclude the time. -/
def Column.Excludes (column : Column) : Prop :=
  column.spec ≠ "*" ∧ ∀ part ∈ column.parts, Cron.Excludes int column.value column.lo part

/-- A part of the field is for the time, and those before it exclude it. -/
def Column.Admits (column : Column) : Prop :=
  column.spec = "*" ∨ ∃ front part back, column.parts = front ++ part :: back ∧
    Contains int column.value column.lo part ∧
      ∀ other ∈ front, Cron.Excludes int column.value column.lo other

/-- The field admits one of the values from `lo` to `hi`. -/
def Open (spec : Text) (lo hi : Int) : Prop :=
  ∃ value : Nat, lo ≤ value ∧ value ≤ hi ∧ Column.Admits int ⟨spec, value, lo⟩

/-- The field excludes one of the values from `lo` to `hi`. -/
def Strict (spec : Text) (lo hi : Int) : Prop :=
  ∃ value : Nat, lo ≤ value ∧ value ≤ hi ∧ Column.Excludes int ⟨spec, value, lo⟩

/-- A day of the calendar, of a leap year at least. -/
structure CalendarDay (m d : Nat) : Prop where
  month : 1 ≤ m ∧ m ≤ 12
  day : 1 ≤ d ∧ d ≤ daysInMonth 2000 m

/-- A field that excludes one of its values stands behind fields that each admit one; day and
month must fit together. -/
inductive Selective (minute hour dom month dow : Text) : Prop where
  | minute (strict : Strict int minute 0 59)
  | hour (before : Open int minute 0 59) (strict : Strict int hour 0 23)
  | dom (early : Open int minute 0 59) (before : Open int hour 0 23) (strict : Strict int dom 1 31)
  | month (early : Open int minute 0 59) (before : Open int hour 0 23) (m d : Nat)
      (calendar : CalendarDay m d) (admits : Column.Admits int ⟨dom, d, 1⟩)
      (excludes : Column.Excludes int ⟨month, m, 1⟩)
  | dow (early : Open int minute 0 59) (before : Open int hour 0 23) (m d : Nat)
      (calendar : CalendarDay m d) (admits : Column.Admits int ⟨dom, d, 1⟩)
      (too : Column.Admits int ⟨month, m, 1⟩) (strict : Strict int dow 0 6)

/-- The text has five fields, and they are selective. -/
def Sifts (expr : Text) : Prop :=
  ∃ minute hour dom month dow, Text.words (Text.strip expr) = [minute, hour, dom, month, dow] ∧
    Selective int minute hour dom month dow

variable {int} {value lo : Int} {part expr : Text} {date : DateTime} {column : Column}

theorem fieldPart_true : fieldPart int value lo part = some true ↔ Contains int value lo part := by
  simp only [fieldPart, Contains, readItem]
  split
  · cases converted : int ((Text.strip part).drop 2) with
    | none => simp
    | some step =>
        by_cases positive : 0 < step
        · simp [positive, Item.Denotes]
        · simp [positive]
  · split
    · cases first : int (Text.partition '-' (Text.strip part)).1 with
      | none => simp
      | some a =>
          cases last : int (Text.partition '-' (Text.strip part)).2 with
          | none =>
              by_cases reached : a ≤ value
              · simp [reached]
              · simp [reached]
          | some b =>
              by_cases reached : a ≤ value
              · simp [reached, Item.Denotes]
              · simp [reached, Item.Denotes]
    · cases converted : int (Text.strip part) with
      | none => simp
      | some n => simp [Item.Denotes, eq_comm]

theorem fieldPart_none : fieldPart int value lo part = none ↔ Unreadable int value part := by
  simp only [fieldPart, Unreadable]
  split
  · simp
  · split
    · cases first : int (Text.partition '-' (Text.strip part)).1 with
      | none => simp
      | some a =>
          by_cases reached : a ≤ value
          · simp [reached]
          · simp [reached]
    · simp

theorem fieldPart_false :
    fieldPart int value lo part = some false ↔ Excludes int value lo part := by
  rw [Excludes, ← @fieldPart_none int value lo part, ← fieldPart_true]
  match fieldPart int value lo part with
  | none => simp
  | some true => simp
  | some false => simp

theorem field_false (spec : Text) :
    field int spec value lo = some false ↔ Column.Excludes int ⟨spec, value, lo⟩ := by
  rw [field, Column.Excludes]
  split
  · rename_i star
    simp [star]
  · rename_i plain
    rw [and_iff_right plain, disjunction, shortCircuit_neutral, List.forall_mem_map]
    exact forall₂_congr fun part _ => fieldPart_false

theorem field_true (spec : Text) :
    field int spec value lo = some true ↔ Column.Admits int ⟨spec, value, lo⟩ := by
  rw [field, Column.Admits]
  split
  · rename_i star
    simp [star]
  · rename_i plain
    rw [or_iff_right plain, disjunction, ← Bool.not_false, shortCircuit_other]
    constructor
    · rintro ⟨front, back, shape, all⟩
      obtain ⟨before, others, parts, rfl, rest⟩ := List.map_eq_append_iff.mp shape
      obtain ⟨part, behind, rfl, here, rfl⟩ := List.map_eq_cons_iff.mp rest
      refine ⟨before, part, behind, parts, fieldPart_true.mp here, fun other listed => ?_⟩
      exact fieldPart_false.mp (all _ (List.mem_map_of_mem listed))
    · rintro ⟨front, part, back, parts, contains, all⟩
      refine ⟨front.map (fieldPart int value lo), back.map (fieldPart int value lo), ?_, ?_⟩
      · have here := fieldPart_true.mpr contains
        have shape : spec.splitOn ',' = front ++ part :: back := parts
        rw [shape, List.map_append, List.map_cons, here]
        rfl
      · intro _ listed
        obtain ⟨other, among, rfl⟩ := List.mem_map.mp listed
        exact fieldPart_false.mpr (all other among)

/-- A column is evaluated as its field is. -/
def Column.eval (int : Text → Option Int) (column : Column) : Option Bool :=
  field int column.spec column.value column.lo

theorem evaluate_columns (five : (Text.words (Text.strip expr)).length = 5) :
    evaluate int expr date = conjunction ((columns expr date).map (Column.eval int)) := by
  rw [evaluate, columns]
  match Text.words (Text.strip expr), five with
  | [minute, hour, dom, month, dow], _ => rfl

theorem evaluate_other (other : (Text.words (Text.strip expr)).length ≠ 5) :
    evaluate int expr date = some true := by
  rw [evaluate]
  split
  · rename_i shape
    rw [shape] at other
    exact absurd rfl other
  · rfl

theorem conjunction_cons (value : Option Bool) (values : List (Option Bool)) :
    conjunction (value :: values) = some false ↔
      value = some false ∨ value = some true ∧ conjunction values = some false := by
  match value with
  | none => simp [conjunction, shortCircuit]
  | some true => simp [conjunction, shortCircuit]
  | some false => simp [conjunction, shortCircuit]

theorem conjunction_nil : conjunction [] ≠ some false := by
  simp [conjunction, shortCircuit]

theorem matchesAt_false : matchesAt int expr date = false ↔ evaluate int expr date = some false := by
  rw [matchesAt]
  match evaluate int expr date with
  | none | some true | some false => simp

/-- The five fields are asked in turn until one excludes the time. -/
theorem evaluate_false {minute hour dom month dow : Text}
    (fields : Text.words (Text.strip expr) = [minute, hour, dom, month, dow]) :
    evaluate int expr date = some false ↔
      Column.Excludes int ⟨minute, date.minute, 0⟩ ∨
      Column.Admits int ⟨minute, date.minute, 0⟩ ∧
        (Column.Excludes int ⟨hour, date.hour, 0⟩ ∨
        Column.Admits int ⟨hour, date.hour, 0⟩ ∧
          (Column.Excludes int ⟨dom, date.day, 1⟩ ∨
          Column.Admits int ⟨dom, date.day, 1⟩ ∧
            (Column.Excludes int ⟨month, date.month, 1⟩ ∨
            Column.Admits int ⟨month, date.month, 1⟩ ∧
              Column.Excludes int ⟨dow, weekday date, 0⟩))) := by
  simp only [evaluate, fields, conjunction_cons, field_true, field_false]
  simp [conjunction_nil]

theorem daysInMonth_le (year month : Nat) : daysInMonth year month ≤ daysInMonth 2000 month := by
  have leap : isLeap 2000 = true := by decide
  simp only [daysInMonth, leap]
  split
  · split <;> decide
  · exact Nat.le_refl _

theorem CalendarDay.of_valid (valid : Valid date) : CalendarDay date.month date.day :=
  ⟨valid.month, valid.day.1, Nat.le_trans valid.day.2 (daysInMonth_le _ _)⟩

theorem CalendarDay.day_le {m d : Nat} (calendar : CalendarDay m d) : d ≤ 31 := by
  have bound : ∀ month, daysInMonth 2000 month ≤ 31 := by
    intro month
    simp only [daysInMonth]
    split
    · split <;> decide
    · split <;> decide
  exact Nat.le_trans calendar.day.2 (bound m)

/-- Seven leap years in a row begin on all the days of the week. -/
theorem exists_year {month day w : Nat} (calendar : CalendarDay month day) (bounded : w ≤ 6)
    (hour minute : Nat) : ∃ year, 2000 ≤ year ∧ year ≤ 2024 ∧ day ≤ daysInMonth year month ∧
      weekday ⟨year, month, day, hour, minute, 0⟩ = w := by
  generalize months : (((List.range month).drop 1).map (daysInMonth 2000)).sum = before
  obtain ⟨k, few, falls⟩ : ∃ k, k < 7 ∧ (730119 + 1461 * k + before + day + 6) % 7 = w :=
    ⟨3 * (w + 6 * (730119 + before + day + 6)) % 7, by omega, by omega⟩
  have first : isLeap 2000 = true := by decide
  have leap : isLeap (2000 + 4 * k) = true := by
    simp only [isLeap, decide_eq_true_eq]
    omega
  have same : daysInMonth (2000 + 4 * k) = daysInMonth 2000 := by
    funext month
    rw [daysInMonth, daysInMonth, leap, first]
  have days : daysBeforeYear (2000 + 4 * k) = 730119 + 1461 * k := by
    simp only [daysBeforeYear]
    omega
  refine ⟨2000 + 4 * k, Nat.le_add_right _ _, by omega, by rw [same]; exact calendar.day.2, ?_⟩
  simp only [weekday, same, months, days]
  exact falls

theorem selective_iff {minute hour dom month dow : Text}
    (fields : Text.words (Text.strip expr) = [minute, hour, dom, month, dow]) :
    Selective int minute hour dom month dow ↔
      ∃ date, Valid date ∧ evaluate int expr date = some false := by
  constructor
  · intro selective
    cases selective with
    | minute strict =>
        obtain ⟨m, _, below, excludes⟩ := strict
        refine ⟨⟨2000, 1, 1, 0, m, 0⟩, ?_, (evaluate_false fields).mpr (.inl excludes)⟩
        exact ⟨by simp, by simp, by simp [daysInMonth], by simp, by dsimp only; omega, by simp⟩
    | hour before strict =>
        obtain ⟨m, _, below, admits⟩ := before
        obtain ⟨h, _, under, excludes⟩ := strict
        refine ⟨⟨2000, 1, 1, h, m, 0⟩, ?_,
          (evaluate_false fields).mpr (.inr ⟨admits, .inl excludes⟩)⟩
        constructor <;> simp [daysInMonth] <;> omega
    | dom early before strict =>
        obtain ⟨m, _, below, admits⟩ := early
        obtain ⟨h, _, under, too⟩ := before
        obtain ⟨d, first, last, excludes⟩ := strict
        refine ⟨⟨2000, 1, d, h, m, 0⟩, ?_,
          (evaluate_false fields).mpr (.inr ⟨admits, .inr ⟨too, .inl excludes⟩⟩)⟩
        constructor <;> simp [daysInMonth] <;> omega
    | month early before mo d calendar admits excludes =>
        obtain ⟨m, _, below, first⟩ := early
        obtain ⟨h, _, under, second⟩ := before
        refine ⟨⟨2000, mo, d, h, m, 0⟩,
          ⟨⟨by simp, by simp⟩, calendar.month, calendar.day, by dsimp only; omega, by dsimp only; omega, by simp⟩, ?_⟩
        exact (evaluate_false fields).mpr
          (.inr ⟨first, .inr ⟨second, .inr ⟨admits, .inl excludes⟩⟩⟩)
    | dow early before mo d calendar admits too strict =>
        obtain ⟨m, _, below, first⟩ := early
        obtain ⟨h, _, under, second⟩ := before
        obtain ⟨w, _, most, excludes⟩ := strict
        obtain ⟨year, since, til, fits, rfl⟩ := @exists_year mo d w calendar (by omega) h m
        refine ⟨⟨year, mo, d, h, m, 0⟩,
          ⟨⟨?_, ?_⟩, calendar.month, ⟨calendar.day.1, fits⟩, ?_, ?_, by simp⟩, ?_⟩
        iterate 4 dsimp only; omega
        exact (evaluate_false fields).mpr
          (.inr ⟨first, .inr ⟨second, .inr ⟨admits, .inr ⟨too, excludes⟩⟩⟩⟩)
  · rintro ⟨date, valid, suppressed⟩
    have calendar := CalendarDay.of_valid valid
    have minutes := valid.minute
    have hours := valid.hour
    have days := calendar.day_le
    have first := calendar.day.1
    have weekdays : weekday date < 7 := Nat.mod_lt _ (by decide)
    rcases (evaluate_false fields).mp suppressed with
      excludes | ⟨inMinute, excludes | ⟨inHour, excludes | ⟨inDay, excludes | ⟨inMonth, excludes⟩⟩⟩⟩
    · exact .minute ⟨date.minute, by omega, by omega, excludes⟩
    · exact .hour ⟨date.minute, by omega, by omega, inMinute⟩
        ⟨date.hour, by omega, by omega, excludes⟩
    · exact .dom ⟨date.minute, by omega, by omega, inMinute⟩
        ⟨date.hour, by omega, by omega, inHour⟩ ⟨date.day, by omega, by omega, excludes⟩
    · exact .month ⟨date.minute, by omega, by omega, inMinute⟩
        ⟨date.hour, by omega, by omega, inHour⟩ _ _ calendar inDay excludes
    · exact .dow ⟨date.minute, by omega, by omega, inMinute⟩
        ⟨date.hour, by omega, by omega, inHour⟩ _ _ calendar inDay inMonth
        ⟨weekday date, by omega, by omega, excludes⟩

theorem sifts_iff :
    Sifts int expr ↔ ∃ date, Valid date ∧ matchesAt int expr date = false := by
  constructor
  · rintro ⟨minute, hour, dom, month, dow, fields, selective⟩
    obtain ⟨date, valid, suppressed⟩ := (selective_iff fields).mp selective
    exact ⟨date, valid, matchesAt_false.mpr suppressed⟩
  · rintro ⟨date, valid, suppressed⟩
    have excluded := matchesAt_false.mp suppressed
    by_cases five : (Text.words (Text.strip expr)).length = 5
    · obtain ⟨minute, hour, dom, month, dow, fields⟩ :
          ∃ a b c d e, Text.words (Text.strip expr) = [a, b, c, d, e] := by
        match Text.words (Text.strip expr), five with
        | [a, b, c, d, e], _ => exact ⟨a, b, c, d, e, rfl⟩
      exact ⟨minute, hour, dom, month, dow, fields,
        (selective_iff fields).mpr ⟨date, valid, excluded⟩⟩
    · rw [evaluate_other five] at excluded
      cases excluded

theorem readable_of_isSome (formed : (readItem int part).isSome) : ¬ Unreadable int value part := by
  simp only [readItem] at formed
  simp only [Unreadable]
  split at formed
  · rename_i step
    rw [if_pos step]
    intro failed
    simp [failed] at formed
  · rename_i other
    rw [if_neg other]
    split at formed
    · rename_i range
      rw [if_pos range]
      rintro (failed | ⟨_, failed⟩)
      · simp [failed] at formed
      · cases first : int (Text.partition '-' (Text.strip part)).1 with
        | none => simp [first] at formed
        | some a => simp [first, failed] at formed
    · rename_i exact_
      rw [if_neg exact_]
      intro failed
      simp [failed] at formed

theorem Formed.settled (formed : Formed int column.spec) : column.eval int ≠ none := by
  rw [Column.eval, field]
  split
  · exact Option.some_ne_none true
  · rename_i plain
    apply shortCircuit_settled
    intro _ listed
    obtain ⟨part, among, rfl⟩ := List.mem_map.mp listed
    exact mt fieldPart_none.mp (readable_of_isSome (formed.resolve_left plain part among))

theorem Formed.eval (formed : Formed int column.spec) :
    column.eval int = some true ↔ column.Denotes int := by
  constructor
  · intro admitted
    refine ((field_true column.spec).mp admitted).imp_right ?_
    rintro ⟨front, part, back, parts, contains, -⟩
    have among : part ∈ column.parts := by
      rw [show column.parts = front ++ part :: back from parts]
      simp
    exact ⟨part, among, contains⟩
  · intro denotes
    match outcome : column.eval int with
    | none => exact absurd outcome formed.settled
    | some true => rfl
    | some false =>
        obtain ⟨plain, excludes⟩ := (field_false column.spec).mp outcome
        obtain ⟨part, among, contains⟩ := denotes.resolve_left plain
        exact absurd contains (excludes part among).2

theorem Documented.formed_of_mem (documented : Documented int expr)
    (listed : column ∈ columns expr date) :
    Formed int column.spec := by
  rw [columns, ← List.map_uncurry_zip_eq_zipWith] at listed
  obtain ⟨⟨spec, value, lo⟩, among, rfl⟩ := List.mem_map.mp listed
  exact documented.formed spec (List.of_mem_zip among).1

theorem Documented.denotes (documented : Documented int expr) (date : DateTime) :
    matchesAt int expr date = true ↔ ∀ column ∈ columns expr date, column.Denotes int := by
  have settled : evaluate int expr date ≠ none := by
    rw [evaluate_columns documented.five]
    apply shortCircuit_settled
    intro _ listed
    obtain ⟨column, among, rfl⟩ := List.mem_map.mp listed
    exact (documented.formed_of_mem among).settled
  have whole : matchesAt int expr date = true ↔ evaluate int expr date = some true := by
    rw [matchesAt]
    match evaluate int expr date, settled with
    | some true, _ | some false, _ => simp
  rw [whole, evaluate_columns documented.five, conjunction, shortCircuit_neutral,
    List.forall_mem_map]
  exact forall₂_congr fun column among => (documented.formed_of_mem among).eval

/-- The evaluation agrees with the documentation on the documented schedules, and on any other
exactly where no field that excludes a value stands behind fields that each admit one. -/
theorem agrees_iff (int : Text → Option Int) (expr : Text) :
    Agrees int expr ↔ Documented int expr ∨ ¬ Sifts int expr := by
  constructor
  · intro agrees
    by_contra neither
    obtain ⟨undocumented, sifts⟩ := not_or.mp neither
    obtain ⟨date, valid, suppressed⟩ := sifts_iff.mp (not_not.mp sifts)
    rw [agrees.undocumented undocumented date valid] at suppressed
    cases suppressed
  · intro either
    refine ⟨fun documented date _ => documented.denotes date, fun undocumented date valid => ?_⟩
    by_contra suppressed
    refine either.resolve_left undocumented (sifts_iff.mpr ⟨date, valid, ?_⟩)
    simpa using suppressed

example : weekday ⟨2024, 2, 29, 12, 0, 0⟩ = 3 := by decide

private def leapDay : DateTime := ⟨2024, 2, 29, 12, 0, 0⟩

/-- A step of zero, and an hour that is no number behind a minute that excludes the time. -/
theorem malformed_suppressed :
    ¬ Agrees Text.parseInt "*/0 * * * *" ∧ ¬ Agrees Text.parseInt "5 noon * * *" := by
  have valid : Valid leapDay :=
    ⟨by decide, by decide, by decide, by decide, by decide, by decide⟩
  have step : "*/0".toList ∈ Text.words (Text.strip "*/0 * * * *") := by decide +kernel
  have hour : "noon".toList ∈ Text.words (Text.strip "5 noon * * *") := by decide +kernel
  refine ⟨fun agrees => ?_, fun agrees => ?_⟩
  · have undocumented : ¬ Documented Text.parseInt "*/0 * * * *" := fun documented =>
      absurd (documented.formed _ step) (by decide +kernel)
    exact absurd (agrees.undocumented undocumented leapDay valid) (by decide +kernel)
  · have undocumented : ¬ Documented Text.parseInt "5 noon * * *" := fun documented =>
      absurd (documented.formed _ hour) (by decide +kernel)
    exact absurd (agrees.undocumented undocumented leapDay valid) (by decide +kernel)

end PyBulletin.Forward.Cron
