import Mathlib.Algebra.GroupWithZero.Nat
import Mathlib.Algebra.Ring.Int.Defs
import Mathlib.Data.List.Infix
import Mathlib.Data.List.TakeDrop

set_option autoImplicit false

namespace PyBulletin.Foundation

abbrev Bytes := List UInt8

/-- Python's `str` as its sequence of code points.  A `Char` is none of the surrogates, which
a `str` may hold alone. -/
abbrev Text := List Char

/-- The items of a list are tried, and not all values of their type. -/
instance (priority := high) decidableForallMem {α : Type} {p : α → Prop} [DecidablePred p]
    (items : List α) : Decidable (∀ x ∈ items, p x) := List.decidableBAll p items

namespace Text

instance : Coe String Text := ⟨String.toList⟩

/-- Membership in a list of texts rests on this one fact, wherever it is asked for. -/
instance lawfulBEq : LawfulBEq Text := inferInstance

/-- `str.upper` where no letter is outside ASCII, as in the lines of a session.  The web takes
letters of all scripts and has a parameter for its `str.upper`. -/
def upper (text : Text) : Text := text.map Char.toUpper

/-- The characters `str.strip` removes. -/
def isSpace (c : Char) : Bool :=
  let n := c.toNat
  (9 ≤ n ∧ n ≤ 13) ∨ (28 ≤ n ∧ n ≤ 32) ∨ n = 0x85 ∨ n = 0xA0 ∨ n = 0x1680 ∨
    (0x2000 ≤ n ∧ n ≤ 0x200A) ∨ n = 0x2028 ∨ n = 0x2029 ∨ n = 0x202F ∨ n = 0x205F ∨ n = 0x3000

def strip (text : Text) : Text :=
  ((text.dropWhile isSpace).reverse.dropWhile isSpace).reverse

def digitValue (c : Char) : Option Nat :=
  if '0' ≤ c ∧ c ≤ '9' then some (c.toNat - '0'.toNat) else none

/-- The longest decimal string `int` converts. -/
def maxIntDigits : Nat := 4300

/-- `int(text)` on ASCII text: outer blanks, a sign, then digits with single
underscores between them.  `none` is the `ValueError`. -/
def parseInt (text : Text) : Option Int :=
  let (negative, body) := match strip text with
    | '-' :: body => (true, body)
    | '+' :: body => (false, body)
    | body => (false, body)
  let groups := body.splitOn '_'
  if groups.any List.isEmpty then none
  else
    match groups.flatten.mapM digitValue with
    | none => none
    | some digits =>
        if maxIntDigits < digits.length then none
        else
          let value : Nat := digits.foldl (fun value digit => value * 10 + digit) 0
          some (if negative then -(value : Int) else (value : Int))

/-- `text.rsplit(sep, 1)` where `sep` occurs: the parts around its last occurrence. -/
def splitLast (sep : Char) (text : Text) : Text × Text :=
  let (tail, front) := text.reverse.span (· ≠ sep)
  (front.tail.reverse, tail.reverse)

/-- `text.split(None, 1)`: the first word, and what follows the blanks behind it. -/
def splitWord (text : Text) : Option (Text × Option Text) :=
  match text.dropWhile isSpace with
  | [] => none
  | word =>
      match (word.dropWhile (¬ isSpace ·)).dropWhile isSpace with
      | [] => some (word.takeWhile (¬ isSpace ·), none)
      | rest => some (word.takeWhile (¬ isSpace ·), some rest)

/-- `text.split(None, n)`: the last part keeps the blanks inside it. -/
def splitMax : Nat → Text → List Text
  | 0, text =>
      match text.dropWhile isSpace with
      | [] => []
      | rest => [rest]
  | n + 1, text =>
      match splitWord text with
      | none => []
      | some (word, none) => [word]
      | some (word, some rest) => word :: splitMax n rest

/-- `text.split()` -/
def words (text : Text) : List Text := (text.splitOnP isSpace).filter (· ≠ [])

/-- `text.rstrip("\r\n")` -/
def stripLineEnd (text : Text) : Text :=
  (text.reverse.dropWhile fun c => c = '\r' ∨ c = '\n').reverse

/-- `text.isdigit()` on ASCII text. -/
def isDigits (text : Text) : Bool := text ≠ [] ∧ text.all Char.isDigit

theorem toUpper_of_not_lower {c : Char} (other : ¬ ('a'.val ≤ c.val ∧ c.val ≤ 'z'.val)) :
    c.toUpper = c :=
  dif_neg other

theorem toNat_toUpper {c : Char} (lower : 'a'.val ≤ c.val ∧ c.val ≤ 'z'.val) :
    65 ≤ c.toUpper.toNat ∧ c.toUpper.toNat ≤ 90 := by
  have value : c.toUpper.val = c.val + ('A'.val - 'a'.val) := by
    have shifted : c.toUpper = _ := dif_pos lower
    rw [shifted]
  have first : 97 ≤ c.toNat := lower.1
  have last : c.toNat ≤ 122 := lower.2
  have shift : ('A'.val - 'a'.val).toNat = 2 ^ 32 - 32 := rfl
  have sum := congrArg UInt32.toNat value
  rw [UInt32.toNat_add, shift] at sum
  simp only [Char.toNat] at first last sum ⊢
  omega

theorem toUpper_toUpper (c : Char) : c.toUpper.toUpper = c.toUpper := by
  by_cases lower : 'a'.val ≤ c.val ∧ c.val ≤ 'z'.val
  · have letter := toNat_toUpper lower
    apply toUpper_of_not_lower
    intro again
    have first : 97 ≤ c.toUpper.toNat := again.1
    omega
  · rw [toUpper_of_not_lower lower, toUpper_of_not_lower lower]

theorem upper_upper (text : Text) : upper (upper text) = upper text := by
  rw [upper, upper, List.map_map]
  exact List.map_congr_left fun c _ => toUpper_toUpper c

/-- Dropping from the end stops at the last character that stays. -/
theorem dropEnd_front (p : Char → Bool) (front : Text) {last : Char} (stays : p last = false)
    (back : Text) :
    ∃ others, ((front ++ last :: back).reverse.dropWhile p).reverse = front ++ last :: others := by
  rw [List.reverse_append, List.reverse_cons, List.append_assoc, List.dropWhile_append]
  split
  · exact ⟨[], by simp [stays]⟩
  · exact ⟨(back.reverse.dropWhile p).reverse, by simp⟩

theorem strip_front {first last : Char} (begins : isSpace first = false)
    (stays : isSpace last = false) (back : Text) :
    ∃ others, strip (first :: last :: back) = first :: last :: others := by
  rw [strip, List.dropWhile_cons_of_neg (by simp [begins])]
  exact dropEnd_front isSpace [first] stays back

theorem stripLineEnd_front (first : Char) {last : Char} (stays : last ≠ '\r' ∧ last ≠ '\n')
    (back : Text) : ∃ others, stripLineEnd (first :: last :: back) = first :: last :: others :=
  dropEnd_front _ [first] (by simpa using stays) back

/-- Stripping takes characters from the end only. -/
theorem stripLineEnd_shorter (text : Text) : stripLineEnd text <+: text := by
  have behind : (text.reverse.dropWhile fun c => c = '\r' ∨ c = '\n') <:+ text.reverse :=
    List.dropWhile_suffix _
  simpa only [stripLineEnd, List.reverse_reverse] using List.reverse_prefix.mpr behind

theorem words_append (front : Text) {blank : Char} (space : isSpace blank) (back : Text) :
    words (front ++ blank :: back) = words front ++ words back := by
  rw [words, List.splitOnP_append_cons _ _ space, List.filter_append]
  rfl

/-- A text with no blank in it. -/
def OneWord (text : Text) : Prop := text ≠ [] ∧ text.all fun c => !isSpace c

instance (text : Text) : Decidable (OneWord text) := inferInstanceAs (Decidable (_ ∧ _))

theorem oneWord_iff {text : Text} : OneWord text ↔ text ≠ [] ∧ ∀ c ∈ text, isSpace c = false := by
  simp [OneWord]

theorem words_word {word : Text} (single : OneWord word) : words word = [word] := by
  rw [words, List.splitOnP_eq_singleton (oneWord_iff.mp single).2]
  simp [single.1]

theorem intercalate_length (sep : Text) (lines : List Text) :
    (lines.map List.length).sum ≤ (sep.intercalate lines).length := by
  induction lines with
  | nil => simp
  | cons line lines ih =>
      cases lines with
      | nil => simp
      | cons next lines =>
          rw [List.intercalate_cons_cons, List.map_cons, List.sum_cons, List.length_append,
            List.length_append]
          omega

theorem intercalate_front (sep line : Text) (lines : List Text) :
    line <+: sep.intercalate (line :: lines) := by
  cases lines with
  | nil => simp
  | cons next lines =>
      rw [List.intercalate_cons_cons, List.append_assoc]
      exact List.prefix_append _ _

/-- A character in front of the letters is in upper case already. -/
theorem mem_upper {c : Char} (low : c.toNat < 65) {text : Text} : c ∈ upper text ↔ c ∈ text := by
  constructor
  · intro listed
    obtain ⟨d, among, same⟩ := List.mem_map.mp listed
    by_cases lower : 'a'.val ≤ d.val ∧ d.val ≤ 'z'.val
    · have letter := (toNat_toUpper lower).1
      rw [same] at letter
      omega
    · rw [toUpper_of_not_lower lower] at same
      exact same ▸ among
  · intro listed
    refine List.mem_map.mpr ⟨c, listed, toUpper_of_not_lower fun lower => ?_⟩
    have first : 97 ≤ c.toNat := lower.1
    omega

theorem isSpace_toUpper (c : Char) : isSpace c.toUpper = isSpace c := by
  by_cases lower : 'a'.val ≤ c.val ∧ c.val ≤ 'z'.val
  · have letter := toNat_toUpper lower
    have first : 97 ≤ c.toNat := lower.1
    have last : c.toNat ≤ 122 := lower.2
    rw [isSpace, isSpace]
    simp only [decide_eq_decide]
    omega
  · rw [toUpper_of_not_lower lower]

theorem splitLast_append {sep : Char} {front back : Text} (plain : sep ∉ back) :
    splitLast sep (front ++ sep :: back) = (front, back) := by
  have whole : (front ++ sep :: back).reverse = back.reverse ++ sep :: front.reverse := by simp
  have all : ∀ c ∈ back.reverse, decide (c ≠ sep) = true := by
    intro c listed
    simpa using fun same : c = sep => plain (same ▸ List.mem_reverse.mp listed)
  rw [splitLast, whole, List.span_eq_takeWhile_dropWhile, List.takeWhile_append_of_pos all,
    List.dropWhile_append_of_pos all]
  simp

theorem words_blank {blank : Char} (space : isSpace blank) (text : Text) :
    words (blank :: text) = words text := by
  simpa [words] using words_append [] space text

theorem words_blanks {blanks : Text} (space : ∀ c ∈ blanks, isSpace c) (text : Text) :
    words (text ++ blanks) = words text := by
  induction blanks generalizing text with
  | nil => rw [List.append_nil]
  | cons blank blanks ih =>
      have rest := ih (fun c listed => space c (List.mem_cons_of_mem _ listed)) []
      rw [words_append _ (space blank List.mem_cons_self), ← List.nil_append blanks, rest]
      simp [words]

theorem words_dropWhile (text : Text) : words (text.dropWhile isSpace) = words text := by
  induction text with
  | nil => rfl
  | cons c text ih =>
      rw [List.dropWhile_cons]
      split
      · rename_i space
        rw [ih, words_blank space]
      · rfl

theorem words_strip (text : Text) : words (strip text) = words text := by
  rw [strip]
  generalize fronted : text.dropWhile isSpace = front
  have parts : (front.reverse.dropWhile isSpace).reverse ++
      (front.reverse.takeWhile isSpace).reverse = front := by
    rw [← List.reverse_append, List.takeWhile_append_dropWhile, List.reverse_reverse]
  have blanks : ∀ c ∈ (front.reverse.takeWhile isSpace).reverse, isSpace c := by
    intro c listed
    exact List.all_eq_true.mp List.all_takeWhile c (List.mem_reverse.mp listed)
  rw [← words_blanks blanks, parts, ← fronted, words_dropWhile]

theorem splitOnP_map (f : Char → Char) (p : Char → Bool) (same : ∀ c, p (f c) = p c)
    (text : Text) :
    (text.map f).splitOnP p = (text.splitOnP p).map (List.map f) := by
  induction text with
  | nil => simp [List.splitOnP_nil]
  | cons c text ih =>
      rw [List.map_cons, List.splitOnP_cons_eq_if_modifyHead, List.splitOnP_cons_eq_if_modifyHead,
        same, ih]
      split
      · rfl
      · cases text.splitOnP p <;> rfl

theorem words_upper (text : Text) : words (upper text) = (words text).map upper := by
  rw [words, words, upper, splitOnP_map _ _ isSpace_toUpper, List.filter_map]
  congr 1
  apply List.filter_congr
  intro word _
  simp

theorem OneWord.upper {text : Text} (single : OneWord text) : OneWord (upper text) := by
  refine oneWord_iff.mpr ⟨by simpa [Text.upper] using single.1, fun c listed => ?_⟩
  obtain ⟨d, among, rfl⟩ := List.mem_map.mp listed
  rw [isSpace_toUpper]
  exact (oneWord_iff.mp single).2 d among

/-- A text between two visible characters is not stripped. -/
theorem strip_blanks {first last : Char} (begins : isSpace first = false)
    (ends : isSpace last = false) (middle : Text) {blanks : Text}
    (space : ∀ c ∈ blanks, isSpace c) :
    strip (first :: middle ++ [last] ++ blanks) = first :: middle ++ [last] := by
  have whole : (first :: middle ++ [last] ++ blanks).reverse =
      blanks.reverse ++ last :: (first :: middle).reverse := by simp
  rw [strip, List.cons_append, List.cons_append, List.dropWhile_cons_of_neg (by simp [begins]),
    ← List.cons_append, ← List.cons_append, whole,
    List.dropWhile_append_of_pos fun c listed => space c (List.mem_reverse.mp listed),
    List.dropWhile_cons_of_neg (by simp [ends])]
  simp

end Text

end PyBulletin.Foundation
