import Mathlib.Data.List.DropRight
import PyBulletin.Foundation.Text

set_option autoImplicit false

namespace PyBulletin.Foundation.Text

/-- The characters at which `str.splitlines` ends a line. -/
def isLineBreak (c : Char) : Bool :=
  let n := c.toNat
  (10 ≤ n ∧ n ≤ 13) ∨ (28 ≤ n ∧ n ≤ 30) ∨ n = 0x85 ∨ n = 0x2028 ∨ n = 0x2029

/-- A character in front of the first of some lines. -/
def extend (c : Char) : List Text → List Text
  | [] => [[c]]
  | line :: lines => (c :: line) :: lines

/-- `text.splitlines()` -/
def splitLines : Text → List Text
  | [] => []
  | '\r' :: '\n' :: text => [] :: splitLines text
  | c :: text => if isLineBreak c then [] :: splitLines text else extend c (splitLines text)

/-- `text.lower()` on ASCII text. -/
def lower (text : Text) : Text := text.map Char.toLower

/-- The parts of `text.partition(sep)` in front of `sep` and behind it. -/
def partition (sep : Char) (text : Text) : Text × Text :=
  (text.takeWhile (· ≠ sep), (text.dropWhile (· ≠ sep)).tail)

/-- `text[:n]` -/
def slice (n : Int) (text : Text) : Text :=
  if n < 0 then text.take (text.length - n.natAbs) else text.take n.natAbs

/-- `text.replace("\r\n", "\n")` -/
def unixEnds : Text → Text
  | [] => []
  | '\r' :: '\n' :: text => '\n' :: unixEnds text
  | c :: text => c :: unixEnds text

def isPrintable (c : Char) : Bool := 32 ≤ c.toNat ∧ c.toNat ≤ 126

/-- Lines of characters with `p`, each but the last ended by a line feed or by a carriage
return and a line feed. -/
def linesOf (p : Char → Bool) : Text → Bool
  | [] => true
  | '\r' :: '\n' :: text => linesOf p text
  | c :: text => (c = '\n' ∨ p c) ∧ linesOf p text

variable {c : Char} {line front text : Text}

theorem isSpace_of_isLineBreak (breaks : isLineBreak c) : isSpace c := by
  simp only [isLineBreak, isSpace, Bool.decide_or, decide_eq_true_eq, Bool.or_eq_true,
    Bool.decide_and, Bool.and_eq_true] at breaks ⊢
  omega

theorem not_isLineBreak_of_isPrintable (visible : isPrintable c) : isLineBreak c = false := by
  simp only [isPrintable, isLineBreak, Bool.decide_and, Bool.and_eq_true, decide_eq_true_eq] at *
  simp only [decide_eq_false_iff_not]
  omega

theorem extend_append (c : Char) {lines : List Text} (some_ : lines ≠ []) (more : List Text) :
    extend c (lines ++ more) = extend c lines ++ more := by
  cases lines with
  | nil => exact absurd rfl some_
  | cons line lines => rfl

theorem splitLines_ne_nil (some_ : text ≠ []) : splitLines text ≠ [] := by
  fun_cases splitLines text with
  | case1 => exact absurd rfl some_
  | case2 text => simp
  | case3 c text _ breaks => simp
  | case4 c text _ plain => cases splitLines text <;> simp [extend]

theorem splitLines_break (breaks : isLineBreak c) (single : c = '\r' → text.head? ≠ some '\n') :
    splitLines (c :: text) = [] :: splitLines text := by
  rw [splitLines, if_pos breaks]
  rintro rest rfl rfl
  exact single rfl rfl

theorem splitLines_plain (plain : isLineBreak c = false) (text : Text) :
    splitLines (c :: text) = extend c (splitLines text) := by
  rw [splitLines, if_neg (by simp [plain])]
  rintro rest rfl
  exact absurd plain (by decide)

/-- A carriage return and a line feed end a line whatever is in front of them. -/
theorem splitLines_crlf (front text : Text) :
    splitLines (front ++ '\r' :: '\n' :: text) = splitLines (front ++ ['\r', '\n']) ++ splitLines text := by
  fun_induction splitLines front with
  | case1 => simp [splitLines]
  | case2 front ih =>
      simp only [List.cons_append, splitLines]
      rw [ih]
  | case3 c front other breaks ih =>
      have single : ∀ back : Text, c = '\r' → (front ++ '\r' :: back).head? ≠ some '\n' := by
        rintro back rfl
        cases front with
        | nil => simp
        | cons d front =>
            simp only [List.cons_append, List.head?_cons, ne_eq, Option.some.injEq]
            rintro rfl
            exact other front rfl rfl
      rw [List.cons_append, splitLines_break breaks (single _), ih, List.cons_append,
        splitLines_break breaks (single _)]
      rfl
  | case4 c front other plain ih =>
      have plain : isLineBreak c = false := by simpa using plain
      rw [List.cons_append, splitLines_plain plain, ih, List.cons_append, splitLines_plain plain,
        extend_append c (splitLines_ne_nil (by simp))]

/-- What has no line break in it is in front of the first line. -/
theorem splitLines_front (plain : ∀ c ∈ front, isLineBreak c = false) (text : Text) :
    splitLines (front ++ text) = front.foldr extend (splitLines text) := by
  induction front with
  | nil => rfl
  | cons c front ih =>
      rw [List.cons_append, splitLines_plain (plain c List.mem_cons_self),
        ih fun c listed => plain c (List.mem_cons_of_mem _ listed)]
      rfl

theorem foldr_extend (front line : Text) (lines : List Text) :
    front.foldr extend (line :: lines) = (front ++ line) :: lines := by
  induction front with
  | nil => rfl
  | cons c front ih => rw [List.foldr_cons, ih]; rfl

theorem splitLines_line (plain : ∀ c ∈ line, isLineBreak c = false) (text : Text) :
    splitLines (line ++ '\r' :: '\n' :: text) = line :: splitLines text := by
  rw [splitLines_front plain, splitLines, foldr_extend, List.append_nil]

theorem splitLines_last (plain : ∀ c ∈ line, isLineBreak c = false) (some_ : line ≠ []) :
    splitLines line = [line] := by
  induction line with
  | nil => exact absurd rfl some_
  | cons c line ih =>
      rw [splitLines_plain (plain c List.mem_cons_self)]
      cases line with
      | nil => rfl
      | cons d line =>
          rw [ih (fun c listed => plain c (List.mem_cons_of_mem _ listed)) (by simp)]
          rfl

/-- A line feed behind the last line adds no line. -/
theorem splitLines_ended {last : Char} (plain : isLineBreak last = false) (front : Text) :
    splitLines (front ++ [last] ++ ['\r', '\n']) = splitLines (front ++ [last]) := by
  have ended : splitLines ([last] ++ ['\r', '\n']) = splitLines [last] := by
    rw [List.singleton_append, splitLines_plain plain, splitLines_plain plain]
    rfl
  fun_induction splitLines front with
  | case1 => exact ended
  | case2 front ih =>
      simp only [List.cons_append, splitLines]
      rw [ih]
  | case3 c front other breaks ih =>
      have single : ∀ back : Text, c = '\r' → (front ++ last :: back).head? ≠ some '\n' := by
        rintro back rfl
        cases front with
        | nil =>
            simp only [List.nil_append, List.head?_cons, ne_eq, Option.some.injEq]
            rintro rfl
            exact absurd plain (by decide)
        | cons d front =>
            simp only [List.cons_append, List.head?_cons, ne_eq, Option.some.injEq]
            rintro rfl
            exact other front rfl rfl
      have first : front ++ [last] ++ ['\r', '\n'] = front ++ last :: ['\r', '\n'] := by simp
      rw [List.cons_append, List.cons_append, splitLines_break breaks (first ▸ single _), ih,
        splitLines_break breaks (single [])]
  | case4 c front other inside ih =>
      have inside : isLineBreak c = false := by simpa using inside
      rw [List.cons_append, List.cons_append, splitLines_plain inside, ih, splitLines_plain inside]

theorem intercalate_extend (sep : Text) (c : Char) {lines : List Text} (some_ : lines ≠ []) :
    sep.intercalate (extend c lines) = c :: sep.intercalate lines := by
  cases lines with
  | nil => exact absurd rfl some_
  | cons line lines => cases lines <;> simp [extend]

theorem intercalate_blank (sep : Text) {lines : List Text} (some_ : lines ≠ []) :
    sep.intercalate ([] :: lines) = sep ++ sep.intercalate lines := by
  cases lines with
  | nil => exact absurd rfl some_
  | cons line lines => simp

theorem linesOf_cons {p : Char → Bool} (single : c = '\r' → text.head? ≠ some '\n') :
    linesOf p (c :: text) ↔ (c = '\n' ∨ p c) ∧ linesOf p text := by
  rw [linesOf]
  · simp
  · rintro rest rfl rfl
    exact single rfl rfl

theorem linesOf_mem {p : Char → Bool} (lined : linesOf p text) (listed : c ∈ text) :
    c = '\r' ∨ c = '\n' ∨ p c := by
  fun_induction linesOf p text with
  | case1 => cases listed
  | case2 text ih =>
      rcases List.mem_cons.mp listed with same | listed
      · exact .inl same
      · rcases List.mem_cons.mp listed with same | listed
        · exact .inr (.inl same)
        · exact ih lined listed
  | case3 d text other ih =>
      simp only [Bool.decide_and, Bool.and_eq_true, decide_eq_true_eq] at lined
      rcases List.mem_cons.mp listed with rfl | listed
      · exact .inr lined.1
      · exact ih lined.2 listed

theorem linesOf_mono {p q : Char → Bool} (weaker : ∀ c, p c → q c) (lined : linesOf p text) :
    linesOf q text := by
  fun_induction linesOf p text with
  | case1 => rfl
  | case2 text ih => exact ih lined
  | case3 c text other ih =>
      simp only [Bool.decide_and, Bool.and_eq_true, decide_eq_true_eq] at lined
      rw [linesOf]
      · simp only [Bool.decide_and, Bool.and_eq_true, decide_eq_true_eq]
        exact ⟨lined.1.imp_right (weaker c), ih lined.2⟩
      · exact other

theorem unixEnds_concat {last : Char} (other : last ≠ '\n') (front : Text) :
    unixEnds (front ++ [last]) = unixEnds front ++ [last] := by
  fun_induction unixEnds front with
  | case1 =>
      rw [List.nil_append, unixEnds]
      · rfl
      · rintro rest - same
        cases same
  | case2 front ih =>
      rw [List.cons_append, List.cons_append, unixEnds, ih]
      rfl
  | case3 c front single ih =>
      rw [List.cons_append, unixEnds, ih]
      · rfl
      · rintro rest rfl same
        cases front with
        | nil => exact other (List.cons.inj same).1
        | cons d front =>
            rw [List.cons_append, List.cons.injEq] at same
            exact single front rfl (same.1 ▸ rfl)

theorem unixEnds_first {first : Char} (other : first ≠ '\r') (text : Text) :
    unixEnds (first :: text) = first :: unixEnds text := by
  rw [unixEnds]
  rintro rest rfl
  exact absurd rfl other

theorem unixEnds_length (text : Text) : (unixEnds text).length ≤ text.length := by
  fun_induction unixEnds text with
  | case1 => exact Nat.le_refl 0
  | case2 text ih =>
      simp only [List.length_cons]
      omega
  | case3 c text other ih =>
      simp only [List.length_cons]
      omega

/-- The lines of a text joined by line feeds. -/
theorem join_splitLines (lined : linesOf (fun c => !isLineBreak c) text) :
    (['\n'] : Text).intercalate (splitLines (text ++ ['\r', '\n'])) = unixEnds text := by
  fun_induction linesOf (fun c => !isLineBreak c) text with
  | case1 => rfl
  | case2 text ih =>
      rw [List.cons_append, List.cons_append, splitLines, unixEnds,
        intercalate_blank _ (splitLines_ne_nil (by simp)), ih lined]
      rfl
  | case3 c text other ih =>
      simp only [Bool.decide_and, Bool.and_eq_true, decide_eq_true_eq] at lined
      obtain ⟨kind, lined⟩ := lined
      have more : splitLines (text ++ ['\r', '\n']) ≠ [] := splitLines_ne_nil (by simp)
      rw [List.cons_append, unixEnds]
      · rcases kind with rfl | plain
        · rw [splitLines_break (by decide) (by simp), intercalate_blank _ more, ih lined]
          rfl
        · rw [splitLines_plain (by simpa using plain), intercalate_extend _ _ more, ih lined]
      · exact other

/-- The characters of some lines, and one more for the end of each. -/
def lineSize (lines : List Text) : Nat := (lines.map fun line => line.length + 1).sum

@[simp] theorem lineSize_nil : lineSize [] = 0 := rfl

@[simp] theorem lineSize_cons (line : Text) (lines : List Text) :
    lineSize (line :: lines) = line.length + 1 + lineSize lines := rfl

theorem lineSize_extend (c : Char) (lines : List Text) :
    lineSize (extend c lines) ≤ lineSize lines + 1 + if lines = [] then 1 else 0 := by
  cases lines <;> simp [extend]
  omega

theorem lineSize_suffix {lines more : List Text} (suffix : lines <:+ more) :
    lineSize lines ≤ lineSize more := by
  obtain ⟨front, rfl⟩ := suffix
  simp [lineSize]

theorem lineSize_splitLines (text : Text) : lineSize (splitLines text) ≤ text.length + 1 := by
  fun_induction splitLines text with
  | case1 => simp
  | case2 text ih =>
      simp only [lineSize_cons, List.length_nil, List.length_cons]
      omega
  | case3 c text _ breaks ih =>
      simp only [lineSize_cons, List.length_nil, List.length_cons]
      omega
  | case4 c text _ plain ih =>
      have more := lineSize_extend c (splitLines text)
      rw [List.length_cons]
      split at more
      · rename_i none_
        rw [none_] at more ⊢
        rw [lineSize_nil] at more
        omega
      · omega

theorem intercalate_lineSize (c : Char) (lines : List Text) :
    (([c] : Text).intercalate lines).length ≤ lineSize lines - 1 := by
  induction lines with
  | nil => simp
  | cons line lines ih =>
      cases lines with
      | nil => simp
      | cons next lines =>
          rw [List.intercalate_cons_cons, List.length_append, List.length_append,
            List.length_singleton, lineSize_cons]
          rw [lineSize_cons] at ih ⊢
          omega

theorem mem_intercalate {sep : Text} {lines : List Text} (listed : c ∈ sep.intercalate lines) :
    c ∈ sep ∨ ∃ line ∈ lines, c ∈ line := by
  induction lines with
  | nil => simp at listed
  | cons line lines ih =>
      cases lines with
      | nil => exact .inr ⟨line, List.mem_cons_self, by simpa using listed⟩
      | cons next lines =>
          rw [List.intercalate_cons_cons, List.mem_append, List.mem_append] at listed
          rcases listed with (here | between) | later
          · exact .inr ⟨line, List.mem_cons_self, here⟩
          · exact .inl between
          · refine (ih later).imp_right ?_
            rintro ⟨other, among, inside⟩
            exact ⟨other, List.mem_cons_of_mem _ among, inside⟩

theorem mem_splitLines {line : Text} (listed : line ∈ splitLines text) (among : c ∈ line) :
    c ∈ text := by
  fun_induction splitLines text generalizing line with
  | case1 => cases listed
  | case2 text ih =>
      rcases List.mem_cons.mp listed with rfl | later
      · cases among
      · exact List.mem_cons_of_mem _ (List.mem_cons_of_mem _ (ih later among))
  | case3 d text _ breaks ih =>
      rcases List.mem_cons.mp listed with rfl | later
      · cases among
      · exact List.mem_cons_of_mem _ (ih later among)
  | case4 d text _ plain ih =>
      cases shape : splitLines text with
      | nil =>
          rw [shape, extend, List.mem_singleton] at listed
          rw [listed, List.mem_singleton] at among
          exact among ▸ List.mem_cons_self
      | cons first lines =>
          rw [shape, extend] at listed
          rw [shape] at ih
          rcases List.mem_cons.mp listed with rfl | later
          · rcases List.mem_cons.mp among with rfl | inside
            · exact List.mem_cons_self
            · exact List.mem_cons_of_mem _ (ih List.mem_cons_self inside)
          · exact List.mem_cons_of_mem _ (ih (List.mem_cons_of_mem _ later) among)

section Strip

variable {first last : Char} {back : Text}

theorem rdropWhile_keep {p : Char → Bool} (stays : p last = false) (front back : Text) :
    (front ++ last :: back).rdropWhile p = front ++ last :: back.rdropWhile p := by
  induction back using List.reverseRecOn with
  | nil => rw [List.rdropWhile_concat_neg _ _ _ (by simp [stays]), List.rdropWhile_nil]
  | append_singleton back c ih =>
      rw [← List.cons_append, ← List.append_assoc]
      by_cases dropped : p c
      · rw [List.rdropWhile_concat_pos _ _ _ dropped, List.rdropWhile_concat_pos _ _ _ dropped, ih]
      · rw [List.rdropWhile_concat_neg _ _ _ dropped, List.rdropWhile_concat_neg _ _ _ dropped]
        simp

theorem strip_visible (begins : isSpace first = false) (text : Text) :
    strip (first :: text) = (first :: text).rdropWhile isSpace := by
  rw [strip, List.dropWhile_cons_of_neg (by simp [begins])]
  rfl

theorem strip_first (begins : isSpace first = false) (text : Text) :
    strip (first :: text) = first :: text.rdropWhile isSpace :=
  (strip_visible begins text).trans (rdropWhile_keep begins [] text)

theorem strip_cons (space : isSpace c) (text : Text) : strip (c :: text) = strip text := by
  rw [strip, List.dropWhile_cons_of_pos space]
  rfl

theorem strip_concat (space : isSpace c) (text : Text) : strip (text ++ [c]) = strip text := by
  rw [strip, strip, List.dropWhile_append]
  split
  · rename_i blank
    simp only [List.isEmpty_iff] at blank
    simp [blank, space]
  · rw [List.reverse_append, List.reverse_singleton, List.singleton_append,
      List.dropWhile_cons_of_pos space]

theorem strip_rdropWhile (text : Text) : strip (text.rdropWhile isSpace) = strip text := by
  induction text using List.reverseRecOn with
  | nil => rfl
  | append_singleton text c ih =>
      by_cases space : isSpace c
      · rw [List.rdropWhile_concat_pos _ _ _ space, ih, strip_concat space]
      · rw [List.rdropWhile_concat_neg _ _ _ space]

theorem strip_oneWord (single : OneWord text) : strip text = text := by
  have plain := (oneWord_iff.mp single).2
  have front : text.dropWhile isSpace = text := by
    rw [List.dropWhile_eq_self_iff]
    intro some_
    simp [plain _ (List.getElem_mem some_)]
  have back : text.rdropWhile isSpace = text := by
    rw [List.rdropWhile_eq_self_iff]
    intro some_
    simp [plain _ (List.getLast_mem some_)]
  rw [strip, front]
  exact back

/-- A text is its own strip where neither end is blank. -/
theorem strip_eq_self_iff :
    strip text = text ↔ text.dropWhile isSpace = text ∧ text.rdropWhile isSpace = text := by
  have parts : strip text = (text.dropWhile isSpace).rdropWhile isSpace := rfl
  constructor
  · intro same
    have shorter := (List.rdropWhile_prefix isSpace (text.dropWhile isSpace)).length_le
    have behind := List.dropWhile_suffix (l := text) isSpace
    rw [← parts, same] at shorter
    have front := behind.eq_of_length (Nat.le_antisymm behind.length_le shorter)
    rw [parts, front] at same
    exact ⟨front, same⟩
  · rintro ⟨front, back⟩
    rw [parts, front, back]

theorem first_visible (stripped : strip (first :: text) = first :: text) :
    isSpace first = false := by
  have front := (strip_eq_self_iff.mp stripped).1
  by_contra space
  rw [List.dropWhile_cons_of_pos (by simpa using space)] at front
  have shorter := (List.dropWhile_suffix (l := text) isSpace).length_le
  rw [front, List.length_cons] at shorter
  omega

theorem last_visible (stripped : strip (text ++ [last]) = text ++ [last]) :
    isSpace last = false := by
  have back := (strip_eq_self_iff.mp stripped).2
  by_contra space
  rw [List.rdropWhile_concat_pos _ _ _ (by simpa using space)] at back
  have shorter := (List.rdropWhile_prefix isSpace text).length_le
  rw [back, List.length_append, List.length_singleton] at shorter
  omega

theorem splitWord_append {word : Text} (single : OneWord word) (visible : isSpace c = false)
    (text : Text) : splitWord (word ++ ' ' :: c :: text) = some (word, some (c :: text)) := by
  have plain : ∀ d ∈ word, (!isSpace d) = true := fun d listed => by
    simp [(oneWord_iff.mp single).2 d listed]
  have front : (word ++ ' ' :: c :: text).dropWhile isSpace = word ++ ' ' :: c :: text := by
    cases shape : word with
    | nil => exact absurd shape single.1
    | cons d word =>
        exact List.dropWhile_cons_of_neg (by simpa using plain d (shape ▸ List.mem_cons_self))
  have blank : isSpace ' ' = true := by decide
  have some_ : word ++ ' ' :: c :: text ≠ [] := by simp
  rw [splitWord, front]
  split
  · next none_ => exact absurd none_ some_
  · simp [List.takeWhile_append_of_pos plain, List.dropWhile_append_of_pos plain, blank, visible]

/-- The first word is split off where more follows behind one blank. -/
theorem splitMax_word {word : Text} (single : OneWord word) (visible : isSpace c = false)
    (n : Nat) (text : Text) :
    splitMax (n + 1) (word ++ ' ' :: c :: text) = word :: splitMax n (c :: text) := by
  rw [splitMax, splitWord_append single visible]

theorem splitMax_last (visible : isSpace c = false) (text : Text) :
    splitMax 0 (c :: text) = [c :: text] := by
  rw [splitMax, List.dropWhile_cons_of_neg (by simp [visible])]

end Strip

theorem toLower_of_not_upper {c : Char} (other : ¬ (c.val ≥ 'A'.val ∧ c.val ≤ 'Z'.val)) :
    c.toLower = c :=
  dif_neg other

theorem toLower_toLower (c : Char) : c.toLower.toLower = c.toLower := by
  by_cases capital : c.val ≥ 'A'.val ∧ c.val ≤ 'Z'.val
  · have value : c.toLower.val = c.val + ('a'.val - 'A'.val) := by
      have shifted : c.toLower = _ := dif_pos capital
      rw [shifted]
    have first : 65 ≤ c.toNat := capital.1
    have last : c.toNat ≤ 90 := capital.2
    have shift : ('a'.val - 'A'.val).toNat = 32 := rfl
    have sum := congrArg UInt32.toNat value
    rw [UInt32.toNat_add, shift] at sum
    apply toLower_of_not_upper
    intro again
    have bound : c.toLower.toNat ≤ 90 := again.2
    simp only [Char.toNat] at first last sum bound
    omega
  · rw [toLower_of_not_upper capital, toLower_of_not_upper capital]

theorem lower_lower (text : Text) : lower (lower text) = lower text := by
  rw [lower, lower, List.map_map]
  exact List.map_congr_left fun c _ => toLower_toLower c

theorem digit_bounds {c : Char} {n : Nat} (listed : c ∈ Nat.toDigits 10 n) :
    48 ≤ c.toNat ∧ c.toNat ≤ 57 := by
  have digit := Nat.isDigit_of_mem_toDigits (by decide) (by decide) listed
  simp only [Char.isDigit, Bool.and_eq_true, decide_eq_true_eq] at digit
  exact digit

theorem alphanum_bounds {c : Char} (letter : c.isAlphanum) :
    (65 ≤ c.toNat ∧ c.toNat ≤ 90) ∨ (97 ≤ c.toNat ∧ c.toNat ≤ 122) ∨
      (48 ≤ c.toNat ∧ c.toNat ≤ 57) := by
  have parts : c.isAlphanum = (decide (c.val ≥ 'A'.val ∧ c.val ≤ 'Z'.val) ||
      (decide (c.val ≥ 'a'.val) && decide (c.val ≤ 'z'.val)) ||
      (decide (c.val ≥ '0'.val) && decide (c.val ≤ '9'.val))) := rfl
  simp only [parts, Bool.or_eq_true, Bool.and_eq_true, decide_eq_true_eq,
    UInt32.le_iff_toNat_le] at letter
  rcases letter with (upper | lower) | digit
  · exact .inl upper
  · exact .inr (.inl lower)
  · exact .inr (.inr digit)

/-- A digit is no blank, and no sign or separator of a number. -/
theorem digit_plain {c : Char} (bounds : 48 ≤ c.toNat ∧ c.toNat ≤ 57) :
    isSpace c = false ∧ c ≠ '-' ∧ c ≠ '+' ∧ c ≠ '_' := by
  refine ⟨?_, ?_, ?_, ?_⟩
  · simp only [isSpace, decide_eq_false_iff_not]
    omega
  all_goals
    rintro rfl
    revert bounds
    decide

theorem oneWord_digits (n : Nat) : OneWord (Nat.toDigits 10 n) :=
  oneWord_iff.mpr ⟨Nat.toDigits_ne_nil, fun _ listed => (digit_plain (digit_bounds listed)).1⟩

theorem mapM_digitValue {digits : Text} (all : ∀ c ∈ digits, 48 ≤ c.toNat ∧ c.toNat ≤ 57) :
    digits.mapM digitValue = some (digits.map fun c => c.toNat - 48) := by
  induction digits with
  | nil => rfl
  | cons c digits ih =>
      have value : digitValue c = some (c.toNat - 48) := if_pos (all c List.mem_cons_self)
      rw [List.mapM_cons, value, ih fun c listed => all c (List.mem_cons_of_mem _ listed)]
      rfl

/-- A numeral is read as its value, unless it is too long to be read. -/
theorem parseInt_numeral {digits : Text} (some_ : digits ≠ [])
    (all : ∀ c ∈ digits, 48 ≤ c.toNat ∧ c.toNat ≤ 57) :
    parseInt digits =
      if maxIntDigits < digits.length then none
      else some (Nat.ofDigitChars 10 digits 0 : Int) := by
  have values := mapM_digitValue all
  have total : (digits.map fun c => c.toNat - 48).foldl
      (fun value digit => value * 10 + digit) 0 = Nat.ofDigitChars 10 digits 0 := by
    rw [List.foldl_map, Nat.ofDigitChars_eq_foldl]
    simp [Nat.mul_comm]
  have whole : digits.splitOn '_' = [digits] :=
    List.splitOn_eq_singleton fun listed => (digit_plain (all _ listed)).2.2.2 rfl
  have word : strip digits = digits :=
    strip_oneWord (oneWord_iff.mpr ⟨some_, fun c listed => (digit_plain (all c listed)).1⟩)
  cases shape : digits with
  | nil => exact absurd shape some_
  | cons first others =>
      have plain := digit_plain (all first (shape ▸ List.mem_cons_self))
      rw [shape] at values total whole word
      rw [parseInt, word]
      split
      next negative body unsigned =>
        split at unsigned
        · next same => exact absurd (List.cons.inj same).1 plain.2.1
        · next same => exact absurd (List.cons.inj same).1 plain.2.2.1
        · cases unsigned
          rw [List.map_cons, List.foldl_cons, Nat.zero_mul, Nat.zero_add] at total
          simp [whole, values, total]

/-- A number in decimal is read back, unless it is too long to be read. -/
theorem parseInt_digits (n : Nat) :
    parseInt (Nat.toDigits 10 n) =
      if maxIntDigits < (Nat.toDigits 10 n).length then none else some (n : Int) := by
  rw [parseInt_numeral Nat.toDigits_ne_nil fun c listed => digit_bounds listed,
    Nat.ofDigitChars_ten_toDigits]

end PyBulletin.Foundation.Text
