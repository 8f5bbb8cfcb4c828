import PyBulletin.Foundation.Toml

set_option autoImplicit false

namespace PyBulletin.Foundation.Toml

open Text

/-! # Texts that read back

How a value and a statement may be spelled so that the reader of documents finds them again. -/

section Spelling

variable {c : Char} {raw text rest : Text} {n : Int}

/-- `raw` between quotes is the string `text`. -/
def Spells (raw text : Text) : Prop :=
  ∀ rest, basicString .plain (raw ++ '"' :: rest) = some (text, rest)

theorem spells_nil : Spells [] [] := fun _ => rfl

theorem spells_char (inert : isControl c = false ∧ c ≠ '"' ∧ c ≠ '\\') (spelled : Spells raw text) :
    Spells (c :: raw) (c :: text) := by
  intro rest
  rw [List.cons_append, basicString, if_neg inert.2.1, if_neg inert.2.2, inert.1, spelled rest]
  rfl

theorem spells_quote (spelled : Spells raw text) : Spells ('\\' :: '"' :: raw) ('"' :: text) := by
  intro rest
  simp [basicString, unescape, spelled rest]

theorem spells_backslash (spelled : Spells raw text) :
    Spells ('\\' :: '\\' :: raw) ('\\' :: text) := by
  intro rest
  simp [basicString, unescape, spelled rest]

/-- A text with no control character. -/
def Lined (text : Text) : Prop := ∀ c ∈ text, isControl c = false

/-- A text that stands between quotes as it is. -/
def Inert (text : Text) : Prop := ∀ c ∈ text, isControl c = false ∧ c ≠ '"' ∧ c ≠ '\\'

instance (text : Text) : Decidable (Lined text) := inferInstanceAs (Decidable (∀ c ∈ text, _))

instance (text : Text) : Decidable (Inert text) := inferInstanceAs (Decidable (∀ c ∈ text, _))

theorem Inert.lined (inert : Inert text) : Lined text := fun c listed => (inert c listed).1

theorem Inert.spells (inert : Inert text) : Spells text text := by
  induction text with
  | nil => exact spells_nil
  | cons c text ih =>
      obtain ⟨first, others⟩ := List.forall_mem_cons.mp inert
      exact spells_char first (ih others)

variable {other : Text → Option (Value × Text)} {v : Value}

/-- What may follow a value: the end of the line, or the next item of an array. -/
def Closes (rest : Text) : Prop := ∃ c others, rest = c :: others ∧ c ∈ (['\n', ',', ']'] : Text)

/-- `raw` is a spelling of the value `v`. -/
structure Reads (other : Text → Option (Value × Text)) (raw : Text) (v : Value) : Prop where
  unix : '\r' ∉ raw
  begins : ∃ c others, raw = c :: others ∧ isBlank c = false ∧ c ∉ (['\n', '#', ']'] : Text)
  reads : ∀ fuel rest, raw.length < fuel → Closes rest →
    value other fuel (raw ++ rest) = some (v, rest)

theorem closes_head {rest : Text} (closed : Closes rest) : ¬ ['"'] <+: rest := by
  obtain ⟨c, others, rfl, listed⟩ := closed
  rintro ⟨more, same⟩
  rw [List.singleton_append, List.cons.injEq] at same
  rw [← same.1] at listed
  exact absurd listed (by decide)

theorem Spells.reads (spelled : Spells raw text) (unix : '\r' ∉ raw) :
    Reads other ('"' :: raw ++ ['"']) (.str text) where
  unix := by simpa using unix
  begins := ⟨'"', raw ++ ['"'], rfl, by decide, by decide⟩
  reads := by
    intro fuel rest enough closed
    obtain ⟨fuel, rfl⟩ : ∃ k, fuel = k + 1 := ⟨fuel - 1, by simp at enough; omega⟩
    have single : ¬ ['"', '"'] <+: raw ++ '"' :: rest := by
      rintro ⟨more, same⟩
      cases shape : raw with
      | nil =>
          rw [shape] at same
          apply closes_head closed
          exact ⟨more, by simpa using same⟩
      | cons c others =>
          -- a quote in front would end the string at once
          rw [shape] at same
          obtain ⟨rfl, -⟩ : '"' = c ∧ _ := by simpa using same
          have short := spelled []
          rw [shape, List.cons_append, basicString, if_pos rfl] at short
          simp at short
    have whole : '"' :: raw ++ ['"'] ++ rest = '"' :: (raw ++ '"' :: rest) := by simp
    rw [whole, value, if_neg single, spelled rest]
    rfl

theorem reads_true : Reads other ("true" : Text) (.bool true) where
  unix := by decide
  begins := ⟨'t', "rue".toList, rfl, by decide, by decide⟩
  reads := by
    intro fuel rest enough _
    obtain ⟨fuel, rfl⟩ : ∃ k, fuel = k + 1 := ⟨fuel - 1, by omega⟩
    rfl

theorem reads_false : Reads other ("false" : Text) (.bool false) where
  unix := by decide
  begins := ⟨'f', "alse".toList, rfl, by decide, by decide⟩
  reads := by
    intro fuel rest enough _
    obtain ⟨fuel, rfl⟩ : ∃ k, fuel = k + 1 := ⟨fuel - 1, by omega⟩
    rfl

theorem toDigits_head (n : Nat) (zero : (Nat.toDigits 10 n).head? = some '0') :
    Nat.toDigits 10 n = ['0'] := by
  induction n using Nat.strong_induction_on with
  | _ n ih =>
      by_cases small : n < 10
      · rw [Nat.toDigits_of_lt_base small] at zero ⊢
        exact congrArg (· :: []) (Option.some.inj zero)
      · -- the front digits of a longer number would be those of zero
        rw [Nat.toDigits_of_base_le (by decide) (by omega),
          List.head?_append_of_ne_nil _ Nat.toDigits_ne_nil] at zero
        have front := congrArg (Nat.ofDigitChars 10 · 0) (ih (n / 10) (by omega) zero)
        rw [Nat.ofDigitChars_ten_toDigits] at front
        have none_ : n / 10 = 0 := front
        omega

theorem decimal_toDigits {n : Nat} (short : (Nat.toDigits 10 n).length ≤ maxIntDigits) :
    decimal (Nat.toDigits 10 n) = some (n : Int) := by
  have digits : (Nat.toDigits 10 n).all Char.isDigit :=
    List.all_eq_true.mpr fun c listed =>
      Nat.isDigit_of_mem_toDigits (by decide) (by decide) listed
  rw [decimal, if_pos ⟨Nat.toDigits_ne_nil, digits, toDigits_head n⟩, parseInt_digits,
    if_neg (by omega)]

theorem closes_ends {rest : Text} (closed : Closes rest) :
    ∃ c others, rest = c :: others ∧ endsNumber c = true := by
  obtain ⟨c, others, rfl, listed⟩ := closed
  refine ⟨c, others, rfl, ?_⟩
  simp only [List.mem_cons, List.not_mem_nil, or_false] at listed
  rcases listed with rfl | rfl | rfl <;> rfl

/-- A number goes on to the next delimiter. -/
theorem span_number {token : Text} (plain : ∀ c ∈ token, endsNumber c = false) {rest : Text}
    (closed : Closes rest) : (token ++ rest).span (fun c => !endsNumber c) = (token, rest) := by
  obtain ⟨c, others, rfl, ends⟩ := closes_ends closed
  have all : ∀ c ∈ token, (!endsNumber c) = true := fun c listed => by rw [plain c listed]; rfl
  rw [List.span_eq_takeWhile_dropWhile, List.takeWhile_append_of_pos all,
    List.dropWhile_append_of_pos all, List.takeWhile_cons_of_neg (by simp [ends]),
    List.dropWhile_cons_of_neg (by simp [ends]), List.append_nil]

theorem digit_inside {c : Char} (bounds : 48 ≤ c.toNat ∧ c.toNat ≤ 57) : endsNumber c = false := by
  simp only [endsNumber, decide_eq_false_iff_not, List.mem_cons, List.not_mem_nil, or_false]
  rintro (rfl | rfl | rfl | rfl | rfl | rfl | rfl) <;> revert bounds <;> decide

theorem integer_numeral (short : (Nat.toDigits 10 n.natAbs).length ≤ maxIntDigits)
    (closed : Closes rest) : integer (numeral n ++ rest) = some (n, rest) := by
  have inside : ∀ c ∈ Nat.toDigits 10 n.natAbs, endsNumber c = false :=
    fun c listed => digit_inside (digit_bounds listed)
  rw [numeral]
  split
  next negative =>
    have signed : ∀ c ∈ '-' :: Nat.toDigits 10 n.natAbs, endsNumber c = false :=
      List.forall_mem_cons.mpr ⟨rfl, inside⟩
    rw [integer, span_number signed closed]
    simp only [decimal_toDigits short, Option.map_some]
    rw [show -((n.natAbs : Nat) : Int) = n by omega]
  next positive =>
    rw [integer, span_number inside closed]
    cases shape : Nat.toDigits 10 n.natAbs with
    | nil => exact absurd shape Nat.toDigits_ne_nil
    | cons first others =>
        have plain := digit_plain (digit_bounds (shape ▸ List.mem_cons_self))
        split
        · next same => exact absurd (List.cons.inj (Prod.mk.inj same).1).1 plain.2.1
        · next same => exact absurd (List.cons.inj (Prod.mk.inj same).1).1 plain.2.2.1
        · next same =>
            obtain ⟨rfl, rfl⟩ := Prod.mk.inj same
            rw [← shape, decimal_toDigits short, Option.map_some]
            rw [show ((n.natAbs : Nat) : Int) = n by omega]

/-- A character a number may begin with. -/
theorem numeral_head (n : Int) : ∃ c others, numeral n = c :: others ∧
    (c = '-' ∨ 48 ≤ c.toNat ∧ c.toNat ≤ 57) := by
  rw [numeral]
  split
  · exact ⟨'-', _, rfl, .inl rfl⟩
  · cases shape : Nat.toDigits 10 n.natAbs with
    | nil => exact absurd shape Nat.toDigits_ne_nil
    | cons first others =>
        exact ⟨first, others, rfl, .inr (digit_bounds (shape ▸ List.mem_cons_self))⟩

theorem numeral_unix (n : Int) : '\r' ∉ numeral n := by
  have digits : '\r' ∉ Nat.toDigits 10 n.natAbs := fun listed =>
    absurd (digit_bounds listed) (by decide)
  rw [numeral]
  split
  · simpa using digits
  · exact digits

theorem reads_numeral (short : (Nat.toDigits 10 n.natAbs).length ≤ maxIntDigits) :
    Reads other (numeral n) (.int n) := by
  obtain ⟨c, others, shape, kind⟩ := numeral_head n
  have apart : c ∉ ([' ', '\t', '\n', '#', ']', '"', '\'', '[', 't', 'f'] : Text) := by
    simp only [List.mem_cons, List.not_mem_nil, or_false]
    rintro (rfl | rfl | rfl | rfl | rfl | rfl | rfl | rfl | rfl | rfl) <;> revert kind <;> decide
  simp only [List.mem_cons, List.not_mem_nil, or_false, not_or] at apart
  constructor
  · exact numeral_unix n
  · refine ⟨c, others, shape, ?_, ?_⟩
    · simp [isBlank, apart]
    · simp [apart]
  · intro fuel rest enough closed
    obtain ⟨fuel, rfl⟩ : ∃ k, fuel = k + 1 := ⟨fuel - 1, by omega⟩
    have number := integer_numeral short closed
    rw [shape, List.cons_append] at number ⊢
    rw [value]
    · rw [number]
    all_goals
      intro more same
      simp_all

/-- An array gap ends in front of a character that is neither blank nor a comment's. -/
theorem arrayGap_stops {c : Char} (solid : isBlank c = false ∧ c ≠ '\n' ∧ c ≠ '#') (rest : Text) :
    arrayGap false (c :: rest) = some (c :: rest) := by
  simp [arrayGap, solid]

theorem Reads.gap (reading : Reads other raw v) (rest : Text) :
    ∃ c more, raw ++ rest = c :: more ∧ c ≠ ']' ∧
      arrayGap false (c :: more) = some (c :: more) := by
  obtain ⟨c, others, shape, blank, apart⟩ := reading.begins
  simp only [List.mem_cons, List.not_mem_nil, or_false, not_or] at apart
  exact ⟨c, others ++ rest, by rw [shape, List.cons_append], apart.2.2,
    arrayGap_stops ⟨blank, apart.1, apart.2.1⟩ _⟩

/-- The items of an array as they are written between the brackets. -/
def joined (raws : List Text) : Text := (", " : Text).intercalate raws

theorem joined_front (first : Text × Value) (parts : List (Text × Value)) (rest : Text) :
    ∃ tail, joined ((first :: parts).map Prod.fst) ++ ']' :: rest = first.1 ++ tail := by
  obtain ⟨tail, same⟩ := intercalate_front (", " : Text) first.1 (parts.map Prod.fst)
  exact ⟨tail ++ ']' :: rest, by rw [← List.append_assoc, same]; rfl⟩

/-- Every item has a character of its own in the text. -/
theorem joined_length {parts : List (Text × Value)}
    (each : ∀ part ∈ parts, Reads other part.1 part.2) :
    parts.length ≤ (joined (parts.map Prod.fst)).length ∧
      ∀ part ∈ parts, part.1.length ≤ (joined (parts.map Prod.fst)).length := by
  have total : ((parts.map Prod.fst).map List.length).sum ≤ (joined (parts.map Prod.fst)).length :=
    intercalate_length _ _
  suffices shorter : parts.length ≤ ((parts.map Prod.fst).map List.length).sum ∧
      ∀ part ∈ parts, part.1.length ≤ ((parts.map Prod.fst).map List.length).sum from
    ⟨by omega, fun part listed => (shorter.2 part listed).trans total⟩
  clear total
  induction parts with
  | nil => simp
  | cons first parts ih =>
      obtain ⟨here, each⟩ := List.forall_mem_cons.mp each
      obtain ⟨count, longest⟩ := ih each
      obtain ⟨c, others, shape, -⟩ := here.begins
      have some_ : 0 < first.1.length := by simp [shape]
      simp only [List.map_cons, List.sum_cons, List.length_cons]
      refine ⟨by omega, ?_⟩
      intro part listed
      rcases List.mem_cons.mp listed with rfl | listed
      · omega
      · have := longest part listed
        omega

theorem items_joined {fuel : Nat} (first : Text × Value) (parts : List (Text × Value))
    (each : ∀ part ∈ first :: parts, Reads other part.1 part.2)
    (deep : ∀ part ∈ first :: parts, part.1.length < fuel) (rounds : Nat)
    (enough : parts.length < rounds) (rest : Text) :
    items (value other fuel) rounds (joined ((first :: parts).map Prod.fst) ++ ']' :: rest) =
      some ((first :: parts).map Prod.snd, rest) := by
  induction parts generalizing first rounds with
  | nil =>
      obtain ⟨rounds, rfl⟩ : ∃ k, rounds = k + 1 := ⟨rounds - 1, by omega⟩
      have reading := (each first List.mem_cons_self).reads fuel (']' :: rest)
        (deep first List.mem_cons_self) ⟨']', rest, rfl, by decide⟩
      have gap := arrayGap_stops (c := ']') (by decide) rest
      simp [joined, items, reading, gap]
  | cons next parts ih =>
      obtain ⟨rounds, rfl⟩ : ∃ k, rounds = k + 1 := ⟨rounds - 1, by omega⟩
      obtain ⟨here, each⟩ := List.forall_mem_cons.mp each
      obtain ⟨shallow, deep⟩ := List.forall_mem_cons.mp deep
      have back := ih next each deep rounds (by simp at enough; omega)
      have whole : joined ((first :: next :: parts).map Prod.fst) ++ ']' :: rest =
          first.1 ++ ',' :: ' ' :: (joined ((next :: parts).map Prod.fst) ++ ']' :: rest) := by
        simp [joined]
      have reading := here.reads fuel
        (',' :: ' ' :: (joined ((next :: parts).map Prod.fst) ++ ']' :: rest)) shallow
        ⟨',', _, rfl, by decide⟩
      have comma := arrayGap_stops (c := ',') (by decide)
        (' ' :: (joined ((next :: parts).map Prod.fst) ++ ']' :: rest))
      obtain ⟨tail, split⟩ := joined_front next parts rest
      obtain ⟨c, more, shape, open_, gap⟩ := (each next List.mem_cons_self).gap tail
      have space : arrayGap false (' ' :: c :: more) = some (c :: more) := by
        rw [← gap]
        simp [arrayGap, isBlank]
      rw [whole, items, reading]
      simp only [Option.bind_eq_bind, Option.bind_some, comma]
      rw [split, shape] at back ⊢
      simp [space, open_, back]

theorem joined_unix {parts : List (Text × Value)}
    (each : ∀ part ∈ parts, Reads other part.1 part.2) : '\r' ∉ joined (parts.map Prod.fst) := by
  induction parts with
  | nil => simp [joined]
  | cons first parts ih =>
      obtain ⟨here, others⟩ := List.forall_mem_cons.mp each
      cases parts with
      | nil => simpa [joined] using here.unix
      | cons next parts =>
          have back := ih others
          simp only [joined, List.map_cons, List.intercalate_cons_cons, List.mem_append,
            not_or] at back ⊢
          exact ⟨⟨here.unix, by decide⟩, back⟩

theorem reads_list {parts : List (Text × Value)}
    (each : ∀ part ∈ parts, Reads other part.1 part.2) :
    Reads other ('[' :: joined (parts.map Prod.fst) ++ [']']) (.list (parts.map Prod.snd)) where
  unix := by
    have inside := joined_unix each
    simpa using inside
  begins := ⟨'[', joined (parts.map Prod.fst) ++ [']'], rfl, by decide, by decide⟩
  reads := by
    intro fuel rest enough closed
    obtain ⟨fuel, rfl⟩ : ∃ k, fuel = k + 1 := ⟨fuel - 1, by omega⟩
    have whole : '[' :: joined (parts.map Prod.fst) ++ [']'] ++ rest =
        '[' :: (joined (parts.map Prod.fst) ++ ']' :: rest) := by simp
    rw [whole, value]
    cases parts with
    | nil =>
        have gap := arrayGap_stops (c := ']') (by decide) rest
        simp [joined, gap]
    | cons first parts =>
        obtain ⟨count, longest⟩ := joined_length each
        simp only [List.length_append, List.length_cons] at enough count
        have deep : ∀ part ∈ first :: parts, part.1.length < fuel := fun part listed =>
          lt_of_le_of_lt (longest part listed) (by omega)
        have reading := items_joined first parts each deep fuel (by omega) rest
        obtain ⟨tail, split⟩ := joined_front first parts rest
        obtain ⟨c, more, shape, open_, gap⟩ := (each first List.mem_cons_self).gap tail
        rw [split, shape] at reading ⊢
        simp [gap, open_, reading]

/-- A key that is written without quotes. -/
def Bare (key : Text) : Prop := key ≠ [] ∧ ∀ c ∈ key, isBare c = true

instance (key : Text) : Decidable (Bare key) := inferInstanceAs (Decidable (_ ∧ _))

theorem keyPart_bare {key : Text} (bare : Bare key) (ends : isBare c = false) (rest : Text) :
    keyPart (key ++ c :: rest) = some (key, c :: rest) := by
  obtain ⟨some_, all⟩ := bare
  have cut : (key ++ c :: rest).span isBare = (key, c :: rest) := by
    rw [List.span_eq_takeWhile_dropWhile, List.takeWhile_append_of_pos all,
      List.dropWhile_append_of_pos all, List.takeWhile_cons_of_neg (by simp [ends]),
      List.dropWhile_cons_of_neg (by simp [ends]), List.append_nil]
  cases key with
  | nil => exact absurd rfl some_
  | cons first others =>
      have letter := all first List.mem_cons_self
      rw [List.cons_append] at cut ⊢
      rw [keyPart]
      · rw [cut]
      all_goals
        intro more same
        rw [(List.cons.inj same).1] at letter
        exact absurd letter (by decide)

/-- `".".join(path)` -/
def dotted (path : Path) : Text := (".": Text).intercalate path

theorem keyPath_dotted {path : Path} (some_ : path ≠ []) (bare : ∀ key ∈ path, Bare key)
    {pad : Text} (blanks : ∀ c ∈ pad, isBlank c = true)
    (ends : isBare c = false ∧ isBlank c = false ∧ c ≠ '.') (rest : Text) (fuel : Nat)
    (enough : path.length ≤ fuel) :
    keyPath fuel (dotted path ++ (pad ++ c :: rest)) = some (path, c :: rest) := by
  induction path generalizing fuel with
  | nil => exact absurd rfl some_
  | cons key path ih =>
      obtain ⟨fuel, rfl⟩ : ∃ k, fuel = k + 1 := ⟨fuel - 1, by simp at enough; omega⟩
      obtain ⟨here, others⟩ := List.forall_mem_cons.mp bare
      cases path with
      | nil =>
          have skip : (pad ++ c :: rest).dropWhile isBlank = c :: rest := by
            rw [List.dropWhile_append_of_pos blanks, List.dropWhile_cons_of_neg (by simp [ends.2.1])]
          have first : ∃ d more, pad ++ c :: rest = d :: more ∧ isBare d = false := by
            cases pad with
            | nil => exact ⟨c, rest, rfl, ends.1⟩
            | cons d pad =>
                refine ⟨d, pad ++ c :: rest, rfl, ?_⟩
                have blank := blanks d List.mem_cons_self
                simp only [isBlank, decide_eq_true_eq] at blank
                rcases blank with rfl | rfl <;> rfl
          obtain ⟨d, more, shape, stops⟩ := first
          have part := keyPart_bare here stops more
          rw [← shape] at part
          simp [dotted, keyPath, part, skip, ends.2.2]
      | cons next path =>
          have back := ih (by simp) others fuel (by simpa using enough)
          have part := keyPart_bare (c := '.') here (by decide)
            (dotted (next :: path) ++ (pad ++ c :: rest))
          obtain ⟨first, more, shape, letter⟩ : ∃ first more,
              dotted (next :: path) ++ (pad ++ c :: rest) = first :: more ∧ isBare first = true := by
            obtain ⟨tail, same⟩ := intercalate_front (".": Text) next path
            have nextBare := others next List.mem_cons_self
            cases next with
            | nil => exact absurd rfl nextBare.1
            | cons first letters =>
                exact ⟨first, letters ++ tail ++ (pad ++ c :: rest), by rw [dotted, ← same]; simp,
                  nextBare.2 first List.mem_cons_self⟩
          have solid : isBlank first = false := by
            rw [isBlank, decide_eq_false_iff_not]
            rintro (rfl | rfl) <;> exact absurd letter (by decide)
          have whole : dotted (key :: next :: path) ++ (pad ++ c :: rest) =
              key ++ '.' :: (dotted (next :: path) ++ (pad ++ c :: rest)) := by
            simp [dotted]
          have dot : ('.' :: first :: more).dropWhile isBlank = '.' :: first :: more := rfl
          have start : (first :: more).dropWhile isBlank = first :: more :=
            List.dropWhile_cons_of_neg (by simp [solid])
          rw [whole, keyPath, part]
          rw [shape] at back ⊢
          simp only [Option.bind_eq_bind, Option.bind_some, dot, start, back]

end Spelling

/-- Reading `text` comes to running `f` on what the document has built so far. -/
def Performs (other : Text → Option (Value × Text)) (text : Text) (f : State → Option State) : Prop :=
  ∃ lines ≤ text.length, ∀ fuel st rest,
    document other (lines + fuel) st (text ++ rest) =
      (f st).bind fun st => document other fuel st rest

section Statements

variable {other : Text → Option (Value × Text)} {text more : Text} {f g : State → Option State}

theorem performs_nil : Performs other [] some := ⟨0, Nat.zero_le _, by simp⟩

theorem Performs.append (first : Performs other text f) (second : Performs other more g) :
    Performs other (text ++ more) fun st => (f st).bind g := by
  obtain ⟨n, short, runs⟩ := first
  obtain ⟨m, short', runs'⟩ := second
  refine ⟨n + m, by rw [List.length_append]; omega, fun fuel st rest => ?_⟩
  rw [Nat.add_assoc, List.append_assoc, runs, Option.bind_assoc]
  exact Option.bind_congr fun st _ => runs' fuel st rest

theorem unixEnds_plain {text : Text} (unix : '\r' ∉ text) : unixEnds text = text := by
  induction text with
  | nil => rfl
  | cons c text ih =>
      obtain ⟨first, others⟩ := not_or.mp (mt List.mem_cons.mpr unix)
      rw [unixEnds_first (Ne.symm first), ih others]

theorem Performs.loads (performed : Performs other text f) (unix : '\r' ∉ text) :
    Toml.loads other text = (f State.initial).map State.data := by
  obtain ⟨lines, short, runs⟩ := performed
  obtain ⟨spare, enough⟩ : ∃ spare, text.length + 1 = lines + (spare + 1) :=
    ⟨text.length - lines, by omega⟩
  have whole := runs (spare + 1) State.initial []
  rw [List.append_nil, ← enough] at whole
  simp only [Toml.loads, unixEnds_plain unix]
  rw [whole]
  cases f State.initial <;> rfl

/-- A line is performed by the statement in front and the end of the line behind it. -/
theorem performs_line {c : Char} {line : Text} (solid : isBlank c = false)
    (reads : ∀ st rest, ((statement other st (c :: (line ++ '\n' :: rest))).bind fun read =>
      (lineEnd read.2).map (read.1, ·)) = (f st).map (·, rest)) :
    Performs other (c :: line ++ ['\n']) f := by
  refine ⟨1, by simp, fun fuel st rest => ?_⟩
  have whole : c :: line ++ ['\n'] ++ rest = c :: (line ++ '\n' :: rest) := by simp
  have start : (c :: (line ++ '\n' :: rest)).dropWhile isBlank = c :: (line ++ '\n' :: rest) :=
    List.dropWhile_cons_of_neg (by simp [solid])
  have here := congrArg (·.bind fun read => document other fuel read.1 read.2) (reads st rest)
  simp only [Option.bind_assoc, Option.bind_map] at here
  rw [whole, Nat.add_comm, document, start]
  exact here

theorem lineEnd_newline (rest : Text) : lineEnd ('\n' :: rest) = some rest := rfl

theorem performs_blank : Performs other ['\n'] some := by
  refine ⟨1, by simp, fun fuel st rest => ?_⟩
  rw [Nat.add_comm]
  rfl

theorem performs_comment {remark : Text} (lined : Lined remark) :
    Performs other ('#' :: remark ++ ['\n']) some := by
  apply performs_line (by decide)
  intro st rest
  have inside : ∀ c ∈ remark, decide (c ≠ '\n') = true := by
    intro c listed
    have plain := lined c listed
    rw [decide_eq_true_eq]
    rintro rfl
    exact absurd plain (by decide)
  have calm : ¬ remark.any isControl = true := by
    simpa [Lined] using lined
  have skip : skipComment ('#' :: (remark ++ '\n' :: rest)) = some ('\n' :: rest) := by
    rw [skipComment, List.takeWhile_append_of_pos inside, List.dropWhile_append_of_pos inside]
    simp [calm]
  have read : statement other st ('#' :: (remark ++ '\n' :: rest)) =
      some (st, '#' :: (remark ++ '\n' :: rest)) := by
    simp [statement, show isBare '#' = false by decide]
  have done : lineEnd ('#' :: (remark ++ '\n' :: rest)) = some rest := by
    have start : ('#' :: (remark ++ '\n' :: rest)).dropWhile isBlank =
        '#' :: (remark ++ '\n' :: rest) := rfl
    rw [lineEnd, start, skip]
    rfl
  simp [read, done]

theorem performs_assign {key pad raw : Text} {v : Value} (bare : Bare key)
    (blanks : ∀ c ∈ pad, isBlank c = true) (reading : Reads other raw v) :
    Performs other (key ++ pad ++ ("= " : Text) ++ raw ++ ['\n']) (·.assign [key] v) := by
  cases key with
  | nil => exact absurd rfl bare.1
  | cons c letters =>
      have letter := bare.2 c List.mem_cons_self
      have plain : isBlank c = false ∧ c ≠ '[' := by
        refine ⟨?_, ?_⟩
        · rw [isBlank, decide_eq_false_iff_not]
          rintro (rfl | rfl) <;> exact absurd letter (by decide)
        · rintro rfl
          exact absurd letter (by decide)
      have split : (c :: letters) ++ pad ++ ("= " : Text) ++ raw ++ ['\n'] =
          c :: (letters ++ pad ++ ("= " : Text) ++ raw) ++ ['\n'] := by simp
      rw [split]
      apply performs_line plain.1
      intro st rest
      obtain ⟨first, more, shape, solid, -⟩ := reading.begins
      have whole : c :: (letters ++ pad ++ ("= " : Text) ++ raw ++ '\n' :: rest) =
          dotted [c :: letters] ++ (pad ++ '=' :: ' ' :: (raw ++ '\n' :: rest)) := by
        simp [dotted]
      have single : ∀ key ∈ [c :: letters], Bare key := by simpa using bare
      have path := keyPath_dotted (by simp) single blanks
        (c := '=') (by decide) (' ' :: (raw ++ '\n' :: rest))
        (c :: (letters ++ pad ++ ("= " : Text) ++ raw ++ '\n' :: rest)).length (by simp)
      rw [← whole] at path
      have start : (' ' :: (raw ++ '\n' :: rest)).dropWhile isBlank = raw ++ '\n' :: rest := by
        rw [List.dropWhile_cons_of_pos (by decide), shape, List.cons_append,
          List.dropWhile_cons_of_neg (by simp [solid])]
      have spelled := reading.reads
        (c :: (letters ++ pad ++ ("= " : Text) ++ raw ++ '\n' :: rest)).length ('\n' :: rest)
        (by simp; omega) ⟨'\n', rest, rfl, by decide⟩
      have read : statement other st (c :: (letters ++ pad ++ ("= " : Text) ++ raw ++ '\n' :: rest)) =
          (st.assign [c :: letters] v).map (·, '\n' :: rest) := by
        rw [statement]
        · rw [if_pos (.inl letter), path]
          simp only [Option.bind_eq_bind, Option.bind_some, start, spelled]
          cases st.assign [c :: letters] v <;> rfl
        · exact fun _ same => absurd same plain.2
        · exact plain.2
      rw [read]
      cases st.assign [c :: letters] v <;> simp [lineEnd_newline]

theorem Bare.unix {key : Text} (bare : Bare key) : '\r' ∉ key := fun listed =>
  absurd (bare.2 _ listed) (by decide)

theorem dotted_unix {path : Path} (bare : ∀ key ∈ path, Bare key) : '\r' ∉ dotted path := by
  induction path with
  | nil => simp [dotted]
  | cons key path ih =>
      obtain ⟨here, others⟩ := List.forall_mem_cons.mp bare
      cases path with
      | nil => simpa [dotted] using here.unix
      | cons next path =>
          have back := ih others
          simp only [dotted, List.intercalate_cons_cons, List.mem_append, not_or] at back ⊢
          exact ⟨⟨here.unix, by decide⟩, back⟩

theorem dotted_front {path : Path} (some_ : path ≠ []) (bare : ∀ key ∈ path, Bare key) :
    path.length ≤ (dotted path).length ∧
      ∃ c letters, dotted path = c :: letters ∧ isBare c = true := by
  have count : path.length ≤ (path.map List.length).sum := by
    clear some_
    induction path with
    | nil => simp
    | cons key path ih =>
        obtain ⟨here, others⟩ := List.forall_mem_cons.mp bare
        have some_ : 0 < key.length := List.length_pos_of_ne_nil here.1
        have := ih others
        simp
        omega
  refine ⟨count.trans (intercalate_length _ _), ?_⟩
  cases path with
  | nil => exact absurd rfl some_
  | cons key path =>
      obtain ⟨tail, same⟩ := intercalate_front (".": Text) key path
      have here := bare key List.mem_cons_self
      cases key with
      | nil => exact absurd rfl here.1
      | cons c letters =>
          exact ⟨c, letters ++ tail, by rw [dotted, ← same]; rfl, here.2 c List.mem_cons_self⟩

theorem keyPath_header {path : Path} (some_ : path ≠ []) (bare : ∀ key ∈ path, Bare key)
    (fuel : Nat) (enough : (dotted path).length ≤ fuel) (rest : Text) :
    keyPath fuel ((dotted path ++ ']' :: rest).dropWhile isBlank) = some (path, ']' :: rest) := by
  obtain ⟨count, c, letters, shape, letter⟩ := dotted_front some_ bare
  have solid : isBlank c = false := by
    rw [isBlank, decide_eq_false_iff_not]
    rintro (rfl | rfl) <;> exact absurd letter (by decide)
  have start : (dotted path ++ ']' :: rest).dropWhile isBlank = dotted path ++ ']' :: rest := by
    rw [shape, List.cons_append, List.dropWhile_cons_of_neg (by simp [solid])]
  rw [start]
  exact keyPath_dotted some_ bare (List.forall_mem_nil _) (c := ']') (by decide) rest fuel
    (count.trans enough)

variable (other) in
theorem performs_table {path : Path} (some_ : path ≠ []) (bare : ∀ key ∈ path, Bare key) :
    Performs other ('[' :: dotted path ++ [']', '\n']) (·.table path) := by
  have split : '[' :: dotted path ++ [']', '\n'] = '[' :: (dotted path ++ [']']) ++ ['\n'] := by
    simp
  rw [split]
  apply performs_line (by decide)
  intro st rest
  have whole : '[' :: (dotted path ++ [']'] ++ '\n' :: rest) =
      '[' :: (dotted path ++ ']' :: '\n' :: rest) := by simp
  have found := keyPath_header some_ bare ('[' :: (dotted path ++ ']' :: '\n' :: rest)).length
    (by simp; omega) ('\n' :: rest)
  have read : statement other st ('[' :: (dotted path ++ ']' :: '\n' :: rest)) =
      (st.table path).map (·, '\n' :: rest) := by
    obtain ⟨-, c, letters, shape, letter⟩ := dotted_front some_ bare
    rw [statement]
    · rw [found]
      simp only [Option.bind_eq_bind, Option.bind_some]
      cases st.table path <;> rfl
    · intro more same
      rw [shape, List.cons_append] at same
      rw [(List.cons.inj same).1] at letter
      exact absurd letter (by decide)
  rw [whole, read]
  cases st.table path <;> simp [lineEnd_newline]

variable (other) in
theorem performs_element {path : Path} (some_ : path ≠ []) (bare : ∀ key ∈ path, Bare key) :
    Performs other (['[', '['] ++ dotted path ++ [']', ']', '\n']) (·.element path) := by
  have split : ['[', '['] ++ dotted path ++ [']', ']', '\n'] =
      '[' :: ('[' :: dotted path ++ [']', ']']) ++ ['\n'] := by simp
  rw [split]
  apply performs_line (by decide)
  intro st rest
  have whole : '[' :: ('[' :: dotted path ++ [']', ']'] ++ '\n' :: rest) =
      '[' :: '[' :: (dotted path ++ ']' :: ']' :: '\n' :: rest) := by simp
  have found := keyPath_header some_ bare
    ('[' :: '[' :: (dotted path ++ ']' :: ']' :: '\n' :: rest)).length
    (by simp; omega) (']' :: '\n' :: rest)
  have read : statement other st ('[' :: '[' :: (dotted path ++ ']' :: ']' :: '\n' :: rest)) =
      (st.element path).map (·, '\n' :: rest) := by
    rw [statement, found]
    simp only [Option.bind_eq_bind, Option.bind_some]
    cases st.element path <;> rfl
  rw [whole, read]
  cases st.element path <;> simp [lineEnd_newline]

end Statements

end PyBulletin.Foundation.Toml
