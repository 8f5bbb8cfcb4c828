import PyBulletin.Foundation.Lines
import PyBulletin.Forward.Sid

set_option autoImplicit false

namespace PyBulletin.Forward.Sid

open PyBulletin.Foundation

/-! # SIDs printed and parsed

The dash separates all parts of a SID, so the pattern can often match in more than one way.  The
ways differ in the group that takes the SSID, and not in the result.
-/

/-- `\d` and `int`, which also know the digits of other scripts. -/
structure Numerals where
  isDigit : Char → Bool
  int : Text → Option Int
  ascii : ∀ c : Char, c.isDigit → isDigit c
  plain : ∀ c ∈ ['-', '$', ']'], isDigit c = false
  empty : int [] = none
  reads : ∀ digits : Text, digits ≠ [] → digits.all Char.isDigit →
    digits.length ≤ Text.maxIntDigits → int digits = some (Nat.ofDigitChars 10 digits 0 : Int)

variable (numerals : Numerals)

/-- `([A-Z0-9]+-?\d*)` -/
def callGroup : Pattern :=
  .seq (.plus isCallChar) (.seq (.opt (.literal '-')) (.star numerals.isDigit))

/-- `(?:-(\d+))?` -/
def ssidGroup : Pattern := .opt (.seq (.literal '-') (.plus numerals.isDigit))

def matchGroups (text : Text) : List (Text × Text × Text × Text) :=
  (Pattern.literal '[' text).flatMap fun (_, rest) =>
    (callGroup numerals rest).flatMap fun (call, rest) =>
      (ssidGroup numerals rest).flatMap fun (ssid, rest) =>
        (Pattern.literal '-' rest).flatMap fun (_, rest) =>
          (softwarePattern rest).flatMap fun (software, rest) =>
            (Pattern.literal '-' rest).flatMap fun (_, rest) =>
              (flagsPattern rest).flatMap fun (flags, rest) =>
                (Pattern.literal ']' rest).map fun _ => (call, ssid, software, flags)

def searchGroups : Text → Option (Text × Text × Text × Text)
  | [] => none
  | c :: rest => (matchGroups numerals (c :: rest)).head?.or (searchGroups rest)

def callOf (rawCall : Text) : Text × Int :=
  if '-' ∈ rawCall then
    let (call, ssid) := Text.splitLast '-' rawCall
    match numerals.int ssid with
    | some ssid => (call, ssid)
    | none => (rawCall, 0)
  else (rawCall, 0)

/-- `parse`, for any script. -/
def read (text : Text) : Option Sid :=
  (searchGroups numerals text).map fun (rawCall, group, software, flags) =>
    let (call, ssid) := callOf numerals rawCall
    { call := Text.upper call
      ssid := if group ≠ [] then (numerals.int group.tail).getD ssid else ssid
      software
      flags }

/-- `str(n)`; `none` is the `ValueError` of a number with too many digits. -/
def strInt (n : Int) : Option Text :=
  if Text.maxIntDigits < (Nat.toDigits 10 n.natAbs).length then none else some (formatInt n)

/-- `__str__` -/
def str (sid : Sid) : Option Text := do
  let ssidPart ← if sid.ssid = 0 then some [] else (strInt sid.ssid).map ('-' :: ·)
  return ['['] ++ sid.call ++ ssidPart ++ ['-'] ++ sid.software ++ ['-'] ++ sid.flags ++ [']']

/-- The callsign and the SSID of `node_call`, as `generate` reads them. -/
def nodeCallOf (nodeCall : Text) : Text × Int :=
  let upper := Text.upper nodeCall
  if '-' ∈ nodeCall then
    match numerals.int (upper.dropWhile (· ≠ '-')).tail with
    | some ssid => (upper.takeWhile (· ≠ '-'), ssid)
    | none => (upper, 0)
  else (upper, 0)

/-- `generate`, for any script and any version of the package. -/
def announce (packageVersion nodeCall : Text) : Text :=
  let (call, ssid) := nodeCallOf numerals nodeCall
  let ssidPart : Text := if ssid = 0 then [] else '-' :: formatInt ssid
  ['['] ++ call ++ ssidPart ++ ("-pyBulletin" : Text) ++ packageVersion ++ ['-'] ++ ourFlags ++ "$]"

/-- ASCII lines have no other digits. -/
def asciiNumerals : Numerals where
  isDigit := Char.isDigit
  int := Text.parseInt
  ascii := fun _ digit => digit
  plain := by decide
  empty := by decide
  reads := fun digits some_ all short => by
    have bounds : ∀ c ∈ digits, 48 ≤ c.toNat ∧ c.toNat ≤ 57 := fun c listed =>
      isDigit_bounds (List.all_eq_true.mp all c listed)
    rw [Text.parseInt_numeral some_ bounds, if_neg (Nat.not_lt.mpr short)]

theorem matchGroups_ascii (text : Text) : matchGroups asciiNumerals text = matchSid text := by
  simp only [matchGroups, matchSid, matchTail, List.map_flatMap, List.map_map, Function.comp_def]
  rfl

theorem searchGroups_ascii (text : Text) : searchGroups asciiNumerals text = search text := by
  induction text with
  | nil => rfl
  | cons c rest ih => rw [searchGroups, search, matchGroups_ascii, ih]

theorem read_ascii (text : Text) : read asciiNumerals text = parse text := by
  rw [read, parse, searchGroups_ascii]
  congr 1
  funext found
  obtain ⟨rawCall, _ | ⟨c, group⟩, software, flags⟩ := found
  · rfl
  · rfl

theorem announce_ascii (nodeCall : Text) :
    announce asciiNumerals version nodeCall = generate nodeCall := rfl

def isFlag (c : Char) : Bool := isCallChar c ∨ c = '$'

/-- The parts of a SID behind the bracket, with the SSID and its dash in one part. -/
def body (call ssidPart software flags : Text) : Text :=
  call ++ ssidPart ++ '-' :: software ++ '-' :: flags

/-- The fields that a SID can have. -/
structure Fields (call software flags : Text) : Prop where
  some_ : call ≠ []
  call : call.all isCallChar
  software : ∀ c ∈ software, c ≠ '-' ∧ c ≠ '$' ∧ c ≠ ']'
  flags : ∃ front : Text, flags = front ++ ['$'] ∧ front.all isFlag

/-- The part of a SID that stands for an SSID. -/
inductive Shows : Text → Int → Prop where
  | absent : Shows [] 0
  | number {digits : Text} {value : Int} (some_ : digits ≠ []) (all : digits.all numerals.isDigit)
      (reads : numerals.int digits = some value) : Shows ('-' :: digits) value

variable {numerals}
variable {text call ssidPart software flags raw group software' flags' : Text} {value : Int}

theorem isCallChar_plain {c : Char} (fits : isCallChar c) : c ≠ '-' ∧ c ≠ '$' ∧ c ≠ ']' := by
  refine ⟨?_, ?_, ?_⟩ <;> rintro rfl <;> exact absurd fits (by decide)

theorem Numerals.digit_plain {c : Char} (digit : numerals.isDigit c) : c ≠ '-' ∧ c ≠ ']' := by
  constructor <;> rintro rfl
  · exact absurd digit (by simp [numerals.plain '-' (by simp)])
  · exact absurd digit (by simp [numerals.plain ']' (by simp)])

theorem isFlag_plain {c : Char} (flag : isFlag c) : c ≠ '-' ∧ c ≠ ']' := by
  constructor <;> rintro rfl <;> exact absurd flag (by decide)

theorem callGroup_sound {rest : Text} (listed : (raw, rest) ∈ callGroup numerals text) :
    text = raw ++ rest ∧ ']' ∉ raw := by
  obtain ⟨run, left, tail, begins, goesOn, rfl⟩ := Pattern.seq_sound listed
  obtain ⟨dash, left', digits, maybe, behind, rfl⟩ := Pattern.seq_sound goesOn
  have run_ : ']' ∉ run := fun among =>
    (isCallChar_plain (List.all_eq_true.mp (Pattern.plus_sound _ begins).1 _ among)).2.2 rfl
  have digits_ : ']' ∉ digits := fun among =>
    (Numerals.digit_plain (List.all_eq_true.mp (Pattern.star_sound _ behind) _ among)).2 rfl
  rw [Pattern.plus_splits begins]
  rcases Pattern.opt_splits maybe with taken | ⟨rfl, rfl⟩
  · obtain rfl := Pattern.literal_sound taken
    rw [Pattern.literal_splits taken, Pattern.star_splits behind]
    exact ⟨by simp, by simp [run_, digits_]⟩
  · rw [Pattern.star_splits behind]
    exact ⟨by simp, by simp [run_, digits_]⟩

theorem ssidGroup_sound {rest : Text} (listed : (group, rest) ∈ ssidGroup numerals text) :
    text = group ++ rest ∧
      (group = [] ∨ ∃ number : Text, group = '-' :: number ∧ '-' ∉ number ∧ ']' ∉ number) := by
  rcases Pattern.opt_splits listed with taken | ⟨rfl, rfl⟩
  · obtain ⟨dash, left, number, begins, goesOn, rfl⟩ := Pattern.seq_sound taken
    obtain rfl := Pattern.literal_sound begins
    have plain : ∀ c ∈ number, c ≠ '-' ∧ c ≠ ']' := fun c among =>
      Numerals.digit_plain (List.all_eq_true.mp (Pattern.plus_sound _ goesOn).1 c among)
    rw [Pattern.literal_splits begins, Pattern.plus_splits goesOn]
    exact ⟨rfl, .inr ⟨number, rfl, fun among => (plain _ among).1 rfl,
      fun among => (plain _ among).2 rfl⟩⟩
  · exact ⟨rfl, .inl rfl⟩

theorem softwarePattern_sound {rest : Text} (listed : (software, rest) ∈ softwarePattern text) :
    text = software ++ rest ∧ ∀ c ∈ software, c ≠ '-' ∧ c ≠ '$' ∧ c ≠ ']' := by
  refine ⟨Pattern.star_splits listed, fun c among => ?_⟩
  exact of_decide_eq_true (List.all_eq_true.mp (Pattern.star_sound _ listed) c among)

theorem flagsPattern_sound {rest : Text} (listed : (flags, rest) ∈ flagsPattern text) :
    text = flags ++ rest ∧ flags.all isFlag := by
  obtain ⟨front, left, last, begins, goesOn, rfl⟩ := Pattern.seq_sound listed
  obtain rfl := Pattern.literal_sound goesOn
  have fits : front.all isFlag := Pattern.star_sound _ begins
  rw [Pattern.star_splits begins, Pattern.literal_splits goesOn]
  refine ⟨by simp, ?_⟩
  rw [List.all_append, fits]
  rfl

theorem matchGroups_sound (listed : (raw, group, software, flags) ∈ matchGroups numerals text) :
    ∃ behind, text = '[' :: body raw group software flags ++ ']' :: behind ∧ ']' ∉ raw ∧
      (group = [] ∨ ∃ number : Text, group = '-' :: number ∧ '-' ∉ number ∧ ']' ∉ number) ∧
      (∀ c ∈ software, c ≠ '-' ∧ c ≠ '$' ∧ c ≠ ']') ∧ flags.all isFlag := by
  simp only [matchGroups, List.mem_flatMap, List.mem_map] at listed
  obtain ⟨⟨_, text₁⟩, opens, ⟨_, text₂⟩, called, ⟨_, text₃⟩, numbered, ⟨_, text₄⟩, dashed,
    ⟨_, text₅⟩, softly, ⟨_, text₆⟩, dashed', ⟨_, text₇⟩, flagged, ⟨_, behind⟩, closes, same⟩ := listed
  cases same
  dsimp only at *
  obtain ⟨calls, open_⟩ := callGroup_sound called
  obtain ⟨ssids, number⟩ := ssidGroup_sound numbered
  obtain ⟨softwares, plain⟩ := softwarePattern_sound softly
  obtain ⟨ends, all⟩ := flagsPattern_sound flagged
  refine ⟨behind, ?_, open_, number, plain, all⟩
  rw [Pattern.literal_splits opens, calls, ssids, Pattern.literal_splits dashed, softwares,
    Pattern.literal_splits dashed', ends, Pattern.literal_splits closes]
  simp [body]

/-- A printed SID has a match. -/
theorem matchGroups_complete (fields : Fields call software flags)
    (shows : Shows numerals ssidPart value) :
    (call ++ ssidPart, [], software, flags) ∈
      matchGroups numerals ('[' :: body call ssidPart software flags ++ [']']) := by
  obtain ⟨front, rfl, all⟩ := fields.flags
  have tail : '[' :: body call ssidPart software (front ++ ['$']) ++ [']'] =
      '[' :: (call ++ ssidPart ++ ('-' :: (software ++ '-' :: (front ++ '$' :: [']'])))) := by
    simp [body]
  simp only [matchGroups, List.mem_flatMap, List.mem_map]
  rw [tail]
  refine ⟨_, Pattern.literal_complete '[' _, ⟨call ++ ssidPart, _⟩, ?_, ⟨[], _⟩,
    Pattern.opt_skipped _ _, _, Pattern.literal_complete '-' _, ⟨software, _⟩,
    Pattern.star_complete ?_ _, _, Pattern.literal_complete '-' _, ⟨front ++ ['$'], _⟩,
    Pattern.seq_complete (Pattern.star_complete all _) (Pattern.literal_complete '$' _), _,
    Pattern.literal_complete ']' [], rfl⟩
  · rw [List.append_assoc]
    refine Pattern.seq_complete (Pattern.plus_complete fields.call fields.some_ _) ?_
    cases shows with
    | absent =>
        exact Pattern.seq_complete (Pattern.opt_skipped _ _) (Pattern.star_complete rfl _)
    | @number digits _ some_ numbers reads =>
        exact Pattern.seq_complete (Pattern.opt_taken (Pattern.literal_complete '-' _))
          (Pattern.star_complete numbers _)
  · exact List.all_eq_true.mpr fun c among => decide_eq_true (fields.software c among)

theorem splitLast_injective {sep : Char} {front back front' back' : Text}
    (same : front ++ sep :: back = front' ++ sep :: back') (plain : sep ∉ back)
    (plain' : sep ∉ back') : front = front' ∧ back = back' := by
  have split := congrArg (Text.splitLast sep) same
  rw [Text.splitLast_append plain, Text.splitLast_append plain'] at split
  exact ⟨congrArg Prod.fst split, congrArg Prod.snd split⟩

/-- The text in front of the first bracket that closes. -/
theorem front_unique {front front' behind behind' : Text}
    (same : front ++ ']' :: behind = front' ++ ']' :: behind') (plain : ']' ∉ front)
    (plain' : ']' ∉ front') : front = front' := by
  have stop {front behind : Text} (plain : ']' ∉ front) :
      (front ++ ']' :: behind).takeWhile (· ≠ ']') = front := by
    have all : ∀ c ∈ front, decide (c ≠ ']') = true := by
      intro c among
      refine decide_eq_true ?_
      rintro rfl
      exact plain among
    rw [List.takeWhile_append_of_pos all]
    simp
  rw [← stop plain, same, stop plain']

theorem not_mem_body {c : Char} (dash : c ≠ '-') (raw_ : c ∉ raw) (group_ : c ∉ group)
    (software_ : c ∉ software) (flags_ : c ∉ flags) : c ∉ body raw group software flags := by
  simp [body, dash, raw_, group_, software_, flags_]

theorem Fields.flags_all (fields : Fields call software flags) : flags.all isFlag := by
  obtain ⟨front, rfl, all⟩ := fields.flags
  rw [List.all_append, all]
  rfl

theorem Shows.closed (shows : Shows numerals ssidPart value) : ']' ∉ ssidPart := by
  cases shows with
  | absent => simp
  | @number digits _ some_ all reads =>
      intro among
      rcases List.mem_cons.mp among with impossible | among
      · exact absurd impossible (by decide)
      · exact (Numerals.digit_plain (List.all_eq_true.mp all _ among)).2 rfl

/-- A match of a printed SID has its parts, with the SSID in one of two groups. -/
theorem matchGroups_printed (fields : Fields call software flags)
    (shows : Shows numerals ssidPart value)
    (listed : (raw, group, software', flags') ∈
      matchGroups numerals ('[' :: body call ssidPart software flags ++ [']'])) :
    software' = software ∧ flags' = flags ∧
      (raw = call ++ ssidPart ∧ group = [] ∨ raw = call ∧ group = ssidPart) := by
  obtain ⟨behind, whole, open_, number, plain', all'⟩ := matchGroups_sound listed
  have flag {flags : Text} (all : flags.all isFlag) : '-' ∉ flags ∧ ']' ∉ flags :=
    ⟨fun among => (isFlag_plain (List.all_eq_true.mp all _ among)).1 rfl,
      fun among => (isFlag_plain (List.all_eq_true.mp all _ among)).2 rfl⟩
  have soft {software : Text} (plain : ∀ c ∈ software, c ≠ '-' ∧ c ≠ '$' ∧ c ≠ ']') :
      '-' ∉ software ∧ ']' ∉ software :=
    ⟨fun among => (plain _ among).1 rfl, fun among => (plain _ among).2.2 rfl⟩
  have callOpen : ']' ∉ call := fun among =>
    (isCallChar_plain (List.all_eq_true.mp fields.call _ among)).2.2 rfl
  have callSolid : '-' ∉ call := fun among =>
    (isCallChar_plain (List.all_eq_true.mp fields.call _ among)).1 rfl
  have groupOpen : ']' ∉ group := by
    rcases number with rfl | ⟨number, rfl, -, plain⟩
    · simp
    · simp [plain]
  have bodies : body call ssidPart software flags = body raw group software' flags' :=
    front_unique (List.cons.inj whole).2
      (not_mem_body (by decide) callOpen shows.closed (soft fields.software).2
        (flag fields.flags_all).2)
      (not_mem_body (by decide) open_ groupOpen (soft plain').2 (flag all').2)
  obtain ⟨fronts, rfl⟩ := splitLast_injective bodies (flag fields.flags_all).1 (flag all').1
  obtain ⟨calls, rfl⟩ := splitLast_injective fronts (soft fields.software).1 (soft plain').1
  refine ⟨rfl, rfl, ?_⟩
  rcases number with rfl | ⟨number, rfl, solid, -⟩
  · left
    exact ⟨by simpa using calls.symm, rfl⟩
  · right
    cases shows with
    | absent =>
        rw [List.append_nil] at calls
        exact absurd (by simp [calls]) callSolid
    | @number digits _ some_ all reads =>
        have digitsSolid : '-' ∉ digits := fun among =>
          (Numerals.digit_plain (List.all_eq_true.mp all _ among)).1 rfl
        obtain ⟨rfl, rfl⟩ := splitLast_injective calls digitsSolid solid
        exact ⟨rfl, rfl⟩

theorem upper_call (fits : call.all isCallChar) : Text.upper call = call := by
  refine (List.map_congr_left fun c among => ?_).trans (List.map_id call)
  apply Text.toUpper_of_not_lower
  rintro ⟨low, -⟩
  have lower : 97 ≤ c.toNat := low
  have bounds := isCallChar_bounds (List.all_eq_true.mp fits c among)
  omega

theorem callOf_plain (plain : '-' ∉ call) : callOf numerals call = (call, 0) := by
  rw [callOf, if_neg plain]

theorem callOf_shows (plain : '-' ∉ call) (shows : Shows numerals ssidPart value) :
    callOf numerals (call ++ ssidPart) = (call, value) := by
  cases shows with
  | absent => rw [List.append_nil, callOf_plain plain]
  | @number digits _ some_ all reads =>
      have solid : '-' ∉ digits := fun among =>
        (Numerals.digit_plain (List.all_eq_true.mp all _ among)).1 rfl
      rw [callOf, if_pos (by simp), Text.splitLast_append solid]
      dsimp only
      rw [reads]

/-- Whichever group takes the SSID, the SID is the one that was printed. -/
theorem read_printed (fields : Fields call software flags) (shows : Shows numerals ssidPart value) :
    read numerals ('[' :: body call ssidPart software flags ++ [']']) =
      some { call, ssid := value, software, flags } := by
  have solid : '-' ∉ call := fun among =>
    (isCallChar_plain (List.all_eq_true.mp fields.call _ among)).1 rfl
  obtain ⟨⟨raw, group, software', flags'⟩, first⟩ : ∃ found,
      (matchGroups numerals ('[' :: body call ssidPart software flags ++ [']'])).head? =
        some found := by
    have complete := matchGroups_complete fields shows
    cases shape : matchGroups numerals ('[' :: body call ssidPart software flags ++ [']']) with
    | nil =>
        rw [shape] at complete
        exact absurd complete List.not_mem_nil
    | cons found others => exact ⟨found, rfl⟩
  obtain ⟨rfl, rfl, either⟩ := matchGroups_printed fields shows (List.mem_of_head? first)
  rw [read, List.cons_append, searchGroups, ← List.cons_append, first, Option.some_or,
    Option.map_some]
  rcases either with ⟨rfl, rfl⟩ | ⟨rfl, rfl⟩
  · simp only [callOf_shows solid shows, upper_call fields.call]
    rfl
  · simp only [callOf_plain solid, upper_call fields.call]
    cases shows with
    | absent => rfl
    | @number digits _ some_ all reads => simp [reads]

/-- A SID whose fields the pattern can find. -/
structure Regular (sid : Sid) : Prop extends Fields sid.call sid.software sid.flags where
  ssid : 0 ≤ sid.ssid

theorem formatInt_ofNat (n : Nat) : formatInt n = Nat.toDigits 10 n := by
  rw [formatInt, if_neg (Int.not_lt.mpr (Int.natCast_nonneg n)), Int.natAbs_natCast]

/-- The part that is printed for an SSID is read as that SSID. -/
theorem shows_part (numerals : Numerals) {n : Nat} (short : n < 10 ^ Text.maxIntDigits) :
    Shows numerals (if (n : Int) = 0 then [] else '-' :: formatInt n) n := by
  split
  · rename_i zero
    rw [zero]
    exact .absent
  · have few : (Nat.toDigits 10 n).length ≤ Text.maxIntDigits :=
      (Nat.length_toDigits_le_iff (by decide) (by decide)).mpr short
    have all : (Nat.toDigits 10 n).all Char.isDigit := List.all_eq_true.mpr fun c among =>
      Nat.isDigit_of_mem_toDigits (by decide) (by decide) among
    rw [formatInt_ofNat]
    refine .number Nat.toDigits_ne_nil ?_ ?_
    · exact List.all_eq_true.mpr fun c among =>
        numerals.ascii c (List.all_eq_true.mp all c among)
    · rw [numerals.reads _ Nat.toDigits_ne_nil all few, Nat.ofDigitChars_ten_toDigits]

theorem read_str (numerals : Numerals) {sid : Sid} (regular : sid.Regular)
    (short : sid.ssid.natAbs < 10 ^ Text.maxIntDigits) :
    ∃ text, sid.str = some text ∧ read numerals text = some sid := by
  obtain ⟨call, ssid, software, flags⟩ := sid
  obtain ⟨n, rfl⟩ := Int.eq_ofNat_of_zero_le regular.ssid
  have small : n < 10 ^ Text.maxIntDigits := by
    rw [← Int.natAbs_natCast n]
    exact short
  have few : ¬ Text.maxIntDigits < (Nat.toDigits 10 n).length :=
    Nat.not_lt.mpr ((Nat.length_toDigits_le_iff (by decide) (by decide)).mpr small)
  have printed : str ⟨call, n, software, flags⟩ = some
      ('[' :: body call (if (n : Int) = 0 then [] else '-' :: formatInt n) software flags ++
        [']']) := by
    simp only [str, strInt, Int.natAbs_natCast, if_neg few]
    split <;> simp [body]
  exact ⟨_, printed, read_printed regular.toFields (shows_part numerals small)⟩

theorem ofDigitChars_lt {digits : Text} (all : digits.all Char.isDigit) :
    Nat.ofDigitChars 10 digits 0 < 10 ^ digits.length := by
  induction digits with
  | nil => decide
  | cons c digits ih =>
      simp only [List.all_cons, Bool.and_eq_true] at all
      have later := ih all.2
      have bounds := isDigit_bounds all.1
      have digit : c.toNat - '0'.toNat ≤ 9 := by
        simp only [Char.reduceToNat]
        omega
      have lead := Nat.mul_le_mul_left (10 ^ digits.length) digit
      rw [Nat.ofDigitChars_cons, Nat.ofDigitChars_eq_ofDigitChars_zero, List.length_cons,
        Nat.pow_succ, Nat.mul_zero, Nat.zero_add]
      omega

theorem isCallChar_digits {digits : Text} (all : digits.all Char.isDigit) :
    digits.all isCallChar :=
  List.all_eq_true.mpr fun c among => isCallChar_of_isDigit (List.all_eq_true.mp all c among)

theorem nodeCallOf_plain (fits : call.all isCallChar) : nodeCallOf numerals call = (call, 0) := by
  have solid : '-' ∉ call := fun among =>
    (isCallChar_plain (List.all_eq_true.mp fits _ among)).1 rfl
  simp only [nodeCallOf, if_neg solid, upper_call fits]

theorem nodeCallOf_number (fits : call.all isCallChar) {digits : Text} (some_ : digits ≠ [])
    (all : digits.all Char.isDigit) (short : digits.length ≤ Text.maxIntDigits) :
    nodeCallOf numerals (call ++ '-' :: digits) =
      (call, (Nat.ofDigitChars 10 digits 0 : Int)) := by
  have solid : ∀ c ∈ call, decide (c ≠ '-') = true := fun c among =>
    decide_eq_true (isCallChar_plain (List.all_eq_true.mp fits c among)).1
  have whole : Text.upper (call ++ '-' :: digits) = call ++ '-' :: digits := by
    have rear : Text.upper ('-' :: digits) = '-' :: digits := by
      rw [Text.upper, List.map_cons, ← Text.upper, upper_call (isCallChar_digits all)]
      rfl
    rw [Text.upper, List.map_append, ← Text.upper, ← Text.upper, upper_call fits, rear]
  have front : (call ++ '-' :: digits).takeWhile (· ≠ '-') = call := by
    rw [List.takeWhile_append_of_pos solid]
    simp
  have back : (call ++ '-' :: digits).dropWhile (· ≠ '-') = '-' :: digits := by
    rw [List.dropWhile_append_of_pos solid]
    simp
  simp only [nodeCallOf, whole, front, back, List.tail_cons,
    numerals.reads digits some_ all short]
  simp

theorem read_announce {packageVersion nodeCall : Text} {n : Nat}
    (plain : ∀ c ∈ packageVersion, c ≠ '-' ∧ c ≠ '$' ∧ c ≠ ']') (some_ : call ≠ [])
    (fits : call.all isCallChar) (short : n < 10 ^ Text.maxIntDigits)
    (node : nodeCallOf numerals nodeCall = (call, (n : Int))) :
    read numerals (announce numerals packageVersion nodeCall) =
      some ⟨call, n, ("pyBulletin" : Text) ++ packageVersion, ourFlags ++ ['$']⟩ := by
  have name : ∀ c ∈ ("pyBulletin" : Text), c ≠ '-' ∧ c ≠ '$' ∧ c ≠ ']' := by decide
  have software : ∀ c ∈ ("pyBulletin" : Text) ++ packageVersion, c ≠ '-' ∧ c ≠ '$' ∧ c ≠ ']' := by
    intro c among
    rcases List.mem_append.mp among with front | back
    · exact name c front
    · exact plain c back
  have fields : Fields call (("pyBulletin" : Text) ++ packageVersion) (ourFlags ++ ['$']) :=
    ⟨some_, fits, software, ourFlags, rfl, by decide⟩
  rw [← read_printed fields (shows_part numerals short)]
  congr 1
  simp only [announce, node, body]
  simp

theorem supportsB2f_of_flags {sid : Sid} (ours : sid.flags = ourFlags ++ ['$']) :
    sid.supportsB2f := by
  rw [supportsB2f, ours]
  decide

/-- Printing and parsing gives a SID back, and so does the announcement of a node.  `str` and `int`
stop at numbers of `Text.maxIntDigits` digits. -/
theorem sid_round_trip (numerals : Numerals) :
    (∀ sid : Sid, sid.Regular → sid.ssid.natAbs < 10 ^ Text.maxIntDigits →
      ∃ text, sid.str = some text ∧ read numerals text = some sid) ∧
    ∀ packageVersion call : Text, (∀ c ∈ packageVersion, c ≠ '-' ∧ c ≠ '$' ∧ c ≠ ']') →
      call ≠ [] → call.all isCallChar →
        (∃ sid, read numerals (announce numerals packageVersion call) = some sid ∧
          sid.call = call ∧ sid.ssid = 0 ∧ sid.supportsB2f) ∧
        ∀ digits : Text, digits ≠ [] → digits.all Char.isDigit →
          digits.length ≤ Text.maxIntDigits →
          ∃ sid, read numerals (announce numerals packageVersion (call ++ '-' :: digits)) =
              some sid ∧ sid.call = call ∧ sid.ssid = Nat.ofDigitChars 10 digits 0 ∧
            sid.supportsB2f := by
  constructor
  · intro sid regular short
    exact read_str numerals regular short
  · intro packageVersion call plain some_ fits
    constructor
    · have none_ : (0 : Nat) < 10 ^ Text.maxIntDigits := Nat.pow_pos (by decide)
      exact ⟨_, read_announce plain some_ fits none_ (nodeCallOf_plain fits), rfl, rfl,
        supportsB2f_of_flags rfl⟩
    · intro digits number all short
      have bound : Nat.ofDigitChars 10 digits 0 < 10 ^ Text.maxIntDigits :=
        Nat.lt_of_lt_of_le (ofDigitChars_lt all) (Nat.pow_le_pow_right (by decide) short)
      exact ⟨_, read_announce plain some_ fits bound (nodeCallOf_number fits number all short),
        rfl, rfl, supportsB2f_of_flags rfl⟩

/-- The SID of W3BBS-7 without software, and the announcement of W3BBS-7. -/
theorem w3bbs_round_trip :
    (∃ text, str ⟨"W3BBS", 7, [], "B2FHM$"⟩ = some text ∧
      read asciiNumerals text = some ⟨"W3BBS", 7, [], "B2FHM$"⟩) ∧
    ∃ sid, read asciiNumerals (announce asciiNumerals version "W3BBS-7") = some sid ∧
      sid.call = "W3BBS" ∧ sid.ssid = 7 ∧ sid.supportsB2f := by
  have regular : Regular ⟨"W3BBS", 7, [], "B2FHM$"⟩ :=
    { some_ := by decide
      call := by decide
      software := by decide
      flags := ⟨("B2FHM" : Text), rfl, by decide⟩
      ssid := by decide }
  have short : (7 : Int).natAbs < 10 ^ Text.maxIntDigits :=
    Nat.lt_of_lt_of_le (by decide : 7 < 10 ^ 1) (Nat.pow_le_pow_right (by decide) (by decide))
  have both := sid_round_trip asciiNumerals
  exact ⟨both.1 _ regular short,
    (both.2 version "W3BBS" (by decide) (by decide) (by decide)).2 "7" (by decide) (by decide)
      (by decide)⟩

/-- A regular SID with an SSID of too many digits cannot be printed. -/
theorem endless_ssid_unprinted :
    ∃ sid : Sid, sid.Regular ∧ sid.str = none := by
  have long : Text.maxIntDigits < (Nat.toDigits 10 (10 ^ Text.maxIntDigits)).length :=
    Nat.lt_of_not_le fun short => Nat.lt_irrefl _
      ((Nat.length_toDigits_le_iff (by decide) (by decide)).mp short)
  have some_ : ((10 ^ Text.maxIntDigits : Nat) : Int) ≠ 0 :=
    Int.natCast_ne_zero.mpr (Nat.ne_of_gt (Nat.pow_pos (by decide)))
  refine ⟨⟨"W3BBS", (10 ^ Text.maxIntDigits : Nat), [], "$"⟩, ?_, ?_⟩
  · exact {
      some_ := by decide
      call := by decide
      software := by decide
      flags := ⟨[], rfl, rfl⟩
      ssid := Int.natCast_nonneg _ }
  · simp only [str, strInt, Int.natAbs_natCast, if_pos long, if_neg some_]
    rfl

end PyBulletin.Forward.Sid
