import PyBulletin.Foundation.Pattern

set_option autoImplicit false

namespace PyBulletin.Forward

open PyBulletin.Foundation

def version : Text := "1.0.0"
def ourFlags : Text := "B2FHM"

structure Sid where
  call : Text
  ssid : Int
  software : Text
  flags : Text

namespace Sid

def supportsB2f (sid : Sid) : Bool := '2' ∈ sid.flags ∨ 'B' ∈ sid.flags

/-- `[A-Z0-9]` -/
def isCallChar (c : Char) : Bool := ('A' ≤ c ∧ c ≤ 'Z') ∨ c.isDigit

/-- `[A-Z0-9]+-?\d*` -/
def callPattern : Pattern :=
  .seq (.plus isCallChar) (.seq (.opt (.literal '-')) (.star Char.isDigit))

/-- `(?:-(\d+))?` -/
def ssidPattern : Pattern := .opt (.seq (.literal '-') (.plus Char.isDigit))

/-- `[^-\$\]]*` -/
def softwarePattern : Pattern := .star fun c => c ≠ '-' ∧ c ≠ '$' ∧ c ≠ ']'

/-- `[A-Z0-9\$]*\$` -/
def flagsPattern : Pattern :=
  .seq (.star fun c => isCallChar c ∨ c = '$') (.literal '$')

/-- What `_SID_RE` matches behind the call: the matched `(?:-(\d+))?`, the software and
the flags. -/
def matchTail (text : Text) : List (Text × Text × Text) :=
  (ssidPattern text).flatMap fun (ssid, rest) =>
    (Pattern.literal '-' rest).flatMap fun (_, rest) =>
      (softwarePattern rest).flatMap fun (software, rest) =>
        (Pattern.literal '-' rest).flatMap fun (_, rest) =>
          (flagsPattern rest).flatMap fun (flags, rest) =>
            (Pattern.literal ']' rest).map fun _ => (ssid, software, flags)

/-- Every match of `_SID_RE` at the start of the text, the one taken first. -/
def matchSid (text : Text) : List (Text × Text × Text × Text) :=
  (Pattern.literal '[' text).flatMap fun (_, rest) =>
    (callPattern rest).flatMap fun (call, rest) =>
      (matchTail rest).map fun tail => (call, tail)

/-- `_SID_RE.search`. -/
def search : Text → Option (Text × Text × Text × Text)
  | [] => none
  | c :: rest => (matchSid (c :: rest)).head?.or (search rest)

/-- The callsign and the SSID of the first group. -/
def splitCall (rawCall : Text) : Text × Int :=
  if '-' ∈ rawCall then
    let (call, ssid) := Text.splitLast '-' rawCall
    match Text.parseInt ssid with
    | some ssid => (call, ssid)
    | none => (rawCall, 0)
  else (rawCall, 0)

/-- `parse`. -/
def parse (text : Text) : Option Sid :=
  (search text).map fun (rawCall, group, software, flags) =>
    let (call, ssid) := splitCall rawCall
    { call := Text.upper call
      ssid := (Text.parseInt group.tail).getD ssid
      software
      flags }

/-- `str(n)`. -/
def formatInt (n : Int) : Text :=
  if n < 0 then '-' :: Nat.toDigits 10 n.natAbs else Nat.toDigits 10 n.natAbs

/-- The callsign and the SSID of `node_call`, as `generate` reads them. -/
def ownCall (nodeCall : Text) : Text × Int :=
  let upper := Text.upper nodeCall
  if '-' ∈ nodeCall then
    match Text.parseInt (upper.dropWhile (· ≠ '-')).tail with
    | some ssid => (upper.takeWhile (· ≠ '-'), ssid)
    | none => (upper, 0)
  else (upper, 0)

/-- `generate`. -/
def generate (nodeCall : Text) : Text :=
  let (call, ssid) := ownCall nodeCall
  let ssidPart : Text := if ssid = 0 then [] else '-' :: formatInt ssid
  ['['] ++ call ++ ssidPart ++ ("-pyBulletin" : Text) ++ version ++ ['-'] ++ ourFlags ++ "$]"

theorem isDigit_bounds {c : Char} (digit : c.isDigit) : 48 ≤ c.toNat ∧ c.toNat ≤ 57 := by
  simp only [Char.isDigit, Bool.and_eq_true, decide_eq_true_eq] at digit
  exact ⟨digit.1, digit.2⟩

theorem isCallChar_bounds {c : Char} (fits : isCallChar c) :
    65 ≤ c.toNat ∧ c.toNat ≤ 90 ∨ 48 ≤ c.toNat ∧ c.toNat ≤ 57 := by
  rw [isCallChar, decide_eq_true_eq] at fits
  exact fits.imp (fun ⟨low, high⟩ => ⟨low, high⟩) isDigit_bounds

theorem isSpace_of_isCallChar {c : Char} (fits : isCallChar c) : Text.isSpace c = false := by
  have bounds := isCallChar_bounds fits
  simp only [Text.isSpace, decide_eq_false_iff_not]
  omega

theorem isCallChar_of_isDigit {c : Char} (digit : c.isDigit) : isCallChar c := by
  simp [isCallChar, digit]

/-- A first group of `_SID_RE`. -/
theorem callPattern_sound {text rawCall rest : Text} (listed : (rawCall, rest) ∈ callPattern text) :
    ∃ run tail, rawCall = run ++ tail ∧ run ≠ [] ∧ run.all isCallChar ∧
      (tail.all Char.isDigit ∨ ∃ digits : Text, tail = '-' :: digits ∧ digits.all Char.isDigit) := by
  obtain ⟨run, left, tail, begins, goesOn, rfl⟩ := Pattern.seq_sound listed
  obtain ⟨fits, some_⟩ := Pattern.plus_sound _ begins
  obtain ⟨dash, after, digits, maybe, behind, rfl⟩ := Pattern.seq_sound goesOn
  have numbers := Pattern.star_sound _ behind
  refine ⟨run, dash ++ digits, rfl, some_, fits, ?_⟩
  rcases Pattern.opt_sound maybe with taken | rfl
  · rw [Pattern.literal_sound taken]
    exact .inr ⟨digits, rfl, numbers⟩
  · exact .inl numbers

theorem splitCall_word {run tail : Text} (some_ : run ≠ []) (fits : run.all isCallChar)
    (ends : tail.all Char.isDigit ∨
      ∃ digits : Text, tail = '-' :: digits ∧ digits.all Char.isDigit) :
    Text.OneWord (splitCall (run ++ tail)).1 := by
  have solid : ∀ c ∈ run, Text.isSpace c = false := fun c listed =>
    isSpace_of_isCallChar (List.all_eq_true.mp fits c listed)
  have number {digits : Text} (numbers : digits.all Char.isDigit) :
      ∀ c ∈ digits, Text.isSpace c = false := fun c listed =>
    isSpace_of_isCallChar (isCallChar_of_isDigit (List.all_eq_true.mp numbers c listed))
  have whole : Text.OneWord (run ++ tail) := by
    refine Text.oneWord_iff.mpr ⟨by simp [some_], fun c listed => ?_⟩
    rcases List.mem_append.mp listed with front | back
    · exact solid c front
    · rcases ends with numbers | ⟨digits, rfl, numbers⟩
      · exact number numbers c back
      · rcases List.mem_cons.mp back with rfl | back
        · decide
        · exact number numbers c back
  have noDash {digits : Text} (numbers : digits.all Char.isDigit) : '-' ∉ digits := fun listed =>
    absurd (List.all_eq_true.mp numbers '-' listed) (by decide)
  rw [splitCall]
  split
  · rename_i dashed
    rcases ends with numbers | ⟨digits, rfl, numbers⟩
    · rcases List.mem_append.mp dashed with front | back
      · exact absurd (List.all_eq_true.mp fits '-' front) (by decide)
      · exact absurd back (noDash numbers)
    · rw [Text.splitLast_append (noDash numbers)]
      dsimp only
      split
      · exact Text.oneWord_iff.mpr ⟨some_, solid⟩
      · exact whole
  · exact whole

theorem search_sound {text : Text} {found : Text × Text × Text × Text}
    (matched : search text = some found) : ∃ behind, found ∈ matchSid behind := by
  induction text with
  | nil => cases matched
  | cons c rest ih =>
      rw [search] at matched
      rcases Option.or_eq_some_iff.mp matched with first | ⟨_, later⟩
      · exact ⟨c :: rest, List.mem_of_head? first⟩
      · exact ih later

/-- A parsed call is one word. -/
theorem parse_word {text : Text} {sid : Sid} (parsed : parse text = some sid) :
    Text.OneWord sid.call := by
  obtain ⟨⟨rawCall, group, software, flags⟩, matched, rfl⟩ := Option.map_eq_some_iff.mp parsed
  obtain ⟨behind, listed⟩ := search_sound matched
  simp only [matchSid, List.mem_flatMap, List.mem_map] at listed
  obtain ⟨_, _, ⟨call, rest⟩, called, tail, _, same⟩ := listed
  cases same
  obtain ⟨run, tail, rfl, some_, fits, ends⟩ := callPattern_sound called
  exact (splitCall_word some_ fits ends).upper

/-- A callsign without an SSID. -/
def Callsign (call : Text) : Prop := call ≠ [] ∧ (Text.upper call).all isCallChar

instance (call : Text) : Decidable (Callsign call) := inferInstanceAs (Decidable (_ ∧ _))

/-- What `generate` puts behind a callsign without an SSID. -/
def tailText : Text := "-pyBulletin1.0.0-B2FHM$]"

theorem generate_callsign {call : Text} (plain : Callsign call) :
    generate call = '[' :: Text.upper call ++ tailText := by
  have noDash : '-' ∉ call := by
    intro listed
    have upper : '-' ∈ Text.upper call := List.mem_map.mpr ⟨'-', listed, rfl⟩
    exact absurd (List.all_eq_true.mp plain.2 '-' upper) (by decide)
  simp only [generate, ownCall, if_neg noDash, if_true, List.append_nil, List.cons_append,
    List.nil_append, List.append_assoc]
  rfl

theorem callPattern_callsign {run : Text} (some_ : run ≠ []) (fits : run.all isCallChar) :
    ∃ others, callPattern (run ++ tailText) =
      (run ++ ['-'], tailText.tail) :: (run, tailText) :: others := by
  have ends : ∀ c ∈ tailText.head?, isCallChar c = false := by
    intro c listed
    cases listed
    decide
  obtain ⟨others, first⟩ := Pattern.plus_first isCallChar fits some_ ends
  have behind : Pattern.seq (.opt (.literal '-')) (.star Char.isDigit) tailText =
      [(['-'], tailText.tail), ([], tailText)] := by decide
  rw [callPattern, Pattern.seq, first, List.flatMap_cons]
  dsimp only
  rw [behind]
  simp only [List.map_cons, List.map_nil, List.append_nil, List.cons_append, List.nil_append]
  exact ⟨_, rfl⟩

/-- The groups of `_SID_RE` behind the first. -/
def tailGroups : Text × Text × Text := ([], "pyBulletin1.0.0", "B2FHM$")

/-- The dash behind a callsign belongs to the software. -/
theorem search_callsign {call : Text} (plain : Callsign call) :
    search (generate call) = some (Text.upper call, tailGroups) := by
  have some_ : Text.upper call ≠ [] := by simpa [Text.upper] using plain.1
  obtain ⟨others, called⟩ := callPattern_callsign some_ plain.2
  have dashed : matchTail tailText.tail = [] := by decide
  have tail : (matchTail tailText).head? = some tailGroups := by decide
  obtain ⟨more, tail⟩ := List.head?_eq_some_iff.mp tail
  have begins : Pattern.literal '[' ('[' :: (Text.upper call ++ tailText)) =
      [(['['], Text.upper call ++ tailText)] := rfl
  have first : (matchSid ('[' :: (Text.upper call ++ tailText))).head? =
      some (Text.upper call, tailGroups) := by
    rw [matchSid, begins, List.flatMap_cons, List.flatMap_nil, List.append_nil]
    dsimp only
    rw [called, List.flatMap_cons, List.flatMap_cons]
    dsimp only
    rw [dashed, tail]
    rfl
  rw [generate_callsign plain, List.cons_append, search, first]
  rfl

/-- The SID of a node without an SSID gives back its call. -/
theorem parse_generate {call : Text} (plain : Callsign call) :
    (parse (generate call)).map Sid.call = some (Text.upper call) := by
  have noDash : '-' ∉ Text.upper call := fun listed =>
    absurd (List.all_eq_true.mp plain.2 '-' listed) (by decide)
  rw [parse, search_callsign plain]
  simp only [Option.map_some, splitCall, if_neg noDash, Text.upper_upper]

/-- Lower and upper case make no difference to a SID. -/
theorem generate_upper (call : Text) : generate (Text.upper call) = generate call := by
  have same : ownCall (Text.upper call) = ownCall call := by
    simp only [ownCall, Text.upper_upper, Text.mem_upper (by decide : '-'.toNat < 65)]
  rw [generate, same]
  rfl

end Sid

end PyBulletin.Forward
