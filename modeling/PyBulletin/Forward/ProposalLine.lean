import PyBulletin.Foundation.Lines
import PyBulletin.Forward.Proposal

set_option autoImplicit false

namespace PyBulletin.Forward

open PyBulletin.Foundation
open PyBulletin.Store

/-! # Proposal lines of stored messages

The fields of a proposal stand between blanks.  A field that holds a blank itself moves all fields
behind it.
-/

/-- `str.upper` and `int`, which also know the letters and digits of other scripts. -/
structure Scripts where
  upper : Char → Text
  int : Text → Option Int
  letters : ∀ c, upper c ≠ []
  solid : ∀ c, Text.isSpace c = false → ∀ d ∈ upper c, Text.isSpace d = false
  fixed : ∀ c, ∀ d ∈ upper c, upper d = [d]
  numeral : ∀ n : Nat, int (Nat.toDigits 10 n) =
    if Text.maxIntDigits < (Nat.toDigits 10 n).length then none else some (n : Int)

namespace Scripts

variable (scripts : Scripts)

def upperText (text : Text) : Text := text.flatMap scripts.upper

/-- `parse_proposal`, for any script. -/
def readProposal (line : Text) : Option Proposal :=
  let line := Text.strip line
  if ¬ (("FB " : Text).isPrefixOf line ∨ ("FA " : Text).isPrefixOf line) then none
  else
    match Text.splitMax 5 (line.drop 3) with
    | toCall :: fromCall :: bid :: size :: rest =>
        (scripts.int size).map fun size =>
          { toCall := scripts.upperText toCall
            fromCall := scripts.upperText fromCall
            bid
            size
            date := rest.headD ""
            subject := rest.tail.headD "" }
    | _ => none

/-- ASCII texts have no other letters and digits. -/
def ascii : Scripts where
  upper c := [c.toUpper]
  int := Text.parseInt
  letters := by simp
  solid := by
    intro c visible d same
    rw [List.mem_singleton.mp same]
    exact (Text.isSpace_toUpper c).trans visible
  fixed := by
    intro c d same
    rw [List.mem_singleton.mp same, Text.toUpper_toUpper]
  numeral := Text.parseInt_digits

theorem upperText_ascii (text : Text) : ascii.upperText text = Text.upper text := by
  rw [upperText, Text.upper]
  exact List.flatMap_pure_eq_map ..

theorem readProposal_ascii (line : Text) : ascii.readProposal line = parseProposal line := by
  simp only [readProposal, parseProposal, upperText_ascii]
  rfl

variable {scripts} {text : Text}

theorem upperText_of_fixed (fixed : ∀ c ∈ text, scripts.upper c = [c]) :
    scripts.upperText text = text := by
  rw [upperText]
  induction text with
  | nil => rfl
  | cons c text ih =>
      rw [List.flatMap_cons, fixed c List.mem_cons_self,
        ih fun d listed => fixed d (List.mem_cons_of_mem c listed), List.singleton_append]

theorem oneWord_upperText (single : Text.OneWord text) :
    Text.OneWord (scripts.upperText text) := by
  obtain ⟨some_, solid⟩ := Text.oneWord_iff.mp single
  refine Text.oneWord_iff.mpr ⟨?_, fun d listed => ?_⟩
  · cases text with
    | nil => exact absurd rfl some_
    | cons c text =>
        rw [upperText, List.flatMap_cons]
        exact List.append_ne_nil_of_left_ne_nil (scripts.letters c) _
  · obtain ⟨c, among, letter⟩ := List.mem_flatMap.mp listed
    exact scripts.solid c (solid c among) d letter

end Scripts

theorem splitWord_word {text word : Text} {rest : Option Text}
    (split : Text.splitWord text = some (word, rest)) : Text.OneWord word := by
  have front {first : Char} {others : Text}
      (begins : text.dropWhile Text.isSpace = first :: others) :
      Text.OneWord ((first :: others).takeWhile (¬ Text.isSpace ·)) := by
    have visible : Text.isSpace first = false := by
      have head := List.head?_dropWhile_not Text.isSpace text
      rw [begins, List.head?_cons] at head
      simpa using head
    refine Text.oneWord_iff.mpr ⟨?_, fun c listed => ?_⟩
    · rw [List.takeWhile_cons_of_pos (by simp [visible])]
      exact List.cons_ne_nil _ _
    · simpa using List.mem_takeWhile_imp listed
  rw [Text.splitWord] at split
  cases begins : text.dropWhile Text.isSpace with
  | nil =>
      rw [begins] at split
      cases split
  | cons first others =>
      rw [begins] at split
      dsimp only at split
      split at split <;>
      · cases split
        exact front begins

/-- The parts in front of the last are words. -/
theorem splitMax_words {n : Nat} {text : Text} {parts : List Text}
    (split : Text.splitMax n text = parts) : ∀ part ∈ parts.take n, Text.OneWord part := by
  subst split
  induction n generalizing text with
  | zero => simp
  | succ n ih =>
      rw [Text.splitMax]
      split
      · simp
      · rename_i word first
        simpa using splitWord_word first
      · rename_i word rest first
        intro part listed
        rcases List.mem_cons.mp listed with rfl | among
        · exact splitWord_word first
        · exact ih part among

/-- What `insert_message` stores of a message whose BID and sender have no blanks. -/
structure Stored (scripts : Scripts) (row : Row) : Prop where
  toCall : scripts.upperText row.toCall = row.toCall
  fromCall : scripts.upperText row.fromCall = row.fromCall
  sender : ∀ c ∈ row.fromCall, Text.isSpace c = false
  bid : ∀ c ∈ row.bid, Text.isSpace c = false

/-- The proposal is one line, and is read as a proposal of the same message. -/
structure Carries (scripts : Scripts) (breaks : Char → Bool) (now : DateTime) (row : Row)
    (binary : Bool) : Prop where
  line : ∀ c ∈ formatProposal now row binary, breaks c = false
  read : ∃ proposal, scripts.readProposal (formatProposal now row binary) = some proposal ∧
    proposal.toCall = row.toCall ∧ proposal.fromCall = row.fromCall ∧ proposal.bid = row.bid ∧
      proposal.size = row.size

structure Transmissible (breaks : Char → Bool) (row : Row) : Prop where
  toCall : Text.OneWord row.toCall
  fromCall : row.fromCall ≠ []
  bid : row.bid ≠ []
  subject : ∀ c ∈ row.subject, breaks c = false
  size : (Nat.toDigits 10 row.size).length ≤ Text.maxIntDigits

variable {scripts : Scripts} {row : Row} {now : DateTime} {binary : Bool} {breaks : Char → Bool}

theorem stored_inserted (store : BBSStore) (msg : Message) (status : Text)
    (sender : ∀ c ∈ msg.fromCall, Text.isSpace c = false)
    (bid : ∀ c ∈ msg.bid, Text.isSpace c = false) :
    Stored .ascii (store.inserted msg status) where
  toCall := (Scripts.upperText_ascii _).trans (Text.upper_upper msg.toCall)
  fromCall := (Scripts.upperText_ascii _).trans (Text.upper_upper msg.fromCall)
  sender := by
    intro c listed
    obtain ⟨d, among, rfl⟩ := List.mem_map.mp listed
    exact (Text.isSpace_toUpper d).trans (sender d among)
  bid

theorem readProposal_words {line : Text} {proposal : Proposal}
    (read : scripts.readProposal line = some proposal) :
    Text.OneWord proposal.toCall ∧ Text.OneWord proposal.fromCall ∧
      Text.OneWord proposal.bid := by
  simp only [Scripts.readProposal] at read
  split at read
  · cases read
  · split at read
    · rename_i toCall fromCall bid size rest parts
      obtain ⟨number, _, rfl⟩ := Option.map_eq_some_iff.mp read
      have words := splitMax_words parts
      exact ⟨Scripts.oneWord_upperText (words toCall (by simp)),
        Scripts.oneWord_upperText (words fromCall (by simp)), words bid (by simp)⟩
    · cases read

theorem oneWord_padded (width n : Nat) : Text.OneWord (DateTime.padded width n) := by
  refine Text.oneWord_iff.mpr ⟨?_, fun c listed => ?_⟩
  · exact List.append_ne_nil_of_right_ne_nil _ Nat.toDigits_ne_nil
  · rcases List.mem_append.mp listed with filling | digit
    · rw [List.eq_of_mem_replicate filling]
      decide
    · exact (Text.digit_plain (Text.digit_bounds digit)).1

theorem splitMax_pair {word next : Text} (single : Text.OneWord word) (other : Text.OneWord next)
    (n : Nat) (text : Text) :
    Text.splitMax (n + 1) (word ++ ' ' :: (next ++ text)) =
      word :: Text.splitMax n (next ++ text) := by
  obtain ⟨some_, solid⟩ := Text.oneWord_iff.mp other
  cases next with
  | nil => exact absurd rfl some_
  | cons c next =>
      exact Text.splitMax_word single (solid c List.mem_cons_self) n (next ++ text)

/-- A proposal whose fields are words is read as these words. -/
theorem readProposal_format (toCall : Text.OneWord row.toCall)
    (fromCall : Text.OneWord row.fromCall) (bid : Text.OneWord row.bid) :
    ∃ date subject : Text, scripts.readProposal (formatProposal now row binary) =
      (scripts.int (Nat.toDigits 10 row.size)).map fun size =>
        { toCall := scripts.upperText row.toCall
          fromCall := scripts.upperText row.fromCall
          bid := row.bid
          size
          date
          subject } := by
  obtain ⟨year, tail, dated, begins⟩ : ∃ year tail,
      (row.createdAt.getD now).format = year ++ tail ∧ Text.OneWord year :=
    ⟨_, _, by simp only [DateTime.format, List.append_assoc]; rfl, oneWord_padded 4 _⟩
  obtain ⟨c, letter⟩ : ∃ c, c = if binary then 'B' else 'A' := ⟨_, rfl⟩
  obtain ⟨last, digits, shape⟩ : ∃ last digits, year = digits ++ [last] :=
    ⟨_, _, (List.dropLast_append_getLast begins.1).symm⟩
  have visible : Text.isSpace last = false :=
    (Text.oneWord_iff.mp begins).2 last (by simp [shape])
  let front : Text := row.toCall ++ ' ' :: (row.fromCall ++ ' ' :: (row.bid ++
    ' ' :: (Nat.toDigits 10 row.size ++ ' ' :: digits)))
  have whole : formatProposal now row binary =
      'F' :: (c :: ' ' :: front ++ last :: (tail ++ ' ' :: row.subject)) := by
    simp only [formatProposal, dated, shape, front, letter]
    cases binary <;> simp
  have stripped : Text.strip (formatProposal now row binary) =
      'F' :: c :: ' ' :: (front ++ last :: (tail ++ ' ' :: row.subject).rdropWhile Text.isSpace) := by
    rw [whole, Text.strip_visible (by decide), ← List.cons_append, Text.rdropWhile_keep visible]
    simp
  generalize (tail ++ ' ' :: row.subject).rdropWhile Text.isSpace = rest at stripped
  have kind : ("FB " : Text).isPrefixOf (Text.strip (formatProposal now row binary)) ∨
      ("FA " : Text).isPrefixOf (Text.strip (formatProposal now row binary)) := by
    rw [stripped, letter]
    cases binary <;> simp [List.isPrefixOf]
  have parts : Text.splitMax 5 ((Text.strip (formatProposal now row binary)).drop 3) =
      row.toCall :: row.fromCall :: row.bid :: Nat.toDigits 10 row.size ::
        Text.splitMax 1 (year ++ rest) := by
    rw [stripped, shape]
    have joined : front ++ last :: rest = row.toCall ++ ' ' :: (row.fromCall ++ ' ' :: (row.bid ++
        ' ' :: (Nat.toDigits 10 row.size ++ ' ' :: (year ++ rest)))) := by
      simp [front, shape]
    simp only [List.drop_succ_cons, List.drop_zero]
    rw [joined, splitMax_pair toCall fromCall, splitMax_pair fromCall bid,
      splitMax_pair bid (Text.oneWord_digits _), splitMax_pair (Text.oneWord_digits _) begins, shape]
  simp only [Scripts.readProposal, if_neg (not_not.mpr kind), parts]
  exact ⟨_, _, rfl⟩

theorem oneWord_of_solid {text : Text} (some_ : text ≠ [])
    (solid : ∀ c ∈ text, Text.isSpace c = false) : Text.OneWord text :=
  Text.oneWord_iff.mpr ⟨some_, solid⟩

theorem mem_format {date : DateTime} {c : Char} (listed : c ∈ date.format) :
    Text.isSpace c = false ∨ c = ' ' := by
  have padded {width n : Nat} (among : c ∈ DateTime.padded width n) : Text.isSpace c = false :=
    (Text.oneWord_iff.mp (oneWord_padded width n)).2 c among
  simp only [DateTime.format, List.mem_append, List.mem_singleton] at listed
  rcases listed with
    (((((((among | rfl) | among) | rfl) | among) | among) | among) | rfl) | among
  all_goals first
    | exact .inl (padded among)
    | exact .inr among
    | exact .inl (by decide)

theorem mem_formatProposal (toCall : Text.OneWord row.toCall)
    (fromCall : Text.OneWord row.fromCall) (bid : Text.OneWord row.bid) {c : Char}
    (listed : c ∈ formatProposal now row binary) :
    Text.isSpace c = false ∨ c = ' ' ∨ c ∈ row.subject := by
  have word {text : Text} (single : Text.OneWord text) (among : c ∈ text) :
      Text.isSpace c = false := (Text.oneWord_iff.mp single).2 c among
  have kind : Text.OneWord (if binary then "FB" else "FA" : Text) := by cases binary <;> decide
  simp only [formatProposal, List.mem_append, List.mem_singleton] at listed
  rcases listed with
    (((((((((((type | blank) | receiver) | blank) | sender) | blank) | id) | blank) | size) | blank) |
      date) | blank) | subject
  · exact .inl (word kind type)
  · exact .inr (.inl blank)
  · exact .inl (word toCall receiver)
  · exact .inr (.inl blank)
  · exact .inl (word fromCall sender)
  · exact .inr (.inl blank)
  · exact .inl (word bid id)
  · exact .inr (.inl blank)
  · exact .inl (word (Text.oneWord_digits _) size)
  · exact .inr (.inl blank)
  · exact (mem_format date).imp_right .inl
  · exact .inr (.inl blank)
  · exact .inr (.inr subject)

/-- A proposal carries its message exactly when the receiver is one word and the subject one
line.  The characters of `breaks` end a line. -/
theorem carries_iff (blank : ∀ c, breaks c → Text.isSpace c ∧ c ≠ ' ') (stored : Stored scripts row)
    (now : DateTime) (binary : Bool) :
    Carries scripts breaks now row binary ↔ Transmissible breaks row := by
  constructor
  · rintro ⟨line, proposal, read, toCall, fromCall, bid, -⟩
    have words := readProposal_words read
    rw [toCall, fromCall, bid] at words
    obtain ⟨toWord, fromWord, bidWord⟩ := words
    refine ⟨toWord, fromWord.1, bidWord.1, fun c listed => line c ?_, ?_⟩
    · exact List.mem_append_right _ listed
    · obtain ⟨date, subject, parsed⟩ := @readProposal_format scripts row now binary toWord fromWord
        bidWord
      rw [parsed, scripts.numeral] at read
      by_contra long
      rw [if_pos (Nat.lt_of_not_le long)] at read
      cases read
  · intro transmissible
    have fromWord := oneWord_of_solid transmissible.fromCall stored.sender
    have bidWord := oneWord_of_solid transmissible.bid stored.bid
    refine ⟨fun c listed => ?_, ?_⟩
    · rcases mem_formatProposal transmissible.toCall fromWord bidWord listed with
        visible | rfl | among
      · by_contra ends
        rw [(blank c (by simpa using ends)).1] at visible
        cases visible
      · by_contra ends
        exact (blank ' ' (by simpa using ends)).2 rfl
      · exact transmissible.subject c among
    · obtain ⟨date, subject, parsed⟩ := @readProposal_format scripts row now binary
        transmissible.toCall fromWord bidWord
      rw [parsed, scripts.numeral, if_neg (Nat.not_lt.mpr transmissible.size)]
      exact ⟨_, rfl, stored.toCall, stored.fromCall, rfl, rfl⟩

private def leapNoon : DateTime := ⟨2024, 2, 29, 12, 0, 0⟩

/-- The row of a message to a text that was typed in, with its subject. -/
private def typed (toArg subject : Text) : Row :=
  BBSStore.empty.inserted
    { bid := "KB3XYZ240229"
      msgType := msgPrivate
      fromCall := "KB3XYZ"
      toCall := Text.upper (Text.strip toArg)
      atBbs := "N0BBS"
      subject := Text.strip subject
      body := "Hello"
      createdAt := some leapNoon } statusNew

private theorem typed_stored (toArg subject : Text) : Stored .ascii (typed toArg subject) :=
  stored_inserted _ _ _ (by simp only; decide) (by simp only; decide)

private theorem lineFeed_blank : ∀ c, decide (c = '\n') → Text.isSpace c ∧ c ≠ ' ' := by
  intro c feed
  rw [of_decide_eq_true feed]
  decide

theorem typed_carries : Carries .ascii (· = '\n') leapNoon (typed "n0aaa" "Hello") true :=
  (carries_iff lineFeed_blank (typed_stored _ _) leapNoon true).mpr
    { toCall := by decide
      fromCall := by decide
      bid := by decide
      subject := by decide
      size := by decide }

/-- A receiver of two words takes the place of the sender, and a subject of two lines makes two
lines of the proposal. -/
theorem typed_misread :
    (Stored .ascii (typed "n0aaa n0bbb" "Hello") ∧
        ¬ Carries .ascii (· = '\n') leapNoon (typed "n0aaa n0bbb" "Hello") true) ∧
      Stored .ascii (typed "n0aaa" "Hello\nFF") ∧
        ¬ Carries .ascii (· = '\n') leapNoon (typed "n0aaa" "Hello\nFF") true := by
  refine ⟨⟨typed_stored _ _, ?_⟩, typed_stored _ _, ?_⟩
  · intro carries
    obtain ⟨proposal, read, -⟩ := carries.read
    have unread : parseProposal (formatProposal leapNoon (typed "n0aaa n0bbb" "Hello") true) = none := by
      decide +kernel
    rw [Scripts.readProposal_ascii, unread] at read
    cases read
  · intro carries
    have ends : '\n' ∈ formatProposal leapNoon (typed "n0aaa" "Hello\nFF") true := by decide +kernel
    exact absurd (carries.line '\n' ends) (by decide)

end PyBulletin.Forward
