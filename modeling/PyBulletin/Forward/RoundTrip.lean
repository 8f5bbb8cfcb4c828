import PyBulletin.Forward.Envelope

set_option autoImplicit false

namespace PyBulletin.Forward

open PyBulletin.Foundation
open PyBulletin.Foundation.Text
open PyBulletin.Store

/-- One line of printable ASCII without blanks at its ends. -/
structure Plain (text : Text) : Prop where
  printable : text.all isPrintable
  stripped : strip text = text

/-- A message for which the envelope is to be read back. -/
structure Sendable (msg : Message) : Prop where
  bid : Plain msg.bid
  named : msg.bid ≠ []
  fromCall : Plain msg.fromCall ∧ upper msg.fromCall = msg.fromCall
  toCall : Plain msg.toCall ∧ upper msg.toCall = msg.toCall
  atBbs : Plain msg.atBbs ∧ upper msg.atBbs = msg.atBbs
  subject : Plain msg.subject
  msgType : msg.msgType = "P" ∨ msg.msgType = "B" ∨ msg.msgType = "T"
  body : linesOf isPrintable msg.body ∧ strip msg.body = msg.body

structure Restores (msg decoded : Message) : Prop where
  bid : decoded.bid = msg.bid
  msgType : decoded.msgType = msg.msgType
  fromCall : decoded.fromCall = msg.fromCall
  toCall : decoded.toCall = msg.toCall
  atBbs : decoded.atBbs = msg.atBbs
  subject : decoded.subject = msg.subject
  body : decoded.body = unixEnds msg.body

variable {now : DateTime} {msg : Message} {key text : Text}

theorem isAscii_of_printable (printable : text.all isPrintable) : isAscii text := by
  refine List.all_eq_true.mpr fun c listed => ?_
  have visible := List.all_eq_true.mp printable c listed
  simp only [isPrintable, Bool.decide_and, Bool.and_eq_true, decide_eq_true_eq] at visible ⊢
  omega

theorem plain_of_printable (printable : text.all isPrintable) :
    ∀ c ∈ text, isLineBreak c = false :=
  fun c listed => not_isLineBreak_of_isPrintable (List.all_eq_true.mp printable c listed)

theorem lineOf_printable (word : key.all isPrintable) (val : text.all isPrintable) :
    (lineOf key text).all isPrintable := by
  simp only [lineOf, List.all_append, List.all_cons, word, val]
  rfl

theorem digits_printable (n : Nat) : (Nat.toDigits 10 n).all isPrintable := by
  refine List.all_eq_true.mpr fun c listed => ?_
  have bounds := digit_bounds listed
  simp only [isPrintable, decide_eq_true_eq]
  omega

theorem padded_printable (width n : Nat) : (DateTime.padded width n).all isPrintable := by
  rw [DateTime.padded, List.all_append, digits_printable, Bool.and_true]
  refine List.all_eq_true.mpr fun c listed => ?_
  rw [List.eq_of_mem_replicate listed]
  rfl

theorem format_printable (date : DateTime) : date.format.all isPrintable := by
  simp only [DateTime.format, List.all_append, padded_printable, List.all_cons]
  rfl

theorem strip_at (val : Text) :
    strip (("@ " : Text) ++ val) = '@' :: (' ' :: val : Text).rdropWhile isSpace :=
  strip_first (by decide) (' ' :: val)

theorem not_isSeparator_at (val : Text) : isSeparator (("@ " : Text) ++ val) = false := by
  simp only [isSeparator, strip_at, decide_eq_false_iff_not, not_or]
  exact ⟨by simp, by simp⟩

theorem not_isSeparator_atLines : ∀ line ∈ atLines msg, isSeparator line = false := by
  intro line listed
  rw [atLines] at listed
  split at listed
  · cases listed
  · rw [List.mem_singleton.mp listed]
    exact not_isSeparator_at _

theorem atLines_plain (plain : ∀ c ∈ msg.atBbs, isLineBreak c = false) :
    ∀ line ∈ atLines msg, ∀ c ∈ line, isLineBreak c = false := by
  intro line listed c among
  rw [atLines] at listed
  split at listed
  · cases listed
  · rw [List.mem_singleton.mp listed] at among
    rcases List.mem_append.mp among with label | val
    · exact plain_of_printable (show (("@ " : Text).all isPrintable) from rfl) c label
    · exact plain c val

theorem strip_length (text : Text) : (strip text).length ≤ text.length := by
  have front := (List.dropWhile_suffix (l := text) isSpace).length_le
  have back := (List.rdropWhile_prefix isSpace (text.dropWhile isSpace)).length_le
  exact Nat.le_trans back front

/-- Where the line has a colon in it, its key begins with the `@` and its value is shorter
than what was written. -/
theorem readHeader_at {key val read : Text}
    (header : readHeader (("@ " : Text) ++ val) = some (key, read)) :
    key.head? = some '@' ∧ read.length < val.length := by
  rw [readHeader, strip_at] at header
  split at header
  case isFalse => cases header
  case isTrue colon =>
    simp only [partition, Option.some.injEq, Prod.mk.injEq] at header
    obtain ⟨rfl, rfl⟩ := header
    constructor
    · rw [List.takeWhile_cons_of_pos (by decide), strip_first (by decide)]
      rfl
    · have inside : ':' ∈ (' ' :: val : Text).rdropWhile isSpace := by simpa using colon
      obtain ⟨more, cut⟩ := List.rdropWhile_prefix isSpace (' ' :: val : Text)
      cases found : (' ' :: val : Text).rdropWhile isSpace with
      | nil => simp [found] at inside
      | cons c others =>
          rw [found, List.cons_append, List.cons.injEq] at cut
          obtain ⟨rfl, rest⟩ := cut
          rw [found] at inside
          have listed : ':' ∈ others := by simpa using inside
          have left : others.dropWhile (· ≠ ':') ≠ [] := by
            intro nothing
            have all := List.dropWhile_eq_nil_iff.mp nothing ':' listed
            simp at all
          have short := (List.dropWhile_suffix (l := others) (· ≠ ':')).length_le
          have whole := congrArg List.length rest
          have filled := List.length_pos_of_ne_nil left
          have stripped := strip_length (others.dropWhile (· ≠ ':')).tail
          rw [List.length_append] at whole
          rw [List.length_tail] at stripped
          rw [List.dropWhile_cons_of_pos (by decide), List.dropWhile_cons_of_pos (by decide)]
          omega

theorem get_atLines {key : Text} (other : key.head? ≠ some '@') :
    (headersOf (atLines msg)).get key = none := by
  rw [atLines]
  split
  · rfl
  · rw [headersOf_singleton]
    cases header : readHeader (("@ " : Text) ++ msg.atBbs) with
    | none => rfl
    | some read =>
        obtain ⟨written, val⟩ := read
        have begins := (readHeader_at header).1
        have differs : key ≠ written := fun same => other (same ▸ begins)
        rw [Option.toList_some, Headers.get_single, if_neg differs]

/-- The line loses a character at least. -/
theorem get_at_shorter (some_ : msg.atBbs ≠ []) (key : Text) :
    (((headersOf (atLines msg)).get key).getD []).length < msg.atBbs.length := by
  rw [atLines, if_neg some_, headersOf_singleton]
  have long := List.length_pos_of_ne_nil some_
  cases header : readHeader (("@ " : Text) ++ msg.atBbs) with
  | none => exact long
  | some read =>
      obtain ⟨written, val⟩ := read
      have short := (readHeader_at header).2
      rw [Option.toList_some, Headers.get_single]
      split
      · exact short
      · exact long

theorem Sendable.printable (sendable : Sendable msg) :
    ∀ line ∈ envelopeHead now msg, line.all isPrintable := by
  intro line listed
  have type_ : msg.msgType.all isPrintable := by
    rcases sendable.msgType with same | same | same <;> rw [same] <;> rfl
  have field : ∀ {key val : Text}, key.all isPrintable → val.all isPrintable →
      (lineOf key val).all isPrintable := lineOf_printable
  simp only [envelopeHead, atLines, List.mem_append, List.mem_cons, List.not_mem_nil, or_false]
    at listed
  rcases listed with ((rfl | rfl | rfl | rfl) | at_) | rfl | rfl
  · exact field rfl sendable.bid.printable
  · exact field rfl (format_printable _)
  · exact field rfl sendable.fromCall.1.printable
  · exact field rfl sendable.toCall.1.printable
  · split at at_
    · cases at_
    · rw [List.mem_singleton.mp at_, List.all_append, sendable.atBbs.1.printable]
      rfl
  · exact field rfl sendable.subject.printable
  · exact field rfl type_

theorem not_isSeparator_envelopeHead :
    ∀ line ∈ envelopeHead now msg ++ [bodyLine msg], isSeparator line = false := by
  intro line listed
  simp only [envelopeHead, bodyLine, List.mem_append, List.mem_cons, List.not_mem_nil, or_false]
    at listed
  rcases listed with (((rfl | rfl | rfl | rfl) | at_) | rfl | rfl) | rfl
  · exact not_isSeparator_field (by decide) _
  · exact not_isSeparator_field (by decide) _
  · exact not_isSeparator_field (by decide) _
  · exact not_isSeparator_field (by decide) _
  · exact not_isSeparator_atLines line at_
  · exact not_isSeparator_field (by decide) _
  · exact not_isSeparator_field (by decide) _
  · exact not_isSeparator_field (by decide) _

/-- The headers of an envelope. -/
theorem headersOf_envelopeHead (now : DateTime) (msg : Message) :
    headersOf (envelopeHead now msg ++ [bodyLine msg]) =
      ([("body", strip (Nat.toDigits 10 msg.body.length)), ("type", strip msg.msgType),
          ("subject", strip msg.subject)] : Headers) ++ headersOf (atLines msg) ++
        ([("to", strip msg.toCall), ("from", strip msg.fromCall),
          ("date", strip (msg.createdAt.getD now).format), ("mid", strip msg.bid)] : Headers) := by
  rw [envelopeHead, bodyLine, List.append_assoc, List.append_assoc, headersOf_append,
    headersOf_append]
  simp (disch := decide) only [headersOf_cons, readHeader_field, List.cons_append, List.nil_append]
  rfl

theorem isLineBreak_of_visible {c : Char} (visible : isSpace c = false) : isLineBreak c = false := by
  by_contra breaks
  rw [isSpace_of_isLineBreak (by simpa using breaks)] at visible
  cases visible

/-- The lines of a body without blank ends. -/
theorem join_body {body : Text} (lined : linesOf isPrintable body) (stripped : strip body = body)
    (some_ : body ≠ []) : (['\n'] : Text).intercalate (splitLines body) = unixEnds body := by
  have plain : linesOf (fun c => !isLineBreak c) body :=
    linesOf_mono (fun c visible => by simpa using not_isLineBreak_of_isPrintable visible) lined
  obtain ⟨front, last, rfl⟩ := (List.eq_nil_or_concat' body).resolve_left some_
  rw [← join_splitLines plain, splitLines_ended (isLineBreak_of_visible (last_visible stripped))]

theorem strip_unixEnds {body : Text} (stripped : strip body = body) :
    strip (unixEnds body) = unixEnds body := by
  cases body with
  | nil => rfl
  | cons first body =>
      have begins := first_visible stripped
      have firstKept : first ≠ '\r' := by rintro rfl; exact absurd begins (by decide)
      obtain ⟨front, last, shape⟩ := (List.eq_nil_or_concat' (first :: body)).resolve_left (by simp)
      have ends := last_visible (shape ▸ stripped)
      have lastKept : last ≠ '\n' := by rintro rfl; exact absurd ends (by decide)
      refine strip_eq_self_iff.mpr ⟨?_, ?_⟩
      · rw [unixEnds_first firstKept, List.dropWhile_cons_of_neg (by simp [begins])]
      · rw [shape, unixEnds_concat lastKept, List.rdropWhile_concat_neg _ _ _ (by simp [ends])]

theorem isAscii_of_lined {body : Text} (lined : linesOf isPrintable body) : isAscii body := by
  refine List.all_eq_true.mpr fun c listed => ?_
  rcases linesOf_mem lined listed with rfl | rfl | visible
  · decide
  · decide
  · simp only [isPrintable, Bool.decide_and, Bool.and_eq_true, decide_eq_true_eq] at visible ⊢
    omega

theorem Sendable.trimmed (sendable : Sendable msg) (some_ : msg.body ≠ []) :
    ((crlf ++ crlf ++ wire msg.body ++ [Char.ofNat 3]).rdropWhile isTerminator).rdropWhile isSpace =
      crlf ++ crlf ++ msg.body := by
  obtain ⟨lined, stripped⟩ := sendable.body
  rw [wire_ascii (isAscii_of_lined lined)]
  obtain ⟨front, last, shape⟩ := (List.eq_nil_or_concat' msg.body).resolve_left some_
  have ends : isSpace last = false := last_visible (shape ▸ stripped)
  have stays : isTerminator last = false := by
    rcases linesOf_mem lined (shape ▸ List.mem_concat_self) with rfl | rfl | visible
    · exact absurd ends (by decide)
    · exact absurd ends (by decide)
    · simp only [isPrintable, isTerminator, Bool.decide_and, Bool.and_eq_true, decide_eq_true_eq,
        decide_eq_false_iff_not] at visible ⊢
      omega
  rw [List.rdropWhile_concat_pos _ _ _ (by decide), shape, ← List.append_assoc,
    List.rdropWhile_concat_neg _ _ _ (by simp [stays]),
    List.rdropWhile_concat_neg _ _ _ (by simp [ends])]

/-- What the lines of an envelope are. -/
theorem Sendable.lines (sendable : Sendable msg) :
    splitLines (trim (decodeAscii (buildEnvelope now msg))) =
      envelopeHead now msg ++ [bodyLine msg] ++
        if msg.body = [] then [] else [] :: splitLines msg.body := by
  have head : (envelopeHead now msg).map wire = envelopeHead now msg := by
    refine (List.map_congr_left fun line listed => ?_).trans (List.map_id _)
    exact wire_ascii (isAscii_of_printable (sendable.printable line listed))
  have plain : ∀ line ∈ envelopeHead now msg, ∀ c ∈ line, isLineBreak c = false :=
    fun line listed => plain_of_printable (sendable.printable line listed)
  have last : ∀ c ∈ bodyLine msg, isLineBreak c = false :=
    plain_of_printable (lineOf_printable rfl (digits_printable _))
  rw [trim_envelope, head, List.append_assoc (terminated _), splitLines_terminated,
    linesMade_plain plain, List.append_assoc (envelopeHead now msg)]
  congr 1
  by_cases empty : msg.body = []
  · have nothing : ((crlf ++ crlf ++ wire msg.body ++ [Char.ofNat 3]).rdropWhile
        isTerminator).rdropWhile isSpace = [] := by
      rw [empty]
      rfl
    rw [nothing, if_pos empty, List.append_nil, splitLines_last last (by simp [bodyLine, lineOf])]
    rfl
  · have shape : bodyLine msg ++ (crlf ++ crlf ++ msg.body) =
        bodyLine msg ++ '\r' :: '\n' :: ('\r' :: '\n' :: msg.body) := rfl
    rw [sendable.trimmed empty, if_neg empty, shape, splitLines_line last, splitLines]
    rfl

/-- Every header but that of `at_bbs` is found. -/
theorem get_envelopeHead {key : Text} (other : key.head? ≠ some '@') :
    (headersOf (envelopeHead now msg ++ [bodyLine msg])).get key =
      Headers.get [("body", Nat.toDigits 10 msg.body.length), ("type", strip msg.msgType),
        ("subject", strip msg.subject), ("to", strip msg.toCall), ("from", strip msg.fromCall),
        ("date", strip (msg.createdAt.getD now).format), ("mid", strip msg.bid)] key := by
  rw [headersOf_envelopeHead, Headers.get_append, Headers.get_append, get_atLines other,
    Option.or_none, strip_oneWord (oneWord_digits _), ← Headers.get_append]
  rfl

theorem get_at_envelopeHead (now : DateTime) (msg : Message) :
    (headersOf (envelopeHead now msg ++ [bodyLine msg])).get "@" =
      (headersOf (atLines msg)).get "@" := by
  rw [headersOf_envelopeHead, Headers.get_append, Headers.get_append]
  exact Option.or_none

theorem Sendable.scanned (sendable : Sendable msg) :
    scan [] (splitLines (trim (decodeAscii (buildEnvelope now msg)))) =
      (headersOf (envelopeHead now msg ++ [bodyLine msg]),
        if msg.body = [] then none else some (splitLines msg.body)) := by
  rw [sendable.lines, scan_front not_isSeparator_envelopeHead, List.append_nil]
  split
  · rfl
  · exact scan_separator (by decide) _ _

/-- The body is cut to a length that it does not exceed. -/
theorem Sendable.cut (sendable : Sendable msg) {headers : Headers}
    (length : headers.get "body" = some (Nat.toDigits 10 msg.body.length)) (lines : List Text) :
    cutBody headers ((['\n'] : Text).intercalate
      ((if msg.body = [] then none else some (splitLines msg.body)).getD lines)) =
      unixEnds msg.body := by
  obtain ⟨lined, stripped⟩ := sendable.body
  rw [cutBody, length, Option.bind_some, parseInt_digits]
  by_cases empty : msg.body = []
  · rw [empty]
    rfl
  · have short := unixEnds_length msg.body
    rw [if_neg empty, Option.getD_some, join_body lined stripped empty]
    split
    · rename_i length read
      split at read
      · cases read
      · cases read
        rw [slice, if_neg (by omega), Int.natAbs_natCast, List.take_of_length_le short]
    · rfl

theorem Sendable.decoded (sendable : Sendable msg) :
    decodeB2fBlock now (buildEnvelope now msg) =
      { msg with
        atBbs := upper (firstFilled [(headersOf (atLines msg)).get "@", none])
        body := unixEnds msg.body
        createdAt := some now } := by
  have kind : knownType msg.msgType = msg.msgType ∧ strip msg.msgType = msg.msgType := by
    rcases sendable.msgType with same | same | same <;> rw [same] <;> exact ⟨rfl, rfl⟩
  have get : ∀ {key : Text}, key.head? ≠ some '@' → _ := @get_envelopeHead now msg
  have at_ := get_at_envelopeHead now msg
  rw [decodeB2fBlock, sendable.scanned]
  generalize headersOf (envelopeHead now msg ++ [bodyLine msg]) = headers at get at_
  have bid : headers.get "mid" = some (strip msg.bid) := (get (by decide)).trans rfl
  have msgType : headers.get "type" = some (strip msg.msgType) := (get (by decide)).trans rfl
  have fromCall : headers.get "from" = some (strip msg.fromCall) := (get (by decide)).trans rfl
  have toCall : headers.get "to" = some (strip msg.toCall) := (get (by decide)).trans rfl
  have subject : headers.get "subject" = some (strip msg.subject) := (get (by decide)).trans rfl
  have length : headers.get "body" = some (Nat.toDigits 10 msg.body.length) :=
    (get (by decide)).trans rfl
  have other : headers.get "at" = none := (get (by decide)).trans rfl
  simp only [messageOf, sendable.cut length, bid, msgType, fromCall, toCall, subject, at_, other,
    Option.getD_some, sendable.bid.stripped, sendable.fromCall.1.stripped, sendable.fromCall.2,
    sendable.toCall.1.stripped, sendable.toCall.2, sendable.subject.stripped, kind,
    strip_unixEnds sendable.body.2]

theorem firstFilled_pair (val : Option Text) : firstFilled [val, none] = val.getD [] := by
  cases val with
  | none => rfl
  | some text => cases text <;> rfl

/-- An envelope is read back as the message exactly where no BBS is named in it. -/
theorem envelope_restored_iff (now : DateTime) (sendable : Sendable msg) :
    Restores msg (decodeB2fBlock now (buildEnvelope now msg)) ↔ msg.atBbs = [] := by
  rw [sendable.decoded]
  constructor
  · intro restores
    by_contra some_
    have short := get_at_shorter some_ "@"
    have kept := congrArg List.length restores.atBbs
    rw [firstFilled_pair, upper, List.length_map] at kept
    omega
  · intro bare
    refine ⟨rfl, rfl, rfl, rfl, ?_, rfl, rfl⟩
    rw [atLines, bare]
    rfl

def parcel (atBbs : Text) : Message where
  bid := "1_N0AAA"
  msgType := "P"
  fromCall := "N0AAA"
  toCall := "N0BBB"
  atBbs
  subject := "Hi: there"
  body := "one\r\n\n---\nFrom: N0CCC"
  createdAt := none

def midday : DateTime := ⟨2026, 1, 1, 12, 0, 0⟩

theorem parcel_sendable {atBbs : Text} (plain : Plain atBbs) (capitals : upper atBbs = atBbs) :
    Sendable (parcel atBbs) where
  bid := ⟨rfl, rfl⟩
  named := List.cons_ne_nil _ _
  fromCall := ⟨⟨rfl, rfl⟩, rfl⟩
  toCall := ⟨⟨rfl, rfl⟩, rfl⟩
  atBbs := ⟨plain, capitals⟩
  subject := ⟨rfl, rfl⟩
  msgType := .inl rfl
  body := ⟨rfl, rfl⟩

theorem parcel_restored :
    Restores (parcel "") (decodeB2fBlock midday (buildEnvelope midday (parcel ""))) :=
  (envelope_restored_iff midday (parcel_sendable ⟨rfl, rfl⟩ rfl)).mpr rfl

/-- The BBS that a message is for is lost. -/
theorem at_bbs_is_lost :
    ¬ ∀ (now : DateTime) (msg : Message), Sendable msg →
      Restores msg (decodeB2fBlock now (buildEnvelope now msg)) := by
  intro restored
  have sendable : Sendable (parcel "K9ZZZ") := parcel_sendable ⟨by decide, by decide⟩ (by decide)
  have kept := (restored midday _ sendable).atBbs
  revert kept
  decide +kernel

end PyBulletin.Forward
