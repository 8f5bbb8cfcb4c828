import PyBulletin.Forward.Hops

set_option autoImplicit false

namespace PyBulletin.Forward

open PyBulletin.Foundation
open PyBulletin.Foundation.Text
open PyBulletin.Store

/-! # Header lines in the fields of a user

A message posted on the web has the recipient, the BBS and the subject that the user sent,
line breaks included.  The lines they make stand among the header lines, between the
sender and the type.
-/

/-- The fields that the program itself fills in. -/
structure OwnFields (msg : Message) : Prop where
  fromCall : Plain msg.fromCall ∧ upper msg.fromCall = msg.fromCall
  bid : Plain msg.bid
  msgType : msg.msgType = "P" ∨ msg.msgType = "B" ∨ msg.msgType = "T"

/-- The sender, the number and the type that are read back. -/
structure Unforged (msg decoded : Message) : Prop where
  fromCall : decoded.fromCall = msg.fromCall
  bid : decoded.bid = msg.bid
  msgType : decoded.msgType = msg.msgType

/-- The lines that the recipient, the BBS and the subject make. -/
def userLines (msg : Message) : List Text :=
  linesMade ([lineOf "To" (wire msg.toCall)] ++ atLines (wired msg) ++
    [lineOf "Subject" (wire msg.subject)])

/-- Those of them that are read as headers. -/
def openLines (msg : Message) : List Text := (userLines msg).takeWhile (!isSeparator ·)

/-- The lines of the user name no other sender and no other number, and where they end the
headers they give the type and the number. -/
structure Harmless (msg : Message) : Prop where
  fromCall : ∀ val, (headersOf (openLines msg)).get "from" = some val → upper val = msg.fromCall
  bid : ∀ val, (headersOf (openLines msg)).get "mid" = some val → val = msg.bid
  cut : (userLines msg).any isSeparator →
    knownType (((headersOf (openLines msg)).get "type").getD "P") = msg.msgType ∧
      ((headersOf (openLines msg)).get "mid").getD
        (((headersOf (openLines msg)).get "bid").getD "") = msg.bid

variable {now : DateTime} {msg : Message}

theorem linesMade_append (fields more : List Text) :
    linesMade (fields ++ more) = linesMade fields ++ linesMade more := by
  simp [linesMade]

theorem linesMade_field {key val : Text} (word : key.all isPrintable) (plain : val.all isPrintable) :
    linesMade [lineOf key val] = [lineOf key val] := by
  refine linesMade_plain fun field listed => ?_
  rw [List.mem_singleton.mp listed]
  exact plain_of_printable (lineOf_printable word plain)

theorem OwnFields.type_printable (own : OwnFields msg) : msg.msgType.all isPrintable := by
  rcases own.msgType with same | same | same <;> rw [same] <;> rfl

/-- Behind a line there is nothing or an empty line, however much of two line ends is left. -/
theorem splitLines_cut {line others more : Text} (plain : ∀ c ∈ line, isLineBreak c = false)
    (some_ : line ≠ []) (cut : others <+: crlf ++ crlf ++ more) :
    ∃ rest, (rest = [] ∨ ∃ more, rest = ([] : Text) :: more) ∧
      splitLines (line ++ others) = line :: rest := by
  obtain ⟨behind, whole⟩ := cut
  have shape : crlf ++ crlf ++ more = '\r' :: '\n' :: '\r' :: '\n' :: more := rfl
  rw [shape] at whole
  rcases others with _ | ⟨a, _ | ⟨b, _ | ⟨c, others⟩⟩⟩
  · exact ⟨[], .inl rfl, by rw [List.append_nil, splitLines_last plain some_]⟩
  · simp only [List.cons_append, List.cons.injEq] at whole
    obtain ⟨rfl, _⟩ := whole
    refine ⟨[], .inl rfl, ?_⟩
    have one : splitLines ['\r'] = [[]] := rfl
    rw [splitLines_front plain, one, foldr_extend, List.append_nil]
  · simp only [List.cons_append, List.cons.injEq] at whole
    obtain ⟨rfl, rfl, _⟩ := whole
    exact ⟨[], .inl rfl, by rw [splitLines_line plain, splitLines]⟩
  · simp only [List.cons_append, List.cons.injEq] at whole
    obtain ⟨rfl, rfl, rfl, left⟩ := whole
    refine ⟨splitLines ('\r' :: others), .inr ?_, splitLines_line plain _⟩
    cases others with
    | nil => exact ⟨[], rfl⟩
    | cons d others =>
        simp only [List.cons_append, List.cons.injEq] at left
        obtain ⟨rfl, _⟩ := left
        exact ⟨splitLines others, rfl⟩

theorem OwnFields.wired (own : OwnFields msg) : (Forward.wired msg).bid = msg.bid ∧
    (Forward.wired msg).fromCall = msg.fromCall ∧ (Forward.wired msg).msgType = msg.msgType :=
  ⟨wire_ascii (isAscii_of_printable own.bid.printable),
    wire_ascii (isAscii_of_printable own.fromCall.1.printable),
    wire_ascii (isAscii_of_printable own.type_printable)⟩

/-- The lines of an envelope: those of the user stand between fixed ones. -/
theorem OwnFields.envelope_lines (own : OwnFields msg) :
    ∃ rest, (rest = [] ∨ ∃ more, rest = ([] : Text) :: more) ∧
      splitLines (trim (decodeAscii (buildEnvelope now msg))) =
        [lineOf "Mid" msg.bid, lineOf "Date" (msg.createdAt.getD now).format,
            lineOf "From" msg.fromCall] ++
          userLines msg ++ [lineOf "Type" msg.msgType, bodyLine msg] ++ rest := by
  obtain ⟨bid, fromCall, msgType⟩ := own.wired
  have number : ∀ c ∈ bodyLine msg, isLineBreak c = false :=
    plain_of_printable (lineOf_printable rfl (digits_printable _))
  have cut : ((crlf ++ crlf ++ wire msg.body ++ [Char.ofNat 3]).rdropWhile
      isTerminator).rdropWhile isSpace <+: crlf ++ crlf ++ (wire msg.body ++ [Char.ofNat 3]) := by
    rw [← List.append_assoc]
    exact (List.rdropWhile_prefix _ _).trans (List.rdropWhile_prefix _ _)
  obtain ⟨rest, ends, behind⟩ := splitLines_cut number (by simp [bodyLine, lineOf]) cut
  have head : envelopeHead now (Forward.wired msg) =
      [lineOf "Mid" msg.bid, lineOf "Date" (msg.createdAt.getD now).format,
          lineOf "From" msg.fromCall] ++
        ([lineOf "To" (wire msg.toCall)] ++ atLines (Forward.wired msg) ++
          [lineOf "Subject" (wire msg.subject)]) ++ [lineOf "Type" msg.msgType] := by
    simp only [envelopeHead, bid, fromCall, msgType]
    simp [Forward.wired]
  have first : linesMade [lineOf "Mid" msg.bid, lineOf "Date" (msg.createdAt.getD now).format,
      lineOf "From" msg.fromCall] = [lineOf "Mid" msg.bid,
        lineOf "Date" (msg.createdAt.getD now).format, lineOf "From" msg.fromCall] := by
    refine linesMade_plain fun field listed => plain_of_printable ?_
    simp only [List.mem_cons, List.not_mem_nil, or_false] at listed
    rcases listed with rfl | rfl | rfl
    · exact lineOf_printable rfl own.bid.printable
    · exact lineOf_printable rfl (format_printable _)
    · exact lineOf_printable rfl own.fromCall.1.printable
  refine ⟨rest, ends, ?_⟩
  rw [trim_envelope, envelopeHead_wired, head, List.append_assoc (terminated _),
    splitLines_terminated, behind, linesMade_append, linesMade_append, first, ← userLines,
    linesMade_field rfl own.type_printable]
  simp

theorem OwnFields.b1_lines (own : OwnFields msg) :
    ∃ rest, splitLines (trim (decodeAscii (b1Text msg))) =
        [lineOf "From" msg.fromCall] ++ userLines msg ++
          [lineOf "Date" ((msg.createdAt.map DateTime.format).getD ""), lineOf "BID" msg.bid,
            lineOf "Type" msg.msgType] ++ ("---" : Text) :: rest := by
  obtain ⟨bid, fromCall, msgType⟩ := own.wired
  have head : b1Head (Forward.wired msg) =
      [lineOf "From" msg.fromCall] ++
        ([lineOf "To" (wire msg.toCall)] ++ atLines (Forward.wired msg) ++
          [lineOf "Subject" (wire msg.subject)]) ++
        [lineOf "Date" ((msg.createdAt.map DateTime.format).getD ""), lineOf "BID" msg.bid,
          lineOf "Type" msg.msgType] := by
    simp only [b1Head, bid, fromCall, msgType]
    simp [Forward.wired]
  have last : linesMade [lineOf "Date" ((msg.createdAt.map DateTime.format).getD ""),
      lineOf "BID" msg.bid, lineOf "Type" msg.msgType] =
        [lineOf "Date" ((msg.createdAt.map DateTime.format).getD ""), lineOf "BID" msg.bid,
          lineOf "Type" msg.msgType] := by
    refine linesMade_plain fun field listed => plain_of_printable ?_
    simp only [List.mem_cons, List.not_mem_nil, or_false] at listed
    rcases listed with rfl | rfl | rfl
    · refine lineOf_printable rfl ?_
      cases msg.createdAt with
      | none => rfl
      | some date => exact format_printable date
    · exact lineOf_printable rfl own.bid.printable
    · exact lineOf_printable rfl own.type_printable
  refine ⟨splitLines (wire msg.body ++ ['\r', '\n']) ++ [("/EX" : Text)], ?_⟩
  rw [splitLines_b1Text, b1Head_wired, head, linesMade_append, linesMade_append, last,
    ← userLines, linesMade_field rfl own.fromCall.1.printable]

/-- A scan of lines that stand between others: it ends among them, or they are all read. -/
theorem scan_between {front lines back : List Text}
    (plain : ∀ line ∈ front, isSeparator line = false) :
    (scan [] (front ++ lines ++ back)).1 =
      if lines.any isSeparator then
        headersOf (lines.takeWhile (!isSeparator ·)) ++ headersOf front
      else
        headersOf (back.takeWhile (!isSeparator ·)) ++
          headersOf (lines.takeWhile (!isSeparator ·)) ++ headersOf front := by
  rw [List.append_assoc, scan_front plain, List.append_nil, scan_headers, List.takeWhile_append]
  by_cases separated : lines.any isSeparator
  · rw [if_pos separated, if_neg]
    intro whole
    have same := (List.takeWhile_prefix (l := lines) (!isSeparator ·)).eq_of_length whole
    obtain ⟨line, listed, separates⟩ := List.any_eq_true.mp separated
    have kept := List.mem_takeWhile_imp (same ▸ listed)
    simp [separates] at kept
  · have all : ∀ line ∈ lines, !isSeparator line := by simpa using separated
    have same : lines.takeWhile (!isSeparator ·) = lines := List.takeWhile_eq_self_iff.mpr all
    rw [if_neg separated, same, if_pos rfl, headersOf_append]

theorem decodeB2fBlock_eq (now : DateTime) (data : Bytes) :
    ∃ body, decodeB2fBlock now data =
      messageOf now (scan [] (splitLines (trim (decodeAscii data)))).1 body :=
  ⟨_, rfl⟩

theorem unforged_messageOf_iff {headers : Headers} {body : Text} :
    Unforged msg (messageOf now headers body) ↔
      upper ((headers.get "from").getD "") = msg.fromCall ∧
      (headers.get "mid").getD ((headers.get "bid").getD "") = msg.bid ∧
      knownType ((headers.get "type").getD "P") = msg.msgType :=
  ⟨fun same => ⟨same.fromCall, same.bid, same.msgType⟩, fun same => ⟨same.1, same.2.1, same.2.2⟩⟩

/-- The latest value counts where there is one. -/
theorem latest_iff {f : Text → Text} {own : Text} (same : f own = own) (found : Option Text)
    (default : Text) :
    f ((found.or (some own)).getD default) = own ↔ ∀ val, found = some val → f val = own := by
  cases found <;> simp [same]

theorem OwnFields.knownType (own : OwnFields msg) :
    knownType msg.msgType = msg.msgType ∧ strip msg.msgType = msg.msgType := by
  rcases own.msgType with same | same | same <;> rw [same] <;> exact ⟨rfl, rfl⟩

/-- What an envelope is read as. -/
theorem OwnFields.unforged_envelope_iff (own : OwnFields msg) (now time : DateTime) :
    Unforged msg (decodeB2fBlock time (buildEnvelope now msg)) ↔
      (∀ val, (headersOf (openLines msg)).get "from" = some val → upper val = msg.fromCall) ∧
      (∀ val, (headersOf (openLines msg)).get "mid" = some val → val = msg.bid) ∧
      ((userLines msg).any isSeparator →
        Forward.knownType (((headersOf (openLines msg)).get "type").getD "P") = msg.msgType) := by
  obtain ⟨rest, ends, lines⟩ := @OwnFields.envelope_lines now msg own
  obtain ⟨body, decoded⟩ := decodeB2fBlock_eq time (buildEnvelope now msg)
  have plain : ∀ line ∈ [lineOf "Mid" msg.bid, lineOf "Date" (msg.createdAt.getD now).format,
      lineOf "From" msg.fromCall], isSeparator line = false := by
    intro line listed
    simp only [List.mem_cons, List.not_mem_nil, or_false] at listed
    rcases listed with rfl | rfl | rfl <;> exact not_isSeparator_field (by decide) _
  have front : headersOf [lineOf "Mid" msg.bid, lineOf "Date" (msg.createdAt.getD now).format,
      lineOf "From" msg.fromCall] = ([("from", msg.fromCall),
        ("date", strip (msg.createdAt.getD now).format), ("mid", msg.bid)] : Headers) := by
    simp (disch := decide) only [headersOf_cons, readHeader_field, own.bid.stripped,
      own.fromCall.1.stripped]
    rfl
  have kept : ([lineOf "Type" msg.msgType, bodyLine msg] ++ rest).takeWhile (!isSeparator ·) =
      [lineOf "Type" msg.msgType, bodyLine msg] := by
    have type_ : isSeparator (lineOf "Type" msg.msgType) = false :=
      not_isSeparator_field (by decide) _
    have number : isSeparator (bodyLine msg) = false := not_isSeparator_field (by decide) _
    rw [List.cons_append, List.cons_append, List.takeWhile_cons_of_pos (by rw [type_]; rfl),
      List.takeWhile_cons_of_pos (by rw [number]; rfl), List.nil_append]
    rcases ends with rfl | ⟨more, rfl⟩ <;> rfl
  have back : headersOf [lineOf "Type" msg.msgType, bodyLine msg] =
      ([("body", Nat.toDigits 10 msg.body.length), ("type", msg.msgType)] : Headers) := by
    simp (disch := decide) only [headersOf_cons, bodyLine, readHeader_field, own.knownType.2,
      strip_oneWord (oneWord_digits _)]
    rfl
  rw [decoded, unforged_messageOf_iff, lines, List.append_assoc _ _ rest, scan_between plain, kept,
    front, back, ← openLines]
  generalize headersOf (openLines msg) = user
  refine and_congr ?_ (and_congr ?_ ?_)
  · rw [← latest_iff own.fromCall.2 (user.get "from") ""]
    split <;> simp only [Headers.get_append] <;> rfl
  · have first := fun default => @latest_iff id msg.bid rfl (user.get "mid") default
    split
    · rw [Headers.get_append]
      exact first _
    · rw [Headers.get_append, Headers.get_append]
      exact first _
  · split
    · rename_i separated
      rw [Headers.get_append]
      have none_ : Headers.get [("from", msg.fromCall),
        ("date", strip (msg.createdAt.getD now).format), ("mid", msg.bid)] "type" = none := rfl
      rw [none_, Option.or_none]
      exact ⟨fun kind _ => kind, fun kind => kind separated⟩
    · rename_i whole
      rw [Headers.get_append, Headers.get_append]
      exact iff_of_true own.knownType.1 fun separated => absurd separated whole

/-- What a text block is read as. -/
theorem OwnFields.unforged_b1_iff (own : OwnFields msg) (time : DateTime) :
    Unforged msg (decodeB1Block time (blockOf (encodeMessageB1 msg))) ↔
      (∀ val, (headersOf (openLines msg)).get "from" = some val → upper val = msg.fromCall) ∧
      (if (userLines msg).any isSeparator then
        ((headersOf (openLines msg)).get "mid").getD
          (((headersOf (openLines msg)).get "bid").getD "") = msg.bid
      else ∀ val, (headersOf (openLines msg)).get "mid" = some val → val = msg.bid) ∧
      ((userLines msg).any isSeparator →
        Forward.knownType (((headersOf (openLines msg)).get "type").getD "P") = msg.msgType) := by
  obtain ⟨rest, lines⟩ := own.b1_lines
  obtain ⟨body, decoded⟩ := decodeB2fBlock_eq time (b1Text msg)
  have plain : ∀ line ∈ [lineOf "From" msg.fromCall], isSeparator line = false := by
    intro line listed
    rw [List.mem_singleton.mp listed]
    exact not_isSeparator_field (by decide) _
  have front : headersOf [lineOf "From" msg.fromCall] =
      ([("from", msg.fromCall)] : Headers) := by
    simp (disch := decide) only [headersOf_cons, readHeader_field, own.fromCall.1.stripped]
    rfl
  have fields : ∀ line ∈ [lineOf "Date" ((msg.createdAt.map DateTime.format).getD ""),
      lineOf "BID" msg.bid, lineOf "Type" msg.msgType], (!isSeparator line) = true := by
    intro line listed
    simp only [List.mem_cons, List.not_mem_nil, or_false] at listed
    rcases listed with rfl | rfl | rfl <;> rw [not_isSeparator_field (by decide)] <;> rfl
  have kept : ([lineOf "Date" ((msg.createdAt.map DateTime.format).getD ""), lineOf "BID" msg.bid,
      lineOf "Type" msg.msgType] ++ ("---" : Text) :: rest).takeWhile (!isSeparator ·) =
        [lineOf "Date" ((msg.createdAt.map DateTime.format).getD ""), lineOf "BID" msg.bid,
          lineOf "Type" msg.msgType] := by
    rw [List.takeWhile_append_of_pos fields, List.takeWhile_cons_of_neg (by decide),
      List.append_nil]
  have back : headersOf [lineOf "Date" ((msg.createdAt.map DateTime.format).getD ""),
      lineOf "BID" msg.bid, lineOf "Type" msg.msgType] =
        ([("type", msg.msgType), ("bid", msg.bid),
          ("date", strip ((msg.createdAt.map DateTime.format).getD ""))] : Headers) := by
    simp (disch := decide) only [headersOf_cons, readHeader_field, own.knownType.2,
      own.bid.stripped]
    rfl
  rw [decodeB1Block, blockOf_encodeMessageB1, decoded, unforged_messageOf_iff, lines,
    List.append_assoc _ _ (("---" : Text) :: rest), scan_between plain, kept, front, back,
    ← openLines]
  generalize headersOf (openLines msg) = user
  refine and_congr ?_ (and_congr ?_ ?_)
  · rw [← latest_iff own.fromCall.2 (user.get "from") ""]
    split <;> simp only [Headers.get_append] <;> rfl
  · split
    · rw [Headers.get_append, Headers.get_append]
      have none_ : ∀ key : Text, key ≠ "from" → Headers.get [("from", msg.fromCall)] key = none :=
        fun key other => by rw [Headers.get_single, if_neg other]
      rw [none_ "mid" (by decide), none_ "bid" (by decide), Option.or_none, Option.or_none]
    · rw [Headers.get_append, Headers.get_append, Headers.get_append, Headers.get_append]
      have first := @latest_iff id msg.bid rfl (user.get "mid") ""
      cases named : user.get "mid" with
      | none =>
          rw [named] at first
          exact first
      | some val =>
          rw [named] at first
          exact first
  · split
    · rename_i separated
      rw [Headers.get_append]
      have none_ : Headers.get [("from", msg.fromCall)] "type" = none := rfl
      rw [none_, Option.or_none]
      exact ⟨fun kind _ => kind, fun kind => kind separated⟩
    · rename_i whole
      rw [Headers.get_append, Headers.get_append]
      exact iff_of_true own.knownType.1 fun separated => absurd separated whole

/-- What the user writes leaves sender, number and type alone exactly where its lines are
harmless. -/
theorem unforged_iff (own : OwnFields msg) (now time : DateTime) :
    (Unforged msg (decodeB2fBlock time (buildEnvelope now msg)) ∧
      Unforged msg (decodeB1Block time (blockOf (encodeMessageB1 msg)))) ↔ Harmless msg := by
  rw [own.unforged_envelope_iff, own.unforged_b1_iff]
  constructor
  · rintro ⟨⟨fromCall, bid, kind⟩, -, number, -⟩
    refine ⟨fromCall, bid, fun separated => ⟨kind separated, ?_⟩⟩
    rwa [if_pos separated] at number
  · rintro ⟨fromCall, bid, cut⟩
    refine ⟨⟨fromCall, bid, fun separated => (cut separated).1⟩, fromCall, ?_,
      fun separated => (cut separated).1⟩
    split
    · rename_i separated
      exact (cut separated).2
    · exact bid

/-- Fields without line breaks do no harm. -/
theorem harmless_of_single (toCall : ∀ c ∈ msg.toCall, isLineBreak c = false)
    (atBbs : ∀ c ∈ msg.atBbs, isLineBreak c = false)
    (subject : ∀ c ∈ msg.subject, isLineBreak c = false) : Harmless msg := by
  have label : ∀ {key val : Text}, key.all isPrintable → (∀ c ∈ val, isLineBreak c = false) →
      ∀ c ∈ lineOf key val, isLineBreak c = false :=
    fun word plain => lineOf_plain (plain_of_printable word) plain
  have lines : userLines msg = [lineOf "To" (wire msg.toCall)] ++ atLines (wired msg) ++
      [lineOf "Subject" (wire msg.subject)] := by
    refine linesMade_plain fun field listed => ?_
    simp only [List.mem_append, List.mem_singleton] at listed
    rcases listed with (rfl | at_) | rfl
    · exact label rfl (wire_plain toCall)
    · exact atLines_plain (wire_plain atBbs) field at_
    · exact label rfl (wire_plain subject)
  have whole : ∀ line ∈ userLines msg, isSeparator line = false := by
    rw [lines]
    intro line listed
    simp only [List.mem_append, List.mem_singleton] at listed
    rcases listed with (rfl | at_) | rfl
    · exact not_isSeparator_field (by decide) _
    · exact not_isSeparator_atLines line at_
    · exact not_isSeparator_field (by decide) _
  have none_ : ∀ key : Text, key.head? ≠ some '@' → key ≠ "to" → key ≠ "subject" →
      (headersOf (openLines msg)).get key = none := by
    intro key other notTo notSubject
    have kept : openLines msg = userLines msg :=
      List.takeWhile_eq_self_iff.mpr fun line listed => by simp [whole line listed]
    rw [kept, lines, headersOf_append, headersOf_append, Headers.get_append, Headers.get_append,
      get_atLines other, headersOf_singleton, headersOf_singleton,
      readHeader_field (by decide) (by decide), readHeader_field (by decide) (by decide),
      Option.toList_some, Option.toList_some, Headers.get_single, Headers.get_single]
    have first : key ≠ lower "Subject" := notSubject
    have last : key ≠ lower "To" := notTo
    rw [if_neg first, if_neg last]
    rfl
  refine ⟨fun val found => ?_, fun val found => ?_, fun separated => ?_⟩
  · rw [none_ "from" (by decide) (by decide) (by decide)] at found
    cases found
  · rw [none_ "mid" (by decide) (by decide) (by decide)] at found
    cases found
  · obtain ⟨line, listed, separates⟩ := List.any_eq_true.mp separated
    rw [whole line listed] at separates
    cases separates

theorem parcel_unforged :
    Unforged (parcel "") (decodeB2fBlock midday (buildEnvelope midday (parcel ""))) ∧
      Unforged (parcel "") (decodeB1Block midday (blockOf (encodeMessageB1 (parcel "")))) :=
  have sendable : Sendable (parcel "") := parcel_sendable ⟨rfl, rfl⟩ rfl
  (unforged_iff ⟨sendable.fromCall, sendable.bid, sendable.msgType⟩ midday midday).mpr
    (harmless_of_single parcel_single.toCall parcel_single.atBbs parcel_single.subject)

/-- A second line of the subject names another sender. -/
theorem sender_is_forged :
    ¬ ∀ (msg : Message) (now time : DateTime), OwnFields msg →
      Unforged msg (decodeB2fBlock time (buildEnvelope now msg)) ∧
        Unforged msg (decodeB1Block time (blockOf (encodeMessageB1 msg))) := by
  intro unforged
  have sendable : Sendable (parcel "") := parcel_sendable ⟨rfl, rfl⟩ rfl
  have read := (unforged { parcel "" with subject := "Hi\r\nFrom: N0CCC" } midday midday
    ⟨sendable.fromCall, sendable.bid, sendable.msgType⟩).1.fromCall
  revert read
  decide +kernel

end PyBulletin.Forward
