import PyBulletin.Forward.RoundTrip

set_option autoImplicit false

namespace PyBulletin.Forward

open PyBulletin.Foundation
open PyBulletin.Foundation.Text
open PyBulletin.Store

/-! # Text blocks from node to node

The decoder of text blocks is that of envelopes.  It knows no `/EX`, which `rstrip` does not
take away, so that the terminator of each hop becomes the last line of the body.
-/

/-- A node sends the message and the next one reads it. -/
def hop (msg : Message) (now : DateTime) : Message :=
  decodeB1Block now (blockOf (encodeMessageB1 msg))

/-- No header is of several lines. -/
structure SingleHeaders (msg : Message) : Prop where
  bid : ∀ c ∈ msg.bid, isLineBreak c = false
  msgType : ∀ c ∈ msg.msgType, isLineBreak c = false
  fromCall : ∀ c ∈ msg.fromCall, isLineBreak c = false
  toCall : ∀ c ∈ msg.toCall, isLineBreak c = false
  atBbs : ∀ c ∈ msg.atBbs, isLineBreak c = false
  subject : ∀ c ∈ msg.subject, isLineBreak c = false

variable {now : DateTime} {msg : Message} {key text : Text}

theorem lineOf_plain (word : ∀ c ∈ key, isLineBreak c = false)
    (plain : ∀ c ∈ text, isLineBreak c = false) :
    ∀ c ∈ lineOf key text, isLineBreak c = false := by
  intro c listed
  rcases List.mem_append.mp listed with first | rest
  · exact word c first
  · rcases List.mem_cons.mp rest with rfl | rest
    · decide
    · rcases List.mem_cons.mp rest with rfl | rest
      · decide
      · exact plain c rest

theorem SingleHeaders.wired (single : SingleHeaders msg) : SingleHeaders (wired msg) where
  bid := wire_plain single.bid
  msgType := wire_plain single.msgType
  fromCall := wire_plain single.fromCall
  toCall := wire_plain single.toCall
  atBbs := wire_plain single.atBbs
  subject := wire_plain single.subject

theorem SingleHeaders.plain (single : SingleHeaders msg) :
    ∀ line ∈ b1Head msg, ∀ c ∈ line, isLineBreak c = false := by
  have field : ∀ {key val : Text}, key.all isPrintable → (∀ c ∈ val, isLineBreak c = false) →
      ∀ c ∈ lineOf key val, isLineBreak c = false :=
    fun word plain => lineOf_plain (plain_of_printable word) plain
  intro line listed
  simp only [b1Head, List.mem_append, List.mem_cons, List.not_mem_nil, or_false] at listed
  rcases listed with ((rfl | rfl) | at_) | rfl | rfl | rfl | rfl
  · exact field rfl single.fromCall
  · exact field rfl single.toCall
  · exact atLines_plain single.atBbs line at_
  · exact field rfl single.subject
  · refine field rfl (plain_of_printable ?_)
    cases msg.createdAt with
    | none => rfl
    | some date => exact format_printable date
  · exact field rfl single.bid
  · exact field rfl single.msgType

theorem not_isSeparator_b1Head : ∀ line ∈ b1Head msg, isSeparator line = false := by
  intro line listed
  simp only [b1Head, List.mem_append, List.mem_cons, List.not_mem_nil, or_false] at listed
  rcases listed with ((rfl | rfl) | at_) | rfl | rfl | rfl | rfl
  · exact not_isSeparator_field (by decide) _
  · exact not_isSeparator_field (by decide) _
  · exact not_isSeparator_atLines line at_
  · exact not_isSeparator_field (by decide) _
  · exact not_isSeparator_field (by decide) _
  · exact not_isSeparator_field (by decide) _
  · exact not_isSeparator_field (by decide) _

theorem get_b1Head {key : Text} (other : key.head? ≠ some '@') :
    (headersOf (b1Head msg)).get key =
      Headers.get [("type", strip msg.msgType), ("bid", strip msg.bid),
        ("date", strip ((msg.createdAt.map DateTime.format).getD "")),
        ("subject", strip msg.subject), ("to", strip msg.toCall), ("from", strip msg.fromCall)]
        key := by
  rw [b1Head, headersOf_append, headersOf_append, Headers.get_append, Headers.get_append,
    get_atLines other, Option.none_or, ← Headers.get_append]
  simp (disch := decide) only [headersOf_cons, readHeader_field]
  rfl

theorem strip_mem {c : Char} (listed : c ∈ strip text) : c ∈ text := by
  have back := (List.rdropWhile_prefix isSpace (text.dropWhile isSpace)).subset listed
  exact (List.dropWhile_suffix isSpace).subset back

theorem readHeader_mem {line key val : Text} (read : readHeader line = some (key, val)) {c : Char}
    (listed : c ∈ val) : c ∈ line := by
  rw [readHeader] at read
  split at read
  · simp only [partition, Option.some.injEq, Prod.mk.injEq] at read
    obtain ⟨_, rfl⟩ := read
    have behind := List.mem_of_mem_tail (strip_mem listed)
    exact strip_mem ((List.dropWhile_suffix _).subset behind)
  · cases read

/-- What is read of lines without line breaks has none. -/
theorem get_plain {lines : List Text}
    (plain : ∀ line ∈ lines, ∀ c ∈ line, isLineBreak c = false) {val : Text}
    (found : (headersOf lines).get key = some val) : ∀ c ∈ val, isLineBreak c = false := by
  intro c listed
  obtain ⟨before, after, shape, _⟩ := List.lookup_eq_some_iff.mp found
  have among : (key, val) ∈ headersOf lines := by
    rw [shape]
    simp
  obtain ⟨line, written, read⟩ := List.mem_filterMap.mp (List.mem_reverse.mp among)
  exact plain line written c (readHeader_mem read listed)

theorem getD_plain {lines : List Text}
    (plain : ∀ line ∈ lines, ∀ c ∈ line, isLineBreak c = false) {default : Text}
    (other : ∀ c ∈ default, isLineBreak c = false) :
    ∀ c ∈ ((headersOf lines).get key).getD default, isLineBreak c = false := by
  cases found : (headersOf lines).get key with
  | none => exact other
  | some val => exact get_plain plain found

theorem upper_plain (plain : ∀ c ∈ text, isLineBreak c = false) :
    ∀ c ∈ upper text, isLineBreak c = false := by
  intro c listed
  obtain ⟨d, among, rfl⟩ := List.mem_map.mp listed
  by_cases lower : 'a'.val ≤ d.val ∧ d.val ≤ 'z'.val
  · have letter := toNat_toUpper lower
    simp only [isLineBreak, decide_eq_false_iff_not]
    omega
  · rw [toUpper_of_not_lower lower]
    exact plain d among

theorem knownType_plain (msgType : Text) : ∀ c ∈ knownType msgType, isLineBreak c = false := by
  rw [knownType]
  split
  · rename_i known
    rcases known with same | same | same <;> rw [same] <;> exact plain_of_printable rfl
  · exact plain_of_printable rfl

theorem intercalate_concat (sep : Text) {lines : List Text} (some_ : lines ≠ []) (last : Text) :
    sep.intercalate (lines ++ [last]) = sep.intercalate lines ++ sep ++ last := by
  induction lines with
  | nil => exact absurd rfl some_
  | cons line lines ih =>
      cases lines with
      | nil => simp
      | cons next lines =>
          rw [List.cons_append, List.cons_append, List.intercalate_cons_cons, ← List.cons_append,
            ih (by simp), List.intercalate_cons_cons]
          simp

theorem SingleHeaders.lines (single : SingleHeaders msg) :
    splitLines (trim (decodeAscii (b1Text msg))) =
      b1Head (Forward.wired msg) ++
        ("---" : Text) :: (splitLines (wire msg.body ++ ['\r', '\n']) ++ [("/EX" : Text)]) := by
  rw [splitLines_b1Text, b1Head_wired, linesMade_plain single.wired.plain]

/-- The separator is the one in front of the body, and there is no length to cut it to. -/
theorem SingleHeaders.hop_eq (single : SingleHeaders msg) (now : DateTime) :
    hop msg now = messageOf now (headersOf (b1Head (Forward.wired msg)))
      (strip ((['\n'] : Text).intercalate (splitLines (wire msg.body ++ ['\r', '\n'])) ++
        "\n/EX")) := by
  have dashes : isSeparator "---" := by decide
  have noLength : (headersOf (b1Head (Forward.wired msg))).get "body" = none :=
    (get_b1Head (by decide)).trans rfl
  have some_ : splitLines (wire msg.body ++ ['\r', '\n']) ≠ [] := splitLines_ne_nil (by simp)
  rw [hop, decodeB1Block, blockOf_encodeMessageB1, decodeB2fBlock, single.lines,
    scan_front not_isSeparator_b1Head, List.append_nil, scan_separator dashes]
  simp only [cutBody, noLength, Option.bind_none, Option.getD_some]
  rw [intercalate_concat _ some_, List.append_assoc]
  rfl

theorem SingleHeaders.hop (single : SingleHeaders msg) (now : DateTime) :
    SingleHeaders (hop msg now) := by
  have plain := single.wired.plain
  have none_ : ∀ c ∈ ([] : Text), isLineBreak c = false := fun c listed => by cases listed
  have other : (headersOf (b1Head (Forward.wired msg))).get "at" = none :=
    (get_b1Head (by decide)).trans rfl
  rw [single.hop_eq now]
  refine ⟨getD_plain plain (getD_plain plain none_), knownType_plain _,
    upper_plain (getD_plain plain none_), upper_plain (getD_plain plain none_),
    upper_plain ?_, getD_plain plain (plain_of_printable rfl)⟩
  rw [other, firstFilled_pair]
  exact getD_plain plain none_

/-- The body of a message that has been forwarded. -/
structure Settled (body : Text) : Prop where
  printable : ∀ c ∈ body, c = '\n' ∨ isPrintable c
  begins : ∃ first rest, body = first :: rest ∧ isSpace first = false

/-- Where the last character is visible, so is the first one after stripping. -/
theorem dropWhile_visible {last : Char} (visible : isSpace last = false) (front : Text) :
    ∃ first rest, (front ++ [last]).dropWhile isSpace = first :: rest ∧ isSpace first = false := by
  induction front with
  | nil => exact ⟨last, [], by simp [visible], visible⟩
  | cons c front ih =>
      by_cases space : isSpace c
      · rw [List.cons_append, List.dropWhile_cons_of_pos space]
        exact ih
      · exact ⟨c, front ++ [last], by simp [space], by simpa using space⟩

theorem strip_ended {last : Char} (visible : isSpace last = false) (front : Text) :
    strip (front ++ [last]) = (front ++ [last]).dropWhile isSpace := by
  induction front with
  | nil => simp [strip, visible]
  | cons c front ih =>
      by_cases space : isSpace c
      · rw [List.cons_append, strip_cons space, ih, List.dropWhile_cons_of_pos space]
      · have begins : isSpace c = false := by simpa using space
        rw [List.cons_append, strip_first begins, List.dropWhile_cons_of_neg space,
          List.rdropWhile_concat_neg _ _ _ (by simp [visible])]

theorem hop_body (single : SingleHeaders msg) (lined : linesOf isPrintable msg.body)
    (now : DateTime) : (hop msg now).body = (unixEnds msg.body ++ "\n/EX").dropWhile isSpace := by
  have plain : linesOf (fun c => !isLineBreak c) msg.body :=
    linesOf_mono (fun c visible => by simpa using not_isLineBreak_of_isPrintable visible) lined
  have shape : unixEnds msg.body ++ "\n/EX" = (unixEnds msg.body ++ "\n/E") ++ ['X'] := by simp
  rw [single.hop_eq now, messageOf, wire_ascii (isAscii_of_lined lined), join_splitLines plain,
    shape, strip_ended (by decide)]

theorem unixEnds_settled {body : Text} (settled : ∀ c ∈ body, c = '\n' ∨ isPrintable c) :
    unixEnds body = body ∧ linesOf isPrintable body := by
  induction body with
  | nil => exact ⟨rfl, rfl⟩
  | cons c body ih =>
      have kind := settled c List.mem_cons_self
      obtain ⟨same, lined⟩ := ih fun c listed => settled c (List.mem_cons_of_mem _ listed)
      have other : c ≠ '\r' := by
        rintro rfl
        revert kind
        decide
      exact ⟨by rw [unixEnds_first other, same],
        (linesOf_cons fun same => absurd same other).mpr ⟨kind, lined⟩⟩

theorem unixEnds_printable {body : Text} (lined : linesOf isPrintable body) :
    ∀ c ∈ unixEnds body, c = '\n' ∨ isPrintable c := by
  fun_induction unixEnds body with
  | case1 => exact fun c listed => by cases listed
  | case2 text ih =>
      intro c listed
      rcases List.mem_cons.mp listed with rfl | listed
      · exact .inl rfl
      · exact ih lined c listed
  | case3 d text other ih =>
      have kinds := (@linesOf_cons d text isPrintable fun same next => by
        cases text with
        | nil => cases next
        | cons c text => exact other text same (by cases next; rfl)).mp lined
      intro c listed
      rcases List.mem_cons.mp listed with rfl | listed
      · exact kinds.1
      · exact ih kinds.2 c listed

theorem ending_printable : ∀ c ∈ ("\n/EX" : Text), c = '\n' ∨ isPrintable c := by
  intro c listed
  have all : (("\n/EX" : Text).all fun c => c = '\n' ∨ isPrintable c) := rfl
  simpa using List.all_eq_true.mp all c listed

theorem Settled.hop (settled : Settled msg.body) (single : SingleHeaders msg) (now : DateTime) :
    Settled (hop msg now).body ∧ (hop msg now).body = msg.body ++ "\n/EX" := by
  obtain ⟨first, rest, shape, visible⟩ := settled.begins
  obtain ⟨same, lined⟩ := unixEnds_settled settled.printable
  have body : (Forward.hop msg now).body = msg.body ++ "\n/EX" := by
    rw [hop_body single lined, same, shape, List.cons_append,
      List.dropWhile_cons_of_neg (by simp [visible])]
  refine ⟨⟨?_, first, rest ++ "\n/EX", by rw [body, shape]; rfl, visible⟩, body⟩
  intro c listed
  rw [body] at listed
  rcases List.mem_append.mp listed with old | new
  · exact settled.printable c old
  · exact ending_printable c new

/-- Each hop adds a line. -/
theorem Settled.hops (settled : Settled msg.body) (single : SingleHeaders msg)
    (times : List DateTime) :
    (times.foldl Forward.hop msg).body = msg.body ++ times.flatMap fun _ => ("\n/EX" : Text) := by
  induction times generalizing msg with
  | nil => simp
  | cons now times ih =>
      obtain ⟨more, body⟩ := settled.hop single now
      rw [List.foldl_cons, ih more (single.hop now), body]
      simp

/-- No number of hops leaves the body of a message unchanged. -/
theorem b1_body_changes (single : SingleHeaders msg) (lined : linesOf isPrintable msg.body)
    (now : DateTime) (times : List DateTime) :
    ((now :: times).foldl hop msg).body ≠ unixEnds msg.body := by
  have body := hop_body single lined now
  obtain ⟨first, rest, shape, visible⟩ := @dropWhile_visible 'X' (by decide)
    (unixEnds msg.body ++ "\n/E")
  have whole : unixEnds msg.body ++ "\n/EX" = (unixEnds msg.body ++ "\n/E") ++ ['X'] := by simp
  have settled : Settled (hop msg now).body := by
    refine ⟨fun c listed => ?_, first, rest, by rw [body, whole, shape], visible⟩
    rw [body] at listed
    rcases List.mem_append.mp ((List.dropWhile_suffix _).subset listed) with old | new
    · exact unixEnds_printable lined c old
    · exact ending_printable c new
  intro same
  rw [List.foldl_cons, settled.hops (single.hop now), body] at same
  cases start : unixEnds msg.body with
  | nil =>
      rw [whole, shape, start] at same
      cases same
  | cons c others =>
      by_cases space : isSpace c
      · -- the body after the hop begins with no blank
        rw [whole, shape, start, List.cons_append, List.cons.injEq] at same
        rw [same.1, space] at visible
        cases visible
      · -- the body after the hop is longer
        have kept : (unixEnds msg.body ++ "\n/EX").dropWhile isSpace =
            unixEnds msg.body ++ "\n/EX" := by
          rw [start, List.cons_append, List.dropWhile_cons_of_neg space]
        have longer := congrArg List.length same
        rw [kept] at longer
        simp at longer

theorem parcel_single : SingleHeaders (parcel "") := by
  have all : ∀ {text : Text}, text.all isPrintable → ∀ c ∈ text, isLineBreak c = false :=
    fun printable => plain_of_printable printable
  exact ⟨all rfl, all rfl, all rfl, all rfl, all rfl, all rfl⟩

theorem parcel_changes :
    ([midday, midday].foldl hop (parcel "")).body ≠ unixEnds (parcel "").body :=
  b1_body_changes parcel_single (by decide) midday [midday]

/-- The terminator of a text block is in the body that comes back. -/
theorem terminator_is_read :
    ¬ ∀ (msg : Message) (now : DateTime), SingleHeaders msg → linesOf isPrintable msg.body →
      strip msg.body = msg.body → (hop msg now).body = unixEnds msg.body := by
  intro unchanged
  have body := (parcel_sendable ⟨rfl, rfl⟩ rfl : Sendable (parcel "")).body
  have same := unchanged (parcel "") midday parcel_single body.1 body.2
  revert same
  decide +kernel

end PyBulletin.Forward
