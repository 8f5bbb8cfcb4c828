import PyBulletin.Forward.Session

set_option autoImplicit false

namespace PyBulletin.Forward

open PyBulletin.Foundation
open PyBulletin.Store

/-- A line as `_writeline` puts it on the stream. -/
def lineBytes (text : Text) : Bytes := encodeAscii (text ++ crlf)

theorem lineBytes_eq (text : Text) : lineBytes text = encodeAscii text ++ [13, 10] := by
  rw [lineBytes, encodeAscii_append]
  rfl

theorem newline_mem_lineBytes (text : Text) : 10 ∈ lineBytes text := by
  simp [lineBytes_eq]

theorem lineBytes_ne_nil (text : Text) : lineBytes text ≠ [] :=
  List.ne_nil_of_mem (newline_mem_lineBytes text)

section ReadLine

variable {silence : Silence} {inbox more front rest : Bytes} {text : Text}

private theorem takeWhile_newline (ends : 10 ∉ front) (rest : Bytes) :
    (front ++ 10 :: rest).takeWhile (· ≠ 10) = front := by
  rw [List.takeWhile_append_of_pos]
  · simp
  · intro b listed
    simpa using fun same : b = 10 => ends (same ▸ listed)

theorem readLine_newline (silence : Silence) (ends : 10 ∉ front) (rest : Bytes) :
    readLine silence (front ++ 10 :: rest) =
      if streamLimit < front.length then .overrun rest
      else .line (Text.stripLineEnd (decodeAscii front)) rest := by
  simp only [readLine, takeWhile_newline ends, List.drop_left]

theorem readLine_silent (silence : Silence) (open_ : 10 ∉ inbox) :
    readLine silence inbox =
      if streamLimit < inbox.length then .overrun []
      else
        match silence with
        | .live => .waiting
        | .closed => .line (Text.stripLineEnd (decodeAscii inbox)) []
        | .late => .line [] inbox := by
  have whole : inbox.takeWhile (· ≠ 10) = inbox := by
    have all : ∀ b ∈ inbox, decide (b ≠ 10) = true := by
      intro b listed
      simpa using fun same : b = 10 => open_ (same ▸ listed)
    have taken := @List.takeWhile_append_of_pos _ _ inbox [] all
    simpa using taken
  have nothing : inbox.drop (inbox.takeWhile (· ≠ 10)).length = [] := by
    rw [whole, List.drop_length]
  cases silence <;> simp only [readLine, nothing]

/-- Either a line feed ends a first line, or there is none. -/
theorem newline_cases (inbox : Bytes) :
    (∃ front rest, 10 ∉ front ∧ inbox = front ++ 10 :: rest) ∨ 10 ∉ inbox := by
  by_cases listed : 10 ∈ inbox
  · obtain ⟨front, rest, same, ends⟩ := List.eq_append_cons_of_mem listed
    exact .inl ⟨front, rest, ends, same⟩
  · exact .inr listed

/-- A line is heard where a line feed ends one of no more than the limit. -/
theorem readLine_live_eq_line :
    readLine .live inbox = .line text rest ↔
      ∃ front, 10 ∉ front ∧ inbox = front ++ 10 :: rest ∧ front.length ≤ streamLimit ∧
        text = Text.stripLineEnd (decodeAscii front) := by
  constructor
  · intro heard
    rcases newline_cases inbox with ⟨front, behind, ends, rfl⟩ | listed
    · rw [readLine_newline _ ends] at heard
      split at heard
      · cases heard
      · cases heard
        exact ⟨front, ends, rfl, by omega, rfl⟩
    · rw [readLine_silent _ listed] at heard
      split at heard <;> cases heard
  · rintro ⟨front, ends, rfl, short, rfl⟩
    rw [readLine_newline _ ends, if_neg (by omega)]

theorem readLine_line_append (heard : readLine .live inbox = .line text rest) (more : Bytes) :
    readLine .live (inbox ++ more) = .line text (rest ++ more) := by
  obtain ⟨front, ends, rfl, short, rfl⟩ := readLine_live_eq_line.mp heard
  exact readLine_live_eq_line.mpr ⟨front, ends, by simp, short, rfl⟩

theorem readLine_overrun_append (heard : readLine .live inbox = .overrun rest) (more : Bytes) :
    ∃ rest, readLine .live (inbox ++ more) = .overrun rest := by
  rcases newline_cases inbox with ⟨front, behind, ends, rfl⟩ | listed
  · rw [readLine_newline _ ends] at heard
    split at heard
    · rename_i long
      rw [List.append_assoc, List.cons_append, readLine_newline _ ends, if_pos long]
      exact ⟨_, rfl⟩
    · cases heard
  · rw [readLine_silent _ listed] at heard
    split at heard
    · rename_i long
      by_cases later : 10 ∈ more
      · obtain ⟨front, behind, rfl, ends⟩ := List.eq_append_cons_of_mem later
        have open_ : 10 ∉ inbox ++ front := by simp [listed, ends]
        have longer : streamLimit < (inbox ++ front).length := by
          rw [List.length_append]
          omega
        rw [← List.append_assoc, readLine_newline _ open_, if_pos longer]
        exact ⟨_, rfl⟩
      · have open_ : 10 ∉ inbox ++ more := by simp [listed, later]
        have longer : streamLimit < (inbox ++ more).length := by
          rw [List.length_append]
          omega
        rw [readLine_silent _ open_, if_pos longer]
        exact ⟨_, rfl⟩
    · cases heard

/-- A read that would not wait does not look at what comes behind the data. -/
theorem readLine_eq_live (ready : readLine .live inbox ≠ .waiting) (silence : Silence) :
    readLine silence inbox = readLine .live inbox := by
  rcases newline_cases inbox with ⟨front, behind, ends, rfl⟩ | listed
  · rw [readLine_newline _ ends, readLine_newline _ ends]
  · rw [readLine_silent _ listed] at ready ⊢
    rw [readLine_silent _ listed]
    split
    · rfl
    · rename_i short
      simp [if_neg short] at ready

theorem readLine_ne_waiting (listed : 10 ∈ inbox) : readLine .live inbox ≠ .waiting := by
  obtain ⟨front, behind, same, ends⟩ := List.eq_append_cons_of_mem listed
  subst same
  rw [readLine_newline _ ends]
  split <;> simp

theorem readLine_nil : readLine .live [] = .waiting := by
  rw [readLine_silent _ (by simp), if_neg (by simp [streamLimit])]

theorem readLine_length (heard : readLine .live inbox = .line text rest) :
    rest.length < inbox.length := by
  obtain ⟨front, _, rfl, _, _⟩ := readLine_live_eq_line.mp heard
  simp only [List.length_append, List.length_cons]
  omega

/-- A line comes from the front of the data, and what is left is behind it. -/
theorem readLine_parts (heard : readLine silence inbox = .line text rest) :
    text <+: decodeAscii inbox ∧ rest <:+ inbox := by
  rcases newline_cases inbox with ⟨front, behind, ends, rfl⟩ | listed
  · rw [readLine_newline _ ends] at heard
    split at heard
    · cases heard
    · cases heard
      refine ⟨(Text.stripLineEnd_shorter _).trans ?_, ⟨front ++ [10], by simp⟩⟩
      rw [decodeAscii, decodeAscii, List.map_append]
      exact List.prefix_append _ _
  · rw [readLine_silent _ listed] at heard
    split at heard
    · cases heard
    · cases silence with
      | live => cases heard
      | closed =>
          cases heard
          exact ⟨Text.stripLineEnd_shorter _, List.nil_suffix⟩
      | late =>
          cases heard
          exact ⟨List.nil_prefix, List.suffix_rfl⟩

theorem readLine_overrun_suffix (long : readLine silence inbox = .overrun rest) :
    rest <:+ inbox := by
  rcases newline_cases inbox with ⟨front, behind, ends, rfl⟩ | listed
  · rw [readLine_newline _ ends] at long
    split at long
    · cases long
      exact ⟨front ++ [10], by simp⟩
    · cases long
  · rw [readLine_silent _ listed] at long
    split at long
    · cases long
      exact List.nil_suffix
    · cases silence <;> cases long

theorem decodeAscii_eq_cons {c : Char} (ascii : c.toNat < 128) {others : Text}
    (same : c :: others <+: decodeAscii inbox) :
    ∃ back, inbox = UInt8.ofNat c.toNat :: back ∧ others <+: decodeAscii back := by
  cases inbox with
  | nil => simp [decodeAscii] at same
  | cons first back =>
      obtain ⟨rfl, behind⟩ := List.cons_prefix_cons.mp same
      refine ⟨back, ?_, behind⟩
      by_cases small : first < 128
      · have value : ∀ n < 128, (Char.ofNat n).toNat = n := by decide
        simp only [if_pos small]
        rw [value first.toNat small, UInt8.ofNat_toNat]
      · simp only [if_neg small] at ascii
        exact absurd ascii (by decide)

/-- The data behind a line that announces a block. -/
theorem readLine_header (heard : readLine silence inbox = .line text rest)
    (announced : ("F> " : Text).isPrefixOf text ∨ ("F+ " : Text).isPrefixOf text) :
    ∃ c back, inbox = 70 :: c :: back ∧ (c = 62 ∨ c = 43) := by
  have decoded {c : Char} (ascii : c.toNat < 128) (header : ['F', c, ' '].isPrefixOf text) :
      ∃ back, inbox = 70 :: UInt8.ofNat c.toNat :: back := by
    have front := (List.isPrefixOf_iff_prefix.mp header).trans (readLine_parts heard).1
    obtain ⟨behind, rfl, second⟩ := decodeAscii_eq_cons (by decide) front
    obtain ⟨back, rfl, _⟩ := decodeAscii_eq_cons ascii second
    exact ⟨back, rfl⟩
  rcases announced with header | header
  · obtain ⟨back, same⟩ := decoded (c := '>') (by decide) header
    exact ⟨62, back, same, .inl rfl⟩
  · obtain ⟨back, same⟩ := decoded (c := '+') (by decide) header
    exact ⟨43, back, same, .inr rfl⟩

/-- The text of a line without a line feed, as the other side reads it. -/
def heardText (text : Text) : Text := Text.stripLineEnd (decodeAscii (encodeAscii text ++ [13]))

theorem readLine_lineBytes {plain : Text} (single : '\n' ∉ plain)
    (heard : readLine .live (lineBytes plain ++ more) = .line text rest) :
    text = heardText plain ∧ rest = more := by
  obtain ⟨front, ends, same, _, rfl⟩ := readLine_live_eq_line.mp heard
  have other : 10 ∉ encodeAscii plain ++ [13] := by
    simp [newline_not_mem_encodeAscii single]
  have whole : lineBytes plain ++ more = (encodeAscii plain ++ [13]) ++ 10 :: more := by
    simp [lineBytes_eq]
  rw [whole] at same
  have cut := congrArg (List.takeWhile (· ≠ 10)) same
  rw [takeWhile_newline other, takeWhile_newline ends] at cut
  subst cut
  have rests := List.append_cancel_left same
  exact ⟨rfl, by simpa using rests.symm⟩

end ReadLine

inductive Heard where
  | more
  | failed
  | heard (incoming : List Proposal) (rest : Bytes)

/-- The loop that collects proposals, on all that arrives. -/
def listen (incoming : List Proposal) (inbox : Bytes) : Heard :=
  match _heard : readLine .live inbox with
  | .waiting => .more
  | .overrun _ => .failed
  | .line text rest =>
      if isStop text then .heard incoming rest
      else listen (incoming ++ (parseProposal text).toList) rest
termination_by inbox.length
decreasing_by exact readLine_length _heard

/-- What `_run` makes of the other side's proposals when it takes their first line for the
response to its own. -/
def hear (inbox : Bytes) : Heard :=
  match readLine .live inbox with
  | .waiting => .more
  | .overrun _ => .failed
  | .line _ rest => listen [] rest

section Listen

variable {inbox rest left : Bytes} {text : Text} {incoming final : List Proposal}

theorem listen_waiting (waits : readLine .live inbox = .waiting) :
    listen incoming inbox = .more := by
  rw [listen]
  split
  · rfl
  · simp_all
  · simp_all

theorem listen_overrun (long : readLine .live inbox = .overrun rest) :
    listen incoming inbox = .failed := by
  rw [listen]
  split
  · simp_all
  · rfl
  · simp_all

theorem listen_line (heard : readLine .live inbox = .line text rest) :
    listen incoming inbox =
      if isStop text then .heard incoming rest
      else listen (incoming ++ (parseProposal text).toList) rest := by
  rw [listen]
  split
  · simp_all
  · simp_all
  · rename_i same
    rw [heard] at same
    cases same
    rfl

theorem listen_nil : listen incoming [] = .more := listen_waiting readLine_nil

theorem listen_append (heard : listen incoming inbox = .heard final left) (more : Bytes) :
    listen incoming (inbox ++ more) = .heard final (left ++ more) := by
  induction incoming, inbox using listen.induct with
  | case1 incoming inbox waits => simp [listen_waiting waits] at heard
  | case2 incoming inbox rest long => simp [listen_overrun long] at heard
  | case3 incoming inbox text rest line stop =>
      rw [listen_line line, if_pos stop] at heard
      cases heard
      rw [listen_line (readLine_line_append line more), if_pos stop]
  | case4 incoming inbox text rest line stop ih =>
      rw [listen_line line, if_neg stop] at heard
      rw [listen_line (readLine_line_append line more), if_neg stop]
      exact ih heard

theorem listen_failed_append (failed : listen incoming inbox = .failed) (more : Bytes) :
    listen incoming (inbox ++ more) = .failed := by
  induction incoming, inbox using listen.induct with
  | case1 incoming inbox waits => simp [listen_waiting waits] at failed
  | case2 incoming inbox rest long =>
      obtain ⟨rest, longer⟩ := readLine_overrun_append long more
      exact listen_overrun longer
  | case3 incoming inbox text rest line stop =>
      rw [listen_line line, if_pos stop] at failed
      cases failed
  | case4 incoming inbox text rest line stop ih =>
      rw [listen_line line, if_neg stop] at failed
      rw [listen_line (readLine_line_append line more), if_neg stop]
      exact ih failed

theorem hear_line (heard : readLine .live inbox = .line text rest) :
    hear inbox = listen [] rest := by
  rw [hear, heard]

theorem hear_append (heard : hear inbox = .heard final left) (more : Bytes) :
    hear (inbox ++ more) = .heard final (left ++ more) := by
  cases line : readLine .live inbox with
  | waiting => simp [hear, line] at heard
  | overrun rest => simp [hear, line] at heard
  | line text rest =>
      rw [hear_line line] at heard
      rw [hear_line (readLine_line_append line more)]
      exact listen_append heard more

theorem hear_failed_append (failed : hear inbox = .failed) (more : Bytes) :
    hear (inbox ++ more) = .failed := by
  cases line : readLine .live inbox with
  | waiting => simp [hear, line] at failed
  | overrun rest =>
      obtain ⟨rest, longer⟩ := readLine_overrun_append line more
      rw [hear, longer]
  | line text rest =>
      rw [hear_line line] at failed
      rw [hear_line (readLine_line_append line more)]
      exact listen_failed_append failed more

end Listen

/-- A line that begins with `F` and a further visible character keeps both. -/
theorem readLine_two {c : UInt8} {back rest : Bytes} {text : Text}
    (visible : c < 128 ∧ Text.isSpace (Char.ofNat c.toNat) = false)
    (heard : readLine .live (70 :: c :: back) = .line text rest) :
    (∃ others, text = 'F' :: Char.ofNat c.toNat :: others) ∧
      ∃ others, Text.strip text = 'F' :: Char.ofNat c.toNat :: others := by
  obtain ⟨ascii, solid⟩ := visible
  have noNewline : c ≠ 10 := by
    rintro rfl
    revert solid
    decide
  have noReturn : c ≠ 13 := by
    rintro rfl
    revert solid
    decide
  obtain ⟨front, _, same, _, rfl⟩ := readLine_live_eq_line.mp heard
  obtain ⟨back, rfl⟩ : ∃ back, front = 70 :: c :: back := by
    cases front with
    | nil => simp at same
    | cons first front =>
        cases front with
        | nil => simp [noNewline] at same
        | cons second front =>
            simp only [List.cons_append, List.cons.injEq] at same
            obtain ⟨rfl, rfl, _⟩ := same
            exact ⟨front, rfl⟩
  have decoded : decodeAscii (70 :: c :: back) =
      'F' :: Char.ofNat c.toNat :: decodeAscii back := by
    simp only [decodeAscii, List.map_cons, if_pos ascii]
    rfl
  have stays : Char.ofNat c.toNat ≠ '\r' ∧ Char.ofNat c.toNat ≠ '\n' := by
    constructor
    · intro same
      rw [same] at solid
      exact absurd solid (by decide)
    · intro same
      rw [same] at solid
      exact absurd solid (by decide)
  rw [decoded]
  obtain ⟨others, kept⟩ := Text.stripLineEnd_front 'F' stays (decodeAscii back)
  rw [kept]
  exact ⟨⟨others, rfl⟩, Text.strip_front (by decide) solid others⟩

/-- The bytes with which a proposal or `FF` begins. -/
def Offers (stream : Bytes) : Prop :=
  ∃ c back, stream = 70 :: c :: back ∧ (c = 65 ∨ c = 66 ∨ c = 70)

theorem Offers.append {stream : Bytes} (offers : Offers stream) (more : Bytes) :
    Offers (stream ++ more) := by
  obtain ⟨c, back, rfl, kind⟩ := offers
  exact ⟨c, back ++ more, rfl, kind⟩

/-- A proposal is no response. -/
theorem Offers.no_response {stream rest : Bytes} {text : Text} (offers : Offers stream)
    (heard : readLine .live stream = .line text rest) : parseFsResponse text = [] := by
  obtain ⟨c, back, rfl, kind⟩ := offers
  have visible : c < 128 ∧ Text.isSpace (Char.ofNat c.toNat) = false := by
    rcases kind with rfl | rfl | rfl <;> decide
  obtain ⟨others, stripped⟩ := (readLine_two visible heard).2
  have other : Char.ofNat c.toNat ≠ 'S' := by
    rcases kind with rfl | rfl | rfl <;> decide
  rw [parseFsResponse, stripped, if_neg]
  simp [other.symm]

/-- An FS line is no proposal, does not stop the list and does not announce a block. -/
theorem readLine_fs {stream rest : Bytes} {text : Text}
    (heard : readLine .live (70 :: 83 :: stream) = .line text rest) :
    ¬ isStop text ∧ parseProposal text = none ∧
      ("F> " : Text).isPrefixOf text = false ∧ ("F+ " : Text).isPrefixOf text = false := by
  obtain ⟨⟨front, rfl⟩, others, stripped⟩ := readLine_two (by decide) heard
  have second : Char.ofNat (83 : UInt8).toNat = 'S' := by decide
  rw [second] at stripped ⊢
  refine ⟨?_, ?_, rfl, rfl⟩
  · rw [isStop, stripped]
    simp
  · rw [parseProposal, stripped]
    simp

/-- The proposals of one side, as it writes them. -/
def offerBytes (now : DateTime) (useB2f : Bool) (outgoing : List Row) : Bytes :=
  outgoing.flatMap fun msg => lineBytes (formatProposal now msg useB2f)

variable {now : DateTime} {useB2f : Bool} {outgoing : List Row}

theorem proposal_begins (now : DateTime) (msg : Row) (useB2f : Bool) :
    ∃ c back, lineBytes (formatProposal now msg useB2f) = 70 :: c :: back ∧ (c = 65 ∨ c = 66) := by
  simp only [formatProposal, List.append_assoc]
  cases useB2f with
  | true => exact ⟨66, _, rfl, .inr rfl⟩
  | false => exact ⟨65, _, rfl, .inl rfl⟩

theorem offerBytes_offers (now : DateTime) (useB2f : Bool) (outgoing : List Row) :
    Offers (offerBytes now useB2f outgoing ++ lineBytes "FF") := by
  cases outgoing with
  | nil => exact ⟨70, _, rfl, .inr (.inr rfl)⟩
  | cons msg outgoing =>
      obtain ⟨c, back, begins, kind⟩ := proposal_begins now msg useB2f
      apply Offers.append
      simp only [offerBytes, List.flatMap_cons]
      apply Offers.append
      exact ⟨c, back, begins, by rcases kind with rfl | rfl <;> simp⟩

/-- Bytes in which no line is left open. -/
def WholeLines (stream : Bytes) : Prop := stream = [] ∨ ∃ front, stream = front ++ [10]

theorem wholeLines_lineBytes (text : Text) (front : Bytes) :
    WholeLines (front ++ lineBytes text) :=
  .inr ⟨front ++ encodeAscii text ++ [13], by simp [lineBytes_eq]⟩

theorem wholeLines_offerBytes (now : DateTime) (useB2f : Bool) (outgoing : List Row) :
    WholeLines (offerBytes now useB2f outgoing) := by
  rcases List.eq_nil_or_concat outgoing with rfl | ⟨front, last, rfl⟩
  · exact .inl rfl
  · simp only [offerBytes, List.concat_eq_append, List.flatMap_append, List.flatMap_cons,
      List.flatMap_nil, List.append_nil]
    exact wholeLines_lineBytes _ _

theorem WholeLines.rest {front rest : Bytes} (whole : WholeLines (front ++ 10 :: rest)) :
    WholeLines rest := by
  rcases whole with empty | ⟨all, same⟩
  · simp at empty
  · rcases List.eq_nil_or_concat rest with rfl | ⟨middle, last, rfl⟩
    · exact .inl rfl
    · rw [List.concat_eq_append] at same ⊢
      have shape : front ++ 10 :: (middle ++ [last]) = (front ++ 10 :: middle) ++ [last] := by simp
      rw [shape] at same
      exact .inr ⟨middle, by rw [(List.append_inj' same rfl).2]⟩

theorem readLine_ff (more : Bytes) :
    readLine .live (lineBytes "FF" ++ more) = .line "FF" more :=
  readLine_live_eq_line.mpr ⟨[70, 70, 13], by decide, rfl, by decide, by decide⟩

/-- Whole lines and `FF` end a list. -/
theorem listen_ends (stream : Bytes) (whole : WholeLines stream) (incoming : List Proposal) :
    listen incoming (stream ++ lineBytes "FF") ≠ .more := by
  generalize length : stream.length = n
  induction n using Nat.strongRecOn generalizing stream incoming with
  | _ n ih =>
      subst length
      rcases whole with rfl | ⟨front, rfl⟩
      · have line : readLine .live ([] ++ lineBytes "FF") = .line "FF" [] := readLine_ff []
        rw [listen_line line, if_pos (by decide)]
        simp
      · obtain ⟨head, rest, shape, ends⟩ := List.eq_append_cons_of_mem
          (by simp : (10 : UInt8) ∈ front ++ [10])
        have whole : WholeLines (front ++ [10]) := .inr ⟨front, rfl⟩
        rw [shape] at whole
        have wholeRest : WholeLines rest := whole.rest
        rw [shape, List.append_assoc, List.cons_append]
        cases line : readLine .live (head ++ 10 :: (rest ++ lineBytes "FF")) with
        | waiting => exact absurd line (readLine_ne_waiting (by simp))
        | overrun left =>
            rw [listen_overrun line]
            simp
        | line text left =>
            rw [listen_line line]
            split
            · simp
            · have same : left = rest ++ lineBytes "FF" := by
                rw [readLine_newline _ ends] at line
                split at line
                · cases line
                · cases line
                  rfl
              subst same
              refine ih rest.length ?_ rest wholeRest _ rfl
              rw [shape]
              simp only [List.length_append, List.length_cons]
              omega

/-- A list with a proposal in it is heard to its end, or breaks the session. -/
theorem hear_offers_ne_more (some_ : outgoing ≠ []) :
    hear (offerBytes now useB2f outgoing ++ lineBytes "FF") ≠ .more := by
  cases outgoing with
  | nil => exact absurd rfl some_
  | cons msg outgoing =>
      have whole := wholeLines_offerBytes now useB2f (msg :: outgoing)
      obtain ⟨head, rest, shape, ends⟩ := List.eq_append_cons_of_mem
        (by simp [offerBytes, newline_mem_lineBytes] :
          (10 : UInt8) ∈ offerBytes now useB2f (msg :: outgoing))
      rw [shape] at whole ⊢
      rw [List.append_assoc, List.cons_append, hear, readLine_newline _ ends]
      split
      · rename_i waits
        split at waits <;> cases waits
      · simp
      · rename_i line
        split at line
        · cases line
        · cases line
          exact listen_ends rest whole.rest []

/-- Without a proposal, `FF` passes for the response, and the list goes on. -/
theorem hear_no_offers (more : Bytes) : hear (lineBytes "FF" ++ more) = listen [] more :=
  hear_line (readLine_ff more)

/-- An FS line does not end the list. -/
theorem listen_fs {incoming : List Proposal} (back more : Bytes)
    (line : 10 ∉ back) :
    listen incoming (70 :: 83 :: back ++ 10 :: more) = listen incoming more ∨
      listen incoming (70 :: 83 :: back ++ 10 :: more) = .failed := by
  have ends : 10 ∉ 70 :: 83 :: back := by
    simp only [List.mem_cons, not_or]
    exact ⟨by decide, by decide, line⟩
  cases heard : readLine .live (70 :: 83 :: back ++ 10 :: more) with
  | waiting => exact absurd heard (readLine_ne_waiting (by simp))
  | overrun rest => exact .inr (listen_overrun heard)
  | line text rest =>
      left
      obtain ⟨goesOn, noProposal, _⟩ := readLine_fs heard
      have same : rest = more := by
        rw [readLine_newline _ ends] at heard
        split at heard
        · cases heard
        · cases heard
          rfl
      rw [listen_line heard, if_neg goesOn, noProposal, same]
      simp

/-- No field of the proposal holds a line feed. -/
def SingleLine (msg : Row) : Prop :=
  '\n' ∉ msg.toCall ∧ '\n' ∉ msg.fromCall ∧ '\n' ∉ msg.bid ∧ '\n' ∉ msg.subject

instance (msg : Row) : Decidable (SingleLine msg) := inferInstanceAs (Decidable (_ ∧ _))

theorem newline_not_mem_date (date : DateTime) : '\n' ∉ date.format := by
  have padded (width n : Nat) : '\n' ∉ DateTime.padded width n := by
    simp [DateTime.padded, newline_not_mem_digits]
  simp [DateTime.format, padded]

theorem SingleLine.proposal {msg : Row} (single : SingleLine msg) (now : DateTime)
    (binary : Bool) : '\n' ∉ formatProposal now msg binary := by
  obtain ⟨toCall, fromCall, bid, subject⟩ := single
  cases binary <;>
    simp [formatProposal, toCall, fromCall, bid, subject, newline_not_mem_digits,
      newline_not_mem_date]

/-- A proposal of one line takes its own bytes, and does not end the list. -/
theorem SingleLine.heard {msg : Row} (single : SingleLine msg) {more rest : Bytes} {text : Text}
    (heard : readLine .live (lineBytes (formatProposal now msg useB2f) ++ more) =
      .line text rest) : ¬ isStop text ∧ rest = more := by
  refine ⟨?_, (readLine_lineBytes (single.proposal now useB2f) heard).2⟩
  obtain ⟨c, back, begins, kind⟩ := proposal_begins now msg useB2f
  rw [begins] at heard
  have visible : c < 128 ∧ Text.isSpace (Char.ofNat c.toNat) = false := by
    rcases kind with rfl | rfl <;> decide
  obtain ⟨others, stripped⟩ := (readLine_two visible heard).2
  rw [isStop, stripped]
  rcases kind with rfl | rfl <;> simp

/-- A list of such proposals is heard whole, or breaks the session. -/
theorem listen_single (single : ∀ msg ∈ outgoing, SingleLine msg) (incoming : List Proposal) :
    listen incoming (offerBytes now useB2f outgoing ++ lineBytes "FF") = .failed ∨
      ∃ all, listen incoming (offerBytes now useB2f outgoing ++ lineBytes "FF") =
        .heard all [] := by
  induction outgoing generalizing incoming with
  | nil =>
      have line := readLine_ff []
      rw [List.append_nil] at line
      refine .inr ⟨incoming, ?_⟩
      rw [offerBytes, List.flatMap_nil, List.nil_append, listen_line line, if_pos (by decide)]
  | cons msg outgoing ih =>
      have shape : offerBytes now useB2f (msg :: outgoing) ++ lineBytes "FF" =
          lineBytes (formatProposal now msg useB2f) ++
            (offerBytes now useB2f outgoing ++ lineBytes "FF") := by
        simp [offerBytes]
      rw [shape]
      cases line : readLine .live (lineBytes (formatProposal now msg useB2f) ++
          (offerBytes now useB2f outgoing ++ lineBytes "FF")) with
      | waiting => exact absurd line (readLine_ne_waiting (by simp [newline_mem_lineBytes]))
      | overrun rest => exact .inl (listen_overrun line)
      | line text rest =>
          obtain ⟨goesOn, rfl⟩ := (single msg List.mem_cons_self).heard line
          rw [listen_line line, if_neg goesOn]
          exact ih (fun other listed => single other (List.mem_cons_of_mem _ listed)) _

/-- Nothing of it is left over. -/
theorem hear_single (single : ∀ msg ∈ outgoing, SingleLine msg) {all : List Proposal}
    {left : Bytes} (heard : hear (offerBytes now useB2f outgoing ++ lineBytes "FF") =
      .heard all left) : left = [] := by
  cases outgoing with
  | nil =>
      have open_ := hear_no_offers []
      rw [List.append_nil, listen_nil] at open_
      rw [offerBytes, List.flatMap_nil, List.nil_append, open_] at heard
      cases heard
  | cons msg outgoing =>
      have shape : offerBytes now useB2f (msg :: outgoing) ++ lineBytes "FF" =
          lineBytes (formatProposal now msg useB2f) ++
            (offerBytes now useB2f outgoing ++ lineBytes "FF") := by
        simp [offerBytes]
      rw [shape] at heard
      cases line : readLine .live (lineBytes (formatProposal now msg useB2f) ++
          (offerBytes now useB2f outgoing ++ lineBytes "FF")) with
      | waiting => exact absurd line (readLine_ne_waiting (by simp [newline_mem_lineBytes]))
      | overrun rest =>
          rw [hear, line] at heard
          cases heard
      | line text rest =>
          obtain ⟨_, rfl⟩ := (single msg List.mem_cons_self).heard line
          rw [hear_line line] at heard
          rcases @listen_single now useB2f outgoing
            (fun other listed => single other (List.mem_cons_of_mem _ listed)) [] with
            failed | ⟨_, whole⟩
          · rw [failed] at heard
            cases heard
          · rw [whole] at heard
            cases heard
            rfl

end PyBulletin.Forward
