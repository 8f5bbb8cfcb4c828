import PyBulletin.Web.Server

set_option autoImplicit false

namespace PyBulletin.Web

open PyBulletin.Foundation

/-! # Requests sent back to back

What a peer sends are whole requests, one after the other.  A reader that stands at the
first byte of one of them leaves the stream at the first byte of the next, unless the body
is longer than `maxBody`. -/

/-- The stream carries a prefix of some bytes, all of them where the peer has ended it. -/
structure Stream.Carries (s : Stream) (bytes : Bytes) : Prop where
  ahead : s.arrived <+: bytes
  whole : s.closed → s.arrived = bytes

namespace Stream.Carries

variable {s : Stream} {front back line tail : Bytes}

theorem split (carried : s.Carries (front ++ back)) (inside : front.length ≤ s.arrived.length) :
    s.arrived = front ++ s.arrived.drop front.length := by
  obtain ⟨rest, whole⟩ :=
    List.prefix_of_prefix_length_le (List.prefix_append front back) carried.ahead inside
  rw [← whole, List.drop_left]

theorem advance (carried : s.Carries (front ++ back)) (inside : front.length ≤ s.arrived.length) :
    (s.advance front.length).Carries back := by
  constructor
  · have ahead := carried.ahead
    rw [carried.split inside] at ahead
    exact (List.prefix_append_right_inj front).mp ahead
  · intro closed
    have whole := carried.whole closed
    rw [carried.split inside] at whole
    exact List.append_cancel_left whole

theorem behind (carried : s.Carries (line ++ 10 :: tail))
    (inside : line.length < s.arrived.length) : (s.advance (line.length + 1)).Carries tail := by
  have front : s.Carries ((line ++ [10]) ++ tail) := by simpa using carried
  have long : (line ++ [10]).length ≤ s.arrived.length := by
    rw [List.length_append, List.length_singleton]
    omega
  simpa using front.advance long

/-- A line is read when all of it has arrived and the reader's limit allows it. -/
theorem readline (carried : s.Carries (line ++ 10 :: tail)) (unbroken : (10 : UInt8) ∉ line) :
    s.readline =
      if line.length ≤ lineLimit ∧ line.length < s.arrived.length then
        some (line ++ [10], s.advance (line.length + 1))
      else none := by
  have inside : ∀ b ∈ line, decide (b ≠ 10) = true := by
    intro b listed
    simp only [ne_eq, decide_not, Bool.not_eq_eq_eq_not, Bool.not_true, decide_eq_false_iff_not]
    rintro rfl
    exact unbroken listed
  by_cases arrived : line.length < s.arrived.length
  · have first : s.Carries ((line ++ [10]) ++ tail) := by simpa using carried
    have split : s.arrived = line ++ 10 :: s.arrived.drop (line.length + 1) := by
      have long : (line ++ [10]).length ≤ s.arrived.length := by
        rw [List.length_append, List.length_singleton]
        omega
      simpa using first.split long
    have front : s.arrived.takeWhile (· ≠ 10) = line := by
      rw [split, List.takeWhile_append_of_pos inside]
      simp
    have behind : s.arrived.dropWhile (· ≠ 10) = 10 :: s.arrived.drop (line.length + 1) := by
      conv_lhs => rw [split, List.dropWhile_append_of_pos inside]
      simp
    simp only [Stream.readline, front, behind, arrived, and_true]
    by_cases long : line.length ≤ lineLimit
    · rw [if_neg (by omega), if_pos long]
      rfl
    · rw [if_pos (by omega), if_neg long]
  · have cut : s.arrived <+: line :=
      List.prefix_of_prefix_length_le carried.ahead (List.prefix_append line _) (by omega)
    have open_ : s.closed = false := by
      by_contra closed
      have same := congrArg List.length (carried.whole (by simpa using closed))
      simp only [List.length_append, List.length_cons] at same
      omega
    have none_ : s.arrived.dropWhile (· ≠ 10) = [] :=
      List.dropWhile_eq_nil_iff.mpr fun b listed => inside b (cut.subset listed)
    simp only [Stream.readline, none_, open_, arrived, and_false, if_false, Bool.false_eq_true,
      ite_self]

end Stream.Carries

/-- A visible ASCII character. -/
def isVisible (c : Char) : Bool := 33 ≤ c.toNat ∧ c.toNat ≤ 126

/-- A character of a token. -/
def isToken (c : Char) : Bool := c.isAlphanum ∨ c ∈ "!#$%&'*+-.^_`|~".toList

theorem isToken_visible {c : Char} (token : isToken c) : isVisible c ∧ c ≠ ':' := by
  simp only [isToken, decide_eq_true_eq] at token
  rcases token with letter | mark
  · have bounds := Text.alphanum_bounds letter
    refine ⟨by simp only [isVisible, decide_eq_true_eq]; omega, ?_⟩
    rintro rfl
    revert bounds
    decide
  · revert c
    decide

theorem isVisible_plain {c : Char} (visible : isVisible c) :
    Utf8.isAscii c ∧ Text.isSpace c = false := by
  simp only [isVisible, decide_eq_true_eq] at visible
  simp only [Utf8.isAscii, Text.isSpace, decide_eq_true_eq, decide_eq_false_iff_not]
  omega

/-- A header field: a token, and any bytes without a line break behind the colon. -/
structure Field where
  name : Text
  value : Bytes
  token : name ≠ [] ∧ name.all isToken
  unbroken : ∀ b ∈ value, b ≠ 10 ∧ b ≠ 13

namespace Field

variable (field : Field)

/-- Names do not depend on case, and blanks around a value do not belong to it. -/
def header : Text × Text :=
  (Text.lower field.name, Text.strip (Utf8.decode field.value))

def line : Bytes := Utf8.ascii field.name ++ 58 :: (field.value ++ [13])

def encode : Bytes := field.line ++ [10]

theorem name_token {c : Char} (listed : c ∈ field.name) : isToken c :=
  List.all_eq_true.mp field.token.2 c listed

theorem name_ascii : field.name.all Utf8.isAscii :=
  List.all_eq_true.mpr fun _ listed =>
    (isVisible_plain (isToken_visible (field.name_token listed)).1).1

theorem name_word : Text.OneWord field.name :=
  Text.oneWord_iff.mpr ⟨field.token.1, fun _ listed =>
    (isVisible_plain (isToken_visible (field.name_token listed)).1).2⟩

theorem decode_field :
    Utf8.decode field.encode =
      field.name ++ ':' :: (Utf8.decode field.value ++ ['\r', '\n']) := by
  have colon : Utf8.decode (58 :: (field.value ++ [13, 10])) =
      ':' :: Utf8.decode (field.value ++ [13, 10]) := rfl
  have shape : field.encode = Utf8.ascii field.name ++ 58 :: (field.value ++ [13, 10]) := by
    simp [encode, line]
  rw [shape, Utf8.decode_ascii_append field.name_ascii, colon, Utf8.decode_crlf]

theorem strip_encode :
    Text.strip (Utf8.decode field.encode) =
      field.name ++ ':' :: (Utf8.decode field.value ++ ['\r', '\n']).rdropWhile Text.isSpace := by
  rw [decode_field]
  have plain := (Text.oneWord_iff.mp field.name_word).2
  cases shape : field.name with
  | nil => exact absurd shape field.token.1
  | cons c name =>
      rw [List.cons_append, Text.strip_visible (plain c (shape ▸ List.mem_cons_self)),
        ← List.cons_append, Text.rdropWhile_keep (by decide)]

theorem splitHeader_encode :
    splitHeader (Text.strip (Utf8.decode field.encode)) = field.header := by
  have before : ∀ c ∈ field.name, decide (c ≠ ':') = true := fun c listed => by
    simpa using (isToken_visible (field.name_token listed)).2
  have ends (text : Text) : Text.strip (text ++ ['\r', '\n']) = Text.strip text := by
    have two : text ++ ['\r', '\n'] = (text ++ ['\r']) ++ ['\n'] := by simp
    rw [two, Text.strip_concat (by decide), Text.strip_concat (by decide)]
  have colon (text : Text) : (':' :: text).takeWhile (· ≠ ':') = [] ∧
      ((':' :: text).dropWhile (· ≠ ':')).tail = text := by simp
  rw [strip_encode]
  simp only [splitHeader, Text.partition, List.takeWhile_append_of_pos before,
    List.dropWhile_append_of_pos before, colon, List.append_nil,
    Text.strip_oneWord field.name_word, Text.strip_rdropWhile, ends]
  rfl

theorem line_unbroken : (10 : UInt8) ∉ field.line := by
  simp only [line, List.mem_append, List.mem_cons, List.not_mem_nil, or_false, not_or]
  refine ⟨fun listed => ?_, by decide, fun listed => (field.unbroken 10 listed).1 rfl, by decide⟩
  have token := field.name_token (Utf8.mem_of_mem_ascii field.name_ascii listed)
  revert token
  decide

theorem strip_encode_ne_nil : Text.strip (Utf8.decode field.encode) ≠ [] := by
  rw [strip_encode]
  exact List.append_ne_nil_of_right_ne_nil _ (List.cons_ne_nil _ _)

end Field

theorem setHeader_new {headers : List (Text × Text)} {name : Text} (value : Text)
    (new : name ∉ headers.map Prod.fst) :
    setHeader headers name value = headers ++ [(name, value)] := by
  have none_ : headers.any (·.1 = name) = false := by
    rw [List.any_eq_false]
    intro header listed same
    exact new (List.mem_map.mpr ⟨header, listed, by simpa using same⟩)
  rw [setHeader, none_]
  rfl

/-- The header lines and the blank one behind them are read up to the body. -/
theorem readHeaders_fields {fields : List Field} {headers : List (Text × Text)} {s : Stream}
    {tail : Bytes} (carried : s.Carries (fields.flatMap Field.encode ++ 13 :: 10 :: tail))
    (distinct : (headers.map Prod.fst ++ fields.map (·.header.1)).Nodup) :
    readHeaders headers s =
      if (∀ field ∈ fields, field.line.length ≤ lineLimit) ∧
          (fields.flatMap Field.encode).length + 2 ≤ s.arrived.length then
        some (headers ++ fields.map Field.header,
          s.advance ((fields.flatMap Field.encode).length + 2))
      else none := by
  induction fields generalizing headers s with
  | nil =>
      have line : s.Carries ([13] ++ 10 :: tail) := carried
      have read := line.readline (by decide)
      have short : ([13] : Bytes).length ≤ lineLimit := by decide
      by_cases arrived : 2 ≤ s.arrived.length
      · rw [if_pos ⟨short, arrived⟩] at read
        rw [readHeaders_blank read (by decide), if_pos (by simpa using arrived)]
        simp
      · rw [if_neg fun both => arrived both.2] at read
        rw [readHeaders_over read, if_neg fun both => arrived both.2]
  | cons field fields ih =>
      have shape : s.Carries
          (field.line ++ 10 :: (fields.flatMap Field.encode ++ 13 :: 10 :: tail)) := by
        simpa [Field.encode] using carried
      have length : ((field :: fields).flatMap Field.encode).length =
          field.line.length + 1 + (fields.flatMap Field.encode).length := by
        simp only [List.flatMap_cons, Field.encode, List.length_append, List.length_singleton]
      have read := shape.readline field.line_unbroken
      by_cases arrived : field.line.length ≤ lineLimit ∧ field.line.length < s.arrived.length
      · rw [if_pos arrived] at read
        have rest := shape.behind arrived.2
        have new : field.header.1 ∉ headers.map Prod.fst := fun listed =>
          (List.nodup_append.mp distinct).2.2 _ listed _ List.mem_cons_self rfl
        have later : ((headers ++ [field.header]).map Prod.fst ++
            fields.map (·.header.1)).Nodup := by
          simpa using distinct
        rw [readHeaders_line read field.strip_encode_ne_nil, ← Field.encode,
          field.splitHeader_encode]
        dsimp only
        rw [setHeader_new _ new, ih rest later]
        have same : (∀ f ∈ fields, f.line.length ≤ lineLimit) ∧
            (fields.flatMap Field.encode).length + 2 ≤
              (s.advance (field.line.length + 1)).arrived.length ↔
            (∀ f ∈ field :: fields, f.line.length ≤ lineLimit) ∧
              ((field :: fields).flatMap Field.encode).length + 2 ≤ s.arrived.length := by
          rw [Stream.arrived_advance, List.length_drop, length, List.forall_mem_cons]
          constructor
          · rintro ⟨short, long⟩
            exact ⟨⟨arrived.1, short⟩, by omega⟩
          · rintro ⟨⟨-, short⟩, long⟩
            exact ⟨short, by omega⟩
        rw [if_congr same rfl rfl, Stream.advance_advance, length, List.map_cons,
          List.append_assoc, List.singleton_append, Nat.add_assoc]
      · rw [if_neg arrived] at read
        rw [readHeaders_over read, if_neg]
        rintro ⟨short, long⟩
        exact arrived ⟨short field List.mem_cons_self, by omega⟩

/-- The header says how long the body is; without a word about it there is none. -/
def Measured (headers : List (Text × Text)) (body : Bytes) : Prop :=
  match headers.lookup ("content-length" : Text) with
  | none => body = []
  | some stated => Text.isDigits stated ∧ Nat.ofDigitChars 10 stated 0 = body.length

/-- A well-formed request as it is sent. -/
structure Message where
  method : Text
  target : Text
  fields : List Field
  body : Bytes
  token : method ≠ [] ∧ method.all isToken
  visible : target ≠ [] ∧ target.all isVisible
  distinct : (fields.map (·.header.1)).Nodup
  measured : Measured (fields.map Field.header) body

namespace Message

variable (message : Message)

def requestText : Text := message.method ++ ' ' :: (message.target ++ " HTTP/1.1\r".toList)

def head : Bytes :=
  Utf8.ascii message.requestText ++ 10 :: (message.fields.flatMap Field.encode ++ [13, 10])

def encode : Bytes := message.head ++ message.body

/-- The request as a handler sees it. -/
def request (unquote : Text → Text) (message : Message) : HTTPRequest where
  method := Text.upper message.method
  path := unquote (Text.partition '?' message.target).1
  query := (Text.partition '?' message.target).2
  headers := message.fields.map Field.header
  body := message.body

/-- No line of the head is longer than the reader's limit, no number longer than `int`
converts. -/
def Readable : Prop :=
  message.requestText.length ≤ lineLimit ∧
    (∀ field ∈ message.fields, field.line.length ≤ lineLimit) ∧
    ∀ stated ∈ (message.fields.map Field.header).lookup ("content-length" : Text),
      stated.length ≤ Text.maxIntDigits

/-- As much of the message arrives as the server asks for. -/
def Delivered (s : Stream) : Prop :=
  message.Readable ∧
    message.head.length + min message.body.length maxBody ≤ s.arrived.length

instance : Decidable message.Readable := inferInstanceAs (Decidable (_ ∧ _ ∧ _))

instance (s : Stream) : Decidable (message.Delivered s) := inferInstanceAs (Decidable (_ ∧ _))

theorem contentLength_fields :
    contentLength (message.fields.map Field.header) =
      if ∀ stated ∈ (message.fields.map Field.header).lookup ("content-length" : Text),
          stated.length ≤ Text.maxIntDigits then some (message.body.length : Int)
      else none := by
  have measured := message.measured
  simp only [Measured] at measured
  cases found : (message.fields.map Field.header).lookup ("content-length" : Text) with
  | none =>
      rw [found] at measured
      have empty : message.body = [] := measured
      simp only [contentLength, found, empty]
      rw [if_pos (by simp)]
      rfl
  | some stated =>
      rw [found] at measured
      obtain ⟨digits, value⟩ := measured
      simp only [Text.isDigits, decide_eq_true_eq, List.all_eq_true] at digits
      have bounds : ∀ c ∈ stated, 48 ≤ c.toNat ∧ c.toNat ≤ 57 := fun c listed => by
        have digit := digits.2 c listed
        simp only [Char.isDigit, Bool.and_eq_true, decide_eq_true_eq] at digit
        exact digit
      have read := Text.parseInt_numeral digits.1 bounds
      cases stated with
      | nil => exact absurd rfl digits.1
      | cons c stated =>
          simp only [contentLength, found, Option.mem_some_iff, forall_eq']
          rw [read, value]
          by_cases long : Text.maxIntDigits < (c :: stated).length
          · rw [if_pos long, if_neg (by omega)]
          · rw [if_neg long, if_pos (by omega)]

/-- A body that is longer than `maxBody` is read up to there only. -/
theorem readBody_message {s : Stream} {tail : Bytes}
    (carried : s.Carries (message.body ++ tail)) :
    readBody (message.fields.map Field.header) s =
      if (∀ stated ∈ (message.fields.map Field.header).lookup ("content-length" : Text),
            stated.length ≤ Text.maxIntDigits) ∧
          min message.body.length maxBody ≤ s.arrived.length then
        some (message.body.take maxBody, s.advance (min message.body.length maxBody))
      else none := by
  rw [readBody, contentLength_fields]
  by_cases stated : ∀ stated ∈ (message.fields.map Field.header).lookup ("content-length" : Text),
      stated.length ≤ Text.maxIntDigits
  · rw [if_pos stated]
    simp only [Int.toNat_natCast]
    by_cases some_ : 0 < message.body.length
    · rw [if_pos (by omega), Stream.readexactly]
      by_cases arrived : min message.body.length maxBody ≤ s.arrived.length
      · have front : s.Carries
            (message.body.take maxBody ++ (message.body.drop maxBody ++ tail)) := by
          rwa [← List.append_assoc, List.take_append_drop]
        have length : (message.body.take maxBody).length = min message.body.length maxBody := by
          rw [List.length_take, Nat.min_comm]
        have split := front.split (length ▸ arrived)
        have read : s.arrived.take (min message.body.length maxBody) =
            message.body.take maxBody := by
          rw [split, ← length, List.take_left]
        rw [if_pos arrived, if_pos ⟨stated, arrived⟩, read]
      · rw [if_neg arrived, if_neg fun both => arrived both.2]
    · have empty : message.body = [] := List.length_eq_zero_iff.mp (by omega)
      rw [if_neg (by omega), empty, if_pos ⟨stated, Nat.zero_le _⟩]
      rfl
  · rw [if_neg stated, if_neg fun both => stated both.1]

theorem requestText_ascii : message.requestText.all Utf8.isAscii := by
  have method : message.method.all Utf8.isAscii := List.all_eq_true.mpr fun c listed =>
    (isVisible_plain (isToken_visible (List.all_eq_true.mp message.token.2 c listed)).1).1
  have target : message.target.all Utf8.isAscii := List.all_eq_true.mpr fun c listed =>
    (isVisible_plain (List.all_eq_true.mp message.visible.2 c listed)).1
  rw [requestText, List.all_append, List.all_cons, List.all_append, method, target]
  decide

theorem method_word : Text.OneWord message.method :=
  Text.oneWord_iff.mpr ⟨message.token.1, fun c listed =>
    (isVisible_plain (isToken_visible (List.all_eq_true.mp message.token.2 c listed)).1).2⟩

theorem target_word : Text.OneWord message.target :=
  Text.oneWord_iff.mpr ⟨message.visible.1, fun c listed =>
    (isVisible_plain (List.all_eq_true.mp message.visible.2 c listed)).2⟩

theorem splitMax_requestText :
    Text.splitMax 2 (Text.strip (Utf8.decode (Utf8.ascii message.requestText ++ [10]))) =
      [message.method, message.target, "HTTP/1.1"] := by
  have method := message.method_word
  have target := message.target_word
  rw [Utf8.decode_ascii_append message.requestText_ascii, requestText]
  cases first : message.method with
  | nil => exact absurd first message.token.1
  | cons c name =>
      cases second : message.target with
      | nil => exact absurd second message.visible.1
      | cons d path =>
          rw [first] at method
          rw [second] at target
          have begins := (Text.oneWord_iff.mp method).2 c List.mem_cons_self
          have follows := (Text.oneWord_iff.mp target).2 d List.mem_cons_self
          have whole : (c :: name ++ ' ' :: (d :: path ++ " HTTP/1.1\r".toList)) ++
              Utf8.decode [10] =
              c :: (name ++ ' ' :: (d :: path ++ " HTTP/1.".toList)) ++ ['1'] ++ ['\r', '\n'] := by
            simp [show Utf8.decode [10] = ['\n'] from rfl]
          have words : c :: (name ++ ' ' :: (d :: path ++ " HTTP/1.".toList)) ++ ['1'] =
              (c :: name) ++ ' ' :: d :: (path ++ ' ' :: 'H' :: "TTP/1.1".toList) := by simp
          have rest : d :: (path ++ ' ' :: 'H' :: "TTP/1.1".toList) =
              (d :: path) ++ ' ' :: 'H' :: "TTP/1.1".toList := rfl
          rw [whole, Text.strip_blanks begins (by decide) _ (by decide), words,
            Text.splitMax_word method follows, rest, Text.splitMax_word target (by decide),
            Text.splitMax_last (by decide)]
          rfl

theorem requestText_unbroken : (10 : UInt8) ∉ Utf8.ascii message.requestText := by
  intro listed
  have newline := Utf8.mem_of_mem_ascii message.requestText_ascii listed
  simp only [requestText, List.mem_append, List.mem_cons] at newline
  have outside : isToken '\n' = false ∧ isVisible '\n' = false := by decide
  rcases newline with listed | same | listed | listed
  · have token := List.all_eq_true.mp message.token.2 _ listed
    rw [outside.1] at token
    contradiction
  · revert same
    decide
  · have visible := List.all_eq_true.mp message.visible.2 _ listed
    rw [outside.2] at visible
    contradiction
  · revert listed
    decide

variable {message}

/-- A message is parsed as the request it is, but for the end of a long body. -/
theorem parseRequest_message {unquote : Text → Text} {s : Stream} {tail : Bytes}
    (carried : s.Carries (message.encode ++ tail)) :
    parseRequest unquote s =
      if message.Delivered s then
        some ({ message.request unquote with body := message.body.take maxBody },
          s.advance (message.head.length + min message.body.length maxBody))
      else none := by
  have shape : s.Carries (Utf8.ascii message.requestText ++
      10 :: (message.fields.flatMap Field.encode ++ 13 :: 10 :: (message.body ++ tail))) := by
    simpa [encode, head] using carried
  have read := shape.readline message.requestText_unbroken
  have length : message.head.length = (Utf8.ascii message.requestText).length + 1 +
      ((message.fields.flatMap Field.encode).length + 2) := by
    simp only [head, List.length_append, List.length_cons, List.length_nil]
    omega
  have same : (Utf8.ascii message.requestText).length = message.requestText.length :=
    List.length_map _
  by_cases first : (Utf8.ascii message.requestText).length ≤ lineLimit ∧
      (Utf8.ascii message.requestText).length < s.arrived.length
  · rw [if_pos first] at read
    have behind := shape.behind first.2
    have headers := @readHeaders_fields _ [] _ _ behind (by simpa using message.distinct)
    have some_ : Utf8.ascii message.requestText ++ [10] ≠ [] := by simp
    by_cases listed : (∀ field ∈ message.fields, field.line.length ≤ lineLimit) ∧
        (message.fields.flatMap Field.encode).length + 2 ≤
          (s.advance ((Utf8.ascii message.requestText).length + 1)).arrived.length
    · rw [if_pos listed] at headers
      have front : (s.advance ((Utf8.ascii message.requestText).length + 1)).Carries
          ((message.fields.flatMap Field.encode ++ [13, 10]) ++ (message.body ++ tail)) := by
        simpa using behind
      have last := front.advance (by simpa using listed.2)
      rw [List.length_append, Stream.advance_advance] at last
      change (s.advance (_ + (_ + 2))).Carries _ at last
      have body := message.readBody_message last
      rw [Stream.advance_advance, List.nil_append, ← length] at headers
      rw [← length] at body
      have enough : ((∀ stated ∈
              (message.fields.map Field.header).lookup ("content-length" : Text),
            stated.length ≤ Text.maxIntDigits) ∧
          min message.body.length maxBody ≤ (s.advance message.head.length).arrived.length) ↔
          message.Delivered s := by
        rw [Stream.arrived_advance, List.length_drop] at listed
        rw [Stream.arrived_advance, List.length_drop, Delivered, Readable]
        constructor
        · rintro ⟨stated, long⟩
          exact ⟨⟨same ▸ first.1, listed.1, stated⟩, by omega⟩
        · rintro ⟨⟨-, -, stated⟩, long⟩
          exact ⟨stated, by omega⟩
      simp only [parseRequest, read, headers, body, message.splitMax_requestText, some_, if_false,
        Option.bind_eq_bind, Option.bind_some, if_congr enough rfl rfl, Stream.advance_advance]
      by_cases delivered : message.Delivered s
      · rw [if_pos delivered, if_pos delivered]
        rfl
      · rw [if_neg delivered, if_neg delivered]
        rfl
    · rw [if_neg listed] at headers
      simp only [parseRequest, read, headers, message.splitMax_requestText, some_, if_false,
        Option.bind_eq_bind, Option.bind_some, Option.bind_none]
      rw [if_neg]
      rintro ⟨⟨-, short, -⟩, long⟩
      rw [Stream.arrived_advance, List.length_drop] at listed
      exact listed ⟨short, by omega⟩
  · rw [if_neg first] at read
    rw [parseRequest, read, if_neg]
    · rfl
    · rintro ⟨⟨short, -, -⟩, long⟩
      exact first ⟨by omega, by omega⟩

end Message

namespace HTTPServer

variable (server : HTTPServer)

/-- The requests that are passed on from the `k`-th on. -/
def passedOn (k : Nat) (s : Stream) : List HTTPRequest :=
  ((server.handleConnection k s).filterMap Call.passed).map Passed.request

/-- The messages the server comes to: they arrive within its limits, and it has not closed
the connection behind an earlier one. -/
def reached : Nat → Stream → List Message → List Message
  | _, _, [] => []
  | k, s, message :: messages =>
      if message.Delivered s then
        message ::
          if (server.serve k (message.request server.unquote)).2 then
            reached (k + 1) (s.advance message.encode.length) messages
          else []
      else []

/-- The messages on a connection are framed: what is passed on are the first of them, up
to the one the connection ends with, and no call of `_parse_request` starts elsewhere than
at the first byte of one of them or behind them all. -/
structure Framed (k : Nat) (s : Stream) (messages : List Message) : Prop where
  requests : server.passedOn k s <+: messages.map (Message.request server.unquote)
  complete : server.passedOn k s =
    (server.reached k s messages).map (Message.request server.unquote)
  starts : ∀ call ∈ server.handleConnection k s, ∃ done later,
    messages = done ++ later ∧ s.arrived = done.flatMap Message.encode ++ call.ahead

variable {server} {s : Stream} {message : Message} {messages : List Message} {k : Nat}

theorem reached_prefix : server.reached k s messages <+: messages := by
  induction messages generalizing k s with
  | nil => exact List.prefix_rfl
  | cons message messages ih =>
      rw [reached]
      split
      · refine List.cons_prefix_cons.mpr ⟨rfl, ?_⟩
        split
        · exact ih
        · exact List.nil_prefix
      · exact List.nil_prefix

theorem passedOn_over (parsed : parseRequest server.unquote s = none) :
    server.passedOn k s = [] := by
  rw [passedOn, handleConnection_over k parsed]
  rfl

theorem passedOn_request {rest : Stream} {req : HTTPRequest}
    (parsed : parseRequest server.unquote s = some (req, rest)) :
    server.passedOn k s =
      req :: if (server.serve k req).2 then server.passedOn (k + 1) rest else [] := by
  have first := server.request_serve k req
  rw [passedOn, handleConnection_request k parsed]
  simp only [List.filterMap_cons, List.map_cons, first]
  split <;> rfl

/-- A connection that is over before a message is read. -/
theorem framed_over (parsed : parseRequest server.unquote s = none)
    (none_ : server.reached k s messages = []) : server.Framed k s messages where
  requests := by
    rw [passedOn_over parsed]
    exact List.nil_prefix
  complete := by rw [passedOn_over parsed, none_, List.map_nil]
  starts := by
    intro call listed
    rw [handleConnection_over k parsed, List.mem_singleton] at listed
    exact ⟨[], messages, rfl, by rw [listed]; rfl⟩

section

variable {tail : Bytes} (carried : s.Carries (message.encode ++ tail))
  (delivered : message.Delivered s)

include carried delivered

/-- The first request that is passed on is the message, cut at `maxBody`. -/
theorem passedOn_delivered : ∃ rest : List HTTPRequest,
    server.passedOn k s =
      { message.request server.unquote with body := message.body.take maxBody } :: rest := by
  have parsed := @Message.parseRequest_message _ server.unquote _ _ carried
  rw [if_pos delivered] at parsed
  exact ⟨_, passedOn_request parsed⟩

/-- A message of permitted length leaves the stream behind it. -/
theorem parseRequest_short (unquote : Text → Text) (short : message.body.length ≤ maxBody) :
    parseRequest unquote s =
      some (message.request unquote, s.advance message.encode.length) := by
  have parsed := @Message.parseRequest_message _ unquote _ _ carried
  rw [if_pos delivered, List.take_of_length_le short, Nat.min_eq_left short,
    ← List.length_append] at parsed
  exact parsed

end

theorem encode_arrived (delivered : message.Delivered s)
    (short : message.body.length ≤ maxBody) : message.encode.length ≤ s.arrived.length := by
  rw [Message.encode, List.length_append]
  exact Nat.min_eq_left short ▸ delivered.2

theorem bounded_of_prefix (carried : s.Carries (messages.flatMap Message.encode))
    (requests : server.passedOn k s <+: messages.map (Message.request server.unquote)) :
    ∀ message ∈ server.reached k s messages, message.body.length ≤ maxBody := by
  induction messages generalizing k s with
  | nil => simp [reached]
  | cons message messages ih =>
      rw [List.flatMap_cons] at carried
      rw [reached]
      by_cases delivered : message.Delivered s
      · obtain ⟨rest, passed⟩ := passedOn_delivered (k := k) carried delivered
        have short : message.body.length ≤ maxBody := by
          rw [passed, List.map_cons] at requests
          have same := congrArg HTTPRequest.body (List.cons_prefix_cons.mp requests).1
          exact List.take_eq_self_iff message.body |>.mp same
        have parsed := parseRequest_short carried delivered server.unquote short
        rw [passedOn_request parsed, List.map_cons] at requests
        have later := (List.cons_prefix_cons.mp requests).2
        rw [if_pos delivered, List.forall_mem_cons]
        refine ⟨short, ?_⟩
        split
        · next goesOn =>
            rw [if_pos goesOn] at later
            exact ih (carried.advance (encode_arrived delivered short)) later
        · simp
      · rw [if_neg delivered]
        simp

theorem framed_of_bounded (carried : s.Carries (messages.flatMap Message.encode))
    (bounded : ∀ message ∈ server.reached k s messages, message.body.length ≤ maxBody) :
    server.Framed k s messages := by
  induction messages generalizing k s with
  | nil => exact framed_over (parseRequest_end _ (List.prefix_nil.mp carried.ahead)) rfl
  | cons message messages ih =>
      rw [List.flatMap_cons] at carried
      by_cases delivered : message.Delivered s
      · rw [reached, if_pos delivered, List.forall_mem_cons] at bounded
        have parsed := parseRequest_short carried delivered server.unquote bounded.1
        have arrived := encode_arrived delivered bounded.1
        by_cases goesOn : (server.serve k (message.request server.unquote)).2
        · rw [if_pos goesOn] at bounded
          have framed := ih (carried.advance arrived) bounded.2
          constructor
          · rw [passedOn_request parsed, if_pos goesOn, List.map_cons]
            exact List.cons_prefix_cons.mpr ⟨rfl, framed.requests⟩
          · rw [passedOn_request parsed, if_pos goesOn, reached, if_pos delivered, if_pos goesOn,
              List.map_cons, framed.complete]
          · intro call listed
            rw [handleConnection_request k parsed, if_pos goesOn, List.mem_cons] at listed
            rcases listed with rfl | listed
            · exact ⟨[], message :: messages, rfl, rfl⟩
            · obtain ⟨done, later, same, ahead⟩ := framed.starts call listed
              refine ⟨message :: done, later, by rw [same]; rfl, ?_⟩
              rw [List.flatMap_cons, List.append_assoc, ← ahead]
              exact carried.split arrived
        · constructor
          · rw [passedOn_request parsed, if_neg goesOn, List.map_cons]
            exact List.cons_prefix_cons.mpr ⟨rfl, List.nil_prefix⟩
          · rw [passedOn_request parsed, if_neg goesOn, reached, if_pos delivered, if_neg goesOn]
            rfl
          · intro call listed
            rw [handleConnection_request k parsed, if_neg goesOn, List.mem_singleton] at listed
            exact ⟨[], message :: messages, rfl, by rw [listed]; rfl⟩
      · have parsed := @Message.parseRequest_message _ server.unquote _ _ carried
        rw [if_neg delivered] at parsed
        exact framed_over parsed (by rw [reached, if_neg delivered])

/-- Requests on a connection are told apart exactly if no body that the server comes to is
longer than `maxBody`. -/
theorem framed_iff (server : HTTPServer) (messages : List Message) {s : Stream}
    (carried : s.Carries (messages.flatMap Message.encode)) :
    server.Framed 0 s messages ↔
      ∀ message ∈ server.reached 0 s messages, message.body.length ≤ maxBody :=
  ⟨fun framed => bounded_of_prefix carried framed.requests, framed_of_bounded carried⟩

end HTTPServer

def plainServer : HTTPServer where
  unquote := id
  wsHandler := false
  serveStatic := fun _ _ => .absent
  writes := fun _ => true

def userList : Message where
  method := "GET"
  target := "/api/users"
  fields := []
  body := []
  token := by decide
  visible := by decide
  distinct := by decide
  measured := rfl

def statedLength : Field where
  name := "Content-Length"
  value := Utf8.ascii " 262171".toList
  token := by decide
  unbroken := by decide

/-- A body of `maxBody` bytes and a request behind them. -/
def oversize : Message where
  method := "POST"
  target := "/api/messages"
  fields := [statedLength]
  body := List.replicate maxBody 120 ++ userList.encode
  token := by decide
  visible := by decide
  distinct := by decide
  measured := by
    have length : (List.replicate maxBody 120 ++ userList.encode).length = 262171 := by
      rw [List.length_append, List.length_replicate]
      decide
    change Measured [("content-length", "262171")] _
    refine ⟨by decide, ?_⟩
    rw [length]
    decide

/-- The stream of one message. -/
def Message.alone (message : Message) : Stream := ⟨message.encode, true⟩

theorem Message.alone_carries (message : Message) :
    message.alone.Carries ([message].flatMap Message.encode) :=
  ⟨by simp [alone], fun _ => by simp [alone]⟩

/-- Two requests, the first with a request for its body. -/
def posts : List Message := [
  { method := "POST"
    target := "/api/messages"
    fields := [⟨"Content-Length", Utf8.ascii " 27".toList, by decide, by decide⟩]
    body := userList.encode
    token := by decide
    visible := by decide
    distinct := by decide
    measured := ⟨by decide, by decide⟩ },
  { method := "PUT"
    target := "/api/users/N0AAA"
    fields := [⟨"content-length", Utf8.ascii "4".toList, by decide, by decide⟩]
    body := Utf8.ascii "null".toList
    token := by decide
    visible := by decide
    distinct := by decide
    measured := ⟨by decide, by decide⟩ }]

theorem posts_framed :
    let s : Stream := ⟨posts.flatMap Message.encode, true⟩
    plainServer.passedOn 0 s = posts.map (Message.request id) ∧ plainServer.Framed 0 s posts := by
  have short : ∀ message ∈ posts, message.body.length ≤ maxBody :=
    List.forall_mem_cons.mpr ⟨by decide, List.forall_mem_singleton.mpr (by decide)⟩
  intro s
  have carried : s.Carries (posts.flatMap Message.encode) := ⟨List.prefix_rfl, fun _ => rfl⟩
  have framed := (HTTPServer.framed_iff plainServer posts carried).mpr
    fun message listed => short message (HTTPServer.reached_prefix.subset listed)
  refine ⟨?_, framed⟩
  have all : (plainServer.reached 0 s posts).length = 2 := by decide +kernel
  rw [framed.complete, HTTPServer.reached_prefix.eq_of_length all]
  rfl

/-- Only one request is sent, and the end of its body is passed on as another. -/
theorem body_passed_on :
    userList.request id ∈ plainServer.passedOn 0 oversize.alone ∧
      ¬ plainServer.Framed 0 oversize.alone [oversize] := by
  have carried : oversize.alone.Carries (oversize.encode ++ []) := by
    simpa using oversize.alone_carries
  have delivered : oversize.Delivered oversize.alone := by
    refine ⟨by decide, ?_⟩
    simp only [Message.alone, Message.encode, List.length_append]
    omega
  have parsed := @Message.parseRequest_message _ plainServer.unquote _ _ carried
  rw [if_pos delivered] at parsed
  have long : min oversize.body.length maxBody = maxBody := by
    simp [oversize]
  have rest : oversize.alone.advance (oversize.head.length + maxBody) = userList.alone := by
    have front : oversize.encode =
        (oversize.head ++ List.replicate maxBody 120) ++ userList.encode := by
      simp [Message.encode, oversize]
    have length : oversize.head.length + maxBody =
        (oversize.head ++ List.replicate maxBody (120 : UInt8)).length := by simp
    rw [Stream.advance, Message.alone, front, length, List.drop_left]
    rfl
  rw [long, rest] at parsed
  have follows : userList.alone.Carries (userList.encode ++ []) := by
    simpa using userList.alone_carries
  obtain ⟨others, second⟩ := @HTTPServer.passedOn_delivered plainServer _ _ 1 _ follows (by decide)
  have first := @HTTPServer.passedOn_request plainServer _ 0 _ _ parsed
  rw [if_pos (by decide), second] at first
  constructor
  · rw [first]
    exact List.mem_cons_of_mem _ List.mem_cons_self
  · intro framed
    have short := framed.requests.length_le
    rw [first] at short
    simp only [List.length_cons, List.map_cons, List.map_nil, List.length_nil] at short
    omega

end PyBulletin.Web
