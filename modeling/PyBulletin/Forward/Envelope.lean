import PyBulletin.Foundation.Lines
import PyBulletin.Forward.Protocol

set_option autoImplicit false

namespace PyBulletin.Forward

open PyBulletin.Foundation
open PyBulletin.Foundation.Text
open PyBulletin.Store

def isSeparator (line : Text) : Bool := strip line = [] ∨ strip line = "---"

/-- The key and the value of a line with a colon. -/
def readHeader (line : Text) : Option (Text × Text) :=
  let stripped := strip line
  if ':' ∈ stripped then
    let (key, val) := partition ':' stripped
    some (lower (strip key), strip val)
  else none

/-- The headers read so far, the latest in front. -/
abbrev Headers := List (Text × Text)

def Headers.get (headers : Headers) (key : Text) : Option Text := headers.lookup key

/-- The loop over the lines up to the first separator.  The lines
behind the separator are missing where there is none. -/
def scan (headers : Headers) : List Text → Headers × Option (List Text)
  | [] => (headers, none)
  | line :: lines =>
      if isSeparator line then (headers, some lines)
      else scan ((readHeader line).toList ++ headers) lines

def isTerminator (c : Char) : Bool := c.toNat = 3 ∨ c.toNat = 26

/-- `text.rstrip("\x03\x1a").strip()` -/
def trim (text : Text) : Text := strip (text.rdropWhile isTerminator)

/-- `headers.get("@") or headers.get("at") or ""` -/
def firstFilled (values : List (Option Text)) : Text :=
  (values.filterMap id).find? (· ≠ []) |>.getD ""

def knownType (msgType : Text) : Text :=
  if upper msgType = "P" ∨ upper msgType = "B" ∨ upper msgType = "T" then upper msgType else "P"

/-- The body up to the length that the headers give. -/
def cutBody (headers : Headers) (text : Text) : Text :=
  match (headers.get "body").bind parseInt with
  | some length => slice length text
  | none => text

/-- The message that some headers and a body make. -/
def messageOf (now : DateTime) (headers : Headers) (body : Text) : Message where
  bid := (headers.get "mid").getD ((headers.get "bid").getD "")
  msgType := knownType ((headers.get "type").getD "P")
  fromCall := upper ((headers.get "from").getD "")
  toCall := upper ((headers.get "to").getD "")
  atBbs := upper (firstFilled [headers.get "@", headers.get "at"])
  subject := (headers.get "subject").getD "(no subject)"
  body
  createdAt := some now

/-- `decode_b2f_block` -/
def decodeB2fBlock (now : DateTime) (data : Bytes) : Message :=
  let lines := splitLines (trim (decodeAscii data))
  let (headers, rest) := scan [] lines
  let bodyText := cutBody headers ((['\n'] : Text).intercalate (rest.getD lines))
  messageOf now headers (strip bodyText)

/-- `decode_b1_block` -/
def decodeB1Block (now : DateTime) (data : Bytes) : Message := decodeB2fBlock now data

/-- Trimming keeps what is between two visible characters. -/
theorem trim_keep {first last : Char} (begins : isSpace first = false) (stays : isSpace last = false)
    (plain : isTerminator last = false) (front back : Text) :
    trim (first :: front ++ last :: back) =
      first :: front ++ last :: (back.rdropWhile isTerminator).rdropWhile isSpace := by
  rw [trim, rdropWhile_keep plain, List.cons_append, strip_visible begins, ← List.cons_append,
    rdropWhile_keep stays]

section Headers

variable {key val line : Text} {lines : List Text} {headers : Headers}

/-- A line made of a key and a value. -/
def lineOf (key val : Text) : Text := key ++ ':' :: ' ' :: val

theorem strip_field (word : OneWord key) (val : Text) :
    strip (lineOf key val) = key ++ ':' :: (' ' :: val : Text).rdropWhile isSpace := by
  rw [lineOf]
  obtain ⟨some_, plain⟩ := oneWord_iff.mp word
  cases key with
  | nil => exact absurd rfl some_
  | cons first key =>
      rw [List.cons_append, strip_visible (plain first List.mem_cons_self), ← List.cons_append,
        rdropWhile_keep (by decide)]

theorem readHeader_field (word : OneWord key) (noColon : ':' ∉ key) (val : Text) :
    readHeader (lineOf key val) = some (lower key, strip val) := by
  have before : ∀ c ∈ key, decide (c ≠ ':') = true := by
    intro c listed
    simpa using fun same : c = ':' => noColon (same ▸ listed)
  rw [readHeader, strip_field word, if_pos (by simp)]
  simp only [partition, List.takeWhile_append_of_pos before, List.dropWhile_append_of_pos before]
  rw [List.takeWhile_cons_of_neg (by simp), List.dropWhile_cons_of_neg (by simp), List.append_nil,
    List.tail_cons, strip_oneWord word, strip_rdropWhile, strip_cons (by decide)]

theorem not_isSeparator_of_colon (colon : ':' ∈ strip line) : isSeparator line = false := by
  simp only [isSeparator, decide_eq_false_iff_not, not_or]
  constructor
  · intro blank
    simp [blank] at colon
  · intro dashes
    rw [dashes] at colon
    exact absurd colon (by decide)

theorem not_isSeparator_field (word : OneWord key) (val : Text) :
    isSeparator (lineOf key val) = false :=
  not_isSeparator_of_colon (by rw [strip_field word]; simp)

/-- The headers of some lines none of which is a separator. -/
def headersOf (lines : List Text) : Headers := (lines.filterMap readHeader).reverse

theorem headersOf_append (lines more : List Text) :
    headersOf (lines ++ more) = headersOf more ++ headersOf lines := by
  simp [headersOf]

theorem headersOf_cons (line : Text) (lines : List Text) :
    headersOf (line :: lines) = headersOf lines ++ (readHeader line).toList := by
  cases header : readHeader line <;> simp [headersOf, header]

theorem headersOf_singleton (line : Text) : headersOf [line] = (readHeader line).toList := by
  rw [headersOf_cons]
  rfl

theorem Headers.get_single (key written val : Text) :
    Headers.get [(written, val)] key = if key = written then some val else none := by
  by_cases same : key = written
  · simp [Headers.get, same]
  · simp [Headers.get, List.lookup_cons, beq_false_of_ne same, same]

theorem Headers.get_append (headers more : Headers) (key : Text) :
    Headers.get (headers ++ more) key = (headers.get key).or (Headers.get more key) :=
  List.lookup_append

theorem scan_front (plain : ∀ line ∈ lines, isSeparator line = false) (headers : Headers)
    (more : List Text) :
    scan headers (lines ++ more) = scan (headersOf lines ++ headers) more := by
  induction lines generalizing headers with
  | nil => rfl
  | cons line lines ih =>
      rw [List.cons_append, scan, if_neg (by simp [plain line List.mem_cons_self]),
        ih fun line listed => plain line (List.mem_cons_of_mem _ listed), headersOf_cons,
        List.append_assoc]

theorem scan_separator (separates : isSeparator line) (headers : Headers) (lines : List Text) :
    scan headers (line :: lines) = (headers, some lines) := by
  rw [scan, if_pos separates]

/-- The headers that a scan finds are those of the lines in front of the first separator. -/
theorem scan_headers (headers : Headers) (lines : List Text) :
    (scan headers lines).1 = headersOf (lines.takeWhile (!isSeparator ·)) ++ headers := by
  induction lines generalizing headers with
  | nil => rfl
  | cons line lines ih =>
      rw [scan]
      split
      · rename_i separates
        rw [List.takeWhile_cons_of_neg (by simp [separates])]
        rfl
      · rename_i other
        rw [ih, List.takeWhile_cons_of_pos (by simp [other]), headersOf_cons, List.append_assoc]

end Headers

section Wire

variable {text : Text}

/-- A text encoded and decoded. -/
def wire (text : Text) : Text := decodeAscii (encodeAscii text)

theorem decodeAscii_append (front back : Bytes) :
    decodeAscii (front ++ back) = decodeAscii front ++ decodeAscii back := by
  simp [decodeAscii]

theorem wire_append (front back : Text) : wire (front ++ back) = wire front ++ wire back := by
  rw [wire, encodeAscii_append, decodeAscii_append]
  rfl

def isAscii (text : Text) : Bool := text.all fun c => c.toNat < 128

theorem wire_ascii (ascii : isAscii text) : wire text = text :=
  decodeAscii_encodeAscii fun c listed => by simpa using List.all_eq_true.mp ascii c listed

theorem wire_eq_map (text : Text) :
    wire text = text.map fun c => if c.toNat < 128 then c else '?' := by
  induction text with
  | nil => rfl
  | cons c text ih =>
      rw [← List.singleton_append, wire_append, ih, List.map_append]
      congr 1
      by_cases ascii : c.toNat < 128
      · rw [wire_ascii (by simpa [isAscii] using ascii)]
        simp [ascii]
      · simp [wire, encodeAscii, decodeAscii, ascii]

/-- What has no line break in it has none on the wire. -/
theorem wire_plain (plain : ∀ c ∈ text, isLineBreak c = false) :
    ∀ c ∈ wire text, isLineBreak c = false := by
  intro c listed
  rw [wire_eq_map] at listed
  obtain ⟨d, among, rfl⟩ := List.mem_map.mp listed
  split
  · exact plain d among
  · decide

theorem wire_crlf : wire crlf = crlf := wire_ascii rfl

/-- Lines each ended by a carriage return and a line feed. -/
def terminated (lines : List Text) : Text := lines.flatMap (· ++ crlf)

theorem intercalate_terminated (lines : List Text) (last : Text) :
    crlf.intercalate (lines ++ [last]) = terminated lines ++ last := by
  induction lines with
  | nil => simp [terminated]
  | cons line lines ih =>
      cases lines with
      | nil => simp [terminated]
      | cons next lines =>
          rw [List.cons_append, List.cons_append, List.intercalate_cons_cons, ← List.cons_append, ih]
          simp [terminated]

theorem wire_terminated (lines : List Text) :
    wire (terminated lines) = terminated (lines.map wire) := by
  induction lines with
  | nil => rfl
  | cons line lines ih =>
      have first : terminated (line :: lines) = line ++ crlf ++ terminated lines := by
        simp [terminated]
      rw [first, wire_append, wire_append, wire_crlf, ih]
      simp [terminated]

/-- The lines that the fields of a text make. -/
def linesMade (fields : List Text) : List Text := fields.flatMap fun field => splitLines (field ++ crlf)

theorem splitLines_terminated (fields : List Text) (text : Text) :
    splitLines (terminated fields ++ text) = linesMade fields ++ splitLines text := by
  induction fields with
  | nil => rfl
  | cons field fields ih =>
      have first : terminated (field :: fields) ++ text =
          field ++ '\r' :: '\n' :: (terminated fields ++ text) := by
        simp [terminated, crlf]
      rw [first, splitLines_crlf, ih]
      simp [linesMade, crlf]

theorem linesMade_plain {fields : List Text}
    (plain : ∀ field ∈ fields, ∀ c ∈ field, isLineBreak c = false) : linesMade fields = fields := by
  induction fields with
  | nil => rfl
  | cons field fields ih =>
      have first := splitLines_line (plain field List.mem_cons_self) []
      simp only [linesMade, List.flatMap_cons] at ih ⊢
      rw [crlf, first, ← crlf, ih fun field listed => plain field (List.mem_cons_of_mem _ listed)]
      rfl

variable (now : DateTime) (msg : Message)

/-- The line for `at_bbs`, where there is one. -/
def atLines : List Text := if msg.atBbs = [] then [] else [("@ " : Text) ++ msg.atBbs]

/-- The header lines of an envelope in front of the length of the body. -/
def envelopeHead : List Text :=
  [lineOf "Mid" msg.bid, lineOf "Date" (msg.createdAt.getD now).format,
      lineOf "From" msg.fromCall, lineOf "To" msg.toCall] ++
    atLines msg ++ [lineOf "Subject" msg.subject, lineOf "Type" msg.msgType]

def bodyLine : Text := lineOf "Body" (Nat.toDigits 10 msg.body.length)

/-- The header lines of a text block. -/
def b1Head : List Text :=
  [lineOf "From" msg.fromCall, lineOf "To" msg.toCall] ++ atLines msg ++
    [lineOf "Subject" msg.subject, lineOf "Date" ((msg.createdAt.map DateTime.format).getD ""),
      lineOf "BID" msg.bid, lineOf "Type" msg.msgType]

theorem isAscii_digits (n : Nat) : isAscii (Nat.toDigits 10 n) := by
  refine List.all_eq_true.mpr fun c listed => ?_
  have bounds := digit_bounds listed
  simp only [decide_eq_true_eq]
  omega

theorem wire_bodyLine : wire (bodyLine msg) = bodyLine msg := by
  have number := isAscii_digits msg.body.length
  refine wire_ascii ?_
  simp only [isAscii, bodyLine, lineOf, List.all_append, List.all_cons] at number ⊢
  rw [number]
  rfl

theorem decodeAscii_buildEnvelope :
    decodeAscii (buildEnvelope now msg) =
      terminated ((envelopeHead now msg).map wire) ++ bodyLine msg ++ crlf ++ crlf ++
        wire msg.body ++ [Char.ofNat 3] := by
  have lines : buildEnvelope now msg =
      encodeAscii (crlf.intercalate (envelopeHead now msg ++ [bodyLine msg] ++ [[]])) ++
        encodeAscii crlf ++ encodeAscii msg.body ++ [3] := by
    simp only [buildEnvelope, envelopeHead, atLines, bodyLine, encodeAscii_length,
      List.append_assoc]
    rfl
  have head : wire (terminated (envelopeHead now msg ++ [bodyLine msg])) =
      terminated ((envelopeHead now msg).map wire) ++ bodyLine msg ++ crlf := by
    rw [wire_terminated, List.map_append, List.map_singleton, wire_bodyLine]
    simp [terminated]
  rw [lines, intercalate_terminated, List.append_nil, decodeAscii_append, decodeAscii_append,
    decodeAscii_append, ← wire, ← wire, ← wire, head, wire_crlf]
  rfl

theorem decodeAscii_b1Text :
    decodeAscii (b1Text msg) =
      terminated ((b1Head msg).map wire) ++ "---" ++ crlf ++ wire msg.body ++ crlf ++
        "/EX" ++ crlf := by
  have lines : b1Text msg =
      encodeAscii (crlf.intercalate (b1Head msg ++ [("---" : Text), msg.body] ++ [("/EX" : Text)])) ++
        encodeAscii crlf := by
    simp only [b1Text, b1Head, atLines, List.append_assoc]
    rfl
  have dashes : wire "---" = "---" := wire_ascii rfl
  have ending : wire "/EX" = "/EX" := wire_ascii rfl
  rw [lines, intercalate_terminated, decodeAscii_append, ← wire, ← wire, wire_append, wire_crlf,
    wire_terminated, List.map_append, List.map_cons, List.map_singleton, dashes, ending]
  simp [terminated]

theorem bodyLine_digit :
    ∃ front d, bodyLine msg = front ++ [d] ∧ isSpace d = false ∧ isTerminator d = false := by
  obtain ⟨digits, d, shape⟩ := List.eq_nil_or_concat'
    (Nat.toDigits 10 msg.body.length) |>.resolve_left Nat.toDigits_ne_nil
  have bounds := digit_bounds (shape ▸ List.mem_concat_self : d ∈ Nat.toDigits 10 msg.body.length)
  refine ⟨lineOf "Body" digits, d, by rw [bodyLine, shape]; simp [lineOf], ?_, ?_⟩
  · simp only [isSpace, decide_eq_false_iff_not]
    omega
  · simp only [isTerminator, decide_eq_false_iff_not]
    omega

theorem wire_lineOf {key : Text} (ascii : isAscii key) (val : Text) :
    wire (lineOf key val) = lineOf key (wire val) := by
  have shape : ∀ val, lineOf key val = key ++ ([':', ' '] ++ val) := fun _ => rfl
  have colon : wire [':', ' '] = [':', ' '] := wire_ascii rfl
  rw [shape, wire_append, wire_append, wire_ascii ascii, colon, ← shape]

/-- The message whose fields are what is read of them. -/
def wired (msg : Message) : Message :=
  { msg with
    bid := wire msg.bid
    msgType := wire msg.msgType
    fromCall := wire msg.fromCall
    toCall := wire msg.toCall
    atBbs := wire msg.atBbs
    subject := wire msg.subject }

theorem atLines_wired : (atLines msg).map wire = atLines (wired msg) := by
  have label : wire "@ " = "@ " := wire_ascii rfl
  have empty : wire msg.atBbs = [] ↔ msg.atBbs = [] := by
    rw [wire_eq_map, List.map_eq_nil_iff]
  simp only [atLines, wired, empty]
  split
  · rfl
  · rw [List.map_singleton, wire_append, label]

theorem isAscii_date (date : DateTime) : isAscii date.format := by
  have padded (width n : Nat) : isAscii (DateTime.padded width n) := by
    rw [isAscii, DateTime.padded, List.all_append, ← isAscii, ← isAscii, isAscii_digits,
      Bool.and_true, isAscii, List.all_replicate]
    simp
  simp only [isAscii] at padded ⊢
  simp only [DateTime.format, List.all_append, padded, List.all_cons]
  rfl

theorem envelopeHead_wired : (envelopeHead now msg).map wire = envelopeHead now (wired msg) := by
  have date : wire (msg.createdAt.getD now).format = (msg.createdAt.getD now).format :=
    wire_ascii (isAscii_date _)
  simp only [envelopeHead, List.map_append, List.map_cons, List.map_nil, atLines_wired]
  rw [wire_lineOf rfl, wire_lineOf rfl, wire_lineOf rfl, wire_lineOf rfl, wire_lineOf rfl,
    wire_lineOf rfl, date]
  rfl

theorem b1Head_wired : (b1Head msg).map wire = b1Head (wired msg) := by
  have date : wire ((msg.createdAt.map DateTime.format).getD "") =
      (msg.createdAt.map DateTime.format).getD "" := by
    cases msg.createdAt with
    | none => rfl
    | some date => exact wire_ascii (isAscii_date date)
  simp only [b1Head, List.map_append, List.map_cons, List.map_nil, atLines_wired]
  rw [wire_lineOf rfl, wire_lineOf rfl, wire_lineOf rfl, wire_lineOf rfl, wire_lineOf rfl,
    wire_lineOf rfl, date]
  rfl

/-- Of an envelope trimming leaves the header lines, whatever the body is. -/
theorem trim_envelope :
    trim (decodeAscii (buildEnvelope now msg)) =
      terminated ((envelopeHead now msg).map wire) ++ bodyLine msg ++
        ((crlf ++ crlf ++ wire msg.body ++ [Char.ofNat 3]).rdropWhile isTerminator).rdropWhile
          isSpace := by
  obtain ⟨front, head⟩ : ∃ front, terminated ((envelopeHead now msg).map wire) = 'M' :: front :=
    ⟨_, rfl⟩
  obtain ⟨key, d, shape, visible, plain⟩ := bodyLine_digit msg
  rw [decodeAscii_buildEnvelope, head, shape]
  have kept := @trim_keep 'M' d (by decide) visible plain (front ++ key)
    (crlf ++ crlf ++ wire msg.body ++ [Char.ofNat 3])
  simpa using kept

/-- Of a text block trimming takes the last line end. -/
theorem trim_b1Text :
    trim (decodeAscii (b1Text msg)) =
      terminated ((b1Head msg).map wire) ++ "---" ++ crlf ++ wire msg.body ++ crlf ++ "/EX" := by
  obtain ⟨front, head⟩ : ∃ front, terminated ((b1Head msg).map wire) = 'F' :: front := ⟨_, rfl⟩
  rw [decodeAscii_b1Text, head]
  have kept := @trim_keep 'F' 'X' (by decide) (by decide) (by decide)
    (front ++ "---" ++ crlf ++ wire msg.body ++ crlf ++ "/E") crlf
  have nothing : (crlf.rdropWhile isTerminator).rdropWhile isSpace = [] := rfl
  rw [nothing] at kept
  simpa using kept

theorem splitLines_b1Text :
    splitLines (trim (decodeAscii (b1Text msg))) =
      linesMade ((b1Head msg).map wire) ++
        ("---" : Text) :: (splitLines (wire msg.body ++ ['\r', '\n']) ++ [("/EX" : Text)]) := by
  have plain : ∀ c ∈ ("---" : Text), isLineBreak c = false :=
    fun c listed => by simpa using List.all_eq_true.mp (show (("---" : Text).all
      fun c => !isLineBreak c) from rfl) c listed
  have dashes : terminated ((b1Head msg).map wire) ++ "---" ++ crlf ++ wire msg.body ++ crlf ++
      "/EX" = terminated ((b1Head msg).map wire) ++
        (("---" : Text) ++ '\r' :: '\n' :: (wire msg.body ++ '\r' :: '\n' :: "/EX")) := by
    simp [crlf]
  rw [trim_b1Text, dashes, splitLines_terminated, splitLines_line plain, splitLines_crlf]
  rfl

end Wire

end PyBulletin.Forward
