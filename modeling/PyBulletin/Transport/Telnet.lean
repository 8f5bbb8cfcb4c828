import Mathlib.Data.List.DropRight
import PyBulletin.Ax25.Stream

set_option autoImplicit false

namespace PyBulletin.Transport.TelnetReader

open PyBulletin.Foundation
open PyBulletin.Foundation.Readers
open PyBulletin.Foundation.LineEnds
open PyBulletin.Forward (decodeAscii)
open PyBulletin.Ax25.AX25Reader (streamLines plain_decoded)

def iac : UInt8 := 255
def sb : UInt8 := 250
def se : UInt8 := 240

/-- WILL, WONT, DO and DONT. -/
inductive Verb where
  | will
  | wont
  | do_
  | dont
  deriving DecidableEq

def Verb.code : Verb → UInt8
  | .will => 251
  | .wont => 252
  | .do_ => 253
  | .dont => 254

def verbs : List Verb := [.will, .wont, .do_, .dont]

def optTtype : UInt8 := 24
def optNaws : UInt8 := 31

structure ConnectionMeta where
  peer : Text := []
  terminalType : Text := "unknown".toList
  cols : Nat := 80
  rows : Nat := 24
  channel : Text := "telnet".toList
  deriving DecidableEq

structure Reader where
  buf : Bytes := []
  iacReplies : Bytes := []
  metadata : ConnectionMeta := {}

/-- What one turn of the loop in `_process` does. -/
inductive Action where
  | keep (byte : UInt8)
  | option (cmd : Verb) (opt : UInt8)
  | subneg (sub : Bytes)
  | ignore
  deriving DecidableEq

/-- The data before IAC SE, and what follows it. -/
def scan : Bytes → Option (Bytes × Bytes)
  | [] => none
  | byte :: data =>
      if byte = iac ∧ data.head? = some se then some ([], data.tail)
      else (scan data).map fun (sub, rest) => (byte :: sub, rest)

/-- `_handle_iac` on what follows the IAC. -/
def handleIac : Bytes → Action × Bytes
  | [] => (.ignore, [])
  | cmd :: data =>
      if cmd = iac then (.keep iac, data)
      else
        match verbs.find? fun verb => verb.code = cmd with
        | some verb =>
            match data with
            | [] => (.ignore, [])
            | opt :: data => (.option verb opt, data)
        | none =>
            if cmd = sb then
              match scan data with
              | some (sub, rest) => (.subneg sub, rest)
              -- The loop ends in front of the last byte.
              | none => (.ignore, data.drop (data.length - 1))
            else (.ignore, data)

def next : Bytes → Option (Action × Bytes)
  | [] => none
  | byte :: data => some (if byte = iac then handleIac data else (.keep byte, data))

/-- `_handle_option`: what it queues as a reply. -/
def handleOption (cmd : Verb) (opt : UInt8) : Bytes :=
  if cmd = .will ∧ opt = optTtype then [iac, sb, optTtype, 1, iac, se] else []

/-- `text.strip("\x00")` -/
def stripNul (text : Text) : Text :=
  (text.dropWhile (· = Char.ofNat 0)).rdropWhile (· = Char.ofNat 0)

def handleSubneg (metadata : ConnectionMeta) (sub : Bytes) : ConnectionMeta :=
  let byte (i : Nat) : Nat := (sub.getD i 0).toNat
  if sub = [] then metadata
  else if sub.head? = some optTtype ∧ 2 < sub.length ∧ sub[1]? = some 0 then
    { metadata with terminalType := stripNul (decodeAscii (sub.drop 2)) }
  else if sub.head? = some optNaws ∧ 5 ≤ sub.length then
    { metadata with cols := byte 1 <<< 8 ||| byte 2, rows := byte 3 <<< 8 ||| byte 4 }
  else metadata

def perform (reader : Reader) : Action → Reader
  | .keep byte => { reader with buf := reader.buf ++ [byte] }
  | .option cmd opt => { reader with iacReplies := reader.iacReplies ++ handleOption cmd opt }
  | .subneg sub => { reader with metadata := handleSubneg reader.metadata sub }
  | .ignore => reader

def process (reader : Reader) (data : Bytes) : Reader :=
  (takeAll next data).1.foldl perform reader

/-- `_extract_line`; it is called where the buffer holds a CR or an LF. -/
def extractLine (buf : Bytes) : Bytes × Bytes :=
  match buf.findIdx? fun byte => byte = 13 ∨ byte = 10 with
  | some i =>
      let skip := if buf[i]? = some 13 ∧ buf[i + 1]? = some 10 then i + 2 else i + 1
      (buf.take i, buf.drop skip)
  | none => (buf, [])

def decoded (line : Bytes) : Text := Text.stripLineEnd (decodeAscii line)

/-- `readline` on what `read` is going to return; no line where it waits. -/
def readline (reader : Reader) (incoming : List Bytes) : Option Text × Reader × List Bytes :=
  if 10 ∈ reader.buf ∨ 13 ∈ reader.buf then
    let (line, rest) := extractLine reader.buf
    (some (decoded line), { reader with buf := rest }, incoming)
  else
    match incoming with
    | [] => (none, reader, [])
    | chunk :: incoming =>
        if chunk = [] then (some (decoded reader.buf), { reader with buf := [] }, incoming)
        else readline (process reader chunk) incoming

/-- The lines of `count` calls, fewer if one of them waits. -/
def readlines : Nat → Reader → List Bytes → List Text × Reader
  | 0, reader, _ => ([], reader)
  | count + 1, reader, incoming =>
      match readline reader incoming with
      | (none, reader, _) => ([], reader)
      | (some line, reader, later) =>
          let (more, reader) := readlines count reader later
          (line :: more, reader)

inductive Sent where
  | text (byte : UInt8)
  | option (cmd : Verb) (opt : UInt8)
  | subnegotiation (data : Bytes)
  deriving DecidableEq

/-- A byte 255 is sent twice. -/
def doubled (data : Bytes) : Bytes := data.flatMap fun byte => if byte = iac then [iac, iac] else [byte]

def Sent.encode : Sent → Bytes
  | .text byte => doubled [byte]
  | .option cmd opt => [iac, cmd.code, opt]
  | .subnegotiation data => [iac, sb] ++ doubled data ++ [iac, se]

def stream (sent : List Sent) : Bytes := sent.flatMap Sent.encode

def Sent.bytes : Sent → Bytes
  | .text byte => [byte]
  | _ => []

/-- The text alone. -/
def textOf (sent : List Sent) : Bytes := sent.flatMap Sent.bytes

/-- The metadata after a terminal type or a window size. -/
def announced (metadata : ConnectionMeta) : Sent → ConnectionMeta
  | .subnegotiation (24 :: 0 :: first :: name) =>
      { metadata with terminalType := stripNul (decodeAscii (first :: name)) }
  | .subnegotiation (31 :: a :: b :: c :: d :: _) =>
      { metadata with cols := 256 * a.toNat + b.toNat, rows := 256 * c.toNat + d.toNat }
  | _ => metadata

/-- The calls return the lines of the text, and one call more leaves the metadata sent. -/
def Faithful (metadata : ConnectionMeta) (sent : List Sent) (chunks : List Bytes) : Prop :=
  ∀ count,
    (readlines count { metadata := metadata } chunks).1 = (streamLines (textOf sent)).take count ∧
      ((streamLines (textOf sent)).length < count →
        (readlines count { metadata := metadata } chunks).2.metadata = sent.foldl announced metadata)

/-- The name of a terminal type holds no IAC, and a window size none in front of its last byte. -/
def Legible : Bytes → Prop
  | 24 :: 0 :: name => iac ∉ name
  | 31 :: size => iac ∉ size.take 3
  | _ => True

instance (data : Bytes) : Decidable (Legible data) := by
  unfold Legible
  split <;> infer_instance

/-- The data of a subnegotiation holds no IAC SE and means the same with every IAC doubled. -/
def Clean : Sent → Prop
  | .subnegotiation data => ¬ [iac, se] <:+: data ∧ Legible data
  | _ => True

instance : DecidablePred Clean
  | .text _ | .option _ _ => isTrue trivial
  | .subnegotiation _ => inferInstanceAs (Decidable (_ ∧ _))

section Items

variable {data rest : Bytes} {sent : Sent} {group : List Sent}

theorem doubled_cons (byte : UInt8) (data : Bytes) :
    doubled (byte :: data) = doubled [byte] ++ doubled data := by
  simp [doubled]

theorem doubled_plain (plain : iac ∉ data) : doubled data = data := by
  induction data with
  | nil => rfl
  | cons byte data ih =>
      simp only [List.mem_cons, not_or] at plain
      rw [doubled_cons, ih plain.2, doubled, List.flatMap_singleton, if_neg (Ne.symm plain.1)]
      rfl

theorem scan_other {byte : UInt8} (other : ¬ (byte = iac ∧ data.head? = some se)) :
    scan (byte :: data) = (scan data).map fun (sub, rest) => (byte :: sub, rest) := by
  rw [scan, if_neg other]

/-- The first IAC SE is the one that the client has sent. -/
theorem scan_doubled (inside : ¬ [iac, se] <:+: data) (rest : Bytes) :
    scan (doubled data ++ iac :: se :: rest) = some (doubled data, rest) := by
  induction data with
  | nil => rfl
  | cons byte data ih =>
      have later := ih fun deeper => inside (deeper.trans (List.infix_cons (List.infix_refl data)))
      rw [doubled_cons, List.append_assoc]
      by_cases escaped : byte = iac
      · subst escaped
        have head : (doubled data ++ iac :: se :: rest).head? ≠ some se := by
          cases data with
          | nil => exact ne_of_beq_false rfl
          | cons second data =>
              intro same
              rw [doubled_cons, doubled, List.flatMap_singleton] at same
              have second_ : second = se := by
                split at same
                · cases same
                · exact Option.some.inj same
              exact inside ⟨[], data, by rw [second_]; rfl⟩
        have pair : doubled [iac] = [iac, iac] := rfl
        rw [pair]
        change scan (iac :: iac :: (doubled data ++ iac :: se :: rest)) = _
        rw [scan_other (by simp [iac, se]), scan_other fun both => head both.2, later]
        rfl
      · have single : doubled [byte] = [byte] := by
          rw [doubled, List.flatMap_singleton, if_neg escaped]
        rw [single]
        change scan (byte :: (doubled data ++ iac :: se :: rest)) = _
        rw [scan_other fun both => escaped both.1, later]
        rfl

def Sent.action : Sent → Action
  | .text byte => .keep byte
  | .option cmd opt => .option cmd opt
  | .subnegotiation data => .subneg (doubled data)

theorem scan_length {sub : Bytes} (found : scan data = some (sub, rest)) :
    rest.length ≤ data.length := by
  induction data generalizing sub with
  | nil => cases found
  | cons byte data ih =>
      rw [scan] at found
      split at found
      · cases found
        rw [List.length_tail, List.length_cons]
        omega
      · obtain ⟨⟨later, rest⟩, deeper, same⟩ := Option.map_eq_some_iff.mp found
        cases same
        exact Nat.le_succ_of_le (ih deeper)

theorem handleIac_length (data : Bytes) : (handleIac data).2.length ≤ data.length := by
  cases data with
  | nil => exact Nat.le_refl _
  | cons cmd data =>
      rw [handleIac, List.length_cons]
      split
      · exact Nat.le_succ _
      · split
        · split
          · exact Nat.le_succ _
          · exact Nat.le_succ_of_le (Nat.le_succ _)
        · split
          · split
            · next found => exact Nat.le_succ_of_le (scan_length found)
            · exact Nat.le_succ_of_le (by simp)
          · exact Nat.le_succ _

theorem next_shortens : Shortens next := by
  intro data action rest found
  cases data with
  | nil => cases found
  | cons byte data =>
      have turn := Option.some.inj found
      split at turn
      · have shorter := handleIac_length data
        rw [turn] at shorter
        exact Nat.lt_succ_of_le shorter
      · cases turn
        exact Nat.lt_succ_self _

/-- A turn of the loop takes one item. -/
theorem next_encode (clean : Clean sent) (rest : Bytes) :
    next (sent.encode ++ rest) = some (sent.action, rest) := by
  cases sent with
  | text byte =>
      by_cases escaped : byte = iac
      · rw [escaped]
        rfl
      · rw [Sent.encode, doubled_plain (by simpa using Ne.symm escaped)]
        change some (if byte = iac then _ else _) = _
        rw [if_neg escaped]
        rfl
  | option cmd opt => cases cmd <;> rfl
  | subnegotiation data =>
      change some (match scan (doubled data ++ [iac, se] ++ rest) with | some (sub, rest) => _ | none => _) = _
      rw [List.append_assoc]
      change some (match scan (doubled data ++ iac :: se :: rest) with | some (sub, rest) => _ | none => _) = _
      rw [scan_doubled clean.1]
      rfl

theorem takeAll_stream (clean : ∀ sent ∈ group, Clean sent) :
    takeAll next (stream group) = (group.map Sent.action, []) := by
  induction group with
  | nil => rfl
  | cons sent group ih =>
      obtain ⟨first, others⟩ := List.forall_mem_cons.mp clean
      have found : next (stream (sent :: group)) = some (sent.action, stream group) :=
        next_encode first (stream group)
      rw [takeAll_some next_shortens found, ih others]
      rfl

theorem head_doubled (data : Bytes) : (doubled data).head? = data.head? := by
  cases data with
  | nil => rfl
  | cons byte data =>
      rw [doubled_cons, doubled, List.flatMap_singleton]
      split
      · next escaped => rw [escaped]; rfl
      · rfl

theorem shift_or (high low : UInt8) :
    high.toNat <<< 8 ||| low.toNat = 256 * high.toNat + low.toNat := by
  rw [← Nat.shiftLeft_add_eq_or_of_lt low.toNat_lt, Nat.shiftLeft_eq]
  omega

/-- What `_handle_subneg` makes of data that comes as it was meant. -/
theorem handleSubneg_announced (data : Bytes) (metadata : ConnectionMeta) :
    handleSubneg metadata data = announced metadata (.subnegotiation data) := by
  rw [announced.eq_def]
  split
  · next name same =>
      cases same
      rfl
  · next a b c d more same =>
      cases same
      simp only [handleSubneg, List.getD_cons_succ, List.getD_cons_zero, shift_or]
      rfl
  · next noType noSize =>
      rw [handleSubneg]
      split
      · rfl
      · split
        · next type =>
            obtain ⟨first, long, second⟩ := type
            match data, first, second, long with
            | _ :: _ :: third :: name, rfl, rfl, _ => exact absurd rfl (noType third name)
        · split
          · next size =>
              obtain ⟨first, long⟩ := size
              match data, first, long with
              | _ :: a :: b :: c :: d :: more, rfl, _ => exact absurd rfl (noSize a b c d more)
          · rfl

theorem announced_other {metadata : ConnectionMeta} (noType : ∀ name, data ≠ 24 :: 0 :: name)
    (noSize : ∀ size, data ≠ 31 :: size) : announced metadata (.subnegotiation data) = metadata := by
  rw [announced.eq_def]
  split
  · next same =>
      cases same
      exact absurd rfl (noType _)
  · next same =>
      cases same
      exact absurd rfl (noSize _)
  · rfl

theorem head_of_doubled {byte : UInt8} (same : doubled data = byte :: rest) :
    ∃ tail, data = byte :: tail := by
  rw [← List.head?_eq_some_iff, ← head_doubled, same, List.head?_cons]

theorem doubled_cons_plain {byte : UInt8} (plain : iac ≠ byte) (data : Bytes) :
    doubled (byte :: data) = byte :: doubled data := by
  rw [doubled_cons, doubled_plain (by simpa using plain)]
  rfl

/-- The rows end with the first byte behind three that come as they were sent. -/
theorem announced_size {size : Bytes} (legible : iac ∉ size.take 3) (metadata : ConnectionMeta) :
    announced metadata (.subnegotiation (31 :: doubled size)) =
      announced metadata (.subnegotiation (31 :: size)) := by
  match size, legible with
  | [], _ => rfl
  | [a], legible => rw [@doubled_plain [a] legible]
  | [a, b], legible => rw [@doubled_plain [a, b] legible]
  | [a, b, c], legible => rw [@doubled_plain [a, b, c] legible]
  | a :: b :: c :: d :: more, legible =>
      simp only [List.take_succ_cons, List.mem_cons, not_or] at legible
      obtain ⟨first, second, third, -⟩ := legible
      rw [doubled_cons_plain first, doubled_cons_plain second, doubled_cons_plain third]
      obtain ⟨rest, same⟩ := List.head?_eq_some_iff.mp (head_doubled (d :: more))
      rw [same]
      rfl

/-- What `_handle_subneg` makes of data in which every IAC is doubled. -/
theorem handleSubneg_doubled (legible : Legible data) (metadata : ConnectionMeta) :
    handleSubneg metadata (doubled data) = announced metadata (.subnegotiation data) := by
  rw [handleSubneg_announced]
  by_cases type : ∃ name, data = 24 :: 0 :: name
  · obtain ⟨name, rfl⟩ := type
    change iac ∉ name at legible
    rw [doubled_cons_plain (by decide), doubled_cons_plain (by decide), doubled_plain legible]
  · by_cases size : ∃ size, data = 31 :: size
    · obtain ⟨size, rfl⟩ := size
      rw [doubled_cons_plain (by decide)]
      exact announced_size legible metadata
    · push Not at type size
      rw [announced_other type size, announced_other]
      · intro name same
        obtain ⟨rest, rfl⟩ := head_of_doubled same
        rw [doubled_cons_plain (by decide)] at same
        obtain ⟨name, rfl⟩ := head_of_doubled (List.cons.inj same).2
        exact type name rfl
      · intro rest same
        obtain ⟨size_, rfl⟩ := head_of_doubled same
        exact size size_ rfl

end Items

def Action.kept : Action → Bytes
  | .keep byte => [byte]
  | _ => []

def Action.noted (metadata : ConnectionMeta) : Action → ConnectionMeta
  | .subneg sub => handleSubneg metadata sub
  | _ => metadata

/-- The bytes of a chunk that go to the buffer. -/
def kept (chunk : Bytes) : Bytes := (takeAll next chunk).1.flatMap Action.kept

/-- The metadata after a chunk. -/
def noted (metadata : ConnectionMeta) (chunk : Bytes) : ConnectionMeta :=
  (takeAll next chunk).1.foldl Action.noted metadata

section Reading

variable {buf line rest : Bytes} {ending : Ending} {reader : Reader} {chunks : List Bytes}
  {group : List Sent}

theorem foldl_perform (actions : List Action) (reader : Reader) :
    (actions.foldl perform reader).buf = reader.buf ++ actions.flatMap Action.kept ∧
      (actions.foldl perform reader).metadata = actions.foldl Action.noted reader.metadata := by
  induction actions generalizing reader with
  | nil => exact ⟨(List.append_nil _).symm, rfl⟩
  | cons action actions ih =>
      rw [List.foldl_cons, List.flatMap_cons, List.foldl_cons, ← List.append_assoc]
      have step : (perform reader action).buf = reader.buf ++ action.kept ∧
          (perform reader action).metadata = action.noted reader.metadata := by
        cases action <;> simp [perform, Action.kept, Action.noted]
      rw [← step.1, ← step.2]
      exact ih _

theorem process_buf (reader : Reader) (chunk : Bytes) :
    (process reader chunk).buf = reader.buf ++ kept chunk :=
  (foldl_perform _ reader).1

theorem process_metadata (reader : Reader) (chunk : Bytes) :
    (process reader chunk).metadata = noted reader.metadata chunk :=
  (foldl_perform _ reader).2

theorem kept_stream (clean : ∀ sent ∈ group, Clean sent) : kept (stream group) = textOf group := by
  rw [kept, takeAll_stream clean, textOf, List.flatMap_map]
  exact congrArg (List.flatMap · group) (funext fun sent => by cases sent <;> rfl)

theorem noted_stream (clean : ∀ sent ∈ group, Clean sent) (metadata : ConnectionMeta) :
    noted metadata (stream group) = group.foldl announced metadata := by
  rw [noted, takeAll_stream clean, List.foldl_map]
  refine List.foldl_ext _ _ _ fun known sent listed => ?_
  cases sent with
  | text | option => rfl
  | subnegotiation data => exact handleSubneg_doubled (clean _ listed).2 known

theorem extractLine_eq (found : firstLine 13 10 buf = some ((line, ending), rest)) :
    extractLine buf = (line, rest) := by
  obtain ⟨rfl, plain, alone⟩ := firstLine_split found
  have front : line.findIdx? (fun byte => byte = 13 ∨ byte = 10) = none := by
    rw [List.findIdx?_eq_none_iff]
    intro byte listed
    have noReturn : byte ≠ 13 := fun same => plain.1 (same ▸ listed)
    have noFeed : byte ≠ 10 := fun same => plain.2 (same ▸ listed)
    simp [noReturn, noFeed]
  have place : (line ++ (ending.chars 13 10 ++ rest)).findIdx? (fun byte => byte = 13 ∨ byte = 10) =
      some line.length := by
    rw [List.findIdx?_append, front]
    cases ending <;> simp [Ending.chars, List.findIdx?_cons]
  rw [extractLine, place]
  cases ending with
  | crlf => simp [Ending.chars]
  | cr =>
      have after : (line ++ (Ending.cr.chars 13 10 ++ rest))[line.length + 1]? = rest.head? := by
        rw [List.getElem?_append_right (Nat.le_add_right _ 1), Nat.add_sub_cancel_left]
        exact List.head?_eq_getElem?.symm
      dsimp only
      rw [after]
      simp [Ending.chars, alone rfl]
  | lf => simp [Ending.chars]

theorem decoded_line (plain : Plain 13 10 line) : decoded line = decodeAscii line := by
  have ends := plain_decoded.mpr plain
  have last : (decodeAscii line).reverse.dropWhile (fun c => c = '\r' ∨ c = '\n') =
      (decodeAscii line).reverse := by
    cases shape : (decodeAscii line).reverse with
    | nil => rfl
    | cons c text =>
        have listed : c ∈ decodeAscii line :=
          List.mem_reverse.mp (shape ▸ List.mem_cons_self)
        have noReturn : c ≠ '\r' := fun same => ends.1 (same ▸ listed)
        have noFeed : c ≠ '\n' := fun same => ends.2 (same ▸ listed)
        exact List.dropWhile_cons_of_neg (by simp [noReturn, noFeed])
  rw [decoded, Text.stripLineEnd, last, List.reverse_reverse]

theorem readline_line (found : firstLine 13 10 reader.buf = some ((line, ending), rest))
    (chunks : List Bytes) :
    readline reader chunks = (some (decodeAscii line), { reader with buf := rest }, chunks) := by
  have some_ : 10 ∈ reader.buf ∨ 13 ∈ reader.buf := by
    by_contra neither
    push Not at neither
    rw [firstLine_none.mpr ⟨neither.2, neither.1⟩] at found
    cases found
  rw [readline.eq_def, if_pos some_, extractLine_eq found]
  dsimp only
  rw [decoded_line (firstLine_split found).2.1]

theorem readline_waits (plain : Plain 13 10 reader.buf) : readline reader [] = (none, reader, []) := by
  rw [readline.eq_def, if_neg fun either => either.elim plain.2 plain.1]

theorem readline_reads (plain : Plain 13 10 reader.buf) {chunk : Bytes} (some_ : chunk ≠ []) :
    readline reader (chunk :: chunks) = readline (process reader chunk) chunks := by
  rw [readline.eq_def, if_neg fun either => either.elim plain.2 plain.1]
  exact if_neg some_

/-- The reader takes its lines from the text of the chunks. -/
theorem readline_spec (some_ : ∀ chunk ∈ chunks, chunk ≠ []) (reader : Reader) :
    match Readers.read (firstLine 13 10) reader.buf (chunks.map kept) with
    | none => ∃ final, readline reader chunks = (none, final, []) ∧
        final.metadata = chunks.foldl noted reader.metadata
    | some ((line, _), rest, later) => ∃ final left,
        readline reader chunks = (some (decodeAscii line), final, left) ∧ final.buf = rest ∧
          left.map kept = later ∧ left <:+ chunks ∧
          left.foldl noted final.metadata = chunks.foldl noted reader.metadata := by
  induction chunks generalizing reader with
  | nil =>
      rw [List.map_nil, Readers.read]
      cases found : firstLine 13 10 reader.buf with
      | none => exact ⟨reader, readline_waits (firstLine_none.mp found), rfl⟩
      | some result => exact ⟨_, _, readline_line found [], rfl, rfl, List.suffix_rfl, rfl⟩
  | cons chunk chunks ih =>
      obtain ⟨nonempty, others⟩ := List.forall_mem_cons.mp some_
      rw [List.map_cons, Readers.read]
      cases found : firstLine 13 10 reader.buf with
      | some result => exact ⟨_, _, readline_line found _, rfl, rfl, List.suffix_rfl, rfl⟩
      | none =>
          have later := ih others (process reader chunk)
          rw [process_buf, process_metadata] at later
          rw [readline_reads (firstLine_none.mp found) nonempty]
          dsimp only
          cases answer : Readers.read (firstLine 13 10) (reader.buf ++ kept chunk) (chunks.map kept) with
          | none => rwa [answer] at later
          | some result =>
              rw [answer] at later
              obtain ⟨final, left, whole, rest, texts, suffix, same⟩ := later
              exact ⟨final, left, whole, rest, texts, suffix.trans (List.suffix_cons _ _), same⟩

theorem readlines_spec (some_ : ∀ chunk ∈ chunks, chunk ≠ []) (count : Nat) :
    (readlines count reader chunks).1 =
        (reads (firstLine 13 10) count reader.buf (chunks.map kept)).map
          (fun item => decodeAscii item.1) ∧
      ((reads (firstLine 13 10) count reader.buf (chunks.map kept)).length < count →
        (readlines count reader chunks).2.metadata = chunks.foldl noted reader.metadata) := by
  induction count generalizing reader chunks with
  | zero => exact ⟨rfl, fun more => absurd more (Nat.not_lt_zero _)⟩
  | succ count ih =>
      have next := readline_spec some_ reader
      rw [readlines, reads]
      cases answer : Readers.read (firstLine 13 10) reader.buf (chunks.map kept) with
      | none =>
          rw [answer] at next
          obtain ⟨final, whole, known⟩ := next
          rw [whole]
          exact ⟨rfl, fun _ => known⟩
      | some result =>
          obtain ⟨⟨line, ending⟩, rest, later⟩ := result
          rw [answer] at next
          obtain ⟨final, left, whole, rfl, rfl, suffix, same⟩ := next
          obtain ⟨texts, known⟩ := @ih final left fun chunk listed => some_ chunk (suffix.subset listed)
          rw [whole]
          refine ⟨?_, fun more => ?_⟩
          · rw [List.map_cons, ← texts]
          · rw [← same]
            exact known (Nat.lt_of_succ_lt_succ more)

end Reading

section Whole

variable {groups : List (List Sent)}

theorem stream_nonempty {group : List Sent} (some_ : group ≠ []) : stream group ≠ [] := by
  cases group with
  | nil => exact absurd rfl some_
  | cons sent group =>
      cases sent with
      | text byte =>
          rw [stream, List.flatMap_cons, Sent.encode, doubled, List.flatMap_singleton]
          split <;> exact List.cons_ne_nil _ _
      | option | subnegotiation => exact List.cons_ne_nil _ _

theorem map_kept (clean : ∀ sent ∈ groups.flatten, Clean sent) :
    (groups.map stream).map kept = groups.map textOf := by
  rw [List.map_map]
  refine List.map_congr_left fun group listed => ?_
  exact kept_stream fun sent among => clean sent (List.mem_flatten_of_mem listed among)

theorem foldl_noted (clean : ∀ sent ∈ groups.flatten, Clean sent) (metadata : ConnectionMeta) :
    (groups.map stream).foldl noted metadata = groups.flatten.foldl announced metadata := by
  rw [List.foldl_map, List.foldl_flatten]
  refine List.foldl_ext _ _ _ fun known group listed => ?_
  exact noted_stream (fun sent among => clean sent (List.mem_flatten_of_mem listed among)) known

theorem flatten_textOf (groups : List (List Sent)) :
    (groups.map textOf).flatten = textOf groups.flatten := by
  induction groups with
  | nil => rfl
  | cons group groups ih =>
      rw [List.map_cons, List.flatten_cons, List.flatten_cons, ih]
      exact List.flatMap_append.symm

/-- Where every chunk holds whole items and their data is clean, the reader is faithful
exactly when no CR LF of the text is cut. -/
theorem faithful_iff (metadata : ConnectionMeta) (some_ : ∀ group ∈ groups, group ≠ [])
    (clean : ∀ sent ∈ groups.flatten, Clean sent) :
    Faithful metadata groups.flatten (groups.map stream) ↔
      ((groups.map textOf).filter (· ≠ [])).IsChain fun front back => ¬ Cuts 13 10 front back := by
  have apart : (13 : UInt8) ≠ 10 := by decide
  have fresh : Plain (13 : UInt8) 10 [] := ⟨List.not_mem_nil, List.not_mem_nil⟩
  have filled : ∀ chunk ∈ groups.map stream, chunk ≠ [] := by
    intro chunk listed
    obtain ⟨group, among, rfl⟩ := List.mem_map.mp listed
    exact stream_nonempty (some_ group among)
  have texts : ∀ text ∈ (groups.map textOf).filter (· ≠ []), text ≠ [] := fun text listed => by
    simpa using List.of_mem_filter listed
  have all (count : Nat) :
      reads (firstLine 13 10) count [] ((groups.map stream).map kept) =
        (drain (lines 13 10) [] ((groups.map textOf).filter (· ≠ []))).1.take count := by
    rw [reads_eq firstLine_shortens, map_kept clean, drain_filter fresh]
    rfl
  have whole : ((groups.map textOf).filter (· ≠ [])).flatten = textOf groups.flatten := by
    rw [← flatten_textOf]
    exact List.flatten_filter_ne_nil
  rw [Faithful]
  constructor
  · intro faithful
    have same : (drain (lines 13 10) [] ((groups.map textOf).filter (· ≠ []))).1.map
        (fun item => decodeAscii item.1) = streamLines (textOf groups.flatten) := by
      refine eq_of_take fun count => ?_
      rw [← (faithful count).1, (readlines_spec filled count).1, all, List.map_take]
    have length := congrArg List.length same
    rw [List.length_map, drain_length apart texts fresh, List.nil_append, whole, streamLines,
      List.length_map] at length
    exact cuts_eq_zero.mp (by omega)
  · intro uncut count
    have same := drain_lines apart texts uncut fresh
    rw [List.nil_append, whole] at same
    obtain ⟨lines_, known⟩ := @readlines_spec { metadata := metadata } _ filled count
    rw [all, same] at lines_ known
    refine ⟨?_, fun more => ?_⟩
    · rw [lines_, streamLines, List.map_take]
    · rw [known, foldl_noted clean]
      rw [List.length_take, streamLines, List.length_map] at *
      omega

/-- A line with an option in it, whose window size comes between two chunks. -/
theorem size_between_faithful :
    Faithful {} [.text 108, .option .will 31, .subnegotiation [31, 0, 100, 1, 44], .text 115, .text 13]
      [[108, 255, 251, 31], [255, 250, 31, 0, 100, 1, 44, 255, 240, 115, 13]] :=
  (@faithful_iff [[.text 108, .option .will 31],
    [.subnegotiation [31, 0, 100, 1, 44], .text 115, .text 13]] {} (by decide) (by decide)).mpr (by decide)

/-- A cut in IAC WILL: the option gets into the line. -/
theorem option_in_line :
    stream [.option .will 24, .text 97, .text 13] = [[255, 251], [24, 97, 13]].flatten ∧
      ¬ Faithful {} [.option .will 24, .text 97, .text 13] [[255, 251], [24, 97, 13]] := by
  refine ⟨by decide, fun faithful => ?_⟩
  have first := (faithful 1).1
  exact absurd first (by decide)

end Whole

end PyBulletin.Transport.TelnetReader
