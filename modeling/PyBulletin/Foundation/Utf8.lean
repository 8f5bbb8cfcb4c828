import PyBulletin.Foundation.Text

set_option autoImplicit false

namespace PyBulletin.Foundation.Utf8

/-! # Decoding UTF-8 with replacement characters

The decoder takes one byte at a time.  A sequence that breaks off gives one U+FFFD, and
the byte that breaks it is read anew. -/

inductive State where
  | start
  /-- The code point so far, how many bytes are missing, and the bounds of the next one. -/
  | inside (point missing low high : Nat)

def replacement : Char := Char.ofNat 0xFFFD

/-- A byte at the start of a character. -/
def lead (byte : UInt8) : Text × State :=
  let b := byte.toNat
  if b < 0x80 then ([Char.ofNat b], .start)
  else if b < 0xC2 then ([replacement], .start)
  else if b < 0xE0 then ([], .inside (b - 0xC0) 1 0x80 0xBF)
  else if b = 0xE0 then ([], .inside 0 2 0xA0 0xBF)
  else if b = 0xED then ([], .inside 0xD 2 0x80 0x9F)
  else if b < 0xF0 then ([], .inside (b - 0xE0) 2 0x80 0xBF)
  else if b = 0xF0 then ([], .inside 0 3 0x90 0xBF)
  else if b < 0xF4 then ([], .inside (b - 0xF0) 3 0x80 0xBF)
  else if b = 0xF4 then ([], .inside 4 3 0x80 0x8F)
  else ([replacement], .start)

def step : State → UInt8 → Text × State
  | .start, byte => lead byte
  | .inside point missing low high, byte =>
      if low ≤ byte.toNat ∧ byte.toNat ≤ high then
        let point := point * 64 + byte.toNat % 64
        if missing = 1 then ([Char.ofNat point], .start)
        else ([], .inside point (missing - 1) 0x80 0xBF)
      else (replacement :: (lead byte).1, (lead byte).2)

/-- What an unfinished character at the end of the input gives. -/
def flush : State → Text
  | .start => []
  | .inside .. => [replacement]

def decodeFrom : State → Bytes → Text
  | state, [] => flush state
  | state, byte :: bytes => (step state byte).1 ++ decodeFrom (step state byte).2 bytes

/-- `data.decode("utf-8", errors="replace")` -/
def decode (bytes : Bytes) : Text := decodeFrom .start bytes

def isAscii (c : Char) : Bool := c.toNat < 0x80

/-- `text.encode()` for ASCII text -/
def ascii (text : Text) : Bytes := text.map fun c => UInt8.ofNat c.toNat

variable {byte : UInt8} {text : Text}

/-- The bounds of a continuation byte leave no room for an ASCII byte. -/
def State.Continued : State → Prop
  | .start => True
  | .inside _ _ low _ => 0x80 ≤ low

theorem lead_continued (byte : UInt8) : (lead byte).2.Continued := by
  dsimp only [lead]
  repeat' split
  all_goals simp [State.Continued]

theorem step_continued (state : State) (byte : UInt8) : (step state byte).2.Continued := by
  cases state with
  | start => exact lead_continued byte
  | inside point missing low high =>
      dsimp only [step]
      split
      · split <;> simp [State.Continued]
      · exact lead_continued byte

theorem lead_ascii (plain : byte.toNat < 0x80) :
    lead byte = ([Char.ofNat byte.toNat], .start) := if_pos plain

theorem step_ascii {state : State} (continued : state.Continued) (plain : byte.toNat < 0x80) :
    step state byte = (flush state ++ [Char.ofNat byte.toNat], .start) := by
  cases state with
  | start => exact lead_ascii plain
  | inside point missing low high =>
      have below : ¬ (low ≤ byte.toNat ∧ byte.toNat ≤ high) := by
        simp only [State.Continued] at continued
        omega
      simp only [step, if_neg below, lead_ascii plain, flush, List.cons_append, List.nil_append]

/-- An ASCII byte ends what is in front of it. -/
theorem decodeFrom_split {state : State} (continued : state.Continued) (front : Bytes)
    (plain : byte.toNat < 0x80) (back : Bytes) :
    decodeFrom state (front ++ byte :: back) =
      decodeFrom state front ++ decode (byte :: back) := by
  induction front generalizing state with
  | nil =>
      have first : step .start byte = ([Char.ofNat byte.toNat], .start) := lead_ascii plain
      simp only [List.nil_append, decodeFrom, decode, step_ascii continued plain, first,
        List.append_assoc]
  | cons b front ih =>
      rw [List.cons_append, decodeFrom, ih (step_continued state b), decodeFrom,
        List.append_assoc]

theorem decode_split (front : Bytes) (plain : byte.toNat < 0x80) (back : Bytes) :
    decode (front ++ byte :: back) = decode front ++ decode (byte :: back) :=
  @decodeFrom_split _ .start trivial front plain back

theorem decode_ascii_append (plain : text.all isAscii) (bytes : Bytes) :
    decode (ascii text ++ bytes) = text ++ decode bytes := by
  induction text with
  | nil => rfl
  | cons c text ih =>
      obtain ⟨small, plain⟩ := Bool.and_eq_true_iff.mp (List.all_cons .. ▸ plain)
      have small : c.toNat < 0x80 := of_decide_eq_true small
      have same : (UInt8.ofNat c.toNat).toNat = c.toNat := by
        rw [UInt8.toNat_ofNat']
        omega
      change decodeFrom .start (UInt8.ofNat c.toNat :: (ascii text ++ bytes)) = _
      rw [decodeFrom, step, lead_ascii (by omega), same, Char.ofNat_toNat]
      exact congrArg (c :: ·) (ih plain)

theorem mem_of_mem_ascii (plain : text.all isAscii) (listed : (10 : UInt8) ∈ ascii text) :
    '\n' ∈ text := by
  obtain ⟨c, among, same⟩ := List.mem_map.mp listed
  have small : c.toNat < 0x80 := of_decide_eq_true (List.all_eq_true.mp plain c among)
  have value := congrArg UInt8.toNat same
  rw [UInt8.toNat_ofNat', Nat.mod_eq_of_lt (by omega)] at value
  have newline : c = '\n' := Char.toNat_inj.mp value
  exact newline ▸ among

theorem decode_crlf (bytes : Bytes) : decode (bytes ++ [13, 10]) = decode bytes ++ ['\r', '\n'] :=
  @decode_split 13 bytes (by decide) [10]

end PyBulletin.Foundation.Utf8
