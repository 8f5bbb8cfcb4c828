import Mathlib.Data.List.DropRight
import PyBulletin.Ax25.Frame
import PyBulletin.Forward.Protocol

set_option autoImplicit false

namespace PyBulletin.Ax25

open PyBulletin.Foundation
open PyBulletin.Forward (encodeAscii encodeAscii_length)

/-! # Frames encoded and decoded

The end bit of an address field tells where the address list stops, and the
control byte tells whether a PID byte follows it.
-/

namespace AX25Address

/-- `text.ljust(width)` -/
def ljust (width : Nat) (text : Text) : Text :=
  text ++ List.replicate (width - text.length) ' '

def flagBit (flag : Bool) : UInt8 := if flag then 1 else 0

/-- The last byte of an address field. -/
def ssidByte (ssid : Nat) (ch endBit : Bool) : UInt8 :=
  (0x60 : UInt8) ||| (flagBit ch <<< 7) ||| (UInt8.ofNat (ssid &&& 0x0F) <<< 1) ||| flagBit endBit

def encode (address : AX25Address) : Bytes :=
  let padded := (ljust 6 (Text.upper address.callsign)).take 6
  (encodeAscii padded).map (· <<< (1 : UInt8)) ++ [ssidByte address.ssid address.ch address.endBit]

/-- The address of a field of six characters and an SSID byte. -/
def ofField (chars : Bytes) (ssidByte : UInt8) : AX25Address :=
  { callsign := (chars.map fun b : UInt8 => Char.ofNat (b >>> 1).toNat).rdropWhile Text.isSpace
    ssid := ((ssidByte >>> 1) &&& 0x0F).toNat
    ch := ssidByte &&& 0x80 ≠ 0
    endBit := ssidByte &&& 0x01 ≠ 0 }

/-- `address.end = value` -/
def withEnd (address : AX25Address) (value : Bool) : AX25Address := { address with endBit := value }

/-- `AX25Address.decode`; `none` is the `ValueError`. -/
def decode : Bytes → Option AX25Address
  | c0 :: c1 :: c2 :: c3 :: c4 :: c5 :: ssidByte :: _ =>
      some (ofField [c0, c1, c2, c3, c4, c5] ssidByte)
  | _ => none

end AX25Address

namespace AX25Frame

/-- The loop over the address fields: the addresses read, and the bytes behind them. -/
def readAddresses : Bytes → List AX25Address × Bytes
  | c0 :: c1 :: c2 :: c3 :: c4 :: c5 :: ssidByte :: rest =>
      let address := AX25Address.ofField [c0, c1, c2, c3, c4, c5] ssidByte
      if address.endBit then ([address], rest)
      else
        let (addresses, left) := readAddresses rest
        (address :: addresses, left)
  | rest => ([], rest)

inductive DecodeError where
  | frameTooShort | fewerThanTwoAddresses | noControlByte
deriving DecidableEq, Repr

/-- `AX25Frame.decode` -/
def decode (data : Bytes) : Except DecodeError AX25Frame :=
  if data.length < 15 then .error .frameTooShort
  else
    match readAddresses data with
    | (dest :: src :: repeaters, control :: rest) =>
        match classify control, rest with
        | .i, pid :: info | .ui, pid :: info =>
            .ok { dest, src, repeaters, control, pid := some pid, info }
        | .frmr, info => .ok { dest, src, repeaters, control, info }
        | _, _ => .ok { dest, src, repeaters, control }
    | (_ :: _ :: _, []) => .error .noControlByte
    | _ => .error .fewerThanTwoAddresses

def addresses (frame : AX25Frame) : List AX25Address := frame.dest :: frame.src :: frame.repeaters

/-- The loop of `encode` that sets the end bits. -/
def markEnds (addresses : List AX25Address) : List AX25Address :=
  addresses.mapIdx fun i address => address.withEnd (i = addresses.length - 1)

def encode (frame : AX25Frame) : Bytes :=
  (markEnds frame.addresses).flatMap AX25Address.encode ++
    frame.control :: (frame.pid.toList ++ frame.info)

end AX25Frame

namespace AX25Address

/-- The characters A-Z and 0-9. -/
def isCallsignChar (c : Char) : Bool := ('A' ≤ c ∧ c ≤ 'Z') ∨ ('0' ≤ c ∧ c ≤ '9')

/-- At most six letters and digits, and an SSID of four bits. -/
structure Regular (address : AX25Address) : Prop where
  chars : address.callsign.all isCallsignChar = true
  short : address.callsign.length ≤ 6
  ssid : address.ssid < 16

variable {address : AX25Address} {c : Char}

@[simp] theorem endBit_withEnd (value : Bool) : (address.withEnd value).endBit = value :=
  rfl

theorem Regular.withEnd (regular : address.Regular) (value : Bool) :
    (address.withEnd value).Regular :=
  ⟨regular.chars, regular.short, regular.ssid⟩

theorem isCallsignChar_range (regular : isCallsignChar c) : 48 ≤ c.toNat ∧ c.toNat ≤ 90 := by
  simp only [isCallsignChar, Char.le_def, UInt32.le_iff_toNat_le, decide_eq_true_eq] at regular
  simp only [Char.toNat]
  rcases regular with ⟨first, last⟩ | ⟨first, last⟩
  · exact ⟨Nat.le_trans (by decide : 48 ≤ 65) first, last⟩
  · exact ⟨first, Nat.le_trans last (by decide : 57 ≤ 90)⟩

theorem upper_regular {text : Text} (chars : text.all isCallsignChar = true) :
    Text.upper text = text := by
  refine (List.map_congr_left fun c listed => ?_).trans (List.map_id text)
  have range := isCallsignChar_range (List.all_eq_true.mp chars c listed)
  refine Text.toUpper_of_not_lower fun lower => ?_
  have first : 97 ≤ c.toNat := lower.1
  omega

theorem isSpace_callsignChar (regular : isCallsignChar c) : Text.isSpace c = false := by
  have range := isCallsignChar_range regular
  simp only [Text.isSpace, decide_eq_false_iff_not]
  omega

/-- A character shifted into its field and back. -/
theorem char_of_field (ascii : c.toNat < 128) :
    Char.ofNat ((c.toNat.toUInt8 <<< 1) >>> 1).toNat = c := by
  have all : ∀ k : Fin 128, ((UInt8.ofNat k <<< 1) >>> 1).toNat = k := by decide +kernel
  rw [show (c.toNat.toUInt8 <<< 1 >>> 1).toNat = c.toNat from all ⟨c.toNat, ascii⟩,
    Char.ofNat_toNat]

theorem chars_of_field {text : Text} (ascii : ∀ c ∈ text, c.toNat < 128) :
    ((encodeAscii text).map (· <<< (1 : UInt8))).map (fun b : UInt8 => Char.ofNat (b >>> 1).toNat) =
      text := by
  rw [encodeAscii, List.map_map, List.map_map]
  refine (List.map_congr_left fun c listed => ?_).trans (List.map_id text)
  simp only [Function.comp_apply, if_pos (ascii c listed), char_of_field (ascii c listed), id_eq]

theorem rdropWhile_blanks {text : Text} (visible : ∀ c ∈ text, Text.isSpace c = false) (n : Nat) :
    (text ++ List.replicate n ' ').rdropWhile Text.isSpace = text := by
  induction n with
  | zero =>
      rw [List.replicate_zero, List.append_nil, List.rdropWhile_eq_self_iff]
      intro some
      simp [visible _ (List.getLast_mem some)]
  | succ n ih =>
      rw [List.replicate_succ', ← List.append_assoc, List.rdropWhile_concat_pos _ _ _ (by decide), ih]

theorem flags_of_field {ssid : Nat} (small : ssid < 16) (ch endBit : Bool) :
    (((ssidByte ssid ch endBit) >>> 1) &&& 0x0F).toNat = ssid ∧
      decide (ssidByte ssid ch endBit &&& 0x80 ≠ 0) = ch ∧
      decide (ssidByte ssid ch endBit &&& 0x01 ≠ 0) = endBit := by
  have all : ∀ k : Fin 16, ∀ ch endBit : Bool,
      (((ssidByte k ch endBit) >>> 1) &&& 0x0F).toNat = k ∧
        decide (ssidByte k ch endBit &&& 0x80 ≠ 0) = ch ∧
        decide (ssidByte k ch endBit &&& 0x01 ≠ 0) = endBit := by
    decide +kernel
  exact all ⟨ssid, small⟩ ch endBit

/-- An address is encoded to a field of which it is the address. -/
theorem encode_field (regular : address.Regular) :
    ∃ chars : Bytes, ∃ last : UInt8, chars.length = 6 ∧ address.encode = chars ++ [last] ∧
      ofField chars last = address := by
  have visible : ∀ c ∈ address.callsign, Text.isSpace c = false := fun c listed =>
    isSpace_callsignChar (List.all_eq_true.mp regular.chars c listed)
  have size : (ljust 6 address.callsign).length = 6 := by
    have short := regular.short
    simp only [ljust, List.length_append, List.length_replicate]
    omega
  have padded : (ljust 6 (Text.upper address.callsign)).take 6 = ljust 6 address.callsign := by
    rw [upper_regular regular.chars, List.take_of_length_le (Nat.le_of_eq size)]
  have ascii : ∀ c ∈ ljust 6 address.callsign, c.toNat < 128 := by
    intro c listed
    rcases List.mem_append.mp listed with named | blank
    · have range := isCallsignChar_range (List.all_eq_true.mp regular.chars c named)
      omega
    · rw [List.eq_of_mem_replicate blank]
      decide
  obtain ⟨number, command, last⟩ := flags_of_field regular.ssid address.ch address.endBit
  refine ⟨(encodeAscii (ljust 6 address.callsign)).map (· <<< (1 : UInt8)),
    ssidByte address.ssid address.ch address.endBit, ?_, ?_, ?_⟩
  · rw [List.length_map, encodeAscii_length, size]
  · simp only [encode, padded]
  · rw [ofField, chars_of_field ascii, ljust, rdropWhile_blanks visible, number, command, last]

theorem decode_field {chars : Bytes} (six : chars.length = 6) (last : UInt8) (rest : Bytes) :
    decode (chars ++ last :: rest) = some (ofField chars last) := by
  match chars, six with
  | [_, _, _, _, _, _], _ => rfl

theorem encode_length (address : AX25Address) : address.encode.length = 7 := by
  have size : (ljust 6 (Text.upper address.callsign)).length ≥ 6 := by
    simp only [ljust, List.length_append, List.length_replicate]
    omega
  simp only [encode, List.length_append, List.length_map, encodeAscii_length, List.length_take,
    List.length_singleton]
  omega

/-- `AX25Address.decode` reads back what `AX25Address.encode` writes. -/
theorem decode_encode_field (regular : address.Regular) : decode address.encode = some address := by
  obtain ⟨chars, last, six, shape, same⟩ := encode_field regular
  rw [shape, decode_field six, same]

end AX25Address

namespace AX25Frame

variable {frame : AX25Frame} {address next : AX25Address} {listed : List AX25Address}

theorem markEnds_singleton (address : AX25Address) :
    markEnds [address] = [address.withEnd true] := by
  simp [markEnds]

theorem markEnds_cons (address next : AX25Address) (listed : List AX25Address) :
    markEnds (address :: next :: listed) =
      address.withEnd false :: markEnds (next :: listed) := by
  simp [markEnds, List.mapIdx_cons]

theorem readAddresses_field {chars : Bytes} (six : chars.length = 6) (last : UInt8) (rest : Bytes) :
    readAddresses (chars ++ last :: rest) =
      if (AX25Address.ofField chars last).endBit then ([AX25Address.ofField chars last], rest)
      else (AX25Address.ofField chars last :: (readAddresses rest).1, (readAddresses rest).2) := by
  match chars, six with
  | [_, _, _, _, _, _], _ => rfl

theorem readAddresses_encode (regular : address.Regular) (rest : Bytes) :
    readAddresses (address.encode ++ rest) =
      if address.endBit then ([address], rest)
      else (address :: (readAddresses rest).1, (readAddresses rest).2) := by
  obtain ⟨chars, last, six, shape, same⟩ := AX25Address.encode_field regular
  rw [shape, List.append_assoc, List.singleton_append, readAddresses_field six, same]

/-- The fields written for a list of addresses are read back, whatever follows them. -/
theorem readAddresses_markEnds (some : listed ≠ []) (regular : ∀ a ∈ listed, a.Regular)
    (rest : Bytes) :
    readAddresses ((markEnds listed).flatMap AX25Address.encode ++ rest) =
      (markEnds listed, rest) := by
  induction listed with
  | nil => exact absurd rfl some
  | cons address listed ih =>
      have first := regular address List.mem_cons_self
      cases listed with
      | nil =>
          rw [markEnds_singleton, List.flatMap_singleton,
            readAddresses_encode (first.withEnd true), if_pos (AX25Address.endBit_withEnd true)]
      | cons next listed =>
          have later := ih (List.cons_ne_nil _ _) fun a among =>
            regular a (List.mem_cons_of_mem _ among)
          rw [markEnds_cons, List.flatMap_cons, List.append_assoc,
            readAddresses_encode (first.withEnd false), if_neg (by simp), later]

theorem markEnds_length (listed : List AX25Address) : (markEnds listed).length = listed.length := by
  rw [markEnds, List.length_mapIdx]

/-- Nothing but the end bit of an address is written by the loop. -/
theorem markEnds_withEnd (listed : List AX25Address) (value : Bool) :
    (markEnds listed).map (AX25Address.withEnd · value) =
      listed.map (AX25Address.withEnd · value) := by
  induction listed with
  | nil => rfl
  | cons address listed ih =>
      cases listed with
      | nil => rw [markEnds_singleton]; rfl
      | cons next listed => rw [markEnds_cons, List.map_cons, ih]; rfl

theorem markEnds_endBit (some : listed ≠ []) :
    (markEnds listed).map AX25Address.endBit =
      List.replicate (listed.length - 1) false ++ [true] := by
  induction listed with
  | nil => exact absurd rfl some
  | cons address listed ih =>
      cases listed with
      | nil => rw [markEnds_singleton]; rfl
      | cons next listed =>
          rw [markEnds_cons, List.map_cons, ih (List.cons_ne_nil _ _)]
          rfl

/-- The frame after `encode`, which sets the end bits in place. -/
def marked (frame : AX25Frame) : AX25Frame :=
  match markEnds frame.addresses with
  | dest :: src :: repeaters => { frame with dest, src, repeaters }
  | _ => frame

theorem addresses_marked (frame : AX25Frame) : frame.marked.addresses = markEnds frame.addresses := by
  have size := markEnds_length frame.addresses
  rw [marked]
  match markEnds frame.addresses, size with
  | _ :: _ :: _, _ => rfl

@[simp] theorem control_marked (frame : AX25Frame) : frame.marked.control = frame.control := by
  rw [marked]
  split <;> rfl

@[simp] theorem pid_marked (frame : AX25Frame) : frame.marked.pid = frame.pid := by
  rw [marked]
  split <;> rfl

@[simp] theorem info_marked (frame : AX25Frame) : frame.marked.info = frame.info := by
  rw [marked]
  split <;> rfl

/-- The frames of the round trip: regular addresses, a PID byte in I and UI frames
only, an information field in I, UI and FRMR frames only. -/
structure Regular (frame : AX25Frame) : Prop where
  addresses : ∀ address ∈ frame.addresses, address.Regular
  pid : frame.pid.isSome ↔ frame.frameType = .i ∨ frame.frameType = .ui
  info : frame.frameType ≠ .i → frame.frameType ≠ .ui → frame.frameType ≠ .frmr → frame.info = []

/-- A PID byte is there exactly when the control byte says so, and is read as such. -/
theorem decode_fields {data : Bytes} (long : 15 ≤ data.length)
    (pid : frame.pid.isSome ↔ frame.frameType = .i ∨ frame.frameType = .ui)
    (info : frame.frameType ≠ .i → frame.frameType ≠ .ui → frame.frameType ≠ .frmr →
      frame.info = [])
    (read : readAddresses data =
      (frame.addresses, frame.control :: (frame.pid.toList ++ frame.info))) :
    decode data = .ok frame := by
  obtain ⟨dest, src, repeaters, control, pidByte, bytes⟩ := frame
  simp only [frameType, addresses] at pid info read
  rw [decode, if_neg (by omega), read]
  cases pidByte with
  | some pidByte =>
      rcases pid.mp rfl with kind | kind <;> simp [kind]
  | none =>
      have bare : classify control ≠ .i ∧ classify control ≠ .ui := by
        simpa using pid
      cases kind : classify control with
      | i => exact absurd kind bare.1
      | ui => exact absurd kind bare.2
      | frmr => simp [kind]
      | _ =>
          have none_left := info bare.1 bare.2 (by simp [kind])
          simp [kind, none_left]

theorem encode_length (frame : AX25Frame) : 15 ≤ frame.encode.length := by
  have fields : 14 ≤ ((markEnds frame.addresses).flatMap AX25Address.encode).length := by
    have sizes : ((markEnds frame.addresses).map fun a => a.encode.length).sum =
        7 * frame.addresses.length := by
      simp [AX25Address.encode_length, markEnds_length, Nat.mul_comm]
    have many : 2 ≤ frame.addresses.length := by simp [addresses]
    rw [List.length_flatMap, sizes]
    omega
  simp only [encode, List.length_append, List.length_cons]
  omega

theorem decode_encode_marked (regular : frame.Regular) :
    decode frame.encode = .ok frame.marked := by
  have read := readAddresses_markEnds (List.cons_ne_nil _ _) regular.addresses
    (frame.control :: (frame.pid.toList ++ frame.info))
  refine decode_fields (encode_length frame) ?_ ?_ ?_
  · simpa only [frameType, control_marked, pid_marked] using regular.pid
  · simpa only [frameType, control_marked, info_marked] using regular.info
  · rw [addresses_marked, control_marked, pid_marked, info_marked]
    exact read

/-- A frame is read back with the end bit on its last address only. -/
theorem decode_encode (regular : frame.Regular) :
    ∃ decoded, decode frame.encode = .ok decoded ∧
      decoded.addresses.map (AX25Address.withEnd · false) =
        frame.addresses.map (AX25Address.withEnd · false) ∧
      decoded.addresses.map AX25Address.endBit =
        List.replicate (frame.repeaters.length + 1) false ++ [true] ∧
      decoded.control = frame.control ∧ decoded.pid = frame.pid ∧ decoded.info = frame.info := by
  refine ⟨frame.marked, decode_encode_marked regular, ?_, ?_, control_marked frame,
    pid_marked frame, info_marked frame⟩
  · rw [addresses_marked, markEnds_withEnd]
  · rw [addresses_marked]
    exact markEnds_endBit (List.cons_ne_nil _ _)

/-- A frame by way of one repeater, whose information field looks like an address. -/
def relayed : AX25Frame :=
  { dest := { callsign := "W1AW", ssid := 7, ch := true }, src := { callsign := "" }
    repeaters := [{ callsign := "WIDE2", ssid := 15, ch := true, endBit := true }]
    control := 0x13, pid := some 0xF0, info := [0xAE, 0x62, 0x82, 0xAE, 0x40, 0x40, 0x61] }

theorem relayed_regular : relayed.Regular where
  addresses := by
    simp only [relayed, addresses, List.forall_mem_cons]
    exact ⟨⟨rfl, by decide, by decide⟩, ⟨rfl, by decide, by decide⟩,
      ⟨rfl, by decide, by decide⟩, fun _ listed => absurd listed List.not_mem_nil⟩
  pid := by decide
  info := by decide

theorem relayed_decoded :
    ∃ decoded, decode relayed.encode = .ok decoded ∧
      decoded.addresses.map (AX25Address.withEnd · false) =
        relayed.addresses.map (AX25Address.withEnd · false) ∧
      decoded.addresses.map AX25Address.endBit = [false, false, true] ∧
      decoded.control = 0x13 ∧ decoded.pid = some 0xF0 ∧
      decoded.info = [0xAE, 0x62, 0x82, 0xAE, 0x40, 0x40, 0x61] :=
  decode_encode relayed_regular

end AX25Frame

end PyBulletin.Ax25
