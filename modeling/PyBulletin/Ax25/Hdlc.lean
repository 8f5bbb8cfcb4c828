import Mathlib.Tactic.IntervalCases
import PyBulletin.Foundation.Text

set_option autoImplicit false

namespace PyBulletin.Ax25.Hdlc

open PyBulletin.Foundation

abbrev Bits := List Bool

def flag : UInt8 := 0x7E
/-- `FLAG_BITS`, LSB first. -/
def flagBits : Bits := [false, true, true, true, true, true, true, false]
def crcInit : UInt16 := 0xFFFF
def crcXorout : UInt16 := 0xFFFF
def crcPolyReversed : UInt16 := 0x8408
def maxRemainderBits : Nat := 8192

/-- One pass of the inner loop of `crc_x25`. -/
def crcShift (crc : UInt16) : UInt16 :=
  if crc &&& 0x0001 ≠ 0 then (crc >>> 1) ^^^ crcPolyReversed else crc >>> 1

def crcByte (crc : UInt16) (byte : UInt8) : UInt16 :=
  (List.range 8).foldl (fun crc _ => crcShift crc) (crc ^^^ byte.toUInt16)

def crcX25 (data : Bytes) : UInt16 := data.foldl crcByte crcInit ^^^ crcXorout

def appendFcs (payload : Bytes) : Bytes :=
  let crc := crcX25 payload
  payload ++ [(crc &&& 0xFF).toUInt8, ((crc >>> 8) &&& 0xFF).toUInt8]

/-- `frame[:-2]` is the payload; the other two bytes are its FCS, low byte first. -/
def verifyFcs (frame : Bytes) : Bool :=
  if frame.length < 3 then false
  else
    match frame.drop (frame.length - 2) with
    | [low, high] =>
        crcX25 (frame.take (frame.length - 2)) = low.toUInt16 ||| (high.toUInt16 <<< 8)
    | _ => false

def byteBits (byte : UInt8) : Bits :=
  (List.range 8).map fun bit => (byte >>> UInt8.ofNat bit) &&& 0x01 ≠ 0

def bytesToBitsLsb (data : Bytes) : Bits := data.flatMap byteBits

/-- The loop of `bits_to_bytes_lsb` with its variables `value` and `count`. -/
def packBits (value : UInt8) (count : Nat) : Bits → Bytes
  | [] => if count ≠ 0 then [value] else []
  | bit :: bits =>
      let value := if bit then value ||| (1 <<< UInt8.ofNat count) else value
      if count + 1 = 8 then value :: packBits 0 0 bits else packBits value (count + 1) bits

def bitsToBytesLsb (bits : Bits) : Bytes := packBits 0 0 bits

def stuffFrom (ones : Nat) : Bits → Bits
  | [] => []
  | true :: bits =>
      if ones + 1 = 5 then true :: false :: stuffFrom 0 bits
      else true :: stuffFrom (ones + 1) bits
  | false :: bits => false :: stuffFrom 0 bits

def bitStuff (bits : Bits) : Bits := stuffFrom 0 bits

/-- The loop of `bit_unstuff`; `skipZero` expects a stuffed zero next. -/
def unstuffFrom (ones : Nat) (skipZero : Bool) : Bits → Option Bits
  | [] => if skipZero then none else some []
  | bit :: bits =>
      if skipZero then if bit then none else unstuffFrom 0 false bits
      else if bit then (unstuffFrom (ones + 1) (ones + 1 = 5) bits).map (bit :: ·)
      else (unstuffFrom 0 false bits).map (bit :: ·)

def bitUnstuff (bits : Bits) : Option Bits := unstuffFrom 0 false bits

def nrziEncode (initial : Bool) : Bits → Bits
  | [] => []
  | bit :: bits =>
      let level := if bit then initial else !initial
      level :: nrziEncode level bits

def nrziDecode (initial : Bool) : Bits → Bits
  | [] => []
  | level :: levels => (level == initial) :: nrziDecode level levels

def encodeHdlcFrame (payload : Bytes) : Bytes :=
  [flag] ++ bitsToBytesLsb (bitStuff (bytesToBitsLsb (appendFcs payload))) ++ [flag]

/-- `none` for a bit-stuff or FCS error: what `extract_hdlc_frames` makes of the
bits between two flags. -/
def frameBetween (stuffed : Bits) : Option Bytes :=
  match bitUnstuff stuffed with
  | none => none
  | some bits =>
      let raw := bitsToBytesLsb bits
      if verifyFcs raw then some (raw.take (raw.length - 2)) else none

/-- `decode_hdlc_frame` with the texts of its `ValueError`s. -/
def decodeHdlcFrame (frame : Bytes) : Except String Bytes :=
  if frame.length < 4 ∨ frame.head? ≠ some flag ∨ frame.getLast? ≠ some flag then
    .error "Missing HDLC frame flags"
  else
    match bitUnstuff (bytesToBitsLsb frame.tail.dropLast) with
    | none => .error "Invalid HDLC bit-stuff sequence"
    | some bits =>
        let raw := bitsToBytesLsb bits
        if verifyFcs raw then .ok (raw.take (raw.length - 2)) else .error "Bad AX.25 FCS"

/-- The scan for flags; `position` is the index of the head of the list. -/
def flagPositions (position : Nat) (bits : Bits) : List Nat :=
  match bits with
  | [] => []
  | bit :: rest =>
      if (bit :: rest).take 8 = flagBits then position :: flagPositions (position + 8) (rest.drop 7)
      else flagPositions (position + 1) rest
termination_by bits.length
decreasing_by
  all_goals simp only [List.length_cons, List.length_drop]; omega

/-- The frames between consecutive flags. -/
def framesAt (bits : Bits) : List Nat → List Bytes
  | start :: finish :: positions =>
      let stuffed := (bits.drop (start + 8)).take (finish - (start + 8))
      let frames := framesAt bits (finish :: positions)
      if stuffed = [] then frames
      else
        match frameBetween stuffed with
        | none => frames
        | some payload => payload :: frames
  | _ => []

/-- `bits[-n:]`. -/
def lastBits (n : Nat) (bits : Bits) : Bits := bits.drop (bits.length - n)

def extractHdlcFrames (bits : Bits) : List Bytes × Bits :=
  match flagPositions 0 bits with
  | [] => ([], if maxRemainderBits < bits.length then lastBits (flagBits.length - 1) bits else bits)
  | [only] =>
      let remainder := bits.drop only
      ([], if maxRemainderBits < remainder.length then lastBits (flagBits.length - 1) bits
        else remainder)
  | positions => (framesAt bits positions, bits.drop (positions.getLastD 0))

/-- The levels that `Bell202Modulator.modulate_ax25_frame` turns into audio. -/
def modulateLevels (preambleFlags postambleFlags : Int) (payload : Bytes) : Bits :=
  let preamble := List.replicate (max 1 preambleFlags).toNat flag
  let postamble := List.replicate (max 1 postambleFlags).toNat flag
  nrziEncode true (bytesToBitsLsb (preamble ++ encodeHdlcFrame payload ++ postamble))

end PyBulletin.Ax25.Hdlc
