import Mathlib.Data.List.Basic
import PyBulletin.Ax25.HdlcRoundTrip
import PyBulletin.Foundation.Crc

set_option autoImplicit false

namespace PyBulletin.Ax25.Hdlc

open PyBulletin.Foundation

/-- `_CRC_POLY_REVERSED` as the taps of a shift register. -/
def taps : BitVec 16 := crcPolyReversed.toBitVec

/-- What the register holds behind every frame with a right FCS. -/
def residue : BitVec 16 := (Crc.shift taps)^[16] crcXorout.toBitVec

/-- The frame with the bits of `errors` flipped. -/
def corrupt (frame : Bytes) (errors : Bits) : Bytes :=
  bitsToBytesLsb (List.zipWith xor (bytesToBitsLsb frame) errors)

/-- All errors are within sixteen bits. -/
def Burst (errors : Bits) : Prop :=
  ∃ start, ∀ i, errors[i]? = some true → start ≤ i ∧ i < start + 16

theorem crcShift_toBitVec (crc : UInt16) : (crcShift crc).toBitVec = Crc.shift taps crc.toBitVec := by
  have parity : (crc &&& 1 ≠ 0) ↔ crc.toBitVec.getLsbD 0 = true := by
    rw [ne_eq, ← UInt16.toBitVec_inj, UInt16.toBitVec_and]
    have bit : crc.toBitVec &&& 1#16 = BitVec.setWidth 16 (BitVec.ofBool (crc.toBitVec.getLsbD 0)) :=
      BitVec.and_one_eq_setWidth_ofBool_getLsbD
    change ¬ crc.toBitVec &&& 1#16 = 0#16 ↔ _
    rw [bit]
    cases crc.toBitVec.getLsbD 0 <;> decide
  unfold crcShift Crc.shift
  by_cases odd : crc &&& 1 ≠ 0
  · rw [if_pos odd, if_pos (parity.mp odd)]
    rfl
  · rw [if_neg odd, if_neg (fun one => odd (parity.mpr one))]
    rfl

theorem foldl_crcShift_toBitVec {passes : List Nat} (crc : UInt16) :
    (passes.foldl (fun crc _ => crcShift crc) crc).toBitVec =
      (Crc.shift taps)^[passes.length] crc.toBitVec := by
  induction passes generalizing crc with
  | nil => rfl
  | cons _ passes ih => rw [List.foldl_cons, ih, crcShift_toBitVec]; rfl

theorem word_byteBits (byte : UInt8) : (Crc.word (byteBits byte) : BitVec 16) = byte.toUInt16.toBitVec := by
  have all : ∀ n : Fin 256,
      (Crc.word (byteBits (UInt8.ofNat n)) : BitVec 16) = (UInt8.ofNat n).toUInt16.toBitVec := by
    decide +kernel
  have one := all ⟨byte.toNat, byte.toNat_lt⟩
  simpa using one

theorem crcByte_toBitVec (crc : UInt16) (byte : UInt8) :
    (crcByte crc byte).toBitVec = Crc.run taps crc.toBitVec (byteBits byte) := by
  rw [Crc.run_word taps _ (by rw [length_byteBits]; decide), word_byteBits, crcByte,
    foldl_crcShift_toBitVec]
  rfl

theorem foldl_crcByte_toBitVec (crc : UInt16) (data : Bytes) :
    (data.foldl crcByte crc).toBitVec = Crc.run taps crc.toBitVec (bytesToBitsLsb data) := by
  induction data generalizing crc with
  | nil => rfl
  | cons byte data ih =>
      rw [List.foldl_cons, ih, crcByte_toBitVec, ← Crc.run_append]
      rfl

theorem toBitVec_fcs (low high : UInt8) :
    (low.toUInt16 ||| (high.toUInt16 <<< 8)).toBitVec = Crc.word (bytesToBitsLsb [low, high]) := by
  have split : bytesToBitsLsb [low, high] = byteBits low ++ byteBits high := by
    simp [bytesToBitsLsb]
  rw [split, Crc.word_append, word_byteBits, word_byteBits, length_byteBits]
  apply BitVec.eq_of_getLsbD_eq
  intro i bound
  interval_cases i <;> simp

/-- A frame is accepted if its bits leave the residue in the register. -/
theorem verifyFcs_eq_residue {frame : Bytes} (long : 3 ≤ frame.length) :
    verifyFcs frame =
      decide (Crc.run taps crcInit.toBitVec (bytesToBitsLsb frame) = residue) := by
  obtain ⟨payload, low, high, rfl⟩ : ∃ payload low high, frame = payload ++ [low, high] := by
    have size : (frame.drop (frame.length - 2)).length = 2 := by
      rw [List.length_drop]
      omega
    obtain ⟨low, high, last⟩ := List.length_eq_two.1 size
    exact ⟨frame.take (frame.length - 2), low, high, by rw [← last, List.take_append_drop]⟩
  have nonempty : payload ≠ [] := by
    rintro rfl
    contradiction
  let state := Crc.run taps crcInit.toBitVec (bytesToBitsLsb payload)
  let got : BitVec 16 := Crc.word (bytesToBitsLsb [low, high])
  have ended : Crc.run taps crcInit.toBitVec (bytesToBitsLsb (payload ++ [low, high])) =
      (Crc.shift taps)^[16] (state ^^^ got) := by
    rw [bytesToBitsLsb_append, Crc.run_append, Crc.run_word taps _ (by simp)]
    simp [state, got]
  have sum : (crcX25 payload).toBitVec = state ^^^ crcXorout.toBitVec := by
    rw [crcX25, UInt16.toBitVec_xor, foldl_crcByte_toBitVec]
  rw [verifyFcs_split nonempty, decide_eq_decide, ended, ← UInt16.toBitVec_inj, sum, toBitVec_fcs]
  constructor
  · intro same
    have read : got = state ^^^ crcXorout.toBitVec := same.symm
    rw [read, ← BitVec.xor_assoc, BitVec.xor_self, BitVec.zero_xor]
    rfl
  · intro same
    have equal : state ^^^ got = crcXorout.toBitVec :=
      (@Crc.shift_injective 16 taps (by decide)).iterate 16 same
    rw [← equal, ← BitVec.xor_assoc, BitVec.xor_self, BitVec.zero_xor]

theorem bytesToBitsLsb_corrupt {frame : Bytes} {errors : Bits}
    (aligned : errors.length = 8 * frame.length) :
    bytesToBitsLsb (corrupt frame errors) = List.zipWith xor (bytesToBitsLsb frame) errors := by
  have size : (List.zipWith xor (bytesToBitsLsb frame) errors).length = 8 * frame.length := by
    simp [aligned]
  have whole : padding (8 * frame.length) = 0 := by
    unfold padding
    omega
  rw [corrupt, bytesToBitsLsb_pack, size, whole, List.replicate_zero, List.append_nil]

theorem length_corrupt {frame : Bytes} {errors : Bits}
    (aligned : errors.length = 8 * frame.length) : (corrupt frame errors).length = frame.length := by
  have bits := congrArg List.length (bytesToBitsLsb_corrupt aligned)
  rw [length_bytesToBitsLsb, List.length_zipWith, length_bytesToBitsLsb] at bits
  omega

/-- A frame with a right FCS is no longer accepted after a burst of errors. -/
theorem verifyFcs_corrupt {frame : Bytes} (accepted : verifyFcs frame = true) {errors : Bits}
    (aligned : errors.length = 8 * frame.length) (hit : true ∈ errors) (burst : Burst errors) :
    verifyFcs (corrupt frame errors) = false := by
  have long : 3 ≤ frame.length := by
    by_contra short
    rw [verifyFcs, if_pos (by omega)] at accepted
    contradiction
  rw [verifyFcs_eq_residue long, decide_eq_true_iff] at accepted
  rw [verifyFcs_eq_residue (by rw [length_corrupt aligned]; exact long),
    bytesToBitsLsb_corrupt aligned, decide_eq_false_iff_not]
  obtain ⟨start, inside⟩ := burst
  have trace : Crc.run taps 0#16 errors ≠ 0#16 :=
    Crc.run_burst_ne_zero (by decide) inside hit
  have even : (bytesToBitsLsb frame).length = errors.length := by
    rw [length_bytesToBitsLsb, aligned]
  have sum := Crc.run_xor taps crcInit.toBitVec 0#16 even
  rw [BitVec.xor_zero, accepted] at sum
  rw [sum]
  intro unchanged
  apply trace
  calc Crc.run taps 0#16 errors
      = residue ^^^ (residue ^^^ Crc.run taps 0#16 errors) := by
        rw [← BitVec.xor_assoc, BitVec.xor_self, BitVec.zero_xor]
    _ = 0#16 := by rw [unchanged, BitVec.xor_self]

/-- The FCS of a payload is accepted, and no burst of up to sixteen bits passes it. -/
theorem fcs_detects_bursts {payload : Bytes} (nonempty : payload ≠ []) :
    verifyFcs (appendFcs payload) = true ∧
      ∀ errors : Bits, errors.length = 8 * (appendFcs payload).length → true ∈ errors →
        Burst errors → verifyFcs (corrupt (appendFcs payload) errors) = false :=
  ⟨verifyFcs_append nonempty, fun _ aligned hit burst =>
    verifyFcs_corrupt (verifyFcs_append nonempty) aligned hit burst⟩

/-- Errors on both sides of the end of the payload. -/
theorem across_the_end :
    verifyFcs (corrupt (appendFcs [0x41])
      ([false, false, false, false, true, false, false, true, true, false, false, true] ++
        List.replicate 12 false)) = false :=
  (@fcs_detects_bursts [0x41] (by decide)).2 _ rfl (by decide)
    ⟨4, fun i => by
      intro one
      have bound : i < 24 := (List.getElem?_eq_some_iff.mp one).1
      interval_cases i <;> simp at one ⊢⟩

end PyBulletin.Ax25.Hdlc
