import PyBulletin.Ax25.Hdlc

set_option autoImplicit false

namespace PyBulletin.Ax25.Hdlc

open PyBulletin.Foundation

private theorem byteBits_pack (b0 b1 b2 b3 b4 b5 b6 b7 : Bool) :
    (packBits 0 0 [b0, b1, b2, b3, b4, b5, b6, b7]).flatMap byteBits =
      [b0, b1, b2, b3, b4, b5, b6, b7] := by
  revert b0 b1 b2 b3 b4 b5 b6 b7
  decide

private theorem packBits_byteBits (byte : UInt8) : packBits 0 0 (byteBits byte) = [byte] := by
  have all : ∀ n : Fin 256, packBits 0 0 (byteBits (UInt8.ofNat n)) = [UInt8.ofNat n] := by
    decide +kernel
  have one := all ⟨byte.toNat, byte.toNat_lt⟩
  simpa using one

/-- Eight bits make a byte of their own. -/
theorem packBits_append (b0 b1 b2 b3 b4 b5 b6 b7 : Bool) (bits : Bits) :
    packBits 0 0 ([b0, b1, b2, b3, b4, b5, b6, b7] ++ bits) =
      packBits 0 0 [b0, b1, b2, b3, b4, b5, b6, b7] ++ packBits 0 0 bits := by
  simp [packBits]

theorem bitsToBytesLsb_append (data : Bytes) (bits : Bits) :
    bitsToBytesLsb (bytesToBitsLsb data ++ bits) = data ++ bitsToBytesLsb bits := by
  unfold bitsToBytesLsb bytesToBitsLsb
  induction data with
  | nil => rfl
  | cons byte data ih =>
      rw [List.flatMap_cons, List.append_assoc]
      have packed := packBits_byteBits byte
      obtain ⟨b0, b1, b2, b3, b4, b5, b6, b7, eight⟩ :
          ∃ b0 b1 b2 b3 b4 b5 b6 b7, byteBits byte = [b0, b1, b2, b3, b4, b5, b6, b7] :=
        ⟨_, _, _, _, _, _, _, _, rfl⟩
      rw [eight] at packed ⊢
      rw [packBits_append, packed, ih]
      rfl

@[simp] theorem length_byteBits (byte : UInt8) : (byteBits byte).length = 8 := rfl

@[simp] theorem length_bytesToBitsLsb (data : Bytes) :
    (bytesToBitsLsb data).length = 8 * data.length := by
  unfold bytesToBitsLsb
  induction data with
  | nil => rfl
  | cons byte data ih =>
      rw [List.flatMap_cons, List.length_append, ih, length_byteBits, List.length_cons]
      omega

@[simp] theorem bytesToBitsLsb_append (front back : Bytes) :
    bytesToBitsLsb (front ++ back) = bytesToBitsLsb front ++ bytesToBitsLsb back :=
  List.flatMap_append

/-- The zero bits with which the last byte is filled up. -/
def padding (length : Nat) : Nat := (8 - length % 8) % 8

/-- Packing fills up the last byte with zeros. -/
theorem bytesToBitsLsb_pack (bits : Bits) :
    bytesToBitsLsb (bitsToBytesLsb bits) = bits ++ List.replicate (padding bits.length) false := by
  unfold bytesToBitsLsb bitsToBytesLsb
  match bits with
  | [] => rfl
  | [b0] => revert b0; decide
  | [b0, b1] => revert b0 b1; decide
  | [b0, b1, b2] => revert b0 b1 b2; decide
  | [b0, b1, b2, b3] => revert b0 b1 b2 b3; decide
  | [b0, b1, b2, b3, b4] => revert b0 b1 b2 b3 b4; decide
  | [b0, b1, b2, b3, b4, b5] => revert b0 b1 b2 b3 b4 b5; decide
  | [b0, b1, b2, b3, b4, b5, b6] => revert b0 b1 b2 b3 b4 b5 b6; decide
  | b0 :: b1 :: b2 :: b3 :: b4 :: b5 :: b6 :: b7 :: rest =>
      have rest_packed := bytesToBitsLsb_pack rest
      unfold bytesToBitsLsb bitsToBytesLsb at rest_packed
      have whole := packBits_append b0 b1 b2 b3 b4 b5 b6 b7 rest
      have same : padding (rest.length + 8) = padding rest.length := by
        unfold padding
        omega
      simp only [List.cons_append, List.nil_append] at whole
      rw [whole, List.flatMap_append, byteBits_pack, rest_packed]
      simp only [List.length_cons, List.cons_append, List.nil_append]
      rw [same]
termination_by bits.length

/-- The number of zeros that bit stuffing inserts: one for each five ones in a row. -/
def fiveOnes (ones : Nat) : Bits → Nat
  | [] => 0
  | true :: bits => if ones + 1 = 5 then fiveOnes 0 bits + 1 else fiveOnes (ones + 1) bits
  | false :: bits => fiveOnes 0 bits

theorem length_stuffFrom (ones : Nat) (bits : Bits) :
    (stuffFrom ones bits).length = bits.length + fiveOnes ones bits := by
  induction bits generalizing ones with
  | nil => rfl
  | cons bit bits ih =>
      cases bit with
      | true =>
          by_cases five : ones + 1 = 5
          · simp only [stuffFrom, fiveOnes, five, if_true, List.length_cons, ih]
            omega
          · simp only [stuffFrom, fiveOnes, five, if_false, List.length_cons, ih]
            omega
      | false =>
          simp only [stuffFrom, fiveOnes, List.length_cons, ih]
          omega

theorem unstuffFrom_zeros (ones count : Nat) :
    unstuffFrom ones false (List.replicate count false) =
      some (List.replicate count false) := by
  induction count generalizing ones with
  | zero => rfl
  | succ count ih => simp [List.replicate_succ, unstuffFrom, ih]

/-- Unstuffing undoes stuffing and keeps the zeros after it. -/
theorem unstuffFrom_stuffFrom {ones : Nat} (few : ones < 5) (bits : Bits) (count : Nat) :
    unstuffFrom ones false (stuffFrom ones bits ++ List.replicate count false) =
      some (bits ++ List.replicate count false) := by
  induction bits generalizing ones with
  | nil => exact unstuffFrom_zeros ones count
  | cons bit bits ih =>
      cases bit with
      | true =>
          by_cases five : ones + 1 = 5
          · simp [stuffFrom, unstuffFrom, five, ih]
          · simp [stuffFrom, unstuffFrom, five, @ih (ones + 1) (by omega)]
      | false => simp [stuffFrom, unstuffFrom, ih]

private theorem crc_bytes (crc : UInt16) :
    (crc &&& 0xFF).toUInt8.toUInt16 ||| (((crc >>> 8) &&& 0xFF).toUInt8.toUInt16 <<< 8) = crc := by
  apply UInt16.toBitVec_inj.mp
  apply BitVec.eq_of_getLsbD_eq
  intro i bound
  interval_cases i <;> simp [-UInt16.toUInt16_toUInt8]

private theorem crc_xor_low (crc : UInt16) :
    crc ^^^ ((crc ^^^ 0xFFFF) &&& 0xFF).toUInt8.toUInt16 =
      ((crc >>> 8).toUInt8.toUInt16 <<< 8) ||| 0xFF := by
  apply UInt16.toBitVec_inj.mp
  apply BitVec.eq_of_getLsbD_eq
  intro i bound
  interval_cases i <;> simp [-UInt16.toUInt16_toUInt8]

private theorem byte_shift (byte : UInt8) : byte.toUInt16 >>> 8 = 0 := by
  apply UInt16.toBitVec_inj.mp
  apply BitVec.eq_of_getLsbD_eq
  intro i bound
  interval_cases i <;> simp

private theorem crc_after_ones (byte : UInt8) :
    ((List.range 8).foldl (fun crc _ => crcShift crc) ((byte.toUInt16 <<< 8) ||| 0xFF) ^^^
      crcXorout) >>> 8 ≠ 0 := by
  have all : ∀ n : Fin 256,
      ((List.range 8).foldl (fun crc _ => crcShift crc)
        (((UInt8.ofNat n).toUInt16 <<< 8) ||| 0xFF) ^^^ crcXorout) >>> 8 ≠ 0 := by
    decide +kernel
  have one := all ⟨byte.toNat, byte.toNat_lt⟩
  simpa using one

/-- The last two bytes of a frame are compared with the FCS of the rest. -/
theorem verifyFcs_split {payload : Bytes} (nonempty : payload ≠ []) (low high : UInt8) :
    verifyFcs (payload ++ [low, high]) =
      decide (crcX25 payload = low.toUInt16 ||| (high.toUInt16 <<< 8)) := by
  have long : 0 < payload.length := List.length_pos_iff.mpr nonempty
  have size : (payload ++ [low, high]).length - 2 = payload.length := by simp
  unfold verifyFcs
  rw [if_neg (by simp; omega), size, List.drop_left, List.take_left]

theorem verifyFcs_append {payload : Bytes} (nonempty : payload ≠ []) :
    verifyFcs (appendFcs payload) = true := by
  unfold appendFcs
  dsimp only
  rw [verifyFcs_split nonempty, crc_bytes, decide_eq_true rfl]

/-- A zero byte after the FCS is always noticed: the check would have to find the
high byte of the FCS and a zero as the FCS of the payload and its low byte. -/
theorem verifyFcs_padded (payload : Bytes) : verifyFcs (appendFcs payload ++ [0]) = false := by
  unfold appendFcs
  dsimp only
  generalize state : payload.foldl crcByte crcInit = crc
  have sum : crcX25 payload = crc ^^^ 0xFFFF := by rw [crcX25, state]; rfl
  rw [sum]
  generalize highByte : (((crc ^^^ 0xFFFF) >>> 8) &&& 0xFF).toUInt8 = high
  generalize lowByte : ((crc ^^^ 0xFFFF) &&& 0xFF).toUInt8 = low
  have shape : payload ++ [low, high] ++ [0] = (payload ++ [low]) ++ [high, 0] := by simp
  rw [shape, verifyFcs_split (by simp), decide_eq_false_iff_not]
  intro accepted
  have reached : crcX25 (payload ++ [low]) =
      (List.range 8).foldl (fun crc _ => crcShift crc)
        (((crc >>> 8).toUInt8.toUInt16 <<< 8) ||| 0xFF) ^^^ crcXorout := by
    rw [crcX25, List.foldl_append, state, List.foldl_cons, List.foldl_nil, crcByte, ← lowByte,
      crc_xor_low]
  have expected : high.toUInt16 ||| ((0 : UInt8).toUInt16 <<< 8) = high.toUInt16 := by
    simp
  rw [reached, expected] at accepted
  exact crc_after_ones _ (accepted ▸ byte_shift high)

/-- The bits between the flags of an encoded frame. -/
def frameBits (payload : Bytes) : Bits :=
  bytesToBitsLsb (bitsToBytesLsb (bitStuff (bytesToBitsLsb (appendFcs payload))))

def stuffedZeros (payload : Bytes) : Nat := fiveOnes 0 (bytesToBitsLsb (appendFcs payload))

theorem length_stuffed (payload : Bytes) :
    (bitStuff (bytesToBitsLsb (appendFcs payload))).length =
      8 * (appendFcs payload).length + stuffedZeros payload := by
  rw [bitStuff, length_stuffFrom, length_bytesToBitsLsb, stuffedZeros]

theorem unstuff_frameBits (payload : Bytes) :
    bitUnstuff (frameBits payload) =
      some (bytesToBitsLsb (appendFcs payload) ++
        List.replicate (padding (stuffedZeros payload)) false) := by
  have same : padding (8 * (appendFcs payload).length + stuffedZeros payload) =
      padding (stuffedZeros payload) := by
    unfold padding
    omega
  rw [frameBits, bytesToBitsLsb_pack, length_stuffed, same]
  exact unstuffFrom_stuffFrom (by decide) _ _

theorem pack_zeros {count : Nat} (few : count < 8) :
    bitsToBytesLsb (List.replicate count false) = if count = 0 then [] else [0] := by
  interval_cases count <;> rfl

/-- The bytes the receiver gets for an encoded frame: the frame with its FCS, and
a zero byte unless the stuffed bits fill whole bytes. -/
theorem raw_frame (payload : Bytes) :
    bitsToBytesLsb (bytesToBitsLsb (appendFcs payload) ++
        List.replicate (padding (stuffedZeros payload)) false) =
      if padding (stuffedZeros payload) = 0 then appendFcs payload else appendFcs payload ++ [0] := by
  have few : padding (stuffedZeros payload) < 8 := Nat.mod_lt _ (by decide)
  rw [bitsToBytesLsb_append, pack_zeros few]
  split <;> simp

theorem take_appendFcs (payload : Bytes) :
    (appendFcs payload).take ((appendFcs payload).length - 2) = payload := by
  unfold appendFcs
  simp

theorem frameBetween_frameBits {payload : Bytes} (nonempty : payload ≠ []) :
    frameBetween (frameBits payload) =
      if padding (stuffedZeros payload) = 0 then some payload else none := by
  rw [frameBetween, unstuff_frameBits]
  dsimp only
  rw [raw_frame]
  split
  · rw [verifyFcs_append nonempty, take_appendFcs]
    rfl
  · rw [verifyFcs_padded]
    rfl

theorem length_frameBits (payload : Bytes) : 8 * (payload.length + 2) ≤ (frameBits payload).length := by
  have size : (appendFcs payload).length = payload.length + 2 := by simp [appendFcs]
  rw [frameBits, bytesToBitsLsb_pack, List.length_append, length_stuffed, size]
  omega

theorem decodeHdlcFrame_encode {payload : Bytes} (nonempty : payload ≠ []) :
    decodeHdlcFrame (encodeHdlcFrame payload) =
      if padding (stuffedZeros payload) = 0 then .ok payload else .error "Bad AX.25 FCS" := by
  have long := length_frameBits payload
  have unstuffed := unstuff_frameBits payload
  unfold frameBits at long unstuffed
  unfold decodeHdlcFrame encodeHdlcFrame
  generalize bitsToBytesLsb (bitStuff (bytesToBitsLsb (appendFcs payload))) = packed at long unstuffed
  rw [length_bytesToBitsLsb] at long
  have size : ([flag] ++ packed ++ [flag]).length = packed.length + 2 := by simp
  have last : ([flag] ++ packed ++ [flag]).getLast? = some flag := List.getLast?_concat
  have flagged : ¬ (([flag] ++ packed ++ [flag]).length < 4 ∨
      ([flag] ++ packed ++ [flag]).head? ≠ some flag ∨
      ([flag] ++ packed ++ [flag]).getLast? ≠ some flag) := by
    rintro (short | first | final)
    · omega
    · exact first rfl
    · exact final last
  have inner : ([flag] ++ packed ++ [flag]).tail.dropLast = packed := by simp
  rw [if_neg flagged, inner, unstuffed]
  dsimp only
  rw [raw_frame]
  split
  · rw [verifyFcs_append nonempty, take_appendFcs]
    rfl
  · rw [verifyFcs_padded]
    rfl

theorem flagPositions_flag (position : Nat) (rest : Bits) :
    flagPositions position (flagBits ++ rest) = position :: flagPositions (position + 8) rest := by
  unfold flagBits
  rw [List.cons_append, flagPositions]
  simp [flagBits]

theorem flagPositions_skip {bit : Bool} {rest : Bits} (other : (bit :: rest).take 8 ≠ flagBits)
    (position : Nat) :
    flagPositions position (bit :: rest) = flagPositions (position + 1) rest := by
  rw [flagPositions, if_neg other]

/-- A zero comes after at most `limit` ones. -/
def ShortRun (limit : Nat) (bits : Bits) : Prop := ∃ place ≤ limit, bits[place]? = some false

theorem ShortRun.not_flag {bits : Bits} (short : ShortRun 5 bits) :
    (false :: bits).take 8 ≠ flagBits := by
  obtain ⟨place, early, zero⟩ := short
  intro same
  have entry : ((false :: bits).take 8)[place + 1]? = some false := by
    rw [List.getElem?_take, if_pos (by omega)]
    exact zero
  rw [same] at entry
  interval_cases place <;> simp [flagBits] at entry

theorem not_flag_of_one {bits : Bits} : (true :: bits).take 8 ≠ flagBits := by
  simp [flagBits]

section Scan

variable {count : Nat} {rest : Bits}

theorem zeros_then_flag (count : Nat) (rest : Bits) :
    (List.replicate count false ++ (flagBits ++ rest))[0]? = some false := by
  cases count <;> rfl

theorem shortRun_stuffed {ones : Nat} (few : ones < 5) (bits : Bits) :
    ShortRun (5 - ones) (stuffFrom ones bits ++ (List.replicate count false ++ (flagBits ++ rest))) := by
  induction bits generalizing ones with
  | nil => exact ⟨0, Nat.zero_le _, zeros_then_flag count rest⟩
  | cons bit bits ih =>
      cases bit with
      | true =>
          by_cases five : ones + 1 = 5
          · exact ⟨1, by omega, by simp [stuffFrom, five]⟩
          · obtain ⟨place, early, zero⟩ := @ih (ones + 1) (by omega)
            exact ⟨place + 1, by omega, by simpa [stuffFrom, five] using zero⟩
      | false => exact ⟨0, Nat.zero_le _, rfl⟩

theorem flagPositions_zeros (position : Nat) :
    flagPositions position (List.replicate count false ++ (flagBits ++ rest)) =
      flagPositions (position + count) (flagBits ++ rest) := by
  induction count generalizing position with
  | zero => rfl
  | succ count ih =>
      have short : ShortRun 5 (List.replicate count false ++ (flagBits ++ rest)) :=
        ⟨0, Nat.zero_le _, zeros_then_flag count rest⟩
      rw [List.replicate_succ, List.cons_append, flagPositions_skip short.not_flag, ih]
      congr 1
      omega

/-- No flag is found in stuffed bits and the zeros behind them. -/
theorem flagPositions_stuffed {ones : Nat} (few : ones < 5) (bits : Bits) (position : Nat) :
    flagPositions position
        (stuffFrom ones bits ++ (List.replicate count false ++ (flagBits ++ rest))) =
      flagPositions (position + ((stuffFrom ones bits).length + count)) (flagBits ++ rest) := by
  induction bits generalizing ones position with
  | nil =>
      rw [stuffFrom, List.nil_append, flagPositions_zeros, List.length_nil, Nat.zero_add]
  | cons bit bits ih =>
      have fresh : ShortRun 5
          (stuffFrom 0 bits ++ (List.replicate count false ++ (flagBits ++ rest))) :=
        @shortRun_stuffed count rest 0 (by decide) bits
      cases bit with
      | true =>
          by_cases five : ones + 1 = 5
          · simp only [stuffFrom, five, if_true, List.cons_append, List.length_cons]
            rw [flagPositions_skip not_flag_of_one, flagPositions_skip fresh.not_flag,
              @ih 0 (by decide)]
            congr 1
            omega
          · simp only [stuffFrom, five, if_false, List.cons_append, List.length_cons]
            rw [flagPositions_skip not_flag_of_one, @ih (ones + 1) (by omega)]
            congr 1
            omega
      | false =>
          simp only [stuffFrom, List.cons_append, List.length_cons]
          rw [flagPositions_skip fresh.not_flag, @ih 0 (by decide)]
          congr 1
          omega

end Scan

/-- The frames behind a flag that starts after `front`. -/
def framesBehind (front bits : Bits) : List Bytes :=
  framesAt (front ++ (flagBits ++ bits))
    (front.length :: flagPositions (front.length + 8) bits)

theorem framesBehind_nil (front : Bits) : framesBehind front [] = [] := by
  rw [framesBehind, flagPositions, framesAt]
  simp

theorem framesBehind_flag (front bits : Bits) :
    framesBehind front (flagBits ++ bits) = framesBehind (front ++ flagBits) bits := by
  have size : (front ++ flagBits).length = front.length + 8 := by simp [flagBits]
  unfold framesBehind
  rw [flagPositions_flag, framesAt, size]
  simp

theorem framesBehind_flags (front bits : Bits) (count : Nat) :
    framesBehind front ((List.replicate count flagBits).flatten ++ bits) =
      framesBehind (front ++ (List.replicate count flagBits).flatten) bits := by
  induction count generalizing front with
  | zero => simp
  | succ count ih =>
      rw [List.replicate_succ, List.flatten_cons, List.append_assoc, framesBehind_flag, ih,
        List.append_assoc]

/-- Content without a flag in it, up to the closing flag. -/
theorem framesBehind_frame {front content bits : Bits} (nonempty : content ≠ [])
    (clear : ∀ position, flagPositions position (content ++ (flagBits ++ bits)) =
      flagPositions (position + content.length) (flagBits ++ bits)) :
    framesBehind front (content ++ (flagBits ++ bits)) =
      (frameBetween content).toList ++ framesBehind (front ++ flagBits ++ content) bits := by
  have size : (front ++ flagBits ++ content).length = front.length + 8 + content.length := by
    simp [flagBits]
    omega
  unfold framesBehind
  rw [clear, flagPositions_flag, framesAt, size]
  have slice : ((front ++ (flagBits ++ (content ++ (flagBits ++ bits)))).drop (front.length + 8)).take
      (front.length + 8 + content.length - (front.length + 8)) = content := by
    rw [← List.append_assoc front flagBits]
    have opening : (front ++ flagBits).length = front.length + 8 := by simp [flagBits]
    rw [← opening, List.drop_left, Nat.add_sub_cancel_left, List.take_left]
  rw [slice]
  simp only [nonempty, if_false, List.append_assoc]
  cases frameBetween content <;> rfl

theorem extractHdlcFrames_frames (bits : Bits) :
    (extractHdlcFrames bits).1 = framesAt bits (flagPositions 0 bits) := by
  unfold extractHdlcFrames
  split
  next none => rw [none]; rfl
  next only one => rw [one]; rfl
  next => rfl

theorem extract_from_flag (bits : Bits) :
    (extractHdlcFrames (flagBits ++ bits)).1 = framesBehind [] bits := by
  rw [extractHdlcFrames_frames, flagPositions_flag]
  rfl

theorem nrziDecode_encode (initial : Bool) (bits : Bits) :
    nrziDecode initial (nrziEncode initial bits) = bits := by
  induction bits generalizing initial with
  | nil => rfl
  | cons bit bits ih =>
      cases bit <;> simp [nrziEncode, nrziDecode, ih]

theorem bytesToBitsLsb_flags (count : Nat) :
    bytesToBitsLsb (List.replicate count flag) = (List.replicate count flagBits).flatten := by
  have one : byteBits flag = flagBits := by decide
  unfold bytesToBitsLsb
  rw [List.flatMap_def, List.map_replicate, one]

/-- What the receiver finds between any numbers of flags. -/
theorem extract_modulated {payload : Bytes} (nonempty : payload ≠ [])
    (preambleFlags postambleFlags : Int) :
    (extractHdlcFrames
        (nrziDecode true (modulateLevels preambleFlags postambleFlags payload))).1 =
      if padding (stuffedZeros payload) = 0 then [payload] else [] := by
  obtain ⟨before, preamble⟩ : ∃ before, (max 1 preambleFlags).toNat = before + 1 :=
    Nat.exists_eq_succ_of_ne_zero (by omega)
  have content : frameBits payload ≠ [] := by
    intro empty
    have long := length_frameBits payload
    rw [empty] at long
    simp at long
  have clear (bits : Bits) (position : Nat) :
      flagPositions position (frameBits payload ++ (flagBits ++ bits)) =
        flagPositions (position + (frameBits payload).length) (flagBits ++ bits) := by
    rw [frameBits, bytesToBitsLsb_pack, List.append_assoc, bitStuff,
      flagPositions_stuffed (by decide), List.length_append, List.length_replicate]
  have lone : bytesToBitsLsb [flag] = flagBits := by decide
  unfold modulateLevels
  dsimp only
  rw [nrziDecode_encode, preamble, encodeHdlcFrame]
  simp only [bytesToBitsLsb_append, bytesToBitsLsb_flags, lone, List.append_assoc]
  change (extractHdlcFrames ((List.replicate (before + 1) flagBits).flatten ++ (flagBits ++
    (frameBits payload ++ (flagBits ++ (List.replicate _ flagBits).flatten))))).1 = _
  rw [List.replicate_succ, List.flatten_cons, List.append_assoc, extract_from_flag,
    framesBehind_flags, framesBehind_flag, framesBehind_frame content (clear _)]
  have after := framesBehind_flags ([] ++ (List.replicate before flagBits).flatten ++ flagBits ++
    flagBits ++ frameBits payload) [] (max 1 postambleFlags).toNat
  rw [List.append_nil] at after
  rw [after, framesBehind_nil, List.append_nil, frameBetween_frameBits nonempty]
  split <;> rfl

/-- Encoding and decoding, and modulating and extracting, give the payload back
exactly when bit stuffing inserts a multiple of eight zeros. -/
theorem roundTrip_iff {payload : Bytes} (nonempty : payload ≠ []) :
    (decodeHdlcFrame (encodeHdlcFrame payload) = .ok payload ∧
        ∀ preambleFlags postambleFlags : Int,
          (extractHdlcFrames
            (nrziDecode true (modulateLevels preambleFlags postambleFlags payload))).1 = [payload]) ↔
      8 ∣ stuffedZeros payload := by
  have whole : padding (stuffedZeros payload) = 0 ↔ 8 ∣ stuffedZeros payload := by
    unfold padding
    omega
  rw [decodeHdlcFrame_encode nonempty]
  simp only [extract_modulated nonempty]
  rw [← whole]
  split
  next full => simp [full]
  next part => simp [part]

theorem roundTrip_zero :
    decodeHdlcFrame (encodeHdlcFrame [0]) = .ok [0] ∧
      ∀ preambleFlags postambleFlags : Int,
        (extractHdlcFrames
          (nrziDecode true (modulateLevels preambleFlags postambleFlags [0]))).1 = [[0]] :=
  (roundTrip_iff (by decide)).mpr (by decide)

/-- The FCS of the single byte 0x41 has five ones in a row, so one zero is stuffed. -/
theorem stuffed_frame_is_refused :
    ¬ ∀ payload : Bytes, payload ≠ [] →
      decodeHdlcFrame (encodeHdlcFrame payload) = .ok payload ∧
        ∀ preambleFlags postambleFlags : Int,
          (extractHdlcFrames
            (nrziDecode true (modulateLevels preambleFlags postambleFlags payload))).1 =
              [payload] := by
  intro claimed
  have decoded := (claimed [0x41] (by decide)).1
  rw [decodeHdlcFrame_encode (by decide), if_neg (by decide)] at decoded
  contradiction

end PyBulletin.Ax25.Hdlc
