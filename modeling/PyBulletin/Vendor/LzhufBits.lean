import Mathlib.Data.List.TakeWhile
import Mathlib.Data.Stream.Init
import PyBulletin.Vendor.Lzhuf

set_option autoImplicit false

namespace PyBulletin.Vendor.Lzhuf

open PyBulletin.Foundation

/-! # What the bit writer writes and the bit reader reads

A byte is its bits under the masks from 0x80 down.  A reader is the stream of the
bits still to come, zeros behind the end of its data; a writer is the list of the
bits written.
-/

def masks : List UInt8 := [0x80, 0x40, 0x20, 0x10, 0x08, 0x04, 0x02, 0x01]

def bitAt (byte mask : UInt8) : Bool := byte &&& mask ≠ 0

/-- The bits of `byte` from `mask` down. -/
def bitsUnder (mask byte : UInt8) : List Bool := (masks.dropWhile (· ≠ mask)).map (bitAt byte)

/-- The bits of `byte` above `mask`. -/
def bitsAbove (mask byte : UInt8) : List Bool := (masks.takeWhile (· ≠ mask)).map (bitAt byte)

def bitsOf (data : Bytes) : List Bool := data.flatMap (bitsUnder 0x80)

@[simp] theorem bitsOf_nil : bitsOf [] = [] := rfl

@[simp] theorem bitsOf_cons (byte : UInt8) (data : Bytes) :
    bitsOf (byte :: data) = bitsUnder 0x80 byte ++ bitsOf data := by
  simp [bitsOf]

@[simp] theorem bitsOf_append (front back : Bytes) :
    bitsOf (front ++ back) = bitsOf front ++ bitsOf back := by
  simp [bitsOf]

theorem bitsAbove_append_bitsUnder (mask byte : UInt8) :
    bitsAbove mask byte ++ bitsUnder mask byte = bitsUnder 0x80 byte := by
  rw [bitsAbove, bitsUnder, ← List.map_append, List.takeWhile_append_dropWhile]
  rfl

theorem bitsUnder_cons {mask : UInt8} (listed : mask ∈ masks) (byte : UInt8) :
    bitsUnder mask byte = bitAt byte mask :: bitsUnder (mask >>> 1) byte := by
  simp only [masks, List.mem_cons, List.not_mem_nil, or_false] at listed
  rcases listed with rfl | rfl | rfl | rfl | rfl | rfl | rfl | rfl <;> rfl

theorem shift_mem_masks {mask : UInt8} (listed : mask ∈ masks) :
    mask >>> 1 = 0 ∨ mask >>> 1 ∈ masks := by
  revert mask
  decide +kernel

theorem bitsOf_length (data : Bytes) : (bitsOf data).length = 8 * data.length := by
  induction data with
  | nil => rfl
  | cons byte data ih =>
      have eight : (bitsUnder 0x80 byte).length = 8 := by
        rw [bitsUnder, List.length_map]
        decide
      rw [bitsOf_cons, List.length_append, eight, ih, List.length_cons]
      omega

/-- Streams with the same number of bits in front. -/
theorem append_stream_inj {front front' : List Bool} {back back' : Stream' Bool}
    (same : front ++ₛ back = front' ++ₛ back') (length : front.length = front'.length) :
    back = back' := by
  rw [← Stream'.drop_append_stream front back, same, length, Stream'.drop_append_stream]

/-- Where some bits stand in front of the payload, they are ahead of its reader. -/
theorem stream_of_prefix {front : List Bool} {payload : Bytes}
    (written : front <+: bitsOf payload) :
    ∃ rest, bitsOf payload ++ₛ Stream'.const false = front ++ₛ rest := by
  obtain ⟨back, same⟩ := written
  exact ⟨back ++ₛ Stream'.const false, by rw [← same, Stream'.append_append_stream]⟩

namespace BitReader

structure Valid (reader : BitReader) : Prop where
  mask : reader.mask = 0 ∨ reader.mask ∈ masks

def stream (reader : BitReader) : Stream' Bool :=
  bitsUnder reader.mask reader.byte ++ₛ
    (bitsOf (reader.data.drop reader.pos) ++ₛ Stream'.const false)

theorem valid_init (data : Bytes) : (init data).Valid := ⟨.inl rfl⟩

theorem stream_init (data : Bytes) :
    (init data).stream = bitsOf data ++ₛ Stream'.const false := rfl

theorem bitsUnder_zero (byte : UInt8) : bitsUnder 0 byte = [] := rfl

theorem bitsUnder_eof : bitsUnder 0x80 0 ++ₛ Stream'.const false = Stream'.const false := by
  have eight : bitsUnder 0x80 0 = List.replicate 8 false := rfl
  rw [eight]
  repeat rw [List.replicate_succ, Stream'.cons_append_stream]
  rw [List.replicate_zero, Stream'.nil_append_stream]
  repeat rw [← Stream'.const_eq]

/-- A read from a byte that is used up starts on the next one. -/
def refill (reader : BitReader) : BitReader :=
  if reader.mask = 0 then
    let (byte, reader) := reader.nextByte
    { reader with byte, mask := 0x80 }
  else reader

theorem readBit_eq (reader : BitReader) :
    reader.readBit = (bitAt reader.refill.byte reader.refill.mask,
      { reader.refill with mask := reader.refill.mask >>> 1 }) := rfl

theorem refill_mask {reader : BitReader} (valid : reader.Valid) :
    reader.refill.mask ∈ masks := by
  rcases valid.mask with zero | listed
  · simp [refill, zero, masks]
  · have nonzero : reader.mask ≠ 0 := by
      intro zero
      rw [zero] at listed
      simp [masks] at listed
    simpa [refill, nonzero] using listed

theorem refill_stream (reader : BitReader) : reader.refill.stream = reader.stream := by
  by_cases zero : reader.mask = 0
  · cases found : reader.data[reader.pos]? with
    | none =>
        have beyond : reader.data.drop reader.pos = [] :=
          List.drop_eq_nil_of_le (List.getElem?_eq_none_iff.mp found)
        simp [refill, zero, nextByte, found, stream, beyond, bitsUnder_zero, bitsUnder_eof]
    | some byte =>
        have next : reader.data.drop reader.pos = byte :: reader.data.drop (reader.pos + 1) := by
          obtain ⟨within, rfl⟩ := List.getElem?_eq_some_iff.mp found
          exact List.drop_eq_getElem_cons within
        simp [refill, zero, nextByte, found, stream, next, bitsUnder_zero]
  · simp [refill, zero]

theorem readBit_fst {reader : BitReader} (valid : reader.Valid) :
    reader.readBit.1 = reader.stream.head := by
  rw [readBit_eq, ← refill_stream, stream, bitsUnder_cons (refill_mask valid)]
  rfl

theorem readBit_stream {reader : BitReader} (valid : reader.Valid) :
    reader.readBit.2.stream = reader.stream.tail := by
  rw [readBit_eq, ← refill_stream reader, stream, stream, bitsUnder_cons (refill_mask valid)]
  rfl

theorem readBit_valid {reader : BitReader} (valid : reader.Valid) : reader.readBit.2.Valid :=
  ⟨shift_mem_masks (refill_mask valid)⟩

/-- The number whose binary digits, the first one highest, are `bits` behind those
of `value`. -/
def numberFrom (value : Nat) (bits : List Bool) : Nat :=
  bits.foldl (fun value bit => value * 2 + bit.toNat) value

theorem readBits_spec {reader : BitReader} (valid : reader.Valid) {bits : List Bool}
    {rest : Stream' Bool} (ahead : reader.stream = bits ++ₛ rest) (value : Nat) :
    (reader.readBits bits.length value).1 = numberFrom value bits ∧
      (reader.readBits bits.length value).2.stream = rest ∧
      (reader.readBits bits.length value).2.Valid := by
  induction bits generalizing reader value with
  | nil => exact ⟨rfl, ahead, valid⟩
  | cons bit bits ih =>
      have first : reader.readBit.1 = bit := by rw [readBit_fst valid, ahead]; rfl
      have others : reader.readBit.2.stream = bits ++ₛ rest := by
        rw [readBit_stream valid, ahead]; rfl
      have tail := ih (readBit_valid valid) others (value * 2 + bit.toNat)
      rw [← first] at tail ⊢
      exact tail

end BitReader

namespace BitWriter

structure Valid (writer : BitWriter) : Prop where
  mask : writer.mask ∈ masks
  /-- Nothing is written yet from the mask down. -/
  clear : ∀ m ∈ masks.dropWhile (· ≠ writer.mask), writer.byte &&& m = 0

def bits (writer : BitWriter) : List Bool :=
  bitsOf writer.buf ++ bitsAbove writer.mask writer.byte

theorem valid_init : init.Valid := ⟨by decide +kernel, by decide +kernel⟩

theorem or_and (a b c : UInt8) : (a ||| b) &&& c = a &&& c ||| b &&& c := by
  apply UInt8.toBitVec_inj.mp
  simp [BitVec.and_or_distrib_right]

theorem bitAt_or {mask other : UInt8} (listed : mask ∈ masks) (otherListed : other ∈ masks)
    (byte : UInt8) : bitAt (byte ||| mask) other = (bitAt byte other || mask = other) := by
  have disjoint : mask &&& other = if mask = other then mask else 0 := by
    have all : ∀ mask ∈ masks, ∀ other ∈ masks,
        mask &&& other = if mask = other then mask else 0 := by decide +kernel
    exact all mask listed other otherListed
  have nonzero : mask ≠ 0 := by
    rintro rfl
    simp [masks] at listed
  rw [bitAt, bitAt, or_and, disjoint]
  by_cases same : mask = other
  · subst same
    simp [nonzero]
  · simp [same]

/-- The byte after `write_bit` has changed it. -/
def marked (writer : BitWriter) (bit : Bool) : UInt8 :=
  if bit then writer.byte ||| writer.mask else writer.byte

theorem bitAt_marked {writer : BitWriter} (valid : writer.Valid) (bit : Bool) {other : UInt8}
    (listed : other ∈ masks) (different : other ≠ writer.mask) :
    bitAt (writer.marked bit) other = bitAt writer.byte other := by
  cases bit with
  | false => rfl
  | true => simp [marked, bitAt_or valid.mask listed, different.symm]

theorem mask_mem_dropWhile {mask : UInt8} (listed : mask ∈ masks) :
    mask ∈ masks.dropWhile (· ≠ mask) := by
  revert mask
  decide +kernel

theorem bitAt_marked_self {writer : BitWriter} (valid : writer.Valid) (bit : Bool) :
    bitAt (writer.marked bit) writer.mask = bit := by
  have clear := valid.clear _ (mask_mem_dropWhile valid.mask)
  cases bit with
  | false => simp [marked, bitAt, clear]
  | true => simp [marked, bitAt_or valid.mask valid.mask]

theorem bitsAbove_shift {mask : UInt8} (listed : mask ∈ masks) (byte : UInt8) :
    bitsAbove (mask >>> 1) byte = bitsAbove mask byte ++ [bitAt byte mask] := by
  simp only [masks, List.mem_cons, List.not_mem_nil, or_false] at listed
  rcases listed with rfl | rfl | rfl | rfl | rfl | rfl | rfl | rfl <;> rfl

theorem bitsAbove_marked {writer : BitWriter} (valid : writer.Valid) (bit : Bool) :
    bitsAbove (writer.mask >>> 1) (writer.marked bit) =
      bitsAbove writer.mask writer.byte ++ [bit] := by
  rw [bitsAbove_shift valid.mask, bitAt_marked_self valid]
  congr 1
  apply List.map_congr_left
  intro other above
  have listed : other ∈ masks := (List.takeWhile_subset _) above
  have different : other ≠ writer.mask := by
    simpa using List.mem_takeWhile_imp above
  exact bitAt_marked valid bit listed different

theorem bits_writeBit {writer : BitWriter} (valid : writer.Valid) (bit : Bool) :
    (writer.writeBit bit).bits = writer.bits ++ [bit] := by
  have above := bitsAbove_marked valid bit
  change BitWriter.bits (if writer.mask >>> 1 = 0 then
    ⟨writer.buf ++ [writer.marked bit], 0, 0x80⟩
    else ⟨writer.buf, writer.marked bit, writer.mask >>> 1⟩) = _
  by_cases full : writer.mask >>> 1 = 0
  · have whole : bitsAbove 0 (writer.marked bit) = bitsUnder 0x80 (writer.marked bit) := rfl
    rw [full, whole] at above
    simp [full, bits, above, show bitsAbove 0x80 0 = [] from rfl]
  · simp [full, bits, above]

theorem valid_writeBit {writer : BitWriter} (valid : writer.Valid) (bit : Bool) :
    (writer.writeBit bit).Valid := by
  change BitWriter.Valid (if writer.mask >>> 1 = 0 then
    ⟨writer.buf ++ [writer.marked bit], 0, 0x80⟩
    else ⟨writer.buf, writer.marked bit, writer.mask >>> 1⟩)
  by_cases full : writer.mask >>> 1 = 0
  · rw [if_pos full]
    exact ⟨valid_init.mask, valid_init.clear⟩
  · rw [if_neg full]
    have listed := (shift_mem_masks valid.mask).resolve_left full
    refine ⟨listed, ?_⟩
    intro other below
    have sub : ∀ mask ∈ masks, ∀ other ∈ masks.dropWhile (· ≠ mask >>> 1),
        other ∈ masks.dropWhile (· ≠ mask) ∧ other ∈ masks ∧ other ≠ mask := by decide +kernel
    obtain ⟨old, otherListed, different⟩ := sub _ valid.mask other below
    have same := bitAt_marked valid bit otherListed different
    have clear := valid.clear other old
    simpa [bitAt, clear] using same

theorem bits_writeAll {writer : BitWriter} (valid : writer.Valid) (more : List Bool) :
    (more.foldl writeBit writer).bits = writer.bits ++ more ∧
      (more.foldl writeBit writer).Valid := by
  induction more generalizing writer with
  | nil => exact ⟨by simp, valid⟩
  | cons bit more ih =>
      obtain ⟨written, kept⟩ := ih (valid_writeBit valid bit)
      exact ⟨by rw [List.foldl_cons, written, bits_writeBit valid]; simp, kept⟩

theorem bits_writeBits {writer : BitWriter} (valid : writer.Valid) (value n : Nat) :
    writer.bits <+: (writer.writeBits value n).bits ∧ (writer.writeBits value n).Valid := by
  induction n generalizing writer with
  | zero => exact ⟨List.prefix_rfl, valid⟩
  | succ n ih =>
      obtain ⟨written, kept⟩ := ih (valid_writeBit valid (value.testBit n))
      rw [bits_writeBit valid] at written
      exact ⟨(List.prefix_append _ _).trans written, kept⟩

/-- What is written stands at the front of the flushed bytes. -/
theorem bits_flush (writer : BitWriter) : writer.bits <+: bitsOf writer.flush := by
  rw [flush]
  split
  · rw [bitsOf_append, bits, bitsOf_cons, bitsOf_nil, List.append_nil,
      ← bitsAbove_append_bitsUnder writer.mask]
    exact ⟨bitsUnder writer.mask writer.byte, by simp⟩
  · rename_i boundary
    have atStart : writer.mask = 0x80 := by simpa using boundary
    have nothing : bitsAbove 0x80 writer.byte = [] := rfl
    simp [bits, atStart, nothing]

end BitWriter

end PyBulletin.Vendor.Lzhuf
