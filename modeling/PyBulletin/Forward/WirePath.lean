import PyBulletin.Forward.Protocol
import PyBulletin.Vendor.LzhufCompress
import PyBulletin.Vendor.LzhufDecompress

set_option autoImplicit false

namespace PyBulletin.Forward

open PyBulletin.Foundation
open PyBulletin.Store
open PyBulletin.Vendor.Lzhuf

/-! # The compressed wire path

`decompress_b2f` hands `decompress` the data with the size header still in front and
the size as an argument, and with a size argument `decompress` skips no header: the
four header bytes are decoded as Huffman codes.  Every code of `encode_char` also has
one bit more than `decode_char` reads.  So the bits that `decompress` would have to
read for an envelope can be followed from symbol to symbol until they give a byte
that no envelope has.
-/

/-- `bits "0110"`: a string of binary digits. -/
def bits (digits : Text) : List Bool := digits.map (· = '1')

/-! An envelope begins with "Mid:", so the header would have to be the codes of these
four characters.
-/

def headerPins : List (UInt8 × List Bool) :=
  [(77, bits "00101101"), (105, bits "01001001"), (100, bits "01000100"), (58, bits "00011010")]

def headBytes : Bytes := encodeAscii "Mid:"

/-- What the decoder reads from the four literals behind the header: eighteen blanks
and a digit. -/
def blanksScript : List Decompressor.Token :=
  [⟨bits "00101101", bits "001001001001"⟩, ⟨bits "00010000", []⟩]

/-- What the encoder has read before the digit. -/
def known : Bytes := headBytes ++ List.replicate 18 32

/-- The further symbols up to one that is no ASCII character. -/
def wrongScript : List Decompressor.Token :=
  [⟨bits "00110100", []⟩, ⟨bits "00101101", bits "000000001010"⟩, ⟨bits "10001000", []⟩]

/-- The bits of the literals "Mid:". -/
def literalBits : List Bool := bits "001011010010010010010001000000110100"

/-- The bits of "Mid:", of the eighteen blanks and of the digit. -/
def knownBits : List Bool := literalBits ++ bits "001011010000000010101000100000"

section Runs

set_option maxRecDepth 20000

/-- The states of the decoder after the header, at the digit and at the end. -/
def decoded : Fueled (Decompressor × Decompressor × Decompressor) := do
  let header ← Decompressor.pinned 40 headerPins (.start .first [])
  let digit ← header.replay 40 blanksScript
  let last ← digit.replay 40 wrongScript
  pure (header, digit, last)

theorem decoded_known :
    (decoded.run 600).map (fun (header, digit, last) =>
      (header.out, digit.out, decide (168 ∈ last.out))) =
        .returned (headBytes, known ++ [48], true) := by
  decide +kernel

theorem encode_head :
    ((Compressor.encodeAll headBytes (.first, .init)).run 600).map (·.2.bits) =
      .returned literalBits := by
  decide +kernel

/-- The state of the encoder at the digit. -/
def atDigit : Fueled (Compressor × Compressor × HuffmanTree × BitWriter) := do
  let started ← Compressor.start .first known
  let state ← Compressor.symbols 4 started
  let coded ← state.emit
  let code ← coded.tree.encodeChar 48 coded.writer
  pure (state, coded, code)

theorem atDigit_known :
    (atDigit.run 600).map (fun (state, coded, code) =>
      ((state.r, state.s, state.len, state.rest), coded.tb.matchLen, code.2.bits)) =
        .returned ((4082, 4, 18, []), 18, knownBits) := by
  decide +kernel

end Runs

/-- An envelope begins with "Mid:" and has six further header lines. -/
theorem buildEnvelope_front (now : DateTime) (msg : Message) :
    ∃ rest : Bytes, buildEnvelope now msg = headBytes ++ rest ∧ 36 ≤ rest.length := by
  have text : ∃ lines : List Text, (36 ≤ (lines.map List.length).sum) ∧
      ∃ tail, buildEnvelope now msg =
        encodeAscii (crlf.intercalate (("Mid: " ++ msg.bid) :: lines)) ++ tail := by
    refine ⟨_, ?_, _, by rw [buildEnvelope, List.append_assoc, List.append_assoc]; rfl⟩
    split <;> simp <;> omega
  obtain ⟨lines, long, tail, same⟩ := text
  obtain ⟨more, header⟩ := Text.intercalate_front crlf ("Mid: " ++ msg.bid) lines
  have length := Text.intercalate_length crlf (("Mid: " ++ msg.bid) :: lines)
  have split : crlf.intercalate (("Mid: " ++ msg.bid) :: lines) =
      "Mid:" ++ ([' '] ++ msg.bid ++ more) := by
    rw [← header]
    simp
  rw [split] at same length
  refine ⟨encodeAscii ([' '] ++ msg.bid ++ more) ++ tail, ?_, ?_⟩
  · rw [same, encodeAscii_append, List.append_assoc]
    rfl
  · simp [encodeAscii_length] at length ⊢
    omega

theorem buildEnvelope_lt {now : DateTime} {msg : Message} {b : UInt8}
    (listed : b ∈ buildEnvelope now msg) : b < 128 := by
  simp only [buildEnvelope, List.mem_append, List.mem_cons, List.not_mem_nil, or_false] at listed
  rcases listed with ((text | rfl | rfl) | body) | rfl
  · exact encodeAscii_lt text
  · decide
  · decide
  · exact encodeAscii_lt body
  · decide

theorem not_mem_of_ascii {data : Bytes} (ascii : ∀ b ∈ data, b < 128) : 168 ∉ data := by
  intro listed
  have small := ascii 168 listed
  exact absurd small (by decide)

/-- The bits of the four literals, whatever follows. -/
theorem literalBits_written {data rest : Bytes} {started final : Compressor}
    (front : data = headBytes ++ rest) (long : 36 ≤ rest.length)
    (begun : (Compressor.start .first data).Returns started)
    (encoded : started.encode.Returns final) : literalBits <+: bitsOf final.writer.flush := by
  have four : data.take (3 + 1) = headBytes := by rw [front]; rfl
  have size : F + 3 ≤ data.length := by
    rw [front, List.length_append, F]
    omega
  obtain ⟨code, returned, written⟩ := Compressor.encode_literals
    (Compressor.start_spec _ _ _ begun) encoded (by decide) size
    (by rw [four]; decide) (by rw [four]; decide)
  obtain ⟨code', ran, same⟩ := Outcome.eq_returned_of_map encode_head
  rw [four] at returned
  rw [returned.unique ⟨600, ran⟩, same] at written
  exact written

/-- The bits up to the digit, when eighteen blanks are in front of it. -/
theorem knownBits_written {tail : Bytes} {started final : Compressor}
    (long : 17 ≤ tail.length)
    (begun : (Compressor.start .first (known ++ 48 :: tail)).Returns started)
    (encoded : started.encode.Returns final) : knownBits <+: bitsOf final.writer.flush := by
  obtain ⟨⟨state, coded, code⟩, ran, same⟩ := Outcome.eq_returned_of_map atDigit_known
  simp only [Prod.mk.injEq] at same
  obtain ⟨⟨r, s, len, rest⟩, matchLen, written⟩ := same
  have whole : atDigit.Returns (state, coded, code) := ⟨600, ran⟩
  simp only [atDigit, Fueled.returns_bind, Fueled.returns_pure, Prod.mk.injEq] at whole
  obtain ⟨before, first, _, symbols, _, emitted, _, encodedChar, rfl, rfl, rfl⟩ := whole
  have valid : before.writer.Valid :=
    (Compressor.start_spec _ _ _ first).writer ▸ BitWriter.valid_init
  obtain ⟨code', encoded', bits⟩ := Compressor.encode_new (· ∈ [0, 32, 77, 105, 100, 58])
    (by decide) (by decide) (by decide +kernel) (by decide) (by decide) first symbols emitted
    (Compressor.symbols_valid valid _ symbols) rest (by omega) (by omega)
    (by rw [s, matchLen]; decide) (by rw [r, s, matchLen]; decide) (by omega) begun encoded
  rw [encoded'.unique encodedChar, written] at bits
  exact bits

/-- No data that begins like an envelope comes back. -/
theorem decompress_compress_ne {data rest out : Bytes} (front : data = headBytes ++ rest)
    (long : 36 ≤ rest.length) (ascii : ∀ b ∈ data, b < 128)
    (compressed : (compress data).Returns out) :
    ¬ (decompress out (some data.length)).Returns data := by
  intro returned
  obtain ⟨started, final, header, begun, encoded, packed, rfl⟩ := compress_returns compressed
  rw [HuffmanTree.init_eq_first] at begun
  have size : data.length = 4 + rest.length := by
    rw [front, List.length_append]
    rfl
  obtain ⟨⟨_, _, _⟩, ran, outs⟩ := Outcome.eq_returned_of_map decoded_known
  simp only [Prod.mk.injEq, decide_eq_true_eq] at outs
  obtain ⟨_, digitOut, lastOut⟩ := outs
  have whole : decoded.Returns _ := ⟨600, ran⟩
  simp only [decoded, Fueled.returns_bind, Fueled.returns_pure, Prod.mk.injEq] at whole
  obtain ⟨first, pins, digit, blanks, last, wrong, rfl, rfl, rfl⟩ := whole
  -- the four header bytes are used up by the codes of "Mid:"
  have begin : ((Decompressor.withReader (.init (header ++ final.writer.flush))
      (.start .first [])).decode data.length).Returns data := by
    rw [← HuffmanTree.init_eq_first]
    exact returned
  have follows : data = [] ++ (headerPins.map Prod.fst ++ rest) := front
  obtain ⟨reader, valid, ahead, onward⟩ := Decompressor.decode_pinned (by omega) pins
    (BitReader.valid_init _) (Decompressor.filled_start _ _) follows rfl begin
  have payload : bitsOf final.writer.flush ++ₛ Stream'.const false = reader.stream := by
    rw [BitReader.stream_init, bitsOf_append, Stream'.append_append_stream] at ahead
    refine append_stream_inj ahead ?_
    rw [bitsOf_length, packSize_length _ _ packed]
    decide
  -- the literals give eighteen blanks and a digit
  obtain ⟨rest₁, stream₁⟩ := stream_of_prefix (literalBits_written front long begun encoded)
  have split₁ : literalBits = Decompressor.bitsOfScript blanksScript ++ bits "00110100" := by decide
  rw [payload, split₁, Stream'.append_append_stream] at stream₁
  obtain ⟨_, _, _, atDigit⟩ := Decompressor.decode_replay (by omega) blanks valid stream₁ onward
  obtain ⟨tail, digits⟩ := Decompressor.decode_out _ data atDigit
  have shape : data = known ++ 48 :: tail := by
    rw [← digits]
    change digit.out ++ tail = _
    rw [digitOut, List.append_assoc, List.singleton_append]
  have more : 17 ≤ tail.length := by
    have length := congrArg List.length shape
    have twentyTwo : known.length = 22 := by decide
    rw [List.length_append, List.length_cons, twentyTwo] at length
    omega
  -- and these together give a byte that is not ASCII
  obtain ⟨rest₂, stream₂⟩ := stream_of_prefix (knownBits_written more (shape ▸ begun) encoded)
  have split₂ : knownBits = Decompressor.bitsOfScript (blanksScript ++ wrongScript) ++
      bits "00" := by decide
  rw [payload, split₂, Stream'.append_append_stream] at stream₂
  have script : (first.replay 40 (blanksScript ++ wrongScript)).Returns last := by
    rw [Decompressor.replay, List.foldlM_append, Fueled.returns_bind]
    exact ⟨digit, blanks, wrong⟩
  obtain ⟨_, _, _, atEnd⟩ := Decompressor.decode_replay (by omega) script valid stream₂ onward
  obtain ⟨_, bytes⟩ := Decompressor.decode_out _ data atEnd
  have listed : 168 ∈ data := by
    rw [← bytes]
    exact List.mem_append_left _ lastOut
  exact not_mem_of_ascii ascii listed

/-- What the two functions promise together: the block is a line "F> n" and n bytes,
and these bytes decompress to the envelope. -/
def WirePath (haveLzhuf : Bool) (now : DateTime) (msg : Message) : Prop :=
  ∃ payload : Bytes, (encodeMessageB2f haveLzhuf now msg).Returns
      (encodeAscii ("F> " ++ Nat.toDigits 10 payload.length ++ crlf) ++ payload) ∧
    (decompressB2f haveLzhuf payload).Returns (some (buildEnvelope now msg))

theorem append_cons_cancel {b : UInt8} {front front' back back' : Bytes} (absent : b ∉ front)
    (absent' : b ∉ front') (same : front ++ b :: back = front' ++ b :: back') : back = back' := by
  induction front generalizing front' with
  | nil =>
      cases front' with
      | nil => simpa using same
      | cons c front' =>
          rw [List.nil_append, List.cons_append, List.cons.injEq] at same
          exact absurd (by simp [same.1]) absent'
  | cons c front ih =>
      cases front' with
      | nil =>
          rw [List.nil_append, List.cons_append, List.cons.injEq] at same
          exact absurd (by simp [same.1]) absent
      | cons c' front' =>
          rw [List.cons_append, List.cons_append, List.cons.injEq] at same
          exact ih (fun listed => absent (by simp [listed]))
            (fun listed => absent' (by simp [listed])) same.2

theorem return_not_in_number (n : Nat) : 13 ∉ encodeAscii ("F> " ++ Nat.toDigits 10 n) := by
  intro listed
  rw [encodeAscii_append, List.mem_append] at listed
  rcases listed with mark | digits
  · revert mark
    decide
  · simp only [encodeAscii, List.mem_map] at digits
    obtain ⟨c, digit, same⟩ := digits
    have range := Nat.isDigit_of_mem_toDigits (by decide) (by decide) digit
    simp only [Char.isDigit, Bool.and_eq_true, decide_eq_true_eq, UInt32.le_iff_toNat_le] at range
    have value : c.toNat = 13 := by
      have ascii : c.toNat < 128 := by
        have above := range.2
        change c.toNat ≤ 57 at above
        omega
      rw [if_pos ascii] at same
      have number := congrArg UInt8.toNat same
      simpa [Nat.mod_eq_of_lt (by omega : c.toNat < 256)] using number
    have below := range.1
    change 48 ≤ c.toNat at below
    omega

/-- The line says where the payload begins. -/
theorem block_payload {n m : Nat} {payload payload' : Bytes}
    (same : encodeAscii ("F> " ++ Nat.toDigits 10 n ++ crlf) ++ payload =
      encodeAscii ("F> " ++ Nat.toDigits 10 m ++ crlf) ++ payload') : payload = payload' := by
  have two : encodeAscii crlf = [13, 10] := by decide
  have cut : ∀ k, encodeAscii ("F> " ++ Nat.toDigits 10 k ++ crlf) =
      encodeAscii ("F> " ++ Nat.toDigits 10 k) ++ [13, 10] := fun k => by
    rw [encodeAscii_append, two]
  rw [cut, cut, List.append_assoc, List.append_assoc] at same
  have rest := append_cons_cancel (return_not_in_number n) (return_not_in_number m) same
  simpa using rest

theorem wirePath_absurd (now : DateTime) (msg : Message) : ¬ WirePath true now msg := by
  rintro ⟨payload, encoded, decoded⟩
  rw [encodeMessageB2f, if_pos rfl, Fueled.returns_bind] at encoded
  obtain ⟨compressed, returned, same⟩ := encoded
  rw [Fueled.returns_pure] at same
  obtain rfl := block_payload same
  rw [decompressB2f] at decoded
  split at decoded
  · simp at decoded
  · rename_i size header
    rw [if_pos rfl, Fueled.returns_attempt] at decoded
    obtain ⟨rest, front, long⟩ := buildEnvelope_front now msg
    have ascii : ∀ b ∈ buildEnvelope now msg, b < 128 := fun b listed => buildEnvelope_lt listed
    obtain ⟨_, final, sizeBytes, _, _, packed, rfl⟩ := compress_returns returned
    rw [unpackSize_packSize _ _ packed, Option.some.injEq] at header
    rw [← header] at decoded
    exact decompress_compress_ne front long ascii returned decoded

/-- With the codec of the repository no envelope arrives. -/
theorem envelope_never_arrives (now : DateTime) (msg : Message) : ¬ WirePath true now msg :=
  wirePath_absurd now msg

def noon : DateTime := ⟨2026, 3, 14, 12, 0, 0⟩

def hello : Message where
  bid := "1_AI3I"
  msgType := "P"
  fromCall := "AI3I"
  toCall := "W3BBS"
  atBbs := "W3BBS"
  subject := "Hello"
  body := "Hello from AI3I"
  createdAt := some noon

theorem hello_does_not_arrive : ¬ WirePath true noon hello := wirePath_absurd noon hello

/-- Without the codec the envelope goes out as it is, and arrives. -/
theorem wirePath_uncompressed (now : DateTime) (msg : Message)
    (small : (buildEnvelope now msg).length < 2 ^ 32) : WirePath false now msg := by
  obtain ⟨header, packed⟩ : ∃ header, (packSize (buildEnvelope now msg).length).Returns header := by
    rw [packSize, if_pos small]
    exact ⟨_, Fueled.returns_pure.mpr rfl⟩
  refine ⟨header ++ buildEnvelope now msg, ?_, ?_⟩
  · rw [encodeMessageB2f, if_neg (by decide), Fueled.returns_bind]
    exact ⟨header, packed, Fueled.returns_pure.mpr rfl⟩
  · have four : (header ++ buildEnvelope now msg).drop 4 = buildEnvelope now msg := by
      rw [← packSize_length _ _ packed, List.drop_left]
    rw [decompressB2f, unpackSize_packSize _ _ packed]
    simp only [Bool.false_eq_true, if_false, Fueled.returns_pure, four, List.take_length]

end PyBulletin.Forward
