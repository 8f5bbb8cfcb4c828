import PyBulletin.Transport.Pactor

set_option autoImplicit false

namespace PyBulletin.Transport.Yapp

open PyBulletin.Foundation
open Pactor (chunksOf chunksOf_flatten chunksOf_short)

def soh : UInt8 := 0x01
def can : UInt8 := 0x18

/-- `_checksum` -/
def checksum (data : Bytes) : UInt8 := data.foldl (· ^^^ ·) 0

/-- `encode_frame`; more than 255 bytes fail its assertion. -/
def encodeFrame (data : Bytes) : Option Bytes :=
  if data.length ≤ 255 then
    let payload := [UInt8.ofNat (data.length &&& 0xFF),
      UInt8.ofNat ((data.length >>> 8) &&& 0xFF)] ++ data
    some ([soh] ++ payload ++ [checksum payload])
  else none

def encodeEof : Bytes := [soh, 0x00, 0x00, 0x00]

def encodeAck : Bytes := [soh]

def encodeAbort : Bytes := [can]

/-- `encode_file`; `range` refuses a step of zero. -/
def encodeFile (data : Bytes) (blockSize : Nat) : Option (List Bytes) :=
  if blockSize = 0 then none
  else ((chunksOf blockSize data).mapM encodeFrame).map (· ++ [encodeEof])

/-- `len_bytes[0] | (len_bytes[1] << 8)` -/
def lengthOf (low high : UInt8) : Nat := low.toNat ||| (high.toNat <<< 8)

/-- What `receive_file` returns, with what it leaves of the stream, and what it writes. -/
structure Reception where
  received : Option (Bytes × Bytes)
  written : Bytes

def Reception.returned (reception : Reception) : Option Bytes := reception.received.map Prod.fst

/-- The loop of `receive_file`.  A read of more than there is of the stream ends with
`IncompleteReadError` or a timeout. -/
def receiveFrom (buf written stream : Bytes) : Reception :=
  match stream with
  | [] => ⟨none, written⟩
  | first :: stream =>
      if first = can then ⟨none, written⟩
      else if first ≠ soh then ⟨none, written⟩
      else
        match stream with
        | low :: high :: rest =>
            let length := lengthOf low high
            if length = 0 then ⟨some (buf, rest.drop 1), written ++ encodeAck⟩
            else if rest.length < length + 1 then ⟨none, written⟩
            else
              let frameData := rest.take (length + 1)
              let payload := [low, high] ++ frameData.dropLast
              if checksum payload ≠ frameData.getLastD 0 then ⟨none, written ++ encodeAbort⟩
              else
                receiveFrom (buf ++ frameData.dropLast) (written ++ encodeAck)
                  (rest.drop (length + 1))
        | _ => ⟨none, written⟩
termination_by stream.length
decreasing_by
  simp only [List.length_drop, List.length_cons]
  omega

def receiveFile (stream : Bytes) : Reception := receiveFrom [] [] stream

/-- The stream begins with whole frames that carry the data and an EOF frame, of which the
checksum may be missing. -/
inductive Transfers : Bytes → Bytes → Prop
  | eof (rest : Bytes) : Transfers (soh :: 0 :: 0 :: rest) []
  | frame {low high : UInt8} {chunk rest data : Bytes} (some : lengthOf low high ≠ 0)
      (size : chunk.length = lengthOf low high) (later : Transfers rest data) :
      Transfers (soh :: low :: high :: (chunk ++ checksum (low :: high :: chunk) :: rest))
        (chunk ++ data)

/-- The frame of a chunk. -/
def frameOf (chunk : Bytes) : Bytes :=
  soh :: UInt8.ofNat chunk.length :: 0 ::
    (chunk ++ [checksum (UInt8.ofNat chunk.length :: 0 :: chunk)])

def sent (chunks : List Bytes) : Bytes := chunks.flatMap frameOf ++ encodeEof

/-- The place of a length byte of one of the data frames. -/
def LengthByte (chunks : List Bytes) (i : Nat) : Prop :=
  ∃ front chunk back, chunks = front ++ chunk :: back ∧
    (i = (front.flatMap frameOf).length + 1 ∨ i = (front.flatMap frameOf).length + 2)

/-- The length of a data frame becomes zero. -/
def Emptied (chunks : List Bytes) (i : Nat) (byte : UInt8) : Prop :=
  byte = 0 ∧ ∃ front chunk back, chunks = front ++ chunk :: back ∧
    i = (front.flatMap frameOf).length + 1

/-- The checksum is right for as many bytes as the two length bytes tell. -/
def Sealed (low high : UInt8) (rest : Bytes) : Prop :=
  lengthOf low high ≠ 0 ∧
    rest[lengthOf low high]? = some (checksum (low :: high :: rest.take (lengthOf low high)))

instance (low high : UInt8) (rest : Bytes) : Decidable (Sealed low high rest) :=
  inferInstanceAs (Decidable (_ ∧ _))

/-- The length of a data frame becomes another one, for which the checksum happens to be right. -/
def Reframed (chunks : List Bytes) (i : Nat) (byte : UInt8) : Prop :=
  ∃ front chunk back, chunks = front ++ chunk :: back ∧
    (i = (front.flatMap frameOf).length + 1 ∧ byte ≠ UInt8.ofNat chunk.length ∧
        Sealed byte 0 ((sent (chunk :: back)).drop 3) ∨
      i = (front.flatMap frameOf).length + 2 ∧ byte ≠ 0 ∧
        Sealed (UInt8.ofNat chunk.length) byte ((sent (chunk :: back)).drop 3))

variable {low high ck : UInt8} {buf written stream rest chunk data : Bytes} {chunks : List Bytes}

theorem lengthOf_eq_zero : lengthOf low high = 0 ↔ low = 0 ∧ high = 0 := by
  rw [lengthOf, Nat.or_eq_zero_iff, Nat.shiftLeft_eq]
  constructor
  · rintro ⟨first, second⟩
    have none : high.toNat = 0 := by omega
    exact ⟨UInt8.toNat_inj.mp first, UInt8.toNat_inj.mp none⟩
  · rintro ⟨rfl, rfl⟩
    exact ⟨rfl, rfl⟩

theorem lengthOf_ofNat (short : chunk.length ≤ 255) :
    lengthOf (UInt8.ofNat chunk.length) 0 = chunk.length := by
  rw [lengthOf]
  simp
  omega

theorem foldl_xor (start : UInt8) (data : Bytes) :
    data.foldl (· ^^^ ·) start = start ^^^ checksum data := by
  unfold checksum
  induction data generalizing start with
  | nil => simp
  | cons byte data ih => rw [List.foldl_cons, List.foldl_cons, ih, ih (0 ^^^ byte)]; simp [UInt8.xor_assoc]

theorem checksum_cons (byte : UInt8) (data : Bytes) :
    checksum (byte :: data) = byte ^^^ checksum data := by
  rw [checksum, List.foldl_cons, foldl_xor]
  simp

theorem eq_of_checksum_set {i : Nat} {byte : UInt8}
    (same : checksum (chunk.set i byte) = checksum chunk) : chunk.set i byte = chunk := by
  induction chunk generalizing i with
  | nil => rfl
  | cons first chunk ih =>
      cases i with
      | zero =>
          rw [List.set_cons_zero, checksum_cons, checksum_cons, UInt8.xor_left_inj] at same
          rw [List.set_cons_zero, same]
      | succ i =>
          rw [List.set_cons_succ, checksum_cons, checksum_cons, UInt8.xor_right_inj] at same
          rw [List.set_cons_succ, ih same]

theorem receiveFrom_eof (buf written rest : Bytes) :
    receiveFrom buf written (soh :: 0 :: 0 :: rest) =
      ⟨some (buf, rest.drop 1), written ++ encodeAck⟩ := by
  rw [receiveFrom]
  rfl

theorem receiveFrom_frame (some : lengthOf low high ≠ 0) (size : chunk.length = lengthOf low high) :
    receiveFrom buf written (soh :: low :: high :: (chunk ++ ck :: rest)) =
      if checksum (low :: high :: chunk) ≠ ck then ⟨none, written ++ encodeAbort⟩
      else receiveFrom (buf ++ chunk) (written ++ encodeAck) rest := by
  have enough : ¬ (chunk ++ ck :: rest).length < chunk.length + 1 := by simp
  have taken : (chunk ++ ck :: rest).take (chunk.length + 1) = chunk ++ [ck] := by
    rw [List.take_length_add_append]
    rfl
  have left : (chunk ++ ck :: rest).drop (chunk.length + 1) = rest := by
    rw [List.drop_length_add_append]
    rfl
  have last : (chunk ++ [ck]).getLastD 0 = ck := by simp
  rw [receiveFrom, if_neg (by decide), if_neg (by simp)]
  dsimp only
  rw [if_neg some, ← size, if_neg enough, taken, left, List.dropLast_concat, last]
  rfl

theorem receiveFrom_transfers (transfers : Transfers stream data) :
    (receiveFrom buf written stream).returned = some (buf ++ data) := by
  induction transfers generalizing buf written with
  | eof rest => rw [receiveFrom_eof, List.append_nil]; rfl
  | frame some size later ih =>
      rw [receiveFrom_frame some size, if_neg (not_not.mpr rfl), ih, List.append_assoc]

/-- What does not begin like a frame is refused. -/
theorem begins_of_returned (returned : (receiveFrom buf written stream).returned = some data) :
    ∃ low high rest, stream = soh :: low :: high :: rest := by
  rw [receiveFrom.eq_def] at returned
  cases stream with
  | nil => contradiction
  | cons first stream =>
      dsimp only at returned
      by_cases start : first = soh
      · subst start
        rw [if_neg (by decide), if_neg (by simp)] at returned
        split at returned
        · exact ⟨_, _, _, rfl⟩
        · contradiction
      · rw [if_pos start, ite_self] at returned
        contradiction

theorem transfers_of_returned (returned : (receiveFrom buf written stream).returned = some data) :
    ∃ carried, Transfers stream carried ∧ data = buf ++ carried := by
  generalize count : stream.length = n
  induction n using Nat.strongRecOn generalizing stream buf written with
  | _ n ih =>
      obtain ⟨low, high, rest, rfl⟩ := begins_of_returned returned
      by_cases none : lengthOf low high = 0
      · obtain ⟨rfl, rfl⟩ := lengthOf_eq_zero.mp none
        rw [receiveFrom_eof] at returned
        exact ⟨[], .eof rest, by rw [List.append_nil]; exact (Option.some.inj returned).symm⟩
      · by_cases enough : rest.length < lengthOf low high + 1
        · rw [receiveFrom, if_neg (by decide), if_neg (by simp)] at returned
          dsimp only at returned
          rw [if_neg none, if_pos enough] at returned
          contradiction
        · obtain ⟨chunk, ck, later, size, rfl⟩ :
              ∃ chunk ck later, chunk.length = lengthOf low high ∧ rest = chunk ++ ck :: later := by
            have more : lengthOf low high < rest.length := by omega
            refine ⟨rest.take (lengthOf low high), rest[lengthOf low high],
              rest.drop (lengthOf low high + 1), ?_, ?_⟩
            · rw [List.length_take]
              omega
            · rw [List.getElem_cons_drop, List.take_append_drop]
          rw [receiveFrom_frame none size] at returned
          split at returned
          · contradiction
          · rename_i right
            have shorter : later.length < n := by
              rw [← count]
              simp
              omega
            obtain ⟨carried, transfers, rfl⟩ := ih _ shorter returned rfl
            rw [← not_not.mp right, List.append_assoc]
            exact ⟨_, .frame none size transfers, rfl⟩

/-- `receive_file` returns what a stream carries, and nothing else. -/
theorem returned_iff : (receiveFile stream).returned = some data ↔ Transfers stream data := by
  constructor
  · intro returned
    obtain ⟨carried, transfers, rfl⟩ := transfers_of_returned returned
    exact transfers
  · exact receiveFrom_transfers

theorem transfers_frame_iff (some : lengthOf low high ≠ 0) (size : chunk.length = lengthOf low high) :
    Transfers (soh :: low :: high :: (chunk ++ ck :: rest)) data ↔
      checksum (low :: high :: chunk) = ck ∧ ∃ later, Transfers rest later ∧ data = chunk ++ later := by
  rw [← returned_iff, receiveFile, receiveFrom_frame some size]
  by_cases right : checksum (low :: high :: chunk) = ck
  · rw [if_neg (not_not.mpr right), and_iff_right right]
    constructor
    · exact transfers_of_returned
    · rintro ⟨later, transfers, rfl⟩
      exact receiveFrom_transfers transfers
  · rw [if_pos right]
    exact iff_of_false nofun fun both => right both.1

theorem Transfers.begins (transfers : Transfers stream data) : stream.head? = some soh := by
  cases transfers <;> rfl

/-- Four bytes carry no more than an EOF frame. -/
theorem Transfers.of_short (transfers : Transfers stream data) (short : stream.length ≤ 4) :
    data = [] := by
  cases transfers with
  | eof rest => rfl
  | frame some size later =>
      simp only [List.length_cons, List.length_append] at short
      omega

/-- Chunks as `encode_file` makes them. -/
def Chunked (chunks : List Bytes) : Prop := ∀ chunk ∈ chunks, chunk ≠ [] ∧ chunk.length ≤ 255

theorem lengthOf_chunk (some : chunk ≠ []) (short : chunk.length ≤ 255) :
    lengthOf (UInt8.ofNat chunk.length) 0 ≠ 0 ∧
      chunk.length = lengthOf (UInt8.ofNat chunk.length) 0 := by
  rw [lengthOf_ofNat short]
  exact ⟨mt List.length_eq_zero_iff.mp some, rfl⟩

theorem sent_cons (chunk : Bytes) (chunks : List Bytes) :
    sent (chunk :: chunks) = frameOf chunk ++ sent chunks := by
  rw [sent, List.flatMap_cons, List.append_assoc]
  rfl

theorem frame_append (chunk rest : Bytes) :
    frameOf chunk ++ rest = soh :: UInt8.ofNat chunk.length :: 0 ::
      (chunk ++ checksum (UInt8.ofNat chunk.length :: 0 :: chunk) :: rest) := by
  simp [frameOf]

theorem length_frame (chunk : Bytes) : (frameOf chunk).length = chunk.length + 4 := by
  simp [frameOf]

theorem receiveFrom_sent (chunked : Chunked chunks) :
    receiveFrom buf written (sent chunks) =
      ⟨some (buf ++ chunks.flatten, []), written ++ List.replicate (chunks.length + 1) soh⟩ := by
  induction chunks generalizing buf written with
  | nil =>
      rw [List.flatten_nil, List.append_nil]
      exact receiveFrom_eof buf written [0]
  | cons chunk chunks ih =>
      obtain ⟨⟨nonempty, short⟩, others⟩ := List.forall_mem_cons.mp chunked
      obtain ⟨some, size⟩ := lengthOf_chunk nonempty short
      rw [sent_cons, frame_append, receiveFrom_frame some size, if_neg (not_not.mpr rfl), ih others]
      simp [encodeAck, List.replicate_succ]

theorem transfers_sent (chunked : Chunked chunks) :
    Transfers (sent chunks) data ↔ data = chunks.flatten := by
  rw [← returned_iff, receiveFile, receiveFrom_sent chunked]
  exact Option.some_inj.trans eq_comm

/-- A change in a frame that is not in its length is noticed. -/
theorem Transfers.of_damaged_frame {i : Nat} {byte : UInt8} (nonempty : chunk ≠ [])
    (short : chunk.length ≤ 255) (inside : i < (frameOf chunk).length) (first : i ≠ 1) (second : i ≠ 2)
    (transfers : Transfers ((frameOf chunk ++ rest).set i byte) data) :
    Transfers (frameOf chunk ++ rest) data := by
  obtain ⟨some, size⟩ := lengthOf_chunk nonempty short
  rw [frame_append] at transfers ⊢
  match i, first, second with
  | 0, _, _ =>
      have begins := transfers.begins
      rw [List.set_cons_zero, List.head?_cons, Option.some_inj] at begins
      rwa [List.set_cons_zero, begins] at transfers
  | i + 3, _, _ =>
      simp only [List.set_cons_succ] at transfers
      rw [length_frame] at inside
      by_cases within : i < chunk.length
      · rw [List.set_append_left _ _ within,
          transfers_frame_iff some (by rw [List.length_set]; exact size)] at transfers
        obtain ⟨sum, later, carried, rfl⟩ := transfers
        have same : chunk.set i byte = chunk := by
          apply eq_of_checksum_set
          simpa only [checksum_cons, UInt8.xor_right_inj] using sum
        rw [same]
        exact .frame some size carried
      · have last : i = chunk.length := by omega
        rw [last, List.set_append_right _ _ (Nat.le_refl _), Nat.sub_self, List.set_cons_zero,
          transfers_frame_iff some size] at transfers
        obtain ⟨rfl, later, carried, rfl⟩ := transfers
        exact .frame some size carried

theorem LengthByte.behind {i : Nat} (length : LengthByte chunks i) (chunk : Bytes) :
    LengthByte (chunk :: chunks) ((frameOf chunk).length + i) := by
  obtain ⟨front, other, back, rfl, place⟩ := length
  refine ⟨chunk :: front, other, back, rfl, ?_⟩
  rw [List.flatMap_cons, List.length_append]
  omega

/-- Only a change of a length byte makes the stream carry anything else. -/
theorem transfers_damaged (chunked : Chunked chunks) {i : Nat} {byte : UInt8}
    (other : ¬ LengthByte chunks i) (transfers : Transfers ((sent chunks).set i byte) data) :
    data = chunks.flatten := by
  induction chunks generalizing i data with
  | nil => exact transfers.of_short (by rw [List.length_set]; exact Nat.le_refl 4)
  | cons chunk chunks ih =>
      obtain ⟨⟨nonempty, short⟩, others⟩ := List.forall_mem_cons.mp chunked
      rw [sent_cons] at transfers
      by_cases inside : i < (frameOf chunk).length
      · have first : i ≠ 1 := fun place => other ⟨[], chunk, chunks, rfl, .inl place⟩
        have second : i ≠ 2 := fun place => other ⟨[], chunk, chunks, rfl, .inr place⟩
        have intact := transfers.of_damaged_frame nonempty short inside first second
        rw [← sent_cons] at intact
        exact (transfers_sent chunked).mp intact
      · obtain ⟨k, rfl⟩ := Nat.exists_eq_add_of_le (Nat.not_lt.mp inside)
        have later : ¬ LengthByte chunks k := fun length => other (length.behind chunk)
        obtain ⟨some, size⟩ := lengthOf_chunk nonempty short
        rw [List.set_append_right _ _ (Nat.le_add_right _ _), Nat.add_sub_cancel_left, frame_append,
          transfers_frame_iff some size] at transfers
        obtain ⟨-, carried, rest, rfl⟩ := transfers
        rw [ih others later rest]
        rfl

theorem sent_append (front back : List Bytes) :
    sent (front ++ back) = front.flatMap frameOf ++ sent back := by
  simp [sent]

/-- Whole frames in front of a stream add their data to what it carries. -/
theorem transfers_behind {front : List Bytes} (chunked : Chunked front) :
    Transfers (front.flatMap frameOf ++ rest) data ↔
      ∃ later, Transfers rest later ∧ data = front.flatten ++ later := by
  induction front generalizing data with
  | nil => simp
  | cons first front ih =>
      obtain ⟨⟨nonempty, short⟩, others⟩ := List.forall_mem_cons.mp chunked
      obtain ⟨some, size⟩ := lengthOf_chunk nonempty short
      rw [List.flatMap_cons, List.append_assoc, frame_append, transfers_frame_iff some size,
        and_iff_right rfl]
      constructor
      · rintro ⟨_, carried, rfl⟩
        obtain ⟨later, transfers, rfl⟩ := (ih others).mp carried
        exact ⟨later, transfers, by simp⟩
      · rintro ⟨later, transfers, rfl⟩
        exact ⟨_, (ih others).mpr ⟨later, transfers, rfl⟩, by simp⟩

theorem Transfers.sealed (some : lengthOf low high ≠ 0)
    (transfers : Transfers (soh :: low :: high :: rest) data) : Sealed low high rest := by
  cases transfers with
  | eof rest => exact absurd rfl some
  | frame _ size later =>
      refine ⟨some, ?_⟩
      rw [← size, List.take_left, List.getElem?_append_right (Nat.le_refl _), Nat.sub_self]
      rfl

theorem sent_header (front : List Bytes) (chunk : Bytes) (back : List Bytes) :
    sent (front ++ chunk :: back) = front.flatMap frameOf ++
      soh :: UInt8.ofNat chunk.length :: 0 :: (sent (chunk :: back)).drop 3 := by
  rw [sent_append, sent_cons, frame_append]
  rfl

/-- Behind a length for which the checksum happens to be right, the stream goes on as any other. -/
theorem transfers_sealed_iff (fits : Sealed low high rest) :
    Transfers (soh :: low :: high :: rest) data ↔
      ∃ later, Transfers (rest.drop (lengthOf low high + 1)) later ∧
        data = rest.take (lengthOf low high) ++ later := by
  obtain ⟨some, sum⟩ := fits
  obtain ⟨enough, last⟩ := List.getElem?_eq_some_iff.mp sum
  have split : rest = rest.take (lengthOf low high) ++
      checksum (low :: high :: rest.take (lengthOf low high)) ::
        rest.drop (lengthOf low high + 1) := by
    rw [← last, List.getElem_cons_drop, List.take_append_drop]
  have size : (rest.take (lengthOf low high)).length = lengthOf low high := by
    rw [List.length_take]
    omega
  conv_lhs => rw [split]
  rw [transfers_frame_iff some size, and_iff_right rfl]

/-- The change of a byte in the header of a frame, with the frames in front of it. -/
theorem set_header (front : List Bytes) (chunk : Bytes) (back : List Bytes) (byte : UInt8) :
    (sent (front ++ chunk :: back)).set ((front.flatMap frameOf).length + 1) byte =
        front.flatMap frameOf ++ soh :: byte :: 0 :: (sent (chunk :: back)).drop 3 ∧
      (sent (front ++ chunk :: back)).set ((front.flatMap frameOf).length + 2) byte =
        front.flatMap frameOf ++
          soh :: UInt8.ofNat chunk.length :: byte :: (sent (chunk :: back)).drop 3 := by
  rw [sent_header, List.set_append_right _ _ (Nat.le_add_right _ _), Nat.add_sub_cancel_left,
    List.set_append_right _ _ (Nat.le_add_right _ _), Nat.add_sub_cancel_left]
  exact ⟨rfl, rfl⟩

/-- A length byte that becomes zero ends the file in front of its frame. -/
theorem truncated_by_zero_length {front back : List Bytes}
    (chunked : Chunked (front ++ chunk :: back)) :
    Transfers ((sent (front ++ chunk :: back)).set ((front.flatMap frameOf).length + 1) 0)
      front.flatten := by
  have before : Chunked front := fun other listed => chunked other (List.mem_append_left _ listed)
  rw [(set_header front chunk back 0).1, transfers_behind before]
  exact ⟨[], .eof _, (List.append_nil _).symm⟩

theorem Emptied.transfers {i : Nat} {byte : UInt8} (chunked : Chunked chunks)
    (emptied : Emptied chunks i byte) :
    ∃ other, Transfers ((sent chunks).set i byte) other ∧ other ≠ chunks.flatten := by
  obtain ⟨rfl, front, chunk, back, rfl, rfl⟩ := emptied
  refine ⟨front.flatten, truncated_by_zero_length chunked, fun same => ?_⟩
  have lengths := congrArg List.length same
  have nonempty := (chunked chunk (by simp)).1
  have some := List.length_pos_iff.mpr nonempty
  rw [List.flatten_append, List.flatten_cons, List.length_append, List.length_append] at lengths
  omega

/-- A changed length that is neither zero nor met by a right checksum is noticed. -/
theorem transfers_resized (chunked : Chunked chunks) {i : Nat} {byte : UInt8}
    (length : LengthByte chunks i) (filled : ¬ Emptied chunks i byte)
    (framed : ¬ Reframed chunks i byte) (transfers : Transfers ((sent chunks).set i byte) data) :
    data = chunks.flatten := by
  obtain ⟨front, chunk, back, rfl, place | place⟩ := length
  · have before : Chunked front := fun other listed => chunked other (List.mem_append_left _ listed)
    have nonzero : byte ≠ 0 := fun zero => filled ⟨zero, front, chunk, back, rfl, place⟩
    by_cases same : byte = UInt8.ofNat chunk.length
    · rw [place, (set_header front chunk back byte).1, same, ← sent_header] at transfers
      exact (transfers_sent chunked).mp transfers
    · have wrong : ¬ Sealed byte 0 ((sent (chunk :: back)).drop 3) := fun fits =>
        framed ⟨front, chunk, back, rfl, .inl ⟨place, same, fits⟩⟩
      rw [place, (set_header front chunk back byte).1, transfers_behind before] at transfers
      obtain ⟨later, rest, -⟩ := transfers
      exact absurd (rest.sealed fun none => nonzero (lengthOf_eq_zero.mp none).1) wrong
  · have before : Chunked front := fun other listed => chunked other (List.mem_append_left _ listed)
    by_cases same : byte = 0
    · rw [place, (set_header front chunk back byte).2, same, ← sent_header] at transfers
      exact (transfers_sent chunked).mp transfers
    · have wrong : ¬ Sealed (UInt8.ofNat chunk.length) byte ((sent (chunk :: back)).drop 3) :=
        fun fits => framed ⟨front, chunk, back, rfl, .inr ⟨place, same, fits⟩⟩
      rw [place, (set_header front chunk back byte).2, transfers_behind before] at transfers
      obtain ⟨later, rest, -⟩ := transfers
      exact absurd (rest.sealed fun none => same (lengthOf_eq_zero.mp none).2) wrong

theorem chunksOf_nonempty {size : Nat} (positive : 0 < size) (listed : chunk ∈ chunksOf size data) :
    chunk ≠ [] := by
  obtain ⟨k, among, rfl⟩ := List.mem_map.mp listed
  have count := List.mem_range.mp among
  have begun : k * size < data.length := by
    have below := (Nat.le_div_iff_mul_le positive).mp (Nat.succ_le_of_lt count)
    rw [Nat.succ_mul] at below
    omega
  intro empty
  have length := congrArg List.length empty
  rw [List.length_take, List.length_drop, List.length_nil] at length
  omega

theorem chunked_chunksOf {size : Nat} (positive : 0 < size) (bounded : size ≤ 255) (data : Bytes) :
    Chunked (chunksOf size data) :=
  fun _ listed => ⟨chunksOf_nonempty positive listed, Nat.le_trans (chunksOf_short listed) bounded⟩

theorem encodeFrame_short (short : chunk.length ≤ 255) : encodeFrame chunk = some (frameOf chunk) := by
  have low : chunk.length &&& 0xFF = chunk.length := by
    rw [Nat.and_two_pow_sub_one_eq_mod chunk.length 8]
    omega
  have high : (chunk.length >>> 8) &&& 0xFF = 0 := by
    rw [Nat.shiftRight_eq_div_pow, Nat.div_eq_of_lt (by omega)]
    rfl
  rw [encodeFrame, if_pos short, low, high]
  rfl

theorem encodeFile_eq {size : Nat} (positive : 0 < size) (bounded : size ≤ 255) (data : Bytes) :
    encodeFile data size = some ((chunksOf size data).map frameOf ++ [encodeEof]) := by
  have frames : ∀ chunks, Chunked chunks → chunks.mapM encodeFrame = some (chunks.map frameOf) := by
    intro chunks chunked
    induction chunks with
    | nil => rfl
    | cons chunk chunks ih =>
        obtain ⟨⟨-, short⟩, others⟩ := List.forall_mem_cons.mp chunked
        rw [List.mapM_cons, encodeFrame_short short, ih others]
        rfl
  rw [encodeFile, if_neg (by omega), frames _ (chunked_chunksOf positive bounded data)]
  rfl

/-- A file arrives as it was sent.  After a change of one byte it is refused or arrives all the
same exactly if no length of a data frame becomes zero, provided that it becomes no other one
for which the checksum happens to be right. -/
theorem damage_noticed_iff (data : Bytes) {blockSize : Nat} (positive : 0 < blockSize)
    (bounded : blockSize ≤ 255) :
    ∃ frames, encodeFile data blockSize = some frames ∧
      receiveFile frames.flatten =
        ⟨some (data, []), (List.replicate frames.length encodeAck).flatten⟩ ∧
      ∀ i byte, ¬ Reframed (chunksOf blockSize data) i byte →
        ((receiveFile (frames.flatten.set i byte)).returned = none ∨
            (receiveFile (frames.flatten.set i byte)).returned = some data ↔
          ¬ Emptied (chunksOf blockSize data) i byte) := by
  have chunked := chunked_chunksOf positive bounded data
  have whole := chunksOf_flatten positive data
  have flat : ((chunksOf blockSize data).map frameOf ++ [encodeEof]).flatten =
      sent (chunksOf blockSize data) := by
    rw [List.flatten_append, List.flatten_singleton, ← List.flatMap_def]
    rfl
  refine ⟨_, encodeFile_eq positive bounded data, ?_, fun i byte framed => ?_⟩
  · rw [flat, receiveFile, receiveFrom_sent chunked, whole]
    simp [encodeAck]
  · rw [flat]
    generalize reached : (receiveFile ((sent (chunksOf blockSize data)).set i byte)).returned = result
    constructor
    · intro answer emptied
      obtain ⟨other, transfers, different⟩ := emptied.transfers chunked
      rw [returned_iff.mpr transfers] at reached
      subst reached
      rcases answer with none | same
      · contradiction
      · exact different ((Option.some.inj same).trans whole.symm)
    · intro filled
      cases result with
      | none => exact .inl rfl
      | some other =>
          have transfers := returned_iff.mp reached
          by_cases length : LengthByte (chunksOf blockSize data) i
          · rw [transfers_resized chunked length filled framed transfers, whole]
            exact .inr rfl
          · rw [transfers_damaged chunked length transfers, whole]
            exact .inr rfl

theorem one_byte_received : ∃ frames, encodeFile [0x41] 128 = some frames ∧
    (receiveFile frames.flatten).returned = some [0x41] := by
  obtain ⟨frames, encoded, received, -⟩ :=
    @damage_noticed_iff [0x41] 128 (by decide) (by decide)
  exact ⟨frames, encoded, by rw [received]; rfl⟩

/-- A length byte that becomes zero makes an EOF frame of a data frame. -/
theorem zero_length_accepted : ∃ frames, encodeFile [0x41] 128 = some frames ∧
    (receiveFile (frames.flatten.set 1 0x00)).returned = some [] :=
  ⟨[[0x01, 0x01, 0x00, 0x41, 0x40], [0x01, 0x00, 0x00, 0x00]], by decide, returned_iff.mpr (.eof _)⟩

end PyBulletin.Transport.Yapp
