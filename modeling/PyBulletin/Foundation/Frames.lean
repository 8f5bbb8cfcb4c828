import Mathlib.Data.List.Basic
import PyBulletin.Foundation.Text

set_option autoImplicit false

namespace PyBulletin.Foundation

/-! # Frames of the web socket protocol

The frames of RFC 6455 as a format of their own: a bit that says whether a message ends, an
opcode, a length in one of three forms, an optional masking key and the payload. -/

/-- `n.to_bytes(k, "big")` -/
def bigEndian : Nat → Nat → Bytes
  | 0, _ => []
  | k + 1, n => bigEndian k (n / 256) ++ [UInt8.ofNat n]

/-- `int.from_bytes(bytes, "big")` -/
def fromBigEndian (bytes : Bytes) : Nat := bytes.foldl (fun n byte => n * 256 + byte.toNat) 0

@[simp] theorem length_bigEndian (k n : Nat) : (bigEndian k n).length = k := by
  induction k generalizing n with
  | zero => rfl
  | succ k ih => rw [bigEndian, List.length_append, ih, List.length_singleton]

theorem fromBigEndian_bigEndian {k n : Nat} (small : n < 256 ^ k) :
    fromBigEndian (bigEndian k n) = n := by
  induction k generalizing n with
  | zero =>
      have none_ : n = 0 := by simpa using small
      rw [none_]
      rfl
  | succ k ih =>
      have front : n / 256 < 256 ^ k := Nat.div_lt_of_lt_mul (by rwa [Nat.pow_succ, Nat.mul_comm] at small)
      have back := ih front
      rw [fromBigEndian] at back ⊢
      rw [bigEndian, List.foldl_append, back, List.foldl_cons, List.foldl_nil, UInt8.toNat_ofNat']
      omega

namespace Frames

/-- The four bytes of a masking key. -/
structure Key where
  bytes : Bytes
  four : bytes.length = 4

/-- Masks a payload, and unmasks it. -/
def mask (key : Bytes) (data : Bytes) : Bytes :=
  data.mapIdx fun i byte => byte ^^^ key.getD (i % 4) 0

@[simp] theorem length_mask (key data : Bytes) : (mask key data).length = data.length :=
  List.length_mapIdx

@[simp] theorem mask_mask (key data : Bytes) : mask key (mask key data) = data := by
  apply List.ext_getElem
  · simp
  · intro i _ _
    simp only [mask, List.getElem_mapIdx]
    rw [UInt8.xor_assoc, UInt8.xor_self, UInt8.xor_zero]

structure Frame where
  fin : Bool
  opcode : Fin 16
  key : Option Key
  payload : Bytes

namespace Frame

variable (frame : Frame)

def first : UInt8 := UInt8.ofNat ((if frame.fin then 128 else 0) + frame.opcode)

/-- The second byte and the bytes of a longer length, each in its shortest form. -/
def lengthBytes : Bytes :=
  let masked := if frame.key.isSome then 128 else 0
  let n := frame.payload.length
  if n < 126 then [UInt8.ofNat (masked + n)]
  else if n < 65536 then UInt8.ofNat (masked + 126) :: bigEndian 2 n
  else UInt8.ofNat (masked + 127) :: bigEndian 8 n

/-- The payload as it is on the wire. -/
def data : Bytes := frame.key.elim frame.payload fun key => mask key.bytes frame.payload

def body : Bytes := frame.key.elim [] Key.bytes ++ frame.data

def encode : Bytes := frame.first :: (frame.lengthBytes ++ frame.body)

variable {frame}

theorem first_toNat : frame.first.toNat = (if frame.fin then 128 else 0) + frame.opcode := by
  have small := frame.opcode.isLt
  rw [first, UInt8.toNat_ofNat', Nat.mod_eq_of_lt]
  split <;> omega

@[simp] theorem length_data : frame.data.length = frame.payload.length := by
  cases shape : frame.key <;> simp [data, shape]

theorem unmask_data :
    (frame.key.elim frame.data fun key => mask key.bytes frame.data) = frame.payload := by
  cases shape : frame.key <;> simp [data, shape]

/-- The forms of the length, told by the lower bits of the second byte. -/
theorem lengthBytes_cases : ∃ second extended, frame.lengthBytes = second :: extended ∧
    (128 ≤ second.toNat ↔ frame.key.isSome) ∧
      (second.toNat % 128 = frame.payload.length ∧ frame.payload.length < 126 ∧ extended = [] ∨
        second.toNat % 128 = 126 ∧ frame.payload.length < 65536 ∧
          extended = bigEndian 2 frame.payload.length ∨
        second.toNat % 128 = 127 ∧ extended = bigEndian 8 frame.payload.length) := by
  have byte {n : Nat} (small : n < 128) :
      (UInt8.ofNat ((if frame.key.isSome then 128 else 0) + n)).toNat =
        (if frame.key.isSome then 128 else 0) + n := by
    rw [UInt8.toNat_ofNat', Nat.mod_eq_of_lt]
    split <;> omega
  have bit {n : Nat} (small : n < 128) :
      (128 ≤ (if frame.key.isSome then 128 else 0) + n ↔ frame.key.isSome) ∧
        ((if frame.key.isSome then 128 else 0) + n) % 128 = n := by
    split
    · next masked => exact ⟨by simp [masked], by omega⟩
    · next plain => exact ⟨by simp [plain]; omega, by omega⟩
  simp only [lengthBytes]
  by_cases short : frame.payload.length < 126
  · refine ⟨_, _, if_pos short, ?_⟩
    rw [byte (by omega)]
    exact ⟨(bit (by omega)).1, .inl ⟨(bit (by omega)).2, short, rfl⟩⟩
  · rw [if_neg short]
    by_cases middle : frame.payload.length < 65536
    · refine ⟨_, _, if_pos middle, ?_⟩
      rw [byte (by omega)]
      exact ⟨(bit (by omega)).1, .inr (.inl ⟨(bit (by omega)).2, middle, rfl⟩)⟩
    · refine ⟨_, _, if_neg middle, ?_⟩
      rw [byte (by omega)]
      exact ⟨(bit (by omega)).1, .inr (.inr ⟨(bit (by omega)).2, rfl⟩)⟩

end Frame

def split (n : Nat) (bytes : Bytes) : Option (Bytes × Bytes) :=
  if n ≤ bytes.length then some (bytes.take n, bytes.drop n) else none

def decodeLength (code : Nat) (bytes : Bytes) : Option (Nat × Bytes) :=
  if code = 126 then (split 2 bytes).map fun (ext, rest) => (fromBigEndian ext, rest)
  else if code = 127 then (split 8 bytes).map fun (ext, rest) => (fromBigEndian ext, rest)
  else some (code, bytes)

def decodeKey (masked : Bool) (bytes : Bytes) : Option (Option Key × Bytes) :=
  if masked then
    if long : 4 ≤ bytes.length then some (some ⟨bytes.take 4, by simp [long]⟩, bytes.drop 4)
    else none
  else some (none, bytes)

/-- The first frame of some bytes, and what is behind it; reserved bits are not allowed. -/
def decode : Bytes → Option (Frame × Bytes)
  | first :: second :: bytes => do
      let (length, bytes) ← decodeLength (second.toNat % 128) bytes
      let (key, bytes) ← decodeKey (128 ≤ second.toNat) bytes
      let (data, bytes) ← split length bytes
      if first.toNat / 16 % 8 = 0 then
        some ({ fin := 128 ≤ first.toNat
                opcode := ⟨first.toNat % 16, Nat.mod_lt _ (by decide)⟩
                key
                payload := key.elim data (mask ·.bytes data) }, bytes)
      else none
  | _ => none

@[simp] theorem split_append {n : Nat} {front : Bytes} (length : front.length = n) (back : Bytes) :
    split n (front ++ back) = some (front, back) := by
  subst length
  simp [split]

theorem decodeLength_frame {frame : Frame} (fits : frame.payload.length < 2 ^ 64) (back : Bytes) :
    ∃ second extended, frame.lengthBytes = second :: extended ∧
      (128 ≤ second.toNat ↔ frame.key.isSome) ∧
      decodeLength (second.toNat % 128) (extended ++ back) =
        some (frame.payload.length, back) := by
  obtain ⟨second, extended, shape, masked, form⟩ := @Frame.lengthBytes_cases frame
  refine ⟨second, extended, shape, masked, ?_⟩
  rcases form with ⟨code, short, rfl⟩ | ⟨code, middle, rfl⟩ | ⟨code, rfl⟩
  · rw [decodeLength, code, if_neg (by omega), if_neg (by omega), List.nil_append]
  · rw [decodeLength, code, if_pos rfl, split_append (length_bigEndian 2 _), Option.map_some]
    dsimp only
    rw [fromBigEndian_bigEndian (by omega)]
  · rw [decodeLength, code, if_neg (by decide), if_pos rfl, split_append (length_bigEndian 8 _),
      Option.map_some]
    dsimp only
    rw [fromBigEndian_bigEndian (by omega)]

theorem decodeKey_frame (frame : Frame) (rest : Bytes) :
    decodeKey frame.key.isSome (frame.body ++ rest) = some (frame.key, frame.data ++ rest) := by
  cases shape : frame.key with
  | none => simp [decodeKey, Frame.body, shape]
  | some key =>
      have four := key.four
      simp [decodeKey, Frame.body, shape, four]

/-- A frame whose length fits its longest form is decoded. -/
theorem decode_frame {frame : Frame} (fits : frame.payload.length < 2 ^ 64) (rest : Bytes) :
    decode (frame.encode ++ rest) = some (frame, rest) := by
  obtain ⟨second, extended, shape, masked, length⟩ := decodeLength_frame fits (frame.body ++ rest)
  have small := frame.opcode.isLt
  have reserved : frame.first.toNat / 16 % 8 = 0 := by
    rw [Frame.first_toNat]
    split <;> omega
  have opcode : frame.first.toNat % 16 = frame.opcode := by
    rw [Frame.first_toNat]
    split <;> omega
  have fin : decide (128 ≤ frame.first.toNat) = frame.fin := by
    rw [Frame.first_toNat]
    cases frame.fin <;> simp
    omega
  have keyed : decide (128 ≤ second.toNat) = frame.key.isSome := by
    rw [Bool.eq_iff_iff, decide_eq_true_eq, masked]
  have whole : frame.encode ++ rest =
      frame.first :: second :: (extended ++ (frame.body ++ rest)) := by
    simp [Frame.encode, shape]
  have same : (⟨frame.first.toNat % 16, Nat.mod_lt _ (by decide)⟩ : Fin 16) = frame.opcode :=
    Fin.ext opcode
  simp only [whole, decode, length, keyed, decodeKey_frame, split_append Frame.length_data,
    reserved, fin, same, Frame.unmask_data, if_true, Option.bind_eq_bind, Option.bind_some]

end Frames

end PyBulletin.Foundation
