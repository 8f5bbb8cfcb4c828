import PyBulletin.Store.Models
import PyBulletin.Vendor.Lzhuf

set_option autoImplicit false

namespace PyBulletin.Forward

open PyBulletin.Foundation
open PyBulletin.Store

def crlf : Text := ['\r', '\n']

/-- `text.encode("ascii", errors="replace")`. -/
def encodeAscii (text : Text) : Bytes :=
  text.map fun c => if c.toNat < 128 then c.toNat.toUInt8 else 63

theorem encodeAscii_append (front back : Text) :
    encodeAscii (front ++ back) = encodeAscii front ++ encodeAscii back := by
  simp [encodeAscii]

theorem encodeAscii_length (text : Text) : (encodeAscii text).length = text.length := by
  simp [encodeAscii]

theorem encodeAscii_lt {text : Text} {b : UInt8} (listed : b ∈ encodeAscii text) : b < 128 := by
  simp only [encodeAscii, List.mem_map] at listed
  obtain ⟨c, _, rfl⟩ := listed
  split
  · rename_i ascii
    rw [UInt8.lt_iff_toNat_lt]
    simpa [Nat.mod_eq_of_lt (by omega : c.toNat < 256)] using ascii
  · decide

/-- `data.decode("ascii", errors="replace")`. -/
def decodeAscii (data : Bytes) : Text :=
  data.map fun b => if b < 128 then Char.ofNat b.toNat else Char.ofNat 0xFFFD

theorem decodeAscii_encodeAscii {text : Text} (ascii : ∀ c ∈ text, c.toNat < 128) :
    decodeAscii (encodeAscii text) = text := by
  rw [decodeAscii, encodeAscii, List.map_map]
  refine (List.map_congr_left fun c listed => ?_).trans (List.map_id text)
  have small := ascii c listed
  have value : (UInt8.ofNat c.toNat).toNat = c.toNat := Nat.mod_eq_of_lt (by omega)
  have below : UInt8.ofNat c.toNat < 128 := by
    rw [UInt8.lt_iff_toNat_lt, value]
    exact small
  simp only [Function.comp_apply, if_pos small, if_pos below, value, Char.ofNat_toNat, id_eq]

theorem not_mem_encodeAscii {c : Char} (ascii : c.toNat < 128) (known : c ≠ '?') {text : Text}
    (plain : c ∉ text) : UInt8.ofNat c.toNat ∉ encodeAscii text := by
  have value {d : Char} (small : d.toNat < 128) (same : UInt8.ofNat d.toNat = UInt8.ofNat c.toNat) :
      d = c := by
    have codes := congrArg UInt8.toNat same
    simp only [UInt8.toNat_ofNat', Nat.mod_eq_of_lt (by omega : d.toNat < 2 ^ 8),
      Nat.mod_eq_of_lt (by omega : c.toNat < 2 ^ 8)] at codes
    exact Char.toNat_inj.mp codes
  simp only [encodeAscii, List.mem_map, not_exists, not_and]
  intro d listed
  split
  · rename_i small
    intro same
    exact plain (value small same ▸ listed)
  · intro same
    exact known (@value '?' (by decide) same).symm

theorem newline_not_mem_encodeAscii {text : Text} (plain : '\n' ∉ text) :
    10 ∉ encodeAscii text :=
  not_mem_encodeAscii (by decide) (by decide) plain

theorem newline_not_mem_digits (n : Nat) : '\n' ∉ Nat.toDigits 10 n := by
  intro listed
  have digit := Nat.isDigit_of_mem_toDigits (by decide) (by decide) listed
  revert digit
  decide

/-- `_build_envelope`; `now` is used for a message without a date. -/
def buildEnvelope (now : DateTime) (msg : Message) : Bytes :=
  let date := (msg.createdAt.getD now).format
  let bodyBytes := encodeAscii msg.body
  let lines : List Text :=
    ["Mid: " ++ msg.bid, "Date: " ++ date, "From: " ++ msg.fromCall, "To: " ++ msg.toCall] ++
      (if msg.atBbs = [] then [] else [("@ " : Text) ++ msg.atBbs]) ++
      ["Subject: " ++ msg.subject, "Type: " ++ msg.msgType,
        "Body: " ++ Nat.toDigits 10 bodyBytes.length, ""]
  encodeAscii (crlf.intercalate lines) ++ [13, 10] ++ bodyBytes ++ [3]

variable (haveLzhuf : Bool)

/-- `encode_message_b2f`; `haveLzhuf` is `_HAVE_LZHUF`. -/
def encodeMessageB2f (now : DateTime) (msg : Message) : Fueled Bytes := do
  let envelope := buildEnvelope now msg
  if haveLzhuf then do
    let compressed ← Vendor.Lzhuf.compress envelope
    pure (encodeAscii ("F> " ++ Nat.toDigits 10 compressed.length ++ crlf) ++ compressed)
  else do
    let size ← Vendor.Lzhuf.packSize envelope.length
    let compressed := size ++ envelope
    pure (encodeAscii ("F> " ++ Nat.toDigits 10 compressed.length ++ crlf) ++ compressed)

/-- The text block of `encode_message_b1`. -/
def b1Text (msg : Message) : Bytes :=
  let date := (msg.createdAt.map DateTime.format).getD ""
  let lines : List Text :=
    ["From: " ++ msg.fromCall, "To: " ++ msg.toCall] ++
      (if msg.atBbs = [] then [] else [("@ " : Text) ++ msg.atBbs]) ++
      ["Subject: " ++ msg.subject, "Date: " ++ date, "BID: " ++ msg.bid, "Type: " ++ msg.msgType,
        "---", msg.body, "/EX"]
  encodeAscii (crlf.intercalate lines) ++ [13, 10]

/-- `encode_message_b1`. -/
def encodeMessageB1 (msg : Message) : Bytes :=
  let text := b1Text msg
  encodeAscii ("F+ " ++ Nat.toDigits 10 text.length ++ crlf) ++ text

/-- What stands behind the first line. -/
def blockOf (data : Bytes) : Bytes := (data.dropWhile (· ≠ 10)).tail

theorem blockOf_encodeMessageB1 (msg : Message) : blockOf (encodeMessageB1 msg) = b1Text msg := by
  have plain : 10 ∉ encodeAscii ("F+ " ++ Nat.toDigits 10 (b1Text msg).length ++ ['\r']) :=
    newline_not_mem_encodeAscii (by simp [newline_not_mem_digits])
  have shape : encodeMessageB1 msg =
      encodeAscii ("F+ " ++ Nat.toDigits 10 (b1Text msg).length ++ ['\r']) ++ 10 :: b1Text msg := by
    simp [encodeMessageB1, crlf, encodeAscii]
  have all : ∀ b ∈ encodeAscii ("F+ " ++ Nat.toDigits 10 (b1Text msg).length ++ ['\r']),
      decide (b ≠ 10) = true := by
    intro b listed
    simpa using fun same : b = 10 => plain (same ▸ listed)
  rw [blockOf, shape, List.dropWhile_append_of_pos all]
  rfl

/-- `decompress_b2f`.  The data is handed on with its size header in front. -/
def decompressB2f (data : Bytes) : Fueled (Option Bytes) :=
  match Vendor.Lzhuf.unpackSize data with
  | none => pure none
  | some originalSize =>
      if haveLzhuf then (Vendor.Lzhuf.decompress data (some originalSize)).attempt
      else pure (some ((data.drop 4).take originalSize))

end PyBulletin.Forward
