import PyBulletin.Forward.Envelope
import PyBulletin.Store.Mail

set_option autoImplicit false

namespace PyBulletin.Forward

open PyBulletin.Foundation
open PyBulletin.Store

/-! # The size of a decoded body

A body is cut out of the text of its block.  It can still take more bytes in the store than the
block had, as every byte outside ASCII is replaced.
-/

/-- What stands for a byte outside ASCII. -/
def replacement : Char := Char.ofNat 0xFFFD

section Bodies

variable {now : DateTime} {data raw : Bytes} {text : Text} {c : Char}

theorem strip_sublist (text : Text) : (Text.strip text).Sublist text := by
  refine List.Sublist.trans ?_ (List.dropWhile_sublist Text.isSpace)
  exact (List.rdropWhile_prefix Text.isSpace _).sublist

theorem trim_sublist (text : Text) : (trim text).Sublist text :=
  (strip_sublist _).trans (List.rdropWhile_prefix _ _).sublist

theorem slice_sublist (n : Int) (text : Text) : (Text.slice n text).Sublist text := by
  rw [Text.slice]
  split <;> exact List.take_sublist _ _

theorem cutBody_sublist (headers : Headers) (text : Text) : (cutBody headers text).Sublist text := by
  rw [cutBody]
  split
  · exact slice_sublist _ _
  · exact .refl text

theorem scan_suffix {headers : Headers} {lines rest : List Text}
    (behind : (scan headers lines).2 = some rest) : rest <:+ lines := by
  induction lines generalizing headers with
  | nil => cases behind
  | cons line lines ih =>
      rw [scan] at behind
      split at behind
      · cases behind
        exact List.suffix_cons line _
      · exact (ih behind).trans (List.suffix_cons line lines)

/-- The lines of the body, wherever the header ends. -/
theorem decodeB2fBlock_body (now : DateTime) (data : Bytes) :
    ∃ lines : List Text, lines <:+ Text.splitLines (trim (decodeAscii data)) ∧
      (decodeB2fBlock now data).body.Sublist ((['\n'] : Text).intercalate lines) := by
  let lines := Text.splitLines (trim (decodeAscii data))
  let body := (scan [] lines).2.getD lines
  have cut : (decodeB2fBlock now data).body.Sublist ((['\n'] : Text).intercalate body) := by
    simp only [decodeB2fBlock, messageOf]
    exact (strip_sublist _).trans (cutBody_sublist _ _)
  refine ⟨body, ?_, cut⟩
  cases behind : (scan [] lines).2 with
  | none => simp only [body, behind, Option.getD_none]; exact List.suffix_rfl
  | some rest => simp only [body, behind, Option.getD_some]; exact scan_suffix behind

/-- A body has no more characters than its block has bytes. -/
theorem body_length (now : DateTime) (data : Bytes) :
    (decodeB2fBlock now data).body.length ≤ data.length := by
  obtain ⟨lines, suffix, cut⟩ := decodeB2fBlock_body now data
  have joined := Text.intercalate_lineSize '\n' lines
  have rest := Text.lineSize_suffix suffix
  have whole := Text.lineSize_splitLines (trim (decodeAscii data))
  have trimmed := (trim_sublist (decodeAscii data)).length_le
  have same : (decodeAscii data).length = data.length := by simp [decodeAscii]
  have short := cut.length_le
  omega

theorem mem_body (listed : c ∈ (decodeB2fBlock now data).body) :
    c = '\n' ∨ c ∈ decodeAscii data := by
  obtain ⟨lines, suffix, cut⟩ := decodeB2fBlock_body now data
  refine (Text.mem_intercalate (cut.subset listed)).imp List.mem_singleton.mp ?_
  rintro ⟨line, among, inside⟩
  exact (trim_sublist _).subset (Text.mem_splitLines (suffix.subset among) inside)

theorem toNat_decoded {b : UInt8} (small : b < 128) : (Char.ofNat b.toNat).toNat < 128 := by
  have ascii := UInt8.lt_iff_toNat_lt.mp small
  have valid : b.toNat.isValidChar := .inl (Nat.lt_trans ascii (by decide))
  rw [Char.ofNat, dif_pos valid]
  exact ascii

theorem mem_decodeAscii (listed : c ∈ decodeAscii data) : c.toNat < 128 ∨ c = replacement := by
  obtain ⟨b, _, rfl⟩ := List.mem_map.mp listed
  split
  · exact .inl (toNat_decoded ‹_›)
  · exact .inr rfl

theorem replacement_not_mem (small : ∀ b ∈ data, b < 128) : replacement ∉ decodeAscii data := by
  intro listed
  obtain ⟨b, among, same⟩ := List.mem_map.mp listed
  rw [if_pos (small b among)] at same
  have ascii := toNat_decoded (small b among)
  rw [same] at ascii
  exact absurd ascii (by decide)

theorem utf8Size_ascii (ascii : c.toNat < 128) : c.utf8Size = 1 := by
  have small : c.val.toNat ≤ 127 := Nat.le_of_lt_succ ascii
  rw [Char.utf8Size]
  exact if_pos (UInt32.le_iff_toNat_le.mpr small)

/-- A replaced byte takes three bytes, any other byte one. -/
theorem utf8Length_replaced (plain : ∀ c ∈ text, c.toNat < 128 ∨ c = replacement) :
    BBSStore.utf8Length text = text.length + 2 * text.count replacement := by
  rw [BBSStore.utf8Length]
  induction text with
  | nil => rfl
  | cons c text ih =>
      have rest := ih fun d listed => plain d (List.mem_cons_of_mem c listed)
      rw [List.map_cons, List.sum_cons, rest, List.length_cons]
      rcases plain c List.mem_cons_self with ascii | rfl
      · have other : c ≠ replacement := by
          rintro rfl
          exact absurd ascii (by decide)
        rw [utf8Size_ascii ascii, List.count_cons_of_ne other]
        omega
      · rw [List.count_cons_self, show replacement.utf8Size = 3 by decide]
        omega

theorem body_size (now : DateTime) (data : Bytes) :
    BBSStore.utf8Length (decodeB2fBlock now data).body =
      (decodeB2fBlock now data).body.length +
        2 * (decodeB2fBlock now data).body.count replacement := by
  refine utf8Length_replaced fun c listed => ?_
  rcases mem_body listed with rfl | among
  · exact .inl (by decide)
  · exact mem_decodeAscii among

theorem body_size_ascii (now : DateTime) (small : ∀ b ∈ data, b < 128) :
    BBSStore.utf8Length (decodeB2fBlock now data).body ≤ data.length := by
  have none_ : (decodeB2fBlock now data).body.count replacement = 0 := by
    refine List.count_eq_zero.mpr fun listed => ?_
    rcases mem_body listed with feed | among
    · exact absurd feed (by decide)
    · exact replacement_not_mem small among
  rw [body_size, none_, Nat.mul_zero, Nat.add_zero]
  exact body_length now data

end Bodies

end PyBulletin.Forward
