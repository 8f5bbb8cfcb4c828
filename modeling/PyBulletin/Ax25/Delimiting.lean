import Mathlib.Data.Nat.Find
import PyBulletin.Ax25.FrameRoundTrip

set_option autoImplicit false

namespace PyBulletin.Ax25

open PyBulletin.Foundation

namespace AX25Frame

variable {data : Bytes} {n : Nat}

/-- Field `i`, counted from 0, is complete and its last byte has the end bit. -/
def EndsAt (data : Bytes) (i : Nat) : Prop := ∃ last ∈ data[7 * i + 6]?, last &&& 0x01 ≠ 0

instance (data : Bytes) (i : Nat) : Decidable (EndsAt data i) :=
  inferInstanceAs (Decidable (∃ last ∈ data[7 * i + 6]?, last &&& 0x01 ≠ 0))

/-- The frame starts with `k` address fields, the last of them marked as such, and goes on. -/
structure Delimited (data : Bytes) (k : Nat) : Prop where
  two : 2 ≤ k
  ended : EndsAt data (k - 1)
  first : ∀ i, i < k - 1 → ¬ EndsAt data i
  followed : 7 * k < data.length

/-- The loop over the address fields runs out of complete fields, and bytes are left over. -/
def Straying (data : Bytes) : Prop :=
  15 ≤ data.length ∧ data.length % 7 ≠ 0 ∧ ∀ i, ¬ EndsAt data i

theorem EndsAt.complete {i : Nat} (ended : EndsAt data i) : 7 * (i + 1) ≤ data.length := by
  obtain ⟨last, found, _⟩ := ended
  have inside := (List.getElem?_eq_some_iff.mp (Option.mem_def.mp found)).1
  omega

theorem endsAt_zero (c0 c1 c2 c3 c4 c5 last : UInt8) (rest : Bytes) :
    EndsAt (c0 :: c1 :: c2 :: c3 :: c4 :: c5 :: last :: rest) 0 ↔
      (AX25Address.ofField [c0, c1, c2, c3, c4, c5] last).endBit = true := by
  simp [EndsAt, AX25Address.ofField]

theorem endsAt_succ (c0 c1 c2 c3 c4 c5 last : UInt8) (rest : Bytes) (i : Nat) :
    EndsAt (c0 :: c1 :: c2 :: c3 :: c4 :: c5 :: last :: rest) (i + 1) ↔ EndsAt rest i := by
  have shifted : 7 * (i + 1) + 6 = 7 * i + 6 + 7 := by omega
  rw [EndsAt, EndsAt, shifted]
  rfl

theorem length_of_short (short : ∀ c0 c1 c2 c3 c4 c5 last rest,
    data = c0 :: c1 :: c2 :: c3 :: c4 :: c5 :: last :: rest → False) : data.length < 7 := by
  match data, short with
  | [], _ | [_], _ | [_, _], _ | [_, _, _], _ | [_, _, _, _], _ | [_, _, _, _, _], _
  | [_, _, _, _, _, _], _ => simp
  | c0 :: c1 :: c2 :: c3 :: c4 :: c5 :: last :: rest, short =>
      exact (short c0 c1 c2 c3 c4 c5 last rest rfl).elim

/-- The loop stops behind the first field with the end bit. -/
theorem readAddresses_ended (ended : EndsAt data n) (first : ∀ i, i < n → ¬ EndsAt data i) :
    (readAddresses data).1.length = n + 1 ∧ (readAddresses data).2 = data.drop (7 * (n + 1)) := by
  induction data using readAddresses.induct generalizing n with
  | case1 c0 c1 c2 c3 c4 c5 last rest address =>
      rename_i marked
      have here : n = 0 := by
        by_contra later
        exact first 0 (by omega) ((endsAt_zero ..).mpr marked)
      subst here
      rw [readAddresses, if_pos marked]
      exact ⟨rfl, rfl⟩
  | case2 c0 c1 c2 c3 c4 c5 last rest address unmarked more left read =>
      rename_i ih
      cases n with
      | zero => exact absurd ((endsAt_zero ..).mp ended) unmarked
      | succ n =>
          obtain ⟨count, behind⟩ := ih ((endsAt_succ ..).mp ended) fun i lower marked =>
            first (i + 1) (by omega) ((endsAt_succ ..).mpr marked)
          have further : 7 * (n + 1 + 1) = 7 * (n + 1) + 7 := by omega
          rw [readAddresses, if_neg unmarked, further]
          exact ⟨by simpa using count, behind⟩
  | case3 rest short =>
      have complete := ended.complete
      have few := length_of_short short
      omega

/-- Without an end bit the loop takes every complete field. -/
theorem readAddresses_endless (endless : ∀ i, ¬ EndsAt data i) :
    (readAddresses data).1.length = data.length / 7 ∧
      (readAddresses data).2.length = data.length % 7 := by
  induction data using readAddresses.induct with
  | case1 c0 c1 c2 c3 c4 c5 last rest address =>
      rename_i marked
      exact absurd ((endsAt_zero ..).mpr marked) (endless 0)
  | case2 c0 c1 c2 c3 c4 c5 last rest address unmarked more left read =>
      rename_i ih
      obtain ⟨count, behind⟩ := ih fun i marked => endless (i + 1) ((endsAt_succ ..).mpr marked)
      rw [readAddresses, if_neg unmarked]
      simp only [List.length_cons]
      omega
  | case3 rest short =>
      have few := length_of_short short
      rw [readAddresses.eq_2 rest short]
      exact ⟨(Nat.div_eq_of_lt few).symm, (Nat.mod_eq_of_lt few).symm⟩

theorem decode_ok_iff :
    (∃ frame, decode data = .ok frame) ↔
      15 ≤ data.length ∧ 2 ≤ (readAddresses data).1.length ∧ (readAddresses data).2 ≠ [] := by
  by_cases short : data.length < 15
  · rw [decode, if_pos short]
    simp only [reduceCtorEq, exists_false, false_iff]
    omega
  · rw [decode, if_neg short]
    rcases readAddresses data with ⟨_ | ⟨dest, _ | ⟨src, repeaters⟩⟩, _ | ⟨control, rest⟩⟩
    · simp
    · simp
    · simp
    · simp
    · simp
    · simp only [List.length_cons, ne_eq, reduceCtorEq, not_false_eq_true, and_true]
      constructor
      · exact fun _ => ⟨by omega, by omega⟩
      · intro _
        split <;> exact ⟨_, rfl⟩

theorem Delimited.accepted {k : Nat} (delimited : Delimited data k) :
    ∃ frame, decode data = .ok frame := by
  obtain ⟨count, behind⟩ := readAddresses_ended delimited.ended delimited.first
  have two := delimited.two
  have followed := delimited.followed
  refine decode_ok_iff.mpr ⟨by omega, by omega, ?_⟩
  rw [behind, ne_eq, List.drop_eq_nil_iff]
  omega

theorem accepted_endless (endless : ∀ i, ¬ EndsAt data i) :
    (∃ frame, decode data = .ok frame) ↔ 15 ≤ data.length ∧ data.length % 7 ≠ 0 := by
  obtain ⟨count, behind⟩ := readAddresses_endless endless
  rw [decode_ok_iff, count, ← behind, ne_eq, ne_eq, List.length_eq_zero_iff]
  constructor
  · exact fun ⟨long, _, left⟩ => ⟨long, left⟩
  · exact fun ⟨long, left⟩ => ⟨long, by omega, left⟩

/-- `decode` accepts what is delimited, and a frame whose bytes run out inside a field. -/
theorem accepted_iff :
    (∃ frame, decode data = .ok frame) ↔ (∃ k, Delimited data k) ∨ Straying data := by
  constructor
  · intro accepted
    by_cases some_ : ∃ i, EndsAt data i
    · refine .inl ⟨Nat.find some_ + 1, ?_⟩
      have first : ∀ i, i < Nat.find some_ → ¬ EndsAt data i := fun i => Nat.find_min some_
      obtain ⟨count, behind⟩ := readAddresses_ended (Nat.find_spec some_) first
      obtain ⟨-, two, left⟩ := decode_ok_iff.mp accepted
      rw [behind, ne_eq, List.drop_eq_nil_iff] at left
      exact ⟨by omega, Nat.find_spec some_, first, by omega⟩
    · have endless := not_exists.mp some_
      obtain ⟨long, left⟩ := (accepted_endless endless).mp accepted
      exact .inr ⟨long, left, endless⟩
  · rintro (⟨k, delimited⟩ | ⟨long, left, endless⟩)
    · exact delimited.accepted
    · exact (accepted_endless endless).mpr ⟨long, left⟩

/-- Exactly the well-delimited frames are accepted, unless the frame strays. -/
theorem accepts_delimited_iff :
    ((∃ frame, decode data = .ok frame) ↔ ∃ k, Delimited data k) ↔ ¬ Straying data := by
  have apart : Straying data → ¬ ∃ k, Delimited data k :=
    fun straying ⟨k, delimited⟩ => straying.2.2 (k - 1) delimited.ended
  rw [accepted_iff]
  constructor
  · exact fun same straying => apart straying (same.mp (.inr straying))
  · exact fun settled => ⟨fun either => either.resolve_right settled, .inl⟩

/-- Two address fields without an end bit, and one byte of the next field. -/
def endlessFields : Bytes := List.replicate 14 0x40 ++ [0x3F]

theorem endlessFields_accepted :
    (∃ frame, decode endlessFields = .ok frame ∧ frame.control = 0x3F) ∧
      ¬ ∃ k, Delimited endlessFields k := by
  refine ⟨⟨_, rfl, rfl⟩, fun ⟨k, delimited⟩ => ?_⟩
  have none_ : ∀ i, i < 2 → ¬ EndsAt endlessFields i := by decide
  have complete := delimited.ended.complete
  have size : endlessFields.length = 15 := rfl
  exact none_ (k - 1) (by omega) delimited.ended

end AX25Frame

end PyBulletin.Ax25
