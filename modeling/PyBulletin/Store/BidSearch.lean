import Mathlib.Data.Nat.Find
import PyBulletin.Store.Writers

set_option autoImplicit false

namespace PyBulletin.Store

open PyBulletin.Foundation
open PyBulletin.Store.Writers (candidate)

/-! # The BIDs that the search can find

A suffix of three digits or more loses all but its first two, so there are no more than a
hundred candidates.
-/

namespace DateTime

theorem padded_length (width n : Nat) : width ≤ (padded width n).length := by
  simp only [padded, List.length_append, List.length_replicate]
  omega

theorem stamp_length (date : DateTime) : 12 ≤ date.stamp.length := by
  have year := padded_length 2 (date.year % 100)
  have month := padded_length 2 date.month
  have day := padded_length 2 date.day
  have hour := padded_length 2 date.hour
  have minute := padded_length 2 date.minute
  have second := padded_length 2 date.second
  simp only [stamp, List.length_append]
  omega

/-- A number of two digits or more needs no zeros. -/
theorem padded_two {n : Nat} (two : 10 ≤ n) : padded 2 n = Nat.toDigits 10 n := by
  have digits : ¬ (Nat.toDigits 10 n).length ≤ 1 := by
    rw [Nat.length_toDigits_le_iff (by decide) (by decide)]
    omega
  rw [padded, Nat.sub_eq_zero_of_le (by omega)]
  rfl

/-- The first two digits of a number, as a number. -/
theorem take_toDigits {n : Nat} (two : 10 ≤ n) :
    ∃ k, 10 ≤ k ∧ k < 100 ∧ (Nat.toDigits 10 n).take 2 = Nat.toDigits 10 k := by
  induction n using Nat.strongRecOn with
  | ind n ih =>
      have whole := Nat.toDigits_of_base_le (b := 10) (by decide) two
      by_cases small : n < 100
      · have digits : (Nat.toDigits 10 n).length ≤ 2 := by
          rw [Nat.length_toDigits_le_iff (by decide) (by decide)]
          exact small
        exact ⟨n, two, small, List.take_of_length_le digits⟩
      · obtain ⟨k, low, high, front⟩ := ih (n / 10) (by omega) (by omega)
        refine ⟨k, low, high, ?_⟩
        have digits : ¬ (Nat.toDigits 10 (n / 10)).length ≤ 1 := by
          rw [Nat.length_toDigits_le_iff (by decide) (by decide)]
          omega
        rw [whole, List.take_append_of_le_length (by omega)]
        exact front

end DateTime

namespace BBSStore

variable {store : BBSStore} {date : DateTime} {call base : Text}

/-- The search ends with a BID of at most twelve characters that is not taken. -/
def FindsBid (store : BBSStore) (date : DateTime) (call : Text) : Prop :=
  ∃ bid, (store.generateBid date call).Returns bid ∧ bid.length ≤ 12 ∧ store.hasBid bid = false

theorem bidBase_length (date : DateTime) (call : Text) : 12 ≤ (bidBase date call).length := by
  have stamp := date.stamp_length
  simp only [bidBase, List.length_append]
  omega

theorem candidate_length (base : Text) (i : Nat) : (candidate base i).length ≤ 12 := by
  cases i with
  | zero => exact List.length_take_le 12 base
  | succ i => exact List.length_take_le 12 _

/-- Whatever the suffix, the candidate is one of the first hundred. -/
theorem candidate_few (long : 12 ≤ base.length) (i : Nat) :
    ∃ k, k < 100 ∧ candidate base i = candidate base k := by
  by_cases few : i < 100
  · exact ⟨i, few, rfl⟩
  · obtain ⟨k, two, small, front⟩ := DateTime.take_toDigits (n := i) (by omega)
    refine ⟨k, small, ?_⟩
    obtain ⟨i, rfl⟩ := Nat.exists_eq_succ_of_ne_zero (show i ≠ 0 by omega)
    obtain ⟨k, rfl⟩ := Nat.exists_eq_succ_of_ne_zero (show k ≠ 0 by omega)
    have ten : (base.take 10).length = 10 := by
      rw [List.length_take]
      omega
    simp only [candidate, suffixed]
    rw [DateTime.padded_two (by omega), DateTime.padded_two two, List.take_append, List.take_append,
      ten, front]
    have two : (Nat.toDigits 10 (k + 1)).take 2 = Nat.toDigits 10 (k + 1) := by
      rw [← front, List.take_take, Nat.min_self]
    rw [two]

theorem generateBid_returns {bid : Text} :
    (store.generateBid date call).Returns bid ↔
      ∃ m, (∀ i, i < m → store.hasBid (candidate (bidBase date call) i) = true) ∧
        store.hasBid (candidate (bidBase date call) m) = false ∧
          bid = candidate (bidBase date call) m := by
  have search := @Fueled.returns_search Text store.hasBid (candidate (bidBase date call)) 0 bid
  simp only [Nat.zero_le, true_and, true_implies] at search
  exact search

/-- `generate_bid` returns an unused BID exactly when one of the hundred it can try is unused. -/
theorem findsBid_iff :
    store.FindsBid date call ↔
      ∃ i, i < 100 ∧ store.hasBid (candidate (bidBase date call) i) = false := by
  constructor
  · rintro ⟨bid, returned, -, free⟩
    obtain ⟨m, -, -, rfl⟩ := generateBid_returns.mp returned
    obtain ⟨k, small, same⟩ := candidate_few (bidBase_length date call) m
    exact ⟨k, small, same ▸ free⟩
  · rintro ⟨i, -, free⟩
    have some_ : ∃ i, store.hasBid (candidate (bidBase date call) i) = false := ⟨i, free⟩
    refine ⟨candidate (bidBase date call) (Nat.find some_), ?_, candidate_length _ _,
      Nat.find_spec some_⟩
    refine generateBid_returns.mpr ⟨Nat.find some_, fun i before => ?_, Nat.find_spec some_, rfl⟩
    exact (Bool.not_eq_false _).mp (Nat.find_min some_ before)

private def secondOfJanuary : DateTime := ⟨2024, 1, 2, 3, 4, 5⟩

private def heldRow (i : Nat) : Row where
  bid := suffixed (bidBase secondOfJanuary "KB3XYZ") (i + 1)
  msgType := msgPrivate
  fromCall := "KB3XYZ"
  toCall := "N0AAA"
  atBbs := ""
  subject := "Hello"
  body := "Hello"
  createdAt := none
  id := i + 1
  status := statusNew
  size := 5
  forwardPath := ""
  readBy := ""
  readAt := none

private theorem heldRow_suffix :
    ∀ i, i < 99 → Nat.ofDigitChars 10 ((heldRow i).bid.drop 10) 0 = i + 1 := by
  decide +kernel

/-- The messages of a busy month: with a call of six characters the base of a BID ends with the
month. -/
private def crowded : BBSStore where
  messages := (List.range 99).map heldRow
  sequence := 99
  ordered := by decide +kernel
  issued := by decide +kernel
  unique := by
    refine List.pairwise_map.mpr ((List.pairwise_lt_range).imp_of_mem ?_)
    intro i j first second less same
    have suffix := heldRow_suffix i (List.mem_range.mp first)
    rw [same, heldRow_suffix j (List.mem_range.mp second)] at suffix
    omega

private theorem crowded_hasBid {i : Nat} (few : i < 99) :
    crowded.hasBid (heldRow i).bid = true := by
  refine List.any_eq_true.mpr ⟨heldRow i, ?_, decide_eq_true rfl⟩
  exact List.mem_map_of_mem (List.mem_range.mpr few)

theorem crowded_searches_forever : ¬ crowded.FindsBid secondOfJanuary "KB3XYZ" := by
  rintro ⟨bid, returned, -, -⟩
  obtain ⟨m, -, free, -⟩ := generateBid_returns.mp returned
  obtain ⟨k, small, same⟩ := candidate_few (bidBase_length secondOfJanuary "KB3XYZ") m
  have taken : ∀ i, i < 100 →
      crowded.hasBid (candidate (bidBase secondOfJanuary "KB3XYZ") i) = true := by
    intro i few
    cases i with
    | zero =>
        -- The second day of the month looks like the second suffix.
        have second : candidate (bidBase secondOfJanuary "KB3XYZ") 0 = (heldRow 1).bid := by
          decide +kernel
        rw [second]
        exact crowded_hasBid (by decide)
    | succ i => exact crowded_hasBid (Nat.lt_of_succ_lt_succ few)
  rw [same, taken k small] at free
  contradiction

end BBSStore

end PyBulletin.Store
