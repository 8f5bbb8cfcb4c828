import Mathlib.Data.Rat.Floor
import Mathlib.Tactic.Linarith
import Mathlib.Tactic.FieldSimp
import PyBulletin.Foundation.Windows

set_option autoImplicit false

namespace PyBulletin.Transport.Afsk

open PyBulletin.Foundation

/-- `int(x)`, towards zero. -/
def int (x : ℚ) : ℤ := x.num.tdiv x.den

/-- `_next_symbol_len`, with `_sym_frac` as the state. -/
def nextSymbolLen (samplesPerSymbol symFrac : ℚ) : ℕ+ × ℚ :=
  let symFrac := symFrac + samplesPerSymbol
  let n := int symFrac
  if positive : 0 < n then (⟨n.toNat, Int.pos_iff_toNat_pos.mp positive⟩, symFrac - n)
  else (1, symFrac - 1)

/-- `Bell202Demodulator` in front of its symbol decisions. -/
structure Bell202Demodulator (Sample : Type) where
  samplesPerSymbol : ℚ
  symFrac : ℚ := 0
  sampleBuf : List Sample := []

namespace Bell202Demodulator

variable {Sample : Type}

def init (sampleRate baud : ℕ+) : Bell202Demodulator Sample where
  samplesPerSymbol := (sampleRate : ℚ) / (baud : ℚ)

/-- The windows that `feed_samples` passes to `_classify_symbol`. -/
def feedSamples (demodulator : Bell202Demodulator Sample) (samples : List Sample) :
    List (List Sample) × Bell202Demodulator Sample :=
  let (windows, symFrac, sampleBuf) := Windows.cut (nextSymbolLen demodulator.samplesPerSymbol)
    demodulator.symFrac (demodulator.sampleBuf ++ samples)
  (windows, { demodulator with symFrac, sampleBuf })

/-- The windows of successive calls. -/
def feedAll (demodulator : Bell202Demodulator Sample) : List (List Sample) → List (List Sample)
  | [] => []
  | samples :: blocks =>
      let (windows, demodulator) := demodulator.feedSamples samples
      windows ++ demodulator.feedAll blocks

end Bell202Demodulator

section Lengths

variable {samplesPerSymbol symFrac : ℚ}

theorem int_of_nonneg {x : ℚ} (nonneg : 0 ≤ x) : int x = ⌊x⌋ := by
  rw [int, Rat.floor_def', Int.tdiv_eq_ediv_of_nonneg (Rat.num_nonneg.mpr nonneg)]

theorem int_of_lt_one {x : ℚ} (small : x < 1) : int x ≤ 0 := by
  by_cases nonneg : 0 ≤ x
  · rw [int_of_nonneg nonneg]
    exact Int.lt_add_one_iff.mp (Int.floor_lt.mpr (by simpa using small))
  · have negative : x.num ≤ 0 := Rat.num_nonpos.mpr (le_of_not_ge nonneg)
    have reversed := Int.tdiv_nonneg (Int.neg_nonneg.mpr negative) (Int.natCast_nonneg x.den)
    rw [Int.neg_tdiv] at reversed
    exact Int.neg_nonneg.mp reversed

/-- Below one sample for each symbol, a symbol is one sample. -/
theorem nextSymbolLen_fast (fast : samplesPerSymbol < 1) (behind : symFrac ≤ 0) :
    nextSymbolLen samplesPerSymbol symFrac = (1, symFrac + samplesPerSymbol - 1) := by
  have none := int_of_lt_one (show symFrac + samplesPerSymbol < 1 by linarith)
  rw [nextSymbolLen, dif_neg (Int.not_lt.mpr none)]

/-- Else a symbol ends at the last whole sample. -/
theorem nextSymbolLen_slow (slow : 1 ≤ samplesPerSymbol) (ahead : 0 ≤ symFrac) :
    ((nextSymbolLen samplesPerSymbol symFrac).1 : ℤ) = ⌊symFrac + samplesPerSymbol⌋ ∧
      (nextSymbolLen samplesPerSymbol symFrac).2 = Int.fract (symFrac + samplesPerSymbol) := by
  have whole := int_of_nonneg (show 0 ≤ symFrac + samplesPerSymbol by linarith)
  have some : 0 < int (symFrac + samplesPerSymbol) := by
    rw [whole]
    exact Int.floor_pos.mpr (by linarith)
  rw [nextSymbolLen, dif_pos some]
  refine ⟨?_, ?_⟩
  · rw [← whole]
    exact Int.toNat_of_nonneg some.le
  · rw [Int.fract, ← whole]

/-- The ends of the symbols are the multiples of the symbol length, rounded down. -/
theorem total_slow (slow : 1 ≤ samplesPerSymbol) (ahead : 0 ≤ symFrac) (n : Nat) :
    (Windows.total (nextSymbolLen samplesPerSymbol) symFrac (n + 1) : ℤ) =
      ⌊symFrac + (n + 1 : Nat) * samplesPerSymbol⌋ := by
  induction n generalizing symFrac with
  | zero =>
      have length := (nextSymbolLen_slow slow ahead).1
      simpa [Windows.total] using length
  | succ n ih =>
      obtain ⟨length, left⟩ := nextSymbolLen_slow slow ahead
      have nonneg := Int.fract_nonneg (symFrac + samplesPerSymbol)
      rw [Windows.total, Nat.cast_add, left, ih nonneg]
      rw [show (((nextSymbolLen samplesPerSymbol symFrac).1 : ℕ) : ℤ) = _ from length]
      rw [← Int.floor_intCast_add]
      congr 1
      have parts := Int.floor_add_fract (symFrac + samplesPerSymbol)
      push_cast
      linarith

variable {sampleRate baud : ℕ+}

theorem steady_iff :
    Windows.Steady (nextSymbolLen ((sampleRate : ℚ) / (baud : ℚ)))
        (nextSymbolLen ((sampleRate : ℚ) / (baud : ℚ)) 0).1 0 ↔
      (baud : ℕ) ∣ sampleRate ∨ sampleRate < baud := by
  have positive : (0 : ℚ) < (baud : ℕ) := Nat.cast_pos.mpr baud.pos
  by_cases fast : sampleRate < baud
  · have below : ((sampleRate : ℕ) : ℚ) / ((baud : ℕ) : ℚ) < 1 :=
      (div_lt_one positive).mpr (Nat.cast_lt.mpr fast)
    refine iff_of_true ?_ (.inr fast)
    refine Windows.steady_of_invariant (fun symFrac : ℚ => symFrac ≤ 0)
      (fun symFrac behind => ?_) (le_refl 0)
    rw [nextSymbolLen_fast below behind, nextSymbolLen_fast below (le_refl 0)]
    exact ⟨rfl, by dsimp only; linarith⟩
  · have slow : 1 ≤ ((sampleRate : ℕ) : ℚ) / ((baud : ℕ) : ℚ) :=
      (one_le_div positive).mpr (Nat.cast_le.mpr (not_lt.mp fast))
    rw [or_iff_left fast]
    constructor
    · intro steady
      have sum := steady.total baud
      have ended := total_slow slow (le_refl 0) ((baud : ℕ) - 1)
      rw [Nat.sub_add_cancel baud.pos, zero_add, mul_div_cancel₀ _ positive.ne', sum,
        Int.floor_natCast] at ended
      exact ⟨_, (Int.natCast_inj.mp ended).symm⟩
    · rintro ⟨count, whole⟩
      have exact_ : ((sampleRate : ℕ) : ℚ) / ((baud : ℕ) : ℚ) = (count : ℕ) := by
        rw [whole, Nat.cast_mul, mul_div_cancel_left₀ _ positive.ne']
      rw [exact_] at slow ⊢
      obtain ⟨length, left⟩ := nextSymbolLen_slow slow (le_refl 0)
      refine Windows.steady_of_invariant (fun symFrac : ℚ => symFrac = 0) ?_ rfl
      rintro _ rfl
      exact ⟨rfl, by rw [left, zero_add, Int.fract_natCast]⟩

end Lengths

namespace Bell202Demodulator

variable {Sample : Type}

theorem feedAll_eq_feed (demodulator : Bell202Demodulator Sample) (blocks : List (List Sample)) :
    demodulator.feedAll blocks = Windows.feed (nextSymbolLen demodulator.samplesPerSymbol)
      demodulator.symFrac demodulator.sampleBuf blocks := by
  induction blocks generalizing demodulator with
  | nil => rfl
  | cons samples blocks ih =>
      rw [feedAll, Windows.feed]
      exact congrArg _ (ih _)

/-- The blocks in which audio arrives make no difference exactly if all symbols have the same
number of samples. -/
theorem blocks_immaterial_iff [Inhabited Sample] (sampleRate baud : ℕ+) :
    (∀ blocks : List (List Sample),
      (init sampleRate baud).feedAll blocks = (init sampleRate baud).feedAll [blocks.flatten]) ↔
      (baud : ℕ) ∣ sampleRate ∨ sampleRate < baud := by
  simp only [feedAll_eq_feed]
  exact Windows.feed_eq_iff.trans steady_iff

/-- Behind a block of one sample the first symbol has 37 samples instead of 36. -/
theorem fractional_blocks_differ :
    (init 44100 1200).feedAll [[(0 : ℚ)], List.replicate 79 0] ≠
      (init 44100 1200).feedAll [List.replicate 80 0] := by
  intro same
  simp only [feedAll_eq_feed, Windows.feed, List.append_nil] at same
  let next := nextSymbolLen ((44100 : ℕ+) / (1200 : ℕ+))
  have first : next 0 = (36, 3 / 4) := by decide +kernel
  have second : next (3 / 4) = (37, 1 / 2) := by decide +kernel
  have whole := Windows.length_cut next
    (show Windows.total next 0 1 ≤ (List.replicate 80 (0 : ℚ)).length by
      rw [Windows.total, first]
      decide)
  have parted := Windows.length_cut next
    (show Windows.total next (3 / 4) 1 ≤ (List.replicate 80 (0 : ℚ)).length by
      rw [Windows.total, second]
      decide)
  have waits : Windows.cut next 0 [(0 : ℚ)] = ([], 3 / 4, [0]) := by
    rw [Windows.cut_short next (by rw [first]; decide), first]
  change (Windows.cut next 0 [0]).1 ++ (Windows.cut next (Windows.cut next 0 [0]).2.1
    ((Windows.cut next 0 [0]).2.2 ++ List.replicate 79 0)).1 =
      (Windows.cut next 0 (List.replicate 80 0)).1 at same
  rw [waits] at same
  change (Windows.cut next (3 / 4) (List.replicate 80 0)).1 = _ at same
  rw [same, whole, Windows.lengthAt, Windows.lengthAt, first, second] at parted
  contradiction

end Bell202Demodulator

end PyBulletin.Transport.Afsk
