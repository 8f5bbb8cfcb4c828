import Mathlib.Logic.Function.Iterate

set_option autoImplicit false

namespace PyBulletin.Foundation.Crc

/-! # Cyclic redundancy checks as shift registers

A reflected check of width `w`: each bit is added to the low place of the register, which is
then shifted down, with `poly` added for a one that falls out.  Addition is exclusive or.
-/

variable {w : Nat} (poly : BitVec w)

def shift (state : BitVec w) : BitVec w :=
  if state.getLsbD 0 then (state >>> 1) ^^^ poly else state >>> 1

/-- A bit in the low place. -/
def low (bit : Bool) : BitVec w := (BitVec.ofBool bit).setWidth w

def feed (state : BitVec w) (bit : Bool) : BitVec w := shift poly (state ^^^ low bit)

def run (state : BitVec w) (bits : List Bool) : BitVec w := bits.foldl (feed poly) state

/-- The bits as a number, the first one in the low place. -/
def word : List Bool → BitVec w
  | [] => 0#w
  | bit :: bits => low bit ^^^ (word bits <<< 1)

@[simp] theorem shift_zero : shift poly 0#w = 0#w := by
  simp [shift]

theorem shift_xor (left right : BitVec w) :
    shift poly (left ^^^ right) = shift poly left ^^^ shift poly right := by
  unfold shift
  rw [BitVec.getLsbD_xor, BitVec.ushiftRight_xor_distrib]
  cases left.getLsbD 0 with
  | false =>
      cases right.getLsbD 0 with
      | false => rfl
      | true => exact BitVec.xor_assoc _ _ _
  | true =>
      cases right.getLsbD 0 with
      | false =>
          simp only [Bool.xor_false, Bool.false_eq_true, if_true, if_false]
          ac_rfl
      | true =>
          have cancels : poly ^^^ poly = 0#w := BitVec.xor_self
          simp only [Bool.xor_self, Bool.false_eq_true, if_true, if_false]
          calc (left >>> 1) ^^^ (right >>> 1)
              = (left >>> 1) ^^^ (right >>> 1) ^^^ (poly ^^^ poly) := by rw [cancels, BitVec.xor_zero]
            _ = (left >>> 1) ^^^ poly ^^^ ((right >>> 1) ^^^ poly) := by ac_rfl

/-- What is not a multiple of the top place survives a shift down. -/
theorem eq_zero_of_ushiftRight {state : BitVec w} (even : state.getLsbD 0 = false)
    (gone : state >>> 1 = 0#w) : state = 0#w := by
  apply BitVec.eq_of_getLsbD_eq
  intro i bound
  rw [BitVec.getLsbD_zero]
  cases i with
  | zero => exact even
  | succ i =>
      have place : (state >>> 1).getLsbD i = false := by rw [gone, BitVec.getLsbD_zero]
      rwa [BitVec.getLsbD_ushiftRight, Nat.add_comm] at place

variable {poly}

/-- With the top bit of `poly` set, a shift loses nothing. -/
theorem eq_zero_of_shift (top : poly.getLsbD (w - 1) = true) {state : BitVec w}
    (gone : shift poly state = 0#w) : state = 0#w := by
  unfold shift at gone
  split at gone
  · have same : state >>> 1 = poly := BitVec.xor_eq_zero_iff.mp gone
    have above : (state >>> 1).getLsbD (w - 1) = false := by
      rw [BitVec.getLsbD_ushiftRight]
      exact BitVec.getLsbD_of_ge _ _ (by omega)
    rw [same, top] at above
    contradiction
  · rename_i even
    exact eq_zero_of_ushiftRight (Bool.eq_false_iff.mpr even) gone

theorem shift_injective (top : poly.getLsbD (w - 1) = true) :
    Function.Injective (shift poly) := by
  intro left right same
  apply BitVec.xor_eq_zero_iff.mp
  apply eq_zero_of_shift top
  rw [shift_xor, same, BitVec.xor_self]

variable (poly)

@[simp] theorem iterate_shift_zero (n : Nat) : (shift poly)^[n] 0#w = 0#w := by
  induction n with
  | zero => rfl
  | succ n ih => rw [Function.iterate_succ_apply, shift_zero, ih]

@[simp] theorem low_false : (low false : BitVec w) = 0#w := by
  simp [low]

theorem low_xor (left right : Bool) : (low (left ^^ right) : BitVec w) = low left ^^^ low right := by
  cases left <;> cases right <;> simp [low]

@[simp] theorem run_nil (state : BitVec w) : run poly state [] = state := rfl

@[simp] theorem run_cons (state : BitVec w) (bit : Bool) (bits : List Bool) :
    run poly state (bit :: bits) = run poly (feed poly state bit) bits := rfl

theorem run_append (state : BitVec w) (front back : List Bool) :
    run poly state (front ++ back) = run poly (run poly state front) back := List.foldl_append

/-- The register is linear in its state and its input. -/
theorem run_xor (state error : BitVec w) {bits errors : List Bool}
    (aligned : bits.length = errors.length) :
    run poly (state ^^^ error) (List.zipWith xor bits errors) =
      run poly state bits ^^^ run poly error errors := by
  induction bits generalizing state error errors with
  | nil =>
      cases errors with
      | nil => rfl
      | cons flip errors => contradiction
  | cons bit bits ih =>
      cases errors with
      | nil => contradiction
      | cons flip errors =>
          have split : feed poly (state ^^^ error) (bit ^^ flip) =
              feed poly state bit ^^^ feed poly error flip := by
            unfold feed
            rw [← shift_xor, low_xor]
            congr 1
            ac_rfl
          rw [List.zipWith_cons_cons, run_cons, split, ih _ _ (Nat.succ.inj aligned)]
          rfl

theorem run_zeros (state : BitVec w) {bits : List Bool} (zeros : true ∉ bits) :
    run poly state bits = (shift poly)^[bits.length] state := by
  induction bits generalizing state with
  | nil => rfl
  | cons bit bits ih =>
      have others : true ∉ bits := fun one => zeros (List.mem_cons_of_mem bit one)
      have clear : bit = false := Bool.eq_false_iff.mpr fun one => zeros (one ▸ List.mem_cons_self)
      rw [run_cons, ih _ others, clear, feed, low_false, BitVec.xor_zero]
      rfl

theorem getLsbD_low {bit : Bool} {i : Nat} (bound : i < w) :
    (low bit : BitVec w).getLsbD i = (decide (i = 0) && bit) := by
  unfold low
  rw [BitVec.getLsbD_setWidth, BitVec.getLsbD_ofBool, decide_eq_true bound, Bool.true_and]

/-- The bits of a word are those it is made of. -/
theorem getLsbD_word (bits : List Bool) {i : Nat} (bound : i < w) :
    (word bits : BitVec w).getLsbD i = bits[i]?.getD false := by
  induction bits generalizing i with
  | nil => simp [word]
  | cons bit bits ih =>
      rw [word, BitVec.getLsbD_xor, getLsbD_low bound, BitVec.getLsbD_shiftLeft]
      cases i with
      | zero => simp
      | succ i => simp [bound, ih (Nat.lt_of_succ_lt bound)]

theorem word_append (front back : List Bool) :
    (word (front ++ back) : BitVec w) = word front ^^^ (word back <<< front.length) := by
  induction front with
  | nil => rw [List.nil_append, word, BitVec.zero_xor, List.length_nil, BitVec.shiftLeft_zero]
  | cons bit front ih =>
      rw [List.cons_append, word, ih, word, BitVec.shiftLeft_xor_distrib, ← BitVec.shiftLeft_add,
        BitVec.xor_assoc, List.length_cons]

/-- Bits that fit into the register with a place to spare are shifted down unharmed. -/
theorem shift_word {bits : List Bool} (short : bits.length < w) :
    shift poly (word bits <<< 1) = word bits := by
  have even : (word bits <<< 1 : BitVec w).getLsbD 0 = false := by
    rw [BitVec.getLsbD_shiftLeft]
    simp
  rw [shift, even, if_neg Bool.false_ne_true]
  apply BitVec.eq_of_getLsbD_eq
  intro i bound
  rw [BitVec.getLsbD_ushiftRight, BitVec.getLsbD_shiftLeft]
  by_cases inside : 1 + i < w
  · simp [inside]
  · have behind : bits[i]? = none := List.getElem?_eq_none (by omega)
    rw [getLsbD_word bits bound, behind]
    simp [inside]

/-- Up to `w` bits act on the register as one word. -/
theorem run_word (state : BitVec w) {bits : List Bool} (short : bits.length ≤ w) :
    run poly state bits = (shift poly)^[bits.length] (state ^^^ word bits) := by
  induction bits generalizing state with
  | nil => rw [word, BitVec.xor_zero]; rfl
  | cons bit bits ih =>
      have shifted := shift_word poly (show bits.length < w from short)
      calc run poly state (bit :: bits)
          = (shift poly)^[bits.length] (feed poly state bit ^^^ word bits) :=
            ih _ (Nat.le_of_lt short)
        _ = (shift poly)^[bits.length] (shift poly (state ^^^ low bit ^^^ (word bits <<< 1))) := by
            rw [shift_xor, shifted]
            rfl
        _ = (shift poly)^[bits.length + 1] (state ^^^ word (bit :: bits)) := by
            rw [Function.iterate_succ_apply, word, BitVec.xor_assoc]

theorem word_ne_zero {bits : List Bool} (short : bits.length ≤ w) (hit : true ∈ bits) :
    (word bits : BitVec w) ≠ 0#w := by
  intro zero
  obtain ⟨i, bound, one⟩ := List.getElem_of_mem hit
  have place := getLsbD_word bits (Nat.lt_of_lt_of_le bound short)
  rw [zero, BitVec.getLsbD_zero, List.getElem?_eq_getElem bound, one] at place
  contradiction

/-- A burst leaves its trace in the register, whatever number of zeros is around it. -/
theorem run_burst_ne_zero {poly : BitVec w} (top : poly.getLsbD (w - 1) = true)
    {errors : List Bool} {start : Nat}
    (burst : ∀ i, errors[i]? = some true → start ≤ i ∧ i < start + w) (hit : true ∈ errors) :
    run poly 0#w errors ≠ 0#w := by
  have quiet {part : List Bool} (offset : Nat)
      (placed : ∀ i, i < part.length → part[i]? = errors[offset + i]?)
      (outside : ∀ i, i < part.length → offset + i < start ∨ start + w ≤ offset + i) :
      true ∉ part := by
    intro one
    obtain ⟨i, bound, set⟩ := List.getElem_of_mem one
    have found : errors[offset + i]? = some true := by
      rw [← placed i bound, List.getElem?_eq_getElem bound, set]
    have inside := burst (offset + i) found
    have apart := outside i bound
    omega
  have front : true ∉ errors.take start := by
    refine quiet 0 (fun i bound => ?_) (fun i bound => ?_)
    · rw [List.length_take] at bound
      rw [List.getElem?_take_of_lt (by omega), Nat.zero_add]
    · rw [List.length_take] at bound
      omega
  have back : true ∉ errors.drop (start + w) := by
    refine quiet (start + w) (fun i _ => ?_) (fun i _ => .inr (Nat.le_add_right _ _))
    rw [List.getElem?_drop]
  let middle := (errors.drop start).take w
  have short : middle.length ≤ w := List.length_take_le _ _
  have parts : errors = errors.take start ++ (middle ++ errors.drop (start + w)) := by
    rw [← List.drop_drop, List.take_append_drop, List.take_append_drop]
  have struck : true ∈ middle := by
    rw [parts] at hit
    rcases List.mem_append.mp hit with early | late
    · exact absurd early front
    · exact (List.mem_append.mp late).resolve_right back
  have trace : (shift poly)^[middle.length] (word middle) ≠ 0#w := by
    intro gone
    rw [← iterate_shift_zero poly middle.length] at gone
    exact word_ne_zero short struck ((shift_injective top).iterate _ gone)
  rw [parts, run_append, run_append, run_zeros poly _ front, iterate_shift_zero,
    run_word poly _ short, BitVec.zero_xor, run_zeros poly _ back]
  intro gone
  rw [← iterate_shift_zero poly (errors.drop (start + w)).length] at gone
  exact trace ((shift_injective top).iterate _ gone)

end PyBulletin.Foundation.Crc
