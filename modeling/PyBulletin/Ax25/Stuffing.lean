import PyBulletin.Ax25.HdlcRoundTrip

set_option autoImplicit false

namespace PyBulletin.Ax25.Hdlc

/-- What `bit_unstuff` still has to read, behind `ones` ones and where it may wait for a
stuffed zero, to return `bits`. -/
def awaited (ones : Nat) (skipZero : Bool) (bits : Bits) : Bits :=
  if skipZero then false :: stuffFrom 0 bits else stuffFrom ones bits

theorem awaited_one {ones : Nat} (bits : Bits) :
    true :: awaited (ones + 1) (ones + 1 = 5) bits = awaited ones false (true :: bits) := by
  by_cases five : ones + 1 = 5
  · simp [awaited, stuffFrom, five]
  · simp [awaited, stuffFrom, five]

/-- The two loops go in lockstep: what was read is what the sender writes for the result. -/
theorem eq_awaited {ones : Nat} {skipZero : Bool} {bits stuffed : Bits}
    (few : skipZero = false → ones < 5) (accepted : unstuffFrom ones skipZero stuffed = some bits) :
    stuffed = awaited ones skipZero bits := by
  induction stuffed generalizing ones skipZero bits with
  | nil =>
      cases skipZero with
      | true => simp [unstuffFrom] at accepted
      | false =>
          obtain rfl : [] = bits := by simpa [unstuffFrom] using accepted
          rfl
  | cons bit stuffed ih =>
      cases skipZero with
      | true =>
          cases bit with
          | true => simp [unstuffFrom] at accepted
          | false => exact congrArg (false :: ·) (ih (fun _ => by decide) accepted)
      | false =>
          have room := few rfl
          cases bit with
          | true =>
              obtain ⟨rest, went, rfl⟩ := Option.map_eq_some_iff.mp accepted
              have more : decide (ones + 1 = 5) = false → ones + 1 < 5 := by
                intro other
                have := of_decide_eq_false other
                omega
              rw [ih more went]
              exact awaited_one rest
          | false =>
              obtain ⟨rest, went, rfl⟩ := Option.map_eq_some_iff.mp accepted
              exact congrArg (false :: ·) (ih (fun _ => by decide) went)

theorem bitUnstuff_eq_some_iff {bits stuffed : Bits} :
    bitUnstuff stuffed = some bits ↔ stuffed = bitStuff bits := by
  constructor
  · exact eq_awaited fun _ => by decide
  · rintro rfl
    have undone := unstuffFrom_stuffFrom (show 0 < 5 by decide) bits 0
    rwa [List.replicate_zero, List.append_nil, List.append_nil] at undone

/-- Ones at the front of stuffed bits make a run of at most five with those before. -/
theorem run_stuffed {ones run : Nat} (few : ones < 5) {bits : Bits}
    (front : List.replicate run true <+: stuffFrom ones bits) : run + ones ≤ 5 := by
  induction bits generalizing ones run with
  | nil =>
      have none_ : run = 0 := by simpa [stuffFrom] using front
      omega
  | cons bit bits ih =>
      cases run with
      | zero => omega
      | succ run =>
          rw [List.replicate_succ] at front
          cases bit with
          | false => simp [stuffFrom] at front
          | true =>
              by_cases five : ones + 1 = 5
              · cases run with
                | zero => omega
                | succ run => simp [stuffFrom, five, List.replicate_succ] at front
              · have rest : List.replicate run true <+: stuffFrom (ones + 1) bits := by
                  simpa [stuffFrom, five] using front
                have := ih (show ones + 1 < 5 by omega) rest
                omega

theorem no_six_ones {ones : Nat} (few : ones < 5) (bits : Bits) :
    ¬ List.replicate 6 true <:+: stuffFrom ones bits := by
  induction bits generalizing ones with
  | nil => simp [stuffFrom]
  | cons bit bits ih =>
      intro six
      have start : ¬ List.replicate 6 true <+: stuffFrom ones (bit :: bits) := by
        intro front
        have := run_stuffed few front
        omega
      cases bit with
      | false =>
          rcases List.infix_cons_iff.mp six with front | later
          · exact start front
          · exact ih (by decide) later
      | true =>
          by_cases five : ones + 1 = 5
          · simp only [stuffFrom, five, if_true] at six start
            rcases List.infix_cons_iff.mp six with front | later
            · exact start front
            · rcases List.infix_cons_iff.mp later with front | later
              · simp [List.replicate_succ] at front
              · exact ih (by decide) later
          · simp only [stuffFrom, five, if_false] at six start
            rcases List.infix_cons_iff.mp six with front | later
            · exact start front
            · exact ih (by omega) later

/-- Unstuffing takes back stuffing, refuses everything else, and no stuffed string has six ones
in a row. -/
theorem stuffing_bijective (bits stuffed : Bits) :
    (bitUnstuff stuffed = some bits ↔ stuffed = bitStuff bits) ∧
      bitUnstuff (bitStuff bits) = some bits ∧
      (bitUnstuff stuffed = none ↔ ∀ other, stuffed ≠ bitStuff other) ∧
      ¬ List.replicate 6 true <:+: bitStuff bits := by
  refine ⟨bitUnstuff_eq_some_iff, bitUnstuff_eq_some_iff.mpr rfl, ?_, no_six_ones (by decide) bits⟩
  rw [Option.eq_none_iff_forall_ne_some]
  exact forall_congr' fun other => not_congr bitUnstuff_eq_some_iff

example : bitUnstuff (bitStuff [true, true, true, true, true]) = some [true, true, true, true, true] := by
  decide

end PyBulletin.Ax25.Hdlc
