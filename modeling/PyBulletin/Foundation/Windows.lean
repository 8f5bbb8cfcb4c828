import Mathlib.Data.List.Basic
import Mathlib.Data.PNat.Basic
import PyBulletin.Foundation.Chunks

set_option autoImplicit false

namespace PyBulletin.Foundation

/-! # Cutting a buffer into windows

A generator gives the length of each window.  It has moved on to the next one before it turns
out that the buffer is too short for a window.
-/

namespace Windows

variable {σ α : Type} (next : σ → ℕ+ × σ)

/-- The complete windows, the state of the generator and what is left of the buffer. -/
def cut (state : σ) (buffer : List α) : List (List α) × σ × List α :=
  if buffer.length < (next state).1 then ([], (next state).2, buffer)
  else
    let later := cut (next state).2 (buffer.drop (next state).1)
    (buffer.take (next state).1 :: later.1, later.2)
termination_by buffer.length
decreasing_by
  have positive := (next state).1.pos
  rw [List.length_drop]
  omega

/-- The windows of successive calls, each on what the one before has left and a new block. -/
def feed (state : σ) (buffer : List α) : List (List α) → List (List α)
  | [] => []
  | block :: blocks =>
      let called := cut next state (buffer ++ block)
      called.1 ++ feed called.2.1 called.2.2 blocks

/-- The length of the window number `n`. -/
def lengthAt (state : σ) : Nat → Nat
  | 0 => (next state).1
  | n + 1 => lengthAt (next state).2 n

/-- How many items the first `n` windows take. -/
def total (state : σ) : Nat → Nat
  | 0 => 0
  | n + 1 => (next state).1 + total (next state).2 n

variable {next} {state : σ}

theorem cut_short (next : σ → ℕ+ × σ) {state : σ} {buffer : List α} (short : buffer.length < (next state).1) :
    cut next state buffer = ([], (next state).2, buffer) := by
  rw [cut, if_pos short]

theorem cut_long (next : σ → ℕ+ × σ) {state : σ} {buffer : List α} (long : ((next state).1 : Nat) ≤ buffer.length) :
    cut next state buffer =
      (buffer.take (next state).1 :: (cut next (next state).2 (buffer.drop (next state).1)).1,
        (cut next (next state).2 (buffer.drop (next state).1)).2) := by
  rw [cut, if_neg (Nat.not_lt.mpr long)]

/-- The windows that fit have the lengths that the generator gives. -/
theorem length_cut (next : σ → ℕ+ × σ) {state : σ} {buffer : List α} {n : Nat} (fits : total next state (n + 1) ≤ buffer.length) :
    (cut next state buffer).1[n]?.map List.length = some (lengthAt next state n) := by
  have long : ((next state).1 : Nat) ≤ buffer.length := by
    unfold total at fits
    omega
  rw [cut_long next long]
  induction n generalizing state buffer with
  | zero => simp [lengthAt, long]
  | succ n ih =>
      have rest : total next (next state).2 (n + 1) ≤ (buffer.drop (next state).1).length := by
        rw [total] at fits
        rw [List.length_drop]
        omega
      have longer : ((next (next state).2).1 : Nat) ≤ (buffer.drop (next state).1).length := by
        unfold total at rest
        omega
      rw [List.getElem?_cons_succ, cut_long next longer]
      exact ih rest longer

/-- From here on all windows have one length. -/
def Steady (next : σ → ℕ+ × σ) (length : ℕ+) (state : σ) : Prop :=
  ∀ n, lengthAt next state n = length

/-- The generator of windows of one length. -/
def always (length : ℕ+) (_ : Unit) : ℕ+ × Unit := (length, ())

variable {length : ℕ+}

theorem Steady.head (steady : Steady next length state) : (next state).1 = length :=
  PNat.coe_injective (steady 0)

theorem Steady.tail (steady : Steady next length state) : Steady next length (next state).2 :=
  fun n => steady (n + 1)

theorem Steady.total (steady : Steady next length state) (n : Nat) :
    total next state n = n * length := by
  induction n generalizing state with
  | zero => exact (Nat.zero_mul _).symm
  | succ n ih => rw [Windows.total, steady.head, ih steady.tail, Nat.succ_mul, Nat.add_comm]

/-- A property that the generator keeps and that fixes the length. -/
theorem steady_of_invariant (Invariant : σ → Prop)
    (kept : ∀ state, Invariant state → (next state).1 = length ∧ Invariant (next state).2)
    (initial : Invariant state) : Steady next length state := by
  intro n
  induction n generalizing state with
  | zero => exact congrArg _ (kept state initial).1
  | succ n ih => exact ih (kept state initial).2

theorem cut_steady (steady : Steady next length state) (buffer : List α) :
    (cut next state buffer).1 = (cut (always length) () buffer).1 ∧
      (cut next state buffer).2.2 = (cut (always length) () buffer).2.2 ∧
      Steady next length (cut next state buffer).2.1 := by
  induction size : buffer.length using Nat.strong_induction_on generalizing state buffer with
  | _ size ih =>
      have head := steady.head
      by_cases short : buffer.length < length
      · rw [cut_short next (head ▸ short), cut_short (always length) short]
        exact ⟨rfl, rfl, steady.tail⟩
      · have positive := length.pos
        obtain ⟨windows, left, after⟩ :=
          ih (buffer.drop length).length (by rw [List.length_drop]; omega) steady.tail _ rfl
        rw [cut_long next (head ▸ Nat.not_lt.mp short),
          cut_long (always length) (Nat.not_lt.mp short), head]
        exact ⟨congrArg _ windows, left, after⟩

theorem cut_always_append (front back : List α) :
    (cut (always length) () (front ++ back)).1 =
      (cut (always length) () front).1 ++
        (cut (always length) () ((cut (always length) () front).2.2 ++ back)).1 := by
  induction size : front.length using Nat.strong_induction_on generalizing front with
  | _ size ih =>
      by_cases short : front.length < length
      · rw [cut_short (always length) (show front.length < length from short)]
        rfl
      · have positive := length.pos
        have fits := Nat.not_lt.mp short
        have more : ((always length ()).1 : Nat) ≤ (front ++ back).length := by
          rw [List.length_append]
          exact Nat.le_add_right_of_le fits
        have rest := ih (front.drop length).length (by rw [List.length_drop]; omega) _ rfl
        rw [cut_long (always length) more, cut_long (always length) (show (length : Nat) ≤ front.length from fits), always,
          List.take_append_of_le_length fits, List.drop_append_of_le_length fits]
        exact congrArg (front.take length :: ·) rest

theorem cut_always_resumes :
    Resumes (fun buffer : List α => ((cut (always length) () buffer).1,
      (cut (always length) () buffer).2.2)) fun _ => True :=
  fun front back _ => ⟨cut_always_append front back, trivial⟩

theorem feed_steady (steady : Steady next length state) (buffer : List α)
    (blocks : List (List α)) :
    feed next state buffer blocks =
      (drain (fun buffer => ((cut (always length) () buffer).1,
        (cut (always length) () buffer).2.2)) buffer blocks).1 := by
  induction blocks generalizing state buffer with
  | nil => rfl
  | cons block blocks ih =>
      obtain ⟨windows, left, after⟩ := cut_steady steady (buffer ++ block)
      rw [feed, drain]
      dsimp only
      rw [ih after, windows, left]

/-- How the items are cut into blocks makes no difference exactly if all windows have one
length: a call moves the generator on by one window more than it finds. -/
theorem feed_eq_iff [Inhabited α] :
    (∀ blocks : List (List α), feed next state [] blocks = feed next state [] [blocks.flatten]) ↔
      Steady next (next state).1 state := by
  constructor
  · intro immaterial
    have shifted (n : Nat) : lengthAt next state (n + 1) = lengthAt next state n := by
      let count := total next state (n + 1) + total next (next state).2 (n + 1)
      let items : List α := List.replicate count default
      have size : items.length = count := List.length_replicate
      have same : (cut next (next state).2 items).1 = (cut next state items).1 := by
        have both := immaterial [[], items]
        simp only [feed, List.flatten_cons, List.flatten_nil, List.append_nil, List.nil_append] at both
        rw [cut_short next (show ([] : List α).length < (next state).1 from (next state).1.pos)] at both
        exact both
      have late := length_cut next (show total next (next state).2 (n + 1) ≤ items.length by omega)
      have early := length_cut next (show total next state (n + 1) ≤ items.length by omega)
      rw [same, early] at late
      exact (Option.some.inj late).symm
    intro n
    induction n with
    | zero => rfl
    | succ n ih => rw [shifted, ih]
  · intro steady blocks
    have empty : (cut (always (next state).1) () ([] : List α)).1 = [] := by
      rw [cut_short (always (next state).1) (show ([] : List α).length < _ from (next state).1.pos)]
    rw [feed_steady steady, feed_steady steady, cut_always_resumes.drain_eq empty trivial,
      cut_always_resumes.drain_eq empty trivial, List.flatten_singleton]

end Windows

end PyBulletin.Foundation
