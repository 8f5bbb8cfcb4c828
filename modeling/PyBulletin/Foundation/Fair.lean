import Mathlib.Data.Nat.Find

set_option autoImplicit false

universe u v

namespace PyBulletin.Foundation

/-! # Schedules that forget nobody

The world goes on for ever, one turn after the other, in the order of a schedule.
-/

section Course

variable {World : Type u} {Turn : Type v} (turn : World → Turn → World) (schedule : Nat → Turn)

def course (start : World) : Nat → World
  | 0 => start
  | n + 1 => turn (course start n) (schedule n)

/-- Turns of the kind come again and again. -/
def Recurs (Mine : Turn → Prop) : Prop := ∀ n, ∃ m, n ≤ m ∧ Mine (schedule m)

variable {turn} {schedule} {start : World}

theorem course_keeps {Holds : World → Prop} (kept : ∀ world next, Holds world → Holds (turn world next))
    {n m : Nat} (le : n ≤ m) (begun : Holds (course turn schedule start n)) :
    Holds (course turn schedule start m) := by
  induction le with
  | refl => exact begun
  | step _ ih => exact kept _ _ ih

theorem course_invariant {Holds : World → Prop}
    (kept : ∀ n, Holds (course turn schedule start n) →
      Holds (turn (course turn schedule start n) (schedule n)))
    (initial : Holds start) (n : Nat) : Holds (course turn schedule start n) := by
  induction n with
  | zero => exact initial
  | succ n ih => exact kept n ih

variable {Mine : Turn → Prop} {Stage : World → Nat → Prop} {Goal : World → Prop}

/-- Up to the next turn of the kind the stage stays. -/
theorem stays_until
    (steady : ∀ n rank, Stage (course turn schedule start n) rank → ¬ Mine (schedule n) →
      Goal (course turn schedule start (n + 1)) ∨ Stage (course turn schedule start (n + 1)) rank)
    {n rank : Nat} (begun : Stage (course turn schedule start n) rank) (left : Nat)
    (idle : ∀ m, n ≤ m → m < n + left → ¬ Mine (schedule m)) :
    (∃ m, n ≤ m ∧ Goal (course turn schedule start m)) ∨
      Stage (course turn schedule start (n + left)) rank := by
  induction left with
  | zero => exact .inr begun
  | succ left ih =>
      rcases ih fun m from_ below => idle m from_ (by omega) with reached | there
      · exact .inl reached
      · rcases steady (n + left) rank there (idle _ (by omega) (by omega)) with goal | stage
        · exact .inl ⟨n + left + 1, by omega, goal⟩
        · exact .inr stage

/-- A rank that the turns of a kind lower, and that the other turns keep, leads to the goal
where those turns come again and again. -/
theorem leads_to (fair : Recurs schedule Mine)
    (steady : ∀ n rank, Stage (course turn schedule start n) rank → ¬ Mine (schedule n) →
      Goal (course turn schedule start (n + 1)) ∨ Stage (course turn schedule start (n + 1)) rank)
    (falls : ∀ n rank, Stage (course turn schedule start n) rank → Mine (schedule n) →
      Goal (course turn schedule start (n + 1)) ∨
        ∃ lower, lower < rank ∧ Stage (course turn schedule start (n + 1)) lower)
    {n rank : Nat} (begun : Stage (course turn schedule start n) rank) :
    ∃ m, n ≤ m ∧ Goal (course turn schedule start m) := by
  induction rank using Nat.strongRecOn generalizing n with
  | ind rank ih =>
      classical
      have next := Nat.find_spec (fair n)
      have first (m : Nat) (from_ : n ≤ m) (before : m < Nat.find (fair n)) : ¬ Mine (schedule m) :=
        fun mine => Nat.find_min (fair n) before ⟨from_, mine⟩
      obtain ⟨left, here⟩ := Nat.exists_eq_add_of_le next.1
      rcases stays_until steady begun left fun m from_ before => first m from_ (by omega) with
        reached | there
      · exact reached
      · rw [← here] at there
        rcases falls _ rank there next.2 with goal | ⟨lower, less, stage⟩
        · exact ⟨_, by omega, goal⟩
        · obtain ⟨m, le, goal⟩ := ih lower less stage
          exact ⟨m, by omega, goal⟩

end Course

end PyBulletin.Foundation
