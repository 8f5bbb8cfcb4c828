import Mathlib.Logic.Relation
import PyBulletin.Foundation.Stateful

set_option autoImplicit false

universe u v

namespace PyBulletin.Foundation.Stateful

variable {σ : Type u} {α β : Type v} {x : Stateful σ α} {next : α → Stateful σ β}
  {state after : σ}

/-- With enough turns of its loops the computation ends this way. -/
def ComesTo (x : Stateful σ α) (state : σ) (outcome : Outcome α) (after : σ) : Prop :=
  outcome ≠ .pending ∧ ∃ fuel, x.run fuel state = (outcome, after)

/-- The computation ends. -/
def Returns (x : Stateful σ α) (state : σ) : Prop := ∃ fuel, (x.run fuel state).1 ≠ .pending

theorem returns_iff : Returns x state ↔ ∃ outcome after, x.ComesTo state outcome after := by
  constructor
  · rintro ⟨fuel, done⟩
    exact ⟨_, _, done, fuel, rfl⟩
  · rintro ⟨outcome, after, done, fuel, ran⟩
    exact ⟨fuel, by rwa [ran]⟩

theorem ComesTo.enough {outcome : Outcome α} (comes : x.ComesTo state outcome after) :
    ∃ fuel, ∀ more, fuel ≤ more → x.run more state = (outcome, after) := by
  obtain ⟨done, fuel, ran⟩ := comes
  refine ⟨fuel, fun more le => ?_⟩
  rw [x.settled le (by rwa [ran]), ran]

theorem ComesTo.unique {outcome outcome' : Outcome α} {after' : σ}
    (first : x.ComesTo state outcome after) (second : x.ComesTo state outcome' after') :
    outcome = outcome' ∧ after = after' := by
  obtain ⟨fuel, ran⟩ := first.enough
  obtain ⟨fuel', ran'⟩ := second.enough
  have same := (ran (max fuel fuel') (Nat.le_max_left _ _)).symm.trans
    (ran' (max fuel fuel') (Nat.le_max_right _ _))
  exact ⟨congrArg Prod.fst same, congrArg Prod.snd same⟩

theorem run_bind (fuel : Nat) (state : σ) :
    (x >>= next).run fuel state =
      following (fun value => (next value).run fuel) (x.run fuel state) := rfl

theorem bind_assoc {γ : Type v} {last : β → Stateful σ γ} :
    x >>= next >>= last = x >>= fun value => next value >>= last := by
  refine Stateful.ext (funext fun fuel => funext fun state => ?_)
  simp only [run_bind]
  rcases x.run fuel state with ⟨_ | _ | value, after⟩ <;> rfl

theorem ComesTo.bind {middle : σ} {value : α} {outcome : Outcome β}
    (first : x.ComesTo state (.returned value) middle)
    (second : (next value).ComesTo middle outcome after) : (x >>= next).ComesTo state outcome after := by
  obtain ⟨fuel, ran⟩ := first.enough
  obtain ⟨fuel', ran'⟩ := second.enough
  refine ⟨second.1, max fuel fuel', ?_⟩
  rw [run_bind, ran _ (Nat.le_max_left _ _)]
  exact ran' _ (Nat.le_max_right _ _)

theorem ComesTo.bind_raised (first : x.ComesTo state .raised after) :
    (x >>= next).ComesTo state .raised after := by
  obtain ⟨-, fuel, ran⟩ := first
  exact ⟨nofun, fuel, by rw [run_bind, ran]; rfl⟩

theorem comesTo_pure {value : α} {outcome : Outcome α} :
    (pure value : Stateful σ α).ComesTo state outcome after ↔ outcome = .returned value ∧ after = state := by
  constructor
  · rintro ⟨-, fuel, ran⟩
    cases ran
    exact ⟨rfl, rfl⟩
  · rintro ⟨rfl, rfl⟩
    exact ⟨nofun, 0, rfl⟩

/-- A sequence ends with an exception of its first part or as its second part does. -/
theorem bind_comesTo {outcome : Outcome β} (comes : (x >>= next).ComesTo state outcome after) :
    (outcome = .raised ∧ x.ComesTo state .raised after) ∨
      ∃ value middle, x.ComesTo state (.returned value) middle ∧
        (next value).ComesTo middle outcome after := by
  obtain ⟨done, fuel, ran⟩ := comes
  rw [run_bind] at ran
  rcases begun : x.run fuel state with ⟨_ | _ | value, middle⟩
  · rw [begun] at ran
    cases ran
    exact absurd rfl done
  · rw [begun] at ran
    cases ran
    exact .inl ⟨rfl, nofun, fuel, begun⟩
  · rw [begun] at ran
    exact .inr ⟨value, middle, ⟨nofun, fuel, begun⟩, done, fuel, ran⟩

theorem bind_returns_iff :
    Returns (x >>= next) state ↔ Returns x state ∧
      ∀ value middle, x.ComesTo state (.returned value) middle → Returns (next value) middle := by
  constructor
  · rintro ⟨fuel, done⟩
    rw [run_bind] at done
    rcases begun : x.run fuel state with ⟨_ | _ | value, middle⟩
    · rw [begun] at done
      exact absurd rfl done
    · have raised : x.ComesTo state .raised middle := ⟨nofun, fuel, begun⟩
      refine ⟨returns_iff.mpr ⟨_, _, raised⟩, fun value after comes => ?_⟩
      cases (raised.unique comes).1
    · have first : x.ComesTo state (.returned value) middle := ⟨nofun, fuel, begun⟩
      refine ⟨returns_iff.mpr ⟨_, _, first⟩, fun value' middle' comes => ?_⟩
      obtain ⟨same, rfl⟩ := first.unique comes
      cases same
      rw [begun] at done
      exact ⟨fuel, done⟩
  · rintro ⟨first, second⟩
    obtain ⟨outcome, middle, comes⟩ := returns_iff.mp first
    cases outcome with
    | pending => exact absurd rfl comes.1
    | raised => exact returns_iff.mpr ⟨_, _, comes.bind_raised⟩
    | returned value =>
        obtain ⟨_, _, rest⟩ := returns_iff.mp (second value middle comes)
        exact returns_iff.mpr ⟨_, _, comes.bind rest⟩

section Loops

variable {ρ : Type} {step : Unit → Stateful σ (Unit ⊕ ρ)} {later : σ}

/-- The states from which a loop without variables goes on. -/
def Turns (step : Unit → Stateful σ (Unit ⊕ ρ)) : σ → σ → Prop :=
  Relation.ReflTransGen fun state later => ∃ fuel, (step ()).run fuel state = (.returned (.inl ()), later)

theorem loop_returns_of_turn (next : ∃ fuel, (step ()).run fuel state = (.returned (.inl ()), later))
    (rest : Returns (loop step ()) later) : Returns (loop step ()) state := by
  obtain ⟨fuel, done⟩ := rest
  obtain ⟨outcome, after, comes⟩ := returns_iff.mp ⟨fuel, done⟩
  obtain ⟨enough, ran⟩ := comes.enough
  have goes : (step ()).ComesTo state (.returned (.inl ())) later := ⟨nofun, next⟩
  obtain ⟨first, turned⟩ := goes.enough
  have bound := Nat.le_max_left enough first
  have whole : turns step (max enough first + 1) (max enough first) () later = (outcome, after) := by
    have settled := ran (max enough first) bound
    change turns step (max enough first) (max enough first) () later = _ at settled
    rw [turns_settled step (Nat.le_succ _) (Nat.le_refl _) (by rw [settled]; exact comes.1), settled]
  refine ⟨max enough first + 1, ?_⟩
  change (turns step (max enough first + 1) (max enough first + 1) () state).1 ≠ .pending
  rw [turns, turned _ (Nat.le_succ_of_le (Nat.le_max_right enough first))]
  change (turns step (max enough first + 1) (max enough first) () later).1 ≠ .pending
  rw [whole]
  exact comes.1

theorem loop_returns_of_last {outcome : Outcome (Unit ⊕ ρ)} (last : (step ()).ComesTo state outcome after)
    (ends : outcome ≠ .returned (.inl ())) : Returns (loop step ()) state := by
  obtain ⟨fuel, ran⟩ := last.enough
  refine ⟨fuel + 1, ?_⟩
  change (turns step (fuel + 1) (fuel + 1) () state).1 ≠ .pending
  rw [turns, ran _ (Nat.le_succ _)]
  rcases outcome with _ | _ | _ | result
  · exact absurd rfl last.1
  · simp [following]
  · exact absurd rfl ends
  · simp [following]

theorem loop_returns_iff :
    Returns (loop step ()) state ↔ ∃ later, Turns step state later ∧
      ∃ outcome after, (step ()).ComesTo later outcome after ∧ outcome ≠ .returned (.inl ()) := by
  constructor
  · rintro ⟨fuel, done⟩
    change (turns step fuel fuel () state).1 ≠ .pending at done
    suffices ∀ left state, (turns step fuel left () state).1 ≠ .pending → ∃ later,
        Turns step state later ∧ ∃ outcome after, (step ()).ComesTo later outcome after ∧
          outcome ≠ .returned (.inl ()) from this fuel state done
    intro left
    induction left with
    | zero => exact fun _ done => absurd rfl done
    | succ left ih =>
        intro state done
        rw [turns] at done
        rcases ran : (step ()).run fuel state with ⟨_ | _ | next | result, after⟩
        · rw [ran] at done
          exact absurd rfl done
        · exact ⟨state, .refl, .raised, after, ⟨by simp, fuel, ran⟩, by simp⟩
        · rw [ran] at done
          obtain ⟨later, reached, last⟩ := ih after done
          exact ⟨later, .head ⟨fuel, ran⟩ reached, last⟩
        · exact ⟨state, .refl, .returned (.inr result), after, ⟨by simp, fuel, ran⟩, by simp⟩
  · rintro ⟨later, reached, outcome, after, last, ends⟩
    induction reached using Relation.ReflTransGen.head_induction_on with
    | refl => exact loop_returns_of_last last ends
    | head turn _ ih => exact loop_returns_of_turn turn ih

theorem loop_endless {τ : Type} {act : τ → Stateful σ (τ ⊕ ρ)} {vars : τ} (Goes : τ → σ → Prop)
    (turn : ∀ fuel vars state, Goes vars state →
      ∃ next after, (act vars).run fuel state = (.returned (.inl next), after) ∧ Goes next after)
    (begun : Goes vars state) : ¬ Returns (loop act vars) state := by
  rintro ⟨fuel, done⟩
  change (turns act fuel fuel vars state).1 ≠ .pending at done
  refine done ?_
  suffices ∀ left vars state, Goes vars state → (turns act fuel left vars state).1 = .pending from
    this fuel vars state begun
  intro left
  induction left with
  | zero => exact fun _ _ _ => rfl
  | succ left ih =>
      intro vars state begun
      obtain ⟨next, after, ran, goes⟩ := turn fuel vars state begun
      rw [turns, ran]
      exact ih next after goes

end Loops

theorem ComesTo.bind_returns {middle : σ} {value : α} (first : x.ComesTo state (.returned value) middle) :
    Returns (x >>= next) state ↔ Returns (next value) middle := by
  rw [bind_returns_iff]
  constructor
  · exact fun ends => ends.2 value middle first
  · intro ends
    refine ⟨returns_iff.mpr ⟨_, _, first⟩, fun other after comes => ?_⟩
    obtain ⟨same, rfl⟩ := first.unique comes
    cases same
    exact ends

/-- The invariant holds behind a computation too. -/
theorem ComesTo.keeps {P : σ → Prop} [keeps : Keeps P x] {outcome : Outcome α}
    (comes : x.ComesTo state outcome after) (begun : P state) : P after := by
  obtain ⟨-, fuel, ran⟩ := comes
  have kept := keeps.kept fuel state begun
  rwa [ran] at kept

/-- From the states of the invariant the computation ends. -/
class Ends (P : σ → Prop) (x : Stateful σ α) : Prop where
  ends : ∀ state, P state → Returns x state

variable {P : σ → Prop}

instance Keeps.always : Keeps (fun _ : σ => True) x := ⟨fun _ _ _ => trivial⟩

instance Ends.pure {value : α} : Ends P (Pure.pure value : Stateful σ α) := ⟨fun _ _ => ⟨0, nofun⟩⟩

instance Ends.raise : Ends P (raise : Stateful σ α) := ⟨fun _ _ => ⟨0, nofun⟩⟩

instance Ends.get {view : σ → α} : Ends P (get view) := ⟨fun _ _ => ⟨0, nofun⟩⟩

instance Ends.modify {change : σ → σ} : Ends P (modify change) := ⟨fun _ _ => ⟨0, nofun⟩⟩

instance Ends.bind [keeps : Keeps P x] [first : Ends P x] [second : ∀ value, Ends P (next value)] :
    Ends P (x >>= next) where
  ends state begun := bind_returns_iff.mpr ⟨first.ends state begun, fun value middle comes =>
    (second value).ends middle (comes.keeps begun)⟩

instance Ends.ite {c : Prop} [Decidable c] {y : Stateful σ α} [first : Ends P x] [second : Ends P y] :
    Ends P (if c then x else y) := by
  split
  · exact first
  · exact second

instance Ends.elim {choice : Option β} {next : β → Stateful σ α} [first : Ends P x]
    [second : ∀ value, Ends P (next value)] : Ends P (choice.elim x next) := by
  cases choice with
  | none => exact first
  | some value => exact second value

instance Ends.forM {items : List β} {act : β → Stateful σ PUnit} [keeps : ∀ item, Keeps P (act item)]
    [turn : ∀ item, Ends P (act item)] : Ends P (items.forM act) := by
  induction items with
  | nil => exact Ends.pure
  | cons item items ih => exact Ends.bind

instance Ends.foldlM {items : List β} {step : α → β → Stateful σ α} {start : α}
    [keeps : ∀ value item, Keeps P (step value item)] [turn : ∀ value item, Ends P (step value item)] :
    Ends P (items.foldlM step start) := by
  induction items generalizing start with
  | nil => exact Ends.pure
  | cons item items ih =>
      rw [List.foldlM_cons]
      exact Ends.bind

theorem Ends.returns [ends : Ends (fun _ => True) x] (state : σ) : Returns x state :=
  ends.ends state trivial

end PyBulletin.Foundation.Stateful
