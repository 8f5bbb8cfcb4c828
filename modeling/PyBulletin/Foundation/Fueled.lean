import Mathlib.Order.Basic

set_option autoImplicit false

universe u v

namespace PyBulletin.Foundation

/-! # Computations that may raise or run forever

A computation is run with a bound on the turns of its loops.  An outcome other than
`pending` no longer depends on the bound, so what a computation returns is unique.
-/

inductive Outcome (α : Type u) where
  | pending
  | raised
  | returned (value : α)
  deriving DecidableEq

namespace Outcome

variable {α : Type u} {β : Type v}

def bind (outcome : Outcome α) (next : α → Outcome β) : Outcome β :=
  match outcome with
  | pending => pending
  | raised => raised
  | returned value => next value

def map (f : α → β) (outcome : Outcome α) : Outcome β :=
  outcome.bind fun value => returned (f value)

theorem eq_returned_of_map {f : α → β} {outcome : Outcome α} {result : β}
    (mapped : outcome.map f = returned result) :
    ∃ value, outcome = returned value ∧ f value = result := by
  cases outcome with
  | pending => cases mapped
  | raised => cases mapped
  | returned value =>
      cases mapped
      exact ⟨value, rfl, rfl⟩

end Outcome

@[ext]
structure Fueled (α : Type u) where
  run : Nat → Outcome α
  settled : ∀ {fewer more : Nat}, fewer ≤ more → run fewer ≠ .pending → run more = run fewer

namespace Fueled

section Programs

variable {α β σ ρ : Type u}

instance : Monad Fueled where
  pure value := ⟨fun _ => .returned value, fun _ _ => rfl⟩
  bind x next := {
    run := fun fuel => (x.run fuel).bind fun value => (next value).run fuel
    settled := by
      intro fewer more le done
      have same : x.run more = x.run fewer :=
        x.settled le fun pending => done (by simp [pending, Outcome.bind])
      simp only [same]
      cases ran : x.run fewer with
      | pending => rfl
      | raised => rfl
      | returned value =>
          exact (next value).settled le fun pending =>
            done (by simp [ran, pending, Outcome.bind]) }

instance : LawfulMonad Fueled := LawfulMonad.mk' Fueled
  (fun x => by
    ext fuel : 2
    change (x.run fuel).bind _ = _
    cases x.run fuel <;> rfl)
  (fun _ _ => rfl)
  (fun x _ _ => by
    ext fuel : 2
    change ((x.run fuel).bind _).bind _ = (x.run fuel).bind _
    cases x.run fuel <;> rfl)

def raise : Fueled α := ⟨fun _ => .raised, fun _ _ => rfl⟩

/-- `try: return x` with a handler that turns every exception into `none`. -/
def attempt (x : Fueled α) : Fueled (Option α) where
  run fuel :=
    match x.run fuel with
    | .pending => .pending
    | .raised => .returned none
    | .returned value => .returned (some value)
  settled := by
    intro fewer more le done
    have same : x.run more = x.run fewer :=
      x.settled le fun pending => done (by simp [pending])
    simp only [same]

/-- At most `turns` turns of a loop, each turn with the same `fuel` inside. -/
def turns (step : σ → Fueled (σ ⊕ ρ)) (fuel : Nat) : Nat → σ → Outcome ρ
  | 0, _ => .pending
  | left + 1, state =>
      ((step state).run fuel).bind fun
        | .inl next => turns step fuel left next
        | .inr result => .returned result

theorem turns_settled (step : σ → Fueled (σ ⊕ ρ)) {fewer more left left' : Nat} {state : σ}
    (le : fewer ≤ more) (leLeft : left ≤ left')
    (done : turns step fewer left state ≠ .pending) :
    turns step more left' state = turns step fewer left state := by
  induction left generalizing left' state with
  | zero => exact absurd rfl done
  | succ left ih =>
      obtain ⟨left', rfl⟩ : ∃ rest, left' = rest + 1 := ⟨left' - 1, by omega⟩
      have same : (step state).run more = (step state).run fewer :=
        (step state).settled le fun pending =>
          done (by simp [turns, pending, Outcome.bind])
      simp only [turns, same] at done ⊢
      cases ran : (step state).run fewer with
      | pending => rfl
      | raised => rfl
      | returned value =>
          cases value with
          | inl next =>
              simp only [ran, Outcome.bind] at done ⊢
              exact ih (by omega) done
          | inr result => rfl

/-- A `while` loop: turns of `step` until one gives a result. -/
def loop (step : σ → Fueled (σ ⊕ ρ)) (state : σ) : Fueled ρ where
  run fuel := turns step fuel fuel state
  settled le done := turns_settled step le le done

end Programs

section Returns

variable {α β σ ρ : Type u}

def Returns (x : Fueled α) (value : α) : Prop :=
  ∃ fuel, x.run fuel = .returned value

theorem Returns.unique {x : Fueled α} {first second : α}
    (one : x.Returns first) (two : x.Returns second) : first = second := by
  obtain ⟨fuel, ran⟩ := one
  obtain ⟨fuel', ran'⟩ := two
  have same := x.settled (Nat.le_max_left fuel fuel') (by simp [ran])
  have same' := x.settled (Nat.le_max_right fuel fuel') (by simp [ran'])
  rw [same, ran, ran'] at same'
  cases same'
  rfl

@[simp] theorem returns_pure {value result : α} :
    (pure value : Fueled α).Returns result ↔ value = result := by
  constructor
  · rintro ⟨fuel, ran⟩
    cases ran
    rfl
  · rintro rfl
    exact ⟨0, rfl⟩

@[simp] theorem not_returns_raise {result : α} : ¬ (raise : Fueled α).Returns result := by
  rintro ⟨fuel, ran⟩
  cases ran

theorem returns_bind {x : Fueled α} {next : α → Fueled β} {result : β} :
    (x >>= next).Returns result ↔ ∃ value, x.Returns value ∧ (next value).Returns result := by
  constructor
  · rintro ⟨fuel, ran⟩
    change (x.run fuel).bind (fun value => (next value).run fuel) = _ at ran
    cases first : x.run fuel with
    | pending => simp [first, Outcome.bind] at ran
    | raised => simp [first, Outcome.bind] at ran
    | returned value => exact ⟨value, ⟨fuel, first⟩, fuel, by simpa [first, Outcome.bind] using ran⟩
  · rintro ⟨value, ⟨fuel, first⟩, fuel', second⟩
    refine ⟨max fuel fuel', ?_⟩
    change (x.run _).bind (fun value => (next value).run _) = _
    rw [x.settled (Nat.le_max_left fuel fuel') (by simp [first]), first]
    change (next value).run _ = _
    rw [(next value).settled (Nat.le_max_right fuel fuel') (by simp [second]), second]

theorem returns_attempt {x : Fueled α} {value : α} :
    x.attempt.Returns (some value) ↔ x.Returns value := by
  constructor
  · rintro ⟨fuel, ran⟩
    refine ⟨fuel, ?_⟩
    cases inner : x.run fuel with
    | pending => simp [attempt, inner] at ran
    | raised => simp [attempt, inner] at ran
    | returned value => simpa [attempt, inner] using ran
  · rintro ⟨fuel, ran⟩
    exact ⟨fuel, by simp [attempt, ran]⟩

theorem returns_loop {step : σ → Fueled (σ ⊕ ρ)} {state : σ} {result : ρ} :
    (loop step state).Returns result ↔
      (∃ next, (step state).Returns (.inl next) ∧ (loop step next).Returns result) ∨
        (step state).Returns (.inr result) := by
  constructor
  · rintro ⟨fuel, ran⟩
    change turns step fuel fuel state = _ at ran
    cases fuel with
    | zero => cases ran
    | succ left =>
        cases first : (step state).run (left + 1) with
        | pending => simp [turns, first, Outcome.bind] at ran
        | raised => simp [turns, first, Outcome.bind] at ran
        | returned value =>
            simp only [turns, first, Outcome.bind] at ran
            cases value with
            | inl next =>
                have rest : turns step (left + 1) left next = .returned result := ran
                refine .inl ⟨next, ⟨left + 1, first⟩, left + 1, ?_⟩
                change turns step _ _ _ = _
                rw [turns_settled step (Nat.le_refl _) (Nat.le_succ left) (by simp [rest]), rest]
            | inr value =>
                cases ran
                exact .inr ⟨left + 1, first⟩
  · rintro (⟨next, ⟨fuel, first⟩, fuel', rest⟩ | ⟨fuel, first⟩)
    · change turns step fuel' fuel' next = _ at rest
      have one : (step state).run (max fuel fuel' + 1) = (step state).run fuel :=
        (step state).settled (by omega) (by simp [first])
      have others : turns step (max fuel fuel' + 1) (max fuel fuel') next =
          turns step fuel' fuel' next :=
        turns_settled step (by omega) (by omega) (by simp [rest])
      refine ⟨max fuel fuel' + 1, ?_⟩
      change turns step (max fuel fuel' + 1) (max fuel fuel' + 1) state = _
      rw [turns, one, first]
      exact others.trans rest
    · have one : (step state).run (fuel + 1) = (step state).run fuel :=
        (step state).settled (by omega) (by simp [first])
      refine ⟨fuel + 1, ?_⟩
      change turns step (fuel + 1) (fuel + 1) state = _
      rw [turns, one, first]
      rfl

end Returns

section Ensures

variable {α β σ ρ : Type u}

/-- Whatever `x` returns satisfies `Post`. -/
def Ensures (x : Fueled α) (Post : α → Prop) : Prop :=
  ∀ value, x.Returns value → Post value

theorem Ensures.mono {x : Fueled α} {Strong Weak : α → Prop}
    (ensured : x.Ensures Strong) (weaker : ∀ value, Strong value → Weak value) : x.Ensures Weak :=
  fun value returned => weaker value (ensured value returned)

theorem Ensures.and {x : Fueled α} {Left Right : α → Prop}
    (left : x.Ensures Left) (right : x.Ensures Right) :
    x.Ensures fun value => Left value ∧ Right value :=
  fun value returned => ⟨left value returned, right value returned⟩

@[simp] theorem ensures_pure {value : α} {Post : α → Prop} :
    (pure value : Fueled α).Ensures Post ↔ Post value := by
  simp [Ensures]

@[simp] theorem ensures_raise {Post : α → Prop} : (raise : Fueled α).Ensures Post := by
  simp [Ensures]

@[simp] theorem ensures_bind {x : Fueled α} {next : α → Fueled β} {Post : β → Prop} :
    (x >>= next).Ensures Post ↔ x.Ensures fun value => (next value).Ensures Post := by
  simp only [Ensures, returns_bind]
  constructor
  · exact fun ensured value first result second => ensured result ⟨value, first, second⟩
  · rintro ensured result ⟨value, first, second⟩
    exact ensured value first result second

/-- An invariant that every turn keeps holds of the state in which the loop ends. -/
theorem ensures_loop {step : σ → Fueled (σ ⊕ ρ)} {Post : ρ → Prop} (Invariant : σ → Prop)
    (turn : ∀ state, Invariant state → (step state).Ensures fun
      | .inl next => Invariant next
      | .inr result => Post result)
    {start : σ} (initial : Invariant start) : (loop step start).Ensures Post := by
  rintro result ⟨fuel, ran⟩
  change turns step fuel fuel start = _ at ran
  suffices ∀ left state, Invariant state → turns step fuel left state = .returned result →
      Post result from this fuel start initial ran
  intro left
  induction left with
  | zero =>
      intro state _ stopped
      cases stopped
  | succ left ih =>
      intro state holds ranLeft
      have kept := turn state holds
      cases first : (step state).run fuel with
      | pending => simp [turns, first, Outcome.bind] at ranLeft
      | raised => simp [turns, first, Outcome.bind] at ranLeft
      | returned value =>
          have afterTurn := kept value ⟨fuel, first⟩
          simp only [turns, first, Outcome.bind] at ranLeft
          cases value with
          | inl next => exact ih next afterTurn ranLeft
          | inr value =>
              cases ranLeft
              exact afterTurn

/-- A search through `next n`, `next (n + 1)`, … ends at the first item that is not taken. -/
theorem returns_search {taken : σ → Bool} {next : Nat → σ} {n : Nat} {result : σ} :
    (loop (fun (i, x) => pure (if taken x then .inl (i + 1, next (i + 1)) else .inr x))
      (n, next n) : Fueled σ).Returns result ↔
      ∃ m, n ≤ m ∧ (∀ i, n ≤ i → i < m → taken (next i) = true) ∧ taken (next m) = false ∧
        result = next m := by
  constructor
  · intro returned
    let Found (result : σ) : Prop := ∃ m, n ≤ m ∧
      (∀ i, n ≤ i → i < m → taken (next i) = true) ∧ taken (next m) = false ∧ result = next m
    refine @ensures_loop _ _ _ Found (fun (i, x) => x = next i ∧ n ≤ i ∧
      ∀ j, n ≤ j → j < i → taken (next j) = true) ?_ _ ⟨rfl, Nat.le_refl n, ?_⟩ result returned
    · rintro ⟨i, x⟩ ⟨rfl, later, tried⟩
      rw [ensures_pure]
      cases free : taken (next i) with
      | false => exact ⟨i, later, tried, free, rfl⟩
      | true =>
          refine ⟨rfl, Nat.le_succ_of_le later, fun j from_ below => ?_⟩
          rcases Nat.lt_succ_iff_lt_or_eq.mp below with before | rfl
          · exact tried j from_ before
          · exact free
    · exact fun j from_ below => absurd below (Nat.not_lt.mpr from_)
  · rintro ⟨m, later, tried, free, rfl⟩
    obtain ⟨k, rfl⟩ := Nat.exists_eq_add_of_le later
    induction k generalizing n with
    | zero => exact returns_loop.mpr (.inr (by simp [show taken (next n) = false from free]))
    | succ k ih =>
        refine returns_loop.mpr (.inl ⟨(n + 1, next (n + 1)), ?_, ?_⟩)
        · simp [tried n (Nat.le_refl n) (by omega)]
        · have rest := @ih (n + 1) (Nat.le_add_right _ _)
            (fun i from_ below => tried i (by omega) (by omega))
            (by rwa [Nat.add_right_comm])
          rwa [Nat.add_right_comm] at rest

theorem ensures_foldlM {α β : Type u} {f : β → α → Fueled β} {items : List α}
    {Invariant : β → Prop}
    (turn : ∀ item ∈ items, ∀ state, Invariant state → (f state item).Ensures Invariant)
    {start : β} (initial : Invariant start) : (items.foldlM f start).Ensures Invariant := by
  induction items generalizing start with
  | nil => simpa using initial
  | cons item items ih =>
      rw [List.foldlM_cons, ensures_bind]
      refine (turn item (by simp) start initial).mono fun next holds => ?_
      exact ih (fun other listed => turn other (by simp [listed])) holds

end Ensures

end Fueled

end PyBulletin.Foundation
