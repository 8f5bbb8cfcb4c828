import PyBulletin.Foundation.Fueled

set_option autoImplicit false

universe u v w

namespace PyBulletin.Foundation

/-! # Computations on a state

A computation is run with a bound on the turns of its loops, as a `Fueled` one, and
the state shows what it has done so far, also where it has raised or is still running.
-/

@[ext]
structure Stateful (σ : Type u) (α : Type v) where
  run : Nat → σ → Outcome α × σ
  settled : ∀ {fewer more : Nat} {state : σ}, fewer ≤ more → (run fewer state).1 ≠ .pending →
    run more state = run fewer state

namespace Stateful

section Programs

variable {σ : Type u} {α β τ ρ : Type v}

/-- What follows a computation that has come to an outcome. -/
def following (next : α → σ → Outcome β × σ) : Outcome α × σ → Outcome β × σ
  | (.pending, state) => (.pending, state)
  | (.raised, state) => (.raised, state)
  | (.returned value, state) => next value state

instance : Monad (Stateful σ) where
  pure value := ⟨fun _ state => (.returned value, state), fun _ _ => rfl⟩
  bind x next := {
    run := fun fuel state => following (fun value => (next value).run fuel) (x.run fuel state)
    settled := by
      intro fewer more state le done
      rcases ran : x.run fewer state with ⟨outcome, after⟩
      rw [ran] at done
      have notPending : outcome ≠ .pending := by
        rintro rfl
        exact done rfl
      rw [x.settled le (by rwa [ran]), ran]
      cases outcome with
      | pending => exact absurd rfl notPending
      | raised => rfl
      | returned value => exact (next value).settled le done }

def raise : Stateful σ α := ⟨fun _ state => (.raised, state), fun _ _ => rfl⟩

/-- An operation that never comes back. -/
def wait : Stateful σ α := ⟨fun _ state => (.pending, state), fun _ done => absurd rfl done⟩

def get (view : σ → α) : Stateful σ α := ⟨fun _ state => (.returned (view state), state), fun _ _ => rfl⟩

def modify (change : σ → σ) : Stateful σ PUnit :=
  ⟨fun _ state => (.returned ⟨⟩, change state), fun _ _ => rfl⟩

/-- A computation that looks at the state and leaves it alone. -/
def reading (x : σ → Fueled α) : Stateful σ α where
  run fuel state := ((x state).run fuel, state)
  settled le done := by rw [(x _).settled le done]

/-- `try: x` with a handler for every exception. -/
def rescue (x handler : Stateful σ α) : Stateful σ α where
  run fuel state :=
    match x.run fuel state with
    | (.raised, after) => handler.run fuel after
    | result => result
  settled := by
    intro fewer more state le done
    rcases ran : x.run fewer state with ⟨outcome, after⟩
    rw [ran] at done
    have notPending : outcome ≠ .pending := by
      rintro rfl
      exact done rfl
    rw [x.settled le (by rwa [ran]), ran]
    cases outcome with
    | pending => exact absurd rfl notPending
    | raised => exact handler.settled le done
    | returned value => rfl

/-- At most `left` turns of a loop, each turn with the same `fuel` inside. -/
def turns (step : τ → Stateful σ (τ ⊕ ρ)) (fuel : Nat) : Nat → τ → σ → Outcome ρ × σ
  | 0, _, state => (.pending, state)
  | left + 1, vars, state =>
      following (fun
        | .inl next => turns step fuel left next
        | .inr result => fun after => (.returned result, after)) ((step vars).run fuel state)

theorem turns_settled (step : τ → Stateful σ (τ ⊕ ρ)) {fewer more left left' : Nat} {vars : τ}
    {state : σ} (le : fewer ≤ more) (leLeft : left ≤ left')
    (done : (turns step fewer left vars state).1 ≠ .pending) :
    turns step more left' vars state = turns step fewer left vars state := by
  induction left generalizing left' vars state with
  | zero => exact absurd rfl done
  | succ left ih =>
      obtain ⟨left', rfl⟩ : ∃ rest, left' = rest + 1 := ⟨left' - 1, by omega⟩
      rw [turns] at done
      rcases ran : (step vars).run fewer state with ⟨outcome, after⟩
      rw [ran] at done
      have notPending : outcome ≠ .pending := by
        rintro rfl
        exact done rfl
      rw [turns, turns, (step vars).settled le (by rwa [ran]), ran]
      cases outcome with
      | pending => exact absurd rfl notPending
      | raised => rfl
      | returned value =>
          cases value with
          | inl next => exact ih (by omega) done
          | inr result => rfl

/-- A `while` loop: turns of `step` until one gives a result. -/
def loop (step : τ → Stateful σ (τ ⊕ ρ)) (vars : τ) : Stateful σ ρ where
  run fuel := turns step fuel fuel vars
  settled le done := turns_settled step le le done

end Programs

/-! Two computations are twins if they go the same way from related states and the states
stay related, also in the middle.
-/

section Twins

variable {σ : Type u} {α β γ δ τ ρ : Type v} {R : σ → σ → Prop}

/-- Outcomes of one kind, with related values. -/
def Alike (V : α → β → Prop) : Outcome α → Outcome β → Prop
  | .pending, .pending => True
  | .raised, .raised => True
  | .returned value, .returned other => V value other
  | _, _ => False

def Twin (R : σ → σ → Prop) (V : α → β → Prop) (x : Stateful σ α) (y : Stateful σ β) : Prop :=
  ∀ fuel state other, R state other →
    Alike V (x.run fuel state).1 (y.run fuel other).1 ∧ R (x.run fuel state).2 (y.run fuel other).2

theorem twin_pure {V : α → β → Prop} {value : α} {other : β} (related : V value other) :
    Twin R V (pure value : Stateful σ α) (pure other) :=
  fun _ _ _ begun => ⟨related, begun⟩

theorem Twin.mono {V W : α → β → Prop} {x : Stateful σ α} {y : Stateful σ β} (twin : Twin R V x y)
    (weaker : ∀ value other, V value other → W value other) : Twin R W x y := by
  intro fuel state other begun
  obtain ⟨alike, after⟩ := twin fuel state other begun
  refine ⟨?_, after⟩
  generalize (x.run fuel state).1 = left at alike ⊢
  generalize (y.run fuel other).1 = right at alike ⊢
  rcases left with _ | _ | value <;> rcases right with _ | _ | value' <;> try exact alike
  exact weaker value value' alike

theorem twin_get {V : α → β → Prop} {view : σ → α} {view' : σ → β}
    (related : ∀ state other, R state other → V (view state) (view' other)) :
    Twin R V (get view) (get view') :=
  fun _ state other begun => ⟨related state other begun, begun⟩

theorem twin_modify {change change' : σ → σ}
    (related : ∀ state other, R state other → R (change state) (change' other)) :
    Twin R Eq (modify change) (modify change') :=
  fun _ state other begun => ⟨rfl, related state other begun⟩

/-- What follows goes the same way if it does for all values that are returned. -/
theorem following_twin {V : α → β → Prop} {W : γ → δ → Prop} {first : Outcome α × σ}
    {second : Outcome β × σ} {next : α → σ → Outcome γ × σ} {next' : β → σ → Outcome δ × σ}
    (alike : Alike V first.1 second.1) (begun : R first.2 second.2)
    (rest : ∀ value other state state', V value other → R state state' →
      Alike W (next value state).1 (next' other state').1 ∧
        R (next value state).2 (next' other state').2) :
    Alike W (following next first).1 (following next' second).1 ∧
      R (following next first).2 (following next' second).2 := by
  rcases first with ⟨_ | _ | value, state⟩ <;> rcases second with ⟨_ | _ | other, state'⟩ <;>
    try exact alike.elim
  · exact ⟨trivial, begun⟩
  · exact ⟨trivial, begun⟩
  · exact rest value other state state' alike begun

theorem Twin.bind {V : α → β → Prop} {W : γ → δ → Prop} {x : Stateful σ α} {y : Stateful σ β}
    {next : α → Stateful σ γ} {next' : β → Stateful σ δ} (first : Twin R V x y)
    (second : ∀ value other, V value other → Twin R W (next value) (next' other)) :
    Twin R W (x >>= next) (y >>= next') := by
  intro fuel state other begun
  obtain ⟨alike, after⟩ := first fuel state other begun
  exact following_twin alike after fun value other state state' related begun =>
    second value other related fuel state state' begun

theorem Twin.rescue {V : α → β → Prop} {x handler : Stateful σ α} {y handler' : Stateful σ β}
    (first : Twin R V x y) (second : Twin R V handler handler') :
    Twin R V (x.rescue handler) (y.rescue handler') := by
  intro fuel state other begun
  obtain ⟨alike, after⟩ := first fuel state other begun
  simp only [Stateful.rescue]
  generalize x.run fuel state = left at alike after ⊢
  generalize y.run fuel other = right at alike after ⊢
  rcases left with ⟨_ | _ | value, state'⟩ <;> rcases right with ⟨_ | _ | value', other'⟩ <;>
    try exact alike.elim
  · exact ⟨trivial, after⟩
  · exact second fuel state' other' after
  · exact ⟨alike, after⟩

theorem Twin.loop {V : τ → τ → Prop} {W : ρ → ρ → Prop} {step step' : τ → Stateful σ (τ ⊕ ρ)}
    (turn : ∀ vars vars', V vars vars' → Twin R (Sum.LiftRel V W) (step vars) (step' vars'))
    {vars vars' : τ} (initial : V vars vars') :
    Twin R W (loop step vars) (loop step' vars') := by
  intro fuel
  suffices ∀ left vars vars' state other, V vars vars' → R state other →
      Alike W (turns step fuel left vars state).1 (turns step' fuel left vars' other).1 ∧
        R (turns step fuel left vars state).2 (turns step' fuel left vars' other).2 from
    fun state other begun => this fuel vars vars' state other initial begun
  intro left
  induction left with
  | zero => exact fun _ _ _ _ _ begun => ⟨trivial, begun⟩
  | succ left ih =>
      intro vars vars' state other related begun
      obtain ⟨alike, after⟩ := turn vars vars' related fuel state other begun
      refine following_twin alike after fun value value' state state' same begun => ?_
      cases same with
      | inl next => exact ih _ _ state state' next begun
      | inr result => exact ⟨result, begun⟩

end Twins

section Blind

variable {σ : Type u} {α β τ ρ : Type v}

/-- From related states the computation returns the same and leaves related states. -/
class Blind (R : σ → σ → Prop) (x : Stateful σ α) : Prop where
  twin : Twin R Eq x x

variable {R : σ → σ → Prop}

instance Blind.pure {value : α} : Blind R (Pure.pure value : Stateful σ α) := ⟨twin_pure rfl⟩

instance Blind.raise : Blind R (raise : Stateful σ α) := ⟨fun _ _ _ begun => ⟨trivial, begun⟩⟩

instance Blind.wait : Blind R (wait : Stateful σ α) := ⟨fun _ _ _ begun => ⟨trivial, begun⟩⟩

instance Blind.bind {x : Stateful σ α} {next : α → Stateful σ β} [first : Blind R x]
    [second : ∀ value, Blind R (next value)] : Blind R (x >>= next) where
  twin := first.twin.bind fun value _ same => same ▸ (second value).twin

instance Blind.ite {c : Prop} [Decidable c] {x y : Stateful σ α} [first : Blind R x]
    [second : Blind R y] : Blind R (if c then x else y) := by
  split
  · exact first
  · exact second

instance Blind.elim {choice : Option β} {x : Stateful σ α} {next : β → Stateful σ α}
    [first : Blind R x] [second : ∀ value, Blind R (next value)] : Blind R (choice.elim x next) := by
  cases choice with
  | none => exact first
  | some value => exact second value

instance Blind.rescue {x handler : Stateful σ α} [first : Blind R x] [second : Blind R handler] :
    Blind R (x.rescue handler) := ⟨first.twin.rescue second.twin⟩

instance Blind.loop {step : τ → Stateful σ (τ ⊕ ρ)} {vars : τ} [turn : ∀ vars, Blind R (step vars)] :
    Blind R (loop step vars) where
  twin := by
    have one (vars : τ) : Twin R (Sum.LiftRel Eq Eq) (step vars) (step vars) :=
      (turn vars).twin.mono fun value _ same => same ▸ by cases value <;> constructor <;> rfl
    exact Twin.loop (fun vars _ same => same ▸ one vars) rfl

instance Blind.forM {items : List β} {next : β → Stateful σ PUnit}
    [turn : ∀ item, Blind R (next item)] : Blind R (items.forM next) := by
  induction items with
  | nil => exact Blind.pure
  | cons item items ih => exact Blind.bind

instance Blind.foldlM {items : List β} {step : α → β → Stateful σ α} {start : α}
    [turn : ∀ value item, Blind R (step value item)] : Blind R (items.foldlM step start) := by
  induction items generalizing start with
  | nil => exact Blind.pure
  | cons item items ih =>
      rw [List.foldlM_cons]
      exact Blind.bind

end Blind

section Calm

variable {σ : Type u} {α β : Type v}

class Calm (x : Stateful σ α) : Prop where
  calm : ∀ fuel state, (x.run fuel state).1 ≠ .raised

instance Calm.pure {value : α} : Calm (Pure.pure value : Stateful σ α) := ⟨by rintro _ _ ⟨⟩⟩

instance Calm.get {view : σ → α} : Calm (get view) := ⟨by rintro _ _ ⟨⟩⟩

instance Calm.modify {change : σ → σ} : Calm (modify change) := ⟨by rintro _ _ ⟨⟩⟩

instance Calm.bind {x : Stateful σ α} {next : α → Stateful σ β} [first : Calm x]
    [second : ∀ value, Calm (next value)] : Calm (x >>= next) where
  calm fuel state := by
    have begun := first.calm fuel state
    change (following _ (x.run fuel state)).1 ≠ .raised
    generalize x.run fuel state = result at begun ⊢
    rcases result with ⟨_ | _ | value, after⟩
    · rintro ⟨⟩
    · exact absurd rfl begun
    · exact (second value).calm fuel after

instance Calm.ite {c : Prop} [Decidable c] {x y : Stateful σ α} [first : Calm x] [second : Calm y] :
    Calm (if c then x else y) := by
  split
  · exact first
  · exact second

end Calm

section Keeps

variable {σ : Type u} {α β τ ρ : Type v}

/-- The property holds of the state all the time. -/
class Keeps (P : σ → Prop) (x : Stateful σ α) : Prop where
  kept : ∀ fuel state, P state → P (x.run fuel state).2

variable {P : σ → Prop}

theorem following_keeps {first : Outcome α × σ} {next : α → σ → Outcome β × σ} (begun : P first.2)
    (rest : ∀ value state, P state → P (next value state).2) : P (following next first).2 := by
  rcases first with ⟨_ | _ | value, state⟩
  · exact begun
  · exact begun
  · exact rest value state begun

instance Keeps.pure {value : α} : Keeps P (Pure.pure value : Stateful σ α) := ⟨fun _ _ begun => begun⟩

instance Keeps.raise : Keeps P (raise : Stateful σ α) := ⟨fun _ _ begun => begun⟩

instance Keeps.get {view : σ → α} : Keeps P (get view) := ⟨fun _ _ begun => begun⟩

instance Keeps.bind {x : Stateful σ α} {next : α → Stateful σ β} [first : Keeps P x]
    [second : ∀ value, Keeps P (next value)] : Keeps P (x >>= next) where
  kept fuel state begun :=
    following_keeps (first.kept fuel state begun) fun value state => (second value).kept fuel state

instance Keeps.ite {c : Prop} [Decidable c] {x y : Stateful σ α} [first : Keeps P x]
    [second : Keeps P y] : Keeps P (if c then x else y) := by
  split
  · exact first
  · exact second

instance Keeps.elim {choice : Option β} {x : Stateful σ α} {next : β → Stateful σ α}
    [first : Keeps P x] [second : ∀ value, Keeps P (next value)] : Keeps P (choice.elim x next) := by
  cases choice with
  | none => exact first
  | some value => exact second value

/-- An invariant is a relation of each state to itself. -/
theorem Keeps.blind {x : Stateful σ α} (keeps : Keeps P x) :
    Blind (fun state other => other = state ∧ P state) x where
  twin fuel state other begun := by
    obtain ⟨rfl, begun⟩ := begun
    refine ⟨?_, rfl, keeps.kept fuel other begun⟩
    cases (x.run fuel other).1 <;> trivial

theorem Blind.keeps {x : Stateful σ α} (blind : Blind (fun state other => other = state ∧ P state) x) :
    Keeps P x where
  kept fuel state begun := (blind.twin fuel state state ⟨rfl, begun⟩).2.2

instance Keeps.reading {x : σ → Fueled α} : Keeps P (Stateful.reading x) := ⟨fun _ _ begun => begun⟩

instance Keeps.rescue {x handler : Stateful σ α} [first : Keeps P x] [second : Keeps P handler] :
    Keeps P (x.rescue handler) := by
  have begun := first.blind
  have caught := second.blind
  exact Blind.rescue.keeps

instance Keeps.loop {step : τ → Stateful σ (τ ⊕ ρ)} {vars : τ} [turn : ∀ vars, Keeps P (step vars)] :
    Keeps P (Stateful.loop step vars) := by
  have turns (vars : τ) := (turn vars).blind
  exact Blind.loop.keeps

instance Keeps.forM {items : List β} {next : β → Stateful σ PUnit}
    [turn : ∀ item, Keeps P (next item)] : Keeps P (items.forM next) := by
  have turns (item : β) := (turn item).blind
  exact Blind.forM.keeps

instance Keeps.foldlM {items : List β} {step : α → β → Stateful σ α} {start : α}
    [turn : ∀ value item, Keeps P (step value item)] : Keeps P (items.foldlM step start) := by
  have turns (value : α) (item : β) := (turn value item).blind
  exact Blind.foldlM.keeps

/-- Twins stay twins where the first one keeps more about its state. -/
theorem Twin.and_keeps {R : σ → σ → Prop} {V : α → β → Prop} {x : Stateful σ α} {y : Stateful σ β}
    (twin : Twin R V x y) (keeps : Keeps P x) :
    Twin (fun state other => R state other ∧ P state) V x y := by
  intro fuel state other begun
  obtain ⟨alike, after⟩ := twin fuel state other begun.1
  exact ⟨alike, after, keeps.kept fuel state begun.2⟩

end Keeps

end Stateful

end PyBulletin.Foundation
