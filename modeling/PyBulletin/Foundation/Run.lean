import Mathlib.Tactic.Choose

set_option autoImplicit false

universe u v

namespace PyBulletin.Foundation

/-! Finite runs of a partial step function.

`step state event = none` means that the event is not enabled in the state.  A
run is a list of events; invariants are proved for one step and lifted here.
-/

variable {State : Type u} {Event : Type v} {step : State → Event → Option State}

def run (step : State → Event → Option State) : State → List Event → Option State
  | state, [] => some state
  | state, event :: events =>
      match step state event with
      | none => none
      | some next => run step next events

theorem run_cons {state final : State} {event : Event} {events : List Event}
    (completed : run step state (event :: events) = some final) :
    ∃ next, step state event = some next ∧ run step next events = some final := by
  cases stepped : step state event with
  | none => simp [run, stepped] at completed
  | some next => exact ⟨next, rfl, by simpa [run, stepped] using completed⟩

theorem run_split (start : State) (front back : List Event) :
    run step start (front ++ back) =
      (run step start front).bind fun middle => run step middle back := by
  induction front generalizing start with
  | nil => rfl
  | cons event front ih =>
      rw [List.cons_append, run, run]
      cases step start event with
      | none => rfl
      | some next => exact ih next

/-- A property that every enabled step preserves holds at the end of every run. -/
theorem run_preserves {Invariant : State → Prop}
    (preserved : ∀ state event next, Invariant state → step state event = some next →
      Invariant next)
    {start final : State} {events : List Event}
    (initial : Invariant start) (completed : run step start events = some final) :
    Invariant final := by
  induction events generalizing start with
  | nil =>
      cases completed
      exact initial
  | cons event events ih =>
      obtain ⟨next, stepped, rest⟩ := run_cons completed
      exact ih (preserved start event next initial stepped) rest

/-- Every step of the run is taken from a state in which `condition` holds of
the event about to happen. -/
def EveryStep (step : State → Event → Option State) (condition : State → Event → Prop) :
    State → List Event → Prop
  | _, [] => True
  | state, event :: events =>
      condition state event ∧
        ∀ next, step state event = some next → EveryStep step condition next events

instance EveryStep.decidable {condition : State → Event → Prop}
    [∀ state event, Decidable (condition state event)] :
    (state : State) → (events : List Event) → Decidable (EveryStep step condition state events)
  | _, [] => isTrue trivial
  | state, event :: events =>
      match stepped : step state event with
      | none => decidable_of_iff (condition state event)
          ⟨fun holds => ⟨holds, fun _ moved => by simp [stepped] at moved⟩, And.left⟩
      | some next =>
          have := @EveryStep.decidable condition _ next events
          decidable_of_iff (condition state event ∧ EveryStep step condition next events)
            ⟨fun ⟨holds, rest⟩ => ⟨holds, fun _ moved => by
              rw [stepped] at moved
              exact Option.some.inj moved ▸ rest⟩, fun ⟨holds, rest⟩ => ⟨holds, rest next stepped⟩⟩

theorem EveryStep.mono {weak strong : State → Event → Prop}
    (weaker : ∀ state event, strong state event → weak state event)
    {start : State} {events : List Event} (meets : EveryStep step strong start events) :
    EveryStep step weak start events := by
  induction events generalizing start with
  | nil => trivial
  | cons event events ih =>
      exact ⟨weaker start event meets.1, fun next stepped => ih (meets.2 next stepped)⟩

theorem EveryStep.of_forall {condition : Event → Prop} {start : State} {events : List Event}
    (each : ∀ event ∈ events, condition event) :
    EveryStep step (fun _ event => condition event) start events := by
  induction events generalizing start with
  | nil => trivial
  | cons event events ih =>
      obtain ⟨first, others⟩ := List.forall_mem_cons.mp each
      exact ⟨first, fun next _ => ih others⟩

theorem EveryStep.of_prefix {condition : State → Event → Prop} {start : State}
    {front events : List Event} (ofRun : front <+: events)
    (meets : EveryStep step condition start events) : EveryStep step condition start front := by
  induction front generalizing start events with
  | nil => trivial
  | cons event front ih =>
      obtain ⟨tail, rfl⟩ := ofRun
      exact ⟨meets.1, fun next stepped => ih ⟨tail, rfl⟩ (meets.2 next stepped)⟩

/-- The conditional form of `run_preserves`: the step lemma may use the
condition that the run is known to meet at every step. -/
theorem run_preserves_of_everyStep {condition : State → Event → Prop} {Invariant : State → Prop}
    (preserved : ∀ state event next, Invariant state → condition state event →
      step state event = some next → Invariant next)
    {start final : State} {events : List Event}
    (initial : Invariant start) (meets : EveryStep step condition start events)
    (completed : run step start events = some final) : Invariant final := by
  induction events generalizing start with
  | nil =>
      cases completed
      exact initial
  | cons event events ih =>
      obtain ⟨next, stepped, rest⟩ := run_cons completed
      exact ih (preserved start event next initial meets.1 stepped) (meets.2 next stepped) rest

/-- Every state reached on the way through the run satisfies `Holds`. -/
def Throughout (step : State → Event → Option State) (Holds : State → Prop) (start : State)
    (events : List Event) : Prop :=
  ∀ front reached, front <+: events → run step start front = some reached → Holds reached

theorem throughout_iff {Holds : State → Prop} {start : State} {events : List Event} :
    Throughout step Holds start events ↔
      Holds start ∧
        EveryStep step (fun state event => ∀ next, step state event = some next → Holds next)
          start events := by
  constructor
  · intro holds
    refine ⟨holds [] start List.nil_prefix rfl, ?_⟩
    induction events generalizing start with
    | nil => trivial
    | cons event events ih =>
        refine ⟨fun next stepped => holds [event] next ⟨events, rfl⟩ (by simp [run, stepped]), ?_⟩
        intro next stepped
        apply ih
        rintro front reached ⟨tail, rfl⟩ completed
        exact holds (event :: front) reached ⟨tail, rfl⟩ (by simpa [run, stepped] using completed)
  · rintro ⟨initial, meets⟩ front reached ofRun completed
    exact run_preserves_of_everyStep (fun _ _ next _ holds stepped => holds next stepped) initial
      (meets.of_prefix ofRun) completed

theorem everyStep_and {left right : State → Event → Prop} {start : State} {events : List Event} :
    EveryStep step (fun state event => left state event ∧ right state event) start events ↔
      EveryStep step left start events ∧ EveryStep step right start events := by
  induction events generalizing start with
  | nil => simp [EveryStep]
  | cons event events ih =>
      simp only [EveryStep, ih]
      constructor
      · rintro ⟨⟨first, second⟩, rest⟩
        exact ⟨⟨first, fun next stepped => (rest next stepped).1⟩,
          ⟨second, fun next stepped => (rest next stepped).2⟩⟩
      · rintro ⟨⟨first, left⟩, ⟨second, right⟩⟩
        exact ⟨⟨first, second⟩, fun next stepped => ⟨left next stepped, right next stepped⟩⟩

/-- Two conditions on steps agree along a run if they agree wherever an invariant holds
that steps of the second kind keep. -/
theorem everyStep_congr {left right : State → Event → Prop} {Invariant : State → Prop}
    (same : ∀ state event, Invariant state → (left state event ↔ right state event))
    (preserved : ∀ state event next, Invariant state → right state event →
      step state event = some next → Invariant next)
    {start : State} (initial : Invariant start) (events : List Event) :
    EveryStep step left start events ↔ EveryStep step right start events := by
  induction events generalizing start with
  | nil => exact Iff.rfl
  | cons event events ih =>
      constructor
      · intro meets
        have first := (same start event initial).mp meets.1
        refine ⟨first, fun next stepped => ?_⟩
        exact (ih (preserved start event next initial first stepped)).mp (meets.2 next stepped)
      · intro meets
        refine ⟨(same start event initial).mpr meets.1, fun next stepped => ?_⟩
        exact (ih (preserved start event next initial meets.1 stepped)).mpr (meets.2 next stepped)

/-- Where a step against `condition` is enabled and breaks `Holds` at once, and the
other steps keep an invariant that implies it, the runs that keep `Holds` are
exactly those that meet the condition. -/
theorem throughout_iff_everyStep {condition : State → Event → Prop} {Invariant Holds : State → Prop}
    (preserved : ∀ state event next, Invariant state → condition state event →
      step state event = some next → Invariant next)
    (implies : ∀ state, Invariant state → Holds state)
    (breaks : ∀ state event, Invariant state → ¬ condition state event →
      ∃ next, step state event = some next ∧ ¬ Holds next)
    {start : State} (initial : Invariant start) (events : List Event) :
    Throughout step Holds start events ↔ EveryStep step condition start events := by
  rw [throughout_iff, and_iff_right (implies start initial)]
  refine everyStep_congr ?_ preserved initial events
  intro state event invariant
  constructor
  · intro holds
    apply Classical.byContradiction
    intro against
    obtain ⟨next, stepped, broken⟩ := breaks state event invariant against
    exact broken (holds next stepped)
  · intro meets next stepped
    exact implies next (preserved state event next invariant meets stepped)

/-- Some step of the run meets `condition` in the state it is taken from. -/
def SomeStep (step : State → Event → Option State) (condition : State → Event → Prop) :
    State → List Event → Prop
  | _, [] => False
  | state, event :: events =>
      condition state event ∨
        ∃ next, step state event = some next ∧ SomeStep step condition next events

theorem SomeStep.exists_mem {condition : State → Event → Prop} {start : State}
    {events : List Event} (some : SomeStep step condition start events) :
    ∃ event ∈ events, ∃ state, condition state event := by
  induction events generalizing start with
  | nil => exact some.elim
  | cons event events ih =>
      rcases some with now | ⟨next, _, later⟩
      · exact ⟨event, List.mem_cons_self, start, now⟩
      · obtain ⟨other, listed, meets⟩ := ih later
        exact ⟨other, List.mem_cons_of_mem _ listed, meets⟩

theorem SomeStep.of_run {condition : State → Event → Prop} {start middle : State}
    {front back : List Event} {event : Event} (completed : run step start front = some middle)
    (meets : condition middle event) : SomeStep step condition start (front ++ event :: back) := by
  induction front generalizing start with
  | nil =>
      cases completed
      exact .inl meets
  | cons first front ih =>
      obtain ⟨next, stepped, rest⟩ := run_cons completed
      exact .inr ⟨next, stepped, ih rest⟩

theorem EveryStep.behind {condition : State → Event → Prop} {start middle : State}
    {front back : List Event} (meets : EveryStep step condition start (front ++ back))
    (completed : run step start front = some middle) : EveryStep step condition middle back := by
  induction front generalizing start with
  | nil =>
      cases completed
      exact meets
  | cons event front ih =>
      obtain ⟨next, stepped, rest⟩ := run_cons completed
      exact ih (meets.2 next stepped) rest

variable {Key : Type} {Mark : State → Key → Prop} {Frees : State → Event → Key → Prop}

/-- Between any two states of the run, what is marked in the first is marked in the
second, unless a step between them frees it. -/
def Lasting (step : State → Event → Option State) (Mark : State → Key → Prop)
    (Frees : State → Event → Key → Prop) (start : State) (events : List Event) : Prop :=
  ∀ front back rest middle final key, events = front ++ (back ++ rest) →
    run step start front = some middle → run step middle back = some final → Mark middle key →
      Mark final key ∨ SomeStep step (fun state event => Frees state event key) middle back

theorem lasting_of_everyStep {middle final : State} {key : Key} {back : List Event}
    (meets : EveryStep step (fun state event => ∀ next key, step state event = some next →
      Mark state key → Mark next key ∨ Frees state event key) middle back)
    (completed : run step middle back = some final) (marked : Mark middle key) :
    Mark final key ∨ SomeStep step (fun state event => Frees state event key) middle back := by
  induction back generalizing middle with
  | nil =>
      cases completed
      exact .inl marked
  | cons event back ih =>
      obtain ⟨next, stepped, rest⟩ := run_cons completed
      rcases meets.1 next key stepped marked with kept | freed
      · rcases ih (meets.2 next stepped) rest kept with last | later
        · exact .inl last
        · exact .inr (.inr ⟨next, stepped, later⟩)
      · exact .inr (.inl freed)

/-- A mark lasts through a run exactly when each of its steps keeps it or frees it. -/
theorem lasting_iff {start : State} {events : List Event} :
    Lasting step Mark Frees start events ↔
      EveryStep step (fun state event => ∀ next key, step state event = some next →
        Mark state key → Mark next key ∨ Frees state event key) start events := by
  constructor
  · intro lasting
    induction events generalizing start with
    | nil => trivial
    | cons event events ih =>
        refine ⟨fun next key stepped marked => ?_, fun next stepped => ih ?_⟩
        · have one := lasting [] [event] events start next key rfl rfl
            (by simp [run, stepped]) marked
          simpa [SomeStep] using one
        · rintro front back rest middle final key rfl completed
          exact lasting (event :: front) back rest middle final key rfl
            (by simpa [run, stepped] using completed)
  · rintro meets front back rest middle final key rfl completed later marked
    have between := meets.behind completed
    exact lasting_of_everyStep (EveryStep.of_prefix ⟨rest, rfl⟩ between) later marked

/-- A mark that is there at the end of a run was there from the start or was set by a
step of the run, and no step since has ended it, where an invariant of the run tells so. -/
theorem marked_since_of {Invariant : State → Prop} {Starts Ends : State → Event → Key → Prop}
    (preserved : ∀ state event next, Invariant state → step state event = some next → Invariant next)
    (traced : ∀ state event next key, Invariant state → step state event = some next →
      Mark next key → Starts state event key ∨ (Mark state key ∧ ¬ Ends state event key))
    {start final : State} {events : List Event} {key : Key} (initial : Invariant start)
    (completed : run step start events = some final) (marked : Mark final key) :
    (Mark start key ∧ EveryStep step (fun state event => ¬ Ends state event key) start events) ∨
      ∃ front event back middle next, events = front ++ event :: back ∧
        run step start front = some middle ∧ step middle event = some next ∧
        Starts middle event key ∧
        EveryStep step (fun state event => ¬ Ends state event key) next back := by
  induction events generalizing start with
  | nil =>
      cases completed
      exact .inl ⟨marked, trivial⟩
  | cons event events ih =>
      obtain ⟨next, stepped, rest⟩ := run_cons completed
      rcases ih (preserved start event next initial stepped) rest with
        ⟨kept, lasting⟩ | ⟨front, other, back, middle, after, rfl, reached, found⟩
      · rcases traced start event next key initial stepped kept with starts | ⟨before, goes⟩
        · exact .inr ⟨[], event, events, start, next, rfl, rfl, stepped, starts, lasting⟩
        · refine .inl ⟨before, goes, fun other same => ?_⟩
          cases stepped.symm.trans same
          exact lasting
      · refine .inr ⟨event :: front, other, back, middle, after, rfl, ?_, found⟩
        rw [run, stepped]
        exact reached

/-- Where every step tells so, no invariant is needed. -/
theorem marked_since {Starts Ends : State → Event → Key → Prop}
    (traced : ∀ state event next key, step state event = some next → Mark next key →
      Starts state event key ∨ (Mark state key ∧ ¬ Ends state event key))
    {start final : State} {events : List Event} {key : Key}
    (completed : run step start events = some final) (marked : Mark final key) :
    (Mark start key ∧ EveryStep step (fun state event => ¬ Ends state event key) start events) ∨
      ∃ front event back middle next, events = front ++ event :: back ∧
        run step start front = some middle ∧ step middle event = some next ∧
        Starts middle event key ∧
        EveryStep step (fun state event => ¬ Ends state event key) next back :=
  marked_since_of (fun _ _ _ _ _ => trivial) (fun state event next key _ => traced state event next key)
    trivial completed marked

/-- A rank that falls at every step leaves no infinite run. -/
theorem no_infinite_descent {Rank : Type} [WellFoundedRelation Rank] (rank : State → Rank)
    (steps : Nat → State) :
    ¬ ∀ n, WellFoundedRelation.rel (rank (steps (n + 1))) (rank (steps n)) := by
  intro falls
  have wellFounded : WellFounded (WellFoundedRelation.rel : Rank → Rank → Prop) :=
    WellFoundedRelation.wf
  have never (value : Rank) : ∀ n, rank (steps n) ≠ value := by
    induction value using wellFounded.induction with
    | _ value ih =>
        rintro n rfl
        exact ih _ (falls n) (n + 1) rfl
  exact never _ 0 rfl

/-- A rank that falls at every step bounds the length of a run. -/
theorem run_bounded (rank : State → Nat)
    (falls : ∀ state event next, step state event = some next → rank next < rank state)
    {start final : State} {events : List Event} (completed : run step start events = some final) :
    events.length + rank final ≤ rank start := by
  induction events generalizing start with
  | nil =>
      cases completed
      simp
  | cons event events ih =>
      obtain ⟨next, stepped, rest⟩ := run_cons completed
      have less := falls start event next stepped
      have shorter := ih rest
      rw [List.length_cons]
      omega

/-- Where every state with a property can step to another one, a run goes on for ever. -/
theorem infinite_run {Invariant : State → Prop}
    (progress : ∀ state, Invariant state →
      ∃ event next, step state event = some next ∧ Invariant next)
    {start : State} (initial : Invariant start) :
    ∃ (states : Nat → State) (events : Nat → Event), states 0 = start ∧
      ∀ n, step (states n) (events n) = some (states (n + 1)) := by
  choose event next stepped kept using progress
  let states (n : Nat) : { state // Invariant state } :=
    n.rec ⟨start, initial⟩ fun _ state => ⟨next state.1 state.2, kept state.1 state.2⟩
  exact ⟨fun n => (states n).1, fun n => event (states n).1 (states n).2, rfl,
    fun n => stepped (states n).1 (states n).2⟩

/-- In the lexicographic order the first component may stay or fall. -/
theorem lex_of_le {Rank : Type} {lower : Rank → Rank → Prop} {x y : Nat} {first second : Rank}
    (le : x ≤ y) (below : lower first second) :
    Prod.Lex (· < ·) lower (x, first) (y, second) := by
  rcases Nat.lt_or_eq_of_le le with less | rfl
  · exact .left _ _ less
  · exact .right _ below

end PyBulletin.Foundation
