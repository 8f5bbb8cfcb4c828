import PyBulletin.Forward.Joint

set_option autoImplicit false

namespace PyBulletin.Forward

open PyBulletin.Foundation
open PyBulletin.Store

namespace Side

variable {x y : Side} {stage other : Stage} {inbox : Bytes}

theorem offer_ne_nil (x y : Side) : x.offer y ≠ [] := by
  simp [offer, lineBytes_ne_nil]

theorem hello_ne_nil (x : Side) : x.hello ≠ [] := lineBytes_ne_nil _

theorem response_ne_nil (some_ : x.wanted y ≠ []) : x.response y ≠ [] := by
  rw [response]
  cases offered : x.offered y with
  | nil => simp [Side.wanted, offered, judged] at some_
  | cons prop others => exact lineBytes_ne_nil _

/-- A side that offers something brings its list to an end. -/
theorem outgoing_nil_of_hear {more : Bytes} (open_ : hear (y.offer x ++ more) = .more) :
    y.outgoing = [] := by
  by_contra some_
  cases whole : hear (y.offer x) with
  | more => exact hear_offers_ne_more some_ whole
  | failed => simp [hear_failed_append whole] at open_
  | heard all left => simp [hear_append whole] at open_

/-- Why a side may stay in a read that its peer does not serve. -/
def Waits (x y : Side) : Stage → Prop
  | .collecting .. => y.outgoing = []
  | .receiving _ | .receivingData .. => x.wanted y ≠ []
  | _ => False

theorem Waits.cases (waits : x.Waits y stage) : y.outgoing = [] ∨ x.wanted y ≠ [] := by
  cases stage <;> simp only [Waits] at waits
  case collecting => exact .inl waits
  all_goals exact .inr waits

theorem pending_length (x y : Side) {party : Party} (reads : party.reading) :
    (x.pending y party.session.stage).length ≤ (x.prompt ++ x.offer y).length := by
  cases at_ : party.session.stage <;> simp [Party.reading, at_] at reads <;> simp [pending]

end Side

namespace Joint

variable {x y : Side} {joint : Joint}

theorem Deadlocked.swap (stuck : joint.Deadlocked) : joint.swap.Deadlocked :=
  ⟨stuck.2.1, stuck.1, stuck.2.2.2, stuck.2.2.1⟩

section Stuck

variable (opposite : y.caller = !x.caller) (together : joint.Together x y)
  (stuck : joint.Deadlocked)

include together stuck

theorem stream_stuck : x.Follows y joint.a.session.stage (y.pending x joint.b.session.stage)
    (y.trailer x joint.b.session.stage) := by
  have follows := together.followsA
  rwa [stuck.2.2.1, List.nil_append] at follows

theorem past_sid : joint.a.session.stage ≠ .awaitingSid := by
  intro at_
  have follows := stream_stuck together stuck
  rw [at_] at follows
  have short := Side.pending_length y x stuck.2.1
  have hello := List.length_pos_iff.mpr (Side.hello_ne_nil y)
  rw [show y.pending x joint.b.session.stage = _ from follows] at short
  simp only [List.length_append] at short
  omega

include opposite

theorem past_prompt : joint.a.session.stage ≠ .awaitingPrompt := by
  intro at_
  have follows := stream_stuck together stuck
  rw [at_] at follows
  obtain ⟨role, follows⟩ := follows
  have pastB : joint.b.session.stage ≠ .awaitingSid := past_sid together.swap stuck.swap
  have reads := stuck.2.1
  cases atB : joint.b.session.stage <;> simp [Party.reading, atB] at reads
  case awaitingSid => exact pastB atB
  case awaitingPrompt =>
    have followsB := together.followsB
    rw [atB] at followsB
    have roleB : y.caller = true := followsB.1
    simp [opposite, role] at roleB
  all_goals
    rw [atB] at follows
    simp [Side.pending, Side.offer_ne_nil] at follows

theorem pending_stuck : x.pending y joint.a.session.stage = [] := by
  have pastSid := past_sid together stuck
  have pastPrompt := past_prompt opposite together stuck
  have reads := stuck.1
  cases at_ : joint.a.session.stage <;> simp [Party.reading, at_] at reads
  case awaitingSid => exact absurd at_ pastSid
  case awaitingPrompt => exact absurd at_ pastPrompt
  all_goals rfl

/-- Where a side of a deadlock stands. -/
theorem waits_stuck : x.Waits y joint.a.session.stage := by
  have follows := stream_stuck together stuck
  have other : x.caller = !y.caller := by simp [opposite]
  have quiet : y.pending x joint.b.session.stage = [] :=
    pending_stuck other together.swap stuck.swap
  have reads := stuck.1
  rw [quiet] at follows
  cases at_ : joint.a.session.stage with
  | awaitingSid => exact absurd at_ (past_sid together stuck)
  | awaitingPrompt => exact absurd at_ (past_prompt opposite together stuck)
  | awaitingFs outgoing =>
      rw [at_] at follows
      simp [Side.Follows, Side.offer_ne_nil] at follows
  | collecting accepted incoming =>
      rw [at_] at follows
      have open_ := follows.2 []
      rw [List.append_nil, List.append_nil, listen_nil] at open_
      exact Side.outgoing_nil_of_hear open_
  | receiving left =>
      rw [at_] at follows
      cases left with
      | nil => simp [Party.reading, at_] at reads
      | cons prop left =>
          rcases follows.1 with ⟨all, _⟩ | fewer
          · exact all ▸ List.cons_ne_nil prop left
          · exact List.ne_nil_of_length_pos (Nat.zero_lt_of_lt fewer)
  | receivingData binary size prop left =>
      rw [at_] at follows
      exact List.ne_nil_of_length_pos (Nat.zero_lt_of_lt follows.1)
  | _ => simp [Party.reading, at_] at reads

/-- The `FS` line of the other side stands in for the one block a side waits for. -/
theorem single_stuck (one : (x.wanted y).length = 1)
    (nothing : x.unread y = []) (offers : x.outgoing ≠ []) (answered : y.wanted x ≠ []) : False := by
  have some_ : y.outgoing ≠ [] :=
    Side.outgoing_ne_nil (List.ne_nil_of_length_pos (one ▸ Nat.one_pos))
  have waitsA := waits_stuck opposite together stuck
  have other : x.caller = !y.caller := by simp [opposite]
  have waitsB : y.Waits x joint.b.session.stage :=
    waits_stuck other together.swap stuck.swap
  have follows := stream_stuck together stuck
  have quiet : y.pending x joint.b.session.stage = [] :=
    pending_stuck other together.swap stuck.swap
  have trailer : y.trailer x joint.b.session.stage = y.response x := by
    cases atB : joint.b.session.stage <;> rw [atB] at waitsB <;> simp only [Side.Waits] at waitsB
    case collecting => exact absurd waitsB offers
    all_goals rfl
  have response := Side.response_ne_nil answered
  have reads := stuck.1
  rw [quiet, trailer] at follows
  cases at_ : joint.a.session.stage <;> rw [at_] at waitsA follows <;>
    simp only [Side.Waits] at waitsA
  case collecting => exact some_ waitsA
  case receiving left =>
    rcases follows.1 with ⟨_, same⟩ | fewer
    · have empty := same some_
      rw [nothing, List.nil_append] at empty
      exact response empty.symm
    · have none_ : left = [] := List.length_eq_zero_iff.mp (by omega)
      simp [Party.reading, at_, none_] at reads
  case receivingData => exact follows.2 nothing

end Stuck

/-- A pair of stores and neighbours on which the sessions come to their end: some side
offers a message, a side that offers none wants none, and at most one side waits for a block
in vain (of a single block the `FS` line of the other side takes the place). -/
structure Unblocked (x y : Side) : Prop where
  offers : x.outgoing ≠ [] ∨ y.outgoing ≠ []
  wantsA : x.outgoing = [] → x.wanted y = []
  wantsB : y.outgoing = [] → y.wanted x = []
  ends : x.wanted y = [] ∨ y.wanted x = [] ∨
    (x.wanted y).length = 1 ∧ x.unread y = [] ∨ (y.wanted x).length = 1 ∧ y.unread x = []

/-- Two sides of which one offers a message, which want nothing they cannot get in exchange,
never wait for each other. -/
theorem run_not_deadlocked (opposite : y.caller = !x.caller) (unblocked : Unblocked x y)
    {turns : List Turn} (completed : run step (start x y) turns = some joint) :
    ¬ joint.Deadlocked := by
  intro stuck
  have other : x.caller = !y.caller := by simp [opposite]
  rcases sound_run opposite completed with broken | broken | together
  · have reads := stuck.1
    cases at_ : joint.a.session.stage <;> simp [at_, Stage.broken] at broken <;>
      simp [Party.reading, at_] at reads
  · have reads := stuck.2.1
    cases at_ : joint.b.session.stage <;> simp [at_, Stage.broken] at broken <;>
      simp [Party.reading, at_] at reads
  have waitsA := waits_stuck opposite together stuck
  have waitsB : y.Waits x joint.b.session.stage := waits_stuck other together.swap stuck.swap
  rcases Side.Waits.cases waitsA with noneB | wantsA
  · rcases Side.Waits.cases waitsB with noneA | wantsB
    · exact unblocked.offers.elim (absurd noneA) (absurd noneB)
    · exact wantsB (unblocked.wantsB noneB)
  · rcases Side.Waits.cases waitsB with noneA | wantsB
    · exact wantsA (unblocked.wantsA noneA)
    · have someA := Side.outgoing_ne_nil wantsB
      have someB := Side.outgoing_ne_nil wantsA
      rcases unblocked.ends with none_ | none_ | ⟨one, nothing⟩ | ⟨one, nothing⟩
      · exact wantsA none_
      · exact wantsB none_
      · exact single_stuck opposite together stuck one nothing someA wantsB
      · exact single_stuck other together.swap stuck.swap one nothing someB wantsA

instance : Decidable joint.Deadlocked := inferInstanceAs (Decidable (_ ∧ _))

end Joint

/-- A node that knows one neighbour. -/
def bareSide (nodeCall neighborCall : Text) (caller : Bool) (store : BBSStore)
    (oneLine : '\n' ∉ nodeCall) : Side where
  codec := bareCodec
  now := ⟨2026, 1, 1, 0, 0, 0⟩
  nodeCall
  neighbor := { call := neighborCall }
  caller
  store
  oneLine

def bareCaller (store : BBSStore) : Side := bareSide "N0AAA" "N0BBB" true store (by decide)

def bareAnswerer (store : BBSStore) : Side := bareSide "N0BBB" "N0AAA" false store (by decide)

namespace Joint

/-- Both sides have sent their lists and read the other's. -/
def bothList : List Turn := [.a, .b, .a, .b, .b, .a, .a, .a, .b, .b, .a, .b]

/-- One bulletin on each side. -/
theorem bulletins_not_deadlocked : ∃ joint,
    run step (start (bareCaller (bulletinStore "1_N0AAA"))
      (bareAnswerer (bulletinStore "1_N0BBB"))) bothList = some joint ∧ ¬ joint.Deadlocked := by
  have goes : (run step (start (bareCaller (bulletinStore "1_N0AAA"))
      (bareAnswerer (bulletinStore "1_N0BBB"))) bothList).isSome := by
    decide +kernel
  obtain ⟨joint, completed⟩ := Option.isSome_iff_exists.mp goes
  have free := run_not_deadlocked rfl
    ⟨.inl (by decide +kernel), fun _ => by decide +kernel, fun _ => by decide +kernel,
      .inl (by decide +kernel)⟩ completed
  exact ⟨joint, completed, free⟩

/-- Without a message on either side each waits for the other to say more than `FF`. -/
theorem empty_lists_deadlock :
    ¬ ∀ (x y : Side) (turns : List Turn) (joint : Joint), x.caller = true → y.caller = false →
      run step (start x y) turns = some joint → ¬ joint.Deadlocked := by
  intro free
  have stuck : (run step (start (bareCaller .empty) (bareAnswerer .empty)) bothList).map
      (decide ·.Deadlocked) = some true := by
    decide +kernel
  obtain ⟨joint, completed, waits⟩ := Option.map_eq_some_iff.mp stuck
  exact free _ _ _ joint rfl rfl completed (of_decide_eq_true waits)

end Joint

end PyBulletin.Forward
