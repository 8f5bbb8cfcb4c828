import PyBulletin.Ax25.Storm

set_option autoImplicit false

namespace PyBulletin.Ax25

open PyBulletin.Foundation

/-- Two routers and the frames in flight between them, next to be delivered first. -/
structure Network where
  a : AX25Router
  b : AX25Router
  ab : List AX25Frame
  ba : List AX25Frame

namespace Network

def swap (net : Network) : Network := ⟨net.b, net.a, net.ba, net.ab⟩

/-- Node A hears the next frame of B at some time on some port; what it sends joins the
frames towards B. -/
def deliverA (net : Network) (now port : Nat) : Option Network :=
  match net.ba with
  | [] => none
  | frame :: rest =>
      let heard := net.a.handleFrame now frame port
      some
        { a := { heard with sent := [] }
          b := net.b
          ab := net.ab ++ heard.sent.map Prod.fst
          ba := rest }

inductive Delivery where
  | toA (now port : Nat)
  | toB (now port : Nat)

def step (net : Network) : Delivery → Option Network
  | .toA now port => net.deliverA now port
  | .toB now port => (net.swap.deliverA now port).map swap

/-- A frame from the station `src` that the router takes for its own. -/
def Addressed (src : AX25Address) (router : AX25Router) (frame : AX25Frame) : Prop :=
  frame.src.matchesAddress src ∧ router.notForUs frame.dest = false

theorem Addressed.of_towards {src : AX25Address} {router : AX25Router} {frame : AX25Frame}
    (towards : Towards src router.localAddr frame) : Addressed src router frame := by
  refine ⟨towards.1, ?_⟩
  rw [AX25Router.notForUs, towards.2]
  rfl

/-- Any frames between the two nodes are in flight, and any connections they have for
each other are in any state they can get into. -/
structure WellFormed (net : Network) : Prop where
  a : net.a.Peered net.b.localAddr
  b : net.b.Peered net.a.localAddr
  ab : ∀ frame ∈ net.ab, Addressed net.a.localAddr net.b frame
  ba : ∀ frame ∈ net.ba, Addressed net.b.localAddr net.a frame

/-- The connection of A for B. -/
def connA (net : Network) : Option AX25Connection := net.a.peer (stationKey net.b.localAddr)

/-- The next frame to A is no response to a station that has no connection, and no REJ
for a frame that is not kept. -/
def QuietA (net : Network) : Prop :=
  ∀ frame ∈ net.ba.head?,
    (net.connA = none → frame.frameType ≠ .dm ∧ frame.frameType ≠ .ua) ∧
      ∀ conn, net.connA = some conn → ¬ conn.Gap frame

def Quiet (net : Network) : Delivery → Prop
  | .toA _ _ => net.QuietA
  | .toB _ _ => net.swap.QuietA

def rank (net : Network) : Nat × Nat × Nat × Nat × Nat × Nat :=
  Ax25.rank net.connA net.swap.connA net.ab net.ba

theorem rank_swap_eq (net : Network) : net.swap.rank = net.rank :=
  Ax25.rank_swap net.connA net.swap.connA net.ab net.ba

theorem WellFormed.swap {net : Network} (wellFormed : net.WellFormed) : net.swap.WellFormed :=
  ⟨wellFormed.b, wellFormed.a, wellFormed.ba, wellFormed.ab⟩

variable {net next : Network}

theorem WellFormed.deliverA (wellFormed : net.WellFormed) {now port : Nat}
    (delivered : net.deliverA now port = some next) :
    next.WellFormed ∧ (net.QuietA → Below next.rank net.rank) := by
  obtain ⟨a, b, ab, ba⟩ := net
  cases ba with
  | nil => cases delivered
  | cons frame rest =>
      cases delivered
      have addressed := wellFormed.ba frame (by simp)
      have handled := AX25Router.handleFrame_handled wellFormed.a addressed.1 addressed.2 now port
      have same := handled.localAddr
      have linked : ∀ conn, b.peer (stationKey a.localAddr) = some conn →
          Linked b.localAddr a.localAddr conn := by
        intro conn found
        obtain ⟨_, _, _, _, _, linked⟩ := wellFormed.b.of_peer found
        exact linked
      refine ⟨⟨handled.peered, ?_, ?_, ?_⟩, fun quiet => ?_⟩
      · dsimp only
        rw [same]
        exact wellFormed.b
      · intro sent among
        dsimp only
        rw [same]
        rcases List.mem_append.mp among with early | late
        · exact wellFormed.ab sent early
        · exact .of_towards (handled.towards sent late)
      · intro sent among
        obtain ⟨source, accepted⟩ := wellFormed.ba sent (by simp [among])
        have alias_ := AX25Router.handleFrame_nodeAlias a now frame port
        refine ⟨source, ?_⟩
        simp only [AX25Router.notForUs, same, alias_]
        exact accepted
      · obtain ⟨unknown, near⟩ := quiet frame rfl
        simp only [rank, connA, same]
        exact rank_falls handled.reacts.controls_le
          (fun kind => handled.reacts.eased kind (fun none_ => (unknown none_).1) near)
          (fun conn found active oldest => handled.reacts.oldest_answered active oldest)

theorem WellFormed.step (wellFormed : net.WellFormed) {delivery : Delivery}
    (stepped : net.step delivery = some next) :
    next.WellFormed ∧ (net.Quiet delivery → Below next.rank net.rank) := by
  cases delivery with
  | toA now port => exact wellFormed.deliverA stepped
  | toB now port =>
      obtain ⟨delivered, done, rfl⟩ := Option.map_eq_some_iff.mp stepped
      obtain ⟨kept, falls⟩ := wellFormed.swap.deliverA done
      refine ⟨kept.swap, fun quiet => ?_⟩
      rw [rank_swap_eq, ← rank_swap_eq net]
      exact falls quiet

/-- An infinite run of deliveries. -/
def Endless (net : Network) (nets : Nat → Network) (deliveries : Nat → Delivery) : Prop :=
  nets 0 = net ∧ ∀ n, (nets n).step (deliveries n) = some (nets (n + 1))

/-- From any well-formed state, no run of quiet deliveries goes on for ever. -/
theorem quiet_runs_end (wellFormed : net.WellFormed) :
    ¬ ∃ nets deliveries, net.Endless nets deliveries ∧
      ∀ n, (nets n).Quiet (deliveries n) := by
  rintro ⟨nets, deliveries, ⟨rfl, steps⟩, quiet⟩
  have kept (n : Nat) : (nets n).WellFormed := by
    induction n with
    | zero => exact wellFormed
    | succ n ih => exact (ih.step (steps n)).1
  exact no_infinite_descent rank nets fun n => ((kept n).step (steps n)).2 (quiet n)

private def nodeA : AX25Router := .init "AI3I-1" "" 236
private def nodeB : AX25Router := .init "K3ABC-2" "" 236

private theorem fresh_peered (other : AX25Address) :
    nodeA.Peered other ∧ nodeB.Peered other :=
  ⟨⟨rfl, fun _ listed => nomatch listed⟩, ⟨rfl, fun _ listed => nomatch listed⟩⟩

private theorem fresh_wellFormed (frame : AX25Frame)
    (towards : Towards nodeA.localAddr nodeB.localAddr frame) :
    WellFormed ⟨nodeA, nodeB, [frame], []⟩ := by
  refine ⟨(fresh_peered _).1, (fresh_peered _).2, ?_, by simp⟩
  intro sent among
  rw [List.mem_singleton.mp among]
  exact .of_towards towards

/-- A SABM under way between two fresh routers. -/
theorem quiet_runs_end_sabm :
    ¬ ∃ nets deliveries,
      Endless ⟨nodeA, nodeB, [.sabm nodeB.localAddr nodeA.localAddr], []⟩ nets deliveries ∧
        ∀ n, (nets n).Quiet (deliveries n) :=
  quiet_runs_end (fresh_wellFormed _ ⟨matchesAddress_refl _, matchesAddress_refl _⟩)

/-- Any frame but UI and SABM from a station without a connection is answered with DM, a
DM too. -/
theorem stranger_refused {router : AX25Router} {frame : AX25Frame}
    (accepted : router.notForUs frame.dest = false)
    (stranger : router.connections (stationKey frame.src) = none)
    (kind : frame.frameType ≠ .ui ∧ frame.frameType ≠ .sabm) (now port : Nat) :
    ∃ heard, router.handleFrame now frame port =
      { router with
        heard
        sent := router.sent ++ [(.dm { callsign := frame.src.callsign, ssid := frame.src.ssid }
          { callsign := router.localAddr.callsign, ssid := router.localAddr.ssid }, port)] } := by
  obtain ⟨heard, logged⟩ := AX25Router.hear_eq router now frame.src port
  have ours : ({ router with heard } : AX25Router).notForUs frame.dest = false := accepted
  refine ⟨heard, ?_⟩
  simp only [AX25Router.handleFrame, logged, ours, Bool.false_eq_true, if_false]
  rw [show Text.upper frame.src.str = stationKey frame.src from rfl, stranger]
  split
  · exact absurd (by assumption) kind.1
  · exact absurd (by assumption) kind.2
  · rfl

/-- Two routers without connections that hear everything, and a single DM. -/
structure Rally (net : Network) : Prop where
  a : net.a.connections = (fun _ => none) ∧ net.a.nodeAlias = [] ∧ net.a.sent = []
  b : net.b.connections = (fun _ => none) ∧ net.b.nodeAlias = [] ∧ net.b.sent = []
  ball : ∃ dm : AX25Frame, dm.frameType = .dm ∧
    (net.ab = [] ∧ net.ba = [dm] ∨ net.ab = [dm] ∧ net.ba = [])

theorem Rally.swap (rally : net.Rally) : net.swap.Rally := by
  obtain ⟨dm, kind, side⟩ := rally.ball
  exact ⟨rally.b, rally.a, dm, kind, side.symm.imp And.symm And.symm⟩

theorem Rally.deliverA (rally : net.Rally) {dm : AX25Frame} (kind : dm.frameType = .dm)
    (served : net.ab = [] ∧ net.ba = [dm]) :
    ∃ next, net.deliverA 0 0 = some next ∧ next.Rally := by
  obtain ⟨a, b, ab, ba⟩ := net
  obtain ⟨rfl, rfl⟩ := served
  have strangers : a.connections = fun _ => none := rally.a.1
  have noAlias : a.nodeAlias = [] := rally.a.2.1
  have drained : a.sent = [] := rally.a.2.2
  have accepted : a.notForUs dm.dest = false := by simp [AX25Router.notForUs, noAlias]
  obtain ⟨heard, refused⟩ := stranger_refused accepted (congrFun strangers _)
    (by simp [kind]) 0 0
  refine ⟨_, rfl, ?_⟩
  dsimp only
  rw [refused, drained]
  exact ⟨⟨strangers, noAlias, rfl⟩, rally.b, _, AX25Frame.frameType_dm, .inr ⟨rfl, rfl⟩⟩

theorem Rally.step (rally : net.Rally) :
    ∃ delivery next, net.step delivery = some next ∧ next.Rally := by
  obtain ⟨dm, kind, toA | toB⟩ := rally.ball
  · obtain ⟨next, delivered, rallies⟩ := rally.deliverA kind toA
    exact ⟨.toA 0 0, next, delivered, rallies⟩
  · obtain ⟨next, delivered, rallies⟩ := rally.swap.deliverA kind toB.symm
    refine ⟨.toB 0 0, next.swap, ?_, rallies.swap⟩
    rw [Network.step, delivered]
    rfl

/-- One DM between two routers without connections is answered for ever. -/
theorem dm_is_answered_for_ever :
    ¬ ∀ net : Network, net.WellFormed →
      ∀ nets deliveries, ¬ net.Endless nets deliveries := by
  intro finite
  let dm : AX25Frame := .dm nodeB.localAddr nodeA.localAddr
  let net : Network := ⟨nodeA, nodeB, [dm], []⟩
  have wellFormed : net.WellFormed :=
    fresh_wellFormed dm ⟨matchesAddress_refl _, matchesAddress_refl _⟩
  have rally : net.Rally :=
    ⟨⟨rfl, rfl, rfl⟩, ⟨rfl, rfl, rfl⟩, dm, AX25Frame.frameType_dm, .inr ⟨rfl, rfl⟩⟩
  obtain ⟨nets, deliveries, run⟩ := infinite_run (fun _ rally => Rally.step rally) rally
  exact finite net wellFormed nets deliveries run

end Network

end PyBulletin.Ax25
