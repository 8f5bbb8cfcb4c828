import PyBulletin.Ax25.Progress

set_option autoImplicit false

namespace PyBulletin.Ax25

open PyBulletin.Foundation

inductive CallEvent where
  | link (event : LinkEvent)
  | disconnect

/-- Two connections and who of them has begun to release the link. -/
structure Call where
  link : Link
  leftA : Bool := false
  leftB : Bool := false

namespace Call

def swap (call : Call) : Call := ⟨call.link.swap, call.leftB, call.leftA⟩

@[simp] theorem swap_swap (call : Call) : call.swap.swap = call := rfl

/-- Where the link is not up, `write` returns at once: its bytes are dropped and not recorded. -/
def heeds (conn : AX25Connection) : LinkEvent → Bool
  | .write _ => conn.state = .connected
  | _ => true

/-- The states in which `disconnect` does anything. -/
def releases (conn : AX25Connection) : Bool :=
  conn.state = .connected ∨ conn.state = .awaitingConnect

def stepA (call : Call) : CallEvent → Option Call
  | .link event =>
      if heeds call.link.a event then (call.link.stepA event).map fun link => { call with link }
      else some call
  | .disconnect =>
      some
        { call with
          link := call.link.settle call.link.a.disconnect
          leftA := call.leftA || releases call.link.a }

def step (call : Call) : Side × CallEvent → Option Call
  | (.a, event) => call.stepA event
  | (.b, event) => (call.swap.stepA event).map swap

/-- `caller` has called `connect`, and `answerer` is what the router creates for its SABM. -/
def dial (caller answerer : AX25Address) (paclenA paclenB : Int) : Call :=
  let conn := AX25Connection.init caller answerer paclenA
  let link : Link := { a := conn, b := .init answerer caller paclenB }
  { link := link.settle (conn.connect.getD conn) }

/-- Nothing is lost and no T1 expires. -/
def Calm : CallEvent → Prop
  | .link event => Undisturbed event
  | .disconnect => True

end Call

/-- The link is not up at this side, and no UA can bring it up. -/
def Gone (conn : AX25Connection) : Prop :=
  conn.state = .awaitingRelease ∨ conn.state = .disconnected

/-- What ends a release. -/
def Closing (frame : AX25Frame) : Prop :=
  frame.frameType = .ua ∨ frame.frameType = .dm ∨ frame.frameType = .disc

/-- What may be in flight once one side has left. -/
def Late (frame : AX25Frame) : Prop := Ordinary frame ∨ Closing frame

/-- Nothing is received or sent any more. -/
structure Rests (conn next : AX25Connection) : Prop where
  gone : Gone next
  received : Link.received next = Link.received conn
  txQueue : next.txQueue = conn.txQueue

/-- How a side that has left takes a frame. -/
structure Takes (conn : AX25Connection) (frame : AX25Frame) (next : AX25Connection) : Prop where
  rests : Rests conn next
  late : ∀ reply ∈ next.sent, Late reply
  closed : Closing frame → next.state = .disconnected
  waits : next.state = .awaitingRelease → conn.state = .awaitingRelease
  released : frame.frameType = .disc → ∃ reply ∈ next.sent, Closing reply

section Gone

variable {conn : AX25Connection} {frame : AX25Frame}

theorem Gone.not_connected (gone : Gone conn) : conn.state ≠ .connected := by
  rcases gone with state | state <;> simp [state]

theorem Gone.rests (gone : Gone conn) : Rests conn conn := ⟨gone, rfl, rfl⟩

theorem received_putRx_nil : Link.received (conn.putRx []) = Link.received conn := by
  simp [Link.received, AX25Connection.putRx]

theorem Gone.handleFrame (gone : Gone conn) (drained : conn.sent = []) (late : Late frame) :
    Takes conn frame (conn.handleFrame frame) := by
  have down := gone.not_connected
  unfold AX25Connection.handleFrame
  rcases late with (kind | kind) | kind | kind | kind <;> simp only [kind]
  · rw [AX25Connection.handleI, if_pos down]
    refine ⟨⟨gone, rfl, rfl⟩, fun reply listed => ?_, fun closing => ?_, id, fun disc => ?_⟩
    · simp only [AX25Connection.send, drained, List.nil_append, List.mem_singleton] at listed
      rw [listed]
      exact .inr (.inr (.inl AX25Frame.frameType_dm))
    · simp [Closing, kind] at closing
    · simp [kind] at disc
  · rw [AX25Connection.handleRr, if_pos down]
    refine ⟨gone.rests, by simp [drained], fun closing => ?_, id, fun disc => ?_⟩
    · simp [Closing, kind] at closing
    · simp [kind] at disc
  · have quiet : frame.frameType = .disc → False := by simp [kind]
    rcases gone with state | state
    · simp only [AX25Connection.handleUa, state]
      refine ⟨⟨.inr rfl, received_putRx_nil, rfl⟩, ?_, fun _ => rfl, (fun waits => by cases waits),
        fun disc => (quiet disc).elim⟩
      simp [AX25Connection.putRx, AX25Connection.stopT1, drained]
    · simp only [AX25Connection.handleUa, state]
      exact ⟨⟨.inr state, rfl, rfl⟩, by simp [drained], fun _ => state, by simp [state],
        fun disc => (quiet disc).elim⟩
  · refine ⟨⟨.inr rfl, received_putRx_nil, rfl⟩, ?_, fun _ => rfl, (fun waits => by cases waits),
      fun disc => ?_⟩
    · simp [AX25Connection.handleDm, AX25Connection.putRx, AX25Connection.stopT1,
        AX25Connection.stopT3, drained]
    · simp [kind] at disc
  · have answer : conn.handleDisc.sent = [.ua conn.makeDest conn.makeSrc] := by
      simp [AX25Connection.handleDisc, AX25Connection.putRx, AX25Connection.send,
        AX25Connection.stopT1, AX25Connection.stopT3, AX25Connection.makeDest,
        AX25Connection.makeSrc, drained]
    refine ⟨⟨.inr rfl, received_putRx_nil, rfl⟩, ?_, fun _ => rfl, (fun waits => by cases waits),
      fun _ => ?_⟩
    · rw [answer]
      intro reply listed
      rw [List.mem_singleton.mp listed]
      exact .inr (.inl AX25Frame.frameType_ua)
    · rw [answer]
      exact ⟨_, List.mem_singleton_self _, .inl AX25Frame.frameType_ua⟩

theorem Gone.disconnect (gone : Gone conn) : conn.disconnect = conn := by
  unfold AX25Connection.disconnect
  rw [if_pos]
  rcases gone with state | state <;> simp [state]

end Gone

namespace Call

variable {call next : Call} {event : CallEvent}

theorem settle_drained {link : Link} {conn : AX25Connection} (drained : conn.sent = []) :
    link.settle conn = { link with a := conn } := by
  cases conn
  cases drained
  simp [Link.settle]

/-- What an event of the link does at a side that is not connected. -/
theorem down_stepA {event : LinkEvent} (down : call.link.a.state ≠ .connected)
    (drained : call.link.a.sent = []) (calm : Undisturbed event)
    (stepped : call.stepA (.link event) = some next) :
    (∃ armed, next =
      { call with link := { call.link with a := { call.link.a with t3Armed := armed } } }) ∨
    ∃ frame rest, call.link.ba = frame :: rest ∧
      next = { call with link :=
        { call.link with ba := rest }.settle (call.link.a.handleFrame frame) } := by
  cases event with
  | write data =>
      have unheeded : heeds call.link.a (.write data) = false := by simp [heeds, down]
      simp only [stepA, unheeded, Bool.false_eq_true, if_false, Option.some.injEq] at stepped
      exact .inl ⟨call.link.a.t3Armed, stepped ▸ rfl⟩
  | deliver =>
      obtain ⟨link, arrived, rfl⟩ := Option.map_eq_some_iff.mp stepped
      cases waiting : call.link.ba with
      | nil => simp [Link.stepA, waiting] at arrived
      | cons frame rest =>
          simp only [Link.stepA, waiting] at arrived
          cases arrived
          exact .inr ⟨frame, rest, rfl, rfl⟩
  | t3Expire =>
      obtain ⟨link, expired, rfl⟩ := Option.map_eq_some_iff.mp stepped
      obtain ⟨conn, moved, rfl⟩ := Option.map_eq_some_iff.mp expired
      obtain ⟨_, rfl⟩ := AX25Connection.step_t3Expire moved
      have nothing : call.link.a.t3Expire = call.link.a.stopT3 := by
        unfold AX25Connection.t3Expire
        rw [if_neg]
        exact down
      left
      rw [nothing, settle_drained (by exact drained)]
      exact ⟨false, rfl⟩
  | lose => exact calm.elim
  | t1Expire => exact calm.elim

/-- What an event does at a side that has left. -/
theorem gone_stepA (gone : Gone call.link.a) (drained : call.link.a.sent = []) (calm : Calm event)
    (stepped : call.stepA event = some next) :
    (∃ armed, next =
      { call with link := { call.link with a := { call.link.a with t3Armed := armed } } }) ∨
    ∃ frame rest, call.link.ba = frame :: rest ∧
      next = { call with link :=
        { call.link with ba := rest }.settle (call.link.a.handleFrame frame) } := by
  cases event with
  | disconnect =>
      have nothing : releases call.link.a = false := by
        rcases gone with state | state <;> simp [releases, state]
      simp only [stepA, gone.disconnect, nothing, Bool.or_false, settle_drained drained,
        Option.some.injEq] at stepped
      exact .inl ⟨call.link.a.t3Armed, stepped.symm⟩
  | link event => exact down_stepA gone.not_connected drained calm stepped

/-- What `disconnect` does where the link is up or about to come up. -/
structure Releases (conn next : AX25Connection) : Prop where
  state : next.state = .awaitingRelease
  rests : Rests conn next
  sent : ∃ disc, next.sent = [disc] ∧ disc.frameType = .disc

theorem releases_disconnect {conn : AX25Connection} (up : releases conn) (drained : conn.sent = []) :
    Releases conn conn.disconnect := by
  have known : ¬ (conn.state ≠ .connected ∧ conn.state ≠ .awaitingConnect) := by
    rintro ⟨down, quiet⟩
    simp [releases, down, quiet] at up
  unfold AX25Connection.disconnect
  rw [if_neg known]
  refine ⟨rfl, ⟨.inl rfl, rfl, rfl⟩, .disc conn.makeDest conn.makeSrc, ?_,
    AX25Frame.frameType_disc⟩
  simp [AX25Connection.startT1, AX25Connection.send, AX25Connection.stopT1, AX25Connection.stopT3,
    AX25Connection.makeDest, AX25Connection.makeSrc, drained]

/-- A's half of a call that is over; `left` says whether B began to release it. -/
structure Ended (link : Link) (left : Bool) : Prop where
  gone : Gone link.a
  drained : link.a.sent = []
  late : ∀ frame ∈ link.ab, Late frame
  awaited : link.a.state = .awaitingRelease →
    (∃ frame ∈ link.ab, frame.frameType = .disc) ∨ ∃ frame ∈ link.ba, Closing frame
  honest : Link.received link.b <+: link.writtenA
  whole : left = false → Link.received link.b ++ link.a.txQueue.flatten = link.writtenA

structure Over (call : Call) : Prop where
  left : call.leftA = true ∨ call.leftB = true
  a : Ended call.link call.leftB
  b : Ended call.link.swap call.leftA

theorem Over.swap (ended : call.Over) : call.swap.Over := ⟨ended.left.symm, ended.b, ended.a⟩

theorem Over.stepA (ended : call.Over) (calm : Calm event) (stepped : call.stepA event = some next) :
    next.Over := by
  obtain ⟨left, a, b⟩ := ended
  have honest {conn : AX25Connection} (same : Link.received conn = Link.received call.link.a) :
      Link.received conn <+: call.link.writtenB := by
    rw [same]
    exact b.honest
  have whole {conn : AX25Connection} (same : Link.received conn = Link.received call.link.a)
      (stays : call.leftA = false) :
      Link.received conn ++ call.link.b.txQueue.flatten = call.link.writtenB := by
    rw [same]
    exact b.whole stays
  rcases gone_stepA a.gone a.drained calm stepped with
    ⟨armed, rfl⟩ | ⟨frame, rest, arrived, rfl⟩
  · exact ⟨left, { a with }, { b with }⟩
  · have late := b.late
    simp only [Link.swap, arrived] at late
    have takes := a.gone.handleFrame a.drained (late frame (by simp))
    have rests := takes.rests
    refine ⟨left, ?_, ?_⟩
    · refine ⟨rests.gone, rfl, ?_, fun waits => ?_, a.honest,
        fun stays => .trans (congrArg (_ ++ List.flatten ·) rests.txQueue) (a.whole stays)⟩
      · intro other listed
        rcases List.mem_append.mp listed with before | new
        · exact a.late other before
        · exact takes.late other new
      · -- the frame was not what A waits for
        rcases a.awaited (takes.waits waits) with ⟨disc, listed, kind⟩ | ⟨closing, listed, kind⟩
        · exact .inl ⟨disc, List.mem_append_left _ listed, kind⟩
        · rw [arrived] at listed
          rcases List.mem_cons.mp listed with rfl | behind
          · have closed := takes.closed kind
            simp only [Link.settle] at waits
            rw [closed] at waits
            cases waits
          · exact .inr ⟨closing, behind, kind⟩
    · refine ⟨b.gone, b.drained, fun other listed => late other (List.mem_cons_of_mem _ listed), fun waits => ?_,
        honest rests.received, whole rests.received⟩
      rcases b.awaited waits with ⟨disc, listed, kind⟩ | ⟨closing, listed, kind⟩
      · simp only [Link.swap, arrived] at listed
        rcases List.mem_cons.mp listed with rfl | behind
        · obtain ⟨reply, sent, closing⟩ := takes.released kind
          exact .inr ⟨reply, List.mem_append_right _ sent, closing⟩
        · exact .inl ⟨disc, behind, kind⟩
      · exact .inr ⟨closing, List.mem_append_left _ listed, kind⟩

/-- `link` once A has left: behind what A had sent on the link `before` comes its DISC, and B
goes on as if nothing had happened. -/
structure Trails (link before : Link) (disc : AX25Frame) (after : List AX25Frame) : Prop where
  b : link.b = before.b
  writtenA : link.writtenA = before.writtenA
  writtenB : link.writtenB = before.writtenB
  received : Link.received link.a = Link.received before.a
  txQueue : link.a.txQueue = before.a.txQueue
  ab : link.ab = before.ab ++ disc :: after
  release : disc.frameType = .disc
  late : ∀ frame ∈ after, Late frame

/-- A has left and B does not know of it. -/
structure Leaving (call : Call) : Prop where
  left : call.leftA = true
  stays : call.leftB = false
  gone : Gone call.link.a
  drained : call.link.a.sent = []
  late : ∀ frame ∈ call.link.ba, Late frame
  lasts : ∃ before abstract disc after,
    Link.Serving before abstract ∧ Trails call.link before disc after

theorem Leaving.stepA (leaving : call.Leaving) (calm : Calm event)
    (stepped : call.stepA event = some next) : next.Leaving := by
  obtain ⟨before, abstract, disc, after, serving, trails⟩ := leaving.lasts
  rcases gone_stepA leaving.gone leaving.drained calm stepped with
    ⟨armed, rfl⟩ | ⟨frame, rest, arrived, rfl⟩
  · exact { leaving with lasts := ⟨before, abstract, disc, after, serving, { trails with }⟩ }
  · have late := leaving.late
    rw [arrived] at late
    have takes := leaving.gone.handleFrame leaving.drained (late frame (by simp))
    refine ⟨leaving.left, leaving.stays, takes.rests.gone, rfl,
      fun other listed => late other (List.mem_cons_of_mem _ listed), before, abstract, disc,
      after ++ (call.link.a.handleFrame frame).sent, serving,
      { trails with
        received := takes.rests.received.trans trails.received
        txQueue := takes.rests.txQueue.trans trails.txQueue
        ab := ?_
        late := ?_ }⟩
    · simp [Link.settle, trails.ab]
    · intro other listed
      rcases List.mem_append.mp listed with behind | new
      · exact trails.late other behind
      · exact takes.late other new

/-- What B does on the link, it would have done on the link A has left. -/
theorem Trails.follow {link before after : Link} {disc : AX25Frame} {behind : List AX25Frame}
    {event : LinkEvent} (trails : Trails link before disc behind) (calm : Undisturbed event)
    (open_ : event = .deliver → before.ab ≠ [])
    (stepped : link.swap.stepA event = some after) :
    ∃ later, before.swap.stepA event = some later ∧ Trails after.swap later.swap disc behind ∧
      after.b = link.a ∧
      ∃ more, after.ab = link.ba ++ more ∧ later.ab = before.ba ++ more := by
  have same : link.swap.a = before.swap.a := trails.b
  cases event with
  | write data =>
      cases stepped
      refine ⟨_, rfl, { trails with b := ?_, writtenB := ?_ }, rfl, _, rfl, ?_⟩
      · simp only [Link.swap, Link.settle, trails.b]
      · simp only [Link.swap, Link.settle, trails.writtenB]
      · simp only [Link.swap, Link.settle, trails.b]
  | deliver =>
      cases inFlight : before.ab with
      | nil => exact absurd inFlight (open_ rfl)
      | cons frame rest =>
          have arrived := trails.ab
          rw [inFlight] at arrived
          simp only [Link.stepA, Link.swap, arrived, List.cons_append] at stepped
          cases stepped
          simp only [Link.stepA, Link.swap, inFlight]
          refine ⟨_, rfl, { trails with b := ?_, ab := rfl }, rfl, _, rfl, ?_⟩
          · simp only [Link.settle, trails.b]
          · simp only [Link.settle, trails.b]
  | t3Expire =>
      obtain ⟨conn, moved, rfl⟩ := Option.map_eq_some_iff.mp stepped
      rw [same] at moved
      refine ⟨before.swap.settle conn, ?_, { trails with b := rfl }, rfl, _, rfl, rfl⟩
      rw [Link.stepA, moved]
      rfl
  | lose => exact calm.elim
  | t1Expire => exact calm.elim

theorem Trails.late_ab {link before : Link} {abstract : GoBackN.Link Bytes} {disc : AX25Frame}
    {behind : List AX25Frame} (trails : Trails link before disc behind)
    (serving : before.Serving abstract) : ∀ frame ∈ link.ab, Late frame := by
  intro frame listed
  rw [trails.ab] at listed
  rcases List.mem_append.mp listed with sent | listed
  · exact .inl (serving.ordinaryAB frame sent)
  · rcases List.mem_cons.mp listed with rfl | later
    · exact .inr (.inr (.inr trails.release))
    · exact trails.late frame later

/-- Once nothing is in flight to B, it has everything but what A still has in its queue. -/
theorem received_queued {link : Link} {abstract : GoBackN.Link Bytes}
    (serving : link.Serving abstract) (arrived : link.ab = []) :
    Link.received link.b ++ link.a.txQueue.flatten = link.writtenA := by
  have out : abstract.out = [] := by
    have carried := serving.refines.carriedAB
    rw [arrived] at carried
    exact List.forall₂_nil_left_iff.mp carried
  have flow := serving.faultless.ordered.good.1
  have contiguous := serving.faultless.ordered.out.contiguous
  rw [out] at contiguous
  have fewer := flow.received_le
  have all : abstract.near.sent = abstract.far.received := by
    have length := congrArg List.length contiguous
    simp only [List.filterMap_nil, List.map_nil, List.length_nil, List.length_range'] at length
    omega
  rw [serving.received_eq, serving.written_eq, flow.delivered_eq, serving.refines.tracksA.queued,
    all, ← List.flatten_append, List.take_append_drop]

/-- B has left as well, or has learnt that A has. -/
theorem Leaving.ends {conn : AX25Connection} {rest : List AX25Frame} {left : Bool}
    (leaving : call.Leaving) (gone : Gone conn)
    (received : Link.received conn = Link.received call.link.b)
    (late : ∀ frame ∈ rest, Late frame) (closing : ∀ frame ∈ conn.sent, Closing frame)
    (reply : conn.sent ≠ [])
    (waits : conn.state = .awaitingRelease → ∃ frame ∈ conn.sent, frame.frameType = .disc)
    (whole : left = false →
      Link.received call.link.b ++ call.link.a.txQueue.flatten = call.link.writtenA) :
    Over
      { link := ({ call.link.swap with ba := rest }.settle conn).swap
        leftA := call.leftA, leftB := left } := by
  obtain ⟨before, abstract, disc, after, serving, trails⟩ := leaving.lasts
  have synced : before.Synced := ⟨abstract, serving.refines⟩
  refine ⟨.inl leaving.left, ?_, ?_⟩
  · refine ⟨leaving.gone, leaving.drained, late, fun _ => ?_, ?_, ?_⟩
    · obtain ⟨frame, sent⟩ := List.exists_mem_of_ne_nil _ reply
      exact .inr ⟨frame, List.mem_append_right _ sent, closing frame sent⟩
    · have honest := synced.received
      rw [← trails.b, ← trails.writtenA, ← received] at honest
      exact honest
    · exact fun stays => .trans (congrArg (· ++ call.link.a.txQueue.flatten) received) (whole stays)
  · refine ⟨gone, rfl, ?_, fun waiting => ?_, ?_, fun stays => ?_⟩
    · intro frame listed
      rcases List.mem_append.mp listed with before | new
      · exact leaving.late frame before
      · exact .inr (closing frame new)
    · obtain ⟨frame, sent, kind⟩ := waits waiting
      exact .inl ⟨frame, List.mem_append_right _ sent, kind⟩
    · have honest := synced.swap.received
      simp only [Link.swap] at honest
      rw [← trails.received, ← trails.writtenB] at honest
      exact honest
    · have left := leaving.left
      dsimp only at stays
      rw [left] at stays
      cases stays

theorem Leaving.stepB (leaving : call.Leaving) (calm : Calm event)
    (stepped : call.swap.stepA event = some next) : next.swap.Leaving ∨ next.swap.Over := by
  obtain ⟨before, abstract, disc, after, serving, trails⟩ := leaving.lasts
  have working : Working call.link.b := trails.b ▸ serving.workingB
  have drained : call.link.b.sent = [] := trails.b ▸ serving.refines.drainedB
  cases event with
  | disconnect =>
      cases stepped
      have up : releases call.link.b := by simp [releases, working.connected]
      obtain ⟨state, rests, disc', sent, kind⟩ := releases_disconnect up drained
      right
      have ended := @Leaving.ends call call.link.b.disconnect call.link.ab true leaving rests.gone
        rests.received (trails.late_ab serving) (by simp [sent, Closing, kind]) (by simp [sent])
        (fun _ => ⟨disc', by simp [sent], kind⟩) (fun stays => by cases stays)
      simp only [Call.swap, Link.swap, up, Bool.or_true] at ended ⊢
      exact ended
  | link event =>
      have heeded : heeds call.link.b event = true := by
        cases event <;> simp [heeds, working.connected]
      have moved : call.swap.stepA (.link event) =
          (call.link.swap.stepA event).map fun link => { call.swap with link } := if_pos heeded
      rw [moved] at stepped
      obtain ⟨link, moved, rfl⟩ := Option.map_eq_some_iff.mp stepped
      by_cases open_ : event = .deliver → before.ab ≠ []
      · left
        obtain ⟨later, followed, trails, same, more, sent, further⟩ :=
          trails.follow calm open_ moved
        have serves := serving.swap.stepA calm
        rw [followed, Option.getD_some] at serves
        refine ⟨leaving.left, leaving.stays, ?_, ?_, ?_, later.swap, _, disc, after, serves.swap,
          trails⟩
        · simp only [Call.swap, Link.swap, same]
          exact leaving.gone
        · simp only [Call.swap, Link.swap, same]
          exact leaving.drained
        · intro frame listed
          simp only [Call.swap, Link.swap, sent] at listed
          rcases List.mem_append.mp listed with before | new
          · exact leaving.late frame before
          · exact .inl (serves.ordinaryAB frame (further ▸ List.mem_append_right _ new))
      · right
        obtain ⟨rfl, arrived⟩ : event = .deliver ∧ before.ab = [] := by simpa using open_
        have behind := trails.ab
        rw [arrived, List.nil_append] at behind
        have kind := trails.release
        simp only [Link.stepA, Link.swap, behind] at moved
        cases moved
        have handled : call.link.b.handleFrame disc = call.link.b.handleDisc := by
          simp only [AX25Connection.handleFrame, kind]
        have sent : call.link.b.handleDisc.sent =
            [.ua call.link.b.makeDest call.link.b.makeSrc] := by
          simp [AX25Connection.handleDisc, AX25Connection.putRx, AX25Connection.send,
            AX25Connection.stopT1, AX25Connection.stopT3, AX25Connection.makeDest,
            AX25Connection.makeSrc, drained]
        have ended := @Leaving.ends call call.link.b.handleDisc after call.leftB leaving
          (.inr rfl) received_putRx_nil trails.late (by simp [sent, Closing])
          (by simp [sent]) (fun waits => by cases waits) fun _ => by
            have whole := received_queued serving arrived
            rw [← trails.b, ← trails.writtenA, ← trails.txQueue] at whole
            exact whole
        simp only [Call.swap, Link.swap, handled] at ended ⊢
        exact ended

structure Up (call : Call) : Prop where
  stayA : call.leftA = false
  stayB : call.leftB = false
  serves : ∃ abstract, call.link.Serving abstract

theorem Up.swap (up : call.Up) : call.swap.Up where
  stayA := up.stayB
  stayB := up.stayA
  serves := up.serves.imp' _ fun _ serving => serving.swap

theorem Up.stepA (up : call.Up) (calm : Calm event) (stepped : call.stepA event = some next) :
    next.Up ∨ next.Leaving := by
  obtain ⟨abstract, serving⟩ := up.serves
  have working := serving.workingA
  cases event with
  | disconnect =>
      cases stepped
      have releasing : releases call.link.a := by simp [releases, working.connected]
      obtain ⟨state, rests, disc, sent, kind⟩ :=
        releases_disconnect releasing serving.refines.drainedA
      right
      refine ⟨by simp [releasing], up.stayB, rests.gone, rfl,
        fun frame listed => .inl (serving.ordinaryBA frame listed), call.link, abstract, disc, [],
        serving, rfl, rfl, rfl, rests.received, rests.txQueue, ?_, kind, by simp⟩
      simp only [Link.settle, sent]
  | link event =>
      have heeded : heeds call.link.a event = true := by
        cases event <;> simp [heeds, working.connected]
      have moved : call.stepA (.link event) =
          (call.link.stepA event).map fun link => { call with link } := if_pos heeded
      rw [moved] at stepped
      obtain ⟨link, moved, rfl⟩ := Option.map_eq_some_iff.mp stepped
      have serves := serving.stepA calm
      rw [moved] at serves
      exact .inl ⟨up.stayA, up.stayB, _, serves⟩

/-- A connection before any traffic. -/
structure Unused (conn : AX25Connection) : Prop where
  vs : conn.vs = 0
  vr : conn.vr = 0
  va : conn.va = 0
  txQueue : conn.txQueue = []
  rxQueue : conn.rxQueue = []
  sent : conn.sent = []
  peerFree : conn.peerBusy = false
  localFree : conn.localBusy = false
  positive : 0 < conn.paclen

/-- The connection once the SABM or the UA has come in. -/
def raised (conn : AX25Connection) (t1Armed : Bool) : AX25Connection :=
  { conn with
    state := .connected, vs := 0, vr := 0, va := 0, retryCount := 0
    unacked := fun _ => none, peerBusy := false, t1Armed, t3Armed := true, connectedEvent := true
    sent := [] }

section Unused

variable {conn : AX25Connection}

theorem Unused.fresh (unused : Unused conn) (t1Armed : Bool) :
    Link.Fresh (raised conn t1Armed) ∧ Working (raised conn t1Armed) :=
  ⟨⟨rfl, rfl, rfl, rfl, unused.txQueue, unused.rxQueue, rfl⟩,
    ⟨rfl, rfl, unused.localFree, unused.positive⟩⟩

theorem Unused.handleUa (unused : Unused conn) (waiting : conn.state = .awaitingConnect) :
    conn.handleUa = raised conn false := by
  have queue := unused.txQueue
  have sent := unused.sent
  cases conn
  cases queue
  cases sent
  cases waiting
  rfl

theorem Unused.handleSabm (unused : Unused conn) :
    conn.handleSabm =
      { raised conn conn.t1Armed with sent := [.ua conn.makeDest conn.makeSrc] } := by
  have sent := unused.sent
  cases conn
  cases sent
  simp only [AX25Connection.handleSabm]
  split <;> rfl

end Unused

/-- The call as it is going to be when the UA in front of `rest` has come in. -/
def rise (call : Call) (rest : List AX25Frame) : Call :=
  { call with link := { call.link with a := raised call.link.a false, ba := rest } }

/-- The UA is on its way to A, and behind it what B has sent. -/
structure Raising (call : Call) : Prop where
  unused : Unused call.link.a
  waiting : call.link.a.state = .awaitingConnect
  silent : call.link.ab = []
  answer : ∃ ua rest, ua.frameType = .ua ∧ call.link.ba = ua :: rest ∧
    ((call.rise rest).Up ∨ (call.rise rest).swap.Leaving)

/-- B does not know whether the UA has come in. -/
theorem rise_stepB {ua : AX25Frame} {rest : List AX25Frame} (silent : call.link.ab = [])
    (answer : call.link.ba = ua :: rest) (calm : Calm event)
    (stepped : call.swap.stepA event = some next) :
    next.link.b = call.link.a ∧ next.link.ba = [] ∧ ∃ more, next.link.ab = ua :: more ∧
      (call.rise rest).swap.stepA event = some (next.swap.rise more).swap := by
  cases event with
  | disconnect =>
      cases stepped
      exact ⟨rfl, silent, rest ++ call.link.b.disconnect.sent,
        congrArg (· ++ call.link.b.disconnect.sent) answer, rfl⟩
  | link event =>
      by_cases heeded : heeds call.link.b event = true
      · have moved : call.swap.stepA (.link event) =
            (call.link.swap.stepA event).map fun link => { call.swap with link } := if_pos heeded
        have later : (call.rise rest).swap.stepA (.link event) =
            ((call.rise rest).link.swap.stepA event).map fun link =>
              { (call.rise rest).swap with link } := if_pos heeded
        rw [moved] at stepped
        obtain ⟨link, moved, rfl⟩ := Option.map_eq_some_iff.mp stepped
        cases event with
        | write data =>
            cases moved
            exact ⟨rfl, silent, _, congrArg (· ++ _) answer, later⟩
        | deliver => simp [Link.stepA, Link.swap, silent] at moved
        | t3Expire =>
            obtain ⟨conn, expired, rfl⟩ := Option.map_eq_some_iff.mp moved
            refine ⟨rfl, silent, rest ++ conn.sent, congrArg (· ++ conn.sent) answer, ?_⟩
            rw [later, Link.stepA]
            have same : (call.rise rest).link.swap.a.step .t3Expire = some conn := expired
            rw [same]
            rfl
        | lose => exact calm.elim
        | t1Expire => exact calm.elim
      · have unmoved : call.swap.stepA (.link event) = some call.swap := if_neg heeded
        rw [unmoved] at stepped
        cases stepped
        exact ⟨rfl, silent, rest, answer, if_neg heeded⟩

/-- The SABM is on its way to B. -/
structure Dialled (call : Call) : Prop where
  unusedA : Unused call.link.a
  unusedB : Unused call.link.b
  down : call.link.b.state = .disconnected
  silent : call.link.ba = []
  nothingA : call.link.writtenA = []
  nothingB : call.link.writtenB = []
  stays : call.leftB = false
  outgoing : ∃ sabm, sabm.frameType = .sabm ∧
    (call.link.a.state = .awaitingConnect ∧ call.leftA = false ∧ call.link.ab = [sabm] ∨
      ∃ disc, disc.frameType = .disc ∧ call.link.a.state = .awaitingRelease ∧
        call.leftA = true ∧ call.link.ab = [sabm, disc])

/-- Where a call stands. -/
inductive Phase (call : Call) : Prop where
  | dialled (dialled : call.Dialled)
  | raising (raising : call.Raising)
  | up (up : call.Up)
  | leavingA (leaving : call.Leaving)
  | leavingB (leaving : call.swap.Leaving)
  | ended (ended : call.Over)

theorem Raising.stepB (raising : call.Raising) (calm : Calm event)
    (stepped : call.swap.stepA event = some next) : next.swap.Raising := by
  obtain ⟨ua, rest, kind, arrived, ahead⟩ := raising.answer
  obtain ⟨same, silent, more, sent, later⟩ := rise_stepB raising.silent arrived calm stepped
  have unused := raising.unused
  have waiting := raising.waiting
  rw [← same] at unused waiting
  refine ⟨unused, waiting, silent, ua, more, kind, sent, ?_⟩
  · rcases ahead with up | leaving
    · exact (up.swap.stepA calm later).imp (fun up => up.swap) id
    · exact .inr (leaving.stepA calm later)

theorem Raising.stepA (raising : call.Raising) (calm : Calm event)
    (stepped : call.stepA event = some next) : next.Phase := by
  obtain ⟨ua, rest, kind, arrived, ahead⟩ := raising.answer
  have unused := raising.unused
  have waiting := raising.waiting
  cases event with
  | link event =>
      have down : call.link.a.state ≠ .connected := by simp [waiting]
      rcases down_stepA down unused.sent calm stepped with
        ⟨armed, rfl⟩ | ⟨frame, behind, waits, rfl⟩
      · exact .raising ⟨{ unused with }, waiting, raising.silent, ua, rest, kind, arrived, ahead⟩
      · rw [arrived] at waits
        cases waits
        have handled : call.link.a.handleFrame ua = raised call.link.a false := by
          rw [← unused.handleUa waiting]
          simp only [AX25Connection.handleFrame, kind]
        rw [handled, settle_drained (by rfl)]
        exact ahead.elim .up .leavingB
  | disconnect =>
      cases stepped
      have releasing : releases call.link.a := by simp [releases, waiting]
      obtain ⟨state, rests, disc, sent, release⟩ := releases_disconnect releasing unused.sent
      have nothing : Link.received (raised call.link.a false) = Link.received call.link.a := rfl
      rcases ahead with up | leaving
      · obtain ⟨abstract, serving⟩ := up.serves
        have ordinary : ∀ frame ∈ call.link.ba, Late frame := by
          intro frame listed
          rw [arrived] at listed
          rcases List.mem_cons.mp listed with rfl | behind
          · exact .inr (.inl kind)
          · exact .inl (serving.ordinaryBA frame behind)
        refine .leavingA ⟨by simp [releasing], up.stayB, rests.gone, rfl, ordinary, _, abstract,
          disc, [], serving, rfl, rfl, rfl, rests.received, rests.txQueue, ?_, release, by simp⟩
        simp only [Link.settle, sent, rise]
      · have late : ∀ frame ∈ ua :: rest, Late frame := by
          intro frame listed
          rcases List.mem_cons.mp listed with rfl | behind
          · exact .inr (.inl kind)
          · obtain ⟨before, abstract, disc, after, serving, trails⟩ := leaving.lasts
            exact trails.late_ab serving frame behind
        have ended := @Leaving.ends (call.rise rest).swap call.link.a.disconnect (ua :: rest) true
          leaving rests.gone rests.received late (by simp [sent, Closing, release]) (by simp [sent])
          (fun _ => ⟨disc, by simp [sent], release⟩) (fun stays => by cases stays)
        simp only [Call.swap, Link.swap, rise, ← arrived, releasing, Bool.or_true] at ended ⊢
        exact .ended ended.swap

theorem Unused.disconnect {conn : AX25Connection} (unused : Unused conn) :
    Unused { conn.disconnect with sent := [] } := by
  unfold AX25Connection.disconnect
  split
  · exact { unused with sent := rfl }
  · exact { unused with sent := rfl }

theorem Dialled.stepA (dialled : call.Dialled) (calm : Calm event)
    (stepped : call.stepA event = some next) : next.Dialled := by
  have unused := dialled.unusedA
  obtain ⟨sabm, kind, outgoing⟩ := dialled.outgoing
  have down : call.link.a.state ≠ .connected := by
    rcases outgoing with ⟨state, -⟩ | ⟨disc, -, state, -⟩ <;> simp [state]
  cases event with
  | link event =>
      rcases down_stepA down unused.sent calm stepped with ⟨armed, rfl⟩ | ⟨frame, rest, arrived, -⟩
      · exact { dialled with unusedA := { unused with } }
      · rw [dialled.silent] at arrived
        cases arrived
  | disconnect =>
      cases stepped
      rcases outgoing with ⟨state, stays, sent⟩ | ⟨disc, release, state, left, sent⟩
      · have releasing : releases call.link.a := by simp [releases, state]
        obtain ⟨state, rests, disc, new, release⟩ := releases_disconnect releasing unused.sent
        refine { dialled with unusedA := unused.disconnect, outgoing := ?_ }
        exact ⟨sabm, kind, .inr ⟨disc, release, state, by simp [releasing],
          by simp [Link.settle, sent, new]⟩⟩
      · have gone : Gone call.link.a := .inl state
        rw [gone.disconnect, settle_drained unused.sent]
        exact { dialled with
          outgoing := ⟨sabm, kind, .inr ⟨disc, release, state, by simp [left], sent⟩⟩ }

theorem Dialled.stepB (dialled : call.Dialled) (calm : Calm event)
    (stepped : call.swap.stepA event = some next) : next.swap.Phase := by
  have unusedA := dialled.unusedA
  have unusedB := dialled.unusedB
  obtain ⟨sabm, kind, outgoing⟩ := dialled.outgoing
  have gone : Gone call.swap.link.a := .inr dialled.down
  rcases gone_stepA gone unusedB.sent calm stepped with ⟨armed, rfl⟩ | ⟨frame, rest, arrived, rfl⟩
  · exact .dialled { dialled with unusedB := { unusedB with } }
  -- the link as it is once both ends have come up
  have opened : ({ call.link with
      a := raised call.link.a false, b := raised call.link.b call.link.b.t1Armed
      ab := [], ba := [] } : Link).Serving Link.idle :=
    Link.Initial.serving
      ⟨(unusedA.fresh _).1, (unusedB.fresh _).1, rfl, rfl, dialled.nothingA, dialled.nothingB⟩
      (unusedA.fresh _).2 (unusedB.fresh _).2
  have handled : call.swap.link.a.handleFrame sabm =
      { raised call.link.b call.link.b.t1Armed with
        sent := [.ua call.link.b.makeDest call.link.b.makeSrc] } := by
    rw [← unusedB.handleSabm]
    simp only [AX25Connection.handleFrame, kind, Call.swap, Link.swap]
  have answered (rest : List AX25Frame) :
      { call.swap.link with ba := rest }.settle (call.swap.link.a.handleFrame sabm) =
        ({ call.link with
          b := raised call.link.b call.link.b.t1Armed, ab := rest
          ba := [.ua call.link.b.makeDest call.link.b.makeSrc] } : Link).swap := by
    have quiet : call.link.ba = [] := dialled.silent
    rw [handled]
    simp only [Link.settle, Call.swap, Link.swap, quiet, List.nil_append]
    rfl
  rcases outgoing with ⟨waiting, stays, sent⟩ | ⟨disc, release, state, left, sent⟩
  · have same : call.link.ab = frame :: rest := arrived
    rw [sent] at same
    cases same
    rw [answered]
    exact .raising ⟨unusedA, waiting, rfl, _, [], AX25Frame.frameType_ua, rfl,
      .inl ⟨stays, dialled.stays, _, opened⟩⟩
  · have same : call.link.ab = frame :: rest := arrived
    rw [sent] at same
    cases same
    rw [answered]
    refine .leavingA ⟨left, dialled.stays, .inl state, unusedA.sent, ?_, _, _, disc, [], opened,
      rfl, rfl, rfl, rfl, rfl, rfl, release, by simp⟩
    intro frame listed
    rw [List.mem_singleton.mp listed]
    exact .inr (.inl AX25Frame.frameType_ua)

theorem Phase.step {event : Side × CallEvent} (phase : call.Phase) (calm : Calm event.2)
    (stepped : call.step event = some next) : next.Phase := by
  obtain ⟨side, event⟩ := event
  cases side with
  | a =>
      cases phase with
      | dialled dialled => exact .dialled (dialled.stepA calm stepped)
      | raising raising => exact raising.stepA calm stepped
      | up up => exact (up.stepA calm stepped).elim .up .leavingA
      | leavingA leaving => exact .leavingA (leaving.stepA calm stepped)
      | leavingB leaving =>
          exact (leaving.stepB calm stepped).elim .leavingB fun ended => .ended ended.swap
      | ended ended => exact .ended (ended.stepA calm stepped)
  | b =>
      obtain ⟨moved, advanced, rfl⟩ := Option.map_eq_some_iff.mp stepped
      cases phase with
      | dialled dialled => exact dialled.stepB calm advanced
      | raising raising => exact .raising (raising.stepB calm advanced)
      | up up =>
          rcases up.swap.stepA calm advanced with up | leaving
          · exact .up up.swap
          · exact .leavingB leaving
      | leavingA leaving => exact (leaving.stepB calm advanced).elim .leavingA .ended
      | leavingB leaving => exact .leavingB (leaving.stepA calm advanced)
      | ended ended => exact .ended (ended.swap.stepA calm advanced).swap

/-- Each side has received a prefix of what the other has written. -/
def Honest (link : Link) : Prop :=
  Link.received link.b <+: link.writtenA ∧ Link.received link.a <+: link.writtenB

theorem Up.honest (up : call.Up) : Honest call.link := by
  obtain ⟨abstract, serving⟩ := up.serves
  have synced : call.link.Synced := ⟨abstract, serving.refines⟩
  exact ⟨synced.received, synced.swap.received⟩

theorem Leaving.honest (leaving : call.Leaving) : Honest call.link := by
  obtain ⟨before, abstract, disc, after, serving, trails⟩ := leaving.lasts
  have synced : before.Synced := ⟨abstract, serving.refines⟩
  have back : Link.received before.a <+: before.writtenB := synced.swap.received
  refine ⟨?_, ?_⟩
  · rw [trails.b, trails.writtenA]
    exact synced.received
  · rw [trails.received, trails.writtenB]
    exact back

theorem Phase.honest (phase : call.Phase) : Honest call.link := by
  cases phase with
  | dialled dialled =>
      constructor
      · simp [Link.received, dialled.unusedB.rxQueue]
      · simp [Link.received, dialled.unusedA.rxQueue]
  | raising raising =>
      obtain ⟨ua, rest, kind, arrived, ahead⟩ := raising.answer
      rcases ahead with up | leaving
      · exact up.honest
      · exact leaving.honest.symm
  | up up => exact up.honest
  | leavingA leaving => exact leaving.honest
  | leavingB leaving => exact leaving.honest.symm
  | ended ended => exact ⟨ended.a.honest, ended.b.honest⟩

/-- How a call may come to rest: the link stands and all has arrived, or it has been released
by both sides, and what a side has not got of the other's is what the other has kept in its
queue, unless the side has released the link itself. -/
inductive Settled (call : Call) : Prop where
  | standing (stay : call.leftA = false ∧ call.leftB = false)
      (connected : call.link.a.state = .connected ∧ call.link.b.state = .connected)
      (arrived : Link.received call.link.b = call.link.writtenA ∧
        Link.received call.link.a = call.link.writtenB)
  | released (left : call.leftA = true ∨ call.leftB = true)
      (disconnected : call.link.a.state = .disconnected ∧ call.link.b.state = .disconnected)
      (arrivedB : call.leftB = false →
        Link.received call.link.b ++ call.link.a.txQueue.flatten = call.link.writtenA)
      (arrivedA : call.leftA = false →
        Link.received call.link.a ++ call.link.b.txQueue.flatten = call.link.writtenB)

theorem Leaving.in_flight (leaving : call.Leaving) : call.link.ab ≠ [] := by
  obtain ⟨before, abstract, disc, after, serving, trails⟩ := leaving.lasts
  rw [trails.ab]
  simp

theorem Ended.disconnected {link : Link} {left : Bool} (ended : Ended link left) (ab : link.ab = [])
    (ba : link.ba = []) : link.a.state = .disconnected := by
  rcases ended.gone with waits | down
  · have awaited := ended.awaited waits
    simp [ab, ba] at awaited
  · exact down

theorem Phase.settled (phase : call.Phase) (ab : call.link.ab = []) (ba : call.link.ba = []) :
    call.Settled := by
  cases phase with
  | dialled dialled =>
      obtain ⟨sabm, -, ⟨-, -, sent⟩ | ⟨disc, -, -, -, sent⟩⟩ := dialled.outgoing
      · simp [ab] at sent
      · simp [ab] at sent
  | raising raising =>
      obtain ⟨ua, rest, -, arrived, -⟩ := raising.answer
      simp [ba] at arrived
  | up up =>
      obtain ⟨abstract, serving⟩ := up.serves
      exact .standing ⟨up.stayA, up.stayB⟩
        ⟨serving.workingA.connected, serving.workingB.connected⟩
        ⟨(serving.idle_whole ab ba).1, (serving.swap.idle_whole ba ab).1⟩
  | leavingA leaving => exact absurd ab leaving.in_flight
  | leavingB leaving => exact absurd ba leaving.in_flight
  | ended ended =>
      exact .released ended.left ⟨ended.a.disconnected ab ba, ended.b.disconnected ba ab⟩ ended.a.whole
        ended.b.whole

variable {caller answerer : AX25Address} {paclenA paclenB : Int}

theorem dialled (positiveA : 0 < paclenA) (positiveB : 0 < paclenB) :
    (dial caller answerer paclenA paclenB).Dialled :=
  ⟨⟨rfl, rfl, rfl, rfl, rfl, rfl, rfl, rfl, positiveA⟩,
    ⟨rfl, rfl, rfl, rfl, rfl, rfl, rfl, rfl, positiveB⟩, rfl, rfl, rfl, rfl, rfl, _,
    AX25Frame.frameType_sabm, .inl ⟨rfl, rfl, rfl⟩⟩

/-- Over a channel that loses nothing a call keeps to what has been written, and comes to rest
only on a link that stands and has carried everything, or on one that both sides have
released. -/
theorem call_settled {events : List (Side × CallEvent)} {final : Call} (positiveA : 0 < paclenA)
    (positiveB : 0 < paclenB) (calm : ∀ event ∈ events, Calm event.2)
    (completed : run step (dial caller answerer paclenA paclenB) events = some final) :
    Honest final.link ∧ (final.link.ab = [] → final.link.ba = [] → final.Settled) := by
  have phase : final.Phase :=
    @run_preserves_of_everyStep _ _ step (fun _ event => Calm event.2) Phase
      (fun _ _ _ phase calm stepped => phase.step calm stepped) _ _ _
      (.dialled (dialled positiveA positiveB)) (EveryStep.of_forall calm) completed
  exact ⟨phase.honest, phase.settled⟩

/-- The caller writes eight chunks and releases the link before the first is acknowledged. -/
private def hasty : List (Side × CallEvent) :=
  [(.b, .link .deliver), (.a, .link .deliver), (.a, .link (.write [1, 2, 3, 4, 5, 6, 7, 8])),
    (.a, .disconnect)] ++
    List.replicate 8 (.b, .link .deliver) ++ List.replicate 8 (.a, .link .deliver)

theorem call_settled_hasty : ∃ final,
    run step (dial { callsign := "N0A" } { callsign := "N0B" } 1 1) hasty = some final ∧
      final.Settled ∧ final.link.b.state = .disconnected ∧
      Link.received final.link.b = [1, 2, 3, 4, 5, 6, 7] ∧ final.link.a.txQueue = [[8]] := by
  obtain ⟨final, completed, ab, ba, state, received, queue⟩ : ∃ final,
      run step (dial { callsign := "N0A" } { callsign := "N0B" } 1 1) hasty = some final ∧
        final.link.ab = [] ∧ final.link.ba = [] ∧ final.link.b.state = .disconnected ∧
        Link.received final.link.b = [1, 2, 3, 4, 5, 6, 7] ∧ final.link.a.txQueue = [[8]] :=
    ⟨_, rfl, by rfl, by rfl, by rfl, by decide, by rfl⟩
  have calm : ∀ event ∈ hasty, Calm event.2 := by simp [hasty, Calm, Undisturbed]
  have settled := (call_settled (by decide) (by decide) calm completed).2 ab ba
  exact ⟨final, completed, settled, state, received, queue⟩

end Call

end PyBulletin.Ax25
