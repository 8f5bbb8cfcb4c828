import PyBulletin.Ax25.Exchange

set_option autoImplicit false

namespace PyBulletin.Ax25

open PyBulletin.Foundation

namespace AX25Connection

/-- The number of unacknowledged frames. -/
def kept (conn : AX25Connection) : Nat :=
  (List.finRange 8).countP fun key => (conn.unacked key).isSome

private theorem count_behind (vs : Seq) (count : Fin 8) :
    (List.finRange 8).countP (fun key => 0 < ahead key vs ∧ ahead key vs ≤ count.val) =
      count.val := by
  revert vs count
  decide

theorem Suffix.kept {conn : AX25Connection} {count : Nat} (suffix : conn.Suffix count) :
    conn.kept = count := by
  have small : count < 8 := Nat.lt_of_le_of_lt suffix.within (ahead_lt_eight conn.va conn.vs)
  have same : (fun key => (conn.unacked key).isSome) =
      fun key => decide (0 < ahead key conn.vs ∧ ahead key conn.vs ≤ count) := by
    funext key
    exact Bool.eq_iff_iff.mpr (by simpa using suffix.keys key)
  rw [AX25Connection.kept, same]
  exact count_behind conn.vs ⟨count, small⟩

/-- Data is in flight on a connected link. -/
def Active (conn : AX25Connection) : Prop := conn.state = .connected ∧ 0 < conn.kept

instance (conn : AX25Connection) : Decidable conn.Active :=
  inferInstanceAs (Decidable (_ ∧ _))

def numbered (frame : AX25Frame) : Bool :=
  frame.frameType = .i ∨ frame.frameType = .rr ∨ frame.frameType = .rnr ∨ frame.frameType = .rej

/-- A frame whose delivery ends the waiting for the oldest unacknowledged frame: it
acknowledges that frame or everything, ends the link, or is a REJ for another frame. -/
def decisive (conn : AX25Connection) (frame : AX25Frame) : Bool :=
  frame.frameType = .dm ∨
    numbered frame ∧
      ¬ (conn.kept ≤ ahead frame.nr conn.vs ∧ ahead frame.nr conn.vs ≤ ahead conn.va conn.vs) ∨
    frame.frameType = .rej ∧ ahead frame.nr conn.vs ≠ conn.kept

/-- The oldest unacknowledged frame itself. -/
def isOldest (conn : AX25Connection) (frame : AX25Frame) : Bool :=
  frame.frameType = .i ∧ ahead frame.ns conn.vs = conn.kept

/-- A REJ for a frame that is not kept, while others are. -/
def Gap (conn : AX25Connection) (frame : AX25Frame) : Prop :=
  frame.frameType = .rej ∧ conn.state = .connected ∧
    (conn.updateVa frame.nr).unacked frame.nr = none ∧
    ∃ key, ((conn.updateVa frame.nr).unacked key).isSome

end AX25Connection

section Rank

variable (peer : Option AX25Connection)

/-- The chunks still to be sent. -/
def waiting : Nat := (peer.map fun conn => conn.txQueue.length).getD 0

def unanswered : Nat :=
  (peer.map fun conn => if conn.state = .connected then conn.kept else 0).getD 0

/-- How far the oldest unacknowledged frame of one end is from its answer, first the
stage, then the frames before the next one.  Stage 2: it has to be sent again.  Stage 1:
it is under way in `outbound`.  Stage 0: something decisive is under way in `inbound`. -/
def stage (inbound outbound : List AX25Frame) : Nat × Nat :=
  match peer with
  | none => (2, 0)
  | some conn =>
      if conn.Active then
        if inbound.any conn.decisive then (0, inbound.findIdx conn.decisive)
        else if outbound.any conn.isOldest then (1, outbound.findIdx conn.isOldest)
        else (2, 0)
      else (2, 0)

end Rank

/-- An I frame costs more than its acknowledgement, and that more than a DM. -/
def weight (frame : AX25Frame) : Nat :=
  match frame.frameType with
  | .i => 3
  | .rr | .rnr | .rej | .frmr | .unknown => 2
  | _ => 1

def traffic (frames : List AX25Frame) : Nat := (frames.map weight).sum

theorem traffic_append (front back : List AX25Frame) :
    traffic (front ++ back) = traffic front + traffic back := by
  simp [traffic]

theorem controls_append (front back : List AX25Frame) :
    controls (front ++ back) = controls front + controls back := by
  simp [controls]

/-- What counts when both stages stay as they are. -/
def remainder (first second : Nat) (ab ba : List AX25Frame) : Nat :=
  if first = 1 ∨ second = 0 then
    if first = 0 ∨ second = 1 then 0 else ba.length
  else if first = 0 ∨ second = 1 then ab.length
  else traffic ab + traffic ba

/-- The rank of a joint state, from its most significant part down. -/
def rank (a b : Option AX25Connection) (ab ba : List AX25Frame) :
    Nat × Nat × Nat × Nat × Nat × Nat :=
  (controls ab + controls ba, waiting a + waiting b, unanswered a + unanswered b,
    (stage a ba ab).1 + (stage b ab ba).1, (stage a ba ab).2 + (stage b ab ba).2,
    remainder (stage a ba ab).1 (stage b ab ba).1 ab ba)

theorem rank_swap (a b : Option AX25Connection) (ab ba : List AX25Frame) :
    rank b a ba ab = rank a b ab ba := by
  have remainder_swap (first second : Nat) :
      remainder second first ba ab = remainder first second ab ba := by
    simp only [remainder, Or.comm (a := second = 1), Or.comm (a := second = 0)]
    by_cases left : first = 1 ∨ second = 0
    · by_cases right : first = 0 ∨ second = 1 <;> simp [left, right]
    · by_cases right : first = 0 ∨ second = 1 <;> simp [left, right, Nat.add_comm]
  simp only [rank, remainder_swap, Nat.add_comm]

/-- `next` is a later stage than `now`, or the same and no further from its end. -/
def StageLe (next now : Nat × Nat) : Prop := next.1 < now.1 ∨ next.1 = now.1 ∧ next.2 ≤ now.2

/-- Frames sent by the other end do not take a decisive frame away, and a delivered frame
that is the oldest one is answered. -/
theorem stage_outbound (peer : Option AX25Connection) {frame : AX25Frame}
    {inbound replies rest : List AX25Frame}
    (answered : ∀ conn, peer = some conn → conn.Active → conn.isOldest frame →
      ∃ reply ∈ replies, conn.decisive reply) :
    StageLe (stage peer (inbound ++ replies) rest) (stage peer inbound (frame :: rest)) ∧
      ((stage peer inbound (frame :: rest)).1 = 1 →
        (stage peer (inbound ++ replies) rest).1 = 1 →
          (stage peer (inbound ++ replies) rest).2 <
            (stage peer inbound (frame :: rest)).2) := by
  cases peer with
  | none => exact ⟨.inr ⟨rfl, Nat.le_refl _⟩, fun one => nomatch one⟩
  | some conn =>
      by_cases active : conn.Active
      · simp only [stage, if_pos active]
        by_cases near : inbound.any conn.decisive
        · have found : inbound.findIdx conn.decisive < inbound.length :=
            List.findIdx_lt_length.mpr (List.any_eq_true.mp near)
          have still : (inbound ++ replies).any conn.decisive := by simp [near]
          rw [if_pos near, if_pos still, List.findIdx_append, if_pos found]
          exact ⟨.inr ⟨rfl, Nat.le_refl _⟩, fun one => nomatch one⟩
        · rw [if_neg near]
          by_cases reply : (inbound ++ replies).any conn.decisive
          · rw [if_pos reply]
            refine ⟨.inl ?_, fun _ one => nomatch one⟩
            split <;> simp
          · rw [if_neg reply]
            have other : conn.isOldest frame = false := by
              cases oldest : conn.isOldest frame with
              | false => rfl
              | true =>
                  obtain ⟨sent, among, ends⟩ := answered conn rfl active oldest
                  have also : (inbound ++ replies).any conn.decisive :=
                    List.any_eq_true.mpr ⟨sent, by simp [among], ends⟩
                  exact absurd also reply
            simp only [List.any_cons, other, Bool.false_or, List.findIdx_cons, cond_false]
            split
            · exact ⟨.inr ⟨rfl, Nat.le_succ _⟩, fun _ _ => Nat.lt_succ_self _⟩
            · exact ⟨.inr ⟨rfl, Nat.le_refl _⟩, fun one => nomatch one⟩
      · simp only [stage, if_neg active]
        exact ⟨.inr ⟨rfl, Nat.le_refl _⟩, fun one => nomatch one⟩

/-- A delivery to `conn` after which the same frames are queued and unacknowledged. -/
structure Calm (conn : AX25Connection) (frame : AX25Frame) (next : AX25Connection)
    (out : List AX25Frame) : Prop where
  active : next.Active ↔ conn.Active
  quiet : conn.Active → conn.decisive frame = false
  grows : conn.Active → ∀ other, conn.decisive other → next.decisive other
  oldest : conn.Active → ∀ other, next.isOldest other = conn.isOldest other
  cheap : (conn.Active → ∀ sent ∈ out, conn.isOldest sent = false) → traffic out < weight frame

/-- A delivered frame brings the receiver's own data nearer to its acknowledgement. -/
def Advances (before after : Option AX25Connection) (frame : AX25Frame)
    (out : List AX25Frame) : Prop :=
  ∀ rest outbound,
    StageLe (stage after rest (outbound ++ out)) (stage before (frame :: rest) outbound) ∧
      ((stage before (frame :: rest) outbound).1 = 0 →
        (stage after rest (outbound ++ out)).2 < (stage before (frame :: rest) outbound).2) ∧
      ((stage after rest (outbound ++ out)).1 = 2 → traffic out < weight frame)

variable {conn next : AX25Connection} {frame : AX25Frame} {out : List AX25Frame}

theorem Advances.idle {before after : Option AX25Connection}
    (was : ∀ conn, before = some conn → ¬ conn.Active)
    (now : ∀ conn, after = some conn → ¬ conn.Active) (cheap : traffic out < weight frame) :
    Advances before after frame out := by
  have flat (peer : Option AX25Connection) (idle : ∀ conn, peer = some conn → ¬ conn.Active)
      (inbound outbound : List AX25Frame) : stage peer inbound outbound = (2, 0) := by
    cases peer with
    | none => rfl
    | some conn => exact if_neg (idle conn rfl)
  intro rest outbound
  rw [flat after now, flat before was]
  exact ⟨.inr ⟨rfl, Nat.le_refl _⟩, fun zero => absurd zero (by decide), fun _ => cheap⟩

theorem Calm.advances (calm : Calm conn frame next out) :
    Advances (some conn) (some next) frame out := by
  by_cases active : conn.Active
  · intro rest outbound
    have later := calm.active.mpr active
    have quiet := calm.quiet active
    have oldest := funext (calm.oldest active)
    simp only [stage, if_pos active, if_pos later, List.any_cons, quiet, Bool.false_or,
      List.findIdx_cons, cond_false, oldest]
    by_cases near : rest.any conn.decisive
    · have still : rest.any next.decisive := by
        obtain ⟨sent, among, ends⟩ := List.any_eq_true.mp near
        exact List.any_eq_true.mpr ⟨sent, among, calm.grows active sent ends⟩
      have sooner : rest.findIdx next.decisive ≤ rest.findIdx conn.decisive :=
        List.findIdx_le_findIdx fun sent _ ends => calm.grows active sent ends
      rw [if_pos near, if_pos still]
      exact ⟨.inr ⟨rfl, Nat.le_succ_of_le sooner⟩, fun _ => Nat.lt_succ_of_le sooner,
        fun two => (nomatch two)⟩
    · rw [if_neg near]
      by_cases ends : rest.any next.decisive
      · rw [if_pos ends]
        refine ⟨.inl ?_, fun zero => ?_, fun two => (nomatch two)⟩
        · split <;> simp
        · split at zero <;> cases zero
      · rw [if_neg ends]
        by_cases sent : outbound.any conn.isOldest
        · have found : outbound.findIdx conn.isOldest < outbound.length :=
            List.findIdx_lt_length.mpr (List.any_eq_true.mp sent)
          have still : (outbound ++ out).any conn.isOldest := by simp [sent]
          rw [if_pos sent, if_pos still, List.findIdx_append, if_pos found]
          exact ⟨.inr ⟨rfl, Nat.le_refl _⟩, fun zero => (nomatch zero), fun two => (nomatch two)⟩
        · rw [if_neg sent]
          by_cases resent : (outbound ++ out).any conn.isOldest
          · rw [if_pos resent]
            exact ⟨.inl (by simp), fun zero => (nomatch zero), fun two => (nomatch two)⟩
          · rw [if_neg resent]
            refine ⟨.inr ⟨rfl, Nat.le_refl _⟩, fun zero => (nomatch zero), fun _ => ?_⟩
            apply calm.cheap
            intro _ reply among
            simp only [List.any_append, Bool.or_eq_true, not_or, List.any_eq_true,
              not_exists, not_and, Bool.not_eq_true] at resent
            exact resent.2 reply among
  · have later : ¬ next.Active := fun up => active (calm.active.mp up)
    refine .idle ?_ ?_ (calm.cheap fun up => absurd up active)
    · rintro _ ⟨⟩
      exact active
    · rintro _ ⟨⟩
      exact later

/-- A delivery shortens the queue or the list of unacknowledged frames, or brings the
acknowledgement nearer. -/
def Eased (before after : Option AX25Connection) (frame : AX25Frame)
    (out : List AX25Frame) : Prop :=
  waiting after < waiting before ∨
    waiting after = waiting before ∧
      (unanswered after < unanswered before ∨
        unanswered after = unanswered before ∧ Advances before after frame out)

theorem unanswered_idle (idle : ¬ conn.Active) : unanswered (some conn) = 0 := by
  simp only [AX25Connection.Active, not_and, Nat.not_lt, Nat.le_zero] at idle
  simp only [unanswered, Option.map_some, Option.getD_some]
  split
  · exact idle (by assumption)
  · rfl

theorem unanswered_active (active : conn.Active) : unanswered (some conn) = conn.kept :=
  if_pos active.1

/-- A delivery to a connection without data in flight, which leaves it so. -/
theorem Eased.idle (was : ¬ conn.Active) (now : ¬ next.Active)
    (queue : next.txQueue = conn.txQueue) (cheap : traffic out < weight frame) :
    Eased (some conn) (some next) frame out := by
  refine .inr ⟨congrArg List.length queue, .inr ⟨?_, .idle ?_ ?_ cheap⟩⟩
  · rw [unanswered_idle was, unanswered_idle now]
  · rintro _ ⟨⟩
    exact was
  · rintro _ ⟨⟩
    exact now

namespace AX25Connection

variable {count : Nat}

theorem Settled.kept_eq {nr : Seq} (suffix : conn.Suffix count) (settled : Settled conn nr next) :
    next.kept = conn.remaining nr count := by
  rw [← (suffix.updateVa nr).kept, AX25Connection.kept, AX25Connection.kept,
    funext settled.kept]

/-- What remains outstanding starts where it did or later. -/
theorem remaining_eq_kept {nr : Seq} (all : conn.remaining nr count = count) (some_ : 0 < count) :
    count ≤ ahead nr conn.vs ∧ ahead nr conn.vs ≤ ahead conn.va conn.vs := by
  rw [remaining] at all
  split at all
  · exact ⟨by omega, by assumption⟩
  · omega

/-- A REJ that is no gap asks for the oldest of the frames it leaves. -/
theorem Suffix.rej_oldest (suffix : conn.Suffix count) (connected : conn.state = .connected)
    (kind : frame.frameType = .rej) (near : ¬ conn.Gap frame)
    (all : conn.remaining frame.nr count = count) (some_ : 0 < count) :
    ((conn.updateVa frame.nr).unacked frame.nr).isSome ∧ ahead frame.nr conn.vs = count := by
  have acked : (conn.updateVa frame.nr).Suffix count := by
    have acked := suffix.updateVa frame.nr
    rwa [all] at acked
  obtain ⟨bound, within⟩ := remaining_eq_kept all some_
  have left : ∃ key, ((conn.updateVa frame.nr).unacked key).isSome := by
    have oldest : ahead (conn.vs - 1) conn.vs = 1 := by
      generalize conn.vs = vs
      revert vs
      decide
    refine ⟨conn.vs - 1, (acked.keys _).mpr ?_⟩
    have same : (conn.updateVa frame.nr).vs = conn.vs := rfl
    rw [same, oldest]
    omega
  have present : ((conn.updateVa frame.nr).unacked frame.nr).isSome := by
    rw [Option.isSome_iff_ne_none]
    exact fun absent => near ⟨kind, connected, absent, left⟩
  have upper := ((acked.keys frame.nr).mp present).2
  have same : (conn.updateVa frame.nr).vs = conn.vs := rfl
  rw [same] at upper
  exact ⟨present, Nat.le_antisymm upper bound⟩

theorem Settled.eased (suffix : conn.Suffix count) (connected : conn.state = .connected)
    (kind : numbered frame) (near : ¬ conn.Gap frame)
    (settled : Settled conn frame.nr next)
    (cheap : conn.remaining frame.nr count = count →
      (conn.Active → ∀ sent ∈ out, conn.isOldest sent = false) → traffic out < weight frame) :
    Eased (some conn) (some next) frame out := by
  have kept := suffix.kept
  have left := Settled.kept_eq suffix settled
  have fewer := remaining_le conn frame.nr count
  refine .inr ⟨congrArg List.length settled.queue, ?_⟩
  simp only [unanswered, Option.map_some, Option.getD_some, if_pos connected,
    if_pos settled.state, left, kept]
  rcases Nat.lt_or_eq_of_le fewer with less | all
  · exact .inl less
  · refine .inr ⟨all, Calm.advances ?_⟩
    have same : next.kept = conn.kept := by rw [left, kept, all]
    refine ⟨?_, fun active => ?_, fun active other => ?_, fun active other => ?_, cheap all⟩
    · simp only [Active, settled.state, connected, same]
    · have some_ : 0 < count := kept ▸ active.2
      have bounds := remaining_eq_kept all some_
      have noDm : frame.frameType ≠ .dm := by
        intro dm
        simp [numbered, dm] at kind
      have asked : frame.frameType = .rej → ahead frame.nr conn.vs = count :=
        fun rej => (Suffix.rej_oldest suffix connected rej near all some_).2
      simp only [decisive, kept, noDm, kind, bounds, and_self, not_true_eq_false, and_false,
        false_or, decide_eq_false_iff_not, not_and]
      exact fun rej => not_not.mpr (asked rej)
    · have bounds := remaining_eq_kept all (kept ▸ active.2)
      simp only [decisive, same, settled.vs, settled.va, decide_eq_true_eq]
      rintro (dm | ⟨acks, outside⟩ | rej)
      · exact .inl dm
      · exact .inr (.inl ⟨acks, fun inside => outside ⟨inside.1, Nat.le_trans inside.2 bounds.2⟩⟩)
      · exact .inr (.inr rej)
    · simp only [isOldest, same, settled.vs]

end AX25Connection

open AX25Connection in
/-- One frame that neither opens nor closes the link. -/
theorem Linked.eased {own other : AX25Address} (linked : Linked own other conn)
    (kind : frame.frameType.control = 0) (noUi : frame.frameType ≠ .ui)
    (near : ¬ conn.Gap frame) :
    Eased (some conn) (some { conn.handleFrame frame with sent := [] }) frame
      (conn.handleFrame frame).sent := by
  obtain ⟨count, suffix⟩ := linked.frames
  have drained := linked.drained
  have emptied {last : AX25Connection} {out : List AX25Frame} (sends : conn.Sends last out) : last.sent = out := by
    rw [sends.sent, drained, List.nil_append]
  have idle (apart : conn.state ≠ .connected) : ¬ conn.Active := fun active => apart active.1
  have shorter {last : AX25Connection} (less : last.txQueue.length < conn.txQueue.length) :
      Eased (some conn) (some { last with sent := [] }) frame last.sent := .inl less
  have settles {last : AX25Connection} (connected : conn.state = .connected)
      (acks : numbered frame) (settled : Settled conn frame.nr last)
      (cheap : conn.remaining frame.nr count = count →
        (conn.Active → ∀ sent ∈ last.sent, conn.isOldest sent = false) →
          traffic last.sent < weight frame) :
      Eased (some conn) (some { last with sent := [] }) frame last.sent := by
    have later : Settled conn frame.nr { last with sent := [] } :=
      ⟨settled.state, settled.va, settled.vs, settled.kept, settled.queue⟩
    exact Settled.eased suffix connected acks near later cheap
  have unmoved {last : AX25Connection} (same : last = conn) (apart : conn.state ≠ .connected)
      (cost : weight frame = 2) :
      Eased (some conn) (some { last with sent := [] }) frame last.sent := by
    rw [same, drained]
    exact .idle (idle apart) (idle apart) rfl (by simp [cost, traffic])
  rw [AX25Connection.handleFrame]
  cases shape : frame.frameType with
  | sabm | disc | ua =>
      rw [shape] at kind
      cases kind
  | ui => exact absurd shape noUi
  | dm =>
      have cost : weight frame = 1 := by simp [weight, shape]
      have gone : ¬ { conn.handleDm with sent := [] }.Active := fun active => by cases active.1
      have silent : conn.handleDm.sent = [] := drained
      dsimp only
      rw [silent]
      by_cases active : conn.Active
      · refine .inr ⟨rfl, .inl ?_⟩
        rw [unanswered_idle gone, unanswered_active active]
        exact active.2
      · exact .idle active gone rfl (by simp [cost, traffic])
  | frmr | unknown =>
      have cost : weight frame = 2 := by simp [weight, shape]
      have same : { conn with sent := [] } = conn := by rw [← drained]
      dsimp only
      rw [same, drained]
      refine .inr ⟨rfl, .inr ⟨rfl, Calm.advances ⟨Iff.rfl, fun _ => ?_, fun _ _ ends => ends,
        fun _ _ => rfl, fun _ => by simp [cost, traffic]⟩⟩⟩
      simp [decisive, numbered, shape]
  | i =>
      have cost : weight frame = 3 := by simp [weight, shape]
      dsimp only
      by_cases connected : conn.state = .connected
      · obtain ⟨ack, more, acknowledges, sends, _, queue⟩ := handleI_answer connected frame
        rcases queue with less | ⟨rfl, settled⟩
        · exact shorter less
        · refine settles connected (by simp [numbered, shape]) settled fun _ _ => ?_
          rw [emptied sends, cost]
          have light : weight ack = 2 := by
            rw [Acknowledges] at acknowledges
            split at acknowledges
            · rcases acknowledges.1 with rr | rnr
              · simp [weight, rr]
              · simp [weight, rnr]
            · simp [weight, acknowledges.1]
          simp [traffic, light]
      · rw [AX25Connection.handleI, if_pos connected]
        refine .idle (idle connected) (idle connected) rfl ?_
        rw [cost]
        simp [traffic, AX25Connection.send, drained, weight]
  | rr =>
      have cost : weight frame = 2 := by simp [weight, shape]
      dsimp only
      by_cases connected : conn.state = .connected
      · obtain ⟨more, sends, _, queue⟩ := handleRr_answer connected frame
        rcases queue with less | ⟨rfl, settled⟩
        · exact shorter less
        · refine settles connected (by simp [numbered, shape]) settled fun _ _ => ?_
          rw [emptied sends, cost]
          simp [traffic]
      · exact unmoved (if_pos connected) connected cost
  | rnr =>
      have cost : weight frame = 2 := by simp [weight, shape]
      dsimp only
      by_cases connected : conn.state = .connected
      · obtain ⟨sends, settled⟩ := handleRnr_answer connected frame
        refine settles connected (by simp [numbered, shape]) settled fun _ _ => ?_
        rw [emptied sends, cost]
        simp [traffic]
      · exact unmoved (if_pos connected) connected cost
  | rej =>
      have cost : weight frame = 2 := by simp [weight, shape]
      dsimp only
      by_cases connected : conn.state = .connected
      · obtain ⟨out, sends, numbered_, again, empty, settled⟩ :=
          suffix.handleRej_answer connected frame
        refine settles connected (by simp [numbered, shape]) settled fun all none_ => ?_
        rw [emptied sends] at none_ ⊢
        rcases Nat.eq_zero_or_pos count with rfl | some_
        · rw [empty all, cost]
          simp [traffic]
        · obtain ⟨present, oldest⟩ := Suffix.rej_oldest suffix connected shape near all some_
          obtain ⟨sent, among, number⟩ := again present
          have kept := suffix.kept
          have missed := none_ ⟨connected, by rw [kept]; exact some_⟩ sent among
          simp [isOldest, numbered_ sent among, number, oldest, kept] at missed
      · exact unmoved (if_pos connected) connected cost

section Delivery

variable {own other : AX25Address} {before after peer : Option AX25Connection}
  {inbound rest : List AX25Frame}

theorem Reacts.controls_le (reacts : Reacts own other frame before after out) :
    controls out ≤ frame.frameType.control - 1 := by
  cases reacts with
  | ignored _ kind => simp [controls]
  | refused dm kind noSabm reply => simp [controls, reply, FrameType.control]
  | opened _ conn ua kind reply empty => simp [controls, kind, reply, FrameType.control]
  | received conn kind linked =>
      obtain ⟨count, suffix⟩ := linked.frames
      obtain ⟨out, sends, fewer⟩ := handleFrame_sends suffix frame
      rwa [sends.sent, linked.drained, List.nil_append]

theorem Reacts.eased (reacts : Reacts own other frame before after out)
    (kind : frame.frameType.control = 0) (known : before = none → frame.frameType ≠ .dm)
    (near : ∀ conn, before = some conn → ¬ conn.Gap frame) :
    Eased before after frame out := by
  cases reacts with
  | ignored _ ui =>
      have cost : weight frame = 1 := by simp [weight, ui]
      refine .inr ⟨rfl, .inr ⟨rfl, ?_⟩⟩
      cases before with
      | none => exact .idle (by simp) (by simp) (by simp [cost, traffic])
      | some conn =>
          refine Calm.advances ⟨Iff.rfl, fun _ => ?_, fun _ _ ends => ends, fun _ _ => rfl,
            fun _ => by simp [cost, traffic]⟩
          simp [AX25Connection.decisive, AX25Connection.numbered, ui]
  | refused dm noUi noSabm reply =>
      refine .inr ⟨rfl, .inr ⟨rfl, .idle (by simp) (by simp) ?_⟩⟩
      have noDm := known rfl
      cases shape : frame.frameType <;> simp_all [weight, traffic, FrameType.control]
  | opened _ conn ua sabm reply empty =>
      rw [sabm] at kind
      cases kind
  | received conn noUi linked => exact linked.eased kind noUi (near conn rfl)

/-- The oldest unacknowledged frame is never delivered without an answer that ends the
waiting for it. -/
theorem Reacts.oldest_answered (reacts : Reacts own other frame before after out)
    (active : conn.Active) (oldest : conn.isOldest frame) :
    ∃ reply ∈ out, conn.decisive reply := by
  simp only [AX25Connection.isOldest, decide_eq_true_eq] at oldest
  obtain ⟨data, number⟩ := oldest
  cases reacts with
  | ignored _ ui => simp [data] at ui
  | refused dm noUi noSabm reply =>
      exact ⟨dm, by simp, by simp [AX25Connection.decisive, reply]⟩
  | opened _ conn ua sabm reply empty => simp [data] at sabm
  | received there noUi linked =>
      rw [AX25Connection.handleFrame, data]
      dsimp only
      by_cases connected : there.state = .connected
      · obtain ⟨ack, more, acknowledges, sends, _⟩ :=
          AX25Connection.handleI_answer connected frame
        refine ⟨ack, by simp [sends.sent], ?_⟩
        have kept := active.2
        rw [AX25Connection.Acknowledges] at acknowledges
        simp only [AX25Connection.decisive, AX25Connection.numbered, decide_eq_true_eq]
        split at acknowledges
        case isTrue next =>
            have nearer : ahead (frame.ns + 1) conn.vs < conn.kept := by
              rw [← number] at kept ⊢
              revert kept
              generalize frame.ns = ns
              generalize conn.vs = vs
              revert ns vs
              decide
            right; left
            refine ⟨?_, ?_⟩
            · rcases acknowledges.1 with rr | rnr
              · exact .inr (.inl rr)
              · exact .inr (.inr (.inl rnr))
            · rw [acknowledges.2, ← next]
              omega
        case isFalse apart =>
            right; right
            refine ⟨acknowledges.1, fun same => apart ?_⟩
            rw [acknowledges.2, ← number] at same
            revert same
            generalize frame.ns = ns
            generalize conn.vs = vs
            generalize there.vr = vr
            revert ns vs vr
            decide
      · rw [AX25Connection.handleI, if_pos connected]
        refine ⟨.dm there.makeDest there.makeSrc, by simp [AX25Connection.send], ?_⟩
        simp [AX25Connection.decisive]

theorem stage_le_two (peer : Option AX25Connection) (inbound outbound : List AX25Frame) :
    (stage peer inbound outbound).1 ≤ 2 := by
  cases peer with
  | none => exact Nat.le_refl _
  | some conn =>
      dsimp only [stage]
      split
      · split
        · exact Nat.zero_le _
        · split
          · exact Nat.le_succ 1
          · exact Nat.le_refl 2
      · exact Nat.le_refl _

/-- The lexicographic order on ranks. -/
def Below : Nat × Nat × Nat × Nat × Nat × Nat → Nat × Nat × Nat × Nat × Nat × Nat → Prop :=
  Prod.Lex (· < ·) (Prod.Lex (· < ·) (Prod.Lex (· < ·) (Prod.Lex (· < ·)
    (Prod.Lex (· < ·) (· < ·)))))

/-- The rank falls with every delivery that eases the receiver and answers the sender. -/
theorem rank_falls {outbound : List AX25Frame}
    (fewer : controls out ≤ frame.frameType.control - 1)
    (eased : frame.frameType.control = 0 → Eased before after frame out)
    (answered : ∀ conn, peer = some conn → conn.Active → conn.isOldest frame →
      ∃ reply ∈ out, conn.decisive reply) :
    Below (rank after peer (outbound ++ out) rest)
      (rank before peer outbound (frame :: rest)) := by
  have total : controls (frame :: rest) = frame.frameType.control + controls rest := by
    simp [controls]
  simp only [Below, rank, controls_append, total]
  by_cases kind : 0 < frame.frameType.control
  · exact .left _ _ (by omega)
  refine lex_of_le (by omega) ?_
  rcases eased (by omega) with shorter | ⟨same, less | ⟨settled, advances⟩⟩
  · exact .left _ _ (by omega)
  · exact lex_of_le (by omega) (.left _ _ (by omega))
  refine lex_of_le (by omega) (lex_of_le (by omega) ?_)
  obtain ⟨mine, front, cheap⟩ := advances rest outbound
  obtain ⟨theirs, back⟩ :=
    @stage_outbound peer frame outbound out rest answered
  have low := stage_le_two before (frame :: rest) outbound
  have low' := stage_le_two peer outbound (frame :: rest)
  generalize stage after rest (outbound ++ out) = a' at *
  generalize stage before (frame :: rest) outbound = a at *
  generalize stage peer (outbound ++ out) rest = b' at *
  generalize stage peer outbound (frame :: rest) = b at *
  simp only [StageLe] at mine theirs
  by_cases nearer : a'.1 + b'.1 < a.1 + b.1
  · exact .left _ _ nearer
  refine lex_of_le (by omega) ?_
  by_cases sooner : a'.2 + b'.2 < a.2 + b.2
  · exact .left _ _ sooner
  have still : a'.1 = a.1 ∧ b'.1 = b.1 := by omega
  refine lex_of_le (by omega) ?_
  -- what is left: no end's next decisive frame was in front of the delivered one
  have apart : ¬ (a.1 = 0 ∨ b.1 = 1) := by omega
  rw [still.1, still.2, remainder, remainder, if_neg apart, if_neg apart]
  split
  · simp
  · have lighter := cheap (by omega)
    simp only [traffic_append]
    simp only [traffic, List.map_cons, List.sum_cons] at lighter ⊢
    omega

end Delivery

end PyBulletin.Ax25
