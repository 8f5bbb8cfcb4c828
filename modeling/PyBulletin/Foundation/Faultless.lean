import PyBulletin.Foundation.Fair
import PyBulletin.Foundation.GoBackN

set_option autoImplicit false

universe u

namespace PyBulletin.Foundation.GoBackN

/-! # Go-Back-N over channels that lose nothing

Both peers fill their windows whenever they can and acknowledge every data packet at once.
-/

variable {α : Type u}

/-- Every chunk of the queue is sent until the window is full. -/
def Link.pumpQueue (window : Nat) (link : Link α) : List α → Link α
  | [] => link
  | payload :: queue =>
      if link.near.acked + window ≤ link.near.sent then link
      else
        Link.pumpQueue window
          { link with
            near := { link.near with sent := link.near.sent + 1 }
            out := link.out ++ [.data link.near.sent payload link.near.received] }
          queue

def Link.pump (window : Nat) (link : Link α) : Link α :=
  link.pumpQueue window (link.near.accepted.drop link.near.sent)

/-- What a peer that has received so many chunks answers to a packet. -/
def Packet.answer (received : Nat) : Packet α → List (Packet α)
  | .data _ _ _ => [.ack received]
  | _ => []

def Link.take (link : Link α) (packet : Packet α) (rest : List (Packet α)) : Link α :=
  { link with
    near := link.near.receive packet
    out := link.out ++ packet.answer (link.near.receive packet).received
    back := rest }

inductive Move (α : Type u) where
  | accept (chunks : List α)
  | receive
  | poll
  | rest

def Link.move (window : Nat) (link : Link α) : Move α → Link α
  | .accept chunks =>
      { link with near := { link.near with accepted := link.near.accepted ++ chunks } }.pump window
  | .receive =>
      match link.back with
      | [] => link
      | packet :: rest => (link.take packet rest).pump window
  | .poll => { link with out := link.out ++ [.ack link.near.received] }
  | .rest => link

inductive End where
  | near | far

def Link.turn (window : Nat) (link : Link α) : End × Move α → Link α
  | (.near, move) => link.move window move
  | (.far, move) => (link.mirror.move window move).mirror

@[simp] theorem Link.mirror_mirror (link : Link α) : link.mirror.mirror = link := rfl

/-- In one direction: the data in flight are the chunks the receiver is waiting for, one after
the other, and the last acknowledgement in flight is up to date. -/
structure Unbroken (link : Link α) : Prop where
  contiguous : (link.out.filterMap Packet.data?).map Prod.fst =
    List.range' link.far.received (link.near.sent - link.far.received)
  current : (link.back.filterMap Packet.ack?).getLastD link.near.acked = link.far.received

/-- The sender has nothing to send or no room to send it. -/
def Full (window : Nat) (peer : Peer α) : Prop :=
  peer.accepted.length ≤ peer.sent ∨ peer.acked + window ≤ peer.sent

section Pumping

variable {window : Nat} {link : Link α}

/-- `pump` sends until the window is full, and what sending a new chunk keeps holds after it. -/
theorem pump_keeps {Holds : Link α → Prop}
    (kept : ∀ (link : Link α) (payload : α), link.near.sent < link.near.acked + window →
      link.near.accepted[link.near.sent]? = some payload → Holds link →
      Holds { link with
        near := { link.near with sent := link.near.sent + 1 }
        out := link.out ++ [.data link.near.sent payload link.near.received] })
    (holds : Holds link) : Holds (link.pump window) ∧ Full window (link.pump window).near := by
  have along (queue : List α) : ∀ link : Link α, link.near.accepted.drop link.near.sent = queue →
      Holds link →
      Holds (link.pumpQueue window queue) ∧ Full window (link.pumpQueue window queue).near := by
    induction queue with
    | nil => exact fun link queued holds => ⟨holds, .inl (List.drop_eq_nil_iff.mp queued)⟩
    | cons payload queue ih =>
        intro link queued holds
        rw [Link.pumpQueue]
        split
        next full => exact ⟨holds, .inr full⟩
        next room =>
          have stored : link.near.accepted[link.near.sent]? = some payload := by
            have head := congrArg List.head? queued
            simpa using head
          have rest : link.near.accepted.drop (link.near.sent + 1) = queue := by
            have tail := congrArg List.tail queued
            simpa using tail
          exact ih _ rest (kept link payload (by omega) stored holds)
  exact along _ link rfl holds

/-- Pumping only sends. -/
theorem pump_frame (window : Nat) (link : Link α) :
    ∃ sent more, link.near.sent ≤ sent ∧
      link.pump window =
        { link with near := { link.near with sent := sent }, out := link.out ++ more } := by
  apply And.left
  apply @pump_keeps _ _ _ fun after => ∃ sent more, link.near.sent ≤ sent ∧
    after = { link with near := { link.near with sent := sent }, out := link.out ++ more }
  · rintro after payload room stored ⟨sent, more, grown, rfl⟩
    exact ⟨sent + 1, more ++ [.data sent payload link.near.received], Nat.le_succ_of_le grown,
      by simp⟩
  · exact ⟨link.near.sent, [], Nat.le_refl _, by simp⟩

/-- The directions in order without the windows. -/
structure Ordered (window : Nat) (link : Link α) : Prop where
  good : Good window link
  out : Unbroken link
  back : Unbroken link.mirror

theorem Ordered.sendNew {payload : α} (ordered : Ordered window link)
    (room : link.near.sent < link.near.acked + window)
    (stored : link.near.accepted[link.near.sent]? = some payload) :
    Ordered window
      { link with
        near := { link.near with sent := link.near.sent + 1 }
        out := link.out ++ [.data link.near.sent payload link.near.received] } where
  good := ordered.good.action (.sendNew _ _ room stored)
  out :=
    { contiguous := by
        have received_le := ordered.good.1.received_le
        simp only [List.filterMap_append, List.filterMap_cons, List.filterMap_nil, Packet.data?,
          List.map_append, ordered.out.contiguous, List.map_cons, List.map_nil]
        rw [Nat.succ_sub received_le, List.range'_concat]
        congr 2
        omega
      current := ordered.out.current }
  back :=
    { contiguous := ordered.back.contiguous
      current := by
        simp [Link.mirror, Packet.ack?] }

theorem Ordered.pump (ordered : Ordered window link) :
    Ordered window (link.pump window) ∧ Full window (link.pump window).near :=
  pump_keeps (fun _ _ room stored ordered => ordered.sendNew room stored) ordered

theorem Ordered.sendAck (ordered : Ordered window link) :
    Ordered window { link with out := link.out ++ [.ack link.near.received] } where
  good := ordered.good.action (.sendAck _)
  out :=
    { contiguous := by simpa [List.filterMap_cons, Packet.data?] using ordered.out.contiguous
      current := ordered.out.current }
  back :=
    { contiguous := ordered.back.contiguous
      current := by simp [Link.mirror, Packet.ack?] }

theorem Ordered.in_sequence {number ack : Nat} {payload : α} {rest : List (Packet α)}
    (ordered : Ordered window link) (head : link.back = .data number payload ack :: rest) :
    number = link.near.received ∧
      (rest.filterMap Packet.data?).map Prod.fst =
        List.range' (link.near.received + 1) (link.far.sent - (link.near.received + 1)) := by
  have contiguous := ordered.back.contiguous
  simp only [Link.mirror, head, List.filterMap_cons, Packet.data?, List.map_cons] at contiguous
  cases left : link.far.sent - link.near.received with
  | zero => simp [left] at contiguous
  | succ left' =>
      rw [left, List.range'_succ] at contiguous
      obtain ⟨same, later⟩ := List.cons.inj contiguous
      refine ⟨same, later.trans ?_⟩
      congr 1
      omega

theorem Ordered.take {packet : Packet α} {rest : List (Packet α)}
    (ordered : Ordered window link) (head : link.back = packet :: rest) :
    Ordered window (link.take packet rest) := by
  have received := ordered.good.action (.receive _ packet rest head)
  have current := ordered.out.current
  have contiguous := ordered.back.contiguous
  have answered := ordered.back.current
  simp only [Link.mirror] at contiguous answered
  cases packet with
  | data number payload ack =>
      obtain ⟨same, later⟩ := ordered.in_sequence head
      subst same
      simp only [head, List.filterMap_cons, Packet.ack?, List.getLastD_cons] at current
      simp only [GoBackN.Peer.receive, if_true] at received
      refine ⟨?_, ⟨?_, ?_⟩, ⟨?_, ?_⟩⟩
      · simpa [Link.take, Packet.answer, Peer.receive] using received.action (.sendAck _)
      · simpa [Link.take, Packet.answer, Peer.receive, List.filterMap_cons, Packet.data?] using
          ordered.out.contiguous
      · simpa [Link.take, Peer.receive] using current
      · simpa [Link.take, Link.mirror, Peer.receive] using later
      · simp [Link.take, Link.mirror, Packet.answer, Peer.receive, Packet.ack?]
  | ack number =>
      simp only [head, List.filterMap_cons, Packet.ack?, List.getLastD_cons] at current
      simp only [head, List.filterMap_cons, Packet.data?] at contiguous
      refine ⟨?_, ⟨?_, ?_⟩, ⟨?_, ?_⟩⟩
      · simpa [Link.take, Packet.answer] using received
      · simpa [Link.take, Packet.answer, Peer.receive] using ordered.out.contiguous
      · simpa [Link.take, Peer.receive] using current
      · simpa [Link.take, Link.mirror, Peer.receive] using contiguous
      · simpa [Link.take, Link.mirror, Packet.answer, Peer.receive] using answered
  | control =>
      simp only [head, List.filterMap_cons, Packet.ack?] at current
      simp only [head, List.filterMap_cons, Packet.data?] at contiguous
      refine ⟨?_, ⟨?_, ?_⟩, ⟨?_, ?_⟩⟩
      · simpa [Link.take, Packet.answer] using received
      · simpa [Link.take, Packet.answer, Peer.receive] using ordered.out.contiguous
      · simpa [Link.take, Peer.receive] using current
      · simpa [Link.take, Link.mirror, Peer.receive] using contiguous
      · simpa [Link.take, Link.mirror, Packet.answer, Peer.receive] using answered

theorem Ordered.accept (ordered : Ordered window link) (chunks : List α) :
    Ordered window
      { link with near := { link.near with accepted := link.near.accepted ++ chunks } } where
  good := ordered.good.action (.accept _ chunks)
  out := ⟨ordered.out.contiguous, ordered.out.current⟩
  back := ⟨ordered.back.contiguous, ordered.back.current⟩

end Pumping

/-- Both directions are in order and both windows are filled. -/
structure Faultless (window : Nat) (link : Link α) : Prop where
  ordered : Ordered window link
  fullNear : Full window link.near
  fullFar : Full window link.far

section Turns

variable {window : Nat} {link : Link α}

theorem Faultless.mirror (faultless : Faultless window link) : Faultless window link.mirror :=
  ⟨⟨faultless.ordered.good.mirror, faultless.ordered.back, faultless.ordered.out⟩,
    faultless.fullFar, faultless.fullNear⟩

theorem pump_far (link : Link α) : (link.pump window).far = link.far := by
  obtain ⟨sent, more, _, same⟩ := pump_frame window link
  rw [same]

theorem Faultless.move (faultless : Faultless window link) (move : Move α) :
    Faultless window (link.move window move) := by
  have ordered := faultless.ordered
  cases move with
  | accept chunks =>
      obtain ⟨pumped, full⟩ := (ordered.accept chunks).pump
      exact ⟨pumped, full, by rw [Link.move, pump_far]; exact faultless.fullFar⟩
  | receive =>
      rw [Link.move]
      cases head : link.back with
      | nil => exact faultless
      | cons packet rest =>
          obtain ⟨pumped, full⟩ := (ordered.take head).pump
          exact ⟨pumped, full, by rw [pump_far]; exact faultless.fullFar⟩
  | poll => exact ⟨ordered.sendAck, faultless.fullNear, faultless.fullFar⟩
  | rest => exact faultless

theorem Faultless.turn (faultless : Faultless window link) (turn : End × Move α) :
    Faultless window (link.turn window turn) := by
  obtain ⟨side, move⟩ := turn
  cases side with
  | near => exact faultless.move move
  | far => exact (faultless.mirror.move move).mirror

/-- Once nothing is in flight, everything has arrived and been acknowledged. -/
theorem Faultless.idle (faultless : Faultless window link) (positive : 0 < window)
    (out : link.out = []) (back : link.back = []) :
    link.near.acked = link.near.sent ∧ link.near.sent = link.near.accepted.length ∧
      link.far.delivered = link.near.accepted := by
  have flow := faultless.ordered.good.1
  have received_le := flow.received_le
  have sent_le := flow.sent_le
  have contiguous := faultless.ordered.out.contiguous
  have current := faultless.ordered.out.current
  simp only [out, back, List.filterMap_nil, List.map_nil, List.getLastD_nil] at contiguous current
  have arrived : link.near.sent - link.far.received = 0 := by
    have length := congrArg List.length contiguous
    simpa using length.symm
  have whole : link.near.sent = link.near.accepted.length := by
    rcases faultless.fullNear with all | full
    · omega
    · omega
  refine ⟨by omega, whole, ?_⟩
  rw [flow.delivered_eq, List.take_of_length_le (by omega)]

end Turns

section Progress

variable {window : Nat} {link : Link α}

/-- A move at the near end leaves the far end alone and takes nothing out of the channel to it. -/
theorem move_sends (window : Nat) (link : Link α) (move : Move α) :
    (link.move window move).far = link.far ∧
      ∃ more, (link.move window move).out = link.out ++ more := by
  cases move with
  | accept chunks =>
      obtain ⟨sent, more, _, same⟩ := pump_frame window
        { link with near := { link.near with accepted := link.near.accepted ++ chunks } }
      rw [Link.move, same]
      exact ⟨rfl, more, rfl⟩
  | receive =>
      rw [Link.move]
      cases head : link.back with
      | nil => exact ⟨rfl, [], by simp⟩
      | cons packet rest =>
          obtain ⟨sent, more, _, same⟩ := pump_frame window (link.take packet rest)
          dsimp only
          rw [same]
          exact ⟨rfl, packet.answer (link.near.receive packet).received ++ more, by simp [Link.take]⟩
  | poll => exact ⟨rfl, _, rfl⟩
  | rest => exact ⟨rfl, [], by simp [Link.move]⟩

/-- A move that does not receive leaves what the near end knows of the far end as it is. -/
theorem move_waits (window : Nat) (link : Link α) {move : Move α} (waits : move ≠ .receive) :
    (link.move window move).back = link.back ∧
      (link.move window move).near.acked = link.near.acked ∧
      (link.move window move).near.received = link.near.received := by
  cases move with
  | accept chunks =>
      obtain ⟨sent, more, _, same⟩ := pump_frame window
        { link with near := { link.near with accepted := link.near.accepted ++ chunks } }
      rw [Link.move, same]
      exact ⟨rfl, rfl, rfl⟩
  | receive => exact absurd rfl waits
  | poll => exact ⟨rfl, rfl, rfl⟩
  | rest => exact ⟨rfl, rfl, rfl⟩

theorem move_receive (window : Nat) {packet : Packet α} {rest : List (Packet α)}
    (head : link.back = packet :: rest) :
    (link.move window .receive).back = rest ∧
      (link.move window .receive).near.acked = (link.near.receive packet).acked ∧
      (link.move window .receive).near.received = (link.near.receive packet).received := by
  obtain ⟨sent, more, _, same⟩ := pump_frame window (link.take packet rest)
  rw [Link.move, head]
  dsimp only
  rw [same]
  exact ⟨rfl, rfl, rfl⟩

theorem turn_keeps_out (window : Nat) (link : Link α) {turn : End × Move α}
    (other : turn ≠ (.far, .receive)) :
    (link.turn window turn).far.received = link.far.received ∧
      ∃ more, (link.turn window turn).out = link.out ++ more := by
  obtain ⟨side, move⟩ := turn
  cases side with
  | near =>
      obtain ⟨far, out⟩ := move_sends window link move
      exact ⟨by rw [Link.turn, far], out⟩
  | far =>
      have waits : move ≠ .receive := fun same => other (by rw [same])
      obtain ⟨back, _, received⟩ := move_waits window link.mirror waits
      exact ⟨received, [], by rw [List.append_nil]; exact back⟩

theorem turn_keeps_back (window : Nat) (link : Link α) {turn : End × Move α}
    (other : turn ≠ (.near, .receive)) :
    (link.turn window turn).near.acked = link.near.acked ∧
      ∃ more, (link.turn window turn).back = link.back ++ more := by
  obtain ⟨side, move⟩ := turn
  cases side with
  | near =>
      have waits : move ≠ .receive := fun same => other (by rw [same])
      obtain ⟨back, acked, _⟩ := move_waits window link waits
      exact ⟨acked, [], by rw [List.append_nil]; exact back⟩
  | far =>
      obtain ⟨near, out⟩ := move_sends window link.mirror move
      exact ⟨congrArg Peer.acked near, out⟩

/-- Chunks accepted stay accepted, and sent ones sent. -/
theorem turn_grows (window : Nat) (link : Link α) (turn : End × Move α) :
    link.near.accepted <+: (link.turn window turn).near.accepted ∧
      link.near.sent ≤ (link.turn window turn).near.sent := by
  obtain ⟨side, move⟩ := turn
  cases side with
  | far =>
      obtain ⟨near, _⟩ := move_sends window link.mirror move
      have same : (link.turn window (.far, move)).near = link.near := near
      rw [same]
      exact ⟨List.prefix_rfl, Nat.le_refl _⟩
  | near =>
      cases move with
      | accept chunks =>
          obtain ⟨sent, more, grown, same⟩ := pump_frame window
            { link with near := { link.near with accepted := link.near.accepted ++ chunks } }
          rw [Link.turn, Link.move, same]
          exact ⟨List.prefix_append _ _, grown⟩
      | receive =>
          rw [Link.turn, Link.move]
          cases head : link.back with
          | nil => exact ⟨List.prefix_rfl, Nat.le_refl _⟩
          | cons packet rest =>
              obtain ⟨sent, more, grown, same⟩ := pump_frame window (link.take packet rest)
              have kept : (link.take packet rest).near.accepted = link.near.accepted ∧
                  (link.take packet rest).near.sent = link.near.sent := by
                cases packet with
                | data number payload ack =>
                    simp only [Link.take, Peer.receive]
                    split <;> exact ⟨rfl, rfl⟩
                | ack number => exact ⟨rfl, rfl⟩
                | control => exact ⟨rfl, rfl⟩
              dsimp only
              rw [same]
              exact ⟨⟨[], by rw [List.append_nil, kept.1]⟩, by rw [← kept.2]; exact grown⟩
      | poll => exact ⟨List.prefix_rfl, Nat.le_refl _⟩
      | rest => exact ⟨List.prefix_rfl, Nat.le_refl _⟩

/-- The far end is behind the count, and the first `rank` packets of the channel take it there. -/
structure Arriving (count : Nat) (link : Link α) (rank : Nat) : Prop where
  behind : link.far.received < count
  soon : ∃ front later, link.out = front ++ later ∧ front.length = rank ∧
    count ≤ link.far.received + (front.filterMap Packet.data?).length

/-- The near end knows of less than the count, and the last acknowledgement in the first
`rank` packets towards it tells of it. -/
structure Returning (count : Nat) (link : Link α) (rank : Nat) : Prop where
  behind : link.near.acked < count
  soon : ∃ front later, link.back = front ++ later ∧ front.length = rank ∧
    count ≤ (front.filterMap Packet.ack?).getLastD link.near.acked

theorem Arriving.steady {count rank : Nat} {turn : End × Move α}
    (arriving : Arriving count link rank) (other : turn ≠ (.far, .receive)) : Arriving count (link.turn window turn) rank := by
  obtain ⟨behind, front, later, split, length, enough⟩ := arriving
  obtain ⟨received, more, grown⟩ := turn_keeps_out window link other
  refine ⟨by rw [received]; exact behind, front, later ++ more, ?_, length, ?_⟩
  · rw [grown, split, List.append_assoc]
  · rw [received]
    exact enough

theorem Returning.steady {count rank : Nat} {turn : End × Move α}
    (returning : Returning count link rank) (other : turn ≠ (.near, .receive)) :
    Returning count (link.turn window turn) rank := by
  obtain ⟨behind, front, later, split, length, enough⟩ := returning
  obtain ⟨acked, more, grown⟩ := turn_keeps_back window link other
  refine ⟨by rw [acked]; exact behind, front, later ++ more, ?_, length, ?_⟩
  · rw [grown, split, List.append_assoc]
  · rw [acked]
    exact enough

theorem Arriving.falls {count rank : Nat} (arriving : Arriving count link rank)
    (faultless : Faultless window link) :
    count ≤ (link.turn window (.far, .receive)).far.received ∨
      ∃ lower, lower < rank ∧ Arriving count (link.turn window (.far, .receive)) lower := by
  obtain ⟨behind, front, later, split, rfl, enough⟩ := arriving
  by_cases reached : count ≤ (link.turn window (.far, .receive)).far.received
  · exact .inl reached
  cases front with
  | nil =>
      simp only [List.filterMap_nil, List.length_nil] at enough
      omega
  | cons packet front =>
      have head : link.mirror.back = packet :: (front ++ later) := split
      obtain ⟨out, _, received⟩ := move_receive window head
      refine .inr ⟨front.length, Nat.lt_succ_self _, Nat.lt_of_not_le reached, front, later,
        out, rfl, ?_⟩
      have counted : (link.turn window (.far, .receive)).far.received =
          (link.far.receive packet).received := received
      rw [counted]
      cases packet with
      | data number payload ack =>
          obtain ⟨next, _⟩ := faultless.mirror.ordered.in_sequence head
          have same : number = link.far.received := next
          simp only [List.filterMap_cons, Packet.data?, List.length_cons] at enough
          simp only [Peer.receive, if_pos same]
          omega
      | ack number => simpa [Peer.receive, List.filterMap_cons, Packet.data?] using enough
      | control => simpa [Peer.receive, List.filterMap_cons, Packet.data?] using enough

theorem Returning.falls {count rank : Nat} (returning : Returning count link rank) :
    count ≤ (link.turn window (.near, .receive)).near.acked ∨
      ∃ lower, lower < rank ∧ Returning count (link.turn window (.near, .receive)) lower := by
  obtain ⟨behind, front, later, split, rfl, enough⟩ := returning
  by_cases reached : count ≤ (link.turn window (.near, .receive)).near.acked
  · exact .inl reached
  cases front with
  | nil =>
      simp only [List.filterMap_nil, List.getLastD_nil] at enough
      omega
  | cons packet front =>
      obtain ⟨back, acked, _⟩ := move_receive window split
      refine .inr ⟨front.length, Nat.lt_succ_self _, Nat.lt_of_not_le reached, front, later,
        back, rfl, ?_⟩
      rw [Link.turn, acked]
      cases packet with
      | data number payload ack =>
          have known : (link.near.receive (.data number payload ack)).acked = ack := by
            rw [Peer.receive]
            split <;> rfl
          rw [known]
          simpa only [List.filterMap_cons, Packet.ack?, List.getLastD_cons] using enough
      | ack number =>
          simpa only [List.filterMap_cons, Packet.ack?, List.getLastD_cons, Peer.receive] using enough
      | control => simpa only [List.filterMap_cons, Packet.ack?, Peer.receive] using enough

variable {schedule : Nat → End × Move α} {start : Link α}

theorem course_faultless (schedule : Nat → End × Move α) (faultless : Faultless window start)
    (n : Nat) :
    Faultless window (course (Link.turn window) schedule start n) :=
  course_invariant (fun n before => before.turn (schedule n)) faultless n

/-- What has been sent is received. -/
theorem sent_leads (faultless : Faultless window start)
    (fair : Recurs schedule (· = (.far, .receive))) (n : Nat) :
    ∃ m, n ≤ m ∧ (course (Link.turn window) schedule start n).near.sent ≤
      (course (Link.turn window) schedule start m).far.received := by
  have now := course_faultless schedule faultless n
  generalize target : (course (Link.turn window) schedule start n).near.sent = count
  by_cases reached : count ≤ (course (Link.turn window) schedule start n).far.received
  · exact ⟨n, Nat.le_refl _, reached⟩
  have all : Arriving count (course (Link.turn window) schedule start n)
      (course (Link.turn window) schedule start n).out.length := by
    have length := congrArg List.length now.ordered.out.contiguous
    simp only [List.length_map, List.length_range'] at length
    exact ⟨Nat.lt_of_not_le reached, _, [], by simp, rfl, by omega⟩
  refine @leads_to _ _ (Link.turn window) schedule start _ _
    (fun link => count ≤ link.far.received) fair ?_ ?_ _ _ all
  · exact fun n rank stage other => .inr (stage.steady other)
  · intro n rank stage mine
    rw [course, mine]
    exact stage.falls (course_faultless _ faultless n)

/-- What has been received is acknowledged. -/
theorem received_leads (faultless : Faultless window start)
    (fair : Recurs schedule (· = (.near, .receive))) (n : Nat) :
    ∃ m, n ≤ m ∧ (course (Link.turn window) schedule start n).far.received ≤
      (course (Link.turn window) schedule start m).near.acked := by
  have now := course_faultless schedule faultless n
  generalize target : (course (Link.turn window) schedule start n).far.received = count
  by_cases reached : count ≤ (course (Link.turn window) schedule start n).near.acked
  · exact ⟨n, Nat.le_refl _, reached⟩
  have all : Returning count (course (Link.turn window) schedule start n)
      (course (Link.turn window) schedule start n).back.length :=
    ⟨Nat.lt_of_not_le reached, _, [], by simp, rfl, by rw [now.ordered.out.current, target]⟩
  refine @leads_to _ _ (Link.turn window) schedule start _ _
    (fun link => count ≤ link.near.acked) fair ?_ ?_ _ _ all
  · exact fun n rank stage other => .inr (stage.steady other)
  · intro n rank stage mine
    rw [course, mine]
    exact stage.falls

theorem course_grows (window : Nat) (schedule : Nat → End × Move α) (start : Link α) {n m : Nat}
    (le : n ≤ m) :
    (course (Link.turn window) schedule start n).near.accepted <+:
        (course (Link.turn window) schedule start m).near.accepted ∧
      (course (Link.turn window) schedule start n).near.sent ≤
        (course (Link.turn window) schedule start m).near.sent := by
  induction le with
  | refl => exact ⟨List.prefix_rfl, Nat.le_refl _⟩
  | step _ ih =>
      obtain ⟨more, further⟩ := turn_grows window _ (schedule _)
      exact ⟨ih.1.trans more, Nat.le_trans ih.2 further⟩

/-- Every chunk accepted is sent: whatever is missing, a full window of it goes out once
the window before it is acknowledged. -/
theorem accepted_leads (positive : 0 < window) (faultless : Faultless window start)
    (fairFar : Recurs schedule (· = (.far, .receive)))
    (fairNear : Recurs schedule (· = (.near, .receive))) {count n : Nat}
    (accepted : count ≤ (course (Link.turn window) schedule start n).near.accepted.length) :
    ∃ m, n ≤ m ∧ count ≤ (course (Link.turn window) schedule start m).near.sent := by
  generalize missing : count - (course (Link.turn window) schedule start n).near.sent = left
  induction left using Nat.strongRecOn generalizing n with
  | ind left ih =>
      by_cases reached : count ≤ (course (Link.turn window) schedule start n).near.sent
      · exact ⟨n, Nat.le_refl _, reached⟩
      obtain ⟨k, after, arrived⟩ := sent_leads faultless fairFar n
      obtain ⟨m, later, acked⟩ := received_leads faultless fairNear k
      have longer := (course_grows window schedule start
        (Nat.le_trans after later)).1.length_le
      have further : min count ((course (Link.turn window) schedule start n).near.sent + 1) ≤
          (course (Link.turn window) schedule start m).near.sent := by
        rcases (course_faultless schedule faultless m).fullNear with all | full
        · omega
        · omega
      obtain ⟨last, after', reached⟩ := ih _ (by omega) (n := m) (by omega) rfl
      exact ⟨last, by omega, reached⟩

/-- Whatever has been accepted at some time is delivered at a later one. -/
theorem delivered_leads (positive : 0 < window) (faultless : Faultless window start)
    (fairFar : Recurs schedule (· = (.far, .receive)))
    (fairNear : Recurs schedule (· = (.near, .receive))) (n : Nat) :
    ∃ m, n ≤ m ∧ (course (Link.turn window) schedule start n).near.accepted <+:
      (course (Link.turn window) schedule start m).far.delivered := by
  obtain ⟨k, after, sent⟩ := accepted_leads positive faultless fairFar fairNear
    (Nat.le_refl (course (Link.turn window) schedule start n).near.accepted.length)
  obtain ⟨m, later, received⟩ := sent_leads faultless fairFar k
  obtain ⟨grown, _⟩ := course_grows window schedule start
    (Nat.le_trans after later)
  refine ⟨m, Nat.le_trans after later, ?_⟩
  rw [(course_faultless _ faultless m).ordered.good.1.delivered_eq]
  exact List.prefix_take_iff.mpr ⟨grown, Nat.le_trans sent received⟩

end Progress

end PyBulletin.Foundation.GoBackN
