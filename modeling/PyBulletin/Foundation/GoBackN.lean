set_option autoImplicit false

universe u

namespace PyBulletin.Foundation.GoBackN

/-! # Duplex Go-Back-N over unbounded numbers

Two peers exchange chunks over two FIFO channels that may lose packets.  Every
packet number is a natural number here; an implementation that sends them modulo
some `modulus > window` recovers them by `Flow.number_congr`.
-/

variable {α : Type u}

structure Peer (α : Type u) where
  /-- Chunks accepted from the user, oldest first. -/
  accepted : List α
  sent : Nat
  acked : Nat
  received : Nat
  delivered : List α

/-- `data` carries a piggybacked acknowledgement; `control` carries none. -/
inductive Packet (α : Type u) where
  | data (number : Nat) (payload : α) (ack : Nat)
  | ack (number : Nat)
  | control

def Packet.data? : Packet α → Option (Nat × α)
  | .data number payload _ => some (number, payload)
  | _ => none

def Packet.ack? : Packet α → Option Nat
  | .data _ _ number => some number
  | .ack number => some number
  | .control => none

structure Link (α : Type u) where
  near : Peer α
  far : Peer α
  out : List (Packet α)
  back : List (Packet α)

def Link.mirror (link : Link α) : Link α :=
  { near := link.far, far := link.near, out := link.back, back := link.out }

def Peer.receive (peer : Peer α) : Packet α → Peer α
  | .data number payload ack =>
      if number = peer.received then
        { peer with
          acked := ack, received := peer.received + 1
          delivered := peer.delivered ++ [payload] }
      else { peer with acked := ack }
  | .ack number => { peer with acked := number }
  | .control => peer

/-- What the near peer, or the channel towards it, can do in one step. -/
inductive Action (window : Nat) : Link α → Link α → Prop where
  | accept (link : Link α) (chunks : List α) :
      Action window link
        { link with near := { link.near with accepted := link.near.accepted ++ chunks } }
  | sendNew (link : Link α) (payload : α)
      (room : link.near.sent < link.near.acked + window)
      (queued : link.near.accepted[link.near.sent]? = some payload) :
      Action window link
        { link with
          near := { link.near with sent := link.near.sent + 1 }
          out := link.out ++ [.data link.near.sent payload link.near.received] }
  | resend (link : Link α) (number : Nat) (payload : α)
      (unacked : link.near.acked ≤ number) (outstanding : number < link.near.sent)
      (accepted : link.near.accepted[number]? = some payload) :
      Action window link
        { link with out := link.out ++ [.data number payload link.near.received] }
  | sendAck (link : Link α) :
      Action window link { link with out := link.out ++ [.ack link.near.received] }
  | sendControl (link : Link α) :
      Action window link { link with out := link.out ++ [.control] }
  | receive (link : Link α) (packet : Packet α) (rest : List (Packet α))
      (head : link.back = packet :: rest) :
      Action window link { link with near := link.near.receive packet, back := rest }
  | lose (link : Link α) (packet : Packet α) (rest : List (Packet α))
      (head : link.back = packet :: rest) :
      Action window link { link with back := rest }

/-- The invariant of one direction: `forward` carries the sender's data and
`backward` the receiver's acknowledgements.  A packet in flight is at most a
window behind the receiver, and at most a window behind every earlier packet,
which is what keeps numbers apart after reduction. -/
structure Flow (window : Nat) (sender receiver : Peer α)
    (forward backward : List (Packet α)) : Prop where
  acked_le : sender.acked ≤ receiver.received
  received_le : receiver.received ≤ sender.sent
  window_le : sender.sent ≤ sender.acked + window
  sent_le : sender.sent ≤ sender.accepted.length
  delivered_eq : receiver.delivered = sender.accepted.take receiver.received
  data_valid : ∀ entry ∈ forward.filterMap Packet.data?,
    entry.1 < sender.sent ∧ sender.accepted[entry.1]? = some entry.2 ∧
      receiver.received ≤ entry.1 + window
  data_order : (forward.filterMap Packet.data?).Pairwise
    fun earlier later => earlier.1 < later.1 + window
  acks_sorted : (backward.filterMap Packet.ack?).Pairwise (· ≤ ·)
  acks_bounds : ∀ ack ∈ backward.filterMap Packet.ack?,
    sender.acked ≤ ack ∧ ack ≤ receiver.received

def Good (window : Nat) (link : Link α) : Prop :=
  Flow window link.near link.far link.out link.back ∧
    Flow window link.far link.near link.back link.out

theorem Good.mirror {window : Nat} {link : Link α} (good : Good window link) :
    Good window link.mirror :=
  ⟨good.2, good.1⟩

section Flow

variable {window : Nat} {sender receiver : Peer α} {forward backward : List (Packet α)}

/-- Delivered chunks are a prefix of the accepted ones. -/
theorem Flow.delivered_isPrefix (flow : Flow window sender receiver forward backward) :
    receiver.delivered <+: sender.accepted := by
  rw [flow.delivered_eq]
  exact List.take_prefix _ _

theorem Flow.accept (flow : Flow window sender receiver forward backward) (chunks : List α) :
    Flow window { sender with accepted := sender.accepted ++ chunks } receiver
      forward backward := by
  have known := Nat.le_trans flow.received_le flow.sent_le
  refine { flow with
    sent_le := by
      have bound := flow.sent_le
      simp only [List.length_append]
      omega
    delivered_eq := by
      rw [flow.delivered_eq]
      exact (List.take_append_of_le_length known).symm
    data_valid := ?_ }
  intro entry member
  obtain ⟨outstanding, payload, recent⟩ := flow.data_valid entry member
  refine ⟨outstanding, ?_, recent⟩
  rw [List.getElem?_append_left (Nat.lt_of_lt_of_le outstanding flow.sent_le)]
  exact payload

/-- The direction served by the peer that accepts chunks for its own data is
not affected on the receiving side. -/
theorem Flow.accept_receiver (flow : Flow window sender receiver forward backward)
    (chunks : List α) :
    Flow window sender { receiver with accepted := chunks } forward backward :=
  { flow with }

theorem Flow.forward_data (flow : Flow window sender receiver forward backward)
    {number ack : Nat} {payload : α}
    (unacked : sender.acked ≤ number) (outstanding : number < sender.sent)
    (accepted : sender.accepted[number]? = some payload) :
    Flow window sender receiver (forward ++ [.data number payload ack]) backward := by
  have caughtUp := flow.received_le
  have room := flow.window_le
  refine { flow with data_valid := ?_, data_order := ?_ }
  · intro entry member
    simp only [List.filterMap_append, List.filterMap_cons, List.filterMap_nil, Packet.data?,
      List.mem_append, List.mem_singleton] at member
    rcases member with old | rfl
    · exact flow.data_valid entry old
    · exact ⟨outstanding, accepted, by dsimp only; omega⟩
  · simp only [List.filterMap_append, List.filterMap_cons, List.filterMap_nil, Packet.data?]
    refine List.pairwise_append.mpr ⟨flow.data_order, List.pairwise_singleton _ _, ?_⟩
    intro earlier member later last
    have older := (flow.data_valid earlier member).1
    simp only [List.mem_singleton] at last
    subst later
    dsimp only
    omega

theorem Flow.forward_silent (flow : Flow window sender receiver forward backward)
    {packet : Packet α} (silent : packet.data? = none) :
    Flow window sender receiver (forward ++ [packet]) backward := by
  refine { flow with data_valid := ?_, data_order := ?_ } <;>
    simp only [List.filterMap_append, List.filterMap_cons, List.filterMap_nil, silent,
      List.append_nil]
  · exact flow.data_valid
  · exact flow.data_order

/-- The receiver may always acknowledge what it has received. -/
theorem Flow.backward_ack (flow : Flow window sender receiver forward backward)
    {packet : Packet α} (current : packet.ack? = some receiver.received ∨ packet.ack? = none) :
    Flow window sender receiver forward (backward ++ [packet]) := by
  rcases current with acks | silent
  · refine { flow with acks_sorted := ?_, acks_bounds := ?_ } <;>
      simp only [List.filterMap_append, List.filterMap_cons, List.filterMap_nil, acks]
    · refine List.pairwise_append.mpr ⟨flow.acks_sorted, List.pairwise_singleton _ _, ?_⟩
      intro earlier member later last
      simp only [List.mem_singleton] at last
      subst later
      exact (flow.acks_bounds earlier member).2
    · intro ack member
      simp only [List.mem_append, List.mem_singleton] at member
      rcases member with old | rfl
      · exact flow.acks_bounds ack old
      · exact ⟨flow.acked_le, Nat.le_refl _⟩
  · refine { flow with acks_sorted := ?_, acks_bounds := ?_ } <;>
      simp only [List.filterMap_append, List.filterMap_cons, List.filterMap_nil, silent,
        List.append_nil]
    · exact flow.acks_sorted
    · exact flow.acks_bounds

theorem Flow.forward_tail {packet : Packet α}
    (flow : Flow window sender receiver (packet :: forward) backward) :
    Flow window sender receiver forward backward := by
  have valid := flow.data_valid
  have order := flow.data_order
  cases number : packet.data? with
  | none =>
      simp only [List.filterMap_cons, number] at valid order
      exact { flow with data_valid := valid, data_order := order }
  | some entry =>
      simp only [List.filterMap_cons, number] at valid order
      exact { flow with
        data_valid := fun other member => valid other (List.mem_cons_of_mem _ member)
        data_order := (List.pairwise_cons.mp order).2 }

theorem Flow.backward_tail {packet : Packet α}
    (flow : Flow window sender receiver forward (packet :: backward)) :
    Flow window sender receiver forward backward := by
  have sorted := flow.acks_sorted
  have bounds := flow.acks_bounds
  cases number : packet.ack? with
  | none =>
      simp only [List.filterMap_cons, number] at sorted bounds
      exact { flow with acks_sorted := sorted, acks_bounds := bounds }
  | some ack =>
      simp only [List.filterMap_cons, number] at sorted bounds
      exact { flow with
        acks_sorted := (List.pairwise_cons.mp sorted).2
        acks_bounds := fun other member => bounds other (List.mem_cons_of_mem _ member) }

/-- Receiving the oldest acknowledgement moves the window up to it. -/
theorem Flow.acknowledge {packet : Packet α} {ack : Nat}
    (flow : Flow window sender receiver forward (packet :: backward))
    (acks : packet.ack? = some ack) :
    Flow window { sender with acked := ack } receiver forward backward := by
  have sorted := flow.acks_sorted
  have bounds := flow.acks_bounds
  simp only [List.filterMap_cons, acks] at sorted bounds
  obtain ⟨lower, upper⟩ := bounds ack (by simp)
  have room := flow.window_le
  exact { flow with
    acked_le := upper
    window_le := by dsimp only; omega
    acks_sorted := (List.pairwise_cons.mp sorted).2
    acks_bounds := fun other member =>
      ⟨(List.pairwise_cons.mp sorted).1 other member,
        (bounds other (List.mem_cons_of_mem _ member)).2⟩ }

/-- Receiving the next packet in sequence. -/
theorem Flow.deliver {number ack : Nat} {payload : α}
    (flow : Flow window sender receiver (.data number payload ack :: forward) backward)
    (next : number = receiver.received) :
    Flow window sender
      { receiver with
        received := receiver.received + 1, delivered := receiver.delivered ++ [payload] }
      forward backward := by
  have valid := flow.data_valid
  have order := flow.data_order
  simp only [List.filterMap_cons, Packet.data?] at valid order
  obtain ⟨outstanding, accepted, _⟩ := valid (number, payload) (by simp)
  have ahead := (List.pairwise_cons.mp order).1
  subst next
  refine { flow.forward_tail with
    acked_le := Nat.le_succ_of_le flow.acked_le
    received_le := outstanding
    delivered_eq := ?_
    data_valid := ?_
    acks_bounds := fun other member =>
      ⟨(flow.acks_bounds other member).1, Nat.le_succ_of_le (flow.acks_bounds other member).2⟩ }
  · rw [flow.delivered_eq, List.take_add_one, accepted]
    rfl
  · intro entry member
    obtain ⟨older, found, _⟩ := valid entry (List.mem_cons_of_mem _ member)
    exact ⟨older, found, ahead entry member⟩

/-- Reduction modulo anything above the window loses nothing about the next
data packet: it is the expected one exactly when its reduced number is. -/
theorem Flow.number_congr {modulus number ack : Nat} {payload : α}
    (flow : Flow window sender receiver (.data number payload ack :: forward) backward)
    (wide : window < modulus) :
    number % modulus = receiver.received % modulus ↔ number = receiver.received := by
  refine ⟨fun congruent => ?_, fun equal => by rw [equal]⟩
  have valid := flow.data_valid
  simp only [List.filterMap_cons, Packet.data?] at valid
  obtain ⟨outstanding, _, recent⟩ := valid (number, payload) (by simp)
  have unacked := flow.acked_le
  have room := flow.window_le
  dsimp only at outstanding recent
  rcases Nat.lt_trichotomy number receiver.received with behind | equal | ahead
  · have gap := Nat.sub_mod_eq_zero_of_mod_eq congruent.symm
    rw [Nat.mod_eq_of_lt (by omega)] at gap
    omega
  · exact equal
  · have gap := Nat.sub_mod_eq_zero_of_mod_eq congruent
    rw [Nat.mod_eq_of_lt (by omega)] at gap
    omega

end Flow

theorem Good.action {window : Nat} {link next : Link α}
    (good : Good window link) (action : Action window link next) : Good window next := by
  obtain ⟨out, back⟩ := good
  cases action with
  | accept chunks => exact ⟨out.accept chunks, back.accept_receiver _⟩
  | sendNew payload room queued =>
      have present := (List.getElem?_eq_some_iff.mp queued).1
      have caughtUp := Nat.le_trans out.acked_le out.received_le
      have grown : Flow window { link.near with sent := link.near.sent + 1 } link.far
          link.out link.back :=
        { out with
          received_le := Nat.le_succ_of_le out.received_le
          window_le := room
          sent_le := present
          data_valid := fun entry member =>
            ⟨Nat.lt_succ_of_lt (out.data_valid entry member).1, (out.data_valid entry member).2⟩ }
      have still : Flow window link.far { link.near with sent := link.near.sent + 1 }
          link.back link.out := { back with }
      exact ⟨grown.forward_data caughtUp (Nat.lt_succ_self _) queued,
        still.backward_ack (.inl rfl)⟩
  | resend number payload unacked outstanding accepted =>
      exact ⟨out.forward_data unacked outstanding accepted, back.backward_ack (.inl rfl)⟩
  | sendAck => exact ⟨out.forward_silent rfl, back.backward_ack (.inl rfl)⟩
  | sendControl => exact ⟨out.forward_silent rfl, back.backward_ack (.inr rfl)⟩
  | receive packet rest head =>
      rw [head] at out back
      cases packet with
      | data number payload ack =>
          simp only [Peer.receive]
          split
          next inSequence => exact ⟨{ out.acknowledge rfl with }, { back.deliver inSequence with }⟩
          next => exact ⟨out.acknowledge rfl, { back.forward_tail with }⟩
      | ack number => exact ⟨out.acknowledge rfl, { back.forward_tail with }⟩
      | control => exact ⟨out.backward_tail, back.forward_tail⟩
  | lose packet rest head =>
      rw [head] at out back
      exact ⟨out.backward_tail, back.forward_tail⟩

end PyBulletin.Foundation.GoBackN
