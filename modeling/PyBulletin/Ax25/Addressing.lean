import PyBulletin.Ax25.Router

set_option autoImplicit false

namespace PyBulletin.Ax25

open PyBulletin.Foundation

namespace AX25Router

variable {router : AX25Router} {frame : AX25Frame} {now port index : Nat}

/-- The connection whose `handle_frame` is called: one that `_handle_sabm` creates, or one in
the table. -/
inductive Recipient where
  | opened
  | listed (index : Nat)
deriving DecidableEq, Repr

def recipient (router : AX25Router) (frame : AX25Frame) : Option Recipient :=
  let srcKey := Text.upper frame.src.str
  if router.notForUs frame.dest then none
  else
    match frame.frameType with
    | .ui => none
    | .sabm =>
        match router.connections srcKey with
        | none => some .opened
        | some existing => if router.isConnected existing then some (.listed existing) else some .opened
    | _ => (router.connections srcKey).map .listed

def connectionAt (router : AX25Router) (index : Nat) : Option AX25Connection :=
  router.sessions[index]?.map Session.conn

/-- The connection a SABM creates, before it handles the frame. -/
def opening (router : AX25Router) (frame : AX25Frame) : AX25Connection :=
  .init { callsign := router.localAddr.callsign, ssid := router.localAddr.ssid }
    { callsign := frame.src.callsign, ssid := frame.src.ssid } router.paclen

/-- The connections after one of them, or a new one, has handled the frame. -/
def seenBy (router : AX25Router) (frame : AX25Frame) (index : Nat) :
    Option Recipient → Option AX25Connection
  | none => router.connectionAt index
  | some .opened =>
      if router.sessions.length = index then
        some { (router.opening frame).handleFrame frame with sent := [] }
      else router.connectionAt index
  | some (.listed i) =>
      if i = index then
        (router.connectionAt index).map fun conn => { conn.handleFrame frame with sent := [] }
      else router.connectionAt index

/-- The destination is neither the node's address nor the alias, where there is one. -/
structure Foreign (router : AX25Router) (dest : AX25Address) : Prop where
  node : dest.matchesAddress router.localAddr = false
  aliased : router.nodeAlias ≠ [] → (AX25Address.parse router.nodeAlias).matchesAddress dest = false

/-- The frame leaves its mark in the heard log only, and no connection sees it. -/
structure Ignores (router : AX25Router) (now : Nat) (frame : AX25Frame) (port : Nat) : Prop where
  unmoved : router.handleFrame now frame port = router.hear now frame.src port
  unseen : router.recipient frame = none

theorem connectionAt_update (act : AX25Connection → AX25Connection) (other : Nat) :
    (router.update index act).connectionAt other =
      if index = other then
        (router.connectionAt other).map fun conn => { act conn with sent := [] }
      else router.connectionAt other := by
  simp only [connectionAt, update, List.getElem?_modify]
  split <;> simp [Function.comp_def]

theorem connectionAt_setTask (change : TaskState → TaskState) (other : Nat) :
    (router.setTask index change).connectionAt other = router.connectionAt other := by
  simp only [connectionAt, setTask, List.getElem?_modify]
  split <;> simp [Function.comp_def]

theorem openSession_enlists (srcKey : Text) :
    ∃ ready : AX25Router, (∀ i, ready.connectionAt i = router.connectionAt i) ∧
      ready.sessions.length = router.sessions.length ∧
      router.openSession frame srcKey port =
        (ready.enlist ⟨srcKey, port, router.opening frame, .running⟩).update
          ready.sessions.length fun conn => conn.handleFrame frame := by
  cases stored : router.sessionTasks srcKey with
  | none =>
      refine ⟨router, fun _ => rfl, rfl, ?_⟩
      rw [openSession, stored]
      rfl
  | some old =>
      refine ⟨router.setTask old cancelTask, connectionAt_setTask _, by simp [setTask], ?_⟩
      rw [openSession, stored]
      rfl

theorem connectionAt_enlist (session : Session) (other : Nat) :
    (router.enlist session).connectionAt other =
      if router.sessions.length = other then some session.conn else router.connectionAt other := by
  simp only [connectionAt, enlist]
  split
  · rename_i here
    simp [← here]
  · rename_i apart
    rw [List.getElem?_append]
    split
    · rfl
    · rename_i outside
      rw [List.getElem?_eq_none_iff.mpr (by simp only [List.length_singleton]; omega),
        List.getElem?_eq_none_iff.mpr (by omega)]

theorem connectionAt_openSession (srcKey : Text) (other : Nat) :
    (router.openSession frame srcKey port).connectionAt other =
      router.seenBy frame other (some .opened) := by
  obtain ⟨ready, same, size, opened⟩ := @openSession_enlists router frame port srcKey
  rw [opened, connectionAt_update, connectionAt_enlist, same, size, seenBy]
  split <;> rfl

section Hearing

variable (router : AX25Router) (now port : Nat) (src : AX25Address)

@[simp] theorem sessions_hear : (router.hear now src port).sessions = router.sessions := by
  simp only [hear]

@[simp] theorem connections_hear :
    (router.hear now src port).connections = router.connections := by
  simp only [hear]

@[simp] theorem sent_hear : (router.hear now src port).sent = router.sent := by
  simp only [hear]

@[simp] theorem isConnected_hear (index : Nat) :
    (router.hear now src port).isConnected index = router.isConnected index := by
  simp only [isConnected, sessions_hear]

@[simp] theorem connectionAt_hear (index : Nat) :
    (router.hear now src port).connectionAt index = router.connectionAt index := by
  simp only [connectionAt, sessions_hear]

@[simp] theorem opening_hear (frame : AX25Frame) :
    (router.hear now src port).opening frame = router.opening frame := by
  unfold opening hear
  rfl

@[simp] theorem notForUs_hear (dest : AX25Address) :
    (router.hear now src port).notForUs dest = router.notForUs dest := by
  unfold notForUs hear
  rfl

@[simp] theorem seenBy_hear (frame : AX25Frame) (index : Nat) (passed : Option Recipient) :
    (router.hear now src port).seenBy frame index passed = router.seenBy frame index passed := by
  match passed with
  | none | some (.listed i) => simp only [seenBy, connectionAt_hear]
  | some .opened =>
      simp only [seenBy, connectionAt_hear, sessions_hear, opening_hear]

end Hearing

theorem connectionAt_handleSabm (srcKey : Text) (other : Nat) :
    (router.handleSabm frame srcKey port).connectionAt other =
      router.seenBy frame other
        (match router.connections srcKey with
          | none => some .opened
          | some existing =>
              if router.isConnected existing then some (.listed existing) else some .opened) := by
  rw [handleSabm]
  cases router.connections srcKey with
  | none => exact connectionAt_openSession srcKey other
  | some existing =>
      dsimp only
      split
      · exact connectionAt_update _ other
      · exact connectionAt_openSession srcKey other

/-- A frame is handled by its recipient and by no other connection. -/
theorem connectionAt_handleFrame (other : Nat) :
    (router.handleFrame now frame port).connectionAt other =
      router.seenBy frame other (router.recipient frame) := by
  simp only [handleFrame, recipient, notForUs_hear, connections_hear]
  split
  · exact connectionAt_hear ..
  · cases frame.frameType with
    | ui => exact connectionAt_hear ..
    | sabm =>
        dsimp only
        rw [connectionAt_handleSabm]
        simp only [connections_hear, isConnected_hear, seenBy_hear]
    | _ =>
        dsimp only
        cases router.connections (Text.upper frame.src.str) with
        | none => simp only [connectionAt, sessions_hear, seenBy, Option.map_none]
        | some index =>
            dsimp only
            rw [connectionAt_update, connectionAt_hear]
            rfl

theorem Foreign.notForUs {dest : AX25Address} (foreign : Foreign router dest) :
    router.notForUs dest = true ↔ router.nodeAlias ≠ [] := by
  simp only [AX25Router.notForUs, foreign.node, Bool.not_false, Bool.true_and, Bool.and_eq_true,
    decide_eq_true_eq, Bool.not_eq_true']
  exact ⟨And.left, fun some_ => ⟨some_, foreign.aliased some_⟩⟩

/-- A frame for the node that no connection sees is a UI frame or from an unknown station. -/
theorem unseen_meant (meant : router.notForUs frame.dest = false) (kind : frame.frameType ≠ .ui)
    (unseen : router.recipient frame = none) :
    frame.frameType ≠ .sabm ∧ router.connections (Text.upper frame.src.str) = none := by
  simp only [recipient, meant, Bool.false_eq_true, if_false] at unseen
  cases sort : frame.frameType with
  | ui => exact absurd sort kind
  | sabm =>
      rw [sort] at unseen
      dsimp only at unseen
      split at unseen
      · exact absurd unseen (by simp)
      · split at unseen <;> exact absurd unseen (by simp)
  | _ =>
      rw [sort] at unseen
      exact ⟨by simp, Option.map_eq_none_iff.mp unseen⟩

theorem sent_unknown (meant : router.notForUs frame.dest = false) (kind : frame.frameType ≠ .ui)
    (other : frame.frameType ≠ .sabm)
    (unknown : router.connections (Text.upper frame.src.str) = none) :
    (router.handleFrame now frame port).sent = router.sent ++
      [(.dm { callsign := frame.src.callsign, ssid := frame.src.ssid }
        { callsign := router.localAddr.callsign, ssid := router.localAddr.ssid }, port)] := by
  simp only [handleFrame, notForUs_hear, meant, connections_hear, unknown]
  cases sort : frame.frameType with
  | ui => exact absurd sort kind
  | sabm => exact absurd sort other
  | _ => simp only [Bool.false_eq_true, if_false, hear]

/-- Without an alias every frame but a UI frame gets a reaction, whoever it is for. -/
theorem ignores_foreign_iff (foreign : Foreign router frame.dest) :
    Ignores router now frame port ↔ router.nodeAlias ≠ [] ∨ frame.frameType = .ui := by
  constructor
  · intro ignores
    by_contra neither
    obtain ⟨bare, kind⟩ := not_or.mp neither
    have meant : router.notForUs frame.dest = false := by
      simpa using mt foreign.notForUs.mp bare
    obtain ⟨other, unknown⟩ := unseen_meant meant kind ignores.unseen
    have answered := congrArg AX25Router.sent ignores.unmoved
    rw [sent_unknown meant kind other unknown, sent_hear] at answered
    exact absurd (congrArg List.length answered) (by simp)
  · rintro (some_ | kind)
    · have meant := foreign.notForUs.mpr some_
      constructor
      · simp only [handleFrame, notForUs_hear, meant, if_true]
      · simp only [recipient, meant, if_true]
    · constructor
      · simp only [handleFrame, kind, ite_self]
      · simp only [recipient, kind, ite_self]

private def plainNode : AX25Router := .init "W3BBS" "" 236
private def aliasedNode : AX25Router := .init "W3BBS" "N0BBS" 236

/-- A SABM for another station. -/
private def foreignCall : AX25Frame := .sabm { callsign := "W1AW" } { callsign := "AI3I" }

theorem foreignCall_ignored : Ignores aliasedNode 0 foreignCall 0 :=
  (ignores_foreign_iff ⟨by decide, fun _ => by decide⟩).mpr (.inl (by decide))

/-- A node without an alias answers the call and starts a session for it. -/
theorem foreignCall_answered :
    Foreign plainNode foreignCall.dest ∧
      ((plainNode.handleFrame 0 foreignCall 0).sent.map fun (frame, _) => frame.frameType) = [.ua] ∧
      (plainNode.handleFrame 0 foreignCall 0).sessions.length = 1 :=
  ⟨⟨by decide, fun some_ => absurd rfl some_⟩, by decide +kernel, by decide +kernel⟩

end AX25Router

end PyBulletin.Ax25
