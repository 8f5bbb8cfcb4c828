import PyBulletin.Foundation.Run
import PyBulletin.Web.WebSocket

set_option autoImplicit false

namespace PyBulletin.Web

open PyBulletin.Foundation

/-! # The end of a web socket

Several tasks use a web socket: the handler, the ping loop and those that broadcast.  What
they do between two `await`s is one step. -/

/-- What the transport gets. -/
inductive Act where
  | write (frame : Bytes)
  | close
  deriving DecidableEq

/-- `pinging` while the ping task runs.  `_write_lock` is held by the send that waits in `drain`,
and `queue` has the frames of those that wait for the lock, the first one first. -/
structure Connection where
  reader : Stream
  closed : Bool := false
  pinging : Bool := true
  draining : Bool := false
  queue : List Bytes := []
  acts : List Act := []

namespace Connection

open PyBulletin.Web.WebSocket

inductive Event where
  /-- More bytes have come. -/
  | arrive (data : Bytes)
  /-- `send_text`, also for `send_json` -/
  | sendText (text : Bytes)
  /-- The ping loop has slept. -/
  | ping
  /-- A turn of `_recv_frame`; it calls itself again behind a ping. -/
  | receive
  | close (code : Nat)
  /-- The holder of the lock leaves it. -/
  | drained
  /-- A task that waits for the lock is cancelled. -/
  | cancelled (place : Nat)

variable (c : Connection)

def write (frame : Bytes) : Connection :=
  { c with draining := true, acts := c.acts ++ [.write frame] }

/-- `_send_frame`; `none` is its exception. -/
def sendFrame (opcode : Fin 16) (payload : Bytes) : Option Connection :=
  if c.closed then some c
  else
    (frameBytes opcode payload).map fun frame =>
      if c.draining then { c with queue := c.queue ++ [frame] } else c.write frame

/-- `bytes([code >> 8, code & 0xFF])` -/
def closeCode (code : Nat) : Option Bytes :=
  if code < 65536 then some [UInt8.ofNat (code / 256), UInt8.ofNat code] else none

def close (code : Nat) : Connection :=
  if c.closed then c
  else
    -- The flag is set before the frame is sent.
    let c := { c with closed := true, pinging := false }
    match (closeCode code).bind (c.sendFrame opClose) with
    | some c => { c with acts := c.acts ++ [.close] }
    | none => c

def receive : Connection :=
  match readFrame c.reader with
  | .over => c
  | .tooBig reader => { c with reader }.close 1009
  | .frame opcode data reader =>
      let c := { c with reader }
      if opcode = opPing then (c.sendFrame opPong data).getD c
      else if opcode = opClose then c.close 1000
      else c

def step (c : Connection) : Event → Option Connection
  | .arrive data => some { c with reader := { c.reader with arrived := c.reader.arrived ++ data } }
  | .sendText text => some ((c.sendFrame opText text).getD c)
  | .ping =>
      if ¬ c.pinging then none
      else if c.closed then some { c with pinging := false }
      else some ((c.sendFrame opPing []).getD c)
  | .receive => some c.receive
  | .close code => some (c.close code)
  | .drained =>
      if ¬ c.draining then none
      else
        match c.queue with
        | [] => some { c with draining := false }
        | frame :: queue => some ({ c with queue }.write frame)
  | .cancelled place =>
      if place < c.queue.length then some { c with queue := c.queue.eraseIdx place } else none

def isCloseFrame (frame : Bytes) : Bool :=
  frame.head?.any fun first => first &&& 0x0F = UInt8.ofNat opClose

/-- One Close frame, with the code, goes out before the transport is closed, and nothing goes out
behind it. -/
def ShakesHands (code : Nat) (acts : List Act) : Prop :=
  ∃ payload frame front back, closeCode code = some payload ∧
    frameBytes opClose payload = some frame ∧ acts = front ++ .write frame :: back ∧
    (∀ other, .write other ∈ front → isCloseFrame other = false) ∧ .close ∉ front ∧
    (∀ other, .write other ∉ back) ∧ .close ∈ back

/-- No Close frame has been written or waits to be. -/
structure Silent : Prop where
  written : ∀ frame, .write frame ∈ c.acts → isCloseFrame frame = false
  waiting : ∀ frame ∈ c.queue, isCloseFrame frame = false

variable {c} {next : Connection} {opcode : Fin 16} {payload frame : Bytes}

theorem isCloseFrame_frameBytes (framed : frameBytes opcode payload = some frame) :
    isCloseFrame frame = decide (opcode = opClose) := by
  have head : frame.head? = some (0x80 ||| (UInt8.ofNat opcode &&& 0x0F)) := by
    simp only [frameBytes] at framed
    split at framed
    · cases framed
      rfl
    · split at framed
      · cases framed
        rfl
      · split at framed
        · cases framed
          rfl
        · cases framed
  rw [isCloseFrame, head, Option.any_some]
  clear framed head
  revert opcode
  decide

theorem Silent.write (silent : c.Silent) (other : isCloseFrame frame = false) :
    (c.write frame).Silent where
  written later listed := by
    rcases List.mem_append.mp listed with old | new
    · exact silent.written later old
    · cases List.mem_singleton.mp new
      exact other
  waiting := silent.waiting

theorem Silent.sendFrame (silent : c.Silent) (other : opcode ≠ opClose)
    (sent : c.sendFrame opcode payload = some next) : next.Silent := by
  rw [Connection.sendFrame] at sent
  split at sent
  · cases sent
    exact silent
  · obtain ⟨frame, framed, rfl⟩ := Option.map_eq_some_iff.mp sent
    have plain : isCloseFrame frame = false := by
      rw [isCloseFrame_frameBytes framed]
      exact decide_eq_false other
    split
    · constructor
      · exact silent.written
      · intro later listed
        rcases List.mem_append.mp listed with old | new
        · exact silent.waiting later old
        · rw [List.mem_singleton.mp new]
          exact plain
    · exact silent.write plain

theorem Silent.trySend (silent : c.Silent) (other : opcode ≠ opClose) :
    ((c.sendFrame opcode payload).getD c).Silent := by
  cases sent : c.sendFrame opcode payload with
  | none => exact silent
  | some next => exact silent.sendFrame other sent

/-- What `close` sends is dropped because of the flag that it has set itself. -/
theorem close_opened {code : Nat} (opened : c.closed = false) (valid : code < 65536) :
    c.close code = { c with closed := true, pinging := false, acts := c.acts ++ [.close] } := by
  simp [close, Connection.sendFrame, closeCode, opened, valid]

theorem Silent.close (silent : c.Silent) (code : Nat) : (c.close code).Silent := by
  cases closed : c.closed with
  | true =>
      rw [Connection.close, if_pos closed]
      exact silent
  | false =>
      by_cases valid : code < 65536
      · rw [close_opened closed valid]
        constructor
        · intro frame listed
          rcases List.mem_append.mp listed with old | new
          · exact silent.written frame old
          · cases List.mem_singleton.mp new
        · exact silent.waiting
      · rw [Connection.close, closed, closeCode, if_neg valid]
        exact ⟨silent.written, silent.waiting⟩

theorem Silent.receive (silent : c.Silent) : c.receive.Silent := by
  have moved (reader : Stream) : { c with reader }.Silent := ⟨silent.written, silent.waiting⟩
  rw [Connection.receive]
  split
  · exact silent
  · exact (moved _).close 1009
  · dsimp only
    split
    · exact (moved _).trySend (by decide)
    · split
      · exact (moved _).close 1000
      · exact moved _

theorem Silent.step {event : Event} (silent : c.Silent) (stepped : c.step event = some next) :
    next.Silent := by
  cases event with
  | arrive data =>
      cases stepped
      exact ⟨silent.written, silent.waiting⟩
  | sendText text =>
      cases stepped
      exact silent.trySend (by decide)
  | ping =>
      obtain ⟨-, stepped⟩ := Option.ite_none_left_eq_some.mp stepped
      split at stepped
      · cases stepped
        exact ⟨silent.written, silent.waiting⟩
      · cases stepped
        exact silent.trySend (by decide)
  | receive =>
      cases stepped
      exact silent.receive
  | close code =>
      cases stepped
      exact silent.close code
  | drained =>
      obtain ⟨-, stepped⟩ := Option.ite_none_left_eq_some.mp stepped
      cases queued : c.queue with
      | nil =>
          rw [queued] at stepped
          cases stepped
          exact ⟨silent.written, nofun⟩
      | cons frame queue =>
          rw [queued] at stepped
          cases stepped
          have waiting := silent.waiting
          rw [queued] at waiting
          have shorter : { c with queue }.Silent :=
            ⟨silent.written, fun later listed => waiting later (List.mem_cons_of_mem _ listed)⟩
          exact shorter.write (waiting frame List.mem_cons_self)
  | cancelled place =>
      obtain ⟨-, stepped⟩ := Option.ite_none_right_eq_some.mp stepped
      cases stepped
      exact ⟨silent.written, fun frame listed => silent.waiting frame (List.mem_of_mem_eraseIdx listed)⟩

theorem Silent.no_handshake (silent : c.Silent) (code : Nat) : ¬ ShakesHands code c.acts := by
  rintro ⟨payload, frame, front, back, -, framed, acts, -⟩
  have listed : .write frame ∈ c.acts := by
    rw [acts]
    exact List.mem_append_right _ List.mem_cons_self
  have other := silent.written frame listed
  rw [isCloseFrame_frameBytes framed] at other
  exact absurd other (by decide)

/-- Whatever is sent, received and closed in whatever order, no Close frame is written. -/
theorem never_shakes_hands {reader : Stream} {events : List Event} {final : Connection}
    (ran : run step { reader } events = some final) :
    (∀ frame, .write frame ∈ final.acts → isCloseFrame frame = false) ∧
      ∀ code, ¬ ShakesHands code final.acts := by
  have initial : Silent { reader } := ⟨nofun, nofun⟩
  have silent := run_preserves (fun _ _ _ silent stepped => Silent.step silent stepped) initial ran
  exact ⟨silent.written, silent.no_handshake⟩

/-- The header of a frame of 2^18 + 1 bytes. -/
def longFrame : Connection where
  reader := ⟨[0x81, 0x7F, 0, 0, 0, 0, 0, 4, 0, 1], false⟩

theorem long_frame_unannounced :
    longFrame.receive.acts = [.close] ∧ ∀ code, ¬ ShakesHands code longFrame.receive.acts :=
  ⟨by decide, (@never_shakes_hands longFrame.reader [.receive] longFrame.receive rfl).2⟩

/-- All that `close` does to the transport is to close it. -/
theorem closed_unannounced :
    ∃ final, run step { reader := ⟨[], false⟩ } [.close 1000] = some final ∧
      final.acts = [.close] ∧ ¬ ShakesHands 1000 final.acts := by
  refine ⟨_, rfl, rfl, ?_⟩
  rintro ⟨payload, frame, front, back, -, -, acts, -⟩
  have listed : Act.write frame ∈ [Act.close] := by
    have acts : [Act.close] = front ++ .write frame :: back := acts
    rw [acts]
    exact List.mem_append_right _ List.mem_cons_self
  cases List.mem_singleton.mp listed

/-- A text that waits for the lock is written behind the end of the connection. -/
example :
    (run step { reader := ⟨[], false⟩ } [.sendText [97], .sendText [98], .close 1000, .drained]).map acts =
      some [.write [0x81, 1, 97], .close, .write [0x81, 1, 98]] := by
  decide

end Connection

end PyBulletin.Web
