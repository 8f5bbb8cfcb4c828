import Mathlib.Logic.Function.Basic
import PyBulletin.Ax25.Frame

set_option autoImplicit false

namespace PyBulletin.Ax25

open PyBulletin.Foundation

def windowSize : Nat := 7
def maxRetries : Nat := 10

inductive ConnState where
  | disconnected | awaitingConnect | connected | awaitingRelease
deriving DecidableEq, Repr

/-- The state of one connection.  `t1Armed` and `t3Armed` say that the timer's
task exists and is neither cancelled nor finished; the timer lengths do not
matter to the state machine.  `sent` collects the frames handed to `_send_cb`
(serialised at call time), oldest first, until the link takes them.
-/
structure AX25Connection where
  localAddr : AX25Address
  remoteAddr : AX25Address
  paclen : Int := 236
  state : ConnState := .disconnected
  vs : Seq := 0
  vr : Seq := 0
  va : Seq := 0
  retryCount : Nat := 0
  t1Armed : Bool := false
  t3Armed : Bool := false
  unacked : Seq → Option AX25Frame := fun _ => none
  txQueue : List Bytes := []
  rxQueue : List Bytes := []
  connectedEvent : Bool := false
  disconnectedEvent : Bool := false
  peerBusy : Bool := false
  localBusy : Bool := false
  sent : List AX25Frame := []

namespace AX25Connection

/-- `__init__`. -/
def init (localAddr remoteAddr : AX25Address) (paclen : Int := 236) : AX25Connection :=
  { localAddr, remoteAddr, paclen }

variable (conn : AX25Connection)

def makeDest : AX25Address :=
  { callsign := conn.remoteAddr.callsign, ssid := conn.remoteAddr.ssid }

def makeSrc : AX25Address :=
  { callsign := conn.localAddr.callsign, ssid := conn.localAddr.ssid }

def send (frame : AX25Frame) : AX25Connection := { conn with sent := conn.sent ++ [frame] }

def putRx (chunk : Bytes) : AX25Connection := { conn with rxQueue := conn.rxQueue ++ [chunk] }

def stopT1 : AX25Connection := { conn with t1Armed := false }
def startT1 : AX25Connection := { conn with t1Armed := true }
def stopT3 : AX25Connection := { conn with t3Armed := false }
def startT3 : AX25Connection := { conn with t3Armed := true }

def resetCounters : AX25Connection :=
  { conn with
    vs := 0, vr := 0, va := 0, retryCount := 0
    unacked := fun _ => none, peerBusy := false }

/-- The `while` loop of `_update_va` over the dictionary of unacknowledged frames. -/
def dropAcked (nr seq : Seq) (unacked : Seq → Option AX25Frame) : Seq → Option AX25Frame :=
  if seq = nr then unacked
  else dropAcked nr (seq + 1) (Function.update unacked seq none)
termination_by (nr - seq).val
decreasing_by
  revert nr seq
  decide

def updateVa (nr : Seq) : AX25Connection :=
  { conn with unacked := dropAcked nr conn.va conn.unacked, va := nr }

/-- One pass of the `while` loop of `_pump_tx` for each queued chunk, until the
window is full. -/
def pumpQueue (conn : AX25Connection) : List Bytes → AX25Connection
  | [] => { conn with txQueue := [] }
  | data :: queue =>
      if windowSize ≤ (conn.vs - conn.va).val then { conn with txQueue := data :: queue }
      else
        let frame := AX25Frame.iframe conn.makeDest conn.makeSrc conn.vs conn.vr data
        let conn := { conn with
          unacked := Function.update conn.unacked conn.vs (some frame)
          vs := conn.vs + 1 }
        let conn := conn.send frame
        pumpQueue (if conn.t1Armed then conn else conn.startT1) queue

def pumpTx : AX25Connection :=
  if conn.state ≠ .connected ∨ conn.peerBusy then conn else conn.pumpQueue conn.txQueue

/-- The loop of `_retransmit_from`; the queued frame itself gets the current
V(R) before it is sent again. -/
def retransmitFrom (conn : AX25Connection) (seq : Seq) : AX25Connection :=
  if seq = conn.vs then conn
  else
    match conn.unacked seq with
    | none => retransmitFrom conn (seq + 1)
    | some frame =>
        let frame := frame.withNr conn.vr
        retransmitFrom
          ({ conn with unacked := Function.update conn.unacked seq (some frame) }.send frame)
          (seq + 1)
termination_by (conn.vs - seq).val
decreasing_by
  all_goals
    revert seq
    try simp only [send]
    generalize conn.vs = vs
    revert vs
    decide

def handleSabm : AX25Connection :=
  let conn := if conn.state = .connected then conn.resetCounters else conn
  let conn := conn.send (.ua conn.makeDest conn.makeSrc)
  { ({ conn with state := .connected }).resetCounters.startT3 with connectedEvent := true }

def handleUa : AX25Connection :=
  match conn.state with
  | .awaitingConnect =>
      let conn := { conn.stopT1 with state := .connected }
      { conn.resetCounters.startT3 with connectedEvent := true }.pumpTx
  | .awaitingRelease =>
      { conn.stopT1 with state := .disconnected, disconnectedEvent := true }.putRx []
  | _ => conn

def handleDisc : AX25Connection :=
  let conn := conn.stopT1.stopT3
  let conn := conn.send (.ua conn.makeDest conn.makeSrc)
  { conn with state := .disconnected, disconnectedEvent := true }.putRx []

def handleDm : AX25Connection :=
  { conn.stopT1.stopT3 with state := .disconnected, disconnectedEvent := true }.putRx []

/-- The receiving half of `_handle_i`: deliver the frame in sequence and
acknowledge it, or ask for retransmission. -/
def acceptI (frame : AX25Frame) : AX25Connection :=
  if frame.ns = conn.vr then
    let conn := { conn with vr := conn.vr + 1 }
    let conn := if frame.info ≠ [] then conn.putRx frame.info else conn
    if ¬conn.localBusy then conn.send (.rr conn.makeDest conn.makeSrc conn.vr)
    else conn.send (.rnr conn.makeDest conn.makeSrc conn.vr)
  else conn.send (.rej conn.makeDest conn.makeSrc conn.vr)

def handleI (frame : AX25Frame) : AX25Connection :=
  if conn.state ≠ .connected then conn.send (.dm conn.makeDest conn.makeSrc)
  else
    let conn := (conn.stopT3.startT3.updateVa frame.nr).acceptI frame
    let conn := if conn.va = conn.vs then conn.stopT1 else conn
    conn.pumpTx

def handleRr (frame : AX25Frame) : AX25Connection :=
  if conn.state ≠ .connected then conn
  else
    let conn := { conn with peerBusy := false }.updateVa frame.nr
    let conn := if conn.va = conn.vs then conn.stopT1 else conn
    conn.stopT3.startT3.pumpTx

def handleRnr (frame : AX25Frame) : AX25Connection :=
  if conn.state ≠ .connected then conn
  else ({ conn with peerBusy := true }.updateVa frame.nr).stopT1.startT1

def handleRej (frame : AX25Frame) : AX25Connection :=
  if conn.state ≠ .connected then conn
  else
    let conn := (conn.updateVa frame.nr).stopT1.retransmitFrom frame.nr
    if conn.vs ≠ conn.va then conn.startT1 else conn

def handleFrame (frame : AX25Frame) : AX25Connection :=
  match frame.frameType with
  | .sabm => conn.handleSabm
  | .ua => conn.handleUa
  | .disc => conn.handleDisc
  | .dm => conn.handleDm
  | .i => conn.handleI frame
  | .rr => conn.handleRr frame
  | .rnr => conn.handleRnr frame
  | .rej => conn.handleRej frame
  | .ui => if frame.info ≠ [] then conn.putRx frame.info else conn
  | .frmr | .unknown => conn

def linkFailure : AX25Connection :=
  { conn.stopT1.stopT3 with state := .disconnected, disconnectedEvent := true }.putRx []

/-- The body of `_t1_expire` after its sleep.  The expiring task is the one in
`_t1_task`, so the timer stays stopped unless the body starts it again. -/
def t1Expire : AX25Connection :=
  let conn := conn.stopT1
  match conn.state with
  | .awaitingConnect =>
      let conn := { conn with retryCount := conn.retryCount + 1 }
      if maxRetries < conn.retryCount then
        { conn with state := .disconnected, disconnectedEvent := true }
      else (conn.send (.sabm conn.makeDest conn.makeSrc)).startT1
  | .awaitingRelease =>
      let conn := { conn with retryCount := conn.retryCount + 1 }
      if maxRetries < conn.retryCount then
        { conn with state := .disconnected, disconnectedEvent := true }.putRx []
      else (conn.send (.disc conn.makeDest conn.makeSrc)).startT1
  | .connected =>
      if conn.vs ≠ conn.va then
        let conn := { conn with retryCount := conn.retryCount + 1 }
        if maxRetries < conn.retryCount then conn.linkFailure
        else (conn.retransmitFrom conn.va).startT1
      else (conn.send (.rr conn.makeDest conn.makeSrc conn.vr true true)).startT1
  | .disconnected => conn

def t3Expire : AX25Connection :=
  let conn := conn.stopT3
  if conn.state = .connected then
    (conn.send (.rr conn.makeDest conn.makeSrc conn.vr true true)).startT1
  else conn

/-- `connect` up to its wait for the outcome; `none` is the early `return False`. -/
def connect : Option AX25Connection :=
  if conn.state ≠ .disconnected then none
  else
    let conn := { conn with state := .awaitingConnect, retryCount := 0 }
    some (conn.send (.sabm conn.makeDest conn.makeSrc)).startT1

def disconnect : AX25Connection :=
  if conn.state ≠ .connected ∧ conn.state ≠ .awaitingConnect then conn
  else
    let conn := { conn.stopT1.stopT3 with state := .awaitingRelease }
    (conn.send (.disc conn.makeDest conn.makeSrc)).startT1

/-- The number of values in `range(0, stop, step)` for a positive step. -/
def rangeLength (stop step : Nat) : Nat := (stop + step - 1) / step

/-- The chunks of `write`: `data[i:i + paclen]` for `i` in
`range(0, max(1, len(data)), paclen)`.  `range` raises `ValueError` on a zero
step and is empty on a negative one. -/
def chunks (paclen : Int) (data : Bytes) : Option (List Bytes) :=
  if paclen = 0 then none
  else if paclen < 0 then some []
  else
    let step := paclen.toNat
    some ((List.range (rangeLength (max 1 data.length) step)).map fun j =>
      (data.drop (j * step)).take step)

/-- `write`; `none` is the `ValueError` of a zero `paclen`, raised before
anything is queued. -/
def write (data : Bytes) : Option AX25Connection :=
  if conn.state ≠ .connected then some conn
  else
    (chunks conn.paclen data).map fun pieces =>
      { conn with txQueue := conn.txQueue ++ pieces }.pumpTx

end AX25Connection

end PyBulletin.Ax25
