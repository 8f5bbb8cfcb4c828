import PyBulletin.Foundation.Frames
import PyBulletin.Web.Server

set_option autoImplicit false

namespace PyBulletin.Web

open PyBulletin.Foundation
open PyBulletin.Foundation.Frames

/-- A connection: what is read from it, the frames written to it, and the flag `_closed`. -/
structure WebSocket where
  reader : Stream
  sent : List Bytes
  closed : Bool

namespace WebSocket

def opCont : Fin 16 := 0x0
def opText : Fin 16 := 0x1
def opBin : Fin 16 := 0x2
def opClose : Fin 16 := 0x8
def opPing : Fin 16 := 0x9
def opPong : Fin 16 := 0xA

/-- What `_send_frame` writes; `none` is the `OverflowError` of `to_bytes`. -/
def frameBytes (opcode : Fin 16) (payload : Bytes) : Option Bytes :=
  let first : UInt8 := 0x80 ||| (UInt8.ofNat opcode &&& 0x0F)
  let n := payload.length
  if n < 126 then some (first :: UInt8.ofNat n :: payload)
  else if n < 65536 then some (first :: 126 :: (bigEndian 2 n ++ payload))
  else if n < 2 ^ 64 then some (first :: 127 :: (bigEndian 8 n ++ payload))
  else none

/-- `_send_frame` -/
def sendFrame (ws : WebSocket) (opcode : Fin 16) (payload : Bytes) : Option WebSocket :=
  if ws.closed then some ws
  else (frameBytes opcode payload).map fun frame => { ws with sent := ws.sent ++ [frame] }

/-- The flag is set before the frame is sent, so that none is sent. -/
def close (ws : WebSocket) (code : Nat) : WebSocket :=
  if ws.closed then ws
  else
    let ws := { ws with closed := true }
    (ws.sendFrame opClose [UInt8.ofNat (code / 256), UInt8.ofNat code]).getD ws

theorem sendFrame_reader {ws rest : WebSocket} {opcode : Fin 16} {payload : Bytes}
    (done : ws.sendFrame opcode payload = some rest) : rest.reader = ws.reader := by
  rw [sendFrame] at done
  split at done
  · cases done
    rfl
  · obtain ⟨frame, -, rfl⟩ := Option.map_eq_some_iff.mp done
    rfl

def readLength (length : Nat) (reader : Stream) : Option (Nat × Stream) :=
  if length = 126 then (reader.readexactly 2).map fun (ext, reader) => (fromBigEndian ext, reader)
  else if length = 127 then
    (reader.readexactly 8).map fun (ext, reader) => (fromBigEndian ext, reader)
  else some (length, reader)

/-- What `_recv_frame` has when it comes to look at the opcode: nothing, where the stream
ends, a frame that is too big, or a frame. -/
inductive Read where
  | over
  | tooBig (reader : Stream)
  | frame (opcode : Fin 16) (data : Bytes) (reader : Stream)

/-- The first part of `_recv_frame`.  The bit `fin` is read there and not used. -/
def readFrame (reader : Stream) : Read :=
  match reader.readexactly 2 with
  | some ([first, second], reader) =>
      let opcode : Fin 16 := Fin.ofNat 16 (first &&& 0x0F).toNat
      let masked : Bool := second &&& 0x80 ≠ 0
      match readLength (second &&& 0x7F).toNat reader with
      | none => .over
      | some (length, reader) =>
          if maxBody < length then .tooBig reader
          else
            match if masked then reader.readexactly 4 else some ([], reader) with
            | none => .over
            | some (key, reader) =>
                match reader.readexactly length with
                | none => .over
                | some (data, reader) =>
                    .frame opcode (if masked then mask key data else data) reader
  | _ => .over

inductive Received where
  | message (opcode : Fin 16) (payload : Bytes)
  | none
  | raised

/-- `recv`, which is `_recv_frame` with the errors of a stream that ends turned into
`None`.  The number says how many calls of `_recv_frame` may be open inside each other; the
one beyond them is a `RecursionError`. -/
def recv : Nat → WebSocket → Received × WebSocket
  | 0, ws => (.raised, ws)
  | depth + 1, ws =>
      match readFrame ws.reader with
      | .over => (.none, ws)
      | .tooBig reader => (.none, { ws with reader }.close 1009)
      | .frame opcode data reader =>
          let ws := { ws with reader }
          if opcode = opPing then
            match ws.sendFrame opPong data with
            | none => (.raised, ws)
            | some ws => recv depth ws
          else if opcode = opClose then (.none, ws.close 1000)
          else if opcode = opCont then (.message opText data, ws)
          else (.message opcode data, ws)

theorem readexactly_length {n : Nat} {reader rest : Stream} {bytes : Bytes}
    (read : reader.readexactly n = some (bytes, rest)) :
    rest.arrived.length + n = reader.arrived.length := by
  simp only [Stream.readexactly] at read
  split at read
  · cases read
    rw [Stream.arrived_advance, List.length_drop]
    omega
  · cases read

theorem readLength_length {length n : Nat} {reader rest : Stream}
    (read : readLength length reader = some (n, rest)) :
    rest.arrived.length ≤ reader.arrived.length := by
  simp only [readLength] at read
  split at read
  · obtain ⟨⟨ext, back⟩, got, same⟩ := Option.map_eq_some_iff.mp read
    obtain ⟨-, rfl⟩ := Prod.mk.inj same
    have := readexactly_length got
    dsimp only
    omega
  · split at read
    · obtain ⟨⟨ext, back⟩, got, same⟩ := Option.map_eq_some_iff.mp read
      obtain ⟨-, rfl⟩ := Prod.mk.inj same
      have := readexactly_length got
      dsimp only
      omega
    · cases read
      exact le_rfl

theorem readFrame_length {opcode : Fin 16} {data : Bytes} {reader rest : Stream}
    (read : readFrame reader = .frame opcode data rest) :
    rest.arrived.length < reader.arrived.length := by
  simp only [readFrame] at read
  split at read
  · next header =>
      have := readexactly_length header
      split at read
      · cases read
      · next long =>
          have := readLength_length long
          split at read
          · cases read
          · split at read
            · cases read
            · next keyed =>
                split at read
                · cases read
                · next got =>
                    have := readexactly_length got
                    cases read
                    split at keyed
                    · have := readexactly_length keyed
                      omega
                    · cases keyed
                      omega
  · cases read

theorem recv_length {depth : Nat} {ws rest : WebSocket} {opcode : Fin 16} {payload : Bytes}
    (got : recv depth ws = (.message opcode payload, rest)) :
    rest.reader.arrived.length < ws.reader.arrived.length := by
  induction depth generalizing ws with
  | zero => cases got
  | succ depth ih =>
      rw [recv] at got
      split at got
      · cases got
      · cases got
      · next read =>
          have shorter := readFrame_length read
          dsimp only at got
          split at got
          · split at got
            · cases got
            · next answered =>
                have later := ih got
                rw [sendFrame_reader answered] at later
                exact later.trans shorter
          · split at got
            · cases got
            · split at got
              · cases got
                exact shorter
              · cases got
                exact shorter

/-- What successive calls of `recv` return, up to the one that returns no message. -/
def receive (depth : Nat) (ws : WebSocket) : List (Fin 16 × Bytes) × Received × WebSocket :=
  match _ : recv depth ws with
  | (.message opcode payload, rest) =>
      let (messages, ended) := receive depth rest
      ((opcode, payload) :: messages, ended)
  | (other, rest) => ([], other, rest)
termination_by ws.reader.arrived.length
decreasing_by exact recv_length ‹_›

section

variable {depth : Nat} {ws rest : WebSocket}

theorem receive_message {opcode : Fin 16} {payload : Bytes}
    (got : recv depth ws = (.message opcode payload, rest)) :
    receive depth ws = ((opcode, payload) :: (receive depth rest).1, (receive depth rest).2) := by
  rw [receive]
  split
  · next found =>
      cases got.symm.trans found
      rfl
  · next other found =>
      rw [got] at found
      cases found
      exact (other _ _ rfl).elim

theorem receive_none (got : recv depth ws = (.none, rest)) :
    receive depth ws = ([], .none, rest) := by
  rw [receive]
  split
  · next found => cases got.symm.trans found
  · next found =>
      cases got.symm.trans found
      rfl

theorem receive_raised (got : (recv depth ws).1 = .raised) : (receive depth ws).2.1 = .raised := by
  rw [receive]
  split
  · next found =>
      rw [found] at got
      cases got
  · next found =>
      rw [found] at got
      exact got

end

end WebSocket

end PyBulletin.Web
