import PyBulletin.Web.WebSocket

set_option autoImplicit false

namespace PyBulletin.Web

open PyBulletin.Foundation
open PyBulletin.Foundation.Frames

namespace WebSocket

/-! # Conversations over a web socket

A peer sends messages in fragments, with pings between them. -/

section Reading

variable {closed : Bool} {front back : Bytes} {frame : Frame} {rest : Bytes}

theorem readexactly_append {n : Nat} (length : front.length = n) :
    Stream.readexactly ⟨front ++ back, closed⟩ n = some (front, ⟨back, closed⟩) := by
  subst length
  simp [Stream.readexactly, Stream.advance]

theorem and_low (byte : UInt8) :
    (byte &&& 0x0F).toNat = byte.toNat % 16 ∧ (byte &&& 0x7F).toNat = byte.toNat % 128 := by
  constructor
  · rw [UInt8.toNat_and]
    exact Nat.and_two_pow_sub_one_eq_mod byte.toNat 4
  · rw [UInt8.toNat_and]
    exact Nat.and_two_pow_sub_one_eq_mod byte.toNat 7

theorem and_high (byte : UInt8) : byte &&& 0x80 ≠ 0 ↔ 128 ≤ byte.toNat := by
  have all : ∀ n < 256, (n &&& 128 = 0 ↔ n < 128) := by decide +kernel
  have this := all byte.toNat byte.toNat_lt
  rw [ne_eq, ← UInt8.toNat_inj, UInt8.toNat_and]
  change ¬ (byte.toNat &&& 128 = 0) ↔ _
  omega

/-- A frame of permitted length is read whatever the form of its length and its key. -/
theorem readFrame_encode (short : frame.payload.length ≤ maxBody) :
    readFrame ⟨frame.encode ++ rest, closed⟩ =
      .frame frame.opcode frame.payload ⟨rest, closed⟩ := by
  obtain ⟨second, extended, shape, masked, form⟩ := @Frame.lengthBytes_cases frame
  have whole : frame.encode ++ rest =
      [frame.first, second] ++ (extended ++ (frame.body ++ rest)) := by
    simp [Frame.encode, shape]
  have small := frame.opcode.isLt
  have opcode : Fin.ofNat 16 (frame.first &&& 0x0F).toNat = frame.opcode := by
    apply Fin.ext
    rw [(and_low _).1, Frame.first_toNat, Fin.val_ofNat]
    split <;> omega
  have length : readLength (second &&& 0x7F).toNat ⟨extended ++ (frame.body ++ rest), closed⟩ =
      some (frame.payload.length, ⟨frame.body ++ rest, closed⟩) := by
    rw [(and_low second).2]
    have fits : frame.payload.length < 256 ^ 8 := by
      have : maxBody < 256 ^ 8 := by decide
      omega
    rcases form with ⟨code, small, rfl⟩ | ⟨code, middle, rfl⟩ | ⟨code, rfl⟩
    · rw [readLength, code, if_neg (by omega), if_neg (by omega), List.nil_append]
    · rw [readLength, code, if_pos rfl, readexactly_append (length_bigEndian 2 _),
        Option.map_some]
      dsimp only
      rw [fromBigEndian_bigEndian (by omega)]
    · rw [readLength, code, if_neg (by decide), if_pos rfl,
        readexactly_append (length_bigEndian 8 _), Option.map_some]
      dsimp only
      rw [fromBigEndian_bigEndian fits]
  have bit : decide (second &&& 0x80 ≠ 0) = frame.key.isSome := by
    rw [Bool.eq_iff_iff, decide_eq_true_eq, and_high, masked]
  simp only [readFrame, whole, readexactly_append (show [frame.first, second].length = 2 from rfl),
    opcode, length, bit, if_neg (Nat.not_lt.mpr short)]
  cases keyed : frame.key with
  | none =>
      simp [Frame.body, Frame.data, keyed, readexactly_append]
  | some key =>
      have body : frame.body ++ rest = key.bytes ++ (mask key.bytes frame.payload ++ rest) := by
        simp [Frame.body, Frame.data, keyed]
      rw [body]
      simp [readexactly_append key.four, readexactly_append (length_mask key.bytes frame.payload)]

end Reading

/-- What `_send_frame` writes is a whole frame without a key. -/
theorem frameBytes_encode {opcode : Fin 16} {payload : Bytes} (fits : payload.length < 2 ^ 64) :
    frameBytes opcode payload = some (Frame.encode ⟨true, opcode, none, payload⟩) := by
  have first : (0x80 : UInt8) ||| (UInt8.ofNat opcode &&& 0x0F) = UInt8.ofNat (128 + opcode) := by
    revert opcode
    decide
  simp only [frameBytes, first, Frame.encode, Frame.first, Frame.lengthBytes, Frame.body,
    Frame.data, if_true, Option.isSome_none, Bool.false_eq_true, if_false, Option.elim_none,
    Nat.zero_add, List.nil_append]
  by_cases short : payload.length < 126
  · rw [if_pos short, if_pos short]
    rfl
  · rw [if_neg short, if_neg short]
    by_cases middle : payload.length < 65536
    · rw [if_pos middle, if_pos middle]
      rfl
    · rw [if_neg middle, if_neg middle, if_pos fits]
      rfl

/-- A control frame is not fragmented, and its payload is short. -/
structure Ping where
  key : Key
  payload : Bytes
  short : payload.length ≤ 125

def Ping.frame (ping : Ping) : Frame := ⟨true, opPing, some ping.key, ping.payload⟩

/-- The answer to a ping. -/
def Ping.pong (ping : Ping) : Frame := ⟨true, opPong, none, ping.payload⟩

/-- A data frame and the pings in front of it. -/
structure Burst where
  pings : List Ping
  frame : Frame

def Burst.encode (burst : Burst) : Bytes :=
  burst.pings.flatMap (·.frame.encode) ++ burst.frame.encode

/-- A fragment of a message and the pings in front of it. -/
structure Fragment where
  pings : List Ping
  key : Key
  data : Bytes

/-- A message of text or binary data in one or more fragments. -/
structure Sent where
  opcode : Fin 16
  kind : opcode = opText ∨ opcode = opBin
  first : Fragment
  more : List Fragment
  short : (first.data ++ more.flatMap Fragment.data).length ≤ maxBody

namespace Sent

def message (sent : Sent) : Fin 16 × Bytes :=
  (sent.opcode, sent.first.data ++ sent.more.flatMap Fragment.data)

/-- Continuation frames; the last of them ends the message. -/
def continued : List Fragment → List Burst
  | [] => []
  | fragment :: more =>
      ⟨fragment.pings, ⟨more.isEmpty, opCont, some fragment.key, fragment.data⟩⟩ :: continued more

def bursts (sent : Sent) : List Burst :=
  ⟨sent.first.pings, ⟨sent.more.isEmpty, sent.opcode, some sent.first.key, sent.first.data⟩⟩ ::
    continued sent.more

end Sent

/-- Messages, and the pings behind the last of them. -/
structure Talk where
  messages : List Sent
  pings : List Ping

namespace Talk

variable (talk : Talk)

def bursts : List Burst := talk.messages.flatMap Sent.bursts

/-- The pings between one data frame and the next. -/
def pauses : List (List Ping) := talk.bursts.map Burst.pings ++ [talk.pings]

def encode : Bytes := talk.bursts.flatMap Burst.encode ++ talk.pings.flatMap (·.frame.encode)

/-- A socket on which the talk arrives, and nothing behind it. -/
def socket : WebSocket := ⟨⟨talk.encode, true⟩, [], false⟩

end Talk

def deliver (frame : Frame) : Fin 16 × Bytes :=
  (if frame.opcode = opCont then opText else frame.opcode, frame.payload)

/-- A frame of data, of permitted length. -/
def Burst.Plain (burst : Burst) : Prop :=
  burst.frame.payload.length ≤ maxBody ∧ burst.frame.opcode ≠ opPing ∧
    burst.frame.opcode ≠ opClose

section Receiving

variable {depth : Nat} {closed : Bool} {sent : List Bytes} {rest : Bytes}

theorem recv_frame (burst : Burst) (plain : burst.Plain) :
    recv (depth + 1) ⟨⟨burst.frame.encode ++ rest, closed⟩, sent, false⟩ =
      (.message (deliver burst.frame).1 burst.frame.payload, ⟨⟨rest, closed⟩, sent, false⟩) := by
  rw [recv, readFrame_encode plain.1]
  dsimp only
  rw [if_neg plain.2.1, if_neg plain.2.2]
  by_cases continues : burst.frame.opcode = opCont
  · rw [if_pos continues, deliver, if_pos continues]
  · rw [if_neg continues, deliver, if_neg continues]

/-- Each ping is answered in a call of its own. -/
theorem recv_pings (pings : List Ping) :
    recv (pings.length + depth)
        ⟨⟨pings.flatMap (·.frame.encode) ++ rest, closed⟩, sent, false⟩ =
      recv depth ⟨⟨rest, closed⟩, sent ++ pings.map (·.pong.encode), false⟩ := by
  induction pings generalizing sent with
  | nil => simp
  | cons ping pings ih =>
      have short := ping.short
      have fits : ping.payload.length ≤ maxBody := short.trans (by decide)
      have answer : sendFrame ⟨⟨pings.flatMap (·.frame.encode) ++ rest, closed⟩, sent, false⟩
          opPong ping.payload =
            some ⟨⟨pings.flatMap (·.frame.encode) ++ rest, closed⟩,
              sent ++ [ping.pong.encode], false⟩ := by
        have bytes := @frameBytes_encode opPong ping.payload (by omega)
        simp only [sendFrame, bytes, Option.map_some, Bool.false_eq_true, if_false]
        rfl
      have read := @readFrame_encode closed ping.frame
        (pings.flatMap (·.frame.encode) ++ rest) fits
      rw [List.length_cons, Nat.add_right_comm, List.flatMap_cons, List.append_assoc, recv, read]
      dsimp only
      rw [if_pos (show ping.frame.opcode = opPing from rfl), show ping.frame.payload = ping.payload from rfl,
        answer]
      dsimp only
      rw [ih, List.append_assoc, List.map_cons, List.singleton_append]

/-- A data frame is received behind fewer pings than calls may nest. -/
theorem recv_burst {burst : Burst} (plain : burst.Plain) (calm : burst.pings.length < depth) :
    recv depth ⟨⟨burst.encode ++ rest, closed⟩, sent, false⟩ =
      (.message (deliver burst.frame).1 burst.frame.payload,
        ⟨⟨rest, closed⟩, sent ++ burst.pings.map (·.pong.encode), false⟩) := by
  obtain ⟨more, rfl⟩ := Nat.exists_eq_add_of_lt calm
  rw [Burst.encode, List.append_assoc, Nat.add_assoc, recv_pings, recv_frame burst plain]

/-- A run of pings that is as long as calls may nest ends in an exception. -/
theorem recv_pings_raised {pings : List Ping} (long : depth ≤ pings.length) :
    (recv depth ⟨⟨pings.flatMap (·.frame.encode) ++ rest, closed⟩, sent, false⟩).1 = .raised := by
  have front : (pings.take depth).length = depth := by
    rw [List.length_take, Nat.min_eq_left long]
  have split : pings.flatMap (·.frame.encode) ++ rest =
      (pings.take depth).flatMap (·.frame.encode) ++
        ((pings.drop depth).flatMap (·.frame.encode) ++ rest) := by
    rw [← List.append_assoc, ← List.flatMap_append, List.take_append_drop]
  have run := @recv_pings 0 closed sent
    ((pings.drop depth).flatMap (·.frame.encode) ++ rest) (pings.take depth)
  rw [front, ← split] at run
  rw [show depth + 0 = depth from rfl] at run
  rw [run]
  rfl

variable {bursts : List Burst}

/-- Bursts without a long run of pings are received frame by frame. -/
theorem receive_bursts (plain : ∀ burst ∈ bursts, burst.Plain)
    (calm : ∀ burst ∈ bursts, burst.pings.length < depth) :
    receive depth ⟨⟨bursts.flatMap Burst.encode ++ rest, closed⟩, sent, false⟩ =
      let behind := receive depth
        ⟨⟨rest, closed⟩, sent ++ (bursts.flatMap Burst.pings).map (·.pong.encode), false⟩
      (bursts.map (deliver ·.frame) ++ behind.1, behind.2) := by
  induction bursts generalizing sent with
  | nil => simp
  | cons burst bursts ih =>
      have first := @recv_burst depth closed sent (bursts.flatMap Burst.encode ++ rest) burst
        (plain burst List.mem_cons_self) (calm burst List.mem_cons_self)
      have later := @ih (sent ++ burst.pings.map (·.pong.encode))
        (fun other listed => plain other (List.mem_cons_of_mem _ listed))
        fun other listed => calm other (List.mem_cons_of_mem _ listed)
      rw [List.flatMap_cons, List.append_assoc, receive_message first, later]
      simp only [List.flatMap_cons, List.map_append, List.append_assoc, List.map_cons,
        List.cons_append]
      rfl

/-- A long run of pings in front of a frame ends the conversation in an exception. -/
theorem receive_storm (plain : ∀ burst ∈ bursts, burst.Plain)
    (storm : ∃ burst ∈ bursts, depth ≤ burst.pings.length) :
    (receive depth ⟨⟨bursts.flatMap Burst.encode ++ rest, closed⟩, sent, false⟩).2.1 =
      .raised := by
  induction bursts generalizing sent with
  | nil => simp at storm
  | cons burst bursts ih =>
      rw [List.flatMap_cons, List.append_assoc]
      by_cases long : depth ≤ burst.pings.length
      · apply receive_raised
        rw [Burst.encode, List.append_assoc]
        exact recv_pings_raised long
      · have first := @recv_burst depth closed sent (bursts.flatMap Burst.encode ++ rest) burst
          (plain burst List.mem_cons_self) (Nat.lt_of_not_le long)
        obtain ⟨other, listed, often⟩ := storm
        rcases List.mem_cons.mp listed with rfl | listed
        · exact absurd often long
        · rw [receive_message first]
          exact ih (fun other listed => plain other (List.mem_cons_of_mem _ listed))
            ⟨other, listed, often⟩

end Receiving

theorem Sent.data_opcode (sent : Sent) :
    sent.opcode ≠ opPing ∧ sent.opcode ≠ opClose ∧ sent.opcode ≠ opCont := by
  rcases sent.kind with text | binary
  · rw [text]
    decide
  · rw [binary]
    decide

theorem continued_plain {more : List Fragment}
    (short : (more.flatMap Fragment.data).length ≤ maxBody) :
    ∀ burst ∈ Sent.continued more, burst.Plain := by
  induction more with
  | nil => simp [Sent.continued]
  | cons fragment more ih =>
      rw [List.flatMap_cons, List.length_append] at short
      rw [Sent.continued, List.forall_mem_cons]
      have control : opCont ≠ opPing ∧ opCont ≠ opClose := by decide
      have fits : fragment.data.length ≤ maxBody := by omega
      exact ⟨⟨fits, control⟩, ih (by omega)⟩

theorem bursts_plain (sent : Sent) : ∀ burst ∈ sent.bursts, burst.Plain := by
  have short := sent.short
  rw [List.length_append] at short
  rw [Sent.bursts, List.forall_mem_cons]
  have fits : sent.first.data.length ≤ maxBody := by omega
  exact ⟨⟨fits, sent.data_opcode.1, sent.data_opcode.2.1⟩, continued_plain (by omega)⟩

theorem length_continued (more : List Fragment) : (Sent.continued more).length = more.length := by
  induction more with
  | nil => rfl
  | cons fragment more ih => rw [Sent.continued, List.length_cons, ih, List.length_cons]

/-- There are as many frames as messages only if no message is split. -/
theorem whole_of_length {messages : List Sent}
    (few : (messages.flatMap Sent.bursts).length ≤ messages.length) :
    ∀ sent ∈ messages, sent.more = [] := by
  have least (messages : List Sent) : messages.length ≤ (messages.flatMap Sent.bursts).length := by
    induction messages with
    | nil => exact le_rfl
    | cons sent messages ih =>
        simp only [List.flatMap_cons, List.length_append, Sent.bursts, List.length_cons]
        omega
  induction messages with
  | nil => simp
  | cons sent messages ih =>
      simp only [List.flatMap_cons, List.length_append, Sent.bursts, List.length_cons,
        length_continued] at few
      have others := least messages
      rw [List.forall_mem_cons]
      exact ⟨List.length_eq_zero_iff.mp (by omega), ih (by omega)⟩

/-- A message in one frame is delivered as it is. -/
theorem deliver_whole {sent : Sent} (whole : sent.more = []) :
    sent.bursts.map (deliver ·.frame) = [sent.message] := by
  have data := sent.data_opcode.2.2
  simp [Sent.bursts, whole, Sent.continued, deliver, data, Sent.message]

theorem deliver_messages {messages : List Sent} (whole : ∀ sent ∈ messages, sent.more = []) :
    (messages.flatMap Sent.bursts).map (deliver ·.frame) = messages.map Sent.message := by
  induction messages with
  | nil => rfl
  | cons sent messages ih =>
      obtain ⟨first, others⟩ := List.forall_mem_cons.mp whole
      rw [List.flatMap_cons, List.map_append, deliver_whole first, ih others]
      rfl

namespace Talk

variable {talk : Talk} {depth : Nat}

/-- All the pings that are sent. -/
def allPings (talk : Talk) : List Ping := talk.bursts.flatMap Burst.pings ++ talk.pings

/-- Every run of pings is shorter than calls may nest. -/
def Calm (talk : Talk) (depth : Nat) : Prop := ∀ pings ∈ talk.pauses, pings.length < depth

/-- The messages are received as they were sent, each ping is answered with its payload,
and what is sent can be decoded. -/
structure Transparent (depth : Nat) (talk : Talk) : Prop where
  returned : (receive depth talk.socket).1 = talk.messages.map Sent.message
  ended : (receive depth talk.socket).2.1 = .none
  answered : (receive depth talk.socket).2.2.sent.map decode =
    talk.allPings.map fun ping => some (⟨true, opPong, none, ping.payload⟩, [])
  frames : ∀ opcode payload, payload.length < 2 ^ 64 → ∃ frame,
    frameBytes opcode payload = some frame ∧ decode frame = some (⟨true, opcode, none, payload⟩, [])

theorem plain (talk : Talk) : ∀ burst ∈ talk.bursts, burst.Plain := by
  intro burst listed
  obtain ⟨sent, -, among⟩ := List.mem_flatMap.mp listed
  exact bursts_plain sent burst among

/-- What is received where no exception ends the conversation. -/
theorem receive_calm (calm : talk.Calm depth) :
    receive depth talk.socket =
      (talk.bursts.map (deliver ·.frame), .none,
        ⟨⟨[], true⟩, talk.allPings.map (·.pong.encode), false⟩) := by
  have bursts : ∀ burst ∈ talk.bursts, burst.pings.length < depth := fun burst listed =>
    calm _ (List.mem_append_left _ (List.mem_map_of_mem listed))
  have behind := calm talk.pings (List.mem_append_right _ List.mem_cons_self)
  obtain ⟨more, rfl⟩ := Nat.exists_eq_add_of_lt behind
  have ends : recv (talk.pings.length + (more + 1))
      ⟨⟨talk.pings.flatMap (·.frame.encode), true⟩,
        [] ++ (talk.bursts.flatMap Burst.pings).map (·.pong.encode), false⟩ =
      (.none, ⟨⟨[], true⟩, talk.allPings.map (·.pong.encode), false⟩) := by
    have run := @recv_pings (more + 1) true
      ((talk.bursts.flatMap Burst.pings).map (·.pong.encode)) [] talk.pings
    rw [List.append_nil] at run
    rw [List.nil_append, run, ← List.map_append]
    rfl
  rw [socket, encode, receive_bursts talk.plain bursts]
  dsimp only
  rw [Nat.add_assoc, receive_none ends, List.append_nil]

theorem receive_not_calm (storm : ¬ talk.Calm depth) :
    (receive depth talk.socket).2.1 = .raised := by
  rw [socket, encode]
  by_cases bursts : ∃ burst ∈ talk.bursts, depth ≤ burst.pings.length
  · exact receive_storm talk.plain bursts
  · have before : ∀ burst ∈ talk.bursts, burst.pings.length < depth := fun burst listed =>
      Nat.lt_of_not_le fun long => bursts ⟨burst, listed, long⟩
    have last : depth ≤ talk.pings.length := by
      by_contra short
      apply storm
      intro pings listed
      rcases List.mem_append.mp listed with inside | behind
      · obtain ⟨burst, among, rfl⟩ := List.mem_map.mp inside
        exact before burst among
      · rw [List.mem_singleton.mp behind]
        omega
    rw [receive_bursts talk.plain before]
    have raised := @recv_pings_raised depth true
      ([] ++ (talk.bursts.flatMap Burst.pings).map (·.pong.encode)) [] _ last
    rw [List.append_nil] at raised
    exact receive_raised raised

theorem frames_decode (opcode : Fin 16) (payload : Bytes) (fits : payload.length < 2 ^ 64) :
    ∃ frame, frameBytes opcode payload = some frame ∧
      decode frame = some (⟨true, opcode, none, payload⟩, []) := by
  refine ⟨_, frameBytes_encode fits, ?_⟩
  have decoded := @decode_frame ⟨true, opcode, none, payload⟩ fits []
  rwa [List.append_nil] at decoded

/-- A conversation is transparent exactly if no message is split into fragments and no run
of pings is as long as calls may nest. -/
theorem transparent_iff (depth : Nat) (talk : Talk) :
    talk.Transparent depth ↔ (∀ sent ∈ talk.messages, sent.more = []) ∧ talk.Calm depth := by
  constructor
  · intro transparent
    have calm : talk.Calm depth := by
      by_contra storm
      have ended := transparent.ended
      rw [receive_not_calm storm] at ended
      cases ended
    refine ⟨whole_of_length ?_, calm⟩
    have returned := transparent.returned
    rw [receive_calm calm] at returned
    have length := congrArg List.length returned
    rw [List.length_map, List.length_map] at length
    exact length.le
  · rintro ⟨whole, calm⟩
    constructor
    · rw [receive_calm calm]
      exact deliver_messages whole
    · rw [receive_calm calm]
    · rw [receive_calm calm, List.map_map]
      refine List.map_congr_left fun ping _ => ?_
      have short := ping.short
      have decoded := @decode_frame ping.pong (by
        change ping.payload.length < _
        omega) []
      rwa [List.append_nil] at decoded
    · exact frames_decode

end Talk

/-- A text of two fragments. -/
def twoFragments : Talk where
  messages := [{
    opcode := opText
    kind := .inl rfl
    first := ⟨[], ⟨[1, 2, 3, 4], rfl⟩, [97]⟩
    more := [⟨[], ⟨[5, 6, 7, 8], rfl⟩, [98]⟩]
    short := by decide }]
  pings := []

/-- Each fragment is returned as a message of its own. -/
theorem fragments_returned :
    (receive 1000 twoFragments.socket).1 = [(opText, [97]), (opText, [98])] ∧
      ¬ twoFragments.Transparent 1000 := by
  have calm : twoFragments.Calm 1000 := by
    intro pings listed
    have none_ : pings = [] := by
      simpa [Talk.pauses, Talk.bursts, twoFragments, Sent.bursts, Sent.continued] using listed
    rw [none_]
    decide
  have returned : (receive 1000 twoFragments.socket).1 = [(opText, [97]), (opText, [98])] := by
    rw [Talk.receive_calm calm]
    rfl
  refine ⟨returned, fun transparent => ?_⟩
  have same := transparent.returned
  rw [returned] at same
  exact absurd (congrArg List.length same) (by decide)

end WebSocket

end PyBulletin.Web
