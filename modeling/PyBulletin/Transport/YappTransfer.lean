import PyBulletin.Foundation.Run
import PyBulletin.Foundation.Lines
import PyBulletin.Transport.Yapp

set_option autoImplicit false

namespace PyBulletin.Transport.Yapp

open PyBulletin.Foundation
open Pactor (chunksOf chunksOf_flatten)

/-! # A file on its way

`send_file` and `receive_file` at the two ends of a line.  The announcement goes to the program
at the other end, which answers it in a line of its own and then does what `receive_file` does.
-/

def blockSize : Nat := 128

/-- Where `send_file` is. -/
inductive Sending where
  | announcing (filename : Text) (data : Bytes)
  | awaitingOk (data : Bytes)
  | writing (left : List Bytes)
  | awaitingAck (left : List Bytes)
  | returned (ok : Bool)
  | failed
deriving DecidableEq

/-- Where `receive_file` is: in front of a frame, in front of its length, in front of the
checksum of an EOF frame, or in front of the data of a frame of the length. -/
inductive Receiving where
  | start (buf : Bytes)
  | length (buf : Bytes)
  | ending (buf : Bytes)
  | body (buf : Bytes) (low high : UInt8)
  | returned (received : Option Bytes)
deriving DecidableEq

/-- `f"(YAPP {filename} {len(data)})\r"` -/
def announcement (filename : Text) (data : Bytes) : Text :=
  ("(YAPP " : Text) ++ filename ++ [' '] ++ Nat.toDigits 10 data.length ++ (")\r" : Text)

/-- What a step of a program does: where it gets to, what it writes and what it leaves of what
has arrived. -/
structure Move (Stage : Type) where
  stage : Stage
  written : Bytes
  left : Bytes

/-- The next step of `send_file`, unless it waits for more; `encode("ascii")` raises for a
character that is not ASCII. -/
def Sending.step (replies : Bytes) : Sending → Option (Move Sending)
  | .announcing filename data =>
      if (announcement filename data).all (fun c => c.toNat < 128) then some ⟨.awaitingOk data, [], replies⟩
      else some ⟨.failed, [], replies⟩
  | .writing [] => some ⟨.returned true, [], replies⟩
  | .writing (frame :: left) => some ⟨.awaitingAck left, frame, replies⟩
  | .awaitingAck left =>
      match replies with
      | [] => none
      | ack :: replies =>
          some ⟨if ack = can then .returned false else .writing left, [], replies⟩
  | .awaitingOk _ | .returned _ | .failed => none

/-- `readline` returns the answer to the announcement. -/
def Sending.answered (resp : Text) : Sending → Option Sending
  | .awaitingOk data =>
      if Text.lower (Text.strip resp) ≠ "(ok)" then some (.returned false)
      else
        match encodeFile data blockSize with
        | some frames => some (.writing frames)
        | none => some .failed
  | _ => none

/-- A read of `send_file` takes too long, or the stream ends. -/
def Sending.givenUp : Sending → Option Sending
  | .awaitingOk _ | .awaitingAck _ => some (.returned false)
  | _ => none

/-- The next step of `receive_file`, unless it waits for more. -/
def Receiving.step (inbox : Bytes) : Receiving → Option (Move Receiving)
  | .start buf =>
      match inbox with
      | [] => none
      | first :: inbox =>
          some ⟨if first = can then .returned none else if first ≠ soh then .returned none
            else .length buf, [], inbox⟩
  | .length buf =>
      match inbox with
      | low :: high :: inbox =>
          some ⟨if lengthOf low high = 0 then .ending buf else .body buf low high, [], inbox⟩
      | _ => none
  | .ending buf =>
      match inbox with
      | [] => none
      | _ :: inbox => some ⟨.returned (some buf), encodeAck, inbox⟩
  | .body buf low high =>
      let length := lengthOf low high
      if inbox.length < length + 1 then none
      else
        let frameData := inbox.take (length + 1)
        let payload := [low, high] ++ frameData.dropLast
        if checksum payload ≠ frameData.getLastD 0 then
          some ⟨.returned none, encodeAbort, inbox.drop (length + 1)⟩
        else some ⟨.start (buf ++ frameData.dropLast), encodeAck, inbox.drop (length + 1)⟩
  | .returned _ => none

/-- A read of `receive_file` takes too long, or the stream ends.  The checksum of an EOF frame
may be missing. -/
def Receiving.givenUp : Receiving → Option (Receiving × Bytes)
  | .start _ | .length _ | .body _ _ _ => some (.returned none, [])
  | .ending buf => some (.returned (some buf), encodeAck)
  | .returned _ => none

/-- The two programs, and what is on the way between them and what has arrived. -/
structure Transfer where
  sender : Sending
  receiver : Receiving
  outward : Bytes
  inbox : Bytes
  homeward : Bytes
  replies : Bytes
deriving DecidableEq

inductive Event where
  | send
  | answer (resp : Text)
  | receive
  | carry
  | carryBack
  | senderGivesUp
  | receiverGivesUp
deriving DecidableEq

def Transfer.step (transfer : Transfer) : Event → Option Transfer
  | .send =>
      (transfer.sender.step transfer.replies).map fun move =>
        { transfer with
          sender := move.stage, outward := transfer.outward ++ move.written, replies := move.left }
  | .answer resp =>
      (transfer.sender.answered resp).map fun sender => { transfer with sender }
  | .receive =>
      (transfer.receiver.step transfer.inbox).map fun move =>
        { transfer with
          receiver := move.stage, homeward := transfer.homeward ++ move.written, inbox := move.left }
  | .carry =>
      match transfer.outward with
      | [] => none
      | byte :: outward => some { transfer with outward, inbox := transfer.inbox ++ [byte] }
  | .carryBack =>
      match transfer.homeward with
      | [] => none
      | byte :: homeward => some { transfer with homeward, replies := transfer.replies ++ [byte] }
  | .senderGivesUp => transfer.sender.givenUp.map fun sender => { transfer with sender }
  | .receiverGivesUp =>
      transfer.receiver.givenUp.map fun (receiver, written) =>
        { transfer with receiver, homeward := transfer.homeward ++ written }

def Transfer.begin (filename : Text) (data : Bytes) : Transfer where
  sender := .announcing filename data
  receiver := .start []
  outward := []
  inbox := []
  homeward := []
  replies := []

/-- `receive_file` on a stream that has arrived: it reads on, and gives up where the stream ends. -/
def Receiving.advance (state : Receiving × Bytes × Bytes) (_ : Unit) : Option (Receiving × Bytes × Bytes) :=
  let (stage, written, inbox) := state
  match stage.step inbox with
  | some move => some (move.stage, written ++ move.written, move.left)
  | none => stage.givenUp.map fun (after, told) => (after, written ++ told, inbox)

section Alone

variable {buf written stream rest : Bytes} {low high : UInt8}

theorem advance_start :
    Receiving.advance (.start buf, written, soh :: stream) () = some (.length buf, written, stream) := by
  simp [Receiving.advance, Receiving.step, soh, can]

theorem advance_length :
    Receiving.advance (.length buf, written, low :: high :: rest) () =
      some (if lengthOf low high = 0 then .ending buf else .body buf low high, written, rest) := by
  simp [Receiving.advance, Receiving.step]

/-- The steps of `receive_file` come to what `receive_file` returns and writes. -/
theorem advance_receiveFrom (buf written stream : Bytes) :
    ∃ turns left, run Receiving.advance (.start buf, written, stream) turns =
      some (.returned (receiveFrom buf written stream).returned,
        (receiveFrom buf written stream).written, left) := by
  fun_induction receiveFrom buf written stream with
  | case1 buf written =>
      refine ⟨[()], [], ?_⟩
      simp [run, Receiving.advance, Receiving.step, Receiving.givenUp, Reception.returned]
  | case2 buf written stream =>
      refine ⟨[()], stream, ?_⟩
      simp [run, Receiving.advance, Receiving.step, Reception.returned]
  | case3 buf written first stream refused other =>
      refine ⟨[()], stream, ?_⟩
      simp [run, Receiving.advance, Receiving.step, Reception.returned, refused, other]
  | case4 buf written first refused soh_ low high rest length none_ =>
      obtain rfl := not_not.mp soh_
      refine ⟨[(), (), ()], rest.drop 1, ?_⟩
      rw [run, advance_start]
      dsimp only
      rw [run, advance_length, if_pos none_]
      cases rest with
      | nil => simp [run, Receiving.advance, Receiving.step, Receiving.givenUp, Reception.returned]
      | cons last rest => simp [run, Receiving.advance, Receiving.step, Reception.returned]
  | case5 buf written first refused soh_ low high rest length some_ short =>
      obtain rfl := not_not.mp soh_
      refine ⟨[(), (), ()], rest, ?_⟩
      rw [run, advance_start]
      dsimp only
      rw [run, advance_length, if_neg some_]
      have waits : (Receiving.body buf low high).step rest = none := if_pos short
      simp [run, Receiving.advance, waits, Receiving.givenUp, Reception.returned]
  | case6 buf written first refused soh_ low high rest length some_ enough frameData payload wrong =>
      obtain rfl := not_not.mp soh_
      refine ⟨[(), (), ()], rest.drop (length + 1), ?_⟩
      rw [run, advance_start]
      dsimp only
      rw [run, advance_length, if_neg some_]
      have refuses : (Receiving.body buf low high).step rest =
          some ⟨.returned none, encodeAbort, rest.drop (length + 1)⟩ := by
        rw [Receiving.step]
        exact (if_neg enough).trans (if_pos wrong)
      simp [run, Receiving.advance, refuses, Reception.returned]
  | case7 buf written first refused soh_ low high rest length some_ enough frameData payload right ih =>
      obtain rfl := not_not.mp soh_
      obtain ⟨turns, left, later⟩ := ih
      refine ⟨() :: () :: () :: turns, left, ?_⟩
      rw [run, advance_start]
      dsimp only
      rw [run, advance_length, if_neg some_]
      have takes : (Receiving.body buf low high).step rest =
          some ⟨.start (buf ++ frameData.dropLast), encodeAck, rest.drop (length + 1)⟩ := by
        rw [Receiving.step]
        exact (if_neg enough).trans (if_neg right)
      have advanced : Receiving.advance (.body buf low high, written, rest) () =
          some (.start (buf ++ frameData.dropLast), written ++ encodeAck, rest.drop (length + 1)) := by
        simp [Receiving.advance, takes]
      dsimp only
      rw [run, advanced]
      exact later
  | case8 buf written first stream refused soh_ few =>
      obtain rfl := not_not.mp soh_
      refine ⟨[(), ()], stream, ?_⟩
      rw [run, advance_start]
      rcases stream with _ | ⟨low, _ | ⟨high, rest⟩⟩
      · simp [run, Receiving.advance, Receiving.step, Receiving.givenUp, Reception.returned]
      · simp [run, Receiving.advance, Receiving.step, Receiving.givenUp, Reception.returned]
      · exact (few low high rest rfl).elim

end Alone

def framesOf (data : Bytes) : List Bytes := (chunksOf blockSize data).map frameOf ++ [encodeEof]

/-- `send_file` has written the first `written` frames and taken `taken` acknowledgements. -/
def SenderAt (data : Bytes) (written taken : Nat) : Sending → Prop
  | .announcing _ other | .awaitingOk other => other = data ∧ written = 0 ∧ taken = 0
  | .writing left => left = (framesOf data).drop written ∧ taken = written
  | .awaitingAck left => left = (framesOf data).drop written ∧ taken + 1 = written
  | .returned true => taken = (framesOf data).length
  | .returned false | .failed => True

/-- `receive_file` has the chunks in front and has written `acked` acknowledgements; what is
still to come to it is `pending`. -/
def ReceiverAt (front back : List Bytes) (acked : Nat) (pending : Bytes) : Receiving → Prop
  | .start buf => buf = front.flatten ∧ acked = front.length ∧ sent back = pending
  | .length buf => buf = front.flatten ∧ acked = front.length ∧ sent back = soh :: pending
  | .body buf low high =>
      buf = front.flatten ∧ acked = front.length ∧ lengthOf low high ≠ 0 ∧
        sent back = soh :: low :: high :: pending
  | .ending buf =>
      buf = front.flatten ∧ acked = front.length ∧ back = [] ∧ sent back = soh :: 0 :: 0 :: pending
  | .returned none => acked = front.length
  | .returned (some received) => received = front.flatten ∧ acked = front.length + 1 ∧ back = []

variable {front back : List Bytes} {acked : Nat} {inbox rest : Bytes}

theorem sent_begins (chunks : List Bytes) : ∃ more, sent chunks = soh :: more := by
  cases chunks with
  | nil => exact ⟨_, rfl⟩
  | cons chunk chunks => exact ⟨_, by rw [sent_cons, frame_append]⟩

/-- Three bytes of what is still to come tell what comes first. -/
theorem sent_cases {low high : UInt8} {more : Bytes} (same : sent back = soh :: low :: high :: more) :
    (back = [] ∧ low = 0 ∧ high = 0) ∨
      ∃ chunk later, back = chunk :: later ∧ low = UInt8.ofNat chunk.length ∧ high = 0 ∧
        more = chunk ++ checksum (low :: high :: chunk) :: sent later := by
  cases back with
  | nil =>
      cases same
      exact .inl ⟨rfl, rfl, rfl⟩
  | cons chunk later =>
      rw [sent_cons, frame_append] at same
      cases same
      exact .inr ⟨chunk, later, rfl, rfl, rfl, rfl⟩

/-- A step of `receive_file` on what was sent is no refusal, and acknowledges what it takes in. -/
theorem receiver_step {stage : Receiving} {move : Move Receiving} (chunked : Chunked back)
    (at_ : ReceiverAt front back acked (inbox ++ rest) stage)
    (stepped : stage.step inbox = some move) :
    ∃ front' back' acked', front' ++ back' = front ++ back ∧ acked ≤ acked' ∧
      ReceiverAt front' back' acked' (move.left ++ rest) move.stage ∧
      move.written = List.replicate (acked' - acked) soh ∧ move.stage ≠ .returned none := by
  cases stage with
  | start buf =>
      obtain ⟨data, count, pending⟩ := at_
      cases inbox with
      | nil => cases stepped
      | cons first inbox =>
          obtain ⟨more, begins⟩ := sent_begins back
          obtain ⟨rfl, same⟩ := List.cons.inj (begins.symm.trans pending)
          cases stepped
          refine ⟨front, back, acked, rfl, Nat.le_refl _, ?_, by simp, ?_⟩
          · exact ⟨data, count, pending⟩
          · simp [soh, can]
  | length buf =>
      obtain ⟨data, count, pending⟩ := at_
      match inbox with
      | [] | [_] => cases stepped
      | low :: high :: inbox =>
          cases stepped
          refine ⟨front, back, acked, rfl, Nat.le_refl _, ?_, by simp, ?_⟩
          · dsimp only
            split
            · rename_i none_
              rcases sent_cases pending with ⟨rfl, rfl, rfl⟩ | ⟨chunk, later, rfl, rfl, rfl, _⟩
              · exact ⟨data, count, rfl, pending⟩
              · obtain ⟨nonempty, short⟩ := chunked chunk List.mem_cons_self
                exact absurd none_ (lengthOf_chunk nonempty short).1
            · rename_i some_
              exact ⟨data, count, some_, pending⟩
          · dsimp only
            split <;> simp
  | ending buf =>
      obtain ⟨data, count, last, pending⟩ := at_
      cases inbox with
      | nil => cases stepped
      | cons first inbox =>
          cases stepped
          exact ⟨front, back, acked + 1, rfl, Nat.le_succ _, ⟨data, by rw [count], last⟩, by simp [encodeAck], by simp⟩
  | body buf low high =>
      obtain ⟨data, count, some_, pending⟩ := at_
      rcases sent_cases pending with ⟨_, rfl, rfl⟩ | ⟨chunk, later, rfl, rfl, rfl, same⟩
      · exact absurd rfl some_
      obtain ⟨nonempty, short⟩ := chunked chunk List.mem_cons_self
      have size := (lengthOf_chunk nonempty short).2
      rw [Receiving.step] at stepped
      dsimp only at stepped
      rw [← size] at stepped
      split at stepped
      · cases stepped
      rename_i enough
      obtain ⟨tail, rfl⟩ : chunk ++ [checksum (UInt8.ofNat chunk.length :: 0 :: chunk)] <+: inbox := by
        refine List.prefix_of_prefix_length_le ⟨sent later, ?_⟩ (List.prefix_append inbox rest) ?_
        · rw [same, List.append_assoc]
          rfl
        · rw [List.length_append, List.length_singleton]
          exact Nat.not_lt.mp enough
      have following : tail ++ rest = sent later := by
        simpa [List.append_assoc] using same
      have taken : (chunk ++ [checksum (UInt8.ofNat chunk.length :: 0 :: chunk)] ++ tail).take
          (chunk.length + 1) = chunk ++ [checksum (UInt8.ofNat chunk.length :: 0 :: chunk)] :=
        List.take_left' (by simp)
      have left : (chunk ++ [checksum (UInt8.ofNat chunk.length :: 0 :: chunk)] ++ tail).drop
          (chunk.length + 1) = tail := List.drop_left' (by simp)
      rw [taken, left, List.dropLast_concat] at stepped
      rw [if_neg (by simp)] at stepped
      cases stepped
      refine ⟨front ++ [chunk], later, acked + 1, by simp, Nat.le_succ _, ?_, by simp [encodeAck], by simp⟩
      exact ⟨by simp [data], by simp [count], following.symm⟩
  | returned received => cases stepped

theorem receiver_givenUp {stage after : Receiving} {pending written : Bytes}
    (at_ : ReceiverAt front back acked pending stage) (gaveUp : stage.givenUp = some (after, written)) :
    ∃ acked', acked ≤ acked' ∧ ReceiverAt front back acked' pending after ∧
      written = List.replicate (acked' - acked) soh := by
  cases stage with
  | start buf | length buf | body buf low high =>
      cases gaveUp
      exact ⟨acked, Nat.le_refl _, at_.2.1, by simp⟩
  | ending buf =>
      cases gaveUp
      obtain ⟨data, count, last, _⟩ := at_
      exact ⟨acked + 1, Nat.le_succ _, ⟨data, by rw [count], last⟩, by simp [encodeAck]⟩
  | returned received => cases gaveUp

/-- The bytes that `send_file` has yet to write. -/
def unwritten (data : Bytes) (written : Nat) : Bytes := ((framesOf data).drop written).flatten

/-- The two ends of a transfer and what is between them. -/
structure Together (data : Bytes) (written taken acked : Nat) (front back : List Bytes)
    (transfer : Transfer) : Prop where
  chunks : front ++ back = chunksOf blockSize data
  inTime : taken ≤ acked
  bounded : written ≤ (framesOf data).length
  sender : SenderAt data written taken transfer.sender
  receiver : ReceiverAt front back acked
    (transfer.inbox ++ transfer.outward ++ unwritten data written) transfer.receiver
  acks : transfer.replies ++ transfer.homeward = List.replicate (acked - taken) soh

/-- Some point of the transfer has been reached. -/
def UnderWay (data : Bytes) (transfer : Transfer) : Prop :=
  ∃ written taken acked front back, Together data written taken acked front back transfer

section Steps

variable {data : Bytes} {written taken : Nat} {transfer next : Transfer}

theorem encodeFile_default (data : Bytes) : encodeFile data blockSize = some (framesOf data) :=
  encodeFile_eq (by decide) (by decide) data

theorem Together.chunked (together : Together data written taken acked front back transfer) :
    Chunked back := by
  have all := chunked_chunksOf (by decide) (by decide : blockSize ≤ 255) data
  intro chunk listed
  exact all chunk (together.chunks ▸ List.mem_append_right front listed)

theorem unwritten_drop {frame : Bytes} {left : List Bytes}
    (same : frame :: left = (framesOf data).drop written) :
    left = (framesOf data).drop (written + 1) ∧
      unwritten data written = frame ++ unwritten data (written + 1) ∧
      written < (framesOf data).length := by
  have rest : left = (framesOf data).drop (written + 1) := by
    rw [← List.tail_drop, ← same]
    rfl
  refine ⟨rest, ?_, ?_⟩
  · rw [unwritten, unwritten, ← same, ← rest]
    rfl
  · by_contra past
    rw [List.drop_eq_nil_of_le (by omega)] at same
    cases same

theorem together_send (together : Together data written taken acked front back transfer)
    (stepped : transfer.step .send = some next) : UnderWay data next := by
  obtain ⟨move, moved, rfl⟩ := Option.map_eq_some_iff.mp stepped
  obtain ⟨chunks, inTime, bounded, sender, receiver, acks⟩ := together
  cases stage : transfer.sender with
  | announcing filename other =>
      rw [stage] at sender moved
      rw [Sending.step] at moved
      split at moved
      all_goals
        cases moved
        refine ⟨written, taken, acked, front, back, chunks, inTime, bounded, ?_, by simpa using receiver, acks⟩
      · exact sender
      · trivial
  | writing left =>
      rw [stage] at sender moved
      obtain ⟨remaining, same⟩ := sender
      cases left with
      | nil =>
          cases moved
          refine ⟨written, taken, acked, front, back, chunks, inTime, bounded, ?_, by simpa using receiver, acks⟩
          have all := List.drop_eq_nil_iff.mp remaining.symm
          exact same.trans (Nat.le_antisymm bounded all)
      | cons frame left =>
          cases moved
          obtain ⟨rest, flat, less⟩ := unwritten_drop remaining
          refine ⟨written + 1, taken, acked, front, back, chunks, inTime, less, ⟨rest, by rw [same]⟩, ?_, acks⟩
          rw [flat] at receiver
          simpa [List.append_assoc] using receiver
  | awaitingAck left =>
      rw [stage] at sender moved
      obtain ⟨remaining, same⟩ := sender
      cases replies : transfer.replies with
      | nil => rw [replies] at moved; cases moved
      | cons ack replies_ =>
          rw [replies] at moved acks
          cases moved
          obtain ⟨more, count⟩ : ∃ more, acked - taken = more + 1 := by
            refine Nat.exists_eq_succ_of_ne_zero fun none_ => ?_
            rw [none_] at acks
            cases acks
          rw [count, List.replicate_succ, List.cons_append] at acks
          obtain ⟨rfl, others⟩ := List.cons.inj acks
          refine ⟨written, taken + 1, acked, front, back, chunks, by omega, bounded, ⟨remaining, same⟩,
            by simpa using receiver, ?_⟩
          rw [others, Nat.sub_add_eq, count]
          rfl
  | awaitingOk other | returned ok | failed =>
      rw [stage] at moved
      cases moved

theorem together_receive (together : Together data written taken acked front back transfer)
    (stepped : transfer.step .receive = some next) :
    UnderWay data next ∧ next.receiver ≠ .returned none := by
  obtain ⟨move, moved, rfl⟩ := Option.map_eq_some_iff.mp stepped
  have pending := together.receiver
  rw [List.append_assoc] at pending
  obtain ⟨front', back', acked', same, more, receiver, acks, well⟩ :=
    receiver_step together.chunked pending moved
  have inTime := together.inTime
  refine ⟨⟨written, taken, acked', front', back', same.trans together.chunks, inTime.trans more,
    together.bounded, together.sender, ?_, ?_⟩, well⟩
  · rw [List.append_assoc]
    exact receiver
  · dsimp only
    rw [← List.append_assoc, together.acks, acks, List.replicate_append_replicate]
    congr 1
    omega

theorem together_givenUp (together : Together data written taken acked front back transfer)
    (stepped : transfer.step .receiverGivesUp = some next) : UnderWay data next := by
  obtain ⟨⟨after, told⟩, gaveUp, rfl⟩ := Option.map_eq_some_iff.mp stepped
  obtain ⟨acked', more, receiver, acks⟩ := receiver_givenUp together.receiver gaveUp
  have inTime := together.inTime
  refine ⟨written, taken, acked', front, back, together.chunks, inTime.trans more, together.bounded,
    together.sender, receiver, ?_⟩
  dsimp only
  rw [← List.append_assoc, together.acks, acks, List.replicate_append_replicate]
  congr 1
  omega

theorem underWay_step {event : Event} (underWay : UnderWay data transfer)
    (stepped : transfer.step event = some next) : UnderWay data next := by
  obtain ⟨written, taken, acked, front, back, together⟩ := underWay
  cases event with
  | send => exact together_send together stepped
  | receive => exact (together_receive together stepped).1
  | receiverGivesUp => exact together_givenUp together stepped
  | answer resp =>
      obtain ⟨sender, answered, rfl⟩ := Option.map_eq_some_iff.mp stepped
      refine ⟨written, taken, acked, front, back, together.chunks, together.inTime, together.bounded,
        ?_, together.receiver, together.acks⟩
      have at_ := together.sender
      cases stage : transfer.sender with
      | awaitingOk other =>
          rw [stage] at answered at_
          obtain ⟨rfl, rfl, rfl⟩ := at_
          rw [Sending.answered, encodeFile_default] at answered
          split at answered
          · cases answered
            trivial
          · cases answered
            exact ⟨rfl, rfl⟩
      | _ =>
          rw [stage] at answered
          cases answered
  | carry =>
      rw [Transfer.step] at stepped
      split at stepped
      · cases stepped
      · rename_i byte outward way
        cases stepped
        refine ⟨written, taken, acked, front, back, together.chunks, together.inTime, together.bounded,
          together.sender, ?_, together.acks⟩
        have pending := together.receiver
        rw [way] at pending
        simpa [List.append_assoc] using pending
  | carryBack =>
      rw [Transfer.step] at stepped
      split at stepped
      · cases stepped
      · rename_i byte homeward way
        cases stepped
        refine ⟨written, taken, acked, front, back, together.chunks, together.inTime, together.bounded,
          together.sender, together.receiver, ?_⟩
        have acks := together.acks
        rw [way] at acks
        simpa [List.append_assoc] using acks
  | senderGivesUp =>
      obtain ⟨sender, gaveUp, rfl⟩ := Option.map_eq_some_iff.mp stepped
      refine ⟨written, taken, acked, front, back, together.chunks, together.inTime, together.bounded,
        ?_, together.receiver, together.acks⟩
      cases stage : transfer.sender with
      | awaitingOk other | awaitingAck left =>
          rw [stage] at gaveUp
          cases gaveUp
          trivial
      | _ =>
          rw [stage] at gaveUp
          cases gaveUp

theorem flatten_framesOf (data : Bytes) : (framesOf data).flatten = sent (chunksOf blockSize data) := by
  rw [framesOf, List.flatten_append, List.flatten_singleton, ← List.flatMap_def]
  rfl

theorem underWay_begin (filename : Text) (data : Bytes) :
    UnderWay data (Transfer.begin filename data) := by
  refine ⟨0, 0, 0, [], chunksOf blockSize data, rfl, Nat.le_refl _, Nat.zero_le _, ⟨rfl, rfl, rfl⟩,
    ⟨rfl, rfl, ?_⟩, rfl⟩
  rw [unwritten, List.drop_zero, flatten_framesOf]
  rfl

/-- Who has returned, has returned the file. -/
theorem UnderWay.returned {received : Bytes} (underWay : UnderWay data transfer)
    (returned : transfer.receiver = .returned (some received)) : received = data := by
  obtain ⟨written, taken, acked, front, back, together⟩ := underWay
  have at_ := together.receiver
  rw [returned] at at_
  obtain ⟨rfl, _, rfl⟩ := at_
  have whole := chunksOf_flatten (by decide : 0 < blockSize) data
  rw [← whole, ← together.chunks, List.append_nil]

/-- Every frame has been acknowledged only when `receive_file` has returned. -/
theorem UnderWay.confirmed (underWay : UnderWay data transfer)
    (ok : transfer.sender = .returned true) : transfer.receiver = .returned (some data) := by
  obtain ⟨written, taken, acked, front, back, together⟩ := id underWay
  have all := together.sender
  rw [ok] at all
  have count : (framesOf data).length = front.length + back.length + 1 := by
    rw [framesOf, List.length_append, List.length_map, ← together.chunks, List.length_append]
    rfl
  have taken_ : taken = (framesOf data).length := all
  have inTime := together.inTime
  have at_ := together.receiver
  cases stage : transfer.receiver with
  | returned received =>
      cases received with
      | none =>
          rw [stage] at at_
          have acknowledged : acked = front.length := at_
          omega
      | some received => rw [underWay.returned stage]
  | start buf | length buf | ending buf | body buf low high =>
      rw [stage] at at_
      have acknowledged := at_.2.1
      omega

end Steps

/-- A bound on what it takes to write frames and to take their acknowledgements. -/
def writingRank (left : List Bytes) : Nat := 2 * left.length + 1 + 4 * left.flatten.length

def Sending.rank : Sending → Nat
  | .announcing _ data => writingRank (framesOf data) + 2
  | .awaitingOk data => writingRank (framesOf data) + 1
  | .writing left => writingRank left
  | .awaitingAck left => writingRank left + 1
  | .returned _ | .failed => 0

def Receiving.rank : Receiving → Nat
  | .returned _ => 0
  | _ => 3

def Transfer.rank (transfer : Transfer) : Nat :=
  transfer.sender.rank + transfer.receiver.rank + 4 * transfer.outward.length +
    3 * transfer.inbox.length + 2 * transfer.homeward.length + transfer.replies.length

section Ranks

variable {transfer next : Transfer}

theorem rank_send {stage : Sending} {replies : Bytes} {move : Move Sending}
    (stepped : stage.step replies = some move) :
    move.stage.rank + 4 * move.written.length + move.left.length < stage.rank + replies.length := by
  cases stage with
  | announcing filename data =>
      rw [Sending.step] at stepped
      split at stepped
      all_goals
        cases stepped
        simp [Sending.rank]
  | writing left =>
      cases left with
      | nil =>
          cases stepped
          simp [Sending.rank, writingRank]
      | cons frame left =>
          cases stepped
          simp only [Sending.rank, writingRank, List.length_cons, List.flatten_cons, List.length_append]
          omega
  | awaitingAck left =>
      cases replies with
      | nil => cases stepped
      | cons ack replies =>
          cases stepped
          simp only [List.length_cons, List.length_nil]
          split <;> simp only [Sending.rank] <;> omega
  | awaitingOk data | returned ok | failed => cases stepped

theorem rank_receive {stage : Receiving} {inbox : Bytes} {move : Move Receiving}
    (stepped : stage.step inbox = some move) :
    move.stage.rank + 2 * move.written.length + 3 * move.left.length <
      stage.rank + 3 * inbox.length := by
  have bounded (stage : Receiving) : stage.rank ≤ 3 := by cases stage <;> simp [Receiving.rank]
  cases stage with
  | start buf =>
      cases inbox with
      | nil => cases stepped
      | cons first inbox =>
          cases stepped
          have bound := bounded (if first = can then .returned none else if first ≠ soh then .returned none
            else .length buf)
          simp only [Receiving.rank, List.length_nil, List.length_cons] at bound ⊢
          omega
  | length buf =>
      match inbox with
      | [] | [_] => cases stepped
      | low :: high :: inbox =>
          cases stepped
          have bound := bounded (if lengthOf low high = 0 then .ending buf else .body buf low high)
          simp only [Receiving.rank, List.length_nil, List.length_cons] at bound ⊢
          omega
  | ending buf =>
      cases inbox with
      | nil => cases stepped
      | cons first inbox =>
          cases stepped
          simp only [Receiving.rank, encodeAck, List.length_cons, List.length_nil]
          omega
  | body buf low high =>
      rw [Receiving.step] at stepped
      dsimp only at stepped
      split at stepped
      · cases stepped
      · rename_i enough
        have some_ : inbox.length ≠ 0 := by omega
        split at stepped
        all_goals
          cases stepped
          simp only [Receiving.rank, encodeAbort, encodeAck, List.length_cons, List.length_nil,
            List.length_drop]
          omega
  | returned received => cases stepped

theorem rank_step {event : Event} (stepped : transfer.step event = some next) :
    next.rank < transfer.rank := by
  cases event with
  | send =>
      obtain ⟨move, moved, rfl⟩ := Option.map_eq_some_iff.mp stepped
      have less := rank_send moved
      simp only [Transfer.rank, List.length_append]
      omega
  | receive =>
      obtain ⟨move, moved, rfl⟩ := Option.map_eq_some_iff.mp stepped
      have less := rank_receive moved
      simp only [Transfer.rank, List.length_append]
      omega
  | answer resp =>
      obtain ⟨sender, answered, rfl⟩ := Option.map_eq_some_iff.mp stepped
      have less : sender.rank < transfer.sender.rank := by
        cases stage : transfer.sender with
        | awaitingOk data =>
            rw [stage, Sending.answered, encodeFile_default] at answered
            split at answered <;> cases answered <;> simp [Sending.rank]
        | _ =>
            rw [stage] at answered
            cases answered
      simp only [Transfer.rank]
      omega
  | carry =>
      rw [Transfer.step] at stepped
      split at stepped
      · cases stepped
      · rename_i byte outward way
        cases stepped
        simp only [Transfer.rank, way, List.length_append, List.length_cons, List.length_nil]
        omega
  | carryBack =>
      rw [Transfer.step] at stepped
      split at stepped
      · cases stepped
      · rename_i byte homeward way
        cases stepped
        simp only [Transfer.rank, way, List.length_append, List.length_cons, List.length_nil]
        omega
  | senderGivesUp =>
      obtain ⟨sender, gaveUp, rfl⟩ := Option.map_eq_some_iff.mp stepped
      have less : sender.rank < transfer.sender.rank := by
        cases stage : transfer.sender with
        | awaitingOk | awaitingAck =>
            rw [stage] at gaveUp
            cases gaveUp
            simp [Sending.rank]
        | _ =>
            rw [stage] at gaveUp
            cases gaveUp
      simp only [Transfer.rank]
      omega
  | receiverGivesUp =>
      obtain ⟨⟨receiver, written⟩, gaveUp, rfl⟩ := Option.map_eq_some_iff.mp stepped
      have less : receiver.rank + 2 * written.length < transfer.receiver.rank := by
        cases stage : transfer.receiver with
        | returned received =>
            rw [stage] at gaveUp
            cases gaveUp
        | _ =>
            rw [stage] at gaveUp
            cases gaveUp
            simp [Receiving.rank, encodeAck]
      simp only [Transfer.rank, List.length_append]
      omega

end Ranks

/-- Whatever the timing, and wherever a side loses patience: no transfer goes on for ever, what
`receive_file` returns is the file, and `send_file` returns true only when it has. -/
theorem transfer_agrees {filename : Text} {data : Bytes} {events : List Event} {final : Transfer}
    (completed : run Transfer.step (Transfer.begin filename data) events = some final) :
    events.length ≤ (Transfer.begin filename data).rank ∧
      (final.sender = .returned true → final.receiver = .returned (some data)) ∧
      ∀ received, final.receiver = .returned (some received) → received = data := by
  have underWay : UnderWay data final :=
    run_preserves (fun _ _ _ => underWay_step) (underWay_begin filename data) completed
  have bounded := run_bounded Transfer.rank (fun _ _ _ => rank_step) completed
  exact ⟨by omega, underWay.confirmed, fun received => underWay.returned⟩

/-- A file of one byte, from an impatient sender: the file arrives all the same. -/
theorem transfer_agrees_impatient :
    ∃ final, run Transfer.step (Transfer.begin "A" [65])
        [.send, .answer "(OK)", .send, .carry, .carry, .carry, .carry, .carry, .receive, .receive,
          .receive, .carryBack, .send, .send, .senderGivesUp, .carry, .carry, .carry, .receive,
          .receive, .receiverGivesUp] = some final ∧
      final.sender = .returned false ∧ ∃ received, final.receiver = .returned (some received) ∧
        received = [65] := by
  have reached : (run Transfer.step (Transfer.begin "A" [65])
      [.send, .answer "(OK)", .send, .carry, .carry, .carry, .carry, .carry, .receive, .receive,
        .receive, .carryBack, .send, .send, .senderGivesUp, .carry, .carry, .carry, .receive,
        .receive, .receiverGivesUp]).map (fun final => (final.sender, final.receiver)) =
      some (.returned false, .returned (some [65])) := by decide +kernel
  obtain ⟨final, completed, ends⟩ := Option.map_eq_some_iff.mp reached
  obtain ⟨sender, receiver⟩ := Prod.mk.inj ends
  exact ⟨final, completed, sender, _, receiver, (transfer_agrees completed).2.2 _ receiver⟩

/-- The event is no time-out and no refusal. -/
def Patient : Event → Prop
  | .answer resp => Text.lower (Text.strip resp) = "(ok)"
  | .senderGivesUp | .receiverGivesUp => False
  | _ => True

instance Patient.decidable : (event : Event) → Decidable (Patient event)
  | .answer _ => inferInstanceAs (Decidable (_ = _))
  | .senderGivesUp | .receiverGivesUp => inferInstanceAs (Decidable False)
  | .send | .receive | .carry | .carryBack => inferInstanceAs (Decidable True)

/-- `send_file` has not failed and will not fail by itself. -/
def Sending.Sound : Sending → Prop
  | .announcing filename data => (announcement filename data).all (fun c => c.toNat < 128)
  | .returned false | .failed => False
  | _ => True

/-- Nothing has gone wrong so far. -/
structure Sound (data : Bytes) (transfer : Transfer) : Prop where
  underWay : UnderWay data transfer
  sender : transfer.sender.Sound
  receiver : transfer.receiver ≠ .returned none

section Patience

variable {data : Bytes} {transfer next : Transfer} {event : Event}

theorem sound_send (sound : Sound data transfer) (stepped : transfer.step .send = some next) :
    next.sender.Sound := by
  obtain ⟨move, moved, rfl⟩ := Option.map_eq_some_iff.mp stepped
  obtain ⟨written, taken, acked, front, back, together⟩ := sound.underWay
  have fine := sound.sender
  cases stage : transfer.sender with
  | announcing filename other =>
      rw [stage] at fine moved
      have ascii : (announcement filename other).all (fun c => c.toNat < 128) = true := fine
      rw [Sending.step, if_pos ascii] at moved
      cases moved
      trivial
  | writing left =>
      rw [stage] at moved
      cases left <;> cases moved <;> trivial
  | awaitingAck left =>
      rw [stage] at moved
      cases replies : transfer.replies with
      | nil => rw [replies] at moved; cases moved
      | cons ack rest =>
          have acks := together.acks
          rw [replies] at moved acks
          cases moved
          have same : ack = soh :=
            List.eq_of_mem_replicate (acks ▸ List.mem_append_left _ List.mem_cons_self)
          rw [same]
          trivial
  | awaitingOk other | returned ok | failed =>
      rw [stage] at moved
      cases moved

theorem sound_step (sound : Sound data transfer) (patient : Patient event)
    (stepped : transfer.step event = some next) : Sound data next := by
  have underWay := underWay_step sound.underWay stepped
  cases event with
  | send =>
      have sender := sound_send sound stepped
      obtain ⟨move, moved, rfl⟩ := Option.map_eq_some_iff.mp stepped
      exact ⟨underWay, sender, sound.receiver⟩
  | answer resp =>
      obtain ⟨sender, answered, rfl⟩ := Option.map_eq_some_iff.mp stepped
      refine ⟨underWay, ?_, sound.receiver⟩
      cases stage : transfer.sender with
      | awaitingOk other =>
          have ok : Text.lower (Text.strip resp) = ("(ok)" : Text) := patient
          rw [stage, Sending.answered, if_neg (not_not.mpr ok), encodeFile_default] at answered
          cases answered
          trivial
      | _ =>
          rw [stage] at answered
          cases answered
  | receive =>
      obtain ⟨written, taken, acked, front, back, together⟩ := sound.underWay
      have receiver := (together_receive together stepped).2
      obtain ⟨move, moved, rfl⟩ := Option.map_eq_some_iff.mp stepped
      exact ⟨underWay, sound.sender, receiver⟩
  | carry | carryBack =>
      rw [Transfer.step] at stepped
      split at stepped
      · cases stepped
      · cases stepped
        exact ⟨underWay, sound.sender, sound.receiver⟩
  | senderGivesUp | receiverGivesUp => exact patient.elim

/-- The frame that `receive_file` is at, and what is written behind it. -/
theorem current_frame (chunks : front ++ back = chunksOf blockSize data) :
    ∃ current, sent back = current ++ unwritten data (front.length + 1) ∧
      ((back = [] ∧ current = encodeEof) ∨ ∃ chunk later, back = chunk :: later ∧ current = frameOf chunk) := by
  have frames : framesOf data = front.map frameOf ++ (back.map frameOf ++ [encodeEof]) := by
    rw [framesOf, ← chunks, List.map_append, List.append_assoc]
  have behind : (framesOf data).drop (front.length + 1) = (back.map frameOf ++ [encodeEof]).drop 1 := by
    rw [frames, ← List.drop_drop, List.drop_left' (List.length_map _)]
  cases back with
  | nil =>
      refine ⟨encodeEof, ?_, .inl ⟨rfl, rfl⟩⟩
      rw [unwritten, behind]
      rfl
  | cons chunk later =>
      refine ⟨frameOf chunk, ?_, .inr ⟨chunk, later, rfl, rfl⟩⟩
      rw [unwritten, behind, sent_cons, List.map_cons, List.cons_append, List.drop_one, List.tail_cons,
        List.flatten_append, List.flatten_singleton, ← List.flatMap_def]
      rfl

theorem acked_of_open {stage : Receiving} {pending : Bytes}
    (at_ : ReceiverAt front back acked pending stage) (open_ : ∀ received, stage ≠ .returned received) :
    acked = front.length := by
  cases stage with
  | returned received => exact absurd rfl (open_ received)
  | start buf | length buf | ending buf | body buf low high => exact at_.2.1

/-- A frame that has arrived is read. -/
theorem receiver_enabled {stage : Receiving}
    (at_ : ReceiverAt front back acked (inbox ++ unwritten data (front.length + 1)) stage)
    (open_ : ∀ received, stage ≠ .returned received) (chunked : Chunked back)
    (chunks : front ++ back = chunksOf blockSize data) : stage.step inbox ≠ none := by
  obtain ⟨current, same, frame⟩ := current_frame chunks
  have long : 4 ≤ current.length := by
    rcases frame with ⟨_, rfl⟩ | ⟨chunk, later, _, rfl⟩
    · exact Nat.le_refl 4
    · rw [length_frame]
      exact Nat.le_add_left 4 _
  have arrived {read : Bytes} (pending : sent back = read ++ (inbox ++ unwritten data (front.length + 1))) :
      current = read ++ inbox := by
    rw [same, ← List.append_assoc] at pending
    exact List.append_cancel_right pending
  cases stage with
  | returned received => exact absurd rfl (open_ received)
  | start buf =>
      obtain rfl : current = inbox := @arrived [] at_.2.2
      cases current with
      | nil => cases long
      | cons first current => exact Option.some_ne_none _
  | length buf =>
      obtain rfl : current = [soh] ++ inbox := @arrived [soh] at_.2.2
      match inbox with
      | low :: high :: inbox => exact Option.some_ne_none _
      | [] | [_] => simp at long
  | ending buf =>
      obtain rfl : current = [soh, 0, 0] ++ inbox := @arrived [soh, 0, 0] at_.2.2.2
      cases inbox with
      | nil => simp at long
      | cons first inbox => exact Option.some_ne_none _
  | body buf low high =>
      have whole : current = [soh, low, high] ++ inbox := @arrived [soh, low, high] at_.2.2.2
      have size : inbox.length = lengthOf low high + 1 := by
        rcases frame with ⟨_, rfl⟩ | ⟨chunk, later, rfl, rfl⟩
        · cases whole
          exact absurd rfl at_.2.2.1
        · cases whole
          rw [lengthOf_ofNat (chunked chunk List.mem_cons_self).2]
          simp
      rw [Receiving.step]
      dsimp only
      rw [if_neg (by omega)]
      split <;> exact Option.some_ne_none _

/-- Where nobody can go on, `send_file` has returned. -/
theorem sound_rest (sound : Sound data transfer)
    (rest : ∀ event, Patient event → transfer.step event = none) :
    transfer.sender = .returned true := by
  obtain ⟨written, taken, acked, front, back, together⟩ := sound.underWay
  have arrived : transfer.outward = [] := by
    cases way : transfer.outward with
    | nil => rfl
    | cons byte outward => simpa [Transfer.step, way] using rest .carry trivial
  have told : transfer.homeward = [] := by
    cases way : transfer.homeward with
    | nil => rfl
    | cons byte homeward => simpa [Transfer.step, way] using rest .carryBack trivial
  have idle := Option.map_eq_none_iff.mp (rest .send trivial)
  have reading := Option.map_eq_none_iff.mp (rest .receive trivial)
  cases stage : transfer.sender with
  | announcing filename other =>
      rw [stage, Sending.step] at idle
      split at idle <;> cases idle
  | awaitingOk other =>
      have unanswered := Option.map_eq_none_iff.mp (rest (.answer "(ok)") (show Text.lower (Text.strip "(ok)") = ("(ok)" : Text) by decide))
      rw [stage, Sending.answered, encodeFile_default] at unanswered
      cases unanswered
  | writing left =>
      rw [stage] at idle
      cases left <;> cases idle
  | awaitingAck left =>
      rw [stage] at idle
      have unanswered : transfer.replies = [] := by
        cases replies : transfer.replies with
        | nil => rfl
        | cons ack replies_ => rw [replies] at idle; cases idle
      have acks := together.acks
      rw [unanswered, told, List.append_nil] at acks
      have inTime := together.inTime
      have even : acked - taken = 0 := by simpa using (congrArg List.length acks).symm
      have sender := together.sender
      rw [stage] at sender
      have ahead : taken + 1 = written := sender.2
      have at_ := together.receiver
      rw [arrived, List.append_nil] at at_
      by_cases open_ : ∀ received, transfer.receiver ≠ .returned received
      · have acknowledged := acked_of_open at_ open_
        have here : written = front.length + 1 := by omega
        rw [here] at at_
        exact absurd reading (receiver_enabled at_ open_ together.chunked together.chunks)
      · obtain ⟨received, finished⟩ := not_forall_not.mp open_
        rw [finished] at at_
        cases received with
        | none => exact absurd finished sound.receiver
        | some received =>
            -- the last frame has been acknowledged, and there is none behind it
            obtain ⟨_, acknowledged, last⟩ := at_
            have count : (framesOf data).length = front.length + 1 := by
              rw [framesOf, ← together.chunks, last, List.append_nil, List.length_append, List.length_map]
              rfl
            have bounded := together.bounded
            omega
  | returned ok =>
      cases ok with
      | true => rfl
      | false => exact absurd sound.sender (by rw [stage]; exact id)
  | failed => exact absurd sound.sender (by rw [stage]; exact id)

end Patience

theorem sound_begin {filename : Text} {data : Bytes}
    (ascii : ∀ c ∈ announcement filename data, c.toNat < 128) :
    Sound data (Transfer.begin filename data) where
  underWay := underWay_begin filename data
  sender := List.all_eq_true.mpr fun c listed => decide_eq_true (ascii c listed)
  receiver := Receiving.noConfusion

/-- As long as no side loses patience, a transfer that was accepted goes on until both sides have
returned, `send_file` with true and `receive_file` with the file, however slow the line is. -/
theorem transfer_completes {filename : Text} {data : Bytes} {events : List Event} {final : Transfer}
    (ascii : ∀ c ∈ announcement filename data, c.toNat < 128)
    (patient : ∀ event ∈ events, Patient event)
    (completed : run Transfer.step (Transfer.begin filename data) events = some final)
    (rest : ∀ event, Patient event → final.step event = none) :
    final.sender = .returned true ∧ final.receiver = .returned (some data) := by
  have sound : Sound data final := by
    have meets : EveryStep Transfer.step (fun _ event => Patient event) (Transfer.begin filename data)
      events := EveryStep.of_forall patient
    exact run_preserves_of_everyStep (fun _ _ _ => sound_step) (sound_begin ascii) meets completed
  have ok := sound_rest sound rest
  exact ⟨ok, sound.underWay.confirmed ok⟩

theorem transfer_completes_byte :
    ∃ final, run Transfer.step (Transfer.begin "A" [65])
        [.send, .answer "(OK)", .send, .carry, .carry, .carry, .carry, .carry, .receive, .receive,
          .receive, .carryBack, .send, .send, .carry, .carry, .carry, .carry, .receive, .receive,
          .receive, .carryBack, .send, .send] = some final ∧
      final.sender = .returned true ∧ final.receiver = .returned (some [65]) := by
  have completed : run Transfer.step (Transfer.begin "A" [65])
      [.send, .answer "(OK)", .send, .carry, .carry, .carry, .carry, .carry, .receive, .receive,
        .receive, .carryBack, .send, .send, .carry, .carry, .carry, .carry, .receive, .receive,
        .receive, .carryBack, .send, .send] =
      some ⟨.returned true, .returned (some [65]), [], [], [], []⟩ := by decide +kernel
  refine ⟨_, completed, transfer_completes (by decide) (by decide) completed fun event patient => ?_⟩
  cases event with
  | senderGivesUp | receiverGivesUp => exact patient.elim
  | _ => rfl

end PyBulletin.Transport.Yapp
