import PyBulletin.Forward.Effect
import PyBulletin.Forward.BodySize
import PyBulletin.Foundation.Run
import PyBulletin.Vendor.LzhufDecompress

set_option autoImplicit false

namespace PyBulletin.Forward

open PyBulletin.Foundation
open PyBulletin.Store

/-! # The size limit of a session

A peer announces three sizes: in its proposal, in the header of the block, and in the first bytes
of compressed data.  Only the first is compared with the limit.
-/

variable (haveLzhuf : Bool) (fuel : Nat) (now : DateTime)

/-- The text in the data of a block, if decompression returns it within the fuel. -/
def plainText (binary : Bool) (data : Bytes) : Option Bytes :=
  if binary then
    match (decompressB2f haveLzhuf data).run fuel with
    | .returned raw => raw
    | .pending | .raised => none
  else some data

/-- The blocks as `encode_message_b2f`, `encode_message_b1` and their counterparts have them. -/
def blockCodec : Codec where
  encode binary msg :=
    if binary then
      match (encodeMessageB2f haveLzhuf now msg.toMessage).run fuel with
      | .returned block => some block
      | .pending | .raised => none
    else some (encodeMessageB1 msg.toMessage)
  decode binary data :=
    (plainText haveLzhuf fuel binary data).map
      (if binary then decodeB2fBlock now else decodeB1Block now)

variable {haveLzhuf fuel now} {binary : Bool} {data raw : Bytes}

theorem decode_blockCodec :
    (blockCodec haveLzhuf fuel now).decode binary data =
      (plainText haveLzhuf fuel binary data).map (decodeB2fBlock now) := by
  cases binary <;> rfl

/-- Decompression puts out no more than the data announce. -/
theorem decompressB2f_length (returned : (decompressB2f haveLzhuf data).Returns (some raw)) :
    ∃ size, Vendor.Lzhuf.unpackSize data = some size ∧ raw.length ≤ size := by
  rw [decompressB2f] at returned
  cases header : Vendor.Lzhuf.unpackSize data with
  | none =>
      rw [header, Fueled.returns_pure] at returned
      cases returned
  | some size =>
      rw [header] at returned
      refine ⟨size, rfl, ?_⟩
      cases haveLzhuf with
      | true =>
          have decoded := Fueled.returns_attempt.mp returned
          exact Vendor.Lzhuf.Decompressor.decode_length (Nat.zero_le size) raw decoded
      | false =>
          have same := Fueled.returns_pure.mp returned
          cases same
          exact List.length_take_le _ _

theorem plainText_length (read : plainText haveLzhuf fuel binary data = some raw) :
    binary = false ∧ raw = data ∨
      binary = true ∧ ∃ size, Vendor.Lzhuf.unpackSize data = some size ∧ raw.length ≤ size := by
  rw [plainText] at read
  cases binary with
  | false =>
      cases read
      exact .inl ⟨rfl, rfl⟩
  | true =>
      have returned : (decompressB2f haveLzhuf data).Returns (some raw) := by
        refine ⟨fuel, ?_⟩
        cases ran : (decompressB2f haveLzhuf data).run fuel with
        | pending | raised => simp [ran] at read
        | returned value =>
            simp only [ran, if_true] at read
            rw [read]
      exact .inr ⟨rfl, decompressB2f_length returned⟩

/-- The number of bytes that a header line announces. -/
def announced (line : Text) : Option Nat :=
  if ("F> " : Text).isPrefixOf line ∨ ("F+ " : Text).isPrefixOf line then
    match Text.parseInt (Text.strip (line.drop 3)) with
    | some (.ofNat size) => some size
    | _ => none
  else none

/-- The argument of the `readexactly` that is under way. -/
def Stage.asks : Stage → Option Nat
  | .receivingData _ size _ _ => some size
  | _ => none

/-- The size that the next step hands to `lzhuf_decompress`. -/
def unpacks (silence : Silence) (session : ForwardSession) : Option Nat :=
  match session.stage with
  | .receivingData true size _ _ =>
      match readExactly silence size session.inbox with
      | .data data _ => Vendor.Lzhuf.unpackSize data
      | .waiting | .failed _ => none
  | _ => none

/-- The rows that an insertion puts behind the others. -/
def addedRows (store next : BBSStore) : List Row := next.messages.drop store.messages.length

/-- A session on a store, and what it has asked for, unpacked and added so far. -/
structure Reception where
  store : BBSStore
  session : ForwardSession
  asked : List Nat := []
  unpacked : List Nat := []
  added : List Row := []

namespace Reception

/-- Other tasks may change the store between two steps of the session. -/
inductive Event where
  | arrive (data : Bytes)
  | elsewhere (store : BBSStore)
  | advance (now : DateTime) (silence : Silence)

variable (haveLzhuf : Bool) (fuel : Nat)

def step (reception : Reception) : Event → Option Reception
  | .arrive data =>
      let session := { reception.session with inbox := reception.session.inbox ++ data }
      some { reception with session }
  | .elsewhere store => some { reception with store }
  | .advance now silence =>
      (ForwardSession.step (blockCodec haveLzhuf fuel now) now silence reception.store
        reception.session).map fun (store, session) =>
          { store
            session
            asked := reception.asked ++ session.stage.asks.toList
            unpacked := reception.unpacked ++ (unpacks silence reception.session).toList
            added := reception.added ++ addedRows reception.store store }

/-- A session that begins. -/
def start (store : BBSStore) (nodeCall : Text) (neighbor : Neighbor) (caller : Bool) :
    Reception where
  store
  session := { nodeCall, neighbor, caller }

structure Bounded (reception : Reception) : Prop where
  asked : ∀ size ∈ reception.asked, size ≤ maxMsgBytes
  unpacked : ∀ size ∈ reception.unpacked, size ≤ maxMsgBytes
  added : ∀ row ∈ reception.added, row.size ≤ maxMsgBytes

/-- A text without bytes outside ASCII, or one whose body has room for their replacements. -/
def HasRoom (now : DateTime) (raw : Bytes) : Prop :=
  (∀ b ∈ raw, b < 128) ∨
    (decodeB2fBlock now raw).body.length + 2 * (decodeB2fBlock now raw).body.count replacement ≤
      maxMsgBytes

/-- The BID under which a message is stored. -/
def bidFor (prop : Proposal) (msg : Message) : Text := if msg.bid = [] then prop.bid else msg.bid

/-- The data of a block keep to the limit.  The text of a message that is stored already does not
matter. -/
structure FitsBlock (now : DateTime) (store : BBSStore) (prop : Proposal) (binary : Bool)
    (data : Bytes) : Prop where
  size : binary = true → ∀ size, Vendor.Lzhuf.unpackSize data = some size → size ≤ maxMsgBytes
  room : ∀ raw, plainText haveLzhuf fuel binary data = some raw →
    store.hasBid (bidFor prop (decodeB2fBlock now raw)) = false → HasRoom now raw

/-- The header line that is read next, or the block that is, keeps to the limit. -/
def Fits (reception : Reception) : Event → Prop
  | .advance now silence =>
      match reception.session.stage with
      | .receiving (_ :: _) =>
          ∀ text rest, readLine silence reception.session.inbox = .line text rest →
            ∀ size, announced text = some size → size ≤ maxMsgBytes
      | .receivingData binary size prop _ =>
          ∀ data rest, readExactly silence size reception.session.inbox = .data data rest →
            FitsBlock haveLzhuf fuel now reception.store prop binary data
      | _ => True
  | .arrive _ | .elsewhere _ => True

end Reception

namespace ForwardSession

variable {silence : Silence} {store next : BBSStore} {session after : ForwardSession}
  {prop : Proposal} {left : List Proposal} {codec : Codec}

theorem headed_asks (session : ForwardSession) (prop : Proposal) (left : List Proposal)
    (line : Text) : (session.headed prop left line).stage.asks = announced line := by
  simp only [headed, announced]
  split
  · match Text.parseInt (Text.strip (line.drop 3)) with
    | none | some (.ofNat _) | some (.negSucc _) => rfl
  · rfl

theorem addedRows_same (store : BBSStore) : addedRows store store = [] := List.drop_length

theorem addedRows_grown {row : Row} {inserted : BBSStore}
    (grown : inserted.messages = store.messages ++ [row]) (id : Nat) (call : Text) :
    ∃ added, addedRows store (inserted.appendForwardPath id call) = [added] ∧
      added.size = row.size := by
  refine ⟨if row.id = id then
    { row with forwardPath := BBSStore.extendedPath row.forwardPath call } else row, ?_, ?_⟩
  · rw [addedRows, BBSStore.appendForwardPath, BBSStore.update]
    dsimp only
    rw [grown, List.map_append, List.drop_left' (List.length_map _)]
    rfl
  · split <;> rfl

theorem addedRows_sent (msg : Row) (call : Text) :
    addedRows store ((store.markForwarded msg.id).appendForwardPath msg.id call) = [] := by
  refine List.drop_eq_nil_of_le (Nat.le_of_eq ?_)
  simp [BBSStore.appendForwardPath, BBSStore.markForwarded, BBSStore.updateMessageStatus,
    BBSStore.update]

/-- What a step has to do with the blocks that are received. -/
inductive Receives (codec : Codec) (silence : Silence) (store next : BBSStore)
    (session after : ForwardSession) : Prop where
  | header {prop : Proposal} {left : List Proposal} {text : Text} {rest : Bytes}
      (stage : session.stage = .receiving (prop :: left))
      (line : readLine silence session.inbox = .line text rest)
      (headed : after = { session with inbox := rest }.headed prop left text) (same : next = store)
  | block {binary : Bool} {size : Nat} {prop : Proposal} {left : List Proposal} {data rest : Bytes}
      (stage : session.stage = .receivingData binary size prop left)
      (found : readExactly silence size session.inbox = .data data rest)
      (wrote : stored codec store { session with inbox := rest } binary data prop left =
        (next, after))
  | other (asks : after.stage.asks = none) (added : addedRows store next = [])

theorem receives_read {reads : Text → ForwardSession → ForwardSession} {broken : Stage}
    {now : DateTime}
    (did : ForwardSession.step codec now silence store session =
      reading silence store session reads broken)
    (quiet : ∀ text session, (reads text session).stage.asks = none) (breaks : broken.asks = none)
    (stepped : ForwardSession.step codec now silence store session = some (next, after)) :
    Receives codec silence store next session after := by
  obtain ⟨rfl, ⟨rest, _, rfl⟩ | ⟨text, rest, _, rfl⟩⟩ := read_cases did stepped
  · exact .other breaks (addedRows_same next)
  · exact .other (quiet text _) (addedRows_same next)

theorem step_receives {now : DateTime}
    (stepped : ForwardSession.step codec now silence store session = some (next, after)) :
    Receives codec silence store next session after := by
  cases at_ : session.stage with
  | awaitingSid =>
      refine receives_read (reads_awaitingSid at_) (fun _ _ => ?_) rfl stepped
      simp only [greeted]
      split <;> rfl
  | awaitingPrompt =>
      refine receives_read (reads_awaitingPrompt at_) (fun _ _ => ?_) rfl stepped
      simp only [prompted]
      split
      · rfl
      · split <;> rfl
  | awaitingFs outgoing =>
      exact receives_read (reads_awaitingFs at_) (fun _ _ => rfl) rfl stepped
  | collecting accepted incoming =>
      refine receives_read (reads_collecting at_) (fun _ _ => ?_) rfl stepped
      simp only [collected]
      split
      · rfl
      · split <;> rfl
  | receiving left =>
      cases left with
      | nil =>
          simp only [ForwardSession.step, at_, Option.some.injEq, Prod.mk.injEq] at stepped
          obtain ⟨rfl, rfl⟩ := stepped
          exact .other rfl (addedRows_same _)
      | cons prop left =>
          obtain ⟨rfl, ⟨rest, _, rfl⟩ | ⟨text, rest, line, rfl⟩⟩ :=
            read_cases (reads_receiving at_) stepped
          · exact .other rfl (addedRows_same _)
          · exact .header at_ line rfl rfl
  | receivingData binary size prop left =>
      simp only [ForwardSession.step, at_] at stepped
      cases found : readExactly silence size session.inbox with
      | waiting => simp [found] at stepped
      | failed rest =>
          simp only [found, Option.some.injEq, Prod.mk.injEq] at stepped
          obtain ⟨rfl, rfl⟩ := stepped
          exact .other rfl (addedRows_same _)
      | data data rest =>
          simp only [found, Option.some.injEq] at stepped
          exact .block at_ found stepped
  | sending accepted incoming =>
      cases accepted with
      | nil =>
          simp only [ForwardSession.step, at_, Option.some.injEq, Prod.mk.injEq] at stepped
          obtain ⟨rfl, rfl⟩ := stepped
          exact .other rfl (addedRows_same _)
      | cons msg accepted =>
          simp only [ForwardSession.step, at_, Option.some.injEq, Prod.mk.injEq] at stepped
          obtain ⟨rfl, rfl⟩ := stepped
          refine .other rfl ?_
          rw [transmitted]
          split
          · exact addedRows_same _
          · exact addedRows_sent msg _
  | responding accepted incoming =>
      cases incoming <;>
        simp only [ForwardSession.step, at_, Option.some.injEq, Prod.mk.injEq] at stepped <;>
        obtain ⟨rfl, rfl⟩ := stepped <;> exact .other rfl (addedRows_same _)
  | proposing outgoing left =>
      cases left <;>
        simp only [ForwardSession.step, at_, Option.some.injEq, Prod.mk.injEq] at stepped <;>
        obtain ⟨rfl, rfl⟩ := stepped <;> exact .other rfl (addedRows_same _)
  | greeting | prompting | selecting | quitting =>
      simp only [ForwardSession.step, at_, Option.some.injEq, Prod.mk.injEq] at stepped
      obtain ⟨rfl, rfl⟩ := stepped
      exact .other rfl (addedRows_same _)
  | finished | aborted | failed => simp [ForwardSession.step, at_] at stepped

section Blocks

variable {binary : Bool} {data : Bytes} {msg : Message}

theorem stored_free (decoded : codec.decode binary data = some msg)
    (free : store.hasBid (Reception.bidFor prop msg) = false) :
    ∃ next after row, stored codec store session binary data prop left = (next, after) ∧
      after.stage.asks = none ∧ addedRows store next = [row] ∧
        row.size = BBSStore.utf8Length msg.body := by
  obtain ⟨filled, named⟩ : ∃ filled, filled =
      if msg.bid = [] then { msg with bid := prop.bid } else msg := ⟨_, rfl⟩
  have bid : filled.bid = Reception.bidFor prop msg := by
    rw [named, Reception.bidFor]
    split <;> rfl
  have body : filled.body = msg.body := by
    rw [named]
    split <;> rfl
  rw [← bid] at free
  obtain ⟨inserted, messages, _, placed⟩ := BBSStore.insertMessage_fresh statusNew free
  obtain ⟨row, added, size⟩ :=
    addedRows_grown messages (store.sequence + 1) session.neighbor.call
  let received := session.received ++ [store.sequence + 1]
  refine ⟨_, { session with stage := .receiving left, received }, row, ?_, rfl, added, ?_⟩
  · simp only [stored, decoded, ← named, if_neg (Bool.eq_false_iff.mp free), placed, received]
  · rw [size, ← body]
    rfl

theorem stored_taken (decoded : codec.decode binary data = some msg)
    (taken : store.hasBid (Reception.bidFor prop msg) = true) :
    stored codec store session binary data prop left =
      (store, { session with stage := .receiving left }) := by
  have bid : (if msg.bid = [] then { msg with bid := prop.bid } else msg : Message).bid =
      Reception.bidFor prop msg := by
    rw [Reception.bidFor]
    split <;> rfl
  rw [← bid] at taken
  simp only [stored, decoded, if_pos taken]

theorem step_headed {now : DateTime} {text : Text} {rest : Bytes}
    (stage : session.stage = .receiving (prop :: left))
    (line : readLine silence session.inbox = .line text rest) :
    ForwardSession.step codec now silence store session =
      some (store, { session with inbox := rest }.headed prop left text) := by
  rw [reads_receiving stage, reading, line]

theorem step_stored {now : DateTime} {size : Nat} {rest : Bytes}
    (stage : session.stage = .receivingData binary size prop left)
    (found : readExactly silence size session.inbox = .data data rest) :
    ForwardSession.step codec now silence store session =
      some (stored codec store { session with inbox := rest } binary data prop left) := by
  simp only [ForwardSession.step, stage, found]

/-- A block adds nothing, or its message under a BID that is free. -/
theorem stored_adds (wrote : stored codec store session binary data prop left = (next, after)) :
    after.stage.asks = none ∧
      ∀ row ∈ addedRows store next, ∃ msg, codec.decode binary data = some msg ∧
        store.hasBid (Reception.bidFor prop msg) = false ∧
          row.size = BBSStore.utf8Length msg.body := by
  have unchanged (same : (store, { session with stage := .receiving left }) = (next, after)) :
      after.stage.asks = none ∧ addedRows store next = [] := by
    cases same
    exact ⟨rfl, addedRows_same store⟩
  cases decoded : codec.decode binary data with
  | none =>
      simp only [stored, decoded] at wrote
      obtain ⟨asks, added⟩ := unchanged wrote
      exact ⟨asks, by simp [added]⟩
  | some msg =>
      cases taken : store.hasBid (Reception.bidFor prop msg) with
      | true =>
          obtain ⟨asks, added⟩ := unchanged ((stored_taken decoded taken).symm.trans wrote)
          exact ⟨asks, by simp [added]⟩
      | false =>
          obtain ⟨_, _, only, did, asks, added, size⟩ := stored_free decoded taken
          rw [wrote] at did
          cases did
          refine ⟨asks, fun row listed => ⟨msg, rfl, taken, ?_⟩⟩
          rw [added, List.mem_singleton] at listed
          rw [listed, size]

end Blocks

end ForwardSession

namespace Reception

variable {haveLzhuf : Bool} {fuel : Nat} {reception later : Reception} {event : Event}
  {silence : Silence} {now : DateTime}

/-- The limit also holds for what is asked for at the moment. -/
structure Limited (reception : Reception) : Prop extends Bounded reception where
  asks : ∀ size, reception.session.stage.asks = some size → size ≤ maxMsgBytes

theorem HasRoom.size {raw : Bytes} (room : HasRoom now raw) (short : raw.length ≤ maxMsgBytes) :
    BBSStore.utf8Length (decodeB2fBlock now raw).body ≤ maxMsgBytes := by
  rcases room with small | room
  · exact Nat.le_trans (body_size_ascii now small) short
  · rw [body_size]
    exact room

theorem step_advance (stepped : step haveLzhuf fuel reception (.advance now silence) = some later) :
    ∃ store session,
      ForwardSession.step (blockCodec haveLzhuf fuel now) now silence reception.store
        reception.session = some (store, session) ∧
      later =
        { store
          session
          asked := reception.asked ++ session.stage.asks.toList
          unpacked := reception.unpacked ++ (unpacks silence reception.session).toList
          added := reception.added ++ addedRows reception.store store } := by
  obtain ⟨⟨store, session⟩, moved, rfl⟩ := Option.map_eq_some_iff.mp stepped
  exact ⟨store, session, moved, rfl⟩

theorem unpacks_eq_some {session : ForwardSession} {size : Nat}
    (unpacked : unpacks silence session = some size) :
    ∃ asked prop left data rest, session.stage = .receivingData true asked prop left ∧
      readExactly silence asked session.inbox = .data data rest ∧
        Vendor.Lzhuf.unpackSize data = some size := by
  rw [unpacks] at unpacked
  split at unpacked
  · rename_i asked prop left stage
    cases found : readExactly silence asked session.inbox with
    | waiting | failed rest => simp [found] at unpacked
    | data data rest =>
        rw [found] at unpacked
        exact ⟨asked, prop, left, data, rest, stage, found, unpacked⟩
  · cases unpacked

theorem readExactly_data {size : Nat} {inbox data rest : Bytes}
    (found : readExactly silence size inbox = .data data rest) : data.length = size := by
  unfold readExactly at found
  split at found
  · cases found
    rw [List.length_take, Nat.min_eq_left ‹size ≤ inbox.length›]
  · cases silence <;> cases found

theorem Limited.advance (limited : reception.Limited)
    (fits : Fits haveLzhuf fuel reception (.advance now silence))
    (stepped : step haveLzhuf fuel reception (.advance now silence) = some later) :
    later.Limited := by
  obtain ⟨store, session, moved, rfl⟩ := step_advance stepped
  have unpacked : ∀ size, unpacks silence reception.session = some size → size ≤ maxMsgBytes := by
    intro size unpacked
    obtain ⟨asked, prop, left, data, rest, stage, found, header⟩ := unpacks_eq_some unpacked
    simp only [Fits, stage] at fits
    exact (fits data rest found).size rfl size header
  have asks : ∀ size, session.stage.asks = some size → size ≤ maxMsgBytes := by
    intro size asks
    cases ForwardSession.step_receives moved with
    | header stage line headed same =>
        rw [headed, ForwardSession.headed_asks] at asks
        simp only [Fits, stage] at fits
        exact fits _ _ line size asks
    | block stage found wrote =>
        rw [(ForwardSession.stored_adds wrote).1] at asks
        cases asks
    | other quiet added =>
        rw [quiet] at asks
        cases asks
  have added : ∀ row ∈ addedRows reception.store store, row.size ≤ maxMsgBytes := by
    intro row listed
    cases ForwardSession.step_receives moved with
    | header stage line headed same =>
        rw [same, ForwardSession.addedRows_same] at listed
        cases listed
    | other quiet added =>
        rw [added] at listed
        cases listed
    | @block binary asked prop left data rest stage found wrote =>
        obtain ⟨msg, decoded, free, size⟩ := (ForwardSession.stored_adds wrote).2 row listed
        rw [decode_blockCodec] at decoded
        obtain ⟨raw, plain, rfl⟩ := Option.map_eq_some_iff.mp decoded
        simp only [Fits, stage] at fits
        have fit := fits data rest found
        have short : raw.length ≤ maxMsgBytes := by
          rcases plainText_length plain with ⟨rfl, rfl⟩ | ⟨rfl, size, header, short⟩
          · rw [readExactly_data found]
            exact limited.asks asked (by rw [stage]; rfl)
          · exact Nat.le_trans short (fit.size rfl size header)
        rw [size]
        exact (fit.room raw plain free).size short
  refine { asked := ?_, unpacked := ?_, added := ?_, asks }
  · intro size listed
    rcases List.mem_append.mp listed with before | now
    · exact limited.asked size before
    · exact asks size (Option.mem_toList.mp now)
  · intro size listed
    rcases List.mem_append.mp listed with before | now
    · exact limited.unpacked size before
    · exact unpacked size (Option.mem_toList.mp now)
  · intro row listed
    rcases List.mem_append.mp listed with before | now
    · exact limited.added row before
    · exact added row now

theorem Limited.step (limited : reception.Limited) (fits : Fits haveLzhuf fuel reception event)
    (stepped : step haveLzhuf fuel reception event = some later) : later.Limited := by
  cases event with
  | arrive data =>
      cases stepped
      exact ⟨⟨limited.asked, limited.unpacked, limited.added⟩, limited.asks⟩
  | elsewhere store =>
      cases stepped
      exact ⟨⟨limited.asked, limited.unpacked, limited.added⟩, limited.asks⟩
  | advance now silence => exact limited.advance fits stepped

/-- Only what keeps to the limit keeps the session within it. -/
theorem fits_of_bounded
    (bounded : ∀ later, step haveLzhuf fuel reception event = some later → later.Bounded) :
    Fits haveLzhuf fuel reception event := by
  cases event with
  | arrive | elsewhere => trivial
  | advance now silence =>
      have moves {store : BBSStore} {session : ForwardSession}
          (moved : ForwardSession.step (blockCodec haveLzhuf fuel now) now silence reception.store
            reception.session = some (store, session)) :
          Bounded
            { store
              session
              asked := reception.asked ++ session.stage.asks.toList
              unpacked := reception.unpacked ++ (unpacks silence reception.session).toList
              added := reception.added ++ addedRows reception.store store } := by
        refine bounded _ ?_
        simp only [step, moved, Option.map_some]
      cases stage : reception.session.stage with
      | receiving left =>
          cases left with
          | nil => simp only [Fits, stage]
          | cons prop left =>
              simp only [Fits, stage]
              intro text rest line size announces
              have next := moves (ForwardSession.step_headed stage line)
              refine next.asked size (List.mem_append_right _ ?_)
              rw [ForwardSession.headed_asks, announces]
              exact List.mem_singleton_self size
      | receivingData binary asked prop left =>
          simp only [Fits, stage]
          intro data rest found
          have moved := @ForwardSession.step_stored silence reception.store reception.session prop
            left (blockCodec haveLzhuf fuel now) binary data now asked rest stage found
          constructor
          · rintro rfl size header
            refine (moves moved).unpacked size (List.mem_append_right _ ?_)
            simp [unpacks, stage, found, header]
          · intro raw plain free
            have decoded : (blockCodec haveLzhuf fuel now).decode binary data =
                some (decodeB2fBlock now raw) := by
              rw [decode_blockCodec, plain, Option.map_some]
            obtain ⟨store, after, row, did, _, added, size⟩ :=
              @ForwardSession.stored_free reception.store { reception.session with inbox := rest }
                prop left _ binary data _ decoded free
            rw [did] at moved
            have small := (moves moved).added row (List.mem_append_right _ (by simp [added]))
            rw [size, body_size] at small
            exact .inr small
      | _ => simp only [Fits, stage]

/-- A session keeps to the limit exactly as long as its peer does. -/
theorem bounded_iff (haveLzhuf : Bool) (fuel : Nat) (store : BBSStore) (nodeCall : Text)
    (neighbor : Neighbor) (caller : Bool) (events : List Event) :
    Throughout (step haveLzhuf fuel) Bounded (start store nodeCall neighbor caller) events ↔
      EveryStep (step haveLzhuf fuel) (Fits haveLzhuf fuel) (start store nodeCall neighbor caller)
        events := by
  have initial : (start store nodeCall neighbor caller).Limited :=
    ⟨⟨by simp [start], by simp [start], by simp [start]⟩, by simp [start, Stage.asks]⟩
  refine throughout_iff_everyStep (fun _ _ _ limited fits stepped => limited.step fits stepped)
    (fun _ limited => limited.toBounded) (fun reception event _ against => ?_) initial events
  by_contra none_
  refine against (fits_of_bounded fun later stepped => ?_)
  by_contra unbounded
  exact none_ ⟨later, stepped, unbounded⟩

private def farNode : Neighbor := { call := "N0FAR" }

private def farStart : Reception := start .empty "W3BBS" farNode false

/-- A peer proposes a message of five bytes and sends `block` for it. -/
private def proposedSmall (block : Text) (turns : Nat) : List Event :=
  .arrive (encodeAscii ("[N0FAR-X1-B$]\r\nFS \r\nFB WW N0FAR 1_N0FAR 5\r\nFF\r\n" ++ block)) ::
    List.replicate turns (.advance ⟨2024, 2, 29, 12, 0, 0⟩ .live)

/-- The header of a block announces 300000 bytes, or its first bytes a text of more than a
gigabyte. -/
theorem proposedSmall_unbounded :
    ¬ Throughout (step true 0) Bounded farStart (proposedSmall "F+ 300000\r\n" 11) ∧
      ¬ Throughout (step true 0) Bounded farStart (proposedSmall "F> 4\r\nABCD" 12) := by
  constructor
  · intro throughout
    have asked : (run (step true 0) farStart (proposedSmall "F+ 300000\r\n" 11)).map
        Reception.asked = some [300000] := by decide +kernel
    obtain ⟨reached, completed, sizes⟩ := Option.map_eq_some_iff.mp asked
    have bounded := throughout _ reached List.prefix_rfl completed
    exact absurd (bounded.asked 300000 (by simp [sizes])) (by decide)
  · intro throughout
    have unpacked : (run (step true 0) farStart (proposedSmall "F> 4\r\nABCD" 12)).map
        Reception.unpacked = some [0x44434241] := by decide +kernel
    obtain ⟨reached, completed, sizes⟩ := Option.map_eq_some_iff.mp unpacked
    have bounded := throughout _ reached List.prefix_rfl completed
    exact absurd (bounded.unpacked 0x44434241 (by simp [sizes])) (by decide)

end Reception

end PyBulletin.Forward
