import PyBulletin.Forward.Proposal
import PyBulletin.Forward.Sid

set_option autoImplicit false

namespace PyBulletin.Forward

open PyBulletin.Foundation
open PyBulletin.Store

def maxMsgBytes : Nat := 256000

/-- The default limit of an asyncio stream. -/
def streamLimit : Nat := 65536

/-- `ForwardNeighborConfig`, without the protocol, which nothing reads. -/
structure Neighbor where
  call : Text
  address : Text := ""
  schedule : Text := "0 */2 * * *"
  categories : List Text := ["WW"]
  binMode : Bool := true
  enabled : Bool := true

/-- The message blocks.  `encode` takes `_use_b2f` and is `none` where it raises; `decode`
takes the data behind `F> ` (true) or `F+ ` and is `none` where no message comes out. -/
structure Codec where
  encode : Bool → Row → Option Bytes
  decode : Bool → Bytes → Option Message

/-- Where `_run` stands, with the local variables still needed. -/
inductive Stage where
  | greeting
  | awaitingSid
  | awaitingPrompt
  | prompting
  | selecting
  | proposing (outgoing left : List Row)
  | awaitingFs (outgoing : List Row)
  | collecting (accepted : List Row) (incoming : List Proposal)
  | responding (accepted : List Row) (incoming : List Proposal)
  | sending (accepted : List Row) (incoming : List Proposal)
  | receiving (incoming : List Proposal)
  | receivingData (binary : Bool) (size : Nat) (prop : Proposal) (left : List Proposal)
  | quitting
  | finished
  | aborted
  | failed

/-- One session.  `inbox` holds what has arrived and is not read yet, `outbox` what was
written and is not on its way yet; `sent` and `received` are the numbers of the messages
that `_sent` and `_received` count. -/
structure ForwardSession where
  nodeCall : Text
  neighbor : Neighbor
  caller : Bool
  useB2f : Bool := true
  sent : List Nat := []
  received : List Nat := []
  stage : Stage := .greeting
  inbox : Bytes := []
  outbox : Bytes := []

/-- What a read finds behind the data that has arrived: nothing yet, the end of the
stream, or its own timeout. -/
inductive Silence where
  | live | closed | late
deriving DecidableEq

inductive ReadLine where
  | waiting
  | line (text : Text) (rest : Bytes)
  | overrun (rest : Bytes)

/-- `_readline`; `overrun` is the `ValueError` of a line longer than the stream's limit. -/
def readLine (silence : Silence) (inbox : Bytes) : ReadLine :=
  let front := inbox.takeWhile (· ≠ 10)
  match inbox.drop front.length with
  | _ :: rest =>
      if streamLimit < front.length then .overrun rest
      else .line (Text.stripLineEnd (decodeAscii front)) rest
  | [] =>
      if streamLimit < inbox.length then .overrun []
      else
        match silence with
        | .live => .waiting
        | .closed => .line (Text.stripLineEnd (decodeAscii inbox)) []
        | .late => .line [] inbox

inductive ReadExactly where
  | waiting
  | data (data rest : Bytes)
  | failed (rest : Bytes)

def readExactly (silence : Silence) (size : Nat) (inbox : Bytes) : ReadExactly :=
  if size ≤ inbox.length then .data (inbox.take size) (inbox.drop size)
  else
    match silence with
    | .live => .waiting
    | .closed => .failed []
    | .late => .failed inbox

/-- The test on the categories of a neighbour. -/
def hasCategory (neighbor : Neighbor) (toCall : Text) : Bool :=
  neighbor.categories.any fun category =>
    Text.upper toCall = Text.upper category ∨
      (Text.upper category).isPrefixOf (Text.upper toCall)

/-- The body of the loop of `_select_outgoing`. -/
def selects (nodeCall : Text) (neighbor : Neighbor) (msg : Row) : Bool :=
  let path := Text.words (Text.upper msg.forwardPath)
  if Text.upper nodeCall ∈ path then false
  else if Text.upper neighbor.call ∈ path then false
  else if msg.msgType = msgPrivate then
    msg.atBbs ≠ [] ∧ Text.upper msg.atBbs = Text.upper neighbor.call
  else if msg.msgType = msgBulletin ∨ msg.msgType = msgNts then
    hasCategory neighbor msg.toCall
  else false

/-- `_select_outgoing`. -/
def selectOutgoing (nodeCall : Text) (neighbor : Neighbor) (store : BBSStore) : List Row :=
  (store.withStatus statusNew).filter (selects nodeCall neighbor)

/-- The messages whose response is `+`. -/
def acceptedOut (outgoing : List Row) (responses : List Char) : List Row :=
  outgoing.zipIdx.filterMap fun (msg, i) => if responses[i]? = some '+' then some msg else none

/-- The decision of `_respond_to_proposals` on one proposal. -/
def judge (store : BBSStore) (prop : Proposal) : Char :=
  if store.hasBid prop.bid then '=' else if (maxMsgBytes : Int) < prop.size then '-' else '+'

/-- The proposals with their `accepted` set. -/
def judged (store : BBSStore) (proposals : List Proposal) : List Proposal :=
  proposals.map fun prop => { prop with accepted := judge store prop = '+' }

def fsLine (store : BBSStore) (proposals : List Proposal) : Text :=
  ("FS " : Text) ++ proposals.map (judge store)

/-- The lines that end a list of proposals. -/
def isStop (line : Text) : Prop := Text.strip line ∈ [("FF" : Text), "FQ", ""]

instance (line : Text) : Decidable (isStop line) := inferInstanceAs (Decidable (_ ∈ _))

namespace ForwardSession

def writeLine (session : ForwardSession) (text : Text) : ForwardSession :=
  { session with outbox := session.outbox ++ encodeAscii (text ++ crlf) }

/-- `_use_b2f` after the SID line. -/
def negotiated (neighbor : Neighbor) (line : Text) : Bool :=
  match Sid.parse line with
  | some sid => sid.supportsB2f ∧ neighbor.binMode
  | none => false

/-- What `_run` does with the SID line. -/
def greeted (session : ForwardSession) (line : Text) : ForwardSession :=
  { session with
    useB2f := negotiated session.neighbor line
    stage := if session.caller then .awaitingPrompt else .prompting }

/-- What `_run` does with a line in front of the prompt. -/
def prompted (session : ForwardSession) (line : Text) : ForwardSession :=
  { session with
    stage :=
      if line = [] then .aborted
      else if Text.strip line = [ '>' ] then .selecting
      else .awaitingPrompt }

/-- One turn of the loop that collects the remote's proposals. -/
def collected (session : ForwardSession) (accepted : List Row) (incoming : List Proposal)
    (line : Text) : ForwardSession :=
  { session with
    stage :=
      if isStop line then .responding accepted incoming
      else
        match parseProposal line with
        | some prop => .collecting accepted (incoming ++ [prop])
        | none => .collecting accepted incoming }

/-- What `_receive_message` does with the header line of a block. -/
def headed (session : ForwardSession) (prop : Proposal) (left : List Proposal) (line : Text) :
    ForwardSession :=
  let binary := ("F> " : Text).isPrefixOf line
  { session with
    stage :=
      if binary ∨ ("F+ " : Text).isPrefixOf line then
        match Text.parseInt (Text.strip (line.drop 3)) with
        | some (.ofNat size) => .receivingData binary size prop left
        | _ => .receiving left
      else .receiving left }

/-- What a session keeps while it only reads. -/
structure Untouched (session next : ForwardSession) : Prop where
  nodeCall : next.nodeCall = session.nodeCall
  neighbor : next.neighbor = session.neighbor
  caller : next.caller = session.caller
  outbox : next.outbox = session.outbox
  sent : next.sent = session.sent
  received : next.received = session.received

theorem untouched_greeted (session : ForwardSession) (inbox : Bytes) (line : Text) :
    Untouched session ({ session with inbox }.greeted line) :=
  ⟨rfl, rfl, rfl, rfl, rfl, rfl⟩

theorem untouched_prompted (session : ForwardSession) (inbox : Bytes) (line : Text) :
    Untouched session ({ session with inbox }.prompted line) :=
  ⟨rfl, rfl, rfl, rfl, rfl, rfl⟩

theorem untouched_collected (session : ForwardSession) (inbox : Bytes) (accepted : List Row)
    (incoming : List Proposal) (line : Text) :
    Untouched session ({ session with inbox }.collected accepted incoming line) :=
  ⟨rfl, rfl, rfl, rfl, rfl, rfl⟩

/-- A header either announces a block or costs the message. -/
theorem headed_cases (session : ForwardSession) (prop : Proposal) (left : List Proposal)
    (line : Text) :
    session.headed prop left line = { session with stage := .receiving left } ∨
      (("F> " : Text).isPrefixOf line ∨ ("F+ " : Text).isPrefixOf line) ∧
        ∃ binary size, session.headed prop left line =
          { session with stage := .receivingData binary size prop left } := by
  rw [headed]
  split
  · rename_i announced
    split
    · exact .inr ⟨announced, _, _, rfl⟩
    · exact .inl rfl
  · exact .inl rfl

variable (codec : Codec) (now : DateTime)

/-- The rest of `_receive_message`, once the data of the block is there. -/
def stored (store : BBSStore) (session : ForwardSession) (binary : Bool) (data : Bytes)
    (prop : Proposal) (left : List Proposal) : BBSStore × ForwardSession :=
  let session := { session with stage := .receiving left }
  match codec.decode binary data with
  | none => (store, session)
  | some msg =>
      let msg := if msg.bid = [] then { msg with bid := prop.bid } else msg
      if store.hasBid msg.bid then (store, session)
      else
        match store.insertMessage msg statusNew with
        | (store, none) => (store, { session with stage := .failed })
        | (store, some id) =>
            (store.appendForwardPath id session.neighbor.call,
              { session with received := session.received ++ [id] })

/-- A block leaves the store as it is, or adds the one message that is then counted. -/
theorem stored_cases (store : BBSStore) (session : ForwardSession) (binary : Bool)
    (data : Bytes) (prop : Proposal) (left : List Proposal) :
    stored codec store session binary data prop left =
        (store, { session with stage := .receiving left }) ∨
      (stored codec store session binary data prop left).2.stage = .failed ∨
      ∃ msg id inserted, store.insertMessage msg statusNew = (inserted, some id) ∧
        stored codec store session binary data prop left =
          (inserted.appendForwardPath id session.neighbor.call,
            { session with
              stage := .receiving left
              received := session.received ++ [id] }) := by
  rw [stored]
  cases codec.decode binary data with
  | none => exact .inl rfl
  | some msg =>
      dsimp only
      generalize (if msg.bid = [] then { msg with bid := prop.bid } else msg) = msg
      split
      · exact .inl rfl
      · split
        · exact .inr (.inl rfl)
        · rename_i inserted id placed
          exact .inr (.inr ⟨msg, id, inserted, placed, rfl⟩)

/-- `_send_message`. -/
def transmitted (store : BBSStore) (session : ForwardSession) (msg : Row) :
    BBSStore × ForwardSession :=
  match codec.encode session.useB2f msg with
  | none => (store, session)
  | some block =>
      ((store.markForwarded msg.id).appendForwardPath msg.id session.nodeCall,
        { session with
          outbox := session.outbox ++ block
          sent := session.sent ++ [msg.id] })

/-- A `_readline` and what is done with its line; `broken` is where a `ValueError` leads. -/
def reading (silence : Silence) (store : BBSStore) (session : ForwardSession)
    (next : Text → ForwardSession → ForwardSession) (broken : Stage) :
    Option (BBSStore × ForwardSession) :=
  match readLine silence session.inbox with
  | .waiting => none
  | .line text rest => some (store, next text { session with inbox := rest })
  | .overrun rest => some (store, { session with inbox := rest, stage := broken })

/-- One action of `_run`: a line or a block written, or one read.  `none` is a read that
has to wait, or the end. -/
def step (silence : Silence) (store : BBSStore) (session : ForwardSession) :
    Option (BBSStore × ForwardSession) :=
  let reading := reading silence store session
  match session.stage with
  | .greeting =>
      some (store, { session.writeLine (Sid.generate session.nodeCall) with stage := .awaitingSid })
  | .awaitingSid => reading (fun line session => session.greeted line) .failed
  | .awaitingPrompt => reading (fun line session => session.prompted line) .failed
  | .prompting => some (store, { session.writeLine ">" with stage := .selecting })
  | .selecting =>
      let outgoing := selectOutgoing session.nodeCall session.neighbor store
      some (store, { session with stage := .proposing outgoing outgoing })
  | .proposing outgoing [] =>
      some (store, { session.writeLine "FF" with stage := .awaitingFs outgoing })
  | .proposing outgoing (msg :: left) =>
      some (store, { session.writeLine (formatProposal now msg session.useB2f) with
        stage := .proposing outgoing left })
  | .awaitingFs outgoing =>
      reading (fun line session =>
        { session with stage := .collecting (acceptedOut outgoing (parseFsResponse line)) [] })
        .failed
  | .collecting accepted incoming =>
      reading (fun line session => session.collected accepted incoming line) .failed
  | .responding accepted [] => some (store, { session with stage := .sending accepted [] })
  | .responding accepted incoming =>
      some (store, { session.writeLine (fsLine store incoming) with
        stage := .sending accepted (judged store incoming) })
  | .sending [] incoming =>
      some (store, { session with stage := .receiving (incoming.filter Proposal.accepted) })
  | .sending (msg :: accepted) incoming =>
      let (store, session) := transmitted codec store session msg
      some (store, { session with stage := .sending accepted incoming })
  | .receiving [] => some (store, { session with stage := .quitting })
  | .receiving (prop :: left) =>
      reading (fun line session => session.headed prop left line) (.receiving left)
  | .receivingData binary size prop left =>
      match readExactly silence size session.inbox with
      | .waiting => none
      | .data data rest =>
          some (stored codec store { session with inbox := rest } binary data prop left)
      | .failed rest => some (store, { session with inbox := rest, stage := .receiving left })
  | .quitting => some (store, { session.writeLine "FQ" with stage := .finished })
  | .finished | .aborted | .failed => none

/-! The steps that read a line. -/

section Reads

variable {codec now} {silence : Silence} {store : BBSStore} {session : ForwardSession}

theorem reads_awaitingSid (at_ : session.stage = .awaitingSid) :
    step codec now silence store session =
      reading silence store session (fun line session => session.greeted line) .failed := by
  cases session
  cases at_
  rfl

theorem reads_awaitingPrompt (at_ : session.stage = .awaitingPrompt) :
    step codec now silence store session =
      reading silence store session (fun line session => session.prompted line) .failed := by
  cases session
  cases at_
  rfl

theorem reads_awaitingFs {outgoing : List Row} (at_ : session.stage = .awaitingFs outgoing) :
    step codec now silence store session =
      reading silence store session (fun line session =>
        { session with stage := .collecting (acceptedOut outgoing (parseFsResponse line)) [] })
        .failed := by
  cases session
  cases at_
  rfl

theorem reads_collecting {accepted : List Row} {incoming : List Proposal}
    (at_ : session.stage = .collecting accepted incoming) :
    step codec now silence store session =
      reading silence store session (fun line session => session.collected accepted incoming line)
        .failed := by
  cases session
  cases at_
  rfl

theorem reads_receiving {prop : Proposal} {left : List Proposal}
    (at_ : session.stage = .receiving (prop :: left)) :
    step codec now silence store session =
      reading silence store session (fun line session => session.headed prop left line)
        (.receiving left) := by
  cases session
  cases at_
  rfl

end Reads

end ForwardSession

end PyBulletin.Forward
