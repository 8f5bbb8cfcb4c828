import PyBulletin.Forward.Effect
import PyBulletin.Foundation.Run

set_option autoImplicit false

namespace PyBulletin.Forward

open PyBulletin.Foundation
open PyBulletin.Store

/-- What one node brings to a session. -/
structure Side where
  codec : Codec
  now : DateTime
  nodeCall : Text
  neighbor : Neighbor
  caller : Bool
  store : BBSStore
  oneLine : '\n' ∉ nodeCall

/-- One node in the course of a session. -/
structure Party where
  side : Side
  store : BBSStore
  session : ForwardSession

namespace Party

def start (side : Side) : Party where
  side
  store := side.store
  session := { nodeCall := side.nodeCall, neighbor := side.neighbor, caller := side.caller }

/-- `_run` has returned or raised, and the writer is closed. -/
def returned (party : Party) : Bool :=
  match party.session.stage with
  | .finished | .aborted | .failed => true
  | _ => false

def step (party : Party) (silence : Silence) : Option Party :=
  (ForwardSession.step party.side.codec party.side.now silence party.store party.session).map
    fun (store, session) => { party with store, session }

/-- `_run` stands in a read. -/
def reading (party : Party) : Bool :=
  match party.session.stage with
  | .awaitingSid | .awaitingPrompt | .awaitingFs _ | .collecting _ _ | .receiving (_ :: _)
  | .receivingData .. => true
  | _ => false

end Party

structure Joint where
  a : Party
  b : Party

namespace Joint

def swap (joint : Joint) : Joint := ⟨joint.b, joint.a⟩

/-- One step of A; what it wrote arrives at B. -/
def advanceA (joint : Joint) : Option Joint :=
  (joint.a.step (if joint.b.returned then .closed else .live)).map fun next =>
    { a := { next with session := { next.session with outbox := [] } }
      b := { joint.b with session := { joint.b.session with
        inbox := joint.b.session.inbox ++ next.session.outbox } } }

inductive Turn where
  | a | b

def step (joint : Joint) : Turn → Option Joint
  | .a => joint.advanceA
  | .b => joint.swap.advanceA.map swap

def start (first second : Side) : Joint := ⟨.start first, .start second⟩

/-- Both sides wait in a read and nothing is under way. -/
def Deadlocked (joint : Joint) : Prop :=
  joint.a.reading ∧ joint.b.reading ∧ joint.a.session.inbox = [] ∧ joint.b.session.inbox = []

end Joint

namespace Side

variable (x y : Side)

def outgoing : List Row := selectOutgoing x.nodeCall x.neighbor x.store

def hello : Bytes := lineBytes (Sid.generate x.nodeCall)

def prompt : Bytes := if x.caller then [] else lineBytes ">"

/-- `_use_b2f` after the SID of `y`. -/
def b2f : Bool := ForwardSession.negotiated x.neighbor (heardText (Sid.generate y.nodeCall))

/-- The proposals of `x` to `y`, and `FF`. -/
def offer : Bytes := offerBytes x.now (x.b2f y) x.outgoing ++ lineBytes "FF"

/-- The proposals of `y`, as `x` hears them. -/
def offered : List Proposal :=
  match hear (y.offer x) with
  | .heard incoming _ => incoming
  | _ => []

/-- What `x` leaves of them. -/
def unread : Bytes :=
  match hear (y.offer x) with
  | .heard _ rest => rest
  | _ => []

/-- The response of `x` to `y`. -/
def response : Bytes :=
  match x.offered y with
  | [] => []
  | incoming => lineBytes (fsLine x.store incoming)

/-- The messages `x` goes on to wait for. -/
def wanted : List Proposal := (judged x.store (x.offered y)).filter Proposal.accepted

/-- What is still to be written up to `FF`. -/
def pending : Stage → Bytes
  | .greeting => x.hello ++ x.prompt ++ x.offer y
  | .awaitingSid => x.prompt ++ x.offer y
  | .awaitingPrompt | .selecting => x.offer y
  | .prompting => lineBytes ">" ++ x.offer y
  | .proposing _ left => offerBytes x.now (x.b2f y) left ++ lineBytes "FF"
  | _ => []

/-- What has been written behind `FF`. -/
def trailer : Stage → Bytes
  | .sending .. | .receiving .. | .receivingData .. | .quitting => x.response y
  | .finished => x.response y ++ lineBytes "FQ"
  | _ => []

/-- Where `x` stands in the stream from `y`; `tail` is what `y` has written behind `FF`. -/
def Follows (stage : Stage) (stream tail : Bytes) : Prop :=
  match stage with
  | .greeting | .awaitingSid => stream = y.hello ++ y.prompt ++ y.offer x ++ tail
  | .awaitingPrompt => x.caller = true ∧ stream = y.prompt ++ y.offer x ++ tail
  | .prompting => x.caller = false ∧ stream = y.offer x ++ tail
  | .selecting | .proposing .. | .awaitingFs _ => stream = y.offer x ++ tail
  | .collecting accepted incoming =>
      accepted = [] ∧ ∀ more, hear (y.offer x ++ tail ++ more) = listen incoming (stream ++ more)
  | .responding accepted incoming =>
      accepted = [] ∧ incoming = x.offered y ∧ (y.outgoing ≠ [] → stream = x.unread y ++ tail)
  | .sending accepted incoming =>
      accepted = [] ∧ incoming = judged x.store (x.offered y) ∧
        (y.outgoing ≠ [] → stream = x.unread y ++ tail)
  | .receiving left =>
      (left = x.wanted y ∧ (y.outgoing ≠ [] → stream = x.unread y ++ tail) ∨
        left.length < (x.wanted y).length) ∧
      (left ≠ [] → x.unread y = [] → stream <:+ tail)
  | .receivingData _ _ _ left => left.length < (x.wanted y).length ∧ x.unread y ≠ []
  | .quitting | .finished => True
  | .aborted | .failed => False

/-- A longer stream does not change what has been read of it. -/
theorem Follows.extend {x y : Side} {stage : Stage} {stream tail : Bytes}
    (follows : x.Follows y stage stream tail) (more : Bytes) :
    x.Follows y stage (stream ++ more) (tail ++ more) := by
  cases stage with
  | greeting | awaitingSid | selecting | proposing | awaitingFs =>
      simp only [Follows] at follows ⊢
      rw [follows, List.append_assoc]
  | awaitingPrompt | prompting =>
      simp only [Follows] at follows ⊢
      exact ⟨follows.1, by rw [follows.2, List.append_assoc]⟩
  | collecting accepted incoming =>
      refine ⟨follows.1, fun others => ?_⟩
      have same := follows.2 (more ++ others)
      simpa only [List.append_assoc] using same
  | responding accepted incoming =>
      exact ⟨follows.1, follows.2.1, fun some_ => by rw [follows.2.2 some_, List.append_assoc]⟩
  | sending accepted incoming =>
      exact ⟨follows.1, follows.2.1, fun some_ => by rw [follows.2.2 some_, List.append_assoc]⟩
  | receiving left =>
      obtain ⟨place, behind⟩ := follows
      constructor
      · rcases place with ⟨all, same⟩ | fewer
        · exact .inl ⟨all, fun some_ => by rw [same some_, List.append_assoc]⟩
        · exact .inr fewer
      · intro open_ nothing
        obtain ⟨front, same⟩ := behind open_ nothing
        exact ⟨front, by rw [← same, List.append_assoc]⟩
  | receivingData binary size prop left => exact follows
  | quitting | finished => trivial
  | aborted | failed => exact follows.elim

variable {x y : Side} {stage : Stage}

theorem not_mem_judge {c : Char} (other : c ∉ ['=', '-', '+']) (store : BBSStore)
    (incoming : List Proposal) : c ∉ incoming.map (judge store) := by
  intro listed
  obtain ⟨prop, _, rfl⟩ := List.mem_map.mp listed
  rw [judge] at other
  split at other
  · simp at other
  · split at other <;> simp at other

theorem response_shape (x y : Side) :
    x.response y = [] ∨
      ∃ back, 10 ∉ back ∧ 70 ∉ back ∧ x.response y = 70 :: 83 :: back ++ [10] := by
  rw [response]
  generalize x.offered y = incoming
  cases incoming with
  | nil => exact .inl rfl
  | cons prop others =>
      right
      dsimp only
      generalize prop :: others = incoming
      have line : 10 ∉ encodeAscii (incoming.map (judge x.store)) :=
        newline_not_mem_encodeAscii (not_mem_judge (by decide) x.store incoming)
      have letter : 70 ∉ encodeAscii (incoming.map (judge x.store)) :=
        @not_mem_encodeAscii 'F' (by decide) (by decide) _
          (not_mem_judge (by decide) x.store incoming)
      refine ⟨32 :: encodeAscii (incoming.map (judge x.store)) ++ [13], ?_, ?_, ?_⟩
      · simp [line]
      · simp [letter]
      · rw [lineBytes_eq, fsLine, encodeAscii_append]
        simp only [List.append_assoc, List.cons_append, List.nil_append]
        rfl

theorem trailer_cases (x y : Side) (stage : Stage) :
    x.trailer y stage = [] ∨ x.trailer y stage = x.response y ∨
      stage = .finished ∧ x.trailer y stage = x.response y ++ lineBytes "FQ" := by
  cases stage with
  | sending | receiving | receivingData | quitting => exact .inr (.inl rfl)
  | finished => exact .inr (.inr ⟨rfl, rfl⟩)
  | greeting | awaitingSid | awaitingPrompt | prompting | selecting | proposing | awaitingFs
  | collecting | responding | aborted | failed => exact .inl rfl

theorem readLine_fq (more : Bytes) :
    readLine .live (lineBytes "FQ" ++ more) = .line "FQ" more :=
  readLine_live_eq_line.mpr ⟨[70, 81, 13], by decide, rfl, by decide, by decide⟩

theorem listen_fq (incoming : List Proposal) :
    listen incoming (lineBytes "FQ") = .heard incoming [] := by
  have line := readLine_fq []
  rw [List.append_nil] at line
  rw [listen_line line, if_pos (by decide)]

/-- Behind a response the list goes on. -/
theorem listen_response (incoming : List Proposal) (more : Bytes) :
    listen incoming (x.response y ++ more) = listen incoming more ∨
      listen incoming (x.response y ++ more) = .failed := by
  rcases response_shape x y with none_ | ⟨back, line, _, shape⟩
  · rw [none_]
    exact .inl rfl
  · rw [shape, List.append_assoc]
    exact listen_fs back more line

/-- The list that is heard does not depend on what follows it. -/
theorem hear_trailer {incoming : List Proposal} {rest : Bytes}
    (heard : hear (y.offer x ++ y.trailer x stage) = .heard incoming rest) :
    incoming = x.offered y ∧ (y.outgoing ≠ [] → rest = x.unread y ++ y.trailer x stage) := by
  by_cases none_ : y.outgoing = []
  · refine ⟨?_, fun some_ => absurd none_ some_⟩
    have bare : y.offer x = lineBytes "FF" := by simp [offer, none_, offerBytes]
    have nothing : x.offered y = [] := by
      have open_ := hear_no_offers []
      rw [List.append_nil, listen_nil] at open_
      rw [offered, bare, open_]
    rw [nothing]
    rw [bare, hear_no_offers] at heard
    rcases trailer_cases y x stage with empty | answered | ⟨_, ended⟩
    · rw [empty, listen_nil] at heard
      cases heard
    · rw [answered] at heard
      have read := @listen_response y x [] []
      rw [List.append_nil, heard, listen_nil] at read
      rcases read with same | same <;> cases same
    · rw [ended] at heard
      have read := @listen_response y x [] (lineBytes "FQ")
      rw [heard, listen_fq] at read
      rcases read with same | same
      · cases same
        rfl
      · cases same
  · cases whole : hear (y.offer x) with
    | more => exact absurd whole (hear_offers_ne_more none_)
    | failed =>
        rw [hear_failed_append whole] at heard
        cases heard
    | heard all left =>
        rw [hear_append whole] at heard
        cases heard
        exact ⟨by rw [offered, whole], fun _ => by rw [unread, whole]⟩

/-- What is waited for has been offered. -/
theorem outgoing_ne_nil (open_ : x.wanted y ≠ []) : y.outgoing ≠ [] := by
  intro none_
  have bare : y.offer x = lineBytes "FF" := by simp [offer, none_, offerBytes]
  have heard := hear_no_offers []
  rw [List.append_nil, listen_nil] at heard
  have nothing : x.offered y = [] := by rw [offered, bare, heard]
  exact open_ (by rw [wanted, nothing]; rfl)

/-- Once the other side has finished, its list has come to its end. -/
theorem hear_finished (x y : Side) : hear (y.offer x ++ y.trailer x .finished) ≠ .more := by
  by_cases none_ : y.outgoing = []
  · have bare : y.offer x = lineBytes "FF" := by simp [offer, none_, offerBytes]
    rw [bare, hear_no_offers, trailer]
    rcases @listen_response y x [] (lineBytes "FQ") with same | same
    · rw [same, listen_fq]
      simp
    · rw [same]
      simp
  · cases whole : hear (y.offer x) with
    | more => exact absurd whole (hear_offers_ne_more none_)
    | failed => simp [hear_failed_append whole]
    | heard all left => simp [hear_append whole]

/-- The other side announces no block. -/
theorem trailer_letters {c : UInt8} {back : Bytes} (ends : 70 :: c :: back <:+ y.trailer x stage) :
    c = 83 ∨ c = 81 := by
  have inside {front behind : Bytes} (plain : 70 ∉ front)
      (ends : 70 :: c :: back <:+ front ++ behind) : 70 :: c :: back <:+ behind := by
    induction front with
    | nil => exact ends
    | cons first front ih =>
        simp only [List.mem_cons, not_or] at plain
        rcases List.suffix_cons_iff.mp ends with same | ends
        · exact absurd (List.cons.inj same).1 plain.1
        · exact ih plain.2 ends
  have quit (ends : 70 :: c :: back <:+ lineBytes "FQ") : c = 81 := by
    rcases List.suffix_cons_iff.mp ends with same | ends
    · exact (List.cons.inj (List.cons.inj same).2).1
    · exact absurd (ends.subset List.mem_cons_self) (by decide)
  have answer {behind : Bytes} (ends : 70 :: c :: back <:+ y.response x ++ behind) :
      c = 83 ∨ 70 :: c :: back <:+ behind := by
    rcases response_shape y x with none_ | ⟨text, _, plain, shape⟩
    · rw [none_] at ends
      exact .inr ends
    · rw [shape, List.cons_append] at ends
      rcases List.suffix_cons_iff.mp ends with same | ends
      · exact .inl (List.cons.inj (List.cons.inj same).2).1
      · exact .inr (inside (by simp [plain]) ends)
  rcases trailer_cases y x stage with empty | same | ⟨_, same⟩
  · rw [empty] at ends
    simp at ends
  · rw [same, ← List.append_nil (y.response x)] at ends
    exact (answer ends).imp_right fun none_ => by simp at none_
  · rw [same] at ends
    exact (answer ends).imp_right quit

end Side

/-- No message has been taken in yet. -/
def Stage.early : Stage → Bool
  | .receiving _ | .receivingData .. | .quitting | .finished => false
  | _ => true

/-- `_use_b2f` has been decided. -/
def Stage.agreed : Stage → Bool
  | .greeting | .awaitingSid => false
  | _ => true

def Stage.broken : Stage → Bool
  | .aborted | .failed => true
  | _ => false

/-- What holds of a side on its own account: nothing is ever sent. -/
structure Own (x y : Side) (party : Party) : Prop where
  side : party.side = x
  nodeCall : party.session.nodeCall = x.nodeCall
  neighbor : party.session.neighbor = x.neighbor
  caller : party.session.caller = x.caller
  outbox : party.session.outbox = []
  useB2f : party.session.stage.agreed → party.session.useB2f = x.b2f y
  sent : party.session.sent = []
  early : party.session.stage.early → party.session.received = []
  store : party.session.received = [] → party.store = x.store
  nothing : x.wanted y = [] ∨ x.unread y = [] → party.session.received = []

/-- One step of `x`, seen from both ends. -/
structure Moves (x y : Side) (stage : Stage) (party next : Party) : Prop where
  own : Own x y { next with session := { next.session with outbox := [] } }
  follows : x.Follows y next.session.stage (next.session.inbox ++ y.pending x stage)
    (y.trailer x stage)
  writes : ∃ more,
    next.session.outbox ++ x.pending y next.session.stage =
        x.pending y party.session.stage ++ more ∧
      x.trailer y next.session.stage = x.trailer y party.session.stage ++ more

section Step

variable {x y : Side} {stage : Stage} {silence : Silence} {party next : Party}

/-- A side that only reads: its stage goes on, and it writes nothing. -/
theorem Moves.read (own : Own x y party) {session : ForwardSession}
    (same : ForwardSession.Untouched party.session session)
    (useB2f : session.stage.agreed → session.useB2f = x.b2f y)
    (early : session.stage.early → party.session.stage.early)
    (follows : x.Follows y session.stage (session.inbox ++ y.pending x stage)
      (y.trailer x stage))
    (pending : x.pending y session.stage = x.pending y party.session.stage)
    (trailer : x.trailer y session.stage = x.trailer y party.session.stage) :
    Moves x y stage party { party with session } := by
  refine ⟨⟨own.side, same.nodeCall.trans own.nodeCall, same.neighbor.trans own.neighbor,
    same.caller.trans own.caller, rfl, useB2f, same.sent.trans own.sent,
    fun soon => same.received.trans (own.early (early soon)),
    fun none_ => own.store (same.received ▸ none_),
    fun none_ => same.received.trans (own.nothing none_)⟩, follows, [], ?_, ?_⟩
  · rw [same.outbox, own.outbox, pending]
    simp
  · rw [trailer, List.append_nil]

/-- The data of a read comes from the other side, not from the end of the stream. -/
theorem readLine_quiet {inbox : Bytes}
    (quiet : silence = .live ∨ silence = .closed ∧ stage = .finished)
    (ready : stage = .finished → readLine .live inbox ≠ .waiting) :
    readLine silence inbox = readLine .live inbox := by
  rcases quiet with rfl | ⟨_, finished⟩
  · rfl
  · exact readLine_eq_live (ready finished) silence

/-- A line of the stream from the other side. -/
theorem readLine_stream {inbox rest more : Bytes} {text : Text}
    (quiet : silence = .live ∨ silence = .closed ∧ stage = .finished)
    (ready : stage = .finished → readLine .live inbox ≠ .waiting)
    (heard : readLine silence inbox = .line text rest) :
    readLine .live (inbox ++ more) = .line text (rest ++ more) := by
  rw [readLine_quiet quiet ready] at heard
  exact readLine_line_append heard more

theorem heardText_prompt : heardText ">" = (">" : Text) := by decide

theorem newline_mem_offer (x y : Side) : 10 ∈ x.offer y := by
  simp [Side.offer, newline_mem_lineBytes]

theorem offers_offer (x y : Side) (more : Bytes) : Offers (x.offer y ++ more) :=
  (offerBytes_offers x.now (x.b2f y) x.outgoing).append more

theorem newline_not_mem_generate (x : Side) : '\n' ∉ Sid.generate x.nodeCall := by
  have upper : '\n' ∉ Text.upper x.nodeCall := mt (Text.mem_upper (by decide)).mp x.oneLine
  have call : '\n' ∉ (Sid.ownCall x.nodeCall).1 := by
    rw [Sid.ownCall]
    split
    · split
      · exact fun listed => upper ((List.takeWhile_sublist _).subset listed)
      · exact upper
    · exact upper
  have ssid : '\n' ∉ Sid.formatInt (Sid.ownCall x.nodeCall).2 := by
    rw [Sid.formatInt]
    split
    · simp [newline_not_mem_digits]
    · exact newline_not_mem_digits _
  have known : '\n' ∉ ("-pyBulletin" : Text) ∧ '\n' ∉ version ∧ '\n' ∉ ourFlags ∧
      '\n' ∉ ("$]" : Text) := by decide
  simp only [Sid.generate, List.mem_append, not_or]
  refine ⟨⟨⟨⟨⟨⟨⟨by decide, call⟩, ?_⟩, known.1⟩, known.2.1⟩, by decide⟩, known.2.2.1⟩,
    known.2.2.2⟩
  split
  · simp
  · simp [ssid]

theorem step_line {reads : Text → ForwardSession → ForwardSession} {broken : Stage}
    (did : ForwardSession.step party.side.codec party.side.now silence party.store
      party.session = ForwardSession.reading silence party.store party.session reads broken)
    (stepped : party.step silence = some next) :
    (∃ rest, rest <:+ party.session.inbox ∧ next =
        { party with session := { party.session with inbox := rest, stage := broken } }) ∨
      ∃ text rest, readLine silence party.session.inbox = .line text rest ∧
        next = { party with session := reads text { party.session with inbox := rest } } := by
  obtain ⟨⟨store, session⟩, moved, rfl⟩ := Option.map_eq_some_iff.mp stepped
  obtain ⟨rfl, ⟨rest, behind, rfl⟩ | ⟨text, rest, line, rfl⟩⟩ :=
    ForwardSession.read_cases did moved
  · exact .inl ⟨rest, behind, rfl⟩
  · exact .inr ⟨text, rest, line, rfl⟩

/-- A read that overruns the stream's limit breaks the session; any other goes on with a
line of the stream. -/
theorem step_read (quiet : silence = .live ∨ silence = .closed ∧ stage = .finished)
    (ready : stage = .finished → readLine .live party.session.inbox ≠ .waiting)
    {reads : Text → ForwardSession → ForwardSession}
    (did : ForwardSession.step party.side.codec party.side.now silence party.store
      party.session = ForwardSession.reading silence party.store party.session reads .failed)
    (more : Bytes) (stepped : party.step silence = some next) :
    next.session.stage.broken ∨
      ∃ text rest, readLine .live (party.session.inbox ++ more) = .line text (rest ++ more) ∧
        next = { party with session := reads text { party.session with inbox := rest } } := by
  rcases step_line did stepped with ⟨rest, _, rfl⟩ | ⟨text, rest, line, rfl⟩
  · exact .inl rfl
  · exact .inr ⟨text, rest, readLine_stream quiet ready line, rfl⟩

/-- What a peer that has finished leaves is enough for a line. -/
theorem ready_of_newline {bytes : Bytes} (follows : party.session.inbox ++ y.pending x stage = bytes)
    (newline : 10 ∈ bytes) (returned : stage = .finished) :
    readLine .live party.session.inbox ≠ .waiting := by
  rw [returned, show y.pending x .finished = [] from rfl, List.append_nil] at follows
  exact readLine_ne_waiting (follows ▸ newline)

section Opening

variable (own : Own x y party) (opposite : y.caller = !x.caller)
  (follows : x.Follows y party.session.stage
    (party.session.inbox ++ y.pending x stage) (y.trailer x stage))
  (quiet : silence = .live ∨ silence = .closed ∧ stage = .finished)
  (stepped : party.step silence = some next)

include own follows stepped

theorem step_greeting (at_ : party.session.stage = .greeting) : Moves x y stage party next := by
  obtain ⟨⟨store, session⟩, did, rfl⟩ := Option.map_eq_some_iff.mp stepped
  simp only [ForwardSession.step, at_, Option.some.injEq, Prod.mk.injEq] at did
  obtain ⟨rfl, rfl⟩ := did
  rw [at_] at follows
  refine ⟨⟨own.side, own.nodeCall, own.neighbor, own.caller, rfl, (fun soon => by cases soon),
    own.sent, fun _ => own.early (by rw [at_]; rfl), own.store, own.nothing⟩, follows, [],
    ?_, by rw [at_]; rfl⟩
  rw [at_]
  simp only [ForwardSession.writeLine, own.outbox, own.nodeCall, Side.pending, Side.hello,
    lineBytes, List.nil_append, List.append_nil, List.append_assoc]

include opposite quiet

theorem step_awaitingSid (at_ : party.session.stage = .awaitingSid) :
    next.session.stage.broken ∨ Moves x y stage party next := by
  rw [at_] at follows
  simp only [Side.Follows] at follows
  have ready := ready_of_newline follows (by simp [newline_mem_offer])
  rcases step_read quiet ready (ForwardSession.reads_awaitingSid at_) (y.pending x stage) stepped with
    broken | ⟨line, rest, heard, rfl⟩
  · exact .inl broken
  rw [follows, List.append_assoc, List.append_assoc, Side.hello] at heard
  obtain ⟨same, left⟩ := readLine_lineBytes (newline_not_mem_generate y) heard
  have kind := own.caller
  refine .inr (Moves.read own (ForwardSession.untouched_greeted _ rest line) ?_
    (fun _ => by rw [at_]; rfl) ?_ ?_ ?_)
  · intro _
    simp only [ForwardSession.greeted, own.neighbor, Side.b2f, same]
  · simp only [ForwardSession.greeted, kind, left]
    cases role : x.caller with
    | true => exact ⟨role, by simp⟩
    | false => exact ⟨role, by simp [Side.prompt, opposite, role]⟩
  · rw [at_]
    simp only [ForwardSession.greeted, kind]
    cases role : x.caller with
    | true => simp [Side.pending, Side.prompt, role]
    | false => simp [Side.pending, Side.prompt, role]
  · rw [at_]
    simp only [ForwardSession.greeted, kind]
    cases x.caller <;> rfl

theorem step_awaitingPrompt (at_ : party.session.stage = .awaitingPrompt) :
    next.session.stage.broken ∨ Moves x y stage party next := by
  rw [at_] at follows
  obtain ⟨role, follows⟩ := follows
  have ready := ready_of_newline follows (by simp [newline_mem_offer])
  rcases step_read quiet ready (ForwardSession.reads_awaitingPrompt at_) (y.pending x stage)
    stepped with
    broken | ⟨line, rest, heard, rfl⟩
  · exact .inl broken
  have prompt : y.prompt = lineBytes ">" := by simp [Side.prompt, opposite, role]
  rw [follows, List.append_assoc, prompt] at heard
  obtain ⟨same, left⟩ := readLine_lineBytes (by decide) heard
  have goesOn : (({ party.session with inbox := rest }).prompted line).stage = .selecting := by
    rw [same, heardText_prompt]
    rfl
  refine .inr (Moves.read own (ForwardSession.untouched_prompted _ rest line)
    (fun _ => own.useB2f (by rw [at_]; rfl)) (fun _ => by rw [at_]; rfl) ?_ ?_ ?_)
  · rw [goesOn]
    exact left
  · rw [goesOn, at_]
    rfl
  · rw [goesOn, at_]
    rfl

omit opposite quiet

theorem step_prompting (at_ : party.session.stage = .prompting) : Moves x y stage party next := by
  obtain ⟨⟨store, session⟩, did, rfl⟩ := Option.map_eq_some_iff.mp stepped
  simp only [ForwardSession.step, at_, Option.some.injEq, Prod.mk.injEq] at did
  obtain ⟨rfl, rfl⟩ := did
  rw [at_] at follows
  refine ⟨⟨own.side, own.nodeCall, own.neighbor, own.caller, rfl,
    fun _ => own.useB2f (by rw [at_]; rfl), own.sent, fun _ => own.early (by rw [at_]; rfl),
    own.store, own.nothing⟩, follows.2, [], ?_, by rw [at_]; rfl⟩
  rw [at_]
  simp [ForwardSession.writeLine, own.outbox, Side.pending, lineBytes]

theorem step_selecting (at_ : party.session.stage = .selecting) : Moves x y stage party next := by
  obtain ⟨⟨store, session⟩, did, rfl⟩ := Option.map_eq_some_iff.mp stepped
  simp only [ForwardSession.step, at_, Option.some.injEq, Prod.mk.injEq] at did
  obtain ⟨rfl, rfl⟩ := did
  rw [at_] at follows
  have early := own.early (by rw [at_]; rfl)
  refine ⟨⟨own.side, own.nodeCall, own.neighbor, own.caller, rfl,
    fun _ => own.useB2f (by rw [at_]; rfl), own.sent, fun _ => early, own.store, own.nothing⟩,
    follows, [], ?_, by rw [at_]; rfl⟩
  rw [at_]
  simp [own.outbox, own.nodeCall, own.neighbor, own.store early, Side.pending, Side.offer,
    Side.outgoing]

theorem step_proposing {outgoing left : List Row}
    (at_ : party.session.stage = .proposing outgoing left) : Moves x y stage party next := by
  obtain ⟨⟨store, session⟩, did, rfl⟩ := Option.map_eq_some_iff.mp stepped
  have useB2f := own.useB2f (by rw [at_]; rfl)
  rw [at_] at follows
  cases left with
  | nil =>
      simp only [ForwardSession.step, at_, Option.some.injEq, Prod.mk.injEq] at did
      obtain ⟨rfl, rfl⟩ := did
      refine ⟨⟨own.side, own.nodeCall, own.neighbor, own.caller, rfl, fun _ => useB2f, own.sent,
        fun _ => own.early (by rw [at_]; rfl), own.store, own.nothing⟩, follows, [], ?_,
        by rw [at_]; rfl⟩
      rw [at_]
      simp [ForwardSession.writeLine, own.outbox, Side.pending, lineBytes, offerBytes]
  | cons msg left =>
      simp only [ForwardSession.step, at_, Option.some.injEq, Prod.mk.injEq] at did
      obtain ⟨rfl, rfl⟩ := did
      refine ⟨⟨own.side, own.nodeCall, own.neighbor, own.caller, rfl, fun _ => useB2f, own.sent,
        fun _ => own.early (by rw [at_]; rfl), own.store, own.nothing⟩, follows, [], ?_,
        by rw [at_]; rfl⟩
      rw [at_]
      simp [ForwardSession.writeLine, own.outbox, own.side, useB2f, Side.pending, lineBytes,
        offerBytes]

include quiet

theorem step_awaitingFs {outgoing : List Row} (at_ : party.session.stage = .awaitingFs outgoing) :
    next.session.stage.broken ∨ Moves x y stage party next := by
  rw [at_] at follows
  simp only [Side.Follows] at follows
  have ready := ready_of_newline follows (by simp [newline_mem_offer])
  rcases step_read quiet ready (ForwardSession.reads_awaitingFs at_) (y.pending x stage) stepped with
    broken | ⟨line, rest, heard, rfl⟩
  · exact .inl broken
  rw [follows] at heard
  have ignored := (offers_offer y x _).no_response heard
  have nothing : acceptedOut outgoing [] = [] := by simp [acceptedOut]
  refine .inr (Moves.read own ⟨rfl, rfl, rfl, rfl, rfl, rfl⟩
    (fun _ => own.useB2f (by rw [at_]; rfl)) (fun _ => by rw [at_]; rfl) ?_
    (by rw [at_]; rfl) (by rw [at_]; rfl))
  refine ⟨by rw [ignored, nothing], fun more => ?_⟩
  exact hear_line (readLine_line_append heard more)

theorem step_collecting {accepted : List Row} {incoming : List Proposal}
    (at_ : party.session.stage = .collecting accepted incoming) :
    next.session.stage.broken ∨ Moves x y stage party next := by
  rw [at_] at follows
  obtain ⟨nothing, follows⟩ := follows
  have ready (returned : stage = .finished) : readLine .live party.session.inbox ≠ .waiting := by
    intro waits
    have same := follows []
    rw [returned, show y.pending x .finished = [] from rfl, List.append_nil, List.append_nil,
      List.append_nil, listen_waiting waits] at same
    exact Side.hear_finished x y same
  rcases step_read quiet ready (ForwardSession.reads_collecting at_) (y.pending x stage) stepped with
    broken | ⟨line, rest, heard, rfl⟩
  · exact .inl broken
  have read (more : Bytes) :
      listen incoming (party.session.inbox ++ y.pending x stage ++ more) =
        if isStop line then .heard incoming (rest ++ y.pending x stage ++ more)
        else listen (incoming ++ (parseProposal line).toList) (rest ++ y.pending x stage ++ more) :=
    listen_line (readLine_line_append heard more)
  have useB2f := own.useB2f (by rw [at_]; rfl)
  by_cases stop : isStop line
  · have goesOn : (({ party.session with inbox := rest }).collected accepted incoming line).stage =
        .responding accepted incoming := if_pos stop
    refine .inr (Moves.read own (ForwardSession.untouched_collected _ rest accepted incoming line)
      (fun _ => useB2f) (fun _ => by rw [at_]; rfl) ?_ (by rw [goesOn, at_]; rfl)
      (by rw [goesOn, at_]; rfl))
    rw [goesOn]
    have whole := follows []
    rw [read [], if_pos stop, List.append_nil, List.append_nil] at whole
    obtain ⟨all, left⟩ := Side.hear_trailer whole
    exact ⟨nothing, all, left⟩
  · have goesOn : (({ party.session with inbox := rest }).collected accepted incoming line).stage =
        .collecting accepted (incoming ++ (parseProposal line).toList) := by
      simp only [ForwardSession.collected]
      rw [if_neg stop]
      cases parseProposal line <;> simp
    refine .inr (Moves.read own (ForwardSession.untouched_collected _ rest accepted incoming line)
      (fun _ => useB2f) (fun _ => by rw [at_]; rfl) ?_ (by rw [goesOn, at_]; rfl)
      (by rw [goesOn, at_]; rfl))
    rw [goesOn]
    refine ⟨nothing, fun more => ?_⟩
    rw [follows more, read more, if_neg stop]
    rfl

omit quiet

theorem step_responding {accepted : List Row} {incoming : List Proposal}
    (at_ : party.session.stage = .responding accepted incoming) : Moves x y stage party next := by
  obtain ⟨⟨store, session⟩, did, rfl⟩ := Option.map_eq_some_iff.mp stepped
  have useB2f := own.useB2f (by rw [at_]; rfl)
  have early := own.early (by rw [at_]; rfl)
  rw [at_] at follows
  obtain ⟨nothing, all, left⟩ := follows
  cases incoming with
  | nil =>
      simp only [ForwardSession.step, at_, Option.some.injEq, Prod.mk.injEq] at did
      obtain ⟨rfl, rfl⟩ := did
      have silent : x.response y = [] := by rw [Side.response, ← all]
      refine ⟨⟨own.side, own.nodeCall, own.neighbor, own.caller, rfl, fun _ => useB2f, own.sent,
        fun _ => early, own.store, own.nothing⟩, ⟨nothing, by rw [← all]; rfl, left⟩, [], ?_, ?_⟩
      · simp [at_, own.outbox, Side.pending]
      · simp [at_, Side.trailer, silent]
  | cons prop others =>
      simp only [ForwardSession.step, at_, Option.some.injEq, Prod.mk.injEq] at did
      obtain ⟨rfl, rfl⟩ := did
      have answer : x.response y = lineBytes (fsLine x.store (prop :: others)) := by
        rw [Side.response, ← all]
      have same := own.store early
      refine ⟨⟨own.side, own.nodeCall, own.neighbor, own.caller, rfl, fun _ => useB2f, own.sent,
        fun _ => early, own.store, own.nothing⟩, ⟨nothing, by rw [same, all], left⟩,
        x.response y, ?_, ?_⟩
      · simp [at_, ForwardSession.writeLine, own.outbox, Side.pending, answer, same, lineBytes]
      · simp [at_, Side.trailer]

theorem step_sending {accepted : List Row} {incoming : List Proposal}
    (at_ : party.session.stage = .sending accepted incoming) : Moves x y stage party next := by
  obtain ⟨⟨store, session⟩, did, rfl⟩ := Option.map_eq_some_iff.mp stepped
  have useB2f := own.useB2f (by rw [at_]; rfl)
  have early := own.early (by rw [at_]; rfl)
  rw [at_] at follows
  obtain ⟨rfl, rfl, left⟩ := follows
  simp only [ForwardSession.step, at_, Option.some.injEq, Prod.mk.injEq] at did
  obtain ⟨rfl, rfl⟩ := did
  refine ⟨⟨own.side, own.nodeCall, own.neighbor, own.caller, rfl, fun _ => useB2f, own.sent,
    fun _ => early, own.store, own.nothing⟩, ⟨.inl ⟨rfl, left⟩, fun open_ nothing => ?_⟩, [],
    ?_, ?_⟩
  · have same := left (Side.outgoing_ne_nil open_)
    rw [nothing, List.nil_append] at same
    exact same ▸ List.suffix_rfl
  · simp [at_, own.outbox, Side.pending]
  · simp [at_, Side.trailer]

omit follows in
theorem step_quitting (at_ : party.session.stage = .quitting) : Moves x y stage party next := by
  obtain ⟨⟨store, session⟩, did, rfl⟩ := Option.map_eq_some_iff.mp stepped
  have useB2f := own.useB2f (by rw [at_]; rfl)
  simp only [ForwardSession.step, at_, Option.some.injEq, Prod.mk.injEq] at did
  obtain ⟨rfl, rfl⟩ := did
  refine ⟨⟨own.side, own.nodeCall, own.neighbor, own.caller, rfl, fun _ => useB2f, own.sent,
    (fun soon => by cases soon), own.store, own.nothing⟩, trivial, lineBytes "FQ", ?_, ?_⟩
  · simp [at_, ForwardSession.writeLine, own.outbox, Side.pending, lineBytes]
  · simp [at_, Side.trailer]

omit follows in
theorem step_received (at_ : party.session.stage = .receiving []) :
    Moves x y stage party next := by
  obtain ⟨⟨store, session⟩, did, rfl⟩ := Option.map_eq_some_iff.mp stepped
  have useB2f := own.useB2f (by rw [at_]; rfl)
  simp only [ForwardSession.step, at_, Option.some.injEq, Prod.mk.injEq] at did
  obtain ⟨rfl, rfl⟩ := did
  refine ⟨⟨own.side, own.nodeCall, own.neighbor, own.caller, rfl, fun _ => useB2f, own.sent,
    (fun soon => by cases soon), own.store, own.nothing⟩, trivial, [], ?_, ?_⟩
  · simp [at_, own.outbox, Side.pending]
  · simp [at_, Side.trailer]

omit stepped

/-- One message fewer to wait for. -/
theorem Moves.skip {left : List Proposal} {binary : Bool} {size : Nat} {prop : Proposal}
    (at_ : party.session.stage = .receiving (prop :: left) ∨
      party.session.stage = .receivingData binary size prop left)
    {inbox : Bytes} (behind : x.unread y = [] → inbox <:+ party.session.inbox) :
    Moves x y stage party
      { party with session := { party.session with inbox, stage := .receiving left } } := by
  have useB2f := own.useB2f (by rcases at_ with at_ | at_ <;> rw [at_] <;> rfl)
  refine Moves.read own ⟨rfl, rfl, rfl, rfl, rfl, rfl⟩ (fun _ => useB2f) (fun soon => nomatch soon)
    ⟨.inr ?_, fun _ nothing => ?_⟩ ?_ ?_
  · rcases at_ with at_ | at_
    · rw [at_] at follows
      exact follows.1.elim (fun ⟨all, _⟩ => all ▸ Nat.lt_succ_self _) Nat.lt_of_succ_lt
    · rw [at_] at follows
      exact follows.1
  · obtain ⟨front, same⟩ := behind nothing
    rcases at_ with at_ | at_
    · rw [at_] at follows
      refine List.IsSuffix.trans ⟨front, ?_⟩ (follows.2 (List.cons_ne_nil _ _) nothing)
      rw [← same, List.append_assoc]
    · rw [at_] at follows
      exact absurd nothing follows.2
  · rcases at_ with at_ | at_ <;> rw [at_] <;> rfl
  · rcases at_ with at_ | at_ <;> rw [at_] <;> rfl

include stepped

theorem step_receiving {prop : Proposal} {left : List Proposal}
    (at_ : party.session.stage = .receiving (prop :: left)) : Moves x y stage party next := by
  have skip := @Moves.skip x y stage party own follows left false 0 prop (.inl at_)
  have useB2f := own.useB2f (by rw [at_]; rfl)
  rw [at_] at follows
  rcases step_line (ForwardSession.reads_receiving at_) stepped with
    ⟨rest, behind, rfl⟩ | ⟨text, rest, line, rfl⟩
  · exact skip fun _ => behind
  rcases ForwardSession.headed_cases { party.session with inbox := rest } prop left text with
    same | ⟨announced, binary, size, same⟩
  · rw [same]
    exact skip fun _ => (readLine_parts line).2
  rw [same]
  refine Moves.read own ⟨rfl, rfl, rfl, rfl, rfl, rfl⟩ (fun _ => useB2f)
    (fun soon => nomatch soon) ⟨?_, fun nothing => ?_⟩ (by rw [at_]; rfl) (by rw [at_]; rfl)
  · exact follows.1.elim (fun ⟨all, _⟩ => all ▸ Nat.lt_succ_self _) Nat.lt_of_succ_lt
  · -- behind the response no line announces a block
    obtain ⟨c, back, begins, kind⟩ := readLine_header line announced
    have ends := follows.2 (List.cons_ne_nil _ _) nothing
    rw [begins] at ends
    rcases Side.trailer_letters ends with rfl | rfl <;> simp at kind

theorem step_receivingData {binary : Bool} {size : Nat} {prop : Proposal} {left : List Proposal}
    (at_ : party.session.stage = .receivingData binary size prop left) :
    next.session.stage.broken ∨ Moves x y stage party next := by
  obtain ⟨⟨store, session⟩, did, rfl⟩ := Option.map_eq_some_iff.mp stepped
  have skip := @Moves.skip x y stage party own follows left binary size prop (.inr at_)
  have useB2f := own.useB2f (by rw [at_]; rfl)
  rw [at_] at follows
  simp only [ForwardSession.step, at_] at did
  cases found : readExactly silence size party.session.inbox with
  | waiting => simp [found] at did
  | failed rest =>
      simp only [found, Option.some.injEq, Prod.mk.injEq] at did
      obtain ⟨rfl, rfl⟩ := did
      exact .inr (@skip rest fun nothing => absurd nothing follows.2)
  | data data rest =>
      simp only [found, Option.some.injEq] at did
      have outcome := ForwardSession.stored_cases party.side.codec party.store
        { party.session with inbox := rest, stage := .receivingData binary size prop left }
        binary data prop left
      dsimp only at outcome
      rcases outcome with same | broken | ⟨msg, id, inserted, _, same⟩
      · rw [same] at did
        cases did
        exact .inr (@skip rest fun nothing => absurd nothing follows.2)
      · rw [did] at broken
        left
        dsimp only at broken ⊢
        rw [broken]
        rfl
      · rw [same] at did
        cases did
        refine .inr ⟨⟨own.side, own.nodeCall, own.neighbor, own.caller, rfl, fun _ => useB2f,
          own.sent, (fun soon => by cases soon), fun none_ => ?_, fun none_ => ?_⟩,
          ⟨.inr follows.1, fun _ nothing => absurd nothing follows.2⟩, [], ?_, ?_⟩
        · simp at none_
        · rcases none_ with none_ | nothing
          · have fewer : left.length < (x.wanted y).length := follows.1
            rw [none_] at fewer
            exact absurd fewer (Nat.not_lt_zero _)
          · exact absurd nothing follows.2
        · simp [at_, own.outbox, Side.pending]
        · simp [at_, Side.trailer]

end Opening

/-- Every step of a side keeps its account and its place in the other side's stream, and
writes what it was to write. -/
theorem step_moves (own : Own x y party) (opposite : y.caller = !x.caller)
    (follows : x.Follows y party.session.stage
      (party.session.inbox ++ y.pending x stage) (y.trailer x stage))
    (quiet : silence = .live ∨ silence = .closed ∧ stage = .finished)
    (stepped : party.step silence = some next) :
    next.session.stage.broken ∨ Moves x y stage party next := by
  cases at_ : party.session.stage with
  | greeting => exact .inr (step_greeting own follows stepped at_)
  | awaitingSid => exact step_awaitingSid own opposite follows quiet stepped at_
  | awaitingPrompt => exact step_awaitingPrompt own opposite follows quiet stepped at_
  | prompting => exact .inr (step_prompting own follows stepped at_)
  | selecting => exact .inr (step_selecting own follows stepped at_)
  | proposing => exact .inr (step_proposing own follows stepped at_)
  | awaitingFs => exact step_awaitingFs own follows quiet stepped at_
  | collecting => exact step_collecting own follows quiet stepped at_
  | responding => exact .inr (step_responding own follows stepped at_)
  | sending => exact .inr (step_sending own follows stepped at_)
  | receiving left =>
      cases left with
      | nil => exact .inr (step_received own stepped at_)
      | cons => exact .inr (step_receiving own follows stepped at_)
  | receivingData => exact step_receivingData own follows stepped at_
  | quitting => exact .inr (step_quitting own stepped at_)
  | finished =>
      obtain ⟨_, did, _⟩ := Option.map_eq_some_iff.mp stepped
      simp [ForwardSession.step, at_] at did
  | aborted | failed =>
      rw [at_] at follows
      exact follows.elim

end Step

namespace Joint

/-- Both sides keep their account and their place in each other's stream. -/
structure Together (x y : Side) (joint : Joint) : Prop where
  ownA : Own x y joint.a
  ownB : Own y x joint.b
  followsA : x.Follows y joint.a.session.stage
    (joint.a.session.inbox ++ y.pending x joint.b.session.stage)
    (y.trailer x joint.b.session.stage)
  followsB : y.Follows x joint.b.session.stage
    (joint.b.session.inbox ++ x.pending y joint.a.session.stage)
    (x.trailer y joint.a.session.stage)

theorem Together.swap {x y : Side} {joint : Joint} (together : joint.Together x y) :
    joint.swap.Together y x :=
  ⟨together.ownB, together.ownA, together.followsB, together.followsA⟩

/-- The invariant of a joint run: a session broke off, or both are on their way. -/
def Sound (x y : Side) (joint : Joint) : Prop :=
  joint.a.session.stage.broken ∨ joint.b.session.stage.broken ∨ joint.Together x y

theorem Sound.swap {x y : Side} {joint : Joint} (sound : joint.Sound x y) :
    joint.swap.Sound y x := by
  rcases sound with broken | broken | together
  · exact .inr (.inl broken)
  · exact .inl broken
  · exact .inr (.inr together.swap)

variable {x y : Side} {joint next : Joint}

theorem sound_start (x y : Side) : (start x y).Sound x y := by
  have own (x y : Side) : Own x y (.start x) :=
    ⟨rfl, rfl, rfl, rfl, rfl, (fun soon => by cases soon), rfl, fun _ => rfl, fun _ => rfl,
      fun _ => rfl⟩
  refine .inr (.inr ⟨own x y, own y x, ?_, ?_⟩)
  · exact (List.append_nil _).symm
  · exact (List.append_nil _).symm

theorem Sound.advanceA (sound : joint.Sound x y) (opposite : y.caller = !x.caller)
    (advanced : joint.advanceA = some next) : next.Sound x y := by
  obtain ⟨party, stepped, rfl⟩ := Option.map_eq_some_iff.mp advanced
  rcases sound with broken | broken | together
  · exfalso
    obtain ⟨_, did, _⟩ := Option.map_eq_some_iff.mp stepped
    cases at_ : joint.a.session.stage <;> simp [at_, Stage.broken] at broken
    · simp [ForwardSession.step, at_] at did
    · simp [ForwardSession.step, at_] at did
  · exact .inr (.inl broken)
  · have quiet : (if joint.b.returned then Silence.closed else .live) = .live ∨
        (if joint.b.returned then Silence.closed else .live) = .closed ∧
          joint.b.session.stage = .finished := by
      cases returned : joint.b.returned with
      | false => exact .inl rfl
      | true =>
          refine .inr ⟨rfl, ?_⟩
          have on := together.followsB
          cases at_ : joint.b.session.stage <;> simp [Party.returned, at_] at returned
          · rfl
          · rw [at_] at on
            exact on.elim
          · rw [at_] at on
            exact on.elim
    rcases step_moves together.ownA opposite together.followsA quiet stepped with broken | moves
    · exact .inl broken
    · obtain ⟨more, written, behind⟩ := moves.writes
      have other := together.ownB
      refine .inr (.inr ⟨moves.own, ⟨other.side, other.nodeCall, other.neighbor, other.caller,
        other.outbox, other.useB2f, other.sent, other.early, other.store, other.nothing⟩,
        moves.follows, ?_⟩)
      dsimp only
      rw [List.append_assoc, written, behind, ← List.append_assoc]
      exact together.followsB.extend more

theorem Sound.step (sound : joint.Sound x y) (opposite : y.caller = !x.caller) {turn : Turn}
    (stepped : joint.step turn = some next) : next.Sound x y := by
  cases turn with
  | a => exact sound.advanceA opposite stepped
  | b =>
      obtain ⟨moved, advanced, rfl⟩ := Option.map_eq_some_iff.mp stepped
      have other : x.caller = !y.caller := by simp [opposite]
      exact (sound.swap.advanceA other advanced).swap

theorem sound_run (opposite : y.caller = !x.caller) {turns : List Turn}
    (completed : run step (start x y) turns = some joint) : joint.Sound x y :=
  run_preserves (fun _ _ _ sound stepped => Sound.step sound opposite stepped)
    (sound_start x y) completed

end Joint

end PyBulletin.Forward
