import PyBulletin.Forward.Effect
import PyBulletin.Foundation.Run

set_option autoImplicit false

namespace PyBulletin.Forward

open PyBulletin.Foundation
open PyBulletin.Store

/-- The call that `_forward_handler` reads off a SID line. -/
def remoteCall (sidLine : Bytes) : Text :=
  match Sid.parse (Text.strip (decodeAscii sidLine)) with
  | some sid => Text.upper sid.call
  | none => []

/-- The neighbour for which `_forward_handler` takes the sender of a SID line. -/
def inboundNeighbor (neighbors : List Neighbor) (sidLine : Bytes) : Neighbor :=
  let remoteCall := remoteCall sidLine
  (neighbors.find? fun neighbor => Text.upper neighbor.call = remoteCall ∧ neighbor.enabled).getD
    { call := if remoteCall = [] then "UNKNOWN" else remoteCall }

/-- A session with another node.  `remote` is that node's own call, which for an outbound
session is the call of the neighbour it is configured as. -/
structure Link where
  remote : Text
  inbound : Bool
  session : ForwardSession

/-- A node with all the sessions it has had so far. -/
structure Station where
  store : BBSStore
  links : List Link

namespace Station

inductive Event where
  | inbound (remote : Text)
  | outbound (entry : Nat)
  | arrive (link : Nat) (data : Bytes)
  | advance (link : Nat) (now : DateTime) (silence : Silence)
  | post (msg : Message)

variable (codec : Codec) (nodeCall : Text) (neighbors : List Neighbor)

/-- The SID line of a node. -/
def sidLine (remote : Text) : Bytes := lineBytes (Sid.generate remote)

/-- The session that `_forward_handler` opens; the SID line is read again in it. -/
def answer (remote : Text) : Link where
  remote
  inbound := true
  session :=
    { nodeCall, neighbor := inboundNeighbor neighbors (sidLine remote), caller := false
      inbox := sidLine remote }

/-- The session that `run_once` opens. -/
def call (neighbor : Neighbor) : Link where
  remote := neighbor.call
  inbound := false
  session := { nodeCall, neighbor, caller := true }

def step (station : Station) : Event → Option Station
  | .inbound remote =>
      if '\n' ∈ remote then none
      else some { station with links := station.links ++ [answer nodeCall neighbors remote] }
  | .outbound entry =>
      neighbors[entry]?.bind fun neighbor =>
        if neighbor.enabled then
          some { station with links := station.links ++ [call nodeCall neighbor] }
        else none
  | .arrive i data =>
      station.links[i]?.map fun link =>
        let session := { link.session with inbox := link.session.inbox ++ data }
        { station with links := station.links.set i { link with session } }
  | .advance i now silence =>
      station.links[i]?.bind fun link =>
        (ForwardSession.step codec now silence station.store link.session).map
          fun (store, session) => { store, links := station.links.set i { link with session } }
  | .post msg => some { station with store := (station.store.insertMessage msg statusNew).1 }

/-- A node that has had no session yet. -/
def start (store : BBSStore) : Station where
  store
  links := []

/-- Two calls name the same node. -/
abbrev SameNode (one other : Text) : Prop := Text.upper one = Text.upper other

/-- No session is about to select a message that was received from the same node. -/
def NeverBack (station : Station) : Prop :=
  ∀ link ∈ station.links, ∀ other ∈ station.links, SameNode link.remote other.remote →
    link.session.stage.isSelecting →
      ∀ row ∈ selectOutgoing link.session.nodeCall link.session.neighbor station.store,
        row.id ∉ other.session.received

instance (station : Station) : Decidable station.NeverBack :=
  inferInstanceAs (Decidable (∀ link ∈ station.links, _))

/-- The node that a session is opened with has no SSID, or only had sessions opened from the
same end before. -/
def OneName (station : Station) : Event → Prop
  | .inbound remote => Sid.Callsign remote ∨
      ∀ link ∈ station.links, SameNode link.remote remote → link.inbound
  | .outbound entry => ∀ neighbor ∈ neighbors[entry]?, Sid.Callsign neighbor.call ∨
      ∀ link ∈ station.links, SameNode link.remote neighbor.call → ¬ link.inbound
  | _ => True

instance (station : Station) : (event : Event) → Decidable (OneName neighbors station event)
  | .inbound _ => inferInstanceAs (Decidable (_ ∨ _))
  | .outbound _ => inferInstanceAs (Decidable (∀ neighbor ∈ _, _ ∨ _))
  | .arrive .. | .advance .. | .post _ => isTrue trivial

variable {codec nodeCall neighbors}

/-- The name under which the sessions with a node select and receive. -/
def key (neighbors : List Neighbor) (inbound : Bool) (remote : Text) : Text :=
  if inbound then Text.upper (inboundNeighbor neighbors (sidLine remote)).call
  else Text.upper remote

theorem key_congr {one other : Text} (same : SameNode one other) (inbound : Bool) :
    key neighbors inbound one = key neighbors inbound other := by
  cases inbound with
  | false => exact same
  | true =>
      rw [key, key, sidLine, sidLine, ← Sid.generate_upper one, ← Sid.generate_upper other, same]

/-- The neighbour found, or made up, has the call of the SID line. -/
theorem inboundNeighbor_call {neighbors : List Neighbor} {line : Bytes}
    (some_ : remoteCall line ≠ []) :
    Text.upper (inboundNeighbor neighbors line).call = Text.upper (remoteCall line) := by
  have twice : Text.upper (remoteCall line) = remoteCall line := by
    rw [remoteCall]
    split
    · exact Text.upper_upper _
    · rfl
  rw [inboundNeighbor]
  cases found : neighbors.find? fun neighbor =>
      Text.upper neighbor.call = remoteCall line ∧ neighbor.enabled with
  | some neighbor =>
      have fits := List.find?_some found
      simp only [Bool.decide_and, Bool.and_eq_true, decide_eq_true_eq] at fits
      exact fits.1.trans twice.symm
  | none => simp only [Option.getD_none, if_neg some_]

theorem inboundNeighbor_word {neighbors : List Neighbor}
    (words : ∀ neighbor ∈ neighbors, Text.OneWord neighbor.call) (line : Bytes) :
    Text.OneWord (inboundNeighbor neighbors line).call := by
  rw [inboundNeighbor]
  cases found : neighbors.find? fun neighbor =>
      Text.upper neighbor.call = remoteCall line ∧ neighbor.enabled with
  | some neighbor => exact words neighbor (List.mem_of_find?_eq_some found)
  | none =>
      simp only [Option.getD_none]
      split
      · decide
      · rename_i some_
        rw [remoteCall] at some_ ⊢
        split at some_
        · rename_i sid parsed
          exact (Sid.parse_word parsed).upper
        · exact absurd rfl some_

theorem sidLine_text {remote : Text} (plain : Sid.Callsign remote) :
    Text.strip (decodeAscii (sidLine remote)) = Sid.generate remote := by
  have shape : Sid.generate remote =
      '[' :: (Text.upper remote ++ ("-pyBulletin1.0.0-B2FHM$" : Text)) ++ [']'] := by
    have ends : Sid.tailText = ("-pyBulletin1.0.0-B2FHM$" : Text) ++ [']'] := by decide
    rw [Sid.generate_callsign plain, ends, List.cons_append, List.cons_append, List.append_assoc]
  have ascii : ∀ c ∈ Sid.generate remote ++ crlf, c.toNat < 128 := by
    have small : (Sid.tailText ++ crlf).all (fun c => c.toNat < 128) := by decide
    rw [Sid.generate_callsign plain, List.cons_append, List.cons_append, List.append_assoc]
    intro c listed
    rcases List.mem_cons.mp listed with rfl | listed
    · decide
    · rcases List.mem_append.mp listed with front | back
      · have bounds := Sid.isCallChar_bounds (List.all_eq_true.mp plain.2 c front)
        omega
      · exact of_decide_eq_true (List.all_eq_true.mp small c back)
  rw [sidLine, lineBytes, decodeAscii_encodeAscii ascii, shape]
  exact Text.strip_blanks (by decide) (by decide) _ (List.all_eq_true.mp (by decide))

/-- A node without an SSID has one name. -/
theorem key_callsign {remote : Text} (plain : Sid.Callsign remote) (inbound : Bool) :
    key neighbors inbound remote = Text.upper remote := by
  cases inbound with
  | false => rfl
  | true =>
      obtain ⟨sid, parsed, same⟩ := Option.map_eq_some_iff.mp (Sid.parse_generate plain)
      have found : remoteCall (sidLine remote) = Text.upper remote := by
        rw [remoteCall, sidLine_text plain, parsed]
        exact (congrArg Text.upper same).trans (Text.upper_upper remote)
      have some_ : remoteCall (sidLine remote) ≠ [] := by
        rw [found]
        simpa [Text.upper] using plain.1
      rw [key, if_pos rfl, inboundNeighbor_call some_, found, Text.upper_upper]

theorem words_extendedPath {path call word : Text}
    (listed : word ∈ Text.words (Text.upper path)) :
    word ∈ Text.words (Text.upper (BBSStore.extendedPath path call)) := by
  rw [Text.words_upper] at listed ⊢
  obtain ⟨kept, among, rfl⟩ := List.mem_map.mp listed
  refine List.mem_map_of_mem ?_
  rw [BBSStore.extendedPath]
  split
  · rename_i empty
    rw [empty] at among
    cases among
  · rw [Text.words_strip, List.append_assoc, List.singleton_append,
      Text.words_append _ (by decide)]
    exact List.mem_append_left _ among

/-- The name stands in the path of the message. -/
def Marked (store : BBSStore) (name : Text) (id : Nat) : Prop :=
  id ≤ store.sequence ∧ ∀ row ∈ store.messages, row.id = id →
    name ∈ Text.words (Text.upper row.forwardPath)

/-- What holds of a session with another node. -/
structure Faithful (neighbors : List Neighbor) (store : BBSStore) (link : Link) : Prop where
  known : Text.upper link.session.neighbor.call = key neighbors link.inbound link.remote
  word : Text.OneWord link.session.neighbor.call
  marked : ∀ id ∈ link.session.received, Marked store (key neighbors link.inbound link.remote) id

/-- The invariant of a node's runs. -/
structure Kept (neighbors : List Neighbor) (station : Station) : Prop where
  faithful : ∀ link ∈ station.links, Faithful neighbors station.store link
  single : ∀ link ∈ station.links, ∀ other ∈ station.links, SameNode link.remote other.remote →
    link.inbound = other.inbound ∨ Sid.Callsign other.remote

variable {station next : Station} {event : Event}

theorem callsign_congr {one other : Text} (same : SameNode one other)
    (plain : Sid.Callsign one) : Sid.Callsign other := by
  refine ⟨fun empty => plain.1 ?_, same ▸ plain.2⟩
  rw [empty] at same
  exact List.map_eq_nil_iff.mp same

theorem Kept.neverBack (kept : Kept neighbors station) : station.NeverBack := by
  intro link listed other among same _ row selected received
  have names : key neighbors other.inbound other.remote = key neighbors link.inbound link.remote := by
    rw [key_congr same]
    rcases kept.single link listed other among same with ends | plain
    · rw [ends]
    · rw [key_callsign plain, key_callsign plain]
  obtain ⟨among', chosen⟩ := List.mem_filter.mp selected
  have path := ((kept.faithful other among).marked row.id received).2 row
    (List.mem_filter.mp among').1 rfl
  rw [names, ← (kept.faithful link listed).known] at path
  simp only [selects, if_pos path, ite_self] at chosen
  cases chosen

/-- A step of any session keeps the marks of all messages. -/
theorem Marked.effect {store after : BBSStore} {session moved : ForwardSession} {name : Text}
    {id : Nat} (marked : Marked store name id)
    (effect : ForwardSession.Effect store after session moved) : Marked after name id := by
  obtain ⟨issued, path⟩ := marked
  refine ⟨(effect.row issued).1, fun row listed same => ?_⟩
  obtain ⟨old, stored, known, kept | ⟨call, longer⟩⟩ := effect.path (same ▸ issued) listed
  · rw [kept]
    exact path old stored (known.trans same)
  · rw [longer]
    exact words_extendedPath (path old stored (known.trans same))

theorem Marked.insert {store : BBSStore} {name : Text} {id : Nat} (marked : Marked store name id)
    (msg : Message) : Marked (store.insertMessage msg statusNew).1 name id := by
  obtain ⟨issued, path⟩ := marked
  by_cases fresh : store.hasBid msg.bid = false
  · obtain ⟨inserted, messages, sequence, placed⟩ := BBSStore.insertMessage_fresh statusNew fresh
    rw [placed]
    refine ⟨by rw [sequence]; omega, fun row listed same => ?_⟩
    rw [messages, List.mem_append, List.mem_singleton] at listed
    rcases listed with listed | new
    · exact path row listed same
    · rw [new] at same
      have known : store.sequence + 1 = id := same
      omega
  · rw [BBSStore.insertMessage, dif_neg fresh]
    exact ⟨Nat.le_succ_of_le issued, path⟩

/-- A message that comes in is marked with the name of the session it comes from. -/
theorem Faithful.step {store after : BBSStore} {link : Link} {moved : ForwardSession}
    (faithful : Faithful neighbors store link)
    (ends : ForwardSession.SameEnds link.session moved)
    (effect : ForwardSession.Effect store after link.session moved) :
    Faithful neighbors after { link with session := moved } := by
  refine ⟨ends.neighbor ▸ faithful.known, ends.neighbor ▸ faithful.word, fun id received => ?_⟩
  have old (listed : id ∈ link.session.received) := (faithful.marked id listed).effect effect
  cases effect with
  | quiet _ _ same => exact old (same ▸ received)
  | sent _ _ _ _ _ _ same => exact old (same ▸ received)
  | received msg inserted messages sequence wrote _ same =>
      rw [same, List.mem_append, List.mem_singleton] at received
      rcases received with listed | rfl
      · exact old listed
      · subst wrote
        refine ⟨Nat.le_of_eq sequence.symm, fun row listed known => ?_⟩
        obtain ⟨fresh, among, number, rfl⟩ := BBSStore.mem_appendForwardPath_id listed known
        rw [messages, List.mem_append, List.mem_singleton] at among
        rcases among with stored | new
        · have issued := store.issued fresh stored
          omega
        · have path : fresh.forwardPath = [] := by rw [new]; rfl
          rw [BBSStore.extendedPath, if_pos path, Text.words_word faithful.word.upper,
            faithful.known]
          exact List.mem_cons_self

/-- Other sessions only see a store in which all marks are kept. -/
theorem Faithful.store {store after : BBSStore} {link : Link}
    (faithful : Faithful neighbors store link)
    (kept : ∀ name id, Marked store name id → Marked after name id) :
    Faithful neighbors after link :=
  ⟨faithful.known, faithful.word, fun id received => kept _ id (faithful.marked id received)⟩

theorem kept_start (store : BBSStore) : Kept neighbors (start store) :=
  ⟨fun _ listed => absurd listed List.not_mem_nil, fun _ listed => absurd listed List.not_mem_nil⟩

/-- A session in place of an earlier state of itself. -/
theorem Kept.set (kept : Kept neighbors station) {i : Nat} {link : Link} {store : BBSStore}
    {session : ForwardSession} (found : station.links[i]? = some link)
    (faithful : Faithful neighbors store { link with session })
    (marks : ∀ name id, Marked station.store name id → Marked store name id) :
    Kept neighbors { store, links := station.links.set i { link with session } } := by
  have member := List.mem_of_getElem? found
  have cases_ {other : Link} (listed : other ∈ station.links.set i { link with session }) :
      other ∈ station.links ∨ other = { link with session } := by
    exact List.mem_or_eq_of_mem_set listed
  constructor
  · intro other listed
    rcases cases_ listed with old | rfl
    · exact (kept.faithful other old).store marks
    · exact faithful
  · intro one listed other among same
    rcases cases_ listed with old | rfl <;> rcases cases_ among with older | rfl
    · exact kept.single one old other older same
    · exact kept.single one old link member same
    · exact kept.single link member other older same
    · exact .inl rfl

/-- A new session. -/
theorem Kept.open (kept : Kept neighbors station) {link : Link}
    (faithful : Faithful neighbors station.store link)
    (single : ∀ other ∈ station.links, SameNode other.remote link.remote →
      other.inbound = link.inbound ∨ Sid.Callsign link.remote) :
    Kept neighbors { station with links := station.links ++ [link] } := by
  have cases_ {other : Link} (listed : other ∈ station.links ++ [link]) :
      other ∈ station.links ∨ other = link := by
    simpa using listed
  constructor
  · intro other listed
    rcases cases_ listed with old | rfl
    · exact kept.faithful other old
    · exact faithful
  · intro one listed other among same
    rcases cases_ listed with old | rfl <;> rcases cases_ among with older | rfl
    · exact kept.single one old other older same
    · exact single one old same
    · rcases single other older same.symm with ends | plain
      · exact .inl ends.symm
      · exact .inr (callsign_congr same plain)
    · exact .inl rfl

theorem Kept.step (kept : Kept neighbors station)
    (words : ∀ neighbor ∈ neighbors, Text.OneWord neighbor.call)
    (one : OneName neighbors station event)
    (stepped : Station.step codec nodeCall neighbors station event = some next) :
    Kept neighbors next := by
  cases event with
  | inbound remote =>
      simp only [Station.step] at stepped
      split at stepped
      · cases stepped
      · cases stepped
        refine kept.open ⟨rfl, inboundNeighbor_word words _, nofun⟩ fun other listed same => ?_
        exact one.symm.imp_left fun ends => ends other listed same
  | outbound entry =>
      obtain ⟨neighbor, found, stepped⟩ := Option.bind_eq_some_iff.mp stepped
      split at stepped
      · cases stepped
        refine kept.open ⟨rfl, words neighbor (List.mem_of_getElem? found), nofun⟩
          fun other listed same => ?_
        exact (one neighbor found).symm.imp_left fun ends => Bool.not_eq_true _ ▸ ends other listed same
      · cases stepped
  | arrive i data =>
      obtain ⟨link, found, rfl⟩ := Option.map_eq_some_iff.mp stepped
      have faithful := kept.faithful link (List.mem_of_getElem? found)
      exact kept.set found ⟨faithful.known, faithful.word, faithful.marked⟩ fun _ _ marked => marked
  | advance i now silence =>
      obtain ⟨link, found, stepped⟩ := Option.bind_eq_some_iff.mp stepped
      obtain ⟨⟨store, session⟩, moved, rfl⟩ := Option.map_eq_some_iff.mp stepped
      obtain ⟨ends, effect⟩ := ForwardSession.step_effect moved
      have faithful := kept.faithful link (List.mem_of_getElem? found)
      exact kept.set found (faithful.step ends effect) fun _ _ marked => marked.effect effect
  | post msg =>
      cases stepped
      exact ⟨fun link listed => (kept.faithful link listed).store fun _ _ marked => marked.insert msg,
        kept.single⟩

/-- Where each node is met under one name, no message goes back where it came from. -/
theorem run_neverBack (words : ∀ neighbor ∈ neighbors, Text.OneWord neighbor.call)
    {store : BBSStore} {events : List Event}
    (one : EveryStep (step codec nodeCall neighbors) (OneName neighbors) (start store) events)
    (completed : run (step codec nodeCall neighbors) (start store) events = some station) :
    station.NeverBack :=
  (run_preserves_of_everyStep (fun _ _ _ kept holds stepped => Kept.step kept words holds stepped)
    (kept_start store) one completed).neverBack

def advances (link steps : Nat) : List Event :=
  List.replicate steps (.advance link ⟨2026, 1, 1, 0, 0, 0⟩ .live)

/-- The node calls and hands over a bulletin; then it is called, up to the selection. -/
def bothEnds (remote : Text) : List Event :=
  [.inbound remote, .arrive 0 (lineBytes "FS " ++
      lineBytes "FB WW N0FAR 7_N0FAR 5 2026/01/01 10:00 Hello" ++ lineBytes "FF" ++
      lineBytes "F+ 5" ++ encodeAscii "Hello")] ++ advances 0 14 ++
    [.outbound 0, .arrive 1 (sidLine remote ++ lineBytes ">")] ++ advances 1 3

/-- Without an SSID the bulletin is not selected for the node it came from. -/
theorem bothEnds_callsign : ∃ station,
    run (step bareCodec "N0AAA" [{ call := "N0BBB" }]) (start .empty) (bothEnds "N0BBB") =
      some station ∧ station.NeverBack := by
  have ends : (run (step bareCodec "N0AAA" [{ call := "N0BBB" }]) (start .empty)
      (bothEnds "N0BBB")).isSome := by
    decide +kernel
  obtain ⟨station, completed⟩ := Option.isSome_iff_exists.mp ends
  exact ⟨station, completed, run_neverBack (by decide) (by decide +kernel) completed⟩

/-- With an SSID it is. -/
theorem bothEnds_ssid :
    ¬ ∀ (codec : Codec) (nodeCall : Text) (neighbors : List Neighbor) (store : BBSStore)
      (events : List Event) (station : Station),
      (∀ neighbor ∈ neighbors, Text.OneWord neighbor.call) →
      run (step codec nodeCall neighbors) (start store) events = some station →
        station.NeverBack := by
  intro never
  have ends : (run (step bareCodec "N0AAA" [{ call := "N0BBB-1" }]) (start .empty)
      (bothEnds "N0BBB-1")).map (fun station => decide station.NeverBack) = some false := by
    decide +kernel
  obtain ⟨station, completed, back⟩ := Option.map_eq_some_iff.mp ends
  exact of_decide_eq_false back (never _ _ _ _ _ station (by decide) completed)

end Station

end PyBulletin.Forward
