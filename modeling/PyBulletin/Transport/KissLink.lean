import PyBulletin.Ax25.Arrival
import PyBulletin.Ax25.WireFrames
import PyBulletin.Transport.KissReads

set_option autoImplicit false

namespace PyBulletin.Transport.KissLink

open PyBulletin.Foundation
open PyBulletin.Ax25 (AX25Connection AX25Frame AX25Address Link LinkEvent Side)

/-! # Two connections over KISS byte streams

Each node writes its frames as KISS bytes to a stream and reads the other node's stream in
pieces of any size.  The frames of one piece are delivered one by one, with other events
between them.
-/

def cmdData : UInt8 := 0

/-- A node: its connection, the port it sends on, and the read loop with its buffer and the
frames of the last read that are still to be delivered.  `_READ_CHUNK` is 512 on a serial line
and 4096 on TCP. -/
structure Node where
  conn : AX25Connection
  port : UInt8
  readChunk : Nat
  buf : Bytes := []
  pending : List Kiss.Frame := []

/-- `ab` and `ba` are the bytes written and not yet read. -/
structure Line where
  a : Node
  b : Node
  ab : Bytes := []
  ba : Bytes := []
  writtenA : Bytes := []
  writtenB : Bytes := []

inductive LineEvent where
  | write (data : Bytes)
  | read (count : Nat)
  | deliver
  | t1Expire
  | t3Expire

/-- `send_frame`, frame after frame. -/
def frameBytes (port : UInt8) (frames : List AX25Frame) : Bytes :=
  frames.flatMap fun frame => Kiss.encode frame.encode port cmdData

namespace Line

variable (line : Line)

def swap : Line :=
  { a := line.b, b := line.a, ab := line.ba, ba := line.ab
    writtenA := line.writtenB, writtenB := line.writtenA }

/-- The frames handed to `send_frame_cb` are written in order. -/
def settle (conn : AX25Connection) : Line :=
  { line with
    a := { line.a with conn := { conn with sent := [] } }
    ab := line.ab ++ frameBytes line.a.port conn.sent }

def handle (event : AX25Connection.Event) : Option Line := (line.a.conn.step event).map line.settle

/-- `_deliver`: a frame that cannot be decoded is logged. -/
def deliver (data : Bytes) : Option Line :=
  match AX25Frame.decode data with
  | .ok frame => line.handle (.receive frame)
  | .error _ => some line

/-- An event at node A.  A read takes what has come, up to `_READ_CHUNK` bytes, once the frames
of the read before are delivered. -/
def stepA : LineEvent → Option Line
  | .write data => { line with writtenA := line.writtenA ++ data }.handle (.write data)
  | .read count =>
      if line.a.pending ≠ [] ∨ count = 0 ∨ line.a.readChunk < count ∨
          line.ba.length < count then none
      else
        let (frames, left) := Kiss.decodeStream (line.a.buf ++ line.ba.take count)
        some { line with
          a := { line.a with buf := left, pending := frames }
          ba := line.ba.drop count }
  | .deliver =>
      match line.a.pending with
      | [] => none
      | (_, cmd, data) :: rest =>
          let line := { line with a := { line.a with pending := rest } }
          if cmd = cmdData ∧ data ≠ [] then line.deliver data else some line
  | .t1Expire => line.handle .t1Expire
  | .t3Expire => line.handle .t3Expire

def step (line : Line) : Side × LineEvent → Option Line
  | (.a, event) => line.stepA event
  | (.b, event) => (line.swap.stepA event).map swap

end Line

def kissFrame (port : UInt8) (frame : AX25Frame) : Kiss.Frame := (port, cmdData, frame.encode)

theorem frameBytes_eq (port : UInt8) (frames : List AX25Frame) :
    frameBytes port frames = Kiss.written (frames.map (kissFrame port)) := by
  rw [frameBytes, Kiss.written, List.flatMap_map]
  rfl

/-- What a node reads of the frames in the channel: those of the last read, then some that the
end of a read has cut, then those still in the stream. -/
structure Inbound (port : UInt8) (channel : List AX25Frame) (node : Node) (bytes : Bytes) : Prop where
  split : ∃ ready cut later rest, channel = ready ++ (cut ++ later) ∧
    node.pending = ready.map (kissFrame port) ∧ Kiss.Rest rest ∧
    bytes = rest ++ Kiss.written (later.map (kissFrame port))
  clean : Kiss.fend ∉ node.buf
  regular : ∀ frame ∈ channel, frame.Regular

/-- A connection between stations whose calls fit an address field. -/
def Speaks (conn : AX25Connection) : Prop :=
  ∃ dest src : AX25Address, conn.Fluent dest src ∧ dest.Regular ∧ src.Regular

/-- A port a KISS type byte can carry.  The type byte of a data frame for port 12 is FEND. -/
def Usable (port : UInt8) : Prop := port < 16 ∧ port ≠ 12

/-- The line does what the link does, which loses the frames that a read has cut. -/
structure Follows (line : Line) (link : Link) : Prop where
  a : link.a = line.a.conn
  b : link.b = line.b.conn
  writtenA : link.writtenA = line.writtenA
  writtenB : link.writtenB = line.writtenB
  ab : Inbound line.a.port link.ab line.b line.ab
  ba : Inbound line.b.port link.ba line.a line.ba
  speaksA : Speaks line.a.conn
  speaksB : Speaks line.b.conn
  portA : Usable line.a.port
  portB : Usable line.b.port
  drainedA : line.a.conn.sent = []
  drainedB : line.b.conn.sent = []

variable {line next start final : Line} {link : Link}

theorem Follows.swap (follows : Follows line link) : Follows line.swap link.swap where
  a := follows.b
  b := follows.a
  writtenA := follows.writtenB
  writtenB := follows.writtenA
  ab := follows.ba
  ba := follows.ab
  speaksA := follows.speaksB
  speaksB := follows.speaksA
  portA := follows.portB
  portB := follows.portA
  drainedA := follows.drainedB
  drainedB := follows.drainedA

theorem Usable.framed {port : UInt8} (usable : Usable port) (frame : AX25Frame) :
    Kiss.Framed (kissFrame port frame) :=
  ⟨usable.1, (by decide : cmdData < 16), fun swallowed => usable.2 swallowed.1⟩

theorem Speaks.step {conn next : AX25Connection} {event : AX25Connection.Event}
    (speaks : Speaks conn) (stepped : conn.step event = some next) : Speaks next := by
  obtain ⟨dest, src, fluent, destRegular, srcRegular⟩ := speaks
  exact ⟨dest, src, fluent.step stepped, destRegular, srcRegular⟩

theorem Speaks.regular {conn : AX25Connection} (speaks : Speaks conn) :
    ∀ frame ∈ conn.sent, frame.Regular := by
  obtain ⟨dest, src, fluent, destRegular, srcRegular⟩ := speaks
  exact fun frame listed => (fluent.sent frame listed).regular destRegular srcRegular

/-- Frames sent go behind what the other node has still to read. -/
theorem Inbound.send {port : UInt8} {channel sent : List AX25Frame} {node : Node} {bytes : Bytes}
    (inbound : Inbound port channel node bytes) (regular : ∀ frame ∈ sent, frame.Regular) :
    Inbound port (channel ++ sent) node (bytes ++ frameBytes port sent) where
  split := by
    obtain ⟨ready, cut, later, rest, rfl, pending, partial_, rfl⟩ := inbound.split
    refine ⟨ready, cut, later ++ sent, rest, by simp, pending, partial_, ?_⟩
    rw [frameBytes_eq, List.append_assoc, List.map_append, Kiss.written, Kiss.written, Kiss.written,
      List.flatMap_append]
  clean := inbound.clean
  regular := by
    intro frame listed
    rcases List.mem_append.mp listed with before | new
    · exact inbound.regular frame before
    · exact regular frame new

/-- An event of the connection at A, with the channel to it as that event leaves it. -/
theorem Follows.settle {node : Node} {bytes : Bytes} {channel : List AX25Frame}
    {conn : AX25Connection} {event : AX25Connection.Event} (follows : Follows line link)
    (written : Bytes) (same : node.conn = line.a.conn) (port : node.port = line.a.port)
    (inbound : Inbound line.b.port channel node bytes)
    (stepped : node.conn.step event = some conn) :
    Follows ({ line with a := node, ba := bytes, writtenA := written }.settle conn)
      ({ link with ba := channel, writtenA := written }.settle conn) where
  a := rfl
  b := follows.b
  writtenA := rfl
  writtenB := follows.writtenB
  ab := by
    have speaks := (same ▸ follows.speaksA : Speaks node.conn).step stepped
    have sent := follows.ab.send speaks.regular
    rw [← port] at sent
    exact ⟨sent.split, sent.clean, sent.regular⟩
  ba := ⟨inbound.split, inbound.clean, inbound.regular⟩
  speaksA := by
    obtain ⟨dest, src, fluent, destRegular, srcRegular⟩ :=
      (same ▸ follows.speaksA : Speaks node.conn).step stepped
    exact ⟨dest, src,
      ⟨fluent.toward, fluent.away, fun frame listed => absurd listed List.not_mem_nil, fluent.kept⟩,
      destRegular, srcRegular⟩
  speaksB := follows.speaksB
  portA := port ▸ follows.portA
  portB := follows.portB
  drainedA := rfl
  drainedB := follows.drainedB

/-- Some events at A take the link to where the line follows it. -/
def Matched (link : Link) (next : Line) : Prop :=
  ∃ (events : List LinkEvent) (after : Link),
    run Link.step link (events.map fun event => (Side.a, event)) = some after ∧ Follows next after

theorem Matched.one (event : LinkEvent) {after : Link} (stepped : link.stepA event = some after)
    (follows : Follows next after) : Matched link next :=
  ⟨[event], after, by simp [run, Link.step, stepped], follows⟩

/-- The frames that a read has cut are lost. -/
theorem run_lose {cut later : List AX25Frame} (channel : link.ba = cut ++ later) :
    run Link.step link ((cut.map fun _ => LinkEvent.lose).map fun event => (Side.a, event)) =
      some { link with ba := later } := by
  induction cut generalizing link with
  | nil =>
      have same : { link with ba := later } = link := by rw [show later = link.ba from channel.symm]
      rw [same]
      rfl
  | cons frame cut ih =>
      have stepped : link.step (.a, .lose) = some { link with ba := cut ++ later } := by
        simp [Link.step, Link.stepA, channel]
      rw [List.map_cons, List.map_cons, run, stepped]
      exact ih rfl

theorem Follows.read {count : Nat} (follows : Follows line link)
    (stepped : line.stepA (.read count) = some next) : Matched link next := by
  simp only [Line.stepA] at stepped
  split at stepped
  · cases stepped
  next ready =>
    simp only [not_or, not_not] at ready
    obtain ⟨none, cut, later, rest, channel, pending, partial_, bytes⟩ := follows.ba.split
    rw [ready.1] at pending
    have empty := List.map_eq_nil_iff.mp pending.symm
    subst empty
    have framed : ∀ frame ∈ later.map (kissFrame line.b.port), Kiss.Framed frame := by
      intro frame listed
      obtain ⟨sent, _, rfl⟩ := List.mem_map.mp listed
      exact follows.portB.framed sent
    obtain ⟨read, lost, after, left, cuts, yields⟩ := Kiss.read_cut partial_ framed count
    obtain ⟨delivered, more, rfl, read_, behind⟩ := List.map_eq_append_iff.mp cuts.split
    obtain ⟨missing, still, rfl, lost_, after_⟩ := List.map_eq_append_iff.mp behind
    obtain ⟨frames, clean⟩ := Kiss.decodeStream_clean follows.ba.clean (line.ba.take count)
    cases stepped
    refine ⟨cut.map fun _ => .lose, _, run_lose channel, ?_⟩
    refine { follows with
      ba := ⟨⟨delivered, missing, still, left, rfl, ?_, cuts.partial_, ?_⟩, clean, ?_⟩ }
    · rw [frames, bytes, yields, ← read_]
    · rw [bytes, cuts.left, ← after_]
    · intro frame listed
      exact follows.ba.regular frame (by rw [channel]; simp [listed])

theorem Follows.deliver (follows : Follows line link) (stepped : line.stepA .deliver = some next) :
    Matched link next := by
  obtain ⟨ready, cut, later, rest, channel, pending, partial_, bytes⟩ := follows.ba.split
  cases ready with
  | nil =>
      simp only [List.map_nil] at pending
      simp [Line.stepA, pending] at stepped
  | cons frame ready =>
      rw [List.map_cons] at pending
      have regular := follows.ba.regular frame (by simp [channel])
      have long := AX25Frame.encode_length frame
      have some_ : frame.encode ≠ [] := fun nothing => by simp [nothing] at long
      simp only [Line.stepA, pending, kissFrame, some_, ne_eq, not_false_eq_true, and_self, if_true,
        Line.deliver, AX25Frame.decode_encode_marked regular, Line.handle] at stepped
      obtain ⟨conn, moved, rfl⟩ := Option.map_eq_some_iff.mp stepped
      have inbound : Inbound line.b.port (ready ++ (cut ++ later))
          { line.a with pending := ready.map (kissFrame line.b.port) } line.ba := by
        refine ⟨⟨ready, cut, later, rest, rfl, rfl, partial_, bytes⟩, follows.ba.clean, ?_⟩
        intro other listed
        apply follows.ba.regular other
        rw [channel]
        exact List.mem_cons_of_mem _ listed
      have same : line.a.conn.step (.receive frame) = some conn := by
        rw [← moved]
        exact congrArg some (AX25Connection.handleFrame_congr line.a.conn
          (AX25Frame.control_marked frame).symm (AX25Frame.info_marked frame).symm)
      refine .one .deliver ?_ (follows.settle line.writtenA rfl rfl inbound moved)
      simp only [Link.stepA, channel, List.cons_append, follows.a, same, Option.map_some]
      rw [follows.writtenA]

theorem Follows.stepA {event : LineEvent} (follows : Follows line link)
    (stepped : line.stepA event = some next) : Matched link next := by
  cases event with
  | write data =>
      simp only [Line.stepA, Line.handle] at stepped
      obtain ⟨conn, moved, rfl⟩ := Option.map_eq_some_iff.mp stepped
      refine .one (.write data) ?_
        (follows.settle (line.writtenA ++ data) rfl rfl follows.ba moved)
      simp only [Link.stepA, follows.a, moved, follows.writtenA, Option.map_some]
  | read count => exact follows.read stepped
  | deliver => exact follows.deliver stepped
  | t1Expire =>
      obtain ⟨conn, moved, rfl⟩ := Option.map_eq_some_iff.mp stepped
      refine .one .t1Expire ?_ (follows.settle line.writtenA rfl rfl follows.ba moved)
      simp only [Link.stepA, follows.a, moved, Option.map_some, ← follows.writtenA]
      rfl
  | t3Expire =>
      obtain ⟨conn, moved, rfl⟩ := Option.map_eq_some_iff.mp stepped
      refine .one .t3Expire ?_ (follows.settle line.writtenA rfl rfl follows.ba moved)
      simp only [Link.stepA, follows.a, moved, Option.map_some, ← follows.writtenA]
      rfl

/-- A run at A of the link is one at B of the link with its ends exchanged. -/
theorem run_swapped {events : List LinkEvent} {after : Link}
    (completed : run Link.step link.swap (events.map fun event => (Side.a, event)) = some after) :
    run Link.step link (events.map fun event => (Side.b, event)) = some after.swap := by
  induction events generalizing link with
  | nil =>
      cases completed
      rfl
  | cons event events ih =>
      obtain ⟨next, stepped, rest⟩ := run_cons completed
      have moved : link.step (.b, event) = some next.swap := by
        simp only [Link.step] at stepped ⊢
        rw [stepped]
        rfl
      rw [List.map_cons, run, moved]
      exact @ih next.swap rest

theorem Follows.step {event : Side × LineEvent} (follows : Follows line link)
    (stepped : line.step event = some next) :
    ∃ events after, run Link.step link events = some after ∧ Follows next after := by
  obtain ⟨side, event⟩ := event
  cases side with
  | a =>
      obtain ⟨events, after, completed, later⟩ := follows.stepA stepped
      exact ⟨_, after, completed, later⟩
  | b =>
      obtain ⟨swapped, moved, rfl⟩ := Option.map_eq_some_iff.mp stepped
      obtain ⟨events, after, completed, later⟩ := follows.swap.stepA moved
      exact ⟨_, after.swap, run_swapped completed, later.swap⟩

theorem Follows.run {events : List (Side × LineEvent)} (follows : Follows line link)
    (completed : run Line.step line events = some final) :
    ∃ frames after, Foundation.run Link.step link frames = some after ∧ Follows final after := by
  induction events generalizing line link with
  | nil =>
      cases completed
      exact ⟨[], link, rfl, follows⟩
  | cons event events ih =>
      obtain ⟨next, stepped, rest⟩ := run_cons completed
      obtain ⟨first, middle, moved, later⟩ := follows.step stepped
      obtain ⟨second, after, completed, last⟩ := ih later rest
      refine ⟨first ++ second, after, ?_, last⟩
      rw [run_split, moved]
      exact completed

/-- The frame-level link the line starts as. -/
def Line.ends (line : Line) : Link :=
  { a := line.a.conn, b := line.b.conn, writtenA := line.writtenA, writtenB := line.writtenB }

/-- Nothing sent, nothing in the streams or the buffers, on usable ports. -/
structure Fresh (node : Node) : Prop where
  speaks : Speaks node.conn
  port : Usable node.port
  sent : node.conn.sent = []
  buf : node.buf = []
  pending : node.pending = []

theorem Inbound.empty {port : UInt8} {node : Node} (fresh : Fresh node) : Inbound port [] node [] where
  split := ⟨[], [], [], [], rfl, by rw [fresh.pending]; rfl, .inl rfl, rfl⟩
  clean := by
    rw [fresh.buf]
    exact List.not_mem_nil
  regular := fun _ listed => absurd listed List.not_mem_nil

theorem Follows.initially (freshA : Fresh start.a) (freshB : Fresh start.b) (ab : start.ab = [])
    (ba : start.ba = []) : Follows start start.ends where
  a := rfl
  b := rfl
  writtenA := rfl
  writtenB := rfl
  ab := by
    rw [ab]
    exact .empty freshB
  ba := by
    rw [ba]
    exact .empty freshA
  speaksA := freshA.speaks
  speaksB := freshB.speaks
  portA := freshA.port
  portB := freshB.port
  drainedA := freshA.sent
  drainedB := freshB.sent

/-- The link that the line follows is one of connections that are synchronised. -/
theorem follows_synced {events : List (Side × LineEvent)} (initial : start.ends.Initial)
    (freshA : Fresh start.a) (freshB : Fresh start.b) (ab : start.ab = []) (ba : start.ba = [])
    (completed : run Line.step start events = some final) :
    ∃ frames after, run Link.step start.ends frames = some after ∧ Follows final after ∧
      after.Synced := by
  obtain ⟨frames, after, ran, follows⟩ := (Follows.initially freshA freshB ab ba).run completed
  exact ⟨frames, after, ran, follows, Link.run_synced initial ran⟩

theorem Follows.received (follows : Follows line link) (synced : link.Synced) :
    Link.received line.b.conn <+: line.writtenA := by
  have received := synced.received
  rw [follows.b, follows.writtenA] at received
  exact received

/-- However the bytes are cut into reads, the two nodes do what two connections over FIFO
channels that lose frames do; so neither receives anything but a prefix of what the other has
written, and each can tell where all its bytes are. -/
theorem line_received_prefix {events : List (Side × LineEvent)} (initial : start.ends.Initial)
    (freshA : Fresh start.a) (freshB : Fresh start.b) (ab : start.ab = []) (ba : start.ba = [])
    (completed : run Line.step start events = some final) :
    ∃ frames after, run Link.step start.ends frames = some after ∧
      after.a = final.a.conn ∧ after.b = final.b.conn ∧
      Link.received final.b.conn <+: final.writtenA ∧
      Link.received final.a.conn <+: final.writtenB ∧
      after.Accounted ∧ after.swap.Accounted := by
  obtain ⟨frames, after, ran, follows, synced⟩ :=
    follows_synced initial freshA freshB ab ba completed
  obtain ⟨abstract, refines⟩ := synced
  obtain ⟨mirrored, swapped⟩ := Link.Synced.swap ⟨abstract, refines⟩
  exact ⟨frames, after, ran, follows.a, follows.b, follows.received ⟨abstract, refines⟩,
    follows.swap.received ⟨mirrored, swapped⟩, refines.accounted, swapped.accounted⟩

def station (localAddr remoteAddr : AX25Address) : Node :=
  { conn := { AX25Connection.init localAddr remoteAddr 2 with state := .connected, t3Armed := true }
    port := 0, readChunk := 512 }

def stations : Line :=
  { a := station { callsign := "N0A" } { callsign := "N0B" }
    b := station { callsign := "N0B" } { callsign := "N0A" } }

theorem station_fresh {localAddr remoteAddr : AX25Address} (near : localAddr.Regular)
    (far : remoteAddr.Regular) : Fresh (station localAddr remoteAddr) :=
  ⟨⟨_, _, ⟨rfl, rfl, fun _ listed => absurd listed List.not_mem_nil, fun _ _ found => by cases found⟩,
    ⟨far.chars, far.short, far.ssid⟩, ⟨near.chars, near.short, near.ssid⟩⟩,
    ⟨(by decide : (0 : UInt8) < 16), (by decide : (0 : UInt8) ≠ 12)⟩, rfl, rfl, rfl⟩

theorem stations_fresh : Fresh stations.a ∧ Fresh stations.b := by
  have regularA : ({ callsign := "N0A" } : AX25Address).Regular := ⟨rfl, by decide, by decide⟩
  have regularB : ({ callsign := "N0B" } : AX25Address).Regular := ⟨rfl, by decide, by decide⟩
  exact ⟨station_fresh regularA regularB, station_fresh regularB regularA⟩

theorem stations_initial : stations.ends.Initial :=
  ⟨⟨rfl, rfl, rfl, rfl, rfl, rfl, rfl⟩, ⟨rfl, rfl, rfl, rfl, rfl, rfl, rfl⟩, rfl, rfl, rfl, rfl⟩

/-- A frame that is read whole is the next to be delivered. -/
theorem read_one {line : Line} {frame : Kiss.Frame} {count : Nat} (framed : Kiss.Framed frame)
    (ready : line.b.pending = [] ∧ line.b.buf = []) (bytes : line.ab = Kiss.written [frame])
    (length : count = (Kiss.written [frame]).length) (some_ : 0 < count)
    (fits : count ≤ line.b.readChunk) :
    ∃ buf, line.step (.b, .read count) =
      some { line with b := { line.b with buf, pending := [frame] }, ab := [] } := by
  have read := (@Kiss.decodeStream_clean [] List.not_mem_nil (Kiss.written [frame])).1
  rw [Kiss.run_one framed, List.nil_append] at read
  have enabled : ¬ (line.swap.a.pending ≠ [] ∨ count = 0 ∨ line.swap.a.readChunk < count ∨
      line.swap.ba.length < count) := by
    rintro (busy | none | large | short)
    · exact busy ready.1
    · omega
    · exact absurd large (Nat.not_lt.mpr fits)
    · rw [Line.swap, bytes, length] at short
      exact Nat.lt_irrefl _ short
  refine ⟨(Kiss.decodeStream (Kiss.written [frame])).2, ?_⟩
  rw [Line.step, Line.stepA, if_neg enabled]
  simp only [Line.swap, ready.2, bytes, List.nil_append, length, List.take_length, List.drop_length,
    read, Option.map_some]

private def wrote : Line := (stations.step (.a, .write [7])).getD stations

/-- The one frame that carries the byte. -/
private def carried : Kiss.Frame :=
  kissFrame 0 (.iframe { callsign := "N0B" } { callsign := "N0A" } 0 0 [7])

private def reading : List (Side × LineEvent) := [(.a, .write [7]), (.b, .read 20), (.b, .deliver)]

theorem line_received_prefix_reading :
    ∃ final, run Line.step stations reading = some final ∧
      Link.received final.b.conn = [7] ∧ Link.received final.b.conn <+: final.writtenA := by
  obtain ⟨freshA, freshB⟩ := stations_fresh
  obtain ⟨final, completed, received⟩ : ∃ final, run Line.step stations reading = some final ∧
      Link.received final.b.conn = [7] := by
    have first : stations.step (.a, .write [7]) = some wrote := rfl
    obtain ⟨buf, second⟩ := @read_one wrote carried 20 ⟨by decide, by decide, by decide⟩ ⟨rfl, rfl⟩
      (by decide) (by decide) (by decide) (by decide)
    rw [reading, run, first]
    dsimp only
    rw [run, second]
    exact ⟨_, rfl, rfl⟩
  obtain ⟨_, _, _, _, _, prefixed, _⟩ :=
    line_received_prefix stations_initial freshA freshB rfl rfl completed
  exact ⟨final, completed, received, prefixed⟩

end PyBulletin.Transport.KissLink
