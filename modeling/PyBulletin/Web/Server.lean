import PyBulletin.Foundation.Utf8
import PyBulletin.Web.Sessions

set_option autoImplicit false

namespace PyBulletin.Web

open PyBulletin.Foundation

/-- `_MAX_BODY` -/
def maxBody : Nat := 256 * 1024

/-- The limit of an `asyncio.StreamReader`. -/
def lineLimit : Nat := 65536

/-- What a reader gets: the bytes that arrive before the connection breaks or a wait for
more of them runs out, and whether the peer has ended the stream behind them. -/
structure Stream where
  arrived : Bytes
  closed : Bool

namespace Stream

variable (s : Stream)

def advance (n : Nat) : Stream := { s with arrived := s.arrived.drop n }

/-- `reader.readline()`; `none` where it raises or the wait runs out. -/
def readline : Option (Bytes × Stream) :=
  let line := s.arrived.takeWhile (· ≠ 10)
  if lineLimit < line.length then none
  else
    match s.arrived.dropWhile (· ≠ 10) with
    | newline :: rest => some (line ++ [newline], { s with arrived := rest })
    | [] => if s.closed then some (line, { s with arrived := [] }) else none

/-- `reader.readexactly(n)` -/
def readexactly (n : Nat) : Option (Bytes × Stream) :=
  if n ≤ s.arrived.length then some (s.arrived.take n, s.advance n) else none

@[simp] theorem arrived_advance (n : Nat) : (s.advance n).arrived = s.arrived.drop n := rfl

@[simp] theorem closed_advance (n : Nat) : (s.advance n).closed = s.closed := rfl

theorem advance_advance (m n : Nat) : (s.advance m).advance n = s.advance (m + n) := by
  simp [advance, List.drop_drop]

variable {s} {line : Bytes} {rest : Stream}

/-- `readline` leaves what is behind the line. -/
theorem readline_split (read : s.readline = some (line, rest)) :
    s.arrived = line ++ rest.arrived := by
  have split := List.takeWhile_append_dropWhile (p := (· ≠ 10)) (l := s.arrived)
  simp only [readline] at read
  split at read
  · cases read
  · split at read
    · next newline behind found =>
        rw [found] at split
        cases read
        simpa using split.symm
    · next found =>
        split at read
        · rw [found] at split
          cases read
          exact split.symm
        · cases read

end Stream

/-- `headers[name] = value` -/
def setHeader (headers : List (Text × Text)) (name value : Text) : List (Text × Text) :=
  if headers.any (·.1 = name) then
    headers.map fun header => if header.1 = name then (name, value) else header
  else headers ++ [(name, value)]

/-- The name and the value of a header line; names are lower-cased as ASCII. -/
def splitHeader (hline : Text) : Text × Text :=
  let (k, v) := Text.partition ':' hline
  (Text.lower (Text.strip k), Text.strip v)

/-- The loop over the header lines, up to a blank one. -/
def readHeaders (headers : List (Text × Text)) (s : Stream) :
    Option (List (Text × Text) × Stream) :=
  match _ : s.readline with
  | none => none
  | some (line, rest) =>
      let hline := Text.strip (Utf8.decode line)
      if hline = [] then some (headers, rest)
      else readHeaders (setHeader headers (splitHeader hline).1 (splitHeader hline).2) rest
termination_by s.arrived.length
decreasing_by
  have split := congrArg List.length (Stream.readline_split ‹s.readline = some (line, rest)›)
  rw [List.length_append] at split
  have some_ : line ≠ [] := by
    rintro rfl
    contradiction
  have := List.length_pos_iff.mpr some_
  omega

section

variable {headers : List (Text × Text)} {s rest : Stream} {line : Bytes}

theorem readHeaders_over (read : s.readline = none) : readHeaders headers s = none := by
  rw [readHeaders]
  split
  · rfl
  · next got => cases read.symm.trans got

theorem readHeaders_blank (read : s.readline = some (line, rest))
    (blank : Text.strip (Utf8.decode line) = []) :
    readHeaders headers s = some (headers, rest) := by
  rw [readHeaders]
  split
  · next got => cases read.symm.trans got
  · next got =>
      cases read.symm.trans got
      exact if_pos blank

theorem readHeaders_line (read : s.readline = some (line, rest))
    (some_ : Text.strip (Utf8.decode line) ≠ []) :
    readHeaders headers s =
      let (name, value) := splitHeader (Text.strip (Utf8.decode line))
      readHeaders (setHeader headers name value) rest := by
  rw [readHeaders]
  split
  · next got => cases read.symm.trans got
  · next got =>
      cases read.symm.trans got
      exact if_neg some_

end

/-- `int(headers.get("content-length", "0") or "0")` -/
def contentLength (headers : List (Text × Text)) : Option Int :=
  match headers.lookup ("content-length" : Text) with
  | none | some [] => some 0
  | some stated => Text.parseInt stated

/-- The body, cut at `maxBody`. -/
def readBody (headers : List (Text × Text)) (s : Stream) : Option (Bytes × Stream) :=
  match contentLength headers with
  | none => none
  | some length =>
      if 0 < length then s.readexactly (min length.toNat maxBody) else some ([], s)

/-- `_parse_request`, with `unquote` of `urllib.parse`.  `none` is a connection that is
over, by a `None` or by an exception. -/
def parseRequest (unquote : Text → Text) (s : Stream) : Option (HTTPRequest × Stream) := do
  let (line, s) ← s.readline
  if line = [] then none
  else
    match Text.splitMax 2 (Text.strip (Utf8.decode line)) with
    | [method, rawPath, _] =>
        let (path, query) := Text.partition '?' rawPath
        let (headers, s) ← readHeaders [] s
        let (body, s) ← readBody headers s
        some ({ method := Text.upper method, path := unquote path, query, headers, body }, s)
    | _ => none

/-- What `_serve_static` gives. -/
inductive Static where
  | absent
  | response
  | raised

/-- What a server has and meets: `unquote`, whether it has a handler for web sockets, what
`_serve_static` gives for a request (`absent` where there is no static directory), and
which of its answers reach the peer. -/
structure HTTPServer where
  unquote : Text → Text
  wsHandler : Bool
  serveStatic : Nat → HTTPRequest → Static
  writes : Nat → Bool

/-- A request and what it is passed on to; a request for a `HEAD` is passed on as a `GET`
whose answer is sent without its body. -/
inductive Passed where
  | upgrade (req : HTTPRequest)
  | static (routeReq : HTTPRequest) (includeBody : Bool)
  | handler (routeReq : HTTPRequest) (includeBody : Bool)

/-- The request that was read. -/
def Passed.request : Passed → HTTPRequest
  | .upgrade req => req
  | .static req true | .handler req true => req
  | .static req false | .handler req false => { req with method := "HEAD" }

namespace HTTPServer

variable (server : HTTPServer)

/-- What the body of the loop does with the `k`-th request, and whether the loop goes on. -/
def serve (k : Nat) (req : HTTPRequest) : Passed × Bool :=
  if Text.lower (req.header "upgrade") = "websocket" ∧ server.wsHandler then (.upgrade req, false)
  else
    let routeReq := if req.method = "HEAD" then { req with method := "GET" } else req
    let includeBody := req.method ≠ "HEAD"
    let conn := Text.lower (req.header "connection")
    match if routeReq.method = "GET" then server.serveStatic k routeReq else .absent with
    | .raised => (.static routeReq includeBody, false)
    | .response => (.static routeReq includeBody, server.writes k ∧ conn ≠ "close")
    | .absent =>
        (.handler routeReq includeBody, server.writes k ∧
          ¬ (conn = "close" ∨ (req.headers.lookup ("http-version" : Text)).getD "1.1" = ("1.0" : Text)))

/-- A request can be told from what it is passed on as. -/
theorem request_serve (k : Nat) (req : HTTPRequest) : (server.serve k req).1.request = req := by
  rw [serve]
  split
  · rfl
  · by_cases head : req.method = "HEAD"
    · obtain ⟨method, path, query, headers, body⟩ := req
      dsimp only at head
      subst head
      dsimp only
      split <;> rfl
    · simp only [ne_eq, head, not_false_eq_true, decide_true, if_false]
      split <;> rfl

end HTTPServer

/-- A call of `_parse_request`: what is ahead in the stream, and what becomes of the
request it gives. -/
structure Call where
  ahead : Bytes
  passed : Option Passed

theorem readHeaders_length {headers read : List (Text × Text)} {s rest : Stream}
    (done : readHeaders headers s = some (read, rest)) :
    rest.arrived.length ≤ s.arrived.length := by
  fun_induction readHeaders headers s with
  | case1 => cases done
  | case2 headers s line back got hline blank =>
      have split := congrArg List.length (Stream.readline_split got)
      rw [List.length_append] at split
      cases done
      omega
  | case3 headers s line back got hline some_ ih =>
      have split := congrArg List.length (Stream.readline_split got)
      rw [List.length_append] at split
      have := ih done
      omega

theorem readBody_length {headers : List (Text × Text)} {body : Bytes} {s rest : Stream}
    (done : readBody headers s = some (body, rest)) :
    rest.arrived.length ≤ s.arrived.length := by
  simp only [readBody] at done
  split at done
  · cases done
  · split at done
    · simp only [Stream.readexactly] at done
      split at done
      · cases done
        simp
      · cases done
    · cases done
      exact le_rfl

/-- A request that is read takes bytes from the stream. -/
theorem parseRequest_length {unquote : Text → Text} {s rest : Stream} {req : HTTPRequest}
    (parsed : parseRequest unquote s = some (req, rest)) :
    rest.arrived.length < s.arrived.length := by
  simp only [parseRequest, Option.bind_eq_bind, Option.bind_eq_some_iff, Prod.exists] at parsed
  obtain ⟨line, behind, read, parsed⟩ := parsed
  have split := congrArg List.length (Stream.readline_split read)
  rw [List.length_append] at split
  split at parsed
  · cases parsed
  · next some_ =>
      have := List.length_pos_iff.mpr some_
      split at parsed
      · simp only [Option.bind_eq_some_iff, Prod.exists, Option.some.injEq, Prod.mk.injEq] at parsed
        obtain ⟨headers, middle, listed, body, last, taken, -, rfl⟩ := parsed
        have := readHeaders_length listed
        have := readBody_length taken
        omega
      · cases parsed

/-- `_handle_connection` from its `k`-th request on. -/
def HTTPServer.handleConnection (server : HTTPServer) (k : Nat) (s : Stream) : List Call :=
  match _ : parseRequest server.unquote s with
  | none => [⟨s.arrived, none⟩]
  | some (req, rest) =>
      let (passed, goesOn) := server.serve k req
      ⟨s.arrived, some passed⟩ ::
        if goesOn then server.handleConnection (k + 1) rest else []
termination_by s.arrived.length
decreasing_by exact parseRequest_length ‹_›

section

variable {server : HTTPServer} {s rest : Stream} {req : HTTPRequest}

theorem handleConnection_over (k : Nat) (parsed : parseRequest server.unquote s = none) :
    server.handleConnection k s = [⟨s.arrived, none⟩] := by
  rw [HTTPServer.handleConnection]
  split
  · rfl
  · next got => cases parsed.symm.trans got

theorem handleConnection_request (k : Nat)
    (parsed : parseRequest server.unquote s = some (req, rest)) :
    server.handleConnection k s =
      ⟨s.arrived, some (server.serve k req).1⟩ ::
        if (server.serve k req).2 then server.handleConnection (k + 1) rest else [] := by
  rw [HTTPServer.handleConnection]
  split
  · next got => cases parsed.symm.trans got
  · next got =>
      cases parsed.symm.trans got
      rfl

theorem parseRequest_end (unquote : Text → Text) (none_ : s.arrived = []) :
    parseRequest unquote s = none := by
  cases closed : s.closed <;> simp [parseRequest, Stream.readline, none_, closed]

end

end PyBulletin.Web
