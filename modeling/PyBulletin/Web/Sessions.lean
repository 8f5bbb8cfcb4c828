import PyBulletin.Foundation.Lines
import PyBulletin.Store.Models

set_option autoImplicit false

namespace PyBulletin.Web

open PyBulletin.Foundation
open PyBulletin.Store

structure HTTPRequest where
  method : Text
  path : Text
  query : Text
  headers : List (Text × Text)
  body : Bytes

namespace HTTPRequest

variable (req : HTTPRequest)

def header (name : Text) : Text := (req.headers.lookup (Text.lower name)).getD ""

def bearerToken : Text :=
  let auth := req.header "authorization"
  if ("bearer " : Text).isPrefixOf (Text.lower auth) then Text.strip (auth.drop 7) else ""

/-- The pairs of the cookie header, in its order. -/
def cookies : List (Text × Text) :=
  ((req.header "cookie").splitOn ';').map fun part =>
    let (key, value) := Text.partition '=' (Text.strip part)
    (Text.strip key, Text.strip value)

def cookie (name : Text) : Text := (req.cookies.lookup name).getD ""

/-- The token of a request, the empty text if it has none. -/
def token : Text := if req.bearerToken ≠ [] then req.bearerToken else req.cookie "pb_session"

end HTTPRequest

/-- Times are what `time.time()` gives. -/
structure WebSession where
  token : Text
  call : Text
  privilege : Text
  createdAt : Rat
  expiresAt : Rat

def sessionTtl : Rat := 86400

namespace WebSession

def isSysop (session : WebSession) : Bool := session.privilege = privSysop

def expired (session : WebSession) (now : Rat) : Bool := session.expiresAt < now

/-- What `SessionStore.create` puts in its table. -/
def opened (token call privilege : Text) (now : Rat) : WebSession where
  token
  call := Text.upper call
  privilege
  createdAt := now
  expiresAt := now + sessionTtl

end WebSession

/-- The sessions by their tokens. -/
structure SessionStore where
  find : Text → Option WebSession
  keyed : ∀ token session, find token = some session → session.token = token
  capital : ∀ token session, find token = some session → Text.upper session.call = session.call

namespace SessionStore

variable (sessions : SessionStore)

def empty : SessionStore where
  find _ := none
  keyed _ _ found := by cases found
  capital _ _ found := by cases found

def create (token call privilege : Text) (now : Rat) : SessionStore where
  find other :=
    if other = token then some (.opened token call privilege now) else sessions.find other
  keyed other session found := by
    split at found
    · rename_i same
      cases found
      exact same.symm
    · exact sessions.keyed other session found
  capital other session found := by
    split at found
    · cases found
      exact Text.upper_upper call
    · exact sessions.capital other session found

/-- The table without the tokens that are not to be kept. -/
def restrict (keep : Text → WebSession → Bool) : SessionStore where
  find token := (sessions.find token).filter (keep token)
  keyed token session found := sessions.keyed token session (Option.filter_eq_some_iff.mp found).1
  capital token session found :=
    sessions.capital token session (Option.filter_eq_some_iff.mp found).1

def revoke (token : Text) : SessionStore := sessions.restrict fun other _ => other ≠ token

/-- One round of `_prune_loop`. -/
def prune (now : Rat) : SessionStore := sessions.restrict fun _ session => now ≤ session.expiresAt

/-- `get` with the table after it, from which it takes an expired session. -/
def get (token : Text) (now : Rat) : SessionStore × Option WebSession :=
  match sessions.find token with
  | none => (sessions, none)
  | some session =>
      if session.expired now then (sessions.revoke token, none) else (sessions, some session)

def getFromRequest (req : HTTPRequest) (now : Rat) : SessionStore × Option WebSession :=
  if req.token = [] then (sessions, none) else sessions.get req.token now

variable {sessions} {token : Text} {session : WebSession} {now : Rat}

theorem get_eq_some (found : (sessions.get token now).2 = some session) :
    sessions.find token = some session ∧ now ≤ session.expiresAt ∧
      (sessions.get token now).1 = sessions := by
  rw [get] at found ⊢
  cases stored : sessions.find token with
  | none => simp [stored] at found
  | some other =>
      by_cases late : other.expired now
      · simp [stored, late] at found
      · have same : other = session := by simpa [stored, late] using found
        have live : ¬ other.expiresAt < now := by simpa [WebSession.expired] using late
        simp only [late]
        exact ⟨by rw [same], same ▸ Rat.not_lt.mp live, rfl⟩

theorem getFromRequest_eq_some {req : HTTPRequest}
    (found : (sessions.getFromRequest req now).2 = some session) :
    sessions.find req.token = some session ∧ now ≤ session.expiresAt ∧
      (sessions.getFromRequest req now).1 = sessions := by
  rw [getFromRequest] at found ⊢
  by_cases missing : req.token = []
  · rw [if_pos missing] at found
    cases found
  · rw [if_neg missing] at found ⊢
    exact get_eq_some found

end SessionStore

end PyBulletin.Web
