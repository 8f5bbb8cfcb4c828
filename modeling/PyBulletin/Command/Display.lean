import PyBulletin.Session.Console

set_option autoImplicit false

namespace PyBulletin.Command.Engine

open PyBulletin.Foundation
open PyBulletin.Store
open PyBulletin.Session

def decimal (n : Int) : Text := (toString n).toList

/-- `f"{text:<width}"` -/
def leftIn (width : Nat) (text : Text) : Text := text ++ List.replicate (width - text.length) ' '

/-- `f"{text:>width}"` -/
def rightIn (width : Nat) (text : Text) : Text := List.replicate (width - text.length) ' ' ++ text

/-- A line of `width` dashes. -/
def dashes (width : Nat) : Text := List.replicate width '-'

/-- `text or default` -/
def filled (text default : Text) : Text := if text = [] then default else text

/-- `text.replace("\n", "\r\n")` -/
def withReturns (text : Text) : Text := text.flatMap fun c => if c = '\n' then ['\r', '\n'] else [c]

def joined (parts : List Text) : Text := parts.flatten

/-- A line with a label. -/
def labelled (label value : Text) : Text := joined [label, value, "\r\n"]

/-- A heading, a rule and rows. -/
def table (heading : List Text) (width : Nat) (rows : List Text) : Text :=
  joined (heading ++ [("  " : Text), dashes width, "\r\n"] ++ rows)

def sendAll (parts : List Text) : Talk Unit := send (joined parts)

section Dates

variable (date : DateTime)

/-- `strftime("%Y-%m-%d %H:%M")` -/
def toMinute : Text :=
  joined [DateTime.padded 4 date.year, "-", DateTime.padded 2 date.month, "-",
    DateTime.padded 2 date.day, " ", DateTime.padded 2 date.hour, ":", DateTime.padded 2 date.minute]

/-- `strftime("%Y-%m-%d %H:%M UTC")` -/
def toMinuteUtc : Text := joined [toMinute date, " UTC"]

/-- `strftime("%Y-%m-%d %H:%M:%S")` -/
def toSecond : Text := joined [toMinute date, ":", DateTime.padded 2 date.second]

def monthNames : List Text :=
  ["Jan", "Feb", "Mar", "Apr", "May", "Jun", "Jul", "Aug", "Sep", "Oct", "Nov", "Dec"]

/-- `strftime("%d-%b-%y")` -/
def toDay : Text :=
  joined [DateTime.padded 2 date.day, "-", monthNames.getD (date.month - 1) [], "-",
    DateTime.padded 2 (date.year % 100)]

def dateOr (absent : Text) (shown : DateTime → Text) (date : Option DateTime) : Text :=
  (date.map shown).getD absent

end Dates

section Guards

variable (node : Node)

def capRead : Text := "read"
def capSend : Text := "send"

def defaultOpen : List Text := ["read", "send", "download", "chat"]

/-- `default_access_allowed` of an authenticated user -/
def defaultAccessAllowed (capability : Text) : Bool :=
  if capability = "sysop" then false else capability ∈ defaultOpen

/-- `access_allowed` -/
def accessAllowed (call capability : Text) : Bool :=
  Text.upper call = "SYSOP" ∨ defaultAccessAllowed capability

/-- `if not self._can(capability)` -/
def ifCan (capability : Text) (serve : Talk Unit) : Talk Unit := do
  let user ← me
  if accessAllowed user.call capability then serve else say node "error.no_permission" []

/-- `if self._user.privilege != PRIV_SYSOP` -/
def ifSysop (serve : Talk Unit) : Talk Unit := do
  let user ← me
  if user.privilege = privSysop then serve else say node "error.no_permission" []

/-- `range(low, high + 1)` -/
def idRange (low high : Int) : List Int :=
  (List.range (high + 1 - low).toNat).map fun n => low + n

/-- `_parse_id_list` -/
def parseIdList (args : Text) : List Int :=
  (Text.words args).flatMap fun token =>
    if '-' ∈ token then
      match Text.parseInt (token.takeWhile (· ≠ '-')),
          Text.parseInt ((token.dropWhile (· ≠ '-')).drop 1) with
      | some low, some high => idRange low high
      | _, _ => []
    else (Text.parseInt token).toList

/-- The numbers of a command, which need not be there. -/
def withIds (usage args : Text) (serve : List Int → Talk Unit) : Talk Unit :=
  if parseIdList args = [] then send usage else serve (parseIdList args)

/-- The first message that a command names. -/
def withFirst (usage args : Text) (serve : Int → Row → Talk Unit) : Talk Unit :=
  withIds usage args fun ids => do
    let id := ids.headD 0
    match ← getMessage id with
    | none => say node "read.not_found" [("id", .number id)]
    | some msg => serve id msg

section Keeping

open PyBulletin.Foundation.Stateful

variable {P : Console → Prop} {node : Node} [∀ text, Keeps P (send text)]

instance (parts : List Text) : Keeps P (sendAll parts) := by
  unfold sendAll
  infer_instance

instance (capability : Text) (serve : Talk Unit) [Keeps P serve] : Keeps P (ifCan node capability serve) := by
  unfold ifCan
  infer_instance

instance (serve : Talk Unit) [Keeps P serve] : Keeps P (ifSysop node serve) := by
  unfold ifSysop
  infer_instance

instance (usage args : Text) (serve : List Int → Talk Unit) [∀ ids, Keeps P (serve ids)] :
    Keeps P (withIds usage args serve) := by
  unfold withIds
  infer_instance

end Keeping

end Guards

end PyBulletin.Command.Engine
