import PyBulletin.Command.Display
import PyBulletin.Command.Profile

set_option autoImplicit false

namespace PyBulletin.Command.Engine

open PyBulletin.Foundation
open PyBulletin.Store
open PyBulletin.Session

variable (node : Node)

def formatListRow (msg : Row) : Talk Text :=
  string node "list.row" [("id", .number msg.id), ("type", .text msg.msgType),
    ("status", .text msg.status), ("size", .number msg.size), ("to", .text (msg.toCall.take 10)),
    ("from", .text (msg.fromCall.take 10)), ("date", .text (dateOr "?" toDay msg.createdAt)),
    ("subject", .text (msg.subject.take 28))]

/-- The list with its header and its end. -/
def listText (msgs : List Row) : Talk Text := do
  let header ← string node "list.header" []
  let divider ← string node "list.divider" []
  let rows ← msgs.foldlM (fun rows msg => do return rows ++ (← formatListRow node msg)) []
  let finish ← string node "list.end" [("count", .number msgs.length)]
  return header ++ divider ++ rows ++ finish

def sendList (msgs : List Row) : Talk Unit :=
  if msgs = [] then say node "list.no_msgs" []
  else do sendPaged node (← listText node msgs)

/-- A list command that asks the store once. -/
def cmdListOf (query : MessageQuery) : Talk Unit :=
  ifCan node capRead do sendList node (← listMessages query)

def cmdNew : Talk Unit :=
  ifCan node capRead do
    let user ← me
    let msgs ← listMessages { toCall := some user.call, status := some statusNew, sinceId := user.msgBase }
    if msgs = [] then say node "list.no_msgs" []
    else do
      sendPaged node (← listText node msgs)
      let user ← me
      (Command.cmdNew (msgs.map fun msg => (msg.id : Int)) user).elim (pure ()) saveUser

def cmdList : Talk Unit := do
  let user ← me
  cmdListOf node { sinceId := user.msgBase }

/-- `int(args.strip()) if args.strip() else 20`, and 20 for anything but a number -/
def countArgument (args : Text) : Int := (Text.parseInt args).getD 20

def cmdListLast (args : Text) : Talk Unit :=
  ifCan node capRead do
    let msgs ← listMessages { limit := countArgument args, reverse := true }
    sendList node msgs.reverse

def cmdListReverse (args : Text) : Talk Unit :=
  cmdListOf node { limit := countArgument args, reverse := true }

def cmdListMine : Talk Unit := do
  let user ← me
  cmdListOf node { toCall := some user.call }

def cmdListBulletins (args : Text) : Talk Unit :=
  let call := Text.upper (Text.strip args)
  cmdListOf node { msgType := some msgBulletin, toCall := if call = [] then none else some call }

def cmdListNts : Talk Unit := cmdListOf node { msgType := some msgNts }

def cmdListFrom (number : Text) : Talk Unit :=
  ifCan node capRead
    ((Text.parseInt number).elim (send "\r\n  Usage: L <msg#>\r\n") fun n => do
      sendList node (← listMessages { sinceId := n - 1 }))

def cmdListHeld : Talk Unit := cmdListOf node { status := some statusHeld }
def cmdListKilled : Talk Unit := cmdListOf node { status := some statusKilled }
def cmdListForwarded : Talk Unit := cmdListOf node { status := some statusForwarded }
def cmdListRead : Talk Unit := cmdListOf node { status := some statusRead }

def cmdListNewLogin : Talk Unit := do
  let user ← me
  cmdListOf node { afterDate := user.lastLoginAt }

def cmdListWw : Talk Unit := cmdListOf node { msgType := some msgBulletin, toCall := some "WW".toList }

/-- The rows of the second list that are not in the first. -/
def unseen (msgs others : List Row) : List Row :=
  others.filter fun row => msgs.all fun msg => msg.id ≠ row.id

/-- `LS`: subjects with the text, then the other messages from or to the call, by number. -/
def cmdListSearch (args : Text) : Talk Unit :=
  ifCan node capRead
    (if Text.strip args = [] then send "\r\n  Usage: LS <search text>\r\n"
    else do
      let msgs ← listMessages { search := some (Text.strip args) }
      let fromMsgs ← listMessages { fromCall := some (Text.upper (Text.strip args)) }
      let toMsgs ← listMessages { toCall := some (Text.upper (Text.strip args)) }
      let found := msgs ++ unseen msgs fromMsgs
      let all := found ++ unseen found toMsgs
      sendList node (all.mergeSort fun first second => first.id ≤ second.id))

/-- `datetime(year, month, day)`, or `none` for the `ValueError`. -/
def dateOf (year month day : Int) : Option DateTime :=
  let leap := year % 4 = 0 ∧ (year % 100 ≠ 0 ∨ year % 400 = 0)
  let days : List Int := [31, if leap then 29 else 28, 31, 30, 31, 30, 31, 31, 30, 31, 30, 31]
  if 1 ≤ year ∧ year ≤ 9999 ∧ 1 ≤ month ∧ month ≤ 12 ∧ 1 ≤ day ∧
      day ≤ days.getD (month.toNat - 1) 0 then
    some { year := year.toNat, month := month.toNat, day := day.toNat, hour := 0, minute := 0 }
  else none

/-- The date that `LD` takes from its argument. -/
def listDate (today : DateTime) (term : Text) : Option DateTime :=
  let part (start stop : Nat) : Option Int := Text.parseInt ((term.take stop).drop start)
  match term.length with
  | 4 => do dateOf today.year (← part 0 2) (← part 2 4)
  | 6 => do dateOf (2000 + (← part 0 2)) (← part 2 4) (← part 4 6)
  | 8 => do dateOf (← part 0 4) (← part 4 6) (← part 6 8)
  | _ => none

def cmdListDate (args : Text) : Talk Unit :=
  ifCan node capRead
    (if Text.strip args = [] then send "\r\n  Usage: LD <MMDD | YYYYMMDD>\r\n"
    else do
      let today ← now node
      (listDate today (Text.strip args)).elim (send "\r\n  Usage: LD <MMDD | YYYYMMDD>\r\n")
        fun date => do sendList node (← listMessages { afterDate := some date }))

end PyBulletin.Command.Engine
