import PyBulletin.Command.Listing
import PyBulletin.Command.Sysop

set_option autoImplicit false

namespace PyBulletin.Command.Engine

open PyBulletin.Foundation
open PyBulletin.Store
open PyBulletin.Session

/-- The methods of `CommandEngine` that run a command. -/
inductive Handler where
  | help | version | info | wp
  | new | readAll | list | listNewLogin | listReverse | listLast | listMine | listBulletins | listNts
  | listHeld | listKilled | listForwarded | listRead | listWw | listSearch | listDate | listFrom
  | read | reply
  | sendPrivate | sendBulletin | sendNts | copyMessage
  | kill | killMine | killBulk
  | options | nh | nl | nq | nz | nb
  | forward | forwardList | forwardPath | forwardDrop
  | msgStatus | editBody | editTerminal | move | sysopHold | sysopRelease
  | datetime | stats | whoami | expertToggle | bbsList | who | heard | wpSearch
  | users | userDetail | sysopList | userEdit | wpDetail | wpEdit
  | yappList | yappGet | yappUpload
  | conference | pageSysop
  deriving DecidableEq

def messageRoutes : List (Text × Handler) :=
  [("N", .new), ("RA", .readAll), ("L", .list), ("LN", .listNewLogin), ("LR", .listReverse),
    ("LL", .listLast), ("LM", .listMine), ("LP", .listMine), ("LB", .listBulletins), ("LT", .listNts),
    ("LH", .listHeld), ("LK", .listKilled), ("LF", .listForwarded), ("LY", .listRead), ("LW", .listWw),
    ("LS", .listSearch), ("LD", .listDate), ("R", .read), ("RP", .reply),
    ("S", .sendPrivate), ("SB", .sendBulletin), ("ST", .sendNts), ("SN", .sendNts), ("SC", .copyMessage),
    ("K", .kill), ("D", .kill), ("RM", .kill), ("KM", .killMine), ("KK", .killBulk)]

def sysopRoutes : List (Text × Handler) :=
  [("F", .forward), ("FL", .forwardList), ("FN", .forwardPath), ("FD", .forwardDrop),
    ("$", .msgStatus), ("EM", .editBody), ("ED", .editTerminal), ("MV", .move),
    ("SH", .sysopHold), ("MH", .sysopHold), ("SR", .sysopRelease), ("MR", .sysopRelease),
    ("U", .users), ("DU", .userDetail), ("DS", .sysopList), ("EU", .userEdit), ("IL", .wpDetail),
    ("IE", .wpEdit)]

def otherRoutes : List (Text × Handler) :=
  [("H", .help), ("?", .help), ("V", .version), ("I", .info), ("P", .wp),
    ("O", .options), ("NH", .nh), ("NL", .nl), ("NQ", .nq), ("NZ", .nz), ("NB", .nb),
    ("DT", .datetime), ("NS", .stats), ("ME", .whoami), ("X", .expertToggle), ("BB", .bbsList),
    ("W", .who), ("J", .heard), ("WS", .wpSearch), ("Y", .yappList), ("YL", .yappList),
    ("YG", .yappGet), ("YU", .yappUpload), ("C", .conference), ("T", .pageSysop)]

/-- `_table` -/
def routes : List (Text × Handler) := messageRoutes ++ sysopRoutes ++ otherRoutes

/-- The handler of a line with its argument, or `none` for an unknown command. -/
def resolve (verb args : Text) : Option (Handler × Text) :=
  if (("L>" : Text)).isPrefixOf verb then
    some (.listFrom, if verb.drop 2 = [] then args else verb.drop 2)
  else if verb ∈ (["K>", "K<", "K@"] : List Text) then
    some (.killBulk, verb.drop 1 ++ [' '] ++ args)
  else if (("?" : Text)).isPrefixOf verb ∧ 1 < verb.length then some (.help, verb.drop 1)
  else (routes.lookup verb).map fun handler => (handler, args)

variable (node : Node)

def perform (args : Text) : Handler → Talk Unit
  | .help => cmdHelp node args
  | .version => cmdVersion node
  | .info => cmdInfo node args
  | .wp => cmdWp node args
  | .new => cmdNew node
  | .readAll => cmdReadAll node
  | .list => cmdList node
  | .listNewLogin => cmdListNewLogin node
  | .listReverse => cmdListReverse node args
  | .listLast => cmdListLast node args
  | .listMine => cmdListMine node
  | .listBulletins => cmdListBulletins node args
  | .listNts => cmdListNts node
  | .listHeld => cmdListHeld node
  | .listKilled => cmdListKilled node
  | .listForwarded => cmdListForwarded node
  | .listRead => cmdListRead node
  | .listWw => cmdListWw node
  | .listSearch => cmdListSearch node args
  | .listDate => cmdListDate node args
  | .listFrom => cmdListFrom node args
  | .read => cmdRead node args
  | .reply => cmdReply node args
  | .sendPrivate => cmdSendPrivate node args
  | .sendBulletin => cmdSendBulletin node args
  | .sendNts => cmdSendNts node args
  | .copyMessage => cmdCopyMessage node args
  | .kill => cmdKill node args
  | .killMine => cmdKillMine node
  | .killBulk => cmdKillBulk node args
  | .options => cmdOptions node args
  | .nh => cmdNh node args
  | .nl => cmdNl node args
  | .nq => cmdNq node args
  | .nz => cmdNz node args
  | .nb => cmdNb node args
  | .forward => cmdForward node args
  | .forwardList => cmdForwardList node args
  | .forwardPath => cmdForwardPath node args
  | .forwardDrop => cmdForwardDrop node args
  | .msgStatus => cmdMsgStatus node args
  | .editBody => cmdEditBody node args
  | .editTerminal => cmdEditTerminal node args
  | .move => cmdMove node args
  | .sysopHold => cmdSysopHold node args
  | .sysopRelease => cmdSysopRelease node args
  | .datetime => cmdDatetime node
  | .stats => cmdStats node
  | .whoami => cmdWhoami node
  | .expertToggle => cmdExpertToggle
  | .bbsList => cmdBbsList node
  | .who => cmdWho node
  | .heard => cmdHeard node
  | .wpSearch => cmdWpSearch node args
  | .users => cmdUsers node args
  | .userDetail => cmdUserDetail node args
  | .sysopList => cmdSysopList node
  | .userEdit => cmdUserEdit node args
  | .wpDetail => cmdWpDetail node args
  | .wpEdit => cmdWpEdit node args
  | .yappList => cmdYappList node args
  | .yappGet => cmdYappGet node args
  | .yappUpload => cmdYappUpload node args
  | .conference => cmdConference node args
  | .pageSysop => cmdPageSysop node

/-- The verb and the argument of a line. -/
def verbOf (line : Text) : Option (Text × Text) :=
  (Text.splitWord line).map fun (word, rest) => (Text.upper word, Text.strip (rest.getD []))

/-- A line of blanks raises `IndexError`. -/
def dispatch (line : Text) : Talk Unit :=
  if line = [] then pure ()
  else (verbOf line).elim Stateful.raise fun (verb, args) =>
    (resolve verb args).elim (say node "error.unknown_cmd" []) fun (handler, args) =>
      perform node args handler

end PyBulletin.Command.Engine
