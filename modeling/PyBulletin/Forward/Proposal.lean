import PyBulletin.Forward.Protocol
import PyBulletin.Store.Mail

set_option autoImplicit false

namespace PyBulletin.Forward

open PyBulletin.Foundation
open PyBulletin.Store

structure Proposal where
  toCall : Text
  fromCall : Text
  bid : Text
  size : Int
  date : Text := ""
  subject : Text := ""
  accepted : Bool := false

/-- `format_proposal`; `now` is used for a message without a date. -/
def formatProposal (now : DateTime) (msg : Row) (binary : Bool) : Text :=
  let date := (msg.createdAt.getD now).format
  let kind : Text := if binary then "FB" else "FA"
  kind ++ [' '] ++ msg.toCall ++ [' '] ++ msg.fromCall ++ [' '] ++ msg.bid ++ [' '] ++
    Nat.toDigits 10 msg.size ++ [' '] ++ date ++ [' '] ++ msg.subject

/-- `parse_proposal`. -/
def parseProposal (line : Text) : Option Proposal :=
  let line := Text.strip line
  if ¬ (("FB " : Text).isPrefixOf line ∨ ("FA " : Text).isPrefixOf line) then none
  else
    match Text.splitMax 5 (line.drop 3) with
    | toCall :: fromCall :: bid :: size :: rest =>
        (Text.parseInt size).map fun size =>
          { toCall := Text.upper toCall
            fromCall := Text.upper fromCall
            bid
            size
            date := rest.headD ""
            subject := rest.tail.headD "" }
    | _ => none

/-- `parse_fs_response`. -/
def parseFsResponse (line : Text) : List Char :=
  let line := Text.strip line
  if ("FS " : Text).isPrefixOf line then Text.strip (line.drop 3) else []

end PyBulletin.Forward
