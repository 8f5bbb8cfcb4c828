import PyBulletin.Foundation.Text

set_option autoImplicit false

namespace PyBulletin.Store

open PyBulletin.Foundation

/-- `datetime` in UTC, to the second. -/
structure DateTime where
  year : Nat
  month : Nat
  day : Nat
  hour : Nat
  minute : Nat
  second : Nat := 0
  deriving DecidableEq

namespace DateTime

/-- A number in decimal, filled with zeros from the left. -/
def padded (width n : Nat) : Text :=
  let digits := Nat.toDigits 10 n
  List.replicate (width - digits.length) '0' ++ digits

/-- `strftime("%Y/%m/%d %H:%M")`. -/
def format (date : DateTime) : Text :=
  padded 4 date.year ++ ['/'] ++ padded 2 date.month ++ ['/'] ++ padded 2 date.day ++ [' '] ++
    padded 2 date.hour ++ [':'] ++ padded 2 date.minute

/-- Before in the order of time. -/
def before (first second : DateTime) : Bool :=
  let place (date : DateTime) : Nat :=
    ((((date.year * 13 + date.month) * 32 + date.day) * 24 + date.hour) * 60 + date.minute) * 60 +
      date.second
  place first < place second

end DateTime

structure Message where
  bid : Text
  msgType : Text
  fromCall : Text
  toCall : Text
  atBbs : Text
  subject : Text
  body : Text
  createdAt : Option DateTime

def privNone : Text := ""
def privUser : Text := "user"
def privSysop : Text := "sysop"

structure User where
  call : Text
  displayName : Text
  privilege : Text
  email : Text
  address : Text
  homeBbs : Text
  locator : Text
  city : Text
  zipCode : Text
  passwordHash : Text
  msgBase : Int
  pageLength : Int
  expertMode : Bool
  language : Text
  lastLoginAt : Option DateTime
  lastLoginPeer : Text
  lastSeen : DateTime
  createdAt : DateTime

/-- `User(call=..., privilege=..., password_hash=...)` with the other fields at their
defaults. -/
def User.new (call privilege passwordHash : Text) (now : DateTime) : User where
  call
  displayName := ""
  privilege
  email := ""
  address := ""
  homeBbs := ""
  locator := ""
  city := ""
  zipCode := ""
  passwordHash
  msgBase := 0
  pageLength := 24
  expertMode := false
  language := "EN"
  lastLoginAt := none
  lastLoginPeer := ""
  lastSeen := now
  createdAt := now

end PyBulletin.Store
