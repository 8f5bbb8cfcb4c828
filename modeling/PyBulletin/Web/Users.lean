import PyBulletin.Auth
import PyBulletin.Store.Users

set_option autoImplicit false

namespace PyBulletin.Web

open PyBulletin.Foundation
open PyBulletin.Store

/-! # The sysop's requests about a user

Each takes the fields of the request, a call with its letters outside ASCII in capitals;
`none` is an answer with an error status.
-/

def isPrivilege (privilege : Text) : Prop :=
  privilege = privNone ∨ privilege = privUser ∨ privilege = privSysop

instance (privilege : Text) : Decidable (isPrivilege privilege) :=
  inferInstanceAs (Decidable (_ ∨ _))

def setPrivilege (users : UserTable) (call privilege : Text) : Option UserTable :=
  if isPrivilege privilege.strip then some (users.setPrivilege call.upper privilege.strip)
  else none

def deleteUser (users : UserTable) (call : Text) : Option UserTable :=
  some (users.deleteUser call)

variable (pbkdf2 : Auth.Kdf)

/-- The record that `_create_user` writes; `salt` and `now` are drawn on the way. -/
def createdUser (call password privilege : Text) (salt : Bytes) (now : DateTime) : User :=
  User.new call
    (if isPrivilege privilege.strip then privilege.strip else privUser)
    (Auth.hashPassword pbkdf2 salt password) now

theorem createdUser_storable (call password privilege : Text) (salt : Bytes) (now : DateTime) :
    storable (createdUser pbkdf2 call password privilege salt now) :=
  UserTable.new_storable _ _ _ _

def createUser (users : UserTable) (call password privilege : Text) (salt : Bytes)
    (now : DateTime) : Option UserTable :=
  let key := Text.upper call.strip
  if key = [] ∨ ¬ Auth.isValidCall key then none
  else if password.length < 6 then none
  else
    match users.getUser key with
    | some _ => none
    | none =>
        some (users.upsertUser (createdUser pbkdf2 key password privilege salt now)
          (createdUser_storable pbkdf2 key password privilege salt now))

/-- `_reset_password` writes the row back that it has just read. -/
def resetPassword (users : UserTable) (call password : Text) (salt : Bytes) : Option UserTable :=
  if password.length < 6 then none
  else
    match found : users.getUser call.upper with
    | none => none
    | some user =>
        some (users.upsertUser
          { user with passwordHash := Auth.hashPassword pbkdf2 salt password }
          ((users.fits call.upper.upper user found).passwordHash _))

end PyBulletin.Web
