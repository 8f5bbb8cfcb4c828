import PyBulletin.Foundation.Text

set_option autoImplicit false

namespace PyBulletin.Auth

open PyBulletin.Foundation

def isUpper (c : Char) : Bool := 'A' ≤ c ∧ c ≤ 'Z'

/-- `(?:-[0-9]{1,2})?$` -/
def isSsid : Text → Bool
  | [] => true
  | c :: digits => c = '-' ∧ 1 ≤ digits.length ∧ digits.length ≤ 2 ∧ digits.all Char.isDigit

/-- `_CALL_RE` on capitals, with `front` characters before the digit and `letters` behind it. -/
def matchesCall (front letters : Nat) (call : Text) : Bool :=
  (call.take front).length = front ∧ (call.take front).all (fun c => isUpper c ∨ c.isDigit) ∧
    ((call.drop front).take 1).length = 1 ∧ ((call.drop front).take 1).all Char.isDigit ∧
    ((call.drop (front + 1)).take letters).length = letters ∧
    ((call.drop (front + 1)).take letters).all isUpper ∧
    isSsid (call.drop (front + 1 + letters))

def isValidCall (call : Text) : Bool :=
  let upper := Text.upper (Text.strip call)
  upper = "SYSOP" ∨
    [1, 2, 3].any fun front => [1, 2, 3, 4].any fun letters => matchesCall front letters upper

def iterations : Int := 260000
def keyBytes : Nat := 32
def hashPrefix : Text := "pbkdf2"

def hexDigit (n : Nat) : Char := if n < 10 then Char.ofNat (48 + n) else Char.ofNat (87 + n)

/-- `data.hex()`. -/
def hex (data : Bytes) : Text :=
  data.flatMap fun b => [hexDigit (b.toNat / 16), hexDigit (b.toNat % 16)]

def hexValue (c : Char) : Option Nat :=
  if '0' ≤ c ∧ c ≤ '9' then some (c.toNat - 48)
  else if 'a' ≤ c ∧ c ≤ 'f' then some (c.toNat - 87)
  else if 'A' ≤ c ∧ c ≤ 'F' then some (c.toNat - 55)
  else none

/-- `bytes.fromhex(text)`; the blanks of ASCII may stand between two bytes. -/
def fromHex : Text → Option Bytes
  | [] => some []
  | c :: rest =>
      if (9 ≤ c.toNat ∧ c.toNat ≤ 13) ∨ c = ' ' then fromHex rest
      else
        match rest with
        | [] => none
        | d :: rest => do
            let high ← hexValue c
            let low ← hexValue d
            let data ← fromHex rest
            pure ((high * 16 + low).toUInt8 :: data)

/-- `hashlib.pbkdf2_hmac` with SHA-256: password, salt, iterations and key length. -/
abbrev Kdf := Text → Bytes → Int → Nat → Bytes

variable (pbkdf2 : Kdf)

/-- `hash_password`; the salt is what `os.urandom` gave. -/
def hashPassword (salt : Bytes) (password : Text) : Text :=
  hashPrefix ++ [':'] ++ (Nat.toDigits 10 iterations.toNat) ++ [':'] ++ hex salt ++ [':'] ++
    hex (pbkdf2 password salt iterations keyBytes)

def isPasswordHash (value : Text) : Bool := (hashPrefix ++ [':']).isPrefixOf value

/-- `text.split(":", n)`. -/
def splitColons : Nat → Text → List Text
  | 0, text => [text]
  | n + 1, text =>
      match text.dropWhile (· ≠ ':') with
      | [] => [text]
      | _ :: rest => text.takeWhile (· ≠ ':') :: splitColons n rest

/-- `none` is the exception that `pbkdf2_hmac` raises on numbers out of its range. -/
def verifyPassword (password stored : Text) : Option Bool :=
  if isPasswordHash stored then
    match splitColons 3 stored with
    | [_, itersText, saltHex, keyHex] =>
        match Text.parseInt itersText, fromHex saltHex, fromHex keyHex with
        | some iters, some salt, some expected =>
            if iters < 1 ∨ 2 ^ 31 ≤ iters ∨ expected = [] then none
            else some (pbkdf2 password salt iters expected.length = expected)
        | _, _, _ => some false
    | _ => some false
  else some false

end PyBulletin.Auth
