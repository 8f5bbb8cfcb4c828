import PyBulletin.Foundation.Lines

set_option autoImplicit false

namespace PyBulletin.Foundation.Toml

open Text

/-! # TOML documents

The reader of TOML 1.0 documents: keys, values and the statements that build nested tables.
The forms of a value beyond one-line strings, decimal integers, booleans and arrays are left
to a parameter `other` of the reader. -/

inductive Value where
  | str (text : Text)
  | int (n : Int)
  | bool (b : Bool)
  /-- A float, a date or a time, as it is written. -/
  | literal (text : Text)
  | list (items : List Value)
  | dict (entries : List (Text × Value))

instance : Inhabited Value := ⟨.bool false⟩

abbrev Dict := List (Text × Value)

abbrev Path := List Text

namespace Dict

def keys (t : Dict) : List Text := t.map Prod.fst

/-- `t[key] = v` -/
def set (t : Dict) (key : Text) (v : Value) : Dict :=
  if key ∈ t.keys then t.map fun e => if e.1 = key then (key, v) else e
  else t ++ [(key, v)]

/-- `{k: v for k, v in t.items() if k != key}` -/
def without (t : Dict) (key : Text) : Dict := t.filter fun e => e.1 ≠ key

end Dict

def isControl (c : Char) : Bool := (c.toNat < 32 ∧ c ≠ '\t') ∨ c.toNat = 127

def isBlank (c : Char) : Bool := c = ' ' ∨ c = '\t'

def isBare (c : Char) : Bool := c.isAlphanum ∨ c = '-' ∨ c = '_'

def hexDigit (c : Char) : Option Nat :=
  if '0' ≤ c ∧ c ≤ '9' then some (c.toNat - 48)
  else if 'a' ≤ c ∧ c ≤ 'f' then some (c.toNat - 87)
  else if 'A' ≤ c ∧ c ≤ 'F' then some (c.toNat - 55)
  else none

def unescape : Char → Option Char
  | 'b' => some '\x08'
  | 't' => some '\t'
  | 'n' => some '\n'
  | 'f' => some '\x0c'
  | 'r' => some '\r'
  | '"' => some '"'
  | '\\' => some '\\'
  | _ => none

/-- Where the reader of a string stands: between characters, behind a backslash, or in a
number of so many more hexadecimal digits. -/
inductive Within where
  | plain
  | escape
  | hex (left : Nat) (value : Nat)

/-- A basic string from behind its opening quote, with what follows it. -/
def basicString : Within → Text → Option (Text × Text)
  | _, [] => none
  | .plain, c :: rest =>
      if c = '"' then some ([], rest)
      else if c = '\\' then basicString .escape rest
      else if isControl c then none
      else (basicString .plain rest).map fun (text, rest) => (c :: text, rest)
  | .escape, c :: rest =>
      if c = 'u' then basicString (.hex 3 0) rest
      else if c = 'U' then basicString (.hex 7 0) rest
      else do
        let d ← unescape c
        let (text, rest) ← basicString .plain rest
        some (d :: text, rest)
  | .hex left value, c :: rest => do
      let digit ← hexDigit c
      let value := value * 16 + digit
      match left with
      | 0 =>
          if value.isValidChar then
            let (text, rest) ← basicString .plain rest
            some (Char.ofNat value :: text, rest)
          else none
      | left + 1 => basicString (.hex left value) rest

def literalString (text : Text) : Option (Text × Text) :=
  match text.span (· ≠ '\'') with
  | (content, _ :: rest) => if content.any isControl then none else some (content, rest)
  | (_, []) => none

def keyPart : Text → Option (Text × Text)
  | '"' :: rest => basicString .plain rest
  | '\'' :: rest => literalString rest
  | text =>
      match text.span isBare with
      | ([], _) => none
      | part => some part

/-- A key with dots between its parts. -/
def keyPath : Nat → Text → Option (Path × Text)
  | 0, _ => none
  | fuel + 1, text => do
      let (part, rest) ← keyPart text
      match rest.dropWhile isBlank with
      | '.' :: rest =>
          let (path, rest) ← keyPath fuel (rest.dropWhile isBlank)
          some (part :: path, rest)
      | rest => some ([part], rest)

/-- `str(n)` -/
def numeral (n : Int) : Text :=
  if n < 0 then '-' :: Nat.toDigits 10 n.natAbs else Nat.toDigits 10 n.natAbs

def endsNumber (c : Char) : Bool := c ∈ ([' ', '\t', '\n', ',', ']', '}', '#'] : Text)

/-- Decimal digits with no zero in front. -/
def decimal (digits : Text) : Option Int :=
  if digits ≠ [] ∧ digits.all Char.isDigit ∧ (digits.head? = some '0' → digits = ['0']) then
    parseInt digits
  else none

def integer (text : Text) : Option (Int × Text) :=
  match text.span fun c => !endsNumber c with
  | ('-' :: digits, rest) => (decimal digits).map fun n => (-n, rest)
  | ('+' :: digits, rest) => (decimal digits).map fun n => (n, rest)
  | (digits, rest) => (decimal digits).map fun n => (n, rest)

/-- Blanks, line ends and comments between the items of an array. -/
def arrayGap : Bool → Text → Option Text
  | _, [] => some []
  | false, c :: rest =>
      if isBlank c ∨ c = '\n' then arrayGap false rest
      else if c = '#' then arrayGap true rest
      else some (c :: rest)
  | true, c :: rest =>
      if c = '\n' then arrayGap false rest
      else if isControl c then none
      else arrayGap true rest

/-- The items of an array from its first, with what follows the bracket. -/
def items (element : Text → Option (Value × Text)) : Nat → Text → Option (List Value × Text)
  | 0, _ => none
  | fuel + 1, text => do
      let (v, rest) ← element text
      match ← arrayGap false rest with
      | ']' :: rest => some ([v], rest)
      | ',' :: rest =>
          match ← arrayGap false rest with
          | ']' :: rest => some ([v], rest)
          | rest =>
              let (vs, rest) ← items element fuel rest
              some (v :: vs, rest)
      | _ => none

section Reader

variable (other : Text → Option (Value × Text))

def value : Nat → Text → Option (Value × Text)
  | 0, _ => none
  | fuel + 1, text =>
      match text with
      | '"' :: rest =>
          if ['"', '"'] <+: rest then other text
          else (basicString .plain rest).map fun (text, rest) => (.str text, rest)
      | '\'' :: rest =>
          if ['\'', '\''] <+: rest then other text
          else (literalString rest).map fun (text, rest) => (.str text, rest)
      | '[' :: rest => do
          match ← arrayGap false rest with
          | ']' :: rest => some (.list [], rest)
          | rest =>
              let (vs, rest) ← items (value fuel) fuel rest
              some (.list vs, rest)
      | 't' :: 'r' :: 'u' :: 'e' :: rest => some (.bool true, rest)
      | 'f' :: 'a' :: 'l' :: 's' :: 'e' :: rest => some (.bool false, rest)
      | text =>
          match integer text with
          | some (n, rest) => some (.int n, rest)
          | none => other text

end Reader

/-- Runs `f` on the table at a path; tables that are missing on the way are made, and the
last table of an array stands for the array. -/
def modify : Path → (Dict → Option Dict) → Dict → Option Dict
  | [], f, t => f t
  | key :: path, f, t =>
      match t.lookup key with
      | none => (modify path f []).map fun s => t.set key (.dict s)
      | some (.dict s) => (modify path f s).map fun s => t.set key (.dict s)
      | some (.list vs) =>
          match vs.getLast? with
          | some (.dict s) =>
              (modify path f s).map fun s => t.set key (.list (vs.dropLast ++ [.dict s]))
          | _ => none
      | some _ => none

/-- What a document has built so far: the tables, the header that is open, the paths a header
may not open again, those no statement may change any more, and those that join the former
at the next header. -/
structure State where
  data : Dict
  header : Path
  explicit : List Path
  frozen : List Path
  pending : List Path

namespace State

def initial : State := ⟨[], [], [], [], []⟩

variable (st : State)

def isFrozen (path : Path) : Bool := st.frozen.any (·.isPrefixOf path)

def finalize : State := { st with explicit := st.explicit ++ st.pending, pending := [] }

/-- `[path]` -/
def table (path : Path) : Option State :=
  let st := st.finalize
  if path ∈ st.explicit ∨ st.isFrozen path then none
  else do
    let data ← modify path some st.data
    some { st with data, header := path, explicit := path :: st.explicit }

def append (path : Path) (data : Dict) : Option Dict := do
  let key ← path.getLast?
  modify path.dropLast (fun t =>
    match t.lookup key with
    | none => some (t.set key (.list [.dict []]))
    | some (.list vs) => some (t.set key (.list (vs ++ [.dict []])))
    | some _ => none) data

/-- `[[path]]` -/
def element (path : Path) : Option State :=
  let st := st.finalize
  if st.isFrozen path then none
  else do
    let data ← append path st.data
    some { st with
      data
      header := path
      explicit := path :: st.explicit.filter fun q => !path.isPrefixOf q
      frozen := st.frozen.filter fun q => !path.isPrefixOf q }

/-- `path = v` -/
def assign (path : Path) (v : Value) : Option State := do
  let stem ← path.getLast?
  let parent := st.header ++ path.dropLast
  let inner := path.dropLast.inits.tail.map (st.header ++ ·)
  if inner.any (· ∈ st.explicit) ∨ (parent ≠ [] ∧ st.isFrozen parent) then none
  else do
    let data ← modify parent (fun t =>
      if stem ∈ t.keys then none else some (t.set stem v)) st.data
    let frozen := match v with
      | .dict _ | .list _ => (st.header ++ path) :: st.frozen
      | _ => st.frozen
    some { st with data, frozen, pending := st.pending ++ inner }

end State

def skipComment : Text → Option Text
  | '#' :: text =>
      if (text.takeWhile (· ≠ '\n')).any isControl then none
      else some (text.dropWhile (· ≠ '\n'))
  | text => some text

/-- Blanks, a comment and the end of the line. -/
def lineEnd (text : Text) : Option Text := do
  match ← skipComment (text.dropWhile isBlank) with
  | [] => some []
  | '\n' :: rest => some rest
  | _ => none

section Reader

variable (other : Text → Option (Value × Text))

/-- A statement from its first character, with what follows it. -/
def statement (st : State) (text : Text) : Option (State × Text) :=
  match text with
  | '[' :: '[' :: rest => do
      let (path, rest) ← keyPath text.length (rest.dropWhile isBlank)
      match rest with
      | ']' :: ']' :: rest => some (← st.element path, rest)
      | _ => none
  | '[' :: rest => do
      let (path, rest) ← keyPath text.length (rest.dropWhile isBlank)
      match rest with
      | ']' :: rest => some (← st.table path, rest)
      | _ => none
  | c :: _ =>
      if isBare c ∨ c = '"' ∨ c = '\'' then do
        let (path, rest) ← keyPath text.length text
        match rest with
        | '=' :: rest => do
            let (v, rest) ← value other text.length (rest.dropWhile isBlank)
            some (← st.assign path v, rest)
        | _ => none
      else some (st, text)
  | [] => some (st, [])

def document : Nat → State → Text → Option State
  | 0, _, _ => none
  | fuel + 1, st, text =>
      match text.dropWhile isBlank with
      | [] => some st
      | text => do
          let (st, rest) ← statement other st text
          let rest ← lineEnd rest
          document fuel st rest

/-- `tomllib.loads(text)` -/
def loads (text : Text) : Option Dict :=
  let text := unixEnds text
  (document other (text.length + 1) State.initial text).map State.data

end Reader

end PyBulletin.Foundation.Toml
