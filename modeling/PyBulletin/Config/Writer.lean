import PyBulletin.Config.Loader

set_option autoImplicit false

namespace PyBulletin.Config

open Foundation Toml

/-! # The writer of the local file

`save_config` and `_dict_to_toml` of config.py. -/

/-- `text.replace(old, new)` for a single character `old`. -/
def replaceChar (old : Char) (new text : Text) : Text :=
  text.flatMap fun c => if c = old then new else [c]

def escaped (text : Text) : Text :=
  replaceChar '"' ['\\', '"'] (replaceChar '\\' ['\\', '\\'] text)

def quoted (text : Text) : Text := '"' :: text ++ ['"']

def boolText (b : Bool) : Text := if b then "true" else "false"

/-- The items of an array: strings between quotes as they are, anything else as `str` has it. -/
def itemText (py : Python) : Value → Text
  | .str text => quoted text
  | v => py.str v

def arrayText (items : List Text) : Text := '[' :: (", " : Text).intercalate items ++ [']']

def scalarText (py : Python) : Value → Text
  | .bool b => boolText b
  | .int n => numeral n
  | .list vs => arrayText (vs.map (itemText py))
  | v => quoted (escaped (py.str v))

def isDict : Value → Bool
  | .dict _ => true
  | _ => false

def scalarLines (py : Python) (d : Dict) : List Text :=
  (d.filter fun item => !isDict item.2).map fun item =>
    item.1 ++ (" = " : Text) ++ scalarText py item.2 ++ ['\n']

mutual

/-- The header of a table, and what `_dict_to_toml` writes for it. -/
def tableLines (py : Python) (section_ : Text) : Value → List Text
  | .dict d =>
      (['\n', '['] ++ section_ ++ [']', '\n']) ::
        (scalarLines py d ++ tablesLines py section_ d)
  | _ => []

def tablesLines (py : Python) (prefix_ : Text) : List (Text × Value) → List Text
  | [] => []
  | item :: d => itemLines py prefix_ item ++ tablesLines py prefix_ d

def itemLines (py : Python) (prefix_ : Text) : Text × Value → List Text
  | (k, v) => tableLines py (if prefix_ = [] then k else prefix_ ++ '.' :: k) v

end

/-- `_dict_to_toml(d, prefix)` -/
def dictToToml (py : Python) (d : Dict) (prefix_ : Text) : List Text :=
  scalarLines py d ++ tablesLines py prefix_ d

def neighborLines (n : ForwardNeighborConfig) : List Text :=
  [("\n[[forward.neighbor]]\n" : Text),
    ("call       = " : Text) ++ quoted n.call ++ ['\n'],
    ("address    = " : Text) ++ quoted (escaped n.address) ++ ['\n'],
    ("protocol   = " : Text) ++ quoted n.protocol ++ ['\n'],
    ("schedule   = " : Text) ++ quoted n.schedule ++ ['\n'],
    ("categories = " : Text) ++ arrayText (n.categories.map quoted) ++ ['\n'],
    ("bin_mode   = " : Text) ++ boolText n.binMode ++ ['\n'],
    ("enabled    = " : Text) ++ boolText n.enabled ++ ['\n']]

def fileLines (py : Python) (nonFwd : Dict) (forward : ForwardConfig) : List Text :=
  [("# pyBulletin local config overrides — managed by sysop console\n" : Text)] ++
    dictToToml py nonFwd [] ++
    [("\n[forward]\n" : Text), ("enabled = " : Text) ++ boolText forward.enabled ++ ['\n']] ++
    forward.neighbors.flatMap neighborLines

/-- `getattr(section, name)` of a text field. -/
def Section.text (section_ : Section) (name : Text) : Text :=
  match section_.lookup name with
  | some (.text value) => value
  | _ => []

/-- `existing["node"]` with the fields of the running configuration. -/
def presented (node : Section) (d : Dict) : Dict :=
  presentation.foldl (fun d field => d.set field.1 (.str (node.text field.1))) d

/-- The overrides that stay, outside `[forward]`.  An entry `node` that is no table takes no
assignment. -/
def overrides (node : Section) (existing : Dict) : Option Dict := do
  let existing := if ("node" : Text) ∈ existing.keys then existing else existing.set "node" (.dict [])
  match existing.lookup ("node" : Text) with
  | some (.dict d) =>
      let existing := existing.set "node" (.dict (presented node d))
      some (existing.without "forward")
  | _ => none

/-- `save_config`, given the text of the local file: the text it writes there. -/
def saveConfig (forms : Forms) (py : Python) (config : AppConfig) (local_ : Option Text) :
    Option Text := do
  let existing ← match local_ with
    | none => some []
    | some text => loads forms text
  let nonFwd ← overrides config.node existing
  some (fileLines py nonFwd config.forward).flatten

end PyBulletin.Config
