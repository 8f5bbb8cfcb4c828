import PyBulletin.Foundation.Toml

set_option autoImplicit false

namespace PyBulletin.Config

open Foundation Toml

/-! # The configuration and its loader

`load_config` of config.py: the base file, the local file merged over it, and a builder for
every section that reads its fields one by one. -/

/-- Python's conversions where they go beyond texts and whole numbers: `str` of a list, a
table, a float or a date, `int` of a text and of a float, the truth of a float, and the case
mappings of Unicode.  `surrogate` are the characters that stand for lone surrogates, which a
`str` can hold and UTF-8 cannot. -/
structure Python where
  repr : Value → Text
  int : Text → Option Int
  floor : Text → Option Int
  truth : Text → Bool
  upper : Text → Text
  lower : Text → Text
  surrogate : Char → Bool
  surrogate_low : ∀ c : Char, c.toNat < 0xD800 → surrogate c = false
  upper_upper : ∀ text, upper (upper text) = upper text
  lower_lower : ∀ text, lower (lower text) = lower text
  upper_ascii : ∀ text : Text, (∀ c ∈ text, c.toNat < 128) → upper text = text.upper
  lower_ascii : ∀ text : Text, (∀ c ∈ text, c.toNat < 128) → lower text = text.lower

namespace Python

variable (py : Python)

/-- `str(v)` -/
def str : Value → Text
  | .str text => text
  | .int n => numeral n
  | .bool true => "True"
  | .bool false => "False"
  | v => py.repr v

@[simp] theorem str_str (text : Text) : py.str (.str text) = text := rfl

/-- `int(v)` -/
def toInt : Value → Option Int
  | .int n => some n
  | .bool true => some 1
  | .bool false => some 0
  | .str text => py.int text
  | .literal text => py.floor text
  | _ => none

/-- `bool(v)` -/
def toBool : Value → Bool
  | .bool b => b
  | .int n => n ≠ 0
  | .str text => text ≠ []
  | .literal text => py.truth text
  | .list vs => !vs.isEmpty
  | .dict t => !t.isEmpty

end Python

/-- What `for x in v` goes through. -/
def iterate : Value → Option (List Value)
  | .list vs => some vs
  | .str text => some (text.map fun c => .str [c])
  | .dict t => some ((Dict.keys t).map .str)
  | _ => none

def isStr (text : Text) : Value → Bool
  | .str other => other = text
  | _ => false

/-- `d[name] if name in d`, for any object a file may have put in the place of `d`: `in` finds
a part of a string and an item of a list, which then have no such index. -/
def entry (name : Text) : Value → Option (Option Value)
  | .dict t => some (t.lookup name)
  | .str text => if name <:+: text then none else some none
  | .list vs => if vs.any (isStr name) then none else some none
  | _ => none

/-- A field keeps its default where the section does not name it. -/
def setting {α : Type} (d : Value) (name : Text) (initial : α) (convert : Value → Option α) :
    Option α := do
  match ← entry name d with
  | none => some initial
  | some v => convert v

inductive Setting where
  | text (value : Text)
  | int (value : Int)
  | bool (value : Bool)
  | texts (values : List Text)
  | ints (values : List Int)
deriving DecidableEq

structure Field where
  name : Text
  initial : Setting
  convert : Python → Value → Option Setting

namespace Field

def text (name initial : Text) : Field :=
  ⟨name, .text initial, fun py v => some (.text (py.str v))⟩

def lowerText (name initial : Text) : Field :=
  ⟨name, .text initial, fun py v => some (.text (py.lower (py.str v)))⟩

def int (name : Text) (initial : Int) : Field :=
  ⟨name, .int initial, fun py v => (py.toInt v).map .int⟩

def bool (name : Text) (initial : Bool) : Field :=
  ⟨name, .bool initial, fun py v => some (.bool (py.toBool v))⟩

def texts (name : Text) (initial : List Text) : Field :=
  ⟨name, .texts initial, fun py v => (iterate v).map fun vs => .texts (vs.map py.str)⟩

def ints (name : Text) : Field :=
  ⟨name, .ints [], fun py v => do (← (← iterate v).mapM py.toInt) |> Setting.ints |> some⟩

end Field

abbrev Section := List (Text × Setting)

def buildSection (py : Python) (fields : List Field) (d : Value) : Option Section :=
  fields.mapM fun field =>
    (setting d field.name field.initial (field.convert py)).map fun v => (field.name, v)

/-- The text fields of `[node]`. -/
def presentation : List (Text × Text) :=
  [("node_call", "NOCALL"), ("node_alias", "NOCALL"), ("owner_name", "BBS Sysop"),
    ("qth", "Unknown"), ("node_locator", ""), ("motd", "Welcome to pyBulletin"),
    ("branding_name", "pyBulletin"), ("welcome_title", "Welcome"), ("welcome_body", ""),
    ("login_tip", "Type H for help, B to disconnect."), ("support_contact", ""),
    ("website_url", "")]

def nodeFields : List Field :=
  (presentation.map fun field => .text field.1 field.2) ++
    [.bool "show_status_after_login" true, .bool "require_password" true,
      .texts "hierarchy" ["WW"]]

def telnetFields : List Field :=
  [.text "host" "0.0.0.0", .int "port" 6300, .ints "ports", .int "max_clients" 50,
    .int "idle_timeout_seconds" 1800, .int "max_line_length" 256]

def webFields : List Field := [.text "host" "127.0.0.1", .int "port" 8080]

def publicWebFields : List Field :=
  [.bool "enabled" false, .text "host" "127.0.0.1", .int "port" 8081, .text "static_dir" ""]

def storeFields : List Field :=
  [.text "sqlite_path" "./data/pybulletin.db", .text "files_path" "./data/files"]

def retentionFields : List Field :=
  [.int "personal_mail_days" 30, .int "bulletin_days" 14, .int "nts_days" 7, .int "killed_days" 1]

def kissFields : List Field :=
  [.lowerText "transport" "disabled", .text "device" "", .int "baud" 9600, .int "paclen" 236,
    .text "tcp_host" "", .int "tcp_port" 8001, .int "default_port" 0, .texts "init_cmds" [],
    .int "init_delay_ms" 500]

def afskFields : List Field :=
  [.bool "enabled" false, .bool "dcd_enabled" true, .text "input_device" "",
    .text "output_device" "", .text "ptt_device" "", .int "sample_rate" 48000, .int "port" 0,
    .int "mark_hz" 1200, .int "space_hz" 2200, .int "baud" 1200]

def beaconFields : List Field :=
  [.bool "enabled" false, .text "text" "pyBulletin BBS \x7bnode_call\x7d - \x7bversion\x7d",
    .int "interval_seconds" 600, .int "port" 0, .text "path" ""]

def rateLimitFields : List Field :=
  [.int "max_connections_per_ip" 5, .int "max_messages_per_session_per_hour" 20,
    .int "max_message_body_bytes" 32768]

def pactorFields : List Field :=
  [.bool "enabled" false, .text "device" "", .int "baud" 115200, .int "paclen" 250]

def buildNode (py : Python) : Value → Option Section := buildSection py nodeFields

def buildTelnet (py : Python) : Value → Option Section := buildSection py telnetFields

def buildWeb (py : Python) : Value → Option Section := buildSection py webFields

def buildPublicWeb (py : Python) : Value → Option Section := buildSection py publicWebFields

def buildStore (py : Python) : Value → Option Section := buildSection py storeFields

def buildRetention (py : Python) : Value → Option Section := buildSection py retentionFields

def buildKiss (py : Python) : Value → Option Section := buildSection py kissFields

def buildAfsk (py : Python) : Value → Option Section := buildSection py afskFields

def buildBeacon (py : Python) : Value → Option Section := buildSection py beaconFields

def buildRateLimit (py : Python) : Value → Option Section := buildSection py rateLimitFields

def buildPactor (py : Python) : Value → Option Section := buildSection py pactorFields

structure ForwardNeighborConfig where
  call : Text := []
  address : Text := []
  protocol : Text := "b2"
  schedule : Text := "0 */2 * * *"
  categories : List Text := ["WW"]
  binMode : Bool := true
  enabled : Bool := true
deriving DecidableEq

def buildNeighbor (py : Python) (d : Value) : Option ForwardNeighborConfig := do
  let c : ForwardNeighborConfig := {}
  let call ← setting d "call" c.call fun v => some (py.upper (py.str v))
  let address ← setting d "address" c.address fun v => some (py.str v)
  let protocol ← setting d "protocol" c.protocol fun v => some (py.lower (py.str v))
  let schedule ← setting d "schedule" c.schedule fun v => some (py.str v)
  let categories ← setting d "categories" c.categories fun v =>
    (iterate v).map fun vs => vs.map fun x => py.upper (py.str x)
  let binMode ← setting d "bin_mode" c.binMode fun v => some (py.toBool v)
  let enabled ← setting d "enabled" c.enabled fun v => some (py.toBool v)
  some { call, address, protocol, schedule, categories, binMode, enabled }

structure ForwardConfig where
  enabled : Bool := true
  listenPort : Int := 6301
  listenHost : Text := "0.0.0.0"
  neighbors : List ForwardNeighborConfig := []
deriving DecidableEq

/-- `[_build_neighbor(n) for n in d.get("neighbor", [])]` -/
def buildNeighbors (py : Python) (t : Dict) : Option (List ForwardNeighborConfig) := do
  let listed ← iterate ((t.lookup ("neighbor" : Text)).getD (.list []))
  listed.mapM (buildNeighbor py)

/-- Only a table has the `get` that ends the builder. -/
def buildForward (py : Python) : Value → Option ForwardConfig
  | .dict t => do
      let c : ForwardConfig := {}
      let enabled ← setting (.dict t) "enabled" c.enabled fun v => some (py.toBool v)
      let listenPort ← setting (.dict t) "listen_port" c.listenPort py.toInt
      let listenHost ← setting (.dict t) "listen_host" c.listenHost fun v => some (py.str v)
      let neighbors ← buildNeighbors py t
      some { enabled, listenPort, listenHost, neighbors }
  | _ => none

structure AppConfig where
  node : Section
  telnet : Section
  web : Section
  publicWeb : Section
  store : Section
  retention : Section
  kiss : Section
  afsk : Section
  beacon : Section
  rateLimit : Section
  forward : ForwardConfig
  pactor : Section
deriving DecidableEq

mutual

/-- What stands under a key once `v` is merged over what stood there. -/
def mergeValue : Option Value → Value → Value
  | some (.dict base), .dict override => .dict (deepMerge base override)
  | _, v => v

def deepMerge : Dict → List (Text × Value) → Dict
  | result, [] => result
  | result, item :: override => deepMerge (result.set item.1 (mergeItem result item)) override

def mergeItem : Dict → Text × Value → Value
  | result, (key, v) => mergeValue (result.lookup key) v

end

/-- `data.get(name, {})` -/
def sectionOf (data : Dict) (name : Text) : Value := (data.lookup name).getD (.dict [])

def buildConfig (py : Python) (data : Dict) : Option AppConfig := do
  some {
    node := ← buildNode py (sectionOf data "node")
    telnet := ← buildTelnet py (sectionOf data "telnet")
    web := ← buildWeb py (sectionOf data "web")
    publicWeb := ← buildPublicWeb py (sectionOf data "public_web")
    store := ← buildStore py (sectionOf data "store")
    retention := ← buildRetention py (sectionOf data "retention")
    kiss := ← buildKiss py (sectionOf data "kiss")
    afsk := ← buildAfsk py (sectionOf data "afsk")
    beacon := ← buildBeacon py (sectionOf data "beacon")
    rateLimit := ← buildRateLimit py (sectionOf data "rate_limit")
    forward := ← buildForward py (sectionOf data "forward")
    pactor := ← buildPactor py (sectionOf data "pactor") }

/-- The reader's forms of values that `tomllib` knows beyond the plain ones. -/
abbrev Forms := Text → Option (Value × Text)

/-- `load_config`, given the texts of the base file and of the local file beside it. -/
def loadConfig (forms : Forms) (py : Python) (base : Text) (local_ : Option Text) :
    Option AppConfig := do
  let data ← loads forms base
  match local_ with
  | none => buildConfig py data
  | some text => buildConfig py (deepMerge data (← loads forms text))

end PyBulletin.Config
