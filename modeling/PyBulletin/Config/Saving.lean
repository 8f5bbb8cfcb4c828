import Mathlib.Data.List.Nodup
import PyBulletin.Foundation.TomlDocument
import PyBulletin.Config.Writer

set_option autoImplicit false

namespace PyBulletin.Config

open Foundation Toml

/-! # What a saved file says

The text `save_config` writes, read by the rules for documents: the overrides it kept, every
plain key in front of the tables, and the section `[forward]` of the running configuration. -/

/-- An item of an array that the writer spells as the reader expects. -/
def PlainItem : Value → Prop
  | .str text => Inert text
  | .int n => (Nat.toDigits 10 n.natAbs).length ≤ Text.maxIntDigits
  | _ => False

/-- A value the writer spells as the reader expects. -/
inductive Storable : Value → Prop where
  | str {text : Text} (lined : Lined text) : Storable (.str text)
  | int {n : Int} (short : (Nat.toDigits 10 n.natAbs).length ≤ Text.maxIntDigits) :
      Storable (.int n)
  | bool (b : Bool) : Storable (.bool b)
  | list {vs : List Value} (each : ∀ v ∈ vs, PlainItem v) : Storable (.list vs)
  | dict {d : Dict} (distinct : (Dict.keys d).Nodup) (bare : ∀ k ∈ Dict.keys d, Bare k)
      (each : ∀ item ∈ d, Storable item.2) : Storable (.dict d)

variable {forms : Forms} {py : Python} {v : Value} {d t : Dict} {p : Path} {k : Text}

theorem escaped_cons (c : Char) (text : Text) :
    escaped (c :: text) =
      (if c = '"' ∨ c = '\\' then ['\\', c] else [c]) ++ escaped text := by
  by_cases quote : c = '"'
  · simp [escaped, replaceChar, quote]
  · by_cases backslash : c = '\\'
    · simp [escaped, replaceChar, backslash]
    · simp [escaped, replaceChar, quote, backslash]

theorem spells_escaped {text : Text} (lined : Lined text) :
    Spells (escaped text) text ∧ '\r' ∉ escaped text := by
  induction text with
  | nil => exact ⟨spells_nil, List.not_mem_nil⟩
  | cons c text ih =>
      obtain ⟨first, others⟩ := List.forall_mem_cons.mp lined
      obtain ⟨spelled, unix⟩ := ih others
      rw [escaped_cons]
      by_cases quote : c = '"'
      · subst quote
        exact ⟨spells_quote spelled, by simpa using unix⟩
      · by_cases backslash : c = '\\'
        · subst backslash
          exact ⟨spells_backslash spelled, by simpa using unix⟩
        · rw [if_neg (by simp [quote, backslash])]
          refine ⟨spells_char ⟨first, quote, backslash⟩ spelled, ?_⟩
          rw [List.mem_append, List.mem_singleton, not_or]
          refine ⟨?_, unix⟩
          rintro rfl
          exact absurd first (by decide)

theorem reads_quoted {text : Text} (inert : Inert text) : Reads forms (quoted text) (.str text) := by
  apply inert.spells.reads
  intro listed
  exact absurd (inert _ listed).1 (by decide)

theorem reads_escaped {text : Text} (lined : Lined text) :
    Reads forms (quoted (escaped text)) (.str text) :=
  (spells_escaped lined).1.reads (spells_escaped lined).2

theorem reads_bool (b : Bool) : Reads forms (boolText b) (.bool b) := by
  cases b
  · exact reads_false
  · exact reads_true

theorem reads_array {parts : List (Text × Value)} (each : ∀ part ∈ parts, Reads forms part.1 part.2) :
    Reads forms (arrayText (parts.map Prod.fst)) (.list (parts.map Prod.snd)) :=
  reads_list each

theorem reads_item (plain : PlainItem v) : Reads forms (itemText py v) v := by
  cases v with
  | str text => exact reads_quoted plain
  | int n => exact reads_numeral plain
  | bool _ | literal _ | list _ | dict _ => exact absurd plain id

theorem reads_scalar (storable : Storable v) (scalar : isDict v = false) :
    Reads forms (scalarText py v) v := by
  cases storable with
  | str lined => exact reads_escaped lined
  | int short => exact reads_numeral short
  | bool b => exact reads_bool b
  | @list vs each =>
      have parts : ∀ part ∈ vs.map fun v => (itemText py v, v), Reads forms part.1 part.2 := by
        intro part listed
        obtain ⟨v, among, rfl⟩ := List.mem_map.mp listed
        exact reads_item (each v among)
      simpa [scalarText, Function.comp_def] using reads_array parts
  | dict _ _ _ => exact absurd scalar (by simp [isDict])

/-- The entries of a table that are no tables. -/
def scalars (d : Dict) : Dict := d.filter fun item => !isDict item.2

mutual

/-- A value with every table in the order in which it is written. -/
def arrange : Value → Value
  | .dict d => .dict (scalars d ++ arrangeTables d)
  | v => v

def arrangeTables : List (Text × Value) → Dict
  | [] => []
  | item :: d => arrangeItem item ++ arrangeTables d

def arrangeItem : Text × Value → Dict
  | (k, v) => if isDict v then [(k, arrange v)] else []

end

def arranged (d : Dict) : Dict := scalars d ++ arrangeTables d

/-- Each entry is written once, in one of the two parts. -/
theorem lookup_parts (distinct : (Dict.keys d).Nodup) (k : Text) :
    (scalars d).lookup k = (d.lookup k).filter (fun v => !isDict v) ∧
      (arrangeTables d).lookup k = ((d.lookup k).filter isDict).map arrange := by
  induction d with
  | nil => exact ⟨rfl, rfl⟩
  | cons item d ih =>
      obtain ⟨key, v⟩ := item
      obtain ⟨single, distinct⟩ := List.nodup_cons.mp distinct
      obtain ⟨first, second⟩ := ih distinct
      have gone : d.lookup key = none := Dict.lookup_eq_none.mpr single
      cases table : isDict v with
      | true =>
          have shape : scalars ((key, v) :: d) = scalars d := by simp [scalars, table]
          rw [shape, first, arrangeTables, arrangeItem, if_pos table, List.singleton_append,
            Dict.lookup_cons, Dict.lookup_cons, second]
          by_cases same : k = key
          · simp [same, gone, Option.filter, table]
          · simp [same]
      | false =>
          have shape : scalars ((key, v) :: d) = (key, v) :: scalars d := by simp [scalars, table]
          rw [shape, arrangeTables, arrangeItem, if_neg (by simp [table]), List.nil_append,
            Dict.lookup_cons, Dict.lookup_cons, first, second]
          by_cases same : k = key
          · simp [same, gone, Option.filter, table]
          · simp [same]

theorem arrange_scalar (scalar : isDict v = false) : arrange v = v := by
  cases v with
  | dict _ => exact absurd scalar (by simp [isDict])
  | str _ | int _ | bool _ | literal _ | list _ => rfl

theorem lookup_arranged (distinct : (Dict.keys d).Nodup) (k : Text) :
    (arranged d).lookup k = (d.lookup k).map arrange := by
  obtain ⟨first, second⟩ := lookup_parts distinct k
  rw [arranged, List.lookup_append, first, second]
  cases d.lookup k with
  | none => rfl
  | some v =>
      cases table : isDict v with
      | true => simp [table]
      | false => simp [table, arrange_scalar table]

theorem mem_keys_arranged (distinct : (Dict.keys d).Nodup) :
    k ∈ Dict.keys (arranged d) ↔ k ∈ Dict.keys d := by
  rw [← not_iff_not, ← Dict.lookup_eq_none, ← Dict.lookup_eq_none, lookup_arranged distinct,
    Option.map_eq_none_iff]

theorem keys_scalars (d : Dict) : (Dict.keys (scalars d)).Sublist (Dict.keys d) :=
  List.filter_sublist.map _

def scalarRow (py : Python) (item : Text × Value) : Row :=
  ⟨item.1, [' '], scalarText py item.2, item.2⟩

variable (forms py p t) in
theorem assigns_scalars (bare : ∀ k ∈ Dict.keys d, Bare k) (distinct : (Dict.keys d).Nodup)
    (each : ∀ item ∈ d, Storable item.2) (fresh : ∀ k ∈ Dict.keys d, k ∉ t.keys) :
    Assigns forms (scalarLines py d).flatten p t (t ++ scalars d) := by
  have valid : ∀ row ∈ (scalars d).map (scalarRow py), row.Valid forms := by
    intro row listed
    obtain ⟨item, among, rfl⟩ := List.mem_map.mp listed
    obtain ⟨among, scalar⟩ := List.mem_filter.mp among
    exact Row.valid (bare item.1 (List.mem_map_of_mem among)) (by decide)
      (reads_scalar (each item among) (by simpa using scalar))
  have single : (((scalars d).map (scalarRow py)).map Row.key).Nodup := by
    rw [List.map_map]
    exact distinct.sublist (keys_scalars d)
  have new : ∀ row ∈ (scalars d).map (scalarRow py), row.key ∉ t.keys := by
    intro row listed
    obtain ⟨item, among, rfl⟩ := List.mem_map.mp listed
    exact fresh item.1 (List.mem_map_of_mem (List.mem_of_mem_filter among))
  have rows := assigns_rows (p := p) valid single new
  have shape : (scalarLines py d).flatten = ((scalars d).map (scalarRow py)).flatMap Row.line := by
    simp [scalarLines, scalars, scalarRow, Row.line, Function.comp_def, List.flatMap_def]
  rw [shape]
  simpa [scalarRow, Row.item, Function.comp_def] using rows

theorem section_dotted (path : ∀ key ∈ p, Bare key) (k : Text) :
    (if dotted p = [] then k else dotted p ++ '.' :: k) = dotted (p ++ [k]) := by
  cases p with
  | nil => simp [dotted]
  | cons key p =>
      have some_ : dotted (key :: p) ≠ [] := by
        obtain ⟨-, c, letters, shape, -⟩ := dotted_front (by simp) path
        simp [shape]
      rw [if_neg some_]
      clear path some_
      induction p generalizing key with
      | nil => simp [dotted]
      | cons next p ih =>
          have back := ih next
          simp only [dotted, List.intercalate_cons_cons, List.cons_append, List.append_assoc] at back ⊢
          rw [back]

/-- The lines of a table under the key `k` build it in order. -/
def Opened (forms : Forms) (py : Python) (v : Value) : Prop :=
  ∀ p k t, (∀ key ∈ p ++ [k], Bare key) → k ∉ Dict.keys t →
    Opens forms (tableLines py (dotted (p ++ [k])) v).flatten p t (t ++ arrangeItem (k, v))

variable (forms py) in
theorem opens_tables (path : ∀ key ∈ p, Bare key) (bare : ∀ k ∈ Dict.keys d, Bare k)
    (distinct : (Dict.keys d).Nodup) (each : ∀ item ∈ d, Opened forms py item.2)
    (fresh : ∀ item ∈ d, isDict item.2 → item.1 ∉ t.keys) :
    Opens forms (tablesLines py (dotted p) d).flatten p t (t ++ arrangeTables d) := by
  induction d generalizing t with
  | nil => simpa [tablesLines, arrangeTables] using Opens.nil
  | cons item d ih =>
      obtain ⟨k, v⟩ := item
      obtain ⟨here, others⟩ := List.forall_mem_cons.mp bare
      obtain ⟨single, distinct⟩ := List.nodup_cons.mp distinct
      obtain ⟨opened, each⟩ := List.forall_mem_cons.mp each
      obtain ⟨new, fresh⟩ := List.forall_mem_cons.mp fresh
      have whole : ∀ key ∈ p ++ [k], Bare key := by
        intro key listed
        rcases List.mem_append.mp listed with inside | last
        · exact path key inside
        · exact List.mem_singleton.mp last ▸ here
      have first : Opens forms (itemLines py (dotted p) (k, v)).flatten p t
          (t ++ arrangeItem (k, v)) := by
        rw [itemLines, section_dotted path]
        cases table : isDict v with
        | true => exact opened p k t whole (new table)
        | false =>
            cases v with
            | dict _ => exact absurd table (by simp [isDict])
            | str _ | int _ | bool _ | literal _ | list _ =>
                simpa [tableLines, arrangeItem, isDict] using Opens.nil
      have apart : ∀ item ∈ d, isDict item.2 → item.1 ∉ Dict.keys (t ++ arrangeItem (k, v)) := by
        intro item listed table
        have inside : item.1 ∈ Dict.keys d := List.mem_map_of_mem listed
        have other : item.1 ≠ k := fun same => single (same ▸ inside)
        rw [Dict.keys_append, List.mem_append, not_or]
        refine ⟨fresh item listed table, ?_⟩
        rw [arrangeItem]
        split
        · simpa using other
        · exact List.not_mem_nil
      simpa [tablesLines, arrangeTables] using first.append (ih others distinct each apart)

theorem scalars_not_table (distinct : (Dict.keys d).Nodup) {item : Text × Value} (listed : item ∈ d)
    (table : isDict item.2) : item.1 ∉ Dict.keys (scalars d) := by
  intro inside
  obtain ⟨other, among, same⟩ := List.mem_map.mp inside
  obtain ⟨among, scalar⟩ := List.mem_filter.mp among
  have one : other = item := List.inj_on_of_nodup_map distinct among listed same
  rw [one, table] at scalar
  exact absurd scalar (by decide)

theorem opened_of_storable (storable : Storable v) : Opened forms py v := by
  induction storable with
  | str _ | int _ | bool _ | list _ =>
      intro p k t _ _
      simpa [tableLines, arrangeItem, isDict] using Opens.nil
  | @dict d distinct bare each ih =>
      intro p k t path fresh
      have keys := assigns_scalars forms py [] (p ++ [k]) bare distinct each (by simp)
      have tables := opens_tables forms py (t := scalars d) path bare distinct ih
        fun item listed table => scalars_not_table distinct listed table
      have whole := opens_table path fresh keys tables
      simpa [tableLines, arrangeItem, arrange, isDict] using whole

/-- What a file says of a neighbor. -/
def neighborDict (n : ForwardNeighborConfig) : Dict :=
  [("call", .str n.call), ("address", .str n.address), ("protocol", .str n.protocol),
    ("schedule", .str n.schedule), ("categories", .list (n.categories.map .str)),
    ("bin_mode", .bool n.binMode), ("enabled", .bool n.enabled)]

def forwardDict (forward : ForwardConfig) : Dict :=
  ("enabled", .bool forward.enabled) ::
    arrayEntry "neighbor" (forward.neighbors.map fun n => .dict (neighborDict n))

def forwardItem (forward : ForwardConfig) : Text × Value :=
  ("forward", .dict (forwardDict forward))

/-- A neighbor whose texts stand between quotes as they are; only the address is escaped. -/
structure PlainNeighbor (n : ForwardNeighborConfig) : Prop where
  call : Inert n.call
  address : Lined n.address
  protocol : Inert n.protocol
  schedule : Inert n.schedule
  categories : ∀ c ∈ n.categories, Inert c

theorem reads_categories {texts : List Text} (inert : ∀ c ∈ texts, Inert c) :
    Reads forms (arrayText (texts.map quoted)) (.list (texts.map .str)) := by
  have parts : ∀ part ∈ texts.map fun c => (quoted c, Value.str c), Reads forms part.1 part.2 := by
    intro part listed
    obtain ⟨c, among, rfl⟩ := List.mem_map.mp listed
    exact reads_quoted (inert c among)
  simpa [Function.comp_def] using reads_array parts

/-- The lines of a neighbor: a key, blanks up to a column, and the value. -/
def neighborRows (n : ForwardNeighborConfig) : List Row :=
  [⟨"call", "       ", quoted n.call, .str n.call⟩,
    ⟨"address", "    ", quoted (escaped n.address), .str n.address⟩,
    ⟨"protocol", "   ", quoted n.protocol, .str n.protocol⟩,
    ⟨"schedule", "   ", quoted n.schedule, .str n.schedule⟩,
    ⟨"categories", " ", arrayText (n.categories.map quoted), .list (n.categories.map .str)⟩,
    ⟨"bin_mode", "   ", boolText n.binMode, .bool n.binMode⟩,
    ⟨"enabled", "    ", boolText n.enabled, .bool n.enabled⟩]

theorem neighborLines_rows (n : ForwardNeighborConfig) :
    (neighborLines n).flatten =
      ("\n[[forward.neighbor]]\n" : Text) ++ (neighborRows n).flatMap Row.line := by
  simp [neighborLines, neighborRows, Row.line]

theorem assigns_neighbor {n : ForwardNeighborConfig} (plain : PlainNeighbor n) :
    Assigns forms ((neighborRows n).flatMap Row.line) p [] (neighborDict n) := by
  have valid : ∀ row ∈ neighborRows n, row.Valid forms := by
    simp only [neighborRows, List.forall_mem_cons]
    refine ⟨Row.valid (by decide) (by decide) (reads_quoted plain.call),
      Row.valid (by decide) (by decide) (reads_escaped plain.address),
      Row.valid (by decide) (by decide) (reads_quoted plain.protocol),
      Row.valid (by decide) (by decide) (reads_quoted plain.schedule),
      Row.valid (by decide) (by decide) (reads_categories plain.categories),
      Row.valid (by decide) (by decide) (reads_bool _),
      Row.valid (by decide) (by decide) (reads_bool _), ?_⟩
    exact fun _ none_ => absurd none_ List.not_mem_nil
  have distinct : ((neighborRows n).map Row.key).Nodup := by
    show List.Nodup (["call", "address", "protocol", "schedule", "categories", "bin_mode",
      "enabled"] : List Text)
    decide
  exact assigns_rows valid distinct (by simp)

theorem opens_neighbors {neighbors : List ForwardNeighborConfig}
    (plain : ∀ n ∈ neighbors, PlainNeighbor n) (fresh : ("neighbor" : Text) ∉ t.keys) :
    Opens forms (neighbors.flatMap neighborLines).flatten ["forward"] t
      (t ++ arrayEntry "neighbor" (neighbors.map fun n => .dict (neighborDict n))) := by
  have each : ∀ part ∈ neighbors.map fun n => ((neighborRows n).flatMap Row.line, neighborDict n),
      Assigns forms part.1 (["forward"] ++ ["neighbor"]) [] part.2 := by
    intro part listed
    obtain ⟨n, among, rfl⟩ := List.mem_map.mp listed
    exact assigns_neighbor (plain n among)
  have array := opens_array (p := ["forward"]) (k := "neighbor") (by decide) fresh each
  have shape : (neighbors.flatMap neighborLines).flatten =
      (neighbors.map fun n => ((neighborRows n).flatMap Row.line, neighborDict n)).flatMap fun part =>
        ['\n', '[', '['] ++ dotted (["forward"] ++ ["neighbor"]) ++ [']', ']', '\n'] ++ part.1 := by
    have header : ['\n', '[', '['] ++ dotted (["forward"] ++ ["neighbor"]) ++ [']', ']', '\n'] =
        ("\n[[forward.neighbor]]\n" : Text) := by decide
    rw [List.flatMap_map, header, List.flatMap_def, List.flatten_flatten, List.map_map,
      ← List.flatMap_def]
    exact List.flatMap_congr fun n _ => neighborLines_rows n
  rw [shape]
  simpa [Function.comp_def] using array

theorem opens_forward {forward : ForwardConfig} (plain : ∀ n ∈ forward.neighbors, PlainNeighbor n)
    (fresh : ("forward" : Text) ∉ t.keys) :
    Opens forms
      (("\n[forward]\n" : Text) ++ (("enabled = " : Text) ++ boolText forward.enabled ++ ['\n']) ++
        (forward.neighbors.flatMap neighborLines).flatten)
      [] t (t ++ [forwardItem forward]) := by
  have blank : ∀ c ∈ ([' '] : Text), isBlank c = true := by decide
  have enabled : Assigns forms (("enabled = " : Text) ++ boolText forward.enabled ++ ['\n'])
      ["forward"] [] [("enabled", .bool forward.enabled)] :=
    assigns_key (k := "enabled") (by decide) blank (reads_bool _) (by simp)
  have other : ("neighbor" : Text) ∉ ([("enabled" : Text)] : List Text) := by decide
  have neighbors := @opens_neighbors forms [("enabled", .bool forward.enabled)] _ plain other
  exact opens_table (p := []) (k := "forward") (by decide) fresh enabled neighbors

theorem loads_file {nonFwd : Dict} (storable : Storable (.dict nonFwd))
    (fresh : ("forward" : Text) ∉ Dict.keys nonFwd) {forward : ForwardConfig}
    (plain : ∀ n ∈ forward.neighbors, PlainNeighbor n) :
    loads forms (fileLines py nonFwd forward).flatten =
      some (arranged nonFwd ++ [forwardItem forward]) := by
  cases storable with
  | dict distinct bare each =>
      have remark : Lined (" pyBulletin local config overrides — managed by sysop console" : Text) := by
        decide
      have keys := (@assigns_comment forms [] [] _ remark).append
        (assigns_scalars forms py [] [] bare distinct each (by simp))
      have tables := opens_tables forms py (p := []) (t := scalars nonFwd) (by simp) bare distinct (fun item listed => opened_of_storable (each item listed))
        fun item listed table => scalars_not_table distinct listed table
      have apart : ("forward" : Text) ∉ Dict.keys (scalars nonFwd ++ arrangeTables nonFwd) :=
        mt (mem_keys_arranged distinct).mp fresh
      have whole := loads_document keys (tables.append (opens_forward plain apart))
      simpa [fileLines, dictToToml, dotted, arranged] using whole

end PyBulletin.Config
