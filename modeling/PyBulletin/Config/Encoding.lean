import PyBulletin.Config.Reload

set_option autoImplicit false

namespace PyBulletin.Config

open Foundation Toml

namespace Python

variable (py : Python)

/-- `text.encode("utf-8")` goes through. -/
def Encodes (text : Text) : Prop := ∀ c ∈ text, py.surrogate c = false

instance (text : Text) : Decidable (py.Encodes text) := inferInstanceAs (Decidable (∀ _, _ → _))

/-- What `write_text` leaves in the file, which it empties before it encodes the text. -/
def written (text : Text) : Text := if py.Encodes text then text else []

variable {py} {text more : Text}

theorem encodes_low (low : ∀ c ∈ text, c.toNat < 0xD800) : py.Encodes text :=
  fun c listed => py.surrogate_low c (low c listed)

theorem encodes_append : py.Encodes (text ++ more) ↔ py.Encodes text ∧ py.Encodes more :=
  List.forall_mem_append

theorem encodes_cons {c : Char} : py.Encodes (c :: text) ↔ py.surrogate c = false ∧ py.Encodes text :=
  List.forall_mem_cons

theorem encodes_flatten {lines : List Text} (each : ∀ line ∈ lines, py.Encodes line) :
    py.Encodes lines.flatten := by
  intro c listed
  obtain ⟨line, among, inside⟩ := List.mem_flatten.mp listed
  exact each line among c inside

end Python

variable {py : Python} {v : Value} {d nonFwd : Dict} {k text : Text} {node : Section}

/-- A value whose texts can be encoded. -/
inductive Encodable (py : Python) : Value → Prop where
  | str {text : Text} (encodes : py.Encodes text) : Encodable py (.str text)
  | int (n : Int) : Encodable py (.int n)
  | bool (b : Bool) : Encodable py (.bool b)
  | list {vs : List Value} (each : ∀ v ∈ vs, Encodable py v) : Encodable py (.list vs)
  | dict {d : Dict} (each : ∀ item ∈ d, Encodable py item.2) : Encodable py (.dict d)

def ForwardNeighborConfig.texts (n : ForwardNeighborConfig) : List Text :=
  n.call :: n.address :: n.protocol :: n.schedule :: n.categories

theorem encodes_quoted : py.Encodes (quoted text) ↔ py.Encodes text := by
  have mark : py.surrogate '"' = false := py.surrogate_low _ (by decide)
  rw [quoted, List.cons_append, Python.encodes_cons, Python.encodes_append]
  simp [Python.Encodes, mark]

theorem encodes_escaped (encodes : py.Encodes text) : py.Encodes (escaped text) := by
  induction text with
  | nil => exact encodes
  | cons c text ih =>
      obtain ⟨first, others⟩ := Python.encodes_cons.mp encodes
      rw [escaped_cons, Python.encodes_append]
      refine ⟨?_, ih others⟩
      have backslash : py.surrogate '\\' = false := py.surrogate_low _ (by decide)
      split
      · simp [Python.Encodes, backslash, first]
      · simpa [Python.Encodes] using first

theorem encodes_numeral (n : Int) : py.Encodes (numeral n) := by
  have digits : py.Encodes (Nat.toDigits 10 n.natAbs) := Python.encodes_low fun c listed => by
    have bounds := Text.digit_bounds listed
    omega
  rw [numeral]
  split
  · exact Python.encodes_cons.mpr ⟨py.surrogate_low _ (by decide), digits⟩
  · exact digits

theorem encodes_bool (b : Bool) : py.Encodes (boolText b) := by
  cases b <;> exact Python.encodes_low (by decide)

theorem encodes_bare (bare : Bare k) : py.Encodes k := by
  refine Python.encodes_low fun c listed => ?_
  have plain := bare.2 c listed
  simp only [isBare, decide_eq_true_eq] at plain
  rcases plain with letter | rfl | rfl
  · have bounds := Text.alphanum_bounds letter
    omega
  · decide
  · decide

theorem encodes_array {items : List Text} (each : ∀ item ∈ items, py.Encodes item) :
    py.Encodes (arrayText items) := by
  have comma : py.Encodes (", " : Text) := Python.encodes_low (by decide)
  have opening : py.surrogate '[' = false := py.surrogate_low _ (by decide)
  have closing : py.Encodes [']'] := Python.encodes_low (by decide)
  rw [arrayText, List.cons_append, Python.encodes_cons, Python.encodes_append]
  refine ⟨opening, ?_, closing⟩
  induction items with
  | nil => exact fun _ listed => absurd listed (by simp)
  | cons item items ih =>
      obtain ⟨here, others⟩ := List.forall_mem_cons.mp each
      cases items with
      | nil => simpa using here
      | cons next items =>
          rw [List.intercalate_cons_cons, Python.encodes_append, Python.encodes_append]
          exact ⟨⟨here, comma⟩, ih others⟩

theorem encodes_scalar (storable : Storable v) (encodable : Encodable py v) (scalar : isDict v = false) :
    py.Encodes (scalarText py v) := by
  cases storable with
  | str lined =>
      cases encodable with
      | str encodes => exact encodes_quoted.mpr (encodes_escaped encodes)
  | int short => exact encodes_numeral _
  | bool b => exact encodes_bool b
  | @list vs plain =>
      cases encodable with
      | list each =>
          refine encodes_array fun item listed => ?_
          obtain ⟨v, among, rfl⟩ := List.mem_map.mp listed
          have spelled := plain v among
          cases each v among with
          | str encodes => exact encodes_quoted.mpr encodes
          | int n => exact encodes_numeral n
          | bool _ | list _ | dict _ => exact absurd spelled id
  | dict _ _ _ => exact absurd scalar (by simp [isDict])

theorem encodes_scalars (storable : Storable (.dict d)) (encodable : Encodable py (.dict d)) :
    ∀ line ∈ scalarLines py d, py.Encodes line := by
  intro line listed
  obtain ⟨item, among, rfl⟩ := List.mem_map.mp listed
  obtain ⟨inside, scalar⟩ := List.mem_filter.mp among
  cases storable with
  | dict _ bare stored =>
      cases encodable with
      | dict each =>
          have key : py.Encodes item.1 := encodes_bare (bare item.1 (List.mem_map_of_mem inside))
          have value := encodes_scalar (stored item inside) (each item inside) (by simpa using scalar)
          have sign : py.Encodes (" = " : Text) := Python.encodes_low (by decide)
          have newline : py.Encodes ['\n'] := Python.encodes_low (by decide)
          simp only [Python.encodes_append]
          exact ⟨⟨⟨key, sign⟩, value⟩, newline⟩

theorem mem_tablesLines {p line : Text} (listed : line ∈ tablesLines py p d) :
    ∃ item ∈ d, line ∈ tableLines py (if p = [] then item.1 else p ++ '.' :: item.1) item.2 := by
  induction d with
  | nil => exact absurd listed (by simp [tablesLines])
  | cons item d ih =>
      rw [tablesLines] at listed
      rcases List.mem_append.mp listed with here | there
      · obtain ⟨k, v⟩ := item
        rw [itemLines] at here
        exact ⟨_, List.mem_cons_self, here⟩
      · obtain ⟨other, among, inside⟩ := ih there
        exact ⟨other, List.mem_cons_of_mem _ among, inside⟩

/-- Tables of tables, by induction on how they can be stored. -/
theorem encodes_table (storable : Storable v) (encodable : Encodable py v) {p : Text}
    (name : py.Encodes p) : ∀ line ∈ tableLines py p v, py.Encodes line := by
  induction storable generalizing p with
  | str _ | int _ | bool _ | list _ =>
      intro line listed
      rw [tableLines] at listed
      · cases listed
      all_goals simp
  | @dict d distinct bare stored ih =>
      cases encodable with
      | dict each =>
          intro line listed
          rw [tableLines] at listed
          rcases List.mem_cons.mp listed with rfl | inside
          · have bracket : py.surrogate '\n' = false ∧ py.surrogate '[' = false :=
              ⟨py.surrogate_low _ (by decide), py.surrogate_low _ (by decide)⟩
            have closing : py.Encodes [']', '\n'] := Python.encodes_low (by decide)
            simpa [Python.encodes_append, Python.encodes_cons, bracket, closing] using name
          · rcases List.mem_append.mp inside with scalar | table
            · exact encodes_scalars (.dict distinct bare stored) (.dict each) line scalar
            · obtain ⟨item, among, written⟩ := mem_tablesLines table
              have key : py.Encodes item.1 := encodes_bare (bare item.1 (List.mem_map_of_mem among))
              refine ih item among (each item among) ?_ line written
              split
              · exact key
              · have dot : py.surrogate '.' = false := py.surrogate_low _ (by decide)
                rw [Python.encodes_append, Python.encodes_cons]
                exact ⟨name, dot, key⟩

/-- The texts of a configuration that a save writes down can be encoded. -/
structure EncodableConfig (py : Python) (c : AppConfig) : Prop where
  node : ∀ field ∈ presentation, py.Encodes (c.node.text field.1)
  neighbors : ∀ n ∈ c.forward.neighbors, ∀ text ∈ n.texts, py.Encodes text

theorem encodes_neighbor {n : ForwardNeighborConfig} (each : ∀ text ∈ n.texts, py.Encodes text) :
    ∀ line ∈ neighborLines n, py.Encodes line := by
  simp only [ForwardNeighborConfig.texts, List.forall_mem_cons] at each
  obtain ⟨call, address, protocol, schedule, categories⟩ := each
  have newline : py.Encodes ['\n'] := Python.encodes_low (by decide)
  have listed : py.Encodes (arrayText (n.categories.map quoted)) := by
    refine encodes_array fun item listed => ?_
    obtain ⟨word, among, rfl⟩ := List.mem_map.mp listed
    exact encodes_quoted.mpr (categories word among)
  have header : py.Encodes ("\n[[forward.neighbor]]\n" : Text) := Python.encodes_low (by decide)
  have value {name text : Text} (low : ∀ c ∈ name, c.toNat < 0xD800) (encodes : py.Encodes text) :
      py.Encodes (name ++ text ++ ['\n']) := by
    rw [Python.encodes_append, Python.encodes_append]
    exact ⟨⟨Python.encodes_low low, encodes⟩, newline⟩
  simp only [neighborLines, List.forall_mem_cons]
  exact ⟨header, value (by decide) (encodes_quoted.mpr call),
    value (by decide) (encodes_quoted.mpr (encodes_escaped address)),
    value (by decide) (encodes_quoted.mpr protocol), value (by decide) (encodes_quoted.mpr schedule),
    value (by decide) listed, value (by decide) (encodes_bool _), value (by decide) (encodes_bool _),
    by simp⟩

theorem encodes_file {forward : ForwardConfig} (storable : Storable (.dict nonFwd))
    (encodable : Encodable py (.dict nonFwd))
    (neighbors : ∀ n ∈ forward.neighbors, ∀ text ∈ n.texts, py.Encodes text) :
    py.Encodes (fileLines py nonFwd forward).flatten := by
  refine Python.encodes_flatten fun line listed => ?_
  simp only [fileLines, dictToToml, List.mem_append, List.mem_cons, List.not_mem_nil,
    or_false, List.mem_flatMap, or_assoc] at listed
  rcases listed with rfl | scalar | table | rfl | rfl | ⟨n, among, inside⟩
  · exact Python.encodes_low (by decide)
  · exact encodes_scalars storable encodable line scalar
  · obtain ⟨item, among, inside⟩ := mem_tablesLines table
    cases storable with
    | dict _ bare stored =>
        cases encodable with
        | dict each =>
            refine encodes_table (stored item among) (each item among) ?_ line inside
            rw [if_pos rfl]
            exact encodes_bare (bare item.1 (List.mem_map_of_mem among))
  · exact Python.encodes_low (by decide)
  · have name : py.Encodes ("enabled = " : Text) := Python.encodes_low (by decide)
    have newline : py.Encodes ['\n'] := Python.encodes_low (by decide)
    simp only [Python.encodes_append]
    exact ⟨⟨name, encodes_bool _⟩, newline⟩
  · exact encodes_neighbor (neighbors n among) line inside

theorem Encodable.set (encodable : Encodable py (.dict d)) (value : Encodable py v) :
    Encodable py (.dict (d.set k v)) := by
  cases encodable with
  | dict each =>
      refine .dict fun item listed => ?_
      rw [Dict.set] at listed
      split at listed
      · obtain ⟨old, among, rfl⟩ := List.mem_map.mp listed
        split
        · exact value
        · exact each old among
      · rcases List.mem_append.mp listed with old | new
        · exact each item old
        · exact List.mem_singleton.mp new ▸ value

theorem Encodable.presented (encodable : Encodable py (.dict d))
    (texts : ∀ field ∈ presentation, py.Encodes (node.text field.1)) :
    Encodable py (.dict (presented node d)) := by
  rw [Config.presented]
  generalize presentation = fields at texts
  induction fields generalizing d with
  | nil => exact encodable
  | cons field fields ih =>
      obtain ⟨here, others⟩ := List.forall_mem_cons.mp texts
      exact ih (encodable.set (.str here)) others

theorem Encodable.lookup (encodable : Encodable py (.dict d)) (found : d.lookup k = some v) :
    Encodable py v := by
  cases encodable with
  | dict each => exact each _ (Dict.lookup_mem found)

theorem Encodable.overrides (encodable : Encodable py (.dict (d.without "forward")))
    (texts : ∀ field ∈ presentation, py.Encodes (node.text field.1))
    (kept : overrides node d = some nonFwd) : Encodable py (.dict nonFwd) := by
  rw [Config.overrides] at kept
  have start : Encodable py
      (.dict (Dict.without (if ("node" : Text) ∈ d.keys then d else d.set "node" (.dict []))
        "forward")) := by
    split
    · exact encodable
    · rw [Dict.without_set _ _ node_ne_forward]
      exact encodable.set (.dict (by simp))
  generalize (if ("node" : Text) ∈ d.keys then d else d.set "node" (.dict [])) = e at *
  dsimp only at kept
  split at kept
  · rename_i table found
    cases kept
    rw [Dict.without_set _ _ node_ne_forward]
    have inner : (e.without "forward").lookup ("node" : Text) = some (.dict table) := by
      rw [Dict.lookup_without, if_neg node_ne_forward, found]
    exact start.set ((start.lookup inner).presented texts)
  · cases kept

end PyBulletin.Config
