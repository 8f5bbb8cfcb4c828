import PyBulletin.Foundation.Run
import PyBulletin.Config.Encoding
import PyBulletin.Config.Restart

set_option autoImplicit false

namespace PyBulletin.Config

open Foundation Toml

/-! # The configuration under the web endpoints

`_set_config`, `_add_neighbor`, `_update_neighbor` and `_delete_neighbor` of web/app.py for a
sysop: each changes the running configuration and saves it. -/

/-- The fields of a neighbor that a request gives. -/
structure NeighborBody where
  address : Option Text
  protocol : Option Text
  schedule : Option Text
  categories : Option (List Text)
  binMode : Option Bool
  enabled : Option Bool

inductive Edit where
  | setConfig (body : List (Text × Text))
  | addNeighbor (call : Text) (body : NeighborBody)
  | updateNeighbor (call : Text) (body : NeighborBody)
  | deleteNeighbor (call : Text)

/-- The presentation fields a request may set. -/
def allowed : List Text :=
  ["motd", "welcome_title", "welcome_body", "login_tip", "owner_name", "qth", "node_locator",
    "branding_name"]

/-- `object.__setattr__(section, name, value)` for a text field. -/
def Section.setText (section_ : Section) (name value : Text) : Section :=
  section_.map fun item => if item.1 = name then (name, .text value) else item

def setConfig (node : Section) (body : List (Text × Text)) : Section :=
  body.foldl (fun node item => if item.1 ∈ allowed then node.setText item.1 item.2 else node) node

def NeighborBody.apply (py : Python) (body : NeighborBody) (n : ForwardNeighborConfig) :
    ForwardNeighborConfig :=
  { n with
    address := body.address.getD n.address
    protocol := body.protocol.getD n.protocol
    schedule := body.schedule.getD n.schedule
    categories := (body.categories.map fun words => words.map py.upper).getD n.categories
    binMode := body.binMode.getD n.binMode
    enabled := body.enabled.getD n.enabled }

/-- The first neighbor of that call takes the fields of the body. -/
def updateFirst (py : Python) (call : Text) (body : NeighborBody) :
    List ForwardNeighborConfig → Option (List ForwardNeighborConfig)
  | [] => none
  | n :: neighbors =>
      if n.call = call then some (body.apply py n :: neighbors)
      else (updateFirst py call body neighbors).map (n :: ·)

def AppConfig.withNeighbors (c : AppConfig) (neighbors : List ForwardNeighborConfig) : AppConfig :=
  { c with forward := { c.forward with neighbors } }

/-- The configuration behind an endpoint, where it does not refuse the request. -/
def edit (py : Python) (c : AppConfig) : Edit → Option AppConfig
  | .setConfig body => some { c with node := setConfig c.node body }
  | .addNeighbor call body =>
      let call := py.upper (Text.strip call)
      if call = [] ∨ c.forward.neighbors.any (·.call = call) then none
      else some (c.withNeighbors (c.forward.neighbors ++ [body.apply py { call }]))
  | .updateNeighbor call body => (updateFirst py call body c.forward.neighbors).map c.withNeighbors
  | .deleteNeighbor call =>
      let after := c.forward.neighbors.filter (·.call ≠ call)
      if after.length = c.forward.neighbors.length then none else some (c.withNeighbors after)

/-- The running configuration and the text of the local file. -/
structure Service where
  config : AppConfig
  file : Option Text

/-- An endpoint with its save.  Where `save_config` fails before it writes, the file stays as it
was. -/
def step (forms : Forms) (py : Python) (s : Service) (e : Edit) : Option Service :=
  (edit py s.config e).map fun config =>
    { config, file := ((saveConfig forms py config s.file).map py.written).or s.file }

/-- The settings a save writes down, up to the case the loader gives them. -/
structure Agrees (py : Python) (c loaded : AppConfig) : Prop where
  node : ∀ field ∈ presentation, loaded.node.text field.1 = c.node.text field.1
  enabled : loaded.forward.enabled = c.forward.enabled
  neighbors : loaded.forward.neighbors = c.forward.neighbors.map (folded py)

section Again

variable {py : Python} {forms : Forms} {d nonFwd : Dict} {node : Section} {forward : ForwardConfig}
  {v : Value}

theorem mem_arranged {item : Text × Value} (listed : item ∈ arranged d) :
    ∃ old ∈ d, item = (old.1, arrange old.2) := by
  rcases List.mem_append.mp listed with scalar | table
  · obtain ⟨among, scalar⟩ := List.mem_filter.mp scalar
    exact ⟨item, among, by rw [arrange_scalar (by simpa using scalar)]⟩
  · clear listed
    induction d with
    | nil => exact absurd table List.not_mem_nil
    | cons old d ih =>
        rw [arrangeTables] at table
        rcases List.mem_append.mp table with here | there
        · obtain ⟨key, w⟩ := old
          rw [arrangeItem] at here
          split at here
          · exact ⟨(key, w), List.mem_cons_self, List.mem_singleton.mp here⟩
          · exact absurd here List.not_mem_nil
        · obtain ⟨old', among, shape⟩ := ih there
          exact ⟨old', List.mem_cons_of_mem _ among, shape⟩

theorem Storable.arrange (storable : Storable v) : Storable (arrange v) := by
  induction storable with
  | str lined => exact .str lined
  | int short => exact .int short
  | bool b => exact .bool b
  | list each => exact .list each
  | @dict d distinct bare each ih =>
      have perm := keys_arranged d
      refine .dict (perm.nodup_iff.mpr distinct) (fun k listed => bare k (perm.mem_iff.mp listed)) ?_
      intro item listed
      obtain ⟨old, among, rfl⟩ := mem_arranged listed
      exact ih old among

theorem Encodable.arrange (encodable : Encodable py v) : Encodable py (arrange v) := by
  induction encodable with
  | str encodes => exact .str encodes
  | int n => exact .int n
  | bool b => exact .bool b
  | list each => exact .list each
  | dict each ih =>
      refine .dict fun item listed => ?_
      obtain ⟨old, among, rfl⟩ := mem_arranged listed
      exact ih old among

theorem saved_without (gone : nonFwd.lookup ("forward" : Text) = none)
    (distinct : (Dict.keys nonFwd).Nodup) :
    (saved nonFwd forward).without "forward" = arranged nonFwd := by
  have others : ("forward" : Text) ∉ Dict.keys (arranged nonFwd) :=
    mt (mem_keys_arranged distinct).mp (Dict.lookup_eq_none.mp gone)
  rw [saved, Dict.without, List.filter_append]
  have kept : (arranged nonFwd).filter (fun e => e.1 ≠ ("forward" : Text)) = arranged nonFwd := by
    rw [List.filter_eq_self]
    intro item listed
    rw [decide_eq_true_eq]
    intro same
    exact others (same ▸ List.mem_map_of_mem listed)
  have key : (forwardItem forward).1 = ("forward" : Text) := rfl
  have last : [forwardItem forward].filter (fun e => e.1 ≠ ("forward" : Text)) = [] :=
    List.filter_cons_of_neg (by rw [key]; decide)
  rw [kept, last, List.append_nil]

theorem section_names : (sectionFields.map Prod.fst).Nodup ∧
    ("forward" : Text) ∉ sectionFields.map Prod.fst := by
  have names : sectionFields.map Prod.fst = ([("node" : Text), "telnet", "web", "public_web", "store",
    "retention", "kiss", "afsk", "beacon", "rate_limit", "pactor"] : List Text) := rfl
  rw [names]
  decide

/-- A save leaves the settings of a file in their order. -/
theorem flat_kept (writable : Writable d) (kept : Kept node d nonFwd) {s : Text × List Field}
    (known : s ∈ sectionFields) {t : Dict} (found : nonFwd.lookup s.1 = some (.dict t)) {field : Field}
    (listed : field ∈ s.2) (inside : t.lookup field.name = some v) : arrange v = v := by
  have outside : s.1 ≠ "forward" := fun same =>
    section_names.2 (same ▸ List.mem_map_of_mem known)
  by_cases apart : s.1 = "node"
  · have itself : s = (("node" : Text), nodeFields) :=
      List.inj_on_of_nodup_map section_names.1 known List.mem_cons_self apart
    rw [apart] at found
    have table := Value.dict.inj (Option.some.inj (kept.node.symm.trans found))
    rw [← table] at inside
    rw [itself] at listed
    exact flat_presented writable listed v inside
  · rw [kept.others s.1 outside apart] at found
    exact writable.flat s known t found field listed v inside

variable (forward) in
theorem saved_writable (writable : Writable d) (kept : Kept node d nonFwd)
    (storable : Storable (.dict nonFwd)) :
    Writable (saved nonFwd forward) ∧ NodeTable (saved nonFwd forward) := by
  have whole := storable
  cases storable with
  | dict distinct bare each =>
      refine ⟨⟨saved_distinct distinct kept.forward, ?_, ?_⟩, ?_⟩
      · rw [saved_without kept.forward distinct]
        exact whole.arrange
      · intro s known t found field listed v inside
        have outside : s.1 ≠ "forward" := fun same =>
          section_names.2 (same ▸ List.mem_map_of_mem known)
        rw [lookup_saved distinct outside] at found
        obtain ⟨w, old, shape⟩ := Option.map_eq_some_iff.mp found
        cases each _ (Dict.lookup_mem old) with
        | str _ | int _ | bool _ | list _ => exact absurd shape (by simp [arrange])
        | @dict t₀ distinct' _ _ =>
            obtain rfl : arranged t₀ = t := Value.dict.inj shape
            rw [lookup_arranged distinct'] at inside
            obtain ⟨v₀, old', rfl⟩ := Option.map_eq_some_iff.mp inside
            exact congrArg arrange (flat_kept writable kept known old listed old')
      · intro v found
        rw [lookup_saved distinct node_ne_forward, kept.node] at found
        cases found
        rfl

end Again

/-- The texts of a body as they are stored. -/
def NeighborBody.texts (py : Python) (body : NeighborBody) : List Text :=
  body.address.toList ++ body.protocol.toList ++ body.schedule.toList ++
    (body.categories.map fun words => words.map py.upper).getD []

/-- A body whose texts can be encoded and stand between quotes as they are. -/
structure PlainBody (py : Python) (body : NeighborBody) : Prop where
  address : ∀ text ∈ body.address, Lined text
  protocol : ∀ text ∈ body.protocol, Inert text
  schedule : ∀ text ∈ body.schedule, Inert text
  categories : ∀ words ∈ body.categories, ∀ word ∈ words, Inert (py.upper word)
  encodes : ∀ text ∈ body.texts py, py.Encodes text

/-- The base file lists no neighbor that a local file without one would bring back. -/
def NoneBelow (py : Python) (b : Dict) : Prop := buildNeighbors py b = some []

/-- An edit that the writer can write down, over the section `[forward]` of the base file. -/
def Harmless (py : Python) (b : Dict) (s : Service) : Edit → Prop
  | .setConfig body =>
      (∀ item ∈ body, item.1 ∈ allowed → Lined item.2 ∧ py.Encodes item.2) ∧
        (s.config.forward.neighbors = [] → NoneBelow py b)
  | .addNeighbor call body =>
      Inert (py.upper (Text.strip call)) ∧ py.Encodes (py.upper (Text.strip call)) ∧
        PlainBody py body
  | .updateNeighbor _ body => PlainBody py body
  | .deleteNeighbor call =>
      (∀ n ∈ s.config.forward.neighbors, n.call = call) → NoneBelow py b

section Edits

variable {py : Python} {forms : Forms} {b : Dict} {c c' : AppConfig} {n : ForwardNeighborConfig}
  {body : NeighborBody} {node : Section}

theorem PlainBody.apply (plain : PlainBody py body) (before : PlainNeighbor n) :
    PlainNeighbor (body.apply py n) := by
  obtain ⟨address, protocol, schedule, categories, -⟩ := plain
  refine ⟨before.call, ?_, ?_, ?_, ?_⟩
  · cases given : body.address with
    | none => simpa [NeighborBody.apply, given] using before.address
    | some text => simpa [NeighborBody.apply, given] using address text (by simp [given])
  · cases given : body.protocol with
    | none => simpa [NeighborBody.apply, given] using before.protocol
    | some text => simpa [NeighborBody.apply, given] using protocol text (by simp [given])
  · cases given : body.schedule with
    | none => simpa [NeighborBody.apply, given] using before.schedule
    | some text => simpa [NeighborBody.apply, given] using schedule text (by simp [given])
  · cases given : body.categories with
    | none => simpa [NeighborBody.apply, given] using before.categories
    | some words => simpa [NeighborBody.apply, given] using categories words (by simp [given])

theorem plain_default {call : Text} (inert : Inert call) : PlainNeighbor { call } := by
  have address : Lined [] := by decide
  have protocol : Inert "b2" := by decide
  have schedule : Inert "0 */2 * * *" := by decide
  have categories : ∀ c ∈ (["WW"] : List Text), Inert c := by decide
  exact ⟨inert, address, protocol, schedule, categories⟩

theorem plain_updateFirst {call : Text} (plain : PlainBody py body)
    {neighbors after : List ForwardNeighborConfig} (each : ∀ n ∈ neighbors, PlainNeighbor n)
    (updated : updateFirst py call body neighbors = some after) :
    (∀ n ∈ after, PlainNeighbor n) ∧ after ≠ [] := by
  induction neighbors generalizing after with
  | nil => exact absurd updated (by simp [updateFirst])
  | cons n neighbors ih =>
      obtain ⟨first, others⟩ := List.forall_mem_cons.mp each
      rw [updateFirst] at updated
      split at updated
      · cases updated
        exact ⟨List.forall_mem_cons.mpr ⟨plain.apply first, others⟩, by simp⟩
      · obtain ⟨rest, updated', rfl⟩ := Option.map_eq_some_iff.mp updated
        exact ⟨List.forall_mem_cons.mpr ⟨first, (ih others updated').1⟩, by simp⟩

theorem lookup_setText (section_ : Section) (name value k : Text) :
    (section_.setText name value).lookup k = if k = name then
      (section_.lookup k).map fun _ => .text value else section_.lookup k := by
  induction section_ with
  | nil => simp [Section.setText]
  | cons item section_ ih =>
      rw [Section.setText] at ih ⊢
      rw [List.map_cons, List.lookup_cons, List.lookup_cons, ih]
      by_cases here : item.1 = name
      · by_cases same : k = name
        · simp [here, same]
        · simp [here, same, beq_false_of_ne same]
      · by_cases same : k = name
        · simp [here, same, beq_false_of_ne (Ne.symm here)]
        · simp [here, same]

/-- A field that is set shows the new text, if any; the others show what they did. -/
theorem text_setText (section_ : Section) (name value k : Text) :
    (section_.setText name value).text k = section_.text k ∨
      (section_.setText name value).text k = value := by
  rw [Section.text, Section.text, lookup_setText]
  by_cases same : k = name
  · rw [if_pos same]
    cases section_.lookup k with
    | none => exact .inl rfl
    | some v => exact .inr rfl
  · rw [if_neg same]
    exact .inl rfl

theorem text_setConfig {Fine : Text → Prop} {items : List (Text × Text)}
    (fine : ∀ item ∈ items, item.1 ∈ allowed → Fine item.2) {k : Text} (before : Fine (node.text k)) :
    Fine ((setConfig node items).text k) := by
  induction items generalizing node with
  | nil => exact before
  | cons item items ih =>
      obtain ⟨here, others⟩ := List.forall_mem_cons.mp fine
      rw [setConfig, List.foldl_cons]
      refine ih others ?_
      split
      · next listed =>
          rcases text_setText node item.1 item.2 k with same | new
          · rwa [same]
          · rw [new]
            exact here listed
      · exact before

theorem mem_getD {α : Type} {given : Option α} {x y : α} (same : x = given.getD y) :
    x ∈ given ∨ x = y := by
  cases given with
  | none => exact .inr same
  | some z => exact .inl (congrArg some same.symm)

theorem mem_apply {text : Text} (listed : text ∈ (body.apply py n).texts) :
    text ∈ body.texts py ∨ text ∈ n.texts := by
  have typed : (text ∈ body.address ∨ text ∈ body.protocol ∨ text ∈ body.schedule ∨
      text ∈ (body.categories.map fun words => words.map py.upper).getD []) →
      text ∈ body.texts py := by
    simp only [NeighborBody.texts, List.mem_append, Option.mem_toList, or_assoc]
    exact id
  simp only [NeighborBody.apply, ForwardNeighborConfig.texts, List.mem_cons] at listed ⊢
  rcases listed with call | address | protocol | schedule | category
  · exact .inr (.inl call)
  · exact (mem_getD address).imp (fun new => typed (.inl new)) fun old => .inr (.inl old)
  · exact (mem_getD protocol).imp (fun new => typed (.inr (.inl new))) fun old =>
      .inr (.inr (.inl old))
  · exact (mem_getD schedule).imp (fun new => typed (.inr (.inr (.inl new)))) fun old =>
      .inr (.inr (.inr (.inl old)))
  · cases given : body.categories with
    | none =>
        rw [given] at category
        exact .inr (.inr (.inr (.inr (.inr category))))
    | some words =>
        rw [given] at category
        exact .inl (typed (.inr (.inr (.inr (by rw [given]; exact category)))))

/-- A harmless edit keeps the texts plain, and leaves the list of neighbors empty only where
the base file has none. -/
theorem edit_plain {s : Service} {e : Edit} (plain : Presentable s.config)
    (harmless : Harmless py b s e) (edited : edit py s.config e = some c) :
    Presentable c ∧ (c.forward.neighbors = [] → NoneBelow py b) := by
  cases e with
  | setConfig items =>
      cases edited
      refine ⟨⟨fun field listed => ?_, plain.neighbors⟩, harmless.2⟩
      exact text_setConfig (fun item among known => (harmless.1 item among known).1)
        (plain.node field listed)
  | addNeighbor call body =>
      rw [edit] at edited
      split at edited
      · exact absurd edited (by simp)
      · cases edited
        refine ⟨⟨plain.node, ?_⟩, by simp [AppConfig.withNeighbors]⟩
        intro n listed
        rcases List.mem_append.mp listed with old | new
        · exact plain.neighbors n old
        · rw [List.mem_singleton.mp new]
          exact harmless.2.2.apply (plain_default harmless.1)
  | updateNeighbor call body =>
      obtain ⟨after, updated, rfl⟩ := Option.map_eq_some_iff.mp edited
      obtain ⟨each, some_⟩ := plain_updateFirst harmless plain.neighbors updated
      exact ⟨⟨plain.node, each⟩, fun none_ => absurd none_ some_⟩
  | deleteNeighbor call =>
      rw [edit] at edited
      split at edited
      · exact absurd edited (by simp)
      · cases edited
        refine ⟨⟨plain.node, fun n listed => plain.neighbors n (List.mem_of_mem_filter listed)⟩, ?_⟩
        intro none_
        refine harmless fun n listed => ?_
        by_contra other
        exact List.filter_eq_nil_iff.mp none_ n listed (by simpa using other)

theorem mem_updateFirst {call : Text} {neighbors after : List ForwardNeighborConfig}
    (updated : updateFirst py call body neighbors = some after) (listed : n ∈ after) :
    n ∈ neighbors ∨ ∃ old ∈ neighbors, n = body.apply py old := by
  induction neighbors generalizing after with
  | nil => cases updated
  | cons first neighbors ih =>
      rw [updateFirst] at updated
      split at updated
      · cases updated
        rcases List.mem_cons.mp listed with rfl | old
        · exact .inr ⟨first, List.mem_cons_self, rfl⟩
        · exact .inl (List.mem_cons_of_mem _ old)
      · obtain ⟨rest, inner, rfl⟩ := Option.map_eq_some_iff.mp updated
        rcases List.mem_cons.mp listed with rfl | later
        · exact .inl List.mem_cons_self
        · rcases ih inner later with old | ⟨old, among, rfl⟩
          · exact .inl (List.mem_cons_of_mem _ old)
          · exact .inr ⟨old, List.mem_cons_of_mem _ among, rfl⟩

theorem edit_encodable {s : Service} {e : Edit} (encodable : EncodableConfig py s.config)
    (harmless : Harmless py b s e) (edited : edit py s.config e = some c) :
    EncodableConfig py c := by
  have applied {body : NeighborBody} {n : ForwardNeighborConfig} (plain : PlainBody py body)
      (before : ∀ text ∈ n.texts, py.Encodes text) :
      ∀ text ∈ (body.apply py n).texts, py.Encodes text := fun text listed =>
    (mem_apply listed).elim (plain.encodes text) (before text)
  cases e with
  | setConfig items =>
      cases edited
      refine ⟨fun field listed => ?_, encodable.neighbors⟩
      exact text_setConfig (fun item among known => (harmless.1 item among known).2)
        (encodable.node field listed)
  | addNeighbor call body =>
      rw [edit] at edited
      split at edited
      · exact absurd edited (by simp)
      · cases edited
        refine ⟨encodable.node, fun n listed => ?_⟩
        rcases List.mem_append.mp listed with old | new
        · exact encodable.neighbors n old
        · rw [List.mem_singleton.mp new]
          refine applied harmless.2.2 ?_
          simp only [ForwardNeighborConfig.texts, List.forall_mem_cons]
          exact ⟨harmless.2.1, Python.encodes_low (by decide), Python.encodes_low (by decide),
            Python.encodes_low (by decide), Python.encodes_low (by decide), by simp⟩
  | updateNeighbor call body =>
      obtain ⟨after, updated, rfl⟩ := Option.map_eq_some_iff.mp edited
      refine ⟨encodable.node, fun n listed => ?_⟩
      rcases mem_updateFirst updated listed with old | ⟨old, among, rfl⟩
      · exact encodable.neighbors n old
      · exact applied harmless (encodable.neighbors old among)
  | deleteNeighbor call =>
      rw [edit] at edited
      split at edited
      · exact absurd edited (by simp)
      · cases edited
        exact ⟨encodable.node, fun n listed => encodable.neighbors n (List.mem_of_mem_filter listed)⟩

end Edits

section Runs

variable {py : Python} {forms : Forms} {base : Text} {b d nonFwd : Dict} {c : AppConfig}
  {s s' : Service} {e : Edit}

theorem reloadedForward_some {forward : ForwardConfig}
    (port : (setting (.dict d) "listen_port" ({} : ForwardConfig).listenPort py.toInt).isSome)
    (below : forward.neighbors = [] → NoneBelow py d) :
    ∃ loaded, reloadedForward py d forward = some loaded ∧ loaded.enabled = forward.enabled ∧
      loaded.neighbors = forward.neighbors.map (folded py) := by
  obtain ⟨portNumber, port⟩ := Option.isSome_iff_exists.mp port
  obtain ⟨host, hhost⟩ : ∃ host, setting (.dict d) "listen_host" ({} : ForwardConfig).listenHost
      (fun v => some (py.str v)) = some host := by
    rw [setting, entry]
    cases d.lookup ("listen_host" : Text) with
    | none => exact ⟨_, rfl⟩
    | some v => exact ⟨_, rfl⟩
  have listed : reloadedNeighbors py d forward.neighbors =
      some (forward.neighbors.map (folded py)) := by
    rw [reloadedNeighbors]
    by_cases empty : forward.neighbors = []
    · rw [if_pos empty, below empty, empty]
      rfl
    · rw [if_neg empty]
  refine ⟨⟨forward.enabled, portNumber, host, forward.neighbors.map (folded py)⟩, ?_, rfl, rfl⟩
  rw [reloadedForward, port, hhost, listed]
  rfl

/-- What a node shows once its written fields have been read back. -/
theorem text_shown {node before : Section} {v : Value} (built : buildNode py v = some before)
    {name : Text} (presents : name ∈ presentation.map Prod.fst) :
    Section.text (before.map fun item => (item.1, (shown node item.1).getD item.2)) name =
      node.text name := by
  have lookup_map : ∀ section_ : Section,
      List.lookup name (section_.map fun item => (item.1, (shown node item.1).getD item.2)) =
        (section_.lookup name).map fun v => (shown node name).getD v := by
    intro section_
    induction section_ with
    | nil => rfl
    | cons item section_ ih =>
        rw [List.map_cons, List.lookup_cons, List.lookup_cons, ih]
        by_cases same : name = item.1
        · simp [same]
        · simp [beq_false_of_ne same]
  obtain ⟨field, among, rfl⟩ : ∃ field ∈ nodeFields, field.name = name := by
    obtain ⟨pair, listed, rfl⟩ := List.mem_map.mp presents
    exact ⟨.text pair.1 pair.2, List.mem_append_left _ (List.mem_map_of_mem listed), rfl⟩
  have known := setting_isSome built field among
  rw [setting_built node_distinct built field among] at known
  obtain ⟨v, found⟩ := Option.isSome_iff_exists.mp known
  rw [Section.text, lookup_map, found, Option.map_some, shown, if_pos presents]
  rfl

/-- The local file can be rewritten, and the files load to the running configuration, whose
texts can be written. -/
structure Sound (forms : Forms) (py : Python) (b : Dict) (s : Service) : Prop where
  plain : Presentable s.config
  encodable : EncodableConfig py s.config
  file : ∃ d loaded, localDict forms s.file = some d ∧ Writable d ∧ NodeTable d ∧
    Encodable py (.dict (d.without "forward")) ∧ buildConfig py (deepMerge b d) = some loaded ∧
    Agrees py s.config loaded

theorem Sound.step (sound : Sound forms py b s) (read : loads forms base = some b)
    (port : (setting (.dict (beneath (b.lookup ("forward" : Text)))) "listen_port"
      ({} : ForwardConfig).listenPort py.toInt).isSome)
    (harmless : Harmless py (beneath (b.lookup ("forward" : Text))) s e)
    (stepped : Config.step forms py s e = some s') : Sound forms py b s' := by
  obtain ⟨c, edited, rfl⟩ := Option.map_eq_some_iff.mp stepped
  obtain ⟨plain, below⟩ := edit_plain sound.plain harmless edited
  have encodable := edit_encodable sound.encodable harmless edited
  obtain ⟨d, before, given, writable, table, encoded, built, -⟩ := sound.file
  obtain ⟨nonFwd, text, overridden, kept, storable, written, found, reloads⟩ :=
    load_saved read given writable table built plain
  have inside := encoded.overrides encodable.node overridden
  have encodes : py.Encodes text := by
    rw [saveConfig_overrides given, overridden] at written
    cases written
    exact encodes_file storable inside encodable.neighbors
  obtain ⟨again, tableAgain⟩ := saved_writable c.forward writable kept storable
  obtain ⟨forward, loaded, enabled, neighbors⟩ := reloadedForward_some port below
  rw [loaded, Option.map_some,
    loadConfig_merged read (show localDict forms (some text) = _ from found)] at reloads
  refine ⟨plain, encodable, _, _, ?_, again, tableAgain, ?_, reloads, ?_, enabled, neighbors⟩
  · rw [written, Option.map_some, Python.written, if_pos encodes]
    exact found
  · cases storable with
    | dict distinct _ _ =>
        rw [saved_without kept.forward distinct]
        exact inside.arrange
  · intro field listed
    exact text_shown (builtFrom built).node (List.mem_map_of_mem listed)

end Runs

/-- A welcome text of two lines. -/
def welcome : Edit := .setConfig [("welcome_body", "Hello\nthere")]

/-- A text for the day with a lone surrogate, for which U+E000 stands, empties the file. -/
example :
    let py : Python :=
      { ascii with
        surrogate := fun c => c.toNat = 0xE000
        surrogate_low := fun _ low => decide_eq_false (by omega) }
    ((loadConfig noForms py [] (some greeting)).bind fun c =>
      (step noForms py ⟨c, some greeting⟩ (.setConfig [("motd", ['\uE000'])])).bind
        Service.file) = some [] := by decide +kernel

end PyBulletin.Config
