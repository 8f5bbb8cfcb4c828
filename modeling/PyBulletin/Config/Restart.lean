import PyBulletin.Config.Reload

set_option autoImplicit false

namespace PyBulletin.Config

open Foundation Toml

variable {forms : Forms} {py : Python} {base : Text} {local_ : Option Text} {b d : Dict}
  {c : AppConfig}

/-- What the local file says; where there is none, nothing. -/
def localDict (forms : Forms) : Option Text → Option Dict
  | none => some []
  | some text => loads forms text

theorem loadConfig_merged (read : loads forms base = some b) (given : localDict forms local_ = some d) :
    loadConfig forms py base local_ = buildConfig py (deepMerge b d) := by
  cases local_ with
  | none =>
      cases Option.some.inj given
      rw [loadConfig, read]
      rfl
  | some text =>
      have found : loads forms text = some d := given
      rw [loadConfig, read]
      simp [found]

theorem saveConfig_overrides (given : localDict forms local_ = some d) :
    saveConfig forms py c local_ = (overrides c.node d).map fun nonFwd =>
      (fileLines py nonFwd c.forward).flatten := by
  cases local_ with
  | none =>
      cases Option.some.inj given
      cases kept : overrides c.node [] <;> simp [saveConfig, kept]
  | some text =>
      have found : loads forms text = some d := given
      cases kept : overrides c.node d <;> simp [saveConfig, found, kept]

/-- The texts of a configuration are written so that they are read back. -/
structure Presentable (c : AppConfig) : Prop where
  node : ∀ field ∈ presentation, Lined (c.node.text field.1)
  neighbors : ∀ n ∈ c.forward.neighbors, PlainNeighbor n

/-- A save of plain texts over a local file it can rewrite: the file, what it says, and the
configuration it loads to. -/
theorem load_saved (read : loads forms base = some b) (given : localDict forms local_ = some d)
    (writable : Writable d) (table : NodeTable d) {before : AppConfig}
    (built : buildConfig py (deepMerge b d) = some before) (plain : Presentable c) :
    ∃ nonFwd text, overrides c.node d = some nonFwd ∧ Kept c.node d nonFwd ∧
      Storable (.dict nonFwd) ∧ saveConfig forms py c local_ = some text ∧
      loads forms text = some (saved nonFwd c.forward) ∧
      loadConfig forms py base (some text) =
        (reloadedForward py (beneath (b.lookup ("forward" : Text))) c.forward).map fun forward =>
          { before with
            node := before.node.map fun item => (item.1, (shown c.node item.1).getD item.2)
            forward } := by
  obtain ⟨nonFwd, kept', kept, stores⟩ := overrides_kept table c.node
  have storable := stores writable.storable plain.node
  have written : loads forms (fileLines py nonFwd c.forward).flatten =
      some (saved nonFwd c.forward) :=
    loads_file storable (Dict.lookup_eq_none.mp kept.forward) plain.neighbors
  refine ⟨nonFwd, _, kept', kept, storable, ?_, written, ?_⟩
  · rw [saveConfig_overrides given, kept']
    rfl
  · rw [loadConfig_merged read (show localDict forms (some _) = _ from written)]
    exact config_saved writable table kept storable built

/-- What the base file alone says of the forwarding agrees with the configuration: the port and
the host to listen on are not overridden, and no neighbor of the base file has been dropped. -/
structure ForwardKept (py : Python) (b : Dict) (forward : ForwardConfig) : Prop where
  port : setting (.dict b) "listen_port" ({} : ForwardConfig).listenPort py.toInt =
    some forward.listenPort
  host : setting (.dict b) "listen_host" ({} : ForwardConfig).listenHost (fun v => some (py.str v)) =
    some forward.listenHost
  neighbors : forward.neighbors = [] → buildNeighbors py b = some []

theorem reloadedForward_iff {forward : ForwardConfig}
    (folds : forward.neighbors.map (folded py) = forward.neighbors) :
    reloadedForward py d forward = some forward ↔ ForwardKept py d forward := by
  have listed : reloadedNeighbors py d forward.neighbors = some forward.neighbors ↔
      (forward.neighbors = [] → buildNeighbors py d = some []) := by
    rw [reloadedNeighbors, folds]
    by_cases empty : forward.neighbors = []
    · rw [if_pos empty, empty]
      simp
    · rw [if_neg empty]
      simp [empty]
  constructor
  · intro same
    rw [reloadedForward] at same
    obtain ⟨port, hport, same⟩ := Option.bind_eq_some_iff.mp same
    obtain ⟨host, hhost, same⟩ := Option.bind_eq_some_iff.mp same
    obtain ⟨neighbors, hneighbors, same⟩ := Option.bind_eq_some_iff.mp same
    have whole := Option.some.inj same
    refine ⟨?_, ?_, listed.mp ?_⟩
    · rw [← whole]
      exact hport
    · rw [← whole]
      exact hhost
    · rw [hneighbors, ← whole]
  · intro kept
    rw [reloadedForward, kept.port, kept.host, listed.mpr kept.neighbors]
    rfl

/-- A configuration comes back unchanged from a save exactly where the local file can take the
node's fields and the forwarding is that of the base file but for its switch and a list of
neighbors that is not empty. -/
theorem reload_same_iff (read : loads forms base = some b) (given : localDict forms local_ = some d)
    (writable : Writable d) (loaded : loadConfig forms py base local_ = some c)
    (plain : Presentable c) :
    (saveConfig forms py c local_).bind (fun text => loadConfig forms py base (some text)) = some c ↔
      NodeTable d ∧ ForwardKept py (beneath (b.lookup ("forward" : Text))) c.forward := by
  have built : buildConfig py (deepMerge b d) = some c :=
    (loadConfig_merged read given).symm.trans loaded
  by_cases table : NodeTable d
  · obtain ⟨nonFwd, text, -, -, -, saved_, -, reloads⟩ :=
      load_saved read given writable table built plain
    have parts := builtFrom built
    rw [saved_, Option.bind_some, reloads, shown_self parts.node,
      ← reloadedForward_iff (folded_forward parts.forward), and_iff_right table]
    cases reloadedForward py (beneath (b.lookup ("forward" : Text))) c.forward with
    | none => simp
    | some forward =>
        rw [Option.map_some, Option.some.injEq, Option.some.injEq]
        constructor
        · intro same
          exact congrArg AppConfig.forward same
        · rintro rfl
          rfl
  · rw [saveConfig_overrides given, overrides_none table]
    simp [table]

/-- Python on texts in ASCII, with nothing beyond them. -/
def ascii : Python where
  repr _ := []
  int := Text.parseInt
  floor _ := none
  truth _ := true
  upper := Text.upper
  lower := Text.lower
  surrogate _ := false
  surrogate_low _ _ := rfl
  upper_upper := Text.upper_upper
  lower_lower := Text.lower_lower
  upper_ascii _ _ := rfl
  lower_ascii _ _ := rfl

def noForms : Forms := fun _ => none

/-- A local file that sets one field of the node. -/
def greeting : Text := "[node]\nmotd = \"Hi\"\n"

def greetingDict : Dict := [("node", .dict [("motd", .str "Hi")])]

theorem greeting_writable : Writable greetingDict where
  distinct := by decide
  storable := by
    have inner : Storable (.dict [(("motd" : Text), .str "Hi")]) :=
      .dict (by decide) (by decide) (by simpa using Storable.str (by decide))
    have shape : greetingDict.without "forward" = greetingDict := by
      rw [greetingDict, Dict.without_cons, if_neg (by decide)]
      rfl
    rw [shape]
    exact .dict (by decide) (by decide) (by simpa [greetingDict] using inner)
  flat := by
    intro s _ t found field _ v inside
    rw [greetingDict, Dict.lookup_pair] at found
    split at found
    · cases found
      rw [Dict.lookup_pair] at inside
      split at inside
      · cases inside
        rfl
      · exact absurd inside (by simp)
    · exact absurd found (by simp)

/-- The texts that come from that file and from the defaults are plain. -/
theorem greeting_loaded : ∃ c, loadConfig noForms ascii [] (some greeting) = some c ∧
    Presentable c ∧ c.forward = {} := by
  have facts : ((loadConfig noForms ascii [] (some greeting)).map fun c =>
      (decide (∀ field ∈ presentation, Lined (c.node.text field.1)), c.forward)) =
      some (true, {}) := by decide +kernel
  obtain ⟨c, loaded, facts⟩ := Option.map_eq_some_iff.mp facts
  obtain ⟨lined, forward⟩ := Prod.mk.inj facts
  exact ⟨c, loaded, ⟨of_decide_eq_true lined, by rw [forward]; simp⟩, forward⟩

theorem greeting_table : NodeTable greetingDict := by
  intro v found
  rw [greetingDict, Dict.lookup_pair, if_pos rfl] at found
  cases found
  rfl

theorem greeting_reloads :
    ∃ c, loadConfig noForms ascii [] (some greeting) = some c ∧
      (saveConfig noForms ascii c (some greeting)).bind
        (fun text => loadConfig noForms ascii [] (some text)) = some c := by
  obtain ⟨c, loaded, plain, forward⟩ := greeting_loaded
  have read : loads noForms [] = some [] := rfl
  have given : localDict noForms (some greeting) = some greetingDict := rfl
  have kept : ForwardKept ascii (beneath (List.lookup ("forward" : Text) [])) c.forward := by
    rw [forward]
    exact ⟨rfl, rfl, fun _ => rfl⟩
  exact ⟨c, loaded,
    (reload_same_iff read given greeting_writable loaded plain).mpr ⟨greeting_table, kept⟩⟩

/-- A local file that moves the port for incoming connections. -/
def movedPort : Text := "[forward]\nlisten_port = 7000\n"

/-- The port a local file had set is gone after a save. -/
theorem listen_port_lost :
    ∃ c text, loadConfig noForms ascii [] (some movedPort) = some c ∧
      saveConfig noForms ascii c (some movedPort) = some text ∧
      loadConfig noForms ascii [] (some text) ≠ some c := by
  have run : ((loadConfig noForms ascii [] (some movedPort)).bind fun c =>
      (saveConfig noForms ascii c (some movedPort)).map fun text =>
        (c.forward.listenPort,
          (loadConfig noForms ascii [] (some text)).map (·.forward.listenPort))) =
      some (7000, some 6301) := by decide +kernel
  obtain ⟨c, loaded, run⟩ := Option.bind_eq_some_iff.mp run
  obtain ⟨text, written, run⟩ := Option.map_eq_some_iff.mp run
  refine ⟨c, text, loaded, written, ?_⟩
  intro same
  rw [same] at run
  obtain ⟨before, after⟩ := Prod.mk.inj run
  have moved : c.forward.listenPort = 6301 := Option.some.inj after
  rw [before] at moved
  exact absurd moved (by decide)

end PyBulletin.Config
