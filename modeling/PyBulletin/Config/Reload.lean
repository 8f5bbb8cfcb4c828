import PyBulletin.Config.Saving

set_option autoImplicit false

namespace PyBulletin.Config

open Foundation Toml

/-! # A saved configuration loaded again

What each builder reads from the base file under the overrides, before a save and after it. -/

variable {forms : Forms} {py : Python} {v : Value} {b d o : Dict} {k name : Text}

theorem lookup_deepMerge (distinct : (Dict.keys o).Nodup) (b : Dict) (k : Text) :
    (deepMerge b o).lookup k = ((o.lookup k).map (mergeValue (b.lookup k))).or (b.lookup k) := by
  induction o generalizing b with
  | nil => rfl
  | cons item o ih =>
      obtain ⟨key, v⟩ := item
      obtain ⟨single, distinct⟩ := List.nodup_cons.mp distinct
      have gone : o.lookup key = none := Dict.lookup_eq_none.mpr single
      rw [deepMerge, ih distinct, Dict.lookup_set, Dict.lookup_cons, mergeItem]
      by_cases same : k = key
      · simp [same, gone]
      · simp [same]

theorem keys_arranged (d : Dict) : (Dict.keys (arranged d)).Perm (Dict.keys d) := by
  induction d with
  | nil => exact .refl _
  | cons item d ih =>
      obtain ⟨key, v⟩ := item
      rw [arranged, Dict.keys_append] at ih ⊢
      rw [arrangeTables, arrangeItem]
      cases table : isDict v with
      | true =>
          have shape : scalars ((key, v) :: d) = scalars d := by simp [scalars, table]
          rw [shape, if_pos rfl, List.singleton_append, Dict.keys_cons, Dict.keys_cons]
          exact List.perm_middle.trans (ih.cons key)
      | false =>
          have shape : scalars ((key, v) :: d) = (key, v) :: scalars d := by simp [scalars, table]
          rw [shape, if_neg (by decide), List.nil_append, Dict.keys_cons, Dict.keys_cons]
          exact ih.cons key

theorem mergeValue_scalar (scalar : isDict v = false) (b : Option Value) : mergeValue b v = v := by
  cases v with
  | dict _ => exact absurd scalar (by simp [isDict])
  | str _ | int _ | bool _ | literal _ | list _ =>
      cases b with
      | none => rfl
      | some w => cases w <;> rfl

/-- The table of the base file under a section of the local file. -/
def beneath : Option Value → Dict
  | some (.dict b) => b
  | _ => []

theorem mergeValue_dict (distinct : (Dict.keys o).Nodup) (b : Option Value) :
    ∃ t : Dict, mergeValue b (.dict o) = .dict t ∧ ∀ name, t.lookup name =
      ((o.lookup name).map (mergeValue ((beneath b).lookup name))).or ((beneath b).lookup name) := by
  have alone : ∀ name, o.lookup name =
      ((o.lookup name).map (mergeValue (List.lookup name []))).or (List.lookup name []) := by
    intro name
    cases o.lookup name <;> simp [mergeValue]
  cases b with
  | none => exact ⟨o, rfl, alone⟩
  | some w =>
      cases w with
      | dict b => exact ⟨deepMerge b o, rfl, lookup_deepMerge distinct b⟩
      | str _ | int _ | bool _ | literal _ | list _ => exact ⟨o, rfl, alone⟩

theorem entry_merge (distinct : (Dict.keys o).Nodup) (b : Option Value) (name : Text) :
    entry name (mergeValue b (.dict o)) =
      some (((o.lookup name).map (mergeValue ((beneath b).lookup name))).or
        ((beneath b).lookup name)) := by
  obtain ⟨t, shape, found⟩ := mergeValue_dict distinct b
  rw [shape, entry, found]

/-- A field that is written in its order reads the same from a section and from its written order. -/
theorem entry_arrange (storable : Storable v)
    (flat : ∀ d, v = .dict d → ∀ w, d.lookup name = some w → arrange w = w) (b : Option Value) :
    entry name (mergeValue b (arrange v)) = entry name (mergeValue b v) := by
  cases storable with
  | str _ | int _ | bool _ | list _ => rfl
  | @dict d distinct bare each =>
      have distinct' : (Dict.keys (arranged d)).Nodup := (keys_arranged d).nodup_iff.mpr distinct
      have field : (arranged d).lookup name = d.lookup name := by
        rw [lookup_arranged distinct]
        cases found : d.lookup name with
        | none => rfl
        | some w => rw [Option.map_some, flat d rfl w found]
      have shape : arrange (.dict d) = .dict (arranged d) := rfl
      rw [shape, entry_merge distinct', entry_merge distinct, field]

section Builders

variable {fields : List Field} {section_ : Section} {d d' : Value}

theorem buildSection_congr
    (agree : ∀ field ∈ fields, setting d' field.name field.initial (field.convert py) =
      setting d field.name field.initial (field.convert py)) :
    buildSection py fields d' = buildSection py fields d := by
  induction fields with
  | nil => rfl
  | cons field fields ih =>
      obtain ⟨here, others⟩ := List.forall_mem_cons.mp agree
      have back := ih others
      rw [buildSection] at back ⊢
      rw [buildSection, List.mapM_cons, List.mapM_cons, here, back]
      rfl

theorem setting_congr {α : Type} (same : entry name d' = entry name d) (initial : α)
    (convert : Value → Option α) : setting d' name initial convert = setting d name initial convert := by
  rw [setting, setting, same]

theorem readable_of_setting {α : Type} {initial : α} {convert : Value → Option α}
    (read : (setting d name initial convert).isSome) : (entry name d).isSome := by
  rw [setting] at read
  cases found : entry name d with
  | none =>
      rw [found] at read
      exact read
  | some _ => rfl

theorem buildSection_cons (field : Field) (fields : List Field) :
    buildSection py (field :: fields) d =
      (setting d field.name field.initial (field.convert py)).bind fun v =>
        (buildSection py fields d).map ((field.name, v) :: ·) := by
  rw [buildSection, buildSection, List.mapM_cons]
  cases setting d field.name field.initial (field.convert py) with
  | none => rfl
  | some v => exact (Option.map_eq_bind (f := ((field.name, v) :: ·))).symm

theorem setting_built (distinct : (fields.map Field.name).Nodup)
    (built : buildSection py fields d = some section_) :
    ∀ field ∈ fields,
      setting d field.name field.initial (field.convert py) = section_.lookup field.name := by
  induction fields generalizing section_ with
  | nil => exact fun _ none_ => absurd none_ List.not_mem_nil
  | cons field fields ih =>
      obtain ⟨single, distinct⟩ := List.nodup_cons.mp distinct
      rw [buildSection_cons, Option.bind_eq_some_iff] at built
      obtain ⟨v, here, built⟩ := built
      obtain ⟨others, built', rfl⟩ := Option.map_eq_some_iff.mp built
      intro other listed
      rcases List.mem_cons.mp listed with rfl | listed
      · rw [here, List.lookup_cons_self]
      · have apart : other.name ≠ field.name := fun same =>
          single (same ▸ List.mem_map_of_mem listed)
        rw [List.lookup_cons, beq_false_of_ne apart]
        exact ih distinct built' other listed

theorem setting_isSome (built : buildSection py fields d = some section_) :
    ∀ field ∈ fields, (setting d field.name field.initial (field.convert py)).isSome := by
  induction fields generalizing section_ with
  | nil => exact fun _ none_ => absurd none_ List.not_mem_nil
  | cons field fields ih =>
      rw [buildSection_cons, Option.bind_eq_some_iff] at built
      obtain ⟨v, here, built⟩ := built
      obtain ⟨others, built', rfl⟩ := Option.map_eq_some_iff.mp built
      exact List.forall_mem_cons.mpr ⟨by rw [here]; rfl, ih built'⟩

/-- Where some settings are replaced, the section is the same but for those. -/
theorem buildSection_replace {replaced : Text → Option Setting}
    (agree : ∀ field ∈ fields, setting d' field.name field.initial (field.convert py) =
      (replaced field.name).or (setting d field.name field.initial (field.convert py)))
    (built : buildSection py fields d = some section_) :
    buildSection py fields d' =
      some (section_.map fun item => (item.1, (replaced item.1).getD item.2)) := by
  induction fields generalizing section_ with
  | nil =>
      obtain rfl : [] = section_ := by simpa [buildSection] using built
      rfl
  | cons field fields ih =>
      obtain ⟨here, others⟩ := List.forall_mem_cons.mp agree
      rw [buildSection_cons, Option.bind_eq_some_iff] at built
      obtain ⟨v, read, built⟩ := built
      obtain ⟨rest, built', rfl⟩ := Option.map_eq_some_iff.mp built
      rw [buildSection_cons, here, read, ih others built']
      cases found : replaced field.name with
      | none => simp [found]
      | some w => simp [found]

end Builders

theorem lookup_setAll {α : Type} (name : α → Text) (v : Text → Value) (items : List α) (d : Dict)
    (k : Text) :
    (items.foldl (fun d item => d.set (name item) (v (name item))) d).lookup k =
      if k ∈ items.map name then some (v k) else d.lookup k := by
  induction items generalizing d with
  | nil => simp
  | cons item items ih =>
      rw [List.foldl_cons, ih, Dict.lookup_set, List.map_cons]
      by_cases later : k ∈ items.map name
      · simp [later]
      · by_cases here : k = name item
        · simp [here]
        · simp [later, here]

/-- The settings of a node that a save writes down. -/
def shown (node : Section) (name : Text) : Option Setting :=
  if name ∈ presentation.map Prod.fst then some (.text (node.text name)) else none

theorem lookup_presented (node : Section) (d : Dict) (k : Text) :
    (presented node d).lookup k =
      if k ∈ presentation.map Prod.fst then some (.str (node.text k)) else d.lookup k :=
  lookup_setAll Prod.fst (fun k => .str (node.text k)) presentation d k

/-- `existing["node"]` takes assignments. -/
def NodeTable (d : Dict) : Prop := ∀ v, d.lookup ("node" : Text) = some v → isDict v = true

def nodeDict (d : Dict) : Dict :=
  match d.lookup ("node" : Text) with
  | some (.dict node) => node
  | _ => []

theorem Storable.set (storable : Storable (.dict d)) (bare : Bare k) (value : Storable v) :
    Storable (.dict (d.set k v)) := by
  cases storable with
  | dict distinct names each =>
      constructor
      · rw [Dict.keys_set]
        split
        next => exact distinct
        next fresh =>
          refine List.nodup_append.mpr ⟨distinct, List.nodup_singleton k, ?_⟩
          intro a listed b last same
          exact fresh (List.mem_singleton.mp last ▸ same ▸ listed)
      · intro key listed
        rw [Dict.keys_set] at listed
        split at listed
        · exact names key listed
        · rcases List.mem_append.mp listed with old | new
          · exact names key old
          · exact List.mem_singleton.mp new ▸ bare
      · intro item listed
        rw [Dict.set] at listed
        split at listed
        · obtain ⟨old, among, rfl⟩ := List.mem_map.mp listed
          split
          · exact value
          · exact each old among
        · rcases List.mem_append.mp listed with old | new
          · exact each item old
          · exact List.mem_singleton.mp new ▸ value

theorem bare_presentation : ∀ field ∈ presentation, Bare field.1 := by decide

theorem Storable.presented {node : Section} (storable : Storable (.dict d))
    (lined : ∀ field ∈ presentation, Lined (node.text field.1)) :
    Storable (.dict (presented node d)) := by
  rw [Config.presented]
  have bare := bare_presentation
  generalize presentation = fields at lined bare
  induction fields generalizing d with
  | nil => exact storable
  | cons field fields ih =>
      obtain ⟨here, lined⟩ := List.forall_mem_cons.mp lined
      obtain ⟨name, bare⟩ := List.forall_mem_cons.mp bare
      exact ih (storable.set name (.str here)) lined bare

/-- What a save keeps of the local file: the node's fields as they are now, no `[forward]`,
and the rest. -/
structure Kept (node : Section) (d nonFwd : Dict) : Prop where
  forward : nonFwd.lookup ("forward" : Text) = none
  node : nonFwd.lookup ("node" : Text) = some (.dict (presented node (nodeDict d)))
  others : ∀ k : Text, k ≠ "forward" → k ≠ "node" → nonFwd.lookup k = d.lookup k

theorem node_ne_forward : ("node" : Text) ≠ "forward" := by decide

/-- `existing.setdefault("node", {})` -/
theorem lookup_default (table : NodeTable d) :
    (if ("node" : Text) ∈ d.keys then d else d.set "node" (.dict [])).lookup ("node" : Text) =
      some (.dict (nodeDict d)) := by
  split
  next listed =>
    obtain ⟨v, found⟩ := Option.ne_none_iff_exists'.mp
      (mt Dict.lookup_eq_none.mp (not_not.mpr listed))
    rw [nodeDict, found]
    cases v with
    | dict node => rfl
    | str _ | int _ | bool _ | literal _ | list _ => exact absurd (table _ found) (by simp [isDict])
  next fresh =>
    rw [Dict.lookup_set, if_pos rfl, nodeDict, Dict.lookup_eq_none.mpr fresh]

theorem overrides_kept (table : NodeTable d) (node : Section) :
    ∃ nonFwd, overrides node d = some nonFwd ∧ Kept node d nonFwd ∧
      (Storable (.dict (d.without "forward")) →
        (∀ field ∈ presentation, Lined (node.text field.1)) → Storable (.dict nonFwd)) := by
  have start := lookup_default table
  have others : ∀ k : Text, k ≠ "node" →
      (if ("node" : Text) ∈ d.keys then d else d.set "node" (.dict [])).lookup k = d.lookup k := by
    intro k other
    split
    · rfl
    · rw [Dict.lookup_set, if_neg other]
  have storable : Storable (.dict (d.without "forward")) → Storable
      (.dict (Dict.without (if ("node" : Text) ∈ d.keys then d else d.set "node" (.dict []))
        "forward")) := by
    intro storable
    split
    · exact storable
    · rw [Dict.without_set _ _ node_ne_forward]
      exact storable.set (by decide) (.dict List.nodup_nil (by simp) (by simp))
  rw [overrides]
  generalize (if ("node" : Text) ∈ d.keys then d else d.set "node" (.dict [])) = e at *
  simp only [start]
  refine ⟨_, rfl, ⟨?_, ?_, ?_⟩, ?_⟩
  · rw [Dict.lookup_without, if_pos rfl]
  · rw [Dict.lookup_without, if_neg node_ne_forward, Dict.lookup_set, if_pos rfl]
  · intro k outside apart
    rw [Dict.lookup_without, if_neg outside, Dict.lookup_set, if_neg apart, others k apart]
  · intro kept lined
    rw [Dict.without_set _ _ node_ne_forward]
    have whole := storable kept
    have inner : Storable (.dict (nodeDict d)) := by
      cases whole with
      | dict _ _ each =>
          have found : (e.without "forward").lookup ("node" : Text) = some (.dict (nodeDict d)) := by
            rw [Dict.lookup_without, if_neg node_ne_forward, start]
          exact each _ (Dict.lookup_mem found)
    exact whole.set (by decide) (inner.presented lined)

theorem overrides_none {node : Section} (bad : ¬ NodeTable d) : overrides node d = none := by
  obtain ⟨v, found, scalar⟩ : ∃ v, d.lookup ("node" : Text) = some v ∧ isDict v = false := by
    by_contra none_
    refine bad fun v found => ?_
    by_contra scalar
    exact none_ ⟨v, found, by simpa using scalar⟩
  have listed : ("node" : Text) ∈ d.keys := by
    by_contra fresh
    rw [Dict.lookup_eq_none.mpr fresh] at found
    exact absurd found (by simp)
  rw [overrides]
  simp only [if_pos listed, found]
  cases v with
  | dict _ => exact absurd scalar (by simp [isDict])
  | str _ | int _ | bool _ | literal _ | list _ => rfl

def sectionFields : List (Text × List Field) :=
  [("node", nodeFields), ("telnet", telnetFields), ("web", webFields),
    ("public_web", publicWebFields), ("store", storeFields), ("retention", retentionFields),
    ("kiss", kissFields), ("afsk", afskFields), ("beacon", beaconFields),
    ("rate_limit", rateLimitFields), ("pactor", pactorFields)]

/-- A local file that `save_config` can rewrite: keys without quotes, values it can spell, and
in the place of a setting no table that it would write in another order. -/
structure Writable (d : Dict) : Prop where
  distinct : (Dict.keys d).Nodup
  storable : Storable (.dict (d.without "forward"))
  flat : ∀ s ∈ sectionFields, ∀ t, d.lookup s.1 = some (.dict t) →
    ∀ field ∈ s.2, ∀ v, t.lookup field.name = some v → arrange v = v

section Saved

variable {base local_ nonFwd : Dict} {node : Section} {forward : ForwardConfig}

/-- What the saved file says, in the order in which it says it. -/
def saved (nonFwd : Dict) (forward : ForwardConfig) : Dict :=
  arranged nonFwd ++ [forwardItem forward]

theorem Writable.entry (writable : Writable local_) (outside : k ≠ "forward")
    (found : local_.lookup k = some v) : Storable v := by
  have inside : (local_.without "forward").lookup k = some v := by
    rw [Dict.lookup_without, if_neg outside, found]
  cases writable.storable with
  | dict _ _ each => exact each _ (Dict.lookup_mem inside)

theorem saved_distinct (distinct : (Dict.keys nonFwd).Nodup)
    (gone : nonFwd.lookup ("forward" : Text) = none) : (Dict.keys (saved nonFwd forward)).Nodup := by
  have perm : (Dict.keys (saved nonFwd forward)).Perm (Dict.keys nonFwd ++ [("forward" : Text)]) := by
    rw [saved, Dict.keys_append]
    exact (keys_arranged nonFwd).append_right _
  refine perm.nodup_iff.mpr (List.nodup_append.mpr ⟨distinct, List.nodup_singleton _, ?_⟩)
  intro a listed b last same
  exact Dict.lookup_eq_none.mp gone (List.mem_singleton.mp last ▸ same ▸ listed)

theorem lookup_saved (distinct : (Dict.keys nonFwd).Nodup) (outside : k ≠ "forward") :
    (saved nonFwd forward).lookup k = (nonFwd.lookup k).map arrange := by
  have last : List.lookup k [forwardItem forward] = none := by
    rw [Dict.lookup_cons, if_neg (show k ≠ (forwardItem forward).1 from outside), List.lookup_nil]
  rw [saved, List.lookup_append, lookup_arranged distinct, last, Option.or_none]

theorem lookup_saved_forward (distinct : (Dict.keys nonFwd).Nodup)
    (gone : nonFwd.lookup ("forward" : Text) = none) :
    (saved nonFwd forward).lookup ("forward" : Text) = some (.dict (forwardDict forward)) := by
  have last : List.lookup ("forward" : Text) [forwardItem forward] = some (forwardItem forward).2 :=
    List.lookup_cons_self
  rw [saved, List.lookup_append, lookup_arranged distinct, gone, last]
  rfl

variable (py base forward) in
/-- A section that a save leaves alone reads as it did. -/
theorem section_kept (writable : Writable local_) (kept : Kept node local_ nonFwd)
    (distinct : (Dict.keys nonFwd).Nodup) {s : Text × List Field} (known : s ∈ sectionFields)
    (outside : s.1 ≠ "forward") (apart : s.1 ≠ "node") :
    buildSection py s.2 (sectionOf (deepMerge base (saved nonFwd forward)) s.1) =
      buildSection py s.2 (sectionOf (deepMerge base local_) s.1) := by
  refine buildSection_congr fun field listed => setting_congr ?_ _ _
  rw [sectionOf, sectionOf, lookup_deepMerge (saved_distinct distinct kept.forward),
    lookup_deepMerge writable.distinct, lookup_saved distinct outside,
    kept.others s.1 outside apart]
  cases found : local_.lookup s.1 with
  | none => rfl
  | some v =>
      simp only [Option.map_some, Option.some_or, Option.getD_some]
      refine entry_arrange (writable.entry outside found) (fun t shape => ?_) _
      exact writable.flat s known t (shape ▸ found) field listed

/-- The value found under a setting of the node before the save, if it is read at all. -/
theorem entry_node (writable : Writable local_) (table : NodeTable local_) {name : Text}
    (readable : (entry name (sectionOf (deepMerge base local_) "node")).isSome) :
    entry name (sectionOf (deepMerge base local_) "node") =
      some ((((nodeDict local_).lookup name).map
        (mergeValue ((beneath (base.lookup ("node" : Text))).lookup name))).or
          ((beneath (base.lookup ("node" : Text))).lookup name)) := by
  rw [sectionOf, lookup_deepMerge writable.distinct] at readable ⊢
  cases found : local_.lookup ("node" : Text) with
  | some v =>
      cases v with
      | dict d =>
          have storable := writable.entry node_ne_forward found
          cases storable with
          | dict distinct _ _ =>
              simp only [Option.map_some, Option.some_or, Option.getD_some]
              rw [entry_merge distinct, nodeDict, found]
      | str _ | int _ | bool _ | literal _ | list _ =>
          exact absurd (table _ found) (by simp [isDict])
  | none =>
      rw [found] at readable
      simp only [Option.map_none, Option.none_or, nodeDict, found] at readable ⊢
      cases under : base.lookup ("node" : Text) with
      | none => rfl
      | some w =>
          rw [under, Option.getD_some] at readable
          cases w with
          | dict b => simp [entry, beneath]
          | str text | list vs =>
              simp only [entry, Option.getD_some, beneath] at readable ⊢
              split
              · next inside => exact absurd readable (by simp [inside])
              · rfl
          | int _ | bool _ | literal _ => exact absurd readable (by simp [entry])

theorem presentation_field {field : Field} (listed : field ∈ nodeFields)
    (presents : field.name ∈ presentation.map Prod.fst) : ∃ name initial, field = .text name initial := by
  rw [nodeFields] at listed
  rcases List.mem_append.mp listed with first | other
  · obtain ⟨pair, _, rfl⟩ := List.mem_map.mp first
    exact ⟨pair.1, pair.2, rfl⟩
  · -- the flags and the hierarchy are not among the fields of the presentation
    have names : ∀ field ∈ ([.bool "show_status_after_login" true, .bool "require_password" true,
        .texts "hierarchy" ["WW"]] : List Field), field.name ∉ presentation.map Prod.fst := by
      have flags : ∀ name ∈ ([("show_status_after_login" : Text), "require_password",
          "hierarchy"] : List Text), name ∉ presentation.map Prod.fst := by decide
      intro field listed
      exact flags field.name (List.mem_map_of_mem (f := Field.name) listed)
    exact absurd presents (names field other)

theorem presentation_text {field : Field} (listed : field ∈ nodeFields)
    (presents : field.name ∈ presentation.map Prod.fst) (text : Text) :
    field.convert py (.str text) = some (.text text) := by
  obtain ⟨_, _, rfl⟩ := presentation_field listed presents
  rfl

variable (base forward) in
/-- What a setting of the node is read from in a saved file. -/
theorem entry_written {p : Dict} (storable : Storable (.dict nonFwd))
    (gone : nonFwd.lookup ("forward" : Text) = none)
    (found : nonFwd.lookup ("node" : Text) = some (.dict p)) {name : Text}
    (flat : ∀ v, p.lookup name = some v → arrange v = v) :
    entry name (sectionOf (deepMerge base (saved nonFwd forward)) "node") =
      some (((p.lookup name).map (mergeValue ((beneath (base.lookup ("node" : Text))).lookup name))).or
        ((beneath (base.lookup ("node" : Text))).lookup name)) := by
  cases storable with
  | dict distinct bare each =>
      have inner : Storable (.dict p) := each _ (Dict.lookup_mem found)
      rw [sectionOf, lookup_deepMerge (saved_distinct distinct gone),
        lookup_saved distinct node_ne_forward, found]
      simp only [Option.map_some, Option.some_or, Option.getD_some]
      rw [entry_arrange inner (by rintro d ⟨⟩; exact flat)]
      cases inner with
      | dict distinct' _ _ => rw [entry_merge distinct']

theorem flat_presented (writable : Writable local_) {field : Field} (listed : field ∈ nodeFields)
    (v : Value) (found : (presented node (nodeDict local_)).lookup field.name = some v) :
    arrange v = v := by
  rw [lookup_presented] at found
  split at found
  · cases found
    rfl
  · have known : (("node" : Text), nodeFields) ∈ sectionFields := List.mem_cons_self
    cases stored : local_.lookup ("node" : Text) with
    | none =>
        rw [nodeDict, stored] at found
        exact absurd found (by simp)
    | some w =>
        rw [nodeDict, stored] at found
        cases w with
        | dict d => exact writable.flat _ known d stored field listed v found
        | str _ | int _ | bool _ | literal _ | list _ => exact absurd found (by simp)

/-- The node of a saved file shows the fields that were written and keeps its other settings. -/
theorem node_saved (writable : Writable local_) (table : NodeTable local_)
    (kept : Kept node local_ nonFwd) (storable : Storable (.dict nonFwd)) {before : Section}
    (built : buildNode py (sectionOf (deepMerge base local_) "node") = some before) :
    buildNode py (sectionOf (deepMerge base (saved nonFwd forward)) "node") =
      some (before.map fun item => (item.1, (shown node item.1).getD item.2)) := by
  refine buildSection_replace (fun field listed => ?_) built
  have old := entry_node writable table (readable_of_setting (setting_isSome built field listed))
  have new := entry_written base forward storable kept.forward kept.node
    (flat_presented writable listed)
  rw [setting, setting, new, old, lookup_presented, shown]
  by_cases presents : field.name ∈ presentation.map Prod.fst
  · rw [if_pos presents, if_pos presents]
    simp only [Option.map_some, Option.some_or, Option.bind_eq_bind, Option.bind_some,
      mergeValue_scalar (v := .str _) rfl, presentation_text listed presents]
  · rw [if_neg presents, if_neg presents]
    rfl

end Saved

section Forwarding

variable {base : Dict} {forward : ForwardConfig} {n : ForwardNeighborConfig}

/-- A neighbor with the case the loader gives it. -/
def folded (py : Python) (n : ForwardNeighborConfig) : ForwardNeighborConfig :=
  { n with
    call := py.upper n.call
    protocol := py.lower n.protocol
    categories := n.categories.map py.upper }

def neighborKeys : List Text :=
  ["call", "address", "protocol", "schedule", "categories", "bin_mode", "enabled"]

theorem setting_neighbor {α : Type} {i : Nat} (place : neighborKeys.idxOf name = i)
    (found : ((neighborDict n)[i]?).map Prod.snd = some v) (initial : α) (convert : Value → Option α) :
    setting (.dict (neighborDict n)) name initial convert = convert v := by
  have keys : Dict.keys (neighborDict n) = neighborKeys := rfl
  rw [setting, entry, Dict.lookup_idxOf, keys, place, found]
  rfl

/-- A neighbor is read back as it was written, up to the case of letters. -/
theorem buildNeighbor_dict (n : ForwardNeighborConfig) :
    buildNeighbor py (.dict (neighborDict n)) = some (folded py n) := by
  have categories : iterate (.list (n.categories.map .str)) = some (n.categories.map .str) := rfl
  rw [buildNeighbor]
  rw [setting_neighbor (n := n) (i := 0) (by decide) rfl,
    setting_neighbor (n := n) (i := 1) (by decide) rfl,
    setting_neighbor (n := n) (i := 2) (by decide) rfl,
    setting_neighbor (n := n) (i := 3) (by decide) rfl,
    setting_neighbor (n := n) (i := 4) (by decide) rfl,
    setting_neighbor (n := n) (i := 5) (by decide) rfl,
    setting_neighbor (n := n) (i := 6) (by decide) rfl, categories]
  simp [folded, Python.toBool, Function.comp_def]

/-- The neighbors of a saved file; where it lists none, those of the base file are back. -/
def reloadedNeighbors (py : Python) (b : Dict) (neighbors : List ForwardNeighborConfig) :
    Option (List ForwardNeighborConfig) :=
  if neighbors = [] then buildNeighbors py b else some (neighbors.map (folded py))

/-- What the loader makes of `[forward]` in a saved file over that of the base file. -/
def reloadedForward (py : Python) (b : Dict) (forward : ForwardConfig) : Option ForwardConfig := do
  let c : ForwardConfig := {}
  let listenPort ← setting (.dict b) "listen_port" c.listenPort py.toInt
  let listenHost ← setting (.dict b) "listen_host" c.listenHost fun v => some (py.str v)
  let neighbors ← reloadedNeighbors py b forward.neighbors
  some { enabled := forward.enabled, listenPort, listenHost, neighbors }

theorem forwardDict_distinct (forward : ForwardConfig) : (Dict.keys (forwardDict forward)).Nodup := by
  rw [forwardDict, arrayEntry, Dict.keys_cons]
  have apart : ([("enabled" : Text), "neighbor"] : List Text).Nodup := by decide
  split
  · exact List.nodup_singleton _
  · exact apart

theorem lookup_forwardDict (forward : ForwardConfig) (name : Text) :
    (forwardDict forward).lookup name =
      if name = "enabled" then some (.bool forward.enabled)
      else if name = "neighbor" then
        (if forward.neighbors = [] then none
          else some (.list (forward.neighbors.map fun n => .dict (neighborDict n))))
      else none := by
  rw [forwardDict, Dict.lookup_pair, lookup_arrayEntry]
  by_cases empty : forward.neighbors = []
  · rw [if_pos empty, if_pos (List.map_eq_nil_iff.mpr empty)]
  · rw [if_neg empty, if_neg (mt List.map_eq_nil_iff.mp empty)]

theorem mapM_folded (neighbors : List ForwardNeighborConfig) :
    (neighbors.map fun n => Value.dict (neighborDict n)).mapM (buildNeighbor py) =
      some (neighbors.map (folded py)) := by
  induction neighbors with
  | nil => rfl
  | cons n neighbors ih =>
      rw [List.map_cons, List.mapM_cons, buildNeighbor_dict, ih]
      rfl

theorem buildNeighbors_saved {t b : Dict}
    (found : t.lookup ("neighbor" : Text) =
      if forward.neighbors = [] then b.lookup ("neighbor" : Text)
      else some (.list (forward.neighbors.map fun n => .dict (neighborDict n)))) :
    buildNeighbors py t = reloadedNeighbors py b forward.neighbors := by
  rw [buildNeighbors, reloadedNeighbors, found]
  by_cases empty : forward.neighbors = []
  · rw [if_pos empty, if_pos empty, buildNeighbors]
  · rw [if_neg empty, if_neg empty]
    exact mapM_folded forward.neighbors

theorem buildForward_saved (b : Option Value) (forward : ForwardConfig) :
    buildForward py (mergeValue b (.dict (forwardDict forward))) =
      reloadedForward py (beneath b) forward := by
  obtain ⟨t, shape, found⟩ := mergeValue_dict (forwardDict_distinct forward) b
  have enabled : setting (.dict t) "enabled" true (fun v => some (py.toBool v)) =
      some forward.enabled := by
    rw [setting, entry, found, lookup_forwardDict, if_pos rfl, Option.map_some, Option.some_or,
      mergeValue_scalar rfl]
    rfl
  have port : entry "listen_port" (.dict t) = entry "listen_port" (.dict (beneath b)) := by
    rw [entry, entry, found, lookup_forwardDict, if_neg (by decide), if_neg (by decide)]
    rfl
  have host : entry "listen_host" (.dict t) = entry "listen_host" (.dict (beneath b)) := by
    rw [entry, entry, found, lookup_forwardDict, if_neg (by decide), if_neg (by decide)]
    rfl
  have neighbor : t.lookup ("neighbor" : Text) =
      if forward.neighbors = [] then (beneath b).lookup ("neighbor" : Text)
      else some (.list (forward.neighbors.map fun n => .dict (neighborDict n))) := by
    rw [found, lookup_forwardDict, if_neg (by decide), if_pos rfl]
    by_cases empty : forward.neighbors = []
    · rw [if_pos empty, if_pos empty]
      rfl
    · rw [if_neg empty, if_neg empty, Option.map_some, Option.some_or, mergeValue_scalar rfl]
  rw [shape, buildForward, reloadedForward, setting_congr port, setting_congr host,
    buildNeighbors_saved neighbor, enabled, Option.bind_eq_bind, Option.bind_some]

end Forwarding

/-- Each section of a configuration comes from the section of the data. -/
structure BuiltFrom (py : Python) (data : Dict) (c : AppConfig) : Prop where
  node : buildNode py (sectionOf data "node") = some c.node
  telnet : buildTelnet py (sectionOf data "telnet") = some c.telnet
  web : buildWeb py (sectionOf data "web") = some c.web
  publicWeb : buildPublicWeb py (sectionOf data "public_web") = some c.publicWeb
  store : buildStore py (sectionOf data "store") = some c.store
  retention : buildRetention py (sectionOf data "retention") = some c.retention
  kiss : buildKiss py (sectionOf data "kiss") = some c.kiss
  afsk : buildAfsk py (sectionOf data "afsk") = some c.afsk
  beacon : buildBeacon py (sectionOf data "beacon") = some c.beacon
  rateLimit : buildRateLimit py (sectionOf data "rate_limit") = some c.rateLimit
  forward : buildForward py (sectionOf data "forward") = some c.forward
  pactor : buildPactor py (sectionOf data "pactor") = some c.pactor

theorem builtFrom {data : Dict} {c : AppConfig} (built : buildConfig py data = some c) :
    BuiltFrom py data c := by
  rw [buildConfig] at built
  obtain ⟨node, hnode, built⟩ := Option.bind_eq_some_iff.mp built
  obtain ⟨telnet, htelnet, built⟩ := Option.bind_eq_some_iff.mp built
  obtain ⟨web, hweb, built⟩ := Option.bind_eq_some_iff.mp built
  obtain ⟨publicWeb, hpublicWeb, built⟩ := Option.bind_eq_some_iff.mp built
  obtain ⟨store, hstore, built⟩ := Option.bind_eq_some_iff.mp built
  obtain ⟨retention, hretention, built⟩ := Option.bind_eq_some_iff.mp built
  obtain ⟨kiss, hkiss, built⟩ := Option.bind_eq_some_iff.mp built
  obtain ⟨afsk, hafsk, built⟩ := Option.bind_eq_some_iff.mp built
  obtain ⟨beacon, hbeacon, built⟩ := Option.bind_eq_some_iff.mp built
  obtain ⟨rateLimit, hrateLimit, built⟩ := Option.bind_eq_some_iff.mp built
  obtain ⟨forward, hforward, built⟩ := Option.bind_eq_some_iff.mp built
  obtain ⟨pactor, hpactor, built⟩ := Option.bind_eq_some_iff.mp built
  cases Option.some.inj built
  exact ⟨hnode, htelnet, hweb, hpublicWeb, hstore, hretention, hkiss, hafsk, hbeacon, hrateLimit,
    hforward, hpactor⟩

section Whole

variable {base local_ nonFwd : Dict} {node : Section} {forward : ForwardConfig} {c : AppConfig}

variable (forward) in
theorem section_saved (writable : Writable local_) (kept : Kept node local_ nonFwd)
    (storable : Storable (.dict nonFwd)) {i : Nat} {name : Text} {fields : List Field}
    (known : sectionFields[i]? = some (name, fields)) (apart : name ≠ "forward" ∧ name ≠ "node")
    {section_ : Section}
    (built : buildSection py fields (sectionOf (deepMerge base local_) name) = some section_) :
    buildSection py fields (sectionOf (deepMerge base (saved nonFwd forward)) name) =
      some section_ := by
  cases storable with
  | dict distinct _ _ =>
      have same := section_kept py base forward writable kept distinct
        (List.mem_of_getElem? known) apart.1 apart.2
      exact same.trans built

/-- The configuration a saved file loads to, in terms of the one that the file before the save
loaded to. -/
theorem config_saved (writable : Writable local_) (table : NodeTable local_)
    (kept : Kept node local_ nonFwd) (storable : Storable (.dict nonFwd))
    (built : buildConfig py (deepMerge base local_) = some c) :
    buildConfig py (deepMerge base (saved nonFwd forward)) =
      (reloadedForward py (beneath (base.lookup ("forward" : Text))) forward).map fun forward =>
        { c with
          node := c.node.map fun item => (item.1, (shown node item.1).getD item.2)
          forward } := by
  have parts := builtFrom built
  have gone := kept.forward
  have forwarding : buildForward py (sectionOf (deepMerge base (saved nonFwd forward)) "forward") =
      reloadedForward py (beneath (base.lookup ("forward" : Text))) forward := by
    cases storable with
    | dict distinct _ _ =>
        rw [sectionOf, lookup_deepMerge (saved_distinct distinct gone),
          lookup_saved_forward distinct gone, Option.map_some, Option.some_or, Option.getD_some,
          buildForward_saved]
  rw [buildConfig, node_saved writable table kept storable parts.node, forwarding]
  have telnet := section_saved forward (i := 1) writable kept storable rfl (by decide) parts.telnet
  have web := section_saved forward (i := 2) writable kept storable rfl (by decide) parts.web
  have publicWeb := section_saved forward (i := 3) writable kept storable rfl (by decide) parts.publicWeb
  have store := section_saved forward (i := 4) writable kept storable rfl (by decide) parts.store
  have retention := section_saved forward (i := 5) writable kept storable rfl (by decide) parts.retention
  have kiss := section_saved forward (i := 6) writable kept storable rfl (by decide) parts.kiss
  have afsk := section_saved forward (i := 7) writable kept storable rfl (by decide) parts.afsk
  have beacon := section_saved forward (i := 8) writable kept storable rfl (by decide) parts.beacon
  have rateLimit := section_saved forward (i := 9) writable kept storable rfl (by decide) parts.rateLimit
  have pactor := section_saved forward (i := 10) writable kept storable rfl (by decide) parts.pactor
  rw [buildTelnet, telnet, buildWeb, web, buildPublicWeb, publicWeb, buildStore, store,
    buildRetention, retention, buildKiss, kiss, buildAfsk, afsk, buildBeacon, beacon,
    buildRateLimit, rateLimit, buildPactor, pactor]
  cases reloadedForward py (beneath (base.lookup ("forward" : Text))) forward <;> rfl

end Whole

section Loaded

variable {c : AppConfig} {section_ : Section} {d : Value} {n : ForwardNeighborConfig}

theorem setting_cases {α : Type} {initial x : α} {convert : Value → Option α}
    (read : setting d name initial convert = some x) : x = initial ∨ ∃ v, convert v = some x := by
  rw [setting] at read
  cases found : entry name d with
  | none =>
      rw [found] at read
      exact absurd read (by simp)
  | some given =>
      rw [found] at read
      cases given with
      | none => exact .inl (Option.some.inj read).symm
      | some v => exact .inr ⟨v, read⟩

theorem built_items {fields : List Field} (built : buildSection py fields d = some section_) :
    ∀ item ∈ section_, ∃ field ∈ fields, field.name = item.1 ∧
      setting d field.name field.initial (field.convert py) = some item.2 := by
  induction fields generalizing section_ with
  | nil =>
      obtain rfl : [] = section_ := by simpa [buildSection] using built
      exact fun _ none_ => absurd none_ List.not_mem_nil
  | cons field fields ih =>
      rw [buildSection_cons, Option.bind_eq_some_iff] at built
      obtain ⟨v, here, built⟩ := built
      obtain ⟨others, built', rfl⟩ := Option.map_eq_some_iff.mp built
      refine List.forall_mem_cons.mpr ⟨⟨field, List.mem_cons_self, rfl, here⟩, ?_⟩
      intro item listed
      obtain ⟨field', among, facts⟩ := ih built' item listed
      exact ⟨field', List.mem_cons_of_mem _ among, facts⟩

/-- A field of the presentation is a text, also where its default stands. -/
theorem presentation_setting {field : Field} (listed : field ∈ nodeFields)
    (presents : field.name ∈ presentation.map Prod.fst) {v : Setting}
    (read : setting d field.name field.initial (field.convert py) = some v) :
    ∃ text, v = .text text := by
  obtain ⟨name, initial, rfl⟩ := presentation_field listed presents
  rcases setting_cases read with same | ⟨w, converted⟩
  · exact ⟨initial, same⟩
  · exact ⟨py.str w, (Option.some.inj converted).symm⟩

theorem node_distinct : (nodeFields.map Field.name).Nodup := by
  have names : ((presentation.map Prod.fst) ++ [("show_status_after_login" : Text),
      "require_password", "hierarchy"]).Nodup := by decide
  exact names

/-- A node that has been loaded shows its own fields. -/
theorem shown_self (built : buildNode py d = some section_) :
    (section_.map fun item => (item.1, (shown section_ item.1).getD item.2)) = section_ := by
  have itself : ∀ item ∈ section_, (item.1, (shown section_ item.1).getD item.2) = item := by
    intro item listed
    obtain ⟨field, among, name, read⟩ := built_items built item listed
    rw [shown]
    split
    · next presents =>
        have found := setting_built node_distinct built field among
        obtain ⟨text, shape⟩ := presentation_setting among (name ▸ presents) read
        rw [read, name] at found
        rw [Section.text, ← found, shape, Option.getD_some, ← shape]
    · rfl
  conv_rhs => rw [← List.map_id section_]
  exact List.map_congr_left itself

theorem Python.upper_categories (py : Python) : (["WW"] : List Text).map py.upper = ["WW"] := by
  have ascii := py.upper_ascii "WW" (by decide)
  rw [List.map_cons, ascii]
  rfl

theorem folded_built (built : buildNeighbor py d = some n) : folded py n = n := by
  rw [buildNeighbor] at built
  obtain ⟨call, hcall, built⟩ := Option.bind_eq_some_iff.mp built
  obtain ⟨address, _, built⟩ := Option.bind_eq_some_iff.mp built
  obtain ⟨protocol, hprotocol, built⟩ := Option.bind_eq_some_iff.mp built
  obtain ⟨schedule, _, built⟩ := Option.bind_eq_some_iff.mp built
  obtain ⟨categories, hcategories, built⟩ := Option.bind_eq_some_iff.mp built
  obtain ⟨binMode, _, built⟩ := Option.bind_eq_some_iff.mp built
  obtain ⟨enabled, _, built⟩ := Option.bind_eq_some_iff.mp built
  cases Option.some.inj built
  have upper : py.upper call = call := by
    rcases setting_cases hcall with rfl | ⟨v, converted⟩
    · exact py.upper_ascii [] (by simp)
    · rw [← Option.some.inj converted, py.upper_upper]
  have lower : py.lower protocol = protocol := by
    rcases setting_cases hprotocol with rfl | ⟨v, converted⟩
    · exact py.lower_ascii "b2" (by decide)
    · rw [← Option.some.inj converted, py.lower_lower]
  have words : categories.map py.upper = categories := by
    rcases setting_cases hcategories with rfl | ⟨v, converted⟩
    · exact py.upper_categories
    · obtain ⟨vs, _, rfl⟩ := Option.map_eq_some_iff.mp converted
      simp [py.upper_upper]
  simp only [folded, upper, lower, words]

theorem folded_neighbors {vs : List Value} {neighbors : List ForwardNeighborConfig}
    (built : vs.mapM (buildNeighbor py) = some neighbors) :
    neighbors.map (folded py) = neighbors := by
  induction vs generalizing neighbors with
  | nil =>
      obtain rfl : [] = neighbors := by simpa using built
      rfl
  | cons v vs ih =>
      rw [List.mapM_cons] at built
      obtain ⟨n, first, built⟩ := Option.bind_eq_some_iff.mp built
      obtain ⟨others, rest, built⟩ := Option.bind_eq_some_iff.mp built
      cases Option.some.inj built
      rw [List.map_cons, folded_built first, ih rest]

theorem folded_forward {forward : ForwardConfig} (built : buildForward py d = some forward) :
    forward.neighbors.map (folded py) = forward.neighbors := by
  cases d with
  | dict t =>
      rw [buildForward] at built
      obtain ⟨enabled, _, built⟩ := Option.bind_eq_some_iff.mp built
      obtain ⟨port, _, built⟩ := Option.bind_eq_some_iff.mp built
      obtain ⟨host, _, built⟩ := Option.bind_eq_some_iff.mp built
      obtain ⟨neighbors, listed, built⟩ := Option.bind_eq_some_iff.mp built
      cases Option.some.inj built
      rw [buildNeighbors] at listed
      obtain ⟨vs, _, listed⟩ := Option.bind_eq_some_iff.mp listed
      exact folded_neighbors listed
  | str _ | int _ | bool _ | literal _ | list _ => exact absurd built (by simp [buildForward])

end Loaded

end PyBulletin.Config
