import PyBulletin.Foundation.Toml

set_option autoImplicit false

namespace PyBulletin.Foundation.Toml

/-! # What the statements of a document build

A statement changes the table its path leads to and leaves everything around it; the rules
here say so for documents that open every table once. -/

namespace Dict

variable {t s : Dict} {key k : Text} {v : Value}

@[simp] theorem keys_append : keys (t ++ s) = keys t ++ keys s := List.map_append

@[simp] theorem keys_cons (e : Text × Value) : keys (e :: t) = e.1 :: keys t := rfl

@[simp] theorem keys_nil : keys [] = [] := rfl

theorem lookup_cons (e : Text × Value) (t : Dict) (k : Text) :
    List.lookup k (e :: t) = if k = e.1 then some e.2 else t.lookup k := by
  rw [List.lookup_cons]
  by_cases same : k = e.1
  · simp [same]
  · rw [beq_false_of_ne same, if_neg same]

theorem lookup_pair (key : Text) (v : Value) (t : Dict) (k : Text) :
    List.lookup k ((key, v) :: t) = if k = key then some v else t.lookup k :=
  lookup_cons (key, v) t k

theorem lookup_eq_none : t.lookup k = none ↔ k ∉ t.keys := by
  induction t with
  | nil => simp
  | cons e t ih =>
      rw [lookup_cons, keys_cons, List.mem_cons, not_or]
      by_cases same : k = e.1
      · simp [same]
      · simpa [same] using ih

/-- A table whose keys are known is read at the place of the key. -/
theorem lookup_idxOf (t : Dict) (k : Text) : t.lookup k = (t[t.keys.idxOf k]?).map Prod.snd := by
  induction t with
  | nil => rfl
  | cons e t ih =>
      rw [lookup_cons, keys_cons, List.idxOf_cons, ih]
      by_cases same : k = e.1
      · simp [same]
      · simp [same, beq_false_of_ne (Ne.symm same)]

theorem lookup_mem (found : t.lookup k = some v) : (k, v) ∈ t := by
  obtain ⟨front, back, rfl, -⟩ := List.lookup_eq_some_iff.mp found
  exact List.mem_append_right _ List.mem_cons_self

theorem lookup_replace (t : Dict) (key : Text) (v : Value) (k : Text) :
    (t.map fun e => if e.1 = key then (key, v) else e).lookup k =
      if k = key then (t.lookup k).map fun _ => v else t.lookup k := by
  induction t with
  | nil => simp
  | cons e t ih =>
      rw [List.map_cons, lookup_cons, lookup_cons, ih]
      by_cases here : e.1 = key
      · by_cases same : k = key
        · simp [here, same]
        · simp [here, same]
      · by_cases same : k = key
        · simp [here, same, Ne.symm here]
        · simp [here, same]

/-- An assignment is seen under its own key and nowhere else. -/
theorem lookup_set (t : Dict) (key : Text) (v : Value) (k : Text) :
    (t.set key v).lookup k = if k = key then some v else t.lookup k := by
  rw [set]
  split
  next listed =>
    rw [lookup_replace]
    split
    · next same =>
        obtain ⟨old, found⟩ := Option.ne_none_iff_exists'.mp (mt lookup_eq_none.mp (not_not.mpr listed))
        rw [same, found]
        rfl
    · rfl
  next fresh =>
    rw [List.lookup_append, lookup_cons]
    by_cases same : k = key
    · rw [same, lookup_eq_none.mpr fresh]
      simp
    · simp [same]

theorem keys_set (t : Dict) (key : Text) (v : Value) :
    keys (t.set key v) = if key ∈ t.keys then t.keys else t.keys ++ [key] := by
  rw [set]
  split
  next =>
    rw [keys, keys, List.map_map]
    refine List.map_congr_left fun e _ => ?_
    by_cases same : e.1 = key
    · simp [same]
    · simp [same]
  next => simp

theorem without_cons (e : Text × Value) (t : Dict) (key : Text) :
    without (e :: t) key = if e.1 = key then without t key else e :: without t key := by
  by_cases same : e.1 = key
  · simp [without, same]
  · simp [without, same]

theorem lookup_without (t : Dict) (key k : Text) :
    (t.without key).lookup k = if k = key then none else t.lookup k := by
  induction t with
  | nil => simp [without]
  | cons e t ih =>
      rw [without_cons, lookup_cons]
      by_cases gone : e.1 = key
      · rw [if_pos gone, ih, gone]
        by_cases same : k = key
        · rw [if_pos same, if_pos same]
        · rw [if_neg same, if_neg same, if_neg same]
      · rw [if_neg gone, lookup_cons, ih]
        by_cases same : k = e.1
        · rw [if_pos same, if_pos same, if_neg (same ▸ gone)]
        · rw [if_neg same, if_neg same]

theorem without_set (t : Dict) {key k : Text} (v : Value) (other : k ≠ key) :
    (t.set k v).without key = (t.without key).set k v := by
  have known : k ∈ keys (t.without key) ↔ k ∈ keys t := by
    rw [← not_iff_not, ← lookup_eq_none, ← lookup_eq_none, lookup_without, if_neg other]
  rw [set, set]
  by_cases listed : k ∈ t.keys
  · rw [if_pos listed, if_pos (known.mpr listed), without, without, List.filter_map]
    congr 1
    refine List.filter_congr fun e _ => ?_
    by_cases same : e.1 = k
    · simp [same]
    · simp [same]
  · rw [if_neg listed, if_neg (mt known.mp listed), without, List.filter_append]
    simp [without, other]

theorem set_fresh (fresh : key ∉ t.keys) : t.set key v = t ++ [(key, v)] := if_neg fresh

theorem replace_fresh (fresh : key ∉ t.keys) :
    (t.map fun e => if e.1 = key then (key, v) else e) = t := by
  induction t with
  | nil => rfl
  | cons e t ih =>
      obtain ⟨first, others⟩ : key ≠ e.1 ∧ key ∉ keys t := by simpa using fresh
      rw [List.map_cons, ih others, if_neg (Ne.symm first)]

theorem set_last (fresh : key ∉ t.keys) (old : Value) :
    set (t ++ [(key, old)]) key v = t ++ [(key, v)] := by
  have listed : key ∈ keys (t ++ [(key, old)]) := by simp
  rw [set, if_pos listed, List.map_append, replace_fresh fresh]
  simp

theorem lookup_last (fresh : key ∉ t.keys) (old : Value) :
    (t ++ [(key, old)]).lookup key = some old := by
  simp [List.lookup_append, lookup_eq_none.mpr fresh]

end Dict

section Focus

variable {p : Path} {plug : Dict → Dict} {t : Dict} {k : Text}

theorem modify_append (p q : Path) (f : Dict → Option Dict) (t : Dict) :
    modify (p ++ q) f t = modify p (modify q f) t := by
  induction p generalizing t with
  | nil => rfl
  | cons key p ih =>
      rw [List.cons_append, modify, modify]
      split <;> simp only [ih]

/-- `plug t` is a table that holds `t` at the path `p`. -/
def Focus (p : Path) (plug : Dict → Dict) : Prop :=
  ∀ f t, modify p f (plug t) = (f t).map plug

theorem focus_root : Focus [] fun t => t := by
  intro f t
  rw [modify]
  cases f t <;> rfl

theorem Focus.table (focus : Focus p plug) (fresh : k ∉ t.keys) :
    Focus (p ++ [k]) fun s => plug (t ++ [(k, .dict s)]) := by
  intro f s
  rw [modify_append, focus, modify, Dict.lookup_last fresh]
  simp only [modify]
  cases f s with
  | none => rfl
  | some s => simp [Dict.set_last fresh]

theorem Focus.element (focus : Focus p plug) (fresh : k ∉ t.keys) (vs : List Value) :
    Focus (p ++ [k]) fun s => plug (t ++ [(k, .list (vs ++ [.dict s]))]) := by
  intro f s
  rw [modify_append, focus, modify, Dict.lookup_last fresh]
  simp only [modify, List.getLast?_concat, List.dropLast_concat]
  cases f s with
  | none => rfl
  | some s => simp [Dict.set_last fresh]

end Focus

/-- The document stands in the table `t` at `p`, every table below it that a statement has
touched is among the keys of `t`, and none is closed to further statements. -/
structure At (st : State) (p : Path) (plug : Dict → Dict) (t : Dict) : Prop where
  focus : Focus p plug
  data : st.data = plug t
  quiet : st.pending = []
  thawed : ∀ q ∈ st.frozen, ¬ q <+: p
  marks : ∀ q ∈ st.frozen ++ st.explicit, ∀ k rest, q = p ++ k :: rest → k ∈ t.keys

/-- What has been marked since is at the path `p` or below. -/
structure Grows (p : Path) (st st' : State) : Prop where
  frozen : ∀ q ∈ st'.frozen, q ∈ st.frozen ∨ p <+: q
  explicit : ∀ q ∈ st'.explicit, q ∈ st.explicit ∨ p <+: q

section Rules

variable {st st' st'' : State} {p : Path} {plug : Dict → Dict} {t s : Dict} {k : Text} {v : Value}

theorem Grows.refl (p : Path) (st : State) : Grows p st st := ⟨fun _ => .inl, fun _ => .inl⟩

theorem Grows.trans (first : Grows p st st') (second : Grows p st' st'') : Grows p st st'' where
  frozen q listed := (second.frozen q listed).elim (first.frozen q) .inr
  explicit q listed := (second.explicit q listed).elim (first.explicit q) .inr

theorem Grows.widen {q : Path} (grown : Grows q st st') (inside : p <+: q) : Grows p st st' where
  frozen r listed := (grown.frozen r listed).imp_right inside.trans
  explicit r listed := (grown.explicit r listed).imp_right inside.trans

theorem at_initial : At State.initial [] (fun t => t) [] where
  focus := focus_root
  data := rfl
  quiet := rfl
  thawed := by simp [State.initial]
  marks := by simp [State.initial]

theorem State.finalize_quiet (quiet : st.pending = []) : st.finalize = st := by
  cases st
  simp_all [State.finalize]

/-- A fresh key of the table is neither closed nor open yet. -/
theorem At.unmarked (here : At st p plug t) (fresh : k ∉ t.keys) :
    st.isFrozen (p ++ [k]) = false ∧ p ++ [k] ∉ st.explicit := by
  refine ⟨?_, ?_⟩
  · rw [State.isFrozen, List.any_eq_false]
    intro q listed inside
    rcases List.prefix_concat_iff.mp (List.isPrefixOf_iff_prefix.mp inside) with rfl | inside
    · exact fresh (here.marks _ (List.mem_append_left _ listed) k [] rfl)
    · exact here.thawed q listed inside
  · intro listed
    exact fresh (here.marks _ (List.mem_append_right _ listed) k [] rfl)

theorem not_prefix_shorter (p : Path) (k : Text) : ¬ p ++ [k] <+: p := by
  intro longer
  have shorter := longer.length_le
  rw [List.length_append, List.length_singleton] at shorter
  omega

theorem At.assign (here : At st p plug t) (header : st.header = p) (fresh : k ∉ t.keys)
    (v : Value) :
    ∃ st', st.assign [k] v = some st' ∧ st'.header = p ∧ At st' p plug (t ++ [(k, v)]) ∧
      Grows p st st' := by
  have open_ : st.isFrozen p = false := by
    rw [State.isFrozen, List.any_eq_false]
    exact fun q listed inside => here.thawed q listed (List.isPrefixOf_iff_prefix.mp inside)
  have changed : modify p (fun t => if k ∈ t.keys then none else some (t.set k v)) st.data =
      some (plug (t ++ [(k, v)])) := by
    rw [here.data, here.focus, if_neg fresh, Dict.set_fresh fresh]
    rfl
  -- only the value of an array or an inline table is closed
  obtain ⟨more, kind, run⟩ : ∃ more, (more = [] ∨ more = [p ++ [k]]) ∧ st.assign [k] v =
      some { st with data := plug (t ++ [(k, v)]), frozen := more ++ st.frozen } := by
    cases v with
    | list _ | dict _ =>
        refine ⟨[p ++ [k]], .inr rfl, ?_⟩
        simp [State.assign, header, open_, changed, here.quiet]
    | str _ | int _ | bool _ | literal _ =>
        refine ⟨[], .inl rfl, ?_⟩
        simp [State.assign, header, open_, changed, here.quiet]
  refine ⟨_, run, header, ⟨here.focus, rfl, here.quiet, ?_, ?_⟩, ?_⟩
  · intro q listed
    rcases List.mem_append.mp listed with new | old
    · rcases kind with rfl | rfl
      · exact absurd new (by simp)
      · rw [List.mem_singleton.mp new]
        exact not_prefix_shorter p k
    · exact here.thawed q old
  · intro q listed key rest shape
    rw [Dict.keys_append]
    simp only [List.append_assoc, List.mem_append] at listed
    rcases listed with new | old
    · rcases kind with rfl | rfl
      · exact absurd new (by simp)
      · rw [List.mem_singleton.mp new, List.append_cancel_left_eq] at shape
        exact List.mem_append_right _ (by simp [List.cons.inj shape])
    · exact List.mem_append_left _ (here.marks q (List.mem_append.mpr old) key rest shape)
  · refine ⟨fun q listed => ?_, fun q listed => .inl listed⟩
    rcases List.mem_append.mp listed with new | old
    · rcases kind with rfl | rfl
      · exact absurd new (by simp)
      · exact .inr (List.mem_singleton.mp new ▸ List.prefix_append p [k])
    · exact .inl old

theorem At.enter (here : At st p plug t) (fresh : k ∉ t.keys) :
    ∃ st', st.table (p ++ [k]) = some st' ∧ st'.header = p ++ [k] ∧
      At st' (p ++ [k]) (fun s => plug (t ++ [(k, .dict s)])) [] ∧ Grows (p ++ [k]) st st' := by
  obtain ⟨open_, unopened⟩ := here.unmarked fresh
  have changed : modify (p ++ [k]) some st.data = some (plug (t ++ [(k, .dict [])])) := by
    rw [modify_append, here.data, here.focus, modify, Dict.lookup_eq_none.mpr fresh]
    simp [modify, Dict.set_fresh fresh]
  have run : st.table (p ++ [k]) = some { st with
      data := plug (t ++ [(k, .dict [])])
      header := p ++ [k]
      explicit := (p ++ [k]) :: st.explicit } := by
    simp only [State.table, State.finalize_quiet here.quiet]
    rw [if_neg (by simp [open_, unopened]), changed]
    rfl
  refine ⟨_, run, rfl, ⟨here.focus.table fresh, rfl, here.quiet, ?_, ?_⟩, ?_⟩
  · intro q listed inside
    rcases List.prefix_concat_iff.mp inside with rfl | inside
    · exact fresh (here.marks _ (List.mem_append_left _ listed) k [] rfl)
    · exact here.thawed q listed inside
  · intro q listed key rest shape
    simp only [List.mem_append, List.mem_cons] at listed
    exfalso
    rcases listed with old | new | old
    · exact fresh (here.marks q (List.mem_append_left _ old) k (key :: rest) (by simp [shape]))
    · rw [shape] at new
      have := congrArg List.length new
      simp at this
    · exact fresh (here.marks q (List.mem_append_right _ old) k (key :: rest) (by simp [shape]))
  · refine ⟨fun q listed => .inl listed, fun q listed => ?_⟩
    rcases List.mem_cons.mp listed with rfl | old
    · exact .inr (List.prefix_refl _)
    · exact .inl old

theorem At.leave {t' : Dict} (here : At st p plug t') (kept : ∀ key ∈ t'.keys, key ∈ t.keys ∨ key = k)
    {e : Value} (data : st'.data = plug (t ++ [(k, e)])) (quiet : st'.pending = [])
    (grown : Grows (p ++ [k]) st st') : At st' p plug (t ++ [(k, e)]) := by
  refine ⟨here.focus, data, quiet, ?_, ?_⟩
  · intro q listed inside
    rcases grown.frozen q listed with old | new
    · exact here.thawed q old inside
    · exact not_prefix_shorter p k (new.trans inside)
  · intro q listed key rest shape
    rw [Dict.keys_append]
    have source : q ∈ st.frozen ++ st.explicit ∨ p ++ [k] <+: q := by
      rcases List.mem_append.mp listed with frozen | explicit
      · exact (grown.frozen q frozen).imp_left (List.mem_append_left _)
      · exact (grown.explicit q explicit).imp_left (List.mem_append_right _)
    rcases source with old | ⟨more, new⟩
    · rcases kept key (here.marks q old key rest shape) with known | rfl
      · exact List.mem_append_left _ known
      · exact List.mem_append_right _ (by simp)
    · rw [shape, List.append_assoc, List.append_cancel_left_eq] at new
      exact List.mem_append_right _ (by simp [List.cons.inj new])

/-- An array of tables under a key, where it has begun. -/
def arrayEntry (k : Text) (vs : List Value) : Dict := if vs = [] then [] else [(k, .list vs)]

theorem lookup_arrayEntry (k : Text) (vs : List Value) (name : Text) :
    (arrayEntry k vs).lookup name =
      if name = k then (if vs = [] then none else some (.list vs)) else none := by
  rw [arrayEntry]
  by_cases empty : vs = []
  · rw [if_pos empty, if_pos empty, List.lookup_nil, ite_self]
  · rw [if_neg empty, Dict.lookup_cons, if_neg empty, List.lookup_nil]

theorem At.element {vs : List Value} (here : At st p plug (t ++ arrayEntry k vs))
    (fresh : k ∉ t.keys) (open_ : p ++ [k] ∉ st.frozen) :
    ∃ st', st.element (p ++ [k]) = some st' ∧ st'.header = p ++ [k] ∧
      At st' (p ++ [k]) (fun s => plug (t ++ [(k, .list (vs ++ [.dict s]))])) [] ∧
      Grows (p ++ [k]) st st' := by
  have thawed : ∀ q ∈ st.frozen, ¬ q <+: p ++ [k] := by
    intro q listed inside
    rcases List.prefix_concat_iff.mp inside with rfl | inside
    · exact open_ listed
    · exact here.thawed q listed inside
  have unfrozen : st.isFrozen (p ++ [k]) = false := by
    rw [State.isFrozen, List.any_eq_false]
    exact fun q listed inside => thawed q listed (List.isPrefixOf_iff_prefix.mp inside)
  have changed : State.append (p ++ [k]) st.data =
      some (plug (t ++ [(k, .list (vs ++ [.dict []]))])) := by
    rw [State.append, List.getLast?_concat, List.dropLast_concat, here.data]
    rw [Option.bind_eq_bind, Option.bind_some, here.focus, arrayEntry]
    by_cases first : vs = []
    · simp [first, Dict.lookup_eq_none.mpr fresh, Dict.set_fresh fresh]
    · simp [first, Dict.lookup_last fresh, Dict.set_last fresh]
  refine ⟨{ st with
    data := plug (t ++ [(k, .list (vs ++ [.dict []]))])
    header := p ++ [k]
    explicit := (p ++ [k]) :: st.explicit.filter fun q => !(p ++ [k]).isPrefixOf q
    frozen := st.frozen.filter fun q => !(p ++ [k]).isPrefixOf q }, ?_, rfl,
    ⟨here.focus.element fresh vs, rfl, here.quiet, ?_, ?_⟩, ?_⟩
  · simp [State.element, State.finalize_quiet here.quiet, unfrozen, changed]
  · exact fun q listed => thawed q (List.mem_of_mem_filter listed)
  · intro q listed key rest shape
    have below : (p ++ [k]).isPrefixOf q = true := by
      rw [List.isPrefixOf_iff_prefix, shape]
      exact List.prefix_append _ _
    simp only [List.mem_append, List.mem_cons, List.mem_filter, below] at listed
    rcases listed with ⟨-, none_⟩ | itself | ⟨-, none_⟩
    · exact absurd none_ (by decide)
    · have := congrArg List.length (shape.symm.trans itself)
      simp at this
    · exact absurd none_ (by decide)
  · refine ⟨fun q listed => .inl (List.mem_of_mem_filter listed), fun q listed => ?_⟩
    rcases List.mem_cons.mp listed with rfl | old
    · exact .inr (List.prefix_refl _)
    · exact .inl (List.mem_of_mem_filter old)

end Rules

end PyBulletin.Foundation.Toml
