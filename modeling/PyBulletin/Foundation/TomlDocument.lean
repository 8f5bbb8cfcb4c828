import PyBulletin.Foundation.TomlText
import PyBulletin.Foundation.TomlTables

set_option autoImplicit false

namespace PyBulletin.Foundation.Toml

/-! # Documents written table by table

Rules for a writer that gives every table its plain keys first and then the tables inside it:
what the reader has built behind a piece of such a text. -/

variable (other : Text → Option (Value × Text))

/-- Behind `text` the open table at `p` has grown from `t` to `t'`, and is still open. -/
def Assigns (text : Text) (p : Path) (t t' : Dict) : Prop :=
  '\r' ∉ text ∧ ∃ f, Performs other text f ∧ ∀ st plug, st.header = p → At st p plug t →
    ∃ st', f st = some st' ∧ st'.header = p ∧ At st' p plug t' ∧ Grows p st st'

/-- Behind `text` the table at `p` has grown from `t` to `t'`, whatever was open before. -/
def Opens (text : Text) (p : Path) (t t' : Dict) : Prop :=
  '\r' ∉ text ∧ ∃ f, Performs other text f ∧ ∀ st plug, At st p plug t →
    ∃ st', f st = some st' ∧ At st' p plug t' ∧ Grows p st st'

variable {other} {text more : Text} {p : Path} {t t' t'' s s' : Dict} {k : Text} {v : Value}

theorem Assigns.nil : Assigns other [] p t t :=
  ⟨List.not_mem_nil, some, performs_nil, fun st _ header here => ⟨st, rfl, header, here, .refl p st⟩⟩

theorem Assigns.append (first : Assigns other text p t t') (second : Assigns other more p t' t'') :
    Assigns other (text ++ more) p t t'' := by
  obtain ⟨unix, f, performed, runs⟩ := first
  obtain ⟨unix', g, performed', runs'⟩ := second
  refine ⟨by simp [unix, unix'], _, performed.append performed', fun st plug header here => ?_⟩
  obtain ⟨mid, run, header, here, grown⟩ := runs st plug header here
  obtain ⟨st', run', header, here, grown'⟩ := runs' mid plug header here
  exact ⟨st', by rw [run, Option.bind_some, run'], header, here, grown.trans grown'⟩

theorem Opens.nil : Opens other [] p t t :=
  ⟨List.not_mem_nil, some, performs_nil, fun st _ here => ⟨st, rfl, here, .refl p st⟩⟩

theorem Opens.append (first : Opens other text p t t') (second : Opens other more p t' t'') :
    Opens other (text ++ more) p t t'' := by
  obtain ⟨unix, f, performed, runs⟩ := first
  obtain ⟨unix', g, performed', runs'⟩ := second
  refine ⟨by simp [unix, unix'], _, performed.append performed', fun st plug here => ?_⟩
  obtain ⟨mid, run, here, grown⟩ := runs st plug here
  obtain ⟨st', run', here, grown'⟩ := runs' mid plug here
  exact ⟨st', by rw [run, Option.bind_some, run'], here, grown.trans grown'⟩

theorem assigns_key {pad raw : Text} (bare : Bare k) (blanks : ∀ c ∈ pad, isBlank c = true)
    (reading : Reads other raw v) (fresh : k ∉ t.keys) :
    Assigns other (k ++ pad ++ ("= " : Text) ++ raw ++ ['\n']) p t (t ++ [(k, v)]) := by
  have blank : '\r' ∉ pad := fun listed => absurd (blanks _ listed) (by decide)
  refine ⟨?_, _, performs_assign bare blanks reading, fun _ _ header here =>
    here.assign header fresh v⟩
  simp [bare.unix, blank, reading.unix]

/-- A line that gives a key its value. -/
structure Row where
  key : Text
  pad : Text
  raw : Text
  value : Value

namespace Row

def line (row : Row) : Text := row.key ++ row.pad ++ ("= " : Text) ++ row.raw ++ ['\n']

def item (row : Row) : Text × Value := (row.key, row.value)

structure Valid (other : Text → Option (Value × Text)) (row : Row) : Prop where
  bare : Bare row.key
  blanks : ∀ c ∈ row.pad, isBlank c = true
  reads : Reads other row.raw row.value

theorem valid {key pad raw : Text} (bare : Bare key) (blanks : ∀ c ∈ pad, isBlank c = true)
    (reads : Reads other raw v) : Valid other ⟨key, pad, raw, v⟩ :=
  ⟨bare, blanks, reads⟩

end Row

theorem assigns_rows {rows : List Row} (valid : ∀ row ∈ rows, row.Valid other)
    (distinct : (rows.map Row.key).Nodup) (fresh : ∀ row ∈ rows, row.key ∉ t.keys) :
    Assigns other (rows.flatMap Row.line) p t (t ++ rows.map Row.item) := by
  induction rows generalizing t with
  | nil => simpa using Assigns.nil
  | cons row rows ih =>
      obtain ⟨here, valid⟩ := List.forall_mem_cons.mp valid
      obtain ⟨single, distinct⟩ := List.nodup_cons.mp distinct
      obtain ⟨new, fresh⟩ := List.forall_mem_cons.mp fresh
      have line := assigns_key (p := p) here.bare here.blanks here.reads new
      have apart : ∀ other ∈ rows, other.key ∉ Dict.keys (t ++ [(row.key, row.value)]) := by
        intro other listed
        have inside : other.key ∈ rows.map Row.key := List.mem_map_of_mem listed
        simp only [Dict.keys_append, Dict.keys_cons, Dict.keys_nil, List.mem_append,
          List.mem_singleton, not_or]
        exact ⟨fresh other listed, fun same => single (same ▸ inside)⟩
      simpa [Row.line, Row.item] using line.append (ih valid distinct apart)

theorem assigns_comment {remark : Text} (lined : Lined remark) :
    Assigns other ('#' :: remark ++ ['\n']) p t t := by
  have unix : '\r' ∉ remark := fun listed => absurd (lined _ listed) (by decide)
  exact ⟨by simpa using unix, some, performs_comment lined,
    fun st _ header here => ⟨st, rfl, header, here, .refl p st⟩⟩

/-- A header, the plain keys of its table and the tables inside it. -/
theorem opens_table (path : ∀ key ∈ p ++ [k], Bare key) (fresh : k ∉ t.keys)
    (keys : Assigns other text (p ++ [k]) [] s) (tables : Opens other more (p ++ [k]) s s') :
    Opens other (['\n', '['] ++ dotted (p ++ [k]) ++ [']', '\n'] ++ text ++ more) p t
      (t ++ [(k, .dict s')]) := by
  obtain ⟨unix, f, performed, runs⟩ := keys
  obtain ⟨unix', g, performed', runs'⟩ := tables
  have unix'' := dotted_unix path
  have header := performs_blank.append (performs_table other (by simp) path)
  have whole := (header.append performed).append performed'
  simp only [List.cons_append, List.nil_append, List.append_assoc] at whole ⊢
  refine ⟨by simp [unix, unix', unix''], _, whole, fun st plug here => ?_⟩
  obtain ⟨st₁, run₁, header, inner, grown₁⟩ := here.enter fresh
  obtain ⟨st₂, run₂, -, inner, grown₂⟩ := runs st₁ _ header inner
  obtain ⟨st₃, run₃, inner, grown₃⟩ := runs' st₂ _ inner
  have grown := (grown₁.trans grown₂).trans grown₃
  refine ⟨st₃, ?_, here.leave (fun _ => .inl) inner.data inner.quiet grown,
    grown.widen (List.prefix_append _ _)⟩
  simp [run₁, run₂, run₃]

/-- The tables of an array, each behind its header. -/
theorem opens_array (path : ∀ key ∈ p ++ [k], Bare key) (fresh : k ∉ t.keys)
    {parts : List (Text × Dict)}
    (each : ∀ part ∈ parts, Assigns other part.1 (p ++ [k]) [] part.2) :
    Opens other
      (parts.flatMap fun part =>
        ['\n', '[', '['] ++ dotted (p ++ [k]) ++ [']', ']', '\n'] ++ part.1)
      p t (t ++ arrayEntry k (parts.map fun part => .dict part.2)) := by
  have unix : '\r' ∉ parts.flatMap fun part =>
      ['\n', '[', '['] ++ dotted (p ++ [k]) ++ [']', ']', '\n'] ++ part.1 := by
    intro listed
    obtain ⟨part, among, inside⟩ := List.mem_flatMap.mp listed
    simp [dotted_unix path, (each part among).1] at inside
  refine ⟨unix, ?_⟩
  clear unix
  suffices general : ∀ vs, ∃ f, Performs other
      (parts.flatMap fun part =>
        ['\n', '[', '['] ++ dotted (p ++ [k]) ++ [']', ']', '\n'] ++ part.1) f ∧
      ∀ st plug, At st p plug (t ++ arrayEntry k vs) → p ++ [k] ∉ st.frozen →
        ∃ st', f st = some st' ∧
          At st' p plug (t ++ arrayEntry k (vs ++ parts.map fun part => .dict part.2)) ∧
          Grows p st st' by
    obtain ⟨f, performed, runs⟩ := general []
    refine ⟨f, performed, fun st plug here => ?_⟩
    have start : t ++ arrayEntry k [] = t := List.append_nil t
    refine runs st plug (start.symm ▸ here) fun listed => ?_
    exact fresh (here.marks _ (List.mem_append_left _ listed) k [] rfl)
  induction parts with
  | nil =>
      intro vs
      refine ⟨some, performs_nil, fun st plug here _ => ⟨st, rfl, ?_, .refl p st⟩⟩
      simpa using here
  | cons part parts ih =>
      intro vs
      obtain ⟨first, others⟩ := List.forall_mem_cons.mp each
      obtain ⟨-, f, performed, runs⟩ := first
      obtain ⟨g, performed', runs'⟩ := ih others (vs ++ [.dict part.2])
      have header := performs_blank.append (performs_element other (by simp) path)
      have whole := (header.append performed).append performed'
      simp only [List.flatMap_cons, List.cons_append, List.nil_append, List.append_assoc] at whole ⊢
      refine ⟨_, whole, fun st plug here open_ => ?_⟩
      obtain ⟨st₁, run₁, header, inner, grown₁⟩ := here.element fresh open_
      obtain ⟨st₂, run₂, -, inner, grown₂⟩ := runs st₁ _ header inner
      have kept : ∀ key ∈ Dict.keys (t ++ arrayEntry k vs), key ∈ t.keys ∨ key = k := by
        intro key listed
        rw [arrayEntry] at listed
        split at listed
        · exact .inl (by simpa using listed)
        · simpa using listed
      have grown := grown₁.trans grown₂
      have back := here.leave kept inner.data inner.quiet grown
      have shape : t ++ [(k, .list (vs ++ [.dict part.2]))] =
          t ++ arrayEntry k (vs ++ [.dict part.2]) := by simp [arrayEntry]
      rw [shape] at back
      obtain ⟨st₃, run₃, done, grown₃⟩ := runs' st₂ plug back
        fun listed => inner.thawed _ listed (List.prefix_refl _)
      refine ⟨st₃, by simp [run₁, run₂, run₃], ?_,
        (grown.widen (List.prefix_append _ _)).trans grown₃⟩
      simpa using done

/-- A document is the plain keys of the root and the tables inside it. -/
theorem loads_document (keys : Assigns other text [] [] s) (tables : Opens other more [] s t) :
    loads other (text ++ more) = some t := by
  obtain ⟨unix, f, performed, runs⟩ := keys
  obtain ⟨unix', g, performed', runs'⟩ := tables
  obtain ⟨mid, run, -, here, -⟩ := runs State.initial _ rfl at_initial
  obtain ⟨st, run', here, -⟩ := runs' mid _ here
  rw [(performed.append performed').loads (by simp [unix, unix']), run, Option.bind_some, run', Option.map_some,
    here.data]

end PyBulletin.Foundation.Toml
