import PyBulletin.Foundation.Text

set_option autoImplicit false

namespace PyBulletin.Foundation

/-! # Regular expressions that search by backtracking

A pattern gives every way to match at the start of a text, the preferred one first, as
what it matched and what is left.  The engine takes the first way that lets the rest of
the expression match.
-/

abbrev Pattern := Text → List (Text × Text)

namespace Pattern

def char (p : Char → Bool) : Pattern
  | [] => []
  | c :: rest => if p c then [([c], rest)] else []

def literal (c : Char) : Pattern := char (· = c)

/-- `p*`, greedy. -/
def star (p : Char → Bool) : Pattern
  | [] => [([], [])]
  | c :: rest =>
      if p c then
        ((star p rest).map fun (matched, left) => (c :: matched, left)) ++ [([], c :: rest)]
      else [([], c :: rest)]

/-- `p+`, greedy. -/
def plus (p : Char → Bool) : Pattern := fun text =>
  (star p text).filter fun (matched, _) => matched ≠ []

/-- `pattern?`, greedy. -/
def opt (pattern : Pattern) : Pattern := fun text => pattern text ++ [([], text)]

def seq (first second : Pattern) : Pattern := fun text =>
  (first text).flatMap fun (front, rest) =>
    (second rest).map fun (back, left) => (front ++ back, left)

/-- A greedy star first takes all that fits. -/
theorem star_first (p : Char → Bool) {run : Text} (fits : run.all p) {rest : Text}
    (ends : ∀ c ∈ rest.head?, p c = false) :
    ∃ others, star p (run ++ rest) = (run, rest) :: others := by
  induction run with
  | nil =>
      cases rest with
      | nil => exact ⟨[], rfl⟩
      | cons c rest =>
          have stop := ends c rfl
          exact ⟨[], by simp [star, stop]⟩
  | cons c run ih =>
      simp only [List.all_cons, Bool.and_eq_true] at fits
      obtain ⟨others, taken⟩ := ih fits.2
      refine ⟨others.map (fun (matched, left) => (c :: matched, left)) ++
        [([], c :: (run ++ rest))], ?_⟩
      simp [star, fits.1, taken]

theorem plus_first (p : Char → Bool) {run : Text} (fits : run.all p) (some_ : run ≠ [])
    {rest : Text} (ends : ∀ c ∈ rest.head?, p c = false) :
    ∃ others, plus p (run ++ rest) = (run, rest) :: others := by
  obtain ⟨others, taken⟩ := star_first p fits ends
  rw [plus, taken, List.filter_cons_of_pos (by simpa using some_)]
  exact ⟨_, rfl⟩

theorem star_sound (p : Char → Bool) {text matched rest : Text}
    (listed : (matched, rest) ∈ star p text) : matched.all p := by
  induction text generalizing matched with
  | nil => simp [star] at listed; simp [listed.1]
  | cons c text ih =>
      rw [star] at listed
      split at listed
      · rename_i fits
        rcases List.mem_append.mp listed with longer | empty
        · obtain ⟨⟨taken, left⟩, among, same⟩ := List.mem_map.mp longer
          cases same
          simp only [List.all_cons, fits, Bool.true_and]
          exact ih among
        · simp only [List.mem_singleton, Prod.mk.injEq] at empty
          rw [empty.1]
          rfl
      · simp only [List.mem_singleton, Prod.mk.injEq] at listed
        rw [listed.1]
        rfl

theorem plus_sound (p : Char → Bool) {text matched rest : Text}
    (listed : (matched, rest) ∈ plus p text) : matched.all p ∧ matched ≠ [] := by
  obtain ⟨among, some_⟩ := List.mem_filter.mp listed
  exact ⟨star_sound p among, by simpa using some_⟩

theorem literal_sound {c : Char} {text matched rest : Text}
    (listed : (matched, rest) ∈ literal c text) : matched = [c] := by
  cases text with
  | nil => cases listed
  | cons first text =>
      rw [literal, char] at listed
      split at listed
      · rename_i same
        simp only [List.mem_singleton, Prod.mk.injEq] at listed
        rw [listed.1, of_decide_eq_true same]
      · cases listed

theorem opt_sound {pattern : Pattern} {text matched rest : Text}
    (listed : (matched, rest) ∈ opt pattern text) :
    (matched, rest) ∈ pattern text ∨ matched = [] := by
  rcases List.mem_append.mp listed with taken | empty
  · exact .inl taken
  · simp only [List.mem_singleton, Prod.mk.injEq] at empty
    exact .inr empty.1

theorem seq_sound {first second : Pattern} {text matched rest : Text}
    (listed : (matched, rest) ∈ seq first second text) :
    ∃ front left back, (front, left) ∈ first text ∧ (back, rest) ∈ second left ∧
      matched = front ++ back := by
  obtain ⟨⟨front, left⟩, begins, listed⟩ := List.mem_flatMap.mp listed
  obtain ⟨⟨back, behind⟩, goesOn, same⟩ := List.mem_map.mp listed
  cases same
  exact ⟨front, left, back, begins, goesOn, rfl⟩

/-! Every match is a part of the text from its start, and for the greedy operators every part that
fits is a match.
-/

section Parts

variable {p : Char → Bool} {text matched rest : Text} {pattern first second : Pattern}

theorem star_splits (listed : (matched, rest) ∈ star p text) : text = matched ++ rest := by
  induction text generalizing matched with
  | nil =>
      simp only [star, List.mem_singleton, Prod.mk.injEq] at listed
      rw [listed.1, listed.2]
      rfl
  | cons c text ih =>
      rw [star] at listed
      split at listed
      · rcases List.mem_append.mp listed with longer | empty
        · obtain ⟨⟨taken, left⟩, among, same⟩ := List.mem_map.mp longer
          cases same
          rw [ih among, List.cons_append]
        · simp only [List.mem_singleton, Prod.mk.injEq] at empty
          rw [empty.1, empty.2]
          rfl
      · simp only [List.mem_singleton, Prod.mk.injEq] at listed
        rw [listed.1, listed.2]
        rfl

theorem plus_splits (listed : (matched, rest) ∈ plus p text) : text = matched ++ rest :=
  star_splits (List.mem_filter.mp listed).1

theorem literal_splits {c : Char} (listed : (matched, rest) ∈ literal c text) :
    text = c :: rest := by
  cases text with
  | nil => cases listed
  | cons first text =>
      rw [literal, char] at listed
      split at listed
      · rename_i same
        simp only [List.mem_singleton, Prod.mk.injEq] at listed
        rw [listed.2, of_decide_eq_true same]
      · cases listed

theorem opt_splits (listed : (matched, rest) ∈ opt pattern text) :
    (matched, rest) ∈ pattern text ∨ matched = [] ∧ rest = text := by
  rcases List.mem_append.mp listed with taken | empty
  · exact .inl taken
  · simp only [List.mem_singleton, Prod.mk.injEq] at empty
    exact .inr empty

theorem star_complete (fits : matched.all p) (rest : Text) :
    (matched, rest) ∈ star p (matched ++ rest) := by
  induction matched with
  | nil =>
      cases rest with
      | nil => simp [star]
      | cons c rest =>
          rw [List.nil_append, star]
          split <;> simp
  | cons c matched ih =>
      simp only [List.all_cons, Bool.and_eq_true] at fits
      rw [List.cons_append, star, if_pos fits.1]
      exact List.mem_append_left _ (List.mem_map.mpr ⟨_, ih fits.2, rfl⟩)

theorem plus_complete (fits : matched.all p) (some_ : matched ≠ []) (rest : Text) :
    (matched, rest) ∈ plus p (matched ++ rest) :=
  List.mem_filter.mpr ⟨star_complete fits rest, by simpa using some_⟩

theorem literal_complete (c : Char) (rest : Text) : ([c], rest) ∈ literal c (c :: rest) := by
  simp [literal, char]

theorem opt_taken (listed : (matched, rest) ∈ pattern text) : (matched, rest) ∈ opt pattern text :=
  List.mem_append_left _ listed

theorem opt_skipped (pattern : Pattern) (text : Text) : ([], text) ∈ opt pattern text :=
  List.mem_append_right _ (List.mem_singleton.mpr rfl)

theorem seq_complete {front back left : Text} (begins : (front, left) ∈ first text)
    (goesOn : (back, rest) ∈ second left) : (front ++ back, rest) ∈ seq first second text :=
  List.mem_flatMap.mpr ⟨_, begins, List.mem_map.mpr ⟨_, goesOn, rfl⟩⟩

end Parts

end Pattern

end PyBulletin.Foundation
