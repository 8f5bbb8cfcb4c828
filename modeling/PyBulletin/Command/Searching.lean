import Mathlib.Data.List.Infix
import PyBulletin.Command.Listed
import PyBulletin.Foundation.Lines

set_option autoImplicit false

namespace PyBulletin.Store

open PyBulletin.Foundation

theorem like_any {pattern text : Text} :
    like ('%' :: pattern) text ↔ ∃ rest, rest <:+ text ∧ like pattern rest := by
  have tried : like ('%' :: pattern) text = text.tails.any (like pattern) := by
    cases text <;> rw [like, if_pos rfl]
  rw [tried, List.any_eq_true]
  simp only [List.mem_tails]

/-- A text fits itself as a pattern, its wildcards included. -/
theorem like_of_prefix {pattern text rest : Text}
    (same : Text.lower pattern = Text.lower text) : like (pattern ++ ['%']) (text ++ rest) := by
  induction pattern generalizing text with
  | nil => exact like_any.mpr ⟨[], List.nil_suffix, rfl⟩
  | cons letter pattern ih =>
      cases text with
      | nil => cases same
      | cons c text =>
          obtain ⟨letters, others⟩ := List.cons.inj same
          have behind := ih others
          by_cases wild : letter = '%'
          · rw [wild]
            exact like_any.mpr ⟨text ++ rest, List.suffix_cons c (text ++ rest), behind⟩
          · rw [List.cons_append, List.cons_append, like, if_neg wild]
            simp [letters, behind]

/-- `LIKE` finds every text that contains the one that is looked for. -/
theorem like_of_contained {term text : Text} (inside : Text.lower term <:+: Text.lower text) :
    like (['%'] ++ term ++ ['%']) text := by
  obtain ⟨front, back, whole⟩ := inside
  obtain ⟨start, last, rfl, starts, lasts⟩ := List.map_eq_append_iff.mp whole.symm
  obtain ⟨begun, middle, rfl, begins, middles⟩ := List.map_eq_append_iff.mp starts
  rw [List.append_assoc]
  refine like_any.mpr ⟨middle ++ last, ⟨begun, (List.append_assoc _ _ _).symm⟩, ?_⟩
  exact like_of_prefix middles.symm

/-- Without wildcards it finds no others. -/
theorem infix_of_like {term text : Text} (plain : '%' ∉ term ∧ '_' ∉ term)
    (found : like (['%'] ++ term ++ ['%']) text) : Text.lower term <:+: Text.lower text := by
  have prefixed : ∀ {term text : Text}, '%' ∉ term ∧ '_' ∉ term → like (term ++ ['%']) text →
      Text.lower term <+: Text.lower text := by
    intro term
    induction term with
    | nil => exact fun _ _ => List.nil_prefix
    | cons letter term ih =>
        intro text plain fits
        simp only [List.mem_cons, not_or] at plain
        cases text with
        | nil =>
            rw [List.cons_append, like, if_neg (Ne.symm plain.1.1)] at fits
            cases fits
        | cons c text =>
            rw [List.cons_append, like, if_neg (Ne.symm plain.1.1)] at fits
            simp only [Ne.symm plain.2.1, false_or, decide_eq_true_eq] at fits
            obtain ⟨rest, same⟩ := ih ⟨plain.1.2, plain.2.2⟩ fits.2
            exact ⟨rest, congrArg₂ List.cons fits.1 same⟩
  rw [List.append_assoc] at found
  obtain ⟨rest, behind, fits⟩ := like_any.mp found
  exact (prefixed plain fits).isInfix.trans (behind.map Char.toLower).isInfix

end PyBulletin.Store

namespace PyBulletin.Command.Engine

open PyBulletin.Foundation
open PyBulletin.Foundation.Stateful
open PyBulletin.Store
open PyBulletin.Session

section Merging

variable {mail : BBSStore} {p q r : Row → Bool}

/-- The rows that are selected first, then those that are selected too. -/
theorem filter_append_perm (rows : List Row) :
    (rows.filter p ++ rows.filter fun row => q row && !p row).Perm
      (rows.filter fun row => p row || q row) := by
  induction rows with
  | nil => exact .nil
  | cons row rows ih =>
      cases first : p row with
      | true => simpa [first] using ih
      | false =>
          cases second : q row with
          | true => simpa [first, second] using List.perm_middle.trans (ih.cons row)
          | false => simpa [first, second] using ih

/-- `seen` keeps out what is there already. -/
theorem append_unseen_perm {found : List Row} (same : found.Perm (mail.messages.filter p)) :
    (found ++ unseen found (mail.messages.filter q)).Perm
      (mail.messages.filter fun row => p row || q row) := by
  have news : unseen found (mail.messages.filter q) =
      mail.messages.filter fun row => q row && !p row := by
    rw [unseen, List.filter_filter]
    refine List.filter_congr fun row stored => ?_
    have absent : (found.all fun msg => msg.id ≠ row.id) = !p row := by
      rw [same.all_eq, Bool.eq_iff_iff, List.all_eq_true]
      constructor
      · intro apart
        by_contra selected
        have member := List.mem_filter.mpr ⟨stored, by simpa using selected⟩
        exact absurd rfl (of_decide_eq_true (apart row member))
      · intro passed msg member
        obtain ⟨listed, selected⟩ := List.mem_filter.mp member
        have rejected : p row = false := by simpa using passed
        refine decide_eq_true fun number => ?_
        rw [BBSStore.eq_of_id _ listed stored number, rejected] at selected
        cases selected
    rw [absent, Bool.and_comm]
  rw [news]
  exact (same.append_right _).trans (filter_append_perm mail.messages)

/-- Sorted by number they are in the order of the store. -/
theorem mergeSort_eq_filter {found : List Row} (same : found.Perm (mail.messages.filter p)) :
    found.mergeSort (fun first second => first.id ≤ second.id) = mail.messages.filter p := by
  have listed {row : Row} (member : row ∈ mail.messages.filter p) : row ∈ mail.messages :=
    (List.mem_filter.mp member).1
  have sorted : (found.mergeSort fun first second => first.id ≤ second.id).Perm
      (mail.messages.filter p) := (List.mergeSort_perm found _).trans same
  refine @List.Perm.eq_of_pairwise Row (fun first second => first.id ≤ second.id) _ _ ?_ ?_ ?_ sorted
  · intro first second left right less greater
    exact BBSStore.eq_of_id _ (listed (sorted.mem_iff.mp left)) (listed right)
      (Nat.le_antisymm less greater)
  · simpa using @List.pairwise_mergeSort Row (fun first second => first.id ≤ second.id)
      (fun first second third => by simpa using Nat.le_trans)
      (fun first second => by simpa using Nat.le_total first.id second.id) found
  · exact (mail.ordered.filter p).imp Nat.le_of_lt

end Merging

/-- The messages with the text in the subject, and those from or to the call. -/
def sought (term : Text) (row : Row) : Bool :=
  row.status ≠ statusKilled &&
    (Text.lower term <:+: Text.lower row.subject ∨ row.fromCall = Text.upper term ∨
      row.toCall = Text.upper term)

/-- The messages that the three queries of `LS` select. -/
def searched (term : Text) (row : Row) : Bool :=
  row.status ≠ statusKilled &&
    (like (['%'] ++ term ++ ['%']) row.subject ∨ row.fromCall = Text.upper term ∨
      row.toCall = Text.upper term)

theorem searched_iff_sought (term : Text) (row : Row) :
    searched term row = sought term row ↔
      (row.status ≠ statusKilled → like (['%'] ++ term ++ ['%']) row.subject →
        Text.lower term <:+: Text.lower row.subject ∨ row.fromCall = Text.upper term ∨
          row.toCall = Text.upper term) := by
  have contained := @like_of_contained term row.subject
  rw [searched, sought]
  by_cases live : row.status = statusKilled
  · simp [live]
  · simp only [live, ne_eq, not_false_eq_true, decide_true, Bool.true_and, decide_eq_decide,
      true_implies]
    tauto

section List

variable {node : Node} {console : Console} {user : User} {args term : Text}

/-- `LS` lists what its queries select, each message once and by number. -/
theorem lists_cmdListSearch (signedIn : console.user = some user) (typed : Text.strip args = term)
    (some_ : term ≠ []) :
    Lists (fun node => cmdListSearch node args) node console
      (console.database.mail.messages.filter (searched term)) := by
  refine ⟨console.asked, fun strings fuel => ?_⟩
  change (cmdListSearch { node with strings } args).run fuel console = _
  rw [cmdListSearch, run_ifRead signedIn, typed, if_neg some_, run_listMessages rfl rfl rfl,
    run_listMessages rfl rfl rfl, run_listMessages rfl rfl rfl]
  have merged := mergeSort_eq_filter (append_unseen_perm
    (q := ({ toCall := some (Text.upper term) } : MessageQuery).selects) (append_unseen_perm
      (q := ({ fromCall := some (Text.upper term) } : MessageQuery).selects)
      (List.Perm.refl (console.database.mail.messages.filter
        ({ search := some term } : MessageQuery).selects))))
  dsimp only
  rw [merged]
  refine congrArg (fun rows => (sendList { node with strings } rows).run fuel console)
    (List.filter_congr fun row _ => ?_)
  simp only [MessageQuery.selects, searched, Option.all_some, Option.all_none, Text.upper_upper]
  by_cases live : row.status = statusKilled
  · simp [live]
  · simp [live, Bool.or_assoc]

/-- `LS` lists the messages with the text exactly if no other subject fits it as a pattern. -/
theorem cmdListSearch_exact_iff (signedIn : console.user = some user) (typed : Text.strip args = term)
    (some_ : term ≠ []) :
    Lists (fun node => cmdListSearch node args) node console
        (console.database.mail.messages.filter (sought term)) ↔
      ∀ row ∈ console.database.mail.messages, row.status ≠ statusKilled →
        like (['%'] ++ term ++ ['%']) row.subject →
        Text.lower term <:+: Text.lower row.subject ∨ row.fromCall = Text.upper term ∨
          row.toCall = Text.upper term := by
  rw [(lists_cmdListSearch signedIn typed some_).filter_iff]
  exact forall₂_congr fun row _ => searched_iff_sought term row

/-- A text without wildcards is found where it is and nowhere else. -/
theorem plain_search_exact (signedIn : console.user = some user) (typed : Text.strip args = term)
    (some_ : term ≠ []) (plain : '%' ∉ term ∧ '_' ∉ term) :
    Lists (fun node => cmdListSearch node args) node console
      (console.database.mail.messages.filter (sought term)) := by
  refine (lists_cmdListSearch signedIn typed some_).filter_iff.mpr fun row _ => ?_
  exact (searched_iff_sought term row).mpr fun _ found => .inl (infix_of_like plain found)

end List

theorem sale_found :
    Lists (fun node => cmdListSearch node "50%") bareNode
      (listenerTerminal (bulletinAt ⟨2026, 1, 1, 10, 0, 0⟩ "Antennas 50% off"))
      ((bulletinAt ⟨2026, 1, 1, 10, 0, 0⟩ "Antennas 50% off").messages.filter (sought "50%")) :=
  (@cmdListSearch_exact_iff bareNode _ listener "50%".toList "50%".toList rfl (by decide)
    (by decide)).mpr (by decide)

/-- `LS 50%` lists a bulletin that has `50` in its subject and no percent sign. -/
theorem other_subject_listed :
    ¬ ∀ (node : Node) (console : Console) (user : User) (args term : Text),
      console.user = some user → Text.strip args = term → term ≠ [] →
      Lists (fun node => cmdListSearch node args) node console
        (console.database.mail.messages.filter (sought term)) := by
  intro claimed
  have listed := claimed bareNode
    (listenerTerminal (bulletinAt ⟨2026, 1, 1, 10, 0, 0⟩ "50 years of packet")) listener "50%" "50%" rfl
    (by decide) (by decide)
  have truly := @lists_cmdListSearch bareNode
    (listenerTerminal (bulletinAt ⟨2026, 1, 1, 10, 0, 0⟩ "50 years of packet")) listener "50%".toList
    "50%".toList rfl (by decide) (by decide)
  have agree := truly.filter_iff.mp listed
  revert agree
  decide

end PyBulletin.Command.Engine
