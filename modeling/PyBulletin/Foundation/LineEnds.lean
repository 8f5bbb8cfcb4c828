import Mathlib.Data.List.Chain
import PyBulletin.Foundation.Readers

set_option autoImplicit false

namespace PyBulletin.Foundation.LineEnds

open PyBulletin.Foundation.Readers

/-! # Lines with three endings

A line ends with CR LF, or with a CR or an LF alone.
-/

inductive Ending where
  | crlf
  | cr
  | lf
  deriving DecidableEq

/-- The place in the order in which a reader may look for the endings. -/
def Ending.rank : Ending → Nat
  | .crlf => 0
  | .cr => 1
  | .lf => 2

variable {α : Type} [DecidableEq α] {cr lf : α}

def Ending.chars (cr lf : α) : Ending → List α
  | .crlf => [cr, lf]
  | .cr => [cr]
  | .lf => [lf]

/-- The first line with its ending, and what follows. -/
def firstLine (cr lf : α) : List α → Option ((List α × Ending) × List α)
  | [] => none
  | c :: text =>
      if c = cr then
        if text.head? = some lf then some (([], .crlf), text.tail) else some (([], .cr), text)
      else if c = lf then some (([], .lf), text)
      else (firstLine cr lf text).map fun ((line, ending), rest) => ((c :: line, ending), rest)

/-- The lines of a text from left to right, and what follows the last ending. -/
def lines (cr lf : α) (text : List α) : List (List α × Ending) × List α :=
  takeAll (firstLine cr lf) text

/-- The endings of a text. -/
def ends (cr lf : α) (text : List α) : List Ending := (lines cr lf text).1.map Prod.snd

/-- No ending begins or ends in the text. -/
def Plain (cr lf : α) (text : List α) : Prop := cr ∉ text ∧ lf ∉ text

section First

variable {text line rest : List α} {ending : Ending}

theorem firstLine_chars (different : cr ≠ lf) (plain : Plain cr lf line)
    (alone : ending = .cr → rest.head? ≠ some lf) :
    firstLine cr lf (line ++ (ending.chars cr lf ++ rest)) = some ((line, ending), rest) := by
  induction line with
  | nil =>
      cases ending with
      | crlf => simp [firstLine, Ending.chars]
      | cr =>
          change firstLine cr lf (cr :: rest) = _
          rw [firstLine, if_pos rfl, if_neg (alone rfl)]
      | lf => simp [firstLine, Ending.chars, different.symm]
  | cons c line ih =>
      simp only [Plain, List.mem_cons, not_or] at plain
      have later := ih ⟨plain.1.2, plain.2.2⟩
      rw [List.cons_append, firstLine, if_neg (Ne.symm plain.1.1), if_neg (Ne.symm plain.2.1), later]
      rfl

theorem firstLine_split (found : firstLine cr lf text = some ((line, ending), rest)) :
    text = line ++ (ending.chars cr lf ++ rest) ∧ Plain cr lf line ∧
      (ending = .cr → rest.head? ≠ some lf) := by
  induction text generalizing line with
  | nil => cases found
  | cons c text ih =>
      rw [firstLine] at found
      split at found
      · next return_ =>
          split at found
          · next feed =>
              cases found
              cases text with
              | nil => cases feed
              | cons next text =>
                  cases feed
                  exact ⟨by rw [return_]; rfl, by simp [Plain], nofun⟩
          · next other =>
              cases found
              exact ⟨by rw [return_]; rfl, by simp [Plain], fun _ => other⟩
      · next notReturn =>
          split at found
          · next feed =>
              cases found
              exact ⟨by rw [feed]; rfl, by simp [Plain], nofun⟩
          · next notFeed =>
              obtain ⟨⟨⟨later, ending'⟩, rest'⟩, first, same⟩ := Option.map_eq_some_iff.mp found
              cases same
              obtain ⟨whole, plain, alone⟩ := ih first
              refine ⟨by rw [whole]; rfl, ⟨?_, ?_⟩, alone⟩
              · exact List.not_mem_cons_of_ne_of_not_mem (Ne.symm notReturn) plain.1
              · exact List.not_mem_cons_of_ne_of_not_mem (Ne.symm notFeed) plain.2

theorem firstLine_none : firstLine cr lf text = none ↔ Plain cr lf text := by
  induction text with
  | nil => simp [firstLine, Plain]
  | cons c text ih =>
      rw [firstLine, Plain]
      by_cases return_ : c = cr
      · rw [if_pos return_]
        refine iff_of_false ?_ fun plain => plain.1 (return_ ▸ List.mem_cons_self)
        split <;> exact Option.some_ne_none _
      · rw [if_neg return_]
        by_cases feed : c = lf
        · rw [if_pos feed]
          exact iff_of_false (Option.some_ne_none _) fun plain => plain.2 (feed ▸ List.mem_cons_self)
        · rw [if_neg feed, Option.map_eq_none_iff, ih, Plain]
          simp [Ne.symm return_, Ne.symm feed]

theorem firstLine_shortens : Shortens (firstLine cr lf) := by
  rintro text ⟨line, ending⟩ rest found
  obtain ⟨rfl, -⟩ := firstLine_split found
  cases ending <;> simp [Ending.chars] <;> omega

end First

section Lines

variable {text line rest front back : List α} {ending : Ending}

theorem lines_some (found : firstLine cr lf text = some ((line, ending), rest)) :
    lines cr lf text = ((line, ending) :: (lines cr lf rest).1, (lines cr lf rest).2) :=
  takeAll_some firstLine_shortens found

theorem lines_plain (plain : Plain cr lf text) : lines cr lf text = ([], text) :=
  takeAll_none (firstLine_none.mpr plain)

theorem plain_left (text : List α) : Plain cr lf (lines cr lf text).2 :=
  firstLine_none.mp (take_left firstLine_shortens text)

theorem plain_lines (text : List α) : ∀ line ∈ (lines cr lf text).1, Plain cr lf line.1 := by
  induction text using (@firstLine_shortens _ _ cr lf).induct with
  | done text none =>
      rw [lines, takeAll_none none]
      exact fun _ listed => absurd listed List.not_mem_nil
  | step text first rest found ih =>
      rw [lines_some found]
      exact List.forall_mem_cons.mpr ⟨(firstLine_split found).2.1, ih⟩

/-- A CR LF goes through the place between the two. -/
def Cuts (cr lf : α) (front back : List α) : Prop :=
  front.getLast? = some cr ∧ back.head? = some lf

instance : Decidable (Cuts cr lf front back) := inferInstanceAs (Decidable (_ ∧ _))

/-- The first line of a text is that of all that continues it, but for a CR LF in between. -/
theorem firstLine_append (different : cr ≠ lf)
    (found : firstLine cr lf front = some ((line, ending), rest))
    (whole : rest = [] → ¬ Cuts cr lf front back) :
    firstLine cr lf (front ++ back) = some ((line, ending), rest ++ back) := by
  obtain ⟨rfl, plain, alone⟩ := firstLine_split found
  rw [List.append_assoc, List.append_assoc]
  refine firstLine_chars different plain fun same => ?_
  cases rest with
  | nil =>
      subst same
      intro feed
      exact whole rfl ⟨by simp [Ending.chars], feed⟩
  | cons c rest => exact alone same

theorem cuts_rest (found : firstLine cr lf front = some ((line, ending), rest)) (more : rest ≠ []) :
    Cuts cr lf front back ↔ Cuts cr lf rest back := by
  obtain ⟨rfl, -⟩ := firstLine_split found
  rw [Cuts, Cuts, List.getLast?_append_of_ne_nil _ (List.append_ne_nil_of_right_ne_nil _ more),
    List.getLast?_append_of_ne_nil _ more]

/-- The lines of a text that is not cut in a CR LF. -/
theorem lines_append (different : cr ≠ lf) (whole : ¬ Cuts cr lf front back) :
    lines cr lf (front ++ back) =
      ((lines cr lf front).1 ++ (lines cr lf ((lines cr lf front).2 ++ back)).1,
        (lines cr lf ((lines cr lf front).2 ++ back)).2) := by
  induction front using (@firstLine_shortens _ _ cr lf).induct with
  | done front none => rw [lines_plain (firstLine_none.mp none)]; rfl
  | step front first rest found ih =>
      rw [lines_some (firstLine_append different found fun _ => whole), lines_some found]
      have later : ¬ Cuts cr lf rest back := by
        by_cases more : rest = []
        · simp [Cuts, more]
        · exact mt (cuts_rest found more).mpr whole
      rw [ih later]
      rfl

/-- A text that is cut in a CR LF has one line more. -/
theorem lines_cut (different : cr ≠ lf) (cut : Cuts cr lf front back) :
    (lines cr lf (front ++ back)).1.length + 1 =
      (lines cr lf front).1.length + (lines cr lf ((lines cr lf front).2 ++ back)).1.length := by
  induction front using (@firstLine_shortens _ _ cr lf).induct with
  | done front none =>
      exact absurd (List.mem_of_getLast? cut.1) (firstLine_none.mp none).1
  | step front first rest found ih =>
      by_cases more : rest = []
      · obtain ⟨line, ending⟩ := first
        obtain ⟨split, plain, -⟩ := firstLine_split found
        obtain ⟨last, feed⟩ := cut
        obtain ⟨others, rfl⟩ := List.head?_eq_some_iff.mp feed
        have return_ : ending = .cr := by
          cases ending with
          | cr => rfl
          | crlf | lf => simp [split, more, Ending.chars, different.symm] at last
        have joined : firstLine cr lf (front ++ lf :: others) = some ((line, .crlf), others) := by
          rw [split, more, return_, List.append_nil, List.append_assoc]
          exact @firstLine_chars _ _ cr lf line others .crlf different plain nofun
        have apart : firstLine cr lf ([] ++ lf :: others) = some (([], .lf), others) :=
          @firstLine_chars _ _ cr lf [] others .lf different (by simp [Plain]) nofun
        have nothing : lines cr lf [] = ([], []) := rfl
        rw [lines_some joined, lines_some found, more, nothing, lines_some apart]
        simp only [List.length_cons, List.length_nil]
        omega
      · rw [lines_some (firstLine_append different found fun none => absurd none more),
          lines_some found]
        have later := ih ((cuts_rest found more).mp cut)
        simp only [List.length_cons]
        omega

/-- What is plain in front of a text goes to its first line. -/
theorem ends_append_plain (different : cr ≠ lf) (plain : Plain cr lf front) (text : List α) :
    ends cr lf (front ++ text) = ends cr lf text := by
  cases found : firstLine cr lf text with
  | none =>
      have also := firstLine_none.mp found
      rw [ends, ends, lines_plain also, lines_plain]
      exact ⟨by simp [plain.1, also.1], by simp [plain.2, also.2]⟩
  | some result =>
      obtain ⟨⟨line, ending⟩, rest⟩ := result
      obtain ⟨split, clean, alone⟩ := firstLine_split found
      have longer : firstLine cr lf (front ++ text) = some ((front ++ line, ending), rest) := by
        rw [split, ← List.append_assoc]
        exact firstLine_chars different ⟨by simp [plain.1, clean.1], by simp [plain.2, clean.2]⟩ alone
      rw [ends, ends, lines_some longer, lines_some found]
      rfl

theorem ends_some (found : firstLine cr lf text = some ((line, ending), rest)) :
    ends cr lf text = ending :: ends cr lf rest := by
  rw [ends, lines_some found]
  rfl

end Lines

section Chunks

variable {chunks : List (List α)} {chunk next buffer : List α}

/-- How many CR LF go through the places between chunks. -/
def cuts (cr lf : α) : List (List α) → Nat
  | front :: back :: chunks => (if Cuts cr lf front back then 1 else 0) + cuts cr lf (back :: chunks)
  | _ => 0

theorem cuts_eq_zero :
    cuts cr lf chunks = 0 ↔ chunks.IsChain fun front back => ¬ Cuts cr lf front back := by
  induction chunks with
  | nil => simp [cuts]
  | cons front chunks ih =>
      cases chunks with
      | nil => simp [cuts]
      | cons back chunks =>
          rw [cuts, Nat.add_eq_zero_iff, ih, List.isChain_cons_cons]
          simp

omit [DecidableEq α] in
/-- The place between two chunks does not depend on what surrounds them. -/
theorem cuts_flatten (some_ : chunk ≠ []) (also : next ≠ []) :
    Cuts cr lf (buffer ++ chunk) (next :: chunks).flatten ↔ Cuts cr lf chunk next := by
  rw [Cuts, Cuts, List.flatten_cons, List.getLast?_append_of_ne_nil _ some_,
    List.head?_append_of_ne_nil _ also]

/-- Chunks that are not cut in a CR LF give the lines of the whole text. -/
theorem drain_lines (different : cr ≠ lf) (some_ : ∀ chunk ∈ chunks, chunk ≠ [])
    (whole : chunks.IsChain fun front back => ¬ Cuts cr lf front back) (plain : Plain cr lf buffer) :
    (drain (lines cr lf) buffer chunks).1 = (lines cr lf (buffer ++ chunks.flatten)).1 := by
  induction chunks generalizing buffer with
  | nil =>
      rw [List.flatten_nil, List.append_nil, lines_plain plain]
      rfl
  | cons chunk chunks ih =>
      obtain ⟨nonempty, others⟩ := List.forall_mem_cons.mp some_
      have later := ih others whole.tail (@plain_left _ _ cr lf (buffer ++ chunk))
      have uncut : ¬ Cuts cr lf (buffer ++ chunk) chunks.flatten := by
        cases chunks with
        | nil => simp [Cuts]
        | cons next chunks =>
            rw [cuts_flatten nonempty (others next List.mem_cons_self)]
            exact (List.isChain_cons_cons.mp whole).1
      rw [drain, List.flatten_cons, ← List.append_assoc, lines_append different uncut]
      exact congrArg (_ ++ ·) later

/-- Each CR LF that is cut makes one line more. -/
theorem drain_length (different : cr ≠ lf) (some_ : ∀ chunk ∈ chunks, chunk ≠ [])
    (plain : Plain cr lf buffer) :
    (drain (lines cr lf) buffer chunks).1.length =
      (lines cr lf (buffer ++ chunks.flatten)).1.length + cuts cr lf chunks := by
  induction chunks generalizing buffer with
  | nil =>
      rw [List.flatten_nil, List.append_nil, lines_plain plain]
      rfl
  | cons chunk chunks ih =>
      obtain ⟨nonempty, others⟩ := List.forall_mem_cons.mp some_
      have later := ih others (@plain_left _ _ cr lf (buffer ++ chunk))
      have total : (drain (lines cr lf) buffer (chunk :: chunks)).1.length =
          (lines cr lf (buffer ++ chunk)).1.length +
            ((lines cr lf ((lines cr lf (buffer ++ chunk)).2 ++ chunks.flatten)).1.length +
              cuts cr lf chunks) := by
        rw [← later, ← List.length_append]
        rfl
      rw [total, List.flatten_cons, ← List.append_assoc]
      by_cases cut : Cuts cr lf (buffer ++ chunk) chunks.flatten
      · have longer := lines_cut different cut
        cases chunks with
        | nil => simp [Cuts] at cut
        | cons next chunks =>
            rw [cuts_flatten nonempty (others next List.mem_cons_self)] at cut
            rw [cuts, if_pos cut]
            omega
      · rw [lines_append different cut, List.length_append]
        have same : cuts cr lf (chunk :: chunks) = cuts cr lf chunks := by
          cases chunks with
          | nil => rfl
          | cons next chunks =>
              rw [cuts_flatten nonempty (others next List.mem_cons_self)] at cut
              rw [cuts, if_neg cut, Nat.zero_add]
        rw [same, Nat.add_assoc]

theorem drain_filter (plain : Plain cr lf buffer) :
    (drain (lines cr lf) buffer (chunks.filter (· ≠ []))).1 =
      (drain (lines cr lf) buffer chunks).1 := by
  induction chunks generalizing buffer with
  | nil => rfl
  | cons chunk chunks ih =>
      by_cases nothing : chunk = []
      · have whole : lines cr lf (buffer ++ chunk) = ([], buffer) := by
          rw [nothing, List.append_nil, lines_plain plain]
        rw [List.filter_cons_of_neg (by simpa using nothing), ih plain, drain, whole]
        rfl
      · rw [List.filter_cons_of_pos (by simpa using nothing), drain, drain]
        exact congrArg (_ ++ ·) (ih (plain_left _))

end Chunks

end PyBulletin.Foundation.LineEnds
