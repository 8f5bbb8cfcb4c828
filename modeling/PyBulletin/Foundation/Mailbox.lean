import Mathlib.Data.List.Basic

set_option autoImplicit false

universe u v

namespace PyBulletin.Foundation

/-! # Bounded mailboxes on one log

What is said goes to the mailboxes of all who are there, unless theirs is full.
-/

variable {α : Type u} {Key : Type v}

structure Mailbox (α : Type u) where
  heard : List α := []
  waiting : List α := []
  missed : Nat := 0

namespace Mailbox

variable {box : Mailbox α} {said : List α} {depth : Nat}

def put (depth : Nat) (box : Mailbox α) (text : α) : Mailbox α :=
  if box.waiting.length < depth then { box with waiting := box.waiting ++ [text] }
  else { box with missed := box.missed + 1 }

def take (box : Mailbox α) : Mailbox α :=
  { box with heard := box.heard ++ box.waiting.head?.toList, waiting := box.waiting.tail }

/-- What was heard and what waits are parts of what was said, in order; the rest is counted. -/
structure Follows (depth : Nat) (box : Mailbox α) (said : List α) : Prop where
  order : (box.heard ++ box.waiting).Sublist said
  counted : box.heard.length + box.waiting.length + box.missed = said.length
  bounded : box.waiting.length ≤ depth

theorem Follows.empty : Follows depth ({} : Mailbox α) [] :=
  ⟨List.Sublist.refl _, rfl, Nat.zero_le _⟩

theorem Follows.put (follows : Follows depth box said) (text : α) :
    Follows depth (box.put depth text) (said ++ [text]) := by
  have order := follows.order
  have counted := follows.counted
  have bounded := follows.bounded
  unfold Mailbox.put
  split
  · refine ⟨?_, ?_, ?_⟩
    · dsimp only
      rw [← List.append_assoc]
      exact order.append_right [text]
    · simp only [List.length_append, List.length_singleton]
      omega
    · simp only [List.length_append, List.length_singleton]
      omega
  · refine ⟨?_, ?_, bounded⟩
    · exact order.trans (List.sublist_append_left said [text])
    · simp only [List.length_append, List.length_singleton]
      omega

theorem Follows.take (follows : Follows depth box said) : Follows depth box.take said := by
  obtain ⟨heard, waiting, missed⟩ := box
  cases waiting with
  | nil => simpa [Mailbox.take] using follows
  | cons text waiting =>
      have order := follows.order
      have counted := follows.counted
      have bounded := follows.bounded
      refine ⟨?_, ?_, ?_⟩
      · simpa [Mailbox.take] using order
      · simp only [Mailbox.take, List.head?_cons, Option.toList_some, List.length_append,
          List.length_nil, List.tail_cons, List.length_cons] at counted ⊢
        omega
      · simp only [List.length_cons] at bounded
        simp only [Mailbox.take, List.tail_cons]
        omega

/-- Who has missed nothing has heard, or is going to hear, exactly what was said. -/
theorem Follows.whole (follows : Follows depth box said) (missed : box.missed = 0) :
    box.heard ++ box.waiting = said := by
  have counted := follows.counted
  refine follows.order.eq_of_length ?_
  rw [List.length_append]
  omega

end Mailbox

/-- What one hears of a log, whose entries may leave somebody out. -/
def audible [DecidableEq Key] (key : Key) (log : List (α × Option Key)) : List α :=
  (log.filter fun entry => entry.2 ≠ some key).map Prod.fst

section Audible

variable [DecidableEq Key] {key : Key}

theorem audible_append (log : List (α × Option Key)) (text : α) (except_ : Option Key) :
    audible key (log ++ [(text, except_)]) =
      audible key log ++ if except_ = some key then [] else [text] := by
  by_cases out : except_ = some key <;> simp [audible, out]

theorem audible_drop_append {start : Nat} {log : List (α × Option Key)} (within : start ≤ log.length)
    (text : α) (except_ : Option Key) :
    audible key ((log ++ [(text, except_)]).drop start) =
      audible key (log.drop start) ++ if except_ = some key then [] else [text] := by
  rw [List.drop_append_of_le_length within, audible_append]

end Audible

end PyBulletin.Foundation
