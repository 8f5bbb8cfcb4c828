import Mathlib.Data.List.Basic

set_option autoImplicit false

namespace PyBulletin.Foundation

/-! # Decoders that are called again and again

A decoder takes a buffer and gives what it has decoded and what it leaves in the
buffer.  Each call gets what the call before has left and the next chunk.
-/

variable {α β : Type} {decode : List α → List β × List α} {P : List α → Prop}

/-- What all calls decode, and what the last one leaves. -/
def drain (decode : List α → List β × List α) : List α → List (List α) → List β × List α
  | buffer, [] => ([], buffer)
  | buffer, chunk :: chunks =>
      let (decoded, left) := decode (buffer ++ chunk)
      let (later, rest) := drain decode left chunks
      (decoded ++ later, rest)

/-- On the streams with `P`, what a call leaves is all that later calls need of the
bytes it has seen. -/
def Resumes (decode : List α → List β × List α) (P : List α → Prop) : Prop :=
  ∀ front back, P (front ++ back) →
    (decode (front ++ back)).1 = (decode front).1 ++ (decode ((decode front).2 ++ back)).1 ∧
      P ((decode front).2 ++ back)

theorem Resumes.drain_decoded (resumes : Resumes decode P) {chunks : List (List α)}
    (some : chunks ≠ []) {buffer : List α} (holds : P (buffer ++ chunks.flatten)) :
    (drain decode buffer chunks).1 = (decode (buffer ++ chunks.flatten)).1 := by
  induction chunks generalizing buffer with
  | nil => exact absurd rfl some
  | cons chunk chunks ih =>
      rw [List.flatten_cons, ← List.append_assoc] at holds ⊢
      cases chunks with
      | nil => simp only [drain, List.flatten_nil, List.append_nil]
      | cons next chunks =>
          obtain ⟨whole, later⟩ := resumes _ _ holds
          rw [drain, whole]
          dsimp only
          rw [ih (List.cons_ne_nil _ _) later]

/-- From an empty buffer, the calls decode what one call on the whole stream decodes. -/
theorem Resumes.drain_eq (resumes : Resumes decode P) (empty : (decode []).1 = [])
    {chunks : List (List α)} (holds : P chunks.flatten) :
    (drain decode [] chunks).1 = (decode chunks.flatten).1 := by
  cases chunks with
  | nil => exact empty.symm
  | cons chunk chunks => exact resumes.drain_decoded (List.cons_ne_nil _ _) holds

/-- What is left in the end depends on the whole stream only, too. -/
theorem drain_left (kept : ∀ front back, (decode (front ++ back)).2 =
      (decode ((decode front).2 ++ back)).2) {chunks : List (List α)} (some : chunks ≠ [])
    (buffer : List α) :
    (drain decode buffer chunks).2 = (decode (buffer ++ chunks.flatten)).2 := by
  induction chunks generalizing buffer with
  | nil => exact absurd rfl some
  | cons chunk chunks ih =>
      rw [List.flatten_cons, ← List.append_assoc]
      cases chunks with
      | nil => simp only [drain, List.flatten_nil, List.append_nil]
      | cons next chunks =>
          rw [drain, kept]
          dsimp only
          rw [ih (List.cons_ne_nil _ _)]

end PyBulletin.Foundation
