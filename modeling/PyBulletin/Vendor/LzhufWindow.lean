import PyBulletin.Vendor.LzhufTree

set_option autoImplicit false

namespace PyBulletin.Vendor.Lzhuf

open PyBulletin.Foundation

/-! # The search trees of the window

There is one search tree for each byte value, with its root at `N + 1` plus the
byte.  The tree of a byte that no inserted string starts with stays empty, so the
first string with that byte is written as a literal.
-/

namespace TextBuffer

/-- A root is one of a byte in `seen`. -/
def Rooted (seen : Nat → Prop) (i : Nat) : Prop := ∀ c, i = N + 1 + c → seen c

/-- Only the trees of the bytes in `seen` may have nodes. -/
structure Trees (seen : Nat → Prop) (lson : Table (N + 1)) (rson : Table (N + 257))
    (dad : Table (N + 1)) : Prop where
  left : ∀ i, lson.cell i ≤ N
  right : ∀ i, rson.cell i ≤ N
  parent : ∀ i, Rooted seen (dad.cell i)
  root : ∀ c, ¬ seen c → rson.cell (N + 1 + c) = NIL

abbrev Fresh (seen : Nat → Prop) (tb : TextBuffer) : Prop := Trees seen tb.lson tb.rson tb.dad

variable {seen : Nat → Prop} {tb : TextBuffer} {lson dad : Table (N + 1)} {rson : Table (N + 257)}

theorem rooted_of_le {i : Nat} (le : i ≤ N) : Rooted seen i := by
  intro c root
  omega

theorem rooted_root {c : Nat} (listed : seen c) : Rooted seen (N + 1 + c) := by
  intro other root
  have same : other = c := by omega
  exact same ▸ listed

theorem Rooted.mono {more : Nat → Prop} {i : Nat} (rooted : Rooted seen i)
    (wider : ∀ c, seen c → more c) : Rooted more i :=
  fun c root => wider c (rooted c root)

theorem Trees.mono (more : Nat → Prop) (trees : Trees seen lson rson dad)
    (wider : ∀ c, seen c → more c) : Trees more lson rson dad where
  left := trees.left
  right := trees.right
  parent i := (trees.parent i).mono wider
  root c unseen := trees.root c fun listed => unseen (wider c listed)

theorem fresh_init : Fresh seen init where
  left _ := le_rfl
  right _ := le_rfl
  parent _ := rooted_of_le le_rfl
  root _ _ := rfl

theorem Trees.setLson (trees : Trees seen lson rson dad) (i : Nat) {v : Nat} (node : v ≤ N) :
    Trees seen (lson.put i v) rson dad where
  left j := by
    have old := trees.left j
    rw [Table.put_cell]
    split <;> assumption
  right := trees.right
  parent := trees.parent
  root := trees.root

theorem Trees.setRson (trees : Trees seen lson rson dad) {i v : Nat} (place : Rooted seen i)
    (node : v ≤ N) : Trees seen lson (rson.put i v) dad where
  left := trees.left
  right j := by
    have old := trees.right j
    rw [Table.put_cell]
    split <;> assumption
  parent := trees.parent
  root c unseen := by
    have elsewhere : N + 1 + c ≠ i := fun same => unseen (place c same.symm)
    rw [Table.put_cell, if_neg elsewhere]
    exact trees.root c unseen

theorem Trees.setDad (trees : Trees seen lson rson dad) (i : Nat) {v : Nat}
    (parent : Rooted seen v) : Trees seen lson rson (dad.put i v) where
  left := trees.left
  right := trees.right
  parent j := by
    have old := trees.parent j
    rw [Table.put_cell]
    split <;> assumption
  root := trees.root

/-- What every operation on the trees keeps. -/
structure Kept (seen : Nat → Prop) (before after : TextBuffer) : Prop where
  fresh : Fresh seen after
  buf : after.buf = before.buf

theorem relink_kept (fresh : Fresh seen tb) {p q : Nat} (node : q ≤ N) :
    (tb.relink p q).Ensures (Kept seen tb) := by
  simp only [relink, Fueled.ensures_bind, Table.ensures_get]
  intro _ _
  split
  · simp only [Fueled.ensures_bind, Table.ensures_set, Fueled.ensures_pure]
    intro _ _
    exact ⟨(fresh.setRson (fresh.parent p) node).setDad p (rooted_of_le le_rfl), rfl⟩
  · simp only [Fueled.ensures_bind, Table.ensures_set, Fueled.ensures_pure]
    intro _ _
    exact ⟨(fresh.setLson _ node).setDad p (rooted_of_le le_rfl), rfl⟩

theorem replace_kept (fresh : Fresh seen tb) {r p : Nat} (within : r ≤ N) :
    (tb.replace r p).Ensures (Kept seen tb) := by
  simp only [replace, Fueled.ensures_bind, Table.ensures_get, Table.ensures_set]
  intro _ _ _ _ _ _ _ _ _ _
  have hung := fresh.setDad r (fresh.parent p)
  have left := hung.setLson r (fresh.left p)
  have right := left.setRson (rooted_of_le within) (fresh.right p)
  refine (relink_kept ?_ within).mono fun after kept => ⟨kept.fresh, kept.buf⟩
  exact (right.setDad _ (rooted_of_le within)).setDad _ (rooted_of_le within)

theorem side_node (fresh : Fresh seen tb) (p : Nat) (cmp : Int) :
    (tb.side p cmp).Ensures (· ≤ N) := by
  rw [side]
  split
  · exact Table.ensures_get.mpr fun _ => fresh.right p
  · exact Table.ensures_get.mpr fun _ => fresh.left p

theorem search_kept {r : Nat} (within : r ≤ N) {p : Nat} {cmp : Int} (fresh : Fresh seen tb)
    (rooted : Rooted seen p) :
    (search r (tb, p, cmp)).Ensures fun found => Kept seen tb found.1 := by
  refine Fueled.ensures_loop (fun now : TextBuffer × Nat × Int =>
    Kept seen tb now.1 ∧ Rooted seen now.2.1) ?_ ⟨⟨fresh, rfl⟩, rooted⟩
  rintro ⟨now, p, cmp⟩ ⟨kept, rooted⟩
  rw [Fueled.ensures_bind]
  refine (side_node kept.fresh p cmp).mono fun below node => ?_
  split
  · split
    · simp only [hang, Fueled.ensures_bind, Table.ensures_set, Fueled.ensures_pure]
      intro _ _
      exact ⟨(kept.fresh.setRson rooted within).setDad r rooted, kept.buf⟩
    · simp only [hang, Fueled.ensures_bind, Table.ensures_set, Fueled.ensures_pure]
      intro _ _
      exact ⟨(kept.fresh.setLson p within).setDad r rooted, kept.buf⟩
  · simp only [Fueled.ensures_bind]
    intro length _ order _
    split
    · split
      · exact Fueled.ensures_pure.mpr ⟨kept.fresh, kept.buf⟩
      · exact Fueled.ensures_pure.mpr ⟨⟨kept.fresh, kept.buf⟩, rooted_of_le node⟩
    · exact Fueled.ensures_pure.mpr ⟨kept, rooted_of_le node⟩

theorem insertNode_kept (fresh : Fresh seen tb) {r : Nat} (within : r ≤ N)
    (listed : seen (tb.buf.cell r)) : (tb.insertNode r).Ensures (Kept seen tb) := by
  simp only [insertNode, Fueled.ensures_bind, Table.ensures_get, Table.ensures_set]
  intro _ _ _
  have cleared := (fresh.setLson r le_rfl).setRson (rooted_of_le within) le_rfl
  refine (search_kept within cleared (rooted_root listed)).mono fun found kept => ?_
  cases place : found.2 with
  | hung => exact Fueled.ensures_pure.mpr ⟨kept.fresh, kept.buf⟩
  | same p =>
      exact (replace_kept kept.fresh within).mono fun after again =>
        ⟨again.fresh, again.buf.trans kept.buf⟩

theorem rightmost_node (fresh : Fresh seen tb) {q : Nat} (node : q ≤ N) :
    (rightmost tb.rson q).Ensures (· ≤ N) := by
  refine Fueled.ensures_loop (· ≤ N) ?_ node
  intro q node
  simp only [Fueled.ensures_bind, Table.ensures_get]
  intro _
  split
  · exact Fueled.ensures_pure.mpr node
  · exact Fueled.ensures_pure.mpr (fresh.right q)

theorem liftRightmost_kept (fresh : Fresh seen tb) {p q : Nat} (node : q ≤ N) :
    (tb.liftRightmost p q).Ensures fun lifted => Kept seen tb lifted.1 ∧ lifted.2 ≤ N := by
  simp only [liftRightmost, Fueled.ensures_bind, Table.ensures_get]
  intro _
  split
  · exact Fueled.ensures_pure.mpr ⟨⟨fresh, rfl⟩, node⟩
  · rw [Fueled.ensures_bind]
    refine (rightmost_node fresh node).mono fun q node => ?_
    simp only [Fueled.ensures_bind, Table.ensures_get, Table.ensures_set, Fueled.ensures_pure]
    intro _ _ _ _ _ _ _ _
    have taken := fresh.setRson (fresh.parent q) (fresh.left q)
    have hung := taken.setDad (tb.lson.cell q) (fresh.parent q)
    have left := hung.setLson q (fresh.left p)
    exact ⟨⟨left.setDad _ (rooted_of_le node), rfl⟩, node⟩

theorem heir_kept (fresh : Fresh seen tb) (p : Nat) :
    (tb.heir p).Ensures fun found => Kept seen tb found.1 ∧ found.2 ≤ N := by
  simp only [heir, Fueled.ensures_bind, Table.ensures_get]
  intro _ _
  split
  · exact Fueled.ensures_pure.mpr ⟨⟨fresh, rfl⟩, fresh.left p⟩
  · split
    · exact Fueled.ensures_pure.mpr ⟨⟨fresh, rfl⟩, fresh.right p⟩
    · rw [Fueled.ensures_bind]
      refine (liftRightmost_kept fresh (fresh.left p)).mono fun lifted kept => ?_
      obtain ⟨kept, node⟩ := kept
      simp only [Fueled.ensures_bind, Table.ensures_get, Table.ensures_set, Fueled.ensures_pure]
      intro _ _ _
      have right := kept.fresh.setRson (rooted_of_le node) (kept.fresh.right p)
      exact ⟨⟨right.setDad _ (rooted_of_le node), kept.buf⟩, node⟩

theorem deleteNode_kept (fresh : Fresh seen tb) (p : Nat) :
    (tb.deleteNode p).Ensures (Kept seen tb) := by
  simp only [deleteNode, Fueled.ensures_bind, Table.ensures_get]
  intro _
  split
  · exact Fueled.ensures_pure.mpr ⟨fresh, rfl⟩
  · rw [Fueled.ensures_bind]
    refine (heir_kept fresh p).mono fun found kept => ?_
    obtain ⟨kept, node⟩ := kept
    simp only [Fueled.ensures_bind, Table.ensures_get, Table.ensures_set]
    intro _ _
    have hung := kept.fresh.setDad found.2 (kept.fresh.parent p)
    exact (relink_kept hung node).mono fun last again => ⟨again.fresh, again.buf.trans kept.buf⟩

theorem search_empty {r p : Nat} (empty : tb.rson.cell p = NIL) :
    (search r (tb, p, 1)).Ensures fun found =>
      found.1.matchLen = tb.matchLen ∧ found.2 = .hung := by
  refine Fueled.ensures_loop (fun now => now = (tb, p, 1)) ?_ rfl
  rintro now rfl
  have below : (tb.side p 1).Ensures (· = NIL) := by
    rw [side, if_pos (by omega), Table.ensures_get]
    exact fun _ => empty
  rw [Fueled.ensures_bind]
  refine below.mono fun next nil => ?_
  rw [if_pos nil, if_pos (by omega)]
  simp only [hang, Fueled.ensures_bind, Table.ensures_set, Fueled.ensures_pure]
  intro _ _
  exact ⟨trivial, trivial⟩

/-- The first string with a byte finds no match. -/
theorem insertNode_literal (fresh : Fresh seen tb) {r : Nat}
    (unseen : ¬ seen (tb.buf.cell r)) :
    (tb.insertNode r).Ensures fun after => after.matchLen = 0 := by
  simp only [insertNode, Fueled.ensures_bind, Table.ensures_get, Table.ensures_set]
  intro _ _ _
  have empty : (tb.rson.put r NIL).cell (N + 1 + tb.buf.cell r) = NIL := by
    rw [Table.put_cell]
    split
    · rfl
    · exact fresh.root _ unseen
  refine (search_empty empty).mono fun found hung => ?_
  simp only [hung.2, Fueled.ensures_pure]
  exact hung.1

/-- Both facts about an insertion, whatever byte the string starts with. -/
theorem insertNode_spec (fresh : Fresh seen tb) {r : Nat} (within : r ≤ N) :
    (tb.insertNode r).Ensures fun after =>
      Kept (fun c => seen c ∨ c = tb.buf.cell r) tb after ∧
        (¬ seen (tb.buf.cell r) → after.matchLen = 0) := by
  intro after returned
  have wider := Trees.mono (fun c => seen c ∨ c = tb.buf.cell r) fresh fun c listed => .inl listed
  exact ⟨insertNode_kept wider within (.inr rfl) after returned,
    fun unseen => insertNode_literal fresh unseen after returned⟩

end TextBuffer

end PyBulletin.Vendor.Lzhuf
