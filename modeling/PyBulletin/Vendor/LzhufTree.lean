import PyBulletin.Vendor.LzhufBits

set_option autoImplicit false

namespace PyBulletin.Vendor.Lzhuf

open PyBulletin.Foundation

namespace Table

variable {size : Nat}

theorem returns_get {table : Table size} {i value : Nat} :
    (table.get i).Returns value ↔ i < size ∧ table.cell i = value := by
  rw [get]
  split <;> simp [*]

@[simp] theorem ensures_get {table : Table size} {i : Nat} {Post : Nat → Prop} :
    (table.get i).Ensures Post ↔ (i < size → Post (table.cell i)) := by
  rw [get]
  split <;> simp [*]

@[simp] theorem ensures_set {table : Table size} {i value : Nat} {Post : Table size → Prop} :
    (table.set i value).Ensures Post ↔ (i < size → Post (table.put i value)) := by
  rw [set]
  split <;> simp [*]

theorem put_cell (table : Table size) (i value j : Nat) :
    (table.put i value).cell j = if j = i then value else table.cell j := rfl

end Table

/-! # The Huffman tree

`__init__` fills the tables in two loops.  The leaves are the positions below 272,
and each further position is the parent of the next two, so every table has a
closed form.
-/

namespace HuffmanTree

/-- The frequencies of the first tree, as sums of blocks of leaves. -/
def firstFreq (x : Nat) : Nat :=
  if x < 272 then 1 else if x < 408 then 2 else if x < 476 then 4 else if x < 510 then 8
  else if x < 527 then 16 else if x < 535 then 32 else if x = 535 then 48
  else if x < 539 then 64 else if x = 539 then 80 else if x = 540 then 128
  else if x = 541 then 144 else 272

def first : HuffmanTree where
  freq := ⟨fun x => if x = 543 then 65535 else if x < 543 then firstFreq x else 0⟩
  prnt := ⟨fun x =>
    if x < 542 then 272 + x / 2 else if x = 542 then 0 else if x < 815 then x - 543 else 0⟩
  son := ⟨fun x => if x < 272 then x + 543 else if x < 543 then 2 * (x - 272) else 0⟩

/-- The tables after `n` leaves and `m` inner nodes. -/
def partly (n m : Nat) : HuffmanTree where
  freq := ⟨fun x => if x < n + m then firstFreq x else 0⟩
  prnt := ⟨fun x =>
    if x < 2 * m then 272 + x / 2 else if 543 ≤ x ∧ x < 543 + n then x - 543 else 0⟩
  son := ⟨fun x => if x < n then x + 543 else if x < n + m then 2 * (x - 272) else 0⟩

theorem ext_cells {one two : HuffmanTree}
    (freq : ∀ x, one.freq.cell x = two.freq.cell x)
    (prnt : ∀ x, one.prnt.cell x = two.prnt.cell x)
    (son : ∀ x, one.son.cell x = two.son.cell x) : one = two := by
  obtain ⟨⟨_⟩, ⟨_⟩, ⟨_⟩⟩ := one
  obtain ⟨⟨_⟩, ⟨_⟩, ⟨_⟩⟩ := two
  simp only at freq prnt son
  simp only [HuffmanTree.mk.injEq, Table.mk.injEq]
  exact ⟨funext freq, funext prnt, funext son⟩

theorem leaf_partly {n : Nat} (within : n < 272) : (partly n 0).leaf n = partly (n + 1) 0 := by
  apply ext_cells
  · intro x
    simp only [leaf, partly, Table.put_cell, firstFreq]
    grind
  · intro x
    simp only [leaf, partly, Table.put_cell, T, nChar, F, threshold]
    grind
  · intro x
    simp only [leaf, partly, Table.put_cell, T, nChar, F, threshold]
    grind

theorem firstFreq_node {m : Nat} (within : m < 271) :
    firstFreq (2 * m) + firstFreq (2 * m + 1) = firstFreq (272 + m) := by
  have all : ∀ m : Fin 271,
      firstFreq (2 * m) + firstFreq (2 * m + 1) = firstFreq (272 + m) := by decide +kernel
  exact all ⟨m, within⟩

theorem node_partly {m : Nat} (within : m < 271) :
    (partly 272 m).node (2 * m) (nChar + m) = partly 272 (m + 1) := by
  have index : nChar + m = 272 + m := rfl
  apply ext_cells
  · intro x
    have sum := firstFreq_node within
    simp only [node, partly, Table.put_cell, index]
    grind
  · intro x
    simp only [node, partly, Table.put_cell, index]
    grind
  · intro x
    simp only [node, partly, Table.put_cell, index]
    grind

theorem leaves_partly {n : Nat} (within : n ≤ 272) :
    (List.range n).foldl leaf ⟨.fill 0, .fill 0, .fill 0⟩ = partly n 0 := by
  induction n with
  | zero =>
      apply ext_cells
      · intro x
        simp [partly, Table.fill]
      · intro x
        have above : ¬ (543 ≤ x ∧ x < 543) := by omega
        simp only [partly, Table.fill, List.range_zero, List.foldl_nil, Nat.mul_zero, Nat.not_lt_zero,
          Nat.add_zero, if_false, if_neg above]
      · intro x
        simp [partly, Table.fill]
  | succ n ih =>
      rw [List.range_succ, List.foldl_append, ih (by omega)]
      exact leaf_partly (by omega)

theorem nodes_partly {m : Nat} (within : m ≤ 271) :
    (List.range m).foldl (fun tree m => tree.node (2 * m) (nChar + m)) (partly 272 0) =
      partly 272 m := by
  induction m with
  | zero => rfl
  | succ m ih =>
      rw [List.range_succ, List.foldl_append, ih (by omega)]
      exact node_partly (by omega)

/-- What the loops of `__init__` build. -/
theorem init_eq_first : init = first := by
  have leaves := leaves_partly (n := 272) (by omega)
  have nodes := nodes_partly (m := 271) (by omega)
  have range : R + 1 - nChar = 271 := rfl
  have count : List.range nChar = List.range 272 := rfl
  simp only [init, range, count, leaves, nodes]
  apply ext_cells
  · intro x
    simp only [partly, first, Table.put_cell, T, nChar, F, threshold]
  · intro x
    simp only [partly, first, Table.put_cell, R, T, nChar, F, threshold]
    grind
  · intro x
    simp only [partly, first]

/-! `decode_char` walks from `son[R]` down, one bit a turn, and stops at a leaf.
-/

variable {tree : HuffmanTree}

/-- The leaf that the bits of `code` lead to, all of them and no more. -/
def leafOf (tree : HuffmanTree) : Nat → List Bool → Option Nat
  | node, [] => if node < T then none else some node
  | node, bit :: code =>
      if node < T then tree.leafOf (tree.son.cell (node + bit.toNat)) code else none

theorem walk_leafOf {code : List Bool} {node leaf : Nat} {reader : BitReader}
    (valid : reader.Valid) {rest : Stream' Bool} (ahead : reader.stream = code ++ₛ rest)
    (leads : tree.leafOf node code = some leaf) :
    (tree.walk (node, reader)).Ensures fun (stop, reader') =>
      stop = leaf ∧ reader'.stream = rest ∧ reader'.Valid := by
  induction code generalizing node reader with
  | nil =>
      intro result returned
      rw [walk, Fueled.returns_loop] at returned
      rw [leafOf] at leads
      split at leads
      · cases leads
      · rename_i stopped
        cases leads
        simp only [stopped, if_false, Fueled.returns_pure] at returned
        obtain ⟨_, impossible, _⟩ | ended := returned
        · cases impossible
        · cases ended
          exact ⟨rfl, ahead, valid⟩
  | cons bit code ih =>
      have first : reader.readBit.1 = bit := by rw [BitReader.readBit_fst valid, ahead]; rfl
      have others : reader.readBit.2.stream = code ++ₛ rest := by
        rw [BitReader.readBit_stream valid, ahead]; rfl
      intro result returned
      rw [walk, Fueled.returns_loop] at returned
      rw [leafOf] at leads
      split at leads
      · rename_i inside
        simp only [inside, if_true, Fueled.returns_bind, Table.returns_get,
          Fueled.returns_pure] at returned
        obtain ⟨next, ⟨child, ⟨_, rfl⟩, turn⟩, onward⟩ | ⟨child, _, impossible⟩ := returned
        · cases turn
          rw [first] at onward
          exact ih (BitReader.readBit_valid valid) others leads result onward
        · cases impossible
      · cases leads

/-- `code` is the only way from `node` down to `leaf`: `none` is a way that has left
`code` already.  At most `depth` turns are looked at. -/
def onlyCode (tree : HuffmanTree) (leaf : Nat) : (depth node : Nat) → Option (List Bool) → Bool
  | 0, _, _ => false
  | depth + 1, node, code =>
      if node < T then
        [false, true].all fun bit =>
          tree.onlyCode leaf depth (tree.son.cell (node + bit.toNat)) <|
            match code with
            | some (first :: code) => if bit = first then some code else none
            | _ => none
      else node ≠ leaf || code = some []

theorem walk_onlyCode {depth node leaf : Nat} {code : Option (List Bool)} {reader : BitReader}
    (valid : reader.Valid) (only : tree.onlyCode leaf depth node code = true) :
    (tree.walk (node, reader)).Ensures fun (stop, _) =>
      stop = leaf → ∃ bits rest, code = some bits ∧ reader.stream = bits ++ₛ rest := by
  induction depth generalizing node code reader with
  | zero => cases only
  | succ depth ih =>
      intro result returned
      rw [walk, Fueled.returns_loop] at returned
      rw [onlyCode] at only
      by_cases inside : node < T
      · simp only [inside, if_true, Fueled.returns_bind, Table.returns_get,
          Fueled.returns_pure] at returned
        obtain ⟨next, ⟨child, ⟨_, rfl⟩, turn⟩, onward⟩ | ⟨child, _, impossible⟩ := returned
        · cases turn
          rw [if_pos inside, List.all_eq_true] at only
          have below := only reader.readBit.1 (by cases reader.readBit.1 <;> simp)
          have found := ih (BitReader.readBit_valid valid) below result onward
          intro isLeaf
          obtain ⟨bits, rest, continues, ahead⟩ := found isLeaf
          rw [BitReader.readBit_stream valid] at ahead
          rw [BitReader.readBit_fst valid] at continues
          rcases code with _ | _ | ⟨first, code⟩
          · cases continues
          · cases continues
          · simp only at continues
            split at continues
            · rename_i same
              cases continues
              refine ⟨_, rest, rfl, ?_⟩
              rw [Stream'.cons_append_stream, ← ahead, ← same, Stream'.eta]
            · cases continues
        · cases impossible
      · simp only [inside, if_false, Fueled.returns_pure] at returned
        obtain ⟨_, impossible, _⟩ | ended := returned
        · cases impossible
        · cases ended
          rw [if_neg inside] at only
          rintro rfl
          have here : code = some [] := by simpa using only
          exact ⟨[], reader.stream, here, rfl⟩

/-- `encode_char` only adds bits. -/
theorem encodeChar_writer {c : Nat} {writer : BitWriter} (valid : writer.Valid) :
    (tree.encodeChar c writer).Ensures fun (_, writer') =>
      writer.bits <+: writer'.bits ∧ writer'.Valid := by
  simp only [encodeChar, Fueled.ensures_bind, Table.ensures_get, Fueled.ensures_pure]
  intro _ bits _ tree' _
  obtain ⟨written, kept⟩ := BitWriter.bits_writeAll valid bits
  exact ⟨written ▸ List.prefix_append _ _, kept⟩

end HuffmanTree

end PyBulletin.Vendor.Lzhuf
