import PyBulletin.Vendor.LzhufTree

set_option autoImplicit false

namespace PyBulletin.Vendor.Lzhuf

open PyBulletin.Foundation

namespace HuffmanTree

variable {tree : HuffmanTree} {reader : BitReader}

theorem walk_stops (start : Nat × BitReader) :
    (tree.walk start).Ensures fun stop => T ≤ stop.1 := by
  refine Fueled.ensures_loop (fun _ => True) ?_ trivial
  rintro ⟨node, reader⟩ _
  dsimp only
  split
  · simp only [Fueled.ensures_bind, Fueled.ensures_pure, Table.ensures_get, implies_true]
  · rename_i stopped
    exact Fueled.ensures_pure.mpr (Nat.le_of_not_lt stopped)

theorem decodeChar_leafOf (valid : reader.Valid) {code : List Bool} {rest : Stream' Bool}
    {leaf : Nat} (ahead : reader.stream = code ++ₛ rest)
    (leads : tree.leafOf (tree.son.cell R) code = some leaf) :
    (tree.decodeChar reader).Ensures fun decoded =>
      decoded.1 = leaf - T ∧ (tree.update (leaf - T)).Returns decoded.2.1 ∧
        decoded.2.2.stream = rest ∧ decoded.2.2.Valid := by
  rw [decodeChar, Fueled.ensures_bind, Table.ensures_get]
  intro _
  rw [Fueled.ensures_bind]
  refine (walk_leafOf valid ahead leads).mono fun stop walked => ?_
  obtain ⟨rfl, stream, kept⟩ := walked
  simp only [Fueled.ensures_bind, Fueled.ensures_pure]
  exact fun updated returned => ⟨trivial, returned, stream, kept⟩

/-- A symbol with only one code is decoded from that code. -/
theorem decodeChar_onlyCode (valid : reader.Valid) {depth c : Nat} {code : List Bool}
    (only : tree.onlyCode (c + T) depth (tree.son.cell R) (some code) = true) :
    (tree.decodeChar reader).Ensures fun decoded =>
      decoded.1 = c → ∃ rest, reader.stream = code ++ₛ rest := by
  rw [decodeChar, Fueled.ensures_bind, Table.ensures_get]
  intro _
  rw [Fueled.ensures_bind]
  refine ((walk_onlyCode valid only).and (walk_stops _)).mono fun stop walked => ?_
  obtain ⟨found, stops⟩ := walked
  simp only [Fueled.ensures_bind, Fueled.ensures_pure]
  intro _ _ same
  obtain ⟨bits, rest, listed, ahead⟩ := found (by omega)
  cases listed
  exact ⟨rest, ahead⟩

end HuffmanTree

namespace Decompressor

open HuffmanTree BitReader

variable {originalSize : Nat} {state : Decompressor}

@[simp] theorem returns_append {c : Nat} {next : Decompressor} :
    (state.append c).Returns next ↔ state.r < N ∧ { state with
      buf := state.buf.put state.r c, r := (state.r + 1) % N,
      out := state.out ++ [c.toUInt8] } = next := by
  simp only [append, Table.set, Fueled.returns_bind, Fueled.returns_pure]
  split <;> simp [*]

theorem append_out (c : Nat) : (state.append c).Ensures fun next =>
    next.out = state.out ++ [c.toUInt8] := by
  intro next returned
  rw [returns_append] at returned
  rw [← returned.2]

theorem copy_out (left pos : Nat) (state : Decompressor) :
    (copy originalSize left pos state).Ensures fun next => state.out <+: next.out := by
  induction left generalizing pos state with
  | zero => exact Fueled.ensures_pure.mpr List.prefix_rfl
  | succ left ih =>
      rw [copy, Fueled.ensures_bind, Table.ensures_get]
      intro _
      rw [Fueled.ensures_bind]
      refine (append_out _).mono fun next out => ?_
      have grown : state.out <+: next.out := out ▸ List.prefix_append _ _
      split
      · exact Fueled.ensures_pure.mpr grown
      · exact (ih (pos + 1) next).mono fun _ more => grown.trans more

/-- The first byte of a match comes from the buffer. -/
theorem copy_first {left pos : Nat} :
    (copy originalSize (left + 1) pos state).Ensures fun next =>
      state.out ++ [(state.buf.cell (pos % N)).toUInt8] <+: next.out := by
  rw [copy, Fueled.ensures_bind, Table.ensures_get]
  intro _
  rw [Fueled.ensures_bind]
  refine (append_out _).mono fun next out => ?_
  rw [← out]
  split
  · exact Fueled.ensures_pure.mpr List.prefix_rfl
  · exact copy_out left (pos + 1) next

theorem take_out (c : Nat) : (take originalSize c state).Ensures fun next =>
    state.out <+: next.out := by
  rw [take]
  split
  · exact (append_out c).mono fun next out => out ▸ List.prefix_append _ _
  · exact copy_out _ _ _

theorem decode_out (state : Decompressor) :
    (state.decode originalSize).Ensures fun out => state.out <+: out := by
  refine Fueled.ensures_loop (fun now : Decompressor => state.out <+: now.out) ?_ List.prefix_rfl
  intro now grown
  split
  · rw [Fueled.ensures_bind]
    rintro ⟨c, tree, reader⟩ _
    dsimp only
    split
    · exact Fueled.ensures_pure.mpr grown
    · rw [Fueled.ensures_bind]
      refine (take_out c).mono fun next more => Fueled.ensures_pure.mpr ?_
      exact grown.trans more
  · exact Fueled.ensures_pure.mpr grown

theorem copy_length (left pos : Nat) (room : state.out.length < originalSize) :
    (copy originalSize left pos state).Ensures fun next => next.out.length ≤ originalSize := by
  induction left generalizing pos state with
  | zero => exact Fueled.ensures_pure.mpr (Nat.le_of_lt room)
  | succ left ih =>
      rw [copy, Fueled.ensures_bind, Table.ensures_get]
      intro _
      rw [Fueled.ensures_bind]
      refine (append_out _).mono fun next out => ?_
      have longer : next.out.length = state.out.length + 1 := by simp [out]
      split
      · exact Fueled.ensures_pure.mpr (by omega)
      · exact ih (pos + 1) (by omega)

theorem take_length (c : Nat) (room : state.out.length < originalSize) :
    (take originalSize c state).Ensures fun next => next.out.length ≤ originalSize := by
  rw [take]
  split
  · refine (append_out c).mono fun next out => ?_
    have longer : next.out.length = state.out.length + 1 := by simp [out]
    omega
  · exact copy_length _ _ room

theorem decode_length (fits : state.out.length ≤ originalSize) :
    (state.decode originalSize).Ensures fun out => out.length ≤ originalSize := by
  refine Fueled.ensures_loop (fun now : Decompressor => now.out.length ≤ originalSize) ?_ fits
  intro now fits
  split
  · rename_i room
    rw [Fueled.ensures_bind]
    rintro ⟨c, tree, reader⟩ _
    dsimp only
    split
    · exact Fueled.ensures_pure.mpr fits
    · rw [Fueled.ensures_bind]
      have room : ({ now with tree, reader } : Decompressor).out.length < originalSize := room
      exact (take_length c room).mono fun next more => Fueled.ensures_pure.mpr more
  · exact Fueled.ensures_pure.mpr fits

theorem decode_turn {out : Bytes} (running : state.out.length < originalSize)
    (returned : (state.decode originalSize).Returns out) :
    ∃ c tree reader, (state.tree.decodeChar state.reader).Returns (c, tree, reader) ∧
      ((reader.eof = true ∧ c = 0 ∧ out = state.out) ∨
        ∃ next, (take originalSize c { state with tree, reader }).Returns next ∧
          (next.decode originalSize).Returns out) := by
  rw [decode, Fueled.returns_loop] at returned
  simp only [running, if_true, Fueled.returns_bind] at returned
  obtain ⟨next, ⟨⟨c, tree, reader⟩, decoded, turned⟩, onward⟩ |
    ⟨⟨c, tree, reader⟩, decoded, turned⟩ := returned
  · refine ⟨c, tree, reader, decoded, .inr ⟨next, ?_, onward⟩⟩
    dsimp only at turned
    split at turned
    · simp at turned
    · simp only [Fueled.returns_bind, Fueled.returns_pure, Sum.inl.injEq] at turned
      obtain ⟨other, took, rfl⟩ := turned
      exact took
  · refine ⟨c, tree, reader, decoded, .inl ?_⟩
    dsimp only at turned
    split at turned
    · rename_i ended
      simp only [Fueled.returns_pure, Sum.inr.injEq] at turned
      exact ⟨ended.1, ended.2, turned.symm⟩
    · simp only [Fueled.returns_bind, Fueled.returns_pure, reduceCtorEq, and_false,
        exists_false] at turned

/-- A byte that is not in the buffer is put out by its own symbol. -/
theorem decode_new {out rest : Bytes} {d : UInt8}
    (returned : (state.decode originalSize).Returns out)
    (running : state.out.length < originalSize) (follows : out = state.out ++ d :: rest)
    (new : ∀ i, (state.buf.cell i).toUInt8 ≠ d) :
    ∃ tree reader, (state.tree.decodeChar state.reader).Returns (d.toNat, tree, reader) := by
  obtain ⟨c, tree, reader, decoded, ended | ⟨next, done, onward⟩⟩ := decode_turn running returned
  · have lengths := congrArg List.length (ended.2.2.symm.trans follows)
    simp at lengths
  · have grown := decode_out next out onward
    rw [take] at done
    split at done
    · rename_i byte
      have out' := append_out c next done
      rw [out', follows] at grown
      have same : c.toUInt8 = d := by
        rw [List.prefix_append_right_inj, List.cons_prefix_cons] at grown
        exact grown.1
      have value : d.toNat = c := by
        rw [← same]
        exact Nat.mod_eq_of_lt byte
      exact ⟨tree, reader, value ▸ decoded⟩
    · rename_i long
      obtain ⟨left, length⟩ : ∃ left, c - 255 + threshold = left + 1 := ⟨c - 255 + 1, by simp only [threshold]⟩
      rw [length] at done
      have first := (copy_first next done).trans grown
      rw [follows] at first
      rw [List.prefix_append_right_inj, List.cons_prefix_cons] at first
      exact absurd first.1 (new _)

/-! A script is evaluated on a state without looking at its reader.  Where the reader
has the bits of the script ahead, the loop does the same.
-/

structure Token where
  code : List Bool
  distance : List Bool

def bitsOfScript (script : List Token) : List Bool :=
  script.flatMap fun token => token.code ++ token.distance

def withReader (reader : BitReader) (state : Decompressor) : Decompressor := { state with reader }

/-- The effect of one token within an output of `limit` bytes. -/
def play (limit : Nat) (token : Token) (state : Decompressor) : Fueled Decompressor :=
  match state.tree.leafOf (state.tree.son.cell R) token.code with
  | none => Fueled.raise
  | some leaf =>
      let c := leaf - T
      let length := c - 255 + threshold
      if c = 0 ∨ limit ≤ state.out.length then Fueled.raise
      else if c < 256 then
        if token.distance = [] then do
          let tree ← state.tree.update c
          append { state with tree } c
        else Fueled.raise
      else if token.distance.length = 12 ∧ state.out.length + length ≤ limit then do
        let tree ← state.tree.update c
        copy limit length (back state.r (numberFrom 0 token.distance)) { state with tree }
      else Fueled.raise

def replay (limit : Nat) (script : List Token) (state : Decompressor) : Fueled Decompressor :=
  script.foldlM (fun state token => play limit token state) state

theorem append_withReader {c : Nat} {next : Decompressor} (reader : BitReader)
    (returned : (state.append c).Returns next) :
    ((state.withReader reader).append c).Returns (next.withReader reader) := by
  rw [returns_append] at returned ⊢
  exact ⟨returned.1, by rw [← returned.2]; rfl⟩

/-- A copy that ends within both limits does the same under both. -/
theorem copy_withReader {limit left pos : Nat} {next : Decompressor} (reader : BitReader)
    (le : limit ≤ originalSize) (within : state.out.length + left ≤ limit)
    (returned : (copy limit left pos state).Returns next) :
    (copy originalSize left pos (state.withReader reader)).Returns (next.withReader reader) := by
  induction left generalizing pos state with
  | zero =>
      rw [copy, Fueled.returns_pure] at returned ⊢
      rw [returned]
  | succ left ih =>
      simp only [copy, Fueled.returns_bind] at returned ⊢
      obtain ⟨c, read, middle, appended, returned⟩ := returned
      have out := append_out c middle appended
      have length : middle.out.length = state.out.length + 1 := by simp [out]
      refine ⟨c, read, middle.withReader reader, append_withReader reader appended, ?_⟩
      cases left with
      | zero =>
          have stays : middle = next := by
            split at returned
            · simpa using returned
            · simpa [copy] using returned
          subst stays
          split <;> simp [copy]
      | succ left =>
          have before : ¬ limit ≤ middle.out.length := by omega
          have before' : ¬ originalSize ≤ (middle.withReader reader).out.length := by
            simp only [withReader]
            omega
          rw [if_neg before] at returned
          rw [if_neg before']
          exact ih (by omega) returned

theorem decode_play {limit : Nat} {token : Token} {next : Decompressor} {reader : BitReader}
    {rest : Stream' Bool} {out : Bytes} (le : limit ≤ originalSize)
    (played : (play limit token state).Returns next) (valid : reader.Valid)
    (ahead : reader.stream = token.code ++ₛ (token.distance ++ₛ rest))
    (returned : ((state.withReader reader).decode originalSize).Returns out) :
    ∃ reader', reader'.Valid ∧ reader'.stream = rest ∧
      ((next.withReader reader').decode originalSize).Returns out := by
  rw [play] at played
  split at played
  · exact absurd played Fueled.not_returns_raise
  rename_i leaf leads
  dsimp only at played
  split at played
  · exact absurd played Fueled.not_returns_raise
  rename_i running
  have before : (state.withReader reader).out.length < originalSize := by
    simp only [withReader]
    omega
  obtain ⟨c, tree, reader₁, decoded, turned⟩ := decode_turn before returned
  obtain ⟨symbol, updated, stream, valid₁⟩ := decodeChar_leafOf valid ahead leads _ decoded
  simp only at symbol updated stream valid₁
  rw [symbol] at turned
  obtain ⟨_, zero, _⟩ | ⟨next', done, onward⟩ := turned
  · exact absurd (.inl zero) running
  rw [take] at done
  split at played
  · rename_i byte
    rw [if_pos byte] at done
    split at played
    · rename_i none
      rw [Fueled.returns_bind] at played
      obtain ⟨tree', updated', appended⟩ := played
      have same := updated.unique updated'
      subst same
      have again := append_withReader reader₁ appended
      have same := done.unique again
      subst same
      exact ⟨reader₁, valid₁, by rw [stream, none]; rfl, onward⟩
    · exact absurd played Fueled.not_returns_raise
  · rename_i long
    rw [if_neg long] at done
    split at played
    · rename_i room
      rw [Fueled.returns_bind] at played
      obtain ⟨tree', updated', copied⟩ := played
      have same := updated.unique updated'
      subst same
      have read := readBits_spec valid₁ stream 0
      rw [room.1] at read
      obtain ⟨number, stream₂, valid₂⟩ := read
      have again := copy_withReader (reader₁.readBits 12 0).2 le (by exact room.2) copied
      rw [← number] at again
      have same := done.unique again
      subst same
      exact ⟨_, valid₂, stream₂, onward⟩
    · exact absurd played Fueled.not_returns_raise

theorem decode_replay {limit : Nat} {script : List Token} {next : Decompressor}
    {reader : BitReader} {rest : Stream' Bool} {out : Bytes} (le : limit ≤ originalSize)
    (played : (replay limit script state).Returns next) (valid : reader.Valid)
    (ahead : reader.stream = bitsOfScript script ++ₛ rest)
    (returned : ((state.withReader reader).decode originalSize).Returns out) :
    ∃ reader', reader'.Valid ∧ reader'.stream = rest ∧
      ((next.withReader reader').decode originalSize).Returns out := by
  induction script generalizing state reader with
  | nil =>
      rw [replay, List.foldlM_nil, Fueled.returns_pure] at played
      exact ⟨reader, valid, ahead, played ▸ returned⟩
  | cons token script ih =>
      rw [replay, List.foldlM_cons, Fueled.returns_bind] at played
      obtain ⟨middle, first, played⟩ := played
      rw [bitsOfScript, List.flatMap_cons, Stream'.append_append_stream,
        Stream'.append_append_stream] at ahead
      obtain ⟨reader', valid', ahead', onward⟩ := decode_play le first valid ahead returned
      exact ih played valid' ahead' onward

/-! Each byte of the buffer is a blank, a zero or a byte put out before.  Where the next
byte of the output is none of these it was a literal, and where that literal has
one code only, the bits read are that code.
-/

/-- Where the bytes of the buffer come from. -/
def Filled (state : Decompressor) : Prop :=
  ∀ i, (state.buf.cell i).toUInt8 ∈ 0 :: 32 :: state.out

theorem filled_start (tree : HuffmanTree) (data : Bytes) : Filled (start tree data) := by
  intro i
  simp only [start]
  split <;> simp

theorem append_filled {c : Nat} (filled : Filled state) : (state.append c).Ensures Filled := by
  intro next returned
  rw [returns_append] at returned
  rw [← returned.2]
  intro i
  simp only [Table.put_cell]
  split
  · simp
  · have old := filled i
    simp only [List.mem_cons, List.mem_append] at old ⊢
    tauto

/-- Literals that can only come from these codes, one after another. -/
def pinned (limit : Nat) : List (UInt8 × List Bool) → Decompressor → Fueled Decompressor
  | [], state => pure state
  | (d, code) :: script, state =>
      if state.tree.onlyCode (d.toNat + T) 20 (state.tree.son.cell R) (some code) = true ∧
          d ∉ 0 :: 32 :: state.out then do
        let next ← play limit ⟨code, []⟩ state
        if next.out = state.out ++ [d] then pinned limit script next else Fueled.raise
      else Fueled.raise

theorem play_literal_filled {limit : Nat} {code : List Bool} (filled : Filled state) :
    (play limit ⟨code, []⟩ state).Ensures Filled := by
  rw [play]
  split
  · exact Fueled.ensures_raise
  · dsimp only
    split
    · exact Fueled.ensures_raise
    · split
      · rw [if_pos rfl, Fueled.ensures_bind]
        intro tree _
        exact append_filled filled
      · rw [if_neg (by simp)]
        exact Fueled.ensures_raise

theorem decode_pinned {limit : Nat} {script : List (UInt8 × List Bool)} {next : Decompressor}
    {reader : BitReader} {out rest : Bytes} (le : limit ≤ originalSize)
    (pins : (pinned limit script state).Returns next) (valid : reader.Valid)
    (filled : Filled state) (follows : out = state.out ++ (script.map Prod.fst ++ rest))
    (running : out.length = originalSize)
    (returned : ((state.withReader reader).decode originalSize).Returns out) :
    ∃ reader', reader'.Valid ∧
      reader.stream = script.flatMap Prod.snd ++ₛ reader'.stream ∧
      ((next.withReader reader').decode originalSize).Returns out := by
  induction script generalizing state reader with
  | nil =>
      rw [pinned, Fueled.returns_pure] at pins
      exact ⟨reader, valid, rfl, pins ▸ returned⟩
  | cons item script ih =>
      obtain ⟨d, code⟩ := item
      rw [pinned] at pins
      split at pins
      · rename_i pin
        rw [Fueled.returns_bind] at pins
        obtain ⟨middle, played, pins⟩ := pins
        split at pins
        · rename_i grown
          have before : (state.withReader reader).out.length < originalSize := by
            rw [← running, follows]
            simp [withReader]
          have new : ∀ i, ((state.withReader reader).buf.cell i).toUInt8 ≠ d :=
            fun i same => pin.2 (same ▸ filled i)
          obtain ⟨tree, reader₁, decoded⟩ := decode_new returned before follows new
          obtain ⟨ahead, stream⟩ := decodeChar_onlyCode valid pin.1 _ decoded rfl
          obtain ⟨reader₂, valid₂, stream₂, onward⟩ := decode_play le played valid stream returned
          have follows₂ : out = middle.out ++ (script.map Prod.fst ++ rest) := by
            rw [grown, follows]
            simp
          obtain ⟨reader₃, valid₃, stream₃, last⟩ :=
            ih pins valid₂ (play_literal_filled filled middle played) follows₂ onward
          refine ⟨reader₃, valid₃, ?_, last⟩
          rw [stream, List.flatMap_cons, Stream'.append_append_stream, ← stream₃, stream₂]
        · exact absurd pins Fueled.not_returns_raise
      · exact absurd pins Fueled.not_returns_raise

end Decompressor

end PyBulletin.Vendor.Lzhuf
