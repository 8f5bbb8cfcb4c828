import Mathlib.Data.List.Nodup
import PyBulletin.Vendor.LzhufWindow

set_option autoImplicit false

namespace PyBulletin.Vendor.Lzhuf

open PyBulletin.Foundation

namespace Compressor

open TextBuffer

variable {seen : Nat → Prop} {state : Compressor}

theorem advance_code (left : Nat) (state : Compressor) :
    (advance left state).Ensures fun after =>
      after.tree = state.tree ∧ after.writer = state.writer ∧ after.len ≤ state.len := by
  induction left generalizing state with
  | zero => exact Fueled.ensures_pure.mpr ⟨rfl, rfl, le_rfl⟩
  | succ left ih =>
      rw [advance, Fueled.ensures_bind]
      intro tb _
      split
      · simp only [Fueled.ensures_bind, Table.ensures_set]
        intro _ tb' _
        exact ih _
      · dsimp only
        split
        · exact Fueled.ensures_pure.mpr ⟨rfl, rfl, Nat.sub_le _ _⟩
        · rw [Fueled.ensures_bind]
          intro tb' _
          refine (ih _).mono fun after kept => ⟨kept.1, kept.2.1, ?_⟩
          exact kept.2.2.trans (Nat.sub_le _ _)

theorem literal_writer (valid : state.writer.Valid) :
    state.literal.Ensures fun after =>
      state.writer.bits <+: after.writer.bits ∧ after.writer.Valid := by
  simp only [literal, Fueled.ensures_bind, Table.ensures_get, Fueled.ensures_pure]
  intro _
  exact HuffmanTree.encodeChar_writer valid

theorem reference_writer (valid : state.writer.Valid) (matchLen : Nat) :
    (state.reference matchLen).Ensures fun after =>
      state.writer.bits <+: after.writer.bits ∧ after.writer.Valid := by
  simp only [reference, Fueled.ensures_bind, Fueled.ensures_pure]
  refine (HuffmanTree.encodeChar_writer valid).mono fun coded kept => ?_
  obtain ⟨written, ok⟩ := BitWriter.bits_writeBits kept.2 (back state.r state.tb.matchPos) 12
  exact ⟨kept.1.trans written, ok⟩

theorem emit_writer (valid : state.writer.Valid) :
    state.emit.Ensures fun after =>
      state.writer.bits <+: after.writer.bits ∧ after.writer.Valid := by
  rw [emit]
  split
  · exact literal_writer valid
  · exact reference_writer valid state.cut

theorem encode_writer (valid : state.writer.Valid) :
    state.encode.Ensures fun after => state.writer.bits <+: after.writer.bits := by
  refine Fueled.ensures_loop (fun now : Compressor =>
    state.writer.bits <+: now.writer.bits ∧ now.writer.Valid) ?_ ⟨List.prefix_rfl, valid⟩
  rintro now ⟨written, ok⟩
  split
  · simp only [symbol, Fueled.ensures_bind, Fueled.ensures_pure]
    refine (emit_writer ok).mono fun coded kept => ?_
    refine (advance_code _ coded).mono fun after same => ?_
    rw [same.2.1]
    exact ⟨written.trans kept.1, kept.2⟩
  · exact Fueled.ensures_pure.mpr written

/-- One more turn of `while len_ > 0`. -/
theorem encode_turn {next final : Compressor} (running : 0 < state.len)
    (turned : state.symbol.Returns next) (returned : state.encode.Returns final) :
    next.encode.Returns final := by
  rw [encode, Fueled.returns_loop] at returned
  simp only [running, if_true, Fueled.returns_bind, Fueled.returns_pure] at returned
  obtain ⟨other, ⟨_, turned', same⟩, onward⟩ | ⟨_, _, impossible⟩ := returned
  · cases same
    rw [turned.unique turned']
    exact onward
  · cases impossible

theorem encode_symbol {final : Compressor} (running : 0 < state.len)
    (returned : state.encode.Returns final) : ∃ next, state.symbol.Returns next := by
  rw [encode, Fueled.returns_loop] at returned
  simp only [running, if_true, Fueled.returns_bind, Fueled.returns_pure] at returned
  obtain ⟨_, ⟨next, turned, _⟩, _⟩ | ⟨_, _, impossible⟩ := returned
  · exact ⟨next, turned⟩
  · cases impossible

/-- What is written for the next symbol stays in the flushed bytes. -/
theorem encode_emit {final : Compressor} (running : 0 < state.len)
    (valid : state.writer.Valid) (returned : state.encode.Returns final) :
    ∃ coded, state.emit.Returns coded ∧ coded.writer.bits <+: bitsOf final.writer.flush := by
  obtain ⟨next, turned⟩ := encode_symbol running returned
  have onward := encode_turn running turned returned
  rw [symbol, Fueled.returns_bind] at turned
  obtain ⟨coded, emitted, moved⟩ := turned
  have same := advance_code _ coded next moved
  have written := emit_writer valid coded emitted
  have grown := encode_writer (same.2.1 ▸ written.2) final onward
  rw [same.2.1] at grown
  exact ⟨coded, emitted, grown.trans (BitWriter.bits_flush _)⟩

/-- The state after a step of the window that read a byte. -/
structure Stepped (seen : Nat → Prop) (before : Compressor) (b : UInt8) (tb : TextBuffer) :
    Prop where
  buf : tb.buf = before.tb.buf.put before.s b.toNat
  fresh : Fresh (fun c => seen c ∨ c = tb.buf.cell ((before.r + 1) % N)) tb
  literal : ¬ seen (tb.buf.cell ((before.r + 1) % N)) → tb.matchLen = 0

theorem advance_step {left : Nat} {b : UInt8} {rest : Bytes} {Post : Compressor → Prop}
    (fresh : Fresh seen state.tb) (ahead : state.rest = b :: rest)
    (after : ∀ tb, Stepped seen state b tb →
      (advance left { state with
        tb, r := (state.r + 1) % N, s := (state.s + 1) % N, rest }).Ensures Post) :
    (advance (left + 1) state).Ensures Post := by
  rw [advance, ahead, Fueled.ensures_bind]
  refine (deleteNode_kept fresh _).mono fun deleted kept => ?_
  simp only [Fueled.ensures_bind, Table.ensures_set]
  intro _
  have within : (state.r + 1) % N ≤ N := (Nat.mod_lt _ (by decide)).le
  have moved : Fresh seen { deleted with buf := deleted.buf.put state.s b.toNat } := kept.fresh
  refine (insertNode_spec moved within).mono fun tb found => ?_
  obtain ⟨again, literal⟩ := found
  have buf : tb.buf = deleted.buf.put state.s b.toNat := again.buf
  rw [kept.buf] at buf
  rw [← again.buf] at literal
  refine after tb ⟨buf, ?_, literal⟩
  rw [again.buf]
  exact again.fresh

/-! While the bytes of the data are all different and not blank, no search finds a
match, and every symbol is a literal. -/

/-- The symbols of `chars`, one after another. -/
def encodeAll (chars : Bytes) (code : HuffmanTree × BitWriter) :
    Fueled (HuffmanTree × BitWriter) :=
  chars.foldlM (fun (tree, writer) c => tree.encodeChar c.toNat writer) code

theorem window_blank {data : Bytes} {i : Nat} (below : i < N - F) :
    (window data).cell i = 32 := by
  simp [window, below]

theorem window_data {data : Bytes} {i : Nat} {b : UInt8} (within : i < F)
    (found : data[i]? = some b) : (window data).cell (N - F + i) = b.toNat := by
  have taken : (data.take F)[i]? = some b := by simp [within, found]
  have place : ¬ N - F + i < N - F := by omega
  simp [window, place, taken]

/-- The state before the first symbol. -/
structure Started (tree : HuffmanTree) (data : Bytes) (state : Compressor) : Prop where
  tree : state.tree = tree
  writer : state.writer = .init
  r : state.r = N - F
  s : state.s = 0
  len : state.len = (data.take F).length
  rest : state.rest = data.drop F
  buf : state.tb.buf = window data
  fresh : Fresh (fun c => c = 32 ∨ c = (window data).cell (N - F)) state.tb
  literal : (window data).cell (N - F) ≠ 32 → state.tb.matchLen = 0

theorem start_spec (tree : HuffmanTree) (data : Bytes) :
    (start tree data).Ensures (Started tree data) := by
  rw [start, Fueled.ensures_bind]
  have blank : Kept (· = 32) { TextBuffer.init with buf := window data }
      { TextBuffer.init with buf := window data } := ⟨fresh_init, rfl⟩
  refine (Fueled.ensures_foldlM ?_ blank).mono fun tb kept => ?_
  · intro i listed now kept
    have before : i < F := List.mem_range.mp listed
    have place : (N - F - (i + 1)) % N = N - F - (i + 1) := Nat.mod_eq_of_lt (by simp [N, F]; omega)
    have space : now.buf.cell ((N - F - (i + 1)) % N) = 32 := by
      rw [kept.buf, place]
      exact window_blank (by simp [N, F]; omega)
    refine (insertNode_kept kept.fresh ?_ space).mono fun after again =>
      ⟨again.fresh, again.buf.trans kept.buf⟩
    exact (Nat.mod_lt _ (by decide)).le
  · rw [Fueled.ensures_bind]
    refine (insertNode_spec kept.fresh (Nat.sub_le N F)).mono fun after found => ?_
    rw [kept.buf] at found
    rw [Fueled.ensures_pure]
    exact {
      tree := rfl
      writer := rfl
      r := rfl
      s := rfl
      len := rfl
      rest := rfl
      buf := found.1.buf.trans kept.buf
      fresh := found.1.fresh
      literal := found.2 }

/-- The state after `k` literals, with the string of a further one inserted. -/
structure Literals (tree : HuffmanTree) (data : Bytes) (k : Nat) (state : Compressor) :
    Prop where
  code : (encodeAll (data.take k) (tree, .init)).Returns (state.tree, state.writer)
  valid : state.writer.Valid
  r : state.r = N - F + k
  s : state.s = k
  len : state.len = F
  rest : state.rest = data.drop (F + k)
  ahead : ∀ i b, k ≤ i → i < F → data[i]? = some b → state.tb.buf.cell (N - F + i) = b.toNat
  fresh : Fresh (fun c => c = 32 ∨ ∃ b ∈ data.take (k + 1), c = b.toNat) state.tb
  matchLen : state.tb.matchLen = 0

theorem Started.literals {tree : HuffmanTree} {data : Bytes} {b : UInt8}
    (started : Started tree data state) (long : F ≤ data.length) (first : data[0]? = some b)
    (marked : b ≠ 32) : Literals tree data 0 state := by
  have cell : (window data).cell (N - F) = b.toNat := window_data (i := 0) (by decide) first
  have head : data.take 1 = [b] := by
    cases data with
    | nil => simp at first
    | cons c rest => simpa using first
  exact {
    code := by
      rw [started.tree, started.writer]
      exact Fueled.returns_pure.mpr rfl
    valid := started.writer ▸ BitWriter.valid_init
    r := started.r
    s := started.s
    len := by rw [started.len, List.length_take]; omega
    rest := started.rest
    ahead := by
      intro i c _ within found
      rw [started.buf]
      exact window_data within found
    fresh := by
      refine started.fresh.mono _ fun c listed => ?_
      rw [cell] at listed
      simpa [head] using listed
    matchLen := by
      refine started.literal ?_
      rw [cell]
      exact fun same => marked (UInt8.toNat_inj.mp same) }

theorem Literals.emit {tree : HuffmanTree} {data : Bytes} {k : Nat} {b : UInt8}
    (literals : Literals tree data k state) (within : k < F) (found : data[k]? = some b) :
    state.emit.Ensures fun coded =>
      (encodeAll (data.take (k + 1)) (tree, .init)).Returns (coded.tree, coded.writer) ∧
        coded.writer.Valid ∧
        coded = { state with
          tree := coded.tree, writer := coded.writer, tb := { state.tb with matchLen := 1 } } := by
  have cell : state.tb.buf.cell state.r = b.toNat := by
    rw [literals.r]
    exact literals.ahead k b le_rfl within found
  have short : state.cut ≤ threshold := by simp [cut, literals.matchLen]
  rw [Compressor.emit, if_pos short]
  simp only [literal, Fueled.ensures_bind,
    Table.ensures_get, Fueled.ensures_pure, cell]
  intro _ code returned
  have kept := HuffmanTree.encodeChar_writer literals.valid code returned
  refine ⟨?_, kept.2, trivial⟩
  rw [List.take_add_one, found, Option.toList, encodeAll, List.foldlM_append,
    Fueled.returns_bind]
  refine ⟨_, literals.code, ?_⟩
  simpa using returned

theorem Literals.symbol {tree : HuffmanTree} {data : Bytes} {k : Nat} {b : UInt8}
    (literals : Literals tree data k state) (within : k + 1 < F) (long : F + k < data.length)
    (next : data[k + 1]? = some b) (marked : b ≠ 32) (new : b ∉ data.take (k + 1)) :
    state.symbol.Ensures (Literals tree data (k + 1)) := by
  have here : k < data.length := by omega
  have ahead : state.rest = data[F + k] :: data.drop (F + k + 1) := by
    rw [literals.rest, List.drop_eq_getElem_cons long]
  rw [Compressor.symbol, Fueled.ensures_bind]
  refine (literals.emit (by omega) (List.getElem?_eq_getElem here)).mono fun coded emitted => ?_
  obtain ⟨code, valid, same⟩ := emitted
  obtain ⟨tree', writer, tb, r, s, len, rest⟩ := coded
  simp only [Compressor.mk.injEq, true_and] at same
  obtain ⟨rfl, rfl, rfl, rfl, rfl⟩ := same
  refine advance_step literals.fresh ahead fun tb stepped => Fueled.ensures_pure.mpr ?_
  have r : (state.r + 1) % N = N - F + (k + 1) := by
    rw [literals.r]
    simp only [N, F] at within ⊢
    omega
  have kept : ∀ i, tb.buf.cell (N - F + i) = state.tb.buf.cell (N - F + i) := by
    intro i
    have elsewhere : N - F + i ≠ state.s := by
      rw [literals.s]
      simp only [N, F] at within ⊢
      omega
    rw [stepped.buf, Table.put_cell, if_neg elsewhere]
  have cell : tb.buf.cell (N - F + (k + 1)) = b.toNat := by
    rw [kept]
    exact literals.ahead (k + 1) b (by omega) within next
  have last : data.take (k + 1 + 1) = data.take (k + 1) ++ [b] := by
    rw [List.take_add_one, next, Option.toList]
  exact {
    code
    valid
    r
    s := by
      simp only [literals.s, N, F] at within ⊢
      omega
    len := literals.len
    rest := by rw [Nat.add_assoc]
    ahead := by
      intro i c later inside found
      rw [kept]
      exact literals.ahead i c (by omega) inside found
    fresh := by
      refine stepped.fresh.mono _ fun c listed => ?_
      rw [r, cell] at listed
      rw [last]
      simp only [List.mem_append, List.mem_singleton]
      rcases listed with (blank | ⟨d, earlier, same⟩) | same
      · exact .inl blank
      · exact .inr ⟨d, .inl earlier, same⟩
      · exact .inr ⟨b, .inr rfl, same⟩
    matchLen := by
      refine stepped.literal ?_
      rw [r, cell]
      rintro (blank | ⟨d, earlier, same⟩)
      · exact marked (UInt8.toNat_inj.mp blank)
      · exact new (UInt8.toNat_inj.mp same ▸ earlier) }

/-- The bits of the first `k + 1` bytes, when they are different and not blank. -/
theorem encode_literals {tree : HuffmanTree} {data : Bytes} {k : Nat} {first final : Compressor}
    (started : Started tree data first) (returned : first.encode.Returns final)
    (within : k < F) (long : F + k ≤ data.length) (distinct : (data.take (k + 1)).Nodup)
    (marked : 32 ∉ data.take (k + 1)) :
    ∃ code, (encodeAll (data.take (k + 1)) (tree, .init)).Returns code ∧
      code.2.bits <+: bitsOf final.writer.flush := by
  have reached : ∀ m ≤ k, ∃ state, Literals tree data m state ∧
      state.encode.Returns final := by
    intro m
    induction m with
    | zero =>
        intro _
        have here : 0 < data.length := by omega
        have notBlank : data[0] ≠ 32 := by
          intro blank
          exact marked (List.mem_take_iff_getElem.mpr ⟨0, by omega, blank⟩)
        exact ⟨first, started.literals (by omega) (List.getElem?_eq_getElem here) notBlank,
          returned⟩
    | succ m ih =>
        intro before
        obtain ⟨state, literals, onward⟩ := ih (by omega)
        have here : m + 1 < data.length := by omega
        have listed : data[m + 1] ∈ data.take (k + 1) :=
          List.mem_take_iff_getElem.mpr ⟨m + 1, by omega, rfl⟩
        have notBlank : data[m + 1] ≠ 32 := fun blank => marked (blank ▸ listed)
        have new : data[m + 1] ∉ data.take (m + 1) := by
          intro earlier
          obtain ⟨i, below, same⟩ := List.mem_take_iff_getElem.mp earlier
          have one : i < (data.take (k + 1)).length := by simp; omega
          have two : m + 1 < (data.take (k + 1)).length := by simp; omega
          have both : (data.take (k + 1))[i] = (data.take (k + 1))[m + 1] := by simpa using same
          have equal := distinct.getElem_inj_iff.mp both
          omega
        have running : 0 < state.len := by rw [literals.len]; decide
        obtain ⟨next, turned⟩ := encode_symbol running onward
        exact ⟨next, literals.symbol (by omega) (by omega) (List.getElem?_eq_getElem here)
          notBlank new next turned, encode_turn running turned onward⟩
  obtain ⟨state, literals, onward⟩ := reached k le_rfl
  have running : 0 < state.len := by rw [literals.len]; decide
  have here : k < data.length := by omega
  obtain ⟨coded, emitted, written⟩ := encode_emit running literals.valid onward
  obtain ⟨code, _⟩ := literals.emit within (List.getElem?_eq_getElem here) coded emitted
  exact ⟨_, code, written⟩

/-! As long as no step finds the data at its end, what `compress` does with the bytes
read so far does not depend on the bytes behind them. -/

/-- The same state before a longer input. -/
def more (tail : Bytes) (state : Compressor) : Compressor :=
  { state with rest := state.rest ++ tail }

theorem start_more {tree : HuffmanTree} {known : Bytes} (tail : Bytes)
    (long : F ≤ known.length) (returned : (start tree known).Returns state) :
    (start tree (known ++ tail)).Returns (state.more tail) := by
  have front : (known ++ tail).take F = known.take F := List.take_append_of_le_length long
  have back : (known ++ tail).drop F = known.drop F ++ tail := List.drop_append_of_le_length long
  have same : window (known ++ tail) = window known := by simp only [window, front]
  simp only [start, Fueled.returns_bind, Fueled.returns_pure, front, back, same] at returned ⊢
  obtain ⟨tb, blanks, tb', inserted, rfl⟩ := returned
  exact ⟨tb, blanks, tb', inserted, rfl⟩

theorem emit_more {next : Compressor} (tail : Bytes) (returned : state.emit.Returns next) :
    (state.more tail).emit.Returns (next.more tail) ∧ next.len = state.len := by
  have same : (state.more tail).cut = state.cut := rfl
  rw [emit] at returned ⊢
  rw [same]
  split at returned
  · rename_i short
    rw [if_pos short]
    simp only [literal, Fueled.returns_bind, Fueled.returns_pure] at returned ⊢
    obtain ⟨c, found, code, coded, rfl⟩ := returned
    exact ⟨⟨c, found, code, coded, rfl⟩, rfl⟩
  · rename_i long
    rw [if_neg long]
    simp only [reference, Fueled.returns_bind, Fueled.returns_pure] at returned ⊢
    obtain ⟨code, coded, rfl⟩ := returned
    exact ⟨⟨code, coded, rfl⟩, rfl⟩

/-- A step at the end of the data makes `len_` smaller. -/
theorem advance_more {left : Nat} {next : Compressor} (tail : Bytes) (running : 0 < state.len)
    (returned : (advance left state).Returns next) (full : next.len = state.len) :
    (advance left (state.more tail)).Returns (next.more tail) := by
  induction left generalizing state with
  | zero =>
      rw [advance, Fueled.returns_pure] at returned ⊢
      rw [returned]
  | succ left ih =>
      rw [advance, Fueled.returns_bind] at returned ⊢
      obtain ⟨tb, deleted, returned⟩ := returned
      refine ⟨tb, deleted, ?_⟩
      cases ahead : state.rest with
      | nil =>
          rw [ahead] at returned
          dsimp only at returned
          split at returned
          · rw [Fueled.returns_pure] at returned
            rw [← returned] at full
            simp only at full
            omega
          · rw [Fueled.returns_bind] at returned
            obtain ⟨tb', _, returned⟩ := returned
            have less := (advance_code left _ next returned).2.2
            simp only at less
            omega
      | cons c rest =>
          rw [ahead] at returned
          simp only [more, ahead, List.cons_append, Fueled.returns_bind] at returned ⊢
          obtain ⟨buf, written, tb', inserted, returned⟩ := returned
          exact ⟨buf, written, tb', inserted, ih (by exact running) returned full⟩

/-- So many symbols, none of which finds the data at its end. -/
def symbols : Nat → Compressor → Fueled Compressor
  | 0, state => pure state
  | n + 1, state => do
      let next ← state.symbol
      if 0 < state.len ∧ next.len = state.len then symbols n next else Fueled.raise

theorem symbol_more {next : Compressor} (tail : Bytes) (running : 0 < state.len)
    (returned : state.symbol.Returns next) (full : next.len = state.len) :
    (state.more tail).symbol.Returns (next.more tail) := by
  rw [symbol, Fueled.returns_bind] at returned ⊢
  obtain ⟨coded, emitted, moved⟩ := returned
  obtain ⟨emitted', same⟩ := emit_more tail emitted
  refine ⟨coded.more tail, emitted', ?_⟩
  exact advance_more tail (by omega) moved (by omega)

theorem encode_symbols {n : Nat} {next final : Compressor} (tail : Bytes)
    (ran : (symbols n state).Returns next) (returned : (state.more tail).encode.Returns final) :
    (next.more tail).encode.Returns final := by
  induction n generalizing state with
  | zero =>
      rw [symbols, Fueled.returns_pure] at ran
      exact ran ▸ returned
  | succ n ih =>
      rw [symbols, Fueled.returns_bind] at ran
      obtain ⟨middle, turned, ran⟩ := ran
      split at ran
      · rename_i full
        have running : 0 < (state.more tail).len := full.1
        exact ih ran (encode_turn running (symbol_more tail full.1 turned full.2) returned)
      · exact absurd ran Fueled.not_returns_raise

theorem symbols_valid {n : Nat} (valid : state.writer.Valid) :
    (symbols n state).Ensures fun next => next.writer.Valid := by
  induction n generalizing state with
  | zero => exact Fueled.ensures_pure.mpr valid
  | succ n ih =>
      rw [symbols, Fueled.ensures_bind, symbol, Fueled.ensures_bind]
      refine (emit_writer valid).mono fun coded kept => ?_
      refine (advance_code _ coded).mono fun next same => ?_
      split
      · exact ih (same.2.1 ▸ kept.2)
      · exact Fueled.ensures_raise

/-- All bytes in the window and still to read are in `seen`. -/
structure Within (seen : Nat → Prop) (state : Compressor) : Prop where
  fresh : Fresh seen state.tb
  buf : ∀ i, seen (state.tb.buf.cell i)
  rest : ∀ b ∈ state.rest, seen b.toNat

theorem window_within {data : Bytes} (zero : seen 0) (blank : seen 32)
    (listed : ∀ b ∈ data, seen b.toNat) (i : Nat) : seen ((window data).cell i) := by
  simp only [window]
  split
  · exact blank
  · split
    · exact zero
    · rename_i b found
      exact listed b (List.mem_of_mem_take (List.mem_of_getElem? found))

theorem start_within {tree : HuffmanTree} {data : Bytes} (zero : seen 0) (blank : seen 32)
    (listed : ∀ b ∈ data, seen b.toNat) : (start tree data).Ensures (Within seen) := by
  refine (start_spec tree data).mono fun state started => ?_
  have window := window_within zero blank listed
  refine ⟨started.fresh.mono _ ?_, fun i => started.buf ▸ window i, ?_⟩
  · rintro c (rfl | rfl)
    · exact blank
    · exact window _
  · intro b ahead
    rw [started.rest] at ahead
    exact listed b (List.mem_of_mem_drop ahead)

theorem advance_within {left : Nat} (within : Within seen state) :
    (advance left state).Ensures (Within seen) := by
  induction left generalizing state with
  | zero => exact Fueled.ensures_pure.mpr within
  | succ left ih =>
      cases ahead : state.rest with
      | cons b rest =>
          refine advance_step within.fresh ahead fun tb stepped => ih ?_
          have rest := within.rest
          rw [ahead] at rest
          have buf : ∀ i, seen (tb.buf.cell i) := by
            intro i
            rw [stepped.buf, Table.put_cell]
            split
            · exact rest b (by simp)
            · exact within.buf i
          refine ⟨stepped.fresh.mono _ ?_, buf, fun c later => rest c (by simp [later])⟩
          rintro c (listed | rfl)
          · exact listed
          · exact buf _
      | nil =>
          rw [advance, Fueled.ensures_bind]
          refine (deleteNode_kept within.fresh _).mono fun tb kept => ?_
          rw [ahead]
          dsimp only
          have buf : ∀ i, seen (tb.buf.cell i) := fun i => kept.buf ▸ within.buf i
          split
          · exact Fueled.ensures_pure.mpr ⟨kept.fresh, buf, by simp⟩
          · rw [Fueled.ensures_bind]
            refine (insertNode_kept kept.fresh (Nat.mod_lt _ (by decide)).le
              (buf _)).mono fun tb' again => ih ?_
            exact ⟨again.fresh, fun i => again.buf ▸ buf i, by simp⟩

theorem emit_within (within : Within seen state) : state.emit.Ensures (Within seen) := by
  rw [emit]
  split
  · simp only [literal, Fueled.ensures_bind, Fueled.ensures_pure]
    intro _ _ _ _
    exact ⟨within.fresh, within.buf, within.rest⟩
  · simp only [reference, Fueled.ensures_bind, Fueled.ensures_pure]
    intro _ _
    exact ⟨within.fresh, within.buf, within.rest⟩

theorem symbols_within {n : Nat} (within : Within seen state) :
    (symbols n state).Ensures (Within seen) := by
  induction n generalizing state with
  | zero => exact Fueled.ensures_pure.mpr within
  | succ n ih =>
      rw [symbols, Fueled.ensures_bind, symbol, Fueled.ensures_bind]
      refine (emit_within within).mono fun coded kept => ?_
      refine (advance_within kept).mono fun next kept => ?_
      split
      · exact ih kept
      · exact Fueled.ensures_raise

/-- The state while the window moves on by `count` bytes of which the first one, at
`place`, is new: `done` steps are behind. -/
structure Sliding (seen : Nat → Prop) (c : UInt8) (place count done : Nat)
    (state : Compressor) : Prop where
  fresh : Fresh seen state.tb
  r : (state.r + (count - done)) % N = place
  s : state.s = place + done
  running : 0 < state.len
  buf : ∀ i, i < place ∨ place + done ≤ i → seen (state.tb.buf.cell i)
  new : done ≠ 0 → state.tb.buf.cell place = c.toNat
  rest : count - done ≤ state.rest.length
  head : done = 0 → state.rest.head? = some c

theorem Sliding.cell {c b : UInt8} {place count done : Nat} {rest : Bytes} {tb : TextBuffer}
    (sliding : Sliding seen c place count done state) (ahead : state.rest = b :: rest)
    (stepped : Stepped seen state b tb) : tb.buf.cell place = c.toNat := by
  rw [stepped.buf, Table.put_cell, sliding.s]
  by_cases first : done = 0
  · have head := sliding.head first
    rw [ahead] at head
    cases head
    rw [if_pos (by omega)]
  · rw [if_neg (by omega)]
    exact sliding.new first

/-- After the last step the string of the new byte is inserted, and has no match. -/
theorem advance_sliding {c : UInt8} {place count done left : Nat} (narrow : place + count < N)
    (sliding : Sliding seen c place count done state) (steps : done + (left + 1) = count)
    (unseen : ¬ seen c.toNat) :
    (advance (left + 1) state).Ensures fun after =>
      after.tb.matchLen = 0 ∧ after.tb.buf.cell after.r = c.toNat ∧ 0 < after.len := by
  induction left generalizing done state with
  | zero =>
      obtain ⟨b, rest, ahead⟩ : ∃ b rest, state.rest = b :: rest :=
        List.exists_cons_of_length_pos (by have := sliding.rest; omega)
      refine advance_step sliding.fresh ahead fun tb stepped => Fueled.ensures_pure.mpr ?_
      have here : (state.r + 1) % N = place := by
        have r := sliding.r
        rwa [show count - done = 1 by omega] at r
      have cell := sliding.cell ahead stepped
      refine ⟨stepped.literal ?_, ?_, sliding.running⟩
      · rwa [here, cell]
      · rw [here, cell]
  | succ left ih =>
      obtain ⟨b, rest, ahead⟩ : ∃ b rest, state.rest = b :: rest :=
        List.exists_cons_of_length_pos (by have := sliding.rest; omega)
      refine advance_step sliding.fresh ahead fun tb stepped => ?_
      have cells : ∀ i, i < place ∨ place + (done + 1) ≤ i → seen (tb.buf.cell i) := by
        intro i outside
        rw [stepped.buf, Table.put_cell, sliding.s, if_neg (by omega)]
        exact sliding.buf i (by omega)
      have r := sliding.r
      -- the position of the string inserted now is outside the bytes read so far
      have outside : (state.r + 1) % N < place ∨ place + (done + 1) ≤ (state.r + 1) % N := by
        simp only [N] at r narrow ⊢
        omega
      have next : Sliding seen c place count (done + 1) { state with
          tb, r := (state.r + 1) % N, s := (state.s + 1) % N, rest } := {
        fresh := by
          refine stepped.fresh.mono _ ?_
          rintro d (listed | rfl)
          · exact listed
          · exact cells _ outside
        r := by
          simp only [N] at r narrow ⊢
          omega
        s := by
          have s := sliding.s
          simp only [N] at narrow ⊢
          omega
        running := sliding.running
        buf := cells
        new := fun _ => sliding.cell ahead stepped
        rest := by
          have rest := sliding.rest
          rw [ahead, List.length_cons] at rest
          simp only
          omega
        head := by
          intro impossible
          omega }
      exact ih next (by omega)

theorem emit_tb : state.emit.Ensures fun coded => coded = { state with
    tree := coded.tree, writer := coded.writer,
    tb := { state.tb with matchLen := coded.tb.matchLen } } := by
  rw [emit]
  split
  · simp only [literal, Fueled.ensures_bind, Table.ensures_get, Fueled.ensures_pure]
    intro _ _ _
    trivial
  · simp only [reference, Fueled.ensures_bind, Fueled.ensures_pure]
    intro _ _
    trivial

/-- The data begins with bytes in `seen`, and the first other byte `c` comes right
behind a match of all the bytes known before it: then `c` is written as a literal. -/
theorem encode_new (seen : Nat → Prop) {tree : HuffmanTree} {known tail : Bytes} {c : UInt8} {n : Nat}
    {first last coded final : Compressor} (zero : seen 0) (blank : seen 32)
    (listed : ∀ b ∈ known, seen b.toNat) (unseen : ¬ seen c.toNat) (long : F ≤ known.length)
    (started : (start tree known).Returns first) (ran : (symbols n first).Returns last)
    (emitted : last.emit.Returns coded) (valid : last.writer.Valid)
    (behind : last.rest = []) (running : 0 < last.len) (some : 0 < coded.tb.matchLen)
    (narrow : last.s + coded.tb.matchLen < N)
    (place : (last.r + coded.tb.matchLen) % N = last.s)
    (enough : coded.tb.matchLen ≤ tail.length + 1)
    {started' : Compressor} (startedAll : (start tree (known ++ c :: tail)).Returns started')
    (returned : started'.encode.Returns final) :
    ∃ code, (coded.tree.encodeChar c.toNat coded.writer).Returns code ∧
      code.2.bits <+: bitsOf final.writer.flush := by
  have same := startedAll.unique (start_more (c :: tail) long started)
  subst same
  have onward := encode_symbols (c :: tail) ran returned
  have within := symbols_within (start_within zero blank listed first started) last ran
  have runningMore : 0 < (last.more (c :: tail)).len := running
  obtain ⟨next, turned⟩ := encode_symbol runningMore onward
  have onward := encode_turn runningMore turned onward
  have shape := emit_tb coded emitted
  have codedValid := (emit_writer valid coded emitted).2
  rw [symbol, Fueled.returns_bind] at turned
  obtain ⟨coded', emitted', moved⟩ := turned
  have same := emitted'.unique (emit_more (c :: tail) emitted).1
  subst same
  obtain ⟨left, count⟩ : ∃ left, coded.tb.matchLen = left + 1 := ⟨coded.tb.matchLen - 1, by omega⟩
  have sliding : Sliding seen c last.s (left + 1) 0 (coded.more (c :: tail)) := by
    rw [shape]
    exact {
      fresh := within.fresh
      r := count ▸ place
      s := rfl
      running := running
      buf := fun i _ => within.buf i
      new := fun impossible => absurd rfl impossible
      rest := by simp only [more, List.length_append, List.length_cons]; omega
      head := fun _ => by simp [more, behind] }
  have amount : (coded.more (c :: tail)).tb.matchLen = left + 1 := count
  rw [amount] at moved
  obtain ⟨matchLen, cell, live⟩ := advance_sliding (by omega) sliding (by omega) unseen next moved
  have code := advance_code _ _ next moved
  obtain ⟨coded', emitted', written⟩ := encode_emit live (code.2.1 ▸ codedValid) onward
  have short : next.cut ≤ threshold := by simp [cut, matchLen]
  rw [emit, if_pos short, literal, Fueled.returns_bind] at emitted'
  obtain ⟨byte, found, emitted'⟩ := emitted'
  rw [Table.returns_get] at found
  rw [Fueled.returns_bind] at emitted'
  obtain ⟨symbolCode, encoded, same⟩ := emitted'
  rw [Fueled.returns_pure] at same
  subst same
  rw [← found.2, cell, code.1, code.2.1] at encoded
  exact ⟨symbolCode, encoded, written⟩

end Compressor

theorem packSize_length (n : Nat) : (packSize n).Ensures fun header => header.length = 4 := by
  rw [packSize]
  split <;> simp

theorem unpackSize_packSize (n : Nat) : (packSize n).Ensures fun header =>
    ∀ payload, unpackSize (header ++ payload) = some n := by
  rw [packSize]
  split
  · rename_i small
    rw [Fueled.ensures_pure]
    intro payload
    simp [unpackSize, Nat.shiftRight_eq_div_pow]
    omega
  · exact Fueled.ensures_raise

theorem compress_returns {data out : Bytes} (returned : (compress data).Returns out) :
    ∃ started final header, (Compressor.start .init data).Returns started ∧
      started.encode.Returns final ∧ (packSize data.length).Returns header ∧
      out = header ++ final.writer.flush := by
  simp only [compress, Fueled.returns_bind, Fueled.returns_pure] at returned
  obtain ⟨started, start, final, encoded, header, packed, rfl⟩ := returned
  exact ⟨started, final, header, start, encoded, packed, rfl⟩

end PyBulletin.Vendor.Lzhuf
