import Mathlib.Data.List.Chain
import PyBulletin.Ax25.HdlcRoundTrip
import PyBulletin.Foundation.Chunks

set_option autoImplicit false

namespace PyBulletin.Ax25.Hdlc

open PyBulletin.Foundation

/-! # The receiver on a stream of bits

The scan for flags takes the earliest match and goes on behind it, so noise can
hide the flag behind it, but not two flags in a row.
-/

/-- Flags with nothing between them. -/
def idle (count : Nat) : Bits := (List.replicate count flagBits).flatten

/-- The bits of a frame between its flags, not filled up to whole bytes. -/
def stuffedFrame (payload : Bytes) : Bits := bitStuff (bytesToBitsLsb (appendFcs payload))

/-- Payloads, each with the number of flags that follow it. -/
def transmission (sent : List (Bytes × Nat)) : Bits :=
  sent.flatMap fun (payload, flags) => stuffedFrame payload ++ idle flags

/-- The successive calls of `extract_hdlc_frames`, each on the remainder of the one
before and a new block; the payloads of all calls. -/
def feedBlocks (remainder : Bits) (blocks : List Bits) : List Bytes :=
  (drain extractHdlcFrames remainder blocks).1

/-- Consecutive flags of the scan start close enough for the receiver to wait. -/
def Spaced (bits : Bits) : Prop :=
  (flagPositions 0 bits).IsChain fun start next => next ≤ start + 8184

instance (bits : Bits) : Decidable (Spaced bits) := inferInstanceAs (Decidable (List.IsChain _ _))

/-- `Bell202Demodulator` behind its symbol decisions. -/
structure Bell202Demodulator where
  lastLevel : Bool := true
  rawBits : Bits := []

namespace Bell202Demodulator

/-- `feed_samples`, from the levels that the samples are classified as. -/
def feedLevels (demodulator : Bell202Demodulator) (levels : Bits) :
    List Bytes × Bell202Demodulator :=
  if levels = [] then ([], demodulator)
  else
    let rawBits := demodulator.rawBits ++ nrziDecode demodulator.lastLevel levels
    let (payloads, remainder) := extractHdlcFrames rawBits
    (payloads, { lastLevel := levels.getLastD demodulator.lastLevel, rawBits := remainder })

def feedAll (demodulator : Bell202Demodulator) : List Bits → List Bytes
  | [] => []
  | levels :: later =>
      let (payloads, demodulator) := demodulator.feedLevels levels
      payloads ++ demodulator.feedAll later

end Bell202Demodulator

variable {bits rest front back : Bits} {payload : Bytes} {position start : Nat}

/-- A match that begins in the noise takes at most the first bit of the flag behind it. -/
theorem flag_overlap {noise : Bits} (begun : noise ≠ []) (short : noise.length < 8)
    (found : (noise ++ (flagBits ++ rest)).take 8 = flagBits) : noise = flagBits.take 7 := by
  match noise, begun, short with
  | [_], _, _ => simp [flagBits] at found
  | [_, _], _, _ => simp [flagBits] at found
  | [_, _, _], _, _ => simp [flagBits] at found
  | [_, _, _, _], _, _ => simp [flagBits] at found
  | [_, _, _, _, _], _, _ => simp [flagBits] at found
  | [_, _, _, _, _, _], _, _ => simp [flagBits] at found
  | [_, _, _, _, _, _, _], _, _ => simpa [flagBits] using found

/-- The rest of a flag whose first bit was taken holds no flag, whatever follows. -/
theorem flagPositions_behind_overlap (position : Nat) (rest : Bits) :
    flagPositions position (flagBits.drop 1 ++ (flagBits ++ rest)) =
      flagPositions (position + 7) (flagBits ++ rest) := by
  have last : (false :: (flagBits ++ rest)).take 8 ≠ flagBits :=
    ShortRun.not_flag ⟨0, Nat.zero_le _, rfl⟩
  simp only [flagBits, List.drop_succ_cons, List.drop_zero, List.cons_append, List.nil_append] at last ⊢
  rw [flagPositions_skip not_flag_of_one, flagPositions_skip not_flag_of_one,
    flagPositions_skip not_flag_of_one, flagPositions_skip not_flag_of_one,
    flagPositions_skip not_flag_of_one, flagPositions_skip not_flag_of_one,
    flagPositions_skip last]

/-- After any noise the scan finds the second of two flags. -/
theorem flagPositions_resync (noise rest : Bits) (position : Nat) :
    ∃ early, flagPositions position (noise ++ (flagBits ++ (flagBits ++ rest))) =
      early ++ flagPositions (position + noise.length + 8) (flagBits ++ rest) := by
  cases noise with
  | nil => exact ⟨[position], flagPositions_flag position _⟩
  | cons bit noise =>
      by_cases found : ((bit :: noise) ++ (flagBits ++ (flagBits ++ rest))).take 8 = flagBits
      · by_cases short : (bit :: noise).length < 8
        · have overlap := flag_overlap (List.cons_ne_nil _ _) short found
          have size : (bit :: noise).length = 7 := by rw [overlap]; rfl
          have whole : (bit :: noise) ++ (flagBits ++ (flagBits ++ rest)) =
              flagBits ++ (flagBits.drop 1 ++ (flagBits ++ rest)) := by
            rw [overlap]
            rfl
          refine ⟨[position], ?_⟩
          rw [whole, flagPositions_flag, flagPositions_behind_overlap, size]
          rfl
        · have long : 8 ≤ (bit :: noise).length := Nat.le_of_not_lt short
          have inside : (bit :: noise).take 8 = flagBits := by
            rw [← List.take_append_of_le_length long, found]
          have whole : bit :: noise = flagBits ++ (bit :: noise).drop 8 := by
            rw [← inside, List.take_append_drop]
          obtain ⟨early, later⟩ :=
            flagPositions_resync ((bit :: noise).drop 8) rest (position + 8)
          refine ⟨position :: early, ?_⟩
          rw [List.length_drop] at later
          rw [whole, List.append_assoc, flagPositions_flag, later, ← whole]
          simp only [List.cons_append]
          congr 3
          omega
      · obtain ⟨early, later⟩ := flagPositions_resync noise rest (position + 1)
        refine ⟨early, ?_⟩
        rw [List.cons_append] at found ⊢
        rw [flagPositions_skip found, later, List.length_cons]
        congr 2
        omega
termination_by noise.length
decreasing_by all_goals simp only [List.length_drop, List.length_cons]; omega

/-- The frames of a scan, split at one of its flags. -/
theorem framesAt_split (bits : Bits) (early : List Nat) (flag : Nat) (later : List Nat) :
    framesAt bits (early ++ flag :: later) =
      framesAt bits (early ++ [flag]) ++ framesAt bits (flag :: later) := by
  induction early with
  | nil => rfl
  | cons first early ih =>
      cases early with
      | nil =>
          simp only [List.cons_append, List.nil_append, framesAt]
          split
          · rfl
          · split <;> rfl
      | cons second early =>
          simp only [List.cons_append] at ih ⊢
          rw [framesAt, framesAt, ih]
          split
          · rfl
          · split <;> rfl

theorem frameBetween_stuffedFrame (nonempty : payload ≠ []) :
    frameBetween (stuffedFrame payload) = some payload := by
  have unstuffed : bitUnstuff (stuffedFrame payload) =
      some (bytesToBitsLsb (appendFcs payload)) := by
    simpa [bitUnstuff, stuffedFrame, bitStuff] using
      unstuffFrom_stuffFrom (by decide : 0 < 5) (bytesToBitsLsb (appendFcs payload)) 0
  have packed : bitsToBytesLsb (bytesToBitsLsb (appendFcs payload)) = appendFcs payload := by
    have whole := bitsToBytesLsb_append (appendFcs payload) []
    rwa [List.append_nil, show bitsToBytesLsb [] = [] from rfl, List.append_nil] at whole
  rw [frameBetween, unstuffed]
  dsimp only
  rw [packed, verifyFcs_append nonempty, take_appendFcs]
  rfl

theorem flagPositions_stuffedFrame (payload : Bytes) (rest : Bits) (position : Nat) :
    flagPositions position (stuffedFrame payload ++ (flagBits ++ rest)) =
      flagPositions (position + (stuffedFrame payload).length) (flagBits ++ rest) := by
  simpa [stuffedFrame, bitStuff] using @flagPositions_stuffed 0 rest 0 (by decide)
    (bytesToBitsLsb (appendFcs payload)) position

theorem stuffedFrame_ne_nil (payload : Bytes) : stuffedFrame payload ≠ [] := by
  intro empty
  have size := length_stuffed payload
  rw [show bitStuff (bytesToBitsLsb (appendFcs payload)) = [] from empty] at size
  simp only [appendFcs, List.length_nil, List.length_append, List.length_cons] at size
  omega

/-- Behind a flag every payload of a transmission is received. -/
theorem framesBehind_transmission {sent : List (Bytes × Nat)}
    (regular : ∀ frame ∈ sent, frame.1 ≠ [] ∧ 1 ≤ frame.2) (front : Bits) :
    framesBehind front (transmission sent) = sent.map Prod.fst := by
  induction sent generalizing front with
  | nil => exact framesBehind_nil front
  | cons frame sent ih =>
      obtain ⟨payload, flags⟩ := frame
      obtain ⟨nonempty, some⟩ := regular (payload, flags) List.mem_cons_self
      obtain ⟨others, rfl⟩ : ∃ others, flags = others + 1 := ⟨flags - 1, by omega⟩
      have later := fun front => ih (fun frame listed => regular frame (List.mem_cons_of_mem _ listed)) front
      have shape : transmission ((payload, others + 1) :: sent) =
          stuffedFrame payload ++ (flagBits ++ (idle others ++ transmission sent)) := by
        simp [transmission, idle, List.replicate_succ]
      rw [shape, framesBehind_frame (stuffedFrame_ne_nil payload)
        (flagPositions_stuffedFrame payload _), frameBetween_stuffedFrame nonempty, idle,
        framesBehind_flags, later]
      rfl

/-- Whatever noise comes first, behind two flags every payload is received. -/
theorem extract_after_noise (noise : Bits) {leading : Nat} (two : 2 ≤ leading)
    {sent : List (Bytes × Nat)} (regular : ∀ frame ∈ sent, frame.1 ≠ [] ∧ 1 ≤ frame.2) :
    sent.map Prod.fst <:+
      (extractHdlcFrames (noise ++ (idle leading ++ transmission sent))).1 := by
  obtain ⟨others, rfl⟩ : ∃ others, leading = others + 2 := ⟨leading - 2, by omega⟩
  have shape : idle (others + 2) ++ transmission sent =
      flagBits ++ (flagBits ++ (idle others ++ transmission sent)) := by
    simp [idle, List.replicate_succ]
  have size : (noise ++ flagBits).length = 0 + noise.length + 8 := by simp [flagBits]
  obtain ⟨early, found⟩ :=
    flagPositions_resync noise (idle others ++ transmission sent) 0
  have behind : framesAt (noise ++ (flagBits ++ (flagBits ++ (idle others ++ transmission sent))))
      ((0 + noise.length + 8) ::
        flagPositions (0 + noise.length + 8 + 8) (idle others ++ transmission sent)) =
      sent.map Prod.fst := by
    rw [← List.append_assoc noise flagBits, ← size]
    change framesBehind (noise ++ flagBits) (idle others ++ transmission sent) = _
    rw [idle, framesBehind_flags, framesBehind_transmission regular]
  rw [extractHdlcFrames_frames, shape, found, flagPositions_flag, framesAt_split, behind]
  exact List.suffix_append _ _

/-- The noise ends in the first seven bits of a flag. -/
theorem extract_after_half_flag :
    [[0x41], [0x42, 0x43]] <:+
      (extractHdlcFrames ([true, false, true, true, true, true, true, true] ++
        (idle 2 ++ transmission [([0x41], 1), ([0x42, 0x43], 3)]))).1 :=
  @extract_after_noise [true, false, true, true, true, true, true, true] 2 (by decide)
    [([0x41], 1), ([0x42, 0x43], 3)] (by decide)

theorem flagPositions_shift (n position : Nat) (bits : Bits) :
    flagPositions (n + position) bits = (flagPositions position bits).map (n + ·) := by
  fun_induction flagPositions position bits with
  | case1 position => rw [flagPositions]; rfl
  | case2 position bit rest found ih =>
      rw [flagPositions, if_pos found, List.map_cons, ← ih, Nat.add_assoc]
  | case3 position bit rest other ih =>
      rw [flagPositions, if_neg other, ← ih, Nat.add_assoc]

theorem flagPositions_bounds {q : Nat} (bits : Bits) (position : Nat)
    (listed : q ∈ flagPositions position bits) :
    position ≤ q ∧ q + 8 ≤ position + bits.length := by
  fun_induction flagPositions position bits with
  | case1 position => exact absurd listed List.not_mem_nil
  | case2 position bit rest found ih =>
      have long : 8 ≤ (bit :: rest).length := by
        have size := congrArg List.length found
        rw [List.length_take] at size
        simp only [flagBits, List.length_cons, List.length_nil] at size ⊢
        omega
      rcases List.mem_cons.mp listed with rfl | later
      · exact ⟨Nat.le_refl _, by omega⟩
      · have bounds := ih later
        rw [List.length_drop] at bounds
        simp only [List.length_cons] at long ⊢
        omega
  | case3 position bit rest other ih =>
      have bounds := ih listed
      simp only [List.length_cons]
      omega

/-- A stretch without a flag in it hides nothing but its last seven bits. -/
theorem flagPositions_quiet (bits rest : Bits) (position : Nat)
    (quiet : flagPositions position bits = []) :
    flagPositions position (bits ++ rest) =
      flagPositions (position + (bits.length - 7)) (lastBits 7 bits ++ rest) := by
  fun_induction flagPositions position bits with
  | case1 position => rfl
  | case2 position bit bits found ih => cases quiet
  | case3 position bit bits other ih =>
      by_cases short : bits.length < 7
      · have size : (bit :: bits).length - 7 = 0 := by
          simp only [List.length_cons]
          omega
        rw [lastBits, size]
        rfl
      · have same : (bit :: (bits ++ rest)).take 8 = (bit :: bits).take 8 := by
          rw [← List.cons_append, List.take_append_of_le_length]
          simp only [List.length_cons]
          omega
        have tail : lastBits 7 (bit :: bits) = lastBits 7 bits := by
          have size : (bit :: bits).length - 7 = (bits.length - 7) + 1 := by
            simp only [List.length_cons]
            omega
          rw [lastBits, lastBits, size, List.drop_succ_cons]
        rw [List.cons_append, flagPositions_skip (same ▸ other), ih quiet, tail]
        congr 1
        simp only [List.length_cons]
        omega

/-- From a flag of a scan on, the scan of a longer stream is a scan of its own. -/
theorem flagPositions_found {early later : List Nat} {found : Nat} (bits : Bits) (position : Nat)
    (scan : flagPositions position bits = early ++ found :: later) :
    ∃ front back, bits = front ++ (flagBits ++ back) ∧ found = position + front.length ∧
      later = flagPositions (found + 8) back ∧
      ∀ rest, flagPositions position (bits ++ rest) =
        early ++ flagPositions found (flagBits ++ (back ++ rest)) := by
  fun_induction flagPositions position bits generalizing early with
  | case1 position => simp at scan
  | case2 position bit bits here ih =>
      have whole : bit :: bits = flagBits ++ bits.drop 7 := by
        rw [← here]
        exact (List.take_append_drop 8 (bit :: bits)).symm
      cases early with
      | nil =>
          rw [List.nil_append, List.cons.injEq] at scan
          obtain ⟨rfl, rfl⟩ := scan
          refine ⟨[], bits.drop 7, whole, rfl, rfl, fun rest => ?_⟩
          rw [whole, List.append_assoc]
          rfl
      | cons first early =>
          rw [List.cons_append, List.cons.injEq] at scan
          obtain ⟨rfl, scan⟩ := scan
          obtain ⟨front, back, shape, place, last, longer⟩ := ih scan
          refine ⟨flagBits ++ front, back, ?_, ?_, last, fun rest => ?_⟩
          · rw [whole, shape, List.append_assoc]
          · rw [place]
            simp only [flagBits, List.length_append, List.length_cons, List.length_nil]
            omega
          · rw [whole, List.append_assoc, flagPositions_flag, longer rest]
            rfl
  | case3 position bit bits other ih =>
      obtain ⟨front, back, shape, place, last, longer⟩ := ih scan
      refine ⟨bit :: front, back, by rw [shape]; rfl, ?_, last, fun rest => ?_⟩
      · rw [place, List.length_cons]
        omega
      · have long : 8 ≤ (bit :: bits).length := by
          rw [shape]
          simp only [flagBits, List.length_append, List.length_cons]
          omega
        have same : (bit :: (bits ++ rest)).take 8 = (bit :: bits).take 8 := by
          rw [← List.cons_append, List.take_append_of_le_length long]
        rw [List.cons_append, flagPositions_skip (same ▸ other), longer rest]

/-- The frames at moved positions, where the bits between them are the same. -/
theorem framesAt_move {bits other : Bits} {positions : List Nat} (move : Nat → Nat)
    (slices : ∀ start ∈ positions, ∀ finish ∈ positions,
      (other.drop (move start + 8)).take (move finish - (move start + 8)) =
        (bits.drop (start + 8)).take (finish - (start + 8))) :
    framesAt other (positions.map move) = framesAt bits positions := by
  induction positions with
  | nil => rfl
  | cons start positions ih =>
      cases positions with
      | nil => rfl
      | cons finish positions =>
          have slice := slices start List.mem_cons_self finish
            (List.mem_cons_of_mem _ List.mem_cons_self)
          have later := ih fun q listed r among =>
            slices q (List.mem_cons_of_mem _ listed) r (List.mem_cons_of_mem _ among)
          simp only [List.map_cons] at later ⊢
          rw [framesAt, framesAt, slice, later]

theorem framesAt_shift (front bits : Bits) (positions : List Nat) :
    framesAt (front ++ bits) (positions.map (front.length + ·)) = framesAt bits positions := by
  refine framesAt_move (front.length + ·) fun start _ finish _ => ?_
  rw [Nat.add_assoc, List.drop_append, List.drop_eq_nil_of_le (Nat.le_add_right _ _),
    List.nil_append]
  congr 1
  · omega
  · congr 1
    omega

/-- The frames that a scan finds lie inside the bits it has seen. -/
theorem framesAt_longer (rest : Bits) {positions : List Nat}
    (inside : ∀ q ∈ positions, q ≤ bits.length) :
    framesAt (bits ++ rest) positions = framesAt bits positions := by
  have same := @framesAt_move bits (bits ++ rest) positions id fun start _ finish listed => by
    have within := inside finish listed
    by_cases early : start + 8 ≤ bits.length
    · rw [id, id, List.drop_append_of_le_length early, List.take_append_of_le_length]
      rw [List.length_drop]
      omega
    · rw [id, id, show finish - (start + 8) = 0 by omega, List.take_zero, List.take_zero]
  rwa [List.map_id] at same

/-- A scan that starts late finds what a scan of the tail finds. -/
theorem framesAt_tail (front bits : Bits) :
    framesAt (front ++ bits) (flagPositions front.length bits) = (extractHdlcFrames bits).1 := by
  have shifted := flagPositions_shift front.length 0 bits
  rw [Nat.add_zero] at shifted
  rw [shifted, framesAt_shift, extractHdlcFrames_frames]

theorem spaced_tail {positions : List Nat} (front bits : Bits)
    (spaced : (positions ++ flagPositions front.length bits).IsChain
      fun start next => next ≤ start + 8184) : Spaced bits := by
  have shifted := flagPositions_shift front.length 0 bits
  rw [Nat.add_zero] at shifted
  have tail := spaced.right_of_append
  rw [shifted, List.isChain_map] at tail
  refine tail.imp fun start next close => ?_
  omega

theorem lastBits_split (n : Nat) (bits : Bits) :
    bits = bits.take (bits.length - n) ++ lastBits n bits :=
  (List.take_append_drop _ bits).symm

theorem remainder_quiet (quiet : flagPositions 0 bits = []) :
    (extractHdlcFrames bits).2 = bits ∨ (extractHdlcFrames bits).2 = lastBits 7 bits := by
  rw [extractHdlcFrames, quiet]
  dsimp only
  split
  · exact Or.inr rfl
  · exact Or.inl rfl

/-- The remainder starts at the last flag, unless this flag is the only one and too
far back. -/
theorem remainder_flag {early : List Nat} {last : Nat}
    (scan : flagPositions 0 bits = early ++ [last]) :
    (extractHdlcFrames bits).2 = bits.drop last ∨
      early = [] ∧ 8192 < bits.length - last ∧ (extractHdlcFrames bits).2 = lastBits 7 bits := by
  cases early with
  | nil =>
      rw [extractHdlcFrames, scan]
      dsimp only [List.nil_append]
      rw [List.length_drop]
      split
      · rename_i long
        exact Or.inr ⟨rfl, long, rfl⟩
      · exact Or.inl rfl
  | cons first early =>
      left
      have final : (first :: early ++ [last]).getLastD 0 = last := List.getLastD_concat
      rw [extractHdlcFrames, scan]
      cases early with
      | nil => rfl
      | cons second early => exact congrArg (bits.drop ·) final

/-- Once the last seven bits are all that is kept, a scan of the stream from there on
is a scan of the remainder. -/
theorem extract_cut {positions : List Nat}
    (later : positions = flagPositions (bits.length - 7) (lastBits 7 bits ++ rest))
    (spaced : positions.IsChain fun start next => next ≤ start + 8184) :
    framesAt (bits ++ rest) positions = (extractHdlcFrames (lastBits 7 bits ++ rest)).1 ∧
      Spaced (lastBits 7 bits ++ rest) := by
  have size : (bits.take (bits.length - 7)).length = bits.length - 7 := by
    rw [List.length_take]
    omega
  have whole : bits ++ rest = bits.take (bits.length - 7) ++ (lastBits 7 bits ++ rest) := by
    rw [← List.append_assoc, ← lastBits_split]
  rw [← size] at later
  rw [later] at spaced ⊢
  refine ⟨?_, @spaced_tail [] _ _ spaced⟩
  rw [whole]
  exact framesAt_tail _ _

/-- What one call hands on for the next one. -/
def HandedOn (bits rest : Bits) : Prop :=
  (extractHdlcFrames (bits ++ rest)).1 =
      (extractHdlcFrames bits).1 ++ (extractHdlcFrames ((extractHdlcFrames bits).2 ++ rest)).1 ∧
    Spaced ((extractHdlcFrames bits).2 ++ rest)

theorem handedOn_quiet (quiet : flagPositions 0 bits = []) (spaced : Spaced (bits ++ rest)) :
    HandedOn bits rest := by
  have received : (extractHdlcFrames bits).1 = [] := by
    rw [extractHdlcFrames_frames, quiet]
    rfl
  rw [HandedOn, received, List.nil_append]
  rcases remainder_quiet quiet with kept | cut
  · rw [kept]
    exact ⟨rfl, spaced⟩
  · have later := flagPositions_quiet bits rest 0 quiet
    rw [Nat.zero_add] at later
    rw [cut, extractHdlcFrames_frames (bits ++ rest)]
    exact extract_cut later spaced

/-- The remainder from the last flag on is scanned as the stream is from there on. -/
theorem handedOn_flag {early : List Nat} (scan : flagPositions 0 bits = early ++ [front.length])
    (shape : bits = front ++ (flagBits ++ back))
    (kept : (extractHdlcFrames bits).2 = bits.drop front.length)
    (longer : flagPositions 0 (bits ++ rest) =
      early ++ flagPositions front.length (flagBits ++ (back ++ rest)))
    (spaced : Spaced (bits ++ rest)) : HandedOn bits rest := by
  have split : bits.drop front.length = flagBits ++ back := by
    rw [shape, List.drop_left]
  have inside : ∀ q ∈ early ++ [front.length], q ≤ bits.length := by
    intro q listed
    have bounds := flagPositions_bounds bits 0 (scan ▸ listed)
    omega
  have joined : bits ++ rest = front ++ (flagBits ++ (back ++ rest)) := by
    rw [shape, List.append_assoc, List.append_assoc]
  have received : (extractHdlcFrames bits).1 = framesAt (bits ++ rest) (early ++ [front.length]) := by
    rw [extractHdlcFrames_frames, scan, framesAt_longer rest inside]
  have later : (extractHdlcFrames (flagBits ++ (back ++ rest))).1 =
      framesAt (bits ++ rest) (front.length :: flagPositions (front.length + 8) (back ++ rest)) := by
    rw [← framesAt_tail front, flagPositions_flag, ← joined]
  rw [HandedOn, kept, split, List.append_assoc, later, received, ← framesAt_split,
    extractHdlcFrames_frames, longer, flagPositions_flag]
  rw [Spaced, longer] at spaced
  exact ⟨rfl, spaced_tail front _ spaced⟩

/-- A lone flag that the next one would have followed by now was the last one. -/
theorem handedOn_lost (shape : bits = front ++ (flagBits ++ back))
    (scan : flagPositions 0 bits = [front.length])
    (long : 8192 < bits.length - front.length)
    (cut : (extractHdlcFrames bits).2 = lastBits 7 bits)
    (quiet : flagPositions (front.length + 8) back = [])
    (longer : flagPositions 0 (bits ++ rest) =
      flagPositions front.length (flagBits ++ (back ++ rest)))
    (spaced : Spaced (bits ++ rest)) : HandedOn bits rest := by
  have size : bits.length = front.length + 8 + back.length := by
    rw [shape, List.length_append, List.length_append, ← Nat.add_assoc]
    rfl
  have tail : lastBits 7 back = lastBits 7 bits := by
    have place : bits.length - 7 = (front ++ flagBits).length + (back.length - 7) := by
      rw [List.length_append, show flagBits.length = 8 from rfl]
      omega
    rw [lastBits, lastBits, place, shape, ← List.append_assoc, ← List.drop_drop, List.drop_left]
  have later := flagPositions_quiet back rest (front.length + 8) quiet
  rw [tail, show front.length + 8 + (back.length - 7) = bits.length - 7 by omega] at later
  rw [flagPositions_flag, later] at longer
  have received : (extractHdlcFrames bits).1 = [] := by
    rw [extractHdlcFrames_frames, scan]
    rfl
  rw [Spaced, longer] at spaced
  cases found : flagPositions (bits.length - 7) (lastBits 7 bits ++ rest) with
  | nil =>
      obtain ⟨none, fresh⟩ := extract_cut found.symm List.IsChain.nil
      rw [HandedOn, received, cut, extractHdlcFrames_frames (bits ++ rest), longer, found, ← none]
      exact ⟨rfl, fresh⟩
  | cons next others =>
      rw [found] at spaced
      have close := (List.isChain_cons_cons.mp spaced).1
      have bounds := flagPositions_bounds _ _ (found ▸ List.mem_cons_self)
      omega

/-- One call keeps in its remainder what the scan of the whole stream needs. -/
theorem extract_resumes : Resumes extractHdlcFrames Spaced := by
  intro bits rest spaced
  rcases List.eq_nil_or_concat (flagPositions 0 bits) with quiet | ⟨early, last, scan⟩
  · exact handedOn_quiet quiet spaced
  · rw [List.concat_eq_append] at scan
    obtain ⟨front, back, shape, place, silent, longer⟩ := flagPositions_found bits 0 scan
    rw [Nat.zero_add] at place
    subst place
    rcases remainder_flag scan with kept | ⟨rfl, long, cut⟩
    · exact handedOn_flag scan shape kept (longer rest) spaced
    · exact handedOn_lost shape scan long cut silent.symm (longer rest) spaced

theorem extract_nil : (extractHdlcFrames []).1 = [] := by
  rw [extractHdlcFrames_frames, flagPositions]
  rfl

/-- However a stream is cut into blocks, its payloads are those of one call. -/
theorem feedBlocks_eq_extract {blocks : List Bits} (spaced : Spaced blocks.flatten) :
    feedBlocks [] blocks = (extractHdlcFrames blocks.flatten).1 :=
  extract_resumes.drain_eq extract_nil spaced

/-- A frame whose first flag is cut. -/
def halves : List Bits :=
  [(flagBits ++ (stuffedFrame [0x41] ++ flagBits)).take 5,
    (flagBits ++ (stuffedFrame [0x41] ++ flagBits)).drop 5]

theorem halves_spaced : Spaced halves.flatten := by
  have whole : halves.flatten = flagBits ++ (stuffedFrame [0x41] ++ (flagBits ++ [])) := by
    simp only [halves, List.flatten_cons, List.flatten_nil, List.append_nil, List.take_append_drop]
  have scan : flagPositions 0 halves.flatten = [0, 0 + 8 + (stuffedFrame [0x41]).length] := by
    rw [whole, flagPositions_flag, flagPositions_stuffedFrame, flagPositions_flag, flagPositions]
  rw [Spaced, scan]
  exact List.isChain_pair.mpr (by decide +kernel)

theorem feedBlocks_halves : feedBlocks [] halves = (extractHdlcFrames halves.flatten).1 :=
  feedBlocks_eq_extract halves_spaced

namespace Bell202Demodulator

theorem nrziDecode_append (initial : Bool) (levels later : Bits) :
    nrziDecode initial (levels ++ later) =
      nrziDecode initial levels ++ nrziDecode (levels.getLastD initial) later := by
  induction levels generalizing initial with
  | nil => rfl
  | cons level levels ih =>
      rw [List.cons_append, nrziDecode, nrziDecode, ih, List.getLastD_cons, List.cons_append]

/-- Calls without a symbol are no calls of `extract_hdlc_frames`. -/
theorem feedAll_eq_feedBlocks (demodulator : Bell202Demodulator) (blocks : List Bits) :
    ∃ decoded, decoded.flatten = nrziDecode demodulator.lastLevel blocks.flatten ∧
      demodulator.feedAll blocks = feedBlocks demodulator.rawBits decoded := by
  induction blocks generalizing demodulator with
  | nil => exact ⟨[], rfl, rfl⟩
  | cons levels blocks ih =>
      obtain ⟨decoded, bits, same⟩ := ih (demodulator.feedLevels levels).2
      by_cases none : levels = []
      · rw [feedLevels, if_pos none] at bits same
        refine ⟨decoded, by rw [bits, none]; rfl, ?_⟩
        rw [feedAll, feedLevels, if_pos none]
        exact same
      · refine ⟨nrziDecode demodulator.lastLevel levels :: decoded, ?_, ?_⟩
        · rw [List.flatten_cons, List.flatten_cons, nrziDecode_append, bits, feedLevels, if_neg none]
        · rw [feedAll, feedBlocks, drain]
          dsimp only
          rw [same, feedLevels, if_neg none]
          rfl

/-- A new demodulator receives from blocks of levels what one call makes of all. -/
theorem feedAll_eq_extract {blocks : List Bits}
    (spaced : Spaced (nrziDecode true blocks.flatten)) :
    ({} : Bell202Demodulator).feedAll blocks =
      (extractHdlcFrames (nrziDecode true blocks.flatten)).1 := by
  obtain ⟨decoded, bits, same⟩ := feedAll_eq_feedBlocks {} blocks
  rw [same, ← bits]
  exact extract_resumes.drain_eq extract_nil (bits ▸ spaced)

end Bell202Demodulator

end PyBulletin.Ax25.Hdlc
