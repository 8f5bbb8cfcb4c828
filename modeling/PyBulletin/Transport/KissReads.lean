import PyBulletin.Transport.KissRoundTrip

set_option autoImplicit false

namespace PyBulletin.Transport.Kiss

open PyBulletin.Foundation
open Receiver

/-! # Reading a stream of frames in pieces

A read starts with an empty frame, so a frame that is cut by the end of a read is lost; the
next frame is read again.
-/

/-- The bytes that are left of a frame once its first bytes have been read. -/
def Rest (bytes : Bytes) : Prop := bytes = [] ∨ ∃ garbage, fend ∉ garbage ∧ bytes = garbage ++ [fend]

/-- Frames a receiver tells apart. -/
structure Framed (frame : Frame) : Prop where
  port : frame.1 < 16
  cmd : frame.2.1 < 16
  kept : ¬ Swallowed frame

variable {frame : Frame} {frames : List Frame} {bytes : Bytes}

/-- The bytes of a frame between its FENDs. -/
theorem encode_shape (framed : Framed frame) :
    ∃ content, fend ∉ content ∧ encode frame.2.2 frame.1 frame.2.1 = fend :: (content ++ [fend]) ∧
      ∀ receiver, receiver = hunting ∨ receiver = opened →
        receiver.run (fend :: (content ++ [fend])) = (hunting, [frame]) ∧
          ∀ count, count ≤ content.length →
            (receiver.run (fend :: content.take count)).2 = [] := by
  obtain ⟨port, cmd, data⟩ := frame
  have typed : typeByteOf port cmd ≠ fend := fun same =>
    framed.kept ((typeByteOf_eq_fend framed.port framed.cmd).mp same)
  have clean := fend_not_mem_escape data
  obtain ⟨first, last⟩ := typeByteOf_port framed.port framed.cmd
  refine ⟨typeByteOf port cmd :: escape data, ?_, by simp [encode, typeByteOf], ?_⟩
  · simp only [List.mem_cons, not_or]
    exact ⟨typed.symm, clean⟩
  · intro receiver state
    constructor
    · rcases state with rfl | rfl
      all_goals
        simp [Receiver.run, feed, typed, run_append, run_inside clean, frameOf, unescape_escape, first,
          last]
    · intro count _
      cases count with
      | zero => rcases state with rfl | rfl <;> rfl
      | succ count =>
          have some_clean : fend ∉ (escape data).take count :=
            fun listed => clean (List.mem_of_mem_take listed)
          rcases state with rfl | rfl <;>
            simp [Receiver.run, feed, typed, run_inside some_clean]

/-- What a read does to the frames of a stream: those read, at most one that is cut, and
those still in the stream behind the rest of the cut one. -/
structure Cut (frames : List Frame) (bytes : Bytes) (read lost later : List Frame) (rest : Bytes) :
    Prop where
  split : frames = read ++ (lost ++ later)
  one : lost.length ≤ 1
  partial_ : Rest rest
  left : bytes = rest ++ written later

theorem Rest.drop {rest : Bytes} (partial_ : Rest rest) (count : Nat) : Rest (rest.drop count) := by
  rcases partial_ with rfl | ⟨garbage, clean, rfl⟩
  · exact .inl List.drop_nil
  · rcases Nat.lt_or_ge garbage.length count with beyond | within
    · refine .inl (List.drop_eq_nil_iff.mpr ?_)
      simp only [List.length_append, List.length_singleton]
      omega
    · rw [List.drop_append_of_le_length within]
      exact .inr ⟨_, fun listed => clean (List.mem_of_mem_drop listed), rfl⟩

/-- The rest of a cut frame yields nothing. -/
theorem run_rest {rest : Bytes} (partial_ : Rest rest) :
    ∃ receiver, (receiver = hunting ∨ receiver = opened) ∧ hunting.run rest = (receiver, []) := by
  rcases partial_ with rfl | ⟨garbage, clean, rfl⟩
  · exact ⟨hunting, .inl rfl, rfl⟩
  · refine ⟨opened, .inr rfl, ?_⟩
    rw [run_append, run_hunting clean]
    rfl

theorem take_rest_silent {rest : Bytes} (partial_ : Rest rest) (count : Nat) :
    (hunting.run (rest.take count)).2 = [] := by
  obtain ⟨receiver, _, silent⟩ := run_rest partial_
  have whole := run_append hunting (rest.take count) (rest.drop count)
  rw [List.take_append_drop, silent] at whole
  exact (List.append_eq_nil_iff.mp (congrArg Prod.snd whole).symm).1

theorem written_cut (framed : ∀ frame ∈ frames, Framed frame) {receiver : Receiver}
    (state : receiver = hunting ∨ receiver = opened) (count : Nat) :
    ∃ read lost later rest, Cut frames ((written frames).drop count) read lost later rest ∧
      (receiver.run ((written frames).take count)).2 = read := by
  induction frames generalizing receiver count with
  | nil =>
      exact ⟨[], [], [], [], ⟨rfl, by simp, .inl rfl, by simp [written]⟩,
        by simp [written, Receiver.run]⟩
  | cons frame frames ih =>
      obtain ⟨content, clean, shape, reads⟩ := encode_shape (framed frame (by simp))
      obtain ⟨whole, part⟩ := reads receiver state
      have parts : written (frame :: frames) = encode frame.2.2 frame.1 frame.2.1 ++ written frames :=
        rfl
      have length : (encode frame.2.2 frame.1 frame.2.1).length = content.length + 2 := by
        simp [shape]
      rcases Nat.lt_or_ge count (content.length + 2) with inside | beyond
      · cases count with
        | zero =>
            exact ⟨[], [], frame :: frames, [], ⟨rfl, by simp, .inl rfl, by simp⟩,
              by simp [Receiver.run]⟩
        | succ count =>
            refine ⟨[], [frame], frames, content.drop count ++ [fend], ⟨rfl, by simp, ?_, ?_⟩, ?_⟩
            · exact .inr ⟨_, fun listed => clean (List.mem_of_mem_drop listed), rfl⟩
            · rw [parts, shape, List.cons_append, List.drop_succ_cons, List.append_assoc,
                List.drop_append_of_le_length (by omega), List.append_assoc]
            · rw [parts, shape, List.cons_append, List.take_succ_cons, List.append_assoc,
                List.take_append_of_le_length (by omega)]
              exact part count (by omega)
      · obtain ⟨read, lost, later, rest, cut, yields⟩ :=
          ih (fun other listed => framed other (by simp [listed])) (.inl rfl)
            (count - (content.length + 2))
        refine ⟨frame :: read, lost, later, rest, ⟨?_, cut.one, cut.partial_, ?_⟩, ?_⟩
        · rw [cut.split]
          rfl
        · rw [parts, List.drop_append, length, List.drop_eq_nil_of_le (by omega), List.nil_append]
          exact cut.left
        · rw [parts, List.take_append, length, List.take_of_length_le (by omega), run_append, shape,
            whole, yields]
          rfl

/-- One read of a stream takes some frames off its front and loses at most the next one. -/
theorem read_cut {left : Bytes} (partial_ : Rest left) (framed : ∀ frame ∈ frames, Framed frame)
    (count : Nat) :
    ∃ read lost later rest, Cut frames ((left ++ written frames).drop count) read lost later rest ∧
      (hunting.run ((left ++ written frames).take count)).2 = read := by
  rcases Nat.lt_or_ge left.length count with beyond | within
  · obtain ⟨receiver, state, silent⟩ := run_rest partial_
    obtain ⟨read, lost, later, rest, cut, yields⟩ := written_cut framed state (count - left.length)
    refine ⟨read, lost, later, rest, ?_, ?_⟩
    · rw [List.drop_append, List.drop_eq_nil_of_le (by omega), List.nil_append]
      exact cut
    · rw [List.take_append, List.take_of_length_le (by omega), run_append, silent]
      exact yields
  · refine ⟨[], [], frames, left.drop count, ⟨rfl, by simp, partial_.drop count, ?_⟩, ?_⟩
    · rw [List.drop_append_of_le_length within]
    · rw [List.take_append_of_le_length within]
      exact take_rest_silent partial_ count

/-- The buffer of a read loop holds no FEND, and what it holds is thrown away. -/
theorem decodeStream_clean {buf : Bytes} (clean : fend ∉ buf) (chunk : Bytes) :
    (decodeStream (buf ++ chunk)).1 = (hunting.run chunk).2 ∧
      fend ∉ (decodeStream (buf ++ chunk)).2 := by
  refine ⟨?_, fend_not_mem_left _⟩
  rw [decodeStream_frames, run_append, run_hunting clean]
  rfl

theorem run_one (framed : Framed frame) : (hunting.run (written [frame])).2 = [frame] := by
  obtain ⟨content, _, shape, whole⟩ := encode_shape framed
  have bytes : written [frame] = encode frame.2.2 frame.1 frame.2.1 := List.append_nil _
  rw [bytes, shape, (whole hunting (.inl rfl)).1]

end PyBulletin.Transport.Kiss
