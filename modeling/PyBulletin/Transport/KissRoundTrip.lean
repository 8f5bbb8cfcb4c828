import PyBulletin.Transport.Kiss

set_option autoImplicit false

namespace PyBulletin.Transport.Kiss

open PyBulletin.Foundation
open Receiver

/-! # Frames encoded and decoded

The type byte is not escaped.  On port 12 the type byte of a data frame is FEND.
-/

variable {data : Bytes} {port cmd : UInt8}

def typeByteOf (port cmd : UInt8) : UInt8 := ((port &&& 0x0F) <<< 4) ||| (cmd &&& 0x0F)

/-- The bytes written for some frames. -/
def written (frames : List Frame) : Bytes :=
  frames.flatMap fun (port, cmd, data) => encode data port cmd

/-- A data frame for port 12. -/
def Swallowed (frame : Frame) : Prop := frame.1 = 12 ∧ frame.2.1 = 0

instance (frame : Frame) : Decidable (Swallowed frame) := inferInstanceAs (Decidable (_ ∧ _))

theorem of_nibbles {p : UInt8 → UInt8 → Prop} (port_ : port < 16) (cmd_ : cmd < 16)
    (all : ∀ k l : Fin 16, p (UInt8.ofNat k) (UInt8.ofNat l)) : p port cmd := by
  have value := all ⟨port.toNat, UInt8.lt_iff_toNat_lt.mp port_⟩
    ⟨cmd.toNat, UInt8.lt_iff_toNat_lt.mp cmd_⟩
  rwa [UInt8.ofNat_toNat, UInt8.ofNat_toNat] at value

theorem typeByteOf_port (port_ : port < 16) (cmd_ : cmd < 16) :
    (typeByteOf port cmd >>> 4) &&& 0x0F = port ∧ typeByteOf port cmd &&& 0x0F = cmd :=
  @of_nibbles port cmd
    (fun port cmd => (typeByteOf port cmd >>> 4) &&& 0x0F = port ∧ typeByteOf port cmd &&& 0x0F = cmd)
    port_ cmd_ (by decide +kernel)

theorem typeByteOf_eq_fend (port_ : port < 16) (cmd_ : cmd < 16) :
    typeByteOf port cmd = fend ↔ port = 12 ∧ cmd = 0 :=
  @of_nibbles port cmd (fun port cmd => typeByteOf port cmd = fend ↔ port = 12 ∧ cmd = 0)
    port_ cmd_ (by decide +kernel)

theorem eq_fend_of_swallowed {typeByte : UInt8} (port_ : (typeByte >>> 4) &&& 0x0F = 12)
    (cmd_ : typeByte &&& 0x0F = 0) : typeByte = fend := by
  have all : ∀ k : Fin 256, (UInt8.ofNat k >>> 4) &&& 0x0F = 12 → UInt8.ofNat k &&& 0x0F = 0 →
      UInt8.ofNat k = fend := by
    decide +kernel
  have value := all ⟨typeByte.toNat, typeByte.toNat_lt⟩
  rw [UInt8.ofNat_toNat] at value
  exact value port_ cmd_

theorem fend_not_mem_escape (data : Bytes) : fend ∉ escape data := by
  induction data with
  | nil => exact List.not_mem_nil
  | cons b data ih =>
      rw [escape]
      split
      · simp only [List.mem_cons, not_or]
        exact ⟨by decide, by decide, ih⟩
      · rename_i other
        split
        · simp only [List.mem_cons, not_or]
          exact ⟨by decide, by decide, ih⟩
        · simp only [List.mem_cons, not_or]
          exact ⟨Ne.symm other, ih⟩

theorem unescape_escape (data : Bytes) : unescape (escape data) = some data := by
  have apart : tfesc ≠ tfend := by decide
  induction data with
  | nil => rfl
  | cons b data ih =>
      rw [escape]
      split
      · rename_i same
        simp [unescape, ih, same]
      · rename_i other
        split
        · rename_i same
          simp [unescape, ih, same, apart]
        · rename_i plain
          rw [unescape.eq_def]
          simp [ih, other, plain]

/-- A frame whose type byte is no FEND is read as it was written. -/
theorem decodeStream_encode (port_ : port < 16) (cmd_ : cmd < 16)
    (kept : ¬ (port = 12 ∧ cmd = 0)) (data rest : Bytes) :
    decodeStream (encode data port cmd ++ rest) =
      ((port, cmd, data) :: (decodeStream rest).1, (decodeStream rest).2) := by
  have typed : typeByteOf port cmd ≠ fend := fun same =>
    kept ((typeByteOf_eq_fend port_ cmd_).mp same)
  have clean : ∀ b ∈ escape data, decide (b ≠ fend) = true := by
    intro b listed
    simpa using fun same : b = fend => fend_not_mem_escape data (same ▸ listed)
  have shape : encode data port cmd ++ rest =
      fend :: typeByteOf port cmd :: (escape data ++ fend :: rest) := by
    simp [encode, typeByteOf]
  have found : (encode data port cmd ++ rest).dropWhile (· ≠ fend) =
      fend :: typeByteOf port cmd :: (escape data ++ fend :: rest) := by
    rw [shape, List.dropWhile_cons_of_neg (by simp)]
  have opened : ((encode data port cmd ++ rest).dropWhile (· ≠ fend)).dropWhile (· = fend) =
      typeByteOf port cmd :: (escape data ++ fend :: rest) := by
    rw [found, List.dropWhile_cons_of_pos (by simp), List.dropWhile_cons_of_neg (by simpa using typed)]
  have closed : (escape data ++ fend :: rest).dropWhile (· ≠ fend) = fend :: rest := by
    rw [List.dropWhile_append_of_pos clean, List.dropWhile_cons_of_neg (by simp)]
  have content : (escape data ++ fend :: rest).takeWhile (· ≠ fend) = escape data := by
    rw [List.takeWhile_append_of_pos clean, List.takeWhile_cons_of_neg (by simp), List.append_nil]
  obtain ⟨first, last⟩ := typeByteOf_port port_ cmd_
  rw [decodeStream_complete found opened closed, content, frameOf, unescape_escape, first, last]
  rfl

/-- No frame that is read is a data frame for port 12. -/
theorem not_swallowed_of_yield {receiver : Receiver} (valid : receiver.Valid) (stream : Bytes) :
    ∀ frame ∈ (receiver.run stream).2, ¬ Swallowed frame := by
  induction stream generalizing receiver with
  | nil => exact fun frame listed => absurd listed List.not_mem_nil
  | cons b stream ih =>
      intro frame listed
      rcases List.mem_append.mp listed with now | later
      · cases receiver with
        | hunting =>
            rw [feed] at now
            split at now <;> cases now
        | opened =>
            rw [feed] at now
            split at now <;> cases now
        | inside typeByte raw =>
            rw [feed] at now
            split at now
            · rw [frameOf] at now
              split at now
              · cases now
              · rw [List.mem_singleton.mp now]
                exact fun swallowed => valid.1 (eq_fend_of_swallowed swallowed.1 swallowed.2)
            · cases now
      · have next : (receiver.feed b).1.Valid := by
          cases receiver with
          | hunting => rw [feed]; split <;> trivial
          | opened =>
              rw [feed]
              split
              · trivial
              · rename_i other
                exact ⟨other, List.not_mem_nil⟩
          | inside typeByte raw =>
              rw [feed]
              split
              · trivial
              · rename_i other
                refine ⟨valid.1, ?_⟩
                simp only [List.mem_append, List.mem_singleton, not_or]
                exact ⟨valid.2, Ne.symm other⟩
        exact ih next frame later

/-- A stream of frames is read back, with nothing left in the buffer, exactly where none of
them is a data frame for port 12. -/
theorem decodeStream_written_iff {frames : List Frame}
    (ranges : ∀ frame ∈ frames, frame.1 < 16 ∧ frame.2.1 < 16) :
    decodeStream (written frames) = (frames, []) ↔ ∀ frame ∈ frames, ¬ Swallowed frame := by
  constructor
  · intro same frame listed
    have yielded : frame ∈ (hunting.run (written frames)).2 := by
      rw [← decodeStream_frames, same]
      exact listed
    exact @not_swallowed_of_yield hunting trivial _ frame yielded
  · intro kept
    induction frames with
    | nil =>
        rw [written, List.flatMap_nil]
        exact decodeStream_noFend rfl
    | cons frame frames ih =>
        obtain ⟨port, cmd, data⟩ := frame
        have first := ranges (port, cmd, data) List.mem_cons_self
        have rest := ih (fun frame listed => ranges frame (List.mem_cons_of_mem _ listed))
          fun frame listed => kept frame (List.mem_cons_of_mem _ listed)
        have parts : written ((port, cmd, data) :: frames) =
            encode data port cmd ++ written frames := rfl
        rw [parts, decodeStream_encode first.1 first.2 (kept _ List.mem_cons_self), rest]

theorem two_frames_read_back :
    decodeStream (written [(12, 1, [0xC0, 0xDB]), (15, 0, [])]) =
      ([(12, 1, [0xC0, 0xDB]), (15, 0, [])], []) :=
  (decodeStream_written_iff (by decide)).mpr (by decide)

/-- The frame is read as one for port 4, with its first byte as type byte. -/
theorem data_for_port_twelve_is_lost :
    ¬ ∀ frames : List Frame, (∀ frame ∈ frames, frame.1 < 16 ∧ frame.2.1 < 16) →
      decodeStream (written frames) = (frames, []) := by
  intro same
  have lost := (decodeStream_written_iff (by decide)).mp (same [(12, 0, [0x41, 0x42])] (by decide))
  exact lost _ List.mem_cons_self ⟨rfl, rfl⟩

end PyBulletin.Transport.Kiss
