import PyBulletin.Foundation.Chunks
import PyBulletin.Foundation.Text

set_option autoImplicit false

namespace PyBulletin.Transport.Pactor

open PyBulletin.Foundation

/-! # HOST mode frames of a PACTOR modem

The payload is not escaped: the decoder finds the end of a frame by its length byte.
-/

def hostMark : UInt8 := 0xAA
def statusData : Int := 0x02

structure PactorHostFrame where
  channel : Int
  status : Int
  payload : Bytes := []
deriving DecidableEq, Repr

/-- `encode_host_frame` with the texts of its `ValueError`s. -/
def encodeHostFrame (channel status : Int) (payload : Bytes) : Except String Bytes :=
  if ¬ (0 ≤ channel ∧ channel ≤ 255) then .error "HOST channel must be between 0 and 255"
  else if ¬ (0 ≤ status ∧ status ≤ 255) then .error "HOST status must be between 0 and 255"
  else if payload.length > 255 then .error "HOST payload cannot exceed 255 bytes"
  else
    .ok ([hostMark, UInt8.ofNat channel.toNat, UInt8.ofNat status.toNat,
      UInt8.ofNat payload.length] ++ payload)

/-- The frame at the start of a buffer, and the bytes behind it; `none` when it is not
complete. -/
def takeFrame : Bytes → Option (PactorHostFrame × Bytes)
  | _ :: channel :: status :: length :: body =>
      if body.length < length.toNat then none
      else some ({ channel := channel.toNat, status := status.toNat,
                   payload := body.take length.toNat }, body.drop length.toNat)
  | _ => none

variable {buf front back rest : Bytes} {frame : PactorHostFrame}

theorem takeFrame_shorter (taken : takeFrame buf = some (frame, rest)) :
    rest.length < buf.length := by
  match buf, taken with
  | _ :: _ :: _ :: _ :: body, taken =>
      rw [takeFrame] at taken
      split at taken
      · cases taken
      · cases taken
        simp only [List.length_drop, List.length_cons]
        omega

/-- `decode_host_stream`: the frames, and what is left in the buffer.  Without a
marker nothing is left. -/
def decodeHostStream (buf : Bytes) : List PactorHostFrame × Bytes :=
  match _taken : takeFrame (buf.dropWhile (· ≠ hostMark)) with
  | none => ([], buf.dropWhile (· ≠ hostMark))
  | some (frame, rest) =>
      let (frames, left) := decodeHostStream rest
      (frame :: frames, left)
termination_by buf.length
decreasing_by
  have shorter := takeFrame_shorter _taken
  have dropped := (List.dropWhile_sublist (l := buf) (· ≠ hostMark)).length_le
  omega

/-- The link: its packet length, and the bytes written while the modem is connected. -/
structure PactorLink where
  paclen : Int := 250
  writer : Option Bytes := none
deriving DecidableEq, Repr

/-- `data[offset:offset + size]` for the offsets of `range(0, len(data), size)`. -/
def chunksOf (size : Nat) (data : Bytes) : List Bytes :=
  (List.range ((data.length + size - 1) / size)).map fun k => (data.drop (k * size)).take size

/-- The writes of `send_frame`, up to the first that raises. -/
def writeChunks (channel : Int) : Bytes → List Bytes → Bytes × Option String
  | written, [] => (written, none)
  | written, chunk :: chunks =>
      match encodeHostFrame channel statusData chunk with
      | .error reason => (written, some reason)
      | .ok frame => writeChunks channel (written ++ frame) chunks

/-- `PactorLink.send_frame`: the link after it, and the error that it raises. -/
def PactorLink.sendFrame (link : PactorLink) (data : Bytes) (channel : Int) :
    PactorLink × Option String :=
  match link.writer with
  | none => (link, none)
  | some written =>
      let chunkSize := (max 1 (min link.paclen 255)).toNat
      let (written, error) := writeChunks channel written (chunksOf chunkSize data)
      ({ link with writer := some written }, error)

theorem takeFrame_append (taken : takeFrame buf = some (frame, rest)) (back : Bytes) :
    takeFrame (buf ++ back) = some (frame, rest ++ back) := by
  match buf, taken with
  | _ :: _ :: _ :: length :: body, taken =>
      rw [takeFrame] at taken
      split at taken
      · cases taken
      · rename_i long
        cases taken
        have enough : length.toNat ≤ body.length := Nat.le_of_not_lt long
        simp only [List.cons_append, takeFrame, List.length_append]
        rw [if_neg (by omega), List.take_append_of_le_length enough,
          List.drop_append_of_le_length enough]

theorem decodeHostStream_none (incomplete : takeFrame (buf.dropWhile (· ≠ hostMark)) = none) :
    decodeHostStream buf = ([], buf.dropWhile (· ≠ hostMark)) := by
  rw [decodeHostStream]
  split
  · rfl
  · rename_i taken
    rw [incomplete] at taken
    cases taken

theorem decodeHostStream_some
    (taken : takeFrame (buf.dropWhile (· ≠ hostMark)) = some (frame, rest)) :
    decodeHostStream buf =
      (frame :: (decodeHostStream rest).1, (decodeHostStream rest).2) := by
  rw [decodeHostStream]
  split
  · rename_i incomplete
    rw [incomplete] at taken
    cases taken
  · rename_i found
    rw [taken] at found
    cases found
    rfl

/-- Noise in front of the marker is discarded, whatever follows. -/
theorem dropWhile_noise (front back : Bytes) :
    (front ++ back).dropWhile (· ≠ hostMark) =
      (front.dropWhile (· ≠ hostMark) ++ back).dropWhile (· ≠ hostMark) := by
  induction front with
  | nil => rfl
  | cons b front ih =>
      by_cases mark : b = hostMark
      · rw [List.dropWhile_cons_of_neg (by simpa using mark)]
      · rw [List.cons_append, List.dropWhile_cons_of_pos (by simpa using mark),
          List.dropWhile_cons_of_pos (by simpa using mark), ih]

theorem decodeHostStream_congr
    (same : front.dropWhile (· ≠ hostMark) = back.dropWhile (· ≠ hostMark)) :
    decodeHostStream front = decodeHostStream back := by
  cases taken : takeFrame (front.dropWhile (· ≠ hostMark)) with
  | none => rw [decodeHostStream_none taken, decodeHostStream_none (same ▸ taken), same]
  | some found =>
      obtain ⟨frame, rest⟩ := found
      have other : takeFrame (back.dropWhile (· ≠ hostMark)) = some (frame, rest) := same ▸ taken
      rw [decodeHostStream_some taken, decodeHostStream_some other]

theorem dropWhile_frame (front back : Bytes)
    (taken : takeFrame (front.dropWhile (· ≠ hostMark)) = some (frame, rest)) :
    (front ++ back).dropWhile (· ≠ hostMark) = front.dropWhile (· ≠ hostMark) ++ back := by
  rw [dropWhile_noise]
  have head := List.head?_dropWhile_not (· ≠ hostMark) front
  cases found : front.dropWhile (· ≠ hostMark) with
  | nil =>
      rw [found] at taken
      cases taken
  | cons first bytes =>
      rw [found] at head
      rw [List.cons_append, List.dropWhile_cons_of_neg (by simpa using head)]

theorem decodeHostStream_append (front back : Bytes) :
    decodeHostStream (front ++ back) =
      ((decodeHostStream front).1 ++ (decodeHostStream ((decodeHostStream front).2 ++ back)).1,
        (decodeHostStream ((decodeHostStream front).2 ++ back)).2) := by
  cases taken : takeFrame (front.dropWhile (· ≠ hostMark)) with
  | none =>
      rw [decodeHostStream_none taken]
      exact decodeHostStream_congr (dropWhile_noise front back)
  | some found =>
      obtain ⟨frame, rest⟩ := found
      have longer : takeFrame ((front ++ back).dropWhile (· ≠ hostMark)) =
          some (frame, rest ++ back) := by
        rw [dropWhile_frame front back taken, takeFrame_append taken]
      have shorter : rest.length < front.length := Nat.lt_of_lt_of_le (takeFrame_shorter taken)
        (List.dropWhile_sublist (· ≠ hostMark)).length_le
      rw [decodeHostStream_some longer, decodeHostStream_some taken,
        decodeHostStream_append rest back]
      rfl
termination_by front.length

theorem decodeHostStream_resumes : Resumes decodeHostStream fun _ => True := by
  intro front back _
  rw [decodeHostStream_append front back]
  exact ⟨rfl, trivial⟩

theorem decodeHostStream_nil : decodeHostStream [] = ([], []) :=
  decodeHostStream_none rfl

/-- Reads decode what one call on all their bytes decodes. -/
theorem drain_decodeHostStream (reads : List Bytes) :
    drain decodeHostStream [] reads = decodeHostStream reads.flatten := by
  refine Prod.ext ?_ ?_
  · exact decodeHostStream_resumes.drain_eq (congrArg Prod.fst decodeHostStream_nil) trivial
  · cases reads with
    | nil => exact (congrArg Prod.snd decodeHostStream_nil).symm
    | cons chunk reads =>
        refine drain_left (fun front back => ?_) (List.cons_ne_nil _ _) []
        rw [decodeHostStream_append front back]

/-- The frames that `encode_host_frame` can encode. -/
structure PactorHostFrame.Valid (frame : PactorHostFrame) : Prop where
  channel : 0 ≤ frame.channel ∧ frame.channel ≤ 255
  status : 0 ≤ frame.status ∧ frame.status ≤ 255
  payload : frame.payload.length ≤ 255

def PactorHostFrame.encode (frame : PactorHostFrame) : Except String Bytes :=
  encodeHostFrame frame.channel frame.status frame.payload

/-- A frame is taken back off the front of a buffer, whatever its payload holds. -/
theorem encode_taken (valid : frame.Valid) :
    ∃ output, frame.encode = .ok output ∧
      ∀ rest, decodeHostStream (output ++ rest) =
        (frame :: (decodeHostStream rest).1, (decodeHostStream rest).2) := by
  obtain ⟨channel, status, payload⟩ := frame
  obtain ⟨channels, states, short⟩ := valid
  simp only at channels states short
  have byte {value : Int} (range : 0 ≤ value ∧ value ≤ 255) :
      ((UInt8.ofNat value.toNat).toNat : Int) = value := by
    rw [UInt8.toNat_ofNat', Nat.mod_eq_of_lt (by omega)]
    omega
  have size : (UInt8.ofNat payload.length).toNat = payload.length := by
    rw [UInt8.toNat_ofNat', Nat.mod_eq_of_lt (by omega)]
  refine ⟨[hostMark, UInt8.ofNat channel.toNat, UInt8.ofNat status.toNat,
    UInt8.ofNat payload.length] ++ payload, ?_, fun rest => decodeHostStream_some ?_⟩
  · rw [PactorHostFrame.encode, encodeHostFrame, if_neg (not_not.mpr channels),
      if_neg (not_not.mpr states), if_neg (Nat.not_lt.mpr short)]
  · rw [List.append_assoc, List.cons_append, List.dropWhile_cons_of_neg (by simp)]
    simp only [List.cons_append, List.nil_append, takeFrame, size, List.length_append]
    rw [if_neg (by omega), List.take_left, List.drop_left, byte channels, byte states]

theorem encode_all {frames : List PactorHostFrame} (valid : ∀ frame ∈ frames, frame.Valid) :
    ∃ outputs, frames.mapM PactorHostFrame.encode = .ok outputs ∧
      decodeHostStream outputs.flatten = (frames, []) := by
  induction frames with
  | nil => exact ⟨[], rfl, decodeHostStream_nil⟩
  | cons frame frames ih =>
      obtain ⟨output, encoded, taken⟩ := encode_taken (valid frame List.mem_cons_self)
      obtain ⟨outputs, later, decoded⟩ :=
        ih fun frame listed => valid frame (List.mem_cons_of_mem _ listed)
      refine ⟨output :: outputs, ?_, ?_⟩
      · rw [List.mapM_cons, encoded, later]
        rfl
      · rw [List.flatten_cons, taken, decoded]

theorem slices_flatten (size : Nat) (data : Bytes) (n : Nat) :
    ((List.range n).map fun k => (data.drop (k * size)).take size).flatten =
      data.take (n * size) := by
  induction n with
  | zero => simp
  | succ n ih =>
      rw [List.range_succ, List.map_append, List.flatten_append, ih, Nat.succ_mul, List.take_add]
      simp

theorem chunksOf_flatten {size : Nat} (positive : 0 < size) (data : Bytes) :
    (chunksOf size data).flatten = data := by
  rw [chunksOf, slices_flatten, List.take_of_length_le]
  have enough := Nat.div_add_mod (data.length + size - 1) size
  have small := Nat.mod_lt (data.length + size - 1) positive
  rw [Nat.mul_comm]
  omega

theorem chunksOf_short {size : Nat} {data chunk : Bytes} (listed : chunk ∈ chunksOf size data) :
    chunk.length ≤ size := by
  obtain ⟨k, _, rfl⟩ := List.mem_map.mp listed
  exact List.length_take_le _ _

/-- The data frames of some chunks. -/
def dataFrames (channel : Int) (chunks : List Bytes) : List PactorHostFrame :=
  chunks.map fun chunk => { channel, status := statusData, payload := chunk }

theorem writeChunks_encoded {channel : Int} {chunks outputs : List Bytes} (written : Bytes)
    (encoded : (dataFrames channel chunks).mapM PactorHostFrame.encode = .ok outputs) :
    writeChunks channel written chunks = (written ++ outputs.flatten, none) := by
  induction chunks generalizing written outputs with
  | nil =>
      cases encoded
      simp [writeChunks]
  | cons chunk chunks ih =>
      rw [dataFrames, List.map_cons, List.mapM_cons] at encoded
      cases first : encodeHostFrame channel statusData chunk with
      | error reason =>
          rw [PactorHostFrame.encode, first] at encoded
          cases encoded
      | ok output =>
          cases later : (dataFrames channel chunks).mapM PactorHostFrame.encode with
          | error reason =>
              rw [PactorHostFrame.encode, first, ← dataFrames, later] at encoded
              cases encoded
          | ok others =>
              rw [PactorHostFrame.encode, first, ← dataFrames, later] at encoded
              cases encoded
              rw [writeChunks, first]
              dsimp only
              rw [ih (written ++ output) later, List.flatten_cons, List.append_assoc]

/-- Whatever the packet length, the frames written hold the data, in order. -/
theorem sendFrame_decoded {link : PactorLink} {written : Bytes} (connected : link.writer = some written)
    {channel : Int} (channels : 0 ≤ channel ∧ channel ≤ 255) (data : Bytes) :
    ∃ output frames, link.sendFrame data channel =
        ({ link with writer := some (written ++ output) }, none) ∧
      decodeHostStream output = (frames, []) ∧ frames.flatMap PactorHostFrame.payload = data ∧
      ∀ frame ∈ frames, frame.channel = channel ∧ frame.status = statusData := by
  generalize sized : (max 1 (min link.paclen 255)).toNat = size
  have bounds : 0 < size ∧ size ≤ 255 := by omega
  have valid : ∀ frame ∈ dataFrames channel (chunksOf size data), frame.Valid := by
    intro frame listed
    obtain ⟨chunk, among, rfl⟩ := List.mem_map.mp listed
    have known : 0 ≤ statusData ∧ statusData ≤ 255 := by decide
    exact ⟨channels, known, Nat.le_trans (chunksOf_short among) bounds.2⟩
  obtain ⟨outputs, encoded, decoded⟩ := encode_all valid
  refine ⟨outputs.flatten, dataFrames channel (chunksOf size data), ?_, decoded, ?_, ?_⟩
  · rw [PactorLink.sendFrame, connected]
    dsimp only
    rw [sized, writeChunks_encoded written encoded]
  · rw [dataFrames, List.flatMap_map, List.flatMap_id', chunksOf_flatten bounds.1]
  · intro frame listed
    obtain ⟨chunk, _, rfl⟩ := List.mem_map.mp listed
    exact ⟨rfl, rfl⟩

/-- HOST frames are read as they were written, in whatever reads they arrive; what is
read from any stream does not depend on the reads; and what a link sends is read as
the data, on its channel. -/
theorem host_transport :
    (∀ frames : List PactorHostFrame, (∀ frame ∈ frames, frame.Valid) →
      ∃ outputs, frames.mapM PactorHostFrame.encode = .ok outputs ∧
        ∀ reads : List Bytes, reads.flatten = outputs.flatten →
          drain decodeHostStream [] reads = (frames, [])) ∧
    (∀ reads others : List Bytes, reads.flatten = others.flatten →
      (drain decodeHostStream [] reads).1 = (drain decodeHostStream [] others).1) ∧
    ∀ (link : PactorLink) (written data : Bytes) (channel : Int), link.writer = some written →
      0 ≤ channel ∧ channel ≤ 255 →
        ∃ output frames, link.sendFrame data channel =
            ({ link with writer := some (written ++ output) }, none) ∧
          decodeHostStream output = (frames, []) ∧
          frames.flatMap PactorHostFrame.payload = data ∧
          ∀ frame ∈ frames, frame.channel = channel ∧ frame.status = statusData := by
  refine ⟨fun frames valid => ?_, fun reads others same => ?_, ?_⟩
  · obtain ⟨outputs, encoded, decoded⟩ := encode_all valid
    refine ⟨outputs, encoded, fun reads same => ?_⟩
    rw [drain_decodeHostStream, same, decoded]
  · rw [drain_decodeHostStream, drain_decodeHostStream, same]
  · intro link written data channel connected channels
    exact sendFrame_decoded connected channels data

/-- Markers in the payload, a cut inside the header, and a packet length of zero. -/
theorem host_transport_marks :
    (∃ outputs, [PactorHostFrame.mk 1 2 [0xAA, 0xAA, 0]].mapM PactorHostFrame.encode = .ok outputs ∧
      ∀ reads : List Bytes, reads.flatten = outputs.flatten →
        drain decodeHostStream [] reads = ([⟨1, 2, [0xAA, 0xAA, 0]⟩], [])) ∧
    (drain decodeHostStream [] [[7, 0xAA], [1, 2, 1], [9]]).1 =
      (drain decodeHostStream [] [[7, 0xAA, 1, 2, 1, 9]]).1 ∧
    ∃ output frames, (PactorLink.mk 0 (some [])).sendFrame [0xAA, 5] 3 =
        ({ paclen := 0, writer := some output }, none) ∧
      decodeHostStream output = (frames, []) ∧
      frames.flatMap PactorHostFrame.payload = [0xAA, 5] ∧
      ∀ frame ∈ frames, frame.channel = 3 ∧ frame.status = statusData := by
  obtain ⟨written, split, sent⟩ := host_transport
  refine ⟨written _ fun frame listed => ?_, split _ _ rfl, sent ⟨0, some []⟩ [] _ 3 rfl (by decide)⟩
  rw [List.mem_singleton.mp listed]
  exact ⟨by decide, by decide, by decide⟩

end PyBulletin.Transport.Pactor
