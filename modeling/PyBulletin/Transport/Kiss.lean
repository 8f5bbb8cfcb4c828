import Mathlib.Data.List.TakeWhile
import PyBulletin.Foundation.Text

set_option autoImplicit false

namespace PyBulletin.Transport.Kiss

open PyBulletin.Foundation

def fend : UInt8 := 0xC0
def fesc : UInt8 := 0xDB
def tfend : UInt8 := 0xDC
def tfesc : UInt8 := 0xDD

/-- What `decode_stream` yields: port, command and data. -/
abbrev Frame := UInt8 × UInt8 × Bytes

def escape : Bytes → Bytes
  | [] => []
  | b :: data =>
      if b = fend then fesc :: tfend :: escape data
      else if b = fesc then fesc :: tfesc :: escape data
      else b :: escape data

def encode (data : Bytes) (port cmd : UInt8) : Bytes :=
  let typeByte := ((port &&& 0x0F) <<< 4) ||| (cmd &&& 0x0F)
  [fend, typeByte] ++ escape data ++ [fend]

/-- `_unescape`; `none` for a truncated or invalid escape sequence. -/
def unescape : Bytes → Option Bytes
  | [] => some []
  | b :: raw =>
      if b = fesc then
        match raw with
        | [] => none
        | nb :: raw =>
            if nb = tfend then (unescape raw).map (fend :: ·)
            else if nb = tfesc then (unescape raw).map (fesc :: ·)
            else none
      else if b = fend then none
      else (unescape raw).map (b :: ·)

/-- `decode_stream`: the frames yielded and what is left in the buffer.  The four
branches are its four exits: no FEND at all, only FENDs, a frame without its closing
FEND, and a complete frame, after which the loop goes on. -/
def decodeStream (buf : Bytes) : List Frame × Bytes :=
  match _found : buf.dropWhile (· ≠ fend) with
  | [] => ([], buf)
  | _ :: _ =>
      match _opened : (buf.dropWhile (· ≠ fend)).dropWhile (· = fend) with
      | [] => ([], [])
      | typeByte :: body =>
          match _closed : body.dropWhile (· ≠ fend) with
          | [] => ([], typeByte :: body)
          | _ :: rest =>
              let (frames, left) := decodeStream rest
              match unescape (body.takeWhile (· ≠ fend)) with
              | none => (frames, left)
              | some data =>
                  (((typeByte >>> 4) &&& 0x0F, typeByte &&& 0x0F, data) :: frames, left)
termination_by buf.length
decreasing_by
  have first := (List.dropWhile_sublist (l := buf) (· ≠ fend)).length_le
  have second := (List.dropWhile_sublist (l := buf.dropWhile (· ≠ fend)) (· = fend)).length_le
  have third := (List.dropWhile_sublist (l := body) (· ≠ fend)).length_le
  rw [_opened] at second
  rw [_closed] at third
  simp only [List.length_cons] at second third
  omega

/-- The read loop of a KISS link: append each chunk to the buffer and drain it. -/
def readAll : Bytes → List Bytes → List Frame
  | _, [] => []
  | buf, chunk :: chunks =>
      let (frames, left) := decodeStream (buf ++ chunk)
      frames ++ readAll left chunks

/-! The decoder works byte by byte and remembers whether it is inside a
frame; `decodeStream` is this receiver, restarted at every call.
-/

inductive Receiver where
  | hunting
  | opened
  | inside (typeByte : UInt8) (raw : Bytes)
deriving DecidableEq, Repr

/-- The frame with the given content, unless it has a bad escape sequence. -/
def frameOf (typeByte : UInt8) (raw : Bytes) : List Frame :=
  match unescape raw with
  | none => []
  | some data => [((typeByte >>> 4) &&& 0x0F, typeByte &&& 0x0F, data)]

namespace Receiver

def feed : Receiver → UInt8 → Receiver × List Frame
  | hunting, b => if b = fend then (opened, []) else (hunting, [])
  | opened, b => if b = fend then (opened, []) else (inside b [], [])
  | inside typeByte raw, b =>
      if b = fend then (hunting, frameOf typeByte raw) else (inside typeByte (raw ++ [b]), [])

def run : Receiver → Bytes → Receiver × List Frame
  | receiver, [] => (receiver, [])
  | receiver, b :: bytes =>
      ((run (receiver.feed b).1 bytes).1, (receiver.feed b).2 ++ (run (receiver.feed b).1 bytes).2)

theorem run_append (receiver : Receiver) (front back : Bytes) :
    receiver.run (front ++ back) =
      (((receiver.run front).1.run back).1,
        (receiver.run front).2 ++ ((receiver.run front).1.run back).2) := by
  induction front generalizing receiver with
  | nil => rfl
  | cons b front ih => simp only [List.cons_append, run, ih, List.append_assoc]

theorem run_hunting {garbage : Bytes} (clean : fend ∉ garbage) :
    hunting.run garbage = (hunting, []) := by
  induction garbage with
  | nil => rfl
  | cons b garbage ih =>
      simp only [List.mem_cons, not_or] at clean
      obtain ⟨other, rest⟩ := clean
      simp [Receiver.run, feed, Ne.symm other, ih rest]

theorem run_opened (buf : Bytes) :
    opened.run buf = opened.run (buf.dropWhile (· = fend)) := by
  induction buf with
  | nil => rfl
  | cons b buf ih =>
      by_cases more : b = fend
      · simp only [List.dropWhile_cons, more, decide_true, if_true, run, feed, List.nil_append, ih]
      · simp [more]

theorem run_inside {typeByte : UInt8} {raw body : Bytes} (clean : fend ∉ body) :
    (inside typeByte raw).run body = (inside typeByte (raw ++ body), []) := by
  induction body generalizing raw with
  | nil => simp [Receiver.run]
  | cons b body ih =>
      simp only [List.mem_cons, not_or] at clean
      obtain ⟨other, rest⟩ := clean
      simp [Receiver.run, feed, Ne.symm other, ih rest]

/-- A run from `hunting` gets to the first byte of the first frame. -/
theorem run_to_frame {buf started : Bytes} {first : UInt8}
    (found : buf.dropWhile (· ≠ fend) = first :: started) :
    hunting.run buf = opened.run ((buf.dropWhile (· ≠ fend)).dropWhile (· = fend)) := by
  induction buf with
  | nil => contradiction
  | cons b buf ih =>
      by_cases start : b = fend
      · subst start
        simp only [List.dropWhile_cons, ne_eq, not_true_eq_false, decide_false, decide_true,
          if_true, Bool.false_eq_true, if_false]
        rw [← run_opened]
        simp [Receiver.run, feed]
      · simp only [List.dropWhile_cons, ne_eq, start, not_false_eq_true, decide_true,
          if_true] at found ⊢
        rw [← ih found]
        simp [Receiver.run, feed, start]

/-- Inside a frame, the next FEND closes it. -/
theorem run_to_close {typeByte last : UInt8} {raw body rest : Bytes}
    (closed : body.dropWhile (· ≠ fend) = last :: rest) :
    (inside typeByte raw).run body =
      ((hunting.run rest).1,
        frameOf typeByte (raw ++ body.takeWhile (· ≠ fend)) ++ (hunting.run rest).2) := by
  induction body generalizing raw with
  | nil => contradiction
  | cons b body ih =>
      by_cases close : b = fend
      · subst close
        simp only [List.dropWhile_cons, ne_eq, not_true_eq_false, decide_false,
          Bool.false_eq_true, if_false, List.cons.injEq] at closed
        obtain ⟨_, rfl⟩ := closed
        simp [Receiver.run, feed]
      · simp only [List.dropWhile_cons, ne_eq, close, not_false_eq_true, decide_true,
          if_true] at closed
        simp only [Receiver.run, feed, close, if_false, ih closed, List.nil_append, List.takeWhile_cons,
          ne_eq, not_false_eq_true, decide_true, if_true, List.append_assoc, List.singleton_append]

end Receiver

open Receiver

section decodeStream

variable {buf started body rest : Bytes} {first typeByte last : UInt8}

theorem decodeStream_noFend (absent : buf.dropWhile (· ≠ fend) = []) :
    decodeStream buf = ([], buf) := by
  rw [decodeStream]
  split
  · rfl
  next found => rw [absent] at found; contradiction

theorem decodeStream_onlyFends (found : buf.dropWhile (· ≠ fend) = first :: started)
    (only : (buf.dropWhile (· ≠ fend)).dropWhile (· = fend) = []) :
    decodeStream buf = ([], []) := by
  rw [decodeStream]
  split
  next absent => rw [found] at absent; contradiction
  next =>
    split
    · rfl
    next opened => rw [only] at opened; contradiction

theorem decodeStream_incomplete (found : buf.dropWhile (· ≠ fend) = first :: started)
    (opened : (buf.dropWhile (· ≠ fend)).dropWhile (· = fend) = typeByte :: body)
    (pending : body.dropWhile (· ≠ fend) = []) :
    decodeStream buf = ([], typeByte :: body) := by
  rw [decodeStream]
  split
  next absent => rw [found] at absent; contradiction
  next =>
    split
    next only => rw [opened] at only; contradiction
    next byte content started =>
      rw [opened] at started
      cases started
      split
      · rfl
      next closed => rw [pending] at closed; contradiction

theorem decodeStream_complete (found : buf.dropWhile (· ≠ fend) = first :: started)
    (opened : (buf.dropWhile (· ≠ fend)).dropWhile (· = fend) = typeByte :: body)
    (closed : body.dropWhile (· ≠ fend) = last :: rest) :
    decodeStream buf =
      (frameOf typeByte (body.takeWhile (· ≠ fend)) ++ (decodeStream rest).1,
        (decodeStream rest).2) := by
  rw [decodeStream]
  split
  next absent => rw [found] at absent; contradiction
  next =>
    split
    next only => rw [opened] at only; contradiction
    next byte content started =>
      rw [opened] at started
      cases started
      split
      next pending => rw [closed] at pending; contradiction
      next final remaining ended =>
        rw [closed] at ended
        cases ended
        unfold frameOf
        cases unescape (body.takeWhile (· ≠ fend)) <;> rfl

theorem typeByte_ne_fend
    (opened : (buf.dropWhile (· ≠ fend)).dropWhile (· = fend) = typeByte :: body) :
    typeByte ≠ fend := by
  have head := List.head?_dropWhile_not (· = fend) (buf.dropWhile (· ≠ fend))
  rw [opened] at head
  simpa using head

theorem not_mem_of_dropWhile (absent : buf.dropWhile (· ≠ fend) = []) : fend ∉ buf := by
  intro member
  simpa using List.dropWhile_eq_nil_iff.mp absent fend member

/-- One call yields what the receiver yields from its initial state. -/
theorem decodeStream_frames (buf : Bytes) : (decodeStream buf).1 = (hunting.run buf).2 := by
  induction buf using decodeStream.induct with
  | case1 buf absent =>
      rw [decodeStream_noFend absent, run_hunting (not_mem_of_dropWhile absent)]
  | case2 buf first started found only =>
      rw [decodeStream_onlyFends found only, run_to_frame found, only]
      rfl
  | case3 buf first started found typeByte body opened pending =>
      rw [decodeStream_incomplete found opened pending, run_to_frame found, opened]
      simp only [Receiver.run, feed, typeByte_ne_fend opened, if_false,
        run_inside (not_mem_of_dropWhile pending), List.append_nil]
  | case4 buf first started found typeByte body opened last rest closed _ _ _ _ ih
  | case5 buf first started found typeByte body opened last rest closed _ _ _ _ _ ih =>
      rw [decodeStream_complete found opened closed, run_to_frame found, opened]
      simp only [Receiver.run, feed, typeByte_ne_fend opened, if_false, run_to_close closed, ih,
        List.nil_append]

/-- No FEND is left in the buffer: the next call starts as if nothing had come. -/
theorem fend_not_mem_left (buf : Bytes) : fend ∉ (decodeStream buf).2 := by
  induction buf using decodeStream.induct with
  | case1 buf absent =>
      rw [decodeStream_noFend absent]
      exact not_mem_of_dropWhile absent
  | case2 buf first started found only =>
      rw [decodeStream_onlyFends found only]
      exact List.not_mem_nil
  | case3 buf first started found typeByte body opened pending =>
      rw [decodeStream_incomplete found opened pending]
      simp only [List.mem_cons, not_or]
      exact ⟨(typeByte_ne_fend opened).symm, not_mem_of_dropWhile pending⟩
  | case4 buf first started found typeByte body opened last rest closed _ _ _ _ ih
  | case5 buf first started found typeByte body opened last rest closed _ _ _ _ _ ih =>
      rw [decodeStream_complete found opened closed]
      exact ih

end decodeStream

/-- The read loop yields what each chunk would yield on its own. -/
theorem readAll_eq (chunks : List Bytes) {buf : Bytes} (clean : fend ∉ buf) :
    readAll buf chunks = chunks.flatMap fun chunk => (hunting.run chunk).2 := by
  induction chunks generalizing buf with
  | nil => rfl
  | cons chunk chunks ih =>
      simp only [readAll, List.flatMap_cons, decodeStream_frames, run_append, run_hunting clean,
        List.nil_append, ih (fend_not_mem_left (buf ++ chunk))]

/-- A complete frame: FEND, a non-empty content without FEND or bad escapes, FEND. -/
def HoldsFrame (stream : Bytes) : Prop :=
  ∃ front typeByte raw data back, stream = front ++ fend :: typeByte :: (raw ++ fend :: back) ∧
    typeByte ≠ fend ∧ fend ∉ raw ∧ unescape raw = some data

/-- No cut between the opening and the closing FEND of a frame of the stream. -/
def CutsBetweenFrames (chunks : List Bytes) : Prop :=
  ∀ front back, chunks = front ++ back → back ≠ [] → (hunting.run front.flatten).1 = hunting

theorem HoldsFrame.append {stream : Bytes} (holds : HoldsFrame stream) (front back : Bytes) :
    HoldsFrame (front ++ stream ++ back) := by
  obtain ⟨before, typeByte, raw, data, after, rfl, typed, clean, decoded⟩ := holds
  exact ⟨front ++ before, typeByte, raw, data, after ++ back, by simp, typed, clean, decoded⟩

/-- What the receiver remembers of the bytes it has seen. -/
def Receiver.pending : Receiver → Bytes
  | hunting => []
  | opened => [fend]
  | inside typeByte raw => fend :: typeByte :: raw

def Receiver.Valid : Receiver → Prop
  | inside typeByte raw => typeByte ≠ fend ∧ fend ∉ raw
  | _ => True

theorem Receiver.holdsFrame_of_yield {receiver : Receiver} {stream : Bytes}
    (valid : receiver.Valid) (yields : (receiver.run stream).2 ≠ []) :
    HoldsFrame (receiver.pending ++ stream) := by
  induction stream generalizing receiver with
  | nil => exact absurd rfl yields
  | cons b stream ih =>
      cases receiver with
      | hunting =>
          by_cases start : b = fend
          · subst start
            have later := @ih opened trivial (by simpa [Receiver.run, feed] using yields)
            exact later
          · have later := @ih hunting trivial (by
              simpa [Receiver.run, feed, start] using yields)
            simpa [pending] using later.append [b] []
      | opened =>
          by_cases again : b = fend
          · subst again
            have later := @ih opened trivial (by simpa [Receiver.run, feed] using yields)
            simpa [pending] using later.append [fend] []
          · exact @ih (inside b []) ⟨again, List.not_mem_nil⟩ (by
              simpa [Receiver.run, feed, again] using yields)
      | inside typeByte raw =>
          by_cases close : b = fend
          · subst close
            cases decoded : unescape raw with
            | none =>
                have later := @ih hunting trivial (by
                  simpa [Receiver.run, feed, frameOf, decoded] using yields)
                simpa [pending] using later.append (fend :: typeByte :: (raw ++ [fend])) []
            | some data =>
                exact ⟨[], typeByte, raw, data, stream, rfl, valid.1, valid.2, decoded⟩
          · have kept : fend ∉ raw ++ [b] := by
              simp only [List.mem_append, List.mem_singleton, not_or]
              exact ⟨valid.2, Ne.symm close⟩
            have later := @ih (inside typeByte (raw ++ [b])) ⟨valid.1, kept⟩ (by
              simpa [Receiver.run, feed, close] using yields)
            simpa [pending] using later

theorem yields_nothing {stream chunk : Bytes} (front back : Bytes) (frameless : ¬ HoldsFrame stream)
    (part : stream = front ++ chunk ++ back) : (hunting.run chunk).2 = [] := by
  apply Classical.byContradiction
  intro yields
  have valid : hunting.Valid := trivial
  have holds : HoldsFrame chunk := Receiver.holdsFrame_of_yield valid yields
  exact frameless (part ▸ holds.append front back)

/-- One frame, read whole or with its closing FEND in a read of its own. -/
theorem frame_whole_and_cut {typeByte : UInt8} {raw data : Bytes} (typed : typeByte ≠ fend)
    (clean : fend ∉ raw) (decoded : unescape raw = some data) :
    (hunting.run (fend :: typeByte :: (raw ++ [fend]))).2 =
        [((typeByte >>> 4) &&& 0x0F, typeByte &&& 0x0F, data)] ∧
      (hunting.run (fend :: typeByte :: raw)).2 = [] := by
  simp [Receiver.run, feed, typed, run_append, run_inside clean, frameOf, decoded]

/-- A stream with a frame in it has two splits that yield different frames. -/
theorem HoldsFrame.splits_differ {stream : Bytes} (holds : HoldsFrame stream) :
    ∃ one two, one.flatten = stream ∧ two.flatten = stream ∧ readAll [] one ≠ readAll [] two := by
  obtain ⟨front, typeByte, raw, data, back, rfl, typed, clean, decoded⟩ := holds
  obtain ⟨whole, cut⟩ := frame_whole_and_cut typed clean decoded
  refine ⟨[front, fend :: typeByte :: (raw ++ [fend]), back],
    [front, fend :: typeByte :: raw, [fend], back], by simp, by simp, ?_⟩
  have lone : (hunting.run [fend]).2 = [] := rfl
  simp only [readAll_eq _ List.not_mem_nil, List.flatMap_cons, List.flatMap_nil, whole, cut, lone]
  intro same
  have lengths := congrArg List.length same
  simp only [List.length_append, List.length_cons, List.length_nil] at lengths
  omega

theorem readAll_of_cutsBetweenFrames {chunks : List Bytes} (cuts : CutsBetweenFrames chunks) :
    readAll [] chunks = (decodeStream chunks.flatten).1 := by
  rw [readAll_eq _ List.not_mem_nil, decodeStream_frames]
  induction chunks with
  | nil => rfl
  | cons chunk chunks ih =>
      cases chunks with
      | nil => simp
      | cons next chunks =>
          have between : (hunting.run chunk).1 = hunting := by
            simpa using cuts [chunk] (next :: chunks) rfl (List.cons_ne_nil _ _)
          have later : CutsBetweenFrames (next :: chunks) := by
            intro front back split more
            have reached := cuts (chunk :: front) back (by rw [split]; rfl) more
            rw [List.flatten_cons, run_append, between] at reached
            exact reached
          have parts : (chunk :: next :: chunks).flatten = chunk ++ (next :: chunks).flatten := rfl
          rw [List.flatMap_cons, ih later, parts, run_append, between]

/-- Whatever the split, the same frames: this holds of a stream exactly when there
is no frame in it to lose.  A given split yields the frames of the whole stream
when it cuts between frames. -/
theorem splits_agree_iff (stream : Bytes) :
    ((∀ chunks, chunks.flatten = stream → readAll [] chunks = (decodeStream stream).1) ↔
        ¬ HoldsFrame stream) ∧
      ∀ chunks, chunks.flatten = stream → CutsBetweenFrames chunks →
        readAll [] chunks = (decodeStream stream).1 := by
  refine ⟨⟨?_, ?_⟩, ?_⟩
  · intro agree holds
    obtain ⟨one, two, first, second, differ⟩ := holds.splits_differ
    exact differ ((agree one first).trans (agree two second).symm)
  · intro frameless chunks split
    have nothing (chunk : Bytes) (member : chunk ∈ chunks) : (hunting.run chunk).2 = [] := by
      obtain ⟨front, back, parts⟩ := List.append_of_mem member
      exact yields_nothing front.flatten back.flatten frameless (by
        rw [← split, parts]
        simp)
    rw [readAll_eq _ List.not_mem_nil, List.flatMap_eq_nil_iff.mpr nothing, decodeStream_frames]
    exact (yields_nothing [] [] frameless (by simp)).symm
  · rintro chunks rfl cuts
    exact readAll_of_cutsBetweenFrames cuts

/-- The frame with one data byte, read in two parts, is lost. -/
theorem cut_frame_is_lost :
    ¬ ∀ stream chunks, chunks.flatten = stream →
      readAll [] chunks = (decodeStream stream).1 := by
  intro agree
  have lost := agree (encode [0x41] 0 0) [[fend], [0x00, 0x41, fend]] (by decide)
  rw [readAll_eq _ List.not_mem_nil, decodeStream_frames] at lost
  exact absurd lost (by decide)

end PyBulletin.Transport.Kiss
