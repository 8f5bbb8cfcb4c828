import PyBulletin.Forward.Protocol
import PyBulletin.Foundation.LineEnds

set_option autoImplicit false

namespace PyBulletin.Ax25.AX25Reader

open PyBulletin.Foundation
open PyBulletin.Foundation.Readers
open PyBulletin.Foundation.LineEnds
open PyBulletin.Forward (decodeAscii)

/-- `buf.find(sep)` -/
def find (sep : Bytes) : Bytes → Option Nat
  | [] => if sep = [] then some 0 else none
  | byte :: buf => if sep.isPrefixOf (byte :: buf) then some 0 else (find sep buf).map (· + 1)

def seps : List Bytes := [[13, 10], [13], [10]]

/-- A line of the buffer, and what stays in it. -/
def takeLine (buf : Bytes) : Option (Bytes × Bytes) :=
  seps.findSome? fun sep => (find sep buf).map fun i => (buf.take i, buf.drop (i + sep.length))

/-- `readline` on the buffer and on what `read` is going to return; `none` where it waits. -/
def readline : Bytes → List Bytes → Option (Text × Bytes × List Bytes)
  | buf, [] => (takeLine buf).map fun (line, rest) => (decodeAscii line, rest, [])
  | buf, chunk :: incoming =>
      match takeLine buf with
      | some (line, rest) => some (decodeAscii line, rest, chunk :: incoming)
      | none =>
          if chunk = [] then some (decodeAscii buf, [], incoming)
          else readline (buf ++ chunk) incoming

/-- The lines of `count` calls of `readline`, fewer if one of them waits. -/
def readlines : Nat → Bytes → List Bytes → List Text
  | 0, _, _ => []
  | count + 1, buf, incoming =>
      match readline buf incoming with
      | none => []
      | some (line, rest, later) => line :: readlines count rest later

/-- `_handle_i` hands on the payloads that are not empty. -/
def handedOn (payloads : List Bytes) : List Bytes := payloads.filter (· ≠ [])

/-- The lines of a stream, from left to right. -/
def streamLines (stream : Bytes) : List Text :=
  (lines 13 10 stream).1.map fun line => decodeAscii line.1

/-- CR LF comes first among the endings, then CR, then LF. -/
def InOrder (payload : Bytes) : Prop :=
  (ends 13 10 payload).Pairwise fun first second => first.rank ≤ second.rank

instance (payload : Bytes) : Decidable (InOrder payload) :=
  inferInstanceAs (Decidable (List.Pairwise _ _))

section Finding

variable {sep front buf text line rest : Bytes} {first : UInt8} {ending : Ending} {i : Nat}

theorem find_append (absent : first ∉ front) (text : Bytes) :
    find (first :: sep) (front ++ text) = (find (first :: sep) text).map (· + front.length) := by
  induction front with
  | nil => simp
  | cons byte front ih =>
      simp only [List.mem_cons, not_or] at absent
      have other : (first == byte) = false := beq_false_of_ne absent.1
      rw [List.cons_append, find, List.isPrefixOf, other, Bool.false_and, if_neg (by simp), ih absent.2]
      cases find (first :: sep) text <;> simp [Nat.add_assoc]

theorem find_absent (absent : first ∉ buf) : find (first :: sep) buf = none := by
  have nothing := @find_append sep buf first absent []
  rwa [List.append_nil] at nothing

theorem takeLine_crlf (found : find [13, 10] buf = some i) :
    takeLine buf = some (buf.take i, buf.drop (i + 2)) := by
  simp [takeLine, seps, found]

theorem takeLine_cr (noPair : find [13, 10] buf = none) (found : find [13] buf = some i) :
    takeLine buf = some (buf.take i, buf.drop (i + 1)) := by
  simp [takeLine, seps, noPair, found]

theorem takeLine_lf (noPair : find [13, 10] buf = none) (noReturn : find [13] buf = none)
    (found : find [10] buf = some i) : takeLine buf = some (buf.take i, buf.drop (i + 1)) := by
  simp [takeLine, seps, noPair, noReturn, found]

theorem takeLine_plain (plain : Plain 13 10 buf) : takeLine buf = none := by
  simp [takeLine, seps, find_absent plain.1, find_absent plain.2]

theorem takeLine_shortens : Shortens takeLine := by
  intro buf line rest found
  obtain ⟨sep, listed, found⟩ := List.exists_of_findSome?_eq_some found
  obtain ⟨i, at_, same⟩ := Option.map_eq_some_iff.mp found
  cases same
  have width : ∀ sep ∈ seps, 0 < sep.length ∧ find sep [] = none := by decide
  obtain ⟨wide, empty⟩ := width sep listed
  have some_ : buf ≠ [] := by
    rintro rfl
    rw [empty] at at_
    cases at_
  have length := List.length_pos_iff.mpr some_
  rw [List.length_drop]
  omega

theorem find_none_iff {P : Bytes → Prop} {kind : Ending}
    (absent : ∀ text, Plain 13 10 text → find sep text = none)
    (step : ∀ text line ending rest, P text → firstLine 13 10 text = some ((line, ending), rest) →
      P rest ∧ find sep text =
        if ending = kind then some line.length
        else (find sep rest).map (· + (line.length + 1)))
    (holds : P text) : find sep text = none ↔ kind ∉ ends 13 10 text := by
  induction text using (@firstLine_shortens _ _ (13 : UInt8) 10).induct with
  | done text none =>
      have plain := firstLine_none.mp none
      rw [ends, lines_plain plain]
      exact iff_of_true (absent text plain) List.not_mem_nil
  | step text item rest found ih =>
      obtain ⟨later, place⟩ := step text item.1 item.2 rest holds found
      rw [place, ends_some found, List.mem_cons, not_or, ← ih later]
      by_cases here : item.2 = kind
      · rw [if_pos here]
        exact iff_of_false (Option.some_ne_none _) fun both => both.1 here.symm
      · rw [if_neg here, Option.map_eq_none_iff]
        exact (and_iff_right (Ne.symm here)).symm

theorem find_crlf_some (found : firstLine 13 10 text = some ((line, ending), rest)) :
    find [13, 10] text =
      if ending = .crlf then some line.length
      else (find [13, 10] rest).map (· + (line.length + 1)) := by
  obtain ⟨rfl, plain, alone⟩ := firstLine_split found
  rw [find_append plain.1]
  cases ending with
  | crlf => simp [Ending.chars, find]
  | cr =>
      have other : ([13, 10] : Bytes).isPrefixOf (13 :: rest) = false := by
        cases rest with
        | nil => rfl
        | cons byte rest =>
            have different : 10 ≠ byte := fun same => alone rfl (same ▸ rfl)
            simp [List.isPrefixOf, different]
      change (find [13, 10] (13 :: rest)).map _ = _
      rw [find, other]
      cases find [13, 10] rest <;> simp [Nat.add_comm, Nat.add_left_comm]
  | lf =>
      change (find [13, 10] (10 :: rest)).map _ = _
      rw [find]
      cases find [13, 10] rest <;> simp [List.isPrefixOf, Nat.add_comm, Nat.add_left_comm]

theorem find_crlf_none : find [13, 10] text = none ↔ Ending.crlf ∉ ends 13 10 text :=
  @find_none_iff _ text (fun _ => True) _ (fun _ plain => find_absent plain.1)
    (fun _ _ _ _ _ found => ⟨trivial, find_crlf_some found⟩) trivial

theorem find_cr_some (found : firstLine 13 10 text = some ((line, ending), rest))
    (other : ending ≠ .crlf) :
    find [13] text =
      if ending = .cr then some line.length else (find [13] rest).map (· + (line.length + 1)) := by
  obtain ⟨rfl, plain, alone⟩ := firstLine_split found
  rw [find_append plain.1]
  cases ending with
  | crlf => exact absurd rfl other
  | cr => simp [Ending.chars, find]
  | lf =>
      change (find [13] (10 :: rest)).map _ = _
      rw [find]
      cases find [13] rest <;> simp [List.isPrefixOf, Nat.add_comm, Nat.add_left_comm]

theorem find_cr_none (single : Ending.crlf ∉ ends 13 10 text) :
    find [13] text = none ↔ Ending.cr ∉ ends 13 10 text := by
  refine @find_none_iff _ text (fun text => Ending.crlf ∉ ends 13 10 text) _
    (fun _ plain => find_absent plain.1) (fun text line ending rest single found => ?_) single
  rw [ends_some found, List.mem_cons, not_or] at single
  exact ⟨single.2, find_cr_some found (Ne.symm single.1)⟩

/-- Behind the first line a text is not plain any more. -/
theorem not_plain_take (found : firstLine 13 10 text = some ((line, ending), rest))
    (more : line.length < i) : ¬ Plain 13 10 (text.take i) := by
  obtain ⟨rfl, -⟩ := firstLine_split found
  obtain ⟨n, rfl⟩ : ∃ n, i = line.length + (n + 1) := ⟨i - line.length - 1, by omega⟩
  rw [List.take_length_add_append]
  rintro ⟨noReturn, noFeed⟩
  cases ending <;> simp [Ending.chars] at noReturn noFeed

theorem takeLine_least (found : firstLine 13 10 text = some ((line, ending), rest))
    (least : ∀ later ∈ ends 13 10 rest, ending.rank ≤ later.rank) :
    takeLine text = some (line, rest) := by
  have pair := find_crlf_some found
  obtain ⟨split, plain, -⟩ := firstLine_split found
  have front : text.take line.length = line := by rw [split, List.take_left]
  have behind : text.drop (line.length + (ending.chars (13 : UInt8) 10).length) = rest := by
    rw [split, ← List.append_assoc, ← List.length_append, List.drop_left]
  cases ending with
  | crlf => rw [takeLine_crlf (pair.trans (if_pos rfl)), front, ← behind]; rfl
  | cr =>
      have noPair : find [13, 10] rest = none :=
        find_crlf_none.mpr fun listed => absurd (least _ listed) (by decide)
      rw [if_neg (by decide), noPair] at pair
      rw [takeLine_cr pair ((find_cr_some found (by decide)).trans (if_pos rfl)), front, ← behind]
      rfl
  | lf =>
      have noPair : Ending.crlf ∉ ends 13 10 rest := fun listed => absurd (least _ listed) (by decide)
      have noReturn : Ending.cr ∉ ends 13 10 rest := fun listed => absurd (least _ listed) (by decide)
      rw [if_neg (by decide), find_crlf_none.mpr noPair] at pair
      have single := find_cr_some found (by decide)
      rw [if_neg (by decide), (find_cr_none noPair).mpr noReturn] at single
      have feed : find [10] text = some line.length := by
        rw [split, find_append plain.2]
        simp [Ending.chars, find]
      rw [takeLine_lf pair single feed, front, ← behind]
      rfl

/-- A line that is found beyond another ending holds that ending. -/
theorem takeLine_beyond (found : firstLine 13 10 text = some ((line, ending), rest)) {later : Ending}
    (listed : later ∈ ends 13 10 rest) (less : later.rank < ending.rank) :
    ∃ longer left, takeLine text = some (longer, left) ∧ ¬ Plain 13 10 longer := by
  have pair := find_crlf_some found
  have first : ending ≠ .crlf := by
    rintro rfl
    exact absurd less (Nat.not_lt_zero _)
  rw [if_neg first] at pair
  by_cases pairs : Ending.crlf ∈ ends 13 10 rest
  · obtain ⟨k, place⟩ := Option.ne_none_iff_exists'.mp fun none => find_crlf_none.mp none pairs
    rw [place, Option.map_some] at pair
    exact ⟨_, _, takeLine_crlf pair, not_plain_take found (by omega)⟩
  · obtain rfl : ending = .lf := by cases ending <;> cases later <;> simp_all [Ending.rank]
    obtain rfl : later = .cr := by cases later <;> simp_all [Ending.rank]
    have single := find_cr_some found (by decide)
    obtain ⟨k, place⟩ :=
      Option.ne_none_iff_exists'.mp fun none => (find_cr_none pairs).mp none listed
    rw [find_crlf_none.mpr pairs] at pair
    rw [if_neg (by decide), place, Option.map_some] at single
    exact ⟨_, _, takeLine_cr pair single, not_plain_take found (by omega)⟩

theorem takeLine_none (none : takeLine text = Option.none) : Plain 13 10 text := by
  refine firstLine_none.mp ?_
  cases found : firstLine 13 10 text with
  | none => rfl
  | some result =>
      obtain ⟨⟨line, ending⟩, rest⟩ := result
      by_cases least : ∀ later ∈ ends 13 10 rest, ending.rank ≤ later.rank
      · rw [takeLine_least found least] at none
        cases none
      · push Not at least
        obtain ⟨later, listed, less⟩ := least
        obtain ⟨longer, left, taken, -⟩ := takeLine_beyond found listed less
        rw [taken] at none
        cases none

theorem takeAll_inOrder (ordered : InOrder text) :
    takeAll takeLine text = ((lines 13 10 text).1.map Prod.fst, (lines 13 10 text).2) := by
  induction text using (@firstLine_shortens _ _ (13 : UInt8) 10).induct with
  | done text none =>
      have plain := firstLine_none.mp none
      rw [takeAll_none (takeLine_plain plain), lines_plain plain]
      rfl
  | step text item rest found ih =>
      rw [InOrder, ends_some found, List.pairwise_cons] at ordered
      rw [takeAll_some takeLine_shortens (takeLine_least found ordered.1), lines_some found,
        ih ordered.2]
      rfl

theorem takeAll_outOfOrder (unordered : ¬ InOrder text) :
    ∃ line ∈ (takeAll takeLine text).1, ¬ Plain 13 10 line := by
  induction text using (@firstLine_shortens _ _ (13 : UInt8) 10).induct with
  | done text none =>
      rw [InOrder, ends, lines_plain (firstLine_none.mp none)] at unordered
      exact absurd .nil unordered
  | step text item rest found ih =>
      by_cases least : ∀ later ∈ ends 13 10 rest, item.2.rank ≤ later.rank
      · rw [InOrder, ends_some found, List.pairwise_cons, and_iff_right least] at unordered
        obtain ⟨line, listed, broken⟩ := ih unordered
        rw [takeAll_some takeLine_shortens (takeLine_least found least)]
        exact ⟨line, List.mem_cons_of_mem _ listed, broken⟩
      · push Not at least
        obtain ⟨later, listed, less⟩ := least
        obtain ⟨longer, left, taken, broken⟩ := takeLine_beyond found listed less
        rw [takeAll_some takeLine_shortens taken]
        exact ⟨longer, List.mem_cons_self, broken⟩

end Finding

section Payloads

variable {payloads chunks : List Bytes} {buffer line : Bytes}

theorem inOrder_append (plain : Plain 13 10 buffer) (chunk : Bytes) :
    InOrder (buffer ++ chunk) ↔ InOrder chunk := by
  rw [InOrder, InOrder, ends_append_plain (by decide) plain]

theorem takeAll_left (buffer : Bytes) : Plain 13 10 (takeAll takeLine buffer).2 :=
  takeLine_none (take_left takeLine_shortens buffer)

theorem drain_inOrder (ordered : ∀ chunk ∈ chunks, InOrder chunk) (plain : Plain 13 10 buffer) :
    (drain (takeAll takeLine) buffer chunks).1 =
      (drain (lines 13 10) buffer chunks).1.map Prod.fst := by
  induction chunks generalizing buffer with
  | nil => rfl
  | cons chunk chunks ih =>
      obtain ⟨first, others⟩ := List.forall_mem_cons.mp ordered
      have here := takeAll_inOrder ((inOrder_append plain chunk).mpr first)
      rw [drain, drain, List.map_append, ← ih others (plain_left (buffer ++ chunk)), here]

theorem drain_outOfOrder {chunk : Bytes} (listed : chunk ∈ chunks) (unordered : ¬ InOrder chunk)
    (plain : Plain 13 10 buffer) :
    ∃ line ∈ (drain (takeAll takeLine) buffer chunks).1, ¬ Plain 13 10 line := by
  induction chunks generalizing buffer with
  | nil => cases listed
  | cons next chunks ih =>
      rw [drain]
      rcases List.mem_cons.mp listed with rfl | later
      · obtain ⟨line, taken, broken⟩ :=
          takeAll_outOfOrder (mt (inOrder_append plain chunk).mp unordered)
        exact ⟨line, List.mem_append_left _ taken, broken⟩
      · obtain ⟨line, taken, broken⟩ := ih later (takeAll_left (buffer ++ next))
        exact ⟨line, List.mem_append_right _ taken, broken⟩

theorem readline_eq (some_ : ∀ chunk ∈ chunks, chunk ≠ []) :
    readline buffer chunks =
      (Readers.read takeLine buffer chunks).map fun (line, rest, later) =>
        (decodeAscii line, rest, later) := by
  induction chunks generalizing buffer with
  | nil =>
      rw [readline, Readers.read]
      cases takeLine buffer <;> rfl
  | cons chunk chunks ih =>
      obtain ⟨nonempty, others⟩ := List.forall_mem_cons.mp some_
      rw [readline, Readers.read]
      cases takeLine buffer with
      | some result => rfl
      | none =>
          dsimp only
          rw [if_neg nonempty, ih others]

theorem read_later {rest : Bytes} {later : List Bytes}
    (found : Readers.read takeLine buffer chunks = some (line, rest, later)) : later <:+ chunks := by
  induction chunks generalizing buffer with
  | nil =>
      rw [Readers.read] at found
      obtain ⟨_, -, same⟩ := Option.map_eq_some_iff.mp found
      cases same
      exact List.suffix_rfl
  | cons chunk chunks ih =>
      rw [Readers.read] at found
      cases taken : takeLine buffer with
      | some result =>
          rw [taken] at found
          cases found
          exact List.suffix_rfl
      | none =>
          rw [taken] at found
          exact (ih found).trans (List.suffix_cons chunk chunks)

theorem readlines_eq (some_ : ∀ chunk ∈ chunks, chunk ≠ []) (count : Nat) :
    readlines count buffer chunks = (reads takeLine count buffer chunks).map decodeAscii := by
  induction count generalizing buffer chunks with
  | zero => rfl
  | succ count ih =>
      rw [readlines, reads, readline_eq some_]
      cases found : Readers.read takeLine buffer chunks with
      | none => rfl
      | some result =>
          obtain ⟨line, rest, later⟩ := result
          have left := (read_later found).subset
          rw [List.map_cons, ← ih fun chunk listed => some_ chunk (left listed)]
          rfl

theorem handedOn_nonempty : ∀ chunk ∈ handedOn payloads, chunk ≠ [] := fun chunk listed => by
  simpa using List.of_mem_filter listed

theorem handedOn_flatten (payloads : List Bytes) : (handedOn payloads).flatten = payloads.flatten := by
  rw [handedOn]
  exact List.flatten_filter_ne_nil

/-- What `readline` returns, call after call. -/
theorem readlines_handedOn (payloads : List Bytes) (count : Nat) :
    readlines count [] (handedOn payloads) =
      ((drain (takeAll takeLine) [] (handedOn payloads)).1.map decodeAscii).take count := by
  rw [readlines_eq handedOn_nonempty, reads_eq takeLine_shortens, List.map_take]
  rfl

theorem inOrder_handedOn :
    (∀ chunk ∈ handedOn payloads, InOrder chunk) ↔ ∀ payload ∈ payloads, InOrder payload := by
  constructor
  · intro ordered payload listed
    by_cases nothing : payload = []
    · rw [nothing]
      decide
    · exact ordered payload (List.mem_filter.mpr ⟨listed, by simpa using nothing⟩)
  · exact fun ordered chunk listed => ordered chunk (List.mem_of_mem_filter listed)

/-- Of the bytes, only CR and LF become the characters of a line end. -/
theorem lineEnd_byte (byte : UInt8) :
    ((if byte < 128 then Char.ofNat byte.toNat else Char.ofNat 0xFFFD) = '\r' ↔ byte = 13) ∧
      ((if byte < 128 then Char.ofNat byte.toNat else Char.ofNat 0xFFFD) = '\n' ↔ byte = 10) := by
  obtain ⟨⟨n⟩⟩ := byte
  revert n
  decide +kernel

theorem plain_decoded : Plain '\r' '\n' (decodeAscii line) ↔ Plain 13 10 line := by
  have feed (value : Char) (code : UInt8)
      (same : ∀ byte : UInt8,
        (if byte < 128 then Char.ofNat byte.toNat else Char.ofNat 0xFFFD) = value ↔ byte = code) :
      value ∈ decodeAscii line ↔ code ∈ line := by
    simp [decodeAscii, same]
  rw [Plain, Plain, feed _ _ fun byte => (lineEnd_byte byte).1,
    feed _ _ fun byte => (lineEnd_byte byte).2]

theorem streamLines_plain (stream : Bytes) : ∀ text ∈ streamLines stream, Plain '\r' '\n' text := by
  intro text listed
  obtain ⟨item, among, rfl⟩ := List.mem_map.mp listed
  exact plain_decoded.mpr (plain_lines stream item among)

/-- The calls of `readline` return the lines of the stream exactly when no payload holds an
ending that `readline` looks for before one further left, and no CR LF is cut. -/
theorem readlines_stream_iff (payloads : List Bytes) :
    (∀ count, readlines count [] (handedOn payloads) = (streamLines payloads.flatten).take count) ↔
      (∀ payload ∈ payloads, InOrder payload) ∧
        (handedOn payloads).IsChain fun front back => ¬ Cuts 13 10 front back := by
  have apart : (13 : UInt8) ≠ 10 := by decide
  have fresh : Plain (13 : UInt8) 10 [] := ⟨List.not_mem_nil, List.not_mem_nil⟩
  rw [← inOrder_handedOn, ← handedOn_flatten payloads]
  constructor
  · intro same
    have all : (drain (takeAll takeLine) [] (handedOn payloads)).1.map decodeAscii =
        streamLines (handedOn payloads).flatten :=
      eq_of_take fun count => (readlines_handedOn payloads count).symm.trans (same count)
    have ordered : ∀ chunk ∈ handedOn payloads, InOrder chunk := by
      by_contra unordered
      push Not at unordered
      obtain ⟨chunk, listed, unordered⟩ := unordered
      obtain ⟨line, taken, broken⟩ := drain_outOfOrder listed unordered fresh
      have returned : decodeAscii line ∈ streamLines (handedOn payloads).flatten := by
        rw [← all]
        exact List.mem_map_of_mem taken
      exact broken (plain_decoded.mp (streamLines_plain _ _ returned))
    refine ⟨ordered, cuts_eq_zero.mp ?_⟩
    have length := congrArg List.length all
    rw [drain_inOrder ordered fresh, streamLines, List.length_map, List.length_map, List.length_map,
      drain_length apart handedOn_nonempty fresh, List.nil_append] at length
    omega
  · rintro ⟨ordered, whole⟩ count
    rw [readlines_handedOn, drain_inOrder ordered fresh,
      drain_lines apart handedOn_nonempty whole fresh, List.map_map]
    rfl

/-- A line feed in front of a CR LF: `readline` returns both lines as one. -/
theorem feed_in_line :
    (∀ byte ∈ [97, 10, 98, 13, (10 : UInt8)], byte < 128) ∧
      streamLines [97, 10, 98, 13, 10] = ["a".toList, "b".toList] ∧
      readlines 2 [] (handedOn [[97, 10, 98, 13, 10]]) = ["a\nb".toList] := by
  decide

end Payloads

end PyBulletin.Ax25.AX25Reader
