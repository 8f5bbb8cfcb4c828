import PyBulletin.Foundation.Chunks

set_option autoImplicit false

namespace PyBulletin.Foundation.Readers

/-! # Readers that wait for chunks

A reader takes one item after another from a buffer and puts the next chunk into it where
there is none.
-/

variable {α β : Type} {take : List α → Option (β × List α)}

/-- At most `count` items, and what they leave. -/
def takeSome (take : List α → Option (β × List α)) : Nat → List α → List β × List α
  | 0, buffer => ([], buffer)
  | count + 1, buffer =>
      match take buffer with
      | none => ([], buffer)
      | some (item, rest) =>
          let (more, left) := takeSome take count rest
          (item :: more, left)

/-- All items of a buffer, and what is left in it. -/
def takeAll (take : List α → Option (β × List α)) (buffer : List α) : List β × List α :=
  takeSome take buffer.length buffer

/-- Every item takes something of the buffer. -/
def Shortens (take : List α → Option (β × List α)) : Prop :=
  ∀ buffer item rest, take buffer = some (item, rest) → rest.length < buffer.length

theorem takeAll_none {buffer : List α} (done : take buffer = none) :
    takeAll take buffer = ([], buffer) := by
  rw [takeAll]
  cases buffer.length with
  | zero => rfl
  | succ count => rw [takeSome, done]

theorem takeSome_enough (shortens : Shortens take) {count more : Nat} {buffer : List α}
    (enough : buffer.length ≤ count) (also : buffer.length ≤ more) :
    takeSome take count buffer = takeSome take more buffer := by
  induction count generalizing buffer more with
  | zero =>
      have done : take buffer = none := by
        cases found : take buffer with
        | none => rfl
        | some result =>
            have shorter := shortens buffer result.1 result.2 found
            omega
      cases more with
      | zero => rfl
      | succ more => rw [takeSome, takeSome, done]
  | succ count ih =>
      cases found : take buffer with
      | none =>
          cases more with
          | zero => rw [takeSome, takeSome, found]
          | succ more => rw [takeSome, takeSome, found]
      | some result =>
          obtain ⟨item, rest⟩ := result
          have shorter := shortens buffer item rest found
          obtain ⟨more, rfl⟩ : ∃ fewer, more = fewer + 1 := ⟨more - 1, by omega⟩
          rw [takeSome, takeSome, found]
          dsimp only
          rw [@ih more rest (by omega) (by omega)]

theorem takeAll_some (shortens : Shortens take) {buffer rest : List α} {item : β}
    (found : take buffer = some (item, rest)) :
    takeAll take buffer = (item :: (takeAll take rest).1, (takeAll take rest).2) := by
  have shorter := shortens buffer item rest found
  obtain ⟨count, size⟩ : ∃ count, buffer.length = count + 1 := ⟨buffer.length - 1, by omega⟩
  rw [takeAll, size, takeSome, found]
  dsimp only
  rw [takeSome_enough shortens (by omega : rest.length ≤ count) (Nat.le_refl _)]
  rfl

/-- Induction on the items of a buffer. -/
theorem Shortens.induct (shortens : Shortens take) {P : List α → Prop}
    (done : ∀ buffer, take buffer = none → P buffer)
    (step : ∀ buffer item rest, take buffer = some (item, rest) → P rest → P buffer)
    (buffer : List α) : P buffer := by
  induction count : buffer.length using Nat.strongRecOn generalizing buffer with
  | ind n ih =>
      cases found : take buffer with
      | none => exact done buffer found
      | some result =>
          have shorter := shortens buffer result.1 result.2 found
          exact step buffer result.1 result.2 found (ih result.2.length (by omega) result.2 rfl)

theorem take_left (shortens : Shortens take) (buffer : List α) :
    take (takeAll take buffer).2 = none := by
  induction buffer using shortens.induct with
  | done buffer done => rwa [takeAll_none done]
  | step buffer item rest found ih => rwa [takeAll_some shortens found]

/-- The next item; `none` where the reader waits for a chunk. -/
def read (take : List α → Option (β × List α)) :
    List α → List (List α) → Option (β × List α × List (List α))
  | buffer, [] => (take buffer).map fun (item, rest) => (item, rest, [])
  | buffer, chunk :: incoming =>
      match take buffer with
      | some (item, rest) => some (item, rest, chunk :: incoming)
      | none => read take (buffer ++ chunk) incoming

/-- The items of `count` reads, fewer if one of them waits. -/
def reads (take : List α → Option (β × List α)) : Nat → List α → List (List α) → List β
  | 0, _, _ => []
  | count + 1, buffer, incoming =>
      match read take buffer incoming with
      | none => []
      | some (item, rest, incoming) => item :: reads take count rest incoming

/-- All items there are to read. -/
def readable (take : List α → Option (β × List α)) (buffer : List α) (incoming : List (List α)) :
    List β :=
  (takeAll take buffer).1 ++ (drain (takeAll take) (takeAll take buffer).2 incoming).1

theorem readable_some (shortens : Shortens take) {buffer rest : List α} {item : β}
    (found : take buffer = some (item, rest)) (incoming : List (List α)) :
    readable take buffer incoming = item :: readable take rest incoming := by
  rw [readable, takeAll_some shortens found]
  rfl

theorem readable_none {buffer : List α} (done : take buffer = none)
    (chunk : List α) (incoming : List (List α)) :
    readable take buffer (chunk :: incoming) = readable take (buffer ++ chunk) incoming := by
  rw [readable, takeAll_none done]
  rfl

theorem read_spec (shortens : Shortens take) (buffer : List α) (incoming : List (List α)) :
    match read take buffer incoming with
    | none => readable take buffer incoming = []
    | some (item, rest, later) =>
        readable take buffer incoming = item :: readable take rest later := by
  induction incoming generalizing buffer with
  | nil =>
      rw [read]
      cases found : take buffer with
      | none =>
          rw [readable, takeAll_none found]
          rfl
      | some result => exact readable_some shortens found []
  | cons chunk incoming ih =>
      rw [read]
      cases found : take buffer with
      | none =>
          dsimp only
          rw [readable_none found]
          exact ih (buffer ++ chunk)
      | some result => exact readable_some shortens found (chunk :: incoming)

/-- The reads return the items one after another. -/
theorem reads_eq (shortens : Shortens take) (count : Nat) (buffer : List α)
    (incoming : List (List α)) :
    reads take count buffer incoming = (readable take buffer incoming).take count := by
  induction count generalizing buffer incoming with
  | zero => rfl
  | succ count ih =>
      have next := read_spec shortens buffer incoming
      rw [reads]
      cases answer : read take buffer incoming with
      | none =>
          rw [answer] at next
          rw [next]
          rfl
      | some result =>
          obtain ⟨item, rest, later⟩ := result
          rw [answer] at next
          rw [next]
          dsimp only
          rw [List.take_succ_cons, ih]

/-- Reads that agree for every count return the same items. -/
theorem eq_of_take {front back : List β} (same : ∀ count, front.take count = back.take count) :
    front = back := by
  refine List.ext_getElem? fun i => ?_
  have here := congrArg (·[i]?) (same (i + 1))
  simpa only [List.getElem?_take_of_lt (Nat.lt_succ_self i)] using here

end PyBulletin.Foundation.Readers
