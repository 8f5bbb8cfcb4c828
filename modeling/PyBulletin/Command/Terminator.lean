import PyBulletin.Command.Composing

set_option autoImplicit false

namespace PyBulletin.Command.Engine

open PyBulletin.Foundation
open PyBulletin.Store
open PyBulletin.Session

/-- The line that aborts a text by the manual. -/
def abandons (line : Text) : Bool := Text.strip line = "/AB"

/-- The place of the line that ends the text. -/
def terminator (console : Console) : Option Nat := console.unread.findIdx? endsText

/-- The entry of a text takes the lines up to the terminator and no others, and stores nothing where
the text is aborted or has no end. -/
structure Framed (node : Node) (console : Console) (talk : Talk Unit) : Prop where
  consumed : ∀ k ∈ terminator console, ∀ fuel,
    (talk.run fuel console).2.unread = console.unread.drop (k + 1)
  abandoned : ∀ k ∈ terminator console, (console.unread.take k).any abandons → ∀ fuel,
    (talk.run fuel console).2.database.mail.messages = console.database.mail.messages
  unended : node.telnet → terminator console = none → ∀ fuel,
    (talk.run fuel console).2.database.mail.messages = console.database.mail.messages

/-- The loop comes to the terminator within its limits, and no line before it would abort; or, if
there is no terminator, the text is too long.  Where there is no BID, nothing is stored anyway. -/
def WellEntered (node : Node) (console : Console) : Prop :=
  match terminator console with
  | some k =>
      k < maxBodyLines ∧
        (k = 0 ∨ bytesOf (console.unread.take k) ≤ node.config.maxMessageBodyBytes) ∧
        ((console.unread.take k).any abandons → ¬ Storable node console)
  | none =>
      node.telnet → node.config.maxMessageBodyBytes < bytesOf (console.unread.take maxBodyLines) ∨
        ¬ Storable node console

variable {node : Node} {console : Console} {talk : Talk Unit} {lines rest : List Text} {k : Nat}

theorem Takes.not_stored (takes : Takes node console talk lines rest) :
    (∀ fuel, (talk.run fuel console).2.database.mail.messages = console.database.mail.messages) ↔
      ¬ Storable node console := by
  constructor
  · intro same storable
    obtain ⟨fuel, gains⟩ := takes.stores storable
    exact gains.ne (same fuel)
  · intro none_ fuel
    exact (takes.sound fuel).resolve_right fun stored => none_ stored.1

theorem Takes.framed_of_found (takes : Takes node console talk lines (console.unread.drop (k + 1)))
    (found : terminator console = some k) :
    Framed node console talk ↔ ((console.unread.take k).any abandons → ¬ Storable node console) := by
  constructor
  · intro framed abandoned
    exact takes.not_stored.mp (framed.abandoned k found abandoned)
  · intro free
    constructor
    · intro other found'
      cases found.symm.trans found'
      exact takes.left
    · intro other found' abandoned
      cases found.symm.trans found'
      exact takes.not_stored.mpr (free abandoned)
    · intro _ none_
      cases found.symm.trans none_

/-- An entry that leaves more than the lines behind the terminator lets body lines through. -/
theorem not_framed_of_left (found : terminator console = some k) (bound : k < console.unread.length)
    (left : ∀ fuel, (talk.run fuel console).2.unread = rest)
    (more : console.unread.length ≤ rest.length + k) : ¬ Framed node console talk := by
  intro framed
  have same := (left 0).symm.trans (framed.consumed k found 0)
  have length := congrArg List.length same
  rw [List.length_drop] at length
  omega

section Entry

variable {msgType toCall atBbs subject prompted : Text}

theorem typed_found (telnet : Bool) (found : terminator console = some k) :
    typed telnet console.unread = some (console.unread.take (min k maxBodyLines)) := by
  rw [typed, show console.unread.findIdx? endsText = some k from found]

theorem leftover_found (found : terminator console = some k) :
    leftover console.unread = console.unread.drop (min (k + 1) maxBodyLines) := by
  rw [leftover, show console.unread.findIdx? endsText = some k from found]

/-- Outside its limits the loop ends before the terminator. -/
theorem not_framed_of_limits (prompt : node.strings "send.enter_body" [] = some prompted)
    (found : terminator console = some k) (bound : k < console.unread.length)
    (beyond : ¬ (k < maxBodyLines ∧
      (k = 0 ∨ bytesOf (console.unread.take k) ≤ node.config.maxMessageBodyBytes))) :
    ¬ Framed node console (composeText node msgType toCall atBbs subject) := by
  have entry := typed_found node.telnet found
  have size : (console.unread.take (min k maxBodyLines)).length = min k maxBodyLines := by
    rw [List.length_take]
    omega
  have some_ : 0 < min k maxBodyLines := by
    refine Nat.lt_min.mpr ⟨Nat.pos_of_ne_zero fun zero => beyond ?_, by decide⟩
    rw [zero]
    exact ⟨by decide, .inl rfl⟩
  by_cases long : node.config.maxMessageBodyBytes < bytesOf (console.unread.take (min k maxBodyLines))
  · obtain ⟨short, later, ofFront, took, refused⟩ :=
      @composeText_refuses node console msgType toCall atBbs subject prompted _ prompt entry
        (List.ne_nil_of_length_pos (by rwa [size])) long
    have few := ofFront.length_le
    have cut := congrArg List.length (took.split (by omega))
    rw [List.length_append] at cut
    exact not_framed_of_left found bound refused.left (by omega)
  · have full : maxBodyLines ≤ k := by
      by_contra other
      have reached : min k maxBodyLines = k := by omega
      rw [reached] at long
      exact beyond ⟨Nat.lt_of_not_le other, .inr (Int.not_lt.mp long)⟩
    have takes := @composeText_takes node console msgType toCall atBbs subject prompted _ prompt entry
      (.inr (Int.not_lt.mp long))
    refine not_framed_of_left found bound takes.left ?_
    rw [leftover_found found, List.length_drop]
    omega

/-- Without a terminator the lines end with blank ones, for ever. -/
theorem framed_unended_iff (prompt : node.strings "send.enter_body" [] = some prompted)
    (telnet : node.telnet = true) (none_ : terminator console = none) :
    Framed node console (composeText node msgType toCall atBbs subject) ↔
      node.config.maxMessageBodyBytes < bytesOf (console.unread.take maxBodyLines) ∨
        ¬ Storable node console := by
  have framed_iff : Framed node console (composeText node msgType toCall atBbs subject) ↔
      ∀ fuel, ((composeText node msgType toCall atBbs subject).run fuel console).2.database.mail.messages =
        console.database.mail.messages := by
    constructor
    · exact fun framed => framed.unended telnet none_
    · intro same
      constructor
      · intro k found
        cases none_.symm.trans found
      · intro k found
        cases none_.symm.trans found
      · exact fun _ _ => same
  have entry : typed node.telnet console.unread = some (fullText console.unread) := by
    rw [typed, show console.unread.findIdx? endsText = none from none_]
    exact if_pos (.inl telnet)
  rw [framed_iff, ← bytesOf_fullText]
  by_cases long : node.config.maxMessageBodyBytes < bytesOf (fullText console.unread)
  · have some_ : fullText console.unread ≠ [] :=
      List.ne_nil_of_length_pos (by rw [length_fullText]; decide)
    obtain ⟨_, _, -, -, refused⟩ :=
      @composeText_refuses node console msgType toCall atBbs subject prompted _ prompt entry some_ long
    exact iff_of_true refused.same (.inl long)
  · have takes := @composeText_takes node console msgType toCall atBbs subject prompted _ prompt entry
      (.inr (Int.not_lt.mp long))
    rw [takes.not_stored]
    simp [long]

/-- The entry of a text is framed by its terminator exactly if the terminator comes within the limits
with no `/AB` before it; without a terminator, exactly if the text is too long. -/
theorem composeText_framed_iff (node : Node) (console : Console) (msgType toCall atBbs subject : Text)
    (prompt : (node.strings "send.enter_body" []).isSome) :
    Framed node console (composeText node msgType toCall atBbs subject) ↔ WellEntered node console := by
  obtain ⟨prompted, prompt⟩ := Option.isSome_iff_exists.mp prompt
  rw [WellEntered]
  cases found : terminator console with
  | none =>
      cases telnet : node.telnet with
      | true =>
          simp only [true_implies]
          exact framed_unended_iff prompt telnet found
      | false =>
          refine iff_of_true ⟨?_, ?_, ?_⟩ nofun
          · intro k found'
            cases found.symm.trans found'
          · intro k found'
            cases found.symm.trans found'
          · intro telnet'
            rw [telnet] at telnet'
            cases telnet'
  | some k =>
      obtain ⟨bound, -, -⟩ := List.findIdx?_eq_some_iff_getElem.mp found
      by_cases reached : k < maxBodyLines ∧
          (k = 0 ∨ bytesOf (console.unread.take k) ≤ node.config.maxMessageBodyBytes)
      · have entry := typed_found node.telnet found
        rw [Nat.min_eq_left (Nat.le_of_lt reached.1)] at entry
        have fits : console.unread.take k = [] ∨
            (bytesOf (console.unread.take k) : Int) ≤ node.config.maxMessageBodyBytes := by
          refine reached.2.imp_left ?_
          rintro rfl
          rfl
        have takes := @composeText_takes node console msgType toCall atBbs subject prompted _ prompt
          entry fits
        rw [leftover_found found, Nat.min_eq_left (Nat.succ_le_of_lt reached.1)] at takes
        rw [takes.framed_of_found found]
        simp only [reached, true_and]
      · refine iff_of_false (not_framed_of_limits prompt found bound reached) fun well => reached ?_
        exact ⟨well.1, well.2.1⟩

end Entry

theorem short_text_framed :
    Framed bareNode (typing ["Hello", "/EX", "B"])
      (composeText bareNode msgPrivate "W1AW" [] "Hello") := by
  refine (composeText_framed_iff _ _ _ _ _ _ rfl).mpr ?_
  rw [WellEntered, show terminator (typing ["Hello", "/EX", "B"]) = some 1 by decide]
  exact ⟨by decide, .inr (by decide), fun abandoned => absurd abandoned (by decide)⟩

/-- What is left of a text that is too long is for the command loop. -/
theorem long_text_unframed :
    ¬ Framed terseNode (typing ["Hello", "K 1", "/EX"])
      (composeText terseNode msgPrivate "W1AW" [] "Hello") := by
  intro framed
  have left := framed.consumed 2 (by decide) 0
  revert left
  decide

end PyBulletin.Command.Engine
