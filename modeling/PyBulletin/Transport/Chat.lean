import Mathlib.Data.List.Nodup
import PyBulletin.Foundation.Mailbox
import PyBulletin.Transport.Membership

set_option autoImplicit false

namespace PyBulletin.Transport.Conference

open PyBulletin.Foundation

/-! # What is said in a room

The rooms seen from outside: what each operation does to them, with a record of what was said
in each room and what each participant took from its queue.
-/

inductive Effect where
  | nothing
  | create (room : Nat) (name : Text)
  | add (room key : Nat) (call : Text)
  | say (room : Nat) (text : Text) (excludeKey : Option Nat)
  | pop (room key : Nat)
  | get (room key : Nat)

def Effect.onRooms (rooms : Nat → Room) : Effect → Nat → Room
  | .nothing => rooms
  | .create room name => Function.update rooms room ⟨name, []⟩
  | .add room key call => Function.update rooms room ((rooms room).add ⟨key, call, []⟩)
  | .say room text excludeKey =>
      Function.update rooms room ((rooms room).broadcast text excludeKey)
  | .pop room key => Function.update rooms room ((rooms room).pop key)
  | .get room key => Function.update rooms room (((rooms room).get key).getD (rooms room))

/-- `entered` tells the room a participant entered and how much had been said there. -/
structure Chat where
  rooms : Nat → Room
  log : Nat → List (Text × Option Nat)
  entered : Nat → Option (Nat × Nat)
  heard : Nat → List Text
  missed : Nat → Nat

namespace Chat

variable (chat : Chat)

/-- The text that `get` takes from the queue of a participant. -/
def next (room key : Nat) : Option Text :=
  ((chat.rooms room).parts.find? (·.key = key)).bind (·.queue.head?)

/-- Whether the queue of a participant has no place for what is said to it. -/
def full (room key : Nat) (excludeKey : Option Nat) : Bool :=
  (chat.rooms room).parts.any fun part =>
    part.key = key ∧ some key ≠ excludeKey ∧ ¬ part.queue.length < queueDepth

def apply (effect : Effect) : Chat :=
  let after := { chat with rooms := effect.onRooms chat.rooms }
  match effect with
  | .nothing | .create _ _ | .pop _ _ => after
  | .add room key _ =>
      { after with
        entered := Function.update chat.entered key (some (room, (chat.log room).length)) }
  | .say room text excludeKey =>
      { after with
        log := Function.update chat.log room (chat.log room ++ [(text, excludeKey)])
        missed := fun key => chat.missed key + (chat.full room key excludeKey).toNat }
  | .get room key =>
      { after with
        heard := Function.update chat.heard key (chat.heard key ++ (chat.next room key).toList) }

def box (part : Participant) : Mailbox Text :=
  ⟨chat.heard part.key, part.queue, chat.missed part.key⟩

/-- What has been said to a participant since it entered its room. -/
def said (key : Nat) : List Text :=
  match chat.entered key with
  | some (room, start) => audible key ((chat.log room).drop start)
  | none => []

structure Ordered : Prop where
  entered : ∀ room, ∀ part ∈ (chat.rooms room).parts,
    ∃ start, chat.entered part.key = some (room, start)
  nodup : ∀ room, (chat.rooms room).keys.Nodup
  follows : ∀ room, ∀ part ∈ (chat.rooms room).parts,
    (chat.box part).Follows queueDepth (chat.said part.key)
  heard : ∀ key, (chat.heard key).Sublist (chat.said key)
  starts : ∀ key room start, chat.entered key = some (room, start) → start ≤ (chat.log room).length
  unused : ∀ key, chat.entered key = none → chat.heard key = [] ∧ chat.missed key = 0

/-- Only a new key is added to a room. -/
def Admits : Effect → Prop
  | .add _ key _ => chat.entered key = none
  | _ => True

end Chat

variable {chat : Chat}

theorem Chat.said_say (room : Nat) (text : Text) (excludeKey : Option Nat) {key : Nat}
    (starts : ∀ room start, chat.entered key = some (room, start) → start ≤ (chat.log room).length) :
    (chat.apply (.say room text excludeKey)).said key =
      chat.said key ++
        if (chat.entered key).map Prod.fst = some room ∧ excludeKey ≠ some key then [text]
        else [] := by
  cases entry : chat.entered key with
  | none => simp [Chat.said, Chat.apply, entry]
  | some place =>
      obtain ⟨here, start⟩ := place
      by_cases same : here = room
      · subst same
        simp only [Chat.said, Chat.apply, entry, Function.update_self]
        rw [audible_drop_append (starts here start entry)]
        by_cases out : excludeKey = some key <;> simp [out]
      · simp [Chat.said, Chat.apply, entry, same]

section Parts

variable {room key : Nat} {text call : Text} {excludeKey : Option Nat} {part : Participant}

/-- In another room nothing changes. -/
theorem mem_update {rooms : Nat → Room} {changed : Room} {other : Nat}
    (listed : part ∈ (Function.update rooms room changed other).parts) :
    other = room ∧ part ∈ changed.parts ∨ other ≠ room ∧ part ∈ (rooms other).parts := by
  by_cases same : other = room
  · subst same
    rw [Function.update_self] at listed
    exact .inl ⟨rfl, listed⟩
  · rw [Function.update_of_ne same] at listed
    exact .inr ⟨same, listed⟩

theorem nodup_update {rooms : Nat → Room} {changed : Room} (nodup : ∀ room, (rooms room).keys.Nodup)
    (kept : changed.keys.Nodup) (other : Nat) :
    (Function.update rooms room changed other).keys.Nodup := by
  by_cases same : other = room
  · rw [same, Function.update_self]
    exact kept
  · rw [Function.update_of_ne same]
    exact nodup other

/-- A participant is the only one with its key in its room. -/
theorem part_unique {here : Room} (nodup : here.keys.Nodup) {first second : Participant}
    (listed : first ∈ here.parts) (also : second ∈ here.parts) (same : first.key = second.key) :
    first = second :=
  List.inj_on_of_nodup_map nodup listed also same

end Parts

namespace Chat

variable {room key : Nat} {text call name : Text} {excludeKey : Option Nat}

/-- A key that is listed in one room is full or not there, and in no other. -/
theorem Ordered.full_iff (ordered : chat.Ordered) (room : Nat) (excludeKey : Option Nat) {other : Nat}
    {part : Participant} (listed : part ∈ (chat.rooms other).parts) :
    chat.full room part.key excludeKey = true ↔
      other = room ∧ excludeKey ≠ some part.key ∧ ¬ part.queue.length < queueDepth := by
  rw [full, List.any_eq_true]
  simp only [decide_eq_true_eq]
  constructor
  · rintro ⟨second, also, same, kept, filled⟩
    obtain ⟨start, entered⟩ := ordered.entered other part listed
    obtain ⟨again, too⟩ := ordered.entered room second also
    rw [same, entered] at too
    cases too
    have one := part_unique (ordered.nodup _) also listed same
    subst one
    exact ⟨rfl, fun excluded => kept excluded.symm, filled⟩
  · rintro ⟨rfl, kept, filled⟩
    exact ⟨part, listed, rfl, fun excluded => kept excluded.symm, filled⟩

theorem Ordered.create (ordered : chat.Ordered) : (chat.apply (.create room name)).Ordered where
  entered := by
    intro other part listed
    rcases mem_update listed with ⟨_, none_⟩ | ⟨_, old⟩
    · cases none_
    · exact ordered.entered other part old
  nodup := nodup_update ordered.nodup List.nodup_nil
  follows := by
    intro other part listed
    rcases mem_update listed with ⟨_, none_⟩ | ⟨_, old⟩
    · cases none_
    · exact ordered.follows other part old
  heard := ordered.heard
  starts := ordered.starts
  unused := ordered.unused

theorem Ordered.pop (ordered : chat.Ordered) : (chat.apply (.pop room key)).Ordered where
  entered := by
    intro other part listed
    rcases mem_update listed with ⟨rfl, kept⟩ | ⟨_, old⟩
    · exact ordered.entered other part (List.mem_of_mem_filter kept)
    · exact ordered.entered other part old
  nodup := nodup_update ordered.nodup
    ((ordered.nodup room).sublist (List.filter_sublist.map Participant.key))
  follows := by
    intro other part listed
    rcases mem_update listed with ⟨rfl, kept⟩ | ⟨_, old⟩
    · exact ordered.follows other part (List.mem_of_mem_filter kept)
    · exact ordered.follows other part old
  heard := ordered.heard
  starts := ordered.starts
  unused := ordered.unused

theorem Ordered.add (ordered : chat.Ordered) (new : chat.entered key = none) :
    (chat.apply (.add room key call)).Ordered := by
  have others {other : Nat} {part : Participant} (listed : part ∈ (chat.rooms other).parts) :
      part.key ≠ key := by
    intro same
    obtain ⟨start, entered⟩ := ordered.entered other part listed
    rw [same, new] at entered
    cases entered
  have said {other : Nat} (differs : other ≠ key) :
      (chat.apply (.add room key call)).said other = chat.said other := by
    simp only [Chat.said, Chat.apply, Function.update_of_ne differs]
  have entries : (chat.apply (.add room key call)).entered =
      Function.update chat.entered key (some (room, (chat.log room).length)) := rfl
  refine ⟨?_, ?_, ?_, ?_, ?_, ?_⟩
  · intro other part listed
    rcases mem_update listed with ⟨rfl, among⟩ | ⟨_, old⟩
    · rcases List.mem_append.mp among with before | added
      · rw [entries, Function.update_of_ne (others before)]
        exact ordered.entered other part before
      · rw [List.mem_singleton.mp added, entries, Function.update_self]
        exact ⟨_, rfl⟩
    · rw [entries, Function.update_of_ne (others old)]
      exact ordered.entered other part old
  · refine nodup_update ordered.nodup ?_
    rw [Room.keys, Room.add, List.map_append]
    refine List.nodup_append.mpr ⟨ordered.nodup room, List.nodup_singleton _, ?_⟩
    rintro first listed second added rfl
    obtain ⟨part, among, same⟩ := List.mem_map.mp listed
    simp only [List.map_cons, List.map_nil, List.mem_singleton] at added
    exact others among (same.trans added)
  · intro other part listed
    rcases mem_update listed with ⟨rfl, among⟩ | ⟨_, old⟩
    · rcases List.mem_append.mp among with before | added
      · rw [said (others before)]
        exact ordered.follows other part before
      · rw [List.mem_singleton.mp added]
        obtain ⟨nothing, none_⟩ := ordered.unused key new
        have box : (chat.apply (.add other key call)).box ⟨key, call, []⟩ = {} := by
          simp only [Chat.box, apply, nothing, none_]
        have silent : (chat.apply (.add other key call)).said key = [] := by
          simp [Chat.said, apply, audible]
        rw [box, silent]
        exact .empty
    · rw [said (others old)]
      exact ordered.follows other part old
  · intro other
    by_cases same : other = key
    · rw [same]
      change (chat.heard key).Sublist _
      rw [(ordered.unused key new).1]
      exact List.nil_sublist _
    · rw [said same]
      exact ordered.heard other
  · intro other here start entered
    by_cases same : other = key
    · rw [same, entries, Function.update_self] at entered
      cases entered
      exact Nat.le_refl _
    · rw [entries, Function.update_of_ne same] at entered
      exact ordered.starts other here start entered
  · intro other entered
    by_cases same : other = key
    · rw [same, entries, Function.update_self] at entered
      cases entered
    · rw [entries, Function.update_of_ne same] at entered
      exact ordered.unused other entered

/-- A participant is put in its queue what it can hear. -/
theorem Ordered.say (ordered : chat.Ordered) : (chat.apply (.say room text excludeKey)).Ordered := by
  have said (key : Nat) := Chat.said_say room text excludeKey (ordered.starts key)
  have grows (key : Nat) :
      (chat.said key).Sublist ((chat.apply (.say room text excludeKey)).said key) := by
    rw [said]
    exact List.sublist_append_left _ _
  have missed (key : Nat) : (chat.apply (.say room text excludeKey)).missed key =
      chat.missed key + (chat.full room key excludeKey).toNat := rfl
  refine ⟨?_, ?_, ?_, ?_, ?_, ?_⟩
  · intro other part listed
    rcases mem_update listed with ⟨rfl, changed⟩ | ⟨_, old⟩
    · obtain ⟨before, among, rfl⟩ := List.mem_map.mp changed
      obtain ⟨start, entered⟩ := ordered.entered other before among
      refine ⟨start, ?_⟩
      split <;> exact entered
    · exact ordered.entered other part old
  · refine nodup_update ordered.nodup ?_
    rw [Hub.keys_broadcast]
    exact ordered.nodup room
  · intro other part listed
    rcases mem_update listed with ⟨rfl, changed⟩ | ⟨differs, old⟩
    · obtain ⟨before, among, rfl⟩ := List.mem_map.mp changed
      have follows := ordered.follows other before among
      obtain ⟨start, entered⟩ := ordered.entered other before among
      have full := ordered.full_iff other excludeKey among
      by_cases out : excludeKey = some before.key
      · have kept : chat.full other before.key excludeKey = false := by
          rw [← Bool.not_eq_true, full]
          exact fun filled => filled.2.1 out
        rw [if_neg (fun listens => listens.1 out.symm), said, if_neg (fun hears => hears.2 out),
          List.append_nil]
        have same : (chat.apply (.say other text excludeKey)).box before = chat.box before := by
          simp only [box, missed, kept, Bool.toNat_false, Nat.add_zero]
          rfl
        rw [same]
        exact follows
      · have put := follows.put text
        have hears :
            (chat.entered before.key).map Prod.fst = some other ∧ excludeKey ≠ some before.key :=
          ⟨by rw [entered]; rfl, out⟩
        by_cases place : before.queue.length < queueDepth
        · have kept : chat.full other before.key excludeKey = false := by
            rw [← Bool.not_eq_true, full]
            exact fun filled => filled.2.2 place
          rw [if_pos ⟨fun excluded => out excluded.symm, place⟩]
          dsimp only
          rw [said, if_pos hears]
          have same : (chat.apply (.say other text excludeKey)).box
              { before with queue := before.queue ++ [text] } =
                (chat.box before).put queueDepth text := by
            have roomy : (chat.box before).waiting.length < queueDepth := place
            rw [Mailbox.put, if_pos roomy]
            simp only [box, missed, kept, Bool.toNat_false, Nat.add_zero]
            rfl
          rw [same]
          exact put
        · have filled : chat.full other before.key excludeKey = true := full.mpr ⟨rfl, out, place⟩
          rw [if_neg (fun listens => place listens.2), said, if_pos hears]
          have same : (chat.apply (.say other text excludeKey)).box before =
              (chat.box before).put queueDepth text := by
            have crowded : ¬ (chat.box before).waiting.length < queueDepth := place
            rw [Mailbox.put, if_neg crowded]
            simp only [box, missed, filled, Bool.toNat_true]
            rfl
          rw [same]
          exact put
    · have follows := ordered.follows other part old
      obtain ⟨start, entered⟩ := ordered.entered other part old
      have kept : chat.full room part.key excludeKey = false := by
        rw [← Bool.not_eq_true, ordered.full_iff room excludeKey old]
        exact fun filled => differs filled.1
      have elsewhere : ¬ ((chat.entered part.key).map Prod.fst = some room ∧
          excludeKey ≠ some part.key) := by
        rw [entered]
        exact fun hears => differs (Option.some.inj hears.1)
      have same : (chat.apply (.say room text excludeKey)).box part = chat.box part := by
        simp only [box, missed, kept, Bool.toNat_false, Nat.add_zero]
        rfl
      rw [said, if_neg elsewhere, List.append_nil, same]
      exact follows
  · intro key
    exact (ordered.heard key).trans (grows key)
  · intro key here start entered
    have before := ordered.starts key here start entered
    by_cases same : here = room
    · simp only [apply, same, Function.update_self, List.length_append]
      rw [same] at before
      omega
    · simp only [apply, Function.update_of_ne same]
      exact before
  · intro key entered
    obtain ⟨nothing, none_⟩ := ordered.unused key entered
    refine ⟨nothing, ?_⟩
    have kept : chat.full room key excludeKey = false := by
      rw [← Bool.not_eq_true, full, List.any_eq_true]
      rintro ⟨part, listed, filled⟩
      simp only [decide_eq_true_eq] at filled
      obtain ⟨start, there⟩ := ordered.entered room part listed
      rw [filled.1, show chat.entered key = none from entered] at there
      cases there
    rw [missed, none_, kept]
    rfl

/-- The part whose queue `get` takes from. -/
theorem Ordered.next_eq (ordered : chat.Ordered) {part : Participant}
    (listed : part ∈ (chat.rooms room).parts) : chat.next room part.key = part.queue.head? := by
  have found : (chat.rooms room).parts.find? (·.key = part.key) = some part := by
    cases search : (chat.rooms room).parts.find? (·.key = part.key) with
    | none => simpa using List.find?_eq_none.mp search part listed
    | some other =>
        have same : other.key = part.key := by simpa using List.find?_some search
        rw [part_unique (ordered.nodup room) (List.mem_of_find?_eq_some search) listed same]
  rw [next, found]
  rfl

theorem mem_of_next {text : Text} (next : chat.next room key = some text) :
    ∃ part ∈ (chat.rooms room).parts, part.key = key ∧ part.queue.head? = some text := by
  obtain ⟨part, found, head⟩ := Option.bind_eq_some_iff.mp next
  exact ⟨part, List.mem_of_find?_eq_some found, by simpa using List.find?_some found, head⟩

/-- A participant after a `get` for `key` in its room. -/
theorem got {part : Participant}
    (listed : part ∈ (((chat.rooms room).get key).getD (chat.rooms room)).parts) :
    ∃ before ∈ (chat.rooms room).parts, part.key = before.key ∧
      part.queue = if before.key = key then before.queue.tail else before.queue := by
  rw [Room.get] at listed
  split at listed
  · obtain ⟨before, among, rfl⟩ := List.mem_map.mp listed
    refine ⟨before, among, ?_, ?_⟩ <;> split <;> rfl
  next silent =>
    refine ⟨part, listed, rfl, ?_⟩
    split
    next same =>
      have nothing : part.queue = [] := by
        apply Classical.byContradiction
        intro waiting
        exact silent (List.any_eq_true.mpr ⟨part, listed, by simp [same, waiting]⟩)
      rw [nothing]
      rfl
    · rfl

/-- What is taken from a queue is heard. -/
theorem Ordered.get (ordered : chat.Ordered) : (chat.apply (.get room key)).Ordered := by
  have heardOf (other : Nat) : (chat.apply (.get room key)).heard other =
      if other = key then chat.heard key ++ (chat.next room key).toList else chat.heard other := by
    by_cases same : other = key
    · simp [apply, same]
    · simp [apply, same]
  refine ⟨?_, ?_, ?_, ?_, ordered.starts, ?_⟩
  · intro other part listed
    rcases mem_update listed with ⟨rfl, changed⟩ | ⟨_, old⟩
    · obtain ⟨before, among, same, _⟩ := got changed
      rw [same]
      exact ordered.entered other before among
    · exact ordered.entered other part old
  · refine nodup_update ordered.nodup ?_
    cases taken : (chat.rooms room).get key with
    | none => exact ordered.nodup room
    | some got =>
        have keys := (Hub.get_keys taken).1
        rw [Option.getD_some, keys]
        exact ordered.nodup room
  · intro other part listed
    rcases mem_update listed with ⟨rfl, changed⟩ | ⟨differs, old⟩
    · obtain ⟨before, among, same, queue⟩ := got changed
      have follows := ordered.follows other before among
      have whole : (chat.apply (.get other key)).said part.key = chat.said before.key := by
        rw [same]
        rfl
      rw [whole]
      by_cases mine : before.key = key
      · have box : (chat.apply (.get other key)).box part = (chat.box before).take := by
          rw [if_pos mine] at queue
          simp only [Chat.box, heardOf, same, mine, queue, if_true, Mailbox.take]
          rw [← mine, ordered.next_eq among]
          rfl
        rw [box]
        exact follows.take
      · have box : (chat.apply (.get other key)).box part = chat.box before := by
          rw [if_neg mine] at queue
          simp only [Chat.box, heardOf, same, mine, queue, if_false]
          rfl
        rw [box]
        exact follows
    · have follows := ordered.follows other part old
      have box : (chat.apply (.get room key)).box part = chat.box part := by
        by_cases mine : part.key = key
        · have nothing : chat.next room key = none := by
            rw [Option.eq_none_iff_forall_not_mem]
            intro text next
            obtain ⟨second, also, same, _⟩ := mem_of_next next
            obtain ⟨start, entered⟩ := ordered.entered other part old
            obtain ⟨again, too⟩ := ordered.entered room second also
            rw [same, ← mine, entered] at too
            cases too
            exact differs rfl
          simp only [Chat.box, heardOf, mine, nothing, if_true, Option.toList_none, List.append_nil]
          rfl
        · simp only [Chat.box, heardOf, mine, if_false]
          rfl
      rw [box]
      exact follows
  · intro other
    have same : (chat.apply (.get room key)).said other = chat.said other := rfl
    rw [same, heardOf]
    split
    next mine =>
      subst mine
      cases next : chat.next room other with
      | none => simpa using ordered.heard other
      | some text =>
          obtain ⟨part, listed, rfl, head⟩ := mem_of_next next
          have order := (ordered.follows room part listed).order
          obtain ⟨rest, queue⟩ := List.head?_eq_some_iff.mp head
          simp only [box, queue] at order
          refine List.Sublist.trans ?_ order
          exact List.Sublist.append_left (by simp) _
    · exact ordered.heard other
  · intro other entered
    obtain ⟨nothing, none_⟩ := ordered.unused other entered
    refine ⟨?_, none_⟩
    rw [heardOf]
    split
    next mine =>
      have silent : chat.next room key = none := by
        rw [Option.eq_none_iff_forall_not_mem]
        intro text next
        obtain ⟨part, listed, same, _⟩ := mem_of_next next
        obtain ⟨start, there⟩ := ordered.entered room part listed
        rw [same, ← mine, show chat.entered other = none from entered] at there
        cases there
      rw [← mine, nothing, mine, silent]
      rfl
    · exact nothing

/-- Every operation keeps the order, where only new keys are added. -/
theorem Ordered.apply {effect : Effect} (ordered : chat.Ordered) (admits : chat.Admits effect) :
    (chat.apply effect).Ordered := by
  cases effect with
  | nothing => exact ordered
  | create room name => exact ordered.create
  | add room key call => exact ordered.add admits
  | say room text excludeKey => exact ordered.say
  | pop room key => exact ordered.pop
  | get room key => exact ordered.get

end Chat

end PyBulletin.Transport.Conference
