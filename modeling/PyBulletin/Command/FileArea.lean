import PyBulletin.Foundation.Run
import PyBulletin.Session.Lifecycle
import PyBulletin.Transport.Yapp

set_option autoImplicit false

namespace PyBulletin.Command.Engine

open PyBulletin.Foundation
open PyBulletin.Foundation.Stateful
open PyBulletin.Store
open PyBulletin.Session
open PyBulletin.Transport

def capUpload : Text := "upload"

/-- A `YU` command and the stream that follows it. -/
structure Upload where
  args : Text
  stream : Bytes

/-- `receive_file` on the stream. -/
def receiving (node : Node) (stream : Bytes) : Node :=
  { node with
    receiveFile := fun _ lines =>
      (some (Yapp.receiveFile stream).returned, [.raw (Yapp.receiveFile stream).written], lines) }

/-- One `YU` command of a session. -/
def uploadStep (node : Node) (console : Console) (upload : Upload) : Option Console :=
  some ((cmdYappUpload (receiving node upload.stream) upload.args).run 0 console).2

namespace Upload

variable (upload : Upload)

def filename : Text := ((Text.splitWord upload.args).map Prod.fst).getD []

/-- The bytes of an upload that comes through. -/
def completes (node : Node) : Option Bytes :=
  if upload.filename ≠ [] ∧ pathName upload.filename = upload.filename ∧
      node.writable upload.filename then
    (Yapp.receiveFile upload.stream).returned
  else none

/-- The entry that is written for it. -/
def entry (call : Text) (data : Bytes) (createdAt : DateTime) : FileEntry where
  filename := upload.filename
  area := []
  description := []
  owner := call
  size := data.length
  createdAt := createdAt
  downloads := 0

/-- An entry of the name in the area of uploads. -/
def names (file : FileEntry) : Bool := file.filename = upload.filename ∧ file.area = []

/-- The entries behind `upsert_file_entry`. -/
def upserted (call : Text) (data : Bytes) (date : DateTime) (files : List FileEntry) : List FileEntry :=
  if files.any upload.names then
    files.map fun file =>
      if upload.names file then upload.entry call data file.createdAt else file
  else files ++ [upload.entry call data date]

/-- The files behind `write_bytes`. -/
def written (data : Bytes) (disk : Text → Text → Option Bytes) : Text → Text → Option Bytes :=
  fun area name => if area = [] ∧ name = upload.filename then some data else disk area name

end Upload

variable {node : Node} {console : Console} {user : User} {upload : Upload} {call : Text} {data : Bytes}

/-- The last part of `_cmd_yapp_upload`. -/
def Upload.store (upload : Upload) (node : Node) (data : Bytes) : Talk Unit := do
  writeFile node upload.filename data
  let user ← me
  let date ← now node
  upsertFileEntry (upload.entry user.call data date)
  sendAll ["\r\n  File received: ", upload.filename, " (", decimal data.length, " bytes)\r\n"]

theorem run_store (signedIn : console.user = some user) (data : Bytes) :
    ((upload.store node data).run 0 console).2.user = some user ∧
      if node.writable upload.filename then
        ((upload.store node data).run 0 console).2.disk = upload.written data console.disk ∧
          ((upload.store node data).run 0 console).2.files =
            upload.upserted user.call data (node.clock console.asked) console.files
      else
        ((upload.store node data).run 0 console).2.files = console.files ∧
          ((upload.store node data).run 0 console).2.disk = console.disk := by
  rw [Upload.store, writeFile, guarded]
  by_cases writable : node.writable upload.filename = true
  · rw [if_pos writable, if_pos writable]
    have told (next : User → Talk Unit) (disk : Text → Text → Option Bytes) :
        (me >>= next).run 0 { console with disk } = (next user).run 0 { console with disk } := by
      change following _ ((console.user.elim raise pure : Talk User).run 0 { console with disk }) = _
      rw [signedIn]
      rfl
    change ((me >>= _ : Talk Unit).run 0 { console with disk := upload.written data console.disk }).2.user =
      _ ∧ ((me >>= _ : Talk Unit).run 0 { console with disk := upload.written data console.disk }).2.disk =
      _ ∧ ((me >>= _ : Talk Unit).run 0 { console with disk := upload.written data console.disk }).2.files = _
    rw [told]
    exact ⟨signedIn, rfl, rfl⟩
  · rw [if_neg writable, if_neg writable]
    exact ⟨signedIn, rfl, rfl⟩

/-- A `YU` command with a good name comes to what is received. -/
theorem run_received (given : upload.filename ≠ []) (plain : pathName upload.filename = upload.filename) :
    ∃ sent, (cmdYappUpload (receiving node upload.stream) upload.args).run 0 console =
      ((Yapp.receiveFile upload.stream).returned.elim (send "\r\n  Upload aborted or failed.\r\n")
        (upload.store node)).run 0 { console with sent, asked := console.asked + 1 } := by
  have begun : cmdYappUpload (receiving node upload.stream) upload.args =
      if upload.filename = [] then send "\r\n  Usage: YU <filename>\r\n"
      else if pathName upload.filename ≠ upload.filename then send "\r\n  Invalid filename.\r\n"
      else (do
        sendAll ["\r\n  Ready to receive '", upload.filename, "' via YAPP.\r\n  (ok)\r\n"]
        let received ← takeOver (receiving node upload.stream).receiveFile
        received.elim (send "\r\n  Upload aborted or failed.\r\n") (upload.store node)) := rfl
  rw [begun, if_neg given, if_neg (not_not.mpr plain)]
  exact ⟨_, rfl⟩

/-- What a `YU` command does to a session: it talks, and it writes what comes through. -/
theorem uploadStep_cases (signedIn : console.user = some user) :
    ∃ next, uploadStep node console upload = some next ∧ next.user = some user ∧
      match upload.completes node with
      | none => next.files = console.files ∧ next.disk = console.disk
      | some data => next.disk = upload.written data console.disk ∧
          ∃ date, next.files = upload.upserted user.call data date console.files := by
  refine ⟨_, rfl, ?_⟩
  rw [Upload.completes]
  by_cases given : upload.filename = []
  · have refused : cmdYappUpload (receiving node upload.stream) upload.args =
        send "\r\n  Usage: YU <filename>\r\n" := if_pos given
    rw [if_neg (by simp [given]), refused]
    exact ⟨signedIn, rfl, rfl⟩
  by_cases plain : pathName upload.filename = upload.filename
  · obtain ⟨sent, ran⟩ := @run_received node console upload given plain
    rw [ran]
    cases (Yapp.receiveFile upload.stream).returned with
    | none =>
        rw [ite_self]
        exact ⟨signedIn, rfl, rfl⟩
    | some data =>
        have stored := @run_store node { console with sent, asked := console.asked + 1 } user upload
          signedIn data
        by_cases writable : node.writable upload.filename = true
        · rw [if_pos writable] at stored
          rw [if_pos ⟨given, plain, writable⟩]
          exact ⟨stored.1, stored.2.1, _, stored.2.2⟩
        · rw [if_neg writable] at stored
          rw [if_neg (by simp [writable])]
          exact stored
  · have refused : cmdYappUpload (receiving node upload.stream) upload.args =
        send "\r\n  Invalid filename.\r\n" := (if_neg given).trans (if_pos plain)
    rw [if_neg (by simp [plain]), refused]
    exact ⟨signedIn, rfl, rfl⟩

section Writing

variable {date : DateTime} {files : List FileEntry} {file : FileEntry}
  {disk : Text → Text → Option Bytes}

theorem names_entry (date : DateTime) : upload.names (upload.entry call data date) = true := by
  simp [Upload.names, Upload.entry]

theorem mem_upserted (other : upload.names file = false) :
    file ∈ upload.upserted call data date files ↔ file ∈ files := by
  have different (date : DateTime) : file ≠ upload.entry call data date := by
    rintro rfl
    rw [names_entry] at other
    cases other
  rw [Upload.upserted]
  split
  · rw [List.mem_map]
    constructor
    · rintro ⟨old, listed, same⟩
      split at same
      · exact absurd same.symm (different _)
      · rwa [← same]
    · exact fun listed => ⟨file, listed, by rw [if_neg (by simp [other])]⟩
  · rw [List.mem_append, List.mem_singleton, or_iff_left (different date)]

theorem owner_of_upserted (named : upload.names file = true)
    (listed : file ∈ upload.upserted call data date files) : file.owner = call := by
  rw [Upload.upserted] at listed
  split at listed
  · obtain ⟨old, _, same⟩ := List.mem_map.mp listed
    split at same
    · rw [← same]
      rfl
    · next other => exact absurd (same ▸ named) other
  · next none =>
      rcases List.mem_append.mp listed with old | new
      · exact absurd (List.any_eq_true.mpr ⟨file, old, named⟩) none
      · rw [List.mem_singleton.mp new]
        rfl

theorem written_other (other : upload.names file = false) :
    upload.written data disk file.area file.filename = disk file.area file.filename := by
  rw [Upload.names, decide_eq_false_iff_not] at other
  exact if_neg fun same => other same.symm

/-- The upload brings what is there already, to the owner of the name. -/
structure Repeats (upload : Upload) (call : Text) (data : Bytes) (console : Console) : Prop where
  stored : console.disk [] upload.filename = some data
  listed : ∃ file ∈ console.files, upload.names file = true
  same : ∀ file ∈ console.files, upload.names file = true →
    file = upload.entry call data file.createdAt

theorem repeats_iff :
    Repeats upload call data console ↔
      upload.upserted call data date console.files = console.files ∧
        upload.written data console.disk = console.disk := by
  have rewritten (change : FileEntry → FileEntry) :
      console.files.map change = console.files ↔ ∀ file ∈ console.files, change file = file := by
    simpa using @List.map_inj_left _ _ console.files change id
  rw [Upload.upserted]
  constructor
  · intro again
    rw [if_pos (List.any_eq_true.mpr again.listed), rewritten]
    refine ⟨fun file listed => ?_, ?_⟩
    · split
      · next named => exact (again.same file listed named).symm
      · rfl
    · funext area name
      rw [Upload.written]
      split
      · next place => rw [place.1, place.2, again.stored]
      · rfl
  · rintro ⟨entries, bytes⟩
    have stored : console.disk [] upload.filename = some data := by
      rw [← bytes]
      exact if_pos ⟨rfl, rfl⟩
    split at entries
    · next listed =>
        rw [rewritten] at entries
        refine ⟨stored, List.any_eq_true.mp listed, fun file among named => ?_⟩
        have same := entries file among
        rw [if_pos named] at same
        exact same.symm
    · exact absurd (congrArg List.length entries) (by simp)

end Writing

def OwnedByOther (call : Text) (file : FileEntry) : Prop := file.owner ≠ [] ∧ file.owner ≠ call

/-- All is as it was if nothing may be uploaded, and anyway what belongs to others. -/
structure Protected (call : Text) (start console : Console) : Prop where
  area : accessAllowed call capUpload = false →
    console.files = start.files ∧ console.disk = start.disk
  others : ∀ file ∈ start.files, OwnedByOther call file →
    file ∈ console.files ∧ console.disk file.area file.filename = start.disk file.area file.filename

/-- If the upload comes through, its name belongs to no other call, and the user may upload
or repeats what is there. -/
structure Harmless (node : Node) (call : Text) (console : Console) (upload : Upload) : Prop where
  free : ∀ data, upload.completes node = some data → ∀ file ∈ console.files,
    upload.names file = true → ¬ OwnedByOther call file
  allowed : ∀ data, upload.completes node = some data →
    accessAllowed call capUpload = true ∨ Repeats upload call data console

/-- The user stays, and there is nothing new of others. -/
structure Sheltered (user : User) (start console : Console) : Prop where
  signedIn : console.user = some user
  kept : Protected user.call start console
  known : ∀ file ∈ console.files, OwnedByOther user.call file → file ∈ start.files

variable {start : Console}

theorem Sheltered.after_upload (sheltered : Sheltered user start console) (harmless : Harmless node user.call console upload)
    {next : Console} (stepped : uploadStep node console upload = some next) : Sheltered user start next := by
  obtain ⟨after, same, signedIn, wrote⟩ :=
    @uploadStep_cases node console user upload sheltered.signedIn
  obtain rfl : after = next := Option.some.inj (same.symm.trans stepped)
  cases completed : upload.completes node with
  | none =>
      rw [completed] at wrote
      obtain ⟨files, disk⟩ := wrote
      refine ⟨signedIn, ⟨?_, ?_⟩, ?_⟩
      · rw [files, disk]
        exact sheltered.kept.area
      · rw [files, disk]
        exact sheltered.kept.others
      · rw [files]
        exact sheltered.known
  | some data =>
      rw [completed] at wrote
      obtain ⟨disk, date, files⟩ := wrote
      have free := harmless.free data completed
      refine ⟨signedIn, ⟨fun shut => ?_, fun file listed foreign => ?_⟩, fun file listed foreign => ?_⟩
      · rcases harmless.allowed data completed with may | again
        · rw [may] at shut
          cases shut
        · obtain ⟨entries, bytes⟩ := (@repeats_iff console upload user.call data date).mp again
          rw [files, disk, entries, bytes]
          exact sheltered.kept.area shut
      · obtain ⟨stays, bytes⟩ := sheltered.kept.others file listed foreign
        have other : upload.names file = false := by
          by_contra named
          exact free file stays (by simpa using named) foreign
        rw [files, disk, mem_upserted other, written_other other]
        exact ⟨stays, bytes⟩
      · rw [files] at listed
        have other : upload.names file = false := by
          by_contra named
          exact foreign.2 (owner_of_upserted (by simpa using named) listed)
        exact sheltered.known file ((mem_upserted other).mp listed) foreign

theorem Sheltered.broken (sheltered : Sheltered user start console)
    (harmful : ¬ Harmless node user.call console upload) :
    ∃ next, uploadStep node console upload = some next ∧ ¬ Protected user.call start next := by
  obtain ⟨next, stepped, -, wrote⟩ := @uploadStep_cases node console user upload sheltered.signedIn
  refine ⟨next, stepped, fun kept => harmful ⟨fun data completed file listed named foreign => ?_,
    fun data completed => ?_⟩⟩
  · rw [completed] at wrote
    obtain ⟨-, date, files⟩ := wrote
    have stays := (kept.others file (sheltered.known file listed foreign) foreign).1
    rw [files] at stays
    exact foreign.2 (owner_of_upserted named stays)
  · rw [completed] at wrote
    obtain ⟨disk, date, files⟩ := wrote
    cases may : accessAllowed user.call capUpload with
    | true => exact .inl rfl
    | false =>
        obtain ⟨entries, bytes⟩ := kept.area may
        obtain ⟨before, stored⟩ := sheltered.kept.area may
        refine .inr ((@repeats_iff console upload user.call data date).mpr ⟨?_, ?_⟩)
        · rw [← files, entries, before]
        · rw [← disk, bytes, stored]

/-- The file area is protected during a session exactly if every upload is harmless. -/
theorem protected_throughout_iff (node : Node) (signedIn : start.user = some user)
    (uploads : List Upload) :
    Throughout (uploadStep node) (Protected user.call start) start uploads ↔
      EveryStep (uploadStep node) (Harmless node user.call) start uploads := by
  have begun : Sheltered user start start :=
    ⟨signedIn, ⟨fun _ => ⟨rfl, rfl⟩, fun _ listed _ => ⟨listed, rfl⟩⟩, fun _ listed _ => listed⟩
  exact throughout_iff_everyStep (fun _ _ _ sheltered harmless stepped => sheltered.after_upload harmless stepped)
    (fun _ sheltered => sheltered.kept) (fun _ _ sheltered harmful => sheltered.broken harmful) begun uploads

def openArea : Node := { bareNode with writable := fun _ => true }

def uploader (call : Text) : User := User.new call privUser "" ⟨2026, 1, 1, 12, 0, 0⟩

def emptyArea (call : Text) : Console := terminal .empty (uploader call) (UserTable.new_storable _ _ _ _) []

def notes : Upload := ⟨"notes.txt", Yapp.sent [[65]]⟩

theorem sysop_uploads :
    Throughout (uploadStep openArea) (Protected "SYSOP" (emptyArea "SYSOP")) (emptyArea "SYSOP") [notes] := by
  refine (@protected_throughout_iff (uploader "SYSOP") _ openArea rfl [notes]).mpr ⟨⟨?_, ?_⟩, fun _ _ => trivial⟩
  · intro data completed file listed
    cases listed
  · exact fun data completed => .inl (by decide)

/-- A user without the capability uploads a file. -/
theorem user_uploads :
    ¬ ∀ (node : Node) (start : Console) (user : User) (uploads : List Upload), start.user = some user →
      Throughout (uploadStep node) (Protected user.call start) start uploads := by
  intro claimed
  have begun : Sheltered (uploader "N0AAA") (emptyArea "N0AAA") (emptyArea "N0AAA") :=
    ⟨rfl, ⟨fun _ => ⟨rfl, rfl⟩, fun _ listed _ => ⟨listed, rfl⟩⟩, fun _ listed _ => listed⟩
  have chunked : Yapp.Chunked [[65]] := by
    intro chunk listed
    rw [List.mem_singleton.mp listed]
    decide
  have received : notes.completes openArea = some [65] := by
    rw [Upload.completes, if_pos (by decide)]
    exact Yapp.returned_iff.mpr ((Yapp.transfers_sent chunked).mpr rfl)
  have harmful : ¬ Harmless openArea "N0AAA" (emptyArea "N0AAA") notes := by
    intro harmless
    rcases harmless.allowed [65] received with may | again
    · revert may
      decide
    · obtain ⟨file, listed, -⟩ := again.listed
      cases listed
  obtain ⟨next, stepped, exposed⟩ := begun.broken harmful
  refine exposed (claimed openArea (emptyArea "N0AAA") (uploader "N0AAA") [notes] rfl [notes] next
    List.prefix_rfl ?_)
  rw [Foundation.run, stepped]
  rfl

end PyBulletin.Command.Engine
