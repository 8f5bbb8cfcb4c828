import PyBulletin.Foundation.Text

set_option autoImplicit false

namespace PyBulletin.Ax25

open PyBulletin.Foundation

/-- Sequence numbers N(S), N(R), V(S), V(R), V(A): Python integers kept modulo
`_MOD = 8`, here with the bound in the type. -/
abbrev Seq := Fin 8

instance seqSpace : NeZero 8 := ⟨by decide⟩

def pidNoL3 : UInt8 := 0xF0

def ctrlUi : UInt8 := 0x03
def ctrlSabm : UInt8 := 0x2F
def ctrlDisc : UInt8 := 0x43
def ctrlUa : UInt8 := 0x63
def ctrlDm : UInt8 := 0x0F
def ctrlFrmr : UInt8 := 0x87
def uMask : UInt8 := 0xEF
def pfBit : UInt8 := 0x10

inductive FrameType where
  | i | rr | rnr | rej | ui | sabm | ua | disc | dm | frmr | unknown
deriving DecidableEq, Repr

/-- `ch` is the command/response bit of the address, `endBit` the source's
`end` flag of the last address in the field. -/
structure AX25Address where
  callsign : Text
  ssid : Nat := 0
  ch : Bool := false
  endBit : Bool := false
deriving DecidableEq, Repr

namespace AX25Address

/-- `parse`.  The part after the last `-` holds no sign, so the SSID is a natural number. -/
def parse (text : Text) : AX25Address :=
  let text := Text.upper (Text.strip text)
  if '-' ∈ text then
    let (call, ssid) := Text.splitLast '-' text
    { callsign := call, ssid := ((Text.parseInt ssid).getD 0).toNat }
  else { callsign := text }

/-- `str(address)`. -/
def str (address : AX25Address) : Text :=
  if address.ssid ≠ 0 then address.callsign ++ '-' :: Nat.toDigits 10 address.ssid
  else address.callsign

/-- `matches`, which ignores the flag bits. -/
def matchesAddress (address other : AX25Address) : Bool :=
  Text.upper address.callsign = Text.upper other.callsign ∧ address.ssid = other.ssid

end AX25Address

structure AX25Frame where
  dest : AX25Address
  src : AX25Address
  repeaters : List AX25Address := []
  control : UInt8 := ctrlUi
  pid : Option UInt8 := none
  info : Bytes := []
deriving DecidableEq, Repr

namespace AX25Frame

/-- The body of the `frame_type` property, a function of the control byte alone. -/
def classify (c : UInt8) : FrameType :=
  if c &&& 0x01 = 0 then .i
  else if c &&& 0x03 = 0x01 then
    let stype := (c >>> 2) &&& 0x03
    if stype = 0 then .rr else if stype = 1 then .rnr else if stype = 2 then .rej else .unknown
  else
    let masked := c &&& uMask
    if masked = ctrlUi &&& uMask then .ui
    else if masked = ctrlSabm &&& uMask then .sabm
    else if masked = ctrlUa &&& uMask then .ua
    else if masked = ctrlDisc &&& uMask then .disc
    else if masked = ctrlDm &&& uMask then .dm
    else if masked = ctrlFrmr &&& uMask then .frmr
    else .unknown

def frameType (frame : AX25Frame) : FrameType := classify frame.control

def seqOf (value : UInt8) : Seq := ⟨(value &&& 0x07).toNat % 8, Nat.mod_lt _ (by decide)⟩

def ns (frame : AX25Frame) : Seq := seqOf (frame.control >>> 1)
def nr (frame : AX25Frame) : Seq := seqOf (frame.control >>> 5)
def pf (frame : AX25Frame) : Bool := frame.control &&& 0x10 ≠ 0

/-- `(n & 0x07) << shift`, the place of a sequence number in the control byte. -/
def seqBits (n : Seq) (shift : UInt8) : UInt8 := (UInt8.ofNat n.val &&& 0x07) <<< shift

def pfBits (pf : Bool) : UInt8 := (if pf then (1 : UInt8) else 0) <<< 4

def sabm (dest src : AX25Address) : AX25Frame :=
  { dest := { dest with ch := true }, src := { src with ch := false }, control := ctrlSabm }

def ua (dest src : AX25Address) (final : Bool := true) : AX25Frame :=
  { dest := { dest with ch := false }, src := { src with ch := true }
    control := if final then ctrlUa else ctrlUa &&& ~~~pfBit }

def disc (dest src : AX25Address) : AX25Frame :=
  { dest := { dest with ch := true }, src := { src with ch := false }, control := ctrlDisc }

def dm (dest src : AX25Address) (final : Bool := true) : AX25Frame :=
  { dest := { dest with ch := false }, src := { src with ch := true }
    control := if final then ctrlDm else ctrlDm &&& ~~~pfBit }

/-- The three supervisory factories differ in the type bits of the control byte. -/
def supervisory (stype : UInt8) (dest src : AX25Address) (nr : Seq) (pf command : Bool) :
    AX25Frame :=
  { dest := { dest with ch := command }, src := { src with ch := !command }
    control := seqBits nr 5 ||| pfBits pf ||| stype }

def rr (dest src : AX25Address) (nr : Seq) (pf : Bool := false) (command : Bool := false) :=
  supervisory 0x01 dest src nr pf command

def rnr (dest src : AX25Address) (nr : Seq) (pf : Bool := false) (command : Bool := false) :=
  supervisory 0x05 dest src nr pf command

def rej (dest src : AX25Address) (nr : Seq) (pf : Bool := false) (command : Bool := false) :=
  supervisory 0x09 dest src nr pf command

def iframe (dest src : AX25Address) (ns nr : Seq) (info : Bytes)
    (pid : UInt8 := pidNoL3) (pf : Bool := false) : AX25Frame :=
  { dest := { dest with ch := true }, src := { src with ch := false }
    control := seqBits nr 5 ||| pfBits pf ||| seqBits ns 1
    pid := some pid, info }

def ui (dest src : AX25Address) (info : Bytes) (pid : UInt8 := pidNoL3)
    (repeaters : List AX25Address := []) : AX25Frame :=
  { dest, src, repeaters, control := ctrlUi, pid := some pid, info }

/-- The in-place update of `_retransmit_from`:
`frame.control = (frame.control & 0x1F) | ((vr & 0x07) << 5)`. -/
def withNr (frame : AX25Frame) (vr : Seq) : AX25Frame :=
  { frame with control := (frame.control &&& 0x1F) ||| seqBits vr 5 }

variable {dest src : AX25Address} {info : Bytes} {pid : UInt8} {pf command final : Bool}

private theorem iframe_control (ns nr : Seq) (pf : Bool) :
    classify (seqBits nr 5 ||| pfBits pf ||| seqBits ns 1) = .i ∧
      seqOf ((seqBits nr 5 ||| pfBits pf ||| seqBits ns 1) >>> 1) = ns ∧
      seqOf ((seqBits nr 5 ||| pfBits pf ||| seqBits ns 1) >>> 5) = nr := by
  revert ns nr pf
  decide

private theorem withNr_control (ns nr vr : Seq) (pf : Bool) :
    ((seqBits nr 5 ||| pfBits pf ||| seqBits ns 1) &&& 0x1F) ||| seqBits vr 5 =
      seqBits vr 5 ||| pfBits pf ||| seqBits ns 1 := by
  revert ns nr vr pf
  decide

private theorem supervisory_control (nr : Seq) (pf : Bool) :
    classify (seqBits nr 5 ||| pfBits pf ||| 0x01) = .rr ∧
      classify (seqBits nr 5 ||| pfBits pf ||| 0x05) = .rnr ∧
      classify (seqBits nr 5 ||| pfBits pf ||| 0x09) = .rej ∧
      seqOf ((seqBits nr 5 ||| pfBits pf ||| 0x01) >>> 5) = nr ∧
      seqOf ((seqBits nr 5 ||| pfBits pf ||| 0x05) >>> 5) = nr ∧
      seqOf ((seqBits nr 5 ||| pfBits pf ||| 0x09) >>> 5) = nr := by
  revert nr pf
  decide

@[simp] theorem frameType_iframe (ns nr : Seq) :
    (iframe dest src ns nr info pid pf).frameType = .i :=
  (iframe_control ns nr pf).1

@[simp] theorem ns_iframe (ns nr : Seq) : (iframe dest src ns nr info pid pf).ns = ns :=
  (iframe_control ns nr pf).2.1

@[simp] theorem nr_iframe (ns nr : Seq) : (iframe dest src ns nr info pid pf).nr = nr :=
  (iframe_control ns nr pf).2.2

@[simp] theorem info_iframe (ns nr : Seq) : (iframe dest src ns nr info pid pf).info = info :=
  rfl

/-- Renewing N(R) in a queued I frame gives the I frame built with the new N(R). -/
@[simp] theorem withNr_iframe (ns nr vr : Seq) :
    (iframe dest src ns nr info pid pf).withNr vr = iframe dest src ns vr info pid pf := by
  simp only [iframe, withNr, withNr_control]

@[simp] theorem frameType_rr (nr : Seq) : (rr dest src nr pf command).frameType = .rr :=
  (supervisory_control nr pf).1

@[simp] theorem frameType_rnr (nr : Seq) : (rnr dest src nr pf command).frameType = .rnr :=
  (supervisory_control nr pf).2.1

@[simp] theorem frameType_rej (nr : Seq) : (rej dest src nr pf command).frameType = .rej :=
  (supervisory_control nr pf).2.2.1

@[simp] theorem nr_rr (nr : Seq) : (rr dest src nr pf command).nr = nr :=
  (supervisory_control nr pf).2.2.2.1

@[simp] theorem nr_rnr (nr : Seq) : (rnr dest src nr pf command).nr = nr :=
  (supervisory_control nr pf).2.2.2.2.1

@[simp] theorem nr_rej (nr : Seq) : (rej dest src nr pf command).nr = nr :=
  (supervisory_control nr pf).2.2.2.2.2

private theorem unnumbered_control :
    classify ctrlDm = .dm ∧ classify (ctrlDm &&& ~~~pfBit) = .dm ∧
      classify ctrlUa = .ua ∧ classify (ctrlUa &&& ~~~pfBit) = .ua ∧
      classify ctrlDisc = .disc ∧ classify ctrlSabm = .sabm ∧ classify ctrlUi = .ui := by
  decide

@[simp] theorem frameType_dm : (dm dest src final).frameType = .dm := by
  cases final
  · exact unnumbered_control.2.1
  · exact unnumbered_control.1

@[simp] theorem frameType_ua : (ua dest src final).frameType = .ua := by
  cases final
  · exact unnumbered_control.2.2.2.1
  · exact unnumbered_control.2.2.1

@[simp] theorem frameType_disc : (disc dest src).frameType = .disc :=
  unnumbered_control.2.2.2.2.1

@[simp] theorem frameType_sabm : (sabm dest src).frameType = .sabm :=
  unnumbered_control.2.2.2.2.2.1

@[simp] theorem frameType_ui {repeaters : List AX25Address} :
    (ui dest src info pid repeaters).frameType = .ui :=
  unnumbered_control.2.2.2.2.2.2

end AX25Frame

end PyBulletin.Ax25
