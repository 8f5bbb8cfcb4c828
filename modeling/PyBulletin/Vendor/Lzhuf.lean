import PyBulletin.Foundation.Fueled
import PyBulletin.Foundation.Text

set_option autoImplicit false

namespace PyBulletin.Vendor.Lzhuf

open PyBulletin.Foundation

def N : Nat := 4096
def F : Nat := 18
def threshold : Nat := 2
def NIL : Nat := N

def nChar : Nat := 256 - threshold + F
def T : Nat := nChar * 2 - 1
def R : Nat := T - 1
def maxFreq : Nat := 0x8000

/-- A list of `size` integers.  An index outside it raises. -/
structure Table (size : Nat) where
  cell : Nat → Nat

namespace Table

variable {size : Nat}

def fill (value : Nat) : Table size := ⟨fun _ => value⟩

def put (table : Table size) (i value : Nat) : Table size :=
  ⟨fun j => if j = i then value else table.cell j⟩

def get (table : Table size) (i : Nat) : Fueled Nat :=
  if i < size then pure (table.cell i) else Fueled.raise

def set (table : Table size) (i value : Nat) : Fueled (Table size) :=
  if i < size then pure (table.put i value) else Fueled.raise

end Table

structure BitWriter where
  buf : Bytes
  byte : UInt8
  mask : UInt8

namespace BitWriter

def init : BitWriter := ⟨[], 0, 0x80⟩

def writeBit (writer : BitWriter) (bit : Bool) : BitWriter :=
  let byte := if bit then writer.byte ||| writer.mask else writer.byte
  let mask := writer.mask >>> 1
  if mask = 0 then ⟨writer.buf ++ [byte], 0, 0x80⟩ else ⟨writer.buf, byte, mask⟩

/-- `write_bits(value, n)`: the mask runs from `1 << (n - 1)` down to 1. -/
def writeBits (writer : BitWriter) (value : Nat) : Nat → BitWriter
  | 0 => writer
  | n + 1 => (writer.writeBit (value.testBit n)).writeBits value n

def flush (writer : BitWriter) : Bytes :=
  if writer.mask ≠ 0x80 then writer.buf ++ [writer.byte] else writer.buf

end BitWriter

structure BitReader where
  data : Bytes
  pos : Nat
  byte : UInt8
  mask : UInt8
  eof : Bool

namespace BitReader

def init (data : Bytes) : BitReader := ⟨data, 0, 0, 0, false⟩

def nextByte (reader : BitReader) : UInt8 × BitReader :=
  match reader.data[reader.pos]? with
  | none => (0, { reader with eof := true })
  | some b => (b, { reader with pos := reader.pos + 1 })

def readBit (reader : BitReader) : Bool × BitReader :=
  let reader :=
    if reader.mask = 0 then
      let (byte, reader) := reader.nextByte
      { reader with byte, mask := 0x80 }
    else reader
  (reader.byte &&& reader.mask ≠ 0, { reader with mask := reader.mask >>> 1 })

/-- `value` is what the bits before these gave. -/
def readBits (reader : BitReader) : Nat → (value : Nat) → Nat × BitReader
  | 0, value => (value, reader)
  | n + 1, value =>
      let (bit, reader) := reader.readBit
      reader.readBits n (value * 2 + bit.toNat)

end BitReader

structure HuffmanTree where
  freq : Table (T + 1)
  prnt : Table (T + nChar)
  son : Table T

namespace HuffmanTree

def leaf (tree : HuffmanTree) (i : Nat) : HuffmanTree :=
  ⟨tree.freq.put i 1, tree.prnt.put (i + T) i, tree.son.put i (i + T)⟩

/-- Node `j` over the nodes `i` and `i + 1`. -/
def node (tree : HuffmanTree) (i j : Nat) : HuffmanTree :=
  ⟨tree.freq.put j (tree.freq.cell i + tree.freq.cell (i + 1)),
    (tree.prnt.put i j).put (i + 1) j, tree.son.put j i⟩

def init : HuffmanTree :=
  let tree : HuffmanTree := ⟨.fill 0, .fill 0, .fill 0⟩
  let tree := (List.range nChar).foldl leaf tree
  let tree := (List.range (R + 1 - nChar)).foldl
    (fun tree m => tree.node (2 * m) (nChar + m)) tree
  { tree with freq := tree.freq.put T 0xFFFF, prnt := tree.prnt.put R 0 }

/-- First loop of `_rescale`: the leaves move to the front, their frequencies halved. -/
def halveLeaves (tree : HuffmanTree) : Fueled HuffmanTree := do
  let (tree, _) ← (List.range T).foldlM (fun (tree, j) i => do
    let child ← tree.son.get i
    if T ≤ child then do
      let weight ← tree.freq.get i
      let freq ← tree.freq.set j ((weight + 1) >>> 1)
      let son ← tree.son.set j child
      pure ({ tree with freq, son }, j + 1)
    else pure (tree, j)) (tree, 0)
  pure tree

/-- `k = j - 1`, then `while freq[k] > f: k -= 1`, then `k += 1`.  The scan stops
at the front at the latest: `freq[0]` is the smallest frequency. -/
def slot (freq : Table (T + 1)) (f : Nat) : Nat → Nat
  | 0 => 0
  | k + 1 => if f < freq.cell k then slot freq f k else k + 1

/-- `table[k + 1:j + 1] = table[k:j]`, then `table[k] = value`. -/
def insertAt {size : Nat} (table : Table size) (k j value : Nat) : Table size :=
  Table.put ⟨fun x => if k < x ∧ x ≤ j then table.cell (x - 1) else table.cell x⟩ k value

def rebuildNodes (tree : HuffmanTree) : Fueled HuffmanTree :=
  (List.range (T - nChar)).foldlM (fun tree m => do
    let i := 2 * m
    let j := nChar + m
    let left ← tree.freq.get i
    let right ← tree.freq.get (i + 1)
    let f := left + right
    let freq ← tree.freq.set j f
    let k := slot freq f j
    pure { tree with freq := insertAt freq k j f, son := insertAt tree.son k j i }) tree

def rebuildPrnt (tree : HuffmanTree) : Fueled HuffmanTree :=
  (List.range T).foldlM (fun tree i => do
    let k ← tree.son.get i
    let prnt ← tree.prnt.set k i
    let prnt ← if k < T then prnt.set (k + 1) i else pure prnt
    pure { tree with prnt }) tree

def rescale (tree : HuffmanTree) : Fueled HuffmanTree := do
  let tree ← tree.halveLeaves
  let tree ← tree.rebuildNodes
  tree.rebuildPrnt

/-- `while freq[k + 1] < freq[c]: k += 1`. -/
def lastLighter (freq : Table (T + 1)) (c : Nat) : Nat → Fueled Nat :=
  Fueled.loop fun k => do
    let above ← freq.get (k + 1)
    let own ← freq.get c
    if above < own then pure (.inl (k + 1)) else pure (.inr k)

/-- The children of node `i` get it as their parent. -/
def adopt (prnt : Table (T + nChar)) (son : Table T) (i : Nat) : Fueled (Table (T + nChar)) := do
  let child ← son.get i
  let prnt ← prnt.set child i
  if child < T then prnt.set (child + 1) i else pure prnt

def swap (tree : HuffmanTree) (c k : Nat) : Fueled HuffmanTree := do
  let l ← tree.son.get c
  let child ← tree.son.get k
  let son ← tree.son.set c child
  let son ← son.set k l
  let prnt ← adopt tree.prnt son c
  let prnt ← adopt prnt son k
  let own ← tree.freq.get c
  let other ← tree.freq.get k
  let freq ← tree.freq.set c other
  let freq ← freq.set k own
  pure { freq, prnt, son }

/-- `while c != R` of `update`: one more occurrence on the way up to the root. -/
def promote : HuffmanTree × Nat → Fueled HuffmanTree :=
  Fueled.loop fun (tree, c) =>
    if c = R then pure (.inr tree) else do
      let weight ← tree.freq.get c
      let freq ← tree.freq.set c (weight + 1)
      let tree := { tree with freq }
      let next ← freq.get (c + 1)
      if next < weight + 1 then do
        let k ← lastLighter freq c (c + 1)
        let tree ← tree.swap c k
        let up ← tree.prnt.get k
        pure (.inl (tree, up))
      else do
        let up ← tree.prnt.get c
        pure (.inl (tree, up))

def update (tree : HuffmanTree) (c : Nat) : Fueled HuffmanTree := do
  let total ← tree.freq.get R
  let tree ← if total = maxFreq then tree.rescale else pure tree
  let up ← tree.prnt.get (c + T)
  promote (tree, up)

/-- The bits collected on the way from `prev` and its parent `cur` up to the root,
in front of those of the way below: the list comes out reversed already. -/
def climb (tree : HuffmanTree) : Nat × Nat × List Bool → Fueled (List Bool) :=
  Fueled.loop fun (cur, prev, bits) => do
    let first ← tree.son.get cur
    let bits := (first != prev) :: bits
    if cur = R then pure (.inr bits) else do
      let up ← tree.prnt.get cur
      pure (.inl (up, cur, bits))

def encodeChar (tree : HuffmanTree) (c : Nat) (writer : BitWriter) :
    Fueled (HuffmanTree × BitWriter) := do
  let cur ← tree.prnt.get (c + T)
  let bits ← tree.climb (cur, c + T, [])
  let tree ← tree.update c
  pure (tree, bits.foldl BitWriter.writeBit writer)

/-- `while node < T: node = son[node + read_bit()]`. -/
def walk (tree : HuffmanTree) : Nat × BitReader → Fueled (Nat × BitReader) :=
  Fueled.loop fun (node, reader) =>
    if node < T then do
      let (bit, reader) := reader.readBit
      let node ← tree.son.get (node + bit.toNat)
      pure (.inl (node, reader))
    else pure (.inr (node, reader))

def decodeChar (tree : HuffmanTree) (reader : BitReader) :
    Fueled (Nat × HuffmanTree × BitReader) := do
  let top ← tree.son.get R
  let (node, reader) ← tree.walk (top, reader)
  let tree ← tree.update (node - T)
  pure (node - T, tree, reader)

end HuffmanTree

structure TextBuffer where
  buf : Table (N + F - 1)
  lson : Table (N + 1)
  rson : Table (N + 257)
  dad : Table (N + 1)
  matchPos : Nat
  matchLen : Nat

namespace TextBuffer

def init : TextBuffer := ⟨.fill 0, .fill NIL, .fill NIL, .fill NIL, 0, 0⟩

/-- `while i < F and buf[(r + i) % N] == buf[(p + i) % N]: i += 1`. -/
def common (buf : Table (N + F - 1)) (r p : Nat) : Nat → Fueled Nat :=
  Fueled.loop fun i =>
    if i < F then do
      let own ← buf.get ((r + i) % N)
      let other ← buf.get ((p + i) % N)
      if own = other then pure (.inl (i + 1)) else pure (.inr i)
    else pure (.inr i)

/-- Where the search for the place of `r` ends: it hangs below a node, or it takes
the place of the node `p` whose string is the same over all `F` bytes. -/
inductive Place where
  | hung
  | same (p : Nat)

def hang (tb : TextBuffer) (r p : Nat) : Fueled TextBuffer := do
  let dad ← tb.dad.set r p
  pure { tb with dad }

/-- The child of `p` on the side `cmp` points to. -/
def side (tb : TextBuffer) (p : Nat) (cmp : Int) : Fueled Nat :=
  if 0 ≤ cmp then tb.rson.get p else tb.lson.get p

/-- `buf[(r + i) % N] - buf[(p + i) % N] if i < F else 0`. -/
def order (buf : Table (N + F - 1)) (r p i : Nat) : Fueled Int :=
  if i < F then do
    let own ← buf.get ((r + i) % N)
    let other ← buf.get ((p + i) % N)
    pure (own - other)
  else pure 0

/-- The `while True` of `insert_node`. -/
def search (r : Nat) : TextBuffer × Nat × Int → Fueled (TextBuffer × Place) :=
  Fueled.loop fun (tb, p, cmp) => do
    let below ← tb.side p cmp
    if below = NIL then
      if 0 ≤ cmp then do
        let rson ← tb.rson.set p r
        let tb ← hang { tb with rson } r p
        pure (.inr (tb, .hung))
      else do
        let lson ← tb.lson.set p r
        let tb ← hang { tb with lson } r p
        pure (.inr (tb, .hung))
    else do
      let p := below
      let i ← common tb.buf r p 1
      let cmp ← order tb.buf r p i
      if tb.matchLen < i then
        let tb := { tb with matchPos := p, matchLen := i }
        if F ≤ i then pure (.inr (tb, .same p)) else pure (.inl (tb, p, cmp))
      else pure (.inl (tb, p, cmp))

/-- The children of the parent of `p` after `q` takes its place. -/
def relink (tb : TextBuffer) (p q : Nat) : Fueled TextBuffer := do
  let up ← tb.dad.get p
  let right ← tb.rson.get up
  if right = p then do
    let rson ← tb.rson.set up q
    let dad ← tb.dad.set p NIL
    pure { tb with rson, dad }
  else do
    let lson ← tb.lson.set up q
    let dad ← tb.dad.set p NIL
    pure { tb with lson, dad }

/-- The last lines of `insert_node`: `r` takes the place of `p`. -/
def replace (tb : TextBuffer) (r p : Nat) : Fueled TextBuffer := do
  let up ← tb.dad.get p
  let dad ← tb.dad.set r up
  let left ← tb.lson.get p
  let lson ← tb.lson.set r left
  let right ← tb.rson.get p
  let rson ← tb.rson.set r right
  let left ← lson.get p
  let dad ← dad.set left r
  let right ← rson.get p
  let dad ← dad.set right r
  relink { tb with lson, rson, dad } p r

def insertNode (tb : TextBuffer) (r : Nat) : Fueled TextBuffer := do
  let first ← tb.buf.get r
  let lson ← tb.lson.set r NIL
  let rson ← tb.rson.set r NIL
  let (tb, place) ← search r ({ tb with lson, rson, matchLen := 0 }, N + 1 + first, 1)
  match place with
  | .hung => pure tb
  | .same p => tb.replace r p

/-- `while rson[q] != NIL: q = rson[q]`. -/
def rightmost (rson : Table (N + 257)) : Nat → Fueled Nat :=
  Fueled.loop fun q => do
    let right ← rson.get q
    if right = NIL then pure (.inr q) else pure (.inl right)

/-- The rightmost node below `q`, the left child of `p`, taken out of its place and
put over the left subtree of `p`. -/
def liftRightmost (tb : TextBuffer) (p q : Nat) : Fueled (TextBuffer × Nat) := do
  let right ← tb.rson.get q
  if right = NIL then pure (tb, q) else do
    let q ← rightmost tb.rson q
    let up ← tb.dad.get q
    let left ← tb.lson.get q
    let rson ← tb.rson.set up left
    let up ← tb.dad.get q
    let dad ← tb.dad.set left up
    let top ← tb.lson.get p
    let lson ← tb.lson.set q top
    let dad ← dad.set top q
    pure ({ tb with rson, lson, dad }, q)

/-- The node `q` that takes the place of `p`. -/
def heir (tb : TextBuffer) (p : Nat) : Fueled (TextBuffer × Nat) := do
  let right ← tb.rson.get p
  let left ← tb.lson.get p
  if right = NIL then pure (tb, left)
  else if left = NIL then pure (tb, right)
  else do
    let (tb, q) ← tb.liftRightmost p left
    let right ← tb.rson.get p
    let rson ← tb.rson.set q right
    let dad ← tb.dad.set right q
    pure ({ tb with rson, dad }, q)

def deleteNode (tb : TextBuffer) (p : Nat) : Fueled TextBuffer := do
  let up ← tb.dad.get p
  if up = NIL then pure tb else do
    let (tb, q) ← tb.heir p
    let up ← tb.dad.get p
    let dad ← tb.dad.set q up
    relink { tb with dad } p q

end TextBuffer

/-- `struct.pack("<I", n)`. -/
def packSize (n : Nat) : Fueled Bytes :=
  if n < 2 ^ 32 then
    pure [n.toUInt8, (n >>> 8).toUInt8, (n >>> 16).toUInt8, (n >>> 24).toUInt8]
  else Fueled.raise

/-- `struct.unpack_from("<I", data, 0)`. -/
def unpackSize : Bytes → Option Nat
  | b0 :: b1 :: b2 :: b3 :: _ =>
      some (b0.toNat + b1.toNat * 2 ^ 8 + b2.toNat * 2 ^ 16 + b3.toNat * 2 ^ 24)
  | _ => none

/-- `(r - d - 1) % N`. -/
def back (r d : Nat) : Nat := (((r : Int) - d - 1) % N).toNat

/-- The local variables of `compress`; `rest` is `data[in_pos:]`. -/
structure Compressor where
  tree : HuffmanTree
  writer : BitWriter
  tb : TextBuffer
  r : Nat
  s : Nat
  len : Nat
  rest : Bytes

namespace Compressor

/-- The window before the loop: blanks, then the first `F` bytes of the data. -/
def window (data : Bytes) : Table (N + F - 1) :=
  ⟨fun i => if i < N - F then 32 else
    match (data.take F)[i - (N - F)]? with
    | none => 0
    | some b => b.toNat⟩

def start (tree : HuffmanTree) (data : Bytes) : Fueled Compressor := do
  let tb := { TextBuffer.init with buf := window data }
  let r := N - F
  let tb ← (List.range F).foldlM (fun tb i => tb.insertNode ((r - (i + 1)) % N)) tb
  let tb ← tb.insertNode r
  pure ⟨tree, .init, tb, r, 0, (data.take F).length, data.drop F⟩

def literal (state : Compressor) : Fueled Compressor := do
  let c ← state.tb.buf.get state.r
  let (tree, writer) ← state.tree.encodeChar c state.writer
  pure { state with tree, writer, tb := { state.tb with matchLen := 1 } }

def reference (state : Compressor) (matchLen : Nat) : Fueled Compressor := do
  let (tree, writer) ← state.tree.encodeChar (255 - threshold + matchLen) state.writer
  let writer := writer.writeBits (back state.r state.tb.matchPos) 12
  pure { state with tree, writer, tb := { state.tb with matchLen } }

/-- `match_len`, cut to the bytes left. -/
def cut (state : Compressor) : Nat :=
  if state.len < state.tb.matchLen then state.len else state.tb.matchLen

/-- One symbol: the byte at `r`, or a reference to the match that was found. -/
def emit (state : Compressor) : Fueled Compressor :=
  if state.cut ≤ threshold then state.literal else state.reference state.cut

/-- `for _ in range(last_match_len)`: the window moves on by that many bytes. -/
def advance : Nat → Compressor → Fueled Compressor
  | 0, state => pure state
  | left + 1, state => do
      let tb ← state.tb.deleteNode state.s
      match state.rest with
      | c :: rest => do
          let buf ← tb.buf.set state.s c.toNat
          let r := (state.r + 1) % N
          let tb ← { tb with buf }.insertNode r
          advance left { state with tb, r, s := (state.s + 1) % N, rest }
      | [] =>
          let len := state.len - 1
          if len = 0 then pure { state with tb, len } else do
            let r := (state.r + 1) % N
            let tb ← tb.insertNode r
            advance left { state with tb, r, s := (state.s + 1) % N, len }

def symbol (state : Compressor) : Fueled Compressor := do
  let state ← state.emit
  advance state.tb.matchLen state

/-- `while len_ > 0`. -/
def encode : Compressor → Fueled Compressor :=
  Fueled.loop fun state =>
    if 0 < state.len then do
      let next ← state.symbol
      pure (.inl next)
    else pure (.inr state)

end Compressor

def compress (data : Bytes) : Fueled Bytes := do
  let state ← Compressor.start .init data
  let state ← state.encode
  let header ← packSize data.length
  pure (header ++ state.writer.flush)

/-- The local variables of `decompress`; `count` is the length of `out`. -/
structure Decompressor where
  tree : HuffmanTree
  reader : BitReader
  buf : Table N
  r : Nat
  out : Bytes

namespace Decompressor

def start (tree : HuffmanTree) (data : Bytes) : Decompressor :=
  ⟨tree, .init data, ⟨fun i => if i < N - F then 32 else 0⟩, N - F, []⟩

def append (state : Decompressor) (c : Nat) : Fueled Decompressor := do
  let buf ← state.buf.set state.r c
  pure { state with buf, r := (state.r + 1) % N, out := state.out ++ [c.toUInt8] }

/-- The copy loop of a match, `left` bytes from `pos` on. -/
def copy (originalSize : Nat) : (left pos : Nat) → Decompressor → Fueled Decompressor
  | 0, _, state => pure state
  | left + 1, pos, state => do
      let c ← state.buf.get (pos % N)
      let state ← state.append c
      if originalSize ≤ state.out.length then pure state
      else copy originalSize left (pos + 1) state

/-- What a turn does with its symbol: a byte, or the length of a match. -/
def take (originalSize c : Nat) (state : Decompressor) : Fueled Decompressor :=
  if c < 256 then state.append c
  else
    let distance := state.reader.readBits 12 0
    copy originalSize (c - 255 + threshold) (back state.r distance.1)
      { state with reader := distance.2 }

/-- `while count < original_size`. -/
def decode (originalSize : Nat) : Decompressor → Fueled Bytes :=
  Fueled.loop fun state =>
    if state.out.length < originalSize then do
      let (c, tree, reader) ← state.tree.decodeChar state.reader
      if reader.eof ∧ c = 0 then pure (.inr state.out)
      else do
        let next ← take originalSize c { state with tree, reader }
        pure (.inl next)
    else pure (.inr state.out)

end Decompressor

/-- `decompress(data, original_size)`.  The header is skipped only where the size is
left out. -/
def decompress (data : Bytes) (originalSize : Option Nat) : Fueled Bytes :=
  match originalSize with
  | some size => (Decompressor.start .init data).decode size
  | none =>
      match unpackSize data with
      | none => Fueled.raise
      | some size => (Decompressor.start .init (data.drop 4)).decode size

end PyBulletin.Vendor.Lzhuf
