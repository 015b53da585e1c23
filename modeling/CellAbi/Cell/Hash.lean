import CellAbi.Cell.Slice
import CellAbi.Checksum.Sha256

/-!
# Hash of a cell

A cell is hashed over its two descriptor bytes, its data with a completion tag, and the depths and
hashes of its references.  The hash function is a parameter; the representation hash takes SHA-256.
-/

namespace CellAbi

namespace Cell

/-- The descriptor bytes: number of references, and twice the data bytes less one when the last is
only partly used. -/
def descriptors (bitLen : Nat) (refs : Nat) : List UInt8 :=
  [UInt8.ofNat refs, UInt8.ofNat (bitLen / 8 + Bits.byteCount bitLen)]

/-- Data bytes with a set bit behind the last data bit, when that bit does not end a byte. -/
def taggedData (data : List UInt8) (bitLen : Nat) : List UInt8 :=
  if bitLen % 8 = 0 then data else data.modify (data.length - 1) (· ||| Bits.mask bitLen)

/-- A depth in two bytes, high byte first. -/
def depthBytes (depth : Nat) : List UInt8 := [UInt8.ofNat (depth / 256), UInt8.ofNat depth]

mutual

/-- The hash of a cell under the hash function `h`. -/
def hashWith (h : List UInt8 → Digest) : Cell → Digest
  | node data bitLen refs =>
    h (descriptors bitLen refs.length ++ taggedData data bitLen ++
      refs.flatMap (fun r => depthBytes r.depth) ++ hashesWith h refs)

/-- The hashes of the references, one after the other. -/
def hashesWith (h : List UInt8 → Digest) : List Cell → List UInt8
  | [] => []
  | c :: cs => (hashWith h c).bytes ++ hashesWith h cs

end

/-- The bytes that are hashed for a cell. -/
def hashInput (h : List UInt8 → Digest) (c : Cell) : List UInt8 :=
  descriptors c.bitLen c.refs.length ++ taggedData c.data c.bitLen ++
    c.refs.flatMap (fun r => depthBytes r.depth) ++ hashesWith h c.refs

theorem hashWith_eq (h : List UInt8 → Digest) (c : Cell) : hashWith h c = h (hashInput h c) := by
  cases c
  rw [hashWith]
  rfl

/-- The representation hash. -/
def hash (c : Cell) : Digest := hashWith Sha256.digest c

end Cell

/-! ## Initial state -/

/-- The code and data a contract starts with. -/
structure StateInit where
  code : Cell
  data : Cell
deriving DecidableEq

/-- The cell form: no split depth, not special, code, data, no libraries. -/
def StateInit.toCell (init : StateInit) : Except CellError Cell :=
  Cell.ofStore do
    Store.word 0 2
    Store.maybeRef (some init.code)
    Store.maybeRef (some init.data)
    Store.bit false

end CellAbi
