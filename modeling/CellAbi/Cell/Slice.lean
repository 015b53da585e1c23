import CellAbi.Cell.Builder

/-!
# Reading cells

A slice is a cursor in a cell: a position among its bits and one among its references.  Loading
moves the cursor forward.  A load that is refused for lack of bits or references leaves the cursor
where it was; a load made of several parts keeps what its earlier parts read.
-/

namespace CellAbi

structure Slice where
  cell : Cell
  bitPos : Nat := 0
  refPos : Nat := 0

/-- A step of reading.  The cursor is kept also when the step fails. -/
abbrev Load := EStateM CellError Slice

/-- The cursor at the start of a cell. -/
def Cell.toSlice (c : Cell) : Slice := { cell := c }

namespace Slice

def remainingBits (s : Slice) : Nat := s.cell.bitLen - s.bitPos

def remainingRefs (s : Slice) : Nat := s.cell.refs.length - s.refPos

/-- The next `count` bits; past the data they read as clear. -/
def peekBits (s : Slice) (count : Nat) : List Bool :=
  (List.range count).map fun i => Bits.get s.cell.data (s.bitPos + i)

/-- The unread bits. -/
def restBits (s : Slice) : List Bool := s.peekBits s.remainingBits

/-- The unread references. -/
def restRefs (s : Slice) : List Cell := s.cell.refs.drop s.refPos

end Slice

namespace Load

/-- Fails unless `bits` more bits are left. -/
def ensure (bits : Nat) : Load Unit := do
  let s ← get
  if bits > s.remainingBits then throw (.bitUnderflow bits s.remainingBits)

/-- Takes the next `count` bits. -/
def bitList (count : Nat) : Load (List Bool) := do
  ensure count
  modifyGet fun s => (s.peekBits count, { s with bitPos := s.bitPos + count })

def bit : Load Bool := do
  ensure 1
  modifyGet fun s => (Bits.get s.cell.data s.bitPos, { s with bitPos := s.bitPos + 1 })

/-- The machine word of a bit string, shifted in from the right. -/
def wordOfBits (bits : List Bool) : UInt64 :=
  bits.foldl (fun value b => (value <<< 1) ||| (if b then 1 else 0)) 0

/-- Reads an unsigned machine word of at most 64 bits. -/
def word (width : Nat) : Load UInt64 := do
  if width > 64 then throw (.widerThanWord false width)
  return wordOfBits (← bitList width)

/-- Reads a signed machine word of at most 64 bits. -/
def signedWord (width : Nat) : Load Int64 := do
  if width > 64 then throw (.widerThanWord true width)
  let raw ← word width
  if width = 0 then return 0
  let value : Int := raw.toNat
  return Int64.ofInt (if raw.toNat.testBit (width - 1) then value - 2 ^ width else value)

def nat (width : Nat) : Load Nat := do
  return Bits.toNat (← bitList width)

/-- Reads a two's complement integer. -/
def int (width : Nat) : Load Int := do
  return Bits.toInt (← bitList width)

/-- Reads `count` bits into bytes; the last byte is filled with zeros. -/
def bytes (count : Nat) : Load (List UInt8) := do
  return Bits.toBytes (← bitList count)

def ref : Load Cell := do
  let s ← get
  match s.cell.refs[s.refPos]? with
  | none => throw .refUnderflow
  | some c =>
    set { s with refPos := s.refPos + 1 }
    return c

/-- Reads a presence bit and, after a set one, a reference. -/
def maybeRef : Load (Option Cell) := do
  if ← bit then return some (← ref) else return none

end Load

/-- Stores what a slice has left: its bits, then its references one by one. -/
def Store.slice (s : Slice) : Store := do
  let count := s.remainingBits
  Store.bytes (Bits.toBytes s.restBits) count
  Store.refList s.restRefs

end CellAbi
