import CellAbi.Cell.Basic
import CellAbi.Cell.Error

/-!
# Building cells

A builder collects the bits and references of one cell.  Every operation checks that what it stores
fits before it stores anything; an operation made of several of these keeps what its earlier parts
stored when a later part fails.
-/

namespace CellAbi

/-- The bytes, bit count and references stored so far. -/
structure Builder where
  data : List UInt8 := []
  bitLen : Nat := 0
  refs : List Cell := []

/-- A step of building.  The builder is kept also when the step fails. -/
abbrev Store := EStateM CellError Builder Unit

namespace Builder

/-- The builder without bits and references. -/
def empty : Builder := {}

/-- The bits stored so far. -/
def bits (b : Builder) : List Bool := (Bits.ofBytes b.data).take b.bitLen

/-- Bits that still fit. -/
def availableBits (b : Builder) : Nat := Cell.maxBits - b.bitLen

/-- Appends one bit.  A new byte is begun when the last one is full. -/
def pushBit (b : Builder) (bit : Bool) : Builder :=
  let data := if b.bitLen % 8 = 0 then b.data ++ [0] else b.data
  { b with
    data := if bit then data.modify (data.length - 1) (· ||| Bits.mask b.bitLen) else data
    bitLen := b.bitLen + 1 }

/-- Appends bits in order. -/
def pushBits (b : Builder) (bits : List Bool) : Builder := bits.foldl pushBit b

/-- The finished cell. -/
def build (b : Builder) : Cell := .node b.data b.bitLen b.refs

end Builder

namespace Store

/-- Fails unless `bits` more bits fit. -/
def reserve (bits : Nat) : Store := do
  let b ← get
  if bits > b.availableBits then throw (.bitOverflow bits b.availableBits)

/-- Stores bits that fit. -/
def bitList (bits : List Bool) : Store := do
  reserve bits.length
  modify (·.pushBits bits)

def bit (b : Bool) : Store := do
  reserve 1
  modify (·.pushBit b)

/-- The `width` low bits of a machine word, most significant first. -/
def wordBits (width : Nat) (value : UInt64) : List Bool :=
  (List.range width).reverse.map fun i => i < 64 && (value >>> i.toUInt64) &&& 1 == 1

/-- Stores a machine word in `width` bits. -/
def word (value : UInt64) (width : Nat) : Store := do
  if width < 64 ∧ value >>> width.toUInt64 ≠ 0 then
    throw (.valueOutOfRange value.toNat width)
  reserve width
  modify (·.pushBits (wordBits width value))

/-- Stores a number in `width` bits. -/
def nat (value width : Nat) : Store := do
  if Bits.size value > width then throw (.valueOutOfRange value width)
  reserve width
  modify (·.pushBits (Bits.ofNat width value))

/-- Stores an integer in `width` bits, two's complement. -/
def int (value : Int) (width : Nat) : Store := do
  if !Bits.fitsSigned width value then throw (.valueOutOfRange value width)
  reserve width
  modify (·.pushBits (Bits.ofInt width value))

/-- Stores the first `count` bits of `bytes`. -/
def bytes (bytes : List UInt8) (count : Nat) : Store := do
  if count > bytes.length * 8 then throw (.bitUnderflow count (bytes.length * 8))
  reserve count
  modify (·.pushBits ((Bits.ofBytes bytes).take count))

def ref (c : Cell) : Store := do
  if (← get).refs.length ≥ Cell.maxRefs then throw .refOverflow
  modify fun b => { b with refs := b.refs ++ [c] }

def refList (cs : List Cell) : Store := cs.forM ref

/-- Stores a presence bit and, after a set one, the reference. -/
def maybeRef : Option Cell → Store
  | none => bit false
  | some c => do
    if (← get).refs.length ≥ Cell.maxRefs then throw .refOverflow
    bit true
    ref c

end Store

/-- Runs a step from the empty builder and finishes the cell. -/
def Cell.ofStore (step : Store) : Except CellError Cell :=
  match step.run .empty with
  | .ok _ b => .ok b.build
  | .error e _ => .error e

end CellAbi
