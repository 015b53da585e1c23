import CellAbi.Cell.Hash
import CellAbi.Checksum.Crc32c
import CellAbi.Text.Blank

/-!
# Bags of cells

A bag is the byte form of a cell tree: a header, then one record per cell.  A record holds the two
descriptor bytes, the data bytes with their completion tag, and the indices of the references, all
of which lie behind the record.  Written bags hold every cell of the tree in preorder with one
root; bags that are read may share cells, list several roots (the first counts), and carry an index
of offsets and a checksum.
-/

namespace CellAbi

namespace Bag

/-! ## Records -/

/-- One cell of a bag, its references given by index. -/
structure Record where
  data : List UInt8
  bitLen : Nat
  refs : List Nat
deriving DecidableEq, Repr

/-- `value` in `width` bytes, high byte first. -/
def uintBytes (width value : Nat) : List UInt8 :=
  (List.range width).reverse.map fun i => UInt8.ofNat (value >>> (8 * i))

/-- Fewest bytes that hold `value`; at least one. -/
def byteWidth (value : Nat) : Nat := max 1 (Bits.byteCount (Bits.size value))

/-- The bytes of a record when indices take `size` bytes. -/
def Record.toBytes (size : Nat) (r : Record) : List UInt8 :=
  Cell.descriptors r.bitLen r.refs.length ++ Cell.taggedData r.data r.bitLen ++
    r.refs.flatMap (uintBytes size)

/-! ## Writing -/

/-- The indices of consecutive subtrees, the first at `index`. -/
def subtreeIndices (index : Nat) : List Cell → List Nat
  | [] => []
  | c :: cs => index :: subtreeIndices (index + c.size) cs

mutual

/-- The records of a tree in preorder, the root at `index`. -/
def records (index : Nat) : Cell → List Record
  | .node data bitLen refs =>
    ⟨data, bitLen, subtreeIndices (index + 1) refs⟩ :: recordsAll (index + 1) refs

/-- The records of consecutive subtrees. -/
def recordsAll (index : Nat) : List Cell → List Record
  | [] => []
  | c :: cs => records index c ++ recordsAll (index + c.size) cs

end

/-- The four bytes every bag starts with. -/
def magic : List UInt8 := [0xb5, 0xee, 0x9c, 0x72]

/-- The bytes of a bag of `records` with a single root, the first record. -/
def ofRecords (records : List Record) : List UInt8 :=
  let size := byteWidth records.length
  let body := records.flatMap (Record.toBytes size)
  let offsetSize := byteWidth body.length
  magic ++ [UInt8.ofNat size, UInt8.ofNat offsetSize] ++ uintBytes size records.length ++
    uintBytes size 1 ++ uintBytes size 0 ++ uintBytes offsetSize body.length ++
    uintBytes size 0 ++ body

/-! ## Reading -/

/-- A step of reading; the state is what is left of the bytes. -/
abbrev Read := StateT (List UInt8) (Except BagError)

/-- The first `n` elements and the others, when there are as many. -/
def splitExactly {α : Type} : Nat → List α → Option (List α × List α)
  | 0, xs => some ([], xs)
  | _ + 1, [] => none
  | n + 1, x :: xs => (splitExactly n xs).map fun (front, rest) => (x :: front, rest)

namespace Read

/-- Takes the next `n` bytes. -/
def take (n : Nat) : Read (List UInt8) := fun bytes =>
  match splitExactly n bytes with
  | some (front, rest) => .ok (front, rest)
  | none => .error .unexpectedEnd

def byte : Read UInt8 := return (← take 1).headD 0

/-- Takes a number of `width` bytes, high byte first. -/
def uint (width : Nat) : Read Nat :=
  return (← take width).foldl (fun n b => 256 * n + b.toNat) 0

def check (ok : Bool) (e : BagError) : Read Unit := if ok then pure () else throw e

end Read

/-- The first number that a machine word cannot hold. -/
def wordLimit : Nat := 2 ^ 64

/-- What the header says about the bytes behind it. -/
structure Header where
  hasIndex : Bool
  hasChecksum : Bool
  /-- Bytes of an index. -/
  size : Nat
  /-- Bytes of an offset. -/
  offsetSize : Nat
  cellCount : Nat
  rootCount : Nat
  /-- Bytes of all records together. -/
  bodySize : Nat
deriving DecidableEq, Repr

/-- Reads the header up to the sizes.  The counts are held against the bytes that are left. -/
def Header.read : Read Header := do
  Read.check ((← Read.take 4) == magic) .unknownMagic
  let flags ← Read.byte
  let size := (flags &&& 0x07).toNat
  Read.check (0 < size && size ≤ 4) (.referenceSize size)
  let offsetSize := (← Read.byte).toNat
  Read.check (0 < offsetSize && offsetSize ≤ 8) (.offsetSize offsetSize)
  let cellCount ← Read.uint size
  let rootCount ← Read.uint size
  let _absent ← Read.uint size
  let bodySize ← Read.uint offsetSize
  Read.check (rootCount != 0) .noRoots
  Read.check (rootCount ≤ cellCount) (.moreRootsThanCells rootCount cellCount)
  let left := (← get).length
  Read.check (cellCount * 2 ≤ left && rootCount * size ≤ left && bodySize ≤ left) .countsExceedData
  return {
    hasIndex := flags &&& 0x80 != 0, hasChecksum := flags &&& 0x40 != 0
    size, offsetSize, cellCount, rootCount, bodySize }

/-- Number of clear bits below the lowest set bit; 8 for zero. -/
def trailingZeros (b : UInt8) : Nat := ((List.range 8).find? b.toNat.testBit).getD 8

/-- Clears the completion tag, the lowest set bit of the last byte, and counts the bits before it.
The last byte stays even where the tag was its only content. -/
def stripTag? (data : List UInt8) : Option (List UInt8 × Nat) :=
  match data.getLast? with
  | none => none
  | some last =>
    if last = 0 then none
    else
      let zeros := trailingZeros last
      let cleared := last &&& ~~~((1 : UInt8) <<< UInt8.ofNat zeros)
      some (data.dropLast ++ [cleared], data.length * 8 - zeros - 1)

/-- The data bytes and bit count of record `index`, whose second descriptor byte is `d2`. -/
def readData (index : Nat) (d2 : UInt8) : Read (List UInt8 × Nat) := do
  let data ← Read.take ((d2.toNat + 1) / 2)
  if d2.toNat % 2 = 1 then
    match stripTag? data with
    | some stripped => return stripped
    | none => throw (.noCompletionTag index)
  else return (data, data.length * 8)

/-- Reads `n` references of record `index`; each has to lead to a later record. -/
def readRefs (h : Header) (index : Nat) : Nat → Read (List Nat)
  | 0 => return []
  | n + 1 => do
    let target ← Read.uint h.size
    Read.check (index < target && target < h.cellCount) (.backwardReference index target)
    return target :: (← readRefs h index n)

def readRecord (h : Header) (index : Nat) : Read Record := do
  let d1 ← Read.byte
  let d2 ← Read.byte
  Read.check (d1 &&& 0x08 == 0) (.exoticCell index)
  Read.check (d1 &&& 0x10 == 0) (.storedHashes index)
  let refCount := (d1 &&& 0x07).toNat
  Read.check (refCount ≤ Cell.maxRefs) (.tooManyReferences index refCount)
  let (data, bitLen) ← readData index d2
  return ⟨data, bitLen, ← readRefs h index refCount⟩

/-- Reads `n` records, the first of index `index`. -/
def readRecords (h : Header) (index : Nat) : Nat → Read (List Record)
  | 0 => return []
  | n + 1 => do
    let r ← readRecord h index
    return r :: (← readRecords h (index + 1) n)

def readRoots (h : Header) : Nat → Read (List Nat)
  | 0 => return []
  | n + 1 => do
    let root ← Read.uint h.size
    return root :: (← readRoots h n)

/-- The cells of the records from `index` on, the last built first. -/
def assemble (index : Nat) : List Record → Except BagError (List Cell)
  | [] => return []
  | r :: rest => do
    let later ← assemble (index + 1) rest
    let children ← r.refs.mapM fun target =>
      match later[target - (index + 1)]? with
      | some c => .ok c
      | none => .error (.danglingReference target)
    return .node r.data r.bitLen children :: later

/-- Reads a whole bag; bytes behind it are left alone. -/
def read (bytes : List UInt8) : Except BagError Cell := do
  let ((roots, records), _) ← (do
    let h ← Header.read
    let roots ← readRoots h h.rootCount
    if h.hasIndex then
      Read.check (h.cellCount * h.offsetSize < wordLimit) .indexOverflow
      let _index ← Read.take (h.cellCount * h.offsetSize)
    let before := (← get).length
    Read.check (bytes.length - before + h.bodySize < wordLimit) .bodyOverflow
    let records ← readRecords h 0 h.cellCount
    let after := (← get).length
    Read.check (after + h.bodySize == before) .bodySize
    if h.hasChecksum then
      let stored ← Read.take 4
      Read.check (stored == Crc32c.trailer (bytes.take (bytes.length - after))) .checksum
    return (roots, records) : Read (List Nat × List Record)).run bytes
  let cells ← assemble 0 records
  let root := roots.headD 0
  match cells[root]? with
  | some c => return c
  | none => throw (.rootOutOfRange root)

end Bag

namespace Cell

/-- The bag of a cell tree. -/
def toBag (c : Cell) : List UInt8 := Bag.ofRecords (Bag.records 0 c)

/-- The first root of a bag. -/
def ofBag (bytes : List UInt8) : Except CellError Cell := (Bag.read bytes).mapError .invalidBag

/-- The bag of a cell tree in base64. -/
def toBase64 (c : Cell) : String := Text.Base64.encode c.toBag

/-- Reads a bag in base64; blank characters around it are ignored. -/
def ofBase64 (text : String) : Except CellError Cell :=
  match Text.Base64.decodeChars (Text.trim text.toList) with
  | .ok bytes => ofBag bytes
  | .error e => .error (.invalidBag (.base64 e))

end Cell

end CellAbi
