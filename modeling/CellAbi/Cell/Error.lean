import CellAbi.Text.Base64

/-!
# Errors of cells

What can go wrong while a cell is built, read, or parsed from a bag of cells.
-/

namespace CellAbi

/-- Why bytes are not a bag of cells. -/
inductive BagError where
  | unexpectedEnd
  | unknownMagic
  | referenceSize (size : Nat)
  | offsetSize (size : Nat)
  | noRoots
  | moreRootsThanCells (roots cells : Nat)
  /-- A count of the header exceeds what the bytes behind it can hold. -/
  | countsExceedData
  | indexOverflow
  | bodyOverflow
  | exoticCell (index : Nat)
  | storedHashes (index : Nat)
  | tooManyReferences (index count : Nat)
  | noCompletionTag (index : Nat)
  /-- A reference that does not lead to a later cell. -/
  | backwardReference (index target : Nat)
  | bodySize
  | checksum
  | danglingReference (target : Nat)
  | rootOutOfRange (index : Nat)
  | base64 (cause : Text.Base64.Error)
deriving DecidableEq, Repr

def BagError.message : BagError → String
  | unexpectedEnd => "unexpected end of data"
  | unknownMagic => "unknown magic"
  | referenceSize size => s!"unsupported reference size {size}"
  | offsetSize size => s!"unsupported offset size {size}"
  | noRoots => "no root cells"
  | moreRootsThanCells roots cells => s!"{roots} roots for {cells} cells"
  | countsExceedData => "header counts exceed the data"
  | indexOverflow => "index size overflows"
  | bodyOverflow => "cell data size overflows"
  | exoticCell index => s!"cell {index} is exotic"
  | storedHashes index => s!"cell {index} carries stored hashes"
  | tooManyReferences index count => s!"cell {index} has {count} references"
  | noCompletionTag index => s!"cell {index} lacks a completion tag"
  | backwardReference index target => s!"cell {index} references {target}"
  | bodySize => "cell data size does not match header"
  | checksum => "checksum mismatch"
  | danglingReference target => s!"dangling reference {target}"
  | rootOutOfRange index => s!"root index {index} out of range"
  | base64 cause => s!"bad base64: {cause.message}"

inductive CellError where
  | bitOverflow (requested available : Nat)
  | refOverflow
  | bitUnderflow (needed available : Nat)
  | refUnderflow
  /-- The number does not fit the width. -/
  | valueOutOfRange (value : Int) (bits : Nat)
  /-- A machine word was asked for with more bits than it has. -/
  | widerThanWord (signed : Bool) (bits : Nat)
  | invalidBag (cause : BagError)
deriving DecidableEq, Repr

def CellError.message : CellError → String
  | bitOverflow requested available =>
    s!"Cell overflow: cannot store {requested} more bits, {available} available"
  | refOverflow => "Cell overflow: a cell holds at most 4 references"
  | bitUnderflow needed available =>
    s!"Cell underflow: need {needed} bits, {available} remaining"
  | refUnderflow => "Cell underflow: no references left"
  | valueOutOfRange value bits => s!"Value {value} does not fit in {bits} bits"
  | widerThanWord signed bits =>
    let kind := if signed then "int" else "uint"
    s!"Value {kind}{bits} does not fit in 64 bits"
  | invalidBag cause => s!"Invalid bag of cells: {cause.message}"

end CellAbi
