import CellAbi.Bits

/-!
# Cells

A cell holds up to 1023 data bits and up to four references to other cells.  Its bits are kept in
bytes, the first bit highest.  Cells are compared by their bytes, bit count and references.
-/

namespace CellAbi

/-- A tree of cells: data bytes, number of data bits, and references in order. -/
inductive Cell where
  | node (data : List UInt8) (bitLen : Nat) (refs : List Cell)

namespace Cell

/-- The most data bits of a cell. -/
def maxBits : Nat := 1023

/-- The most references of a cell. -/
def maxRefs : Nat := 4

/-- The cell without bits and references. -/
def empty : Cell := node [] 0 []

instance : Inhabited Cell := ⟨empty⟩

def data : Cell → List UInt8
  | node data _ _ => data

def bitLen : Cell → Nat
  | node _ bitLen _ => bitLen

def refs : Cell → List Cell
  | node _ _ refs => refs

/-- The data bits. -/
def bits (c : Cell) : List Bool := (Bits.ofBytes c.data).take c.bitLen

/-! ## Equality -/

mutual

/-- Equality of data, bit count and references. -/
def same : Cell → Cell → Bool
  | node data bitLen refs, node data' bitLen' refs' =>
    data == data' && bitLen == bitLen' && sameAll refs refs'

def sameAll : List Cell → List Cell → Bool
  | [], [] => true
  | c :: cs, d :: ds => same c d && sameAll cs ds
  | _, _ => false

end

mutual

theorem same_iff : ∀ c d : Cell, same c d = true ↔ c = d
  | node data bitLen refs, node data' bitLen' refs' => by
    simp [same, sameAll_iff refs refs', and_assoc]

theorem sameAll_iff : ∀ cs ds : List Cell, sameAll cs ds = true ↔ cs = ds
  | [], [] => by simp [sameAll]
  | [], _ :: _ => by simp [sameAll]
  | _ :: _, [] => by simp [sameAll]
  | c :: cs, d :: ds => by simp [sameAll, same_iff c d, sameAll_iff cs ds]

end

instance : DecidableEq Cell := fun c d => decidable_of_iff _ (same_iff c d)

/-! ## Shape -/

mutual

/-- Number of cells in the tree. -/
def size : Cell → Nat
  | node _ _ refs => sizeAll refs + 1

def sizeAll : List Cell → Nat
  | [] => 0
  | c :: cs => size c + sizeAll cs

end

/-- The largest depth that is told apart. -/
def maxDepth : Nat := 65535

mutual

/-- Length of the longest path of references, counted up to `maxDepth`. -/
def depth : Cell → Nat
  | node _ _ refs => depthAll refs

/-- The depth of a cell with these references. -/
def depthAll : List Cell → Nat
  | [] => 0
  | c :: cs => max (min (depth c + 1) maxDepth) (depthAll cs)

end

/-- One node is in normal form: its bytes are as many as its bits need, the unused bits of the last
byte are zero, and neither bits nor references are too many. -/
def NormalNode (c : Cell) : Prop :=
  c.data.length = Bits.byteCount c.bitLen ∧
    (∀ i, c.bitLen ≤ i → Bits.get c.data i = false) ∧
    c.bitLen ≤ maxBits ∧ c.refs.length ≤ maxRefs

mutual

/-- Every node of the tree is in normal form. -/
def Normal : Cell → Prop
  | node data bitLen refs => NormalNode (node data bitLen refs) ∧ NormalAll refs

def NormalAll : List Cell → Prop
  | [] => True
  | c :: cs => Normal c ∧ NormalAll cs

end

end Cell

end CellAbi
