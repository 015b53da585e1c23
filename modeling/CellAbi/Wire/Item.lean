import CellAbi.Address.Wire
import CellAbi.Value.Basic

/-!
# Wire items

The items that carry getter arguments and results, and reading them off a list front to back.  A
read takes one item also when the item turns out to be of the wrong kind.
-/

namespace CellAbi

inductive Item where
  | null
  | int (value : Int)
  | cell (cell : Cell)
  /-- A slice over a whole cell. -/
  | slice (cell : Cell)
  | tuple (items : List Item)

namespace Item

instance : Inhabited Item := ⟨null⟩

/-- The word for the item in messages. -/
def kind : Item → String
  | null => "null"
  | int _ => "int"
  | cell _ => "cell"
  | slice _ => "slice"
  | tuple _ => "tuple"

end Item

/-- A step that reads items; the state is what is left of them. -/
abbrev ReadItems := EStateM AbiError (List Item)

namespace ReadItems

/-- The next item, which stays. -/
def peek : ReadItems Item := do
  match ← get with
  | [] => throw (.shape "an item" "end of tuple")
  | item :: _ => return item

def pop : ReadItems Item := do
  match ← get with
  | [] => throw (.shape "an item" "end of tuple")
  | item :: rest =>
    set rest
    return item

def int : ReadItems Int := do
  match ← pop with
  | .int i => return i
  | other => throw (.shape "int" other.kind)

/-- Every integer but zero is true. -/
def bool : ReadItems Bool := do return (← int) != 0

/-- Reads the address at the start of a cell. -/
def addressOfCell (c : Cell) : Except AbiError (Option Address) :=
  match Load.address.run c.toSlice with
  | .ok a _ => .ok a
  | .error e _ => .error (.address e)

/-- Reads an address from a slice or a cell.  Null is no address. -/
def address : ReadItems (Option Address) := do
  match ← pop with
  | .null => return none
  | .slice c | .cell c =>
    match addressOfCell c with
    | .ok a => return a
    | .error e => throw e
  | other => throw (.shape "slice" other.kind)

def cell : ReadItems Cell := do
  match ← pop with
  | .cell c | .slice c => return c
  | other => throw (.shape "cell" other.kind)

/-- The items of a tuple. -/
def tuple : ReadItems (List Item) := do
  match ← pop with
  | .tuple items => return items
  | other => throw (.shape "tuple" other.kind)

end ReadItems

end CellAbi
