import CellAbi.Json.Binary64
import CellAbi.Sorted

/-!
# JSON values

Integers of 64 bits, signed or unsigned, stay integers; all other numbers are doubles.  The members
of an object are sorted by name and no name occurs twice.
-/

namespace CellAbi

inductive JsonNumber where
  | integer (value : Int)
  | double (value : Binary64)
deriving DecidableEq, Repr

inductive Json where
  | null
  | bool (value : Bool)
  | number (value : JsonNumber)
  | string (text : String)
  | array (items : List Json)
  | object (members : List (String × Json))

namespace Json

instance : Inhabited Json := ⟨null⟩

/-- An integer as a number. -/
def integer (value : Int) : Json := number (.integer value)

/-- An object with these members; the last of several with one name counts. -/
def ofMembers (members : List (String × Json)) : Json := object (Sorted.ofList members)

def isNull : Json → Bool
  | null => true
  | _ => false

/-- The member of that name. -/
def member? (name : String) : Json → Option Json
  | object members => Sorted.lookup name members
  | _ => none

end Json

end CellAbi
