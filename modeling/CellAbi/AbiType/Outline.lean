import CellAbi.AbiType.Basic
import CellAbi.Text.Quoted

/-!
# Outlines of types

The structure of a type spelled out in full, one name per variant, with its fields in braces.
-/

namespace CellAbi

/-- A variant with its fields. -/
def outlineOf (name : String) (fields : List (String × String)) : String :=
  name ++ " \x7b " ++ ", ".intercalate (fields.map fun (field, text) => field ++ ": " ++ text) ++
    " \x7d"

def IntWidth.outline : IntWidth → String
  | .fixed bits => s!"Fixed({bits})"
  | .var bytes => s!"Var({bytes})"

namespace AbiType

mutual

def outline : AbiType → String
  | integer signed width =>
    outlineOf "Integer" [("signed", toString signed), ("width", width.outline)]
  | bool => "Bool"
  | string => "String"
  | bytes none => outlineOf "Bytes" [("fixed", "None")]
  | bytes (some length) => outlineOf "Bytes" [("fixed", s!"Some({length})")]
  | cell => "Cell"
  | address strict => outlineOf "Address" [("strict", toString strict)]
  | array element => outlineOf "Array" [("element", outline element)]
  | optional inner => outlineOf "Optional" [("inner", outline inner)]
  | map key value => outlineOf "Map" [("key", outline key), ("value", outline value)]
  | tuple components =>
    outlineOf "Tuple" [("components", "[" ++ ", ".intercalate (outlines components) ++ "]")]

def outlines : List (String × AbiType) → List String
  | [] => []
  | (name, type) :: rest =>
    outlineOf "Component" [("name", Text.quoted name), ("ty", outline type)] :: outlines rest

end

end AbiType

end CellAbi
