import CellAbi.SortedMap
import CellAbi.Value.Basic

/-!
# Native types

The types that generated bindings use for parameters: a code for each type (`NativeType`), the Lean
type of its values (`Carrier`), and the text of the type in generated source.  Keys of maps have
codes of their own (`KeyType`), all of them ordered.
-/

namespace CellAbi

/-- Types of map keys.  Tuples and maps could be ordered too and are left out: the keys of a type that
is read from a descriptor are scalars, so that of the maps with such keys just the empty one converts
at it. -/
inductive KeyType where
  | integer
  | byte
  | bool
  | text
  | address
  | standardAddress
  | option (type : KeyType)
  | list (element : KeyType)
deriving DecidableEq, Repr

namespace KeyType

@[reducible]
def Carrier : KeyType → Type
  | integer => Int
  | byte => UInt8
  | bool => Bool
  | text => String
  | address => Address
  | standardAddress => StandardAddress
  | option type => Option type.Carrier
  | list element => List element.Carrier

/-- The order of keys: numbers by size, texts by code points, lists lexicographic, none first. -/
@[reducible]
def ord : (k : KeyType) → Ord k.Carrier
  | integer => inferInstanceAs (Ord Int)
  | byte => inferInstanceAs (Ord UInt8)
  | bool => inferInstanceAs (Ord Bool)
  | text => inferInstanceAs (Ord String)
  | address => inferInstanceAs (Ord Address)
  | standardAddress => inferInstanceAs (Ord StandardAddress)
  | option type => letI := ord type; inferInstanceAs (Ord (Option type.Carrier))
  | list element => letI := ord element; inferInstanceAs (Ord (List element.Carrier))

instance (k : KeyType) : Ord k.Carrier := k.ord

theorem transOrd : (k : KeyType) → Std.TransOrd k.Carrier
  | integer => inferInstanceAs (Std.TransOrd Int)
  | byte => inferInstanceAs (Std.TransOrd UInt8)
  | bool => inferInstanceAs (Std.TransOrd Bool)
  | text => inferInstanceAs (Std.TransOrd String)
  | address => inferInstanceAs (Std.TransOrd Address)
  | standardAddress => inferInstanceAs (Std.TransOrd StandardAddress)
  | option type => have := transOrd type; inferInstanceAs (Std.TransOrd (Option type.Carrier))
  | list element => have := transOrd element; inferInstanceAs (Std.TransOrd (List element.Carrier))

instance (k : KeyType) : Std.TransOrd k.Carrier := k.transOrd

def toText : KeyType → String
  | integer => "BigInt"
  | byte => "u8"
  | bool => "bool"
  | text => "String"
  | address => "Address"
  | standardAddress => "StdAddress"
  | option type => "Option<" ++ type.toText ++ ">"
  | list element => "Vec<" ++ element.toText ++ ">"

end KeyType

inductive NativeType where
  | integer
  | byte
  | bool
  | text
  | cell
  | address
  | standardAddress
  /-- Dynamic values. -/
  | value
  | option (type : NativeType)
  | list (element : NativeType)
  | map (key : KeyType) (type : NativeType)
  | tuple (types : List NativeType)

namespace NativeType

instance : Inhabited NativeType := ⟨value⟩

mutual

/-- The values of a native type. -/
@[reducible]
def Carrier : NativeType → Type
  | integer => Int
  | byte => UInt8
  | bool => Bool
  | text => String
  | cell => Cell
  | address => Address
  | standardAddress => StandardAddress
  | value => Value
  | option type => Option (Carrier type)
  | list element => List (Carrier element)
  | map key type => SortedMap key.Carrier (Carrier type)
  | tuple types => Carriers types

/-- One value of each type. -/
@[reducible]
def Carriers : List NativeType → Type
  | [] => Unit
  | type :: rest => Carrier type × Carriers rest

end

mutual

/-- The type in generated source. -/
def toText : NativeType → String
  | integer => "BigInt"
  | byte => "u8"
  | bool => "bool"
  | text => "String"
  | cell => "Cell"
  | address => "Address"
  | standardAddress => "StdAddress"
  | value => "Value"
  | option type => "Option<" ++ toText type ++ ">"
  | list element => "Vec<" ++ toText element ++ ">"
  | map key type => "BTreeMap<" ++ key.toText ++ ", " ++ toText type ++ ">"
  | tuple types => "(" ++ ", ".intercalate (toTexts types) ++ ",)"

def toTexts : List NativeType → List String
  | [] => []
  | type :: rest => toText type :: toTexts rest

end

end NativeType

/-! ## The native type of an ABI type -/

namespace AbiType

/-- The most components of a tuple with a native tuple type. -/
def maxArity : Nat := 8

/-- The native type of map keys.  Keys are never null. -/
def nativeKey? : AbiType → Option KeyType
  | integer .. => some .integer
  | bool => some .bool
  | string => some .text
  | bytes _ => some (.list .byte)
  | address _ => some .standardAddress
  | _ => none

mutual

/-- The native type of a parameter.  Addresses may be null and need no option around them; tuples
of too many components and maps without native keys stay dynamic. -/
def native : AbiType → NativeType
  | integer .. => .integer
  | bool => .bool
  | string => .text
  | bytes _ => .list .byte
  | cell => .cell
  | address false => .option .address
  | address true => .option .standardAddress
  | array element => .list (native element)
  | optional (address false) => .option .address
  | optional (address true) => .option .standardAddress
  | optional inner => .option (native inner)
  | map key value =>
    match nativeKey? key with
    | some key => .map key (native value)
    | none => .value
  | tuple components =>
    if components.length > maxArity then .value else .tuple (natives components)

def natives : List (String × AbiType) → List NativeType
  | [] => []
  | (_, type) :: rest => native type :: natives rest

end

/-- The text of the native type. -/
def nativeText (type : AbiType) : String := type.native.toText

/-- The text of the native type in the place of a map key. -/
def nativeKeyText (type : AbiType) : String :=
  match type with
  | address _ => KeyType.toText .standardAddress
  | other => other.nativeText

end AbiType

end CellAbi
