import CellAbi.Schema.Param

/-!
# ABI types

The types of contract parameters, their descriptor text, and the ranges of integer types.  The
descriptor of a tuple is the word `tuple`; its components travel beside the text.
-/

namespace CellAbi

/-- Width of an integer type. -/
inductive IntWidth where
  /-- Exactly `bits` bits. -/
  | fixed (bits : Nat)
  /-- At most `bytes - 1` bytes behind a length. -/
  | var (bytes : Nat)
deriving DecidableEq, Repr

inductive AbiType where
  | integer (signed : Bool) (width : IntWidth)
  | bool
  | string
  /-- Byte strings, of the given length if there is one. -/
  | bytes (length : Option Nat)
  | cell
  /-- Addresses; the strict type admits standard addresses alone. -/
  | address (strict : Bool)
  | array (element : AbiType)
  | optional (inner : AbiType)
  | map (key value : AbiType)
  | tuple (components : List (String × AbiType))

namespace AbiType

instance : Inhabited AbiType := ⟨bool⟩

def uint (bits : Nat) : AbiType := integer false (.fixed bits)

def int (bits : Nat) : AbiType := integer true (.fixed bits)

/-! ## Equality -/

mutual

def same : AbiType → AbiType → Bool
  | integer signed width, integer signed' width' => signed == signed' && width == width'
  | bool, bool => true
  | string, string => true
  | bytes length, bytes length' => length == length'
  | cell, cell => true
  | address strict, address strict' => strict == strict'
  | array element, array element' => same element element'
  | optional inner, optional inner' => same inner inner'
  | map key value, map key' value' => same key key' && same value value'
  | tuple components, tuple components' => sameAll components components'
  | _, _ => false

def sameAll : List (String × AbiType) → List (String × AbiType) → Bool
  | [], [] => true
  | (name, type) :: rest, (name', type') :: rest' =>
    name == name' && same type type' && sameAll rest rest'
  | _, _ => false

end

mutual

theorem same_iff : ∀ t u : AbiType, same t u = true ↔ t = u
  | integer .., u => by cases u <;> simp [same]
  | bool, u => by cases u <;> simp [same]
  | string, u => by cases u <;> simp [same]
  | bytes _, u => by cases u <;> simp [same]
  | cell, u => by cases u <;> simp [same]
  | address _, u => by cases u <;> simp [same]
  | array element, u => by cases u <;> simp [same, same_iff element]
  | optional inner, u => by cases u <;> simp [same, same_iff inner]
  | map key value, u => by cases u <;> simp [same, same_iff key, same_iff value]
  | tuple components, u => by cases u <;> simp [same, sameAll_iff components]

theorem sameAll_iff : ∀ ts us : List (String × AbiType), sameAll ts us = true ↔ ts = us
  | [], [] => by simp [sameAll]
  | [], _ :: _ => by simp [sameAll]
  | _ :: _, [] => by simp [sameAll]
  | (name, type) :: rest, (name', type') :: rest' => by
    simp [sameAll, same_iff type, sameAll_iff rest]

end

instance : DecidableEq AbiType := fun t u => decidable_of_iff _ (same_iff t u)

/-! ## Text -/

/-- The descriptor. -/
def toText : AbiType → String
  | integer signed width =>
    let kind := if signed then "int" else "uint"
    match width with
    | .fixed bits => kind ++ toString bits
    | .var count => "var" ++ kind ++ toString count
  | bool => "bool"
  | string => "string"
  | bytes none => "bytes"
  | bytes (some length) => "fixedbytes" ++ toString length
  | cell => "cell"
  | address false => "address"
  | address true => "address_std"
  | array element => toText element ++ "[]"
  | optional inner => "optional(" ++ toText inner ++ ")"
  | map key value => "map(" ++ toText key ++ "," ++ toText value ++ ")"
  | tuple _ => "tuple"

/-- Types whose values have a text form as map keys. -/
def isScalarKey : AbiType → Bool
  | integer .. | address _ | bool | string | bytes _ => true
  | _ => false

/-- Types that have a null value of their own. -/
def isNullable : AbiType → Bool
  | optional _ | address _ => true
  | _ => false

/-! ## Schema form -/

mutual

/-- Components of the innermost tuple: through arrays, optionals and the values of maps. -/
def params? : AbiType → Option (List Param)
  | tuple components => some (componentParams components)
  | array element => params? element
  | optional inner => params? inner
  | map _ value => params? value
  | _ => none

def componentParams : List (String × AbiType) → List Param
  | [] => []
  | (name, type) :: rest =>
    { name, type := toText type, components := params? type } :: componentParams rest

end

/-- The parameter of that name and this type. -/
def toParam (name : String) (type : AbiType) : Param :=
  { name, type := type.toText, components := type.params? }

/-! ## Integer ranges -/

/-- Bits of an integer of that width. -/
def IntWidth.bits : IntWidth → Nat
  | .fixed bits => bits
  | .var count => 8 * (count - 1)

/-- The least integer of the type, and the first one above it.  Without bits only zero is left. -/
def bounds? : AbiType → Option (Int × Int)
  | integer signed width =>
    let bits := IntWidth.bits width
    if bits = 0 then some (0, 1)
    else if signed then some (-2 ^ (bits - 1), 2 ^ (bits - 1))
    else some (0, 2 ^ bits)
  | _ => none

end AbiType

end CellAbi
