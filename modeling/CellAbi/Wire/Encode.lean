import CellAbi.Wire.Codec

/-!
# Encoding values

A value becomes exactly one wire item.  Integers, Booleans, addresses and cells are encoded here;
strings, byte strings, maps and the contents of arrays go through the codec service as JSON.
-/

namespace CellAbi.Wire

/-- A step that may call the codec service. -/
abbrev Encode (σ : Type) := EStateM AbiError σ

def ofExcept {ε σ α : Type} : Except ε α → EStateM ε σ α
  | .ok a => pure a
  | .error e => throw e

variable {σ : Type} (codec : Codec σ)

/-- Has the codec service encode a composite value. -/
def encodeCell (name : String) (type : AbiType) (value : Value) : Encode σ Cell := do
  ofExcept (value.conforms type)
  let json ← ofExcept value.toJson
  Codec.call (codec.encode (type.toParam name) json)

/-- A slice that holds an optional address. -/
def addressItem (a : Option Address) : Except AbiError Item :=
  match Cell.ofStore (Store.address a) with
  | .ok c => .ok (.slice c)
  | .error e => .error (.cell e)

mutual

/-- Encodes a value of a type into one item. -/
def encode (name : String) : AbiType → Value → Encode σ Item
  | .optional _, .null => return .null
  | .optional inner, value => encode name inner value
  | .integer signed width, .int i => do
    ofExcept (AbiType.checkInteger (.integer signed width) i)
    return .int i
  | .bool, .bool b => return .int (if b then -1 else 0)
  | .address _, .null => ofExcept (addressItem none)
  | .address strict, .address a => do
    ofExcept (Value.conforms (.address strict) (.address a))
    ofExcept (addressItem (some a))
  | .cell, .cell c => return .cell c
  | .string, .string s => do return .cell (← encodeCell codec name .string (.string s))
  | .bytes length, .bytes b => do
    return .cell (← encodeCell codec name (.bytes length) (.bytes b))
  | .map key value, .map entries => do
    return .cell (← encodeCell codec name (.map key value) (.map entries))
  | .array element, .array items => do
    let c ← encodeCell codec name (.array element) (.array items)
    return .tuple [.int items.length, .cell c]
  | .tuple components, .tuple fields => do return .tuple (← encodeFields components fields)
  | type, value => throw (Value.kindMismatch type value)

/-- Encodes the fields that the components name, in their order. -/
def encodeFields : List (String × AbiType) → List (String × Value) → Encode σ (List Item)
  | [], _ => return []
  | (name, type) :: rest, fields => do
    match Sorted.lookup name fields with
    | none => throw (Value.missingField name)
    | some value => return (← encode name type value) :: (← encodeFields rest fields)

end

end CellAbi.Wire
