import CellAbi.Native.Type

/-!
# Typed conversions

Values of native types become dynamic values of an ABI type and are read back.  The ABI type
directs both ways: a list of bytes is a byte string or an array, an optional address is a nullable
address or an optional one.
-/

namespace CellAbi

/-- Conversion to dynamic values. -/
class ToValue (α : Type) where
  toValue : α → AbiType → Except AbiError Value

/-- Conversion from dynamic values. -/
class OfValue (α : Type) where
  ofValue : Value → AbiType → Except AbiError α

open ToValue OfValue

/-! ## Plain types -/

instance : ToValue Value where
  toValue v type := do
    v.conforms type
    return v

instance : OfValue Value where
  ofValue v _ := .ok v

instance : ToValue Int where
  toValue i type := do
    type.checkInteger i
    return .int i

instance : OfValue Int where
  ofValue
    | .int i, _ => .ok i
    | other, type => .error (Value.kindMismatch type other)

instance : ToValue UInt8 where
  toValue b type := toValue (b.toNat : Int) type

instance : OfValue UInt8 where
  ofValue v type := do
    let i : Int ← ofValue v type
    if 0 ≤ i ∧ i < 256 then return UInt8.ofNat i.toNat else throw (.outOfRange i (.uint 8))

instance : ToValue Bool where
  toValue
    | b, .bool => .ok (.bool b)
    | _, other => .error (.mismatch other.toText "bool")

instance : OfValue Bool where
  ofValue
    | .bool b, _ => .ok b
    | other, type => .error (Value.kindMismatch type other)

instance : ToValue String where
  toValue
    | s, .string => .ok (.string s)
    | _, other => .error (.mismatch other.toText "string")

instance : OfValue String where
  ofValue
    | .string s, _ => .ok s
    | other, type => .error (Value.kindMismatch type other)

instance : ToValue Cell where
  toValue
    | c, .cell => .ok (.cell c)
    | _, other => .error (.mismatch other.toText "cell")

instance : OfValue Cell where
  ofValue
    | .cell c, _ => .ok c
    | other, type => .error (Value.kindMismatch type other)

instance : ToValue Address where
  toValue a type := toValue (Value.address a) type

instance : OfValue Address where
  ofValue
    | .address a, _ => .ok a
    | other, type => .error (Value.kindMismatch type other)

instance : ToValue StandardAddress where
  toValue a type := toValue (Address.standard a) type

instance : OfValue StandardAddress where
  ofValue v type := do
    let a : Address ← ofValue v type
    match a with
    | .standard a => return a
    | .external _ => throw (.mismatch type.toText "external address")

/-! ## Composite types -/

instance {α : Type} [ToValue α] : ToValue (Option α) where
  toValue
    | none, type =>
      if type.isNullable then .ok .null else .error (.mismatch type.toText "null")
    | some a, .optional inner => toValue a inner
    | some a, type => toValue a type

instance {α : Type} [OfValue α] : OfValue (Option α) where
  ofValue
    | .null, _ => .ok none
    | v, .optional inner => (ofValue v inner).map some
    | v, type => (ofValue v type).map some

/-- One element of a byte string, checked as an integer of eight bits. -/
def byteOf {α : Type} [ToValue α] (a : α) : Except AbiError UInt8 := do
  ofValue (← toValue a (.uint 8)) (.uint 8)

instance {α : Type} [ToValue α] : ToValue (List α) where
  toValue
    | items, .array element => do return .array (← items.mapM fun a => toValue a element)
    | items, .bytes length => do toValue (Value.bytes (← items.mapM byteOf)) (.bytes length)
    | _, other => .error (.mismatch other.toText "array")

instance {α : Type} [OfValue α] : OfValue (List α) where
  ofValue
    | .array items, .array element => items.mapM fun v => ofValue v element
    | .bytes bytes, .bytes _ => bytes.mapM fun b => ofValue (.int b.toNat) (.uint 8)
    | other, type => .error (Value.kindMismatch type other)

instance {κ α : Type} [Ord κ] [ToValue κ] [ToValue α] : ToValue (SortedMap κ α) where
  toValue
    | m, .map keyType valueType => do
      let entries ← m.entries.mapM fun (k, a) => do
        return (← toValue k keyType, ← toValue a valueType)
      return .map entries
    | _, other => .error (.mismatch other.toText "map")

instance {κ α : Type} [Ord κ] [Std.TransOrd κ] [OfValue κ] [OfValue α] :
    OfValue (SortedMap κ α) where
  ofValue
    | .map entries, .map keyType valueType => do
      let entries ← entries.mapM fun (k, v) => do
        return (← ofValue k keyType, ← ofValue v valueType)
      return .ofList entries
    | other, type => .error (Value.kindMismatch type other)

/-- The components of a tuple type of that arity. -/
def tupleComponents (type : AbiType) (arity : Nat) : Except AbiError (List (String × AbiType)) :=
  match type with
  | .tuple components =>
    if components.length = arity then .ok components
    else .error (.mismatch s!"tuple of {arity} components" s!"tuple of {components.length}")
  | other => .error (.mismatch other.toText "tuple")

/-! ## All native types -/

namespace KeyType

@[reducible]
def toValue : (k : KeyType) → ToValue k.Carrier
  | integer => inferInstanceAs (ToValue Int)
  | byte => inferInstanceAs (ToValue UInt8)
  | bool => inferInstanceAs (ToValue Bool)
  | text => inferInstanceAs (ToValue String)
  | address => inferInstanceAs (ToValue Address)
  | standardAddress => inferInstanceAs (ToValue StandardAddress)
  | option type => letI := toValue type; inferInstanceAs (ToValue (Option type.Carrier))
  | list element => letI := toValue element; inferInstanceAs (ToValue (List element.Carrier))

instance (k : KeyType) : ToValue k.Carrier := k.toValue

@[reducible]
def ofValue : (k : KeyType) → OfValue k.Carrier
  | integer => inferInstanceAs (OfValue Int)
  | byte => inferInstanceAs (OfValue UInt8)
  | bool => inferInstanceAs (OfValue Bool)
  | text => inferInstanceAs (OfValue String)
  | address => inferInstanceAs (OfValue Address)
  | standardAddress => inferInstanceAs (OfValue StandardAddress)
  | option type => letI := ofValue type; inferInstanceAs (OfValue (Option type.Carrier))
  | list element => letI := ofValue element; inferInstanceAs (OfValue (List element.Carrier))

instance (k : KeyType) : OfValue k.Carrier := k.ofValue

end KeyType

namespace NativeType

mutual

/-- The conversion of a native type to dynamic values. -/
@[reducible]
def toValue : (t : NativeType) → ToValue t.Carrier
  | integer => inferInstanceAs (ToValue Int)
  | byte => inferInstanceAs (ToValue UInt8)
  | bool => inferInstanceAs (ToValue Bool)
  | text => inferInstanceAs (ToValue String)
  | cell => inferInstanceAs (ToValue Cell)
  | address => inferInstanceAs (ToValue Address)
  | standardAddress => inferInstanceAs (ToValue StandardAddress)
  | value => inferInstanceAs (ToValue Value)
  | option type => letI := toValue type; inferInstanceAs (ToValue (Option type.Carrier))
  | list element => letI := toValue element; inferInstanceAs (ToValue (List element.Carrier))
  | map key type =>
    letI := toValue type; inferInstanceAs (ToValue (SortedMap key.Carrier type.Carrier))
  | tuple types => ⟨fun xs type => do
      let components ← tupleComponents type types.length
      return .tuple (Sorted.ofList (← toFields types xs components))⟩

/-- Converts one value per component. -/
def toFields : (ts : List NativeType) → Carriers ts → List (String × AbiType) →
    Except AbiError (List (String × Value))
  | type :: rest, (x, xs), (name, abiType) :: components => do
    let v ← (toValue type).toValue x abiType
    return (name, v) :: (← toFields rest xs components)
  | _, _, _ => return []

end

mutual

/-- The conversion of dynamic values to a native type. -/
@[reducible]
def ofValue : (t : NativeType) → OfValue t.Carrier
  | integer => inferInstanceAs (OfValue Int)
  | byte => inferInstanceAs (OfValue UInt8)
  | bool => inferInstanceAs (OfValue Bool)
  | text => inferInstanceAs (OfValue String)
  | cell => inferInstanceAs (OfValue Cell)
  | address => inferInstanceAs (OfValue Address)
  | standardAddress => inferInstanceAs (OfValue StandardAddress)
  | value => inferInstanceAs (OfValue Value)
  | option type => letI := ofValue type; inferInstanceAs (OfValue (Option type.Carrier))
  | list element => letI := ofValue element; inferInstanceAs (OfValue (List element.Carrier))
  | map key type =>
    letI := ofValue type; inferInstanceAs (OfValue (SortedMap key.Carrier type.Carrier))
  | tuple types => ⟨fun v type => do
      let components ← tupleComponents type types.length
      match v with
      | .tuple fields => ofFields types components fields
      | other => throw (Value.kindMismatch type other)⟩

/-- Takes the field of each component out of the fields and converts it. -/
def ofFields : (ts : List NativeType) → List (String × AbiType) → List (String × Value) →
    Except AbiError (Carriers ts)
  | [], _, _ => return ()
  | _ :: _, [], _ => throw (.mismatch "tuple component" "nothing")
  | type :: rest, (name, abiType) :: components, fields => do
    match Sorted.lookup name fields with
    | none => throw (Value.missingField name)
    | some v =>
      let x ← (ofValue type).ofValue v abiType
      return (x, ← ofFields rest components (Sorted.erase name fields))

end

instance (t : NativeType) : ToValue t.Carrier := t.toValue

instance (t : NativeType) : OfValue t.Carrier := t.ofValue

end NativeType

end CellAbi
