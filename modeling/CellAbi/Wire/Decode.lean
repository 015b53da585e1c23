import CellAbi.Wire.Encode

/-!
# Decoding values

A value is read from exactly one wire item.  The contents of an array reach the codec service as a
cell with the number of elements in 32 bits and a reference to the elements.
-/

namespace CellAbi.Wire

/-- A step that reads items and may call the codec service. -/
abbrev Decode (σ : Type) := EStateM AbiError (σ × List Item)

variable {σ : Type}

/-- A step of reading items. -/
def Decode.read {α : Type} (step : ReadItems α) : Decode σ α := fun (s, items) =>
  match step items with
  | .ok a items => .ok a (s, items)
  | .error e items => .error e (s, items)

/-- A call of the codec service. -/
def Decode.call {α : Type} (step : EStateM AbiError σ α) : Decode σ α := fun (s, items) =>
  match step s with
  | .ok a s => .ok a (s, items)
  | .error e s => .error e (s, items)

/-- Runs a step on items of its own; the outer items stay as they are. -/
def Decode.within {α : Type} (inner : List Item) (step : Decode σ α) : Decode σ α :=
  fun (s, items) =>
    match step (s, inner) with
    | .ok a (s, _) => .ok a (s, items)
    | .error e (s, _) => .error e (s, items)

variable (codec : Codec σ)

/-- Has the codec service decode a composite cell. -/
def decodeCell (name : String) (type : AbiType) (c : Cell) : Decode σ Value := do
  let json ← Decode.call (Codec.call (codec.decode (type.toParam name) c))
  ofExcept (Value.ofJson type json)

/-- Bits of the number of elements. -/
def arrayLengthBits : Nat := 32

/-- Number of elements and cell of the elements, from the items of an array. -/
def arrayParts : ReadItems (Int × Cell) := do return (← ReadItems.int, ← ReadItems.cell)

/-- The cell that stands for an array. -/
def arrayCell (length : Int) (elements : Cell) : Except AbiError Cell :=
  match length with
  | .negSucc _ => .error (.shape "non-negative array length" (toString length))
  | .ofNat n =>
    (Cell.ofStore do
      Store.nat n arrayLengthBits
      Store.ref elements).mapError .cell

mutual

/-- Decodes one value of a type. -/
def decode (name : String) : AbiType → Decode σ Value
  | .optional inner => do
    match ← Decode.read ReadItems.peek with
    | .null => do
      let _ ← Decode.read ReadItems.pop
      return .null
    | _ => decode name inner
  | .integer _ _ => do return .int (← Decode.read ReadItems.int)
  | .bool => do return .bool (← Decode.read ReadItems.bool)
  | .address strict => do
    match ← Decode.read ReadItems.address with
    | none => return .null
    | some a =>
      if strict && a.standard?.isNone then
        throw (.shape (AbiType.toText (.address strict)) "external address")
      else return .address a
  | .cell => do return .cell (← Decode.read ReadItems.cell)
  | .string => do decodeCell codec name .string (← Decode.read ReadItems.cell)
  | .bytes length => do decodeCell codec name (.bytes length) (← Decode.read ReadItems.cell)
  | .map key value => do decodeCell codec name (.map key value) (← Decode.read ReadItems.cell)
  | .array element => do
    let items ← Decode.read ReadItems.tuple
    let (length, elements) ← Decode.within items (Decode.read arrayParts)
    decodeCell codec name (.array element) (← ofExcept (arrayCell length elements))
  | .tuple components => do
    let items ← Decode.read ReadItems.tuple
    return .tuple (Sorted.ofList (← Decode.within items (decodeFields components)))

/-- Decodes the components of a tuple in their order. -/
def decodeFields : List (String × AbiType) → Decode σ (List (String × Value))
  | [] => return []
  | (name, type) :: rest => do return (name, ← decode name type) :: (← decodeFields rest)

end

end CellAbi.Wire
