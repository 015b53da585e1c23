import CellAbi.Native.Convert
import CellAbi.Wire.Decode

/-!
# Arguments of contract calls

Typed arguments, checked against their parameters: collected as the JSON object of a message body,
or carried as wire items of a getter.
-/

namespace CellAbi

/-- Named arguments in JSON form. -/
structure Arguments where
  members : List (String × Json) := []

namespace Arguments

def isEmpty (a : Arguments) : Bool := a.members.isEmpty

def toJson (a : Arguments) : Json := .object a.members

/-- An argument under its name, in the form its parameter declares. -/
def member {α : Type} [ToValue α] (p : Param) (x : α) : Except AbiError (String × Json) := do
  let type ← p.abiType
  let v ← ToValue.toValue x type
  return (p.name, ← v.toJson)

/-- Adds an argument to those that are collected; a failed one changes nothing. -/
def put {α : Type} [ToValue α] (p : Param) (x : α) : EStateM AbiError Arguments Unit := do
  let (name, json) ← Wire.ofExcept (member p x)
  modify fun a => ⟨Sorted.insert name json a.members⟩

/-- The arguments with one more. -/
def insert {α : Type} [ToValue α] (a : Arguments) (p : Param) (x : α) :
    Except AbiError Arguments :=
  match (put p x).run a with
  | .ok () next => .ok next
  | .error e _ => .error e

end Arguments

namespace Wire

variable {σ : Type} (codec : Codec σ)

/-- Encodes one typed argument. -/
def encodeArgument {α : Type} [ToValue α] (p : Param) (x : α) : Encode σ Item := do
  let type ← ofExcept p.abiType
  let v ← ofExcept (ToValue.toValue x type)
  encode codec p.name type v

/-- Decodes one typed result. -/
def decodeResult {α : Type} [OfValue α] (p : Param) : Decode σ α := do
  let type ← ofExcept p.abiType
  let v ← decode codec p.name type
  ofExcept (OfValue.ofValue v type)

end Wire

end CellAbi
