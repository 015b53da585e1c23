import CellAbi.AbiType.Basic
import CellAbi.Address.Basic
import CellAbi.Files.Basic
import CellAbi.Json.Printer
import CellAbi.Text.Hex

/-!
# Errors

What can go wrong with descriptors, values, JSON texts, wire items and schemas.
-/

namespace CellAbi

/-- A failed call of the codec service or of the contract provider. -/
structure CollaboratorError where
  operation : String
  cause : String
deriving DecidableEq, Repr

def CollaboratorError.message (e : CollaboratorError) : String :=
  s!"{e.operation} failed: {e.cause}"

/-- Why a text spells no integer. -/
inductive IntegerTextError where
  | empty
  | invalidDigit
deriving DecidableEq, Repr

def IntegerTextError.message : IntegerTextError → String
  | empty => "cannot parse integer from empty string"
  | invalidDigit => "invalid digit found in string"

/-- Why a JSON value is no value of a type. -/
inductive JsonProblem where
  | notInteger (number : JsonNumber)
  | integerText (text : String) (cause : IntegerTextError)
  /-- Another kind of JSON value was expected; `kind` has its article. -/
  | wrongKind (kind : String) (found : Json)
  | hex (cause : Text.Hex.Error)
  | byteCount (expected found : Nat)
  | missingField (name : String)

def JsonProblem.message : JsonProblem → String
  | notInteger number => s!"{number.toText} is not an integer"
  | integerText text cause => s!"'{text}': {cause.message}"
  | wrongKind kind found => s!"expected {kind}, got {found.compact}"
  | hex cause => cause.message
  | byteCount expected found => s!"expected {expected} bytes, got {found}"
  | missingField name => s!"missing field '{name}'"

inductive AbiError where
  | unsupportedType (descriptor : String)
  | malformedMap (descriptor : String)
  | unsupportedMapKey (key : String)
  | missingComponents (descriptor : String)
  | collaborator (cause : CollaboratorError)
  /-- Wire content of another shape than the type asks for. -/
  | shape (expected found : String)
  /-- A value of another kind than the type. -/
  | mismatch (expected found : String)
  | outOfRange (value : Int) (type : AbiType)
  | invalidJson (type : AbiType) (problem : JsonProblem)
  | contractNotActive
  | cell (cause : CellError)
  | address (cause : AddressError)
  /-- The text is no contract schema. -/
  | schema
  /-- A file could not be read. -/
  | file (cause : FileError)

namespace AbiError

def message : AbiError → String
  | unsupportedType descriptor => s!"Unsupported type: {descriptor}"
  | malformedMap descriptor =>
    s!"Malformed map descriptor '{descriptor}': no top-level comma separates key and value"
  | unsupportedMapKey key => s!"Unsupported map key type '{key}'"
  | missingComponents descriptor =>
    s!"Type '{descriptor}' requires a non-empty component list"
  | collaborator cause => cause.message
  | shape expected found => s!"Decode shape mismatch: expected {expected}, found {found}"
  | mismatch expected found => s!"Type mismatch: expected {expected}, got {found}"
  | outOfRange value type => s!"Integer {value} out of range for {type.toText}"
  | invalidJson type problem => s!"Invalid JSON for '{type.toText}': {problem.message}"
  | contractNotActive => "Contract is not active"
  | cell cause => cause.message
  | address cause => cause.message
  | schema => "Schema error"
  | file cause => s!"I/O error: {cause.message}"

/-- Whether a descriptor is at fault. -/
def isDescriptorError : AbiError → Bool
  | unsupportedType _ | malformedMap _ | unsupportedMapKey _ | missingComponents _ => true
  | _ => false

end AbiError

namespace AbiType

/-- Accepts the integers of the type. -/
def checkInteger (type : AbiType) (value : Int) : Except AbiError Unit :=
  match type.bounds? with
  | none => .error (.mismatch type.toText "integer")
  | some (low, high) =>
    if low ≤ value ∧ value < high then .ok () else .error (.outOfRange value type)

end AbiType

end CellAbi
