import CellAbi.Contract.Arguments
import CellAbi.Contract.Message

/-!
# State of a contract

The persistent variables of a contract as the codec service decodes them, and the address that
follows from an initial state.
-/

namespace CellAbi

/-- The variables of a contract in JSON form. -/
structure StateVariables where
  members : List (String × Json) := []

namespace StateVariables

/-- A variable as a value of a native type. -/
def field {α : Type} [OfValue α] (s : StateVariables) (p : Param) : Except AbiError α := do
  let type ← p.abiType
  match Sorted.lookup p.name s.members with
  | none => throw (.shape s!"state variable '{p.name}'" "nothing")
  | some json => OfValue.ofValue (← Value.ofJson type json) type

/-- A variable as a dynamic value. -/
def value (s : StateVariables) (p : Param) : Except AbiError Value := s.field p

/-- Fetches the account from the provider and has the codec service decode its state.  Only active
accounts have one. -/
def read {σ : Type} (codec : Codec σ) (account : Except CollaboratorError Account)
    (contract : String) : Wire.Encode σ StateVariables := do
  match account with
  | .error e => throw (.collaborator e)
  | .ok (.active code data) =>
    let cell ← Wire.ofExcept ((StateInit.toCell ⟨code, data⟩).mapError .cell)
    return ⟨← Codec.call (codec.decodeState contract cell)⟩
  | .ok _ => throw .contractNotActive

end StateVariables

/-- The address of an initial state under the hash function `h`. -/
def StandardAddress.ofStateInitWith (h : List UInt8 → Digest) (workchain : Int32)
    (init : StateInit) : Except AbiError StandardAddress := do
  return ⟨workchain, ← (init.hashWith h).mapError .cell⟩

/-- The address that a contract with this initial state will have. -/
def StandardAddress.ofStateInit (workchain : Int32) (init : StateInit) :
    Except AbiError StandardAddress :=
  ofStateInitWith Sha256.digest workchain init

end CellAbi
