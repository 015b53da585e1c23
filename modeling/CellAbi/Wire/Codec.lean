import CellAbi.Value.Json
import CellAbi.Wire.Item

/-!
# The codec service

Strings, byte strings, maps and arrays travel as cells that a codec service writes and reads.  The
service is a parameter: three functions over a state of its own.  `recording` keeps the calls that
a service receives.
-/

namespace CellAbi

/-- A service that turns JSON values into cells and back, and reads the state of contracts. -/
structure Codec (σ : Type) where
  encode : Param → Json → σ → Except CollaboratorError Cell × σ
  decode : Param → Cell → σ → Except CollaboratorError Json × σ
  decodeState : String → Cell → σ → Except CollaboratorError (List (String × Json)) × σ

namespace Codec

/-- A call that a service received. -/
inductive Call where
  | encode (param : Param) (json : Json)
  | decode (param : Param) (cell : Cell)
  | decodeState (contract : String) (cell : Cell)

/-- The service that also keeps its calls, the first one first. -/
def recording {σ : Type} (codec : Codec σ) : Codec (σ × List Call) where
  encode param json := fun (s, calls) =>
    let (result, s) := codec.encode param json s
    (result, s, calls ++ [.encode param json])
  decode param cell := fun (s, calls) =>
    let (result, s) := codec.decode param cell s
    (result, s, calls ++ [.decode param cell])
  decodeState contract cell := fun (s, calls) =>
    let (result, s) := codec.decodeState contract cell s
    (result, s, calls ++ [.decodeState contract cell])

/-- Runs one call of a service. -/
def call {σ α : Type} (f : σ → Except CollaboratorError α × σ) : EStateM AbiError σ α := do
  let (result, s) := f (← get)
  set s
  match result with
  | .ok a => return a
  | .error e => throw (.collaborator e)

end Codec

end CellAbi
