import CellAbi.AbiType.Descriptor

/-!
# Contract schemas

What a contract declares: functions, getters, events and state fields with their parameters.
-/

namespace CellAbi

structure Function where
  name : String
  inputs : List Param := []
  outputs : List Param := []
  id : Option String := none
deriving DecidableEq

/-- A read-only method. -/
structure Getter where
  name : String
  inputs : List Param := []
  outputs : List Param := []
deriving DecidableEq

structure Event where
  name : String
  inputs : List Param := []
  id : Option String := none
deriving DecidableEq

structure Contract where
  /-- The version under the key `ABI version`. -/
  legacyVersion : Option Nat := none
  /-- The version under the key `abi_version`. -/
  abiVersion : Option Nat := none
  version : Option String := none
  header : List String := []
  functions : List Function := []
  getters : List Getter := []
  events : List Event := []
  fields : List Param := []
deriving DecidableEq

namespace Contract

/-- The first function of that name. -/
def function? (c : Contract) (name : String) : Option Function :=
  c.functions.find? (·.name == name)

/-- The first getter of that name. -/
def getter? (c : Contract) (name : String) : Option Getter := c.getters.find? (·.name == name)

/-- Whether a function is named `constructor`. -/
def hasConstructor (c : Contract) : Bool := (c.function? "constructor").isSome

/-- The state fields that the initial data supplies. -/
def initFields (c : Contract) : List Param := c.fields.filter (·.isInit)

/-- The parameters that bindings depend on: of fields, functions and getters, not of events. -/
def bindingParams (c : Contract) : List Param :=
  c.fields ++ c.functions.flatMap (fun f => f.inputs ++ f.outputs) ++
    c.getters.flatMap (fun g => g.inputs ++ g.outputs)

/-- Fails with the first parameter that bindings depend on and whose type cannot be read. -/
def validate (c : Contract) : Except AbiError Unit :=
  c.bindingParams.forM fun p => do let _ ← p.abiType

end Contract

end CellAbi
