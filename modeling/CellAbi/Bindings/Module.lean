import CellAbi.Schema.Contract

/-!
# Binding modules

What is generated for a contract, with every name and type resolved.
-/

namespace CellAbi

/-- A struct field or an argument, bound to its parameter. -/
structure Field where
  ident : String
  param : Param
  type : String
deriving DecidableEq

structure Struct where
  name : String
  fields : List Field
deriving DecidableEq

/-- How a method takes its inputs, or returns its outputs. -/
inductive Shape where
  | none
  /-- A single parameter stands for itself. -/
  | single (field : Field)
  /-- Several parameters are grouped. -/
  | struct (struct : Struct)
deriving DecidableEq

/-- The struct that is generated for the shape. -/
def Shape.struct? : Shape → Option Struct
  | .struct s => some s
  | _ => Option.none

/-- Methods of a function. -/
structure FunctionBinding where
  abiName : String
  send : String
  body : String
  bodyExternal : String
  sendExternal : String
  inputs : Shape
  /-- Whether the internal message carries the initial state. -/
  deploys : Bool
deriving DecidableEq

/-- Method of a getter. -/
structure GetterBinding where
  abiName : String
  method : String
  inputs : Shape
  outputs : Shape
deriving DecidableEq

structure BindingModule where
  /-- The type of the contract. -/
  contract : String
  /-- The name the schema is found by. -/
  contractPath : String
  /-- The path that the runtime is imported from. -/
  runtimeCrate : String
  hasConstructor : Bool
  init : Struct
  state : Struct
  functions : List FunctionBinding
  getters : List GetterBinding
deriving DecidableEq

namespace BindingModule

/-- The generated structs in the order of their emission. -/
def structs (m : BindingModule) : List Struct :=
  [m.init, m.state] ++ m.functions.filterMap (·.inputs.struct?) ++
    m.getters.flatMap fun g => g.inputs.struct?.toList ++ g.outputs.struct?.toList

/-- The names of the generated methods in the order of their emission. -/
def methodNames (m : BindingModule) : List String :=
  ["new", "createFromABI", "getStateVariables"] ++
    (if m.hasConstructor then [] else ["sendDeploy"]) ++
    m.functions.flatMap (fun f => [f.body, f.send, f.bodyExternal, f.sendExternal]) ++
    m.getters.map (·.method)

end BindingModule

end CellAbi
