import CellAbi.Bindings.Module
import CellAbi.Bindings.Name
import CellAbi.Native.Type

/-!
# Building binding modules

Resolves the names and types of a schema.  Schemas whose entries lead to one name twice are
refused.
-/

namespace CellAbi

inductive BindingError where
  | abi (cause : AbiError)
  | nameCollision (contract name : String)
  | invalidContractName (contract : String)
  | missingAbi (contract path : String)
  /-- A file or directory could not be read or written. -/
  | file (path : String) (cause : FileError)

def BindingError.message : BindingError → String
  | abi cause => cause.message
  | nameCollision contract name => s!"'{name}' is generated twice in contract '{contract}'"
  | invalidContractName contract => s!"'{contract}' is not a valid contract name"
  | missingAbi contract path => s!"no ABI file for contract '{contract}' at {path}"
  | file path cause => s!"I/O error at {path}: {cause.message}"

namespace Field

/-- Binds a parameter to an identifier. -/
def ofParam (ident : String) (p : Param) : Except AbiError Field := do
  let type ← p.abiType
  return { ident, param := p, type := type.nativeText }

end Field

namespace Struct

def ofParams (name : String) (ps : List Param) : Except AbiError Struct := do
  return { name, fields := ← ps.mapM fun p => Field.ofParam (Name.identifier p.name) p }

end Struct

namespace Shape

def ofInputs (structName : String) : List Param → Except AbiError Shape
  | [] => .ok .none
  | [p] => do return .single (← Field.ofParam (Name.argument p.name) p)
  | ps => do return .struct (← Struct.ofParams structName ps)

def ofOutputs (structName : String) : List Param → Except AbiError Shape
  | [] => .ok .none
  | [p] => do return .single (← Field.ofParam (Name.identifier p.name) p)
  | ps => do return .struct (← Struct.ofParams structName ps)

end Shape

def FunctionBinding.ofFunction (f : Function) : Except AbiError FunctionBinding := do
  return {
    abiName := f.name
    send := Name.send f.name
    body := Name.body f.name
    bodyExternal := Name.bodyExternal f.name
    sendExternal := Name.sendExternal f.name
    inputs := ← Shape.ofInputs (Name.type f.name ++ "Params") f.inputs
    deploys := f.name == "constructor" }

def GetterBinding.ofGetter (g : Getter) : Except AbiError GetterBinding := do
  let method := Name.get g.name
  let outputs ← Shape.ofOutputs (Name.type method ++ "Output") g.outputs
  return {
    abiName := g.name
    method
    inputs := ← Shape.ofInputs (Name.type method ++ "Params") g.inputs
    outputs }

/-- The first element that an earlier one equals. -/
def firstRepeated? (seen : List String) : List String → Option String
  | [] => none
  | name :: rest =>
    if seen.contains name then some name else firstRepeated? (name :: seen) rest

namespace BindingModule

/-- The first struct whose name repeats, or whose fields repeat an identifier, in order. -/
def structCollision? (seen : List String) : List Struct → Option String
  | [] => none
  | s :: rest =>
    if seen.contains s.name then some s.name
    else
      match firstRepeated? [] (s.fields.map (·.ident)) with
      | some ident => some (s.name ++ "." ++ ident)
      | none => structCollision? (s.name :: seen) rest

/-- The first name that is generated twice: methods first, then types and their fields. -/
def collision? (m : BindingModule) : Option String :=
  match firstRepeated? [] m.methodNames with
  | some name => some name
  | none => structCollision? [m.contract] m.structs

/-- Whether a contract's type can have that name. -/
def isContractType (name : String) : Bool :=
  match name.toList with
  | [] => false
  | c :: _ => !c.isDigit

/-- The module of a schema whose types all parse. -/
def ofValid (runtimeCrate contract : String) (c : Contract) : Except AbiError BindingModule := do
  let type := Name.type contract
  return {
    contract := type
    contractPath := contract
    runtimeCrate
    hasConstructor := c.hasConstructor
    init := ← Struct.ofParams (type ++ "Init") c.initFields
    state := ← Struct.ofParams (type ++ "State") c.fields
    functions := ← c.functions.mapM FunctionBinding.ofFunction
    getters := ← c.getters.mapM GetterBinding.ofGetter }

/-- The module of a contract.  Types are checked first, then the name, then collisions. -/
def ofContract (runtimeCrate contract : String) (c : Contract) :
    Except BindingError BindingModule := do
  c.validate.mapError .abi
  if !isContractType (Name.type contract) then throw (.invalidContractName contract)
  let m ← (ofValid runtimeCrate contract c).mapError .abi
  match m.collision? with
  | some name => throw (.nameCollision contract name)
  | none => return m

end BindingModule

end CellAbi
