import CellAbi.Bindings.Build
import CellAbi.Bindings.Render
import CellAbi.Files.Basic
import CellAbi.Schema.Json

/-!
# Directories of bindings

Writes one source file per contract and an index that declares them.  The schema of a contract is
the file `<contract>.abi.json`.
-/

namespace CellAbi.Bindings

/-- What follows the contract in the name of a schema file. -/
def schemaSuffix : String := ".abi.json"

/-- The text without a suffix, if it ends with it. -/
def dropSuffix? (suffix text : String) : Option String :=
  (suffix.toList.isSuffixOf? text.toList).map String.ofList

variable {m : Type → Type} [Monad m] (files : Files m)

/-- Runs an operation on files as a step of generation. -/
def run {α : Type} (path : String) (step : m (Except FileError α)) : ExceptT BindingError m α :=
  ExceptT.mk do return (← step).mapError (.file path)

/-- The contracts that a directory has schemas of, sorted. -/
def discover (dir : String) : ExceptT BindingError m (List String) := do
  let names ← run dir (files.entries dir)
  let contracts := names.filterMap fun name =>
    (dropSuffix? schemaSuffix name).filter fun contract => !contract.isEmpty
  return contracts.mergeSort fun a b => (compare a b).isLE

/-- Reads a schema from a file. -/
def readSchema (path : String) : ExceptT AbiError m Contract :=
  ExceptT.mk do
    match ← files.readText path with
    | .ok text => return Contract.ofText text
    | .error e => return .error (.file e)

/-- The source of the bindings of a contract. -/
def generate (runtimeCrate contract : String) (c : Contract) : Except BindingError String := do
  return (← BindingModule.ofContract runtimeCrate contract c).toText

/-- The file name of a module; a keyword is written without its mark. -/
def fileName (module : String) : String :=
  String.ofList (("r#".toList.isPrefixOf? module.toList).getD module.toList) ++ ".rs"

/-- The index of generated modules, given with the types they export. -/
def index (modules : List (String × String)) : String :=
  Source.toText
    ([.line "// This file is auto-generated. Do not modify it.", .blank] ++
      modules.map (fun (module, _) => .line ("pub mod " ++ module ++ ";")) ++
      (if modules.isEmpty then [] else [.blank]) ++
      modules.map fun (module, type) => .line ("pub use " ++ module ++ "::" ++ type ++ ";"))

/-- Generates one contract and returns its file. -/
def writeContract (runtimeCrate abiDir outDir contract : String) :
    ExceptT BindingError m String := do
  let path := Path.join abiDir (contract ++ schemaSuffix)
  if !(← files.isFile path) then throw (.missingAbi contract path)
  let schema ← (readSchema files path).adapt .abi
  let source ← ExceptT.mk (pure (generate runtimeCrate contract schema))
  let target := Path.join outDir (fileName (Name.module contract))
  run target (files.write target source)
  return target

/-- Generates contracts one by one. -/
def writeContracts (runtimeCrate abiDir outDir : String) :
    List String → ExceptT BindingError m (List String)
  | [] => return []
  | contract :: rest => do
    let target ← writeContract files runtimeCrate abiDir outDir contract
    return target :: (← writeContracts runtimeCrate abiDir outDir rest)

/-- Generates contracts, all with a schema in `abiDir` if none is named, and the index.  Returns
the written files in order. -/
def generateToDir (runtimeCrate abiDir outDir : String) (contracts : List String) :
    ExceptT BindingError m (List String) := do
  let contracts ← if contracts.isEmpty then discover files abiDir else pure contracts
  run outDir (files.createDirs outDir)
  let written ← writeContracts files runtimeCrate abiDir outDir contracts
  let target := Path.join outDir "mod.rs"
  run target (files.write target
    (index (contracts.map fun contract => (Name.module contract, Name.type contract))))
  return written ++ [target]

end CellAbi.Bindings
