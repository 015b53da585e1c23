import CellAbi.AbiType.Outline
import CellAbi.Bindings.Directory
import CellAbi.Settings.Basic
import CellAbi.Settings.LogFilter

/-!
# Reports

What the commands print about types, schemas and generated files, and what they print when they
fail: the error and, for common ones, a hint.
-/

namespace CellAbi

/-! ## Failures -/

inductive CommandError where
  | abi (cause : AbiError)
  | binding (cause : BindingError)
  | unreadableSettings (path : String) (cause : FileError)
  | invalidSettings
  | logFilter (fault : LogFilter.Fault)
  | logFile (path : String) (cause : FileError)
  /-- The directory holds no schemas. -/
  | noContracts (dir : String)

namespace CommandError

def message : CommandError → String
  | abi cause => cause.message
  | binding cause => cause.message
  | unreadableSettings path cause => s!"Failed to read config file '{path}': {cause.message}"
  | invalidSettings => "Failed to parse config"
  | logFilter .malformed => "Invalid log filter"
  | logFilter .splitCharacter => "A part of the log filter starts inside a character"
  | logFile path cause => s!"Failed to open log file '{path}': {cause.message}"
  | noContracts dir => s!"No .abi.json files found in {dir}"

/-- The hint for an error of a schema or of a type. -/
def abiHint? : AbiError → Option String
  | .missingComponents _ =>
    some "Tuple components live in the schema; use 'tvm-abi inspect-abi <FILE>' instead"
  | .schema => some "Check that the file is a contract ABI in JSON form"
  | e =>
    if e.isDescriptorError then
      some ("Supported types: intN, uintN, varintN, varuintN, bool, string, bytes, fixedbytesN, " ++
        "cell, address, address_std, T[], optional(T), map(K,V), tuple")
    else none

def hint? : CommandError → Option String
  | abi cause | binding (.abi cause) => abiHint? cause
  | binding (.missingAbi ..) | noContracts _ =>
    some ("Compile the contracts first, or point --abi-dir at the directory holding the " ++
      ".abi.json files")
  | binding (.nameCollision ..) =>
    some "Two schema entries map to the same generated name; rename one of them"
  | invalidSettings =>
    some ("Valid sections are [generate] (abi_dir, out_dir, contracts, runtime_crate) and " ++
      "[logging]")
  | _ => none

/-- The exit code of a run that fails. -/
def exitCode : CommandError → UInt8
  | logFilter .splitCharacter => 101
  | _ => 1

/-- The error and its hint, one per line. -/
def report (e : CommandError) : String :=
  "Error: " ++ e.message ++ "\n" ++
    match e.hint? with
    | some hint => "Hint: " ++ hint ++ "\n"
    | none => ""

end CommandError

/-! ## Results -/

namespace Report

/-- Lines, each with its line break. -/
def lines (ls : List String) : String := String.join (ls.map (· ++ "\n"))

def type (type : AbiType) (target : String) : String :=
  lines ["descriptor: " ++ type.toText, "ast: " ++ type.outline, "rust: " ++ target]

def inputs : Shape → String
  | .none => ""
  | .single f => s!" ({f.ident}: {f.type})"
  | .struct s => s!" ({s.name})"

def outputs : Shape → String
  | .none => "()"
  | .single f => f.type
  | .struct s => s.name

def function (f : FunctionBinding) : String :=
  s!"  {f.abiName} -> {f.send}, {f.body}, {f.bodyExternal}, {f.sendExternal}" ++ inputs f.inputs

def getter (g : GetterBinding) : String :=
  s!"  {g.abiName} -> {g.method}" ++ inputs g.inputs ++ " -> " ++ outputs g.outputs

def stateField (f : Field) : String :=
  let mark := if f.param.isInit then " (init)" else ""
  s!"  {f.ident}: {f.param.type}{mark} -> {f.type}"

def module (m : BindingModule) : String :=
  let constructor := if m.hasConstructor then "yes" else "no (sendDeploy)"
  lines ([s!"contract: {m.contract} ({m.contractPath})", "constructor: " ++ constructor,
      "functions:"] ++ m.functions.map function ++ ["getters:"] ++ m.getters.map getter ++
    ["fields:"] ++ m.state.fields.map stateField)

def generated (paths : List String) : String := lines (paths.map ("Generated " ++ ·))

end Report

end CellAbi
