import CellAbi.Toml.Text

/-!
# Settings

What a settings file says about generation and about the log.  Every section and every key may be
left out; an unknown one makes the file invalid.
-/

namespace CellAbi

structure GenerateSettings where
  /-- The directory that holds the schemas. -/
  abiDir : String := "build"
  /-- The directory that bindings are written to. -/
  outDir : String := "bindings"
  /-- The contracts to generate; all schemas if there are none. -/
  contracts : List String := []
  /-- The path that bindings import their runtime from. -/
  runtimeCrate : String := "tvm_abi"
deriving DecidableEq, Repr

inductive LogFormat where
  | text
  | json
deriving DecidableEq, Repr

structure LogSettings where
  /-- The filter of log events. -/
  level : String := "warn"
  format : LogFormat := .text
  /-- `stdout`, `stderr` or a file. -/
  output : String := "stderr"
  color : Bool := true
  timestamps : Bool := false
  /-- Whether events name the module they come from. -/
  target : Bool := false
deriving DecidableEq, Repr

structure Settings where
  generate : GenerateSettings := {}
  logging : LogSettings := {}
deriving DecidableEq, Repr

namespace Toml

/-- The members of a record with these names.  A list gives them in their order. -/
def record? (names : List String) : Toml → Option Members
  | table _ members =>
    if members.all fun (name, _) => names.contains name then some members else none
  | array items => some (names.zip items)
  | _ => none

def string? : Toml → Option String
  | string text => some text
  | _ => none

def bool? : Toml → Option Bool
  | bool value => some value
  | _ => none

def texts? : Toml → Option (List String)
  | array items => items.mapM string?
  | _ => none

/-- The format of that name: as a text, or as the name of an empty list or table. -/
def logFormat? (value : Toml) : Option LogFormat :=
  let name := match value with
    | string name | table _ [(name, array [])] | table _ [(name, table _ [])] => name
    | _ => ""
  [("text", LogFormat.text), ("json", LogFormat.json)].lookup name

/-- A member with a default. -/
def withDefault {α : Type} (read : Toml → Option α) (default : α) (name : String)
    (members : Members) : Option α :=
  match members.lookup name with
  | none => some default
  | some value => read value

end Toml

open Toml

def GenerateSettings.ofToml? (value : Toml) : Option GenerateSettings := do
  let m ← record? ["abi_dir", "out_dir", "contracts", "runtime_crate"] value
  let d : GenerateSettings := {}
  return {
    abiDir := ← withDefault string? d.abiDir "abi_dir" m
    outDir := ← withDefault string? d.outDir "out_dir" m
    contracts := ← withDefault texts? d.contracts "contracts" m
    runtimeCrate := ← withDefault string? d.runtimeCrate "runtime_crate" m }

def LogSettings.ofToml? (value : Toml) : Option LogSettings := do
  let m ← record? ["level", "format", "output", "color", "timestamps", "target"] value
  let d : LogSettings := {}
  return {
    level := ← withDefault string? d.level "level" m
    format := ← withDefault logFormat? d.format "format" m
    output := ← withDefault string? d.output "output" m
    color := ← withDefault bool? d.color "color" m
    timestamps := ← withDefault bool? d.timestamps "timestamps" m
    target := ← withDefault bool? d.target "target" m }

/-- Reads the text of a settings file. -/
def Settings.ofText? (text : String) : Option Settings := do
  let m ← record? ["generate", "logging"] (table .header (← Toml.ofText? text))
  return {
    generate := ← withDefault GenerateSettings.ofToml? {} "generate" m
    logging := ← withDefault LogSettings.ofToml? {} "logging" m }

end CellAbi
