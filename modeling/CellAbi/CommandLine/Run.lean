import CellAbi.CommandLine.Invocation
import CellAbi.CommandLine.Report

/-!
# Running commands

A command line is read, the settings are loaded, the log is prepared, and the command is run; the
first of these that fails decides the outcome.
-/

namespace CellAbi

/-- What a run leaves behind: an exit code and what it printed. -/
structure Outcome where
  code : UInt8
  output : String := ""
  errors : String := ""
deriving DecidableEq, Repr

namespace CommandLine

variable {m : Type → Type} [Monad m] (files : Files m)

/-- The settings file that is read when none is named, if it exists. -/
def standardSettings : String := "tvm-abi.toml"

def readSettings (path : String) : ExceptT CommandError m Settings :=
  ExceptT.mk do
    match ← files.readText path with
    | .error e => return .error (.unreadableSettings path e)
    | .ok text =>
      match Settings.ofText? text with
      | some settings => return .ok settings
      | none => return .error .invalidSettings

def loadSettings : Option String → ExceptT CommandError m Settings
  | some path => readSettings files path
  | none => do
    if ← files.isFile standardSettings then readSettings files standardSettings else return {}

/-- Checks the filter of the log and creates its file. -/
def prepareLog (log : LogSettings) : ExceptT CommandError m Unit := do
  ExceptT.mk (pure ((LogFilter.check log.level).mapError .logFilter))
  if log.output ≠ "stdout" ∧ log.output ≠ "stderr" then
    ExceptT.mk do return (← files.touch log.output).mapError (.logFile log.output)

/-- The contracts to generate: those of the command line, else those of the settings, else all. -/
def contractsFor (named configured : List String) (abiDir : String) :
    ExceptT CommandError m (List String) :=
  if !named.isEmpty then pure named
  else if !configured.isEmpty then pure configured
  else (Bindings.discover files abiDir).adapt .binding

def generate (settings : GenerateSettings) (abiDir outDir runtimeCrate : Option String)
    (contracts : List String) : ExceptT CommandError m String := do
  let abiDir := abiDir.getD settings.abiDir
  let contracts ← contractsFor files contracts settings.contracts abiDir
  if contracts.isEmpty then throw (.noContracts abiDir)
  let paths ← (Bindings.generateToDir files (runtimeCrate.getD settings.runtimeCrate) abiDir
    (outDir.getD settings.outDir) contracts).adapt .binding
  return Report.generated paths

def inspectType (descriptor : String) (mapKey : Bool) : Except CommandError String := do
  let type ← (AbiType.parse descriptor none).mapError .abi
  if !mapKey then return Report.type type type.nativeText
  else if type.isScalarKey then return Report.type type type.nativeKeyText
  else throw (.abi (.unsupportedMapKey type.toText))

/-- The text in front of the last dot; a dot in first place does not count. -/
def stem (name : String) : String :=
  match name.toList.reverse.dropWhile (· != '.') with
  | [] | ['.'] => name
  | _ :: front => String.ofList front.reverse

/-- The contract whose schema is in a file. -/
def contractOf (file : String) : String :=
  let name := (Path.parts file).getLastD ""
  (Bindings.dropSuffix? Bindings.schemaSuffix name).getD (stem name)

def inspectAbi (file : String) : ExceptT CommandError m String := do
  let schema ← (Bindings.readSchema files file).adapt .abi
  let built := BindingModule.ofContract ({} : GenerateSettings).runtimeCrate (contractOf file) schema
  return Report.module (← ExceptT.mk (pure (built.mapError .binding)))

/-- Runs a command and returns what it prints. -/
def execute (i : Invocation) : ExceptT CommandError m String := do
  let settings ← loadSettings files i.config
  prepareLog files { settings.logging with level := i.logLevel.getD settings.logging.level }
  match i.command with
  | .generate abiDir outDir runtimeCrate contracts =>
    generate files settings.generate abiDir outDir runtimeCrate contracts
  | .inspectType descriptor mapKey => ExceptT.mk (pure (inspectType descriptor mapKey))
  | .inspectAbi file => inspectAbi files file

/-- How the program is called. -/
def usage : String := Report.lines [
  "Generate typed Rust bindings from TVM contract ABIs", "",
  "Usage: tvm-abi [--config <CONFIG>] [--log-level <LOG_LEVEL>] <COMMAND>", "",
  "Commands:",
  "  generate [--abi-dir <DIR>] [--out-dir <DIR>] [--runtime-crate <PATH>] [CONTRACTS]...",
  "  inspect-type [--map-key] <DESCRIPTOR>",
  "  inspect-abi <FILE>"]

/-- Runs a command line. -/
def run (env : String → Option String) (words : List String) : m Outcome := do
  match Invocation.ofWords env words with
  | .error .help => return { code := 0, output := usage }
  | .error e => return { code := 2, errors := "error: " ++ e.message ++ "\n\n" ++ usage }
  | .ok i =>
    match ← (execute files i).run with
    | .ok output => return { code := 0, output }
    | .error e => return { code := e.exitCode, errors := e.report }

end CommandLine

end CellAbi
