import CellAbi.CommandLine.Grammar

/-!
# Invocations

What a command line asks for.  The options for the settings file and for the log stand in front of
the command or behind it; the one behind it wins, and environment variables stand in for both.
-/

namespace CellAbi

inductive Command where
  /-- Generates bindings. -/
  | generate (abiDir outDir runtimeCrate : Option String) (contracts : List String)
  /-- Shows a type and its native type, as a parameter or as a map key. -/
  | inspectType (descriptor : String) (mapKey : Bool)
  /-- Lists what is generated for a schema. -/
  | inspectAbi (file : String)
deriving DecidableEq, Repr

structure Invocation where
  /-- The settings file. -/
  config : Option String := none
  logLevel : Option String := none
  command : Command
deriving DecidableEq, Repr

namespace Invocation

/-- The options that every command takes. -/
def commonOptions : List OptionRule := [
  { name := "config", letter := some 'c', kind := .path },
  { name := "log-level", kind := .text }]

/-- The environment variables that stand in for common options. -/
def environmentKeys : List (OptionRule × String) :=
  commonOptions.zip ["TVM_ABI_CONFIG", "TVM_ABI_LOG"]

/-- What stands in front of a command. -/
def outer : Grammar := { options := commonOptions, arguments := .command }

/-- The grammars of the commands. -/
def grammars : List (String × Grammar) := [
  ("generate", {
    options := commonOptions ++ [
      { name := "abi-dir", kind := .path }, { name := "out-dir", kind := .path },
      { name := "runtime-crate", kind := .text }]
    arguments := .many }),
  ("inspect-type", {
    options := commonOptions ++ [{ name := "map-key", kind := .flag }]
    arguments := .single "DESCRIPTOR" .text }),
  ("inspect-abi", { options := commonOptions, arguments := .single "FILE" .path })]

/-- The command that was named, from its words. -/
def commandOf (name : String) (w : Words) : Except UsageError Command :=
  match name, w.arguments with
  | "generate", contracts =>
    .ok (.generate (w.options.lookup "abi-dir") (w.options.lookup "out-dir")
      (w.options.lookup "runtime-crate") contracts)
  | "inspect-type", [descriptor] =>
    .ok (.inspectType descriptor (w.options.lookup "map-key").isSome)
  | "inspect-abi", [file] => .ok (.inspectAbi file)
  | name, _ => .error (.unknownCommand name)

/-- Answers the command `help`, which may name one command. -/
def help : List String → UsageError
  | [] => .help
  | [word] => if word = "help" ∨ (grammars.lookup word).isSome then .help else .unknownCommand word
  | _ :: word :: _ => .unknownCommand word

/-- Adds the environment variables in the place of options that are missing. -/
def withEnvironment (env : String → Option String) (w : Words) : Except UsageError Words :=
  environmentKeys.foldlM (fun w (rule, key) =>
    match w.options.lookup rule.name, env key with
    | none, some value => Grammar.addOption w rule value
    | _, _ => .ok w) w

/-- The value of a common option: behind the command, else in front of it, else from the
environment. -/
def common (env : String → Option String) (before behind : Words) (rule : OptionRule) :
    Option String :=
  (behind.options.lookup rule.name).or
    ((before.options.lookup rule.name).or ((environmentKeys.lookup rule).bind env))

/-- Reads a command line.  Values from the environment are checked as those of options are. -/
def ofWords (env : String → Option String) (words : List String) :
    Except UsageError Invocation := do
  let before ← outer.read words
  let name := before.arguments.headD ""
  if name = "help" then throw (help before.rest)
  match grammars.lookup name with
  | none => throw (.unknownCommand name)
  | some grammar =>
    let behind ← grammar.read before.rest
    let _ ← withEnvironment env behind
    let _ ← withEnvironment env before
    let value := common env before behind
    return {
      config := commonOptions[0]?.bind value
      logLevel := commonOptions[1]?.bind value
      command := ← commandOf name behind }

end Invocation

end CellAbi
