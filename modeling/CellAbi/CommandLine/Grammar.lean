/-!
# Options and arguments

Splits the words of a command line into options and arguments.  An option starts with two dashes,
or with one dash and a letter; its value is the next word or stands behind an equals sign.  Behind
the word `--` every word is an argument.
-/

namespace CellAbi

/-- What an option is followed by. -/
inductive OptionKind where
  | flag
  | text
  /-- A text that is not empty. -/
  | path
deriving DecidableEq, Repr

structure OptionRule where
  name : String
  letter : Option Char := none
  kind : OptionKind
deriving DecidableEq, Repr

/-- How the arguments of a command are taken. -/
inductive ArgumentRule where
  /-- The first argument names a command; what follows is the command's. -/
  | command
  | single (name : String) (kind : OptionKind)
  | many
deriving DecidableEq, Repr

structure Grammar where
  options : List OptionRule
  arguments : ArgumentRule
deriving DecidableEq, Repr

inductive UsageError where
  /-- Help was asked for; this is no failure. -/
  | help
  | unexpectedArgument (word : String)
  | unknownCommand (word : String)
  | missingValue (option : String)
  | unexpectedValue (option value : String)
  | repeated (option : String)
  | missingArgument (name : String)
  | missingCommand
deriving DecidableEq, Repr

def UsageError.message : UsageError → String
  | help => "help requested"
  | unexpectedArgument word => s!"unexpected argument '{word}' found"
  | unknownCommand word => s!"unrecognized subcommand '{word}'"
  | missingValue option => s!"a value is required for '{option}' but none was supplied"
  | unexpectedValue option value => s!"unexpected value '{value}' for '{option}' found"
  | repeated option => s!"the argument '{option}' cannot be used multiple times"
  | missingArgument name => s!"the following required arguments were not provided: <{name}>"
  | missingCommand => "a subcommand is required but one was not provided"

/-- The words of a command line, sorted out. -/
structure Words where
  /-- Options with their values; flags have an empty one. -/
  options : List (String × String) := []
  arguments : List String := []
  /-- The words behind the name of a command. -/
  rest : List String := []
deriving DecidableEq, Repr

namespace Grammar

/-- A word as an option is read from it. -/
inductive Shape where
  | argument
  /-- Only arguments follow. -/
  | terminator
  | long (name : String) (value : Option String)
  | short (letter : Char) (value : Option String)

/-- Splits a value behind an equals sign off. -/
def splitValue : List Char → List Char × Option String
  | [] => ([], none)
  | '=' :: value => ([], some (String.ofList value))
  | c :: rest => let (name, value) := splitValue rest; (c :: name, value)

def shape (word : String) : Shape :=
  match word.toList with
  | ['-', '-'] => .terminator
  | '-' :: '-' :: rest => let (name, value) := splitValue rest; .long (String.ofList name) value
  | ['-', c] => .short c none
  | '-' :: c :: '=' :: value => .short c (some (String.ofList value))
  | '-' :: c :: value => .short c (some (String.ofList value))
  | _ => .argument

/-- Whether a word can be the value of the option in front of it. -/
def isValue (word : String) : Bool :=
  match shape word with
  | .argument => true
  | _ => false

/-- The rule for an option, given by name or by letter. -/
def rule? (g : Grammar) : Shape → Option OptionRule
  | .long name _ => g.options.find? (·.name == name)
  | .short letter _ => g.options.find? (·.letter == some letter)
  | _ => none

/-- Whether an option asks for help. -/
def isHelp : Shape → Bool
  | .long name none => name == "help"
  | .short letter _ => letter == 'h'
  | _ => false

/-- Adds an option with its value. -/
def addOption (w : Words) (rule : OptionRule) (value : String) : Except UsageError Words :=
  if (w.options.lookup rule.name).isSome then .error (.repeated rule.name)
  else if rule.kind = .path ∧ value = "" then .error (.missingValue rule.name)
  else .ok { w with options := w.options ++ [(rule.name, value)] }

/-- Adds an argument. -/
def addArgument (g : Grammar) (w : Words) (word : String) : Except UsageError Words :=
  match g.arguments, w.arguments with
  | .single name kind, [] =>
    if kind = .path ∧ word = "" then .error (.missingValue name)
    else .ok { w with arguments := [word] }
  | .many, words => .ok { w with arguments := words ++ [word] }
  | _, _ => .error (.unexpectedArgument word)

/-- Sorts the words out, from the first to the last. -/
def sort (g : Grammar) (w : Words) : List String → Except UsageError Words
  | [] => .ok w
  | word :: rest =>
    let s := shape word
    match s with
    | .terminator => rest.foldlM (addArgument g) w
    | .argument =>
      if g.arguments = .command then .ok { w with arguments := [word], rest }
      else do sort g (← addArgument g w word) rest
    | .long _ value | .short _ value =>
      match g.rule? s, value, rest with
      | none, _, _ => .error (if isHelp s then .help else .unexpectedArgument word)
      | some rule, value, rest =>
        match rule.kind, value, rest with
        | .flag, none, rest => do sort g (← addOption w rule "") rest
        | .flag, some value, _ => .error (.unexpectedValue rule.name value)
        | _, some value, rest => do sort g (← addOption w rule value) rest
        | _, none, value :: rest =>
          if isValue value then do sort g (← addOption w rule value) rest
          else .error (.missingValue rule.name)
        | _, none, [] => .error (.missingValue rule.name)

/-- Sorts out all words and checks that the argument is there. -/
def read (g : Grammar) (words : List String) : Except UsageError Words := do
  let w ← g.sort {} words
  match g.arguments, w.arguments with
  | .command, [] => throw .missingCommand
  | .single name _, [] => throw (.missingArgument name)
  | _, _ => return w

end Grammar

end CellAbi
