import CellAbi.Text.Words

/-!
# Names in generated source

A function is exposed as `send<Name>` and a getter as `get<Name>`; a declared name that has the
prefix already is kept.  Schema names become identifiers by replacing what an identifier cannot
hold, and by marking keywords.
-/

namespace CellAbi.Name

/-! ## Methods -/

/-- The first character in upper case, the others as they are. -/
def upperFirst (name : String) : String :=
  match name.toList with
  | [] => ""
  | c :: rest => String.ofList (Text.upperCase c ++ rest)

/-- `name` behind a word that it may start with already. -/
def withWord (word name : String) : String :=
  if (word.toList.isPrefixOf? name.toList).isSome then name else word ++ upperFirst name

/-- The method that sends an internal message. -/
def send (name : String) : String := withWord "send" name

/-- The method that calls a getter. -/
def get (name : String) : String := withWord "get" name

/-- The builder of the body of an internal message. -/
def body (name : String) : String := name ++ "Body"

/-- The builder of the body of a signed external message. -/
def bodyExternal (name : String) : String := name ++ "BodyExternal"

/-- The method that sends an external message. -/
def sendExternal (name : String) : String := send name ++ "External"

/-- The type of a schema name. -/
def type (name : String) : String := Text.upperCamelCase name

/-! ## Identifiers -/

/-- Keywords that may be written as raw identifiers. -/
def keywords : List String := [
  "abstract", "as", "async", "await", "become", "box", "break", "const", "continue", "do",
  "dyn", "else", "enum", "extern", "false", "final", "fn", "for", "gen", "if", "impl", "in",
  "let", "loop", "macro", "match", "mod", "move", "mut", "override", "priv", "pub", "ref",
  "return", "static", "struct", "trait", "true", "try", "type", "typeof", "unsafe", "unsized",
  "use", "virtual", "where", "while", "yield"]

/-- Keywords that may not. -/
def strictKeywords : List String := ["self", "Self", "super", "crate", "_"]

/-- Names that generated methods use for their own arguments and locals. -/
def reservedArguments : List String := [
  "provider", "codec", "value", "bounce", "send_mode", "secret_key", "header", "params",
  "json", "body", "message", "signed", "args", "stack"]

/-- Underscores in the place of all that is neither letter, number nor underscore, and one in front
of a leading ASCII digit and of nothing. -/
def sanitize (name : List Char) : List Char :=
  let chars := name.map fun c => if Text.isAlphanumeric c || c == '_' then c else '_'
  match chars with
  | [] => ['_']
  | c :: _ => if c.isDigit then '_' :: chars else chars

/-- Marks keywords: raw where they may be, with an underscore behind them where they may not. -/
def escapeKeyword (name : String) : String :=
  if strictKeywords.contains name then name ++ "_"
  else if keywords.contains name then "r#" ++ name
  else name

def identifier (name : String) : String := escapeKeyword (String.ofList (sanitize name.toList))

/-- The identifier of an argument, kept apart from the reserved ones. -/
def argument (name : String) : String :=
  let ident := identifier name
  if reservedArguments.contains ident then ident ++ "_" else ident

/-- The module of a contract. -/
def module (contract : String) : String := identifier (Text.snakeCase contract)

end CellAbi.Name
