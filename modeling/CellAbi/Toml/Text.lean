import CellAbi.Text.Hex
import CellAbi.Toml.Basic

/-!
# Reading TOML texts

A text is a sequence of lines: headers, and keys with their values.  Keys and texts take all the
spellings of TOML; lists and tables between braces may go over several lines.
-/

namespace CellAbi.Toml

/-! ## Blanks and comments -/

def isSpace (c : Char) : Bool := c == ' ' || c == '\t'

def skipSpaces (text : List Char) : List Char := text.dropWhile isSpace

/-- A control character that stands neither in comments nor in texts on one line. -/
def isControl (c : Char) : Bool := (c.toNat < 0x20 && c != '\t') || c.toNat == 0x7F

/-- Splits a line break off. -/
def lineBreak? : List Char → Option (List Char)
  | '\n' :: rest => some rest
  | '\r' :: '\n' :: rest => some rest
  | _ => none

/-- Skips spaces and a comment. -/
def skipComment (text : List Char) : List Char :=
  match skipSpaces text with
  | '#' :: rest => rest.dropWhile fun c => !isControl c
  | rest => rest

/-- Reads the end of a line: spaces, a comment, and a line break or the end of the text. -/
def endLine? (text : List Char) : Option (List Char) :=
  match skipComment text with
  | [] => some []
  | rest => lineBreak? rest

/-- Skips spaces, comments and line breaks; `fuel` bounds the number of lines. -/
def skipLines : Nat → List Char → List Char
  | 0, text => text
  | fuel + 1, text =>
    match lineBreak? (skipComment text) with
    | some rest => skipLines fuel rest
    | none => skipComment text

/-- Skips all spaces, comments and line breaks in front. -/
def skipAll (text : List Char) : List Char := skipLines (text.length + 1) text

/-! ## Texts -/

/-- The character of a one-letter escape. -/
def shortEscape? : Char → Option Char
  | 'b' => some '\x08'
  | 't' => some '\t'
  | 'n' => some '\n'
  | 'f' => some '\x0c'
  | 'r' => some '\r'
  | 'e' => some '\x1b'
  | '"' => some '"'
  | '\\' => some '\\'
  | _ => none

/-- Reads an escape behind its backslash. -/
def escape? : List Char → Option (Char × List Char)
  | [] => none
  | c :: rest =>
    match Text.Hex.codeLength? c with
    | some n =>
      if rest.length < n then none
      else (Text.Hex.ofCode? (rest.take n)).map fun c => (c, rest.drop n)
    | none => (shortEscape? c).map fun c => (c, rest)

/-- Reads a text on one line up to its closing quote.  Escapes are read in texts between double
quotes only. -/
def line? (quote : Char) : Nat → List Char → Option (List Char × List Char)
  | 0, _ => none
  | _, [] => none
  | fuel + 1, c :: rest =>
    if c = quote then some ([], rest)
    else if isControl c then none
    else if c = '\\' ∧ quote = '"' then do
      let (c, rest) ← escape? rest
      let (cs, rest) ← line? quote fuel rest
      return (c :: cs, rest)
    else (line? quote fuel rest).map fun (cs, rest) => (c :: cs, rest)

/-- Skips spaces and line breaks behind a backslash that ends a line; none if it does not. -/
def continued? (text : List Char) : Option (List Char) :=
  (lineBreak? (skipSpaces text)).map fun rest =>
    rest.dropWhile fun c => isSpace c || c == '\n' || c == '\r'

/-- Reads a text on several lines up to three closing quotes.  Up to two more quotes in front of
these belong to the text. -/
def block? (quote : Char) : Nat → List Char → Option (List Char × List Char)
  | 0, _ => none
  | _, [] => none
  | fuel + 1, c :: rest =>
    if (List.replicate 3 quote).isPrefixOf (c :: rest) then
      let run := ((c :: rest).takeWhile (· == quote)).take 5
      some (List.replicate (run.length - 3) quote, (c :: rest).drop run.length)
    else
      match lineBreak? (c :: rest) with
      | some rest => (block? quote fuel rest).map fun (cs, rest) => ('\n' :: cs, rest)
      | none =>
        if isControl c then none
        else if c = '\\' ∧ quote = '"' then
          match continued? rest with
          | some rest => block? quote fuel rest
          | none => do
            let (c, rest) ← escape? rest
            let (cs, rest) ← block? quote fuel rest
            return (c :: cs, rest)
        else (block? quote fuel rest).map fun (cs, rest) => (c :: cs, rest)

def isQuote (c : Char) : Bool := c == '"' || c == '\''

/-- Reads a quoted text on one line. -/
def quoted? : List Char → Option (String × List Char)
  | [] => none
  | q :: rest =>
    if isQuote q then
      (line? q (rest.length + 1) rest).map fun (cs, rest) => (String.ofList cs, rest)
    else none

/-- Reads a quoted text.  A line break right behind three opening quotes is dropped. -/
def text? (text : List Char) : Option (String × List Char) :=
  match text with
  | q :: r :: s :: rest =>
    if isQuote q && q == r && r == s then
      let body := (lineBreak? rest).getD rest
      (block? q (body.length + 1) body).map fun (cs, rest) => (String.ofList cs, rest)
    else quoted? text
  | _ => quoted? text

/-! ## Keys -/

def isBareKey (c : Char) : Bool := c.isAlphanum || c == '_' || c == '-'

/-- Reads a key without dots. -/
def simpleKey? (text : List Char) : Option (String × List Char) :=
  match text.takeWhile isBareKey with
  | [] => quoted? text
  | key => some (String.ofList key, text.dropWhile isBareKey)

/-- Reads a key, its parts separated by dots. -/
def key? : Nat → List Char → Option (List String × List Char)
  | 0, _ => none
  | fuel + 1, text => do
    let (part, rest) ← simpleKey? (skipSpaces text)
    match skipSpaces rest with
    | '.' :: rest =>
      let (parts, rest) ← key? fuel rest
      return (part :: parts, rest)
    | rest => return ([part], rest)

/-! ## Values -/

/-- The words that are values. -/
def words : List (String × Toml) := [("true", bool true), ("false", bool false)]

mutual

/-- Reads a value.  `fuel` bounds the number of nested and following parts. -/
def value? : Nat → List Char → Option (Toml × List Char)
  | 0, _ => none
  | fuel + 1, text =>
    match text with
    | '[' :: rest => (items? fuel rest).map fun (items, rest) => (array items, rest)
    | '\x7b' :: rest => (members? fuel [] rest).map fun (ms, rest) => (table .inline ms, rest)
    | c :: _ =>
      if isQuote c then (text? text).map fun (s, rest) => (string s, rest)
      else
        (words.lookup (String.ofList (text.takeWhile isBareKey))).map fun v =>
          (v, text.dropWhile isBareKey)
    | [] => none

/-- Reads the items of a list up to its closing bracket. -/
def items? : Nat → List Char → Option (List Toml × List Char)
  | 0, _ => none
  | fuel + 1, text =>
    match skipAll text with
    | ']' :: rest => some ([], rest)
    | text => do
      let (item, rest) ← value? fuel text
      match skipAll rest with
      | ',' :: rest =>
        let (items, rest) ← items? fuel rest
        return (item :: items, rest)
      | ']' :: rest => return ([item], rest)
      | _ => none

/-- Reads further members of a table up to its closing brace. -/
def members? : Nat → Members → List Char → Option (Members × List Char)
  | 0, _, _ => none
  | fuel + 1, members, text =>
    match skipAll text with
    | '\x7d' :: rest => some (members, rest)
    | text => do
      let (path, rest) ← key? (text.length + 1) text
      match rest with
      | '=' :: rest =>
        let (value, rest) ← value? fuel (skipSpaces rest)
        let members ← define? value path members
        match skipAll rest with
        | ',' :: rest => members? fuel members rest
        | '\x7d' :: rest => return (members, rest)
        | _ => none
      | _ => none

end

/-! ## Lines -/

/-- Reads the lines of a text; `here` is the table of the last header. -/
def lines? : Nat → List String → Members → List Char → Option Members
  | 0, _, _, _ => none
  | fuel + 1, here, members, text =>
    match skipAll text with
    | [] => some members
    | '[' :: rest => do
      let (path, rest) ← key? (rest.length + 1) rest
      match rest with
      | ']' :: rest => lines? fuel path (← openTable? path members) (← endLine? rest)
      | _ => none
    | text => do
      let (path, rest) ← key? (text.length + 1) text
      match rest with
      | '=' :: rest =>
        let (value, rest) ← value? (rest.length + 1) (skipSpaces rest)
        lines? fuel here (← within? (define? value path) here members) (← endLine? rest)
      | _ => none

/-- Reads a text; a byte order mark in front is passed over. -/
def ofText? (text : String) : Option Members :=
  let chars := match text.toList with
    | '\ufeff' :: rest => rest
    | chars => chars
  lines? (chars.length + 1) [] [] chars

end CellAbi.Toml
