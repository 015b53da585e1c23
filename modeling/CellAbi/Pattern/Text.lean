import CellAbi.Pattern.Basic
import CellAbi.Text.Alphanumeric
import CellAbi.Text.Blank
import CellAbi.Text.Hex

/-!
# Reading patterns

A pattern is a choice of sequences; a sequence is a row of characters, escapes, classes and groups,
each with any number of repetition marks behind it.  Patterns stand between braces, so that no
closing brace occurs in them: everything that needs one (counted repetitions, codes and properties
in braces) is refused at its opening brace.
-/

namespace CellAbi.Pattern

/-! ## Blanks and comments -/

/-- Drops blanks and comments in front.  A comment goes from `#` to the end of its line. -/
def dropComments (inComment : Bool) : List Char → List Char
  | [] => []
  | c :: rest =>
    if inComment then dropComments (c != '\n') rest
    else if Text.isBlank c then dropComments false rest
    else if c = '#' then dropComments true rest
    else c :: rest

/-- Drops blanks and comments if they do not count. -/
def skip (blanks : Bool) (text : List Char) : List Char :=
  if blanks then dropComments false text else text

/-- The character that decides whether a hyphen in front of the text makes a range.  Where blanks
do not count, it is the first that is neither blank nor the mark of a comment. -/
def peek? (blanks : Bool) (text : List Char) : Option Char :=
  if blanks then
    match text.dropWhile Text.isBlank with
    | '#' :: rest => (rest.dropWhile Text.isBlank).head?
    | rest => rest.head?
  else text.head?

/-! ## Escapes -/

/-- Letters and angle brackets with a meaning behind a backslash. -/
def letterEscapes : List (Char × Pattern) := [
  ('a', .literal { char := '\x07' }), ('f', .literal { char := '\x0c' }),
  ('t', .literal { char := '\t' }), ('n', .literal { char := '\n' }),
  ('r', .literal { char := '\r' }), ('v', .literal { char := '\x0b' }),
  ('d', .shorthand false), ('s', .shorthand false), ('w', .shorthand false),
  ('D', .shorthand true), ('S', .shorthand true), ('W', .shorthand true),
  ('A', .anchor), ('z', .anchor),
  ('b', .wordBoundary), ('B', .wordBoundary), ('<', .wordBoundary), ('>', .wordBoundary)]

/-- Reads `n` hexadecimal digits. -/
def digits? (blanks : Bool) : Nat → List Char → Option (List Char × List Char)
  | 0, text => some ([], text)
  | n + 1, text =>
    match skip blanks text with
    | c :: rest => (digits? blanks n rest).map fun (digits, rest) => (c :: digits, rest)
    | [] => none

/-- Reads an escape behind its backslash: a code, a letter with a meaning, or an ASCII character
that is neither letter nor digit and stands for itself. -/
def escape? (blanks : Bool) : List Char → Option (Pattern × List Char)
  | [] => none
  | c :: rest =>
    match Text.Hex.codeLength? c with
    | some n => do
      let (digits, rest) ← digits? blanks n rest
      let char ← Text.Hex.ofCode? digits
      return (literal { char, isByte := c == 'x' }, rest)
    | none =>
      match letterEscapes.lookup c with
      | some pattern => some (pattern, rest)
      | none =>
        if c.toNat < 0x80 ∧ !c.isAlphanum then some (literal { char := c }, rest) else none

/-! ## Classes -/

def setNames : List String := [
  "alnum", "alpha", "ascii", "blank", "cntrl", "digit", "graph", "lower", "print", "punct",
  "space", "upper", "word", "xdigit"]

/-- Reads a circumflex, which negates a class. -/
def negation (text : List Char) : Bool × List Char :=
  match text with
  | '^' :: rest => (true, rest)
  | _ => (false, text)

/-- Reads a class with a name behind its opening bracket. -/
def named? : List Char → Option (CharSet × List Char)
  | ':' :: rest =>
    let (negated, rest) := negation rest
    let name := rest.takeWhile (· != ':')
    match rest.drop name.length with
    | ':' :: ']' :: rest =>
      if setNames.contains (String.ofList name) then some (.named negated, rest) else none
    | _ => none
  | _ => none

/-- Reads a character or a shorthand in a class. -/
def setItem? (blanks : Bool) : List Char → Option (CharSet × List Char)
  | [] => none
  | '\\' :: rest =>
    match escape? blanks rest with
    | some (.literal l, rest) => some (.literal l, rest)
    | some (.shorthand negated, rest) => some (.shorthand negated, rest)
    | _ => none
  | c :: rest => some (.literal { char := c }, rest)

/-- Reads an item of a class, or a range between two characters. -/
def setRange? (blanks : Bool) (text : List Char) : Option (CharSet × List Char) := do
  let (first, rest) ← setItem? blanks text
  match skip blanks rest with
  | '-' :: rest =>
    if peek? blanks rest = some ']' ∨ peek? blanks rest = some '-' then some (first, '-' :: rest)
    else
      let (last, rest) ← setItem? blanks (skip blanks rest)
      match first, last with
      | .literal first, .literal last =>
        if first.char ≤ last.char then some (.range first last, rest) else none
      | _, _ => none
  | rest => some (first, rest)

/-- Whether a character makes an operator between sets if it stands twice. -/
def isOperator (c : Char) : Bool := c == '&' || c == '-' || c == '~'

/-- The set of the items behind the last operator, joined to what stands in front of it. -/
def joinedSet (left : Option CharSet) (items : List CharSet) : CharSet :=
  match left with
  | none => joined .union items.reverse
  | some left => .combined left (joined .union items.reverse)

/-- Reads a class up to its closing bracket.  `leading` tells that nothing but hyphens came before:
there a hyphen, and a closing bracket in first place, stand for themselves.  `left` is what stands
in front of the last operator, and `items` are those behind it in reverse.  `fuel` bounds the number
of items and nested classes. -/
def setBody? (blanks : Bool) : Nat → Bool → Option CharSet → List CharSet → List Char →
    Option (CharSet × List Char)
  | 0, _, _, _, _ => none
  | fuel + 1, leading, left, items, text =>
    match skip blanks text with
    | [] => none
    | c :: rest =>
      if leading ∧ c = '-' then
        setBody? blanks fuel true left (.literal { char := c } :: items) rest
      else if leading ∧ c = ']' ∧ items.isEmpty then
        setBody? blanks fuel false left [.literal { char := c }] rest
      else if c = ']' then some (joinedSet left items, rest)
      else if isOperator c ∧ rest.head? = some c then
        setBody? blanks fuel false (some (joinedSet left items)) [] (rest.drop 1)
      else if c = '[' then
        match named? rest with
        | some (item, rest) => setBody? blanks fuel false left (item :: items) rest
        | none => do
          let (negated, rest) := negation (skip blanks rest)
          let (body, rest) ← setBody? blanks fuel true none [] rest
          setBody? blanks fuel false left (.bracketed negated body :: items) rest
      else do
        let (item, rest) ← setRange? blanks (c :: rest)
        setBody? blanks fuel false left (item :: items) rest

/-- Reads a class behind its opening bracket. -/
def set? (blanks : Bool) (text : List Char) : Option (Pattern × List Char) := do
  let (negated, rest) := negation (skip blanks text)
  let (body, rest) ← setBody? blanks (rest.length + 1) true none [] rest
  return (set (.bracketed negated body), rest)

/-! ## Groups -/

def Flag.ofLetter? : Char → Option Flag
  | 'i' => some ignoreCase
  | 'm' => some multiLine
  | 's' => some dotBreaks
  | 'U' => some swapGreed
  | 'u' => some unicode
  | 'R' => some carriageReturns
  | 'x' => some ignoreBlanks
  | _ => none

/-- The change that letters stand for.  Those behind a hyphen turn their flag off; no flag may
occur twice, and a hyphen may not be the last character. -/
def FlagChange.ofLetters? (letters : List Char) : Option FlagChange := do
  let on := letters.takeWhile (· != '-')
  let off := letters.drop on.length
  if off = ['-'] then none
  let change : FlagChange := {
    on := ← on.mapM Flag.ofLetter?
    off := ← (off.drop 1).mapM Flag.ofLetter? }
  if (change.on ++ change.off).Nodup then some change else none

/-- Whether a character may stand in the name of a group. -/
def isNameChar (c : Char) : Bool :=
  c == '_' || c == '.' || c == '[' || c == ']' || Text.isAlphanumeric c

/-- Reads the name of a group up to its closing angle bracket. -/
def groupName? (text : List Char) : Option (List Char × List Char) :=
  let name := text.takeWhile (· != '>')
  match name, text.drop name.length with
  | c :: cs, _ :: rest =>
    if (c == '_' || Text.isAlphabetic c) && cs.all isNameChar then some (name, rest) else none
  | _, _ => none

/-- What an opening parenthesis begins. -/
inductive Opening where
  | flags (change : FlagChange)
  | group (change : FlagChange) (name : Option (List Char))

/-- Reads what decides about an opening parenthesis, behind it.  Flags without a group may not be
empty. -/
def opening? (text : List Char) : Option (Opening × List Char) :=
  match text with
  | '?' :: 'P' :: '<' :: rest | '?' :: '<' :: rest =>
    (groupName? rest).map fun (name, rest) => (.group {} name, rest)
  | '?' :: rest => do
    let letters := rest.takeWhile fun c => c != ':' && c != ')'
    let change ← FlagChange.ofLetters? letters
    match rest.drop letters.length with
    | ':' :: rest => some (.group change none, rest)
    | ')' :: rest => if letters.isEmpty then none else some (.flags change, rest)
    | _ => none
  | _ => some (.group {} none, text)

/-! ## Patterns -/

/-- What has been read so far, and what is left. -/
structure Cursor where
  /-- Whether blanks and comments are dropped. -/
  blanks : Bool := false
  /-- The names of the groups so far. -/
  names : List (List Char) := []
  rest : List Char

/-- The pattern of branches and of the items of the last one, both in reverse. -/
def joinedBranches (branches : List Pattern) (items : List Pattern) : Pattern :=
  joined choice (joined sequence items.reverse :: branches).reverse

/-- Reads one character, escape or class. -/
def single? (blanks : Bool) (c : Char) (rest : List Char) : Option (Pattern × List Char) :=
  match c with
  | '[' => set? blanks rest
  | '\\' => escape? blanks rest
  | '\x7b' => none
  | '.' => some (dot, rest)
  | '^' | '$' => some (anchor, rest)
  | c => some (literal { char := c }, rest)

def isRepetition (c : Char) : Bool := c == '?' || c == '*' || c == '+'

/-- Drops the mark behind a repetition that makes it prefer few rounds. -/
def dropLazy : List Char → List Char
  | '?' :: rest => rest
  | text => text

/-- Reads branches up to a closing parenthesis or the end.  `branches` are those before, and
`items` the parts of the current one, in reverse.  A repetition needs a part in front of it that is
not a change of flags; no two groups have one name.  `fuel` bounds the number of parts. -/
def branches? : Nat → List Pattern → List Pattern → Cursor → Option (Pattern × Cursor)
  | 0, _, _, _ => none
  | fuel + 1, branches, items, cursor =>
    match skip cursor.blanks cursor.rest with
    | [] => some (joinedBranches branches items, { cursor with rest := [] })
    | ')' :: rest => some (joinedBranches branches items, { cursor with rest := ')' :: rest })
    | '|' :: rest =>
      branches? fuel (joined sequence items.reverse :: branches) [] { cursor with rest }
    | '(' :: rest =>
      match opening? (skip cursor.blanks rest) with
      | none => none
      | some (.flags change, rest) =>
        let blanks := change.apply .ignoreBlanks cursor.blanks
        branches? fuel branches (flags change :: items) { cursor with blanks, rest }
      | some (.group change name, rest) => do
        if name.any cursor.names.contains then none
        let (body, inner) ← branches? fuel [] [] {
          blanks := change.apply .ignoreBlanks cursor.blanks
          names := name.toList ++ cursor.names
          rest }
        match inner.rest with
        | ')' :: rest =>
          branches? fuel branches (group change body :: items)
            { inner with blanks := cursor.blanks, rest }
        | _ => none
    | c :: rest =>
      if isRepetition c then
        match items with
        | [] | flags _ :: _ => none
        | item :: items =>
          branches? fuel branches (repeated item :: items) { cursor with rest := dropLazy rest }
      else do
        let (item, rest) ← single? cursor.blanks c rest
        branches? fuel branches (item :: items) { cursor with rest }

/-- Reads a pattern. -/
def ofText? (text : List Char) : Option Pattern :=
  match branches? (text.length + 1) [] [] { rest := text } with
  | some (pattern, { rest := [], .. }) => some pattern
  | _ => none

end CellAbi.Pattern
