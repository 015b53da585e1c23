import CellAbi.Pattern.Support
import CellAbi.Pattern.Text
import CellAbi.Text.Numeral
import CellAbi.Text.Slice

/-!
# Log filters

A log filter is a list of directives with commas between them.  A directive is a level, a target,
or a target with a span in brackets, a field of the span in braces, and a level:
`target[span{field=value}]=level`.  All parts but the first character may be left out.

A directive is read without the blanks around it, and positions are counted from its first
character.  The parts are taken at these positions from the text with its blanks, so that blanks in
front shift a level or a value.
-/

namespace CellAbi.LogFilter

/-- Why a text is not a log filter. -/
inductive Fault where
  | malformed
  /-- The position of a part falls inside a character. -/
  | splitCharacter
deriving DecidableEq, Repr

/-! ## Levels and fields -/

/-- The words for levels, from the quietest. -/
def levelNames : List String := ["off", "error", "warn", "info", "debug", "trace"]

/-- The number of a level, with an optional plus. -/
def levelNumber? (text : List Char) : Option Nat :=
  match text with
  | '+' :: digits => Text.natural? digits
  | digits => Text.natural? digits

/-- A text in lower case, as far as it is ASCII. -/
def lower (text : List Char) : String := String.ofList (text.map Char.toLower)

/-- Whether a text names a level, by number or by word in any letter case.  An empty text admits
all events. -/
def isLevel (text : List Char) : Bool :=
  text.isEmpty || levelNames.contains (lower text) ||
    (levelNumber? text).any (· < levelNames.length)

/-- Whether a text is a number without a sign, infinity among them. -/
def isNumber (text : List Char) : Bool :=
  Text.isScientific text || ["inf", "infinity", "nan"].contains (lower text)

/-- Whether a field may be compared with a value: a number or a supported pattern.  Every number
without a plus is such a pattern. -/
def isValue (text : List Char) : Bool :=
  match text with
  | '+' :: number => isNumber number
  | _ => (Pattern.ofText? text).any Pattern.isSupported

/-- Whether a text is a field: a name, with an optional value behind an equals sign.  What a second
equals sign separates plays no part. -/
def isField (text : List Char) : Bool :=
  match text.dropWhile (· != '=') with
  | [] => !text.isEmpty
  | _ :: rest => isValue (rest.takeWhile (· != '='))

/-! ## Directives -/

/-- Where the reading of a directive stands.  A part remembers the position it starts at. -/
inductive Part where
  | start
  | name
  | span (first : Nat)
  | field (first : Nat)
  /-- Behind the closing brace. -/
  | afterField
  /-- Behind the closing bracket. -/
  | afterSpan
  | level (first : Nat)
deriving DecidableEq, Repr

/-- Whether a directive may start with the character. -/
def isStart (c : Char) : Bool := c == '-' || c == ':' || c == '_' || Text.isAlphanumeric c

/-- The text between two positions of a directive. -/
def part (text : List Char) (first last : Nat) : Except Fault (List Char) :=
  match Text.slice? first last text with
  | some part => .ok part
  | none => .error .splitCharacter

/-- Moves over the character `c` at the position `i`.  `text` has the blanks in front. -/
def Part.next (text : List Char) (i : Nat) (c : Char) : Part → Except Fault Part
  | .start =>
    if c = '[' then .ok (.span (i + 1))
    else if isStart c then .ok .name
    else .error .malformed
  | .name =>
    if c = '=' then (part text 0 i).map fun _ => .level (i + 1)
    else if c = '[' then (part text 0 i).map fun _ => .span (i + 1)
    else .ok .name
  | .span first =>
    if c = ']' then (part text first i).map fun _ => .afterSpan
    else if c = '\x7b' then (part text first i).map fun _ => .field (i + 1)
    else .ok (.span first)
  | .field first =>
    if c = '\x7d' then do
      if isField (← part text first i) then .ok .afterField else .error .malformed
    else .ok (.field first)
  | .afterField => if c = ']' then .ok .afterSpan else .error .malformed
  | .afterSpan => if c = '=' then .ok (.level (i + 1)) else .error .malformed
  | .level first => .ok (.level first)

/-- Moves over all characters from the position `i` on. -/
def Part.run (text : List Char) (part : Part) (i : Nat) : List Char → Except Fault Part
  | [] => .ok part
  | c :: rest => do (← part.next text i c).run text (i + c.utf8Size) rest

/-- Whether a directive may end where it does.  A level goes to the end of the text with its
blanks. -/
def Part.finish (text : List Char) : Part → Except Fault Unit
  | .name | .afterSpan => .ok ()
  | .level first => do
    if isLevel (← part text first (Text.byteLength text)) then .ok () else .error .malformed
  | _ => .error .malformed

def checkDirective (text : List Char) : Except Fault Unit := do
  (← Part.start.run text 0 (Text.trim text)).finish text

/-! ## Filters -/

/-- Checks the directives in their order.  Empty ones are passed over. -/
def check (text : String) : Except Fault Unit :=
  (text.splitOn ",").forM fun directive =>
    if directive.isEmpty then .ok () else checkDirective directive.toList

end CellAbi.LogFilter
