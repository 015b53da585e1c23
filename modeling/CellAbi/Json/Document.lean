import CellAbi.Json.Basic
import CellAbi.Text.Hex

/-!
# JSON documents

A document is a JSON text read by its grammar alone.  Members keep their order and may repeat a
name, nesting has no limit, and a number too large for a double or a string with an unpaired
surrogate is kept as a hole.  A reader that skips a part of a document never looks into its holes;
the JSON value of a document has none.
-/

namespace CellAbi

inductive Document where
  | null
  | bool (value : Bool)
  | number (value : Option JsonNumber)
  | string (text : Option String)
  | array (items : List Document)
  | object (members : List (Option String × Document))

namespace Document

instance : Inhabited Document := ⟨null⟩

/-! ## Numbers -/

/-- The first number that 64 bits cannot hold. -/
def wordLimit : Nat := 2 ^ 64

def digitValue (c : Char) : Nat := c.toNat - 48

/-- Appends integer digits to a significand of 64 bits.  From the first digit that does not fit,
digits only raise the exponent. -/
def integerDigits (significand : Nat) : List Char → Nat × Option Nat
  | [] => (significand, none)
  | c :: rest =>
    if significand * 10 + digitValue c < wordLimit then
      integerDigits (significand * 10 + digitValue c) rest
    else (significand, some (rest.length + 1))

/-- Appends fraction digits to a significand of 64 bits.  The first digit that does not fit and all
behind it are dropped. -/
def fractionDigits (significand : Nat) (exponent : Int) : List Char → Nat × Int
  | [] => (significand, exponent)
  | c :: rest =>
    if significand * 10 + digitValue c < wordLimit then
      fractionDigits (significand * 10 + digitValue c) (exponent - 1) rest
    else (significand, exponent)

/-- The largest exponent that is counted. -/
def maxExponent : Nat := 2 ^ 31 - 1

/-- A number by its parts: sign, integer digits, fraction digits, sign and digits of the exponent.
None if it is too large for a double. -/
def numberOfParts (negative : Bool) (integer : List Char) (fraction : Option (List Char))
    (exponent : Option (Bool × List Char)) : Option JsonNumber :=
  let double (x : Option Binary64) : Option JsonNumber :=
    x.map fun x => .double (if negative then x.negate else x)
  let (significand, dropped) := integerDigits 0 integer
  match fraction, exponent, dropped with
  | none, none, none =>
    if !negative then some (.integer significand)
    else if significand = 0 ∨ significand > 2 ^ 63 then double (Binary64.nearest? significand 1)
    else some (.integer (-(significand : Int)))
  | _, _, _ =>
    let (significand, place) :=
      fractionDigits significand (dropped.getD 0 : Nat) (fraction.getD [])
    match exponent with
    | none => double (Binary64.ofDecimal? significand place)
    | some (down, digits) =>
      let size := Nat.ofDigitChars 10 digits 0
      if size > maxExponent then
        if significand ≠ 0 ∧ !down then none else double (some .zero)
      else double (Binary64.ofDecimal? significand (if down then place - size else place + size))

/-- Splits a non-empty run of digits off. -/
def digits? (text : List Char) : Option (List Char × List Char) :=
  match text.takeWhile Char.isDigit with
  | [] => none
  | ds => some (ds, text.dropWhile Char.isDigit)

/-- Splits the fraction off, if there is one. -/
def fraction? : List Char → Option (Option (List Char) × List Char)
  | '.' :: rest => (digits? rest).map fun (ds, rest) => (some ds, rest)
  | rest => some (none, rest)

/-- Splits the exponent off, if there is one. -/
def exponent? : List Char → Option (Option (Bool × List Char) × List Char)
  | c :: rest =>
    if c = 'e' ∨ c = 'E' then
      let (down, rest) := match rest with
        | '+' :: rest => (false, rest)
        | '-' :: rest => (true, rest)
        | rest => (false, rest)
      (digits? rest).map fun (ds, rest) => (some (down, ds), rest)
    else some (none, c :: rest)
  | [] => some (none, [])

/-- Reads an unsigned number.  Zero has no digit behind it. -/
def unsigned? (negative : Bool) (text : List Char) : Option (Document × List Char) := do
  let (integer, rest) ← digits? text
  if integer.head? = some '0' ∧ integer.length > 1 then none
  let (fraction, rest) ← fraction? rest
  let (exponent, rest) ← exponent? rest
  return (.number (numberOfParts negative integer fraction exponent), rest)

/-! ## Strings -/

/-- A part of a string: a character, or a UTF-16 code unit given by its number. -/
inductive Piece where
  | char (c : Char)
  | unit (code : Nat)

def hexUnit? (a b c d : Char) : Option Nat :=
  [a, b, c, d].foldlM (fun code c => (Text.Hex.digitValue? c).map (16 * code + ·)) 0

/-- The character of a one-letter escape. -/
def shortEscape? : Char → Option Char
  | '"' => some '"'
  | '\\' => some '\\'
  | '/' => some '/'
  | 'b' => some '\x08'
  | 'f' => some '\x0c'
  | 'n' => some '\n'
  | 'r' => some '\r'
  | 't' => some '\t'
  | _ => none

/-- Reads the parts of a string up to its closing quote. -/
def pieces? : List Char → Option (List Piece × List Char)
  | [] => none
  | '"' :: rest => some ([], rest)
  | '\\' :: 'u' :: a :: b :: c :: d :: rest =>
    match hexUnit? a b c d, pieces? rest with
    | some code, some (ps, rest) => some (.unit code :: ps, rest)
    | _, _ => none
  | '\\' :: e :: rest =>
    match shortEscape? e, pieces? rest with
    | some c, some (ps, rest) => some (.char c :: ps, rest)
    | _, _ => none
  | c :: rest =>
    if c.toNat < 0x20 ∨ c = '\\' then none
    else (pieces? rest).map fun (ps, rest) => (.char c :: ps, rest)

def isHighSurrogate (code : Nat) : Bool := 0xD800 ≤ code && code < 0xDC00

def isLowSurrogate (code : Nat) : Bool := 0xDC00 ≤ code && code < 0xE000

/-- Joins pairs of surrogates; none if one is left alone. -/
def joinPieces? : List Piece → Option (List Char)
  | [] => some []
  | .char c :: rest => (joinPieces? rest).map (c :: ·)
  | .unit high :: .unit low :: rest =>
    if isHighSurrogate high then
      if isLowSurrogate low then
        (joinPieces? rest).map
          (Char.ofNat (0x10000 + (high - 0xD800) * 0x400 + (low - 0xDC00)) :: ·)
      else none
    else if isLowSurrogate high then none
    else (joinPieces? (.unit low :: rest)).map (Char.ofNat high :: ·)
  | .unit code :: rest =>
    if isHighSurrogate code || isLowSurrogate code then none
    else (joinPieces? rest).map (Char.ofNat code :: ·)

/-- Reads a string behind its opening quote. -/
def string? (text : List Char) : Option (Option String × List Char) :=
  (pieces? text).map fun (ps, rest) => ((joinPieces? ps).map String.ofList, rest)

/-! ## Values -/

def skipBlanks (text : List Char) : List Char :=
  text.dropWhile fun c => c == ' ' || c == '\n' || c == '\r' || c == '\t'

mutual

/-- Reads one value.  `fuel` bounds the number of nested and following parts. -/
def value? : Nat → List Char → Option (Document × List Char)
  | 0, _ => none
  | fuel + 1, text =>
    match skipBlanks text with
    | 'n' :: 'u' :: 'l' :: 'l' :: rest => some (.null, rest)
    | 't' :: 'r' :: 'u' :: 'e' :: rest => some (.bool true, rest)
    | 'f' :: 'a' :: 'l' :: 's' :: 'e' :: rest => some (.bool false, rest)
    | '"' :: rest => (string? rest).map fun (s, rest) => (.string s, rest)
    | '[' :: rest =>
      match skipBlanks rest with
      | ']' :: rest => some (.array [], rest)
      | rest => (items? fuel rest).map fun (items, rest) => (.array items, rest)
    | '\x7b' :: rest =>
      match skipBlanks rest with
      | '\x7d' :: rest => some (.object [], rest)
      | rest => (members? fuel rest).map fun (members, rest) => (.object members, rest)
    | '-' :: rest => unsigned? true rest
    | rest => unsigned? false rest

/-- Reads the items of an array up to its closing bracket. -/
def items? : Nat → List Char → Option (List Document × List Char)
  | 0, _ => none
  | fuel + 1, text =>
    match value? fuel text with
    | none => none
    | some (item, rest) =>
      match skipBlanks rest with
      | ']' :: rest => some ([item], rest)
      | ',' :: rest => (items? fuel rest).map fun (items, rest) => (item :: items, rest)
      | _ => none

/-- Reads the members of an object up to its closing brace. -/
def members? : Nat → List Char → Option (List (Option String × Document) × List Char)
  | 0, _ => none
  | fuel + 1, text =>
    match skipBlanks text with
    | '"' :: rest =>
      match string? rest with
      | none => none
      | some (name, rest) =>
        match skipBlanks rest with
        | ':' :: rest =>
          match value? fuel rest with
          | none => none
          | some (value, rest) =>
            match skipBlanks rest with
            | '\x7d' :: rest => some ([(name, value)], rest)
            | ',' :: rest =>
              (members? fuel rest).map fun (members, rest) => ((name, value) :: members, rest)
            | _ => none
        | _ => none
    | _ => none

end

/-- Reads a whole text. -/
def parse? (text : String) : Option Document :=
  let chars := text.toList
  match value? (chars.length + 1) chars with
  | some (d, rest) => if skipBlanks rest = [] then some d else none
  | none => none

/-! ## The JSON value of a document -/

/-- Nesting up to which arrays and objects are read; one level more is an error. -/
def maxNesting : Nat := 127

mutual

/-- The value of a document, which may nest `levels` deep; none if it has a hole. -/
def toJson? (levels : Nat) : Document → Option Json
  | null => some .null
  | bool value => some (.bool value)
  | number value => value.map .number
  | string text => text.map .string
  | array items =>
    match levels with
    | 0 => none
    | levels + 1 => (itemsToJson? levels items).map .array
  | object members =>
    match levels with
    | 0 => none
    | levels + 1 => (membersToJson? levels members).map .ofMembers

def itemsToJson? (levels : Nat) : List Document → Option (List Json)
  | [] => some []
  | item :: rest => do return (← toJson? levels item) :: (← itemsToJson? levels rest)

def membersToJson? (levels : Nat) :
    List (Option String × Document) → Option (List (String × Json))
  | [] => some []
  | (name, value) :: rest => do
    return (← name, ← toJson? levels value) :: (← membersToJson? levels rest)

end

end Document

/-- Reads a JSON text. -/
def Json.parse? (text : String) : Option Json :=
  (Document.parse? text).bind (·.toJson? Document.maxNesting)

end CellAbi
