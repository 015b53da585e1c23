import CellAbi.Json.Basic

/-!
# Printing JSON

The compact form: no blanks, members in order of their names.  In strings only the quote, the
backslash and control characters are escaped.  Doubles are written with the fewest digits that read
back, positionally from `1e-5` up to `1e16`.
-/

namespace CellAbi

/-! ## Numbers -/

/-- Exponents, in scientific notation, of the doubles that are written positionally. -/
def Binary64.positionalExponents : Int × Int := (-5, 15)

/-- A double; it always shows a fraction or an exponent. -/
def Binary64.toText (x : Binary64) : String :=
  let sign := if x.negative then "-" else ""
  if x.isZero then sign ++ "0.0"
  else
    let (number, place) := x.shortest
    let digits := Nat.toDigits 10 number
    let exponent := place + digits.length - 1
    let text :=
      if exponent < positionalExponents.1 ∨ positionalExponents.2 < exponent then
        let mark := if exponent < 0 then "e-" else "e+"
        let fraction := if digits.length = 1 then [] else '.' :: digits.drop 1
        String.ofList (digits.take 1 ++ fraction) ++ mark ++ toString exponent.natAbs
      else if place ≥ 0 then
        String.ofList (digits ++ List.replicate place.toNat '0') ++ ".0"
      else if exponent ≥ 0 then
        String.ofList (digits.take (exponent.toNat + 1) ++ '.' :: digits.drop (exponent.toNat + 1))
      else String.ofList ('0' :: '.' :: List.replicate (-exponent - 1).toNat '0' ++ digits)
    sign ++ text

def JsonNumber.toText : JsonNumber → String
  | integer value => toString value
  | double value => value.toText

/-! ## Strings -/

/-- The form of a character inside a string. -/
def Json.escape (c : Char) : List Char :=
  if c = '"' ∨ c = '\\' then ['\\', c]
  else if c = '\x08' then ['\\', 'b']
  else if c = '\x0c' then ['\\', 'f']
  else if c = '\n' then ['\\', 'n']
  else if c = '\r' then ['\\', 'r']
  else if c = '\t' then ['\\', 't']
  else if c.toNat < 0x20 then
    ['\\', 'u', '0', '0', (c.toNat / 16).digitChar, (c.toNat % 16).digitChar]
  else [c]

def Json.quote (text : String) : String :=
  String.ofList ('"' :: text.toList.flatMap escape ++ ['"'])

/-! ## Values -/

namespace Json

mutual

/-- The compact text of a value. -/
def compact : Json → String
  | null => "null"
  | bool value => if value then "true" else "false"
  | number value => value.toText
  | string text => quote text
  | array items => "[" ++ compactItems items ++ "]"
  | object members => "\x7b" ++ compactMembers members ++ "\x7d"

def compactItems : List Json → String
  | [] => ""
  | [item] => compact item
  | item :: rest => compact item ++ "," ++ compactItems rest

def compactMembers : List (String × Json) → String
  | [] => ""
  | [(name, value)] => quote name ++ ":" ++ compact value
  | (name, value) :: rest => quote name ++ ":" ++ compact value ++ "," ++ compactMembers rest

end

end Json

end CellAbi
