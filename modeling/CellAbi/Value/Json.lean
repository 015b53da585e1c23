import CellAbi.Value.Basic
import CellAbi.Address.Text
import CellAbi.Cell.Bag

/-!
# JSON form of values

Integers are decimal strings, byte strings lower-case hexadecimal, cells bags in base64, addresses
their text.  Maps and tuples are objects; the keys of a map are written as text.  Reading is
directed by a type and takes more spellings than are written.
-/

namespace CellAbi

namespace Value

/-! ## Writing -/

/-- The text of a map key. -/
def keyText : Value → Except AbiError String
  | int i => .ok (toString i)
  | bool b => .ok (if b then "true" else "false")
  | string s => .ok s
  | bytes b => .ok (Text.Hex.encode b)
  | address a => .ok a.toText
  | other => .error (.unsupportedMapKey other.kind)

mutual

/-- The JSON form of a value.  Of map entries with one text the last counts. -/
def toJson : Value → Except AbiError Json
  | null => .ok .null
  | int i => .ok (.string (toString i))
  | bool b => .ok (.bool b)
  | string s => .ok (.string s)
  | bytes b => .ok (.string (Text.Hex.encode b))
  | cell c => .ok (.string c.toBase64)
  | address a => .ok (.string a.toText)
  | array items => do return .array (← itemsToJson items)
  | map entries => do return .ofMembers (← entriesToJson entries)
  | tuple fields => do return .ofMembers (← fieldsToJson fields)

def itemsToJson : List Value → Except AbiError (List Json)
  | [] => .ok []
  | item :: rest => do return (← toJson item) :: (← itemsToJson rest)

def entriesToJson : List (Value × Value) → Except AbiError (List (String × Json))
  | [] => .ok []
  | (k, v) :: rest => do return (← keyText k, ← toJson v) :: (← entriesToJson rest)

def fieldsToJson : List (String × Value) → Except AbiError (List (String × Json))
  | [] => .ok []
  | (name, v) :: rest => do return (name, ← toJson v) :: (← fieldsToJson rest)

end

/-! ## Reading integers -/

/-- The value of a digit or letter. -/
def digitValue? (c : Char) : Option Nat :=
  if '0' ≤ c ∧ c ≤ '9' then some (c.toNat - 48)
  else if 'a' ≤ c ∧ c ≤ 'z' then some (c.toNat - 87)
  else if 'A' ≤ c ∧ c ≤ 'Z' then some (c.toNat - 55)
  else none

/-- Appends the digits of a text to a number; underscores are passed over. -/
def appendDigits (base : Nat) (n : Nat) : List Char → Except IntegerTextError Nat
  | [] => .ok n
  | '_' :: rest => appendDigits base n rest
  | c :: rest =>
    match digitValue? c with
    | some d => if d < base then appendDigits base (base * n + d) rest else .error .invalidDigit
    | none => .error .invalidDigit

/-- Reads digits; the first is no underscore. -/
def magnitude (base : Nat) (text : List Char) : Except IntegerTextError Nat :=
  match text with
  | [] => .error .empty
  | '_' :: _ => .error .invalidDigit
  | text => appendDigits base 0 text

/-- Reads digits behind one optional plus. -/
def plusMagnitude (base : Nat) (text : List Char) : Except IntegerTextError Nat :=
  match text with
  | '+' :: '+' :: rest => magnitude base ('+' :: '+' :: rest)
  | '+' :: rest => magnitude base rest
  | text => magnitude base text

/-- Reads digits behind one optional sign. -/
def signedMagnitude (base : Nat) (text : List Char) : Except IntegerTextError Int :=
  match text with
  | '-' :: '+' :: rest => (plusMagnitude base ('-' :: '+' :: rest)).map fun n => -(n : Int)
  | '-' :: rest => (plusMagnitude base rest).map fun n => -(n : Int)
  | text => (plusMagnitude base text).map Int.ofNat

/-- Reads an integer text without blanks around it: an optional minus, then hexadecimal digits
behind `0x` or decimal digits, which may have a sign of their own. -/
def integerOfText (text : List Char) : Except IntegerTextError Int :=
  let (negative, rest) := match text with
    | '-' :: rest => (true, rest)
    | rest => (false, rest)
  let value := match rest with
    | '0' :: 'x' :: rest | '0' :: 'X' :: rest => signedMagnitude 16 rest
    | rest => signedMagnitude 10 rest
  value.map fun i => if negative then -i else i

/-- An integer given as a number or as a text. -/
def integerOfJson (type : AbiType) (json : Json) : Except AbiError Int :=
  match json with
  | .number (.integer i) => .ok i
  | .number n => .error (.invalidJson type (.notInteger n))
  | .string s =>
    (integerOfText (Text.trim s.toList)).mapError fun e => .invalidJson type (.integerText s e)
  | other => .error (.invalidJson type (.wrongKind "an integer" other))

/-! ## Reading values -/

def stringOfJson (type : AbiType) : Json → Except AbiError String
  | .string s => .ok s
  | other => .error (.invalidJson type (.wrongKind "a string" other))

def boolOfJson (json : Json) : Except AbiError Bool :=
  match json with
  | .bool b => .ok b
  | .string "true" => .ok true
  | .string "false" => .ok false
  | other => .error (.invalidJson .bool (.wrongKind "a boolean" other))

def bytesOfJson (length : Option Nat) (json : Json) : Except AbiError (List UInt8) := do
  let type := AbiType.bytes length
  let text ← stringOfJson type json
  let bytes ← (Text.Hex.decode text).mapError fun e => .invalidJson type (.hex e)
  match length with
  | some n =>
    if bytes.length ≠ n then throw (.invalidJson type (.byteCount n bytes.length))
  | none => pure ()
  return bytes

def addressOfJson (strict : Bool) (json : Json) : Except AbiError Value :=
  if json.isNull then .ok null
  else do
    let text ← stringOfJson (.address strict) json
    let a := if strict then (StandardAddress.ofRaw text).map .standard else Address.ofText text
    return address (← a.mapError .address)

mutual

/-- Reads a JSON value as a value of a type. -/
def ofJson : AbiType → Json → Except AbiError Value
  | .optional _, .null => .ok null
  | .optional inner, json => ofJson inner json
  | .integer signed width, json => do
    let i ← integerOfJson (.integer signed width) json
    AbiType.checkInteger (.integer signed width) i
    return int i
  | .bool, json => (boolOfJson json).map bool
  | .string, json => (stringOfJson .string json).map string
  | .bytes length, json => (bytesOfJson length json).map bytes
  | .cell, json => do
    let text ← stringOfJson .cell json
    return cell (← (Cell.ofBase64 text).mapError .cell)
  | .address strict, json => addressOfJson strict json
  | .array element, .array items => (items.mapM (ofJson element)).map array
  | .array element, other =>
    .error (.invalidJson (.array element) (.wrongKind "an array" other))
  | .map keyType valueType, .object members =>
    (members.mapM fun (name, json) => do
      return (← ofJson keyType (.string name), ← ofJson valueType json)).map map
  | .map keyType valueType, other =>
    .error (.invalidJson (.map keyType valueType) (.wrongKind "an object" other))
  | .tuple components, .object members => do
    return tuple (Sorted.ofList (← fieldsOfJson (.tuple components) components members))
  | .tuple components, other =>
    .error (.invalidJson (.tuple components) (.wrongKind "an object" other))

/-- Reads the members that the components of the tuple name, in their order. -/
def fieldsOfJson (tuple : AbiType) : List (String × AbiType) → List (String × Json) →
    Except AbiError (List (String × Value))
  | [], _ => .ok []
  | (name, type) :: rest, members => do
    match Sorted.lookup name members with
    | none => throw (.invalidJson tuple (.missingField name))
    | some json => return (name, ← ofJson type json) :: (← fieldsOfJson tuple rest members)

end

end Value

end CellAbi
