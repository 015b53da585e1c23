import CellAbi.Native.Type

/-!
# Reading the texts of native types

Reads the text of a native type.  Blanks are passed over, `&str` is another word for `String`, and
tuples may drop the comma behind their last component.
-/

namespace CellAbi

/-- The type of keys whose values are those of a native type, if it has an order. -/
def NativeType.key? : NativeType → Option KeyType
  | integer => some .integer
  | byte => some .byte
  | bool => some .bool
  | text => some .text
  | address => some .address
  | standardAddress => some .standardAddress
  | option type => type.key?.map .option
  | list element => element.key?.map .list
  | _ => none

namespace NativeType

/-- The types that are a single word. -/
def words : List (String × NativeType) := [
  ("BigInt", integer), ("u8", byte), ("bool", bool), ("String", text), ("&str", text),
  ("Cell", cell), ("Address", address), ("StdAddress", standardAddress), ("Value", value)]

/-- A generic type applied to others. -/
def generic? : String → List NativeType → Option NativeType
  | "Option", [type] => some (option type)
  | "Vec", [element] => some (list element)
  | "BTreeMap", [key, type] => key.key?.map fun key => map key type
  | _, _ => none

/-- Whether a character may stand in a word. -/
def isWordChar (c : Char) : Bool := c.isAlphanum || c == '&'

mutual

/-- Reads one type of a text with at most `fuel` characters. -/
def read? : Nat → List Char → Option (NativeType × List Char)
  | 0, _ => none
  | fuel + 1, chars =>
    match chars with
    | '(' :: rest => (readAll? ')' fuel rest).map fun (types, rest) => (tuple types, rest)
    | chars =>
      let word := String.ofList (chars.takeWhile isWordChar)
      match chars.dropWhile isWordChar with
      | '<' :: rest => do
        let (types, rest) ← readAll? '>' fuel rest
        return (← generic? word types, rest)
      | rest => (words.lookup word).map fun type => (type, rest)

/-- Reads types with commas behind them, up to the closing character. -/
def readAll? (close : Char) : Nat → List Char → Option (List NativeType × List Char)
  | 0, _ => none
  | fuel + 1, chars =>
    match chars with
    | [] => none
    | c :: rest =>
      if c = close then some ([], rest)
      else do
        let (type, rest) ← read? fuel chars
        match rest with
        | ',' :: rest =>
          let (types, rest) ← readAll? close fuel rest
          return (type :: types, rest)
        | c :: rest => if c = close then some ([type], rest) else none
        | [] => none

end

/-- Reads the text of a native type. -/
def ofText? (text : String) : Option NativeType :=
  let chars := text.toList.filter (· != ' ')
  match read? (2 * chars.length + 1) chars with
  | some (type, []) => some type
  | _ => none

end NativeType

end CellAbi
