import CellAbi.Address.Basic
import CellAbi.Text.Hex
import CellAbi.Text.Numeral

/-!
# Text forms of addresses

A standard address is written raw, `workchain:hash` with the hash in hexadecimal.  An external
address is written compact: a colon and the hexadecimal digits of its bits.  Where the bits do not
end on a digit, a set bit and zeros fill the last digit and an underscore follows.  The external
address of no bits is the empty text.
-/

namespace CellAbi

namespace StandardAddress

/-- The raw form. -/
def toRaw (a : StandardAddress) : String :=
  toString a.workchain.toInt ++ ":" ++ Text.Hex.encode a.hash.bytes

/-- The parts before and after the first colon. -/
def splitColon? : List Char → Option (List Char × List Char)
  | [] => none
  | c :: rest =>
    if c = ':' then some ([], rest)
    else (splitColon? rest).map fun (front, back) => (c :: front, back)

/-- A workchain number: a decimal with an optional sign that fits 32 bits. -/
def workchain? (text : List Char) : Option Int32 :=
  (Text.integer? text).bind fun i =>
    if -2 ^ 31 ≤ i ∧ i < 2 ^ 31 then some (Int32.ofInt i) else none

def ofRawChars? (text : List Char) : Option StandardAddress := do
  let (front, back) ← splitColon? text
  let workchain ← workchain? front
  let bytes ← (Text.Hex.decodeChars back).toOption
  let hash ← Digest.ofBytes? bytes
  return ⟨workchain, hash⟩

def ofRaw (text : String) : Except AddressError StandardAddress :=
  match ofRawChars? text.toList with
  | some a => .ok a
  | none => .error (.invalidRaw text)

end StandardAddress

namespace ExternalAddress

/-- The hexadecimal digit of value `d`, in upper case. -/
def digit (d : Nat) : Char := d.digitChar.toUpper

/-- `value` in exactly `count` digits. -/
def digits (count value : Nat) : List Char :=
  (List.range count).reverse.map fun i => digit (value / 16 ^ i % 16)

def toCompactChars (a : ExternalAddress) : List Char :=
  if a.bits = 0 then []
  else if a.bits % 4 = 0 then ':' :: digits (a.bits / 4) a.value
  else
    let fill := 4 - a.bits % 4
    ':' :: digits ((a.bits + fill) / 4) (a.value * 2 ^ fill + 2 ^ (fill - 1)) ++ ['_']

/-- The compact form. -/
def toCompact (a : ExternalAddress) : String := String.ofList a.toCompactChars

/-- The number that hexadecimal digits spell. -/
def valueOfDigits? (text : List Char) : Option Nat :=
  text.foldl (fun n c => do return 16 * (← n) + (← Text.Hex.digitValue? c)) (some 0)

/-- Number of clear bits below the lowest set bit, for a positive number. -/
def trailingZeros (n : Nat) : Nat :=
  if h : n = 0 then 0 else if n % 2 = 1 then 0 else trailingZeros (n / 2) + 1
termination_by n
decreasing_by omega

/-- Splits a marking underscore off the end. -/
def splitMark (text : List Char) : List Char × Bool :=
  if text.getLast? = some '_' then (text.dropLast, true) else (text, false)

/-- Reads the digits behind the colon; `marked` tells whether an underscore followed them. -/
def ofDigits (text : String) (digits : List Char) (marked : Bool) :
    Except AddressError ExternalAddress :=
  if digits = [] then if marked then .error (.invalidExternal text) else .ok none
  else
    match valueOfDigits? digits with
    | Option.none => .error (.invalidExternal text)
    | some value =>
      if !marked then new value (digits.length * 4)
      else if value = 0 then .error (.invalidExternal text)
      else
        let strip := trailingZeros value + 1
        new (value / 2 ^ strip) (digits.length * 4 - strip)

/-- Reads the compact form. -/
def ofCompact (text : String) : Except AddressError ExternalAddress :=
  match text.toList with
  | [] => .ok none
  | ':' :: body =>
    let (digits, marked) := splitMark body
    ofDigits text digits marked
  | _ => .error (.invalidExternal text)

end ExternalAddress

namespace Address

/-- The raw or the compact form. -/
def toText : Address → String
  | standard a => a.toRaw
  | external a => a.toCompact

/-- Reads either form: compact if the text is empty or starts with a colon. -/
def ofText (text : String) : Except AddressError Address :=
  match text.toList with
  | [] | ':' :: _ => (ExternalAddress.ofCompact text).map external
  | _ => (StandardAddress.ofRaw text).map standard

end Address

end CellAbi
