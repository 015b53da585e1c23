/-!
# Decimal numerals

Reading of decimal digits, alone and with a sign, and the texts of numbers with a fraction and an
exponent.  Numbers are written as `toString` writes them.
-/

namespace CellAbi.Text

/-- A non-empty run of decimal digits. -/
def natural? (text : List Char) : Option Nat :=
  if text ≠ [] ∧ text.all Char.isDigit then some (Nat.ofDigitChars 10 text 0) else none

/-- Decimal digits behind at most one sign. -/
def integer? (text : List Char) : Option Int :=
  match text with
  | '-' :: digits => (natural? digits).map fun n => -(n : Int)
  | '+' :: digits => (natural? digits).map Int.ofNat
  | digits => (natural? digits).map Int.ofNat

/-- Digits with at most one point, at least one digit among them. -/
def isDecimal (text : List Char) : Bool :=
  match text.dropWhile Char.isDigit with
  | [] => !text.isEmpty
  | '.' :: fraction => fraction.all Char.isDigit && text.any Char.isDigit
  | _ => false

/-- A decimal with an optional exponent behind `e` or `E`. -/
def isScientific (text : List Char) : Bool :=
  let mantissa := text.takeWhile fun c => c != 'e' && c != 'E'
  isDecimal mantissa &&
    match text.drop mantissa.length with
    | [] => true
    | _ :: exponent => (integer? exponent).isSome

theorem natural?_toDigits (n : Nat) : natural? (Nat.toDigits 10 n) = some n := by
  rw [natural?, if_pos, Nat.ofDigitChars_ten_toDigits]
  refine ⟨Nat.toDigits_ne_nil, List.all_eq_true.2 fun c hc => ?_⟩
  exact Nat.isDigit_of_mem_toDigits (by decide) (by decide) hc

end CellAbi.Text
