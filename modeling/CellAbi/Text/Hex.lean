import CellAbi.Text.Quoted

/-!
# Hexadecimal

Byte strings as pairs of hexadecimal digits, and the digits that write the code of a character.
Writing uses lower case; reading takes both cases.

    decode (encode bytes) = .ok bytes                                     (`decode_encode`)
-/

namespace CellAbi.Text.Hex

/-- The digit of value `d`, in lower case. -/
def digit (d : Nat) : Char := d.digitChar

/-- The value of a hexadecimal digit. -/
def digitValue? (c : Char) : Option Nat :=
  if '0' ≤ c ∧ c ≤ '9' then some (c.toNat - 48)
  else if 'a' ≤ c ∧ c ≤ 'f' then some (c.toNat - 87)
  else if 'A' ≤ c ∧ c ≤ 'F' then some (c.toNat - 55)
  else none

/-! ## Codes of characters -/

/-- The character whose code these digits write. -/
def ofCode? (digits : List Char) : Option Char := do
  let code ← digits.foldlM (fun code c => (digitValue? c).map (16 * code + ·)) 0
  if code.isValidChar then some (Char.ofNat code) else none

/-- Number of digits in the code behind an escape letter. -/
def codeLength? : Char → Option Nat
  | 'x' => some 2
  | 'u' => some 4
  | 'U' => some 8
  | _ => none

/-! ## Writing -/

def encodeByte (b : UInt8) : List Char := [digit (b.toNat / 16), digit (b.toNat % 16)]

def encodeChars (bytes : List UInt8) : List Char := bytes.flatMap encodeByte

/-- Two lower-case digits per byte. -/
def encode (bytes : List UInt8) : String := String.ofList (encodeChars bytes)

/-! ## Reading -/

/-- Why a text is not a sequence of digit pairs. -/
inductive Error where
  | oddLength
  /-- The byte `byte` at position `index` of the text's UTF-8 form is no digit. -/
  | invalidDigit (byte : UInt8) (index : Nat)
deriving DecidableEq, Repr

def Error.message : Error → String
  | oddLength => "Odd number of digits"
  | invalidDigit byte index =>
    s!"Invalid character {quotedChar (Char.ofNat byte.toNat)} at position {index}"

/-- The first byte of a character in UTF-8. -/
def leadByte (c : Char) : UInt8 := (String.utf8EncodeChar c).headD 0

/-- Reads pairs of digits; `index` is the position of the first.  The first character that is no
digit stops the reading, so every character before it takes one byte. -/
def decodePairs (index : Nat) : List Char → Except Error (List UInt8)
  | [] => .ok []
  | [c] => .error (.invalidDigit (leadByte c) index)
  | c :: d :: rest =>
    match digitValue? c, digitValue? d with
    | none, _ => .error (.invalidDigit (leadByte c) index)
    | some _, none => .error (.invalidDigit (leadByte d) (index + 1))
    | some high, some low => do
      let bytes ← decodePairs (index + 2) rest
      return UInt8.ofNat (16 * high + low) :: bytes

def decodeChars (text : List Char) : Except Error (List UInt8) :=
  if (text.flatMap String.utf8EncodeChar).length % 2 = 1 then .error .oddLength
  else decodePairs 0 text

/-- Reads digit pairs.  An odd number of bytes is reported before any wrong digit. -/
def decode (text : String) : Except Error (List UInt8) := decodeChars text.toList

/-! ## Lemmas -/

theorem digitValue?_digit_all : ∀ d, d < 16 → digitValue? (digit d) = some d := by decide

theorem digitValue?_digit {d : Nat} (h : d < 16) : digitValue? (digit d) = some d :=
  digitValue?_digit_all d h

theorem length_utf8_digit_all : ∀ d, d < 16 → (String.utf8EncodeChar (digit d)).length = 1 := by
  decide

theorem length_utf8_encodeChars (bytes : List UInt8) :
    ((encodeChars bytes).flatMap String.utf8EncodeChar).length = 2 * bytes.length := by
  induction bytes with
  | nil => rfl
  | cons b rest ih =>
    have hb : b.toNat < 256 := b.toNat_lt
    have h1 := length_utf8_digit_all (b.toNat / 16) (by omega)
    have h2 := length_utf8_digit_all (b.toNat % 16) (by omega)
    simp only [encodeChars] at ih
    simp [encodeChars, encodeByte, h1, h2, ih]
    omega

theorem decodePairs_encodeChars (bytes : List UInt8) :
    ∀ index, decodePairs index (encodeChars bytes) = .ok bytes := by
  induction bytes with
  | nil => intro; rfl
  | cons b rest ih =>
    intro index
    have hb : b.toNat < 256 := b.toNat_lt
    have hbyte : 16 * (b.toNat / 16) + b.toNat % 16 = b.toNat := by omega
    simp only [encodeChars] at ih
    simp [encodeChars, encodeByte, decodePairs, digitValue?_digit (d := b.toNat / 16) (by omega),
      digitValue?_digit (d := b.toNat % 16) (by omega), ih, hbyte, bind, Except.bind, pure,
      Except.pure]

theorem decodeChars_encodeChars (bytes : List UInt8) :
    decodeChars (encodeChars bytes) = .ok bytes := by
  rw [decodeChars, length_utf8_encodeChars, if_neg (by omega), decodePairs_encodeChars]

theorem decode_encode (bytes : List UInt8) : decode (encode bytes) = .ok bytes := by
  rw [decode, encode, String.toList_ofList, decodeChars_encodeChars]

end CellAbi.Text.Hex
