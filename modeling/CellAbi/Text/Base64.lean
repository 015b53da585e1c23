/-!
# Base64

The standard alphabet with canonical padding: every group of four symbols carries three bytes, and
a last group of two or three symbols is filled with `=`.  Unused bits of the last symbol are zero.
-/

namespace CellAbi.Text.Base64

/-- The symbol of value `v < 64`. -/
def symbol (v : Nat) : Char :=
  if v < 26 then Char.ofNat (65 + v)
  else if v < 52 then Char.ofNat (71 + v)
  else if v < 62 then Char.ofNat (v - 4)
  else if v = 62 then '+' else '/'

/-- The value of a symbol, given as its byte. -/
def symbolValue? (b : UInt8) : Option Nat :=
  let n := b.toNat
  if 65 ≤ n ∧ n ≤ 90 then some (n - 65)
  else if 97 ≤ n ∧ n ≤ 122 then some (n - 71)
  else if 48 ≤ n ∧ n ≤ 57 then some (n + 4)
  else if n = 43 then some 62
  else if n = 47 then some 63
  else none

/-! ## Writing -/

def encodeChars : List UInt8 → List Char
  | [] => []
  | [a] =>
    let n := a.toNat * 16
    [symbol (n / 64), symbol (n % 64), '=', '=']
  | [a, b] =>
    let n := (a.toNat * 256 + b.toNat) * 4
    [symbol (n / 4096), symbol (n / 64 % 64), symbol (n % 64), '=']
  | a :: b :: c :: rest =>
    let n := (a.toNat * 256 + b.toNat) * 256 + c.toNat
    symbol (n / 262144) :: symbol (n / 4096 % 64) :: symbol (n / 64 % 64) :: symbol (n % 64) ::
      encodeChars rest

def encode (bytes : List UInt8) : String := String.ofList (encodeChars bytes)

/-! ## Reading -/

/-- Why a text is not canonical base64.  Offsets count bytes. -/
inductive Error where
  | invalidSymbol (byte : UInt8) (offset : Nat)
  | invalidLength (length : Nat)
  | invalidLastSymbol (byte : UInt8) (offset : Nat)
  | invalidPadding
deriving DecidableEq, Repr

def Error.message : Error → String
  | invalidSymbol byte offset => s!"Invalid symbol {byte.toNat}, offset {offset}."
  | invalidLength length => s!"Invalid input length: {length}"
  | invalidLastSymbol byte offset => s!"Invalid last symbol {byte.toNat}, offset {offset}."
  | invalidPadding => "Invalid padding"

/-- The padding byte `=`. -/
def padding : UInt8 := 61

def valueAt (offset : Nat) (b : UInt8) : Except Error Nat :=
  match symbolValue? b with
  | some v => .ok v
  | none => .error (.invalidSymbol b offset)

/-- The symbols of the last group, with the number of padding bytes after them.  Padding needs two
symbols before it and nothing but padding after it; `symbols` and `pads` hold what was read. -/
def lastGroup (offset : Nat) (symbols : List (UInt8 × Nat)) (pads : Nat) :
    List UInt8 → Except Error (List (UInt8 × Nat) × Nat)
  | [] => .ok (symbols, pads)
  | b :: rest =>
    let index := symbols.length + pads
    if b = padding then
      if index < 2 then .error (.invalidSymbol b (offset + index))
      else lastGroup offset symbols (pads + 1) rest
    else if pads > 0 then .error (.invalidSymbol padding (offset + symbols.length))
    else
      match symbolValue? b with
      | none => .error (.invalidSymbol b (offset + index))
      | some v => lastGroup offset (symbols ++ [(b, v)]) pads rest

/-- Reads the last group, which starts at `offset`. -/
def decodeLast (offset : Nat) (group : List UInt8) : Except Error (List UInt8) := do
  let (symbols, pads) ← lastGroup offset [] 0 group
  if symbols.length < 2 then throw (.invalidLength (offset + symbols.length))
  if (symbols.length + pads) % 4 ≠ 0 then throw .invalidPadding
  let last (unused : Nat) : Except Error Unit :=
    match symbols.getLast? with
    | some (b, v) =>
      if v % unused ≠ 0 then throw (.invalidLastSymbol b (offset + symbols.length - 1)) else pure ()
    | none => pure ()
  match symbols.map Prod.snd with
  | [a, b] => do
    last 16
    return [UInt8.ofNat ((a * 64 + b) / 16)]
  | [a, b, c] => do
    last 4
    let n := ((a * 64 + b) * 64 + c) / 4
    return [UInt8.ofNat (n / 256), UInt8.ofNat n]
  | [a, b, c, d] =>
    let n := ((a * 64 + b) * 64 + c) * 64 + d
    return [UInt8.ofNat (n / 65536), UInt8.ofNat (n / 256), UInt8.ofNat n]
  | _ => return []

/-- Reads groups of four symbols up to the last group. -/
def decodeGroups (offset : Nat) : List UInt8 → Except Error (List UInt8)
  | [] => .ok []
  | a :: b :: c :: d :: e :: rest => do
    let va ← valueAt offset a
    let vb ← valueAt (offset + 1) b
    let vc ← valueAt (offset + 2) c
    let vd ← valueAt (offset + 3) d
    let n := ((va * 64 + vb) * 64 + vc) * 64 + vd
    let bytes ← decodeGroups (offset + 4) (e :: rest)
    return UInt8.ofNat (n / 65536) :: UInt8.ofNat (n / 256) :: UInt8.ofNat n :: bytes
  | group => decodeLast offset group

/-- Reads the UTF-8 bytes of a text.  A single symbol beyond whole groups is looked at first, so
that a stray last byte is reported before anything else. -/
def decodeBytes (text : List UInt8) : Except Error (List UInt8) :=
  match text.getLast? with
  | none => .ok []
  | some b =>
    if text.length % 4 = 1 ∧ b ≠ padding ∧ (symbolValue? b).isNone then
      .error (.invalidSymbol b (text.length - 1))
    else decodeGroups 0 text

def decodeChars (text : List Char) : Except Error (List UInt8) :=
  decodeBytes (text.flatMap String.utf8EncodeChar)

def decode (text : String) : Except Error (List UInt8) := decodeChars text.toList

end CellAbi.Text.Base64
