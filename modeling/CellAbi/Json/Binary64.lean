/-!
# Double-precision numbers

The finite binary floating-point numbers of 64 bits in exact arithmetic: rounding of a fraction to
the nearest number, reading from a decimal significand and exponent, and the shortest decimal that
rounds back.
-/

namespace CellAbi

/-- The number `± mantissa * 2 ^ exponent`.  The mantissa has 53 bits, or fewer at the least
exponent `-1074`. -/
structure Binary64 where
  negative : Bool
  mantissa : Nat
  exponent : Int
deriving DecidableEq, Repr

namespace Binary64

def zero : Binary64 := ⟨false, 0, -1074⟩

def isZero (x : Binary64) : Bool := x.mantissa == 0

def negate (x : Binary64) : Binary64 := { x with negative := !x.negative }

/-! ## Rounding -/

/-- The fraction `num * 2 ^ -exponent / den`. -/
def scaled (num den : Nat) (exponent : Int) : Nat × Nat :=
  if exponent ≤ 0 then (num * 2 ^ (-exponent).toNat, den) else (num, den * 2 ^ exponent.toNat)

/-- Rounds a quotient to the nearest number; halves go to the even neighbour. -/
def roundDiv (num den : Nat) : Nat :=
  let q := num / den
  let r := num % den
  if 2 * r > den ∨ (2 * r = den ∧ q % 2 = 1) then q + 1 else q

/-- The nearest number to the fraction `num / den`; none if it would be infinite. -/
def nearest? (num den : Nat) : Option Binary64 :=
  if num = 0 then some zero
  else
    let guess := max (-1074) ((num.log2 : Int) - den.log2 - 52)
    let (n, d) := scaled num den guess
    let exponent := if n / d < 2 ^ 52 then max (-1074) (guess - 1) else guess
    let (n, d) := scaled num den exponent
    let m := roundDiv n d
    let (m, exponent) := if m = 2 ^ 53 then (2 ^ 52, exponent + 1) else (m, exponent)
    if exponent > 971 then none else some ⟨false, m, exponent⟩

/-- The magnitude as a fraction. -/
def fraction (x : Binary64) : Nat × Nat :=
  if x.exponent ≤ 0 then (x.mantissa, 2 ^ (-x.exponent).toNat)
  else (x.mantissa * 2 ^ x.exponent.toNat, 1)

/-- The magnitude of the product. -/
def mul? (x y : Binary64) : Option Binary64 :=
  let (n, d) := x.fraction
  let (n', d') := y.fraction
  nearest? (n * n') (d * d')

/-- The magnitude of the quotient by a number other than zero. -/
def div? (x y : Binary64) : Option Binary64 :=
  let (n, d) := x.fraction
  let (n', d') := y.fraction
  nearest? (n * d') (d * n')

/-! ## Reading decimals -/

/-- The number nearest to `10 ^ k`. -/
def powerOfTen? (k : Nat) : Option Binary64 := nearest? (10 ^ k) 1

/-- The greatest power of ten that is used as a factor. -/
def maxPower : Nat := 308

/-- Divides by powers of ten, the largest first, until the exponent is used up. -/
def scaleDown (x : Binary64) (k : Nat) : Option Binary64 :=
  if k ≤ maxPower then do x.div? (← powerOfTen? k)
  else if x.isZero then some x
  else do scaleDown (← x.div? (← powerOfTen? maxPower)) (k - maxPower)
termination_by k
decreasing_by simp only [maxPower] at *; omega

/-- Reads `significand * 10 ^ exponent` in steps that each round: the significand, then one product
or as many quotients as needed.  None if the result would be infinite. -/
def ofDecimal? (significand : Nat) (exponent : Int) : Option Binary64 := do
  let x ← nearest? significand 1
  if exponent < 0 then scaleDown x (-exponent).toNat
  else if exponent ≤ maxPower then x.mul? (← powerOfTen? exponent.toNat)
  else if x.isZero then some x
  else none

/-! ## Shortest decimal -/

/-- Ends of the interval that rounds to a positive number, and the number itself, over one
denominator. -/
structure Interval where
  low : Nat
  value : Nat
  high : Nat
  den : Nat
  /-- Whether the ends themselves round to the number. -/
  closed : Bool

def interval (x : Binary64) : Interval :=
  let below := if x.mantissa = 2 ^ 52 ∧ x.exponent > -1074 then 1 else 2
  let (factor, den) :=
    if x.exponent ≤ 2 then (1, 2 ^ (2 - x.exponent).toNat) else (2 ^ (x.exponent - 2).toNat, 1)
  { low := (4 * x.mantissa - below) * factor
    value := 4 * x.mantissa * factor
    high := (4 * x.mantissa + 2) * factor
    den
    closed := x.mantissa % 2 == 0 }

/-- Whether `digits * 10 ^ place` lies in the interval. -/
def Interval.contains (i : Interval) (digits : Nat) (place : Int) : Bool :=
  let point := if place < 0 then digits else digits * 10 ^ place.toNat
  let unit := if place < 0 then 10 ^ (-place).toNat else 1
  if i.closed then i.low * unit ≤ point * i.den && point * i.den ≤ i.high * unit
  else i.low * unit < point * i.den && point * i.den < i.high * unit

/-- The decimal of the grid `10 ^ place` that lies in the interval and is nearest to the value, an
even one if two are equally near. -/
def Interval.onGrid? (i : Interval) (place : Int) : Option Nat :=
  let num := if place < 0 then i.value * 10 ^ (-place).toNat else i.value
  let den := if place < 0 then i.den else i.den * 10 ^ place.toNat
  let nearest := roundDiv num den
  let other := if nearest * den > num then nearest - 1 else nearest + 1
  if i.contains nearest place then some nearest
  else if i.contains other place then some other
  else none

/-- Number of decimal digits. -/
def digitCount (n : Nat) : Nat := (Nat.toDigits 10 n).length

/-- The exponent `e` with `10 ^ e ≤ value < 10 ^ (e + 1)`. -/
def Interval.decimalExponent (i : Interval) : Int :=
  if i.den ≤ i.value then digitCount (i.value / i.den) - 1
  else
    let e := (digitCount (i.den / i.value) : Int)
    if i.value * 10 ^ (e - 1).toNat ≥ i.den then -(e - 1) else -e

/-- Tries grids with more and more digits. -/
def Interval.search (i : Interval) (top : Int) (digits : Nat) : Nat → Nat × Int
  | 0 => (0, 0)
  | fuel + 1 =>
    let place := top - digits
    match i.onGrid? place with
    | some n => (n, place)
    | none => i.search top (digits + 1) fuel

/-- Moves trailing zeros of the digits into the exponent. -/
def trimZeros (digits : Nat) (place : Int) : Nat × Int :=
  if digits = 0 then (0, place)
  else if digits % 10 = 0 then trimZeros (digits / 10) (place + 1)
  else (digits, place)
termination_by digits
decreasing_by omega

/-- The decimal `digits * 10 ^ place` with the fewest digits that rounds to the number. -/
def shortest (x : Binary64) : Nat × Int :=
  if x.isZero then (0, 0)
  else
    let i := x.interval
    let (digits, place) := i.search (i.decimalExponent + 1) 1 17
    trimZeros digits place

end Binary64

end CellAbi
