/-!
# Bit strings

Bit strings are lists of Booleans, most significant bit first.  They carry numbers in a fixed
width, and they are packed into bytes from the high bit down with zero fill at the end.

    toNat (ofNat width n) = n % 2 ^ width                                     (`toNat_ofNat`)
    toInt (ofInt (width + 1) i) = i     for `-2 ^ width ≤ i < 2 ^ width`      (`toInt_ofInt`)
-/

-- Powers of numbers are those of the core library, whatever else is imported.
attribute [instance (high), default_instance (high + 1)] instPowNat

namespace CellAbi.Bits

/-! ## Numbers -/

/-- The `width` low bits of `n`. -/
def ofNat (width n : Nat) : List Bool :=
  (List.range width).reverse.map n.testBit

/-- Bit `i` of the two's complement form of an integer. -/
def testBit (value : Int) (i : Nat) : Bool :=
  match value with
  | .ofNat n => n.testBit i
  | .negSucc n => !n.testBit i

/-- The `width` low bits of the two's complement form. -/
def ofInt (width : Nat) (value : Int) : List Bool :=
  (List.range width).reverse.map (testBit value)

def toNat (bits : List Bool) : Nat :=
  bits.foldl (fun n b => 2 * n + b.toNat) 0

/-- The two's complement reading. -/
def toInt (bits : List Bool) : Int :=
  match bits with
  | [] => 0
  | sign :: _ => if sign then (toNat bits : Int) - 2 ^ bits.length else toNat bits

/-- Number of bits of `n` without leading zeros. -/
def size (n : Nat) : Nat := if n = 0 then 0 else n.log2 + 1

/-- Whether `value` fits `width` bits in two's complement; zero bits hold zero alone. -/
def fitsSigned (width : Nat) (value : Int) : Bool :=
  if width = 0 then value == 0
  else match value with
    | .ofNat n => size n ≤ width - 1
    | .negSucc n => size n ≤ width - 1

/-! ## Bytes -/

/-- Bit `i` of a byte string, counted from the high bit of the first byte; clear past the end. -/
def get (bytes : List UInt8) (i : Nat) : Bool :=
  match bytes[i / 8]? with
  | some b => b.toNat.testBit (7 - i % 8)
  | none => false

/-- The byte with the single bit `i % 8` set, counted from the high bit. -/
def mask (i : Nat) : UInt8 := (0x80 : UInt8) >>> (UInt8.ofNat (i % 8))

/-- The eight bits of a byte. -/
def ofByte (b : UInt8) : List Bool := ofNat 8 b.toNat

/-- All bits of a byte string. -/
def ofBytes (bytes : List UInt8) : List Bool := bytes.flatMap ofByte

/-- Packs bits into bytes; the last byte is filled with zeros. -/
def toBytes (bits : List Bool) : List UInt8 :=
  match bits with
  | [] => []
  | b :: rest =>
    UInt8.ofNat (toNat ((b :: rest).take 8 ++ List.replicate (8 - (b :: rest).length) false)) ::
      toBytes (rest.drop 7)
termination_by bits.length

/-- Bytes that hold `n` bits. -/
def byteCount (n : Nat) : Nat := (n + 7) / 8

/-! ## Lemmas -/

@[simp] theorem length_ofNat (width n : Nat) : (ofNat width n).length = width := by simp [ofNat]

@[simp] theorem length_ofInt (width : Nat) (i : Int) : (ofInt width i).length = width := by
  simp [ofInt]

theorem ofNat_succ (width n : Nat) :
    ofNat (width + 1) n = n.testBit width :: ofNat width n := by
  simp [ofNat, List.range_succ]

theorem size_le_iff {n width : Nat} : size n ≤ width ↔ n < 2 ^ width := by
  unfold size
  split
  · next h => exact iff_of_true (Nat.zero_le _) (h ▸ Nat.two_pow_pos width)
  · next h => rw [Nat.succ_le_iff, Nat.log2_lt h]

theorem toNat_cons (b : Bool) (bits : List Bool) :
    toNat (b :: bits) = b.toNat * 2 ^ bits.length + toNat bits := by
  suffices ∀ n, bits.foldl (fun n b => 2 * n + b.toNat) n = n * 2 ^ bits.length + toNat bits by
    simpa [toNat] using this b.toNat
  induction bits with
  | nil => simp [toNat]
  | cons c rest ih =>
    intro n
    have hc := ih c.toNat
    simp only [toNat, List.foldl_cons, List.length_cons, Nat.mul_zero, Nat.zero_add] at hc ih ⊢
    rw [ih, hc, Nat.pow_succ', Nat.add_mul, Nat.mul_comm 2 n, Nat.mul_assoc, Nat.add_assoc]

/-- The low bits of a number spell its remainder. -/
theorem toNat_ofNat (width n : Nat) : toNat (ofNat width n) = n % 2 ^ width := by
  induction width with
  | zero => simp [ofNat, toNat, Nat.mod_one]
  | succ width ih =>
    rw [ofNat_succ, toNat_cons, ih, length_ofNat, Nat.pow_succ, Nat.mod_mul,
      Nat.testBit_eq_decide_div_mod_eq]
    rcases Nat.mod_two_eq_zero_or_one (n / 2 ^ width) with h | h <;> simp [h, Nat.add_comm]

theorem ofInt_negSucc (width n : Nat) : ofInt width (.negSucc n) = (ofNat width n).map not := by
  simp [ofInt, ofNat, testBit]

/-- A bit string and its complement add up to all bits set. -/
theorem toNat_map_not (bits : List Bool) :
    toNat (bits.map not) + toNat bits + 1 = 2 ^ bits.length := by
  induction bits with
  | nil => rfl
  | cons b rest ih =>
    rw [List.map_cons, toNat_cons, toNat_cons, List.length_map, List.length_cons, Nat.pow_succ]
    cases b <;> simp <;> omega

theorem toInt_ofInt {width : Nat} {i : Int} (low : -2 ^ width ≤ i) (high : i < 2 ^ width) :
    toInt (ofInt (width + 1) i) = i := by
  have hpow : (2 : Int) ^ width = ((2 ^ width : Nat) : Int) := by simp
  rw [hpow] at low high
  cases i with
  | ofNat n =>
    have hn : n < 2 ^ width := Int.ofNat_lt.1 high
    have h := toNat_ofNat (width + 1) n
    have hw : 2 ^ (width + 1) = 2 * 2 ^ width := Nat.pow_succ'
    rw [ofNat_succ, Nat.testBit_lt_two_pow hn, Nat.mod_eq_of_lt (by omega)] at h
    change toInt (ofNat (width + 1) n) = n
    rw [ofNat_succ, Nat.testBit_lt_two_pow hn, toInt, h]
    simp
  | negSucc n =>
    have hn : n < 2 ^ width := by omega
    have hw : 2 ^ (width + 1) = 2 * 2 ^ width := Nat.pow_succ'
    have h := toNat_map_not (ofNat (width + 1) n)
    rw [toNat_ofNat, length_ofNat, Nat.mod_eq_of_lt (by omega)] at h
    rw [ofInt_negSucc]
    rw [ofNat_succ, Nat.testBit_lt_two_pow hn, List.map_cons] at h ⊢
    simp only [Bool.not_false] at h
    simp only [toInt, Bool.not_false, if_true, List.length_cons, List.length_map, length_ofNat]
    rw [Int.pow_succ, hpow]
    omega

end CellAbi.Bits
