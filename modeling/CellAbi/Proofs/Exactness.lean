import CellAbi.Bits

/-!
# Arithmetic in integer types

The library counts in unbounded numbers, a machine in integer types of fixed width.  Here an
operation is computed exactly and held against the range of its type: a result that the type does
not represent is a fault.  A computation without faults has therefore the exact result at every
step, as nothing wraps around and no bit is lost.

    within t i = .ok i ↔ t.Represents i                                     (`within_eq_ok_iff`)
    shiftIn k value digit = .ok (value * 2 ^ k + digit)
      for `digit < 2 ^ k` and a result below `2 ^ 64`                             (`shiftIn_eq`)
-/

namespace CellAbi

/-! ## Types and faults -/

/-- An integer type, without sign or in two's complement. -/
inductive IntType where
  | unsigned (width : Nat)
  | signed (width : Nat)

namespace IntType

def width : IntType → Nat
  | unsigned width | signed width => width

/-- The integer is in the range of the type. -/
def Represents : IntType → Int → Prop
  | unsigned width, i => 0 ≤ i ∧ i < 2 ^ width
  | signed width, i => -2 ^ (width - 1) ≤ i ∧ i < 2 ^ (width - 1)

instance : ∀ (t : IntType) (i : Int), Decidable (t.Represents i)
  | unsigned _, _ => inferInstanceAs (Decidable (_ ∧ _))
  | signed _, _ => inferInstanceAs (Decidable (_ ∧ _))

end IntType

/-- What a machine would get wrong, or spend too much on. -/
inductive Fault where
  /-- The type does not represent the result. -/
  | outOfRange (type : IntType) (result : Int)
  /-- A shift by the width of the type or by more. -/
  | shiftTooFar (type : IntType) (amount : Nat)
  /-- A list is laid out for more elements than there are bytes of input. -/
  | tooMuchRoom (count : Nat)

/-- Why a computation that is watched for faults ends without a result. -/
inductive Stop (ε : Type) where
  | fault (f : Fault)
  /-- The computation itself refuses its input. -/
  | refused (e : ε)

namespace Exact

/-! ## Operations -/

variable {ε : Type}

/-- The result of an operation, where the type represents it. -/
def within (t : IntType) (result : Int) : Except (Stop ε) Int :=
  if t.Represents result then .ok result else .error (.fault (.outOfRange t result))

/-- The result of an operation on words of 64 bits. -/
def word (result : Int) : Except (Stop ε) Nat := return (← within (.unsigned 64) result).toNat

def shiftLeft (t : IntType) (i : Int) (amount : Nat) : Except (Stop ε) Int :=
  if amount < t.width then within t (i * 2 ^ amount) else .error (.fault (.shiftTooFar t amount))

def shiftRight (t : IntType) (i : Int) (amount : Nat) : Except (Stop ε) Int :=
  if amount < t.width then within t (i / 2 ^ amount) else .error (.fault (.shiftTooFar t amount))

/-- A digit of `k` bits shifted into a word from the right. -/
def shiftIn (k value digit : Nat) : Except (Stop ε) Nat := do
  let shifted ← shiftLeft (.unsigned 64) value k
  return shifted.toNat ||| digit

/-- Runs a computation as part of a step with a state. -/
def run {σ α : Type} : Except (Stop ε) α → EStateM (Stop ε) σ α
  | .ok a => pure a
  | .error e => throw e

/-! ## Exact results -/

variable {t : IntType} {i : Int} {amount k n value digit : Nat}

theorem within_eq_ok_iff : (within t i : Except (Stop ε) Int) = .ok i ↔ t.Represents i := by
  unfold within
  split
  · next h => exact iff_of_true rfl h
  · next h => exact iff_of_false nofun h

theorem within_eq (h : t.Represents i) : (within t i : Except (Stop ε) Int) = .ok i :=
  within_eq_ok_iff.2 h

theorem run_bind_of_ok {σ α β : Type} {step : Except (Stop ε) α} {a : α} (h : step = .ok a)
    (next : α → EStateM (Stop ε) σ β) : run step >>= next = next a := by
  subst h
  rfl

theorem represents_word (h : n < 2 ^ 64) : (IntType.unsigned 64).Represents n :=
  ⟨Int.natCast_nonneg n, by omega⟩

theorem word_eq (hi : i = n) (hn : n < 2 ^ 64) : (word i : Except (Stop ε) Nat) = .ok n := by
  subst hi
  unfold word
  rw [within_eq (represents_word hn)]
  rfl

theorem shiftLeft_eq (hamount : amount < t.width) (h : t.Represents (i * 2 ^ amount)) :
    (shiftLeft t i amount : Except (Stop ε) Int) = .ok (i * 2 ^ amount) := by
  rw [shiftLeft, if_pos hamount, within_eq h]

theorem shiftRight_eq (hamount : amount < t.width)
    (h : t.Represents ((n / 2 ^ amount : Nat) : Int)) :
    (shiftRight t n amount : Except (Stop ε) Int) = .ok ((n / 2 ^ amount : Nat) : Int) := by
  have hcast : (n : Int) / 2 ^ amount = ((n / 2 ^ amount : Nat) : Int) := by
    rw [Int.natCast_ediv, Int.natCast_pow]
    rfl
  rw [shiftRight, if_pos hamount, hcast, within_eq h]

/-- Where the result is a word, shifting a digit in loses none of the bits in front of it. -/
theorem shiftIn_eq (hk : k < 64) (hdigit : digit < 2 ^ k) (h : value * 2 ^ k + digit < 2 ^ 64) :
    (shiftIn k value digit : Except (Stop ε) Nat) = .ok (value * 2 ^ k + digit) := by
  have hcast : (value : Int) * 2 ^ k = ((value * 2 ^ k : Nat) : Int) := by
    rw [Int.natCast_mul, Int.natCast_pow]
    rfl
  have hshift : (shiftLeft (.unsigned 64) value k : Except (Stop ε) Int) =
      .ok ((value * 2 ^ k : Nat) : Int) := by
    rw [shiftLeft_eq hk (hcast ▸ represents_word (by omega)), hcast]
  unfold shiftIn
  rw [hshift]
  show Except.ok (((value * 2 ^ k : Nat) : Int).toNat ||| digit) = _
  rw [Int.toNat_natCast, Nat.mul_comm, Nat.two_pow_add_eq_or_of_lt hdigit]

/-- A ninth byte would push the first one out of a word. -/
example : (shiftIn 8 (2 ^ 56) 0 : Except (Stop ε) Nat) =
    .error (.fault (.outOfRange (.unsigned 64) (2 ^ 64))) := rfl

/-- A word with room for `n + 1` digits has room for one of them and the `n` behind it. -/
theorem shiftIn_room (hdigit : digit < 2 ^ k) (h : (value + 1) * (2 ^ k) ^ (n + 1) ≤ 2 ^ 64) :
    value * 2 ^ k + digit < 2 ^ 64 ∧ (value * 2 ^ k + digit + 1) * (2 ^ k) ^ n ≤ 2 ^ 64 := by
  have hpos : 0 < (2 ^ k) ^ n := Nat.pow_pos (Nat.two_pow_pos k)
  have hnext : (value * 2 ^ k + digit + 1) * (2 ^ k) ^ n ≤ 2 ^ 64 := calc
    (value * 2 ^ k + digit + 1) * (2 ^ k) ^ n
      ≤ (value + 1) * 2 ^ k * (2 ^ k) ^ n := by
        refine Nat.mul_le_mul_right _ ?_
        rw [Nat.add_one_mul]
        omega
    _ = (value + 1) * (2 ^ k) ^ (n + 1) := by rw [Nat.pow_succ', Nat.mul_assoc]
    _ ≤ 2 ^ 64 := h
  have hle := Nat.le_trans (Nat.le_mul_of_pos_right _ hpos) hnext
  exact ⟨hle, hnext⟩

end Exact

end CellAbi
