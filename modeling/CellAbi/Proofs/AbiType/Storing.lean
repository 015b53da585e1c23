import CellAbi.Proofs.AbiType.Range
import CellAbi.Proofs.Slicing

/-!
# Ranges and widths

The range of an integer type is what its bits can spell: the check of a type of fixed width accepts
an integer exactly where a cell stores it in that width, and the check of a type of variable width
accepts what the bytes behind a length can hold.

    (∃ bits, bits.length = width ∧ toInt bits = i) ↔ -2 ^ width ≤ 2 * i ∧ 2 * i < 2 ^ width
                                                                             (`exists_toInt_iff`)
    checkInteger (.int n) i = .ok () ↔ ∃ b', (Store.int i n).run b = .ok () b'
      for a builder with room for `n` bits                            (`checkInteger_iff_stored`)
-/

namespace CellAbi

/-! ## What bits of a width spell -/

namespace Bits

variable {width n : Nat} {i : Int}

theorem exists_toNat_iff : (∃ bits, bits.length = width ∧ toNat bits = n) ↔ n < 2 ^ width := by
  constructor
  · rintro ⟨bits, rfl, rfl⟩
    exact toNat_lt bits
  · intro h
    exact ⟨ofNat width n, length_ofNat width n, by rw [toNat_ofNat, Nat.mod_eq_of_lt h]⟩

theorem fitsSigned_iff : fitsSigned width i = true ↔ -2 ^ width ≤ 2 * i ∧ 2 * i < 2 ^ width := by
  cases width with
  | zero =>
    rw [fitsSigned.eq_def, if_pos rfl, beq_iff_eq, Int.pow_zero]
    omega
  | succ width =>
    rw [Store.fitsSigned_succ_iff, Int.pow_succ]
    omega

theorem exists_toInt_iff :
    (∃ bits, bits.length = width ∧ toInt bits = i) ↔ -2 ^ width ≤ 2 * i ∧ 2 * i < 2 ^ width := by
  rw [← fitsSigned_iff]
  constructor
  · rintro ⟨bits, rfl, rfl⟩
    cases bits with
    | nil => rfl
    | cons sign rest => exact Store.fitsSigned_succ_iff.2 (toInt_range rfl)
  · intro h
    exact ⟨ofInt width i, length_ofInt width i, Store.toInt_ofInt_of_fits h⟩

end Bits

/-! ## What a builder takes -/

namespace Store

variable {b : Builder} {width : Nat}

theorem exists_run_bitList_iff {more : List Bool} :
    (∃ b', (bitList more).run b = .ok () b') ↔ more.length ≤ b.availableBits := by
  rw [bitList_run]
  split
  · next h => exact iff_of_false nofun (Nat.not_le.2 h)
  · next h => exact iff_of_true ⟨_, rfl⟩ (Nat.not_lt.1 h)

theorem exists_run_nat_iff {n : Nat} :
    (∃ b', (nat n width).run b = .ok () b') ↔ n < 2 ^ width ∧ width ≤ b.availableBits := by
  rw [nat_eq, ← Bits.size_le_iff]
  split
  · next h => exact iff_of_false nofun fun hn => Nat.not_le.2 h hn.1
  · next h => rw [exists_run_bitList_iff, Bits.length_ofNat, and_iff_right (Nat.not_lt.1 h)]

theorem exists_run_int_iff {i : Int} :
    (∃ b', (int i width).run b = .ok () b') ↔
      (-2 ^ width ≤ 2 * i ∧ 2 * i < 2 ^ width) ∧ width ≤ b.availableBits := by
  rw [int_eq, ← Bits.fitsSigned_iff]
  split
  · next h => rw [exists_run_bitList_iff, Bits.length_ofInt, and_iff_right h]
  · next h => exact iff_of_false nofun fun hi => h hi.1

end Store

/-! ## Checks -/

namespace AbiType

variable {bits : Nat} {i : Int}

theorem checkInteger_signed_iff {width : IntWidth} (hwidth : IntWidth.bits width = bits) :
    checkInteger (.integer true width) i = .ok () ↔ -2 ^ bits ≤ 2 * i ∧ 2 * i < 2 ^ bits := by
  rw [checkInteger_iff, InRange, if_pos rfl, hwidth]

theorem checkInteger_unsigned_iff {width : IntWidth} (hwidth : IntWidth.bits width = bits) :
    checkInteger (.integer false width) i = .ok () ↔ 0 ≤ i ∧ i.toNat < 2 ^ bits := by
  have hpow : (2 : Int) ^ bits = ((2 ^ bits : Nat) : Int) := by simp
  rw [checkInteger_iff, InRange, if_neg Bool.false_ne_true, hwidth, hpow]
  omega

/-- A type of fixed width accepts an integer exactly where a builder with room for the width stores
it, in two's complement or, if it is not negative, without a sign.  A type of variable width accepts
the integers that the bits of its bytes spell, of which there is only zero where no byte is left. -/
theorem checkInteger_iff_stored :
    (∀ (n : Nat) (i : Int) (b : Builder), n ≤ b.availableBits →
      (checkInteger (.int n) i = .ok () ↔ ∃ b', (Store.int i n).run b = .ok () b') ∧
      (checkInteger (.uint n) i = .ok () ↔
        0 ≤ i ∧ ∃ b', (Store.nat i.toNat n).run b = .ok () b')) ∧
    ∀ (n : Nat) (i : Int),
      (checkInteger (.integer true (.var n)) i = .ok () ↔
        ∃ bits, bits.length = 8 * (n - 1) ∧ Bits.toInt bits = i) ∧
      (checkInteger (.integer false (.var n)) i = .ok () ↔
        ∃ bits, bits.length = 8 * (n - 1) ∧ (Bits.toNat bits : Int) = i) ∧
      (n ≤ 1 → ∀ signed, checkInteger (.integer signed (.var n)) i = .ok () ↔ i = 0) := by
  refine ⟨fun n i b hroom => ⟨?_, ?_⟩, fun n i => ⟨?_, ?_, fun hn signed => ?_⟩⟩
  · rw [Store.exists_run_int_iff, and_iff_left hroom]
    exact checkInteger_signed_iff rfl
  · rw [Store.exists_run_nat_iff, and_iff_left hroom]
    exact checkInteger_unsigned_iff rfl
  · rw [Bits.exists_toInt_iff]
    exact checkInteger_signed_iff rfl
  · have hcast : ∀ bits, (Bits.toNat bits : Int) = i ↔ 0 ≤ i ∧ Bits.toNat bits = i.toNat := by
      intro bits
      omega
    simp only [hcast, and_left_comm (b := 0 ≤ i), exists_and_left, Bits.exists_toNat_iff]
    exact checkInteger_unsigned_iff rfl
  · have hnone : IntWidth.bits (.var n) = 0 := by
      show 8 * (n - 1) = 0
      omega
    cases signed with
    | true =>
      rw [checkInteger_signed_iff hnone, Int.pow_zero]
      omega
    | false =>
      rw [checkInteger_unsigned_iff hnone, Nat.pow_zero]
      omega

/-- Both ends of the range of 257 bits, and a length that leaves no byte. -/
theorem checkInteger_iff_stored_widest :
    257 ≤ Builder.empty.availableBits ∧
      (∃ b', (Store.int (-2 ^ 256) 257).run .empty = .ok () b') ∧
      (¬ ∃ b', (Store.int (2 ^ 256) 257).run .empty = .ok () b') ∧
      1 ≤ 1 ∧ checkInteger (.integer true (.var 1)) 0 = .ok () ∧
      checkInteger (.integer true (.var 1)) (-1) ≠ .ok () := by
  have hroom : 257 ≤ Builder.empty.availableBits := by decide
  have hstored := fun i => (checkInteger_iff_stored.1 257 i .empty hroom).1
  have hnone := fun i => (checkInteger_iff_stored.2 1 i).2.2 (Nat.le_refl 1) true
  refine ⟨hroom, (hstored _).1 rfl, fun h => ?_, Nat.le_refl 1, (hnone 0).2 rfl, fun h => ?_⟩
  · cases (hstored _).2 h
  · exact absurd ((hnone (-1)).1 h) (by decide)

end AbiType

end CellAbi
