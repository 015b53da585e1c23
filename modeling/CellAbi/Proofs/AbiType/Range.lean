import CellAbi.Error

/-!
# Ranges of integer types

    checkInteger (.integer signed width) i = .ok () ↔ InRange signed width i    (`checkInteger_iff`)
-/

namespace CellAbi.AbiType

/-- The integers that have the bits of the width, in two's complement if they are signed.  Of no
bits at all there is only zero. -/
def InRange (signed : Bool) (width : IntWidth) (i : Int) : Prop :=
  if signed then -2 ^ IntWidth.bits width ≤ 2 * i ∧ 2 * i < 2 ^ IntWidth.bits width
  else 0 ≤ i ∧ i < 2 ^ IntWidth.bits width

theorem checkInteger_of_bounds {type : AbiType} {low high i : Int}
    (h : type.bounds? = some (low, high)) :
    type.checkInteger i = .ok () ↔ low ≤ i ∧ i < high := by
  rw [checkInteger, h]
  dsimp only
  split
  · next hi => exact iff_of_true rfl hi
  · next hi => exact iff_of_false nofun hi

theorem checkInteger_iff {signed : Bool} {width : IntWidth} {i : Int} :
    checkInteger (.integer signed width) i = .ok () ↔ InRange signed width i := by
  unfold InRange
  cases hbits : IntWidth.bits width with
  | zero =>
    have hbounds : bounds? (.integer signed width) = some (0, 1) := if_pos hbits
    rw [checkInteger_of_bounds hbounds, Int.pow_zero]
    cases signed
    · exact Iff.rfl
    · rw [if_pos rfl]
      omega
  | succ bits =>
    have hbounds : bounds? (.integer signed width) =
        some (if signed then (-2 ^ bits, 2 ^ bits) else (0, 2 ^ (bits + 1))) := by
      simp only [bounds?, hbits, Nat.succ_ne_zero, if_false, Nat.add_sub_cancel]
      cases signed <;> rfl
    cases signed with
    | false => exact checkInteger_of_bounds hbounds
    | true =>
      rw [checkInteger_of_bounds hbounds, if_pos rfl, Int.pow_succ]
      omega

end CellAbi.AbiType
