import CellAbi.Cell.Error
import CellAbi.Checksum.Sha256
import CellAbi.Bits

/-!
# Addresses

A standard address names a contract by workchain and hash.  An external address is a bit string of
at most 511 bits, kept as its number and its length.
-/

namespace CellAbi

/-- The address of a contract. -/
structure StandardAddress where
  workchain : Int32
  hash : Digest
deriving DecidableEq

/-- A bit string that names something outside of the chain. -/
structure ExternalAddress where
  value : Nat
  bits : Nat
  bits_le : bits ≤ 511
  value_lt : value < 2 ^ bits
deriving DecidableEq

inductive Address where
  | standard (address : StandardAddress)
  | external (address : ExternalAddress)
deriving DecidableEq

inductive AddressError where
  | invalidRaw (text : String)
  | invalidExternal (text : String)
  | externalTooWide (needed bits : Nat)
  | externalTooLong (bits : Nat)
  | unsupportedTag (tag : Nat)
  | cell (cause : CellError)
deriving DecidableEq, Repr

def AddressError.message : AddressError → String
  | invalidRaw text =>
    s!"Invalid raw address '{text}': expected <workchain>:<64 hex digits>"
  | invalidExternal text => s!"Invalid external address '{text}'"
  | externalTooWide needed bits =>
    s!"External address value needs {needed} bits but declares {bits}"
  | externalTooLong bits => s!"External address length {bits} exceeds 511 bits"
  | unsupportedTag tag =>
    let low := if tag % 2 = 1 then "1" else "0"
    let high := if tag / 2 % 2 = 1 then "1" else "0"
    s!"Unsupported address encoding (tag 0b{high}{low})"
  | cell cause => cause.message

namespace ExternalAddress

/-- The address of `bits` bits with this value.  The length is checked before the value. -/
def new (value bits : Nat) : Except AddressError ExternalAddress :=
  if hb : bits ≤ 511 then
    if hv : Bits.size value ≤ bits then .ok ⟨value, bits, hb, Bits.size_le_iff.1 hv⟩
    else .error (.externalTooWide (Bits.size value) bits)
  else .error (.externalTooLong bits)

/-- The address of no bits. -/
def none : ExternalAddress := ⟨0, 0, by decide, by decide⟩

def isNone (a : ExternalAddress) : Bool := a.bits == 0

end ExternalAddress

namespace Address

def standard? : Address → Option StandardAddress
  | standard a => some a
  | external _ => Option.none

end Address

/-! ## Order -/

/-- Workchain first, then hash. -/
def StandardAddress.order : StandardAddress → StandardAddress → Ordering :=
  compareLex (compareOn workchain) (compareOn fun a => a.hash.bytes)

instance : Std.TransCmp StandardAddress.order :=
  inferInstanceAs (Std.TransCmp (compareLex (compareOn StandardAddress.workchain)
    (compareOn fun a : StandardAddress => a.hash.bytes)))

instance : Ord StandardAddress := ⟨StandardAddress.order⟩

instance : Std.TransOrd StandardAddress := inferInstanceAs (Std.TransCmp StandardAddress.order)

/-- Value first, then length. -/
def ExternalAddress.order : ExternalAddress → ExternalAddress → Ordering :=
  compareLex (compareOn value) (compareOn bits)

instance : Std.TransCmp ExternalAddress.order :=
  inferInstanceAs (Std.TransCmp (compareLex (compareOn ExternalAddress.value)
    (compareOn ExternalAddress.bits)))

instance : Ord ExternalAddress := ⟨ExternalAddress.order⟩

instance : Std.TransOrd ExternalAddress := inferInstanceAs (Std.TransCmp ExternalAddress.order)

/-- Standard addresses before external ones. -/
instance : Ord Address where
  compare
    | .standard a, .standard b => compare a b
    | .standard _, .external _ => .lt
    | .external _, .standard _ => .gt
    | .external a, .external b => compare a b

instance : Std.TransOrd Address where
  eq_swap {a b} := by
    cases a <;> cases b <;> simp [compare] <;> exact Std.OrientedCmp.eq_swap
  isLE_trans {a b c} := by
    cases a <;> cases b <;> cases c <;> simp [compare] <;> exact Std.TransCmp.isLE_trans

end CellAbi
