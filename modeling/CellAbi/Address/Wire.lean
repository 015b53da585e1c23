import CellAbi.Address.Basic
import CellAbi.Cell.Slice

/-!
# Addresses in cells

An address starts with a two-bit tag: `00` for no address, `01` for an external one (nine bits of
length, then the bits), `10` for a standard one (a clear anycast bit, eight bits of workchain, 256
bits of hash).
-/

namespace CellAbi

/-- Stores an optional address. -/
def Store.address : Option Address → Store
  | none => Store.word 0 2
  | some (.standard a) => do
    Store.word 2 2
    Store.bit false
    Store.int a.workchain.toInt 8
    Store.bytes a.hash.bytes 256
  | some (.external a) => do
    Store.word 1 2
    Store.word a.bits.toUInt64 9
    Store.nat a.value a.bits

namespace Load

/-- Runs a load of cell content as part of loading an address. -/
def liftCell {α : Type} (step : Load α) : EStateM AddressError Slice α :=
  step.adaptExcept .cell

/-- Loads an optional address. -/
def address : EStateM AddressError Slice (Option Address) := do
  match (← liftCell (word 2)).toNat with
  | 0 => return none
  | 1 =>
    let bits := (← liftCell (word 9)).toNat
    let value ← liftCell (nat bits)
    match ExternalAddress.new value bits with
    | .ok a => return some (.external a)
    | .error e => throw e
  | 2 =>
    if ← liftCell bit then throw (.unsupportedTag 2)
    let workchain := (← liftCell (signedWord 8)).toInt32
    match Digest.ofBytes? (← liftCell (bytes 256)) with
    | some hash => return some (.standard ⟨workchain, hash⟩)
    | none => throw (.cell (.bitUnderflow 256 0))
  | tag => throw (.unsupportedTag tag)

end Load

end CellAbi
