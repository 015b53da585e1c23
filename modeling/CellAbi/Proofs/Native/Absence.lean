import CellAbi.Proofs.Native.Conversion
import CellAbi.Proofs.Value.Reading

/-!
# Absence

Null stands for an optional that is absent, and for one that is there and has an absent one in it.
A native option of an option keeps the two apart, so its dynamic value does not tell all of it.  What
it tells is the flat native value: wherever something is absent, at whatever level of options, the
flat value has none.

    flat (.option (.option .bool)) (some none) = none
-/

namespace CellAbi

namespace SortedMap

variable {κ α β : Type} [Ord κ]

/-- The map with every value replaced. -/
def mapValues (f : α → β) (m : SortedMap κ α) : SortedMap κ β :=
  ⟨m.entries.map fun e => (e.1, f e.2), Sorted.ascending_map f m.ascending⟩

theorem mapValues_eq_self {f : α → α} (h : ∀ a, f a = a) (m : SortedMap κ α) :
    m.mapValues f = m := by
  refine SortedMap.ext ((List.map_congr_left fun e _ => ?_).trans (List.map_id _))
  rw [h, id]

end SortedMap

namespace NativeType

/-- Something is there, at every level of an option. -/
def present : (t : NativeType) → t.Carrier → Bool
  | option type, x => x.any (present type)
  | integer, _ | byte, _ | bool, _ | text, _ | cell, _ | address, _ | standardAddress, _ | value, _
  | list _, _ | map _ _, _ | tuple _, _ => true

mutual

/-- The native value with none wherever nothing is there at some level of an option. -/
def flat : (t : NativeType) → t.Carrier → t.Carrier
  | option type, x => (x.filter (present type)).map (flat type)
  | list element, xs => xs.map (flat element)
  | map _ type, m => m.mapValues (flat type)
  | tuple types, xs => flats types xs
  | integer, x => x
  | byte, x => x
  | bool, x => x
  | text, x => x
  | cell, x => x
  | address, x => x
  | standardAddress, x => x
  | value, x => x

def flats : (ts : List NativeType) → Carriers ts → Carriers ts
  | [], _ => ()
  | type :: rest, (x, xs) => (flat type x, flats rest xs)

end

end NativeType

namespace AbiType

variable {type inner : AbiType}

/-- The native type of what is there of an optional. -/
def held : AbiType → NativeType
  | .address false => .address
  | .address true => .standardAddress
  | type => native type

theorem native_optional_eq (inner : AbiType) : native (.optional inner) = .option (held inner) := by
  cases inner with
  | address strict => cases strict <;> rfl
  | _ => rfl

theorem native_address_eq (strict : Bool) :
    native (.address strict) = .option (held (.address strict)) := by
  cases strict <;> rfl

theorem held_cases {P : NativeType → AbiType → Prop}
    (haddress : ∀ strict, P (held (.address strict)) (.address strict))
    (hnative : P inner.native inner) : P (held inner) inner := by
  cases inner with
  | address strict => exact haddress strict
  | _ => exact hnative

/-- `U` is the type, or a part of it whose values are native values themselves: none of a tuple with
too many components, and no key. -/
inductive NativePart (U : AbiType) : AbiType → Prop
  | self : NativePart U U
  | inner {inner : AbiType} (h : NativePart U inner) : NativePart U (.optional inner)
  | item {element : AbiType} (h : NativePart U element) : NativePart U (.array element)
  | value {key value : AbiType} (h : NativePart U value) : NativePart U (.map key value)
  | field {components : List (String × AbiType)} {c : String × AbiType}
    (hlen : components.length ≤ maxArity) (hc : c ∈ components) (h : NativePart U c.2) :
    NativePart U (.tuple components)

/-- Tuples with native tuple types name their components differently. -/
def NativeNames (type : AbiType) : Prop :=
  ∀ components, components.length ≤ maxArity → NativePart (.tuple components) type →
    components.Pairwise fun a b => a.1 ≠ b.1

theorem NativePart.distinctNames {U : AbiType} (h : NativePart U type) :
    type.DistinctNames → U.DistinctNames := by
  induction h with
  | self => exact id
  | inner _ ih =>
    intro hnames
    cases hnames with
    | optional hinner => exact ih hinner
  | item _ ih =>
    intro hnames
    cases hnames with
    | array helement => exact ih helement
  | value _ ih =>
    intro hnames
    cases hnames with
    | map _ hvalue => exact ih hvalue
  | field _ hc _ ih =>
    intro hnames
    cases hnames with
    | tuple _ hcomponents => exact ih (hcomponents _ hc)

theorem NativeNames.of_distinctNames (h : type.DistinctNames) : NativeNames type := by
  intro components _ hpart
  cases hpart.distinctNames h with
  | tuple hpairwise _ => exact hpairwise

end AbiType

end CellAbi
