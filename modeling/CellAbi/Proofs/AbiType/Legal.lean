import CellAbi.Proofs.AbiType.Reading

/-!
# Types that descriptors denote

Not every type has a descriptor.  Integers have one of the widths of their family, byte strings of
fixed length 1 to 32 bytes, keys of maps are scalar and tuples have components.

    AbiType.parse descriptor components = .ok type → type.Legal                   (`legal_of_parse`)
-/

namespace CellAbi

/-- The widths of integer types. -/
def IntWidth.Legal (signed : Bool) : IntWidth → Prop
  | fixed n => 1 ≤ n ∧ n ≤ if signed then 257 else 256
  | var n => n = 16 ∨ n = 32

namespace AbiType

/-- The types that descriptors denote. -/
inductive Legal : AbiType → Prop
  | integer {signed : Bool} {width : IntWidth} (h : width.Legal signed) :
    Legal (.integer signed width)
  | bool : Legal .bool
  | string : Legal .string
  | bytes {length : Option Nat} (h : ∀ n, length = some n → 1 ≤ n ∧ n ≤ 32) : Legal (.bytes length)
  | cell : Legal .cell
  | address (strict : Bool) : Legal (.address strict)
  | array {element : AbiType} (h : Legal element) : Legal (.array element)
  | optional {inner : AbiType} (h : Legal inner) : Legal (.optional inner)
  | map {key value : AbiType} (hscalar : key.isScalarKey = true) (hkey : Legal key)
    (hvalue : Legal value) : Legal (.map key value)
  | tuple {components : List (String × AbiType)} (hne : components ≠ [])
    (h : ∀ c ∈ components, Legal c.2) : Legal (.tuple components)

/-! ## Descriptors denote legal types -/

open Grammar

variable {d : List Char} {type : AbiType}

theorem legal_of_scalar (h : Scalar d type) : type.Legal := by
  have hbytes : ∀ n : Nat, 1 ≤ n ∧ n ≤ 32 → (AbiType.bytes (some n)).Legal := fun n hn =>
    .bytes fun m hm => Option.some.inj hm ▸ hn
  cases h with
  | int hn h => exact .integer h
  | uint hn h => exact .integer h
  | varint hn h => exact .integer h
  | varuint hn h => exact .integer h
  | fixedBytes hn h => exact hbytes _ h
  | bool => exact .bool
  | string => exact .string
  | cell => exact .cell
  | address => exact .address false
  | standardAddress => exact .address true
  | bytes => exact .bytes nofun

theorem legal_of_key (h : Key d type) : type.isScalarKey = true ∧ type.Legal := by
  cases h with
  | padded hfront hback h hcell => exact ⟨h.isScalarKey hcell, legal_of_scalar h⟩

mutual

theorem legal_of_denotes : ∀ {components d type}, Denotes components d type → type.Legal
  | _, _, _, .padded _ _ h => legal_of_bare h

theorem legal_of_bare : ∀ {components d type}, Bare components d type → type.Legal
  | _, _, _, .array h => .array (legal_of_denotes h)
  | _, _, _, .optional h => .optional (legal_of_denotes h)
  | _, _, _, .map hkey hvalue =>
    .map (legal_of_key hkey).1 (legal_of_key hkey).2 (legal_of_denotes hvalue)
  | _, _, _, .scalar h => legal_of_scalar h
  | _, _, _, .tuple h => .tuple (by cases h; exact List.cons_ne_nil _ _) (legal_of_components h)

theorem legal_of_components : ∀ {ps components}, Components ps components →
    ∀ c ∈ components, Legal c.2
  | _, _, .nil => fun _ hc => absurd hc List.not_mem_nil
  | _, _, .cons h hrest =>
    List.forall_mem_cons.2 ⟨legal_of_denotes h, legal_of_components hrest⟩

end

/-- Every type that is read from a descriptor is legal. -/
theorem legal_of_parse {descriptor : String} {components : Option (List Param)} {type : AbiType}
    (h : parse descriptor components = .ok type) : type.Legal :=
  legal_of_denotes (ofDescriptor_eq_ok_iff.1 h)

end AbiType

end CellAbi
