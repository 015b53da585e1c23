import CellAbi.AbiType.Descriptor
import CellAbi.Proofs.Outcome

/-!
# Descriptors level by level

A descriptor is read by its form at the outermost level.

    Form.of (Text.trim d) = .array element → ofDescriptor element components = .ok type →
      ofDescriptor d components = .ok (array type)                         (`ofDescriptor_array`, …)
-/

namespace CellAbi

namespace AbiType

/-- Reading goes by the outermost level. -/
theorem ofDescriptor_eq (d : List Char) (components : Option (List Param)) :
    ofDescriptor d components = match Form.of (Text.trim d) with
      | .array element => do return array (← ofDescriptor element components)
      | .optional inner => do return optional (← ofDescriptor inner components)
      | .map key value => do
        let key ← ofDescriptor key none
        if !key.isScalarKey then throw (.unsupportedMapKey key.toText)
        return map key (← ofDescriptor value components)
      | .tuple =>
        match components with
        | none | some [] => throw (.missingComponents (String.ofList (Text.trim d)))
        | some (p :: ps) => do return tuple (← ofParams (p :: ps))
      | .plain type => return type
      | .refused cause => throw cause := by
  rw [ofDescriptor.eq_def]
  obtain _ | _ | ⟨p, ps⟩ := components
  all_goals split <;> next h => simp only [h]

variable {d : List Char} {components : Option (List Param)}

theorem ofDescriptor_plain {type : AbiType} (hform : Form.of (Text.trim d) = .plain type) :
    ofDescriptor d components = .ok type := by
  rw [ofDescriptor_eq, hform]
  rfl

theorem ofDescriptor_array {element : List Char} {type : AbiType}
    (hform : Form.of (Text.trim d) = .array element)
    (h : ofDescriptor element components = .ok type) :
    ofDescriptor d components = .ok (array type) := by
  rw [ofDescriptor_eq, hform]
  simp only [h]
  rfl

theorem ofDescriptor_optional {inner : List Char} {type : AbiType}
    (hform : Form.of (Text.trim d) = .optional inner)
    (h : ofDescriptor inner components = .ok type) :
    ofDescriptor d components = .ok (optional type) := by
  rw [ofDescriptor_eq, hform]
  simp only [h]
  rfl

theorem ofDescriptor_map {front back : List Char} {key value : AbiType}
    (hform : Form.of (Text.trim d) = .map front back) (hkey : ofDescriptor front none = .ok key)
    (hscalar : key.isScalarKey = true) (hvalue : ofDescriptor back components = .ok value) :
    ofDescriptor d components = .ok (map key value) := by
  rw [ofDescriptor_eq, hform]
  simp only [hkey]
  show (if !key.isScalarKey then _ else _) = _
  rw [hscalar, hvalue]
  rfl

theorem ofDescriptor_tuple {p : Param} {ps : List Param} {cs : List (String × AbiType)}
    (hform : Form.of (Text.trim d) = .tuple) (h : ofParams (p :: ps) = .ok cs) :
    ofDescriptor d (some (p :: ps)) = .ok (tuple cs) := by
  rw [ofDescriptor_eq, hform]
  simp only [h]
  rfl

theorem ofParams_nil : ofParams [] = .ok [] := by
  rw [ofParams]
  rfl

theorem ofParams_cons {p : Param} {ps : List Param} {type : AbiType}
    {cs : List (String × AbiType)} (h : ofDescriptor p.type.toList p.components = .ok type)
    (hrest : ofParams ps = .ok cs) : ofParams (p :: ps) = .ok ((p.name, type) :: cs) := by
  rw [ofParams, h, hrest]
  rfl

end AbiType

end CellAbi
