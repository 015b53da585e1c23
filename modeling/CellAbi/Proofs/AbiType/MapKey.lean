import CellAbi.Proofs.AbiType.Reading

/-!
# Composite map keys

The key of a map is what stands before its first comma outside of parentheses, whatever follows.  It
is read without the components of the map, as these belong to the value: a key that ends in a tuple,
through arrays, optionals and the values of maps, is refused for want of components, and every other
composite key for being one.

    Denotes components d type → ofDescriptor d none =
      if type.params?.isNone then .ok type else .error (.missingComponents "tuple")
                                                               (`ofDescriptor_none_of_denotes`)
    parse k components = .ok key → key.isScalarKey = false →
      parse ("map(" ++ k ++ "," ++ v ++ ")") components = .error …      (`parse_map_of_composite`)
-/

namespace CellAbi

open Text Grammar

namespace AbiType

variable {d : List Char} {components : Option (List Param)} {type : AbiType}

/-! ## Reading without components -/

theorem params?_of_scalar (h : Scalar d type) : type.params? = none := by cases h <;> rfl

mutual

/-- Of what is read with components, the tuple that they belong to is missed without them. -/
theorem ofDescriptor_none_of_denotes : ∀ {components d type}, Denotes components d type →
    ofDescriptor d none =
      if type.params?.isNone then .ok type else .error (.missingComponents "tuple")
  | _, _, _, .padded hfront hback h => by
    rw [ofDescriptor_congr (trim_pad hfront hback _)]
    exact ofDescriptor_none_of_bare h

theorem ofDescriptor_none_of_bare : ∀ {components d type}, Bare components d type →
    ofDescriptor d none =
      if type.params?.isNone then .ok type else .error (.missingComponents "tuple")
  | _, _, _, @Bare.array _ _ element h => by
    rw [ofDescriptor_brackets, ofDescriptor_none_of_denotes h]
    show _ = if element.params?.isNone then _ else _
    cases element.params?.isNone <;> rfl
  | _, _, _, @Bare.optional _ _ inner h => by
    rw [ofDescriptor_enclosed, ofDescriptor_none_of_denotes h]
    show _ = if inner.params?.isNone then _ else _
    cases inner.params?.isNone <;> rfl
  | _, _, _, @Bare.map _ _ _ key value hkey hvalue => by
    obtain ⟨hread, hscalar⟩ := ofDescriptor_of_key hkey
    rw [ofDescriptor_separated hkey.passes, hread, ofDescriptor_none_of_denotes hvalue]
    show (if !key.isScalarKey then _ else _) = if value.params?.isNone then _ else _
    rw [hscalar]
    cases value.params?.isNone <;> rfl
  | _, _, _, .scalar h => by
    rw [ofDescriptor_of_scalar h, params?_of_scalar h]
    rfl
  | _, _, _, .tuple _ => by
    rw [ofDescriptor_eq]
    rfl

end

/-! ## Keys -/

/-- A map with a composite key is refused, whatever its value and its components: for its key, if no
tuple ends it, and for the components of that tuple otherwise. -/
theorem parse_map_of_composite {k : String} {key : AbiType} (h : parse k components = .ok key)
    (hkey : key.isScalarKey = false) (v : String) (others : Option (List Param)) :
    Form.of ("map(" ++ k ++ "," ++ v ++ ")").toList = .map k.toList v.toList ∧
      parse ("map(" ++ k ++ "," ++ v ++ ")") others =
        if key.params?.isNone then .error (.unsupportedMapKey key.toText)
        else .error (.missingComponents "tuple") := by
  have hdenotes := ofDescriptor_eq_ok_iff.1 h
  have htext : ("map(" ++ k ++ "," ++ v ++ ")").toList =
      "map(".toList ++ (k.toList ++ ",".toList ++ v.toList) ++ ")".toList := by
    simp only [String.toList_append, List.append_assoc]
  refine ⟨by rw [htext, Form.of_map hdenotes.passes], ?_⟩
  rw [parse, htext, ofDescriptor_separated hdenotes.passes, ofDescriptor_none_of_denotes hdenotes]
  cases key.params?.isNone with
  | true =>
    show (if !key.isScalarKey then _ else _) = _
    rw [hkey]
    rfl
  | false => rfl

/-- A comma in the key, a blank that its own text has not, and no value that is a descriptor. -/
theorem parse_map_of_composite_nested :
    parse "map(uint8, cell)[]" none = .ok (.array (.map (.uint 8) .cell)) ∧
      Form.of "map(map(uint8, cell)[],((,)".toList =
        .map "map(uint8, cell)[]".toList "((,".toList ∧
      parse "map(map(uint8, cell)[],((,)" none =
        .error (.unsupportedMapKey "map(uint8,cell)[]") := by
  have hkey : ofDescriptor "uint8".toList none = .ok (.uint 8) := ofDescriptor_plain rfl
  have hvalue : ofDescriptor " cell".toList none = .ok .cell := ofDescriptor_plain rfl
  have hparse : parse "map(uint8, cell)[]" none = .ok (.array (.map (.uint 8) .cell)) :=
    ofDescriptor_array rfl (ofDescriptor_map (d := "map(uint8, cell)".toList) rfl hkey rfl hvalue)
  obtain ⟨hform, herror⟩ := parse_map_of_composite hparse rfl "((," none
  exact ⟨hparse, hform, herror⟩

/-- The components that a tuple has by itself do not reach it as a key, and what is reported is that
they are missing. -/
theorem parse_map_tuple_misses_components :
    let components := some [⟨"a", "bool", none, none⟩]
    parse "tuple" components = .ok (.tuple [("a", .bool)]) ∧
      (AbiType.tuple [("a", .bool)]).isScalarKey = false ∧
      parse "map(tuple,bool)" components = .error (.missingComponents "tuple") := by
  have hbool : ofDescriptor "bool".toList none = .ok .bool := ofDescriptor_plain rfl
  have hkey : ofDescriptor "tuple".toList none = .error (.missingComponents "tuple") := by
    rw [ofDescriptor_eq]
    rfl
  refine ⟨ofDescriptor_tuple rfl (ofParams_cons hbool ofParams_nil), rfl, ?_⟩
  have hmap := ofDescriptor_separated (k := "tuple".toList) (Form.passes_of_plain (by decide))
    "bool".toList (some [⟨"a", "bool", none, none⟩])
  rw [hkey] at hmap
  exact hmap

end AbiType

end CellAbi
