import CellAbi.Proofs.AbiType.Grammar
import CellAbi.Proofs.AbiType.Levels

/-!
# Descriptors are read by their grammar

    parse descriptor components = .ok type ↔ Denotes components descriptor.toList type
                                                                           (`parse_iff_denotes`)
    Denotes components d type ↔ Bare components (trim d) type          (`denotes_iff_bare_trim`)

The type of a derivation is determined by the descriptor.  The derivation is not, as blanks before
an array may stand at its own level or at that of its elements; they can always stand at its own.
-/

namespace CellAbi

open Text Grammar

namespace AbiType

variable {d : List Char} {components : Option (List Param)} {type : AbiType}

/-! ## What is derived is read -/

/-- Blanks at the ends of a descriptor make no difference. -/
theorem ofDescriptor_congr {d' : List Char} (h : trim d = trim d')
    (components : Option (List Param)) :
    ofDescriptor d components = ofDescriptor d' components := by
  rw [ofDescriptor_eq, ofDescriptor_eq, h]

theorem ofDescriptor_of_scalar (h : Scalar d type) (components : Option (List Param)) :
    ofDescriptor d components = .ok type :=
  ofDescriptor_plain (by rw [h.trim_eq, Form.of_scalar h])

theorem ofDescriptor_of_key {k : List Char} {key : AbiType} (h : Key k key) :
    ofDescriptor k none = .ok key ∧ key.isScalarKey = true := by
  cases h with
  | padded hfront hback h hcell =>
    rw [ofDescriptor_congr (trim_pad hfront hback _)]
    exact ⟨ofDescriptor_of_scalar h none, h.isScalarKey hcell⟩

/-- An array is read by its element, behind whatever blanks. -/
theorem ofDescriptor_brackets (d : List Char) (components : Option (List Param)) :
    ofDescriptor (d ++ "[]".toList) components = do
      return array (← ofDescriptor d components) := by
  obtain ⟨d', htrim, hd⟩ := exists_trim_append (p := "[]".toList) (c := '[') rfl (by decide)
    (x := ']') (by decide) (by decide) d
  rw [ofDescriptor_eq, htrim, Form.of_array]
  simp only [ofDescriptor_congr hd]

/-- A text between a word and its closing parenthesis has no blanks at its ends. -/
theorem trim_enclosed {word : List Char} {c : Char} (hhead : word.head? = some c)
    (hc : isBlank c = false) (d : List Char) :
    trim (word ++ d ++ ")".toList) = word ++ d ++ ")".toList := by
  refine trim_of_ends (c := c) ?_ hc (x := ')') (by rw [List.getLast?_append]; rfl) (by decide)
  rw [List.append_assoc, List.head?_append, hhead]
  rfl

theorem ofDescriptor_enclosed (d : List Char) (components : Option (List Param)) :
    ofDescriptor ("optional(".toList ++ d ++ ")".toList) components = do
      return optional (← ofDescriptor d components) := by
  rw [ofDescriptor_eq, trim_enclosed (c := 'o') rfl (by decide), Form.of_optional]

/-- A map is read by its key, which gets no components, and then by its value. -/
theorem ofDescriptor_separated {k : List Char} (hk : Form.Passes 0 k) (d : List Char)
    (components : Option (List Param)) :
    ofDescriptor ("map(".toList ++ (k ++ ",".toList ++ d) ++ ")".toList) components = do
      let key ← ofDescriptor k none
      if !key.isScalarKey then throw (.unsupportedMapKey key.toText)
      return map key (← ofDescriptor d components) := by
  rw [ofDescriptor_eq, trim_enclosed (c := 'm') rfl (by decide), Form.of_map hk]

mutual

/-- What the grammar derives is read as the type. -/
theorem ofDescriptor_of_denotes : ∀ {components d type}, Denotes components d type →
    ofDescriptor d components = .ok type
  | _, _, _, .padded hfront hback h => by
    rw [ofDescriptor_congr (trim_pad hfront hback _)]
    exact ofDescriptor_of_bare h

theorem ofDescriptor_of_bare : ∀ {components d type}, Bare components d type →
    ofDescriptor d components = .ok type
  | components, _, _, .array h => by
    rw [ofDescriptor_brackets, ofDescriptor_of_denotes h]
    rfl
  | components, _, _, .optional h => by
    rw [ofDescriptor_enclosed, ofDescriptor_of_denotes h]
    rfl
  | components, _, _, .map hkey hvalue => by
    obtain ⟨hread, hscalar⟩ := ofDescriptor_of_key hkey
    rw [ofDescriptor_separated hkey.passes, hread, ofDescriptor_of_denotes hvalue]
    show (if !AbiType.isScalarKey _ then _ else _) = _
    rw [hscalar]
    rfl
  | components, _, _, .scalar h => ofDescriptor_of_scalar h components
  | _, _, _, .tuple h => ofDescriptor_tuple rfl (ofParams_of_components h)

theorem ofParams_of_components : ∀ {ps components}, Components ps components →
    ofParams ps = .ok components
  | _, _, .nil => ofParams_nil
  | _, _, .cons h hrest => ofParams_cons (ofDescriptor_of_denotes h) (ofParams_of_components hrest)

end

/-! ## What is read is derived -/

theorem denotes_of_bare {core : List Char} (hcore : trim d = core) (h : Bare components core type) :
    Denotes components d type := by
  obtain ⟨front, back, hfront, hback, hd⟩ := exists_eq_pad d
  rw [hd, hcore]
  exact .padded hfront hback h

/-- All blanks at the ends of a descriptor can stand outside of the rule for its outermost level.
Only an array can have them in front of it at another level, that of its elements. -/
theorem bare_trim_of_denotes : ∀ {components d type}, Denotes components d type →
    Bare components (trim d) type
  | _, _, _, .padded hfront hback h => by
    rw [trim_pad hfront hback]
    cases h with
    | array h =>
      obtain ⟨d', htrim, hd⟩ := exists_trim_append (p := "[]".toList) (c := '[') rfl (by decide)
        (x := ']') (by decide) (by decide) _
      rw [htrim]
      exact .array (denotes_of_bare hd (bare_trim_of_denotes h))
    | optional h =>
      rw [trim_enclosed (c := 'o') rfl (by decide)]
      exact .optional h
    | map hkey hvalue =>
      rw [trim_enclosed (c := 'm') rfl (by decide)]
      exact .map hkey hvalue
    | scalar h =>
      rw [h.trim_eq]
      exact .scalar h
    | tuple h => exact .tuple h

theorem denotes_iff_bare_trim : Denotes components d type ↔ Bare components (trim d) type :=
  ⟨bare_trim_of_denotes, denotes_of_bare rfl⟩

/-- Of the grammar, only the scalars but cells are keys. -/
theorem key_of_denotes {k : List Char} {key : AbiType} (h : Denotes none k key)
    (hscalar : key.isScalarKey = true) : Key k key := by
  cases h with
  | padded hfront hback h =>
    cases h with
    | scalar h => exact .padded hfront hback h fun hcell => by cases hcell; cases hscalar
    | array => cases hscalar
    | optional => cases hscalar
    | map => cases hscalar

/-- A type that is read is derived; an error is about a descriptor. -/
def Read (d : List Char) (components : Option (List Param)) : Except AbiError AbiType → Prop :=
  Outcome.Ends (Denotes components d) (·.isDescriptorError = true)

def ReadAll (ps : List Param) : Except AbiError (List (String × AbiType)) → Prop :=
  Outcome.Ends (Components ps) (·.isDescriptorError = true)

/-- By the recursion of reading; at every level the form of the descriptor names the rule. -/
theorem read_ofDescriptor :
    (∀ d components, Read d components (ofDescriptor d components)) ∧
      ∀ ps, ReadAll ps (ofParams ps) := by
  have hform : ∀ {d f}, Form.of (trim d) = f → f.Describes (trim d) := by
    rintro d f rfl
    exact Form.describes_of (trim d)
  refine ofDescriptor.mutual_induct
    (fun d components => Read d components (ofDescriptor d components))
    (fun ps => ReadAll ps (ofParams ps))
    ?array ?optional ?map ?tupleNone ?tupleNil ?tuple ?plain ?refused ?nil ?cons
  case array =>
    intro d components _ element h _ ih
    rw [ofDescriptor_eq, h]
    exact ih.bind fun t ht => denotes_of_bare (hform h) (.array ht)
  case optional =>
    intro d components _ inner h _ ih
    rw [ofDescriptor_eq, h]
    exact ih.bind fun t ht => denotes_of_bare (hform h) (.optional ht)
  case map =>
    intro d components _ k value h _ _ ihkey ihvalue
    rw [ofDescriptor_eq, h]
    refine ihkey.bind fun key hkey => ?_
    cases hscalar : key.isScalarKey with
    | false => rfl
    | true =>
      exact ihvalue.bind fun v hv =>
        denotes_of_bare (hform h) (.map (key_of_denotes hkey hscalar) hv)
  case tupleNone =>
    intro d _ h
    rw [ofDescriptor_eq, h]
    rfl
  case tupleNil =>
    intro d _ h
    rw [ofDescriptor_eq, h]
    rfl
  case tuple =>
    intro d _ h p ps ih
    rw [ofDescriptor_eq, h]
    exact ih.bind fun cs hcs => denotes_of_bare (hform h) (.tuple hcs)
  case plain =>
    intro d components _ t h
    rw [ofDescriptor_eq, h]
    exact denotes_of_bare rfl (.scalar (hform h))
  case refused =>
    intro d components _ cause h
    rw [ofDescriptor_eq, h]
    exact hform h
  case nil =>
    rw [ofParams]
    exact .nil
  case cons =>
    intro p ps ihp ihps
    rw [ofParams]
    exact ihp.bind fun t ht => ihps.bind fun rest hrest => .cons ht hrest

theorem ofDescriptor_eq_ok_iff :
    ofDescriptor d components = .ok type ↔ Denotes components d type := by
  refine ⟨fun h => ?_, ofDescriptor_of_denotes⟩
  have hread := read_ofDescriptor.1 d components
  rw [h] at hread
  exact hread

/-- A descriptor is read iff the grammar derives it, as the one type that it derives; every error is
about a descriptor. -/
theorem parse_iff_denotes (descriptor : String) (components : Option (List Param)) :
    (∀ type, parse descriptor components = .ok type ↔
      Denotes components descriptor.toList type) ∧
    (∀ type type', Denotes components descriptor.toList type →
      Denotes components descriptor.toList type' → type = type') ∧
    ∀ e, parse descriptor components = .error e → e.isDescriptorError = true := by
  refine ⟨fun type => ofDescriptor_eq_ok_iff, fun type type' h h' => ?_, fun e he => ?_⟩
  · have hread := ofDescriptor_of_denotes h
    rw [ofDescriptor_of_denotes h'] at hread
    exact (Except.ok.inj hread).symm
  · have hread := read_ofDescriptor.1 descriptor.toList components
    rw [show ofDescriptor descriptor.toList components = .error e from he] at hread
    exact hread

end AbiType

end CellAbi
