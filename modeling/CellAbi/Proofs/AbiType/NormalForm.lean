import CellAbi.Proofs.AbiType.Legal
import CellAbi.Proofs.Text.Numeral

/-!
# The schema form of types

A type is written as a descriptor and components, and read back from them.  What it is written as is
a normal form: the one descriptor of the type without blanks and leading zeros.

    Bare type.params? type.toText.toList type                                       (`bare_toText`)
    (type.toParam name).abiType = .ok type                                      (`abiType_toParam`)
    type.toText = descriptor ↔ Normal descriptor.toList                    (`schema_form_of_parse`)
-/

namespace CellAbi

open Text

namespace Grammar

/-- A text without blanks and without leading zeros. -/
structure Normal (text : List Char) : Prop where
  unblank : ∀ c ∈ text, isBlank c = false
  unpadded : ¬ LeadingZero text

variable {front back digits : List Char} {n : Nat}

/-- Normality is that of the parts, where no run of digits goes on from one into the next. -/
theorem normal_append
    (hapart : front.getLast?.any Char.isDigit = false ∨ back.head?.any Char.isDigit = false) :
    Normal (front ++ back) ↔ Normal front ∧ Normal back := by
  constructor
  · rintro ⟨hblank, hzero⟩
    rw [leadingZero_append hapart, not_or] at hzero
    obtain ⟨hfront, hback⟩ := List.forall_mem_append.1 hblank
    exact ⟨⟨hfront, hzero.1⟩, ⟨hback, hzero.2⟩⟩
  · rintro ⟨hfront, hback⟩
    refine ⟨List.forall_mem_append.2 ⟨hfront.unblank, hback.unblank⟩, ?_⟩
    rw [leadingZero_append hapart]
    exact not_or.2 ⟨hfront.unpadded, hback.unpadded⟩

theorem Normal.of_word (hblank : front.any isBlank = false) (hzero : '0' ∉ front) :
    Normal front :=
  ⟨fun c hc => Bool.eq_false_iff.2 (List.any_eq_false.1 hblank c hc), not_leadingZero hzero⟩

theorem numeral_toDigits (n : Nat) : Numeral (Nat.toDigits 10 n) n :=
  ⟨Nat.toDigits_ne_nil, fun _ => isDigit_of_mem, Nat.ofDigitChars_ten_toDigits⟩

theorem normal_toDigits (hn : 0 < n) : Normal (Nat.toDigits 10 n) :=
  ⟨fun _ hc => not_isBlank_of_isDigit (isDigit_of_mem hc), not_leadingZero_toDigits hn⟩

theorem Numeral.toDigits_eq (hn : Numeral digits n) (h : Normal digits) :
    Nat.toDigits 10 n = digits := by
  obtain ⟨hne, hdigit, rfl⟩ := hn
  exact toDigits_ofDigitChars hne hdigit fun hhead => h.unpadded (leadingZero_of_head hhead)

theorem bare_denotes {components : Option (List Param)} {d : List Char} {type : AbiType}
    (h : Bare components d type) : Denotes components d type := by
  have hnil : Blank [] := fun _ hc => absurd hc List.not_mem_nil
  have hpad := Denotes.padded hnil hnil h
  rwa [List.nil_append, List.append_nil] at hpad

/-- Without blanks, nothing stands around the text. -/
theorem Normal.pad_eq {core : List Char} (hfront : Blank front) (hback : Blank back)
    (h : Normal (front ++ core ++ back)) : front ++ core ++ back = core := by
  have hnil : ∀ {text}, Blank text → (∀ c ∈ text, isBlank c = false) → text = [] := by
    intro text hblank hunblank
    refine List.eq_nil_iff_forall_not_mem.2 fun c hc => Bool.false_ne_true ?_
    rw [← hunblank c hc, hblank c hc]
  obtain ⟨hunblank, hunblank'⟩ := List.forall_mem_append.1 h.unblank
  rw [hnil hfront (List.forall_mem_append.1 hunblank).1, hnil hback hunblank', List.nil_append,
    List.append_nil]

end Grammar

namespace AbiType

open Grammar

variable {type : AbiType}

/-! ## What a type is written as denotes it -/

theorem toList_append_toString (word : String) (n : Nat) :
    (word ++ toString n).toList = word.toList ++ Nat.toDigits 10 n := by
  rw [String.toList_append, toList_toString_nat]

theorem toList_toText_integer (signed : Bool) (width : IntWidth) :
    (integer signed width).toText.toList = match signed, width with
      | true, .fixed n => "int".toList ++ Nat.toDigits 10 n
      | false, .fixed n => "uint".toList ++ Nat.toDigits 10 n
      | true, .var n => "varint".toList ++ Nat.toDigits 10 n
      | false, .var n => "varuint".toList ++ Nat.toDigits 10 n := by
  cases signed <;> cases width <;> exact toList_append_toString _ _

theorem toList_toText_bytes (n : Nat) :
    (bytes (some n)).toText.toList = "fixedbytes".toList ++ Nat.toDigits 10 n :=
  toList_append_toString _ _

theorem toList_toText_array (element : AbiType) :
    (array element).toText.toList = element.toText.toList ++ "[]".toList := String.toList_append

theorem toList_toText_optional (inner : AbiType) :
    (optional inner).toText.toList = "optional(".toList ++ inner.toText.toList ++ ")".toList := by
  rw [toText, String.toList_append, String.toList_append]

theorem toList_toText_map (key value : AbiType) :
    (map key value).toText.toList = "map(".toList ++
      (key.toText.toList ++ ",".toList ++ value.toText.toList) ++ ")".toList := by
  rw [toText]
  simp only [String.toList_append, List.append_assoc]

theorem params?_of_isScalarKey {key : AbiType} (h : key.isScalarKey = true) :
    key.params? = none := by
  cases key with
  | integer | bool | string | bytes | address => rfl
  | cell | array | optional | map | tuple => cases h

theorem scalar_integer {signed : Bool} {width : IntWidth} (h : width.Legal signed) :
    Scalar (integer signed width).toText.toList (integer signed width) := by
  rw [toList_toText_integer]
  cases signed <;> cases width
  · exact .uint (numeral_toDigits _) h
  · exact .varuint (numeral_toDigits _) h
  · exact .int (numeral_toDigits _) h
  · exact .varint (numeral_toDigits _) h

theorem components_componentParams {components : List (String × AbiType)}
    (h : ∀ c ∈ components, Denotes c.2.params? c.2.toText.toList c.2) :
    Components (componentParams components) components := by
  induction components with
  | nil => exact .nil
  | cons c rest ih =>
    obtain ⟨hc, hrest⟩ := List.forall_mem_cons.1 h
    exact .cons hc (ih hrest)

/-- A type is denoted by its own text, with its own components. -/
theorem bare_toText (h : type.Legal) : Bare type.params? type.toText.toList type := by
  induction h with
  | integer h => exact .scalar (scalar_integer h)
  | bool => exact .scalar .bool
  | string => exact .scalar .string
  | @bytes length h =>
    cases length with
    | none => exact .scalar .bytes
    | some n =>
      rw [toList_toText_bytes]
      exact .scalar (.fixedBytes (numeral_toDigits n) (h n rfl))
  | cell => exact .scalar .cell
  | address strict =>
    cases strict with
    | false => exact .scalar .address
    | true => exact .scalar .standardAddress
  | array _ ih =>
    rw [toList_toText_array]
    exact .array (bare_denotes ih)
  | optional _ ih =>
    rw [toList_toText_optional]
    exact .optional (bare_denotes ih)
  | map hscalar _ _ ihkey ihvalue =>
    rw [params?_of_isScalarKey hscalar] at ihkey
    rw [toList_toText_map]
    exact .map (key_of_denotes (bare_denotes ihkey) hscalar) (bare_denotes ihvalue)
  | @tuple components hne _ ih =>
    obtain ⟨c, rest, rfl⟩ := List.exists_cons_of_ne_nil hne
    exact .tuple (components_componentParams fun c hc => bare_denotes (ih c hc))

/-- A parameter of the type is read as the type. -/
theorem abiType_toParam (h : type.Legal) (name : String) : (type.toParam name).abiType = .ok type :=
  ofDescriptor_of_denotes (bare_denotes (bare_toText h))

/-! ## What a type is written as is normal -/

theorem normal_numeral {word : List Char} {n : Nat} (hword : Normal word)
    (hlast : word.getLast?.any Char.isDigit = false) (hn : 0 < n) :
    Normal (word ++ Nat.toDigits 10 n) :=
  (normal_append (.inl hlast)).2 ⟨hword, normal_toDigits hn⟩

/-- Parentheses around a text, and a word before them. -/
theorem normal_enclosed {word text : List Char} (hword : word.getLast?.any Char.isDigit = false) :
    Normal (word ++ text ++ ")".toList) ↔ Normal word ∧ Normal text := by
  rw [normal_append (.inr rfl), normal_append (.inl hword)]
  exact and_iff_left (.of_word rfl (by decide))

theorem normal_separated {key value : List Char} :
    Normal (key ++ ",".toList ++ value) ↔ Normal key ∧ Normal value := by
  have hlast : (key ++ ",".toList).getLast?.any Char.isDigit = false := by
    rw [List.getLast?_append]
    rfl
  rw [normal_append (.inl hlast), normal_append (.inr rfl)]
  exact and_congr_left' (and_iff_left (.of_word rfl (by decide)))

theorem normal_bracketed {element : List Char} :
    Normal (element ++ "[]".toList) ↔ Normal element := by
  rw [normal_append (.inr rfl)]
  exact and_iff_left (.of_word rfl (by decide))

theorem normal_toText (h : type.Legal) : Normal type.toText.toList := by
  induction h with
  | @integer signed width h =>
    rw [toList_toText_integer]
    cases signed <;> cases width <;>
      exact normal_numeral (.of_word rfl (by decide)) rfl
        (by simp only [IntWidth.Legal] at h; omega)
  | bool => exact .of_word rfl (by decide)
  | string => exact .of_word rfl (by decide)
  | @bytes length h =>
    cases length with
    | none => exact .of_word rfl (by decide)
    | some n =>
      rw [toList_toText_bytes]
      exact normal_numeral (.of_word rfl (by decide)) rfl (h n rfl).1
  | cell => exact .of_word rfl (by decide)
  | address strict => cases strict <;> exact .of_word rfl (by decide)
  | array _ ih => rwa [toList_toText_array, normal_bracketed]
  | optional _ ih =>
    rw [toList_toText_optional, normal_enclosed rfl]
    exact ⟨.of_word rfl (by decide), ih⟩
  | map _ _ _ ihkey ihvalue =>
    rw [toList_toText_map, normal_enclosed rfl, normal_separated]
    exact ⟨.of_word rfl (by decide), ihkey, ihvalue⟩
  | tuple =>
    show Normal "tuple".toList
    exact .of_word rfl (by decide)

/-! ## A normal descriptor is what its type is written as -/

theorem toText_of_scalar {d : List Char} (h : Scalar d type) (hnormal : Normal d) :
    type.toText.toList = d := by
  have hdigits : ∀ {word digits : List Char} {n : Nat}, Numeral digits n →
      word.getLast?.any Char.isDigit = false → Normal (word ++ digits) →
      word ++ Nat.toDigits 10 n = word ++ digits := fun hn hlast h => by
    rw [hn.toDigits_eq ((normal_append (.inl hlast)).1 h).2]
  cases h with
  | int hn => exact (toList_toText_integer _ _).trans (hdigits hn rfl hnormal)
  | uint hn => exact (toList_toText_integer _ _).trans (hdigits hn rfl hnormal)
  | varint hn => exact (toList_toText_integer _ _).trans (hdigits hn rfl hnormal)
  | varuint hn => exact (toList_toText_integer _ _).trans (hdigits hn rfl hnormal)
  | fixedBytes hn => exact (toList_toText_bytes _).trans (hdigits hn rfl hnormal)
  | bool => rfl
  | string => rfl
  | cell => rfl
  | address => rfl
  | standardAddress => rfl
  | bytes => rfl

theorem toText_of_key {k : List Char} {key : AbiType} (h : Key k key) (hnormal : Normal k) :
    key.toText.toList = k := by
  cases h with
  | padded hfront hback h =>
    have hpad := hnormal.pad_eq hfront hback
    rw [hpad] at hnormal ⊢
    exact toText_of_scalar h hnormal

mutual

theorem toText_of_denotes : ∀ {components d type}, Denotes components d type → Normal d →
    type.toText.toList = d
  | _, _, _, .padded hfront hback h, hnormal => by
    have hpad := hnormal.pad_eq hfront hback
    rw [hpad] at hnormal ⊢
    exact toText_of_bare h hnormal

theorem toText_of_bare : ∀ {components d type}, Bare components d type → Normal d →
    type.toText.toList = d
  | _, _, _, .array h, hnormal => by
    rw [toList_toText_array, toText_of_denotes h (normal_bracketed.1 hnormal)]
  | _, _, _, .optional h, hnormal => by
    rw [toList_toText_optional, toText_of_denotes h ((normal_enclosed rfl).1 hnormal).2]
  | _, _, _, .map hkey hvalue, hnormal => by
    obtain ⟨hk, hv⟩ := normal_separated.1 ((normal_enclosed rfl).1 hnormal).2
    rw [toList_toText_map, toText_of_key hkey hk, toText_of_denotes hvalue hv]
  | _, _, _, .scalar h, hnormal => toText_of_scalar h hnormal
  | _, _, _, .tuple _, _ => rfl

end

/-- A type that is read survives its schema form, and is written as the descriptor iff that is
normal. -/
theorem schema_form_of_parse {descriptor : String} {components : Option (List Param)}
    (h : parse descriptor components = .ok type) :
    (∀ name, (type.toParam name).abiType = .ok type) ∧
      (type.toText = descriptor ↔ Normal descriptor.toList) := by
  have hlegal := legal_of_parse h
  refine ⟨abiType_toParam hlegal, fun htext => htext ▸ normal_toText hlegal, fun hnormal => ?_⟩
  exact String.toList_inj.1 (toText_of_denotes (ofDescriptor_eq_ok_iff.1 h) hnormal)

/-- Maps to arrays of tuples with an optional tuple in them. -/
def nested : AbiType :=
  .map (.uint 8) (.array (.tuple [("a", .optional (.tuple [("b", .bool)]))]))

/-- A descriptor with a blank and a leading zero. -/
theorem schema_form_of_padded :
    parse "map(uint08, tuple[])"
        (some [⟨"a", "optional(tuple)", some [⟨"b", "bool", none, none⟩], none⟩]) = .ok nested ∧
      (nested.toParam "p").abiType = .ok nested ∧ nested.toText ≠ "map(uint08, tuple[])" := by
  have hparse : parse "map(uint08, tuple[])"
      (some [⟨"a", "optional(tuple)", some [⟨"b", "bool", none, none⟩], none⟩]) = .ok nested := by
    have hkey : ofDescriptor "uint08".toList none = .ok (.uint 8) := ofDescriptor_plain rfl
    have hb : ofDescriptor "bool".toList none = .ok .bool := ofDescriptor_plain rfl
    have ha : ofDescriptor "optional(tuple)".toList (some [⟨"b", "bool", none, none⟩]) =
        .ok (.optional (.tuple [("b", .bool)])) :=
      ofDescriptor_optional rfl (ofDescriptor_tuple rfl (ofParams_cons hb ofParams_nil))
    exact ofDescriptor_map (d := "map(uint08, tuple[])".toList) rfl hkey rfl
      (ofDescriptor_array rfl (ofDescriptor_tuple rfl (ofParams_cons ha ofParams_nil)))
  obtain ⟨hparam, htext⟩ := schema_form_of_parse hparse
  refine ⟨hparse, hparam "p", fun h => ?_⟩
  exact absurd ((htext.1 h).unblank ' ' (by decide)) (by decide)

end AbiType

end CellAbi
