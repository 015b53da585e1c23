import CellAbi.Proofs.Native.Conversion
import CellAbi.Proofs.Value.Conformance

/-!
# Keys of native maps

A value of a scalar type is a key of the native key type, and back the same value, unless it is null
or an external address, for which there is no native key.

    Exact α type v := ∃ x, ofValue v type = .ok x ∧ toValue x type = .ok v
    conforms key v = .ok () → v ≠ .null → (∀ a, v ≠ .address (.external a)) →
      Exact k.Carrier key v                                                            (`exact_key`)
    ofValue v key = .ok x → ofValue w key = .ok x → v = w    for scalar `key`  (`eq_of_ofValue_key`)
-/

namespace CellAbi

open ToValue OfValue

/-! ## Values that are given back as they are -/

/-- The value is converted, and what it is converted to is converted back to it. -/
def Exact (α : Type) [ToValue α] [OfValue α] (type : AbiType) (v : Value) : Prop :=
  ∃ x : α, ofValue v type = .ok x ∧ toValue x type = .ok v

open Value

variable {type key : AbiType} {v : Value}

theorem Exact.int {signed : Bool} {width : IntWidth}
    (h : conforms (.integer signed width) v = .ok ()) : Exact Int (.integer signed width) v := by
  cases v <;> simp only [conforms, reduceCtorEq] at h
  exact ⟨_, rfl, toValue_int_eq_ok.2 ⟨h, rfl⟩⟩

theorem Exact.bool (h : conforms .bool v = .ok ()) : Exact Bool .bool v := by
  cases v <;> simp only [conforms, reduceCtorEq] at h
  exact ⟨_, rfl, rfl⟩

theorem Exact.string (h : conforms .string v = .ok ()) : Exact String .string v := by
  cases v <;> simp only [conforms, reduceCtorEq] at h
  exact ⟨_, rfl, rfl⟩

theorem Exact.cell (h : conforms .cell v = .ok ()) : Exact Cell .cell v := by
  cases v <;> simp only [conforms, reduceCtorEq] at h
  exact ⟨_, rfl, rfl⟩

theorem Exact.bytes {length : Option Nat} (h : conforms (.bytes length) v = .ok ()) :
    Exact (List UInt8) (.bytes length) v := by
  cases v with
  | bytes b => exact ⟨b, ofValue_bytes b length, toValue_bytes_eq_ok.2 ⟨h, rfl⟩⟩
  | _ => cases length <;> simp only [conforms, reduceCtorEq] at h

theorem Exact.address {strict : Bool} (h : conforms (.address strict) v = .ok ())
    (hne : v ≠ .null) : Exact Address (.address strict) v := by
  cases v with
  | null => exact absurd rfl hne
  | address a => exact ⟨a, rfl, toValue_value_eq_ok.2 ⟨h, rfl⟩⟩
  | _ => simp only [conforms, reduceCtorEq] at h

theorem Exact.standardAddress {strict : Bool} (h : conforms (.address strict) v = .ok ())
    (hne : v ≠ .null) (hinternal : ∀ a, v ≠ .address (.external a)) :
    Exact StandardAddress (.address strict) v := by
  cases v with
  | null => exact absurd rfl hne
  | address a =>
    cases a with
    | standard a => exact ⟨a, rfl, toValue_value_eq_ok.2 ⟨h, rfl⟩⟩
    | external a => exact absurd rfl (hinternal a)
  | _ => simp only [conforms, reduceCtorEq] at h

theorem AbiType.ne_external_of_strict (h : conforms (.address true) v = .ok ())
    (a : ExternalAddress) : v ≠ .address (.external a) := by
  rintro rfl
  cases conforms_address.1 h rfl

/-- Keys that are no external addresses have native keys. -/
theorem AbiType.exact_key {k : KeyType} (hk : key.nativeKey? = some k)
    (h : conforms key v = .ok ()) (hne : v ≠ .null) (hinternal : ∀ a, v ≠ .address (.external a)) :
    Exact k.Carrier key v := by
  cases key with
  | integer =>
    obtain rfl := Option.some.inj hk
    exact .int h
  | bool =>
    obtain rfl := Option.some.inj hk
    exact .bool h
  | string =>
    obtain rfl := Option.some.inj hk
    exact .string h
  | bytes =>
    obtain rfl := Option.some.inj hk
    exact .bytes h
  | address =>
    obtain rfl := Option.some.inj hk
    exact .standardAddress h hne hinternal
  | cell | array | optional | map | tuple => cases hk

/-- No native key stands for an external address. -/
theorem AbiType.ne_external_of_key {k : KeyType} (hk : key.nativeKey? = some k) {x : k.Carrier}
    (hx : ofValue v key = .ok x) (a : ExternalAddress) : v ≠ .address (.external a) := by
  rintro rfl
  cases key with
  | integer | bool | string | bytes | address =>
    obtain rfl := Option.some.inj hk
    cases hx
  | cell | array | optional | map | tuple => cases hk

/-! ## Keys are told apart -/

theorem eq_of_ofValue_int {i : Int} (h : ofValue v type = .ok i) : v = .int i := by
  cases v <;> cases h
  rfl

theorem eq_of_ofValue_byte {b : UInt8} (h : ofValue v type = .ok b) : v = .int b.toNat := by
  obtain ⟨i, hi, -⟩ := Outcome.bind_eq_ok.1 h
  obtain rfl := eq_of_ofValue_int hi
  rw [ofValue_int_byte] at h
  split at h
  · next hrange =>
    obtain rfl := Except.ok.inj h
    have hlt : i.toNat < 2 ^ 8 := by omega
    rw [UInt8.toNat_ofNat_of_lt' hlt, Int.toNat_of_nonneg hrange.1]
  · cases h

theorem eq_of_ofValue_bool {b : Bool} (h : ofValue v type = .ok b) : v = .bool b := by
  cases v <;> cases h
  rfl

theorem eq_of_ofValue_string {s : String} (h : ofValue v type = .ok s) : v = .string s := by
  cases v <;> cases h
  rfl

theorem eq_of_ofValue_address {a : Address} (h : ofValue v type = .ok a) : v = .address a := by
  cases v <;> cases h
  rfl

theorem eq_of_ofValue_standard {a : StandardAddress} (h : ofValue v type = .ok a) :
    v = .address (.standard a) := by
  obtain ⟨a', ha, h⟩ := Outcome.bind_eq_ok.1 h
  obtain rfl := eq_of_ofValue_address ha
  cases a' <;> cases h
  rfl

/-- Null is none, and all else is some. -/
theorem ofValue_option_eq_ok {α : Type} [OfValue α] (hscalar : key.isScalarKey = true)
    {x : Option α} (h : ofValue v key = .ok x) :
    (v = .null ∧ x = none) ∨ ∃ a, ofValue v key = .ok a ∧ x = some a := by
  by_cases hne : v = .null
  · subst hne
    exact .inl ⟨rfl, (Except.ok.inj h).symm⟩
  · have hsome : (ofValue v key : Except AbiError (Option α)) = (ofValue v key).map some := by
      cases key with
      | integer | bool | string | bytes | address =>
        cases v with
        | null => exact absurd rfl hne
        | _ => rfl
      | cell | array | optional | map | tuple => cases hscalar
    rw [hsome] at h
    obtain ⟨a, ha, rfl⟩ := Outcome.map_eq_ok.1 h
    exact .inr ⟨a, ha, rfl⟩

/-- A list is one of bytes. -/
theorem ofValue_list_eq_ok {α : Type} [OfValue α] (hscalar : key.isScalarKey = true)
    {xs : List α} (h : ofValue v key = .ok xs) :
    ∃ bs : List UInt8, v = .bytes bs ∧
      bs.mapM (fun b => (ofValue (.int b.toNat) (.uint 8) : Except AbiError α)) = .ok xs := by
  cases key with
  | bytes =>
    cases v with
    | bytes bs => exact ⟨bs, rfl, h⟩
    | _ => cases h
  | integer | bool | string | address => cases v <;> cases h
  | cell | array | optional | map | tuple => cases hscalar

/-- No two values of a scalar type are one native key, whatever the native type. -/
theorem AbiType.eq_of_ofValue_key : ∀ (k : KeyType) {key : AbiType} {v w : Value} {x : k.Carrier},
    key.isScalarKey = true → ofValue v key = .ok x → ofValue w key = .ok x → v = w
  | .integer, _, _, _, _, _, hv, hw => (eq_of_ofValue_int hv).trans (eq_of_ofValue_int hw).symm
  | .byte, _, _, _, _, _, hv, hw => (eq_of_ofValue_byte hv).trans (eq_of_ofValue_byte hw).symm
  | .bool, _, _, _, _, _, hv, hw => (eq_of_ofValue_bool hv).trans (eq_of_ofValue_bool hw).symm
  | .text, _, _, _, _, _, hv, hw => (eq_of_ofValue_string hv).trans (eq_of_ofValue_string hw).symm
  | .address, _, _, _, _, _, hv, hw =>
    (eq_of_ofValue_address hv).trans (eq_of_ofValue_address hw).symm
  | .standardAddress, _, _, _, _, _, hv, hw =>
    (eq_of_ofValue_standard hv).trans (eq_of_ofValue_standard hw).symm
  | .option type, _, _, _, _, hscalar, hv, hw => by
    obtain ⟨rfl, rfl⟩ | ⟨a, ha, rfl⟩ := ofValue_option_eq_ok hscalar hv
    · obtain ⟨rfl, -⟩ | ⟨_, -, h⟩ := ofValue_option_eq_ok hscalar hw
      · rfl
      · cases h
    · obtain ⟨-, h⟩ | ⟨b, hb, h⟩ := ofValue_option_eq_ok hscalar hw
      · cases h
      · cases h
        exact eq_of_ofValue_key type hscalar ha hb
  | .list element, _, _, _, _, hscalar, hv, hw => by
    obtain ⟨bs, rfl, hbs⟩ := ofValue_list_eq_ok hscalar hv
    obtain ⟨cs, rfl, hcs⟩ := ofValue_list_eq_ok hscalar hw
    refine congrArg Value.bytes (Outcome.mapM_inj (fun b c x hb hc => ?_) hbs hcs)
    have heq := eq_of_ofValue_key element rfl hb hc
    exact UInt8.toNat_inj.1 (Int.ofNat.inj (Value.int.inj heq))

end CellAbi
