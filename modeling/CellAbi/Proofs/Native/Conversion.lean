import Mathlib.Data.List.Forall2
import CellAbi.Native.Convert
import CellAbi.Proofs.Outcome
import CellAbi.Proofs.Value.Agreement

/-!
# Single conversions

What each conversion between native and dynamic values says when it succeeds, and which conversion
the native type of a type has.

    toValue m (.map key value) = .ok v ↔
      ∃ entries, m.entries.mapM (toEntry key value) = .ok entries ∧ v = .map entries
                                                                           (`toValue_map_eq_ok`, …)
    native (.map key value) = .map k (native value)    where the keys are of type `k`  (`native_map`)
-/

namespace CellAbi

open ToValue OfValue

variable {α κ : Type} {type inner : AbiType}

/-! ## Plain types -/

theorem toValue_value_eq_ok {v w : Value} :
    toValue v type = .ok w ↔ v.conforms type = .ok () ∧ w = v := by
  show (v.conforms type >>= fun _ => pure v) = .ok w ↔ _
  rw [Outcome.bind_pure_eq_ok]
  exact ⟨fun ⟨_, h⟩ => h, fun h => ⟨(), h⟩⟩

theorem toValue_int_eq_ok {i : Int} {v : Value} :
    toValue i type = .ok v ↔ type.checkInteger i = .ok () ∧ v = .int i := by
  show (type.checkInteger i >>= fun _ => pure (Value.int i)) = .ok v ↔ _
  rw [Outcome.bind_pure_eq_ok]
  exact ⟨fun ⟨_, h⟩ => h, fun h => ⟨(), h⟩⟩

/-! ## Options -/

theorem ofValue_optional [OfValue α] {v : Value} (hne : v ≠ .null) (inner : AbiType) :
    (ofValue v (.optional inner) : Except AbiError (Option α)) = (ofValue v inner).map some := by
  cases v with
  | null => exact absurd rfl hne
  | _ => rfl

theorem ofValue_address [OfValue α] {v : Value} (hne : v ≠ .null) (strict : Bool) :
    (ofValue v (.address strict) : Except AbiError (Option α)) =
      (ofValue v (.address strict)).map some := by
  cases v with
  | null => exact absurd rfl hne
  | _ => rfl

theorem toValue_none_eq_ok [ToValue α] {v : Value} :
    toValue (none : Option α) type = .ok v ↔ type.isNullable = true ∧ v = .null := by
  show (if type.isNullable then Except.ok Value.null else .error _) = .ok v ↔ _
  split
  · next h => exact ⟨fun hv => ⟨h, (Except.ok.inj hv).symm⟩, fun hv => by rw [hv.2]⟩
  · next h => exact iff_of_false nofun fun hv => h hv.1

/-! ## Byte strings -/

theorem ofValue_int_byte (i : Int) (type : AbiType) :
    (ofValue (.int i) type : Except AbiError UInt8) =
      if 0 ≤ i ∧ i < 256 then .ok (UInt8.ofNat i.toNat) else .error (.outOfRange i (.uint 8)) := rfl

theorem checkInteger_byte {i : Int} :
    AbiType.checkInteger (.uint 8) i = .ok () ↔ 0 ≤ i ∧ i < 256 := by
  show (if 0 ≤ i ∧ i < 2 ^ 8 then Except.ok () else .error _) = .ok () ↔ _
  split
  · next h => exact iff_of_true rfl h
  · next h => exact iff_of_false nofun h

theorem byte_range (b : UInt8) : 0 ≤ (b.toNat : Int) ∧ (b.toNat : Int) < 256 := by
  have := b.toNat_lt
  omega

theorem ofValue_byte (b : UInt8) : ofValue (.int b.toNat) (.uint 8) = .ok b := by
  rw [ofValue_int_byte, if_pos (byte_range b), Int.toNat_natCast, UInt8.ofNat_toNat]

theorem toValue_byte (b : UInt8) : toValue b (.uint 8) = .ok (.int b.toNat) :=
  toValue_int_eq_ok.2 ⟨checkInteger_byte.2 (byte_range b), rfl⟩

theorem byteOf_byte (b : UInt8) : byteOf b = .ok b := by
  rw [byteOf, Outcome.bind_eq_ok]
  exact ⟨.int b.toNat, toValue_byte b, ofValue_byte b⟩

/-- Bytes are checked one by one and stay what they are. -/
theorem toValue_bytes_eq_ok {bs : List UInt8} {length : Option Nat} {v : Value} :
    toValue bs (.bytes length) = .ok v ↔
      Value.conforms (.bytes length) (.bytes bs) = .ok () ∧ v = .bytes bs := by
  show (bs.mapM byteOf >>= fun bs => toValue (Value.bytes bs) (.bytes length)) = .ok v ↔ _
  rw [Outcome.mapM_eq_self fun b _ => byteOf_byte b]
  exact toValue_value_eq_ok

theorem ofValue_bytes (bs : List UInt8) (length : Option Nat) :
    ofValue (.bytes bs) (.bytes length) = .ok bs :=
  Outcome.mapM_eq_self fun b _ => ofValue_byte b

/-! ## Maps -/

/-- The native entry that an entry of a map is converted to. -/
def ofEntry [OfValue κ] [OfValue α] (key value : AbiType) (e : Value × Value) :
    Except AbiError (κ × α) := do
  return (← ofValue e.1 key, ← ofValue e.2 value)

/-- The entry of a map that a native entry is converted to. -/
def toEntry [ToValue κ] [ToValue α] (key value : AbiType) (p : κ × α) :
    Except AbiError (Value × Value) := do
  return (← toValue p.1 key, ← toValue p.2 value)

theorem ofEntry_eq_ok [OfValue κ] [OfValue α] {key value : AbiType} {e : Value × Value}
    {p : κ × α} :
    ofEntry key value e = .ok p ↔ ofValue e.1 key = .ok p.1 ∧ ofValue e.2 value = .ok p.2 := by
  rw [ofEntry, Outcome.bind_eq_ok]
  simp only [Outcome.bind_pure_eq_ok]
  constructor
  · rintro ⟨k, hk, a, ha, rfl⟩
    exact ⟨hk, ha⟩
  · rintro ⟨hk, ha⟩
    exact ⟨p.1, hk, p.2, ha, rfl⟩

theorem toEntry_eq_ok [ToValue κ] [ToValue α] {key value : AbiType} {p : κ × α}
    {e : Value × Value} :
    toEntry key value p = .ok e ↔ toValue p.1 key = .ok e.1 ∧ toValue p.2 value = .ok e.2 := by
  rw [toEntry, Outcome.bind_eq_ok]
  simp only [Outcome.bind_pure_eq_ok]
  constructor
  · rintro ⟨k, hk, a, ha, rfl⟩
    exact ⟨hk, ha⟩
  · rintro ⟨hk, ha⟩
    exact ⟨e.1, hk, e.2, ha, rfl⟩

theorem ofValue_map_eq_ok [Ord κ] [Std.TransOrd κ] [OfValue κ] [OfValue α] {key value : AbiType}
    {entries : List (Value × Value)} {m : SortedMap κ α} :
    ofValue (.map entries) (.map key value) = .ok m ↔
      ∃ es, entries.mapM (ofEntry key value) = .ok es ∧ m = .ofList es :=
  Outcome.bind_pure_eq_ok

theorem toValue_map_eq_ok [Ord κ] [ToValue κ] [ToValue α] {key value : AbiType}
    {m : SortedMap κ α} {v : Value} :
    toValue m (.map key value) = .ok v ↔
      ∃ entries, m.entries.mapM (toEntry key value) = .ok entries ∧ v = .map entries :=
  Outcome.bind_pure_eq_ok

/-! ## Tuples -/

theorem tupleComponents_eq_ok {arity : Nat} {components : List (String × AbiType)} :
    tupleComponents type arity = .ok components ↔
      type = .tuple components ∧ components.length = arity := by
  cases type with
  | tuple cs =>
    show (if cs.length = arity then Except.ok cs else .error _) = .ok components ↔ _
    split
    · next hlen =>
      constructor
      · intro h
        obtain rfl := Except.ok.inj h
        exact ⟨rfl, hlen⟩
      · rintro ⟨h, -⟩
        cases h
        rfl
    · next hlen =>
      refine iff_of_false nofun ?_
      rintro ⟨h, hlen'⟩
      cases h
      exact hlen hlen'
  | _ => exact iff_of_false nofun fun h => nomatch h.1

namespace NativeType

variable {t : NativeType} {ts : List NativeType} {c : String × AbiType}
  {cs : List (String × AbiType)} {fields : List (String × Value)}

theorem toFields_cons_eq_ok {x : t.Carrier} {xs : Carriers ts} :
    toFields (t :: ts) (x, xs) (c :: cs) = .ok fields ↔
      ∃ v rest, ToValue.toValue x c.2 = .ok v ∧ toFields ts xs cs = .ok rest ∧
        fields = (c.1, v) :: rest := by
  rw [toFields, Outcome.bind_eq_ok]
  simp only [Outcome.bind_pure_eq_ok]
  constructor
  · rintro ⟨v, hv, rest, hrest, rfl⟩
    exact ⟨v, rest, hv, hrest, rfl⟩
  · rintro ⟨v, rest, hv, hrest, rfl⟩
    exact ⟨v, hv, rest, hrest, rfl⟩

theorem ofFields_cons_eq_ok {x : t.Carrier} {xs : Carriers ts} :
    ofFields (t :: ts) (c :: cs) fields = .ok (x, xs) ↔
      ∃ v, Sorted.lookup c.1 fields = some v ∧ OfValue.ofValue v c.2 = .ok x ∧
        ofFields ts cs (Sorted.erase c.1 fields) = .ok xs := by
  rw [ofFields]
  cases Sorted.lookup c.1 fields with
  | none => exact iff_of_false nofun fun ⟨v, hv, _⟩ => nomatch hv
  | some v =>
    simp only [Outcome.bind_eq_ok]
    constructor
    · rintro ⟨x', hx, xs', hxs, h⟩
      cases h
      exact ⟨v, rfl, hx, hxs⟩
    · rintro ⟨v', hv, hx, hxs⟩
      cases hv
      exact ⟨x, hx, xs, hxs, rfl⟩

/-- The fields have the names of the components. -/
theorem names_of_toFields (hlen : cs.length = ts.length) {xs : Carriers ts}
    (h : toFields ts xs cs = .ok fields) : fields.map Prod.fst = cs.map Prod.fst := by
  induction ts generalizing cs fields with
  | nil =>
    obtain rfl := List.length_eq_zero_iff.1 hlen
    obtain rfl := Except.ok.inj h
    rfl
  | cons t ts ih =>
    cases cs with
    | nil => cases hlen
    | cons c cs =>
      obtain ⟨x, xs⟩ := xs
      obtain ⟨v, rest, -, hrest, rfl⟩ := toFields_cons_eq_ok.1 h
      rw [List.map_cons, List.map_cons, ih (Nat.succ.inj hlen) hrest]

/-- A tuple is converted if the type is one of as many components and its parts are. -/
theorem toValue_tuple_eq_ok {xs : Carriers ts} {v : Value} :
    (tuple ts).toValue.toValue xs type = .ok v ↔
      ∃ cs fields, type = .tuple cs ∧ cs.length = ts.length ∧ toFields ts xs cs = .ok fields ∧
        v = .tuple (Sorted.ofList fields) := by
  show (tupleComponents type ts.length >>= fun cs => _) = .ok v ↔ _
  rw [Outcome.bind_eq_ok]
  simp only [Outcome.bind_pure_eq_ok, tupleComponents_eq_ok]
  constructor
  · rintro ⟨cs, ⟨htype, hlen⟩, fields, hfields, hv⟩
    exact ⟨cs, fields, htype, hlen, hfields, hv⟩
  · rintro ⟨cs, fields, htype, hlen, hfields, hv⟩
    exact ⟨cs, ⟨htype, hlen⟩, fields, hfields, hv⟩

theorem ofValue_tuple_eq_ok {xs : Carriers ts} {fields : List (String × Value)} :
    (tuple ts).ofValue.ofValue (.tuple fields) (.tuple cs) = .ok xs ↔
      cs.length = ts.length ∧ ofFields ts cs fields = .ok xs := by
  show (tupleComponents (.tuple cs) ts.length >>= fun cs => ofFields ts cs fields) = .ok xs ↔ _
  rw [Outcome.bind_eq_ok]
  constructor
  · rintro ⟨cs', hcs, hxs⟩
    obtain ⟨htype, hlen⟩ := tupleComponents_eq_ok.1 hcs
    cases htype
    exact ⟨hlen, hxs⟩
  · rintro ⟨hlen, hxs⟩
    exact ⟨cs, tupleComponents_eq_ok.2 ⟨rfl, hlen⟩, hxs⟩

end NativeType

/-! ## The native type of an ABI type -/

namespace AbiType

theorem native_optional (h : ∀ strict, inner ≠ .address strict) :
    native (.optional inner) = .option (native inner) := by
  cases inner with
  | address strict => exact absurd rfl (h strict)
  | _ => rfl

theorem native_map {key value : AbiType} {k : KeyType} (h : nativeKey? key = some k) :
    native (.map key value) = .map k (native value) := by
  rw [native, h]

theorem native_tuple {components : List (String × AbiType)} (h : components.length ≤ maxArity) :
    native (.tuple components) = .tuple (natives components) := by
  rw [native, if_neg (Nat.not_lt.2 h)]

theorem native_wide {components : List (String × AbiType)} (h : maxArity < components.length) :
    native (.tuple components) = .value := by
  rw [native, if_pos h]

theorem length_natives (components : List (String × AbiType)) :
    (natives components).length = components.length := by
  induction components with
  | nil => rfl
  | cons c rest ih => rw [natives, List.length_cons, ih, List.length_cons]

theorem forall₂_natives {R : NativeType → String × AbiType → Prop}
    {components : List (String × AbiType)} (h : ∀ c ∈ components, R c.2.native c) :
    List.Forall₂ R (natives components) components := by
  induction components with
  | nil => exact .nil
  | cons c rest ih =>
    obtain ⟨hc, hrest⟩ := List.forall_mem_cons.1 h
    exact .cons hc (ih hrest)

/-- Keys of maps have native types of their own. -/
theorem exists_nativeKey {key : AbiType} (h : key.isScalarKey = true) :
    ∃ k : KeyType, key.nativeKey? = some k := by
  cases key with
  | integer | bool | string | bytes | address => exact ⟨_, rfl⟩
  | cell | array | optional | map | tuple => cases h

theorem plain_of_key {key : AbiType} {k : KeyType} (hk : key.nativeKey? = some k)
    {x : k.Carrier} {v : Value} (hx : toValue x key = .ok v) : v.isPlain = true ∧ v ≠ .null := by
  cases key with
  | integer =>
    obtain rfl := Option.some.inj hk
    obtain ⟨-, rfl⟩ := toValue_int_eq_ok.1 hx
    exact ⟨rfl, nofun⟩
  | bool | string =>
    obtain rfl := Option.some.inj hk
    obtain rfl := Except.ok.inj hx
    exact ⟨rfl, nofun⟩
  | bytes =>
    obtain rfl := Option.some.inj hk
    obtain ⟨-, rfl⟩ := toValue_bytes_eq_ok.1 hx
    exact ⟨rfl, nofun⟩
  | address =>
    obtain rfl := Option.some.inj hk
    obtain ⟨-, rfl⟩ := toValue_value_eq_ok.1 hx
    exact ⟨rfl, nofun⟩
  | cell | array | optional | map | tuple => cases hk

end AbiType

end CellAbi
