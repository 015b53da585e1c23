import CellAbi.Proofs.AbiType.Levels
import CellAbi.Proofs.Native.Conversion
import CellAbi.Proofs.Value.Conformance

/-!
# Conformance of converted values

A conversion checks what it converts, but not all that a type asks for: a key of a map may be
converted to null, and where two components of a tuple have one name, the field of the last one is
kept.  These are the only gaps.  A value is clean for its type if no key in it is null and if the
fields of shared names conform to all the types that are declared for them.

    toValue x type = .ok v → (conforms type v = .ok () ↔ Clean type v)       (`conforms_toValue_iff`)
-/

namespace CellAbi

open ToValue OfValue

namespace Value

variable {type T U : AbiType} {u v w : Value}

/-- What the conversions leave unchecked. -/
structure Clean (type : AbiType) (v : Value) : Prop where
  keys : ∀ {key value entries}, Typed (.map key value) (map entries) type v →
    ∀ e ∈ entries, e.1 ≠ null
  fields : ∀ {components fields}, Typed (.tuple components) (tuple fields) type v →
    ∀ c ∈ components, ∀ d ∈ components, c.1 = d.1 → c.2 ≠ d.2 →
      ∀ u, Sorted.lookup c.1 fields = some u → conforms c.2 u = .ok ()

theorem Clean.part (h : Clean type v) (hu : Typed T u type v) : Clean T u where
  keys hmap := h.keys (hmap.trans hu)
  fields htuple := h.fields (htuple.trans hu)

/-- Values that conform are clean. -/
theorem Clean.of_conforms (h : conforms type v = .ok ()) : Clean type v where
  keys hmap e he := (conforms_map.1 (hmap.conforms h) e he).1
  fields htuple c hc d _ _ _ u hu := by
    obtain ⟨u', hu', hconforms⟩ := conforms_tuple.1 (htuple.conforms h) c hc
    obtain rfl := Option.some.inj (hu.symm.trans hu')
    exact hconforms

theorem conforms_int {i : Int} (h : type.checkInteger i = .ok ()) :
    conforms type (int i) = .ok () := by
  cases type with
  | integer signed width => rwa [conforms]
  | _ => cases h

end Value

open Value

/-- Whatever is converted to a clean value is converted to one that conforms. -/
def Conforming (α : Type) [ToValue α] : Prop :=
  ∀ (x : α) (type : AbiType) (v : Value), toValue x type = .ok v → Clean type v →
    conforms type v = .ok ()

variable {α κ : Type}

/-! ## Plain types -/

theorem Conforming.value : Conforming Value := by
  intro x type v hx _
  obtain ⟨hconforms, rfl⟩ := toValue_value_eq_ok.1 hx
  exact hconforms

theorem Conforming.int : Conforming Int := by
  intro x type v hx _
  obtain ⟨hcheck, rfl⟩ := toValue_int_eq_ok.1 hx
  exact conforms_int hcheck

theorem Conforming.byte : Conforming UInt8 := fun x => Conforming.int (x.toNat : Int)

theorem Conforming.bool : Conforming Bool := by
  intro x type v hx _
  cases type with
  | bool =>
    obtain rfl := Except.ok.inj hx
    rw [conforms]
  | _ => cases hx

theorem Conforming.string : Conforming String := by
  intro x type v hx _
  cases type with
  | string =>
    obtain rfl := Except.ok.inj hx
    rw [conforms]
  | _ => cases hx

theorem Conforming.cell : Conforming Cell := by
  intro x type v hx _
  cases type with
  | cell =>
    obtain rfl := Except.ok.inj hx
    rw [conforms]
  | _ => cases hx

theorem Conforming.address : Conforming Address := fun x => Conforming.value (.address x)

theorem Conforming.standardAddress : Conforming StandardAddress := fun x =>
  Conforming.address (.standard x)

/-! ## Composite types -/

theorem Conforming.option [ToValue α] (h : Conforming α) : Conforming (Option α) := by
  intro x type v hx hclean
  cases x with
  | none =>
    obtain ⟨hnullable, rfl⟩ := toValue_none_eq_ok.1 hx
    cases type with
    | optional | address => rw [conforms]
    | _ => cases hnullable
  | some a =>
    by_cases hopt : ∃ inner, type = .optional inner
    · obtain ⟨inner, rfl⟩ := hopt
      by_cases hne : v = .null
      · rw [hne, conforms]
      · exact conforms_optional_of (h a inner v hx (hclean.part (.inner hne .self)))
    · refine h a type v ?_ hclean
      cases type with
      | optional inner => exact absurd ⟨inner, rfl⟩ hopt
      | _ => exact hx

theorem Conforming.list [ToValue α] (h : Conforming α) : Conforming (List α) := by
  intro x type v hx hclean
  cases type with
  | array element =>
    obtain ⟨items, hitems, rfl⟩ := Outcome.bind_pure_eq_ok.1 hx
    refine conforms_array.2 fun item hi => ?_
    obtain ⟨a, -, ha⟩ := (Outcome.mapM_spec hitems).2.2 item hi
    exact h a element item ha (hclean.part (.item hi .self))
  | bytes length =>
    obtain ⟨bs, -, hx⟩ := Outcome.bind_eq_ok.1 hx
    exact Conforming.value _ _ _ hx hclean
  | _ => cases hx

theorem Conforming.map [Ord κ] [ToValue κ] [ToValue α] (hkey : Conforming κ)
    (hvalue : Conforming α) : Conforming (SortedMap κ α) := by
  intro x type v hx hclean
  cases type with
  | map key value =>
    obtain ⟨entries, hentries, rfl⟩ := toValue_map_eq_ok.1 hx
    refine conforms_map.2 fun e he => ⟨hclean.keys .self e he, ?_⟩
    obtain ⟨p, -, hp⟩ := (Outcome.mapM_spec hentries).2.2 e he
    obtain ⟨hk, ha⟩ := toEntry_eq_ok.1 hp
    exact ⟨hkey p.1 key e.1 hk (hclean.part (.key he .self)),
      hvalue p.2 value e.2 ha (hclean.part (.value he .self))⟩
  | _ => cases hx

namespace NativeType

abbrev Conforming (t : NativeType) : Prop := CellAbi.Conforming t.Carrier

/-- Each field is converted at the type of a component of its name. -/
theorem mem_of_toFields {ts : List NativeType} {cs : List (String × AbiType)} {xs : Carriers ts}
    {fields : List (String × Value)} (hlen : cs.length = ts.length)
    (h : toFields ts xs cs = .ok fields) :
    ∀ f ∈ fields, ∃ c ∈ cs, c.1 = f.1 ∧ ∃ t ∈ ts, ∃ x : t.Carrier,
      ToValue.toValue x c.2 = .ok f.2 := by
  induction ts generalizing cs fields with
  | nil =>
    obtain rfl := List.length_eq_zero_iff.1 hlen
    obtain rfl := Except.ok.inj h
    exact nofun
  | cons t ts ih =>
    cases cs with
    | nil => cases hlen
    | cons c cs =>
      obtain ⟨x, xs⟩ := xs
      obtain ⟨v, rest, hv, hrest, rfl⟩ := toFields_cons_eq_ok.1 h
      refine List.forall_mem_cons.2
        ⟨⟨c, List.mem_cons_self, rfl, t, List.mem_cons_self, x, hv⟩, fun f hf => ?_⟩
      obtain ⟨d, hd, hname, u, hu, y, hy⟩ := ih (Nat.succ.inj hlen) hrest f hf
      exact ⟨d, List.mem_cons_of_mem _ hd, hname, u, List.mem_cons_of_mem _ hu, y, hy⟩

end NativeType

theorem Conforming.tuple {types : List NativeType} (h : ∀ t ∈ types, t.Conforming) :
    (NativeType.tuple types).Conforming := by
  intro x type v hx hclean
  obtain ⟨components, fields, rfl, hlen, hfields, rfl⟩ := NativeType.toValue_tuple_eq_ok.1 hx
  refine conforms_tuple.2 fun c hc => ?_
  have hmem : c.1 ∈ fields.map Prod.fst := by
    rw [NativeType.names_of_toFields hlen hfields]
    exact List.mem_map_of_mem hc
  obtain ⟨⟨name, u⟩, hu, rfl⟩ := List.mem_map.1 (Sorted.mem_keys_ofList.2 hmem)
  have hlookup := (Sorted.lookup_eq_some (Sorted.ascending_ofList fields)).2 hu
  refine ⟨u, hlookup, ?_⟩
  -- The field of this name may be that of a later component.
  obtain ⟨d, hd, hname, t, ht, y, hy⟩ :=
    NativeType.mem_of_toFields hlen hfields _ (Sorted.mem_ofList hu)
  by_cases hsame : c.2 = d.2
  · rw [← hsame] at hy
    exact h t ht y c.2 u hy (hclean.part (.field hc hlookup .self))
  · exact hclean.fields .self c hc d hd hname.symm hsame u hlookup

/-! ## All native types -/

theorem KeyType.conforming : ∀ k : KeyType, Conforming k.Carrier
  | .integer => .int
  | .byte => .byte
  | .bool => .bool
  | .text => .string
  | .address => .address
  | .standardAddress => .standardAddress
  | .option k => .option k.conforming
  | .list k => .list k.conforming

namespace NativeType

mutual

theorem conforming : ∀ t : NativeType, t.Conforming
  | integer => .int
  | byte => .byte
  | bool => .bool
  | text => .string
  | cell => .cell
  | address => .address
  | standardAddress => .standardAddress
  | value => .value
  | option t => .option (conforming t)
  | list t => .list (conforming t)
  | map k t => .map k.conforming (conforming t)
  | tuple ts => CellAbi.Conforming.tuple (conformingAll ts)

theorem conformingAll : ∀ ts : List NativeType, ∀ t ∈ ts, t.Conforming
  | [] => nofun
  | t :: ts => List.forall_mem_cons.2 ⟨conforming t, conformingAll ts⟩

end

/-- What a native value of any type is converted to conforms to the ABI type, whichever it is, if
and only if it is clean. -/
theorem conforms_toValue_iff (t : NativeType) {x : t.Carrier} {type : AbiType} {v : Value}
    (hx : ToValue.toValue x type = .ok v) : conforms type v = .ok () ↔ Clean type v :=
  ⟨.of_conforms, conforming t x type v hx⟩

/-- A map with an absent key beside a present one is not clean. -/
theorem conforms_toValue_iff_optionKeys :
    ∃ (x : (map (.option .address) integer).Carrier) (v : Value),
      ToValue.toValue x (.map (.address false) (.uint 8)) = .ok v ∧
        (conforms (.map (.address false) (.uint 8)) v = .ok () ↔
          Clean (.map (.address false) (.uint 8)) v) ∧
        ¬ Clean (.map (.address false) (.uint 8)) v := by
  let x : (map (.option .address) integer).Carrier :=
    ⟨[(none, 2), (some (.external .none), 3)], List.pairwise_pair.2 rfl⟩
  have hx : ToValue.toValue x (.map (.address false) (.uint 8)) =
      .ok (.map [(.null, .int 2), (.address (.external .none), .int 3)]) := rfl
  refine ⟨x, _, hx, conforms_toValue_iff _ hx, fun hclean => ?_⟩
  exact hclean.keys .self _ List.mem_cons_self rfl

/-- Absent keys and components that share a name: what is converted does not conform. -/
theorem toValue_not_conforms :
    (AbiType.parse "map(address,uint8)" none = .ok (.map (.address false) (.uint 8)) ∧
      ∃ (x : (map (.option .address) integer).Carrier) (v : Value),
        ToValue.toValue x (.map (.address false) (.uint 8)) = .ok v ∧
          conforms (.map (.address false) (.uint 8)) v ≠ .ok ()) ∧
    (AbiType.parse "tuple" (some [⟨"a", "uint8", none, none⟩, ⟨"a", "bool", none, none⟩]) =
        .ok (.tuple [("a", .uint 8), ("a", .bool)]) ∧
      ∃ (x : (tuple [integer, bool]).Carrier) (v : Value),
        (tuple [integer, bool]).toValue.toValue x (.tuple [("a", .uint 8), ("a", .bool)]) = .ok v ∧
          conforms (.tuple [("a", .uint 8), ("a", .bool)]) v ≠ .ok ()) := by
  refine ⟨⟨?_, ⟨[(none, 2)], List.pairwise_singleton _ _⟩, _, rfl, nofun⟩,
    ⟨?_, (1, true, ()), _, rfl, nofun⟩⟩
  · exact AbiType.ofDescriptor_map (d := "map(address,uint8)".toList) rfl
      (AbiType.ofDescriptor_plain rfl) rfl (AbiType.ofDescriptor_plain rfl)
  · exact AbiType.ofDescriptor_tuple (d := "tuple".toList) rfl
      (AbiType.ofParams_cons (AbiType.ofDescriptor_plain rfl)
        (AbiType.ofParams_cons (AbiType.ofDescriptor_plain rfl) AbiType.ofParams_nil))

end NativeType

end CellAbi
