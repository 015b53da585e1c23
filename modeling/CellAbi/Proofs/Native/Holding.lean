import CellAbi.Proofs.AbiType.Legal
import CellAbi.Proofs.Native.Absence
import CellAbi.Proofs.Native.Key
import CellAbi.Proofs.Native.Order
import CellAbi.Proofs.Value.Proper
import CellAbi.Proofs.Value.Reading

/-!
# What native types hold

The native type of a type holds a value if the value is converted to it, and back to a value that
agrees.  Each way of building native types carries this over from its parts.  What is left out are
external addresses as keys, where the map itself has a native value: a tuple of too many components
stays dynamic with all that it has in it.

    (∀ item ∈ items, Holds α element item) → Holds (List α) (.array element) (.array items)
                                                                                 (`Holds.list`, …)
    (∃ x : type.native.Carrier, ofValue v type = .ok x) ↔ InternalKeys type v
                                                                          (`ofValue_native_iff`)
-/

namespace CellAbi

open ToValue OfValue

namespace Value

variable {type T U : AbiType} {u v w : Value}

/-! ## Exposed parts -/

/-- `w` is, or stands in, the value `v` of type `type` where the native value of `v` has one of the
declared type `U` for it.  Keys and the parts of tuples with too many components are not exposed. -/
inductive Exposed (U : AbiType) (w : Value) : AbiType → Value → Prop
  | self : Exposed U w U w
  | inner {inner : AbiType} {v : Value} (hne : v ≠ null) (h : Exposed U w inner v) :
    Exposed U w (.optional inner) v
  | item {element : AbiType} {items : List Value} {item : Value} (hitem : item ∈ items)
    (h : Exposed U w element item) : Exposed U w (.array element) (array items)
  | value {key value : AbiType} {entries : List (Value × Value)} {e : Value × Value}
    (he : e ∈ entries) (h : Exposed U w value e.2) : Exposed U w (.map key value) (map entries)
  | field {components : List (String × AbiType)} {fields : List (String × Value)}
    {c : String × AbiType} {v : Value} (hlen : components.length ≤ AbiType.maxArity)
    (hc : c ∈ components) (hv : Sorted.lookup c.1 fields = some v) (h : Exposed U w c.2 v) :
    Exposed U w (.tuple components) (tuple fields)

theorem Exposed.trans (h : Exposed U w T u) (hu : Exposed T u type v) : Exposed U w type v := by
  induction hu with
  | self => exact h
  | inner hne _ ih => exact .inner hne ih
  | item hitem _ ih => exact .item hitem ih
  | value he _ ih => exact .value he ih
  | field hlen hc hv _ ih => exact .field hlen hc hv ih

theorem Exposed.typed (h : Exposed U w type v) : Typed U w type v := by
  induction h with
  | self => exact .self
  | inner hne _ ih => exact .inner hne ih
  | item hitem _ ih => exact .item hitem ih
  | value he _ ih => exact .value he ih
  | field _ hc hv _ ih => exact .field hc hv ih

/-- Exposed tuples that have few enough components name them differently. -/
def UniqueNames (type : AbiType) (v : Value) : Prop :=
  ∀ components fields, components.length ≤ AbiType.maxArity →
    Exposed (.tuple components) (tuple fields) type v → components.Pairwise fun a b => a.1 ≠ b.1

/-- No key of an exposed map is an external address. -/
def InternalKeys (type : AbiType) (v : Value) : Prop :=
  ∀ key value entries, Exposed (.map key value) (map entries) type v →
    ∀ e ∈ entries, ∀ a, e.1 ≠ address (.external a)

theorem UniqueNames.part (h : UniqueNames type v) (hu : Exposed T u type v) :
    UniqueNames T u := fun components fields hlen htuple =>
  h components fields hlen (htuple.trans hu)

theorem InternalKeys.part (h : InternalKeys type v) (hu : Exposed T u type v) :
    InternalKeys T u := fun key value entries hmap => h key value entries (hmap.trans hu)

theorem Exposed.nativePart (h : Exposed U w type v) : AbiType.NativePart U type := by
  induction h with
  | self => exact .self
  | inner _ _ ih => exact .inner ih
  | item _ _ ih => exact .item ih
  | value _ _ ih => exact .value ih
  | field hlen hc _ _ ih => exact .field hlen hc ih

theorem UniqueNames.of_nativeNames (h : type.NativeNames) : UniqueNames type v :=
  fun components _ hlen htuple => h components hlen htuple.nativePart

/-- What is asked of a value of the type before its keys are looked at. -/
structure Faithful (type : AbiType) (v : Value) : Prop where
  conforms : conforms type v = .ok ()
  declared : Declared type v
  distinct : Distinct v
  names : UniqueNames type v

theorem Faithful.part (h : Faithful type v) (hu : Exposed T u type v) : Faithful T u where
  conforms := hu.typed.conforms h.conforms
  declared := hu.typed.declared h.declared
  distinct := h.distinct.part hu.typed.part
  names := h.names.part hu

end Value

open Value

/-! ## Holding -/

/-- The value is converted, and what it is converted to is converted back to one that agrees. -/
def Holds (α : Type) [ToValue α] [OfValue α] (type : AbiType) (v : Value) : Prop :=
  ∃ x : α, ofValue v type = .ok x ∧ ∃ w, toValue x type = .ok w ∧ Agrees v w

variable {α κ : Type} {type inner : AbiType} {v : Value}

theorem Exact.holds [ToValue α] [OfValue α] (h : Exact α type v) : Holds α type v := by
  obtain ⟨x, hof, hto⟩ := h
  exact ⟨x, hof, v, hto, agrees_self v⟩

/-- Dynamic values are held as they are. -/
theorem Holds.value (h : conforms type v = .ok ()) : Holds Value type v :=
  ⟨v, rfl, v, toValue_value_eq_ok.2 ⟨h, rfl⟩, agrees_self v⟩

theorem Holds.null [ToValue α] [OfValue α] (h : type.isNullable = true) :
    Holds (Option α) type .null :=
  ⟨none, rfl, .null, toValue_none_eq_ok.2 ⟨h, rfl⟩, agrees_self _⟩

theorem Holds.option [ToValue α] [OfValue α] (h : Holds α inner v)
    (hto : ∀ a : α, toValue (some a) type = toValue a inner)
    (hof : (ofValue v type : Except AbiError (Option α)) = (ofValue v inner).map some) :
    Holds (Option α) type v := by
  obtain ⟨x, hx, w, hw, hagrees⟩ := h
  refine ⟨some x, ?_, w, ?_, hagrees⟩
  · rw [hof, hx]
    rfl
  · rw [hto, hw]

theorem Holds.optional [ToValue α] [OfValue α] (h : v ≠ .null → Holds α inner v) :
    Holds (Option α) (.optional inner) v := by
  by_cases hne : v = .null
  · rw [hne]
    exact .null rfl
  · exact (h hne).option (fun _ => rfl) (ofValue_optional hne inner)

theorem Holds.nullable [ToValue α] [OfValue α] {strict : Bool}
    (h : v ≠ .null → Holds α (.address strict) v) : Holds (Option α) (.address strict) v := by
  by_cases hne : v = .null
  · rw [hne]
    exact .null rfl
  · exact (h hne).option (fun _ => rfl) (ofValue_address hne strict)

theorem Holds.list [ToValue α] [OfValue α] {items : List Value}
    (h : ∀ item ∈ items, Holds α inner item) :
    Holds (List α) (.array inner) (.array items) := by
  suffices ∃ xs : List α, items.mapM (fun v => ofValue v inner) = .ok xs ∧
      ∃ ws, xs.mapM (fun x => toValue x inner) = .ok ws ∧
        Agrees (.array items) (.array ws) by
    obtain ⟨xs, hxs, ws, hws, hagrees⟩ := this
    exact ⟨xs, hxs, .array ws, Outcome.bind_pure_eq_ok.2 ⟨ws, hws, rfl⟩, hagrees⟩
  induction items with
  | nil => exact ⟨[], rfl, [], rfl, agrees_self _⟩
  | cons item rest ih =>
    obtain ⟨hitem, hrest⟩ := List.forall_mem_cons.1 h
    obtain ⟨x, hx, w, hw, hhead⟩ := hitem
    obtain ⟨xs, hxs, ws, hws, htail⟩ := ih hrest
    exact ⟨x :: xs, Outcome.mapM_cons_eq_ok.2 ⟨x, xs, hx, hxs, rfl⟩, w :: ws,
      Outcome.mapM_cons_eq_ok.2 ⟨w, ws, hw, hws, rfl⟩, agrees_array_cons hhead htail⟩

/-- Keys that are given back exactly stay different, so no entry is lost. -/
theorem Holds.map [Ord κ] [Std.TransOrd κ] [Std.LawfulEqOrd κ] [ToValue κ] [OfValue κ] [ToValue α]
    [OfValue α] {key value : AbiType} {entries : List (Value × Value)}
    (hdistinct : entries.Pairwise fun d e => equal d.1 e.1 = false)
    (hkey : ∀ e ∈ entries, Exact κ key e.1) (hvalue : ∀ e ∈ entries, Holds α value e.2) :
    Holds (SortedMap κ α) (.map key value) (.map entries) := by
  have hread : ∀ e ∈ entries, ∃ p : κ × α, ofEntry key value e = .ok p := by
    intro e he
    obtain ⟨k, hk, -⟩ := hkey e he
    obtain ⟨a, ha, -⟩ := hvalue e he
    exact ⟨(k, a), ofEntry_eq_ok.2 ⟨hk, ha⟩⟩
  have hkeyBack : ∀ e ∈ entries, ∀ p : κ × α, ofEntry key value e = .ok p →
      toValue p.1 key = .ok e.1 := by
    intro e he p hp
    obtain ⟨k, hk, hback⟩ := hkey e he
    obtain rfl := Except.ok.inj (hk.symm.trans (ofEntry_eq_ok.1 hp).1)
    exact hback
  have hkeys : ∀ d ∈ entries, ∀ e ∈ entries, ∀ p q : κ × α, ofEntry key value d = .ok p →
      ofEntry key value e = .ok q → equal d.1 e.1 = false → p.1 ≠ q.1 := by
    intro d hd e he p q hp hq hne heq
    have hto := hkeyBack d hd p hp
    rw [heq, hkeyBack e he q hq] at hto
    rw [Except.ok.inj hto, equal_self] at hne
    cases hne
  have hback : ∀ e ∈ entries, ∀ p : κ × α, ofEntry key value e = .ok p →
      ∃ w, toEntry key value p = .ok w ∧ Agrees e.1 w.1 ∧ Agrees e.2 w.2 := by
    intro e he p hp
    obtain ⟨a, ha, w, hw, hagrees⟩ := hvalue e he
    obtain rfl := Except.ok.inj (ha.symm.trans (ofEntry_eq_ok.1 hp).2)
    exact ⟨(e.1, w), toEntry_eq_ok.2 ⟨hkeyBack e he p hp, hw⟩, agrees_self _, hagrees⟩
  obtain ⟨es, hes⟩ := Outcome.exists_mapM hread
  obtain ⟨ws, hws, hagrees⟩ := exists_agrees_map hes hdistinct hkeys hback
  exact ⟨.ofList es, ofValue_map_eq_ok.2 ⟨es, hes, rfl⟩, .map ws,
    toValue_map_eq_ok.2 ⟨ws, hws, rfl⟩, hagrees⟩

namespace NativeType

abbrev Holds (t : NativeType) (type : AbiType) (v : Value) : Prop := CellAbi.Holds t.Carrier type v

end NativeType

namespace AbiType

variable {components : List (String × AbiType)} {fields : List (String × Value)}

/-- Each component takes its own field, and its native value gives one that agrees. -/
theorem exists_ofFields (hnames : components.Pairwise fun a b => a.1 ≠ b.1)
    (h : ∀ c ∈ components, ∃ v, Sorted.lookup c.1 fields = some v ∧ c.2.native.Holds c.2 v) :
    ∃ xs, NativeType.ofFields (natives components) components fields = .ok xs ∧
      ∃ ws, NativeType.toFields (natives components) xs components = .ok ws ∧
        ∀ d ∈ ws, ∃ v, Sorted.lookup d.1 fields = some v ∧ Agrees v d.2 := by
  induction components generalizing fields with
  | nil => exact ⟨(), rfl, [], rfl, nofun⟩
  | cons c rest ih =>
    obtain ⟨hname, hnames⟩ := List.pairwise_cons.1 hnames
    obtain ⟨⟨v, hv, x, hx, w, hw, hagrees⟩, hrest⟩ := List.forall_mem_cons.1 h
    have herase : ∀ d ∈ rest,
        Sorted.lookup d.1 (Sorted.erase c.1 fields) = Sorted.lookup d.1 fields :=
      fun d hd => Sorted.lookup_erase (hname d hd).symm fields
    obtain ⟨xs, hxs, ws, hws, hback⟩ := ih hnames fun d hd => by
      rw [herase d hd]
      exact hrest d hd
    refine ⟨(x, xs), NativeType.ofFields_cons_eq_ok.2 ⟨v, hv, hx, hxs⟩, (c.1, w) :: ws,
      NativeType.toFields_cons_eq_ok.2 ⟨w, ws, hw, hws, rfl⟩, ?_⟩
    refine List.forall_mem_cons.2 ⟨⟨v, hv, hagrees⟩, fun d hd => ?_⟩
    obtain ⟨u, hu, hagrees⟩ := hback d hd
    exact ⟨u, Sorted.lookup_of_lookup_erase hu, hagrees⟩

theorem holds_tuple (hlen : components.length ≤ maxArity) (ha : Sorted.Ascending fields)
    (hdeclared : ∀ name, name ∈ fields.map Prod.fst ↔ name ∈ components.map Prod.fst)
    (hnames : components.Pairwise fun a b => a.1 ≠ b.1)
    (h : ∀ c ∈ components, ∃ v, Sorted.lookup c.1 fields = some v ∧ c.2.native.Holds c.2 v) :
    (native (.tuple components)).Holds (.tuple components) (.tuple fields) := by
  rw [native_tuple hlen]
  obtain ⟨xs, hxs, ws, hws, hback⟩ := exists_ofFields hnames h
  have hcount := (length_natives components).symm
  refine ⟨xs, NativeType.ofValue_tuple_eq_ok.2 ⟨hcount, hxs⟩, .tuple (Sorted.ofList ws),
    NativeType.toValue_tuple_eq_ok.2 ⟨components, ws, rfl, hcount, hws, rfl⟩, ?_⟩
  refine agrees_tuple_ofList ha (fun name => ?_) fun d hd => ?_
  · rw [hdeclared, NativeType.names_of_toFields hcount hws]
  · obtain ⟨v, hv, hagrees⟩ := hback d hd
    exact ⟨v, Sorted.mem_of_lookup hv, hagrees⟩

theorem holds_address : ∀ strict, conforms (.address strict) v = .ok () → v ≠ .null →
    (held (.address strict)).Holds (.address strict) v
  | false, h, hne => (Exact.address h hne).holds
  | true, h, hne => (Exact.standardAddress h hne (ne_external_of_strict h)).holds

/-- The native type of a legal type holds all of its values without external keys. -/
theorem holds_native (hlegal : type.Legal) (h : Faithful type v) (hkeys : InternalKeys type v) :
    type.native.Holds type v := by
  induction hlegal generalizing v with
  | integer => exact (Exact.int h.conforms).holds
  | bool => exact (Exact.bool h.conforms).holds
  | string => exact (Exact.string h.conforms).holds
  | bytes => exact (Exact.bytes h.conforms).holds
  | cell => exact (Exact.cell h.conforms).holds
  | address strict =>
    rw [native_address_eq]
    exact .nullable (holds_address strict h.conforms)
  | array _ ih =>
    have hconforms := h.conforms
    cases v with
    | array items =>
      exact .list fun item hi => ih (h.part (.item hi .self)) (hkeys.part (.item hi .self))
    | _ => simp only [conforms, reduceCtorEq] at hconforms
  | @optional inner _ ih =>
    rw [native_optional_eq]
    refine .optional fun hne => ?_
    have hinner : Faithful inner v := h.part (.inner hne .self)
    refine held_cases (P := fun t type => conforms type v = .ok () → t.Holds type v)
      (fun strict hconforms => holds_address strict hconforms hne)
      (fun _ => ih hinner (hkeys.part (.inner hne .self))) hinner.conforms
  | map hscalar _ _ _ ih =>
    have hconforms := h.conforms
    cases v with
    | map entries =>
      obtain ⟨k, hk⟩ := exists_nativeKey hscalar
      have hentry := conforms_map.1 hconforms
      rw [native_map hk]
      refine .map (h.distinct.keys _ (.self _)) (fun e he => ?_) fun e he => ?_
      · exact exact_key hk (hentry e he).2.1 (hentry e he).1 (hkeys _ _ _ .self e he)
      · exact ih (h.part (.value he .self)) (hkeys.part (.value he .self))
    | _ => simp only [conforms, reduceCtorEq] at hconforms
  | @tuple components _ _ ih =>
    have hconforms := h.conforms
    cases v with
    | tuple fields =>
      by_cases hlen : components.length ≤ maxArity
      · refine holds_tuple hlen (h.distinct.fields _ (.self _)) h.declared.1
          (h.names _ _ hlen .self) fun c hc => ?_
        obtain ⟨v, hv, -⟩ := conforms_tuple.1 hconforms c hc
        exact ⟨v, hv, ih c hc (h.part (.field hlen hc hv .self))
          (hkeys.part (.field hlen hc hv .self))⟩
      · rw [native_wide (Nat.not_le.1 hlen)]
        exact .value hconforms
    | _ => simp only [conforms, reduceCtorEq] at hconforms

/-! ## What is converted -/

theorem exists_ofValue_optional (hne : v ≠ .null)
    (h : ∃ x : (native (.optional inner)).Carrier, ofValue v (.optional inner) = .ok x) :
    ∃ x : inner.native.Carrier, ofValue v inner = .ok x := by
  by_cases haddress : ∃ strict, inner = .address strict
  · -- The native type has one option, be the address optional or not.
    have hsame : ∀ {α : Type} [OfValue α] {strict : Bool} {x : Option α},
        ofValue v (.optional (.address strict)) = .ok x → ofValue v (.address strict) = .ok x := by
      intro α _ strict x hx
      rwa [ofValue_address hne, ← ofValue_optional hne]
    obtain ⟨strict, rfl⟩ := haddress
    obtain ⟨x, hx⟩ := h
    cases strict with
    | false => exact ⟨x, hsame hx⟩
    | true => exact ⟨x, hsame hx⟩
  · rw [native_optional fun strict hstrict => haddress ⟨strict, hstrict⟩] at h
    obtain ⟨x, hx⟩ := h
    obtain ⟨y, hy, -⟩ := Outcome.map_eq_ok.1 ((ofValue_optional hne inner).symm.trans hx)
    exact ⟨y, hy⟩

theorem exists_ofValue_field (hnames : components.Pairwise fun a b => a.1 ≠ b.1)
    {xs : NativeType.Carriers (natives components)}
    (hxs : NativeType.ofFields (natives components) components fields = .ok xs)
    {c : String × AbiType} (hc : c ∈ components) (hv : Sorted.lookup c.1 fields = some v) :
    ∃ x : c.2.native.Carrier, ofValue v c.2 = .ok x := by
  induction components generalizing fields with
  | nil => cases hc
  | cons d rest ih =>
    obtain ⟨hname, hnames⟩ := List.pairwise_cons.1 hnames
    obtain ⟨x, xs⟩ := xs
    obtain ⟨u, hu, hx, hxs⟩ := NativeType.ofFields_cons_eq_ok.1 hxs
    rcases List.mem_cons.1 hc with rfl | hc
    · obtain rfl := Option.some.inj (hu.symm.trans hv)
      exact ⟨x, hx⟩
    · rw [← Sorted.lookup_erase (hname c hc).symm] at hv
      exact ih hnames hxs hc hv

/-- Where a value is converted, so are its exposed parts. -/
theorem exists_ofValue_part {U : AbiType} {w : Value} (h : Exposed U w type v) :
    type.Legal → UniqueNames type v → (∃ x : type.native.Carrier, ofValue v type = .ok x) →
      U.Legal ∧ ∃ x : U.native.Carrier, ofValue w U = .ok x := by
  induction h with
  | self => exact fun hlegal _ hx => ⟨hlegal, hx⟩
  | inner hne _ ih =>
    intro hlegal hnames hx
    cases hlegal with
    | optional hinner =>
      exact ih hinner (hnames.part (.inner hne .self)) (exists_ofValue_optional hne hx)
  | item hitem _ ih =>
    intro hlegal hnames hx
    cases hlegal with
    | array helement =>
      obtain ⟨xs, hxs⟩ := hx
      obtain ⟨x, -, hx⟩ := (Outcome.mapM_spec hxs).2.1 _ hitem
      exact ih helement (hnames.part (.item hitem .self)) ⟨x, hx⟩
  | value he _ ih =>
    intro hlegal hnames hx
    cases hlegal with
    | map hscalar _ hvalue =>
      obtain ⟨k, hk⟩ := exists_nativeKey hscalar
      rw [native_map hk] at hx
      obtain ⟨m, hm⟩ := hx
      obtain ⟨es, hes, -⟩ := ofValue_map_eq_ok.1 hm
      obtain ⟨p, -, hp⟩ := (Outcome.mapM_spec hes).2.1 _ he
      exact ih hvalue (hnames.part (.value he .self)) ⟨p.2, (ofEntry_eq_ok.1 hp).2⟩
  | field hlen hc hv _ ih =>
    intro hlegal hnames hx
    cases hlegal with
    | tuple _ hcomponents =>
      rw [native_tuple hlen] at hx
      obtain ⟨xs, hxs⟩ := hx
      obtain ⟨-, hxs⟩ := NativeType.ofValue_tuple_eq_ok.1 hxs
      exact ih (hcomponents _ hc) (hnames.part (.field hlen hc hv .self))
        (exists_ofValue_field (hnames _ _ hlen .self) hxs hc hv)

/-- Where a value is converted, no exposed key is an external address. -/
theorem internalKeys_of_ofValue (hlegal : type.Legal) (hnames : UniqueNames type v)
    (hx : ∃ x : type.native.Carrier, ofValue v type = .ok x) : InternalKeys type v := by
  intro key value entries hmap e he a
  obtain ⟨hlegal, hm⟩ := exists_ofValue_part hmap hlegal hnames hx
  cases hlegal with
  | map hscalar _ _ =>
    obtain ⟨k, hk⟩ := exists_nativeKey hscalar
    rw [native_map hk] at hm
    obtain ⟨m, hm⟩ := hm
    obtain ⟨es, hes, -⟩ := ofValue_map_eq_ok.1 hm
    obtain ⟨p, -, hp⟩ := (Outcome.mapM_spec hes).2.1 e he
    exact ne_external_of_key hk (ofEntry_eq_ok.1 hp).1 a

/-- The native type of a type that is read from a descriptor holds a value of the type iff no map
that has a native value itself has an external address as a key; this for values that have pairwise
different keys and exactly the declared fields, of names that tell them apart.  Whatever is
converted is converted back to an equal value. -/
theorem ofValue_native_iff {descriptor : String} {params : Option (List Param)}
    (hparse : parse descriptor params = .ok type) (hconforms : conforms type v = .ok ())
    (hdeclared : Declared type v) (hdistinct : Distinct v) (hnames : UniqueNames type v) :
    ((∃ x : type.native.Carrier, ofValue v type = .ok x) ↔ InternalKeys type v) ∧
      ∀ x : type.native.Carrier, ofValue v type = .ok x →
        ∃ w, toValue x type = .ok w ∧ equal v w = true ∧ equal w v = true := by
  have hlegal := legal_of_parse hparse
  have hholds := holds_native hlegal ⟨hconforms, hdeclared, hdistinct, hnames⟩
  have hkeys := internalKeys_of_ofValue hlegal hnames
  constructor
  · constructor
    · exact hkeys
    · intro h
      obtain ⟨x, hx, -⟩ := hholds h
      exact ⟨x, hx⟩
  · intro x hx
    obtain ⟨y, hy, w, hw, hagrees⟩ := hholds (hkeys ⟨x, hx⟩)
    obtain rfl := Except.ok.inj (hx.symm.trans hy)
    exact ⟨w, hw, hagrees⟩

/-- Two contracts that are not in the order of their addresses, one with a referrer that is outside
of the chain, one without. -/
def referrers : Value :=
  let account : Int32 → Value := fun workchain =>
    .address (.standard ⟨workchain, List.replicate 32 0, List.length_replicate⟩)
  .map [(account 0, .address (.external .none)), (account (-1), .null)]

theorem ofValue_native_iff_referrers :
    ∃ type, parse "map(address,optional(address))" none = .ok type ∧
      conforms type referrers = .ok () ∧ Declared type referrers ∧ Distinct referrers ∧
      UniqueNames type referrers ∧ InternalKeys type referrers ∧
      ∃ (x : type.native.Carrier) (w : Value), ofValue referrers type = .ok x ∧
        toValue x type = .ok w ∧ equal referrers w = true ∧ equal w referrers = true := by
  have haddress : ofDescriptor "address".toList none = .ok (.address false) :=
    ofDescriptor_plain rfl
  have hparse := ofDescriptor_map (d := "map(address,optional(address))".toList) rfl haddress rfl
    (ofDescriptor_optional rfl haddress)
  have hsound : Sound referrers := by
    simp [referrers, Sound, SoundEntries, equal]
  have hdeclared : Declared (.map (.address false) (.optional (.address false))) referrers := by
    simp [referrers, Declared]
  have hnames : UniqueNames (.map (.address false) (.optional (.address false))) referrers :=
    .of_nativeNames (.of_distinctNames (.map (.address _) (.optional (.address _))))
  have hdistinct := hsound.regular.distinct
  obtain ⟨hiff, hback⟩ := ofValue_native_iff hparse rfl hdeclared hdistinct hnames
  have hx : ∃ x : (native (.map (.address false) (.optional (.address false)))).Carrier,
      ofValue referrers (.map (.address false) (.optional (.address false))) = .ok x := ⟨_, rfl⟩
  have hkeys := hiff.1 hx
  obtain ⟨x, hx⟩ := hx
  obtain ⟨w, hw, hequal⟩ := hback x hx
  exact ⟨_, hparse, rfl, hdeclared, hdistinct, hnames, hkeys, x, w, hx, hw, hequal⟩

/-- An external address as a key. -/
def outsiders : Value := .map [(.address (.external .none), .int 1)]

/-- One field for two components of its name. -/
def shared : Value := .tuple [("a", .int 1)]

/-- External keys and components that share a name: no native value. -/
theorem ofValue_native_outsiders_shared :
    (∃ type, parse "map(address,uint8)" none = .ok type ∧ conforms type outsiders = .ok () ∧
      Declared type outsiders ∧ Distinct outsiders ∧
      ∀ x : type.native.Carrier, ofValue outsiders type ≠ .ok x) ∧
    ∃ type, parse "tuple" (some [⟨"a", "uint8", none, none⟩, ⟨"a", "uint8", none, none⟩]) =
        .ok type ∧ conforms type shared = .ok () ∧ Declared type shared ∧ Distinct shared ∧
      ∀ x : type.native.Carrier, ofValue shared type ≠ .ok x := by
  have huint : ofDescriptor "uint8".toList none = .ok (.uint 8) := ofDescriptor_plain rfl
  have houtsiders : Sound outsiders := by
    simp [outsiders, Sound, SoundEntries]
  have hshared : Sound shared := by
    simp [shared, Sound, SoundFields, Sorted.Ascending]
  constructor
  · have hparse := ofDescriptor_map (d := "map(address,uint8)".toList) rfl
      (ofDescriptor_plain rfl) rfl huint
    have hdeclared : Declared (.map (.address false) (.uint 8)) outsiders := by
      simp [outsiders, Declared, uint]
    refine ⟨_, hparse, rfl, hdeclared, houtsiders.regular.distinct, fun x hx => ?_⟩
    cases hx
  · have hparse := ofDescriptor_tuple (d := "tuple".toList) rfl
      (ofParams_cons (p := ⟨"a", "uint8", none, none⟩) huint
        (ofParams_cons (p := ⟨"a", "uint8", none, none⟩) huint ofParams_nil))
    have hdeclared : Declared (.tuple [("a", .uint 8), ("a", .uint 8)]) shared := by
      simp [shared, Declared, DeclaredAll, uint]
    refine ⟨_, hparse, rfl, hdeclared, hshared.regular.distinct, fun x hx => ?_⟩
    cases hx

end AbiType

end CellAbi
