import CellAbi.Proofs.AbiType.Legal
import CellAbi.Proofs.Native.Absence
import CellAbi.Proofs.Native.Order

/-!
# Native values and back

A native value that is converted to a dynamic one is given back by the conversion from it, but for
what is absent at an inner level of options: that is given back as none.  Where no part stays dynamic
it is given back by whatever agrees with that dynamic value, such as one that came back from JSON.
Each way of building native types carries this over from its parts, for either relation of values.

    RestoresAs R f element → RestoresAs R (List.map f) (.array element)    (`RestoresAs.list`, …)
    toValue x type = .ok v → ofValue v type = .ok (flat x)    at the native type of `type`
                                                                          (`restoresAs_native`)
    flat x = x    if no optional is directly inside of an optional                (`flat_native`)
-/

namespace CellAbi

open ToValue OfValue
open Value (Partwise partwise_eq)

/-- Values that are related to what the conversion to dynamic values yields are converted back. -/
def Restores (R : Value → Value → Prop) (α : Type) [ToValue α] [OfValue α] (type : AbiType) :
    Prop :=
  ∀ (x : α) (v w : Value), toValue x type = .ok v → R v w → ofValue w type = .ok x

/-- The same, but for what `f` does not keep of the native value. -/
def RestoresAs (R : Value → Value → Prop) {α : Type} [ToValue α] [OfValue α] (f : α → α)
    (type : AbiType) : Prop :=
  ∀ (x : α) (v w : Value), toValue x type = .ok v → R v w → ofValue w type = .ok (f x)

/-- What the conversion to dynamic values of the type yields is converted back to the same. -/
def RoundTrips (α : Type) [ToValue α] [OfValue α] (type : AbiType) : Prop :=
  ∀ (x : α) (v : Value), toValue x type = .ok v → ofValue v type = .ok x

/-- Nothing is converted to null. -/
def NeverNull (α : Type) [ToValue α] (type : AbiType) : Prop :=
  ∀ x : α, toValue x type ≠ .ok .null

/-- Just what lacks the property is converted to null. -/
def NullUnless {α : Type} [ToValue α] (p : α → Bool) (type : AbiType) : Prop :=
  ∀ (x : α) (v : Value), toValue x type = .ok v → (v ≠ .null ↔ p x = true)

variable {α κ : Type} {type inner : AbiType} {R : Value → Value → Prop} {f : α → α} {p : α → Bool}

theorem Restores.restoresAs [ToValue α] [OfValue α] (h : Restores R α type) (hf : ∀ x, f x = x) :
    RestoresAs R f type := by
  intro x v w hx hvw
  rw [hf, h x v w hx hvw]

theorem NeverNull.nullUnless [ToValue α] (h : NeverNull α type) (hp : ∀ x, p x = true) :
    NullUnless p type := by
  intro x v hx
  refine iff_of_true ?_ (hp x)
  rintro rfl
  exact h x hx

theorem RoundTrips.of_restores [ToValue α] [OfValue α] (h : Restores Eq α type) :
    RoundTrips α type := fun x v hx => h x v v hx rfl

/-! ## Plain types -/

/-- Dynamic values are restored by themselves alone. -/
theorem Restores.value (hR : ∀ v w, R v w → w = v) (type : AbiType) : Restores R Value type := by
  intro x v w hx hvw
  obtain ⟨-, rfl⟩ := toValue_value_eq_ok.1 hx
  obtain rfl := hR v w hvw
  rfl

theorem Restores.int (hR : Partwise R) (type : AbiType) : Restores R Int type := by
  intro x v w hx hvw
  obtain ⟨-, rfl⟩ := toValue_int_eq_ok.1 hx
  obtain rfl := hR.plain hvw rfl
  rfl

theorem Restores.bool (hR : Partwise R) : Restores R Bool .bool := by
  intro x v w hx hvw
  obtain rfl := Except.ok.inj hx
  obtain rfl := hR.plain hvw rfl
  rfl

theorem Restores.string (hR : Partwise R) : Restores R String .string := by
  intro x v w hx hvw
  obtain rfl := Except.ok.inj hx
  obtain rfl := hR.plain hvw rfl
  rfl

theorem Restores.cell (hR : Partwise R) : Restores R Cell .cell := by
  intro x v w hx hvw
  obtain rfl := Except.ok.inj hx
  obtain rfl := hR.plain hvw rfl
  rfl

theorem Restores.address (hR : Partwise R) (type : AbiType) : Restores R Address type := by
  intro x v w hx hvw
  obtain ⟨-, rfl⟩ := toValue_value_eq_ok.1 hx
  obtain rfl := hR.plain hvw rfl
  rfl

theorem Restores.standardAddress (hR : Partwise R) (type : AbiType) :
    Restores R StandardAddress type := by
  intro x v w hx hvw
  obtain ⟨-, rfl⟩ := toValue_value_eq_ok.1 hx
  obtain rfl := hR.plain hvw rfl
  rfl

theorem NeverNull.value (h : type.isNullable = false) : NeverNull Value type := by
  intro x hx
  obtain ⟨hconforms, rfl⟩ := toValue_value_eq_ok.1 hx
  cases type with
  | address | optional => cases h
  | bytes length => cases length <;> cases hconforms
  | _ => cases hconforms

theorem NeverNull.int (type : AbiType) : NeverNull Int type :=
  fun _ hx => nomatch (toValue_int_eq_ok.1 hx).2

theorem NeverNull.address (type : AbiType) : NeverNull Address type :=
  fun _ hx => nomatch (toValue_value_eq_ok.1 hx).2

theorem NeverNull.standardAddress (type : AbiType) : NeverNull StandardAddress type :=
  fun _ hx => nomatch (toValue_value_eq_ok.1 hx).2

/-! ## Options -/

theorem NullUnless.option [ToValue α] (h : NullUnless p inner)
    (hto : ∀ a : α, toValue (some a) type = toValue a inner) :
    NullUnless (fun x : Option α => x.any p) type := by
  intro x v hx
  cases x with
  | none =>
    obtain ⟨-, rfl⟩ := toValue_none_eq_ok.1 hx
    exact iff_of_false (· rfl) nofun
  | some a =>
    rw [hto] at hx
    exact h a v hx

/-- Null is left for what is not there, and what is there is converted as without the option. -/
theorem toValue_option_cases [ToValue α] (h : NullUnless p inner)
    (hto : ∀ a : α, toValue (some a) type = toValue a inner) {x : Option α} {v : Value}
    (hx : toValue x type = .ok v) :
    (v = .null ∧ x.filter p = none) ∨
      v ≠ .null ∧ ∃ a, x.filter p = some a ∧ toValue a inner = .ok v := by
  cases x with
  | none => exact .inl ⟨(toValue_none_eq_ok.1 hx).2, rfl⟩
  | some a =>
    rw [hto] at hx
    by_cases hnull : v = .null
    · have hp : p a = false := Bool.eq_false_iff.2 fun hp => (h a v hx).2 hp hnull
      exact .inl ⟨hnull, Option.filter_some_neg hp⟩
    · have hp : p a = true := (h a v hx).1 hnull
      exact .inr ⟨hnull, a, Option.filter_some_pos hp, hx⟩

theorem RestoresAs.option [ToValue α] [OfValue α] (hR : Partwise R) (h : RestoresAs R f inner)
    (hnull : NullUnless p inner) (hto : ∀ a : α, toValue (some a) type = toValue a inner)
    (hof : ∀ v : Value, v ≠ .null →
      (ofValue v type : Except AbiError (Option α)) = (ofValue v inner).map some) :
    RestoresAs R (fun x : Option α => (x.filter p).map f) type := by
  intro x v w hx hvw
  obtain ⟨rfl, hnone⟩ | ⟨hne, a, hsome, ha⟩ := toValue_option_cases hnull hto hx
  · obtain rfl := hR.plain hvw rfl
    simp only [hnone]
    rfl
  · have hne' : w ≠ .null := by
      rintro rfl
      exact hne (hR.null hvw)
    simp only [hsome]
    rw [hof w hne', h a v w ha hvw]
    rfl

theorem RestoresAs.optional [ToValue α] [OfValue α] (hR : Partwise R) (h : RestoresAs R f inner)
    (hnull : NullUnless p inner) :
    RestoresAs R (fun x : Option α => (x.filter p).map f) (.optional inner) :=
  .option hR h hnull (fun _ => rfl) fun _ hne => ofValue_optional hne inner

theorem RestoresAs.nullable [ToValue α] [OfValue α] {strict : Bool} (hR : Partwise R)
    (h : RestoresAs R f (.address strict)) (hnull : NullUnless p (.address strict)) :
    RestoresAs R (fun x : Option α => (x.filter p).map f) (.address strict) :=
  .option hR h hnull (fun _ => rfl) fun _ hne => ofValue_address hne strict

/-! ## Lists -/

theorem RestoresAs.list [ToValue α] [OfValue α] (hR : Partwise R) (h : RestoresAs R f inner) :
    RestoresAs R (List.map f) (.array inner) := by
  intro x v w hx hvw
  obtain ⟨items, hitems, rfl⟩ := Outcome.bind_pure_eq_ok.1 hx
  obtain ⟨ws, rfl, hpairs⟩ := hR.array hvw
  show ws.mapM (fun w => ofValue w inner) = .ok (x.map f)
  clear hx hvw
  induction hpairs generalizing x with
  | nil =>
    cases x with
    | nil => rfl
    | cons a x =>
      obtain ⟨_, _, -, -, hnil⟩ := Outcome.mapM_cons_eq_ok.1 hitems
      cases hnil
  | cons hhead _ ih =>
    cases x with
    | nil => cases hitems
    | cons a x =>
      obtain ⟨v, vs, hv, hvs, hcons⟩ := Outcome.mapM_cons_eq_ok.1 hitems
      cases hcons
      exact Outcome.mapM_cons_eq_ok.2 ⟨f a, x.map f, h a _ _ hv hhead, ih x hvs, rfl⟩

theorem NeverNull.list [ToValue α] (inner : AbiType) : NeverNull (List α) (.array inner) := by
  intro x hx
  obtain ⟨_, -, hx⟩ := Outcome.bind_pure_eq_ok.1 hx
  cases hx

theorem NeverNull.bytes [ToValue α] (length : Option Nat) :
    NeverNull (List α) (.bytes length) := by
  intro x hx
  obtain ⟨_, -, hx⟩ := Outcome.bind_eq_ok.1 hx
  cases (toValue_value_eq_ok.1 hx).2

theorem Restores.bytes (hR : Partwise R) (length : Option Nat) :
    Restores R (List UInt8) (.bytes length) := by
  intro x v w hx hvw
  obtain ⟨-, rfl⟩ := toValue_bytes_eq_ok.1 hx
  obtain rfl := hR.plain hvw rfl
  exact ofValue_bytes x length

/-! ## Maps -/

/-- Keys that are given back stay different. -/
theorem nodup_keys_of_toEntry [Ord κ] [Std.TransOrd κ] [Std.LawfulEqOrd κ] [ToValue κ] [OfValue κ]
    [ToValue α] {key : AbiType} (hkey : RoundTrips κ key) {m : SortedMap κ α}
    {entries : List (Value × Value)} (h : m.entries.mapM (toEntry key type) = .ok entries) :
    (entries.map Prod.fst).Nodup := by
  refine List.pairwise_map.2 ((Outcome.pairwise_mapM h fun p _ q _ d e hp hq => ?_).1
    (List.pairwise_map.1 (Sorted.nodup_keys m.ascending)))
  have hd := (toEntry_eq_ok.1 hp).1
  have he := (toEntry_eq_ok.1 hq).1
  refine not_congr ⟨fun heq => ?_, fun heq => ?_⟩
  · rw [heq, he] at hd
    exact (Except.ok.inj hd).symm
  · rw [heq] at hd
    exact Except.ok.inj ((hkey p.1 e.1 hd).symm.trans (hkey q.1 e.1 he))

/-- Each entry has its partner, from which it is given back. -/
theorem RestoresAs.map [Ord κ] [Std.TransOrd κ] [Std.LawfulEqOrd κ] [ToValue κ] [OfValue κ]
    [ToValue α] [OfValue α] {key : AbiType} (hR : Partwise R)
    (hplain : ∀ (k : κ) (v : Value), toValue k key = .ok v → v.isPlain = true)
    (hkey : RoundTrips κ key) (hvalue : RestoresAs R f type) :
    RestoresAs R (SortedMap.mapValues f : SortedMap κ α → SortedMap κ α) (.map key type) := by
  intro x v w hx hvw
  obtain ⟨entries, hentries, rfl⟩ := toValue_map_eq_ok.1 hx
  obtain ⟨hlen, hto, hfrom⟩ := Outcome.mapM_spec hentries
  have hentryPlain : ∀ e ∈ entries, e.1.isPlain = true := by
    intro e he
    obtain ⟨p, -, hp⟩ := hfrom e he
    exact hplain p.1 e.1 (toEntry_eq_ok.1 hp).1
  obtain ⟨ws, rfl, hlen', hpartner, hpartner'⟩ :=
    hR.map hvw hentryPlain (nodup_keys_of_toEntry hkey hentries)
  have hback : ∀ p ∈ x.entries, ∀ e, toEntry key type p = .ok e → ∀ g : Value × Value,
      g.1 = e.1 → R e.2 g.2 → ofEntry key type g = .ok (p.1, f p.2) := by
    intro p _ e hp g hname hR'
    obtain ⟨hk, ha⟩ := toEntry_eq_ok.1 hp
    exact ofEntry_eq_ok.2 ⟨by rw [hname, hkey p.1 e.1 hk], hvalue p.2 e.2 g.2 ha hR'⟩
  have hread : ∀ g ∈ ws, ∃ q : κ × α, ofEntry key type g = .ok q ∧
      q ∈ (x.mapValues f).entries := by
    intro g hg
    obtain ⟨e, he, hname, hR'⟩ := hpartner' g hg
    obtain ⟨p, hp, hpe⟩ := hfrom e he
    exact ⟨_, hback p hp e hpe g hname hR', List.mem_map_of_mem hp⟩
  obtain ⟨es, hes, hlen'', -, -⟩ := Outcome.exists_mapM_eq_ok hread
  -- All entries come back, and there are no more than that.
  have hsubset : (x.mapValues f).entries ⊆ es := by
    intro q hq
    obtain ⟨p, hp, rfl⟩ := List.mem_map.1 hq
    obtain ⟨e, he, hpe⟩ := hto p hp
    obtain ⟨g, hg, hname, hR'⟩ := hpartner e he
    obtain ⟨q, hq, hgq⟩ := (Outcome.mapM_spec hes).2.1 g hg
    obtain rfl := Except.ok.inj ((hback p hp e hpe g hname hR').symm.trans hgq)
    exact hq
  have hnodup : (x.mapValues f).entries.Nodup :=
    (Sorted.nodup_keys (x.mapValues f).ascending).of_map
  have hlen''' : (x.mapValues f).entries.length = x.entries.length := List.length_map ..
  have hperm := (List.subperm_of_subset hnodup hsubset).perm_of_length_le (by omega)
  exact ofValue_map_eq_ok.2 ⟨es, hes,
    SortedMap.ext (Sorted.ofList_eq_of_perm hperm.symm (x.mapValues f).ascending).symm⟩

theorem NeverNull.map [Ord κ] [ToValue κ] [ToValue α] (key value : AbiType) :
    NeverNull (SortedMap κ α) (.map key value) := by
  intro x hx
  obtain ⟨_, -, hx⟩ := toValue_map_eq_ok.1 hx
  cases hx

/-! ## Tuples -/

namespace NativeType

abbrev Restores (R : Value → Value → Prop) (t : NativeType) (type : AbiType) : Prop :=
  CellAbi.Restores R t.Carrier type

abbrev RoundTrips (t : NativeType) (type : AbiType) : Prop := CellAbi.RoundTrips t.Carrier type

abbrev NeverNull (t : NativeType) (type : AbiType) : Prop := CellAbi.NeverNull t.Carrier type

abbrev RestoresAs (R : Value → Value → Prop) (t : NativeType) (type : AbiType) : Prop :=
  CellAbi.RestoresAs R t.flat type

abbrev NullUnless (t : NativeType) (type : AbiType) : Prop := CellAbi.NullUnless t.present type

variable {t : NativeType} {ts : List NativeType} {c : String × AbiType}
  {cs : List (String × AbiType)} {fields : List (String × Value)}

/-- Each component takes its own field; the fields of the others are left for them. -/
theorem ofFields_toFields (h : List.Forall₂ (fun t c => t.RestoresAs R c.2) ts cs)
    (hnames : cs.Pairwise fun a b => a.1 ≠ b.1) :
    ∀ {xs : Carriers ts} {fields all}, toFields ts xs cs = .ok fields →
      (∀ f ∈ fields, ∃ w, Sorted.lookup f.1 all = some w ∧ R f.2 w) →
      ofFields ts cs all = .ok (flats ts xs) := by
  induction h with
  | nil => exact fun _ _ => rfl
  | @cons t c ts cs hc hcs ih =>
    rintro ⟨x, xs⟩ fields all h hall
    obtain ⟨v, rest, hv, hrest, rfl⟩ := toFields_cons_eq_ok.1 h
    obtain ⟨⟨w, hlookup, hvw⟩, hall⟩ := List.forall_mem_cons.1 hall
    obtain ⟨hname, hnames⟩ := List.pairwise_cons.1 hnames
    refine ofFields_cons_eq_ok.2 ⟨w, hlookup, hc x v w hv hvw, ih hnames hrest fun f hf => ?_⟩
    have hmem : f.1 ∈ cs.map Prod.fst := by
      rw [← names_of_toFields hcs.length_eq.symm hrest]
      exact List.mem_map_of_mem hf
    obtain ⟨d, hd, hfd⟩ := List.mem_map.1 hmem
    rw [Sorted.lookup_erase fun heq => hname d hd (heq.symm.trans hfd.symm)]
    exact hall f hf

end NativeType

theorem RestoresAs.tuple {types : List NativeType} {components : List (String × AbiType)}
    (hR : Partwise R) (h : List.Forall₂ (fun t c => t.RestoresAs R c.2) types components)
    (hnames : components.Pairwise fun a b => a.1 ≠ b.1) :
    (NativeType.tuple types).RestoresAs R (.tuple components) := by
  intro x v w hx hvw
  obtain ⟨cs, fields, hcs, hlen, hfields, rfl⟩ := NativeType.toValue_tuple_eq_ok.1 hx
  cases hcs
  obtain ⟨ws, rfl, hpairs⟩ := hR.tuple hvw
  have hdistinct : fields.Pairwise fun a b => a.1 ≠ b.1 := by
    rw [← List.pairwise_map (R := fun a b => a ≠ b), NativeType.names_of_toFields hlen hfields,
      List.pairwise_map]
    exact hnames
  refine NativeType.ofValue_tuple_eq_ok.2 ⟨hlen, NativeType.ofFields_toFields h hnames hfields ?_⟩
  intro f hf
  exact Sorted.exists_lookup_of_forall₂ hpairs ((Sorted.lookup_ofList hdistinct).2 hf)

theorem NeverNull.tuple (types : List NativeType) (components : List (String × AbiType)) :
    (NativeType.tuple types).NeverNull (.tuple components) := by
  intro x hx
  obtain ⟨_, _, -, -, -, hx⟩ := NativeType.toValue_tuple_eq_ok.1 hx
  cases hx

/-! ## The native type of an ABI type -/

namespace AbiType

/-- No optional of the type, at any depth, is directly inside of another one. -/
inductive SingleOptional : AbiType → Prop
  | integer (signed : Bool) (width : IntWidth) : SingleOptional (.integer signed width)
  | bool : SingleOptional .bool
  | string : SingleOptional .string
  | bytes (length : Option Nat) : SingleOptional (.bytes length)
  | cell : SingleOptional .cell
  | address (strict : Bool) : SingleOptional (.address strict)
  | array {element : AbiType} (h : SingleOptional element) : SingleOptional (.array element)
  | optional {inner : AbiType} (hne : ∀ t, inner ≠ .optional t) (h : SingleOptional inner) :
    SingleOptional (.optional inner)
  | map {key value : AbiType} (hkey : SingleOptional key) (hvalue : SingleOptional value) :
    SingleOptional (.map key value)
  | tuple {components : List (String × AbiType)} (h : ∀ c ∈ components, SingleOptional c.2) :
    SingleOptional (.tuple components)

/-- No tuple of the type, at any depth, has too many components for a native tuple type. -/
inductive Narrow : AbiType → Prop
  | integer (signed : Bool) (width : IntWidth) : Narrow (.integer signed width)
  | bool : Narrow .bool
  | string : Narrow .string
  | bytes (length : Option Nat) : Narrow (.bytes length)
  | cell : Narrow .cell
  | address (strict : Bool) : Narrow (.address strict)
  | array {element : AbiType} (h : Narrow element) : Narrow (.array element)
  | optional {inner : AbiType} (h : Narrow inner) : Narrow (.optional inner)
  | map {key value : AbiType} (hkey : Narrow key) (hvalue : Narrow value) : Narrow (.map key value)
  | tuple {components : List (String × AbiType)} (hlen : components.length ≤ maxArity)
    (h : ∀ c ∈ components, Narrow c.2) : Narrow (.tuple components)

theorem restores_key (hR : Partwise R) {key : AbiType} {k : KeyType}
    (hk : key.nativeKey? = some k) : Restores R k.Carrier key := by
  cases key with
  | integer =>
    obtain rfl := Option.some.inj hk
    exact .int hR _
  | bool =>
    obtain rfl := Option.some.inj hk
    exact .bool hR
  | string =>
    obtain rfl := Option.some.inj hk
    exact .string hR
  | bytes =>
    obtain rfl := Option.some.inj hk
    exact .bytes hR _
  | address =>
    obtain rfl := Option.some.inj hk
    exact .standardAddress hR _
  | cell | array | optional | map | tuple => cases hk

theorem neverNull_native (h : type.isNullable = false) : type.native.NeverNull type := by
  cases type with
  | integer => exact .int _
  | bool | string | cell => exact fun _ hx => nomatch hx
  | bytes => exact .bytes _
  | array => exact .list _
  | map key value =>
    cases hk : key.nativeKey? with
    | some k =>
      rw [native_map hk]
      exact .map _ _
    | none =>
      rw [native, hk]
      exact .value h
  | tuple components =>
    by_cases hlen : components.length ≤ maxArity
    · rw [native_tuple hlen]
      exact .tuple _ _
    · rw [native_wide (Nat.not_le.1 hlen)]
      exact .value h
  | address | optional => cases h

theorem present_native (h : type.isNullable = false) :
    ∀ x : type.native.Carrier, type.native.present x = true := by
  cases type with
  | integer | bool | string | cell | bytes | array => exact fun _ => rfl
  | map key value =>
    cases hk : key.nativeKey? with
    | some k =>
      rw [native_map hk]
      exact fun _ => rfl
    | none =>
      rw [native, hk]
      exact fun _ => rfl
  | tuple components =>
    by_cases hlen : components.length ≤ maxArity
    · rw [native_tuple hlen]
      exact fun _ => rfl
    · rw [native_wide (Nat.not_le.1 hlen)]
      exact fun _ => rfl
  | address | optional => cases h

theorem nullUnless_address : ∀ strict, (held (.address strict)).NullUnless (.address strict)
  | false => (NeverNull.address _).nullUnless fun _ => rfl
  | true => (NeverNull.standardAddress _).nullUnless fun _ => rfl

/-- Null stands for what is absent at any level, and for nothing else. -/
theorem nullUnless_native : (type : AbiType) → type.native.NullUnless type
  | .address strict => by
    rw [native_address_eq]
    exact .option (nullUnless_address strict) fun _ => rfl
  | .optional inner => by
    rw [native_optional_eq]
    exact .option (held_cases (P := NativeType.NullUnless) nullUnless_address
      (nullUnless_native inner)) fun _ => rfl
  | .integer .. | .bool | .string | .bytes _ | .cell | .array _ | .map .. | .tuple _ =>
    (neverNull_native rfl).nullUnless (present_native rfl)

theorem nullUnless_held (inner : AbiType) : (held inner).NullUnless inner :=
  held_cases (P := NativeType.NullUnless) nullUnless_address (nullUnless_native inner)

theorem restoresAs_address (hR : Partwise R) :
    ∀ strict, (held (.address strict)).RestoresAs R (.address strict)
  | false => (Restores.address hR _).restoresAs fun _ => rfl
  | true => (Restores.standardAddress hR _).restoresAs fun _ => rfl

/-- Either nothing stays dynamic, or nothing but the value itself is related to it. -/
theorem restoresAs_native (hR : Partwise R) (hlegal : type.Legal) (hnames : type.NativeNames)
    (hnarrow : type.Narrow ∨ ∀ v w, R v w → w = v) : type.native.RestoresAs R type := by
  induction hlegal with
  | integer => exact (Restores.int hR _).restoresAs fun _ => rfl
  | bool => exact (Restores.bool hR).restoresAs fun _ => rfl
  | string => exact (Restores.string hR).restoresAs fun _ => rfl
  | bytes => exact (Restores.bytes hR _).restoresAs List.map_id
  | cell => exact (Restores.cell hR).restoresAs fun _ => rfl
  | address strict =>
    rw [native_address_eq]
    exact .nullable hR (restoresAs_address hR strict) (nullUnless_address strict)
  | array _ ih =>
    exact .list hR (ih (fun cs hlen h => hnames cs hlen (.item h))
      (hnarrow.imp_left fun | .array h => h))
  | @optional inner _ ih =>
    rw [native_optional_eq]
    have hinner := ih (fun cs hlen h => hnames cs hlen (.inner h))
      (hnarrow.imp_left fun | .optional h => h)
    exact .optional hR (held_cases (P := NativeType.RestoresAs R) (restoresAs_address hR) hinner)
      (nullUnless_held inner)
  | map hscalar _ _ _ ih =>
    obtain ⟨k, hk⟩ := exists_nativeKey hscalar
    rw [native_map hk]
    exact .map hR (fun _ _ hx => (plain_of_key hk hx).1) (.of_restores (restores_key partwise_eq hk))
      (ih (fun cs hlen h => hnames cs hlen (.value h)) (hnarrow.imp_left fun | .map _ h => h))
  | @tuple components _ _ ih =>
    by_cases hlen : components.length ≤ maxArity
    · rw [native_tuple hlen]
      refine .tuple hR (forall₂_natives fun c hc => ?_) (hnames components hlen .self)
      exact ih c hc (fun cs hlen' h => hnames cs hlen' (.field hlen hc h))
        (hnarrow.imp_left fun | .tuple _ h => h c hc)
    · rw [native_wide (Nat.not_le.1 hlen)]
      rcases hnarrow with hnarrow | heq
      · cases hnarrow with | tuple hle => exact absurd hle hlen
      · exact (Restores.value heq _).restoresAs fun _ => rfl

theorem flats_natives {components : List (String × AbiType)}
    (h : ∀ c ∈ components, ∀ x : c.2.native.Carrier, c.2.native.flat x = x) :
    ∀ xs, NativeType.flats (natives components) xs = xs := by
  induction components with
  | nil => exact fun _ => rfl
  | cons c rest ih =>
    obtain ⟨hc, hrest⟩ := List.forall_mem_cons.1 h
    exact fun xs => Prod.ext (hc xs.1) (ih hrest xs.2)

theorem flat_address (strict : Bool) :
    ∀ x : (native (.address strict)).Carrier, (native (.address strict)).flat x = x := by
  cases strict <;> exact fun | none => rfl | some _ => rfl

/-- Where no optional is directly inside of an optional, absence has one level only. -/
theorem flat_native (h : type.SingleOptional) :
    ∀ x : type.native.Carrier, type.native.flat x = x := by
  induction h with
  | integer | bool | string | cell => exact fun _ => rfl
  | bytes => exact List.map_id
  | address strict => exact flat_address strict
  | array _ ih => exact fun x => (List.map_congr_left fun a _ => ih a).trans (List.map_id x)
  | @optional inner hne _ ih =>
    cases hnull : inner.isNullable with
    | false =>
      rw [native_optional]
      rintro (_ | a)
      · rfl
      · show (Option.filter _ (some a)).map _ = _
        rw [Option.filter_some_pos (present_native hnull a), Option.map_some, ih]
      · rintro strict rfl
        cases hnull
    | true =>
      cases inner with
      | address strict =>
        rw [native_optional_eq, ← native_address_eq]
        exact flat_address strict
      | optional t => exact absurd rfl (hne t)
      | _ => cases hnull
  | @map key value _ _ _ ih =>
    cases hk : key.nativeKey? with
    | some k =>
      rw [native_map hk]
      exact SortedMap.mapValues_eq_self ih
    | none =>
      rw [native, hk]
      exact fun _ => rfl
  | @tuple components _ ih =>
    by_cases hlen : components.length ≤ maxArity
    · rw [native_tuple hlen]
      exact flats_natives ih
    · rw [native_wide (Nat.not_le.1 hlen)]
      exact fun _ => rfl

theorem restores_native (hR : Partwise R) (hlegal : type.Legal) (hsingle : type.SingleOptional)
    (hnames : type.DistinctNames) (hnarrow : type.Narrow ∨ ∀ v w, R v w → w = v) :
    type.native.Restores R type := by
  intro x v w hx hvw
  rw [restoresAs_native hR hlegal (.of_distinctNames hnames) hnarrow x v w hx hvw,
    flat_native hsingle x]

theorem roundTrips_native (hlegal : type.Legal) (hsingle : type.SingleOptional)
    (hnames : type.DistinctNames) : type.native.RoundTrips type :=
  .of_restores (restores_native partwise_eq hlegal hsingle hnames (.inr fun _ _ h => h.symm))

/-- A native value that is converted at the native type of a type is given back, for every type that
is read from a descriptor, has no optional directly inside of an optional, and names the components
of each tuple differently. -/
theorem ofValue_toValue {descriptor : String} {params : Option (List Param)}
    (hparse : parse descriptor params = .ok type) (hsingle : type.SingleOptional)
    (hnames : type.DistinctNames) {x : type.native.Carrier} {v : Value}
    (hx : toValue x type = .ok v) : ofValue v type = .ok x :=
  roundTrips_native (legal_of_parse hparse) hsingle hnames x v hx

/-- A map to tuples whose components are not in the order of their names. -/
def nullables : AbiType := .map (.uint 8) (.tuple [("b", .optional .bool), ("a", .address false)])

/-- Absent optionals and null addresses in tuples in a map. -/
theorem ofValue_toValue_nullables :
    parse "map(uint8,tuple)" (some [⟨"b", "optional(bool)", none, none⟩,
        ⟨"a", "address", none, none⟩]) = .ok nullables ∧
      nullables.SingleOptional ∧ nullables.DistinctNames ∧
      ∃ (x : nullables.native.Carrier) (v : Value),
        toValue x nullables = .ok v ∧ ofValue v nullables = .ok x := by
  have hparse : parse "map(uint8,tuple)" (some [⟨"b", "optional(bool)", none, none⟩,
      ⟨"a", "address", none, none⟩]) = .ok nullables := by
    have hkey : ofDescriptor "uint8".toList none = .ok (.uint 8) := ofDescriptor_plain rfl
    have hbool : ofDescriptor "bool".toList none = .ok .bool := ofDescriptor_plain rfl
    exact ofDescriptor_map (d := "map(uint8,tuple)".toList) rfl hkey rfl
      (ofDescriptor_tuple rfl (ofParams_cons (ofDescriptor_optional rfl hbool)
        (ofParams_cons (ofDescriptor_plain rfl) ofParams_nil)))
  have hsingle : nullables.SingleOptional := by
    refine .map (.integer _ _) (.tuple ?_)
    simp only [List.forall_mem_cons]
    exact ⟨.optional nofun .bool, .address _, nofun⟩
  have hnames : nullables.DistinctNames := by
    refine .map (.integer _ _) (.tuple (by decide) ?_)
    simp only [List.forall_mem_cons]
    exact ⟨.optional .bool, .address _, nofun⟩
  let x : nullables.native.Carrier :=
    ⟨[(1, none, none, ()), (2, some true, none, ())], List.pairwise_pair.2 rfl⟩
  have hx : toValue x nullables = .ok (.map [(.int 1, .tuple [("a", .null), ("b", .null)]),
      (.int 2, .tuple [("a", .null), ("b", .bool true)])]) := rfl
  exact ⟨hparse, hsingle, hnames, x, _, hx, ofValue_toValue hparse hsingle hnames hx⟩

end AbiType

end CellAbi
