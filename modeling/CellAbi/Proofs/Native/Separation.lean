import CellAbi.Proofs.Native.RoundTrip
import CellAbi.Proofs.Value.Equality

/-!
# Native values told apart

Two native values are converted to equal dynamic values if and only if their flat values are the
same: what is lost is at which level of options something is absent, and nothing else.  Each way of
building native types carries this over from its parts.

    Separates S element → Separates (List.Forall₂ S) (.array element)        (`Separates.list`, …)
    equal v w = true ↔ Same (flat x) (flat y)
      where toValue x type = .ok v, toValue y type = .ok w               (`separates_native`)
-/

namespace CellAbi

open ToValue OfValue Value

namespace NativeType

mutual

/-- The native values are the same, and equal as values where they stay dynamic.  What stands under
a key is compared the other way round, as it is in maps of values. -/
def Same : (t : NativeType) → t.Carrier → t.Carrier → Prop
  | value, v, w => equal v w = true
  | option type, x, y => Option.Rel (Same type) x y
  | list element, xs, ys => List.Forall₂ (Same element) xs ys
  | map _ type, m, n =>
    List.Forall₂ (fun d e => d.1 = e.1 ∧ Same type e.2 d.2) m.entries n.entries
  | tuple types, xs, ys => SameAll types xs ys
  | integer, x, y => x = y
  | byte, x, y => x = y
  | bool, x, y => x = y
  | text, x, y => x = y
  | cell, x, y => x = y
  | address, x, y => x = y
  | standardAddress, x, y => x = y

def SameAll : (ts : List NativeType) → Carriers ts → Carriers ts → Prop
  | [], _, _ => True
  | type :: rest, (x, xs), (y, ys) => Same type x y ∧ SameAll rest xs ys

end

end NativeType

/-- The conversion yields equal values of just those native values of which `f` keeps what is
related. -/
def Separates {α : Type} [ToValue α] (S : α → α → Prop) (f : α → α) (type : AbiType) : Prop :=
  ∀ (x y : α) (v w : Value), toValue x type = .ok v → toValue y type = .ok w →
    (equal v w = true ↔ S (f x) (f y))

variable {α κ : Type} {type inner key : AbiType} {S : α → α → Prop} {f : α → α} {p : α → Bool}

/-! ## Plain types -/

/-- Plain values are equal only to themselves. -/
theorem Separates.of_roundTrips [ToValue α] [OfValue α] (h : RoundTrips α type)
    (hplain : ∀ (x : α) (v : Value), toValue x type = .ok v → v.isPlain = true)
    (hS : ∀ x y, S (f x) (f y) ↔ x = y) : Separates S f type := by
  intro x y v w hx hy
  rw [hS]
  constructor
  · intro hequal
    rw [← eq_of_equal (hplain x v hx) hequal] at hy
    exact Except.ok.inj ((h x v hx).symm.trans (h y v hy))
  · rintro rfl
    rw [Except.ok.inj (hx.symm.trans hy)]
    exact equal_self w

/-- What stays dynamic is compared as the values themselves are. -/
theorem Separates.value {f : Value → Value} (hf : ∀ v, f v = v) (type : AbiType) :
    Separates (fun v w : Value => equal v w = true) f type := by
  intro x y v w hx hy
  obtain ⟨-, rfl⟩ := toValue_value_eq_ok.1 hx
  obtain ⟨-, rfl⟩ := toValue_value_eq_ok.1 hy
  rw [hf, hf]

/-! ## Composite types -/

/-- Null is equal to nothing else. -/
theorem Separates.option [ToValue α] (h : Separates S f inner) (hnull : NullUnless p inner)
    (hto : ∀ a : α, toValue (some a) type = toValue a inner) :
    Separates (Option.Rel S) (fun x => (x.filter p).map f) type := by
  intro x y v w hx hy
  show equal v w = true ↔ Option.Rel S ((x.filter p).map f) ((y.filter p).map f)
  obtain ⟨rfl, hx'⟩ | ⟨hv, a, hx', ha⟩ := toValue_option_cases hnull hto hx <;>
    obtain ⟨rfl, hy'⟩ | ⟨hw, b, hy', hb⟩ := toValue_option_cases hnull hto hy <;>
    rw [hx', hy']
  · exact iff_of_true (equal_self _) .none
  · exact iff_of_false (fun hequal => hw (eq_of_equal rfl hequal).symm) nofun
  · exact iff_of_false (fun hequal => hv (eq_of_equal_plain rfl hequal)) nofun
  · exact (h a b v w ha hb).trans ⟨.some, fun | .some hab => hab⟩

theorem Separates.list [ToValue α] (h : Separates S f inner) :
    Separates (List.Forall₂ S) (List.map f) (.array inner) := by
  intro xs ys v w hx hy
  obtain ⟨vs, hvs, rfl⟩ := Outcome.bind_pure_eq_ok.1 hx
  obtain ⟨ws, hws, rfl⟩ := Outcome.bind_pure_eq_ok.1 hy
  clear hx hy
  rw [equal_array_iff]
  induction xs generalizing ys vs ws with
  | nil =>
    obtain rfl := Except.ok.inj hvs
    cases ys with
    | nil =>
      obtain rfl := Except.ok.inj hws
      exact iff_of_true .nil .nil
    | cons b ys =>
      obtain ⟨_, _, -, -, rfl⟩ := Outcome.mapM_cons_eq_ok.1 hws
      exact iff_of_false nofun nofun
  | cons a xs ih =>
    obtain ⟨v, vs, hv, hvs', rfl⟩ := Outcome.mapM_cons_eq_ok.1 hvs
    cases ys with
    | nil =>
      obtain rfl := Except.ok.inj hws
      exact iff_of_false nofun nofun
    | cons b ys =>
      obtain ⟨w, ws, hw, hws', rfl⟩ := Outcome.mapM_cons_eq_ok.1 hws
      rw [List.map_cons, List.map_cons, List.forall₂_cons, List.forall₂_cons, h a b v w hv hw,
        ih ys vs hvs' ws hws']

/-- Entries of sorted maps are paired by their keys, which are told apart. -/
theorem Separates.map [Ord κ] [Std.TransOrd κ] [Std.LawfulEqOrd κ] [ToValue κ] [ToValue α]
    (hkey : Separates (fun k l : κ => k = l) id key) (h : Separates S f type) :
    Separates (fun m n : SortedMap κ α =>
      List.Forall₂ (fun d e => d.1 = e.1 ∧ S e.2 d.2) m.entries n.entries)
      (SortedMap.mapValues f) (.map key type) := by
  intro m n v w hm hn
  obtain ⟨ds, hds, rfl⟩ := toValue_map_eq_ok.1 hm
  obtain ⟨es, hes, rfl⟩ := toValue_map_eq_ok.1 hn
  obtain ⟨hlen, hto, hfrom⟩ := Outcome.mapM_spec hds
  obtain ⟨hlen', hto', hfrom'⟩ := Outcome.mapM_spec hes
  have hentry : ∀ {a b : κ × α} {d e}, toEntry key type a = .ok d → toEntry key type b = .ok e →
      (equal e.1 d.1 = true ∧ equal e.2 d.2 = true ↔ a.1 = b.1 ∧ S (f b.2) (f a.2)) := by
    intro a b d e ha hb
    obtain ⟨hka, hva⟩ := toEntry_eq_ok.1 ha
    obtain ⟨hkb, hvb⟩ := toEntry_eq_ok.1 hb
    rw [hkey b.1 a.1 e.1 d.1 hkb hka, h b.2 a.2 e.2 d.2 hvb hva, eq_comm]
    rfl
  simp only [SortedMap.mapValues, List.forall₂_map_left_iff, List.forall₂_map_right_iff]
  rw [equal_map_iff, hlen, hlen',
    Sorted.forall₂_iff_of_ascending (R := fun a b => S (f b) (f a)) m.ascending n.ascending]
  refine and_congr_right fun _ => ⟨fun hall a ha => ?_, fun hall d hd => ?_⟩
  · obtain ⟨d, hd, had⟩ := hto a ha
    obtain ⟨e, he, hequal⟩ := hall d hd
    obtain ⟨b, hb, hbe⟩ := hfrom' e he
    exact ⟨b, hb, (hentry had hbe).1 hequal⟩
  · obtain ⟨a, ha, had⟩ := hfrom d hd
    obtain ⟨b, hb, hsame⟩ := hall a ha
    obtain ⟨e, he, hbe⟩ := hto' b hb
    exact ⟨e, he, (hentry had hbe).2 hsame⟩

namespace NativeType

abbrev Separates (t : NativeType) (type : AbiType) : Prop :=
  CellAbi.Separates t.Same t.flat type

theorem separates_toFields {ts : List NativeType} {cs : List (String × AbiType)}
    (h : List.Forall₂ (fun t c => t.Separates c.2) ts cs) :
    ∀ {xs ys : Carriers ts} {fields others}, toFields ts xs cs = .ok fields →
      toFields ts ys cs = .ok others →
      (List.Forall₂ (fun d e => d.1 = e.1 ∧ equal d.2 e.2 = true) fields others ↔
        SameAll ts (flats ts xs) (flats ts ys)) := by
  induction h with
  | nil =>
    intro _ _ fields others hfields hothers
    obtain rfl := Except.ok.inj hfields
    obtain rfl := Except.ok.inj hothers
    exact iff_of_true .nil trivial
  | @cons t c ts cs hc _ ih =>
    rintro ⟨x, xs⟩ ⟨y, ys⟩ fields others hfields hothers
    obtain ⟨v, vs, hv, hvs, rfl⟩ := toFields_cons_eq_ok.1 hfields
    obtain ⟨w, ws, hw, hws, rfl⟩ := toFields_cons_eq_ok.1 hothers
    rw [List.forall₂_cons, ih hvs hws, hc x y v w hv hw]
    exact and_congr_left fun _ => and_iff_right rfl

end NativeType

theorem Separates.tuple {types : List NativeType} {components : List (String × AbiType)}
    (h : List.Forall₂ (fun t c => t.Separates c.2) types components)
    (hnames : components.Pairwise fun a b => a.1 ≠ b.1) :
    (NativeType.tuple types).Separates (.tuple components) := by
  intro xs ys v w hx hy
  obtain ⟨cs, fields, hcs, hlen, hfields, rfl⟩ := NativeType.toValue_tuple_eq_ok.1 hx
  cases hcs
  obtain ⟨cs, others, hcs, -, hothers, rfl⟩ := NativeType.toValue_tuple_eq_ok.1 hy
  cases hcs
  have hkeys := NativeType.names_of_toFields hlen hfields
  have hdistinct : fields.Pairwise fun a b => a.1 ≠ b.1 := by
    rw [← List.pairwise_map (R := fun a b => a ≠ b), hkeys, List.pairwise_map]
    exact hnames
  rw [equal_tuple_iff, Sorted.forall₂_ofList (R := fun v w => equal v w = true)
    (hkeys.trans (NativeType.names_of_toFields hlen hothers).symm) hdistinct]
  exact NativeType.separates_toFields h hfields hothers

/-! ## The native type of an ABI type -/

namespace AbiType

theorem separates_key {k : KeyType} (hk : key.nativeKey? = some k)
    {S : k.Carrier → k.Carrier → Prop} {f : k.Carrier → k.Carrier}
    (hS : ∀ x y, S (f x) (f y) ↔ x = y) : Separates S f key :=
  .of_roundTrips (.of_restores (restores_key partwise_eq hk))
    (fun _ _ hx => (plain_of_key hk hx).1) hS

theorem separates_address : ∀ strict, (held (.address strict)).Separates (.address strict)
  | false => by
    refine .of_roundTrips (.of_restores (.address partwise_eq _)) (fun _ _ hx => ?_) fun _ _ => .rfl
    obtain ⟨-, rfl⟩ := toValue_value_eq_ok.1 hx
    rfl
  | true => separates_key (k := .standardAddress) rfl fun _ _ => .rfl

theorem separates_native (hlegal : type.Legal) (hnames : type.NativeNames) :
    type.native.Separates type := by
  induction hlegal with
  | integer => exact separates_key (k := .integer) rfl fun _ _ => .rfl
  | bool => exact separates_key (k := .bool) rfl fun _ _ => .rfl
  | string => exact separates_key (k := .text) rfl fun _ _ => .rfl
  | bytes =>
    refine separates_key (k := .list .byte) rfl fun x y => ?_
    show List.Forall₂ Eq (x.map id) (y.map id) ↔ _
    rw [List.forall₂_eq_eq_eq, List.map_id, List.map_id]
  | cell =>
    refine .of_roundTrips (.of_restores (.cell partwise_eq)) (fun x v hx => ?_) fun _ _ => .rfl
    obtain rfl := Except.ok.inj hx
    rfl
  | address strict =>
    rw [native_address_eq]
    exact .option (separates_address strict) (nullUnless_address strict) fun _ => rfl
  | array _ ih => exact .list (ih fun cs hlen h => hnames cs hlen (.item h))
  | @optional inner _ ih =>
    rw [native_optional_eq]
    have hinner := ih fun cs hlen h => hnames cs hlen (.inner h)
    exact .option (held_cases (P := NativeType.Separates) separates_address hinner)
      (nullUnless_held inner) fun _ => rfl
  | map hscalar _ _ _ ih =>
    obtain ⟨k, hk⟩ := exists_nativeKey hscalar
    rw [native_map hk]
    exact .map (separates_key hk fun _ _ => .rfl)
      (ih fun cs hlen h => hnames cs hlen (.value h))
  | @tuple components _ _ ih =>
    by_cases hlen : components.length ≤ maxArity
    · rw [native_tuple hlen]
      exact .tuple (forall₂_natives fun c hc => ih c hc fun cs hlen' h =>
        hnames cs hlen' (.field hlen hc h)) (hnames components hlen .self)
    · rw [native_wide (Nat.not_le.1 hlen)]
      exact .value (fun _ => rfl) _

/-! ## Where nothing stays dynamic -/

theorem optionRel_eq (h : S = Eq) : Option.Rel S = Eq := by
  subst h
  funext x y
  refine propext ⟨?_, ?_⟩
  · rintro (h | _)
    · rw [h]
    · rfl
  · rintro rfl
    cases x with
    | none => exact .none
    | some a => exact .some rfl

theorem forall₂_entries_eq [Ord κ] (h : S = Eq) :
    (fun m n : SortedMap κ α =>
      List.Forall₂ (fun d e => d.1 = e.1 ∧ S e.2 d.2) m.entries n.entries) = Eq := by
  subst h
  have hentry : (fun d e : κ × α => d.1 = e.1 ∧ e.2 = d.2) = Eq := by
    funext d e
    rw [Prod.ext_iff, eq_comm (a := e.2)]
  funext m n
  rw [hentry, List.forall₂_eq_eq_eq]
  exact propext ⟨SortedMap.ext, congrArg _⟩

theorem sameAll_eq {ts : List NativeType} {cs : List (String × AbiType)}
    (h : List.Forall₂ (fun t _ => t.Same = Eq) ts cs) : NativeType.SameAll ts = Eq := by
  induction h with
  | nil => exact funext fun _ => funext fun _ => propext (iff_of_true trivial rfl)
  | @cons t _ ts _ ht _ ih =>
    funext ⟨x, xs⟩ ⟨y, ys⟩
    rw [NativeType.SameAll, ht, ih, Prod.mk.injEq]

/-- Native values of which nothing stays dynamic are the same only if there is no difference. -/
theorem same_native (hlegal : type.Legal) (hnarrow : type.Narrow) : type.native.Same = Eq := by
  induction hlegal with
  | integer | bool | string | cell => rfl
  | bytes => exact List.forall₂_eq_eq_eq
  | address strict => cases strict <;> exact optionRel_eq rfl
  | array _ ih =>
    cases hnarrow with | array hnarrow =>
    show List.Forall₂ (NativeType.Same _) = Eq
    rw [ih hnarrow, List.forall₂_eq_eq_eq]
  | @optional inner _ ih =>
    cases hnarrow with | optional hnarrow =>
    have hheld : (held inner).Same = Eq :=
      held_cases (P := fun t _ => t.Same = Eq) (fun strict => by cases strict <;> rfl) (ih hnarrow)
    rw [native_optional_eq]
    exact optionRel_eq hheld
  | map hscalar _ _ _ ih =>
    cases hnarrow with | map _ hnarrow =>
    obtain ⟨k, hk⟩ := exists_nativeKey hscalar
    rw [native_map hk]
    exact forall₂_entries_eq (ih hnarrow)
  | tuple _ _ ih =>
    cases hnarrow with | tuple hlen hnarrow =>
    rw [native_tuple hlen]
    exact sameAll_eq (forall₂_natives fun c hc => ih c hc (hnarrow c hc))

/-! ## What the conversion keeps -/

/-- At the native type of a type that is read from a descriptor, two native values are converted to
equal values iff their flat values are the same, and the flat value is what is given back.  That is
the native value itself if no optional is directly inside of an optional.  The one condition is that
native tuples name their components differently. -/
theorem toValue_keeps_flat {descriptor : String} {params : Option (List Param)}
    (hparse : parse descriptor params = .ok type) (hnames : type.NativeNames)
    {x y : type.native.Carrier} {v w : Value} (hx : toValue x type = .ok v)
    (hy : toValue y type = .ok w) :
    (equal v w = true ↔ type.native.Same (type.native.flat x) (type.native.flat y)) ∧
      (type.Narrow → (equal v w = true ↔ type.native.flat x = type.native.flat y)) ∧
      ofValue v type = .ok (type.native.flat x) ∧
      (type.SingleOptional → type.native.flat x = x ∧ type.native.flat y = y) := by
  have hlegal := legal_of_parse hparse
  have hequal := separates_native hlegal hnames x y v w hx hy
  refine ⟨hequal, fun hnarrow => ?_, ?_,
    fun hsingle => ⟨flat_native hsingle x, flat_native hsingle y⟩⟩
  · rw [hequal, same_native hlegal hnarrow]
  · exact restoresAs_native partwise_eq hlegal hnames (.inr fun _ _ h => h.symm) x v v hx rfl

theorem ofDescriptor_optional_optional : ofDescriptor "optional(optional(uint8))".toList none =
    .ok (.optional (.optional (.uint 8))) := by
  have huint : ofDescriptor "uint8".toList none = .ok (.uint 8) := ofDescriptor_plain rfl
  have hinner : ofDescriptor "optional(uint8)".toList none = .ok (.optional (.uint 8)) :=
    ofDescriptor_optional rfl huint
  exact ofDescriptor_optional rfl hinner

/-- An optional of a tuple that has an optional of an optional in it. -/
def wrapped : AbiType :=
  .optional (.tuple [("b", .optional (.optional (.uint 8))), ("a", .optional (.address false))])

/-- Two native values that differ in the level of what is absent. -/
theorem toValue_keeps_flat_wrapped :
    ∃ x y : wrapped.native.Carrier, x ≠ y ∧
      parse "optional(tuple)" (some [⟨"b", "optional(optional(uint8))", none, none⟩,
        ⟨"a", "optional(address)", none, none⟩]) = .ok wrapped ∧
      wrapped.NativeNames ∧ ∃ v w, toValue x wrapped = .ok v ∧ toValue y wrapped = .ok w ∧
        equal v w = true ∧ ofValue v wrapped = .ok y := by
  have haddress : ofDescriptor "optional(address)".toList none =
      .ok (.optional (.address false)) := ofDescriptor_optional rfl (ofDescriptor_plain rfl)
  have hparse : parse "optional(tuple)" (some [⟨"b", "optional(optional(uint8))", none, none⟩,
      ⟨"a", "optional(address)", none, none⟩]) = .ok wrapped :=
    ofDescriptor_optional (d := "optional(tuple)".toList) rfl
      (ofDescriptor_tuple rfl (ofParams_cons ofDescriptor_optional_optional
        (ofParams_cons haddress ofParams_nil)))
  have hnames : wrapped.NativeNames := by
    refine .of_distinctNames (.optional (.tuple (by decide) ?_))
    simp only [List.forall_mem_cons]
    exact ⟨.optional (.optional (.integer ..)), .optional (.address _), nofun⟩
  let x : wrapped.native.Carrier := some (some none, none, ())
  let y : wrapped.native.Carrier := some (none, none, ())
  have hx : toValue x wrapped = .ok (.tuple [("a", .null), ("b", .null)]) := rfl
  have hy : toValue y wrapped = .ok (.tuple [("a", .null), ("b", .null)]) := rfl
  obtain ⟨-, -, hback, -⟩ := toValue_keeps_flat hparse hnames hx hy
  have hne : x ≠ y := fun h => Option.some_ne_none none (congrArg Prod.fst (Option.some.inj h))
  exact ⟨x, y, hne, hparse, hnames, _, _, hx, hy, equal_self _, hback⟩

/-- None and some of none are both converted to null. -/
theorem toValue_optional_optional :
    parse "optional(optional(uint8))" none = .ok (.optional (.optional (.uint 8))) ∧
      ∃ x y : (native (.optional (.optional (.uint 8)))).Carrier, x ≠ y ∧
        toValue x (.optional (.optional (.uint 8))) = .ok .null ∧
        toValue y (.optional (.optional (.uint 8))) = .ok .null :=
  ⟨ofDescriptor_optional_optional, (none : Option (Option Int)), (some none : Option (Option Int)),
    nofun, rfl, rfl⟩

end AbiType

end CellAbi
