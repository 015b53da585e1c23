import CellAbi.Proofs.Outcome
import CellAbi.Proofs.Value.Part

/-!
# Conformance and parts

A composite value conforms to a type iff its parts conform to the types that are declared for them.
`Typed U w type v` says which parts these are and of which types; the fields of a tuple that no
component names are not among them.  Some parts are direct: they stand in optionals and tuples only.

    conforms (.map key value) (map entries) = .ok () ↔ ∀ e ∈ entries, …            (`conforms_map`)
    conforms type v = .ok () → Typed U w type v → conforms U w = .ok ()          (`Typed.conforms`)
-/

namespace CellAbi.Value

variable {type U : AbiType} {v w : Value}

/-! ## Values without parts -/

theorem conforms_bytes {length : Option Nat} {b : List UInt8} :
    conforms (.bytes length) (bytes b) = .ok () ↔ ∀ n, length = some n → b.length = n := by
  cases length with
  | none => exact iff_of_true (by rw [conforms]) nofun
  | some n =>
    rw [conforms]
    split
    · next hlen => exact iff_of_true rfl fun m hm => Option.some.inj hm ▸ hlen
    · next hlen => exact iff_of_false nofun fun h => hlen (h n rfl)

/-- The address is not one that the strict type excludes. -/
theorem isExternal_iff {strict : Bool} {a : Address} :
    (strict && a.standard?.isNone) = true ↔ ¬ (strict = true → a.standard?.isSome = true) := by
  cases strict <;> simp

theorem conforms_address {strict : Bool} {a : Address} :
    conforms (.address strict) (address a) = .ok () ↔
      (strict = true → a.standard?.isSome = true) := by
  show (if strict && a.standard?.isNone then Except.error _ else .ok ()) = .ok () ↔ _
  split
  · next hexternal => exact iff_of_false nofun (isExternal_iff.1 hexternal)
  · next hexternal => exact iff_of_true rfl (not_not.1 (isExternal_iff.not.1 hexternal))

/-! ## Composite types -/

theorem isNull_iff : v.isNull = true ↔ v = null := by
  cases v <;> simp [isNull]

theorem conforms_optional {inner : AbiType} (hne : v ≠ null) :
    conforms (.optional inner) v = conforms inner v := by
  cases v with
  | null => exact absurd rfl hne
  | _ => rfl

theorem conforms_optional_of {inner : AbiType} (h : conforms inner v = .ok ()) :
    conforms (.optional inner) v = .ok () := by
  by_cases hne : v = null
  · rw [hne]
    rfl
  · rw [conforms_optional hne, h]

theorem conforms_array {element : AbiType} {items : List Value} :
    conforms (.array element) (array items) = .ok () ↔
      ∀ item ∈ items, conforms element item = .ok () := by
  show items.forM (conforms element) = .ok () ↔ _
  rw [Outcome.forM_eq_ok]

theorem conforms_map {key value : AbiType} {entries : List (Value × Value)} :
    conforms (.map key value) (map entries) = .ok () ↔
      ∀ e ∈ entries, e.1 ≠ null ∧ conforms key e.1 = .ok () ∧ conforms value e.2 = .ok () := by
  rw [conforms, Outcome.forM_eq_ok]
  refine forall₂_congr fun e _ => ?_
  show (if e.1.isNull then do
      throw (.mismatch key.toText "null")
      conforms key e.1
      conforms value e.2
    else do
      conforms key e.1
      conforms value e.2) = .ok () ↔ _
  split
  · next hnull => exact iff_of_false nofun fun h => h.1 (isNull_iff.1 hnull)
  · next hnull =>
    have hne : e.1 ≠ null := fun h => hnull (isNull_iff.2 h)
    rw [Outcome.bind_eq_ok, and_iff_right hne]
    exact ⟨fun ⟨_, hkey, hvalue⟩ => ⟨hkey, hvalue⟩, fun ⟨hkey, hvalue⟩ => ⟨(), hkey, hvalue⟩⟩

theorem conforms_tuple {components : List (String × AbiType)} {fields : List (String × Value)} :
    conforms (.tuple components) (tuple fields) = .ok () ↔
      ∀ c ∈ components, ∃ v, Sorted.lookup c.1 fields = some v ∧ conforms c.2 v = .ok () := by
  show conformsAll components fields = .ok () ↔ _
  induction components with
  | nil => exact iff_of_true rfl fun _ hc => absurd hc List.not_mem_nil
  | cons c rest ih =>
    rw [List.forall_mem_cons, ← ih]
    cases c with
    | mk name type =>
      rw [conformsAll]
      cases Sorted.lookup name fields with
      | none => exact iff_of_false nofun fun ⟨⟨v, hv, _⟩, _⟩ => nomatch hv
      | some v =>
        rw [Outcome.bind_eq_ok]
        constructor
        · rintro ⟨_, hv, hrest⟩
          exact ⟨⟨v, rfl, hv⟩, hrest⟩
        · rintro ⟨⟨v', hv', hconforms⟩, hrest⟩
          cases hv'
          exact ⟨(), hconforms, hrest⟩

/-- Named values conform to components whose names are pairwise different, in whatever order. -/
theorem conforms_tuple_ofList {components : List (String × AbiType)}
    {fields : List (String × Value)} (hnames : fields.Pairwise fun a b => a.1 ≠ b.1)
    (h : ∀ c ∈ components, ∃ v, (c.1, v) ∈ fields ∧ conforms c.2 v = .ok ()) :
    conforms (.tuple components) (tuple (Sorted.ofList fields)) = .ok () := by
  refine conforms_tuple.2 fun c hc => ?_
  obtain ⟨v, hv, hconforms⟩ := h c hc
  exact ⟨v, (Sorted.lookup_ofList hnames).2 hv, hconforms⟩

/-! ## Typed parts -/

/-- `w` is, or stands in, the value `v` of type `type`, where the type `U` is declared for it. -/
inductive Typed (U : AbiType) (w : Value) : AbiType → Value → Prop
  | self : Typed U w U w
  | inner {inner : AbiType} {v : Value} (hne : v ≠ null) (h : Typed U w inner v) :
    Typed U w (.optional inner) v
  | item {element : AbiType} {items : List Value} {item : Value} (hitem : item ∈ items)
    (h : Typed U w element item) : Typed U w (.array element) (array items)
  | key {key value : AbiType} {entries : List (Value × Value)} {e : Value × Value}
    (he : e ∈ entries) (h : Typed U w key e.1) : Typed U w (.map key value) (map entries)
  | value {key value : AbiType} {entries : List (Value × Value)} {e : Value × Value}
    (he : e ∈ entries) (h : Typed U w value e.2) : Typed U w (.map key value) (map entries)
  | field {components : List (String × AbiType)} {fields : List (String × Value)}
    {c : String × AbiType} {v : Value} (hc : c ∈ components)
    (hv : Sorted.lookup c.1 fields = some v) (h : Typed U w c.2 v) :
    Typed U w (.tuple components) (tuple fields)

theorem Typed.trans {T : AbiType} {u : Value} (h : Typed U w T u) (hu : Typed T u type v) : Typed U w type v := by
  induction hu with
  | self => exact h
  | inner hne _ ih => exact .inner hne ih
  | item hitem _ ih => exact .item hitem ih
  | key he _ ih => exact .key he ih
  | value he _ ih => exact .value he ih
  | field hc hv _ ih => exact .field hc hv ih

theorem Typed.part (h : Typed U w type v) : Part w v := by
  induction h with
  | self => exact .self w
  | inner _ _ ih => exact ih
  | item hitem _ ih => exact .item hitem ih
  | key he _ ih => exact .key he ih
  | value he _ ih => exact .value he ih
  | field _ hv _ ih => exact .field (Sorted.mem_of_lookup hv) ih

/-- The typed parts of a value that conforms do so as well. -/
theorem Typed.conforms (h : Typed U w type v) :
    Value.conforms type v = .ok () → Value.conforms U w = .ok () := by
  induction h with
  | self => exact id
  | inner hne _ ih =>
    intro hv
    rw [conforms_optional hne] at hv
    exact ih hv
  | item hitem _ ih => exact fun hv => ih (conforms_array.1 hv _ hitem)
  | key he _ ih => exact fun hv => ih (conforms_map.1 hv _ he).2.1
  | value he _ ih => exact fun hv => ih (conforms_map.1 hv _ he).2.2
  | field hc hlookup _ ih =>
    intro hv
    obtain ⟨v, hlookup', hconforms⟩ := conforms_tuple.1 hv _ hc
    obtain rfl := Option.some.inj (hlookup.symm.trans hlookup')
    exact ih hconforms

/-- `w` stands in `v` below optionals and tuples alone. -/
inductive Direct (U : AbiType) (w : Value) : AbiType → Value → Prop
  | self : Direct U w U w
  | inner {inner : AbiType} {v : Value} (hne : v ≠ null) (h : Direct U w inner v) :
    Direct U w (.optional inner) v
  | field {components : List (String × AbiType)} {fields : List (String × Value)}
    {c : String × AbiType} {v : Value} (hc : c ∈ components)
    (hv : Sorted.lookup c.1 fields = some v) (h : Direct U w c.2 v) :
    Direct U w (.tuple components) (tuple fields)

theorem Direct.typed (h : Direct U w type v) : Typed U w type v := by
  induction h with
  | self => exact .self
  | inner hne _ ih => exact .inner hne ih
  | field hc hv _ ih => exact .field hc hv ih

end CellAbi.Value
