import CellAbi.Proofs.Address.Storing
import CellAbi.Proofs.Value.Surplus
import CellAbi.Proofs.Wire.RoundTrip

/-!
# Encoding and conformance

Only values that conform to their types are encoded.  The other way round, given a service that
never fails, a value that conforms is encoded unless one of two things is in the way: an address
that no cell holds, or a map without a JSON form in a field that the type does not name.

    Succeeds (encode codec name type v) s ↔ Encodable type v                   (`succeeds_encode`)
-/

namespace CellAbi

open Outcome

namespace AbiType

/-- The types whose values go through the service with everything that stands in them. -/
def IsCollection : AbiType → Prop
  | array _ | map _ _ => True
  | _ => False

/-- The types whose values fit into items whatever they are. -/
def IsPlain : AbiType → Prop
  | integer .. | bool | string | bytes _ | cell => True
  | _ => False

end AbiType

namespace Value

variable {type inner U : AbiType} {v w u : Value} {components : List (String × AbiType)}
  {fields : List (String × Value)}

/-! ## Values that are encoded -/

/-- The value conforms, its addresses fit into cells as far as they stand in cells of their own, and
fields that are not of the type do not keep its arrays and maps from being written. -/
structure Encodable (type : AbiType) (v : Value) : Prop where
  conforms : conforms type v = .ok ()
  storable : ∀ strict a, Direct (.address strict) (address (.standard a)) type v → a.Storable
  writable : ∀ U u w, Direct U u type v → U.IsCollection → Surplus w U u → Writable w

theorem encodable_absent (inner : AbiType) : Encodable (.optional inner) null where
  conforms := by rw [Value.conforms]
  storable _ _ h := by
    cases h with
    | inner hne => exact absurd rfl hne
  writable _ _ _ h hU := by
    cases h with
    | self => exact hU.elim
    | inner hne => exact absurd rfl hne

theorem encodable_present (hne : v ≠ null) :
    Encodable (.optional inner) v ↔ Encodable inner v := by
  constructor
  · rintro ⟨hconforms, hstorable, hwritable⟩
    rw [conforms_optional hne] at hconforms
    exact ⟨hconforms, fun strict a h => hstorable strict a (.inner hne h),
      fun U u w h => hwritable U u w (.inner hne h)⟩
  · rintro ⟨hconforms, hstorable, hwritable⟩
    refine ⟨by rwa [conforms_optional hne], fun strict a h => ?_, fun U u w h hU => ?_⟩
    · cases h with
      | inner _ h => exact hstorable strict a h
    · cases h with
      | self => exact hU.elim
      | inner _ h => exact hwritable U u w h hU

theorem encodable_tuple : Encodable (.tuple components) (tuple fields) ↔
    ∀ c ∈ components, ∃ w, Sorted.lookup c.1 fields = some w ∧ Encodable c.2 w := by
  constructor
  · rintro ⟨hconforms, hstorable, hwritable⟩ c hc
    obtain ⟨w, hlookup, hw⟩ := conforms_tuple.1 hconforms c hc
    exact ⟨w, hlookup, hw, fun strict a h => hstorable strict a (.field hc hlookup h),
      fun U u x h => hwritable U u x (.field hc hlookup h)⟩
  · intro h
    refine ⟨conforms_tuple.2 fun c hc => ?_, fun strict a hdirect => ?_, fun U u x hdirect hU => ?_⟩
    · obtain ⟨w, hlookup, hw⟩ := h c hc
      exact ⟨w, hlookup, hw.conforms⟩
    · cases hdirect with
      | field hc hlookup hdirect =>
        obtain ⟨w, hlookup', hw⟩ := h _ hc
        obtain rfl := Option.some.inj (hlookup.symm.trans hlookup')
        exact hw.storable strict a hdirect
    · cases hdirect with
      | self => exact hU.elim
      | field hc hlookup hdirect =>
        obtain ⟨w, hlookup', hw⟩ := h _ hc
        obtain rfl := Option.some.inj (hlookup.symm.trans hlookup')
        exact hw.writable U u x hdirect hU

/-- Values of no optionals and tuples have no direct parts but themselves. -/
theorem Direct.eq (h : Direct U u type v) (hoptional : ∀ inner, type ≠ .optional inner)
    (htuple : ∀ components, type ≠ .tuple components) : U = type ∧ u = v := by
  cases h with
  | self => exact ⟨rfl, rfl⟩
  | inner => exact absurd rfl (hoptional _)
  | field => exact absurd rfl (htuple _)

theorem encodable_plain (type : AbiType) (hplain : type.IsPlain) :
    Encodable type v ↔ Value.conforms type v = .ok () := by
  have hoptional : ∀ inner, type ≠ .optional inner := by rintro inner rfl; exact hplain
  have htuple : ∀ components, type ≠ .tuple components := by rintro components rfl; exact hplain
  refine ⟨Encodable.conforms, fun h => ⟨h, fun strict a hdirect => ?_, fun U u w hdirect hU => ?_⟩⟩
  · obtain ⟨rfl, -⟩ := hdirect.eq hoptional htuple
    exact hplain.elim
  · obtain ⟨rfl, -⟩ := hdirect.eq hoptional htuple
    cases U with
    | array | map => exact hplain.elim
    | _ => exact hU.elim

theorem encodable_address {strict : Bool} : Encodable (.address strict) v ↔
    Value.conforms (.address strict) v = .ok () ∧ ∀ a, v = address (.standard a) → a.Storable := by
  constructor
  · rintro ⟨hconforms, hstorable, -⟩
    refine ⟨hconforms, ?_⟩
    rintro a rfl
    exact hstorable strict a .self
  · rintro ⟨hconforms, hstorable⟩
    refine ⟨hconforms, fun _ a hdirect => hstorable a (hdirect.eq nofun nofun).2.symm,
      fun U u w hdirect hU => ?_⟩
    obtain ⟨rfl, -⟩ := hdirect.eq nofun nofun
    exact hU.elim

theorem encodable_collection (hlegal : type.Legal) (hU : type.IsCollection) :
    Encodable type v ↔ Value.conforms type v = .ok () ∧ ∃ json, toJson v = .ok json := by
  have hoptional : ∀ inner, type ≠ .optional inner := by rintro inner rfl; exact hU
  have htuple : ∀ components, type ≠ .tuple components := by rintro components rfl; exact hU
  constructor
  · rintro ⟨hconforms, -, hwritable⟩
    refine ⟨hconforms, (exists_toJson_iff_surplus hlegal hconforms).2 fun w hw => ?_⟩
    exact hwritable type v w .self hU hw
  · rintro ⟨hconforms, hjson⟩
    refine ⟨hconforms, fun strict a hdirect => ?_, fun U u w hdirect _ hw => ?_⟩
    · obtain ⟨rfl, -⟩ := hdirect.eq hoptional htuple
      exact hU.elim
    · obtain ⟨rfl, rfl⟩ := hdirect.eq hoptional htuple
      exact (exists_toJson_iff_surplus hlegal hconforms).1 hjson w hw

end Value

/-! ## Encoding -/

/-- The service encodes whatever it is given. -/
def Codec.EncodesAll {σ : Type} (codec : Codec σ) : Prop :=
  ∀ p json s, ∃ c, (codec.encode p json s).1 = .ok c

namespace Wire

open Value

variable {σ : Type} {codec : Codec σ} {name : String} {type : AbiType} {v : Value} {s : σ}

theorem succeeds_ofExcept {ε α : Type} {x : Except ε α} :
    Succeeds (ofExcept x : EStateM ε σ α) s ↔ ∃ a, x = .ok a :=
  ⟨fun ⟨a, _, h⟩ => ⟨a, (run_ofExcept.1 h).1⟩, fun ⟨a, h⟩ => ⟨a, s, run_ofExcept.2 ⟨h, rfl⟩⟩⟩

theorem exists_eq_ok {ε : Type} {x : Except ε Unit} : (∃ a, x = .ok a) ↔ x = .ok () :=
  ⟨fun ⟨_, h⟩ => h, fun h => ⟨(), h⟩⟩

theorem succeeds_encodeCell (hcodec : codec.EncodesAll) :
    Succeeds (encodeCell codec name type v) s ↔
      Value.conforms type v = .ok () ∧ ∃ json, toJson v = .ok json := by
  have hcall : ∀ json s, Succeeds (Codec.call (codec.encode (type.toParam name) json)) s := by
    intro json s
    obtain ⟨c, hc⟩ := hcodec (type.toParam name) json s
    exact ⟨c, _, run_call.2 ⟨hc, rfl⟩⟩
  have hjson : ∀ (_ : Unit) s, Succeeds (do
      let json ← ofExcept v.toJson
      Codec.call (codec.encode (type.toParam name) json)) s ↔ ∃ json, toJson v = .ok json := by
    intro _ s
    rw [succeeds_bind fun json s => iff_true_intro (hcall json s), and_true, succeeds_ofExcept]
  rw [encodeCell, succeeds_bind hjson, succeeds_ofExcept, exists_eq_ok]

theorem exists_addressItem {a : Option Address} :
    (∃ item, addressItem a = .ok item) ↔ ∃ c, Cell.ofStore (Store.address a) = .ok c := by
  unfold addressItem
  split
  · next c hc => exact iff_of_true ⟨_, rfl⟩ ⟨c, hc⟩
  · next hc =>
    rw [hc]
    exact iff_of_false nofun nofun

theorem succeeds_encodeFields {components : List (String × AbiType)}
    (h : ∀ c ∈ components, ∀ w s, Succeeds (encode codec c.1 c.2 w) s ↔ Encodable c.2 w)
    (fields : List (String × Value)) : ∀ s, Succeeds (encodeFields codec components fields) s ↔
      ∀ c ∈ components, ∃ w, Sorted.lookup c.1 fields = some w ∧ Encodable c.2 w := by
  induction components with
  | nil =>
    intro s
    rw [encodeFields]
    exact iff_of_true (succeeds_pure _) fun _ hc => absurd hc List.not_mem_nil
  | cons c rest ih =>
    intro s
    obtain ⟨hc, hrest⟩ := List.forall_mem_cons.1 h
    rw [encodeFields, List.forall_mem_cons]
    cases hlookup : Sorted.lookup c.1 fields with
    | none =>
      refine iff_of_false not_succeeds_throw ?_
      rintro ⟨⟨w, hw, -⟩, -⟩
      cases hw
    | some w =>
      have htail : ∀ item s, Succeeds (do
          let items ← encodeFields codec rest fields
          return (item : Item) :: items) s ↔
          ∀ c ∈ rest, ∃ w, Sorted.lookup c.1 fields = some w ∧ Encodable c.2 w :=
        fun item s => succeeds_map.trans (ih hrest s)
      show Succeeds (encode codec c.1 c.2 w >>= _) s ↔ _
      rw [succeeds_bind htail, hc]
      refine and_congr_left' ⟨fun hw => ⟨w, rfl, hw⟩, ?_⟩
      rintro ⟨w', hw', hencodable⟩
      obtain rfl := Option.some.inj hw'
      exact hencodable

/-- A value of another kind than its type is neither encoded nor does it conform. -/
theorem succeeds_encode_mismatch
    (hencode : encode codec name type v = throw (kindMismatch type v))
    (hconforms : conforms type v = .error (kindMismatch type v)) :
    Succeeds (encode codec name type v) s ↔ Encodable type v := by
  rw [hencode]
  exact iff_of_false not_succeeds_throw fun h => nomatch hconforms.symm.trans h.conforms

theorem succeeds_encode_address {strict : Bool} :
    Succeeds (encode codec name (.address strict) v) s ↔ Encodable (.address strict) v := by
  cases v with
  | null =>
    rw [encode, succeeds_ofExcept, exists_addressItem, exists_ofStore_address, encodable_address,
      conforms]
    refine iff_of_true trivial ⟨rfl, fun b hb => ?_⟩
    cases hb
  | address a =>
    have hitem : ∀ (_ : Unit) s, Succeeds (ofExcept (addressItem (some a)) : Encode σ Item) s ↔
        ∀ b, address a = address (.standard b) → b.Storable := by
      intro _ s
      rw [succeeds_ofExcept, exists_addressItem, exists_ofStore_address]
      cases a with
      | standard a =>
        refine ⟨?_, fun h => h a rfl⟩
        intro h b hb
        cases hb
        exact h
      | external a =>
        refine iff_of_true trivial fun b hb => ?_
        cases hb
    rw [encode, succeeds_bind hitem, succeeds_ofExcept, exists_eq_ok, encodable_address]
  | _ => exact succeeds_encode_mismatch (by simp only [encode]) (by simp only [conforms])

/-- By the constructors of the type. -/
theorem succeeds_encode (hcodec : codec.EncodesAll) (hlegal : type.Legal) :
    ∀ {name v s}, Succeeds (encode codec name type v) s ↔ Encodable type v := by
  induction hlegal with
  | integer =>
    intro name v s
    cases v with
    | int i =>
      refine Iff.trans ?_ (encodable_plain (.integer _ _) trivial).symm
      rw [encode, succeeds_bind fun _ _ => iff_true_intro (succeeds_pure _), and_true,
        succeeds_ofExcept, exists_eq_ok, conforms]
    | _ => exact succeeds_encode_mismatch (by simp only [encode]) (by simp only [conforms])
  | bool =>
    intro name v s
    cases v with
    | bool b =>
      rw [encode]
      exact iff_of_true (succeeds_pure _) ((encodable_plain .bool trivial).2 rfl)
    | _ => exact succeeds_encode_mismatch (by simp only [encode]) (by simp only [conforms])
  | string =>
    intro name v s
    cases v with
    | string text =>
      rw [encode, succeeds_map, succeeds_encodeCell hcodec, and_iff_left ⟨_, rfl⟩]
      exact (encodable_plain .string trivial).symm
    | _ => exact succeeds_encode_mismatch (by simp only [encode]) (by simp only [conforms])
  | bytes =>
    intro name v s
    cases v with
    | bytes b =>
      rw [encode, succeeds_map, succeeds_encodeCell hcodec, and_iff_left ⟨_, rfl⟩]
      exact (encodable_plain (.bytes _) trivial).symm
    | _ => exact succeeds_encode_mismatch (by simp only [encode]) (by simp only [conforms])
  | cell =>
    intro name v s
    cases v with
    | cell c =>
      rw [encode]
      exact iff_of_true (succeeds_pure _) ((encodable_plain .cell trivial).2 rfl)
    | _ => exact succeeds_encode_mismatch (by simp only [encode]) (by simp only [conforms])
  | address strict => exact succeeds_encode_address
  | array helement _ =>
    intro name v s
    cases v with
    | array items =>
      rw [encode, succeeds_map, succeeds_encodeCell hcodec,
        encodable_collection (.array helement) trivial]
    | _ => exact succeeds_encode_mismatch (by simp only [encode]) (by simp only [conforms])
  | optional _ ih =>
    intro name v s
    by_cases hne : v = null
    · rw [hne, encode]
      exact iff_of_true (succeeds_pure _) (encodable_absent _)
    · rw [encode_optional hne, encodable_present hne]
      exact ih
  | map hscalar hkey hvalue _ _ =>
    intro name v s
    cases v with
    | map entries =>
      rw [encode, succeeds_map, succeeds_encodeCell hcodec,
        encodable_collection (.map hscalar hkey hvalue) trivial]
    | _ => exact succeeds_encode_mismatch (by simp only [encode]) (by simp only [conforms])
  | tuple _ _ ih =>
    intro name v s
    cases v with
    | tuple fields =>
      rw [encode, succeeds_map, encodable_tuple]
      exact succeeds_encodeFields (fun c hc w s => ih c hc) fields s
    | _ => exact succeeds_encode_mismatch (by simp only [encode]) (by simp only [conforms])

/-- Given a service that never fails, a value of a type that is read from a descriptor is encoded
iff it conforms, its standard addresses below optionals and tuples alone have workchains of eight
bits, and in the arrays and maps there, the fields that no component takes have texts for all keys
of maps. -/
theorem encode_iff_conforms {descriptor : String} {params : Option (List Param)}
    (hparse : AbiType.parse descriptor params = .ok type) (hcodec : codec.EncodesAll)
    (name : String) (v : Value) (s : σ) :
    (∃ item s', (encode codec name type v).run s = .ok item s') ↔
      conforms type v = .ok () ∧
      (∀ strict a, Direct (.address strict) (address (.standard a)) type v →
        -2 ^ 7 ≤ a.workchain.toInt ∧ a.workchain.toInt < 2 ^ 7) ∧
      ∀ U u w, Direct U u type v → U.IsCollection → Surplus w U u →
        ∀ entries, Part (map entries) w → ∀ e ∈ entries, ∃ text, keyText e.1 = .ok text := by
  have hencode : (∃ item s', (encode codec name type v).run s = .ok item s') ↔ Encodable type v :=
    succeeds_encode hcodec (AbiType.legal_of_parse hparse)
  rw [hencode]
  exact ⟨fun h => ⟨h.conforms, h.storable, h.writable⟩, fun ⟨h₁, h₂, h₃⟩ => ⟨h₁, h₂, h₃⟩⟩

/-- A service that writes every value as the empty cell. -/
def blank : Codec Unit where
  encode _ _ _ := (.ok .empty, ())
  decode _ _ _ := (.error ⟨"decode", "empty cell"⟩, ())
  decodeState _ _ _ := (.error ⟨"decode", "empty cell"⟩, ())

theorem encodesAll_blank : blank.EncodesAll := fun _ _ _ => ⟨.empty, rfl⟩

/-- An address of a workchain. -/
def inWorkchain (workchain : Int32) : Value :=
  address (.standard ⟨workchain, ⟨List.replicate 32 0, rfl⟩⟩)

/-- The last workchain that has eight bits. -/
theorem encode_iff_conforms_last :
    AbiType.parse "address" none = .ok (.address false) ∧ blank.EncodesAll ∧
      ∃ item s', (encode blank "to" (.address false) (inWorkchain 127)).run () = .ok item s' := by
  have hparse : AbiType.parse "address" none = .ok (.address false) :=
    AbiType.ofDescriptor_plain rfl
  refine ⟨hparse, encodesAll_blank,
    (encode_iff_conforms hparse encodesAll_blank _ _ _).2 ⟨rfl, ?_, ?_⟩⟩
  · intro strict a h
    cases h with
    | self => exact ⟨by decide, by decide⟩
  · intro U u w h hU
    cases h with
    | self => exact hU.elim

/-- A value with a map beside the declared component; null is no key with a text. -/
def nullKey : Value := array [tuple [("a", bool true), ("b", map [(null, null)])]]

/-- A service that never fails does not make up for a workchain that is too large, nor for a key
without a text in a field that the type does not name. -/
theorem encode_refuses_conforming :
    blank.EncodesAll ∧
    (∃ type, AbiType.parse "address" none = .ok type ∧ conforms type (inWorkchain 128) = .ok () ∧
      ¬ ∃ item s', (encode blank "to" type (inWorkchain 128)).run () = .ok item s') ∧
    ∃ type, AbiType.parse "tuple[]" (some [⟨"a", "bool", none, none⟩]) = .ok type ∧
      conforms type nullKey = .ok () ∧
      ¬ ∃ item s', (encode blank "items" type nullKey).run () = .ok item s' := by
  refine ⟨encodesAll_blank, ?_, ?_⟩
  · have hrun : (encode blank "to" (.address false) (inWorkchain 128)).run () =
        .error (.cell (.valueOutOfRange 128 8)) () := rfl
    refine ⟨.address false, AbiType.ofDescriptor_plain rfl, rfl, ?_⟩
    rw [hrun]
    exact nofun
  · have hrun : (encode blank "items" (.array (.tuple [("a", .bool)])) nullKey).run () =
        .error (.unsupportedMapKey "null") () := rfl
    refine ⟨.array (.tuple [("a", .bool)]), ?_, rfl, ?_⟩
    · exact AbiType.ofDescriptor_array (d := "tuple[]".toList) rfl
        (AbiType.ofDescriptor_tuple rfl
          (AbiType.ofParams_cons (AbiType.ofDescriptor_plain rfl) AbiType.ofParams_nil))
    · rw [hrun]
      exact nofun

end Wire

end CellAbi
