import CellAbi.Proofs.Value.Members
import CellAbi.Proofs.Value.RoundTrip

/-!
# Fields beyond the type

A value has a JSON form iff the keys of all its maps have texts.  Conformance sees to that wherever
the type reaches; what it leaves open are the fields that no component of their tuple takes.

    (∃ json, toJson v = .ok json) ↔ Writable v                                (`exists_toJson_iff`)
    conforms type v = .ok () →
      ((∃ json, toJson v = .ok json) ↔ ∀ w, Surplus w type v → Writable w)
                                                                    (`exists_toJson_iff_surplus`)
-/

namespace CellAbi.Value

variable {type key : AbiType} {v w k : Value}

/-! ## Values with a JSON form -/

/-- All keys of all maps in the value have texts. -/
def Writable (v : Value) : Prop :=
  ∀ entries, Part (map entries) v → ∀ e ∈ entries, ∃ text, keyText e.1 = .ok text

theorem Writable.part (h : Writable v) (hw : Part w v) : Writable w :=
  fun entries he => h entries (he.trans hw)

theorem Writable.exists_toJson : ∀ {v}, Writable v → ∃ json, toJson v = .ok json
  | null, _ | int _, _ | bool _, _ | string _, _ | bytes _, _ | cell _, _ | address _, _ => ⟨_, rfl⟩
  | array items, h => exists_toJson_array fun item hi =>
    have := List.sizeOf_lt_of_mem hi
    Writable.exists_toJson (h.part (.item hi (.self item)))
  | map entries, h => exists_toJson_map (h entries (.self _)) fun e he =>
    have := sizeOf_value_lt he
    Writable.exists_toJson (h.part (.value he (.self e.2)))
  | tuple fields, h => exists_toJson_tuple fun e he =>
    have := sizeOf_field_lt he
    Writable.exists_toJson (h.part (.field he (.self e.2)))
termination_by v => sizeOf v

theorem exists_toJson_iff : (∃ json, toJson v = .ok json) ↔ Writable v := by
  refine ⟨fun h entries hpart e he => ?_, Writable.exists_toJson⟩
  obtain ⟨json, hjson⟩ := hpart.exists_toJson h
  obtain ⟨members, hmembers, -⟩ := toJson_map_eq_ok.1 hjson
  obtain ⟨m, -, hm⟩ := (Outcome.mapM_spec hmembers).2.1 e he
  exact ⟨m.1, (memberOfEntry_eq_ok.1 hm).1⟩

/-! ## Fields that no component takes -/

/-- `w` is the value of a field that no component of its tuple's type takes. -/
inductive Surplus (w : Value) (type : AbiType) (v : Value) : Prop
  | mk {components : List (String × AbiType)} {fields : List (String × Value)} {name : String}
    (htyped : Typed (.tuple components) (tuple fields) type v) (hmem : (name, w) ∈ fields)
    (huntaken : ∀ c ∈ components, c.1 = name → Sorted.lookup name fields ≠ some w)

theorem Surplus.part (h : Surplus w type v) : Part w v := by
  cases h with
  | mk htyped hmem _ => exact Part.trans (.field hmem (.self w)) htyped.part

theorem Surplus.of_typed {U : AbiType} {u : Value}
    (h : ∀ {T x}, Typed T x U u → Typed T x type v) (hw : Surplus w U u) : Surplus w type v := by
  cases hw with
  | mk htyped hmem huntaken => exact .mk (h htyped) hmem huntaken

/-- Keys of scalar types have texts. -/
theorem exists_keyText_of_conforms (h : conforms key k = .ok ()) (hscalar : key.isScalarKey = true)
    (hnull : k ≠ null) : ∃ text, keyText k = .ok text := by
  cases k with
  | null => exact absurd rfl hnull
  | int | bool | string | bytes | address => exact ⟨_, rfl⟩
  | cell | array | map | tuple =>
    cases key with
    | integer | bool | string | bytes | address => simp only [conforms, reduceCtorEq] at h
    | cell | array | optional | map | tuple => cases hscalar

/-- What the type reaches has a JSON form. -/
theorem exists_toJson_of_conforms (hlegal : type.Legal) : ∀ {v}, conforms type v = .ok () →
    (∀ w, Surplus w type v → Writable w) → ∃ json, toJson v = .ok json := by
  induction hlegal with
  | integer | bool | string | bytes | cell | address =>
    intro v h _
    cases v with
    | array | map | tuple => simp only [conforms, reduceCtorEq] at h
    | _ => exact ⟨_, rfl⟩
  | optional _ ih =>
    intro v h hw
    by_cases hne : v = null
    · exact ⟨.null, by rw [hne, toJson]⟩
    · rw [conforms_optional hne] at h
      exact ih h fun w hs => hw w (hs.of_typed (.inner hne))
  | array _ ih =>
    intro v h hw
    cases v with
    | array items =>
      exact exists_toJson_array fun item hi =>
        ih (conforms_array.1 h item hi) fun w hs => hw w (hs.of_typed (.item hi))
    | _ => simp only [conforms, reduceCtorEq] at h
  | map hscalar _ _ _ ih =>
    intro v h hw
    cases v with
    | map entries =>
      have hentry := conforms_map.1 h
      refine exists_toJson_map (fun e he => ?_) fun e he => ?_
      · exact exists_keyText_of_conforms (hentry e he).2.1 hscalar (hentry e he).1
      · exact ih (hentry e he).2.2 fun w hs => hw w (hs.of_typed (.value he))
    | _ => simp only [conforms, reduceCtorEq] at h
  | @tuple components _ _ ih =>
    intro v h hw
    cases v with
    | tuple fields =>
      refine exists_toJson_tuple fun f hf => ?_
      by_cases htaken : ∃ c ∈ components, c.1 = f.1 ∧ Sorted.lookup f.1 fields = some f.2
      · obtain ⟨c, hc, hname, hlookup⟩ := htaken
        rw [← hname] at hlookup
        obtain ⟨u, hu, hconforms⟩ := conforms_tuple.1 h c hc
        obtain rfl := Option.some.inj (hlookup.symm.trans hu)
        exact ih c hc hconforms fun w hs => hw w (hs.of_typed (.field hc hlookup))
      · exact (hw f.2 (.mk .self hf fun c hc hname hlookup =>
          htaken ⟨c, hc, hname, hlookup⟩)).exists_toJson
    | _ => simp only [conforms, reduceCtorEq] at h

theorem exists_toJson_iff_surplus (hlegal : type.Legal) (h : conforms type v = .ok ()) :
    (∃ json, toJson v = .ok json) ↔ ∀ w, Surplus w type v → Writable w :=
  ⟨fun hjson _ hw => (exists_toJson_iff.1 hjson).part hw.part, exists_toJson_of_conforms hlegal h⟩

end CellAbi.Value
