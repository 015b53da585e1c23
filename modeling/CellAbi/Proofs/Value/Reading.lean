import CellAbi.Proofs.Value.Json

/-!
# Values read from JSON

What is read as a value of a type conforms to the type, be the JSON text whatever it may.  The one
condition is on the type: where two components of a tuple have one name, the last of their values is
checked against the type of the first.

    type.DistinctNames → ofJson type json = .ok v → conforms type v = .ok ()  (`conforms_of_ofJson`)
-/

namespace CellAbi

/-- No tuple of the type, at any depth, has two components of one name. -/
inductive AbiType.DistinctNames : AbiType → Prop
  | integer (signed : Bool) (width : IntWidth) : DistinctNames (.integer signed width)
  | bool : DistinctNames .bool
  | string : DistinctNames .string
  | bytes (length : Option Nat) : DistinctNames (.bytes length)
  | cell : DistinctNames .cell
  | address (strict : Bool) : DistinctNames (.address strict)
  | array {element : AbiType} (h : DistinctNames element) : DistinctNames (.array element)
  | optional {inner : AbiType} (h : DistinctNames inner) : DistinctNames (.optional inner)
  | map {key value : AbiType} (hkey : DistinctNames key) (hvalue : DistinctNames value) :
    DistinctNames (.map key value)
  | tuple {components : List (String × AbiType)}
    (hnames : components.Pairwise fun a b => a.1 ≠ b.1)
    (h : ∀ c ∈ components, DistinctNames c.2) : DistinctNames (.tuple components)

namespace Value

variable {type key : AbiType} {v : Value} {json : Json}

/-! ## Values without parts -/

theorem length_of_bytesOfJson {n : Nat} {b : List UInt8} (h : bytesOfJson (some n) json = .ok b) :
    b.length = n := by
  unfold bytesOfJson at h
  obtain ⟨text, -, h⟩ := Outcome.bind_eq_ok.1 h
  obtain ⟨read, -, h⟩ := Outcome.bind_eq_ok.1 h
  have hcheck : (if read.length ≠ n then do
      throw (.invalidJson (.bytes (some n)) (.byteCount n read.length))
      pure read
    else pure read) = (.ok b : Except AbiError (List UInt8)) := h
  split at hcheck
  · cases hcheck
  · next hlen =>
    obtain rfl := Except.ok.inj hcheck
    exact not_not.1 hlen

/-- Only null is read as no address, and under the strict type every address is a standard one. -/
theorem addressOfJson_eq_ok {strict : Bool} (h : addressOfJson strict json = .ok v) :
    (json = .null ∧ v = null) ∨
      ∃ a, v = address a ∧ (strict = true → a.standard?.isSome = true) := by
  unfold addressOfJson at h
  split at h
  · next hnull =>
    cases json with
    | null => exact .inl ⟨rfl, (Except.ok.inj h).symm⟩
    | _ => cases hnull
  · obtain ⟨text, -, h⟩ := Outcome.bind_eq_ok.1 h
    obtain ⟨a, ha, rfl⟩ := Outcome.bind_pure_eq_ok.1 h
    refine .inr ⟨a, rfl, ?_⟩
    rintro rfl
    rw [if_pos rfl] at ha
    cases hraw : StandardAddress.ofRaw text with
    | error e =>
      rw [hraw] at ha
      cases ha
    | ok s =>
      rw [hraw] at ha
      cases ha
      rfl

/-! ## Keys -/

/-- No text is read as null. -/
theorem ne_null_of_ofJson_string {text : String} :
    ∀ {type : AbiType}, ofJson type (.string text) = .ok v → v ≠ null
  | .optional inner, h => by
    have hne : Json.string text ≠ .null := Json.noConfusion
    rw [ofJson_optional inner hne] at h
    exact ne_null_of_ofJson_string h
  | .integer .., h => by
    rw [ofJson] at h
    obtain ⟨i, -, h⟩ := Outcome.bind_eq_ok.1 h
    obtain ⟨_, -, rfl⟩ := Outcome.bind_pure_eq_ok.1 h
    exact Value.noConfusion
  | .bool, h => by
    obtain ⟨b, -, rfl⟩ := Outcome.map_eq_ok.1 h
    exact Value.noConfusion
  | .string, h => by
    obtain ⟨s, -, rfl⟩ := Outcome.map_eq_ok.1 h
    exact Value.noConfusion
  | .bytes _, h => by
    obtain ⟨b, -, rfl⟩ := Outcome.map_eq_ok.1 h
    exact Value.noConfusion
  | .cell, h => by
    obtain ⟨_, -, h⟩ := Outcome.bind_eq_ok.1 h
    obtain ⟨c, -, rfl⟩ := Outcome.bind_pure_eq_ok.1 h
    exact Value.noConfusion
  | .address _, h => by
    rcases addressOfJson_eq_ok h with ⟨h, -⟩ | ⟨a, rfl, -⟩
    · cases h
    · exact Value.noConfusion
  | .array _, h => by cases h
  | .map .., h => by cases h
  | .tuple _, h => by cases h

/-! ## All values -/

theorem fieldOfComponent_eq_ok {tuple : AbiType} {members : List (String × Json)}
    {c : String × AbiType} {f : String × Value} (h : fieldOfComponent tuple members c = .ok f) :
    f.1 = c.1 ∧ ∃ json, (c.1, json) ∈ members ∧ ofJson c.2 json = .ok f.2 := by
  unfold fieldOfComponent at h
  split at h
  · cases h
  · next json hjson =>
    obtain ⟨v, hv, rfl⟩ := Outcome.bind_pure_eq_ok.1 h
    exact ⟨rfl, json, Sorted.mem_of_lookup hjson, hv⟩

/-- What is read from JSON conforms to the type it is read as. -/
theorem conforms_of_ofJson (hnames : type.DistinctNames) :
    ∀ {json v}, ofJson type json = .ok v → conforms type v = .ok () := by
  induction hnames with
  | integer signed width =>
    intro json v h
    rw [ofJson] at h
    obtain ⟨i, -, h⟩ := Outcome.bind_eq_ok.1 h
    obtain ⟨_, hcheck, h⟩ := Outcome.bind_eq_ok.1 h
    obtain rfl := Except.ok.inj h
    rw [conforms]
    exact hcheck
  | bool =>
    intro json v h
    rw [ofJson] at h
    obtain ⟨b, -, rfl⟩ := Outcome.map_eq_ok.1 h
    rw [conforms]
  | string =>
    intro json v h
    rw [ofJson] at h
    obtain ⟨s, -, rfl⟩ := Outcome.map_eq_ok.1 h
    rw [conforms]
  | bytes length =>
    intro json v h
    rw [ofJson] at h
    obtain ⟨b, hb, rfl⟩ := Outcome.map_eq_ok.1 h
    exact conforms_bytes.2 fun n hn => length_of_bytesOfJson (hn ▸ hb)
  | cell =>
    intro json v h
    rw [ofJson] at h
    obtain ⟨text, -, h⟩ := Outcome.bind_eq_ok.1 h
    obtain ⟨c, -, rfl⟩ := Outcome.bind_pure_eq_ok.1 h
    rw [conforms]
  | address strict =>
    intro json v h
    rw [ofJson] at h
    rcases addressOfJson_eq_ok h with ⟨-, rfl⟩ | ⟨a, rfl, ha⟩
    · rw [conforms]
    · exact conforms_address.2 ha
  | array _ ih =>
    intro json v h
    cases json with
    | array items =>
      rw [ofJson] at h
      obtain ⟨vs, hvs, rfl⟩ := Outcome.map_eq_ok.1 h
      refine conforms_array.2 fun item hitem => ?_
      obtain ⟨j, -, hj⟩ := (Outcome.mapM_spec hvs).2.2 item hitem
      exact ih hj
    | _ => cases h
  | optional _ ih =>
    intro json v h
    by_cases hne : json = .null
    · rw [hne, ofJson] at h
      obtain rfl := Except.ok.inj h
      rw [conforms]
    · rw [ofJson_optional _ hne] at h
      exact conforms_optional_of (ih h)
  | map _ _ ihkey ihvalue =>
    intro json v h
    cases json with
    | object members =>
      rw [ofJson_map] at h
      obtain ⟨entries, hentries, rfl⟩ := Outcome.map_eq_ok.1 h
      refine conforms_map.2 fun e he => ?_
      obtain ⟨m, -, hm⟩ := (Outcome.mapM_spec hentries).2.2 e he
      obtain ⟨k, hk, hm⟩ := Outcome.bind_eq_ok.1 hm
      obtain ⟨w, hw, rfl⟩ := Outcome.bind_pure_eq_ok.1 hm
      exact ⟨ne_null_of_ofJson_string hk, ihkey hk, ihvalue hw⟩
    | _ => cases h
  | tuple hnames _ ih =>
    intro json v h
    cases json with
    | object members =>
      rw [ofJson, fieldsOfJson_eq] at h
      obtain ⟨fields, hfields, rfl⟩ := Outcome.bind_pure_eq_ok.1 h
      have hdistinct : fields.Pairwise fun a b => a.1 ≠ b.1 :=
        (Outcome.pairwise_mapM hfields fun c _ d _ e f he hf => by
          rw [(fieldOfComponent_eq_ok he).1, (fieldOfComponent_eq_ok hf).1]).1 hnames
      refine conforms_tuple_ofList hdistinct fun c hc => ?_
      obtain ⟨f, hf, hread⟩ := (Outcome.mapM_spec hfields).2.1 c hc
      obtain ⟨hname, j, -, hj⟩ := fieldOfComponent_eq_ok hread
      exact ⟨f.2, hname ▸ hf, ih c hc hj⟩
    | _ => cases h

end Value

end CellAbi
