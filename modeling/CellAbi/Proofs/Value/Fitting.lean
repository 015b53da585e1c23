import CellAbi.Proofs.AbiType.Range
import CellAbi.Proofs.Value.Spelling

/-!
# Values read from JSON fit their types

`Fits` says what a type asks of a value itself, apart from the parts that it declares.  What is read
from JSON fits its type in every declared part, for each of them is read as its own type.

    ofJson type json = .ok v → Typed U w type v → ∃ j, ofJson U j = .ok w
                                                                       (`exists_ofJson_of_typed`)
    ofJson type json = .ok v → Fits type v                                        (`fits_of_ofJson`)
-/

namespace CellAbi.Value

variable {type U : AbiType} {v w : Value} {json : Json}

/-- Integers are in range, byte strings of fixed length have it, strict addresses are standard ones,
no key of a map is null, and tuples have exactly the declared fields, each once. -/
def Fits : AbiType → Value → Prop
  | .integer signed width, v => ∃ i, v = int i ∧ AbiType.InRange signed width i
  | .bool, v => ∃ b, v = bool b
  | .string, v => ∃ s, v = string s
  | .bytes length, v => ∃ b, v = bytes b ∧ ∀ n, length = some n → b.length = n
  | .cell, v => ∃ c, v = cell c
  | .address strict, v => v = null ∨ ∃ a, v = address a ∧ (strict = true → ∃ s, a = .standard s)
  | .array _, v => ∃ items, v = array items
  | .optional _, _ => True
  | .map _ _, v => ∃ entries, v = map entries ∧ ∀ e ∈ entries, e.1 ≠ null
  | .tuple components, v => ∃ fields, v = tuple fields ∧
    (fields.map Prod.fst).Perm (components.map Prod.fst)

/-! ## Declared parts -/

theorem distinctNames_of_typed (h : Typed U w type v) : type.DistinctNames → U.DistinctNames := by
  induction h with
  | self => exact id
  | inner _ _ ih =>
    rintro (_ | _ | _ | _ | _ | _ | _ | hinner)
    exact ih hinner
  | item _ _ ih =>
    rintro (_ | _ | _ | _ | _ | _ | helement)
    exact ih helement
  | key _ _ ih =>
    intro hnames
    cases hnames with
    | map hkey _ => exact ih hkey
  | value _ _ ih =>
    intro hnames
    cases hnames with
    | map _ hvalue => exact ih hvalue
  | field hc _ _ ih =>
    intro hnames
    cases hnames with
    | tuple _ hcomponents => exact ih (hcomponents _ hc)

theorem ofJson_array_eq_ok {element : AbiType} {items : List Value}
    (h : ofJson (.array element) json = .ok (array items)) :
    ∃ js, json = .array js ∧ js.mapM (ofJson element) = .ok items := by
  cases json with
  | array js =>
    rw [ofJson] at h
    obtain ⟨_, hitems, h⟩ := Outcome.map_eq_ok.1 h
    cases h
    exact ⟨js, rfl, hitems⟩
  | _ => cases h

/-- With different names, every field is read as its component, and there are no other fields. -/
theorem ofJson_tuple_eq_ok {components : List (String × AbiType)}
    (hnames : components.Pairwise fun a b => a.1 ≠ b.1)
    (h : ofJson (.tuple components) json = .ok v) :
    ∃ fields, v = tuple fields ∧ (fields.map Prod.fst).Perm (components.map Prod.fst) ∧
      ∀ c ∈ components, ∀ w, Sorted.lookup c.1 fields = some w → ∃ j, ofJson c.2 j = .ok w := by
  cases json with
  | object members =>
    rw [ofJson, fieldsOfJson_eq] at h
    obtain ⟨read, hread, rfl⟩ := Outcome.bind_pure_eq_ok.1 h
    have hfst : read.map Prod.fst = components.map Prod.fst :=
      Outcome.map_eq_of_mapM hread fun c f hf => (fieldOfComponent_eq_ok hf).1
    have hdistinct : read.Pairwise fun a b => a.1 ≠ b.1 := by
      refine List.pairwise_map.1 ?_
      rw [hfst]
      exact List.pairwise_map.2 hnames
    refine ⟨_, rfl, ?_, fun c hc w hw => ?_⟩
    · rw [← hfst]
      exact (Sorted.perm_ofList hdistinct).map Prod.fst
    · obtain ⟨f, hf, hcf⟩ := (Outcome.mapM_spec hread).2.1 c hc
      obtain ⟨hname, j, -, hj⟩ := fieldOfComponent_eq_ok hcf
      have hlookup := (Sorted.lookup_ofList hdistinct).2 hf
      rw [hname, hw] at hlookup
      obtain rfl := Option.some.inj hlookup
      exact ⟨j, hj⟩
  | _ => cases h

/-- Every declared part of a value that is read is itself read, as its own type. -/
theorem exists_ofJson_of_typed (h : Typed U w type v) : ∀ {json}, type.DistinctNames →
    ofJson type json = .ok v → ∃ j, ofJson U j = .ok w := by
  induction h with
  | self => exact fun _ h => ⟨_, h⟩
  | @inner inner v hne _ ih =>
    rintro json (_ | _ | _ | _ | _ | _ | _ | hinner) h
    have hjson : json ≠ .null := by
      rintro rfl
      rw [ofJson] at h
      exact hne (Except.ok.inj h).symm
    rw [ofJson_optional inner hjson] at h
    exact ih hinner h
  | item hitem _ ih =>
    rintro json (_ | _ | _ | _ | _ | _ | helement) h
    obtain ⟨js, -, hitems⟩ := ofJson_array_eq_ok h
    obtain ⟨j, -, hj⟩ := (Outcome.mapM_spec hitems).2.2 _ hitem
    exact ih helement hj
  | key he _ ih =>
    intro json hnames h
    cases hnames with
    | map hkey _ =>
      obtain ⟨members, _, -, hentries, heq⟩ := ofJson_map_eq_ok.1 h
      cases heq
      obtain ⟨m, -, hm⟩ := (Outcome.mapM_spec hentries).2.2 _ he
      exact ih hkey (entryOfMember_eq_ok.1 hm).1
  | value he _ ih =>
    intro json hnames h
    cases hnames with
    | map _ hvalue =>
      obtain ⟨members, _, -, hentries, heq⟩ := ofJson_map_eq_ok.1 h
      cases heq
      obtain ⟨m, -, hm⟩ := (Outcome.mapM_spec hentries).2.2 _ he
      exact ih hvalue (entryOfMember_eq_ok.1 hm).2
  | field hc hlookup _ ih =>
    intro json hnames h
    cases hnames with
    | tuple hdistinct hcomponents =>
      obtain ⟨_, heq, -, hfields⟩ := ofJson_tuple_eq_ok hdistinct h
      cases heq
      obtain ⟨j, hj⟩ := hfields _ hc _ hlookup
      exact ih (hcomponents _ hc) hj

/-! ## Every part fits -/

/-- By the type; conformance says most of it, but not which fields there are. -/
theorem fits_of_ofJson (hnames : type.DistinctNames) (h : ofJson type json = .ok v) :
    Fits type v := by
  have hconforms := conforms_of_ofJson hnames h
  cases hnames with
  | integer signed width =>
    rw [ofJson] at h
    obtain ⟨i, -, h⟩ := Outcome.bind_eq_ok.1 h
    obtain ⟨_, hcheck, rfl⟩ := Outcome.bind_pure_eq_ok.1 h
    exact ⟨i, rfl, AbiType.checkInteger_iff.1 hcheck⟩
  | bool =>
    obtain ⟨b, -, rfl⟩ := Outcome.map_eq_ok.1 h
    exact ⟨b, rfl⟩
  | string =>
    obtain ⟨s, -, rfl⟩ := Outcome.map_eq_ok.1 h
    exact ⟨s, rfl⟩
  | bytes length =>
    obtain ⟨b, -, rfl⟩ := Outcome.map_eq_ok.1 h
    exact ⟨b, rfl, conforms_bytes.1 hconforms⟩
  | cell =>
    obtain ⟨_, -, h⟩ := Outcome.bind_eq_ok.1 h
    obtain ⟨c, -, rfl⟩ := Outcome.bind_pure_eq_ok.1 h
    exact ⟨c, rfl⟩
  | address strict =>
    obtain ⟨-, rfl⟩ | ⟨a, rfl, ha⟩ := addressOfJson_eq_ok h
    · exact .inl rfl
    · refine .inr ⟨a, rfl, fun hstrict => ?_⟩
      cases a with
      | standard s => exact ⟨s, rfl⟩
      | external e => cases ha hstrict
  | array helement =>
    cases json with
    | array js =>
      obtain ⟨items, -, rfl⟩ := Outcome.map_eq_ok.1 h
      exact ⟨items, rfl⟩
    | _ => cases h
  | optional hinner => trivial
  | map hkey hvalue =>
    obtain ⟨_, entries, -, -, rfl⟩ := ofJson_map_eq_ok.1 h
    exact ⟨entries, rfl, fun e he => (conforms_map.1 hconforms e he).1⟩
  | tuple hdistinct hcomponents =>
    obtain ⟨fields, rfl, hperm, -⟩ := ofJson_tuple_eq_ok hdistinct h
    exact ⟨fields, rfl, hperm⟩

/-- Whatever JSON value is read as a type whose tuples have different names, the value conforms to
the type, and each of its declared parts, at any depth, fits its own type. -/
theorem fits_of_read (hnames : type.DistinctNames) (h : ofJson type json = .ok v) :
    conforms type v = .ok () ∧ ∀ U w, Typed U w type v → Fits U w := by
  refine ⟨conforms_of_ofJson hnames h, fun U w hw => ?_⟩
  obtain ⟨j, hj⟩ := exists_ofJson_of_typed hw hnames h
  exact fits_of_ofJson (distinctNames_of_typed hw hnames) hj

/-- Bytes and a map, and a member that the type does not declare. -/
def labelled : Json := .object [("b", .string "00fF"), ("c", .null),
  ("m", .object [(" 0x10", .string "-128")])]

theorem fits_of_read_labelled :
    AbiType.DistinctNames (.tuple [("m", .map (.uint 8) (.int 8)), ("b", .bytes (some 2))]) ∧
      ofJson (.tuple [("m", .map (.uint 8) (.int 8)), ("b", .bytes (some 2))]) labelled =
        .ok (tuple [("b", bytes [0x00, 0xff]), ("m", map [(int 16, int (-128))])]) ∧
      conforms (.tuple [("m", .map (.uint 8) (.int 8)), ("b", .bytes (some 2))])
        (tuple [("b", bytes [0x00, 0xff]), ("m", map [(int 16, int (-128))])]) = .ok () ∧
      Fits (.int 8) (int (-128)) := by
  have hnames : AbiType.DistinctNames
      (.tuple [("m", .map (.uint 8) (.int 8)), ("b", .bytes (some 2))]) := by
    refine .tuple (by decide) fun c hc => ?_
    simp only [List.mem_cons, List.not_mem_nil, or_false] at hc
    rcases hc with rfl | rfl
    · exact .map (.integer _ _) (.integer _ _)
    · exact .bytes _
  have hread : ofJson (.tuple [("m", .map (.uint 8) (.int 8)), ("b", .bytes (some 2))]) labelled =
      .ok (tuple [("b", bytes [0x00, 0xff]), ("m", map [(int 16, int (-128))])]) := rfl
  obtain ⟨hconforms, hfits⟩ := fits_of_read hnames hread
  exact ⟨hnames, hread, hconforms,
    hfits _ _ (.field List.mem_cons_self rfl (.value List.mem_cons_self .self))⟩

end CellAbi.Value
