import CellAbi.Proofs.AbiType.Legal
import CellAbi.Proofs.Value.Json

/-!
# Members of JSON objects

What becomes of the entries of maps and of the fields of tuples when a value is written as JSON.  A
map loses entries iff two of its keys have one text; in a value that conforms to its type, these are
equal keys.  A tuple keeps all its fields, be they declared or not.  Conformance excludes neither.

    toJson (map entries) = .ok json → ∃ members, json = .object members ∧ KeepsKeys entries members
                                                                                (`members_of_map`)
    toJson (tuple fields) = .ok json → ∃ members, json = .object members ∧ …    (`members_of_tuple`)
    conforms type v = .ok () → toJson v = .ok json → …                      (`members_of_conforms`)
-/

namespace CellAbi

namespace Value

variable {type key : AbiType} {v w k : Value} {json : Json}

/-! ## Keys -/

/-- Values with a key text have no parts that could be irregular. -/
theorem regular_of_keyText {text : String} (h : keyText k = .ok text) : Regular k := by
  cases k with
  | int _ => exact ⟨nofun, nofun, nofun⟩
  | bool _ => exact ⟨nofun, nofun, nofun⟩
  | string _ => exact ⟨nofun, nofun, nofun⟩
  | bytes _ => exact ⟨nofun, nofun, nofun⟩
  | address _ => exact ⟨nofun, nofun, nofun⟩
  | _ => cases h

theorem declared_of_keyText {text : String} (h : keyText k = .ok text) : ∀ key, Declared key k
  | .optional inner => declared_of_keyText h inner
  | .array _ => by
    cases k with
    | array _ => cases h
    | _ => trivial
  | .map .. => by
    cases k with
    | map _ => cases h
    | _ => trivial
  | .tuple _ => by
    cases k with
    | tuple _ => cases h
    | _ => trivial
  | .integer .. | .bool | .string | .bytes _ | .cell | .address _ => trivial

theorem proper_of_keyText {text : String} (hconforms : conforms key k = .ok ())
    (h : keyText k = .ok text) : Proper key k :=
  proper_of_conforms hconforms (declared_of_keyText h key) (regular_of_keyText h)

/-! ## Parts have a JSON form -/

theorem exists_toJson_of_keyText {text : String} (h : keyText k = .ok text) :
    ∃ json, toJson k = .ok json := by
  cases k with
  | int _ => exact ⟨_, rfl⟩
  | bool _ => exact ⟨_, rfl⟩
  | string _ => exact ⟨_, rfl⟩
  | bytes _ => exact ⟨_, rfl⟩
  | address _ => exact ⟨_, rfl⟩
  | _ => cases h

theorem Part.exists_toJson (h : Part w v) :
    (∃ json, toJson v = .ok json) → ∃ json, toJson w = .ok json := by
  induction h with
  | self => exact id
  | item hmem _ ih =>
    rintro ⟨json, hjson⟩
    obtain ⟨js, hjs, -⟩ := toJson_array_eq_ok.1 hjson
    obtain ⟨j, -, hj⟩ := (Outcome.mapM_spec hjs).2.1 _ hmem
    exact ih ⟨j, hj⟩
  | key hmem _ ih =>
    rintro ⟨json, hjson⟩
    obtain ⟨members, hmembers, -⟩ := toJson_map_eq_ok.1 hjson
    obtain ⟨m, -, hm⟩ := (Outcome.mapM_spec hmembers).2.1 _ hmem
    exact ih (exists_toJson_of_keyText (memberOfEntry_eq_ok.1 hm).1)
  | value hmem _ ih =>
    rintro ⟨json, hjson⟩
    obtain ⟨members, hmembers, -⟩ := toJson_map_eq_ok.1 hjson
    obtain ⟨m, -, hm⟩ := (Outcome.mapM_spec hmembers).2.1 _ hmem
    exact ih ⟨m.2, (memberOfEntry_eq_ok.1 hm).2⟩
  | field hmem _ ih =>
    rintro ⟨json, hjson⟩
    obtain ⟨members, hmembers, -⟩ := toJson_tuple_eq_ok.1 hjson
    obtain ⟨m, -, hm⟩ := (Outcome.mapM_spec hmembers).2.1 _ hmem
    exact ih ⟨m.2, (memberOfField_eq_ok.1 hm).2⟩

/-! ## Entries and fields -/

/-- The members are those of the texts of the keys, one for each text. -/
structure KeepsKeys (entries : List (Value × Value)) (members : List (String × Json)) : Prop where
  names : ∀ name, name ∈ members.map Prod.fst ↔ ∃ e ∈ entries, keyText e.1 = .ok name
  length_le : members.length ≤ entries.length
  length_iff : members.length = entries.length ↔
    entries.Pairwise fun e f => keyText e.1 ≠ keyText f.1

theorem members_of_map {entries : List (Value × Value)} (hjson : toJson (map entries) = .ok json) :
    ∃ members, json = .object members ∧ KeepsKeys entries members := by
  obtain ⟨members, hmembers, rfl⟩ := toJson_map_eq_ok.1 hjson
  obtain ⟨hlen, hto, hfrom⟩ := Outcome.mapM_spec hmembers
  have hnames : entries.Pairwise (fun e f => keyText e.1 ≠ keyText f.1) ↔
      members.Pairwise fun a b => a.1 ≠ b.1 := by
    refine Outcome.pairwise_mapM hmembers fun e _ f _ a b ha hb => ?_
    rw [(memberOfEntry_eq_ok.1 ha).1, (memberOfEntry_eq_ok.1 hb).1, ne_eq, Except.ok.injEq]
  refine ⟨Sorted.ofList members, rfl, fun name => ?_, ?_, ?_⟩
  · rw [Sorted.mem_keys_ofList, List.mem_map]
    constructor
    · rintro ⟨m, hm, rfl⟩
      obtain ⟨e, he, hme⟩ := hfrom m hm
      exact ⟨e, he, (memberOfEntry_eq_ok.1 hme).1⟩
    · rintro ⟨e, he, hname⟩
      obtain ⟨m, hm, hme⟩ := hto e he
      exact ⟨m, hm, Except.ok.inj ((memberOfEntry_eq_ok.1 hme).1.symm.trans hname)⟩
  · rw [← hlen]
    exact Sorted.length_ofList_le members
  · rw [hnames, ← hlen, Sorted.length_ofList_iff]

/-- The keys of a map that conforms are equal iff their texts are. -/
theorem pairwise_keyText_iff {entries : List (Value × Value)}
    (hkeys : ∀ e ∈ entries, conforms key e.1 = .ok ()) (hjson : toJson (map entries) = .ok json) :
    entries.Pairwise (fun e f => keyText e.1 ≠ keyText f.1) ↔
      entries.Pairwise fun e f => equal e.1 f.1 = false := by
  obtain ⟨members, hmembers, -⟩ := toJson_map_eq_ok.1 hjson
  refine List.Pairwise.iff_of_mem fun {e f} he hf => ?_
  obtain ⟨a, -, ha⟩ := (Outcome.mapM_spec hmembers).2.1 e he
  obtain ⟨b, -, hb⟩ := (Outcome.mapM_spec hmembers).2.1 f hf
  have hta := (memberOfEntry_eq_ok.1 ha).1
  have htb := (memberOfEntry_eq_ok.1 hb).1
  rw [hta, htb, ne_eq, Except.ok.injEq]
  exact (keyText_ne_iff (proper_of_keyText (hkeys e he) hta) (proper_of_keyText (hkeys f hf) htb)
    hta htb).symm

theorem members_of_tuple {fields : List (String × Value)}
    (hjson : toJson (tuple fields) = .ok json) :
    ∃ members, json = .object members ∧
      ∀ name, name ∈ members.map Prod.fst ↔ name ∈ fields.map Prod.fst := by
  obtain ⟨members, hmembers, rfl⟩ := toJson_tuple_eq_ok.1 hjson
  obtain ⟨-, hto, hfrom⟩ := Outcome.mapM_spec hmembers
  refine ⟨Sorted.ofList members, rfl, fun name => ?_⟩
  rw [Sorted.mem_keys_ofList, List.mem_map, List.mem_map]
  constructor
  · rintro ⟨m, hm, rfl⟩
    obtain ⟨e, he, hme⟩ := hfrom m hm
    exact ⟨e, he, (memberOfField_eq_ok.1 hme).1⟩
  · rintro ⟨e, he, rfl⟩
    obtain ⟨m, hm, hme⟩ := hto e he
    exact ⟨m, hm, (memberOfField_eq_ok.1 hme).1.symm⟩

theorem mem_fields_of_conforms {components : List (String × AbiType)}
    {fields : List (String × Value)} (h : conforms (.tuple components) (tuple fields) = .ok ())
    {name : String} (hname : name ∈ components.map Prod.fst) : name ∈ fields.map Prod.fst := by
  obtain ⟨c, hc, rfl⟩ := List.mem_map.1 hname
  obtain ⟨v, hv, -⟩ := conforms_tuple.1 h c hc
  exact List.mem_map_of_mem (Sorted.mem_of_lookup hv)

/-- At every map and tuple of a value that conforms to its type, JSON has one member for each key
text and for each field.  Where the type declares the map, no entry is lost iff no two keys are
equal; and where it declares the tuple, the members are the declared ones iff all fields are. -/
theorem members_of_conforms (hconforms : conforms type v = .ok ()) (hjson : toJson v = .ok json) :
    (∀ entries, Part (map entries) v →
      ∃ members, toJson (map entries) = .ok (.object members) ∧ KeepsKeys entries members ∧
        ∀ key value, Typed (.map key value) (map entries) type v →
          (members.length = entries.length ↔
            entries.Pairwise fun e f => equal e.1 f.1 = false)) ∧
    ∀ fields, Part (tuple fields) v →
      ∃ members, toJson (tuple fields) = .ok (.object members) ∧
        (∀ name, name ∈ members.map Prod.fst ↔ name ∈ fields.map Prod.fst) ∧
        ∀ components, Typed (.tuple components) (tuple fields) type v →
          ((∀ name, name ∈ members.map Prod.fst ↔ name ∈ components.map Prod.fst) ↔
            ∀ name ∈ fields.map Prod.fst, name ∈ components.map Prod.fst) := by
  constructor
  · intro entries hpart
    obtain ⟨j, hj⟩ := hpart.exists_toJson ⟨json, hjson⟩
    obtain ⟨members, rfl, hkeeps⟩ := members_of_map hj
    refine ⟨members, hj, hkeeps, fun key value htyped => ?_⟩
    have hkeys := fun e he => (conforms_map.1 (htyped.conforms hconforms) e he).2.1
    rw [hkeeps.length_iff, pairwise_keyText_iff hkeys hj]
  · intro fields hpart
    obtain ⟨j, hj⟩ := hpart.exists_toJson ⟨json, hjson⟩
    obtain ⟨members, rfl, hnames⟩ := members_of_tuple hj
    refine ⟨members, hj, hnames, fun components htyped => ?_⟩
    constructor
    · exact fun h name hname => (h name).1 ((hnames name).2 hname)
    · intro h name
      rw [hnames]
      exact ⟨h name, mem_fields_of_conforms (htyped.conforms hconforms)⟩

/-- Two different keys. -/
def limits : List (Value × Value) := [(int 1, bool true), (int 2, bool false)]

theorem members_of_conforms_limits :
    ∃ json, conforms (.tuple [("limits", .map (.uint 8) .bool)]) (tuple [("limits", map limits)]) =
        .ok () ∧ toJson (tuple [("limits", map limits)]) = .ok json ∧
      (∃ members, toJson (map limits) = .ok (.object members) ∧ members.length = limits.length) ∧
      ∃ members, toJson (tuple [("limits", map limits)]) = .ok (.object members) ∧
        ∀ name, name ∈ members.map Prod.fst ↔ name ∈ ["limits"] := by
  have hconforms : conforms (.tuple [("limits", .map (.uint 8) .bool)])
      (tuple [("limits", map limits)]) = .ok () := rfl
  have hjson : toJson (tuple [("limits", map limits)]) =
      .ok (.object [("limits", .object [("1", .bool true), ("2", .bool false)])]) := rfl
  obtain ⟨hmaps, htuples⟩ := members_of_conforms hconforms hjson
  obtain ⟨ms, hms, -, hentries⟩ := hmaps limits (.field List.mem_cons_self (.self _))
  obtain ⟨ns, hns, -, hfields⟩ := htuples _ (.self _)
  have hdistinct : limits.Pairwise fun e f => equal e.1 f.1 = false := by
    simp [limits, equal]
  have hlength := (hentries _ _ (.field List.mem_cons_self rfl .self)).2 hdistinct
  exact ⟨_, hconforms, hjson, ⟨ms, hms, hlength⟩, ns, hns, (hfields _ .self).2 fun _ => id⟩

/-- One key twice. -/
def doubled : List (Value × Value) := [(int 1, bool true), (int 1, bool false)]

/-- Two fields, for a type that names the first. -/
def surplus : List (String × Value) := [("a", bool true), ("b", bool false)]

/-- Values that conform to their types may lose entries and have undeclared members. -/
theorem members_of_doubled_surplus :
    (∃ type members, AbiType.parse "map(uint8,bool)" none = .ok type ∧
      conforms type (map doubled) = .ok () ∧ toJson (map doubled) = .ok (.object members) ∧
      members.length ≠ doubled.length) ∧
    ∃ components members, AbiType.parse "tuple" (some [⟨"a", "bool", none, none⟩]) =
        .ok (.tuple components) ∧
      conforms (.tuple components) (tuple surplus) = .ok () ∧
      toJson (tuple surplus) = .ok (.object members) ∧
      ¬ ∀ name, name ∈ members.map Prod.fst ↔ name ∈ components.map Prod.fst := by
  constructor
  · have hparse : AbiType.parse "map(uint8,bool)" none = .ok (.map (.uint 8) .bool) :=
      AbiType.ofDescriptor_map rfl (AbiType.ofDescriptor_plain rfl) rfl
        (AbiType.ofDescriptor_plain rfl)
    exact ⟨_, [("1", .bool false)], hparse, rfl, rfl, by decide⟩
  · have ha : AbiType.ofDescriptor "bool".toList none = .ok .bool := AbiType.ofDescriptor_plain rfl
    have hparse := AbiType.ofDescriptor_tuple (d := "tuple".toList) rfl
      (AbiType.ofParams_cons (p := ⟨"a", "bool", none, none⟩) ha AbiType.ofParams_nil)
    refine ⟨_, [("a", .bool true), ("b", .bool false)], hparse, rfl, rfl, fun h => ?_⟩
    exact absurd ((h "b").1 (by decide)) (by decide)

end Value

end CellAbi
