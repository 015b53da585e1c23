import CellAbi.Proofs.AbiType.Legal
import CellAbi.Proofs.Value.Json

/-!
# The JSON round trip

Every regular value of a type that has a descriptor can be written as JSON, and is read back as a
value that is equal to it.

    Legal type → Proper type v → ∃ json, toJson v = .ok json               (`Proper.exists_toJson`)
    conforms type v = .ok () → Declared type v → Regular v →
      ∃ json w, toJson v = .ok json ∧ ofJson type json = .ok w ∧ …               (`ofJson_toJson`)
-/

namespace CellAbi.Value

variable {type key : AbiType} {v k : Value}

/-! ## Writing succeeds -/

/-- Keys of scalar types have a text. -/
theorem Proper.exists_keyText (h : Proper key k) (hscalar : key.isScalarKey = true)
    (hnull : k ≠ null) : ∃ text, keyText k = .ok text := by
  cases h with
  | absent => cases hscalar
  | present => cases hscalar
  | int h => exact ⟨_, rfl⟩
  | bool b => exact ⟨_, rfl⟩
  | string s => exact ⟨_, rfl⟩
  | bytes h => exact ⟨_, rfl⟩
  | cell => cases hscalar
  | noAddress => exact absurd rfl hnull
  | address h => exact ⟨_, rfl⟩
  | array => cases hscalar
  | map => cases hscalar
  | tuple => cases hscalar

theorem exists_toJson_array {items : List Value}
    (h : ∀ item ∈ items, ∃ json, toJson item = .ok json) :
    ∃ json, toJson (array items) = .ok json := by
  obtain ⟨js, hjs⟩ := Outcome.exists_mapM h
  exact ⟨_, toJson_array_eq_ok.2 ⟨js, hjs, rfl⟩⟩

theorem exists_toJson_map {entries : List (Value × Value)}
    (hkey : ∀ e ∈ entries, ∃ text, keyText e.1 = .ok text)
    (hvalue : ∀ e ∈ entries, ∃ json, toJson e.2 = .ok json) :
    ∃ json, toJson (map entries) = .ok json := by
  have hentries : ∀ e ∈ entries, ∃ m, memberOfEntry e = .ok m := by
    intro e he
    obtain ⟨text, ht⟩ := hkey e he
    obtain ⟨json, hj⟩ := hvalue e he
    exact ⟨(text, json), memberOfEntry_eq_ok.2 ⟨ht, hj⟩⟩
  obtain ⟨members, hmembers⟩ := Outcome.exists_mapM hentries
  exact ⟨_, toJson_map_eq_ok.2 ⟨members, hmembers, rfl⟩⟩

theorem exists_toJson_tuple {fields : List (String × Value)}
    (h : ∀ e ∈ fields, ∃ json, toJson e.2 = .ok json) :
    ∃ json, toJson (tuple fields) = .ok json := by
  have hfields : ∀ e ∈ fields, ∃ m, memberOfField e = .ok m := by
    intro e he
    obtain ⟨json, hj⟩ := h e he
    exact ⟨(e.1, json), memberOfField_eq_ok.2 ⟨rfl, hj⟩⟩
  obtain ⟨members, hmembers⟩ := Outcome.exists_mapM hfields
  exact ⟨_, toJson_tuple_eq_ok.2 ⟨members, hmembers, rfl⟩⟩

/-- Every proper value of a legal type has a JSON form. -/
theorem Proper.exists_toJson (h : Proper type v) : type.Legal → ∃ json, toJson v = .ok json := by
  induction h with
  | absent => exact fun _ => ⟨_, rfl⟩
  | present hne h ih =>
    rintro (_ | _ | _ | _ | _ | _ | _ | hinner)
    exact ih hinner
  | int h => exact fun _ => ⟨_, rfl⟩
  | bool b => exact fun _ => ⟨_, rfl⟩
  | string s => exact fun _ => ⟨_, rfl⟩
  | bytes h => exact fun _ => ⟨_, rfl⟩
  | cell hc hsize => exact fun _ => ⟨_, rfl⟩
  | noAddress strict => exact fun _ => ⟨_, rfl⟩
  | address h => exact fun _ => ⟨_, rfl⟩
  | array h ih =>
    intro hlegal
    cases hlegal with
    | array helement => exact exists_toJson_array fun item hi => ih item hi helement
  | map hdistinct hnull hkey hvalue ihkey ihvalue =>
    intro hlegal
    cases hlegal with
    | map hscalar hlkey hlvalue =>
      exact exists_toJson_map (fun e he => (hkey e he).exists_keyText hscalar (hnull e he))
        fun e he => ihvalue e he hlvalue
  | tuple ha hnames h ih =>
    intro hlegal
    cases hlegal with
    | tuple hne hcomponents =>
      refine exists_toJson_tuple fun e he => ?_
      obtain ⟨c, hc, hname⟩ := List.mem_map.1 ((hnames e.1).1 (List.mem_map_of_mem he))
      exact ih e.1 c.2 e.2 (hname ▸ hc) he (hcomponents c hc)

/-! ## There and back -/

/-- A regular value that conforms to the type of a descriptor and has exactly the declared fields is
written as JSON and read back as an equal value. -/
theorem ofJson_toJson {descriptor : String} {components : Option (List Param)}
    (hparse : AbiType.parse descriptor components = .ok type) (hconforms : conforms type v = .ok ())
    (hdeclared : Declared type v) (hregular : Regular v) :
    ∃ json w, toJson v = .ok json ∧ ofJson type json = .ok w ∧ equal w v = true ∧
      equal v w = true := by
  have hproper := proper_of_conforms hconforms hdeclared hregular
  obtain ⟨json, hjson⟩ := hproper.exists_toJson (AbiType.legal_of_parse hparse)
  obtain ⟨w, hw, hvw, hwv⟩ := hproper.readsBack json hjson
  exact ⟨json, w, hjson, hw, hwv, hvw⟩

/-- A map whose members stand in another order than its entries: `-2` is sorted before `10`. -/
def outOfOrder : Value := map [(int 10, null),
  (int (-2), tuple [("c", cell .empty), ("n", array [int 1, int 65535])])]

theorem ofJson_toJson_outOfOrder :
    ∃ type json w, AbiType.parse "map(int8,optional(tuple))"
        (some [⟨"c", "cell", none, none⟩, ⟨"n", "uint16[]", none, none⟩]) = .ok type ∧
      toJson outOfOrder = .ok json ∧ ofJson type json = .ok w ∧ equal w outOfOrder = true ∧
      equal outOfOrder w = true := by
  have hn : AbiType.ofDescriptor "uint16[]".toList none = .ok (.array (.uint 16)) :=
    AbiType.ofDescriptor_array rfl (AbiType.ofDescriptor_plain rfl)
  have hc : AbiType.ofDescriptor "cell".toList none = .ok .cell := AbiType.ofDescriptor_plain rfl
  have hcomponents := AbiType.ofParams_cons (p := ⟨"c", "cell", none, none⟩) hc
    (AbiType.ofParams_cons (p := ⟨"n", "uint16[]", none, none⟩) hn AbiType.ofParams_nil)
  have hkey : AbiType.ofDescriptor "int8".toList none = .ok (.int 8) :=
    AbiType.ofDescriptor_plain rfl
  have hvalue := AbiType.ofDescriptor_optional (d := "optional(tuple)".toList) rfl
    (AbiType.ofDescriptor_tuple rfl hcomponents)
  have hparse := AbiType.ofDescriptor_map (d := "map(int8,optional(tuple))".toList) rfl hkey rfl
    hvalue
  have hsound : Sound outOfOrder := by
    have hnames : compare "c" "n" = .lt := by decide
    have hempty : Cell.empty.Normal ∧ Cell.empty.size < 2 ^ 32 :=
      ⟨⟨⟨rfl, fun i _ => rfl, by decide, by decide⟩, trivial⟩, by decide⟩
    simp [outOfOrder, Sound, SoundEntries, SoundFields, SoundItems, Sorted.Ascending, equal, hnames,
      hempty]
  obtain ⟨json, w, hread⟩ := ofJson_toJson (v := outOfOrder) hparse rfl
    (by simp [outOfOrder, Declared, DeclaredAll, AbiType.int, AbiType.uint]) hsound.regular
  exact ⟨_, json, w, hparse, hread⟩

end CellAbi.Value
