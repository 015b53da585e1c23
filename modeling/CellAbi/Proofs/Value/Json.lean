import CellAbi.Proofs.Address.Text
import CellAbi.Proofs.Bag.Preorder
import CellAbi.Proofs.Outcome
import CellAbi.Proofs.Text.Base64
import CellAbi.Proofs.Value.Agreement
import CellAbi.Proofs.Value.Proper
import CellAbi.Value.Json

/-!
# Values read back from JSON

The JSON form of a proper value is read as a value that agrees with it.  Only the entries of maps
come back in another order; keys are read exactly, so different keys have different texts and no
entry is lost.

    Proper key k → keyText k = .ok text → ofJson key (.string text) = .ok k       (`ofJson_keyText`)
    Proper type v → toJson v = .ok json → ∃ w, ofJson type json = .ok w ∧ Agrees v w
                                                                               (`Proper.readsBack`)
-/

namespace CellAbi

open Text

theorem Cell.ofBase64_toBase64 {c : Cell} (hc : c.Normal) (hsize : c.size < 2 ^ 32) :
    Cell.ofBase64 c.toBase64 = .ok c := by
  have hread := Bag.read_toBag hc hsize []
  rw [List.append_nil] at hread
  rw [Cell.ofBase64, Cell.toBase64, Base64.encode, String.toList_ofList,
    Base64.decodeChars_trim_encodeChars]
  show (Bag.read c.toBag).mapError _ = _
  rw [hread]
  rfl

namespace Value

variable {type key : AbiType} {v k : Value} {json : Json}

/-! ## Values without parts -/

theorem integerOfJson_toString (type : AbiType) (i : Int) :
    integerOfJson type (.string (toString i)) = .ok i := by
  rw [integerOfJson, integerOfText_trim_toString]
  rfl

theorem ofJson_integer {signed : Bool} {width : IntWidth} {i : Int}
    (h : AbiType.checkInteger (.integer signed width) i = .ok ()) :
    ofJson (.integer signed width) (.string (toString i)) = .ok (int i) := by
  rw [ofJson, integerOfJson_toString]
  show (AbiType.checkInteger (.integer signed width) i >>= _) = _
  rw [h]
  rfl

theorem ofJson_bytes {length : Option Nat} {b : List UInt8}
    (h : ∀ n, length = some n → b.length = n) :
    ofJson (.bytes length) (.string (Hex.encode b)) = .ok (bytes b) := by
  have hread : bytesOfJson length (.string (Hex.encode b)) = .ok b := by
    unfold bytesOfJson
    show (Hex.decode (Hex.encode b)).mapError _ >>= _ = _
    rw [Hex.decode_encode]
    cases length with
    | none => rfl
    | some n =>
      show (if b.length ≠ n then _ else _) = _
      rw [if_neg (not_not_intro (h n rfl))]
      rfl
  rw [ofJson, hread]
  rfl

theorem ofJson_cell {c : Cell} (hc : c.Normal) (hsize : c.size < 2 ^ 32) :
    ofJson .cell (.string c.toBase64) = .ok (cell c) := by
  have hread := Cell.ofBase64_toBase64 hc hsize
  -- Nothing but this is used of the text.
  generalize c.toBase64 = text at hread ⊢
  rw [ofJson]
  show (Cell.ofBase64 text).mapError AbiError.cell >>= _ = _
  rw [hread]
  rfl

theorem ofJson_address {strict : Bool} {a : Address}
    (h : strict = true → a.standard?.isSome = true) :
    ofJson (.address strict) (.string a.toText) = .ok (address a) := by
  rw [ofJson]
  show ((if strict then (StandardAddress.ofRaw a.toText).map .standard
    else Address.ofText a.toText).mapError AbiError.address >>= _) = _
  cases strict with
  | false =>
    rw [if_neg Bool.false_ne_true, a.ofText_toText]
    rfl
  | true =>
    cases a with
    | standard a =>
      rw [if_pos rfl, Address.toText, StandardAddress.ofRaw_toRaw]
      rfl
    | external a => cases h rfl

/-! ## Keys -/

/-- A key is read back from its text. -/
theorem ofJson_keyText (h : Proper key k) {text : String} (ht : keyText k = .ok text) :
    ofJson key (.string text) = .ok k := by
  induction h with
  | absent => cases ht
  | present hne h ih => exact ih ht
  | int h =>
    obtain rfl := Except.ok.inj ht
    exact ofJson_integer h
  | bool b =>
    obtain rfl := Except.ok.inj ht
    cases b <;> rfl
  | string s =>
    obtain rfl := Except.ok.inj ht
    rfl
  | bytes h =>
    obtain rfl := Except.ok.inj ht
    exact ofJson_bytes h
  | cell => cases ht
  | noAddress => cases ht
  | address h =>
    obtain rfl := Except.ok.inj ht
    exact ofJson_address h
  | array => cases ht
  | map => cases ht
  | tuple => cases ht

theorem isPlain_of_keyText {text : String} (h : keyText k = .ok text) : k.isPlain = true := by
  cases k with
  | array _ | map _ | tuple _ => cases h
  | _ => rfl

/-- Keys of one type have different texts iff they are not equal. -/
theorem keyText_ne_iff {k' : Value} (h : Proper key k) (h' : Proper key k') {text text' : String}
    (ht : keyText k = .ok text) (ht' : keyText k' = .ok text') :
    equal k k' = false ↔ text ≠ text' := by
  constructor
  · rintro hne rfl
    have hread := ofJson_keyText h ht
    rw [ofJson_keyText h' ht'] at hread
    obtain rfl := Except.ok.inj hread
    rw [equal_self] at hne
    cases hne
  · intro hne
    rw [Bool.eq_false_iff]
    intro heq
    obtain rfl := eq_of_equal (isPlain_of_keyText ht) heq
    exact hne (Except.ok.inj (ht.symm.trans ht'))

/-! ## Parts -/

/-- The member that an entry of a map becomes. -/
def memberOfEntry (e : Value × Value) : Except AbiError (String × Json) := do
  return (← keyText e.1, ← toJson e.2)

/-- The member that a field of a tuple becomes. -/
def memberOfField (e : String × Value) : Except AbiError (String × Json) := do
  return (e.1, ← toJson e.2)

theorem itemsToJson_eq (items : List Value) : itemsToJson items = items.mapM toJson := by
  induction items with
  | nil => rfl
  | cons item rest ih => rw [itemsToJson, ih, List.mapM_cons]

theorem entriesToJson_eq (entries : List (Value × Value)) :
    entriesToJson entries = entries.mapM memberOfEntry := by
  induction entries with
  | nil => rfl
  | cons e rest ih =>
    cases e
    rw [entriesToJson, ih, List.mapM_cons]
    simp only [memberOfEntry, bind_assoc, pure_bind]

theorem fieldsToJson_eq (fields : List (String × Value)) :
    fieldsToJson fields = fields.mapM memberOfField := by
  induction fields with
  | nil => rfl
  | cons e rest ih =>
    cases e
    rw [fieldsToJson, ih, List.mapM_cons]
    simp only [memberOfField, bind_assoc, pure_bind]

theorem memberOfEntry_eq_ok {e : Value × Value} {m : String × Json} :
    memberOfEntry e = .ok m ↔ keyText e.1 = .ok m.1 ∧ toJson e.2 = .ok m.2 := by
  rw [memberOfEntry, Outcome.bind_eq_ok]
  simp only [Outcome.bind_eq_ok]
  constructor
  · rintro ⟨text, ht, json, hj, h⟩
    obtain rfl := Except.ok.inj h
    exact ⟨ht, hj⟩
  · rintro ⟨ht, hj⟩
    exact ⟨m.1, ht, m.2, hj, rfl⟩

theorem memberOfField_eq_ok {e : String × Value} {m : String × Json} :
    memberOfField e = .ok m ↔ e.1 = m.1 ∧ toJson e.2 = .ok m.2 := by
  rw [memberOfField, Outcome.bind_eq_ok]
  constructor
  · rintro ⟨json, hj, h⟩
    obtain rfl := Except.ok.inj h
    exact ⟨rfl, hj⟩
  · rintro ⟨hname, hj⟩
    exact ⟨m.2, hj, by rw [hname]; rfl⟩

theorem toJson_array_eq_ok {items : List Value} :
    toJson (array items) = .ok json ↔ ∃ js, items.mapM toJson = .ok js ∧ json = .array js := by
  rw [toJson, itemsToJson_eq, Outcome.bind_pure_eq_ok]

theorem toJson_map_eq_ok {entries : List (Value × Value)} :
    toJson (map entries) = .ok json ↔
      ∃ members, entries.mapM memberOfEntry = .ok members ∧ json = .ofMembers members := by
  rw [toJson, entriesToJson_eq, Outcome.bind_pure_eq_ok]

theorem toJson_tuple_eq_ok {fields : List (String × Value)} :
    toJson (tuple fields) = .ok json ↔
      ∃ members, fields.mapM memberOfField = .ok members ∧ json = .ofMembers members := by
  rw [toJson, fieldsToJson_eq, Outcome.bind_pure_eq_ok]

/-- The entry that a member is read as. -/
def entryOfMember (key value : AbiType) (m : String × Json) : Except AbiError (Value × Value) := do
  return (← ofJson key (.string m.1), ← ofJson value m.2)

theorem ofJson_map (key value : AbiType) (members : List (String × Json)) :
    ofJson (.map key value) (.object members) =
      (members.mapM (entryOfMember key value)).map map := by
  rw [ofJson]
  rfl

/-- The field that a component of the tuple is read as. -/
def fieldOfComponent (tuple : AbiType) (members : List (String × Json)) (c : String × AbiType) :
    Except AbiError (String × Value) :=
  match Sorted.lookup c.1 members with
  | none => .error (.invalidJson tuple (.missingField c.1))
  | some json => do return (c.1, ← ofJson c.2 json)

theorem fieldsOfJson_eq (tuple : AbiType) (components : List (String × AbiType))
    (members : List (String × Json)) :
    fieldsOfJson tuple components members = components.mapM (fieldOfComponent tuple members) := by
  induction components with
  | nil => rfl
  | cons c rest ih =>
    cases c with
    | mk name type =>
      rw [fieldsOfJson, ih, List.mapM_cons, fieldOfComponent]
      cases Sorted.lookup name members with
      | none => rfl
      | some json => simp only [bind_assoc, pure_bind]

/-! ## Composite values -/

/-- The value is read back from its JSON form up to agreement. -/
def ReadsBack (type : AbiType) (v : Value) : Prop :=
  ∀ json, toJson v = .ok json → ∃ w, ofJson type json = .ok w ∧ Agrees v w

theorem readsBack_array {element : AbiType} {items : List Value}
    (h : ∀ item ∈ items, ReadsBack element item) : ReadsBack (.array element) (array items) := by
  intro json hjson
  obtain ⟨js, hjs, rfl⟩ := toJson_array_eq_ok.1 hjson
  clear hjson
  suffices ∃ ws, js.mapM (ofJson element) = .ok ws ∧ Agrees (array items) (array ws) by
    obtain ⟨ws, hws, hagrees⟩ := this
    exact ⟨array ws, by rw [ofJson, hws]; rfl, hagrees⟩
  induction items generalizing js with
  | nil =>
    obtain rfl := Except.ok.inj hjs
    exact ⟨[], rfl, agrees_self _⟩
  | cons item rest ih =>
    obtain ⟨j, more, hj, hmore, rfl⟩ := Outcome.mapM_cons_eq_ok.1 hjs
    obtain ⟨w, hw, hhead⟩ := h item List.mem_cons_self j hj
    obtain ⟨ws, hws, hrest⟩ := ih (fun item hi => h item (List.mem_cons_of_mem _ hi)) more hmore
    exact ⟨w :: ws, Outcome.mapM_cons_eq_ok.2 ⟨w, ws, hw, hws, rfl⟩, agrees_array_cons hhead hrest⟩

theorem readsBack_map {value : AbiType} {entries : List (Value × Value)}
    (hdistinct : entries.Pairwise fun e f => equal e.1 f.1 = false)
    (hkey : ∀ e ∈ entries, Proper key e.1) (hvalue : ∀ e ∈ entries, ReadsBack value e.2) :
    ReadsBack (.map key value) (map entries) := by
  intro json hjson
  obtain ⟨members, hmembers, rfl⟩ := toJson_map_eq_ok.1 hjson
  -- No two members have one name, so that sorting loses none of them.
  have hnames : ∀ d ∈ entries, ∀ e ∈ entries, ∀ m n, memberOfEntry d = .ok m →
      memberOfEntry e = .ok n → equal d.1 e.1 = false → m.1 ≠ n.1 := fun d hd e he m n hm hn =>
    (keyText_ne_iff (hkey d hd) (hkey e he) (memberOfEntry_eq_ok.1 hm).1
      (memberOfEntry_eq_ok.1 hn).1).1
  have hback : ∀ e ∈ entries, ∀ m, memberOfEntry e = .ok m →
      ∃ f, entryOfMember key value m = .ok f ∧ Agrees e.1 f.1 ∧ Agrees e.2 f.2 := by
    intro e he m hm
    obtain ⟨hk, hj⟩ := memberOfEntry_eq_ok.1 hm
    obtain ⟨w, hw, hagrees⟩ := hvalue e he _ hj
    refine ⟨(e.1, w), ?_, agrees_self _, hagrees⟩
    rw [entryOfMember, ofJson_keyText (hkey e he) hk, hw]
    rfl
  obtain ⟨ws, hws, hagrees⟩ := exists_agrees_map hmembers hdistinct hnames hback
  exact ⟨map ws, by rw [Json.ofMembers, ofJson_map, hws]; rfl, hagrees⟩

theorem readsBack_tuple {components : List (String × AbiType)} {fields : List (String × Value)}
    (ha : Sorted.Ascending fields)
    (hnames : ∀ name, name ∈ fields.map Prod.fst ↔ name ∈ components.map Prod.fst)
    (h : ∀ name type v, (name, type) ∈ components → (name, v) ∈ fields → ReadsBack type v) :
    ReadsBack (.tuple components) (tuple fields) := by
  intro json hjson
  obtain ⟨members, hmembers, rfl⟩ := toJson_tuple_eq_ok.1 hjson
  obtain ⟨-, hto, -⟩ := Outcome.mapM_spec hmembers
  have hascending : Sorted.Ascending members :=
    (Outcome.pairwise_mapM hmembers fun e _ f _ a b he hf => by
      rw [(memberOfField_eq_ok.1 he).1, (memberOfField_eq_ok.1 hf).1]).1 ha
  have hperm := Sorted.perm_ofList (List.pairwise_map.1 (Sorted.nodup_keys hascending))
  have hread : ∀ c ∈ components, ∃ f,
      fieldOfComponent (.tuple components) (Sorted.ofList members) c = .ok f ∧
        f.1 = c.1 ∧ ∃ v, (c.1, v) ∈ fields ∧ Agrees v f.2 := by
    intro c hc
    obtain ⟨e, he, hname⟩ := List.mem_map.1 ((hnames c.1).2 (List.mem_map_of_mem hc))
    obtain ⟨m, hm, hme⟩ := hto e he
    obtain ⟨hname', hj⟩ := memberOfField_eq_ok.1 hme
    obtain ⟨w, hw, hagrees⟩ := h c.1 c.2 e.2 hc (hname ▸ he) m.2 hj
    have hlookup : Sorted.lookup c.1 (Sorted.ofList members) = some m.2 := by
      refine (Sorted.lookup_eq_some (Sorted.ascending_ofList members)).2 (hperm.mem_iff.2 ?_)
      rwa [← hname, hname']
    refine ⟨(c.1, w), ?_, rfl, e.2, hname ▸ he, hagrees⟩
    rw [fieldOfComponent, hlookup]
    show (ofJson c.2 m.2 >>= _) = _
    rw [hw]
    rfl
  obtain ⟨ws, hws, -, hto', hfrom'⟩ := Outcome.exists_mapM_eq_ok hread
  refine ⟨tuple (Sorted.ofList ws), ?_, agrees_tuple_ofList ha (fun name => ?_) fun f hf => ?_⟩
  · rw [Json.ofMembers, ofJson, fieldsOfJson_eq, hws]
    rfl
  · rw [hnames]
    constructor
    · intro hname
      obtain ⟨c, hc, rfl⟩ := List.mem_map.1 hname
      obtain ⟨f, hf, hkey, -⟩ := hto' c hc
      exact List.mem_map.2 ⟨f, hf, hkey⟩
    · intro hname
      obtain ⟨f, hf, rfl⟩ := List.mem_map.1 hname
      obtain ⟨c, hc, hkey, -⟩ := hfrom' f hf
      exact List.mem_map.2 ⟨c, hc, hkey.symm⟩
  · obtain ⟨c, hc, hkey, v, hv, hagrees⟩ := hfrom' f hf
    exact ⟨v, hkey ▸ hv, hagrees⟩

theorem eq_null_of_toJson (h : toJson v = .ok .null) : v = null := by
  cases v with
  | null => rfl
  | array items =>
    obtain ⟨_, -, h⟩ := toJson_array_eq_ok.1 h
    cases h
  | map entries =>
    obtain ⟨_, -, h⟩ := toJson_map_eq_ok.1 h
    cases h
  | tuple fields =>
    obtain ⟨_, -, h⟩ := toJson_tuple_eq_ok.1 h
    cases h
  | _ => cases h

theorem ofJson_optional (inner : AbiType) (hne : json ≠ .null) :
    ofJson (.optional inner) json = ofJson inner json := by
  rw [ofJson]
  exact hne

theorem readsBack_of_eq (hjson : toJson v = .ok json) (hread : ofJson type json = .ok v) :
    ReadsBack type v := by
  intro json' hjson'
  obtain rfl := Except.ok.inj (hjson.symm.trans hjson')
  exact ⟨v, hread, agrees_self v⟩

/-- The JSON form of a proper value is read as a value that agrees with it. -/
theorem Proper.readsBack (h : Proper type v) : ReadsBack type v := by
  induction h with
  | absent => exact readsBack_of_eq rfl (by rw [ofJson])
  | present hne h ih =>
    intro json hjson
    obtain ⟨w, hw, hagrees⟩ := ih json hjson
    have hjne : json ≠ .null := fun hj => hne (eq_null_of_toJson (hj ▸ hjson))
    exact ⟨w, by rw [ofJson_optional _ hjne, hw], hagrees⟩
  | int h => exact readsBack_of_eq rfl (ofJson_integer h)
  | bool b => exact readsBack_of_eq rfl rfl
  | string s => exact readsBack_of_eq rfl rfl
  | bytes h => exact readsBack_of_eq rfl (ofJson_bytes h)
  | cell hc hsize => exact readsBack_of_eq rfl (ofJson_cell hc hsize)
  | noAddress strict => exact readsBack_of_eq rfl rfl
  | address h => exact readsBack_of_eq rfl (ofJson_address h)
  | array h ih => exact readsBack_array ih
  | map hdistinct hnull hkey hvalue ihkey ihvalue => exact readsBack_map hdistinct hkey ihvalue
  | tuple ha hnames h ih => exact readsBack_tuple ha hnames ih

end Value

end CellAbi
